import Stopwatch.Text

/-!
# Requests and the security policy

Every answer carries hardening headers. A policy may allow pages of other origins to read the
answers; the headers that say so are there only if the origin of the request is allowed. A preflight
request (method `OPTIONS`) is answered by the policy itself and does not reach the handler behind
it.
-/

namespace Stopwatch

namespace Server

/-- What a client asks for. -/
structure Request where
  method : Text := "GET"
  /-- The path with the query. -/
  target : Text
  /-- Where the page that asks comes from; empty if it does not say. -/
  origin : Text := ∅
deriving Inhabited

/-- Headers by name; a name occurs once. -/
abbrev Headers := List (Text × Text)

/-- The headers with one of them set. -/
def Headers.set (hs : Headers) (name value : Text) : Headers :=
  (hs.filter fun h => h.1 != name) ++ [(name, value)]

/-- An answer. -/
structure Response where
  status : Nat
  headers : Headers := []
  body : Text := ∅
deriving Inhabited

/-- Answers requests, given the headers that are set already, and may change a state. -/
abbrev Handler (σ : Type) := Headers → Request → σ → Response × σ

/-- Which other origins may read the answers. -/
structure SecurityPolicy where
  /-- Whether any other origin may. -/
  crossOrigin : Bool
  /-- The origins that may; a star stands for all. -/
  origins : List Text
  methods : List Text
  /-- For how many seconds a preflight answer holds; zero or less for the usual time. -/
  maxAge : Int
deriving Inhabited

namespace SecurityPolicy

/-- Any origin may read. -/
def everyone : SecurityPolicy := ⟨true, ["*"], ["GET", "OPTIONS"], 3600⟩

/-- The star that stands for all origins. -/
def anyOrigin : Text := "*"

/-- The origin that an answer is released to: of the list the first entry that is the star or the
origin of the request. -/
def allowedOrigin? (allowed : List Text) (origin : Text) : Option Text :=
  allowed.find? fun a => a == anyOrigin || (!origin.isEmpty && a == origin)

/-- The headers on every answer. -/
def hardening : Headers :=
  [("X-Content-Type-Options", "nosniff"), ("X-Frame-Options", "DENY"),
    ("X-Xss-Protection", "1; mode=block"), ("Referrer-Policy", "strict-origin-when-cross-origin"),
    ("Content-Security-Policy", "default-src 'none'; frame-ancestors 'none'")]

/-- How long a preflight answer holds. -/
def holdsFor (seconds : Int) : Int := if seconds ≤ 0 then 3600 else seconds

/-- The headers that release an answer to an origin. -/
def release (p : SecurityPolicy) (origin : Text) : Headers :=
  [("Access-Control-Allow-Origin", origin),
    ("Access-Control-Allow-Methods", Text.join ", " p.methods),
    ("Access-Control-Allow-Headers", "Content-Type, Accept"),
    ("Access-Control-Max-Age", Text.ofInt (holdsFor p.maxAge))]

/-- The origin that the policy releases an answer to. -/
def releasedTo? (p : SecurityPolicy) (r : Request) : Option Text :=
  if p.crossOrigin then allowedOrigin? p.origins r.origin else none

/-- The headers that the policy sets. -/
def headers (p : SecurityPolicy) (r : Request) : Headers :=
  hardening ++ ((p.releasedTo? r).map p.release).getD []

/-- A handler behind the policy. -/
def guard {σ : Type} (p : SecurityPolicy) (next : Handler σ) : Handler σ := fun hs r s =>
  let hs := (p.headers r).foldl (fun hs h => hs.set h.1 h.2) hs
  if r.method == "OPTIONS" then ({ status := 204, headers := hs }, s) else next hs r s

end SecurityPolicy

end Server

end Stopwatch
