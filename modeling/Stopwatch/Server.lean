import Stopwatch.Exposition
import Stopwatch.Server.Security
import Stopwatch.Server.Target

/-!
# The metrics server

While a session runs, its metrics can be read over HTTP, and so can a sign of life. The server
counts the requests it serves, by path, and shows that count among the metrics.

`Server.answer` is one request; `Server.serve` is the life of a server, from the first request to
its end.
-/

namespace Stopwatch

namespace Server

/-- A server. -/
structure State where
  policy : SecurityPolicy := .everyone
  /-- When the server was made. -/
  started : Moment := .origin
  /-- How many requests were served, by path. -/
  served : Labelled Nat := []
  /-- What it has written to the journal and not been asked for yet. -/
  journal : List Journal.Entry := []
deriving Inhabited

/-! ## Pages -/

/-- An answer in plain text that tells what is wrong. -/
def problem (hs : Headers) (status : Nat) (message : Text) : Response :=
  { status
    headers := (hs.set "Content-Type" "text/plain; charset=utf-8").set
      "X-Content-Type-Options" "nosniff"
    body := message ++ "\n" }

/-- The answer to a method that is not served. -/
def methodNotAllowed (hs : Headers) : Response := problem hs 405 "method not allowed"

/-- The families that the server adds to the metrics. -/
def families (served : Labelled Nat) : List (Text × Text) :=
  [ ("microbench_active_requests",
      Exposition.family "microbench_active_requests" "gauge"
        "Number of HTTP requests currently being served." ["microbench_active_requests 1\n"]),
    ("microbench_requests_total",
      Exposition.family "microbench_requests_total" "counter"
        "Number of HTTP requests served, by path." (served.map fun (path, n) =>
          Exposition.labelled "path" "microbench_requests_total" path ∅ (Exposition.countText n))) ]

/-- All metrics. The request that asks for them is the one being served. -/
def metricsText (r : Recorder) (served : Labelled Nat) : Text :=
  Exposition.ordered (families served ++ Exposition.families r)

/-- The page with the metrics. -/
def metricsPage (r : Recorder) : Handler State := fun hs request s =>
  if request.method == "GET" then
    ({ status := 200
       headers := hs.set "Content-Type" "text/plain; version=0.0.4; charset=utf-8; escaping=values"
       body := metricsText r s.served }, s)
  else
    (methodNotAllowed hs,
      { s with
          journal := s.journal ++
            [.debug "rejected metrics request" [⟨"method", .text request.method⟩]] })

/-- The page with the sign of life. -/
def healthPage (now : Moment) : Handler State := fun hs request s =>
  if request.method == "GET" then
    let uptime := ((s.started.since now).round Duration.second).text
    let body := Json.object [("status", .string "ok"), ("uptime", .string uptime)]
    ({ status := 200, headers := hs.set "Content-Type" "application/json"
       body := body.compact Json.document ++ "\n" }, s)
  else (methodNotAllowed hs, s)

/-- A handler whose requests are counted under a path. -/
def counted (path : Text) (next : Handler State) : Handler State := fun hs request s =>
  next hs request { s with served := s.served.alter 0 (· + 1) path }

/-! ## Routes -/

/-- The answer that sends a client to another address. -/
def moved (request : Request) (location : Text) : Response :=
  let hs : Headers := [("Location", headerText location)]
  { status := 301
    headers :=
      if request.method == "GET" || request.method == "HEAD" then
        hs.set "Content-Type" "text/html; charset=utf-8"
      else hs
    body :=
      if request.method == "GET" then
        "<a href=\"" ++ Text.concat (location.bytes.map escapeMarkup) ++
          "\">Moved Permanently</a>.\n\n"
      else ∅ }

/-- The answer to a request for nothing in particular. -/
def badRequest : Response := { status := 400, headers := [("Connection", "close")] }

/-- Answers a request. A path that is not in short form is sent to its short form, except for a
client that asks for a connection. -/
def answer (r : Recorder) (now : Moment) (request : Request) (s : State) : Response × State :=
  let target := Target.read request.target
  let path := target.path
  if request.target == "*" then (badRequest, s)
  else if target.short != target && request.method != "CONNECT" then
    (moved request target.short.text, s)
  else if path == "/metrics" then s.policy.guard (counted path (metricsPage r)) [] request s
  else if path == "/healthz" then s.policy.guard (counted path (healthPage now)) [] request s
  else (problem [] 404 "404 page not found", s)

/-! ## Life -/

/-- How the life of a server ends. -/
inductive End where
  /-- It is told to stop. -/
  | stopped
  /-- It is told to stop while a client does not take its answer. -/
  | stuck
  /-- It can no longer accept requests. -/
  | closed
deriving DecidableEq

/-- The fault that a server ends with. -/
def End.fault? : End → Option Fault
  | stopped => none
  | stuck => some .deadline
  | closed => some (.plain "use of closed network connection")

/-- The journal at the end of a server. -/
def End.entries : End → List Journal.Entry
  | stopped => [.debug "metrics server stopped"]
  | stuck => [.error "metrics server shutdown" (some .deadline)]
  | closed => []

/-- The journal at the beginning of a server. -/
def listening (address : Text) : Journal.Entry :=
  .info "metrics server listening" [⟨"addr", .text address⟩]

/-- Answers requests one after the other, each at its moment. -/
def answerAll (r : Recorder) : List (Timed Request) → State → List (Timed Response) × State
  | [], s => ([], s)
  | q :: qs, s =>
    let (response, s) := answer r q.time q.value s
    let (rest, s) := answerAll r qs s
    (⟨q.time, response⟩ :: rest, s)

/-- The life of a server at an address: its answers, its journal and the fault it ends with. -/
def serve (r : Recorder) (address : Text) (requests : List (Timed Request))
    (ending : End) (s : State) :
    List (Timed Response) × List Journal.Entry × Option Fault :=
  let (responses, s) := answerAll r requests s
  (responses, listening address :: s.journal ++ ending.entries, ending.fault?)

end Server

end Stopwatch
