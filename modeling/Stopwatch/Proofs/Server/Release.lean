import Mathlib.Data.List.Nodup
import Stopwatch.Server

/-!
# Which answers are released

A policy sets its headers over those that are there already (`foldl_set`). It releases an answer to
the first entry of its list that is the star or the origin of the request, so to one of these two
and to nothing else (`releasedTo?_isSome_iff`, `of_releasedTo?_eq_some`), and only an answer that is
released has any of the headers that say so. What a handler behind the policy does not take away is
on every answer; the pages of the server take none of the hardening headers away
(`keeps_metricsPage`, `keeps_healthPage`).
-/

namespace Stopwatch.Server

variable {hs : Headers} {name value origin : Text} {p : SecurityPolicy} {r : Request} {σ : Type}

/-! ## Setting headers -/

namespace Headers

/-- The value of a header. -/
def get? (hs : Headers) (name : Text) : Option Text := hs.lookup name

theorem get?_cons (h : Text × Text) (hs : Headers) (name : Text) :
    get? (h :: hs) name = if name = h.1 then some h.2 else hs.get? name := by
  obtain ⟨key, value⟩ := h
  by_cases hname : name = key
  · simp [get?, hname]
  · simp [get?, List.lookup_cons, hname, beq_false_of_ne hname]

theorem get?_append (hs others : Headers) (name : Text) :
    get? (hs ++ others) name = (hs.get? name).or (others.get? name) := List.lookup_append

theorem get?_filter_ne (hs : Headers) (name other : Text) :
    get? (hs.filter fun h => h.1 != name) other = if other = name then none else hs.get? other := by
  induction hs with
  | nil => exact (ite_self none).symm
  | cons h hs ih =>
    rw [get?_cons, List.filter_cons]
    by_cases hkey : h.1 = name
    · rw [if_neg (by simpa using hkey), ih, hkey]
      split <;> rfl
    · rw [if_pos (by simpa using hkey), get?_cons, ih]
      grind

theorem get?_set (hs : Headers) (name value other : Text) :
    (hs.set name value).get? other = if other = name then some value else hs.get? other := by
  rw [set, get?_append, get?_filter_ne, get?_cons]
  split
  · rfl
  · exact Option.or_none

/-- **Headers of different names that are set one after the other replace those of their names**,
and the others that were there stay. -/
theorem foldl_set (earlier : Headers) (h : (hs.map Prod.fst).Nodup) :
    hs.foldl (fun hs h => hs.set h.1 h.2) earlier =
      earlier.filter (fun h => h.1 ∉ hs.map Prod.fst) ++ hs := by
  induction hs generalizing earlier with
  | nil => simp
  | cons first hs ih =>
    obtain ⟨hfirst, hrest⟩ := List.nodup_cons.mp h
    have hkept : [first].filter (fun h => h.1 ∉ hs.map Prod.fst) = [first] := by
      rw [List.filter_singleton, decide_eq_true hfirst, cond_true]
    rw [List.foldl_cons, ih _ hrest, set, List.filter_append, List.filter_filter,
      hkept, List.append_assoc, List.singleton_append]
    congr 1
    refine List.filter_congr fun x _ => ?_
    grind

end Headers

/-! ## What a policy decides -/

namespace SecurityPolicy

/-- Pages of the origin may read the answers. -/
def Allows (p : SecurityPolicy) (origin : Text) : Prop :=
  p.crossOrigin = true ∧ (anyOrigin ∈ p.origins ∨ origin ≠ ∅ ∧ origin ∈ p.origins)

theorem isAllowed_iff {a : Text} :
    (a == anyOrigin || (!origin.isEmpty && a == origin)) = true ↔ a = anyOrigin ∨
      origin ≠ ∅ ∧ a = origin := by
  simp [← Text.isEmpty_iff]

/-- **An answer is released exactly if the policy allows the origin of its request.** -/
theorem releasedTo?_isSome_iff : (p.releasedTo? r).isSome = true ↔ p.Allows r.origin := by
  unfold releasedTo? Allows allowedOrigin?
  cases p.crossOrigin with
  | false => simp
  | true =>
    simp only [if_true, List.find?_isSome, isAllowed_iff, true_and]
    grind

/-- **An answer is released to the star or to the origin of its request**, and it is on the list. -/
theorem of_releasedTo?_eq_some (h : p.releasedTo? r = some value) :
    value ∈ p.origins ∧ (value = anyOrigin ∨ value = r.origin ∧ value ≠ ∅) := by
  unfold releasedTo? allowedOrigin? at h
  split at h
  · have hallowed := List.find?_some h
    refine ⟨List.mem_of_find?_eq_some h, ?_⟩
    rcases isAllowed_iff.mp hallowed with hstar | ⟨hne, rfl⟩
    · exact .inl hstar
    · exact .inr ⟨rfl, hne⟩
  · cases h

/-! ## The headers of a policy -/

theorem headers_of_none (h : p.releasedTo? r = none) : p.headers r = hardening := by
  rw [headers, h]
  rfl

theorem headers_of_some (h : p.releasedTo? r = some value) :
    p.headers r = hardening ++ p.release value := by
  rw [headers, h]
  rfl

/-- The headers that say that an answer is released. -/
def releaseNames : List Text :=
  ["Access-Control-Allow-Origin", "Access-Control-Allow-Methods", "Access-Control-Allow-Headers",
    "Access-Control-Max-Age"]

theorem map_fst_release : (p.release value).map Prod.fst = releaseNames := rfl

theorem nodup_headers : ((p.headers r).map Prod.fst).Nodup := by
  cases h : p.releasedTo? r with
  | none =>
    rw [headers_of_none h]
    decide
  | some value =>
    rw [headers_of_some h, List.map_append, map_fst_release]
    decide

/-- A header of an answer that is released. -/
theorem get?_headers (hname : hardening.get? name = none) :
    (p.headers r).get? name = (p.releasedTo? r).bind fun origin =>
      (p.release origin).get? name := by
  cases h : p.releasedTo? r with
  | none =>
    rw [headers_of_none h, hname]
    rfl
  | some value =>
    rw [headers_of_some h, Headers.get?_append, hname]
    rfl

theorem get?_hardening {h : Text × Text} (hmem : h ∈ hardening) :
    (p.headers r).get? h.1 = some h.2 := by
  have hlookup : ∀ h ∈ hardening, hardening.get? h.1 = some h.2 := by decide
  rw [headers, Headers.get?_append, hlookup h hmem]
  rfl

/-- A policy answers a preflight request itself and hands any other request on. -/
theorem guard_eq (next : Handler σ) (s : σ) :
    p.guard next [] r s =
      if r.method = "OPTIONS" then ({ status := 204, headers := p.headers r }, s)
      else next (p.headers r) r s := by
  rw [guard, Headers.foldl_set [] nodup_headers]
  simp

end SecurityPolicy

/-! ## Handlers -/

namespace Handler

/-- A handler that notes each of its calls, with the headers that it is given. -/
def noted (next : Handler σ) : Handler (σ × List (Headers × Request)) := fun hs r s =>
  ((next hs r s.1).1, (next hs r s.1).2, s.2 ++ [(hs, r)])

/-- A header that is set to a value, or not set, before the handler is called is so on its answer.
-/
def Keeps (next : Handler σ) (name : Text) (value? : Option Text) : Prop :=
  ∀ hs r s, hs.get? name = value? → (next hs r s).1.headers.get? name = value?

variable {next : Handler σ} {value? : Option Text}

theorem Keeps.get?_guard (h : next.Keeps name value?)
    (hvalue : (p.headers r).get? name = value?) (s : σ) :
    (p.guard next [] r s).1.headers.get? name = value? := by
  rw [SecurityPolicy.guard_eq]
  split
  · exact hvalue
  · exact h _ _ _ hvalue

end Handler

/-- **What a policy makes of a request.** The handler behind it is called once, or not at all for a
preflight request. The answer is released exactly if the policy allows the origin of the request, to
the star or to this origin, which is not empty, and the other headers about it are there with that
one. The hardening headers are always there. -/
theorem SecurityPolicy.guard_answers (p : SecurityPolicy) (next : Handler σ) (r : Request) (s : σ)
    (calls : List (Headers × Request)) :
    p.guard next.noted [] r (s, calls) =
        (if r.method = "OPTIONS" then ({ status := 204, headers := p.headers r }, s, calls)
        else ((next (p.headers r) r s).1, (next (p.headers r) r s).2,
          calls ++ [(p.headers r, r)])) ∧
      (((p.headers r).get? "Access-Control-Allow-Origin").isSome = true ↔
        p.crossOrigin = true ∧ (("*" : Text) ∈ p.origins ∨ r.origin ≠ ∅ ∧ r.origin ∈ p.origins)) ∧
      (∀ value, (p.headers r).get? "Access-Control-Allow-Origin" = some value →
        value = "*" ∨ value = r.origin ∧ value ≠ ∅) ∧
      (∀ name ∈ (["Access-Control-Allow-Methods", "Access-Control-Allow-Headers",
          "Access-Control-Max-Age"] : List Text),
        ((p.headers r).get? name).isSome =
        ((p.headers r).get? "Access-Control-Allow-Origin").isSome) ∧
      (∀ h ∈ ([("X-Content-Type-Options", "nosniff"), ("X-Frame-Options", "DENY"),
          ("X-Xss-Protection", "1; mode=block"),
          ("Referrer-Policy", "strict-origin-when-cross-origin"),
          ("Content-Security-Policy", "default-src 'none'; frame-ancestors 'none'")] : Headers),
        (p.headers r).get? h.1 = some h.2) ∧
      ∀ name, next.Keeps name ((p.headers r).get? name) →
        (p.guard next [] r s).1.headers.get? name = (p.headers r).get? name := by
  have horigin : (p.headers r).get? "Access-Control-Allow-Origin" = p.releasedTo? r := by
    rw [get?_headers (by decide)]
    cases p.releasedTo? r <;> rfl
  refine ⟨guard_eq _ _, ?_, ?_, ?_, ?_, ?_⟩
  · rw [horigin]
    exact releasedTo?_isSome_iff
  · intro value hvalue
    exact (of_releasedTo?_eq_some (horigin.symm.trans hvalue)).2
  · intro name hname
    rw [horigin]
    simp only [List.mem_cons, List.not_mem_nil, or_false] at hname
    rcases hname with rfl | rfl | rfl <;> rw [get?_headers (by decide)] <;>
      cases p.releasedTo? r <;> rfl
  · exact fun h hh => get?_hardening hh
  · exact fun name hkeeps => hkeeps.get?_guard rfl s

/-! ## The pages of the server -/

theorem keeps_counted {next : Handler State} {value? : Option Text} (path : Text)
    (h : next.Keeps name value?) :
    (counted path next).Keeps name value? := fun hs r _ => h hs r _

theorem keeps_methodNotAllowed (hname : name ≠ "Content-Type")
    (hsniff : name = "X-Content-Type-Options" → value = "nosniff") (h : hs.get? name = some value) :
    (methodNotAllowed hs).headers.get? name = some value := by
  show Headers.get? (Headers.set _ _ _) name = _
  rw [Headers.get?_set, Headers.get?_set, if_neg hname]
  split
  · next heq => rw [hsniff heq]
  · exact h

theorem keeps_metricsPage (recorder : Recorder) (hname : name ≠ "Content-Type")
    (hsniff : name = "X-Content-Type-Options" → value = "nosniff") :
    Handler.Keeps (metricsPage recorder) name (some value) := by
  intro hs r s h
  unfold metricsPage
  split
  · exact (Headers.get?_set ..).trans ((if_neg hname).trans h)
  · exact keeps_methodNotAllowed hname hsniff h

theorem keeps_healthPage (now : Moment) (hname : name ≠ "Content-Type")
    (hsniff : name = "X-Content-Type-Options" → value = "nosniff") :
    Handler.Keeps (healthPage now) name (some value) := by
  intro hs r s h
  unfold healthPage
  split
  · exact (Headers.get?_set ..).trans ((if_neg hname).trans h)
  · exact keeps_methodNotAllowed hname hsniff h

/-- **Both pages of the server have the hardening headers**, also where they refuse the method. -/
theorem hardened_answer (recorder : Recorder) (now : Moment) (s : State) (hstar : r.target ≠ "*")
    (hshort : (Target.read r.target).short = Target.read r.target ∨ r.method = "CONNECT")
    (hpage : (Target.read r.target).path = "/metrics" ∨ (Target.read r.target).path = "/healthz")
    {h : Text × Text} (hmem : h ∈ SecurityPolicy.hardening) :
    (answer recorder now r s).1.headers.get? h.1 = some h.2 := by
  have hnames : ∀ h ∈ SecurityPolicy.hardening,
      h.1 ≠ "Content-Type" ∧ (h.1 = "X-Content-Type-Options" → h.2 = "nosniff") := by decide
  obtain ⟨hname, hsniff⟩ := hnames h hmem
  have hlookup := SecurityPolicy.get?_hardening (p := s.policy) (r := r) hmem
  have hmoved : ((Target.read r.target).short != Target.read r.target && r.method != "CONNECT") =
      false := by
    rcases hshort with heq | heq <;> simp [heq]
  simp only [answer, beq_iff_eq, if_neg hstar, hmoved, Bool.false_eq_true, if_false]
  rcases hpage with hpath | hpath <;> rw [hpath]
  · rw [if_pos rfl]
    exact (keeps_counted _ (keeps_metricsPage recorder hname hsniff)).get?_guard hlookup s
  · rw [if_neg (by decide), if_pos rfl]
    exact (keeps_counted _ (keeps_healthPage now hname hsniff)).get?_guard hlookup s

end Stopwatch.Server
