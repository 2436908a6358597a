import Mathlib.Tactic
import Yggstack.Library.Runs

/-! Lookups over several nameservers. A cursor stays on the server that answered last, and the first
server is tried again some time after it went down. -/

namespace Yggstack.Resolver

open Library

inductive DnsAnswer where
  | ip (address : BitVec 128)
  | noRecord

inductive Attempt where
  | exchanged (r : Except String DnsAnswer)
  | timedOut

def Attempt.answer? : Attempt → Option DnsAnswer
  | .exchanged (.ok a) => some a
  | _ => none

-- Instants and durations are in nanoseconds.
structure FailoverState where
  current : ℕ
  preferredDown : Option ℕ
  retryPreferredAfter : ℕ

def attemptTimeout : ℕ := 10 * 10 ^ 9

def retryPreferredAfter : ℕ := 60 * 10 ^ 9

namespace FailoverState

def withRetryAfter (retryPreferredAfter : ℕ) : FailoverState :=
  { current := 0, preferredDown := none, retryPreferredAfter }

def new : FailoverState := withRetryAfter Resolver.retryPreferredAfter

variable (f : FailoverState)

def startIndex (now : ℕ) : ℕ × FailoverState :=
  if f.current ≠ 0 then
    if f.preferredDown.any fun since => f.retryPreferredAfter ≤ now - since then
      (0, { f with current := 0 })
    else (f.current, f)
  else (f.current, f)

def noteSuccess (idx : ℕ) : FailoverState :=
  { f with current := idx, preferredDown := if idx = 0 then none else f.preferredDown }

def noteFailure (now idx len : ℕ) : FailoverState :=
  { f with
    preferredDown := if idx = 0 then some (f.preferredDown.getD now) else f.preferredDown
    current := if f.current = idx then (idx + 1) % len else f.current }

end FailoverState

def debugDuration (ns : ℕ) : String :=
  let render (scale width : ℕ) (unit : String) : String :=
    let digits := (toString (ns % scale)).toList.leftpad width '0'
    let frac := (digits.reverse.dropWhile (· = '0')).reverse
    toString (ns / scale) ++ (if frac = [] then "" else "." ++ String.ofList frac) ++ unit
  if 10 ^ 9 ≤ ns then render (10 ^ 9) 9 "s"
  else if 10 ^ 6 ≤ ns then render (10 ^ 6) 6 "ms"
  else if 10 ^ 3 ≤ ns then render (10 ^ 3) 3 "µs"
  else render 1 0 "ns"

structure Query where
  name : String
  servers : List String
  attemptTimeout : ℕ

namespace Query

variable (q : Query)

def noRecordError : String := "no AAAA record found for '" ++ q.name ++ "'"

def timeoutError : String := "timeout after " ++ debugDuration q.attemptTimeout

def allFailedError (lastErr : String) : String :=
  "all " ++ toString q.servers.length ++ " nameservers failed to lookup '" ++ q.name ++ "': " ++
    lastErr

end Query

structure Contact where
  server : ℕ
  attempt : Attempt
  time : ℕ

-- A call of `resolve_with_failover` that has read the cursor. The loop counter is the number of
-- servers contacted.
structure Lookup where
  query : Query
  begun : ℕ
  start : ℕ
  contacted : List Contact
  lastErr : String
  result : Option (Except String (BitVec 128))

namespace Lookup

def begin (q : Query) (now start : ℕ) : Lookup where
  query := q
  begun := now
  start
  contacted := []
  lastErr := ""
  result := if q.servers.length = 0 then some (.error (q.allFailedError "")) else none

variable (l : Lookup)

def idx : ℕ := (l.start + l.contacted.length) % l.query.servers.length

def contact (now : ℕ) (r : Attempt) : List Contact := l.contacted ++ [⟨l.idx, r, now⟩]

def stop (now : ℕ) (r : Attempt) (result : Except String (BitVec 128)) : Lookup :=
  { l with contacted := l.contact now r, result := some result }

def next (now : ℕ) (r : Attempt) (e : String) : Lookup :=
  { l with
    contacted := l.contact now r
    lastErr := e
    result :=
      if l.contacted.length + 1 = l.query.servers.length then
        some (.error (l.query.allFailedError e))
      else none }

def turn (f : FailoverState) (now : ℕ) (r : Attempt) : Lookup × FailoverState :=
  match r with
  | .exchanged (.ok (.ip ip)) => (l.stop now r (.ok ip), f.noteSuccess l.idx)
  | .exchanged (.ok .noRecord) =>
    (l.stop now r (.error l.query.noRecordError), f.noteSuccess l.idx)
  | .exchanged (.error e) => (l.next now r e, f.noteFailure now l.idx l.query.servers.length)
  | .timedOut =>
    (l.next now r l.query.timeoutError, f.noteFailure now l.idx l.query.servers.length)

def finish (outcome : ℕ → Attempt) (clock : ℕ → ℕ) :
    ℕ → Lookup → FailoverState → Lookup × FailoverState
  | 0, l, f => (l, f)
  | n + 1, l, f =>
    match l.result with
    | some _ => (l, f)
    | none =>
      let (l, f) := l.turn f (clock l.idx) (outcome l.idx)
      finish outcome clock n l f

end Lookup

def resolveWithFailover (q : Query) (f : FailoverState) (now : ℕ) (outcome : ℕ → Attempt)
    (clock : ℕ → ℕ) : Lookup × FailoverState :=
  let (start, f) := f.startIndex now
  Lookup.finish outcome clock q.servers.length (Lookup.begin q now start) f

def Query.returns (q : Query) : DnsAnswer → Except String (BitVec 128)
  | .ip ip => .ok ip
  | .noRecord => .error q.noRecordError

def Query.errorOf (q : Query) : Attempt → String
  | .exchanged (.error e) => e
  | _ => q.timeoutError

namespace Lookup

variable {l : Lookup} {f : FailoverState} {now : ℕ} {r : Attempt}

lemma turn_answered {a : DnsAnswer} (h : r.answer? = some a) :
    l.turn f now r = (l.stop now r (l.query.returns a), f.noteSuccess l.idx) := by
  cases r with
  | exchanged r =>
    cases r with
    | ok b =>
      cases h
      cases a <;> rfl
    | error e => cases h
  | timedOut => cases h

lemma turn_failed (h : r.answer? = none) :
    l.turn f now r =
      (l.next now r (l.query.errorOf r), f.noteFailure now l.idx l.query.servers.length) := by
  cases r with
  | exchanged r =>
    cases r with
    | ok b => cases h
    | error e => rfl
  | timedOut => rfl

lemma turn_query : (l.turn f now r).1.query = l.query := by
  rcases h : r.answer? with _ | a
  · rw [turn_failed h]
    rfl
  · rw [turn_answered h]
    rfl

lemma turn_start : (l.turn f now r).1.start = l.start := by
  rcases h : r.answer? with _ | a
  · rw [turn_failed h]
    rfl
  · rw [turn_answered h]
    rfl

lemma turn_begun : (l.turn f now r).1.begun = l.begun := by
  rcases h : r.answer? with _ | a
  · rw [turn_failed h]
    rfl
  · rw [turn_answered h]
    rfl

lemma turn_contacted : (l.turn f now r).1.contacted = l.contact now r := by
  rcases h : r.answer? with _ | a
  · rw [turn_failed h]
    rfl
  · rw [turn_answered h]
    rfl

end Lookup

structure System where
  servers : List String
  failover : FailoverState
  lookups : List Lookup

inductive Action where
  | begin (name : String) (now : ℕ)
  | attempt (k : ℕ) (now : ℕ) (r : Attempt)

namespace System

inductive Step : System → Action → System → Prop
  | begin (s : System) (name : String) (now : ℕ) :
      Step s (.begin name now) { s with
        failover := (s.failover.startIndex now).2
        lookups := s.lookups ++
          [.begin ⟨name, s.servers, attemptTimeout⟩ now (s.failover.startIndex now).1] }
  | attempt {s : System} {k : ℕ} {l : Lookup} (now : ℕ) (r : Attempt) :
      s.lookups[k]? = some l → l.result = none →
      Step s (.attempt k now r) { s with
        failover := (l.turn s.failover now r).2
        lookups := s.lookups.set k (l.turn s.failover now r).1 }

def initial (servers : List String) (retryAfter : ℕ) : System :=
  { servers, failover := .withRetryAfter retryAfter, lookups := [] }

end System

end Yggstack.Resolver
