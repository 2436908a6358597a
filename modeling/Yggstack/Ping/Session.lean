import Yggstack.Library.Runs

/-! `run_ping`: a session that sends echo requests one after another and reports what became of
each. The surroundings decide how the socket's operations turn out, what echo messages it is handed,
how time passes, and when the stop future fires. Instants and durations are in nanoseconds. -/

namespace Yggstack.Ping

open Library

inductive PingDoneReason where
  | completed
  | stopped
  | failed
  deriving DecidableEq

structure Probe where
  seq : UInt16
  rtt : Option ℕ
  error : Option String
  deriving DecidableEq

inductive PingEvent where
  | probe (p : Probe)
  | done (reason : PingDoneReason)
  deriving DecidableEq

structure Echo where
  reply : Bool
  source : BitVec 128
  seq : UInt16
  deriving DecidableEq

structure Params where
  dst : BitVec 128
  count : UInt32
  timeout : ℕ
  interval : ℕ

-- Where the session waits. At `waiting` it stands at the top of the inner loop.
inductive Phase where
  | opening
  | sending
  | waiting (started : ℕ)
  | receiving (started deadline : ℕ)
  | sleeping (deadline : ℕ)
  | returned

-- The counters wrap around, as the release profile has it.
structure Session where
  params : Params
  now : ℕ
  fired : Bool
  seq : UInt16
  sent : UInt32
  phase : Phase
  events : List PingEvent

namespace Session

variable (s : Session)

def start (params : Params) (now : ℕ) : Session :=
  { params, now, fired := false, seq := 0, sent := 0, phase := .opening, events := [] }

def finish (reason : PingDoneReason) : Session :=
  { s with phase := .returned, events := s.events ++ [.done reason] }

def turn : Session :=
  if s.params.count ≠ 0 ∧ s.params.count ≤ s.sent then s.finish .completed
  else { s with seq := s.seq + 1, phase := .sending }

def probeOf (rtt : Option ℕ) : Probe :=
  match rtt with
  | some rtt => ⟨s.seq, some rtt, none⟩
  | none => ⟨s.seq, none, some "timeout"⟩

def pause : Session :=
  if s.params.count = 0 ∨ s.sent < s.params.count then
    { s with phase := .sleeping (s.now + s.params.interval) }
  else s.turn

def report (rtt : Option ℕ) : Session :=
  pause { s with events := s.events ++ [.probe (s.probeOf rtt)] }

def opened (ok : Bool) : Session := if ok then s.turn else s.finish .failed

def sentEcho (ok : Bool) : Session :=
  if ok then { s with sent := s.sent + 1, phase := .waiting s.now } else s.finish .failed

-- `checked_sub` of what has elapsed from the timeout.
def check (started : ℕ) : Session :=
  if s.now - started ≤ s.params.timeout then
    { s with phase := .receiving started (s.now + (s.params.timeout - (s.now - started))) }
  else s.report none

def received (started : ℕ) (echo : Echo) : Session :=
  if echo.seq = s.seq then s.report (some (s.now - started))
  else { s with phase := .waiting started }

end Session

inductive Event where
  | elapse (n : ℕ)
  | fire
  | opened (ok : Bool)
  | sent (ok : Bool)
  | check
  | received (echo : Echo)
  | receiveError
  | timedOut
  | stop
  | slept
  deriving DecidableEq

inductive Step : Session → Event → Session → Prop
  | elapse (s : Session) (n : ℕ) : Step s (.elapse n) { s with now := s.now + n }
  | fire (s : Session) : Step s .fire { s with fired := true }
  | opened {s : Session} (ok : Bool) : s.phase = .opening → Step s (.opened ok) (s.opened ok)
  | sent {s : Session} (ok : Bool) : s.phase = .sending → Step s (.sent ok) (s.sentEcho ok)
  | check {s : Session} {started : ℕ} : s.phase = .waiting started → Step s .check (s.check started)
  | received {s : Session} {started deadline : ℕ} (echo : Echo) :
      s.phase = .receiving started deadline → Step s (.received echo) (s.received started echo)
  | receiveError {s : Session} {started deadline : ℕ} : s.phase = .receiving started deadline →
      Step s .receiveError (s.finish .failed)
  | timedOut {s : Session} {started deadline : ℕ} : s.phase = .receiving started deadline →
      deadline ≤ s.now → Step s .timedOut (s.report none)
  | stopWaiting {s : Session} {started deadline : ℕ} : s.phase = .receiving started deadline →
      s.fired = true → Step s .stop (s.finish .stopped)
  | stopSleeping {s : Session} {deadline : ℕ} : s.phase = .sleeping deadline →
      s.fired = true → Step s .stop (s.finish .stopped)
  | slept {s : Session} {deadline : ℕ} : s.phase = .sleeping deadline → deadline ≤ s.now →
      Step s .slept s.turn

end Yggstack.Ping
