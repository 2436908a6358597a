import Yggstack.Library.Inet
import Yggstack.Library.Runs
import Yggstack.Library.Store
import Yggstack.Library.Tables

namespace Yggstack.Forward.Udp

open Library Inet

-- Instants are in nanoseconds.
def second : ℕ := 10 ^ 9

def sessionTtlSecs : ℕ := 30

def evictTimerSecs : ℕ := 10

inductive Side where
  | localUdp
  | remoteUdp
  deriving DecidableEq

structure Session where
  socket : ℕ
  lastActive : ℕ
  listenerHandle : Option ℕ

inductive Replying where
  | receiving
  | sending
  | finished
  deriving DecidableEq

structure Listener where
  socket : ℕ
  source : SocketAddr
  phase : Replying
  aborting : Bool

def Listener.Live (l : Listener) : Prop := l.phase ≠ .finished

-- Where the loop over the datagrams waits: for a datagram, for the lock on the sessions, for a
-- send, or for the lock again, to store the handle of a new listener.
inductive Main where
  | receiving
  | locking (source : SocketAddr)
  | sending (source : SocketAddr) (socket : ℕ) (need : Bool)
  | storing (source : SocketAddr) (handle : ℕ)
  | stopping
  | returned
  | panicked
  | aborted

def Main.ended : Main → Bool
  | .returned | .panicked | .aborted => true
  | _ => false

inductive Way where
  | out
  | back

inductive Entry where
  | heard (source : SocketAddr) (time : ℕ)
  | forwarded (way : Way) (socket : ℕ) (source : SocketAddr) (time : ℕ) (ok : Bool)
  | evicted (socket : ℕ) (time : ℕ)

-- Sockets are numbered as they are opened; `opened` says for which source. Neither it nor `log` is
-- read by the program.
structure State where
  side : Side
  now : ℕ
  sessions : Store SocketAddr Session
  listeners : List Listener
  main : Main
  timer : Option ℕ
  opened : List SocketAddr
  log : List Entry

namespace State

variable (s : State)

def start (side : Side) (now : ℕ) : State :=
  { side, now, sessions := .empty, listeners := [], main := .receiving, timer := some now,
    opened := [], log := [] }

def needListener (v : Session) : Bool :=
  match v.listenerHandle with
  | none => true
  | some h => (s.listeners[h]?).all (·.phase = .finished)

-- The sessions are shared by the loop and the timer. They go with the last of the two, and the
-- handles in them: dropping a handle detaches its listener, and does not stop it.
def release : State :=
  { s with sessions := if s.main.ended = true ∧ s.timer = none then .empty else s.sessions }

-- The critical section that finds or makes the session of a datagram; `opens` is whether a new
-- socket can be had.
def enter (source : SocketAddr) (opens : Bool) : State :=
  match s.sessions.find source with
  | some v =>
    { s with
      sessions := s.sessions.insert source { v with lastActive := s.now }
      main := .sending source v.socket (s.needListener v)
      log := s.log ++ [.heard source s.now] }
  | none =>
    if opens then
      { s with
        sessions := s.sessions.insert source
          { socket := s.opened.length, lastActive := s.now, listenerHandle := none }
        main := .sending source s.opened.length true
        opened := s.opened ++ [source]
        log := s.log ++ [.heard source s.now] }
    else
      match s.side with
      | .localUdp => { s with main := .panicked }.release
      | .remoteUdp => { s with main := .receiving }

-- The local forwarder gives up on a datagram that was not sent, the remote one goes on to the
-- listener.
def sent (source : SocketAddr) (socket : ℕ) (need ok : Bool) : State :=
  let log := s.log ++ [.forwarded .out socket source s.now ok]
  if need = true ∧ (ok = true ∨ s.side = .remoteUdp) then
    { s with
      listeners := s.listeners ++ [{ socket, source, phase := .receiving, aborting := false }]
      main := .storing source s.listeners.length
      log }
  else { s with main := .receiving, log }

def store (source : SocketAddr) (handle : ℕ) : State :=
  { s with
    sessions := match s.sessions.find source with
      | some v => s.sessions.insert source { v with listenerHandle := some handle }
      | none => s.sessions
    main := .receiving }

def abort (handles : List ℕ) (listeners : List Listener) : List Listener :=
  listeners.mapIdx fun i l => if i ∈ handles then { l with aborting := true } else l

def remove (entries : List (SocketAddr × Session)) : State :=
  { s with
    sessions := s.sessions.eraseAll (entries.map Prod.fst)
    listeners := abort (entries.filterMap fun e => e.2.listenerHandle) s.listeners }

def drain (order : List (SocketAddr × Session)) : State := { s.remove order with main := .returned }

def stale (v : Session) : Bool := sessionTtlSecs ≤ (s.now - v.lastActive) / second

def evict (order : List (SocketAddr × Session)) (tick : ℕ) : State :=
  let entries := order.filter fun e => s.stale e.2
  { s.remove entries with
    timer := some (tick + evictTimerSecs * second)
    log := s.log ++ entries.map fun e => .evicted e.2.socket s.now }

def setListener (i : ℕ) (l : Listener) : State := { s with listeners := s.listeners.set i l }

end State

inductive Event where
  | elapse (n : ℕ)
  | receive (source : SocketAddr)
  | receiveError
  | enter (opens : Bool)
  | sent (ok : Bool)
  | store
  | stop
  | drain
  | reply (i : ℕ)
  | replied (i : ℕ) (ok : Bool)
  | replyError (i : ℕ)
  | cancelled (i : ℕ)
  | evict
  | stopTimer
  | abort

inductive Step : State → Event → State → Prop
  | elapse (s : State) (n : ℕ) : Step s (.elapse n) { s with now := s.now + n }
  | receive {s : State} (source : SocketAddr) : s.main = .receiving →
      Step s (.receive source) { s with main := .locking source }
  | receiveError {s : State} : s.main = .receiving → Step s .receiveError s
  | enter {s : State} {source : SocketAddr} (opens : Bool) : s.main = .locking source →
      Step s (.enter opens) (s.enter source opens)
  | sent {s : State} {source : SocketAddr} {socket : ℕ} {need : Bool} (ok : Bool) :
      s.main = .sending source socket need → Step s (.sent ok) (s.sent source socket need ok)
  | store {s : State} {source : SocketAddr} {handle : ℕ} : s.main = .storing source handle →
      Step s .store (s.store source handle)
  | stop {s : State} : s.main = .receiving → Step s .stop { s with main := .stopping }
  | drain {s : State} {order : List (SocketAddr × Session)} : s.main = .stopping →
      s.sessions.Enumerates order → Step s .drain (s.drain order)
  | reply {s : State} {i : ℕ} {l : Listener} : s.listeners[i]? = some l → l.phase = .receiving →
      Step s (.reply i) (s.setListener i { l with phase := .sending })
  | replied {s : State} {i : ℕ} {l : Listener} (ok : Bool) : s.listeners[i]? = some l →
      l.phase = .sending → Step s (.replied i ok)
        { s.setListener i { l with phase := .receiving } with
          log := s.log ++ [.forwarded .back l.socket l.source s.now ok] }
  | replyError {s : State} {i : ℕ} {l : Listener} : s.listeners[i]? = some l →
      l.phase = .receiving → Step s (.replyError i) (s.setListener i { l with phase := .finished })
  | cancelled {s : State} {i : ℕ} {l : Listener} : s.listeners[i]? = some l → l.aborting = true →
      l.Live → Step s (.cancelled i) (s.setListener i { l with phase := .finished })
  -- An interval whose tick was late ticks again at once: the next one is due a period after the
  -- last.
  | evict {s : State} {order : List (SocketAddr × Session)} {tick : ℕ} : s.timer = some tick →
      tick ≤ s.now → s.sessions.Enumerates order → Step s .evict (s.evict order tick)
  | stopTimer {s : State} : Step s .stopTimer { s with timer := none }.release
  -- `join_listener` gives up on a task that has not ended in its grace period.
  | abort {s : State} : s.main.ended = false → Step s .abort { s with main := .aborted }.release

variable {s : State}

lemma find_release {m : Main} {timer : Option ℕ} {a : SocketAddr} {v : Session}
    (h : { s with main := m, timer := timer }.release.sessions.find a = some v) :
    s.sessions.find a = some v := by
  simp only [State.release] at h
  split at h
  · rw [Store.find_empty] at h
    cases h
  · exact h

lemma find_enter {a : SocketAddr} {opens : Bool} {b : SocketAddr} {v' : Session}
    (h : (s.enter a opens).sessions.find b = some v') :
    (∃ v, s.sessions.find b = some v ∧ v'.socket = v.socket ∧
      v'.listenerHandle = v.listenerHandle) ∨
      b = a ∧ s.sessions.find a = none ∧ v'.socket = s.opened.length ∧
        v'.listenerHandle = none ∧ (s.enter a opens).opened = s.opened ++ [a] := by
  rw [State.enter] at h ⊢
  split at h
  · next v hv =>
    rcases Store.find_insert_cases h with ⟨rfl, rfl⟩ | ⟨-, h⟩
    · exact .inl ⟨v, hv, rfl, rfl⟩
    · exact .inl ⟨v', h, rfl, rfl⟩
  · next hnone =>
    split at h
    · next hopens =>
      rcases Store.find_insert_cases h with ⟨rfl, rfl⟩ | ⟨-, h⟩
      · exact .inr ⟨rfl, hnone, rfl, rfl, by simp [hopens]⟩
      · exact .inl ⟨v', h, rfl, rfl⟩
    · split at h
      · exact .inl ⟨v', find_release h, rfl, rfl⟩
      · exact .inl ⟨v', h, rfl, rfl⟩

lemma find_store {a b : SocketAddr} {i : ℕ} {v' : Session}
    (h : (s.store a i).sessions.find b = some v') : ∃ v, s.sessions.find b = some v ∧
      v'.socket = v.socket ∧ v'.lastActive = v.lastActive ∧
      (b = a ∧ v'.listenerHandle = some i ∨ b ≠ a ∧ v'.listenerHandle = v.listenerHandle) := by
  rw [State.store] at h
  simp only at h
  split at h
  · next v hv =>
    rcases Store.find_insert_cases h with ⟨rfl, rfl⟩ | ⟨hb, h⟩
    · exact ⟨v, hv, rfl, rfl, .inl ⟨rfl, rfl⟩⟩
    · exact ⟨v', h, rfl, rfl, .inr ⟨hb, rfl⟩⟩
  · next hnone =>
    refine ⟨v', h, rfl, rfl, .inr ⟨?_, rfl⟩⟩
    rintro rfl
    rw [hnone] at h
    cases h

lemma find_remove {entries : List (SocketAddr × Session)} {a : SocketAddr} {v : Session}
    (h : (s.remove entries).sessions.find a = some v) : s.sessions.find a = some v := by
  rw [State.remove, Store.find_eraseAll] at h
  split at h
  · cases h
  · exact h

end Yggstack.Forward.Udp
