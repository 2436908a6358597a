import Yggstack.Library.Broadcast
import Yggstack.Library.Runs

/-! The task that tells the app about its peers: a snapshot at the start and, at most every 250 ms,
another one after the core's events. What the core knows of its peers is `α`. -/

namespace Yggstack.Mobile

open Library

def peerDebounce : ℕ := 250

namespace PeerEvents

inductive Phase (α : Type) where
  | spawned
  | querying (rx : Receiver)
  | delivering (rx : Receiver) (snapshot : α)
  | waiting (rx : Receiver)
  | debouncing (rx : Receiver) (since : ℕ)
  | draining (rx : Receiver)
  | ended

inductive Event (α : Type) where
  | tick (d : ℕ)
  | changed (peers : α)
  | emitted
  | coreClosed
  | stop
  | subscribed
  | queried
  | delivered
  | received
  | stopped
  | slept
  | drain
  | aborted

end PeerEvents

-- `stopping` is set when a stop was sent to the node or its last sender is gone; the task has
-- subscribed to it before.
structure PeerEvents (α : Type) where
  clock : ℕ
  peers : α
  events : Broadcast
  coreOpen : Bool
  stopping : Bool
  phase : PeerEvents.Phase α
  delivered : List (ℕ × α)

namespace PeerEvents

variable {α : Type} (capacity : ℕ) (s : PeerEvents α)

def start (peers : α) : PeerEvents α where
  clock := 0
  peers := peers
  events := .new
  coreOpen := true
  stopping := false
  phase := .spawned
  delivered := []

def goto (phase : Phase α) : PeerEvents α := { s with phase }

def exec : Event α → Option (PeerEvents α)
  | .tick d => some { s with clock := s.clock + d }
  | .changed peers => some { s with peers }
  | .emitted => if s.coreOpen then some { s with events := s.events.send } else none
  | .coreClosed => some { s with coreOpen := false }
  | .stop => some { s with stopping := true }
  | .subscribed =>
    match s.phase with
    | .spawned => some (s.goto (.querying s.events.subscribe))
    | _ => none
  | .queried =>
    match s.phase with
    | .querying rx => some (s.goto (.delivering rx s.peers))
    | _ => none
  | .delivered =>
    match s.phase with
    | .delivering rx snapshot =>
      some { s.goto (.waiting rx) with delivered := s.delivered ++ [(s.clock, snapshot)] }
    | _ => none
  | .received =>
    match s.phase with
    | .waiting rx =>
      match rx.recv? s.events capacity with
      -- the sleep has just been made, so that a stop that is there is seen first
      | some (_, rx) => some (s.goto (if s.stopping then .ended else .debouncing rx s.clock))
      | none => if s.coreOpen then none else some (s.goto .ended)
    | _ => none
  | .stopped =>
    match s.phase with
    | .waiting _ | .debouncing _ _ => if s.stopping then some (s.goto .ended) else none
    | _ => none
  | .slept =>
    match s.phase with
    | .debouncing rx since =>
      if since + peerDebounce ≤ s.clock then some (s.goto (.draining rx)) else none
    | _ => none
  | .drain =>
    match s.phase with
    | .draining rx =>
      match rx.recv? s.events capacity with
      | some (.value, rx) => some (s.goto (.draining rx))
      | some (.lagged, rx) => some (s.goto (.querying rx))
      | none => some (s.goto (.querying rx))
    | _ => none
  | .aborted =>
    match s.phase with
    | .ended | .draining _ => none
    | _ => if s.stopping then some (s.goto .ended) else none

def Step (s : PeerEvents α) (e : Event α) (s' : PeerEvents α) : Prop := s.exec capacity e = some s'

variable {capacity} {s} {s' : PeerEvents α} {e : Event α} {rx : Receiver}

inductive Moved (capacity : ℕ) (s : PeerEvents α) : Event α → PeerEvents α → Prop
  | around {e : Event α} {s' : PeerEvents α} : s'.phase = s.phase → s'.delivered = s.delivered →
      s.clock ≤ s'.clock → (s.stopping = true → s'.stopping = true) → e ≠ .queried →
      (s'.events = s.events ∧ e ≠ .emitted ∨ s'.events = s.events.send) → Moved capacity s e s'
  | subscribed : s.phase = .spawned →
      Moved capacity s .subscribed (s.goto (.querying s.events.subscribe))
  | queried {rx : Receiver} : s.phase = .querying rx →
      Moved capacity s .queried (s.goto (.delivering rx s.peers))
  | delivered {rx : Receiver} {snapshot : α} : s.phase = .delivering rx snapshot →
      Moved capacity s .delivered
        { s.goto (.waiting rx) with delivered := s.delivered ++ [(s.clock, snapshot)] }
  | received {rx rx' : Receiver} {x : Received} : s.phase = .waiting rx → s.stopping = false →
      rx.recv? s.events capacity = some (x, rx') →
      Moved capacity s .received (s.goto (.debouncing rx' s.clock))
  | slept {rx : Receiver} {since : ℕ} : s.phase = .debouncing rx since →
      since + peerDebounce ≤ s.clock → Moved capacity s .slept (s.goto (.draining rx))
  | drained {rx rx' : Receiver} : s.phase = .draining rx →
      (rx' = rx ∨ ∃ x, rx.recv? s.events capacity = some (x, rx')) →
      Moved capacity s .drain (s.goto (.querying rx'))
  | draining {rx rx' : Receiver} : s.phase = .draining rx →
      rx.recv? s.events capacity = some (.value, rx') →
      Moved capacity s .drain (s.goto (.draining rx'))
  | ended {e : Event α} : e ≠ .queried → e ≠ .emitted → Moved capacity s e (s.goto .ended)

lemma moved_of_step (h : Step capacity s e s') : Moved capacity s e s' := by
  have stop {a : Event α} {r : Option (PeerEvents α)} (hr : r = some s')
      (hstop : r = if s.stopping then some (s.goto .ended) else none) (hq : a ≠ .queried)
      (hem : a ≠ .emitted) : Moved capacity s a s' := by
    rw [hstop] at hr
    split at hr
    · cases hr
      exact .ended hq hem
    · cases hr
  rw [Step] at h
  cases e with
  | tick d =>
    cases h
    exact .around rfl rfl (Nat.le_add_right _ _) id nofun (.inl ⟨rfl, nofun⟩)
  | changed peers =>
    cases h
    exact .around rfl rfl le_rfl id nofun (.inl ⟨rfl, nofun⟩)
  | emitted =>
    rw [exec] at h
    split at h
    · cases h
      exact .around rfl rfl le_rfl id nofun (.inr rfl)
    · cases h
  | coreClosed =>
    cases h
    exact .around rfl rfl le_rfl id nofun (.inl ⟨rfl, nofun⟩)
  | stop =>
    cases h
    exact .around rfl rfl le_rfl (fun _ => rfl) nofun (.inl ⟨rfl, nofun⟩)
  | subscribed =>
    cases hp : s.phase <;> simp only [exec, hp] at h <;> cases h
    exact .subscribed hp
  | queried =>
    cases hp : s.phase <;> simp only [exec, hp] at h <;> cases h
    exact .queried hp
  | delivered =>
    cases hp : s.phase <;> simp only [exec, hp] at h <;> cases h
    exact .delivered hp
  | received =>
    cases hp : s.phase with
    | waiting rx =>
      simp only [exec, hp] at h
      split at h
      · next x rx' hrecv =>
        cases hstop : s.stopping with
        | true =>
          simp only [hstop, if_true] at h
          cases h
          exact .ended nofun nofun
        | false =>
          simp only [hstop, Bool.false_eq_true, if_false] at h
          cases h
          exact .received hp hstop hrecv
      · split at h
        · cases h
        · cases h
          exact .ended nofun nofun
    | _ => simp only [exec, hp] at h; cases h
  | stopped =>
    cases hp : s.phase with
    | waiting rx | debouncing rx since => exact stop h (by rw [exec, hp]) nofun nofun
    | _ => simp only [exec, hp] at h; cases h
  | slept =>
    cases hp : s.phase with
    | debouncing rx since =>
      simp only [exec, hp] at h
      split at h
      · next hle =>
        cases h
        exact .slept hp hle
      · cases h
    | _ => simp only [exec, hp] at h; cases h
  | drain =>
    cases hp : s.phase with
    | draining rx =>
      simp only [exec, hp] at h
      split at h
      · next rx' hrecv =>
        cases h
        exact .draining hp hrecv
      · next rx' hrecv =>
        cases h
        exact .drained hp (.inr ⟨_, hrecv⟩)
      · cases h
        exact .drained hp (.inl rfl)
    | _ => simp only [exec, hp] at h; cases h
  | aborted =>
    cases hp : s.phase with
    | ended | draining rx => simp only [exec, hp] at h; cases h
    | _ => exact stop h (by rw [exec, hp]) nofun nofun

section Newest

variable {init : α} {events : List (Event α)} {snapshot : α}

structure Taken (capacity : ℕ) (init : α) (events : List (Event α)) (s : PeerEvents α) (n : ℕ)
    (snapshot : α) : Prop where
  query : ∃ before u after, events = before ++ .queried :: after ∧
    Run (Step capacity) (start init) before u ∧ u.peers = snapshot ∧ n ≤ u.events.sent ∧
    u.events.sent ≤ s.events.sent ∧ (.emitted ∈ after → u.events.sent < s.events.sent)

lemma Taken.more {n : ℕ} (h : Taken capacity init events s n snapshot)
    (hs : s'.events = s.events ∧ e ≠ .emitted ∨ s'.events = s.events.send) :
    Taken capacity init (events ++ [e]) s' n snapshot := by
  obtain ⟨before, u, after, rfl, hrun, hu, hn, hle, hlt⟩ := h.query
  refine ⟨before, u, after ++ [e], by simp, hrun, hu, hn, ?_, fun hm => ?_⟩
  · rcases hs with ⟨hs, -⟩ | hs <;> rw [hs]
    · exact hle
    · exact Nat.le_succ_of_le hle
  · rcases hs with ⟨hs, hne⟩ | hs <;> rw [hs]
    · rcases List.mem_append.mp hm with hm | hm
      · exact hlt hm
      · exact absurd (List.mem_singleton.mp hm).symm hne
    · exact Nat.lt_succ_of_le hle

def Current (capacity : ℕ) (init : α) (events : List (Event α)) (s : PeerEvents α) : Prop :=
  match s.phase with
  | .spawned | .ended => True
  | .querying rx | .debouncing rx _ | .draining rx => rx.position ≤ s.events.sent
  | .delivering rx snapshot => Taken capacity init events s rx.position snapshot
  | .waiting rx => ∃ now snapshot, s.delivered.getLast? = some (now, snapshot) ∧
      Taken capacity init events s rx.position snapshot

lemma Current.around (h : Current capacity init events s) (hp : s'.phase = s.phase)
    (hd : s'.delivered = s.delivered)
    (hs : s'.events = s.events ∧ e ≠ .emitted ∨ s'.events = s.events.send) :
    Current capacity init (events ++ [e]) s' := by
  have hle : s.events.sent ≤ s'.events.sent := by
    rcases hs with ⟨hs, -⟩ | hs <;> rw [hs]
    exact Nat.le_succ _
  rw [Current, hp]
  rw [Current] at h
  cases hphase : s.phase <;> rw [hphase] at h
  case spawned => trivial
  case ended => trivial
  case querying rx => exact h.trans hle
  case debouncing rx since => exact h.trans hle
  case draining rx => exact h.trans hle
  case delivering rx snapshot => exact h.more hs
  case waiting rx =>
    obtain ⟨now, snapshot, hlast, htaken⟩ := h
    exact ⟨now, snapshot, by rw [hd, hlast], htaken.more hs⟩

lemma Current.step (hrun : Run (Step capacity) (start init) events s)
    (h : Current capacity init events s) (hs : Step capacity s e s') :
    Current capacity init (events ++ [e]) s' := by
  cases moved_of_step hs with
  | around hp hd _ _ _ hsent => exact h.around hp hd hsent
  | subscribed => exact le_rfl
  | @queried rx hp =>
    rw [Current, hp] at h
    exact ⟨events, s, [], rfl, hrun, rfl, h, le_rfl, fun hm => absurd hm List.not_mem_nil⟩
  | @delivered rx snapshot hp =>
    rw [Current, hp] at h
    exact ⟨s.clock, snapshot, List.getLast?_concat, h.more (.inl ⟨rfl, nofun⟩)⟩
  | @received rx rx' x hp _ hrecv => exact Receiver.position_recv? hrecv
  | @slept rx since hp =>
    rw [Current, hp] at h
    exact h
  | @drained rx rx' hp hrx =>
    rcases hrx with rfl | ⟨x, hrecv⟩
    · rw [Current, hp] at h
      exact h
    · exact Receiver.position_recv? hrecv
  | draining _ hrecv => exact Receiver.position_recv? hrecv
  | ended => trivial

/-- Whenever the task waits and the core's channel has nothing more for it, lost events or not: what
the app was last told was taken after the last event was sent. -/
theorem newest_peers_delivered (hrun : Run (Step capacity) (start init) events s)
    (hp : s.phase = .waiting rx) (hnone : rx.recv? s.events capacity = none) :
    ∃ before u after now, events = before ++ .queried :: after ∧
      Run (Step capacity) (start init) before u ∧ .emitted ∉ after ∧
      s.delivered.getLast? = some (now, u.peers) := by
  have hall : Run (Step capacity) (start init) events s ∧ Current capacity init events s := by
    refine hrun.history (H := fun events s => Run (Step capacity) (start init) events s ∧
      Current capacity init events s) ⟨.nil _, trivial⟩ ?_
    rintro events s e s' ⟨hr, hc⟩ hs
    exact ⟨hr.append (.single hs), hc.step hr hs⟩
  have hcurrent := hall.2
  rw [Current, hp] at hcurrent
  obtain ⟨now, snapshot, hlast, before, u, after, he, hu, rfl, hn, -, hlt⟩ := hcurrent
  refine ⟨before, u, after, now, he, hu, fun hm => ?_, hlast⟩
  have hsent := Receiver.recv?_eq_none.mp hnone
  exact absurd (hlt hm) (by omega)

def twoDeliveries : List (Event ℕ) :=
  [.subscribed, .queried, .delivered, .changed 3, .emitted, .received, .tick 250, .slept, .drain,
    .queried, .delivered]

set_option maxRecDepth 4000 in
lemma twoDeliveries_run : ∃ s, Run (Step 16) (start 0) twoDeliveries s ∧
    s.phase = .waiting ⟨1⟩ ∧ s.events.sent = 1 ∧ s.delivered = [(0, 0), (250, 3)] := by
  refine ⟨_, .cons rfl <| .cons rfl <| .cons rfl <| .cons rfl <| .cons rfl <| .cons rfl <|
    .cons rfl <| .cons rfl <| .cons rfl <| .cons rfl <| .cons rfl <| .nil _, rfl, rfl, rfl⟩

theorem third_peer_delivered : ∃ s before u after now, Run (Step 16) (start 0) twoDeliveries s ∧
    s.events.sent = 1 ∧ twoDeliveries = before ++ .queried :: after ∧
    Run (Step 16) (start 0) before u ∧ .emitted ∉ after ∧
    s.delivered.getLast? = some (now, u.peers) := by
  obtain ⟨s, hrun, hp, hsent, -⟩ := twoDeliveries_run
  have hnone : (⟨1⟩ : Receiver).recv? s.events 16 = none := Receiver.recv?_eq_none.mpr hsent.le
  obtain ⟨before, u, after, now, hu⟩ := newest_peers_delivered hrun hp hnone
  exact ⟨s, before, u, after, now, hrun, hsent, hu⟩

end Newest

section Debounce

variable {init : α} {events : List (Event α)}

def Rested (s : PeerEvents α) : Prop :=
  match s.phase with
  | .ended => True
  | .waiting _ => ∀ x ∈ s.delivered, x.1 ≤ s.clock
  | .debouncing _ since => since ≤ s.clock ∧ ∀ x ∈ s.delivered, x.1 ≤ since
  | _ => ∀ x ∈ s.delivered, x.1 + peerDebounce ≤ s.clock

lemma Rested.around (h : s.Rested) (hp : s'.phase = s.phase) (hd : s'.delivered = s.delivered)
    (hc : s.clock ≤ s'.clock) : s'.Rested := by
  rw [Rested] at h ⊢
  rw [hp, hd]
  cases hphase : s.phase <;> rw [hphase] at h
  case ended => trivial
  case debouncing rx since => exact ⟨h.1.trans hc, h.2⟩
  all_goals exact fun x hx => (h x hx).trans hc

lemma Rested.step (h : s.Rested) (hs : Step capacity s e s') : s'.Rested := by
  cases moved_of_step hs with
  | around hp hd hc => exact h.around hp hd hc
  | ended => trivial
  | delivered hp =>
    rw [Rested, hp] at h
    intro x hx
    rcases List.mem_append.mp hx with hx | hx
    · exact Nat.le_of_add_right_le (h x hx)
    · rw [List.mem_singleton.mp hx]
      exact le_rfl
  | received hp =>
    rw [Rested, hp] at h
    exact ⟨le_rfl, h⟩
  | slept hp hle =>
    rw [Rested, hp] at h
    exact fun x hx => (Nat.add_le_add_right (h.2 x hx) peerDebounce).trans hle
  | subscribed hp | queried hp | drained hp | draining hp =>
    rw [Rested, hp] at h
    exact h

/-- Two deliveries are never less than the debounce apart. -/
theorem deliveries_debounced (hrun : Run (Step capacity) (start init) events s) :
    (s.delivered.map Prod.fst).Pairwise fun a b => a + peerDebounce ≤ b := by
  have hinv : s.Rested ∧ (s.delivered.map Prod.fst).Pairwise fun a b => a + peerDebounce ≤ b := by
    refine hrun.invariant (I := fun s => s.Rested ∧
      (s.delivered.map Prod.fst).Pairwise fun a b => a + peerDebounce ≤ b) ?_ ?_
    · exact ⟨fun x hx => absurd hx List.not_mem_nil, .nil⟩
    · rintro s e s' ⟨hr, hd⟩ hs
      refine ⟨hr.step hs, ?_⟩
      cases moved_of_step hs with
      | around _ he => rwa [he]
      | @delivered rx snapshot hp =>
        rw [Rested, hp] at hr
        show (List.map Prod.fst (s.delivered ++ [(s.clock, snapshot)])).Pairwise _
        rw [List.map_append, List.pairwise_append]
        refine ⟨hd, List.pairwise_singleton _ _, ?_⟩
        intro a ha b hb
        obtain ⟨x, hx, rfl⟩ := List.mem_map.mp ha
        obtain rfl : b = s.clock := by simpa using hb
        exact hr x hx
      | _ => exact hd
  exact hinv.2

theorem second_delivery_debounced : ∃ s : PeerEvents ℕ, s.delivered.length = 2 ∧
    (s.delivered.map Prod.fst).Pairwise fun a b => a + peerDebounce ≤ b := by
  obtain ⟨s, hrun, -, -, hd⟩ := twoDeliveries_run
  exact ⟨s, by rw [hd]; rfl, deliveries_debounced hrun⟩

def due (s : PeerEvents α) : ℕ :=
  match s.phase with
  | .waiting _ | .ended => 0
  | _ => 1

lemma due_le (s : PeerEvents α) : s.due ≤ 1 := by
  rw [due]
  split <;> omega

lemma due_step (hstop : s.stopping = true) (hs : Step capacity s e s') :
    s'.stopping = true ∧ s'.delivered.length + s'.due ≤ s.delivered.length + s.due := by
  cases moved_of_step hs with
  | around hp hd _ hkept => exact ⟨hkept hstop, by rw [hd, due, due, hp]⟩
  | received _ hrunning => rw [hstop] at hrunning; cases hrunning
  | delivered hp =>
    refine ⟨hstop, ?_⟩
    simp [due, goto, hp]
  | ended => exact ⟨hstop, by simp [due, goto]⟩
  | subscribed hp | queried hp | slept hp | drained hp | draining hp =>
    exact ⟨hstop, by simp [due, goto, hp]⟩

/-- After the stop the app hears at most once more, and nothing keeps the task from ending: until it
has, it can go on without waiting for an event or for its sleep. -/
theorem one_delivery_after_stop (hstop : s.stopping = true) (hrun : Run (Step capacity) s events s') :
    s'.delivered.length ≤ s.delivered.length + 1 ∧
    (s'.phase = .ended ∨
      ∃ e ∈ [Event.subscribed, .queried, .delivered, .stopped, .drain],
        (s'.exec capacity e).isSome = true) := by
  have hinv : s'.stopping = true ∧
      s'.delivered.length + s'.due ≤ s.delivered.length + s.due := by
    refine hrun.invariant (I := fun u => u.stopping = true ∧
      u.delivered.length + u.due ≤ s.delivered.length + s.due) ⟨hstop, le_rfl⟩ ?_
    rintro u e v ⟨hu, hle⟩ hs
    obtain ⟨hv, hstep⟩ := due_step hu hs
    exact ⟨hv, hstep.trans hle⟩
  refine ⟨?_, ?_⟩
  · have hdue := due_le s
    omega
  · cases hp : s'.phase with
    | ended => exact .inl rfl
    | spawned => exact .inr ⟨.subscribed, by simp, by simp [exec, hp]⟩
    | querying rx => exact .inr ⟨.queried, by simp, by simp [exec, hp]⟩
    | delivering rx snapshot => exact .inr ⟨.delivered, by simp, by simp [exec, hp]⟩
    | waiting rx | debouncing rx since =>
      exact .inr ⟨.stopped, by simp, by simp [exec, hp, hinv.1]⟩
    | draining rx =>
      refine .inr ⟨.drain, by simp, ?_⟩
      simp only [exec, hp]
      split <;> rfl

theorem baseline_after_stop : ∃ s s' : PeerEvents ℕ, s.stopping = true ∧
    Run (Step 16) s [.queried, .delivered] s' ∧ s.delivered = [] ∧
    s'.delivered.length ≤ s.delivered.length + 1 ∧
    (s'.phase = .ended ∨
      ∃ e ∈ [Event.subscribed, .queried, .delivered, .stopped, .drain],
        (s'.exec 16 e).isSome = true) := by
  have hrun : Run (Step 16)
      { start 0 with stopping := true, phase := .querying ⟨0⟩ } [.queried, .delivered] _ :=
    .cons rfl <| .cons rfl <| .nil _
  exact ⟨_, _, rfl, hrun, rfl, one_delivery_after_stop rfl hrun⟩

end Debounce

end PeerEvents

end Yggstack.Mobile
