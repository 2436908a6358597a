import Mathlib.Tactic

/-! A broadcast channel, as far as its receivers can tell: a receiver sees the values sent after it
subscribed, and nothing of what was sent before. -/

namespace Yggstack.Library

structure Broadcast where
  sent : ℕ

structure Receiver where
  position : ℕ

namespace Broadcast

def new : Broadcast := ⟨0⟩

variable (b : Broadcast)

def send : Broadcast := ⟨b.sent + 1⟩

def subscribe : Receiver := ⟨b.sent⟩

end Broadcast

def Receiver.Pending (r : Receiver) (b : Broadcast) : Prop := r.position < b.sent

inductive Received where
  | value
  -- Values were lost; the receiver goes on with the oldest that is still there.
  | lagged
  deriving DecidableEq

def Receiver.recv? (r : Receiver) (b : Broadcast) (capacity : ℕ) : Option (Received × Receiver) :=
  if b.sent ≤ r.position then none
  else if r.position + capacity < b.sent then some (.lagged, ⟨b.sent - capacity⟩)
  else some (.value, ⟨r.position + 1⟩)

variable {r : Receiver} {b : Broadcast}

lemma Receiver.not_pending_subscribe : ¬b.subscribe.Pending b := Nat.lt_irrefl _

lemma Receiver.Pending.send (h : r.Pending b) : r.Pending b.send := Nat.lt_succ_of_lt h

lemma Receiver.pending_send (h : r.position ≤ b.sent) : r.Pending b.send := Nat.lt_succ_of_le h

lemma Receiver.recv?_eq_none {capacity : ℕ} : r.recv? b capacity = none ↔ b.sent ≤ r.position := by
  rw [recv?]
  split
  · simp [*]
  · split <;> simp [*]

lemma Receiver.position_recv? {capacity : ℕ} {x : Received} {r' : Receiver}
    (h : r.recv? b capacity = some (x, r')) : r'.position ≤ b.sent := by
  rw [recv?] at h
  split at h
  · cases h
  · split at h
    · cases h
      exact Nat.sub_le _ _
    · next hlt _ =>
      cases h
      exact Nat.lt_of_not_le hlt

end Yggstack.Library
