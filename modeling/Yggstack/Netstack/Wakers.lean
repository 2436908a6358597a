import Yggstack.Library.Tables
import Yggstack.Netstack.Listening

namespace Yggstack.Netstack

open Library

variable {now : ℤ} {sockets : SocketSet} {supply : List ℕ} {entry entry' : TcpListenerEntry}
  {entries entries' : List TcpListenerEntry} {woken : List Waker}

structure Woke (woken : List Waker) (entry entry' : TcpListenerEntry) : Prop where
  queue : ∃ moved, entry'.acceptQueue = entry.acceptQueue ++ moved ∧
    (moved = [] ∧ entry'.acceptWakers = entry.acceptWakers ∨
      entry'.acceptWakers = [] ∧ ∀ k ∈ entry.acceptWakers, k ∈ woken)

lemma Woke.mono (h : Woke woken entry entry') {woken' : List Waker} (hsub : woken ⊆ woken') :
    Woke woken' entry entry' := by
  obtain ⟨moved, hqueue, hkept | ⟨hnone, hwoken⟩⟩ := h.queue
  · exact ⟨moved, hqueue, .inl hkept⟩
  · exact ⟨moved, hqueue, .inr ⟨hnone, fun k hk => hsub (hwoken k hk)⟩⟩

lemma Woke.filled (h : Woke woken entry entry') (hempty : entry.acceptQueue = [])
    (hne : entry'.acceptQueue ≠ []) : ∀ k ∈ entry.acceptWakers, k ∈ woken := by
  obtain ⟨moved, hqueue, ⟨rfl, -⟩ | ⟨-, hwoken⟩⟩ := h.queue
  · rw [hempty] at hqueue
    exact absurd hqueue hne
  · exact hwoken

def Drained (entry entry' : TcpListenerEntry) : Prop :=
  entry'.acceptQueue ≠ [] → entry.acceptQueue ≠ [] ∧ entry'.acceptWakers = entry.acceptWakers

lemma drained_same (entries : List TcpListenerEntry) : List.Forall₂ Drained entries entries :=
  List.forall₂_same.mpr fun _ _ hne => ⟨hne, rfl⟩

lemma drained_acceptFrom {port : UInt16} {waker : Waker} :
    List.Forall₂ Drained entries (NetstackState.acceptFrom port waker entries).2 := by
  induction entries with
  | nil => exact .nil
  | cons entry entries ih =>
    have hsame := drained_same entries
    rw [NetstackState.acceptFrom]
    split
    · split
      · next h queue hqueue =>
        refine .cons (fun _ => ⟨?_, rfl⟩) hsame
        rw [hqueue]
        exact List.cons_ne_nil _ _
      · next hqueue => exact .cons (fun hne => absurd hqueue hne) hsame
    · exact .cons (fun hne => ⟨hne, rfl⟩) ih

namespace World

variable {w w' : World} {a : Action}

lemma listeners_drained (hm : Moved w a w') (ha : ∀ i, a ≠ .pollerCycle i) :
    ∃ entries new, w'.net.listeners = entries ++ new ∧ (∀ entry ∈ new, entry.acceptQueue = []) ∧
      (entries = [] ∨ List.Forall₂ Drained w.net.listeners entries) := by
  have hsame : ∃ entries new, w.net.listeners = entries ++ new ∧
      (∀ entry ∈ new, entry.acceptQueue = []) ∧
      (entries = [] ∨ List.Forall₂ Drained w.net.listeners entries) :=
    ⟨w.net.listeners, [], (List.append_nil _).symm, by simp, .inr (drained_same _)⟩
  cases hm with
  | @accepted n h port listeners he =>
    have hdrained : List.Forall₂ Drained w.net.listeners
        (NetstackState.acceptFrom port (.task n) w.net.listeners).2 := drained_acceptFrom
    rw [he] at hdrained
    exact ⟨listeners, [], (List.append_nil _).symm, by simp, .inr hdrained⟩
  | @acceptParked n port listeners he =>
    have hdrained : List.Forall₂ Drained w.net.listeners
        (NetstackState.acceptFrom port (.task n) w.net.listeners).2 := drained_acceptFrom
    rw [he] at hdrained
    exact ⟨listeners, [], (List.append_nil _).symm, by simp, .inr hdrained⟩
  | listened =>
    refine ⟨w.net.listeners, _, rfl, fun entry he => ?_, .inr (drained_same _)⟩
    cases List.mem_singleton.mp he
    rfl
  | shutdown => exact ⟨[], [], rfl, by simp, .inl rfl⟩
  | @pollerCycled i => exact absurd rfl (ha i)
  | _ => exact hsame

end World

end Yggstack.Netstack
