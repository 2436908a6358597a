import Yggstack.Library.Tables
import Yggstack.Netstack.Listening

namespace Yggstack.Netstack

open Library

def TcpSocket.Finished (t : TcpSocket) : Prop := t.state = .established ∨ t.state = .closeWait

lemma TcpSocket.Finished.ready_iff {t : TcpSocket} (h : t.Finished) :
    (t.mayRecv && t.maySend) = true ↔ ¬(t.state = .closeWait ∧ t.rx = []) := by
  rcases h with h | h <;> simp [TcpSocket.mayRecv, TcpSocket.maySend, h]

namespace EntryServiced

variable {now : ℤ} {sockets : SocketSet} {entry : TcpListenerEntry} {moved new : List ℕ}
    {r : Serviced}

lemma mem_moved (h : EntryServiced now sockets entry moved new r) (hn : entry.handles.Nodup)
    {slot : PoolSlot}
    (hs : slot ∈ entry.listenPool) : slot.1 ∈ moved ↔ readyIn sockets slot = true := by
  rw [TcpListenerEntry.handles, List.nodup_append] at hn
  rw [h.promoted.mem_iff]
  exact mem_map_filter hn.1 hs

lemma mem_acceptQueue (h : EntryServiced now sockets entry moved new r) (hn : entry.handles.Nodup)
    {slot : PoolSlot}
    (hs : slot ∈ entry.listenPool) : slot.1 ∈ r.entry.acceptQueue ↔ slot.1 ∈ moved := by
  rw [TcpListenerEntry.handles, List.nodup_append] at hn
  rw [h.acceptQueue, List.mem_append, or_iff_right]
  intro hq
  exact hn.2.2 slot.1 (List.mem_map_of_mem hs) slot.1 hq rfl

end EntryServiced

namespace World

variable {w w' : World}

lemma Inv.pool_not_pending (hi : Inv w) {k : ℕ} {entry : TcpListenerEntry} {slot : PoolSlot}
    (hk : w.net.listeners[k]? = some entry) (hslot : slot ∈ entry.listenPool) :
    slot.1 ∉ w.net.pendingConnects.map PendingConnect.handle := by
  intro hm
  obtain ⟨cmd, hc, he⟩ := List.mem_map.mp hm
  have hpool : w.Holds slot.1 (.pool k) := ⟨entry, hk, List.mem_map_of_mem hslot⟩
  cases hi.holder_unique hpool (q := .dial cmd.dial) (Or.inr ⟨cmd, hc, rfl, he⟩)

lemma Inv.entry_nodup (hi : Inv w) {k : ℕ} {entry : TcpListenerEntry}
    (hk : w.net.listeners[k]? = some entry) :
    entry.handles.Nodup := by
  have hn := hi.lists_nodup
  have hsub : entry.handles.Sublist (listenerHandles w.net.listeners) :=
    List.sublist_flatten_of_mem (List.mem_map_of_mem (List.mem_of_getElem? hk))
  refine hn.sublist (hsub.trans ?_)
  simp only [NetstackState.held, List.append_assoc]
  exact List.sublist_append_left _ _

/-- In every state a run can reach, a poll cycle queues a pool socket with a finished handshake, and
keeps it, unless the peer has already closed its side and nothing is left to read. -/
theorem finished_handshake_queued_iff {i : CycleInput} {k : ℕ} {entry : TcpListenerEntry}
    {slot : PoolSlot}
    {t : TcpSocket} (hr : Reachable w) (hs : Step w (.pollerCycle i) w')
    (hk : w.net.listeners[k]? = some entry)
    (hslot : slot ∈ entry.listenPool) (ht : w.net.sockets.find slot.1 = some (.tcp t))
    (hdone : (i.effect.tcp slot.1 t).Finished) :
    (∃ entry', w'.net.listeners[k]? = some entry' ∧ slot.1 ∈ entry'.acceptQueue ∧
        w'.net.sockets.find slot.1 = some (.tcp (i.effect.tcp slot.1 t))) ↔
      ¬((i.effect.tcp slot.1 t).state = .closeWait ∧ (i.effect.tcp slot.1 t).rx = []) := by
  have hi := hr.inv
  obtain ⟨dialed, served, results, hc⟩ := cycled_of_step hi hs
  have hpolled : (i.effect.apply dialed).find slot.1 = some (.tcp (i.effect.tcp slot.1 t)) := by
    refine PollEffect.find_apply_tcp.mpr ⟨t, ?_, rfl⟩
    rw [hc.connects.other _ (hi.pool_not_pending hk hslot), ht]
  have hkind : ∀ j, (i.effect.apply dialed).kindAt j = w.net.sockets.kindAt j := by
    intro j
    rw [PollEffect.kindAt_apply, hc.connects.kind]
  have hl := hi.ledger
  rw [held, NetstackState.held, tag_append, add_assoc] at hl
  obtain ⟨sockets, moved, new, r, others, hsame, hentry, hlt, hk', hafter, -⟩ :=
    hc.service.entrywise (hl.congr fun x _ => hkind x.1) hk
  have hown : sockets.getTcp slot.1 = .ok (i.effect.tcp slot.1 t) := by
    rw [SocketSet.getTcp_eq_ok, hsame _ (List.mem_append_left _ (List.mem_map_of_mem hslot)),
      hpolled]
  have hready : readyIn sockets slot = true ↔
      ¬((i.effect.tcp slot.1 t).state = .closeWait ∧ (i.effect.tcp slot.1 t).rx = []) := by
    rw [← hdone.ready_iff]
    simp only [readyIn, hown]
  have hqueue := hentry.mem_acceptQueue (hi.entry_nodup hk) hslot
  rw [← hready, ← hentry.mem_moved (hi.entry_nodup hk) hslot, ← hqueue]
  constructor
  · rintro ⟨entry', he, hm, -⟩
    rw [hk'] at he
    cases he
    exact hm
  · intro hm
    have hheld : slot.1 ∈ w'.net.held := by
      refine List.mem_append_left _ (List.mem_flatMap.mpr ⟨r.entry, List.mem_of_getElem? hk', ?_⟩)
      exact List.mem_append_right _ hm
    have hkeep : r.sockets.find slot.1 = sockets.find slot.1 := by
      apply (hentry.ledger hlt).2.2
      simp [hqueue.mp hm]
    refine ⟨r.entry, hk', hm, ?_⟩
    rw [(hc.ledger hi.ledger).2.2 _ hheld, hafter _ (List.mem_append_right _ hm), hkeep,
      ← SocketSet.getTcp_eq_ok, hown]

theorem half_closed_with_data_queued :
    ∃ w w', Reachable w ∧ Step w (.pollerCycle (cycleAt 0 .closeWait [7] 0 [8])) w' ∧
      ∃ entry', w'.net.listeners[0]? = some entry' ∧ 0 ∈ entry'.acceptQueue := by
  have hr := Reachable.of_runAll 1 false (fun _ => none)
      [.listenTcp 80 [0, 1, 2, 3, 4, 5, 6, 7], .pollerCheck] rfl
  refine ⟨_, _, hr, rfl, ?_⟩
  have hone :=
    @finished_handshake_queued_iff _ _ (cycleAt 0 .closeWait [7] 0 [8]) 0 _ (0, none) _ hr rfl rfl
    List.mem_cons_self rfl (Or.inr rfl)
  obtain ⟨entry', hk, hm, -⟩ := hone.mpr fun h => by cases h.2
  exact ⟨entry', hk, hm⟩

theorem half_closed_socket_reaped : ¬∀ (w w' : World) (i : CycleInput) (k : ℕ)
    (entry : TcpListenerEntry) (slot : PoolSlot) (t : TcpSocket), Reachable w →
    Step w (.pollerCycle i) w' →
    w.net.listeners[k]? = some entry → slot ∈ entry.listenPool →
      w.net.sockets.find slot.1 = some (.tcp t) →
    (i.effect.tcp slot.1 t).Finished →
      (∃ entry', w'.net.listeners[k]? = some entry' ∧ slot.1 ∈ entry'.acceptQueue) ∧
        ∃ t', w'.net.sockets.find slot.1 = some (.tcp t') := by
  intro hall
  have hr := Reachable.of_runAll 1 false (fun _ => none)
      [.listenTcp 80 [0, 1, 2, 3, 4, 5, 6, 7], .pollerCheck,
    .pollerCycle (cycleAt 0 .closeWait [] 0 [8]), .pollerCheck] rfl
  obtain ⟨-, t', ht'⟩ := hall _ _ (cycleAt 0 .closeWait [] 10000001 []) 0 _ (0, some 0) _ hr rfl rfl
    List.mem_cons_self rfl (Or.inr rfl)
  cases ht'

end World

end Yggstack.Netstack
