import Yggstack.Netstack.Promotion

namespace Yggstack.Netstack

open Library

def listeningIn (sockets : SocketSet) (slot : PoolSlot) : Bool :=
  match sockets.getTcp slot.1 with
  | .ok t => decide (t.state = .listen)
  | .error _ => false

lemma listenSocket_state {ep : IpListenEndpoint} (h : ep.port ≠ 0) :
    (listenSocket ep).state = .listen := by
  simp [listenSocket, TcpSocket.listen, TcpSocket.isOpen, TcpSocket.new, h]

def Marked (sockets : SocketSet) (pool : List PoolSlot) : Prop :=
  ∀ slot ∈ pool, ∃ t, sockets.getTcp slot.1 = .ok t ∧ (slot.2 = none ↔ t.state = .listen)

lemma Marked.inListen_eq {sockets : SocketSet} {pool : List PoolSlot} (h : Marked sockets pool) :
    inListen pool = pool.countP (listeningIn sockets) := by
  rw [inListen, ← List.countP_eq_length_filter]
  apply List.countP_congr
  intro slot hs
  obtain ⟨t, ht, hmark⟩ := h slot hs
  simp only [listeningIn, ht, decide_eq_true_eq, ← hmark, Option.isNone_iff_eq_none]

namespace EntryServiced

variable {now : ℤ} {sockets : SocketSet} {entry : TcpListenerEntry} {moved new : List ℕ}
  {r : Serviced} {rest : Multiset (ℕ × Kind)} {slot : PoolSlot} {t : TcpSocket}

lemma find_new (h : EntryServiced now sockets entry moved new r) {j : ℕ} (hj : j ∈ new) :
    r.sockets.find j = some (.tcp (listenSocket entry.listenEp)) := by
  rw [h.result, Store.find_insertAll, if_pos hj]

lemma marked (h : EntryServiced now sockets entry moved new r)
    (hl : Ledger sockets.kindAt (tag .tcp entry.handles + rest)) (hp : entry.listenEp.port ≠ 0) :
    Marked r.sockets r.entry.listenPool := by
  intro slot hs
  obtain hk | hk := List.mem_append.mp (h.listenPool.mem_iff.mp hs)
  · obtain ⟨x, hx, rfl⟩ := List.mem_map.mp hk
    have hkept : x.1 ∈ keptHandles now sockets entry.listenPool := List.mem_map_of_mem hx
    have htcp : sockets.IsTcp x.1 := by
      apply SocketSet.isTcp_iff.mpr (hl.present (x.1, .tcp) _)
      have hpool := List.mem_of_mem_filter (List.mem_of_mem_filter hx)
      simp [TcpListenerEntry.handles, List.mem_map_of_mem hpool]
    obtain ⟨t, ht⟩ := htcp
    have hfind : r.sockets.find x.1 = sockets.find x.1 := (h.ledger hl).2.2 _ (by simp [hkept])
    have hafter : r.sockets.getTcp x.1 = .ok t := by
      rwa [SocketSet.getTcp_eq_ok, hfind, ← SocketSet.getTcp_eq_ok]
    refine ⟨t, by rwa [markIn_fst], ?_⟩
    by_cases hstate : t.state = .listen <;> simp [markIn, ht, hstate]
  · obtain ⟨j, hj, rfl⟩ := List.mem_map.mp hk
    refine ⟨_, SocketSet.getTcp_eq_ok.mpr (h.find_new hj), ?_⟩
    simp [listenSocket_state hp]

lemma inListen_eq (h : EntryServiced now sockets entry moved new r) :
    inListen r.entry.listenPool = max listenPoolSize
      (inListen (((waiting sockets entry.listenPool).filter fun slot =>
        !staleIn now sockets slot).map (markIn now sockets))) := by
  have hnew : inListen (new.map fun h => (h, none)) = new.length := by
    rw [inListen, List.filter_eq_self.mpr (by simp), List.length_map]
  have happend : ∀ pool pool' : List PoolSlot,
      inListen (pool ++ pool') = inListen pool + inListen pool' := by
    intro pool pool'
    simp [inListen]
  rw [inListen_perm h.listenPool, happend, hnew, h.count, lacking]
  omega

end EntryServiced

lemma staleIn_iff {now : ℤ} {sockets : SocketSet} {slot : PoolSlot} {t : TcpSocket}
    (ht : sockets.getTcp slot.1 = .ok t) : staleIn now sockets slot = true ↔
      t.state ≠ .listen ∧ ∃ since, slot.2 = some since ∧ elapsed now since > synHandshakeTimeout := by
  cases hs : slot.2 <;> simp [staleIn, ht, hs]

lemma SocketSet.getTcp_congr {s t : SocketSet} {j : ℕ} (h : t.find j = s.find j) :
    t.getTcp j = s.getTcp j := by
  rw [getTcp, getTcp, getAs, getAs, h]

namespace EntryServiced

/-! A listener's own turn starts at the sockets `t` and leaves `r.sockets`; the pass it is part of
starts at `s` and leaves `s'`. -/

variable {now : ℤ} {s t s' : SocketSet} {entry : TcpListenerEntry} {moved new : List ℕ}
  {r : Serviced} {rest : Multiset (ℕ × Kind)} {slot : PoolSlot}
  (h : EntryServiced now t entry moved new r)
  (hl : Ledger t.kindAt (tag .tcp entry.handles + rest)) (hp : entry.listenEp.port ≠ 0)
  (hbefore : ∀ j ∈ entry.handles, t.find j = s.find j)
  (hafter : ∀ j ∈ r.entry.handles, s'.find j = r.sockets.find j)
  (horigin : ∀ j sock, s'.find j = some sock → r.sockets.find j = some sock ∨
    ∃ ep : IpListenEndpoint, ep.port ≠ 0 ∧ sock = .tcp (listenSocket ep))

include h hl

include hp hbefore hafter horigin

end EntryServiced

end Yggstack.Netstack
