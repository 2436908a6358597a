import Yggstack.Netstack.Pools

/-! How many sockets of a listener are in LISTEN after each poll cycle. The top-up puts a fresh one
in for every socket that has left LISTEN, and nothing takes it out when that one comes back. -/

namespace Yggstack.Netstack

open Library

lemma countP_split {α : Type} (p q : α → Bool) (xs : List α) :
    xs.countP p = xs.countP (fun x => q x && p x) + xs.countP fun x => !q x && p x := by
  induction xs with
  | nil => rfl
  | cons x xs ih =>
    simp only [List.countP_cons]
    cases p x <;> cases q x <;> simp <;> omega

lemma TcpSocket.not_ready_of_listen {t : TcpSocket} (h : t.state = .listen) :
    (t.mayRecv && t.maySend) = false := by
  simp [TcpSocket.maySend, h]

namespace EntryServiced

variable {now : ℤ} {sockets : SocketSet} {entry : TcpListenerEntry} {moved new : List ℕ}
  {r : Serviced}

lemma inListen_kept (htcp : ∀ slot ∈ entry.listenPool, sockets.IsTcp slot.1) :
    inListen (((waiting sockets entry.listenPool).filter fun slot =>
      !staleIn now sockets slot).map (markIn now sockets)) =
      entry.listenPool.countP (listeningIn sockets) := by
  rw [inListen, ← List.countP_eq_length_filter, List.countP_map, waiting, List.filter_filter,
    List.countP_filter]
  apply List.countP_congr
  intro slot hs
  obtain ⟨t, ht⟩ := htcp slot hs
  by_cases hstate : t.state = .listen
  · have hstale : staleIn now sockets slot = false := by
      rw [Bool.eq_false_iff]
      exact fun hs => ((staleIn_iff ht).mp hs).1 hstate
    have hready : readyIn sockets slot = false := by
      simp only [readyIn, ht, TcpSocket.not_ready_of_listen hstate]
    simp [listeningIn, markIn, ht, hstate, hstale, hready]
  · simp [listeningIn, markIn, ht, hstate]

end EntryServiced

namespace TcpListenerEntry

def returned (sockets : SocketSet) (entry : TcpListenerEntry) : ℕ :=
  entry.listenPool.countP fun slot => !slot.2.isNone && listeningIn sockets slot

def departed (sockets : SocketSet) (entry : TcpListenerEntry) : ℕ :=
  entry.listenPool.countP fun slot => slot.2.isNone && !listeningIn sockets slot

lemma listening_le_iff {entry : TcpListenerEntry} (sockets : SocketSet)
    (h : inListen entry.listenPool = listenPoolSize) :
    entry.listenPool.countP (listeningIn sockets) ≤ listenPoolSize ↔
      entry.returned sockets ≤ entry.departed sockets := by
  rw [inListen, ← List.countP_eq_length_filter, countP_split _ (listeningIn sockets)] at h
  rw [countP_split _ fun slot => slot.2.isNone, returned, departed]
  simp only [Bool.and_comm (listeningIn sockets _), Bool.and_comm (!listeningIn sockets _)] at h
  omega

end TcpListenerEntry

namespace World

variable {w w' : World} {a : Action} {i : CycleInput}

/-- No poll cycle has more pool sockets come back to LISTEN than leave it. -/
def Settles (w : World) (a : Action) : Prop :=
  ∀ i, a = .pollerCycle i → ∀ entry ∈ w.net.listeners,
    entry.returned (i.effect.apply w.net.sockets) ≤ entry.departed (i.effect.apply w.net.sockets)

def PoolsBounded (a : Action) (w' : World) : Prop :=
  ∀ i, a = .pollerCycle i → ∀ entry ∈ w'.net.listeners,
    entry.listenPool.countP (listeningIn w'.net.sockets) ≤ listenPoolSize

structure Topped (w : World) : Prop where
  inv : Inv w
  entries : ∀ entry ∈ w.net.listeners,
    entry.listenEp.port ≠ 0 ∧ inListen entry.listenPool = listenPoolSize

lemma acceptFrom_pools (port : UInt16) (k : Waker) (entries : List TcpListenerEntry) :
    ∀ entry' ∈ (NetstackState.acceptFrom port k entries).2, ∃ entry ∈ entries,
      entry'.listenEp = entry.listenEp ∧ entry'.listenPool = entry.listenPool := by
  induction entries with
  | nil => simp [NetstackState.acceptFrom]
  | cons entry entries ih =>
    rw [NetstackState.acceptFrom]
    split
    · split <;> exact List.forall_mem_cons.mpr
        ⟨⟨entry, List.mem_cons_self, rfl, rfl⟩,
          fun e he => ⟨e, List.mem_cons_of_mem entry he, rfl, rfl⟩⟩
    · intro e he
      obtain rfl | he := List.mem_cons.mp he
      · exact ⟨e, List.mem_cons_self, rfl, rfl⟩
      · obtain ⟨e', he', hsame⟩ := ih e he
        exact ⟨e', List.mem_cons_of_mem entry he', hsame⟩

lemma inListen_newEntry (ep : IpListenEndpoint) (handles : List ℕ) :
    inListen (newEntry ep handles).listenPool = handles.length := by
  rw [inListen, newEntry, List.filter_eq_self.mpr (by simp), List.length_map]

lemma entries_moved (hm : Moved w a w') (ha : ∀ i, a ≠ .pollerCycle i)
    (ht : ∀ entry ∈ w.net.listeners,
      entry.listenEp.port ≠ 0 ∧ inListen entry.listenPool = listenPoolSize) :
    ∀ entry ∈ w'.net.listeners,
      entry.listenEp.port ≠ 0 ∧ inListen entry.listenPool = listenPoolSize := by
  have haccept : ∀ port k, ∀ entry' ∈ (NetstackState.acceptFrom port k w.net.listeners).2,
      entry'.listenEp.port ≠ 0 ∧ inListen entry'.listenPool = listenPoolSize := by
    intro port k entry' he
    obtain ⟨entry, hentry, hep, hpool⟩ := acceptFrom_pools port k w.net.listeners entry' he
    rw [hep, hpool]
    exact ht entry hentry
  cases hm with
  | @accepted n h port listeners he =>
    have hn := haccept port (.task n)
    rw [he] at hn
    exact hn
  | @acceptParked n port listeners he =>
    have hn := haccept port (.task n)
    rw [he] at hn
    exact hn
  | @listened port supply handles hp hn hfresh hlen =>
    intro entry he
    obtain he | he := List.mem_append.mp he
    · exact ht entry he
    · obtain rfl := List.mem_singleton.mp he
      exact ⟨hp, by rw [inListen_newEntry, hlen]⟩
  | shutdown =>
    intro entry he
    cases he
  | @pollerCycled i => exact absurd rfl (ha i)
  | _ => exact ht

structure Refilled (polled sockets' : SocketSet) (entry entry' : TcpListenerEntry) : Prop where
  listenEp : entry'.listenEp = entry.listenEp
  inListen : inListen entry'.listenPool =
    max listenPoolSize (entry.listenPool.countP (listeningIn polled))
  marked : Marked sockets' entry'.listenPool

lemma Refilled.bounded_iff {polled sockets' : SocketSet} {entry entry' : TcpListenerEntry}
    (h : Refilled polled sockets' entry entry')
    (hfull : Netstack.inListen entry.listenPool = listenPoolSize) :
    entry'.listenPool.countP (listeningIn sockets') ≤ listenPoolSize ↔
      entry.returned polled ≤ entry.departed polled := by
  rw [← h.marked.inListen_eq, h.inListen, ← TcpListenerEntry.listening_le_iff polled hfull]
  omega

lemma refilled_cycled (hi : Inv w) (hs : Step w (.pollerCycle i) w')
    (hports : ∀ entry ∈ w.net.listeners, entry.listenEp.port ≠ 0) {k : ℕ} {entry : TcpListenerEntry}
    (hk : w.net.listeners[k]? = some entry) :
    ∃ entry', w'.net.listeners[k]? = some entry' ∧
      Refilled (i.effect.apply w.net.sockets) w'.net.sockets entry entry' := by
  obtain ⟨dialed, served, results, hc⟩ := cycled_of_step hi hs
  have hl := hi.ledger
  rw [held, NetstackState.held, tag_append, add_assoc] at hl
  have hkind : ∀ j, (i.effect.apply dialed).kindAt j = w.net.sockets.kindAt j := by
    intro j
    rw [PollEffect.kindAt_apply, hc.connects.kind]
  obtain ⟨sockets, moved, new, r, others, hsame, hentry, hlt, hk', hafter, -⟩ :=
    hc.service.entrywise (hl.congr fun x _ => hkind x.1) hk
  have htcp : ∀ slot ∈ entry.listenPool, sockets.IsTcp slot.1 := by
    intro slot hslot
    apply SocketSet.isTcp_iff.mpr (hlt.present (slot.1, .tcp) _)
    simp [TcpListenerEntry.handles, List.mem_map_of_mem hslot]
  have hpolled : ∀ slot ∈ entry.listenPool,
      sockets.getTcp slot.1 = SocketSet.getTcp (i.effect.apply w.net.sockets) slot.1 := by
    intro slot hslot
    apply SocketSet.getTcp_congr
    rw [hsame _ (List.mem_append_left _ (List.mem_map_of_mem hslot)), PollEffect.apply,
      PollEffect.apply, Store.find_mapValues, Store.find_mapValues,
      hc.connects.other _ (hi.pool_not_pending hk hslot)]
  have hfound : ∀ slot ∈ r.entry.listenPool,
      w'.net.sockets.getTcp slot.1 = r.sockets.getTcp slot.1 := by
    intro slot hslot
    have hheld : slot.1 ∈ r.entry.handles := List.mem_append_left _ (List.mem_map_of_mem hslot)
    apply SocketSet.getTcp_congr
    rw [← hafter _ hheld]
    apply (hc.ledger hi.ledger).2.2
    exact List.mem_append_left _ (List.mem_flatMap.mpr ⟨r.entry, List.mem_of_getElem? hk', hheld⟩)
  have hmarks : Marked w'.net.sockets r.entry.listenPool := by
    intro slot hslot
    rw [hfound slot hslot]
    exact hentry.marked hlt (hports entry (List.mem_of_getElem? hk)) slot hslot
  refine ⟨r.entry, hk', hentry.listenEp, ?_, hmarks⟩
  rw [hentry.inListen_eq, EntryServiced.inListen_kept htcp]
  congr 1
  apply List.countP_congr
  intro slot hslot
  rw [listeningIn, listeningIn, hpolled slot hslot]

lemma refilled_of_mem (hi : Inv w) (hs : Step w (.pollerCycle i) w')
    (hports : ∀ entry ∈ w.net.listeners, entry.listenEp.port ≠ 0) :
    (∀ entry ∈ w.net.listeners, ∃ entry' ∈ w'.net.listeners,
      Refilled (i.effect.apply w.net.sockets) w'.net.sockets entry entry') ∧
    ∀ entry' ∈ w'.net.listeners, ∃ entry ∈ w.net.listeners,
      Refilled (i.effect.apply w.net.sockets) w'.net.sockets entry entry' := by
  constructor
  · intro entry hmem
    obtain ⟨k, hk⟩ := List.getElem?_of_mem hmem
    obtain ⟨entry', hk', hrefilled⟩ := refilled_cycled hi hs hports hk
    exact ⟨entry', List.mem_of_getElem? hk', hrefilled⟩
  · intro entry' hmem
    obtain ⟨k, hk'⟩ := List.getElem?_of_mem hmem
    obtain ⟨dialed, served, results, hc⟩ := cycled_of_step hi hs
    have hlen : w'.net.listeners.length = w.net.listeners.length := by
      simpa using congrArg List.length hc.service.listenEps
    obtain ⟨hlt, -⟩ := List.getElem?_eq_some_iff.mp hk'
    have hk : w.net.listeners[k]? = some w.net.listeners[k] :=
      List.getElem?_eq_getElem (hlen ▸ hlt)
    obtain ⟨entry'', hk'', hrefilled⟩ := refilled_cycled hi hs hports hk
    rw [hk'] at hk''
    cases hk''
    exact ⟨_, List.getElem_mem _, hrefilled⟩

lemma bounded_iff_settles (ht : w.Topped) (hs : Step w a w') :
    PoolsBounded a w' ↔ w.Settles a := by
  constructor
  · rintro hb i rfl entry hmem
    obtain ⟨hforth, -⟩ := refilled_of_mem ht.inv hs fun e he => (ht.entries e he).1
    obtain ⟨entry', hmem', hrefilled⟩ := hforth entry hmem
    exact (hrefilled.bounded_iff (ht.entries entry hmem).2).mp (hb i rfl entry' hmem')
  · rintro hb i rfl entry' hmem'
    obtain ⟨-, hback⟩ := refilled_of_mem ht.inv hs fun e he => (ht.entries e he).1
    obtain ⟨entry, hmem, hrefilled⟩ := hback entry' hmem'
    exact (hrefilled.bounded_iff (ht.entries entry hmem).2).mpr (hb i rfl entry hmem)

lemma topped_step (ht : w.Topped) (hs : Step w a w') (hb : PoolsBounded a w') : w'.Topped := by
  refine ⟨inv_step w a w' ht.inv hs, ?_⟩
  by_cases hcycle : ∃ i, a = .pollerCycle i
  · obtain ⟨i, rfl⟩ := hcycle
    intro entry' hmem'
    obtain ⟨-, hback⟩ := refilled_of_mem ht.inv hs fun e he => (ht.entries e he).1
    obtain ⟨entry, hmem, hrefilled⟩ := hback entry' hmem'
    have hle := hb i rfl entry' hmem'
    rw [← hrefilled.marked.inListen_eq] at hle
    rw [hrefilled.listenEp]
    refine ⟨(ht.entries entry hmem).1, Nat.le_antisymm hle ?_⟩
    rw [hrefilled.inListen]
    exact le_max_left _ _
  · exact entries_moved (moved_of_step ht.inv hs) (fun i ha => hcycle ⟨i, ha⟩) ht.entries

lemma topped_initial (ourAddr : BitVec 128) (ckr : Bool)
    (source : IpAddress → Option IpAddress) : (initial ourAddr ckr source).Topped :=
  ⟨inv_initial ourAddr ckr source, by simp [initial]⟩

/-- After every poll cycle of a run no listener has more than its pool size in LISTEN, exactly when
in none of its cycles more sockets come back to LISTEN than leave it. -/
theorem pools_bounded_iff (ourAddr : BitVec 128) (ckr : Bool)
    (source : IpAddress → Option IpAddress) (actions : List Action) (w : World) :
    Run (fun w a w' => Step w a w' ∧ PoolsBounded a w') (initial ourAddr ckr source) actions w ↔
      Run (fun w a w' => Step w a w' ∧ w.Settles a) (initial ourAddr ckr source) actions w := by
  have htopped := topped_initial ourAddr ckr source
  constructor
  · intro hr
    apply hr.refine_invariant htopped
    rintro v a v' ht ⟨hs, hb⟩
    exact ⟨⟨hs, (bounded_iff_settles ht hs).mp hb⟩, topped_step ht hs hb⟩
  · intro hr
    apply hr.refine_invariant htopped
    rintro v a v' ht ⟨hs, hsettles⟩
    have hb := (bounded_iff_settles ht hs).mpr hsettles
    exact ⟨⟨hs, hb⟩, topped_step ht hs hb⟩

theorem reset_handshake_grows_pool : ¬∀ (w w' : World) (i : CycleInput), Reachable w →
    Step w (.pollerCycle i) w' → ∀ entry ∈ w'.net.listeners,
      entry.listenPool.countP (listeningIn w'.net.sockets) ≤ listenPoolSize := by
  intro hall
  have hr := Reachable.of_runAll 1 false (fun _ => none)
    [.listenTcp 80 [0, 1, 2, 3, 4, 5, 6, 7], .pollerCheck,
      .pollerCycle (cycleAt 0 .synReceived [] 0 [8]), .pollerCheck] rfl
  have hone := hall _ _ (cycleAt 0 .listen [] 0 []) hr rfl _ List.mem_cons_self
  revert hone
  decide

end World

end Yggstack.Netstack
