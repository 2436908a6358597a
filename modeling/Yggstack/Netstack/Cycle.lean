import Yggstack.Netstack.Service

namespace Yggstack.Netstack

open Library

section Connects

variable {source : IpAddress → Option IpAddress} {sockets sockets' : SocketSet}
    {cmd : PendingConnect}

def TcpSocket.connected (t : TcpSocket) (source : IpAddress → Option IpAddress)
    (cmd : PendingConnect) : TcpSocket :=
  match t.connect source cmd.remote cmd.localPort with
  | .ok t => t
  | .error _ => t

def TcpSocket.verdict (t : TcpSocket) (source : IpAddress → Option IpAddress)
    (cmd : PendingConnect) :
    Except SocketError Unit :=
  match t.connect source cmd.remote cmd.localPort with
  | .ok _ => .ok ()
  | .error e => .error e

lemma processConnect_eq {t : TcpSocket} (h : sockets.getTcp cmd.handle = .ok t) :
    processConnect source sockets cmd =
      .ok (sockets.insert cmd.handle (.tcp (t.connected source cmd)), cmd.dial,
        t.verdict source cmd) := by
  have hfound : sockets.find cmd.handle = some (.tcp t) := SocketSet.getTcp_eq_ok.mp h
  rw [processConnect, h, ok_bind, TcpSocket.connected, TcpSocket.verdict]
  cases t.connect source cmd.remote cmd.localPort with
  | ok t' => rfl
  | error e => simp [Store.insert_of_find hfound]

lemma SocketSet.kindAt_insert_tcp {h : ℕ} (t : TcpSocket) (htcp : sockets.IsTcp h) (j : ℕ) :
    SocketSet.kindAt (sockets.insert h (.tcp t)) j = sockets.kindAt j := by
  rw [kindAt, Store.find_insert]
  split
  · next he => rw [he, isTcp_iff.mp htcp]; rfl
  · rfl

structure Connected (source : IpAddress → Option IpAddress) (sockets : SocketSet)
    (cmds : List PendingConnect)
    (sockets' : SocketSet) (results : List (ℕ × Except SocketError Unit)) : Prop where
  kind : ∀ j, sockets'.kindAt j = sockets.kindAt j
  dials : results.map Prod.fst = cmds.map PendingConnect.dial
  other : ∀ j, j ∉ cmds.map PendingConnect.handle → sockets'.find j = sockets.find j
  own : (cmds.map PendingConnect.handle).Nodup → ∀ cmd ∈ cmds, ∃ t, sockets.getTcp cmd.handle =
    .ok t ∧
    sockets'.getTcp cmd.handle = .ok (t.connected source cmd) ∧
      (cmd.dial, t.verdict source cmd) ∈ results

lemma processConnects_spec (source : IpAddress → Option IpAddress) (sockets : SocketSet)
    (cmds : List PendingConnect) (h : ∀ cmd ∈ cmds, sockets.IsTcp cmd.handle) :
    ∃ sockets' results, processConnects source sockets cmds = .ok (sockets', results) ∧
      Connected source sockets cmds sockets' results := by
  induction cmds generalizing sockets with
  | nil => exact ⟨sockets, [], rfl, ⟨fun _ => rfl, rfl, fun _ _ => rfl, by simp⟩⟩
  | cons cmd cmds ih =>
    have htcp : sockets.IsTcp cmd.handle := h cmd (by simp)
    obtain ⟨t, ht⟩ := htcp
    set sockets₁ := sockets.insert cmd.handle (.tcp (t.connected source cmd)) with hsockets₁
    have hkind : ∀ j, SocketSet.kindAt sockets₁ j = sockets.kindAt j :=
      SocketSet.kindAt_insert_tcp _ ⟨t, ht⟩
    have hall : ∀ c ∈ cmds, SocketSet.IsTcp sockets₁ c.handle := by
      intro c hc
      rw [SocketSet.isTcp_iff, hkind, ← SocketSet.isTcp_iff]
      exact h c (by simp [hc])
    obtain ⟨sockets', results, hp, hspec⟩ := ih sockets₁ hall
    refine ⟨sockets', (cmd.dial, t.verdict source cmd) :: results, ?_, ?_, ?_, ?_, ?_⟩
    · rw [processConnects, processConnect_eq ht, ok_bind]
      simp only [← hsockets₁, hp, ok_bind, pure_eq_ok]
    · intro j
      rw [hspec.kind, hkind]
    · rw [List.map_cons, List.map_cons, hspec.dials]
    · intro j hj
      simp only [List.map_cons, List.mem_cons, not_or] at hj
      rw [hspec.other j hj.2, hsockets₁, Store.find_insert_of_ne _ _ hj.1]
    · intro hn c hc
      simp only [List.map_cons, List.nodup_cons] at hn
      rcases List.mem_cons.mp hc with rfl | hc
      · refine ⟨t, ht, ?_, by simp⟩
        rw [SocketSet.getTcp_eq_ok, hspec.other _ hn.1, hsockets₁, Store.find_insert_self]
      · obtain ⟨t', ht', hafter, hmem⟩ := hspec.own hn.2 c hc
        have hne : c.handle ≠ cmd.handle := fun he => hn.1 (he ▸ List.mem_map_of_mem hc)
        exact ⟨t',
          by rwa [hsockets₁, SocketSet.getTcp_insert_of_ne _ hne] at ht', hafter, by simp [hmem]⟩

end Connects

lemma PollEffect.find_apply_tcp {e : PollEffect} {sockets : SocketSet} {j : ℕ} {t : TcpSocket} :
    (e.apply sockets).find j = some (.tcp t) ↔ ∃ t', sockets.find j = some (.tcp t') ∧
      e.tcp j t' = t := by
  rw [PollEffect.apply, Store.find_mapValues]
  rcases sockets.find j with _ | (s | s | s) <;> simp

lemma PollEffect.kindAt_apply (e : PollEffect) (sockets : SocketSet) (j : ℕ) :
    (e.apply sockets).kindAt j = sockets.kindAt j := by
  rw [SocketSet.kindAt, SocketSet.kindAt, PollEffect.apply, Store.find_mapValues]
  rcases sockets.find j with _ | (s | s | s) <;> rfl

lemma reapClosingSockets_spec (now : ℤ) (sockets : SocketSet) (closing : List (ℕ × ℤ))
    (h : ∀ item ∈ closing, sockets.IsTcp item.1) (hn : (closing.map Prod.fst).Nodup) :
    ∃ closing', closing'.Perm (closing.filter fun item => !goneIn now sockets item) ∧
      reapClosingSockets now sockets closing =
        .ok (sockets.eraseAll ((closing.filter (goneIn now sockets)).map Prod.fst), closing') := by
  obtain ⟨order, hp, hs⟩ := sweep_spec (closingStep now) sockets closing
  rw [visit_closing now sockets order (fun item hm => h item (hp.mem_iff.mp hm))
    ((hp.map Prod.fst).nodup_iff.mpr hn)] at hs
  obtain ⟨e, he, -⟩ | ⟨sockets', ys, closing', hv, hreap, hc⟩ := hs
  · exact absurd he (by simp)
  obtain ⟨rfl, rfl⟩ : _ = sockets' ∧ _ = ys := by simpa using hv
  refine ⟨closing', hc.trans (hp.filter _), ?_⟩
  rw [reapClosingSockets, hreap,
    Store.eraseAll_perm _ ((hp.filter (goneIn now sockets)).map Prod.fst)]

def closingHandles (closing : List (ℕ × ℤ)) : List ℕ := closing.map Prod.fst

lemma ListenersServiced.closing_tcp {now : ℤ} {polled served : SocketSet}
    {listeners listeners' : List TcpListenerEntry}
    {closing : List (ℕ × ℤ)} {rest : Multiset (ℕ × Kind)}
    (h : ListenersServiced now polled listeners served listeners')
    (hl : Ledger polled.kindAt
    (tag .tcp (listenerHandles listeners) + (tag .tcp (closingHandles closing) + rest))) :
    (∀ item ∈ closing, served.IsTcp item.1) ∧ (closing.map Prod.fst).Nodup := by
  have hclosing : Ledger served.kindAt (tag .tcp (closingHandles closing)) :=
    (h.ledger hl).1.of_le ((Multiset.le_add_right _ _).trans (Multiset.le_add_left _ _))
  refine ⟨fun item hm => ?_, hclosing.tag_nodup⟩
  apply SocketSet.isTcp_iff.mpr (hclosing.present (item.1, .tcp) _)
  simp [closingHandles, List.mem_map_of_mem hm]

structure Cycled (s : NetstackState) (i : CycleInput) (dialed served : SocketSet)
    (results : List (ℕ × Except SocketError Unit)) (s' : NetstackState) : Prop where
  connects : Connected s.sourceAddress s.sockets s.pendingConnects dialed results
  service : ListenersServiced i.serviceNow (i.effect.apply dialed) s.listeners served s'.listeners
  closing : s'.closing.Perm (s.closing.filter fun item => !goneIn i.reapNow served item)
  sockets : s'.sockets = served.eraseAll
    (closingHandles (s.closing.filter (goneIn i.reapNow served)))
  pending : s'.pendingConnects = []
  wakers : s'.wakers = []
  closed : s'.closed = s.closed
  sourceAddress : s'.sourceAddress = s.sourceAddress

def NetstackState.held (s : NetstackState) : List ℕ :=
  listenerHandles s.listeners ++ closingHandles s.closing

lemma Connected.ledger_polled {s : NetstackState} {dialed : SocketSet}
    {results : List (ℕ × Except SocketError Unit)}
    {rest : Multiset (ℕ × Kind)}
    (h : Connected s.sourceAddress s.sockets s.pendingConnects dialed results)
    (e : PollEffect) (hl : Ledger s.sockets.kindAt (tag .tcp s.held + rest)) :
    Ledger (e.apply dialed).kindAt (tag .tcp (listenerHandles s.listeners) +
      (tag .tcp (closingHandles s.closing) + rest)) := by
  rw [NetstackState.held, tag_append, add_assoc] at hl
  exact hl.congr fun x _ => by rw [PollEffect.kindAt_apply, h.kind]

namespace NetstackState

lemma cycle_spec {s : NetstackState} (i : CycleInput) {rest : Multiset (ℕ × Kind)}
    (hl : Ledger s.sockets.kindAt (tag .tcp s.held + rest))
    (hp : ∀ cmd ∈ s.pendingConnects, s.sockets.IsTcp cmd.handle) :
    s.cycle i = .error .supply ∨ ∃ dialed served results s' woken,
      s.cycle i = .ok (s', results, woken ++ s.wakers) ∧ Cycled s i dialed served results s' := by
  obtain ⟨dialed, results, hconnects, hspec⟩ :=
    processConnects_spec s.sourceAddress s.sockets s.pendingConnects hp
  have hl₁ := hspec.ledger_polled i.effect hl
  rw [cycle, hconnects, ok_bind]
  rcases serviceListeners_spec i.serviceNow (i.effect.apply dialed) i.supply s.listeners hl₁ with
    ⟨he, -⟩ | ⟨served, supply, listeners, woken, hserve, hserved, -⟩
  · left
    simp only [he]
    rfl
  · obtain ⟨htcp, hnodup⟩ := hserved.closing_tcp hl₁
    obtain ⟨closing, hperm, hreap⟩ := reapClosingSockets_spec i.reapNow served s.closing htcp hnodup
    refine Or.inr ⟨dialed, served, results, { s with
      sockets := served.eraseAll (closingHandles (s.closing.filter (goneIn i.reapNow served)))
      pendingConnects := [], listeners, closing, wakers := [] }, woken, ?_,
      hspec, hserved, hperm, rfl, rfl, rfl, rfl, rfl⟩
    simp only [hserve, ok_bind, hreap, pure_eq_ok]
    rfl

end NetstackState

namespace Cycled

variable {s s' : NetstackState} {i : CycleInput} {dialed served : SocketSet}
    {rest : Multiset (ℕ × Kind)}
  {results : List (ℕ × Except SocketError Unit)}

lemma closing_split (h : Cycled s i dialed served results s') : (closingHandles s.closing).Perm
    (closingHandles (s.closing.filter (goneIn i.reapNow served)) ++ closingHandles s'.closing) := by
  have hsplit := (filter_split (goneIn i.reapNow served) s.closing).map Prod.fst
  rw [List.map_append] at hsplit
  exact hsplit.trans ((h.closing.map Prod.fst).symm.append_left _)

lemma ledger (h : Cycled s i dialed served results s')
    (hl : Ledger s.sockets.kindAt (tag .tcp s.held + rest)) :
    Ledger s'.sockets.kindAt (tag .tcp s'.held + rest) ∧
      (∀ x ∈ rest, s'.sockets.find x.1 = (i.effect.apply dialed).find x.1) ∧
      ∀ j ∈ s'.held, s'.sockets.find j = served.find j := by
  have hl₁ := h.connects.ledger_polled i.effect hl
  obtain ⟨hl₂, hsame⟩ := h.service.ledger hl₁
  set gone := closingHandles (s.closing.filter (goneIn i.reapNow served))
  have hl₃ : Ledger served.kindAt (tag .tcp gone + (tag .tcp s'.held + rest)) := by
    rw [tag_perm _ h.closing_split, tag_append] at hl₂
    rw [NetstackState.held, tag_append]
    convert hl₂ using 1
    abel
  have hfind : ∀ x ∈ tag .tcp s'.held + rest, s'.sockets.find x.1 = served.find x.1 := by
    intro x hx
    rw [h.sockets, Store.find_eraseAll, if_neg]
    intro hm
    exact hl₃.ne_of_mem_add (x := (x.1, .tcp)) (by simpa using hm) hx rfl
  refine ⟨(hl₃.of_le (Multiset.le_add_left _ _)).congr ?_, ?_, ?_⟩
  · intro x hx
    rw [SocketSet.kindAt, SocketSet.kindAt, hfind x hx]
  · intro x hx
    rw [hfind x (Multiset.mem_add.mpr (Or.inr hx)), hsame x (Multiset.mem_add.mpr (Or.inr hx))]
  · intro j hj
    exact hfind (j, .tcp) (Multiset.mem_add.mpr (Or.inl (by simpa using hj)))

end Cycled

end Yggstack.Netstack
