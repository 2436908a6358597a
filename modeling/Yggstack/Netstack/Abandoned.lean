import Yggstack.Netstack.Ports

namespace Yggstack.Netstack

open Library

def SocketSet.Listens (s : SocketSet) (ep : IpListenEndpoint) : Prop :=
  ∃ j t, s.find j = some (.tcp t) ∧ t.listenEndpoint = some ep

-- What a socket listens for after a poll, it listened for before. A socket that the poll resets
-- (its TIME-WAIT ran out) listens for nothing.
def PollEffect.KeepsEndpoints (e : PollEffect) : Prop :=
  ∀ j t ep, (e.tcp j t).listenEndpoint = some ep → t.listenEndpoint = some ep

namespace SocketSet

variable {s s' : SocketSet} {ep : IpListenEndpoint} {j : ℕ} {sock : Socket}

lemma Listens.of_insert (h : SocketSet.Listens (s.insert j sock) ep) :
    s.Listens ep ∨ ∃ t, sock = .tcp t ∧ t.listenEndpoint = some ep := by
  obtain ⟨k, t, hf, ht⟩ := h
  rw [Store.find_insert] at hf
  split at hf
  · exact Or.inr ⟨t, Option.some.inj hf, ht⟩
  · exact Or.inl ⟨k, t, hf, ht⟩

lemma Listens.of_insert_used {t t' : TcpSocket} (h : SocketSet.Listens (s.insert j (.tcp t')) ep)
    (hf : s.find j = some (.tcp t)) (hu : t.Used t') : s.Listens ep := by
  rcases h.of_insert with h | ⟨_, ⟨rfl⟩, ht⟩
  · exact h
  · exact ⟨j, t, hf, hu.listenEndpoint ▸ ht⟩

lemma Listens.of_eraseAll {js : List ℕ} (h : SocketSet.Listens (s.eraseAll js) ep) :
    s.Listens ep := by
  obtain ⟨k, t, hf, ht⟩ := h
  rw [Store.find_eraseAll] at hf
  split at hf
  · cases hf
  · exact ⟨k, t, hf, ht⟩

lemma Listens.of_apply {e : PollEffect} (he : e.KeepsEndpoints) (h : (e.apply s).Listens ep) :
    s.Listens ep := by
  obtain ⟨k, t, hf, ht⟩ := h
  obtain ⟨t₀, hf₀, rfl⟩ := PollEffect.find_apply_tcp.mp hf
  exact ⟨k, t₀, hf₀, he k t₀ ep ht⟩

end SocketSet

lemma listenSocket_listens {ep ep' : IpListenEndpoint}
    (h : (listenSocket ep).listenEndpoint = some ep') : ep' = ep := by
  by_cases hp : ep.port = 0
  · simp [listenSocket, TcpSocket.listen, hp, TcpSocket.new] at h
  · have he : some ep = some ep' := by
      simpa [listenSocket, TcpSocket.listen, hp, TcpSocket.isOpen, TcpSocket.new] using h
    exact (Option.some.inj he).symm

lemma connected_listens {t : TcpSocket} {source : IpAddress → Option IpAddress}
    {cmd : PendingConnect} {ep : IpListenEndpoint}
    (h : (t.connected source cmd).listenEndpoint = some ep) : t.listenEndpoint = some ep := by
  rw [TcpSocket.connected] at h
  cases hr : t.connect source cmd.remote cmd.localPort with
  | ok t₁ =>
    rw [hr] at h
    rw [TcpSocket.connect] at hr
    repeat' split at hr
    all_goals cases hr
    cases h
  | error e =>
    rw [hr] at h
    exact h

lemma ListenersServiced.listens {now : ℤ} {s s' : SocketSet}
    {entries entries' : List TcpListenerEntry} {ep : IpListenEndpoint}
    (h : ListenersServiced now s entries s' entries') (hl : s'.Listens ep) :
    s.Listens ep ∨ ep ∈ entries.map TcpListenerEntry.listenEp := by
  obtain ⟨j, t, hf, ht⟩ := hl
  rcases h.origin hf with hs | ⟨entry, hm, he⟩
  · exact Or.inl ⟨j, t, hs, ht⟩
  · cases he
    rw [listenSocket_listens ht]
    exact Or.inr (List.mem_map_of_mem hm)

namespace World

variable {w w' : World} {a : Action}

def KeepsEndpoints (a : Action) : Prop := ∀ i, a = .pollerCycle i → i.effect.KeepsEndpoints

lemma listens_dialed (hi : Inv w) {dialed : SocketSet}
    {results : List (ℕ × Except SocketError Unit)}
    (hc : Connected w.net.sourceAddress w.net.sockets w.net.pendingConnects dialed results)
    {ep : IpListenEndpoint} (h : dialed.Listens ep) : w.net.sockets.Listens ep := by
  obtain ⟨j, t', hf, ht⟩ := h
  by_cases hm : j ∈ w.net.pendingConnects.map PendingConnect.handle
  · obtain ⟨cmd, hcmd, rfl⟩ := List.mem_map.mp hm
    obtain ⟨t, hold, ht', -⟩ := hc.own hi.pending_handles_nodup cmd hcmd
    rw [SocketSet.getTcp_eq_ok, hf] at ht'
    obtain rfl : t' = t.connected w.net.sourceAddress cmd := by simpa using ht'
    exact ⟨cmd.handle, t, SocketSet.getTcp_eq_ok.mp hold, connected_listens ht⟩
  · rw [hc.other j hm] at hf
    exact ⟨j, t', hf, ht⟩

lemma listens_moved (hi : Inv w) (hm : Moved w a w') (hk : KeepsEndpoints a)
    {ep : IpListenEndpoint} (h : w'.net.sockets.Listens ep) :
    w.net.sockets.Listens ep ∨ ep ∈ w'.net.listeners.map TcpListenerEntry.listenEp := by
  have hnew : ∀ {j sock}, SocketSet.Listens (w.net.sockets.insert j sock) ep →
      (∀ t, sock = .tcp t → t.listenEndpoint = none) → w.net.sockets.Listens ep := by
    intro j sock h hs
    rcases h.of_insert with h | ⟨t, ht, he⟩
    · exact h
    · rw [hs t ht] at he
      cases he
  cases hm with
  | dialStart hf hfresh => exact Or.inl (hnew h fun t ht => by cases ht; rfl)
  | dialDrop hd hf => exact Or.inl (h.of_insert_used hf (close_used _))
  | dialFailed hd hs hf he => exact Or.inl (h.of_insert_used hf (close_used _))
  | streamUsed ho hm hf hu => exact Or.inl (h.of_insert_used hf hu)
  | udpUsed ho hm hf hu => exact Or.inl (hnew h fun t ht => by cases ht)
  | pingUsed ho hm hf => exact Or.inl (hnew h fun t ht => by cases ht)
  | listenFailed hfresh => exact Or.inl (hnew h fun t ht => by cases ht; rfl)
  | listened hp hn hfresh =>
    obtain ⟨j, t, hf, ht⟩ := h
    rw [Store.find_insertAll] at hf
    split at hf
    · cases hf
      rw [listenSocket_listens ht]
      right
      simp [newEntry]
    · exact Or.inl ⟨j, t, hf, ht⟩
  | bindFailed hfresh => exact Or.inl (hnew h fun t ht => by cases ht)
  | bound hb hp hfresh => exact Or.inl (hnew h fun t ht => by cases ht)
  | pingOpened hfresh => exact Or.inl (hnew h fun t ht => by cases ht)
  | streamDropped hm hf => exact Or.inl (h.of_insert_used hf (close_used _))
  | udpDropped hm => exact Or.inl (@SocketSet.Listens.of_eraseAll _ _ [_] h)
  | pingDropped hm => exact Or.inl (@SocketSet.Listens.of_eraseAll _ _ [_] h)
  | pollerCycled hc =>
    rw [hc.sockets] at h
    rcases hc.service.listens h.of_eraseAll with hl | hl
    · exact Or.inl (listens_dialed hi hc.connects (hl.of_apply (hk _ rfl)))
    · right
      rwa [hc.service.listenEps]
  | shutdown =>
    obtain ⟨j, t, hf, ht⟩ := h
    rw [World.shutdown, NetstackState.shutdown, Store.find_mapValues, Option.map_eq_some_iff] at hf
    obtain ⟨sock, hfind, hs⟩ := hf
    cases sock with
    | tcp t₀ =>
      cases hs
      exact Or.inl ⟨j, t₀, hfind, ht⟩
    | udp u => cases hs
    | icmp i => cases hs
  | _ => exact Or.inl h

structure ListenersAlive (w : World) : Prop where
  entries : (w.net.listeners.map TcpListenerEntry.port).Perm w.tcpListeners
  sockets : ∀ j t ep, w.net.sockets.find j = some (.tcp t) → t.state = .listen →
    t.listenEndpoint = some ep → ep.port ∈ w.tcpListeners

structure Entered (dropped : List UInt16) (w : World) : Prop where
  inv : Inv w
  entries : (w.net.listeners.map TcpListenerEntry.port).Perm (w.tcpListeners ++ dropped)
  sockets : ∀ ep, w.net.sockets.Listens ep → ep ∈ w.net.listeners.map TcpListenerEntry.listenEp

lemma mem_of_dropListener {port : UInt16} (hs : Step w (.dropListener port) w') :
    port ∈ w.tcpListeners := by
  by_contra hn
  simp only [Step, exec, require, if_neg hn] at hs
  cases hs

lemma entered_step {dropped : List UInt16} (h : Entered dropped w) (hs : Step w a w')
    (ha : a ≠ .shutdown) (hk : KeepsEndpoints a) :
    Entered (dropped ++ a.dropped?.toList) w' := by
  have hm := moved_of_step h.inv hs
  have hlistens : ∀ ep, w'.net.sockets.Listens ep → w.net.sockets.Listens ep ∨
      ep ∈ w'.net.listeners.map TcpListenerEntry.listenEp := fun _ => listens_moved h.inv hm hk
  have hold := h.entries
  refine ⟨inv_step _ _ _ h.inv hs, ?_, ?_⟩
  · rw [ports_eq] at hold ⊢
    rcases listeners_moved hm ha with ⟨hd, ht, he⟩ | ⟨port, supply, rfl, ht, he⟩ | ⟨port, rfl, ht, he⟩
    · rw [hd, ht, he]
      simpa using hold
    · rw [ht, he, List.map_append]
      simp only [Action.dropped?, Option.toList_none, List.append_nil, List.append_assoc]
      refine (hold.append_right _).trans ?_
      rw [List.append_assoc]
      exact List.Perm.append_left _ List.perm_append_comm
    · rw [ht, he]
      have hmem := mem_of_dropListener hs
      simp only [Action.dropped?, Option.toList_some]
      refine hold.trans (((List.perm_cons_erase hmem).append_right dropped).trans ?_)
      rw [List.cons_append, ← List.append_assoc]
      exact (List.perm_append_singleton port _).symm
  · intro ep hl
    rcases hlistens ep hl with hl | hl
    · have hin := h.sockets ep hl
      rcases listeners_moved hm ha with ⟨-, -, he⟩ | ⟨port, supply, -, -, he⟩ | ⟨port, -, -, he⟩
      · rwa [he]
      · rw [he]
        exact List.mem_append_left _ hin
      · rwa [he]
    · exact hl

/-- Before shutdown the listener list matches the `TcpListener`s that exist exactly as long as none
has been dropped. -/
theorem listeners_alive_iff {ourAddr : BitVec 128} {ckr : Bool}
    {source : IpAddress → Option IpAddress} {actions : List Action}
    (hr : Run (fun w a w' => Step w a w' ∧ a ≠ .shutdown ∧ KeepsEndpoints a)
      (initial ourAddr ckr source) actions w) :
    ListenersAlive w ↔ ∀ port, .dropListener port ∉ actions := by
  have he : Entered (actions.filterMap Action.dropped?) w := by
    apply hr.history (H := fun as w => Entered (as.filterMap Action.dropped?) w)
    · refine ⟨inv_initial ourAddr ckr source, List.Perm.refl _, ?_⟩
      rintro ep ⟨j, t, hf, -⟩
      cases hf
    · rintro as w a w' h ⟨hs, ha, hk⟩
      rw [List.filterMap_append]
      have hstep := entered_step h hs ha hk
      cases hd : a.dropped? <;> simpa [hd] using hstep
  constructor
  · intro h port hm
    have hlen := (h.entries.symm.trans he.entries).length_eq
    rw [List.length_append] at hlen
    have hnil := List.eq_nil_of_length_eq_zero
      (show (actions.filterMap Action.dropped?).length = 0 by omega)
    have hport : port ∈ actions.filterMap Action.dropped? :=
      List.mem_filterMap.mpr ⟨_, hm, rfl⟩
    rw [hnil] at hport
    cases hport
  · intro hnone
    have hnil : actions.filterMap Action.dropped? = [] := by
      rw [List.filterMap_eq_nil_iff]
      intro a ha
      cases a <;> first | rfl | exact absurd ha (hnone _)
    have hentries := he.entries
    rw [hnil, List.append_nil] at hentries
    refine ⟨hentries, ?_⟩
    intro j t ep hf _ ht
    obtain ⟨entry, hm, rfl⟩ := List.mem_map.mp (he.sockets ep ⟨j, t, hf, ht⟩)
    exact hentries.subset (List.mem_map_of_mem hm)

def servedRun : List Action :=
  [.listenTcp 80 [0, 1, 2, 3, 4, 5, 6, 7], .pollerCheck,
    .pollerCycle (cycleAt 0 .established [] 0 [8]), .poll 0 (.accept 80), .pollerCheck,
    .pollerCycle (cycleAt 1 .synReceived [] 1 [9])]

lemma cycleAt_keepsEndpoints (h : ℕ) (state : TcpState) (rx : List UInt8) (now : ℤ)
    (supply : List ℕ) : (cycleAt h state rx now supply).effect.KeepsEndpoints := by
  intro j t ep ht
  simp only [cycleAt, arrives] at ht
  split at ht
  · exact ht
  · exact ht

theorem listening_port_alive :
    ∃ w, Run (fun w a w' => Step w a w' ∧ a ≠ .shutdown ∧ KeepsEndpoints a)
        (initial 1 false fun _ => none) servedRun w ∧ ListenersAlive w := by
  obtain ⟨w, hrun⟩ : ∃ w, Run Step (initial 1 false fun _ => none) servedRun w :=
    ⟨_, .of_runAll rfl⟩
  have hguard : ∀ a ∈ servedRun, World → a ≠ .shutdown ∧ KeepsEndpoints a := by
    intro a ha _
    simp only [servedRun, List.mem_cons, List.not_mem_nil, or_false] at ha
    rcases ha with rfl | rfl | rfl | rfl | rfl | rfl <;> refine ⟨by simp, fun i hi => ?_⟩ <;> cases hi
    · exact cycleAt_keepsEndpoints 0 .established [] 0 [8]
    · exact cycleAt_keepsEndpoints 1 .synReceived [] 1 [9]
  have hr := hrun.guard (p := fun _ a => a ≠ .shutdown ∧ KeepsEndpoints a) hguard
  exact ⟨w, hr, (listeners_alive_iff hr).mpr (by simp [servedRun])⟩

theorem dropped_listener_stays :
    ¬∀ w, Reachable w → w.net.closed = false → ListenersAlive w := by
  intro hall
  have hr := Reachable.of_runAll 1 false (fun _ => none)
    [.listenTcp 80 [0, 1, 2, 3, 4, 5, 6, 7], .dropListener 80] rfl
  have hlen := (hall _ hr rfl).entries.length_eq
  cases hlen

end World

end Yggstack.Netstack
