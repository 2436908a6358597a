import Yggstack.Netstack.Promotion

namespace Yggstack.Netstack

open Library

def TcpSocket.Dialed (t : TcpSocket) : Prop := t.listenEndpoint = none ∧ t.state ≠ .closed

/-- What smoltcp guarantees of a poll: a closed socket stays closed, a listening one does not become
a dialed one, and addresses of open connections and of UDP sockets do not change. -/
structure PollEffect.Lawful (e : PollEffect) : Prop where
  tcp : ∀ j t, (e.tcp j t).Dialed → t.Dialed ∧ (e.tcp j t).tuple = t.tuple
  udp : ∀ j u, (e.udp j u).endpoint = u.endpoint

structure PortsUnique (s : SocketSet) : Prop where
  tcp : ∀ j k t t' x, s.find j = some (.tcp t) → s.find k = some (.tcp t') → t.Dialed → t'.Dialed →
    t.tuple = some x → t'.tuple = some x → j = k
  udp : ∀ j k u u', s.find j = some (.udp u) → s.find k = some (.udp u') → u.endpoint.port ≠ 0 →
    u.endpoint.port = u'.endpoint.port → j = k

structure Tame (s s' : SocketSet) : Prop where
  tcp : ∀ j t', s'.find j = some (.tcp t') → t'.Dialed → ∃ t, s.find j = some (.tcp t) ∧ t.Dialed ∧
    t.tuple = t'.tuple
  udp : ∀ j u', s'.find j = some (.udp u') → u'.endpoint.port ≠ 0 →
    ∃ u, s.find j = some (.udp u) ∧ u.endpoint = u'.endpoint

namespace Tame

variable {s s' s'' : SocketSet} {j : ℕ}

lemma unique (h : Tame s s') (hu : PortsUnique s) : PortsUnique s' := by
  constructor
  · intro j k t t' x hj hk hd hd' hx hx'
    obtain ⟨t₀, hj₀, hd₀, he⟩ := h.tcp j t hj hd
    obtain ⟨t₁, hk₁, hd₁, he'⟩ := h.tcp k t' hk hd'
    exact hu.tcp j k t₀ t₁ x hj₀ hk₁ hd₀ hd₁ (he.trans hx) (he'.trans hx')
  · intro j k u u' hj hk hp he
    obtain ⟨u₀, hj₀, he₀⟩ := h.udp j u hj hp
    obtain ⟨u₁, hk₁, he₁⟩ := h.udp k u' hk (he ▸ hp)
    exact hu.udp j k u₀ u₁ hj₀ hk₁ (by rwa [he₀]) (by rw [he₀, he₁, he])

lemma refl (s : SocketSet) : Tame s s :=
  ⟨fun _ t hf hd => ⟨t, hf, hd, rfl⟩, fun _ u hf _ => ⟨u, hf, rfl⟩⟩

lemma trans (h : Tame s s') (h' : Tame s' s'') : Tame s s'' := by
  constructor
  · intro j t hf hd
    obtain ⟨t', hf', hd', he'⟩ := h'.tcp j t hf hd
    obtain ⟨t'', hf'', hd'', he''⟩ := h.tcp j t' hf' hd'
    exact ⟨t'', hf'', hd'', he''.trans he'⟩
  · intro j u hf hp
    obtain ⟨u', hf', he'⟩ := h'.udp j u hf hp
    obtain ⟨u'', hf'', he''⟩ := h.udp j u' hf' (by rwa [he'])
    exact ⟨u'', hf'', he''.trans he'⟩

lemma of_origin (h : ∀ j sock, s'.find j = some sock → s.find j = some sock ∨
    (∀ t, sock = .tcp t → ¬t.Dialed) ∧ ∀ u, sock = .udp u → u.endpoint.port = 0) : Tame s s' := by
  constructor
  · intro j t hf hd
    rcases h j _ hf with hs | ⟨hn, -⟩
    · exact ⟨t, hs, hd, rfl⟩
    · exact absurd hd (hn t rfl)
  · intro j u hf hp
    rcases h j _ hf with hs | ⟨-, hn⟩
    · exact ⟨u, hs, rfl⟩
    · exact absurd (hn u rfl) hp

lemma insert {sock : Socket} (ht : ∀ t, sock = .tcp t → t.Dialed → ∃ t₀, s.find j = some (.tcp t₀) ∧
    t₀.Dialed ∧
    t₀.tuple = t.tuple) (hu : ∀ u, sock = .udp u → u.endpoint.port ≠ 0 →
    ∃ u₀, s.find j = some (.udp u₀) ∧
    u₀.endpoint = u.endpoint) : Tame s (s.insert j sock) := by
  constructor
  · intro k t hf hd
    rw [Store.find_insert] at hf
    split at hf
    · next he =>
      rw [he]
      exact ht t (Option.some.inj hf) hd
    · exact ⟨t, hf, hd, rfl⟩
  · intro k u hf hp
    rw [Store.find_insert] at hf
    split at hf
    · next he =>
      rw [he]
      exact hu u (Option.some.inj hf) hp
    · exact ⟨u, hf, rfl⟩

lemma eraseAll (s : SocketSet) (js : List ℕ) : Tame s (s.eraseAll js) := by
  apply of_origin
  intro j sock hf
  rw [Store.find_eraseAll] at hf
  split at hf
  · cases hf
  · exact Or.inl hf

lemma erase (s : SocketSet) (j : ℕ) : Tame s (s.erase j) := eraseAll s [j]

lemma apply {e : PollEffect} (he : e.Lawful) (s : SocketSet) : Tame s (e.apply s) := by
  constructor
  · intro j t hf hd
    obtain ⟨t₀, hf₀, rfl⟩ := PollEffect.find_apply_tcp.mp hf
    obtain ⟨hd₀, ht⟩ := he.tcp j t₀ hd
    exact ⟨t₀, hf₀, hd₀, ht.symm⟩
  · intro j u hf hp
    rw [PollEffect.apply, Store.find_mapValues, Option.map_eq_some_iff] at hf
    obtain ⟨sock, hs, hu⟩ := hf
    cases sock with
    | udp u₀ =>
      cases hu
      exact ⟨u₀, hs, (he.udp j u₀).symm⟩
    | tcp t => cases hu
    | icmp i => cases hu

end Tame

lemma listenSocket_not_dialed (ep : IpListenEndpoint) : ¬(listenSocket ep).Dialed := by
  by_cases hp : ep.port = 0
  · simp [listenSocket, TcpSocket.listen, hp, TcpSocket.Dialed, TcpSocket.new]
  · simp [listenSocket, TcpSocket.listen, hp, TcpSocket.isOpen, TcpSocket.new, TcpSocket.Dialed]

lemma new_not_dialed : ¬TcpSocket.new.Dialed := fun h => h.2 rfl

lemma ListenersServiced.tame {now : ℤ} {s s' : SocketSet} {entries entries' : List TcpListenerEntry}
    (h : ListenersServiced now s entries s' entries') : Tame s s' := by
  apply Tame.of_origin
  intro j sock hf
  rcases h.origin hf with hs | ⟨entry, -, rfl⟩
  · exact Or.inl hs
  · exact Or.inr ⟨fun t ht => by cases ht; exact listenSocket_not_dialed _, fun u hu => by cases hu⟩

namespace World

variable {w w' : World} {a : Action}

def Accepts (w : World) (cmd : PendingConnect) : Prop :=
  ∃ t t', w.net.sockets.find cmd.handle = some (.tcp t) ∧
    t.connect w.net.sourceAddress cmd.remote cmd.localPort = .ok t'

structure FreshPorts (w : World) (a : Action) : Prop where
  dialed : ∀ i, a = .pollerCycle i → ∀ cmd ∈ w.net.pendingConnects, w.Accepts cmd →
    ∀ j t, w.net.sockets.find j = some (.tcp t) → t.Dialed →
      t.tuple ≠ some (cmd.localPort, cmd.remote)
  queued : ∀ i, a = .pollerCycle i → w.net.pendingConnects.Pairwise fun cmd cmd' => w.Accepts cmd →
    w.Accepts cmd' →
    (cmd.localPort, cmd.remote) ≠ (cmd'.localPort, cmd'.remote)
  bound : ∀ ep, w.bindsAt a = some ep → ep.port ≠ 0 →
    ∀ j u, w.net.sockets.find j = some (.udp u) → u.endpoint.port ≠ ep.port

lemma Inv.pending_handles_nodup (hi : Inv w) :
    (w.net.pendingConnects.map PendingConnect.handle).Nodup := by
  apply List.Nodup.map_on _ (List.Nodup.of_map _ hi.nodup)
  intro cmd hc cmd' hc' he
  have hp : w.Holds cmd.handle (.dial cmd.dial) := Or.inr ⟨cmd, hc, rfl, rfl⟩
  have hq : w.Holds cmd.handle (.dial cmd'.dial) := Or.inr ⟨cmd', hc', rfl, he.symm⟩
  have hdial : cmd.dial = cmd'.dial := by
    injection hi.holder_unique hp hq
  exact List.inj_on_of_nodup_map hi.nodup hc hc' hdial

lemma connect_ok {t t' : TcpSocket} {source : IpAddress → Option IpAddress} {remote : IpEndpoint}
    {port : UInt16}
    (h : t.connect source remote port = .ok t') : t'.tuple = some (port, remote) := by
  rw [TcpSocket.connect] at h
  repeat' split at h
  all_goals cases h
  rfl

lemma dialed_origin (hi : Inv w) {dialed : SocketSet} {results : List (ℕ × Except SocketError Unit)}
    (hc : Connected w.net.sourceAddress w.net.sockets w.net.pendingConnects dialed results) {j : ℕ}
    {t' : TcpSocket}
    (hf : dialed.find j = some (.tcp t')) (hd : t'.Dialed) :
    (∃ t, w.net.sockets.find j = some (.tcp t) ∧ t.Dialed ∧ t.tuple = t'.tuple) ∨
      ∃ cmd ∈ w.net.pendingConnects, w.Accepts cmd ∧ cmd.handle = j ∧
        t'.tuple = some (cmd.localPort, cmd.remote) := by
  by_cases hm : j ∈ w.net.pendingConnects.map PendingConnect.handle
  · obtain ⟨cmd, hcmd, rfl⟩ := List.mem_map.mp hm
    obtain ⟨t, ht, ht', -⟩ := hc.own hi.pending_handles_nodup cmd hcmd
    have hold : w.net.sockets.find cmd.handle = some (.tcp t) := SocketSet.getTcp_eq_ok.mp ht
    rw [SocketSet.getTcp_eq_ok, hf] at ht'
    obtain rfl : t' = t.connected w.net.sourceAddress cmd := by simpa using ht'
    rw [TcpSocket.connected] at hd ⊢
    cases hr : t.connect w.net.sourceAddress cmd.remote cmd.localPort with
    | ok t₁ => exact Or.inr ⟨cmd, hcmd, ⟨t, t₁, hold, hr⟩, rfl, connect_ok hr⟩
    | error e =>
      rw [hr] at hd
      exact Or.inl ⟨t, hold, hd, rfl⟩
  · rw [hc.other j hm] at hf
    exact Or.inl ⟨t', hf, hd, rfl⟩

lemma unique_dialed (hi : Inv w) (hu : PortsUnique w.net.sockets) {i : CycleInput}
    (hf : w.FreshPorts (.pollerCycle i))
    {dialed : SocketSet} {results : List (ℕ × Except SocketError Unit)}
    (hc : Connected w.net.sourceAddress w.net.sockets w.net.pendingConnects dialed results) :
    PortsUnique dialed := by
  have hudp : ∀ j u, dialed.find j = some (.udp u) → w.net.sockets.find j = some (.udp u) := by
    intro j u hj
    rw [hc.other j] at hj
    · exact hj
    · intro hm
      obtain ⟨cmd, hcmd, rfl⟩ := List.mem_map.mp hm
      obtain ⟨t, -, ht', -⟩ := hc.own hi.pending_handles_nodup cmd hcmd
      rw [SocketSet.getTcp_eq_ok, hj] at ht'
      cases ht'
  constructor
  · intro j k t t' x hj hk hd hd' hx hx'
    rcases dialed_origin hi hc hj hd with ⟨t₀, hj₀, hd₀, he⟩ | ⟨cmd, hcmd, ha, rfl, he⟩ <;>
      rcases dialed_origin hi hc hk hd' with ⟨t₁, hk₁, hd₁, he'⟩ | ⟨cmd', hcmd', ha', rfl, he'⟩
    · exact hu.tcp j k t₀ t₁ x hj₀ hk₁ hd₀ hd₁ (he.trans hx) (he'.trans hx')
    · refine absurd ?_ (hf.dialed i rfl cmd' hcmd' ha' j t₀ hj₀ hd₀)
      rw [he, hx, ← hx', he']
    · refine absurd ?_ (hf.dialed i rfl cmd hcmd ha k t₁ hk₁ hd₁)
      rw [he', hx', ← hx, he]
    · have hsame : (cmd.localPort, cmd.remote) = (cmd'.localPort, cmd'.remote) :=
        Option.some.inj (he.symm.trans (hx.trans (hx'.symm.trans he')))
      have hsymm : Std.Symm fun cmd cmd' => w.Accepts cmd → w.Accepts cmd' →
          (cmd.localPort, cmd.remote) ≠ (cmd'.localPort, cmd'.remote) :=
            ⟨fun _ _ h ha ha' he => h ha' ha he.symm⟩
      by_contra hne
      exact (hf.queued i rfl).forall hcmd hcmd' (fun he => hne (by rw [he])) ha ha' hsame
  · intro j k u u' hj hk
    exact hu.udp j k u u' (hudp j u hj) (hudp k u' hk)

lemma tame_new (j : ℕ) (sock : Socket) (hs : sock = .tcp .new ∨ sock = .udp .new ∨
    ∃ i, sock = .icmp i) :
    Tame w.net.sockets (w.net.sockets.insert j sock) := by
  apply Tame.insert
  · rintro t rfl hd
    rcases hs with he | he | ⟨i, he⟩ <;> cases he
    exact absurd hd new_not_dialed
  · rintro u rfl hp
    rcases hs with he | he | ⟨i, he⟩ <;> cases he
    exact absurd rfl hp

lemma tame_used {j : ℕ} {t t' : TcpSocket} (hf : w.net.sockets.find j = some (.tcp t))
    (hu : t.Used t') :
    Tame w.net.sockets (w.net.sockets.insert j (.tcp t')) := by
  apply Tame.insert
  · rintro _ ⟨rfl⟩ ⟨hl, hst⟩
    refine ⟨t, hf, ⟨hu.listenEndpoint ▸ hl, ?_⟩, hu.tuple.symm⟩
    intro he
    rcases hu.state with h | h <;> rw [h, he] at hst <;> exact hst rfl
  · rintro u he
    cases he

lemma close_used (t : TcpSocket) : t.Used t.close := ⟨rfl, rfl, Or.inr rfl⟩

lemma tame_moved (hm : Moved w a w') (hc : ∀ i, a ≠ .pollerCycle i) (hb : w.bindsAt a = none) :
    Tame w.net.sockets w'.net.sockets := by
  cases hm with
  | dialStart hf hfresh => exact tame_new _ _ (Or.inl rfl)
  | dialDrop hd hf => exact tame_used hf (close_used _)
  | dialFailed hd hs hf he => exact tame_used hf (close_used _)
  | streamUsed ho hm hf hu => exact tame_used hf hu
  | @udpUsed n h op u u' wakers ho hm hf hu =>
    apply Tame.insert
    · rintro t he
      cases he
    · rintro _ ⟨rfl⟩ hp
      exact ⟨u, hf, hu.symm⟩
  | pingUsed ho hm hf => exact tame_new _ _ (Or.inr (Or.inr ⟨_, rfl⟩))
  | listenFailed hfresh => exact tame_new _ _ (Or.inl rfl)
  | listened hp hn hfresh =>
    apply Tame.of_origin
    intro j sock hf
    rw [Store.find_insertAll] at hf
    split at hf
    · cases hf
      exact Or.inr
        ⟨fun t ht => by cases ht; exact listenSocket_not_dialed _, fun u hu => by cases hu⟩
    · exact Or.inl hf
  | bindFailed hfresh => exact tame_new _ _ (Or.inr (Or.inl rfl))
  | bound hb' hp hfresh =>
    rw [hb] at hb'
    cases hb'
  | pingOpened hfresh => exact tame_new _ _ (Or.inr (Or.inr ⟨_, rfl⟩))
  | streamDropped hm hf => exact tame_used hf (close_used _)
  | udpDropped hm => exact Tame.erase _ _
  | pingDropped hm => exact Tame.erase _ _
  | pollerCycled hc' => exact absurd rfl (hc _)
  | shutdown =>
    constructor
    · intro j t hf hd
      rw [World.shutdown, NetstackState.shutdown, Store.find_mapValues,
        Option.map_eq_some_iff] at hf
      obtain ⟨sock, -, hs⟩ := hf
      cases sock with
      | tcp t₀ => cases hs; exact absurd rfl hd.2
      | udp u => cases hs
      | icmp i => cases hs
    · intro j u hf hp
      rw [World.shutdown, NetstackState.shutdown, Store.find_mapValues,
        Option.map_eq_some_iff] at hf
      obtain ⟨sock, hfind, hs⟩ := hf
      cases sock with
      | tcp t₀ => cases hs
      | udp u₀ => cases hs; exact ⟨u, hfind, rfl⟩
      | icmp i => cases hs
  | _ => exact Tame.refl _

lemma unique_bound (hu : PortsUnique w.net.sockets) {h : ℕ} {ep : IpListenEndpoint}
    (hfresh : ∀ j u, w.net.sockets.find j = some (.udp u) → u.endpoint.port ≠ ep.port) :
    PortsUnique (w.net.sockets.insert h (.udp { UdpSocket.new with endpoint := ep })) := by
  constructor
  · intro j k t t' x hj hk
    rw [Store.find_insert] at hj hk
    split at hj
    · cases hj
    · split at hk
      · cases hk
      · exact hu.tcp j k t t' x hj hk
  · intro j k u u' hj hk hp he
    rw [Store.find_insert] at hj hk
    split at hj <;> split at hk
    · next hjh hkh => rw [hjh, hkh]
    · cases hj
      exact absurd he.symm (hfresh k u' hk)
    · cases hk
      exact absurd he (hfresh j u hj)
    · exact hu.udp j k u u' hj hk hp he

def LawfulPoll (a : Action) : Prop := ∀ i, a = .pollerCycle i → i.effect.Lawful

lemma unique_moved (hi : Inv w) (hu : PortsUnique w.net.sockets) (hm : Moved w a w')
    (hf : w.FreshPorts a)
    (hl : LawfulPoll a) : PortsUnique w'.net.sockets := by
  by_cases hc : ∃ i, a = .pollerCycle i
  · obtain ⟨i, rfl⟩ := hc
    cases hm with
    | @pollerCycled _ dialed served results net woken hc =>
      refine (((Tame.apply (hl i rfl) dialed).trans hc.service.tame).trans ?_).unique
        (unique_dialed hi hu hf hc.connects)
      rw [hc.sockets]
      exact Tame.eraseAll _ _
    | bound hb => cases hb
  · rcases hb : w.bindsAt a with _ | ep
    · exact (tame_moved hm (fun i he => hc ⟨i, he⟩) hb).unique hu
    · cases hm with
      | bound hb' hp hfresh =>
        have hp' := hp
        rw [hb] at hb'
        cases hb'
        exact unique_bound hu (hf.bound ep hb hp)
      | bindFailed hfresh => exact (tame_new _ _ (Or.inr (Or.inl rfl))).unique hu
      | _ => cases hb

/-- In a run that puts only unused ports to use, no two dialed connections agree on both endpoints
while they are open, and no two bound UDP sockets agree on the port. -/
theorem ports_unique_of_fresh {ourAddr : BitVec 128} {ckr : Bool}
    {source : IpAddress → Option IpAddress}
    {actions : List Action}
    (hr : Run (fun w a w' => Step w a w' ∧ w.FreshPorts a ∧
    LawfulPoll a) (initial ourAddr ckr source) actions w) :
    PortsUnique w.net.sockets := by
  have hinv : Inv w ∧ PortsUnique w.net.sockets := by
    apply hr.invariant (I := fun w => Inv w ∧ PortsUnique w.net.sockets)
    · exact ⟨inv_initial ourAddr ckr source, ⟨fun j k t t' x hj => (by cases hj), fun j k u u' hj =>
        (by cases hj)⟩⟩
    · rintro v a v' ⟨hi, hu⟩ ⟨hs, hf, hl⟩
      exact ⟨inv_step v a v' hi hs, unique_moved hi hu (moved_of_step hi hs) hf hl⟩
  exact hinv.2

def idlePoll : PollEffect := { tcp := fun _ t => t, udp := fun _ u => u, icmp := fun _ i => i }

lemma idlePoll_lawful : idlePoll.Lawful := ⟨fun _ _ h => ⟨h, rfl⟩, fun _ _ => rfl⟩

def idleCycle : CycleInput := { effect := idlePoll, serviceNow := 0, reapNow := 0, supply := [] }

lemma FreshPorts.quiet (hc : ∀ i, a ≠ .pollerCycle i) (hb : w.bindsAt a = none) :
    w.FreshPorts a where
  dialed i he := absurd he (hc i)
  queued i he := absurd he (hc i)
  bound ep he := by rw [hb] at he; cases he

def twoDials (draw draw' : UInt16) : List Action :=
  [.dialStart 0 ⟨.ipv6 2, 80⟩ draw 3, .dialQueue 0, .dialStart 1 ⟨.ipv6 2, 80⟩ draw' 4,
    .dialQueue 1, .pollerCheck]

def anySource : IpAddress → Option IpAddress := fun _ => some (.ipv6 1)

def twoQueued (draw draw' : UInt16) : World where
  ourAddr := 1
  ckr := false
  net := {
    sourceAddress := anySource
    sockets := (Store.empty.insert 3 (.tcp .new)).insert 4 (.tcp .new)
    wakers := []
    pendingConnects := [⟨3, ⟨.ipv6 2, 80⟩, NetstackState.ephemeralPort draw, 0⟩,
      ⟨4, ⟨.ipv6 2, 80⟩, NetstackState.ephemeralPort draw', 1⟩]
    listeners := []
    closing := []
    closed := false }
  dials := (Store.empty.insert 0 (.queued 3 .waiting)).insert 1 (.queued 4 .waiting)
  streams := []
  udpSockets := []
  pingSockets := []
  tcpListeners := []
  poller := .select
  woken := []

lemma run_twoDials (draw draw' : UInt16) :
    Run (fun w a w' => Step w a w' ∧ w.FreshPorts a ∧ LawfulPoll a) (initial 1 false anySource)
      (twoDials draw draw') (twoQueued draw draw') := by
  have quiet : ∀ {w a w'}, Step w a w' → (∀ i, a ≠ .pollerCycle i) → w.bindsAt a = none →
      Step w a w' ∧ w.FreshPorts a ∧ LawfulPoll a :=
    fun hs hc hb => ⟨hs, .quiet hc hb, fun i he => absurd he (hc i)⟩
  refine .cons (quiet rfl (by simp) rfl)
    (.cons (quiet rfl (by simp) rfl) (.cons (quiet rfl (by simp) rfl)
    (.cons (quiet rfl (by simp) rfl) (.single (quiet ?_ (by simp) rfl)))))
  have hdials : (twoQueued draw draw').dials =
      (((Store.empty.insert 0 (.created 3 ⟨.ipv6 2, 80⟩ (NetstackState.ephemeralPort draw))).insert
        0
        (.queued 3 .waiting)).insert 1 (.created 4 ⟨.ipv6 2, 80⟩
        (NetstackState.ephemeralPort draw'))).insert 1
        (.queued 4 .waiting) := by
    simp only [twoQueued, Store.insert_insert]
  rw [show twoQueued draw draw' =
    { twoQueued draw draw' with dials := (twoQueued draw draw').dials } from rfl, hdials]
  rfl

lemma twoQueued_new {draw draw' : UInt16} {j : ℕ} {t : TcpSocket}
    (hf : (twoQueued draw draw').net.sockets.find j = some (.tcp t)) : t = .new := by
  rw [show (twoQueued draw draw').net.sockets.find j =
    if j = 4 then some (.tcp .new) else if j = 3 then some (.tcp .new) else none from rfl] at hf
  split at hf
  · cases hf
    rfl
  · split at hf
    · cases hf
      rfl
    · cases hf

lemma fresh_twoQueued : (twoQueued 0 1).FreshPorts (.pollerCycle idleCycle) where
  dialed i he cmd hc ha j t hf hd := by
    rw [twoQueued_new hf] at hd
    exact absurd hd new_not_dialed
  queued i he := by
    apply List.Pairwise.imp (R :=
      fun cmd cmd' => (cmd.localPort, cmd.remote) ≠ (cmd'.localPort, cmd'.remote))
    · exact fun h _ _ => h
    · decide
  bound ep he := by cases he

lemma lawful_idleCycle : LawfulPoll (.pollerCycle idleCycle) := by
  intro i he
  cases he
  exact idlePoll_lawful

theorem distinct_draws_unique : ∃ w, Run (fun w a w' => Step w a w' ∧ w.FreshPorts a ∧ LawfulPoll a)
    (initial 1 false anySource) (twoDials 0 1 ++ [.pollerCycle idleCycle]) w ∧
      PortsUnique w.net.sockets := by
  have hs : ∃ w, Step (twoQueued 0 1) (.pollerCycle idleCycle) w := ⟨_, rfl⟩
  obtain ⟨w, hs⟩ := hs
  have hr := (run_twoDials 0 1).append (.single ⟨hs, fresh_twoQueued, lawful_idleCycle⟩)
  exact ⟨w, hr, ports_unique_of_fresh hr⟩

theorem equal_draws_collide : ¬∀ ourAddr ckr source actions w,
    Run (fun w a w' => Step w a w' ∧ LawfulPoll a) (initial ourAddr ckr source) actions w →
      PortsUnique w.net.sockets := by
  intro hall
  have hr : Run (fun w a w' => Step w a w' ∧ LawfulPoll a) (initial 1 false anySource)
      (twoDials 0 0)
      (twoQueued 0 0) := (run_twoDials 0 0).mono fun w a w' h => ⟨h.1, h.2.2⟩
  have hs : ∃ w, Step (twoQueued 0 0) (.pollerCycle idleCycle) w ∧
      ∃ t, w.net.sockets.find 3 = some (.tcp t) ∧ w.net.sockets.find 4 = some (.tcp t) ∧ t.Dialed ∧
        t.tuple = some (49152, ⟨.ipv6 2, 80⟩) := by
    refine ⟨_, rfl, _, rfl, rfl, ⟨rfl, ?_⟩, rfl⟩
    simp [idleCycle, idlePoll]
  obtain ⟨w, hs, t, h₃, h₄, hd, ht⟩ := hs
  have hu := hall _ _ _ _ w (hr.append (.single ⟨hs, lawful_idleCycle⟩))
  have h34 : 3 = 4 := hu.tcp 3 4 t t _ h₃ h₄ hd hd ht ht
  cases h34

end World

end Yggstack.Netstack
