import Yggstack.Netstack.Hiding

/-! Two worlds side by side: one in which a call is made and one in which it is not. Steps of
everybody else keep them in line. -/

namespace Yggstack.Netstack

open Library

structure NetMirrors (d : ℕ) (ours : List ℕ) (s t : NetstackState) : Prop where
  sockets : Hidden ours s.sockets t.sockets
  pending : t.pendingConnects = s.pendingConnects.filter fun cmd => cmd.dial ≠ d
  closing : t.closing.Perm (s.closing.filter fun item => item.1 ∉ ours)
  sourceAddress : t.sourceAddress = s.sourceAddress
  listeners : t.listeners = s.listeners
  closed : t.closed = s.closed

def Grown (ours : List ℕ) (closing closing' : List (ℕ × ℤ)) : Prop :=
  ∃ extra, closing' = closing ++ extra ∧ ∀ item ∈ extra, item.1 ∉ ours

lemma Grown.refl (ours : List ℕ) (closing : List (ℕ × ℤ)) : Grown ours closing closing :=
  ⟨[], by simp⟩

namespace NetMirrors

variable {d j : ℕ} {ours : List ℕ} {s t : NetstackState}

lemma hide_eq (h : NetMirrors d ours s t) : t = s.hide d ours t.closing t.wakers := by
  rw [NetstackState.hide, ← h.sockets.eq, ← h.pending, ← h.sourceAddress, ← h.listeners, ← h.closed]

lemma setSockets (h : NetMirrors d ours s t) {s' t' : SocketSet} (hs : Hidden ours s' t') :
    NetMirrors d ours { s with sockets := s' } { t with sockets := t' } :=
  { h with sockets := hs }

lemma pollSocket (h : NetMirrors d ours s t) {α β : Type} (view : Socket → Option α)
    (wrap : α → Socket) (k : Waker)
    (op : α → Poll β × α) (hj : j ∉ ours) :
    Follows (fun a b => NetMirrors d ours a.2 b.2 ∧ Grown ours s.closing a.2.closing)
      (s.pollSocket view wrap j k op) (t.pollSocket view wrap j k op) := by
  apply (Follows.of_eq (h.sockets.getAs view hj)).bind
  rintro a _ rfl
  split
  · exact Follows.ok ⟨h.setSockets (h.sockets.insert _ hj), .refl _ _⟩
  · exact Follows.ok ⟨{ h with sockets := h.sockets.insert _ hj }, .refl _ _⟩

lemma dropStream (h : NetMirrors d ours s t) (now : ℤ) (hj : j ∉ ours) :
    Follows (fun a b => NetMirrors d ours a b ∧ Grown ours s.closing a.closing) (s.dropStream j now)
      (t.dropStream j now) := by
  apply (Follows.of_eq (h.sockets.getTcp hj)).bind
  rintro sock _ rfl
  refine Follows.ok ⟨{ h with sockets := h.sockets.insert _ hj, closing := ?_ }, [(j, now)], rfl,
    by simpa using hj⟩
  rw [List.filter_append, List.filter_cons_of_pos (by simpa using hj)]
  exact h.closing.append_right _

lemma dropSocket (h : NetMirrors d ours s t) (hj : j ∉ ours) :
    Follows (fun a b => NetMirrors d ours a b ∧ Grown ours s.closing a.closing) (s.dropSocket j)
      (t.dropSocket j) := by
  apply (h.sockets.remove hj).bind
  intro s' t' h'
  exact Follows.ok ⟨h.setSockets h', .refl _ _⟩

lemma listenTcp (h : NetMirrors d ours s t) (ourAddr : BitVec 128) (port : UInt16)
    (supply : List ℕ) :
    Follows (fun a b => b.1 = a.1 ∧ NetMirrors d ours a.2 b.2 ∧ Grown ours s.closing a.2.closing)
      (s.listenTcp ourAddr port supply) (t.listenTcp ourAddr port supply) := by
  apply (h.sockets.add supply _).bind
  rintro ⟨s', _⟩ ⟨t', first, supply'⟩ ⟨h', rfl, hfirst⟩
  apply (Follows.of_eq (h'.getTcp hfirst)).bind
  rintro sock _ rfl
  split
  · exact Follows.ok ⟨rfl, h.setSockets h', .refl _ _⟩
  · apply (topUp_hidden _ _ (h'.insert _ hfirst) supply' _).bind
    rintro ⟨s'', _⟩ ⟨t'', supply'', pool⟩ ⟨h'', rfl⟩
    refine Follows.ok ⟨rfl, { h with sockets := h'', listeners := ?_ }, .refl _ _⟩
    rw [h.listeners]

lemma bindUdpAt (h : NetMirrors d ours s t) (ep : IpListenEndpoint) (supply : List ℕ) :
    Follows (fun a b => b.1 = a.1 ∧ NetMirrors d ours a.2 b.2 ∧ Grown ours s.closing a.2.closing)
      (s.bindUdpAt ep supply) (t.bindUdpAt ep supply) := by
  apply (h.sockets.add supply _).bind
  rintro ⟨s', _⟩ ⟨t', j, supply'⟩ ⟨h', rfl, hj⟩
  apply (Follows.of_eq (h'.getAs Socket.udp? hj)).bind
  rintro sock _ rfl
  split
  · exact Follows.ok ⟨rfl, h.setSockets h', .refl _ _⟩
  · exact Follows.ok ⟨rfl, h.setSockets (h'.insert _ hj), .refl _ _⟩

lemma openIcmp (h : NetMirrors d ours s t) (ident : UInt16) (supply : List ℕ) :
    Follows (fun a b => b.1 = a.1 ∧ NetMirrors d ours a.2 b.2 ∧ Grown ours s.closing a.2.closing)
      (s.openIcmp ident supply) (t.openIcmp ident supply) := by
  apply (h.sockets.add supply _).bind
  rintro ⟨s', _⟩ ⟨t', j, supply'⟩ ⟨h', rfl, hj⟩
  apply (Follows.of_eq (h'.getAs Socket.icmp? hj)).bind
  rintro sock _ rfl
  split
  · exact Follows.ok ⟨rfl, h.setSockets h', .refl _ _⟩
  · exact Follows.ok ⟨rfl, h.setSockets (h'.insert _ hj), .refl _ _⟩

end NetMirrors

namespace World

/-- `v` is `w` without dial `d` and without the sockets `ours`, among them the dial's own. Wakers
are left open: no step depends on them. -/
structure Mirrors (d : ℕ) (ours : List ℕ) (w v : World) : Prop where
  net : NetMirrors d ours w.net v.net
  dials : v.dials = w.dials.erase d
  owned : ∀ dial h, w.dials.find d = some dial → dial.handle? = some h → h ∈ ours
  ourAddr : v.ourAddr = w.ourAddr
  ckr : v.ckr = w.ckr
  streams : v.streams = w.streams
  udpSockets : v.udpSockets = w.udpSockets
  pingSockets : v.pingSockets = w.pingSockets
  tcpListeners : v.tcpListeners = w.tcpListeners
  poller : v.poller = w.poller

def After (d : ℕ) (ours : List ℕ) (w w' v' : World) : Prop :=
  Mirrors d ours w' v' ∧ Grown ours w.net.closing w'.net.closing

variable {d d' j : ℕ} {ours : List ℕ} {w v w' v' : World}

namespace Mirrors

lemma find_dial (hm : Mirrors d ours w v) (hne : d' ≠ d) : v.dials.find d' = w.dials.find d' := by
  rw [hm.dials, Store.find_erase_of_ne _ hne]

lemma answer (hm : Mirrors d ours w v) (k : Waker) : Mirrors d ours (w.answer k) (v.answer k) :=
  { hm with }

lemma setDial (hm : Mirrors d ours w v) (hne : d' ≠ d) (dial : Dial) :
    Mirrors d ours (w.setDial d' dial) (v.setDial d' dial) where
  __ := hm
  dials := by
    show v.dials.insert d' dial = (w.dials.insert d' dial).erase d
    rw [hm.dials, Store.insert_erase_of_ne _ _ hne]
  owned := by
    intro dial' h hd hh
    rw [show (w.setDial d' dial).dials.find d =
      w.dials.find d from Store.find_insert_of_ne _ _ hne.symm] at hd
    exact hm.owned dial' h hd hh

end Mirrors

lemma require_follows {p q : Prop} [Decidable p] [Decidable q] (h : q ↔ p) :
    Follows (fun _ _ => q) (require p) (require q) := by
  rw [require, require]
  by_cases hp : p
  · rw [if_pos hp, if_pos (h.mpr hp)]
    exact Follows.ok (h.mpr hp)
  · rw [if_neg hp]
    exact Follows.error

lemma Mirrors.not_ours (hm : Mirrors d ours w v) {k : Kind} (hk : v.net.sockets.kindAt j = some k) :
    j ∉ ours :=
  hm.net.sockets.not_mem_of_kindAt hk

section Dials

variable (hm : Mirrors d ours w v) (hv : Inv v) (hne : d' ≠ d)
include hm hv hne

lemma dial_not_ours {dial : Dial} (hd : w.dials.find d' = some dial) (hh : dial.handle? = some j) :
    j ∉ ours := by
  apply hm.not_ours
  exact SocketSet.isTcp_iff.mp (hv.of_dial (by rw [hm.find_dial hne, hd]) hh)

omit hv in
lemma dialStart_follows (remote : IpEndpoint) (draw : UInt16) (handle : ℕ) :
    Follows (After d ours w) (w.dialStart d' remote draw handle)
      (v.dialStart d' remote draw handle) := by
  rw [dialStart, dialStart]
  apply (require_follows (by rw [hm.find_dial hne])).bind
  intro _ _ _
  rw [hm.ckr]
  split
  · exact Follows.ok ⟨hm.setDial hne _, .refl _ _⟩
  · apply (hm.net.sockets.add [handle] _).bind
    rintro ⟨s', _⟩ ⟨t', h, rest⟩ ⟨h', rfl, -⟩
    exact Follows.ok ⟨{ hm.setDial hne _ with net := hm.net.setSockets h' }, .refl _ _⟩

omit hv in
lemma dialQueue_follows : Follows (After d ours w) (w.dialQueue d') (v.dialQueue d') := by
  rw [dialQueue, dialQueue, hm.find_dial hne]
  split
  · refine Follows.ok ⟨{ hm.setDial hne _ with net := { hm.net with pending := ?_ } }, .refl _ _⟩
    rw [List.filter_append, List.filter_cons_of_pos (by simpa using hne), hm.net.pending]
    rfl
  · exact Follows.error

lemma dialDrop_follows (wall : ℤ) :
    Follows (After d ours w) (w.dialDrop d' wall) (v.dialDrop d' wall) := by
  rw [dialDrop, dialDrop, hm.find_dial hne]
  split
  · exact Follows.ok ⟨hm.setDial hne _, .refl _ _⟩
  · next hd =>
    apply (hm.net.dropStream wall (dial_not_ours hm hv hne hd rfl)).bind
    rintro s' t' ⟨h', hg⟩
    exact Follows.ok ⟨{ hm.setDial hne _ with net := h' }, hg⟩
  · exact Follows.error

omit hv in
lemma pollConnect_follows (deadline now wall : ℤ) (hj : j ∉ ours) :
    Follows (fun a b => After d ours w a.2 b.2) (w.pollConnect d' j deadline now wall)
      (v.pollConnect d' j deadline now wall) := by
  rw [pollConnect, pollConnect]
  apply (Follows.of_eq (hm.net.sockets.getTcp hj)).bind
  rintro sock _ rfl
  split
  · refine Follows.ok ⟨{ hm.setDial hne _ with streams := ?_ }, .refl _ _⟩
    rw [hm.streams]
  · apply (hm.net.dropStream wall hj).bind
    rintro s' t' ⟨h', hg⟩
    exact Follows.ok ⟨{ hm.setDial hne _ with net := h' }, hg⟩
  · have hpark : NetMirrors d ours (w.net.park (.dial d')) (v.net.park (.dial d')) :=
      { hm.net with }
    simp only
    split
    · apply (hpark.dropStream wall hj).bind
      rintro s' t' ⟨h', hg⟩
      exact Follows.ok ⟨{ hm.setDial hne _ with net := h' }, hg⟩
    · exact Follows.ok ⟨{ hm.setDial hne _ with net := hpark }, .refl _ _⟩

lemma pollDial_follows (now wall : ℤ) :
    Follows (fun a b => After d ours w a.2 b.2) (w.pollDial d' now wall)
      (v.pollDial d' now wall) := by
  rw [pollDial, pollDial, hm.find_dial hne]
  split
  · exact Follows.ok ⟨hm, .refl _ _⟩
  · exact Follows.ok ⟨hm.setDial hne _, .refl _ _⟩
  · exact Follows.ok ⟨hm.setDial hne _, .refl _ _⟩
  · next hd => exact pollConnect_follows hm hne _ now wall (dial_not_ours hm hv hne hd rfl)
  · next hd => exact pollConnect_follows hm hne _ now wall (dial_not_ours hm hv hne hd rfl)
  · exact Follows.error

end Dials

section Objects

variable (hm : Mirrors d ours w v) (hv : Inv v)
include hm

lemma onNet_follows {α β : Type} (f : β → Reply) (view : Socket → Option α) (wrap : α → Socket)
    (k : Waker)
    (op : α → Poll β × α) (hj : j ∉ ours) :
    Follows (fun a b => After d ours w a.2 b.2) (w.onNet f (w.net.pollSocket view wrap j k op))
      (v.onNet f (v.net.pollSocket view wrap j k op)) := by
  apply (hm.net.pollSocket view wrap k op hj).bind
  rintro ⟨p, s'⟩ ⟨q, t'⟩ ⟨h', hg⟩
  exact Follows.ok ⟨{ hm with net := h' }, hg⟩

lemma accept_follows (port : UInt16) (k : Waker) :
    Follows (fun a b => After d ours w a.2 b.2) (w.pollOp k (.accept port))
      (v.pollOp k (.accept port)) := by
  rw [pollOp, pollOp]
  apply (require_follows (by rw [hm.tcpListeners])).bind
  intro _ _ _
  rw [NetstackState.accept, NetstackState.accept, hm.net.listeners]
  rcases NetstackState.acceptFrom port k w.net.listeners with ⟨_ | _, listeners⟩
  · refine Follows.ok ⟨{ hm with net := { hm.net with listeners := rfl }, streams := ?_ },
      .refl _ _⟩
    rw [hm.streams]
  · exact Follows.ok ⟨{ hm with net := { hm.net with listeners := rfl } }, .refl _ _⟩

include hv

lemma pollOp_follows (k : Waker) {op : Operation} (ho : op.dial? ≠ some d) :
    Follows (fun a b => After d ours w a.2 b.2) (w.pollOp k op) (v.pollOp k op) := by
  cases op with
  | dial d' now wall => exact pollDial_follows hm hv (dial_ne ho) now wall
  | accept port => exact accept_follows hm port k
  | read h n =>
    apply (require_follows (by rw [hm.streams])).bind
    intro _ _ hmem
    exact onNet_follows hm _ _ _ k _ (hm.not_ours (hv.of_stream hmem))
  | write h data =>
    apply (require_follows (by rw [hm.streams])).bind
    intro _ _ hmem
    exact onNet_follows hm _ _ _ k _ (hm.not_ours (hv.of_stream hmem))
  | shutdown h =>
    apply (require_follows (by rw [hm.streams])).bind
    intro _ _ hmem
    exact onNet_follows hm _ _ _ k _ (hm.not_ours (hv.of_stream hmem))
  | recvFrom h n =>
    apply (require_follows (by rw [hm.udpSockets])).bind
    intro _ _ hmem
    exact onNet_follows hm _ _ _ k _ (hm.not_ours (hv.of_udp hmem))
  | sendTo h data target room =>
    apply (require_follows (by rw [hm.udpSockets])).bind
    intro _ _ hmem
    exact onNet_follows hm _ _ _ k _ (hm.not_ours (hv.of_udp hmem))
  | sendEcho h dst seq payload room =>
    rw [pollOp, pollOp, hm.pingSockets, hm.net.closed]
    split
    · exact Follows.error
    · next ident hlook =>
      refine onNet_follows hm _ _ _ k _ (hm.not_ours (hv.of_ping ?_))
      rw [hm.pingSockets]
      exact List.mem_map_of_mem (mem_of_lookup hlook)
  | recvReply h n =>
    rw [pollOp, pollOp, hm.net.closed]
    apply (require_follows (by rw [hm.pingSockets])).bind
    intro _ _ hmem
    exact onNet_follows hm _ _ _ k _ (hm.not_ours (hv.of_ping hmem))

end Objects

lemma bind_follows (hm : Mirrors d ours w v) {ep ep' : IpListenEndpoint} (he : ep' = ep)
    (supply : List ℕ) :
    Follows (After d ours w)
      (do
        let (r, net) ← w.net.bindUdpAt ep supply
        match r with
        | .ok h => return { w with net, udpSockets := w.udpSockets ++ [h] }
        | .error _ => return { w with net })
      (do
        let (r, net) ← v.net.bindUdpAt ep' supply
        match r with
        | .ok h => return { v with net, udpSockets := v.udpSockets ++ [h] }
        | .error _ => return { v with net }) := by
  rw [he]
  apply (hm.net.bindUdpAt ep supply).bind
  rintro ⟨_, s'⟩ ⟨r, t'⟩ ⟨rfl, h', hg⟩
  cases r with
  | ok h =>
    refine Follows.ok ⟨{ hm with net := h', udpSockets := ?_ }, hg⟩
    rw [hm.udpSockets]
  | error e => exact Follows.ok ⟨{ hm with net := h' }, hg⟩

lemma exec_follows (hm : Mirrors d ours w v) (hv : Inv v) {a : Action} (ha : a.dial? ≠ some d)
    (hc : ∀ i, a ≠ .pollerCycle i) (hs : a ≠ .shutdown) :
    Follows (After d ours w) (w.exec a) (v.exec a) := by
  cases a with
  | dialStart d' remote draw handle => exact dialStart_follows hm (dial_ne ha) remote draw handle
  | dialQueue d' => exact dialQueue_follows hm (dial_ne ha)
  | dialDrop d' wall => exact dialDrop_follows hm hv (dial_ne ha) wall
  | poll task op =>
    apply (pollOp_follows (hm.answer (waker task op)) (hv.answer _) _ ha).bind
    rintro ⟨p, w'⟩ ⟨q, v'⟩ h
    exact Follows.ok h
  | listenTcp port supply =>
    have hlisten := hm.net.listenTcp w.ourAddr port supply
    nth_rewrite 2 [← hm.ourAddr] at hlisten
    apply hlisten.bind
    rintro ⟨_, s'⟩ ⟨r, t'⟩ ⟨rfl, h', hg⟩
    cases r with
    | ok u =>
      refine Follows.ok ⟨{ hm with net := h', tcpListeners := ?_ }, hg⟩
      rw [hm.tcpListeners]
    | error e => exact Follows.ok ⟨{ hm with net := h' }, hg⟩
  | dropListener port =>
    apply (require_follows (by rw [hm.tcpListeners])).bind
    intro _ _ _
    refine Follows.ok ⟨{ hm with tcpListeners := ?_ }, .refl _ _⟩
    rw [hm.tcpListeners]
  | bindUdp port supply =>
    exact bind_follows hm (by rw [hm.ourAddr]) supply
  | openUdp draw supply => exact bind_follows hm rfl supply
  | openIcmp ident supply =>
    apply (hm.net.openIcmp ident supply).bind
    rintro ⟨_, s'⟩ ⟨r, t'⟩ ⟨rfl, h', hg⟩
    cases r with
    | ok h =>
      refine Follows.ok ⟨{ hm with net := h', pingSockets := ?_ }, hg⟩
      rw [hm.pingSockets]
    | error e => exact Follows.ok ⟨{ hm with net := h' }, hg⟩
  | dropStream h wall =>
    apply (require_follows (by rw [hm.streams])).bind
    intro _ _ hmem
    apply (hm.net.dropStream wall (hm.not_ours (hv.of_stream hmem))).bind
    rintro s' t' ⟨h', hg⟩
    refine Follows.ok ⟨{ hm with net := h', streams := ?_ }, hg⟩
    rw [hm.streams]
  | dropUdp h =>
    apply (require_follows (by rw [hm.udpSockets])).bind
    intro _ _ hmem
    apply (hm.net.dropSocket (hm.not_ours (hv.of_udp hmem))).bind
    rintro s' t' ⟨h', hg⟩
    refine Follows.ok ⟨{ hm with net := h', udpSockets := ?_ }, hg⟩
    rw [hm.udpSockets]
  | dropPing h =>
    rw [exec, exec, hm.pingSockets]
    split
    · exact Follows.error
    · next ident hlook =>
      have hmem : h ∈ v.pingSockets.map Prod.fst := by
        rw [hm.pingSockets]
        exact List.mem_map_of_mem (mem_of_lookup hlook)
      apply (hm.net.dropSocket (hm.not_ours (hv.of_ping hmem))).bind
      rintro s' t' ⟨h', hg⟩
      exact Follows.ok ⟨{ hm with net := h', pingSockets := rfl }, hg⟩
  | pollerCheck =>
    apply (require_follows (by rw [hm.poller])).bind
    intro _ _ _
    refine Follows.ok ⟨{ hm with poller := ?_ }, .refl _ _⟩
    rw [hm.net.closed]
  | pollerCycle i => exact absurd rfl (hc i)
  | pollerExit =>
    apply (require_follows (by rw [hm.poller])).bind
    intro _ _ _
    exact Follows.ok ⟨{ hm with poller := rfl }, .refl _ _⟩
  | shutdown => exact absurd rfl hs

lemma lookup_filter_ne {β : Type} (xs : List (ℕ × β)) {d d' : ℕ} (hne : d' ≠ d) :
    (xs.filter fun x => x.1 ≠ d).lookup d' = xs.lookup d' := by
  induction xs with
  | nil => rfl
  | cons x xs ih =>
    obtain ⟨k, b⟩ := x
    by_cases hk : k = d
    · rw [List.filter_cons_of_neg (by simpa using hk), ih, List.lookup_cons, hk,
        beq_false_of_ne hne]
    · rw [List.filter_cons_of_pos (by simpa using hk), List.lookup_cons, List.lookup_cons, ih]

lemma receive_handle? (dial : Dial) (r : Option (Except SocketError Unit)) :
    (dial.receive r).handle? = dial.handle? := by
  cases dial with
  | queued h channel =>
    cases channel with
    | waiting => cases r <;> rfl
    | sent r' => rfl
    | broken => rfl
  | _ => rfl

lemma hangUp_handle? (dial : Dial) : dial.hangUp.handle? = dial.handle? := by
  cases dial with
  | queued h channel => cases channel <;> rfl
  | _ => rfl

lemma Mirrors.mapDials (hm : Mirrors d ours w v) {f g : ℕ → Dial → Dial}
    (hfg : ∀ d', d' ≠ d → g d' = f d')
    (hh : ∀ d' dial, (f d' dial).handle? = dial.handle?) :
    v.dials.mapValues g = (w.dials.mapValues f).erase d ∧
      ∀ dial h, (w.dials.mapValues f).find d = some dial → dial.handle? = some h → h ∈ ours := by
  constructor
  · ext d' : 2
    rw [Store.find_mapValues, hm.dials, Store.find_erase, Store.find_erase, Store.find_mapValues]
    split
    · rfl
    · next hne => rw [hfg d' hne]
  · intro dial h hd hdial
    obtain ⟨dial', hd', rfl⟩ := Option.map_eq_some_iff.mp hd
    exact hm.owned dial' h hd' (by rwa [hh] at hdial)

lemma Mirrors.pending_iff (hm : Mirrors d ours w v) (hi : Inv w) (hv : Inv v) :
    ∀ cmd ∈ w.net.pendingConnects, cmd.dial = d ↔ cmd.handle ∈ ours := by
  intro cmd hc
  constructor
  · rintro rfl
    obtain ⟨dial, hd, ha⟩ := hi.pending cmd hc
    exact hm.owned dial _ hd ha.handle?
  · intro ho
    by_contra hne
    have hc' : cmd ∈ v.net.pendingConnects := by
      rw [hm.net.pending]
      exact List.mem_filter.mpr ⟨hc, by simpa using hne⟩
    exact hm.not_ours (SocketSet.isTcp_iff.mp (hv.of_pending hc')) ho

lemma Mirrors.listener_not_ours (hm : Mirrors d ours w v) (hv : Inv v) :
    ∀ j ∈ listenerHandles w.net.listeners, j ∉ ours := by
  intro j hj
  rw [← hm.net.listeners] at hj
  apply hm.not_ours
  exact hv.ledger.present (j, .tcp) (by simp [held, NetstackState.held, hj])

lemma cycle_follows (hm : Mirrors d ours w v) (hi : Inv w) (hv : Inv v) {i : CycleInput}
    (hs : Step w (.pollerCycle i) w') :
    Reaped ours w.net.closing w'.net.closing w'.net.sockets ∧
      ∃ v', Step v (.pollerCycle i) v' ∧ Mirrors d (remaining ours w'.net.sockets) w' v' := by
  have hi' : Inv w' := inv_step w _ w' hi hs
  obtain ⟨u, hreq, hs⟩ := bind_eq_ok.mp hs
  obtain ⟨⟨net, results, woken⟩, hcycle, hs⟩ := bind_eq_ok.mp hs
  cases hs
  have h₀ := hm.net.sockets
  rw [h₀.eq] at h₀
  obtain ⟨hreaped, hidden, woken', hcycle', hperm⟩ :=
    NetstackState.cycle_hide hi.ledger (fun cmd hc => hi.of_pending hc)
    h₀ (hm.pending_iff hi hv) (hm.listener_not_ours hv) hm.net.closing v.net.wakers hcycle
  rw [← hm.net.hide_eq] at hcycle'
  obtain ⟨hdials, howned⟩ := hm.mapDials (f := fun d dial => dial.receive (results.lookup d))
    (g := fun d' dial => dial.receive ((results.filter fun r => r.1 ≠ d).lookup d'))
    (fun d' hne => by rw [lookup_filter_ne _ hne]) fun _ dial => receive_handle? dial _
  refine ⟨hreaped, _, bind_eq_ok.mpr ⟨u, ?_, bind_eq_ok.mpr ⟨_, hcycle', rfl⟩⟩, ?_⟩
  · rwa [hm.poller]
  · refine { hm with net := ⟨⟨rfl, ?_⟩, rfl, hperm, rfl, rfl, rfl⟩, dials := hdials, owned := ?_, poller := rfl }
    · exact fun j hj => (mem_remaining.mp hj).2
    · intro dial h hd hh
      refine mem_remaining.mpr ⟨howned dial h hd hh, ?_⟩
      obtain ⟨t, ht⟩ := hi'.of_dial hd hh
      rw [SocketSet.getTcp_eq_ok.mp ht]
      rfl

lemma shutdown_follows (hm : Mirrors d ours w v) : Mirrors d ours w.shutdown v.shutdown := by
  obtain ⟨hdials, howned⟩ := hm.mapDials
    (f := fun d dial => if d ∈ w.net.pendingConnects.map PendingConnect.dial then dial.hangUp
      else dial)
    (g := fun d dial => if d ∈ v.net.pendingConnects.map PendingConnect.dial then dial.hangUp
      else dial) (by
      intro d' hne
      have hiff : d' ∈ v.net.pendingConnects.map PendingConnect.dial ↔
          d' ∈ w.net.pendingConnects.map PendingConnect.dial := by
        rw [hm.net.pending]
        simp only [List.mem_map, List.mem_filter]
        constructor
        · rintro ⟨cmd, ⟨hc, -⟩, he⟩
          exact ⟨cmd, hc, he⟩
        · rintro ⟨cmd, hc, rfl⟩
          exact ⟨cmd, ⟨hc, by simpa using hne⟩, rfl⟩
      funext dial
      rw [if_congr hiff rfl rfl]) (by
      intro d' dial
      split
      · exact hangUp_handle? dial
      · rfl)
  exact { hm with
    net := ⟨hm.net.sockets.mapValues _, rfl, List.Perm.refl _, hm.net.sourceAddress, rfl, rfl⟩
    dials := hdials
    owned := howned }

structure Tracks (ours ours' : List ℕ) (calm : Prop) (w w' : World) : Prop where
  sub : ours' ⊆ ours
  unlisted : ∀ j ∈ ours, j ∉ closingHandles w.net.closing → j ∈ ours' ∧
    j ∉ closingHandles w'.net.closing
  listed : calm → ∀ item ∈ w.net.closing, item.1 ∈ ours' → item ∈ w'.net.closing

lemma step_follows (hm : Mirrors d ours w v) (hi : Inv w) (hv : Inv v) {a : Action}
    (ha : a.dial? ≠ some d)
    (hs : Step w a w') :
    ∃ v' ours', Step v a v' ∧ Mirrors d ours' w' v' ∧ Tracks ours ours' (a ≠ .shutdown) w w' := by
  by_cases hc : ∃ i, a = .pollerCycle i
  · obtain ⟨i, rfl⟩ := hc
    obtain ⟨hr, v', hs', hm'⟩ := cycle_follows hm hi hv hs
    refine ⟨v', _, hs', hm', fun j hj => (mem_remaining.mp hj).1, ?_, ?_⟩
    · intro j hj hnot
      refine ⟨mem_remaining.mpr ⟨hj, hr.unlisted j hj hnot⟩, fun hmem => hnot ?_⟩
      obtain ⟨item, hitem, rfl⟩ := List.mem_map.mp hmem
      exact List.mem_map_of_mem (hr.adds item hitem)
    · intro _ item hitem hj
      exact hr.keeps item hitem (mem_remaining.mp hj).2
  · by_cases hshut : a = .shutdown
    · subst hshut
      cases hs
      refine ⟨_, ours, rfl, shutdown_follows hm, fun j hj => hj, fun j hj _ => ⟨hj, ?_⟩, fun hne =>
        absurd rfl hne⟩
      rintro ⟨⟩
    · obtain ⟨v', hs', hm', extra, hextra, hnot⟩ :=
        exec_follows hm hv ha (fun i he => hc ⟨i, he⟩) hshut w' hs
      refine ⟨v', ours, hs', hm', fun j hj => hj, fun j hj hnotin => ⟨hj, ?_⟩, ?_⟩
      · rw [hextra, closingHandles, List.map_append, List.mem_append, not_or]
        refine ⟨hnotin, fun hmem => ?_⟩
        obtain ⟨item, hitem, rfl⟩ := List.mem_map.mp hmem
        exact hnot item hitem hj
      · intro _ item hitem _
        rw [hextra]
        exact List.mem_append_left _ hitem

end World

end Yggstack.Netstack
