import Yggstack.Netstack.Invariant

namespace Yggstack.Netstack

open Library

def Dial.Streams (dial : Dial) (h : ℕ) : Prop :=
  dial = .queued h (.sent (.ok ())) ∨ ∃ deadline, dial = .connecting h deadline

lemma Dial.Streams.handle? {dial : Dial} {h : ℕ} (hs : dial.Streams h) : dial.handle? = some h := by
  rcases hs with rfl | ⟨deadline, rfl⟩ <;> rfl

lemma Dial.Streams.not_awaits {dial : Dial} {h : ℕ} (hs : dial.Streams h) (j : ℕ) :
    ¬dial.Awaits j := by
  rcases hs with rfl | ⟨deadline, rfl⟩ <;> rintro (he | ⟨o, he⟩) <;> simp at he

def TcpState.Decisive (s : TcpState) : Prop :=
  s = .established ∨ s = .closed ∨ s = .timeWait ∨ s = .closeWait

structure TcpSocket.Used (t t' : TcpSocket) : Prop where
  listenEndpoint : t'.listenEndpoint = t.listenEndpoint
  tuple : t'.tuple = t.tuple
  state : t'.state = t.state ∨ t'.state = TcpSocket.closeState t.state

def Operation.dial? : Operation → Option ℕ
  | .dial d _ _ => some d
  | _ => none

def Action.dial? : Action → Option ℕ
  | .dialStart d _ _ _ | .dialQueue d | .dialDrop d _ => some d
  | .poll _ op => op.dial?
  | _ => none

namespace World

def putSocket (w : World) (h : ℕ) (sock : Socket) : World :=
  { w with net := { w.net with sockets := w.net.sockets.insert h sock } }

def wait (w : World) (wakers : List Waker) : World :=
  { w with net := { w.net with wakers := w.net.wakers ++ wakers } }

def closeStream (w : World) (h : ℕ) (t : TcpSocket) (wall : ℤ) : World :=
  { w with net := { w.net with
    sockets := w.net.sockets.insert h (.tcp t.close), closing := w.net.closing ++ [(h, wall)] } }

def bindsAt (w : World) : Action → Option IpListenEndpoint
  | .bindUdp port _ => some (NetstackState.ourEndpoint w.ourAddr port)
  | .openUdp draw _ => some { addr := none, port := NetstackState.ephemeralPort draw }
  | _ => none

lemma dial?_of_bindsAt {w : World} {a : Action} {ep : IpListenEndpoint}
    (hb : w.bindsAt a = some ep) :
    a.dial? = none := by
  cases a <;> first | rfl | cases hb

inductive Moved (w : World) : Action → World → Prop
  | dialRefused {d : ℕ} {remote : IpEndpoint} {draw : UInt16} {handle : ℕ} {e : IoError} :
      w.dials.find d = none →
      Moved w (.dialStart d remote draw handle) (w.setDial d (.over (.failed e) none))
  | dialStart {d : ℕ} {remote : IpEndpoint} {draw : UInt16} {handle : ℕ} :
      w.dials.find d = none → w.net.sockets.find handle = none →
      Moved w (.dialStart d remote draw handle)
        ((w.putSocket handle (.tcp .new)).setDial d
          (.created handle remote (NetstackState.ephemeralPort draw)))
  | dialQueue {d handle : ℕ} {remote : IpEndpoint} {localPort : UInt16} :
      w.dials.find d = some (.created handle remote localPort) →
      Moved w (.dialQueue d) { w.setDial d (.queued handle .waiting) with net := { w.net with
        pendingConnects := w.net.pendingConnects ++ [{ handle, remote, localPort, dial := d }] } }
  | dialDropLost {d h : ℕ} {channel : Channel} {wall : ℤ} :
      w.dials.find d = some (.queued h channel) →
      Moved w (.dialDrop d wall) (w.setDial d (.over .dropped (some h)))
  | dialDrop {d h : ℕ} {deadline wall : ℤ} {t : TcpSocket} :
      w.dials.find d = some (.connecting h deadline) → w.net.sockets.find h = some (.tcp t) →
      Moved w (.dialDrop d wall) ((w.closeStream h t wall).setDial d (.over .dropped none))
  | dialWaits {n d h : ℕ} {now wall : ℤ} :
      w.dials.find d = some (.queued h .waiting) →
      Moved w (.poll n (.dial d now wall)) (w.answer (.dial d))
  | dialLost {n d h : ℕ} {channel : Channel} {now wall : ℤ} {e : IoError} :
      w.dials.find d = some (.queued h channel) → channel ≠ .sent (.ok ()) →
      Moved w (.poll n (.dial d now wall))
        ((w.answer (.dial d)).setDial d (.over (.failed e) (some h)))
  | dialConnected {n d h : ℕ} {dial : Dial} {now wall : ℤ} {t : TcpSocket} :
      w.dials.find d = some dial → dial.Streams h → w.net.sockets.find h = some (.tcp t) →
        t.state = .established →
      Moved w (.poll n (.dial d now wall))
        { (w.answer (.dial d)).setDial d (.over (.connected h) none) with streams := w.streams ++ [h] }
  | dialFailed {n d h : ℕ} {dial : Dial} {now wall : ℤ} {t : TcpSocket} {e : IoError}
      {wakers : List Waker} :
      w.dials.find d = some dial → dial.Streams h → w.net.sockets.find h = some (.tcp t) →
        t.state ≠ .established →
      Moved w (.poll n (.dial d now wall))
        ((((w.answer (.dial d)).wait wakers).closeStream h t wall).setDial d
          (.over (.failed e) none))
  | dialParked {n d h : ℕ} {dial : Dial} {now wall deadline : ℤ} {t : TcpSocket} :
      w.dials.find d = some dial → dial.Streams h → w.net.sockets.find h = some (.tcp t) →
        ¬t.state.Decisive →
      Moved w (.poll n (.dial d now wall))
        (((w.answer (.dial d)).wait [.dial d]).setDial d (.connecting h deadline))
  | accepted {n h : ℕ} {port : UInt16} {listeners : List TcpListenerEntry} :
      NetstackState.acceptFrom port (.task n) w.net.listeners = (.ready h, listeners) →
      Moved w (.poll n (.accept port))
        { w.answer (.task n) with net := { w.net with listeners }, streams := w.streams ++ [h] }
  | acceptParked {n : ℕ} {port : UInt16} {listeners : List TcpListenerEntry} :
      NetstackState.acceptFrom port (.task n) w.net.listeners = (.pending, listeners) →
      Moved w (.poll n (.accept port)) { w.answer (.task n) with net := { w.net with listeners } }
  | streamUsed {n h : ℕ} {op : Operation} {t t' : TcpSocket} {wakers : List Waker} :
      op.dial? = none → h ∈ w.streams → w.net.sockets.find h = some (.tcp t) → t.Used t' →
      Moved w (.poll n op) (((w.answer (.task n)).putSocket h (.tcp t')).wait wakers)
  | udpUsed {n h : ℕ} {op : Operation} {u u' : UdpSocket} {wakers : List Waker} :
      op.dial? = none → h ∈ w.udpSockets → w.net.sockets.find h = some (.udp u) →
        u'.endpoint = u.endpoint →
      Moved w (.poll n op) (((w.answer (.task n)).putSocket h (.udp u')).wait wakers)
  | pingUsed {n h : ℕ} {op : Operation} {i i' : IcmpSocket} {wakers : List Waker} :
      op.dial? = none → h ∈ w.pingSockets.map Prod.fst → w.net.sockets.find h = some (.icmp i) →
      Moved w (.poll n op) (((w.answer (.task n)).putSocket h (.icmp i')).wait wakers)
  | listenFailed {h : ℕ} {supply : List ℕ} :
      w.net.sockets.find h = none → Moved w (.listenTcp 0 supply) (w.putSocket h (.tcp .new))
  | listened {port : UInt16} {supply handles : List ℕ} :
      port ≠ 0 → handles.Nodup → (∀ h ∈ handles, w.net.sockets.find h = none) →
      handles.length = listenPoolSize →
      Moved w (.listenTcp port supply) { w with
        net := { w.net with
          sockets := w.net.sockets.insertAll handles (.tcp (listenSocket (NetstackState.ourEndpoint w.ourAddr port)))
          listeners := w.net.listeners ++ [newEntry (NetstackState.ourEndpoint w.ourAddr port) handles] }
        tcpListeners := w.tcpListeners ++ [port] }
  | listenerDropped {port : UInt16} :
      Moved w (.dropListener port) { w with tcpListeners := w.tcpListeners.erase port }
  | bindFailed {h : ℕ} {supply : List ℕ} :
      w.net.sockets.find h = none → Moved w (.bindUdp 0 supply) (w.putSocket h (.udp .new))
  | bound {h : ℕ} {a : Action} {ep : IpListenEndpoint} :
      w.bindsAt a = some ep → ep.port ≠ 0 → w.net.sockets.find h = none →
      Moved w a { w.putSocket h (.udp { UdpSocket.new with endpoint := ep }) with udpSockets := w.udpSockets ++ [h] }
  | pingOpened {h : ℕ} {ident : UInt16} {supply : List ℕ} :
      w.net.sockets.find h = none →
      Moved w (.openIcmp ident supply)
        { w.putSocket h (.icmp { IcmpSocket.new with ident := some ident }) with
        pingSockets := w.pingSockets ++ [(h, ident)] }
  | streamDropped {h : ℕ} {wall : ℤ} {t : TcpSocket} :
      h ∈ w.streams → w.net.sockets.find h = some (.tcp t) →
      Moved w (.dropStream h wall) { w.closeStream h t wall with streams := w.streams.erase h }
  | udpDropped {h : ℕ} :
      h ∈ w.udpSockets → Moved w (.dropUdp h) { w with
        net := { w.net with sockets := w.net.sockets.erase h }, udpSockets := w.udpSockets.erase h }
  | pingDropped {h : ℕ} {ident : UInt16} :
      (h, ident) ∈ w.pingSockets → Moved w (.dropPing h) { w with
        net := { w.net with sockets := w.net.sockets.erase h }, pingSockets := w.pingSockets.erase (h, ident) }
  | pollerChecked : Moved w .pollerCheck
      { w with poller := if w.net.closed then .exited else .select }
  | pollerCycled {i : CycleInput} {dialed served : SocketSet}
      {results : List (ℕ × Except SocketError Unit)}
      {net : NetstackState} {woken : List Waker} :
      Cycled w.net i dialed served results net →
      Moved w (.pollerCycle i) { w with
        net, poller := .top, woken := w.woken ++ (results.map (fun r => Waker.dial r.1) ++ (woken ++ w.net.wakers))
        dials := w.dials.mapValues fun d dial => dial.receive (results.lookup d) }
  | pollerExited : Moved w .pollerExit { w with poller := .exited }
  | shutdown : Moved w .shutdown w.shutdown

lemma mem_of_lookup {β : Type} {xs : List (ℕ × β)} {h : ℕ} {b : β} (hx : xs.lookup h = some b) :
    (h, b) ∈ xs := by
  obtain ⟨l₁, l₂, rfl, -⟩ := List.lookup_eq_some_iff.mp hx
  simp

lemma require_ends (p : Prop) [Decidable p] : Ends Fault.Benign (require p) fun _ => p := by
  rw [require]
  split
  · next hp => exact hp
  · exact Or.inr rfl

lemma poll_accept {w : World} (n : ℕ) {port : UInt16} (hl : port ∈ w.tcpListeners) :
    ∃ w', w.poll n (.accept port) =
      .ok ((NetstackState.acceptFrom port (.task n) w.net.listeners).1.map fun h => .stream (.ok h),
        w') := by
  have hreq : require (port ∈ (w.answer (.task n)).tcpListeners) = .ok () := if_pos hl
  rw [show w.poll n (.accept port) = (w.answer (.task n)).pollOp (.task n) (.accept port) from rfl,
    pollOp, hreq,
    ok_bind, NetstackState.accept, show (w.answer (.task n)).net = w.net from rfl]
  rcases NetstackState.acceptFrom port (.task n) w.net.listeners with ⟨_ | _, listeners⟩
  · exact ⟨_, rfl⟩
  · exact ⟨_, rfl⟩

lemma ephemeralPort_ne_zero (draw : UInt16) : NetstackState.ephemeralPort draw ≠ 0 := by
  intro h
  have := congrArg UInt16.toNat h
  simp [NetstackState.ephemeralPort] at this
  omega

section Steps

variable {w : World} {d h : ℕ} {dial : Dial} (hi : Inv w)
include hi

omit hi in
lemma dialStart_moved (d : ℕ) (remote : IpEndpoint) (draw : UInt16) (handle : ℕ) :
    Ends Fault.Benign (w.dialStart d remote draw handle)
      (Moved w (.dialStart d remote draw handle)) := by
  rw [dialStart]
  refine (require_ends _).bind fun _ hnone => ?_
  have hfree : w.dials.find d = none := by simpa using hnone
  split
  · exact .dialRefused hfree
  · refine (SocketSet.add_ends _ _ _).bind ?_
    rintro _ ⟨h, rest, he, hfresh, rfl⟩
    obtain ⟨rfl, -⟩ := List.cons.inj he
    exact .dialStart hfree hfresh

lemma dialDrop_moved (d : ℕ) (wall : ℤ) :
    Ends Fault.Benign (w.dialDrop d wall) (Moved w (.dialDrop d wall)) := by
  rw [dialDrop]
  split
  · next hd => exact .dialDropLost hd
  · next h deadline hd =>
    obtain ⟨t, ht⟩ := hi.of_dial hd rfl
    have hf := SocketSet.getTcp_eq_ok.mp ht
    rw [dropStream_eq wall hf]
    exact .dialDrop hd hf
  · exact Or.inr rfl

lemma pollConnect_moved (n : ℕ) {deadline now wall : ℤ} (hd : w.dials.find d = some dial)
    (hs : dial.Streams h) :
    Ends Fault.Benign ((w.answer (.dial d)).pollConnect d h deadline now wall) fun r =>
      Moved w (.poll n (.dial d now wall)) r.2 := by
  obtain ⟨t, ht⟩ := hi.of_dial hd hs.handle?
  have hf : w.net.sockets.find h = some (.tcp t) := SocketSet.getTcp_eq_ok.mp ht
  rw [pollConnect, show (w.answer (.dial d)).net.sockets.getTcp h = .ok t from ht, ok_bind]
  have hwait : t.waitConnected = .pending ↔ ¬t.state.Decisive := by
    cases hst : t.state <;> simp [TcpSocket.waitConnected, TcpState.Decisive, hst]
  cases hst : t.waitConnected with
  | ready r =>
    have hest : r = .ok () ↔ t.state = .established := by
      rw [TcpSocket.waitConnected] at hst
      split at hst <;> cases hst <;> simp_all
    cases r with
    | ok u => exact .dialConnected hd hs hf (hest.mp rfl)
    | error e =>
      rw [dropStream_eq (s := (w.answer (.dial d)).net) wall hf]
      have hm : Moved w (.poll n (.dial d now wall))
          ((((w.answer (.dial d)).wait []).closeStream h t wall).setDial d
            (.over (.failed e) none)) :=
        .dialFailed hd hs hf fun he => by simpa using hest.mpr he
      simpa only [wait, closeStream, setDial, answer, List.append_nil, ok_bind, pure_eq_ok,
        Ends.ok_iff] using hm
  | pending =>
    simp only
    split
    · rw [dropStream_eq (s := (w.answer (.dial d)).net.park (.dial d)) wall hf]
      exact .dialFailed hd hs hf (fun he => hwait.mp hst (Or.inl he))
    · exact .dialParked hd hs hf (hwait.mp hst)

lemma pollDial_moved (n d : ℕ) (now wall : ℤ) :
    Ends Fault.Benign ((w.answer (.dial d)).pollDial d now wall) fun r =>
      Moved w (.poll n (.dial d now wall)) r.2 := by
  rw [pollDial]
  split
  · next hd => exact .dialWaits hd
  · next hd => exact .dialLost hd (by simp)
  · next hd => exact .dialLost hd (by simp)
  · next hd => exact pollConnect_moved hi n hd (Or.inl rfl)
  · next hd => exact pollConnect_moved hi n hd (Or.inr ⟨_, rfl⟩)
  · exact Or.inr rfl

omit hi in
lemma pollRead_used (t : TcpSocket) (n : ℕ) : t.Used (t.pollRead n).2 := by
  rw [TcpSocket.pollRead_eq]
  split <;> exact ⟨rfl, rfl, Or.inl rfl⟩

omit hi in
lemma pollWrite_used (t : TcpSocket) (data : List UInt8) : t.Used (t.pollWrite data).2 := by
  simp only [TcpSocket.pollWrite, TcpSocket.sendSlice]
  split
  · exact ⟨rfl, rfl, Or.inl rfl⟩
  · split
    · split
      · next hs =>
        split at hs
        · cases hs
          exact ⟨rfl, rfl, Or.inl rfl⟩
        · cases hs
      · exact ⟨rfl, rfl, Or.inl rfl⟩
    · exact ⟨rfl, rfl, Or.inl rfl⟩

omit hi in
lemma recvFrom_endpoint (u : UdpSocket) (n : ℕ) : (u.recvFrom n).2.endpoint = u.endpoint := by
  rw [UdpSocket.recvFrom]
  split
  · split
    · split <;> rfl
    · rfl
  · rfl

omit hi in
lemma sendTo_endpoint (u : UdpSocket) (data : List UInt8) (target : IpEndpoint) (room : Bool) :
    (u.sendTo data target room).2.endpoint = u.endpoint := by
  have hsend : (u.sendSlice data target room).2.endpoint = u.endpoint := by
    rw [UdpSocket.sendSlice]
    split <;> rfl
  rw [UdpSocket.sendTo]
  split
  · rfl
  · split
    · split
      · next hs => rw [← hsend, hs]
      · next hs => rw [← hsend, hs]
    · rfl

lemma streamUsed_moved {β : Type} (n : ℕ) {op : Operation} (ho : op.dial? = none)
    (hm : h ∈ w.streams) (f : β → Reply)
    (g : TcpSocket → Poll β × TcpSocket) (hg : ∀ t : TcpSocket, t.Used (g t).2) :
    Ends Fault.Benign
      ((w.answer (.task n)).onNet f ((w.answer (.task n)).net.pollTcp h (.task n) g)) fun r =>
      Moved w (.poll n op) r.2 := by
  obtain ⟨t, hf⟩ := tcpView.exists_find (hi.of_stream hm)
  rw [onNet, NetstackState.pollTcp,
    tcpView.pollSocket_eq (s := (w.answer (.task n)).net) (.task n) g hf]
  exact .streamUsed ho hm hf (hg t)

lemma udpUsed_moved {β : Type} (n : ℕ) {op : Operation} (ho : op.dial? = none)
    (hm : h ∈ w.udpSockets) (f : β → Reply)
    (g : UdpSocket → Poll β × UdpSocket) (hg : ∀ u : UdpSocket, (g u).2.endpoint = u.endpoint) :
    Ends Fault.Benign
      ((w.answer (.task n)).onNet f ((w.answer (.task n)).net.pollUdp h (.task n) g)) fun r =>
      Moved w (.poll n op) r.2 := by
  obtain ⟨u, hf⟩ := udpView.exists_find (hi.of_udp hm)
  rw [onNet, NetstackState.pollUdp,
    udpView.pollSocket_eq (s := (w.answer (.task n)).net) (.task n) g hf]
  exact .udpUsed ho hm hf (hg u)

lemma pingUsed_moved {β : Type} (n : ℕ) {op : Operation} (ho : op.dial? = none)
    (hm : h ∈ w.pingSockets.map Prod.fst) (f : β → Reply)
    (g : IcmpSocket → Poll β × IcmpSocket) :
    Ends Fault.Benign
      ((w.answer (.task n)).onNet f ((w.answer (.task n)).net.pollIcmp h (.task n) g)) fun r =>
      Moved w (.poll n op) r.2 := by
  obtain ⟨i, hf⟩ := icmpView.exists_find (hi.of_ping hm)
  rw [onNet, NetstackState.pollIcmp,
    icmpView.pollSocket_eq (s := (w.answer (.task n)).net) (.task n) g hf]
  exact .pingUsed ho hm hf

omit hi in
lemma accept_moved (n : ℕ) (port : UInt16) :
    Ends Fault.Benign ((w.answer (.task n)).pollOp (.task n) (.accept port)) fun r =>
      Moved w (.poll n (.accept port)) r.2 := by
  rw [pollOp]
  refine (require_ends _).bind fun _ _ => ?_
  rw [NetstackState.accept, show (w.answer (.task n)).net = w.net from rfl]
  rcases ha : NetstackState.acceptFrom port (.task n) w.net.listeners with ⟨_ | _, listeners⟩
  · exact .accepted ha
  · exact .acceptParked ha

lemma poll_moved (n : ℕ) (op : Operation) :
    Ends Fault.Benign (w.poll n op) fun r => Moved w (.poll n op) r.2 := by
  cases op with
  | dial d now wall => exact pollDial_moved hi n d now wall
  | accept port => exact accept_moved n port
  | read h k =>
    exact (require_ends _).bind fun _ hm =>
      streamUsed_moved hi n rfl hm _ _ fun t => pollRead_used t k
  | write h data =>
    exact (require_ends _).bind fun _ hm =>
      streamUsed_moved hi n rfl hm _ _ fun t => pollWrite_used t data
  | shutdown h =>
    exact (require_ends _).bind fun _ hm => streamUsed_moved hi n rfl hm _ _ fun t =>
      ⟨rfl, rfl, Or.inr rfl⟩
  | recvFrom h k =>
    exact (require_ends _).bind fun _ hm =>
      udpUsed_moved hi n rfl hm _ _ fun u => recvFrom_endpoint u k
  | sendTo h data target room =>
    exact (require_ends _).bind fun _ hm => udpUsed_moved hi n rfl hm _ _ fun u =>
      sendTo_endpoint u data target room
  | sendEcho h dst seq payload room =>
    rw [poll, pollOp]
    split
    · exact Or.inr rfl
    · next ident hm => exact pingUsed_moved hi n rfl (List.mem_map_of_mem (mem_of_lookup hm)) _ _
  | recvReply h k => exact (require_ends _).bind fun _ hm => pingUsed_moved hi n rfl hm _ _

omit hi in
lemma listenTcp_moved (port : UInt16) (supply : List ℕ) :
    Ends Fault.Benign (w.exec (.listenTcp port supply)) (Moved w (.listenTcp port supply)) := by
  refine (listenTcp_ends w.net supply w.ourAddr port).bind ?_
  rintro _ (⟨rfl, h, hfresh, rfl⟩ | ⟨hp, handles, hn, hfresh, hlen, rfl⟩)
  · exact .listenFailed hfresh
  · exact .listened hp hn hfresh hlen

omit hi in
lemma bindUdpAt_moved {a : Action} {ep : IpListenEndpoint} (hb : w.bindsAt a = some ep)
    (hp : ep.port ≠ 0) (supply : List ℕ) :
    Ends Fault.Benign (do
      let (r, net) ← w.net.bindUdpAt ep supply
      match r with
      | .ok h => return { w with net, udpSockets := w.udpSockets ++ [h] }
      | .error _ => return { w with net }) (Moved w a) := by
  refine (bindUdpAt_ends w.net supply ep).bind ?_
  rintro _ ⟨h, hfresh, rfl⟩
  rw [if_neg hp]
  exact .bound hb hp hfresh

omit hi in
lemma bindUdp_moved (port : UInt16) (supply : List ℕ) :
    Ends Fault.Benign (w.exec (.bindUdp port supply)) (Moved w (.bindUdp port supply)) := by
  by_cases hp : port = 0
  · subst hp
    refine (bindUdpAt_ends w.net supply (NetstackState.ourEndpoint w.ourAddr 0)).bind ?_
    rintro _ ⟨h, hfresh, rfl⟩
    exact .bindFailed hfresh
  · exact bindUdpAt_moved (a := .bindUdp port supply) rfl hp supply

omit hi in
lemma openUdp_moved (draw : UInt16) (supply : List ℕ) :
    Ends Fault.Benign (w.exec (.openUdp draw supply)) (Moved w (.openUdp draw supply)) :=
  bindUdpAt_moved (a := .openUdp draw supply) rfl (ephemeralPort_ne_zero draw) supply

lemma drop_moved (h : ℕ) (wall : ℤ) :
    Ends Fault.Benign (w.exec (.dropStream h wall)) (Moved w (.dropStream h wall)) ∧
      Ends Fault.Benign (w.exec (.dropUdp h)) (Moved w (.dropUdp h)) ∧
      Ends Fault.Benign (w.exec (.dropPing h)) (Moved w (.dropPing h)) := by
  refine ⟨(require_ends _).bind fun _ hm => ?_, (require_ends _).bind fun _ hm => ?_, ?_⟩
  · obtain ⟨t, hf⟩ := tcpView.exists_find (hi.of_stream hm)
    rw [dropStream_eq wall hf]
    exact .streamDropped hm hf
  · obtain ⟨u, hf⟩ := udpView.exists_find (hi.of_udp hm)
    rw [dropSocket_eq hf]
    exact .udpDropped hm
  · rw [exec]
    split
    · exact Or.inr rfl
    · next ident hm =>
      have hmem := mem_of_lookup hm
      obtain ⟨i, hf⟩ := icmpView.exists_find (hi.of_ping (List.mem_map_of_mem hmem))
      rw [dropSocket_eq hf]
      exact .pingDropped hmem

lemma pollerCycle_moved (i : CycleInput) :
    Ends Fault.Benign (w.pollerCycle i) (Moved w (.pollerCycle i)) := by
  rw [pollerCycle]
  refine (require_ends _).bind fun _ _ => ?_
  rcases NetstackState.cycle_spec i hi.ledger (fun cmd hc => hi.of_pending hc) with
    he | ⟨dialed, served, results, net, woken, he, hc⟩
  · rw [he]
    exact Or.inl rfl
  · rw [he]
    exact .pollerCycled hc

lemma exec_moved (a : Action) : Ends Fault.Benign (w.exec a) (Moved w a) := by
  cases a with
  | dialStart d remote draw handle => exact dialStart_moved d remote draw handle
  | dialQueue d =>
    rw [exec, dialQueue]
    split
    · next hd => exact .dialQueue hd
    · exact Or.inr rfl
  | dialDrop d wall => exact dialDrop_moved hi d wall
  | poll task op => exact (poll_moved hi task op).bind fun r hr => hr
  | listenTcp port supply => exact listenTcp_moved port supply
  | dropListener port => exact (require_ends _).bind fun _ _ => .listenerDropped
  | bindUdp port supply => exact bindUdp_moved port supply
  | openUdp draw supply => exact openUdp_moved draw supply
  | openIcmp ident supply =>
    refine (openIcmp_ends w.net supply ident).bind ?_
    rintro _ ⟨h, hfresh, rfl⟩
    exact .pingOpened hfresh
  | dropStream h wall => exact (drop_moved hi h wall).1
  | dropUdp h => exact (drop_moved hi h 0).2.1
  | dropPing h => exact (drop_moved hi h 0).2.2
  | pollerCheck => exact (require_ends _).bind fun _ _ => .pollerChecked
  | pollerCycle i => exact pollerCycle_moved hi i
  | pollerExit => exact (require_ends _).bind fun _ _ => .pollerExited
  | shutdown => exact .shutdown

lemma moved_of_step {a : Action} {w' : World} (hs : Step w a w') : Moved w a w' :=
  (exec_moved hi a).of_ok hs

lemma cycled_of_step {i : CycleInput} {w' : World} (hs : Step w (.pollerCycle i) w') :
    ∃ dialed served results, Cycled w.net i dialed served results w'.net := by
  cases moved_of_step hi hs with
  | pollerCycled hc => exact ⟨_, _, _, hc⟩
  | bound hb => cases hb

end Steps

lemma closed_moved {w w' : World} {a : Action} (hm : Moved w a w') (ha : a ≠ .shutdown) :
    w'.net.closed = w.net.closed := by
  cases hm with
  | shutdown => exact absurd rfl ha
  | pollerCycled hc => exact hc.closed
  | _ => rfl

end World

end Yggstack.Netstack
