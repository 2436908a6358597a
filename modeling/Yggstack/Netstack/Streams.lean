import Yggstack.Library.Fifo
import Yggstack.Netstack.Objects

namespace Yggstack.Netstack

open Library

/-- What a poll of the interface does to the buffers of a TCP socket: it adds what arrives at the
end of one and takes what is acknowledged from the front of the other. -/
structure TcpSocket.Streamed (t t' : TcpSocket) : Prop where
  rx : t.rx <+: t'.rx
  tx : t'.tx <:+ t.tx

lemma TcpSocket.pollRead_conserves (t : TcpSocket) (n : ℕ) :
    (∃ bytes, (t.pollRead n).1 = .ready (.ok bytes) ∧ t.rx = bytes ++ (t.pollRead n).2.rx ∧
      (bytes = [] → 0 < n → t.mayRecv = false ∧ t.rx = [])) ∧ (t.pollRead n).2.tx = t.tx ∨
    t.pollRead n = (.pending, t) := by
  rw [TcpSocket.pollRead_eq]
  split
  · rename_i hc
    obtain ⟨-, hrx⟩ : t.mayRecv = true ∧ t.rx ≠ [] := by simpa [TcpSocket.canRecv] using hc.1
    refine .inl ⟨⟨_, rfl, (List.take_append_drop n t.rx).symm, fun hnil hn => ?_⟩, rfl⟩
    rcases List.take_eq_nil_iff.mp hnil with h | h
    · omega
    · exact absurd h hrx
  · cases hm : t.mayRecv with
    | true => exact .inr rfl
    | false =>
      refine .inl ⟨⟨[], rfl, rfl, fun _ _ => ⟨rfl, ?_⟩⟩, rfl⟩
      unfold TcpSocket.mayRecv at hm
      split at hm
      · cases hm
      · cases hm
      · cases hm
      · simpa using hm

lemma TcpSocket.pollWrite_conserves (t : TcpSocket) (data : List UInt8) :
    (∃ n, (t.pollWrite data).1 = .ready (.ok n) ∧ (t.pollWrite data).2.tx = t.tx ++ data.take n ∧
      (t.pollWrite data).2.rx = t.rx) ∨
    (∃ e, t.pollWrite data = (.ready (.error e), t)) ∨ t.pollWrite data = (.pending, t) := by
  unfold TcpSocket.pollWrite
  cases hs : t.maySend with
  | false => exact .inr (.inl ⟨_, rfl⟩)
  | true =>
    cases hc : t.canSend with
    | false => exact .inr (.inr rfl)
    | true =>
      refine .inl ⟨(data.take (tcpBuffer - t.tx.length)).length, ?_⟩
      simp [TcpSocket.sendSlice, hs]

def Poll.answer? {α : Type} : Poll (IoResult α) → Option α
  | .ready (.ok a) => some a
  | _ => none

def Poll.reply? {α : Type} : Poll α → Option α
  | .ready a => some a
  | .pending => none

abbrev Datagram := List UInt8 × IpEndpoint

namespace Reply

def bytes? : Reply → Option (List UInt8)
  | .bytes (.ok data) => some data
  | _ => none

def datagram? : Reply → Option Datagram
  | .datagram (.ok d) => some d
  | _ => none

def count? : Reply → Option ℕ
  | .count (.ok n) => some n
  | _ => none

lemma datagram?_of_map (q : Poll (IoResult Datagram)) :
    (q.map .datagram).reply?.bind datagram? = q.answer? := by
  rcases q with (e | d) | _ <;> rfl

lemma count?_of_map (q : Poll (IoResult ℕ)) : (q.map .count).reply?.bind count? = q.answer? := by
  rcases q with (e | d) | _ <;> rfl

end Reply

namespace World

def replyTo (w : World) : Action → Option Reply
  | .poll n op =>
    match w.poll n op with
    | .ok (r, _) => r.reply?
    | .error _ => none
  | _ => none

section Bytes

variable (h : ℕ) (w : World)

def tcpAt : Option TcpSocket := (w.net.sockets.find h).bind Socket.tcp?

def rxBytes : List UInt8 := (w.tcpAt h).elim [] TcpSocket.rx

def txBytes : List UInt8 := (w.tcpAt h).elim [] TcpSocket.tx

def readBy : Action → List UInt8
  | .poll n (.read j k) =>
    if j = h then ((w.replyTo (.poll n (.read j k))).bind Reply.bytes?).getD [] else []
  | _ => []

def writtenBy : Action → List UInt8
  | .poll n (.write j data) =>
    if j = h then ((w.replyTo (.poll n (.write j data))).bind Reply.count?).elim [] data.take
    else []
  | _ => []

def arrivedBy : Action → List UInt8
  | .pollerCycle i => (w.tcpAt h).elim [] fun t => (i.effect.tcp h t).rx.drop t.rx.length
  | _ => []

def sentBy : Action → List UInt8
  | .pollerCycle i =>
    (w.tcpAt h).elim [] fun t => t.tx.take (t.tx.length - (i.effect.tcp h t).tx.length)
  | _ => []

def Streaming (a : Action) : Prop :=
  a.drops? ≠ some h ∧ ∀ i t, a = .pollerCycle i → w.tcpAt h = some t →
    t.Streamed (i.effect.tcp h t)

end Bytes

variable {w w' : World} {a : Action} {h n : ℕ} {op : Operation} {r : Poll Reply}

lemma tcpAt_of_stream (hi : Inv w) (hm : h ∈ w.streams) :
    ∃ t, w.net.sockets.find h = some (.tcp t) ∧ w.tcpAt h = some t := by
  obtain ⟨t, hf⟩ := tcpView.exists_find (hi.of_stream hm)
  exact ⟨t, hf, by rw [tcpAt, hf]; rfl⟩

lemma tcpAt_polled (t : TcpSocket) (q : Poll Reply) : (w.polled n h (q, .tcp t)).tcpAt h = some t := by
  rw [tcpAt, polled, wait, putSocket, Store.find_insert_self]
  rfl

lemma replyTo_poll {w₁ : World} (hp : w.poll n op = .ok (r, w₁)) :
    w.replyTo (.poll n op) = r.reply? := by
  rw [replyTo, hp]

lemma stream_called {β : Type} {reply : β → Reply} {f : TcpSocket → Poll β × TcpSocket} (hi : Inv w)
    (hm : h ∈ w.streams) (hop : op.socket? = some h)
    (hc : w.call op = some (h, .stream, Socket.lift Socket.tcp? .tcp reply f))
    (hp : w.poll n op = .ok (r, w')) :
    ∃ t, w.tcpAt h = some t ∧ w.replyTo (.poll n op) = ((f t).1.map reply).reply? ∧
      w'.tcpAt h = some (f t).2 := by
  obtain ⟨t, hft, ht⟩ := tcpAt_of_stream hi hm
  obtain ⟨p, g, sock, hcall, -, -, hf, hr, hw⟩ := poll_call hi hop hp
  rw [hc] at hcall
  cases hcall
  rw [hf] at hft
  cases hft
  refine ⟨t, ht, ?_, ?_⟩
  · rw [replyTo_poll hp, hr]
    rfl
  · rw [hw]
    exact tcpAt_polled _ _

lemma bytes_called (hi : Inv w) (hm : h ∈ w.streams) (hop : op.socket? = some h)
    (hp : w.poll n op = .ok (r, w')) :
    w.rxBytes h = readBy h w (.poll n op) ++ w'.rxBytes h ∧
      w.txBytes h ++ writtenBy h w (.poll n op) = w'.txBytes h := by
  have hcallee := callee_of_poll hi (p := .stream) hm hop hp
  cases op with
  | read j k =>
    obtain rfl : j = h := Option.some.inj hop
    obtain ⟨t, ht, hreply, ht'⟩ := stream_called hi hm hop rfl hp
    simp only [rxBytes, txBytes, readBy, writtenBy, ht, ht', hreply, Option.elim]
    rcases t.pollRead_conserves k with ⟨⟨bytes, hready, hrx, -⟩, htx⟩ | hpend
    · simp [hready, htx, hrx, Poll.map, Poll.reply?, Reply.bytes?]
    · simp [hpend, Poll.map, Poll.reply?]
  | write j data =>
    obtain rfl : j = h := Option.some.inj hop
    obtain ⟨t, ht, hreply, ht'⟩ := stream_called hi hm hop rfl hp
    simp only [rxBytes, txBytes, readBy, writtenBy, ht, ht', hreply, Option.elim]
    rcases t.pollWrite_conserves data with ⟨k, hready, htx, hrx⟩ | ⟨e, hfail⟩ | hpend
    · simp [hready, htx, hrx, Poll.map, Poll.reply?, Reply.count?]
    · simp [hfail, Poll.map, Poll.reply?, Reply.count?]
    · simp [hpend, Poll.map, Poll.reply?]
  | shutdown j =>
    obtain rfl : j = h := Option.some.inj hop
    obtain ⟨t, ht, -, ht'⟩ := stream_called hi hm hop rfl hp
    simp [rxBytes, txBytes, readBy, writtenBy, ht, ht', TcpSocket.pollShutdown, TcpSocket.close]
  | _ => cases hcallee

lemma moved_bytes_of_not_used (hu : a.uses? ≠ some h) :
    readBy h w a = [] ∧ writtenBy h w a = [] := by
  constructor
  · unfold readBy
    split
    · exact if_neg fun he => hu (congrArg some he)
    · rfl
  · unfold writtenBy
    split
    · exact if_neg fun he => hu (congrArg some he)
    · rfl

lemma bytes_step (hi : Inv w) (hm : h ∈ w.streams) (hs : Step w a w') (ha : Streaming h w a) :
    w.rxBytes h ++ arrivedBy h w a = readBy h w a ++ w'.rxBytes h ∧
      w.txBytes h ++ writtenBy h w a = sentBy h w a ++ w'.txBytes h := by
  by_cases hu : a.uses? = some h
  · cases a with
    | poll n op =>
      obtain ⟨⟨r, v⟩, hr, hv⟩ := bind_eq_ok.mp hs
      cases hv
      obtain ⟨hrx, htx⟩ := bytes_called hi hm hu hr
      exact ⟨by rw [← hrx]; simp [arrivedBy], by rw [htx]; simp [sentBy]⟩
    | _ => cases hu
  · obtain ⟨hread, hwritten⟩ := moved_bytes_of_not_used (w := w) hu
    obtain ⟨t, hf, ht⟩ := tcpAt_of_stream hi hm
    rw [hread, hwritten]
    rcases framed_step hi (p := .stream) hm rfl hs hu ha.1 with ⟨hne, hsame⟩ | ⟨i, rfl, hcycle⟩ |
      ⟨rfl, hstop⟩
    · have ht' : w'.tcpAt h = some t := by rw [tcpAt, hsame, hf]; rfl
      cases a with
      | pollerCycle i => exact absurd rfl (hne i)
      | _ => simp [rxBytes, txBytes, ht, ht', arrivedBy, sentBy]
    · have ht' : w'.tcpAt h = some (i.effect.tcp h t) := by rw [tcpAt, hcycle, hf]; rfl
      obtain ⟨hrx, htx⟩ := ha.2 i t rfl ht
      obtain ⟨arrived, harrived⟩ := hrx
      obtain ⟨sent, hsent⟩ := htx
      simp [rxBytes, txBytes, ht, ht', arrivedBy, sentBy, ← harrived, ← hsent]
    · have ht' : w'.tcpAt h = some t.abort := by rw [tcpAt, hstop, hf]; rfl
      simp [rxBytes, txBytes, ht, ht', arrivedBy, sentBy, TcpSocket.abort]

lemma rxBytes_of_eof (hi : Inv w) (hm : h ∈ w.streams) {k : ℕ} (hk : 0 < k) {v : World}
    (hp : w.poll n (.read h k) = .ok (.ready (.bytes (.ok [])), v)) : w.rxBytes h = [] := by
  obtain ⟨t, ht, hreply, -⟩ := stream_called hi hm rfl rfl hp
  rw [replyTo_poll hp] at hreply
  rcases t.pollRead_conserves k with ⟨⟨bytes, hready, -, heof⟩, -⟩ | hpend
  · rw [hready] at hreply
    cases hreply
    rw [rxBytes, ht]
    exact (heof rfl hk).2
  · rw [hpend] at hreply
    cases hreply

/-- Whatever else goes on, a stream gives its bytes in the order in which they arrived and sends
them in the order in which they were written, each once; and what has not been read is still there,
so that the end of the stream is only reported when all has been read. -/
theorem tcp_bytes_in_order {actions : List Action} (hr : Reachable w) (hm : h ∈ w.streams)
    (hrun : Run (fun w a w' => Step w a w' ∧ Streaming h w a) w actions w') :
    w.rxBytes h ++ along exec (arrivedBy h) w actions =
      along exec (readBy h) w actions ++ w'.rxBytes h ∧
    w.txBytes h ++ along exec (writtenBy h) w actions =
      along exec (sentBy h) w actions ++ w'.txBytes h ∧
    ∀ n k v, 0 < k → w'.poll n (.read h k) = .ok (.ready (.bytes (.ok [])), v) →
      along exec (readBy h) w actions = w.rxBytes h ++ along exec (arrivedBy h) w actions := by
  let kept (v : World) : Prop := Inv v ∧ h ∈ v.streams
  have hstep : ∀ v a v', kept v → Step v a v' ∧ Streaming h v a → kept v' := by
    rintro v a v' ⟨hi, hm⟩ ⟨hs, ha⟩
    exact ⟨inv_step v a v' hi hs, object_step (p := .stream) hi hs ha.1 rfl hm⟩
  have hrx := along_conserved hrun (I := kept) ⟨hr.inv, hm⟩
    fun v a v' hk hs => ⟨hs.1, hstep v a v' hk hs, (bytes_step hk.1 hk.2 hs.1 hs.2).1⟩
  have htx := along_conserved hrun (I := kept) ⟨hr.inv, hm⟩
    fun v a v' hk hs => ⟨hs.1, hstep v a v' hk hs, (bytes_step hk.1 hk.2 hs.1 hs.2).2⟩
  refine ⟨hrx, htx, fun n k v hk hp => ?_⟩
  obtain ⟨hi', hm'⟩ := hrun.invariant (I := kept) ⟨hr.inv, hm⟩ hstep
  rw [hrx, rxBytes_of_eof hi' hm' hk hp, List.append_nil]

def exchanges (h : ℕ) (data : List UInt8) (k : ℕ) : CycleInput where
  effect := {
    tcp j t := if j = h then { t with rx := t.rx ++ data, tx := t.tx.drop k } else t
    udp _ u := u
    icmp _ i := i }
  serviceNow := 0
  reapNow := 0
  supply := []

def twoReads : List Action := [.poll 1 (.read 3 2), .poll 2 (.write 3 [7, 8]), .pollerCheck,
  .pollerCycle (exchanges 3 [4] 1), .poll 1 (.read 3 5)]

theorem two_bytes_read_in_order : ∃ w w', Reachable w ∧ 3 ∈ w.streams ∧ Run Step w twoReads w' ∧
    w.rxBytes 3 = [1, 2, 3] ∧ along exec (readBy 3) w twoReads = [1, 2, 3, 4] ∧
    along exec (sentBy 3) w twoReads = [7] ∧
    w.rxBytes 3 ++ along exec (arrivedBy 3) w twoReads =
      along exec (readBy 3) w twoReads ++ w'.rxBytes 3 := by
  have hr := Reachable.of_runAll 1 false (fun _ => some (.ipv6 1))
    (dialRun .established [1, 2, 3] ++ [.poll 0 (.dial 7 0 0)]) rfl
  obtain ⟨w, w', hr, hm, hrun, hrx, hread, hsent⟩ : ∃ w w', Reachable w ∧ 3 ∈ w.streams ∧
      Run Step w twoReads w' ∧ w.rxBytes 3 = [1, 2, 3] ∧
      along exec (readBy 3) w twoReads = [1, 2, 3, 4] ∧ along exec (sentBy 3) w twoReads = [7] :=
    ⟨_, _, hr, by decide, .of_runAll rfl, rfl, rfl, rfl⟩
  have hguard : ∀ a ∈ twoReads, ∀ u : World, u.Streaming 3 a := by
    intro a ha u
    simp only [twoReads, List.mem_cons, List.not_mem_nil, or_false] at ha
    rcases ha with rfl | rfl | rfl | rfl | rfl <;>
      refine ⟨by simp [Action.drops?], fun i t hi _ => ?_⟩ <;> cases hi
    exact ⟨List.prefix_append _ _, List.drop_suffix _ _⟩
  have hkept := hrun.guard (p := fun u a => u.Streaming 3 a) hguard
  exact ⟨w, w', hr, hm, hrun, hrx, hread, hsent, (tcp_bytes_in_order hr hm hkept).1⟩

section Datagrams

variable (h : ℕ) (w : World)

def udpAt : Option UdpSocket := (w.net.sockets.find h).bind Socket.udp?

def rxQueue : List Datagram := (w.udpAt h).elim [] fun u => u.queues.rx

def txQueue : List Datagram := (w.udpAt h).elim [] fun u => u.queues.tx

def takenBy : Action → List (ℕ × Datagram)
  | .poll _ (.recvFrom j n) => if j = h then (w.rxQueue h).head?.toList.map fun d => (n, d) else []
  | _ => []

def receivedBy : Action → List Datagram
  | .poll n (.recvFrom j k) =>
    if j = h then ((w.replyTo (.poll n (.recvFrom j k))).bind Reply.datagram?).toList else []
  | _ => []

def sentToBy : Action → List Datagram
  | .poll n (.sendTo j data target room) =>
    if j = h ∧ ((w.replyTo (.poll n (.sendTo j data target room))).bind Reply.count?).isSome then
      [(data, target)] else []
  | _ => []

def queuedBy : Action → List Datagram
  | .pollerCycle i =>
    (w.udpAt h).elim [] fun u => (i.effect.udp h u).queues.rx.drop u.queues.rx.length
  | _ => []

def dispatchedBy : Action → List Datagram
  | .pollerCycle i => (w.udpAt h).elim [] fun u =>
    u.queues.tx.take (u.queues.tx.length - (i.effect.udp h u).queues.tx.length)
  | _ => []

def deliver (x : ℕ × Datagram) : Option Datagram :=
  match x.2.2.addr with
  | .ipv6 _ => if x.2.1.length ≤ x.1 then some x.2 else none
  | .ipv4 _ => none

def Queuing (a : Action) : Prop :=
  a.drops? ≠ some h ∧ ∀ i u, a = .pollerCycle i → w.udpAt h = some u →
    u.queues.rx <+: (i.effect.udp h u).queues.rx ∧ (i.effect.udp h u).queues.tx <:+ u.queues.tx

end Datagrams

end World

lemma UdpSocket.recvFrom_takes (u : UdpSocket) (n : ℕ) :
    (u.recvFrom n).2.queues.rx = u.queues.rx.tail ∧ (u.recvFrom n).2.queues.tx = u.queues.tx ∧
      (u.recvFrom n).1.answer? = u.queues.rx.head?.bind fun x => World.deliver (n, x) := by
  unfold UdpSocket.recvFrom
  cases hrx : u.queues.rx with
  | nil => simp [PacketQueues.canRecv, Poll.answer?, hrx]
  | cons x rest =>
    obtain ⟨data, addr, port⟩ := x
    by_cases hlen : data.length ≤ n
    · cases addr <;>
        simp [PacketQueues.canRecv, PacketQueues.recvSlice, World.deliver, Poll.answer?, hrx, hlen]
    · cases addr <;>
        simp [PacketQueues.canRecv, PacketQueues.recvSlice, World.deliver, Poll.answer?, hrx, hlen]

lemma UdpSocket.sendTo_adds (u : UdpSocket) (data : List UInt8) (target : IpEndpoint) (room : Bool) :
    (u.sendTo data target room).2.queues.rx = u.queues.rx ∧
    ((u.sendTo data target room).1.answer?.isSome = true ∧
      (u.sendTo data target room).2.queues.tx = u.queues.tx ++ [(data, target)] ∨
    (u.sendTo data target room).1.answer? = none ∧
      (u.sendTo data target room).2.queues.tx = u.queues.tx) := by
  obtain ⟨addr, port⟩ := target
  cases addr with
  | ipv4 bits => exact ⟨rfl, .inr ⟨rfl, rfl⟩⟩
  | ipv6 bits =>
    cases hc : u.queues.canSend with
    | false => simp [UdpSocket.sendTo, Poll.answer?, hc]
    | true =>
      by_cases hun : u.endpoint.port = 0 ∨ (IpAddress.ipv6 bits).isUnspecified ∨ port = 0
      · simp [UdpSocket.sendTo, UdpSocket.sendSlice, Poll.answer?, hc, hun]
      · cases room <;>
          simp [UdpSocket.sendTo, UdpSocket.sendSlice, PacketQueues.sendSlice, Poll.answer?, hc, hun]

namespace World

variable {w w' : World} {a : Action} {h n : ℕ} {op : Operation} {r : Poll Reply}

lemma udpAt_of_socket (hi : Inv w) (hm : h ∈ w.udpSockets) :
    ∃ u, w.net.sockets.find h = some (.udp u) ∧ w.udpAt h = some u := by
  obtain ⟨u, hf⟩ := udpView.exists_find (hi.of_udp hm)
  exact ⟨u, hf, by rw [udpAt, hf]; rfl⟩

lemma udp_called {β : Type} {reply : β → Reply} {f : UdpSocket → Poll β × UdpSocket} (hi : Inv w)
    (hm : h ∈ w.udpSockets) (hop : op.socket? = some h)
    (hc : w.call op = some (h, .udp, Socket.lift Socket.udp? .udp reply f))
    (hp : w.poll n op = .ok (r, w')) :
    ∃ u, w.udpAt h = some u ∧ w.replyTo (.poll n op) = ((f u).1.map reply).reply? ∧
      w'.udpAt h = some (f u).2 := by
  obtain ⟨u, hfu, hu⟩ := udpAt_of_socket hi hm
  obtain ⟨p, g, sock, hcall, -, -, hf, hr, hw⟩ := poll_call hi hop hp
  rw [hc] at hcall
  cases hcall
  rw [hf] at hfu
  cases hfu
  refine ⟨u, hu, ?_, ?_⟩
  · rw [replyTo_poll hp, hr]
    rfl
  · rw [hw, udpAt, polled, wait, putSocket, Store.find_insert_self]
    rfl

structure DatagramsMoved (h : ℕ) (w : World) (a : Action) (w' : World) : Prop where
  rx : w.rxQueue h ++ queuedBy h w a = (takenBy h w a).map Prod.snd ++ w'.rxQueue h
  received : receivedBy h w a = (takenBy h w a).filterMap deliver
  tx : w.txQueue h ++ sentToBy h w a = dispatchedBy h w a ++ w'.txQueue h

lemma datagrams_called (hi : Inv w) (hm : h ∈ w.udpSockets) (hop : op.socket? = some h)
    (hp : w.poll n op = .ok (r, w')) : DatagramsMoved h w (.poll n op) w' := by
  have hcallee := callee_of_poll hi (p := .udp) hm hop hp
  cases op with
  | recvFrom j k =>
    obtain rfl : j = h := Option.some.inj hop
    obtain ⟨u, hu, hreply, hu'⟩ := udp_called hi hm hop rfl hp
    obtain ⟨hrx, htx, hok⟩ := u.recvFrom_takes k
    have hreceived : receivedBy j w (.poll n (.recvFrom j k)) =
        (u.queues.rx.head?.bind fun x => deliver (k, x)).toList := by
      rw [receivedBy, if_pos rfl, hreply, Reply.datagram?_of_map, hok]
    have htaken : takenBy j w (.poll n (.recvFrom j k)) =
        u.queues.rx.head?.toList.map fun d => (k, d) := by simp [takenBy, rxQueue, hu]
    refine ⟨?_, ?_, ?_⟩
    · rw [htaken]
      cases hq : u.queues.rx <;> simp [rxQueue, queuedBy, hu, hu', hrx, hq]
    · rw [hreceived, htaken]
      cases u.queues.rx.head? with
      | none => rfl
      | some x => cases hd : deliver (k, x) <;> simp [hd]
    · simp [txQueue, sentToBy, dispatchedBy, hu, hu', htx]
  | sendTo j data target room =>
    obtain rfl : j = h := Option.some.inj hop
    obtain ⟨u, hu, hreply, hu'⟩ := udp_called hi hm hop rfl hp
    obtain ⟨hrx, hsent⟩ := u.sendTo_adds data target room
    refine ⟨by simp [rxQueue, queuedBy, takenBy, hu, hu', hrx], rfl, ?_⟩
    simp only [txQueue, hu, hu', Option.elim, sentToBy, hreply, Reply.count?_of_map, true_and]
    rcases hsent with ⟨hsome, htx⟩ | ⟨hnone, htx⟩
    · rw [if_pos hsome, htx]
      rfl
    · rw [hnone, htx]
      simp [dispatchedBy]
  | _ => cases hcallee

lemma datagrams_step (hi : Inv w) (hm : h ∈ w.udpSockets) (hs : Step w a w')
    (ha : Queuing h w a) : DatagramsMoved h w a w' := by
  by_cases hu : a.uses? = some h
  · cases a with
    | poll n op =>
      obtain ⟨⟨r, v⟩, hr, hv⟩ := bind_eq_ok.mp hs
      cases hv
      exact datagrams_called hi hm hu hr
    | _ => cases hu
  · have htaken : takenBy h w a = [] := by
      unfold takenBy
      split
      · exact if_neg fun he => hu (congrArg some he)
      · rfl
    have hreceived : receivedBy h w a = [] := by
      unfold receivedBy
      split
      · exact if_neg fun he => hu (congrArg some he)
      · rfl
    have hsent : sentToBy h w a = [] := by
      unfold sentToBy
      split
      · exact if_neg fun he => hu (congrArg some he.1)
      · rfl
    obtain ⟨u, hf, hu'⟩ := udpAt_of_socket hi hm
    rcases framed_step hi (p := .udp) hm rfl hs hu ha.1 with ⟨hne, hsame⟩ | ⟨i, rfl, hcycle⟩ |
      ⟨rfl, hstop⟩
    · have hafter : w'.udpAt h = some u := by rw [udpAt, hsame, hf]; rfl
      cases a with
      | pollerCycle i => exact absurd rfl (hne i)
      | _ =>
        constructor <;>
          simp [rxQueue, txQueue, hu', hafter, queuedBy, dispatchedBy, htaken, hreceived, hsent]
    · have hafter : w'.udpAt h = some (i.effect.udp h u) := by rw [udpAt, hcycle, hf]; rfl
      obtain ⟨⟨queued, hqueued⟩, dispatched, hdispatched⟩ := ha.2 i u rfl hu'
      constructor <;>
        simp [rxQueue, txQueue, hu', hafter, queuedBy, dispatchedBy, htaken, hreceived, hsent,
          ← hqueued, ← hdispatched]
    · have hafter : w'.udpAt h = some u := by rw [udpAt, hstop, hf]; rfl
      constructor <;>
        simp [rxQueue, txQueue, hu', hafter, queuedBy, dispatchedBy, htaken, hreceived, hsent]

/-- A UDP socket hands out whole datagrams in the order in which they were queued, each to at most
one call, and loses only those that do not fit or come from an IPv4 address; what it accepts for
sending leaves in the same order. -/
theorem datagrams_in_order {actions : List Action} (hr : Reachable w) (hm : h ∈ w.udpSockets)
    (hrun : Run (fun w a w' => Step w a w' ∧ Queuing h w a) w actions w') :
    w.rxQueue h ++ along exec (queuedBy h) w actions =
      (along exec (takenBy h) w actions).map Prod.snd ++ w'.rxQueue h ∧
    along exec (receivedBy h) w actions = (along exec (takenBy h) w actions).filterMap deliver ∧
    w.txQueue h ++ along exec (sentToBy h) w actions =
      along exec (dispatchedBy h) w actions ++ w'.txQueue h := by
  let kept (v : World) : Prop := Inv v ∧ h ∈ v.udpSockets
  have hstep : ∀ v a v', kept v → Step v a v' ∧ Queuing h v a →
      exec v a = .ok v' ∧ kept v' ∧ DatagramsMoved h v a v' := by
    rintro v a v' ⟨hi, hm⟩ ⟨hs, ha⟩
    exact ⟨hs, ⟨inv_step v a v' hi hs, object_step (p := .udp) hi hs ha.1 rfl hm⟩,
      datagrams_step hi hm hs ha⟩
  have hkept : kept w := ⟨hr.inv, hm⟩
  refine ⟨?_, ?_, ?_⟩
  · rw [← List.filterMap_eq_map, ← along_filterMap]
    refine along_conserved hrun hkept fun v a v' hv hs => ?_
    obtain ⟨he, hv', hmoved⟩ := hstep v a v' hv hs
    exact ⟨he, hv', by rw [hmoved.rx, List.filterMap_eq_map]⟩
  · rw [← along_filterMap]
    refine along_congr hrun hkept fun v a v' hv hs => ?_
    obtain ⟨he, hv', hmoved⟩ := hstep v a v' hv hs
    exact ⟨he, hv', hmoved.received⟩
  · refine along_conserved hrun hkept fun v a v' hv hs => ?_
    obtain ⟨he, hv', hmoved⟩ := hstep v a v' hv hs
    exact ⟨he, hv', hmoved.tx⟩

def queues (h : ℕ) (d : Datagram) : CycleInput where
  effect := {
    tcp _ t := t
    udp j u := if j = h then { u with queues := { u.queues with rx := u.queues.rx ++ [d] } } else u
    icmp _ i := i }
  serviceNow := 0
  reapNow := 0
  supply := []

def answeredDatagram : List Action := [.poll 1 (.sendTo 2 [5] ⟨.ipv6 9, 53⟩ true), .pollerCheck,
  .pollerCycle (queues 2 ([7, 8], ⟨.ipv6 9, 53⟩)), .poll 1 (.recvFrom 2 100)]

theorem datagram_received_whole : ∃ w w', Reachable w ∧ 2 ∈ w.udpSockets ∧
    Run Step w answeredDatagram w' ∧
    along exec (receivedBy 2) w answeredDatagram = [([7, 8], ⟨.ipv6 9, 53⟩)] ∧
    w.rxQueue 2 ++ along exec (queuedBy 2) w answeredDatagram =
      (along exec (takenBy 2) w answeredDatagram).map Prod.snd ++ w'.rxQueue 2 ∧
    along exec (receivedBy 2) w answeredDatagram =
      (along exec (takenBy 2) w answeredDatagram).filterMap deliver := by
  have hr := Reachable.of_runAll 1 false (fun _ => none) [.bindUdp 53 [2]] rfl
  obtain ⟨w, w', hr, hm, hrun, hreceived⟩ : ∃ w w', Reachable w ∧ 2 ∈ w.udpSockets ∧
      Run Step w answeredDatagram w' ∧
      along exec (receivedBy 2) w answeredDatagram = [([7, 8], ⟨.ipv6 9, 53⟩)] :=
    ⟨_, _, hr, by decide, .of_runAll rfl, rfl⟩
  have hguard : ∀ a ∈ answeredDatagram, ∀ u : World, u.Queuing 2 a := by
    intro a ha u
    simp only [answeredDatagram, List.mem_cons, List.not_mem_nil, or_false] at ha
    rcases ha with rfl | rfl | rfl | rfl <;>
      refine ⟨by simp [Action.drops?], fun i t hi _ => ?_⟩ <;> cases hi
    exact ⟨List.prefix_append _ _, List.suffix_refl _⟩
  have hkept := hrun.guard (p := fun u a => u.Queuing 2 a) hguard
  obtain ⟨hrx, htaken, -⟩ := datagrams_in_order hr hm hkept
  exact ⟨w, w', hr, hm, hrun, hreceived, hrx, htaken⟩

end World

end Yggstack.Netstack
