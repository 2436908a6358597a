import Yggstack.Netstack.Halted

/-! Which calls come to an end once the netstack is shut down and its poll loop is gone, and which
wait for ever. -/

namespace Yggstack.Netstack

open Library

lemma Poll.isReady_map {α β : Type} (f : α → β) (p : Poll α) : (p.map f).isReady = p.isReady := by
  cases p <;> rfl

section Sockets

lemma waitConnected_isReady (t : TcpSocket) :
    t.waitConnected.isReady = true ↔ t.state.Decisive := by
  cases hs : t.state <;> simp [TcpSocket.waitConnected, TcpState.Decisive, Poll.isReady, hs]

lemma pollRead_isReady (t : TcpSocket) (n : ℕ) :
    (t.pollRead n).1.isReady = true ↔ t.mayRecv = false ∨ t.rx ≠ [] ∧ 0 < n := by
  rw [TcpSocket.pollRead_eq]
  by_cases hc : t.canRecv ∧ 0 < n
  · have hr : t.rx ≠ [] := by
      have := hc.1
      simp only [TcpSocket.canRecv, Bool.and_eq_true, Bool.not_eq_true',
        List.isEmpty_eq_false_iff] at this
      exact this.2
    rw [if_pos hc]
    simp [Poll.isReady, hr, hc.2]
  · rw [if_neg hc]
    cases hm : t.mayRecv with
    | false => simp [Poll.isReady]
    | true =>
      simp only [TcpSocket.canRecv, hm, Bool.true_and, Bool.not_eq_true',
        List.isEmpty_eq_false_iff] at hc
      simpa [Poll.isReady] using hc

lemma pollWrite_isReady (t : TcpSocket) (data : List UInt8) :
    (t.pollWrite data).1.isReady = true ↔ t.maySend = false ∨ t.tx.length < tcpBuffer := by
  cases hm : t.maySend with
  | false => simp [TcpSocket.pollWrite, hm, Poll.isReady]
  | true =>
    by_cases hl : t.tx.length < tcpBuffer
    · simp [TcpSocket.pollWrite, TcpSocket.canSend, TcpSocket.sendSlice, hm, hl, Poll.isReady]
    · simp [TcpSocket.pollWrite, TcpSocket.canSend, hm, hl, Poll.isReady]

lemma recvFrom_isReady (u : UdpSocket) (n : ℕ) :
    (u.recvFrom n).1.isReady = true ↔ u.queues.rx ≠ [] := by
  cases hr : u.queues.rx with
  | nil => simp [UdpSocket.recvFrom, PacketQueues.canRecv, hr, Poll.isReady]
  | cons packet rx =>
    obtain ⟨data, ⟨addr, port⟩⟩ := packet
    by_cases hl : data.length ≤ n
    · cases addr <;>
        simp [UdpSocket.recvFrom, PacketQueues.canRecv, PacketQueues.recvSlice, hr, hl,
          Poll.isReady]
    · simp [UdpSocket.recvFrom, PacketQueues.canRecv, PacketQueues.recvSlice, hr, hl, Poll.isReady]

lemma sendTo_isReady (u : UdpSocket) (data : List UInt8) (target : IpEndpoint) (room : Bool) :
    (u.sendTo data target room).1.isReady = true ↔
      (∃ bits, target.addr = .ipv4 bits) ∨ u.queues.tx.length < u.queues.capacity := by
  rw [UdpSocket.sendTo]
  cases ha : target.addr with
  | ipv4 bits => simp [Poll.isReady]
  | ipv6 bits =>
    by_cases hc : u.queues.tx.length < u.queues.capacity
    · rcases u.sendSlice data target room with ⟨_ | _, u'⟩ <;>
        simp [PacketQueues.canSend, hc, Poll.isReady]
    · simp [PacketQueues.canSend, hc, Poll.isReady]

end Sockets

namespace World

variable {u w : World} {d : ℕ}

def Stopped (w : World) : Prop := w.net.closed = true ∧ w.poller = .exited

section Polls

def Owned (w : World) : Operation → Prop
  | .dial d _ _ => w.UnderWay d
  | .accept port => port ∈ w.tcpListeners
  | .read h _ | .write h _ | .shutdown h => h ∈ w.streams
  | .recvFrom h _ | .sendTo h _ _ _ => h ∈ w.udpSockets
  | .sendEcho h _ _ _ _ | .recvReply h _ => h ∈ w.pingSockets.map Prod.fst

/-- A call that the shutdown at `u` ends or lets end. A dial that came later ends only if a last
cycle took its connect, and an accept never does. -/
def Ends (u w : World) : Operation → Prop
  | .dial d now _ => u.UnderWay d ∨
      (∃ h e, w.dials.find d = some (.queued h (.sent (.error e)))) ∨
      (∃ h dial t, w.dials.find d = some dial ∧ dial.Streams h ∧
        w.net.sockets.find h = some (.tcp t) ∧ t.isOpen = false) ∨
      ∃ h deadline, w.dials.find d = some (.connecting h deadline) ∧ deadline ≤ now
  | .accept _ => False
  | .read h n => ∃ t, w.net.sockets.find h = some (.tcp t) ∧ (t.rx = [] ∨ 0 < n)
  | .recvFrom h _ => ∃ s, w.net.sockets.find h = some (.udp s) ∧ s.queues.rx ≠ []
  | .sendTo h _ target _ => (∃ bits, target.addr = .ipv4 bits) ∨
      ∃ s, w.net.sockets.find h = some (.udp s) ∧ s.queues.tx.length < s.queues.capacity
  | .write _ _ | .shutdown _ | .sendEcho _ _ _ _ _ | .recvReply _ _ => True

lemma pollConnect_isReady (d : ℕ) {h : ℕ} (deadline now wall : ℤ) {t : TcpSocket}
    (hf : w.net.sockets.find h = some (.tcp t)) :
    ∃ p w', w.pollConnect d h deadline now wall = .ok (p, w') ∧
      (p.isReady = true ↔ t.state.Decisive ∨ deadline ≤ now) := by
  rw [pollConnect, SocketSet.getTcp_eq_ok.mpr hf, ok_bind, ← waitConnected_isReady]
  rcases t.waitConnected with ⟨_ | _⟩ | _
  · rw [dropStream_eq wall hf]
    exact ⟨_, _, rfl, by simp [Poll.isReady]⟩
  · exact ⟨_, _, rfl, by simp [Poll.isReady]⟩
  · by_cases hd : deadline ≤ now
    · simp only [if_pos hd, dropStream_eq (s := w.net.park (.dial d)) wall hf]
      exact ⟨_, _, rfl, by simp [Poll.isReady, hd]⟩
    · simp only [if_neg hd]
      exact ⟨_, _, rfl, by simp [Poll.isReady, hd]⟩

lemma decisive_iff {t : TcpSocket} (h : ¬t.Finished) : t.state.Decisive ↔ t.isOpen = false := by
  revert h
  rw [TcpSocket.Finished, TcpState.Decisive, TcpSocket.isOpen]
  cases t.state <;> simp

lemma ends_of_underWay (hh : Halted u w) {h : ℕ} {dial : Dial} (hd : u.UnderWay d)
    (hf : w.dials.find d = some dial) (hs : dial.Streams h) :
    ∃ t, w.net.sockets.find h = some (.tcp t) ∧ t.isOpen = false := by
  obtain ⟨dial', hf', hreleased⟩ := hh.released d hd
  rw [hf] at hf'
  cases hf'
  rcases hreleased with ⟨o, lost, rfl⟩ | ⟨j, channel, rfl, -, hok⟩ | ⟨j, hs', t, ht, hclosed⟩
  · exact absurd hs not_streams_over
  · rcases hs with he | ⟨deadline, he⟩
    · cases he
      exact absurd rfl hok
    · cases he
  · obtain rfl : h = j := Option.some.inj (hs.handle?.symm.trans hs'.handle?)
    exact ⟨t, ht, by rw [TcpSocket.isOpen, hclosed]⟩

lemma pollDial_ends (hh : Halted u w) {now wall : ℤ} (ho : w.UnderWay d) :
    ∃ p w', w.pollDial d now wall = .ok (p, w') ∧
      (p.isReady = true ↔ u.Ends w (.dial d now wall)) := by
  have hstream : ∀ {h dial t}, w.dials.find d = some dial → dial.Streams h →
      w.net.sockets.find h = some (.tcp t) → (u.Ends w (.dial d now wall) ↔
        t.state.Decisive ∨ ∃ j deadline, dial = .connecting j deadline ∧ deadline ≤ now) := by
    intro h dial t hf hs ht
    rw [decisive_iff (hh.unfinished h t ht)]
    constructor
    · rintro (hd | ⟨j, e, hd⟩ | ⟨j, dial', t', hd, hs', ht', hopen⟩ | ⟨j, deadline, hd, hle⟩)
      · obtain ⟨t', ht', hopen⟩ := ends_of_underWay hh hd hf hs
        rw [ht] at ht'
        cases ht'
        exact .inl hopen
      · rw [hf] at hd
        cases hd
        rcases hs with he | ⟨deadline, he⟩ <;> cases he
      · rw [hf] at hd
        cases hd
        obtain rfl : h = j := Option.some.inj (hs.handle?.symm.trans hs'.handle?)
        rw [ht] at ht'
        cases ht'
        exact .inl hopen
      · rw [hf] at hd
        exact .inr ⟨j, deadline, Option.some.inj hd, hle⟩
    · rintro (hopen | ⟨j, deadline, rfl, hle⟩)
      · exact .inr (.inr (.inl ⟨h, dial, t, hf, hs, ht, hopen⟩))
      · exact .inr (.inr (.inr ⟨j, deadline, hf, hle⟩))
  obtain ⟨h, ⟨channel, hd⟩ | ⟨deadline, hd⟩⟩ := ho
  · obtain ⟨t, ht⟩ := hh.inv.of_dial hd rfl
    have hf := SocketSet.getTcp_eq_ok.mp ht
    rw [pollDial, hd]
    rcases channel with _ | (e | ⟨⟩) | _
    · refine ⟨_, _, rfl, iff_of_false (by simp [Poll.isReady]) ?_⟩
      rintro (hu | ⟨j, e, he⟩ | ⟨j, dial, t', he, hs, -⟩ | ⟨j, deadline, he, -⟩)
      · obtain ⟨dial, hf', hreleased⟩ := hh.released d hu
        rw [hd] at hf'
        cases hf'
        rcases hreleased with ⟨o, lost, he⟩ | ⟨j, channel, he, hwaiting, -⟩ | ⟨j, hs, -⟩
        · cases he
        · cases he
          exact hwaiting rfl
        · rcases hs with he | ⟨deadline, he⟩ <;> cases he
      · rw [hd] at he
        cases he
      · rw [hd] at he
        cases he
        rcases hs with he | ⟨deadline, he⟩ <;> cases he
      · rw [hd] at he
        cases he
    · exact ⟨_, _, rfl, iff_of_true rfl (.inr (.inl ⟨h, e, hd⟩))⟩
    · obtain ⟨p, w', he, hp⟩ := pollConnect_isReady d (now + connectTimeout) now wall hf
      refine ⟨p, w', he, hp.trans ?_⟩
      rw [hstream hd (.inl rfl) hf]
      simp [connectTimeout]
    · exact ⟨_, _, rfl, iff_of_true rfl (.inl (hh.broken d h hd))⟩
  · obtain ⟨t, ht⟩ := hh.inv.of_dial hd rfl
    have hf := SocketSet.getTcp_eq_ok.mp ht
    rw [pollDial, hd]
    obtain ⟨p, w', he, hp⟩ := pollConnect_isReady d deadline now wall hf
    refine ⟨p, w', he, hp.trans ?_⟩
    rw [hstream hd (.inr ⟨deadline, rfl⟩) hf]
    simp

lemma poll_socket_isReady {α β : Type} {view : Socket → Option α} {wrap : α → Socket} {k : Kind}
    {n h : ℕ} {a : α}
    (op : Operation) {q : Prop} [Decidable q] {f : β → Reply} {g : α → Poll β × α}
    (hv : TypedView view wrap k)
    (hf : w.net.sockets.find h = some (wrap a)) (hq : q)
    (hp : w.poll n op = do
      require q
      (w.answer (.task n)).onNet f ((w.answer (.task n)).net.pollSocket view wrap h (.task n) g)) :
    ∃ p w', w.poll n op = .ok (p, w') ∧ p.isReady = (g a).1.isReady := by
  rw [hp, show require q = .ok () from if_pos hq, ok_bind, onNet,
    hv.pollSocket_eq (s := (w.answer (.task n)).net) (.task n) g hf]
  exact ⟨_, _, rfl, Poll.isReady_map f _⟩

lemma poll_ends (hh : Halted u w) (n : ℕ) {op : Operation} (ho : w.Owned op) :
    ∃ p w', w.poll n op = .ok (p, w') ∧ (p.isReady = true ↔ u.Ends w op) := by
  have hi := hh.inv
  cases op with
  | dial d now wall =>
    have hanswered : Halted u (w.answer (.dial d)) :=
      ⟨hi.answer (.dial d), hh.closed, hh.unfinished, hh.idle, hh.queues, hh.streams, hh.released,
        hh.broken⟩
    exact pollDial_ends hanswered ho
  | accept port =>
    obtain ⟨w', hw⟩ := poll_accept n ho
    refine ⟨_, w', hw, iff_of_false ?_ id⟩
    rw [Poll.isReady_map, acceptFrom_isReady]
    rintro ⟨entry, hentry, hne⟩
    exact hne (hh.queues entry (List.mem_of_find?_eq_some hentry))
  | read h k =>
    have hm : h ∈ w.streams := ho
    obtain ⟨t, hf, hclosed⟩ := hh.streams h hm
    obtain ⟨p, w', he, hp⟩ := poll_socket_isReady (.read h k) tcpView hf hm rfl
    refine ⟨p, w', he, ?_⟩
    rw [hp, pollRead_isReady, TcpSocket.mayRecv, hclosed]
    simp only [Ends, hf, Option.some.injEq, Socket.tcp.injEq, exists_eq_left', Bool.not_eq_false',
      List.isEmpty_iff]
    tauto
  | write h data =>
    have hm : h ∈ w.streams := ho
    obtain ⟨t, hf, hclosed⟩ := hh.streams h hm
    obtain ⟨p, w', he, hp⟩ := poll_socket_isReady (.write h data) tcpView hf hm rfl
    refine ⟨p, w', he, iff_of_true ?_ trivial⟩
    rw [hp, pollWrite_isReady, TcpSocket.maySend, hclosed]
    exact .inl rfl
  | shutdown h =>
    have hm : h ∈ w.streams := ho
    obtain ⟨t, hf, -⟩ := hh.streams h hm
    obtain ⟨p, w', he, hp⟩ := poll_socket_isReady (.shutdown h) tcpView hf hm rfl
    exact ⟨p, w', he, iff_of_true (by rw [hp]; rfl) trivial⟩
  | recvFrom h k =>
    have hm : h ∈ w.udpSockets := ho
    obtain ⟨s, hf⟩ := udpView.exists_find (hi.of_udp hm)
    obtain ⟨p, w', he, hp⟩ := poll_socket_isReady (.recvFrom h k) udpView hf hm rfl
    exact ⟨p, w', he, by rw [hp, recvFrom_isReady]; simp [Ends, hf]⟩
  | sendTo h data target room =>
    have hm : h ∈ w.udpSockets := ho
    obtain ⟨s, hf⟩ := udpView.exists_find (hi.of_udp hm)
    obtain ⟨p, w', he, hp⟩ := poll_socket_isReady (.sendTo h data target room) udpView hf hm rfl
    exact ⟨p, w', he, by rw [hp, sendTo_isReady]; simp [Ends, hf]⟩
  | sendEcho h dst seq payload room =>
    have hm : h ∈ w.pingSockets.map Prod.fst := ho
    obtain ⟨i, hf⟩ := icmpView.exists_find (hi.of_ping hm)
    obtain ⟨ident, hident⟩ : ∃ ident, w.pingSockets.lookup h = some ident := by
      rw [← Option.isSome_iff_exists, List.lookup_isSome_iff]
      simpa using hm
    have hpoll : w.poll n (.sendEcho h dst seq payload room) = (do
        require True
        (w.answer (.task n)).onNet .unit ((w.answer (.task n)).net.pollIcmp h (.task n) fun i =>
          i.sendEcho w.net.closed (echoRequest ident seq payload) dst room)) := by
      rw [show require True = .ok () from rfl, ok_bind]
      simp only [poll, pollOp, waker, answer, hident]
      rfl
    obtain ⟨p, w', he, hp⟩ := poll_socket_isReady _ icmpView hf trivial hpoll
    exact ⟨p, w', he, iff_of_true (by rw [hp, IcmpSocket.sendEcho, if_pos hh.closed]; rfl) trivial⟩
  | recvReply h k =>
    have hm : h ∈ w.pingSockets.map Prod.fst := ho
    obtain ⟨i, hf⟩ := icmpView.exists_find (hi.of_ping hm)
    have hclosed : (w.answer (waker n (.recvReply h k))).net.closed = true := hh.closed
    obtain ⟨p, w', he, hp⟩ := poll_socket_isReady (.recvReply h k) icmpView hf hm rfl
    exact ⟨p, w', he, iff_of_true (by rw [hp, IcmpSocket.recvReply, if_pos hclosed]; rfl) trivial⟩

end Polls

lemma exists_shutdown {ourAddr : BitVec 128} {ckr : Bool} {source : IpAddress → Option IpAddress}
    {actions : List Action} (hr : Run Step (initial ourAddr ckr source) actions w)
    (hc : w.net.closed = true) :
    ∃ before after u, actions = before ++ .shutdown :: after ∧ .shutdown ∉ after ∧
      Run Step (initial ourAddr ckr source) before u ∧ Run Step u.shutdown after w := by
  let init := initial ourAddr ckr source
  have hboth : Run Step init actions w ∧ (w.net.closed = true → ∃ before after u,
      actions = before ++ .shutdown :: after ∧ .shutdown ∉ after ∧ Run Step init before u ∧
        Run Step u.shutdown after w) := by
    apply hr.history (H := fun actions w => Run Step init actions w ∧
      (w.net.closed = true → ∃ before after u, actions = before ++ .shutdown :: after ∧
        .shutdown ∉ after ∧ Run Step init before u ∧ Run Step u.shutdown after w))
    · exact ⟨.nil _, fun hclosed => by cases hclosed⟩
    · rintro done v a v' ⟨hrun, hsince⟩ hs
      refine ⟨hrun.append (.single hs), fun hclosed => ?_⟩
      by_cases ha : a = .shutdown
      · subst ha
        cases hs
        exact ⟨done, [], v, rfl, List.not_mem_nil, hrun, .nil _⟩
      · have hi : Inv v := Reachable.inv ⟨ourAddr, ckr, source, done, hrun⟩
        rw [closed_moved (moved_of_step hi hs) ha] at hclosed
        obtain ⟨before, after, u, rfl, hno, hu, hafter⟩ := hsince hclosed
        refine ⟨before, after ++ [a], u, by simp, ?_, hu, hafter.append (.single hs)⟩
        simp only [List.mem_append, List.mem_singleton, not_or]
        exact ⟨hno, Ne.symm ha⟩
  exact hboth.2 hc

/-- In a netstack that was shut down and whose poll loop is gone, the polls that are ready are those
of the calls that the shutdown ends or lets end. -/
theorem stopped_poll_ready_iff {ourAddr : BitVec 128} {ckr : Bool}
    {source : IpAddress → Option IpAddress} {actions : List Action}
    (hr : Run Step (initial ourAddr ckr source) actions w) (hs : w.Stopped) :
    ∃ before after u, actions = before ++ .shutdown :: after ∧ .shutdown ∉ after ∧
      Run Step (initial ourAddr ckr source) before u ∧
      ((∀ i, .pollerCycle i ∈ after → i.effect.Unanswered) → ∀ n op, w.Owned op →
        ∃ p w', w.poll n op = .ok (p, w') ∧ (p.isReady = true ↔ u.Ends w op)) := by
  obtain ⟨before, after, u, hactions, hno, hu, hafter⟩ := exists_shutdown hr hs.1
  refine ⟨before, after, u, hactions, hno, hu, fun hpolls n op ho => ?_⟩
  have hguarded := hafter.guard (p := fun _ a => a ≠ .shutdown ∧
    ∀ i, a = .pollerCycle i → i.effect.Unanswered) ?_
  · apply poll_ends (hguarded.invariant (halted_shutdown ⟨ourAddr, ckr, source, before, hu⟩) ?_) n ho
    rintro v a v' hh ⟨hs, ha, he⟩
    exact hh.step hs ha he
  · intro a ha _
    refine ⟨fun he => hno (he ▸ ha), fun i he => hpolls i (he ▸ ha)⟩

def lateDial : List Action :=
  [.openIcmp 5 [30], .listenTcp 80 [0, 1, 2, 3, 4, 5, 6, 7], .pollerCheck, .shutdown,
    .dialStart 1 ⟨.ipv6 2, 80⟩ 0 31, .dialQueue 1, .pollerCycle idleCycle, .pollerCheck]

theorem stopped_ping_answered :
    ∃ w, Run Step (initial 1 false anySource) lateDial w ∧ w.Stopped ∧
      (∃ p w', w.poll 0 (.recvReply 30 64) = .ok (p, w') ∧ p.isReady = true) ∧
      ∃ p w', w.poll 0 (.accept 80) = .ok (p, w') ∧ p.isReady = false := by
  have hr : ∃ w, Run Step (initial 1 false anySource) lateDial w ∧ w.Stopped ∧
      w.Owned (.recvReply 30 64) ∧ w.Owned (.accept 80) :=
    ⟨_, .of_runAll rfl, ⟨rfl, rfl⟩, List.mem_cons_self, List.mem_cons_self⟩
  obtain ⟨w, hr, hs, hping, haccept⟩ := hr
  obtain ⟨before, after, u, hactions, -, -, hends⟩ := stopped_poll_ready_iff hr hs
  have hpolls : ∀ i, .pollerCycle i ∈ after → i.effect.Unanswered := by
    intro i hi
    have hmem : .pollerCycle i ∈ lateDial := by
      rw [hactions]
      exact List.mem_append_right _ (List.mem_cons_of_mem _ hi)
    obtain rfl : i = idleCycle := by simpa [lateDial] using hmem
    refine ⟨fun _ _ hclosed => hclosed, ?_⟩
    rintro _ t (hstate | hstate) (hfin | hfin) <;> rw [show t.state = _ from hfin] at hstate <;>
      cases hstate
  obtain ⟨p, w', he, hp⟩ := hends hpolls 0 (.recvReply 30 64) hping
  obtain ⟨q, w'', he', hq⟩ := hends hpolls 0 (.accept 80) haccept
  exact ⟨w, hr, hs, ⟨p, w', he, hp.mpr trivial⟩, q, w'', he',
    Bool.eq_false_iff.mpr fun hready => hq.mp hready⟩

theorem stopped_accept_pends : ¬∀ w, Reachable w → w.Stopped → ∀ n op, w.Owned op →
    ∃ p w', w.poll n op = .ok (p, w') ∧ p.isReady = true := by
  intro hall
  have hr := Reachable.of_runAll 1 false (fun _ => none)
    [.listenTcp 80 [0, 1, 2, 3, 4, 5, 6, 7], .shutdown, .pollerCheck] rfl
  obtain ⟨p, w', he, hp⟩ := hall _ hr ⟨rfl, rfl⟩ 0 (.accept 80) List.mem_cons_self
  cases he
  cases hp

end World

end Yggstack.Netstack
