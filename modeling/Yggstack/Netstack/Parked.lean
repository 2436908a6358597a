import Yggstack.Netstack.Streams

namespace Yggstack.Netstack

open Library

section Calls

def Idle {α β : Type} (f : α → Poll β × α) : Prop :=
  ∀ a, (f a).1.isReady = false → f a = (.pending, a)

lemma pollRead_idle (n : ℕ) : Idle fun t : TcpSocket => t.pollRead n := by
  intro t hp
  rcases t.pollRead_conserves n with ⟨⟨bytes, hready, -⟩, -⟩ | hpend
  · rw [hready] at hp
    cases hp
  · exact hpend

lemma pollWrite_idle (data : List UInt8) : Idle fun t : TcpSocket => t.pollWrite data := by
  intro t hp
  rcases t.pollWrite_conserves data with ⟨k, hready, -⟩ | ⟨e, hfail⟩ | hpend
  · rw [hready] at hp
    cases hp
  · simp only [hfail] at hp
    cases hp
  · exact hpend

lemma pollShutdown_idle : Idle TcpSocket.pollShutdown := fun t hp => by cases hp

lemma recvFrom_idle (n : ℕ) : Idle fun u : UdpSocket => u.recvFrom n := by
  intro u hp
  have hrx : u.queues.rx = [] := by
    by_contra hne
    rw [(recvFrom_isReady u n).mpr hne] at hp
    cases hp
  simp [UdpSocket.recvFrom, PacketQueues.canRecv, hrx]

lemma sendTo_idle (data : List UInt8) (target : IpEndpoint) (room : Bool) :
    Idle fun u : UdpSocket => u.sendTo data target room := by
  intro u hp
  have hfull := mt (sendTo_isReady u data target room).mpr (by rw [hp]; exact Bool.false_ne_true)
  cases ha : target.addr with
  | ipv4 bits => exact absurd (Or.inl ⟨bits, ha⟩) hfull
  | ipv6 bits =>
    have hlen : u.queues.capacity ≤ u.queues.tx.length := Nat.le_of_not_lt fun hl => hfull (Or.inr hl)
    simp [UdpSocket.sendTo, PacketQueues.canSend, ha, hlen]

lemma sendEcho_idle (closed : Bool) (packet : List UInt8) (dst : BitVec 128) (room : Bool) :
    Idle fun i : IcmpSocket => i.sendEcho closed packet dst room := by
  intro i hp
  simp only [IcmpSocket.sendEcho] at hp ⊢
  cases closed with
  | true => cases hp
  | false =>
    cases hc : i.queues.canSend with
    | false => rfl
    | true =>
      rcases hq : i.sendSlice packet (.ipv6 dst) room with ⟨_ | _, j⟩ <;>
        simp [hc, hq, Poll.isReady] at hp

lemma recvReply_idle (closed : Bool) (n : ℕ) :
    Idle fun i : IcmpSocket => i.recvReply closed n := by
  intro i hp
  simp only [IcmpSocket.recvReply] at hp ⊢
  cases closed with
  | true => cases hp
  | false =>
    cases hc : i.queues.canRecv with
    | false => rfl
    | true =>
      rcases hq : i.queues.recvSlice n with ⟨_ | _, q⟩ <;> simp [hc, hq, Poll.isReady] at hp

lemma lift_idle {α β : Type} {view : Socket → Option α} {wrap : α → Socket} {reply : β → Reply}
    {f : α → Poll β × α} (hw : ∀ sock a, view sock = some a → wrap a = sock) (hf : Idle f) :
    Idle (Socket.lift view wrap reply f) := by
  intro sock hp
  rw [Socket.lift] at hp ⊢
  cases hv : view sock with
  | none => rfl
  | some a =>
    simp only [hv, Poll.isReady_map] at hp ⊢
    rw [hf a hp, hw sock a hv]
    rfl

end Calls

namespace World

variable {w w' : World} {a : Action} {h n : ℕ} {op : Operation} {p : Holder} {r : Poll Reply}
  {f : Socket → Poll Reply × Socket}

lemma call_idle (hc : w.call op = some (h, p, f)) : Idle f := by
  have htcp : ∀ sock t, Socket.tcp? sock = some t → Socket.tcp t = sock := by
    intro sock t ht
    cases sock <;> cases ht
    rfl
  have hudp : ∀ sock u, Socket.udp? sock = some u → Socket.udp u = sock := by
    intro sock u hu
    cases sock <;> cases hu
    rfl
  have hicmp : ∀ sock i, Socket.icmp? sock = some i → Socket.icmp i = sock := by
    intro sock i hi
    cases sock <;> cases hi
    rfl
  cases op with
  | dial | accept => cases hc
  | read j k => cases hc; exact lift_idle htcp (pollRead_idle k)
  | write j data => cases hc; exact lift_idle htcp (pollWrite_idle data)
  | shutdown j => cases hc; exact lift_idle htcp pollShutdown_idle
  | recvFrom j k => cases hc; exact lift_idle hudp (recvFrom_idle k)
  | sendTo j data target room => cases hc; exact lift_idle hudp (sendTo_idle data target room)
  | sendEcho j dst seq payload room =>
    obtain ⟨ident, -, he⟩ := Option.map_eq_some_iff.mp hc
    cases he
    exact lift_idle hicmp (sendEcho_idle _ _ _ _)
  | recvReply j k => cases hc; exact lift_idle hicmp (recvReply_idle _ k)

lemma call_congr (hc : w.call op = some (h, p, f)) (hclosed : w'.net.closed = w.net.closed)
    (hl : ∀ ident, w.pingSockets.lookup h = some ident → w'.pingSockets.lookup h = some ident) :
    w'.call op = some (h, p, f) := by
  cases op with
  | dial | accept => cases hc
  | sendEcho j dst seq payload room =>
    obtain ⟨ident, hident, he⟩ := Option.map_eq_some_iff.mp hc
    cases he
    rw [call, hl ident hident, hclosed]
    rfl
  | recvReply j k =>
    rw [call, hclosed]
    exact hc
  | _ => exact hc

lemma lookup_erase {x : ℕ × UInt16} {xs : List (ℕ × UInt16)} (hne : x.1 ≠ h) :
    (xs.erase x).lookup h = xs.lookup h := by
  induction xs with
  | nil => rfl
  | cons y ys ih =>
    rw [List.erase_cons]
    split
    · rename_i he
      obtain rfl : y = x := by simpa using he
      rw [List.lookup_cons, beq_eq_false_iff_ne.mpr hne.symm]
    · rw [List.lookup_cons, List.lookup_cons, ih]

lemma lookup_moved (hm : Moved w a w') (hd : a.drops? ≠ some h) {ident : UInt16}
    (hl : w.pingSockets.lookup h = some ident) : w'.pingSockets.lookup h = some ident := by
  cases hm with
  | pingOpened =>
    rw [List.lookup_append, hl]
    rfl
  | pingDropped =>
    refine (lookup_erase ?_).trans hl
    exact fun he => hd (congrArg some he)
  | _ => exact hl

lemma waker_moved (hm : Moved w a w') (hn : ∀ op, a ≠ .poll n op) :
    (.task n ∈ w.woken → .task n ∈ w'.woken) ∧
    (.task n ∈ w.net.wakers → .task n ∈ w'.woken ∨
      .task n ∈ w'.net.wakers ∧ (∀ i, a ≠ .pollerCycle i) ∧ a ≠ .shutdown) := by
  have hother : ∀ m op, a = .poll m op → Waker.task n ≠ .task m := by
    rintro m op rfl he
    cases he
    exact hn op rfl
  cases hm with
  | dialWaits | dialLost | dialConnected =>
    exact ⟨mem_answer (by simp), fun hw => .inr ⟨hw, Action.quiet rfl⟩⟩
  | dialFailed | dialParked =>
    exact ⟨mem_answer (by simp), fun hw => .inr ⟨List.mem_append_left _ hw, Action.quiet rfl⟩⟩
  | accepted | acceptParked =>
    exact ⟨mem_answer (hother _ _ rfl), fun hw => .inr ⟨hw, Action.quiet rfl⟩⟩
  | streamUsed | udpUsed | pingUsed =>
    exact ⟨mem_answer (hother _ _ rfl), fun hw => .inr ⟨List.mem_append_left _ hw, Action.quiet rfl⟩⟩
  | bound hb =>
    refine ⟨id, fun hw => .inr ⟨hw, fun i he => ?_, fun he => ?_⟩⟩ <;>
    · subst he
      cases hb
  | pollerCycled hc => exact ⟨List.mem_append_left _, fun hw => .inl (by simp [hw])⟩
  | shutdown =>
    refine ⟨List.mem_append_left _, fun hw => .inl ?_⟩
    simp [shutdown, NetstackState.shutdown, hw]
  | _ => exact ⟨id, fun hw => .inr ⟨hw, Action.quiet rfl⟩⟩

structure Waits (w : World) (n : ℕ) (op : Operation) (h : ℕ) (f : Socket → Poll Reply × Socket)
    (sock : Socket) : Prop where
  parked : .task n ∈ w.net.wakers
  call : ∃ p, w.call op = some (h, p, f) ∧ p.isObject = true ∧ w.Holds h p
  find : w.net.sockets.find h = some sock

lemma waits_of_pending (hi : Inv w) (hop : op.socket? = some h)
    (hp : w.poll n op = .ok (.pending, w')) :
    ∃ f sock, f sock = (.pending, sock) ∧ w'.Waits n op h f sock := by
  obtain ⟨p, f, sock, hcall, hob, hq, hf, hr, rfl⟩ := poll_call hi hop hp
  have hidle : f sock = (.pending, sock) := call_idle hcall sock (by rw [← hr]; rfl)
  refine ⟨f, sock, hidle, ?_, ⟨p, ?_, hob, ?_⟩, ?_⟩
  · simp [polled, wait, hidle, Poll.isReady]
  · exact call_congr hcall rfl fun _ hl => hl
  · cases p <;> exact hq
  · rw [polled, hidle]
    exact Store.find_insert_self _ _ _

lemma Waits.step (hi : Inv w) {sock : Socket} (hw : w.Waits n op h f sock) (hs : Step w a w')
    (hn : ∀ op, a ≠ .poll n op) (hu : a.uses? ≠ some h) (hd : a.drops? ≠ some h) :
    .task n ∈ w'.woken ∨ w'.Waits n op h f sock := by
  have hm := moved_of_step hi hs
  rcases (waker_moved hm hn).2 hw.parked with hwoken | ⟨hparked, hcycle, hstop⟩
  · exact .inl hwoken
  · obtain ⟨p, hcall, hob, hp⟩ := hw.call
    refine .inr ⟨hparked, ⟨p, ?_, hob, object_kept hm hd hob hp⟩, ?_⟩
    · exact call_congr hcall (closed_moved hm hstop) fun _ hl => lookup_moved hm hd hl
    · rcases framed_step hi hp hob hs hu hd with ⟨-, hsame⟩ | ⟨i, he, -⟩ | ⟨he, -⟩
      · rw [hsame, hw.find]
      · exact absurd he (hcycle i)
      · exact absurd he hstop

def LeavesAlone (n h : ℕ) (a : Action) : Prop :=
  (∀ op, a ≠ .poll n op) ∧ a.uses? ≠ some h ∧ a.drops? ≠ some h

/-- No wakeup is lost: a task whose call was left pending is woken by every poll cycle and by the
shutdown, and has been woken whenever the call could be finished. -/
theorem pending_call_woken {actions : List Action} (hr : Reachable w) (hop : op.socket? = some h)
    {v : World} (hp : w.poll n op = .ok (.pending, v))
    (hrun : Run (fun w a w' => Step w a w' ∧ LeavesAlone n h a) v actions w') :
    (∀ a ∈ actions, (∃ i, a = .pollerCycle i) ∨ a = .shutdown → .task n ∈ w'.woken) ∧
    (∀ q v', w'.poll n op = .ok (q, v') → q.isReady = true → .task n ∈ w'.woken) := by
  have hv : Inv v := inv_step w (.poll n op) v hr.inv (by rw [Step, exec, hp]; rfl)
  obtain ⟨f, sock, hidle, hwaits⟩ := waits_of_pending hr.inv hop hp
  -- along the run: the task is woken, or it waits and no step so far could wake it
  let kept (as : List Action) (u : World) : Prop := Inv u ∧ (.task n ∈ u.woken ∨
    u.Waits n op h f sock ∧ ∀ a ∈ as, (∀ i, a ≠ .pollerCycle i) ∧ a ≠ .shutdown)
  have hkept : kept actions w' := by
    refine hrun.history ⟨hv, .inr ⟨hwaits, fun _ ha => absurd ha List.not_mem_nil⟩⟩ ?_
    rintro as u a u' ⟨hi, hu⟩ ⟨hs, hn, huse, hd⟩
    have hm := moved_of_step hi hs
    refine ⟨inv_step u a u' hi hs, ?_⟩
    rcases hu with hwoken | ⟨hwait, has⟩
    · exact .inl ((waker_moved hm hn).1 hwoken)
    · rcases (waker_moved hm hn).2 hwait.parked with hwoken | ⟨-, hquiet⟩
      · exact .inl hwoken
      · rcases hwait.step hi hs hn huse hd with hwoken | hwait'
        · exact .inl hwoken
        · refine .inr ⟨hwait', fun b hb => ?_⟩
          rcases List.mem_append.mp hb with hb | hb
          · exact has b hb
          · rw [List.mem_singleton.mp hb]
            exact hquiet
  obtain ⟨hi', hwoken | ⟨hwait, has⟩⟩ := hkept
  · exact ⟨fun _ _ _ => hwoken, fun _ _ _ _ => hwoken⟩
  · constructor
    · intro a ha hwake
      obtain ⟨hcycle, hstop⟩ := has a ha
      rcases hwake with ⟨i, he⟩ | he
      · exact absurd he (hcycle i)
      · exact absurd he hstop
    · intro q v' hq hready
      obtain ⟨p, g, sock', hcall, -, -, hf, hrep, -⟩ := poll_call hi' hop hq
      obtain ⟨p', hcall', -, -⟩ := hwait.call
      rw [hcall'] at hcall
      cases hcall
      rw [hwait.find] at hf
      cases hf
      rw [hrep, hidle] at hready
      cases hready

theorem waiting_receive_woken : ∃ w v w', Reachable w ∧
    w.poll 1 (.recvFrom 2 100) = .ok (.pending, v) ∧
    Run (fun w a w' => Step w a w' ∧ LeavesAlone 1 2 a) v
      [.pollerCheck, .pollerCycle (queues 2 ([7, 8], ⟨.ipv6 9, 53⟩))] w' ∧ .task 1 ∈ w'.woken := by
  have hr := Reachable.of_runAll 1 false (fun _ => none) [.bindUdp 53 [2]] rfl
  obtain ⟨w, v, w', hr, hp, hrun⟩ : ∃ w v w', Reachable w ∧
      w.poll 1 (.recvFrom 2 100) = .ok (.pending, v) ∧
      Run Step v [.pollerCheck, .pollerCycle (queues 2 ([7, 8], ⟨.ipv6 9, 53⟩))] w' :=
    ⟨_, _, _, hr, rfl, .of_runAll rfl⟩
  have halone : ∀ a ∈ [Action.pollerCheck, .pollerCycle (queues 2 ([7, 8], ⟨.ipv6 9, 53⟩))],
      World → LeavesAlone 1 2 a := by
    simp [LeavesAlone, Action.uses?, Action.drops?]
  have hrun := hrun.guard (p := fun _ => LeavesAlone 1 2) halone
  refine ⟨w, v, w', hr, hp, hrun, ?_⟩
  exact (pending_call_woken hr rfl hp hrun).1 (.pollerCycle (queues 2 ([7, 8], ⟨.ipv6 9, 53⟩)))
    (by simp) (Or.inl ⟨_, rfl⟩)

end World

end Yggstack.Netstack
