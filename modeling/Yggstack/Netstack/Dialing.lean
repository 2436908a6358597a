import Yggstack.Netstack.Promotion

namespace Yggstack.Netstack

open Library

namespace World

variable {w w' : World} {a : Action} {d h : ℕ} {dial : Dial}

structure DialKept (w : World) (a : Action) (w' : World) (d h : ℕ) (dial : Dial) : Prop where
  dial : w'.dials.find d = some dial
  woken : .dial d ∈ w.woken → .dial d ∈ w'.woken
  rest : (w'.net.sockets.find h = w.net.sockets.find h ∧
    (.dial d ∈ w.net.wakers → .dial d ∈ w'.net.wakers)) ∨
    ((.dial d ∈ w.net.wakers → .dial d ∈ w'.woken) ∧ (a = .shutdown ∨ ∃ i, a = .pollerCycle i ∧
      ∀ t, w.net.sockets.find h = some (.tcp t) →
      w'.net.sockets.find h = some (.tcp (i.effect.tcp h t))))

lemma mem_answer {k j : Waker} (hne : j ≠ k) (hm : j ∈ w.woken) : j ∈ (w.answer k).woken :=
  List.mem_filter.mpr ⟨hm, by simpa using hne⟩

lemma dial_ne {d' : ℕ} (ha : some d' ≠ some d) : d' ≠ d := fun he => ha (by rw [he])

section Frame

variable (hi : Inv w) (hd : w.dials.find d = some dial) (hs : dial.Streams h)
include hi hd hs

omit hi in
lemma holds_dial : w.Holds h (.dial d) := Or.inl ⟨dial, hd, hs.handle?⟩

lemma Inv.ne_of_holds {j : ℕ} {p : Holder} (hp : w.Holds j p) (hne : p ≠ .dial d) : j ≠ h := by
  rintro rfl
  exact hne (hi.holder_unique hp (holds_dial hd hs))

lemma Inv.ne_of_fresh {j : ℕ} (hf : w.net.sockets.find j = none) : j ≠ h := by
  rintro rfl
  have hk := hi.holds_kind (holds_dial hd hs)
  rw [SocketSet.kindAt_eq_none.mpr hf] at hk
  cases hk

lemma Inv.ne_of_dial {d' j : ℕ} {dial' : Dial} (hd' : w.dials.find d' = some dial')
    (hh : dial'.handle? = some j)
    (hne : d' ≠ d) : j ≠ h :=
  hi.ne_of_holds hd hs (p := .dial d') (Or.inl ⟨dial', hd', hh⟩) fun he => hne (by cases he; rfl)

lemma Inv.not_pending : h ∉ w.net.pendingConnects.map PendingConnect.handle := by
  intro hm
  obtain ⟨cmd, hc, rfl⟩ := List.mem_map.mp hm
  obtain ⟨dial', hd', ha⟩ := hi.pending cmd hc
  have he : Holder.dial cmd.dial = .dial d :=
    hi.holder_unique (Or.inr ⟨cmd, hc, rfl, rfl⟩) (holds_dial hd hs)
  cases he
  rw [hd] at hd'
  cases hd'
  exact hs.not_awaits _ ha

lemma Inv.find_cycled {i : CycleInput} {dialed served : SocketSet}
    {results : List (ℕ × Except SocketError Unit)}
    {net : NetstackState} {t : TcpSocket} (hc : Cycled w.net i dialed served results net)
    (hf : w.net.sockets.find h = some (.tcp t)) :
    net.sockets.find h = some (.tcp (i.effect.tcp h t)) := by
  have hm : (h, Kind.tcp) ∈ w.dials.collect (fun _ => Dial.held) :=
    Store.mem_collect.mpr ⟨d, dial, hd, by simp [Dial.held, hs.handle?]⟩
  rw [(hc.ledger hi.ledger).2.1 (h, .tcp) (by simp [hm])]
  refine PollEffect.find_apply_tcp.mpr ⟨t, ?_, rfl⟩
  rw [hc.connects.other h (hi.not_pending hd hs), hf]

omit hi hs in
lemma find_setDial {d' : ℕ} (dial' : Dial) (hne : d' ≠ d) :
    (w.dials.insert d' dial').find d = some dial := by
  rw [Store.find_insert_of_ne _ _ (Ne.symm hne), hd]

omit hi hd in
lemma receive_streams (r : Option (Except SocketError Unit)) : dial.receive r = dial := by
  rcases hs with rfl | ⟨deadline, rfl⟩ <;> rfl

omit hi hd in
lemma hangUp_streams : dial.hangUp = dial := by
  rcases hs with rfl | ⟨deadline, rfl⟩ <;> rfl

omit hi hd hs in
lemma find_put {j : ℕ} {sock : Socket} (hne : j ≠ h) :
    (w.net.sockets.insert j sock).find h = w.net.sockets.find h :=
  Store.find_insert_of_ne _ _ (Ne.symm hne)

omit hi hd hs in
lemma find_drop {j : ℕ} (hne : j ≠ h) : (w.net.sockets.erase j).find h = w.net.sockets.find h :=
  Store.find_erase_of_ne _ (Ne.symm hne)

lemma dialKept_moved (hm : Moved w a w') (ha : a.dial? ≠ some d) : DialKept w a w' d h dial := by
  cases hm with
  | dialRefused hf => exact ⟨find_setDial hd _ (dial_ne ha), id, .inl ⟨rfl, id⟩⟩
  | dialStart hf hfresh =>
    exact ⟨find_setDial hd _ (dial_ne ha), id, .inl ⟨find_put (hi.ne_of_fresh hd hs hfresh), id⟩⟩
  | dialQueue hd' => exact ⟨find_setDial hd _ (dial_ne ha), id, .inl ⟨rfl, id⟩⟩
  | dialDropLost hd' => exact ⟨find_setDial hd _ (dial_ne ha), id, .inl ⟨rfl, id⟩⟩
  | dialDrop hd' hf =>
    have hne := hi.ne_of_dial hd hs hd' rfl (dial_ne ha)
    exact ⟨find_setDial hd _ (dial_ne ha), id, .inl ⟨find_put hne, id⟩⟩
  | dialWaits hd' => exact ⟨hd, mem_answer fun he => ha (by cases he; rfl), .inl ⟨rfl, id⟩⟩
  | dialLost hd' =>
    exact ⟨find_setDial hd _ (dial_ne ha), mem_answer fun he => ha (by cases he; rfl),
      .inl ⟨rfl, id⟩⟩
  | dialConnected hd' hs' hf he =>
    exact ⟨find_setDial hd _ (dial_ne ha), mem_answer fun he => ha (by cases he; rfl),
      .inl ⟨rfl, id⟩⟩
  | dialFailed hd' hs' hf he =>
    have hne := hi.ne_of_dial hd hs hd' hs'.handle? (dial_ne ha)
    exact ⟨find_setDial hd _ (dial_ne ha), mem_answer fun he => ha (by cases he; rfl),
      .inl ⟨find_put hne, List.mem_append_left _⟩⟩
  | dialParked hd' hs' hf he =>
    exact ⟨find_setDial hd _ (dial_ne ha), mem_answer fun he => ha (by cases he; rfl),
      .inl ⟨rfl, List.mem_append_left _⟩⟩
  | accepted hq => exact ⟨hd, mem_answer (by simp), .inl ⟨rfl, id⟩⟩
  | acceptParked hq => exact ⟨hd, mem_answer (by simp), .inl ⟨rfl, id⟩⟩
  | streamUsed ho hm hf hu =>
    have hne := hi.ne_of_holds hd hs (p := .stream) hm (by simp)
    exact ⟨hd, mem_answer (by simp), .inl ⟨find_put hne, List.mem_append_left _⟩⟩
  | udpUsed ho hm hf hu =>
    have hne := hi.ne_of_holds hd hs (p := .udp) hm (by simp)
    exact ⟨hd, mem_answer (by simp), .inl ⟨find_put hne, List.mem_append_left _⟩⟩
  | pingUsed ho hm hf =>
    have hne := hi.ne_of_holds hd hs (p := .ping) hm (by simp)
    exact ⟨hd, mem_answer (by simp), .inl ⟨find_put hne, List.mem_append_left _⟩⟩
  | listenFailed hfresh => exact ⟨hd, id, .inl ⟨find_put (hi.ne_of_fresh hd hs hfresh), id⟩⟩
  | listened hp hn hfresh =>
    refine ⟨hd, id, .inl ⟨?_, id⟩⟩
    rw [Store.find_insertAll, if_neg]
    intro hm
    exact hi.ne_of_fresh hd hs (hfresh h hm) rfl
  | listenerDropped => exact ⟨hd, id, .inl ⟨rfl, id⟩⟩
  | bindFailed hfresh => exact ⟨hd, id, .inl ⟨find_put (hi.ne_of_fresh hd hs hfresh), id⟩⟩
  | bound hb hp hfresh => exact ⟨hd, id, .inl ⟨find_put (hi.ne_of_fresh hd hs hfresh), id⟩⟩
  | pingOpened hfresh => exact ⟨hd, id, .inl ⟨find_put (hi.ne_of_fresh hd hs hfresh), id⟩⟩
  | streamDropped hm hf =>
    have hne := hi.ne_of_holds hd hs (p := .stream) hm (by simp)
    exact ⟨hd, id, .inl ⟨find_put hne, id⟩⟩
  | udpDropped hm =>
    have hne := hi.ne_of_holds hd hs (p := .udp) hm (by simp)
    exact ⟨hd, id, .inl ⟨find_drop hne, id⟩⟩
  | pingDropped hm =>
    have hne := hi.ne_of_holds hd hs (p := .ping) (List.mem_map_of_mem hm) (by simp)
    exact ⟨hd, id, .inl ⟨find_drop hne, id⟩⟩
  | pollerChecked => exact ⟨hd, id, .inl ⟨rfl, id⟩⟩
  | @pollerCycled i dialed served results net woken hc =>
    refine ⟨?_, List.mem_append_left _,
      .inr ⟨?_, .inr ⟨i, rfl, fun t hf => hi.find_cycled hd hs hc hf⟩⟩⟩
    · simp only [Store.find_mapValues, hd, Option.map_some, receive_streams hs]
    · intro hm
      simp [hm]
  | pollerExited => exact ⟨hd, id, .inl ⟨rfl, id⟩⟩
  | shutdown =>
    refine ⟨?_, List.mem_append_left _, .inr ⟨?_, .inl rfl⟩⟩
    · simp only [World.shutdown, Store.find_mapValues, hd, Option.map_some, hangUp_streams hs,
        ite_self]
    · intro hm
      simp [World.shutdown, NetstackState.shutdown, hm]

end Frame

def Awake (w : World) : Prop :=
  ∀ d h dial, w.dials.find d = some dial → dial.Streams h → .dial d ∈ w.woken ∨
    .dial d ∈ w.net.wakers ∧
    ∃ t, w.net.sockets.find h = some (.tcp t) ∧ ¬t.state.Decisive

lemma not_streams_over {o : Outcome} {lost : Option ℕ} : ¬(Dial.over o lost).Streams h := by
  rintro (he | ⟨deadline, he⟩) <;> cases he

lemma find_of_setDial {d' : ℕ} {dial' : Dial} (hs : dial.Streams h) (hn : ¬dial'.Streams h)
    (hf : (w.dials.insert d' dial').find d = some dial) :
    some d' ≠ some d ∧ w.dials.find d = some dial := by
  by_cases he : d = d'
  · rw [he, Store.find_insert_self] at hf
    cases hf
    exact absurd hs hn
  · exact ⟨fun h => he (Option.some.inj h).symm, by rwa [Store.find_insert_of_ne _ _ he] at hf⟩

lemma streams_before (hm : Moved w a w') (hd : w'.dials.find d = some dial) (hs : dial.Streams h) :
    (a.dial? ≠ some d ∧ w.dials.find d = some dial) ∨ .dial d ∈ w'.woken ∨ .dial d ∈ w'.net.wakers ∧
      ∃ t, w'.net.sockets.find h = some (.tcp t) ∧ ¬t.state.Decisive := by
  cases hm with
  | dialRefused hf => exact .inl (find_of_setDial hs not_streams_over hd)
  | dialStart hf hfresh =>
      exact .inl (find_of_setDial hs (by rintro (he | ⟨_, he⟩) <;> cases he) hd)
  | dialQueue hd' => exact .inl (find_of_setDial hs (by rintro (he | ⟨_, he⟩) <;> cases he) hd)
  | dialDropLost hd' => exact .inl (find_of_setDial hs not_streams_over hd)
  | dialDrop hd' hf => exact .inl (find_of_setDial hs not_streams_over hd)
  | @dialWaits n d' h' now wall hd' =>
    refine .inl ⟨?_, hd⟩
    rintro he
    cases he
    rw [show (w.answer (.dial d)).dials = w.dials from rfl, hd'] at hd
    cases hd
    rcases hs with he | ⟨_, he⟩ <;> cases he
  | dialLost hd' => exact .inl (find_of_setDial hs not_streams_over hd)
  | dialConnected hd' hs' hf he => exact .inl (find_of_setDial hs not_streams_over hd)
  | dialFailed hd' hs' hf he => exact .inl (find_of_setDial hs not_streams_over hd)
  | @dialParked n d' h' dial' now wall deadline t hd' hs' hf he =>
    by_cases hdd : d' = d
    · subst hdd
      rw [setDial, Store.find_insert_self] at hd
      cases hd
      obtain rfl : h' = h := by
        rcases hs with he | ⟨_, he⟩ <;> cases he
        rfl
      exact .inr (.inr ⟨by simp [wait, setDial], t, hf, he⟩)
    · rw [setDial, Store.find_insert_of_ne _ _ (Ne.symm hdd)] at hd
      exact .inl ⟨fun he => hdd (Option.some.inj he), hd⟩
  | @pollerCycled i dialed served results net woken hc =>
    obtain ⟨dial₀, hd₀, he⟩ := Option.map_eq_some_iff.mp hd
    simp only at he
    rcases hr : results.lookup d with _ | r
    · refine .inl ⟨fun he => (by cases he), ?_⟩
      rw [hd₀, ← he, hr]
      cases dial₀ with
      | queued h' channel => cases channel <;> rfl
      | _ => rfl
    · refine .inr (.inl ?_)
      have hm : Waker.dial d ∈ results.map fun r => Waker.dial r.1 :=
        List.mem_map.mpr ⟨(d, r), mem_of_lookup hr, rfl⟩
      simp [hm]
  | shutdown =>
    obtain ⟨dial₀, hd₀, he⟩ := Option.map_eq_some_iff.mp hd
    simp only at he
    refine .inl ⟨fun he => (by cases he), ?_⟩
    rw [hd₀, ← he]
    split
    · cases dial₀ with
      | queued h' channel =>
        cases channel with
        | waiting =>
          simp only [Dial.hangUp] at he
          split at he
          · subst he
            rcases hs with he | ⟨_, he⟩ <;> cases he
          · next hn hp => exact absurd hn hp
        | _ => rfl
      | _ => rfl
    · rfl
  | streamUsed ho hm hf hu => exact .inl ⟨by rw [Action.dial?, ho]; simp, hd⟩
  | udpUsed ho hm hf hu => exact .inl ⟨by rw [Action.dial?, ho]; simp, hd⟩
  | pingUsed ho hm hf => exact .inl ⟨by rw [Action.dial?, ho]; simp, hd⟩
  | bound hb hp hfresh => exact .inl ⟨by rw [dial?_of_bindsAt hb]; simp, hd⟩
  | _ => exact .inl ⟨fun he => (by cases he), hd⟩

lemma awake_moved (hi : Inv w) (hw : Awake w) (hm : Moved w a w') : Awake w' := by
  intro d h dial hd hs
  rcases streams_before hm hd hs with ⟨ha, hd₀⟩ | hwake
  · have hk := dialKept_moved hi hd₀ hs hm ha
    rcases hw d h dial hd₀ hs with hm | ⟨hm, ht⟩
    · exact Or.inl (hk.woken hm)
    · rcases hk.rest with ⟨hf, hwakers⟩ | ⟨hwakers, -⟩
      · exact Or.inr ⟨hwakers hm, by rwa [hf]⟩
      · exact Or.inl (hwakers hm)
  · exact hwake

lemma Reachable.awake (hr : Reachable w) : Inv w ∧ Awake w := by
  obtain ⟨ourAddr, ckr, source, actions, hrun⟩ := hr
  apply hrun.invariant (I := fun w => Inv w ∧ Awake w)
  · exact ⟨inv_initial ourAddr ckr source, fun d h dial hd => by cases hd⟩
  · rintro v a v' ⟨hi, hw⟩ hs
    exact ⟨inv_step v a v' hi hs, awake_moved hi hw (moved_of_step hi hs)⟩

lemma Reachable.run {actions : List Action} (hr : Reachable w) (hrun : Run Step w actions w') :
    Reachable w' := by
  obtain ⟨ourAddr, ckr, source, before, hb⟩ := hr
  exact ⟨ourAddr, ckr, source, before ++ actions, hb.append hrun⟩

def Undisturbed (d h : ℕ) (a : Action) : Prop :=
  a.dial? ≠ some d ∧ a ≠ .shutdown ∧
    ∀ i, a = .pollerCycle i → ∀ t : TcpSocket, t.Finished → (i.effect.tcp h t).Finished

def HandshakeDone (w : World) (d h : ℕ) : Prop :=
  ∃ dial, w.dials.find d = some dial ∧ dial.Streams h ∧ ∃ t, w.net.sockets.find h = some (.tcp t) ∧
    t.Finished

lemma connected_moved (hi : Inv w) (hc : w.HandshakeDone d h) (hm : Moved w a w')
    (hu : Undisturbed d h a) :
    w'.HandshakeDone d h := by
  obtain ⟨dial, hd, hs, t, hf, ht⟩ := hc
  have hk := dialKept_moved hi hd hs hm hu.1
  refine ⟨dial, hk.dial, hs, ?_⟩
  rcases hk.rest with ⟨hsame, -⟩ | ⟨-, he | ⟨i, hc, hcycle⟩⟩
  · exact ⟨t, by rw [hsame, hf], ht⟩
  · exact absurd he hu.2.1
  · exact ⟨i.effect.tcp h t, hcycle t hf, hu.2.2 i hc t ht⟩

lemma pollDial_streams (hd : w.dials.find d = some dial) (hs : dial.Streams h) (now wall : ℤ) :
    ∃ deadline, w.pollDial d now wall = w.pollConnect d h deadline now wall := by
  rcases hs with rfl | ⟨deadline, rfl⟩
  · exact ⟨now + connectTimeout, by rw [pollDial, hd]⟩
  · exact ⟨deadline, by rw [pollDial, hd]⟩

lemma pollConnect_finished {t : TcpSocket} (hf : w.net.sockets.find h = some (.tcp t))
    (ht : t.Finished)
    (deadline now wall : ℤ) :
    ∃ p w', w.pollConnect d h deadline now wall = .ok (p, w') ∧ p.isReady = true ∧
      (p = .ready (.stream (.ok h)) ↔ t.state ≠ .closeWait) := by
  rw [pollConnect, SocketSet.getTcp_eq_ok.mpr hf, ok_bind]
  rcases ht with he | he
  · rw [show t.waitConnected = .ready (.ok ()) by simp [TcpSocket.waitConnected, he]]
    exact ⟨_, _, rfl, rfl, by simp [he]⟩
  · rw [show t.waitConnected = .ready (.error ⟨.connectionRefused, "connection refused"⟩) by
      simp [TcpSocket.waitConnected, he], dropStream_eq wall hf]
    exact ⟨_, _, rfl, rfl, by simp [he]⟩

/-- Once its handshake is done and while nobody resets it, a dial has been woken and its next poll,
whenever that is, ends the call: with the stream exactly if the peer has not closed its side yet. -/
theorem connected_dial_returns_iff {actions : List Action} (hr : Reachable w)
    (hc : w.HandshakeDone d h)
    (hrun : Run (fun w a w' => Step w a w' ∧ Undisturbed d h a) w actions w') (n : ℕ)
    (now wall : ℤ) :
    .dial d ∈ w'.woken ∧ ∃ t p v, w'.net.sockets.find h = some (.tcp t) ∧
      w'.poll n (.dial d now wall) = .ok (p, v) ∧ p.isReady = true ∧
      (p = .ready (.stream (.ok h)) ↔ t.state ≠ .closeWait) := by
  obtain ⟨hinv, dial, hd, hs, t, hf, ht⟩ : Inv w' ∧ w'.HandshakeDone d h := by
    apply hrun.invariant (I := fun w => Inv w ∧ w.HandshakeDone d h) ⟨hr.inv, hc⟩
    rintro v a v' ⟨hi, hc⟩ ⟨hs, hu⟩
    exact ⟨inv_step v a v' hi hs, connected_moved hi hc (moved_of_step hi hs) hu⟩
  constructor
  · rcases (hr.run (hrun.mono fun _ _ _ h => h.1)).awake.2 d h dial hd hs with hm | ⟨-, t', hf',
      hdec⟩
    · exact hm
    · rw [hf] at hf'
      cases hf'
      apply absurd _ hdec
      rcases ht with he | he
      · exact Or.inl he
      · exact Or.inr (Or.inr (Or.inr he))
  · obtain ⟨deadline, hpoll⟩ := pollDial_streams (w := w'.answer (.dial d)) hd hs now wall
    obtain ⟨p, v, he, hready, hiff⟩ :=
      pollConnect_finished (w := w'.answer (.dial d)) (d := d) hf ht deadline now wall
    exact ⟨t, p, v, hf, by rw [← he, ← hpoll]; rfl, hready, hiff⟩

def dialRun (state : TcpState) (rx : List UInt8) : List Action :=
  [.dialStart 7 ⟨.ipv6 2, 80⟩ 0 3, .dialQueue 7, .pollerCheck,
    .pollerCycle (cycleAt 3 state rx 0 [])]

def lateByte : List Action := [.pollerCheck, .pollerCycle (cycleAt 3 .established [42] 1 [])]

theorem established_dial_returns : ∃ w w' v, Reachable w ∧ w.HandshakeDone 7 3 ∧
    Run (fun w a w' => Step w a w' ∧ Undisturbed 7 3 a) w lateByte w' ∧
    w'.poll 0 (.dial 7 1 1) = .ok (.ready (.stream (.ok 3)), v) := by
  have hr := Reachable.of_runAll 1 false (fun _ => some (.ipv6 1)) (dialRun .established []) rfl
  obtain ⟨w, w', hr, hdone, hrun, hstate⟩ : ∃ w w', Reachable w ∧ w.HandshakeDone 7 3 ∧
      Run Step w lateByte w' ∧
      ∃ t, w'.net.sockets.find 3 = some (.tcp t) ∧ t.state = .established :=
    ⟨_, _, hr, ⟨_, rfl, Or.inl rfl, _, rfl, Or.inl rfl⟩, .of_runAll rfl, _, rfl, rfl⟩
  have hguard : ∀ a ∈ lateByte, World → Undisturbed 7 3 a := by
    intro a ha _
    simp only [lateByte, List.mem_cons, List.not_mem_nil, or_false] at ha
    rcases ha with rfl | rfl <;> refine ⟨by simp [Action.dial?], by simp, fun i hi => ?_⟩ <;> cases hi
    exact fun t _ => Or.inl rfl
  have hrun := hrun.guard (p := fun _ => Undisturbed 7 3) hguard
  obtain ⟨-, t, p, v, hf, hpoll, -, hiff⟩ := connected_dial_returns_iff hr hdone hrun 0 1 1
  obtain ⟨t', hf', hstate⟩ := hstate
  obtain rfl : t = t' := by simpa using hf.symm.trans hf'
  exact ⟨w, w', v, hr, hdone, hrun, hpoll.trans (by rw [hiff.mpr (by simp [hstate])])⟩

theorem half_closed_dial_refused :
    ¬∀ (w w' : World) (d h : ℕ) (actions : List Action), Reachable w →
    w.HandshakeDone d h → Run (fun w a w' => Step w a w' ∧ Undisturbed d h a) w actions w' →
      ∀ n now wall, ∃ v, w'.poll n (.dial d now wall) = .ok (.ready (.stream (.ok h)), v) := by
  intro hall
  have hr := Reachable.of_runAll 1 false (fun _ => some (.ipv6 1)) (dialRun .closeWait [42]) rfl
  obtain ⟨v, hv⟩ := hall _ _ 7 3 [] hr ⟨_, rfl, Or.inl rfl, _, rfl, Or.inr rfl⟩ (.nil _) 0 0 0
  cases hv

end World

end Yggstack.Netstack
