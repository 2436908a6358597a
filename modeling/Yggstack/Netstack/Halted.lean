import Yggstack.Netstack.Dialing
import Yggstack.Netstack.Ports
import Yggstack.Netstack.Wakers

namespace Yggstack.Netstack

open Library

/-- A closed socket stays closed, and no handshake is done by the end of the poll it begins in. -/
structure PollEffect.Unanswered (e : PollEffect) : Prop where
  closed : ∀ j t, t.state = .closed → (e.tcp j t).state = .closed
  opening : ∀ j t, t.state = .listen ∨ t.state = .synSent → ¬(e.tcp j t).Finished

namespace SocketSet

variable {s s' : SocketSet} {h j : ℕ} {t t' : TcpSocket}

def ClosedAt (s : SocketSet) (h : ℕ) : Prop := ∃ t, s.find h = some (.tcp t) ∧ t.state = .closed

structure Calm (s s' : SocketSet) : Prop where
  state : ∀ h t', s'.find h = some (.tcp t') → (∃ t, s.find h = some (.tcp t) ∧
    (t'.state = t.state ∨ t'.state = TcpSocket.closeState t.state)) ∨
    t'.state = .closed ∨ t'.state = .listen
  closed : ∀ h, s.ClosedAt h → ClosedAt s' h

namespace Calm

lemma refl (s : SocketSet) : Calm s s :=
  ⟨fun _ t hf => .inl ⟨t, hf, .inl rfl⟩, fun _ h => h⟩

lemma fresh {sock : Socket} (hf : s.find j = none)
    (hsock : ∀ t, sock = .tcp t → t.state = .closed ∨ t.state = .listen) :
    Calm s (s.insert j sock) := by
  constructor
  · intro h t' hf'
    rw [Store.find_insert] at hf'
    split at hf'
    · exact .inr (hsock t' (Option.some.inj hf'))
    · exact .inl ⟨t', hf', .inl rfl⟩
  · rintro h ⟨t, ht, hclosed⟩
    refine ⟨t, ?_, hclosed⟩
    rw [Store.find_insert_of_ne _ _ fun he : h = j => ?_, ht]
    rw [he, hf] at ht
    cases ht

lemma used (hf : s.find j = some (.tcp t))
    (hu : t'.state = t.state ∨ t'.state = TcpSocket.closeState t.state) :
    Calm s (s.insert j (.tcp t')) := by
  constructor
  · intro h u hf'
    rw [Store.find_insert] at hf'
    split at hf'
    · next he =>
      cases hf'
      exact .inl ⟨t, by rw [he, hf], hu⟩
    · exact .inl ⟨u, hf', .inl rfl⟩
  · rintro h ⟨u, hu', hclosed⟩
    by_cases he : h = j
    · subst he
      obtain rfl : t = u := by
        rw [hf] at hu'
        cases hu'
        rfl
      refine ⟨t', Store.find_insert_self _ _ _, ?_⟩
      rw [hclosed] at hu
      exact hu.elim id id
    · exact ⟨u, by rw [Store.find_insert_of_ne _ _ he, hu'], hclosed⟩

lemma other {sock sock' : Socket} (hf : s.find j = some sock) (hk : sock.kind ≠ .tcp)
    (hk' : sock'.kind ≠ .tcp) : Calm s (s.insert j sock') := by
  constructor
  · intro h t' hf'
    rw [Store.find_insert] at hf'
    split at hf'
    · cases hf'
      exact absurd rfl hk'
    · exact .inl ⟨t', hf', .inl rfl⟩
  · rintro h ⟨t, ht, hclosed⟩
    refine ⟨t, ?_, hclosed⟩
    rw [Store.find_insert_of_ne _ _ fun he : h = j => ?_, ht]
    rw [he, hf] at ht
    cases ht
    exact hk rfl

lemma erase {k : Kind} (hf : s.kindAt j = some k) (hk : k ≠ .tcp) : Calm s (s.erase j) := by
  constructor
  · intro h t' hf'
    rw [Store.find_erase] at hf'
    split at hf'
    · cases hf'
    · exact .inl ⟨t', hf', .inl rfl⟩
  · rintro h ⟨t, ht, hclosed⟩
    refine ⟨t, ?_, hclosed⟩
    rw [Store.find_erase_of_ne _ fun he : h = j => ?_, ht]
    rw [← he, kindAt, ht] at hf
    exact hk (Option.some.inj hf).symm

lemma insertAll {js : List ℕ} {sock : Socket} (hf : ∀ j ∈ js, s.find j = none)
    (hsock : ∀ t, sock = .tcp t → t.state = .closed ∨ t.state = .listen) :
    Calm s (s.insertAll js sock) := by
  constructor
  · intro h t' hf'
    rw [Store.find_insertAll] at hf'
    split at hf'
    · exact .inr (hsock t' (Option.some.inj hf'))
    · exact .inl ⟨t', hf', .inl rfl⟩
  · rintro h ⟨t, ht, hclosed⟩
    refine ⟨t, ?_, hclosed⟩
    rw [Store.find_insertAll, if_neg, ht]
    intro hm
    rw [hf h hm] at ht
    cases ht

end Calm

end SocketSet

lemma listenSocket_opening (ep : IpListenEndpoint) :
    (listenSocket ep).state = .closed ∨ (listenSocket ep).state = .listen := by
  by_cases hp : ep.port = 0
  · exact .inl (by simp [listenSocket, TcpSocket.listen, hp, TcpSocket.new])
  · exact .inr (by simp [listenSocket, TcpSocket.listen, hp, TcpSocket.isOpen, TcpSocket.new])

namespace World

open SocketSet

variable {u v w w' : World} {a : Action} {d h : ℕ}

lemma calm_moved (hi : Inv w) (hm : Moved w a w') (hc : ∀ i, a ≠ .pollerCycle i)
    (hs : a ≠ .shutdown) : Calm w.net.sockets w'.net.sockets := by
  have hnew : ∀ t, Socket.tcp .new = .tcp t → t.state = .closed ∨ t.state = .listen := by
    rintro _ ⟨⟩
    exact .inl rfl
  cases hm with
  | dialStart _ hfresh | listenFailed hfresh => exact .fresh hfresh hnew
  | bindFailed hfresh | bound _ _ hfresh | pingOpened hfresh =>
    exact .fresh hfresh fun t he => by cases he
  | dialDrop _ hf | dialFailed _ _ hf _ | streamDropped _ hf => exact .used hf (.inr rfl)
  | streamUsed _ _ hf hu => exact .used hf hu.state
  | udpUsed _ _ hf _ | pingUsed _ _ hf =>
    exact .other hf (by simp [Socket.kind]) (by simp [Socket.kind])
  | listened _ _ hfresh =>
    refine .insertAll hfresh ?_
    rintro _ ⟨⟩
    exact listenSocket_opening _
  | udpDropped hmem => exact .erase (hi.of_udp hmem) (by simp)
  | pingDropped hmem => exact .erase (hi.of_ping (List.mem_map_of_mem hmem)) (by simp)
  | @pollerCycled i => exact absurd rfl (hc i)
  | shutdown => exact absurd rfl hs
  | _ => exact .refl _

def UnderWay (w : World) (d : ℕ) : Prop :=
  ∃ h, (∃ channel, w.dials.find d = some (.queued h channel)) ∨
    ∃ deadline, w.dials.find d = some (.connecting h deadline)

def Released (w : World) (dial : Dial) : Prop :=
  (∃ o lost, dial = .over o lost) ∨
    (∃ h channel, dial = .queued h channel ∧ channel ≠ .waiting ∧ channel ≠ .sent (.ok ())) ∨
    ∃ h, dial.Streams h ∧ w.net.sockets.ClosedAt h

lemma Released.calm {dial : Dial} (hd : w.Released dial)
    (hc : Calm w.net.sockets w'.net.sockets) : w'.Released dial :=
  hd.imp_right fun hd => hd.imp_right fun ⟨h, hs, hclosed⟩ => ⟨h, hs, hc.closed h hclosed⟩

lemma released_setDial {d' : ℕ} {dial dial' : Dial} (hf : w.dials.find d = some dial)
    (hd : v.Released dial) (hd' : d' = d → v.Released dial') :
    ∃ dial, (w.dials.insert d' dial').find d = some dial ∧ v.Released dial := by
  by_cases he : d = d'
  · subst he
    exact ⟨dial', Store.find_insert_self _ _ _, hd' rfl⟩
  · exact ⟨dial, by rw [Store.find_insert_of_ne _ _ he, hf], hd⟩

lemma released_over (v : World) (o : Outcome) (lost : Option ℕ) : v.Released (.over o lost) :=
  .inl ⟨o, lost, rfl⟩

lemma not_released_created {j : ℕ} {remote : IpEndpoint} {port : UInt16} :
    ¬w.Released (.created j remote port) := by
  rintro (⟨o, lost, he⟩ | ⟨h, channel, he, -⟩ | ⟨h, hs, -⟩)
  · cases he
  · cases he
  · rcases hs with he | ⟨deadline, he⟩ <;> cases he

lemma released_moved {dial : Dial} (hi : Inv w) (hm : Moved w a w') (hc : ∀ i, a ≠ .pollerCycle i)
    (hs : a ≠ .shutdown) (hf : w.dials.find d = some dial) (hd : w.Released dial) :
    ∃ dial, w'.dials.find d = some dial ∧ w'.Released dial := by
  have hd' := hd.calm (calm_moved hi hm hc hs)
  cases hm with
  | dialRefused | dialDropLost | dialDrop | dialLost | dialConnected | dialFailed =>
    exact released_setDial hf hd' fun _ => released_over _ _ _
  | dialStart hnone =>
    refine released_setDial hf hd' fun he => ?_
    rw [← he, hnone] at hf
    cases hf
  | dialQueue hcreated =>
    refine released_setDial hf hd' fun he => ?_
    rw [← he, hcreated] at hf
    cases hf
    exact absurd hd not_released_created
  | dialParked hparked hstreams =>
    refine released_setDial hf hd' fun he => ?_
    rw [← he, hparked] at hf
    cases hf
    rcases hd' with ⟨o, lost, rfl⟩ | ⟨j, channel, rfl, -, hok⟩ | ⟨j, hs', hclosed⟩
    · exact absurd hstreams not_streams_over
    · rcases hstreams with he | ⟨deadline, he⟩
      · cases he
        exact absurd rfl hok
      · cases he
    · have hj := Option.some.inj (hstreams.handle?.symm.trans hs'.handle?)
      rw [← hj] at hclosed
      exact .inr (.inr ⟨_, .inr ⟨_, rfl⟩, hclosed⟩)
  | @pollerCycled i => exact absurd rfl (hc i)
  | shutdown => exact absurd rfl hs
  | _ => exact ⟨dial, hf, hd'⟩

def WaitsInLine (w : World) : Prop :=
  ∀ d h, w.dials.find d = some (.queued h .waiting) →
    d ∈ w.net.pendingConnects.map PendingConnect.dial

lemma waiting_of_setDial {d' : ℕ} {dial' : Dial} (hn : ∀ j, dial' ≠ .queued j .waiting)
    (hf : (w.dials.insert d' dial').find d = some (.queued h .waiting)) :
    w.dials.find d = some (.queued h .waiting) := by
  rw [Store.find_insert] at hf
  split at hf
  · exact absurd (Option.some.inj hf) (hn h)
  · exact hf

lemma waitsInLine_moved (hw : w.WaitsInLine) (hm : Moved w a w') : w'.WaitsInLine := by
  intro d h hf
  cases hm with
  | dialRefused | dialStart | dialDropLost | dialDrop | dialLost | dialConnected | dialFailed |
      dialParked =>
    exact hw d h (waiting_of_setDial (fun j he => by cases he) hf)
  | @dialQueue d' handle =>
    rw [List.map_append, List.mem_append]
    by_cases he : d = d'
    · exact .inr (by simp [he])
    · rw [setDial, Store.find_insert_of_ne _ _ he] at hf
      exact .inl (hw d h hf)
  | @pollerCycled i dialed served results net woken hc =>
    obtain ⟨dial, hd, he⟩ := Option.map_eq_some_iff.mp hf
    simp only at he
    -- A dial in line has a result, and does not wait any more.
    have hmem : d ∉ w.net.pendingConnects.map PendingConnect.dial := by
      intro hmem
      rw [← hc.connects.dials] at hmem
      obtain ⟨entry, hentry, rfl⟩ := List.mem_map.mp hmem
      obtain ⟨r, hr⟩ := Option.isSome_iff_exists.mp
        (List.lookup_isSome_iff.mpr ⟨entry, hentry, beq_self_eq_true _⟩)
      rw [hr] at he
      cases dial with
      | queued j channel => cases channel <;> cases he
      | _ => cases he
    have hwaiting : dial = .queued h .waiting := by
      cases dial with
      | queued j channel =>
        cases channel with
        | waiting =>
          simp only [Dial.receive] at he
          split at he
          · cases he
          · exact he
        | _ => exact he
      | _ => exact he
    exact absurd (hw d h (hwaiting ▸ hd)) hmem
  | shutdown =>
    obtain ⟨dial, hd, he⟩ := Option.map_eq_some_iff.mp hf
    simp only at he
    split at he
    · cases dial with
      | queued j channel => cases channel <;> cases he
      | _ => cases he
    · next hno => exact absurd (hw d h (he ▸ hd)) hno
  | _ => exact hw d h hf

lemma Reachable.waitsInLine (hr : Reachable w) : w.WaitsInLine := by
  obtain ⟨ourAddr, ckr, source, actions, hrun⟩ := hr
  have hboth : Inv w ∧ w.WaitsInLine := by
    apply hrun.invariant (I := fun w => Inv w ∧ w.WaitsInLine)
    · exact ⟨inv_initial ourAddr ckr source, fun d h hd => by cases hd⟩
    · rintro v a v' ⟨hi, hw⟩ hs
      exact ⟨inv_step v a v' hi hs, waitsInLine_moved hw (moved_of_step hi hs)⟩
  exact hboth.2

section Cycle

variable {i : CycleInput} {dialed served : SocketSet} {net : NetstackState}
  {results : List (ℕ × Except SocketError Unit)}
  (hi : Inv w) (hc : Cycled w.net i dialed served results net)

include hi hc

lemma dialed_opening (hidle : ∀ h t, w.net.sockets.find h = some (.tcp t) →
    t.state = .closed ∨ t.state = .listen) {t : TcpSocket} (hf : dialed.find h = some (.tcp t)) :
    t.state = .closed ∨ t.state = .listen ∨ t.state = .synSent := by
  by_cases hm : h ∈ w.net.pendingConnects.map PendingConnect.handle
  · obtain ⟨cmd, hcmd, rfl⟩ := List.mem_map.mp hm
    obtain ⟨t₀, ht₀, ht, -⟩ := hc.connects.own hi.pending_handles_nodup cmd hcmd
    rw [SocketSet.getTcp_eq_ok] at ht₀ ht
    rw [hf] at ht
    obtain rfl : t = t₀.connected w.net.sourceAddress cmd := by simpa using ht
    rw [TcpSocket.connected]
    cases hr : t₀.connect w.net.sourceAddress cmd.remote cmd.localPort with
    | ok t₁ =>
      rw [TcpSocket.connect] at hr
      repeat' split at hr
      all_goals cases hr
      exact .inr (.inr rfl)
    | error e => exact (hidle _ _ ht₀).imp_right .inl
  · rw [hc.connects.other h hm] at hf
    exact (hidle h t hf).imp_right .inl

variable (he : i.effect.Unanswered)

include he

lemma polled_unfinished (hidle : ∀ h t, w.net.sockets.find h = some (.tcp t) →
    t.state = .closed ∨ t.state = .listen) {t : TcpSocket}
    (hf : (i.effect.apply dialed).find h = some (.tcp t)) : ¬t.Finished := by
  obtain ⟨t₀, hf₀, rfl⟩ := PollEffect.find_apply_tcp.mp hf
  rcases dialed_opening hi hc hidle hf₀ with hclosed | hopening
  · rintro (hstate | hstate) <;> rw [he.closed h t₀ hclosed] at hstate <;> cases hstate
  · exact he.opening h t₀ hopening

lemma cycled_unfinished (hidle : ∀ h t, w.net.sockets.find h = some (.tcp t) →
    t.state = .closed ∨ t.state = .listen) {t : TcpSocket}
    (hf : net.sockets.find h = some (.tcp t)) : ¬t.Finished := by
  rw [hc.sockets, Store.find_eraseAll] at hf
  split at hf
  · cases hf
  · rcases hc.service.origin hf with hpolled | ⟨entry, -, hnew⟩
    · exact polled_unfinished hi hc he hidle hpolled
    · cases hnew
      rcases listenSocket_opening entry.listenEp with hstate | hstate <;>
        rintro (hf | hf) <;> rw [hstate] at hf <;> cases hf

lemma cycled_queues (hidle : ∀ h t, w.net.sockets.find h = some (.tcp t) →
    t.state = .closed ∨ t.state = .listen)
    (hq : ∀ entry ∈ w.net.listeners, entry.acceptQueue = []) :
    ∀ entry ∈ net.listeners, entry.acceptQueue = [] := by
  intro entry' hentry'
  obtain ⟨k, hk'⟩ := List.mem_iff_getElem?.mp hentry'
  have hlen : net.listeners.length = w.net.listeners.length := by
    simpa using congrArg List.length hc.service.listenEps
  obtain ⟨entry, hk⟩ : ∃ entry, w.net.listeners[k]? = some entry := by
    have hlt := (List.getElem?_eq_some_iff.mp hk').1
    exact ⟨_, List.getElem?_eq_getElem (by omega)⟩
  have hl := hc.connects.ledger_polled i.effect hi.ledger
  obtain ⟨t, moved, new, r, others, hbefore, hserved, hlt, hkr, -, -⟩ := hc.service.entrywise hl hk
  rw [hk'] at hkr
  cases hkr
  have hmoved : moved = [] := by
    rw [List.eq_nil_iff_forall_not_mem]
    intro j hj
    obtain ⟨slot, hslot, rfl⟩ := List.mem_map.mp (hserved.promoted.mem_iff.mp hj)
    obtain ⟨hmem, hready⟩ := List.mem_filter.mp hslot
    rw [readyIn] at hready
    split at hready
    · next t₁ ht₁ =>
      rw [SocketSet.getTcp_eq_ok,
        hbefore _ (List.mem_append_left _ (List.mem_map_of_mem hmem))] at ht₁
      apply polled_unfinished hi hc he hidle ht₁
      simp only [Bool.and_eq_true] at hready
      have hsend := hready.2
      rw [TcpSocket.maySend] at hsend
      split at hsend
      · next hstate => exact .inl hstate
      · next hstate => exact .inr hstate
      · cases hsend
    · cases hready
  rw [hserved.acceptQueue, hmoved, hq entry (List.mem_of_getElem? hk), List.nil_append]

lemma cycled_stream (hm : h ∈ w.streams) (hclosed : w.net.sockets.ClosedAt h) :
    net.sockets.ClosedAt h := by
  obtain ⟨t, hf, ht⟩ := hclosed
  have hpending : h ∉ w.net.pendingConnects.map PendingConnect.handle := by
    intro hmem
    obtain ⟨cmd, hcmd, rfl⟩ := List.mem_map.mp hmem
    cases hi.holder_unique (p := .stream) (q := .dial cmd.dial) hm (.inr ⟨cmd, hcmd, rfl, rfl⟩)
  refine ⟨i.effect.tcp h t, ?_, he.closed h t ht⟩
  rw [(hc.ledger hi.ledger).2.1 (h, .tcp) (by simp [hm])]
  exact PollEffect.find_apply_tcp.mpr ⟨t, by rw [hc.connects.other h hpending, hf], rfl⟩

lemma cycled_released {dial : Dial} (r : Option (Except SocketError Unit))
    (hd : w.dials.find d = some dial) (hr : w.Released dial) :
    dial.receive r = dial ∧
      ((∃ o lost, dial = .over o lost) ∨
        (∃ h channel, dial = .queued h channel ∧ channel ≠ .waiting ∧ channel ≠ .sent (.ok ())) ∨
        ∃ h, dial.Streams h ∧ net.sockets.ClosedAt h) := by
  rcases hr with ⟨o, lost, rfl⟩ | ⟨h, channel, rfl, hwaiting, hok⟩ | ⟨h, hs, t, hf, ht⟩
  · exact ⟨rfl, .inl ⟨o, lost, rfl⟩⟩
  · refine ⟨?_, .inr (.inl ⟨h, channel, rfl, hwaiting, hok⟩)⟩
    cases channel with
    | waiting => exact absurd rfl hwaiting
    | _ => rfl
  · exact ⟨receive_streams hs r,
      .inr (.inr ⟨h, hs, _, hi.find_cycled hd hs hc hf, he.closed h t ht⟩)⟩

end Cycle

lemma acceptFrom_isReady (port : UInt16) (k : Waker) (entries : List TcpListenerEntry) :
    (NetstackState.acceptFrom port k entries).1.isReady = true ↔
      ∃ entry, entries.find? (fun e => e.listenEp.port = port) = some entry ∧
        entry.acceptQueue ≠ [] := by
  induction entries with
  | nil => simp [NetstackState.acceptFrom, Poll.isReady]
  | cons entry entries ih =>
    rw [NetstackState.acceptFrom, List.find?_cons]
    by_cases hp : entry.listenEp.port = port
    · rw [if_pos hp]
      cases hq : entry.acceptQueue <;> simp [hp, hq, Poll.isReady]
    · rw [if_neg hp]
      simpa [hp] using ih

section Halted

lemma select_moved (hm : Moved w a w') (hc : w.net.closed = true) (hp : w'.poller = .select) :
    w.poller = .select := by
  cases hm with
  | pollerChecked =>
    simp only [hc, if_true] at hp
    cases hp
  | pollerCycled => cases hp
  | pollerExited => cases hp
  | _ => exact hp

lemma select_of_cycle {i : CycleInput} (hs : Step w (.pollerCycle i) w') : w.poller = .select := by
  obtain ⟨_, hselect, -⟩ := bind_eq_ok.mp hs
  exact (require_ends _).of_ok hselect

lemma broken_moved (hm : Moved w a w') (hs : a ≠ .shutdown)
    (hf : w'.dials.find d = some (.queued h .broken)) :
    w.dials.find d = some (.queued h .broken) := by
  have hset : ∀ {d' : ℕ} {dial' : Dial}, (∀ j, dial' ≠ .queued j .broken) →
      (w.dials.insert d' dial').find d = some (.queued h .broken) →
      w.dials.find d = some (.queued h .broken) := by
    intro d' dial' hn hf
    rw [Store.find_insert] at hf
    split at hf
    · exact absurd (Option.some.inj hf) (hn h)
    · exact hf
  cases hm with
  | dialRefused | dialStart | dialDropLost | dialDrop | dialLost | dialConnected | dialFailed |
      dialParked | dialQueue => exact hset (fun j he => by cases he) hf
  | pollerCycled =>
    obtain ⟨dial, hd, he⟩ := Option.map_eq_some_iff.mp hf
    rw [hd]
    simp only [Dial.receive] at he
    split at he
    · split at he <;> cases he
    · exact congrArg some he
  | shutdown => exact absurd rfl hs
  | _ => exact hf

lemma streams_moved (hm : Moved w a w')
    (hquiet : ∀ h t, w.net.sockets.find h = some (.tcp t) → ¬t.Finished)
    (hq : ∀ entry ∈ w.net.listeners, entry.acceptQueue = []) : w'.streams ⊆ w.streams := by
  cases hm with
  | dialConnected _ _ hf hstate => exact absurd (.inl hstate) (hquiet _ _ hf)
  | @accepted n h port listeners hready =>
    have hr := (acceptFrom_isReady port (.task n) w.net.listeners).mp (by rw [hready]; rfl)
    obtain ⟨entry, hentry, hne⟩ := hr
    exact absurd (hq entry (List.mem_of_find?_eq_some hentry)) hne
  | streamDropped => exact List.erase_subset
  | _ => exact List.Subset.refl _

lemma queues_moved (hm : Moved w a w') (ha : ∀ i, a ≠ .pollerCycle i)
    (hq : ∀ entry ∈ w.net.listeners, entry.acceptQueue = []) :
    ∀ entry ∈ w'.net.listeners, entry.acceptQueue = [] := by
  obtain ⟨entries, new, he, hnew, hold⟩ := listeners_drained hm ha
  intro entry hm
  rw [he, List.mem_append] at hm
  rcases hm with hm | hm
  · rcases hold with rfl | hold
    · cases hm
    · obtain ⟨k, hk⟩ := List.mem_iff_getElem?.mp hm
      obtain ⟨entry₀, hk₀, hdrained⟩ := getElem?_of_forall₂ hold hk
      by_contra hne
      exact (hdrained hne).1 (hq entry₀ (List.mem_of_getElem? hk₀))
  · exact hnew entry hm

/-- What holds from a shutdown at `u` on: no connection is open or can be had any more, and what was
under way has failed. -/
structure Halted (u w : World) : Prop where
  inv : Inv w
  closed : w.net.closed = true
  unfinished : ∀ h t, w.net.sockets.find h = some (.tcp t) → ¬t.Finished
  idle : w.poller = .select → ∀ h t, w.net.sockets.find h = some (.tcp t) →
    t.state = .closed ∨ t.state = .listen
  queues : ∀ entry ∈ w.net.listeners, entry.acceptQueue = []
  streams : ∀ h ∈ w.streams, w.net.sockets.ClosedAt h
  released : ∀ d, u.UnderWay d → ∃ dial, w.dials.find d = some dial ∧ w.Released dial
  broken : ∀ d h, w.dials.find d = some (.queued h .broken) → u.UnderWay d

lemma released_shutdown (hr : Reachable u) (hd : u.UnderWay d) :
    ∃ dial, u.shutdown.dials.find d = some dial ∧ u.shutdown.Released dial := by
  have hdials : ∀ dial, u.dials.find d = some dial → u.shutdown.dials.find d =
      some (if d ∈ u.net.pendingConnects.map PendingConnect.dial then dial.hangUp else dial) := by
    intro dial hf
    simp only [World.shutdown, Store.find_mapValues, hf, Option.map_some]
  have hsockets : ∀ h dial, u.dials.find d = some dial → dial.handle? = some h →
      u.shutdown.net.sockets.ClosedAt h := by
    intro h dial hf hh
    obtain ⟨t, ht⟩ := hr.inv.of_dial hf hh
    rw [SocketSet.getTcp_eq_ok] at ht
    refine ⟨t.abort, ?_, rfl⟩
    simp only [World.shutdown, NetstackState.shutdown, Store.find_mapValues, ht, Option.map_some]
  obtain ⟨h, ⟨channel, hf⟩ | ⟨deadline, hf⟩⟩ := hd
  · refine ⟨_, hdials _ hf, ?_⟩
    cases channel with
    | waiting =>
      rw [if_pos (hr.waitsInLine d h hf)]
      exact .inr (.inl ⟨h, .broken, rfl, by simp, by simp⟩)
    | broken =>
      rw [show (Dial.queued h .broken).hangUp = .queued h .broken from rfl, ite_self]
      exact .inr (.inl ⟨h, .broken, rfl, by simp, by simp⟩)
    | sent result =>
      rw [show (Dial.queued h (.sent result)).hangUp = .queued h (.sent result) from rfl, ite_self]
      cases result with
      | error e => exact .inr (.inl ⟨h, _, rfl, by simp, by simp⟩)
      | ok =>
        exact .inr (.inr ⟨h, .inl rfl, hsockets h _ hf rfl⟩)
  · refine ⟨_, hdials _ hf, ?_⟩
    rw [show (Dial.connecting h deadline).hangUp = .connecting h deadline from rfl, ite_self]
    exact .inr (.inr ⟨h, .inr ⟨deadline, rfl⟩, hsockets h _ hf rfl⟩)

lemma halted_shutdown (hr : Reachable u) : Halted u u.shutdown := by
  have hclosed : ∀ h t, u.shutdown.net.sockets.find h = some (.tcp t) → t.state = .closed := by
    intro h t hf
    simp only [World.shutdown, NetstackState.shutdown, Store.find_mapValues,
      Option.map_eq_some_iff] at hf
    obtain ⟨sock, -, he⟩ := hf
    cases sock <;> cases he
    rfl
  refine ⟨inv_step u .shutdown _ hr.inv rfl, rfl, ?_, fun _ h t hf => .inl (hclosed h t hf),
    by simp [World.shutdown, NetstackState.shutdown], ?_, fun d => released_shutdown hr, ?_⟩
  · rintro h t hf (hstate | hstate) <;> rw [hclosed h t hf] at hstate <;> cases hstate
  · intro h hm
    have hi := inv_step u .shutdown _ hr.inv rfl
    obtain ⟨t, hf⟩ := tcpView.exists_find (hi.of_stream hm)
    exact ⟨t, hf, hclosed h t hf⟩
  · intro d h hf
    obtain ⟨dial, hd, he⟩ := Option.map_eq_some_iff.mp hf
    obtain ⟨channel, rfl⟩ : ∃ channel, dial = .queued h channel := by
      simp only at he
      split at he
      · cases dial with
        | queued j channel =>
          cases channel <;> cases he
          · exact ⟨_, rfl⟩
          · exact ⟨_, rfl⟩
        | _ => cases he
      · exact ⟨_, he⟩
    exact ⟨h, .inl ⟨channel, hd⟩⟩

lemma Halted.cycled {i : CycleInput} (hh : Halted u w) (hs : Step w (.pollerCycle i) w')
    (he : i.effect.Unanswered) : Halted u w' := by
  have hi := hh.inv
  have hidle := hh.idle (select_of_cycle hs)
  have hinv := inv_step w _ w' hi hs
  cases moved_of_step hi hs with
  | bound hb => cases hb
  | @pollerCycled i dialed served results net woken hc =>
    refine ⟨hinv, hc.closed.trans hh.closed, fun h t hf => cycled_unfinished hi hc he hidle hf,
      fun hp => (by cases hp), cycled_queues hi hc he hidle hh.queues,
      fun h hm => cycled_stream hi hc he hm (hh.streams h hm), ?_, ?_⟩
    · intro d hd
      obtain ⟨dial, hf, hreleased⟩ := hh.released d hd
      obtain ⟨hsame, hnext⟩ := cycled_released hi hc he (results.lookup d) hf hreleased
      refine ⟨dial, ?_, hnext⟩
      simp only [Store.find_mapValues, hf, Option.map_some, hsame]
    · intro d h hf
      exact hh.broken d h (broken_moved (.pollerCycled hc) (by simp) hf)

lemma Halted.step (hh : Halted u w) (hs : Step w a w') (ha : a ≠ .shutdown)
    (he : ∀ i, a = .pollerCycle i → i.effect.Unanswered) : Halted u w' := by
  by_cases hcycle : ∃ i, a = .pollerCycle i
  · obtain ⟨i, rfl⟩ := hcycle
    exact hh.cycled hs (he i rfl)
  have hc : ∀ i, a ≠ .pollerCycle i := fun i hi => hcycle ⟨i, hi⟩
  have hi := hh.inv
  have hm := moved_of_step hi hs
  have hcalm := calm_moved hi hm hc ha
  refine ⟨inv_step w a w' hi hs, (closed_moved hm ha).trans hh.closed, ?_, ?_,
    queues_moved hm hc hh.queues, ?_, ?_, fun d h hf => hh.broken d h (broken_moved hm ha hf)⟩
  · intro h t' hf hfin
    rcases hcalm.state h t' hf with ⟨t, ht, hstate⟩ | hstate
    · have hno := hh.unfinished h t ht
      revert hno hfin
      rw [TcpSocket.Finished, TcpSocket.Finished]
      rcases hstate with hstate | hstate <;> rw [hstate] <;> cases t.state <;>
        simp [TcpSocket.closeState]
    · rcases hfin with hfin | hfin <;> rw [hfin] at hstate <;> simp at hstate
  · intro hp h t' hf
    rcases hcalm.state h t' hf with ⟨t, ht, hstate⟩ | hstate
    · have hopening := hh.idle (select_moved hm hh.closed hp) h t ht
      rcases hopening with hopening | hopening <;> rw [hopening] at hstate
      · exact .inl (hstate.elim id id)
      · exact hstate.symm
    · exact hstate
  · intro h hmem
    exact hcalm.closed h (hh.streams h (streams_moved hm hh.unfinished hh.queues hmem))
  · intro d hd
    obtain ⟨dial, hf, hreleased⟩ := hh.released d hd
    exact released_moved hi hm hc ha hf hreleased

end Halted

end World

end Yggstack.Netstack
