import Yggstack.Netstack.Moves

/-! Every handle that the netstack, a dial or an object holds is held once and names a socket of the
right type, so no access to the socket set can panic. -/

namespace Yggstack.Netstack

open Library

namespace World

variable {w w' : World} {d h : ℕ} {dial : Dial}

lemma collect_setDial (hd : w.dials.find d = some dial) (dial' : Dial) :
    (w.dials.insert d dial').collect (fun _ => Dial.held) + dial.held =
      w.dials.collect (fun _ => Dial.held) + dial'.held := by
  rw [Store.collect_of_find hd, Store.collect_insert]
  abel

section Steps

variable (hi : Inv w)
include hi

lemma Inv.move (hk : ∀ j, w'.net.sockets.kindAt j = w.net.sockets.kindAt j) (hh : w'.held = w.held)
    (hp : ∀ cmd ∈ w'.net.pendingConnects, ∃ dial, w'.dials.find cmd.dial = some dial ∧
    dial.Awaits cmd.handle)
    (hn : (w'.net.pendingConnects.map PendingConnect.dial).Nodup) : Inv w' :=
  ⟨hh ▸ hi.ledger.congr fun x _ => hk x.1, hp, hn⟩

lemma Inv.same (hk : ∀ j, w'.net.sockets.kindAt j = w.net.sockets.kindAt j) (hh : w'.held = w.held)
    (hp : w'.net.pendingConnects = w.net.pendingConnects) (hd : w'.dials = w.dials) : Inv w' :=
  hi.move hk hh (by rw [hp, hd]; exact hi.pending) (by rw [hp]; exact hi.nodup)

lemma Inv.add {sock : Socket} (hfresh : w.net.sockets.find h = none)
    (hs : w'.net.sockets = w.net.sockets.insert h sock) (hh : w'.held = tag sock.kind [h] + w.held)
    (hp : ∀ cmd ∈ w'.net.pendingConnects, ∃ dial, w'.dials.find cmd.dial = some dial ∧
    dial.Awaits cmd.handle)
    (hn : (w'.net.pendingConnects.map PendingConnect.dial).Nodup) : Inv w' := by
  refine ⟨?_, hp, hn⟩
  rw [hs, hh]
  exact SocketSet.ledger_alloc hi.ledger hfresh sock

lemma Inv.leak (sock : Socket) (hfresh : w.net.sockets.find h = none) : Inv (w.putSocket h sock) :=
  ⟨(SocketSet.ledger_alloc hi.ledger hfresh sock).of_le (Multiset.le_add_left _ _), hi.pending,
    hi.nodup⟩

omit hi in
lemma not_awaited (hd : w.dials.find d = some dial) (hnot : ∀ h, ¬dial.Awaits h) :
    ∀ dial' h', w.dials.find d = some dial' → ¬dial'.Awaits h' := by
  intro dial' h' hf
  rw [hd] at hf
  cases hf
  exact hnot h'

lemma inv_dialStart {remote : IpEndpoint} {port : UInt16} (hfree : w.dials.find d = none)
    (hfresh : w.net.sockets.find h = none) :
    Inv ((w.putSocket h (.tcp .new)).setDial d (.created h remote port)) := by
  refine hi.add hfresh rfl ?_ (hi.pending_setDial (by simp [hfree]) _) hi.nodup
  simp only [held, setDial, putSocket, Store.collect_insert, Store.erase_of_find hfree, Dial.held,
    Dial.handle?,
    NetstackState.held, Option.toList_some, Socket.kind]
  abel

lemma inv_dialQueue {remote : IpEndpoint} {localPort : UInt16}
    (hd : w.dials.find d = some (.created h remote localPort)) :
    Inv { w.setDial d (.queued h .waiting) with net := { w.net with
      pendingConnects := w.net.pendingConnects ++ [⟨h, remote, localPort, d⟩] } } := by
  have hnot := not_awaited hd (by rintro j (he | ⟨o, he⟩) <;> simp at he)
  refine hi.move (fun _ => rfl) ?_ ?_ ?_
  · have hc := collect_setDial hd (.queued h .waiting)
    simp only [held, setDial, NetstackState.held] at hc ⊢
    rw [add_right_cancel hc]
  · intro cmd hc
    rcases List.mem_append.mp hc with hc | hc
    · exact hi.pending_setDial hnot _ cmd hc
    · obtain rfl := List.mem_singleton.mp hc
      exact ⟨_, Store.find_insert_self _ _ _, Or.inl rfl⟩
  · simp only [List.map_append, List.map_cons, List.map_nil]
    refine List.nodup_append.mpr ⟨hi.nodup, by simp, ?_⟩
    intro x hx y hy he
    obtain ⟨cmd, hc, rfl⟩ := List.mem_map.mp hx
    obtain ⟨dial, hf, ha⟩ := hi.pending cmd hc
    have hdial : cmd.dial = d := by simpa [he] using hy
    exact hnot dial cmd.handle (hdial ▸ hf) ha

lemma inv_lose {o : Outcome} {channel : Channel} (hd : w.dials.find d = some (.queued h channel)) :
    Inv (w.setDial d (.over o (some h))) := by
  refine hi.move (fun _ => rfl) ?_ ?_ hi.nodup
  · have hc := collect_setDial hd (.over o (some h))
    rw [Dial.held_eq rfl,
      Dial.held_eq (show (Dial.over o (some h)).handle? = some h from rfl)] at hc
    simp only [held, setDial, add_right_cancel hc]
  · intro cmd hc
    obtain ⟨dial, hf, ha⟩ := hi.pending cmd hc
    by_cases he : cmd.dial = d
    · refine ⟨_, by rw [he]; exact Store.find_insert_self _ _ _, Or.inr ⟨o, ?_⟩⟩
      rw [he, hd] at hf
      cases hf
      obtain rfl : h = cmd.handle := Option.some.inj ha.handle?
      rfl
    · exact ⟨dial, by rw [setDial, Store.find_insert_of_ne _ _ he, hf], ha⟩

lemma inv_closeDial {t : TcpSocket} {o : Outcome} {wall : ℤ} (hd : w.dials.find d = some dial)
    (hs : dial.Streams h)
    (hf : w.net.sockets.find h = some (.tcp t)) :
    Inv ((w.closeStream h t wall).setDial d (.over o none)) := by
  refine hi.move ?_ ?_ (hi.pending_setDial (not_awaited hd hs.not_awaits) _) hi.nodup
  · exact SocketSet.kindAt_insert_same (by rw [SocketSet.kindAt_of_find hf]; rfl)
  · have hc := collect_setDial hd (.over o none)
    rw [Dial.held_eq hs.handle?, Dial.held_over_none, add_zero] at hc
    simp only [held, setDial, closeStream, NetstackState.held, closingHandles, List.map_append,
      List.map_cons,
      List.map_nil, tag_append, ← hc]
    abel

lemma inv_connected (hd : w.dials.find d = some dial) (hs : dial.Streams h) :
    Inv { w.setDial d (.over (.connected h) none) with streams := w.streams ++ [h] } := by
  refine hi.move (fun _ => rfl) ?_ (hi.pending_setDial (not_awaited hd hs.not_awaits) _) hi.nodup
  have hc := collect_setDial hd (.over (.connected h) none)
  rw [Dial.held_eq hs.handle?, Dial.held_over_none, add_zero] at hc
  simp only [held, setDial, tag_append, ← hc]
  abel

lemma inv_parked {deadline : ℤ} (hd : w.dials.find d = some dial) (hs : dial.Streams h) :
    Inv (w.setDial d (.connecting h deadline)) := by
  refine hi.move (fun _ => rfl) ?_ (hi.pending_setDial (not_awaited hd hs.not_awaits) _) hi.nodup
  have hc := collect_setDial hd (.connecting h deadline)
  rw [Dial.held_eq hs.handle?,
    Dial.held_eq (show (Dial.connecting h deadline).handle? = some h from rfl)] at hc
  simp only [held, setDial, add_right_cancel hc]

lemma inv_listened {port : UInt16} {handles : List ℕ} (hn : handles.Nodup)
    (hfresh : ∀ h ∈ handles, w.net.sockets.find h = none) : Inv { w with
      net := { w.net with
        sockets := w.net.sockets.insertAll handles (.tcp (listenSocket (NetstackState.ourEndpoint w.ourAddr port)))
        listeners := w.net.listeners ++ [newEntry (NetstackState.ourEndpoint w.ourAddr port) handles] }
      tcpListeners := w.tcpListeners ++ [port] } := by
  refine ⟨?_, hi.pending, hi.nodup⟩
  have hkind : ∀ x ∈ w.held, x.1 ∉ handles := by
    intro x hx hm
    have hp := hi.ledger.present x hx
    rw [SocketSet.kindAt_eq_none.mpr (hfresh x.1 hm)] at hp
    exact absurd hp (by simp)
  have hl : Ledger (SocketSet.kindAt (w.net.sockets.insertAll handles
      (.tcp (listenSocket (NetstackState.ourEndpoint w.ourAddr port)))))
      (tag .tcp handles + w.held) := by
    refine hi.ledger.alloc (Ledger.of_tag hn ?_) ?_ ?_
    · intro h hm
      rw [SocketSet.kindAt, Store.find_insertAll, if_pos hm]
      rfl
    · intro x hx
      exact SocketSet.kindAt_eq_none.mpr (hfresh x.1 (mem_tag.mp hx).1)
    · intro x hx
      rw [SocketSet.kindAt, SocketSet.kindAt, Store.find_insertAll, if_neg (hkind x hx)]
  convert hl using 1
  simp only [held, NetstackState.held, listenerHandles, List.flatMap_append, List.flatMap_cons,
    List.flatMap_nil,
    TcpListenerEntry.handles, newEntry, List.map_map, Function.comp_def, List.map_id',
    List.append_nil, tag_append]
  abel

lemma inv_accept {port : UInt16} {k : Waker} {p : Poll ℕ} {listeners : List TcpListenerEntry}
    (ha : NetstackState.acceptFrom port k w.net.listeners = (p, listeners)) :
    match p with
    | .ready h => Inv { w with net := { w.net with listeners }, streams := w.streams ++ [h] }
    | .pending => Inv { w with net := { w.net with listeners } } := by
  have hh := acceptFrom_handles port k w.net.listeners
  rw [ha] at hh
  cases p with
  | ready h =>
    refine hi.same (fun _ => rfl) ?_ rfl rfl
    simp only [held, NetstackState.held, tag_append, tag_perm _ hh,
      tag_cons _ _ (listenerHandles listeners)]
    abel
  | pending =>
    refine hi.same (fun _ => rfl) ?_ rfl rfl
    simp only [held, NetstackState.held, hh]

lemma inv_putSocket {sock sock' : Socket} (hf : w.net.sockets.find h = some sock)
    (hk : sock'.kind = sock.kind) :
    Inv (w.putSocket h sock') :=
  hi.same (SocketSet.kindAt_insert_same (by rw [SocketSet.kindAt_of_find hf, hk])) rfl rfl rfl

lemma inv_streamDropped {t : TcpSocket} {wall : ℤ} (hm : h ∈ w.streams)
    (hf : w.net.sockets.find h = some (.tcp t)) :
    Inv { w.closeStream h t wall with streams := w.streams.erase h } := by
  refine hi.same ?_ ?_ rfl rfl
  · exact SocketSet.kindAt_insert_same (by rw [SocketSet.kindAt_of_find hf]; rfl)
  · simp only [held, closeStream, NetstackState.held, closingHandles, List.map_append,
      List.map_cons, List.map_nil,
      tag_append, tag_erase _ hm]
    abel

lemma inv_udpDropped (hm : h ∈ w.udpSockets) : Inv { w with
    net := { w.net with sockets := w.net.sockets.erase h }, udpSockets := w.udpSockets.erase h } := by
  refine ⟨SocketSet.ledger_erase (k := .udp) ?_, hi.pending, hi.nodup⟩
  convert hi.ledger using 1
  simp only [held, NetstackState.held, tag_erase _ hm]
  abel

lemma inv_pingDropped {ident : UInt16} (hm : (h, ident) ∈ w.pingSockets) : Inv { w with
    net := { w.net with sockets := w.net.sockets.erase h }, pingSockets := w.pingSockets.erase (h, ident) } := by
  refine ⟨SocketSet.ledger_erase (k := .icmp) ?_, hi.pending, hi.nodup⟩
  have hperm := (List.perm_cons_erase hm).map Prod.fst
  rw [List.map_cons] at hperm
  convert hi.ledger using 1
  simp only [held, NetstackState.held, tag_perm _ hperm, tag_cons _ h (List.map Prod.fst _)]
  abel

lemma inv_cycled {i : CycleInput} {dialed served : SocketSet}
    {results : List (ℕ × Except SocketError Unit)}
    {net : NetstackState} {woken : List Waker} {poller : Poller}
    (hc : Cycled w.net i dialed served results net) :
    Inv { w with
      net, poller, woken
      dials := w.dials.mapValues fun d dial => dial.receive (results.lookup d) } := by
  refine ⟨?_, by simp [hc.pending], by simp [hc.pending]⟩
  convert (hc.ledger hi.ledger).1 using 1
  have hcollect : (w.dials.mapValues fun d dial => dial.receive (results.lookup d)).collect
      (fun _ => Dial.held) =
      w.dials.collect (fun _ => Dial.held) := by
    refine Store.collect_mapValues fun d dial _ => ?_
    rw [Dial.held, Dial.held, Dial.receive.eq_def]
    split
    · split <;> rfl
    · rfl
  simp only [held, hcollect]

lemma inv_shutdown : Inv w.shutdown := by
  refine ⟨?_,
    by simp [shutdown, NetstackState.shutdown], by simp [shutdown, NetstackState.shutdown]⟩
  have hl := hi.ledger.of_le (Multiset.le_add_left _ (tag Kind.tcp w.net.held))
  have hcollect :
      w.shutdown.dials.collect (fun _ => Dial.held) = w.dials.collect (fun _ => Dial.held) := by
    refine Store.collect_mapValues fun d dial _ => ?_
    split
    · rw [Dial.held, Dial.held, Dial.hangUp.eq_def]
      split <;> rfl
    · rfl
  have hheld : tag Kind.tcp w.shutdown.net.held = 0 := by
    simp [shutdown, NetstackState.shutdown, NetstackState.held, closingHandles]
  rw [held, hheld, hcollect, zero_add]
  refine hl.congr fun x _ => ?_
  rw [SocketSet.kindAt, SocketSet.kindAt, shutdown, NetstackState.shutdown, Store.find_mapValues]
  rcases w.net.sockets.find x.1 with _ | (s | s | s) <;> rfl

lemma Inv.answer (k : Waker) : Inv (w.answer k) := hi.same (fun _ => rfl) rfl rfl rfl

lemma Inv.wait (wakers : List Waker) : Inv (w.wait wakers) := hi.same (fun _ => rfl) rfl rfl rfl

lemma inv_moved {a : Action} (hm : Moved w a w') : Inv w' := by
  cases hm with
  | dialRefused hfree =>
    refine hi.move (fun _ => rfl) ?_ (hi.pending_setDial (by simp [hfree]) _) hi.nodup
    simp [held, setDial, Store.collect_insert, Store.erase_of_find hfree]
  | dialStart hfree hfresh => exact inv_dialStart hi hfree hfresh
  | dialQueue hd => exact inv_dialQueue hi hd
  | dialDropLost hd => exact inv_lose hi hd
  | dialDrop hd hf => exact inv_closeDial hi hd (Or.inr ⟨_, rfl⟩) hf
  | dialWaits hd => exact hi.answer _
  | dialLost hd => exact inv_lose (hi.answer _) hd
  | dialConnected hd hs hf he => exact inv_connected (hi.answer _) hd hs
  | dialFailed hd hs hf he => exact inv_closeDial ((hi.answer _).wait _) hd hs hf
  | dialParked hd hs hf he => exact inv_parked ((hi.answer _).wait _) hd hs
  | accepted ha => exact inv_accept (hi.answer _) ha
  | acceptParked ha => exact inv_accept (hi.answer _) ha
  | streamUsed ho hm hf hu =>
    apply Inv.wait
    exact inv_putSocket (hi.answer _) hf rfl
  | udpUsed ho hm hf hu =>
    apply Inv.wait
    exact inv_putSocket (hi.answer _) hf rfl
  | pingUsed ho hm hf =>
    apply Inv.wait
    exact inv_putSocket (hi.answer _) hf rfl
  | listenFailed hfresh => exact hi.leak _ hfresh
  | listened hp hn hfresh => exact inv_listened hi hn hfresh
  | listenerDropped => exact hi.same (fun _ => rfl) rfl rfl rfl
  | bindFailed hfresh => exact hi.leak _ hfresh
  | bound hb hp hfresh =>
    refine hi.add hfresh rfl ?_ hi.pending hi.nodup
    simp only [held, putSocket, NetstackState.held, tag_append, Socket.kind]
    abel
  | pingOpened hfresh =>
    refine hi.add hfresh rfl ?_ hi.pending hi.nodup
    simp only [held, putSocket, NetstackState.held, List.map_append, List.map_cons, List.map_nil,
      tag_append, Socket.kind]
    abel
  | streamDropped hm hf => exact inv_streamDropped hi hm hf
  | udpDropped hm => exact inv_udpDropped hi hm
  | pingDropped hm => exact inv_pingDropped hi hm
  | pollerChecked => exact hi.same (fun _ => rfl) rfl rfl rfl
  | pollerCycled hc => exact inv_cycled hi hc
  | pollerExited => exact hi.same (fun _ => rfl) rfl rfl rfl
  | shutdown => exact inv_shutdown hi

end Steps

lemma inv_initial (ourAddr : BitVec 128) (ckr : Bool) (source : IpAddress → Option IpAddress) :
    Inv (initial ourAddr ckr source) := by
  refine ⟨?_, by simp [initial], by simp [initial]⟩
  simp only [held, initial, NetstackState.held, listenerHandles_nil, closingHandles, List.map_nil,
    List.append_nil,
    tag_nil, Store.collect_empty, add_zero]
  exact Ledger.empty

lemma inv_step (w : World) (a : Action) (w' : World) (hi : Inv w) (hs : Step w a w') : Inv w' :=
  inv_moved hi (moved_of_step hi hs)

lemma Reachable.inv (h : Reachable w) : Inv w := by
  obtain ⟨ourAddr, ckr, source, actions, hr⟩ := h
  exact hr.invariant (inv_initial ourAddr ckr source) inv_step

inductive Holder where
  | pool (k : ℕ)
  | queue (k : ℕ)
  | closing
  | dial (d : ℕ)
  | stream
  | udp
  | ping

def Holder.kind : Holder → Kind
  | .udp => .udp
  | .ping => .icmp
  | _ => .tcp

/-- The places that hold handles. A dial holds its socket until a stream takes it over or the socket
is gone, and so does the connect command it queued. -/
def Holds (w : World) (h : ℕ) : Holder → Prop
  | .pool k => ∃ entry, w.net.listeners[k]? = some entry ∧ h ∈ entry.listenPool.map Prod.fst
  | .queue k => ∃ entry, w.net.listeners[k]? = some entry ∧ h ∈ entry.acceptQueue
  | .closing => h ∈ w.net.closing.map Prod.fst
  | .dial d => (∃ dial, w.dials.find d = some dial ∧ dial.handle? = some h) ∨
      ∃ cmd ∈ w.net.pendingConnects, cmd.dial = d ∧ cmd.handle = h
  | .stream => h ∈ w.streams
  | .udp => h ∈ w.udpSockets
  | .ping => h ∈ w.pingSockets.map Prod.fst

section Claims

def Holder.entry (x : Holder × ℕ) : ℕ × Kind := (x.2, x.1.kind)

def Holder.label (p : Holder) (hs : List ℕ) : Multiset (Holder × ℕ) :=
  (hs : Multiset ℕ).map fun h => (p, h)

lemma Holder.mem_label {p : Holder} {hs : List ℕ} {h : ℕ} (hm : h ∈ hs) : (p, h) ∈ p.label hs :=
  Multiset.mem_map_of_mem _ hm

lemma Holder.map_label (p : Holder) (hs : List ℕ) :
    (p.label hs).map Holder.entry = tag p.kind hs := by
  rw [Holder.label, Multiset.map_map]
  rfl

noncomputable def listenerClaims : ℕ → List TcpListenerEntry → Multiset (Holder × ℕ)
  | _, [] => 0
  | k, entry :: entries => (Holder.pool k).label (entry.listenPool.map Prod.fst) +
      (Holder.queue k).label entry.acceptQueue + listenerClaims (k + 1) entries

lemma map_listenerClaims (k : ℕ) (entries : List TcpListenerEntry) :
    (listenerClaims k entries).map Holder.entry = tag .tcp (listenerHandles entries) := by
  induction entries generalizing k with
  | nil => rfl
  | cons entry entries ih =>
    simp only [listenerClaims, Multiset.map_add, Holder.map_label, ih, Holder.kind,
      listenerHandles_cons,
      TcpListenerEntry.handles, tag_append]

lemma mem_listenerClaims {k j h : ℕ} {entries : List TcpListenerEntry} {entry : TcpListenerEntry}
    (hk : entries[k]? = some entry) :
    (h ∈ entry.listenPool.map Prod.fst → (Holder.pool (j + k), h) ∈ listenerClaims j entries) ∧
      (h ∈ entry.acceptQueue → (Holder.queue (j + k), h) ∈ listenerClaims j entries) := by
  induction entries generalizing k j with
  | nil => simp at hk
  | cons first entries ih =>
    simp only [listenerClaims, Multiset.mem_add]
    cases k with
    | zero =>
      obtain rfl : first = entry := by simpa using hk
      exact ⟨fun hm => .inl (.inl (Holder.mem_label hm)), fun hm =>
        .inl (.inr (Holder.mem_label hm))⟩
    | succ k =>
      obtain ⟨hp, hq⟩ := ih (k := k) (j := j + 1) (by simpa using hk)
      rw [show j + (k + 1) = j + 1 + k by omega]
      exact ⟨fun hm => .inr (hp hm), fun hm => .inr (hq hm)⟩

noncomputable def claims (w : World) : Multiset (Holder × ℕ) :=
  listenerClaims 0 w.net.listeners + Holder.closing.label (closingHandles w.net.closing) +
    (w.dials.collect (fun d dial => (Holder.dial d).label dial.handle?.toList) + Holder.stream.label
      w.streams +
      Holder.udp.label w.udpSockets + Holder.ping.label (w.pingSockets.map Prod.fst))

lemma map_claims (w : World) : w.claims.map Holder.entry = w.held := by
  simp only [claims, held, NetstackState.held, Multiset.map_add, Holder.map_label,
    map_listenerClaims, tag_append,
    Store.map_collect]
  rfl

lemma Inv.mem_claims (hi : Inv w) {h : ℕ} {p : Holder} (hp : w.Holds h p) : (p, h) ∈ w.claims := by
  simp only [claims, Multiset.mem_add]
  cases p with
  | pool k =>
    obtain ⟨entry, hk, hm⟩ := hp
    have := (mem_listenerClaims (j := 0) hk).1 hm
    exact .inl (.inl (by rwa [Nat.zero_add] at this))
  | queue k =>
    obtain ⟨entry, hk, hm⟩ := hp
    have := (mem_listenerClaims (j := 0) hk).2 hm
    exact .inl (.inl (by rwa [Nat.zero_add] at this))
  | closing => exact .inl (.inr (Holder.mem_label hp))
  | dial d =>
    obtain ⟨dial, hd, hh⟩ : ∃ dial, w.dials.find d = some dial ∧ dial.handle? = some h := by
      rcases hp with hp | ⟨cmd, hc, rfl, rfl⟩
      · exact hp
      · obtain ⟨dial, hd, ha⟩ := hi.pending cmd hc
        exact ⟨dial, hd, ha.handle?⟩
    exact .inr
      (.inl (.inl (.inl (Store.mem_collect.mpr ⟨d, dial, hd, Holder.mem_label (by simp [hh])⟩))))
  | stream => exact .inr (.inl (.inl (.inr (Holder.mem_label hp))))
  | udp => exact .inr (.inl (.inr (Holder.mem_label hp)))
  | ping => exact .inr (.inr (Holder.mem_label hp))

lemma Inv.holds_kind (hi : Inv w) {h : ℕ} {p : Holder} (hp : w.Holds h p) :
    w.net.sockets.kindAt h = some p.kind := by
  refine hi.ledger.present (h, p.kind) ?_
  rw [← map_claims]
  exact Multiset.mem_map_of_mem Holder.entry (hi.mem_claims hp)

lemma Inv.holder_unique (hi : Inv w) {h : ℕ} {p q : Holder} (hp : w.Holds h p) (hq : w.Holds h q) :
    p = q := by
  have hn : (w.claims.map Prod.snd).Nodup := by
    have hl := hi.ledger.nodup
    rwa [← map_claims, Multiset.map_map] at hl
  have he := Multiset.inj_on_of_nodup_map hn (p, h) (hi.mem_claims hp) (q, h) (hi.mem_claims hq) rfl
  exact congrArg Prod.fst he

lemma Inv.lists_nodup (hi : Inv w) :
    (w.net.held ++ w.streams ++ w.udpSockets ++ w.pingSockets.map Prod.fst).Nodup := by
  have hl := hi.ledger.nodup
  rw [held, add_assoc, add_assoc, add_left_comm] at hl
  have hle := Multiset.nodup_of_le (Multiset.map_le_map (Multiset.le_add_left _ _)) hl
  simpa only [Multiset.map_add, map_fst_tag, Multiset.coe_add, Multiset.coe_nodup,
    List.append_assoc] using hle

end Claims

/-- In every reachable state each handle is in one place, listed there once, and its socket is in
the set with the type that place relies on; so no step of anybody panics on a handle. -/
theorem handles_held_once (h : Reachable w) :
    (∀ j p, w.Holds j p → w.net.sockets.kindAt j = some p.kind) ∧
      (∀ j p q, w.Holds j p → w.Holds j q → p = q) ∧
      (w.net.held ++ w.streams ++ w.udpSockets ++ w.pingSockets.map Prod.fst).Nodup ∧
      ∀ a e, w.exec a = .error e → e ≠ .handle ∧ e ≠ .kind := by
  have hi := h.inv
  refine ⟨fun j p hp => hi.holds_kind hp, fun j p q hp hq => hi.holder_unique hp hq, hi.lists_nodup,
    ?_⟩
  intro a e he
  rcases (exec_moved hi a).of_error he with rfl | rfl <;> simp

theorem dialing_handle_held_once :
    ∃ w, Reachable w ∧ w.Holds 3 (.dial 7) ∧ w.net.sockets.kindAt 3 = some .tcp ∧
      ¬w.Holds 3 .stream := by
  have hr :=
    Reachable.of_runAll 0 false (fun _ => none) [.dialStart 7 ⟨.ipv6 1, 80⟩ 0 3, .dialQueue 7] rfl
  obtain ⟨hkind, hone, -, -⟩ := handles_held_once hr
  refine ⟨_, hr, Or.inl ⟨_, rfl, rfl⟩, hkind 3 (.dial 7) (Or.inl ⟨_, rfl, rfl⟩), fun hs => ?_⟩
  cases hone 3 (.dial 7) .stream (Or.inl ⟨_, rfl, rfl⟩) hs

end World

end Yggstack.Netstack
