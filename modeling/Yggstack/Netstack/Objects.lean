import Yggstack.Netstack.Dialing
import Yggstack.Netstack.Stopped

namespace Yggstack.Netstack

open Library

def Operation.socket? : Operation → Option ℕ
  | .dial _ _ _ | .accept _ => none
  | .read h _ | .write h _ | .shutdown h => some h
  | .recvFrom h _ | .sendTo h _ _ _ => some h
  | .sendEcho h _ _ _ _ | .recvReply h _ => some h

def Action.drops? : Action → Option ℕ
  | .dropStream h _ | .dropUdp h | .dropPing h => some h
  | _ => none

def Action.uses? : Action → Option ℕ
  | .poll _ op => op.socket?
  | _ => none

def Action.wakesAll : Action → Bool
  | .pollerCycle _ | .shutdown => true
  | _ => false

lemma Action.quiet {a : Action} (h : a.wakesAll = false) :
    (∀ i, a ≠ .pollerCycle i) ∧ a ≠ .shutdown := by
  constructor
  · rintro i rfl
    cases h
  · rintro rfl
    cases h

def PollEffect.socket (e : PollEffect) (h : ℕ) : Socket → Socket
  | .tcp t => .tcp (e.tcp h t)
  | .udp u => .udp (e.udp h u)
  | .icmp i => .icmp (e.icmp h i)

def Socket.stopped : Socket → Socket
  | .tcp t => .tcp t.abort
  | sock => sock

def Socket.lift {α β : Type} (view : Socket → Option α) (wrap : α → Socket) (reply : β → Reply)
    (f : α → Poll β × α) (sock : Socket) : Poll Reply × Socket :=
  match view sock with
  | some a => ((f a).1.map reply, wrap (f a).2)
  | none => (.pending, sock)

def World.Holder.isObject : World.Holder → Bool
  | .stream | .udp | .ping => true
  | _ => false

namespace World

def call (w : World) : Operation → Option (ℕ × Holder × (Socket → Poll Reply × Socket))
  | .dial _ _ _ | .accept _ => none
  | .read h n => some (h, .stream, Socket.lift Socket.tcp? .tcp .bytes fun t => t.pollRead n)
  | .write h data => some (h, .stream, Socket.lift Socket.tcp? .tcp .count fun t => t.pollWrite data)
  | .shutdown h => some (h, .stream, Socket.lift Socket.tcp? .tcp .unit TcpSocket.pollShutdown)
  | .recvFrom h n => some (h, .udp, Socket.lift Socket.udp? .udp .datagram fun u => u.recvFrom n)
  | .sendTo h data target room =>
    some (h, .udp, Socket.lift Socket.udp? .udp .count fun u => u.sendTo data target room)
  | .sendEcho h dst seq payload room => (w.pingSockets.lookup h).map fun ident =>
    (h, .ping, Socket.lift Socket.icmp? .icmp .unit fun i =>
      i.sendEcho w.net.closed (echoRequest ident seq payload) dst room)
  | .recvReply h n =>
    some (h, .ping, Socket.lift Socket.icmp? .icmp .echo fun i => i.recvReply w.net.closed n)

def polled (w : World) (n h : ℕ) (r : Poll Reply × Socket) : World :=
  ((w.answer (.task n)).putSocket h r.2).wait (if r.1.isReady then [] else [.task n])

variable {w w' : World} {a : Action} {h n : ℕ} {op : Operation} {p : Holder} {r : Poll Reply}

section Calls

variable {α β : Type} {view : Socket → Option α} {wrap : α → Socket} {k : Kind} {g : β → Reply}
    {f : α → Poll β × α}

variable (hi : Inv w) (hv : TypedView view wrap p.kind) (hm : w.Holds h p)
include hi hv hm

lemma onNet_pollSocket :
    ∃ sock, w.net.sockets.find h = some sock ∧
      (w.answer (.task n)).onNet g
        ((w.answer (.task n)).net.pollSocket view wrap h (.task n) f) =
        .ok ((Socket.lift view wrap g f sock).1,
          w.polled n h (Socket.lift view wrap g f sock)) := by
  obtain ⟨a, hf⟩ := hv.exists_find (hi.holds_kind hm)
  have hl : Socket.lift view wrap g f (wrap a) = ((f a).1.map g, wrap (f a).2) := by
    rw [Socket.lift, hv.view_wrap]
  refine ⟨wrap a, hf, ?_⟩
  rw [hl, hv.pollSocket_eq (s := (w.answer (.task n)).net) (.task n) f hf, onNet, ok_bind]
  simp only [polled, Poll.isReady_map]
  rfl

lemma called (hc : w.call op = some (h, p, Socket.lift view wrap g f)) (hob : p.isObject = true)
    (hp : (w.answer (.task n)).onNet g
      ((w.answer (.task n)).net.pollSocket view wrap h (.task n) f) = .ok (r, w')) :
    ∃ p f sock, w.call op = some (h, p, f) ∧ p.isObject = true ∧ w.Holds h p ∧
      w.net.sockets.find h = some sock ∧ r = (f sock).1 ∧ w' = w.polled n h (f sock) := by
  obtain ⟨sock, hf, he⟩ := onNet_pollSocket (n := n) (f := f) (g := g) hi hv hm
  rw [he] at hp
  obtain ⟨rfl, rfl⟩ := Prod.mk.inj (Except.ok.inj hp)
  exact ⟨p, _, sock, hc, hob, hm, hf, rfl, rfl⟩

end Calls

lemma poll_call (hi : Inv w) (hop : op.socket? = some h) (hp : w.poll n op = .ok (r, w')) :
    ∃ p f sock, w.call op = some (h, p, f) ∧ p.isObject = true ∧ w.Holds h p ∧
      w.net.sockets.find h = some sock ∧ r = (f sock).1 ∧ w' = w.polled n h (f sock) := by
  cases op with
  | dial d now wall => cases hop
  | accept port => cases hop
  | read j k =>
    cases hop
    obtain ⟨u, hm, hp⟩ := bind_eq_ok.mp hp
    have hm : h ∈ w.streams := (require_ends _).of_ok hm
    exact called (p := .stream) hi tcpView hm rfl rfl hp
  | write j data =>
    cases hop
    obtain ⟨u, hm, hp⟩ := bind_eq_ok.mp hp
    have hm : h ∈ w.streams := (require_ends _).of_ok hm
    exact called (p := .stream) hi tcpView hm rfl rfl hp
  | shutdown j =>
    cases hop
    obtain ⟨u, hm, hp⟩ := bind_eq_ok.mp hp
    have hm : h ∈ w.streams := (require_ends _).of_ok hm
    exact called (p := .stream) hi tcpView hm rfl rfl hp
  | recvFrom j k =>
    cases hop
    obtain ⟨u, hm, hp⟩ := bind_eq_ok.mp hp
    have hm : h ∈ w.udpSockets := (require_ends _).of_ok hm
    exact called (p := .udp) hi udpView hm rfl rfl hp
  | sendTo j data target room =>
    cases hop
    obtain ⟨u, hm, hp⟩ := bind_eq_ok.mp hp
    have hm : h ∈ w.udpSockets := (require_ends _).of_ok hm
    exact called (p := .udp) hi udpView hm rfl rfl hp
  | sendEcho j dst seq payload room =>
    cases hop
    rw [poll, pollOp] at hp
    split at hp
    · cases hp
    · rename_i ident hl
      have hlookup : w.pingSockets.lookup h = some ident := hl
      have hmem : (h, ident) ∈ w.pingSockets := mem_of_lookup hlookup
      refine called (p := .ping) hi icmpView (List.mem_map_of_mem hmem) ?_ rfl hp
      rw [call, hlookup]
      rfl
  | recvReply j k =>
    cases hop
    obtain ⟨u, hm, hp⟩ := bind_eq_ok.mp hp
    have hm : h ∈ w.pingSockets.map Prod.fst := (require_ends _).of_ok hm
    exact called (p := .ping) hi icmpView hm rfl rfl hp

def callee? : Operation → Option Holder
  | .dial _ _ _ | .accept _ => none
  | .read _ _ | .write _ _ | .shutdown _ => some .stream
  | .recvFrom _ _ | .sendTo _ _ _ _ => some .udp
  | .sendEcho _ _ _ _ _ | .recvReply _ _ => some .ping

lemma callee_of_call {f : Socket → Poll Reply × Socket} (hc : w.call op = some (h, p, f)) :
    callee? op = some p := by
  cases op with
  | dial | accept => cases hc
  | sendEcho j dst seq payload room =>
    obtain ⟨ident, -, he⟩ := Option.map_eq_some_iff.mp hc
    cases he
    rfl
  | _ => cases hc; rfl

lemma callee_of_poll (hi : Inv w) (hm : w.Holds h p) (hop : op.socket? = some h)
    (hp : w.poll n op = .ok (r, w')) : callee? op = some p := by
  obtain ⟨q, f, sock, hcall, -, hq, -⟩ := poll_call hi hop hp
  rw [callee_of_call hcall, hi.holder_unique hq hm]

section Frame

variable (hi : Inv w) (hp : w.Holds h p) (hob : p.isObject = true)
include hi hp hob

lemma Inv.other_of_object {j : ℕ} {q : Holder} (hq : w.Holds j q) (hne : q.isObject = false) :
    j ≠ h := by
  rintro rfl
  rw [hi.holder_unique hq hp, hob] at hne
  cases hne

omit hob in
lemma Inv.object_ne_of_fresh {j : ℕ} (hf : w.net.sockets.find j = none) : j ≠ h := by
  rintro rfl
  have hk := hi.holds_kind hp
  rw [SocketSet.kindAt_eq_none.mpr hf] at hk
  cases hk

lemma Inv.object_not_pending : h ∉ w.net.pendingConnects.map PendingConnect.handle := by
  intro hm
  obtain ⟨cmd, hc, rfl⟩ := List.mem_map.mp hm
  exact hi.other_of_object hp hob (q := .dial cmd.dial) (Or.inr ⟨cmd, hc, rfl, rfl⟩) rfl rfl

def Framed (w : World) (a : Action) (w' : World) (h : ℕ) : Prop :=
  (∀ i, a ≠ .pollerCycle i) ∧ w'.net.sockets.find h = w.net.sockets.find h ∨
    (∃ i, a = .pollerCycle i ∧
      w'.net.sockets.find h = (w.net.sockets.find h).map (i.effect.socket h)) ∨
    a = .shutdown ∧ w'.net.sockets.find h = (w.net.sockets.find h).map Socket.stopped

lemma framed_cycled {i : CycleInput} {dialed served : SocketSet}
    {results : List (ℕ × Except SocketError Unit)} {net : NetstackState}
    (hc : Cycled w.net i dialed served results net) :
    net.sockets.find h = (w.net.sockets.find h).map (i.effect.socket h) := by
  have hmem : ∃ k, (h, k) ∈ w.dials.collect (fun _ => Dial.held) + tag .tcp w.streams +
      tag .udp w.udpSockets + tag .icmp (w.pingSockets.map Prod.fst) := by
    cases p with
    | stream =>
      have hm : h ∈ w.streams := hp
      exact ⟨.tcp, by simp [hm]⟩
    | udp =>
      have hm : h ∈ w.udpSockets := hp
      exact ⟨.udp, by simp [hm]⟩
    | ping =>
      have hm : h ∈ w.pingSockets.map Prod.fst := hp
      refine ⟨.icmp, ?_⟩
      rw [Multiset.mem_add]
      exact Or.inr (by simpa using hm)
    | _ => cases hob
  obtain ⟨k, hk⟩ := hmem
  rw [(hc.ledger hi.ledger).2.1 (h, k) (by simpa [held, add_assoc] using hk), PollEffect.apply,
    Store.find_mapValues, hc.connects.other h (hi.object_not_pending hp hob)]
  rfl

omit hi hp hob in
lemma framed_put {j : ℕ} (sock : Socket) (hne : j ≠ h) :
    (w.net.sockets.insert j sock).find h = w.net.sockets.find h :=
  Store.find_insert_of_ne _ _ (Ne.symm hne)

lemma framed_moved (hm : Moved w a w') (hu : ∀ n op, a = .poll n op → op.dial? ≠ none)
    (hd : a.drops? ≠ some h) : Framed w a w' h := by
  cases hm with
  | dialStart _ hfresh =>
    exact .inl ⟨(Action.quiet rfl).1, framed_put _ (hi.object_ne_of_fresh hp hfresh)⟩
  | dialDrop hd' hf =>
    have hne := hi.other_of_object hp hob (q := .dial _) (Or.inl ⟨_, hd', rfl⟩) rfl
    exact .inl ⟨(Action.quiet rfl).1, framed_put _ hne⟩
  | dialFailed hd' hs' hf he =>
    have hne := hi.other_of_object hp hob (q := .dial _) (Or.inl ⟨_, hd', hs'.handle?⟩) rfl
    exact .inl ⟨(Action.quiet rfl).1, framed_put _ hne⟩
  | accepted | acceptParked => exact absurd rfl (hu _ _ rfl)
  | streamUsed ho | udpUsed ho | pingUsed ho => exact absurd ho (hu _ _ rfl)
  | listenFailed hfresh =>
    exact .inl ⟨(Action.quiet rfl).1, framed_put _ (hi.object_ne_of_fresh hp hfresh)⟩
  | listened _ _ hfresh =>
    refine .inl ⟨(Action.quiet rfl).1, ?_⟩
    rw [Store.find_insertAll, if_neg]
    intro hmem
    exact hi.object_ne_of_fresh hp (hfresh h hmem) rfl
  | bindFailed hfresh =>
    exact .inl ⟨(Action.quiet rfl).1, framed_put _ (hi.object_ne_of_fresh hp hfresh)⟩
  | bound hb _ hfresh =>
    refine .inl ⟨fun i he => ?_, framed_put _ (hi.object_ne_of_fresh hp hfresh)⟩
    subst he
    cases hb
  | pingOpened hfresh =>
    exact .inl ⟨(Action.quiet rfl).1, framed_put _ (hi.object_ne_of_fresh hp hfresh)⟩
  | streamDropped =>
    refine .inl ⟨(Action.quiet rfl).1, ?_⟩
    exact framed_put _ fun he => hd (congrArg some he)
  | udpDropped =>
    refine .inl ⟨(Action.quiet rfl).1, ?_⟩
    exact Store.find_erase_of_ne _ fun he => hd (congrArg some he.symm)
  | pingDropped =>
    refine .inl ⟨(Action.quiet rfl).1, ?_⟩
    exact Store.find_erase_of_ne _ fun he => hd (congrArg some he.symm)
  | pollerCycled hc => exact .inr (.inl ⟨_, rfl, framed_cycled hi hp hob hc⟩)
  | shutdown =>
    refine .inr (.inr ⟨rfl, ?_⟩)
    rw [shutdown, NetstackState.shutdown, Store.find_mapValues]
    rfl
  | _ => exact .inl ⟨(Action.quiet rfl).1, rfl⟩

omit hi hp hob in
lemma poll_accept_sockets {port : UInt16} (hs : w.poll n (.accept port) = .ok (r, w')) :
    w'.net.sockets = w.net.sockets := by
  obtain ⟨u, -, hs⟩ := bind_eq_ok.mp hs
  rw [NetstackState.accept] at hs
  simp only at hs
  split at hs <;> cases hs <;> rfl

lemma framed_step (hs : Step w a w') (hu : a.uses? ≠ some h) (hd : a.drops? ≠ some h) :
    Framed w a w' h := by
  by_cases hpoll : ∃ n op, a = .poll n op
  · obtain ⟨n, op, rfl⟩ := hpoll
    obtain ⟨⟨r, v⟩, hr, hv⟩ := bind_eq_ok.mp hs
    cases hv
    cases hop : op.socket? with
    | some j =>
      obtain ⟨q, f, sock, -, -, hq, hf, -, rfl⟩ := poll_call hi hop hr
      have hne : j ≠ h := fun he => hu (hop.trans (congrArg some he))
      exact .inl ⟨(Action.quiet rfl).1, framed_put (w := w.answer (.task n)) _ hne⟩
    | none =>
      cases op with
      | dial d now wall =>
        refine framed_moved hi hp hob (moved_of_step hi hs) ?_ hd
        rintro n op he
        cases he
        exact Option.some_ne_none d
      | accept port => exact .inl ⟨(Action.quiet rfl).1, by rw [poll_accept_sockets hr]⟩
      | _ => cases hop
  · exact framed_moved hi hp hob (moved_of_step hi hs) (fun n op he => absurd ⟨n, op, he⟩ hpoll) hd

end Frame

lemma object_kept (hm : Moved w a w') (hd : a.drops? ≠ some h) (hob : p.isObject = true)
    (hp : w.Holds h p) : w'.Holds h p := by
  cases p with
  | stream =>
    cases hm with
    | dialConnected | accepted => exact List.mem_append_left _ hp
    | streamDropped => exact (List.mem_erase_of_ne fun he => hd (congrArg some he.symm)).mpr hp
    | _ => exact hp
  | udp =>
    cases hm with
    | bound => exact List.mem_append_left _ hp
    | udpDropped => exact (List.mem_erase_of_ne fun he => hd (congrArg some he.symm)).mpr hp
    | _ => exact hp
  | ping =>
    cases hm with
    | pingOpened =>
      obtain ⟨x, hx, he⟩ := List.mem_map.mp hp
      exact List.mem_map.mpr ⟨x, List.mem_append_left _ hx, he⟩
    | @pingDropped j ident =>
      obtain ⟨x, hx, he⟩ := List.mem_map.mp hp
      have hne : x ≠ (j, ident) := fun hxj => hd (congrArg some ((congrArg Prod.fst hxj).symm.trans he))
      exact List.mem_map.mpr ⟨x, (List.mem_erase_of_ne hne).mpr hx, he⟩
    | _ => exact hp
  | _ => cases hob

lemma object_step (hi : Inv w) (hs : Step w a w') (hd : a.drops? ≠ some h)
    (hob : p.isObject = true) (hp : w.Holds h p) : w'.Holds h p :=
  object_kept (moved_of_step hi hs) hd hob hp

end World

end Yggstack.Netstack
