import Yggstack.Library.Outcomes
import Yggstack.Netstack.Ops
import Yggstack.Netstack.Service

namespace Yggstack.Netstack

open Library

def Fault.Benign (e : Fault) : Prop := e = .supply ∨ e = .disabled

namespace SocketSet

variable {s : SocketSet} {h j : ℕ} {sock : Socket}

lemma kindAt_insert (s : SocketSet) (h j : ℕ) (sock : Socket) :
    kindAt (s.insert h sock) j = if j = h then some sock.kind else s.kindAt j := by
  rw [kindAt, kindAt, Store.find_insert]
  split <;> rfl

lemma kindAt_insert_same (hk : s.kindAt h = some sock.kind) (j : ℕ) :
    kindAt (s.insert h sock) j = s.kindAt j := by
  rw [kindAt_insert]
  split
  · next he => rw [he, hk]
  · rfl

lemma kindAt_erase_of_ne (hne : j ≠ h) : kindAt (s.erase h) j = s.kindAt j := by
  rw [kindAt, kindAt, Store.find_erase_of_ne s hne]

lemma kindAt_of_find (hf : s.find h = some sock) : s.kindAt h = some sock.kind := by
  rw [kindAt, hf]
  rfl

lemma kindAt_eq_none : s.kindAt h = none ↔ s.find h = none := by
  rw [kindAt, Option.map_eq_none_iff]

lemma add_ends (s : SocketSet) (supply : List ℕ) (sock : Socket) :
    Ends Fault.Benign (s.add supply sock) fun r =>
      ∃ h rest, supply = h :: rest ∧ s.find h = none ∧ r = (s.insert h sock, h, rest) := by
  rcases supply with _ | ⟨h, supply⟩
  · exact Or.inl rfl
  · rw [add]
    split
    · exact Or.inl rfl
    · next hf => exact ⟨h, supply, rfl, by simpa using hf, rfl⟩

lemma ledger_alloc {held : Multiset (ℕ × Kind)} (hl : Ledger s.kindAt held) (hf : s.find h = none)
    (sock : Socket) :
    Ledger (kindAt (s.insert h sock)) (tag sock.kind [h] + held) := by
  refine hl.alloc (Ledger.singleton (by simp [kindAt_insert])) ?_ ?_
  · intro x hx
    rw [(by simpa using (mem_tag.mp hx).1 : x.1 = h), kindAt_eq_none, hf]
  · intro x hx
    rw [kindAt_insert, if_neg]
    intro he
    have hp := hl.present x hx
    rw [he, kindAt_eq_none.mpr hf] at hp
    exact absurd hp (by simp)

lemma ledger_erase {held : Multiset (ℕ × Kind)} {k : Kind}
    (hl : Ledger s.kindAt (tag k [h] + held)) :
    Ledger (kindAt (s.erase h)) held :=
  hl.release fun j hj => kindAt_erase_of_ne (Ne.symm (hj (h, k) (by simp)))

end SocketSet

structure TypedView {α : Type} (view : Socket → Option α) (wrap : α → Socket)
    (k : Kind) : Prop where
  view_wrap : ∀ a, view (wrap a) = some a
  kind_wrap : ∀ a, (wrap a).kind = k
  surjective : ∀ sock : Socket, sock.kind = k → ∃ a, sock = wrap a

lemma tcpView : TypedView Socket.tcp? .tcp .tcp :=
  ⟨fun _ => rfl, fun _ => rfl, fun sock h => by cases sock <;> simp_all [Socket.kind]⟩

lemma udpView : TypedView Socket.udp? .udp .udp :=
  ⟨fun _ => rfl, fun _ => rfl, fun sock h => by cases sock <;> simp_all [Socket.kind]⟩

lemma icmpView : TypedView Socket.icmp? .icmp .icmp :=
  ⟨fun _ => rfl, fun _ => rfl, fun sock h => by cases sock <;> simp_all [Socket.kind]⟩

namespace TypedView

variable {α β : Type} {view : Socket → Option α} {wrap : α → Socket} {k : Kind} {h : ℕ}

lemma exists_find (hv : TypedView view wrap k) {s : SocketSet} (hk : s.kindAt h = some k) :
    ∃ a, s.find h = some (wrap a) := by
  obtain ⟨sock, hs, he⟩ := Option.map_eq_some_iff.mp hk
  obtain ⟨a, rfl⟩ := hv.surjective sock he
  exact ⟨a, hs⟩

lemma getAs_eq (hv : TypedView view wrap k) {s : SocketSet} {a : α}
    (hf : s.find h = some (wrap a)) :
    SocketSet.getAs view s h = .ok a := by
  simp [SocketSet.getAs, hf, hv.view_wrap]

lemma pollSocket_eq (hv : TypedView view wrap k) {s : NetstackState} {a : α} (w : Waker)
    (op : α → Poll β × α)
    (hf : s.sockets.find h = some (wrap a)) :
    s.pollSocket view wrap h w op = .ok ((op a).1, { s with
      sockets := s.sockets.insert h (wrap (op a).2)
      wakers := s.wakers ++ (if (op a).1.isReady then [] else [w]) }) := by
  rw [NetstackState.pollSocket, hv.getAs_eq hf, ok_bind]
  rcases (op a).1 with b | _
  · simp [Poll.isReady]
  · simp [Poll.isReady, NetstackState.park]

end TypedView

lemma TcpSocket.pollRead_eq (t : TcpSocket) (n : ℕ) : t.pollRead n =
    if t.canRecv ∧ 0 < n then (.ready (.ok (t.rx.take n)), { t with rx := t.rx.drop n })
    else (if t.mayRecv then .pending else .ready (.ok []), t) := by
  have hrest : (if !t.mayRecv then (.ready (.ok []), t) else (.pending, t)) =
      ((if t.mayRecv then .pending else .ready (.ok []) : Poll (IoResult (List UInt8))), t) := by
    cases t.mayRecv <;> rfl
  by_cases hc : t.canRecv = true
  · obtain ⟨hm, hr⟩ : t.mayRecv = true ∧ t.rx ≠ [] := by simpa [TcpSocket.canRecv] using hc
    obtain ⟨x, xs, hx⟩ := List.exists_cons_of_ne_nil hr
    cases n with
    | zero => simp [TcpSocket.pollRead, TcpSocket.recvSlice, hc, hm]
    | succ n => simp [TcpSocket.pollRead, TcpSocket.recvSlice, hc, hm, hx]
  · rw [if_neg (fun h => hc h.1), TcpSocket.pollRead, if_neg hc]
    exact hrest

lemma dropStream_eq {s : NetstackState} {h : ℕ} {t : TcpSocket} (now : ℤ)
    (hf : s.sockets.find h = some (.tcp t)) :
    s.dropStream h now = .ok { s with
      sockets := s.sockets.insert h (.tcp t.close), closing := s.closing ++ [(h, now)] } := by
  rw [NetstackState.dropStream, SocketSet.getTcp_eq_ok.mpr hf]
  rfl

lemma dropSocket_eq {s : NetstackState} {h : ℕ} {sock : Socket}
    (hf : s.sockets.find h = some sock) :
    s.dropSocket h = .ok { s with sockets := s.sockets.erase h } := by
  rw [NetstackState.dropSocket, SocketSet.remove_eq (by simp [hf])]
  rfl

lemma acceptFrom_handles (port : UInt16) (w : Waker) (entries : List TcpListenerEntry) :
    match NetstackState.acceptFrom port w entries with
    | (.ready h, entries') => (listenerHandles entries).Perm (h :: listenerHandles entries')
    | (.pending, entries') => listenerHandles entries' = listenerHandles entries := by
  induction entries with
  | nil => rfl
  | cons entry entries ih =>
    rw [NetstackState.acceptFrom]
    by_cases hp : entry.listenEp.port = port
    · rw [if_pos hp]
      cases hq : entry.acceptQueue with
      | nil => simp [TcpListenerEntry.handles, hq]
      | cons h queue =>
        simp only [listenerHandles_cons, TcpListenerEntry.handles, hq, List.append_assoc,
          List.cons_append]
        exact List.perm_middle
    · rw [if_neg hp]
      rcases ha : NetstackState.acceptFrom port w entries with ⟨_ | _, entries'⟩
      · rw [ha] at ih
        simp only [listenerHandles_cons]
        exact (ih.append_left _).trans List.perm_middle
      · rw [ha] at ih
        simp only [listenerHandles_cons, ih]

section Opening

open NetstackState

variable (s : NetstackState) (supply : List ℕ)

def newEntry (ep : IpListenEndpoint) (handles : List ℕ) : TcpListenerEntry :=
  { listenEp := ep, listenPool := handles.map fun h => (h, none), acceptQueue := [], acceptWakers := [] }

lemma listen_new {ep : IpListenEndpoint} (h : ep.port ≠ 0) :
    TcpSocket.new.listen ep = .ok (listenSocket ep) := by
  simp [listenSocket, TcpSocket.listen, TcpSocket.isOpen, TcpSocket.new, h]

lemma listenTcp_ends (ourAddr : BitVec 128) (port : UInt16) :
    Ends Fault.Benign (s.listenTcp ourAddr port supply) fun r =>
      (port = 0 ∧ ∃ h, s.sockets.find h = none ∧
        r = (.error ⟨.addrInUse, "Unaddressable"⟩,
        { s with sockets := s.sockets.insert h (.tcp .new) })) ∨
      (port ≠ 0 ∧ ∃ handles : List ℕ, handles.Nodup ∧ (∀ h ∈ handles, s.sockets.find h = none) ∧
        handles.length = listenPoolSize ∧ r = (.ok (), { s with
          sockets := s.sockets.insertAll handles (.tcp (listenSocket (ourEndpoint ourAddr port)))
          listeners := s.listeners ++ [newEntry (ourEndpoint ourAddr port) handles] })) := by
  rw [NetstackState.listenTcp]
  refine (SocketSet.add_ends s.sockets supply (.tcp .new)).bind ?_
  rintro _ ⟨first, supply, -, hfresh, rfl⟩
  simp only [SocketSet.getTcp, tcpView.getAs_eq (Store.find_insert_self s.sockets first _), ok_bind]
  by_cases hp : port = 0
  · rw [TcpSocket.listen, if_pos (show (ourEndpoint ourAddr port).port = 0 from hp)]
    exact Or.inl ⟨hp, first, hfresh, rfl⟩
  · simp only [listen_new (show (ourEndpoint ourAddr port).port ≠ 0 from hp), Store.insert_insert]
    rcases topUp_spec (ourEndpoint ourAddr port) (listenPoolSize - 1)
      (s.sockets.insert first (.tcp (listenSocket (ourEndpoint ourAddr port)))) supply
        [(first, none)] with
      ⟨he, -⟩ | ⟨new, rest, ⟨-, hlen, hnew, hfresh'⟩, ht⟩
    · rw [he]
      exact Or.inl rfl
    · rw [ht]
      have hne : ∀ h ∈ new, h ≠ first := by
        rintro h hm rfl
        simpa using hfresh' h hm
      refine Or.inr ⟨hp, first :: new, ?_, ?_, by rw [List.length_cons, hlen]; rfl, ?_⟩
      · exact List.nodup_cons.mpr ⟨fun hm => hne first hm rfl, hnew⟩
      · intro h hm
        rcases List.mem_cons.mp hm with rfl | hm
        · exact hfresh
        · rw [← hfresh' h hm, Store.find_insert_of_ne _ _ (hne h hm)]
      · simp [newEntry, Store.insertAll_cons]

lemma bindUdpAt_ends (ep : IpListenEndpoint) :
    Ends Fault.Benign (s.bindUdpAt ep supply) fun r => ∃ h, s.sockets.find h = none ∧
      r = if ep.port = 0 then
          (.error ⟨.addrInUse, "Unaddressable"⟩,
            { s with sockets := s.sockets.insert h (.udp .new) })
        else (.ok h,
          { s with sockets := s.sockets.insert h (.udp { UdpSocket.new with endpoint := ep }) }) := by
  rw [NetstackState.bindUdpAt]
  refine (SocketSet.add_ends s.sockets supply (.udp .new)).bind ?_
  rintro _ ⟨h, supply, -, hfresh, rfl⟩
  simp only [SocketSet.getUdp, udpView.getAs_eq (Store.find_insert_self s.sockets h _), ok_bind]
  by_cases hp : ep.port = 0
  · rw [UdpSocket.bind, if_pos hp]
    exact ⟨h, hfresh, by rw [if_pos hp]; rfl⟩
  · rw [UdpSocket.bind, if_neg hp, if_neg (by simp [UdpSocket.isOpen, UdpSocket.new])]
    exact ⟨h, hfresh, by rw [if_neg hp]; simp⟩

lemma openIcmp_ends (ident : UInt16) :
    Ends Fault.Benign (s.openIcmp ident supply) fun r => ∃ h, s.sockets.find h = none ∧
      r = (.ok h,
        { s with sockets := s.sockets.insert h (.icmp { IcmpSocket.new with ident := some ident }) }) := by
  rw [NetstackState.openIcmp]
  refine (SocketSet.add_ends s.sockets supply (.icmp .new)).bind ?_
  rintro _ ⟨h, supply, -, hfresh, rfl⟩
  simp only [SocketSet.getIcmp, icmpView.getAs_eq (Store.find_insert_self s.sockets h _), ok_bind]
  exact ⟨h, hfresh, by simp [IcmpSocket.new]⟩

end Opening

end Yggstack.Netstack
