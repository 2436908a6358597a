import Yggstack.Netstack.State

/-! The operations on the netstack and on the objects it hands out, each one poll of its future or
one call under the lock. -/

namespace Yggstack.Netstack

open Library

inductive ErrorKind where
  | invalidInput
  | brokenPipe
  | connectionRefused
  | timedOut
  | addrInUse
  | notConnected
  | invalidData
  | other
  deriving DecidableEq

structure IoError where
  kind : ErrorKind
  message : String
  deriving DecidableEq

def SocketError.debug : SocketError → String
  | .invalidState => "InvalidState"
  | .unaddressable => "Unaddressable"

def PacketError.debug : PacketError → String
  | .unaddressable => "Unaddressable"
  | .bufferFull => "BufferFull"
  | .exhausted => "Exhausted"
  | .truncated => "Truncated"

abbrev IoResult (α : Type) := Except IoError α

inductive Poll (α : Type) where
  | ready (a : α)
  | pending

def Poll.isReady {α : Type} : Poll α → Bool
  | .ready _ => true
  | .pending => false

namespace TcpSocket

def waitConnected (t : TcpSocket) : Poll (IoResult Unit) :=
  match t.state with
  | .established => .ready (.ok ())
  | .closed | .timeWait | .closeWait => .ready (.error ⟨.connectionRefused, "connection refused"⟩)
  | _ => .pending

-- `n` is the space in the caller's buffer; no bytes mean the end of the stream.
def pollRead (t : TcpSocket) (n : ℕ) : Poll (IoResult (List UInt8)) × TcpSocket :=
  let rest (t : TcpSocket) : Poll (IoResult (List UInt8)) × TcpSocket :=
    if !t.mayRecv then (.ready (.ok []), t) else (.pending, t)
  if t.canRecv then
    match t.recvSlice n with
    | .ok ([], t) => rest t
    | .ok (bytes, t) => (.ready (.ok bytes), t)
    | .error e => (.ready (.error ⟨.brokenPipe, e.debug⟩), t)
  else rest t

def pollWrite (t : TcpSocket) (data : List UInt8) : Poll (IoResult ℕ) × TcpSocket :=
  if !t.maySend then (.ready (.error ⟨.brokenPipe, "socket closed"⟩), t)
  else if t.canSend then
    match t.sendSlice data with
    | .ok (n, t) => (.ready (.ok n), t)
    | .error e => (.ready (.error ⟨.brokenPipe, e.debug⟩), t)
  else (.pending, t)

def pollShutdown (t : TcpSocket) : Poll (IoResult Unit) × TcpSocket := (.ready (.ok ()), t.close)

end TcpSocket

namespace UdpSocket

def recvFrom (u : UdpSocket) (n : ℕ) : Poll (IoResult (List UInt8 × IpEndpoint)) × UdpSocket :=
  if u.queues.canRecv then
    match u.queues.recvSlice n with
    | (.ok (data, src), queues) =>
      match src.addr with
      | .ipv6 _ => (.ready (.ok (data, src)), { u with queues })
      | .ipv4 _ => (.ready (.error ⟨.invalidData, "non-IPv6 source"⟩), { u with queues })
    | (.error e, queues) => (.ready (.error ⟨.other, e.debug⟩), { u with queues })
  else (.pending, u)

def sendTo (u : UdpSocket) (data : List UInt8) (target : IpEndpoint) (room : Bool) :
    Poll (IoResult ℕ) × UdpSocket :=
  match target.addr with
  | .ipv4 _ => (.ready (.error ⟨.invalidInput, "expected IPv6 address"⟩), u)
  | .ipv6 _ =>
    if u.queues.canSend then
      match u.sendSlice data target room with
      | (.ok (), u) => (.ready (.ok data.length), u)
      | (.error e, u) => (.ready (.error ⟨.other, e.debug⟩), u)
    else (.pending, u)

end UdpSocket

def bigEndian (v : UInt16) : List UInt8 :=
  [UInt8.ofNat (v.toNat / 256), UInt8.ofNat (v.toNat % 256)]

def echoRequest (ident seq : UInt16) (payload : List UInt8) : List UInt8 :=
  [128, 0, 0, 0] ++ bigEndian ident ++ bigEndian seq ++ payload

namespace IcmpSocket

def sendEcho (i : IcmpSocket) (closed : Bool) (packet : List UInt8) (dst : BitVec 128)
    (room : Bool) :
    Poll (IoResult Unit) × IcmpSocket :=
  if closed then (.ready (.error ⟨.notConnected, "netstack closed"⟩), i)
  else if i.queues.canSend then
    match i.sendSlice packet (.ipv6 dst) room with
    | (.ok (), i) => (.ready (.ok ()), i)
    | (.error e, i) => (.ready (.error ⟨.other, e.debug⟩), i)
  else (.pending, i)

-- The wait of `recv_reply`; what it does with the packet afterwards touches no shared state.
def recvReply (i : IcmpSocket) (closed : Bool) (n : ℕ) :
    Poll (IoResult (List UInt8 × IpAddress)) × IcmpSocket :=
  if closed then (.ready (.error ⟨.notConnected, "netstack closed"⟩), i)
  else if i.queues.canRecv then
    match i.queues.recvSlice n with
    | (.ok reply, queues) => (.ready (.ok reply), { i with queues })
    | (.error e, queues) => (.ready (.error ⟨.other, e.debug⟩), { i with queues })
  else (.pending, i)

end IcmpSocket

namespace NetstackState

def park (s : NetstackState) (w : Waker) : NetstackState := { s with wakers := s.wakers ++ [w] }

def pollSocket {α β : Type} (view : Socket → Option α) (wrap : α → Socket) (s : NetstackState)
    (h : ℕ) (w : Waker)
    (op : α → Poll β × α) : Except Fault (Poll β × NetstackState) := do
  let a ← SocketSet.getAs view s.sockets h
  let s' := { s with sockets := s.sockets.insert h (wrap (op a).2) }
  match (op a).1 with
  | .ready b => return (.ready b, s')
  | .pending => return (.pending, s'.park w)

def pollTcp {β : Type} (s : NetstackState) (h : ℕ) (w : Waker)
    (op : TcpSocket → Poll β × TcpSocket) :
    Except Fault (Poll β × NetstackState) :=
  s.pollSocket Socket.tcp? .tcp h w op

def pollUdp {β : Type} (s : NetstackState) (h : ℕ) (w : Waker)
    (op : UdpSocket → Poll β × UdpSocket) :
    Except Fault (Poll β × NetstackState) :=
  s.pollSocket Socket.udp? .udp h w op

def pollIcmp {β : Type} (s : NetstackState) (h : ℕ) (w : Waker)
    (op : IcmpSocket → Poll β × IcmpSocket) :
    Except Fault (Poll β × NetstackState) :=
  s.pollSocket Socket.icmp? .icmp h w op

def dropStream (s : NetstackState) (h : ℕ) (now : ℤ) : Except Fault NetstackState := do
  let sock ← s.sockets.getTcp h
  return { s with sockets := s.sockets.insert h (.tcp sock.close), closing := s.closing ++ [(h, now)] }

def dropSocket (s : NetstackState) (h : ℕ) : Except Fault NetstackState := do
  let sockets ← s.sockets.remove h
  return { s with sockets }

def acceptFrom (port : UInt16) (w : Waker) : List TcpListenerEntry → Poll ℕ × List TcpListenerEntry
  | [] => (.pending, [])
  | entry :: entries =>
    if entry.listenEp.port = port then
      match entry.acceptQueue with
      | h :: queue => (.ready h, { entry with acceptQueue := queue } :: entries)
      | [] => (.pending, { entry with acceptWakers := entry.acceptWakers ++ [w] } :: entries)
    else
      let (p, entries) := acceptFrom port w entries
      (p, entry :: entries)

def accept (s : NetstackState) (port : UInt16) (w : Waker) : Poll ℕ × NetstackState :=
  let (p, listeners) := acceptFrom port w s.listeners
  (p, { s with listeners })

def ourEndpoint (ourAddr : BitVec 128) (port : UInt16) : IpListenEndpoint :=
  { addr := some (.ipv6 ourAddr), port }

def listenTcp (s : NetstackState) (ourAddr : BitVec 128) (port : UInt16) (supply : List ℕ) :
    Except Fault (IoResult Unit × NetstackState) := do
  let listenEp := ourEndpoint ourAddr port
  let (sockets, first, supply) ← s.sockets.add supply (.tcp .new)
  let sock ← sockets.getTcp first
  match sock.listen listenEp with
  | .error e => return (.error ⟨.addrInUse, e.debug⟩, { s with sockets })
  | .ok sock =>
    let sockets := sockets.insert first (.tcp sock)
    let (sockets, _, listenPool) ← topUp listenEp (listenPoolSize - 1) sockets supply
      [(first, none)]
    let entry : TcpListenerEntry := { listenEp, listenPool, acceptQueue := [], acceptWakers := [] }
    return (.ok (), { s with sockets, listeners := s.listeners ++ [entry] })

def bindUdpAt (s : NetstackState) (ep : IpListenEndpoint) (supply : List ℕ) :
    Except Fault (IoResult ℕ × NetstackState) := do
  let (sockets, h, _) ← s.sockets.add supply (.udp .new)
  let sock ← sockets.getUdp h
  match sock.bind ep with
  | .error e => return (.error ⟨.addrInUse, e.debug⟩, { s with sockets })
  | .ok sock => return (.ok h, { s with sockets := sockets.insert h (.udp sock) })

def bindUdp (s : NetstackState) (ourAddr : BitVec 128) (port : UInt16) (supply : List ℕ) :
    Except Fault (IoResult ℕ × NetstackState) :=
  s.bindUdpAt (ourEndpoint ourAddr port) supply

def ephemeralPort (draw : UInt16) : UInt16 := draw % 16384 + 49152

def openUdp (s : NetstackState) (draw : UInt16) (supply : List ℕ) :
    Except Fault (IoResult ℕ × NetstackState) :=
  s.bindUdpAt { addr := none, port := ephemeralPort draw } supply

def openIcmp (s : NetstackState) (ident : UInt16) (supply : List ℕ) :
    Except Fault (IoResult ℕ × NetstackState) := do
  let (sockets, h, _) ← s.sockets.add supply (.icmp .new)
  let sock ← sockets.getIcmp h
  match sock.bind ident with
  | .error e => return (.error ⟨.addrInUse, e.debug⟩, { s with sockets })
  | .ok sock => return (.ok h, { s with sockets := sockets.insert h (.icmp sock) })

-- The part of `shutdown` under the lock, and the tasks it wakes.
def shutdown (s : NetstackState) : NetstackState × List Waker :=
  let wakers := s.wakers ++ s.listeners.flatMap TcpListenerEntry.acceptWakers
  let sockets := s.sockets.mapValues fun _ sock =>
    match sock with
    | .tcp t => .tcp t.abort
    | sock => sock
  ({ s with closed := true, pendingConnects := [], wakers := [], sockets, listeners := [], closing := [] }, wakers)

end NetstackState

end Yggstack.Netstack
