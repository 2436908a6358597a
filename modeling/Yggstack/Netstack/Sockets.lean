import Mathlib.Tactic

/-! The sockets of smoltcp 0.11 as far as the netstack looks at them: TCP states and buffers, UDP
and ICMP packet queues, and the calls that open, close and drain them. -/

namespace Yggstack.Netstack

inductive IpAddress where
  | ipv4 (bits : BitVec 32)
  | ipv6 (bits : BitVec 128)
  deriving DecidableEq

def IpAddress.isUnspecified : IpAddress → Bool
  | .ipv4 bits => bits == 0
  | .ipv6 bits => bits == 0

structure IpEndpoint where
  addr : IpAddress
  port : UInt16
  deriving DecidableEq

structure IpListenEndpoint where
  addr : Option IpAddress
  port : UInt16
  deriving DecidableEq

inductive TcpState where
  | closed
  | listen
  | synSent
  | synReceived
  | established
  | finWait1
  | finWait2
  | closeWait
  | closing
  | lastAck
  | timeWait
  deriving DecidableEq

inductive SocketError where
  | invalidState
  | unaddressable
  deriving DecidableEq

def tcpBuffer : ℕ := 65536

-- `tuple` is the local port and the remote endpoint of a connection; `listenEndpoint` is set on
-- sockets that were put in LISTEN and stays set through their handshake.
structure TcpSocket where
  state : TcpState
  listenEndpoint : Option IpListenEndpoint
  tuple : Option (UInt16 × IpEndpoint)
  rx : List UInt8
  tx : List UInt8
  deriving DecidableEq

namespace TcpSocket

def new : TcpSocket :=
  { state := .closed, listenEndpoint := none, tuple := none, rx := [], tx := [] }

def isOpen (s : TcpSocket) : Bool :=
  match s.state with
  | .closed | .timeWait => false
  | _ => true

def mayRecv (s : TcpSocket) : Bool :=
  match s.state with
  | .established | .finWait1 | .finWait2 => true
  | _ => !s.rx.isEmpty

def maySend (s : TcpSocket) : Bool :=
  match s.state with
  | .established | .closeWait => true
  | _ => false

def canRecv (s : TcpSocket) : Bool := s.mayRecv && !s.rx.isEmpty

def canSend (s : TcpSocket) : Bool := s.maySend && decide (s.tx.length < tcpBuffer)

def listen (s : TcpSocket) (ep : IpListenEndpoint) : Except SocketError TcpSocket :=
  if ep.port = 0 then .error .unaddressable
  else if s.isOpen then .error .invalidState
  else .ok { state := .listen, listenEndpoint := some ep, tuple := none, rx := [], tx := [] }

def connect (s : TcpSocket) (source : IpAddress → Option IpAddress) (remote : IpEndpoint)
    (localPort : UInt16) :
    Except SocketError TcpSocket :=
  if s.isOpen then .error .invalidState
  else if localPort = 0 ∨ remote.port = 0 ∨ remote.addr.isUnspecified then .error .unaddressable
  else if (source remote.addr).isNone then .error .unaddressable
  else .ok { state := .synSent, listenEndpoint := none, tuple := some (localPort, remote), rx := [], tx := [] }

def closeState : TcpState → TcpState
  | .listen | .synSent => .closed
  | .synReceived | .established => .finWait1
  | .closeWait => .lastAck
  | state => state

def close (s : TcpSocket) : TcpSocket := { s with state := closeState s.state }

def abort (s : TcpSocket) : TcpSocket := { s with state := .closed }

def recvSlice (s : TcpSocket) (n : ℕ) : Except SocketError (List UInt8 × TcpSocket) :=
  if s.mayRecv then .ok (s.rx.take n, { s with rx := s.rx.drop n }) else .error .invalidState

def sendSlice (s : TcpSocket) (data : List UInt8) : Except SocketError (ℕ × TcpSocket) :=
  if s.maySend then
    let room := tcpBuffer - s.tx.length
    .ok ((data.take room).length, { s with tx := s.tx ++ data.take room })
  else .error .invalidState

end TcpSocket

structure PacketQueues (Source : Type) where
  capacity : ℕ
  rx : List (List UInt8 × Source)
  tx : List (List UInt8 × Source)
  deriving DecidableEq

inductive PacketError where
  | unaddressable
  | bufferFull
  | exhausted
  | truncated
  deriving DecidableEq

namespace PacketQueues

variable {Source : Type}

def empty (capacity : ℕ) : PacketQueues Source := { capacity, rx := [], tx := [] }

def canRecv (q : PacketQueues Source) : Bool := !q.rx.isEmpty

def canSend (q : PacketQueues Source) : Bool := decide (q.tx.length < q.capacity)

def recvSlice (q : PacketQueues Source) (n : ℕ) :
    Except PacketError (List UInt8 × Source) × PacketQueues Source :=
  match q.rx with
  | [] => (.error .exhausted, q)
  | (data, src) :: rx =>
    (if data.length ≤ n then .ok (data, src) else .error .truncated, { q with rx })

-- `room` tells whether the ring has space for the payload, which depends on how it wraps.
def sendSlice (q : PacketQueues Source) (data : List UInt8) (dst : Source) (room : Bool) :
    Except PacketError Unit × PacketQueues Source :=
  if room then (.ok (), { q with tx := q.tx ++ [(data, dst)] }) else (.error .bufferFull, q)

end PacketQueues

structure UdpSocket where
  endpoint : IpListenEndpoint
  queues : PacketQueues IpEndpoint
  deriving DecidableEq

namespace UdpSocket

def new : UdpSocket := { endpoint := ⟨none, 0⟩, queues := .empty 64 }

def isOpen (s : UdpSocket) : Bool := s.endpoint.port != 0

def bind (s : UdpSocket) (ep : IpListenEndpoint) : Except SocketError UdpSocket :=
  if ep.port = 0 then .error .unaddressable
  else if s.isOpen then .error .invalidState
  else .ok { s with endpoint := ep }

def sendSlice (s : UdpSocket) (data : List UInt8) (dst : IpEndpoint) (room : Bool) :
    Except PacketError Unit × UdpSocket :=
  if s.endpoint.port = 0 ∨ dst.addr.isUnspecified ∨ dst.port = 0 then (.error .unaddressable, s)
  else
    let (r, queues) := s.queues.sendSlice data dst room
    (r, { s with queues })

end UdpSocket

structure IcmpSocket where
  ident : Option UInt16
  queues : PacketQueues IpAddress
  deriving DecidableEq

namespace IcmpSocket

def new : IcmpSocket := { ident := none, queues := .empty 8 }

def bind (s : IcmpSocket) (ident : UInt16) : Except SocketError IcmpSocket :=
  if s.ident.isSome then .error .invalidState else .ok { s with ident := some ident }

def sendSlice (s : IcmpSocket) (data : List UInt8) (dst : IpAddress) (room : Bool) :
    Except PacketError Unit × IcmpSocket :=
  if dst.isUnspecified then (.error .unaddressable, s)
  else
    let (r, queues) := s.queues.sendSlice data dst room
    (r, { s with queues })

end IcmpSocket

inductive Kind where
  | tcp
  | udp
  | icmp
  deriving DecidableEq

inductive Socket where
  | tcp (s : TcpSocket)
  | udp (s : UdpSocket)
  | icmp (s : IcmpSocket)
  deriving DecidableEq

def Socket.kind : Socket → Kind
  | .tcp _ => .tcp
  | .udp _ => .udp
  | .icmp _ => .icmp

end Yggstack.Netstack
