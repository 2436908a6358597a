import Yggstack.Library.Store
import Yggstack.Library.Sweep
import Yggstack.Netstack.Sockets

/-! The state behind the netstack's lock and the work of one poll cycle on it: queued connects,
listener pools, closing sockets. Times are microseconds of the wall clock. -/

namespace Yggstack.Netstack

open Library

/-- `handle` and `kind` are smoltcp's panics on an absent handle and on a wrong socket type. The
others are no panics: `supply` when the handles assumed for a step are not ones that `add` could
return there, `disabled` when nobody is in a position to take the step. -/
inductive Fault where
  | handle
  | kind
  | supply
  | disabled
  deriving DecidableEq

abbrev SocketSet := Store ℕ Socket

def Socket.tcp? : Socket → Option TcpSocket
  | .tcp s => some s
  | _ => none

def Socket.udp? : Socket → Option UdpSocket
  | .udp s => some s
  | _ => none

def Socket.icmp? : Socket → Option IcmpSocket
  | .icmp s => some s
  | _ => none

namespace SocketSet

def getAs {α : Type} (view : Socket → Option α) (s : SocketSet) (h : ℕ) : Except Fault α :=
  match s.find h with
  | none => .error .handle
  | some sock =>
    match view sock with
    | none => .error .kind
    | some a => .ok a

def getTcp (s : SocketSet) (h : ℕ) : Except Fault TcpSocket := getAs Socket.tcp? s h
def getUdp (s : SocketSet) (h : ℕ) : Except Fault UdpSocket := getAs Socket.udp? s h
def getIcmp (s : SocketSet) (h : ℕ) : Except Fault IcmpSocket := getAs Socket.icmp? s h

def remove (s : SocketSet) (h : ℕ) : Except Fault SocketSet :=
  match s.find h with
  | none => .error .handle
  | some _ => .ok (s.erase h)

def add (s : SocketSet) (supply : List ℕ) (sock : Socket) : Except Fault (SocketSet × ℕ × List ℕ) :=
  match supply with
  | [] => .error .supply
  | h :: supply => if (s.find h).isSome then .error .supply else .ok (s.insert h sock, h, supply)

end SocketSet

/-- What one `iface.poll` does to the sockets: any change that keeps each socket and its type. -/
structure PollEffect where
  tcp : ℕ → TcpSocket → TcpSocket
  udp : ℕ → UdpSocket → UdpSocket
  icmp : ℕ → IcmpSocket → IcmpSocket

def PollEffect.apply (e : PollEffect) (s : SocketSet) : SocketSet :=
  s.mapValues fun h sock =>
    match sock with
    | .tcp t => .tcp (e.tcp h t)
    | .udp u => .udp (e.udp h u)
    | .icmp i => .icmp (e.icmp h i)

inductive Waker where
  | dial (d : ℕ)
  | task (n : ℕ)
  deriving DecidableEq

structure PendingConnect where
  handle : ℕ
  remote : IpEndpoint
  localPort : UInt16
  dial : ℕ

def listenPoolSize : ℕ := 8
def synHandshakeTimeout : ℕ := 10 * 10 ^ 6
def closeGrace : ℕ := 60 * 10 ^ 6

-- The distance of two instants; smoltcp's `Instant` subtraction is an absolute value.
def elapsed (now since : ℤ) : ℕ := (now - since).natAbs

abbrev PoolSlot := ℕ × Option ℤ

structure TcpListenerEntry where
  listenEp : IpListenEndpoint
  listenPool : List PoolSlot
  acceptQueue : List ℕ
  acceptWakers : List Waker

structure NetstackState where
  sourceAddress : IpAddress → Option IpAddress
  sockets : SocketSet
  wakers : List Waker
  pendingConnects : List PendingConnect
  listeners : List TcpListenerEntry
  closing : List (ℕ × ℤ)
  closed : Bool

section Cycle

def processConnect (source : IpAddress → Option IpAddress) (sockets : SocketSet)
    (cmd : PendingConnect) :
    Except Fault (SocketSet × ℕ × Except SocketError Unit) := do
  let socket ← sockets.getTcp cmd.handle
  match socket.connect source cmd.remote cmd.localPort with
  | .ok socket => return (sockets.insert cmd.handle (.tcp socket), cmd.dial, .ok ())
  | .error e => return (sockets, cmd.dial, .error e)

def processConnects (source : IpAddress → Option IpAddress) :
    SocketSet → List PendingConnect → Except Fault (SocketSet × List (ℕ × Except SocketError Unit))
  | sockets, [] => .ok (sockets, [])
  | sockets, cmd :: cmds => do
    let (sockets, result) ← processConnect source sockets cmd
    let (sockets, results) ← processConnects source sockets cmds
    return (sockets, result :: results)

def listenSocket (ep : IpListenEndpoint) : TcpSocket :=
  match TcpSocket.new.listen ep with
  | .ok sock => sock
  | .error _ => TcpSocket.new

def newListenSocket (sockets : SocketSet) (supply : List ℕ) (ep : IpListenEndpoint) :
    Except Fault (SocketSet × ℕ × List ℕ) :=
  sockets.add supply (.tcp (listenSocket ep))

def promoteStep (sockets : SocketSet) (acc : List ℕ × Bool) (slot : PoolSlot) :
    Except Fault ((List ℕ × Bool) × Option PoolSlot) := do
  let socket ← sockets.getTcp slot.1
  if socket.mayRecv && socket.maySend then return ((acc.1 ++ [slot.1], true), none)
  else return (acc, some slot)

def reapStep (now : ℤ) (sockets : SocketSet) (slot : PoolSlot) :
    Except Fault (SocketSet × Option PoolSlot) := do
  let socket ← sockets.getTcp slot.1
  if socket.state = .listen then return (sockets, some (slot.1, none))
  else
    match slot.2 with
    | none => return (sockets, some (slot.1, some now))
    | some since =>
      if elapsed now since > synHandshakeTimeout then
        let socket ← sockets.getTcp slot.1
        let sockets ← SocketSet.remove (sockets.insert slot.1 (.tcp socket.abort)) slot.1
        return (sockets, none)
      else return (sockets, some slot)

def topUp (ep : IpListenEndpoint) : ℕ → SocketSet → List ℕ → List PoolSlot →
    Except Fault (SocketSet × List ℕ × List PoolSlot)
  | 0, sockets, supply, pool => .ok (sockets, supply, pool)
  | n + 1, sockets, supply, pool => do
    let (sockets, h, supply) ← newListenSocket sockets supply ep
    topUp ep n sockets supply (pool ++ [(h, none)])

def inListen (pool : List PoolSlot) : ℕ := (pool.filter fun slot => slot.2.isNone).length

structure Serviced where
  sockets : SocketSet
  supply : List ℕ
  entry : TcpListenerEntry
  woken : List Waker

def serviceEntry (now : ℤ) (sockets : SocketSet) (supply : List ℕ) (entry : TcpListenerEntry) :
    Except Fault Serviced := do
  let ((queue, queued), pool) ← sweep (promoteStep sockets)
    (entry.acceptQueue, false) entry.listenPool
  let woken := if queued then entry.acceptWakers else []
  let acceptWakers := if queued then [] else entry.acceptWakers
  let (sockets, pool) ← sweep (reapStep now) sockets pool
  let (sockets, supply, pool) ← topUp entry.listenEp (listenPoolSize - inListen pool) sockets supply
    pool
  return { sockets, supply, entry := { entry with listenPool := pool, acceptQueue := queue, acceptWakers }, woken }

def serviceListeners (now : ℤ) : SocketSet → List ℕ → List TcpListenerEntry →
    Except Fault (SocketSet × List ℕ × List TcpListenerEntry × List Waker)
  | sockets, supply, [] => .ok (sockets, supply, [], [])
  | sockets, supply, entry :: entries => do
    let r ← serviceEntry now sockets supply entry
    let (sockets, supply, entries, woken) ← serviceListeners now r.sockets r.supply entries
    return (sockets, supply, r.entry :: entries, r.woken ++ woken)

def closingStep (now : ℤ) (sockets : SocketSet) (item : ℕ × ℤ) :
    Except Fault (SocketSet × Option (ℕ × ℤ)) := do
  let socket ← sockets.getTcp item.1
  let done := socket.state = .closed
  let expired := elapsed now item.2 > closeGrace
  if done ∨ expired then
    let sockets ← if done then pure sockets else do
      let socket ← sockets.getTcp item.1
      pure (sockets.insert item.1 (.tcp socket.abort))
    let sockets ← SocketSet.remove sockets item.1
    return (sockets, none)
  else return (sockets, some item)

def reapClosingSockets (now : ℤ) (sockets : SocketSet) (closing : List (ℕ × ℤ)) :
    Except Fault (SocketSet × List (ℕ × ℤ)) :=
  sweep (closingStep now) sockets closing

end Cycle

structure CycleInput where
  effect : PollEffect
  serviceNow : ℤ
  reapNow : ℤ
  supply : List ℕ

namespace NetstackState

/-- `process_connects` and `run_poll` under one lock. The tasks woken are those of the queued
accepts and of every waker parked on a socket event. -/
def cycle (s : NetstackState) (i : CycleInput) :
    Except Fault (NetstackState × List (ℕ × Except SocketError Unit) × List Waker) := do
  let (sockets, results) ← processConnects s.sourceAddress s.sockets s.pendingConnects
  let sockets := i.effect.apply sockets
  let (sockets, _, listeners, woken) ← serviceListeners i.serviceNow sockets i.supply s.listeners
  let (sockets, closing) ← reapClosingSockets i.reapNow sockets s.closing
  return ({ s with sockets, pendingConnects := [], listeners, closing, wakers := [] }, results,
    woken ++ s.wakers)

end NetstackState

end Yggstack.Netstack
