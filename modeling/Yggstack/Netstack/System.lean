import Yggstack.Library.Runs
import Yggstack.Netstack.Ops

/-! The netstack with everything that runs against it: the poll loop, the dials in progress and the
objects handed out. A step is what one task does under one hold of the lock. -/

namespace Yggstack.Netstack

open Library

inductive Channel where
  | waiting
  | sent (result : Except SocketError Unit)
  | broken

inductive Outcome where
  | connected (handle : ℕ)
  | failed (e : IoError)
  | dropped

/-- Where a call of `dial_tcp` stands. A call that is over may have left a socket behind that no
object owns; `lost` names it. -/
inductive Dial where
  | created (handle : ℕ) (remote : IpEndpoint) (localPort : UInt16)
  | queued (handle : ℕ) (channel : Channel)
  | connecting (handle : ℕ) (deadline : ℤ)
  | over (outcome : Outcome) (lost : Option ℕ)

namespace Dial

def handle? : Dial → Option ℕ
  | .created h _ _ | .queued h _ | .connecting h _ => some h
  | .over _ lost => lost

def receive (result : Option (Except SocketError Unit)) : Dial → Dial
  | .queued h .waiting =>
    match result with
    | some r => .queued h (.sent r)
    | none => .queued h .waiting
  | dial => dial

def hangUp : Dial → Dial
  | .queued h .waiting => .queued h .broken
  | dial => dial

end Dial

inductive Poller where
  | top
  | select
  | exited
  deriving DecidableEq

structure World where
  ourAddr : BitVec 128
  ckr : Bool
  net : NetstackState
  dials : Store ℕ Dial
  streams : List ℕ
  udpSockets : List ℕ
  pingSockets : List (ℕ × UInt16)
  tcpListeners : List UInt16
  poller : Poller
  woken : List Waker

inductive Reply where
  | stream (r : IoResult ℕ)
  | bytes (r : IoResult (List UInt8))
  | count (r : IoResult ℕ)
  | unit (r : IoResult Unit)
  | datagram (r : IoResult (List UInt8 × IpEndpoint))
  | echo (r : IoResult (List UInt8 × IpAddress))

def Poll.map {α β : Type} (f : α → β) : Poll α → Poll β
  | .ready a => .ready (f a)
  | .pending => .pending

-- What a task can poll. `now` is the clock of the connect timeout and `wall` the one of the closing
-- list; `room` is whether a packet ring has space for the payload.
inductive Operation where
  | dial (d : ℕ) (now wall : ℤ)
  | accept (port : UInt16)
  | read (h n : ℕ)
  | write (h : ℕ) (data : List UInt8)
  | shutdown (h : ℕ)
  | recvFrom (h n : ℕ)
  | sendTo (h : ℕ) (data : List UInt8) (target : IpEndpoint) (room : Bool)
  | sendEcho (h : ℕ) (dst : BitVec 128) (seq : UInt16) (payload : List UInt8) (room : Bool)
  | recvReply (h n : ℕ)

def connectTimeout : ℤ := 10 * 10 ^ 6

namespace World

variable (w : World)

def setDial (d : ℕ) (dial : Dial) : World := { w with dials := w.dials.insert d dial }

-- One poll of `wait_connected` under its timeout; the wait is looked at before the deadline. A
-- stream that does not reach the caller is dropped.
def pollConnect (d h : ℕ) (deadline now wall : ℤ) : Except Fault (Poll Reply × World) := do
  let sock ← w.net.sockets.getTcp h
  match sock.waitConnected with
  | .ready (.ok ()) =>
    return (.ready (.stream (.ok h)),
      { w.setDial d (.over (.connected h) none) with streams := w.streams ++ [h] })
  | .ready (.error e) =>
    let net ← w.net.dropStream h wall
    return (.ready (.stream (.error e)), { w.setDial d (.over (.failed e) none) with net })
  | .pending =>
    let net := w.net.park (.dial d)
    if deadline ≤ now then
      let e : IoError := ⟨.timedOut, "netstack connect timed out"⟩
      let net ← net.dropStream h wall
      return (.ready (.stream (.error e)), { w.setDial d (.over (.failed e) none) with net })
    else return (.pending, { w.setDial d (.connecting h deadline) with net })

def pollDial (d : ℕ) (now wall : ℤ) : Except Fault (Poll Reply × World) :=
  match w.dials.find d with
  | some (.queued _ .waiting) => .ok (.pending, w)
  | some (.queued h .broken) =>
    let e : IoError := ⟨.brokenPipe, "netstack closed"⟩
    .ok (.ready (.stream (.error e)), w.setDial d (.over (.failed e) (some h)))
  | some (.queued h (.sent (.error err))) =>
    let e : IoError := ⟨.connectionRefused, err.debug⟩
    .ok (.ready (.stream (.error e)), w.setDial d (.over (.failed e) (some h)))
  | some (.queued h (.sent (.ok ()))) => w.pollConnect d h (now + connectTimeout) now wall
  | some (.connecting h deadline) => w.pollConnect d h deadline now wall
  | _ => .error .disabled

def require (p : Prop) [Decidable p] : Except Fault Unit := if p then .ok () else .error .disabled

def onNet {β : Type} (f : β → Reply) (r : Except Fault (Poll β × NetstackState)) :
    Except Fault (Poll Reply × World) := do
  let (p, net) ← r
  return (p.map f, { w with net })

def pollOp (task : Waker) : Operation → Except Fault (Poll Reply × World)
  | .dial d now wall => w.pollDial d now wall
  | .accept port => do
    require (port ∈ w.tcpListeners)
    let (p, net) := w.net.accept port task
    match p with
    | .ready h => return (.ready (.stream (.ok h)), { w with net, streams := w.streams ++ [h] })
    | .pending => return (.pending, { w with net })
  | .read h n => do
    require (h ∈ w.streams)
    w.onNet .bytes (w.net.pollTcp h task fun t => t.pollRead n)
  | .write h data => do
    require (h ∈ w.streams)
    w.onNet .count (w.net.pollTcp h task fun t => t.pollWrite data)
  | .shutdown h => do
    require (h ∈ w.streams)
    w.onNet .unit (w.net.pollTcp h task TcpSocket.pollShutdown)
  | .recvFrom h n => do
    require (h ∈ w.udpSockets)
    w.onNet .datagram (w.net.pollUdp h task fun u => u.recvFrom n)
  | .sendTo h data target room => do
    require (h ∈ w.udpSockets)
    w.onNet .count (w.net.pollUdp h task fun u => u.sendTo data target room)
  | .sendEcho h dst seq payload room =>
    match w.pingSockets.lookup h with
    | none => .error .disabled
    | some ident =>
      w.onNet .unit (w.net.pollIcmp h task fun i =>
        i.sendEcho w.net.closed (echoRequest ident seq payload) dst room)
  | .recvReply h n => do
    require (h ∈ w.pingSockets.map Prod.fst)
    w.onNet .echo (w.net.pollIcmp h task fun i => i.recvReply w.net.closed n)

def waker (n : ℕ) : Operation → Waker
  | .dial d _ _ => .dial d
  | _ => .task n

def answer (k : Waker) : World := { w with woken := w.woken.filter fun j => j ≠ k }

def poll (n : ℕ) (op : Operation) : Except Fault (Poll Reply × World) :=
  (w.answer (waker n op)).pollOp (waker n op) op

end World

inductive Action where
  | dialStart (d : ℕ) (remote : IpEndpoint) (draw : UInt16) (handle : ℕ)
  | dialQueue (d : ℕ)
  | dialDrop (d : ℕ) (wall : ℤ)
  | poll (task : ℕ) (op : Operation)
  | listenTcp (port : UInt16) (supply : List ℕ)
  | dropListener (port : UInt16)
  | bindUdp (port : UInt16) (supply : List ℕ)
  | openUdp (draw : UInt16) (supply : List ℕ)
  | openIcmp (ident : UInt16) (supply : List ℕ)
  | dropStream (h : ℕ) (wall : ℤ)
  | dropUdp (h : ℕ)
  | dropPing (h : ℕ)
  | pollerCheck
  | pollerCycle (i : CycleInput)
  | pollerExit
  | shutdown

namespace World

variable (w : World)

def dialStart (d : ℕ) (remote : IpEndpoint) (draw : UInt16) (handle : ℕ) : Except Fault World := do
  require ((w.dials.find d).isNone)
  match remote.addr, w.ckr with
  | .ipv4 _, false =>
      return w.setDial d (.over (.failed ⟨.invalidInput, "expected IPv6 address"⟩) none)
  | _, _ =>
    let (sockets, h, _) ← w.net.sockets.add [handle] (.tcp .new)
    return { w.setDial d (.created h remote (NetstackState.ephemeralPort draw)) with net := { w.net with sockets } }

def dialQueue (d : ℕ) : Except Fault World :=
  match w.dials.find d with
  | some (.created handle remote localPort) =>
    let pendingConnects := w.net.pendingConnects ++ [{ handle, remote, localPort, dial := d }]
    .ok { w.setDial d (.queued handle .waiting) with net := { w.net with pendingConnects } }
  | _ => .error .disabled

def dialDrop (d : ℕ) (wall : ℤ) : Except Fault World :=
  match w.dials.find d with
  | some (.queued h _) => .ok (w.setDial d (.over .dropped (some h)))
  | some (.connecting h _) => do
    let net ← w.net.dropStream h wall
    return { w.setDial d (.over .dropped none) with net }
  | _ => .error .disabled

def pollerCycle (i : CycleInput) : Except Fault World := do
  require (w.poller = .select)
  let (net, results, woken) ← w.net.cycle i
  let answered := results.map fun r => Waker.dial r.1
  return { w with
    net, poller := .top, woken := w.woken ++ (answered ++ woken)
    dials := w.dials.mapValues fun d dial => dial.receive (results.lookup d) }

def shutdown : World :=
  let (net, woken) := w.net.shutdown
  { w with
    net, woken := w.woken ++ woken
    dials := w.dials.mapValues fun d dial =>
      if d ∈ w.net.pendingConnects.map PendingConnect.dial then dial.hangUp else dial }

def exec : Action → Except Fault World
  | .dialStart d remote draw handle => w.dialStart d remote draw handle
  | .dialQueue d => w.dialQueue d
  | .dialDrop d wall => w.dialDrop d wall
  | .poll task op => do
    let (_, w) ← w.poll task op
    return w
  | .listenTcp port supply => do
    let (r, net) ← w.net.listenTcp w.ourAddr port supply
    match r with
    | .ok () => return { w with net, tcpListeners := w.tcpListeners ++ [port] }
    | .error _ => return { w with net }
  | .dropListener port => do
    require (port ∈ w.tcpListeners)
    return { w with tcpListeners := w.tcpListeners.erase port }
  | .bindUdp port supply => do
    let (r, net) ← w.net.bindUdp w.ourAddr port supply
    match r with
    | .ok h => return { w with net, udpSockets := w.udpSockets ++ [h] }
    | .error _ => return { w with net }
  | .openUdp draw supply => do
    let (r, net) ← w.net.openUdp draw supply
    match r with
    | .ok h => return { w with net, udpSockets := w.udpSockets ++ [h] }
    | .error _ => return { w with net }
  | .openIcmp ident supply => do
    let (r, net) ← w.net.openIcmp ident supply
    match r with
    | .ok h => return { w with net, pingSockets := w.pingSockets ++ [(h, ident)] }
    | .error _ => return { w with net }
  | .dropStream h wall => do
    require (h ∈ w.streams)
    let net ← w.net.dropStream h wall
    return { w with net, streams := w.streams.erase h }
  | .dropUdp h => do
    require (h ∈ w.udpSockets)
    let net ← w.net.dropSocket h
    return { w with net, udpSockets := w.udpSockets.erase h }
  | .dropPing h => do
    match w.pingSockets.lookup h with
    | none => .error .disabled
    | some ident =>
      let net ← w.net.dropSocket h
      return { w with net, pingSockets := w.pingSockets.erase (h, ident) }
  | .pollerCheck => do
    require (w.poller = .top)
    return { w with poller := if w.net.closed then .exited else .select }
  | .pollerCycle i => w.pollerCycle i
  | .pollerExit => do
    require (w.poller ≠ .exited)
    return { w with poller := .exited }
  | .shutdown => .ok w.shutdown

def Step (w : World) (a : Action) (w' : World) : Prop := w.exec a = .ok w'

-- The netstack as `new` leaves it; `source` is the interface's source address selection.
def initial (ourAddr : BitVec 128) (ckr : Bool) (source : IpAddress → Option IpAddress) :
    World where
  ourAddr
  ckr
  net := { sourceAddress := source, sockets := .empty, wakers := [], pendingConnects := [], listeners := [],
           closing := [], closed := false }
  dials := .empty
  streams := []
  udpSockets := []
  pingSockets := []
  tcpListeners := []
  poller := .top
  woken := []

def Reachable (w : World) : Prop :=
  ∃ ourAddr ckr source actions, Run Step (initial ourAddr ckr source) actions w

lemma Reachable.of_runAll {w : World} (ourAddr : BitVec 128) (ckr : Bool)
    (source : IpAddress → Option IpAddress)
    (actions : List Action) (h : runAll exec (initial ourAddr ckr source) actions = .ok w) :
    Reachable w :=
  ⟨ourAddr, ckr, source, actions, .of_runAll h⟩

end World

end Yggstack.Netstack
