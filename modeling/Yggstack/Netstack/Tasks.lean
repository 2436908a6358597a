import Yggstack.Frag.Semantics
import Yggstack.Netstack.Device
import Yggstack.Netstack.System

/-! The two background tasks of the netstack, the channel between them and the device: the reader
moves packets from Yggdrasil into the channel, the poller feeds them to the reassembler, runs the
poll cycles and writes what smoltcp sends. All else that runs against the netstack goes on between
their steps. -/

namespace Yggstack.Netstack

open Library
open Yggstack.Frag (FragReassembler Feed)

inductive Trap where
  | fault (f : Fault)
  | panic (p : Panic)

inductive Reader where
  | reading
  | sending (pkt : Packet)
  | ended

def Reader.inHand : Reader → List Packet
  | .sending pkt => [pkt]
  | _ => []

inductive Stage where
  | waiting
  | draining
  | drained
  deriving DecidableEq

-- Nothing reads `read`, the packets the reader took from Yggdrasil, nor `fed`.
structure Tasks where
  world : World
  device : YggDevice
  reader : Reader
  channel : Fifo Packet
  reassembler : FragReassembler
  stage : Stage
  outgoing : Fifo Packet
  read : List Packet
  fed : List Feed

def channelBound : ℕ := 128

def readBuffer : ℕ := 65536

-- `recv` and `tryRecv` carry the two clock readings of the feed they make.
inductive Event where
  | world (a : Action)
  | read (pkt : Packet)
  | readFailed
  | sent
  | sendFailed
  | check
  | recv (evictNow createdNow : ℕ)
  | recvNone
  | woke
  | tryRecv (evictNow createdNow : ℕ)
  | drained
  | cycle (i : CycleInput) (polls : List (List DeviceCall))
  | write
  | abortReader
  | abortPoller

def Action.ofPoller : Action → Bool
  | .pollerCheck | .pollerCycle _ | .pollerExit => true
  | _ => false

namespace Tasks

variable (t : Tasks)

def new (ourAddr : BitVec 128) (ckr : Bool) (source : IpAddress → Option IpAddress) (mtu : ℕ) :
    Tasks where
  world := .initial ourAddr ckr source
  device := .new (min mtu 65535)
  reader := .reading
  channel := .empty
  reassembler := .new
  stage := .waiting
  outgoing := .empty
  read := []
  fed := []

def require (p : Prop) [Decidable p] : Except Trap Unit :=
  if p then .ok () else .error (.fault .disabled)

def act (a : Action) : Except Trap World := (t.world.exec a).mapError .fault

def feedNext (evictNow createdNow : ℕ) : Except Trap Tasks :=
  match t.channel.pop with
  | none => .error (.fault .disabled)
  | some (pkt, channel) => do
    let (reassembler, out) ← (t.reassembler.feed evictNow createdNow pkt).mapError .panic
    let rxQueue := out.elim t.device.rxQueue t.device.rxQueue.push
    return { t with
      channel, reassembler
      device := { t.device with rxQueue }
      fed := t.fed ++ [⟨evictNow, createdNow, pkt⟩] }

def At (stage : Stage) : Prop := t.world.poller = .select ∧ t.stage = stage

instance (stage : Stage) : Decidable (t.At stage) := inferInstanceAs (Decidable (_ ∧ _))

def exec : Event → Except Trap Tasks
  | .world a => do
    require (a.ofPoller = false)
    let world ← t.act a
    return { t with world }
  | .read pkt =>
    match t.reader with
    | .reading => do
      require (pkt.length ≤ readBuffer)
      if pkt.isEmpty then return t
      else return { t with reader := .sending pkt, read := t.read ++ [pkt] }
    | _ => .error (.fault .disabled)
  | .readFailed =>
    match t.reader with
    | .reading => .ok { t with reader := .ended }
    | _ => .error (.fault .disabled)
  | .sent =>
    match t.reader with
    | .sending pkt => do
      require (t.world.poller ≠ .exited ∧ t.channel.hasRoom channelBound)
      return { t with reader := .reading, channel := t.channel.push pkt }
    | _ => .error (.fault .disabled)
  | .sendFailed =>
    match t.reader with
    | .sending _ => do
      require (t.world.poller = .exited)
      return { t with reader := .ended }
    | _ => .error (.fault .disabled)
  | .check => do
    require (t.outgoing.content = [])
    let world ← t.act .pollerCheck
    return { t with world }
  | .recv evictNow createdNow => do
    require (t.At .waiting)
    let t ← t.feedNext evictNow createdNow
    return { t with stage := .draining }
  | .recvNone =>
    match t.reader with
    | .ended => do
      require (t.At .waiting ∧ t.channel.content = [])
      let world ← t.act .pollerExit
      return { t with world }
    | _ => .error (.fault .disabled)
  | .woke => do
    require (t.At .waiting)
    return { t with stage := .draining }
  | .tryRecv evictNow createdNow => do
    require (t.At .draining)
    t.feedNext evictNow createdNow
  | .drained => do
    require (t.At .draining ∧ t.channel.content = [])
    return { t with stage := .drained }
  | .cycle i polls => do
    require (t.At .drained)
    let world ← t.act (.pollerCycle i)
    match t.device.pollLoop polls with
    | none => .error (.fault .disabled)
    | some device =>
      let (tx, txQueue) := device.txQueue.drain
      return { t with
        world, stage := .waiting, device := { device with txQueue }, outgoing := t.outgoing.pushAll tx }
  | .write => do
    require (t.world.poller = .top)
    match t.outgoing.pop with
    | none => .error (.fault .disabled)
    | some (_, outgoing) => return { t with outgoing }
  | .abortReader =>
    match t.reader with
    | .ended => .error (.fault .disabled)
    | _ => do
      require t.world.net.closed
      return { t with reader := .ended }
  | .abortPoller => do
    require (t.world.net.closed ∧ (t.At .waiting ∨ t.world.poller = .top ∧ t.outgoing.content ≠ []))
    let world ← t.act .pollerExit
    return { t with world }

def Step (t : Tasks) (e : Event) (t' : Tasks) : Prop := t.exec e = .ok t'

def Reachable (t : Tasks) : Prop :=
  ∃ ourAddr ckr source mtu events, Run Step (new ourAddr ckr source mtu) events t

end Tasks

def Event.action? : Event → Option Action
  | .world a => some a
  | .check => some .pollerCheck
  | .cycle i _ => some (.pollerCycle i)
  | .recvNone | .abortPoller => some .pollerExit
  | _ => none

end Yggstack.Netstack
