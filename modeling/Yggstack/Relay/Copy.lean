import Yggstack.Library.Runs

/-! `counting_copy`, and the relays that run two of them under one `select!`. What the endpoints
send and when they close is up to the environment, and so is how much each read and write moves. -/

namespace Yggstack

namespace Relay

open Library

inductive Dir where
  | rx
  | tx
  deriving DecidableEq

def Dir.other : Dir → Dir
  | .rx => .tx
  | .tx => .rx

structure ListenerStats where
  rxBytes : UInt64
  txBytes : UInt64

def ListenerStats.count (entry : ListenerStats) (n : ℕ) : Dir → ListenerStats
  | .rx => { entry with rxBytes := entry.rxBytes + UInt64.ofNat n }
  | .tx => { entry with txBytes := entry.txBytes + UInt64.ofNat n }

inductive CopyError where
  | read
  | write
  | writeZero
  deriving DecidableEq

-- Where a `counting_copy` stands: at its read, in `write_all` with `rest` to go of a chunk of `n`
-- bytes, or done.
inductive Copy where
  | reading (total : UInt64)
  | writing (rest : List UInt8) (n : ℕ) (total : UInt64)
  | done (result : Except CopyError UInt64)

def Copy.rest : Copy → List UInt8
  | .writing rest _ _ => rest
  | _ => []

def bufSize : ℕ := 64 * 1024

-- One direction of a relay. `sent` is all the endpoint has sent so far, `consumed` how much of it
-- was read, and `output` all that was written to the other endpoint.
structure Leg where
  sent : List UInt8
  closed : Bool
  -- The connection it is read from is gone; a netstack stream then reads as ended.
  cut : Bool
  consumed : ℕ
  output : List UInt8
  copy : Copy

namespace Leg

def new (output : List UInt8) : Leg :=
  { sent := [], closed := false, cut := false, consumed := 0, output, copy := .reading 0 }

def unread (l : Leg) : List UInt8 := l.sent.drop l.consumed

end Leg

inductive Io where
  | read (n : ℕ)
  | readError
  | write (n : ℕ)
  | writeError

-- One answer for a `counting_copy`, and the bytes it then adds to its counter. A read of no bytes
-- is the end of the stream; on a connection that was cut it may come ahead of what is unread.
def Leg.countingCopy (l : Leg) (io : Io) : Option (Leg × ℕ) :=
  match l.copy, io with
  | .reading total, .read n =>
    if n = 0 then
      if (l.closed ∧ l.unread = []) ∨ l.cut then some ({ l with copy := .done (.ok total) }, 0) else none
    else if n ≤ bufSize ∧ n ≤ l.unread.length then
      some ({ l with consumed := l.consumed + n, copy := .writing (l.unread.take n) n total }, 0)
    else none
  | .reading _, .readError => some ({ l with copy := .done (.error .read) }, 0)
  | .writing rest n total, .write k =>
    if k = 0 then some ({ l with copy := .done (.error .writeZero) }, 0)
    else if k < rest.length then
      some ({ l with output := l.output ++ rest.take k, copy := .writing (rest.drop k) n total }, 0)
    else if k = rest.length then
      some ({ l with output := l.output ++ rest, copy := .reading (total + UInt64.ofNat n) }, n)
    else none
  | .writing _ _ _, .writeError => some ({ l with copy := .done (.error .write) }, 0)
  | _, _ => none

inductive Ending where
  | stopped
  | finished (dir : Dir) (result : Except CopyError UInt64)

end Relay

open Relay in
structure Relay where
  rx : Leg
  tx : Leg
  entry : ListenerStats
  ended : Option Ending

namespace Relay

def leg (r : Relay) : Dir → Leg
  | .rx => r.rx
  | .tx => r.tx

def setLeg (r : Relay) (l : Leg) : Dir → Relay
  | .rx => { r with rx := l }
  | .tx => { r with tx := l }

inductive Event where
  | send (dir : Dir) (bytes : List UInt8)
  | close (dir : Dir)
  | reset
  | io (dir : Dir) (io : Io)
  | stop

-- The `select!` over the stop signal and the two copies: the first to complete ends it and drops
-- the others where they stand.
def exec (r : Relay) : Event → Option Relay
  | .send dir bytes =>
    let l := r.leg dir
    if l.closed then none else some (r.setLeg { l with sent := l.sent ++ bytes } dir)
  | .close dir => some (r.setLeg { r.leg dir with closed := true } dir)
  -- `poll_read` of the netstack stream answers the end of the stream in every closed state.
  | .reset => some (r.setLeg { r.rx with cut := true } .rx)
  | .io dir io =>
    if r.ended.isSome then none
    else
      match (r.leg dir).countingCopy io with
      | none => none
      | some (l, n) =>
        let r := { r.setLeg l dir with entry := r.entry.count n dir }
        match l.copy with
        | .done result => some { r with ended := some (.finished dir result) }
        | _ => some r
  | .stop => if r.ended.isSome then none else some { r with ended := some .stopped }

def Step (r : Relay) (ev : Event) (r' : Relay) : Prop := r.exec ev = some r'

def start (toPeer toYgg : List UInt8) (entry : ListenerStats) : Relay :=
  { rx := .new toPeer, tx := .new toYgg, entry, ended := none }

section Relays

variable (entry : ListenerStats)

def socksConnect (reply : List UInt8) : Relay := start reply [] entry

def connectionEstablished : List UInt8 :=
  "HTTP/1.1 200 Connection Established\r\n\r\n".toUTF8.toList

def httpConnect (extra : List UInt8) : Relay :=
  start connectionEstablished extra (entry.count extra.length .tx)

def httpForward (outHead extra : List UInt8) : Relay :=
  start [] (outHead ++ extra) ((entry.count outHead.length .tx).count extra.length .tx)

def forwardLocalTcp : Relay := start [] [] entry

def forwardRemoteTcp : Relay := start [] [] entry

end Relays

inductive Starts (entry : ListenerStats) : Relay → Prop
  | socksConnect (reply : List UInt8) : Starts entry (socksConnect entry reply)
  | httpConnect (extra : List UInt8) : Starts entry (httpConnect entry extra)
  | httpForward (outHead extra : List UInt8) : Starts entry (httpForward entry outHead extra)
  | forwardLocalTcp : Starts entry (forwardLocalTcp entry)
  | forwardRemoteTcp : Starts entry (forwardRemoteTcp entry)

end Relay

end Yggstack
