import Yggstack.Frag.Packet
import Yggstack.Library.Store

/-! Reassembly of IPv6 fragments in one 65535-byte buffer for each key. A feed reads the clock
twice: once to evict expired slots, once to stamp a slot it creates. Times are nanoseconds of a
monotonic clock. -/

namespace Yggstack.Frag

open Library

def fragTimeout : ℕ := 60 * 10 ^ 9

def bufLen : ℕ := 65535

structure FragSlot where
  nextHeader : UInt8
  src : Octets
  dst : Octets
  totalLen : Option ℕ
  received : ℕ
  buf : List UInt8
  created : ℕ

@[ext] structure FragReassembler where
  slots : Store FragKey FragSlot

namespace FragReassembler

def new : FragReassembler := ⟨.empty⟩

def evictExpired (r : FragReassembler) (now : ℕ) : FragReassembler :=
  ⟨r.slots.retain fun _ s => now - s.created < fragTimeout⟩

end FragReassembler

def buildReassembled (src dst : Octets) (nextHeader : UInt8) (payload : List UInt8) :
    Except Panic (List UInt8) := do
  let totalLen := ipv6HeaderLen + payload.length
  let pkt := List.replicate totalLen (0 : UInt8)
  let pkt ← assign pkt 0 0x60
  let plen : UInt16 := .ofNat payload.length
  let pkt ← assign pkt 4 (plen >>> 8).toUInt8
  let pkt ← assign pkt 5 plen.toUInt8
  let pkt ← assign pkt 6 nextHeader
  let pkt ← assign pkt 7 64
  let pkt ← copyFromSlice pkt 8 24 src.val
  let pkt ← copyFromSlice pkt 24 40 dst.val
  copyFromSlice pkt ipv6HeaderLen pkt.length payload

def toOctets (bytes : List UInt8) : Except Panic Octets :=
  if h : bytes.length = 16 then .ok ⟨bytes, h⟩ else .error .unwrap

def FragReassembler.absorb (r : FragReassembler) (createdNow : ℕ) (f : Fragment) :
    Except Panic (FragReassembler × Option (List UInt8)) := do
  -- `entry(key).or_insert_with(..)`
  let slot := (r.slots.find f.key).getD
    { nextHeader := f.nextHeader, src := f.key.src, dst := f.key.dst, totalLen := none, received := 0,
      buf := List.replicate bufLen 0, created := createdNow }
  let slots := r.slots.insert f.key slot
  let fin := f.offset + f.payload.length
  if fin > slot.buf.length then return (⟨slots.erase f.key⟩, none)
  let buf ← copyFromSlice slot.buf f.offset fin f.payload
  let slot := { slot with buf, received := slot.received + f.payload.length }
  let slot := if !f.more then { slot with totalLen := some fin } else slot
  let slots := slots.insert f.key slot
  match slot.totalLen with
  | some total =>
    if slot.received ≥ total then
      let out ← buildReassembled slot.src slot.dst slot.nextHeader (← slice slot.buf 0 total)
      return (⟨slots.erase f.key⟩, some out)
    else return (⟨slots⟩, none)
  | none => return (⟨slots⟩, none)

def FragReassembler.feed (r : FragReassembler) (evictNow createdNow : ℕ) (pkt : List UInt8) :
    Except Panic (FragReassembler × Option (List UInt8)) := do
  let r := r.evictExpired evictNow
  if pkt.length < ipv6HeaderLen then return (r, some pkt)
  let nextHdr ← index pkt 6
  if nextHdr ≠ 44 then return (r, some pkt)
  if pkt.length < ipv6HeaderLen + fragExtLen then return (r, none)
  let fh ← slice pkt ipv6HeaderLen (ipv6HeaderLen + fragExtLen)
  let nextHeader ← index fh 0
  let offsetAndM := u16FromBeBytes (← index fh 2) (← index fh 3)
  let offset := (offsetAndM >>> 3).toNat * 8
  let more := (offsetAndM &&& 1) != 0
  let identification := u32FromBeBytes (← index fh 4) (← index fh 5) (← index fh 6) (← index fh 7)
  let src ← toOctets (← slice pkt 8 24)
  let dst ← toOctets (← slice pkt 24 40)
  let payload ← slice pkt (ipv6HeaderLen + fragExtLen) pkt.length
  r.absorb createdNow { key := { src, dst, identification }, nextHeader, offset, more, payload }

end Yggstack.Frag
