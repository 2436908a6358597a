import Mathlib.Data.List.GetD
import Yggstack.Library.Slices

namespace Yggstack.Frag

abbrev Octets := {bytes : List UInt8 // bytes.length = 16}

def ipv6HeaderLen : ℕ := 40
def fragExtLen : ℕ := 8

def u16FromBeBytes (a b : UInt8) : UInt16 := .ofNat (a.toNat * 256 + b.toNat)

def u32FromBeBytes (a b c d : UInt8) : UInt32 :=
  .ofNat (((a.toNat * 256 + b.toNat) * 256 + c.toNat) * 256 + d.toNat)

structure FragKey where
  src : Octets
  dst : Octets
  identification : UInt32
  deriving DecidableEq

structure Fragment where
  key : FragKey
  nextHeader : UInt8
  offset : ℕ
  more : Bool
  payload : List UInt8
  deriving DecidableEq

def Fragment.fin (f : Fragment) : ℕ := f.offset + f.payload.length

structure Envelope where
  front : {bytes : List UInt8 // bytes.length = 6}
  hopLimit : UInt8
  reserved : UInt8
  res : Fin 4

def offsetField (e : Envelope) (f : Fragment) : ℕ := f.offset + 2 * e.res.val + f.more.toNat

def beBytes32 (n : ℕ) : List UInt8 :=
  [.ofNat (n / 2 ^ 24), .ofNat (n / 2 ^ 16), .ofNat (n / 2 ^ 8), .ofNat n]

def encode (e : Envelope) (f : Fragment) : List UInt8 :=
  e.front.val ++ ([44, e.hopLimit] ++ (f.key.src.val ++ (f.key.dst.val ++
    ([f.nextHeader, e.reserved, .ofNat (offsetField e f / 256), .ofNat (offsetField e f)] ++
      (beBytes32 f.key.identification.toNat ++ f.payload)))))

def ipv6Header (src dst : Octets) (nextHeader : UInt8) (payloadLen : ℕ) : List UInt8 :=
  [0x60, 0, 0, 0, .ofNat (payloadLen / 256), .ofNat payloadLen, nextHeader, 64]
    ++ (src.val ++ dst.val)

def fragmentOf (pkt : List UInt8) (h : ipv6HeaderLen + fragExtLen ≤ pkt.length) : Fragment :=
  let field := u16FromBeBytes (pkt.getD 42 0) (pkt.getD 43 0)
  { key :=
      { src := ⟨(pkt.take 24).drop 8, by simp only [ipv6HeaderLen, fragExtLen] at h; simp; omega⟩
        dst := ⟨(pkt.take 40).drop 24, by simp only [ipv6HeaderLen, fragExtLen] at h; simp; omega⟩
        identification := u32FromBeBytes (pkt.getD 44 0) (pkt.getD 45 0) (pkt.getD 46 0) (pkt.getD 47 0) }
    nextHeader := pkt.getD 40 0
    offset := (field >>> 3).toNat * 8
    more := (field &&& 1) != 0
    payload := pkt.drop 48 }

def fragment? (pkt : List UInt8) : Option Fragment :=
  if h : ipv6HeaderLen + fragExtLen ≤ pkt.length then
    if pkt.getD 6 0 = 44 then some (fragmentOf pkt h) else none
  else none

def sampleKey : FragKey :=
  { src := ⟨List.replicate 16 1, rfl⟩, dst := ⟨List.replicate 16 2, rfl⟩, identification := 7 }

def sampleEnvelope : Envelope := ⟨⟨List.replicate 6 0, rfl⟩, 63, 0, 0⟩

lemma u16FromBeBytes_ofNat {n : ℕ} (h : n < 2 ^ 16) :
    (u16FromBeBytes (.ofNat (n / 256)) (.ofNat n)).toNat = n := by
  simp only [u16FromBeBytes, UInt8.toNat_ofNat', UInt16.toNat_ofNat']
  omega

lemma u32FromBeBytes_ofNat (i : UInt32) :
    u32FromBeBytes (.ofNat (i.toNat / 2 ^ 24)) (.ofNat (i.toNat / 2 ^ 16))
      (.ofNat (i.toNat / 2 ^ 8))
      (.ofNat i.toNat) = i := by
  have hi := i.toNat_lt
  apply UInt32.toNat_inj.mp
  simp only [u32FromBeBytes, UInt8.toNat_ofNat', UInt32.toNat_ofNat']
  omega

lemma field_offset (w : UInt16) : (w >>> 3).toNat * 8 = w.toNat / 8 * 8 := by
  rw [UInt16.toNat_shiftRight, show (3 : UInt16).toNat % 16 = 3 from rfl, Nat.shiftRight_eq_div_pow]

lemma field_more (w : UInt16) : ((w &&& 1) != 0) = decide (w.toNat % 2 = 1) := by
  have h : (w &&& 1).toNat = w.toNat % 2 := by
    rw [UInt16.toNat_and]
    exact Nat.and_one_is_mod _
  by_cases hw : w.toNat % 2 = 1
  · simp only [hw, decide_true, bne_iff_ne, ne_eq]
    intro hz
    rw [hz] at h
    simp at h
    omega
  · have hz : w &&& 1 = 0 := by
      apply UInt16.toNat_inj.mp
      rw [h]
      simp
      omega
    simp [hw, hz]

variable {e : Envelope} {f : Fragment}

lemma length_encode (e : Envelope) (f : Fragment) :
    (encode e f).length = 48 + f.payload.length := by
  simp [encode, beBytes32, e.front.property, f.key.src.property, f.key.dst.property]
  omega

lemma encode_getD (e : Envelope) (f : Fragment) (i : ℕ) :
    (encode e f).getD (40 + i) 0 =
      ([f.nextHeader, e.reserved, .ofNat (offsetField e f / 256), .ofNat (offsetField e f)] ++
        (beBytes32 f.key.identification.toNat ++ f.payload)).getD i 0 := by
  have hf := e.front.property
  have hs := f.key.src.property
  have hd := f.key.dst.property
  rw [encode, List.getD_append_right _ _ _ _ (by omega), hf,
    List.getD_append_right _ _ _ _ (by simp; omega),
    List.getD_append_right _ _ _ _ (by simp; omega), hs, List.getD_append_right _ _ _ _
    (by simp; omega), hd]
  congr 1
  simp
  omega

lemma encode_nextHeader (e : Envelope) (f : Fragment) : (encode e f).getD 6 0 = 44 := by
  have hf := e.front.property
  rw [encode, List.getD_append_right _ _ _ _ (by omega), hf]
  rfl

lemma encode_field (ho : 8 ∣ f.offset) (hb : f.offset < 2 ^ 16) :
    (u16FromBeBytes ((encode e f).getD 42 0) ((encode e f).getD 43 0)).toNat = offsetField e f := by
  have hw : offsetField e f < 2 ^ 16 := by
    have hr := e.res.isLt
    have hm := Bool.toNat_le f.more
    simp only [offsetField]
    omega
  rw [encode_getD e f 2, encode_getD e f 3]
  exact u16FromBeBytes_ofNat hw

lemma encode_key (h : ipv6HeaderLen + fragExtLen ≤ (encode e f).length) :
    (fragmentOf (encode e f) h).key = f.key := by
  have hf := e.front.property
  have hs := f.key.src.property
  have hd := f.key.dst.property
  have hid : (fragmentOf (encode e f) h).key.identification = f.key.identification := by
    simp only [fragmentOf]
    rw [encode_getD e f 4, encode_getD e f 5, encode_getD e f 6, encode_getD e f 7]
    exact u32FromBeBytes_ofNat f.key.identification
  have hsrc : (fragmentOf (encode e f) h).key.src = f.key.src := by
    apply Subtype.ext
    simp [fragmentOf, encode, List.take_append, List.drop_append, hf, hs, List.take_of_length_le]
  have hdst : (fragmentOf (encode e f) h).key.dst = f.key.dst := by
    apply Subtype.ext
    simp [fragmentOf, encode, List.take_append, List.drop_append, hf, hs, hd,
      List.take_of_length_le]
  cases hk : (fragmentOf (encode e f) h).key
  simp_all

lemma fragment?_encode (ho : 8 ∣ f.offset) (hb : f.offset < 2 ^ 16) :
    fragment? (encode e f) = some f := by
  have hl : ipv6HeaderLen + fragExtLen ≤ (encode e f).length := by
    simp [length_encode, ipv6HeaderLen, fragExtLen]
  have hfield := encode_field (e := e) ho hb
  have hr := e.res.isLt
  have hm := Bool.toNat_le f.more
  rw [fragment?, dif_pos hl, if_pos (encode_nextHeader e f), Option.some.injEq]
  have hoffset : (fragmentOf (encode e f) hl).offset = f.offset := by
    simp only [fragmentOf, field_offset, hfield, offsetField]
    omega
  have hmore : (fragmentOf (encode e f) hl).more = f.more := by
    simp only [fragmentOf, field_more, hfield, offsetField]
    cases f.more <;> simp <;> omega
  have hpayload : (fragmentOf (encode e f) hl).payload = f.payload := by
    simp [fragmentOf, encode, beBytes32, List.drop_append, List.drop_eq_nil_of_le, e.front.property,
      f.key.src.property, f.key.dst.property]
  have hnext : (fragmentOf (encode e f) hl).nextHeader = f.nextHeader := encode_getD e f 0
  have hkey := encode_key hl
  cases hv : fragmentOf (encode e f) hl
  cases f
  simp_all

end Yggstack.Frag
