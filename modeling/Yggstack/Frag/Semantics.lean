import Yggstack.Frag.Slots

namespace Yggstack.Frag

open Library

lemma plen_bytes (n : ℕ) :
    (UInt16.ofNat n >>> 8).toUInt8 = .ofNat (n / 256) ∧ (UInt16.ofNat n).toUInt8 = .ofNat n := by
  constructor
  · apply UInt8.toNat_inj.mp
    rw [UInt16.toNat_toUInt8, UInt16.toNat_shiftRight, show (8 : UInt16).toNat % 16 = 8 from rfl,
      Nat.shiftRight_eq_div_pow, UInt16.toNat_ofNat', UInt8.toNat_ofNat']
    omega
  · apply UInt8.toNat_inj.mp
    rw [UInt16.toNat_toUInt8, UInt16.toNat_ofNat', UInt8.toNat_ofNat']
    omega

lemma buildReassembled_eq (src dst : Octets) (nextHeader : UInt8) (payload : List UInt8) :
    buildReassembled src dst nextHeader payload =
      .ok (ipv6Header src dst nextHeader payload.length ++ payload) := by
  obtain ⟨hhi, hlo⟩ := plen_bytes payload.length
  let rest :=
    List.replicate 16 (0 : UInt8) ++ (List.replicate 16 0 ++ List.replicate payload.length 0)
  have hz : List.replicate (ipv6HeaderLen + payload.length) (0 : UInt8) =
      List.replicate 8 0 ++ rest := by
    simp only [rest, ← List.replicate_add]
    congr 1
    simp only [ipv6HeaderLen]
    omega
  let front : List UInt8 :=
    [0x60, 0, 0, 0, .ofNat (payload.length / 256), .ofNat payload.length, nextHeader, 64]
  have hfront :
      (((((List.replicate 8 0 ++ rest).set 0 0x60).set 4 (.ofNat (payload.length / 256))).set 5
      (.ofNat payload.length)).set 6 nextHeader).set 7 64 = front ++ rest := rfl
  have hsrc : copyFromSlice (front ++ rest) 8 24 src.val =
      .ok (front ++ (src.val ++ (List.replicate 16 0 ++ List.replicate payload.length 0))) :=
    copyFromSlice_append rfl rfl (by simp [src.property])
  have hdst : copyFromSlice
      (front ++ (src.val ++ (List.replicate 16 0 ++ List.replicate payload.length 0))) 24 40
      dst.val = .ok (front ++ (src.val ++ (dst.val ++ List.replicate payload.length 0))) := by
    have hh : copyFromSlice
        ((front ++ src.val) ++ (List.replicate 16 0 ++ List.replicate payload.length 0)) 24 40
        dst.val = .ok ((front ++ src.val) ++ (dst.val ++ List.replicate payload.length 0)) :=
      copyFromSlice_append (by simp [front, src.property]) rfl (by simp [dst.property])
    simpa only [List.append_assoc] using hh
  have hpay : copyFromSlice (front ++ (src.val ++ (dst.val ++ List.replicate payload.length 0)))
      ipv6HeaderLen
      (front ++ (src.val ++ (dst.val ++ List.replicate payload.length 0))).length payload =
      .ok (front ++ (src.val ++ (dst.val ++ payload))) := by
    have hh : copyFromSlice
        ((front ++ (src.val ++ dst.val)) ++ (List.replicate payload.length 0 ++ [])) 40
        (40 + payload.length) payload = .ok ((front ++ (src.val ++ dst.val)) ++ (payload ++ [])) :=
      copyFromSlice_append (by simp [front, src.property, dst.property]) (by simp) (by simp)
    simp only [List.append_assoc, List.append_nil] at hh
    rw [ipv6HeaderLen, ← hh]
    congr 1
    simp [front, src.property, dst.property]
    omega
  have hlen : (List.replicate 8 (0 : UInt8) ++ rest).length = 40 + payload.length := by
    simp [rest]
    omega
  simp only [buildReassembled, hz, hhi, hlo, assign, hlen,
    if_pos (show 0 < 40 + payload.length by omega)]
  change copyFromSlice (((((List.replicate 8 0 ++ rest).set 0 0x60).set 4 _).set 5 _).set 6 _ |>.set
    7 64) 8 24 _ >>= _ = _
  rw [hfront, hsrc]
  change copyFromSlice _ 24 40 dst.val >>= _ = _
  rw [hdst]
  exact hpay.trans (by simp [ipv6Header, front])

namespace FragReassembler

def slotFor (r : FragReassembler) (f : Fragment) (now : ℕ) : FragSlot :=
  (r.slots.find f.key).getD (.fresh f now)

def accept (r : FragReassembler) (now : ℕ) (f : Fragment) : FragReassembler × Option (List UInt8) :=
  if bufLen < f.fin then (⟨r.slots.erase f.key⟩, none)
  else
    let slot := (r.slotFor f now).write f
    match slot.complete? with
    | some total => (⟨r.slots.erase f.key⟩, some (slot.packet total))
    | none => (⟨r.slots.insert f.key slot⟩, none)

def Sound (r : FragReassembler) : Prop := ∀ k s, r.slots.find k = some s → s.Sound

variable {r : FragReassembler} {f : Fragment} {pkt : List UInt8} {now t : ℕ}

lemma Sound.evict (h : r.Sound) (t : ℕ) : (r.evictExpired t).Sound := by
  intro k s hs
  simp only [evictExpired, Store.find_retain, Option.filter_eq_some_iff] at hs
  exact h k s hs.1

lemma Sound.slotFor (h : r.Sound) (f : Fragment) (now : ℕ) : (r.slotFor f now).Sound := by
  rw [FragReassembler.slotFor]
  cases hs : r.slots.find f.key with
  | none => exact FragSlot.fresh_sound f now
  | some s => exact h _ s hs

lemma Sound.accept (h : r.Sound) (now : ℕ) (f : Fragment) : (r.accept now f).1.Sound := by
  have herase : (⟨r.slots.erase f.key⟩ : FragReassembler).Sound := by
    intro k s hs
    rw [Store.find_erase] at hs
    split at hs
    · cases hs
    · exact h k s hs
  rw [FragReassembler.accept]
  split
  · exact herase
  · rename_i hf
    simp only
    split
    · exact herase
    · intro k s hs
      rw [Store.find_insert] at hs
      split at hs
      · obtain rfl := Option.some.inj hs
        exact (h.slotFor f now).write (by omega)
      · exact h k s hs

def outcome (r : FragReassembler) (evictNow createdNow : ℕ) (pkt : List UInt8) :
    FragReassembler × Option (List UInt8) :=
  match fragment? pkt with
  | some f => (r.evictExpired evictNow).accept createdNow f
  | none =>
    (r.evictExpired evictNow,
      if pkt.length < ipv6HeaderLen ∨ pkt.getD 6 0 ≠ 44 then some pkt else none)

lemma index_header (hp : 48 ≤ pkt.length) {i : ℕ} (hi : i < 8) :
    index ((pkt.take 48).drop 40) i = .ok (pkt.getD (40 + i) 0) := by
  rw [index_getD 0 (by simp; omega)]
  simp only [List.getD_eq_getElem?_getD, List.getElem?_drop, List.getElem?_take,
    if_pos (show 40 + i < 48 by omega)]

lemma absorb_eq (h : r.Sound) (now : ℕ) (f : Fragment) : r.absorb now f = .ok (r.accept now f) := by
  have hs := h.slotFor f now
  unfold absorb accept slotFor at *
  simp only [FragSlot.fresh] at *
  generalize (r.slots.find f.key).getD _ = slot at *
  by_cases hf : bufLen < f.fin
  · rw [if_pos (by rw [hs.buf_length]; exact hf), if_pos hf, Store.erase_insert]
    rfl
  · have hw := hs.write (by omega : f.fin ≤ bufLen)
    have hcopy : copyFromSlice slot.buf f.offset (f.offset + f.payload.length) f.payload =
        .ok (overwrite slot.buf f.offset f.payload) := copyFromSlice_ok
      (by rw [hs.buf_length]; simp only [Fragment.fin] at hf; omega)
    have hslot : (if (!f.more) = true then
        { slot with
          totalLen := some (f.offset + f.payload.length)
          received := slot.received + f.payload.length
          buf := overwrite slot.buf f.offset f.payload }
        else
        { slot with
          received := slot.received + f.payload.length
          buf := overwrite slot.buf f.offset f.payload }) = slot.write f := by
      cases hm : f.more <;> simp [FragSlot.write, hm, Fragment.fin]
    rw [if_neg (by rw [hs.buf_length]; exact hf), if_neg hf, hcopy, ok_bind]
    simp only [hslot, Store.insert_insert, Store.erase_insert]
    generalize slot.write f = new at *
    cases ht : new.totalLen with
    | none => simp [FragSlot.complete?, ht]
    | some total =>
      have hle : total ≤ new.buf.length := by
        rw [hw.buf_length]
        exact hw.total_le total ht
      by_cases hc : total ≤ new.received
      · simp [FragSlot.complete?, Option.filter_some, ht, hc, slice_ok (Nat.zero_le _) hle,
          buildReassembled_eq, FragSlot.packet,
          List.length_take, Nat.min_eq_left hle]
      · simp [FragSlot.complete?, Option.filter_some, ht, hc]

lemma feed_fragment (h : r.Sound) (evictNow createdNow : ℕ)
    (hp : ipv6HeaderLen + fragExtLen ≤ pkt.length)
    (hn : pkt.getD 6 0 = 44) :
    r.feed evictNow createdNow pkt =
      .ok ((r.evictExpired evictNow).accept createdNow (fragmentOf pkt hp)) := by
  have hlen : 48 ≤ pkt.length := hp
  have h6 : index pkt 6 = .ok 44 := by rw [index_getD 0 (by omega), hn]
  have hsrc : toOctets ((pkt.take 24).drop 8) = .ok (fragmentOf pkt hp).key.src := dif_pos _
  have hdst : toOctets ((pkt.take 40).drop 24) = .ok (fragmentOf pkt hp).key.dst := dif_pos _
  have hpay : slice pkt 48 pkt.length = .ok (pkt.drop 48) := by
    rw [slice_ok hlen le_rfl, List.take_length]
  simp only [feed, ipv6HeaderLen, fragExtLen, if_neg (show ¬ pkt.length < 40 by omega), h6, ok_bind,
    ne_eq,
    not_true_eq_false, if_false, if_neg (show ¬ pkt.length < 40 + 8 by omega),
    slice_ok (by decide : 40 ≤ 48) hlen,
    index_header hlen (by decide : 0 < 8), index_header hlen (by decide : 2 < 8),
    index_header hlen (by decide : 3 < 8),
    index_header hlen (by decide : 4 < 8), index_header hlen (by decide : 5 < 8),
    index_header hlen (by decide : 6 < 8),
    index_header hlen (by decide : 7 < 8), slice_ok (by decide : 8 ≤ 24)
    (show 24 ≤ pkt.length by omega), hsrc,
    slice_ok (by decide : 24 ≤ 40) (show 40 ≤ pkt.length by omega), hdst, hpay]
  exact absorb_eq (h.evict evictNow) createdNow (fragmentOf pkt hp)

lemma feed_eq (h : r.Sound) (evictNow createdNow : ℕ) (pkt : List UInt8) :
    r.feed evictNow createdNow pkt = .ok (r.outcome evictNow createdNow pkt) := by
  rw [outcome, fragment?]
  by_cases hs : pkt.length < ipv6HeaderLen
  · rw [dif_neg (by omega)]
    simp [feed, hs]
  · have h6 : index pkt 6 = .ok (pkt.getD 6 0) :=
      index_getD 0 (by simp only [ipv6HeaderLen] at hs; omega)
    by_cases hn : pkt.getD 6 0 = 44
    · by_cases hp : ipv6HeaderLen + fragExtLen ≤ pkt.length
      · rw [dif_pos hp, if_pos hn]
        exact feed_fragment h evictNow createdNow hp hn
      · rw [dif_neg hp]
        simp only [feed, h6, hn, ok_bind, ne_eq, not_true_eq_false, if_false,
          if_pos (show pkt.length < ipv6HeaderLen + fragExtLen by omega), hs, or_self, pure_eq_ok]
    · have hnone : (if hp : ipv6HeaderLen + fragExtLen ≤ pkt.length then
          if pkt.getD 6 0 = 44 then some (fragmentOf pkt hp) else none else none) = none := by
        simp only [if_neg hn]
        split <;> rfl
      rw [hnone]
      simp only [feed, if_neg hs, h6, ok_bind, ne_eq, hn, not_false_eq_true, if_true, or_true,
        pure_eq_ok]

lemma find_outcome_of_ne {key : FragKey} (h : ∀ f, fragment? pkt = some f → f.key ≠ key) (e c : ℕ) :
    (r.outcome e c pkt).1.slots.find key = (r.evictExpired e).slots.find key := by
  rw [outcome]
  cases hf : fragment? pkt with
  | none => rfl
  | some f =>
    have hk := (h f hf).symm
    simp only [accept]
    split
    · exact Store.find_erase_of_ne _ hk
    · split
      · exact Store.find_erase_of_ne _ hk
      · exact Store.find_insert_of_ne _ _ hk

end FragReassembler

structure Feed where
  evictNow : ℕ
  createdNow : ℕ
  pkt : List UInt8

namespace FragReassembler

def feedAll (r : FragReassembler) :
    List Feed → Except Panic (FragReassembler × List (Option (List UInt8)))
  | [] => .ok (r, [])
  | x :: xs => do
    let (r, out) ← r.feed x.evictNow x.createdNow x.pkt
    let (r, outs) ← r.feedAll xs
    return (r, out :: outs)

def Reachable (r : FragReassembler) : Prop := ∃ xs outs, new.feedAll xs = .ok (r, outs)

lemma Sound.outcome {r : FragReassembler} (h : r.Sound) (x : Feed) :
    (r.outcome x.evictNow x.createdNow x.pkt).1.Sound := by
  rw [FragReassembler.outcome]
  split
  · exact (h.evict x.evictNow).accept x.createdNow _
  · exact h.evict x.evictNow

lemma feedAll_cons {r : FragReassembler} (h : r.Sound) (x : Feed) (xs : List Feed) :
    r.feedAll (x :: xs) = ((r.outcome x.evictNow x.createdNow x.pkt).1.feedAll xs).map
      fun q => (q.1, (r.outcome x.evictNow x.createdNow x.pkt).2 :: q.2) := by
  rw [feedAll, feed_eq h, ok_bind]
  obtain ⟨next, out⟩ := r.outcome x.evictNow x.createdNow x.pkt
  cases hn : next.feedAll xs <;> simp only [hn] <;> rfl

lemma Sound.feedAll {r r' : FragReassembler} {outs : List (Option (List UInt8))} (h : r.Sound)
    (xs : List Feed)
    (hr : r.feedAll xs = .ok (r', outs)) : r'.Sound := by
  induction xs generalizing r outs with
  | nil => cases hr; exact h
  | cons x xs ih =>
    rw [feedAll_cons h] at hr
    cases hx : (r.outcome x.evictNow x.createdNow x.pkt).1.feedAll xs with
    | error e => rw [hx] at hr; cases hr
    | ok q =>
      rw [hx] at hr
      cases hr
      exact ih (h.outcome x) hx

lemma Reachable.sound {r : FragReassembler} (h : r.Reachable) : r.Sound := by
  obtain ⟨xs, outs, hr⟩ := h
  exact Sound.feedAll (by intro k s hs; cases hs) xs hr

end FragReassembler

end Yggstack.Frag
