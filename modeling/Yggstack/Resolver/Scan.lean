import Yggstack.Library.Inet
import Yggstack.Resolver.Wire

namespace Yggstack.Resolver

open Library Library.Inet
open Frag (u16FromBeBytes)

def word (buf : List UInt8) (pos : ℕ) : UInt16 :=
  u16FromBeBytes (buf.getD pos 0) (buf.getD (pos + 1) 0)

variable {buf : List UInt8} {pos next : ℕ}

lemma lt_of_skipDnsName (h : skipDnsName buf pos = some next) : pos < next := by
  induction pos using skipDnsName.induct buf with
  | case1 pos hend =>
    rw [skipDnsName, dif_pos hend] at h
    cases h
  | case2 pos hlt len hzero =>
    rw [skipDnsName, dif_neg hlt, if_pos hzero] at h
    cases h
    omega
  | case3 pos hlt len hzero hpointer =>
    rw [skipDnsName, dif_neg hlt, if_neg hzero, if_pos hpointer] at h
    cases h
    omega
  | case4 pos hlt len hzero hpointer ih =>
    rw [skipDnsName, dif_neg hlt, if_neg hzero, if_neg hpointer] at h
    have := ih h
    omega

lemma parseAnswers_succ (hskip : skipDnsName buf pos = some next) (hroom : next + 10 ≤ buf.length)
    (count : ℕ) :
    parseAnswers buf (count + 1) pos =
      if word buf next = 28 ∧ (word buf (next + 8)).toNat = 16 ∧ next + 10 + 16 ≤ buf.length then
        .ok (some (fromOctets ((buf.take (next + 10 + 16)).drop (next + 10))))
      else parseAnswers buf count (next + 10 + (word buf (next + 8)).toNat) := by
  have hindex : ∀ i < 10, index buf (next + i) = .ok (buf.getD (next + i) 0) := by
    intro i hi
    exact index_getD 0 (by omega)
  have h0 := hindex 0 (by omega)
  rw [Nat.add_zero] at h0
  rw [parseAnswers, hskip]
  simp only [if_neg (show ¬next + 10 > buf.length by omega)]
  rw [h0, hindex 1 (by omega), hindex 2 (by omega), hindex 3 (by omega), hindex 4 (by omega),
    hindex 5 (by omega), hindex 6 (by omega), hindex 7 (by omega), hindex 8 (by omega),
    hindex 9 (by omega)]
  simp only [ok_bind, word, Nat.add_assoc, Nat.reduceAdd]
  split
  · next haddr =>
    rw [slice_ok (by omega) haddr.2.2, ok_bind]
    rfl
  · rfl

lemma parseAnswers_eq_none {count : ℕ}
    (h : ∀ next, skipDnsName buf pos = some next → buf.length < next + 10) :
    parseAnswers buf count pos = .ok none := by
  cases count with
  | zero => rfl
  | succ count =>
    rw [parseAnswers]
    cases hskip : skipDnsName buf pos with
    | none => rfl
    | some next => simp only [if_pos (h next hskip), pure_eq_ok]

lemma parseAnswers_ok (buf : List UInt8) (count pos : ℕ) :
    ∃ result, parseAnswers buf count pos = .ok result := by
  induction count generalizing pos with
  | zero => exact ⟨none, rfl⟩
  | succ count ih =>
    by_cases h : ∃ next, skipDnsName buf pos = some next ∧ next + 10 ≤ buf.length
    · obtain ⟨next, hskip, hroom⟩ := h
      rw [parseAnswers_succ hskip hroom]
      split
      · exact ⟨_, rfl⟩
      · exact ih _
    · refine ⟨none, parseAnswers_eq_none ?_⟩
      intro next hskip
      by_contra hroom
      exact h ⟨next, hskip, by omega⟩

lemma bytes_of_word {value : UInt8} (hpos : pos + 2 ≤ buf.length)
    (h : (word buf pos).toNat = value.toNat) : slice buf pos (pos + 2) = .ok [0, value] := by
  have ha := (buf.getD pos 0).toNat_lt
  have hb := (buf.getD (pos + 1) 0).toNat_lt
  have hv := value.toNat_lt
  rw [word, u16FromBeBytes, UInt16.toNat_ofNat', Nat.mod_eq_of_lt (by omega)] at h
  have hfirst : buf.getD pos 0 = 0 := UInt8.toNat_inj.mp (by simp only [UInt8.toNat_zero]; omega)
  have hsecond : buf.getD (pos + 1) 0 = value := UInt8.toNat_inj.mp (by omega)
  rw [List.getD_eq_getElem _ _ (by omega)] at hfirst hsecond
  rw [slice_ok (by omega) hpos, List.drop_take, Nat.add_sub_cancel_left,
    List.drop_eq_getElem_cons (by omega), List.drop_eq_getElem_cons (by omega), hfirst, hsecond]
  rfl

structure AddressAt (buf : List UInt8) (ip : BitVec 128) (p : ℕ) : Prop where
  room : p + 16 ≤ buf.length
  data : slice buf p (p + 16) = .ok (ipv6Octets ip)
  kind : slice buf (p - 10) (p - 8) = .ok [0, 28]
  length : slice buf (p - 2) p = .ok [0, 16]

lemma addressAt_of_words (hroom : next + 10 + 16 ≤ buf.length) (htype : word buf next = 28)
    (hlen : (word buf (next + 8)).toNat = 16) :
    AddressAt buf (fromOctets ((buf.take (next + 10 + 16)).drop (next + 10))) (next + 10) where
  room := hroom
  data := by
    rw [slice_ok (by omega) hroom]
    exact congrArg Except.ok (ipv6Octets_bigEndian (by simp; omega)).symm
  kind := by
    have hbytes : slice buf next (next + 2) = .ok [0, 28] :=
      bytes_of_word (by omega) (by rw [htype]; rfl)
    exact hbytes
  length := by
    have hbytes : slice buf (next + 8) (next + 8 + 2) = .ok [0, 16] :=
      bytes_of_word (by omega) (by rw [hlen]; rfl)
    exact hbytes

lemma addressAt_of_parseAnswers {count : ℕ} {ip : BitVec 128} (hpos : 12 ≤ pos)
    (h : parseAnswers buf count pos = .ok (some ip)) : ∃ p, 12 + 10 ≤ p ∧ AddressAt buf ip p := by
  induction count generalizing pos with
  | zero => cases h
  | succ count ih =>
    by_cases hread : ∃ next, skipDnsName buf pos = some next ∧ next + 10 ≤ buf.length
    · obtain ⟨next, hskip, hroom⟩ := hread
      have hlt := lt_of_skipDnsName hskip
      rw [parseAnswers_succ hskip hroom] at h
      split at h
      · next haddr =>
        cases h
        exact ⟨next + 10, by omega, addressAt_of_words haddr.2.2 haddr.1 haddr.2.1⟩
      · exact ih (by omega) h
    · rw [parseAnswers_eq_none] at h
      · cases h
      · intro next hskip
        by_contra hroom
        exact hread ⟨next, hskip, by omega⟩

lemma parseDnsAaaaResponse_eq (h : 12 ≤ buf.length) :
    parseDnsAaaaResponse buf =
      if (word buf 6).toNat = 0 then .ok none
      else
        match skipDnsName buf 12 with
        | none => .ok none
        | some pos => parseAnswers buf (word buf 6).toNat (pos + 4) := by
  rw [parseDnsAaaaResponse, if_neg (by omega), index_getD 0 (by omega), index_getD 0 (by omega)]
  rfl

lemma parseDnsAaaaResponse_short (h : buf.length < 12) : parseDnsAaaaResponse buf = .ok none :=
  if_pos h

lemma parseDnsAaaaResponse_ok (buf : List UInt8) :
    ∃ result, parseDnsAaaaResponse buf = .ok result := by
  rcases Nat.lt_or_ge buf.length 12 with h | h
  · exact ⟨none, parseDnsAaaaResponse_short h⟩
  · rw [parseDnsAaaaResponse_eq h]
    split
    · exact ⟨none, rfl⟩
    · split
      · exact ⟨none, rfl⟩
      · exact parseAnswers_ok _ _ _

lemma addressAt_of_parse {ip : BitVec 128} (h : parseDnsAaaaResponse buf = .ok (some ip)) :
    ∃ p, 12 + 10 ≤ p ∧ AddressAt buf ip p := by
  rcases Nat.lt_or_ge buf.length 12 with hshort | hlen
  · rw [parseDnsAaaaResponse_short hshort] at h
    cases h
  · rw [parseDnsAaaaResponse_eq hlen] at h
    split at h
    · cases h
    · split at h
      · cases h
      · next pos hskip =>
        have hlt := lt_of_skipDnsName hskip
        exact addressAt_of_parseAnswers (by omega) h

/-- The scan stays inside the buffer and moves forward, and an address it gives is the data of a
record it read. -/
theorem scan_is_safe (buf : List UInt8) :
    (∃ result, parseDnsAaaaResponse buf = .ok result) ∧
      (∀ pos next, skipDnsName buf pos = some next → pos < next) ∧
      ∀ ip, parseDnsAaaaResponse buf = .ok (some ip) →
        ∃ p, 12 + 10 ≤ p ∧ p + 16 ≤ buf.length ∧ slice buf p (p + 16) = .ok (ipv6Octets ip) ∧
          slice buf (p - 10) (p - 8) = .ok [0, 28] ∧ slice buf (p - 2) p = .ok [0, 16] := by
  refine ⟨parseDnsAaaaResponse_ok buf, ?_, ?_⟩
  · intro pos next h
    exact lt_of_skipDnsName h
  · intro ip h
    obtain ⟨p, hp, haddr⟩ := addressAt_of_parse h
    exact ⟨p, hp, haddr.room, haddr.data, haddr.kind, haddr.length⟩

end Yggstack.Resolver
