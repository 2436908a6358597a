import Yggstack.Http.Head
import Yggstack.Library.InetLocal

namespace Yggstack.Http

open Library Inet
open Forward (trimMatches)

section Padding

variable {p : Char → Bool} {before text after cs : List Char} {c : Char}

lemma trim_eq (cs : List Char) : trim cs = trimMatches isWhitespace cs := rfl

lemma dropWhile_pad (hbefore : ∀ c ∈ before, p c = true) (htext : ∀ c ∈ text, p c = false)
    (hne : text ≠ []) : (before ++ text ++ after).dropWhile p = text ++ after := by
  rw [List.append_assoc, List.dropWhile_append_of_pos hbefore]
  cases text with
  | nil => exact absurd rfl hne
  | cons c text =>
    rw [List.cons_append, List.dropWhile_cons_of_neg]
    simp [htext c List.mem_cons_self]

lemma trimMatches_pad (hbefore : ∀ c ∈ before, p c = true) (htext : ∀ c ∈ text, p c = false)
    (hafter : ∀ c ∈ after, p c = true) (hne : text ≠ []) :
    trimMatches p (before ++ text ++ after) = text := by
  have hback : (after.reverse ++ text.reverse ++ []).dropWhile p = text.reverse ++ [] :=
    dropWhile_pad (by simpa using hafter) (by simpa using htext) (by simpa using hne)
  rw [List.append_nil, List.append_nil] at hback
  rw [trimMatches, Forward.trimEndMatches, dropWhile_pad hbefore htext hne, List.reverse_append,
    hback, List.reverse_reverse]

lemma dropWhile_append_of_mem {xs ys : List Char} (h : c ∈ xs) (hc : p c = false) :
    (xs ++ ys).dropWhile p = xs.dropWhile p ++ ys := by
  rw [List.dropWhile_append, if_neg]
  rw [List.isEmpty_iff, List.dropWhile_eq_nil_iff]
  intro hall
  rw [hall c h] at hc
  cases hc

lemma mem_trimMatches {xs ys : List Char} {d e : Char} (hd : d ∈ xs) (hpd : p d = false)
    (he : e ∈ ys) (hpe : p e = false) : c ∈ trimMatches p (xs ++ c :: ys) := by
  rw [trimMatches, dropWhile_append_of_mem hd hpd, Forward.trimEndMatches, List.reverse_append,
    List.reverse_cons, List.append_assoc, dropWhile_append_of_mem (List.mem_reverse.mpr he) hpe]
  simp

lemma mem_dropWhile_of_neg (hc : p c = false) (h : c ∈ cs) : c ∈ cs.dropWhile p := by
  induction cs with
  | nil => exact h
  | cons d cs ih =>
    rw [List.dropWhile_cons]
    split
    · next hd =>
      rcases List.mem_cons.mp h with rfl | h
      · rw [hc] at hd
        cases hd
      · exact ih h
    · exact h

lemma mem_trim_iff (hc : isWhitespace c = false) : c ∈ trim cs ↔ c ∈ cs := by
  constructor
  · intro h
    have hinner := (List.dropWhile_suffix _).subset (List.mem_reverse.mp h)
    exact (List.dropWhile_suffix _).subset (List.mem_reverse.mp hinner)
  · intro h
    apply List.mem_reverse.mpr
    apply mem_dropWhile_of_neg hc
    exact List.mem_reverse.mpr (mem_dropWhile_of_neg hc h)

end Padding

section Characters

variable {c : Char} {text more : List Char} {ip : BitVec 128}

lemma range_of_addressChar (h : addressChar c) :
    (48 ≤ c.toNat ∧ c.toNat ≤ 58) ∨ c.toNat = 46 ∨ (65 ≤ c.toNat ∧ c.toNat ≤ 70) ∨
      (97 ≤ c.toNat ∧ c.toNat ≤ 102) := by
  rcases h with h | rfl | rfl
  · obtain ⟨d, hd⟩ := Option.isSome_iff_exists.mp h
    simp only [digit?, Option.filter_eq_some_iff, decide_eq_true_eq] at hd
    obtain ⟨hd, hlt⟩ := hd
    simp only [Char.le_def, UInt32.le_iff_toNat_le] at hd
    have h0 : '0'.val.toNat = 48 := rfl
    have h9 : '9'.val.toNat = 57 := rfl
    have ha : 'a'.val.toNat = 97 := rfl
    have hz : 'z'.val.toNat = 122 := rfl
    have hA : 'A'.val.toNat = 65 := rfl
    have hZ : 'Z'.val.toNat = 90 := rfl
    have hc : c.toNat = c.val.toNat := rfl
    have ha' : 'a'.toNat = 97 := rfl
    have hA' : 'A'.toNat = 65 := rfl
    rw [h0, h9, ha, hz, hA, hZ, hc, ha', hA'] at hd
    rw [hc]
    split at hd
    · omega
    · split at hd
      · cases hd
        omega
      · split at hd
        · cases hd
          omega
        · cases hd
  · decide
  · decide

lemma not_whitespace_of_addressChar (h : addressChar c) : isWhitespace c = false := by
  have hrange := range_of_addressChar h
  simp only [isWhitespace, decide_eq_false_iff_not]
  omega

lemma ne_of_addressChar (h : addressChar c) : c ≠ '[' ∧ c ≠ ']' ∧ c ≠ '%' := by
  have hrange := range_of_addressChar h
  refine ⟨?_, ?_, ?_⟩ <;>
  · rintro rfl
    revert hrange
    decide

end Characters

section Texts

variable {ip : BitVec 128} {before text after : List Char}

def padded (before text after : List Char) : String := String.ofList (before ++ text ++ after)

lemma trim_padded (hbefore : ∀ c ∈ before, isWhitespace c = true)
    (hafter : ∀ c ∈ after, isWhitespace c = true) (htext : ∀ c ∈ text, isWhitespace c = false)
    (hne : text ≠ []) : trim (padded before text after).toList = text := by
  rw [padded, String.toList_ofList, trim_eq]
  exact trimMatches_pad hbefore htext hafter hne

lemma addressChar_showIpv6 (ip : BitVec 128) : ∀ c ∈ (showIpv6 ip).toList, addressChar c :=
  addressChar_of_parseIpv6 (parseIpv6_showIpv6 ip)

lemma showIpv6_ne_nil (ip : BitVec 128) : (showIpv6 ip).toList ≠ [] := by
  obtain ⟨first, cs, htext, -⟩ := showIpv6_start ip
  rw [htext]
  simp

lemma bracketed_not_whitespace (ip : BitVec 128) (hmore : ∀ c ∈ after, isWhitespace c = false) :
    ∀ c ∈ '[' :: (showIpv6 ip).toList ++ ']' :: after, isWhitespace c = false := by
  intro c hc
  rcases List.mem_append.mp hc with hc | hc
  · rcases List.mem_cons.mp hc with rfl | hc
    · rfl
    · exact not_whitespace_of_addressChar (addressChar_showIpv6 ip c hc)
  · rcases List.mem_cons.mp hc with rfl | hc
    · rfl
    · exact hmore c hc

end Texts

end Yggstack.Http
