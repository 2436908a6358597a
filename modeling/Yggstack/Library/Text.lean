import Mathlib.Tactic

namespace Yggstack.Library

def utf8 (cs : List Char) : List UInt8 := cs.flatMap String.utf8EncodeChar

def fromUtf8 (bytes : List UInt8) : Option (List Char) :=
  bytes.toByteArray.utf8Decode?.map Array.toList

def trimEndMatches (pat cs : List Char) : List Char :=
  if pat ≠ [] ∧ pat <:+ cs then trimEndMatches pat (cs.take (cs.length - pat.length)) else cs
termination_by cs.length
decreasing_by
  next h =>
    have hpos := List.length_pos_of_ne_nil h.1
    have hle := h.2.length_le
    rw [List.length_take]
    omega

def splitOnce (c : Char) : List Char → Option (List Char × List Char)
  | [] => none
  | d :: cs =>
    if d = c then some ([], cs)
    else (splitOnce c cs).map fun (before, after) => (d :: before, after)

lemma splitOnce_eq_some_iff {c : Char} {cs before after : List Char} :
    splitOnce c cs = some (before, after) ↔ cs = before ++ c :: after ∧ c ∉ before := by
  induction cs generalizing before with
  | nil => simp [splitOnce]
  | cons d cs ih =>
    rw [splitOnce]
    split
    · next hd =>
      subst hd
      constructor
      · intro h
        cases h
        exact ⟨rfl, List.not_mem_nil⟩
      · rintro ⟨heq, hnot⟩
        cases before with
        | nil =>
          cases heq
          rfl
        | cons b before =>
          cases heq
          exact absurd List.mem_cons_self hnot
    · next hd =>
      rw [Option.map_eq_some_iff]
      constructor
      · rintro ⟨⟨front, tail⟩, hcs, hpair⟩
        cases hpair
        obtain ⟨rfl, hnot⟩ := ih.mp hcs
        exact ⟨rfl, by simp [Ne.symm hd, hnot]⟩
      · rintro ⟨heq, hnot⟩
        cases before with
        | nil =>
          cases heq
          exact absurd rfl hd
        | cons b before =>
          cases heq
          exact ⟨(before, after), ih.mpr ⟨rfl, fun h => hnot (List.mem_cons_of_mem _ h)⟩, rfl⟩

lemma trimEndMatches_append {pat : List Char} (h : pat ≠ []) (cs : List Char) :
    trimEndMatches pat (cs ++ pat) = trimEndMatches pat cs := by
  rw [trimEndMatches, if_pos ⟨h, List.suffix_append cs pat⟩, List.length_append, Nat.add_sub_cancel,
    List.take_left]

lemma trimEndMatches_of_not_suffix {pat cs : List Char} (h : ¬pat <:+ cs) :
    trimEndMatches pat cs = cs := by
  rw [trimEndMatches, if_neg (fun hp => h hp.2)]

lemma trimEndMatches_replicate {pat : List Char} (h : pat ≠ []) (cs : List Char) (n : ℕ) :
    trimEndMatches pat (cs ++ (List.replicate n pat).flatten) = trimEndMatches pat cs := by
  induction n with
  | zero => simp
  | succ n ih =>
    rw [List.replicate_succ', List.flatten_concat, ← List.append_assoc, trimEndMatches_append h, ih]

lemma eq_trimEndMatches_append {pat : List Char} (h : pat ≠ []) (cs : List Char) :
    ∃ n, cs = trimEndMatches pat cs ++ (List.replicate n pat).flatten := by
  induction hn : cs.length using Nat.strong_induction_on generalizing cs with
  | _ n ih =>
    by_cases hs : pat <:+ cs
    · obtain ⟨front, rfl⟩ := hs
      have hpos := List.length_pos_of_ne_nil h
      obtain ⟨m, hm⟩ := ih front.length (by rw [← hn, List.length_append]; omega) front rfl
      refine ⟨m + 1, ?_⟩
      rw [trimEndMatches_append h, List.replicate_succ', List.flatten_concat, ← List.append_assoc, ← hm]
    · exact ⟨0, by simp [trimEndMatches_of_not_suffix hs]⟩

@[simp] lemma utf8_nil : utf8 [] = [] := rfl

@[simp] lemma utf8_append (cs ds : List Char) : utf8 (cs ++ ds) = utf8 cs ++ utf8 ds :=
  List.flatMap_append

lemma utf8_cons (c : Char) (cs : List Char) : utf8 (c :: cs) = String.utf8EncodeChar c ++ utf8 cs :=
  List.flatMap_cons

lemma fromUtf8_utf8 (cs : List Char) : fromUtf8 (utf8 cs) = some cs := by
  rw [fromUtf8, utf8, show (cs.flatMap String.utf8EncodeChar).toByteArray = cs.utf8Encode from rfl,
    List.utf8Decode?_utf8Encode]
  rfl

lemma utf8_injective : Function.Injective utf8 := by
  intro cs ds h
  have hsome := fromUtf8_utf8 cs
  rw [h, fromUtf8_utf8] at hsome
  simpa using hsome.symm

lemma utf8_of_fromUtf8 {bytes : List UInt8} {cs : List Char} (h : fromUtf8 bytes = some cs) :
    utf8 cs = bytes := by
  obtain ⟨text, ht, rfl⟩ := Option.map_eq_some_iff.mp h
  have hsome : bytes.toByteArray.utf8Decode?.isSome = true := by rw [ht]; rfl
  have hget : bytes.toByteArray.utf8Decode?.get hsome = text := by simp [ht]
  have henc : text.toList.utf8Encode = bytes.toByteArray := by
    rw [← hget]
    exact ByteArray.utf8Encode_get_utf8Decode?
  have hdata := congrArg (fun b => b.data.toList) henc
  simpa [utf8, List.utf8Encode] using hdata

lemma le_toNat_or (x : UInt8) {y : UInt8} (h : 128 ≤ y.toNat) : 128 ≤ (x ||| y).toNat := by
  rw [UInt8.toNat_or]
  exact h.trans Nat.right_le_or

lemma utf8Size_of_mem {c : Char} {b : UInt8} (hb : b ∈ String.utf8EncodeChar c)
    (h : b.toNat < 128) : c.utf8Size = 1 := by
  have hbit : ∀ x y : UInt8, 128 ≤ y.toNat → b ≠ x ||| y := by
    rintro x y hy rfl
    exact absurd (le_toNat_or x hy) (by omega)
  rcases c.utf8Size_eq with hs | hs | hs | hs
  · exact hs
  · rw [String.utf8EncodeChar_eq_cons_cons hs] at hb
    simp [hbit] at hb
  · rw [String.utf8EncodeChar_eq_cons_cons_cons hs] at hb
    simp [hbit] at hb
  · rw [String.utf8EncodeChar_eq_cons_cons_cons_cons hs] at hb
    simp [hbit] at hb

structure Ascii (c : Char) (b : UInt8) : Prop where
  encode : String.utf8EncodeChar c = [b]
  lt : b.toNat < 128

lemma Ascii.eq {c d : Char} {b : UInt8} (h : Ascii c b) (hb : b ∈ String.utf8EncodeChar d) :
    d = c := by
  have hs := utf8Size_of_mem hb h.lt
  have henc := String.utf8EncodeChar_eq_singleton hs
  rw [henc, List.mem_singleton] at hb
  have hutf8 : utf8 [d] = utf8 [c] := by
    rw [utf8_cons, utf8_cons, henc, h.encode, hb]
  simpa using utf8_injective hutf8

lemma exists_of_utf8_cons {c : Char} {b : UInt8} (hc : Ascii c b) {cs : List Char}
    {xs ys : List UInt8} (h : utf8 cs = xs ++ b :: ys) :
    ∃ as bs, cs = as ++ c :: bs ∧ utf8 as = xs ∧ utf8 bs = ys := by
  induction cs generalizing xs with
  | nil => simp at h
  | cons d cs ih =>
    rw [utf8_cons, List.append_eq_append_iff] at h
    rcases h with ⟨xs', rfl, h⟩ | ⟨zs, henc, h⟩
    · obtain ⟨as, bs, rfl, rfl, rfl⟩ := ih h
      exact ⟨d :: as, bs, rfl, utf8_cons d as, rfl⟩
    · cases zs with
      | nil =>
        obtain ⟨as, bs, rfl, has, rfl⟩ := ih (show utf8 cs = [] ++ b :: ys by simpa using h.symm)
        refine ⟨d :: as, bs, rfl, ?_, rfl⟩
        rw [utf8_cons, has, henc, List.append_nil, List.append_nil]
      | cons z zs =>
        obtain ⟨rfl, hys⟩ := List.cons_eq_cons.mp h
        obtain rfl : d = c := hc.eq (by rw [henc]; simp)
        rw [hc.encode] at henc
        obtain ⟨rfl, rfl⟩ : xs = [] ∧ zs = [] := by
          cases xs with
          | nil => simpa using henc.symm
          | cons x xs => simp at henc
        exact ⟨[], cs, rfl, rfl, by simpa using hys.symm⟩

lemma exists_of_utf8_head {c : Char} {b : UInt8} (hc : Ascii c b) {cs : List Char} {ys : List UInt8}
    (h : utf8 cs = b :: ys) : ∃ bs, cs = c :: bs ∧ utf8 bs = ys := by
  obtain ⟨as, bs, rfl, has, hbs⟩ := exists_of_utf8_cons hc (show utf8 cs = [] ++ b :: ys from h)
  cases as with
  | nil => exact ⟨bs, rfl, hbs⟩
  | cons a as =>
    have hlen := congrArg List.length has
    rw [utf8_cons, List.length_append, String.length_utf8EncodeChar] at hlen
    have := a.utf8Size_pos
    simp at hlen
    omega

end Yggstack.Library
