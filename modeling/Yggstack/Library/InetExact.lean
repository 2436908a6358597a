import Yggstack.Library.InetText

namespace Yggstack.Library.Inet

variable {cs digits rest : List Char} {bound n : ℕ}

lemma digitChar_of_digit? {c : Char} {d : ℕ} (h : digit? 10 c = some d) :
    d < 10 ∧ d.digitChar = c := by
  obtain ⟨hvalue, hlt⟩ := Option.filter_eq_some_iff.mp h
  have hlt : d < 10 := by simpa using hlt
  refine ⟨hlt, ?_⟩
  split at hvalue
  · next hc =>
    have hle : 48 ≤ c.toNat := hc.1
    have hd : c.toNat - 48 = d := Option.some.inj hvalue
    apply Char.toNat_inj.mp
    rw [Nat.toNat_digitChar_of_lt_ten hlt]
    omega
  · -- a letter counts for ten at least
    split at hvalue
    · cases hvalue
      omega
    · split at hvalue
      · cases hvalue
        omega
      · cases hvalue

lemma toDigits_number (hne : digits ≠ []) (hdigits : ∀ c ∈ digits, (digit? 10 c).isSome)
    (hzero : digits.head? = some '0' → digits.length ≤ 1) :
    Nat.toDigits 10 (number 10 digits) = digits := by
  induction digits using List.reverseRecOn with
  | nil => exact absurd rfl hne
  | append_singleton ds c ih =>
    obtain ⟨d, hd⟩ := Option.isSome_iff_exists.mp (hdigits c (by simp))
    obtain ⟨hlt, rfl⟩ := digitChar_of_digit? hd
    rw [number_snoc (by decide) hlt]
    by_cases hds : ds = []
    · subst hds
      simpa [number] using Nat.toDigits_of_lt_base hlt
    · have hhead : ds.head? ≠ some '0' := by
        intro h
        have hlen := hzero (by rw [List.head?_append_of_ne_nil _ hds, h])
        have hpos := List.length_pos_of_ne_nil hds
        rw [List.length_append, List.length_singleton] at hlen
        omega
      have hfront := ih hds (fun c hc => hdigits c (by simp [hc])) fun h => absurd h hhead
      have hpos : 0 < number 10 ds := by
        apply Nat.pos_of_ne_zero
        intro h
        rw [h] at hfront
        exact hhead (by rw [← hfront]; rfl)
      rw [Nat.mul_comm, ← Nat.toDigits_append_toDigits (by decide) hpos hlt, hfront,
        Nat.toDigits_of_lt_base hlt]

lemma eq_of_readNumber {maxDigits : Option ℕ}
    (h : readNumber 10 bound maxDigits false cs = some (n, rest)) :
    cs = Nat.toDigits 10 n ++ rest ∧ n < bound := by
  simp only [readNumber] at h
  split at h
  · cases h
  · next hgood =>
    cases h
    rw [not_or, not_or, not_or] at hgood
    obtain ⟨hne, -, hlt, hzero⟩ := hgood
    refine ⟨?_, by omega⟩
    rw [toDigits_number hne]
    · rw [drop_takeWhile, List.takeWhile_append_dropWhile]
    · intro c hc
      exact List.mem_takeWhile_imp (p := fun c => (digit? 10 c).isSome) hc
    · intro hhead
      by_contra hlen
      exact hzero ⟨trivial, hhead, by omega⟩

lemma eq_of_readSeparated {α : Type} {c : Char} {i : ℕ} (hi : i ≠ 0) {r : Reader α}
    {p : α × List Char} (h : readSeparated c i r cs = some p) :
    ∃ tail, cs = c :: tail ∧ r tail = some p := by
  cases cs with
  | nil => simp [readSeparated, hi, readGiven] at h
  | cons d tail =>
    by_cases hd : d = c
    · subst hd
      rw [readSeparated_cons d hi] at h
      exact ⟨tail, rfl, h⟩
    · rw [readSeparated_none hi (by simpa using hd)] at h
      cases h

lemma eq_of_readIpv4 {ip : BitVec 32} (h : readIpv4 cs = some (ip, rest)) :
    cs = (showIpv4 ip).toList ++ rest := by
  simp only [readIpv4, Option.bind_eq_bind, Option.bind_eq_some_iff, Option.pure_def,
    Option.some.injEq, Prod.mk.injEq, Prod.exists] at h
  obtain ⟨a, cs₁, ha, b, cs₂, hb, c, cs₃, hc, d, cs₄, hd, rfl, rfl⟩ := h
  obtain ⟨rfl, ha⟩ := eq_of_readNumber ha
  obtain ⟨tail₁, rfl, hb⟩ := eq_of_readSeparated (by decide) hb
  obtain ⟨rfl, hb⟩ := eq_of_readNumber hb
  obtain ⟨tail₂, rfl, hc⟩ := eq_of_readSeparated (by decide) hc
  obtain ⟨rfl, hc⟩ := eq_of_readNumber hc
  obtain ⟨tail₃, rfl, hd⟩ := eq_of_readSeparated (by decide) hd
  obtain ⟨rfl, hd⟩ := eq_of_readNumber hd
  have hvalue : (BitVec.ofNat 32 (((a * 256 + b) * 256 + c) * 256 + d)).toNat =
      ((a * 256 + b) * 256 + c) * 256 + d := by
    rw [BitVec.toNat_ofNat]
    omega
  have h₁ : (((a * 256 + b) * 256 + c) * 256 + d) / 2 ^ 24 % 256 = a := by omega
  have h₂ : (((a * 256 + b) * 256 + c) * 256 + d) / 2 ^ 16 % 256 = b := by omega
  have h₃ : (((a * 256 + b) * 256 + c) * 256 + d) / 2 ^ 8 % 256 = c := by omega
  have h₄ : (((a * 256 + b) * 256 + c) * 256 + d) / 2 ^ 0 % 256 = d := by omega
  rw [showIpv4_toList, hvalue, h₁, h₂, h₃, h₄]
  simp

def parseIpv4 (cs : List Char) : Option (BitVec 32) := parseWith readIpv4 cs

lemma parseIpv4_eq_some_iff {ip : BitVec 32} :
    parseIpv4 cs = some ip ↔ cs = (showIpv4 ip).toList := by
  constructor
  · intro h
    rw [parseIpv4, parseWith] at h
    split at h
    · next found hread =>
      cases h
      simpa using eq_of_readIpv4 hread
    · cases h
  · rintro rfl
    have hread : readIpv4 ((showIpv4 ip).toList ++ []) = some (ip, []) :=
      readIpv4_showIpv4 ip (by simp [Stops])
    rw [List.append_nil] at hread
    rw [parseIpv4, parseWith, hread]

/-! Whole numbers, as `FromStr` of the unsigned types reads them. -/

def dropPlus : List Char → List Char
  | '+' :: cs => cs
  | cs => cs

def parseUnsigned (bound : ℕ) (cs : List Char) : Option ℕ :=
  let digits := dropPlus cs
  if digits = [] ∨ digits.any (fun c => (digit? 10 c).isNone) ∨ bound ≤ number 10 digits then none
  else some (number 10 digits)

structure Numeral (cs : List Char) (n : ℕ) : Prop where
  ne_nil : dropPlus cs ≠ []
  digit : ∀ c ∈ dropPlus cs, (digit? 10 c).isSome
  value : number 10 (dropPlus cs) = n

lemma parseUnsigned_eq_some_iff : parseUnsigned bound cs = some n ↔ Numeral cs n ∧ n < bound := by
  rw [parseUnsigned]
  split
  · next hbad =>
    refine iff_of_false (by simp) ?_
    rintro ⟨hnum, hlt⟩
    rcases hbad with hnil | hany | hlarge
    · exact hnum.ne_nil hnil
    · obtain ⟨c, hc, hnone⟩ := List.any_eq_true.mp hany
      have hsome := hnum.digit c hc
      rw [Option.isNone_iff_eq_none.mp hnone] at hsome
      cases hsome
    · rw [hnum.value] at hlarge
      omega
  · next hgood =>
    rw [not_or, not_or] at hgood
    obtain ⟨hnil, hany, hlt⟩ := hgood
    rw [Option.some.injEq]
    constructor
    · rintro rfl
      refine ⟨⟨hnil, ?_, rfl⟩, by omega⟩
      intro c hc
      by_contra hno
      exact hany (List.any_eq_true.mpr ⟨c, hc, by simpa using hno⟩)
    · rintro ⟨hnum, -⟩
      exact hnum.value

lemma parseU16_eq (s : String) :
    parseU16 s = (parseUnsigned 65536 s.toList).map UInt16.ofNat := by
  rw [parseUnsigned, apply_ite (Option.map UInt16.ofNat)]
  rfl

end Yggstack.Library.Inet
