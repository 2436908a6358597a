import Yggstack.Library.InetText

namespace Yggstack.Library.Inet

def followed {α : Type} (more : List Char) (p : α × List Char) : α × List Char := (p.1, p.2 ++ more)

/-- The reader takes from a text what it takes when something follows that it cannot read. -/
def Local {α : Type} (r : Reader α) : Prop :=
  ∀ (cs : List Char) (c : Char) (more : List Char), ¬addressChar c →
    r (cs ++ c :: more) = (r cs).map (followed (c :: more))

variable {α β : Type} {r : Reader α} {cs more : List Char} {c d : Char}

lemma local_given (hd : addressChar d) : Local (readGiven d) := by
  intro cs c more hc
  cases cs with
  | nil =>
    have hne : c ≠ d := fun he => hc (he ▸ hd)
    exact if_neg hne
  | cons b cs =>
    rw [List.cons_append, readGiven, readGiven]
    split <;> rfl

lemma takeWhile_stop {p : Char → Bool} (hc : p c = false) :
    (cs ++ c :: more).takeWhile p = cs.takeWhile p := by
  induction cs with
  | nil => rw [List.nil_append, List.takeWhile_cons_of_neg (by simp [hc]), List.takeWhile_nil]
  | cons b cs ih =>
    rw [List.cons_append, List.takeWhile_cons, List.takeWhile_cons, ih]

lemma addressChar_of_digit {radix : ℕ} (hr : radix ≤ 16) (h : (digit? radix c).isSome = true) :
    addressChar c := by
  left
  obtain ⟨d, hd⟩ := Option.isSome_iff_exists.mp h
  rw [Option.isSome_iff_exists]
  simp only [digit?, Option.filter_eq_some_iff, decide_eq_true_eq] at hd ⊢
  exact ⟨d, hd.1, by omega⟩

lemma local_number {radix bound : ℕ} {maxDigits : Option ℕ} {zeroPrefix : Bool} (hr : radix ≤ 16) :
    Local (readNumber radix bound maxDigits zeroPrefix) := by
  intro cs c more hc
  have htake : (cs ++ c :: more).takeWhile (fun c => (digit? radix c).isSome) =
      cs.takeWhile fun c => (digit? radix c).isSome :=
    takeWhile_stop (Bool.eq_false_iff.mpr fun h => hc (addressChar_of_digit hr h))
  have hle := (List.takeWhile_prefix (fun c => (digit? radix c).isSome) (l := cs)).length_le
  simp only [readNumber, htake]
  split
  · rfl
  · rw [List.drop_append_of_le_length hle]
    rfl

lemma Local.bind (hr : Local r) {f : α → Reader β} (hf : ∀ a, Local (f a)) :
    Local fun cs => (r cs).bind fun p => f p.1 p.2 := by
  intro cs c more hc
  simp only [hr cs c more hc]
  cases r cs with
  | none => rfl
  | some p => exact hf p.1 p.2 c more hc

lemma local_pure (b : β) : Local fun cs => some (b, cs) := fun _ _ _ _ => rfl

lemma local_separated (hd : addressChar d) (hr : Local r) (i : ℕ) : Local (readSeparated d i r) := by
  intro cs c more hc
  rw [readSeparated, readSeparated]
  split
  · exact hr cs c more hc
  · exact (local_given hd).bind (fun _ => hr) cs c more hc

lemma local_ipv4 : Local readIpv4 := by
  have hoctet : Local (readNumber 10 256 (some 3) false) := local_number (by decide)
  have hnext := local_separated addressChar_dot hoctet
  exact hoctet.bind fun a => (hnext 1).bind fun b => (hnext 2).bind fun c => (hnext 3).bind fun d =>
    local_pure (BitVec.ofNat 32 (((a * 256 + b) * 256 + c) * 256 + d))

lemma readGroups_followed (hc : ¬addressChar c) (limit index : ℕ) (cs : List Char) :
    readGroups limit index (cs ++ c :: more) =
      ((readGroups limit index cs).1, (readGroups limit index cs).2.1,
        (readGroups limit index cs).2.2 ++ c :: more) := by
  induction limit generalizing index cs with
  | zero => rfl
  | succ limit ih =>
    have hipv4 : (if 0 < limit then readSeparated ':' index readIpv4 (cs ++ c :: more) else none) =
        (if 0 < limit then readSeparated ':' index readIpv4 cs else none).map
          (followed (c :: more)) := by
      split
      · exact local_separated addressChar_colon local_ipv4 index cs c more hc
      · rfl
    have hnumber : Local (readNumber 16 65536 (some 4) true) := local_number (le_refl 16)
    have hgroup := local_separated addressChar_colon hnumber index cs c more hc
    rw [readGroups, hipv4, hgroup, readGroups]
    cases (if 0 < limit then readSeparated ':' index readIpv4 cs else none) with
    | some p => rfl
    | none =>
      cases readSeparated ':' index (readNumber 16 65536 (some 4) true) cs with
      | none => rfl
      | some p =>
        simp only [Option.map_some, Option.map_none, followed, ih (index + 1) p.2]

lemma local_groups (limit : ℕ) (f : List ℕ → β) :
    Local fun cs => some (f (readGroups limit 0 cs).1, (readGroups limit 0 cs).2.2) := by
  intro cs c more hc
  simp only [readGroups_followed hc]
  rfl

lemma local_ipv6 : Local readIpv6 := by
  intro cs c more hc
  have hcolon := local_given addressChar_colon
  simp only [readIpv6, readGroups_followed hc 8 0 cs]
  split
  · rfl
  · split
    · rfl
    · let head := (readGroups 8 0 cs).1
      have htail := local_groups (8 - (head.length + 1)) fun tail =>
        ofGroups (head ++ List.replicate (8 - head.length - tail.length) 0 ++ tail)
      exact (hcolon.bind fun _ => hcolon.bind fun _ => htail) _ c more hc

lemma parseIpv6_of_readIpv6 {ip : BitVec 128} (h : readIpv6 cs = some (ip, c :: more))
    (hc : ¬addressChar c) :
    ∃ text, cs = text ++ c :: more ∧ (∀ d ∈ text, addressChar d) ∧
      parseIpv6 (String.ofList text) = some ip := by
  obtain ⟨text, rfl, htext⟩ := consumes_ipv6 h
  refine ⟨text, rfl, htext, ?_⟩
  rw [local_ipv6 text c more hc] at h
  obtain ⟨⟨ip', rest⟩, hread, he⟩ := Option.map_eq_some_iff.mp h
  obtain ⟨rfl, hrest⟩ := Prod.mk.inj he
  obtain rfl : rest = [] := List.append_left_eq_self.mp hrest
  rw [parseIpv6, String.toList_ofList, parseWith, hread]

end Yggstack.Library.Inet
