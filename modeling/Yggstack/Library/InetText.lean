import Mathlib.Data.List.TakeWhile
import Yggstack.Library.Inet

namespace Yggstack.Library.Inet

section Digits

variable {radix n : ℕ} {rest : List Char}

lemma digit?_digitChar (hr : radix ≤ 16) (h : n < radix) : digit? radix n.digitChar = some n := by
  have hall : ∀ r : Fin 17, ∀ m : Fin 16, m.val < r.val →
      digit? r.val m.val.digitChar = some m.val := by decide
  exact hall ⟨radix, by omega⟩ ⟨n, by omega⟩ h

lemma number_snoc (hr : radix ≤ 16) (h : n < radix) (ds : List Char) :
    number radix (ds ++ [n.digitChar]) = number radix ds * radix + n := by
  simp [number, List.filterMap_append, digit?_digitChar hr h]

lemma number_toDigits (h1 : 1 < radix) (hr : radix ≤ 16) (n : ℕ) :
    number radix (Nat.toDigits radix n) = n := by
  induction n using Nat.strongRecOn with
  | _ n ih =>
    by_cases hn : n < radix
    · rw [Nat.toDigits_of_lt_base hn]
      simp [number, digit?_digitChar hr hn]
    · have hlt : n / radix < n := Nat.div_lt_self (by omega) h1
      rw [Nat.toDigits_of_base_le h1 (by omega), number_snoc hr (Nat.mod_lt _ (by omega)), ih _ hlt]
      exact Nat.div_add_mod' n radix

lemma exists_digit_of_mem (h1 : 1 < radix) {c : Char}
    (hc : c ∈ Nat.toDigits radix n) : ∃ d < radix, c = d.digitChar := by
  induction n using Nat.strongRecOn with
  | _ n ih =>
    by_cases hn : n < radix
    · rw [Nat.toDigits_of_lt_base hn, List.mem_singleton] at hc
      exact ⟨n, hn, hc⟩
    · have hlt : n / radix < n := Nat.div_lt_self (by omega) h1
      rw [Nat.toDigits_of_base_le h1 (by omega), List.mem_append, List.mem_singleton] at hc
      rcases hc with hc | hc
      · exact ih _ hlt hc
      · exact ⟨n % radix, Nat.mod_lt _ (by omega), hc⟩

lemma head?_toDigits (h1 : 1 < radix) (hr : radix ≤ 16) (hn : 0 < n) :
    (Nat.toDigits radix n).head? ≠ some '0' := by
  induction n using Nat.strongRecOn with
  | _ n ih =>
    by_cases hlt : n < radix
    · have hall : ∀ m : Fin 16, 0 < m.val → m.val.digitChar ≠ '0' := by decide
      rw [Nat.toDigits_of_lt_base hlt]
      simpa using hall ⟨n, by omega⟩ hn
    · rw [Nat.toDigits_of_base_le h1 (by omega), List.head?_append_of_ne_nil _ Nat.toDigits_ne_nil]
      exact ih _ (Nat.div_lt_self hn h1) (Nat.div_pos (by omega) (by omega))

def Stops (radix : ℕ) (rest : List Char) : Prop := ∀ c ∈ rest.head?, digit? radix c = none

lemma takeWhile_toDigits (h1 : 1 < radix) (hr : radix ≤ 16) (hrest : Stops radix rest) :
    (Nat.toDigits radix n ++ rest).takeWhile (fun c => (digit? radix c).isSome) =
      Nat.toDigits radix n := by
  rw [List.takeWhile_append_of_pos]
  · cases rest with
    | nil => simp
    | cons c rest => simp [hrest c rfl]
  · intro c hc
    obtain ⟨d, hd, rfl⟩ := exists_digit_of_mem h1 hc
    rw [digit?_digitChar hr hd]
    rfl

lemma readNumber_toDigits (h1 : 1 < radix) (hr : radix ≤ 16) {bound : ℕ} {maxDigits : Option ℕ}
    (zeroPrefix : Bool) (hb : n < bound) (hm : ∀ m ∈ maxDigits, (Nat.toDigits radix n).length ≤ m)
    (hrest : Stops radix rest) :
    readNumber radix bound maxDigits zeroPrefix (Nat.toDigits radix n ++ rest) = some (n, rest) := by
  have hzero : ¬((Nat.toDigits radix n).head? = some '0' ∧ 1 < (Nat.toDigits radix n).length) := by
    rintro ⟨hhead, hlen⟩
    rcases Nat.eq_zero_or_pos n with rfl | hn
    · simp at hlen
    · exact head?_toDigits h1 hr hn hhead
  have hmax : ¬maxDigits.any (· < (Nat.toDigits radix n).length) = true := by
    cases maxDigits with
    | none => simp
    | some m => simpa using hm m rfl
  simp only [readNumber, takeWhile_toDigits h1 hr hrest, number_toDigits h1 hr, List.drop_left]
  rw [if_neg]
  rintro (h | h | h | ⟨-, h⟩)
  · exact Nat.toDigits_ne_nil h
  · exact hmax h
  · omega
  · exact hzero h

end Digits

lemma stops_cons {radix : ℕ} {c : Char} {cs : List Char} (h : digit? radix c = none) :
    Stops radix (c :: cs) := by
  intro d hd
  cases hd
  exact h

lemma readSeparated_cons {α : Type} (c : Char) {i : ℕ} (hi : i ≠ 0) (r : Reader α)
    (cs : List Char) : readSeparated c i r (c :: cs) = r cs := by
  simp [readSeparated, hi, readGiven]

lemma readSeparated_none {α : Type} {c : Char} {i : ℕ} (hi : i ≠ 0) {r : Reader α}
    {cs : List Char} (h : cs.head? ≠ some c) : readSeparated c i r cs = none := by
  cases cs with
  | nil => simp [readSeparated, hi, readGiven]
  | cons d cs =>
    have hd : d ≠ c := by simpa using h
    simp [readSeparated, hi, readGiven, hd]

section Ipv4

variable {rest : List Char}

lemma readOctet {n : ℕ} (h : n < 256) (hrest : Stops 10 rest) :
    readNumber 10 256 (some 3) false (Nat.toDigits 10 n ++ rest) = some (n, rest) := by
  apply readNumber_toDigits (by decide) (by decide) _ h _ hrest
  intro m hm
  cases hm
  exact (Nat.length_toDigits_le_iff (by decide) (by decide)).mpr (by omega)

lemma showIpv4_toList (ip : BitVec 32) :
    (showIpv4 ip).toList = Nat.toDigits 10 (ip.toNat / 2 ^ 24 % 256) ++ '.' ::
      (Nat.toDigits 10 (ip.toNat / 2 ^ 16 % 256) ++ '.' ::
      (Nat.toDigits 10 (ip.toNat / 2 ^ 8 % 256) ++ '.' ::
        Nat.toDigits 10 (ip.toNat / 2 ^ 0 % 256))) := by
  simp [showIpv4, String.toList_append]

lemma readIpv4_showIpv4 (ip : BitVec 32) (hrest : Stops 10 rest) :
    readIpv4 ((showIpv4 ip).toList ++ rest) = some (ip, rest) := by
  have hdot : ∀ cs, Stops 10 ('.' :: cs) := fun cs => stops_cons (by decide)
  have hoctet : ∀ m, m % 256 < 256 := fun m => Nat.mod_lt _ (by decide)
  have hip : BitVec.ofNat 32 (((ip.toNat / 2 ^ 24 % 256 * 256 + ip.toNat / 2 ^ 16 % 256) * 256 +
      ip.toNat / 2 ^ 8 % 256) * 256 + ip.toNat / 2 ^ 0 % 256) = ip := by
    apply BitVec.eq_of_toNat_eq
    have hlt := ip.isLt
    rw [BitVec.toNat_ofNat]
    omega
  rw [showIpv4_toList]
  simp only [readIpv4, List.append_assoc, List.cons_append, readOctet (hoctet _) (hdot _),
    readOctet (hoctet _) hrest, Option.bind_eq_bind, Option.bind_some,
    readSeparated_cons '.' (by decide : 1 ≠ 0), readSeparated_cons '.' (by decide : 2 ≠ 0),
    readSeparated_cons '.' (by decide : 3 ≠ 0), hip]
  rfl

lemma drop_takeWhile {α : Type} (p : α → Bool) (cs : List α) :
    cs.drop (cs.takeWhile p).length = cs.dropWhile p := by
  have h : (cs.takeWhile p ++ cs.dropWhile p).drop (cs.takeWhile p).length = cs.dropWhile p :=
    List.drop_left
  rwa [List.takeWhile_append_dropWhile] at h

lemma readIpv4_eq_none {cs : List Char}
    (h : (cs.dropWhile fun c => (digit? 10 c).isSome).head? ≠ some '.') : readIpv4 cs = none := by
  rw [readIpv4]
  cases hr : readNumber 10 256 (some 3) false cs with
  | none => rfl
  | some p =>
    obtain ⟨a, cs'⟩ := p
    have hcs' : cs' = cs.dropWhile fun c => (digit? 10 c).isSome := by
      simp only [readNumber, drop_takeWhile] at hr
      split at hr
      · cases hr
      · cases hr
        rfl
    simp only [Option.bind_eq_bind, Option.bind_some, hcs', readSeparated_none Nat.one_ne_zero h]
    rfl

end Ipv4

section Ipv6

variable {rest : List Char} {groups : List ℕ}

def groupsText : ℕ → List ℕ → List Char
  | _, [] => []
  | 0, g :: groups => Nat.toDigits 16 g ++ groupsText 1 groups
  | i + 1, g :: groups => ':' :: (Nat.toDigits 16 g ++ groupsText (i + 2) groups)

structure EndsGroups (rest : List Char) : Prop where
  stops : Stops 16 rest
  dot : rest.head? ≠ some '.'
  colon : ∀ cs, rest = ':' :: cs → Stops 16 cs

lemma digit?_ten_of_sixteen {c : Char} (h : digit? 16 c = none) : digit? 10 c = none := by
  simp only [digit?, Option.filter_eq_none_iff, decide_eq_true_eq] at h ⊢
  intro d hd
  have := h d hd
  omega

lemma Stops.ten (h : Stops 16 rest) : Stops 10 rest := fun c hc => digit?_ten_of_sixteen (h c hc)

lemma Stops.readNumber_eq_none {radix : ℕ} (h : Stops radix rest) (bound : ℕ)
    (maxDigits : Option ℕ) (zeroPrefix : Bool) :
    readNumber radix bound maxDigits zeroPrefix rest = none := by
  have hnil : rest.takeWhile (fun c => (digit? radix c).isSome) = [] := by
    cases rest with
    | nil => rfl
    | cons c rest => simp [h c rfl]
  simp [readNumber, hnil]

lemma Stops.readIpv4_eq_none (h : Stops 10 rest) : readIpv4 rest = none := by
  simp [readIpv4, h.readNumber_eq_none]

lemma readIpv4_group {g : ℕ} (hs : Stops 10 rest) (h : rest.head? ≠ some '.') :
    readIpv4 (Nat.toDigits 16 g ++ rest) = none := by
  apply readIpv4_eq_none
  have hdigits : ∀ c ∈ Nat.toDigits 16 g, c ≠ '.' := by
    intro c hc
    obtain ⟨d, hd, rfl⟩ := exists_digit_of_mem (by decide) hc
    have hall : ∀ m : Fin 16, m.val.digitChar ≠ '.' := by decide
    exact hall ⟨d, hd⟩
  generalize Nat.toDigits 16 g = ds at hdigits
  induction ds with
  | nil =>
    cases rest with
    | nil => simp
    | cons c rest =>
      rw [List.nil_append, List.dropWhile_cons_of_neg (by rw [hs c rfl]; simp)]
      exact h
  | cons c ds ih =>
    rw [List.forall_mem_cons] at hdigits
    rw [List.cons_append, List.dropWhile_cons]
    split
    · exact ih hdigits.2
    · simpa using hdigits.1

lemma readGroup {g : ℕ} (hg : g < 65536) (hs : Stops 16 rest) :
    readNumber 16 65536 (some 4) true (Nat.toDigits 16 g ++ rest) = some (g, rest) := by
  apply readNumber_toDigits (by decide) (by decide) _ hg _ hs
  intro m hm
  cases hm
  exact (Nat.length_toDigits_le_iff (by decide) (by decide)).mpr (by omega)

lemma EndsGroups.readGroups (h : EndsGroups rest) (limit index : ℕ) :
    readGroups limit index rest = ([], false, rest) := by
  have hnone : ∀ {α : Type} (r : Reader α), (∀ cs, Stops 16 cs → r cs = none) →
      readSeparated ':' index r rest = none := by
    intro α r hr
    cases rest with
    | nil =>
      rcases Nat.eq_zero_or_pos index with rfl | hi
      · exact hr _ h.stops
      · exact readSeparated_none (by omega) (by simp)
    | cons c cs =>
      rcases Nat.eq_zero_or_pos index with rfl | hi
      · exact hr _ h.stops
      · by_cases hc : c = ':'
        · subst hc
          rw [readSeparated_cons _ (by omega)]
          exact hr cs (h.colon cs rfl)
        · exact readSeparated_none (by omega) (by simpa using hc)
  cases limit with
  | zero => rfl
  | succ limit =>
    rw [Inet.readGroups, hnone _ fun cs hcs => hcs.ten.readIpv4_eq_none,
      hnone _ fun cs hcs => hcs.readNumber_eq_none _ _ _]
    simp

lemma stops_groupsText (hs : EndsGroups rest) (groups : List ℕ) (index : ℕ) :
    Stops 16 (groupsText (index + 1) groups ++ rest) ∧
      (groupsText (index + 1) groups ++ rest).head? ≠ some '.' := by
  cases groups with
  | nil => exact ⟨hs.stops, hs.dot⟩
  | cons g groups => exact ⟨stops_cons (by decide), by simp [groupsText]⟩

lemma readGroups_groupsText (hs : EndsGroups rest) (hg : ∀ g ∈ groups, g < 65536) {limit : ℕ}
    (hl : groups.length ≤ limit) (index : ℕ) :
    readGroups limit index (groupsText index groups ++ rest) = (groups, false, rest) := by
  induction groups generalizing limit index with
  | nil => exact hs.readGroups limit index
  | cons g groups ih =>
    rw [List.forall_mem_cons] at hg
    obtain ⟨limit, rfl⟩ : ∃ l, limit = l + 1 := ⟨limit - 1, by simp at hl; omega⟩
    obtain ⟨hstops, hdot⟩ := stops_groupsText hs groups index
    have hsep : ∀ {α : Type} (r : Reader α),
        readSeparated ':' index r (groupsText index (g :: groups) ++ rest) =
          r (Nat.toDigits 16 g ++ (groupsText (index + 1) groups ++ rest)) := by
      intro α r
      cases index with
      | zero => simp [readSeparated, groupsText]
      | succ i => simp [readSeparated_cons, groupsText]
    have htail := ih hg.2 (show groups.length ≤ limit by simpa using hl) (index + 1)
    rw [readGroups, hsep, hsep, readIpv4_group hstops.ten hdot, readGroup hg.1 hstops]
    simp [htail]

lemma groupsText_succ (index : ℕ) (groups : List ℕ) :
    groupsText (index + 1) groups = groups.flatMap fun g => ':' :: Nat.toDigits 16 g := by
  induction groups generalizing index with
  | nil => rfl
  | cons g groups ih =>
    rw [groupsText, ih, List.flatMap_cons]
    rfl

lemma showGroups_toList (groups : List ℕ) : (showGroups groups).toList = groupsText 0 groups := by
  induction groups with
  | nil => simp [showGroups, groupsText]
  | cons g groups ih =>
    cases groups with
    | nil => simp [showGroups, groupsText]
    | cons g' groups =>
      have hcons : showGroups (g :: g' :: groups) =
          String.ofList (Nat.toDigits 16 g) ++ ":" ++ showGroups (g' :: groups) :=
        String.intercalate_cons_cons
      rw [hcons, String.toList_append, String.toList_append, ih]
      simp [groupsText, groupsText_succ]

def zeroStep (acc : (ℕ × ℕ) × (ℕ × ℕ)) (p : ℕ × ℕ) : (ℕ × ℕ) × (ℕ × ℕ) :=
  if p.1 = 0 then
    let current := (if acc.2.2 = 0 then p.2 else acc.2.1, acc.2.2 + 1)
    (if acc.1.2 < current.2 then current else acc.1, current)
  else (acc.1, (0, 0))

lemma longestZeros_eq (groups : List ℕ) :
    longestZeros groups = (groups.zipIdx.foldl zeroStep ((0, 0), (0, 0))).1 := rfl

def ZeroRange (groups : List ℕ) (r : ℕ × ℕ) : Prop :=
  r.1 + r.2 ≤ groups.length ∧ ∀ i, r.1 ≤ i → i < r.1 + r.2 → groups[i]? = some 0

lemma ZeroRange.snoc {r : ℕ × ℕ} (h : ZeroRange groups r) (g : ℕ) : ZeroRange (groups ++ [g]) r := by
  refine ⟨by simpa using Nat.le_succ_of_le h.1, fun i hi hlt => ?_⟩
  rw [List.getElem?_append_left (by have := h.1; omega)]
  exact h.2 i hi hlt

lemma zeroStep_ranges (groups : List ℕ) :
    ZeroRange groups (groups.zipIdx.foldl zeroStep ((0, 0), (0, 0))).1 ∧
      ZeroRange groups (groups.zipIdx.foldl zeroStep ((0, 0), (0, 0))).2 ∧
      ((groups.zipIdx.foldl zeroStep ((0, 0), (0, 0))).2.2 ≠ 0 →
        (groups.zipIdx.foldl zeroStep ((0, 0), (0, 0))).2.1 +
          (groups.zipIdx.foldl zeroStep ((0, 0), (0, 0))).2.2 = groups.length) := by
  induction groups using List.reverseRecOn with
  | nil => simp [ZeroRange]
  | append_singleton groups g ih =>
    obtain ⟨hlong, hcur, hend⟩ := ih
    rw [List.zipIdx_append, List.foldl_append]
    generalize groups.zipIdx.foldl zeroStep ((0, 0), (0, 0)) = acc at *
    simp only [List.zipIdx_singleton, List.foldl_cons, List.foldl_nil, Nat.zero_add, zeroStep]
    by_cases hg : g = 0
    · have hnext : ZeroRange (groups ++ [g]) (if acc.2.2 = 0 then groups.length else acc.2.1, acc.2.2 + 1) := by
        split
        · next hzero => exact ⟨by simp [hzero], fun i hi hlt => by
            obtain rfl : i = groups.length := by simp only at hi hlt; omega
            simp [hg]⟩
        · next hzero =>
          have hsum := hend hzero
          refine ⟨by simp only [List.length_append, List.length_singleton]; omega, fun i hi hlt => ?_⟩
          simp only at hi hlt
          by_cases hi' : i < groups.length
          · exact (hcur.snoc g).2 i hi (by omega)
          · obtain rfl : i = groups.length := by omega
            simp [hg]
      have hsum : (if acc.2.2 = 0 then groups.length else acc.2.1) + (acc.2.2 + 1) =
          (groups ++ [g]).length := by
        rw [List.length_append, List.length_singleton]
        split
        · omega
        · next hzero =>
          have := hend hzero
          omega
      simp only [if_pos hg]
      refine ⟨?_, hnext, fun _ => hsum⟩
      split
      · exact hnext
      · exact hlong.snoc g
    · simp only [if_neg hg]
      exact ⟨hlong.snoc g, by simp [ZeroRange], by simp⟩

lemma length_groupsOf (ip : BitVec 128) : (groupsOf ip).length = 8 := by simp [groupsOf]

lemma groupsOf_lt {ip : BitVec 128} {g : ℕ} (h : g ∈ groupsOf ip) : g < 65536 := by
  obtain ⟨i, -, rfl⟩ := List.mem_map.mp h
  exact Nat.mod_lt _ (by decide)

lemma foldl_digits (b n k : ℕ) :
    ((List.range k).map fun i => n / b ^ (k - 1 - i) % b).foldl (fun n g => n * b + g) 0 =
      n % b ^ k := by
  induction k generalizing n with
  | zero => simp [Nat.mod_one]
  | succ k ih =>
    have hfront : ((List.range k).map fun i => n / b ^ (k + 1 - 1 - i) % b) =
        (List.range k).map fun i => n / b / b ^ (k - 1 - i) % b := by
      apply List.map_congr_left
      intro i hi
      have hlt := List.mem_range.mp hi
      rw [Nat.div_div_eq_div_mul, ← pow_succ', show k - 1 - i + 1 = k + 1 - 1 - i by omega]
    rw [List.range_succ, List.map_append, List.foldl_append, hfront, ih, List.map_singleton,
      List.foldl_cons, List.foldl_nil, show k + 1 - 1 - k = 0 by omega, pow_zero, Nat.div_one,
      pow_succ', Nat.mod_mul]
    ring

lemma ofGroups_groupsOf (ip : BitVec 128) : ofGroups (groupsOf ip) = ip := by
  have hbase : groupsOf ip =
      (List.range 8).map fun i => ip.toNat / 65536 ^ (8 - 1 - i) % 65536 := by
    apply List.map_congr_left
    intro i _
    rw [pow_mul]
    norm_num
  rw [ofGroups, hbase, foldl_digits, Nat.mod_eq_of_lt (by simpa using ip.isLt),
    BitVec.ofNat_toNat, BitVec.setWidth_eq]

lemma zeros_between {start len : ℕ} (h : ZeroRange groups (start, len)) :
    groups.take start ++ List.replicate (groups.length - (groups.take start).length -
      (groups.drop (start + len)).length) 0 ++ groups.drop (start + len) = groups := by
  obtain ⟨hle, hzero⟩ := h
  simp only at hle hzero
  have hmid : (groups.drop start).take len = List.replicate len 0 := by
    apply List.ext_getElem?
    intro i
    rw [List.getElem?_take, List.getElem?_replicate]
    split
    · next hi => rw [List.getElem?_drop, hzero _ (by omega) (by omega)]
    · rfl
  have hlen : groups.length - (groups.take start).length - (groups.drop (start + len)).length = len := by
    simp only [List.length_take, List.length_drop]
    omega
  rw [hlen, ← hmid, List.append_assoc, ← List.drop_drop, List.take_append_drop,
    List.take_append_drop]

lemma endsGroups_colons (cs : List Char) : EndsGroups (':' :: ':' :: cs) where
  stops := stops_cons (by decide)
  dot := by simp
  colon cs' h := by
    cases h
    exact stops_cons (by decide)

lemma readIpv6_colons {head tail : List ℕ} {cs : List Char} {ipv4 : Bool}
    (hhead : ∀ g ∈ head, g < 65536) (hlen : head.length < 8)
    (htail : readGroups (8 - (head.length + 1)) 0 cs = (tail, ipv4, rest)) :
    readIpv6 (groupsText 0 head ++ ':' :: ':' :: cs) =
      some (ofGroups (head ++ List.replicate (8 - head.length - tail.length) 0 ++ tail), rest) := by
  have hread := readGroups_groupsText (endsGroups_colons cs) hhead hlen.le 0
  simp only [readIpv6, hread, if_neg hlen.ne, Bool.false_eq_true, if_false, readGiven, if_true,
    Option.bind_eq_bind, Option.bind_some, htail]
  rfl

lemma readIpv6_groups (hs : EndsGroups rest) (hg : ∀ g ∈ groups, g < 65536)
    (hlen : groups.length = 8) :
    readIpv6 (groupsText 0 groups ++ rest) = some (ofGroups groups, rest) := by
  have hread := readGroups_groupsText hs hg hlen.le 0
  simp only [readIpv6, hread, if_pos hlen]
  rfl

lemma readGroups_ipv4 (hs : EndsGroups rest) (ip : BitVec 32) :
    readGroups 7 0 ('f' :: 'f' :: 'f' :: 'f' :: ':' :: ((showIpv4 ip).toList ++ rest)) =
      ([0xffff, ip.toNat / 65536, ip.toNat % 65536], true, rest) := by
  have htext : 'f' :: 'f' :: 'f' :: 'f' :: ':' :: ((showIpv4 ip).toList ++ rest) =
      Nat.toDigits 16 0xffff ++ ':' :: ((showIpv4 ip).toList ++ rest) := by
    rw [show Nat.toDigits 16 0xffff = ['f', 'f', 'f', 'f'] by decide]
    rfl
  have hcolon : Stops 16 (':' :: ((showIpv4 ip).toList ++ rest)) := stops_cons (by decide)
  have hzero : ∀ {α : Type} (r : Reader α) (cs : List Char), readSeparated ':' 0 r cs = r cs :=
    fun r cs => if_pos rfl
  rw [htext, readGroups, if_pos (by decide), hzero, hzero, readIpv4_group hcolon.ten (by simp),
    readGroup (by decide) hcolon]
  simp only [readGroups, if_pos (show 0 < 5 by decide), readSeparated_cons ':' (show 0 + 1 ≠ 0 by decide),
    readIpv4_showIpv4 ip hs.stops.ten]

lemma ofGroups_mapped {ip : BitVec 128} (hmapped : ip.toNat / 2 ^ 32 = 0xffff) :
    ofGroups (List.replicate 5 0 ++
      [0xffff, (ip.setWidth 32).toNat / 65536, (ip.setWidth 32).toNat % 65536]) = ip := by
  apply BitVec.eq_of_toNat_eq
  have hbound := ip.isLt
  simp only [ofGroups, List.replicate, List.nil_append, List.cons_append, List.foldl_cons,
    List.foldl_nil, BitVec.toNat_ofNat, BitVec.toNat_setWidth]
  omega

lemma readIpv6_showIpv6 (hs : EndsGroups rest) (ip : BitVec 128) :
    readIpv6 ((showIpv6 ip).toList ++ rest) = some (ip, rest) := by
  have hlt : ∀ g ∈ groupsOf ip, g < 65536 := fun g hg => groupsOf_lt hg
  have hlen := length_groupsOf ip
  rw [showIpv6]
  split
  · next hmapped =>
    have hnil : ∀ g ∈ ([] : List ℕ), g < 65536 := by simp
    have hread := readIpv6_colons hnil (by decide) (readGroups_ipv4 hs (ip.setWidth 32))
    have htext : "::ffff:".toList = [':', ':', 'f', 'f', 'f', 'f', ':'] := by decide
    simp only [groupsText, List.length_nil, List.length_cons, Nat.reduceAdd, Nat.reduceSub,
      List.nil_append, ofGroups_mapped hmapped] at hread
    simp only [String.toList_append, htext, List.cons_append, List.nil_append]
    exact hread
  · simp only
    split
    · next hmany =>
      obtain ⟨hrange, -⟩ := zeroStep_ranges (groupsOf ip)
      rw [← longestZeros_eq] at hrange
      generalize longestZeros (groupsOf ip) = range at *
      have hle := hrange.1
      have hhead : ∀ g ∈ (groupsOf ip).take range.1, g < 65536 :=
        fun g hg => hlt g (List.mem_of_mem_take hg)
      have htail : ∀ g ∈ (groupsOf ip).drop (range.1 + range.2), g < 65536 :=
        fun g hg => hlt g (List.mem_of_mem_drop hg)
      have hroom : ((groupsOf ip).drop (range.1 + range.2)).length ≤
          8 - (((groupsOf ip).take range.1).length + 1) := by
        simp only [List.length_drop, List.length_take]
        omega
      have hread := readIpv6_colons hhead (by simp only [List.length_take]; omega)
        (readGroups_groupsText hs htail hroom 0)
      have hzeros := zeros_between hrange
      rw [hlen] at hzeros
      rw [hzeros, ofGroups_groupsOf] at hread
      simpa [String.toList_append, showGroups_toList] using hread
    · rw [showGroups_toList, readIpv6_groups hs hlt hlen, ofGroups_groupsOf]

end Ipv6

section Sockets

variable {rest : List Char}

lemma endsGroups_nil : EndsGroups [] :=
  ⟨by simp [Stops], by simp, by simp⟩

lemma endsGroups_bracket (cs : List Char) : EndsGroups (']' :: cs) :=
  ⟨stops_cons (by decide), by simp, by simp⟩

lemma parseIpv6_showIpv6 (ip : BitVec 128) : parseIpv6 (showIpv6 ip) = some ip := by
  have hread := readIpv6_showIpv6 endsGroups_nil ip
  rw [List.append_nil] at hread
  simp [parseIpv6, parseWith, hread]

lemma groupsText_colon (index : ℕ) (groups : List ℕ) (cs : List Char) :
    ∃ cs', groupsText (index + 1) groups ++ ':' :: cs = ':' :: cs' := by
  cases groups with
  | nil => exact ⟨cs, rfl⟩
  | cons g groups => exact ⟨_, rfl⟩

lemma showIpv6_start (ip : BitVec 128) : ∃ first cs, (showIpv6 ip).toList = first ++ ':' :: cs ∧
    (first = [] ∨ ∃ g, first = Nat.toDigits 16 g) := by
  rw [showIpv6]
  split
  · exact ⟨[], _, by rw [String.toList_append]; rfl, Or.inl rfl⟩
  · simp only
    split
    · rw [String.toList_append, String.toList_append, showGroups_toList, List.append_assoc]
      cases (groupsOf ip).take (longestZeros (groupsOf ip)).1 with
      | nil => exact ⟨[], _, rfl, Or.inl rfl⟩
      | cons g groups =>
        obtain ⟨cs, hcs⟩ := groupsText_colon 0 groups (':' ::
          (showGroups ((groupsOf ip).drop ((longestZeros (groupsOf ip)).1 +
            (longestZeros (groupsOf ip)).2))).toList)
        refine ⟨Nat.toDigits 16 g, cs, ?_, Or.inr ⟨g, rfl⟩⟩
        rw [← hcs]
        simp [groupsText]
    · rw [showGroups_toList]
      exact ⟨Nat.toDigits 16 _, _, rfl, Or.inr ⟨_, rfl⟩⟩

lemma readIpv4_showIpv6 (ip : BitVec 128) (rest : List Char) :
    readIpv4 ((showIpv6 ip).toList ++ rest) = none := by
  obtain ⟨first, cs, htext, hfirst⟩ := showIpv6_start ip
  have hcolon : ∀ cs, Stops 10 (':' :: cs) := fun cs => stops_cons (by decide)
  rw [htext, List.append_assoc]
  rcases hfirst with rfl | ⟨g, rfl⟩
  · exact (hcolon _).readIpv4_eq_none
  · exact readIpv4_group (hcolon _) (by simp)

lemma parseIp_display (ip : IpAddr) : parseIp ip.display = some ip := by
  cases ip with
  | v4 ip =>
    have hread := readIpv4_showIpv4 ip (show Stops 10 [] by simp [Stops])
    rw [List.append_nil] at hread
    simp [parseIp, parseWith, readIp, IpAddr.display, hread]
  | v6 ip =>
    have hnone := readIpv4_showIpv6 ip []
    have hread := readIpv6_showIpv6 endsGroups_nil ip
    rw [List.append_nil] at hnone hread
    simp [parseIp, parseWith, readIp, IpAddr.display, hnone, hread]

def portText (port : UInt16) : List Char := Nat.toDigits 10 port.toNat

lemma toString_port (port : UInt16) : (toString port.toNat).toList = portText port := by
  simp [portText]

lemma readPort_portText (port : UInt16) : readPort (':' :: portText port) = some (port, []) := by
  have hlt := port.toNat_lt
  have hread : readNumber 10 65536 none true (Nat.toDigits 10 port.toNat ++ []) =
      some (port.toNat, []) :=
    readNumber_toDigits (by decide) (by decide) true hlt (by simp) (by simp [Stops])
  rw [List.append_nil] at hread
  simp [readPort, readGiven, portText, hread]

lemma display_toList (addr : SocketAddr) :
    addr.display.toList = (match addr.ip with
      | .v4 ip => (showIpv4 ip).toList
      | .v6 ip => '[' :: ((showIpv6 ip).toList ++ [']'])) ++ ':' :: portText addr.port := by
  cases hip : addr.ip <;>
    simp [SocketAddr.display, hip, String.toList_append, portText]

lemma parseSocket_display (addr : SocketAddr) : parseSocket addr.display = some addr := by
  obtain ⟨ip, port⟩ := addr
  rw [parseSocket, display_toList]
  cases ip with
  | v4 ip =>
    have hcolon : Stops 10 (':' :: portText port) := stops_cons (by decide)
    simp [parseWith, readSocketV4, readIpv4_showIpv4 ip hcolon, readPort_portText]
  | v6 ip =>
    have hbracket : Stops 10 ('[' :: ((showIpv6 ip).toList ++ ']' :: ':' :: portText port)) :=
      stops_cons (by decide)
    have hread := readIpv6_showIpv6 (endsGroups_bracket (':' :: portText port)) ip
    simp [parseWith, readSocketV4, hbracket.readIpv4_eq_none, readSocketV6, readGiven, hread,
      readScope, readPort_portText]

lemma digit_of_mem_portText {port : UInt16} {c : Char} (h : c ∈ portText port) :
    (digit? 10 c).isSome = true ∧ c ≠ '+' ∧ c ≠ ':' ∧ c ≠ '[' := by
  obtain ⟨d, hd, rfl⟩ := exists_digit_of_mem (by decide) h
  have hall : ∀ m : Fin 10, (digit? 10 m.val.digitChar).isSome = true ∧ m.val.digitChar ≠ '+' ∧
      m.val.digitChar ≠ ':' ∧ m.val.digitChar ≠ '[' := by decide
  exact hall ⟨d, hd⟩

lemma portText_ne_nil (port : UInt16) : portText port ≠ [] := Nat.toDigits_ne_nil

lemma parseSocket_portText (port : UInt16) : parseSocket (String.ofList (portText port)) = none := by
  have hv4 : readIpv4 (portText port) = none := by
    apply readIpv4_eq_none
    rw [List.dropWhile_eq_nil_iff.mpr fun c hc => (digit_of_mem_portText hc).1]
    simp
  have hv6 : readGiven '[' (portText port) = none := by
    cases htext : portText port with
    | nil => rfl
    | cons c cs =>
      have hc := (digit_of_mem_portText (show c ∈ portText port by rw [htext]; simp)).2.2.2
      simp [readGiven, hc]
  simp [parseSocket, parseWith, readSocketV4, readSocketV6, hv4, hv6]

lemma parseU16_portText (port : UInt16) : parseU16 (String.ofList (portText port)) = some port := by
  have hlt : port.toNat < 65536 := port.toNat_lt
  have hsign : ∀ cs, portText port ≠ '+' :: cs := by
    intro cs h
    exact (digit_of_mem_portText (show '+' ∈ portText port by rw [h]; simp)).2.1 rfl
  have hdigits : (portText port).any (fun c => (digit? 10 c).isNone) = false := by
    rw [List.any_eq_false]
    intro c hc
    simp [Option.isSome_iff_ne_none.mp (digit_of_mem_portText hc).1]
  have hnumber : number 10 (portText port) = port.toNat := number_toDigits (by decide) (by decide) _
  rw [parseU16, String.toList_ofList]
  split
  · next cs h => exact absurd h (hsign cs)
  · rw [if_neg, hnumber, UInt16.ofNat_toNat]
    rintro (h | h | h)
    · exact portText_ne_nil port h
    · rw [hdigits] at h
      cases h
    · omega

lemma ne_bracket_of_mem_toDigits {n radix : ℕ} (h1 : 1 < radix) (hr : radix ≤ 16) {c : Char}
    (h : c ∈ Nat.toDigits radix n) : c ≠ '[' := by
  obtain ⟨d, hd, rfl⟩ := exists_digit_of_mem h1 h
  have hall : ∀ m : Fin 16, m.val.digitChar ≠ '[' := by decide
  exact hall ⟨d, by omega⟩

lemma ne_bracket_of_mem_showGroups {groups : List ℕ} {c : Char}
    (h : c ∈ (showGroups groups).toList) : c ≠ '[' := by
  rw [showGroups_toList] at h
  cases groups with
  | nil => cases h
  | cons g groups =>
    simp only [groupsText, groupsText_succ, List.mem_append, List.mem_flatMap, List.mem_cons] at h
    rcases h with h | ⟨g', -, rfl | h⟩
    · exact ne_bracket_of_mem_toDigits (by decide) le_rfl h
    · decide
    · exact ne_bracket_of_mem_toDigits (by decide) le_rfl h

lemma ne_bracket_of_mem_showIpv6 {ip : BitVec 128} {c : Char} (h : c ∈ (showIpv6 ip).toList) :
    c ≠ '[' := by
  have hten : ∀ n, c ∈ Nat.toDigits 10 n → c ≠ '[' :=
    fun n => ne_bracket_of_mem_toDigits (by decide) (by decide)
  rw [showIpv6] at h
  split at h
  · simp only [String.toList_append, showIpv4_toList, List.mem_append, List.mem_cons] at h
    rcases h with h | h | rfl | h | rfl | h | rfl | h
    · rintro rfl
      revert h
      decide
    · exact hten _ h
    · decide
    · exact hten _ h
    · decide
    · exact hten _ h
    · decide
    · exact hten _ h
  · simp only at h
    split at h
    · simp only [String.toList_append, List.mem_append] at h
      rcases h with (h | h) | h
      · exact ne_bracket_of_mem_showGroups h
      · rintro rfl
        revert h
        decide
      · exact ne_bracket_of_mem_showGroups h
    · exact ne_bracket_of_mem_showGroups h

end Sockets

section Characters

def addressChar (c : Char) : Prop := (digit? 16 c).isSome ∨ c = ':' ∨ c = '.'

def Consumes (cs rest : List Char) : Prop := ∃ read, cs = read ++ rest ∧ ∀ c ∈ read, addressChar c

variable {cs mid rest : List Char}

lemma Consumes.refl (cs : List Char) : Consumes cs cs := ⟨[], rfl, by simp⟩

lemma Consumes.trans (h : Consumes cs mid) (h' : Consumes mid rest) : Consumes cs rest := by
  obtain ⟨xs, rfl, hxs⟩ := h
  obtain ⟨ys, rfl, hys⟩ := h'
  refine ⟨xs ++ ys, by simp, ?_⟩
  intro c hc
  rcases List.mem_append.mp hc with hc | hc
  · exact hxs c hc
  · exact hys c hc

lemma consumes_given {c : Char} (hc : addressChar c) {u : Unit}
    (h : readGiven c cs = some (u, rest)) : Consumes cs rest := by
  cases cs with
  | nil => cases h
  | cons d cs =>
    rw [readGiven] at h
    split at h
    · next hd =>
      cases h
      exact ⟨[d], rfl, by simpa [hd] using hc⟩
    · cases h

lemma consumes_number {radix bound n : ℕ} {maxDigits : Option ℕ} {zeroPrefix : Bool}
    (hr : radix ≤ 16) (h : readNumber radix bound maxDigits zeroPrefix cs = some (n, rest)) :
    Consumes cs rest := by
  simp only [readNumber, drop_takeWhile] at h
  split at h
  · cases h
  · cases h
    refine ⟨_, List.takeWhile_append_dropWhile.symm, ?_⟩
    intro c hc
    have hdigit := List.mem_takeWhile_imp hc
    left
    obtain ⟨d, hd⟩ := Option.isSome_iff_exists.mp hdigit
    rw [Option.isSome_iff_exists]
    simp only [digit?, Option.filter_eq_some_iff, decide_eq_true_eq] at hd ⊢
    exact ⟨d, hd.1, by omega⟩

lemma consumes_separated {α : Type} {c : Char} (hc : addressChar c) {i : ℕ} {r : Reader α}
    (hr : ∀ {cs rest a}, r cs = some (a, rest) → Consumes cs rest) {a : α}
    (h : readSeparated c i r cs = some (a, rest)) : Consumes cs rest := by
  rw [readSeparated] at h
  split at h
  · exact hr h
  · obtain ⟨⟨u, mid⟩, hgiven, h⟩ := Option.bind_eq_some_iff.mp h
    exact (consumes_given hc hgiven).trans (hr h)

lemma addressChar_colon : addressChar ':' := .inr (.inl rfl)

lemma addressChar_dot : addressChar '.' := .inr (.inr rfl)

lemma consumes_ipv4 {ip : BitVec 32} (h : readIpv4 cs = some (ip, rest)) : Consumes cs rest := by
  have hoctet : ∀ {cs rest : List Char} {n : ℕ},
      readNumber 10 256 (some 3) false cs = some (n, rest) → Consumes cs rest :=
    fun h => consumes_number (by decide) h
  obtain ⟨⟨a, cs₁⟩, ha, h⟩ := Option.bind_eq_some_iff.mp h
  obtain ⟨⟨b, cs₂⟩, hb, h⟩ := Option.bind_eq_some_iff.mp h
  obtain ⟨⟨c, cs₃⟩, hc, h⟩ := Option.bind_eq_some_iff.mp h
  obtain ⟨⟨d, cs₄⟩, hd, h⟩ := Option.bind_eq_some_iff.mp h
  cases h
  exact (hoctet ha).trans ((consumes_separated addressChar_dot hoctet hb).trans
    ((consumes_separated addressChar_dot hoctet hc).trans
      (consumes_separated addressChar_dot hoctet hd)))

lemma consumes_groups (limit index : ℕ) (cs : List Char) :
    Consumes cs (readGroups limit index cs).2.2 := by
  induction limit generalizing index cs with
  | zero => exact .refl cs
  | succ limit ih =>
    rw [readGroups]
    split
    · next ip mid hip =>
      split at hip
      · exact consumes_separated addressChar_colon consumes_ipv4 hip
      · cases hip
    · split
      · exact .refl cs
      · next group mid hgroup =>
        exact (consumes_separated addressChar_colon (consumes_number (by decide)) hgroup).trans
          (ih (index + 1) mid)

lemma consumes_ipv6 {ip : BitVec 128} (h : readIpv6 cs = some (ip, rest)) : Consumes cs rest := by
  have hhead := consumes_groups 8 0 cs
  rw [readIpv6] at h
  split at h
  next head ipv4 cs₁ hgroups =>
  rw [hgroups] at hhead
  split at h
  · cases h
    exact hhead
  · split at h
    · cases h
    · obtain ⟨⟨u, cs₂⟩, hfirst, h⟩ := Option.bind_eq_some_iff.mp h
      obtain ⟨⟨v, cs₃⟩, hsecond, h⟩ := Option.bind_eq_some_iff.mp h
      have htail := consumes_groups (8 - (head.length + 1)) 0 cs₃
      cases h
      exact hhead.trans ((consumes_given addressChar_colon hfirst).trans
        ((consumes_given addressChar_colon hsecond).trans htail))

lemma addressChar_of_parseIpv6 {s : String} {ip : BitVec 128} (h : parseIpv6 s = some ip) :
    ∀ c ∈ s.toList, addressChar c := by
  rw [parseIpv6, parseWith] at h
  split at h
  · next found hread =>
    obtain ⟨read, hs, hchars⟩ := consumes_ipv6 hread
    rw [hs, List.append_nil]
    exact hchars
  · cases h

end Characters

end Yggstack.Library.Inet
