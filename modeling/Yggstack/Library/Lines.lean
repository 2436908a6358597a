import Mathlib.Data.List.Chain
import Yggstack.Library.Text

namespace Yggstack.Library

def crlf : List Char := ['\r', '\n']

def consFirst (c : Char) : List (List Char) → List (List Char)
  | [] => [[c]]
  | l :: ls => (c :: l) :: ls

def splitCrlf : List Char → List (List Char)
  | [] => [[]]
  | [c] => [[c]]
  | c :: d :: cs =>
    if c = '\r' ∧ d = '\n' then [] :: splitCrlf cs else consFirst c (splitCrlf (d :: cs))

def dropCrlfs : List Char → List Char
  | c :: d :: cs => if c = '\n' ∧ d = '\r' then dropCrlfs cs else c :: d :: cs
  | cs => cs

def trimEndCrlf (cs : List Char) : List Char := (dropCrlfs cs.reverse).reverse

def CrlfFree (cs : List Char) : Prop := cs.IsChain fun c d => ¬(c = '\r' ∧ d = '\n')

instance : DecidablePred CrlfFree := fun cs => inferInstanceAs (Decidable (cs.IsChain _))

def endLines (lines : List (List Char)) : List Char := lines.flatMap (· ++ crlf)

def joinLines : List (List Char) → List Char
  | [] => []
  | [l] => l
  | l :: ls => l ++ crlf ++ joinLines ls

variable {c d : Char} {cs ds l : List Char} {lines : List (List Char)}

lemma CrlfFree.part (h : CrlfFree cs) (hl : l <:+: cs) : CrlfFree l := List.IsChain.infix h hl

lemma splitCrlf_ne_nil (cs : List Char) : splitCrlf cs ≠ [] := by
  induction cs using splitCrlf.induct with
  | case1 => simp [splitCrlf]
  | case2 c => simp [splitCrlf]
  | case3 c d cs h ih => simp [splitCrlf, h]
  | case4 c d cs h ih =>
    rw [splitCrlf, if_neg h]
    cases splitCrlf (d :: cs) <;> simp [consFirst]

lemma consFirst_append (c : Char) {ls : List (List Char)} (h : ls ≠ []) (ls' : List (List Char)) :
    consFirst c (ls ++ ls') = consFirst c ls ++ ls' := by
  cases ls with
  | nil => exact absurd rfl h
  | cons l ls => rfl

lemma splitCrlf_append (as bs : List Char) :
    splitCrlf (as ++ '\r' :: '\n' :: bs) = splitCrlf as ++ splitCrlf bs := by
  induction as using splitCrlf.induct with
  | case1 => simp [splitCrlf]
  | case2 c => simp [splitCrlf, consFirst]
  | case3 c d as h ih => simp [splitCrlf, h, ih]
  | case4 c d as h ih =>
    rw [List.cons_append, List.cons_append, splitCrlf, if_neg h, splitCrlf, if_neg h,
      ← List.cons_append, ih, consFirst_append _ (splitCrlf_ne_nil _)]

lemma splitCrlf_of_crlfFree (h : CrlfFree cs) : splitCrlf cs = [cs] := by
  induction cs using splitCrlf.induct with
  | case1 => rfl
  | case2 c => rfl
  | case3 c d cs hcd ih => exact absurd hcd (List.isChain_cons_cons.mp h).1
  | case4 c d cs hcd ih =>
    rw [splitCrlf, if_neg hcd, ih (List.isChain_cons_cons.mp h).2]
    rfl

lemma head?_of_splitCrlf {ls : List (List Char)} (h : splitCrlf (d :: cs) = l :: ls) :
    ∀ e ∈ l.head?, e = d := by
  cases cs with
  | nil =>
    cases h
    simp
  | cons e cs =>
    rw [splitCrlf] at h
    split at h
    · cases h
      simp
    · obtain ⟨m, ms, hm⟩ := List.exists_cons_of_ne_nil (splitCrlf_ne_nil (e :: cs))
      rw [hm] at h
      cases h
      simp

lemma crlfFree_of_mem_splitCrlf (h : l ∈ splitCrlf cs) : CrlfFree l := by
  induction cs using splitCrlf.induct generalizing l with
  | case1 =>
    rw [splitCrlf, List.mem_singleton] at h
    subst h
    exact .nil
  | case2 c =>
    rw [splitCrlf, List.mem_singleton] at h
    subst h
    exact .singleton c
  | case3 c d cs hcd ih =>
    rw [splitCrlf, if_pos hcd, List.mem_cons] at h
    rcases h with rfl | h
    · exact .nil
    · exact ih h
  | case4 c d cs hcd ih =>
    obtain ⟨m, ms, hm⟩ := List.exists_cons_of_ne_nil (splitCrlf_ne_nil (d :: cs))
    rw [splitCrlf, if_neg hcd, hm, consFirst, List.mem_cons] at h
    rcases h with rfl | h
    · apply (ih (by rw [hm]; simp)).cons
      intro e he hce
      rw [head?_of_splitCrlf hm e he] at hce
      exact hcd hce
    · exact ih (by rw [hm]; simp [h])

lemma joinLines_cons (l : List Char) (h : lines ≠ []) :
    joinLines (l :: lines) = l ++ crlf ++ joinLines lines := by
  cases lines with
  | nil => exact absurd rfl h
  | cons m lines => rfl

lemma joinLines_append {ls ms : List (List Char)} (hl : ls ≠ []) (hm : ms ≠ []) :
    joinLines (ls ++ ms) = joinLines ls ++ crlf ++ joinLines ms := by
  induction ls with
  | nil => exact absurd rfl hl
  | cons l ls ih =>
    by_cases hls : ls = []
    · subst hls
      exact joinLines_cons l hm
    · rw [List.cons_append, joinLines_cons l (by simp [hls]), ih hls, joinLines_cons l hls]
      simp

lemma joinLines_splitCrlf (cs : List Char) : joinLines (splitCrlf cs) = cs := by
  induction cs using splitCrlf.induct with
  | case1 => rfl
  | case2 c => rfl
  | case3 c d cs h ih =>
    rw [splitCrlf, if_pos h, joinLines_cons _ (splitCrlf_ne_nil cs), ih, h.1, h.2]
    rfl
  | case4 c d cs h ih =>
    obtain ⟨m, ms, hm⟩ := List.exists_cons_of_ne_nil (splitCrlf_ne_nil (d :: cs))
    rw [splitCrlf, if_neg h, hm]
    rw [hm] at ih
    cases ms with
    | nil => rw [consFirst, ← ih]; rfl
    | cons m' ms => rw [consFirst, ← ih]; rfl

lemma blank_of_mem_tail {ls : List (List Char)} (h : splitCrlf cs = l :: ls) (hn : [] ∈ ls) :
    ∃ as bs, cs ++ crlf = as ++ crlf ++ crlf ++ bs := by
  obtain ⟨ms, ns, rfl⟩ := List.append_of_mem hn
  have hjoin := joinLines_splitCrlf cs
  rw [h, ← List.cons_append, joinLines_append (by simp) (by simp)] at hjoin
  by_cases hns : ns = []
  · subst hns
    exact ⟨joinLines (l :: ms), [], by rw [← hjoin]; simp [joinLines]⟩
  · refine ⟨joinLines (l :: ms), joinLines ns ++ crlf, ?_⟩
    rw [← hjoin, joinLines_cons _ hns]
    simp

lemma trimEndCrlf_append_crlf (cs : List Char) : trimEndCrlf (cs ++ crlf) = trimEndCrlf cs := by
  simp [trimEndCrlf, crlf, dropCrlfs]

lemma trimEndCrlf_of_not_suffix (h : ¬crlf <:+ cs) : trimEndCrlf cs = cs := by
  have hrev : dropCrlfs cs.reverse = cs.reverse := by
    rw [dropCrlfs.eq_def]
    split
    · next c d ds hds =>
      rw [if_neg ?_, hds]
      rintro ⟨rfl, rfl⟩
      apply h
      rw [← List.reverse_prefix, hds]
      exact ⟨ds, rfl⟩
    · rfl
  rw [trimEndCrlf, hrev, List.reverse_reverse]

lemma not_suffix_of_crlfFree (h : CrlfFree cs) : ¬crlf <:+ cs := by
  rintro ⟨as, rfl⟩
  have hc := (List.isChain_append.mp h).2.1
  exact (List.isChain_cons_cons.mp hc).1 ⟨rfl, rfl⟩

lemma endLines_append (ls ms : List (List Char)) : endLines (ls ++ ms) = endLines ls ++ endLines ms :=
  List.flatMap_append

lemma splitCrlf_endLines (h : ∀ l ∈ lines, CrlfFree l) (cs : List Char) :
    splitCrlf (endLines lines ++ cs) = lines ++ splitCrlf cs := by
  induction lines with
  | nil => rfl
  | cons l lines ih =>
    rw [List.forall_mem_cons] at h
    have happend : endLines (l :: lines) ++ cs = l ++ '\r' :: '\n' :: (endLines lines ++ cs) := by
      simp [endLines, crlf]
    rw [happend, splitCrlf_append, splitCrlf_of_crlfFree h.1, ih h.2]
    rfl

lemma not_suffix_endLines (hl : CrlfFree l) (hne : l ≠ []) (lines : List (List Char)) :
    ¬crlf <:+ endLines lines ++ l := by
  rcases List.eq_nil_or_concat lines with rfl | ⟨ls, m, rfl⟩
  · exact not_suffix_of_crlfFree hl
  · intro hs
    have hsplit : endLines (ls.concat m) ++ l = (endLines ls ++ m ++ ['\r']) ++ '\n' :: l := by
      simp [endLines, crlf]
    have hfree : CrlfFree ('\n' :: l) := hl.cons (by simp)
    rw [hsplit] at hs
    have hlen : crlf.length ≤ ('\n' :: l).length := by
      have := List.length_pos_iff.mpr hne
      simp only [crlf, List.length_cons, List.length_nil]
      omega
    exact not_suffix_of_crlfFree hfree
      (List.suffix_of_suffix_length_le hs (List.suffix_append _ _) hlen)

lemma blank_only_at_end (hfree : ∀ l ∈ lines, CrlfFree l) (hne : ∀ l ∈ lines, l ≠ [])
    {as bs : List Char} (h : endLines lines ++ crlf = as ++ crlf ++ crlf ++ bs) : bs = [] := by
  have hleft := splitCrlf_endLines hfree crlf
  have hright : splitCrlf (as ++ crlf ++ crlf ++ bs) = splitCrlf as ++ [] :: splitCrlf bs := by
    have hassoc : as ++ crlf ++ crlf ++ bs = as ++ '\r' :: '\n' :: ([] ++ '\r' :: '\n' :: bs) := by
      simp [crlf]
    rw [hassoc, splitCrlf_append, splitCrlf_append]
    rfl
  rw [h, hright] at hleft
  -- The blank line of the right-hand side can only be the first of the two at the end.
  have hlast : splitCrlf bs = [[]] := by
    rcases List.append_eq_append_iff.mp hleft with ⟨ms, hlines, hms⟩ | ⟨ms, -, hms⟩
    · cases ms with
      | nil => exact (List.cons_eq_cons.mp hms).2
      | cons m ms =>
        obtain ⟨rfl, -⟩ := List.cons_eq_cons.mp hms
        exact absurd rfl (hne [] (by rw [hlines]; simp))
    · cases ms with
      | nil => exact (List.cons_eq_cons.mp hms).2.symm
      | cons m ms =>
        have hlen := congrArg List.length hms
        have hpos := List.length_pos_iff.mpr (splitCrlf_ne_nil bs)
        have hcrlf : (splitCrlf crlf).length = 2 := by decide
        simp only [List.length_append, List.length_cons, hcrlf] at hlen
        omega
  rw [← joinLines_splitCrlf bs, hlast]
  rfl

lemma prefix_of_head_splitOn {sep : Char} {w : List Char} (h : w ∈ (cs.splitOn sep).head?) :
    w <+: cs := by
  induction cs generalizing w with
  | nil =>
    obtain rfl : [] = w := by simpa using h
    exact List.nil_prefix
  | cons c cs ih =>
    rw [List.splitOn_cons_eq_if_modifyHead] at h
    split at h
    · obtain rfl : [] = w := by simpa using h
      exact List.nil_prefix
    · rw [List.head?_modifyHead, Option.mem_map] at h
      obtain ⟨v, hv, rfl⟩ := h
      exact List.cons_prefix_cons.mpr ⟨rfl, ih hv⟩

lemma of_mem_splitOn {sep : Char} {w : List Char} (h : w ∈ cs.splitOn sep) :
    sep ∉ w ∧ w <:+: cs := by
  induction cs generalizing w with
  | nil =>
    obtain rfl : w = [] := by simpa using h
    exact ⟨List.not_mem_nil, List.nil_infix⟩
  | cons c cs ih =>
    rw [List.splitOn_cons_eq_if_modifyHead] at h
    obtain ⟨v, vs, hv⟩ := List.exists_cons_of_ne_nil (List.splitOn_ne_nil sep cs)
    split at h
    · rcases List.mem_cons.mp h with rfl | h
      · exact ⟨List.not_mem_nil, List.nil_infix⟩
      · exact ⟨(ih h).1, List.infix_cons (ih h).2⟩
    · next hc =>
      rw [hv, List.modifyHead_cons, List.mem_cons] at h
      rcases h with rfl | h
      · have hpre := prefix_of_head_splitOn (show v ∈ (cs.splitOn sep).head? by rw [hv]; rfl)
        have hmem := (ih (show v ∈ cs.splitOn sep by rw [hv]; simp)).1
        refine ⟨?_, (List.cons_prefix_cons.mpr ⟨rfl, hpre⟩).isInfix⟩
        rw [beq_iff_eq] at hc
        simpa [hmem] using Ne.symm hc
      · obtain ⟨hsep, hinf⟩ := ih (show w ∈ cs.splitOn sep by rw [hv]; simp [h])
        exact ⟨hsep, List.infix_cons hinf⟩

lemma splitCrlf_trimEndCrlf (hfree : ∀ l ∈ lines, CrlfFree l) (hne : ∀ l ∈ lines, l ≠ [])
    (h : lines ≠ []) : splitCrlf (trimEndCrlf (endLines lines ++ crlf)) = lines := by
  obtain ⟨ls, l, rfl⟩ : ∃ ls l, lines = ls ++ [l] := by
    rw [← List.dropLast_concat_getLast h]
    exact ⟨_, _, rfl⟩
  have hend : endLines (ls ++ [l]) = endLines ls ++ l ++ crlf := by
    simp [endLines]
  have hl := hfree l (by simp)
  rw [hend, trimEndCrlf_append_crlf, trimEndCrlf_append_crlf,
    trimEndCrlf_of_not_suffix (not_suffix_endLines hl (hne l (by simp)) ls),
    splitCrlf_endLines (fun m hm => hfree m (by simp [hm])), splitCrlf_of_crlfFree hl]
end Yggstack.Library
