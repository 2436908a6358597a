import Mathlib.Data.List.Destutter
import Mathlib.Tactic

/-! Sorting by a comparison. Where the comparison ties no two elements, the result does not depend
on the order in which they come. -/

namespace Yggstack.Library

variable {α : Type} {cmp : α → α → Ordering} [Std.TransCmp cmp] {xs ys : List α}

def sortBy (cmp : α → α → Ordering) (xs : List α) : List α :=
  xs.mergeSort fun a b => (cmp a b).isLE

omit [Std.TransCmp cmp] in
lemma sortBy_perm (xs : List α) : (sortBy cmp xs).Perm xs := List.mergeSort_perm _ _

lemma sortBy_ordered (xs : List α) : (sortBy cmp xs).Pairwise fun a b => (cmp a b).isLE = true := by
  apply List.pairwise_mergeSort
  · intro a b c
    exact Std.TransCmp.isLE_trans
  · intro a b
    have hswap : cmp b a = (cmp a b).swap := Std.OrientedCmp.eq_swap
    rw [hswap]
    cases cmp a b <;> rfl

lemma pairwise_lt_of_chain [Std.LawfulEqCmp cmp]
    (hle : xs.Pairwise fun a b => (cmp a b).isLE = true) (hne : xs.IsChain (· ≠ ·)) :
    xs.Pairwise fun a b => cmp a b = .lt := by
  induction xs with
  | nil => exact .nil
  | cons a xs ih =>
    obtain ⟨hfirst, hrest⟩ := List.pairwise_cons.mp hle
    have hlt := ih hrest hne.tail
    refine List.pairwise_cons.mpr ⟨?_, hlt⟩
    cases xs with
    | nil => exact fun b hb => absurd hb List.not_mem_nil
    | cons b xs =>
      have hab : cmp a b = .lt := by
        cases hc : cmp a b with
        | lt => rfl
        | eq => exact absurd (Std.LawfulEqCmp.eq_of_compare hc) (List.isChain_cons_cons.mp hne).1
        | gt =>
          have hisLE := hfirst b List.mem_cons_self
          rw [hc] at hisLE
          cases hisLE
      intro c hc
      rcases List.mem_cons.mp hc with rfl | hc
      · exact hab
      · exact Std.TransCmp.lt_trans hab ((List.pairwise_cons.mp hlt).1 c hc)

section Dedup

variable [DecidableEq α]

omit [Std.TransCmp cmp] in
lemma mem_destutter' {x y : α} : x ∈ xs.destutter' (· ≠ ·) y ↔ x = y ∨ x ∈ xs := by
  induction xs generalizing y with
  | nil => rw [List.destutter'_nil, List.mem_cons]
  | cons z xs ih =>
    by_cases hz : y = z
    · subst hz
      rw [List.destutter'_cons_neg _ (not_not.mpr rfl), ih, List.mem_cons, or_self_left]
    · rw [List.destutter'_cons_pos _ hz, List.mem_cons, ih, List.mem_cons]

omit [Std.TransCmp cmp] in
lemma mem_destutter {x : α} : x ∈ xs.destutter (· ≠ ·) ↔ x ∈ xs := by
  cases xs with
  | nil => rw [List.destutter_nil]
  | cons y xs => rw [List.destutter_cons', mem_destutter', List.mem_cons]

lemma destutter_sortBy_strict [Std.LawfulEqCmp cmp] (xs : List α) :
    ((sortBy cmp xs).destutter (· ≠ ·)).Pairwise fun a b => cmp a b = .lt := by
  have hle : (sortBy cmp xs).Pairwise fun a b => (cmp a b).isLE = true := sortBy_ordered xs
  exact pairwise_lt_of_chain (hle.sublist (List.destutter_sublist (· ≠ ·) _))
    (List.isChain_destutter (· ≠ ·) (sortBy cmp xs))

end Dedup

end Yggstack.Library
