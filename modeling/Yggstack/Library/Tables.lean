import Mathlib.Tactic

namespace Yggstack.Library

variable {α : Type} {xs : List α} {x y : α} {i j : ℕ}

lemma getElem?_snoc (h : (xs ++ [x])[i]? = some y) :
    xs[i]? = some y ∨ i = xs.length ∧ y = x := by
  rw [List.getElem?_append] at h
  split at h
  · exact Or.inl h
  · next hlt =>
    rw [List.getElem?_singleton] at h
    split at h
    · next hz =>
      cases h
      exact Or.inr ⟨by omega, rfl⟩
    · cases h

lemma getElem?_snoc_of_some (h : xs[i]? = some y) : (xs ++ [x])[i]? = some y := by
  rw [List.getElem?_append_left (List.getElem?_eq_some_iff.mp h).1, h]

lemma getElem?_change (h : (xs.set i x)[j]? = some y) :
    j = i ∧ y = x ∨ j ≠ i ∧ xs[j]? = some y := by
  rw [List.getElem?_set] at h
  split at h
  · next hi =>
    split at h
    · cases h
      exact Or.inl ⟨hi.symm, rfl⟩
    · cases h
  · next hi => exact Or.inr ⟨Ne.symm hi, h⟩

lemma getElem?_change_self (h : xs[i]? = some y) : (xs.set i x)[i]? = some x :=
  List.getElem?_set_self (List.getElem?_eq_some_iff.mp h).1

lemma set_same (h : xs[i]? = some x) : xs.set i x = xs := by
  apply List.ext_getElem?
  intro j
  by_cases hj : j = i
  · subst hj
    rw [getElem?_change_self h, h]
  · rw [List.getElem?_set_ne (Ne.symm hj)]

lemma modify_eq_set {f : α → α} (h : xs[i]? = some x) : xs.modify i f = xs.set i (f x) := by
  apply List.ext_getElem?
  intro j
  rw [List.getElem?_modify, List.getElem?_set]
  split
  · next hi =>
    subst hi
    obtain ⟨hlt, rfl⟩ := List.getElem?_eq_some_iff.mp h
    simp [hlt]
  · simp

lemma getElem?_of_forall₂ {β : Type} {R : α → β → Prop} {ys : List β} (h : List.Forall₂ R xs ys)
    {k : ℕ} {y : β} (hy : ys[k]? = some y) : ∃ x, xs[k]? = some x ∧ R x y := by
  induction h generalizing k with
  | nil => cases hy
  | @cons x _ xs ys hxy _ ih =>
    cases k with
    | zero =>
      cases hy
      exact ⟨x, rfl, hxy⟩
    | succ k => exact ih hy

lemma mem_map_filter {β : Type} {f : α → β} {p : α → Bool} (hn : (xs.map f).Nodup) (hx : x ∈ xs) :
    f x ∈ (xs.filter p).map f ↔ p x = true := by
  constructor
  · intro hm
    obtain ⟨y, hy, he⟩ := List.mem_map.mp hm
    obtain ⟨hmem, hp⟩ := List.mem_filter.mp hy
    rwa [← List.inj_on_of_nodup_map hn hmem hx he]
  · intro hp
    exact List.mem_map_of_mem (List.mem_filter.mpr ⟨hx, hp⟩)

lemma sum_map_set {f : α → ℕ} (h : xs[i]? = some x) :
    ((xs.set i y).map f).sum + f x = (xs.map f).sum + f y := by
  induction xs generalizing i with
  | nil => cases h
  | cons a xs ih =>
    cases i with
    | zero =>
      obtain rfl : a = x := Option.some.inj h
      rw [List.set_cons_zero, List.map_cons, List.map_cons, List.sum_cons, List.sum_cons]
      omega
    | succ i =>
      have hrest := ih h
      rw [List.set_cons_succ, List.map_cons, List.map_cons, List.sum_cons, List.sum_cons]
      omega

lemma countP_eq_sum {p : α → Bool} : xs.countP p = (xs.map fun a => (p a).toNat).sum := by
  induction xs with
  | nil => rfl
  | cons a xs ih =>
    rw [List.countP_cons, List.map_cons, List.sum_cons, ih, Nat.add_comm]
    cases p a <;> rfl

/-- Changing one entry moves a count by what the entry counts for. -/
lemma countP_change {p : α → Bool} (h : xs[i]? = some x) :
    (xs.set i y).countP p + (p x).toNat = xs.countP p + (p y).toNat := by
  rw [countP_eq_sum, countP_eq_sum]
  exact sum_map_set h

lemma countP_set_same {p : α → Bool} (h : xs[i]? = some x) (hp : p y = p x) :
    (xs.set i y).countP p = xs.countP p := by
  have hchange := countP_change (p := p) (y := y) h
  rw [hp] at hchange
  exact Nat.add_right_cancel hchange

end Yggstack.Library
