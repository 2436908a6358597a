import Mathlib.Data.List.Perm.Basic
import Yggstack.Library.Outcomes

/-! A loop over a vector that removes entries with `swap_remove` on the way: it visits every
entry once, in some order, and keeps what a plain pass in that order keeps. -/

namespace Yggstack.Library

variable {S α ε : Type}

def swapRemove (xs : List α) (i : ℕ) : List α :=
  match xs.getLast? with
  | some x => (xs.set i x).dropLast
  | none => xs

def visit (step : S → α → Except ε (S × Option α)) : S → List α → Except ε (S × List α)
  | s, [] => .ok (s, [])
  | s, x :: xs => do
    let (s, kept) ← step s x
    let (s, ys) ← visit step s xs
    return (s, kept.toList ++ ys)

-- The same pass by index, with `swap_remove` for the dropped entries. Each round either drops an
-- entry or moves the index on, so `fuel` is the number of entries left.
def sweepFrom (step : S → α → Except ε (S × Option α)) : ℕ → S → List α → ℕ → Except ε (S × List α)
  | 0, s, xs, _ => .ok (s, xs)
  | fuel + 1, s, xs, i =>
    match xs[i]? with
    | none => .ok (s, xs)
    | some x => do
      let (s, kept) ← step s x
      match kept with
      | some y => sweepFrom step fuel s (xs.set i y) (i + 1)
      | none => sweepFrom step fuel s (swapRemove xs i) i

def sweep (step : S → α → Except ε (S × Option α)) (s : S) (xs : List α) : Except ε (S × List α) :=
  sweepFrom step xs.length s xs 0

lemma swapRemove_append (ys : List α) (z : α) (i : ℕ) :
    swapRemove (ys ++ [z]) i = ((ys ++ [z]).set i z).dropLast := by
  simp [swapRemove]

lemma swapRemove_spec {xs : List α} {i : ℕ} (h : i < xs.length) :
    (swapRemove xs i).length = xs.length - 1 ∧ (swapRemove xs i).take i = xs.take i ∧
      ((swapRemove xs i).drop i).Perm (xs.drop (i + 1)) := by
  obtain ⟨ys, z, rfl⟩ : ∃ ys z, xs = ys ++ [z] := by
    have hne : xs ≠ [] := List.ne_nil_of_length_pos (by omega)
    exact ⟨xs.dropLast, xs.getLast hne, (List.dropLast_append_getLast hne).symm⟩
  rw [swapRemove_append]
  simp only [List.length_append, List.length_singleton] at h
  by_cases hi : i < ys.length
  · have hset : ((ys ++ [z]).set i z).dropLast = ys.set i z := by
      rw [List.set_append_left _ _ hi, List.dropLast_concat]
    rw [hset]
    refine ⟨by simp, ?_, ?_⟩
    · rw [List.take_set_of_le (le_refl i), List.take_append_of_le_length hi.le]
    · rw [List.drop_append_of_le_length (by omega), List.drop_eq_getElem_cons (by simpa using hi)]
      simp only [List.getElem_set_self]
      rw [List.drop_set_of_lt (Nat.lt_succ_self i)]
      exact List.perm_append_singleton z _ |>.symm
  · obtain rfl : i = ys.length := by omega
    have hset : ((ys ++ [z]).set ys.length z).dropLast = ys := by
      rw [List.set_append_right _ _ le_rfl]
      simp
    rw [hset]
    refine ⟨by simp, by simp, ?_⟩
    simp

/-- A sweep is a pass over some order of the entries left; what it keeps is the same up to order. -/
lemma sweepFrom_spec (step : S → α → Except ε (S × Option α)) (fuel : ℕ) (s : S) (xs : List α)
    (i : ℕ)
    (hf : xs.length - i ≤ fuel) :
    ∃ order, order.Perm (xs.drop i) ∧
      ((∃ e, visit step s order = .error e ∧ sweepFrom step fuel s xs i = .error e) ∨
        ∃ s' ys zs, visit step s order = .ok (s', ys) ∧ sweepFrom step fuel s xs i = .ok (s', zs) ∧
          zs.Perm (xs.take i ++ ys)) := by
  induction fuel generalizing s xs i with
  | zero =>
    refine ⟨[], by rw [List.drop_eq_nil_of_le (by omega)], Or.inr ⟨s, [], xs, rfl, rfl, ?_⟩⟩
    rw [List.append_nil, List.take_of_length_le (by omega)]
  | succ fuel ih =>
    by_cases hi : i < xs.length
    · have hx : xs[i]? = some xs[i] := List.getElem?_eq_getElem hi
      have hdrop : xs.drop i = xs[i] :: xs.drop (i + 1) := List.drop_eq_getElem_cons hi
      rw [sweepFrom, hx, hdrop]
      simp only
      cases hs : step s xs[i] with
      | error e => exact ⟨_, List.Perm.refl _, Or.inl ⟨e, by simp [visit, hs]; rfl, rfl⟩⟩
      | ok r =>
        obtain ⟨s₁, kept⟩ := r
        cases kept with
        | some y =>
          obtain ⟨order, hp, hh⟩ := ih s₁ (xs.set i y) (i + 1) (by rw [List.length_set]; omega)
          rw [List.drop_set_of_lt (Nat.lt_succ_self i)] at hp
          have htake : (xs.set i y).take (i + 1) = xs.take i ++ [y] := by
            rw [List.take_succ_eq_append_getElem (by simpa using hi),
              List.take_set_of_le (le_refl i)]
            simp
          refine ⟨xs[i] :: order, hp.cons _, ?_⟩
          rcases hh with ⟨e, hv, hw⟩ | ⟨s', ys, zs, hv, hw, hz⟩
          · exact Or.inl ⟨e, by simp [visit, hs, hv]; rfl, hw⟩
          · refine Or.inr ⟨s', y :: ys, zs, by simp [visit, hs, hv], hw, ?_⟩
            simpa [htake] using hz
        | none =>
          obtain ⟨hlen, htake, hperm⟩ := swapRemove_spec hi
          obtain ⟨order, hp, hh⟩ := ih s₁ (swapRemove xs i) i (by omega)
          refine ⟨xs[i] :: order, (hp.trans hperm).cons _, ?_⟩
          rcases hh with ⟨e, hv, hw⟩ | ⟨s', ys, zs, hv, hw, hz⟩
          · exact Or.inl ⟨e, by simp [visit, hs, hv]; rfl, hw⟩
          · refine Or.inr ⟨s', ys, zs, by simp [visit, hs, hv], hw, ?_⟩
            rwa [htake] at hz
    · have hx : xs[i]? = none := List.getElem?_eq_none (by omega)
      refine ⟨[], by rw [List.drop_eq_nil_of_le (by omega)], Or.inr ⟨s, [], xs, rfl, ?_, ?_⟩⟩
      · rw [sweepFrom, hx]
      · rw [List.append_nil, List.take_of_length_le (by omega)]

lemma sweep_spec (step : S → α → Except ε (S × Option α)) (s : S) (xs : List α) :
    ∃ order, order.Perm xs ∧
      ((∃ e, visit step s order = .error e ∧ sweep step s xs = .error e) ∨
        ∃ s' ys zs, visit step s order = .ok (s', ys) ∧ sweep step s xs = .ok (s', zs) ∧
        zs.Perm ys) := by
  simpa [sweep] using sweepFrom_spec step xs.length s xs 0 (by simp)

lemma mem_of_mem_swapRemove {xs : List α} {i : ℕ} {x : α} (h : i < xs.length)
    (hx : x ∈ swapRemove xs i) : x ∈ xs := by
  obtain ⟨-, htake, hperm⟩ := swapRemove_spec h
  rw [← List.take_append_drop i (swapRemove xs i), List.mem_append, htake, hperm.mem_iff] at hx
  rcases hx with hx | hx
  · exact List.mem_of_mem_take hx
  · exact List.mem_of_mem_drop hx

section Simulation

variable {T : Type} {R : S → T → Prop} {p : α → Prop} {step : S → α → Except ε (S × Option α)}
  {step' : T → α → Except ε (T × Option α)}

lemma sweepFrom_follows (hstep : ∀ s t x, R s t → p x → Follows
      (fun a b => R a.1 b.1 ∧ b.2 = a.2 ∧ ∀ y ∈ a.2, p y) (step s x) (step' t x))
    (fuel : ℕ) (s : S) (t : T) (xs : List α) (i : ℕ) (hr : R s t) (hp : ∀ x ∈ xs, p x) :
    Follows (fun a b => R a.1 b.1 ∧ b.2 = a.2 ∧ ∀ y ∈ a.2, p y)
      (sweepFrom step fuel s xs i) (sweepFrom step' fuel t xs i) := by
  induction fuel generalizing s t xs i with
  | zero => exact Follows.ok ⟨hr, rfl, hp⟩
  | succ fuel ih =>
    rw [sweepFrom, sweepFrom]
    by_cases hi : i < xs.length
    · rw [List.getElem?_eq_getElem hi]
      apply (hstep s t xs[i] hr (hp _ (List.getElem_mem hi))).bind
      rintro ⟨s', _⟩ ⟨t', kept⟩ ⟨hr', rfl, hy⟩
      cases kept with
      | some y =>
        apply ih s' t' (xs.set i y) (i + 1) hr'
        intro x hx
        rcases List.mem_or_eq_of_mem_set hx with hx | rfl
        · exact hp x hx
        · exact hy x rfl
      | none =>
          exact ih s' t' (swapRemove xs i) i hr' fun x hx => hp x (mem_of_mem_swapRemove hi hx)
    · rw [List.getElem?_eq_none (by omega)]
      exact Follows.ok ⟨hr, rfl, hp⟩

lemma sweep_follows (hstep : ∀ s t x, R s t → p x → Follows
      (fun a b => R a.1 b.1 ∧ b.2 = a.2 ∧ ∀ y ∈ a.2, p y) (step s x) (step' t x))
    {s : S} {t : T} {xs : List α} (hr : R s t) (hp : ∀ x ∈ xs, p x) :
    Follows (fun a b => R a.1 b.1 ∧ b.2 = a.2 ∧ ∀ y ∈ a.2, p y) (sweep step s xs)
      (sweep step' t xs) :=
  sweepFrom_follows hstep xs.length s t xs 0 hr hp

end Simulation

end Yggstack.Library
