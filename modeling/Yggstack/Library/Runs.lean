import Mathlib.Tactic
import Yggstack.Library.Outcomes

namespace Yggstack.Library

variable {S A : Type}

inductive Run (step : S → A → S → Prop) : S → List A → S → Prop
  | nil (s : S) : Run step s [] s
  | cons {s t u : S} {a : A} {as : List A} : step s a t → Run step t as u → Run step s (a :: as) u

namespace Run

variable {step step' : S → A → S → Prop} {s t u : S} {as bs : List A} {I : S → Prop}

lemma single {a : A} (h : step s a t) : Run step s [a] t := .cons h (.nil t)

lemma append (h : Run step s as t) (h' : Run step t bs u) : Run step s (as ++ bs) u := by
  induction h with
  | nil => exact h'
  | cons hs _ ih => exact .cons hs (ih h')

lemma of_append (h : Run step s (as ++ bs) u) : ∃ t, Run step s as t ∧ Run step t bs u := by
  induction as generalizing s with
  | nil => exact ⟨s, .nil s, h⟩
  | cons a as ih =>
    cases h with
    | cons ha hrest =>
      obtain ⟨t, has, hbs⟩ := ih hrest
      exact ⟨t, .cons ha has, hbs⟩

lemma of_single {a : A} (h : Run step s [a] t) : step s a t := by
  cases h with
  | cons ha hnil =>
    cases hnil
    exact ha

lemma mono (h : Run step s as t) (hm : ∀ s a t, step s a t → step' s a t) : Run step' s as t := by
  induction h with
  | nil s => exact .nil s
  | cons hs _ ih => exact .cons (hm _ _ _ hs) ih

lemma invariant (h : Run step s as t) (hs : I s) (hstep : ∀ s a t, I s → step s a t → I t) :
    I t := by
  induction h with
  | nil => exact hs
  | cons ha _ ih => exact ih (hstep _ _ _ hs ha)

lemma refine_invariant (h : Run step s as t) (hs : I s)
    (hstep : ∀ s a t, I s → step s a t → step' s a t ∧ I t) : Run step' s as t := by
  induction h with
  | nil s => exact .nil s
  | cons ha _ ih =>
    obtain ⟨ha', hI⟩ := hstep _ _ _ hs ha
    exact .cons ha' (ih hI)

lemma forall_mem {p : A → Prop} (h : Run (fun s a t => step s a t ∧ p a) s as t) :
    ∀ a ∈ as, p a := by
  induction h with
  | nil => simp
  | cons hs _ ih => exact List.forall_mem_cons.mpr ⟨hs.2, ih⟩

lemma guard {p : S → A → Prop} (h : Run step s as t) (hp : ∀ a ∈ as, ∀ s, p s a) :
    Run (fun s a t => step s a t ∧ p s a) s as t := by
  induction h with
  | nil s => exact .nil s
  | cons hs _ ih =>
    rw [List.forall_mem_cons] at hp
    exact .cons ⟨hs, hp.1 _⟩ (ih hp.2)

lemma guard_of_end {P : S → Prop} {p : S → A → Prop} (h : Run step s as t) (hs : I s)
    (hstep : ∀ s a t, I s → step s a t → I t) (ht : P t)
    (hback : ∀ s a t, I s → step s a t → P t → P s ∧ p s a) :
    P s ∧ Run (fun s a t => step s a t ∧ p s a) s as t := by
  induction h with
  | nil s => exact ⟨ht, .nil s⟩
  | cons ha _ ih =>
    obtain ⟨hu, hrun⟩ := ih (hstep _ _ _ hs ha) ht
    obtain ⟨hP, hp⟩ := hback _ _ _ hs ha hu
    exact ⟨hP, .cons ⟨ha, hp⟩ hrun⟩

lemma history {H : List A → S → Prop} (h : Run step s as t) (hs : H [] s)
    (hstep : ∀ bs s a t, H bs s → step s a t → H (bs ++ [a]) t) : H as t := by
  suffices hgen : ∀ bs, H bs s → H (bs ++ as) t by simpa using hgen [] hs
  clear hs
  induction h with
  | nil => intro bs hb; simpa using hb
  | cons ha _ ih =>
    intro bs hb
    simpa using ih _ (hstep bs _ _ _ hb ha)

/-- How many costly steps a run has, when each is paid for by a fall of `μ`, and some can raise
it. -/
lemma potential (μ : S → ℕ) (costs raises : A → Bool) (k : ℕ) (h : Run step s as t) (hs : I s)
    (hstep : ∀ s a t, I s → step s a t →
      I t ∧ μ t + (costs a).toNat ≤ μ s + k * (raises a).toNat) :
    μ t + as.countP costs ≤ μ s + k * as.countP raises := by
  induction h with
  | nil => simp
  | @cons s _ _ a as ha _ ih =>
    obtain ⟨ht, hle⟩ := hstep _ _ _ hs ha
    have hrest := ih ht
    have hcosts : (a :: as).countP costs = as.countP costs + (costs a).toNat := by
      rw [List.countP_cons]
      cases costs a <;> rfl
    have hraises : (a :: as).countP raises = as.countP raises + (raises a).toNat := by
      rw [List.countP_cons]
      cases raises a <;> rfl
    rw [hcosts, hraises, Nat.mul_add]
    omega

end Run

/-- However things go on, they come to `P`, and do not get stuck before. -/
inductive Inevitable (step : S → A → S → Prop) (P : S → Prop) : S → Prop
  | here {s : S} : P s → Inevitable step P s
  | next {s t : S} {a : A} : step s a t → (∀ a t, step s a t → Inevitable step P t) →
      Inevitable step P s

namespace Inevitable

variable {step : S → A → S → Prop} {P Q : S → Prop} {s t : S} {as : List A}

lemma trans (h : Inevitable step P s) (hPQ : ∀ s, P s → Inevitable step Q s) :
    Inevitable step Q s := by
  induction h with
  | here hs => exact hPQ _ hs
  | next hs _ ih => exact .next hs ih

lemma along (h : Inevitable step P s) (hP : ∀ s a t, P s → ¬step s a t) (hrun : Run step s as t) :
    Inevitable step P t := by
  induction hrun with
  | nil => exact h
  | cons ha _ ih =>
    cases h with
    | here hs => exact absurd ha (hP _ _ _ hs)
    | next _ hnext => exact ih (hnext _ _ ha)

end Inevitable

def Before (x y : A) (as : List A) : Prop := ∃ l r, as = l ++ y :: r ∧ x ∈ l

lemma Before.mem {x y : A} {as : List A} (h : Before x y as) : x ∈ as := by
  obtain ⟨l, r, rfl, hx⟩ := h
  exact List.mem_append_left _ hx

@[simp] lemma not_before_nil {x y : A} : ¬Before x y [] := fun h => List.not_mem_nil h.mem

lemma before_cons {x y a : A} {as : List A} :
    Before x y (a :: as) ↔ a = x ∧ y ∈ as ∨ Before x y as := by
  constructor
  · rintro ⟨_ | ⟨b, l⟩, r, h, hx⟩
    · cases hx
    · obtain ⟨rfl, rfl⟩ := List.cons_eq_cons.mp h
      rcases List.mem_cons.mp hx with rfl | hx
      · exact Or.inl ⟨rfl, by simp⟩
      · exact Or.inr ⟨l, r, rfl, hx⟩
  · rintro (⟨rfl, hy⟩ | ⟨l, r, rfl, hx⟩)
    · obtain ⟨l, r, rfl⟩ := List.append_of_mem hy
      exact ⟨a :: l, r, rfl, List.mem_cons_self⟩
    · exact ⟨a :: l, r, rfl, List.mem_cons_of_mem a hx⟩

lemma before_snoc {x y a : A} {as : List A} :
    Before x y (as ++ [a]) ↔ Before x y as ∨ a = y ∧ x ∈ as := by
  constructor
  · rintro ⟨l, r, h, hx⟩
    rcases List.eq_nil_or_concat r with rfl | ⟨r, b, rfl⟩
    · obtain ⟨rfl, h⟩ := List.append_inj' h rfl
      exact Or.inr ⟨by simpa using h, hx⟩
    · rw [List.concat_eq_append, ← List.cons_append, ← List.append_assoc] at h
      exact Or.inl ⟨l, r, List.append_inj_left' h rfl, hx⟩
  · rintro (⟨l, r, rfl, hx⟩ | ⟨rfl, hx⟩)
    · exact ⟨l, r ++ [a], by simp, hx⟩
    · exact ⟨as, [], rfl, hx⟩

lemma before_append {x y : A} {as bs : List A} :
    Before x y (as ++ bs) ↔ Before x y as ∨ x ∈ as ∧ y ∈ bs ∨ Before x y bs := by
  induction as with
  | nil => simp
  | cons a as ih =>
    rw [List.cons_append, before_cons, before_cons, ih]
    simp only [List.mem_append, List.mem_cons, eq_comm (a := x)]
    tauto

def runAll {ε : Type} (exec : S → A → Except ε S) (s : S) (as : List A) : Except ε S :=
  as.foldlM exec s

lemma Run.of_runAll {ε : Type} {exec : S → A → Except ε S} {s t : S} {as : List A}
    (h : runAll exec s as = .ok t) :
    Run (fun s a t => exec s a = .ok t) s as t := by
  induction as generalizing s with
  | nil =>
    obtain rfl : s = t := by simpa [runAll] using h
    exact .nil s
  | cons a as ih =>
    rw [runAll, List.foldlM_cons, bind_eq_ok] at h
    obtain ⟨u, hu, h⟩ := h
    exact .cons hu (ih h)

end Yggstack.Library
