import Yggstack.Library.Slices

namespace Yggstack.Library

variable {ε α β : Type}

def Ends (allowed : ε → Prop) (r : Except ε α) (post : α → Prop) : Prop :=
  match r with
  | .ok a => post a
  | .error e => allowed e

lemma bind_eq_ok {r : Except ε α} {f : α → Except ε β} {b : β} :
    (r >>= f) = .ok b ↔ ∃ a, r = .ok a ∧ f a = .ok b := by
  cases r with
  | ok a => simp
  | error e => simp [Bind.bind, Except.bind]

namespace Ends

variable {allowed : ε → Prop} {r : Except ε α} {f : α → Except ε β} {post : α → Prop}
    {goal : β → Prop}

@[simp] lemma ok_iff {a : α} : Ends allowed (.ok a) post ↔ post a := Iff.rfl

lemma bind (h : Ends allowed r post) (hf : ∀ a, post a → Ends allowed (f a) goal) :
    Ends allowed (r >>= f) goal := by
  cases r with
  | ok a => exact hf a h
  | error e => exact h

lemma of_ok (h : Ends allowed r post) {a : α} (hr : r = .ok a) : post a := by
  rw [hr] at h
  exact h

lemma of_error (h : Ends allowed r post) {e : ε} (hr : r = .error e) : allowed e := by
  rw [hr] at h
  exact h

end Ends

def Follows {ε' : Type} (rel : α → β → Prop) (r : Except ε α) (r' : Except ε' β) : Prop :=
  ∀ a, r = .ok a → ∃ b, r' = .ok b ∧ rel a b

namespace Follows

variable {α' β' : Type} {rel : α → β → Prop} {goal : α' → β' → Prop} {r : Except ε α}
    {r' : Except ε β} {f : α → Except ε α'} {g : β → Except ε β'}

lemma ok {a : α} {b : β} (h : rel a b) : Follows rel (.ok a : Except ε α) (.ok b : Except ε β) := by
  rintro _ ⟨rfl⟩
  exact ⟨b, rfl, h⟩

lemma error {e : ε} : Follows rel (.error e : Except ε α) r' := by
  intro a ha
  cases ha

lemma bind (h : Follows rel r r') (hf : ∀ a b, rel a b → Follows goal (f a) (g b)) :
    Follows goal (r >>= f) (r' >>= g) := by
  intro c hc
  obtain ⟨a, ha, hc⟩ := bind_eq_ok.mp hc
  obtain ⟨b, hb, hr⟩ := h a ha
  obtain ⟨c', hc', hg⟩ := hf a b hr c hc
  exact ⟨c', bind_eq_ok.mpr ⟨b, hb, hc'⟩, hg⟩

lemma of_eq {s : Except ε α} (h : s = r) : Follows (fun a b => b = a) r s := by
  intro a ha
  exact ⟨a, h.trans ha, rfl⟩

end Follows

end Yggstack.Library
