import Mathlib.Data.List.Basic
import Mathlib.Tactic

namespace Yggstack.Library

inductive Panic where
  | index
  | slice
  | length
  | unwrap
  | handle
  | kind
  deriving DecidableEq, Repr

@[simp] lemma ok_bind {ε α β : Type} (a : α) (f : α → Except ε β) : (Except.ok a >>= f) = f a := rfl

@[simp] lemma pure_eq_ok {ε α : Type} (a : α) : (pure a : Except ε α) = .ok a := rfl

variable {α : Type}

def index (xs : List α) (i : ℕ) : Except Panic α :=
  match xs[i]? with
  | some x => .ok x
  | none => .error .index

def assign (xs : List α) (i : ℕ) (x : α) : Except Panic (List α) :=
  if i < xs.length then .ok (xs.set i x) else .error .index

def slice (xs : List α) (a b : ℕ) : Except Panic (List α) :=
  if a ≤ b ∧ b ≤ xs.length then .ok ((xs.take b).drop a) else .error .slice

def overwrite (xs : List α) (a : ℕ) (ys : List α) : List α :=
  xs.take a ++ ys ++ xs.drop (a + ys.length)

def copyFromSlice (xs : List α) (a b : ℕ) (ys : List α) : Except Panic (List α) :=
  if a ≤ b ∧ b ≤ xs.length then
    if ys.length = b - a then .ok (overwrite xs a ys) else .error .length
  else .error .slice

lemma index_getD {xs : List α} {i : ℕ} (d : α) (h : i < xs.length) :
    index xs i = .ok (xs.getD i d) := by
  simp [index, h]

lemma slice_ok {xs : List α} {a b : ℕ} (hab : a ≤ b) (hb : b ≤ xs.length) :
    slice xs a b = .ok ((xs.take b).drop a) :=
  if_pos ⟨hab, hb⟩

lemma slice_append (xs ys zs : List α) :
    slice (xs ++ (ys ++ zs)) xs.length (xs.length + ys.length) = .ok ys := by
  rw [slice_ok (Nat.le_add_right _ _) (by simp), List.take_length_add_append, List.take_left,
    List.drop_left]

lemma index_append (xs ys : List α) (i : ℕ) : index (xs ++ ys) (xs.length + i) = index ys i := by
  simp only [index, List.getElem?_append_right (Nat.le_add_right _ _), Nat.add_sub_cancel_left]

lemma copyFromSlice_ok {xs ys : List α} {a : ℕ} (h : a + ys.length ≤ xs.length) :
    copyFromSlice xs a (a + ys.length) ys = .ok (overwrite xs a ys) := by
  rw [copyFromSlice, if_pos ⟨Nat.le_add_right _ _, h⟩, if_pos (by omega)]

lemma overwrite_append {xs zs ys rest : List α} (h : ys.length = zs.length) :
    overwrite (xs ++ (zs ++ rest)) xs.length ys = xs ++ (ys ++ rest) := by
  simp [overwrite, List.drop_append, h]

lemma copyFromSlice_append {xs zs ys rest : List α} {a b : ℕ} (ha : xs.length = a)
    (hb : a + zs.length = b) (h : ys.length = zs.length) :
    copyFromSlice (xs ++ (zs ++ rest)) a b ys = .ok (xs ++ (ys ++ rest)) := by
  subst ha hb
  rw [← h, copyFromSlice_ok (by simp; omega), overwrite_append h]

lemma length_overwrite {xs ys : List α} {a : ℕ} (h : a + ys.length ≤ xs.length) :
    (overwrite xs a ys).length = xs.length := by
  simp only [overwrite, List.length_append, List.length_take, List.length_drop]
  omega

lemma getElem?_overwrite {xs ys : List α} {a : ℕ} (h : a + ys.length ≤ xs.length) (p : ℕ) :
    (overwrite xs a ys)[p]? = if a ≤ p ∧ p < a + ys.length then ys[p - a]? else xs[p]? := by
  have ht : (xs.take a).length = a := by simp; omega
  rw [overwrite, List.append_assoc]
  by_cases hp : p < a
  · rw [List.getElem?_append_left (by omega), List.getElem?_take_of_lt hp, if_neg (by omega)]
  · rw [List.getElem?_append_right (by omega), ht]
    by_cases hq : p < a + ys.length
    · rw [List.getElem?_append_left (by omega), if_pos ⟨by omega, hq⟩]
    · rw [List.getElem?_append_right (by omega), List.getElem?_drop, if_neg (by omega)]
      congr 1
      omega

end Yggstack.Library
