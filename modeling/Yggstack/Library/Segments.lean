import Mathlib.Order.Interval.Finset.Nat
import Yggstack.Library.Slices

/-! Segments of a list: cutting a list into consecutive segments, pasting segments into a
buffer, and when a family of segments leaves no position out. -/

namespace Yggstack.Library

structure Segment (α : Type) where
  offset : ℕ
  content : List α

namespace Segment

variable {α : Type}

def fin (s : Segment α) : ℕ := s.offset + s.content.length

def Covers (s : Segment α) (p : ℕ) : Prop := s.offset ≤ p ∧ p < s.fin

def byte? (s : Segment α) (p : ℕ) : Option α := s.content[p - s.offset]?

def Apart (s t : Segment α) : Prop := ∀ p, s.Covers p → ¬ t.Covers p

def total (ss : List (Segment α)) : ℕ := (ss.map fun s => s.content.length).sum

def positions (ss : List (Segment α)) : Finset ℕ :=
  ss.foldr (fun s acc => Finset.Ico s.offset s.fin ∪ acc) ∅

def cut : ℕ → List (List α) → List (Segment α)
  | _, [] => []
  | off, xs :: pieces => ⟨off, xs⟩ :: cut (off + xs.length) pieces

def paste (buf : List α) (ss : List (Segment α)) : List α :=
  ss.foldl (fun b s => overwrite b s.offset s.content) buf

@[simp] lemma total_cons (s : Segment α) (ss : List (Segment α)) :
    total (s :: ss) = s.content.length + total ss := by
  simp [total]

@[simp] lemma total_append (ss ts : List (Segment α)) : total (ss ++ ts) = total ss + total ts := by
  simp [total]

lemma total_perm {ss ts : List (Segment α)} (h : ss.Perm ts) : total ss = total ts :=
  (h.map _).sum_eq

lemma mem_positions {ss : List (Segment α)} {p : ℕ} : p ∈ positions ss ↔ ∃ s ∈ ss, s.Covers p := by
  induction ss with
  | nil => simp [positions]
  | cons s ss ih =>
    change p ∈ Finset.Ico s.offset s.fin ∪ positions ss ↔ _
    simp [ih, Covers]

lemma card_positions {ss : List (Segment α)} (h : ss.Pairwise Apart) :
    (positions ss).card = total ss := by
  induction h with
  | nil => rfl
  | @cons s ss hs _ ih =>
    change (Finset.Ico s.offset s.fin ∪ positions ss).card = _
    rw [Finset.card_union_of_disjoint, ih, Nat.card_Ico, total_cons]
    · simp [fin]
    · rw [Finset.disjoint_left]
      intro p hp hq
      obtain ⟨t, ht, hc⟩ := mem_positions.mp hq
      exact hs t ht p (Finset.mem_Ico.mp hp) hc

lemma covered_of_total {ss : List (Segment α)} {n p : ℕ} (ha : ss.Pairwise Apart)
    (hb : ∀ s ∈ ss, s.fin ≤ n)
    (ht : n ≤ total ss) (hp : p < n) : ∃ s ∈ ss, s.Covers p := by
  have hsub : positions ss ⊆ Finset.range n := by
    intro q hq
    obtain ⟨s, hs, hc⟩ := mem_positions.mp hq
    rw [Finset.mem_range]
    exact hc.2.trans_le (hb s hs)
  have heq : positions ss = Finset.range n := by
    apply Finset.eq_of_subset_of_card_le hsub
    rw [card_positions ha, Finset.card_range]
    exact ht
  exact mem_positions.mp (heq ▸ Finset.mem_range.mpr hp)

lemma length_paste {ss : List (Segment α)} {buf : List α} (h : ∀ s ∈ ss, s.fin ≤ buf.length) :
    (paste buf ss).length = buf.length := by
  induction ss generalizing buf with
  | nil => rfl
  | cons s ss ih =>
    have hs : (overwrite buf s.offset s.content).length = buf.length :=
      length_overwrite (h s (by simp))
    change (paste (overwrite buf s.offset s.content) ss).length = _
    rw [ih (by intro t ht; rw [hs]; exact h t (by simp [ht])), hs]

lemma byte_of_paste {ss : List (Segment α)} {buf : List α} (h : ∀ s ∈ ss, s.fin ≤ buf.length)
    (p : ℕ) :
    (∃ s ∈ ss, s.Covers p ∧ (paste buf ss)[p]? = s.byte? p) ∨
      ((∀ s ∈ ss, ¬ s.Covers p) ∧ (paste buf ss)[p]? = buf[p]?) := by
  induction ss generalizing buf with
  | nil => exact Or.inr ⟨by simp, rfl⟩
  | cons s ss ih =>
    have hs : s.offset + s.content.length ≤ buf.length := h s (by simp)
    have hl : (overwrite buf s.offset s.content).length = buf.length := length_overwrite hs
    change (∃ t ∈ s :: ss, t.Covers p ∧ (paste (overwrite buf s.offset s.content) ss)[p]? =
      t.byte? p) ∨
      _ ∧ (paste (overwrite buf s.offset s.content) ss)[p]? = _
    rcases ih (by intro t ht; rw [hl]; exact h t (by simp [ht])) with ⟨t, ht, hc, he⟩ | ⟨hn, he⟩
    · exact Or.inl ⟨t, by simp [ht], hc, he⟩
    · rw [he, getElem?_overwrite hs]
      by_cases hc : s.Covers p
      · exact Or.inl ⟨s, by simp, hc, if_pos hc⟩
      · refine Or.inr ⟨?_, if_neg hc⟩
        intro t ht
        rcases List.mem_cons.mp ht with rfl | ht
        · exact hc
        · exact hn t ht

section Cut

variable {off : ℕ} {pieces : List (List α)} {s : Segment α}

lemma total_cut (off : ℕ) (pieces : List (List α)) :
    total (cut off pieces) = pieces.flatten.length := by
  induction pieces generalizing off with
  | nil => rfl
  | cons xs pieces ih => rw [cut, total_cons, ih, List.flatten_cons, List.length_append]

lemma content_of_mem_cut (h : s ∈ cut off pieces) : s.content ∈ pieces := by
  induction pieces generalizing off with
  | nil => simp [cut] at h
  | cons xs pieces ih =>
    rcases List.mem_cons.mp h with rfl | h
    · exact List.mem_cons_self
    · exact List.mem_cons_of_mem _ (ih h)

lemma bounds_of_mem_cut (h : s ∈ cut off pieces) :
    off ≤ s.offset ∧ s.fin ≤ off + pieces.flatten.length := by
  induction pieces generalizing off with
  | nil => simp [cut] at h
  | cons xs pieces ih =>
    rcases List.mem_cons.mp h with rfl | h
    · simp [fin]
    · have hh := ih h
      simp only [List.flatten_cons, List.length_append]
      omega

lemma byte_of_mem_cut (h : s ∈ cut off pieces) {p : ℕ} (hc : s.Covers p) :
    s.byte? p = pieces.flatten[p - off]? := by
  induction pieces generalizing off with
  | nil => simp [cut] at h
  | cons xs pieces ih =>
    have hp := hc.2
    rcases List.mem_cons.mp h with rfl | h
    · simp only [fin] at hp
      rw [List.flatten_cons, List.getElem?_append_left (by have := hc.1; simp only at *; omega),
        byte?]
    · have hb := bounds_of_mem_cut h
      have := hc.1
      rw [ih h, List.flatten_cons, List.getElem?_append_right (by omega)]
      congr 1
      omega

lemma covered_by_cut {p : ℕ} (hl : off ≤ p) (hp : p < off + pieces.flatten.length) :
    ∃ s ∈ cut off pieces, s.Covers p := by
  induction pieces generalizing off with
  | nil => simp at hp; omega
  | cons xs pieces ih =>
    by_cases hx : p < off + xs.length
    · exact ⟨⟨off, xs⟩, by simp [cut], hl, hx⟩
    · simp only [List.flatten_cons, List.length_append] at hp
      obtain ⟨s, hs, hc⟩ := ih (by omega : off + xs.length ≤ p) (by omega)
      exact ⟨s, by simp [cut, hs], hc⟩

end Cut

end Segment

end Yggstack.Library
