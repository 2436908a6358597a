import Yggstack.Frag.Reassembler
import Yggstack.Library.Segments

namespace Yggstack.Frag

open Library

def Fragment.segment (f : Fragment) : Segment UInt8 := ⟨f.offset, f.payload⟩

namespace FragSlot

def fresh (f : Fragment) (now : ℕ) : FragSlot :=
  { nextHeader := f.nextHeader, src := f.key.src, dst := f.key.dst, totalLen := none, received := 0,
    buf := List.replicate bufLen 0, created := now }

def write (s : FragSlot) (f : Fragment) : FragSlot :=
  { s with
    buf := overwrite s.buf f.offset f.payload
    received := s.received + f.payload.length
    totalLen := if f.more then s.totalLen else some f.fin }

def complete? (s : FragSlot) : Option ℕ := s.totalLen.filter (· ≤ s.received)

def packet (s : FragSlot) (total : ℕ) : List UInt8 :=
  ipv6Header s.src s.dst s.nextHeader total ++ s.buf.take total

def ofLog (created : ℕ) : List Fragment → Option FragSlot
  | [] => none
  | f :: fs => some ((f :: fs).foldl write (fresh f created))

structure Sound (s : FragSlot) : Prop where
  buf_length : s.buf.length = bufLen
  total_le : ∀ total ∈ s.totalLen, total ≤ bufLen

lemma fresh_sound (f : Fragment) (now : ℕ) : (fresh f now).Sound :=
  ⟨by simp [fresh], by simp [fresh]⟩

lemma Sound.write {s : FragSlot} {f : Fragment} (h : s.Sound) (hf : f.fin ≤ bufLen) :
    (s.write f).Sound := by
  refine ⟨?_, ?_⟩
  · rw [FragSlot.write, length_overwrite, h.buf_length]
    rw [h.buf_length]
    exact hf
  · intro total ht
    simp only [FragSlot.write] at ht
    split at ht
    · exact h.total_le total ht
    · simp only [Option.mem_def, Option.some.injEq] at ht
      omega

lemma complete?_eq_some {s : FragSlot} {total : ℕ} :
    s.complete? = some total ↔ s.totalLen = some total ∧ total ≤ s.received := by
  simp [complete?, Option.filter_eq_some_iff]

lemma ofLog_append {created : ℕ} {log : List Fragment} {s : FragSlot}
    (h : ofLog created log = some s)
    (f : Fragment) : ofLog created (log ++ [f]) = some (s.write f) := by
  cases log with
  | nil => cases h
  | cons g log =>
    obtain rfl := Option.some.inj h
    simp [ofLog]

section Fold

variable (s : FragSlot) (fs : List Fragment)

lemma foldl_write_const : (fs.foldl write s).src = s.src ∧ (fs.foldl write s).dst = s.dst ∧
    (fs.foldl write s).nextHeader = s.nextHeader ∧ (fs.foldl write s).created = s.created := by
  induction fs generalizing s with
  | nil => exact ⟨rfl, rfl, rfl, rfl⟩
  | cons f fs ih => exact ih (s.write f)

lemma foldl_write_buf : (fs.foldl write s).buf = Segment.paste s.buf (fs.map Fragment.segment) := by
  induction fs generalizing s with
  | nil => rfl
  | cons f fs ih => exact ih (s.write f)

lemma foldl_write_received :
    (fs.foldl write s).received = s.received + Segment.total (fs.map Fragment.segment) := by
  induction fs generalizing s with
  | nil => rfl
  | cons f fs ih =>
    rw [List.foldl_cons, ih, List.map_cons, Segment.total_cons]
    simp only [write, Fragment.segment]
    omega

lemma foldl_write_totalLen {total : ℕ} (h : (fs.foldl write s).totalLen = some total) :
    s.totalLen = some total ∨ ∃ f ∈ fs, f.more = false ∧ f.fin = total := by
  induction fs generalizing s with
  | nil => exact Or.inl h
  | cons f fs ih =>
    rcases ih (s.write f) h with ht | ⟨g, hg, hh⟩
    · by_cases hm : f.more = true
      · exact Or.inl (by simpa [write, hm] using ht)
      · exact Or.inr ⟨f, by simp, by simpa using hm, by simpa [write, hm] using ht⟩
    · exact Or.inr ⟨g, by simp [hg], hh⟩

lemma foldl_write_totalLen_ne_none (h : s.totalLen ≠ none ∨ ∃ f ∈ fs, f.more = false) :
    (fs.foldl write s).totalLen ≠ none := by
  induction fs generalizing s with
  | nil => simpa using h
  | cons f fs ih =>
    apply ih
    rcases h with h | ⟨g, hg, hm⟩
    · left
      simp only [write]
      split
      · exact h
      · simp
    · rcases List.mem_cons.mp hg with rfl | hg
      · exact Or.inl (by simp [write, hm])
      · exact Or.inr ⟨g, hg, hm⟩

end Fold

end FragSlot

end Yggstack.Frag
