import Mathlib.Algebra.BigOperators.Group.Finset.Basic
import Mathlib.Data.Multiset.UnionInter
import Mathlib.Tactic
import Yggstack.Library.Store

/-! Ownership of table entries: every holding names its own entry of the table, with the kind that
its holder relies on. -/

namespace Yggstack.Library

variable {H K : Type}

structure Ledger (kind : H → Option K) (held : Multiset (H × K)) : Prop where
  nodup : (held.map Prod.fst).Nodup
  present : ∀ x ∈ held, kind x.1 = some x.2

def tag (k : K) (hs : List H) : Multiset (H × K) := (hs : Multiset H).map fun h => (h, k)

@[simp] lemma tag_nil (k : K) : tag k ([] : List H) = 0 := rfl

@[simp] lemma tag_append (k : K) (hs js : List H) : tag k (hs ++ js) = tag k hs + tag k js := by
  simp [tag]

lemma tag_cons (k : K) (h : H) (hs : List H) : tag k (h :: hs) = tag k [h] + tag k hs := by
  rw [← tag_append, List.singleton_append]

lemma tag_perm (k : K) {hs js : List H} (h : hs.Perm js) : tag k hs = tag k js := by
  rw [tag, tag, Multiset.coe_eq_coe.mpr h]

lemma tag_erase [DecidableEq H] (k : K) {hs : List H} {h : H} (hm : h ∈ hs) :
    tag k hs = tag k [h] + tag k (hs.erase h) := by
  rw [← tag_append, tag_perm k (List.perm_cons_erase hm), List.singleton_append]

@[simp] lemma mem_tag {k : K} {hs : List H} {x : H × K} : x ∈ tag k hs ↔ x.1 ∈ hs ∧ x.2 = k := by
  obtain ⟨h, k'⟩ := x
  simp only [tag, Multiset.mem_map, Multiset.mem_coe, Prod.mk.injEq]
  constructor
  · rintro ⟨j, hj, rfl, rfl⟩
    exact ⟨hj, rfl⟩
  · rintro ⟨hh, rfl⟩
    exact ⟨h, hh, rfl, rfl⟩

@[simp] lemma map_fst_tag (k : K) (hs : List H) : (tag k hs).map Prod.fst = (hs : Multiset H) := by
  simp only [tag, Multiset.map_map, Function.comp_def, Multiset.map_id']

namespace Ledger

variable {kind kind' : H → Option K} {held new rest out : Multiset (H × K)}

lemma empty : Ledger kind 0 := ⟨by simp, by simp⟩

lemma of_le (h : Ledger kind held) (hle : rest ≤ held) : Ledger kind rest :=
  ⟨Multiset.nodup_of_le (Multiset.map_le_map hle) h.nodup, fun x hx =>
    h.present x (Multiset.mem_of_le hle hx)⟩

lemma ne_of_mem_add (h : Ledger kind (out + rest)) {x y : H × K} (hx : x ∈ out) (hy : y ∈ rest) :
    x.1 ≠ y.1 := by
  have hd := h.nodup
  rw [Multiset.map_add, Multiset.nodup_add] at hd
  intro he
  exact Multiset.disjoint_left.mp hd.2.2 (Multiset.mem_map_of_mem _ hx)
    (he ▸ Multiset.mem_map_of_mem _ hy)

/-- The one rule for changes of the table: the holdings `out` are given up for `new`, and nothing
happens to the entries of the rest. -/
lemma exchange (h : Ledger kind (out + rest)) (hnew : Ledger kind' new)
    (hrest : ∀ x ∈ rest, kind' x.1 = kind x.1) (hd : ∀ x ∈ new, ∀ y ∈ rest, x.1 ≠ y.1) :
    Ledger kind' (new + rest) := by
  have hr : Ledger kind rest := h.of_le (Multiset.le_add_left _ _)
  refine ⟨?_, ?_⟩
  · rw [Multiset.map_add, Multiset.nodup_add]
    refine ⟨hnew.nodup, hr.nodup, Multiset.disjoint_left.mpr ?_⟩
    intro j hj hj'
    obtain ⟨x, hx, rfl⟩ := Multiset.mem_map.mp hj
    obtain ⟨y, hy, he⟩ := Multiset.mem_map.mp hj'
    exact hd x hx y hy he.symm
  · intro x hx
    rcases Multiset.mem_add.mp hx with hx | hx
    · exact hnew.present x hx
    · rw [hrest x hx, hr.present x hx]

lemma congr (h : Ledger kind held) (hk : ∀ x ∈ held, kind' x.1 = kind x.1) : Ledger kind' held :=
  ⟨h.nodup, fun x hx => by rw [hk x hx, h.present x hx]⟩

lemma alloc (h : Ledger kind rest) (hnew : Ledger kind' new) (hfresh : ∀ x ∈ new, kind x.1 = none)
    (hrest : ∀ x ∈ rest, kind' x.1 = kind x.1) : Ledger kind' (new + rest) := by
  have h₀ : Ledger kind (0 + rest) := by simpa using h
  refine h₀.exchange hnew hrest ?_
  intro x hx y hy he
  have hn := hfresh x hx
  rw [he, h.present y hy] at hn
  exact absurd hn (by simp)

lemma release (h : Ledger kind (out + rest)) (hk : ∀ j, (∀ x ∈ out, x.1 ≠ j) → kind' j = kind j) :
    Ledger kind' rest := by
  refine (h.of_le (Multiset.le_add_left _ _)).congr ?_
  intro y hy
  exact hk y.1 fun x hx => h.ne_of_mem_add hx hy

lemma singleton {h : H} {k : K} (hk : kind h = some k) : Ledger kind (tag k [h]) :=
  ⟨by simp, by simp [hk]⟩

lemma of_tag {k : K} {hs : List H} (hn : hs.Nodup) (hk : ∀ h ∈ hs, kind h = some k) :
    Ledger kind (tag k hs) :=
  ⟨by simpa using hn, by rintro ⟨h, k'⟩ hx; obtain ⟨hh, rfl⟩ := mem_tag.mp hx; exact hk h hh⟩

lemma tag_nodup {k : K} {hs : List H} (h : Ledger kind (tag k hs)) : hs.Nodup := by
  simpa using h.nodup

end Ledger

namespace Store

variable {V X : Type}

noncomputable def collect (m : Store K V) (f : K → V → Multiset X) : Multiset X :=
  ∑ k ∈ m.finite.toFinset, ((m.find k).map (f k)).getD 0

variable {m : Store K V} {f : K → V → Multiset X} {k : K} {v : V}

@[simp] lemma collect_empty (f : K → V → Multiset X) : (empty : Store K V).collect f = 0 := by
  simp [collect]

lemma collect_mapValues {g : K → V → V} (h : ∀ k v, m.find k = some v → f k (g k v) = f k v) :
    (m.mapValues g).collect f = m.collect f := by
  have hdom : (m.mapValues g).finite.toFinset = m.finite.toFinset := by
    ext k
    simp
  rw [collect, collect, hdom]
  refine Finset.sum_congr rfl fun k _ => ?_
  rw [find_mapValues]
  cases hk : m.find k with
  | none => rfl
  | some v => simp [h k v hk]

lemma map_collect {Y : Type} (g : X → Y) (m : Store K V) (f : K → V → Multiset X) :
    (m.collect f).map g = m.collect fun k v => (f k v).map g := by
  rw [collect, collect, ← Multiset.coe_mapAddMonoidHom, map_sum]
  refine Finset.sum_congr rfl fun k _ => ?_
  cases m.find k <;> simp

variable [DecidableEq K]

lemma collect_of_find (h : m.find k = some v) : m.collect f = f k v + (m.erase k).collect f := by
  have hdom : m.finite.toFinset = Insert.insert k (m.erase k).finite.toFinset := by
    ext j
    by_cases hj : j = k
    · simp [hj, h]
    · simp [hj, find_erase_of_ne]
  have hnot : k ∉ (m.erase k).finite.toFinset := by simp
  rw [collect, hdom, Finset.sum_insert hnot, h, collect]
  congr 1
  refine Finset.sum_congr rfl fun j hj => ?_
  have hne : j ≠ k := fun he => hnot (he ▸ hj)
  rw [find_erase_of_ne m hne]

lemma collect_insert (m : Store K V) (f : K → V → Multiset X) (k : K) (v : V) :
    (m.insert k v).collect f = f k v + (m.erase k).collect f := by
  rw [collect_of_find (find_insert_self m k v), erase_insert]

lemma mem_collect {x : X} : x ∈ m.collect f ↔ ∃ k v, m.find k = some v ∧ x ∈ f k v := by
  constructor
  · intro hx
    obtain ⟨k, hk, hx⟩ := Multiset.mem_sum.mp hx
    cases hv : m.find k with
    | none => simp [hv] at hx
    | some v => exact ⟨k, v, hv, by simpa [hv] using hx⟩
  · rintro ⟨k, v, hk, hx⟩
    rw [collect_of_find hk]
    exact Multiset.mem_add.mpr (Or.inl hx)

end Store

end Yggstack.Library
