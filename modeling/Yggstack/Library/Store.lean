import Mathlib.Data.Set.Finite.Basic
import Mathlib.Data.Set.Finite.Lattice

/-! Finite maps given by their lookup function. Equality is equality of lookups, and an
infinite key type always has an unused key. -/

namespace Yggstack.Library

@[ext] structure Store (K V : Type) where
  find : K → Option V
  finite : {k | find k ≠ none}.Finite

namespace Store

variable {K V : Type}

def empty : Store K V where
  find _ := none
  finite := by simp

def retain (m : Store K V) (p : K → V → Bool) : Store K V where
  find k := (m.find k).filter (p k)
  finite := m.finite.subset (by
    intro k hk
    simp only [Set.mem_ofPred_eq] at hk ⊢
    intro hn
    exact hk (by simp [hn]))

def mapValues (m : Store K V) (f : K → V → V) : Store K V where
  find k := (m.find k).map (f k)
  finite := m.finite.subset (by
    intro k hk
    simp only [Set.mem_ofPred_eq, ne_eq, Option.map_eq_none_iff] at hk ⊢
    exact hk)

@[simp] lemma find_empty (k : K) : (empty : Store K V).find k = none := rfl

@[simp] lemma find_retain (m : Store K V) (p : K → V → Bool) (k : K) :
    (m.retain p).find k = (m.find k).filter (p k) := rfl

@[simp] lemma find_mapValues (m : Store K V) (f : K → V → V) (k : K) :
    (m.mapValues f).find k = (m.find k).map (f k) := rfl

/-- All entries of the map, in some order. -/
structure Enumerates (m : Store K V) (entries : List (K × V)) : Prop where
  nodup : (entries.map Prod.fst).Nodup
  mem_iff : ∀ k v, (k, v) ∈ entries ↔ m.find k = some v

lemma Enumerates.perm {m : Store K V} {entries entries' : List (K × V)}
    (h : m.Enumerates entries) (h' : m.Enumerates entries') : entries.Perm entries' := by
  apply (List.perm_ext_iff_of_nodup (List.Nodup.of_map _ h.nodup)
    (List.Nodup.of_map _ h'.nodup)).mpr
  rintro ⟨k, v⟩
  rw [h.mem_iff, h'.mem_iff]

lemma enumerates_empty : (empty : Store K V).Enumerates [] :=
  ⟨List.nodup_nil, fun k v => by simp⟩

variable [DecidableEq K]

def insert (m : Store K V) (k : K) (v : V) : Store K V where
  find j := if j = k then some v else m.find j
  finite := (m.finite.insert k).subset (by
    intro j hj
    by_cases h : j = k
    · exact Or.inl h
    · exact Or.inr (by simpa only [Set.mem_ofPred_eq, if_neg h] using hj))

def erase (m : Store K V) (k : K) : Store K V where
  find j := if j = k then none else m.find j
  finite := m.finite.subset (by
    intro j hj
    by_cases h : j = k
    · simp [h] at hj
    · simpa only [Set.mem_ofPred_eq, if_neg h] using hj)

lemma find_insert (m : Store K V) (k j : K) (v : V) :
    (m.insert k v).find j = if j = k then some v else m.find j := rfl

lemma find_erase (m : Store K V) (k j : K) :
    (m.erase k).find j = if j = k then none else m.find j := rfl

@[simp] lemma find_insert_self (m : Store K V) (k : K) (v : V) :
    (m.insert k v).find k = some v := by
  simp [find_insert]

@[simp] lemma find_erase_self (m : Store K V) (k : K) : (m.erase k).find k = none := by
  simp [find_erase]

lemma find_insert_of_ne (m : Store K V) {k j : K} (v : V) (h : j ≠ k) :
    (m.insert k v).find j = m.find j := by
  simp [find_insert, h]

lemma find_insert_cases {m : Store K V} {k j : K} {v w : V} (h : (m.insert k v).find j = some w) :
    j = k ∧ w = v ∨ j ≠ k ∧ m.find j = some w := by
  rw [find_insert] at h
  split at h
  · next hj => exact .inl ⟨hj, (Option.some.inj h).symm⟩
  · next hj => exact .inr ⟨hj, h⟩

lemma find_erase_of_ne (m : Store K V) {k j : K} (h : j ≠ k) : (m.erase k).find j = m.find j := by
  simp [find_erase, h]

lemma Enumerates.insert {m : Store K V} {entries : List (K × V)} (h : m.Enumerates entries) {k : K}
    (hk : m.find k = none) (v : V) : (m.insert k v).Enumerates ((k, v) :: entries) := by
  constructor
  · rw [List.map_cons, List.nodup_cons]
    refine ⟨?_, h.nodup⟩
    intro hm
    obtain ⟨⟨k', v'⟩, hmem, rfl⟩ := List.mem_map.mp hm
    rw [(h.mem_iff k' v').mp hmem] at hk
    cases hk
  · intro k' v'
    rw [List.mem_cons, h.mem_iff, find_insert, Prod.mk.injEq]
    by_cases he : k' = k
    · simp [he, hk, eq_comm]
    · simp [he]

lemma enumerates_single (k : K) (v : V) : ((empty : Store K V).insert k v).Enumerates [(k, v)] :=
  enumerates_empty.insert (find_empty k) v

@[simp] lemma insert_insert (m : Store K V) (k : K) (v w : V) :
    (m.insert k v).insert k w = m.insert k w := by
  ext j : 2
  simp only [find_insert]
  split <;> rfl

@[simp] lemma erase_insert (m : Store K V) (k : K) (v : V) :
    (m.insert k v).erase k = m.erase k := by
  ext j : 2
  simp only [find_insert, find_erase]
  split <;> rfl

lemma insert_of_find {m : Store K V} {k : K} {v : V} (h : m.find k = some v) :
    m.insert k v = m := by
  ext j : 2
  rw [find_insert]
  split
  · simp_all
  · rfl

lemma erase_of_find {m : Store K V} {k : K} (h : m.find k = none) : m.erase k = m := by
  ext j : 2
  rw [find_erase]
  split
  · simp_all
  · rfl

def eraseAll (m : Store K V) (ks : List K) : Store K V := ks.foldl erase m

@[simp] lemma eraseAll_nil (m : Store K V) : m.eraseAll [] = m := rfl

lemma eraseAll_cons (m : Store K V) (k : K) (ks : List K) :
    m.eraseAll (k :: ks) = (m.erase k).eraseAll ks := rfl

lemma find_eraseAll (m : Store K V) (ks : List K) (j : K) :
    (m.eraseAll ks).find j = if j ∈ ks then none else m.find j := by
  induction ks generalizing m with
  | nil => simp
  | cons k ks ih =>
    rw [eraseAll_cons, ih, find_erase]
    by_cases h : j = k
    · simp [h]
    · simp [h]

lemma eraseAll_perm (m : Store K V) {ks js : List K} (h : ks.Perm js) :
    m.eraseAll ks = m.eraseAll js := by
  ext j : 2
  simp only [find_eraseAll, h.mem_iff]

lemma eraseAll_insert_of_mem (m : Store K V) {k : K} {ks : List K} (v : V) (h : k ∈ ks) :
    (m.insert k v).eraseAll ks = m.eraseAll ks := by
  ext j : 2
  simp only [find_eraseAll, find_insert]
  split
  · rfl
  · next hj => rw [if_neg (fun he : j = k => hj (he ▸ h))]

lemma eraseAll_insert_of_not_mem (m : Store K V) {k : K} {ks : List K} (v : V) (h : k ∉ ks) :
    (m.insert k v).eraseAll ks = (m.eraseAll ks).insert k v := by
  ext j : 2
  simp only [find_eraseAll, find_insert]
  by_cases hj : j = k
  · simp [hj, h]
  · simp [hj]

lemma erase_eraseAll (m : Store K V) (k : K) (ks : List K) :
    (m.eraseAll ks).erase k = (m.erase k).eraseAll ks := by
  ext j : 2
  simp only [find_eraseAll, find_erase]
  by_cases hj : j = k
  · simp [hj]
  · simp [hj]

lemma mapValues_eraseAll (m : Store K V) (f : K → V → V) (ks : List K) :
    (m.eraseAll ks).mapValues f = (m.mapValues f).eraseAll ks := by
  ext j : 2
  simp only [find_eraseAll, find_mapValues]
  split <;> rfl

lemma insert_erase_of_ne (m : Store K V) {k j : K} (v : V) (h : k ≠ j) :
    (m.erase j).insert k v = (m.insert k v).erase j := by
  have hk : k ∉ [j] := by simpa using h
  exact (eraseAll_insert_of_not_mem m v hk).symm

def insertAll (m : Store K V) (ks : List K) (v : V) : Store K V :=
  ks.foldl (fun m k => m.insert k v) m

@[simp] lemma insertAll_nil (m : Store K V) (v : V) : m.insertAll [] v = m := rfl

lemma insertAll_cons (m : Store K V) (k : K) (ks : List K) (v : V) :
    m.insertAll (k :: ks) v = (m.insert k v).insertAll ks v := rfl

lemma find_insertAll (m : Store K V) (ks : List K) (v : V) (j : K) :
    (m.insertAll ks v).find j = if j ∈ ks then some v else m.find j := by
  induction ks generalizing m with
  | nil => simp
  | cons k ks ih =>
    rw [insertAll_cons, ih, find_insert]
    by_cases h : j = k
    · simp [h]
    · simp [h]

end Store

end Yggstack.Library
