import Yggstack.Library.Runs

/-! First-in first-out queues: one that remembers all that ever entered and left it, of which a
program reads `content` only, and the law that runs keep when a part of their state is such a
queue. -/

namespace Yggstack.Library

structure Fifo (α : Type) where
  put : List α
  got : List α
  content : List α
  conserved : put = got ++ content

namespace Fifo

variable {α β : Type} {q q' : Fifo α} {x : α} {xs : List α}

def empty : Fifo α := ⟨[], [], [], rfl⟩

def push (q : Fifo α) (x : α) : Fifo α where
  put := q.put ++ [x]
  got := q.got
  content := q.content ++ [x]
  conserved := by rw [q.conserved, List.append_assoc]

def pushAll (q : Fifo α) (xs : List α) : Fifo α where
  put := q.put ++ xs
  got := q.got
  content := q.content ++ xs
  conserved := by rw [q.conserved, List.append_assoc]

def take (q : Fifo α) (n : ℕ) : Fifo α where
  put := q.put
  got := q.got ++ q.content.take n
  content := q.content.drop n
  conserved := by rw [q.conserved, List.append_assoc, List.take_append_drop]

def pop (q : Fifo α) : Option (α × Fifo α) :=
  match q.content with
  | [] => none
  | x :: _ => some (x, q.take 1)

def drain (q : Fifo α) : List α × Fifo α := (q.content, q.take q.content.length)

def hasRoom (q : Fifo α) (bound : ℕ) : Bool := decide (q.content.length < bound)

@[simp] lemma put_empty : (empty : Fifo α).put = [] := rfl
@[simp] lemma got_empty : (empty : Fifo α).got = [] := rfl
@[simp] lemma content_empty : (empty : Fifo α).content = [] := rfl

@[simp] lemma put_push : (q.push x).put = q.put ++ [x] := rfl
@[simp] lemma got_push : (q.push x).got = q.got := rfl
@[simp] lemma content_push : (q.push x).content = q.content ++ [x] := rfl

@[simp] lemma put_pushAll : (q.pushAll xs).put = q.put ++ xs := rfl
@[simp] lemma got_pushAll : (q.pushAll xs).got = q.got := rfl
@[simp] lemma content_pushAll : (q.pushAll xs).content = q.content ++ xs := rfl

@[simp] lemma put_take (n : ℕ) : (q.take n).put = q.put := rfl
@[simp] lemma got_take (n : ℕ) : (q.take n).got = q.got ++ q.content.take n := rfl
@[simp] lemma content_take (n : ℕ) : (q.take n).content = q.content.drop n := rfl

@[simp] lemma fst_drain : q.drain.1 = q.content := rfl
@[simp] lemma put_drain : q.drain.2.put = q.put := rfl

@[simp] lemma got_drain : q.drain.2.got = q.put := by simp [drain, q.conserved]

@[simp] lemma content_drain : q.drain.2.content = [] := by simp [drain]

lemma pop_eq_none_iff : q.pop = none ↔ q.content = [] := by
  unfold pop
  cases q.content <;> simp

lemma pop_spec (h : q.pop = some (x, q')) :
    q.content = x :: q'.content ∧ q'.put = q.put ∧ q'.got = q.got ++ [x] := by
  unfold pop at h
  split at h
  · cases h
  · rename_i y ys hc
    cases h
    exact ⟨by simp [hc], rfl, by simp [hc]⟩

lemma got_eq_put (h : q.content = []) : q.got = q.put := by rw [q.conserved, h, List.append_nil]

end Fifo

section Along

variable {S A ε α β : Type} {exec : S → A → Except ε S} {s t : S} {as : List A}

/-- What the steps of a run yield, in order. -/
def along (exec : S → A → Except ε S) (yield : S → A → List β) : S → List A → List β
  | _, [] => []
  | s, a :: as => yield s a ++
    match exec s a with
    | .ok t => along exec yield t as
    | .error _ => []

lemma along_cons {a : A} (h : exec s a = .ok t) (yield : S → A → List β) :
    along exec yield s (a :: as) = yield s a ++ along exec yield t as := by
  rw [along, h]

lemma along_filterMap (g : α → Option β) (yield : S → A → List α) (s : S) (as : List A) :
    along exec (fun s a => (yield s a).filterMap g) s as =
      (along exec yield s as).filterMap g := by
  induction as generalizing s with
  | nil => rfl
  | cons a as ih =>
    simp only [along, List.filterMap_append]
    cases exec s a with
    | ok t => simp only [ih]
    | error e => rfl

/-- Where every step takes from the front of a buffer and adds at its end, so does the run. -/
lemma along_conserved {step : S → A → S → Prop} {I : S → Prop} {buffer : S → List β}
    {added taken : S → A → List β} (h : Run step s as t) (hs : I s)
    (hstep : ∀ s a t, I s → step s a t →
      exec s a = .ok t ∧ I t ∧ buffer s ++ added s a = taken s a ++ buffer t) :
    buffer s ++ along exec added s as = along exec taken s as ++ buffer t := by
  induction h with
  | nil s => simp [along]
  | @cons s u t a as ha _ ih =>
    obtain ⟨hexec, hu, heq⟩ := hstep _ _ _ hs ha
    rw [along_cons hexec, along_cons hexec, ← List.append_assoc, heq, List.append_assoc, ih hu,
      List.append_assoc]

lemma along_congr {step : S → A → S → Prop} {I : S → Prop} {f g : S → A → List β}
    (h : Run step s as t) (hs : I s)
    (hstep : ∀ s a t, I s → step s a t → exec s a = .ok t ∧ I t ∧ f s a = g s a) :
    along exec f s as = along exec g s as := by
  induction h with
  | nil => rfl
  | cons ha _ ih =>
    obtain ⟨hexec, hu, heq⟩ := hstep _ _ _ hs ha
    rw [along_cons hexec, along_cons hexec, heq, ih hu]

end Along

end Yggstack.Library
