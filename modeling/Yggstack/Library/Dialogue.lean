import Yggstack.Library.Runs

/-! Programs that talk to a peer over a stream and put questions to their surroundings. A read or a
write of many items is done piece by piece, and the pieces are not the program's choice. -/

namespace Yggstack.Library

inductive Dialogue (ε B Q : Type) (R : Q → Type) (α : Type) where
  | done (r : Except ε α)
  | readExact (n : ℕ) (next : Except ε (List B) → Dialogue ε B Q R α)
  | writeAll (items : List B) (next : Except ε Unit → Dialogue ε B Q R α)
  | ask (q : Q) (next : R q → Dialogue ε B Q R α)

namespace Dialogue

variable {ε B Q : Type} {R : Q → Type} {α β : Type}

def bind : Dialogue ε B Q R α → (α → Dialogue ε B Q R β) → Dialogue ε B Q R β
  | .done (.ok a), f => f a
  | .done (.error e), _ => .done (.error e)
  | .readExact n next, f => .readExact n fun r => (next r).bind f
  | .writeAll items next, f => .writeAll items fun r => (next r).bind f
  | .ask q next, f => .ask q fun a => (next a).bind f

instance : Monad (Dialogue ε B Q R) where
  pure a := .done (.ok a)
  bind := bind

def fail (e : ε) : Dialogue ε B Q R α := .done (.error e)

def read (n : ℕ) : Dialogue ε B Q R (List B) := .readExact n .done

def write (items : List B) : Dialogue ε B Q R Unit := .writeAll items .done

def question (q : Q) : Dialogue ε B Q R (R q) := .ask q fun a => .done (.ok a)

def attempt : Dialogue ε B Q R α → Dialogue ε B Q R (Except ε α)
  | .done r => .done (.ok r)
  | .readExact n next => .readExact n fun r => (next r).attempt
  | .writeAll items next => .writeAll items fun r => (next r).attempt
  | .ask q next => .ask q fun a => (next a).attempt

inductive Item (B Q : Type) (R : Q → Type) where
  | received (b : B)
  | sent (b : B)
  | asked (q : Q) (a : R q)

inductive Event (ε : Type) where
  | moved
  | proceeded
  | ended
  | failed (e : ε)

/-- A program on its way, and what the peer has sent or will send and was not read yet. -/
structure Config (ε B Q : Type) (R : Q → Type) (α : Type) where
  prog : Dialogue ε B Q R α
  input : List B
  log : List (Item B Q R)

def start (prog : Dialogue ε B Q R α) (input : List B) : Config ε B Q R α := ⟨prog, input, []⟩

inductive Step (eof : ε) : Config ε B Q R α → Event ε → Config ε B Q R α → Prop
  | read {n : ℕ} {next : Except ε (List B) → Dialogue ε B Q R α} {piece rest : List B}
      {log : List (Item B Q R)} : piece ≠ [] → piece.length ≤ n →
      Step eof ⟨.readExact n next, piece ++ rest, log⟩ .moved
        ⟨.readExact (n - piece.length) fun r => next (r.map (piece ++ ·)), rest,
          log ++ piece.map .received⟩
  | filled {next : Except ε (List B) → Dialogue ε B Q R α} {input : List B}
      {log : List (Item B Q R)} :
      Step eof ⟨.readExact 0 next, input, log⟩ .proceeded ⟨next (.ok []), input, log⟩
  | eof {n : ℕ} {next : Except ε (List B) → Dialogue ε B Q R α} {log : List (Item B Q R)} : 0 < n →
      Step eof ⟨.readExact n next, [], log⟩ .ended ⟨next (.error eof), [], log⟩
  | readError {n : ℕ} {next : Except ε (List B) → Dialogue ε B Q R α} {input : List B}
      {log : List (Item B Q R)} (e : ε) : 0 < n →
      Step eof ⟨.readExact n next, input, log⟩ (.failed e) ⟨next (.error e), input, log⟩
  | write {piece rest : List B} {next : Except ε Unit → Dialogue ε B Q R α} {input : List B}
      {log : List (Item B Q R)} : piece ≠ [] →
      Step eof ⟨.writeAll (piece ++ rest) next, input, log⟩ .moved
        ⟨.writeAll rest next, input, log ++ piece.map .sent⟩
  | flushed {next : Except ε Unit → Dialogue ε B Q R α} {input : List B} {log : List (Item B Q R)} :
      Step eof ⟨.writeAll [] next, input, log⟩ .proceeded ⟨next (.ok ()), input, log⟩
  | writeError {items : List B} {next : Except ε Unit → Dialogue ε B Q R α} {input : List B}
      {log : List (Item B Q R)} (e : ε) : items ≠ [] →
      Step eof ⟨.writeAll items next, input, log⟩ (.failed e) ⟨next (.error e), input, log⟩
  | answer {q : Q} {next : R q → Dialogue ε B Q R α} {input : List B} {log : List (Item B Q R)}
      (a : R q) : Step eof ⟨.ask q next, input, log⟩ .moved ⟨next a, input, log ++ [.asked q a]⟩

def CleanStep (eof : ε) (c : Config ε B Q R α) (ev : Event ε) (c' : Config ε B Q R α) : Prop :=
  Step eof c ev c' ∧ ∀ e, ev ≠ .failed e

section Rules

variable {eof : ε} {P : Config ε B Q R α → Prop} {items rest input : List B}
  {log : List (Item B Q R)}

lemma not_cleanStep_done {r : Except ε α} {ev : Event ε} {c : Config ε B Q R α} :
    ¬CleanStep eof ⟨.done r, input, log⟩ ev c := by
  rintro ⟨h, -⟩
  cases h

lemma step_readExact {n : ℕ} {next : Except ε (List B) → Dialogue ε B Q R α} {ev : Event ε}
    {c : Config ε B Q R α} (h : CleanStep eof ⟨.readExact n next, input, log⟩ ev c) :
    (n = 0 ∧ c = ⟨next (.ok []), input, log⟩) ∨ (0 < n ∧ input = []) ∨
      ∃ piece rest, piece ≠ [] ∧ piece.length ≤ n ∧ input = piece ++ rest ∧
        c = ⟨.readExact (n - piece.length) fun r => next (r.map (piece ++ ·)), rest,
          log ++ piece.map .received⟩ := by
  obtain ⟨h, hclean⟩ := h
  generalize hc : (⟨.readExact n next, input, log⟩ : Config ε B Q R α) = c₀ at h
  cases h with
  | read hne hle =>
    cases hc
    exact .inr (.inr ⟨_, _, hne, hle, rfl, rfl⟩)
  | filled =>
    cases hc
    exact .inl ⟨rfl, rfl⟩
  | eof hn =>
    cases hc
    exact .inr (.inl ⟨hn, rfl⟩)
  | readError e => exact absurd rfl (hclean e)
  | write | flushed | answer => cases hc
  | writeError e => exact absurd rfl (hclean e)

lemma step_writeAll {next : Except ε Unit → Dialogue ε B Q R α} {ev : Event ε}
    {c : Config ε B Q R α} (h : CleanStep eof ⟨.writeAll items next, input, log⟩ ev c) :
    (items = [] ∧ c = ⟨next (.ok ()), input, log⟩) ∨
      ∃ piece rest, piece ≠ [] ∧ items = piece ++ rest ∧
        c = ⟨.writeAll rest next, input, log ++ piece.map .sent⟩ := by
  obtain ⟨h, hclean⟩ := h
  generalize hc : (⟨.writeAll items next, input, log⟩ : Config ε B Q R α) = c₀ at h
  cases h with
  | write hne =>
    cases hc
    exact .inr ⟨_, _, hne, rfl, rfl⟩
  | flushed =>
    cases hc
    exact .inl ⟨rfl, rfl⟩
  | writeError e => exact absurd rfl (hclean e)
  | read | filled | eof | answer => cases hc
  | readError e => exact absurd rfl (hclean e)

theorem inevitable_readExact {n : ℕ} {next : Except ε (List B) → Dialogue ε B Q R α}
    (hn : items.length = n)
    (h : Inevitable (CleanStep eof) P ⟨next (.ok items), rest, log ++ items.map .received⟩) :
    Inevitable (CleanStep eof) P ⟨.readExact n next, items ++ rest, log⟩ := by
  -- On how much is to be read yet: a piece leaves a smaller read, whose `next` puts the piece back.
  induction n using Nat.strong_induction_on generalizing items next log with
  | _ n ih =>
    by_cases hnil : items = []
    · subst hnil
      obtain rfl : n = 0 := hn.symm
      refine .next ⟨.filled, nofun⟩ ?_
      intro ev c hstep
      obtain ⟨-, rfl⟩ | ⟨hpos, -⟩ | ⟨piece, rest', hne, hle, -, -⟩ := step_readExact hstep
      · simpa using h
      · omega
      · exact absurd (List.length_eq_zero_iff.mp (by omega)) hne
    · have hpos : 0 < items.length := List.length_pos_iff.mpr hnil
      refine .next ⟨.read hnil (by omega), nofun⟩ ?_
      intro ev c hstep
      obtain ⟨rfl, -⟩ | ⟨-, hempty⟩ | ⟨piece, rest', hne, hle, hinput, rfl⟩ := step_readExact hstep
      · omega
      · exact absurd (List.append_eq_nil_iff.mp hempty).1 hnil
      · -- The piece lies within the items.
        obtain ⟨left, rfl, rfl⟩ : ∃ left, items = piece ++ left ∧ rest' = left ++ rest := by
          rcases List.append_eq_append_iff.mp hinput with ⟨left, rfl, hrest⟩ | ⟨left, rfl, rfl⟩
          · have hleft : left = [] := by
              apply List.length_eq_zero_iff.mp
              rw [List.length_append] at hle
              omega
            subst hleft
            exact ⟨[], by simp, by simpa using hrest.symm⟩
          · exact ⟨left, rfl, rfl⟩
        have hlen := List.length_pos_iff.mpr hne
        rw [List.length_append] at hn
        apply ih _ (by omega) (by omega)
        simpa [Except.map] using h

theorem inevitable_writeAll {next : Except ε Unit → Dialogue ε B Q R α}
    (h : Inevitable (CleanStep eof) P ⟨next (.ok ()), input, log ++ items.map .sent⟩) :
    Inevitable (CleanStep eof) P ⟨.writeAll items next, input, log⟩ := by
  induction hlen : items.length using Nat.strong_induction_on generalizing items log with
  | _ n ih =>
    subst hlen
    by_cases hnil : items = []
    · subst hnil
      refine .next ⟨.flushed, nofun⟩ ?_
      intro ev c hstep
      obtain ⟨-, rfl⟩ | ⟨piece, rest, hne, heq, -⟩ := step_writeAll hstep
      · simpa using h
      · exact absurd (List.append_eq_nil_iff.mp heq.symm).1 hne
    · have hfirst : CleanStep eof ⟨.writeAll (items ++ []) next, input, log⟩ .moved
          ⟨.writeAll [] next, input, log ++ items.map .sent⟩ := ⟨.write hnil, nofun⟩
      rw [List.append_nil] at hfirst
      refine .next hfirst ?_
      intro ev c hstep
      obtain ⟨hempty, -⟩ | ⟨piece, rest, hne, rfl, rfl⟩ := step_writeAll hstep
      · exact absurd hempty hnil
      · have hpos := List.length_pos_iff.mpr hne
        refine ih rest.length (by simpa using hpos) ?_ rfl
        simpa using h

theorem inevitable_ask [∀ q, Nonempty (R q)] {q : Q} {next : R q → Dialogue ε B Q R α}
    (h : ∀ a, Inevitable (CleanStep eof) P ⟨next a, input, log ++ [.asked q a]⟩) :
    Inevitable (CleanStep eof) P ⟨.ask q next, input, log⟩ := by
  obtain ⟨a⟩ := ‹∀ q, Nonempty (R q)› q
  refine .next ⟨.answer a, nofun⟩ ?_
  rintro ev c ⟨hstep, -⟩
  cases hstep
  exact h _

end Rules

end Dialogue

end Yggstack.Library
