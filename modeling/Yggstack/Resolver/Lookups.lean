import Yggstack.Resolver.Failover

/-! Lookups that share one cursor: the order in which each walks the servers, where the cursor ends
up, and when a moved cursor is sure to come back to the first server. -/

namespace Yggstack.Resolver

open Library

namespace FailoverState

variable {f : FailoverState} {now idx len : ℕ}

lemma startIndex_current : (f.startIndex now).2.current = (f.startIndex now).1 := by
  unfold startIndex
  split
  · split <;> rfl
  · rfl

lemma startIndex_preferredDown : (f.startIndex now).2.preferredDown = f.preferredDown := by
  unfold startIndex
  split
  · split <;> rfl
  · rfl

lemma startIndex_retry : (f.startIndex now).2.retryPreferredAfter = f.retryPreferredAfter := by
  unfold startIndex
  split
  · split <;> rfl
  · rfl

lemma startIndex_eq_zero_or (f : FailoverState) (now : ℕ) :
    (f.startIndex now).1 = 0 ∨ (f.startIndex now).1 = f.current := by
  unfold startIndex
  split
  · split
    · exact Or.inl rfl
    · exact Or.inr rfl
  · exact Or.inr rfl

lemma startIndex_lt (hlen : 0 < len) (h : f.current < len) (now : ℕ) :
    (f.startIndex now).1 < len := by
  rcases f.startIndex_eq_zero_or now with he | he
  · rw [he]
    exact hlen
  · rw [he]
    exact h

lemma noteFailure_current_lt (hlen : 0 < len) (h : f.current < len) :
    (f.noteFailure now idx len).current < len := by
  simp only [noteFailure]
  split
  · exact Nat.mod_lt _ hlen
  · exact h

end FailoverState

namespace Lookup

inductive Walked (l : Lookup) : Prop
  | ongoing : l.result = none → (∀ c ∈ l.contacted, c.attempt.answer? = none) →
      l.contacted.length < l.query.servers.length → Walked l
  | answered {pre : List Contact} {c : Contact} {a : DnsAnswer} :
      l.contacted = pre ++ [c] → (∀ b ∈ pre, b.attempt.answer? = none) →
      c.attempt.answer? = some a → l.result = some (l.query.returns a) → Walked l
  | exhausted {pre : List Contact} {c : Contact} :
      l.contacted = pre ++ [c] → (∀ b ∈ pre, b.attempt.answer? = none) →
      c.attempt.answer? = none → l.contacted.length = l.query.servers.length →
      l.result = some (.error (l.query.allFailedError (l.query.errorOf c.attempt))) → Walked l

structure InOrder (l : Lookup) : Prop where
  start_lt : l.start < l.query.servers.length
  length_le : l.contacted.length ≤ l.query.servers.length
  cyclic : l.contacted.map Contact.server =
    (List.range l.contacted.length).map fun i => (l.start + i) % l.query.servers.length

variable {l : Lookup} {f : FailoverState} {now : ℕ} {r : Attempt}

lemma InOrder.nodup (h : l.InOrder) : (l.contacted.map Contact.server).Nodup := by
  rw [h.cyclic]
  refine List.Nodup.map_on ?_ List.nodup_range
  intro i hi j hj he
  have hi' : i < l.query.servers.length := lt_of_lt_of_le (List.mem_range.mp hi) h.length_le
  have hj' : j < l.query.servers.length := lt_of_lt_of_le (List.mem_range.mp hj) h.length_le
  have hmod : i ≡ j [MOD l.query.servers.length] := Nat.ModEq.add_left_cancel' l.start he
  exact Nat.ModEq.eq_of_lt_of_lt hmod hi' hj'

lemma Walked.length_lt (h : l.Walked) (hr : l.result = none) :
    l.contacted.length < l.query.servers.length := by
  cases h with
  | ongoing _ _ hlen => exact hlen
  | answered _ _ _ he => rw [hr] at he; cases he
  | exhausted _ _ _ _ he => rw [hr] at he; cases he

lemma Walked.failed (h : l.Walked) (hr : l.result = none) :
    ∀ c ∈ l.contacted, c.attempt.answer? = none := by
  cases h with
  | ongoing _ hf _ => exact hf
  | answered _ _ _ he => rw [hr] at he; cases he
  | exhausted _ _ _ _ he => rw [hr] at he; cases he

lemma InOrder.turn (h : l.InOrder) (hlen : l.contacted.length < l.query.servers.length)
    (f : FailoverState) (now : ℕ) (r : Attempt) :
    (l.turn f now r).1.InOrder := by
  constructor
  · rw [turn_start, turn_query]
    exact h.start_lt
  · rw [turn_contacted, turn_query]
    simpa [contact] using hlen
  · rw [turn_contacted, turn_query, turn_start]
    simp only [contact, List.map_append, List.length_append, List.length_singleton,
      List.range_succ, h.cyclic]
    rfl

lemma Walked.turn (h : l.Walked) (hr : l.result = none) (f : FailoverState) (now : ℕ)
    (r : Attempt) : (l.turn f now r).1.Walked := by
  have hf := h.failed hr
  have hlen := h.length_lt hr
  rcases ha : r.answer? with _ | a
  · rw [turn_failed ha]
    by_cases he : l.contacted.length + 1 = l.query.servers.length
    · have hlast : l.contact now r = l.contacted ++ [⟨l.idx, r, now⟩] := rfl
      apply Walked.exhausted hlast hf ha
      · simpa [next, contact] using he
      · simp [next, he]
    · apply Walked.ongoing
      · simp [next, he]
      · intro c hc
        rcases List.mem_append.mp hc with hc | hc
        · exact hf c hc
        · rw [List.mem_singleton.mp hc]
          exact ha
      · simp only [next, contact, List.length_append, List.length_singleton]
        omega
  · rw [turn_answered ha]
    have hlast : l.contact now r = l.contacted ++ [⟨l.idx, r, now⟩] := rfl
    exact .answered hlast hf ha rfl

lemma inOrder_begin {q : Query} {start : ℕ} (h : start < q.servers.length) :
    (Lookup.begin q now start).InOrder :=
  ⟨h, Nat.zero_le _, rfl⟩

lemma walked_begin {q : Query} {start : ℕ} (h : start < q.servers.length) :
    (Lookup.begin q now start).Walked := by
  have hq : q.servers.length ≠ 0 := by omega
  apply Walked.ongoing
  · simp [Lookup.begin, hq]
  · intro c hc
    cases hc
  · exact Nat.pos_of_ne_zero hq

end Lookup

/-! A lookup that no other one interferes with. -/

structure Lookup.Leads (f₀ : FailoverState) (l : Lookup) (f : FailoverState) : Prop where
  current : f.current = l.idx
  retry : f.retryPreferredAfter = f₀.retryPreferredAfter
  marked : ∀ c ∈ l.contacted, c.server = 0 → f.preferredDown = some (f₀.preferredDown.getD c.time)
  kept : (∀ c ∈ l.contacted, c.server ≠ 0) → f.preferredDown = f₀.preferredDown

structure Lookup.Leaves (f₀ : FailoverState) (l : Lookup) (f : FailoverState) : Prop where
  returned : l.result.isSome
  retry : f.retryPreferredAfter = f₀.retryPreferredAfter
  answered : ∀ c ∈ l.contacted, c.attempt.answer? ≠ none → f.current = c.server
  exhausted : (∀ c ∈ l.contacted, c.attempt.answer? = none) → f.current = l.start
  cleared : ∀ c ∈ l.contacted, c.server = 0 → c.attempt.answer? ≠ none → f.preferredDown = none
  marked : ∀ c ∈ l.contacted, c.server = 0 → c.attempt.answer? = none →
    f.preferredDown = some (f₀.preferredDown.getD c.time)
  kept : (∀ c ∈ l.contacted, c.server ≠ 0) → f.preferredDown = f₀.preferredDown

namespace Lookup

variable {f₀ f : FailoverState} {l : Lookup} {now : ℕ} {r : Attempt}

lemma idx_next {e : String} :
    (l.next now r e).idx = (l.idx + 1) % l.query.servers.length := by
  simp only [idx, next, contact, List.length_append, List.length_singleton]
  rw [Nat.mod_add_mod, Nat.add_assoc]

lemma InOrder.idx_new (h : l.InOrder) (hlen : l.contacted.length < l.query.servers.length) :
    ∀ b ∈ l.contacted, b.server ≠ l.idx := by
  intro b hb he
  have hn := (h.turn hlen ⟨0, none, 0⟩ 0 .timedOut).nodup
  rw [turn_contacted, contact, List.map_append, List.nodup_append] at hn
  exact hn.2.2 _ (List.mem_map_of_mem hb) l.idx (by simp) he

lemma Leads.next (h : l.Leads f₀ f) (hnew : ∀ b ∈ l.contacted, b.server ≠ l.idx) (now : ℕ)
    (r : Attempt) (e : String) :
    (l.next now r e).Leads f₀ (f.noteFailure now l.idx l.query.servers.length) := by
  constructor
  · rw [idx_next]
    simp [FailoverState.noteFailure, h.current]
  · exact h.retry
  · intro c hc h0
    rcases List.mem_append.mp hc with hc | hc
    · have hidx : l.idx ≠ 0 := fun he => hnew c hc (h0.trans he.symm)
      simp only [FailoverState.noteFailure, if_neg hidx]
      exact h.marked c hc h0
    · obtain rfl := List.mem_singleton.mp hc
      simp only [FailoverState.noteFailure, show l.idx = 0 from h0, if_true]
      rw [h.kept fun b hb hb0 => hnew b hb (hb0.trans h0.symm)]
  · intro hc
    have hidx : l.idx ≠ 0 :=
      hc ⟨l.idx, r, now⟩ (List.mem_append_right _ (List.mem_singleton.mpr rfl))
    simp only [FailoverState.noteFailure, if_neg hidx]
    exact h.kept fun b hb => hc b (List.mem_append_left _ hb)

lemma Leads.stop (h : l.Leads f₀ f) (hnew : ∀ b ∈ l.contacted, b.server ≠ l.idx)
    (hf : ∀ b ∈ l.contacted, b.attempt.answer? = none) (hr : r.answer? ≠ none)
    (result : Except String (BitVec 128)) :
    (l.stop now r result).Leaves f₀ (f.noteSuccess l.idx) := by
  have hcases : ∀ c ∈ (l.stop now r result).contacted, c ∈ l.contacted ∨ c = ⟨l.idx, r, now⟩ := by
    intro c hc
    exact (List.mem_append.mp hc).imp id List.mem_singleton.mp
  constructor
  · rfl
  · exact h.retry
  · intro c hc ha
    rcases hcases c hc with hc | rfl
    · exact absurd (hf c hc) ha
    · rfl
  · intro hall
    exact absurd (hall ⟨l.idx, r, now⟩ (List.mem_append_right _ (List.mem_singleton.mpr rfl))) hr
  · intro c hc h0 ha
    rcases hcases c hc with hc | rfl
    · exact absurd (hf c hc) ha
    · exact if_pos h0
  · intro c hc h0 ha
    rcases hcases c hc with hc | rfl
    · have hidx : l.idx ≠ 0 := fun he => hnew c hc (h0.trans he.symm)
      simp only [FailoverState.noteSuccess, if_neg hidx]
      exact h.marked c hc h0
    · exact absurd ha hr
  · intro hc
    have hidx : l.idx ≠ 0 :=
      hc ⟨l.idx, r, now⟩ (List.mem_append_right _ (List.mem_singleton.mpr rfl))
    simp only [FailoverState.noteSuccess, if_neg hidx]
    exact h.kept fun b hb => hc b (List.mem_append_left _ hb)

lemma Leads.leaves (h : l.Leads f₀ f) (hstart : l.start < l.query.servers.length)
    (hlen : l.contacted.length = l.query.servers.length)
    (hf : ∀ b ∈ l.contacted, b.attempt.answer? = none) (hr : l.result.isSome) : l.Leaves f₀ f where
  returned := hr
  retry := h.retry
  answered c hc ha := absurd (hf c hc) ha
  exhausted _ := by
    rw [h.current, idx, hlen, Nat.add_mod_right, Nat.mod_eq_of_lt hstart]
  cleared c hc h0 ha := absurd (hf c hc) ha
  marked c hc h0 _ := h.marked c hc h0
  kept := h.kept

def Follows (outcome : ℕ → Attempt) (clock : ℕ → ℕ) (l : Lookup) : Prop :=
  ∀ c ∈ l.contacted, c.attempt = outcome c.server ∧ c.time = clock c.server

structure Resolved (outcome : ℕ → Attempt) (clock : ℕ → ℕ) (f₀ : FailoverState) (l : Lookup)
    (f : FailoverState) : Prop where
  inOrder : l.InOrder
  walked : l.Walked
  follows : l.Follows outcome clock
  leaves : l.Leaves f₀ f

variable {outcome : ℕ → Attempt} {clock : ℕ → ℕ}

lemma Follows.turn (h : l.Follows outcome clock) :
    (l.turn f (clock l.idx) (outcome l.idx)).1.Follows outcome clock := by
  intro c hc
  rw [turn_contacted] at hc
  rcases List.mem_append.mp hc with hc | hc
  · exact h c hc
  · obtain rfl := List.mem_singleton.mp hc
    exact ⟨rfl, rfl⟩

lemma finish_done {n : ℕ} (h : l.result.isSome) : finish outcome clock n l f = (l, f) := by
  obtain ⟨result, hr⟩ := Option.isSome_iff_exists.mp h
  cases n with
  | zero => rfl
  | succ n => simp only [finish, hr]

lemma finish_query (n : ℕ) : (finish outcome clock n l f).1.query = l.query ∧
    (finish outcome clock n l f).1.start = l.start ∧
    (finish outcome clock n l f).1.begun = l.begun := by
  induction n generalizing l f with
  | zero => exact ⟨rfl, rfl, rfl⟩
  | succ n ih =>
    rw [finish]
    split
    · exact ⟨rfl, rfl, rfl⟩
    · obtain ⟨hq, hs, hb⟩ :=
        ih (l := (l.turn f (clock l.idx) (outcome l.idx)).1)
          (f := (l.turn f (clock l.idx) (outcome l.idx)).2)
      rw [turn_query] at hq
      rw [turn_start] at hs
      rw [turn_begun] at hb
      exact ⟨hq, hs, hb⟩

lemma finish_resolved {n : ℕ} (ho : l.InOrder) (hw : l.Walked) (hc : l.Follows outcome clock)
    (hr : l.result = none) (hl : l.Leads f₀ f)
    (hn : l.contacted.length + n = l.query.servers.length) :
    Resolved outcome clock f₀ (finish outcome clock n l f).1 (finish outcome clock n l f).2 := by
  induction n generalizing l f with
  | zero =>
    have hlen := hw.length_lt hr
    omega
  | succ n ih =>
    have hlen := hw.length_lt hr
    have hnew := ho.idx_new hlen
    have ho' := ho.turn hlen f (clock l.idx) (outcome l.idx)
    have hw' := hw.turn hr f (clock l.idx) (outcome l.idx)
    have hc' := hc.turn (f := f)
    have hstep : finish outcome clock (n + 1) l f =
        finish outcome clock n (l.turn f (clock l.idx) (outcome l.idx)).1
          (l.turn f (clock l.idx) (outcome l.idx)).2 := by
      simp only [finish, hr]
    rw [hstep]
    rcases ha : (outcome l.idx).answer? with _ | a
    · rw [turn_failed ha] at ho' hw' hc' ⊢
      have hl' := hl.next hnew (clock l.idx) (outcome l.idx)
        (l.query.errorOf (outcome l.idx))
      have hlen' : (l.next (clock l.idx) (outcome l.idx)
          (l.query.errorOf (outcome l.idx))).contacted.length = l.contacted.length + 1 := by
        simp [next, contact]
      by_cases he : l.contacted.length + 1 = l.query.servers.length
      · have hres : (l.next (clock l.idx) (outcome l.idx)
            (l.query.errorOf (outcome l.idx))).result.isSome := by
          simp [next, he]
        rw [finish_done hres]
        refine ⟨ho', hw', hc', hl'.leaves ho'.start_lt (hlen'.trans he) ?_ hres⟩
        intro b hb
        rcases List.mem_append.mp hb with hb | hb
        · exact hw.failed hr b hb
        · rw [List.mem_singleton.mp hb]
          exact ha
      · refine ih ho' hw' hc' ?_ hl' ?_
        · simp [next, he]
        · rw [hlen']
          simp only [next]
          omega
    · rw [turn_answered ha] at ho' hw' hc' ⊢
      rw [finish_done rfl]
      exact ⟨ho', hw', hc', hl.stop hnew (hw.failed hr) (by rw [ha]; simp) _⟩

end Lookup

lemma leads_begin {q : Query} {f : FailoverState} {now : ℕ}
    (hstart : (f.startIndex now).1 < q.servers.length) :
    (Lookup.begin q now (f.startIndex now).1).Leads f (f.startIndex now).2 where
  current := by
    rw [FailoverState.startIndex_current]
    simp [Lookup.idx, Lookup.begin, Nat.mod_eq_of_lt hstart]
  retry := FailoverState.startIndex_retry
  marked c hc := by cases hc
  kept _ := FailoverState.startIndex_preferredDown

lemma resolve_eq (q : Query) (f : FailoverState) (now : ℕ) (outcome : ℕ → Attempt)
    (clock : ℕ → ℕ) :
    resolveWithFailover q f now outcome clock = Lookup.finish outcome clock q.servers.length
      (Lookup.begin q now (f.startIndex now).1) (f.startIndex now).2 := rfl

lemma resolve_start (q : Query) (f : FailoverState) (now : ℕ) (outcome : ℕ → Attempt)
    (clock : ℕ → ℕ) :
    (resolveWithFailover q f now outcome clock).1.start = (f.startIndex now).1 := by
  rw [resolve_eq]
  exact (Lookup.finish_query _).2.1

lemma resolve_resolved {q : Query} {f : FailoverState} (hf : f.current < q.servers.length)
    (now : ℕ) (outcome : ℕ → Attempt) (clock : ℕ → ℕ) :
    Lookup.Resolved outcome clock f (resolveWithFailover q f now outcome clock).1
      (resolveWithFailover q f now outcome clock).2 := by
  have hpos : 0 < q.servers.length := lt_of_le_of_lt (Nat.zero_le _) hf
  have hstart := FailoverState.startIndex_lt hpos hf now
  rw [resolve_eq]
  refine Lookup.finish_resolved (Lookup.inOrder_begin hstart) (Lookup.walked_begin hstart) ?_ ?_
    (leads_begin hstart) ?_
  · intro c hc
    cases hc
  · simp [Lookup.begin, Nat.pos_iff_ne_zero.mp hpos]
  · simp [Lookup.begin]

namespace System

structure Sound (s : System) : Prop where
  current_lt : s.failover.current < s.servers.length
  servers : ∀ l ∈ s.lookups, l.query.servers = s.servers
  inOrder : ∀ l ∈ s.lookups, l.InOrder
  walked : ∀ l ∈ s.lookups, l.Walked

variable {s t : System} {a : Action}

lemma turn_current_lt {l : Lookup} {f : FailoverState} (now : ℕ) (r : Attempt)
    (h : f.current < l.query.servers.length) :
    (l.turn f now r).2.current < l.query.servers.length := by
  have hpos : 0 < l.query.servers.length := by omega
  rcases ha : r.answer? with _ | a
  · rw [Lookup.turn_failed ha]
    exact FailoverState.noteFailure_current_lt hpos h
  · rw [Lookup.turn_answered ha]
    exact Nat.mod_lt _ hpos

lemma sound_step (h : s.Sound) (hs : Step s a t) : t.Sound := by
  have hpos : 0 < s.servers.length := lt_of_le_of_lt (Nat.zero_le _) h.current_lt
  cases hs with
  | begin name now =>
    have hstart := FailoverState.startIndex_lt hpos h.current_lt now
    constructor
    · rw [FailoverState.startIndex_current]
      exact hstart
    all_goals
      intro l hl
      rcases List.mem_append.mp hl with hl | hl
    · exact h.servers l hl
    · rw [List.mem_singleton.mp hl]
      rfl
    · exact h.inOrder l hl
    · rw [List.mem_singleton.mp hl]
      exact Lookup.inOrder_begin hstart
    · exact h.walked l hl
    · rw [List.mem_singleton.mp hl]
      exact Lookup.walked_begin hstart
  | @attempt k l now r hk hr =>
    have hm : l ∈ s.lookups := List.mem_of_getElem? hk
    have hq := h.servers l hm
    constructor
    · have hlt := turn_current_lt (l := l) (f := s.failover) now r (by rw [hq]; exact h.current_lt)
      rw [hq] at hlt
      exact hlt
    all_goals
      intro l' hl'
      rcases List.mem_or_eq_of_mem_set hl' with hl' | rfl
    · exact h.servers l' hl'
    · rw [Lookup.turn_query, hq]
    · exact h.inOrder l' hl'
    · exact (h.inOrder l hm).turn ((h.walked l hm).length_lt hr) _ _ _
    · exact h.walked l' hl'
    · exact (h.walked l hm).turn hr _ _ _

lemma sound_of_run {servers : List String} {retryAfter : ℕ} {actions : List Action}
    (hn : servers ≠ []) (hr : Run Step (initial servers retryAfter) actions s) :
    s.Sound ∧ s.servers = servers := by
  apply hr.invariant (I := fun s => s.Sound ∧ s.servers = servers)
  · refine ⟨⟨List.length_pos_iff.mpr hn, ?_, ?_, ?_⟩, rfl⟩ <;>
    · intro l hl
      cases hl
  · rintro s a t ⟨h, hv⟩ hs
    refine ⟨sound_step h hs, ?_⟩
    cases hs <;> exact hv

lemma run_finish (outcome : ℕ → Attempt) (clock : ℕ → ℕ) (n : ℕ) (servers : List String)
    (done : List Lookup) (l : Lookup) (f : FailoverState) :
    ∃ bs, (∀ b ∈ bs, ∃ now r, b = .attempt done.length now r) ∧
      Run Step ⟨servers, f, done ++ [l]⟩ bs ⟨servers, (Lookup.finish outcome clock n l f).2,
        done ++ [(Lookup.finish outcome clock n l f).1]⟩ := by
  induction n generalizing l f with
  | zero => exact ⟨[], by simp, .nil _⟩
  | succ n ih =>
    rcases hr : l.result with _ | result
    · obtain ⟨bs, hbs, hrun⟩ := ih (l.turn f (clock l.idx) (outcome l.idx)).1
        (l.turn f (clock l.idx) (outcome l.idx)).2
      have hstep := Step.attempt (s := ⟨servers, f, done ++ [l]⟩) (k := done.length)
        (clock l.idx) (outcome l.idx) (by simp) hr
      rw [List.set_append_right _ _ le_rfl, Nat.sub_self] at hstep
      refine ⟨.attempt done.length (clock l.idx) (outcome l.idx) :: bs,
        List.forall_mem_cons.mpr ⟨⟨_, _, rfl⟩, hbs⟩, ?_⟩
      simp only [Lookup.finish, hr]
      exact .cons hstep hrun
    · rw [Lookup.finish_done (by rw [hr]; rfl)]
      exact ⟨[], by simp, .nil _⟩

lemma run_resolve (s : System) (name : String) (now : ℕ) (outcome : ℕ → Attempt)
    (clock : ℕ → ℕ) :
    ∃ bs, (∀ b ∈ bs, ∃ now r, b = .attempt s.lookups.length now r) ∧
      Run Step s (.begin name now :: bs)
        ⟨s.servers,
          (resolveWithFailover ⟨name, s.servers, attemptTimeout⟩ s.failover now outcome clock).2,
          s.lookups ++ [(resolveWithFailover ⟨name, s.servers, attemptTimeout⟩ s.failover now
            outcome clock).1]⟩ := by
  obtain ⟨bs, hbs, hrun⟩ := run_finish outcome clock s.servers.length
    s.servers s.lookups
    (Lookup.begin ⟨name, s.servers, attemptTimeout⟩ now (s.failover.startIndex now).1)
    (s.failover.startIndex now).2
  exact ⟨bs, hbs, .cons (.begin s name now) hrun⟩

/-- Under any interleaving the cursor stays inside the list and every lookup walks it in cyclic
order to the first answer. A lookup on its own returns, and leaves the cursor on the server that
answered, or where it was when all failed. -/
theorem lookups_walk_servers {servers : List String} {retryAfter : ℕ} {actions : List Action}
    (hn : servers ≠ []) (hr : Run Step (initial servers retryAfter) actions s) :
    s.failover.current < servers.length ∧
      (∀ l ∈ s.lookups, l.query.servers = servers ∧ l.InOrder ∧
        (l.contacted.map Contact.server).Nodup ∧ l.Walked) ∧
      ∀ name now outcome clock, ∃ l f bs,
        (∀ b ∈ bs, ∃ now r, b = .attempt s.lookups.length now r) ∧
        Run Step s (.begin name now :: bs) ⟨servers, f, s.lookups ++ [l]⟩ ∧
        l.start = (s.failover.startIndex now).1 ∧ l.query = ⟨name, servers, attemptTimeout⟩ ∧
        Lookup.Resolved outcome clock s.failover l f := by
  obtain ⟨h, rfl⟩ := sound_of_run hn hr
  refine ⟨h.current_lt, ?_, ?_⟩
  · intro l hl
    exact ⟨h.servers l hl, h.inOrder l hl, (h.inOrder l hl).nodup, h.walked l hl⟩
  · intro name now outcome clock
    obtain ⟨bs, hbs, hrun⟩ := run_resolve s name now outcome clock
    refine ⟨_, _, bs, hbs, hrun, resolve_start _ _ _ _ _, ?_, resolve_resolved ?_ _ _ _⟩
    · rw [resolve_eq, (Lookup.finish_query _).1]
      rfl
    · exact h.current_lt

def twoServers : List String := ["[308:1::]:53", "[308:2::]:53"]

theorem two_servers_walked :
    ∃ s, Run Step (initial twoServers 5) [.begin "a.b" 1, .attempt 0 2 .timedOut,
        .attempt 0 3 (.exchanged (.ok (.ip 7)))] s ∧
      s.failover.current < twoServers.length ∧
      (∀ l ∈ s.lookups, l.query.servers = twoServers ∧ l.InOrder ∧
        (l.contacted.map Contact.server).Nodup ∧ l.Walked) ∧
      ∀ name now outcome clock, ∃ l f bs,
        (∀ b ∈ bs, ∃ now r, b = .attempt s.lookups.length now r) ∧
        Run Step s (.begin name now :: bs) ⟨twoServers, f, s.lookups ++ [l]⟩ ∧
        l.start = (s.failover.startIndex now).1 ∧ l.query = ⟨name, twoServers, attemptTimeout⟩ ∧
        Lookup.Resolved outcome clock s.failover l f := by
  have hr : Run Step (initial twoServers 5) [.begin "a.b" 1, .attempt 0 2 .timedOut,
      .attempt 0 3 (.exchanged (.ok (.ip 7)))] _ :=
    .cons (.begin _ _ _) (.cons (.attempt 2 .timedOut rfl rfl)
      (.single (.attempt 3 (.exchanged (.ok (.ip 7))) rfl rfl)))
  exact ⟨_, hr, lookups_walk_servers (by decide) hr⟩

/-! When the cursor has left the first server, the mark is what brings it back. -/

def Marked (s : System) : Prop := s.failover.current ≠ 0 → s.failover.preferredDown ≠ none

def AnswersMarked (s : System) (a : Action) : Prop :=
  ∀ k now r l, a = .attempt k now r → s.lookups[k]? = some l → r.answer? ≠ none → l.idx ≠ 0 →
    s.failover.preferredDown ≠ none

lemma marked_step (h : s.Marked) (hs : Step s a t) (ha : s.AnswersMarked a) : t.Marked := by
  intro hc
  cases hs with
  | begin name now =>
    change (s.failover.startIndex now).2.current ≠ 0 at hc
    change (s.failover.startIndex now).2.preferredDown ≠ none
    rw [FailoverState.startIndex_preferredDown]
    rw [FailoverState.startIndex_current] at hc
    apply h
    rcases s.failover.startIndex_eq_zero_or now with he | he
    · exact absurd he hc
    · rwa [he] at hc
  | @attempt k l now r hk hr =>
    rcases hans : r.answer? with _ | b
    · change (l.turn s.failover now r).2.current ≠ 0 at hc
      change (l.turn s.failover now r).2.preferredDown ≠ none
      rw [Lookup.turn_failed hans] at hc ⊢
      by_cases hidx : l.idx = 0
      · simp [FailoverState.noteFailure, hidx]
      · simp only [FailoverState.noteFailure, if_neg hidx] at hc ⊢
        apply h
        intro h0
        rw [h0, if_neg (Ne.symm hidx)] at hc
        exact hc rfl
    · change (l.turn s.failover now r).2.current ≠ 0 at hc
      change (l.turn s.failover now r).2.preferredDown ≠ none
      rw [Lookup.turn_answered hans] at hc ⊢
      have hidx : l.idx ≠ 0 := hc
      simp only [FailoverState.noteSuccess, if_neg hidx]
      exact ha k now r l rfl hk (by rw [hans]; simp) hidx

lemma not_marked_step (hs : Step s a t) (ha : ¬s.AnswersMarked a) : ¬t.Marked := by
  simp only [AnswersMarked, not_forall] at ha
  obtain ⟨k, now, r, l, rfl, hk, hans, hidx, hdown⟩ := ha
  obtain ⟨b, hb⟩ := Option.ne_none_iff_exists'.mp hans
  rw [not_not] at hdown
  intro hm
  cases hs with
  | @attempt _ l' _ _ hk' hr =>
    obtain rfl : l' = l := Option.some.inj (hk'.symm.trans hk)
    change (l'.turn s.failover now r).2.current ≠ 0 →
      (l'.turn s.failover now r).2.preferredDown ≠ none at hm
    rw [Lookup.turn_answered hb] at hm
    simp only [FailoverState.noteSuccess, if_neg hidx] at hm
    exact hm hidx hdown

/-- The cursor is away from the first server only while that is marked, as long as fallback answers
arrive while it is marked; an answer that does not breaks this at once. -/
theorem cursor_marked_of_answers_marked (servers : List String) (retryAfter : ℕ) :
    (∀ actions s, Run (fun s a t => Step s a t ∧ s.AnswersMarked a) (initial servers retryAfter)
      actions s → s.Marked) ∧
      ∀ s a t, Step s a t → ¬s.AnswersMarked a → ¬t.Marked := by
  constructor
  · intro actions s hr
    apply hr.invariant (I := Marked)
    · intro h
      exact absurd rfl h
    · rintro s a t h ⟨hs, ha⟩
      exact marked_step h hs ha
  · intro s a t
    exact not_marked_step

theorem late_answer_unmarks :
    ¬∀ actions s, Run Step (initial twoServers 5) actions s → s.Marked := by
  intro hall
  have hr : Run Step (initial twoServers 5) [.begin "a.b" 1, .begin "a.b" 1, .attempt 0 2 .timedOut,
      .attempt 1 3 (.exchanged (.ok (.ip 7))), .attempt 0 4 (.exchanged (.ok (.ip 7)))] _ :=
    .cons (.begin _ _ _) (.cons (.begin _ _ _) (.cons (.attempt 2 .timedOut rfl rfl)
      (.cons (.attempt 3 (.exchanged (.ok (.ip 7))) rfl rfl)
        (.single (.attempt 4 (.exchanged (.ok (.ip 7))) rfl rfl)))))
  exact hall _ _ hr (by decide) rfl

end System

end Yggstack.Resolver
