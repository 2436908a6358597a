import Yggstack.Resolver.Lookups

namespace Yggstack.Resolver

open Library

structure Ask where
  name : String
  now : ℕ
  outcome : ℕ → Attempt
  clock : ℕ → ℕ

def Ask.resolve (servers : List String) (f : FailoverState) (x : Ask) : Lookup × FailoverState :=
  resolveWithFailover ⟨x.name, servers, attemptTimeout⟩ f x.now x.outcome x.clock

def Lookup.readings (l : Lookup) : List ℕ := l.begun :: l.contacted.map Contact.time

def after (servers : List String) (f : FailoverState) (xs : List Ask) : FailoverState :=
  xs.foldl (fun f x => (x.resolve servers f).2) f

def timeline (servers : List String) (f : FailoverState) : List Ask → List ℕ
  | [] => []
  | x :: xs => (x.resolve servers f).1.readings ++ timeline servers (x.resolve servers f).2 xs

variable {servers : List String} {f : FailoverState} {x : Ask} {xs ys : List Ask}

lemma after_append : after servers f (xs ++ ys) = after servers (after servers f xs) ys :=
  List.foldl_append

lemma after_snoc : after servers f (xs ++ [x]) = (x.resolve servers (after servers f xs)).2 :=
  after_append

lemma timeline_append : timeline servers f (xs ++ ys) =
    timeline servers f xs ++ timeline servers (after servers f xs) ys := by
  induction xs generalizing f with
  | nil => rfl
  | cons x xs ih =>
    rw [List.cons_append, timeline, ih, timeline, List.append_assoc]
    rfl

lemma resolve_begun : (x.resolve servers f).1.begun = x.now := by
  rw [Ask.resolve, resolve_eq]
  exact (Lookup.finish_query _).2.2

lemma resolve_query : (x.resolve servers f).1.query = ⟨x.name, servers, attemptTimeout⟩ := by
  rw [Ask.resolve, resolve_eq]
  exact (Lookup.finish_query _).1

lemma resolved (x : Ask) (hf : f.current < servers.length) : Lookup.Resolved x.outcome x.clock f
    (x.resolve servers f).1 (x.resolve servers f).2 :=
  resolve_resolved (q := ⟨x.name, servers, attemptTimeout⟩) hf _ _ _

namespace Lookup

variable {outcome : ℕ → Attempt} {clock : ℕ → ℕ} {f₀ : FailoverState} {l : Lookup}

lemma Resolved.current_lt (h : l.Resolved outcome clock f₀ f) :
    f.current < l.query.servers.length := by
  by_cases hall : ∀ c ∈ l.contacted, c.attempt.answer? = none
  · rw [h.leaves.exhausted hall]
    exact h.inOrder.start_lt
  · push Not at hall
    obtain ⟨c, hc, ha⟩ := hall
    have hm : c.server ∈ l.contacted.map Contact.server := List.mem_map_of_mem hc
    rw [h.leaves.answered c hc ha]
    rw [h.inOrder.cyclic] at hm
    obtain ⟨i, -, hi⟩ := List.mem_map.mp hm
    rw [← hi]
    exact Nat.mod_lt _ (lt_of_le_of_lt (Nat.zero_le _) h.inOrder.start_lt)

lemma Resolved.first (h : l.Resolved outcome clock f₀ f) :
    ∃ c rest, l.contacted = c :: rest ∧ c.server = l.start := by
  have hne : l.contacted ≠ [] := by
    obtain ⟨result, hr⟩ := Option.isSome_iff_exists.mp h.leaves.returned
    cases h.walked with
    | ongoing he _ _ => rw [hr] at he; cases he
    | answered he _ _ _ => simp [he]
    | exhausted he _ _ _ _ => simp [he]
  obtain ⟨c, rest, hc⟩ := List.exists_cons_of_ne_nil hne
  refine ⟨c, rest, hc, ?_⟩
  have hcyc := h.inOrder.cyclic
  rw [hc, List.map_cons, List.length_cons, List.range_succ_eq_map, List.map_cons] at hcyc
  rw [(List.cons.inj hcyc).1, Nat.add_zero, Nat.mod_eq_of_lt h.inOrder.start_lt]

lemma Resolved.answered_at_start (h : l.Resolved outcome clock f₀ f)
    (ha : (outcome l.start).answer? ≠ none) :
    f.current = l.start ∧ l.contacted.map Contact.server = [l.start] := by
  obtain ⟨c, rest, hc, hs⟩ := h.first
  have hm : c ∈ l.contacted := by simp [hc]
  have hca : c.attempt.answer? ≠ none := by
    rw [(h.follows c hm).1, hs]
    exact ha
  have hrest : rest = [] := by
    -- an answer ends the walk, so the first contact is the last one
    cases h.walked with
    | ongoing _ hf _ => exact absurd (hf c hm) hca
    | @answered pre d a he hf hd hr =>
      cases pre with
      | nil =>
        rw [hc] at he
        exact (List.cons.inj he).2
      | cons p pre =>
        rw [hc] at he
        obtain ⟨rfl, -⟩ := List.cons.inj he
        exact absurd (hf c (by simp)) hca
    | @exhausted pre d he hf hd hlen hr =>
      exfalso
      rw [he] at hm
      rcases List.mem_append.mp hm with hm | hm
      · exact hca (hf c hm)
      · rw [List.mem_singleton.mp hm] at hca
        exact hca hd
  refine ⟨?_, ?_⟩
  · rw [h.leaves.answered c hm hca, hs]
  · rw [hc, hrest, List.map_cons, hs]
    rfl

lemma Resolved.preferredDown (h : l.Resolved outcome clock f₀ f) {t : ℕ}
    (ht : f.preferredDown = some t) :
    f₀.preferredDown = some t ∨ ∃ c ∈ l.contacted, c.time = t := by
  by_cases hz : ∃ c ∈ l.contacted, c.server = 0
  · obtain ⟨c, hc, h0⟩ := hz
    by_cases ha : c.attempt.answer? = none
    · rw [h.leaves.marked c hc h0 ha] at ht
      rcases hd : f₀.preferredDown with _ | t₀
      · rw [hd] at ht
        exact Or.inr ⟨c, hc, Option.some.inj ht⟩
      · rw [hd] at ht
        exact Or.inl ht
    · rw [h.leaves.cleared c hc h0 ha] at ht
      cases ht
  · rw [h.leaves.kept fun c hc h0 => hz ⟨c, hc, h0⟩] at ht
    exact Or.inl ht

end Lookup

lemma after_sound (hn : 0 < servers.length) (retryAfter : ℕ) (xs : List Ask) :
    (after servers (.withRetryAfter retryAfter) xs).current < servers.length ∧
      (after servers (.withRetryAfter retryAfter) xs).retryPreferredAfter = retryAfter ∧
      ∀ t ∈ (after servers (.withRetryAfter retryAfter) xs).preferredDown,
        t ∈ timeline servers (.withRetryAfter retryAfter) xs := by
  induction xs using List.reverseRecOn with
  | nil => exact ⟨hn, rfl, by simp [after, FailoverState.withRetryAfter]⟩
  | append_singleton xs x ih =>
    obtain ⟨hcur, hret, hdown⟩ := ih
    have hx := resolved x hcur
    rw [after_snoc]
    refine ⟨?_, hx.leaves.retry.trans hret, ?_⟩
    · have hlt := hx.current_lt
      rwa [resolve_query] at hlt
    · intro t ht
      rw [timeline_append, List.mem_append]
      rcases hx.preferredDown ht with hd | ⟨c, hc, rfl⟩
      · exact Or.inl (hdown t hd)
      · right
        simp only [timeline, List.append_nil, Lookup.readings]
        exact List.mem_cons_of_mem _ (List.mem_map_of_mem hc)

lemma startIndex_of_marked {b t now : ℕ} (hb : b ≠ 0) (hcur : f.current = b)
    (hdown : f.preferredDown = some t) :
    (f.startIndex now).1 = if f.retryPreferredAfter ≤ now - t then 0 else b := by
  rw [← hcur] at hb ⊢
  rw [FailoverState.startIndex, if_pos hb, hdown]
  simp only [Option.any_some, decide_eq_true_eq]
  split <;> rfl

lemma cursor_kept (ys : List Ask) {b t : ℕ} (hb : b ≠ 0) (hblt : b < servers.length)
    (hcur : f.current = b) (hdown : f.preferredDown = some t)
    (hys : ∀ ys₁ z ys₂, ys = ys₁ ++ z :: ys₂ →
      (z.outcome b).answer? ≠ none ∧
        ∀ c ∈ (z.resolve servers (after servers f ys₁)).1.contacted, c.server ≠ 0) :
    (after servers f ys).current = b ∧ (after servers f ys).preferredDown = some t ∧
      (after servers f ys).retryPreferredAfter = f.retryPreferredAfter := by
  induction ys using List.reverseRecOn with
  | nil => exact ⟨hcur, hdown, rfl⟩
  | append_singleton ys z ih =>
    obtain ⟨hc, hd, hret⟩ := ih fun ys₁ z' ys₂ he =>
      hys ys₁ z' (ys₂ ++ [z]) (by rw [he, List.append_assoc, List.cons_append])
    obtain ⟨hans, hno⟩ := hys ys z [] rfl
    have hcur' : (after servers f ys).current < servers.length := by
      rw [hc]
      exact hblt
    have hz := resolved z hcur'
    have hstart : (z.resolve servers (after servers f ys)).1.start =
        if (after servers f ys).retryPreferredAfter ≤ z.now - t then 0 else b := by
      rw [Ask.resolve, resolve_start, startIndex_of_marked hb hc hd]
    obtain ⟨c, rest, hcc, hcs⟩ := hz.first
    have hc0 : c.server ≠ 0 := hno c (by simp [hcc])
    have hsb : (z.resolve servers (after servers f ys)).1.start = b := by
      rw [hcs, hstart] at hc0
      rw [hstart]
      split at hc0
      · exact absurd rfl hc0
      · next hlt => rw [if_neg hlt]
    rw [after_snoc]
    refine ⟨?_, ?_, ?_⟩
    · rw [(hz.answered_at_start (by rw [hsb]; exact hans)).1, hsb]
    · rw [hz.leaves.kept hno, hd]
    · rw [hz.leaves.retry, hret]

/-- One lookup `x` that fails on the first server at the contact `c₀` and is answered by the
fallback at `c`, with the lookups `ys` after it: all of them leave the first server alone and find
the fallback answering. -/
structure Fallback (servers : List String) (retryAfter : ℕ) (xs : List Ask) (x : Ask)
    (ys : List Ask) (c₀ c : Contact) : Prop where
  tried : c₀ ∈ (x.resolve servers (after servers (.withRetryAfter retryAfter) xs)).1.contacted
  preferred : c₀.server = 0
  failed : c₀.attempt.answer? = none
  asked : c ∈ (x.resolve servers (after servers (.withRetryAfter retryAfter) xs)).1.contacted
  answered : c.attempt.answer? ≠ none
  between : ∀ ys₁ z ys₂, ys = ys₁ ++ z :: ys₂ → (z.outcome c.server).answer? ≠ none ∧
    ∀ b ∈ (z.resolve servers
      (after servers (.withRetryAfter retryAfter) (xs ++ x :: ys₁))).1.contacted, b.server ≠ 0

def StaysOn (servers : List String) (f : FailoverState) (y : Ask) (b : ℕ) : Prop :=
  (y.resolve servers f).1.start = b ∧
    ((y.outcome b).answer? ≠ none → (y.resolve servers f).1.contacted.map Contact.server = [b])

variable {retryAfter : ℕ} {y : Ask} {c₀ c : Contact}

/-- The cooldown counts from the first failure since the first server last answered, which a failed
attempt on a server that is marked already does not move. -/
theorem stays_on_fallback_iff (hn : 2 ≤ servers.length)
    (h : Fallback servers retryAfter xs x ys c₀ c)
    (hclock : (timeline servers (.withRetryAfter retryAfter)
      (xs ++ x :: (ys ++ [y]))).Pairwise (· ≤ ·)) :
    StaysOn servers (after servers (.withRetryAfter retryAfter) (xs ++ x :: ys)) y c.server ↔
      y.now < (after servers (.withRetryAfter retryAfter) xs).preferredDown.getD c₀.time +
        retryAfter := by
  have hpos : 0 < servers.length := by omega
  obtain ⟨hcur, hret, hdown⟩ := after_sound hpos retryAfter xs
  have hx := resolved x hcur
  have hxcur := hx.leaves.answered c h.asked h.answered
  have hxdown := hx.leaves.marked c₀ h.tried h.preferred h.failed
  have hlt := hx.current_lt
  rw [hxcur, resolve_query] at hlt
  have hb : c.server ≠ 0 := by
    intro h0
    have hcleared := hx.leaves.cleared c h.asked h0 h.answered
    rw [hxdown] at hcleared
    cases hcleared
  obtain ⟨hc, hd, hr⟩ := cursor_kept ys hb hlt hxcur hxdown (by
    intro ys₁ z ys₂ he
    obtain ⟨hans, hno⟩ := h.between ys₁ z ys₂ he
    rw [after_append] at hno
    exact ⟨hans, hno⟩)
  -- the mark is not later than the lookup `y`
  have hmark : (after servers (.withRetryAfter retryAfter) xs).preferredDown.getD c₀.time ≤
      y.now := by
    rw [show xs ++ x :: (ys ++ [y]) = (xs ++ [x]) ++ (ys ++ [y]) by simp, timeline_append,
      List.pairwise_append] at hclock
    have hyin : y.now ∈ timeline servers (after servers (.withRetryAfter retryAfter) (xs ++ [x]))
        (ys ++ [y]) := by
      rw [timeline_append, List.mem_append]
      right
      simp [timeline, Lookup.readings, resolve_begun]
    refine hclock.2.2 _ ?_ _ hyin
    rw [timeline_append, List.mem_append]
    rcases hp : (after servers (.withRetryAfter retryAfter) xs).preferredDown with _ | t
    · right
      simp only [timeline, List.append_nil, Lookup.readings, Option.getD_none]
      exact List.mem_cons_of_mem _ (List.mem_map_of_mem h.tried)
    · left
      exact hdown t hp
  have hafter : after servers (.withRetryAfter retryAfter) (xs ++ x :: ys) =
      after servers (x.resolve servers (after servers (.withRetryAfter retryAfter) xs)).2 ys :=
    after_append
  rw [← hafter] at hc hd hr
  have hstart : (y.resolve servers (after servers (.withRetryAfter retryAfter)
      (xs ++ x :: ys))).1.start = if retryAfter ≤
        y.now - (after servers (.withRetryAfter retryAfter) xs).preferredDown.getD c₀.time
      then 0 else c.server := by
    rw [Ask.resolve, resolve_start, startIndex_of_marked hb hc hd, hr, hx.leaves.retry, hret]
  constructor
  · rintro ⟨hs, -⟩
    rw [hstart] at hs
    split at hs
    · exact absurd hs.symm hb
    · omega
  · intro hlate
    have hs : (y.resolve servers (after servers (.withRetryAfter retryAfter)
        (xs ++ x :: ys))).1.start = c.server := by
      rw [hstart, if_neg (by omega)]
    refine ⟨hs, fun hans => ?_⟩
    have hcur' : (after servers (.withRetryAfter retryAfter) (xs ++ x :: ys)).current <
        servers.length := by
      rw [hc]
      exact hlt
    have hyr := resolved y hcur'
    rw [← hs] at hans ⊢
    exact (hyr.answered_at_start hans).2

def fallbackAnswers (now : ℕ) : Ask where
  name := "a.b"
  now
  outcome i := if i = 0 then .timedOut else .exchanged (.ok (.ip 7))
  clock _ := now + 1

def silentAt (t : ℕ) : Contact := ⟨0, .timedOut, t⟩

def answerAt (t : ℕ) : Contact := ⟨1, .exchanged (.ok (.ip 7)), t⟩

theorem first_failure_cools_down : StaysOn System.twoServers
    (after System.twoServers (.withRetryAfter 5) [fallbackAnswers 0]) (fallbackAnswers 3) 1 := by
  have hf : Fallback System.twoServers 5 [] (fallbackAnswers 0) [] (silentAt 1) (answerAt 1) := by
    refine ⟨List.mem_cons_self, rfl, rfl, List.mem_cons_of_mem _ List.mem_cons_self,
      by simp [answerAt, Attempt.answer?], ?_⟩
    intro ys₁ z ys₂ he
    simp at he
  exact (stays_on_fallback_iff (y := fallbackAnswers 3) (by decide) hf (by decide)).mpr (by decide)

theorem failed_reprobe_repeats :
    ¬∀ (servers : List String) (retryAfter : ℕ) (xs ys : List Ask) (x y : Ask) (c₀ c : Contact),
      2 ≤ servers.length → Fallback servers retryAfter xs x ys c₀ c →
      (timeline servers (.withRetryAfter retryAfter) (xs ++ x :: (ys ++ [y]))).Pairwise (· ≤ ·) →
      y.now < c₀.time + retryAfter →
      StaysOn servers (after servers (.withRetryAfter retryAfter) (xs ++ x :: ys)) y c.server := by
  intro hall
  have hf : Fallback System.twoServers 5 [fallbackAnswers 0] (fallbackAnswers 10) []
      (silentAt 11) (answerAt 11) := by
    refine ⟨List.mem_cons_self, rfl, rfl, List.mem_cons_of_mem _ List.mem_cons_self,
      by simp [answerAt, Attempt.answer?], ?_⟩
    intro ys₁ z ys₂ he
    simp at he
  have hs := hall System.twoServers 5 [fallbackAnswers 0] [] (fallbackAnswers 10)
    (fallbackAnswers 12) (silentAt 11) (answerAt 11) (by decide) hf (by decide) (by decide)
  have h01 : 0 = 1 := hs.1
  cases h01

end Yggstack.Resolver
