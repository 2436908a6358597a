import Yggstack.Mobile.System

/-! Calls of `start` that overlap. Each of them looks whether a node runs long before it stores its
own, so a second one can store its node over that of the first. -/

namespace Yggstack.Mobile

open Library Forward

def Pc.builds : Pc → Bool
  | .copying _ _ | .spawning _ _ | .built _ => true
  | _ => false

namespace World

variable {w w' w₁ : World} {a : Action} {c d : ℕ} {req : Request} {pc pc' : Pc}

def Building (w : World) (c : ℕ) : Prop :=
  ∃ call, w.calls[c]? = some call ∧ call.pc.builds = true

def Configured (w : World) : Prop := ∃ cfg key, w.cfg = some cfg ∧ cfg.signingKey = .ok key

/-- A `start` gets its configuration only when no other one is building its node, and no node has
been stored since it looked. -/
def StartsAlone (w : World) (a : Action) : Prop :=
  ∀ c, a = .call c .startConfig → w.Configured → w.state = none ∧ ∀ d, ¬w.Building d

inductive Shift (w : World) (a : Action) (w' : World) : Prop
  | quiet : (∀ d, w'.Building d → w.Building d) → w'.state = w.state → w'.log = w.log →
      (.replaced ∈ w'.nodes → .replaced ∈ w.nodes) → Shift w a w'
  | configured (c : ℕ) : a = .call c .startConfig → w.Configured →
      (∀ d, w'.Building d → d = c ∨ w.Building d) → w'.state = w.state → w'.log = w.log →
      w'.nodes = w.nodes → Shift w a w'
  | published (c : ℕ) : w.Building c → (∀ d, w'.Building d → d ≠ c ∧ w.Building d) →
      w'.state ≠ none → w'.log = w.log ++ [.started] →
      (w.state = none → .replaced ∈ w'.nodes → .replaced ∈ w.nodes) → Shift w a w'
  | taken : (∀ d, w'.Building d → w.Building d) → w'.state = none →
      w'.log = w.log ++ [.taken] → (.replaced ∈ w'.nodes → .replaced ∈ w.nodes) → Shift w a w'

lemma building_goto (h : w.calls[c]? = some ⟨req, pc⟩) (hcalls : w₁.calls = w.calls)
    (hd : (w₁.goto c pc').Building d) : d = c ∧ pc'.builds = true ∨ d ≠ c ∧ w.Building d := by
  obtain ⟨call, hcall, hb⟩ := hd
  rw [goto, hcalls, modify_eq_set h] at hcall
  rcases getElem?_change hcall with ⟨rfl, rfl⟩ | ⟨hne, hcall⟩
  · exact Or.inl ⟨rfl, hb⟩
  · exact Or.inr ⟨hne, call, hcall, hb⟩

lemma building_quiet (h : w.calls[c]? = some ⟨req, pc⟩) (hcalls : w₁.calls = w.calls)
    (hb : pc'.builds = true → pc.builds = true) (hd : (w₁.goto c pc').Building d) :
    w.Building d := by
  rcases building_goto h hcalls hd with ⟨rfl, hpc⟩ | ⟨-, hd⟩
  · exact ⟨_, h, hb hpc⟩
  · exact hd

lemma replaced_of_set {nodes : List NodeStatus} {n : ℕ} {s : NodeStatus} (hs : s ≠ .replaced)
    (h : .replaced ∈ nodes.set n s) : .replaced ∈ nodes := by
  rcases List.mem_or_eq_of_mem_set h with h | h
  · exact h
  · exact absurd h.symm hs

lemma step_shift (hs : Step w a w') : Shift w a w' := by
  cases hs with
  | begin request =>
    refine .quiet ?_ rfl rfl id
    rintro d ⟨call, hcall, hb⟩
    rcases getElem?_snoc hcall with hcall | ⟨-, rfl⟩
    · exact ⟨call, hcall, hb⟩
    · cases request <;> cases hb
  | @loadConfig c parsed h =>
    cases parsed with
    | ok cfg => exact .quiet (fun d => building_quiet h rfl (by simp [Pc.builds])) rfl rfl id
    | error e => exact .quiet (fun d => building_quiet h rfl (by simp [Pc.builds])) rfl rfl id
  | startCheck h =>
    rw [startCheck]
    split <;> exact .quiet (fun d => building_quiet h rfl (by simp [Pc.builds])) rfl rfl id
  | startConfig h =>
    rw [startConfig]
    split
    · exact .quiet (fun d => building_quiet h rfl (by simp [Pc.builds])) rfl rfl id
    · next cfg hcfg =>
      split
      · exact .quiet (fun d => building_quiet h rfl (by simp [Pc.builds])) rfl rfl id
      · next key hkey =>
        refine .configured _ rfl ⟨cfg, key, hcfg, hkey⟩ (fun d hd => ?_) rfl rfl rfl
        exact (building_goto h rfl hd).imp And.left And.right
  | startCopy h => exact .quiet (fun d => building_quiet h rfl fun _ => rfl) rfl rfl id
  | startBuild h hl =>
    refine .quiet (fun d => building_quiet h rfl fun _ => rfl) rfl rfl fun hr => ?_
    rcases List.mem_append.mp hr with hr | hr
    · exact hr
    · cases List.mem_singleton.mp hr
  | @startSpawn c node kind m jobs h =>
    obtain ⟨e, stats, entries, he⟩ := w.spawnListener_eq node kind m
    rw [he]
    exact .quiet (fun d => building_quiet h rfl fun _ => rfl) rfl rfl id
  | startBuilt h => exact .quiet (fun d => building_quiet h rfl fun _ => rfl) rfl rfl id
  | startPublish h =>
    refine .published _ ⟨_, h, rfl⟩ (fun d hd => ?_) (by simp [publish, finish, goto]) rfl ?_
    · exact (building_goto h rfl hd).resolve_left (by simp [Pc.builds])
    · intro hn hr
      rw [publish, hn] at hr
      exact replaced_of_set (by simp) hr
  | stopTake h =>
    rw [stopTake]
    split
    · exact .taken (fun d => building_quiet h rfl (by simp [Pc.builds])) rfl rfl
        (replaced_of_set (by simp))
    · exact .quiet (fun d => building_quiet h rfl (by simp [Pc.builds])) rfl rfl id
  | stopTeardown h =>
    rw [stopTeardown]
    split <;> exact .quiet (fun d => building_quiet h rfl (by simp [Pc.builds])) rfl rfl
        (replaced_of_set (by simp))
  | addPush h =>
    rw [addPush]
    split <;> exact .quiet (fun d => building_quiet h rfl (by simp [Pc.builds])) rfl rfl id
  | @addLook c kind spec m h hl =>
    rw [addLook]
    split
    · next node hn =>
      obtain ⟨e, stats, entries, he⟩ := w.spawnListener_eq node kind m
      rw [he]
      exact .quiet (fun d => building_quiet h rfl (by simp [Pc.builds])) rfl rfl id
    · exact .quiet (fun d => building_quiet h rfl (by simp [Pc.builds])) rfl rfl id
  | removeRetain h =>
    rw [removeRetain]
    split <;> exact .quiet (fun d => building_quiet h rfl (by simp [Pc.builds])) rfl rfl id
  | removeTake h hl =>
    rw [removeTake]
    split <;> exact .quiet (fun d => building_quiet h rfl (by simp [Pc.builds])) rfl rfl id
  | clearList h =>
    refine .quiet (fun d => building_quiet h rfl ?_) rfl rfl id
    split <;> simp [Pc.builds]
  | drain h hl ho =>
    exact .quiet (fun d => building_quiet h rfl (by simp [Pc.builds])) rfl rfl id
  | signal h => exact .quiet (fun d => building_quiet h rfl (by simp [Pc.builds])) rfl rfl id
  | abort h => exact .quiet (fun d => id) rfl rfl id
  | join h ht hf =>
    exact .quiet (fun d => building_quiet h rfl (by simp [Pc.builds])) rfl rfl id
  | signalled h =>
    exact .quiet (fun d => building_quiet h rfl (by simp [Pc.builds])) rfl rfl id
  | task ht hstep => exact .quiet (fun d => id) rfl rfl id

structure OneNode (w : World) : Prop where
  unique : ∀ c d, w.Building c → w.Building d → c = d
  free : ∀ c, w.Building c → w.state = none
  kept : .replaced ∉ w.nodes
  log : w.log.IsChain fun x y => ¬(x = .started ∧ y = .started)
  last : w.log.getLast? = some .started → w.state ≠ none

lemma oneNode_initial : OneNode initial where
  unique c d := by
    rintro ⟨call, hc, -⟩
    cases hc
  free c := by
    rintro ⟨call, hc, -⟩
    cases hc
  kept := List.not_mem_nil
  log := .nil
  last h := by cases h

lemma oneNode_step (h : w.OneNode) (hs : Step w a w') (ha : StartsAlone w a) : w'.OneNode := by
  cases step_shift hs with
  | quiet hb hst hlog hr =>
    refine ⟨fun c d hc hd => h.unique c d (hb c hc) (hb d hd), fun c hc => ?_,
      fun hm => h.kept (hr hm), ?_, ?_⟩
    · rw [hst]
      exact h.free c (hb c hc)
    · rw [hlog]
      exact h.log
    · rw [hlog, hst]
      exact h.last
  | configured c hc hcfg hb hst hlog hn =>
    obtain ⟨hfree, hnone⟩ := ha c hc hcfg
    have heq : ∀ d, w'.Building d → d = c := fun d hd => (hb d hd).resolve_right (hnone d)
    refine ⟨fun d e hd he => (heq d hd).trans (heq e he).symm, fun d _ => by rw [hst, hfree],
      by rw [hn]; exact h.kept, ?_, ?_⟩
    · rw [hlog]
      exact h.log
    · rw [hlog, hst]
      exact h.last
  | published c hc hb hst hlog hr =>
    have hnone := h.free c hc
    have hno : ∀ d, ¬w'.Building d := fun d hd => (hb d hd).1 (h.unique d c (hb d hd).2 hc)
    refine ⟨fun d _ hd => absurd hd (hno d), fun d hd => absurd hd (hno d),
      fun hm => h.kept (hr hnone hm), ?_, fun _ => hst⟩
    rw [hlog]
    refine h.log.append (.singleton _) ?_
    intro x hx y hy
    rintro ⟨rfl, -⟩
    exact h.last hx hnone
  | taken hb hst hlog hr =>
    refine ⟨fun c d hc hd => h.unique c d (hb c hc) (hb d hd), fun _ _ => hst,
      fun hm => h.kept (hr hm), ?_, ?_⟩
    · rw [hlog]
      refine h.log.append (.singleton _) ?_
      intro x hx y hy
      rintro ⟨-, rfl⟩
      simp at hy
    · intro hl
      simp [hlog] at hl

/-- While the starts do not overlap, at most one of them succeeds before a `stop` takes its node,
and no running node is overwritten. -/
theorem starts_one_node {actions : List Action}
    (h : Run (fun w a w' => Step w a w' ∧ StartsAlone w a) initial actions w) :
    (w.log.IsChain fun x y => ¬(x = .started ∧ y = .started)) ∧ .replaced ∉ w.nodes := by
  have hinv : w.OneNode :=
    h.invariant oneNode_initial fun _ _ _ hw hs => oneNode_step hw hs.1 hs.2
  exact ⟨hinv.log, hinv.kept⟩

lemma not_building_of_all (h : (w.calls.all fun call => !call.pc.builds) = true) (d : ℕ) :
    ¬w.Building d := by
  rintro ⟨call, hcall, hb⟩
  have hn := List.all_eq_true.mp h call (List.mem_of_getElem? hcall)
  simp [hb] at hn

theorem started_again : ∃ actions w,
    Run (fun w a w' => Step w a w' ∧ StartsAlone w a) initial actions w ∧
      w.log = [.started, .taken, .started] ∧
      (w.log.IsChain fun x y => ¬(x = .started ∧ y = .started)) ∧ .replaced ∉ w.nodes := by
  have step {w : World} {a : Action} {w' : World} (hs : Step w a w')
      (ha : ∀ c, a ≠ .call c .startConfig) : Step w a w' ∧ StartsAlone w a :=
    ⟨hs, fun c he => absurd he (ha c)⟩
  have config {w : World} {c : ℕ} {w' : World} (hs : Step w (.call c .startConfig) w')
      (hst : w.state = none) (hb : (w.calls.all fun call => !call.pc.builds) = true) :
      Step w (.call c .startConfig) w' ∧ StartsAlone w (.call c .startConfig) :=
    ⟨hs, fun _ _ _ => ⟨hst, not_building_of_all hb⟩⟩
  have hrun : Run (fun w a w' => Step w a w' ∧ StartsAlone w a) initial _ _ :=
    .cons (step (.begin _ (.loadConfig (.ok ⟨.ok []⟩))) (by simp)) <|
    .cons (step (.loadConfig (c := 0) rfl) (by simp)) <|
    .cons (step (.begin _ .start) (by simp)) <|
    .cons (step (.startCheck (c := 1) rfl) (by simp)) <|
    .cons (config (.startConfig (c := 1) rfl) rfl rfl) <|
    .cons (step (.startCopy (c := 1) rfl) (by simp)) <|
    .cons (step (.startCopy (c := 1) rfl) (by simp)) <|
    .cons (step (.startCopy (c := 1) rfl) (by simp)) <|
    .cons (step (.startCopy (c := 1) rfl) (by simp)) <|
    .cons (step (.startBuild (c := 1) rfl rfl) (by simp)) <|
    .cons (step (.startBuilt (c := 1) rfl) (by simp)) <|
    .cons (step (.startPublish (c := 1) rfl) (by simp)) <|
    .cons (step (.begin _ .stop) (by simp)) <| .cons (step (.stopTake (c := 2) rfl) (by simp)) <|
    .cons (step (.begin _ .start) (by simp)) <|
    .cons (step (.startCheck (c := 3) rfl) (by simp)) <|
    .cons (config (.startConfig (c := 3) rfl) rfl rfl) <|
    .cons (step (.startCopy (c := 3) rfl) (by simp)) <|
    .cons (step (.startCopy (c := 3) rfl) (by simp)) <|
    .cons (step (.startCopy (c := 3) rfl) (by simp)) <|
    .cons (step (.startCopy (c := 3) rfl) (by simp)) <|
    .cons (step (.startBuild (c := 3) rfl rfl) (by simp)) <|
    .cons (step (.startBuilt (c := 3) rfl) (by simp)) <|
    .cons (step (.startPublish (c := 3) rfl) (by simp)) <| .nil _
  exact ⟨_, _, hrun, rfl, starts_one_node hrun⟩

theorem overlapping_starts_replace : ∃ actions w, Run Step initial actions w ∧
    w.log = [.started, .started] ∧ .replaced ∈ w.nodes := by
  have hrun : Run Step initial _ _ :=
    .cons (.begin _ (.loadConfig (.ok ⟨.ok []⟩))) <| .cons (.loadConfig (c := 0) rfl) <|
    .cons (.begin _ .start) <| .cons (.begin _ .start) <|
    .cons (.startCheck (c := 1) rfl) <| .cons (.startCheck (c := 2) rfl) <|
    .cons (.startConfig (c := 1) rfl) <| .cons (.startCopy (c := 1) rfl) <|
    .cons (.startCopy (c := 1) rfl) <| .cons (.startCopy (c := 1) rfl) <|
    .cons (.startCopy (c := 1) rfl) <| .cons (.startBuild (c := 1) rfl rfl) <|
    .cons (.startBuilt (c := 1) rfl) <| .cons (.startPublish (c := 1) rfl) <|
    .cons (.startConfig (c := 2) rfl) <| .cons (.startCopy (c := 2) rfl) <|
    .cons (.startCopy (c := 2) rfl) <| .cons (.startCopy (c := 2) rfl) <|
    .cons (.startCopy (c := 2) rfl) <| .cons (.startBuild (c := 2) rfl rfl) <|
    .cons (.startBuilt (c := 2) rfl) <| .cons (.startPublish (c := 2) rfl) <| .nil _
  exact ⟨_, _, hrun, rfl, List.mem_cons_self⟩

end World

end Yggstack.Mobile
