import Yggstack.Mobile.System

/-! A `start` and an `add_*` at the same time. The first copies the mapping lists early and stores
its node late; the second adds its mapping first and looks for the node second. -/

namespace Yggstack.Mobile

open Library Forward

def Pc.jobs : Pc → List (Kind × Mapping)
  | .copying _ jobs | .spawning _ jobs => jobs
  | _ => []

def Pc.StartAt (kind : Kind) (copied stored : Prop) : Pc → Prop
  | .entered | .configuring => ¬copied ∧ ¬stored
  | .copying kinds _ =>
    (∃ before, before ++ kinds = allKinds) ∧ (copied ↔ kind ∉ kinds) ∧ ¬stored
  | .spawning _ _ | .built _ => copied ∧ ¬stored
  | .done (.ok _) => copied ∧ stored
  | .done (.error _) => ¬copied ∧ ¬stored
  | _ => False

def Pc.AddAt (m : Mapping) (pushed looked : Prop) : Pc → Prop
  | .entered => ¬pushed ∧ ¬looked
  | .adding m' => m' = m ∧ pushed ∧ ¬looked
  | .done (.ok _) => pushed ∧ looked
  | _ => False

namespace World

variable {w w' w₀ w₁ : World} {a : Action} {s c d : ℕ} {kind : Kind} {spec : String} {m : Mapping}
  {pushed copied stored looked early late : Prop} {pc pc' pcs pca : Pc} {req : Request}

def copies (w : World) (kind : Kind) (m : Mapping) : ℕ :=
  (w.tasks.map fun t => (t.kind, t.mapping)).count (kind, m)

-- `early`: the mapping was there when `start` copied the list. `late`: the node was there when
-- `add_*` looked for it.
structure Race (w₀ : World) (s c : ℕ) (kind : Kind) (spec : String) (m : Mapping)
    (pushed copied stored looked early late : Prop) (pcs pca : Pc) (w : World) : Prop where
  start : w.calls[s]? = some ⟨.start, pcs⟩
  startAt : pcs.StartAt kind copied stored
  add : w.calls[c]? = some ⟨.add kind spec, pca⟩
  addAt : pca.AddAt m pushed looked
  others : ∀ d call, d ≠ s → d ≠ c → w.calls[d]? = some call → ∃ r, call.pc = .done r
  absent : ¬pushed → (w.mappings kind).count m = 0
  present : pushed → (w.mappings kind).count m = 1
  unstored : ¬stored → w.state = w₀.state
  stored : stored → w.state ≠ none
  checked : pcs ≠ .entered → (∀ e, pcs ≠ .done (.error e)) → w₀.state = none
  early_copied : early → copied
  late_looked : late → looked
  total : w₀.state = none →
    ∃ x y, w.copies kind m + pcs.jobs.count (kind, m) = w₀.copies kind m + x + y ∧
      x ≤ 1 ∧ (x = 1 ↔ early) ∧ y ≤ 1 ∧ (y = 1 ↔ late)

inductive Raced (w₀ : World) (s c : ℕ) (kind : Kind) (spec : String) (m : Mapping)
    (pushed copied stored looked early late : Prop) (a : Action) (w : World) : Prop
  | quiet {pcs pca : Pc} : a ≠ .call c .addPush → a ≠ .call s (.startCopy kind) →
      a ≠ .call s .startPublish → a ≠ .call c .addLook →
      Race w₀ s c kind spec m pushed copied stored looked early late pcs pca w →
      Raced w₀ s c kind spec m pushed copied stored looked early late a w
  | push {pcs pca : Pc} : a = .call c .addPush →
      Race w₀ s c kind spec m True copied stored looked early late pcs pca w →
      Raced w₀ s c kind spec m pushed copied stored looked early late a w
  | copy {pcs pca : Pc} : a = .call s (.startCopy kind) →
      Race w₀ s c kind spec m pushed True stored looked pushed late pcs pca w →
      Raced w₀ s c kind spec m pushed copied stored looked early late a w
  | store {pcs pca : Pc} : a = .call s .startPublish →
      Race w₀ s c kind spec m pushed copied True looked early late pcs pca w →
      Raced w₀ s c kind spec m pushed copied stored looked early late a w
  | look {pcs pca : Pc} : a = .call c .addLook →
      Race w₀ s c kind spec m pushed copied stored True early stored pcs pca w →
      Raced w₀ s c kind spec m pushed copied stored looked early late a w

lemma count_map_pair (ms : List Mapping) :
    (ms.map fun x => (kind, x)).count (kind, m) = ms.count m :=
  List.count_map_of_injective ms _ (Prod.mk_right_injective kind) m

lemma copies_spawnListener (node : ℕ) (k : Kind) (x : Mapping) :
    (w.spawnListener node k x).copies kind m =
      w.copies kind m + [(k, x)].count (kind, m) := by
  obtain ⟨e, stats, entries, he⟩ := w.spawnListener_eq node k x
  rw [he, copies, List.map_append, List.count_append]
  rfl

lemma goto_self (h : w.calls[c]? = some ⟨req, pc⟩) (hcalls : w₁.calls = w.calls) :
    (w₁.goto c pc').calls[c]? = some ⟨req, pc'⟩ := by
  rw [goto, hcalls, modify_eq_set h, getElem?_change_self h]

lemma goto_other (hcalls : w₁.calls = w.calls) (hd : d ≠ c) :
    (w₁.goto c pc').calls[d]? = w.calls[d]? := by
  have hmodify : (w₁.goto c pc').calls =
      w₁.calls.modify c fun call => { call with pc := pc' } := rfl
  rw [hmodify, List.getElem?_modify, hcalls]
  simp [Ne.symm hd]

section

variable (hr : Race w₀ s c kind spec m pushed copied stored looked early late pcs pca w)
include hr

lemma Race.ne : s ≠ c := by
  rintro rfl
  have h := hr.start.symm.trans hr.add
  cases h

lemma Race.who (h : w.calls[d]? = some ⟨req, pc⟩) (hpc : ∀ r, pc ≠ .done r) :
    d = s ∧ req = .start ∧ pc = pcs ∨ d = c ∧ req = .add kind spec ∧ pc = pca := by
  by_cases hs : d = s
  · subst hs
    rw [hr.start] at h
    cases h
    exact Or.inl ⟨rfl, rfl, rfl⟩
  · by_cases hc : d = c
    · subst hc
      rw [hr.add] at h
      cases h
      exact Or.inr ⟨rfl, rfl, rfl⟩
    · obtain ⟨r, hr⟩ := hr.others d _ hs hc h
      exact absurd hr (hpc r)

lemma Race.start_moves {copied' stored' early' : Prop} (hcalls : w₁.calls = w.calls)
    (hm : w₁.mappings = w.mappings) (hat : pc'.StartAt kind copied' stored')
    (hun : ¬stored' → w₁.state = w₀.state) (hst : stored' → w₁.state ≠ none)
    (hch : pc' ≠ .entered → (∀ e, pc' ≠ .done (.error e)) → w₀.state = none)
    (hec : early' → copied')
    (htot : w₀.state = none →
      ∃ x y, w₁.copies kind m + pc'.jobs.count (kind, m) = w₀.copies kind m + x + y ∧
        x ≤ 1 ∧ (x = 1 ↔ early') ∧ y ≤ 1 ∧ (y = 1 ↔ late)) :
    Race w₀ s c kind spec m pushed copied' stored' looked early' late pc' pca
      (w₁.goto s pc') where
  start := goto_self hr.start hcalls
  startAt := hat
  add := by
    rw [goto_other hcalls hr.ne.symm]
    exact hr.add
  addAt := hr.addAt
  others d call hs hc hd := by
    rw [goto_other hcalls hs] at hd
    exact hr.others d call hs hc hd
  absent h := by
    rw [goto, hm]
    exact hr.absent h
  present h := by
    rw [goto, hm]
    exact hr.present h
  unstored := hun
  stored := hst
  checked := hch
  early_copied := hec
  late_looked := hr.late_looked
  total := htot

lemma Race.add_moves {pushed' looked' late' : Prop} (hcalls : w₁.calls = w.calls)
    (hat : pc'.AddAt m pushed' looked') (habs : ¬pushed' → (w₁.mappings kind).count m = 0)
    (hpre : pushed' → (w₁.mappings kind).count m = 1) (hst : w₁.state = w.state)
    (hll : late' → looked')
    (htot : w₀.state = none →
      ∃ x y, w₁.copies kind m + pcs.jobs.count (kind, m) = w₀.copies kind m + x + y ∧
        x ≤ 1 ∧ (x = 1 ↔ early) ∧ y ≤ 1 ∧ (y = 1 ↔ late')) :
    Race w₀ s c kind spec m pushed' copied stored looked' early late' pcs pc'
      (w₁.goto c pc') where
  start := by
    rw [goto_other hcalls hr.ne]
    exact hr.start
  startAt := hr.startAt
  add := goto_self hr.add hcalls
  addAt := hat
  others d call hs hc hd := by
    rw [goto_other hcalls hc] at hd
    exact hr.others d call hs hc hd
  absent := habs
  present := hpre
  unstored h := hst.trans (hr.unstored h)
  stored h := by
    rw [goto, hst]
    exact hr.stored h
  checked := hr.checked
  early_copied := hr.early_copied
  late_looked := hll
  total := htot

lemma Race.start_quiet (hcalls : w₁.calls = w.calls) (hm : w₁.mappings = w.mappings)
    (hat : pc'.StartAt kind copied stored) (hst : w₁.state = w.state)
    (htasks : w₁.tasks = w.tasks) (hjobs : pc'.jobs.count (kind, m) = pcs.jobs.count (kind, m))
    (hch : pc' ≠ .entered → (∀ e, pc' ≠ .done (.error e)) → w₀.state = none) :
    Race w₀ s c kind spec m pushed copied stored looked early late pc' pca (w₁.goto s pc') := by
  refine hr.start_moves hcalls hm hat (fun h => hst.trans (hr.unstored h)) ?_ hch
    hr.early_copied ?_
  · rw [hst]
    exact hr.stored
  · rw [hjobs, copies, htasks]
    exact hr.total

lemma Race.task {i : ℕ} {t t' : Task} {b : TaskAction} (ht : w.tasks[i]? = some t)
    (hstep : Task.Step t b t') :
    Race w₀ s c kind spec m pushed copied stored looked early late pcs pca
      (w.afterTask i t b t') := by
  have hsame : (t'.kind, t'.mapping) = (t.kind, t.mapping) := by cases hstep <;> rfl
  have hmap : (w.tasks.map fun t => (t.kind, t.mapping))[i]? = some (t.kind, t.mapping) := by
    rw [List.getElem?_map, ht]
    rfl
  have hcopies : (w.afterTask i t b t').copies kind m = w.copies kind m := by
    rw [copies, copies, afterTask, setTask, List.map_set, hsame, set_same hmap]
  exact { hr with total := by rw [hcopies]; exact hr.total }

lemma Race.quiet_start {x : Section} (hx : x ≠ .addPush ∧ x ≠ .startCopy kind ∧
      x ≠ .startPublish ∧ x ≠ .addLook) (hcalls : w₁.calls = w.calls)
    (hm : w₁.mappings = w.mappings) (hst : w₁.state = w.state) (htasks : w₁.tasks = w.tasks)
    (hjobs : pc'.jobs.count (kind, m) = pcs.jobs.count (kind, m))
    (hch : pc' ≠ .entered → (∀ e, pc' ≠ .done (.error e)) → w₀.state = none)
    (hat : pc'.StartAt kind copied stored) :
    Raced w₀ s c kind spec m pushed copied stored looked early late (.call s x)
      (w₁.goto s pc') := by
  obtain ⟨h₁, h₂, h₃, h₄⟩ := hx
  exact .quiet (by simp [h₁]) (by simp [h₂]) (by simp [h₃]) (by simp [h₄])
    (hr.start_quiet hcalls hm hat hst htasks hjobs hch)

lemma Race.copied_kind {copy : Kind} {kinds : List Kind} {jobs : List (Kind × Mapping)}
    (hpcs : pcs = .copying (copy :: kinds) jobs) :
    Raced w₀ s c kind spec m pushed copied stored looked early late (.call s (.startCopy copy))
      (w.goto s (.copying kinds (jobs ++ (w.mappings copy).map fun m => (copy, m)))) := by
  subst hpcs
  obtain ⟨⟨before, hall⟩, hcopied, hstored⟩ := hr.startAt
  have hall' : (before ++ [copy]) ++ kinds = allKinds := by simpa using hall
  by_cases hk : copy = kind
  · subst hk
    have hnodup : (before ++ copy :: kinds).Nodup := by
      rw [hall]
      decide
    have hnot : copy ∉ kinds :=
      (List.nodup_cons.mp (List.nodup_append.mp hnodup).2.1).1
    have hearly : ¬early := fun he => hcopied.mp (hr.early_copied he) List.mem_cons_self
    refine .copy rfl (hr.start_moves rfl rfl ⟨⟨_, hall'⟩, by simp [hnot], hstored⟩ hr.unstored
      hr.stored (fun _ _ => hr.checked (by simp) (by simp)) (fun _ => trivial) fun h0 => ?_)
    obtain ⟨x, y, htot, hx, hxe, hy⟩ := hr.total h0
    have hx0 : x = 0 := by
      by_contra hne
      exact hearly (hxe.mp (by omega))
    simp only [Pc.jobs, List.count_append, count_map_pair] at htot ⊢
    by_cases hp : pushed
    · exact ⟨1, y, by rw [hr.present hp]; omega, le_rfl, by simp [hp], hy⟩
    · exact ⟨0, y, by rw [hr.absent hp]; omega, Nat.zero_le 1, by simp [hp], hy⟩
  · refine hr.quiet_start (by simp [hk]) rfl rfl rfl rfl ?_
      (fun _ _ => hr.checked (by simp) (by simp)) ⟨⟨_, hall'⟩, ?_, hstored⟩
    · simp only [Pc.jobs, List.count_append, Nat.add_eq_left, List.count_eq_zero, List.mem_map]
      rintro ⟨x, -, he⟩
      exact hk (congrArg Prod.fst he)
    · rw [hcopied, List.mem_cons, not_or]
      exact and_iff_right (Ne.symm hk)

lemma Race.checked_node (hpcs : pcs = .entered) :
    Raced w₀ s c kind spec m pushed copied stored looked early late (.call s .startCheck)
      (w.startCheck s) := by
  subst hpcs
  have hat := hr.startAt
  rw [startCheck]
  split
  · exact hr.quiet_start (by simp) rfl rfl rfl rfl rfl (by simp) hat
  · next hn =>
    have h0 : w₀.state = none := (hr.unstored hat.2).symm.trans hn
    exact hr.quiet_start (by simp) rfl rfl rfl rfl rfl (fun _ _ => h0) hat

lemma Race.taken_config (hpcs : pcs = .configuring) :
    Raced w₀ s c kind spec m pushed copied stored looked early late (.call s .startConfig)
      (w.startConfig s) := by
  subst hpcs
  have hat := hr.startAt
  have h0 := hr.checked (by simp) (by simp)
  rw [startConfig]
  split
  · exact hr.quiet_start (by simp) rfl rfl rfl rfl rfl (fun _ _ => h0) hat
  · split
    · exact hr.quiet_start (by simp) rfl rfl rfl rfl rfl (fun _ _ => h0) hat
    · refine hr.quiet_start (by simp) rfl rfl rfl rfl rfl (fun _ _ => h0) ⟨⟨[], rfl⟩, ?_, hat.2⟩
      exact ⟨fun h => absurd h hat.1, fun h => absurd (by cases kind <;> simp [allKinds]) h⟩

lemma Race.spawned_job {node : ℕ} {k : Kind} {x : Mapping} {jobs : List (Kind × Mapping)}
    (hpcs : pcs = .spawning node ((k, x) :: jobs)) :
    Raced w₀ s c kind spec m pushed copied stored looked early late (.call s .startSpawn)
      ((w.spawnListener node k x).goto s (.spawning node jobs)) := by
  subst hpcs
  obtain ⟨e, stats, entries, he⟩ := w.spawnListener_eq node k x
  refine .quiet (by simp) (by simp) (by simp) (by simp)
    (hr.start_moves (by rw [he]) (by rw [he]) hr.startAt (by rw [he]; exact hr.unstored)
      (by rw [he]; exact hr.stored) (fun _ _ => hr.checked (by simp) (by simp))
      hr.early_copied fun h0 => ?_)
  obtain ⟨i, j, htot, hij⟩ := hr.total h0
  refine ⟨i, j, ?_, hij⟩
  have hcount : ((k, x) :: jobs).count (kind, m) =
      [(k, x)].count (kind, m) + jobs.count (kind, m) := by
    rw [← List.count_append, List.singleton_append]
  simp only [Pc.jobs, hcount] at htot ⊢
  rw [copies_spawnListener]
  omega

lemma Race.pushed_mapping (hparse : kind.parse spec = .ok m) (hpca : pca = .entered) :
    Raced w₀ s c kind spec m pushed copied stored looked early late (.call c .addPush)
      (w.addPush c kind spec) := by
  subst hpca
  have hpush := hr.addAt
  have hmem : ((w.setMappings kind (w.mappings kind ++ [m])).mappings kind).count m = 1 := by
    simp [setMappings, hr.absent hpush.1]
  rw [addPush, hparse]
  exact .push rfl (hr.add_moves rfl ⟨rfl, trivial, hpush.2⟩ (by simp) (fun _ => hmem) rfl
    hr.late_looked hr.total)

lemma Race.total_early (hlate : ¬late) (h0 : w₀.state = none) :
    ∃ i, w.copies kind m + pcs.jobs.count (kind, m) = w₀.copies kind m + i ∧ i ≤ 1 ∧
      (i = 1 ↔ early) := by
  obtain ⟨i, j, htot, hi, hie, hj, hjl⟩ := hr.total h0
  have hj0 : j = 0 := by
    by_contra hne
    exact hlate (hjl.mp (by omega))
  exact ⟨i, by omega, hi, hie⟩

lemma Race.looked_node {x : Mapping} (hpca : pca = .adding x) :
    Raced w₀ s c kind spec m pushed copied stored looked early late (.call c .addLook)
      (w.addLook c kind x) := by
  subst hpca
  obtain ⟨rfl, hpushed, hlooked⟩ := hr.addAt
  have hlate : ¬late := fun h => hlooked (hr.late_looked h)
  rw [addLook]
  split
  · next node hn =>
    obtain ⟨e, stats, entries, he⟩ := w.spawnListener_eq node kind x
    refine .look rfl (hr.add_moves (by rw [he]) ⟨hpushed, trivial⟩ (by simp [hpushed])
      (by rw [he]; exact hr.present) (by rw [he]) (fun _ => trivial) fun h0 => ?_)
    obtain ⟨i, htot, hi⟩ := hr.total_early hlate h0
    have hstored : stored := by
      by_contra hns
      rw [hr.unstored hns, h0] at hn
      cases hn
    refine ⟨i, 1, ?_, hi.1, hi.2, le_rfl, by simp [hstored]⟩
    rw [copies_spawnListener]
    simp only [List.count_singleton_self]
    omega
  · next hn =>
    have hstored : ¬stored := fun h => hr.stored h hn
    refine .look rfl (hr.add_moves rfl ⟨hpushed, trivial⟩ (by simp [hpushed])
      hr.present rfl (fun _ => trivial) fun h0 => ?_)
    obtain ⟨i, htot, hi⟩ := hr.total_early hlate h0
    exact ⟨i, 0, htot, hi.1, hi.2, Nat.zero_le 1, by simp [hstored]⟩

lemma race_step (hparse : kind.parse spec = .ok m) (hs : Step w a w')
    (hb : ∀ req, a ≠ .begin req) :
    Raced w₀ s c kind spec m pushed copied stored looked early late a w' := by
  have hat := hr.startAt
  cases hs with
  | begin req => exact absurd rfl (hb req)
  | loadConfig h | stopTake h | stopTeardown h | removeRetain h | removeTake h | clearList h =>
    rcases hr.who h (by simp) with ⟨-, he, -⟩ | ⟨-, he, -⟩ <;> cases he
  | drain h | signal h | abort h | join h | signalled h =>
    rcases hr.who h (by simp) with ⟨-, -, rfl⟩ | ⟨-, -, rfl⟩
    · exact hat.elim
    · exact hr.addAt.elim
  | startCheck h =>
    obtain ⟨rfl, -, rfl⟩ := (hr.who h (by simp)).resolve_right (by simp)
    exact hr.checked_node rfl
  | startConfig h =>
    obtain ⟨rfl, -, rfl⟩ := (hr.who h (by simp)).resolve_right (by simp)
    exact hr.taken_config rfl
  | startCopy h =>
    obtain ⟨rfl, -, rfl⟩ := (hr.who h (by simp)).resolve_right (by simp)
    exact hr.copied_kind rfl
  | startBuild h hl =>
    obtain ⟨rfl, -, rfl⟩ := (hr.who h (by simp)).resolve_right (by simp)
    exact hr.quiet_start (by simp) rfl rfl rfl rfl rfl
      (fun _ _ => hr.checked (by simp) (by simp)) ⟨hat.2.1.mpr (by simp), hat.2.2⟩
  | startSpawn h =>
    obtain ⟨rfl, -, rfl⟩ := (hr.who h (by simp)).resolve_right (by simp)
    exact hr.spawned_job rfl
  | startBuilt h =>
    obtain ⟨rfl, -, rfl⟩ := (hr.who h (by simp)).resolve_right (by simp)
    exact hr.quiet_start (by simp) rfl rfl rfl rfl rfl
      (fun _ _ => hr.checked (by simp) (by simp)) hat
  | startPublish h =>
    obtain ⟨rfl, -, rfl⟩ := (hr.who h (by simp)).resolve_right (by simp)
    exact .store rfl (hr.start_moves rfl rfl ⟨hat.1, trivial⟩ (by simp) (by simp [publish])
      (fun _ _ => hr.checked (by simp) (by simp)) hr.early_copied hr.total)
  | addPush h =>
    obtain ⟨rfl, he, rfl⟩ := (hr.who h (by simp)).resolve_left (by simp)
    cases he
    exact hr.pushed_mapping hparse rfl
  | addLook h hl =>
    obtain ⟨rfl, he, rfl⟩ := (hr.who h (by simp)).resolve_left (by simp)
    cases he
    exact hr.looked_node rfl
  | task ht hstep =>
    exact .quiet (by simp) (by simp) (by simp) (by simp) (hr.task ht hstep)

end

structure Together (w : World) (s c : ℕ) (kind : Kind) (spec : String) (m : Mapping) : Prop where
  start : w.calls[s]? = some ⟨.start, .entered⟩
  add : w.calls[c]? = some ⟨.add kind spec, .entered⟩
  others : ∀ d call, d ≠ s → d ≠ c → w.calls[d]? = some call → ∃ r, call.pc = .done r
  parse : kind.parse spec = .ok m
  fresh : m ∉ w.mappings kind

def RaceAfter (w₀ : World) (s c : ℕ) (kind : Kind) (spec : String) (m : Mapping)
    (actions : List Action) (w : World) : Prop :=
  ∃ pcs pca, Race w₀ s c kind spec m (.call c .addPush ∈ actions)
    (.call s (.startCopy kind) ∈ actions) (.call s .startPublish ∈ actions)
    (.call c .addLook ∈ actions)
    (Before (.call c .addPush) (.call s (.startCopy kind)) actions)
    (Before (.call s .startPublish) (.call c .addLook) actions) pcs pca w

lemma Together.raceAfter (h : Together w s c kind spec m) :
    RaceAfter w s c kind spec m [] w := by
  refine ⟨.entered, .entered, h.start, by simp [Pc.StartAt], h.add, by simp [Pc.AddAt], h.others,
    fun _ => List.count_eq_zero.mpr h.fresh, by simp, fun _ => rfl, by simp, by simp, ?_, ?_, ?_⟩
  · exact fun he => absurd he not_before_nil
  · exact fun he => absurd he not_before_nil
  · exact fun _ => ⟨0, 0, rfl, Nat.zero_le 1, by simp, Nat.zero_le 1, by simp⟩

lemma raceAfter_step {actions : List Action} (hparse : kind.parse spec = .ok m)
    (h : RaceAfter w₀ s c kind spec m actions w) (hs : Step w a w') (hb : ∀ req, a ≠ .begin req) :
    RaceAfter w₀ s c kind spec m (actions ++ [a]) w' := by
  obtain ⟨pcs, pca, hr⟩ := h
  cases race_step hr hparse hs hb with
  | @quiet pcs pca h₁ h₂ h₃ h₄ hr =>
    refine ⟨pcs, pca, ?_⟩
    simpa [before_snoc, h₂, h₄, Ne.symm h₁, Ne.symm h₂, Ne.symm h₃, Ne.symm h₄] using hr
  | @push pcs pca ha hr =>
    subst ha
    refine ⟨pcs, pca, ?_⟩
    simpa [before_snoc] using hr
  | @copy pcs pca ha hr =>
    subst ha
    refine ⟨pcs, pca, ?_⟩
    simpa [before_snoc, or_iff_right_of_imp Before.mem] using hr
  | @store pcs pca ha hr =>
    subst ha
    refine ⟨pcs, pca, ?_⟩
    simpa [before_snoc] using hr
  | @look pcs pca ha hr =>
    subst ha
    refine ⟨pcs, pca, ?_⟩
    simpa [before_snoc, or_iff_right_of_imp Before.mem] using hr

/-- When the calls succeed, one listener is started for the mapping exactly if either `start`
copies it or `add_*` finds the node, but not both. -/
theorem one_listener_iff {actions : List Action} (h : Together w s c kind spec m)
    (hrun : Run Step w actions w') (hb : ∀ req, .begin req ∉ actions)
    (hs : w'.calls[s]? = some ⟨.start, .done (.ok ())⟩) :
    w'.copies kind m = w.copies kind m + 1 ↔
      Xor (Before (.call c .addPush) (.call s (.startCopy kind)) actions)
        (Before (.call s .startPublish) (.call c .addLook) actions) := by
  have hguard := hrun.guard (p := fun _ a => ∀ req, a ≠ .begin req) fun a ha _ req he =>
    hb req (he ▸ ha)
  obtain ⟨pcs, pca, hr⟩ := hguard.history h.raceAfter fun bs _ a _ hrace hstep =>
    raceAfter_step h.parse hrace hstep.1 hstep.2
  obtain rfl : pcs = .done (.ok ()) := by
    have he := hr.start.symm.trans hs
    cases he
    rfl
  obtain ⟨x, y, htot, hx, hxe, hy, hyl⟩ := hr.total (hr.checked (by simp) (by simp))
  rw [← hxe, ← hyl]
  simp only [Pc.jobs, List.count_nil] at htot
  constructor
  · intro h1
    have hxy : x = 1 ∧ y = 0 ∨ x = 0 ∧ y = 1 := by omega
    rcases hxy with ⟨rfl, rfl⟩ | ⟨rfl, rfl⟩
    · exact Or.inl ⟨rfl, by simp⟩
    · exact Or.inr ⟨rfl, by simp⟩
  · rintro (⟨h1, h2⟩ | ⟨h1, h2⟩) <;> omega

def bothCalled : World :=
  { initial with
    cfg := some ⟨.ok []⟩
    calls := [⟨.loadConfig (.ok ⟨.ok []⟩), .done (.ok ())⟩, ⟨.start, .entered⟩,
      ⟨.add .remoteTcp "80", .entered⟩] }

def port80 : Mapping := ⟨⟨Inet.unspecified, 80⟩, ⟨Inet.localhost, 80⟩⟩

lemma bothCalled_reachable : Reachable bothCalled :=
  ⟨_, .cons (.begin _ (.loadConfig (.ok ⟨.ok []⟩))) <| .cons (.loadConfig (c := 0) rfl) <|
    .cons (.begin _ .start) <| .cons (.begin _ (.add .remoteTcp "80")) <| .nil _⟩

lemma bothCalled_together : Together bothCalled 1 2 .remoteTcp "80" port80 where
  start := rfl
  add := rfl
  others d call hs hc hd := by
    match d with
    | 0 =>
      cases hd
      exact ⟨_, rfl⟩
    | 1 => exact absurd rfl hs
    | 2 => exact absurd rfl hc
    | n + 3 => cases hd
  parse := rfl
  fresh := List.not_mem_nil

theorem added_before_start : ∃ actions w, Run Step bothCalled actions w ∧
    w.copies .remoteTcp port80 = 1 := by
  have hrun : Run Step bothCalled _ _ :=
    .cons (.startCheck (c := 1) rfl) <| .cons (.startConfig (c := 1) rfl) <|
    .cons (.addPush (c := 2) rfl) <| .cons (.startCopy (c := 1) rfl) <|
    .cons (.startCopy (c := 1) rfl) <| .cons (.startCopy (c := 1) rfl) <|
    .cons (.startCopy (c := 1) rfl) <| .cons (.startBuild (c := 1) rfl rfl) <|
    .cons (.startSpawn (c := 1) rfl) <| .cons (.startBuilt (c := 1) rfl) <|
    .cons (.addLook (c := 2) rfl (Or.inl rfl)) <| .cons (.startPublish (c := 1) rfl) <| .nil _
  refine ⟨_, _, hrun, (one_listener_iff bothCalled_together hrun (by simp) rfl).mpr
    (Or.inl ⟨by simp [before_cons], by simp [before_cons]⟩)⟩

theorem listener_doubled : ∃ actions w, Reachable bothCalled ∧ Run Step bothCalled actions w ∧
    w.calls[1]? = some ⟨.start, .done (.ok ())⟩ ∧
    w.calls[2]? = some ⟨.add .remoteTcp "80", .done (.ok ())⟩ ∧
    w.copies .remoteTcp port80 = 2 := by
  have hrun : Run Step bothCalled _ _ :=
    .cons (.startCheck (c := 1) rfl) <| .cons (.startConfig (c := 1) rfl) <|
    .cons (.addPush (c := 2) rfl) <| .cons (.startCopy (c := 1) rfl) <|
    .cons (.startCopy (c := 1) rfl) <| .cons (.startCopy (c := 1) rfl) <|
    .cons (.startCopy (c := 1) rfl) <| .cons (.startBuild (c := 1) rfl rfl) <|
    .cons (.startSpawn (c := 1) rfl) <| .cons (.startBuilt (c := 1) rfl) <|
    .cons (.startPublish (c := 1) rfl) <| .cons (.addLook (c := 2) rfl (Or.inr rfl)) <| .nil _
  exact ⟨_, _, bothCalled_reachable, hrun, rfl, rfl, by decide⟩

end World

end Yggstack.Mobile
