import Yggstack.Mobile.Moves

/-! Calls made one after another. While a call is in progress, the mapping lists, `listeners` and
the running node are what they were before, as far as the call has not got to them. -/

namespace Yggstack.Mobile

open Library Forward

namespace World

variable {w w' w₀ w₁ : World} {a : Action} {c : ℕ} {req req' : Request} {pc pc' : Pc}

def Idle (w : World) : Prop := ∀ call ∈ w.calls, ∃ r, call.pc = .done r

def Mapped (w : World) (key : String) : Prop := ∃ kind m, m ∈ w.mappings kind ∧ kind.key m = key

structure Coherent (w : World) : Prop where
  running : w.state ≠ none → ∀ key, w.listeners.find key ≠ none ↔ w.Mapped key
  stopped : w.state = none → ∀ key, w.listeners.find key = none

structure Unchanged (w₀ w : World) : Prop where
  mappings : w.mappings = w₀.mappings
  listeners : w.listeners = w₀.listeners
  state : w.state = w₀.state

def jobs (w : World) (kinds : List Kind) : List (Kind × Mapping) :=
  kinds.flatMap fun kind => (w.mappings kind).map fun m => (kind, m)

def pushed (w : World) (kind : Kind) (m : Mapping) : Kind → List Mapping :=
  Function.update w.mappings kind (w.mappings kind ++ [m])

def retained (w : World) (kind : Kind) (m : Mapping) : Kind → List Mapping :=
  Function.update w.mappings kind ((w.mappings kind).filter fun x => kind.key x ≠ kind.key m)

/-- What a call has done so far, when it is at `pc` and found `w₀`. -/
def Progress (w₀ : World) : Request → Pc → World → Prop
  | .loadConfig _, .entered, w => Unchanged w₀ w
  | .loadConfig _, .done _, w => Unchanged w₀ w
  | .start, .entered, w => Unchanged w₀ w
  | .start, .configuring, w => Unchanged w₀ w ∧ w.state = none
  | .start, .copying kinds jobs, w =>
    Unchanged w₀ w ∧ w.state = none ∧ ∃ copied, copied ++ kinds = allKinds ∧ jobs = w₀.jobs copied
  | .start, .spawning _ jobs, w =>
    w.mappings = w₀.mappings ∧ w.state = none ∧
      ∀ key, w.listeners.find key ≠ none ∨ (∃ job ∈ jobs, job.1.key job.2 = key) ↔ w₀.Mapped key
  | .start, .built _, w =>
    w.mappings = w₀.mappings ∧ ∀ key, w.listeners.find key ≠ none ↔ w₀.Mapped key
  | .start, .done (.ok _), w =>
    w.mappings = w₀.mappings ∧ w.state ≠ none ∧ ∀ key, w.listeners.find key ≠ none ↔ w₀.Mapped key
  | .stop, .entered, w => Unchanged w₀ w
  | .stop, .tearing _ _, w | .stop, .draining, w => w.mappings = w₀.mappings ∧ w.state = none
  | .stop, .signalling _ _, w | .stop, .done (.ok _), w =>
    w.mappings = w₀.mappings ∧ w.state = none ∧ w.listeners = .empty
  | .add _ _, .entered, w => Unchanged w₀ w
  | .add kind spec, .adding m, w =>
    kind.parse spec = .ok m ∧ w.mappings = w₀.pushed kind m ∧ w.listeners = w₀.listeners ∧
      w.state = w₀.state
  | .add kind spec, .done (.ok _), w =>
    ∃ m, kind.parse spec = .ok m ∧ w.mappings = w₀.pushed kind m ∧ w.state = w₀.state ∧
      ∀ key, w.listeners.find key ≠ none ↔
        w₀.listeners.find key ≠ none ∨ w₀.state ≠ none ∧ key = kind.key m
  | .remove _ _, .entered, w => Unchanged w₀ w
  | .remove kind spec, .removing key, w =>
    ∃ m, kind.parse spec = .ok m ∧ key = kind.key m ∧ w.mappings = w₀.retained kind m ∧
      w.listeners = w₀.listeners ∧ w.state = w₀.state
  | .remove kind spec, .signalling _ _, w | .remove kind spec, .done (.ok _), w =>
    ∃ m, kind.parse spec = .ok m ∧ w.mappings = w₀.retained kind m ∧
      w.listeners = w₀.listeners.erase (kind.key m) ∧ w.state = w₀.state
  | .clearMappings, .clearing kinds, w =>
    (∀ kind, kind ∉ kinds → w.mappings kind = []) ∧ w.state = w₀.state
  | .clearMappings, .draining, w => (∀ kind, w.mappings kind = []) ∧ w.state = w₀.state
  | .clearMappings, .signalling _ _, w | .clearMappings, .done (.ok _), w =>
    (∀ kind, w.mappings kind = []) ∧ w.state = w₀.state ∧ w.listeners = .empty
  | .start, .done (.error _), w | .add _ _, .done (.error _), w
  | .remove _ _, .done (.error _), w => Unchanged w₀ w
  | _, _, _ => False

lemma Progress.congr (hp : Progress w₀ req pc w) (h : Unchanged w w') :
    Progress w₀ req pc w' := by
  obtain ⟨hm, hl, hs⟩ := h
  cases w
  cases w'
  dsimp only at hm hl hs
  subst hm hl hs
  unfold Progress at hp
  split at hp <;> first
    | exact hp
    | exact hp.elim
    | exact ⟨hp.1, hp.2, hp.3⟩
    | exact ⟨⟨hp.1.1, hp.1.2, hp.1.3⟩, hp.2⟩

def Current (w₀ : World) (req : Request) (pc : Pc) (w : World) : Prop :=
  w.calls = w₀.calls ++ [⟨req, pc⟩]

lemma Current.eq (hcur : Current w₀ req pc w) (hidle : w₀.Idle)
    (hc : w.calls[c]? = some ⟨req', pc'⟩) (hpc : ∀ r, pc' ≠ .done r) :
    c = w₀.calls.length ∧ req = req' ∧ pc = pc' := by
  rw [hcur, List.getElem?_append] at hc
  split at hc
  · obtain ⟨r, hr⟩ := hidle _ (List.mem_of_getElem? hc)
    exact absurd hr (hpc r)
  · next hlt =>
    have hz : c - w₀.calls.length = 0 := by
      by_contra hne
      rw [List.getElem?_eq_none (by simp; omega)] at hc
      cases hc
    rw [hz] at hc
    cases hc
    exact ⟨by omega, rfl, rfl⟩

lemma Current.goto (hcur : Current w₀ req pc w) (hcalls : w₁.calls = w.calls) :
    Current w₀ req pc' (w₁.goto w₀.calls.length pc') := by
  rw [Current, World.goto, hcalls, hcur]
  exact List.modifyTailIdx_add _ 0 _ _

@[simp] lemma goto_listeners : (w.goto c pc).listeners = w.listeners := rfl

@[simp] lemma goto_state : (w.goto c pc).state = w.state := rfl

@[simp] lemma finish_eq (r : Except YggstackError Unit) : w.finish c r = w.goto c (.done r) := rfl

lemma mapped_jobs {key : String} :
    (∃ job ∈ w.jobs allKinds, job.1.key job.2 = key) ↔ w.Mapped key := by
  constructor
  · rintro ⟨job, hjob, rfl⟩
    simp only [jobs, List.mem_flatMap, List.mem_map] at hjob
    obtain ⟨kind, -, m, hm, rfl⟩ := hjob
    exact ⟨kind, m, hm, rfl⟩
  · rintro ⟨kind, m, hm, rfl⟩
    refine ⟨(kind, m), ?_, rfl⟩
    simp only [jobs, List.mem_flatMap, List.mem_map]
    exact ⟨kind, by cases kind <;> simp [allKinds], m, hm, rfl⟩

lemma find_spawnListener {node : ℕ} {kind : Kind} {m : Mapping} (key : String) :
    (w.spawnListener node kind m).listeners.find key ≠ none ↔
      w.listeners.find key ≠ none ∨ key = kind.key m := by
  obtain ⟨e, stats, entries, he⟩ := w.spawnListener_eq node kind m
  rw [he, Store.find_insert]
  split <;> simp_all

lemma progress_begin (req : Request) : Progress w req req.entry w := by
  cases req with
  | clearMappings => exact ⟨fun kind hk => absurd (by cases kind <;> simp [allKinds]) hk, rfl⟩
  | _ => exact ⟨rfl, rfl, rfl⟩

def Advanced (w₀ : World) (req : Request) (w : World) : Prop :=
  ∃ pc, Current w₀ req pc w ∧ Progress w₀ req pc w

lemma advanced_startCheck (hcur : Current w₀ .start .entered w)
    (hp : Progress w₀ .start .entered w) : Advanced w₀ .start (w.startCheck w₀.calls.length) := by
  rw [startCheck]
  split
  · exact ⟨_, hcur.goto rfl, hp.1, hp.2, hp.3⟩
  · next hn => exact ⟨_, hcur.goto rfl, ⟨hp.1, hp.2, hp.3⟩, hn⟩

lemma advanced_startConfig (hcur : Current w₀ .start .configuring w)
    (hp : Progress w₀ .start .configuring w) :
    Advanced w₀ .start (w.startConfig w₀.calls.length) := by
  obtain ⟨hu, hn⟩ := hp
  rw [startConfig]
  split
  · exact ⟨_, hcur.goto rfl, hu.1, hu.2, hu.3⟩
  · split
    · exact ⟨_, hcur.goto rfl, hu.1, hu.2, hu.3⟩
    · exact ⟨_, hcur.goto rfl, ⟨hu.1, hu.2, hu.3⟩, hn, [], rfl, rfl⟩

section Building

variable {jobs : List (Kind × Mapping)} {node : ℕ} {kind : Kind} {m : Mapping}

lemma progress_copied {kinds : List Kind}
    (hp : Progress w₀ .start (.copying (kind :: kinds) jobs) w) : Progress w₀ .start
      (.copying kinds (jobs ++ (w.mappings kind).map fun m => (kind, m))) w := by
  obtain ⟨hu, hn, copied, hall, rfl⟩ := hp
  refine ⟨hu, hn, copied ++ [kind], by simpa using hall, ?_⟩
  simp [World.jobs, hu.mappings]

lemma progress_building (hw₀ : w₀.Coherent) (hp : Progress w₀ .start (.copying [] jobs) w) :
    Progress w₀ .start (.spawning node jobs) w := by
  obtain ⟨hu, hn, copied, hall, rfl⟩ := hp
  obtain rfl : copied = allKinds := by simpa using hall
  refine ⟨hu.mappings, hn, fun key => ?_⟩
  rw [mapped_jobs, or_iff_right]
  have hnone := hw₀.stopped (by rw [← hu.state, hn]) key
  rw [← hu.listeners] at hnone
  exact fun hne => hne hnone

lemma advanced_startSpawn (hcur : Current w₀ .start (.spawning node ((kind, m) :: jobs)) w)
    (hp : Progress w₀ .start (.spawning node ((kind, m) :: jobs)) w) :
    Advanced w₀ .start
      ((w.spawnListener node kind m).goto w₀.calls.length (.spawning node jobs)) := by
  obtain ⟨hm, hn, hkeys⟩ := hp
  obtain ⟨e, stats, entries, he⟩ := w.spawnListener_eq node kind m
  refine ⟨_, hcur.goto (by rw [he]), by rw [he]; exact hm, by rw [he]; exact hn, fun key => ?_⟩
  rw [← hkeys key, goto_listeners, find_spawnListener]
  simp only [List.mem_cons, exists_eq_or_imp, or_assoc]
  rw [@eq_comm _ key]

lemma progress_built (hp : Progress w₀ .start (.spawning node []) w) :
    Progress w₀ .start (.built node) w := by
  obtain ⟨hm, hn, hkeys⟩ := hp
  refine ⟨hm, fun key => ?_⟩
  rw [← hkeys key]
  simp

end Building

section Changes

variable {kind : Kind} {spec key : String} {m : Mapping}

lemma advanced_addPush (hcur : Current w₀ (.add kind spec) .entered w)
    (hp : Progress w₀ (.add kind spec) .entered w) :
    Advanced w₀ (.add kind spec) (w.addPush w₀.calls.length kind spec) := by
  rw [addPush]
  split
  · exact ⟨_, hcur.goto rfl, hp.1, hp.2, hp.3⟩
  · next m hm =>
    refine ⟨_, hcur.goto rfl, hm, ?_, hp.listeners, hp.state⟩
    rw [pushed, ← hp.mappings]
    rfl

lemma advanced_addLook (hcur : Current w₀ (.add kind spec) (.adding m) w)
    (hp : Progress w₀ (.add kind spec) (.adding m) w) :
    Advanced w₀ (.add kind spec) (w.addLook w₀.calls.length kind m) := by
  obtain ⟨hparse, hm, hl, hst⟩ := hp
  rw [addLook]
  split
  · next node hn =>
    obtain ⟨e, stats, entries, he⟩ := w.spawnListener_eq node kind m
    refine ⟨_, hcur.goto (by rw [he]), m, hparse, by rw [he]; exact hm, by rw [he]; exact hst,
      fun key => ?_⟩
    rw [finish_eq, goto_listeners, find_spawnListener, hl, ← hst, hn]
    simp
  · next hn =>
    refine ⟨_, hcur.goto rfl, m, hparse, hm, hst, fun key => ?_⟩
    rw [finish_eq, goto_listeners, hl, ← hst, hn]
    simp

lemma advanced_removeRetain (hcur : Current w₀ (.remove kind spec) .entered w)
    (hp : Progress w₀ (.remove kind spec) .entered w) :
    Advanced w₀ (.remove kind spec) (w.removeRetain w₀.calls.length kind spec) := by
  rw [removeRetain]
  split
  · exact ⟨_, hcur.goto rfl, hp.1, hp.2, hp.3⟩
  · next m hm =>
    refine ⟨_, hcur.goto rfl, m, hm, rfl, ?_, hp.listeners, hp.state⟩
    rw [retained, ← hp.mappings]
    rfl

lemma advanced_removeTake (hcur : Current w₀ (.remove kind spec) (.removing key) w)
    (hp : Progress w₀ (.remove kind spec) (.removing key) w) :
    Advanced w₀ (.remove kind spec) (w.removeTake w₀.calls.length key) := by
  obtain ⟨m, hparse, rfl, hm, hl, hst⟩ := hp
  rw [removeTake]
  split
  · exact ⟨_, hcur.goto rfl, m, hparse, hm, by simp [hl], hst⟩
  · next hn =>
    refine ⟨_, hcur.goto rfl, m, hparse, hm, ?_, hst⟩
    rw [← hl, Store.erase_of_find hn]
    rfl

lemma advanced_clearList {kinds : List Kind}
    (hcur : Current w₀ .clearMappings (.clearing (kind :: kinds)) w)
    (hp : Progress w₀ .clearMappings (.clearing (kind :: kinds)) w) :
    Advanced w₀ .clearMappings (w.clearList w₀.calls.length kind kinds) := by
  obtain ⟨hm, hst⟩ := hp
  have hcleared : ∀ k, k ∉ kinds → (w.clearList w₀.calls.length kind kinds).mappings k = [] := by
    intro k hk
    rw [clearList]
    by_cases he : k = kind
    · subst he
      exact Function.update_self ..
    · refine (Function.update_of_ne he ..).trans (hm k ?_)
      simp [he, hk]
  refine ⟨_, hcur.goto rfl, ?_⟩
  split
  · next he =>
    subst he
    exact ⟨fun k => hcleared k (by simp), hst⟩
  · exact ⟨hcleared, hst⟩

end Changes

lemma advanced_stopTake (hcur : Current w₀ .stop .entered w) (hp : Progress w₀ .stop .entered w) :
    Advanced w₀ .stop (w.stopTake w₀.calls.length) := by
  rw [stopTake]
  split
  · exact ⟨_, hcur.goto rfl, hp.mappings, rfl⟩
  · next hn => exact ⟨_, hcur.goto rfl, hp.mappings, hn⟩

lemma advanced_stopTeardown {node : ℕ} {stage : Stage}
    (hcur : Current w₀ .stop (.tearing node stage) w)
    (hp : Progress w₀ .stop (.tearing node stage) w) :
    Advanced w₀ .stop (w.stopTeardown w₀.calls.length node stage) := by
  rw [stopTeardown]
  split <;> exact ⟨_, hcur.goto rfl, hp⟩

lemma progress_step (hidle : w₀.Idle) (hw₀ : w₀.Coherent) (hcur : Current w₀ req pc w)
    (hp : Progress w₀ req pc w) (hs : Step w a w') (ha : ∀ req, a ≠ .begin req) :
    Advanced w₀ req w' := by
  have at_call {d : ℕ} {req' : Request} {pc' : Pc} (h : w.calls[d]? = some ⟨req', pc'⟩)
      (hpc : ∀ r, pc' ≠ .done r) : d = w₀.calls.length ∧ req = req' ∧ pc = pc' :=
    hcur.eq hidle h hpc
  cases hs with
  | begin req => exact absurd rfl (ha req)
  | @loadConfig c parsed h =>
    obtain ⟨rfl, rfl, rfl⟩ := at_call h (by simp)
    cases parsed with
    | ok cfg => exact ⟨_, hcur.goto rfl, hp.1, hp.2, hp.3⟩
    | error e => exact ⟨_, hcur.goto rfl, hp.1, hp.2, hp.3⟩
  | startCheck h =>
    obtain ⟨rfl, rfl, rfl⟩ := at_call h (by simp)
    exact advanced_startCheck hcur hp
  | startConfig h =>
    obtain ⟨rfl, rfl, rfl⟩ := at_call h (by simp)
    exact advanced_startConfig hcur hp
  | startCopy h =>
    obtain ⟨rfl, rfl, rfl⟩ := at_call h (by simp)
    exact ⟨_, hcur.goto rfl, (progress_copied hp).congr ⟨rfl, rfl, rfl⟩⟩
  | startBuild h hl =>
    obtain ⟨rfl, rfl, rfl⟩ := at_call h (by simp)
    exact ⟨_, hcur.goto rfl, (progress_building hw₀ hp).congr ⟨rfl, rfl, rfl⟩⟩
  | startSpawn h =>
    obtain ⟨rfl, rfl, rfl⟩ := at_call h (by simp)
    exact advanced_startSpawn hcur hp
  | startBuilt h =>
    obtain ⟨rfl, rfl, rfl⟩ := at_call h (by simp)
    exact ⟨_, hcur.goto rfl, (progress_built hp).congr ⟨rfl, rfl, rfl⟩⟩
  | startPublish h =>
    obtain ⟨rfl, rfl, rfl⟩ := at_call h (by simp)
    exact ⟨_, hcur.goto rfl, hp.1, by simp [publish], hp.2⟩
  | stopTake h =>
    obtain ⟨rfl, rfl, rfl⟩ := at_call h (by simp)
    exact advanced_stopTake hcur hp
  | stopTeardown h =>
    obtain ⟨rfl, rfl, rfl⟩ := at_call h (by simp)
    exact advanced_stopTeardown hcur hp
  | addPush h =>
    obtain ⟨rfl, rfl, rfl⟩ := at_call h (by simp)
    exact advanced_addPush hcur hp
  | addLook h hl =>
    obtain ⟨rfl, rfl, rfl⟩ := at_call h (by simp)
    exact advanced_addLook hcur hp
  | removeRetain h =>
    obtain ⟨rfl, rfl, rfl⟩ := at_call h (by simp)
    exact advanced_removeRetain hcur hp
  | removeTake h hl =>
    obtain ⟨rfl, rfl, rfl⟩ := at_call h (by simp)
    exact advanced_removeTake hcur hp
  | clearList h =>
    obtain ⟨rfl, rfl, rfl⟩ := at_call h (by simp)
    exact advanced_clearList hcur hp
  | drain h =>
    obtain ⟨rfl, rfl, rfl⟩ := at_call h (by simp)
    cases req with
    | stop | clearMappings => exact ⟨_, hcur.goto rfl, hp.1, hp.2, rfl⟩
    | _ => exact hp.elim
  | signal h | join h =>
    obtain ⟨rfl, rfl, rfl⟩ := at_call h (by simp)
    refine ⟨_, hcur.goto rfl, ?_⟩
    cases req <;> exact hp
  | signalled h =>
    obtain ⟨rfl, rfl, rfl⟩ := at_call h (by simp)
    refine ⟨_, hcur.goto rfl, ?_⟩
    cases req with
    | stop | remove | clearMappings => exact hp
    | _ => exact hp.elim
  | abort | task => exact ⟨pc, hcur, hp.congr ⟨rfl, rfl, rfl⟩⟩

lemma retained_eq (kind : Kind) (m : Mapping) (kind' : Kind) :
    w.retained kind m kind' = (w.mappings kind').filter fun x => kind'.key x ≠ kind.key m := by
  by_cases hk : kind' = kind
  · subst hk
    exact Function.update_self ..
  · have hkeep : ∀ x ∈ w.mappings kind', decide (kind'.key x ≠ kind.key m) = true :=
      fun x _ => decide_eq_true (Kind.key_ne hk x m)
    rw [List.filter_eq_self.mpr hkeep]
    exact Function.update_of_ne hk ..

lemma mapped_retained {kind : Kind} {m : Mapping} (hm : w.mappings = w₀.retained kind m)
    (key : String) : w.Mapped key ↔ w₀.Mapped key ∧ key ≠ kind.key m := by
  simp only [Mapped, hm, retained_eq, List.mem_filter, decide_eq_true_eq]
  constructor
  · rintro ⟨k, x, ⟨hx, hne⟩, rfl⟩
    exact ⟨⟨k, x, hx, rfl⟩, hne⟩
  · rintro ⟨⟨k, x, hx, rfl⟩, hne⟩
    exact ⟨k, x, ⟨hx, hne⟩, rfl⟩

lemma mapped_pushed {kind : Kind} {m : Mapping} (hm : w.mappings = w₀.pushed kind m)
    (key : String) : w.Mapped key ↔ w₀.Mapped key ∨ key = kind.key m := by
  have hmem : ∀ k x, x ∈ w.mappings k ↔ x ∈ w₀.mappings k ∨ k = kind ∧ x = m := by
    intro k x
    rw [hm, pushed]
    by_cases hk : k = kind
    · subst hk
      simp
    · simp [hk]
  constructor
  · rintro ⟨k, x, hx, rfl⟩
    rcases (hmem k x).mp hx with hx | ⟨rfl, rfl⟩
    · exact Or.inl ⟨k, x, hx, rfl⟩
    · exact Or.inr rfl
  · rintro (⟨k, x, hx, rfl⟩ | rfl)
    · exact ⟨k, x, (hmem k x).mpr (Or.inl hx), rfl⟩
    · exact ⟨kind, m, (hmem kind m).mpr (Or.inr ⟨rfl, rfl⟩), rfl⟩

lemma mapped_congr (hm : w.mappings = w₀.mappings) (key : String) :
    w.Mapped key ↔ w₀.Mapped key := by
  simp only [Mapped, hm]

lemma Unchanged.coherent (h : Unchanged w₀ w) (hw₀ : w₀.Coherent) : w.Coherent where
  running hr key := by
    rw [h.state] at hr
    rw [h.listeners, mapped_congr h.mappings]
    exact hw₀.running hr key
  stopped hn key := by
    rw [h.state] at hn
    rw [h.listeners]
    exact hw₀.stopped hn key

lemma Progress.coherent {r : Except YggstackError Unit} (hp : Progress w₀ req (.done r) w)
    (hw₀ : w₀.Coherent) : w.Coherent := by
  cases req with
  | loadConfig => exact hp.coherent hw₀
  | start =>
    cases r with
    | error => exact hp.coherent hw₀
    | ok =>
      obtain ⟨hm, hst, hkeys⟩ := hp
      refine ⟨fun _ key => ?_, fun hn => absurd hn hst⟩
      rw [hkeys, mapped_congr hm]
  | stop =>
    cases r with
    | error => exact hp.elim
    | ok =>
      obtain ⟨-, hst, hl⟩ := hp
      refine ⟨fun hne => absurd hst hne, fun _ key => ?_⟩
      rw [hl, Store.find_empty]
  | add kind spec =>
    cases r with
    | error => exact hp.coherent hw₀
    | ok =>
      obtain ⟨m, -, hm, hst, hkeys⟩ := hp
      constructor
      · intro hr key
        rw [hst] at hr
        rw [hkeys, mapped_pushed hm, hw₀.running hr]
        simp [hr]
      · intro hn key
        rw [hst] at hn
        have hkey := hkeys key
        simpa [hn, hw₀.stopped hn key] using hkey
  | remove kind spec =>
    cases r with
    | error => exact hp.coherent hw₀
    | ok =>
      obtain ⟨m, -, hm, hl, hst⟩ := hp
      constructor
      · intro hr key
        rw [hst] at hr
        rw [hl, mapped_retained hm, Store.find_erase, ← hw₀.running hr]
        split <;> simp_all
      · intro hn key
        rw [hst] at hn
        rw [hl, Store.find_erase, hw₀.stopped hn, ite_self]
  | clearMappings =>
    cases r with
    | error => exact hp.elim
    | ok =>
      obtain ⟨hm, hst, hl⟩ := hp
      refine ⟨fun _ key => ?_, fun _ key => by rw [hl, Store.find_empty]⟩
      simp [hl, Mapped, hm]

lemma Progress.unchanged_of_error {e : YggstackError}
    (hp : Progress w₀ req (.done (.error e)) w) : Unchanged w₀ w := by
  cases req with
  | stop | clearMappings => exact hp.elim
  | _ => exact hp

structure Completed (w₀ : World) (req : Request) (r : Except YggstackError Unit) (w : World) :
    Prop where
  run : ∃ actions, Run Step w₀ (.begin req :: actions) w ∧ ∀ req', .begin req' ∉ actions
  returned : w.calls[w₀.calls.length]? = some ⟨req, .done r⟩

inductive Called : World → Prop
  | initial : Called initial
  | call {w w' : World} {req : Request} {r : Except YggstackError Unit} :
      Called w → Completed w req r w' → Called w'

lemma progress_run {actions : List Action} (hidle : w₀.Idle) (hw₀ : w₀.Coherent)
    (hcur : Current w₀ req pc w) (hp : Progress w₀ req pc w) (h : Run Step w actions w')
    (ha : ∀ req', .begin req' ∉ actions) :
    ∃ pc', Current w₀ req pc' w' ∧ Progress w₀ req pc' w' := by
  induction h generalizing pc with
  | nil => exact ⟨pc, hcur, hp⟩
  | cons hs _ ih =>
    simp only [List.mem_cons, not_or] at ha
    obtain ⟨pc', hcur', hp'⟩ := progress_step hidle hw₀ hcur hp hs fun r he => (ha r).1 he.symm
    exact ih hcur' hp' fun r => (ha r).2

lemma Completed.progress {r : Except YggstackError Unit} (h : Completed w₀ req r w)
    (hidle : w₀.Idle) (hw₀ : w₀.Coherent) :
    Current w₀ req (.done r) w ∧ Progress w₀ req (.done r) w := by
  obtain ⟨⟨actions, hrun, ha⟩, hret⟩ := h
  cases hrun with
  | cons hs hrun =>
    cases hs
    have hcur : Current w₀ req req.entry
        { w₀ with calls := w₀.calls ++ [⟨req, req.entry⟩] } := rfl
    have hbegin : Progress w₀ req req.entry { w₀ with calls := w₀.calls ++ [⟨req, req.entry⟩] } :=
      (progress_begin req).congr ⟨rfl, rfl, rfl⟩
    obtain ⟨pc, hcur, hp⟩ := progress_run hidle hw₀ hcur hbegin hrun ha
    rw [hcur] at hret
    obtain rfl : pc = .done r := by simpa using hret
    exact ⟨hcur, hp⟩

lemma Called.steady (h : Called w) : w.Idle ∧ w.Coherent := by
  induction h with
  | initial =>
    refine ⟨fun call hc => ?_, fun hn => absurd rfl hn, fun _ key => rfl⟩
    cases hc
  | call _ hc ih =>
    obtain ⟨hcur, hp⟩ := hc.progress ih.1 ih.2
    refine ⟨fun call hcall => ?_, hp.coherent ih.2⟩
    rw [hcur, List.mem_append, List.mem_singleton] at hcall
    rcases hcall with hcall | rfl
    · exact ih.1 call hcall
    · exact ⟨_, rfl⟩

theorem calls_keep_listeners {r : Except YggstackError Unit} (hw : Called w)
    (hc : Completed w req r w') :
    (w'.state ≠ none → ∀ key, w'.listeners.find key ≠ none ↔ w'.Mapped key) ∧
    (w'.state = none → ∀ key, w'.listeners.find key = none) ∧
    (∀ kind spec, req = .remove kind spec → r = .ok () → ∃ m, kind.parse spec = .ok m ∧
      (∀ kind', w'.mappings kind' =
        (w.mappings kind').filter fun x => kind'.key x ≠ kind.key m) ∧
      w'.listeners = w.listeners.erase (kind.key m)) ∧
    ∀ e, r = .error e →
      w'.mappings = w.mappings ∧ w'.listeners = w.listeners ∧ w'.state = w.state := by
  obtain ⟨-, hp⟩ := hc.progress hw.steady.1 hw.steady.2
  have hcoh := hp.coherent hw.steady.2
  refine ⟨hcoh.running, hcoh.stopped, ?_, ?_⟩
  · rintro kind spec rfl rfl
    obtain ⟨m, hparse, hm, hl, -⟩ := hp
    refine ⟨m, hparse, fun kind' => ?_, hl⟩
    rw [hm, retained_eq]
  · rintro e rfl
    obtain ⟨hm, hl, hst⟩ := hp.unchanged_of_error
    exact ⟨hm, hl, hst⟩

lemma called_started : Called started :=
  .call
    (.call .initial ⟨⟨_, .cons (.begin _ (.loadConfig (.ok ⟨.ok []⟩))) <|
      .cons (.loadConfig (c := 0) rfl) <| .nil _, by simp⟩, rfl⟩)
    ⟨⟨_, .cons (.begin _ .start) <| .cons (.startCheck (c := 1) rfl) <|
      .cons (.startConfig (c := 1) rfl) <| .cons (.startCopy (c := 1) rfl) <|
      .cons (.startCopy (c := 1) rfl) <| .cons (.startCopy (c := 1) rfl) <|
      .cons (.startCopy (c := 1) rfl) <| .cons (.startBuild (c := 1) rfl rfl) <|
      .cons (.startBuilt (c := 1) rfl) <| .cons (.startPublish (c := 1) rfl) <| .nil _,
      by simp⟩, rfl⟩

theorem mapping_removed : ∃ w w', Called w ∧ w.listeners.find "rtcp:80->127.0.0.1:80" = some 0 ∧
    Completed w (.remove .remoteTcp "80:127.0.0.1:80") (.ok ()) w' ∧
    (∀ key, w'.listeners.find key ≠ none ↔ w'.Mapped key) ∧
    w'.listeners = w.listeners.erase "rtcp:80->127.0.0.1:80" := by
  have hworlds : ∃ w w', Called w ∧ w.listeners.find "rtcp:80->127.0.0.1:80" = some 0 ∧
      Completed w (.remove .remoteTcp "80:127.0.0.1:80") (.ok ()) w' ∧ w'.state = some 0 := by
    exact ⟨_, _,
      .call called_started ⟨⟨_, .cons (.begin _ (.add .remoteTcp "80")) <|
        .cons (.addPush (c := 2) rfl) <| .cons (.addLook (c := 2) rfl (Or.inr rfl)) <| .nil _,
        by simp⟩, rfl⟩, rfl,
      ⟨⟨_, .cons (.begin _ (.remove .remoteTcp "80:127.0.0.1:80")) <|
        .cons (.removeRetain (c := 3) rfl) <| .cons (.removeTake (c := 3) rfl rfl) <|
        .cons (.signal (c := 3) rfl) <| .cons (.abort (c := 3) rfl) <|
        .cons (.task (i := 0) rfl (.cancelled rfl (Or.inl rfl))) <|
        .cons (.join (c := 3) rfl rfl (Or.inr rfl)) <| .cons (.signalled (c := 3) rfl) <| .nil _,
        by simp⟩, rfl⟩, rfl⟩
  obtain ⟨w, w', hw, hfind, hc, hst⟩ := hworlds
  obtain ⟨hrun, -, hremove, -⟩ := calls_keep_listeners hw hc
  obtain ⟨m, hm, -, hl⟩ := hremove _ _ rfl rfl
  cases hm
  exact ⟨w, w', hw, hfind, hc, hrun (by simp [hst]), hl⟩

end World

end Yggstack.Mobile
