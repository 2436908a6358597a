import Yggstack.Mobile.Completed
import Yggstack.Mobile.Holders

/-! Which listener tasks the node still knows of. A task whose listener is overwritten in
`listeners` goes on unknown to every later call, and so does one that `clear_mappings` has only
signalled. -/

namespace Yggstack.Forward

variable {t t' : Task} {a : TaskAction}

lemma Task.Step.finished (h : Task.Step t a t') (hf : t.Finished) : t'.Finished := by
  cases h with
  | timerSubscribe | timerStopped => exact hf
  | cancelled => exact Or.inr rfl
  | accept => exact hf
  | bindFailed | drained => exact Or.inl rfl
  | bound hp | spawnTimer hp | subscribe hp | stopped hp =>
    rcases hf with hf | hf <;> simp [hf] at hp

end Yggstack.Forward

namespace Yggstack.Mobile

open Library Forward

def Pc.isDone : Pc → Bool
  | .done _ => true
  | _ => false

namespace World

variable {w w' w₀ : World} {a : Action} {c : ℕ} {req : Request} {pc : Pc}

def OneByOne (w : World) (a : Action) : Prop := ∀ req, a = .begin req → w.Idle

/-- A listener is overwritten only when its task has finished. -/
def ReplacesFinished (w : World) (a : Action) : Prop :=
  ∀ node kind m i t, w.spawns a = some (node, kind, m) →
    w.listeners.find (kind.key m) = some i → w.tasks[i]? = some t → t.Finished

def StopsAfterCleared (w : World) (a : Action) : Prop :=
  a = .begin .stop → ∀ t ∈ w.tasks, 0 < t.stop.sent → t.Finished

def Kept (w : World) (i : ℕ) : Prop :=
  (∃ key, w.listeners.find key = some i) ∨ ∃ c, i ∈ (w.queue c).1 ∨ i ∈ (w.queue c).2

def Tracked (w : World) : Prop :=
  ∀ i t, w.tasks[i]? = some t → ¬t.Finished → t.stop.sent = 0 → w.Kept i

def Rounded (w : World) : Prop := ∀ i t, w.tasks[i]? = some t → ¬t.Finished → w.Kept i

lemma Kept.update {i : ℕ} {todo handles : List ℕ} (h : w.Kept i)
    (hl : ∀ key, w.listeners.find key = some i → w'.Kept i)
    (hq : w'.queue = Function.update w.queue c (todo, handles))
    (hc : i ∈ (w.queue c).1 ∨ i ∈ (w.queue c).2 → i ∈ todo ∨ i ∈ handles) : w'.Kept i := by
  rcases h with ⟨key, hkey⟩ | ⟨d, hd⟩
  · exact hl key hkey
  · refine Or.inr ⟨d, ?_⟩
    rw [hq]
    by_cases hdc : d = c
    · subst hdc
      simpa using hc hd
    · simpa [Function.update_of_ne hdc] using hd

lemma Kept.congr {i : ℕ} (h : w.Kept i) (hl : w'.listeners = w.listeners)
    (hq : w'.queue = w.queue) : w'.Kept i := by
  rw [Kept, hl, hq]
  exact h

section Kept

variable {i j : ℕ} {key : String} {todo handles handles' : List ℕ}

lemma Kept.spawned {n : ℕ} (h : w.Kept i) (hne : w.listeners.find key ≠ some i)
    (hl : w'.listeners = w.listeners.insert key n) (hq : w'.queue = w.queue) : w'.Kept i := by
  rcases h with ⟨key', hkey⟩ | hc
  · refine Or.inl ⟨key', ?_⟩
    rw [hl, Store.find_insert_of_ne, hkey]
    rintro rfl
    exact hne hkey
  · exact Or.inr (by rw [hq]; exact hc)

lemma Kept.taken (h : w.Kept i) (hc : w.queue c = ([], [])) (hj : w.listeners.find key = some j)
    (hl : w'.listeners = w.listeners.erase key)
    (hq : w'.queue = Function.update w.queue c ([j], [])) : w'.Kept i := by
  refine h.update (fun key' hkey => ?_) hq (by simp [hc])
  by_cases hk : key' = key
  · subst hk
    rw [hj] at hkey
    cases hkey
    exact Or.inr ⟨c, by simp [hq]⟩
  · refine Or.inl ⟨key', ?_⟩
    rw [hl]
    exact (Store.find_erase_of_ne _ hk).trans hkey

lemma Kept.drained {order : List (String × ℕ)} (h : w.Kept i) (hc : w.queue c = ([], []))
    (ho : w.listeners.Enumerates order)
    (hq : w'.queue = Function.update w.queue c (order.map Prod.snd, [])) : w'.Kept i := by
  refine h.update (fun key hkey => ?_) hq (by simp [hc])
  refine Or.inr ⟨c, Or.inl ?_⟩
  simp only [hq, Function.update_self, List.mem_map, Prod.exists, exists_eq_right]
  exact ⟨key, (ho.mem_iff _ _).mpr hkey⟩

/-- Only a call that joins its tasks goes on with the handle of one that it has signalled. -/
lemma Kept.signalled (h : w.Kept i) (hc : w.queue c = (j :: todo, handles))
    (hl : w'.listeners = w.listeners) (hij : ¬(i = j ∧ ¬w.Joins c))
    (hh : w.Joins c ∧ handles' = handles ++ [j] ∨ ¬w.Joins c ∧ handles' = handles)
    (hq : w'.queue = Function.update w.queue c (todo, handles')) : w'.Kept i := by
  refine h.update (fun key hkey => Or.inl ⟨key, by rw [hl]; exact hkey⟩) hq ?_
  rw [hc]
  rintro (hi | hi)
  · rcases List.mem_cons.mp hi with rfl | hi
    · rcases hh with ⟨-, rfl⟩ | ⟨hj, -⟩
      · exact Or.inr (by simp)
      · exact absurd ⟨rfl, hj⟩ hij
    · exact Or.inl hi
  · rcases hh with ⟨-, rfl⟩ | ⟨-, rfl⟩
    · exact Or.inr (List.mem_append_left _ hi)
    · exact Or.inr hi

lemma Kept.joined (h : w.Kept i) (hc : w.queue c = ([], j :: handles)) (hij : i ≠ j)
    (hl : w'.listeners = w.listeners)
    (hq : w'.queue = Function.update w.queue c ([], handles)) : w'.Kept i := by
  refine h.update (fun key hkey => Or.inl ⟨key, by rw [hl]; exact hkey⟩) hq ?_
  rw [hc]
  rintro (hi | hi)
  · cases hi
  · exact Or.inr ((List.mem_cons.mp hi).resolve_left hij)

end Kept

lemma kept_step (hw : Held w) (hs : Step w a w') (ha : ReplacesFinished w a) {i : ℕ} {t' : Task}
    (ht' : w'.tasks[i]? = some t') (hn : ¬t'.Finished)
    (hold : ∀ t, w.tasks[i]? = some t → t.stop.sent ≤ t'.stop.sent → ¬t.Finished → w.Kept i) :
    w'.Kept i ∨ 0 < t'.stop.sent ∧ ∃ c, w.queue c ≠ ([], []) ∧ ¬w.Joins c := by
  cases step_moved hs with
  | quiet _ hsame hq =>
    rw [hsame.tasks] at ht'
    exact Or.inl ((hold t' ht' le_rfl hn).congr hsame.listeners hq)
  | @spawned node stats kind m hsp htasks hl _ _ _ hq =>
    left
    rw [htasks] at ht'
    rcases getElem?_snoc ht' with ht' | ⟨rfl, -⟩
    · have hne (hkey : w.listeners.find (kind.key m) = some i) : False :=
        hn (ha node kind m i t' hsp hkey ht')
      exact (hold t' ht' le_rfl hn).spawned hne hl hq
    · refine Or.inl ⟨kind.key m, ?_⟩
      rw [hl, Store.find_insert_self]
  | taken _ hc hj hsame hq =>
    rw [hsame.tasks] at ht'
    exact Or.inl ((hold t' ht' le_rfl hn).taken hc hj hsame.listeners hq)
  | drained _ hc ho hsame hq =>
    rw [hsame.tasks] at ht'
    exact Or.inl ((hold t' ht' le_rfl hn).drained hc ho hq)
  | @signalled c j todo handles handles' _ _ hc hsame hh hq =>
    obtain ⟨t, ht, -⟩ := hw.unsent j (.call c) (by simp [Holds, hc])
    rw [hsame.tasks, send_tasks ht] at ht'
    by_cases hij : i = j ∧ ¬w.Joins c
    · right
      obtain ⟨rfl, hj⟩ := hij
      rcases getElem?_change ht' with ⟨-, rfl⟩ | ⟨hne, -⟩
      · exact ⟨Nat.succ_pos _, c, by simp [hc], hj⟩
      · exact absurd rfl hne
    · left
      have hkept : w.Kept i := by
        rcases getElem?_change ht' with ⟨rfl, rfl⟩ | ⟨-, ht'⟩
        · exact hold t ht (Nat.le_succ _) hn
        · exact hold t' ht' le_rfl hn
      exact hkept.signalled hc hsame.listeners hij hh hq
  | @aborted c j handles _ hc hsame hq =>
    obtain ⟨t, ht, -⟩ := hw.joining j c (by simp [hc])
    rw [hsame.tasks, abort_tasks ht] at ht'
    left
    rcases getElem?_change ht' with ⟨rfl, rfl⟩ | ⟨-, ht'⟩
    · exact (hold t ht le_rfl hn).congr hsame.listeners hq
    · exact (hold t' ht' le_rfl hn).congr hsame.listeners hq
  | joined _ hc ht hf hsame hq =>
    left
    rw [hsame.tasks] at ht'
    refine (hold t' ht' le_rfl hn).joined hc ?_ hsame.listeners hq
    rintro rfl
    rw [ht] at ht'
    cases ht'
    exact hn hf
  | @task j t u b _ ht hstep hsame hq =>
    left
    have htasks : w'.tasks = w.tasks.set j u := hsame.tasks
    rw [htasks] at ht'
    rcases getElem?_change ht' with ⟨rfl, rfl⟩ | ⟨-, ht'⟩
    · have hkept := hold t ht (by rw [hstep.stop_eq]) fun hf => hn (hstep.finished hf)
      exact hkept.congr hsame.listeners hq
    · exact (hold t' ht' le_rfl hn).congr hsame.listeners hq

lemma tracked_step (hw : Held w) (h : w.Tracked) (hs : Step w a w') (ha : ReplacesFinished w a) :
    w'.Tracked := by
  intro i t' ht' hn h0
  rcases kept_step hw hs ha ht' hn fun t ht hle hf => h i t ht hf (by omega) with hk | ⟨hpos, -⟩
  · exact hk
  · omega

lemma rounded_step (hw : Held w) (h : w.Rounded) (hs : Step w a w') (ha : ReplacesFinished w a)
    (hjoin : ∀ c, w.queue c ≠ ([], []) → w.Joins c) : w'.Rounded := by
  intro i t' ht' hn
  rcases kept_step hw hs ha ht' hn fun t ht _ hf => h i t ht hf with hk | ⟨-, c, hq, hj⟩
  · exact hk
  · exact absurd (hjoin c hq) hj

lemma Idle.queue_eq (h : w.Idle) (c : ℕ) : w.queue c = ([], []) := by
  rw [queue]
  split
  · next call hc =>
    obtain ⟨r, hr⟩ := h call (List.mem_of_getElem? hc)
    rw [hr]
    rfl
  · rfl

lemma Current.joins (hcur : Current w₀ .stop pc w) (hidle : w₀.Idle)
    (hq : w.queue c ≠ ([], [])) : w.Joins c := by
  rw [queue] at hq
  split at hq
  · next call hc =>
    obtain ⟨req, pc'⟩ := call
    obtain ⟨-, rfl, -⟩ := hcur.eq hidle hc (by rintro r rfl; exact hq rfl)
    exact ⟨_, hc, rfl⟩
  · exact absurd rfl hq

def InSequence (w : World) : Prop :=
  w = initial ∨
    ∃ w₀ req pc, w₀.Idle ∧ w₀.Coherent ∧ Current w₀ req pc w ∧ Progress w₀ req pc w

lemma InSequence.coherent (h : w.InSequence) (hidle : w.Idle) : w.Coherent := by
  rcases h with rfl | ⟨w₀, req, pc, -, hw₀, hcur, hp⟩
  · exact Called.initial.steady.2
  · obtain ⟨r, hr⟩ := hidle ⟨req, pc⟩ (by rw [hcur]; simp)
    dsimp only at hr
    subst hr
    exact hp.coherent hw₀

lemma inSequence_begin (h : w.InSequence) (hidle : w.Idle) (req : Request) :
    InSequence { w with calls := w.calls ++ [⟨req, req.entry⟩] } := by
  refine Or.inr ⟨w, req, req.entry, hidle, h.coherent hidle, rfl, ?_⟩
  exact (progress_begin req).congr ⟨rfl, rfl, rfl⟩

lemma begin_of_step_initial (hs : Step initial a w') : ∃ req, a = .begin req := by
  have hcall : ∀ {c : ℕ} {call : Call}, initial.calls[c]? ≠ some call := by
    intro c call h
    cases h
  have htask : ∀ {i : ℕ} {t : Task}, initial.tasks[i]? ≠ some t := by
    intro i t h
    cases h
  cases hs <;> first
    | exact ⟨_, rfl⟩
    | exact absurd ‹_› hcall
    | exact absurd ‹_› htask

lemma inSequence_step (h : w.InSequence) (hs : Step w a w') (ha : OneByOne w a) :
    w'.InSequence := by
  by_cases hb : ∃ req, a = .begin req
  · obtain ⟨req, rfl⟩ := hb
    cases hs
    exact inSequence_begin h (ha req rfl) req
  · rcases h with rfl | ⟨w₀, req, pc, hidle, hw₀, hcur, hp⟩
    · exact absurd (begin_of_step_initial hs) hb
    · obtain ⟨pc', hcur', hp'⟩ :=
        progress_step hidle hw₀ hcur hp hs fun req he => hb ⟨req, he⟩
      exact Or.inr ⟨w₀, req, pc', hidle, hw₀, hcur', hp'⟩

def Stops (w : World) : Prop := ∃ past pc, w.calls = past ++ [⟨.stop, pc⟩]

lemma Current.stops_iff (hcur : Current w₀ req pc w) : w.Stops ↔ req = .stop := by
  constructor
  · rintro ⟨past, pc', h⟩
    rw [hcur] at h
    cases List.append_inj_right' h rfl
    rfl
  · rintro rfl
    exact ⟨_, _, hcur⟩

structure Orderly (w : World) : Prop where
  held : Held w
  tracked : w.Tracked
  sequence : w.InSequence
  rounded : w.Stops → w.Rounded

lemma Orderly.recorded (h : w.Orderly) (hidle : w.Idle) {i : ℕ} {t : Task}
    (ht : w.tasks[i]? = some t) (hn : ¬t.Finished) (h0 : t.stop.sent = 0) :
    w.listeners.find t.key = some i := by
  rcases h.tracked i t ht hn h0 with ⟨key, hkey⟩ | ⟨c, hc⟩
  · obtain ⟨u, hu, rfl⟩ := h.held.key i key hkey
    rw [ht] at hu
    cases hu
    exact hkey
  · simp [hidle.queue_eq c] at hc

lemma Orderly.finished (h : w.Orderly) (hidle : w.Idle) (hstop : w.Stops) {i : ℕ} {t : Task}
    (ht : w.tasks[i]? = some t) : t.Finished := by
  by_contra hn
  rcases h.rounded hstop i t ht hn with ⟨key, hkey⟩ | ⟨c, hc⟩
  · rcases h.sequence with rfl | ⟨w₀, req, pc, -, -, hcur, hp⟩
    · cases ht
    · obtain rfl := hcur.stops_iff.mp hstop
      obtain ⟨r, hr⟩ := hidle ⟨.stop, pc⟩ (by rw [hcur]; simp)
      dsimp only at hr
      subst hr
      cases r with
      | error => exact hp
      | ok =>
        rw [hp.2.2] at hkey
        cases hkey
  · simp [hidle.queue_eq c] at hc

lemma orderly_step (h : w.Orderly) (hs : Step w a w') (hone : OneByOne w a)
    (hrep : ReplacesFinished w a) (hstop : StopsAfterCleared w a) : w'.Orderly := by
  have htracked := tracked_step h.held h.tracked hs hrep
  refine ⟨held_step h.held hs, htracked, inSequence_step h.sequence hs hone, fun hstops => ?_⟩
  by_cases hb : ∃ req, a = .begin req
  · obtain ⟨req, rfl⟩ := hb
    cases hs
    have hcur : Current w req req.entry { w with calls := w.calls ++ [⟨req, req.entry⟩] } := rfl
    obtain rfl := hcur.stops_iff.mp hstops
    intro i t ht hn
    rcases Nat.eq_zero_or_pos t.stop.sent with h0 | hpos
    · exact htracked i t ht hn h0
    · exact absurd (hstop rfl t (List.mem_of_getElem? ht) hpos) hn
  · rcases h.sequence with rfl | ⟨w₀, req, pc, hidle, hw₀, hcur, hp⟩
    · exact absurd (begin_of_step_initial hs) hb
    · obtain ⟨pc', hcur', -⟩ := progress_step hidle hw₀ hcur hp hs fun req he => hb ⟨req, he⟩
      obtain rfl := hcur'.stops_iff.mp hstops
      have hrounded := h.rounded (hcur.stops_iff.mpr rfl)
      exact rounded_step h.held hrounded hs hrep fun c hq => hcur.joins hidle hq

/-- While no live listener is overwritten, every live task that has not been signalled is the one
recorded under its key; and no task outlives `stop`, unless `clear_mappings` had left it behind. -/
theorem live_listeners_recorded {actions : List Action}
    (h : Run (fun w a w' => Step w a w' ∧
      OneByOne w a ∧ ReplacesFinished w a ∧ StopsAfterCleared w a) initial actions w)
    (hidle : w.Idle) :
    (∀ i t, w.tasks[i]? = some t → ¬t.Finished → t.stop.sent = 0 →
      w.listeners.find t.key = some i) ∧
    ((∃ past r, w.calls = past ++ [⟨.stop, .done r⟩]) → ∀ t ∈ w.tasks, t.Finished) := by
  have hinit : Orderly initial := by
    refine ⟨held_initial, fun i t ht => ?_, Or.inl rfl, fun _ i t ht => ?_⟩
    · cases ht
    · cases ht
  have hinv : w.Orderly := by
    refine h.invariant hinit ?_
    rintro w a w' hw ⟨hs, hone, hrep, hstop⟩
    exact orderly_step hw hs hone hrep hstop
  refine ⟨fun i t ht hn h0 => hinv.recorded hidle ht hn h0, ?_⟩
  rintro ⟨past, r, hlast⟩ t ht
  obtain ⟨i, hi⟩ := List.mem_iff_getElem?.mp ht
  exact hinv.finished hidle ⟨past, _, hlast⟩ hi

lemma idle_of_all (h : (w.calls.all fun call => call.pc.isDone) = true) : w.Idle := by
  intro call hc
  have hd := List.all_eq_true.mp h call hc
  cases hpc : call.pc with
  | done r => exact ⟨r, rfl⟩
  | _ => simp [hpc, Pc.isDone] at hd

theorem started_listener_stopped : ∃ actions w,
    Run (fun w a w' => Step w a w' ∧
      OneByOne w a ∧ ReplacesFinished w a ∧ StopsAfterCleared w a) initial actions w ∧
      w.Idle ∧ w.tasks.length = 1 ∧ ∀ t ∈ w.tasks, t.Finished := by
  have step {w : World} {a : Action} {w' : World} (hs : Step w a w')
      (hb : ∀ req, a ≠ .begin req) (hsp : w.spawns a = none) : Step w a w' ∧
        OneByOne w a ∧ ReplacesFinished w a ∧ StopsAfterCleared w a := by
    refine ⟨hs, fun req he => absurd he (hb req), ?_, fun he => absurd he (hb .stop)⟩
    intro node kind m i t he
    rw [hsp] at he
    cases he
  have spawn {w : World} {a : Action} {w' : World} {node : ℕ} {kind : Kind} {m : Mapping}
      (hs : Step w a w') (hb : ∀ req, a ≠ .begin req) (hsp : w.spawns a = some (node, kind, m))
      (hnew : w.listeners.find (kind.key m) = none) : Step w a w' ∧
        OneByOne w a ∧ ReplacesFinished w a ∧ StopsAfterCleared w a := by
    refine ⟨hs, fun req he => absurd he (hb req), ?_, fun he => absurd he (hb .stop)⟩
    intro node' kind' m' i t he hf
    rw [hsp] at he
    cases he
    rw [hnew] at hf
    cases hf
  have enter (w : World) (req : Request)
      (h : (w.calls.all fun call => call.pc.isDone) = true)
      (hs : ∀ t ∈ w.tasks, 0 < t.stop.sent → t.Finished) :
      Step w (.begin req) { w with calls := w.calls ++ [⟨req, req.entry⟩] } ∧
        OneByOne w (.begin req) ∧ ReplacesFinished w (.begin req) ∧
        StopsAfterCleared w (.begin req) := by
    refine ⟨.begin w req, fun _ _ => idle_of_all h, ?_, fun _ => hs⟩
    intro node kind m i t he
    cases he
  have hrun : Run (fun w a w' => Step w a w' ∧
      OneByOne w a ∧ ReplacesFinished w a ∧ StopsAfterCleared w a) initial _ _ :=
    .cons (enter _ (.loadConfig (.ok ⟨.ok []⟩)) rfl (by simp [initial])) <|
    .cons (step (.loadConfig (c := 0) rfl) (by simp) rfl) <|
    .cons (enter _ (.add .remoteTcp "80") rfl (List.forall_mem_nil _)) <|
    .cons (step (.addPush (c := 1) rfl) (by simp) rfl) <|
    .cons (step (.addLook (c := 1) rfl (Or.inr rfl)) (by simp) rfl) <|
    .cons (enter _ .start rfl (List.forall_mem_nil _)) <|
    .cons (step (.startCheck (c := 2) rfl) (by simp) rfl) <|
    .cons (step (.startConfig (c := 2) rfl) (by simp) rfl) <|
    .cons (step (.startCopy (c := 2) rfl) (by simp) rfl) <|
    .cons (step (.startCopy (c := 2) rfl) (by simp) rfl) <|
    .cons (step (.startCopy (c := 2) rfl) (by simp) rfl) <|
    .cons (step (.startCopy (c := 2) rfl) (by simp) rfl) <|
    .cons (step (.startBuild (c := 2) rfl rfl) (by simp) rfl) <|
    .cons (spawn (.startSpawn (c := 2) rfl) (by simp) rfl rfl) <|
    .cons (step (.startBuilt (c := 2) rfl) (by simp) rfl) <|
    .cons (step (.startPublish (c := 2) rfl) (by simp) rfl) <|
    .cons (enter _ .stop rfl (List.forall_mem_singleton.mpr fun h => by cases h)) <|
    .cons (step (.stopTake (c := 3) rfl) (by simp) rfl) <|
    .cons (step (.stopTeardown (c := 3) rfl) (by simp) rfl) <|
    .cons (step (.stopTeardown (c := 3) rfl) (by simp) rfl) <|
    .cons (step (.stopTeardown (c := 3) rfl) (by simp) rfl) <|
    .cons (step (.stopTeardown (c := 3) rfl) (by simp) rfl) <|
    .cons (step (.stopTeardown (c := 3) rfl) (by simp) rfl) <|
    .cons (step (.stopTeardown (c := 3) rfl) (by simp) rfl) <|
    .cons (step (.stopTeardown (c := 3) rfl) (by simp) rfl) <|
    .cons (step (.drain (c := 3) rfl rfl (Store.enumerates_single "rtcp:80->127.0.0.1:80" 0))
      (by simp) rfl) <|
    .cons (step (.signal (c := 3) rfl) (by simp) rfl) <|
    .cons (step (.abort (c := 3) rfl) (by simp) rfl) <|
    .cons (step (.task (i := 0) rfl (.cancelled rfl (Or.inl rfl))) (by simp) rfl) <|
    .cons (step (.join (c := 3) rfl rfl (Or.inr rfl)) (by simp) rfl) <|
    .cons (step (.signalled (c := 3) rfl) (by simp) rfl) <| .nil _
  exact ⟨_, _, hrun, idle_of_all rfl, rfl,
    (live_listeners_recorded hrun (idle_of_all rfl)).2 ⟨[_, _, _], _, rfl⟩⟩

theorem duplicate_outlives_stop : ∃ actions w t,
    Run (fun w a w' => Step w a w' ∧ OneByOne w a) initial actions w ∧ w.Idle ∧
      (∃ past r, w.calls = past ++ [⟨.stop, .done r⟩]) ∧ w.tasks[0]? = some t ∧
      ¬t.Finished ∧ t.stop.sent = 0 ∧ w.listeners.find t.key ≠ some 0 := by
  have call {w : World} {c : ℕ} {s : Section} {w' : World} (hs : Step w (.call c s) w') :
      Step w (.call c s) w' ∧ OneByOne w (.call c s) := ⟨hs, fun _ he => by cases he⟩
  have enter (w : World) (req : Request)
      (h : (w.calls.all fun call => call.pc.isDone) = true) :
      Step w (.begin req) { w with calls := w.calls ++ [⟨req, req.entry⟩] } ∧
        OneByOne w (.begin req) := ⟨.begin w req, fun _ _ => idle_of_all h⟩
  have henum (k : String) :
      ((Store.empty.insert k 0).insert k 1 : Store String ℕ).Enumerates [(k, 1)] := by
    rw [Store.insert_insert]
    exact Store.enumerates_single k 1
  have hrun : Run (fun w a w' => Step w a w' ∧ OneByOne w a) initial _ _ :=
    .cons (enter _ (.loadConfig (.ok ⟨.ok []⟩)) rfl) <| .cons (call (.loadConfig (c := 0) rfl)) <|
    .cons (enter _ .start rfl) <| .cons (call (.startCheck (c := 1) rfl)) <|
    .cons (call (.startConfig (c := 1) rfl)) <| .cons (call (.startCopy (c := 1) rfl)) <|
    .cons (call (.startCopy (c := 1) rfl)) <| .cons (call (.startCopy (c := 1) rfl)) <|
    .cons (call (.startCopy (c := 1) rfl)) <| .cons (call (.startBuild (c := 1) rfl rfl)) <|
    .cons (call (.startBuilt (c := 1) rfl)) <| .cons (call (.startPublish (c := 1) rfl)) <|
    .cons (enter _ (.add .remoteTcp "80") rfl) <| .cons (call (.addPush (c := 2) rfl)) <|
    .cons (call (.addLook (c := 2) rfl (Or.inr rfl))) <|
    .cons (enter _ (.add .remoteTcp "80") rfl) <| .cons (call (.addPush (c := 3) rfl)) <|
    .cons (call (.addLook (c := 3) rfl (Or.inr rfl))) <|
    .cons (enter _ .stop rfl) <| .cons (call (.stopTake (c := 4) rfl)) <|
    .cons (call (.stopTeardown (c := 4) rfl)) <| .cons (call (.stopTeardown (c := 4) rfl)) <|
    .cons (call (.stopTeardown (c := 4) rfl)) <| .cons (call (.stopTeardown (c := 4) rfl)) <|
    .cons (call (.stopTeardown (c := 4) rfl)) <| .cons (call (.stopTeardown (c := 4) rfl)) <|
    .cons (call (.stopTeardown (c := 4) rfl)) <|
    .cons (call (.drain (c := 4) rfl rfl (henum "rtcp:80->127.0.0.1:80"))) <|
    .cons (call (.signal (c := 4) rfl)) <| .cons (call (.abort (c := 4) rfl)) <|
    .cons ⟨.task (i := 1) rfl (.cancelled rfl (Or.inl rfl)), fun _ he => by cases he⟩ <|
    .cons (call (.join (c := 4) rfl rfl (Or.inr rfl))) <|
    .cons (call (.signalled (c := 4) rfl)) <| .nil _
  refine ⟨_, _, _, hrun, idle_of_all rfl, ⟨[_, _, _, _], _, rfl⟩, rfl, ?_, rfl, ?_⟩
  · rintro (h | h) <;> cases h
  · intro h
    cases h

end World

end Yggstack.Mobile
