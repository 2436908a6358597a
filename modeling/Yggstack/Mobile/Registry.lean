import Yggstack.Mobile.Holders

/-! The stats entries of the listener tasks. They are registered and dropped by key, so a task that
drops its own entry drops the entry of every task with the same key. -/

namespace Yggstack.Forward

namespace Task

variable {t t' : Task} {a : TaskAction}

def Bound (t : Task) : Prop :=
  t.phase = .bound ∨ (∃ r, t.phase = .serving r) ∨ t.phase = .draining

def Stopping (t : Task) : Prop :=
  (∃ r, t.phase = .serving r ∧ r.Pending t.stop) ∨ t.phase = .draining

def Staying (t : Task) : Prop :=
  t.phase = .spawned ∨ t.phase = .bound ∨ ∃ r, t.phase = .serving r ∧ ¬r.Pending t.stop

lemma Bound.staying (h : t.Bound) (hs : ¬t.Stopping) : t.Staying := by
  rcases h with hb | ⟨r, hr⟩ | hd
  · exact Or.inr (Or.inl hb)
  · exact Or.inr (Or.inr ⟨r, hr, fun hp => hs (Or.inl ⟨r, hr, hp⟩)⟩)
  · exact absurd (Or.inr hd) hs

lemma not_stopping_of_finished (h : t.Finished) : ¬t.Stopping := by
  rintro (⟨r, hr, -⟩ | hd) <;> rcases h with h | h <;> simp_all

lemma not_stopping_of_subscribe (h : t.phase = .serving t.stop.subscribe) : ¬t.Stopping := by
  rintro (⟨r, hr, hp⟩ | hd)
  · rw [h] at hr
    cases hr
    exact Library.Receiver.not_pending_subscribe hp
  · simp [h] at hd

lemma staying_of_send (h : ({ t with stop := t.stop.send } : Task).Staying) : t.Staying := by
  rcases h with hs | hb | ⟨r, hr, hn⟩
  · exact Or.inl hs
  · exact Or.inr (Or.inl hb)
  · exact Or.inr (Or.inr ⟨r, hr, fun hp => hn hp.send⟩)

lemma Step.stats_eq (h : Task.Step t a t') : t'.stats = t.stats ∧ t'.node = t.node := by
  cases h <;> exact ⟨rfl, rfl⟩

lemma Step.staying (h : Task.Step t a t') (hs : t'.Staying) :
    t.Staying ∧ a.unregisters = false := by
  cases h with
  | bound hp => exact ⟨Or.inl hp, rfl⟩
  | bindFailed => rcases hs with h | h | ⟨r, h, -⟩ <;> cases h
  | spawnTimer hp => exact ⟨Or.inr (Or.inl hp), rfl⟩
  | subscribe hp => exact ⟨Or.inr (Or.inl hp), rfl⟩
  | accept => exact ⟨hs, rfl⟩
  | stopped =>
    have he := t.afterStop_cases
    rcases hs with h | h | ⟨r, h, -⟩ <;> simp only at h <;> simp [h] at he
  | drained => rcases hs with h | h | ⟨r, h, -⟩ <;> cases h
  | cancelled => rcases hs with h | h | ⟨r, h, -⟩ <;> cases h
  | timerSubscribe => exact ⟨hs, rfl⟩
  | timerStopped => exact ⟨hs, rfl⟩

end Task

end Yggstack.Forward

namespace Yggstack.Mobile

open Library Forward

namespace World

variable {w w' : World} {a : Action}

/-- A task drops its entry only when no other task that stays has its key. -/
def UnregistersAlone (w : World) (a : Action) : Prop :=
  ∀ i b t, a = .task i b → b.unregisters = true → w.tasks[i]? = some t →
    ∀ j u, j ≠ i → w.tasks[j]? = some u → u.Staying → (u.node, u.key) ≠ (t.node, t.key)

def Settled (w : World) : Prop := ∀ t ∈ w.tasks, ¬t.Stopping

structure Registered (w : World) : Prop where
  entry : ∀ (i : ℕ) (t : Task), w.tasks[i]? = some t → t.Staying →
    w.stats.find (t.node, t.key) = some t.stats
  conns : ∀ (i e : ℕ), (i, e) ∈ w.conns → ∃ t, w.tasks[i]? = some t ∧ t.stats = e

lemma Registered.same (h : w.Registered) (htasks : w'.tasks = w.tasks)
    (hstats : w'.stats = w.stats) (hconns : w'.conns = w.conns) : w'.Registered where
  entry := by
    rw [htasks, hstats]
    exact h.entry
  conns := by
    rw [htasks, hconns]
    exact h.conns

lemma Registered.change (h : w.Registered) {i : ℕ} {t t' : Task} (ht : w.tasks[i]? = some t)
    (htasks : w'.tasks = w.tasks.set i t') (hstats : t'.stats = t.stats)
    (hself : t'.Staying → w'.stats.find (t'.node, t'.key) = some t'.stats)
    (hother : ∀ j u, j ≠ i → w.tasks[j]? = some u → u.Staying →
      w'.stats.find (u.node, u.key) = w.stats.find (u.node, u.key))
    (hconns : ∀ j e, (j, e) ∈ w'.conns → (j, e) ∈ w.conns ∨ j = i ∧ e = t.stats) :
    w'.Registered where
  entry j u hu hs := by
    rw [htasks] at hu
    rcases getElem?_change hu with ⟨-, rfl⟩ | ⟨hj, hu⟩
    · exact hself hs
    · rw [hother j u hj hu hs]
      exact h.entry j u hu hs
  conns j e hje := by
    have hold : ∃ u, w.tasks[j]? = some u ∧ u.stats = e := by
      rcases hconns j e hje with hje | ⟨rfl, rfl⟩
      · exact h.conns j e hje
      · exact ⟨t, ht, rfl⟩
    obtain ⟨u, hu, rfl⟩ := hold
    rw [htasks]
    by_cases hj : j = i
    · subst hj
      rw [ht] at hu
      cases hu
      exact ⟨t', getElem?_change_self ht, hstats⟩
    · exact ⟨u, by rw [List.getElem?_set_ne (Ne.symm hj), hu], rfl⟩

lemma registered_step (hw : Held w) (h : w.Registered) (hs : Step w a w')
    (ha : UnregistersAlone w a) : w'.Registered := by
  cases step_moved hs with
  | quiet _ hsame => exact h.same hsame.tasks hsame.stats hsame.conns
  | @spawned node stats kind m _ htasks _ hfind hstats hconns =>
    constructor
    · intro i t ht hst
      rw [htasks] at ht
      rcases getElem?_snoc ht with ht | ⟨-, rfl⟩
      · have hold := h.entry i t ht hst
        rcases hstats with he | ⟨hnone, he⟩
        · rw [he, hold]
        · rw [he, Store.find_insert_of_ne _ _ ?_, hold]
          intro hk
          rw [hk, hnone] at hold
          cases hold
      · exact hfind
    · intro i e hie
      rw [hconns] at hie
      obtain ⟨t, ht, rfl⟩ := h.conns i e hie
      exact ⟨t, by rw [htasks, getElem?_snoc_of_some ht], rfl⟩
  | taken _ _ _ hsame => exact h.same hsame.tasks hsame.stats hsame.conns
  | drained _ _ _ hsame => exact h.same hsame.tasks hsame.stats hsame.conns
  | @signalled c i todo handles handles' _ _ hc hsame =>
    obtain ⟨t, ht, -⟩ := hw.unsent i (.call c) (by simp [Holds, hc])
    refine h.change ht (hsame.tasks.trans (send_tasks ht)) rfl ?_ ?_ ?_
    · intro hst
      rw [hsame.stats]
      exact h.entry i t ht (Task.staying_of_send hst)
    · intro j u _ _ _
      rw [hsame.stats]
      rfl
    · intro j e hje
      rw [hsame.conns] at hje
      exact Or.inl hje
  | @aborted c i handles _ hc hsame =>
    obtain ⟨t, ht, -⟩ := hw.joining i c (by simp [hc])
    refine h.change ht (hsame.tasks.trans (abort_tasks ht)) rfl ?_ ?_ ?_
    · intro hst
      rw [hsame.stats]
      exact h.entry i t ht hst
    · intro j u _ _ _
      rw [hsame.stats]
      rfl
    · intro j e hje
      rw [hsame.conns] at hje
      exact Or.inl hje
  | joined _ _ _ _ hsame => exact h.same hsame.tasks hsame.stats hsame.conns
  | @task i t t' b hab ht hstep hsame =>
    have hstats : w'.stats = if b.unregisters then w.stats.erase (t.node, t.key) else w.stats :=
      hsame.stats
    have hconns : w'.conns = if b = .accept then w.conns ++ [(i, t.stats)] else w.conns :=
      hsame.conns
    refine h.change ht hsame.tasks hstep.stats_eq.1 ?_ ?_ ?_
    · intro hst
      obtain ⟨hst, hb⟩ := hstep.staying hst
      rw [hstats, hb, hstep.key_eq, hstep.stats_eq.1, hstep.stats_eq.2]
      exact h.entry i t ht hst
    · intro j u hj hu hst
      rw [hstats]
      split
      · next hb => exact Store.find_erase_of_ne _ (ha i b t hab hb ht j u hj hu hst)
      · rfl
    · intro j e hje
      rw [hconns] at hje
      split at hje
      · simpa using hje
      · exact Or.inl hje

/-- While no task drops an entry that another one counts on, every bound listener has its entry, and
its connections count there. -/
theorem bound_listener_registered {actions : List Action} {i : ℕ} {t : Task}
    (h : Run (fun w a w' => Step w a w' ∧ UnregistersAlone w a) initial actions w)
    (hw : w.Settled) (ht : w.tasks[i]? = some t) (hb : t.Bound) :
    w.stats.find (t.node, t.key) = some t.stats ∧ ∀ e, (i, e) ∈ w.conns → e = t.stats := by
  have hinit : Registered initial := by
    constructor
    · intro i t ht
      cases ht
    · intro i e hie
      cases hie
  have hinv : Held w ∧ w.Registered := by
    refine h.invariant (I := fun w => Held w ∧ w.Registered) ⟨held_initial, hinit⟩ ?_
    rintro w a w' ⟨hw, hr⟩ ⟨hs, ha⟩
    exact ⟨held_step hw hs, registered_step hw hr hs ha⟩
  refine ⟨hinv.2.entry i t ht (hb.staying (hw t (List.mem_of_getElem? ht))), fun e he => ?_⟩
  obtain ⟨u, hu, rfl⟩ := hinv.2.conns i e he
  rw [ht] at hu
  cases hu
  rfl

lemma unregistersAlone_of_ne (h : ∀ i b, a = .task i b → b.unregisters = false) :
    UnregistersAlone w a := by
  intro i b t ha hb
  simp [h i b ha] at hb

theorem readded_listener_registered : ∃ actions w t,
    Run (fun w a w' => Step w a w' ∧ UnregistersAlone w a) initial actions w ∧ w.Settled ∧
      w.tasks[1]? = some t ∧ t.Bound ∧
      w.stats.find (t.node, t.key) = some t.stats ∧ ∀ e, (1, e) ∈ w.conns → e = t.stats := by
  have quiet {w : World} {a : Action} {w' : World} (hs : Step w a w')
      (ha : ∀ i b, a = .task i b → b.unregisters = false) :
      Step w a w' ∧ UnregistersAlone w a := ⟨hs, unregistersAlone_of_ne ha⟩
  have serve {w : World} {i : ℕ} {b : TaskAction} {w' : World} (hs : Step w (.task i b) w')
      (hb : b.unregisters = false) : Step w (.task i b) w' ∧ UnregistersAlone w (.task i b) := by
    refine quiet hs ?_
    rintro j b' he
    cases he
    exact hb
  have hstart := started_run.guard (p := UnregistersAlone) (by
    simp only [List.forall_mem_cons]
    refine ⟨?_, ?_, ?_, ?_, ?_, ?_, ?_, ?_, ?_, ?_, ?_, ?_, by simp⟩ <;>
      exact fun _ => unregistersAlone_of_ne (by simp))
  have hrun := hstart.append <|
    .cons (quiet (.begin _ (.add .remoteTcp "80")) (by simp)) <|
    .cons (quiet (.addPush (c := 2) rfl) (by simp)) <|
    .cons (quiet (.addLook (c := 2) rfl (Or.inr rfl)) (by simp)) <|
    .cons (serve (.task (i := 0) rfl (.bound rfl (fun _ => by decide))) rfl) <|
    .cons (serve (.task (i := 0) rfl (.subscribe rfl (fun h => by cases h))) rfl) <|
    .cons (quiet (.begin _ (.remove .remoteTcp "80")) (by simp)) <|
    .cons (quiet (.removeRetain (c := 3) rfl) (by simp)) <|
    .cons (quiet (.removeTake (c := 3) rfl rfl) (by simp)) <|
    .cons (quiet (.signal (c := 3) rfl) (by simp)) <|
    .cons ⟨.task (i := 0) rfl (.stopped rfl (Nat.lt_succ_self 0)), by
      rintro i b t ha - - j u hj hu
      cases ha
      cases j with
      | zero => exact absurd rfl hj
      | succ j => cases hu⟩ <|
    .cons (quiet (.join (c := 3) rfl rfl (Or.inl rfl)) (by simp)) <|
    .cons (quiet (.signalled (c := 3) rfl) (by simp)) <|
    .cons (quiet (.begin _ (.add .remoteTcp "80")) (by simp)) <|
    .cons (quiet (.addPush (c := 4) rfl) (by simp)) <|
    .cons (quiet (.addLook (c := 4) rfl (Or.inr rfl)) (by simp)) <|
    .cons (serve (.task (i := 1) rfl (.bound rfl (fun _ => by decide))) rfl) <|
    .cons (serve (.task (i := 1) rfl (.subscribe rfl (fun h => by cases h))) rfl) <|
    .cons (serve (.task (i := 1) rfl (.accept rfl)) rfl) <|
    .nil _
  refine ⟨_, _, _, hrun, ?_, rfl, Or.inr (Or.inl ⟨_, rfl⟩),
    bound_listener_registered hrun ?_ rfl (Or.inr (Or.inl ⟨_, rfl⟩))⟩
  all_goals
    refine List.forall_mem_cons.mpr ⟨?_, List.forall_mem_cons.mpr ⟨?_, List.forall_mem_nil _⟩⟩
    · exact Task.not_stopping_of_finished (Or.inl rfl)
    · exact Task.not_stopping_of_subscribe rfl

theorem cleared_task_drops_new_entry : ∃ actions w t, Run Step initial actions w ∧ w.Settled ∧
    w.tasks[1]? = some t ∧ t.Bound ∧ w.stats.find (t.node, t.key) = none := by
  have hrun := started_run.append <|
    .cons (.begin _ (.add .remoteTcp "80")) <| .cons (.addPush (c := 2) rfl) <|
    .cons (.addLook (c := 2) rfl (Or.inr rfl)) <|
    .cons (.task (i := 0) rfl (.bound rfl (fun _ => by decide))) <|
    .cons (.task (i := 0) rfl (.subscribe rfl (fun h => by cases h))) <|
    .cons (.begin _ .clearMappings) <| .cons (.clearList (c := 3) rfl) <|
    .cons (.clearList (c := 3) rfl) <| .cons (.clearList (c := 3) rfl) <|
    .cons (.clearList (c := 3) rfl) <|
    .cons (.drain (c := 3) rfl rfl (Store.enumerates_single "rtcp:80->127.0.0.1:80" 0)) <|
    .cons (.signal (c := 3) rfl) <| .cons (.signalled (c := 3) rfl) <|
    .cons (.begin _ (.add .remoteTcp "80")) <| .cons (.addPush (c := 4) rfl) <|
    .cons (.addLook (c := 4) rfl (Or.inr rfl)) <|
    .cons (.task (i := 1) rfl (.bound rfl (fun _ => by decide))) <|
    .cons (.task (i := 1) rfl (.subscribe rfl (fun h => by cases h))) <|
    .cons (.task (i := 0) rfl (.stopped rfl (Nat.lt_succ_self 0))) <| .nil _
  refine ⟨_, _, _, hrun, ?_, rfl, Or.inr (Or.inl ⟨_, rfl⟩), Store.find_erase_self _ _⟩
  refine List.forall_mem_cons.mpr ⟨?_, List.forall_mem_cons.mpr ⟨?_, List.forall_mem_nil _⟩⟩
  · exact Task.not_stopping_of_finished (Or.inl rfl)
  · exact Task.not_stopping_of_subscribe rfl

end World

end Yggstack.Mobile
