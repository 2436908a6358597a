import Yggstack.Mobile.Holders

namespace Yggstack.Forward

namespace Task

variable {t t' : Task} {a : TaskAction}

def Deaf (t : Task) : Prop :=
  (∃ r, t.phase = .serving r ∧ ¬r.Pending t.stop) ∨
    ∃ r, t.timer = .waiting r ∧ ¬r.Pending t.stop

def InTime (t : Task) : Prop :=
  t.phase = .exited ∨ (t.phase = .spawned ∧ ¬t.MayBind) ∨
    (∃ r, t.phase = .serving r) ∧ t.timer ≠ .spawned

def LeavesTimer (t : Task) : Prop := (∃ r, t.phase = .serving r) ∧ t.timer = .spawned

structure Heeds (t : Task) : Prop where
  bound : t.phase ≠ .bound
  spawned : t.phase = .spawned → ¬t.MayBind
  serving : ∀ r, t.phase = .serving r → r.Pending t.stop
  timer : t.timer ≠ .spawned
  waiting : ∀ r, t.timer = .waiting r → r.Pending t.stop

def Unheard (t : Task) : Prop :=
  t.phase = .spawned ∧ t.timer = .absent ∨ t.phase = .bound ∨
    ∃ r, t.phase = .serving r ∧ ¬r.Pending t.stop

lemma Heeds.not_deaf (h : t.Heeds) : ¬t.Deaf := by
  rintro (⟨r, hr, hn⟩ | ⟨r, hr, hn⟩)
  · exact hn (h.serving r hr)
  · exact hn (h.waiting r hr)

lemma Heeds.step (h : t.Heeds) (hs : Task.Step t a t') : t'.Heeds := by
  obtain ⟨h1, h2, h3, h4, h5⟩ := h
  cases hs with
  | bound hp hb => exact absurd hb (h2 hp)
  | spawnTimer hp => exact absurd hp h1
  | subscribe hp => exact absurd hp h1
  | timerSubscribe ht => exact absurd ht h4
  | stopped hp hr =>
    rcases t.afterStop_cases with he | he <;> rw [he] <;> constructor <;> simp_all
  | accept hp => exact ⟨h1, h2, h3, h4, h5⟩
  | timerStopped => exact ⟨h1, h2, h3, by simp, by simp⟩
  | _ => constructor <;> simp_all

lemma Unheard.step (h : t.Unheard) (ha : t.aborting = false) (hs : Task.Step t a t') :
    t'.Heeds ∨ t'.Unheard := by
  cases hs with
  | bound => exact Or.inr (Or.inr (Or.inl rfl))
  | bindFailed hp _ =>
    rcases h with ⟨-, ht⟩ | hb | ⟨r, hr, -⟩
    · exact Or.inl (by constructor <;> simp [ht])
    · simp [hp] at hb
    · simp [hp] at hr
  | spawnTimer hp => exact Or.inr (Or.inr (Or.inl hp))
  | subscribe => exact Or.inr (Or.inr (Or.inr ⟨_, rfl, Library.Receiver.not_pending_subscribe⟩))
  | accept => exact Or.inr h
  | stopped hp hr =>
    rcases h with ⟨hs, -⟩ | hb | ⟨r, hr', hn⟩
    · simp [hp] at hs
    · simp [hp] at hb
    · rw [hp] at hr'
      cases hr'
      exact absurd hr hn
  | drained hp =>
    rcases h with ⟨hs, -⟩ | hb | ⟨r, hr, -⟩ <;> simp_all
  | cancelled hc => simp [ha] at hc
  | timerSubscribe ht =>
    rcases h with ⟨-, hn⟩ | h | h
    · simp [ht] at hn
    · exact Or.inr (Or.inr (Or.inl h))
    · exact Or.inr (Or.inr (Or.inr h))
  | timerStopped ht _ =>
    rcases h with ⟨-, hn⟩ | h | h
    · simp [ht] at hn
    · exact Or.inr (Or.inr (Or.inl h))
    · exact Or.inr (Or.inr (Or.inr h))

lemma Unheard.not_finished (h : t.Unheard) : ¬t.Finished := by
  rintro (hf | hf) <;> rcases h with ⟨hp, -⟩ | hp | ⟨r, hp, -⟩ <;> simp [hf] at hp

lemma Sound.unsent_cases (h : t.Sound) (h0 : t.stop.sent = 0) :
    t.phase = .spawned ∧ t.timer = .absent ∨ t.phase = .bound ∨ (∃ r, t.phase = .serving r) ∨
      t.phase = .exited ∧ t.timer = .absent := by
  cases hp : t.phase with
  | spawned => exact Or.inl ⟨rfl, h.spawned hp⟩
  | bound => exact Or.inr (Or.inl rfl)
  | serving r => exact Or.inr (Or.inr (Or.inl ⟨r, rfl⟩))
  | draining => have := h.draining hp; omega
  | exited =>
    rcases h.exited hp with ht | hs
    · exact Or.inr (Or.inr (Or.inr ⟨rfl, ht⟩))
    · omega
  | aborted => have := h.aborting (h.aborted hp); omega

lemma heeds_send (h : t.Sound) (hp : t.phase ≠ .bound)
    (hs : t.phase = .spawned → ¬t.MayBind) (ht : t.timer ≠ .spawned) :
    ({ t with stop := t.stop.send } : Task).Heeds where
  bound := hp
  spawned := hs
  serving r hr := Library.Receiver.pending_send (h.serving r hr)
  timer := ht
  waiting r hr := Library.Receiver.pending_send (h.waiting r hr)

lemma InTime.heeds (hi : t.InTime) (h : t.Sound) (h0 : t.stop.sent = 0) :
    ({ t with stop := t.stop.send } : Task).Heeds := by
  rcases hi with hp | ⟨hp, hb⟩ | ⟨⟨r, hp⟩, ht⟩
  · refine heeds_send h (by simp [hp]) (by simp [hp]) ?_
    rcases h.exited hp with ht | hs
    · simp [ht]
    · omega
  · exact heeds_send h (by simp [hp]) (fun _ => hb) (by simp [h.spawned hp])
  · exact heeds_send h (by simp [hp]) (by simp [hp]) ht

lemma send_cases (h : t.Sound) (h0 : t.stop.sent = 0) (hl : ¬t.LeavesTimer) :
    ({ t with stop := t.stop.send } : Task).Heeds ∨
      ({ t with stop := t.stop.send } : Task).Unheard := by
  rcases h.unsent_cases h0 with ⟨hp, ht⟩ | hp | ⟨r, hp⟩ | ⟨hp, ht⟩
  · exact Or.inr (Or.inl ⟨hp, ht⟩)
  · exact Or.inr (Or.inr (Or.inl hp))
  · have hi : t.InTime := Or.inr (Or.inr ⟨⟨r, hp⟩, fun ht => hl ⟨⟨r, hp⟩, ht⟩⟩)
    exact Or.inl (hi.heeds h h0)
  · have hi : t.InTime := Or.inl hp
    exact Or.inl (hi.heeds h h0)

end Task

end Yggstack.Forward

namespace Yggstack.Mobile

open Library Forward

namespace World

variable {w w' : World} {a : Action}

def Gone (w : World) (i : ℕ) : Prop :=
  (∀ key, w.listeners.find key ≠ some i) ∧ ∀ c, i ∉ (w.queue c).1 ∧ i ∉ (w.queue c).2

def Lost (w : World) (i : ℕ) : Prop :=
  ∃ t, w.tasks[i]? = some t ∧ 0 < t.stop.sent ∧ w.Gone i ∧ t.aborting = false ∧ t.Deaf

/-- A call signals a task only when the stop finds its receivers, or the call itself makes up for
it. -/
def SignalsInTime (w : World) (a : Action) : Prop :=
  ∀ c i todo handles t, a = .call c .signal → w.queue c = (i :: todo, handles) →
    w.tasks[i]? = some t →
    (w.Joins c → ¬t.LeavesTimer) ∧ (¬w.Joins c → t.InTime)

def Answered (w : World) : Prop :=
  ∀ i t, w.tasks[i]? = some t → 0 < t.stop.sent →
    t.aborting = true ∨ t.Heeds ∨ t.Unheard ∧ ∃ c, i ∈ (w.queue c).2

lemma Answered.not_lost (h : w.Answered) (i : ℕ) : ¬w.Lost i := by
  rintro ⟨t, ht, hs, ⟨-, hc⟩, ha, hd⟩
  rcases h i t ht hs with hab | hh | ⟨-, c, hm⟩
  · simp [ha] at hab
  · exact hh.not_deaf hd
  · exact (hc c).2 hm

lemma Answered.keep (h : w.Answered) (htasks : w'.tasks = w.tasks)
    (hq : ∀ i t c, w.tasks[i]? = some t → t.Unheard → i ∈ (w.queue c).2 →
      ∃ d, i ∈ (w'.queue d).2) : w'.Answered := by
  intro i t ht hs
  rw [htasks] at ht
  rcases h i t ht hs with ha | hh | ⟨hu, c, hc⟩
  · exact Or.inl ha
  · exact Or.inr (Or.inl hh)
  · exact Or.inr (Or.inr ⟨hu, hq i t c ht hu hc⟩)

lemma Answered.change (h : w.Answered) {i : ℕ} {t' : Task}
    (htasks : w'.tasks = w.tasks.set i t')
    (hq : ∀ j c, j ∈ (w.queue c).2 → j ∈ (w'.queue c).2)
    (ht' : 0 < t'.stop.sent →
      t'.aborting = true ∨ t'.Heeds ∨ t'.Unheard ∧ ∃ c, i ∈ (w'.queue c).2) : w'.Answered := by
  intro j t ht hs
  rw [htasks] at ht
  rcases getElem?_change ht with ⟨rfl, rfl⟩ | ⟨-, ht⟩
  · exact ht' hs
  · rcases h j t ht hs with ha | hh | ⟨hu, c, hc⟩
    · exact Or.inl ha
    · exact Or.inr (Or.inl hh)
    · exact Or.inr (Or.inr ⟨hu, c, hq j c hc⟩)

lemma mem_handles_update {c d j : ℕ} {todo handles : List ℕ}
    (h : ∀ j ∈ (w.queue c).2, j ∈ handles) (hj : j ∈ (w.queue d).2) :
    j ∈ (Function.update w.queue c (todo, handles) d).2 := by
  by_cases hd : d = c
  · subst hd
    simpa using h j hj
  · simpa [Function.update_of_ne hd] using hj

lemma answered_step (hw : Held w) (h : w.Answered) (hs : Step w a w')
    (hin : SignalsInTime w a) : w'.Answered := by
  cases step_moved hs with
  | quiet _ hsame hq =>
    refine h.keep hsame.tasks fun i t c _ _ hc => ⟨c, ?_⟩
    rwa [hq]
  | @spawned node stats kind m _ htasks _ _ _ _ hq =>
    intro i t ht hsent
    rw [htasks] at ht
    rw [hq]
    rcases getElem?_snoc ht with ht | ⟨-, rfl⟩
    · exact h i t ht hsent
    · cases hsent
  | @taken c i key _ hc _ hsame hq =>
    refine h.keep hsame.tasks fun j t d _ _ hd => ⟨d, ?_⟩
    rw [hq]
    exact mem_handles_update (by simp [hc]) hd
  | @drained c order _ hc _ hsame hq =>
    refine h.keep hsame.tasks fun j t d _ _ hd => ⟨d, ?_⟩
    rw [hq]
    exact mem_handles_update (by simp [hc]) hd
  | @signalled c i todo handles handles' _ ha hc hsame hh hq =>
    obtain ⟨t, ht, h0⟩ := hw.unsent i (.call c) (by simp [Holds, hc])
    have hsound := hw.sound t (List.mem_of_getElem? ht)
    obtain ⟨hjoin, hclear⟩ := hin c i todo handles t ha hc ht
    refine h.change (hsame.tasks.trans (send_tasks ht)) ?_ fun _ => Or.inr ?_
    · intro j d hd
      rw [hq]
      refine mem_handles_update (fun j hj => ?_) hd
      rw [hc] at hj
      rcases hh with ⟨-, rfl⟩ | ⟨-, rfl⟩
      · exact List.mem_append_left _ hj
      · exact hj
    · rcases hh with ⟨hj, rfl⟩ | ⟨hj, rfl⟩
      · rcases Task.send_cases hsound h0 (hjoin hj) with hheeds | hunheard
        · exact Or.inl hheeds
        · exact Or.inr ⟨hunheard, c, by simp [hq]⟩
      · exact Or.inl ((hclear hj).heeds hsound h0)
  | @aborted c i handles _ hc hsame hq =>
    obtain ⟨t, ht, hsent⟩ := hw.joining i c (by simp [hc])
    refine h.change (hsame.tasks.trans (abort_tasks ht)) ?_ fun _ => Or.inl rfl
    intro j d hd
    rwa [hq]
  | @joined c i handles t _ hc ht hf hsame hq =>
    refine h.keep hsame.tasks fun j u d hu hun hd => ⟨d, ?_⟩
    rw [hq]
    by_cases hdc : d = c
    · subst hdc
      simp only [hc, List.mem_cons] at hd
      rcases hd with rfl | hd
      · rw [ht] at hu
        cases hu
        exact absurd hf hun.not_finished
      · simpa using hd
    · simpa [Function.update_of_ne hdc] using hd
  | @task i t t' b _ ht hstep hsame hq =>
    refine h.change hsame.tasks (by rw [hq]; exact fun _ _ => id) fun hsent => ?_
    rw [hstep.stop_eq] at hsent
    rw [hstep.aborting_eq, hq]
    rcases h i t ht hsent with ha | hh | ⟨hu, c, hc⟩
    · exact Or.inl ha
    · exact Or.inr (Or.inl (hh.step hstep))
    · cases ha : t.aborting with
      | true => exact Or.inl rfl
      | false =>
        rcases hu.step ha hstep with hh | hu
        · exact Or.inr (Or.inl hh)
        · exact Or.inr (Or.inr ⟨hu, c, hc⟩)

theorem no_stop_lost {actions : List Action}
    (h : Run (fun w a w' => Step w a w' ∧ SignalsInTime w a) initial actions w) (i : ℕ) :
    ¬w.Lost i := by
  have hinit : Answered initial := by
    intro i t ht
    cases ht
  have hinv : Held w ∧ w.Answered := by
    refine h.invariant (I := fun w => Held w ∧ w.Answered) ⟨held_initial, hinit⟩ ?_
    rintro w a w' ⟨hw, ha⟩ ⟨hs, hin⟩
    exact ⟨held_step hw hs, answered_step hw ha hs hin⟩
  exact hinv.2.not_lost i

lemma signalsInTime_of_ne (h : ∀ c, a ≠ .call c .signal) : SignalsInTime w a := by
  intro c i todo handles t ha
  exact absurd ha (h c)

theorem serving_listener_cleared : ∃ actions w,
    Run (fun w a w' => Step w a w' ∧ SignalsInTime w a) initial actions w ∧
      (∃ t, w.tasks[0]? = some t ∧ 0 < t.stop.sent) ∧ ∀ i, ¬w.Lost i := by
  have hstart := started_run.guard (p := SignalsInTime) (by
    simp only [List.forall_mem_cons]
    refine ⟨?_, ?_, ?_, ?_, ?_, ?_, ?_, ?_, ?_, ?_, ?_, ?_, by simp⟩ <;>
      exact fun _ => signalsInTime_of_ne (by simp))
  have quiet {w : World} {a : Action} {w' : World} (hs : Step w a w')
      (ha : ∀ c, a ≠ .call c .signal) : Step w a w' ∧ SignalsInTime w a :=
    ⟨hs, signalsInTime_of_ne ha⟩
  have hrun := hstart.append <|
    .cons (quiet (.begin _ (.add .remoteTcp "80")) (by simp)) <|
    .cons (quiet (.addPush (c := 2) rfl) (by simp)) <|
    .cons (quiet (.addLook (c := 2) rfl (Or.inr rfl)) (by simp)) <|
    .cons (quiet (.task (i := 0) rfl (.bound rfl (fun _ => by decide))) (by simp)) <|
    .cons (quiet (.task (i := 0) rfl (.subscribe rfl (fun h => by cases h))) (by simp)) <|
    .cons (quiet (.begin _ .clearMappings) (by simp)) <|
    .cons (quiet (.clearList (c := 3) rfl) (by simp)) <|
    .cons (quiet (.clearList (c := 3) rfl) (by simp)) <|
    .cons (quiet (.clearList (c := 3) rfl) (by simp)) <|
    .cons (quiet (.clearList (c := 3) rfl) (by simp)) <|
    .cons (quiet (.drain (c := 3) rfl rfl (Store.enumerates_single "rtcp:80->127.0.0.1:80" 0))
      (by simp)) <|
    .cons ⟨.signal (c := 3) rfl, by
      rintro c i todo handles t ha hq ht
      cases ha
      cases hq
      cases ht
      refine ⟨?_, fun _ => Or.inr (Or.inr ⟨⟨_, rfl⟩, fun h => by cases h⟩)⟩
      rintro - ⟨-, h⟩
      cases h⟩ <| .nil _
  exact ⟨_, _, hrun, ⟨_, rfl, Nat.succ_pos 0⟩, no_stop_lost hrun⟩

theorem cleared_before_first_poll : ∃ actions w, Run Step initial actions w ∧ w.Lost 0 := by
  have hrun := started_run.append <|
    .cons (.begin _ (.add .remoteTcp "80")) <| .cons (.addPush (c := 2) rfl) <|
    .cons (.addLook (c := 2) rfl (Or.inr rfl)) <|
    .cons (.begin _ .clearMappings) <| .cons (.clearList (c := 3) rfl) <|
    .cons (.clearList (c := 3) rfl) <| .cons (.clearList (c := 3) rfl) <|
    .cons (.clearList (c := 3) rfl) <|
    .cons (.drain (c := 3) rfl rfl (Store.enumerates_single "rtcp:80->127.0.0.1:80" 0)) <|
    .cons (.signal (c := 3) rfl) <| .cons (.signalled (c := 3) rfl) <|
    .cons (.task (i := 0) rfl (.bound rfl (fun _ => by decide))) <|
    .cons (.task (i := 0) rfl (.subscribe rfl (fun h => by cases h))) <| .nil _
  refine ⟨_, _, hrun, _, rfl, Nat.succ_pos 0, ⟨?_, ?_⟩, rfl, Or.inl ⟨_, rfl, Nat.lt_irrefl _⟩⟩
  · intro key h
    cases h
  · intro c
    match c with
    | 0 | 1 | 2 | 3 => exact ⟨List.not_mem_nil, List.not_mem_nil⟩
    | n + 4 => exact ⟨List.not_mem_nil, List.not_mem_nil⟩

end World

end Yggstack.Mobile
