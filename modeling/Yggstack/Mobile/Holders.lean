import Yggstack.Mobile.Moves

namespace Yggstack.Forward

open Library

structure Task.Sound (t : Task) : Prop where
  serving : ∀ r, t.phase = .serving r → r.position ≤ t.stop.sent
  waiting : ∀ r, t.timer = .waiting r → r.position ≤ t.stop.sent
  spawned : t.phase = .spawned → t.timer = .absent
  tcp : t.kind.isUdp = false → t.timer = .absent
  draining : t.phase = .draining → 0 < t.stop.sent
  exited : t.phase = .exited → t.timer = .absent ∨ 0 < t.stop.sent
  timer : t.timer = .exited → 0 < t.stop.sent
  aborted : t.phase = .aborted → t.aborting = true
  aborting : t.aborting = true → 0 < t.stop.sent

namespace Task

variable {t t' : Task} {a : TaskAction}

lemma Step.stop_eq (h : Task.Step t a t') : t'.stop = t.stop := by
  cases h <;> rfl

lemma Step.key_eq (h : Task.Step t a t') : t'.key = t.key := by
  cases h <;> rfl

lemma Step.aborting_eq (h : Task.Step t a t') : t'.aborting = t.aborting := by
  cases h <;> rfl

lemma afterStop_cases (t : Task) : t.afterStop = .draining ∨ t.afterStop = .exited := by
  unfold afterStop
  split <;> simp

lemma Sound.setPhase (hi : t.Sound) {p : Phase}
    (hserving : ∀ r, p = .serving r → r.position ≤ t.stop.sent) (hspawned : p ≠ .spawned)
    (hdraining : p = .draining → 0 < t.stop.sent)
    (hexited : p = .exited → t.timer = .absent ∨ 0 < t.stop.sent)
    (haborted : p = .aborted → t.aborting = true) : ({ t with phase := p } : Task).Sound :=
  { hi with
    serving := hserving
    spawned := fun h => absurd h hspawned
    draining := hdraining
    exited := hexited
    aborted := haborted }

lemma Sound.setTimer (hi : t.Sound) {k : Timer} (hudp : t.kind.isUdp = true)
    (hspawned : t.phase ≠ .spawned) (hexited : t.phase = .exited → 0 < t.stop.sent)
    (hwaiting : ∀ r, k = .waiting r → r.position ≤ t.stop.sent)
    (hk : k = .exited → 0 < t.stop.sent) : ({ t with timer := k } : Task).Sound :=
  { hi with
    waiting := hwaiting
    spawned := fun h => absurd h hspawned
    tcp := fun h => by rw [hudp] at h; cases h
    exited := fun h => Or.inr (hexited h)
    timer := hk }

lemma Sound.of_timer (hi : t.Sound) (h : t.timer ≠ .absent) :
    t.kind.isUdp = true ∧ t.phase ≠ .spawned ∧ (t.phase = .exited → 0 < t.stop.sent) := by
  refine ⟨?_, fun hp => h (hi.spawned hp), fun hp => (hi.exited hp).resolve_left h⟩
  by_contra hudp
  exact h (hi.tcp (by simpa using hudp))

lemma Sound.step (hi : t.Sound) (h : Task.Step t a t') : t'.Sound := by
  cases h with
  | bound => exact hi.setPhase (by simp) (by simp) (by simp) (by simp) (by simp)
  | bindFailed hp =>
    exact hi.setPhase (by simp) (by simp) (by simp) (fun _ => Or.inl (hi.spawned hp)) (by simp)
  | spawnTimer hp hudp =>
    exact hi.setTimer hudp (by simp [hp]) (by simp [hp]) (by simp) (by simp)
  | subscribe =>
    refine hi.setPhase ?_ (by simp) (by simp) (by simp) (by simp)
    rintro r ⟨⟩
    exact le_rfl
  | accept => exact hi
  | stopped hp hr =>
    have hs : 0 < t.stop.sent := Nat.zero_lt_of_lt hr
    rcases t.afterStop_cases with he | he <;> rw [he] <;>
      exact hi.setPhase (by simp) (by simp) (fun _ => hs) (fun _ => Or.inr hs) (by simp)
  | drained hp =>
    exact hi.setPhase (by simp) (by simp) (by simp) (fun _ => Or.inr (hi.draining hp)) (by simp)
  | cancelled ha => exact hi.setPhase (by simp) (by simp) (by simp) (by simp) (fun _ => ha)
  | timerSubscribe ht =>
    obtain ⟨hudp, hp, he⟩ := hi.of_timer (by simp [ht])
    refine hi.setTimer hudp hp he ?_ (by simp)
    rintro r ⟨⟩
    exact le_rfl
  | timerStopped ht hr =>
    obtain ⟨hudp, hp, he⟩ := hi.of_timer (by simp [ht])
    exact hi.setTimer hudp hp he (by simp) fun _ => Nat.zero_lt_of_lt hr

lemma Sound.send (hi : t.Sound) : ({ t with stop := t.stop.send } : Task).Sound where
  serving r h := Nat.le_succ_of_le (hi.serving r h)
  waiting r h := Nat.le_succ_of_le (hi.waiting r h)
  spawned := hi.spawned
  tcp := hi.tcp
  draining _ := Nat.succ_pos _
  exited _ := Or.inr (Nat.succ_pos _)
  timer _ := Nat.succ_pos _
  aborted := hi.aborted
  aborting _ := Nat.succ_pos _

lemma Sound.abort (hi : t.Sound) (h : 0 < t.stop.sent) :
    ({ t with aborting := true } : Task).Sound :=
  { hi with
    aborted := fun _ => rfl
    aborting := fun _ => h }

end Task

end Yggstack.Forward

namespace Yggstack.Mobile

open Library Forward

inductive Holder where
  | recorded (key : String)
  | call (c : ℕ)

namespace World

def Holds (w : World) (i : ℕ) : Holder → Prop
  | .recorded key => w.listeners.find key = some i
  | .call c => i ∈ (w.queue c).1

structure Held (w : World) : Prop where
  unsent : ∀ i h, w.Holds i h → ∃ t, w.tasks[i]? = some t ∧ t.stop.sent = 0
  unique : ∀ i h h', w.Holds i h → w.Holds i h' → h = h'
  nodup : ∀ c, (w.queue c).1.Nodup
  key : ∀ i key, w.listeners.find key = some i → ∃ t, w.tasks[i]? = some t ∧ t.key = key
  joining : ∀ i c, i ∈ (w.queue c).2 → ∃ t, w.tasks[i]? = some t ∧ 0 < t.stop.sent
  sound : ∀ t ∈ w.tasks, t.Sound

variable {w w' : World} {a : Action}

lemma held_initial : Held initial where
  unsent i h hi := by cases h <;> cases hi
  unique i h h' hi := by cases h <;> cases hi
  nodup c := List.nodup_nil
  key i key h := by cases h
  joining i c h := by cases h
  sound t ht := by cases ht

lemma Held.pass (hw : Held w) (htasks : w'.tasks = w.tasks)
    (hback : ∀ i h, w'.Holds i h → ∃ h', w.Holds i h')
    (hunique : ∀ i h h', w'.Holds i h → w'.Holds i h' → h = h')
    (hnodup : ∀ c, (w'.queue c).1.Nodup)
    (hkey : ∀ i key, w'.listeners.find key = some i → w.listeners.find key = some i)
    (hjoin : ∀ i c, i ∈ (w'.queue c).2 → i ∈ (w.queue c).2) : Held w' where
  unsent i h hi := by
    obtain ⟨h', hi'⟩ := hback i h hi
    rw [htasks]
    exact hw.unsent i h' hi'
  unique := hunique
  nodup := hnodup
  key i key h := by
    rw [htasks]
    exact hw.key i key (hkey i key h)
  joining i c h := by
    rw [htasks]
    exact hw.joining i c (hjoin i c h)
  sound := by
    rw [htasks]
    exact hw.sound

lemma Held.change (hw : Held w) {i : ℕ} {t t' : Task} (ht : w.tasks[i]? = some t)
    (htasks : w'.tasks = w.tasks.set i t') (hl : w'.listeners = w.listeners)
    (hq : w'.queue = w.queue) (hstop : t'.stop = t.stop) (hkey : t'.key = t.key)
    (hsound : t'.Sound) : Held w' := by
  have hholds : ∀ j h, w'.Holds j h ↔ w.Holds j h := by
    intro j h
    cases h <;> simp only [Holds, hl, hq]
  have hpick : ∀ {p : Task → Prop} {j : ℕ}, (p t → p t') → (∃ u, w.tasks[j]? = some u ∧ p u) →
      ∃ u, w'.tasks[j]? = some u ∧ p u := by
    rintro p j hp ⟨u, hu, hpu⟩
    rw [htasks]
    by_cases hj : j = i
    · subst hj
      rw [ht] at hu
      cases hu
      exact ⟨t', getElem?_change_self ht, hp hpu⟩
    · exact ⟨u, by rw [List.getElem?_set_ne (Ne.symm hj), hu], hpu⟩
  constructor
  · intro j h hj
    exact hpick (by rw [hstop]; exact id) (hw.unsent j h ((hholds j h).mp hj))
  · intro j h h' hj hj'
    exact hw.unique j h h' ((hholds j h).mp hj) ((hholds j h').mp hj')
  · rw [hq]
    exact hw.nodup
  · intro j key hj
    rw [hl] at hj
    exact hpick (by rw [hkey]; exact id) (hw.key j key hj)
  · intro j c hj
    rw [hq] at hj
    exact hpick (by rw [hstop]; exact id) (hw.joining j c hj)
  · intro u hu
    rw [htasks] at hu
    rcases List.mem_or_eq_of_mem_set hu with hu | rfl
    · exact hw.sound u hu
    · exact hsound

lemma send_tasks {i : ℕ} {t : Task} (h : w.tasks[i]? = some t) :
    (w.send i).tasks = w.tasks.set i { t with stop := t.stop.send } := modify_eq_set h

lemma abort_tasks {i : ℕ} {t : Task} (h : w.tasks[i]? = some t) :
    (w.abort i).tasks = w.tasks.set i { t with aborting := true } := modify_eq_set h

lemma held_spawned (hw : Held w) {t : Task} (ht : t.stop.sent = 0) (hsound : t.Sound)
    (htasks : w'.tasks = w.tasks ++ [t])
    (hl : w'.listeners = w.listeners.insert t.key w.tasks.length) (hq : w'.queue = w.queue) :
    Held w' := by
  have hlast : w'.tasks[w.tasks.length]? = some t := by simp [htasks]
  have hold : ∀ {p : Task → Prop} {j : ℕ}, (∃ u, w.tasks[j]? = some u ∧ p u) →
      j < w.tasks.length ∧ ∃ u, w'.tasks[j]? = some u ∧ p u := by
    rintro p j ⟨u, hu, hpu⟩
    have hlt := (List.getElem?_eq_some_iff.mp hu).1
    exact ⟨hlt, u, by rw [htasks, getElem?_snoc_of_some hu], hpu⟩
  have hholds : ∀ j h, w'.Holds j h → w.Holds j h ∧ j < w.tasks.length ∨
      h = .recorded t.key ∧ j = w.tasks.length := by
    intro j h hj
    cases h with
    | recorded key =>
      rw [Holds, hl, Store.find_insert] at hj
      split at hj
      · next he =>
        subst he
        exact Or.inr ⟨rfl, (Option.some.inj hj).symm⟩
      · have hj : w.Holds j (.recorded key) := hj
        exact Or.inl ⟨hj, (hold (hw.unsent _ _ hj)).1⟩
    | call c =>
      rw [Holds, hq] at hj
      have hj : w.Holds j (.call c) := hj
      exact Or.inl ⟨hj, (hold (hw.unsent _ _ hj)).1⟩
  constructor
  · intro j h hj
    rcases hholds j h hj with ⟨hj, -⟩ | ⟨-, rfl⟩
    · exact (hold (hw.unsent j h hj)).2
    · exact ⟨t, hlast, ht⟩
  · intro j h h' hj hj'
    rcases hholds j h hj with ⟨hj, hlt⟩ | ⟨rfl, rfl⟩ <;>
      rcases hholds _ h' hj' with ⟨hj', hlt'⟩ | ⟨rfl, hn⟩
    · exact hw.unique j h h' hj hj'
    · omega
    · omega
    · rfl
  · rw [hq]
    exact hw.nodup
  · intro j key hj
    rw [hl, Store.find_insert] at hj
    split at hj
    · next he => exact ⟨t, by rw [← Option.some.inj hj, hlast], he.symm⟩
    · exact (hold (hw.key j key hj)).2
  · intro j c hj
    rw [hq] at hj
    exact (hold (hw.joining j c hj)).2
  · intro u hu
    rw [htasks, List.mem_append, List.mem_singleton] at hu
    rcases hu with hu | rfl
    · exact hw.sound u hu
    · exact hsound

lemma held_signalled (hw : Held w) {c i : ℕ} {todo handles handles' : List ℕ}
    (hc : w.queue c = (i :: todo, handles)) (htasks : w'.tasks = (w.send i).tasks)
    (hl : w'.listeners = w.listeners) (hh : ∀ j ∈ handles', j ∈ handles ∨ j = i)
    (hq : w'.queue = Function.update w.queue c (todo, handles')) : Held w' := by
  have hci : w.Holds i (.call c) := by simp [Holds, hc]
  have hnodup : (i :: todo).Nodup := by simpa [hc] using hw.nodup c
  obtain ⟨t, ht, hsent⟩ := hw.unsent i _ hci
  have hne : ∀ {j : ℕ}, j ≠ i → w'.tasks[j]? = w.tasks[j]? := by
    intro j hj
    rw [htasks, send_tasks ht, List.getElem?_set_ne (Ne.symm hj)]
  have hi : w'.tasks[i]? = some { t with stop := t.stop.send } := by
    rw [htasks, send_tasks ht, getElem?_change_self ht]
  have hback : ∀ j h, w'.Holds j h → w.Holds j h ∧ j ≠ i := by
    intro j h hj
    cases h with
    | recorded key =>
      rw [Holds, hl] at hj
      have hj : w.Holds j (.recorded key) := hj
      refine ⟨hj, ?_⟩
      rintro rfl
      cases hw.unique j _ _ hci hj
    | call d =>
      rw [Holds, hq] at hj
      by_cases hd : d = c
      · subst hd
        have hj : j ∈ todo := by simpa using hj
        refine ⟨by simp [Holds, hc, hj], ?_⟩
        rintro rfl
        exact (List.nodup_cons.mp hnodup).1 hj
      · rw [Function.update_of_ne hd] at hj
        have hj : w.Holds j (.call d) := hj
        refine ⟨hj, ?_⟩
        rintro rfl
        cases hw.unique j _ _ hci hj
        exact hd rfl
  constructor
  · intro j h hj
    obtain ⟨hj, hji⟩ := hback j h hj
    rw [hne hji]
    exact hw.unsent j h hj
  · intro j h h' hj hj'
    exact hw.unique j h h' (hback j h hj).1 (hback j h' hj').1
  · intro d
    rw [hq]
    by_cases hd : d = c
    · subst hd
      simpa using (List.nodup_cons.mp hnodup).2
    · simpa [Function.update_of_ne hd] using hw.nodup d
  · intro j key hj
    obtain ⟨-, hji⟩ := hback j (.recorded key) hj
    rw [hne hji]
    exact hw.key j key (by rw [← hl]; exact hj)
  · intro j d hj
    by_cases hji : j = i
    · subst hji
      exact ⟨_, hi, Nat.succ_pos _⟩
    · rw [hne hji]
      apply hw.joining j d
      rw [hq] at hj
      by_cases hd : d = c
      · subst hd
        rw [hc]
        exact (hh j (by simpa using hj)).resolve_right hji
      · simpa [Function.update_of_ne hd] using hj
  · intro u hu
    rw [htasks, send_tasks ht] at hu
    rcases List.mem_or_eq_of_mem_set hu with hu | rfl
    · exact hw.sound u hu
    · exact (hw.sound t (List.mem_of_getElem? ht)).send

lemma held_taken (hw : Held w) {c : ℕ} {todo handles : List ℕ} (htasks : w'.tasks = w.tasks)
    (hc : (w.queue c).1 = []) (hnodup : todo.Nodup)
    (hfrom : ∀ i ∈ todo, ∃ key, w.listeners.find key = some i)
    (hl : ∀ i key, w'.listeners.find key = some i → w.listeners.find key = some i ∧ i ∉ todo)
    (hh : ∀ i ∈ handles, i ∈ (w.queue c).2)
    (hq : w'.queue = Function.update w.queue c (todo, handles)) : Held w' := by
  have hback : ∀ i h, w'.Holds i h → w.Holds i h ∧ i ∉ todo ∨ h = .call c ∧ i ∈ todo := by
    intro i h hi
    cases h with
    | recorded key => exact Or.inl (hl i key hi)
    | call d =>
      rw [Holds, hq] at hi
      by_cases hd : d = c
      · subst hd
        exact Or.inr ⟨rfl, by simpa using hi⟩
      · rw [Function.update_of_ne hd] at hi
        have hi : w.Holds i (.call d) := hi
        refine Or.inl ⟨hi, fun hmem => ?_⟩
        obtain ⟨key, hkey⟩ := hfrom i hmem
        cases hw.unique i _ (.recorded key) hi hkey
  refine hw.pass htasks ?_ ?_ ?_ (fun i key hi => (hl i key hi).1) ?_
  · intro i h hi
    rcases hback i h hi with ⟨hi, -⟩ | ⟨-, hi⟩
    · exact ⟨h, hi⟩
    · obtain ⟨key, hkey⟩ := hfrom i hi
      exact ⟨.recorded key, hkey⟩
  · intro i h h' hi hi'
    rcases hback i h hi with ⟨hold, hn⟩ | ⟨rfl, hmem⟩ <;>
      rcases hback i h' hi' with ⟨hold', hn'⟩ | ⟨rfl, hmem'⟩
    · exact hw.unique i h h' hold hold'
    · exact absurd hmem' hn
    · exact absurd hmem hn'
    · rfl
  · intro d
    rw [hq]
    by_cases hd : d = c
    · subst hd
      simpa using hnodup
    · simpa [Function.update_of_ne hd] using hw.nodup d
  · intro i d hi
    rw [hq] at hi
    by_cases hd : d = c
    · subst hd
      exact hh i (by simpa using hi)
    · simpa [Function.update_of_ne hd] using hi

lemma held_quiet (hw : Held w) (hsame : SameTasks w w') (hq : w'.queue = w.queue) : Held w' := by
  have hholds : ∀ i h, w'.Holds i h → w.Holds i h := by
    intro i h hi
    cases h <;> simpa only [Holds, hsame.listeners, hq] using hi
  refine hw.pass hsame.tasks (fun i h hi => ⟨h, hholds i h hi⟩) ?_ ?_ ?_ ?_
  · intro i h h' hi hi'
    exact hw.unique i h h' (hholds i h hi) (hholds i h' hi')
  · rw [hq]
    exact hw.nodup
  · intro i key hi
    rwa [hsame.listeners] at hi
  · intro i c hi
    rwa [hq] at hi

lemma Held.values_nodup (hw : Held w) {order : List (String × ℕ)}
    (ho : w.listeners.Enumerates order) : (order.map Prod.snd).Nodup := by
  refine List.Nodup.map_on ?_ ho.nodup.of_map
  rintro ⟨k, i⟩ hk ⟨k', i'⟩ hk' rfl
  have he := hw.unique i (.recorded k) (.recorded k') ((ho.mem_iff _ _).mp hk)
    ((ho.mem_iff _ _).mp hk')
  cases he
  rfl

lemma held_step (hw : Held w) (hs : Step w a w') : Held w' := by
  cases step_moved hs with
  | quiet _ hsame hq => exact held_quiet hw hsame hq
  | spawned _ htasks hl _ _ _ hq =>
    exact held_spawned hw rfl (by constructor <;> simp [newTask]) htasks hl hq
  | @taken c i key _ hc hi hsame hq =>
    refine held_taken hw hsame.tasks (by rw [hc]) (List.nodup_singleton i) ?_ ?_ (by simp) hq
    · intro j hj
      rw [List.mem_singleton.mp hj]
      exact ⟨key, hi⟩
    · intro j key' hj
      rw [hsame.listeners] at hj
      simp only [Store.find_erase] at hj
      split at hj
      · cases hj
      · next hne =>
        refine ⟨hj, fun hmem => hne ?_⟩
        rw [List.mem_singleton.mp hmem] at hj
        have he := hw.unique i (.recorded key') (.recorded key) hj hi
        cases he
        rfl
  | @drained c order _ hc ho hsame hq =>
    refine held_taken hw hsame.tasks (by rw [hc]) (hw.values_nodup ho) ?_ ?_ (by simp) hq
    · intro j hj
      obtain ⟨⟨key, i⟩, hmem, rfl⟩ := List.mem_map.mp hj
      exact ⟨key, (ho.mem_iff _ _).mp hmem⟩
    · intro j key hj
      rw [hsame.listeners] at hj
      cases hj
  | @signalled c i todo handles handles' _ _ hc hsame hh hq =>
    refine held_signalled hw hc hsame.tasks hsame.listeners ?_ hq
    rcases hh with ⟨-, rfl⟩ | ⟨-, rfl⟩
    · simp
    · exact fun j hj => Or.inl hj
  | @aborted c i handles _ hc hsame hq =>
    obtain ⟨t, ht, hsent⟩ := hw.joining i c (by simp [hc])
    exact hw.change ht (hsame.tasks.trans (abort_tasks ht)) hsame.listeners hq rfl rfl
      ((hw.sound t (List.mem_of_getElem? ht)).abort hsent)
  | @joined c i handles t _ hc ht hf hsame hq =>
    refine held_taken hw hsame.tasks (by rw [hc]) List.nodup_nil (by simp) ?_ ?_ hq
    · intro j key hj
      rw [hsame.listeners] at hj
      exact ⟨hj, by simp⟩
    · intro j hj
      simp [hc, hj]
  | @task i t t' b _ ht hstep hsame hq =>
    exact hw.change ht hsame.tasks hsame.listeners hq hstep.stop_eq hstep.key_eq
      ((hw.sound t (List.mem_of_getElem? ht)).step hstep)

end World

end Yggstack.Mobile
