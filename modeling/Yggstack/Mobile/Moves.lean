import Yggstack.Mobile.System

namespace Yggstack.Mobile

open Library Forward

def Pc.queue : Pc → List ℕ × List ℕ
  | .signalling todo handles => (todo, handles)
  | _ => ([], [])

namespace World

/-- The tasks a call has taken out of `listeners`: those still to signal, and those to join. -/
def queue (w : World) (c : ℕ) : List ℕ × List ℕ :=
  match w.calls[c]? with
  | some call => call.pc.queue
  | none => ([], [])

def spawns (w : World) : Action → Option (ℕ × Kind × Mapping)
  | .call c .startSpawn =>
    match w.calls[c]? with
    | some ⟨.start, .spawning node ((kind, m) :: _)⟩ => some (node, kind, m)
    | _ => none
  | .call c .addLook =>
    match w.calls[c]?, w.state with
    | some ⟨.add kind _, .adding m⟩, some node => some (node, kind, m)
    | _, _ => none
  | _ => none

def Joins (w : World) (c : ℕ) : Prop :=
  ∃ call, w.calls[c]? = some call ∧ call.request.joins = true

structure SameTasks (w w' : World) : Prop where
  tasks : w'.tasks = w.tasks
  listeners : w'.listeners = w.listeners
  stats : w'.stats = w.stats
  conns : w'.conns = w.conns

inductive Moved (w : World) (a : Action) (w' : World) : Prop
  | quiet : w.spawns a = none → SameTasks w w' → w'.queue = w.queue → Moved w a w'
  | spawned {node stats : ℕ} {kind : Kind} {m : Mapping} :
      w.spawns a = some (node, kind, m) →
      w'.tasks = w.tasks ++ [newTask node kind m stats] →
      w'.listeners = w.listeners.insert (kind.key m) w.tasks.length →
      w'.stats.find (node, kind.key m) = some stats →
      (w'.stats = w.stats ∨ w.stats.find (node, kind.key m) = none ∧
        w'.stats = w.stats.insert (node, kind.key m) stats) →
      w'.conns = w.conns → w'.queue = w.queue → Moved w a w'
  | taken {c i : ℕ} {key : String} :
      w.spawns a = none → w.queue c = ([], []) → w.listeners.find key = some i →
      SameTasks { w with listeners := w.listeners.erase key } w' →
      w'.queue = Function.update w.queue c ([i], []) → Moved w a w'
  | drained {c : ℕ} {order : List (String × ℕ)} :
      w.spawns a = none → w.queue c = ([], []) → w.listeners.Enumerates order →
      SameTasks { w with listeners := .empty } w' →
      w'.queue = Function.update w.queue c (order.map Prod.snd, []) → Moved w a w'
  | signalled {c i : ℕ} {todo handles handles' : List ℕ} :
      w.spawns a = none → a = .call c .signal → w.queue c = (i :: todo, handles) →
      SameTasks (w.send i) w' → (w.Joins c ∧ handles' = handles ++ [i] ∨
        ¬w.Joins c ∧ handles' = handles) →
      w'.queue = Function.update w.queue c (todo, handles') → Moved w a w'
  | aborted {c i : ℕ} {handles : List ℕ} :
      w.spawns a = none → w.queue c = ([], i :: handles) → SameTasks (w.abort i) w' →
      w'.queue = w.queue → Moved w a w'
  | joined {c i : ℕ} {handles : List ℕ} {t : Task} :
      w.spawns a = none → w.queue c = ([], i :: handles) → w.tasks[i]? = some t → t.Finished →
      SameTasks w w' → w'.queue = Function.update w.queue c ([], handles) → Moved w a w'
  | task {i : ℕ} {t t' : Task} {b : TaskAction} :
      a = .task i b → w.tasks[i]? = some t → Task.Step t b t' →
      SameTasks (w.afterTask i t b t') w' → w'.queue = w.queue → Moved w a w'

variable {w w' w₁ : World} {a : Action} {c : ℕ} {call : Call} {pc : Pc}

lemma SameTasks.refl (w : World) : SameTasks w w := ⟨rfl, rfl, rfl, rfl⟩

lemma queue_eq (h : w.calls[c]? = some call) : w.queue c = call.pc.queue := by
  rw [queue, h]

lemma queue_goto (h : w.calls[c]? = some call) (pc : Pc) :
    (w.goto c pc).queue = Function.update w.queue c pc.queue := by
  funext d
  rw [queue, goto, List.getElem?_modify]
  by_cases hd : d = c
  · subst hd
    simp [h]
  · simp only [Function.update_of_ne hd, queue]
    cases w.calls[d]? with
    | none => rfl
    | some call => simp [Ne.symm hd]

lemma queue_quiet (h : w.calls[c]? = some call) (hq : call.pc.queue = ([], []))
    (hpc : pc.queue = ([], [])) : (w.goto c pc).queue = w.queue := by
  rw [queue_goto h, hpc, ← hq, ← queue_eq h, Function.update_eq_self]

lemma moved_quiet (h : w.calls[c]? = some call) (hq : call.pc.queue = ([], []))
    (hpc : pc.queue = ([], [])) (hs : w.spawns a = none) (hsame : SameTasks w w₁)
    (hcalls : w₁.calls = w.calls) : Moved w a (w₁.goto c pc) := by
  have hqueue : w₁.queue = w.queue := by
    funext d
    rw [queue, queue, hcalls]
  refine .quiet hs ⟨hsame.tasks, hsame.listeners, hsame.stats, hsame.conns⟩ ?_
  rw [queue_quiet (by rw [hcalls]; exact h) hq hpc, hqueue]

lemma moved_spawn {node : ℕ} {kind : Kind} {m : Mapping} (h : w.calls[c]? = some call)
    (hq : call.pc.queue = ([], [])) (hpc : pc.queue = ([], []))
    (hs : w.spawns a = some (node, kind, m)) :
    Moved w a ((w.spawnListener node kind m).goto c pc) := by
  have hcalls : (w.spawnListener node kind m).calls = w.calls := by
    obtain ⟨e, stats, entries, he⟩ := w.spawnListener_eq node kind m
    rw [he]
  have hqueue : (w.spawnListener node kind m).queue = w.queue := by
    funext d
    rw [queue, queue, hcalls]
  have hmoved : ((w.spawnListener node kind m).goto c pc).queue = w.queue := by
    rw [queue_quiet (by rw [hcalls]; exact h) hq hpc, hqueue]
  rcases he : w.stats.find (node, kind.key m) with _ | e
  · have htasks : ((w.spawnListener node kind m).goto c pc).tasks =
        w.tasks ++ [newTask node kind m w.entries] := by
      simp [spawnListener, register, he, goto]
    refine .spawned hs htasks ?_ ?_ (Or.inr ⟨he, ?_⟩) ?_ hmoved <;>
      simp [spawnListener, register, he, goto]
  · have htasks : ((w.spawnListener node kind m).goto c pc).tasks =
        w.tasks ++ [newTask node kind m e] := by
      simp [spawnListener, register, he, goto]
    refine .spawned hs htasks ?_ ?_ (Or.inl ?_) ?_ hmoved <;>
      simp [spawnListener, register, he, goto]

lemma step_moved (hs : Step w a w') : Moved w a w' := by
  cases hs with
  | begin request =>
    refine .quiet rfl ⟨rfl, rfl, rfl, rfl⟩ ?_
    funext d
    rw [queue, queue]
    by_cases hd : d < w.calls.length
    · rw [List.getElem?_append_left hd]
    · rw [List.getElem?_append_right (Nat.le_of_not_lt hd),
        List.getElem?_eq_none (Nat.le_of_not_lt hd)]
      cases d - w.calls.length with
      | zero => cases request <;> rfl
      | succ n => rfl
  | @loadConfig c parsed h =>
    cases parsed with
    | ok cfg => exact moved_quiet h rfl rfl rfl ⟨rfl, rfl, rfl, rfl⟩ rfl
    | error e => exact moved_quiet h rfl rfl rfl (.refl _) rfl
  | startCheck h =>
    rw [startCheck]
    split <;> exact moved_quiet h rfl rfl rfl (.refl _) rfl
  | startConfig h =>
    rw [startConfig]
    split
    · exact moved_quiet h rfl rfl rfl (.refl _) rfl
    · split <;> exact moved_quiet h rfl rfl rfl (.refl _) rfl
  | startCopy h => exact moved_quiet h rfl rfl rfl (.refl _) rfl
  | startBuild h hl => exact moved_quiet h rfl rfl rfl ⟨rfl, rfl, rfl, rfl⟩ rfl
  | startSpawn h => exact moved_spawn h rfl rfl (by simp only [spawns, h])
  | startBuilt h => exact moved_quiet h rfl rfl rfl ⟨rfl, rfl, rfl, rfl⟩ rfl
  | startPublish h => exact moved_quiet h rfl rfl rfl ⟨rfl, rfl, rfl, rfl⟩ rfl
  | stopTake h =>
    rw [stopTake]
    split
    · exact moved_quiet h rfl rfl rfl ⟨rfl, rfl, rfl, rfl⟩ rfl
    · exact moved_quiet h rfl rfl rfl (.refl _) rfl
  | stopTeardown h =>
    rw [stopTeardown]
    split <;> exact moved_quiet h rfl rfl rfl ⟨rfl, rfl, rfl, rfl⟩ rfl
  | addPush h =>
    rw [addPush]
    split
    · exact moved_quiet h rfl rfl rfl (.refl _) rfl
    · exact moved_quiet h rfl rfl rfl ⟨rfl, rfl, rfl, rfl⟩ rfl
  | addLook h hl =>
    rw [addLook]
    split
    · next node hn => exact moved_spawn h rfl rfl (by simp only [spawns, h, hn])
    · next hn => exact moved_quiet h rfl rfl (by simp only [spawns, h, hn]) (.refl _) rfl
  | removeRetain h =>
    rw [removeRetain]
    split
    · exact moved_quiet h rfl rfl rfl (.refl _) rfl
    · exact moved_quiet h rfl rfl rfl ⟨rfl, rfl, rfl, rfl⟩ rfl
  | removeTake h hl =>
    rw [removeTake]
    split
    · next i hi =>
      exact .taken rfl (queue_eq h) hi ⟨rfl, rfl, rfl, rfl⟩ (queue_goto (by exact h) _)
    · exact moved_quiet h rfl rfl rfl (.refl _) rfl
  | clearList h =>
    rw [clearList]
    refine moved_quiet h rfl ?_ rfl ⟨rfl, rfl, rfl, rfl⟩ rfl
    split <;> rfl
  | drain h hl ho =>
    exact .drained rfl (queue_eq h) ho ⟨rfl, rfl, rfl, rfl⟩ (queue_goto (by exact h) _)
  | @signal c i request todo handles h =>
    refine .signalled rfl rfl (queue_eq h) ⟨rfl, rfl, rfl, rfl⟩ ?_ (queue_goto (by exact h) _)
    by_cases hj : request.joins = true
    · exact Or.inl ⟨⟨_, h, hj⟩, by simp [hj]⟩
    · refine Or.inr ⟨?_, by simp [hj]⟩
      rintro ⟨call, hc, hj'⟩
      rw [h] at hc
      cases hc
      exact hj hj'
  | abort h => exact .aborted rfl (queue_eq h) (.refl _) rfl
  | join h ht hf => exact .joined rfl (queue_eq h) ht hf ⟨rfl, rfl, rfl, rfl⟩ (queue_goto h _)
  | signalled h => exact moved_quiet h rfl rfl rfl ⟨rfl, rfl, rfl, rfl⟩ rfl
  | task ht hs => exact .task rfl ht hs (.refl _) rfl

end World

end Yggstack.Mobile
