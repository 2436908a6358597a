import Yggstack.Mobile.Additions
import Yggstack.Mobile.Recorded
import Yggstack.Mobile.Registry
import Yggstack.Mobile.Signals

namespace Yggstack.Forward

open Library

inductive Task.Turned (t : Task) : Task → Prop
  | same : t.Turned t
  | sent : t.Turned { t with stop := t.stop.send }
  | aborting : t.Turned { t with aborting := true }
  | step {a : TaskAction} {t' : Task} : Task.Step t a t' → t.Turned t'

structure Task.Serves (t : Task) (entry : ℕ) : Prop where
  tcp : t.kind.isUdp = false
  stats : t.stats = entry
  phase : (∃ r, t.phase = .serving r) ∨ t.Finished ∧ 0 < t.stop.sent

namespace Task

variable {t t' : Task} {entry : ℕ}

lemma Turned.sent_le (h : t.Turned t') : t.stop.sent ≤ t'.stop.sent := by
  cases h with
  | same | aborting => exact le_rfl
  | sent => exact Nat.le_succ _
  | step hs => rw [hs.stop_eq]

lemma Turned.finished (h : t.Turned t') (hf : t.Finished) : t'.Finished := by
  cases h with
  | same | sent | aborting => exact hf
  | step hs => exact hs.finished hf

lemma Step.serves {a : TaskAction} (h : Task.Step t a t') (hsound : t.Sound)
    (hserves : t.Serves entry) : t'.Serves entry := by
  obtain ⟨htcp, rfl, hphase⟩ := hserves
  have hstats : t'.stats = t.stats := h.stats_eq.1
  refine ⟨by cases h <;> exact htcp, hstats, ?_⟩
  cases h with
  | accept | timerSubscribe | timerStopped => exact hphase
  | stopped hp hr =>
    have hafter : t.afterStop = .exited := by rw [afterStop, htcp]; rfl
    exact .inr ⟨.inl hafter, Nat.zero_lt_of_lt hr⟩
  | cancelled ha => exact .inr ⟨.inr rfl, hsound.aborting ha⟩
  | bound hp | bindFailed hp | spawnTimer hp | subscribe hp | drained hp =>
    rcases hphase with ⟨r, hr⟩ | ⟨hf | hf, -⟩ <;> simp_all

lemma Turned.serves (h : t.Turned t') (hsound : t.Sound) (hserves : t.Serves entry) :
    t'.Serves entry := by
  cases h with
  | same => exact hserves
  | sent =>
    exact ⟨hserves.tcp, hserves.stats, hserves.phase.imp_right fun hf => ⟨hf.1, Nat.succ_pos _⟩⟩
  | aborting => exact ⟨hserves.tcp, hserves.stats, hserves.phase⟩
  | step hs => exact hs.serves hsound hserves

end Task

end Yggstack.Forward

namespace Yggstack.Mobile

open Library Forward

-- No stop cuts a dial short. A `queued` one lost the poll loop and is left to `shutdown`, which
-- clears the queue; a `waiting` one came to the queue after that, and is never answered.
inductive Conn.Phase where
  | spawned
  | dialing
  | queued
  | waiting
  | relaying
  | ended
  deriving DecidableEq

structure Conn where
  listener : ℕ
  entry : ℕ
  stop : Receiver
  phase : Conn.Phase

inductive ConnAction where
  | polled
  | polledLate
  | left
  | refused
  | dialed
  | stopped
  | copied
  deriving DecidableEq

def Conn.Phase.next? : Conn.Phase → ConnAction → Option Conn.Phase
  | .spawned, .polled => some .dialing
  | .spawned, .polledLate => some .waiting
  | .dialing, .left => some .queued
  | .dialing, .refused | .queued, .refused => some .ended
  | .dialing, .dialed => some .relaying
  | .relaying, .stopped | .relaying, .copied => some .ended
  | _, _ => none

def Conn.Phase.guarded : Conn.Phase → Bool
  | .dialing | .queued | .waiting | .relaying => true
  | .spawned | .ended => false

def Conn.Phase.remaining : Conn.Phase → ℕ
  | .spawned => 3
  | .dialing => 2
  | .queued | .relaying => 1
  | .waiting | .ended => 0

structure Gauge where
  active : Int64
  total : UInt64

namespace Gauge

def zero : Gauge := ⟨0, 0⟩

variable (g : Gauge)

def connOpened : Gauge := ⟨g.active + 1, g.total + 1⟩

def connClosed : Gauge := if 0 < g.active then { g with active := g.active - 1 } else g

def pass (before after : Bool) : Gauge :=
  if before = after then g
  else if after then g.connOpened
  else g.connClosed

def turn (before after : Conn.Phase) : Gauge := g.pass before.guarded after.guarded

end Gauge

structure Engine where
  world : World
  conns : List Conn
  gauges : ℕ → Gauge

inductive Engine.Event where
  | world (a : Action)
  | conn (k : ℕ) (a : ConnAction)

-- The poll loop ends by itself once the core is closed.
def NodeStatus.unplugged : NodeStatus → Bool
  | .closing .core | .closing .signal | .closing .socks | .closing .http => true
  | .closing .netstack => true
  | _ => false

def NodeStatus.shut : NodeStatus → Bool
  | .closed => true
  | _ => false

def NodeStatus.shutting : NodeStatus → Bool
  | .closing .netstack | .closed => true
  | _ => false

namespace World

variable (w : World) (i : ℕ)

-- The sender of a listener stays alive in `listeners` and in a call that has not signalled it yet;
-- a removal keeps it until it has joined the task.
def SenderKept : Prop :=
  (∃ h, w.Holds i h) ∨ ∃ (c : ℕ) (kind : Kind) (spec : String) (todo handles : List ℕ),
    w.calls[c]? = some ⟨.remove kind spec, .signalling todo handles⟩ ∧ i ∈ handles

def Hears (r : Receiver) : Prop :=
  ∃ t, w.tasks[i]? = some t ∧ (r.Pending t.stop ∨ t.Finished ∧ ¬w.SenderKept i)

def DialsInto (status : NodeStatus → Bool) : Prop :=
  ∃ t n, w.tasks[i]? = some t ∧ t.kind = .localTcp ∧ w.nodes[t.node]? = some n ∧ status n = true

-- While the netstack is being shut down its poll loop may still take a dial, or not.
def Allows (c : Conn) : ConnAction → Prop
  | .polled => ¬w.DialsInto c.listener NodeStatus.shut
  | .polledLate => w.DialsInto c.listener NodeStatus.shutting
  | .left => w.DialsInto c.listener NodeStatus.unplugged
  | .refused => c.phase = .queued → w.DialsInto c.listener NodeStatus.shutting
  | .stopped => w.Hears c.listener c.stop
  | .dialed | .copied => True

end World

namespace Engine

variable (s : Engine)

def start : Engine := ⟨World.initial, [], fun _ => .zero⟩

def accepted : Action → List Conn
  | .task i .accept =>
    match s.world.tasks[i]? with
    | some t => if t.kind.isUdp then [] else [⟨i, t.stats, t.stop.subscribe, .spawned⟩]
    | none => []
  | _ => []

def turn (k : ℕ) (c : Conn) (p : Conn.Phase) : Engine :=
  { s with
    conns := s.conns.set k { c with phase := p }
    gauges := Function.update s.gauges c.entry ((s.gauges c.entry).turn c.phase p) }

inductive Step : Engine → Event → Engine → Prop
  | world {s : Engine} {a : Action} {w : World} : World.Step s.world a w →
      Step s (.world a) { s with world := w, conns := s.conns ++ s.accepted a }
  | conn {s : Engine} {k : ℕ} {a : ConnAction} {c : Conn} {p : Conn.Phase} :
      s.conns[k]? = some c → c.phase.next? a = some p → s.world.Allows c a →
      Step s (.conn k a) (s.turn k c p)

def Reachable : Prop := ∃ events, Run Step start events s

end Engine

namespace World

variable {w w' : World} {a : Action} {i : ℕ} {t : Task}

lemma task_turned (hw : Held w) (hs : Step w a w') (ht : w.tasks[i]? = some t) :
    ∃ t', w'.tasks[i]? = some t' ∧ t.Turned t' := by
  have changed {j : ℕ} {u u' : Task} (hu : w.tasks[j]? = some u) (hturned : u.Turned u')
      (htasks : w'.tasks = w.tasks.set j u') : ∃ t', w'.tasks[i]? = some t' ∧ t.Turned t' := by
    rw [htasks]
    by_cases hj : j = i
    · subst hj
      rw [ht] at hu
      cases hu
      exact ⟨u', getElem?_change_self ht, hturned⟩
    · exact ⟨t, by rw [List.getElem?_set_ne hj, ht], .same⟩
  cases step_moved hs with
  | quiet _ hsame | taken _ _ _ hsame | drained _ _ _ hsame | joined _ _ _ _ hsame =>
    exact ⟨t, by rw [hsame.tasks]; exact ht, .same⟩
  | spawned _ htasks => exact ⟨t, by rw [htasks]; exact getElem?_snoc_of_some ht, .same⟩
  | @signalled c j todo handles _ _ _ hc hsame =>
    obtain ⟨u, hu, -⟩ := hw.unsent j (.call c) (by simp [Holds, hc])
    exact changed hu .sent (hsame.tasks.trans (send_tasks hu))
  | @aborted c j handles _ hc hsame =>
    obtain ⟨u, hu, -⟩ := hw.joining j c (by simp [hc])
    exact changed hu .aborting (hsame.tasks.trans (abort_tasks hu))
  | task _ hu hstep hsame => exact changed hu (.step hstep) hsame.tasks

lemma Gone.not_kept (h : w.Gone i) : ¬w.SenderKept i := by
  rintro (⟨x, hx⟩ | ⟨c, kind, spec, todo, handles, hc, hmem⟩)
  · cases x with
    | recorded key => exact h.1 key hx
    | call c => exact (h.2 c).1 hx
  · apply (h.2 c).2
    rw [queue_eq hc]
    exact hmem

lemma Gone.update {c : ℕ} {todo handles : List ℕ} (h : w.Gone i)
    (hl : ∀ key, w'.listeners.find key ≠ some i) (htodo : i ∉ todo) (hhandles : i ∉ handles)
    (hq : w'.queue = Function.update w.queue c (todo, handles)) : w'.Gone i := by
  refine ⟨hl, fun d => ?_⟩
  rw [hq]
  by_cases hd : d = c
  · subst hd
    rw [Function.update_self]
    exact ⟨htodo, hhandles⟩
  · rw [Function.update_of_ne hd]
    exact h.2 d

lemma Gone.step (h : w.Gone i) (hi : i < w.tasks.length) (hs : Step w a w') : w'.Gone i := by
  have same (hl : w'.listeners = w.listeners) (hq : w'.queue = w.queue) : w'.Gone i := by
    refine ⟨?_, ?_⟩
    · rw [hl]
      exact h.1
    · rw [hq]
      exact h.2
  cases step_moved hs with
  | quiet _ hsame hq => exact same hsame.listeners hq
  | spawned _ _ hl _ _ _ hq =>
    refine ⟨fun key hkey => ?_, ?_⟩
    · rw [hl] at hkey
      obtain ⟨-, he⟩ | ⟨-, hkey⟩ := Store.find_insert_cases hkey
      · omega
      · exact h.1 key hkey
    · rw [hq]
      exact h.2
  | @taken c j key _ _ hj hsame hq =>
    have hne : i ≠ j := fun he => h.1 key (he ▸ hj)
    refine h.update (fun key' hkey => ?_) (by simpa using hne) List.not_mem_nil hq
    rw [hsame.listeners, Store.find_erase] at hkey
    split at hkey
    · cases hkey
    · exact h.1 key' hkey
  | @drained c order _ _ ho hsame hq =>
    refine h.update (fun key hkey => ?_) (fun hmem => ?_) List.not_mem_nil hq
    · rw [hsame.listeners] at hkey
      cases hkey
    · obtain ⟨⟨key, j⟩, hentry, rfl⟩ := List.mem_map.mp hmem
      exact h.1 key ((ho.mem_iff key j).mp hentry)
  | @signalled c j todo handles handles' _ _ hc hsame hh hq =>
    obtain ⟨hfirst, hsecond⟩ := h.2 c
    rw [hc] at hfirst hsecond
    rw [List.mem_cons, not_or] at hfirst
    refine h.update (by rw [hsame.listeners]; exact h.1) hfirst.2 ?_ hq
    rcases hh with ⟨-, rfl⟩ | ⟨-, rfl⟩
    · rw [List.mem_append, List.mem_singleton]
      exact not_or.mpr ⟨hsecond, hfirst.1⟩
    · exact hsecond
  | aborted _ _ hsame hq => exact same hsame.listeners hq
  | @joined c j handles t _ hc _ _ hsame hq =>
    have hsecond := (h.2 c).2
    rw [hc] at hsecond
    exact h.update (by rw [hsame.listeners]; exact h.1) List.not_mem_nil
      (fun hmem => hsecond (List.mem_cons_of_mem _ hmem)) hq
  | task _ _ _ hsame hq => exact same hsame.listeners hq

end World

namespace Conn

def counts (e : ℕ) (c : Conn) : Bool := decide (c.entry = e) && c.phase.guarded

def begun (e : ℕ) (c : Conn) : Bool := decide (c.entry = e) && decide (c.phase ≠ .spawned)

structure Sound (w : World) (c : Conn) (t : Task) : Prop where
  task : w.tasks[c.listener]? = some t
  serves : t.Serves c.entry
  position : c.stop.position ≤ t.stop.sent

lemma Sound.step {w w' : World} {a : Action} {c : Conn} {t : Task} (hw : World.Held w)
    (h : c.Sound w t) (hs : World.Step w a w') : ∃ t', c.Sound w' t' := by
  obtain ⟨t', ht', hturned⟩ := World.task_turned hw hs h.task
  have hsound := hw.sound t (List.mem_of_getElem? h.task)
  exact ⟨t', ht', hturned.serves hsound h.serves, h.position.trans hturned.sent_le⟩

lemma Phase.remaining_lt {p q : Phase} {a : ConnAction} (h : p.next? a = some q) :
    q.remaining < p.remaining := by
  cases p <;> cases a <;> cases h <;> decide

end Conn

namespace Gauge

variable {g : Gauge} {p q : Conn.Phase} {a : ConnAction}

lemma toInt_connOpened (h : 0 ≤ g.active.toInt) (hmax : g.active.toInt + 1 < 2 ^ 63) :
    g.connOpened.active.toInt = g.active.toInt + 1 := by
  rw [connOpened, Int64.toInt_add, Int64.toInt_one]
  exact Int.bmod_eq_of_le (by omega) (by omega)

lemma toInt_connClosed (h : 0 < g.active.toInt) :
    g.connClosed.active.toInt = g.active.toInt - 1 := by
  have hpos : 0 < g.active := by rwa [Int64.lt_iff_toInt_lt, Int64.toInt_zero]
  have hmax := g.active.toInt_lt
  rw [connClosed, if_pos hpos, Int64.toInt_sub, Int64.toInt_one]
  exact Int.bmod_eq_of_le (by omega) (by omega)

lemma pass_active {before after : Bool} (h : before.toNat ≤ g.active.toInt)
    (hmax : g.active.toInt + after.toNat < 2 ^ 63 + before.toNat) :
    (g.pass before after).active.toInt + before.toNat = g.active.toInt + after.toNat := by
  cases before with
  | false =>
    cases after with
    | false => rfl
    | true =>
      have hopened := toInt_connOpened h (by simpa using hmax)
      simpa [pass] using hopened
  | true =>
    cases after with
    | false =>
      have hclosed := toInt_connClosed (Int.lt_of_lt_of_le Int.zero_lt_one h)
      simp only [pass, Bool.toNat_true, Bool.toNat_false]
      rw [if_neg (by decide), if_neg (by decide), hclosed]
      push_cast
      ring
    | true => rfl

/-- A gauge that has counted the holders of guards so far goes on to, if one of them changes. -/
lemma pass_counts {α : Type} {xs : List α} {k : ℕ} {x y : α} {count : α → Bool}
    (hx : xs[k]? = some x) (hlen : xs.length < 2 ^ 63)
    (hg : g.active.toInt = xs.countP count) :
    (g.pass (count x) (count y)).active.toInt = (xs.set k y).countP count := by
  have hchange := countP_change (p := count) (y := y) hx
  have hmem : (count x).toNat ≤ xs.countP count := by
    cases hc : count x with
    | false => exact Nat.zero_le _
    | true => exact List.countP_pos_iff.mpr ⟨x, List.mem_of_getElem? hx, hc⟩
  have hle : (xs.set k y).countP count < 2 ^ 63 := by
    refine List.countP_le_length.trans_lt ?_
    rwa [List.length_set]
  have hpass := @pass_active g (count x) (count y) (by omega) (by omega)
  omega

lemma turn_total (h : p.next? a = some q) :
    (g.turn p q).total + UInt64.ofNat (decide (p ≠ .spawned)).toNat =
      g.total + UInt64.ofNat (decide (q ≠ .spawned)).toNat := by
  cases p <;> cases a <;> cases h <;>
    simp [turn, pass, Conn.Phase.guarded, connOpened, connClosed]
  all_goals split <;> rfl

end Gauge

namespace Engine

variable {s s' : Engine} {x : Event} {events : List Event}

structure Inv (s : Engine) : Prop where
  held : World.Held s.world
  conns : ∀ c ∈ s.conns, ∃ t, c.Sound s.world t
  active : s.conns.length < 2 ^ 63 → ∀ e, (s.gauges e).active.toInt = s.conns.countP (Conn.counts e)
  total : ∀ e, (s.gauges e).total = UInt64.ofNat (s.conns.countP (Conn.begun e))

lemma inv_start : start.Inv where
  held := World.held_initial
  conns _ hc := absurd hc List.not_mem_nil
  active _ _ := rfl
  total _ := rfl

lemma mem_accepted {a : Action} {c : Conn} {w : World} (hc : c ∈ s.accepted a)
    (hs : World.Step s.world a w) :
    c.phase = .spawned ∧ ∃ t, c.Sound s.world t ∧ a = .task c.listener .accept := by
  cases hs with
  | @task i t t' b ht hstep =>
    cases hstep with
    | accept hp =>
      rw [accepted, ht] at hc
      simp only at hc
      split at hc
      · cases hc
      · next htcp =>
        rw [List.mem_singleton] at hc
        subst hc
        exact ⟨rfl, t, ⟨ht, ⟨Bool.eq_false_iff.mpr htcp, rfl, .inl ⟨_, hp⟩⟩, le_rfl⟩, rfl⟩
    | _ => cases hc
  | _ => cases hc

lemma inv_world {a : Action} {w : World} (hi : s.Inv) (hs : World.Step s.world a w) :
    ({ s with world := w, conns := s.conns ++ s.accepted a } : Engine).Inv where
  held := World.held_step hi.held hs
  conns c hc := by
    rcases List.mem_append.mp hc with hc | hc
    · obtain ⟨t, ht⟩ := hi.conns c hc
      exact ht.step hi.held hs
    · obtain ⟨-, t, ht, -⟩ := mem_accepted hc hs
      exact ht.step hi.held hs
  active hlen e := by
    have hnone : (s.accepted a).countP (Conn.counts e) = 0 := by
      rw [List.countP_eq_zero]
      intro c hc
      simp [Conn.counts, (mem_accepted hc hs).1, Conn.Phase.guarded]
    rw [List.countP_append, hnone]
    refine hi.active (lt_of_le_of_lt ?_ hlen) e
    rw [List.length_append]
    exact Nat.le_add_right _ _
  total e := by
    have hnone : (s.accepted a).countP (Conn.begun e) = 0 := by
      rw [List.countP_eq_zero]
      intro c hc
      simp [Conn.begun, (mem_accepted hc hs).1]
    rw [List.countP_append, hnone]
    exact hi.total e

lemma turn_gauges {k : ℕ} {c : Conn} {p : Conn.Phase} : (s.turn k c p).gauges =
    Function.update s.gauges c.entry ((s.gauges c.entry).turn c.phase p) := rfl

lemma turn_conns {k : ℕ} {c : Conn} {p : Conn.Phase} :
    (s.turn k c p).conns = s.conns.set k { c with phase := p } := rfl

lemma inv_turn {k : ℕ} {c : Conn} {a : ConnAction} {p : Conn.Phase} (hi : s.Inv)
    (hc : s.conns[k]? = some c) (hp : c.phase.next? a = some p) : (s.turn k c p).Inv where
  held := hi.held
  conns d hd := by
    rcases List.mem_or_eq_of_mem_set hd with hd | rfl
    · exact hi.conns d hd
    · obtain ⟨t, ht⟩ := hi.conns c (List.mem_of_getElem? hc)
      exact ⟨t, ht.task, ht.serves, ht.position⟩
  active hlen e := by
    rw [turn_conns, List.length_set] at hlen
    rw [turn_gauges, turn_conns]
    by_cases he : c.entry = e
    · subst he
      have hactive := hi.active hlen c.entry
      have hcounts := Gauge.pass_counts (y := { c with phase := p }) hc hlen hactive
      rw [Function.update_self, Gauge.turn, ← hcounts]
      simp only [Conn.counts, decide_true, Bool.true_and]
    · have hsame : Conn.counts e { c with phase := p } = Conn.counts e c := by
        simp [Conn.counts, he]
      rw [Function.update_of_ne (Ne.symm he), hi.active hlen, countP_set_same hc hsame]
  total e := by
    rw [turn_gauges, turn_conns]
    by_cases he : c.entry = e
    · subst he
      have hchange := countP_change (p := Conn.begun c.entry) (y := { c with phase := p }) hc
      have hturn := Gauge.turn_total (g := s.gauges c.entry) hp
      simp only [Conn.begun, decide_true, Bool.true_and] at hchange
      rw [hi.total, ← UInt64.ofNat_add, ← hchange, UInt64.ofNat_add] at hturn
      rw [Function.update_self]
      exact (UInt64.add_left_inj _).mp hturn
    · have hsame : Conn.begun e { c with phase := p } = Conn.begun e c := by
        simp [Conn.begun, he]
      rw [Function.update_of_ne (Ne.symm he), hi.total, countP_set_same hc hsame]

lemma inv_step (hi : s.Inv) (hs : Step s x s') : s'.Inv := by
  cases hs with
  | world hw => exact inv_world hi hw
  | conn hc hp => exact inv_turn hi hc hp

lemma Reachable.inv (h : s.Reachable) : s.Inv := by
  obtain ⟨events, hrun⟩ := h
  exact hrun.invariant inv_start fun _ _ _ => inv_step

/-- Whatever the calls, the listeners and the connections do: the gauge of an entry is the number of
its connections that hold a guard, so that no close is ever clamped, and the total is the number of
those that ever had one. -/
theorem gauges_count_connections (h : s.Reachable) (e : ℕ) :
    (s.conns.length < 2 ^ 63 → (s.gauges e).active.toInt = s.conns.countP (Conn.counts e)) ∧
      (s.gauges e).total = UInt64.ofNat (s.conns.countP (Conn.begun e)) :=
  ⟨fun hlen => h.inv.active hlen e, h.inv.total e⟩

def Signalled (i : ℕ) (events : List Event) : Prop :=
  ∃ before after u c todo handles, events = before ++ .world (.call c .signal) :: after ∧
    Run Step start before u ∧ u.world.queue c = (i :: todo, handles)

lemma Signalled.more {i : ℕ} (h : Signalled i events) (x : Event) :
    Signalled i (events ++ [x]) := by
  obtain ⟨before, after, u, c, todo, handles, rfl, hrun, hq⟩ := h
  exact ⟨before, after ++ [x], u, c, todo, handles, by simp, hrun, hq⟩

lemma sent_step {i : ℕ} {t' : Task} (hi : s.Inv) (hs : Step s x s')
    (ht' : s'.world.tasks[i]? = some t') (hsent : 0 < t'.stop.sent) :
    (∃ t, s.world.tasks[i]? = some t ∧ 0 < t.stop.sent) ∨
      ∃ c todo handles, x = .world (.call c .signal) ∧ s.world.queue c = (i :: todo, handles) := by
  cases hs with
  | conn => exact .inl ⟨t', ht', hsent⟩
  | @world a w hw =>
    cases World.step_moved hw with
    | quiet _ hsame | taken _ _ _ hsame | drained _ _ _ hsame | joined _ _ _ _ hsame =>
      exact .inl ⟨t', by rw [← ht']; exact congrArg (·[i]?) hsame.tasks.symm, hsent⟩
    | spawned _ htasks =>
      change w.tasks[i]? = some t' at ht'
      rw [htasks] at ht'
      rcases getElem?_snoc ht' with ht' | ⟨-, rfl⟩
      · exact .inl ⟨t', ht', hsent⟩
      · cases hsent
    | @signalled c j todo handles _ _ ha hc hsame =>
      subst ha
      obtain ⟨u, hu, -⟩ := hi.held.unsent j (.call c) (by simp [World.Holds, hc])
      have htasks := hsame.tasks.trans (World.send_tasks hu)
      rw [htasks] at ht'
      rcases getElem?_change ht' with ⟨rfl, -⟩ | ⟨-, ht'⟩
      · exact .inr ⟨c, todo, handles, rfl, hc⟩
      · exact .inl ⟨t', ht', hsent⟩
    | @aborted c j handles _ hc hsame =>
      obtain ⟨u, hu, -⟩ := hi.held.joining j c (by simp [hc])
      have htasks := hsame.tasks.trans (World.abort_tasks hu)
      rw [htasks] at ht'
      rcases getElem?_change ht' with ⟨rfl, rfl⟩ | ⟨-, ht'⟩
      · exact .inl ⟨u, hu, hsent⟩
      · exact .inl ⟨t', ht', hsent⟩
    | @task j u u' b _ hu hstep hsame =>
      have htasks : w.tasks = s.world.tasks.set j u' := hsame.tasks
      rw [htasks] at ht'
      rcases getElem?_change ht' with ⟨rfl, rfl⟩ | ⟨-, ht'⟩
      · rw [hstep.stop_eq] at hsent
        exact .inl ⟨u, hu, hsent⟩
      · exact .inl ⟨t', ht', hsent⟩

lemma signalled_of_sent {i : ℕ} {t : Task} (hrun : Run Step start events s)
    (ht : s.world.tasks[i]? = some t) (hsent : 0 < t.stop.sent) : Signalled i events := by
  have hall : s.Inv ∧ Run Step start events s ∧ ∀ i t, s.world.tasks[i]? = some t →
      0 < t.stop.sent → Signalled i events := by
    refine hrun.history (H := fun events s => s.Inv ∧ Run Step start events s ∧
      ∀ i t, s.world.tasks[i]? = some t → 0 < t.stop.sent → Signalled i events) ?_ ?_
    · exact ⟨inv_start, .nil _, fun i t ht => by cases ht⟩
    · rintro bs u x v ⟨hi, hu, ih⟩ hs
      refine ⟨inv_step hi hs, hu.append (.single hs), fun i t ht hsent => ?_⟩
      rcases sent_step hi hs ht hsent with ⟨t₀, ht₀, hsent₀⟩ | ⟨c, todo, handles, rfl, hq⟩
      · exact (ih i t₀ ht₀ hsent₀).more x
      · exact ⟨bs, [], u, c, todo, handles, by simp, hu, hq⟩
  exact hall.2.2 i t ht hsent

/-- A listener never cuts a relay on its own: a connection that ends on a stop has one, or the news
that its listener is gone, only after a call has signalled the listener. -/
theorem relay_cut_after_signal {k : ℕ} (hrun : Run Step start events s)
    (hs : Step s (.conn k .stopped) s') :
    ∃ c, s.conns[k]? = some c ∧ c.phase = .relaying ∧ Signalled c.listener events := by
  have hi : s.Inv := Reachable.inv ⟨events, hrun⟩
  cases hs with
  | @conn _ _ c p hc hp hears =>
    obtain ⟨t, ht, hheard⟩ := hears
    obtain ⟨t', hsound⟩ := hi.conns c (List.mem_of_getElem? hc)
    obtain rfl : t = t' := Option.some.inj (ht.symm.trans hsound.task)
    have hphase : c.phase = .relaying := by
      cases hphase : c.phase <;> rw [hphase] at hp <;> first | rfl | cases hp
    refine ⟨c, hc, hphase, signalled_of_sent hrun ht ?_⟩
    rcases hheard with hpending | ⟨hf, -⟩
    · exact Nat.zero_lt_of_lt hpending
    · rcases hsound.serves.phase with ⟨r, hr⟩ | ⟨-, hsent⟩
      · rcases hf with hf | hf <;> rw [hr] at hf <;> cases hf
      · exact hsent

def remaining (s : Engine) (i : ℕ) : ℕ :=
  (s.conns.map fun c => if c.listener = i then c.phase.remaining else 0).sum

def concerns (s : Engine) (i : ℕ) : Event → Bool
  | .world _ => false
  | .conn k _ => (s.conns[k]?).any fun c => decide (c.listener = i)

structure Over (s : Engine) (i : ℕ) (u : Engine) : Prop where
  inv : u.Inv
  task : ∃ t, u.world.tasks[i]? = some t ∧ t.Finished
  gone : u.world.Gone i
  old : ∀ (k : ℕ) (c : Conn), u.conns[k]? = some c → c.listener = i →
    ∃ c₀ : Conn, s.conns[k]? = some c₀ ∧ c₀.listener = i
  same : ∀ (k : ℕ) (c₀ : Conn), s.conns[k]? = some c₀ →
    ∃ c : Conn, u.conns[k]? = some c ∧ c.listener = c₀.listener

lemma Over.accepted_ne {i : ℕ} {u : Engine} {a : Action} {w : World} (h : Over s i u)
    (hw : World.Step u.world a w) : ∀ c ∈ u.accepted a, c.listener ≠ i := by
  rintro c hc rfl
  obtain ⟨t, ht, hf⟩ := h.task
  obtain ⟨-, t₀, hsound, rfl⟩ := mem_accepted hc hw
  cases hw with
  | task ht₀ hstep =>
    rw [ht] at ht₀
    cases ht₀
    cases hstep with
    | accept hp => rcases hf with hf | hf <;> rw [hp] at hf <;> cases hf

lemma Over.world {i : ℕ} {u : Engine} {a : Action} {w : World} (h : Over s i u)
    (hw : World.Step u.world a w) :
    Over s i { u with world := w, conns := u.conns ++ u.accepted a } := by
  obtain ⟨t, ht, hf⟩ := h.task
  obtain ⟨t', ht', hturned⟩ := World.task_turned h.inv.held hw ht
  refine ⟨inv_world h.inv hw, ⟨t', ht', hturned.finished hf⟩,
    h.gone.step (List.getElem?_eq_some_iff.mp ht).1 hw, ?_, ?_⟩
  · intro k c hc hl
    rw [List.getElem?_append] at hc
    split at hc
    · exact h.old k c hc hl
    · exact absurd hl (h.accepted_ne hw c (List.mem_of_getElem? hc))
  · intro k c₀ hc₀
    obtain ⟨c, hc, hl⟩ := h.same k c₀ hc₀
    refine ⟨c, ?_, hl⟩
    rw [List.getElem?_append_left (List.getElem?_eq_some_iff.mp hc).1, hc]

lemma Over.remaining_world {i : ℕ} {u : Engine} {a : Action} {w : World} (h : Over s i u)
    (hw : World.Step u.world a w) :
    remaining { u with world := w, conns := u.conns ++ u.accepted a } i = u.remaining i := by
  have hzero : ((u.accepted a).map fun c =>
      if c.listener = i then c.phase.remaining else 0).sum = 0 := by
    rw [List.sum_eq_zero]
    intro n hn
    obtain ⟨c, hc, rfl⟩ := List.mem_map.mp hn
    exact if_neg (h.accepted_ne hw c hc)
  simp only [remaining, List.map_append, List.sum_append, hzero]
  rfl

lemma Over.turn {i k : ℕ} {u : Engine} {a : ConnAction} {c : Conn} {p : Conn.Phase}
    (h : Over s i u) (hc : u.conns[k]? = some c) (hp : c.phase.next? a = some p) :
    Over s i (u.turn k c p) := by
  refine ⟨inv_turn h.inv hc hp, h.task, h.gone, ?_, ?_⟩
  · intro j d hd hl
    rcases getElem?_change hd with ⟨rfl, rfl⟩ | ⟨-, hd⟩
    · exact h.old _ c hc hl
    · exact h.old j d hd hl
  · intro j c₀ hc₀
    obtain ⟨d, hd, hl⟩ := h.same j c₀ hc₀
    by_cases hj : j = k
    · subst hj
      rw [hc] at hd
      cases hd
      exact ⟨_, getElem?_change_self hc, hl⟩
    · exact ⟨d, by rw [turn_conns, List.getElem?_set_ne (Ne.symm hj), hd], hl⟩

/-- A connection of another listener was one of another listener at the start. -/
lemma Over.not_concerns {i k : ℕ} {u : Engine} {c : Conn} (h : Over s i u)
    (hc : u.conns[k]? = some c) (hl : c.listener ≠ i) (a : ConnAction) :
    s.concerns i (.conn k a) = false := by
  rw [concerns, Option.any_eq_false]
  intro c₀ hc₀
  obtain ⟨d, hd, hl₀⟩ := h.same k c₀ hc₀
  rw [hc] at hd
  cases hd
  rw [← hl₀]
  exact decide_eq_false hl

lemma Over.remaining_turn {i k : ℕ} {u : Engine} {a : ConnAction} {c : Conn} {p : Conn.Phase}
    (h : Over s i u) (hc : u.conns[k]? = some c) (hp : c.phase.next? a = some p) :
    (u.turn k c p).remaining i + (s.concerns i (.conn k a)).toNat ≤ u.remaining i := by
  have hsum := sum_map_set (y := { c with phase := p })
    (f := fun c : Conn => if c.listener = i then c.phase.remaining else 0) hc
  have hlt := Conn.Phase.remaining_lt hp
  rw [remaining, remaining, turn_conns]
  by_cases hl : c.listener = i
  · simp only [hl, if_true] at hsum ⊢
    have hle : (s.concerns i (.conn k a)).toNat ≤ 1 := Bool.toNat_le _
    omega
  · simp only [hl, if_false, Nat.add_zero] at hsum ⊢
    rw [h.not_concerns hc hl a]
    exact hsum.le

lemma Over.step {i : ℕ} {u v : Engine} (h : Over s i u) (hs : Step u x v) :
    Over s i v ∧ v.remaining i + (s.concerns i x).toNat ≤ u.remaining i := by
  cases hs with
  | world hw => exact ⟨h.world hw, (h.remaining_world hw).le⟩
  | conn hc hp => exact ⟨h.turn hc hp, h.remaining_turn hc hp⟩

lemma waiting_step {k : ℕ} {c : Conn} (hs : Step s x s') (hc : s'.conns[k]? = some c)
    (hp : c.phase = .waiting) :
    (∃ c₀, s.conns[k]? = some c₀ ∧ c₀.phase = .waiting) ∨
      ∃ c₀, s.conns[k]? = some c₀ ∧ x = .conn k .polledLate ∧
        s.world.DialsInto c₀.listener NodeStatus.shutting := by
  cases hs with
  | @world a w hw =>
    rw [List.getElem?_append] at hc
    split at hc
    · exact .inl ⟨c, hc, hp⟩
    · have hspawned := (mem_accepted (List.mem_of_getElem? hc) hw).1
      rw [hp] at hspawned
      cases hspawned
  | @conn j a d p hd hnext hallows =>
    rcases getElem?_change hc with ⟨rfl, rfl⟩ | ⟨-, hc⟩
    · obtain rfl : p = .waiting := hp
      obtain rfl : a = .polledLate := by
        cases hphase : d.phase <;> cases a <;> rw [hphase] at hnext <;> first | rfl | cases hnext
      exact .inr ⟨d, hd, rfl, hallows⟩
    · exact .inl ⟨c, hc, hp⟩

def DialedLate (k : ℕ) (events : List Event) : Prop :=
  ∃ before after u c, events = before ++ .conn k .polledLate :: after ∧ Run Step start before u ∧
    u.conns[k]? = some c ∧ u.world.DialsInto c.listener NodeStatus.shutting

lemma DialedLate.more {k : ℕ} (h : DialedLate k events) (x : Event) :
    DialedLate k (events ++ [x]) := by
  obtain ⟨before, after, u, c, rfl, hrun, hc⟩ := h
  exact ⟨before, after ++ [x], u, c, by simp, hrun, hc⟩

lemma dialedLate_of_waiting {k : ℕ} {c : Conn} (hrun : Run Step start events s)
    (hc : s.conns[k]? = some c) (hp : c.phase = .waiting) : DialedLate k events := by
  have hall : Run Step start events s ∧ ∀ k c, s.conns[k]? = some c → c.phase = .waiting →
      DialedLate k events := by
    refine hrun.history (H := fun events s => Run Step start events s ∧
      ∀ k c, s.conns[k]? = some c → c.phase = .waiting → DialedLate k events) ?_ ?_
    · exact ⟨.nil _, fun k c hc => by cases hc⟩
    · rintro bs u x v ⟨hu, ih⟩ hs
      refine ⟨hu.append (.single hs), fun k c hc hp => ?_⟩
      rcases waiting_step hs hc hp with ⟨c₀, hc₀, hp₀⟩ | ⟨c₀, hc₀, rfl, hinto⟩
      · exact (ih k c₀ hc₀ hp₀).more x
      · exact ⟨bs, [], u, c₀, rfl, hu, hc₀, hinto⟩
  exact hall.2 k c hc hp

lemma Over.moves {i k : ℕ} {c : Conn} (h : Over s i s') (hc : s'.conns[k]? = some c)
    (hl : c.listener = i) (hne : c.phase ≠ .ended) :
    (∃ a v, Step s' (.conn k a) v ∧ (c.phase = .relaying → a = .stopped)) ∨
      c.phase = .queued ∧ ¬s'.world.DialsInto i NodeStatus.shutting ∨ c.phase = .waiting := by
  obtain ⟨t, ht, hf⟩ := h.task
  have moves {a : ConnAction} {p : Conn.Phase} (hp : c.phase.next? a = some p)
      (hallows : s'.world.Allows c a) (hr : c.phase = .relaying → a = .stopped) :
      ∃ a v, Step s' (.conn k a) v ∧ (c.phase = .relaying → a = .stopped) :=
    ⟨a, _, .conn hc hp hallows, hr⟩
  cases hphase : c.phase with
  | spawned =>
    rw [hphase] at moves
    left
    by_cases hshut : s'.world.DialsInto c.listener NodeStatus.shut
    · obtain ⟨u, n, hu, hkind, hn, hstatus⟩ := hshut
      have hlate : NodeStatus.shutting n = true := by cases n <;> first | rfl | cases hstatus
      exact moves (a := .polledLate) rfl ⟨u, n, hu, hkind, hn, hlate⟩ (fun he => by cases he)
    · exact moves (a := .polled) rfl hshut (fun he => by cases he)
  | dialing =>
    have hother : c.phase = .queued → s'.world.DialsInto c.listener NodeStatus.shutting := by
      rw [hphase]
      intro he
      cases he
    rw [hphase] at moves
    exact .inl (moves (a := .refused) rfl hother (fun he => by cases he))
  | queued =>
    by_cases hshutting : s'.world.DialsInto i NodeStatus.shutting
    · rw [hphase] at moves
      rw [← hl] at hshutting
      exact .inl (moves (a := .refused) rfl (fun _ => hshutting) (fun he => by cases he))
    · exact .inr (.inl ⟨rfl, hshutting⟩)
  | waiting => exact .inr (.inr rfl)
  | relaying =>
    have hears : s'.world.Hears c.listener c.stop := by
      rw [hl]
      exact ⟨t, ht, .inr ⟨hf, h.gone.not_kept⟩⟩
    rw [hphase] at moves
    exact .inl (moves (a := .stopped) rfl hears fun _ => rfl)
  | ended => exact absurd hphase hne

/-- When a listener's task is through and nobody has its handle any more, no connection is added to
it, its connections take a bounded number of steps in all, and one that has not ended can take a
step, a relay that of hearing the stop. The dial that lost its poll loop waits for `shutdown`, and
the one that came after `shutdown` for ever. -/
theorem connections_end_with_listener {past : List Event} {i : ℕ} {t : Task}
    (hpast : Run Step start past s) (ht : s.world.tasks[i]? = some t) (hf : t.Finished)
    (hg : s.world.Gone i) (hrun : Run Step s events s') :
    (∀ (k : ℕ) (c : Conn), s'.conns[k]? = some c → c.listener = i → k < s.conns.length) ∧
    s'.remaining i + events.countP (s.concerns i) ≤ s.remaining i ∧
    ∀ (k : ℕ) (c : Conn), s'.conns[k]? = some c → c.listener = i → c.phase ≠ .ended →
      (∃ a v, Step s' (.conn k a) v ∧ (c.phase = .relaying → a = .stopped)) ∨
        c.phase = .queued ∧ ¬s'.world.DialsInto i NodeStatus.shutting ∨
        c.phase = .waiting ∧ DialedLate k (past ++ events) := by
  have hi : s.Inv := Reachable.inv ⟨past, hpast⟩
  have hover : Over s i s :=
    ⟨hi, ⟨t, ht, hf⟩, hg, fun k c hc hl => ⟨c, hc, hl⟩, fun k c hc => ⟨c, hc, rfl⟩⟩
  have hover' : Over s i s' := hrun.invariant hover fun _ _ _ hu hs => (hu.step hs).1
  refine ⟨fun k c hc hl => ?_, ?_, fun k c hc hl hne => ?_⟩
  · obtain ⟨c₀, hc₀, -⟩ := hover'.old k c hc hl
    exact (List.getElem?_eq_some_iff.mp hc₀).1
  · have hpotential := hrun.potential (fun u => u.remaining i) (s.concerns i) (fun _ => false) 0
      hover fun u x v hu hs => ⟨(hu.step hs).1, by simpa using (hu.step hs).2⟩
    simpa using hpotential
  · rcases hover'.moves hc hl hne with hmoves | hqueued | hwaiting
    · exact .inl hmoves
    · exact .inr (.inl hqueued)
    · exact .inr (.inr ⟨hwaiting, dialedLate_of_waiting (hpast.append hrun) hc hwaiting⟩)

lemma accepted_eq_nil {a : Action} (h : ∀ i, a ≠ .task i .accept) : s.accepted a = [] := by
  cases a with
  | task i b =>
    cases b with
    | accept => exact absurd rfl (h i)
    | _ => rfl
  | _ => rfl

lemma world_run {w w' : World} {actions : List Action} (h : Run World.Step w actions w')
    (hno : ∀ i, .task i .accept ∉ actions) (conns : List Conn) (gauges : ℕ → Gauge) :
    Run Step ⟨w, conns, gauges⟩ (actions.map .world) ⟨w', conns, gauges⟩ := by
  induction h with
  | nil => exact .nil _
  | @cons w _ _ a as ha _ ih =>
    refine .cons ?_ (ih fun i hm => hno i (List.mem_cons_of_mem a hm))
    have hstep : Step ⟨w, conns, gauges⟩ (.world a) _ := .world ha
    rwa [accepted_eq_nil fun i he => hno i (he ▸ List.mem_cons_self), List.append_nil] at hstep

def listening : World :=
  let w := World.started.setMappings .remoteTcp [World.port80]
  { w.spawnListener 0 .remoteTcp World.port80 with
    tasks := [⟨0, .remoteTcp, World.port80, 0, .new, .serving ⟨0⟩, .absent, false⟩]
    calls := w.calls ++ [⟨.add .remoteTcp "80", .done (.ok ())⟩] }

lemma listening_run : ∃ events, Run Step start events ⟨listening, [], fun _ => .zero⟩ := by
  have hrun : Run World.Step World.initial _ listening := World.started_run.append <|
    .cons (.begin _ (.add .remoteTcp "80")) <| .cons (.addPush (c := 2) rfl) <|
    .cons (.addLook (c := 2) rfl (Or.inr rfl)) <|
    .cons (.task (i := 0) rfl (.bound rfl (fun _ => by decide))) <|
    .cons (.task (i := 0) rfl (.subscribe rfl (fun h => by cases h))) <| .nil _
  exact ⟨_, world_run hrun (by simp) [] _⟩

def relaying : Engine :=
  let c : Conn := ⟨0, 0, ⟨0⟩, .spawned⟩
  let s : Engine := ⟨{ listening with conns := [(0, 0)] }, [c], fun _ => .zero⟩
  (s.turn 0 c .dialing).turn 0 { c with phase := .dialing } .relaying

lemma relaying_run : ∃ events, Run Step start events relaying := by
  obtain ⟨events, hrun⟩ := listening_run
  have hremote : ∀ status, ¬({ listening with conns := [(0, 0)] } : World).DialsInto 0 status := by
    rintro status ⟨t, n, ht, hkind, -⟩
    cases ht
    cases hkind
  have hrest : Run Step ⟨listening, [], fun _ => .zero⟩ _ relaying :=
    .cons (.world (.task (i := 0) rfl (.accept rfl))) <|
    .cons (.conn (k := 0) (a := .polled) rfl rfl (hremote _)) <|
    .cons (.conn (k := 0) (a := .dialed) rfl rfl trivial) <| .nil _
  exact ⟨_, hrun.append hrest⟩

theorem one_connection_counted : ∃ s, Reachable s ∧ s.conns.length = 1 ∧
    (s.gauges 0).active.toInt = s.conns.countP (Conn.counts 0) ∧
      (s.gauges 0).total = UInt64.ofNat (s.conns.countP (Conn.begun 0)) := by
  obtain ⟨events, hrun⟩ := relaying_run
  have hcount := gauges_count_connections ⟨events, hrun⟩ 0
  exact ⟨relaying, ⟨events, hrun⟩, rfl, hcount.1 (by decide), hcount.2⟩

lemma cleared_run : ∃ actions w, Run World.Step { listening with conns := [(0, 0)] } actions w ∧
    (∀ i, .task i .accept ∉ actions) ∧ w.Gone 0 ∧
    w.tasks[0]? = some ⟨0, .remoteTcp, World.port80, 0, ⟨1⟩, .exited, .absent, false⟩ := by
  have hrun : Run World.Step { listening with conns := [(0, 0)] } _ _ :=
    .cons (.begin _ .clearMappings) <| .cons (.clearList (c := 3) rfl) <|
    .cons (.clearList (c := 3) rfl) <| .cons (.clearList (c := 3) rfl) <|
    .cons (.clearList (c := 3) rfl) <|
    .cons (.drain (c := 3) rfl rfl (Store.enumerates_single "rtcp:80->127.0.0.1:80" 0)) <|
    .cons (.signal (c := 3) rfl) <| .cons (.signalled (c := 3) rfl) <|
    .cons (.task (i := 0) rfl (.stopped rfl (Nat.zero_lt_one))) <| .nil _
  refine ⟨_, _, hrun, by simp, ⟨?_, ?_⟩, rfl⟩
  · intro key hkey
    cases hkey
  · intro c
    match c with
    | 0 | 1 | 2 | 3 => exact ⟨List.not_mem_nil, List.not_mem_nil⟩
    | n + 4 => exact ⟨List.not_mem_nil, List.not_mem_nil⟩

theorem cleared_relay_cut : ∃ events s s' c, Run Step start events s ∧
    Step s (.conn 0 .stopped) s' ∧ s.conns[0]? = some c ∧ c.phase = .relaying ∧
      Signalled c.listener events := by
  obtain ⟨events, hrun⟩ := relaying_run
  obtain ⟨actions, w, hclear, hno, hgone, htask⟩ := cleared_run
  have hrun' : Run Step start _ ⟨w, relaying.conns, relaying.gauges⟩ :=
    hrun.append (world_run hclear hno _ _)
  have hs : Step ⟨w, relaying.conns, relaying.gauges⟩ (.conn 0 .stopped) _ :=
    .conn rfl rfl ⟨_, htask, .inl Nat.zero_lt_one⟩
  obtain ⟨c, hc, hphase, hsignalled⟩ := relay_cut_after_signal hrun' hs
  exact ⟨_, _, _, c, hrun', hs, hc, hphase, hsignalled⟩

theorem cleared_relay_ends : ∃ past s s', Run Step start past s ∧
    Run Step s [.conn 0 .stopped] s' ∧
    (∀ (k : ℕ) (c : Conn), s'.conns[k]? = some c → c.listener = 0 → k < s.conns.length) ∧
    s'.remaining 0 + [Event.conn 0 .stopped].countP (s.concerns 0) ≤ s.remaining 0 ∧
    ∀ (k : ℕ) (c : Conn), s'.conns[k]? = some c → c.listener = 0 → c.phase ≠ .ended →
      (∃ a v, Step s' (.conn k a) v ∧ (c.phase = .relaying → a = .stopped)) ∨
        c.phase = .queued ∧ ¬s'.world.DialsInto 0 NodeStatus.shutting ∨
        c.phase = .waiting ∧ DialedLate k (past ++ [.conn 0 .stopped]) := by
  obtain ⟨events, hrun⟩ := relaying_run
  obtain ⟨actions, w, hclear, hno, hgone, htask⟩ := cleared_run
  have hpast : Run Step start _ ⟨w, relaying.conns, relaying.gauges⟩ :=
    hrun.append (world_run hclear hno _ _)
  have hs : Run Step ⟨w, relaying.conns, relaying.gauges⟩ [.conn 0 .stopped] _ :=
    .single (.conn rfl rfl ⟨_, htask, .inl Nat.zero_lt_one⟩)
  exact ⟨_, _, _, hpast, hs, connections_end_with_listener hpast htask (.inl rfl) hgone hs⟩

end Engine

end Yggstack.Mobile
