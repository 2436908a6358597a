import Yggstack.Forward.Udp

namespace Yggstack.Forward.Udp

open Library Inet

def ttl : ℕ := sessionTtlSecs * second

def Fed (s : State) : Event → Prop
  | .evict => ∀ a v, s.sessions.find a = some v → ∀ way b time,
      .forwarded way v.socket b time true ∈ s.log → s.now < time + ttl →
        ∃ time', .heard a time' ∈ s.log ∧ s.now < time' + ttl
  | _ => True

def EvictsIdle (log : List Entry) : Prop :=
  ∀ way k a time time', Before (.forwarded way k a time true) (.evicted k time') log →
    time + ttl ≤ time'

section Steps

variable {s t : State}

lemma stale_iff (v : Session) : s.stale v = true ↔ v.lastActive + ttl ≤ s.now := by
  have hpos : 0 < second := by decide
  have httl : 0 < ttl := by decide
  rw [State.stale, decide_eq_true_eq, Nat.le_div_iff_mul_le hpos]
  change ttl ≤ s.now - v.lastActive ↔ v.lastActive + ttl ≤ s.now
  omega

structure Active (s : State) : Prop where
  last : ∀ a v, s.sessions.find a = some v → .heard a v.lastActive ∈ s.log ∧
    ∀ time, .heard a time ∈ s.log → time ≤ v.lastActive
  past : ∀ a time, .heard a time ∈ s.log → time ≤ s.now

lemma active_start (side : Side) (now : ℕ) : Active (.start side now) where
  last a v hv := by cases hv
  past a time hmem := by cases hmem

lemma Active.quiet (h : Active s) (hnow : s.now ≤ t.now)
    (hsessions : ∀ a v', t.sessions.find a = some v' → ∃ v, s.sessions.find a = some v ∧
      v.lastActive = v'.lastActive)
    (hlog : ∀ a time, .heard a time ∈ t.log ↔ .heard a time ∈ s.log) : Active t where
  last a v' hv' := by
    obtain ⟨v, hv, hlast⟩ := hsessions a v' hv'
    rw [← hlast, hlog]
    refine ⟨(h.last a v hv).1, fun time hmem => ?_⟩
    exact (h.last a v hv).2 time ((hlog a time).mp hmem)
  past a time hmem := (h.past a time ((hlog a time).mp hmem)).trans hnow

lemma Active.hear (h : Active s) {a : SocketAddr} {v : Session} (hlast : v.lastActive = s.now)
    (hnow : t.now = s.now) (hsessions : t.sessions = s.sessions.insert a v)
    (hlog : t.log = s.log ++ [.heard a s.now]) : Active t where
  last b w hw := by
    rw [hsessions] at hw
    rw [hlog]
    rcases Store.find_insert_cases hw with ⟨rfl, rfl⟩ | ⟨hb, hw⟩
    · rw [hlast]
      refine ⟨by simp, fun time hmem => ?_⟩
      rcases List.mem_append.mp hmem with hold | hnew
      · exact h.past b time hold
      · cases List.mem_singleton.mp hnew
        exact le_rfl
    · refine ⟨List.mem_append_left _ (h.last b w hw).1, fun time hmem => ?_⟩
      rcases List.mem_append.mp hmem with hold | hnew
      · exact (h.last b w hw).2 time hold
      · cases List.mem_singleton.mp hnew
        exact absurd rfl hb
  past b time hmem := by
    rw [hlog] at hmem
    rw [hnow]
    rcases List.mem_append.mp hmem with hold | hnew
    · exact h.past b time hold
    · cases List.mem_singleton.mp hnew
      exact le_rfl

lemma active_step {ev : Event} (h : Active s) (hs : Step s ev t) : Active t := by
  have hsame : ∀ {u : State}, s.now ≤ u.now → u.sessions = s.sessions →
      (∀ a time, .heard a time ∈ u.log ↔ .heard a time ∈ s.log) → Active u := by
    intro u hnow hsessions hlog
    exact h.quiet hnow (fun a v hv => ⟨v, by rw [← hsessions]; exact hv, rfl⟩) hlog
  have hremove : ∀ entries a v, (s.remove entries).sessions.find a = some v →
      ∃ w, s.sessions.find a = some w ∧ w.lastActive = v.lastActive := by
    intro entries a v hv
    exact ⟨v, find_remove hv, rfl⟩
  have hrelease : ∀ {m : Main} {timer : Option ℕ},
      Active { s with main := m, timer := timer }.release := by
    intro m timer
    exact h.quiet le_rfl (fun a v hv => ⟨v, find_release hv, rfl⟩) fun _ _ => Iff.rfl
  cases hs with
  | elapse n => exact hsame (Nat.le_add_right _ _) rfl fun _ _ => Iff.rfl
  | @enter source opens hmain =>
    rw [State.enter]
    split
    · exact h.hear rfl rfl rfl rfl
    · split
      · exact h.hear rfl rfl rfl rfl
      · split
        · exact hrelease
        · exact hsame le_rfl rfl fun _ _ => Iff.rfl
  | @sent source socket need ok hmain =>
    rw [State.sent]
    split
    · exact hsame le_rfl rfl fun _ _ => by simp
    · exact hsame le_rfl rfl fun _ _ => by simp
  | @store source handle hmain =>
    refine h.quiet le_rfl (fun a v' hv' => ?_) fun _ _ => Iff.rfl
    obtain ⟨v, hv, -, hlast, -⟩ := find_store hv'
    exact ⟨v, hv, hlast.symm⟩
  | drain hmain horder => exact h.quiet le_rfl (hremove _) fun _ _ => Iff.rfl
  | replied ok hl hphase => exact hsame le_rfl rfl fun _ _ => by simp
  | evict htimer hdue horder =>
    refine h.quiet le_rfl (hremove _) fun a time => ?_
    simp [State.evict]
  | stopTimer => exact hrelease
  | abort hmain => exact hrelease
  | _ => exact hsame le_rfl rfl fun _ _ => Iff.rfl

lemma log_step {ev : Event} (hs : Step s ev t) : ∃ new, t.log = s.log ++ new ∧
    (∀ k time, .evicted k time ∈ new → ev = .evict) := by
  have hsame : ∃ new : List Entry, s.log = s.log ++ new ∧
      ∀ k time, .evicted k time ∈ new → ev = .evict := ⟨[], by simp, by simp⟩
  cases hs with
  | @enter source opens hmain =>
    rw [State.enter]
    split
    · exact ⟨_, rfl, by simp⟩
    · split
      · exact ⟨_, rfl, by simp⟩
      · split <;> exact hsame
  | @sent source socket need ok hmain =>
    rw [State.sent]
    split
    · exact ⟨_, rfl, by simp⟩
    · exact ⟨_, rfl, by simp⟩
  | replied ok hl hphase => exact ⟨_, rfl, by simp⟩
  | evict htimer hdue horder => exact ⟨_, rfl, fun _ _ _ => rfl⟩
  | _ => exact hsame

lemma evictsIdle_of_append {log new : List Entry} (h : EvictsIdle (log ++ new)) :
    EvictsIdle log := by
  intro way k a time time' hb
  exact h way k a time time' (before_append.mpr (.inl hb))

lemma before_of_log {log new : List Entry} {way : Way} {k : ℕ} {a : SocketAddr} {time time' : ℕ}
    (hnew : ∀ k time, Entry.evicted k time ∉ new)
    (hb : Before (.forwarded way k a time true) (.evicted k time') (log ++ new)) :
    Before (.forwarded way k a time true) (.evicted k time') log := by
  rcases before_append.mp hb with hold | ⟨-, hmem⟩ | ⟨l, r, rfl, -⟩
  · exact hold
  · exact absurd hmem (hnew k time')
  · exact absurd (List.mem_append_right l List.mem_cons_self) (hnew k time')

lemma evictsIdle_evict {order : List (SocketAddr × Session)} {tick : ℕ} (h : Active s)
    (horder : s.sessions.Enumerates order) (hfed : Fed s .evict) (hidle : EvictsIdle s.log) :
    EvictsIdle (s.evict order tick).log := by
  intro way k b time time' hb
  rcases before_append.mp hb with hold | ⟨hforwarded, hevicted⟩ | ⟨l, r, heq, hmem⟩
  · exact hidle way k b time time' hold
  · obtain ⟨⟨a, v⟩, hentry, heq⟩ := List.mem_map.mp hevicted
    cases heq
    obtain ⟨hv, hstale⟩ := List.mem_filter.mp hentry
    have hfind := (horder.mem_iff a v).mp hv
    by_contra hlate
    obtain ⟨heard, hheard, hrecent⟩ :=
      hfed a v hfind way b time hforwarded (by omega)
    have hle := (h.last a v hfind).2 heard hheard
    have hold := (stale_iff v).mp hstale
    omega
  · have hmem' : Entry.forwarded way k b time true ∈
        (order.filter fun e => s.stale e.2).map fun e => Entry.evicted e.2.socket s.now := by
      rw [heq]
      exact List.mem_append_left _ hmem
    simp at hmem'

lemma evictsIdle_step {ev : Event} (h : Active s) (hs : Step s ev t) (hfed : Fed s ev)
    (hidle : EvictsIdle s.log) : EvictsIdle t.log := by
  by_cases hev : ev = .evict
  · subst hev
    cases hs with
    | evict htimer hdue horder => exact evictsIdle_evict h horder hfed hidle
  · obtain ⟨new, hlog, hnew⟩ := log_step hs
    intro way k a time time' hb
    rw [hlog] at hb
    exact hidle way k a time time' (before_of_log (fun k time hmem => hev (hnew k time hmem)) hb)

lemma fed_of_evictsIdle {ev : Event} (h : Active s) (hs : Step s ev t) (hidle : EvictsIdle t.log) :
    EvictsIdle s.log ∧ Fed s ev := by
  obtain ⟨new, hlog, -⟩ := log_step hs
  refine ⟨evictsIdle_of_append (by rw [← hlog]; exact hidle), ?_⟩
  cases hs with
  | @evict order tick htimer hdue horder =>
    intro a v hfind way b time hforwarded hrecent
    refine ⟨v.lastActive, (h.last a v hfind).1, ?_⟩
    by_contra hsilent
    have hstale : s.stale v = true := (stale_iff v).mpr (by omega)
    have hevicted : Entry.evicted v.socket s.now ∈
        (order.filter fun e => s.stale e.2).map fun e => Entry.evicted e.2.socket s.now :=
      List.mem_map.mpr ⟨(a, v), List.mem_filter.mpr ⟨(horder.mem_iff a v).mpr hfind, hstale⟩, rfl⟩
    have hle := hidle way v.socket b time s.now (before_append.mpr (.inr (.inl ⟨hforwarded, hevicted⟩)))
    omega
  | _ => trivial

end Steps

/-- Evictions hit idle sessions only, in exactly the runs in which sessions are fed by their sources
whenever the timer ticks. -/
theorem evictions_idle_iff {side : Side} {now : ℕ} {events : List Event} {s : State}
    (hr : Run Step (.start side now) events s) :
    EvictsIdle s.log ↔ Run (fun s ev t => Step s ev t ∧ Fed s ev) (.start side now) events s := by
  constructor
  · intro hidle
    exact (hr.guard_of_end (active_start side now) (fun _ _ _ h hs => active_step h hs) hidle
      fun _ _ _ h hs hidle => fed_of_evictsIdle h hs hidle).2
  · intro hfed
    have hboth : Active s ∧ EvictsIdle s.log := by
      refine hfed.invariant (I := fun s => Active s ∧ EvictsIdle s.log) ?_ ?_
      · exact ⟨active_start side now, fun way k a time time' hb => absurd hb not_before_nil⟩
      · rintro s ev t ⟨h, hidle⟩ ⟨hs, hev⟩
        exact ⟨active_step h hs, evictsIdle_step h hs hev hidle⟩
    exact hboth.2

section Runs

def source : SocketAddr := ⟨localhost, 1000⟩

def silent (side : Side) (now tick : ℕ) (log : List Entry) : State :=
  { side, now
    sessions := Store.empty.insert source
      { socket := 0, lastActive := 0, listenerHandle := some 0 }
    listeners := [{ socket := 0, source, phase := .receiving, aborting := false }]
    main := .receiving, timer := some tick, opened := [source], log }

def opening : List Event := [.receive source, .enter true, .sent true, .store]

def openingLog : List Entry := [.heard source 0, .forwarded .out 0 source 0 true]

variable {side : Side} {now tick n : ℕ} {log : List Entry}

lemma Step.to {s t u : State} {ev : Event} (h : Step s ev t) (ht : t = u) : Step s ev u := ht ▸ h

lemma run_opening (side : Side) : Run Step (.start side 0) opening (silent side 0 0 openingLog) := by
  let s₁ : State := { State.start side 0 with main := .locking source }
  let s₂ : State := s₁.enter source true
  let s₃ : State := s₂.sent source 0 true true
  have hreceive : Step (.start side 0) (.receive source) s₁ := .receive source rfl
  have henter : Step s₁ (.enter true) s₂ := .enter true rfl
  have hsent : Step s₂ (.sent true) s₃ := .sent true rfl
  have hstore : Step s₃ .store (s₃.store source 0) := .store rfl
  have hend : s₃.store source 0 = silent side 0 0 openingLog :=
    congrArg (fun m => { silent side 0 0 openingLog with sessions := m })
      (Store.insert_insert Store.empty source
        { socket := 0, lastActive := 0, listenerHandle := none } _)
  exact .cons hreceive (.cons henter (.cons hsent (.single (hstore.to hend))))

lemma enumerates_silent : (silent side now tick log).sessions.Enumerates
    [(source, { socket := 0, lastActive := 0, listenerHandle := some 0 })] :=
  Store.enumerates_single _ _

lemma step_early (hdue : tick ≤ now) (hnow : now < ttl) :
    Step (silent side now tick log) .evict
      (silent side now (tick + evictTimerSecs * second) log) := by
  have hstale : (silent side now tick log).stale
      { socket := 0, lastActive := 0, listenerHandle := some 0 } = false := by
    rw [Bool.eq_false_iff, ne_eq, stale_iff]
    simp only [silent]
    omega
  refine (Step.evict rfl hdue enumerates_silent).to ?_
  simp only [State.evict, List.filter_cons, hstale]
  simp [State.remove, State.abort, silent]

lemma step_late (hdue : tick ≤ now) (hnow : ttl ≤ now) :
    ∃ t, Step (silent side now tick log) .evict t ∧ t.log = log ++ [.evicted 0 now] := by
  have hstale : (silent side now tick log).stale
      { socket := 0, lastActive := 0, listenerHandle := some 0 } = true := by
    rw [stale_iff]
    simp only [silent]
    omega
  refine ⟨_, .evict rfl hdue enumerates_silent, ?_⟩
  simp only [State.evict, List.filter_cons, hstale]
  rfl

lemma run_reply : Run Step (silent side now tick log) [.reply 0, .replied 0 true]
    (silent side now tick (log ++ [.forwarded .back 0 source now true])) := by
  let l : Listener := { socket := 0, source, phase := .receiving, aborting := false }
  let s : State := (silent side now tick log).setListener 0 { l with phase := .sending }
  have hreply : Step (silent side now tick log) (.reply 0) s := .reply (l := l) rfl rfl
  have hreplied := Step.replied (s := s) (i := 0) (l := { l with phase := .sending }) true rfl rfl
  exact .cons hreply (.single (hreplied.to rfl))

lemma run_tick {log : List Entry} (hnow : now < ttl) :
    Run Step (silent side now now log) [.evict, .elapse (10 * second)]
      (silent side (now + 10 * second) (now + 10 * second) log) :=
  .cons (step_early le_rfl hnow) (.single ((Step.elapse _ _).to rfl))

def twentySeconds : List Event :=
  opening ++ ([.evict, .elapse (10 * second)] ++ [.evict, .elapse (10 * second)])

lemma run_twentySeconds (side : Side) :
    Run Step (.start side 0) twentySeconds
      (silent side (20 * second) (20 * second) openingLog) :=
  (run_opening side).append ((run_tick (by decide)).append (run_tick (by decide)))

def unused : List Event := twentySeconds ++ ([.evict, .elapse (10 * second)] ++ [.evict])

theorem unused_session_evicted : ∃ s, Run Step (.start .localUdp 0) unused s ∧
    Before (.forwarded .out 0 source 0 true) (.evicted 0 (30 * second)) s.log ∧
    Run (fun s ev t => Step s ev t ∧ Fed s ev) (.start .localUdp 0) unused s := by
  have hthird : Run Step (silent .localUdp (20 * second) (20 * second) openingLog)
      [.evict, .elapse (10 * second)]
      (silent .localUdp (30 * second) (30 * second) openingLog) := run_tick (by decide)
  obtain ⟨s, hlast, hlog⟩ : ∃ t, Step (silent .localUdp (30 * second) (30 * second) openingLog)
      .evict t ∧ t.log = openingLog ++ [.evicted 0 (30 * second)] := step_late le_rfl le_rfl
  have hr : Run Step (.start .localUdp 0) unused s :=
    (run_twentySeconds .localUdp).append (hthird.append (.single hlast))
  have hidle : EvictsIdle s.log := by
    intro way k a time time' hb
    rw [hlog] at hb
    simp only [openingLog, List.cons_append, List.nil_append, before_cons, not_before_nil,
      reduceCtorEq, false_and, false_or, or_false, Entry.forwarded.injEq, List.mem_singleton,
      Entry.evicted.injEq, List.not_mem_nil, and_false] at hb
    obtain ⟨⟨-, -, -, rfl, -⟩, -, rfl⟩ := hb
    decide
  exact ⟨s, hr, by rw [hlog]; simp [openingLog, before_cons], (evictions_idle_iff hr).mp hidle⟩

def answered : List Event :=
  twentySeconds ++ ([.evict, .elapse (9 * second)] ++ ([.reply 0, .replied 0 true] ++
    [.elapse second, .evict]))

theorem answered_session_evicted : ∃ s, Run Step (.start .localUdp 0) answered s ∧
    Before (.forwarded .back 0 source (29 * second) true) (.evicted 0 (30 * second)) s.log ∧
    ¬EvictsIdle s.log := by
  have hwait : Run Step (silent .localUdp (20 * second) (20 * second) openingLog)
      [.evict, .elapse (9 * second)]
      (silent .localUdp (29 * second) (30 * second) openingLog) :=
    .cons (step_early le_rfl (by decide)) (.single ((Step.elapse _ _).to rfl))
  obtain ⟨s, hlast, hlog⟩ : ∃ t, Step (silent .localUdp (30 * second) (30 * second)
      (openingLog ++ [.forwarded .back 0 source (29 * second) true])) .evict t ∧
      t.log = openingLog ++ [.forwarded .back 0 source (29 * second) true] ++
        [.evicted 0 (30 * second)] := step_late le_rfl le_rfl
  have hend : Run Step (silent .localUdp (29 * second) (30 * second)
      (openingLog ++ [.forwarded .back 0 source (29 * second) true])) [.elapse second, .evict] s :=
    .cons ((Step.elapse _ _).to rfl) (.single hlast)
  have hbefore : Before (.forwarded .back 0 source (29 * second) true) (.evicted 0 (30 * second))
      s.log := by
    rw [hlog]
    simp [openingLog, before_cons]
  refine ⟨s, (run_twentySeconds .localUdp).append (hwait.append (run_reply.append hend)), hbefore,
    fun hidle => ?_⟩
  exact absurd (hidle _ _ _ _ _ hbefore) (by decide)

end Runs

end Yggstack.Forward.Udp
