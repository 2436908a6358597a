import Yggstack.Forward.Eviction
import Yggstack.Forward.Sessions

namespace Yggstack.Forward.Udp

open Library Inet

-- Told to stop, or known to a session that will tell it, or about to be.
def Kept (s : State) (i : ℕ) (l : Listener) : Prop :=
  l.aborting = true ∨ ∃ a v, s.sessions.find a = some v ∧
    (v.listenerHandle = some i ∨ s.main = .storing a i)

def Starting (s : State) (a : SocketAddr) (k : ℕ) : Prop :=
  s.main = .sending a k true ∨
    ∃ (i : ℕ) (l : Listener), s.main = .storing a i ∧ s.listeners[i]? = some l ∧ l.socket = k

-- At one of the events the session of a listener that was being started went, with its source
-- silent for the whole time to live.
def CutOff (s₀ : State) (events : List Event) (s : State) (a : SocketAddr) (k : ℕ) : Prop :=
  ∃ (before after : List Event) (u w : State), events = before ++ .evict :: after ∧
    Run Step s₀ before u ∧ Step u .evict w ∧ Run Step w after s ∧ Starting u a k ∧
    u.sessions.find a ≠ none ∧ w.sessions.find a = none ∧
    ∀ time, .heard a time ∈ u.log → time + ttl ≤ u.now

-- At one of the events the handle of listener `i` was dropped: with the loop that was to store it,
-- or with the sessions, when the last of loop and timer was gone and the loop had not told their
-- listeners.
def Dropped (s₀ : State) (events : List Event) (s : State) (i : ℕ) : Prop :=
  ∃ (before after : List Event) (ev : Event) (u w : State), events = before ++ ev :: after ∧
    Run Step s₀ before u ∧ Step u ev w ∧ Run Step w after s ∧
    ((ev = .abort ∧ ∃ a, u.main = .storing a i) ∨
      ev ≠ .drain ∧ w.main.ended = true ∧ w.timer = none ∧
        ∃ a v, u.sessions.find a = some v ∧ v.listenerHandle = some i)

section Steps

variable {s t : State}

def State.Cleared (s : State) : Prop := s.main = .returned ∨ s.main.ended = true ∧ s.timer = none

structure Calm (s t : State) : Prop where
  opened : t.opened = s.opened
  sessions : ∀ a v, t.sessions.find a = some v → s.sessions.find a = some v
  before : ∀ (i : ℕ) (l' : Listener), t.listeners[i]? = some l' → ∃ l : Listener,
    s.listeners[i]? = some l ∧ l.socket = l'.socket ∧ l.source = l'.source ∧ (l'.Live → l.Live) ∧
      (l.aborting = true → l'.aborting = true) ∧ (l'.aborting = true → l.aborting = true ∨
        ∃ a v, s.sessions.find a = some v ∧ v.listenerHandle = some i ∧ t.sessions.find a = none)
  after : ∀ (i : ℕ) (l : Listener), s.listeners[i]? = some l → ∃ l' : Listener,
    t.listeners[i]? = some l' ∧ l'.socket = l.socket
  sending : ∀ a k need, t.main = .sending a k need → s.main = .sending a k need
  storing : ∀ a i, t.main = .storing a i → s.main = .storing a i
  cleared : t.Cleared → s.Cleared ∨ ∀ a, t.sessions.find a = none

lemma Calm.refl (s : State) : Calm s s where
  opened := rfl
  sessions _ _ hv := hv
  before _ l hl := ⟨l, hl, rfl, rfl, id, id, .inl⟩
  after _ l hl := ⟨l, hl, rfl⟩
  sending _ _ _ := id
  storing _ _ := id
  cleared := .inl

lemma calm_set {i : ℕ} {l l' : Listener} (h : s.listeners[i]? = some l)
    (hsocket : l'.socket = l.socket) (hsource : l'.source = l.source) (hlive : l'.Live → l.Live)
    (haborting : l'.aborting = l.aborting) : Calm s (s.setListener i l') where
  opened := rfl
  sessions _ _ hv := hv
  before j m hm := by
    rcases getElem?_change hm with ⟨rfl, rfl⟩ | ⟨-, hm⟩
    · refine ⟨l, h, hsocket.symm, hsource.symm, hlive, fun ha => ?_, fun ha => ?_⟩
      · exact haborting.trans ha
      · exact .inl (haborting.symm.trans ha)
    · exact ⟨m, hm, rfl, rfl, id, id, .inl⟩
  after := (Tamer.set h hsocket hsource hlive).after
  sending _ _ _ := id
  storing _ _ := id
  cleared := .inl

lemma getElem?_abort {handles : List ℕ} {listeners : List Listener} {i : ℕ} {l' : Listener}
    (h : (State.abort handles listeners)[i]? = some l') : ∃ l : Listener,
      listeners[i]? = some l ∧ (l'.aborting = true ↔ l.aborting = true ∨ i ∈ handles) := by
  rw [State.abort, List.getElem?_mapIdx, Option.map_eq_some_iff] at h
  obtain ⟨l, hl, rfl⟩ := h
  refine ⟨l, hl, ?_⟩
  split
  · next hmem => simp [hmem]
  · next hmem => simp [hmem]

lemma calm_remove {entries : List (SocketAddr × Session)}
    (hentries : ∀ e ∈ entries, s.sessions.find e.1 = some e.2) : Calm s (s.remove entries) where
  opened := rfl
  sessions _ _ := find_remove
  before i l' hl' := by
    obtain ⟨l, hl, hsocket, hsource, hlive⟩ := (Tamer.abort _ _).before i l' hl'
    obtain ⟨m, hm, haborting⟩ := getElem?_abort hl'
    obtain rfl : l = m := Option.some.inj (hl.symm.trans hm)
    refine ⟨l, hl, hsocket, hsource, hlive, fun ha => haborting.mpr (.inl ha), fun ha => ?_⟩
    rcases haborting.mp ha with ha | hmem
    · exact .inl ha
    · obtain ⟨⟨a, v⟩, hentry, hhandle⟩ := List.mem_filterMap.mp hmem
      refine .inr ⟨a, v, hentries _ hentry, hhandle, ?_⟩
      rw [State.remove, Store.find_eraseAll, if_pos (List.mem_map_of_mem (f := Prod.fst) hentry)]
  after := (Tamer.abort _ _).after
  sending _ _ _ := id
  storing _ _ := id
  cleared := .inl

lemma calm_evict (hs : Step s .evict t) : Calm s t := by
  cases hs with
  | @evict order tick htimer hdue horder =>
    have hentries : ∀ e ∈ order.filter fun e => s.stale e.2, s.sessions.find e.1 = some e.2 :=
      fun e he => (horder.mem_iff _ _).mp (List.mem_filter.mp he).1
    exact { calm_remove hentries with
      cleared := fun h => .inl (.inl (h.resolve_right fun hno => (by cases hno.2))) }

lemma find_of_released {m : Main} {timer : Option ℕ}
    (h : { s with main := m, timer := timer }.release.Cleared) (hm : m ≠ .returned) (a : SocketAddr) :
    { s with main := m, timer := timer }.release.sessions.find a = none := by
  obtain ⟨hended, htimer⟩ := h.resolve_left hm
  rw [State.release, if_pos ⟨hended, htimer⟩, Store.find_empty]

lemma calm_release {m : Main} {timer : Option ℕ} (hsending : ∀ a k need, m = .sending a k need →
    s.main = .sending a k need) (hstoring : ∀ a i, m = .storing a i → s.main = .storing a i)
    (hreturned : m = .returned → s.main = .returned) :
    Calm s { s with main := m, timer := timer }.release where
  opened := rfl
  sessions _ _ := find_release
  before _ l hl := ⟨l, hl, rfl, rfl, id, id, .inl⟩
  after _ l hl := ⟨l, hl, rfl⟩
  sending := hsending
  storing := hstoring
  cleared h := by
    by_cases hm : m = .returned
    · exact .inl (.inl (hreturned hm))
    · exact .inr (find_of_released h hm)

lemma step_cases {ev : Event} (hs : Step s ev t) :
    (∃ a opens, s.main = .locking a ∧ t = s.enter a opens) ∨
      (∃ a k need ok, s.main = .sending a k need ∧ t = s.sent a k need ok) ∨
      (∃ a i, s.main = .storing a i ∧ t = s.store a i) ∨
      Calm s t ∧ ∀ a i, s.main = .storing a i → t.main = .storing a i ∨ ev = .abort := by
  have hkept : t.main = s.main →
      ∀ a i, s.main = .storing a i → t.main = .storing a i ∨ ev = .abort :=
    fun h a i hmain => .inl (h.trans hmain)
  have hother : ∀ {m : Main}, s.main = m → (∀ a i, m ≠ .storing a i) →
      ∀ a i, s.main = .storing a i → t.main = .storing a i ∨ ev = .abort :=
    fun h hm a i hmain => absurd (h.symm.trans hmain) (hm a i)
  cases hs with
  | enter opens hmain => exact .inl ⟨_, _, hmain, rfl⟩
  | sent ok hmain => exact .inr (.inl ⟨_, _, _, _, hmain, rfl⟩)
  | store hmain => exact .inr (.inr (.inl ⟨_, _, hmain, rfl⟩))
  | elapse n => exact .inr (.inr (.inr ⟨{ Calm.refl s with }, hkept rfl⟩))
  | receive source hmain =>
    exact .inr (.inr (.inr ⟨{ Calm.refl s with
      sending := by simp
      storing := by simp
      cleared := by simp [State.Cleared, Main.ended] }, hother hmain (by simp)⟩))
  | receiveError hmain => exact .inr (.inr (.inr ⟨.refl s, hkept rfl⟩))
  | stop hmain =>
    exact .inr (.inr (.inr ⟨{ Calm.refl s with
      sending := by simp
      storing := by simp
      cleared := by simp [State.Cleared, Main.ended] }, hother hmain (by simp)⟩))
  | @drain order hmain horder =>
    refine .inr (.inr (.inr ⟨{ calm_remove fun e he => (horder.mem_iff _ _).mp he with
      sending := by simp [State.drain]
      storing := by simp [State.drain]
      cleared := fun _ => .inr fun a => ?_ }, hother hmain (by simp)⟩))
    cases hv : (s.drain order).sessions.find a with
    | none => rfl
    | some v =>
      have hentry := (horder.mem_iff a v).mpr (find_remove hv)
      rw [State.drain, State.remove, Store.find_eraseAll,
        if_pos (List.mem_map_of_mem (f := Prod.fst) hentry)] at hv
      cases hv
  | reply hl hphase =>
    refine .inr (.inr (.inr ⟨calm_set hl rfl rfl (fun _ => ?_) rfl, hkept rfl⟩))
    rw [Listener.Live, hphase]
    simp
  | @replied i l ok hl hphase =>
    have hset : Calm s (s.setListener i { l with phase := .receiving }) := by
      refine calm_set hl rfl rfl (fun _ => ?_) rfl
      rw [Listener.Live, hphase]
      simp
    exact .inr (.inr (.inr ⟨{ hset with }, hkept rfl⟩))
  | replyError hl hphase =>
    exact .inr (.inr (.inr ⟨calm_set hl rfl rfl (fun hno => absurd rfl hno) rfl, hkept rfl⟩))
  | cancelled hl haborting hlive =>
    exact .inr (.inr (.inr ⟨calm_set hl rfl rfl (fun _ => hlive) rfl, hkept rfl⟩))
  | evict htimer hdue horder =>
    exact .inr (.inr (.inr ⟨calm_evict (.evict htimer hdue horder), hkept rfl⟩))
  | stopTimer => exact .inr (.inr (.inr ⟨calm_release (fun _ _ _ => id) (fun _ _ => id) id, hkept rfl⟩))
  | abort hmain =>
    exact .inr (.inr (.inr ⟨calm_release (by simp) (by simp) (by simp), fun _ _ _ => .inr rfl⟩))

lemma mem_of_removed {entries : List (SocketAddr × Session)} {a : SocketAddr} {v : Session}
    (hentries : ∀ e ∈ entries, s.sessions.find e.1 = some e.2) (hv : s.sessions.find a = some v)
    (hnone : (s.remove entries).sessions.find a = none) : (a, v) ∈ entries := by
  have hgone : a ∈ entries.map Prod.fst := by
    by_contra hno
    rw [State.remove, Store.find_eraseAll, if_neg hno, hv] at hnone
    cases hnone
  obtain ⟨⟨b, w⟩, hentry, rfl⟩ := List.mem_map.mp hgone
  obtain rfl : v = w := Option.some.inj (hv.symm.trans (hentries _ hentry))
  exact hentry

lemma aborting_of_mem {entries : List (SocketAddr × Session)} {a : SocketAddr} {v : Session} {i : ℕ}
    {l' : Listener} (hentry : (a, v) ∈ entries) (hhandle : v.listenerHandle = some i)
    (hl' : (s.remove entries).listeners[i]? = some l') : l'.aborting = true := by
  have hmem : i ∈ entries.filterMap fun e => e.2.listenerHandle :=
    List.mem_filterMap.mpr ⟨(a, v), hentry, hhandle⟩
  obtain ⟨l, -, haborting⟩ := getElem?_abort hl'
  exact haborting.mpr (.inr hmem)

lemma opened_enter {a : SocketAddr} {opens : Bool} :
    s.opened.length ≤ (s.enter a opens).opened.length := by
  rw [State.enter]
  split
  · exact le_rfl
  · split
    · simp
    · split <;> exact le_rfl

lemma listeners_enter {a : SocketAddr} {opens : Bool} :
    (s.enter a opens).listeners = s.listeners := by
  rw [State.enter]
  split
  · rfl
  · split
    · rfl
    · split <;> rfl

lemma storing_enter {a : SocketAddr} {opens : Bool} (b : SocketAddr) (i : ℕ) :
    (s.enter a opens).main ≠ .storing b i := by
  rw [State.enter]
  split
  · simp
  · split
    · simp
    · split <;> simp [State.release]

-- Who has which handle: a session that of a listener on its socket, and nobody that of a listener
-- that is not stored yet. None of these has been told to stop.
structure Handles (s : State) : Prop where
  stored : ∀ a v i, s.sessions.find a = some v → v.listenerHandle = some i →
    ∃ l : Listener, s.listeners[i]? = some l ∧ l.socket = v.socket ∧ l.aborting = false
  unknown : ∀ a i, s.main = .storing a i →
    ∀ b v, s.sessions.find b = some v → v.listenerHandle ≠ some i
  untold : ∀ a i (l : Listener), s.main = .storing a i → s.listeners[i]? = some l →
    l.aborting = false
  cleared : s.Cleared → ∀ a, s.sessions.find a = none

lemma handles_start (side : Side) (now : ℕ) : Handles (.start side now) where
  stored a v i hv := by cases hv
  unknown a i hmain := by cases hmain
  untold a i l hmain := by cases hmain
  cleared _ _ := rfl

lemma handles_enter (h : Handles s) {a : SocketAddr} (opens : Bool) :
    Handles (s.enter a opens) := by
  refine ⟨fun b v' i hv' hhandle => ?_, fun b i hb => absurd hb (storing_enter b i),
    fun b i l hb => absurd hb (storing_enter b i), ?_⟩
  · rw [listeners_enter]
    rcases find_enter hv' with ⟨v, hv, hsocket, heq⟩ | ⟨-, -, -, hnone, -⟩
    · rw [hsocket]
      exact h.stored b v i hv (heq ▸ hhandle)
    · rw [hnone] at hhandle
      cases hhandle
  · rw [State.enter]
    split
    · simp [State.Cleared, Main.ended]
    · split
      · simp [State.Cleared, Main.ended]
      · split
        · exact fun hcleared => find_of_released hcleared (by simp)
        · simp [State.Cleared, Main.ended]

lemma handles_sent (h : Handles s) {a : SocketAddr} {k : ℕ} {need : Bool} (ok : Bool) :
    Handles (s.sent a k need ok) := by
  rw [State.sent]
  split
  · refine ⟨fun b v i hv hhandle => ?_, fun b i hb c v hv hhandle => ?_, fun b i l hb hl => ?_,
      by simp [State.Cleared, Main.ended]⟩
    · obtain ⟨l, hl, hsocket⟩ := h.stored b v i hv hhandle
      exact ⟨l, getElem?_snoc_of_some hl, hsocket⟩
    · cases hb
      obtain ⟨l, hl, -⟩ := h.stored c v _ hv hhandle
      exact absurd (List.getElem?_eq_some_iff.mp hl).1 (lt_irrefl _)
    · cases hb
      obtain rfl := Option.some.inj (List.getElem?_concat_length.symm.trans hl)
      rfl
  · exact ⟨h.stored, fun b i hb => (by cases hb), fun b i l hb => (by cases hb),
      by simp [State.Cleared, Main.ended]⟩

lemma handles_store (h : Handles s) (hinv : Inv s) {a : SocketAddr} {i : ℕ}
    (hmain : s.main = .storing a i) : Handles (s.store a i) := by
  refine ⟨fun b v' j hv' hhandle => ?_, fun b j hb => (by cases hb), fun b j l hb => (by cases hb),
    by simp [State.store, State.Cleared, Main.ended]⟩
  obtain ⟨v, hv, hsocket, -, hb⟩ := find_store hv'
  rw [hsocket]
  rcases hb with ⟨rfl, heq⟩ | ⟨-, heq⟩
  · obtain ⟨l, hl, hsession, -⟩ := hinv.storing b i hmain
    cases heq.symm.trans hhandle
    exact ⟨l, hl, (hsession v hv).symm, h.untold b _ l hmain hl⟩
  · exact h.stored b v j hv (heq ▸ hhandle)

lemma Handles.eq_of_handle (h : Handles s) (hinv : Inv s) {a b : SocketAddr} {v w : Session} {i : ℕ}
    (hv : s.sessions.find a = some v) (hw : s.sessions.find b = some w)
    (hhandle : v.listenerHandle = some i) (hhandle' : w.listenerHandle = some i) : a = b := by
  obtain ⟨l, hl, hsocket, -⟩ := h.stored a v i hv hhandle
  obtain ⟨m, hm, hsocket', -⟩ := h.stored b w i hw hhandle'
  obtain rfl : l = m := Option.some.inj (hl.symm.trans hm)
  have ha := hinv.session a v hv
  rw [← hsocket, hsocket', hinv.session b w hw] at ha
  exact (Option.some.inj ha).symm

lemma handles_calm (h : Handles s) (hinv : Inv s) (hcalm : Calm s t) : Handles t where
  stored a v i hv hhandle := by
    have hv₀ := hcalm.sessions a v hv
    obtain ⟨l, hl, hsocket, huntold⟩ := h.stored a v i hv₀ hhandle
    obtain ⟨l', hl', hsocket'⟩ := hcalm.after i l hl
    refine ⟨l', hl', hsocket'.trans hsocket, ?_⟩
    obtain ⟨m, hm, -, -, -, -, haborting⟩ := hcalm.before i l' hl'
    obtain rfl : l = m := Option.some.inj (hl.symm.trans hm)
    rw [← Bool.not_eq_true]
    intro ha
    rcases haborting ha with ha | ⟨b, w, hw, hhandle', hnone⟩
    · rw [huntold] at ha
      cases ha
    · obtain rfl := h.eq_of_handle hinv hv₀ hw hhandle hhandle'
      rw [hnone] at hv
      cases hv
  unknown a i hmain b v hv := h.unknown a i (hcalm.storing a i hmain) b v (hcalm.sessions b v hv)
  untold a i l' hmain hl' := by
    have hwas := hcalm.storing a i hmain
    obtain ⟨l, hl, -, -, -, -, haborting⟩ := hcalm.before i l' hl'
    rw [← Bool.not_eq_true]
    intro ha
    rcases haborting ha with ha | ⟨b, v, hv, hhandle, -⟩
    · rw [h.untold a i l hwas hl] at ha
      cases ha
    · exact h.unknown a i hwas b v hv hhandle
  cleared hcleared a := by
    rcases hcalm.cleared hcleared with hwas | hnone
    · cases hv : t.sessions.find a with
      | none => rfl
      | some v =>
        have hfind := hcalm.sessions a v hv
        rw [h.cleared hwas a] at hfind
        cases hfind
    · exact hnone a

lemma handles_step {ev : Event} (h : Handles s) (hinv : Inv s) (hs : Step s ev t) : Handles t := by
  obtain ⟨a, opens, -, rfl⟩ | ⟨a, k, need, ok, -, rfl⟩ | ⟨a, i, hmain, rfl⟩ | ⟨hcalm, -⟩ :=
    step_cases hs
  · exact handles_enter h opens
  · exact handles_sent h ok
  · exact handles_store h hinv hmain
  · exact handles_calm h hinv hcalm

structure Lost (s : State) (k : ℕ) : Prop where
  opened : k < s.opened.length
  session : ∀ a v, s.sessions.find a = some v → v.socket ≠ k
  untold : ∀ (i : ℕ) (l : Listener), s.listeners[i]? = some l → l.Live → l.socket = k →
    l.aborting = false

lemma Lost.not_kept {k i : ℕ} {l : Listener} (h : Lost s k) (hinv : Inv s) (hhandles : Handles s)
    (hl : s.listeners[i]? = some l) (hlive : l.Live) (hsocket : l.socket = k) : ¬Kept s i l := by
  rintro (ha | ⟨a, v, hv, hhandle | hmain⟩)
  · rw [h.untold i l hl hlive hsocket] at ha
    cases ha
  · obtain ⟨m, hm, heq, -⟩ := hhandles.stored a v i hv hhandle
    obtain rfl : l = m := Option.some.inj (hl.symm.trans hm)
    exact h.session a v hv (heq.symm.trans hsocket)
  · obtain ⟨m, hm, hsession, -⟩ := hinv.storing a i hmain
    obtain rfl : l = m := Option.some.inj (hl.symm.trans hm)
    exact h.session a v hv ((hsession v hv).trans hsocket)

lemma lost_step {ev : Event} {k : ℕ} (h : Lost s k) (hhandles : Handles s) (hs : Step s ev t) :
    Lost t k := by
  obtain ⟨a, opens, -, rfl⟩ | ⟨a, j, need, ok, -, rfl⟩ | ⟨a, i, -, rfl⟩ | ⟨hcalm, -⟩ := step_cases hs
  · refine ⟨h.opened.trans_le opened_enter, fun b v' hv' => ?_, by rw [listeners_enter]; exact h.untold⟩
    rcases find_enter hv' with ⟨v, hv, hsocket, -⟩ | ⟨-, -, hsocket, -⟩
    · rw [hsocket]
      exact h.session b v hv
    · rw [hsocket]
      exact h.opened.ne'
  · rw [State.sent]
    split
    · refine ⟨h.opened, h.session, fun i l hl hlive hsocket => ?_⟩
      rcases getElem?_snoc hl with hl | ⟨-, rfl⟩
      · exact h.untold i l hl hlive hsocket
      · rfl
    · exact ⟨h.opened, h.session, h.untold⟩
  · refine ⟨h.opened, fun b v' hv' => ?_, h.untold⟩
    obtain ⟨v, hv, hsocket, -⟩ := find_store hv'
    rw [hsocket]
    exact h.session b v hv
  · refine ⟨?_, fun b v hv => ?_, fun i l' hl' hlive hsocket => ?_⟩
    · rw [hcalm.opened]
      exact h.opened
    · exact h.session b v (hcalm.sessions b v hv)
    · obtain ⟨l, hl, heq, -, hlive', -, haborting⟩ := hcalm.before i l' hl'
      have huntold := h.untold i l hl (hlive' hlive) (heq.trans hsocket)
      rw [← Bool.not_eq_true]
      intro ha
      rcases haborting ha with ha | ⟨a, v, hv, hhandle, -⟩
      · rw [huntold] at ha
        cases ha
      · obtain ⟨m, hm, heq', -⟩ := hhandles.stored a v i hv hhandle
        obtain rfl : l = m := Option.some.inj (hl.symm.trans hm)
        exact h.session a v hv (heq'.symm.trans (heq.trans hsocket))

structure Unheld (s : State) (i : ℕ) : Prop where
  started : i < s.listeners.length
  session : ∀ a v, s.sessions.find a = some v → v.listenerHandle ≠ some i
  storing : ∀ a, s.main ≠ .storing a i
  untold : ∀ l : Listener, s.listeners[i]? = some l → l.aborting = false

lemma Unheld.not_kept {i : ℕ} {l : Listener} (h : Unheld s i) (hl : s.listeners[i]? = some l) :
    ¬Kept s i l := by
  rintro (ha | ⟨a, v, hv, hhandle | hmain⟩)
  · rw [h.untold l hl] at ha
    cases ha
  · exact h.session a v hv hhandle
  · exact h.storing a hmain

lemma unheld_step {ev : Event} {i : ℕ} (h : Unheld s i) (hs : Step s ev t) : Unheld t i := by
  obtain ⟨a, opens, hmain, rfl⟩ | ⟨a, k, need, ok, hmain, rfl⟩ | ⟨a, j, hmain, rfl⟩ | ⟨hcalm, -⟩ :=
    step_cases hs
  · refine ⟨?_, fun b v' hv' => ?_, fun b hb => ?_, ?_⟩
    · rw [listeners_enter]
      exact h.started
    · rcases find_enter hv' with ⟨v, hv, -, heq⟩ | ⟨-, -, -, hnone, -⟩
      · rw [heq]
        exact h.session b v hv
      · simp [hnone]
    · exact storing_enter b i hb
    · rw [listeners_enter]
      exact h.untold
  · rw [State.sent]
    split
    · refine ⟨by simpa using h.started.le, h.session, fun b hb => ?_, fun l hl => ?_⟩
      · cases hb
        exact absurd h.started (lt_irrefl _)
      · rcases getElem?_snoc hl with hl | ⟨-, rfl⟩
        · exact h.untold l hl
        · rfl
    · exact ⟨h.started, h.session, by simp, h.untold⟩
  · refine ⟨h.started, fun b v' hv' => ?_, by simp [State.store], h.untold⟩
    obtain ⟨v, hv, -, -, ⟨-, heq⟩ | ⟨-, heq⟩⟩ := find_store hv'
    · rw [heq]
      rintro ⟨⟩
      exact h.storing a hmain
    · rw [heq]
      exact h.session b v hv
  · refine ⟨?_, fun b v hv => h.session b v (hcalm.sessions b v hv),
      fun a hmain => h.storing a (hcalm.storing a i hmain), fun l' hl' => ?_⟩
    · obtain ⟨l', hl', -⟩ := hcalm.after i _ (List.getElem?_eq_getElem h.started)
      exact (List.getElem?_eq_some_iff.mp hl').1
    · obtain ⟨l, hl, -, -, -, -, haborting⟩ := hcalm.before i l' hl'
      rw [← Bool.not_eq_true]
      intro ha
      rcases haborting ha with ha | ⟨a, v, hv, hhandle, -⟩
      · rw [h.untold l hl] at ha
        cases ha
      · exact h.session a v hv hhandle

lemma Starting.opened {a : SocketAddr} {k : ℕ} (h : Starting s a k) (hinv : Inv s)
    (hsome : s.sessions.find a ≠ none) : s.opened[k]? = some a := by
  obtain ⟨v, hv⟩ := Option.ne_none_iff_exists'.mp hsome
  rcases h with hmain | ⟨i, l, hmain, hl, hsocket⟩
  · exact (hinv.sending a k true hmain).1
  · obtain ⟨m, hm, hsession, -⟩ := hinv.storing a i hmain
    obtain rfl : l = m := Option.some.inj (hl.symm.trans hm)
    rw [← hsocket, ← hsession v hv]
    exact hinv.session a v hv

lemma lost_of_starting {a : SocketAddr} {k : ℕ} (h : Starting s a k) (hinv : Inv s)
    (hhandles : Handles s) (hs : Step s .evict t) (hsome : s.sessions.find a ≠ none)
    (hnone : t.sessions.find a = none) : Lost t k := by
  have howner := h.opened hinv hsome
  have hcalm := calm_evict hs
  refine ⟨by rw [hcalm.opened]; exact lt_of_opened howner, fun b v hv hsocket => ?_,
    fun i l' hl' hlive hsocket => ?_⟩
  · have hb := hinv.session b v (hcalm.sessions b v hv)
    rw [hsocket, howner] at hb
    cases hb
    rw [hnone] at hv
    cases hv
  · obtain ⟨l, hl, heq, -, hlive', -, haborting⟩ := hcalm.before i l' hl'
    rcases h with hmain | ⟨j, m, hmain, hm, hsocket'⟩
    · exact absurd (heq.trans hsocket) ((hinv.sending a k true hmain).2.2 rfl i l hl (hlive' hlive))
    · obtain ⟨m', hm', -, honly⟩ := hinv.storing a j hmain
      obtain rfl : m = m' := Option.some.inj (hm.symm.trans hm')
      obtain rfl : i = j := honly i l hl (hlive' hlive) (by rw [heq, hsocket, hsocket'])
      rw [← Bool.not_eq_true]
      intro ha
      rcases haborting ha with ha | ⟨b, v, hv, hhandle, -⟩
      · rw [hhandles.untold a i l hmain hl] at ha
        cases ha
      · exact hhandles.unknown a i hmain b v hv hhandle

lemma gone_cases {ev : Event} {a : SocketAddr} {v : Session} (hs : Step s ev t)
    (hv : s.sessions.find a = some v) (hnone : t.sessions.find a = none) :
    ((s.main = .stopping ∨ ev = .evict ∧ v.lastActive + ttl ≤ s.now) ∧
      ∀ i (l' : Listener), v.listenerHandle = some i → t.listeners[i]? = some l' →
        l'.aborting = true) ∨
      ev ≠ .drain ∧ t.main.ended = true ∧ t.timer = none := by
  have hkept : ∀ {m : Store SocketAddr Session} {p : Prop}, m = s.sessions → m.find a = none → p := by
    rintro m p rfl hno
    rw [hv] at hno
    cases hno
  have hreleased : ∀ {m : Main} {timer : Option ℕ},
      { s with main := m, timer := timer }.release.sessions.find a = none →
        m.ended = true ∧ timer = none := by
    intro m timer hno
    by_contra hboth
    rw [State.release, if_neg hboth] at hno
    exact hkept rfl hno
  have hinsert : ∀ {b : SocketAddr} {w : Session} {p : Prop},
      (s.sessions.insert b w).find a = none → p := by
    intro b w p hno
    rw [Store.find_insert] at hno
    split at hno
    · cases hno
    · exact hkept rfl hno
  cases hs with
  | enter opens hmain =>
    rw [State.enter] at hnone ⊢
    split at hnone
    · exact hinsert hnone
    · split at hnone
      · exact hinsert hnone
      · next hopens =>
        simp only [if_neg hopens]
        split at hnone
        · exact .inr ⟨by simp, hreleased hnone⟩
        · exact hkept rfl hnone
  | @sent source socket need ok hmain =>
    rw [State.sent] at hnone
    split at hnone <;> exact hkept rfl hnone
  | @store source handle hmain =>
    rw [State.store] at hnone
    simp only at hnone
    split at hnone
    · exact hinsert hnone
    · exact hkept rfl hnone
  | @drain order hmain horder =>
    have hmem := mem_of_removed (fun e he => (horder.mem_iff _ _).mp he) hv hnone
    exact .inl ⟨.inl hmain, fun i l' hhandle hl' => aborting_of_mem hmem hhandle hl'⟩
  | @evict order tick htimer hdue horder =>
    have hentries : ∀ e ∈ order.filter fun e => s.stale e.2, s.sessions.find e.1 = some e.2 :=
      fun e he => (horder.mem_iff _ _).mp (List.mem_filter.mp he).1
    have hmem := mem_of_removed hentries hv hnone
    have hstale := (stale_iff v).mp (List.mem_filter.mp hmem).2
    exact .inl ⟨.inr ⟨rfl, hstale⟩, fun i l' hhandle hl' => aborting_of_mem hmem hhandle hl'⟩
  | stopTimer => exact .inr ⟨by simp, hreleased hnone⟩
  | abort hmain => exact .inr ⟨by simp, hreleased hnone⟩
  | _ => exact hkept rfl hnone

lemma unheld_of_dropped {ev : Event} {i : ℕ} (hinv : Inv s) (hhandles : Handles s)
    (hhandles' : Handles t) (hs : Step s ev t)
    (hdrop : (ev = .abort ∧ ∃ a, s.main = .storing a i) ∨ ev ≠ .drain ∧ t.main.ended = true ∧
      t.timer = none ∧ ∃ a v, s.sessions.find a = some v ∧ v.listenerHandle = some i) :
    Unheld t i := by
  rcases hdrop with ⟨rfl, a, hmain⟩ | ⟨hdrain, hended, htimer, a, v, hv, hhandle⟩
  · obtain ⟨l, hl, -⟩ := hinv.storing a i hmain
    cases hs with
    | abort =>
      refine ⟨(List.getElem?_eq_some_iff.mp hl).1, fun b v hv => ?_, by simp [State.release],
        fun m hm => hhandles.untold a i m hmain hm⟩
      exact hhandles.unknown a i hmain b v (find_release hv)
  · have hnone := hhandles'.cleared (.inr ⟨hended, htimer⟩)
    obtain ⟨l, hl, -, huntold⟩ := hhandles.stored a v i hv hhandle
    have hlisteners : t.listeners = s.listeners := by
      cases hs with
      | enter => exact listeners_enter
      | sent ok hmain =>
        rw [State.sent] at hended
        split at hended <;> simp [Main.ended] at hended
      | store => rfl
      | drain => exact absurd rfl hdrain
      | evict => cases htimer
      | stopTimer => rfl
      | abort => rfl
      | elapse => rfl
      | receive => rfl
      | receiveError => rfl
      | stop => rfl
      | reply | replied | replyError | cancelled =>
        have hfind : s.sessions.find a = none := hnone a
        rw [hv] at hfind
        cases hfind
    refine ⟨?_, fun b w hw => ?_, fun b hb => ?_, fun m hm => ?_⟩
    · rw [hlisteners]
      exact (List.getElem?_eq_some_iff.mp hl).1
    · rw [hnone b] at hw
      cases hw
    · rw [hb] at hended
      cases hended
    · rw [hlisteners, hl] at hm
      cases hm
      exact huntold

variable {s₀ : State} {events : List Event}

lemma CutOff.step {ev : Event} {a : SocketAddr} {k : ℕ} (h : CutOff s₀ events s a k)
    (hs : Step s ev t) : CutOff s₀ (events ++ [ev]) t a k := by
  obtain ⟨before, after, u, w, rfl, hbefore, hevict, hafter, hrest⟩ := h
  exact ⟨before, after ++ [ev], u, w, by simp, hbefore, hevict, hafter.append (.single hs), hrest⟩

lemma Dropped.step {ev : Event} {i : ℕ} (h : Dropped s₀ events s i) (hs : Step s ev t) :
    Dropped s₀ (events ++ [ev]) t i := by
  obtain ⟨before, after, ev', u, w, rfl, hbefore, hdrop, hafter, hrest⟩ := h
  exact ⟨before, after ++ [ev], ev', u, w, by simp, hbefore, hdrop, hafter.append (.single hs), hrest⟩

lemma cutOff_of_gone {ev : Event} {a : SocketAddr} {k : ℕ} (hr : Run Step s₀ events s)
    (hactive : Active s) (hstarting : Starting s a k) (hs : Step s ev t)
    (hended : t.main.ended = false) (hsome : s.sessions.find a ≠ none)
    (hnone : t.sessions.find a = none) : CutOff s₀ (events ++ [ev]) t a k := by
  obtain ⟨v, hv⟩ := Option.ne_none_iff_exists'.mp hsome
  have hstopping : s.main ≠ .stopping := by
    rcases hstarting with hmain | ⟨i, l, hmain, -⟩
    · simp [hmain]
    · simp [hmain]
  rcases gone_cases hs hv hnone with ⟨hmain | ⟨rfl, hstale⟩, -⟩ | ⟨-, hno, -⟩
  · exact absurd hmain hstopping
  · refine ⟨events, [], s, t, rfl, hr, hs, .nil t, hstarting, hsome, hnone, fun time hmem => ?_⟩
    exact (Nat.add_le_add_right ((hactive.last a v hv).2 time hmem) ttl).trans hstale
  · rw [hended] at hno
    cases hno

lemma dropped_of_aborted {a : SocketAddr} {i : ℕ} (hr : Run Step s₀ events s) (hs : Step s .abort t)
    (hmain : s.main = .storing a i) : Dropped s₀ (events ++ [.abort]) t i :=
  ⟨events, [], .abort, s, t, rfl, hr, hs, .nil t, .inl ⟨rfl, a, hmain⟩⟩

lemma told_or_dropped {ev : Event} {a : SocketAddr} {v : Session} {i : ℕ} {l' : Listener}
    (hr : Run Step s₀ events s) (hs : Step s ev t) (hv : s.sessions.find a = some v)
    (hhandle : v.listenerHandle = some i) (hnone : t.sessions.find a = none)
    (hl' : t.listeners[i]? = some l') :
    l'.aborting = true ∨ Dropped s₀ (events ++ [ev]) t i := by
  rcases gone_cases hs hv hnone with ⟨-, htold⟩ | ⟨hdrain, hended, htimer⟩
  · exact .inl (htold i l' hhandle hl')
  · exact .inr ⟨events, [], ev, s, t, rfl, hr, hs, .nil t,
      .inr ⟨hdrain, hended, htimer, a, v, hv, hhandle⟩⟩

-- Every running listener can still be told to stop, or it can be said when that was lost.
structure Accounted (s₀ : State) (events : List Event) (s : State) : Prop where
  listener : ∀ (i : ℕ) (l : Listener), s.listeners[i]? = some l → l.Live →
    Kept s i l ∨ CutOff s₀ events s l.source l.socket ∨ Dropped s₀ events s i
  sending : ∀ a k, s.main = .sending a k true → s.sessions.find a = none → CutOff s₀ events s a k

lemma accounted_enter {ev : Event} (h : Accounted s₀ events s) {a : SocketAddr} {opens : Bool}
    (hr : Run Step s₀ events s) (hmain : s.main = .locking a) (hs : Step s ev (s.enter a opens)) :
    Accounted s₀ (events ++ [ev]) (s.enter a opens) where
  listener i l hl hlive := by
    have hold : s.listeners[i]? = some l := by rwa [listeners_enter] at hl
    rcases h.listener i l hold hlive with (ha | ⟨b, v, hv, hknown⟩) | hcut | hdropped
    · exact .inl (.inl ha)
    · have hhandle : v.listenerHandle = some i := by
        rcases hknown with hhandle | hstoring
        · exact hhandle
        · rw [hmain] at hstoring
          cases hstoring
      cases hfind : (s.enter a opens).sessions.find b with
      | none =>
        rcases told_or_dropped hr hs hv hhandle hfind hl with ha | hdropped
        · exact .inl (.inl ha)
        · exact .inr (.inr hdropped)
      | some w =>
        rcases find_enter hfind with ⟨v', hv', -, heq⟩ | ⟨rfl, hnone, -⟩
        · obtain rfl : v = v' := Option.some.inj (hv.symm.trans hv')
          exact .inl (.inr ⟨b, w, hfind, .inl (heq.trans hhandle)⟩)
        · rw [hnone] at hv
          cases hv
    · exact .inr (.inl (hcut.step hs))
    · exact .inr (.inr (hdropped.step hs))
  sending b k hb hnone := by
    rw [State.enter] at hb hnone
    split at hb
    · next v hv =>
      obtain ⟨rfl, -⟩ := Main.sending.inj hb
      simp only [hv, Store.find_insert_self] at hnone
      cases hnone
    · next hfind =>
      split at hb
      · next hopens =>
        obtain ⟨rfl, -⟩ := Main.sending.inj hb
        simp only [hfind, if_pos hopens, Store.find_insert_self] at hnone
        cases hnone
      · split at hb <;> cases hb

lemma accounted_sent {ev : Event} (h : Accounted s₀ events s) {a : SocketAddr} {k : ℕ}
    {need ok : Bool} (hmain : s.main = .sending a k need) (hs : Step s ev (s.sent a k need ok)) :
    Accounted s₀ (events ++ [ev]) (s.sent a k need ok) := by
  have hold : ∀ (i : ℕ) (l : Listener), s.listeners[i]? = some l → l.Live →
      (∀ m : Main, l.aborting = true ∨ ∃ b v, s.sessions.find b = some v ∧
        (v.listenerHandle = some i ∨ m = .storing b i)) ∨
        CutOff s₀ (events ++ [ev]) (s.sent a k need ok) l.source l.socket ∨
          Dropped s₀ (events ++ [ev]) (s.sent a k need ok) i := by
    intro i l hl hlive
    rcases h.listener i l hl hlive with (ha | ⟨b, v, hv, hknown⟩) | hcut | hdropped
    · exact .inl fun _ => .inl ha
    · rcases hknown with hhandle | hstoring
      · exact .inl fun _ => .inr ⟨b, v, hv, .inl hhandle⟩
      · rw [hmain] at hstoring
        cases hstoring
    · exact .inr (.inl (hcut.step hs))
    · exact .inr (.inr (hdropped.step hs))
  by_cases hspawn : need = true ∧ (ok = true ∨ s.side = .remoteUdp)
  · have heq : s.sent a k need ok = { s with
        listeners := s.listeners ++
          [{ socket := k, source := a, phase := .receiving, aborting := false }]
        main := .storing a s.listeners.length
        log := s.log ++ [.forwarded .out k a s.now ok] } := by
      rw [State.sent, if_pos hspawn]
    rw [heq] at hold hs ⊢
    refine ⟨fun i l hl hlive => ?_, fun b j hb => (by cases hb)⟩
    rcases getElem?_snoc hl with hl | ⟨rfl, rfl⟩
    · exact (hold i l hl hlive).imp (fun hkept => hkept _) id
    · cases hv : s.sessions.find a with
      | none =>
        have hsending : s.main = .sending a k true := by rw [hmain, hspawn.1]
        exact .inr (.inl ((h.sending a k hsending hv).step hs))
      | some v => exact .inl (.inr ⟨a, v, hv, .inr rfl⟩)
  · have heq : s.sent a k need ok = { s with
        main := .receiving, log := s.log ++ [.forwarded .out k a s.now ok] } := by
      rw [State.sent, if_neg hspawn]
    rw [heq] at hold ⊢
    exact ⟨fun i l hl hlive => (hold i l hl hlive).imp (fun hkept => hkept _) id,
      fun b j hb => (by cases hb)⟩

lemma accounted_store {ev : Event} (h : Accounted s₀ events s) (hinv : Inv s)
    (hhandles : Handles s) {a : SocketAddr} {i : ℕ} (hmain : s.main = .storing a i)
    (hs : Step s ev (s.store a i)) : Accounted s₀ (events ++ [ev]) (s.store a i) where
  listener j l hl hlive := by
    have hold : s.listeners[j]? = some l := hl
    obtain ⟨m, hm, hsession, honly⟩ := hinv.storing a i hmain
    rcases h.listener j l hold hlive with (ha | ⟨b, v, hv, hknown⟩) | hcut | hdropped
    · exact .inl (.inl ha)
    · left
      right
      by_cases hb : b = a
      · subst hb
        obtain rfl : j = i := by
          rcases hknown with hhandle | hstoring
          · obtain ⟨l', hl', hsocket, -⟩ := hhandles.stored b v j hv hhandle
            obtain rfl : l = l' := Option.some.inj (hold.symm.trans hl')
            exact honly j l hold hlive (hsocket.trans (hsession v hv))
          · cases hmain.symm.trans hstoring
            rfl
        refine ⟨b, { v with listenerHandle := some j }, ?_, .inl rfl⟩
        rw [State.store]
        simp only [hv]
        exact Store.find_insert_self _ _ _
      · have hhandle : v.listenerHandle = some j := by
          rcases hknown with hhandle | hstoring
          · exact hhandle
          · cases hmain.symm.trans hstoring
            exact absurd rfl hb
        refine ⟨b, v, ?_, .inl hhandle⟩
        rw [State.store]
        simp only
        split
        · exact (Store.find_insert_of_ne _ _ hb).trans hv
        · exact hv
    · exact .inr (.inl (hcut.step hs))
    · exact .inr (.inr (hdropped.step hs))
  sending b k hb := by cases hb

lemma accounted_calm {ev : Event} (h : Accounted s₀ events s) (hinv : Inv s)
    (hactive : Active s) (hr : Run Step s₀ events s) (hs : Step s ev t) (hcalm : Calm s t)
    (hkept : ∀ a i, s.main = .storing a i → t.main = .storing a i ∨ ev = .abort) :
    Accounted s₀ (events ++ [ev]) t where
  listener i l' hl' hlive := by
    obtain ⟨l, hl, hsocket, hsource, hlive', haborting, -⟩ := hcalm.before i l' hl'
    rcases h.listener i l hl (hlive' hlive) with (ha | ⟨a, v, hv, hhandle | hstoring⟩) | hcut | hdropped
    · exact .inl (.inl (haborting ha))
    · cases hfind : t.sessions.find a with
      | some w =>
        obtain rfl : v = w := Option.some.inj (hv.symm.trans (hcalm.sessions a w hfind))
        exact .inl (.inr ⟨a, v, hfind, .inl hhandle⟩)
      | none =>
        rcases told_or_dropped hr hs hv hhandle hfind hl' with ha | hdropped
        · exact .inl (.inl ha)
        · exact .inr (.inr hdropped)
    · rcases hkept a i hstoring with hmain | rfl
      · cases hfind : t.sessions.find a with
        | some w => exact .inl (.inr ⟨a, w, hfind, .inr hmain⟩)
        | none =>
          have hstarting : Starting s a l.socket := .inr ⟨i, l, hstoring, hl, rfl⟩
          have hsome : s.sessions.find a ≠ none := by simp [hv]
          obtain rfl : l.source = a :=
            Option.some.inj ((hinv.listener i l hl).symm.trans (hstarting.opened hinv hsome))
          rw [← hsocket, ← hsource]
          exact .inr (.inl (cutOff_of_gone hr hactive hstarting hs (by rw [hmain]; rfl) hsome hfind))
      · exact .inr (.inr (dropped_of_aborted hr hs hstoring))
    · rw [← hsocket, ← hsource]
      exact .inr (.inl (hcut.step hs))
    · exact .inr (.inr (hdropped.step hs))
  sending a k hmain hnone := by
    have hwas := hcalm.sending a k true hmain
    cases hv : s.sessions.find a with
    | none => exact (h.sending a k hwas hv).step hs
    | some v =>
      exact cutOff_of_gone hr hactive (.inl hwas) hs (by rw [hmain]; rfl) (by simp [hv]) hnone

lemma accounted_step {ev : Event} (h : Accounted s₀ events s) (hinv : Inv s) (hactive : Active s)
    (hhandles : Handles s) (hr : Run Step s₀ events s) (hs : Step s ev t) :
    Accounted s₀ (events ++ [ev]) t := by
  rcases step_cases hs with ⟨a, opens, hmain, rfl⟩ | ⟨a, k, need, ok, hmain, rfl⟩ |
    ⟨a, i, hmain, rfl⟩ | ⟨hcalm, hkept⟩
  · exact accounted_enter h hr hmain hs
  · exact accounted_sent h hmain hs
  · exact accounted_store h hinv hhandles hmain hs
  · exact accounted_calm h hinv hactive hr hs hcalm hkept

end Steps

structure Course (s₀ : State) (events : List Event) (s : State) : Prop where
  run : Run Step s₀ events s
  inv : Inv s
  active : Active s
  handles : Handles s
  accounted : Accounted s₀ events s

lemma course_of_run {side : Side} {now : ℕ} {events : List Event} {s : State}
    (hr : Run Step (.start side now) events s) : Course (.start side now) events s := by
  refine hr.history (H := Course (.start side now)) ?_ fun bs s ev t h hs => ?_
  · refine ⟨.nil _, inv_start side now, active_start side now, handles_start side now, ?_, ?_⟩
    · intro i l hl
      cases hl
    · intro a k hmain
      cases hmain
  · exact ⟨h.run.append (.single hs), inv_step h.inv hs, active_step h.active hs,
      handles_step h.handles h.inv hs, accounted_step h.accounted h.inv h.active h.handles h.run hs⟩

lemma CutOff.lost {side : Side} {now : ℕ} {events : List Event} {s : State} {a : SocketAddr}
    {k : ℕ} (h : CutOff (.start side now) events s a k) : Lost s k := by
  obtain ⟨before, after, u, w, -, hbefore, hevict, hafter, hstarting, hsome, hnone, -⟩ := h
  have hu := course_of_run hbefore
  have hlost := lost_of_starting hstarting hu.inv hu.handles hevict hsome hnone
  have hw : Inv w ∧ Handles w ∧ Lost w k :=
    ⟨inv_step hu.inv hevict, handles_step hu.handles hu.inv hevict, hlost⟩
  refine (hafter.invariant (I := fun s => Inv s ∧ Handles s ∧ Lost s k) hw ?_).2.2
  rintro s ev t ⟨hinv, hhandles, hlost⟩ hs
  exact ⟨inv_step hinv hs, handles_step hhandles hinv hs, lost_step hlost hhandles hs⟩

lemma Dropped.unheld {side : Side} {now : ℕ} {events : List Event} {s : State} {i : ℕ}
    (h : Dropped (.start side now) events s i) : Unheld s i := by
  obtain ⟨before, after, ev, u, w, -, hbefore, hdrop, hafter, hrest⟩ := h
  have hu := course_of_run hbefore
  have hw := unheld_of_dropped hu.inv hu.handles (handles_step hu.handles hu.inv hdrop) hdrop hrest
  exact hafter.invariant hw fun _ _ _ h hs => unheld_step h hs

/-- A running listener was not told to stop, and nothing is left to tell it, exactly when the timer
evicted its session while it was being started, or its handle was dropped with the loop or with the
sessions. Once the sessions are gone, these are the ones that go on. -/
theorem listeners_cut_off_iff {side : Side} {now : ℕ} {events : List Event} {s : State}
    (hr : Run Step (.start side now) events s) {i : ℕ} {l : Listener}
    (hl : s.listeners[i]? = some l) (hlive : l.Live) :
    (¬Kept s i l ↔ CutOff (.start side now) events s l.source l.socket ∨
        Dropped (.start side now) events s i) ∧
      (s.Cleared → (l.aborting = false ↔ CutOff (.start side now) events s l.source l.socket ∨
        Dropped (.start side now) events s i)) := by
  have hcourse := course_of_run hr
  have hiff : ¬Kept s i l ↔ CutOff (.start side now) events s l.source l.socket ∨
      Dropped (.start side now) events s i := by
    constructor
    · intro hkept
      exact (hcourse.accounted.listener i l hl hlive).resolve_left hkept
    · rintro (hcut | hdropped)
      · exact hcut.lost.not_kept hcourse.inv hcourse.handles hl hlive rfl
      · exact hdropped.unheld.not_kept hl
  refine ⟨hiff, fun hcleared => ?_⟩
  rw [← hiff, Kept, not_or, Bool.not_eq_true]
  refine (and_iff_left ?_).symm
  rintro ⟨a, v, hv, -⟩
  rw [hcourse.handles.cleared hcleared a] at hv
  cases hv

def slowSend : List Event :=
  [.receive source, .enter true, .elapse ttl, .evict, .sent true, .store, .stop, .drain]

lemma step_evict_single {s : State} {a : SocketAddr} {v : Session} {tick : ℕ}
    (hsessions : s.sessions = Store.empty.insert a v) (hhandle : v.listenerHandle = none)
    (hlisteners : s.listeners = []) (hstale : v.lastActive + ttl ≤ s.now)
    (htimer : s.timer = some tick) (hdue : tick ≤ s.now) :
    Step s .evict { s with
      sessions := .empty, timer := some (tick + evictTimerSecs * second)
      log := s.log ++ [.evicted v.socket s.now] } := by
  have henumerates : s.sessions.Enumerates [(a, v)] := by
    rw [hsessions]
    exact Store.enumerates_single a v
  refine (Step.evict htimer hdue henumerates).to ?_
  have hentries : ([(a, v)].filter fun e => s.stale e.2) = [(a, v)] := by
    rw [List.filter_cons_of_pos (by exact (stale_iff v).mpr hstale), List.filter_nil]
  have herase : (Store.empty : Store SocketAddr Session).erase a = .empty :=
    Store.erase_of_find (Store.find_empty a)
  simp [State.evict, State.remove, State.abort, hentries, hsessions, hhandle, hlisteners,
    Store.eraseAll_cons, herase]

lemma exists_slowSend : ∃ s, Run Step (.start .localUdp 0) slowSend s ∧ s.main = .returned ∧
    s.listeners = [{ socket := 0, source, phase := .receiving, aborting := false }] := by
  let s₁ : State := { State.start .localUdp 0 with main := .locking source }
  let s₂ : State := s₁.enter source true
  let s₃ : State := { s₂ with now := s₂.now + ttl }
  have htimer : s₃.timer = some 0 := rfl
  have hevict := step_evict_single (s := s₃) rfl rfl rfl le_rfl htimer (Nat.zero_le _)
  exact ⟨_, .cons (.receive source rfl) (.cons (.enter true rfl) (.cons (.elapse s₂ ttl)
    (.cons hevict (.cons (.sent true rfl) (.cons (.store rfl) (.cons (.stop rfl)
    (.single (.drain rfl Store.enumerates_empty)))))))), rfl, rfl⟩

def abandoned : List Event := opening ++ [.abort, .stopTimer]

theorem slow_send_cut_off :
    (∃ s, Run Step (.start .localUdp 0) slowSend s ∧ s.main = .returned ∧
      (CutOff (.start .localUdp 0) slowSend s source 0 ∨
        Dropped (.start .localUdp 0) slowSend s 0)) ∧
      ∃ (s : State) (l : Listener), Run Step (.start .localUdp 0) abandoned s ∧
        s.listeners[0]? = some l ∧ l.phase = .receiving ∧ l.aborting = false ∧ ¬Kept s 0 l := by
  constructor
  · obtain ⟨s, hr, hmain, hlisteners⟩ := exists_slowSend
    have hl : s.listeners[0]? =
        some { socket := 0, source, phase := .receiving, aborting := false } := by
      rw [hlisteners]
      rfl
    have hcut := (listeners_cut_off_iff hr hl (by simp [Listener.Live])).2 (.inl hmain)
    exact ⟨s, hr, hmain, hcut.mp rfl⟩
  · let u : State := { silent .localUdp 0 0 openingLog with main := .aborted }.release
    let w : State := { u with timer := none }.release
    have hu : Run Step (.start .localUdp 0) (opening ++ [.abort]) u :=
      (run_opening .localUdp).append (.single (.abort rfl))
    have hw : Step u .stopTimer w := .stopTimer
    have hr : Run Step (.start .localUdp 0) abandoned w := by
      have hboth := hu.append (.single hw)
      rwa [List.append_assoc] at hboth
    have hdropped : Dropped (.start .localUdp 0) abandoned w 0 :=
      ⟨opening ++ [.abort], [], .stopTimer, u, w, rfl, hu, hw, .nil w,
        .inr ⟨by simp, rfl, rfl, source, _, Store.find_insert_self _ _ _, rfl⟩⟩
    have hkept := (listeners_cut_off_iff (i := 0) hr rfl (by simp [Listener.Live])).1.mpr
      (.inr hdropped)
    exact ⟨w, _, hr, rfl, rfl, rfl, hkept⟩

end Yggstack.Forward.Udp
