import Yggstack.Library.Runs
import Yggstack.Library.Tables
import Yggstack.Mobile.Addresses

/-! The ping sessions of a node under overlapping calls. A step of a call is what it does under one
hold of a lock. How a session goes on is left open, but for its end. -/

namespace Yggstack.Mobile

open Library

-- `told` is the watch channel's value, and `dropped` is set when its sender is gone.
structure PingSession where
  told : Bool
  dropped : Bool
  ended : Bool
  deriving DecidableEq

inductive PingRequest where
  | startPing (address : String)
  | stopPing
  | stop

inductive PingError where
  | config (message : String)
  | notRunning (message : String)

inductive PingPc where
  | entered
  | taking
  | taken (i : ℕ)
  | joining (i : ℕ)
  | stopped
  | storing (i : ℕ)
  | done (result : Except PingError Unit)

structure PingCall where
  request : PingRequest
  pc : PingPc

structure Pings where
  running : Bool
  ping : Option ℕ
  sessions : List PingSession
  calls : List PingCall

namespace Pings

-- A session can end at any moment; an abort after the grace of two seconds is one way.
inductive Action where
  | started
  | begin (request : PingRequest)
  | call (c : ℕ)
  | ended (i : ℕ)

variable (w : Pings)

def initial : Pings := ⟨false, none, [], []⟩

def goto (c : ℕ) (pc : PingPc) : Pings :=
  { w with calls := w.calls.modify c fun call => { call with pc } }

def session (i : ℕ) (f : PingSession → PingSession) : Pings :=
  { w with sessions := w.sessions.modify i f }

def startChecked (c : ℕ) (address : String) : Pings :=
  match pingTarget address with
  | .error message => w.goto c (.done (.error (.config message)))
  | .ok _ =>
    if w.running then w.goto c .taking
    else w.goto c (.done (.error (.notRunning "not running")))

def take (c : ℕ) : Pings :=
  match w.ping with
  | none => w.goto c .stopped
  | some i => { w with ping := none }.goto c (.taken i)

def afterStop (c : ℕ) : PingRequest → Pings
  | .startPing _ =>
    let s : PingSession := { told := false, dropped := false, ended := false }
    { w with sessions := w.sessions ++ [s] }.goto c (.storing w.sessions.length)
  | .stopPing => w.goto c (.done (.ok ()))
  | .stop => { w with running := false }.goto c (.done (.ok ()))

def store (c i : ℕ) : Pings :=
  let w := w.ping.elim w fun j => w.session j fun s => { s with dropped := true }
  { w with ping := some i }.goto c (.done (.ok ()))

def Ended (i : ℕ) : Prop := ∃ s : PingSession, w.sessions[i]? = some s ∧ s.ended = true

instance (i : ℕ) : Decidable (w.Ended i) :=
  decidable_of_iff ((w.sessions[i]?).any PingSession.ended = true)
    (by simp [Ended, Option.any_eq_true])

def callStep (c : ℕ) (call : PingCall) : Option Pings :=
  match call.pc with
  | .entered =>
    match call.request with
    | .startPing address => some (w.startChecked c address)
    | .stopPing | .stop => some (w.goto c .taking)
  | .taking => some (w.take c)
  | .taken i => some ((w.session i fun s => { s with told := true }).goto c (.joining i))
  | .joining i => if w.Ended i then some (w.goto c .stopped) else none
  | .stopped => some (w.afterStop c call.request)
  | .storing i => some (w.store c i)
  | .done _ => none

def exec : Action → Option Pings
  | .started => some { w with running := true }
  | .begin request => some { w with calls := w.calls ++ [⟨request, .entered⟩] }
  | .call c => (w.calls[c]?).bind (w.callStep c)
  | .ended i => some (w.session i fun s => { s with ended := true })

def Step (w : Pings) (a : Action) (w' : Pings) : Prop := w.exec a = some w'

def Reachable : Prop := ∃ actions, Run Step initial actions w

end Pings

def PingPc.session? : PingPc → Option ℕ
  | .taken i | .joining i | .storing i => some i
  | _ => none

def PingPc.tells : PingPc → Bool
  | .joining _ => false
  | _ => true

def PingPc.isDone : PingPc → Bool
  | .done _ => true
  | _ => false

def PingPc.emptied : PingPc → Bool
  | .taken _ | .joining _ | .stopped | .storing _ => true
  | _ => false

lemma PingPc.session?_of_isDone {pc : PingPc} (h : pc.isDone = true) : pc.session? = none := by
  cases pc with
  | done r => rfl
  | _ => cases h

lemma PingPc.isDone_of_session? {pc : PingPc} {i : ℕ} (h : pc.session? = some i) :
    pc.isDone = false := by
  cases pc with
  | done r => cases h
  | _ => rfl

lemma PingPc.isDone_of_emptied {pc : PingPc} (h : pc.emptied = true) : pc.isDone = false := by
  cases pc with
  | done r => cases h
  | _ => rfl

namespace Pings

variable {w w' : Pings} {a : Action} {c d i : ℕ} {call : PingCall} {pc : PingPc} {s : PingSession}

lemma calls_goto (h : w.calls[c]? = some call) (w₁ : Pings) (hcalls : w₁.calls = w.calls) :
    (w₁.goto c pc).calls = w.calls.set c { call with pc } := by
  rw [goto, hcalls]
  exact modify_eq_set h

lemma startChecked_eq (w : Pings) (c : ℕ) (address : String) :
    ∃ pc : PingPc, w.startChecked c address = w.goto c pc ∧ pc.session? = none ∧
      pc.emptied = false := by
  unfold startChecked
  cases pingTarget address with
  | error message => exact ⟨_, rfl, rfl, rfl⟩
  | ok dst =>
    simp only
    split
    · exact ⟨_, rfl, rfl, rfl⟩
    · exact ⟨_, rfl, rfl, rfl⟩

inductive Moved (w : Pings) : Action → Pings → Prop
  | started {a : Action} {w' : Pings} : w'.ping = w.ping → w'.sessions = w.sessions →
      w'.calls = w.calls → Moved w a w'
  | begun (request : PingRequest) :
      Moved w (.begin request) { w with calls := w.calls ++ [⟨request, .entered⟩] }
  | ended (i : ℕ) : Moved w (.ended i) (w.session i fun s => { s with ended := true })
  | passed {c : ℕ} {call : PingCall} {pc : PingPc} {w' : Pings} : w.calls[c]? = some call →
      call.pc.isDone = false → (∀ i, call.pc.session? = some i → w.Ended i) →
      pc.session? = none → (pc.emptied = true → w.ping = none ∨ call.pc.emptied = true) →
      w'.ping = w.ping → w'.sessions = w.sessions →
      w'.calls = w.calls.set c { call with pc } → Moved w (.call c) w'
  | took {c i : ℕ} {call : PingCall} {w' : Pings} : w.calls[c]? = some call →
      call.pc = .taking → w.ping = some i → w'.ping = none → w'.sessions = w.sessions →
      w'.calls = w.calls.set c { call with pc := .taken i } → Moved w (.call c) w'
  | told {c i : ℕ} {call : PingCall} {w' : Pings} : w.calls[c]? = some call →
      call.pc = .taken i → w'.ping = w.ping →
      w'.sessions = w.sessions.modify i (fun s => { s with told := true }) →
      w'.calls = w.calls.set c { call with pc := .joining i } → Moved w (.call c) w'
  | spawned {c : ℕ} {call : PingCall} {w' : Pings} : w.calls[c]? = some call →
      call.pc = .stopped → w'.ping = w.ping →
      w'.sessions = w.sessions ++ [{ told := false, dropped := false, ended := false }] →
      w'.calls = w.calls.set c { call with pc := .storing w.sessions.length } →
      Moved w (.call c) w'
  | stored {c i : ℕ} {call : PingCall} {w' : Pings} : w.calls[c]? = some call →
      call.pc = .storing i → w'.ping = some i →
      (w.ping = none ∧ w'.sessions = w.sessions ∨ ∃ j, w.ping = some j ∧
        w'.sessions = w.sessions.modify j fun s => { s with dropped := true }) →
      w'.calls = w.calls.set c { call with pc := .done (.ok ()) } → Moved w (.call c) w'

lemma moved_of_step (h : Step w a w') : Moved w a w' := by
  rw [Step] at h
  cases a with
  | started =>
    cases h
    exact .started rfl rfl rfl
  | begin request =>
    cases h
    exact .begun request
  | ended i =>
    cases h
    exact .ended i
  | call c =>
    obtain ⟨call, hc, h⟩ := Option.bind_eq_some_iff.mp h
    have pass {pc : PingPc} (hdone : call.pc.isDone = false)
        (hended : ∀ i, call.pc.session? = some i → w.Ended i) (hpc : pc.session? = none)
        (hempty : pc.emptied = true → w.ping = none ∨ call.pc.emptied = true)
        {w₁ : Pings} (hping : w₁.ping = w.ping) (hsessions : w₁.sessions = w.sessions)
        (hcalls : w₁.calls = w.calls) : Moved w (.call c) (w₁.goto c pc) :=
      .passed hc hdone hended hpc hempty hping hsessions (calls_goto hc w₁ hcalls)
    cases hpc : call.pc with
    | entered =>
      simp only [callStep, hpc] at h
      have hnone : ∀ i, call.pc.session? = some i → w.Ended i := by rw [hpc]; nofun
      split at h
      · next address _ =>
        obtain rfl := Option.some.inj h
        obtain ⟨pc, hgoto, hsession, hempty⟩ := startChecked_eq w c address
        rw [hgoto]
        exact pass (by rw [hpc]; rfl) hnone hsession (by simp [hempty]) rfl rfl rfl
      all_goals
        obtain rfl := Option.some.inj h
        exact pass (by rw [hpc]; rfl) hnone rfl (fun he => by cases he) rfl rfl rfl
    | taking =>
      simp only [callStep, hpc] at h
      cases h
      rw [take]
      split
      · next hping =>
        exact pass (by rw [hpc]; rfl) (by rw [hpc]; nofun) rfl (fun _ => .inl hping) rfl rfl rfl
      · next i hping => exact .took hc hpc hping rfl rfl (calls_goto hc _ rfl)
    | taken i =>
      simp only [callStep, hpc] at h
      cases h
      exact .told hc hpc rfl rfl (calls_goto hc _ rfl)
    | joining i =>
      simp only [callStep, hpc] at h
      split at h
      · next hended =>
        cases h
        refine pass (by rw [hpc]; rfl) (fun j hj => ?_) rfl (fun _ => .inr (by rw [hpc]; rfl)) rfl
          rfl rfl
        rw [hpc] at hj
        cases hj
        exact hended
      · cases h
    | stopped =>
      simp only [callStep, hpc] at h
      cases h
      cases hr : call.request with
      | startPing address => exact .spawned hc hpc rfl rfl (calls_goto hc _ rfl)
      | stopPing | stop =>
        exact pass (by rw [hpc]; rfl) (by rw [hpc]; nofun) rfl (fun he => by cases he) rfl rfl rfl
    | storing i =>
      simp only [callStep, hpc] at h
      cases h
      rw [store]
      cases hping : w.ping with
      | none => exact .stored hc hpc rfl (.inl ⟨hping, rfl⟩) (calls_goto hc _ rfl)
      | some j => exact .stored hc hpc rfl (.inr ⟨j, hping, rfl⟩) (calls_goto hc _ rfl)
    | done r => simp only [callStep, hpc] at h; cases h

def Kept (w : Pings) (p : PingPc → Bool) (i : ℕ) : Prop :=
  w.ping = some i ∨ ∃ (c : ℕ) (call : PingCall), w.calls[c]? = some call ∧
    call.pc.session? = some i ∧ p call.pc = true

lemma Kept.begin {p : PingPc → Bool} (h : w.Kept p i) (request : PingRequest) :
    Kept { w with calls := w.calls ++ [⟨request, .entered⟩] } p i := by
  rcases h with hp | ⟨c, call, hc, hcall⟩
  · exact .inl hp
  · exact .inr ⟨c, call, getElem?_snoc_of_some hc, hcall⟩

lemma Kept.step {p : PingPc → Bool} (h : w.Kept p i) (hc : w.calls[c]? = some call)
    (hcalls : w'.calls = w.calls.set c { call with pc })
    (hslot : w.ping = some i → w'.Kept p i) (hself : call.pc.session? = some i →
      p call.pc = true → w'.Kept p i) : w'.Kept p i := by
  rcases h with hp | ⟨d, other, hd, hi, hpd⟩
  · exact hslot hp
  · by_cases hdc : d = c
    · subst hdc
      rw [hc] at hd
      cases hd
      exact hself hi hpd
    · exact .inr ⟨d, other, by rw [hcalls, List.getElem?_set_ne (Ne.symm hdc), hd], hi, hpd⟩

lemma kept_self {p : PingPc → Bool} (hc : w.calls[c]? = some call)
    (hcalls : w'.calls = w.calls.set c { call with pc }) (hi : pc.session? = some i)
    (hp : p pc = true) : w'.Kept p i :=
  .inr ⟨c, { call with pc }, by rw [hcalls, getElem?_change_self hc], hi, hp⟩

def Untold (w : Pings) (i : ℕ) : Prop :=
  ∃ s : PingSession, w.sessions[i]? = some s ∧ s.ended = false ∧ s.told = false ∧ s.dropped = false

lemma untold_modify {j : ℕ} {f : PingSession → PingSession}
    (hsessions : w'.sessions = w.sessions.modify j f)
    (hf : ∀ s, (f s).ended = false → (f s).told = false → (f s).dropped = false → False)
    (h : w'.Untold i) : w.Untold i ∧ i ≠ j := by
  obtain ⟨s, hs, hended, htold, hdropped⟩ := h
  rw [hsessions, List.getElem?_modify] at hs
  obtain ⟨s₀, hs₀, he⟩ := Option.map_eq_some_iff.mp hs
  split at he
  · subst he
    exact absurd hdropped fun hd => hf _ hended htold hd
  · next hne =>
    subst he
    exact ⟨⟨s₀, hs₀, hended, htold, hdropped⟩, Ne.symm hne⟩

lemma untold_step (h : ∀ i, w.Untold i → w.Kept PingPc.tells i) (hs : Step w a w') :
    ∀ i, w'.Untold i → w'.Kept PingPc.tells i := by
  intro i hi
  cases moved_of_step hs with
  | started hping hsessions hcalls =>
    have hold : w.Untold i := by rwa [Untold, ← hsessions]
    rw [Kept, hping, hcalls]
    exact h i hold
  | begun request => exact (h i hi).begin request
  | ended j => exact h i (untold_modify rfl (fun s he => by cases he) hi).1
  | @passed c call pc _ hc _ hended hpc _ hping hsessions hcalls =>
    obtain ⟨s, hs, hlive⟩ := hi
    rw [hsessions] at hs
    refine (h i ⟨s, hs, hlive⟩).step hc hcalls (fun hp => .inl (hping.trans hp)) fun hself _ => ?_
    obtain ⟨s', hs', he⟩ := hended i hself
    rw [hs] at hs'
    cases hs'
    rw [hlive.1] at he
    cases he
  | @took c j call _ hc hpc hj hping hsessions hcalls =>
    have hold : w.Untold i := by rwa [Untold, ← hsessions]
    refine (h i hold).step hc hcalls (fun hp => ?_) fun hself => by rw [hpc] at hself; cases hself
    rw [hj] at hp
    cases hp
    exact kept_self hc hcalls rfl rfl
  | @told c j call _ hc hpc hping hsessions hcalls =>
    obtain ⟨hold, hne⟩ := untold_modify hsessions (fun s _ ht => by cases ht) hi
    refine (h i hold).step hc hcalls (fun hp => .inl (hping.trans hp)) fun hself _ => ?_
    rw [hpc] at hself
    exact absurd (Option.some.inj hself).symm hne
  | @spawned c call _ hc hpc hping hsessions hcalls =>
    obtain ⟨s, hs, hlive⟩ := hi
    rw [hsessions] at hs
    rcases getElem?_snoc hs with hs | ⟨rfl, -⟩
    · refine (h i ⟨s, hs, hlive⟩).step hc hcalls (fun hp => .inl (hping.trans hp)) fun hself => ?_
      rw [hpc] at hself
      cases hself
    · exact kept_self hc hcalls rfl rfl
  | @stored c j call _ hc hpc hping hsessions hcalls =>
    by_cases hij : i = j
    · exact .inl (hij ▸ hping)
    · rcases hsessions with ⟨hnone, hsessions⟩ | ⟨k, hk, hsessions⟩
      · have hold : w.Untold i := by rwa [Untold, ← hsessions]
        refine (h i hold).step hc hcalls (fun hp => ?_) fun hself _ => ?_
        · rw [hnone] at hp
          cases hp
        · rw [hpc] at hself
          exact absurd (Option.some.inj hself).symm hij
      · obtain ⟨hold, hne⟩ := untold_modify hsessions (fun s _ _ hd => by cases hd) hi
        refine (h i hold).step hc hcalls (fun hp => ?_) fun hself _ => ?_
        · rw [hk] at hp
          exact absurd (Option.some.inj hp).symm hne
        · rw [hpc] at hself
          exact absurd (Option.some.inj hself).symm hij

/-- However the calls overlap: once they have all returned, every session but the recorded one has
ended or has been told to. -/
theorem untold_session_recorded (h : w.Reachable)
    (hdone : ∀ call ∈ w.calls, call.pc.isDone = true) (hi : w.Untold i) : w.ping = some i := by
  obtain ⟨actions, hrun⟩ := h
  have hinv : ∀ i, w.Untold i → w.Kept PingPc.tells i := by
    refine hrun.invariant (I := fun w => ∀ i, w.Untold i → w.Kept PingPc.tells i) ?_
      fun _ _ _ => untold_step
    rintro i ⟨s, hs, -⟩
    cases hs
  rcases hinv i hi with hp | ⟨c, call, hc, hsession, -⟩
  · exact hp
  · rw [PingPc.session?_of_isDone (hdone call (List.mem_of_getElem? hc))] at hsession
    cases hsession

def OneByOne (w : Pings) (a : Action) : Prop :=
  ∀ request, a = .begin request → ∀ call ∈ w.calls, call.pc.isDone = true

lemma startChecked_of_target {dst : BitVec 128} {address : String} (h : pingTarget address = .ok dst)
    (hr : w.running = true) : w.startChecked c address = w.goto c .taking := by
  unfold startChecked
  rw [h]
  exact if_pos hr

def pinging : Pings :=
  ⟨true, some 0, [⟨false, false, false⟩], [⟨.startPing "200::1", .done (.ok ())⟩]⟩

lemma in_turn (hs : Step w a w') (ha : ∀ request, a ≠ .begin request) :
    Step w a w' ∧ OneByOne w a := ⟨hs, fun request he => absurd he (ha request)⟩

lemma pinging_run : Run (fun w a w' => Step w a w' ∧ OneByOne w a) initial
    [.started, .begin (.startPing "200::1"), .call 0, .call 0, .call 0, .call 0] pinging := by
  have htarget : pingTarget "200::1" = .ok (0x200 <<< 112 + 1) := rfl
  have hchecked : Step ⟨true, none, [], [⟨.startPing "200::1", .entered⟩]⟩ (.call 0)
      ⟨true, none, [], [⟨.startPing "200::1", .taking⟩]⟩ :=
    congrArg some (startChecked_of_target htarget rfl)
  exact .cons (in_turn rfl nofun) <|
    .cons ⟨rfl, fun _ _ _ hm => absurd hm List.not_mem_nil⟩ <| .cons (in_turn hchecked nofun) <|
    .cons (in_turn rfl nofun) <| .cons (in_turn rfl nofun) <| .cons (in_turn rfl nofun) <| .nil _

def startBoth : List Action := [.started, .begin (.startPing "200::1"), .begin (.startPing "200::1"),
  .call 0, .call 1, .call 0, .call 1, .call 0, .call 1, .call 0, .call 1]

lemma startBoth_run : ∃ w, Run Step initial startBoth w ∧
    w.sessions = [⟨false, true, false⟩, ⟨false, false, false⟩] ∧
    ∀ call ∈ w.calls, call.pc.isDone = true := by
  have htarget : pingTarget "200::1" = .ok (0x200 <<< 112 + 1) := rfl
  have hfirst : Step
      ⟨true, none, [], [⟨.startPing "200::1", .entered⟩, ⟨.startPing "200::1", .entered⟩]⟩ (.call 0)
      ⟨true, none, [], [⟨.startPing "200::1", .taking⟩, ⟨.startPing "200::1", .entered⟩]⟩ :=
    congrArg some (startChecked_of_target htarget rfl)
  have hsecond : Step
      ⟨true, none, [], [⟨.startPing "200::1", .taking⟩, ⟨.startPing "200::1", .entered⟩]⟩ (.call 1)
      ⟨true, none, [], [⟨.startPing "200::1", .taking⟩, ⟨.startPing "200::1", .taking⟩]⟩ :=
    congrArg some (startChecked_of_target htarget rfl)
  refine ⟨_, .cons rfl <| .cons rfl <| .cons rfl <| .cons hfirst <| .cons hsecond <| .cons rfl <|
    .cons rfl <| .cons rfl <| .cons rfl <| .cons rfl <| .cons rfl <| .nil _, rfl, ?_⟩
  intro call hcall
  rcases List.mem_pair.mp hcall with rfl | rfl <;> rfl

theorem started_session_recorded : ∃ w, Run Step initial startBoth w ∧ w.Untold 1 ∧
    ¬w.Untold 0 ∧ w.ping = some 1 := by
  obtain ⟨w, hrun, hsessions, hdone⟩ := startBoth_run
  have hi : w.Untold 1 := ⟨⟨false, false, false⟩, by rw [hsessions]; rfl, rfl, rfl, rfl⟩
  refine ⟨w, hrun, hi, ?_, untold_session_recorded ⟨_, hrun⟩ hdone hi⟩
  rintro ⟨s, hs, -, -, hdropped⟩
  rw [hsessions] at hs
  cases hs
  cases hdropped

structure InTurn (w : Pings) : Prop where
  joined : ∀ (i : ℕ) (s : PingSession), w.sessions[i]? = some s → s.ended = false →
    w.Kept (fun _ => true) i
  alone : ∀ (c d : ℕ) (call call' : PingCall), w.calls[c]? = some call → w.calls[d]? = some call' →
    call.pc.isDone = false → call'.pc.isDone = false → c = d
  empty : ∀ (c : ℕ) (call : PingCall), w.calls[c]? = some call → call.pc.emptied = true →
    w.ping = none

lemma InTurn.goes (h : w.InTurn) (hc : w.calls[c]? = some call) (hdone : call.pc.isDone = false)
    (hcalls : w'.calls = w.calls.set c { call with pc })
    (hempty : pc.emptied = true → w'.ping = none)
    (hjoined : ∀ (i : ℕ) (s : PingSession), w'.sessions[i]? = some s → s.ended = false →
      w'.Kept (fun _ => true) i) : w'.InTurn := by
  have hback {d : ℕ} {other : PingCall} (hd : w'.calls[d]? = some other)
      (hother : other.pc.isDone = false) : d = c := by
    rw [hcalls] at hd
    rcases getElem?_change hd with ⟨hdc, -⟩ | ⟨-, hd⟩
    · exact hdc
    · exact h.alone d c other call hd hc hother hdone
  refine ⟨hjoined, fun d e x y hd he hx hy => (hback hd hx).trans (hback he hy).symm, ?_⟩
  intro d other hd hother
  obtain rfl := hback hd (PingPc.isDone_of_emptied hother)
  rw [hcalls, getElem?_change_self hc] at hd
  cases hd
  exact hempty hother

lemma live_modify {j : ℕ} {f : PingSession → PingSession} (hf : ∀ s, (f s).ended = false →
    s.ended = false) (hs : (w.sessions.modify j f)[i]? = some s) (he : s.ended = false) :
    ∃ s₀ : PingSession, w.sessions[i]? = some s₀ ∧ s₀.ended = false := by
  rw [List.getElem?_modify] at hs
  obtain ⟨s₀, hs₀, hfs⟩ := Option.map_eq_some_iff.mp hs
  refine ⟨s₀, hs₀, ?_⟩
  split at hfs
  · exact hf s₀ (hfs ▸ he)
  · exact hfs ▸ he

lemma inTurn_step (h : w.InTurn) (hs : Step w a w') (hone : OneByOne w a) : w'.InTurn := by
  cases moved_of_step hs with
  | started hping hsessions hcalls =>
    refine ⟨?_, ?_, ?_⟩
    · intro i s hs he
      rw [Kept, hping, hcalls]
      exact h.joined i s (hsessions ▸ hs) he
    · rw [hcalls]
      exact h.alone
    · rw [hcalls, hping]
      exact h.empty
  | begun request =>
    have hdone := hone request rfl
    have hlast {d : ℕ} {other : PingCall}
        (hd : (w.calls ++ [⟨request, .entered⟩])[d]? = some other)
        (hother : other.pc.isDone = false) : d = w.calls.length ∧ other = ⟨request, .entered⟩ := by
      rcases getElem?_snoc hd with hd | hd
      · rw [hdone other (List.mem_of_getElem? hd)] at hother
        cases hother
      · exact hd
    refine ⟨fun i s hs he => (h.joined i s hs he).begin request, ?_, ?_⟩
    · intro c d x y hc hd hx hy
      exact (hlast hc hx).1.trans (hlast hd hy).1.symm
    · intro c call hc hcall
      obtain ⟨-, rfl⟩ := hlast hc (PingPc.isDone_of_emptied hcall)
      cases hcall
  | ended j =>
    refine ⟨fun i s hs he => ?_, h.alone, h.empty⟩
    obtain ⟨s₀, hs₀, he₀⟩ := live_modify (fun s hs => by cases hs) hs he
    exact h.joined i s₀ hs₀ he₀
  | @passed c call pc _ hc hdone hended hpc hempty hping hsessions hcalls =>
    refine h.goes hc hdone hcalls (fun hp => ?_) fun i s hs he => ?_
    · rw [hping]
      exact (hempty hp).elim id (h.empty c call hc)
    · rw [hsessions] at hs
      refine (h.joined i s hs he).step hc hcalls (fun hp => .inl (hping.trans hp)) fun hself _ => ?_
      obtain ⟨s', hs', he'⟩ := hended i hself
      rw [hs] at hs'
      cases hs'
      rw [he] at he'
      cases he'
  | @took c j call _ hc hpc hj hping hsessions hcalls =>
    refine h.goes hc (by rw [hpc]; rfl) hcalls (fun _ => hping) fun i s hs he => ?_
    rw [hsessions] at hs
    refine (h.joined i s hs he).step hc hcalls (fun hp => ?_) fun hself => ?_
    · rw [hj] at hp
      cases hp
      exact kept_self hc hcalls rfl rfl
    · rw [hpc] at hself
      cases hself
  | @told c j call _ hc hpc hping hsessions hcalls =>
    refine h.goes hc (by rw [hpc]; rfl) hcalls
      (fun _ => hping.trans (h.empty c call hc (by rw [hpc]; rfl))) fun i s hs he => ?_
    rw [hsessions] at hs
    obtain ⟨s₀, hs₀, he₀⟩ := live_modify (f := fun s => { s with told := true }) (fun _ h => h) hs he
    refine (h.joined i s₀ hs₀ he₀).step hc hcalls (fun hp => .inl (hping.trans hp))
      fun hself _ => ?_
    rw [hpc] at hself
    cases hself
    exact kept_self hc hcalls rfl rfl
  | @spawned c call _ hc hpc hping hsessions hcalls =>
    refine h.goes hc (by rw [hpc]; rfl) hcalls
      (fun _ => hping.trans (h.empty c call hc (by rw [hpc]; rfl))) fun i s hs he => ?_
    rw [hsessions] at hs
    rcases getElem?_snoc hs with hs | ⟨rfl, -⟩
    · refine (h.joined i s hs he).step hc hcalls (fun hp => .inl (hping.trans hp)) fun hself => ?_
      rw [hpc] at hself
      cases hself
    · exact kept_self hc hcalls rfl rfl
  | @stored c j call _ hc hpc hping hsessions hcalls =>
    have hnone := h.empty c call hc (by rw [hpc]; rfl)
    refine h.goes hc (by rw [hpc]; rfl) hcalls nofun fun i s hs he => ?_
    rcases hsessions with ⟨-, hsessions⟩ | ⟨k, hk, -⟩
    · rw [hsessions] at hs
      refine (h.joined i s hs he).step hc hcalls (fun hp => ?_) fun hself _ => ?_
      · rw [hnone] at hp
        cases hp
      · rw [hpc] at hself
        cases hself
        exact .inl hping
    · rw [hnone] at hk
      cases hk

/-- While the calls come one by one, no session runs any more when `stop_ping` is through, whether
it was called by itself, by `stop`, or to make room for the next session. -/
theorem sessions_joined_in_turn {actions : List Action}
    (hrun : Run (fun w a w' => Step w a w' ∧ OneByOne w a) initial actions w)
    (hc : w.calls[c]? = some call) (hpc : call.pc = .stopped) :
    ∀ s ∈ w.sessions, s.ended = true := by
  have hinv : w.InTurn := by
    refine hrun.invariant ⟨?_, ?_, ?_⟩ fun _ _ _ hw hs => inTurn_step hw hs.1 hs.2
    · intro i s hs
      cases hs
    · intro c d x y hx
      cases hx
    · intro c x hx
      cases hx
  have hempty := hinv.empty c call hc (by rw [hpc]; rfl)
  intro s hs
  by_contra he
  obtain ⟨i, hi⟩ := List.mem_iff_getElem?.mp hs
  rcases hinv.joined i s hi (by simpa using he) with hp | ⟨d, other, hd, hsession, -⟩
  · rw [hempty] at hp
    cases hp
  · obtain rfl := hinv.alone d c other call hd hc (PingPc.isDone_of_session? hsession)
      (by rw [hpc]; rfl)
    rw [hc] at hd
    cases hd
    rw [hpc] at hsession
    cases hsession

theorem stopped_session_joined : ∃ actions w call,
    Run (fun w a w' => Step w a w' ∧ OneByOne w a) initial actions w ∧
      w.calls[1]? = some call ∧ call.pc = .stopped ∧ w.sessions.length = 1 ∧
      ∀ s ∈ w.sessions, s.ended = true := by
  obtain ⟨w, hrun, hc, hlen⟩ : ∃ w, Run (fun w a w' => Step w a w' ∧ OneByOne w a) pinging
      [.begin .stopPing, .call 1, .call 1, .call 1, .ended 0, .call 1] w ∧
        w.calls[1]? = some ⟨.stopPing, .stopped⟩ ∧ w.sessions.length = 1 := by
    refine ⟨_, .cons ⟨rfl, fun _ _ => ?_⟩ <| .cons (in_turn rfl nofun) <|
      .cons (in_turn rfl nofun) <| .cons (in_turn rfl nofun) <| .cons (in_turn rfl nofun) <|
      .cons (in_turn rfl nofun) <| .nil _, rfl, rfl⟩
    simp [pinging, PingPc.isDone]
  have hall := pinging_run.append hrun
  exact ⟨_, w, _, hall, hc, rfl, hlen, sessions_joined_in_turn hall hc rfl⟩

end Pings

end Yggstack.Mobile
