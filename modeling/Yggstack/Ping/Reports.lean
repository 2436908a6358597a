import Yggstack.Ping.Session

namespace Yggstack.Ping

open Library

def Numbered (probes : List Probe) : Prop :=
  ∀ i p, probes[i]? = some p → p.seq.toNat = (i + 1) % 65536 ∧
    (p.rtt.isSome ∧ p.error = none ∨ p.rtt = none ∧ p.error.isSome)

def reported (probes : List Probe) : List PingEvent := probes.map .probe

namespace Phase

def asked : Phase → ℕ
  | .sending | .waiting _ | .receiving _ _ => 1
  | .opening | .sleeping _ | .returned => 0

def inFlight : Phase → ℕ
  | .waiting _ | .receiving _ _ => 1
  | .opening | .sending | .sleeping _ | .returned => 0

end Phase

structure Running (s : Session) (probes : List Probe) : Prop where
  phase : s.phase ≠ .returned
  numbered : Numbered probes
  events : s.events = reported probes
  seq : s.seq = .ofNat (probes.length + s.phase.asked)
  sent : s.sent = .ofNat (probes.length + s.phase.inFlight)
  bound : s.params.count ≠ 0 → probes.length < s.params.count.toNat

structure Finished (s : Session) (probes : List Probe) (reason : PingDoneReason) : Prop where
  phase : s.phase = .returned
  numbered : Numbered probes
  events : s.events = reported probes ++ [.done reason]
  bound : s.params.count ≠ 0 → probes.length ≤ s.params.count.toNat
  completed : reason = .completed ↔ s.params.count ≠ 0 ∧ probes.length = s.params.count.toNat

structure Settled (s : Session) (probes : List Probe) : Prop where
  numbered : Numbered probes
  events : s.events = reported probes
  seq : s.seq = .ofNat probes.length
  sent : s.sent = .ofNat probes.length
  bound : s.params.count ≠ 0 → probes.length ≤ s.params.count.toNat

def Good (s : Session) (probes : List Probe) : Prop :=
  Running s probes ∨ ∃ reason, Finished s probes reason

variable {s t : Session} {probes : List Probe} {ev : Event}

lemma Running.finish (h : Running s probes) {reason : PingDoneReason} (hr : reason ≠ .completed) :
    Finished (s.finish reason) probes reason where
  phase := rfl
  numbered := h.numbered
  events := by rw [Session.finish, h.events]
  bound hc := (h.bound hc).le
  completed := iff_of_false hr fun hc => (h.bound hc.1).ne hc.2

lemma Settled.sent_toNat (h : Settled s probes) (hc : s.params.count ≠ 0) :
    s.sent.toNat = probes.length := by
  have hbound := h.bound hc
  have hlt := s.params.count.toNat_lt
  rw [h.sent, UInt32.toNat_ofNat', Nat.mod_eq_of_lt (by omega)]

lemma Settled.turn (h : Settled s probes) : Good s.turn probes := by
  rw [Session.turn]
  split
  · next hcount =>
    obtain ⟨hc, hle⟩ := hcount
    have hbound := h.bound hc
    rw [UInt32.le_iff_toNat_le, h.sent_toNat hc] at hle
    have hlen : probes.length = s.params.count.toNat := hbound.antisymm hle
    refine .inr ⟨.completed, rfl, h.numbered, ?_, h.bound, iff_of_true rfl ⟨hc, hlen⟩⟩
    rw [Session.finish, h.events]
  · next hcount =>
    refine .inl ⟨nofun, h.numbered, h.events, ?_, h.sent, ?_⟩
    · change s.seq + 1 = .ofNat (probes.length + 1)
      rw [h.seq, UInt16.ofNat_add]
      rfl
    · intro hc
      by_contra hge
      refine hcount ⟨hc, ?_⟩
      rw [UInt32.le_iff_toNat_le, h.sent_toNat hc]
      exact not_lt.mp hge

lemma Settled.pause (h : Settled s probes) : Good s.pause probes := by
  rw [Session.pause]
  split
  · next hcount =>
    refine .inl ⟨nofun, h.numbered, h.events, h.seq, h.sent, ?_⟩
    intro hc
    have hlt := hcount.resolve_left hc
    rwa [UInt32.lt_iff_toNat_lt, h.sent_toNat hc] at hlt
  · exact h.turn

lemma Numbered.snoc (h : Numbered probes) {p : Probe} (hseq : p.seq = .ofNat (probes.length + 1))
    (hp : p.rtt.isSome ∧ p.error = none ∨ p.rtt = none ∧ p.error.isSome) :
    Numbered (probes ++ [p]) := by
  intro i q hq
  rcases Nat.lt_or_ge i probes.length with hi | hi
  · rw [List.getElem?_append_left hi] at hq
    exact h i q hq
  · rw [List.getElem?_append_right hi, List.getElem?_singleton] at hq
    split at hq
    · next hzero =>
      cases hq
      obtain rfl : i = probes.length := by omega
      exact ⟨by rw [hseq, UInt16.toNat_ofNat'], hp⟩
    · cases hq

lemma Running.report (h : Running s probes) (hasked : s.phase.asked = 1)
    (hflight : s.phase.inFlight = 1) (rtt : Option ℕ) :
    Good (s.report rtt) (probes ++ [s.probeOf rtt]) := by
  have hseq := h.seq
  have hsent := h.sent
  rw [hasked] at hseq
  rw [hflight] at hsent
  apply Settled.pause
  refine ⟨h.numbered.snoc ?_ ?_, ?_, ?_, ?_, ?_⟩
  · cases rtt <;> exact hseq
  · cases rtt with
    | none => exact .inr ⟨rfl, rfl⟩
    | some rtt => exact .inl ⟨rfl, rfl⟩
  · rw [h.events, reported, reported, List.map_append, List.map_singleton]
  · simpa using hseq
  · simpa using hsent
  · intro hc
    rw [List.length_append, List.length_singleton]
    exact h.bound hc

lemma Running.settled (h : Running s probes) (hasked : s.phase.asked = 0)
    (hflight : s.phase.inFlight = 0) : Settled s probes where
  numbered := h.numbered
  events := h.events
  seq := by rw [h.seq, hasked, Nat.add_zero]
  sent := by rw [h.sent, hflight, Nat.add_zero]
  bound hc := (h.bound hc).le

lemma inFlight_turn : s.turn.phase.inFlight = 0 := by
  rw [Session.turn]
  split <;> rfl

lemma inFlight_pause : s.pause.phase.inFlight = 0 := by
  rw [Session.pause]
  split
  · rfl
  · exact inFlight_turn

def sends (events : List Event) : ℕ := events.count (.sent true)

def Reported (s : Session) (n : ℕ) : Prop :=
  ∃ probes, Good s probes ∧ (s.phase ≠ .returned → probes.length + s.phase.inFlight = n)

lemma Running.reported_report (h : Running s probes) (hasked : s.phase.asked = 1)
    (hflight : s.phase.inFlight = 1) (rtt : Option ℕ) :
    Reported (s.report rtt) (probes.length + 1) := by
  refine ⟨_, h.report hasked hflight rtt, fun _ => ?_⟩
  rw [Session.report, inFlight_pause, List.length_append, List.length_singleton]

lemma Running.reported_finish (h : Running s probes) {reason : PingDoneReason}
    (hr : reason ≠ .completed) {n : ℕ} : Reported (s.finish reason) n :=
  ⟨probes, .inr ⟨reason, h.finish hr⟩, fun hp => absurd rfl hp⟩

lemma Running.reported_goto (h : Running s probes) {phase : Phase} (hne : phase ≠ .returned)
    (hasked : phase.asked = s.phase.asked) (hflight : phase.inFlight = s.phase.inFlight) :
    Reported { s with phase } (probes.length + s.phase.inFlight) := by
  refine ⟨probes, .inl ⟨hne, h.numbered, h.events, ?_, ?_, h.bound⟩, fun _ => congrArg _ hflight⟩
  · rw [hasked]
    exact h.seq
  · rw [hflight]
    exact h.sent

lemma Running.reported_turn (h : Running s probes) (hasked : s.phase.asked = 0)
    (hflight : s.phase.inFlight = 0) : Reported s.turn (probes.length + s.phase.inFlight) := by
  refine ⟨probes, (h.settled hasked hflight).turn, fun _ => ?_⟩
  rw [hflight, inFlight_turn]

lemma Running.reported_sent (h : Running s probes) (hp : s.phase = .sending) :
    Reported (s.sentEcho true) (probes.length + s.phase.inFlight + 1) := by
  have hseq := h.seq
  have hsent := h.sent
  rw [hp] at hseq hsent ⊢
  refine ⟨probes, .inl ⟨nofun, h.numbered, h.events, hseq, ?_, h.bound⟩, fun _ => rfl⟩
  change s.sent + 1 = .ofNat (probes.length + 1)
  rw [hsent, Phase.inFlight, Nat.add_zero, UInt32.ofNat_add]
  rfl

lemma Running.step (h : Running s probes) (hs : Step s ev t) :
    Reported t (probes.length + s.phase.inFlight + sends [ev]) := by
  cases hs with
  | elapse n =>
    exact ⟨probes, .inl ⟨h.phase, h.numbered, h.events, h.seq, h.sent, h.bound⟩, fun _ => rfl⟩
  | fire =>
    exact ⟨probes, .inl ⟨h.phase, h.numbered, h.events, h.seq, h.sent, h.bound⟩, fun _ => rfl⟩
  | opened ok hp =>
    cases ok with
    | false =>
      apply h.reported_finish
      decide
    | true => exact h.reported_turn (by rw [hp]; rfl) (by rw [hp]; rfl)
  | sent ok hp =>
    cases ok with
    | false =>
      apply h.reported_finish
      decide
    | true => exact h.reported_sent hp
  | check hp =>
    rw [Session.check]
    split
    · exact h.reported_goto nofun (by rw [hp]; rfl) (by rw [hp]; rfl)
    · rw [hp]
      exact h.reported_report (by rw [hp]; rfl) (by rw [hp]; rfl) none
  | received echo hp =>
    rw [Session.received]
    split
    · rw [hp]
      exact h.reported_report (by rw [hp]; rfl) (by rw [hp]; rfl) _
    · exact h.reported_goto nofun (by rw [hp]; rfl) (by rw [hp]; rfl)
  | timedOut hp =>
    rw [hp]
    exact h.reported_report (by rw [hp]; rfl) (by rw [hp]; rfl) none
  | receiveError hp | stopWaiting hp | stopSleeping hp =>
    apply h.reported_finish
    decide
  | slept hp => exact h.reported_turn (by rw [hp]; rfl) (by rw [hp]; rfl)

def Event.own : Event → Bool
  | .elapse _ | .fire => false
  | _ => true

lemma step_returned (hp : s.phase = .returned) (hs : Step s ev t) :
    t.phase = .returned ∧ t.events = s.events ∧ t.params = s.params ∧ ev.own = false := by
  cases hs with
  | elapse n => exact ⟨hp, rfl, rfl, rfl⟩
  | fire => exact ⟨hp, rfl, rfl, rfl⟩
  | opened ok h | sent ok h | check h | received echo h | receiveError h | timedOut h
  | stopWaiting h | stopSleeping h | slept h =>
    rw [hp] at h
    cases h

lemma Finished.step {reason : PingDoneReason} (h : Finished s probes reason) (hs : Step s ev t) :
    Finished t probes reason := by
  obtain ⟨hp, hev, hparams, -⟩ := step_returned h.phase hs
  refine ⟨hp, h.numbered, hev.trans h.events, ?_, ?_⟩
  · rw [hparams]
    exact h.bound
  · rw [hparams]
    exact h.completed

lemma params_turn : s.turn.params = s.params := by
  rw [Session.turn]
  split <;> rfl

lemma params_report {rtt : Option ℕ} : (s.report rtt).params = s.params := by
  rw [Session.report, Session.pause]
  split
  · rfl
  · exact params_turn

lemma params_step (hs : Step s ev t) : t.params = s.params := by
  cases hs with
  | elapse n => rfl
  | fire => rfl
  | opened ok =>
    cases ok with
    | false => rfl
    | true => exact params_turn
  | sent ok => cases ok <;> rfl
  | check =>
    rw [Session.check]
    split
    · rfl
    · exact params_report
  | received echo =>
    rw [Session.received]
    split
    · exact params_report
    · rfl
  | timedOut => exact params_report
  | receiveError | stopWaiting | stopSleeping => rfl
  | slept => exact params_turn

lemma Reported.step {n : ℕ} (h : Reported s n) (hs : Step s ev t) : Reported t (n + sends [ev]) := by
  obtain ⟨probes, hrunning | ⟨reason, hfinished⟩, hn⟩ := h
  · rw [← hn hrunning.phase]
    exact hrunning.step hs
  · have hfinished := hfinished.step hs
    exact ⟨probes, .inr ⟨reason, hfinished⟩, fun hp => absurd hfinished.phase hp⟩

lemma reported_start (params : Params) (now : ℕ) : Reported (.start params now) 0 := by
  refine ⟨[], .inl ⟨nofun, nofun, rfl, rfl, rfl, ?_⟩, fun _ => rfl⟩
  intro hc
  rw [List.length_nil, Nat.pos_iff_ne_zero]
  exact fun hzero => hc (UInt32.toNat_inj.mp hzero)

lemma reported_of_run {params : Params} {now : ℕ} {events : List Event}
    (h : Run Step (.start params now) events s) : Reported s (sends events) := by
  refine h.history (H := fun events s => Reported s (sends events)) (reported_start params now) ?_
  intro events s ev t hreported hs
  have hsends : sends (events ++ [ev]) = sends events + sends [ev] := List.count_append
  rw [hsends]
  exact hreported.step hs

lemma params_of_run {events : List Event} (h : Run Step s events t) : t.params = s.params :=
  h.invariant (I := fun t => t.params = s.params) rfl fun _ _ _ hs hstep =>
    (params_step hstep).trans hs

lemma events_of_run_returned {events : List Event} (hp : s.phase = .returned)
    (h : Run Step s events t) : t.phase = .returned ∧ t.events = s.events := by
  refine h.invariant (I := fun t => t.phase = .returned ∧ t.events = s.events) ⟨hp, rfl⟩ ?_
  intro s' ev t' hs hstep
  obtain ⟨ht, hev, -⟩ := step_returned hs.1 hstep
  exact ⟨ht, hev.trans hs.2⟩

/-! Nothing keeps a session from its end but what it waits for. -/

def Event.isReceived : Event → Bool
  | .received _ => true
  | _ => false

lemma exists_step (hp : s.phase ≠ .returned) :
    ∃ n ev t, ev.own = true ∧ Step { s with now := s.now + n } ev t := by
  match hphase : s.phase with
  | .opening => exact ⟨0, .opened true, _, rfl, .opened true rfl⟩
  | .sending => exact ⟨0, .sent true, _, rfl, .sent true rfl⟩
  | .waiting started => exact ⟨0, .check, _, rfl, .check rfl⟩
  | .receiving started deadline =>
    exact ⟨deadline, .timedOut, _, rfl, .timedOut rfl (Nat.le_add_left _ _)⟩
  | .sleeping deadline => exact ⟨deadline, .slept, _, rfl, .slept rfl (Nat.le_add_left _ _)⟩
  | .returned => exact absurd hphase hp

def left (s : Session) : ℕ := 5 * (s.params.count.toNat - s.sent.toNat)

def remaining (s : Session) : ℕ :=
  match s.phase with
  | .opening | .sleeping _ => left s + 1
  | .sending => left s
  | .waiting _ => left s + 4
  | .receiving _ _ => left s + 3
  | .returned => 0

lemma remaining_turn (s : Session) : remaining s.turn ≤ left s := by
  rw [Session.turn]
  split
  · exact Nat.zero_le _
  · exact le_rfl

lemma remaining_report (s : Session) (rtt : Option ℕ) : remaining (s.report rtt) ≤ left s + 1 := by
  rw [Session.report, Session.pause]
  split
  · exact le_rfl
  · exact (remaining_turn _).trans (Nat.le_succ _)

lemma Running.remaining_sent (h : Running s probes) (hc : s.params.count ≠ 0)
    (hp : s.phase = .sending) : remaining (s.sentEcho true) + 1 ≤ left s := by
  have hbound := h.bound hc
  have hlt := s.params.count.toNat_lt
  have hsent : s.sent.toNat = probes.length := by
    rw [h.sent, hp, Phase.inFlight, Nat.add_zero, UInt32.toNat_ofNat', Nat.mod_eq_of_lt (by omega)]
  have hnext : (s.sent + 1).toNat = probes.length + 1 := by
    rw [UInt32.toNat_add, hsent, UInt32.toNat_one, Nat.mod_eq_of_lt (by omega)]
  change 5 * (s.params.count.toNat - (s.sent + 1).toNat) + 4 + 1 ≤ _
  rw [left, hsent, hnext]
  omega

lemma Running.remaining_step (h : Running s probes) (hc : s.params.count ≠ 0) (hs : Step s ev t) :
    remaining t + ev.own.toNat ≤ remaining s + 2 * ev.isReceived.toNat := by
  cases hs with
  | elapse n => exact le_rfl
  | fire => exact le_rfl
  | opened ok hp =>
    have hrem : remaining s = left s + 1 := by rw [remaining, hp]
    cases ok with
    | false =>
      change 0 + 1 ≤ remaining s + 0
      omega
    | true =>
      have hturn := remaining_turn s
      change remaining s.turn + 1 ≤ remaining s + 0
      omega
  | sent ok hp =>
    have hrem : remaining s = left s := by rw [remaining, hp]
    have hsent := h.remaining_sent hc hp
    cases ok with
    | false =>
      change 0 + 1 ≤ remaining s + 0
      omega
    | true =>
      change remaining (s.sentEcho true) + 1 ≤ remaining s + 0
      omega
  | @check started hp =>
    have hrem : remaining s = left s + 4 := by rw [remaining, hp]
    change remaining (s.check started) + 1 ≤ remaining s + 0
    rw [Session.check]
    split
    · change left s + 3 + 1 ≤ remaining s + 0
      omega
    · have hreport := remaining_report s none
      omega
  | @received started _ echo hp =>
    have hrem : remaining s = left s + 3 := by rw [remaining, hp]
    change remaining (s.received started echo) + 1 ≤ remaining s + 2
    rw [Session.received]
    split
    · have hreport := remaining_report s (some (s.now - started))
      omega
    · change left s + 4 + 1 ≤ remaining s + 2
      omega
  | timedOut hp =>
    have hrem : remaining s = left s + 3 := by rw [remaining, hp]
    have hreport := remaining_report s none
    change remaining (s.report none) + 1 ≤ remaining s + 0
    omega
  | receiveError hp | stopWaiting hp =>
    have hrem : remaining s = left s + 3 := by rw [remaining, hp]
    change 0 + 1 ≤ remaining s + 0
    omega
  | stopSleeping hp =>
    have hrem : remaining s = left s + 1 := by rw [remaining, hp]
    change 0 + 1 ≤ remaining s + 0
    omega
  | slept hp =>
    have hrem : remaining s = left s + 1 := by rw [remaining, hp]
    have hturn := remaining_turn s
    change remaining s.turn + 1 ≤ remaining s + 0
    omega

lemma remaining_step {n : ℕ} (h : Reported s n) (hc : s.params.count ≠ 0) (hs : Step s ev t) :
    remaining t + ev.own.toNat ≤ remaining s + 2 * ev.isReceived.toNat := by
  obtain ⟨probes, hrunning | ⟨reason, hfinished⟩, -⟩ := h
  · exact hrunning.remaining_step hc hs
  · obtain ⟨hp, -, -, hown⟩ := step_returned hfinished.phase hs
    have hrem : remaining t = 0 := by rw [remaining, hp]
    rw [hrem, hown]
    exact Nat.zero_le _

lemma steps_le {params : Params} {now : ℕ} {events : List Event} (hc : params.count ≠ 0)
    (h : Run Step (.start params now) events s) :
    events.countP Event.own ≤ 5 * params.count.toNat + 1 + 2 * events.countP Event.isReceived := by
  have hpotential := h.potential (I := fun s => (∃ n, Reported s n) ∧ s.params = params) remaining
    Event.own Event.isReceived 2 ⟨⟨0, reported_start params now⟩, rfl⟩ ?_
  · have hstart : remaining (.start params now) = 5 * params.count.toNat + 1 := rfl
    omega
  · rintro s ev t ⟨⟨n, hn⟩, rfl⟩ hs
    exact ⟨⟨⟨_, hn.step hs⟩, params_step hs⟩, remaining_step hn hc hs⟩

/-- What there is to say about a session at some point, with the probes it has reported. -/
structure Account (params : Params) (events : List Event) (s : Session) (probes : List Probe) :
    Prop where
  numbered : Numbered probes
  bound : params.count ≠ 0 → probes.length ≤ params.count.toNat
  running : s.phase ≠ .returned →
    s.events = reported probes ∧ probes.length + s.phase.inFlight = sends events
  returned : s.phase = .returned → ∃ reason, s.events = reported probes ++ [.done reason] ∧
    (reason = .completed ↔ params.count ≠ 0 ∧ probes.length = params.count.toNat) ∧
    ∀ more t, Run Step s more t → t.events = s.events
  stopped : ∀ started deadline s' more t, s.phase = .receiving started deadline → Step s .stop s' →
    Run Step s' more t → sends events = probes.length + 1 ∧
      t.events = reported probes ++ [.done .stopped]

theorem session_account {params : Params} {now : ℕ} {events : List Event} {s : Session}
    (h : Run Step (.start params now) events s) :
    (∃ probes, Account params events s probes) ∧
      (s.phase ≠ .returned → ∃ n ev t, ev.own = true ∧ Step { s with now := s.now + n } ev t) ∧
      (params.count ≠ 0 → events.countP Event.own ≤
        5 * params.count.toNat + 1 + 2 * events.countP Event.isReceived) := by
  have hparams : s.params = params := params_of_run h
  subst hparams
  refine ⟨?_, exists_step, fun hc => steps_le hc h⟩
  obtain ⟨probes, hrunning | ⟨reason, hfinished⟩, hsends⟩ := reported_of_run h
  · refine ⟨probes, hrunning.numbered, fun hc => (hrunning.bound hc).le,
      fun hp => ⟨hrunning.events, hsends hp⟩, fun hp => absurd hp hrunning.phase, ?_⟩
    intro started deadline s' more t hp hstop hmore
    have hs' : s' = s.finish .stopped := by
      cases hstop <;> rfl
    subst hs'
    obtain ⟨-, hevents⟩ := events_of_run_returned rfl hmore
    refine ⟨?_, ?_⟩
    · rw [← hsends hrunning.phase, hp]
      rfl
    · rw [hevents, Session.finish, hrunning.events]
  · refine ⟨probes, hfinished.numbered, hfinished.bound, fun hp => absurd hfinished.phase hp,
      fun _ => ⟨reason, hfinished.events, hfinished.completed, ?_⟩, ?_⟩
    · intro more t hmore
      exact (events_of_run_returned hfinished.phase hmore).2
    · intro started deadline s' more t hp
      rw [hfinished.phase] at hp
      cases hp

def twoProbes : Params := { dst := 2, count := 2, timeout := 1000, interval := 500 }

def cutShort : List Event :=
  [.opened true, .sent true, .check, .elapse 30, .received ⟨true, 2, 1⟩, .elapse 500, .slept, .sent true,
    .check, .received ⟨true, 2, 1⟩, .check, .fire, .stop]

theorem cut_short_account :
    ∃ s, Run Step (.start twoProbes 0) cutShort s ∧
      s.events = [.probe ⟨1, some 30, none⟩, .done .stopped] ∧
      ∃ probes, Account twoProbes cutShort s probes := by
  have hrun : ∃ s, Run Step (.start twoProbes 0) cutShort s ∧
      s.events = [.probe ⟨1, some 30, none⟩, .done .stopped] := by
    refine ⟨_, .cons (.opened true rfl) <| .cons (.sent true rfl) <| .cons (.check rfl) <|
      .cons (.elapse _ 30) <| .cons (.received _ rfl) <| .cons (.elapse _ 500) <|
      .cons (.slept rfl (by decide)) <| .cons (.sent true rfl) <| .cons (.check rfl) <|
      .cons (.received _ rfl) <| .cons (.check rfl) <| .cons (.fire _) <|
      .cons (.stopWaiting rfl rfl) <| .nil _, rfl⟩
  obtain ⟨s, h, hevents⟩ := hrun
  exact ⟨s, h, hevents, (session_account h).1⟩

end Yggstack.Ping
