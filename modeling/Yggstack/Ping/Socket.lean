import Yggstack.Ping.Reports

namespace Yggstack.Ping

open Library

inductive Entry where
  | queued (seq : UInt16)
  | delivered (echo : Echo)
  | reported (ev : PingEvent)
  deriving DecidableEq

structure Pinger where
  session : Session
  queue : List (Echo × Bool)
  log : List Entry

inductive NetEvent where
  | session (ev : Event)
  | deliver (echo : Echo)
  deriving DecidableEq

namespace Pinger

def start (params : Params) (now : ℕ) : Pinger :=
  { session := .start params now, queue := [], log := [] }

def goto (p : Pinger) (s : Session) : Pinger :=
  { p with
    session := s
    log := p.log ++ (s.events.drop p.session.events.length).map .reported }

inductive Step : Pinger → NetEvent → Pinger → Prop
  | deliver {p : Pinger} (echo : Echo) :
      p.session.phase ≠ .opening → p.session.phase ≠ .returned →
      Step p (.deliver echo)
        { p with queue := p.queue ++ [(echo, true)], log := p.log ++ [.delivered echo] }
  | sent {p : Pinger} {s : Session} : Ping.Step p.session (.sent true) s →
      Step p (.session (.sent true))
        { session := s
          queue := p.queue.map fun message => (message.1, false)
          log := p.log ++ [.queued p.session.seq] }
  | received {p : Pinger} {s : Session} {echo : Echo} {fresh : Bool} {rest : List (Echo × Bool)} :
      p.queue = (echo, fresh) :: rest → Ping.Step p.session (.received echo) s →
      Step p (.session (.received echo)) { p.goto s with queue := rest }
  | other {p : Pinger} {s : Session} {ev : Event} : ev ≠ .sent true → ev.isReceived = false →
      Ping.Step p.session ev s → Step p (.session ev) (p.goto s)

end Pinger

def Since (log : List Entry) (seq : UInt16) (later : List Entry) : Prop :=
  ∃ earlier, log = earlier ++ .queued seq :: later ∧ ∀ other, .queued other ∉ later

def TimesReplies (dst : BitVec 128) (log : List Entry) : Prop :=
  ∀ (n : ℕ) probe, log[n]? = some (.reported (.probe probe)) → probe.rtt.isSome →
    ∃ later, Since (log.take n) probe.seq later ∧ .delivered ⟨true, dst, probe.seq⟩ ∈ later

/-- The message at the head of the queue is taken for the reply, but it is a request, or is not from
the destination, or was there before the request, and the reply itself has not come in. -/
structure TakesForeign (p : Pinger) (ev : NetEvent) (echo : Echo) (fresh : Bool) : Prop where
  taken : ev = .session (.received echo)
  head : p.queue.head? = some (echo, fresh)
  seq : echo.seq = p.session.seq
  foreign : ¬(echo.reply = true ∧ echo.source = p.session.params.dst ∧ fresh = true)
  missing : ∀ later, Since p.log p.session.seq later →
    .delivered ⟨true, p.session.params.dst, p.session.seq⟩ ∉ later

variable {log later later' new : List Entry} {seq seq' : UInt16} {dst : BitVec 128}
  {s t : Session} {ev : Event}

lemma since_snoc_queued (log : List Entry) (seq : UInt16) :
    Since (log ++ [.queued seq]) seq [] :=
  ⟨log, rfl, fun _ => List.not_mem_nil⟩

lemma Since.append (h : Since log seq later) (hnew : ∀ other, Entry.queued other ∉ new) :
    Since (log ++ new) seq (later ++ new) := by
  obtain ⟨earlier, rfl, hlater⟩ := h
  refine ⟨earlier, by simp, fun other hmem => ?_⟩
  rcases List.mem_append.mp hmem with hmem | hmem
  · exact hlater other hmem
  · exact hnew other hmem

lemma queued_not_mem_reported (events : List PingEvent) (other : UInt16) :
    Entry.queued other ∉ events.map .reported := by
  intro hmem
  obtain ⟨ev, -, heq⟩ := List.mem_map.mp hmem
  cases heq

lemma TimesReplies.of_append (h : TimesReplies dst (log ++ new)) : TimesReplies dst log := by
  intro n probe hn hrtt
  have hlt := (List.getElem?_eq_some_iff.mp hn).1
  obtain ⟨later, hsince, hmem⟩ := h n probe (by rwa [List.getElem?_append_left hlt]) hrtt
  rw [List.take_append_of_le_length hlt.le] at hsince
  exact ⟨later, hsince, hmem⟩

lemma TimesReplies.append (h : TimesReplies dst log)
    (hnew : ∀ (n : ℕ) probe, new[n]? = some (.reported (.probe probe)) → probe.rtt.isSome →
      ∃ later, Since (log ++ new.take n) probe.seq later ∧
        .delivered ⟨true, dst, probe.seq⟩ ∈ later) :
    TimesReplies dst (log ++ new) := by
  intro n probe hn hrtt
  rcases Nat.lt_or_ge n log.length with hlt | hge
  · rw [List.getElem?_append_left hlt] at hn
    rw [List.take_append_of_le_length hlt.le]
    exact h n probe hn hrtt
  · obtain ⟨k, rfl⟩ := Nat.exists_eq_add_of_le hge
    rw [List.getElem?_append_right hge, Nat.add_sub_cancel_left] at hn
    rw [List.take_length_add_append]
    exact hnew k probe hn hrtt

/-! What a step of the session reports. -/

lemma events_turn (s : Session) : ∃ new, s.turn.events = s.events ++ new ∧
    ∀ probe, .probe probe ∉ new := by
  rw [Session.turn]
  split
  · exact ⟨[.done .completed], rfl, by simp⟩
  · exact ⟨[], by simp, by simp⟩

lemma events_pause (s : Session) : ∃ new, s.pause.events = s.events ++ new ∧
    ∀ probe, .probe probe ∉ new := by
  rw [Session.pause]
  split
  · exact ⟨[], by simp, by simp⟩
  · exact events_turn s

lemma events_report (s : Session) (rtt : Option ℕ) :
    ∃ new, (s.report rtt).events = s.events ++ .probe (s.probeOf rtt) :: new ∧
      ∀ probe, .probe probe ∉ new := by
  obtain ⟨new, hevents, hnew⟩ :=
    events_pause { s with events := s.events ++ [.probe (s.probeOf rtt)] }
  exact ⟨new, by rw [Session.report, hevents, List.append_assoc]; rfl, hnew⟩

lemma seq_probeOf (s : Session) (rtt : Option ℕ) : (s.probeOf rtt).seq = s.seq := by
  cases rtt <;> rfl

def TimedBy (s : Session) (ev : Event) (probe : Probe) : Prop :=
  probe.seq = s.seq ∧ s.phase.inFlight = 1 ∧ ∃ echo, ev = .received echo ∧ echo.seq = s.seq

lemma exists_new_events (hs : Ping.Step s ev t) : ∃ new, t.events = s.events ++ new ∧
    ∀ probe, .probe probe ∈ new → probe.rtt.isSome → TimedBy s ev probe := by
  have hsame : ∃ new, s.events = s.events ++ new ∧
      ∀ probe, .probe probe ∈ new → probe.rtt.isSome → TimedBy s ev probe :=
    ⟨[], by simp, by simp⟩
  have hdone (reason : PingDoneReason) : ∃ new, (s.finish reason).events = s.events ++ new ∧
      ∀ probe, .probe probe ∈ new → probe.rtt.isSome → TimedBy s ev probe :=
    ⟨[.done reason], rfl, by simp⟩
  have hturn : ∃ new, s.turn.events = s.events ++ new ∧
      ∀ probe, .probe probe ∈ new → probe.rtt.isSome → TimedBy s ev probe := by
    obtain ⟨new, hevents, hnew⟩ := events_turn s
    exact ⟨new, hevents, fun probe hmem => absurd hmem (hnew probe)⟩
  have hlost : ∃ new, (s.report none).events = s.events ++ new ∧
      ∀ probe, .probe probe ∈ new → probe.rtt.isSome → TimedBy s ev probe := by
    obtain ⟨new, hevents, hnew⟩ := events_report s none
    refine ⟨_, hevents, fun probe hmem hrtt => ?_⟩
    rcases List.mem_cons.mp hmem with heq | hmem
    · cases heq
      cases hrtt
    · exact absurd hmem (hnew probe)
  cases hs with
  | elapse n => exact hsame
  | fire => exact hsame
  | opened ok hp =>
    cases ok with
    | false => exact hdone .failed
    | true => exact hturn
  | sent ok hp =>
    cases ok with
    | false => exact hdone .failed
    | true => exact hsame
  | @check started hp =>
    rw [Session.check]
    split
    · exact hsame
    · exact hlost
  | @received started deadline echo hp =>
    rw [Session.received]
    split
    · next hseq =>
      obtain ⟨new, hevents, hnew⟩ := events_report s (some (s.now - started))
      refine ⟨_, hevents, fun probe hmem _ => ?_⟩
      rcases List.mem_cons.mp hmem with heq | hmem
      · cases heq
        exact ⟨seq_probeOf s _, by rw [hp]; rfl, echo, rfl, hseq⟩
      · exact absurd hmem (hnew probe)
    · exact hsame
  | receiveError hp => exact hdone .failed
  | timedOut hp hdue => exact hlost
  | stopWaiting hp hfired => exact hdone .stopped
  | stopSleeping hp hfired => exact hdone .stopped
  | slept hp hdue => exact hturn

lemma inFlight_step (hs : Ping.Step s ev t) (ht : t.phase.inFlight = 1) :
    ev = .sent true ∨ s.phase.inFlight = 1 ∧ t.seq = s.seq := by
  cases hs with
  | elapse n => exact .inr ⟨ht, rfl⟩
  | fire => exact .inr ⟨ht, rfl⟩
  | opened ok hp =>
    cases ok with
    | false => cases ht
    | true =>
      rw [Session.opened, if_pos rfl, inFlight_turn] at ht
      cases ht
  | sent ok hp =>
    cases ok with
    | false => cases ht
    | true => exact .inl rfl
  | check hp =>
    rw [Session.check] at ht ⊢
    split at ht
    · next hleft =>
      rw [if_pos hleft]
      exact .inr ⟨by rw [hp]; rfl, rfl⟩
    · rw [Session.report, inFlight_pause] at ht
      cases ht
  | received echo hp =>
    rw [Session.received] at ht ⊢
    split at ht
    · rw [Session.report, inFlight_pause] at ht
      cases ht
    · next hseq =>
      rw [if_neg hseq]
      exact .inr ⟨by rw [hp]; rfl, rfl⟩
  | receiveError hp | stopWaiting hp | stopSleeping hp => cases ht
  | timedOut hp hdue =>
    rw [Session.report, inFlight_pause] at ht
    cases ht
  | slept hp hdue =>
    rw [inFlight_turn] at ht
    cases ht

namespace Pinger

variable {p q : Pinger} {net : NetEvent}

/-- While a request is in flight, it is the last one queued, and what is fresh came in since. -/
structure Tracks (dst : BitVec 128) (p : Pinger) : Prop where
  dst : p.session.params.dst = dst
  since : p.session.phase.inFlight = 1 → ∃ later, Since p.log p.session.seq later ∧
    ∀ echo, (echo, true) ∈ p.queue → .delivered echo ∈ later

lemma tracks_start (params : Params) (now : ℕ) : Tracks params.dst (start params now) where
  dst := rfl
  since h := by cases h

lemma log_goto (hs : Ping.Step p.session ev s) : ∃ new, s.events = p.session.events ++ new ∧
    (p.goto s).log = p.log ++ new.map .reported ∧
    ∀ probe, .probe probe ∈ new → probe.rtt.isSome → TimedBy p.session ev probe := by
  obtain ⟨new, hevents, hnew⟩ := exists_new_events hs
  refine ⟨new, hevents, ?_, hnew⟩
  rw [goto, hevents, List.drop_left]

lemma Tracks.goto (h : Tracks dst p) (hs : Ping.Step p.session ev s) (hev : ev ≠ .sent true)
    {queue : List (Echo × Bool)} (hqueue : queue ⊆ p.queue) :
    Tracks dst { p.goto s with queue } := by
  constructor
  · exact (params_step hs).symm ▸ h.dst
  · intro hflight
    obtain hsent | ⟨hbefore, hseq⟩ := inFlight_step hs hflight
    · exact absurd hsent hev
    · obtain ⟨later, hsince, hfresh⟩ := h.since hbefore
      obtain ⟨new, -, hlog, -⟩ := log_goto hs
      refine ⟨later ++ new.map .reported, ?_, fun echo hmem => ?_⟩
      · change Since (p.goto s).log s.seq _
        rw [hlog, hseq]
        exact hsince.append (queued_not_mem_reported new)
      · exact List.mem_append_left _ (hfresh echo (hqueue hmem))

lemma tracks_step (h : Tracks dst p) (hs : Step p net q) : Tracks dst q := by
  cases hs with
  | deliver echo hopened hreturned =>
    refine ⟨h.dst, fun hflight => ?_⟩
    obtain ⟨later, hsince, hfresh⟩ := h.since hflight
    refine ⟨later ++ [.delivered echo], hsince.append (by simp), fun other hmem => ?_⟩
    rcases List.mem_append.mp hmem with hmem | hmem
    · exact List.mem_append_left _ (hfresh other hmem)
    · cases List.mem_singleton.mp hmem
      exact List.mem_append_right _ List.mem_cons_self
  | @sent s hs =>
    refine ⟨(params_step hs).symm ▸ h.dst, fun _ => ⟨[], ?_, fun echo hmem => ?_⟩⟩
    · have hseq : s.seq = p.session.seq := by
        cases hs with
        | sent ok hp => rfl
      change Since _ s.seq []
      rw [hseq]
      exact since_snoc_queued p.log p.session.seq
    · obtain ⟨message, -, heq⟩ := List.mem_map.mp hmem
      cases heq
  | received hqueue hs =>
    refine h.goto hs nofun ?_
    rw [hqueue]
    exact List.subset_cons_self _ _
  | other hsent hreceived hs => exact h.goto hs hsent (List.Subset.refl _)

lemma log_step (hs : Step p net q) : ∃ new, q.log = p.log ++ new := by
  cases hs with
  | deliver echo => exact ⟨_, rfl⟩
  | sent hs => exact ⟨_, rfl⟩
  | received hqueue hs => exact ⟨_, rfl⟩
  | other hsent hreceived hs => exact ⟨_, rfl⟩

def TakesNone (p : Pinger) (net : NetEvent) : Prop := ∀ echo fresh, ¬TakesForeign p net echo fresh

lemma timesReplies_goto (hs : Ping.Step p.session ev s) (htimes : TimesReplies dst p.log)
    (hreply : ∀ echo, ev = .received echo → echo.seq = p.session.seq →
      p.session.phase.inFlight = 1 → ∃ later, Since p.log p.session.seq later ∧
        .delivered ⟨true, dst, p.session.seq⟩ ∈ later) :
    TimesReplies dst (p.goto s).log := by
  obtain ⟨new, -, hlog, hnew⟩ := log_goto hs
  rw [hlog]
  apply htimes.append
  intro n probe hn hrtt
  rw [List.getElem?_map] at hn
  obtain ⟨ev', hget, heq⟩ := Option.map_eq_some_iff.mp hn
  cases heq
  obtain ⟨hseq, hflight, echo, hev, hecho⟩ := hnew probe (List.mem_of_getElem? hget) hrtt
  obtain ⟨later, hsince, hmem⟩ := hreply echo hev hecho hflight
  rw [hseq, ← List.map_take]
  exact ⟨_, hsince.append (queued_not_mem_reported _), List.mem_append_left _ hmem⟩

lemma timesReplies_step (h : Tracks dst p) (hs : Step p net q) (hnone : TakesNone p net)
    (htimes : TimesReplies dst p.log) : TimesReplies dst q.log := by
  cases hs with
  | deliver echo hopened hreturned =>
    apply htimes.append
    intro n probe hn
    rw [List.getElem?_singleton] at hn
    split at hn <;> cases hn
  | sent hs =>
    apply htimes.append
    intro n probe hn
    rw [List.getElem?_singleton] at hn
    split at hn <;> cases hn
  | @received s echo fresh rest hqueue hs =>
    apply timesReplies_goto hs htimes
    rintro _ ⟨⟩ hecho hflight
    by_contra hmissing
    -- Then the message is neither the reply itself nor is the reply behind it.
    refine hnone echo fresh ⟨rfl, by rw [hqueue]; rfl, hecho, ?_, ?_⟩
    · rintro ⟨hreply, hsource, rfl⟩
      obtain ⟨later, hsince, hfresh⟩ := h.since hflight
      refine hmissing ⟨later, hsince, ?_⟩
      have hgenuine : echo = ⟨true, dst, p.session.seq⟩ := by
        rw [← hreply, ← h.dst, ← hsource, ← hecho]
      rw [← hgenuine]
      apply hfresh
      rw [hqueue]
      exact List.mem_cons_self
    · intro later hsince hmem
      rw [h.dst] at hmem
      exact hmissing ⟨later, hsince, hmem⟩
  | other hsent hreceived hs =>
    apply timesReplies_goto hs htimes
    rintro echo rfl
    cases hreceived

lemma not_timesReplies (h : Tracks dst p) (hs : Step p net q) {echo : Echo} {fresh : Bool}
    (hforeign : TakesForeign p net echo fresh) : ¬TimesReplies dst q.log := by
  intro htimes
  obtain ⟨rfl, hhead, hseq, -, hmissing⟩ := hforeign
  cases hs with
  | @received s _ fresh' rest hqueue hs =>
    cases hs with
    | @received started deadline _ hp =>
      rw [Session.received, if_pos hseq] at htimes
      obtain ⟨new, hevents, -⟩ := events_report p.session (some (p.session.now - started))
      have hlog : (p.goto (p.session.report (some (p.session.now - started)))).log =
          p.log ++ .reported (.probe (p.session.probeOf (some (p.session.now - started)))) ::
            new.map .reported := by
        rw [goto, hevents, List.drop_left, List.map_cons]
      have hget := htimes p.log.length (p.session.probeOf (some (p.session.now - started)))
        (by rw [hlog, List.getElem?_append_right le_rfl, Nat.sub_self]; rfl) rfl
      rw [hlog, List.take_left, h.dst.symm] at hget
      obtain ⟨later, hsince, hmem⟩ := hget
      exact hmissing later hsince hmem
  | other hsent hreceived hs => cases hreceived

end Pinger

/-- Every time reported is that of a reply, in exactly the runs in which nothing else is taken for
the reply that is waited for. -/
theorem times_replies_iff {params : Params} {now : ℕ} {events : List NetEvent} {p : Pinger}
    (hr : Run Pinger.Step (.start params now) events p) :
    TimesReplies params.dst p.log ↔
      Run (fun p net q => Pinger.Step p net q ∧ p.TakesNone net)
        (.start params now) events p := by
  constructor
  · intro htimes
    refine (hr.guard_of_end (P := fun p => TimesReplies params.dst p.log)
      (Pinger.tracks_start params now) (fun _ _ _ h hs => Pinger.tracks_step h hs) htimes ?_).2
    intro p net q h hs htimes
    obtain ⟨new, hlog⟩ := Pinger.log_step hs
    refine ⟨(hlog ▸ htimes).of_append, fun echo fresh hforeign => ?_⟩
    exact Pinger.not_timesReplies h hs hforeign htimes
  · intro hguarded
    have hboth : Pinger.Tracks params.dst p ∧ TimesReplies params.dst p.log := by
      refine hguarded.invariant
        (I := fun p => Pinger.Tracks params.dst p ∧ TimesReplies params.dst p.log) ?_ ?_
      · exact ⟨Pinger.tracks_start params now, by simp [TimesReplies, Pinger.start]⟩
      · rintro p net q ⟨h, htimes⟩ ⟨hs, hnone⟩
        exact ⟨Pinger.tracks_step h hs, Pinger.timesReplies_step h hs hnone htimes⟩
    exact hboth.2

section OnePing

def onePing : Params := ⟨1, 1, 1000, 0⟩

def answeredBy (echo : Echo) : List NetEvent :=
  [.session (.opened true), .session (.sent true), .deliver echo, .session .check,
    .session (.received echo)]

def onePingLog (echo : Echo) : List Entry :=
  [.queued 1, .delivered echo, .reported (.probe ⟨1, some 0, none⟩), .reported (.done .completed)]

lemma exists_answeredBy (echo : Echo) (hseq : echo.seq = 1) :
    ∃ p, Run Pinger.Step (.start onePing 0) (answeredBy echo) p ∧ p.log = onePingLog echo := by
  obtain ⟨reply, source, seq⟩ := echo
  subst hseq
  refine ⟨_, .cons (.other nofun rfl (.opened true rfl)) (.cons (.sent (.sent true rfl))
    (.cons (.deliver _ nofun nofun) (.cons (.other nofun rfl (.check rfl))
      (.single (.received rfl (.received _ rfl)))))), rfl⟩

theorem reply_timed : ∃ p, Run (fun p net q => Pinger.Step p net q ∧ p.TakesNone net)
      (.start onePing 0) (answeredBy ⟨true, 1, 1⟩) p ∧
    .reported (.probe ⟨1, some 0, none⟩) ∈ p.log := by
  obtain ⟨p, hr, hlog⟩ := exists_answeredBy ⟨true, 1, 1⟩ rfl
  refine ⟨p, (times_replies_iff hr).mp ?_, by rw [hlog]; decide⟩
  rw [hlog]
  intro n probe hn hrtt
  match n, hn with
  | 2, hn =>
    cases hn
    exact ⟨[.delivered ⟨true, 1, 1⟩], ⟨[], rfl, by simp⟩, by decide⟩
  | 3, hn => cases hn

theorem own_request_timed : ∃ p, Run Pinger.Step (.start onePing 0) (answeredBy ⟨false, 1, 1⟩) p ∧
    .reported (.probe ⟨1, some 0, none⟩) ∈ p.log ∧
    (∀ source seq, .delivered ⟨true, source, seq⟩ ∉ p.log) ∧ ¬TimesReplies onePing.dst p.log := by
  obtain ⟨p, hr, hlog⟩ := exists_answeredBy ⟨false, 1, 1⟩ rfl
  have hno : ∀ source seq, Entry.delivered ⟨true, source, seq⟩ ∉ p.log := by
    intro source seq
    rw [hlog]
    simp [onePingLog]
  refine ⟨p, hr, by rw [hlog]; decide, hno, fun htimes => ?_⟩
  obtain ⟨later, ⟨earlier, hsplit, -⟩, hmem⟩ :=
    htimes 2 ⟨1, some 0, none⟩ (by rw [hlog]; rfl) rfl
  apply hno onePing.dst 1
  apply List.mem_of_mem_take
  rw [hsplit]
  exact List.mem_append_right _ (List.mem_cons_of_mem _ hmem)

end OnePing

end Yggstack.Ping
