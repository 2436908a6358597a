import Mathlib.Tactic

/-! The UDP probe: datagrams sent on a schedule, and one wait after another for a reply. Times are
nanoseconds since the first probe, and timers fire when they are due. -/

namespace Yggstack.Mobile

def ms (n : ℕ) : ℕ := n * 10 ^ 6

def sendAt : List ℕ := [ms 0, ms 400, ms 1000, ms 1800]

def probeTimeout (timeoutMs : ℤ) : ℕ := ms (max 100 (min timeoutMs 15000)).toNat

-- What the probe meets: which of its sends succeed, when the first datagram arrives and whether it
-- can be received, and which branch `select!` polls first when both are ready at an instant.
structure ProbeWorld where
  sends : ℕ → Bool
  reply : Option (ℕ × Bool)
  replyFirst : ℕ → Bool

structure ProbeEnd where
  verdict : Option String
  time : ℕ
  waits : List (ℕ × ℕ)
  deriving DecidableEq

def ProbeEnd.answer (e : ProbeEnd) : String := e.verdict.getD "error"

def probeLoop (w : ProbeWorld) (timeout : ℕ) : ℕ → ℕ → ℕ → List (ℕ × ℕ) → Option ProbeEnd
  | 0, _, _, _ => none
  | fuel + 1, now, sent, waits =>
    let due := decide (sent < sendAt.length) && decide (sendAt.getD sent 0 ≤ now)
    if due && !w.sends sent then some { verdict := none, time := now, waits }
    else
      let sent := if due then sent + 1 else sent
      let nextEvent := (if sent < sendAt.length then sendAt.getD sent 0 else timeout) - now
      let wake := now + nextEvent
      let waits := waits ++ [(now, nextEvent)]
      let timer : Option ProbeEnd :=
        if timeout ≤ wake then some { verdict := some "silent", time := wake, waits }
        else probeLoop w timeout fuel wake sent waits
      match w.reply with
      | none => timer
      | some (arrival, ok) =>
        let ready := max arrival now
        if ready < wake ∨ ready = wake ∧ w.replyFirst wake = true then
          some { verdict := if ok then some "replied" else none, time := ready, waits }
        else timer

def friendly (reply : Option ℕ) (replyFirst : ℕ → Bool) : ProbeWorld :=
  { sends := fun _ => true, reply := reply.map fun t => (t, true), replyFirst }

def Seen (reply : Option ℕ) (replyFirst : ℕ → Bool) (t : ℕ) : Prop :=
  ∃ arrival, reply = some arrival ∧ (arrival < t ∨ arrival = t ∧ replyFirst t = true)

instance (reply : Option ℕ) (replyFirst : ℕ → Bool) (t : ℕ) :
    Decidable (Seen reply replyFirst t) :=
  match reply with
  | none => isFalse fun ⟨_, h, _⟩ => by cases h
  | some a => decidable_of_iff (a < t ∨ a = t ∧ replyFirst t = true)
      ⟨fun h => ⟨a, rfl, h⟩, fun ⟨_, h, hs⟩ => by cases h; exact hs⟩

variable {reply : Option ℕ} {replyFirst : ℕ → Bool} {timeout now wake sent : ℕ}
  {waits : List (ℕ × ℕ)}

lemma probeLoop_turn (fuel : ℕ) (hsent : sent < sendAt.length) (hdue : sendAt.getD sent 0 ≤ now)
    (hnext : (if sent + 1 < sendAt.length then sendAt.getD (sent + 1) 0 else timeout) = wake)
    (hwake : now < wake) :
    probeLoop (friendly reply replyFirst) timeout (fuel + 1) now sent waits =
      if Seen reply replyFirst wake then
        some ⟨some "replied", max (reply.getD 0) now, waits ++ [(now, wake - now)]⟩
      else if timeout ≤ wake then some ⟨some "silent", wake, waits ++ [(now, wake - now)]⟩
      else probeLoop (friendly reply replyFirst) timeout fuel wake (sent + 1)
        (waits ++ [(now, wake - now)]) := by
  have hsum : now + (wake - now) = wake := by omega
  rw [probeLoop]
  simp only [hsent, hdue, friendly, decide_true, Bool.and_self, Bool.not_true, Bool.and_false,
    Bool.false_eq_true, if_false, if_true, hnext, hsum]
  cases reply with
  | none =>
    rw [if_neg (show ¬Seen none replyFirst wake from fun ⟨_, h, _⟩ => by cases h)]
    rfl
  | some arrival =>
    have hiff : (max arrival now < wake ∨ max arrival now = wake ∧ replyFirst wake = true) ↔
        Seen (some arrival) replyFirst wake := by
      constructor
      · rintro (h | ⟨h, hf⟩)
        · exact ⟨arrival, rfl, Or.inl (by omega)⟩
        · exact ⟨arrival, rfl, Or.inr ⟨by omega, hf⟩⟩
      · rintro ⟨a, ha, h | ⟨h, hf⟩⟩
        · cases ha
          exact Or.inl (by omega)
        · cases ha
          exact Or.inr ⟨by omega, hf⟩
    simp only [Option.map_some, hiff, Option.getD_some]
    rfl

/-- What the probe promises: it says whether there was a reply in time, it gives up at the timeout,
and no wait is set up to end later. -/
structure ProbeRight (timeout : ℕ) (reply : Option ℕ) (e : ProbeEnd) : Prop where
  replied : e.answer = "replied" ↔ ∃ t, reply = some t ∧ t ≤ timeout
  silent : (¬∃ t, reply = some t ∧ t ≤ timeout) → e.answer = "silent" ∧ e.time = timeout
  waits : ∀ wait ∈ e.waits, wait.1 + wait.2 ≤ timeout

def Ends (reply : Option ℕ) (replyFirst : ℕ → Bool) (timeout turns now sent : ℕ)
    (waits : List (ℕ × ℕ)) (e : ProbeEnd) : Prop :=
  ∀ fuel, turns ≤ fuel →
    probeLoop (friendly reply replyFirst) timeout fuel now sent waits = some e

-- The timeout is an instant at which the loop looks at the clock, unless the reply comes first: no
-- probe is scheduled beyond the timeout at the time the loop waits for it. A reply that comes at
-- the timeout itself is polled before the timer.
structure Timely (timeout : ℕ) (reply : Option ℕ) (replyFirst : ℕ → Bool) : Prop where
  second : ms 400 ≤ timeout
  third : ms 400 < timeout → timeout < ms 1000 → Seen reply replyFirst (ms 400)
  fourth : ms 1000 < timeout → timeout < ms 1800 → Seen reply replyFirst (ms 1000)
  tie : reply = some timeout → replyFirst timeout = true

lemma Seen.le (h : Seen reply replyFirst wake) : ∃ t, reply = some t ∧ t ≤ wake := by
  obtain ⟨t, ht, hlt | ⟨rfl, -⟩⟩ := h
  · exact ⟨t, ht, hlt.le⟩
  · exact ⟨t, ht, le_rfl⟩

lemma Seen.mono {later : ℕ} (h : Seen reply replyFirst wake) (hlt : wake < later) :
    Seen reply replyFirst later := by
  obtain ⟨t, ht, hle⟩ := h.le
  exact ⟨t, ht, Or.inl (by omega)⟩

lemma bounded_snoc (hw : ∀ wait ∈ waits, wait.1 + wait.2 ≤ timeout) (hwake : now < wake) :
    (∀ wait ∈ waits ++ [(now, wake - now)], wait.1 + wait.2 ≤ timeout) ↔ wake ≤ timeout := by
  constructor
  · intro h
    have hlast := h (now, wake - now) (by simp)
    simp only at hlast
    omega
  · intro hle wait hm
    obtain hm | hm := List.mem_append.mp hm
    · exact hw wait hm
    · obtain rfl := List.mem_singleton.mp hm
      simp only
      omega

lemma replied_right_iff (hw : ∀ wait ∈ waits, wait.1 + wait.2 ≤ timeout) (hwake : now < wake)
    (hseen : Seen reply replyFirst wake) (t : ℕ) :
    ProbeRight timeout reply ⟨some "replied", t, waits ++ [(now, wake - now)]⟩ ↔
      wake ≤ timeout := by
  constructor
  · intro h
    exact (bounded_snoc hw hwake).mp h.waits
  · intro hle
    obtain ⟨a, ha, hlt⟩ := hseen.le
    have hin : ∃ t, reply = some t ∧ t ≤ timeout := ⟨a, ha, hlt.trans hle⟩
    exact ⟨iff_of_true rfl hin, fun hout => absurd hin hout, (bounded_snoc hw hwake).mpr hle⟩

lemma silent_right_iff (hw : ∀ wait ∈ waits, wait.1 + wait.2 ≤ timeout) (hwake : now < wake)
    (hseen : ¬Seen reply replyFirst wake) (htimeout : timeout ≤ wake) :
    ProbeRight timeout reply ⟨some "silent", wake, waits ++ [(now, wake - now)]⟩ ↔
      timeout = wake ∧ reply ≠ some timeout := by
  have hno : ("silent" : String) ≠ "replied" := by decide
  constructor
  · intro h
    obtain rfl : timeout = wake := htimeout.antisymm ((bounded_snoc hw hwake).mp h.waits)
    refine ⟨rfl, fun hr => ?_⟩
    exact hno (h.replied.mpr ⟨timeout, hr, le_rfl⟩)
  · rintro ⟨rfl, hne⟩
    have hout : ¬∃ t, reply = some t ∧ t ≤ timeout := by
      rintro ⟨t, rfl, hle⟩
      obtain hlt | rfl := hle.lt_or_eq
      · exact hseen ⟨t, rfl, Or.inl hlt⟩
      · exact hne rfl
    exact ⟨iff_of_false hno hout, fun _ => ⟨rfl, rfl⟩, (bounded_snoc hw hwake).mpr le_rfl⟩

lemma turn_ends (sent now wake turns : ℕ) (rest : Prop) (hsent : sent < sendAt.length)
    (hdue : sendAt.getD sent 0 ≤ now)
    (hnext : (if sent + 1 < sendAt.length then sendAt.getD (sent + 1) 0 else timeout) = wake)
    (hwake : now < wake) (hw : ∀ wait ∈ waits, wait.1 + wait.2 ≤ timeout)
    (hrest : wake < timeout → ¬Seen reply replyFirst wake →
      ∀ waits : List (ℕ × ℕ), (∀ wait ∈ waits, wait.1 + wait.2 ≤ timeout) →
      ∃ e, Ends reply replyFirst timeout turns wake (sent + 1) waits e ∧
        (ProbeRight timeout reply e ↔ rest)) :
    ∃ e, Ends reply replyFirst timeout (turns + 1) now sent waits e ∧
      (ProbeRight timeout reply e ↔ if Seen reply replyFirst wake then wake ≤ timeout
        else if timeout ≤ wake then timeout = wake ∧ reply ≠ some timeout else rest) := by
  have hturn : ∀ fuel, turns + 1 ≤ fuel → ∃ fuel', turns ≤ fuel' ∧ fuel = fuel' + 1 :=
    fun fuel h => ⟨fuel - 1, by omega, by omega⟩
  by_cases hseen : Seen reply replyFirst wake
  · refine ⟨_, ?_, (replied_right_iff hw hwake hseen (max (reply.getD 0) now)).trans ?_⟩
    · intro fuel hfuel
      obtain ⟨fuel, -, rfl⟩ := hturn fuel hfuel
      rw [probeLoop_turn fuel hsent hdue hnext hwake, if_pos hseen]
    · rw [if_pos hseen]
  · by_cases htimeout : timeout ≤ wake
    · refine ⟨_, ?_, (silent_right_iff hw hwake hseen htimeout).trans ?_⟩
      · intro fuel hfuel
        obtain ⟨fuel, -, rfl⟩ := hturn fuel hfuel
        rw [probeLoop_turn fuel hsent hdue hnext hwake, if_neg hseen, if_pos htimeout]
      · rw [if_neg hseen, if_pos htimeout]
    · obtain ⟨e, he, hright⟩ :=
        hrest (by omega) hseen _ ((bounded_snoc hw hwake).mpr (by omega))
      refine ⟨e, ?_, hright.trans ?_⟩
      · intro fuel hfuel
        obtain ⟨fuel, hle, rfl⟩ := hturn fuel hfuel
        rw [probeLoop_turn fuel hsent hdue hnext hwake, if_neg hseen, if_neg htimeout]
        exact he fuel hle
      · rw [if_neg hseen, if_neg htimeout]

lemma tie_iff : (reply = some timeout → replyFirst timeout = true) ↔
    Seen reply replyFirst timeout ∨ reply ≠ some timeout := by
  constructor
  · intro h
    by_cases hr : reply = some timeout
    · exact Or.inl ⟨timeout, hr, Or.inr ⟨rfl, h hr⟩⟩
    · exact Or.inr hr
  · rintro (⟨t, rfl, hlt | ⟨rfl, hfirst⟩⟩ | hne) hr
    · cases hr
      exact absurd hlt (lt_irrefl _)
    · exact hfirst
    · exact absurd hr hne

lemma wake_iff {rest : Prop} (htie : rest → reply = some timeout → replyFirst timeout = true) :
    (if Seen reply replyFirst wake then wake ≤ timeout
      else if timeout ≤ wake then timeout = wake ∧ reply ≠ some timeout else rest) ↔
      wake ≤ timeout ∧ (wake < timeout → ¬Seen reply replyFirst wake → rest) ∧
        (reply = some timeout → replyFirst timeout = true) := by
  by_cases hseen : Seen reply replyFirst wake
  · rw [if_pos hseen]
    refine ⟨fun hle => ⟨hle, fun _ hnot => absurd hseen hnot, ?_⟩, fun h => h.1⟩
    obtain hlt | rfl := hle.lt_or_eq
    · exact tie_iff.mpr (Or.inl (hseen.mono hlt))
    · exact tie_iff.mpr (Or.inl hseen)
  · rw [if_neg hseen]
    by_cases htimeout : timeout ≤ wake
    · rw [if_pos htimeout]
      constructor
      · rintro ⟨rfl, hne⟩
        exact ⟨le_rfl, fun hlt => absurd hlt (lt_irrefl _), fun hr => absurd hr hne⟩
      · rintro ⟨hle, -, h⟩
        obtain rfl : timeout = wake := htimeout.antisymm hle
        exact ⟨rfl, (tie_iff.mp h).resolve_left hseen⟩
    · rw [if_neg htimeout]
      refine ⟨fun h => ⟨by omega, fun _ _ => h, htie h⟩, fun h => h.2.1 (by omega) hseen⟩

lemma fourth_turn (h : ms 1800 < timeout) (hw : ∀ wait ∈ waits, wait.1 + wait.2 ≤ timeout) :
    ∃ e, Ends reply replyFirst timeout 1 (ms 1800) 3 waits e ∧
      (ProbeRight timeout reply e ↔ (reply = some timeout → replyFirst timeout = true)) := by
  obtain ⟨e, he, hright⟩ := turn_ends 3 (ms 1800) timeout 0 False (by decide) le_rfl rfl h hw
    fun hlt => absurd hlt (lt_irrefl _)
  refine ⟨e, he, hright.trans ((wake_iff False.elim).trans ?_)⟩
  simp

lemma third_turn (hw : ∀ wait ∈ waits, wait.1 + wait.2 ≤ timeout) :
    ∃ e, Ends reply replyFirst timeout 2 (ms 1000) 2 waits e ∧
      (ProbeRight timeout reply e ↔ ms 1800 ≤ timeout ∧
        (reply = some timeout → replyFirst timeout = true)) := by
  obtain ⟨e, he, hright⟩ := turn_ends 2 (ms 1000) (ms 1800) 1
    (reply = some timeout → replyFirst timeout = true) (by decide) le_rfl (if_pos (by decide))
    (by decide) hw fun hlt _ waits hw => fourth_turn hlt hw
  refine ⟨e, he, hright.trans ((wake_iff id).trans ?_)⟩
  tauto

lemma second_turn (hw : ∀ wait ∈ waits, wait.1 + wait.2 ≤ timeout) :
    ∃ e, Ends reply replyFirst timeout 3 (ms 400) 1 waits e ∧
      (ProbeRight timeout reply e ↔ ms 1000 ≤ timeout ∧
        (ms 1000 < timeout → timeout < ms 1800 → Seen reply replyFirst (ms 1000)) ∧
        (reply = some timeout → replyFirst timeout = true)) := by
  obtain ⟨e, he, hright⟩ := turn_ends 1 (ms 400) (ms 1000) 2 _ (by decide) le_rfl
    (if_pos (by decide)) (by decide) hw fun _ _ waits hw => third_turn hw
  refine ⟨e, he, hright.trans ((wake_iff And.right).trans ?_)⟩
  have hlt : ¬timeout < ms 1800 ↔ ms 1800 ≤ timeout := not_lt
  tauto

lemma first_turn : ∃ e, Ends reply replyFirst timeout 4 0 0 [] e ∧
    (ProbeRight timeout reply e ↔ Timely timeout reply replyFirst) := by
  obtain ⟨e, he, hright⟩ := turn_ends 0 0 (ms 400) 3 _ (by decide) le_rfl (if_pos (by decide))
    (by decide) (List.forall_mem_nil _) fun _ _ waits hw => second_turn hw
  refine ⟨e, he, hright.trans ((wake_iff fun h => h.2.2).trans ?_)⟩
  have hlt : ms 400 < ms 1000 := by decide
  constructor
  · rintro ⟨hsecond, hrest, htie⟩
    refine ⟨hsecond, ?_, ?_, htie⟩
    · intro hafter hbefore
      by_contra hseen
      exact absurd (hrest hafter hseen).1 (by omega)
    · intro hafter hbefore
      by_cases hseen : Seen reply replyFirst (ms 400)
      · exact hseen.mono hlt
      · exact (hrest (by omega) hseen).2.1 hafter hbefore
  · intro h
    refine ⟨h.second, fun hafter hseen => ⟨?_, h.fourth, h.tie⟩, h.tie⟩
    by_contra hbefore
    exact hseen (h.third hafter (by omega))

theorem udp_probe_right_iff (timeoutMs : ℤ) (reply : Option ℕ) (replyFirst : ℕ → Bool) :
    ∃ e, (∀ fuel, 4 ≤ fuel → probeLoop (friendly reply replyFirst) (probeTimeout timeoutMs) fuel 0 0 [] =
        some e) ∧
      (ProbeRight (probeTimeout timeoutMs) reply e ↔
        Timely (probeTimeout timeoutMs) reply replyFirst) :=
  first_turn

theorem reply_after_timeout_counts : ¬∀ (timeoutMs : ℤ) (reply : Option ℕ) (replyFirst : ℕ → Bool),
    ∃ e, (∀ fuel, 4 ≤ fuel → probeLoop (friendly reply replyFirst) (probeTimeout timeoutMs) fuel 0 0 [] =
        some e) ∧ ProbeRight (probeTimeout timeoutMs) reply e := by
  intro hall
  obtain ⟨e, hrun, hright⟩ := hall 500 (some (ms 700)) fun _ => true
  have he : probeLoop (friendly (some (ms 700)) fun _ => true) (probeTimeout 500) 4 0 0 [] =
      some ⟨some "replied", ms 700, [(0, ms 400), (ms 400, ms 600)]⟩ := by decide
  rw [hrun 4 le_rfl] at he
  cases he
  obtain ⟨t, ht, hle⟩ := hright.replied.mp rfl
  cases ht
  exact absurd hle (by decide)

end Yggstack.Mobile
