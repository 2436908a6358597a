import Yggstack.Relay.Copy

namespace Yggstack.Relay

open Library

def Io.Clean : Io → Prop
  | .read _ => True
  | .write n => n ≠ 0
  | .readError | .writeError => False

def Event.Clean : Event → Prop
  | .io _ answer => answer.Clean
  | .stop => False
  | .send _ _ | .close _ | .reset => True

@[simp] lemma Copy.rest_reading (total : UInt64) : (Copy.reading total).rest = [] := rfl

@[simp] lemma Copy.rest_writing (rest : List UInt8) (n : ℕ) (total : UInt64) :
    (Copy.writing rest n total).rest = rest :=
  rfl

def Leg.Over (l : Leg) : Prop := l.closed = true ∧ l.unread = [] ∨ l.cut = true

inductive Leg.Copied (l : Leg) : Leg → Prop
  | ended {total : UInt64} : l.copy = .reading total → l.Over →
      Copied l { l with copy := .done (.ok total) }
  | got {total : UInt64} {n : ℕ} : l.copy = .reading total → n ≤ bufSize → n ≤ l.unread.length →
      Copied l { l with consumed := l.consumed + n, copy := .writing (l.unread.take n) n total }
  | put {rest : List UInt8} {n k : ℕ} {total : UInt64} : l.copy = .writing rest n total →
      k < rest.length →
      Copied l { l with output := l.output ++ rest.take k, copy := .writing (rest.drop k) n total }
  | flushed {rest : List UInt8} {n : ℕ} {total : UInt64} : l.copy = .writing rest n total →
      Copied l { l with output := l.output ++ rest, copy := .reading (total + UInt64.ofNat n) }

lemma Leg.copied_of_clean {l l' : Leg} {io : Io} {n : ℕ} (hio : io.Clean)
    (h : l.countingCopy io = some (l', n)) :
    l.Copied l' := by
  unfold countingCopy at h
  split at h
  · next total k hc =>
    split at h
    · split at h
      · next hend =>
        cases h
        exact .ended hc hend
      · cases h
    · split at h
      · next hk =>
        cases h
        exact .got hc hk.1 hk.2
      · cases h
  · exact hio.elim
  · next rest m total k hc =>
    rw [if_neg hio] at h
    split at h
    · next hk =>
      cases h
      exact .put hc hk
    · split at h
      · cases h
        exact .flushed hc
      · cases h
  · exact hio.elim
  · cases h

lemma Leg.Copied.cut {l l' : Leg} (hs : l.Copied l') : l'.cut = l.cut := by
  cases hs <;> rfl

/-- What was read is written out, or is the rest of the chunk being written. `before` was there
before the relay. -/
structure Leg.Flow (before : List UInt8) (l : Leg) : Prop where
  consumed : l.consumed ≤ l.sent.length
  output : l.output ++ l.copy.rest = before ++ l.sent.take l.consumed
  chunk : l.copy.rest.length ≤ bufSize
  ended : ∀ result, l.copy = .done result → (∃ total, result = .ok total) ∧ l.Over

namespace Leg.Flow

variable {before : List UInt8} {l l' : Leg}

lemma new (before : List UInt8) : (Leg.new before).Flow before :=
  ⟨Nat.zero_le _,
    by simp [Leg.new, Copy.rest], by simp [Leg.new, Copy.rest], fun total h => by cases h⟩

lemma send (h : l.Flow before) (bytes : List UInt8) (hc : ¬l.closed = true) :
    Leg.Flow before { l with sent := l.sent ++ bytes } where
  consumed := by
    rw [List.length_append]
    exact Nat.le_add_right_of_le h.consumed
  output := by
    rw [List.take_append_of_le_length h.consumed]
    exact h.output
  chunk := h.chunk
  ended result he :=
    ⟨(h.ended result he).1, .inr ((h.ended result he).2.resolve_left fun hover => hc hover.1)⟩

lemma close (h : l.Flow before) : Leg.Flow before { l with closed := true } :=
  { h with
    ended := fun result he =>
      ⟨(h.ended result he).1, (h.ended result he).2.imp_left fun hover => ⟨rfl, hover.2⟩⟩ }

lemma reset (h : l.Flow before) : Leg.Flow before { l with cut := true } :=
  { h with ended := fun result he => ⟨(h.ended result he).1, .inr rfl⟩ }

lemma copied (h : l.Flow before) (hs : l.Copied l') : l'.Flow before := by
  have hout := h.output
  cases hs with
  | ended hc hover =>
    rw [hc] at hout
    refine ⟨h.consumed, hout, Nat.zero_le _, fun result he => ?_⟩
    cases he
    exact ⟨⟨_, rfl⟩, hover⟩
  | @got total n hc hn hlen =>
    have hsum : l.consumed + n ≤ l.sent.length := by
      have := h.consumed
      rw [Leg.unread, List.length_drop] at hlen
      omega
    rw [hc, Copy.rest_reading, List.append_nil] at hout
    refine ⟨hsum, ?_, ?_, fun result he => by cases he⟩
    · rw [hout, Copy.rest_writing, List.append_assoc, Leg.unread, ← List.take_add]
    · rw [Copy.rest_writing, List.length_take]
      omega
  | @put rest n k total hc hk =>
    rw [hc, Copy.rest_writing] at hout
    refine ⟨h.consumed, ?_, ?_, fun result he => by cases he⟩
    · rw [Copy.rest_writing, List.append_assoc, List.take_append_drop, hout]
    · have hchunk := h.chunk
      rw [hc, Copy.rest_writing] at hchunk
      rw [Copy.rest_writing, List.length_drop]
      omega
  | @flushed rest n total hc =>
    rw [hc, Copy.rest_writing] at hout
    refine ⟨h.consumed, ?_, Nat.zero_le _, fun result he => by cases he⟩
    rw [Copy.rest_reading, List.append_nil, hout]

lemma written (h : l.Flow before) :
    l.output ++ (l.copy.rest ++ l.unread) = before ++ l.sent := by
  rw [← List.append_assoc, h.output, List.append_assoc, Leg.unread, List.take_append_drop]

end Leg.Flow

@[simp] lemma leg_setLeg (r : Relay) (l : Leg) (dir dir' : Dir) :
    (r.setLeg l dir).leg dir' = if dir' = dir then l else r.leg dir' := by
  cases dir <;> cases dir' <;> rfl

@[simp] lemma ended_setLeg (r : Relay) (l : Leg) (dir : Dir) :
    (r.setLeg l dir).ended = r.ended := by
  cases dir <;> rfl

structure Flows (before : Dir → List UInt8) (r : Relay) : Prop where
  leg : ∀ dir, (r.leg dir).Flow (before dir)
  ended : ∀ e, r.ended = some e → ∃ dir result, e = .finished dir result ∧
    (r.leg dir).copy = .done result
  uncut : r.tx.cut = false

variable {before : Dir → List UInt8} {r r' : Relay} {ev : Event}

lemma Flows.setLeg (h : Flows before r) {dir : Dir} {l : Leg} (hl : l.Flow (before dir))
    (dir' : Dir) :
    ((r.setLeg l dir).leg dir').Flow (before dir') := by
  rw [leg_setLeg]
  split
  · next he => rwa [he]
  · exact h.leg dir'

lemma uncut_setLeg (h : r.tx.cut = false) {dir : Dir} {l : Leg} (hl : dir = .tx → l.cut = false) :
    (r.setLeg l dir).tx.cut = false := by
  cases dir with
  | rx => exact h
  | tx => exact hl rfl

lemma Flows.endpoint (h : Flows before r) {dir : Dir} {l : Leg} (hl : l.Flow (before dir))
    (hc : l.copy = (r.leg dir).copy) (hcut : dir = .tx → l.cut = r.tx.cut) :
    Flows before (r.setLeg l dir) := by
  refine ⟨h.setLeg hl, fun e he => ?_, uncut_setLeg h.uncut fun hd => (hcut hd).trans h.uncut⟩
  rw [ended_setLeg] at he
  obtain ⟨dir', result, rfl, hdone⟩ := h.ended e he
  refine ⟨dir', result, rfl, ?_⟩
  rw [leg_setLeg]
  split
  · next heq => rw [hc, ← heq, hdone]
  · exact hdone

lemma flows_step (h : Flows before r) (hc : ev.Clean) (hs : Step r ev r') : Flows before r' := by
  cases ev with
  | send dir bytes =>
    rw [Step, exec] at hs
    split at hs
    · cases hs
    · next hopen =>
      cases hs
      exact h.endpoint ((h.leg dir).send bytes hopen) rfl fun hd => by rw [hd]; rfl
  | close dir =>
    cases hs
    exact h.endpoint (h.leg dir).close rfl fun hd => by rw [hd]; rfl
  | reset =>
    cases hs
    have hreset : Leg.Flow (before .rx) { r.rx with cut := true } := (h.leg .rx).reset
    exact h.endpoint hreset rfl fun hd => by cases hd
  | io dir answer =>
    rw [Step, exec] at hs
    split at hs
    · cases hs
    · next hrun =>
      split at hs
      · cases hs
      · next l n hcopy =>
        have hcopied := Leg.copied_of_clean hc hcopy
        have hflow := h.setLeg ((h.leg dir).copied hcopied)
        have huncut : (r.setLeg l dir).tx.cut = false :=
          uncut_setLeg h.uncut fun hd => by rw [hcopied.cut, hd]; exact h.uncut
        split at hs
        · next result hdone =>
          cases hs
          refine ⟨hflow, fun e he => ?_, huncut⟩
          cases he
          refine ⟨dir, result, rfl, ?_⟩
          rw [← hdone]
          exact congrArg Leg.copy ((leg_setLeg r l dir dir).trans (if_pos rfl))
        · cases hs
          refine ⟨hflow, fun e he => ?_, huncut⟩
          rw [show ({ r.setLeg l dir with entry := r.entry.count n dir } : Relay).ended =
            r.ended from
            ended_setLeg r l dir] at he
          rw [he] at hrun
          exact absurd rfl hrun
  | stop => exact hc.elim

lemma Starts.flows {entry : ListenerStats} (h : Starts entry r) :
    Flows (fun dir => (r.leg dir).output) r := by
  have hstart : ∀ toPeer toYgg entry, Flows (fun dir => ((start toPeer toYgg entry).leg dir).output)
      (start toPeer toYgg entry) := by
    intro toPeer toYgg entry
    refine ⟨fun dir => ?_, fun e he => (by cases he), rfl⟩
    cases dir with
    | rx => exact Leg.Flow.new toPeer
    | tx => exact Leg.Flow.new toYgg
  cases h with
  | socksConnect reply => exact hstart _ _ _
  | httpConnect extra => exact hstart _ _ _
  | httpForward outHead extra => exact hstart _ _ _
  | forwardLocalTcp => exact hstart _ _ _
  | forwardRemoteTcp => exact hstart _ _ _

/-- A relay that ends without a stop signal or an I/O error has an endpoint that closed its sending
direction and whose bytes were all written to the other one, or the connection to the Yggdrasil side
is gone and all that was read from it was written. What the other endpoint sent was written in
order, but for what was not read yet and the rest of one chunk. -/
theorem relay_delivers_first_closed {entry : ListenerStats} {r₀ r : Relay} {events : List Event}
    (h₀ : Starts entry r₀) (hr : Run (fun r ev r' => Step r ev r' ∧ ev.Clean) r₀ events r)
    (he : r.ended ≠ none) :
    ∃ dir total, r.ended = some (.finished dir (.ok total)) ∧
      ((r.leg dir).closed = true ∧
          (r.leg dir).output = (r₀.leg dir).output ++ (r.leg dir).sent ∨
        dir = .rx ∧ r.rx.cut = true ∧
          r.rx.output ++ r.rx.unread = r₀.rx.output ++ r.rx.sent) ∧
      ∃ rest, rest.length ≤ bufSize ∧
        (r.leg dir.other).output ++ (rest ++ (r.leg dir.other).unread) =
        (r₀.leg dir.other).output ++ (r.leg dir.other).sent := by
  have hflows : Flows (fun dir => (r₀.leg dir).output) r :=
    hr.invariant h₀.flows fun _ _ _ h hs => flows_step h hs.2 hs.1
  obtain ⟨e, he⟩ := Option.ne_none_iff_exists'.mp he
  obtain ⟨dir, result, rfl, hdone⟩ := hflows.ended e he
  obtain ⟨⟨total, rfl⟩, hover⟩ := (hflows.leg dir).ended result hdone
  have hall : (r.leg dir).output ++ (r.leg dir).unread =
      (r₀.leg dir).output ++ (r.leg dir).sent := by
    have hwritten := (hflows.leg dir).written
    rwa [hdone, show (Copy.done (.ok total)).rest = [] from rfl, List.nil_append] at hwritten
  refine ⟨dir, total, he, ?_, (r.leg dir.other).copy.rest, (hflows.leg dir.other).chunk,
    (hflows.leg dir.other).written⟩
  rcases hover with ⟨hclosed, hunread⟩ | hcut
  · rw [hunread, List.append_nil] at hall
    exact .inl ⟨hclosed, hall⟩
  · cases dir with
    | rx => exact .inr ⟨rfl, hcut, hall⟩
    | tx => exact absurd hcut (by rw [show (r.leg .tx).cut = false from hflows.uncut]; simp)

def exchange : List Event :=
  [.send .tx [1], .io .tx (.read 1), .io .tx (.write 1), .send .rx [2, 3], .io .rx (.read 1),
    .io .rx (.write 1), .reset, .io .rx (.read 0)]

theorem exchange_delivered :
    ∃ r, Run (fun r ev r' => Step r ev r' ∧ ev.Clean) (forwardLocalTcp ⟨0, 0⟩) exchange r ∧
      r.rx.output ++ r.rx.unread = [2, 3] := by
  have hr : ∃ r, Run (fun r ev r' => Step r ev r' ∧ ev.Clean) (forwardLocalTcp ⟨0, 0⟩) exchange r ∧
      r.ended ≠ none ∧ (∀ dir, (r.leg dir).closed = false) ∧ r.rx.sent = [2, 3] := by
    refine ⟨_,
      .cons ⟨rfl, trivial⟩ (.cons ⟨rfl, trivial⟩ (.cons ⟨rfl, Nat.one_ne_zero⟩ (.cons ⟨rfl, trivial⟩
      (.cons ⟨rfl, trivial⟩
      (.cons ⟨rfl, Nat.one_ne_zero⟩ (.cons ⟨rfl, trivial⟩ (.single ⟨rfl, trivial⟩))))))), ?_,
      fun dir => by cases dir <;> rfl, rfl⟩
    simp
  obtain ⟨r, hr, he, hopen, hsent⟩ := hr
  obtain ⟨dir, total, -, hdir, -⟩ := relay_delivers_first_closed .forwardLocalTcp hr he
  rcases hdir with ⟨hclosed, -⟩ | ⟨-, -, hall⟩
  · rw [hopen dir] at hclosed
    cases hclosed
  · rw [hsent] at hall
    exact ⟨r, hr, hall⟩

theorem half_close_loses_reply :
    ¬∀ (entry : ListenerStats) (r₀ r : Relay) (events : List Event), Starts entry r₀ →
    Run (fun r ev r' => Step r ev r' ∧ ev.Clean) r₀ events r → r.ended ≠ none →
      ∀ dir, (r.leg dir).closed = true →
        (r.leg dir).output = (r₀.leg dir).output ++ (r.leg dir).sent := by
  intro hall
  have hr : ∃ r, Run (fun r ev r' => Step r ev r' ∧ ev.Clean) (forwardLocalTcp ⟨0, 0⟩)
      [.send .tx [1], .close .tx, .io .tx (.read 1), .io .tx (.write 1), .send .rx [2], .close .rx,
        .io .tx (.read 0)] r ∧
      r.ended ≠ none ∧ r.rx.closed = true ∧ r.rx.output = [] ∧ r.rx.sent = [2] := by
    refine ⟨_,
      .cons ⟨rfl, trivial⟩ (.cons ⟨rfl, trivial⟩ (.cons ⟨rfl, trivial⟩ (.cons ⟨rfl, Nat.one_ne_zero⟩
      (.cons ⟨rfl, trivial⟩ (.cons ⟨rfl, trivial⟩ (.single ⟨rfl, trivial⟩)))))), ?_, rfl, rfl, rfl⟩
    simp
  obtain ⟨r, hr, he, hclosed, hout, hsent⟩ := hr
  have hrx : r.rx.output = [] ++ r.rx.sent := hall _ _ r _ .forwardLocalTcp hr he .rx hclosed
  rw [hout, hsent] at hrx
  cases hrx

end Yggstack.Relay
