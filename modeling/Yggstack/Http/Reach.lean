import Yggstack.Http.Client
import Yggstack.Http.Rewrite

namespace Yggstack.Http.Client

open Library Inet Relay

variable {c : Client} {stream out : List UInt8} {entry : ListenerStats} {h m n : ℕ}

def fed (entry : ListenerStats) (stream : List UInt8) (m : ℕ) : Relay :=
  { Relay.start [] [] entry with
    tx := { sent := stream, closed := false, cut := false, consumed := m, output := [], copy := .reading 0 } }

def reader (entry : ListenerStats) (stream : List UInt8) (m : ℕ) : Client :=
  { relay := fed entry stream m, phase := headTurn (stream.take m) }

lemma step_send (entry : ListenerStats) (stream : List UInt8) :
    (start entry).Step (.send .tx stream) (reader entry stream 0) := rfl

lemma step_read (hnone : headOf (stream.take m) = none) (hn : n ≠ 0) (hchunk : n ≤ chunkLen)
    (hlen : m + n ≤ stream.length) :
    (reader entry stream m).Step (.io (.read n)) (reader entry stream (m + n)) := by
  have hphase : (reader entry stream m).phase = .head (stream.take m) := by
    simp [reader, headTurn, hnone]
  have hunread : n ≤ (reader entry stream m).relay.tx.unread.length := by
    simp only [reader, fed, Leg.unread, List.length_drop]
    omega
  have htake : stream.take m ++ (reader entry stream m).relay.tx.unread.take n =
      stream.take (m + n) := by
    rw [List.take_add]
    rfl
  rw [Step, exec, io, hphase]
  simp only [readHead, if_neg hn, if_pos (And.intro hchunk hunread), htake]
  rfl

lemma run_reads (hnone : ∀ j < m, headOf (stream.take j) = none) (hlen : m ≤ stream.length) :
    Run Step (reader entry stream 0) (List.replicate m (.io (.read 1))) (reader entry stream m) := by
  induction m with
  | zero => exact .nil _
  | succ m ih =>
    rw [List.replicate_succ']
    have hprev := ih (fun j hj => hnone j (by omega)) (by omega)
    exact hprev.append (.single (step_read (hnone m (by omega)) one_ne_zero (by decide) hlen))

lemma run_head (entry : ListenerStats) (hfirst : FirstBlankLine stream h)
    (hmax : h ≤ maxHeadBytes + chunkLen) :
    ∃ events, Run Step (start entry) events (reader entry stream h) := by
  have hlen := hfirst.1.1
  have hfour := hfirst.1.four_le
  have hnone : ∀ j, j < h → j ≤ maxHeadBytes → headOf (stream.take j) = none := by
    intro j hj hj'
    have hjlen : (stream.take j).length = j := List.length_take_of_le (by omega)
    have hcut := hfirst
    rw [← List.take_append_drop j stream] at hcut
    exact headOf_eq_none hcut (by omega) (by omega)
  let m := min (h - 1) maxHeadBytes
  have hm : m < h := by omega
  have hm' : m ≤ maxHeadBytes := min_le_right _ _
  have hreads : Run Step (reader entry stream 0) (List.replicate m (.io (.read 1)))
      (reader entry stream m) :=
    run_reads (fun j hj => hnone j (by omega) (by omega)) (by omega)
  have hlast : (reader entry stream m).Step (.io (.read (h - m))) (reader entry stream h) := by
    have hrest : h - m ≤ chunkLen := by
      simp only [m, chunkLen, maxHeadBytes] at hmax ⊢
      omega
    have hstep : (reader entry stream m).Step (.io (.read (h - m)))
        (reader entry stream (m + (h - m))) :=
      step_read (hnone m hm hm') (by omega) hrest (by omega)
    rwa [show m + (h - m) = h by omega] at hstep
  exact ⟨_, .cons (step_send entry stream) (hreads.append (.single hlast))⟩

lemma phase_reader (hfirst : FirstBlankLine stream h) :
    (reader entry stream h).phase = handleClient (stream.take h) [] := by
  have hlen : (stream.take h).length = h := List.length_take_of_le hfirst.1.1
  have hcut : FirstBlankLine (stream.take h) h := by
    rw [← firstBlankLine_append (stream.drop h) hlen.ge, List.take_append_drop]
    exact hfirst
  simp only [reader, headTurn, headOf_of_firstBlankLine hcut, List.take_take, min_self,
    List.drop_take_self]

lemma exists_remote (host : List Char) (port : UInt16) :
    ∃ remote, resolveRemote host port (.ok 0) = .ok remote := by
  rw [resolveRemote]
  split
  · exact ⟨_, rfl⟩
  · split
    · exact ⟨_, rfl⟩
    · exact ⟨_, rfl⟩

lemma run_dialed {job : Job} {extra : List UInt8} (hp : c.phase = .resolving job extra) :
    Run Step c [.resolved (.ok 0), .dialed true] { c with phase := onDialed extra job } := by
  obtain ⟨remote, hremote⟩ := exists_remote job.host job.port
  have hresolved : c.Step (.resolved (.ok 0)) { c with phase := .dialing job remote extra } := by
    rw [Step, exec, resolved, hp]
    simp only [hremote]
  exact .cons hresolved (.single rfl)

structure Relays (c : Client) (stream : List UInt8) (m : ℕ) (out : List UInt8) (copy : Copy) :
    Prop where
  phase : c.phase = .relaying
  ended : c.relay.ended = none
  sent : c.sent = stream
  consumed : c.consumed = m
  output : c.output = out
  copy : c.relay.tx.copy = copy

lemma writeAll_whole {rest : List UInt8} (hne : rest ≠ []) :
    writeAll rest (.write rest.length) = some (.ok (rest, [])) := by
  have hpos := List.length_pos_iff.mpr hne
  rw [writeAll, if_neg (by omega), if_pos le_rfl, List.take_length, List.drop_length]

lemma run_ready (job : Job) (hp : c.phase = onDialed [] job)
    (hrelay : c.relay = fed entry stream m) :
    ∃ events c', Run Step c events c' ∧ c'.Relays stream m job.lead (.reading 0) := by
  cases job with
  | connect host port =>
    have hne : connectionEstablished ≠ [] := by decide +kernel
    have hw := writeAll_whole hne
    refine ⟨[.io (.write connectionEstablished.length)],
      { relay := c.toClient connectionEstablished, phase := .relaying }, .single ?_, ?_⟩
    · rw [Step, exec, io, hp]
      simp only [onDialed, hw]
      rfl
    · rw [toClient, hrelay]
      exact ⟨rfl, rfl, rfl, rfl, rfl, rfl⟩
  | forward req target =>
    have hne : utf8 (rewriteHead req target) ≠ [] := by
      rw [rewriteHead_eq, utf8_append]
      exact List.append_ne_nil_of_right_ne_nil _ (by decide)
    have hw := writeAll_whole hne
    refine ⟨[.io (.write (utf8 (rewriteHead req target)).length)],
      { relay := counted (c.toOrigin (utf8 (rewriteHead req target)))
          (utf8 (rewriteHead req target)).length,
        phase := .relaying }, .single ?_, ?_⟩
    · rw [Step, exec, io, hp]
      simp only [onDialed, hw]
      rfl
    · rw [toOrigin, hrelay]
      exact ⟨rfl, rfl, rfl, rfl, rfl, rfl⟩

lemma exists_copy {answer : Io} {copy : Copy} {l : Leg} (hc : c.Relays stream m out copy)
    (hl : c.relay.tx.countingCopy answer = some (l, n)) (hrun : ∀ result, l.copy ≠ .done result)
    (hsent : l.sent = c.sent) :
    ∃ c', c.Step (.copy .tx answer) c' ∧ c'.Relays stream l.consumed l.output l.copy := by
  have hexec : c.relay.exec (.io .tx answer) =
      some { c.relay with tx := l, entry := c.relay.entry.count n .tx } := by
    rw [Relay.exec, hc.ended]
    simp only [Relay.leg, hl]
    cases hcopy : l.copy with
    | done result => exact absurd hcopy (hrun result)
    | reading total => rfl
    | writing rest k total => rfl
  refine ⟨{ relay := { c.relay with tx := l, entry := c.relay.entry.count n .tx },
            phase := .relaying }, ?_, rfl, hc.ended, hsent.trans hc.sent, rfl, rfl, rfl⟩
  rw [Step, exec, relayed, hc.phase]
  simp only [hexec, hc.ended]
  rfl

variable {total : UInt64}

lemma Relays.read (hc : c.Relays stream m out (.reading total)) (hm : m < stream.length) :
    ∃ c', c.Step (.copy .tx (.read 1)) c' ∧
      c'.Relays stream (m + 1) out (.writing ((stream.drop m).take 1) 1 total) := by
  have hunread : c.relay.tx.unread = stream.drop m := by
    rw [Leg.unread, ← hc.sent, ← hc.consumed]
    rfl
  have hread : c.relay.tx.countingCopy (.read 1) = some ({ c.relay.tx with
      consumed := c.relay.tx.consumed + 1, copy := .writing ((stream.drop m).take 1) 1 total }, 0) := by
    have hlen : 1 ≤ bufSize ∧ 1 ≤ (stream.drop m).length := by
      rw [List.length_drop, bufSize]
      omega
    rw [Leg.countingCopy.eq_def, hc.copy]
    simp only [hunread, one_ne_zero, if_false, if_pos hlen]
  obtain ⟨c', hstep, hc'⟩ := exists_copy hc hread (fun result hdone => by cases hdone) rfl
  refine ⟨c', hstep, ?_⟩
  rwa [show c.relay.tx.consumed = m from hc.consumed,
    show c.relay.tx.output = out from hc.output] at hc'

lemma Relays.write {rest : List UInt8} (hc : c.Relays stream m out (.writing rest n total))
    (hne : rest ≠ []) :
    ∃ c', c.Step (.copy .tx (.write rest.length)) c' ∧
      c'.Relays stream m (out ++ rest) (.reading (total + UInt64.ofNat n)) := by
  have hwrite : c.relay.tx.countingCopy (.write rest.length) = some ({ c.relay.tx with
      output := c.relay.tx.output ++ rest, copy := .reading (total + UInt64.ofNat n) }, n) := by
    have hlen := List.length_pos_iff.mpr hne
    rw [Leg.countingCopy.eq_def, hc.copy]
    simp only [hlen.ne', lt_irrefl, if_false, if_true]
  obtain ⟨c', hstep, hc'⟩ := exists_copy hc hwrite (fun result hdone => by cases hdone) rfl
  refine ⟨c', hstep, ?_⟩
  rwa [show c.relay.tx.consumed = m from hc.consumed,
    show c.relay.tx.output = out from hc.output] at hc'

lemma Relays.run (hc : c.Relays stream m out (.reading total)) (hm : m + n ≤ stream.length) :
    ∃ events c' total', Run Step c events c' ∧
      c'.Relays stream (m + n) (out ++ (stream.drop m).take n) (.reading total') := by
  induction n with
  | zero => exact ⟨[], c, total, .nil c, by simpa using hc⟩
  | succ n ih =>
    obtain ⟨events, c₁, total₁, hrun, hc₁⟩ := ih (by omega)
    obtain ⟨c₂, hread, hc₂⟩ := hc₁.read (by omega)
    have hne : (stream.drop (m + n)).take 1 ≠ [] := by
      apply List.ne_nil_of_length_pos
      rw [List.length_take, List.length_drop]
      omega
    obtain ⟨c₃, hwrite, hc₃⟩ := hc₂.write hne
    refine ⟨_, c₃, total₁ + UInt64.ofNat 1, hrun.append (.cons hread (.single hwrite)), ?_⟩
    rwa [List.append_assoc, ← List.drop_drop, ← List.take_add, Nat.add_assoc] at hc₃

lemma exists_served {req : Request} {job : Job} (hfirst : FirstBlankLine stream h)
    (hmax : h ≤ maxHeadBytes + chunkLen) (hreq : parseRequest (stream.take h) = .ok req)
    (hjob : Asks req job) (hn : h + n ≤ stream.length) (entry : ListenerStats) :
    ∃ events c total, Run Step (start entry) events c ∧
      c.Relays stream (h + n) (job.lead ++ (stream.drop h).take n) (.reading total) := by
  obtain ⟨events₁, hrun₁⟩ := run_head entry hfirst hmax
  have hphase : (reader entry stream h).phase = .resolving job [] := by
    rw [phase_reader hfirst, handleClient, hreq]
    cases hjob with
    | connect hmethod hsplit => simp only [hmethod, hsplit, if_true]
    | forward hmethod htarget => simp only [hmethod, htarget, if_false]
  have hrun₂ := run_dialed hphase
  obtain ⟨events₃, c₃, hrun₃, hc₃⟩ :=
    run_ready (c := { reader entry stream h with phase := onDialed [] job }) job rfl rfl
  obtain ⟨events₄, c₄, total, hrun₄, hc₄⟩ := hc₃.run hn
  exact ⟨_, c₄, total, hrun₁.append (hrun₂.append (hrun₃.append hrun₄)), hc₄⟩

end Yggstack.Http.Client
