import Yggstack.Http.Reach

/-! What the origin of a connection is sent: behind the head of the request, the client's bytes as
they came, however the stream was cut into reads and writes. -/

namespace Yggstack

namespace Relay.Leg

variable {l l' : Leg} {lead rest : List UInt8} {h n : ℕ} {answer : Io}

structure Carries (l : Leg) (lead : List UInt8) (h : ℕ) (rest : List UInt8) : Prop where
  head : h ≤ l.consumed
  consumed : l.consumed ≤ l.sent.length
  output : l.output ++ rest = lead ++ (l.sent.take l.consumed).drop h

structure Grows (l l' : Leg) (bytes : List UInt8) : Prop where
  sent : l'.sent = l.sent ++ bytes
  consumed : l'.consumed = l.consumed
  output : l'.output = l.output
  copy : l'.copy = l.copy

lemma Grows.refl (l : Leg) : l.Grows l [] := ⟨by simp, rfl, rfl, rfl⟩

lemma Carries.grows (hl : l.Carries lead h rest) {bytes : List UInt8} (hg : l.Grows l' bytes) :
    l'.Carries lead h rest where
  head := by
    rw [hg.consumed]
    exact hl.head
  consumed := by
    rw [hg.sent, hg.consumed, List.length_append]
    exact Nat.le_add_right_of_le hl.consumed
  output := by
    rw [hg.sent, hg.consumed, hg.output, List.take_append_of_le_length hl.consumed]
    exact hl.output

lemma Carries.output_prefix (hl : l.Carries lead h rest) : l.output <+: lead ++ l.sent.drop h := by
  have hsplit : l.sent.drop h = (l.sent.take l.consumed).drop h ++ l.sent.drop l.consumed := by
    conv_lhs => rw [← List.take_append_drop l.consumed l.sent]
    rw [List.drop_append_of_le_length]
    rw [List.length_take_of_le hl.consumed]
    exact hl.head
  refine ⟨rest ++ l.sent.drop l.consumed, ?_⟩
  rw [hsplit, ← List.append_assoc, hl.output, List.append_assoc]

lemma countingCopy_failed (hio : ¬answer.Clean) (hc : l.countingCopy answer = some (l', n)) :
    ∃ e, l' = { l with copy := .done (.error e) } := by
  unfold countingCopy at hc
  split at hc
  · exact absurd trivial hio
  · cases hc
    exact ⟨_, rfl⟩
  · next k _ =>
    have hk : k = 0 := not_not.mp hio
    rw [if_pos hk] at hc
    cases hc
    exact ⟨_, rfl⟩
  · cases hc
    exact ⟨_, rfl⟩
  · cases hc

lemma Carries.copied (hl : l.Carries lead h l.copy.rest) (hs : l.Copied l') :
    l'.Carries lead h l'.copy.rest := by
  have hout := hl.output
  cases hs with
  | ended hc hover =>
    rw [hc] at hout
    exact ⟨hl.head, hl.consumed, hout⟩
  | @got total n hc hn hlen =>
    rw [hc, Copy.rest_reading, List.append_nil] at hout
    rw [unread, List.length_drop] at hlen
    have hhead := hl.head
    have hconsumed := hl.consumed
    refine ⟨by simp only; omega, by simp only; omega, ?_⟩
    simp only [Copy.rest_writing, hout, List.append_assoc, List.append_cancel_left_eq, unread]
    rw [List.take_add, List.drop_append_of_le_length]
    rw [List.length_take_of_le hconsumed]
    exact hhead
  | @put rest n k total hc hk =>
    rw [hc, Copy.rest_writing] at hout
    refine ⟨hl.head, hl.consumed, ?_⟩
    rw [Copy.rest_writing, List.append_assoc, List.take_append_drop, hout]
  | @flushed rest n total hc =>
    rw [hc, Copy.rest_writing] at hout
    refine ⟨hl.head, hl.consumed, ?_⟩
    rw [Copy.rest_reading, List.append_nil, hout]

lemma Copied.sent (hs : l.Copied l') : l'.sent = l.sent := by
  cases hs <;> rfl

lemma Carries.copy (hl : l.Carries lead h l.copy.rest) (hc : l.countingCopy answer = some (l', n)) :
    l'.sent = l.sent ∧ ∃ rest, l'.Carries lead h rest ∧
      ((∀ result, l'.copy ≠ .done result) → rest = l'.copy.rest) := by
  by_cases hclean : answer.Clean
  · have hcopied := copied_of_clean hclean hc
    exact ⟨hcopied.sent, _, hl.copied hcopied, fun _ => rfl⟩
  · obtain ⟨e, rfl⟩ := countingCopy_failed hclean hc
    exact ⟨rfl, l.copy.rest, ⟨hl.head, hl.consumed, hl.output⟩, fun hrun => absurd rfl (hrun _)⟩

def completes (l : Leg) : Io → Option (List UInt8)
  | .write k =>
    match l.copy with
    | .writing rest n _ =>
      if k ≠ 0 ∧ k = rest.length then some ((l.sent.take l.consumed).drop (l.consumed - n)) else none
    | _ => none
  | _ => none

def Sized (l : Leg) : Prop :=
  ∀ rest n total, l.copy = .writing rest n total → n ≤ l.consumed ∧ l.consumed ≤ l.sent.length

lemma Sized.counted (hl : l.Sized) (hc : l.countingCopy answer = some (l', n)) :
    l'.Sized ∧ n = ((l.completes answer).getD []).length := by
  unfold countingCopy at hc
  split at hc
  · next total k hcopy =>
    split at hc
    · split at hc
      · cases hc
        exact ⟨fun _ _ _ hw => (by cases hw), rfl⟩
      · cases hc
    · split at hc
      · next hk =>
        cases hc
        refine ⟨fun rest m total hw => ?_, rfl⟩
        cases hw
        have hlen := hk.2
        rw [unread, List.length_drop] at hlen
        simp only
        omega
      · cases hc
  · cases hc
    exact ⟨fun _ _ _ hw => (by cases hw), rfl⟩
  · next rest m total k hcopy =>
    split at hc
    · next hk =>
      cases hc
      refine ⟨fun _ _ _ hw => (by cases hw), ?_⟩
      simp [completes, hcopy, hk]
    · next hk =>
      split at hc
      · next hlt =>
        cases hc
        refine ⟨fun rest n total hw => ?_, ?_⟩
        · cases hw
          exact hl rest m total hcopy
        · simp [completes, hcopy, hlt.ne]
      · split at hc
        · next heq =>
          cases hc
          obtain ⟨hm, hle⟩ := hl _ _ _ hcopy
          refine ⟨fun _ _ _ hw => (by cases hw), ?_⟩
          rw [completes, hcopy]
          simp only [if_pos (And.intro hk heq), Option.getD_some, List.length_drop,
            List.length_take_of_le hle]
          omega
        · cases hc
  · cases hc
    exact ⟨fun _ _ _ hw => (by cases hw), rfl⟩
  · cases hc

end Relay.Leg

namespace Relay

variable {r r' : Relay} {dir : Dir}

lemma grows_of_send {bytes : List UInt8} (he : r.exec (.send dir bytes) = some r') :
    (∃ bytes', r.tx.Grows r'.tx bytes') ∧ r'.entry = r.entry := by
  rw [exec] at he
  split at he
  · cases he
  · cases he
    cases dir with
    | rx => exact ⟨⟨[], .refl _⟩, rfl⟩
    | tx => exact ⟨⟨bytes, rfl, rfl, rfl, rfl⟩, rfl⟩

lemma grows_of_close (he : r.exec (.close dir) = some r') :
    r.tx.Grows r'.tx [] ∧ r'.entry = r.entry := by
  cases he
  cases dir with
  | rx => exact ⟨.refl _, rfl⟩
  | tx => exact ⟨⟨by simp [setLeg, leg], rfl, rfl, rfl⟩, rfl⟩

lemma exec_stop (he : r.exec .stop = some r') : r' = { r with ended := some .stopped } := by
  rw [exec] at he
  split at he
  · cases he
  · cases he
    rfl

lemma exec_copy_rx {answer : Io} (he : r.exec (.io .rx answer) = some r') :
    r'.tx = r.tx ∧ r'.entry.txBytes = r.entry.txBytes := by
  rw [exec] at he
  split at he
  · cases he
  · split at he
    · cases he
    · split at he <;>
      · cases he
        exact ⟨rfl, rfl⟩

lemma exec_copy_tx {answer : Io} (he : r.exec (.io .tx answer) = some r') :
    ∃ l n, r.tx.countingCopy answer = some (l, n) ∧ r'.tx = l ∧
      r'.entry = r.entry.count n .tx ∧ (r'.ended.isSome = true ↔ ∃ result, l.copy = .done result) := by
  rw [exec] at he
  split at he
  · cases he
  · next hrun =>
    split at he
    · cases he
    · next l n hcopy =>
      refine ⟨l, n, hcopy, ?_⟩
      split at he
      · next result hdone =>
        cases he
        exact ⟨rfl, rfl, iff_of_true rfl ⟨result, hdone⟩⟩
      · next hdone =>
        cases he
        refine ⟨rfl, rfl, iff_of_false hrun ?_⟩
        rintro ⟨result, hresult⟩
        exact hdone result hresult

end Relay

namespace Http

open Library Relay

def Phase.serving : Phase → Bool
  | .head _ | .refusing _ _ | .done _ => false
  | _ => true

def Phase.writing : Phase → Option (List UInt8 × List UInt8)
  | .sendingHead bytes rest _ | .sendingExtra bytes rest => some (bytes, rest)
  | _ => none

namespace Client

variable {c c' : Client} {h : ℕ} {job : Job} {rest : List UInt8}

def toGo (c : Client) : List UInt8 :=
  match c.phase with
  | .resolving job extra | .dialing job _ extra => job.lead ++ extra
  | .establishing _ extra => extra
  | .sendingHead _ rest extra => rest ++ extra
  | .sendingExtra _ rest => rest
  | .relaying => c.relay.tx.copy.rest
  | _ => []

structure Serves (c : Client) (h : ℕ) (job : Job) (rest : List UInt8) : Prop where
  first : FirstBlankLine c.sent h
  asks : ∃ req, parseRequest (c.sent.take h) = .ok req ∧ Asks req job
  carries : c.relay.tx.Carries job.lead h rest

inductive Stage (c : Client) : Prop
  | reading : c.phase = .head (c.sent.take c.consumed) → c.consumed ≤ c.sent.length →
      c.output = [] → c.relay.tx.copy.rest = [] → Stage c
  | serving (h : ℕ) (job : Job) : c.phase.serving = true → c.Serves h job c.toGo →
      (c.phase ≠ .relaying → c.relay.tx.copy.rest = []) → Stage c
  | ending : c.phase.ending = true → (c.output = [] ∨ ∃ h job rest, c.Serves h job rest) → Stage c

lemma Stage.serves (hs : c.Stage) (hp : c.phase.serving = true) :
    ∃ h job, c.Serves h job c.toGo ∧ (c.phase ≠ .relaying → c.relay.tx.copy.rest = []) := by
  cases hs with
  | reading hphase =>
    rw [hphase] at hp
    cases hp
  | serving h job _ hserves hidle => exact ⟨h, job, hserves, hidle⟩
  | ending hend =>
    revert hp hend
    cases c.phase <;> simp [Phase.serving, Phase.ending]

lemma Stage.recorded (hs : c.Stage) : c.output = [] ∨ ∃ h job rest, c.Serves h job rest := by
  cases hs with
  | reading _ _ hout => exact .inl hout
  | serving h job _ hserves => exact .inr ⟨h, job, _, hserves⟩
  | ending _ hrec => exact hrec

lemma Serves.grows (hs : c.Serves h job rest) {bytes : List UInt8}
    (hg : c.relay.tx.Grows c'.relay.tx bytes) : c'.Serves h job rest := by
  have hsent : c'.sent = c.sent ++ bytes := hg.sent
  have hle : h ≤ c.sent.length := hs.first.1.1
  refine ⟨?_, ?_, hs.carries.grows hg⟩
  · rw [hsent, firstBlankLine_append bytes hle]
    exact hs.first
  · rw [hsent, List.take_append_of_le_length hle]
    exact hs.asks

lemma Stage.fail (hs : c.Stage) {bytes : List UInt8} (hg : c.relay.tx.Grows c'.relay.tx bytes)
    (hp : c'.phase.ending = true) : c'.Stage := by
  refine .ending hp ?_
  rcases hs.recorded with hout | ⟨h, job, rest, hserves⟩
  · exact .inl (hg.output.trans hout)
  · exact .inr ⟨h, job, rest, hserves.grows hg⟩

lemma Stage.grows (hs : c.Stage) {bytes : List UInt8} (hg : c.relay.tx.Grows c'.relay.tx bytes)
    (hp : c'.phase = c.phase) : c'.Stage := by
  have hsent : c'.sent = c.sent ++ bytes := hg.sent
  have hconsumed : c'.consumed = c.consumed := hg.consumed
  cases hs with
  | reading hphase hle hout hidle =>
    refine .reading ?_ ?_ (hg.output.trans hout) (by rw [hg.copy, hidle])
    · rw [hp, hphase, hsent, hconsumed, List.take_append_of_le_length hle]
    · rw [hsent, hconsumed, List.length_append]
      exact Nat.le_add_right_of_le hle
  | serving h job hserving hserves hidle =>
    refine .serving h job (by rw [hp, hserving]) ?_ (by rw [hp, hg.copy]; exact hidle)
    rw [toGo, hp, hg.copy]
    exact hserves.grows hg
  | ending hend hrec => exact (Stage.ending hend hrec).fail hg (by rw [hp, hend])

lemma Stage.move (hs : c.Stage) (hp : c.phase.serving = true) (hrelay : c.phase ≠ .relaying)
    (hp' : c'.phase.serving = true) (bytes : List UInt8)
    (htx : c'.relay.tx = { c.relay.tx with output := c.relay.tx.output ++ bytes })
    (hgo : bytes ++ c'.toGo = c.toGo) : c'.Stage := by
  obtain ⟨h, job, hserves, hidle⟩ := hs.serves hp
  have hcopy : c'.relay.tx.copy.rest = [] := by
    rw [htx]
    exact hidle hrelay
  refine .serving h job hp' ⟨?_, ?_, ?_⟩ fun _ => hcopy
  · rw [sent, htx]
    exact hserves.first
  · rw [sent, htx]
    exact hserves.asks
  · rw [htx]
    have hc := hserves.carries
    refine ⟨hc.head, hc.consumed, ?_⟩
    rw [List.append_assoc, hgo]
    exact hc.output

lemma stage_start (entry : ListenerStats) : (start entry).Stage :=
  .reading rfl (Nat.zero_le _) rfl rfl

lemma grows_of_endpoint {dir : Dir} {ev : Relay.Event}
    (hev : (∃ bytes, ev = .send dir bytes) ∨ ev = .close dir ∨ ev = .reset)
    (he : c.endpoint dir ev = some c') :
    (∃ bytes, c.relay.tx.Grows c'.relay.tx bytes) ∧ c'.phase = c.phase ∧
      c'.relay.entry = c.relay.entry := by
  rw [endpoint] at he
  split at he
  · split at he
    · cases he
    · next r hr =>
      cases he
      rcases hev with ⟨bytes, rfl⟩ | rfl | rfl
      · exact ⟨(grows_of_send hr).1, rfl, (grows_of_send hr).2⟩
      · exact ⟨⟨[], (grows_of_close hr).1⟩, rfl, (grows_of_close hr).2⟩
      · cases hr
        exact ⟨⟨[], .refl _⟩, rfl, rfl⟩
  · cases he

lemma headTurn_cases (buf : List UInt8) :
    headTurn buf = .head buf ∨ (headTurn buf).ending = true ∨
      ∃ h req job, FirstBlankLine buf h ∧ parseRequest (buf.take h) = .ok req ∧ Asks req job ∧
        headTurn buf = .resolving job (buf.drop h) := by
  rw [headTurn]
  split
  · exact .inl rfl
  · exact .inr (.inl rfl)
  · next head extra hhead =>
    obtain ⟨rfl, hfirst⟩ := firstBlankLine_of_headOf hhead
    rcases handleClient_cases head extra with hend | ⟨req, job, hreq, hjob, heq⟩
    · exact .inr (.inl hend)
    · refine .inr (.inr ⟨head.length, req, job, ?_, ?_, hjob, ?_⟩)
      · exact (firstBlankLine_append extra le_rfl).mpr hfirst
      · rw [List.take_left]
        exact hreq
      · rw [List.drop_left]
        exact heq

lemma stage_headTurn {m : ℕ} (hm : m ≤ c.sent.length) (hm' : c.consumed = m) (hout : c.output = [])
    (hidle : c.relay.tx.copy.rest = []) (hp : c.phase = headTurn (c.sent.take m)) : c.Stage := by
  rcases headTurn_cases (c.sent.take m) with heq | hend | ⟨h, req, job, hfirst, hreq, hjob, heq⟩
  · exact .reading (by rw [hp, heq, hm']) (by rw [hm']; exact hm) hout hidle
  · exact .ending (by rw [hp, hend]) (.inl hout)
  · rw [heq] at hp
    have hlen : (c.sent.take m).length = m := List.length_take_of_le hm
    have hle : h ≤ m := by
      rw [← hlen]
      exact hfirst.1.1
    refine .serving h job (by rw [hp]; rfl) ⟨?_, ⟨req, ?_, hjob⟩, ?_⟩ fun _ => hidle
    · rw [← List.take_append_drop m c.sent]
      exact (firstBlankLine_append _ (by rw [hlen]; exact hle)).mpr hfirst
    · rwa [List.take_take, min_eq_left hle] at hreq
    · refine ⟨hle.trans hm'.ge, hm'.le.trans hm, ?_⟩
      have hgo : c.toGo = job.lead ++ (c.sent.take m).drop h := by
        rw [toGo, hp]
      rw [show c.relay.tx.output = [] from hout, hgo, show c.relay.tx.consumed = m from hm']
      rfl

lemma writeAll_ok {rest bytes rest' : List UInt8} {answer : Io}
    (hw : writeAll rest answer = some (.ok (bytes, rest'))) :
    bytes ++ rest' = rest ∧ ∃ k, answer = .write k ∧ k ≠ 0 ∧ (rest' = [] ↔ k = rest.length) := by
  cases answer with
  | write k =>
    rw [writeAll] at hw
    split at hw
    · cases hw
    · next hk =>
      split at hw
      · next hle =>
        cases hw
        refine ⟨List.take_append_drop _ _, k, rfl, hk, ?_⟩
        rw [List.drop_eq_nil_iff]
        omega
      · cases hw
  | read n => cases hw
  | readError => cases hw
  | writeError => cases hw

lemma serving_afterHead (extra : List UInt8) : (afterHead extra).serving = true := by
  rw [afterHead]
  split <;> rfl

lemma toGo_afterHead {r : Relay} (hidle : r.tx.copy.rest = []) (extra : List UInt8) :
    toGo { relay := r, phase := afterHead extra } = extra := by
  rw [toGo, afterHead]
  by_cases hextra : extra = []
  · simp [hextra, hidle]
  · simp [hextra]

lemma Stage.idle (hs : c.Stage) (hp : c.phase.serving = true) (hrelay : c.phase ≠ .relaying) :
    c.relay.tx.copy.rest = [] := by
  obtain ⟨h, job, -, hidle⟩ := hs.serves hp
  exact hidle hrelay

def completes (c : Client) : Event → Option (List UInt8)
  | .io (.write k) =>
    match c.phase.writing with
    | some (bytes, rest) => if k ≠ 0 ∧ k = rest.length then some bytes else none
    | none => none
  | .copy .tx answer => c.relay.tx.completes answer
  | _ => none

lemma completes_of_writeAll {rest bytes rest' whole : List UInt8} {answer : Io}
    (hp : c.phase.writing = some (whole, rest))
    (hw : writeAll rest answer = some (.ok (bytes, rest'))) :
    c.completes (.io answer) = if rest' = [] then some whole else none := by
  obtain ⟨-, k, rfl, hk, hnil⟩ := writeAll_ok hw
  simp [completes, hp, hk, hnil]

lemma completes_of_error {rest whole : List UInt8} {answer : Io} {e : IoError}
    (hp : c.phase.writing = some (whole, rest)) (hw : writeAll rest answer = some (.error e)) :
    c.completes (.io answer) = none := by
  cases answer with
  | write k =>
    rw [writeAll] at hw
    split at hw
    · next hk => simp [completes, hp, hk]
    · split at hw <;> cases hw
  | read n => rfl
  | readError => rfl
  | writeError => rfl

lemma completes_eq_none (hp : c.phase.writing = none) (answer : Io) :
    c.completes (.io answer) = none := by
  cases answer with
  | write k => simp [completes, hp]
  | read n => rfl
  | readError => rfl
  | writeError => rfl

inductive IoMove (c : Client) (answer : Io) : Client → Prop
  | failed (e : IoError) : c.completes (.io answer) = none → IoMove c answer (c.fail e)
  | read {buf : List UInt8} {n : ℕ} : c.phase = .head buf → n ≤ c.relay.tx.unread.length →
      IoMove c answer
        { relay := { c.relay with tx := { c.relay.tx with consumed := c.consumed + n } },
          phase := headTurn (buf ++ c.relay.tx.unread.take n) }
  | refused {bytes : List UInt8} {phase : Phase} : c.phase.writing = none → phase.ending = true →
      IoMove c answer { relay := c.toClient bytes, phase }
  | told {bytes : List UInt8} {phase : Phase} : c.phase.writing = none → c.phase.serving = true →
      c.phase ≠ .relaying → phase.serving = true →
      (c.relay.tx.copy.rest = [] → toGo { relay := c.toClient bytes, phase } = c.toGo) →
      IoMove c answer { relay := c.toClient bytes, phase }
  | wrote {whole rest bytes : List UInt8} {phase : Phase} :
      c.phase.writing = some (whole, rest) → c.completes (.io answer) = none →
      phase.serving = true → bytes ++ toGo { relay := c.toOrigin bytes, phase } = c.toGo →
      IoMove c answer { relay := c.toOrigin bytes, phase }
  | through {whole rest bytes : List UInt8} {phase : Phase} :
      c.phase.writing = some (whole, rest) → c.completes (.io answer) = some whole →
      phase.serving = true →
      (c.relay.tx.copy.rest = [] →
        bytes ++ toGo { relay := counted (c.toOrigin bytes) whole.length, phase } = c.toGo) →
      IoMove c answer { relay := counted (c.toOrigin bytes) whole.length, phase }

lemma ioMove_readHead {buf : List UInt8} {answer : Io} (hp : c.phase = .head buf)
    (he : c.readHead buf answer = some c') : c.IoMove answer c' := by
  have hnone := completes_eq_none (c := c) (by rw [hp]; rfl) answer
  unfold readHead at he
  split at he
  · split at he
    · split at he
      · cases he
        exact .failed _ hnone
      · cases he
    · split at he
      · next hn =>
        cases he
        exact .read hp hn.2
      · cases he
  · cases he
    exact .failed _ hnone
  · cases he

lemma ioMove_written {whole rest bytes rest' : List UInt8} {next still : Phase} {answer : Io}
    (hwriting : c.phase.writing = some (whole, rest))
    (hw : writeAll rest answer = some (.ok (bytes, rest')))
    (hnext : next.serving = true) (hstill : still.serving = true)
    (hgo : rest' = [] → c.relay.tx.copy.rest = [] →
      bytes ++ toGo { relay := counted (c.toOrigin bytes) whole.length, phase := next } = c.toGo)
    (hgo' : bytes ++ toGo { relay := c.toOrigin bytes, phase := still } = c.toGo)
    (he : (if rest' = [] then
      some { relay := counted (c.toOrigin bytes) whole.length, phase := next : Client }
      else some { relay := c.toOrigin bytes, phase := still }) = some c') : c.IoMove answer c' := by
  have hcall := completes_of_writeAll hwriting hw
  split at he
  · next hnil =>
    cases he
    rw [if_pos hnil] at hcall
    exact .through hwriting hcall hnext (hgo hnil)
  · next hnil =>
    cases he
    rw [if_neg hnil] at hcall
    exact .wrote hwriting hcall hstill hgo'

lemma ioMove {answer : Io} (he : c.io answer = some c') : c.IoMove answer c' := by
  unfold io at he
  split at he
  · next buf hp => exact ioMove_readHead hp he
  · next rest e hp =>
    have hwriting : c.phase.writing = none := by rw [hp]; rfl
    split at he
    · cases he
    · cases he
      exact .failed _ (completes_eq_none hwriting answer)
    · cases he
      refine .refused hwriting ?_
      split <;> rfl
  · next rest extra hp =>
    have hwriting : c.phase.writing = none := by rw [hp]; rfl
    have hgo : c.toGo = extra := by rw [toGo, hp]
    split at he
    · cases he
    · cases he
      exact .failed _ (completes_eq_none hwriting answer)
    · cases he
      refine .told hwriting (by rw [hp]; rfl) (by rw [hp]; simp) ?_ fun hidle => ?_
      · split
        · exact serving_afterHead extra
        · rfl
      · rw [hgo]
        split
        · exact toGo_afterHead hidle extra
        · rfl
  · next outHead rest extra hp =>
    have hwriting : c.phase.writing = some (outHead, rest) := by rw [hp]; rfl
    have hgo : c.toGo = rest ++ extra := by rw [toGo, hp]
    split at he
    · cases he
    · next e hw =>
      cases he
      exact .failed _ (completes_of_error hwriting hw)
    · next bytes rest' hw =>
      rw [← (writeAll_ok hw).1] at hgo
      refine ioMove_written hwriting hw (serving_afterHead extra) rfl (fun hnil hidle => ?_) ?_ he
      · rw [hgo, hnil, List.append_nil]
        exact congrArg (bytes ++ ·) (toGo_afterHead hidle extra)
      · rw [hgo, List.append_assoc]
        rfl
  · next extra rest hp =>
    have hwriting : c.phase.writing = some (extra, rest) := by rw [hp]; rfl
    have hgo : c.toGo = rest := by rw [toGo, hp]
    split at he
    · cases he
    · next e hw =>
      cases he
      exact .failed _ (completes_of_error hwriting hw)
    · next bytes rest' hw =>
      rw [← (writeAll_ok hw).1] at hgo
      refine ioMove_written hwriting hw rfl rfl (fun hnil hidle => ?_) ?_ he
      · rw [hgo, hnil]
        exact congrArg (bytes ++ ·) hidle
      · exact hgo.symm
  · cases he

lemma serving_of_writing {phase : Phase} {call : List UInt8 × List UInt8}
    (h : phase.writing = some call) : phase.serving = true ∧ phase ≠ .relaying := by
  cases phase with
  | sendingHead | sendingExtra => exact ⟨rfl, nofun⟩
  | head | resolving | dialing | refusing | establishing | relaying | done => cases h

lemma stage_read {buf : List UInt8} {n : ℕ} (hs : c.Stage) (hp : c.phase = .head buf)
    (hn : n ≤ c.relay.tx.unread.length) :
    Stage { relay := { c.relay with tx := { c.relay.tx with consumed := c.consumed + n } },
            phase := headTurn (buf ++ c.relay.tx.unread.take n) } := by
  cases hs with
  | reading hphase hle hout hidle =>
    rw [hp, Phase.head.injEq] at hphase
    rw [Leg.unread, List.length_drop] at hn
    refine stage_headTurn (m := c.consumed + n) ?_ rfl hout hidle ?_
    · have hle' : c.relay.tx.consumed ≤ c.relay.tx.sent.length := hle
      simp only [sent, consumed] at hn ⊢
      omega
    · simp only [hphase, sent, consumed, Leg.unread, List.take_add]
  | serving _ _ hserving =>
    rw [hp] at hserving
    cases hserving
  | ending hend =>
    rw [hp] at hend
    cases hend

lemma stage_io {answer : Io} (hs : c.Stage) (he : c.io answer = some c') : c'.Stage := by
  cases ioMove he with
  | failed e => exact hs.fail (.refl _) rfl
  | read hp hn => exact stage_read hs hp hn
  | refused _ hend => exact hs.fail (.refl _) hend
  | told _ hserving hrelay hserving' hgo =>
    exact hs.move hserving hrelay hserving' [] (by simp [toClient]) (hgo (hs.idle hserving hrelay))
  | wrote hwriting _ hserving' hgo =>
    obtain ⟨hserving, hrelay⟩ := serving_of_writing hwriting
    exact hs.move hserving hrelay hserving' _ rfl hgo
  | through hwriting _ hserving' hgo =>
    obtain ⟨hserving, hrelay⟩ := serving_of_writing hwriting
    exact hs.move hserving hrelay hserving' _ rfl (hgo (hs.idle hserving hrelay))

lemma relayed_cases {ev : Relay.Event} (he : c.relayed ev = some c') :
    c.phase = .relaying ∧ ∃ r, c.relay.exec ev = some r ∧ c'.relay = r ∧
      c'.phase = if r.ended.isSome then .done (.ok ()) else .relaying := by
  rw [relayed] at he
  split at he
  · next hp =>
    split at he
    · cases he
    · next r hr =>
      cases he
      exact ⟨hp, r, hr, rfl, rfl⟩
  · cases he

lemma stage_copy {dir : Dir} {answer : Io} (hs : c.Stage)
    (he : c.relayed (.io dir answer) = some c') : c'.Stage := by
  obtain ⟨hp, r, hr, hrelay, hp'⟩ := relayed_cases he
  obtain ⟨h, job, hserves, -⟩ := hs.serves (by rw [hp]; rfl)
  have hgo : c.toGo = c.relay.tx.copy.rest := by rw [toGo, hp]
  rw [hgo] at hserves
  cases dir with
  | rx =>
    have hg : c.relay.tx.Grows c'.relay.tx [] := by
      rw [hrelay, (exec_copy_rx hr).1]
      exact .refl _
    split at hp'
    · exact hs.fail hg (by rw [hp']; rfl)
    · exact hs.grows hg (by rw [hp', hp])
  | tx =>
    obtain ⟨l, n, hcopy, htx, -, hended⟩ := exec_copy_tx hr
    obtain ⟨hsent, rest, hcarries, hrun⟩ := hserves.carries.copy hcopy
    have htx' : c'.relay.tx = l := by rw [hrelay, htx]
    have hsent' : c'.sent = c.sent := by rw [sent, htx', hsent]; rfl
    have hserves' : c'.Serves h job rest := by
      refine ⟨?_, ?_, ?_⟩
      · rw [hsent']
        exact hserves.first
      · rw [hsent']
        exact hserves.asks
      · rw [htx']
        exact hcarries
    split at hp'
    · exact .ending (by rw [hp']; rfl) (.inr ⟨h, job, rest, hserves'⟩)
    · next hrunning =>
      have hgo' : c'.toGo = rest := by
        rw [toGo, hp', htx', hrun]
        intro result hresult
        exact hrunning (hended.mpr ⟨result, hresult⟩)
      refine .serving h job (by rw [hp']; rfl) ?_ fun hne => absurd hp' hne
      rw [hgo']
      exact hserves'

lemma stage_stop (hs : c.Stage) (he : c.relayed .stop = some c') : c'.Stage := by
  obtain ⟨hp, r, hr, hrelay, hp'⟩ := relayed_cases he
  obtain rfl := exec_stop hr
  have hg : c.relay.tx.Grows c'.relay.tx [] := by
    rw [hrelay]
    exact .refl _
  exact hs.fail hg (by rw [hp']; rfl)

lemma stage_resolved {answer : Except String (BitVec 128)} (hs : c.Stage)
    (he : c.resolved answer = some c') : c'.Stage := by
  rw [resolved] at he
  split at he
  · next job extra hp =>
    split at he
    · cases he
      exact hs.fail (.refl _) rfl
    · cases he
      refine hs.move (by rw [hp]; rfl) (by rw [hp]; simp) rfl [] (by simp) ?_
      rw [toGo, toGo, hp]
      rfl
  · cases he

lemma stage_dialed {ok : Bool} (hs : c.Stage) (he : c.dialed ok = some c') : c'.Stage := by
  rw [dialed] at he
  split at he
  · next job remote extra hp =>
    split at he
    · cases he
      have hgo : c.toGo = job.lead ++ extra := by rw [toGo, hp]
      cases job with
      | connect host port =>
        exact hs.move (by rw [hp]; rfl) (by rw [hp]; simp) rfl [] (by simp) hgo.symm
      | forward req target =>
        exact hs.move (by rw [hp]; rfl) (by rw [hp]; simp) rfl [] (by simp) hgo.symm
    · cases he
      exact hs.fail (.refl _) rfl
  · cases he

lemma stage_step {ev : Event} (hs : c.Stage) (he : c.Step ev c') : c'.Stage := by
  cases ev with
  | send dir bytes =>
    obtain ⟨⟨bytes, hg⟩, hp, -⟩ := grows_of_endpoint (.inl ⟨bytes, rfl⟩) he
    exact hs.grows hg hp
  | close dir =>
    obtain ⟨⟨bytes, hg⟩, hp, -⟩ := grows_of_endpoint (.inr (.inl rfl)) he
    exact hs.grows hg hp
  | reset =>
    obtain ⟨⟨bytes, hg⟩, hp, -⟩ := grows_of_endpoint (.inr (.inr rfl)) he
    exact hs.grows hg hp
  | io answer => exact stage_io hs he
  | resolved answer => exact stage_resolved hs he
  | dialed ok => exact stage_dialed hs he
  | copy dir answer => exact stage_copy hs he
  | stop => exact stage_stop hs he
  | elsewhere dir n =>
    cases he
    exact hs.grows (.refl _) rfl

def completed (c : Client) : List Event → List (List UInt8)
  | [] => []
  | ev :: events =>
    (c.completes ev).toList ++
      match c.exec ev with
      | none => []
      | some c' => c'.completed events

def elsewhere : List Event → ℕ
  | [] => 0
  | .elsewhere .tx n :: events => n + elsewhere events
  | _ :: events => elsewhere events

def txBytes (c : Client) : UInt64 := c.relay.entry.txBytes

lemma counted_none {ev : Event} (hs : c.relay.tx.Sized) (hn : c.completes ev = none)
    (htx : c'.relay.tx.copy = c.relay.tx.copy ∧ c.consumed ≤ c'.consumed ∧
      (c.consumed ≤ c.sent.length → c'.consumed ≤ c'.sent.length))
    (hentry : c'.txBytes = c.txBytes) :
    c'.relay.tx.Sized ∧
      c'.txBytes = c.txBytes + UInt64.ofNat ((c.completes ev).getD []).length := by
  refine ⟨fun rest n total hw => ?_, ?_⟩
  · rw [htx.1] at hw
    obtain ⟨hn, hle⟩ := hs rest n total hw
    exact ⟨hn.trans htx.2.1, htx.2.2 hle⟩
  · rw [hn, hentry]
    simp

lemma counted_io {answer : Io} (hs : c.relay.tx.Sized) (he : c.io answer = some c') :
    c'.relay.tx.Sized ∧
      c'.txBytes = c.txBytes + UInt64.ofNat ((c.completes (.io answer)).getD []).length := by
  cases ioMove he with
  | failed e hnone => exact counted_none hs hnone ⟨rfl, le_rfl, id⟩ rfl
  | @read buf n hp hn =>
    have hnone := completes_eq_none (c := c) (by rw [hp]; rfl) answer
    refine counted_none hs hnone ⟨rfl, Nat.le_add_right _ _, fun hle => ?_⟩ rfl
    rw [Leg.unread, List.length_drop] at hn
    simp only [consumed, sent] at hle ⊢
    omega
  | refused hwriting _ =>
    exact counted_none hs (completes_eq_none hwriting answer) ⟨rfl, le_rfl, id⟩ rfl
  | told hwriting _ _ _ _ =>
    exact counted_none hs (completes_eq_none hwriting answer) ⟨rfl, le_rfl, id⟩ rfl
  | wrote _ hnone _ _ => exact counted_none hs hnone ⟨rfl, le_rfl, id⟩ rfl
  | through _ hcall _ _ =>
    rw [hcall]
    exact ⟨hs, rfl⟩

lemma counted_grows {ev : Event} {bytes : List UInt8} (hs : c.relay.tx.Sized)
    (hn : c.completes ev = none) (hg : c.relay.tx.Grows c'.relay.tx bytes)
    (hentry : c'.txBytes = c.txBytes) :
    c'.relay.tx.Sized ∧
      c'.txBytes = c.txBytes + UInt64.ofNat ((c.completes ev).getD []).length := by
  refine counted_none hs hn ⟨hg.copy, hg.consumed.ge, fun hle => ?_⟩ hentry
  have hconsumed : c'.consumed = c.consumed := hg.consumed
  have hsent : c'.sent = c.sent ++ bytes := hg.sent
  rw [hconsumed, hsent, List.length_append]
  omega

lemma relay_resolved {answer : Except String (BitVec 128)} (he : c.resolved answer = some c') :
    c'.relay = c.relay := by
  rw [resolved] at he
  split at he
  · split at he <;>
    · cases he
      rfl
  · cases he

lemma relay_dialed {ok : Bool} (he : c.dialed ok = some c') : c'.relay = c.relay := by
  rw [dialed] at he
  split at he
  · split at he <;>
    · cases he
      rfl
  · cases he

lemma counted_copy {dir : Dir} {answer : Io} (hs : c.relay.tx.Sized)
    (he : c.relayed (.io dir answer) = some c') :
    c'.relay.tx.Sized ∧ c'.txBytes =
      c.txBytes + UInt64.ofNat ((c.completes (.copy dir answer)).getD []).length := by
  obtain ⟨-, r, hr, hrelay, -⟩ := relayed_cases he
  cases dir with
  | rx =>
    have hg : c.relay.tx.Grows c'.relay.tx [] := by
      rw [hrelay, (exec_copy_rx hr).1]
      exact .refl _
    refine counted_grows hs rfl hg ?_
    rw [txBytes, hrelay, (exec_copy_rx hr).2]
    rfl
  | tx =>
    obtain ⟨l, n, hcopy, htx, hentry, -⟩ := exec_copy_tx hr
    obtain ⟨hsized, hn⟩ := hs.counted hcopy
    refine ⟨by rw [hrelay, htx]; exact hsized, ?_⟩
    rw [txBytes, hrelay, hentry, hn]
    rfl

lemma counted_step {ev : Event} (hs : c.relay.tx.Sized) (he : c.Step ev c') :
    c'.relay.tx.Sized ∧ c'.txBytes =
      c.txBytes + UInt64.ofNat (((c.completes ev).getD []).length + elsewhere [ev]) := by
  have hsame : ∀ {ev}, c.completes ev = none → c'.relay = c.relay → c'.relay.tx.Sized ∧
      c'.txBytes = c.txBytes + UInt64.ofNat ((c.completes ev).getD []).length := by
    intro ev hn hrelay
    have hg : c.relay.tx.Grows c'.relay.tx [] := by
      rw [hrelay]
      exact .refl _
    exact counted_grows hs hn hg (by rw [txBytes, txBytes, hrelay])
  cases ev with
  | send dir bytes =>
    obtain ⟨⟨bytes, hg⟩, -, hentry⟩ := grows_of_endpoint (.inl ⟨bytes, rfl⟩) he
    exact counted_grows hs rfl hg (by rw [txBytes, txBytes, hentry])
  | close dir =>
    obtain ⟨⟨bytes, hg⟩, -, hentry⟩ := grows_of_endpoint (.inr (.inl rfl)) he
    exact counted_grows hs rfl hg (by rw [txBytes, txBytes, hentry])
  | reset =>
    obtain ⟨⟨bytes, hg⟩, -, hentry⟩ := grows_of_endpoint (.inr (.inr rfl)) he
    exact counted_grows hs rfl hg (by rw [txBytes, txBytes, hentry])
  | io answer => exact counted_io hs he
  | resolved answer => exact hsame rfl (relay_resolved he)
  | dialed ok => exact hsame rfl (relay_dialed he)
  | copy dir answer =>
    cases dir with
    | rx => exact counted_copy hs he
    | tx => exact counted_copy hs he
  | stop =>
    obtain ⟨-, r, hr, hrelay, -⟩ := relayed_cases he
    obtain rfl := exec_stop hr
    have hg : c.relay.tx.Grows c'.relay.tx [] := by
      rw [hrelay]
      exact .refl _
    exact counted_grows hs rfl hg (by rw [txBytes, hrelay]; rfl)
  | elsewhere dir n =>
    cases he
    refine ⟨hs, ?_⟩
    cases dir with
    | rx => simp [txBytes, completes, elsewhere, ListenerStats.count]
    | tx => simp [txBytes, completes, elsewhere, ListenerStats.count]

lemma elsewhere_cons (ev : Event) (events : List Event) :
    elsewhere (ev :: events) = elsewhere [ev] + elsewhere events := by
  cases ev with
  | elsewhere dir n => cases dir <;> simp [elsewhere]
  | _ => simp [elsewhere]

lemma counted_run {events : List Event} (hs : c.relay.tx.Sized) (hr : Run Step c events c') :
    c'.txBytes = c.txBytes +
      UInt64.ofNat ((c.completed events).flatten.length + elsewhere events) := by
  induction hr with
  | nil c => simp [completed, elsewhere]
  | @cons c t u ev events he _ ih =>
    obtain ⟨hsized, hcount⟩ := counted_step hs he
    have hexec : c.exec ev = some t := he
    rw [ih hsized, hcount, elsewhere_cons ev events, completed, hexec, UInt64.add_assoc, ← UInt64.ofNat_add]
    congr 2
    cases c.completes ev with
    | none =>
      simp
      omega
    | some bytes =>
      simp
      omega

end Client

section Chunks

variable {stream buf : List UInt8} {h : ℕ}

lemma readHead_chunks {chunks : List (List UInt8)} (hfirst : FirstBlankLine stream h)
    (hmax : h ≤ maxHeadBytes) (hflat : buf ++ chunks.flatten = stream) (hne : ∀ c ∈ chunks, c ≠ []) :
    ∃ used rest extra, chunks = used ++ rest ∧ buf ++ used.flatten = stream.take h ++ extra ∧
      readHead buf (chunks.map .ok) = some (.ok (stream.take h, extra), rest.map .ok) := by
  subst hflat
  induction chunks generalizing buf with
  | nil =>
    rw [List.flatten_nil, List.append_nil] at hfirst ⊢
    refine ⟨[], [], buf.drop h, rfl, by simp, ?_⟩
    rw [readHead.eq_def, headOf_of_firstBlankLine hfirst]
  | cons chunk chunks ih =>
    by_cases hle : h ≤ buf.length
    · have hbuf := (firstBlankLine_append _ hle).mp hfirst
      rw [List.take_append_of_le_length hle]
      refine ⟨[], chunk :: chunks, buf.drop h, rfl, by simp, ?_⟩
      rw [readHead.eq_def, headOf_of_firstBlankLine hbuf]
    · rw [List.forall_mem_cons] at hne
      rw [List.flatten_cons, ← List.append_assoc] at hfirst ⊢
      obtain ⟨used, rest, extra, rfl, hused, hread⟩ := ih hne.2 hfirst
      refine ⟨chunk :: used, rest, extra, rfl, ?_, ?_⟩
      · rw [List.flatten_cons, ← List.append_assoc, hused]
      · rw [List.append_assoc] at hfirst
        rw [List.map_cons, readHead, headOf_eq_none hfirst (by omega) (by omega)]
        simp only [hne.1, if_false]
        exact hread

end Chunks

/-- The head ends where the client ended it, however its bytes were cut; a tunnel is sent the
client's bytes from there on, and what it was sent is counted when a write is through. -/
theorem connect_tunnels_stream :
    (∀ (stream : List UInt8) (h : ℕ) (chunks : List (List UInt8)), FirstBlankLine stream h →
      h ≤ maxHeadBytes → chunks.flatten = stream →
      (∀ c ∈ chunks, 1 ≤ c.length ∧ c.length ≤ chunkLen) →
      ∃ used rest extra, chunks = used ++ rest ∧ used.flatten = stream.take h ++ extra ∧
        readHead [] (chunks.map .ok) = some (.ok (stream.take h, extra), rest.map .ok)) ∧
    ∀ (entry : ListenerStats) (events : List Event) (c : Client) (h : ℕ) (req : Request),
      Run Client.Step (Client.start entry) events c → FirstBlankLine c.sent h →
      parseRequest (c.sent.take h) = .ok req → req.method = connectMethod →
      c.output <+: c.sent.drop h ∧
        (c.phase.dialed = true → c.output ++ c.toGo = (c.sent.take c.consumed).drop h) ∧
        c.txBytes = entry.txBytes + UInt64.ofNat
          (((Client.start entry).completed events).flatten.length + Client.elsewhere events) := by
  refine ⟨fun stream h chunks hfirst hmax hflat hsize => ?_, ?_⟩
  · refine readHead_chunks hfirst hmax (show [] ++ chunks.flatten = stream from hflat) fun c hc => ?_
    exact List.length_pos_iff.mp (hsize c hc).1
  · intro entry events c h req hr hfirst hreq hmethod
    have hstage : c.Stage :=
      hr.invariant (Client.stage_start entry) fun _ _ _ hs he => Client.stage_step hs he
    have hlead : ∀ k job rest, c.Serves k job rest → k = h ∧ job.lead = [] := by
      intro k job rest hserves
      obtain rfl := hserves.first.unique hfirst
      obtain ⟨req', hreq', hjob⟩ := hserves.asks
      obtain rfl : req' = req := by
        rw [hreq'] at hreq
        exact Except.ok.inj hreq
      cases hjob with
      | connect => exact ⟨rfl, rfl⟩
      | forward hne => exact absurd hmethod hne
    refine ⟨?_, fun hdialed => ?_, ?_⟩
    · rcases hstage.recorded with hout | ⟨k, job, rest, hserves⟩
      · rw [hout]
        exact List.nil_prefix
      · obtain ⟨rfl, hnil⟩ := hlead _ _ _ hserves
        have hprefix := hserves.carries.output_prefix
        rwa [hnil] at hprefix
    · have hserving : c.phase.serving = true := by
        revert hdialed
        cases c.phase <;> simp [Phase.dialed, Phase.serving]
      obtain ⟨k, job, hserves, -⟩ := hstage.serves hserving
      obtain ⟨rfl, hnil⟩ := hlead _ _ _ hserves
      have houtput := hserves.carries.output
      rwa [hnil] at houtput
    · exact Client.counted_run (fun _ _ _ hw => (by cases hw)) hr

def tunnelRequest : Request :=
  { method := connectMethod, target := "a:1".toList, version := "HTTP/1.1".toList,
    headers := ["Host: b".toList] }

lemma tunnelRequest_wellFormed : tunnelRequest.WellFormed := by decide

theorem bytes_behind_connect_tunneled :
    ∃ events c, Run Client.Step (Client.start ⟨0, 0⟩) events c ∧ c.output = [1, 2] ∧
      c.output ++ c.toGo = (c.sent.take c.consumed).drop (utf8 tunnelRequest.text).length ∧
      c.txBytes = 0 + UInt64.ofNat
        (((Client.start ⟨0, 0⟩).completed events).flatten.length + Client.elsewhere events) := by
  have hfirst : FirstBlankLine (utf8 tunnelRequest.text ++ [1, 2, 3])
      (utf8 tunnelRequest.text).length :=
    (firstBlankLine_append _ le_rfl).mpr (firstBlankLine_text tunnelRequest_wellFormed)
  have hreq : parseRequest ((utf8 tunnelRequest.text ++ [1, 2, 3]).take
      (utf8 tunnelRequest.text).length) = .ok tunnelRequest := by
    rw [List.take_left]
    exact parseRequest_text tunnelRequest_wellFormed
  have hjob : Asks tunnelRequest (.connect "a".toList 1) := .connect rfl (by decide)
  obtain ⟨events, c, total, hrun, hc⟩ :=
    Client.exists_served (n := 2) hfirst (by decide +kernel) hreq hjob (by simp) ⟨0, 0⟩
  have hsent := hc.sent
  obtain ⟨-, htoGo, hcount⟩ := connect_tunnels_stream.2 ⟨0, 0⟩ events c
    (utf8 tunnelRequest.text).length tunnelRequest hrun (by rw [hsent]; exact hfirst)
    (by rw [hsent]; exact hreq) rfl
  refine ⟨events, c, hrun, ?_, htoGo (by rw [hc.phase]; rfl), hcount⟩
  rw [hc.output, List.drop_left]
  rfl

end Http

end Yggstack
