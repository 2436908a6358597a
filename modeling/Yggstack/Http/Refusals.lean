import Yggstack.Http.Tunnel

namespace Yggstack.Http

open Library Relay

def Response : IoError → List UInt8 → Prop
  | .unresolved _, out | .dial, out => out = badGateway
  | .write, out | .writeZero, out => out = badRequest ∨ out = badGateway
  | _, out => out = badRequest

def BadConnect (head : List UInt8) : Prop :=
  ∃ req, parseRequest head = .ok req ∧ req.method = connectMethod ∧
    splitAuthority req.target 443 = none

lemma Response.cases {e : IoError} {out : List UInt8} (h : Response e out) :
    out = badRequest ∨ out = badGateway := by
  cases e with
  | unresolved reason => exact .inr h
  | dial => exact .inr h
  | write => exact h
  | writeZero => exact h
  | _ => exact .inl h

def Phase.writesClient : Phase → Bool
  | .refusing _ _ | .establishing _ _ => true
  | _ => false

def Phase.writesOrigin : Phase → Bool
  | .sendingHead _ _ _ | .sendingExtra _ _ => true
  | _ => false

namespace Client

variable {c c' : Client} {ev : Event}

def replied (c : Client) : List UInt8 := c.relay.rx.output

def HeardStep (c : Client) (ev : Event) (c' : Client) : Prop :=
  Step c ev c' ∧ ∀ answer, ev = .io answer → c.phase.writesClient = true → answer.Clean

def FlowingStep (c : Client) (ev : Event) (c' : Client) : Prop :=
  HeardStep c ev c' ∧ ∀ answer, ev = .io answer → c.phase.writesOrigin = true → answer.Clean

def Unrefused (out : List UInt8) : Prop := out = [] ∨ out = connectionEstablished

lemma not_unrefused {e : IoError} {out : List UInt8} (h : Response e out) : ¬Unrefused out := by
  rintro (rfl | rfl)
  · obtain h | h := h.cases
    · exact absurd h (by decide +kernel)
    · exact absurd h (by decide +kernel)
  · obtain h | h := h.cases
    · exact absurd h (by decide +kernel)
    · exact absurd h (by decide +kernel)

def Fresh (c : Client) : Prop :=
  match c.phase with
  | .head _ | .done (.ok _) => False
  | .resolving _ _ | .dialing _ _ _ | .sendingHead _ _ _ => c.replied = []
  | .refusing rest e => Response e (c.replied ++ rest)
  | .establishing rest _ => c.replied ++ rest = connectionEstablished
  | .sendingExtra _ _ | .relaying => Unrefused c.replied
  | .done (.error e) => Response e c.replied

def Unanswered (c : Client) : Prop :=
  ∃ e, c.phase = .done (.error e) ∧ Unrefused c.replied

lemma Fresh.congr (h : c.Fresh) (hphase : c'.phase = c.phase) (hout : c'.replied = c.replied) :
    c'.Fresh := by
  rw [Fresh, hphase, hout]
  exact h

lemma fresh_afterHead {r : Relay} {extra : List UInt8} (h : Unrefused r.rx.output) :
    Fresh ⟨r, afterHead extra⟩ := by
  rw [afterHead]
  split
  · exact h
  · exact h

lemma writeAll_cases (rest : List UInt8) (answer : Io) :
    writeAll rest answer = none ∨ (∃ e, writeAll rest answer = some (.error e) ∧ ¬answer.Clean) ∨
      ∃ bytes rest', writeAll rest answer = some (.ok (bytes, rest')) ∧ answer.Clean ∧
        bytes ++ rest' = rest := by
  cases answer with
  | write k =>
    by_cases hk : k = 0
    · exact .inr (.inl ⟨.writeZero, if_pos hk, fun hclean => hclean hk⟩)
    · by_cases hle : k ≤ rest.length
      · refine .inr (.inr ⟨rest.take k, rest.drop k, ?_, hk, List.take_append_drop k rest⟩)
        rw [writeAll, if_neg hk, if_pos hle]
      · left
        rw [writeAll, if_neg hk, if_neg hle]
  | writeError => exact .inr (.inl ⟨.write, rfl, id⟩)
  | read n => exact .inl rfl
  | readError => exact .inl rfl

lemma fresh_refusing {bytes rest : List UInt8} {e : IoError}
    (h : Response e (c.replied ++ (bytes ++ rest))) :
    Fresh ⟨c.toClient bytes, if rest = [] then .done (.error e) else .refusing rest e⟩ := by
  rw [← List.append_assoc] at h
  split
  · next hnil =>
    rw [hnil, List.append_nil] at h
    exact h
  · exact h

lemma fresh_establishing {bytes rest extra : List UInt8}
    (h : c.replied ++ (bytes ++ rest) = connectionEstablished) :
    Fresh ⟨c.toClient bytes, if rest = [] then afterHead extra else .establishing rest extra⟩ := by
  rw [← List.append_assoc] at h
  split
  · next hnil =>
    rw [hnil, List.append_nil] at h
    exact fresh_afterHead (.inr h)
  · exact h

lemma fresh_io {answer : Io} (hf : c.Fresh)
    (hheard : c.phase.writesClient = true → answer.Clean) (hs : c.io answer = some c') :
    c'.Fresh ∧ (c.phase.writesOrigin = true → answer.Clean) ∨
      c'.Unanswered ∧ c.phase.writesOrigin = true ∧ ¬answer.Clean := by
  rw [io] at hs
  rw [Fresh] at hf
  split at hs
  · next buf hp =>
    rw [hp] at hf
    exact hf.elim
  · next rest e hp =>
    rw [hp] at hf hheard ⊢
    obtain hw | ⟨e', hw, hfails⟩ | ⟨bytes, rest', hw, hclean, rfl⟩ := writeAll_cases rest answer
    · rw [hw] at hs
      cases hs
    · exact absurd (hheard rfl) hfails
    · rw [hw] at hs
      cases hs
      exact .inl ⟨fresh_refusing hf, fun _ => hclean⟩
  · next rest extra hp =>
    rw [hp] at hf hheard ⊢
    obtain hw | ⟨e', hw, hfails⟩ | ⟨bytes, rest', hw, hclean, rfl⟩ := writeAll_cases rest answer
    · rw [hw] at hs
      cases hs
    · exact absurd (hheard rfl) hfails
    · rw [hw] at hs
      cases hs
      exact .inl ⟨fresh_establishing hf, fun _ => hclean⟩
  · next outHead rest extra hp =>
    -- A write to the origin may fail, and then nothing more goes to the client.
    rw [hp] at hf ⊢
    obtain hw | ⟨e', hw, hfails⟩ | ⟨bytes, rest', hw, hclean, -⟩ := writeAll_cases rest answer
    · rw [hw] at hs
      cases hs
    · rw [hw] at hs
      cases hs
      exact .inr ⟨⟨e', rfl, .inl hf⟩, rfl, hfails⟩
    · refine .inl ⟨?_, fun _ => hclean⟩
      simp only [hw] at hs
      split at hs
      · cases hs
        exact fresh_afterHead (.inl hf)
      · cases hs
        exact hf
  · next extra rest hp =>
    rw [hp] at hf ⊢
    obtain hw | ⟨e', hw, hfails⟩ | ⟨bytes, rest', hw, hclean, -⟩ := writeAll_cases rest answer
    · rw [hw] at hs
      cases hs
    · rw [hw] at hs
      cases hs
      exact .inr ⟨⟨e', rfl, hf⟩, rfl, hfails⟩
    · refine .inl ⟨?_, fun _ => hclean⟩
      simp only [hw] at hs
      split at hs
      · cases hs
        exact hf
      · cases hs
        exact hf
  · cases hs

lemma fresh_resolved {answer : Except String (BitVec 128)} (hf : c.Fresh)
    (hs : c.resolved answer = some c') : c'.Fresh := by
  rw [resolved] at hs
  split at hs
  · next job extra hp =>
    rw [Fresh, hp] at hf
    split at hs
    · cases hs
      have hwhole : c.replied ++ badGateway = badGateway := by rw [hf, List.nil_append]
      exact hwhole
    · cases hs
      exact hf
  · cases hs

lemma fresh_dialed {ok : Bool} (hf : c.Fresh) (hs : c.dialed ok = some c') : c'.Fresh := by
  rw [dialed] at hs
  split at hs
  · next job remote extra hp =>
    rw [Fresh, hp] at hf
    split at hs
    · cases hs
      cases job with
      | connect host port =>
        have hwhole : c.replied ++ connectionEstablished = connectionEstablished := by
          rw [hf, List.nil_append]
        exact hwhole
      | forward req target => exact hf
    · cases hs
      have hwhole : c.replied ++ badGateway = badGateway := by rw [hf, List.nil_append]
      exact hwhole
  · cases hs

lemma endpoint_eq {dir : Dir} {e : Relay.Event}
    (he : (∃ bytes, e = .send dir bytes) ∨ e = .close dir ∨ e = .reset)
    (hs : c.endpoint dir e = some c') :
    c'.phase = c.phase ∧ c'.replied = c.replied := by
  rw [endpoint] at hs
  split at hs
  · split at hs
    · cases hs
    · next r' hexec =>
      cases hs
      refine ⟨rfl, ?_⟩
      obtain ⟨bytes, rfl⟩ | rfl | rfl := he
      · rw [Relay.exec] at hexec
        split at hexec
        · cases hexec
        · cases hexec
          cases dir <;> rfl
      · cases hexec
        cases dir <;> rfl
      · cases hexec
        rfl
  · cases hs

lemma fresh_step (hf : c.Fresh) (hp : c.phase ≠ .relaying) (hs : c.HeardStep ev c') :
    c'.Fresh ∧ c.FlowingStep ev c' ∨ c'.Unanswered ∧ ¬c.FlowingStep ev c' := by
  have hstep := hs
  obtain ⟨hexec, hheard⟩ := hs
  rw [Step] at hexec
  cases ev with
  | send dir bytes =>
    obtain ⟨hphase, hout⟩ := endpoint_eq (.inl ⟨bytes, rfl⟩) hexec
    exact .inl ⟨hf.congr hphase hout, hstep, fun _ h => by cases h⟩
  | close dir =>
    obtain ⟨hphase, hout⟩ := endpoint_eq (.inr (.inl rfl)) hexec
    exact .inl ⟨hf.congr hphase hout, hstep, fun _ h => by cases h⟩
  | reset =>
    obtain ⟨hphase, hout⟩ := endpoint_eq (.inr (.inr rfl)) hexec
    exact .inl ⟨hf.congr hphase hout, hstep, fun _ h => by cases h⟩
  | io answer =>
    obtain ⟨hf', hclean⟩ | ⟨hlost, hwrites, hfails⟩ := fresh_io hf (hheard answer rfl) hexec
    · refine .inl ⟨hf', hstep, ?_⟩
      rintro _ ⟨⟩
      exact hclean
    · exact .inr ⟨hlost, fun hflow => hfails (hflow.2 answer rfl hwrites)⟩
  | resolved answer => exact .inl ⟨fresh_resolved hf hexec, hstep, fun _ h => by cases h⟩
  | dialed ok => exact .inl ⟨fresh_dialed hf hexec, hstep, fun _ h => by cases h⟩
  | copy dir answer => exact absurd (relayed_cases hexec).1 hp
  | stop => exact absurd (relayed_cases hexec).1 hp
  | elsewhere dir n =>
    cases hexec
    exact .inl ⟨hf.congr rfl rfl, hstep, fun _ h => by cases h⟩

lemma done_step {r : Except IoError Unit} (hp : c.phase = .done r) (hs : Step c ev c') :
    c'.phase = .done r ∧ c'.replied = c.replied := by
  rw [Step] at hs
  cases ev with
  | send dir bytes =>
    obtain ⟨hphase, hout⟩ := endpoint_eq (.inl ⟨bytes, rfl⟩) hs
    exact ⟨hphase.trans hp, hout⟩
  | close dir =>
    obtain ⟨hphase, hout⟩ := endpoint_eq (.inr (.inl rfl)) hs
    exact ⟨hphase.trans hp, hout⟩
  | reset =>
    obtain ⟨hphase, hout⟩ := endpoint_eq (.inr (.inr rfl)) hs
    exact ⟨hphase.trans hp, hout⟩
  | io answer =>
    rw [exec, io, hp] at hs
    cases hs
  | resolved answer =>
    rw [exec, resolved, hp] at hs
    cases hs
  | dialed ok =>
    rw [exec, dialed, hp] at hs
    cases hs
  | copy dir answer =>
    rw [exec, relayed, hp] at hs
    cases hs
  | stop =>
    rw [exec, relayed, hp] at hs
    cases hs
  | elsewhere dir n =>
    cases hs
    exact ⟨hp, rfl⟩

lemma unanswered_step (hc : c.Unanswered) (hs : Step c ev c') : c'.Unanswered := by
  obtain ⟨e, hp, hout⟩ := hc
  obtain ⟨hp', hout'⟩ := done_step hp hs
  exact ⟨e, hp', hout' ▸ hout⟩

def Relayed (c : Client) : Prop := c.phase = .relaying ∨ c.phase = .done (.ok ())

lemma relayed_of_relaying {e : Relay.Event} (hs : c.relayed e = some c') : c'.Relayed := by
  obtain ⟨-, r, -, -, hphase⟩ := relayed_cases hs
  rw [Relayed, hphase]
  split
  · exact .inr rfl
  · exact .inl rfl

lemma relaying_step (hp : c.phase = .relaying) (hs : Step c ev c') : c'.Relayed := by
  rw [Step] at hs
  cases ev with
  | send dir bytes => exact .inl ((endpoint_eq (.inl ⟨bytes, rfl⟩) hs).1.trans hp)
  | close dir => exact .inl ((endpoint_eq (.inr (.inl rfl)) hs).1.trans hp)
  | reset => exact .inl ((endpoint_eq (.inr (.inr rfl)) hs).1.trans hp)
  | io answer =>
    rw [exec, io, hp] at hs
    cases hs
  | resolved answer =>
    rw [exec, resolved, hp] at hs
    cases hs
  | dialed ok =>
    rw [exec, dialed, hp] at hs
    cases hs
  | copy dir answer => exact relayed_of_relaying hs
  | stop => exact relayed_of_relaying hs
  | elsewhere dir n =>
    cases hs
    exact .inl hp

lemma relayed_step (hc : c.Relayed) (hs : c.HeardStep ev c') :
    c'.Relayed ∧ c.FlowingStep ev c' := by
  refine ⟨?_, hs, fun answer _ hwrites => ?_⟩
  · rcases hc with hp | hp
    · exact relaying_step hp hs.1
    · exact .inr (done_step hp hs.1).1
  · rcases hc with hp | hp <;> rw [hp] at hwrites <;> cases hwrites

lemma settled_step (hc : c.Fresh ∨ c.Relayed) (hs : c.HeardStep ev c') :
    (c'.Fresh ∨ c'.Relayed) ∧ c.FlowingStep ev c' ∨ c'.Unanswered ∧ ¬c.FlowingStep ev c' := by
  rcases hc with hf | hr
  · by_cases hp : c.phase = .relaying
    · obtain ⟨hr', hflow⟩ := relayed_step (.inl hp) hs
      exact .inl ⟨.inr hr', hflow⟩
    · obtain ⟨hf', hflow⟩ | hlost := fresh_step hf hp hs
      · exact .inl ⟨.inl hf', hflow⟩
      · exact .inr hlost
  · obtain ⟨hr', hflow⟩ := relayed_step hr hs
    exact .inl ⟨.inr hr', hflow⟩

lemma settled_run {events : List Event} (hr : Run HeardStep c events c')
    (hc : c.Fresh ∨ c.Relayed) :
    (c'.Fresh ∨ c'.Relayed) ∧ Run FlowingStep c events c' ∨ c'.Unanswered := by
  induction hr with
  | nil s => exact .inl ⟨hc, .nil s⟩
  | cons hs hrest ih =>
    -- Either the first step keeps the invariant, or the rest of the run is over before it starts.
    obtain ⟨hsettled, hflow⟩ | ⟨hlost, -⟩ := settled_step hc hs
    · obtain ⟨hend, hrun⟩ | hend := ih hsettled
      · exact .inl ⟨hend, .cons hflow hrun⟩
      · exact .inr hend
    · exact .inr (hrest.invariant hlost fun _ _ _ h hs => unanswered_step h hs.1)

/-- An end without a relay was answered, and a relay begins without an answer of the proxy's own. -/
structure Answered (c : Client) : Prop where
  ended : ∀ e, c.phase = .done (.error e) → Response e c.replied
  begun : ∀ ev c', c.HeardStep ev c' → c.phase ≠ .relaying → c'.phase = .relaying →
    Unrefused c'.replied

lemma answered_of_settled (hc : c.Fresh ∨ c.Relayed) : c.Answered := by
  constructor
  · intro e hp
    rcases hc with hf | hr | hr
    · rw [Fresh, hp] at hf
      exact hf
    · rw [hp] at hr
      cases hr
    · rw [hp] at hr
      cases hr
  · intro ev c' hs hp hp'
    rcases hc with hf | hr | hr
    · obtain ⟨hf', -⟩ | ⟨⟨e, hdone, -⟩, -⟩ := fresh_step hf hp hs
      · rw [Fresh, hp'] at hf'
        exact hf'
      · rw [hp'] at hdone
        cases hdone
    · exact absurd hr hp
    · have hdone := (done_step hr hs.1).1
      rw [hp'] at hdone
      cases hdone

lemma not_answered (hc : c.Unanswered) : ¬c.Answered := by
  obtain ⟨e, hp, hout⟩ := hc
  intro ha
  exact not_unrefused (ha.ended e hp) hout

end Client

lemma response_parse {head : List UInt8} {e : IoError} (h : parseRequest head = .error e) :
    Response e badRequest := by
  rw [parseRequest] at h
  cases htext : fromUtf8 head with
  | none =>
    rw [htext] at h
    cases h
    exact rfl
  | some text =>
    rw [htext] at h
    simp only [Option.elim, ok_bind] at h
    split at h
    · cases h
      exact rfl
    · split at h
      · cases h
        exact rfl
      · cases h
        exact rfl
      · cases h
        exact rfl
      · cases h
      · cases h
        exact rfl

lemma response_target {req : Request} {e : IoError} (h : forwardTarget req = .error e) :
    Response e badRequest := by
  rw [forwardTarget] at h
  split at h
  · simp only at h
    split at h
    · cases h
      exact rfl
    · cases h
  · split at h
    · split at h
      · cases h
        exact rfl
      · split at h
        · cases h
          exact rfl
        · cases h
    · cases h
      exact rfl

lemma fresh_handleClient {c : Client} {head extra : List UInt8}
    (hphase : c.phase = handleClient head extra) (hout : c.replied = [])
    (hgood : ¬BadConnect head) : c.Fresh := by
  rw [handleClient] at hphase
  cases hparse : parseRequest head with
  | error e =>
    rw [hparse] at hphase
    have hresponse : Response e (c.replied ++ badRequest) := by
      rw [hout, List.nil_append]
      exact response_parse hparse
    rw [Client.Fresh, hphase]
    exact hresponse
  | ok req =>
    rw [hparse] at hphase
    simp only at hphase
    by_cases hmethod : req.method = connectMethod
    · rw [if_pos hmethod] at hphase
      cases hsplit : splitAuthority req.target 443 with
      | none => exact absurd ⟨req, hparse, hmethod, hsplit⟩ hgood
      | some target =>
        rw [hsplit] at hphase
        rw [Client.Fresh, hphase]
        exact hout
    · rw [if_neg hmethod] at hphase
      cases htarget : forwardTarget req with
      | error e =>
        rw [htarget] at hphase
        have hresponse : Response e (c.replied ++ badRequest) := by
          rw [hout, List.nil_append]
          exact response_target htarget
        rw [Client.Fresh, hphase]
        exact hresponse
      | ok target =>
        rw [htarget] at hphase
        rw [Client.Fresh, hphase]
        exact hout

lemma unanswered_handleClient {c : Client} {head extra : List UInt8}
    (hphase : c.phase = handleClient head extra) (hout : c.replied = [])
    (hbad : BadConnect head) : c.Unanswered := by
  obtain ⟨req, hparse, hmethod, hsplit⟩ := hbad
  rw [handleClient, hparse] at hphase
  simp only at hphase
  rw [if_pos hmethod, hsplit] at hphase
  exact ⟨.badConnectAuthority, hphase, .inl hout⟩

/-- A client is answered, however its request goes, unless it asks for a tunnel to what is no
authority, or the origin is lost before the relay. -/
theorem request_answered_iff {head extra : List UInt8} {c₀ c : Client} {events : List Event}
    (hphase : c₀.phase = handleClient head extra) (hout : c₀.replied = [])
    (hr : Run Client.HeardStep c₀ events c) :
    c.Answered ↔ ¬BadConnect head ∧ Run Client.FlowingStep c₀ events c := by
  constructor
  · intro ha
    have hgood : ¬BadConnect head := by
      intro hbad
      have hun := hr.invariant (unanswered_handleClient hphase hout hbad)
        fun _ _ _ h hs => Client.unanswered_step h hs.1
      exact Client.not_answered hun ha
    refine ⟨hgood, ?_⟩
    obtain ⟨-, hflow⟩ | hun := Client.settled_run hr (.inl (fresh_handleClient hphase hout hgood))
    · exact hflow
    · exact absurd ha (Client.not_answered hun)
  · rintro ⟨hgood, hflow⟩
    apply Client.answered_of_settled
    apply hflow.invariant (.inl (fresh_handleClient hphase hout hgood))
    intro c ev c' hc hs
    obtain ⟨hc', -⟩ | ⟨-, hfails⟩ := Client.settled_step hc hs.1
    · exact hc'
    · exact absurd hs hfails

section Bare

def unresolvedRequest : Request :=
  { method := connectMethod, target := "h:1".toList, version := "HTTP/1.1".toList,
    headers := ["Host: h".toList] }

def unresolvedClient : Client :=
  ⟨.start [] [] ⟨0, 0⟩, handleClient (utf8 unresolvedRequest.text) [1, 2]⟩

lemma parse_unresolvedRequest : parseRequest (utf8 unresolvedRequest.text) = .ok unresolvedRequest :=
  parseRequest_text (by decide)

lemma splitAuthority_unresolved :
    splitAuthority unresolvedRequest.target 443 = some ("h".toList, 1) := by
  decide

lemma unresolved_run : Run Client.FlowingStep unresolvedClient
    [.resolved (.error "no server"), .io (.write badGateway.length)]
    ⟨unresolvedClient.toClient badGateway, .done (.error (.unresolved "no server"))⟩ := by
  have hphase : unresolvedClient.phase = .resolving (.connect "h".toList 1) [1, 2] := by
    rw [unresolvedClient, handleClient, parse_unresolvedRequest]
    simp only
    rw [if_pos (show unresolvedRequest.method = connectMethod from rfl), splitAuthority_unresolved]
  have hname : resolveRemote "h".toList 1 (.error "no server") = .error "no server" := by
    rw [resolveRemote, show Inet.parseWith Inet.readIpv6 "h".toList = none by decide,
      show Inet.parseWith Inet.readIpv4 "h".toList = none by decide]
    rfl
  have hne : badGateway ≠ [] := by decide +kernel
  have hw := Client.writeAll_whole hne
  have hclean : (Relay.Io.write badGateway.length).Clean := by
    intro hlen
    exact hne (List.length_eq_zero_iff.mp hlen)
  have hresolved : unresolvedClient.FlowingStep (.resolved (.error "no server"))
      { unresolvedClient with phase := .refusing badGateway (.unresolved "no server") } := by
    refine ⟨⟨?_, fun _ h => (by cases h)⟩, fun _ h => (by cases h)⟩
    rw [Client.Step, Client.exec, Client.resolved, hphase]
    simp only [Job.host, Job.port, hname]
  refine .cons hresolved (.single ⟨⟨?_, ?_⟩, ?_⟩)
  · rw [Client.Step, Client.exec, Client.io]
    simp only [hw, if_true]
    rfl
  · rintro _ ⟨⟩ -
    exact hclean
  · rintro _ ⟨⟩ -
    exact hclean

theorem unresolved_request_answered :
    Client.Answered
      ⟨unresolvedClient.toClient badGateway, .done (.error (.unresolved "no server"))⟩ := by
  have hgood : ¬BadConnect (utf8 unresolvedRequest.text) := by
    rintro ⟨req, hparse, -, hsplit⟩
    rw [parse_unresolvedRequest] at hparse
    cases hparse
    rw [splitAuthority_unresolved] at hsplit
    cases hsplit
  have hphase : unresolvedClient.phase = handleClient (utf8 unresolvedRequest.text) [1, 2] := rfl
  exact (request_answered_iff hphase rfl (unresolved_run.mono fun _ _ _ hs => hs.1)).mpr
    ⟨hgood, unresolved_run⟩

def badConnectRequest : Request :=
  { method := connectMethod, target := "h:https".toList, version := "HTTP/1.1".toList,
    headers := [] }

theorem bad_authority_unanswered :
    FirstBlankLine (utf8 badConnectRequest.text) (utf8 badConnectRequest.text).length ∧
      ∃ events c, Run Client.Step (Client.start ⟨0, 0⟩) events c ∧
        c.sent = utf8 badConnectRequest.text ∧
        c.phase = handleClient (utf8 badConnectRequest.text) [] ∧
        c.phase = .done (.error .badConnectAuthority) ∧ c.replied = [] ∧ ¬c.Answered := by
  have hwf : badConnectRequest.WellFormed := by decide
  have hfirst := firstBlankLine_text hwf
  obtain ⟨events, hr⟩ := Client.run_head ⟨0, 0⟩ hfirst (by decide +kernel)
  have hphase : (Client.reader ⟨0, 0⟩ _ _).phase = handleClient _ [] :=
    Client.phase_reader hfirst
  rw [List.take_length] at hphase
  have hbad : BadConnect (utf8 badConnectRequest.text) :=
    ⟨badConnectRequest, parseRequest_text hwf, rfl, by decide⟩
  have hdone : handleClient (utf8 badConnectRequest.text) [] =
      .done (.error .badConnectAuthority) := by
    rw [handleClient, parseRequest_text hwf]
    rfl
  exact ⟨hfirst, events, _, hr, rfl, hphase, hphase.trans hdone, rfl,
    Client.not_answered (unanswered_handleClient hphase rfl hbad)⟩

end Bare

end Yggstack.Http
