import Yggstack.Http.Tunnel

namespace Yggstack.Http

open Library Relay

def declaredLength (req : Request) : Option ℕ :=
  match findHeader req.headers "Content-Length".toList with
  | none => some 0
  | some v => if v ≠ [] ∧ v.all Char.isDigit then some (Inet.number 10 v) else none

structure ForwardedRequest (head body : List UInt8) (req : Request) (t : ForwardTarget) : Prop where
  first : FirstBlankLine head head.length
  size : head.length ≤ maxHeadBytes + chunkLen
  parsed : parseRequest head = .ok req
  method : req.method ≠ connectMethod
  target : forwardTarget req = .ok t
  length : declaredLength req = some body.length

namespace ForwardedRequest

variable {head body later : List UInt8} {req : Request} {t : ForwardTarget}

lemma firstBlankLine (hreq : ForwardedRequest head body req t) (later : List UInt8) :
    FirstBlankLine (head ++ later) head.length :=
  (firstBlankLine_append later le_rfl).mpr hreq.first

lemma asks (hreq : ForwardedRequest head body req t) : Asks req (.forward req t) :=
  .forward hreq.method hreq.target

lemma output_prefix (hreq : ForwardedRequest head body req t) {entry : ListenerStats}
    {events : List Event} {c : Client} (hr : Run Client.Step (Client.start entry) events c)
    (hsent : c.sent <+: head ++ later) : c.output <+: utf8 (rewriteHead req t) ++ later := by
  have hstage : c.Stage :=
    hr.invariant (Client.stage_start entry) fun _ _ _ hs he => Client.stage_step hs he
  rcases hstage.recorded with hout | ⟨k, job, rest, hserves⟩
  · rw [hout]
    exact List.nil_prefix
  · obtain ⟨unsent, hsplit⟩ := hsent
    have hk : k = head.length := by
      have hfirst := (firstBlankLine_append unsent hserves.first.1.1).mpr hserves.first
      rw [hsplit] at hfirst
      exact hfirst.unique (hreq.firstBlankLine later)
    subst hk
    have hle : head.length ≤ c.sent.length := hserves.first.1.1
    have hhead : c.sent.take head.length = head := by
      have htake := congrArg (List.take head.length) hsplit
      rwa [List.take_append_of_le_length hle, List.take_left] at htake
    have htail : c.sent.drop head.length ++ unsent = later := by
      have hdrop := congrArg (List.drop head.length) hsplit
      rwa [List.drop_append_of_le_length hle, List.drop_left] at hdrop
    obtain ⟨req', hparse, hjob⟩ := hserves.asks
    rw [hhead, hreq.parsed] at hparse
    obtain rfl := Except.ok.inj hparse
    have hlead : job.lead = utf8 (rewriteHead req t) := by
      cases hjob with
      | connect hmethod => exact absurd hmethod hreq.method
      | forward _ htarget =>
        rw [hreq.target] at htarget
        obtain rfl := Except.ok.inj htarget
        rfl
    have hprefix := hserves.carries.output_prefix
    rw [hlead] at hprefix
    refine hprefix.trans ?_
    rw [List.prefix_append_right_inj]
    exact ⟨unsent, htail⟩

lemma exists_forwarded (hreq : ForwardedRequest head body req t) (later : List UInt8)
    (entry : ListenerStats) :
    ∃ events c, Run Client.Step (Client.start entry) events c ∧ c.sent = head ++ later ∧
      c.output = utf8 (rewriteHead req t) ++ later := by
  have hparsed : parseRequest ((head ++ later).take head.length) = .ok req := by
    rw [List.take_left]
    exact hreq.parsed
  obtain ⟨events, c, total, hr, hc⟩ := Client.exists_served (n := later.length)
    (hreq.firstBlankLine later) hreq.size hparsed hreq.asks (by simp) entry
  refine ⟨events, c, hr, hc.sent, ?_⟩
  rw [hc.output, List.drop_left, List.take_length]
  rfl

end ForwardedRequest

/-- The origin is sent the request and its body only, in every run, exactly if the client sends
nothing after them. -/
theorem origin_sent_request_alone_iff {head body later : List UInt8} {req : Request}
    {t : ForwardTarget} (hreq : ForwardedRequest head body req t) (entry : ListenerStats) :
    (∀ events c, Run Client.Step (Client.start entry) events c → c.sent <+: head ++ body ++ later →
      c.output <+: utf8 (rewriteHead req t) ++ body) ↔ later = [] := by
  constructor
  · intro hall
    obtain ⟨events, c, hr, hsent, hout⟩ := hreq.exists_forwarded (body ++ later) entry
    have hprefix := hall events c hr (by rw [hsent, List.append_assoc])
    rw [hout, List.prefix_append_right_inj] at hprefix
    have hlen := hprefix.length_le
    rw [List.length_append] at hlen
    exact List.length_eq_zero_iff.mp (by omega)
  · rintro rfl events c hr hsent
    rw [List.append_nil] at hsent
    exact hreq.output_prefix hr hsent

section Pipelined

def firstRequest : Request :=
  { method := "GET".toList, target := "http://[200::1]/a".toList, version := "HTTP/1.1".toList,
    headers := ["Host: [200::1]".toList] }

def firstTarget : ForwardTarget :=
  { host := "200::1".toList, port := 80, originForm := "/a".toList, authority := "[200::1]".toList }

def secondRequest : Request :=
  { method := "GET".toList, target := "http://[200::2]/b".toList, version := "HTTP/1.1".toList,
    headers := ["Proxy-Authorization: Basic YTpi".toList] }

lemma firstRequest_wellFormed : firstRequest.WellFormed := by decide

lemma firstRequest_forwarded :
    ForwardedRequest (utf8 firstRequest.text) [] firstRequest firstTarget where
  first := firstBlankLine_text firstRequest_wellFormed
  size := by decide +kernel
  parsed := parseRequest_text firstRequest_wellFormed
  method := by decide
  target := by decide
  length := by decide

def postRequest : Request :=
  { method := "POST".toList, target := "http://[200::1]/a".toList, version := "HTTP/1.1".toList,
    headers := ["Host: [200::1]".toList, "Content-Length: 3".toList] }

lemma postRequest_wellFormed : postRequest.WellFormed := by decide

lemma postRequest_forwarded :
    ForwardedRequest (utf8 postRequest.text) [1, 2, 3] postRequest firstTarget where
  first := firstBlankLine_text postRequest_wellFormed
  size := by decide +kernel
  parsed := parseRequest_text postRequest_wellFormed
  method := by decide
  target := by decide
  length := by decide

theorem lone_request_sent_alone :
    ForwardedRequest (utf8 postRequest.text) [1, 2, 3] postRequest firstTarget ∧
      ∀ events c, Run Client.Step (Client.start ⟨0, 0⟩) events c →
        c.sent <+: utf8 postRequest.text ++ [1, 2, 3] ++ [] →
        c.output <+: utf8 (rewriteHead postRequest firstTarget) ++ [1, 2, 3] :=
  ⟨postRequest_forwarded, (origin_sent_request_alone_iff postRequest_forwarded ⟨0, 0⟩).mpr rfl⟩

theorem second_request_reaches_first_origin :
    ForwardedRequest (utf8 firstRequest.text) [] firstRequest firstTarget ∧
      ∃ events c, Run Client.Step (Client.start ⟨0, 0⟩) events c ∧
        c.sent = utf8 firstRequest.text ++ utf8 secondRequest.text ∧
        c.output = utf8 (rewriteHead firstRequest firstTarget) ++ utf8 secondRequest.text ∧
        ¬c.output <+: utf8 (rewriteHead firstRequest firstTarget) ++ [] := by
  obtain ⟨events, c, hr, hsent, hout⟩ :=
    firstRequest_forwarded.exists_forwarded (utf8 secondRequest.text) ⟨0, 0⟩
  refine ⟨firstRequest_forwarded, events, c, hr, hsent, hout, fun hprefix => ?_⟩
  rw [hout, List.prefix_append_right_inj] at hprefix
  have hlen : (utf8 secondRequest.text).length = 0 := by simpa using hprefix
  exact absurd hlen (by decide +kernel)

end Pipelined

end Yggstack.Http
