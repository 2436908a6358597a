import Yggstack.Resolver.Lookups
import Yggstack.Resolver.Message
import Yggstack.Resolver.Resolve

namespace Yggstack.Resolver

open Library Inet

section Classification

def response (name nameserver : String) (trips : Trips) : Except String (List UInt8) :=
  match nameserverAddr nameserver with
  | .error e => .error e
  | .ok nsAddr => (exchange (buildDnsQuery name 28) nsAddr trips).2

/-- A whole response of a server that could answer the question. -/
def Final (resp : List UInt8) : Prop := ∃ m, decodeMessage resp = some m ∧ m.isFinal

def LacksAddress (resp : List UInt8) : Prop :=
  ∃ m, decodeMessage resp = some m ∧ m.isFinal ∧ ∀ r ∈ m.answers, ¬r.isAddress

inductive MeetsAddress (buf : List UInt8) : (count pos : ℕ) → Prop
  | here {count pos next : ℕ} : skipDnsName buf pos = some next → next + 10 + 16 ≤ buf.length →
      word buf next = 28 → (word buf (next + 8)).toNat = 16 → MeetsAddress buf (count + 1) pos
  | later {count pos next : ℕ} : skipDnsName buf pos = some next → next + 10 ≤ buf.length →
      MeetsAddress buf count (next + 10 + (word buf (next + 8)).toNat) →
      MeetsAddress buf (count + 1) pos

-- The records are looked for behind one question, whatever the header counts.
def AddressBehindQuestion (buf : List UInt8) : Prop :=
  ∃ pos, skipDnsName buf 12 = some pos ∧ MeetsAddress buf (word buf 6).toNat (pos + 4)

def Authoritative (resp : List UInt8) : Prop :=
  ∃ m, decodeMessage resp = some m ∧ m.isFinal ∧
    (m.questions.length = 1 ∨ (∀ r ∈ m.answers, ¬r.isAddress) ∨ AddressBehindQuestion resp)

structure ReportsTruly (resp : List UInt8) (result : Except String DnsAnswer) : Prop where
  noRecord : result = .ok .noRecord → LacksAddress resp
  failed : ¬Final resp → ∃ e, result = .error e

variable {name nameserver : String} {trips : Trips} {resp : List UInt8}

lemma dnsLookupIpv6_snd (name nameserver : String) (trips : Trips) :
    (dnsLookupIpv6 name nameserver trips).2 = (response name nameserver trips).map classify := by
  unfold dnsLookupIpv6 response
  cases nameserverAddr nameserver with
  | error e => rfl
  | ok nsAddr => rfl

lemma scanAaaa_of_ok {result : Option (BitVec 128)} (h : parseDnsAaaaResponse resp = .ok result) :
    scanAaaa resp = result := by
  rw [scanAaaa]
  split
  · next found hfound =>
    rw [h] at hfound
    cases hfound
    rfl
  · next p hp =>
    rw [h] at hp
    cases hp

lemma exists_of_meetsAddress {count pos : ℕ} (h : MeetsAddress resp count pos) :
    ∃ ip, parseAnswers resp count pos = .ok (some ip) := by
  induction h with
  | here hskip hroom htype hlen =>
    rw [parseAnswers_succ hskip (by omega), if_pos ⟨htype, hlen, hroom⟩]
    exact ⟨_, rfl⟩
  | later hskip hroom _ ih =>
    rw [parseAnswers_succ hskip hroom]
    split
    · exact ⟨_, rfl⟩
    · exact ih

lemma meetsAddress_of_parseAnswers {count pos : ℕ} {ip : BitVec 128}
    (h : parseAnswers resp count pos = .ok (some ip)) : MeetsAddress resp count pos := by
  induction count generalizing pos with
  | zero => cases h
  | succ count ih =>
    by_cases hread : ∃ next, skipDnsName resp pos = some next ∧ next + 10 ≤ resp.length
    · obtain ⟨next, hskip, hroom⟩ := hread
      rw [parseAnswers_succ hskip hroom] at h
      split at h
      · next haddr => exact .here hskip haddr.2.2 haddr.1 haddr.2.1
      · exact .later hskip hroom (ih h)
    · rw [parseAnswers_eq_none] at h
      · cases h
      · intro next hskip
        by_contra hroom
        exact hread ⟨next, hskip, by omega⟩

lemma classify_of_behindQuestion (hlen : 12 ≤ resp.length) (h : AddressBehindQuestion resp) :
    ∃ ip, classify resp = .ip ip := by
  obtain ⟨pos, hskip, hmeets⟩ := h
  obtain ⟨ip, hip⟩ := exists_of_meetsAddress hmeets
  have hcount : (word resp 6).toNat ≠ 0 := by
    intro hzero
    rw [hzero] at hmeets
    cases hmeets
  have hparse : parseDnsAaaaResponse resp = .ok (some ip) := by
    rw [parseDnsAaaaResponse_eq hlen, if_neg hcount, hskip]
    exact hip
  exact ⟨ip, by rw [classify, scanAaaa_of_ok hparse]⟩

lemma classify_eq_noRecord (hlen : 12 ≤ resp.length) (h : ¬AddressBehindQuestion resp) :
    classify resp = .noRecord := by
  obtain ⟨result, hparse⟩ := parseDnsAaaaResponse_ok resp
  rw [classify, scanAaaa_of_ok hparse]
  cases result with
  | none => rfl
  | some ip =>
    rw [parseDnsAaaaResponse_eq hlen] at hparse
    split at hparse
    · cases hparse
    · split at hparse
      · cases hparse
      · next pos hskip => exact absurd ⟨pos, hskip, meetsAddress_of_parseAnswers hparse⟩ h

lemma behindQuestion_of_one {m : Message} (h : decodeMessage resp = some m)
    (hone : m.questions.length = 1) (haddress : ¬∀ r ∈ m.answers, ¬r.isAddress) :
    AddressBehindQuestion resp := by
  by_contra hno
  have hclass := classify_eq_noRecord (decodeMessage_cases h).1 hno
  rw [classify, scanAaaa_of_ok (parse_message h hone)] at hclass
  cases hfound : m.address? with
  | none =>
    rw [Message.address?, Option.map_eq_none_iff, List.find?_eq_none] at hfound
    exact haddress hfound
  | some ip =>
    rw [hfound] at hclass
    cases hclass

lemma Authoritative.final (h : Authoritative resp) : Final resp := by
  obtain ⟨m, hm, hfinal, -⟩ := h
  exact ⟨m, hm, hfinal⟩

lemma Authoritative.lacksAddress (h : Authoritative resp) (hc : classify resp = .noRecord) :
    LacksAddress resp := by
  obtain ⟨m, hm, hfinal, hread⟩ := h
  refine ⟨m, hm, hfinal, ?_⟩
  by_contra haddress
  have hbehind : AddressBehindQuestion resp := by
    rcases hread with hone | hnone | hbehind
    · exact behindQuestion_of_one hm hone haddress
    · exact absurd hnone haddress
    · exact hbehind
  obtain ⟨ip, hip⟩ := classify_of_behindQuestion (decodeMessage_cases hm).1 hbehind
  rw [hip] at hc
  cases hc

lemma reportsTruly_iff (h : response name nameserver trips = .ok resp) :
    ReportsTruly resp (dnsLookupIpv6 name nameserver trips).2 ↔ Authoritative resp := by
  have hresult : (dnsLookupIpv6 name nameserver trips).2 = .ok (classify resp) := by
    rw [dnsLookupIpv6_snd, h]
    rfl
  rw [hresult]
  constructor
  · intro ht
    have hfinal : Final resp := by
      by_contra hno
      obtain ⟨e, he⟩ := ht.failed hno
      cases he
    obtain ⟨m, hm, hfinal⟩ := hfinal
    refine ⟨m, hm, hfinal, .inr ?_⟩
    by_contra hread
    obtain ⟨haddress, hno⟩ := not_or.mp hread
    obtain ⟨m', hm', -, hnone⟩ :=
      ht.noRecord (congrArg Except.ok (classify_eq_noRecord (decodeMessage_cases hm).1 hno))
    obtain rfl : m = m' := Option.some.inj (hm.symm.trans hm')
    exact haddress hnone
  · intro hauthoritative
    constructor
    · intro hc
      exact hauthoritative.lacksAddress (Except.ok.inj hc)
    · intro hno
      exact absurd hauthoritative.final hno

lemma noRecordError_ne_allFailed (q : Query) (e : String) :
    q.noRecordError ≠ q.allFailedError e := by
  intro h
  have hliteral : "no AAAA record found for '".toList.head? = some 'n' := by decide
  have hno : q.noRecordError.toList.head? = some 'n' := by
    unfold Query.noRecordError
    rw [String.toList_append, String.toList_append, List.append_assoc, List.head?_append, hliteral]
    exact Option.some_or
  have hall : (q.allFailedError e).toList.head? = some 'a' := by
    simp [Query.allFailedError, String.toList_append]
  rw [h, hall] at hno
  exact absurd hno (by decide)

lemma NameResolver.resolve_dns {r : NameResolver} {around : Surroundings} (crates : Crates)
    (hliteral : parseIpv6 name = none) (hkey : ¬nameMappingSuffix <:+ name.toList) :
    r.resolve name around crates = r.resolveDns name around := by
  unfold NameResolver.resolve
  rw [hliteral]
  exact if_neg hkey

lemma NameResolver.resolveDns_walk {r : NameResolver} {around : Surroundings}
    (hmany : 1 < r.nameservers.length) :
    (r.resolveDns name around).1 =
      (r.failoverWalk name around hmany).1.result.getD
        (.error ((r.failoverWalk name around hmany).1.query.allFailedError
          (r.failoverWalk name around hmany).1.lastErr)) := by
  have hempty : r.nameservers ≠ [] := by
    intro h
    rw [h] at hmany
    cases hmany
  rw [NameResolver.resolveDns, dif_neg hempty, dif_neg (by omega)]

lemma NameResolver.noRecord_of_walk {r : NameResolver} {around : Surroundings}
    (hmany : 1 < r.nameservers.length)
    (h : (r.resolveDns name around).1 = .error (r.query name).noRecordError) :
    ∃ i, (dnsLookupIpv6 name (r.nameservers.getD i "") (around.trips i)).2 = .ok .noRecord := by
  have hcursor : (r.failover.get (r.paired hmany)).current < (r.query name).servers.length :=
    r.cursor _ (Option.get_mem _)
  have hdone := resolve_resolved hcursor around.now (attemptOn name r.nameservers around) around.clock
  have hquery : (r.failoverWalk name around hmany).1.query = r.query name := by
    rw [NameResolver.failoverWalk, resolve_eq]
    exact (Lookup.finish_query _).1
  rw [resolveDns_walk hmany] at h
  obtain ⟨result, hresult⟩ := Option.isSome_iff_exists.mp hdone.leaves.returned
  change (r.failoverWalk name around hmany).1.result = some result at hresult
  rw [hresult, Option.getD_some] at h
  subst h
  cases hdone.walked with
  | ongoing hnone =>
    change (r.failoverWalk name around hmany).1.result = none at hnone
    rw [hresult] at hnone
    cases hnone
  | @answered pre c a hcontacted _ hanswer hreturned =>
    change (r.failoverWalk name around hmany).1.result = _ at hreturned
    rw [hresult] at hreturned
    obtain ⟨hattempt, -⟩ := hdone.follows c (by rw [hcontacted]; simp)
    refine ⟨c.server, ?_⟩
    rw [hattempt, attemptOn] at hanswer
    cases a with
    | ip ip => cases hreturned
    | noRecord =>
      split at hanswer
      · cases hanswer
      · cases hlookup : (dnsLookupIpv6 name (r.nameservers.getD c.server "")
          (around.trips c.server)).2 with
        | ok a =>
          rw [hlookup] at hanswer
          cases hanswer
          rfl
        | error e =>
          rw [hlookup] at hanswer
          cases hanswer
  | exhausted _ _ _ _ hreturned =>
    change (r.failoverWalk name around hmany).1.result =
      some (.error ((r.failoverWalk name around hmany).1.query.allFailedError _)) at hreturned
    rw [hresult, hquery] at hreturned
    exact absurd (Except.error.inj (Option.some.inj hreturned)) (noRecordError_ne_allFailed _ _)

def servfailReply : List UInt8 :=
  [0x00, 0x01, 0x81, 0x82, 0x00, 0x01, 0x00, 0x00, 0x00, 0x00, 0x00, 0x00,
    1, 97, 0, 0x00, 0x1c, 0x00, 0x01]

def nxdomainReply : List UInt8 :=
  [0x00, 0x01, 0x81, 0x83, 0x00, 0x01, 0x00, 0x00, 0x00, 0x00, 0x00, 0x00,
    1, 97, 0, 0x00, 0x1c, 0x00, 0x01]

def repliedWith (reply : List UInt8) : Trips where
  first := ⟨.ok (), .ok (), some (.ok reply)⟩
  retry := ⟨.ok (), .ok (), none⟩
  tcp := ⟨.error "refused", .ok (), [], "early eof"⟩

/-- A lookup reports a message as what it is exactly when the message is a whole, final response
whose answers the scan cannot miss; while every server returns such messages, a walk over several
ends without a record only where a server said so. -/
theorem no_record_is_authoritative_iff (name nameserver : String) (trips : Trips)
    (resp : List UInt8) (h : response name nameserver trips = .ok resp) :
    (ReportsTruly resp (dnsLookupIpv6 name nameserver trips).2 ↔
        Authoritative resp) ∧
      ∀ (r : NameResolver) (around : Surroundings) (crates : Crates),
        1 < r.nameservers.length → parseIpv6 name = none → ¬nameMappingSuffix <:+ name.toList →
        (∀ i resp, response name (r.nameservers.getD i "") (around.trips i) = .ok resp →
          Authoritative resp) →
        (r.resolve name around crates).1 = .error (r.query name).noRecordError →
        ∃ i resp, response name (r.nameservers.getD i "") (around.trips i) = .ok resp ∧
          LacksAddress resp := by
  refine ⟨reportsTruly_iff h, ?_⟩
  intro r around crates hmany hliteral hkey hfinal hresult
  rw [NameResolver.resolve_dns crates hliteral hkey] at hresult
  obtain ⟨i, hi⟩ := NameResolver.noRecord_of_walk hmany hresult
  rw [dnsLookupIpv6_snd] at hi
  cases hresp : response name (r.nameservers.getD i "") (around.trips i) with
  | error e =>
    rw [hresp] at hi
    cases hi
  | ok resp =>
    rw [hresp] at hi
    exact ⟨i, resp, hresp, (hfinal i resp hresp).lacksAddress (Except.ok.inj hi)⟩

lemma not_final_of_rcode {resp : List UInt8} (h : (word resp 2).toNat % 16 = 2) : ¬Final resp := by
  rintro ⟨m, hm, hfinal⟩
  obtain ⟨-, hflags, -⟩ := decodeMessage_cases hm
  simp only [Message.isFinal, Message.rcode, hflags, h, Message.noError, Message.nxDomain,
    decide_eq_true_eq] at hfinal
  omega

def twoServers : NameResolver where
  nameservers := ["[308::1]:53", "[308::2]:53"]
  failover := some .new
  paired _ := rfl
  cursor f hf := by
    cases hf
    decide

def servfailThenAddress : Surroundings where
  trips i :=
    if i = 0 then repliedWith servfailReply
    else repliedWith (dnsResponse "a" 1 0x8180 [addressRecord] [])
  late _ := false
  now := 0
  clock _ := 0

theorem servfail_taken_as_no_record :
    response "a" "[308::1]:53" (repliedWith servfailReply) = .ok servfailReply ∧
      ¬Final servfailReply ∧
      ¬ReportsTruly servfailReply (dnsLookupIpv6 "a" "[308::1]:53" (repliedWith servfailReply)).2 ∧
      ∃ crates, (twoServers.resolve "a" servfailThenAddress crates).1 =
        .error "no AAAA record found for 'a'" := by
  have hno : ¬Final servfailReply := not_final_of_rcode (by decide)
  have hresp : response "a" "[308::1]:53" (repliedWith servfailReply) = .ok servfailReply := rfl
  refine ⟨hresp, hno, ?_, ⟨fun _ => .error "", fun _ => 0⟩, ?_⟩
  · rw [reportsTruly_iff hresp]
    exact fun h => hno h.final
  · rfl

lemma authoritative_nxdomainReply : Authoritative nxdomainReply := by
  have hlabel : ∀ label ∈ [[(97 : UInt8)]], 0 < label.length ∧ label.length ≤ 63 := by decide
  have hname : decodeName nxdomainReply 12 12 = some ([[97]], 15) :=
    decodeName_labels hlabel 12 (nxdomainReply.take 12) [0x00, 0x1c, 0x00, 0x01]
  refine ⟨⟨0x8183, [⟨[[97]], 28, 1⟩], [], [], []⟩, ?_, by decide, .inl rfl⟩
  rw [decodeMessage, if_neg (by decide), show (word nxdomainReply 4).toNat = 1 from rfl,
    decodeSection, decodeInquiry, decodeDomain, hname]
  rfl

theorem nxdomain_reported_truly :
    ReportsTruly nxdomainReply (dnsLookupIpv6 "a" "[308::1]:53" (repliedWith nxdomainReply)).2 :=
  (no_record_is_authoritative_iff "a" "[308::1]:53" (repliedWith nxdomainReply) nxdomainReply rfl).1.mpr
    authoritative_nxdomainReply

end Classification

section Queries

structure QueryFor (name : String) (qtype : UInt16) (query : List UInt8) : Prop where
  counts : word query 4 = 1 ∧ word query 6 = 0 ∧ word query 8 = 0 ∧ word query 10 = 0
  labels : decodeName query 0 12 = some ((labelsOf name).map utf8, query.length - 4)
  skipped : skipDnsName query 12 = some (query.length - 4)
  trailer : query.drop (query.length - 4) = beBytes16 qtype ++ [0x00, 0x01]

def queryHeader : List UInt8 := [0, 1, 1, 0, 0, 1, 0, 0, 0, 0, 0, 0]

lemma buildDnsQuery_eq (name : String) (qtype : UInt16) :
    buildDnsQuery name qtype = queryHeader ++
      (((labelsOf name).map utf8).flatMap encodeLabel ++
        0 :: (beBytes16 qtype ++ [0x00, 0x01])) := by
  simp [buildDnsQuery, queryHeader, List.flatMap_map]

lemma queryFor_of_labels {name : String} (qtype : UInt16)
    (h : ∀ label ∈ labelsOf name, 0 < (utf8 label).length ∧ (utf8 label).length ≤ 63) :
    QueryFor name qtype (buildDnsQuery name qtype) := by
  have hlabels : ∀ label ∈ (labelsOf name).map utf8, 0 < label.length ∧ label.length ≤ 63 := by
    intro label hl
    obtain ⟨l, hmem, rfl⟩ := List.mem_map.mp hl
    exact h l hmem
  have hdecode := decodeName_labels hlabels 0 queryHeader (beBytes16 qtype ++ [0x00, 0x01])
  have hlen : (buildDnsQuery name qtype).length - 4 =
      (queryHeader ++ ((labelsOf name).map utf8).flatMap encodeLabel).length + 1 := by
    rw [buildDnsQuery_eq]
    simp [beBytes16]
    omega
  rw [← buildDnsQuery_eq, ← hlen] at hdecode
  refine ⟨?_, hdecode, skipDnsName_of_decodeName hdecode, ?_⟩
  · rw [buildDnsQuery_eq]
    generalize ((labelsOf name).map utf8).flatMap encodeLabel ++ _ = rest
    refine ⟨?_, ?_, ?_, ?_⟩ <;> simp only [word, queryHeader, List.cons_append, List.getD_cons_succ,
      List.getD_cons_zero] <;> decide
  · rw [hlen, buildDnsQuery_eq, ← List.append_assoc, List.append_cons]
    apply List.drop_left'
    rw [List.length_append, List.length_singleton]

lemma labels_of_queryFor {name : String} {qtype : UInt16} {query : List UInt8}
    (h : QueryFor name qtype query) :
    ∀ label ∈ labelsOf name, 0 < (utf8 label).length ∧ (utf8 label).length ≤ 63 := by
  intro label hl
  exact label_of_decodeName h.labels (utf8 label) (List.mem_map_of_mem hl)

variable {query : List UInt8} {nsAddr : SocketAddr} {p : Packet}

lemma query_of_udp {trip : UdpTrip} (h : p ∈ (dnsLookupUdp query nsAddr trip).1) :
    p.query = query := by
  rw [dnsLookupUdp] at h
  split at h
  · cases h
  · split at h
    · cases h
    · rw [List.mem_singleton.mp h]
      rfl

lemma query_of_tcp {trip : TcpTrip} (h : p ∈ (dnsLookupTcp query nsAddr trip).1) :
    p.query = query := by
  rw [dnsLookupTcp] at h
  split at h
  · cases h
  · split at h
    · cases h
    · rw [List.mem_singleton.mp h]
      rfl

lemma query_of_udpExchange {trips : Trips} (h : p ∈ (udpExchange query nsAddr trips).1) :
    p.query = query := by
  rw [udpExchange] at h
  split at h
  · next sent resp hfirst =>
    have hsent : p ∈ (dnsLookupUdp query nsAddr trips.first).1 := by
      rw [hfirst]
      exact h
    exact query_of_udp hsent
  · next sent e hfirst =>
    rcases List.mem_append.mp h with h | h
    · have hsent : p ∈ (dnsLookupUdp query nsAddr trips.first).1 := by
        rw [hfirst]
        exact h
      exact query_of_udp hsent
    · exact query_of_udp h

lemma query_of_exchange {trips : Trips} (h : p ∈ (exchange query nsAddr trips).1) :
    p.query = query := by
  have hparts : p ∈ (udpExchange query nsAddr trips).1 ∨
      p ∈ (dnsLookupTcp query nsAddr trips.tcp).1 := by
    rw [exchange] at h
    cases hudp : udpExchange query nsAddr trips with
    | mk sent result =>
      simp only [hudp] at h
      cases result with
      | ok resp =>
        simp only at h
        split at h
        · exact List.mem_append.mp h
        · exact .inl h
      | error e => exact List.mem_append.mp h
  rcases hparts with h | h
  · exact query_of_udpExchange h
  · exact query_of_tcp h

/-- Every packet of a lookup carries the query for its name, which spells the name exactly when each
label fits its length byte. -/
theorem sent_query_spells_name_iff (name nameserver : String) (trips : Trips) (qtype : UInt16) :
    (∀ p ∈ (dnsLookupIpv6 name nameserver trips).1, p.query = buildDnsQuery name 28) ∧
      (QueryFor name qtype (buildDnsQuery name qtype) ↔
        ∀ label ∈ labelsOf name, 0 < (utf8 label).length ∧ (utf8 label).length ≤ 63) := by
  refine ⟨?_, labels_of_queryFor, queryFor_of_labels qtype⟩
  intro p hp
  unfold dnsLookupIpv6 at hp
  split at hp
  · cases hp
  · exact query_of_exchange hp

theorem empty_label_ends_question :
    parseIpv6 "a..b" = none ∧ ¬nameMappingSuffix <:+ "a..b".toList ∧
      (∃ p, p ∈ (dnsLookupIpv6 "a..b" "[308::1]:53" (repliedWith servfailReply)).1 ∧
        p.query = buildDnsQuery "a..b" 28) ∧
      skipDnsName (buildDnsQuery "a..b" 28) 12 = some 15 ∧
      ¬QueryFor "a..b" 28 (buildDnsQuery "a..b" 28) := by
  refine ⟨by decide, by decide, ⟨_, List.mem_singleton.mpr rfl, rfl⟩, ?_, ?_⟩
  · rw [skipDnsName_of_getElem? 1 rfl, if_neg (by decide), if_neg (by decide),
      skipDnsName_of_getElem? 0 rfl, if_pos rfl]
    rfl
  · intro h
    have hempty := labels_of_queryFor h [] (by decide)
    exact absurd hempty.1 (by decide)

end Queries

end Yggstack.Resolver
