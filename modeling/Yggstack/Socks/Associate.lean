import Yggstack.Relay.Copy
import Yggstack.Socks.Datagram

namespace Yggstack.Socks

open Library Inet Relay

structure Request where
  client : SocketAddr
  dest : SocketAddr
  payload : List UInt8

structure Reply where
  source : SocketAddr
  bytes : List UInt8

structure ReplySent where
  socket : ℕ
  client : SocketAddr
  packet : List UInt8

def relayBufLen : ℕ := 4096

def replyTimeout : ℕ := 5000

namespace Associate

inductive Phase where
  | spawned
  | receiving
  | opening (req : Request)
  | sending (socket : ℕ) (req : Request)
  | awaiting (socket : ℕ) (req : Request) (since : ℕ)
  | ended

namespace Phase

def socket? : Phase → Option ℕ
  | .sending k _ | .awaiting k _ _ => some k
  | .spawned | .receiving | .opening _ | .ended => none

def unsent? : Phase → Option Request
  | .opening req | .sending _ req => some req
  | .spawned | .receiving | .awaiting _ _ _ | .ended => none

def remaining : Phase → ℕ
  | .spawned => 2
  | .receiving => 1
  | .opening _ => 4
  | .sending _ _ => 3
  | .awaiting _ _ _ => 2
  | .ended => 0

end Phase

-- The first five are what goes on around the relay. All clients of the SOCKS server count into one
-- entry.
inductive Event where
  | tick (d : ℕ)
  | arrived (client : SocketAddr) (bytes : List UInt8)
  | delivered (source : SocketAddr) (bytes : List UInt8)
  | controlClosed
  | elsewhere (dir : Dir) (n : ℕ)
  | begun
  | took
  | takeFailed
  | opened
  | openFailed
  | sent
  | sendFailed
  | received
  | timedOut
  | aborted

def Event.own : Event → Bool
  | .tick _ | .arrived _ _ | .delivered _ _ | .controlClosed | .elsewhere _ _ => false
  | _ => true

def Event.arrives : Event → Bool
  | .arrived _ _ => true
  | _ => false

end Associate

-- `arrivals` are all that came from clients, of which the first `taken` are read; `sockets` were
-- opened so far, and `inbox` is what the last of them has to read.
structure Associate where
  clock : ℕ
  arrivals : List (SocketAddr × List UInt8)
  taken : ℕ
  sockets : ℕ
  inbox : List Reply
  heard : List (ℕ × Reply)
  forwarded : List (ℕ × Request)
  answered : List ReplySent
  entry : ListenerStats
  aborting : Bool
  phase : Associate.Phase

namespace Associate

def start (entry : ListenerStats) : Associate :=
  { clock := 0, arrivals := [], taken := 0, sockets := 0, inbox := [], heard := [], forwarded := [],
    answered := [], entry, aborting := false, phase := .spawned }

variable (s : Associate)

def goto (phase : Phase) : Associate := { s with phase }

def parsed (client : SocketAddr) : Except Panic (Option (SocketAddr × List UInt8)) → Phase
  | .ok none => .receiving
  | .ok (some (dest, payload)) => .opening ⟨client, dest, payload⟩
  | .error _ => .ended

def take (x : SocketAddr × List UInt8) : Associate :=
  { s with taken := s.taken + 1, phase := parsed x.1 (relayDatagram (x.2.take relayBufLen)) }

def openUdp (req : Request) : Associate :=
  { s with sockets := s.sockets + 1, inbox := [], phase := .sending s.sockets req }

def forward (k : ℕ) (req : Request) : Associate :=
  { s with
    forwarded := s.forwarded ++ [(k, req)]
    entry := s.entry.count req.payload.length .tx
    phase := .awaiting k req s.clock }

def deliver (k : ℕ) (r : Reply) : Associate :=
  { s with inbox := s.inbox ++ [r], heard := s.heard ++ [(k, r)] }

-- The receive fails on a datagram that the buffer cannot take, which the netstack does not cut, and
-- on one from an IPv4 address.
def readable (r : Reply) : Bool :=
  match r.source.ip with
  | .v6 _ => decide (r.bytes.length ≤ relayBufLen)
  | .v4 _ => false

def receive (k : ℕ) (req : Request) (r : Reply) : Associate :=
  if readable r then
    { s with
      answered := s.answered ++ [⟨k, req.client, buildUdpHeader r.source r.bytes⟩]
      entry := s.entry.count r.bytes.length .rx
      phase := .receiving }
  else s.goto .receiving

inductive Step : Associate → Event → Associate → Prop
  | tick {s : Associate} {d : ℕ} : Step s (.tick d) { s with clock := s.clock + d }
  | arrived {s : Associate} {client : SocketAddr} {bytes : List UInt8} :
      Step s (.arrived client bytes) { s with arrivals := s.arrivals ++ [(client, bytes)] }
  | delivered {s : Associate} {k : ℕ} {source : SocketAddr} {bytes : List UInt8} :
      s.phase.socket? = some k → Step s (.delivered source bytes) (s.deliver k ⟨source, bytes⟩)
  -- the end of the stream, an error and a byte of the client are all the same
  | controlClosed {s : Associate} : Step s .controlClosed { s with aborting := true }
  | elsewhere {s : Associate} {dir : Dir} {n : ℕ} :
      Step s (.elsewhere dir n) { s with entry := s.entry.count n dir }
  | begun {s : Associate} : s.phase = .spawned → Step s .begun (s.goto .receiving)
  | took {s : Associate} {x : SocketAddr × List UInt8} : s.phase = .receiving →
      s.arrivals[s.taken]? = some x → Step s .took (s.take x)
  | takeFailed {s : Associate} : s.phase = .receiving → Step s .takeFailed (s.goto .ended)
  | opened {s : Associate} {req : Request} : s.phase = .opening req →
      Step s .opened (s.openUdp req)
  | openFailed {s : Associate} {req : Request} : s.phase = .opening req →
      Step s .openFailed (s.goto .receiving)
  | sent {s : Associate} {k : ℕ} {req : Request} {ip : BitVec 128} : s.phase = .sending k req →
      req.dest.ip = .v6 ip → Step s .sent (s.forward k req)
  | sendFailed {s : Associate} {k : ℕ} {req : Request} : s.phase = .sending k req →
      Step s .sendFailed (s.goto .receiving)
  | received {s : Associate} {k since : ℕ} {req : Request} {r : Reply} {rest : List Reply} :
      s.phase = .awaiting k req since → s.inbox = r :: rest → Step s .received (s.receive k req r)
  | timedOut {s : Associate} {k since : ℕ} {req : Request} : s.phase = .awaiting k req since →
      since + replyTimeout ≤ s.clock → Step s .timedOut (s.goto .receiving)
  | aborted {s : Associate} : s.aborting = true → s.phase ≠ .ended → Step s .aborted (s.goto .ended)

def Reachable : Prop := ∃ entry events, Run Step (start entry) events s

def request? (x : SocketAddr × List UInt8) : Option Request :=
  (parsed x.1 (relayDatagram (x.2.take relayBufLen))).unsent?

def payloadOf (packet : List UInt8) : List UInt8 :=
  match relayDatagram packet with
  | .ok (some (_, payload)) => payload
  | _ => []

def forwardedBytes : ℕ := (s.forwarded.map fun f => f.2.payload.length).sum

def answeredBytes : ℕ := (s.answered.map fun a => (payloadOf a.packet).length).sum

def elsewhere (dir : Dir) (events : List Event) : ℕ :=
  (events.map fun e => match e with
    | .elsewhere d n => if d = dir then n else 0
    | _ => 0).sum

-- Requests go out in the order in which they came, each at most once and to an IPv6 destination;
-- each is answered at most once and to its own client, who reads in the answer a datagram that came
-- to the request's own socket, and where it came from.
structure Exchanged (s : Associate) : Prop where
  requests : (s.forwarded.map Prod.snd).Sublist ((s.arrivals.take s.taken).filterMap request?)
  forwardedOnce : s.forwarded.Pairwise fun x y => x.1 < y.1
  dest : ∀ f ∈ s.forwarded, ∃ ip, f.2.dest.ip = .v6 ip
  answeredOnce : s.answered.Pairwise fun x y => x.socket < y.socket
  answers : ∀ a ∈ s.answered, ∃ (req : Request) (r : Reply), (a.socket, req) ∈ s.forwarded ∧
    (a.socket, r) ∈ s.heard ∧ a.client = req.client ∧
      relayDatagram a.packet = .ok (some (r.source, r.bytes))

variable {s} {s' : Associate} {e : Event}

lemma parsed_cases (client : SocketAddr) (bytes : List UInt8) :
    parsed client (relayDatagram bytes) = .receiving ∨
      ∃ req, parsed client (relayDatagram bytes) = .opening req := by
  obtain h | ⟨_, addr, payload, -, -, h⟩ := relayDatagram_cases bytes
  · exact .inl (by rw [h]; rfl)
  · exact .inr ⟨⟨client, addr, payload⟩, by rw [h]; rfl⟩

lemma relayDatagram_buildUdpHeader (source : SocketAddr) (bytes : List UInt8) :
    relayDatagram (buildUdpHeader source bytes) = .ok (some (source, bytes)) := by
  have hzeros : ([0x00, 0x00, 0x00] : List UInt8).length = 3 := rfl
  obtain ⟨atyp, htype, hparse⟩ := parseUdpHeader_addrOctets hzeros source bytes
  have hdrop := drop_header hzeros source bytes
  rw [← buildUdpHeader_eq] at htype hparse hdrop
  have hlen : 3 + (addrOctets source).length ≤ (buildUdpHeader source bytes).length := by
    simp [buildUdpHeader]
    omega
  obtain ⟨hfour, hthird⟩ := List.getElem?_eq_some_iff.mp htype
  have hatyp : index (buildUdpHeader source bytes) 3 = .ok atyp := by
    rw [index_getD 0 hfour, List.getD_eq_getElem?_getD, htype]
    rfl
  have hfrag : index (buildUdpHeader source bytes) 2 = .ok 0 := rfl
  have hslice : slice (buildUdpHeader source bytes) (3 + (addrOctets source).length)
      (buildUdpHeader source bytes).length = .ok bytes := by
    rw [slice_ok hlen le_rfl, List.take_length, hdrop]
  rw [relayDatagram, if_neg (by omega), hfrag, ok_bind, if_neg (not_not.mpr rfl), hatyp, ok_bind,
    hparse, ok_bind]
  simp only [hslice, ok_bind, pure_eq_ok]

structure Inv (s : Associate) : Prop where
  exchanged : s.Exchanged
  taken : s.taken ≤ s.arrivals.length
  unsent : (s.forwarded.map Prod.snd ++ s.phase.unsent?.toList).Sublist
    ((s.arrivals.take s.taken).filterMap request?)
  forwardedLt : ∀ f ∈ s.forwarded, f.1 < s.sockets
  answeredLt : ∀ a ∈ s.answered, a.socket < s.sockets
  sending : ∀ k req, s.phase = .sending k req → k < s.sockets ∧ (∀ f ∈ s.forwarded, f.1 < k) ∧
    ∀ a ∈ s.answered, a.socket < k
  awaiting : ∀ k req since, s.phase = .awaiting k req since → k < s.sockets ∧
    (k, req) ∈ s.forwarded ∧ ∀ a ∈ s.answered, a.socket < k
  since : ∀ k req since, s.phase = .awaiting k req since → since ≤ s.clock
  inbox : ∀ k, s.phase.socket? = some k → ∀ r ∈ s.inbox, (k, r) ∈ s.heard

lemma inv_start (entry : ListenerStats) : (start entry).Inv where
  exchanged := ⟨List.Sublist.slnil, .nil, by simp [start], .nil, by simp [start]⟩
  taken := le_rfl
  unsent := List.Sublist.slnil
  forwardedLt := by simp [start]
  answeredLt := by simp [start]
  sending _ _ h := by cases h
  awaiting _ _ _ h := by cases h
  since _ _ _ h := by cases h
  inbox _ h := by cases h

lemma Exchanged.goto (h : s.Exchanged) (p : Phase) : (s.goto p).Exchanged :=
  ⟨h.requests, h.forwardedOnce, h.dest, h.answeredOnce, h.answers⟩

lemma Inv.goto {p : Phase} (h : s.Inv) (hsocket : p.socket? = none) (hunsent : p.unsent? = none) :
    (s.goto p).Inv where
  exchanged := h.exchanged.goto p
  taken := h.taken
  unsent := by
    change (s.forwarded.map Prod.snd ++ p.unsent?.toList).Sublist _
    rw [hunsent, Option.toList_none, List.append_nil]
    exact h.exchanged.requests
  forwardedLt := h.forwardedLt
  answeredLt := h.answeredLt
  sending k req he := by
    obtain rfl : p = .sending k req := he
    cases hsocket
  awaiting k req since he := by
    obtain rfl : p = .awaiting k req since := he
    cases hsocket
  since k req since he := by
    obtain rfl : p = .awaiting k req since := he
    cases hsocket
  inbox k he := by
    have he : p.socket? = some k := he
    rw [hsocket] at he
    cases he

lemma Inv.arrive (h : s.Inv) (x : SocketAddr × List UInt8) :
    ({ s with arrivals := s.arrivals ++ [x] } : Associate).Inv := by
  have htake : (s.arrivals ++ [x]).take s.taken = s.arrivals.take s.taken :=
    List.take_append_of_le_length h.taken
  have hex := h.exchanged
  refine ⟨⟨?_, hex.forwardedOnce, hex.dest, hex.answeredOnce, hex.answers⟩, ?_, ?_,
    h.forwardedLt, h.answeredLt, h.sending, h.awaiting, h.since, h.inbox⟩
  · change List.Sublist _ (((s.arrivals ++ [x]).take s.taken).filterMap request?)
    rw [htake]
    exact hex.requests
  · change s.taken ≤ (s.arrivals ++ [x]).length
    rw [List.length_append]
    exact Nat.le_add_right_of_le h.taken
  · change List.Sublist _ (((s.arrivals ++ [x]).take s.taken).filterMap request?)
    rw [htake]
    exact h.unsent

lemma Inv.take {x : SocketAddr × List UInt8} (h : s.Inv) (hx : s.arrivals[s.taken]? = some x) :
    (s.take x).Inv := by
  have htake : (s.arrivals.take (s.taken + 1)).filterMap request? =
      (s.arrivals.take s.taken).filterMap request? ++ (request? x).toList := by
    rw [List.take_add_one, hx, List.filterMap_append]
    simp [List.filterMap_cons]
    cases request? x <;> rfl
  have hex := h.exchanged
  have hsome := parsed_cases x.1 (x.2.take relayBufLen)
  refine ⟨⟨?_, hex.forwardedOnce, hex.dest, hex.answeredOnce, hex.answers⟩,
    (List.getElem?_eq_some_iff.mp hx).1, ?_, h.forwardedLt, h.answeredLt, ?_, ?_, ?_, ?_⟩
  · change List.Sublist _ ((s.arrivals.take (s.taken + 1)).filterMap request?)
    rw [htake]
    exact hex.requests.trans (List.sublist_append_left _ _)
  · change (s.forwarded.map Prod.snd ++ (request? x).toList).Sublist
      ((s.arrivals.take (s.taken + 1)).filterMap request?)
    rw [htake]
    exact hex.requests.append_right _
  · intro k req hp
    rcases hsome with hr | ⟨_, hr⟩ <;> cases hr.symm.trans hp
  · intro k req since hp
    rcases hsome with hr | ⟨_, hr⟩ <;> cases hr.symm.trans hp
  · intro k req since hp
    rcases hsome with hr | ⟨_, hr⟩ <;> cases hr.symm.trans hp
  · intro k hp
    change (parsed x.1 (relayDatagram (x.2.take relayBufLen))).socket? = some k at hp
    rcases hsome with hr | ⟨_, hr⟩ <;> rw [hr] at hp <;> cases hp

lemma Inv.openUdp {req : Request} (h : s.Inv) (hp : s.phase = .opening req) :
    (s.openUdp req).Inv where
  exchanged := ⟨h.exchanged.requests, h.exchanged.forwardedOnce, h.exchanged.dest,
    h.exchanged.answeredOnce, h.exchanged.answers⟩
  taken := h.taken
  unsent := by
    have hunsent := h.unsent
    rw [hp] at hunsent
    exact hunsent
  forwardedLt f hf := (h.forwardedLt f hf).trans (Nat.lt_succ_self _)
  answeredLt a ha := (h.answeredLt a ha).trans (Nat.lt_succ_self _)
  sending k req' he := by
    cases he
    exact ⟨Nat.lt_succ_self _, h.forwardedLt, h.answeredLt⟩
  awaiting _ _ _ he := by cases he
  since _ _ _ he := by cases he
  inbox _ _ r hr := by cases hr

lemma Inv.forward {k : ℕ} {req : Request} {ip : BitVec 128} (h : s.Inv)
    (hp : s.phase = .sending k req) (hip : req.dest.ip = .v6 ip) : (s.forward k req).Inv := by
  obtain ⟨hk, hlt, halt⟩ := h.sending k req hp
  have hunsent := h.unsent
  rw [hp] at hunsent
  have hreq : ((s.forwarded ++ [(k, req)]).map Prod.snd).Sublist
      ((s.arrivals.take s.taken).filterMap request?) := by
    rw [List.map_append]
    exact hunsent
  have hmem : ∀ f ∈ s.forwarded ++ [(k, req)], f ∈ s.forwarded ∨ f = (k, req) := by simp
  have hex := h.exchanged
  refine ⟨⟨hreq, ?_, ?_, hex.answeredOnce, ?_⟩, h.taken, ?_, ?_, h.answeredLt, ?_,
    ?_, ?_, ?_⟩
  · refine List.pairwise_append.mpr ⟨hex.forwardedOnce, List.pairwise_singleton _ _, ?_⟩
    intro f hf g hg
    rw [List.mem_singleton.mp hg]
    exact hlt f hf
  · intro f hf
    rcases hmem f hf with hf | rfl
    · exact hex.dest f hf
    · exact ⟨ip, hip⟩
  · intro a ha
    obtain ⟨req', r, hreq', hr⟩ := hex.answers a ha
    exact ⟨req', r, List.mem_append_left _ hreq', hr⟩
  · change (((s.forwarded ++ [(k, req)]).map Prod.snd) ++ []).Sublist _
    rw [List.append_nil]
    exact hreq
  · intro f hf
    rcases hmem f hf with hf | rfl
    · exact h.forwardedLt f hf
    · exact hk
  · intro _ _ he
    cases he
  · intro _ _ _ he
    cases he
    exact ⟨hk, List.mem_append_right _ (List.mem_singleton_self _), halt⟩
  · intro _ _ _ he
    cases he
    exact le_rfl
  · intro k' he
    cases he
    exact h.inbox k (by rw [hp]; rfl)

lemma Inv.deliver {k : ℕ} (h : s.Inv) (hk : s.phase.socket? = some k) (r : Reply) :
    (s.deliver k r).Inv := by
  have hex := h.exchanged
  refine ⟨⟨hex.requests, hex.forwardedOnce, hex.dest, hex.answeredOnce, ?_⟩, h.taken, h.unsent,
    h.forwardedLt, h.answeredLt, h.sending, h.awaiting, h.since, ?_⟩
  · intro a ha
    obtain ⟨req, r', hreq, hr, hrest⟩ := hex.answers a ha
    exact ⟨req, r', hreq, List.mem_append_left _ hr, hrest⟩
  · intro k' hk' r' hr'
    obtain rfl : k = k' := Option.some.inj (hk.symm.trans hk')
    rcases List.mem_append.mp hr' with hr' | hr'
    · exact List.mem_append_left _ (h.inbox k hk r' hr')
    · rw [List.mem_singleton.mp hr']
      exact List.mem_append_right _ (List.mem_singleton_self _)

lemma Exchanged.receive {k since : ℕ} {req : Request} {r : Reply} {rest : List Reply} (h : s.Inv)
    (hp : s.phase = .awaiting k req since) (hr : s.inbox = r :: rest) :
    (s.receive k req r).Exchanged ∧ ∀ a ∈ (s.receive k req r).answered, a.socket < s.sockets := by
  obtain ⟨hk, hreq, halt⟩ := h.awaiting k req since hp
  have hheard : (k, r) ∈ s.heard := h.inbox k (by rw [hp]; rfl) r (by simp [hr])
  have hread := relayDatagram_buildUdpHeader r.source r.bytes
  have hex := h.exchanged
  rw [Associate.receive]
  split
  · have hmem : ∀ a ∈ s.answered ++ [⟨k, req.client, buildUdpHeader r.source r.bytes⟩],
        a ∈ s.answered ∨ a = ⟨k, req.client, buildUdpHeader r.source r.bytes⟩ := by simp
    refine ⟨⟨hex.requests, hex.forwardedOnce, hex.dest, ?_, ?_⟩, ?_⟩
    · refine List.pairwise_append.mpr ⟨hex.answeredOnce, List.pairwise_singleton _ _, ?_⟩
      intro a ha b hb
      rw [List.mem_singleton.mp hb]
      exact halt a ha
    · intro a ha
      rcases hmem a ha with ha | rfl
      · exact hex.answers a ha
      · exact ⟨req, r, hreq, hheard, rfl, hread⟩
    · intro a ha
      rcases hmem a ha with ha | rfl
      · exact h.answeredLt a ha
      · exact hk
  · exact ⟨hex.goto _, h.answeredLt⟩

lemma Inv.receive {k since : ℕ} {req : Request} {r : Reply} {rest : List Reply} (h : s.Inv)
    (hp : s.phase = .awaiting k req since) (hr : s.inbox = r :: rest) :
    (s.receive k req r).Inv := by
  obtain ⟨hex, halt⟩ := Exchanged.receive h hp hr
  by_cases hlen : readable r = true
  · rw [Associate.receive, if_pos hlen] at hex halt ⊢
    refine ⟨hex, h.taken, ?_, h.forwardedLt, halt, ?_, ?_, ?_, ?_⟩
    · change (s.forwarded.map Prod.snd ++ []).Sublist _
      rw [List.append_nil]
      exact h.exchanged.requests
    · intro _ _ he
      cases he
    · intro _ _ _ he
      cases he
    · intro _ _ _ he
      cases he
    · intro _ he
      cases he
  · rw [Associate.receive, if_neg hlen]
    exact h.goto rfl rfl

lemma Inv.around {s t : Associate} (h : s.Inv) (hclock : s.clock ≤ t.clock)
    (hrest : { t with clock := s.clock, entry := s.entry, aborting := s.aborting } = s) : t.Inv := by
  have hex := h.exchanged
  rw [← hrest] at h hex
  exact ⟨⟨hex.requests, hex.forwardedOnce, hex.dest, hex.answeredOnce, hex.answers⟩, h.taken,
    h.unsent, h.forwardedLt, h.answeredLt, h.sending, h.awaiting,
    fun k req since hp => (h.since k req since hp).trans hclock, h.inbox⟩

lemma inv_step (h : s.Inv) (hs : Step s e s') : s'.Inv := by
  cases hs with
  | tick => exact h.around (Nat.le_add_right _ _) rfl
  | controlClosed | elsewhere => exact h.around le_rfl rfl
  | arrived => exact h.arrive _
  | delivered hk => exact h.deliver hk _
  | took hp hx => exact h.take hx
  | opened hp => exact h.openUdp hp
  | sent hp hip => exact h.forward hp hip
  | received hp hr => exact h.receive hp hr
  | begun | takeFailed | openFailed | sendFailed | timedOut | aborted => exact h.goto rfl rfl

lemma Reachable.inv (h : s.Reachable) : s.Inv := by
  obtain ⟨entry, events, hrun⟩ := h
  exact hrun.invariant (inv_start entry) fun _ _ _ hi hs => inv_step hi hs

lemma ListenerStats.count_count (entry : ListenerStats) (m n m' n' : ℕ) :
    (((entry.count m .tx).count n .rx).count m' .tx).count n' .rx =
      (entry.count (m + m') .tx).count (n + n') .rx := by
  simp [ListenerStats.count, UInt64.ofNat_add, UInt64.add_assoc]

lemma counted_step (hs : Step s e s') : ∃ m n,
    s'.forwardedBytes + elsewhere .tx [e] = s.forwardedBytes + m ∧
      s'.answeredBytes + elsewhere .rx [e] = s.answeredBytes + n ∧
      s'.entry = (s.entry.count m .tx).count n .rx := by
  have hsame : s.entry = (s.entry.count 0 .tx).count 0 .rx := by simp [ListenerStats.count]
  cases hs with
  | @elsewhere dir n =>
    cases dir with
    | rx =>
      exact ⟨0, n, by simp [elsewhere, forwardedBytes], by simp [elsewhere, answeredBytes],
        by simp [ListenerStats.count]⟩
    | tx =>
      exact ⟨n, 0, by simp [elsewhere, forwardedBytes], by simp [elsewhere, answeredBytes],
        by simp [ListenerStats.count]⟩
  | @sent k req =>
    exact ⟨req.payload.length, 0, by simp [elsewhere, forwardedBytes, forward],
      by simp [elsewhere, answeredBytes, forward], by simp [forward, ListenerStats.count]⟩
  | @received k _ req r =>
    rw [receive]
    split
    · exact ⟨0, r.bytes.length, by simp [elsewhere, forwardedBytes],
        by simp [elsewhere, answeredBytes, payloadOf, relayDatagram_buildUdpHeader],
        by simp [ListenerStats.count]⟩
    · exact ⟨0, 0, by simp [elsewhere, forwardedBytes, goto], by simp [elsewhere, answeredBytes, goto],
        hsame⟩
  | _ => exact ⟨0, 0, rfl, rfl, hsame⟩

lemma elsewhere_append (dir : Dir) (events events' : List Event) :
    elsewhere dir (events ++ events') = elsewhere dir events + elsewhere dir events' := by
  simp [elsewhere]

lemma counted_run {entry : ListenerStats} {events : List Event}
    (hrun : Run Step (start entry) events s) :
    s.entry = (entry.count (s.forwardedBytes + elsewhere .tx events) .tx).count
      (s.answeredBytes + elsewhere .rx events) .rx := by
  refine hrun.history (H := fun events s => s.entry =
    (entry.count (s.forwardedBytes + elsewhere .tx events) .tx).count
      (s.answeredBytes + elsewhere .rx events) .rx) ?_ fun events s e t h hs => ?_
  · simp [start, elsewhere, forwardedBytes, answeredBytes, ListenerStats.count]
  · obtain ⟨m, n, hforwarded, hanswered, hentry⟩ := counted_step hs
    have htx : s.forwardedBytes + elsewhere .tx events + m =
        t.forwardedBytes + (elsewhere .tx events + elsewhere .tx [e]) := by omega
    have hrx : s.answeredBytes + elsewhere .rx events + n =
        t.answeredBytes + (elsewhere .rx events + elsewhere .rx [e]) := by omega
    rw [hentry, h, ListenerStats.count_count, elsewhere_append, elsewhere_append, htx, hrx]

/-- The entry is the one all clients of the SOCKS server count into. -/
theorem requests_answered_in_turn {entry : ListenerStats} {events : List Event}
    (hrun : Run Step (start entry) events s) : s.Exchanged ∧
      s.entry.txBytes = entry.txBytes + UInt64.ofNat (s.forwardedBytes + elsewhere .tx events) ∧
      s.entry.rxBytes = entry.rxBytes + UInt64.ofNat (s.answeredBytes + elsewhere .rx events) := by
  refine ⟨(Reachable.inv ⟨entry, events, hrun⟩).exchanged, ?_, ?_⟩
  · rw [counted_run hrun]
    rfl
  · rw [counted_run hrun]
    rfl

def remaining (s : Associate) : ℕ := 4 * (s.arrivals.length - s.taken) + s.phase.remaining

lemma remaining_le {u : Associate} (harrivals : u.arrivals = s.arrivals) (htaken : u.taken = s.taken)
    (hp : u.phase.remaining < s.phase.remaining) : u.remaining + 1 ≤ s.remaining := by
  rw [remaining, remaining, harrivals, htaken]
  exact Nat.add_lt_add_left hp _

lemma remaining_take {x : SocketAddr × List UInt8} (hp : s.phase = .receiving)
    (hx : s.arrivals[s.taken]? = some x) : (s.take x).remaining + 1 ≤ s.remaining := by
  have hlt := (List.getElem?_eq_some_iff.mp hx).1
  have hnext : (s.take x).phase.remaining ≤ 4 := by
    rw [take]
    rcases parsed_cases x.1 (x.2.take relayBufLen) with hr | ⟨req, hr⟩
    · rw [hr]
      exact show 1 ≤ 4 by decide
    · rw [hr]
      exact le_rfl
  have hone : s.phase.remaining = 1 := by rw [hp]; rfl
  have harrivals : (s.take x).arrivals = s.arrivals := rfl
  have htaken : (s.take x).taken = s.taken + 1 := rfl
  rw [remaining, remaining, hone, harrivals, htaken]
  omega

lemma receive_phase (k : ℕ) (req : Request) (r : Reply) :
    (s.receive k req r).phase = .receiving ∧ (s.receive k req r).arrivals = s.arrivals ∧
      (s.receive k req r).taken = s.taken := by
  rw [receive]
  split <;> exact ⟨rfl, rfl, rfl⟩

lemma remaining_step (hs : Step s e s') :
    s'.remaining + e.own.toNat ≤ s.remaining + 4 * e.arrives.toNat := by
  have lower {u : Associate} (harrivals : u.arrivals = s.arrivals) (htaken : u.taken = s.taken)
      {p : Phase} (hp : s.phase = p) (hlt : u.phase.remaining < p.remaining) :
      u.remaining + 1 ≤ s.remaining := remaining_le harrivals htaken (hp ▸ hlt)
  cases hs with
  | tick | delivered | controlClosed | elsewhere => exact le_rfl
  | arrived =>
    simp only [remaining, List.length_append, List.length_singleton, Event.own, Event.arrives,
      Bool.toNat_false, Bool.toNat_true]
    omega
  | begun hp => exact lower rfl rfl hp Nat.one_lt_two
  | takeFailed hp => exact lower rfl rfl hp Nat.zero_lt_one
  | took hp hx => exact remaining_take hp hx
  | opened hp => exact lower rfl rfl hp (Nat.lt_succ_self 3)
  | openFailed hp => exact lower rfl rfl hp (show 1 < 4 by decide)
  | sent hp => exact lower rfl rfl hp (Nat.lt_succ_self 2)
  | sendFailed hp => exact lower rfl rfl hp (show 1 < 3 by decide)
  | @received k _ req r _ hp =>
    obtain ⟨hphase, harrivals, htaken⟩ := receive_phase (s := s) k req r
    exact lower harrivals htaken hp (by rw [hphase]; exact Nat.one_lt_two)
  | timedOut hp => exact lower rfl rfl hp Nat.one_lt_two
  | aborted _ hne =>
    refine lower rfl rfl rfl ?_
    cases hp : s.phase with
    | ended => exact absurd hp hne
    | _ => exact Nat.succ_pos _

lemma Inv.goes_on (h : s.Inv) (hne : s.phase ≠ .ended)
    (hwork : s.phase = .receiving → s.taken < s.arrivals.length) :
    ∃ d e t, d ≤ replyTimeout ∧ e.own = true ∧ Run Step s [.tick d, e] t := by
  have now {e : Event} {t : Associate} (he : e.own = true)
      (hs : Step { s with clock := s.clock + 0 } e t) :
      ∃ d e t, d ≤ replyTimeout ∧ e.own = true ∧ Run Step s [.tick d, e] t :=
    ⟨0, e, t, Nat.zero_le _, he, .cons .tick (.single hs)⟩
  cases hp : s.phase with
  | spawned => exact now (e := .begun) rfl (.begun hp)
  | receiving => exact now (e := .took) rfl (.took hp (List.getElem?_eq_getElem (hwork hp)))
  | opening req => exact now (e := .opened) rfl (.opened hp)
  | sending k req => exact now (e := .sendFailed) rfl (.sendFailed hp)
  | awaiting k req since =>
    have hdue : since + replyTimeout ≤ s.clock + replyTimeout :=
      Nat.add_le_add_right (h.since k req since hp) _
    exact ⟨_, .timedOut, _, le_rfl, rfl, .cons .tick (.single (.timedOut hp hdue))⟩
  | ended => exact absurd hp hne

/-- The loop takes a bounded number of steps for each datagram that arrives, and gets stuck on none:
no destination holds it up for longer than the timeout of its reply. -/
theorem relay_paced_by_arrivals {entry : ListenerStats} {events : List Event}
    (hrun : Run Step (start entry) events s) :
    events.countP Event.own ≤ 2 + 4 * events.countP Event.arrives ∧
      (s.phase ≠ .ended → (s.phase = .receiving → s.taken < s.arrivals.length) →
        ∃ d e t, d ≤ replyTimeout ∧ e.own = true ∧ Run Step s [.tick d, e] t) := by
  constructor
  · have hpotential := hrun.potential remaining Event.own Event.arrives 4 (I := fun _ => True)
      trivial fun _ _ _ _ hs => ⟨trivial, remaining_step hs⟩
    exact (Nat.le_add_left _ _).trans hpotential
  · exact (Reachable.inv ⟨entry, events, hrun⟩).goes_on

def firstClient : SocketAddr := ⟨.v4 0x7f000001, 5000⟩

def service : SocketAddr := ⟨.v6 (0x200 <<< 112 + 1), 53⟩

def question : Request := ⟨firstClient, service, [1, 2]⟩

def mapped : SocketAddr := ⟨.v4 0x08080808, 53⟩

-- A datagram that is too short, then a request that is answered, then one whose answer comes from
-- an IPv4 address. Another client counts into the entry meanwhile.
def twoExchanges : List Event :=
  [.begun, .arrived firstClient [0, 0, 0], .arrived firstClient (buildUdpHeader service [1, 2]),
    .took, .took, .opened, .sent, .elsewhere .tx 100, .delivered service [7], .received,
    .arrived firstClient (buildUdpHeader service [1, 2]), .took, .opened, .sent,
    .delivered mapped [8], .received]

lemma twoExchanges_run (entry : ListenerStats) : ∃ s, Run Step (start entry) twoExchanges s ∧
    s.forwardedBytes = 4 ∧ s.answered.length = 1 ∧ s.answeredBytes = 1 := by
  refine ⟨_, .cons (.begun rfl) <| .cons .arrived <| .cons .arrived <|
    .cons (.took (x := (firstClient, [0, 0, 0])) rfl rfl) <|
    .cons (.took (x := (firstClient, buildUdpHeader service [1, 2])) rfl rfl) <|
    .cons (@Step.opened _ question rfl) <| .cons (.sent (k := 0) rfl rfl) <| .cons .elsewhere <|
    .cons (.delivered (k := 0) rfl) <| .cons (.received (k := 0) rfl rfl) <| .cons .arrived <|
    .cons (.took (x := (firstClient, buildUdpHeader service [1, 2])) rfl rfl) <|
    .cons (@Step.opened _ question rfl) <| .cons (.sent (k := 1) rfl rfl) <|
    .cons (.delivered (k := 1) rfl) <| .cons (.received (k := 1) rfl rfl) <| .nil _, rfl, rfl, rfl⟩

theorem one_request_answered : ∃ s : Associate, Run Step (start ⟨5, 5⟩) twoExchanges s ∧
    s.answered.length = 1 ∧ s.Exchanged ∧ s.entry.txBytes = 109 ∧ s.entry.rxBytes = 6 := by
  obtain ⟨s, hrun, hforwarded, hlen, hanswered⟩ := twoExchanges_run ⟨5, 5⟩
  obtain ⟨hex, htx, hrx⟩ := requests_answered_in_turn hrun
  rw [hforwarded] at htx
  rw [hanswered] at hrx
  exact ⟨s, hrun, hlen, hex, htx.trans rfl, hrx.trans rfl⟩

theorem one_request_paced : ∃ s, Run Step (start ⟨0, 0⟩) twoExchanges s ∧
    twoExchanges.countP Event.own ≤ 2 + 4 * twoExchanges.countP Event.arrives := by
  obtain ⟨s, hrun, -⟩ := twoExchanges_run ⟨0, 0⟩
  exact ⟨s, hrun, (relay_paced_by_arrivals hrun).1⟩

end Associate

end Yggstack.Socks
