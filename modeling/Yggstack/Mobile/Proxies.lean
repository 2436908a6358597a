import Yggstack.Mobile.Connections

namespace Yggstack.Mobile

open Library

inductive ProxyServer.Phase where
  | spawned
  | serving (rx : Receiver)
  | ended

structure ProxyServer where
  socks : Bool
  aborting : Bool
  phase : ProxyServer.Phase

namespace ProxyClient

-- The task of a UDP relay; one that is aborted before it has begun never does.
inductive Relay where
  | spawned
  | running
  | through
  deriving DecidableEq

-- Only `relaying` listens to the stop. For `queued` and `waiting` see the connections of a
-- listener; a look-up that dials its nameserver over TCP can come to `waiting` as well.
inductive Phase where
  | negotiating
  | resolving
  | dialing
  | queued
  | waiting
  | relaying
  | associating
  | associated (control : Bool) (relay : Relay)
  | ended
  deriving DecidableEq

inductive Action where
  | asked
  | askedUdp
  | refused
  | resolved
  | resolvedLate
  | left
  | dialed
  | stopped
  | copied
  | bound
  | begun
  | failed
  | closed
  | aborted
  deriving DecidableEq

def Phase.next? : Phase → Action → Option Phase
  | .negotiating, .asked => some .resolving
  | .negotiating, .askedUdp => some .associating
  | .negotiating, .refused | .resolving, .refused => some .ended
  | .resolving, .resolved => some .dialing
  | .resolving, .resolvedLate => some .waiting
  | .dialing, .left => some .queued
  | .dialing, .refused | .queued, .refused | .associating, .refused => some .ended
  | .dialing, .dialed => some .relaying
  | .relaying, .stopped | .relaying, .copied => some .ended
  | .associating, .bound => some (.associated true .spawned)
  | .associated control .spawned, .begun => some (.associated control .running)
  | .associated control .running, .failed => some (.associated control .through)
  | .associated true relay, .closed => some (.associated false relay)
  | .associated false .spawned, .aborted | .associated false .running, .aborted =>
    some (.associated false .through)
  | _, _ => none

def Phase.guarded : Phase → Bool
  | .relaying | .associated _ .running => true
  | _ => false

def Relay.remaining : Relay → ℕ
  | .spawned => 2
  | .running => 1
  | .through => 0

def Phase.remaining : Phase → ℕ
  | .negotiating => 5
  | .resolving => 3
  | .dialing => 2
  | .queued | .relaying => 1
  | .associating => 4
  | .associated control relay => control.toNat + relay.remaining
  | .waiting | .ended => 0

def Phase.over : Phase → Bool
  | .ended | .associated false .through => true
  | _ => false

def Phase.waits : Phase → Bool
  | .negotiating | .associated true .running | .associated true .through => true
  | .waiting => true
  | _ => false

end ProxyClient

structure ProxyClient where
  server : ℕ
  stop : Receiver
  phase : ProxyClient.Phase

namespace ProxyClient

variable {p q : Phase} {a : Action}

def counts (i : ℕ) (c : ProxyClient) : Bool := decide (c.server = i) && c.phase.guarded

lemma Phase.remaining_lt (h : p.next? a = some q) : q.remaining < p.remaining := by
  cases p with
  | associated control relay =>
    cases control <;> cases relay <;> cases a <;> cases h <;> decide
  | _ => cases a <;> cases h <;> decide

def Action.free : Action → Bool
  | .refused | .begun | .aborted | .stopped => true
  | _ => false

end ProxyClient

-- How far `stop` has torn down what the dials of the clients need. Once the core is closed the poll
-- loop of the netstack ends by itself.
inductive Teardown where
  | up
  | unplugged
  | shutting
  | shut
  deriving DecidableEq

-- `nodeHolds` is the sender of the node itself; each server has one until it has ended.
structure Proxies where
  stop : Broadcast
  nodeHolds : Bool
  netstack : Teardown
  servers : List ProxyServer
  clients : List ProxyClient
  gauges : ℕ → Gauge

namespace Proxies

inductive Event where
  | signal
  | unplug
  | abort (i : ℕ)
  | shutdown
  | shut
  | drop
  | replace
  | bound (i : ℕ)
  | accepted (i : ℕ)
  | stopped (i : ℕ)
  | ended (i : ℕ)
  | client (k : ℕ) (a : ProxyClient.Action)

def start (socks http : Bool) : Proxies where
  stop := .new
  nodeHolds := true
  netstack := .up
  servers := (if socks then [⟨true, false, .spawned⟩] else []) ++
    if http then [⟨false, false, .spawned⟩] else []
  clients := []
  gauges := fun _ => .zero

variable (s : Proxies)

def AllEnded : Prop := ∀ sv ∈ s.servers, sv.phase = .ended

def Hears (rx : Receiver) : Prop := rx.Pending s.stop ∨ s.nodeHolds = false ∧ s.AllEnded

def ShuttingDown : Prop := s.netstack = .shutting ∨ s.netstack = .shut

def Allows (c : ProxyClient) : ProxyClient.Action → Prop
  | .askedUdp => ∃ sv, s.servers[c.server]? = some sv ∧ sv.socks = true
  | .resolved => s.netstack ≠ .shut
  | .resolvedLate => s.ShuttingDown
  | .left => s.netstack = .unplugged ∨ s.netstack = .shutting
  | .refused => c.phase = .queued → s.ShuttingDown
  | .stopped => s.Hears c.stop
  | _ => True

def setServer (i : ℕ) (sv : ProxyServer) : Proxies := { s with servers := s.servers.set i sv }

def turn (k : ℕ) (c : ProxyClient) (p : ProxyClient.Phase) : Proxies :=
  { s with
    clients := s.clients.set k { c with phase := p }
    gauges := Function.update s.gauges c.server
      ((s.gauges c.server).pass c.phase.guarded p.guarded) }

-- `stop` closes the core, signals (before that too, when peers are watched), joins the servers and
-- aborts one that does not end in time, shuts the netstack down and drops the node. A `start` that
-- overlaps another one drops the other's node without any of this. A server ends by itself when its
-- bind failed.
inductive Step : Proxies → Event → Proxies → Prop
  | signal {s : Proxies} : s.nodeHolds = true → Step s .signal { s with stop := s.stop.send }
  | unplug {s : Proxies} : s.nodeHolds = true → s.netstack = .up →
      Step s .unplug { s with netstack := .unplugged }
  | abort {s : Proxies} {i : ℕ} {sv : ProxyServer} : s.servers[i]? = some sv → 0 < s.stop.sent →
      Step s (.abort i) (s.setServer i { sv with aborting := true })
  | shutdown {s : Proxies} : s.netstack = .unplugged → 0 < s.stop.sent → s.AllEnded →
      Step s .shutdown { s with netstack := .shutting }
  | shut {s : Proxies} : s.netstack = .shutting → Step s .shut { s with netstack := .shut }
  | drop {s : Proxies} : s.netstack = .shut → Step s .drop { s with nodeHolds := false }
  | replace {s : Proxies} : s.netstack = .up → s.stop.sent = 0 →
      Step s .replace { s with nodeHolds := false }
  | bound {s : Proxies} {i : ℕ} {sv : ProxyServer} : s.servers[i]? = some sv →
      sv.phase = .spawned →
      Step s (.bound i) (s.setServer i { sv with phase := .serving s.stop.subscribe })
  | accepted {s : Proxies} {i : ℕ} {sv : ProxyServer} {rx : Receiver} : s.servers[i]? = some sv →
      sv.phase = .serving rx →
      Step s (.accepted i) { s with clients := s.clients ++ [⟨i, s.stop.subscribe, .negotiating⟩] }
  | stopped {s : Proxies} {i : ℕ} {sv : ProxyServer} {rx : Receiver} : s.servers[i]? = some sv →
      sv.phase = .serving rx → rx.Pending s.stop →
      Step s (.stopped i) (s.setServer i { sv with phase := .ended })
  | ended {s : Proxies} {i : ℕ} {sv : ProxyServer} : s.servers[i]? = some sv →
      (sv.phase = .spawned ∨ sv.aborting = true) →
      Step s (.ended i) (s.setServer i { sv with phase := .ended })
  | client {s : Proxies} {k : ℕ} {a : ProxyClient.Action} {c : ProxyClient}
      {p : ProxyClient.Phase} : s.clients[k]? = some c → c.phase.next? a = some p →
      s.Allows c a → Step s (.client k a) (s.turn k c p)

def Reachable (socks http : Bool) : Prop := ∃ events, Run Step (start socks http) events s

variable {s} {s' : Proxies} {x : Event} {events : List Event} {socks http : Bool}

def Kept (s : Proxies) (c : ProxyClient) : Prop :=
  0 < s.stop.sent ∨ ∃ sv rx, s.servers[c.server]? = some sv ∧ sv.phase = .serving rx

structure Inv (s : Proxies) : Prop where
  shutting : s.ShuttingDown → 0 < s.stop.sent ∧ s.AllEnded
  dropped : s.nodeHolds = false → s.netstack = .shut ∨ s.netstack = .up ∧ s.stop.sent = 0
  aborting : ∀ sv ∈ s.servers, sv.aborting = true → 0 < s.stop.sent
  kept : ∀ c ∈ s.clients, s.Kept c
  active : s.clients.length < 2 ^ 63 →
    ∀ i, (s.gauges i).active.toInt = s.clients.countP (ProxyClient.counts i)

lemma inv_start : (start socks http).Inv where
  shutting h := by rcases h with h | h <;> cases h
  dropped h := by cases h
  aborting sv hsv habort := by
    have hno : ∀ sv ∈ (start socks http).servers, sv.aborting = false := by
      cases socks <;> cases http <;> simp [start]
    rw [hno sv hsv] at habort
    cases habort
  kept c hc := absurd hc List.not_mem_nil
  active _ _ := rfl

lemma sent_le (hs : Step s x s') : s.stop.sent ≤ s'.stop.sent := by
  cases hs with
  | signal => exact Nat.le_succ _
  | _ => exact le_rfl

lemma AllEnded.set {i : ℕ} {sv : ProxyServer} (h : s.AllEnded) (hsv : sv.phase = .ended) :
    (s.setServer i sv).AllEnded := by
  intro sv' hmem
  rcases List.mem_or_eq_of_mem_set hmem with hmem | rfl
  · exact h sv' hmem
  · exact hsv

lemma AllEnded.step (h : s.AllEnded) (hs : Step s x s') : s'.AllEnded := by
  cases hs with
  | @abort _ sv hsv =>
    have hp : sv.phase = .ended := h sv (List.mem_of_getElem? hsv)
    exact h.set hp
  | bound hsv hp => cases hp.symm.trans (h _ (List.mem_of_getElem? hsv))
  | stopped | ended => exact h.set rfl
  | _ => exact h

lemma Inv.shutting_step (hi : s.Inv) (hs : Step s x s') (h : s'.ShuttingDown) :
    0 < s'.stop.sent ∧ s'.AllEnded := by
  have before (h : s.ShuttingDown) : 0 < s'.stop.sent ∧ s'.AllEnded := by
    obtain ⟨hsent, hall⟩ := hi.shutting h
    exact ⟨hsent.trans_le (sent_le hs), hall.step hs⟩
  cases hs with
  | unplug => rcases h with h | h <;> cases h
  | shutdown _ hsent hall => exact ⟨hsent, hall⟩
  | shut hshutting => exact before (.inl hshutting)
  | _ => exact before h

lemma Inv.dropped_step (hi : s.Inv) (hs : Step s x s') (h : s'.nodeHolds = false) :
    s'.netstack = .shut ∨ s'.netstack = .up ∧ s'.stop.sent = 0 := by
  have neither {t : Teardown} (hnode : s.nodeHolds = false) (ht : s.netstack = t)
      (hshut : t ≠ .shut) (hup : t ≠ .up) : False := by
    rcases hi.dropped hnode with h | ⟨h, -⟩
    · exact hshut (ht.symm.trans h)
    · exact hup (ht.symm.trans h)
  cases hs with
  | signal hnode | unplug hnode =>
    rw [show s.nodeHolds = false from h] at hnode
    cases hnode
  | shutdown ht => exact (neither h ht (by decide) (by decide)).elim
  | shut ht => exact (neither h ht (by decide) (by decide)).elim
  | drop hshut => exact .inl hshut
  | replace hup hsent => exact .inr ⟨hup, hsent⟩
  | _ => exact hi.dropped h

lemma Inv.aborting_step (hi : s.Inv) (hs : Step s x s') :
    ∀ sv ∈ s'.servers, sv.aborting = true → 0 < s'.stop.sent := by
  intro sv hmem habort
  have set {i : ℕ} {sv₀ sv₁ : ProxyServer} (hsv : s.servers[i]? = some sv₀)
      (hmem : sv ∈ s.servers.set i sv₁) (hsame : sv₁.aborting = sv₀.aborting) :
      0 < s.stop.sent := by
    rcases List.mem_or_eq_of_mem_set hmem with hmem | rfl
    · exact hi.aborting sv hmem habort
    · exact hi.aborting sv₀ (List.mem_of_getElem? hsv) (hsame ▸ habort)
  cases hs with
  | signal => exact Nat.succ_pos _
  | abort _ hsent => exact hsent
  | bound hsv | stopped hsv | ended hsv => exact set hsv hmem rfl
  | _ => exact hi.aborting sv hmem habort

lemma Inv.kept_old (hi : s.Inv) (hs : Step s x s') {c : ProxyClient} (h : s.Kept c) :
    s'.Kept c := by
  have hsent (hsent : 0 < s.stop.sent) : s'.Kept c := .inl (hsent.trans_le (sent_le hs))
  obtain h | ⟨sv, rx, hsv, hp⟩ := h
  · exact hsent h
  have set {i : ℕ} {sv₀ sv₁ : ProxyServer} (hsv₀ : s.servers[i]? = some sv₀)
      (hserves : sv₀.phase = .serving rx → sv₁.phase = .serving rx) :
      (s.setServer i sv₁).Kept c := by
    by_cases he : i = c.server
    · subst he
      rw [hsv] at hsv₀
      cases hsv₀
      exact .inr ⟨sv₁, rx, getElem?_change_self hsv, hserves hp⟩
    · have hother : (s.servers.set i sv₁)[c.server]? = some sv := by
        rw [List.getElem?_set_ne he, hsv]
      exact .inr ⟨sv, rx, hother, hp⟩
  cases hs with
  | abort hsv₀ => exact set hsv₀ id
  | bound hsv₀ hp₀ => exact set hsv₀ fun hp => by cases hp₀.symm.trans hp
  | stopped _ _ hpending => exact hsent (Nat.zero_lt_of_lt hpending)
  | ended hsv₀ hp₀ =>
    rcases hp₀ with hp₀ | habort
    · exact set hsv₀ fun hp => by cases hp₀.symm.trans hp
    · exact hsent (hi.aborting _ (List.mem_of_getElem? hsv₀) habort)
  | _ => exact .inr ⟨sv, rx, hsv, hp⟩

lemma Inv.kept_step (hi : s.Inv) (hs : Step s x s') : ∀ c ∈ s'.clients, s'.Kept c := by
  intro c hc
  have old {d : ProxyClient} (hd : d ∈ s.clients) : s'.Kept d := hi.kept_old hs (hi.kept d hd)
  cases hs with
  | @accepted i sv rx hsv hp =>
    rcases List.mem_append.mp hc with hc | hc
    · exact old hc
    · rw [List.mem_singleton] at hc
      subst hc
      exact .inr ⟨sv, rx, hsv, hp⟩
  | @client k _ d p hd =>
    have hkept : (s.turn k d p).Kept d := old (List.mem_of_getElem? hd)
    rcases List.mem_or_eq_of_mem_set hc with hc | rfl
    · exact old hc
    · exact hkept
  | _ => exact old hc

lemma active_turn {k : ℕ} {c : ProxyClient} {p : ProxyClient.Phase} (hi : s.Inv)
    (hc : s.clients[k]? = some c) (hlen : (s.turn k c p).clients.length < 2 ^ 63) (i : ℕ) :
    ((s.turn k c p).gauges i).active.toInt =
      (s.turn k c p).clients.countP (ProxyClient.counts i) := by
  have hgauges : (s.turn k c p).gauges = Function.update s.gauges c.server
    ((s.gauges c.server).pass c.phase.guarded p.guarded) := rfl
  have hclients : (s.turn k c p).clients = s.clients.set k { c with phase := p } := rfl
  rw [hclients, List.length_set] at hlen
  rw [hgauges, hclients]
  by_cases he : c.server = i
  · subst he
    have hactive := hi.active hlen c.server
    have hcounts := Gauge.pass_counts (y := { c with phase := p }) hc hlen hactive
    rw [Function.update_self, ← hcounts]
    simp only [ProxyClient.counts, decide_true, Bool.true_and]
  · have hsame : ProxyClient.counts i { c with phase := p } = ProxyClient.counts i c := by
      simp [ProxyClient.counts, he]
    rw [Function.update_of_ne (Ne.symm he), hi.active hlen, countP_set_same hc hsame]

lemma Inv.active_step (hi : s.Inv) (hs : Step s x s') (hlen : s'.clients.length < 2 ^ 63) :
    ∀ i, (s'.gauges i).active.toInt = s'.clients.countP (ProxyClient.counts i) := by
  intro i
  cases hs with
  | accepted =>
    rw [List.length_append] at hlen
    rw [List.countP_append, hi.active (Nat.lt_of_le_of_lt (Nat.le_add_right _ _) hlen)]
    simp [ProxyClient.counts, ProxyClient.Phase.guarded]
  | client hc => exact active_turn hi hc hlen i
  | _ => exact hi.active hlen i

lemma inv_step (hi : s.Inv) (hs : Step s x s') : s'.Inv where
  shutting := hi.shutting_step hs
  dropped := hi.dropped_step hs
  aborting := hi.aborting_step hs
  kept := hi.kept_step hs
  active := hi.active_step hs

lemma Reachable.inv (h : s.Reachable socks http) : s.Inv := by
  obtain ⟨events, hrun⟩ := h
  exact hrun.invariant inv_start fun _ _ _ hi hs => inv_step hi hs

theorem proxy_gauges_count_guards (h : s.Reachable socks http) (hlen : s.clients.length < 2 ^ 63)
    (i : ℕ) : (s.gauges i).active.toInt = s.clients.countP (ProxyClient.counts i) :=
  h.inv.active hlen i

def isClient : Event → Bool
  | .client _ _ => true
  | _ => false

def remaining (s : Proxies) : ℕ := (s.clients.map fun c => c.phase.remaining).sum

lemma sent_of_hears {c : ProxyClient} (hi : s.Inv) (hc : c ∈ s.clients) (h : s.Hears c.stop) :
    0 < s.stop.sent := by
  rcases h with hpending | ⟨-, hall⟩
  · exact Nat.zero_lt_of_lt hpending
  · rcases hi.kept c hc with hsent | ⟨sv, rx, hsv, hp⟩
    · exact hsent
    · cases hp.symm.trans (hall sv (List.mem_of_getElem? hsv))

lemma signal_of_sent (hrun : Run Step (start socks http) events s) (hsent : 0 < s.stop.sent) :
    .signal ∈ events := by
  suffices hall : 0 < s.stop.sent → Event.signal ∈ events from hall hsent
  refine hrun.history (H := fun bs u => 0 < u.stop.sent → Event.signal ∈ bs)
    (fun hzero => absurd hzero (Nat.lt_irrefl 0)) ?_
  intro bs u x v hu hs hv
  cases hs with
  | signal => exact List.mem_append_right _ (List.mem_singleton_self _)
  | _ => exact List.mem_append_left _ (hu hv)

/-- Nor does the end of a node that is dropped without a stop cut a relay. -/
theorem proxy_relay_cut_by_stop {k : ℕ} (hrun : Run Step (start socks http) events s)
    (hs : Step s (.client k .stopped) s') : .signal ∈ events := by
  cases hs with
  | client hc hp hears =>
    have hi : s.Inv := Reachable.inv ⟨events, hrun⟩
    exact signal_of_sent hrun (sent_of_hears hi (List.mem_of_getElem? hc) hears)

structure Stopped (s u : Proxies) : Prop where
  inv : u.Inv
  node : u.nodeHolds = false
  sent : 0 < u.stop.sent
  length : u.clients.length = s.clients.length

lemma Stopped.shut {u : Proxies} (h : Stopped s u) : u.netstack = .shut := by
  rcases h.inv.dropped h.node with hshut | ⟨-, hzero⟩
  · exact hshut
  · exact absurd h.sent (hzero ▸ Nat.lt_irrefl 0)

lemma Stopped.allEnded {u : Proxies} (h : Stopped s u) : u.AllEnded :=
  (h.inv.shutting (.inr h.shut)).2

lemma Stopped.step {u v : Proxies} (h : Stopped s u) (hs : Step u x v) :
    Stopped s v ∧ v.remaining + (isClient x).toNat ≤ u.remaining := by
  have hinv := inv_step h.inv hs
  have hsent := h.sent.trans_le (sent_le hs)
  have hnode : v.nodeHolds = false := by cases hs <;> first | rfl | exact h.node
  cases hs with
  | bound hsv hp | accepted hsv hp => cases hp.symm.trans (h.allEnded _ (List.mem_of_getElem? hsv))
  | @client k _ c p hc hp =>
    refine ⟨⟨hinv, hnode, hsent, ?_⟩, ?_⟩
    · change (u.clients.set k _).length = _
      rw [List.length_set, h.length]
    · have hsum := sum_map_set (y := { c with phase := p })
        (f := fun c : ProxyClient => c.phase.remaining) hc
      have hlt := ProxyClient.Phase.remaining_lt hp
      simp only at hsum
      change ((u.clients.set k _).map _).sum + 1 ≤ u.remaining
      rw [remaining]
      omega
  | _ => exact ⟨⟨hinv, hnode, hsent, h.length⟩, le_rfl⟩

def relaying : Proxies :=
  let c : ProxyClient := ⟨0, ⟨0⟩, .negotiating⟩
  let s : Proxies :=
    { start true false with
      servers := [⟨true, false, .serving ⟨0⟩⟩]
      clients := [c, c, c] }
  let s := (s.turn 0 c .resolving).turn 0 { c with phase := .resolving } .dialing
  let s := s.turn 0 { c with phase := .dialing } .relaying
  let s := (s.turn 1 c .associating).turn 1 { c with phase := .associating }
    (.associated true .spawned)
  (s.turn 1 { c with phase := .associated true .spawned } (.associated true .running)).turn 2 c
    .resolving

lemma relaying_run : ∃ events, Run Step (start true false) events relaying := by
  have hrun : Run Step (start true false) _ relaying :=
    .cons (.bound (i := 0) rfl rfl) <| .cons (.accepted (i := 0) rfl rfl) <|
    .cons (.accepted (i := 0) rfl rfl) <| .cons (.accepted (i := 0) rfl rfl) <|
    .cons (.client (k := 0) (a := .asked) rfl rfl trivial) <|
    .cons (.client (k := 0) (a := .resolved) rfl rfl (fun h => by cases h)) <|
    .cons (.client (k := 0) (a := .dialed) rfl rfl trivial) <|
    .cons (.client (k := 1) (a := .askedUdp) rfl rfl ⟨_, rfl, rfl⟩) <|
    .cons (.client (k := 1) (a := .bound) rfl rfl trivial) <|
    .cons (.client (k := 1) (a := .begun) rfl rfl trivial) <|
    .cons (.client (k := 2) (a := .asked) rfl rfl trivial) <| .nil _
  exact ⟨_, hrun⟩

theorem two_guards_counted : ∃ s : Proxies, s.Reachable true false ∧ s.clients.length = 3 ∧
    (s.gauges 0).active = 2 ∧
      (s.gauges 0).active.toInt = s.clients.countP (ProxyClient.counts 0) := by
  obtain ⟨events, hrun⟩ := relaying_run
  exact ⟨relaying, ⟨events, hrun⟩, rfl, by decide,
    proxy_gauges_count_guards ⟨events, hrun⟩ (by decide) 0⟩

theorem stream_relay_cut : ∃ (events : List Event) (s s' : Proxies),
    Run Step (start true false) events s ∧ Step s (.client 0 .stopped) s' ∧
      .signal ∈ events := by
  obtain ⟨events, hrun⟩ := relaying_run
  have hsignal : Run Step (start true false) _ { relaying with stop := ⟨1⟩ } :=
    hrun.append (.single (.signal rfl))
  have hcut : Step { relaying with stop := ⟨1⟩ } (.client 0 .stopped) _ :=
    .client rfl rfl (.inl Nat.zero_lt_one)
  exact ⟨_, _, _, hsignal, hcut, proxy_relay_cut_by_stop hsignal hcut⟩

def stopped : Proxies :=
  { relaying with
    stop := ⟨1⟩, nodeHolds := false, netstack := .shut, servers := [⟨true, false, .ended⟩] }

end Proxies

end Yggstack.Mobile
