import Yggstack.Frag.Outputs
import Yggstack.Netstack.Dialing
import Yggstack.Netstack.Tasks

namespace Yggstack.Netstack

open Library
open Yggstack.Frag

def Trap.Benign : Trap → Prop
  | .fault f => f.Benign
  | .panic _ => False

namespace Tasks

inductive Moved (t : Tasks) : Event → Tasks → Prop
  | other {a : Action} {w : World} :
      a.ofPoller = false → World.Step t.world a w → Moved t (.world a) { t with world := w }
  | readNothing : Moved t (.read []) t
  | read {pkt : Packet} :
      t.reader = .reading → pkt ≠ [] → pkt.length ≤ readBuffer →
      Moved t (.read pkt) { t with reader := .sending pkt, read := t.read ++ [pkt] }
  | readerEnded {e : Event} :
      e = .readFailed ∨ e = .sendFailed ∨ e = .abortReader → t.reader ≠ .ended →
      Moved t e { t with reader := .ended }
  | sent {pkt : Packet} :
      t.reader = .sending pkt → t.channel.content.length < channelBound →
      Moved t .sent { t with reader := .reading, channel := t.channel.push pkt }
  | checked {w : World} :
      t.outgoing.content = [] → World.Step t.world .pollerCheck w →
      Moved t .check { t with world := w }
  | fed {e : Event} {evictNow createdNow : ℕ} {pkt : Packet} {channel : Fifo Packet}
      {r : FragReassembler} {out : Option Packet} :
      e = .recv evictNow createdNow ∨ e = .tryRecv evictNow createdNow →
      t.world.poller = .select → t.channel.pop = some (pkt, channel) →
      t.reassembler.feed evictNow createdNow pkt = .ok (r, out) →
      Moved t e { t with
        channel, reassembler := r, stage := .draining
        device := { t.device with rxQueue := out.elim t.device.rxQueue t.device.rxQueue.push }
        fed := t.fed ++ [⟨evictNow, createdNow, pkt⟩] }
  | exited {e : Event} {w : World} :
      e = .recvNone ∨ e = .abortPoller → World.Step t.world .pollerExit w →
      Moved t e { t with world := w }
  | woke : t.world.poller = .select → Moved t .woke { t with stage := .draining }
  | drained :
      t.world.poller = .select → t.channel.content = [] →
      Moved t .drained { t with stage := .drained }
  | cycled {i : CycleInput} {polls : List (List DeviceCall)} {w : World} {device : YggDevice} :
      t.stage = .drained → World.Step t.world (.pollerCycle i) w →
      t.device.pollLoop polls = some device →
      Moved t (.cycle i polls) { t with
        world := w, stage := .waiting, device := { device with txQueue := device.txQueue.drain.2 }
        outgoing := t.outgoing.pushAll device.txQueue.drain.1 }
  | written {pkt : Packet} {outgoing : Fifo Packet} :
      t.outgoing.pop = some (pkt, outgoing) → Moved t .write { t with outgoing }

section Steps

variable {t t' : Tasks}

lemma require_ends (p : Prop) [Decidable p] : Ends Trap.Benign (require p) fun _ => p := by
  rw [require]
  split
  · next hp => exact hp
  · exact Or.inr rfl

variable (hi : t.world.Inv) (hr : t.reassembler.Sound)

include hi in
lemma act_ends (a : Action) : Ends Trap.Benign (t.act a) fun w => World.Step t.world a w := by
  have hend := World.exec_moved hi a
  rw [act]
  cases hw : t.world.exec a with
  | ok w => exact hw
  | error f =>
    rw [hw] at hend
    exact hend

include hr in
lemma feedNext_ends (evictNow createdNow : ℕ) :
    Ends Trap.Benign (t.feedNext evictNow createdNow) fun t' => ∃ pkt channel r out,
      t.channel.pop = some (pkt, channel) ∧
      t.reassembler.feed evictNow createdNow pkt = .ok (r, out) ∧ t' = { t with
        channel, reassembler := r
        device := { t.device with rxQueue := out.elim t.device.rxQueue t.device.rxQueue.push }
        fed := t.fed ++ [⟨evictNow, createdNow, pkt⟩] } := by
  rw [feedNext]
  cases hpop : t.channel.pop with
  | none => exact Or.inr rfl
  | some p =>
    have hfeed := FragReassembler.feed_eq hr evictNow createdNow p.1
    simp only [hfeed]
    exact ⟨p.1, p.2, _, _, rfl, hfeed, rfl⟩

include hi hr in
lemma exec_moved (e : Event) : Ends Trap.Benign (t.exec e) (Moved t e) := by
  cases e with
  | world a =>
    refine (require_ends _).bind fun _ ha => ?_
    refine (act_ends hi a).bind fun w hw => ?_
    exact .other ha hw
  | read pkt =>
    rw [exec]
    split
    · rename_i hreading
      refine (require_ends _).bind fun _ hlen => ?_
      cases pkt with
      | nil => exact .readNothing
      | cons b bs => exact .read hreading (List.cons_ne_nil b bs) hlen
    · exact Or.inr rfl
  | readFailed =>
    rw [exec]
    split
    · rename_i hreading
      exact .readerEnded (Or.inl rfl) (by simp [hreading])
    · exact Or.inr rfl
  | sent =>
    rw [exec]
    split
    · rename_i pkt hsending
      refine (require_ends _).bind fun _ hroom => ?_
      exact .sent hsending (of_decide_eq_true hroom.2)
    · exact Or.inr rfl
  | sendFailed =>
    rw [exec]
    split
    · rename_i pkt hsending
      refine (require_ends _).bind fun _ _ => ?_
      exact .readerEnded (Or.inr (Or.inl rfl)) (by simp [hsending])
    · exact Or.inr rfl
  | check =>
    refine (require_ends _).bind fun _ hout => ?_
    refine (act_ends hi _).bind fun w hw => ?_
    exact .checked hout hw
  | recv evictNow createdNow =>
    refine (require_ends _).bind fun _ hat => ?_
    refine (feedNext_ends hr _ _).bind ?_
    rintro _ ⟨pkt, channel, r, out, hpop, hfeed, rfl⟩
    exact .fed (Or.inl rfl) hat.1 hpop hfeed
  | recvNone =>
    rw [exec]
    split
    · refine (require_ends _).bind fun _ _ => ?_
      refine (act_ends hi _).bind fun w hw => ?_
      exact .exited (Or.inl rfl) hw
    · exact Or.inr rfl
  | woke =>
    refine (require_ends _).bind fun _ hat => ?_
    exact .woke hat.1
  | tryRecv evictNow createdNow =>
    refine (require_ends _).bind fun _ hat => ?_
    have hfed := feedNext_ends hr evictNow createdNow
    cases hnext : t.feedNext evictNow createdNow with
    | error e => exact hfed.of_error hnext
    | ok t' =>
      obtain ⟨pkt, channel, r, out, hpop, hfeed, rfl⟩ := hfed.of_ok hnext
      rw [show t.stage = .draining from hat.2]
      exact .fed (Or.inr rfl) hat.1 hpop hfeed
  | drained =>
    refine (require_ends _).bind fun _ hat => ?_
    exact .drained hat.1.1 hat.2
  | cycle i polls =>
    refine (require_ends _).bind fun _ hat => ?_
    refine (act_ends hi _).bind fun w hw => ?_
    cases hd : t.device.pollLoop polls with
    | none => exact Or.inr rfl
    | some device => exact .cycled hat.2 hw hd
  | write =>
    refine (require_ends _).bind fun _ _ => ?_
    cases hpop : t.outgoing.pop with
    | none => exact Or.inr rfl
    | some p => exact .written hpop
  | abortReader =>
    rw [exec]
    split
    · exact Or.inr rfl
    · rename_i hended
      refine (require_ends _).bind fun _ _ => ?_
      exact .readerEnded (Or.inr (Or.inr rfl)) hended
  | abortPoller =>
    refine (require_ends _).bind fun _ _ => ?_
    refine (act_ends hi _).bind fun w hw => ?_
    exact .exited (Or.inr rfl) hw

end Steps

/-- What has entered a part of the way is what has left the part before it. -/
structure Flow (t : Tasks) : Prop where
  world : t.world.Reachable
  room : t.channel.content.length ≤ channelBound
  read : ∃ lost, t.read = t.channel.put ++ t.reader.inHand ++ lost ∧ lost.length ≤ 1 ∧
    (t.reader ≠ .ended → lost = [])
  fed : t.channel.got = t.fed.map Feed.pkt
  reassembled : ∃ outs, FragReassembler.new.feedAll t.fed = .ok (t.reassembler, outs) ∧
    t.device.rxQueue.put = outs.reduceOption
  polled : t.stage = .waiting → t.device.rxQueue.content = []
  emitted : t.device.txQueue.content = []
  written : t.outgoing.put = t.device.txQueue.got

namespace Flow

variable {t t' : Tasks} {e : Event}

lemma new (ourAddr : BitVec 128) (ckr : Bool) (source : IpAddress → Option IpAddress) (mtu : ℕ) :
    Flow (.new ourAddr ckr source mtu) where
  world := ⟨ourAddr, ckr, source, [], .nil _⟩
  room := Nat.zero_le _
  read := ⟨[], rfl, Nat.zero_le _, fun _ => rfl⟩
  fed := rfl
  reassembled := ⟨[], rfl, rfl⟩
  polled _ := rfl
  emitted := rfl
  written := rfl

lemma sound (h : Flow t) : t.reassembler.Sound := by
  obtain ⟨outs, hall, -⟩ := h.reassembled
  exact FragReassembler.Reachable.sound ⟨t.fed, outs, hall⟩

lemma stepped {w : World} {a : Action} (h : Flow t) (hw : World.Step t.world a w) :
    Flow { t with world := w } where
  world := h.world.run (.single hw)
  room := h.room
  read := h.read
  fed := h.fed
  reassembled := h.reassembled
  polled := h.polled
  emitted := h.emitted
  written := h.written

lemma ended (h : Flow t) (hr : t.reader ≠ .ended) : Flow { t with reader := .ended } where
  __ := h
  read := by
    obtain ⟨lost, hread, -, hlost⟩ := h.read
    refine ⟨t.reader.inHand, ?_, ?_, fun hne => absurd rfl hne⟩
    · rw [hread, hlost hr, List.append_nil]
      simp [Reader.inHand]
    · cases t.reader <;> simp [Reader.inHand]

lemma fedNext (h : Flow t) {evictNow createdNow : ℕ} {pkt : Packet} {channel : Fifo Packet}
    {r : FragReassembler} {out : Option Packet} (hpop : t.channel.pop = some (pkt, channel))
    (hfeed : t.reassembler.feed evictNow createdNow pkt = .ok (r, out)) :
    Flow { t with
      channel, reassembler := r, stage := .draining
      device := { t.device with rxQueue := out.elim t.device.rxQueue t.device.rxQueue.push }
      fed := t.fed ++ [⟨evictNow, createdNow, pkt⟩] } where
  __ := h
  room := by
    have hroom := h.room
    rw [(Fifo.pop_spec hpop).1, List.length_cons] at hroom
    exact (Nat.le_succ _).trans hroom
  read := by
    rw [(Fifo.pop_spec hpop).2.1]
    exact h.read
  fed := by
    rw [(Fifo.pop_spec hpop).2.2, h.fed, List.map_append]
    rfl
  reassembled := by
    obtain ⟨outs, hall, hput⟩ := h.reassembled
    refine ⟨outs ++ [out], FragReassembler.feedAll_concat hall hfeed, ?_⟩
    rw [List.reduceOption_append, ← hput]
    cases out <;> simp
  polled := fun hs => by cases hs

lemma cycled (h : Flow t) {w : World} {i : CycleInput} {polls : List (List DeviceCall)}
    {device : YggDevice} (hw : World.Step t.world (.pollerCycle i) w)
    (hd : t.device.pollLoop polls = some device) :
    Flow { t with
      world := w, stage := .waiting, device := { device with txQueue := device.txQueue.drain.2 }
      outgoing := t.outgoing.pushAll device.txQueue.drain.1 } := by
  obtain ⟨hp, hnil⟩ := YggDevice.pollLoop_spec hd
  exact {
    world := h.world.run (.single hw)
    room := h.room
    read := h.read
    fed := h.fed
    reassembled := by rw [hp.rx_put]; exact h.reassembled
    polled := fun _ => hnil
    emitted := Fifo.content_drain
    written := by
      rw [Fifo.put_pushAll, h.written, ← hp.tx_got, Fifo.got_drain, device.txQueue.conserved]
      rfl }

lemma moved (h : Flow t) (hm : Moved t e t') : Flow t' := by
  cases hm with
  | other _ hw => exact h.stepped hw
  | readNothing => exact h
  | @read pkt hreading hne hlen =>
    obtain ⟨lost, hread, -, hlost⟩ := h.read
    have hnil : lost = [] := hlost (by simp [hreading])
    exact { h with
      read := ⟨[], by simp [hread, hnil, hreading, Reader.inHand], Nat.zero_le _, fun _ => rfl⟩ }
  | readerEnded _ hr => exact h.ended hr
  | @sent pkt hsending hroom =>
    obtain ⟨lost, hread, -, hlost⟩ := h.read
    have hnil : lost = [] := hlost (by simp [hsending])
    exact { h with
      room := by simpa using hroom
      read := ⟨[], by simp [hread, hnil, hsending, Reader.inHand], Nat.zero_le _, fun _ => rfl⟩ }
  | checked _ hw => exact h.stepped hw
  | fed _ _ hpop hfeed => exact h.fedNext hpop hfeed
  | exited _ hw => exact h.stepped hw
  | woke => exact { h with polled := fun hs => by cases hs }
  | drained => exact { h with polled := fun hs => by cases hs }
  | cycled _ hw hd => exact h.cycled hw hd
  | written hpop => exact { h with written := (Fifo.pop_spec hpop).2.1.trans h.written }

lemma moved_of_step (h : Flow t) (hs : Step t e t') : Moved t e t' :=
  (exec_moved h.world.inv h.sound e).of_ok hs

lemma run {events : List Event} (h : Flow t) (hrun : Run Step t events t') : Flow t' :=
  hrun.invariant h fun _ _ _ hf hs => hf.moved (hf.moved_of_step hs)

end Flow

lemma Reachable.flow {t : Tasks} (h : t.Reachable) : t.Flow := by
  obtain ⟨ourAddr, ckr, source, mtu, events, hrun⟩ := h
  exact (Flow.new ourAddr ckr source mtu).run hrun

variable {t t' : Tasks} {events : List Event}

lemma world_step (h : Flow t) {e : Event} (hs : Step t e t') :
    Run World.Step t.world e.action?.toList t'.world := by
  cases h.moved_of_step hs with
  | other _ hw => exact .single hw
  | checked _ hw => exact .single hw
  | cycled _ hw _ => exact .single hw
  | exited he hw => rcases he with rfl | rfl <;> exact .single hw
  | fed he => rcases he with rfl | rfl <;> exact .nil _
  | readerEnded he => rcases he with rfl | rfl | rfl <;> exact .nil _
  | _ => exact .nil _

/-- The tasks refine the netstack: their runs are runs of it. -/
theorem run_refines (h : Flow t) (hrun : Run Step t events t') :
    Run World.Step t.world (events.filterMap Event.action?) t'.world := by
  induction hrun with
  | nil => exact .nil _
  | cons hs _ ih =>
    rw [List.filterMap_cons]
    have hrest := (world_step h hs).append (ih (h.moved (h.moved_of_step hs)))
    split
    · rename_i hnone
      simpa [hnone] using hrest
    · rename_i a ha
      simpa [ha] using hrest

def quietCycle : CycleInput where
  effect := ⟨fun _ s => s, fun _ s => s, fun _ s => s⟩
  serviceNow := 0
  reapNow := 0
  supply := []

lemma step_tryRecv (h : Flow t) (hat : t.At .draining) {pkt : Packet} {rest : List Packet}
    (hc : t.channel.content = pkt :: rest) (e c : ℕ) :
    ∃ t', Step t (.tryRecv e c) t' ∧ t'.world = t.world ∧ t'.reader = t.reader ∧
      t'.stage = t.stage ∧ t'.channel.content = rest ∧ t'.read = t.read ∧
      t'.fed = t.fed ++ [⟨e, c, pkt⟩] ∧ t'.outgoing = t.outgoing := by
  obtain ⟨channel, hpop⟩ : ∃ channel, t.channel.pop = some (pkt, channel) := by
    rw [Fifo.pop, hc]
    exact ⟨_, rfl⟩
  have hrest : channel.content = rest := by
    have hcons := (Fifo.pop_spec hpop).1
    rw [hc] at hcons
    exact (List.cons.inj hcons).2.symm
  obtain ⟨r, out, hok⟩ : ∃ r out, t.reassembler.feed e c pkt = .ok (r, out) :=
    ⟨_, _, FragReassembler.feed_eq h.sound e c pkt⟩
  refine ⟨{ t with
    channel, reassembler := r
    device := { t.device with rxQueue := out.elim t.device.rxQueue t.device.rxQueue.push }
    fed := t.fed ++ [⟨e, c, pkt⟩] }, ?_, rfl, rfl, rfl, hrest, rfl, rfl, rfl⟩
  simp only [Step, exec, require, if_pos hat, feedNext, hpop, hok]
  rfl

lemma run_drains (h : Flow t) (hat : t.At .draining) {times : List (ℕ × ℕ)}
    (hlen : times.length = t.channel.content.length) :
    ∃ events t', Run Step t events t' ∧ t'.world = t.world ∧ t'.reader = t.reader ∧
      t'.stage = .draining ∧ t'.channel.content = [] ∧ t'.read = t.read ∧
      t'.fed = t.fed ++ List.zipWith (fun time pkt => ⟨time.1, time.2, pkt⟩) times
        t.channel.content ∧ t'.outgoing = t.outgoing := by
  induction times generalizing t with
  | nil =>
    have hnil : t.channel.content = [] := List.length_eq_zero_iff.mp hlen.symm
    exact ⟨[], t, .nil t, rfl, rfl, hat.2, hnil, rfl, by simp, rfl⟩
  | cons time times ih =>
    cases hc : t.channel.content with
    | nil => simp [hc] at hlen
    | cons pkt rest =>
      obtain ⟨u, hu, hw, hreader, hstage, hrest, hread, hfed, hout⟩ :=
        step_tryRecv h hat hc time.1 time.2
      have hat' : u.At .draining := ⟨by rw [hw]; exact hat.1, hstage.trans hat.2⟩
      have hlen' : times.length = u.channel.content.length := by
        rw [hrest]
        simpa [hc] using hlen
      obtain ⟨events, t', hrun, hw', hreader', hstage', hnil, hread', hfed', hout'⟩ :=
        ih (h.moved (h.moved_of_step hu)) hat' hlen'
      refine ⟨_, t', .cons hu hrun, hw'.trans hw, hreader'.trans hreader, hstage', hnil,
        hread'.trans hread, ?_, hout'.trans hout⟩
      rw [hfed', hfed, hrest, List.append_assoc]
      rfl

lemma run_cycle (hat : t.At .draining) (hnil : t.channel.content = []) {i : CycleInput} {w : World}
    (hw : World.Step t.world (.pollerCycle i) w) :
    ∃ polls t', Run Step t [.drained, .cycle i polls] t' ∧ t'.stage = .waiting ∧
      t'.reader = t.reader ∧ t'.channel = t.channel ∧ t'.read = t.read ∧ t'.fed = t.fed ∧
      t'.outgoing.got = t.outgoing.got := by
  obtain ⟨n, device, -, hd⟩ := t.device.pollLoop_ends (fun _ => [.receive none]) fun _ =>
    ⟨_, List.mem_singleton_self _, rfl⟩
  generalize (List.range n).map (fun _ => [DeviceCall.receive none]) = polls at hd
  refine ⟨polls, { t with
    world := w, stage := .waiting, device := { device with txQueue := device.txQueue.drain.2 }
    outgoing := t.outgoing.pushAll device.txQueue.drain.1 },
    .cons (t := { t with stage := .drained }) ?_ (.single ?_), rfl, rfl, rfl, rfl, rfl, rfl⟩
  · simp only [Step, exec, require, if_pos (And.intro hat hnil)]
    rfl
  · have hat' : At { t with stage := .drained } .drained := ⟨hat.1, rfl⟩
    have hact : act { t with stage := .drained } (.pollerCycle i) = .ok w := by
      rw [act, hw]
      rfl
    simp only [Step, exec, require, if_pos hat', hact, hd]
    rfl

lemma exists_emptied (h : Reachable t) (hat : t.At .draining) {times : List (ℕ × ℕ)}
    (hlen : times.length = t.channel.content.length)
    (hcycle : ∃ w, World.Step t.world (.pollerCycle quietCycle) w) :
    ∃ t', Reachable t' ∧ t'.stage = .waiting ∧ t'.reader = t.reader ∧ t'.channel.content = [] ∧
      t'.read = t.read ∧ t'.fed = t.fed ++ List.zipWith (fun time pkt => ⟨time.1, time.2, pkt⟩)
        times t.channel.content ∧ t'.outgoing.got = t.outgoing.got := by
  obtain ⟨ourAddr, ckr, source, mtu, before, hr⟩ := h
  obtain ⟨drains, u, hdrains, hw, hreader, hstage, hnil, hread, hfed, hout⟩ :=
    run_drains (Reachable.flow ⟨ourAddr, ckr, source, mtu, before, hr⟩) hat hlen
  obtain ⟨w, hcycle⟩ := hcycle
  have hat' : u.At .draining := ⟨by rw [hw]; exact hat.1, hstage⟩
  obtain ⟨polls, t', hrun, hstage', hreader', hchannel, hread', hfed', hgot⟩ :=
    run_cycle hat' hnil (by rw [hw]; exact hcycle)
  exact ⟨t', ⟨ourAddr, ckr, source, mtu, _, hr.append (hdrains.append hrun)⟩, hstage',
    hreader'.trans hreader, by rw [hchannel, hnil], hread'.trans hread, hfed'.trans hfed,
    hgot.trans (by rw [hout])⟩

/-- Nothing on the way reorders, doubles or loses a packet: what was read is what was fed, then what
waits in the channel and in the reader's hand, unless the reader ended with a packet it could not
send. What the reassembler gave out is what smoltcp took, then what the device still holds. -/
theorem packets_flow_in_order (h : t.Reachable) :
    ∃ outs lost, FragReassembler.new.feedAll t.fed = .ok (t.reassembler, outs) ∧
      t.read = t.fed.map Feed.pkt ++ t.channel.content ++ t.reader.inHand ++ lost ∧
      lost.length ≤ 1 ∧ (t.reader ≠ .ended → lost = []) ∧ t.channel.content.length ≤ 128 ∧
      outs.reduceOption = t.device.rxQueue.got ++ t.device.rxQueue.content ∧
      (t.stage = .waiting → t.device.rxQueue.content = []) ∧
      t.device.txQueue.put = t.outgoing.got ++ t.outgoing.content := by
  have hf := h.flow
  obtain ⟨lost, hread, hlen, hlost⟩ := hf.read
  obtain ⟨outs, hall, hput⟩ := hf.reassembled
  refine ⟨outs, lost, hall, ?_, hlen, hlost, hf.room, ?_, hf.polled, ?_⟩
  · rw [hread, t.channel.conserved, hf.fed]
  · rw [← hput, t.device.rxQueue.conserved]
  · rw [← Fifo.got_eq_put hf.emitted, ← hf.written, t.outgoing.conserved]

def answer : List Event := [.read [1], .sent, .check, .woke, .tryRecv 0 0, .drained,
  .cycle quietCycle [[.receive (some [2])]], .write]

def samplePackets : List Packet := sampleFeeds.map Feed.pkt

theorem one_packet_answered : ∃ t outs, Reachable t ∧ t.read = [1] :: samplePackets ∧
    t.fed.map Feed.pkt = [1] :: samplePackets ∧ t.outgoing.got = [[2]] ∧
    FragReassembler.new.feedAll t.fed = .ok (t.reassembler, outs) ∧
    t.device.rxQueue.got = outs.reduceOption := by
  obtain ⟨t₀, hr, hat, hcontent, hread₀, hgot₀, hreader₀, hcycle⟩ : ∃ t₀,
      Run Step (new 1 false (fun _ => none) 1500)
        (answer ++ samplePackets.flatMap (fun pkt => [.read pkt, .sent]) ++ [.check, .woke]) t₀ ∧
      t₀.At .draining ∧ t₀.channel.content = samplePackets ∧ t₀.read = [1] :: samplePackets ∧
      t₀.outgoing.got = [[2]] ∧ t₀.reader = .reading ∧
      ∃ w, World.Step t₀.world (.pollerCycle quietCycle) w := by
    refine ⟨_, .of_runAll rfl, ⟨rfl, rfl⟩, rfl, rfl, rfl, rfl, ?_⟩
    exact ⟨_, rfl⟩
  have htimes : [(5, 5), (6, 6), (7, 7)].length = t₀.channel.content.length := by
    rw [hcontent]
    rfl
  obtain ⟨t, h, hstage, hreader, hnil, hread, hfed, hgot⟩ :=
    exists_emptied ⟨1, false, fun _ => none, 1500, _, hr⟩ hat htimes hcycle
  obtain ⟨outs, lost, hall, hflow, -, hlost, -, hrx, hpolled, -⟩ := packets_flow_in_order h
  rw [hlost (by simp [hreader, hreader₀]), hnil, hreader, hreader₀] at hflow
  have hpkts : t.fed.map Feed.pkt = t.read := by simpa [Reader.inHand] using hflow.symm
  rw [hpolled hstage, List.append_nil] at hrx
  exact ⟨t, outs, h, hread.trans hread₀, by rw [hpkts, hread, hread₀], hgot.trans hgot₀, hall,
    hrx.symm⟩

lemma fed_grows (h : Flow t) {e : Event} (hs : Step t e t') :
    t.channel.put <+: t'.channel.put ∧ t.channel.got <+: t'.channel.got := by
  cases h.moved_of_step hs with
  | sent => exact ⟨List.prefix_append _ _, List.prefix_rfl⟩
  | fed _ _ hpop _ =>
    obtain ⟨-, hput, hgot⟩ := Fifo.pop_spec hpop
    exact ⟨by rw [hput], by rw [hgot]; exact List.prefix_append _ _⟩
  | _ => exact ⟨List.prefix_rfl, List.prefix_rfl⟩

lemma fed_before_cycle (h : Flow t) (hs : t.stage = .waiting) (hrun : Run Step t events t') :
    t.channel.put <+: t'.channel.put ∧ (t'.stage = .drained → t.channel.put <+: t'.channel.got) := by
  let grown (u : Tasks) : Prop := u.Flow ∧ t.channel.put <+: u.channel.put ∧
    (u.stage = .drained → t.channel.put <+: u.channel.got)
  have hinv : grown t' := by
    refine hrun.invariant ⟨h, List.prefix_rfl, fun hd => by simp [hs] at hd⟩ ?_
    rintro u e v ⟨hf, hput, hgot⟩ hstep
    obtain ⟨hput', hgot'⟩ := fed_grows hf hstep
    refine ⟨hf.moved (hf.moved_of_step hstep), hput.trans hput', fun hd => ?_⟩
    by_cases hu : u.stage = .drained
    · exact (hgot hu).trans hgot'
    · cases hf.moved_of_step hstep with
      | drained _ hnil => rw [Fifo.got_eq_put hnil]; exact hput
      | fed => cases hd
      | woke => cases hd
      | cycled => cases hd
      | _ => exact absurd hd hu
  exact hinv.2

/-- No packet sits out a poll cycle: what the reader had sent before the poller woke up has been
through the reassembler when the cycle ends, and smoltcp has taken all that came out. -/
theorem sent_packets_handed_by_cycle (h : t.Reachable) (hs : t.stage = .waiting) {i : CycleInput}
    {polls : List (List DeviceCall)} (hrun : Run Step t (events ++ [.cycle i polls]) t') :
    ∃ outs rest, FragReassembler.new.feedAll t'.fed = .ok (t'.reassembler, outs) ∧
      t'.fed.map Feed.pkt = t.channel.put ++ rest ∧ t'.device.rxQueue.got = outs.reduceOption := by
  obtain ⟨u, hbefore, hlast⟩ := hrun.of_append
  have hlast := hlast.of_single
  have hf := h.flow.run hbefore
  obtain ⟨-, hfed⟩ := fed_before_cycle h.flow hs hbefore
  have hf' := hf.moved (hf.moved_of_step hlast)
  obtain ⟨outs, hall, hput⟩ := hf'.reassembled
  cases hf.moved_of_step hlast with
  | cycled hd hw hp =>
    obtain ⟨rest, hrest⟩ := hfed hd
    refine ⟨outs, rest, hall, by rw [hrest, ← hf.fed], ?_⟩
    rw [← hput, Fifo.got_eq_put (hf'.polled rfl)]
  | exited he => rcases he with he | he <;> cases he
  | fed he => rcases he with he | he <;> cases he
  | readerEnded he => rcases he with he | he | he <;> cases he

theorem packet_handed_by_cycle : ∃ t t' outs rest, Reachable t ∧ t.channel.put = [[1]] ∧
    Run Step t ([.check, .woke, .tryRecv 0 0, .drained] ++ [.cycle quietCycle [[.receive none]]])
      t' ∧
    FragReassembler.new.feedAll t'.fed = .ok (t'.reassembler, outs) ∧
    t'.fed.map Feed.pkt = t.channel.put ++ rest ∧ t'.device.rxQueue.got = outs.reduceOption := by
  let t : Tasks := { new 1 false (fun _ => none) 1500 with
    channel := Fifo.empty.push [1], read := [[1]] }
  have hr : Run Step (new 1 false (fun _ => none) 1500) [.read [1], .sent] t := .of_runAll rfl
  have h : Reachable t := ⟨1, false, fun _ => none, 1500, _, hr⟩
  have hrun : Run Step t ([.check, .woke, .tryRecv 0 0, .drained] ++
      [.cycle quietCycle [[.receive none]]]) _ := .of_runAll rfl
  obtain ⟨outs, rest, hall, hfed, hgot⟩ := sent_packets_handed_by_cycle h rfl hrun
  exact ⟨t, _, outs, rest, h, rfl, hrun, hall, hfed, hgot⟩

/-- A packet that was read as fragments, in any order and among any other packets, is handed to
smoltcp exactly once and whole. All of it has been read and the poller is between two cycles. -/
theorem fragmented_packet_handed_once (h : t.Reachable) (hreader : t.reader = .reading)
    (hchannel : t.channel.content = []) (hstage : t.stage = .waiting) (key : FragKey)
    (nextHeader : UInt8) (pieces : List (List UInt8)) (hne : pieces ≠ [])
    (hpos : ∀ xs ∈ pieces, xs ≠ []) (h8 : ∀ xs ∈ pieces.dropLast, 8 ∣ xs.length)
    (hlen : pieces.flatten.length ≤ 65535) (envelopes : List Envelope)
    (he : envelopes.length = pieces.length)
    (horder : (t.read.filter fun pkt => keyOf pkt = some key).Perm
      (packets key nextHeader envelopes pieces))
    (hclock : Chronological 0 t.fed) (t₀ : ℕ)
    (htime : ∀ x ∈ t.fed, keyOf x.pkt = some key → x.Within t₀) :
    ∃ outs, FragReassembler.new.feedAll t.fed = .ok (t.reassembler, outs) ∧
      t.device.rxQueue.got = outs.reduceOption ∧
      (answersTo key t.fed outs).reduceOption =
        [ipv6Header key.src key.dst nextHeader pieces.flatten.length ++ pieces.flatten] := by
  have hf := h.flow
  obtain ⟨outs, hall, hput⟩ := hf.reassembled
  have hread : t.read = t.fed.map Feed.pkt := by
    obtain ⟨lost, hread, -, hlost⟩ := hf.read
    rw [hread, hlost (by simp [hreader]), ← Fifo.got_eq_put hchannel, hf.fed, hreader]
    simp [Reader.inHand]
  refine ⟨outs, hall, ?_, ?_⟩
  · rw [← hput, Fifo.got_eq_put (hf.polled hstage)]
  · rw [hread] at horder
    exact answersTo_fragmented hne hpos h8 hlen he horder hclock htime hall

theorem nine_bytes_handed_once : ∃ t outs, Reachable t ∧ t.read = samplePackets ∧
    FragReassembler.new.feedAll t.fed = .ok (t.reassembler, outs) ∧
    t.device.rxQueue.got = outs.reduceOption ∧ (answersTo sampleKey t.fed outs).reduceOption =
      [ipv6Header sampleKey.src sampleKey.dst 17 9 ++ [1, 2, 3, 4, 5, 6, 7, 8, 9]] := by
  let world : World := { World.initial 1 false (fun _ => none) with poller := .select }
  let t₀ : Tasks := { new 1 false (fun _ => none) 1500 with
    world, stage := .draining, channel := Fifo.empty.pushAll samplePackets, read := samplePackets }
  have hr : Run Step (new 1 false (fun _ => none) 1500)
      (samplePackets.flatMap (fun pkt => [.read pkt, .sent]) ++ [.check, .woke]) t₀ := .of_runAll rfl
  have htimes : [(5, 5), (6, 6), (7, 7)].length = t₀.channel.content.length := rfl
  have hcycle : ∃ w, World.Step t₀.world (.pollerCycle quietCycle) w := by
    exact ⟨_, rfl⟩
  obtain ⟨t, h, hstage, hreader, hnil, hread, hfed, -⟩ :=
    exists_emptied ⟨1, false, fun _ => none, 1500, _, hr⟩ ⟨rfl, rfl⟩ htimes hcycle
  have hfeeds : t.fed = sampleFeeds := hfed
  have hpkts : t.read = samplePackets := hread
  obtain ⟨outs, hall, hgot, hans⟩ := fragmented_packet_handed_once h hreader hnil hstage sampleKey 17
    [[1, 2, 3, 4, 5, 6, 7, 8], [9]] (by simp) (by simp) (by simp) (by simp)
    [sampleEnvelope, sampleEnvelope] rfl
    (by rw [hpkts]; decide +kernel)
    (by rw [hfeeds]; simp [Chronological, sampleFeeds]) 0
    (by rw [hfeeds]; simp [sampleFeeds, Feed.Within, Frag.fragTimeout])
  exact ⟨t, outs, h, hpkts, hall, hgot, hans⟩

end Tasks

end Yggstack.Netstack
