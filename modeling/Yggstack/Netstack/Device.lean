import Yggstack.Library.Fifo

/-! The device between smoltcp and the two tasks of the netstack, and the loop of `run_poll` that
polls the interface until the device has no packet left. -/

namespace Yggstack.Netstack

open Library

abbrev Packet := List UInt8

structure YggDevice where
  rxQueue : Fifo Packet
  txQueue : Fifo Packet
  mtu : ℕ

-- What smoltcp does with its device. The transmit token that comes with a packet is used for one
-- answer or dropped.
inductive DeviceCall where
  | receive (answer : Option Packet)
  | transmit (frame : Packet)

def DeviceCall.receives : DeviceCall → Bool
  | .receive _ => true
  | .transmit _ => false

namespace YggDevice

def new (mtu : ℕ) : YggDevice := { rxQueue := .empty, txQueue := .empty, mtu }

def consumeTx (d : YggDevice) (frame : Packet) : YggDevice :=
  { d with txQueue := d.txQueue.push frame }

def receive (d : YggDevice) : Option (Packet × YggDevice) :=
  match d.rxQueue.pop with
  | none => none
  | some (pkt, rxQueue) => some (pkt, { d with rxQueue })

def call (d : YggDevice) : DeviceCall → YggDevice
  | .receive answer =>
    match d.receive with
    | none => d
    | some (_, d) => answer.elim d d.consumeTx
  | .transmit frame => d.consumeTx frame

def pollLoop (d : YggDevice) : List (List DeviceCall) → Option YggDevice
  | [] => none
  | calls :: polls =>
    let d := calls.foldl call d
    if d.rxQueue.content.isEmpty then if polls.isEmpty then some d else none
    else d.pollLoop polls

variable {d d' : YggDevice}

lemma receive_spec {pkt : Packet} (h : d.receive = some (pkt, d')) :
    d.rxQueue.content = pkt :: d'.rxQueue.content ∧ d'.rxQueue.put = d.rxQueue.put ∧
      d'.txQueue = d.txQueue := by
  unfold receive at h
  split at h
  · cases h
  · rename_i pkt' q hq
    cases h
    obtain ⟨hc, hput, -⟩ := Fifo.pop_spec hq
    exact ⟨hc, hput, rfl⟩

lemma receive_eq_none_iff : d.receive = none ↔ d.rxQueue.content = [] := by
  rw [← Fifo.pop_eq_none_iff]
  unfold receive
  split <;> simp_all

lemma call_receive_none (h : d.receive = none) {answer : Option Packet} :
    d.call (.receive answer) = d := by
  simp only [call, h]

lemma call_receive_some {r : Packet × YggDevice} (h : d.receive = some r)
    {answer : Option Packet} : d.call (.receive answer) = answer.elim r.2 r.2.consumeTx := by
  simp only [call, h]

structure Polled (d d' : YggDevice) : Prop where
  rx_put : d'.rxQueue.put = d.rxQueue.put
  rx_le : d'.rxQueue.content.length ≤ d.rxQueue.content.length
  tx_got : d'.txQueue.got = d.txQueue.got

namespace Polled

lemma refl (d : YggDevice) : Polled d d := ⟨rfl, le_rfl, rfl⟩

lemma trans {d'' : YggDevice} (h : Polled d d') (h' : Polled d' d'') : Polled d d'' :=
  ⟨h'.rx_put.trans h.rx_put, h'.rx_le.trans h.rx_le, h'.tx_got.trans h.tx_got⟩

lemma consumeTx (d : YggDevice) (frame : Packet) : Polled d (d.consumeTx frame) :=
  ⟨rfl, le_rfl, rfl⟩

lemma receive {pkt : Packet} (h : d.receive = some (pkt, d')) : Polled d d' := by
  obtain ⟨hc, hput, htx⟩ := receive_spec h
  refine ⟨hput, ?_, by rw [htx]⟩
  rw [hc, List.length_cons]
  exact Nat.le_succ _

lemma call (d : YggDevice) (c : DeviceCall) : Polled d (d.call c) := by
  cases c with
  | transmit frame => exact consumeTx d frame
  | receive answer =>
    cases hr : d.receive with
    | none =>
      rw [call_receive_none hr]
      exact refl d
    | some r =>
      rw [call_receive_some hr]
      cases answer with
      | none => exact receive hr
      | some frame => exact (receive hr).trans (consumeTx r.2 frame)

lemma calls (d : YggDevice) (cs : List DeviceCall) : Polled d (cs.foldl YggDevice.call d) := by
  induction cs generalizing d with
  | nil => exact refl d
  | cons c cs ih => exact (call d c).trans (ih _)

end Polled

lemma call_receives (hd : d.rxQueue.content ≠ []) {c : DeviceCall} (hc : c.receives = true) :
    (d.call c).rxQueue.content.length < d.rxQueue.content.length := by
  cases c with
  | transmit frame => cases hc
  | receive answer =>
    cases hr : d.receive with
    | none => exact absurd (receive_eq_none_iff.mp hr) hd
    | some r =>
      obtain ⟨hcons, -, -⟩ := receive_spec hr
      rw [call_receive_some hr, hcons, List.length_cons]
      cases answer <;> exact Nat.lt_succ_self _

lemma calls_receive (hd : d.rxQueue.content ≠ []) {cs : List DeviceCall}
    (hcs : ∃ c ∈ cs, c.receives = true) :
    (cs.foldl call d).rxQueue.content.length < d.rxQueue.content.length := by
  induction cs generalizing d with
  | nil => simp at hcs
  | cons c cs ih =>
    rw [List.foldl_cons]
    have hle := (Polled.calls (d.call c) cs).rx_le
    by_cases hc : c.receives = true
    · exact hle.trans_lt (call_receives hd hc)
    · obtain ⟨c', hmem, hc'⟩ := hcs
      rcases List.mem_cons.mp hmem with rfl | hmem
      · exact absurd hc' hc
      · by_cases hnil : (d.call c).rxQueue.content = []
        · rw [hnil] at hle
          exact hle.trans_lt (List.length_pos_iff.mpr hd)
        · exact (ih hnil ⟨c', hmem, hc'⟩).trans_le (Polled.call d c).rx_le

lemma pollLoop_spec {polls : List (List DeviceCall)} (h : d.pollLoop polls = some d') :
    Polled d d' ∧ d'.rxQueue.content = [] := by
  induction polls generalizing d with
  | nil => cases h
  | cons cs polls ih =>
    simp only [pollLoop] at h
    split at h
    · rename_i hempty
      split at h
      · cases h
        exact ⟨Polled.calls d cs, List.isEmpty_iff.mp hempty⟩
      · cases h
    · obtain ⟨hp, hnil⟩ := ih h
      exact ⟨(Polled.calls d cs).trans hp, hnil⟩

theorem pollLoop_ends (d : YggDevice) (poll : ℕ → List DeviceCall)
    (hpoll : ∀ n, ∃ c ∈ poll n, c.receives = true) :
    ∃ n d', n ≤ d.rxQueue.content.length + 1 ∧ d.pollLoop ((List.range n).map poll) = some d' := by
  induction hk : d.rxQueue.content.length using Nat.strong_induction_on generalizing d poll with
  | _ k ih =>
    by_cases hnil : ((poll 0).foldl call d).rxQueue.content = []
    · refine ⟨1, (poll 0).foldl call d, by omega, ?_⟩
      simp [pollLoop, hnil]
    · have hd : d.rxQueue.content ≠ [] := by
        intro hd
        have hle := (Polled.calls d (poll 0)).rx_le
        rw [hd] at hle
        exact hnil (List.length_eq_zero_iff.mp (by simpa using hle))
      have hlt := calls_receive hd (hpoll 0)
      obtain ⟨n, d', hn, hd'⟩ := ih _ (hk ▸ hlt) ((poll 0).foldl call d) (fun n => poll (n + 1))
        (fun n => hpoll (n + 1)) rfl
      refine ⟨n + 1, d', by omega, ?_⟩
      rw [List.range_succ_eq_map, List.map_cons, pollLoop]
      simp only [List.isEmpty_iff, hnil, if_false, List.map_map]
      exact hd'

end YggDevice

end Yggstack.Netstack
