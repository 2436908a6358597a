import Yggstack.Netstack.Access
import Yggstack.Netstack.Cycle
import Yggstack.Netstack.System

namespace Yggstack.Netstack

open Library

def Dial.held (dial : Dial) : Multiset (ℕ × Kind) := tag .tcp dial.handle?.toList

lemma Dial.held_eq {dial : Dial} {h : ℕ} (hh : dial.handle? = some h) :
    dial.held = tag .tcp [h] := by
  rw [Dial.held, hh]
  rfl

@[simp] lemma Dial.held_over_none (o : Outcome) : (Dial.over o none).held = 0 := rfl

def Dial.Awaits (dial : Dial) (h : ℕ) : Prop :=
  dial = .queued h .waiting ∨ ∃ o, dial = .over o (some h)

lemma Dial.Awaits.handle? {dial : Dial} {h : ℕ} (hd : dial.Awaits h) : dial.handle? = some h := by
  rcases hd with rfl | ⟨o, rfl⟩ <;> rfl

namespace World

noncomputable def held (w : World) : Multiset (ℕ × Kind) :=
  tag .tcp w.net.held
    + (w.dials.collect (fun _ => Dial.held) + tag .tcp w.streams + tag .udp w.udpSockets +
    tag .icmp (w.pingSockets.map Prod.fst))

structure Inv (w : World) : Prop where
  ledger : Ledger w.net.sockets.kindAt w.held
  pending : ∀ cmd ∈ w.net.pendingConnects, ∃ dial, w.dials.find cmd.dial = some dial ∧
    dial.Awaits cmd.handle
  nodup : (w.net.pendingConnects.map PendingConnect.dial).Nodup

variable {w w' : World} {d h : ℕ} {dial dial' : Dial}

namespace Inv

lemma of_dial (hi : Inv w) (hd : w.dials.find d = some dial) (hh : dial.handle? = some h) :
    w.net.sockets.IsTcp h := by
  refine SocketSet.isTcp_iff.mpr (hi.ledger.present (h, .tcp) ?_)
  have hm : (h, Kind.tcp) ∈ w.dials.collect (fun _ => Dial.held) :=
    Store.mem_collect.mpr ⟨d, dial, hd, by simp [Dial.held, hh]⟩
  simp [held, hm]

lemma of_pending (hi : Inv w) {cmd : PendingConnect} (hc : cmd ∈ w.net.pendingConnects) :
    w.net.sockets.IsTcp cmd.handle := by
  obtain ⟨dial, hd, ha⟩ := hi.pending cmd hc
  exact hi.of_dial hd ha.handle?

lemma of_stream (hi : Inv w) (hm : h ∈ w.streams) : w.net.sockets.kindAt h = some .tcp :=
  hi.ledger.present (h, .tcp) (by simp [held, hm])

lemma of_udp (hi : Inv w) (hm : h ∈ w.udpSockets) : w.net.sockets.kindAt h = some .udp :=
  hi.ledger.present (h, .udp) (by simp [held, hm])

lemma of_ping (hi : Inv w) (hm : h ∈ w.pingSockets.map Prod.fst) :
    w.net.sockets.kindAt h = some .icmp :=
  hi.ledger.present (h, .icmp) (by simp only [held, Multiset.mem_add, mem_tag, hm]; simp)

lemma pending_setDial (hi : Inv w) (hd : ∀ dial h, w.dials.find d = some dial → ¬dial.Awaits h)
    (dial' : Dial) : ∀ cmd ∈ w.net.pendingConnects, ∃ dial,
      (w.dials.insert d dial').find cmd.dial = some dial ∧ dial.Awaits cmd.handle := by
  intro cmd hc
  obtain ⟨dial, hf, ha⟩ := hi.pending cmd hc
  have hne : cmd.dial ≠ d := fun he => hd dial cmd.handle (he ▸ hf) ha
  exact ⟨dial, by rw [Store.find_insert_of_ne _ _ hne, hf], ha⟩

end Inv

end World

end Yggstack.Netstack
