import Yggstack.Netstack.Objects

namespace Yggstack.Netstack

open Library

namespace World

variable {w w' : World} {a : Action} {h : ℕ} {since : ℤ}

def EndsWait (w : World) (h : ℕ) (since : ℤ) (i : CycleInput) : Prop :=
  closeGrace < elapsed i.reapNow since ∨
    ∃ t, w.net.sockets.find h = some (.tcp t) ∧ (i.effect.tcp h t).state = .closed

def Endures (w : World) (h : ℕ) (since : ℤ) (a : Action) : Prop :=
  ∀ i, a = .pollerCycle i → ¬w.EndsWait h since i

def Reaped (v : World) (actions : List Action) (w' : World) : Prop :=
  ∃ before i after u u', actions = before ++ .pollerCycle i :: after ∧
    Run (fun u a u' => Step u a u' ∧ u.Endures 3 0 a) v before u ∧
    (3, 0) ∈ u.net.closing ∧ Step u (.pollerCycle i) u' ∧ u.EndsWait 3 0 i ∧
    u'.net.sockets.find 3 = none ∧ Run Step u' after w'

end World

end Yggstack.Netstack
