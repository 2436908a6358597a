import Yggstack.Forward.Mapping
import Yggstack.Library.Sorting
import Yggstack.Library.Store

/-! The registry of listener statistics and its JSON form. The hash map gives its entries in any
order; the order of the objects comes from the comparison alone. -/

namespace Yggstack.Forward

open Library

def socksStatsKey : String := "socks"

def httpStatsKey : String := "http"

structure ListenerStats where
  key : String
  kind : String
  listen : String
  target : String
  active : ℤ
  total : ℕ
  rxBytes : ℕ
  txBytes : ℕ
  deriving DecidableEq

def statsKindOrder (kind : String) : ℕ :=
  match kind with
  | "socks" => 0
  | "http" => 1
  | "local-tcp" => 2
  | "local-udp" => 3
  | "remote-tcp" => 4
  | "remote-udp" => 5
  | _ => 6

abbrev ListenerStatsRegistry := Store String ListenerStats

namespace ListenerStatsRegistry

def entry (r : ListenerStatsRegistry) (key kind listen target : String) :
    ListenerStatsRegistry × ListenerStats :=
  match r.find key with
  | some s => (r, s)
  | none =>
    let s : ListenerStats :=
      { key, kind, listen, target, active := 0, total := 0, rxBytes := 0, txBytes := 0 }
    (r.insert key s, s)

def order : ListenerStats → ListenerStats → Ordering :=
  compareLex (compareOn fun s => statsKindOrder s.kind)
    (compareLex (compareOn ListenerStats.listen) (compareOn ListenerStats.target))

end ListenerStatsRegistry

structure Registration where
  key : String
  kind : String
  listen : String
  target : String

section Callers

variable (m : Mapping)

-- The proxies pass the address that their listener is bound to.
def socksRegistration (localAddr : String) : Registration := ⟨socksStatsKey, "socks", localAddr, ""⟩

def httpRegistration (localAddr : String) : Registration := ⟨httpStatsKey, "http", localAddr, ""⟩

def yggPort : String := "ygg:" ++ toString m.listen.port.toNat

def spawnLocalTcp : Registration :=
  ⟨localTcpKey m, "local-tcp", m.listen.display, m.target.display⟩

def spawnLocalUdp : Registration :=
  ⟨localUdpKey m, "local-udp", m.listen.display, m.target.display⟩

def spawnRemoteTcp : Registration := ⟨remoteTcpKey m, "remote-tcp", yggPort m, m.target.display⟩

def spawnRemoteUdp : Registration := ⟨remoteUdpKey m, "remote-udp", yggPort m, m.target.display⟩

end Callers

inductive Registers : Registration → Prop
  | socks (localAddr : String) : Registers (socksRegistration localAddr)
  | http (localAddr : String) : Registers (httpRegistration localAddr)
  | localTcp (m : Mapping) : Registers (spawnLocalTcp m)
  | localUdp (m : Mapping) : Registers (spawnLocalUdp m)
  | remoteTcp (m : Mapping) : Registers (spawnRemoteTcp m)
  | remoteUdp (m : Mapping) : Registers (spawnRemoteUdp m)

def keyFrom (order : ℕ) (listen target : String) : String :=
  let port := String.ofList (listen.toList.drop 4)
  match order with
  | 0 => socksStatsKey
  | 1 => httpStatsKey
  | 2 => "ltcp:" ++ listen ++ "->" ++ target
  | 3 => "ludp:" ++ listen ++ "->" ++ target
  | 4 => "rtcp:" ++ port ++ "->" ++ target
  | _ => "rudp:" ++ port ++ "->" ++ target

lemma port_of_yggPort (m : Mapping) :
    String.ofList ((yggPort m).toList.drop 4) = toString m.listen.port.toNat := by
  rw [yggPort, String.toList_append]
  exact String.ofList_toList

lemma Registers.key_eq {r : Registration} (h : Registers r) :
    r.key = keyFrom (statsKindOrder r.kind) r.listen r.target := by
  cases h with
  | socks => rfl
  | http => rfl
  | localTcp m => rfl
  | localUdp m => rfl
  | remoteTcp m =>
    simp only [spawnRemoteTcp, show statsKindOrder "remote-tcp" = 4 from rfl, keyFrom,
      port_of_yggPort]
    rfl
  | remoteUdp m =>
    simp only [spawnRemoteUdp, show statsKindOrder "remote-udp" = 5 from rfl, keyFrom,
      port_of_yggPort]
    rfl

inductive StatsChange where
  | entry (r : Registration)
  | count (key : String) (active : ℤ) (total rxBytes txBytes : ℕ)
  | remove (key : String)
  | clear

namespace ListenerStatsRegistry

def change (r : ListenerStatsRegistry) : StatsChange → ListenerStatsRegistry
  | .entry a => (r.entry a.key a.kind a.listen a.target).1
  | .count key active total rxBytes txBytes =>
    r.mapValues fun k s => if k = key then { s with active, total, rxBytes, txBytes } else s
  | .remove key => r.erase key
  | .clear => .empty

def Owned (r : ListenerStatsRegistry) : Prop :=
  ∀ k s, r.find k = some s →
    ∃ a, Registers a ∧ k = a.key ∧ s.kind = a.kind ∧ s.listen = a.listen ∧ s.target = a.target

lemma Owned.change {r : ListenerStatsRegistry} (h : r.Owned) {c : StatsChange}
    (hc : ∀ a, c = .entry a → Registers a) : (r.change c).Owned := by
  intro k s hs
  cases c with
  | entry a =>
    simp only [ListenerStatsRegistry.change, entry] at hs
    split at hs
    · exact h k s hs
    · obtain ⟨rfl, rfl⟩ | ⟨-, hs⟩ := Store.find_insert_cases hs
      · exact ⟨a, hc a rfl, rfl, rfl, rfl, rfl⟩
      · exact h k s hs
  | count key active total rxBytes txBytes =>
    rw [ListenerStatsRegistry.change, Store.find_mapValues, Option.map_eq_some_iff] at hs
    obtain ⟨s₀, hs₀, rfl⟩ := hs
    obtain ⟨a, ha, hk, hkind, hlisten, htarget⟩ := h k s₀ hs₀
    refine ⟨a, ha, hk, ?_⟩
    split
    · exact ⟨hkind, hlisten, htarget⟩
    · exact ⟨hkind, hlisten, htarget⟩
  | remove key =>
    rw [ListenerStatsRegistry.change, Store.find_erase] at hs
    split at hs
    · cases hs
    · exact h k s hs
  | clear => cases hs

instance : Std.TransCmp order :=
  inferInstanceAs (Std.TransCmp (compareLex (compareOn fun s => statsKindOrder s.kind)
    (compareLex (compareOn ListenerStats.listen) (compareOn ListenerStats.target))))

end ListenerStatsRegistry

end Yggstack.Forward
