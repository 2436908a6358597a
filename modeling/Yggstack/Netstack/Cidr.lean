import Yggstack.Library.InetExact
import Yggstack.Http.Head

namespace Yggstack.Netstack

open Library Library.Inet
open Http (trim)

inductive SetupPanic where
  | prefixTooLong
  | notUnicast (ip : IpAddr)
  | expect (message : String)
  deriving DecidableEq

structure Ipv4Cidr where
  address : BitVec 32
  prefixLen : UInt8
  prefix_le : prefixLen ≤ 32
  deriving DecidableEq

structure Ipv6Cidr where
  address : BitVec 128
  prefixLen : UInt8
  prefix_le : prefixLen ≤ 128
  deriving DecidableEq

def Ipv4Cidr.new (address : BitVec 32) (prefixLen : UInt8) : Except SetupPanic Ipv4Cidr :=
  if h : prefixLen ≤ 32 then .ok ⟨address, prefixLen, h⟩ else .error .prefixTooLong

def Ipv6Cidr.new (address : BitVec 128) (prefixLen : UInt8) : Except SetupPanic Ipv6Cidr :=
  if h : prefixLen ≤ 128 then .ok ⟨address, prefixLen, h⟩ else .error .prefixTooLong

inductive IpCidr where
  | ipv4 (cidr : Ipv4Cidr)
  | ipv6 (cidr : Ipv6Cidr)
  deriving DecidableEq

def IpCidr.address : IpCidr → IpAddr
  | .ipv4 cidr => .v4 cidr.address
  | .ipv6 cidr => .v6 cidr.address

def isIpv4 : IpAddr → Bool
  | .v4 _ => true
  | .v6 _ => false

-- What the network stack's own crate decides: the addresses an interface may have, and how many
-- addresses and routes there is room for.
structure Smoltcp where
  admits : IpAddr → Bool
  maxAddrs : ℕ
  maxRoutes : ℕ

structure Interface where
  ipAddrs : List IpCidr
  routes : List IpAddr
  deriving DecidableEq

namespace Interface

def new : Interface := { ipAddrs := [], routes := [] }

def ipv4Addrs (iface : Interface) : List IpCidr :=
  iface.ipAddrs.filter fun cidr => isIpv4 cidr.address

def pushIpAddr (smol : Smoltcp) (iface : Interface) (cidr : IpCidr) : Except SetupPanic Interface :=
  let addrs :=
    if iface.ipAddrs.length < smol.maxAddrs then iface.ipAddrs ++ [cidr] else iface.ipAddrs
  match addrs.find? fun cidr => !smol.admits cidr.address with
  | some bad => .error (.notUnicast bad.address)
  | none => .ok { iface with ipAddrs := addrs }

def addDefaultRoute (smol : Smoltcp) (iface : Interface) (gateway : IpAddr) : Option Interface :=
  let others := iface.routes.filter fun ip => isIpv4 ip ≠ isIpv4 gateway
  if others.length < smol.maxRoutes then some { iface with routes := others ++ [gateway] } else none

variable {smol : Smoltcp} {iface : Interface} {cidr : IpCidr} {gateway : IpAddr}

lemma pushIpAddr_ok (hroom : iface.ipAddrs.length < smol.maxAddrs)
    (h : ∀ c ∈ iface.ipAddrs ++ [cidr], smol.admits c.address = true) :
    iface.pushIpAddr smol cidr = .ok { iface with ipAddrs := iface.ipAddrs ++ [cidr] } := by
  have hnone : (iface.ipAddrs ++ [cidr]).find? (fun c => !smol.admits c.address) = none := by
    rw [List.find?_eq_none]
    intro c hc
    simp [h c hc]
  simp only [pushIpAddr, if_pos hroom, hnone]

lemma pushIpAddr_refused (hroom : iface.ipAddrs.length < smol.maxAddrs)
    (h : ∀ c ∈ iface.ipAddrs, smol.admits c.address = true)
    (hcidr : ¬smol.admits cidr.address = true) :
    iface.pushIpAddr smol cidr = .error (.notUnicast cidr.address) := by
  have hold : iface.ipAddrs.find? (fun c => !smol.admits c.address) = none := by
    rw [List.find?_eq_none]
    intro c hc
    simp [h c hc]
  have hnew : (iface.ipAddrs ++ [cidr]).find? (fun c => !smol.admits c.address) = some cidr := by
    simp [List.find?_append, hold, hcidr]
  simp only [pushIpAddr, if_pos hroom, hnew]

lemma addDefaultRoute_ok (hroom : iface.routes.length < smol.maxRoutes)
    (h : ∀ ip ∈ iface.routes, isIpv4 ip ≠ isIpv4 gateway) :
    iface.addDefaultRoute smol gateway =
      some { iface with routes := iface.routes ++ [gateway] } := by
  have hothers : iface.routes.filter (fun ip => isIpv4 ip ≠ isIpv4 gateway) = iface.routes := by
    rw [List.filter_eq_self]
    intro ip hip
    simpa using h ip hip
  simp only [addDefaultRoute, hothers, if_pos hroom]

end Interface

structure TunnelRoutingConfig where
  enable : Bool
  ipv4Address : String
  deriving DecidableEq

def parseU8 (cs : List Char) : Option UInt8 := (parseUnsigned 256 cs).map UInt8.ofNat

def parseIpv4Cidr (cidr : String) : Option (BitVec 32 × UInt8) := do
  let (addrStr, prefixStr) ← splitOnce '/' cidr.toList
  let addr ← parseIpv4 (trim addrStr)
  let prefixLen ← parseU8 (trim prefixStr)
  return (addr, prefixLen)

def assignedMessage (cidr : String) : String := "CKR: assigned IPv4 address " ++ cidr

def unparsedMessage (cidr : String) : String := "CKR: could not parse ipv4_address '" ++ cidr ++ "'"

inductive LogLine where
  | info (message : String)
  | warn (message : String)
  deriving DecidableEq

def assignCkr (smol : Smoltcp) (iface : Interface) (ckrConfig : Option TunnelRoutingConfig) :
    Except SetupPanic (Interface × List LogLine) :=
  match ckrConfig.filter fun c => c.enable && !c.ipv4Address.isEmpty with
  | none => .ok (iface, [])
  | some ckr =>
    match parseIpv4Cidr ckr.ipv4Address with
    | some (ip4, prefixLen) => do
      let iface ← iface.pushIpAddr smol (.ipv4 (← Ipv4Cidr.new ip4 prefixLen))
      let iface ← (iface.addDefaultRoute smol (.v4 ip4)).elim
        (.error (.expect "failed to add default IPv4 route")) .ok
      return (iface, [.info (assignedMessage ckr.ipv4Address)])
    | none => .ok (iface, [.warn (unparsedMessage ckr.ipv4Address)])

def newInterface (smol : Smoltcp) (ourAddr : BitVec 128) (ckrConfig : Option TunnelRoutingConfig) :
    Except SetupPanic (Interface × List LogLine) := do
  let iface ← Interface.new.pushIpAddr smol (.ipv6 (← Ipv6Cidr.new ourAddr 128))
  let iface ← (iface.addDefaultRoute smol (.v6 ourAddr)).elim
    (.error (.expect "failed to add default route")) .ok
  assignCkr smol iface ckrConfig

section Parsing

variable {cs : List Char} {cidr : String} {ip : BitVec 32} {p : UInt8} {n : ℕ}

lemma parseU8_eq_some_iff : parseU8 cs = some p ↔ Numeral cs p.toNat := by
  rw [parseU8, Option.map_eq_some_iff]
  constructor
  · rintro ⟨n, hn, rfl⟩
    obtain ⟨hnum, hlt⟩ := parseUnsigned_eq_some_iff.mp hn
    rwa [UInt8.toNat_ofNat_of_lt' hlt]
  · intro h
    exact ⟨p.toNat, parseUnsigned_eq_some_iff.mpr ⟨h, p.toNat_lt⟩, UInt8.ofNat_toNat⟩

def SpellsCidr (cidr : String) (ip : BitVec 32) (n : ℕ) : Prop :=
  ∃ before after, cidr.toList = before ++ '/' :: after ∧ '/' ∉ before ∧
    trim before = (showIpv4 ip).toList ∧ Numeral (trim after) n

lemma parseIpv4Cidr_eq_some_iff :
    parseIpv4Cidr cidr = some (ip, p) ↔ SpellsCidr cidr ip p.toNat := by
  simp only [parseIpv4Cidr, Option.bind_eq_bind, Option.bind_eq_some_iff, Option.pure_def,
    Option.some.injEq, Prod.mk.injEq, Prod.exists]
  constructor
  · rintro ⟨before, after, hsplit, ip, hip, p, hp, rfl, rfl⟩
    obtain ⟨hcidr, hbefore⟩ := splitOnce_eq_some_iff.mp hsplit
    exact ⟨before, after, hcidr, hbefore, parseIpv4_eq_some_iff.mp hip, parseU8_eq_some_iff.mp hp⟩
  · rintro ⟨before, after, hcidr, hbefore, hip, hp⟩
    exact ⟨before, after, splitOnce_eq_some_iff.mpr ⟨hcidr, hbefore⟩, ip,
      parseIpv4_eq_some_iff.mpr hip, p, parseU8_eq_some_iff.mpr hp, rfl, rfl⟩

lemma SpellsCidr.parse (h : SpellsCidr cidr ip n) (hn : n < 256) :
    parseIpv4Cidr cidr = some (ip, UInt8.ofNat n) := by
  apply parseIpv4Cidr_eq_some_iff.mpr
  rwa [UInt8.toNat_ofNat_of_lt' hn]

lemma not_spellsCidr_empty : ¬SpellsCidr "" ip n := by
  rintro ⟨before, after, hcidr, -⟩
  simp at hcidr

end Parsing

section Interfaces

variable {smol : Smoltcp} {ourAddr : BitVec 128} {cidr : String} {ip : BitVec 32} {p : UInt8}

structure Smoltcp.Serves (smol : Smoltcp) (ourAddr : BitVec 128) : Prop where
  addrs : 2 ≤ smol.maxAddrs
  routes : 2 ≤ smol.maxRoutes
  own : smol.admits (.v6 ourAddr) = true

def ownCidr (ourAddr : BitVec 128) : IpCidr := .ipv6 ⟨ourAddr, 128, by decide⟩

def ownInterface (ourAddr : BitVec 128) : Interface :=
  { ipAddrs := [ownCidr ourAddr], routes := [.v6 ourAddr] }

@[simp] lemma ownCidr_address (ourAddr : BitVec 128) :
    (ownCidr ourAddr).address = .v6 ourAddr := rfl

lemma newInterface_eq (h : smol.Serves ourAddr) (ckrConfig : Option TunnelRoutingConfig) :
    newInterface smol ourAddr ckrConfig = assignCkr smol (ownInterface ourAddr) ckrConfig := by
  have hcidr : Ipv6Cidr.new ourAddr 128 = .ok ⟨ourAddr, 128, by decide⟩ := rfl
  have haddr : Interface.new.pushIpAddr smol (.ipv6 ⟨ourAddr, 128, by decide⟩) =
      .ok { ipAddrs := [ownCidr ourAddr], routes := [] } := by
    apply Interface.pushIpAddr_ok
    · exact Nat.lt_of_lt_of_le Nat.zero_lt_two h.addrs
    · intro c hc
      rw [List.mem_singleton.mp hc]
      exact h.own
  have hroute : Interface.addDefaultRoute smol { ipAddrs := [ownCidr ourAddr], routes := [] }
      (.v6 ourAddr) = some (ownInterface ourAddr) := by
    apply Interface.addDefaultRoute_ok
    · exact Nat.lt_of_lt_of_le Nat.zero_lt_two h.routes
    · intro ip hip
      cases hip
  rw [newInterface]
  simp only [hcidr, haddr, hroute, Except.bind, Bind.bind, Option.elim_some]

lemma assignCkr_disabled (iface : Interface) (cidr : String) :
    assignCkr smol iface (some ⟨false, cidr⟩) = .ok (iface, []) := rfl

lemma assignCkr_empty (iface : Interface) (enable : Bool) :
    assignCkr smol iface (some ⟨enable, ""⟩) = .ok (iface, []) := by
  cases enable <;> rfl

lemma assignCkr_unparsed (iface : Interface) (hne : cidr ≠ "")
    (h : parseIpv4Cidr cidr = none) :
    assignCkr smol iface (some ⟨true, cidr⟩) = .ok (iface, [.warn (unparsedMessage cidr)]) := by
  simp [assignCkr, Option.filter, hne, h]

lemma assignCkr_parsed (h : smol.Serves ourAddr) (hparse : parseIpv4Cidr cidr = some (ip, p)) :
    assignCkr smol (ownInterface ourAddr) (some ⟨true, cidr⟩) =
      if hp : p ≤ 32 then
        if smol.admits (.v4 ip) = true then
          .ok ({ ipAddrs := [ownCidr ourAddr, .ipv4 ⟨ip, p, hp⟩], routes := [.v6 ourAddr, .v4 ip] },
            [.info (assignedMessage cidr)])
        else .error (.notUnicast (.v4 ip))
      else .error .prefixTooLong := by
  have hne : cidr ≠ "" := by
    rintro rfl
    exact not_spellsCidr_empty (parseIpv4Cidr_eq_some_iff.mp hparse)
  have hfilter : (some (⟨true, cidr⟩ : TunnelRoutingConfig)).filter
      (fun c => c.enable && !c.ipv4Address.isEmpty) = some ⟨true, cidr⟩ := by
    simp [Option.filter, hne]
  rw [assignCkr, hfilter]
  simp only [hparse]
  by_cases hp : p ≤ 32
  · have hcidr : Ipv4Cidr.new ip p = .ok ⟨ip, p, hp⟩ := dif_pos hp
    have hroom : (ownInterface ourAddr).ipAddrs.length < smol.maxAddrs := h.addrs
    by_cases hip : smol.admits (.v4 ip) = true
    · have haddr : (ownInterface ourAddr).pushIpAddr smol (.ipv4 ⟨ip, p, hp⟩) =
          .ok { ipAddrs := [ownCidr ourAddr, .ipv4 ⟨ip, p, hp⟩], routes := [.v6 ourAddr] } := by
        apply Interface.pushIpAddr_ok hroom
        simpa [ownInterface, IpCidr.address] using ⟨h.own, hip⟩
      have hroute : Interface.addDefaultRoute smol
          { ipAddrs := [ownCidr ourAddr, .ipv4 ⟨ip, p, hp⟩], routes := [.v6 ourAddr] } (.v4 ip) =
            some { ipAddrs := [ownCidr ourAddr, .ipv4 ⟨ip, p, hp⟩],
                   routes := [.v6 ourAddr, .v4 ip] } := by
        apply Interface.addDefaultRoute_ok
        · exact h.routes
        · simp [isIpv4]
      rw [dif_pos hp, if_pos hip]
      simp only [hcidr, haddr, hroute, Except.bind, Bind.bind, Option.elim_some]
      rfl
    · have haddr : (ownInterface ourAddr).pushIpAddr smol (.ipv4 ⟨ip, p, hp⟩) =
          .error (.notUnicast (.v4 ip)) := by
        apply Interface.pushIpAddr_refused hroom
        · simpa [ownInterface] using h.own
        · exact hip
      rw [dif_pos hp, if_neg hip]
      simp only [hcidr, haddr, Except.bind, Bind.bind]
  · have hcidr : Ipv4Cidr.new ip p = .error .prefixTooLong := dif_neg hp
    rw [dif_neg hp, hcidr]
    rfl

/-- A CKR configuration with this address is set up without a panic, the length of the prefix is at
most 32 whenever one is read, and a CIDR that is not read is warned of and not assigned. -/
structure SetUpSafely (smol : Smoltcp) (ourAddr : BitVec 128) (cidr : String) : Prop where
  runs : ∀ enable, ∃ r, newInterface smol ourAddr (some ⟨enable, cidr⟩) = .ok r
  prefix_le : ∀ ip p, parseIpv4Cidr cidr = some (ip, p) → p ≤ 32
  warned : parseIpv4Cidr cidr = none → ∃ iface log,
    newInterface smol ourAddr (some ⟨true, cidr⟩) = .ok (iface, log) ∧ iface.ipv4Addrs = [] ∧
      (cidr ≠ "" → log = [.warn (unparsedMessage cidr)])

lemma setUp_unparsed (h : smol.Serves ourAddr) (hparse : parseIpv4Cidr cidr = none) :
    ∃ log, newInterface smol ourAddr (some ⟨true, cidr⟩) = .ok (ownInterface ourAddr, log) ∧
      (cidr ≠ "" → log = [.warn (unparsedMessage cidr)]) := by
  rw [newInterface_eq h]
  by_cases hne : cidr = ""
  · subst hne
    exact ⟨[], assignCkr_empty _ true, fun h => absurd rfl h⟩
  · exact ⟨_, assignCkr_unparsed _ hne hparse, fun _ => rfl⟩

/-- Setting up goes wrong for a length from 33 to 255, which `u8` holds, and for an address that no
interface may have; a length of 256 or more is an error of the parser. -/
theorem set_up_safely_iff (h : smol.Serves ourAddr) (cidr : String) :
    SetUpSafely smol ourAddr cidr ↔
      ∀ ip n, SpellsCidr cidr ip n → n ≤ 32 ∧ smol.admits (.v4 ip) = true ∨ 256 ≤ n := by
  constructor
  · intro hsafe ip n hspells
    rcases Nat.lt_or_ge n 256 with hn | hn
    · have hparse := hspells.parse hn
      have hp := hsafe.prefix_le _ _ hparse
      have hle : n ≤ 32 := by
        have := UInt8.le_iff_toNat_le.mp hp
        rwa [UInt8.toNat_ofNat_of_lt' hn] at this
      refine .inl ⟨hle, ?_⟩
      by_contra hip
      obtain ⟨r, hr⟩ := hsafe.runs true
      rw [newInterface_eq h, assignCkr_parsed h hparse, dif_pos hp, if_neg hip] at hr
      cases hr
    · exact .inr hn
  · intro hcond
    have hread : ∀ ip p, parseIpv4Cidr cidr = some (ip, p) →
        p ≤ 32 ∧ smol.admits (.v4 ip) = true := by
      intro ip p hparse
      have hlt := p.toNat_lt
      rcases hcond ip p.toNat (parseIpv4Cidr_eq_some_iff.mp hparse) with ⟨hle, hip⟩ | hge
      · exact ⟨UInt8.le_iff_toNat_le.mpr hle, hip⟩
      · omega
    refine ⟨?_, fun ip p hparse => (hread ip p hparse).1, ?_⟩
    · intro enable
      cases enable with
      | false => exact ⟨_, (newInterface_eq h _).trans (assignCkr_disabled _ cidr)⟩
      | true =>
        cases hparse : parseIpv4Cidr cidr with
        | none =>
          obtain ⟨log, hlog, -⟩ := setUp_unparsed h hparse
          exact ⟨_, hlog⟩
        | some r =>
          obtain ⟨hp, hip⟩ := hread r.1 r.2 hparse
          rw [newInterface_eq h, assignCkr_parsed h hparse, dif_pos hp, if_pos hip]
          exact ⟨_, rfl⟩
    · intro hparse
      obtain ⟨log, hlog, hwarn⟩ := setUp_unparsed h hparse
      exact ⟨_, log, hlog, rfl, hwarn⟩

def anyUnicast : Smoltcp := { admits := fun _ => true, maxAddrs := 2, maxRoutes := 2 }

def nodeAddr : BitVec 128 := 0x02000000000000000000000000000001

theorem documented_cidr_set_up_safely : SetUpSafely anyUnicast nodeAddr "10.99.0.1/24" := by
  apply (set_up_safely_iff ⟨le_rfl, le_rfl, rfl⟩ "10.99.0.1/24").mpr
  intro ip n hspells
  rcases Nat.lt_or_ge n 256 with hn | hn
  · have hread : parseIpv4Cidr "10.99.0.1/24" = some (0x0a630001, 24) := by decide +kernel
    have hsome := (hspells.parse hn).symm.trans hread
    have hvalue : (UInt8.ofNat n).toNat = 24 :=
      congrArg (fun r => r.elim 0 fun r => r.2.toNat) hsome
    rw [UInt8.toNat_ofNat_of_lt' hn] at hvalue
    exact .inl ⟨by omega, rfl⟩
  · exact .inr hn

theorem prefix_of_33_panics :
    newInterface anyUnicast nodeAddr (some ⟨true, "10.0.0.1/33"⟩) = .error .prefixTooLong ∧
      ¬SetUpSafely anyUnicast nodeAddr "10.0.0.1/33" := by
  have hpanic : newInterface anyUnicast nodeAddr (some ⟨true, "10.0.0.1/33"⟩) =
      .error .prefixTooLong := by decide +kernel
  refine ⟨hpanic, fun hsafe => ?_⟩
  obtain ⟨r, hr⟩ := hsafe.runs true
  rw [hpanic] at hr
  cases hr

end Interfaces

end Yggstack.Netstack
