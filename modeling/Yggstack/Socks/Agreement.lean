import Yggstack.Http.Client
import Yggstack.Resolver.Keys
import Yggstack.Socks.Client

namespace Yggstack.Socks

open Library Inet Resolver

def firstDial (resolver : List Char → Except String (BitVec 128)) : Io Ended → Option SocketAddr
  | .ask (.dialTcp remote) _ => some remote
  | .ask (.resolve name) next => firstDial resolver (next (resolver name))
  | _ => none

def nameResolution (r : NameResolver) (around : Surroundings) (crates : Crates) (name : List Char) :
    Except String (BitVec 128) :=
  (r.resolve (String.ofList name) around crates).1

def DialAlike (resolver : List Char → Except String (BitVec 128)) (host : List Char)
    (port : UInt16) : Prop :=
  firstDial resolver (handleConnect (.domain host) port) =
    (Http.resolveRemote host port (resolver host)).toOption

variable {host : List Char} {port : UInt16}

lemma firstDial_resolve (resolver : List Char → Except String (BitVec 128)) (name : List Char)
    (next : Except String (BitVec 128) → Io Ended) :
    firstDial resolver (resolve name >>= next) = firstDial resolver (next (resolver name)) :=
  rfl

lemma firstDial_domain (resolver : List Char → Except String (BitVec 128)) (host : List Char)
    (port : UInt16) :
    firstDial resolver (handleConnect (.domain host) port) =
      (resolver host).toOption.map fun ip => ⟨.v6 ip, port⟩ := by
  rw [handleConnect, firstDial_resolve]
  cases resolver host with
  | ok ip => rfl
  | error e => rfl

lemma readIpv6_of_readIpv4 {cs rest : List Char} {ip : BitVec 32}
    (h : readIpv4 cs = some (ip, rest)) : readIpv6 cs = none := by
  have hgroups : readGroups 8 0 cs = ([ip.toNat / 65536, ip.toNat % 65536], true, rest) := by
    rw [readGroups, if_pos (by decide), readSeparated, if_pos rfl, h]
  rw [readIpv6, hgroups]
  rfl

lemma parseIpv6_of_ipv4 {ip : BitVec 32} (h : parseWith readIpv4 host = some ip) :
    parseWith readIpv6 host = none := by
  rw [parseWith] at h
  split at h
  · next found hread => rw [parseWith, readIpv6_of_readIpv4 hread]
  · cases h

lemma nameResolution_literal {ip : BitVec 128} (h : parseWith readIpv6 host = some ip)
    (r : NameResolver) (around : Surroundings) (crates : Crates) :
    nameResolution r around crates host = .ok ip := by
  have hparse : parseIpv6 (String.ofList host) = some ip := by
    rw [parseIpv6, String.toList_ofList, h]
  rw [nameResolution, NameResolver.resolve, hparse]

/-- Both proxies dial alike, whatever the resolver, except for a host that is an IPv4 literal. -/
theorem proxies_dial_alike_iff (r : NameResolver) (around : Surroundings) (crates : Crates)
    (host : List Char) (port : UInt16) :
    DialAlike (nameResolution r around crates) host port ↔ parseWith readIpv4 host = none := by
  rw [DialAlike, firstDial_domain, Http.resolveRemote]
  cases h6 : parseWith readIpv6 host with
  | some ip =>
    have h4 : parseWith readIpv4 host = none := by
      cases h4 : parseWith readIpv4 host with
      | none => rfl
      | some ip4 =>
        rw [parseIpv6_of_ipv4 h4] at h6
        cases h6
    rw [nameResolution_literal h6]
    exact iff_of_true rfl h4
  | none =>
    cases h4 : parseWith readIpv4 host with
    | some ip =>
      refine iff_of_false ?_ (by simp)
      cases nameResolution r around crates host with
      | ok ip6 => simp [Except.toOption]
      | error e => simp [Except.toOption]
    | none =>
      refine iff_of_true ?_ rfl
      cases nameResolution r around crates host with
      | ok ip6 => rfl
      | error e => rfl

theorem ipv4_literal_dialed_by_one :
    firstDial (nameResolution noServers silence plainCrates)
        (handleConnect (.domain "1.2.3.4".toList) 80) = none ∧
      Http.resolveRemote "1.2.3.4".toList 80
        (nameResolution noServers silence plainCrates "1.2.3.4".toList) =
          .ok ⟨.v4 0x01020304, 80⟩ ∧
      ¬DialAlike (nameResolution noServers silence plainCrates) "1.2.3.4".toList 80 := by
  have hsocks : firstDial (nameResolution noServers silence plainCrates)
      (handleConnect (.domain "1.2.3.4".toList) 80) = none := by
    rw [firstDial_domain]
    rfl
  have hhttp : Http.resolveRemote "1.2.3.4".toList 80
      (nameResolution noServers silence plainCrates "1.2.3.4".toList) =
        .ok ⟨.v4 0x01020304, 80⟩ := rfl
  refine ⟨hsocks, hhttp, ?_⟩
  rw [DialAlike, hsocks, hhttp]
  simp [Except.toOption]

end Yggstack.Socks
