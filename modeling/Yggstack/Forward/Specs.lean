import Yggstack.Forward.Mapping
import Yggstack.Library.InetText
import Yggstack.Library.Slices

namespace Yggstack.Forward

open Library Library.Inet

def hostText : IpAddr → String
  | .v4 ip => showIpv4 ip
  | .v6 ip => "[" ++ showIpv6 ip ++ "]"

def portString (port : UInt16) : String := toString port.toNat

def localSpec (localAddr : Option IpAddr) (localPort : UInt16) (remoteAddr : BitVec 128)
    (remotePort : UInt16) : String :=
  (match localAddr with
    | some a => hostText a ++ ":" ++ portString localPort
    | none => portString localPort) ++
    ":[" ++ showIpv6 remoteAddr ++ "]:" ++ portString remotePort

def remoteSpec (remotePort : UInt16) (localAddr : Option IpAddr) (localPort : UInt16) : String :=
  portString remotePort ++ ":" ++
    match localAddr with
    | some a => hostText a ++ ":" ++ portString localPort
    | none => portString localPort

variable {c : Char} {xs ys : List Char}

lemma rsplitOnce_append (xs : List Char) (h : c ∉ ys) :
    rsplitOnce c (xs ++ c :: ys) = some (xs, ys) := by
  have hne : ∀ d ∈ ys.reverse, (decide (d ≠ c)) = true := by
    intro d hd
    simpa using fun hdc : d = c => h (by simpa [hdc] using hd)
  have hafter : (xs ++ c :: ys).reverse.takeWhile (· ≠ c) = ys.reverse := by
    rw [List.reverse_append, List.reverse_cons, List.append_assoc,
      List.takeWhile_append_of_pos hne]
    simp
  have hlen : (xs ++ c :: ys).length - ys.reverse.length - 1 = xs.length := by
    simp only [List.length_append, List.length_cons, List.length_reverse]
    omega
  rw [rsplitOnce, if_pos (by simp)]
  simp only [hafter, hlen, List.take_left, List.reverse_reverse]

lemma rsplitOnce_eq_none (h : c ∉ xs) : rsplitOnce c xs = none := if_neg h

lemma colon_not_mem_portText (port : UInt16) : ':' ∉ portText port :=
  fun h => (digit_of_mem_portText h).2.2.1 rfl

lemma getLast?_portText (xs : List Char) (port : UInt16) :
    (xs ++ portText port).getLast? ≠ some ':' := by
  intro h
  rw [List.getLast?_append_of_ne_nil _ (portText_ne_nil port)] at h
  exact colon_not_mem_portText port (List.mem_of_getLast? h)

lemma trimEndMatches_colon (h : xs.getLast? ≠ some ':') :
    trimEndMatches (· = ':') (xs ++ [':']) = xs := by
  have hhead : xs.reverse.dropWhile (· = ':') = xs.reverse := by
    cases hx : xs.reverse with
    | nil => rfl
    | cons d ds =>
      have hd : d ≠ ':' := by
        rintro rfl
        exact h (by rw [← List.head?_reverse, hx]; rfl)
      simp [hd]
  simp [trimEndMatches, hhead]

lemma parsePort_portText (port : UInt16) : parsePort (portText port) = some port :=
  parseU16_portText port

lemma parseHostPort_display (addr : SocketAddr) :
    parseHostPort addr.display.toList = some (addr.ip.display, addr.port) := by
  rw [parseHostPort, String.ofList_toList, parseSocket_display]

lemma parseHostPort_portText (port : UInt16) : parseHostPort (portText port) = none := by
  rw [parseHostPort, parseSocket_portText]
  simp [rsplitOnce_eq_none (colon_not_mem_portText port)]

lemma hostText_port (a : IpAddr) (port : UInt16) :
    hostText a ++ ":" ++ portString port = (⟨a, port⟩ : SocketAddr).display := by
  cases a with
  | v4 ip => rfl
  | v6 ip =>
    simp only [hostText, portString, SocketAddr.display, String.append_assoc]
    rfl

lemma display_ne_empty (a : IpAddr) : a.display ≠ "" := by
  intro h
  have hparse := parseIp_display a
  rw [h, show parseIp "" = none by decide] at hparse
  cases hparse

lemma colon_mem_showIpv6 (ip : BitVec 128) : ':' ∈ (showIpv6 ip).toList := by
  obtain ⟨first, cs, htext, -⟩ := showIpv6_start ip
  rw [htext]
  simp

def localSide (localAddr : Option IpAddr) (localPort : UInt16) : List Char :=
  match localAddr with
  | some a => (⟨a, localPort⟩ : SocketAddr).display.toList
  | none => portText localPort

lemma getLast?_localSide (localAddr : Option IpAddr) (localPort : UInt16) :
    (localSide localAddr localPort).getLast? ≠ some ':' := by
  cases localAddr with
  | none => exact getLast?_portText [] localPort
  | some a =>
    rw [localSide, display_toList, List.append_cons]
    exact getLast?_portText _ localPort

lemma localSpec_toList (localAddr : Option IpAddr) (localPort : UInt16) (remoteAddr : BitVec 128)
    (remotePort : UInt16) :
    (localSpec localAddr localPort remoteAddr remotePort).toList =
      (((localSide localAddr localPort ++ [':']) ++ '[' :: ((showIpv6 remoteAddr).toList ++ [']']))) ++
        ':' :: portText remotePort := by
  cases localAddr with
  | none => simp [localSpec, localSide, portString, portText, String.toList_append]
  | some a =>
    simp only [localSpec, hostText_port, localSide]
    simp [portString, portText, String.toList_append]

lemma splitRemoteAddr_bracket (value : String) (h : xs.getLast? ≠ some ':') (ip : BitVec 128) :
    splitRemoteAddr value ((xs ++ [':']) ++ '[' :: ((showIpv6 ip).toList ++ [']'])) =
      .ok ((showIpv6 ip).toList, xs) := by
  have hlast : ((xs ++ [':']) ++ '[' :: ((showIpv6 ip).toList ++ [']'])).getLast? = some ']' := by
    rw [← List.cons_append, ← List.append_assoc]
    exact List.getLast?_concat
  have hbracket : '[' ∉ (showIpv6 ip).toList ++ [']'] := by
    simp only [List.mem_append, List.mem_singleton]
    rintro (hm | hm)
    · exact ne_bracket_of_mem_showIpv6 hm rfl
    · cases hm
  rw [splitRemoteAddr, if_pos hlast, rsplitOnce_append _ hbracket]
  simp [except, trimEndMatches_colon h]

lemma parseMapping_localSpec (localAddr : Option IpAddr) (localPort : UInt16)
    (remoteAddr : BitVec 128) (remotePort : UInt16) :
    parseMapping (localSpec localAddr localPort remoteAddr remotePort) =
      .ok (localAddr.map IpAddr.display, localPort, showIpv6 remoteAddr, remotePort) := by
  have hcolon := colon_mem_showIpv6 remoteAddr
  have hne : (showIpv6 remoteAddr).toList ≠ [] := List.ne_nil_of_mem hcolon
  rw [parseMapping, localSpec_toList, rsplitOnce_append _ (colon_not_mem_portText remotePort)]
  simp only [except, ok_bind, parsePort_portText, splitRemoteAddr_bracket _ (getLast?_localSide _ _),
    if_neg hne, hcolon, not_true_eq_false, if_false, String.ofList_toList]
  cases localAddr with
  | none =>
    simp [localSide, portText_ne_nil, parseHostPort_portText, parsePort_portText]
  | some a =>
    have hside : localSide (some a) localPort ≠ [] := by
      simp [localSide, display_toList]
    rw [if_neg hside]
    simp [localSide, parseHostPort_display, display_ne_empty]

lemma takeWhile_portText (port : UInt16) (cs : List Char) :
    (portText port ++ ':' :: cs).takeWhile (· ≠ ':') = portText port := by
  rw [List.takeWhile_append_of_pos]
  · simp
  · intro c hc
    simpa using (digit_of_mem_portText hc).2.2.1

lemma splitParts_port (port : UInt16) : splitParts (portText port) = [portText port] := by
  simp [splitParts, colon_not_mem_portText]

lemma drop_portText (port : UInt16) (cs : List Char) :
    (portText port ++ ':' :: cs).drop ((portText port).length + 1) = cs := by
  rw [List.drop_length_add_append]
  rfl

lemma splitParts_two (port : UInt16) (h : ':' ∉ xs) :
    splitParts (portText port ++ ':' :: xs) = [portText port, xs] := by
  have hmem : ':' ∈ portText port ++ ':' :: xs := by simp
  simp only [splitParts, if_pos hmem, takeWhile_portText, drop_portText, if_neg h]

lemma splitParts_three (port : UInt16) (h : ':' ∈ xs) :
    ∃ b cs, splitParts (portText port ++ ':' :: xs) = [portText port, b, cs] := by
  have hmem : ':' ∈ portText port ++ ':' :: xs := by simp
  simp only [splitParts, if_pos hmem, takeWhile_portText, drop_portText, if_pos h]
  exact ⟨_, _, rfl⟩

lemma parseRemoteMapping_port (port : UInt16) :
    parseRemoteMapping (portString port) = .ok (port, none, port) := by
  rw [parseRemoteMapping, portString, toString_port, splitParts_port]
  simp [parsePort_portText, except]

lemma parseRemoteMapping_remoteSpec (remotePort : UInt16) (localAddr : Option IpAddr)
    (localPort : UInt16) :
    parseRemoteMapping (remoteSpec remotePort localAddr localPort) =
      .ok (remotePort, localAddr.map IpAddr.display, localPort) := by
  have hlist : (remoteSpec remotePort localAddr localPort).toList =
      portText remotePort ++ ':' :: localSide localAddr localPort := by
    cases localAddr with
    | none => simp [remoteSpec, localSide, portString, portText, String.toList_append]
    | some a =>
      simp only [remoteSpec, hostText_port, localSide]
      simp [portString, portText, String.toList_append]
  rw [parseRemoteMapping, hlist]
  cases localAddr with
  | none =>
    rw [localSide, splitParts_two _ (colon_not_mem_portText localPort)]
    simp [parsePort_portText, except]
  | some a =>
    have hcolon : ':' ∈ localSide (some a) localPort := by
      simp [localSide, display_toList]
    obtain ⟨b, cs, hparts⟩ := splitParts_three remotePort hcolon
    rw [hparts]
    simp only [drop_portText, parsePort_portText, except, ok_bind, localSide,
      parseHostPort_display]
    rfl

lemma hostAddr_display (localAddr : Option IpAddr) (default : IpAddr) :
    hostAddr (localAddr.map IpAddr.display) default = .ok (localAddr.getD default) := by
  cases localAddr with
  | none => rfl
  | some a => simp [hostAddr, parseIp_display, except]

/-- The specifications of the module's own documentation: for TCP and UDP, with and without a local
address, in front of any IPv6 target and for all ports. -/
theorem documented_specs_parsed (localAddr : Option IpAddr) (localPort remotePort : UInt16)
    (remoteAddr : BitVec 128) :
    (∀ kind ∈ [Kind.localTcp, Kind.localUdp],
      kind.parse (localSpec localAddr localPort remoteAddr remotePort) =
        .ok ⟨⟨localAddr.getD unspecified, localPort⟩, ⟨.v6 remoteAddr, remotePort⟩⟩) ∧
    ∀ kind ∈ [Kind.remoteTcp, Kind.remoteUdp],
      kind.parse (portString remotePort) =
        .ok ⟨⟨unspecified, remotePort⟩, ⟨localhost, remotePort⟩⟩ ∧
      kind.parse (remoteSpec remotePort localAddr localPort) =
        .ok ⟨⟨unspecified, remotePort⟩, ⟨localAddr.getD localhost, localPort⟩⟩ := by
  have hlocal : Mapping.parseLocal (localSpec localAddr localPort remoteAddr remotePort) =
      .ok ⟨⟨localAddr.getD unspecified, localPort⟩, ⟨.v6 remoteAddr, remotePort⟩⟩ := by
    simp [Mapping.parseLocal, parseMapping_localSpec, hostAddr_display, parseIpv6_showIpv6, except]
  have hport : Mapping.parseRemote (portString remotePort) =
      .ok ⟨⟨unspecified, remotePort⟩, ⟨localhost, remotePort⟩⟩ := by
    simp [Mapping.parseRemote, parseRemoteMapping_port, hostAddr]
  have hremote : Mapping.parseRemote (remoteSpec remotePort localAddr localPort) =
      .ok ⟨⟨unspecified, remotePort⟩, ⟨localAddr.getD localhost, localPort⟩⟩ := by
    simp [Mapping.parseRemote, parseRemoteMapping_remoteSpec, hostAddr_display]
  constructor
  · intro kind hk
    simp only [List.mem_cons, List.not_mem_nil, or_false] at hk
    rcases hk with rfl | rfl <;> exact hlocal
  · intro kind hk
    simp only [List.mem_cons, List.not_mem_nil, or_false] at hk
    rcases hk with rfl | rfl <;> exact ⟨hport, hremote⟩

end Yggstack.Forward
