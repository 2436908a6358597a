import Yggstack.Http.Padding
import Yggstack.Resolver.Resolve

namespace Yggstack.Resolver

open Library Inet
open Http

def parseNameservers (nameservers : String) : List String :=
  (((nameservers.toList.splitOn ',').map trim).filter fun s => !s.isEmpty).map String.ofList

def NameResolver.new (nameserver : String) : NameResolver where
  nameservers := parseNameservers nameserver
  failover := if 1 < (parseNameservers nameserver).length then some .new else none
  paired h := by rw [if_pos h]; rfl
  cursor f hf := by
    split at hf
    · next h =>
      cases hf
      exact Nat.zero_lt_of_lt h
    · cases hf

lemma failover_new (nameserver : String) :
    (NameResolver.new nameserver).failover.isSome = true ↔
      1 < (parseNameservers nameserver).length := by
  unfold NameResolver.new
  simp only
  split
  · next hlt => exact ⟨fun _ => hlt, fun _ => rfl⟩
  · next hlt => exact ⟨fun hf => (by cases hf), fun hf => absurd hf hlt⟩

inductive Server where
  | socket (addr : SocketAddr)
  | host (ip : BitVec 128)

namespace Server

def text : Server → List Char
  | .socket addr => addr.display.toList
  | .host ip => (showIpv6 ip).toList

def addr : Server → SocketAddr
  | .socket addr => addr
  | .host ip => ⟨.v6 ip, 53⟩

end Server

structure Entry where
  before : List Char
  server : Option Server
  after : List Char

namespace Entry

variable (e : Entry)

def text : List Char := e.before ++ (e.server.map Server.text).getD [] ++ e.after

def Blank : Prop := ∀ c ∈ e.before ++ e.after, isWhitespace c = true

def listText (entries : List Entry) : String :=
  String.ofList ([','].intercalate (entries.map text))

end Entry

def Packet.target : Packet → SocketAddr
  | .udp target _ => target
  | .tcp target _ => target

section Targets

variable {query : List UInt8} {nsAddr : SocketAddr} {p : Packet}

lemma target_of_udp {trip : UdpTrip} (h : p ∈ (dnsLookupUdp query nsAddr trip).1) :
    p.target = nsAddr := by
  rw [dnsLookupUdp] at h
  split at h
  · cases h
  · split at h
    · cases h
    · rw [List.mem_singleton.mp h]
      rfl

lemma target_of_tcp {trip : TcpTrip} (h : p ∈ (dnsLookupTcp query nsAddr trip).1) :
    p.target = nsAddr := by
  rw [dnsLookupTcp] at h
  split at h
  · cases h
  · split at h
    · cases h
    · rw [List.mem_singleton.mp h]
      rfl

lemma target_of_udpExchange {trips : Trips} (h : p ∈ (udpExchange query nsAddr trips).1) :
    p.target = nsAddr := by
  rw [udpExchange] at h
  split at h
  · next sent resp hfirst =>
    have hsent : p ∈ (dnsLookupUdp query nsAddr trips.first).1 := by
      rw [hfirst]
      exact h
    exact target_of_udp hsent
  · next sent e hfirst =>
    rcases List.mem_append.mp h with h | h
    · have hsent : p ∈ (dnsLookupUdp query nsAddr trips.first).1 := by
        rw [hfirst]
        exact h
      exact target_of_udp hsent
    · exact target_of_udp h

lemma target_of_exchange {trips : Trips} (h : p ∈ (exchange query nsAddr trips).1) :
    p.target = nsAddr := by
  rw [exchange] at h
  cases hudp : udpExchange query nsAddr trips with
  | mk sent result =>
    have hsent (hp : p ∈ sent) : p.target = nsAddr := by
      have hmem : p ∈ (udpExchange query nsAddr trips).1 := by
        rw [hudp]
        exact hp
      exact target_of_udpExchange hmem
    simp only [hudp] at h
    cases result with
    | ok resp =>
      simp only at h
      split at h
      · exact (List.mem_append.mp h).elim hsent target_of_tcp
      · exact hsent h
    | error e => exact (List.mem_append.mp h).elim hsent target_of_tcp

lemma target_of_lookup {name nameserver : String} {trips : Trips}
    (haddr : nameserverAddr nameserver = .ok nsAddr)
    (h : p ∈ (dnsLookupIpv6 name nameserver trips).1) : p.target = nsAddr := by
  unfold dnsLookupIpv6 at h
  rw [haddr] at h
  exact target_of_exchange h

end Targets

section Texts

variable {c : Char} {entries : List Entry}

lemma addressChar_showIpv4 (ip : BitVec 32) : ∀ c ∈ (showIpv4 ip).toList, addressChar c := by
  have hread := readIpv4_showIpv4 ip (show Stops 10 [] by simp [Stops])
  obtain ⟨read, htext, hchars⟩ := consumes_ipv4 hread
  rw [List.append_cancel_right htext]
  exact hchars

lemma addressChar_port (port : UInt16) : ∀ c ∈ ':' :: portText port, addressChar c := by
  intro c hc
  rcases List.mem_cons.mp hc with rfl | hc
  · exact addressChar_colon
  · exact addressChar_of_digit (by decide) (digit_of_mem_portText hc).1

lemma Server.text_chars (sv : Server) (hc : c ∈ sv.text) : addressChar c ∨ c = '[' ∨ c = ']' := by
  cases sv with
  | socket addr =>
    rw [text, display_toList] at hc
    rcases List.mem_append.mp hc with hc | hc
    · cases hip : addr.ip with
      | v4 ip =>
        rw [hip] at hc
        exact .inl (addressChar_showIpv4 ip c hc)
      | v6 ip =>
        rw [hip] at hc
        rcases List.mem_cons.mp hc with rfl | hc
        · exact .inr (.inl rfl)
        · rcases List.mem_append.mp hc with hc | hc
          · exact .inl (addressChar_showIpv6 ip c hc)
          · exact .inr (.inr (List.mem_singleton.mp hc))
    · exact .inl (addressChar_port addr.port c hc)
  | host ip => exact .inl (addressChar_showIpv6 ip c hc)

lemma Server.not_whitespace (sv : Server) (hc : c ∈ sv.text) : isWhitespace c = false := by
  rcases sv.text_chars hc with hc | rfl | rfl
  · exact not_whitespace_of_addressChar hc
  · rfl
  · rfl

lemma Server.comma_not_mem (sv : Server) : ',' ∉ sv.text := by
  intro hc
  rcases sv.text_chars hc with hc | hc | hc
  · have hrange := range_of_addressChar hc
    revert hrange
    decide
  · cases hc
  · cases hc

lemma Server.text_ne_nil (sv : Server) : sv.text ≠ [] := by
  cases sv with
  | socket addr =>
    rw [text, display_toList]
    exact List.append_ne_nil_of_right_ne_nil _ (List.cons_ne_nil _ _)
  | host ip => exact showIpv6_ne_nil ip

lemma parseSocket_showIpv6 (ip : BitVec 128) : parseSocket (showIpv6 ip) = none := by
  have hv4 : readIpv4 (showIpv6 ip).toList = none := by
    have hread := readIpv4_showIpv6 ip []
    rwa [List.append_nil] at hread
  have hv6 : readGiven '[' (showIpv6 ip).toList = none := by
    cases htext : (showIpv6 ip).toList with
    | nil => rfl
    | cons c cs =>
      have hc : c ∈ (showIpv6 ip).toList := htext ▸ List.mem_cons_self
      exact if_neg (ne_of_addressChar (addressChar_showIpv6 ip c hc)).1
  rw [parseSocket, parseWith, readSocketV4, readSocketV6, hv4, hv6]
  rfl

lemma Server.nameserverAddr_text (sv : Server) :
    nameserverAddr (String.ofList sv.text) = .ok sv.addr := by
  cases sv with
  | socket addr =>
    rw [text, String.ofList_toList, nameserverAddr, parseSocket_display]
    rfl
  | host ip =>
    have hshown : "[" ++ showIpv6 ip ++ "]:53" = SocketAddr.display ⟨.v6 ip, 53⟩ := by
      rw [SocketAddr.display]
      simp only
      rw [String.append_assoc, String.append_assoc, String.append_assoc]
      rfl
    rw [text, String.ofList_toList, nameserverAddr, parseSocket_showIpv6, hshown,
      parseSocket_display]
    rfl

namespace Entry

variable {e : Entry}

lemma trim_text (h : e.Blank) : trim e.text = (e.server.map Server.text).getD [] := by
  obtain ⟨before, server, after⟩ := e
  have hbefore : ∀ c ∈ before, isWhitespace c = true := fun c hc => h c (List.mem_append_left _ hc)
  have hafter : ∀ c ∈ after, isWhitespace c = true := fun c hc => h c (List.mem_append_right _ hc)
  cases server with
  | some sv =>
    exact trimMatches_pad hbefore (fun c hc => sv.not_whitespace hc) hafter sv.text_ne_nil
  | none =>
    have hdrop : (before ++ [] ++ after).dropWhile isWhitespace = [] := by
      rw [List.append_nil, List.dropWhile_eq_nil_iff]
      exact h
    change ((before ++ [] ++ after).dropWhile isWhitespace).rdropWhile isWhitespace = []
    rw [hdrop]
    rfl

lemma comma_not_mem (h : e.Blank) : ',' ∉ e.text := by
  obtain ⟨before, server, after⟩ := e
  have hblank : ',' ∉ before ++ after := fun hc => absurd (h ',' hc) (by decide)
  rw [List.mem_append, not_or] at hblank
  simp only [text, List.mem_append, not_or]
  refine ⟨⟨hblank.1, ?_⟩, hblank.2⟩
  cases server with
  | none => exact List.not_mem_nil
  | some sv => exact sv.comma_not_mem

end Entry

lemma filter_server_texts (entries : List Entry) :
    ((entries.map fun e => (e.server.map Server.text).getD []).filter fun s => !s.isEmpty) =
      (entries.filterMap Entry.server).map Server.text := by
  induction entries with
  | nil => rfl
  | cons e entries ih =>
    cases hsv : e.server with
    | none => simpa [hsv] using ih
    | some sv =>
      have hne : (!sv.text.isEmpty) = true := by simp [sv.text_ne_nil]
      rw [List.map_cons, hsv, Option.map_some, Option.getD_some, List.filter_cons, if_pos hne, ih,
        List.filterMap_cons_some hsv, List.map_cons]

lemma parseNameservers_listText (h : ∀ e ∈ entries, e.Blank) :
    parseNameservers (Entry.listText entries) =
      (entries.filterMap Entry.server).map fun sv => String.ofList sv.text := by
  rcases List.eq_nil_or_concat entries with rfl | hne
  · rfl
  have hne : entries.map Entry.text ≠ [] := by
    obtain ⟨front, e, rfl⟩ := hne
    simp
  have hcomma : ∀ l ∈ entries.map Entry.text, ',' ∉ l := by
    intro l hl
    obtain ⟨e, he, rfl⟩ := List.mem_map.mp hl
    exact Entry.comma_not_mem (h e he)
  have htrim : (entries.map Entry.text).map trim =
      entries.map fun e => (e.server.map Server.text).getD [] := by
    rw [List.map_map]
    exact List.map_congr_left fun e he => Entry.trim_text (h e he)
  rw [parseNameservers, Entry.listText, String.toList_ofList,
    List.splitOn_intercalate _ hcomma hne, htrim, filter_server_texts, List.map_map]
  rfl

/-- The servers of a list, written with ports or not and set off by white space and stray commas,
are read back in order, there is a cursor when they are several, and a lookup on one of them sends
nothing anywhere else. -/
theorem nameserver_list_read_back (h : ∀ e ∈ entries, e.Blank) :
    let r := NameResolver.new (Entry.listText entries)
    let servers := entries.filterMap Entry.server
    r.nameservers.map nameserverAddr = servers.map (fun sv => .ok sv.addr) ∧
      (r.failover.isSome = true ↔ 1 < servers.length) ∧
      ∀ (i : ℕ) (sv : Server), servers[i]? = some sv → ∀ name trips,
        ∀ p ∈ (dnsLookupIpv6 name (r.nameservers.getD i "") trips).1, p.target = sv.addr := by
  intro r servers
  have hservers : r.nameservers = servers.map fun sv => String.ofList sv.text :=
    parseNameservers_listText h
  refine ⟨?_, ?_, ?_⟩
  · rw [hservers, List.map_map]
    exact List.map_congr_left fun sv _ => sv.nameserverAddr_text
  · have hlen : (parseNameservers (Entry.listText entries)).length = servers.length := by
      rw [parseNameservers_listText h, List.length_map]
    rw [← hlen]
    exact failover_new _
  · intro i sv hi name trips p hp
    have hname : r.nameservers.getD i "" = String.ofList sv.text := by
      rw [hservers, List.getD_eq_getElem?_getD, List.getElem?_map, hi]
      rfl
    rw [hname] at hp
    exact target_of_lookup sv.nameserverAddr_text hp

def twoEntries : List Entry :=
  [⟨[' '], some (.socket ⟨.v6 (0x308 <<< 112), 5353⟩), []⟩, ⟨[], none, [' ']⟩,
    ⟨[], some (.host (0x308 <<< 112 + 1)), ['\n']⟩]

theorem two_nameservers_read_back :
    (NameResolver.new (Entry.listText twoEntries)).nameservers.map nameserverAddr =
      [.ok ⟨.v6 (0x308 <<< 112), 5353⟩, .ok ⟨.v6 (0x308 <<< 112 + 1), 53⟩] :=
  (@nameserver_list_read_back twoEntries (by simp [twoEntries, Entry.Blank]; decide)).1

end Texts

end Yggstack.Resolver
