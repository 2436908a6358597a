import Yggstack.Library.Slices
import Yggstack.Socks.Client

namespace Yggstack.Socks

open Library Inet

def parseUdpHeader (buf : List UInt8) (atyp : UInt8) : Except Panic (Option (SocketAddr × ℕ)) :=
  if atyp = atypIpv4 then
    if buf.length < 10 then return none
    else do
      let ip := BitVec.ofNat 32
        (bigEndian [← index buf 4, ← index buf 5, ← index buf 6, ← index buf 7])
      let port := UInt16.ofNat (bigEndian [← index buf 8, ← index buf 9])
      return some (⟨.v4 ip, port⟩, 10)
  else if atyp = atypIpv6 then
    if buf.length < 22 then return none
    else do
      let octets ← copyFromSlice (List.replicate 16 0) 0 16 (← slice buf 4 20)
      let ip := BitVec.ofNat 128 (bigEndian octets)
      let port := UInt16.ofNat (bigEndian [← index buf 20, ← index buf 21])
      return some (⟨.v6 ip, port⟩, 22)
  else if atyp = atypDomain then
    if buf.length < 5 then return none
    else do
      let dlen := (← index buf 4).toNat
      if buf.length < 5 + dlen + 2 then return none else return none
  else return none

def buildUdpHeader (src : SocketAddr) (payload : List UInt8) : List UInt8 :=
  [0x00, 0x00, 0x00] ++ addrOctets src ++ payload

def relayDatagram (buf : List UInt8) : Except Panic (Option (SocketAddr × List UInt8)) :=
  if buf.length < 4 then return none
  else do
    let frag ← index buf 2
    if frag ≠ 0 then return none
    else
      let atyp ← index buf 3
      match ← parseUdpHeader buf atyp with
      | none => return none
      | some (dest, hdrLen) =>
        let payload ← slice buf hdrLen buf.length
        return some (dest, payload)

variable {front octets port rest buf : List UInt8} {atyp : UInt8} {addr : SocketAddr} {h : ℕ}

@[simp] lemma length_portOctets (p : UInt16) : (portOctets p).length = 2 := length_toBigEndian 2 _

lemma length_addrOctets_v4 (ip : BitVec 32) (p : UInt16) :
    (addrOctets ⟨.v4 ip, p⟩).length = 7 := by simp [addrOctets]

lemma length_addrOctets_v6 (ip : BitVec 128) (p : UInt16) :
    (addrOctets ⟨.v6 ip, p⟩).length = 19 := by simp [addrOctets]

lemma ofNat_bigEndian_portOctets (p : UInt16) : UInt16.ofNat (bigEndian (portOctets p)) = p := by
  rw [portOctets, bigEndian_toBigEndian 2 p.toNat_lt, UInt16.ofNat_toNat]

lemma portOctets_bigEndian (hport : port.length = 2) :
    portOctets (.ofNat (bigEndian port)) = port := by
  have hlt := bigEndian_lt port
  rw [hport] at hlt
  rw [portOctets, UInt16.toNat_ofNat', Nat.mod_eq_of_lt (by omega), ← hport, toBigEndian_bigEndian]

lemma parseUdpHeader_ipv4 (hfront : front.length = 3) (hip : octets.length = 4)
    (hport : port.length = 2) (rest : List UInt8) :
    parseUdpHeader (front ++ atypIpv4 :: (octets ++ (port ++ rest))) atypIpv4 =
      .ok (some (⟨.v4 (.ofNat 32 (bigEndian octets)), .ofNat (bigEndian port)⟩, 10)) := by
  obtain ⟨a, b, c, rfl⟩ := List.length_eq_three.mp hfront
  obtain ⟨p, q, rfl⟩ := List.length_eq_two.mp hport
  match octets, hip with
  | [w, x, y, z], _ => rfl

lemma parseUdpHeader_ipv6 (hfront : front.length = 3) (hip : octets.length = 16)
    (hport : port.length = 2) (rest : List UInt8) :
    parseUdpHeader (front ++ atypIpv6 :: (octets ++ (port ++ rest))) atypIpv6 =
      .ok (some (⟨.v6 (.ofNat 128 (bigEndian octets)), .ofNat (bigEndian port)⟩, 22)) := by
  have hlead : (front ++ [atypIpv6]).length = 4 := by simp [hfront]
  have hall : front ++ atypIpv6 :: (octets ++ (port ++ rest)) =
      front ++ [atypIpv6] ++ (octets ++ (port ++ rest)) := by simp
  have hlen : ¬(front ++ atypIpv6 :: (octets ++ (port ++ rest))).length < 22 := by
    simp only [List.length_append, List.length_cons]
    omega
  have hslice : slice (front ++ atypIpv6 :: (octets ++ (port ++ rest))) 4 20 = .ok octets := by
    have hcut := slice_append (front ++ [atypIpv6]) octets (port ++ rest)
    rwa [hlead, hip, ← hall] at hcut
  have hcopy : copyFromSlice (List.replicate 16 0) 0 16 octets = .ok octets := by
    rw [copyFromSlice, if_pos (by decide), if_pos hip, overwrite, hip]
    simp
  have hdigit (i : ℕ) : index (front ++ atypIpv6 :: (octets ++ (port ++ rest))) (20 + i) =
      index (port ++ rest) i := by
    have hskip := index_append (front ++ [atypIpv6] ++ octets) (port ++ rest) i
    rw [List.length_append, hlead, hip] at hskip
    rwa [hall, ← List.append_assoc]
  obtain ⟨p, q, rfl⟩ := List.length_eq_two.mp hport
  rw [parseUdpHeader, if_neg (by decide), if_pos rfl, if_neg hlen, hslice, ok_bind, hcopy, ok_bind,
    hdigit 0, hdigit 1]
  rfl

lemma exists_fields (n : ℕ) (hlen : 6 + n ≤ buf.length) (htype : buf[3]? = some atyp) :
    ∃ front octets port rest, buf = front ++ atyp :: (octets ++ (port ++ rest)) ∧
      front.length = 3 ∧ octets.length = n ∧ port.length = 2 := by
  refine ⟨buf.take 3, (buf.drop 4).take n, (buf.drop (4 + n)).take 2, buf.drop (4 + n + 2), ?_,
    List.length_take_of_le (by omega), ?_, ?_⟩
  · have hthird : buf.drop 3 = atyp :: buf.drop 4 := by
      rw [List.drop_eq_getElem?_toList_append, htype]
      rfl
    have hports : (buf.drop (4 + n)).take 2 ++ buf.drop (4 + n + 2) = buf.drop (4 + n) := by
      rw [← List.drop_drop (j := 4 + n), List.take_append_drop]
    have hfields : (buf.drop 4).take n ++ buf.drop (4 + n) = buf.drop 4 := by
      rw [← List.drop_drop, List.take_append_drop]
    rw [hports, hfields, ← hthird, List.take_append_drop]
  · rw [List.length_take, List.length_drop]
    omega
  · rw [List.length_take, List.length_drop]
    omega

lemma parseUdpHeader_cases (htype : buf[3]? = some atyp) :
    parseUdpHeader buf atyp = .ok none ∨ ∃ front addr rest, front.length = 3 ∧
      buf = front ++ (addrOctets addr ++ rest) ∧
      parseUdpHeader buf atyp = .ok (some (addr, 3 + (addrOctets addr).length)) := by
  by_cases hipv4 : atyp = atypIpv4
  · subst hipv4
    by_cases hlen : buf.length < 10
    · left
      rw [parseUdpHeader, if_pos rfl, if_pos hlen]
      rfl
    · right
      obtain ⟨front, octets, port, rest, rfl, hfront, hip, hport⟩ :=
        exists_fields 4 (by omega) htype
      refine ⟨front, ⟨.v4 (.ofNat 32 (bigEndian octets)), .ofNat (bigEndian port)⟩, rest, hfront, ?_,
        ?_⟩
      · simp only [addrOctets, ipv4Octets_bigEndian hip, portOctets_bigEndian hport,
          List.cons_append, List.append_assoc]
      · rw [parseUdpHeader_ipv4 hfront hip hport, length_addrOctets_v4]
  by_cases hipv6 : atyp = atypIpv6
  · subst hipv6
    by_cases hlen : buf.length < 22
    · left
      rw [parseUdpHeader, if_neg hipv4, if_pos rfl, if_pos hlen]
      rfl
    · right
      obtain ⟨front, octets, port, rest, rfl, hfront, hip, hport⟩ :=
        exists_fields 16 (by omega) htype
      refine ⟨front, ⟨.v6 (.ofNat 128 (bigEndian octets)), .ofNat (bigEndian port)⟩, rest, hfront,
        ?_, ?_⟩
      · simp only [addrOctets, ipv6Octets_bigEndian hip, portOctets_bigEndian hport,
          List.cons_append, List.append_assoc]
      · rw [parseUdpHeader_ipv6 hfront hip hport, length_addrOctets_v6]
  left
  rw [parseUdpHeader, if_neg hipv4, if_neg hipv6]
  split
  · split
    · rfl
    · next hlen =>
      rw [index_getD 0 (by omega), ok_bind]
      exact ite_self _
  · rfl

lemma parseUdpHeader_addrOctets (hfront : front.length = 3) (addr : SocketAddr)
    (rest : List UInt8) :
    ∃ atyp, (front ++ (addrOctets addr ++ rest))[3]? = some atyp ∧
      parseUdpHeader (front ++ (addrOctets addr ++ rest)) atyp =
        .ok (some (addr, 3 + (addrOctets addr).length)) := by
  obtain ⟨ip, port⟩ := addr
  cases ip with
  | v4 ip =>
    refine ⟨atypIpv4, ?_, ?_⟩
    · rw [List.getElem?_append_right (by omega), hfront]
      rfl
    · have hparse := parseUdpHeader_ipv4 hfront (length_ipv4Octets ip)
        (length_toBigEndian 2 port.toNat) rest
      rw [ofNat_bigEndian_ipv4Octets, ← portOctets, ofNat_bigEndian_portOctets] at hparse
      simpa [addrOctets] using hparse
  | v6 ip =>
    refine ⟨atypIpv6, ?_, ?_⟩
    · rw [List.getElem?_append_right (by omega), hfront]
      rfl
    · have hparse := parseUdpHeader_ipv6 hfront (length_ipv6Octets ip)
        (length_toBigEndian 2 port.toNat) rest
      rw [ofNat_bigEndian_ipv6Octets, ← portOctets, ofNat_bigEndian_portOctets] at hparse
      simpa [addrOctets] using hparse

lemma drop_header (hfront : front.length = 3) (addr : SocketAddr) (rest : List UInt8) :
    (front ++ (addrOctets addr ++ rest)).drop (3 + (addrOctets addr).length) = rest := by
  rw [← List.append_assoc]
  apply List.drop_left'
  rw [List.length_append, hfront]

lemma buildUdpHeader_eq (addr : SocketAddr) (payload : List UInt8) :
    buildUdpHeader addr payload = [0x00, 0x00, 0x00] ++ (addrOctets addr ++ payload) :=
  List.append_assoc _ _ _

lemma relayDatagram_cases (buf : List UInt8) :
    relayDatagram buf = .ok none ∨ ∃ front addr payload, front.length = 3 ∧
      buf = front ++ (addrOctets addr ++ payload) ∧
      relayDatagram buf = .ok (some (addr, payload)) := by
  by_cases hlen : buf.length < 4
  · exact .inl (if_pos hlen)
  have htype : buf[3]? = some (buf.getD 3 0) := by
    rw [List.getD_eq_getElem?_getD, List.getElem?_eq_getElem (by omega), Option.getD_some]
  rw [relayDatagram, if_neg hlen, index_getD 0 (by omega), ok_bind, index_getD 0 (by omega)]
  by_cases hfrag : buf.getD 2 0 = 0
  · obtain hparse | ⟨front, addr, payload, hfront, hbuf, hparse⟩ := parseUdpHeader_cases htype
    · left
      rw [if_neg (not_not.mpr hfrag), ok_bind, hparse]
      rfl
    · refine .inr ⟨front, addr, payload, hfront, hbuf, ?_⟩
      have hroom : 3 + (addrOctets addr).length ≤ buf.length := by
        rw [hbuf, List.length_append, List.length_append]
        omega
      have hslice : slice buf (3 + (addrOctets addr).length) buf.length = .ok payload := by
        rw [slice_ok hroom le_rfl, List.take_length, hbuf, drop_header hfront]
      rw [if_neg (not_not.mpr hfrag), ok_bind, hparse]
      simp only [ok_bind, hslice, pure_eq_ok]
  · left
    rw [if_pos hfrag]
    rfl

/-- Headers are read as they are written, and what is read is written back. -/
theorem udp_header_round_trip (addr : SocketAddr) (payload : List UInt8) :
    (∃ atyp h, (buildUdpHeader addr payload)[3]? = some atyp ∧
      parseUdpHeader (buildUdpHeader addr payload) atyp = .ok (some (addr, h)) ∧
      (buildUdpHeader addr payload).drop h = payload) ∧
    (∀ d atyp, d[3]? = some atyp → ∃ result, parseUdpHeader d atyp = .ok result ∧
      ∀ a h, result = some (a, h) → h ≤ d.length ∧
        (d.take 3 = [0, 0, 0] → buildUdpHeader a (d.drop h) = d)) ∧
    ∀ d, ∃ result, relayDatagram d = .ok result := by
  refine ⟨?_, ?_, ?_⟩
  · have hzeros : ([0x00, 0x00, 0x00] : List UInt8).length = 3 := rfl
    rw [buildUdpHeader_eq]
    obtain ⟨atyp, htype, hparse⟩ := parseUdpHeader_addrOctets hzeros addr payload
    exact ⟨atyp, _, htype, hparse, drop_header hzeros addr payload⟩
  · intro d atyp htype
    obtain hparse | ⟨front, addr, rest, hfront, rfl, hparse⟩ := parseUdpHeader_cases htype
    · exact ⟨none, hparse, fun _ _ h => by cases h⟩
    · refine ⟨_, hparse, ?_⟩
      rintro a h ⟨⟩
      constructor
      · rw [List.length_append, List.length_append]
        omega
      · intro hzero
        rw [← hfront, List.take_left] at hzero
        rw [buildUdpHeader_eq, drop_header hfront, hzero]
  · intro d
    obtain h | ⟨_, addr, payload, -, -, h⟩ := relayDatagram_cases d
    · exact ⟨none, h⟩
    · exact ⟨some (addr, payload), h⟩

end Yggstack.Socks
