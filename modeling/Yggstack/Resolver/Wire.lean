import Mathlib.Data.List.DropRight
import Yggstack.Frag.Packet
import Yggstack.Library.Text

namespace Yggstack.Resolver

open Library
open Frag (u16FromBeBytes u32FromBeBytes beBytes32 u16FromBeBytes_ofNat)

def beBytes16 (n : UInt16) : List UInt8 := [.ofNat (n.toNat / 256), .ofNat n.toNat]

def fromOctets (octets : List UInt8) : BitVec 128 :=
  .ofNat 128 (octets.foldl (fun n b => n * 256 + b.toNat) 0)

def labelsOf (name : String) : List (List Char) := (name.toList.rdropWhile (· = '.')).splitOn '.'

def encodeLabel (label : List UInt8) : List UInt8 := .ofNat label.length :: label

def buildDnsQuery (name : String) (qtype : UInt16) : List UInt8 :=
  [0x00, 0x01] ++ [0x01, 0x00] ++ [0x00, 0x01] ++ [0x00, 0x00] ++ [0x00, 0x00] ++ [0x00, 0x00] ++
    ((labelsOf name).flatMap fun label => encodeLabel (utf8 label)) ++ [0x00] ++
    beBytes16 qtype ++ [0x00, 0x01]

def skipDnsName (buf : List UInt8) (pos : ℕ) : Option ℕ :=
  if h : buf.length ≤ pos then none
  else
    let len := buf[pos]
    if len = 0 then some (pos + 1)
    else if len &&& 0xC0 = 0xC0 then some (pos + 2)
    else skipDnsName buf (pos + 1 + len.toNat)
termination_by buf.length - pos

def parseAnswers (buf : List UInt8) : (count pos : ℕ) → Except Panic (Option (BitVec 128))
  | 0, _ => return none
  | count + 1, pos =>
    match skipDnsName buf pos with
    | none => return none
    | some pos =>
      if pos + 10 > buf.length then return none
      else do
        let rtype := u16FromBeBytes (← index buf pos) (← index buf (pos + 1))
        let _rclass := u16FromBeBytes (← index buf (pos + 2)) (← index buf (pos + 3))
        let _ttl := u32FromBeBytes (← index buf (pos + 4)) (← index buf (pos + 5))
          (← index buf (pos + 6)) (← index buf (pos + 7))
        let rdlength := (u16FromBeBytes (← index buf (pos + 8)) (← index buf (pos + 9))).toNat
        let pos := pos + 10
        if rtype = 28 ∧ rdlength = 16 ∧ pos + 16 ≤ buf.length then
          let octets ← slice buf pos (pos + 16)
          return some (fromOctets octets)
        else parseAnswers buf count (pos + rdlength)

def parseDnsAaaaResponse (buf : List UInt8) : Except Panic (Option (BitVec 128)) :=
  if buf.length < 12 then return none
  else do
    let ancount := (u16FromBeBytes (← index buf 6) (← index buf 7)).toNat
    if ancount = 0 then return none
    else
      match skipDnsName buf 12 with
      | none => return none
      | some pos => parseAnswers buf ancount (pos + 4)

abbrev Label := {label : List UInt8 // 0 < label.length ∧ label.length ≤ 63}

structure WireName where
  labels : List Label
  pointer : Option (Fin (2 ^ 14))

def WireName.encode (n : WireName) : List UInt8 :=
  n.labels.flatMap (fun label => encodeLabel label.val) ++
    match n.pointer with
    | none => [0x00]
    | some offset => [.ofNat (0xC0 + offset.val / 256), .ofNat offset.val]

structure Record where
  owner : WireName
  rtype : UInt16
  rclass : UInt16
  ttl : UInt32
  rdata : {bytes : List UInt8 // bytes.length ≤ 65535}

def Record.body (r : Record) : List UInt8 :=
  beBytes16 r.rtype ++ (beBytes16 r.rclass ++ (beBytes32 r.ttl.toNat ++
    (beBytes16 (.ofNat r.rdata.val.length) ++ r.rdata.val)))

def Record.encode (r : Record) : List UInt8 := r.owner.encode ++ r.body

def Record.isAddress (r : Record) : Bool := r.rtype = 28 ∧ r.rdata.val.length = 16

def dnsResponse (name : String) (id flags : UInt16) (records : List Record)
    (trailing : List UInt8) : List UInt8 :=
  let query := buildDnsQuery name 28
  beBytes16 id ++ beBytes16 flags ++ (query.drop 4).take 2 ++ beBytes16 (.ofNat records.length) ++
    query.drop 8 ++ records.flatMap Record.encode ++ trailing

variable {pre rest : List UInt8}

lemma u16FromBeBytes_beBytes16 (n : UInt16) :
    u16FromBeBytes (.ofNat (n.toNat / 256)) (.ofNat n.toNat) = n := by
  apply UInt16.toNat_inj.mp
  rw [u16FromBeBytes_ofNat n.toNat_lt]

lemma label_length_byte {n : ℕ} (h₀ : 0 < n) (h : n ≤ 63) :
    (UInt8.ofNat n).toNat = n ∧ UInt8.ofNat n ≠ 0 ∧ UInt8.ofNat n &&& 0xC0 ≠ 0xC0 := by
  have hall : ∀ m : Fin 64, 0 < m.val → (UInt8.ofNat m.val).toNat = m.val ∧
      UInt8.ofNat m.val ≠ 0 ∧ UInt8.ofNat m.val &&& 0xC0 ≠ 0xC0 := by decide
  exact hall ⟨n, by omega⟩ h₀

lemma skipDnsName_of_getElem? {buf : List UInt8} {pos : ℕ} (len : UInt8)
    (h : buf[pos]? = some len) :
    skipDnsName buf pos = if len = 0 then some (pos + 1)
      else if len &&& 0xC0 = 0xC0 then some (pos + 2)
      else skipDnsName buf (pos + 1 + len.toNat) := by
  obtain ⟨hlt, rfl⟩ := List.getElem?_eq_some_iff.mp h
  rw [skipDnsName, dif_neg (by omega)]

lemma skipDnsName_label {label : List UInt8} (h : 0 < label.length ∧ label.length ≤ 63) :
    skipDnsName (pre ++ (encodeLabel label ++ rest)) pre.length =
      skipDnsName (pre ++ (encodeLabel label ++ rest)) (pre ++ encodeLabel label).length := by
  obtain ⟨hnat, hzero, hpointer⟩ := label_length_byte h.1 h.2
  rw [skipDnsName_of_getElem? (.ofNat label.length) (by simp [encodeLabel]), if_neg hzero,
    if_neg hpointer, hnat]
  simp only [encodeLabel, List.length_append, List.length_cons]
  congr 1
  omega

lemma skipDnsName_labels {labels : List (List UInt8)}
    (h : ∀ label ∈ labels, 0 < label.length ∧ label.length ≤ 63) (pre rest : List UInt8) :
    skipDnsName (pre ++ (labels.flatMap encodeLabel ++ rest)) pre.length =
      skipDnsName (pre ++ (labels.flatMap encodeLabel ++ rest))
        (pre ++ labels.flatMap encodeLabel).length := by
  induction labels generalizing pre with
  | nil => simp
  | cons label labels ih =>
    rw [List.forall_mem_cons] at h
    rw [List.flatMap_cons, List.append_assoc, skipDnsName_label h.1]
    have htail := ih h.2 (pre ++ encodeLabel label)
    simpa only [List.append_assoc] using htail

lemma skipDnsName_root (pre rest : List UInt8) :
    skipDnsName (pre ++ 0 :: rest) pre.length = some (pre.length + 1) := by
  rw [skipDnsName_of_getElem? 0 (by simp), if_pos rfl]

lemma pointer_byte (offset : Fin (2 ^ 14)) :
    UInt8.ofNat (0xC0 + offset.val / 256) ≠ 0 ∧
      UInt8.ofNat (0xC0 + offset.val / 256) &&& 0xC0 = 0xC0 := by
  have hall : ∀ m : Fin 64, UInt8.ofNat (0xC0 + m.val) ≠ 0 ∧
      UInt8.ofNat (0xC0 + m.val) &&& 0xC0 = 0xC0 := by decide
  exact hall ⟨offset.val / 256, by omega⟩

lemma skipDnsName_wireName (n : WireName) (pre rest : List UInt8) :
    skipDnsName (pre ++ (n.encode ++ rest)) pre.length = some (pre ++ n.encode).length := by
  have hlabels : ∀ label ∈ n.labels.map Subtype.val, 0 < label.length ∧ label.length ≤ 63 := by
    intro label hl
    obtain ⟨l, -, rfl⟩ := List.mem_map.mp hl
    exact l.property
  have hmap : n.labels.flatMap (fun label => encodeLabel label.val) =
      (n.labels.map Subtype.val).flatMap encodeLabel := by
    rw [List.flatMap_map]
  rw [WireName.encode, hmap, List.append_assoc, skipDnsName_labels hlabels, ← List.append_assoc]
  cases n.pointer with
  | none =>
    rw [show ([0x00] ++ rest : List UInt8) = 0 :: rest from rfl, skipDnsName_root]
    simp
    omega
  | some offset =>
    obtain ⟨hzero, hpointer⟩ := pointer_byte offset
    rw [skipDnsName_of_getElem? (.ofNat (0xC0 + offset.val / 256)) (by simp),
      if_neg hzero, if_pos hpointer]
    simp
    omega

lemma Record.length_body (r : Record) : r.body.length = 10 + r.rdata.val.length := by
  simp [Record.body, beBytes16, beBytes32]
  omega

lemma parseAnswers_record (r : Record) (pre rest : List UInt8) (count : ℕ) :
    parseAnswers (pre ++ (r.encode ++ rest)) (count + 1) pre.length =
      if r.isAddress then .ok (some (fromOctets r.rdata.val))
      else parseAnswers (pre ++ (r.encode ++ rest)) count (pre ++ r.encode).length := by
  have hskip : skipDnsName (pre ++ (r.encode ++ rest)) pre.length =
      some (pre ++ r.owner.encode).length := by
    have hs := skipDnsName_wireName r.owner pre (r.body ++ rest)
    rwa [← List.append_assoc r.owner.encode] at hs
  have hlen := r.length_body
  rw [parseAnswers, hskip]
  rw [Record.encode, List.append_assoc r.owner.encode, ← List.append_assoc pre,
    ← List.append_assoc pre]
  generalize pre ++ r.owner.encode = front
  have hroom : ¬front.length + 10 > (front ++ (r.body ++ rest)).length := by
    simp only [List.length_append, hlen]
    omega
  have hfield : ∀ i b, r.body[i]? = some b →
      index (front ++ (r.body ++ rest)) (front.length + i) = .ok b := by
    intro i b hb
    rw [index_append, index, List.getElem?_append_left (List.getElem?_eq_some_iff.mp hb).1, hb]
  have h0 := hfield 0 _ rfl
  rw [Nat.add_zero] at h0
  simp only [if_neg hroom]
  rw [h0, hfield 1 _ rfl, hfield 2 _ rfl, hfield 3 _ rfl, hfield 4 _ rfl, hfield 5 _ rfl,
    hfield 6 _ rfl, hfield 7 _ rfl, hfield 8 _ rfl, hfield 9 _ rfl]
  have hle := r.rdata.property
  have hnat : (UInt16.ofNat r.rdata.val.length).toNat = r.rdata.val.length := by
    rw [UInt16.toNat_ofNat']
    omega
  have hsize : r.rdata.val.length < 2 ^ 16 := by omega
  simp only [ok_bind, u16FromBeBytes_beBytes16, hnat, u16FromBeBytes_ofNat hsize]
  by_cases ha : r.isAddress = true
  · have haddr : r.rtype = 28 ∧ r.rdata.val.length = 16 := by simpa [Record.isAddress] using ha
    have hfit : front.length + 10 + 16 ≤ (front ++ (r.body ++ rest)).length := by
      simp only [List.length_append, hlen, haddr.2]
      omega
    have hslice : slice (front ++ (r.body ++ rest)) (front.length + 10) (front.length + 10 + 16) =
        .ok r.rdata.val := by
      have hs := slice_append (front ++ r.body.take 10) r.rdata.val rest
      rw [List.append_assoc, ← List.append_assoc (r.body.take 10),
        show r.body.take 10 ++ r.rdata.val = r.body from rfl, haddr.2] at hs
      simpa [hlen] using hs
    rw [if_pos ⟨haddr.1, haddr.2, hfit⟩, if_pos ha, hslice, ok_bind]
    rfl
  · have hno : ¬(r.rtype = 28 ∧ r.rdata.val.length = 16 ∧
        front.length + 10 + 16 ≤ (front ++ (r.body ++ rest)).length) := by
      rintro ⟨ht, hl, -⟩
      exact ha (by simp [Record.isAddress, ht, hl])
    rw [if_neg hno, if_neg ha]
    congr 1
    simp only [List.length_append, hlen]
    omega

def firstAddress (records : List Record) : Option (BitVec 128) :=
  (records.find? Record.isAddress).map fun r => fromOctets r.rdata.val

lemma parseAnswers_records (records : List Record) (pre trailing : List UInt8) :
    parseAnswers (pre ++ (records.flatMap Record.encode ++ trailing)) records.length pre.length =
      .ok (firstAddress records) := by
  induction records generalizing pre with
  | nil => rfl
  | cons r records ih =>
    rw [List.length_cons, List.flatMap_cons, List.append_assoc, parseAnswers_record, firstAddress,
      List.find?_cons]
    by_cases ha : r.isAddress = true
    · rw [if_pos ha, ha]
      rfl
    · have htail := ih (pre ++ r.encode)
      rw [List.append_assoc] at htail
      rw [if_neg ha, Bool.eq_false_iff.mpr ha, htail]
      rfl

lemma dnsResponse_eq (name : String) (id flags : UInt16) (records : List Record)
    (trailing : List UInt8) :
    dnsResponse name id flags records trailing =
      (beBytes16 id ++ beBytes16 flags ++ [0x00, 0x01] ++ beBytes16 (.ofNat records.length) ++
        [0x00, 0x00, 0x00, 0x00]) ++
      (((labelsOf name).map utf8).flatMap encodeLabel ++
        (0x00 :: ([0x00, 0x1c, 0x00, 0x01] ++ (records.flatMap Record.encode ++ trailing)))) := by
  simp [dnsResponse, buildDnsQuery, beBytes16, List.flatMap_map]

/-- A response to the query for a name gives its first address, whatever records and bytes surround
it. -/
theorem response_gives_first_address (name : String) (id flags : UInt16) (records : List Record)
    (trailing : List UInt8)
    (hname : ∀ label ∈ labelsOf name, 0 < (utf8 label).length ∧ (utf8 label).length ≤ 63)
    (hcount : records.length ≤ 65535) :
    parseDnsAaaaResponse (dnsResponse name id flags records trailing) =
      .ok ((records.find? fun r => r.rtype = 28 ∧ r.rdata.val.length = 16).map fun r =>
        fromOctets r.rdata.val) := by
  have hlabels : ∀ label ∈ (labelsOf name).map utf8, 0 < label.length ∧ label.length ≤ 63 := by
    intro label hl
    obtain ⟨l, hmem, rfl⟩ := List.mem_map.mp hl
    exact hname l hmem
  have hnat : (UInt16.ofNat records.length).toNat = records.length := by
    rw [UInt16.toNat_ofNat']
    omega
  have hsize : records.length < 2 ^ 16 := by omega
  rw [dnsResponse_eq]
  generalize hq : ((labelsOf name).map utf8).flatMap encodeLabel = question
  generalize hf : beBytes16 id ++ beBytes16 flags ++ [0x00, 0x01] ++
    beBytes16 (.ofNat records.length) ++ [0x00, 0x00, 0x00, 0x00] = front
  have hlen : front.length = 12 := by rw [← hf]; rfl
  generalize hr : records.flatMap Record.encode ++ trailing = answers
  have hskip : skipDnsName (front ++ (question ++ 0x00 :: ([0x00, 0x1c, 0x00, 0x01] ++ answers))) 12 =
      some ((front ++ question).length + 1) := by
    have hl := skipDnsName_labels hlabels front (0x00 :: ([0x00, 0x1c, 0x00, 0x01] ++ answers))
    rw [hlen, hq] at hl
    rw [hl, ← List.append_assoc, skipDnsName_root]
  have hanswers : parseAnswers (front ++ (question ++ 0x00 :: ([0x00, 0x1c, 0x00, 0x01] ++ answers)))
      records.length ((front ++ question).length + 1 + 4) = .ok (firstAddress records) := by
    have hp := parseAnswers_records records (front ++ (question ++ [0x00, 0x00, 0x1c, 0x00, 0x01])) trailing
    rw [hr] at hp
    simpa [Nat.add_assoc] using hp
  have h6 : index (front ++ (question ++ 0x00 :: ([0x00, 0x1c, 0x00, 0x01] ++ answers))) 6 =
      .ok (.ofNat ((UInt16.ofNat records.length).toNat / 256)) := by
    rw [← hf]
    rfl
  have h7 : index (front ++ (question ++ 0x00 :: ([0x00, 0x1c, 0x00, 0x01] ++ answers))) 7 =
      .ok (.ofNat (UInt16.ofNat records.length).toNat) := by
    rw [← hf]
    rfl
  rw [parseDnsAaaaResponse, if_neg (by simp [hlen]), h6, h7]
  simp only [ok_bind, hnat, u16FromBeBytes_ofNat hsize, hskip, hanswers]
  split
  · next hzero =>
    rw [List.length_eq_zero_iff.mp hzero]
    rfl
  · rfl

def aliasRecord : Record where
  owner := ⟨[⟨[97], by decide⟩, ⟨[98], by decide⟩], none⟩
  rtype := 5
  rclass := 1
  ttl := 60
  rdata := ⟨[0xC0, 12], by decide⟩

def addressRecord : Record where
  owner := ⟨[], some 12⟩
  rtype := 28
  rclass := 1
  ttl := 60
  rdata := ⟨List.replicate 15 0 ++ [7], by decide⟩

theorem alias_then_address_found :
    parseDnsAaaaResponse (dnsResponse "a.b." 9 0x8100 [aliasRecord, addressRecord] [1, 2]) =
      .ok (some 7) := by
  rw [response_gives_first_address "a.b." 9 0x8100 [aliasRecord, addressRecord] [1, 2]
    (by decide) (by decide)]
  rfl

end Yggstack.Resolver
