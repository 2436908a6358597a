import Yggstack.Resolver.Scan

namespace Yggstack.Resolver

open Library

-- The labels of the name at `pos` and the end of the name. A pointer leads to an offset below
-- `limit`, where the name goes on.
def decodeName (buf : List UInt8) (limit pos : ℕ) : Option (List (List UInt8) × ℕ) :=
  if h : buf.length ≤ pos then none
  else
    let len := buf[pos].toNat
    if len = 0 then some ([], pos + 1)
    else if len < 64 then
      if pos + 1 + len ≤ buf.length then do
        let (labels, next) ← decodeName buf limit (pos + 1 + len)
        return ((buf.drop (pos + 1)).take len :: labels, next)
      else none
    else if 192 ≤ len then do
      let low ← buf[pos + 1]?
      let offset := (len - 192) * 256 + low.toNat
      if offset < limit then do
        let (labels, _) ← decodeName buf offset offset
        return (labels, pos + 2)
      else none
    else none
termination_by (limit, buf.length - pos)

def wireLength (labels : List (List UInt8)) : ℕ :=
  (labels.map fun label => label.length + 1).sum + 1

def maxName : ℕ := 255

def decodeDomain (buf : List UInt8) (pos : ℕ) : Option (List (List UInt8) × ℕ) := do
  let (labels, next) ← decodeName buf pos pos
  if wireLength labels ≤ maxName then some (labels, next) else none

structure Inquiry where
  name : List (List UInt8)
  qtype : UInt16
  qclass : UInt16

structure Resource where
  owner : List (List UInt8)
  rtype : UInt16
  rdata : List UInt8

def Resource.isAddress (r : Resource) : Bool := r.rtype = 28 ∧ r.rdata.length = 16

structure Message where
  flags : UInt16
  questions : List Inquiry
  answers : List Resource
  authorities : List Resource
  additionals : List Resource

def decodeInquiry (buf : List UInt8) (pos : ℕ) : Option (Inquiry × ℕ) := do
  let (name, pos) ← decodeDomain buf pos
  if pos + 4 ≤ buf.length then some (⟨name, word buf pos, word buf (pos + 2)⟩, pos + 4) else none

def decodeResource (buf : List UInt8) (pos : ℕ) : Option (Resource × ℕ) := do
  let (owner, pos) ← decodeDomain buf pos
  let rdlength := (word buf (pos + 8)).toNat
  if pos + 10 + rdlength ≤ buf.length then
    some (⟨owner, word buf pos, (buf.take (pos + 10 + rdlength)).drop (pos + 10)⟩, pos + 10 + rdlength)
  else none

def decodeSection {α : Type} (read : ℕ → Option (α × ℕ)) : (count pos : ℕ) → Option (List α × ℕ)
  | 0, pos => some ([], pos)
  | count + 1, pos => do
    let (a, pos) ← read pos
    let (as, pos) ← decodeSection read count pos
    return (a :: as, pos)

def decodeMessage (buf : List UInt8) : Option Message :=
  if buf.length < 12 then none
  else do
    let (questions, pos) ← decodeSection (decodeInquiry buf) (word buf 4).toNat 12
    let (answers, pos) ← decodeSection (decodeResource buf) (word buf 6).toNat pos
    let (authorities, pos) ← decodeSection (decodeResource buf) (word buf 8).toNat pos
    let (additionals, _) ← decodeSection (decodeResource buf) (word buf 10).toNat pos
    return ⟨word buf 2, questions, answers, authorities, additionals⟩

namespace Message

variable (m : Message)

def isResponse : Bool := m.flags.toNat / 2 ^ 15 = 1

def truncated : Bool := m.flags.toNat / 2 ^ 9 % 2 = 1

def rcode : ℕ := m.flags.toNat % 16

def noError : ℕ := 0

def nxDomain : ℕ := 3

def isFinal : Bool :=
  m.isResponse ∧ ¬m.truncated ∧ (m.rcode = noError ∨ m.rcode = nxDomain)

def address? : Option (BitVec 128) :=
  (m.answers.find? Resource.isAddress).map fun r => fromOctets r.rdata

end Message

section Names

variable {buf : List UInt8} {limit pos next : ℕ} {labels : List (List UInt8)}

lemma pointer_iff (b : UInt8) : b &&& 0xC0 = 0xC0 ↔ 192 ≤ b.toNat := by
  have hall : ∀ n : Fin 256, UInt8.ofNat n.val &&& 0xC0 = 0xC0 ↔ 192 ≤ n.val := by decide +kernel
  have hb := hall ⟨b.toNat, b.toNat_lt⟩
  rwa [UInt8.ofNat_toNat] at hb

lemma decodeName_cases (h : decodeName buf limit pos = some (labels, next)) :
    ∃ len, buf[pos]? = some len ∧
      ((len = 0 ∧ labels = [] ∧ next = pos + 1) ∨
        (0 < len.toNat ∧ len.toNat < 64 ∧ pos + 1 + len.toNat ≤ buf.length ∧
          ∃ rest, labels = (buf.drop (pos + 1)).take len.toNat :: rest ∧
            decodeName buf limit (pos + 1 + len.toNat) = some (rest, next)) ∨
        (192 ≤ len.toNat ∧ next = pos + 2 ∧ pos + 2 ≤ buf.length ∧
          ∃ offset end', offset < limit ∧ decodeName buf offset offset = some (labels, end'))) := by
  rw [decodeName] at h
  split at h
  · cases h
  · next hlt =>
    refine ⟨buf[pos], List.getElem?_eq_getElem (by omega), ?_⟩
    simp only at h
    split at h
    · next hzero =>
      cases h
      exact .inl ⟨UInt8.toNat_inj.mp hzero, rfl, rfl⟩
    · split at h
      · split at h
        · next hroom =>
          obtain ⟨⟨rest, next'⟩, hrest, he⟩ := Option.bind_eq_some_iff.mp h
          cases he
          exact .inr (.inl ⟨by omega, by assumption, hroom, rest, rfl, hrest⟩)
        · cases h
      · split at h
        · next hpointer =>
          obtain ⟨low, hlow, he⟩ := Option.bind_eq_some_iff.mp h
          have hroom := (List.getElem?_eq_some_iff.mp hlow).1
          split at he
          · next hlimit =>
            obtain ⟨⟨rest, end'⟩, hrest, he⟩ := Option.bind_eq_some_iff.mp he
            cases he
            exact .inr (.inr ⟨hpointer, rfl, by omega, _, end', hlimit, hrest⟩)
          · cases he
        · cases h

lemma skipDnsName_of_decodeName (h : decodeName buf limit pos = some (labels, next)) :
    skipDnsName buf pos = some next := by
  induction labels generalizing pos with
  | nil =>
    obtain ⟨len, hlen, ⟨rfl, -, rfl⟩ | ⟨-, -, -, rest, he, -⟩ | ⟨hpointer, rfl, -⟩⟩ :=
      decodeName_cases h
    · rw [skipDnsName_of_getElem? 0 hlen, if_pos rfl]
    · cases he
    · have hne : len ≠ 0 := by
        rintro rfl
        simp at hpointer
      rw [skipDnsName_of_getElem? len hlen, if_neg hne, if_pos ((pointer_iff len).mpr hpointer)]
  | cons label labels ih =>
    obtain ⟨len, hlen, ⟨-, he, -⟩ | ⟨hpos, hlt, -, rest, he, hrest⟩ | ⟨hpointer, rfl, -⟩⟩ :=
      decodeName_cases h
    · cases he
    · cases he
      have hne : len ≠ 0 := by
        rintro rfl
        simp at hpos
      have hlabel : ¬len &&& 0xC0 = 0xC0 := by
        rw [pointer_iff]
        omega
      rw [skipDnsName_of_getElem? len hlen, if_neg hne, if_neg hlabel]
      exact ih hrest
    · have hne : len ≠ 0 := by
        rintro rfl
        simp at hpointer
      rw [skipDnsName_of_getElem? len hlen, if_neg hne, if_pos ((pointer_iff len).mpr hpointer)]

lemma label_of_decodeName (h : decodeName buf limit pos = some (labels, next)) :
    ∀ label ∈ labels, 0 < label.length ∧ label.length ≤ 63 := by
  induction limit using Nat.strong_induction_on generalizing pos next labels with
  | _ limit ihlimit =>
    induction hn : buf.length - pos using Nat.strong_induction_on generalizing pos labels with
    | _ n ihpos =>
      obtain ⟨len, hlen, ⟨-, rfl, -⟩ | ⟨hpos, hlt, hroom, rest, rfl, hrest⟩ | ⟨-, -, -, offset, end', hlimit, hrest⟩⟩ :=
        decodeName_cases h
      · simp
      · rw [List.forall_mem_cons]
        refine ⟨?_, ihpos _ ?_ hrest rfl⟩
        · rw [List.length_take_of_le (by rw [List.length_drop]; omega)]
          omega
        · omega
      · exact ihlimit offset hlimit hrest

lemma decodeName_of_decodeDomain (h : decodeDomain buf pos = some (labels, next)) :
    decodeName buf pos pos = some (labels, next) := by
  obtain ⟨⟨labels', next'⟩, hname, h⟩ := Option.bind_eq_some_iff.mp h
  simp only at h
  split at h
  · cases h
    exact hname
  · cases h

lemma decodeName_root (limit : ℕ) (pre rest : List UInt8) :
    decodeName (pre ++ 0 :: rest) limit pre.length = some ([], pre.length + 1) := by
  rw [decodeName, dif_neg (by simp)]
  simp

lemma decodeName_of_getElem? {len : UInt8} (h : buf[pos]? = some len)
    (hlen : 0 < len.toNat ∧ len.toNat < 64) (hroom : pos + 1 + len.toNat ≤ buf.length) (limit : ℕ) :
    decodeName buf limit pos = (decodeName buf limit (pos + 1 + len.toNat)).map fun p =>
      ((buf.drop (pos + 1)).take len.toNat :: p.1, p.2) := by
  obtain ⟨hlt, rfl⟩ := List.getElem?_eq_some_iff.mp h
  rw [decodeName, dif_neg (by omega)]
  simp only [if_neg (show ¬buf[pos].toNat = 0 by omega), if_pos hlen.2, if_pos hroom]
  cases decodeName buf limit (pos + 1 + buf[pos].toNat) with
  | none => rfl
  | some p => rfl

lemma decodeName_label {label : List UInt8} (h : 0 < label.length ∧ label.length ≤ 63) (limit : ℕ)
    (pre rest : List UInt8) :
    decodeName (pre ++ (encodeLabel label ++ rest)) limit pre.length =
      (decodeName (pre ++ (encodeLabel label ++ rest)) limit (pre ++ encodeLabel label).length).map
        fun p => (label :: p.1, p.2) := by
  obtain ⟨hnat, -, -⟩ := label_length_byte h.1 h.2
  have hfirst : (pre ++ (encodeLabel label ++ rest))[pre.length]? = some (.ofNat label.length) := by
    simp [encodeLabel]
  have hpiece : ((pre ++ (encodeLabel label ++ rest)).drop (pre.length + 1)).take label.length =
      label := by
    rw [show pre ++ (encodeLabel label ++ rest) =
      (pre ++ [.ofNat label.length]) ++ (label ++ rest) by simp [encodeLabel],
      List.drop_left' (by simp), List.take_left]
  have hroom : pre.length + 1 + label.length ≤ (pre ++ (encodeLabel label ++ rest)).length := by
    simp [encodeLabel]
    omega
  have hnext : pre.length + 1 + label.length = (pre ++ encodeLabel label).length := by
    simp [encodeLabel]
    omega
  rw [decodeName_of_getElem? hfirst (by omega) (by omega), hnat, hpiece, hnext]

lemma decodeName_labels {labels : List (List UInt8)}
    (h : ∀ label ∈ labels, 0 < label.length ∧ label.length ≤ 63) (limit : ℕ)
    (pre rest : List UInt8) :
    decodeName (pre ++ (labels.flatMap encodeLabel ++ 0 :: rest)) limit pre.length =
      some (labels, (pre ++ labels.flatMap encodeLabel).length + 1) := by
  induction labels generalizing pre with
  | nil => simpa using decodeName_root limit pre rest
  | cons label labels ih =>
    rw [List.forall_mem_cons] at h
    have htail := ih h.2 (pre ++ encodeLabel label)
    rw [List.flatMap_cons, List.append_assoc, decodeName_label h.1]
    rw [List.append_assoc] at htail
    rw [htail, Option.map_some, List.append_assoc]

end Names

section Sections

variable {buf : List UInt8} {count pos next : ℕ}

lemma decodeSection_succ {α : Type} {read : ℕ → Option (α × ℕ)} {as : List α}
    (h : decodeSection read (count + 1) pos = some (as, next)) :
    ∃ a mid rest, read pos = some (a, mid) ∧ decodeSection read count mid = some (rest, next) ∧
      as = a :: rest := by
  obtain ⟨⟨a, mid⟩, hread, h⟩ := Option.bind_eq_some_iff.mp h
  obtain ⟨⟨rest, next'⟩, hrest, he⟩ := Option.bind_eq_some_iff.mp h
  cases he
  exact ⟨a, mid, rest, hread, hrest, rfl⟩

lemma length_of_decodeSection {α : Type} {read : ℕ → Option (α × ℕ)} {as : List α}
    (h : decodeSection read count pos = some (as, next)) : as.length = count := by
  induction count generalizing pos as with
  | zero =>
    cases h
    rfl
  | succ count ih =>
    obtain ⟨a, mid, rest, -, hrest, rfl⟩ := decodeSection_succ h
    rw [List.length_cons, ih hrest]

lemma decodeInquiry_cases {q : Inquiry} (h : decodeInquiry buf pos = some (q, next)) :
    ∃ stop, decodeName buf pos pos = some (q.name, stop) ∧ next = stop + 4 := by
  obtain ⟨⟨name, stop⟩, hname, h⟩ := Option.bind_eq_some_iff.mp h
  simp only at h
  split at h
  · cases h
    exact ⟨stop, decodeName_of_decodeDomain hname, rfl⟩
  · cases h

lemma decodeResource_cases {r : Resource} (h : decodeResource buf pos = some (r, next)) :
    ∃ stop, decodeName buf pos pos = some (r.owner, stop) ∧
      next = stop + 10 + (word buf (stop + 8)).toNat ∧ next ≤ buf.length ∧
      r.rtype = word buf stop ∧ r.rdata = (buf.take next).drop (stop + 10) := by
  obtain ⟨⟨owner, stop⟩, hname, h⟩ := Option.bind_eq_some_iff.mp h
  simp only at h
  split at h
  · next hroom =>
    cases h
    exact ⟨stop, decodeName_of_decodeDomain hname, rfl, hroom, rfl, rfl⟩
  · cases h

lemma parseAnswers_resource {r : Resource} (h : decodeResource buf pos = some (r, next))
    (count : ℕ) :
    parseAnswers buf (count + 1) pos =
      if r.isAddress then .ok (some (fromOctets r.rdata)) else parseAnswers buf count next := by
  obtain ⟨stop, hname, rfl, hroom, htype, hdata⟩ := decodeResource_cases h
  have hlen : r.rdata.length = (word buf (stop + 8)).toNat := by
    rw [hdata, List.length_drop, List.length_take_of_le hroom]
    omega
  rw [parseAnswers_succ (skipDnsName_of_decodeName hname) (by omega)]
  by_cases ha : r.isAddress = true
  · have haddr : word buf stop = 28 ∧ (word buf (stop + 8)).toNat = 16 := by
      simpa [Resource.isAddress, htype, hlen] using ha
    rw [haddr.2] at hroom
    rw [if_pos ⟨haddr.1, haddr.2, hroom⟩, if_pos ha, hdata, haddr.2]
  · have hno : ¬(word buf stop = 28 ∧ (word buf (stop + 8)).toNat = 16 ∧
        stop + 10 + 16 ≤ buf.length) := by
      rintro ⟨ht, hl, -⟩
      exact ha (by simp [Resource.isAddress, htype, hlen, ht, hl])
    rw [if_neg hno, if_neg ha]

lemma parseAnswers_section {records : List Resource}
    (h : decodeSection (decodeResource buf) count pos = some (records, next)) :
    parseAnswers buf count pos =
      .ok ((records.find? Resource.isAddress).map fun r => fromOctets r.rdata) := by
  induction count generalizing pos records with
  | zero =>
    cases h
    rfl
  | succ count ih =>
    obtain ⟨r, mid, rest, hread, hrest, rfl⟩ := decodeSection_succ h
    rw [parseAnswers_resource hread, List.find?_cons]
    by_cases ha : r.isAddress = true
    · rw [if_pos ha, ha]
      rfl
    · rw [if_neg ha, Bool.eq_false_iff.mpr ha]
      exact ih hrest

end Sections

variable {buf : List UInt8} {m : Message}

lemma decodeMessage_cases (h : decodeMessage buf = some m) :
    12 ≤ buf.length ∧ m.flags = word buf 2 ∧ ∃ pos next,
      decodeSection (decodeInquiry buf) (word buf 4).toNat 12 = some (m.questions, pos) ∧
      decodeSection (decodeResource buf) (word buf 6).toNat pos = some (m.answers, next) := by
  rw [decodeMessage] at h
  split at h
  · cases h
  · next hlen =>
    obtain ⟨⟨questions, pos⟩, hquestions, h⟩ := Option.bind_eq_some_iff.mp h
    obtain ⟨⟨answers, next⟩, hanswers, h⟩ := Option.bind_eq_some_iff.mp h
    obtain ⟨⟨authorities, after⟩, -, h⟩ := Option.bind_eq_some_iff.mp h
    obtain ⟨⟨additionals, stop⟩, -, h⟩ := Option.bind_eq_some_iff.mp h
    cases h
    exact ⟨by omega, rfl, pos, next, hquestions, hanswers⟩

lemma parse_message (h : decodeMessage buf = some m) (hone : m.questions.length = 1) :
    parseDnsAaaaResponse buf = .ok m.address? := by
  obtain ⟨hlen, -, pos, next, hquestions, hanswers⟩ := decodeMessage_cases h
  have hcount : (word buf 4).toNat = 1 := by
    rw [← length_of_decodeSection hquestions, hone]
  rw [hcount] at hquestions
  obtain ⟨q, mid, rest, hread, hrest, -⟩ := decodeSection_succ hquestions
  cases hrest
  obtain ⟨stop, hname, rfl⟩ := decodeInquiry_cases hread
  have hscan := parseAnswers_section hanswers
  rw [parseDnsAaaaResponse_eq hlen, skipDnsName_of_decodeName hname]
  split
  · next hzero =>
    rw [hzero] at hscan
    exact hscan
  · exact hscan

end Yggstack.Resolver
