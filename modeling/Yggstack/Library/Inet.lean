import Mathlib.Tactic

namespace Yggstack.Library.Inet

inductive IpAddr where
  | v4 (bits : BitVec 32)
  | v6 (bits : BitVec 128)
  deriving DecidableEq

-- Flow information and scope are zero.
structure SocketAddr where
  ip : IpAddr
  port : UInt16
  deriving DecidableEq

def unspecified : IpAddr := .v4 0

def localhost : IpAddr := .v4 0x7f000001

/-! Reading. A reader that fails has read nothing. -/

abbrev Reader (α : Type) := List Char → Option (α × List Char)

def parseWith {α : Type} (r : Reader α) (cs : List Char) : Option α :=
  match r cs with
  | some (a, []) => some a
  | _ => none

def digit? (radix : ℕ) (c : Char) : Option ℕ :=
  let value :=
    if '0' ≤ c ∧ c ≤ '9' then some (c.toNat - '0'.toNat)
    else if 'a' ≤ c ∧ c ≤ 'z' then some (c.toNat - 'a'.toNat + 10)
    else if 'A' ≤ c ∧ c ≤ 'Z' then some (c.toNat - 'A'.toNat + 10)
    else none
  value.filter (· < radix)

def number (radix : ℕ) (digits : List Char) : ℕ :=
  (digits.filterMap (digit? radix)).foldl (fun n d => n * radix + d) 0

def readGiven (c : Char) : Reader Unit
  | [] => none
  | d :: cs => if d = c then some ((), cs) else none

def readNumber (radix bound : ℕ) (maxDigits : Option ℕ) (zeroPrefix : Bool) : Reader ℕ := fun cs =>
  let digits := cs.takeWhile fun c => (digit? radix c).isSome
  if digits = [] ∨ maxDigits.any (· < digits.length) ∨ bound ≤ number radix digits ∨
      (zeroPrefix = false ∧ digits.head? = some '0' ∧ 1 < digits.length) then none
  else some (number radix digits, cs.drop digits.length)

def readSeparated {α : Type} (c : Char) (index : ℕ) (r : Reader α) : Reader α := fun cs =>
  if index = 0 then r cs
  else do
    let (_, cs) ← readGiven c cs
    r cs

def readIpv4 : Reader (BitVec 32) := fun cs => do
  let octet := readNumber 10 256 (some 3) false
  let (a, cs) ← octet cs
  let (b, cs) ← readSeparated '.' 1 octet cs
  let (c, cs) ← readSeparated '.' 2 octet cs
  let (d, cs) ← readSeparated '.' 3 octet cs
  return (.ofNat 32 (((a * 256 + b) * 256 + c) * 256 + d), cs)

-- Up to `limit` groups from the group `index` on, the last two of them possibly as an IPv4 address;
-- whether they were is the second result.
def readGroups : (limit index : ℕ) → List Char → List ℕ × Bool × List Char
  | 0, _, cs => ([], false, cs)
  | limit + 1, index, cs =>
    match if 0 < limit then readSeparated ':' index readIpv4 cs else none with
    | some (ip, cs) => ([ip.toNat / 65536, ip.toNat % 65536], true, cs)
    | none =>
      match readSeparated ':' index (readNumber 16 65536 (some 4) true) cs with
      | none => ([], false, cs)
      | some (group, cs) =>
        let (groups, ipv4, cs) := readGroups limit (index + 1) cs
        (group :: groups, ipv4, cs)

def ofGroups (groups : List ℕ) : BitVec 128 :=
  .ofNat 128 (groups.foldl (fun n g => n * 65536 + g) 0)

def readIpv6 : Reader (BitVec 128) := fun cs => do
  let (head, ipv4, cs) := readGroups 8 0 cs
  if head.length = 8 then return (ofGroups head, cs)
  if ipv4 then none
  let (_, cs) ← readGiven ':' cs
  let (_, cs) ← readGiven ':' cs
  let (tail, _, cs) := readGroups (8 - (head.length + 1)) 0 cs
  return (ofGroups (head ++ List.replicate (8 - head.length - tail.length) 0 ++ tail), cs)

def readIp : Reader IpAddr := fun cs =>
  match readIpv4 cs with
  | some (ip, cs) => some (.v4 ip, cs)
  | none => (readIpv6 cs).map fun (ip, cs) => (.v6 ip, cs)

def readPort : Reader UInt16 := fun cs => do
  let (_, cs) ← readGiven ':' cs
  let (port, cs) ← readNumber 10 65536 none true cs
  return (.ofNat port, cs)

def readScope (cs : List Char) : List Char :=
  match (do
    let (_, cs) ← readGiven '%' cs
    readNumber 10 (2 ^ 32) none true cs) with
  | some (_, cs) => cs
  | none => cs

def readSocketV4 : Reader SocketAddr := fun cs => do
  let (ip, cs) ← readIpv4 cs
  let (port, cs) ← readPort cs
  return (⟨.v4 ip, port⟩, cs)

def readSocketV6 : Reader SocketAddr := fun cs => do
  let (_, cs) ← readGiven '[' cs
  let (ip, cs) ← readIpv6 cs
  let (_, cs) ← readGiven ']' (readScope cs)
  let (port, cs) ← readPort cs
  return (⟨.v6 ip, port⟩, cs)

def parseIp (s : String) : Option IpAddr := parseWith readIp s.toList

def parseIpv6 (s : String) : Option (BitVec 128) := parseWith readIpv6 s.toList

def parseSocket (s : String) : Option SocketAddr :=
  parseWith (fun cs => readSocketV4 cs <|> readSocketV6 cs) s.toList

def parseU16 (s : String) : Option UInt16 :=
  let digits := match s.toList with
    | '+' :: cs => cs
    | cs => cs
  if digits = [] ∨ digits.any (fun c => (digit? 10 c).isNone) ∨ 65536 ≤ number 10 digits then none
  else some (.ofNat (number 10 digits))

/-! Showing. -/

def showIpv4 (ip : BitVec 32) : String :=
  let octet (shift : ℕ) : String := toString (ip.toNat / 2 ^ shift % 256)
  octet 24 ++ "." ++ octet 16 ++ "." ++ octet 8 ++ "." ++ octet 0

def groupsOf (ip : BitVec 128) : List ℕ :=
  (List.range 8).map fun i => ip.toNat / 2 ^ (16 * (7 - i)) % 65536

def longestZeros (groups : List ℕ) : ℕ × ℕ :=
  let step (acc : (ℕ × ℕ) × (ℕ × ℕ)) (p : ℕ × ℕ) : (ℕ × ℕ) × (ℕ × ℕ) :=
    let (longest, current) := acc
    if p.1 = 0 then
      let current := (if current.2 = 0 then p.2 else current.1, current.2 + 1)
      (if longest.2 < current.2 then current else longest, current)
    else (longest, (0, 0))
  (groups.zipIdx.foldl step ((0, 0), (0, 0))).1

def showGroups (groups : List ℕ) : String :=
  ":".intercalate (groups.map fun g => String.ofList (Nat.toDigits 16 g))

def showIpv6 (ip : BitVec 128) : String :=
  if ip.toNat / 2 ^ 32 = 0xffff then "::ffff:" ++ showIpv4 (ip.setWidth 32)
  else
    let groups := groupsOf ip
    let (start, len) := longestZeros groups
    if 1 < len then showGroups (groups.take start) ++ "::" ++ showGroups (groups.drop (start + len))
    else showGroups groups

def IpAddr.display : IpAddr → String
  | .v4 ip => showIpv4 ip
  | .v6 ip => showIpv6 ip

def SocketAddr.display (addr : SocketAddr) : String :=
  match addr.ip with
  | .v4 ip => showIpv4 ip ++ ":" ++ toString addr.port.toNat
  | .v6 ip => "[" ++ showIpv6 ip ++ "]:" ++ toString addr.port.toNat

/-! Octets, the most significant first. -/

def bigEndian (octets : List UInt8) : ℕ := octets.foldl (fun n b => n * 256 + b.toNat) 0

def toBigEndian : (len n : ℕ) → List UInt8
  | 0, _ => []
  | len + 1, n => toBigEndian len (n / 256) ++ [.ofNat n]

def ipv4Octets (bits : BitVec 32) : List UInt8 := toBigEndian 4 bits.toNat

def ipv6Octets (bits : BitVec 128) : List UInt8 := toBigEndian 16 bits.toNat

@[simp] lemma length_toBigEndian (len n : ℕ) : (toBigEndian len n).length = len := by
  induction len generalizing n with
  | zero => rfl
  | succ len ih => simp [toBigEndian, ih]

lemma bigEndian_snoc (octets : List UInt8) (b : UInt8) :
    bigEndian (octets ++ [b]) = bigEndian octets * 256 + b.toNat := by
  simp only [bigEndian, List.foldl_append, List.foldl_cons, List.foldl_nil]

lemma bigEndian_toBigEndian (len : ℕ) {n : ℕ} (h : n < 256 ^ len) :
    bigEndian (toBigEndian len n) = n := by
  induction len generalizing n with
  | zero =>
    obtain rfl : n = 0 := by simpa using h
    rfl
  | succ len ih =>
    have hdiv : n / 256 < 256 ^ len := by
      rw [Nat.div_lt_iff_lt_mul (by omega), ← pow_succ]
      exact h
    rw [toBigEndian, bigEndian_snoc, ih hdiv, UInt8.toNat_ofNat']
    omega

lemma toBigEndian_bigEndian (octets : List UInt8) :
    toBigEndian octets.length (bigEndian octets) = octets := by
  induction octets using List.reverseRecOn with
  | nil => rfl
  | append_singleton octets b ih =>
    have hb := b.toNat_lt
    have hdiv : (bigEndian octets * 256 + b.toNat) / 256 = bigEndian octets := by omega
    have hlast : UInt8.ofNat (bigEndian octets * 256 + b.toNat) = b := by
      apply UInt8.toNat_inj.mp
      rw [UInt8.toNat_ofNat']
      omega
    rw [bigEndian_snoc, List.length_append, List.length_singleton, toBigEndian, hdiv, ih, hlast]

lemma bigEndian_lt (octets : List UInt8) : bigEndian octets < 256 ^ octets.length := by
  induction octets using List.reverseRecOn with
  | nil => decide
  | append_singleton octets b ih =>
    have hb := b.toNat_lt
    rw [bigEndian_snoc, List.length_append, List.length_singleton, pow_succ]
    omega

@[simp] lemma length_ipv4Octets (bits : BitVec 32) : (ipv4Octets bits).length = 4 :=
  length_toBigEndian 4 _

@[simp] lemma length_ipv6Octets (bits : BitVec 128) : (ipv6Octets bits).length = 16 :=
  length_toBigEndian 16 _

@[simp] lemma ofNat_bigEndian_ipv4Octets (bits : BitVec 32) :
    BitVec.ofNat 32 (bigEndian (ipv4Octets bits)) = bits := by
  rw [ipv4Octets, bigEndian_toBigEndian 4 bits.isLt, BitVec.ofNat_toNat, BitVec.setWidth_eq]

@[simp] lemma ofNat_bigEndian_ipv6Octets (bits : BitVec 128) :
    BitVec.ofNat 128 (bigEndian (ipv6Octets bits)) = bits := by
  rw [ipv6Octets, bigEndian_toBigEndian 16 bits.isLt, BitVec.ofNat_toNat, BitVec.setWidth_eq]

lemma ipv4Octets_bigEndian {octets : List UInt8} (h : octets.length = 4) :
    ipv4Octets (.ofNat 32 (bigEndian octets)) = octets := by
  have hlt := bigEndian_lt octets
  rw [h] at hlt
  rw [ipv4Octets, BitVec.toNat_ofNat, Nat.mod_eq_of_lt (by omega), ← h, toBigEndian_bigEndian]

lemma ipv6Octets_bigEndian {octets : List UInt8} (h : octets.length = 16) :
    ipv6Octets (.ofNat 128 (bigEndian octets)) = octets := by
  have hlt := bigEndian_lt octets
  rw [h] at hlt
  rw [ipv6Octets, BitVec.toNat_ofNat, Nat.mod_eq_of_lt (by omega), ← h, toBigEndian_bigEndian]

end Yggstack.Library.Inet
