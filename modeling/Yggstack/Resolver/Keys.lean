import Yggstack.Library.InetText
import Yggstack.Resolver.Resolve

namespace Yggstack.Resolver

open Library Inet

def hexBytes : List Char → Option (List UInt8)
  | [] => some []
  | [_] => none
  | a :: b :: cs => do
    let high ← digit? 16 a
    let low ← digit? 16 b
    let bytes ← hexBytes cs
    return .ofNat (high * 16 + low) :: bytes

-- `hex::decode`: two digits of either case for each byte, and nothing else.
def Crates.DecodesHex (crates : Crates) : Prop :=
  ∀ cs bytes, crates.hexDecode cs = .ok bytes ↔ hexBytes cs = some bytes

def KeyLabel (cs : List Char) : Prop := cs.length = 64 ∧ ∀ c ∈ cs, (digit? 16 c).isSome

def RepeatsSuffix (front : List Char) : Prop :=
  ∃ key n, KeyLabel (lastLabel key) ∧
    front = key ++ (List.replicate (n + 1) nameMappingSuffix).flatten

structure ResolvesKey (crates : Crates) (front : List Char)
    (result : Except String (BitVec 128)) : Prop where
  accepted : (∃ ip, result = .ok ip) ↔ KeyLabel (lastLabel front)
  derived : KeyLabel (lastLabel front) → ∃ bytes, bytes.length = 32 ∧
    hexBytes (lastLabel front) = some bytes ∧ result = .ok (crates.addrForKey bytes)

section Hex

variable {cs : List Char} {bytes : List UInt8}

lemma length_hexBytes (h : hexBytes cs = some bytes) : cs.length = 2 * bytes.length := by
  induction cs using hexBytes.induct generalizing bytes with
  | case1 =>
    cases h
    rfl
  | case2 c => cases h
  | case3 a b cs ih =>
    obtain ⟨high, -, h⟩ := Option.bind_eq_some_iff.mp h
    obtain ⟨low, -, h⟩ := Option.bind_eq_some_iff.mp h
    obtain ⟨rest, hrest, h⟩ := Option.bind_eq_some_iff.mp h
    cases h
    simp only [List.length_cons, ih hrest]
    omega

lemma digits_of_hexBytes (h : hexBytes cs = some bytes) : ∀ c ∈ cs, (digit? 16 c).isSome := by
  induction cs using hexBytes.induct generalizing bytes with
  | case1 => simp
  | case2 c => cases h
  | case3 a b cs ih =>
    obtain ⟨high, hhigh, h⟩ := Option.bind_eq_some_iff.mp h
    obtain ⟨low, hlow, h⟩ := Option.bind_eq_some_iff.mp h
    obtain ⟨rest, hrest, h⟩ := Option.bind_eq_some_iff.mp h
    rw [List.forall_mem_cons, List.forall_mem_cons, hhigh, hlow]
    exact ⟨rfl, rfl, ih hrest⟩

lemma hexBytes_of_digits {n : ℕ} (hlen : cs.length = 2 * n)
    (h : ∀ c ∈ cs, (digit? 16 c).isSome) : ∃ bytes, hexBytes cs = some bytes := by
  induction cs using hexBytes.induct generalizing n with
  | case1 => exact ⟨[], rfl⟩
  | case2 c =>
    rw [List.length_singleton] at hlen
    omega
  | case3 a b cs ih =>
    rw [List.forall_mem_cons, List.forall_mem_cons] at h
    obtain ⟨high, hhigh⟩ := Option.isSome_iff_exists.mp h.1
    obtain ⟨low, hlow⟩ := Option.isSome_iff_exists.mp h.2.1
    have htail : cs.length = 2 * (n - 1) := by
      simp only [List.length_cons] at hlen
      omega
    obtain ⟨rest, hrest⟩ := ih htail h.2.2
    exact ⟨_, by rw [hexBytes, hhigh, hlow, hrest]; rfl⟩

lemma keyLabel_iff : KeyLabel cs ↔ ∃ bytes, bytes.length = 32 ∧ hexBytes cs = some bytes := by
  constructor
  · rintro ⟨hlen, hdigits⟩
    obtain ⟨bytes, hbytes⟩ := hexBytes_of_digits (n := 32) hlen hdigits
    have := length_hexBytes hbytes
    exact ⟨bytes, by omega, hbytes⟩
  · rintro ⟨bytes, hlen, hbytes⟩
    have := length_hexBytes hbytes
    exact ⟨by omega, digits_of_hexBytes hbytes⟩

end Hex

section Suffix

variable {crates : Crates} {front : List Char} {name : String}

lemma nameMappingSuffix_ne_nil : nameMappingSuffix ≠ [] := by decide

lemma lastLabel_append_suffix (cs : List Char) :
    lastLabel (cs ++ nameMappingSuffix) = ['y', 'g', 'g'] := by
  rw [lastLabel, List.rtakeWhile, List.reverse_append]
  rfl

lemma not_keyLabel_suffix {cs : List Char} (h : nameMappingSuffix <:+ cs) :
    ¬KeyLabel (lastLabel cs) := by
  obtain ⟨left, rfl⟩ := h
  rw [lastLabel_append_suffix]
  rintro ⟨hlen, -⟩
  exact absurd hlen (by decide)

def keyOf (front : List Char) : List Char := lastLabel (trimEndMatches nameMappingSuffix front)

lemma resolve_key (h : name.toList = front ++ nameMappingSuffix) (r : NameResolver)
    (around : Surroundings) :
    (r.resolve name around crates).1 = resolveKey crates (front ++ nameMappingSuffix) := by
  have hnone : parseIpv6 name = none := by
    cases hp : parseIpv6 name with
    | none => rfl
    | some ip =>
      have hmem : 'p' ∈ nameMappingSuffix := by decide
      have hchar := addressChar_of_parseIpv6 hp 'p' (by rw [h]; exact List.mem_append_right front hmem)
      rcases hchar with hdigit | hcolon | hdot
      · exact absurd hdigit (by decide)
      · exact absurd hcolon (by decide)
      · exact absurd hdot (by decide)
  have hsuffix : nameMappingSuffix <:+ name.toList := by
    rw [h]
    exact List.suffix_append _ _
  rw [NameResolver.resolve, hnone]
  simp only [if_pos hsuffix]
  rw [h]

lemma resolveKey_ok_iff (hex : crates.DecodesHex) (front : List Char) (ip : BitVec 128) :
    resolveKey crates (front ++ nameMappingSuffix) = .ok ip ↔
      ∃ bytes, bytes.length = 32 ∧ hexBytes (keyOf front) = some bytes ∧
        ip = crates.addrForKey bytes := by
  rw [resolveKey, trimEndMatches_append nameMappingSuffix_ne_nil, ← keyOf]
  cases hd : crates.hexDecode (keyOf front) with
  | error e =>
    constructor
    · intro h
      cases h
    · rintro ⟨bytes, -, hbytes, -⟩
      rw [(hex _ _).mpr hbytes] at hd
      cases hd
  | ok bytes =>
    have hbytes := (hex _ _).mp hd
    constructor
    · intro h
      simp only at h
      split at h
      · cases h
      · next hlen =>
        cases h
        exact ⟨bytes, not_not.mp hlen, hbytes, rfl⟩
    · rintro ⟨found, hlen, hfound, rfl⟩
      rw [hbytes] at hfound
      cases hfound
      simp only [hlen, ne_eq, not_true_eq_false, if_false]

lemma repeatsSuffix_iff :
    RepeatsSuffix front ↔ nameMappingSuffix <:+ front ∧ KeyLabel (keyOf front) := by
  constructor
  · rintro ⟨key, n, hkey, rfl⟩
    have hend : ¬nameMappingSuffix <:+ key := fun hs => not_keyLabel_suffix hs hkey
    refine ⟨?_, ?_⟩
    · rw [List.replicate_succ', List.flatten_concat, ← List.append_assoc]
      exact List.suffix_append _ _
    · rw [keyOf, trimEndMatches_replicate nameMappingSuffix_ne_nil, trimEndMatches_of_not_suffix hend]
      exact hkey
  · rintro ⟨hsuffix, hkey⟩
    obtain ⟨n, hn⟩ := eq_trimEndMatches_append nameMappingSuffix_ne_nil front
    cases n with
    | zero =>
      rw [List.replicate_zero, List.flatten_nil, List.append_nil] at hn
      rw [keyOf, ← hn] at hkey
      exact absurd hkey (not_keyLabel_suffix hsuffix)
    | succ n => exact ⟨_, n, hkey, hn⟩

lemma resolvesKey_iff (hex : crates.DecodesHex) (front : List Char) :
    ResolvesKey crates front (resolveKey crates (front ++ nameMappingSuffix)) ↔
      ¬RepeatsSuffix front := by
  rw [repeatsSuffix_iff]
  by_cases hsuffix : nameMappingSuffix <:+ front
  · have hno := not_keyLabel_suffix hsuffix
    constructor
    · rintro h ⟨-, hkey⟩
      obtain ⟨bytes, hlen, hbytes⟩ := keyLabel_iff.mp hkey
      exact hno (h.accepted.mp ⟨_, (resolveKey_ok_iff hex front _).mpr ⟨bytes, hlen, hbytes, rfl⟩⟩)
    · intro h
      refine ⟨⟨?_, fun hkey => absurd hkey hno⟩, fun hkey => absurd hkey hno⟩
      rintro ⟨ip, hip⟩
      obtain ⟨bytes, hlen, hbytes, -⟩ := (resolveKey_ok_iff hex front ip).mp hip
      exact absurd ⟨hsuffix, keyLabel_iff.mpr ⟨bytes, hlen, hbytes⟩⟩ h
  · have hkey : keyOf front = lastLabel front := by
      rw [keyOf, trimEndMatches_of_not_suffix hsuffix]
    have hok := resolveKey_ok_iff hex front
    rw [hkey] at hok
    refine iff_of_true ⟨?_, ?_⟩ fun h => hsuffix h.1
    · rw [keyLabel_iff]
      constructor
      · rintro ⟨ip, hip⟩
        obtain ⟨bytes, hlen, hbytes, -⟩ := (hok ip).mp hip
        exact ⟨bytes, hlen, hbytes⟩
      · rintro ⟨bytes, hlen, hbytes⟩
        exact ⟨_, (hok _).mpr ⟨bytes, hlen, hbytes, rfl⟩⟩
    · intro hlabel
      obtain ⟨bytes, hlen, hbytes⟩ := keyLabel_iff.mp hlabel
      exact ⟨bytes, hlen, hbytes, (hok _).mpr ⟨bytes, hlen, hbytes, rfl⟩⟩

end Suffix

/-- A name with the suffix stands for the key in the label before it, unless the suffix comes again
behind a key. -/
theorem key_name_resolves_iff (crates : Crates) (hex : crates.DecodesHex) (r : NameResolver)
    (around : Surroundings) (name : String) (front : List Char)
    (hname : name.toList = front ++ nameMappingSuffix) :
    ResolvesKey crates front (r.resolve name around crates).1 ↔ ¬RepeatsSuffix front := by
  rw [resolve_key hname]
  exact resolvesKey_iff hex front

-- The two functions as the crates have them: the address is a prefix, the number of leading ones of
-- the complement of the key, and the whole bytes behind the first zero.
def plainCrates : Crates where
  hexDecode cs :=
    match hexBytes cs with
    | some bytes => .ok bytes
    | none => .error "Odd number of digits"
  addrForKey key :=
    let bits := key.flatMap fun b => (List.range 8).map fun i => !b.toNat.testBit (7 - i)
    let ones := (bits.takeWhile id).length
    let rest := bits.drop (ones + 1)
    let used := rest.take (min 112 (rest.length / 8 * 8))
    .ofNat 128 (used.foldl (fun n b => n * 2 + b.toNat) (0x0200 + ones % 256) <<< (112 - used.length))

lemma plainCrates_decodesHex : plainCrates.DecodesHex := by
  intro cs bytes
  simp only [plainCrates]
  cases hexBytes cs with
  | none => simp
  | some found => simp

def keyDigits : List Char := List.replicate 64 'f'

lemma keyLabel_keyDigits : KeyLabel (lastLabel keyDigits) := by
  have hlast : lastLabel keyDigits = keyDigits := by decide
  rw [hlast, keyDigits]
  refine ⟨List.length_replicate, ?_⟩
  intro c hc
  rw [List.eq_of_mem_replicate hc]
  decide

def noServers : NameResolver := ⟨[], none, by simp, by simp⟩

def silence : Surroundings where
  trips _ :=
    { first := ⟨.ok (), .ok (), none⟩
      retry := ⟨.ok (), .ok (), none⟩
      tcp := ⟨.error "refused", .ok (), [], "early eof"⟩ }
  late _ := false
  now := 0
  clock _ := 0

theorem key_digits_resolve :
    (noServers.resolve (String.ofList (keyDigits ++ nameMappingSuffix)) silence plainCrates).1 =
      .ok (plainCrates.addrForKey (List.replicate 32 0xff)) := by
  have honce : ¬RepeatsSuffix keyDigits := by
    rw [repeatsSuffix_iff]
    rintro ⟨hsuffix, -⟩
    revert hsuffix
    decide
  have hresolves := (key_name_resolves_iff plainCrates plainCrates_decodesHex noServers silence
    (String.ofList (keyDigits ++ nameMappingSuffix)) keyDigits String.toList_ofList).mpr honce
  obtain ⟨bytes, -, hbytes, hresult⟩ := hresolves.derived keyLabel_keyDigits
  have hff : hexBytes (lastLabel keyDigits) = some (List.replicate 32 0xff) := by rfl
  rw [hff] at hbytes
  cases hbytes
  exact hresult

theorem repeated_suffix_resolves :
    KeyLabel (lastLabel keyDigits) ∧ ¬KeyLabel (lastLabel (keyDigits ++ nameMappingSuffix)) ∧
      ∃ ip, (noServers.resolve (String.ofList
        (keyDigits ++ nameMappingSuffix ++ nameMappingSuffix)) silence plainCrates).1 = .ok ip := by
  refine ⟨keyLabel_keyDigits, not_keyLabel_suffix (List.suffix_append _ _), ?_⟩
  have hkey : keyOf (keyDigits ++ nameMappingSuffix) = lastLabel keyDigits := by
    rw [keyOf, trimEndMatches_append nameMappingSuffix_ne_nil, trimEndMatches_of_not_suffix (by decide)]
  obtain ⟨bytes, hlen, hbytes⟩ := keyLabel_iff.mp keyLabel_keyDigits
  rw [resolve_key String.toList_ofList]
  exact ⟨_, (resolveKey_ok_iff plainCrates_decodesHex _ _).mpr ⟨bytes, hlen, by rw [hkey, hbytes], rfl⟩⟩

end Yggstack.Resolver
