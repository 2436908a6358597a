import Yggstack.Forward.Specs
import Yggstack.Http.Head
import Yggstack.Library.InetExact

namespace Yggstack.Http

open Library Inet
open Forward (rsplitOnce parsePort rsplitOnce_append rsplitOnce_eq_none)

structure Decimal (digits : List Char) : Prop where
  ne_nil : digits ≠ []
  digit : ∀ c ∈ digits, (digit? 10 c).isSome
  lt : number 10 digits < 65536

def portOf (digits : List Char) : UInt16 := .ofNat (number 10 digits)

section Ports

variable {digits cs : List Char} {port : UInt16}

lemma not_digit_of_mem {c d : Char} (hc : (digit? 10 c).isSome) (hd : digit? 10 d = none) :
    c ≠ d := by
  rintro rfl
  rw [hd] at hc
  cases hc

lemma Decimal.not_mem (h : Decimal digits) {d : Char} (hd : digit? 10 d = none) : d ∉ digits :=
  fun hmem => not_digit_of_mem (h.digit d hmem) hd rfl

def unsigned : List Char → List Char
  | '+' :: cs => cs
  | cs => cs

lemma unsigned_of_ne {c : Char} (h : c ≠ '+') (cs : List Char) : unsigned (c :: cs) = c :: cs := by
  simp [unsigned, h]

lemma parsePort_eq_some_iff :
    parsePort cs = some port ↔ Decimal (unsigned cs) ∧ port = portOf (unsigned cs) := by
  rw [parsePort, parseU16_eq, String.toList_ofList, Option.map_eq_some_iff]
  constructor
  · rintro ⟨n, hn, rfl⟩
    obtain ⟨hnum, hlt⟩ := parseUnsigned_eq_some_iff.mp hn
    obtain rfl := hnum.value
    exact ⟨⟨hnum.ne_nil, hnum.digit, hlt⟩, rfl⟩
  · rintro ⟨hdec, rfl⟩
    exact ⟨_, parseUnsigned_eq_some_iff.mpr ⟨⟨hdec.ne_nil, hdec.digit, rfl⟩, hdec.lt⟩, rfl⟩

lemma Decimal.unsigned_eq (h : Decimal digits) : unsigned digits = digits := by
  cases digits with
  | nil => rfl
  | cons c cs =>
    apply unsigned_of_ne
    exact not_digit_of_mem (h.digit c List.mem_cons_self) (by decide)

lemma parsePort_decimal (h : Decimal digits) : parsePort digits = some (portOf digits) := by
  rw [parsePort_eq_some_iff, h.unsigned_eq]
  exact ⟨h, rfl⟩

end Ports

section Splitting

variable {host after digits authority : List Char} {default port : UInt16}

lemma takeWhile_bracket (h : ']' ∉ host) (after : List Char) :
    (host ++ ']' :: after).takeWhile (· ≠ ']') = host := by
  have hne : ∀ c ∈ host, decide (c ≠ ']') = true := by
    intro c hc
    simpa using fun he : c = ']' => h (by rwa [he] at hc)
  rw [List.takeWhile_append_of_pos hne]
  simp

def portAfter (after : List Char) (default : UInt16) : Option UInt16 :=
  match after with
  | ':' :: p => parsePort p
  | _ => some default

lemma splitAuthority_bracketed (h : ']' ∉ host) (after : List Char) (default : UInt16) :
    splitAuthority ('[' :: (host ++ ']' :: after)) default =
      (portAfter after default).map fun port => (host, port) := by
  have hdrop : (host ++ ']' :: after).drop (host.length + 1) = after := by
    rw [List.append_cons]
    exact List.drop_left' (by simp)
  rw [splitAuthority]
  simp only [takeWhile_bracket h, hdrop, if_pos (show ']' ∈ host ++ ']' :: after by simp)]
  cases after with
  | nil => rfl
  | cons c cs =>
    by_cases hc : c = ':'
    · subst hc
      cases hp : parsePort cs with
      | none => simp [portAfter, hp]
      | some port => simp [portAfter, hp]
    · simp [portAfter, hc]

lemma splitAuthority_plain (h : authority.head? ≠ some '[') (default : UInt16) :
    splitAuthority authority default =
      match rsplitOnce ':' authority with
      | some (host, port) => (parsePort port).map fun p => (host, p)
      | none => some (authority, default) := by
  cases authority with
  | nil => rfl
  | cons c cs =>
    have hc : c ≠ '[' := by simpa using h
    rw [splitAuthority]
    · cases rsplitOnce ':' (c :: cs) with
      | none => rfl
      | some p =>
        cases hp : parsePort p.2 with
        | none => simp [hp]
        | some port => simp [hp]
    · rintro rest ⟨⟩
      exact hc rfl

end Splitting

section AbsoluteTargets

inductive HostText where
  | plain (name : List Char)
    (valid : ∀ c ∈ name, c ≠ ':' ∧ c ≠ '/' ∧ c ≠ '?' ∧ c ≠ '[' ∧ c ≠ ']')
  | literal (text : List Char) (valid : (parseWith readIpv6 text).isSome)

def HostText.bare : HostText → List Char
  | .plain name _ => name
  | .literal text _ => text

def HostText.text : HostText → List Char
  | .plain name _ => name
  | .literal text _ => '[' :: (text ++ [']'])

structure AbsoluteTarget where
  host : HostText
  port : Option {digits : List Char // Decimal digits}
  path : List Char
  path_start : path = [] ∨ path.head? = some '/'
  query : Option (List Char)

namespace AbsoluteTarget

variable (a : AbsoluteTarget)

def portText : List Char :=
  match a.port with
  | none => []
  | some digits => ':' :: digits.val

def queryText : List Char :=
  match a.query with
  | none => []
  | some query => '?' :: query

def authority : List Char := a.host.text ++ a.portText

def text : List Char := "http://".toList ++ (a.authority ++ (a.path ++ a.queryText))

def portNumber : UInt16 :=
  match a.port with
  | none => 80
  | some digits => portOf digits.val

def originForm : List Char := (if a.path = [] then ['/'] else a.path) ++ a.queryText

end AbsoluteTarget

def RoutedAsWritten (a : AbsoluteTarget) (result : Except IoError ForwardTarget) : Prop :=
  ∃ authority, result = .ok ⟨a.host.bare, a.portNumber, a.originForm, authority⟩

variable {a : AbsoluteTarget}

lemma not_mem_literal {text : List Char} (h : (parseWith readIpv6 text).isSome) {d : Char}
    (hd : ¬addressChar d) : d ∉ text := by
  obtain ⟨ip, hip⟩ := Option.isSome_iff_exists.mp h
  intro hmem
  have hparse : parseIpv6 (String.ofList text) = some ip := by
    rw [parseIpv6, String.toList_ofList, hip]
  exact hd (addressChar_of_parseIpv6 hparse d (by rwa [String.toList_ofList]))

lemma not_addressChar_slash : ¬addressChar '/' := by
  rintro (h | h | h) <;> revert h <;> decide

lemma not_addressChar_bracket : ¬addressChar ']' := by
  rintro (h | h | h) <;> revert h <;> decide

lemma AbsoluteTarget.slash_not_mem (a : AbsoluteTarget) : '/' ∉ a.authority := by
  intro h
  rcases List.mem_append.mp h with h | h
  · cases hhost : a.host with
    | plain name valid =>
      rw [hhost] at h
      exact (valid '/' h).2.1 rfl
    | literal text valid =>
      rw [hhost] at h
      simp only [HostText.text, List.mem_cons, List.mem_append, List.not_mem_nil, or_false] at h
      rcases h with h | h | h
      · exact absurd h (by decide)
      · exact not_mem_literal valid not_addressChar_slash h
      · exact absurd h (by decide)
  · rw [AbsoluteTarget.portText] at h
    split at h
    · cases h
    · next digits _ =>
      rcases List.mem_cons.mp h with h | h
      · exact absurd h (by decide)
      · exact digits.property.not_mem (by decide) h

lemma AbsoluteTarget.splitAuthority_eq (a : AbsoluteTarget) :
    splitAuthority a.authority 80 = some (a.host.bare, a.portNumber) := by
  rw [authority, portText, portNumber]
  cases a.host with
  | plain name valid =>
    have hcolon : ':' ∉ name := fun h => (valid ':' h).1 rfl
    have hhead : name.head? ≠ some '[' := by
      intro h
      exact (valid '[' (List.mem_of_mem_head? h)).2.2.2.1 rfl
    cases a.port with
    | none =>
      simp only [HostText.text, List.append_nil]
      rw [splitAuthority_plain hhead, rsplitOnce_eq_none hcolon]
      rfl
    | some digits =>
      have hfront : (name ++ ':' :: digits.val).head? ≠ some '[' := by
        cases name with
        | nil => simp
        | cons c cs => exact hhead
      simp only [HostText.text]
      rw [splitAuthority_plain hfront, rsplitOnce_append name (digits.property.not_mem (by decide))]
      simp only [parsePort_decimal digits.property]
      rfl
  | literal text valid =>
    have hbracket := not_mem_literal valid not_addressChar_bracket
    have htext : ∀ after, HostText.text (.literal text valid) ++ after =
        '[' :: (text ++ ']' :: after) := by
      intro after
      simp [HostText.text]
    rw [htext, splitAuthority_bracketed hbracket]
    cases a.port with
    | none => rfl
    | some digits => simp [portAfter, parsePort_decimal digits.property, HostText.bare]

def cutAbsolute (rest : List Char) : List Char × List Char :=
  if '/' ∈ rest then (rest.takeWhile (· ≠ '/'), rest.dropWhile (· ≠ '/')) else (rest, ['/'])

lemma forwardTarget_absolute (req : Request) (rest : List Char) :
    forwardTarget { req with target := "http://".toList ++ rest } =
      match splitAuthority (cutAbsolute rest).1 80 with
      | none => .error .badUriAuthority
      | some (host, port) =>
        .ok { host, port, originForm := (cutAbsolute rest).2, authority := (cutAbsolute rest).1 } := by
  have hscheme : "http://".toList.isPrefixOf ("http://".toList ++ rest) = true := by simp
  rw [forwardTarget]
  simp only [hscheme, if_true]
  rw [show ("http://".toList ++ rest).drop "http://".length = rest from List.drop_left' (by decide)]
  rfl

lemma cutAbsolute_slash {front : List Char} (h : '/' ∉ front) (rest : List Char) :
    cutAbsolute (front ++ '/' :: rest) = (front, '/' :: rest) := by
  have hne : ∀ c ∈ front, decide (c ≠ '/') = true := by
    intro c hc
    simpa using fun he : c = '/' => h (by rwa [he] at hc)
  rw [cutAbsolute, if_pos (by simp), List.takeWhile_append_of_pos hne,
    List.dropWhile_append_of_pos hne]
  simp

lemma length_cutAbsolute_query {front query : List Char} (h : '/' ∉ front) :
    (cutAbsolute (front ++ '?' :: query)).2.length < query.length + 2 := by
  have hne : ∀ c ∈ front ++ ['?'], decide (c ≠ '/') = true := by
    intro c hc
    rcases List.mem_append.mp hc with hc | hc
    · simpa using fun he : c = '/' => h (by rwa [he] at hc)
    · rw [List.mem_singleton.mp hc]
      decide
  rw [cutAbsolute]
  split
  · have hle := (List.dropWhile_suffix (l := query) (· ≠ '/')).length_le
    rw [List.append_cons, List.dropWhile_append_of_pos hne]
    exact lt_of_le_of_lt hle (by omega)
  · simp

lemma routed_of_cut (req : Request)
    (h : cutAbsolute (a.authority ++ (a.path ++ a.queryText)) = (a.authority, a.originForm)) :
    RoutedAsWritten a (forwardTarget { req with target := a.text }) := by
  have habsolute : forwardTarget { req with target := a.text } = _ :=
    forwardTarget_absolute req (a.authority ++ (a.path ++ a.queryText))
  rw [h, a.splitAuthority_eq] at habsolute
  exact ⟨a.authority, habsolute⟩

lemma not_routed_of_query (req : Request) {query : List Char} (hnil : a.path = [])
    (hquery : a.query = some query) :
    ¬RoutedAsWritten a (forwardTarget { req with target := a.text }) := by
  rintro ⟨authority, hrouted⟩
  have hrest : a.authority ++ (a.path ++ a.queryText) = a.authority ++ '?' :: query := by
    rw [hnil, List.nil_append, AbsoluteTarget.queryText, hquery]
  have hlen : (cutAbsolute (a.authority ++ '?' :: query)).2.length < query.length + 2 :=
    length_cutAbsolute_query a.slash_not_mem
  have habsolute : forwardTarget { req with target := a.text } = _ :=
    forwardTarget_absolute req (a.authority ++ (a.path ++ a.queryText))
  rw [hrouted, hrest] at habsolute
  split at habsolute
  · cases habsolute
  · have hform := congrArg ForwardTarget.originForm (Except.ok.inj habsolute)
    simp only [AbsoluteTarget.originForm, if_pos hnil, AbsoluteTarget.queryText, hquery] at hform
    rw [← hform] at hlen
    simp at hlen

lemma cutAbsolute_path (h : a.path ≠ []) :
    cutAbsolute (a.authority ++ (a.path ++ a.queryText)) = (a.authority, a.originForm) := by
  obtain ⟨path, hpath⟩ : ∃ path, a.path = '/' :: path := by
    cases hp : a.path with
    | nil => exact absurd hp h
    | cons c path =>
      rcases a.path_start with hnil | hstart
      · exact absurd hnil h
      · rw [hp] at hstart
        exact ⟨path, by rw [Option.some.inj hstart]⟩
  rw [AbsoluteTarget.originForm, if_neg h, hpath]
  exact cutAbsolute_slash a.slash_not_mem (path ++ a.queryText)

lemma cutAbsolute_bare (hnil : a.path = []) (hquery : a.query = none) :
    cutAbsolute (a.authority ++ (a.path ++ a.queryText)) = (a.authority, a.originForm) := by
  rw [AbsoluteTarget.originForm, AbsoluteTarget.queryText, hquery, if_pos hnil, hnil,
    List.append_nil, List.append_nil, cutAbsolute, if_neg a.slash_not_mem, List.append_nil]

/-- An absolute target is routed as it is written, unless a query follows the authority at once. -/
theorem absolute_target_routed_iff (req : Request) (a : AbsoluteTarget) :
    RoutedAsWritten a (forwardTarget { req with target := a.text }) ↔
      a.path ≠ [] ∨ a.query = none := by
  by_cases hnil : a.path = []
  · cases hquery : a.query with
    | none => exact iff_of_true (routed_of_cut req (cutAbsolute_bare hnil hquery)) (.inr rfl)
    | some query => exact iff_of_false (not_routed_of_query req hnil hquery) (by simp [hnil])
  · exact iff_of_true (routed_of_cut req (cutAbsolute_path hnil)) (.inl hnil)

def bareQuery : AbsoluteTarget where
  host := .plain ['h'] (by simp)
  port := none
  path := []
  path_start := .inl rfl
  query := some ['q']

theorem query_taken_for_authority :
    bareQuery.text = "http://h?q".toList ∧
      forwardTarget ⟨"GET".toList, bareQuery.text, "HTTP/1.1".toList, []⟩ =
        .ok ⟨"h?q".toList, 80, "/".toList, "h?q".toList⟩ ∧
      ¬RoutedAsWritten bareQuery
        (forwardTarget ⟨"GET".toList, bareQuery.text, "HTTP/1.1".toList, []⟩) :=
  ⟨by decide, by decide,
    not_routed_of_query ⟨"GET".toList, [], "HTTP/1.1".toList, []⟩ rfl rfl⟩

end AbsoluteTargets

section Losses

variable {host after digits front : List Char} {authority : List Char} {default port : UInt16}

inductive Spells (default : UInt16) (host : List Char) (port : UInt16) : List Char → Prop
  | bare : port = default → Spells default host port host
  | bracketed : port = default → Spells default host port ('[' :: (host ++ [']']))
  | withPort {digits : List Char} : Decimal digits → port = portOf digits →
      Spells default host port (host ++ ':' :: digits)
  | bracketedPort {digits : List Char} : Decimal digits → port = portOf digits →
      Spells default host port ('[' :: (host ++ ']' :: ':' :: digits))

def EndsHost (front : List Char) : Prop :=
  (∃ host, ']' ∉ host ∧ front = '[' :: (host ++ [']'])) ∨ (front ++ [':']).head? ≠ some '['

inductive Ignored : List Char → Prop
  | trailing {host after : List Char} : ']' ∉ host → after ≠ [] → after.head? ≠ some ':' →
      Ignored ('[' :: (host ++ ']' :: after))
  | sign {front digits : List Char} : EndsHost front → Decimal digits →
      Ignored (front ++ ':' :: '+' :: digits)

lemma eq_of_cons_append {x y : Char} {cs ds : List Char} (h : x :: (host ++ cs) = host ++ y :: ds) :
    x = y := by
  induction host generalizing x with
  | nil => exact (List.cons.inj h).1
  | cons c host ih =>
    obtain ⟨rfl, htail⟩ := List.cons.inj h
    exact ih htail

lemma after_of_spells (h : Spells default host port ('[' :: (host ++ ']' :: after))) :
    after = [] ∨ ∃ digits, Decimal digits ∧ after = ':' :: digits := by
  generalize ha : '[' :: (host ++ ']' :: after) = authority at h
  cases h with
  | bare _ =>
    have hlen := congrArg List.length ha
    simp at hlen
    omega
  | bracketed _ =>
    have htail := List.append_cancel_left (List.cons.inj ha).2
    exact .inl (List.cons.inj htail).2
  | withPort _ _ => exact absurd (eq_of_cons_append ha) (by decide)
  | @bracketedPort digits hdec _ =>
    have htail := List.append_cancel_left (List.cons.inj ha).2
    exact .inr ⟨digits, hdec, (List.cons.inj htail).2⟩

lemma digits_of_spells (hhead : (host ++ [':']).head? ≠ some '[')
    (h : Spells default host port (host ++ ':' :: after)) : Decimal after := by
  have hopen : ∀ cs, host ++ ':' :: after ≠ '[' :: cs := by
    intro cs hcs
    apply hhead
    cases host with
    | nil => exact absurd (List.cons.inj hcs).1 (by decide)
    | cons c host => rw [(List.cons.inj hcs).1, List.cons_append, List.head?_cons]
  generalize ha : host ++ ':' :: after = authority at h
  cases h with
  | bare _ =>
    have hlen := congrArg List.length ha
    simp at hlen
  | bracketed _ => exact absurd ha (hopen _)
  | withPort hdec _ =>
    have htail := List.append_cancel_left ha
    rwa [(List.cons.inj htail).2]
  | bracketedPort _ _ => exact absurd ha (hopen _)

lemma not_decimal_sign : ¬Decimal ('+' :: digits) :=
  fun h => h.not_mem (by decide) List.mem_cons_self

lemma parsePort_sign (h : Decimal digits) : parsePort ('+' :: digits) = some (portOf digits) :=
  parsePort_eq_some_iff.mpr ⟨h, rfl⟩

lemma parsePort_cases {cs : List Char} (h : parsePort cs = some port) :
    (Decimal cs ∧ port = portOf cs) ∨ ∃ digits, Decimal digits ∧ cs = '+' :: digits := by
  obtain ⟨hdec, hport⟩ := parsePort_eq_some_iff.mp h
  cases cs with
  | nil => exact .inl ⟨hdec, hport⟩
  | cons c cs =>
    by_cases hc : c = '+'
    · subst hc
      exact .inr ⟨cs, hdec, rfl⟩
    · rw [unsigned_of_ne hc] at hdec hport
      exact .inl ⟨hdec, hport⟩

lemma splitAuthority_port (hhead : (host ++ [':']).head? ≠ some '[') (hcolon : ':' ∉ after)
    (default : UInt16) :
    splitAuthority (host ++ ':' :: after) default = (parsePort after).map fun p => (host, p) := by
  have hplain : (host ++ ':' :: after).head? ≠ some '[' := by
    cases host with
    | nil => exact hhead
    | cons c cs => exact hhead
  rw [splitAuthority_plain hplain, rsplitOnce_append host hcolon]

lemma exists_last_colon (h : ':' ∈ authority) :
    ∃ front after, authority = front ++ ':' :: after ∧ ':' ∉ after := by
  obtain ⟨xs, ys, hrev, hxs⟩ := List.eq_append_cons_of_mem (List.mem_reverse.mpr h)
  refine ⟨ys.reverse, xs.reverse, ?_, by rwa [List.mem_reverse]⟩
  have hflip := congrArg List.reverse hrev
  simpa using hflip

lemma not_spells_of_ignored (h : Ignored authority) (default : UInt16) :
    ∃ host port, splitAuthority authority default = some (host, port) ∧
      ¬Spells default host port authority := by
  cases h with
  | @trailing host after hbracket hne hcolon =>
    have hport : portAfter after default = some default := by
      cases after with
      | nil => rfl
      | cons c cs =>
        have hc : c ≠ ':' := by simpa using hcolon
        simp [portAfter, hc]
    refine ⟨host, default, by rw [splitAuthority_bracketed hbracket, hport]; rfl, ?_⟩
    intro hspells
    rcases after_of_spells hspells with rfl | ⟨digits, -, rfl⟩
    · exact hne rfl
    · exact hcolon rfl
  | @sign front digits hfront hdec =>
    have hcolon : ':' ∉ '+' :: digits := by
      intro hmem
      rcases List.mem_cons.mp hmem with hc | hc
      · exact absurd hc (by decide)
      · exact hdec.not_mem (by decide) hc
    rcases hfront with ⟨host, hbracket, rfl⟩ | hhead
    · have happend : '[' :: (host ++ [']']) ++ ':' :: '+' :: digits =
          '[' :: (host ++ ']' :: ':' :: '+' :: digits) := by simp
      rw [happend]
      refine ⟨host, portOf digits, ?_, ?_⟩
      · rw [splitAuthority_bracketed hbracket, portAfter, parsePort_sign hdec]
        rfl
      · intro hspells
        rcases after_of_spells hspells with hnil | ⟨ds, hds, heq⟩
        · cases hnil
        · cases heq
          exact not_decimal_sign hds
    · refine ⟨front, portOf digits, ?_, ?_⟩
      · rw [splitAuthority_port hhead hcolon, parsePort_sign hdec]
        rfl
      · intro hspells
        exact not_decimal_sign (digits_of_spells hhead hspells)

lemma spells_bracketed (hbracket : ']' ∉ host) (hkept : ¬Ignored ('[' :: (host ++ ']' :: after)))
    (h : portAfter after default = some port) :
    Spells default host port ('[' :: (host ++ ']' :: after)) := by
  cases after with
  | nil =>
    cases h
    exact .bracketed rfl
  | cons c cs =>
    by_cases hc : c = ':'
    · subst hc
      rcases parsePort_cases h with ⟨hdec, hport⟩ | ⟨digits, hdec, rfl⟩
      · exact .bracketedPort hdec hport
      · have hsign := Ignored.sign (.inl ⟨host, hbracket, rfl⟩) hdec
        simp only [List.cons_append, List.append_assoc, List.nil_append] at hsign
        exact absurd hsign hkept
    · exact absurd (.trailing hbracket (by simp) (by simpa using hc)) hkept

lemma spells_plain (hhead : authority.head? ≠ some '[') (hkept : ¬Ignored authority)
    (h : splitAuthority authority default = some (host, port)) :
    Spells default host port authority := by
  by_cases hcolon : ':' ∈ authority
  · obtain ⟨front, after, rfl, hafter⟩ := exists_last_colon hcolon
    have hfront : (front ++ [':']).head? ≠ some '[' := by
      cases front with
      | nil => exact hhead
      | cons c cs => exact hhead
    rw [splitAuthority_port hfront hafter] at h
    obtain ⟨p, hp, he⟩ := Option.map_eq_some_iff.mp h
    cases he
    rcases parsePort_cases hp with ⟨hdec, hport⟩ | ⟨digits, hdec, rfl⟩
    · exact .withPort hdec hport
    · exact absurd (.sign (.inr hfront) hdec) hkept
  · rw [splitAuthority_plain hhead, rsplitOnce_eq_none hcolon] at h
    cases h
    exact .bare rfl

/-- What is accepted is spelled out by host and port, unless something follows a bracket or a sign
stands in front of the port. -/
theorem authority_spelled_iff (authority : List Char) (default : UInt16) :
    (∀ host port, splitAuthority authority default = some (host, port) →
      Spells default host port authority) ↔ ¬Ignored authority := by
  constructor
  · intro hspells hignored
    obtain ⟨host, port, hsplit, hno⟩ := not_spells_of_ignored hignored default
    exact hno (hspells host port hsplit)
  · intro hkept host port hsplit
    by_cases hhead : authority.head? = some '['
    · obtain ⟨rest, rfl⟩ := List.head?_eq_some_iff.mp hhead
      by_cases hbracket : ']' ∈ rest
      · obtain ⟨front, after, rfl, hfront⟩ := List.eq_append_cons_of_mem hbracket
        rw [splitAuthority_bracketed hfront] at hsplit
        obtain ⟨p, hp, he⟩ := Option.map_eq_some_iff.mp hsplit
        cases he
        exact spells_bracketed hfront hkept hp
      · rw [splitAuthority, if_neg hbracket] at hsplit
        cases hsplit
    · exact spells_plain hhead hkept hsplit

theorem text_behind_bracket_ignored :
    splitAuthority "[::1]8080".toList 443 = some ("::1".toList, 443) ∧
      ¬Spells 443 "::1".toList 443 "[::1]8080".toList := by
  refine ⟨by decide, ?_⟩
  intro h
  have hbracketed : Spells 443 "::1".toList 443 ('[' :: ("::1".toList ++ ']' :: "8080".toList)) := h
  rcases after_of_spells hbracketed with hnil | ⟨digits, -, hdigits⟩
  · exact absurd hnil (by decide)
  · have hhead : "8080".toList.head? = some ':' := by
      rw [hdigits]
      rfl
    exact absurd hhead (by decide)

end Losses

end Yggstack.Http
