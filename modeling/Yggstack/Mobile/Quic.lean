import Yggstack.Forward.Specs
import Yggstack.Http.Padding
import Yggstack.Library.Sorting
import Yggstack.Library.Text

/-! The check of a QUIC peer: which server its URI names, which addresses are tried and in which
order, and what is reported. Times are in nanoseconds. -/

namespace Yggstack.Mobile

open Library Library.Inet
open Forward (rsplitOnce hostText rsplitOnce_append rsplitOnce_eq_none)
open Http (trim isWhitespace trimMatches_pad dropWhile_pad not_whitespace_of_addressChar ne_of_addressChar
  addressChar_showIpv6 range_of_addressChar)

def checkTimeout : ℕ := 5 * 10 ^ 9

def stripPrefix (pre cs : List Char) : Option (List Char) :=
  if pre <+: cs then some (cs.drop pre.length) else none

def quicScheme : List Char := "quic://".toList

def quicPort : List Char := ":443".toList

def bracketed : List Char → Option (List Char × List Char)
  | '[' :: cs => splitOnce ']' cs
  | _ => none

def parseTarget (uri : List Char) : Option (List Char) :=
  let rest := (stripPrefix quicScheme uri).getD uri
  let rest := trim (rest.takeWhile (· ≠ '?'))
  if rest = [] then none
  else
    match bracketed rest with
    | some (addr, after) =>
      let port := (stripPrefix [':'] after).filter (· ≠ [])
      some ('[' :: addr ++ ']' :: (port.map (':' :: ·)).getD quicPort)
    | none =>
      match rsplitOnce ':' rest with
      | some (_, port) =>
        if port ≠ [] ∧ port.all Char.isDigit then some rest else some (rest ++ quicPort)
      | none => some (rest ++ quicPort)

def serverName (target : List Char) : List Char :=
  let host := ((rsplitOnce ':' target).map Prod.fst).getD target
  Forward.trimEndMatches (· = ']') (host.dropWhile (· = '['))

def familyOf : IpAddr → ℕ
  | .v4 _ => 4
  | .v6 _ => 6

def bitsOf : IpAddr → ℕ
  | .v4 ip => ip.toNat
  | .v6 ip => ip.toNat

def socketOrder : SocketAddr → SocketAddr → Ordering :=
  compareLex (compareOn fun a => familyOf a.ip)
    (compareLex (compareOn fun a => bitsOf a.ip) (compareOn fun a => a.port.toNat))

def tried (addrs : List SocketAddr) : List SocketAddr :=
  (sortBy socketOrder addrs).destutter (· ≠ ·)

inductive Handshake where
  | bindFailed (e : String)
  | connectFailed (e : String)
  | failed (takes : ℕ) (e : String)
  | completed (takes : ℕ)
  | pending

structure QuicWorld where
  lookupHost : List Char → Option (ℕ × Except String (List SocketAddr))
  handshake : SocketAddr → Handshake

def connectLoop (handshake : SocketAddr → Handshake) :
    List SocketAddr → ℕ → String → Option (ℕ × Except String SocketAddr)
  | [], now, lastErr => some (now, .error lastErr)
  | addr :: addrs, now, _ =>
    match handshake addr with
    | .bindFailed e => some (now, .error ("bind: " ++ e))
    | .connectFailed e => connectLoop handshake addrs now ("connect: " ++ e)
    | .failed takes e => connectLoop handshake addrs (now + takes) ("handshake: " ++ e)
    | .completed takes => some (now + takes, .ok addr)
    | .pending => none

def connect (w : QuicWorld) (target : List Char) : Option (ℕ × Except String SocketAddr) :=
  match w.lookupHost target with
  | none => none
  | some (now, .error e) => some (now, .error ("resolve " ++ String.ofList target ++ ": " ++ e))
  | some (now, .ok addrs) =>
    if addrs = [] then some (now, .error "no address resolved")
    else connectLoop w.handshake (tried addrs) now "no address resolved"

def checkQuicRtt (w : QuicWorld) (uri : List Char) : ℤ :=
  match parseTarget uri with
  | none => -1
  | some target =>
    match connect w target with
    | some (time, .ok _) => if time ≤ checkTimeout then ((time / 10 ^ 6 : ℕ) : ℤ) else -1
    | _ => -1

section Targets

inductive QuicHost where
  | address (ip : IpAddr)
  | name (cs : List Char)

namespace QuicHost

def text : QuicHost → List Char
  | .address ip => (hostText ip).toList
  | .name cs => cs

def bare : QuicHost → List Char
  | .address ip => ip.display.toList
  | .name cs => cs

def nameChar (c : Char) : Bool :=
  !isWhitespace c && c != ':' && c != '?' && c != '[' && c != ']'

def Fits : QuicHost → Prop
  | .address _ => True
  | .name cs => cs ≠ [] ∧ ∀ c ∈ cs, nameChar c = true

end QuicHost

structure QuicUri where
  before : List Char
  host : QuicHost
  port : Option UInt16
  after : List Char
  query : Option (List Char)

namespace QuicUri

variable (u : QuicUri)

def portText : List Char := (u.port.map fun port => ':' :: Inet.portText port).getD []

def text : List Char :=
  quicScheme ++ (u.before ++ (u.host.text ++ u.portText) ++ u.after) ++
    (u.query.map ('?' :: ·)).getD []

def Blank : Prop := ∀ c ∈ u.before ++ u.after, isWhitespace c = true

def target : List Char := u.host.text ++ ':' :: Inet.portText (u.port.getD 443)

end QuicUri

variable {c : Char} {cs rest : List Char} {u : QuicUri} {ip : BitVec 128} {port : UInt16}

def Plain (cs : List Char) : Prop := cs ≠ [] ∧ ∀ c ∈ cs, QuicHost.nameChar c = true

lemma nameChar_iff : QuicHost.nameChar c = true ↔
    isWhitespace c = false ∧ c ≠ ':' ∧ c ≠ '?' ∧ c ≠ '[' ∧ c ≠ ']' := by
  simp [QuicHost.nameChar, and_assoc]

lemma isDigit_of_mem_toDigits {n : ℕ} (h : c ∈ Nat.toDigits 10 n) : c.isDigit = true := by
  obtain ⟨d, hd, rfl⟩ := exists_digit_of_mem (by decide) h
  have hall : ∀ m : Fin 10, m.val.digitChar.isDigit = true := by decide
  exact hall ⟨d, hd⟩

lemma nameChar_of_isDigit (h : c.isDigit = true) : QuicHost.nameChar c = true := by
  rw [nameChar_iff]
  have hrange : 48 ≤ c.toNat ∧ c.toNat ≤ 57 := by
    simpa [Char.isDigit, UInt32.le_iff_toNat_le] using h
  refine ⟨?_, ?_, ?_, ?_, ?_⟩
  · simp only [isWhitespace, decide_eq_false_iff_not]
    omega
  all_goals
    rintro rfl
    revert hrange
    decide

lemma plain_showIpv4 (ip : BitVec 32) : Plain (showIpv4 ip).toList := by
  rw [showIpv4_toList]
  constructor
  · exact List.append_ne_nil_of_right_ne_nil _ (List.cons_ne_nil _ _)
  · intro c hc
    simp only [List.mem_append, List.mem_cons] at hc
    have hdigits {n : ℕ} (h : c ∈ Nat.toDigits 10 n) : QuicHost.nameChar c = true :=
      nameChar_of_isDigit (isDigit_of_mem_toDigits h)
    rcases hc with hc | rfl | hc | rfl | hc | rfl | hc
    · exact hdigits hc
    · decide
    · exact hdigits hc
    · decide
    · exact hdigits hc
    · decide
    · exact hdigits hc

namespace QuicHost

lemma text_cases (h : QuicHost) (hfits : h.Fits) : (Plain h.text ∧ h.bare = h.text) ∨
    ∃ ip, h.text = '[' :: (showIpv6 ip).toList ++ [']'] ∧ h.bare = (showIpv6 ip).toList := by
  cases h with
  | name cs => exact .inl ⟨hfits, rfl⟩
  | address ip =>
    cases ip with
    | v4 ip => exact .inl ⟨plain_showIpv4 ip, rfl⟩
    | v6 ip =>
      refine .inr ⟨ip, ?_, rfl⟩
      simp [text, hostText, String.toList_append]

end QuicHost

lemma isDigit_of_mem_portText (h : c ∈ Inet.portText port) : c.isDigit = true :=
  isDigit_of_mem_toDigits h

lemma portText_chars (hc : c ∈ u.portText) : isWhitespace c = false ∧ c ≠ '?' := by
  rw [QuicUri.portText] at hc
  cases hport : u.port with
  | none =>
    rw [hport] at hc
    cases hc
  | some port =>
    rw [hport] at hc
    rcases List.mem_cons.mp hc with rfl | hc
    · decide
    · have hname := nameChar_iff.mp (nameChar_of_isDigit (isDigit_of_mem_portText hc))
      exact ⟨hname.1, hname.2.2.1⟩

lemma host_chars (hfits : u.host.Fits) (hc : c ∈ u.host.text) :
    isWhitespace c = false ∧ c ≠ '?' := by
  rcases u.host.text_cases hfits with ⟨hplain, -⟩ | ⟨ip, htext, -⟩
  · have hname := nameChar_iff.mp (hplain.2 c hc)
    exact ⟨hname.1, hname.2.2.1⟩
  · rw [htext] at hc
    simp only [List.cons_append, List.mem_cons, List.mem_append, List.mem_nil_iff, or_false] at hc
    rcases hc with rfl | hc | rfl
    · decide
    · have hchar := addressChar_showIpv6 ip c hc
      refine ⟨not_whitespace_of_addressChar hchar, ?_⟩
      rintro rfl
      have hrange := range_of_addressChar hchar
      revert hrange
      decide
    · decide

lemma host_ne_nil (hfits : u.host.Fits) : u.host.text ≠ [] := by
  rcases u.host.text_cases hfits with ⟨hplain, -⟩ | ⟨ip, htext, -⟩
  · exact hplain.1
  · rw [htext]
    exact List.cons_ne_nil _ _

lemma rest_chars (hfits : u.host.Fits) (hc : c ∈ u.host.text ++ u.portText) :
    isWhitespace c = false ∧ c ≠ '?' :=
  (List.mem_append.mp hc).elim (host_chars hfits) portText_chars

lemma server_part (hblank : u.Blank) (hfits : u.host.Fits) :
    trim (((stripPrefix quicScheme u.text).getD u.text).takeWhile (· ≠ '?')) =
      u.host.text ++ u.portText := by
  have hbefore : ∀ c ∈ u.before, isWhitespace c = true :=
    fun c hc => hblank c (List.mem_append_left _ hc)
  have hafter : ∀ c ∈ u.after, isWhitespace c = true :=
    fun c hc => hblank c (List.mem_append_right _ hc)
  have hstrip : stripPrefix quicScheme u.text =
      some (u.before ++ (u.host.text ++ u.portText) ++ u.after ++
        (u.query.map ('?' :: ·)).getD []) := by
    rw [stripPrefix, QuicUri.text, List.append_assoc quicScheme, if_pos (List.prefix_append _ _),
      List.drop_left]
  have hspace {c : Char} (hc : isWhitespace c = true) : c ≠ '?' := by
    rintro rfl
    revert hc
    decide
  have hbody : ∀ c ∈ u.before ++ (u.host.text ++ u.portText) ++ u.after,
      decide (c ≠ '?') = true := by
    intro c hc
    rw [decide_eq_true_eq]
    rcases List.mem_append.mp hc with hc | hc
    · rcases List.mem_append.mp hc with hc | hc
      · exact hspace (hbefore c hc)
      · exact (rest_chars hfits hc).2
    · exact hspace (hafter c hc)
  have hquery : ((u.query.map ('?' :: ·)).getD []).takeWhile (· ≠ '?') = [] := by
    cases u.query with
    | none => rfl
    | some q => rfl
  rw [hstrip, Option.getD_some, List.takeWhile_append_of_pos hbody, hquery, List.append_nil]
  exact trimMatches_pad hbefore (fun c hc => (rest_chars hfits hc).1) hafter
    (List.append_ne_nil_of_left_ne_nil (host_ne_nil hfits) _)

lemma parse_bracketed (ip : BitVec 128) : bracketed ('[' :: (showIpv6 ip).toList ++ ']' :: rest) =
    some ((showIpv6 ip).toList, rest) := by
  apply splitOnce_eq_some_iff.mpr
  exact ⟨rfl, fun hc => (ne_of_addressChar (addressChar_showIpv6 ip _ hc)).2.1 rfl⟩

lemma bracketed_plain (h : Plain cs) : bracketed (cs ++ rest) = none := by
  obtain ⟨hne, hchars⟩ := h
  cases cs with
  | nil => exact absurd rfl hne
  | cons c cs =>
    have hc := (nameChar_iff.mp (hchars c List.mem_cons_self)).2.2.2.1
    rw [List.cons_append, bracketed]
    intro more he
    cases he
    exact hc rfl

lemma quicPort_eq : quicPort = ':' :: Inet.portText 443 := by decide

lemma plain_no_colon (h : Plain cs) : ':' ∉ cs :=
  fun hc => (nameChar_iff.mp (h.2 _ hc)).2.1 rfl

lemma parseTarget_text (hblank : u.Blank) (hfits : u.host.Fits) :
    parseTarget u.text = some u.target := by
  have hpart := server_part hblank hfits
  have hne : u.host.text ++ u.portText ≠ [] :=
    List.append_ne_nil_of_left_ne_nil (host_ne_nil hfits) _
  rw [parseTarget]
  simp only [hpart, if_neg hne]
  rcases u.host.text_cases hfits with ⟨hplain, -⟩ | ⟨ip, htext, -⟩
  · rw [bracketed_plain hplain]
    simp only [QuicUri.target, QuicUri.portText]
    cases hport : u.port with
    | none =>
      simp only [Option.map_none, Option.getD_none, List.append_nil]
      rw [rsplitOnce_eq_none (plain_no_colon hplain), quicPort_eq]
    | some port =>
      have hcolon : ':' ∉ Inet.portText port := Forward.colon_not_mem_portText port
      have hdigits : (Inet.portText port).all Char.isDigit = true :=
        List.all_eq_true.mpr fun c hc => isDigit_of_mem_portText hc
      simp only [Option.map_some, Option.getD_some]
      rw [rsplitOnce_append _ hcolon]
      exact if_pos ⟨portText_ne_nil port, hdigits⟩
  · have hrest : u.host.text ++ u.portText =
        '[' :: (showIpv6 ip).toList ++ ']' :: u.portText := by
      rw [htext]
      simp
    rw [hrest, parse_bracketed]
    simp only [QuicUri.target, htext, QuicUri.portText]
    cases hport : u.port with
    | none => simp [stripPrefix, quicPort_eq]
    | some port =>
      have hkept : (some (Inet.portText port)).filter (· ≠ []) = some (Inet.portText port) := by
        rw [Option.filter_some, if_pos (decide_eq_true (portText_ne_nil port))]
      have hstrip : stripPrefix [':'] (':' :: Inet.portText port) = some (Inet.portText port) := by
        simp [stripPrefix]
      simp only [Option.map_some, Option.getD_some]
      rw [hstrip, hkept]
      simp

lemma trim_brackets {before text after : List Char} (hbefore : ∀ c ∈ before, c = '[')
    (hafter : ∀ c ∈ after, c = ']') (htext : ∀ c ∈ text, c ≠ '[' ∧ c ≠ ']') (hne : text ≠ []) :
    Forward.trimEndMatches (· = ']') ((before ++ text ++ after).dropWhile (· = '[')) = text := by
  have hback : (after.reverse ++ text.reverse ++ []).dropWhile (· = ']') = text.reverse ++ [] :=
    dropWhile_pad (fun c hc => decide_eq_true (hafter c (List.mem_reverse.mp hc)))
      (fun c hc => decide_eq_false (htext c (List.mem_reverse.mp hc)).2) (by simpa using hne)
  rw [List.append_nil, List.append_nil] at hback
  rw [dropWhile_pad (fun c hc => decide_eq_true (hbefore c hc))
    (fun c hc => decide_eq_false (htext c hc).1) hne, Forward.trimEndMatches, List.reverse_append,
    hback, List.reverse_reverse]

lemma serverName_target (hfits : u.host.Fits) : serverName u.target = u.host.bare := by
  have hsplit : rsplitOnce ':' u.target = some (u.host.text, Inet.portText (u.port.getD 443)) :=
    rsplitOnce_append _ (Forward.colon_not_mem_portText _)
  rw [serverName, hsplit]
  simp only [Option.map_some, Option.getD_some]
  rcases u.host.text_cases hfits with ⟨hplain, hbare⟩ | ⟨ip, htext, hbare⟩
  · have htrim := @trim_brackets [] _ [] (by simp) (by simp)
      (fun c hc => (nameChar_iff.mp (hplain.2 c hc)).2.2.2) hplain.1
    rw [List.nil_append, List.append_nil] at htrim
    rw [htrim, hbare]
  · have htrim := @trim_brackets ['['] _ [']'] (by simp) (by simp)
      (fun c hc => ⟨(ne_of_addressChar (addressChar_showIpv6 ip c hc)).1,
        (ne_of_addressChar (addressChar_showIpv6 ip c hc)).2.1⟩) (Http.showIpv6_ne_nil ip)
    rw [htext, hbare]
    exact htrim

/-- A peer's URI names its server, whichever form the host has, with the port given or the default
one, and whatever query stands behind; the certificate is asked for without the brackets. -/
theorem quic_targets_read_back (hblank : u.Blank) (hfits : u.host.Fits) :
    parseTarget u.text = some u.target ∧ serverName u.target = u.host.bare :=
  ⟨parseTarget_text hblank hfits, serverName_target hfits⟩

example : parseTarget "quic://example.org:1234?key=abc".toList = some "example.org:1234".toList ∧
    parseTarget "quic://".toList = none ∧ parseTarget "host:5".toList = some "host:5".toList := by
  decide

def peerUri : QuicUri where
  before := [' ']
  host := .address (.v6 (0x200 <<< 112 + 1))
  port := none
  after := []
  query := some ['k']

theorem peer_uri_read_back : parseTarget peerUri.text = some peerUri.target ∧
    serverName peerUri.target = peerUri.host.bare :=
  quic_targets_read_back (by simp [QuicUri.Blank, peerUri]; decide) trivial

end Targets

section Order

instance : Std.TransCmp socketOrder :=
  inferInstanceAs (Std.TransCmp (compareLex (compareOn fun a : SocketAddr => familyOf a.ip)
    (compareLex (compareOn fun a : SocketAddr => bitsOf a.ip)
      (compareOn fun a : SocketAddr => a.port.toNat))))

instance : Std.LawfulEqCmp socketOrder where
  eq_of_compare {a b} h := by
    obtain ⟨hfamily, hrest⟩ := Ordering.then_eq_eq.mp h
    obtain ⟨hip, hport⟩ := Ordering.then_eq_eq.mp hrest
    have hfamily := Nat.compare_eq_eq.mp hfamily
    have hip := Nat.compare_eq_eq.mp hip
    have hport := UInt16.toNat_inj.mp (Nat.compare_eq_eq.mp hport)
    obtain ⟨a, p⟩ := a
    obtain ⟨b, q⟩ := b
    obtain rfl : p = q := hport
    cases a <;> cases b
    · simp only [bitsOf, BitVec.toNat_inj] at hip
      rw [hip]
    · cases hfamily
    · cases hfamily
    · simp only [bitsOf, BitVec.toNat_inj] at hip
      rw [hip]

end Order

section Outcomes

variable {w : QuicWorld} {uri target : List Char} {addrs before after : List SocketAddr}
  {addr : SocketAddr} {now time : ℕ} {lastErr : String}

lemma mem_tried : addr ∈ tried addrs ↔ addr ∈ addrs :=
  mem_destutter.trans (sortBy_perm addrs).mem_iff

def Handshake.failure? : Handshake → Option ℕ
  | .connectFailed _ => some 0
  | .failed takes _ => some takes
  | .bindFailed _ | .completed _ | .pending => none

def FirstOf (handshake : SocketAddr → Handshake) (addrs : List SocketAddr) (addr : SocketAddr)
    (spent : ℕ) : Prop :=
  ∃ before after takes, addrs = before ++ addr :: after ∧
    (∀ b ∈ before, ((handshake b).failure?).isSome = true) ∧ handshake addr = .completed takes ∧
      spent = (before.map fun b => ((handshake b).failure?).getD 0).sum + takes

variable {handshake : SocketAddr → Handshake} {spent : ℕ} {a : SocketAddr}

lemma not_firstOf_nil : ¬FirstOf handshake [] addr spent := by
  rintro ⟨before, after, takes, he, -⟩
  cases before <;> cases he

lemma firstOf_cons : FirstOf handshake (a :: addrs) addr spent ↔
    (a = addr ∧ handshake a = .completed spent) ∨
      ∃ takes rest, (handshake a).failure? = some takes ∧ FirstOf handshake addrs addr rest ∧
        spent = takes + rest := by
  constructor
  · rintro ⟨before, after, takes, he, hfailed, hdone, rfl⟩
    cases before with
    | nil =>
      cases he
      left
      refine ⟨rfl, ?_⟩
      rw [hdone, List.map_nil, List.sum_nil, Nat.zero_add]
    | cons b before =>
      cases he
      obtain ⟨hb, hfailed⟩ := List.forall_mem_cons.mp hfailed
      obtain ⟨first, hfirst⟩ := Option.isSome_iff_exists.mp hb
      right
      refine ⟨first, _, hfirst, ⟨before, after, takes, rfl, hfailed, hdone, rfl⟩, ?_⟩
      rw [List.map_cons, List.sum_cons, hfirst, Option.getD_some, Nat.add_assoc]
  · rintro (⟨rfl, hdone⟩ | ⟨first, rest, hfirst, ⟨before, after, takes, rfl, hfailed, hdone, rfl⟩,
      rfl⟩)
    · refine ⟨[], addrs, spent, rfl, by simp, hdone, ?_⟩
      rw [List.map_nil, List.sum_nil, Nat.zero_add]
    · refine ⟨a :: before, after, takes, rfl, ?_, hdone, ?_⟩
      · rw [List.forall_mem_cons, hfirst]
        exact ⟨rfl, hfailed⟩
      · rw [List.map_cons, List.sum_cons, hfirst, Option.getD_some, Nat.add_assoc]

lemma connectLoop_ok_iff : connectLoop handshake addrs now lastErr = some (time, .ok addr) ↔
    ∃ spent, FirstOf handshake addrs addr spent ∧ time = now + spent := by
  induction addrs generalizing now lastErr with
  | nil => simp [connectLoop, not_firstOf_nil]
  | cons a addrs ih =>
    simp only [connectLoop, firstOf_cons]
    cases hshake : handshake a with
    | bindFailed e => simp [Handshake.failure?]
    | pending => simp [Handshake.failure?]
    | completed takes =>
      simp only [Handshake.failure?]
      constructor
      · intro h
        cases h
        exact ⟨takes, .inl ⟨rfl, rfl⟩, rfl⟩
      · rintro ⟨spent, ⟨rfl, he⟩ | ⟨_, _, he, -⟩, rfl⟩
        · cases he
          rfl
        · cases he
    | connectFailed e =>
      simp only [Handshake.failure?, ih]
      constructor
      · rintro ⟨spent, hfirst, rfl⟩
        exact ⟨0 + spent, .inr ⟨0, spent, rfl, hfirst, rfl⟩, by rw [Nat.zero_add]⟩
      · rintro ⟨spent, ⟨-, he⟩ | ⟨_, rest, he, hfirst, rfl⟩, rfl⟩
        · cases he
        · cases he
          exact ⟨rest, hfirst, by rw [Nat.zero_add]⟩
    | failed takes e =>
      simp only [Handshake.failure?, ih]
      constructor
      · rintro ⟨spent, hfirst, rfl⟩
        exact ⟨takes + spent, .inr ⟨takes, spent, rfl, hfirst, rfl⟩, Nat.add_assoc _ _ _⟩
      · rintro ⟨spent, ⟨-, he⟩ | ⟨_, rest, he, hfirst, rfl⟩, rfl⟩
        · cases he
        · cases he
          exact ⟨rest, hfirst, (Nat.add_assoc _ _ _).symm⟩

lemma tried_nil : tried [] = [] := List.eq_nil_iff_forall_not_mem.mpr fun _ h =>
  List.not_mem_nil (mem_tried.mp h)

lemma connect_ok_iff : connect w target = some (time, .ok addr) ↔
    ∃ now addrs spent, w.lookupHost target = some (now, .ok addrs) ∧
      FirstOf w.handshake (tried addrs) addr spent ∧ time = now + spent := by
  rw [connect]
  cases hlookup : w.lookupHost target with
  | none => simp
  | some result =>
    obtain ⟨now, r⟩ := result
    cases r with
    | error e => simp
    | ok addrs =>
      simp only [Option.some.injEq, Prod.mk.injEq, Except.ok.injEq]
      split
      · next hnil =>
        subst hnil
        constructor
        · rintro ⟨-, ⟨⟩⟩
        · rintro ⟨_, _, _, ⟨rfl, rfl⟩, hfirst, -⟩
          rw [tried_nil] at hfirst
          exact absurd hfirst not_firstOf_nil
      · rw [connectLoop_ok_iff]
        constructor
        · rintro ⟨spent, hfirst, rfl⟩
          exact ⟨now, addrs, spent, ⟨rfl, rfl⟩, hfirst, rfl⟩
        · rintro ⟨_, _, spent, ⟨rfl, rfl⟩, hfirst, rfl⟩
          exact ⟨spent, hfirst, rfl⟩

lemma tried_ordered (addrs : List SocketAddr) :
    (tried addrs).Pairwise fun a b => a ≠ b ∧ familyOf a.ip ≤ familyOf b.ip := by
  have hlt : (tried addrs).Pairwise fun a b => socketOrder a b = .lt :=
    destutter_sortBy_strict addrs
  refine hlt.imp ?_
  intro a b h
  constructor
  · rintro rfl
    have hself : socketOrder a a = .eq := Std.ReflCmp.compare_self
    rw [hself] at h
    cases h
  · by_contra hlt
    have hgt : compare (familyOf a.ip) (familyOf b.ip) = .gt :=
      Nat.compare_eq_gt.mpr (Nat.lt_of_not_le hlt)
    rw [socketOrder, compareLex, compareOn, hgt] at h
    cases h

lemma checkQuicRtt_eq_iff (r : ℕ) : checkQuicRtt w uri = r ↔ ∃ target time addr,
    parseTarget uri = some target ∧ connect w target = some (time, .ok addr) ∧
      time ≤ checkTimeout ∧ r = time / 10 ^ 6 := by
  rw [checkQuicRtt]
  cases htarget : parseTarget uri with
  | none => simp
  | some target =>
    have hneg : (-1 : ℤ) ≠ r := by omega
    simp only
    split
    · next time addr hconnect =>
      split
      · next hle =>
        constructor
        · intro hr
          exact ⟨target, time, addr, rfl, hconnect, hle, (Int.ofNat_inj.mp hr).symm⟩
        · rintro ⟨_, _, _, ⟨⟩, hconnect', -, rfl⟩
          rw [hconnect] at hconnect'
          cases hconnect'
          rfl
      · next hle =>
        constructor
        · exact fun hr => absurd hr hneg
        · rintro ⟨_, _, _, ⟨⟩, hconnect', hle', -⟩
          rw [hconnect] at hconnect'
          cases hconnect'
          exact absurd hle' hle
    · next hne =>
      constructor
      · exact fun hr => absurd hr hneg
      · rintro ⟨_, time, addr, ⟨⟩, hconnect, -⟩
        exact absurd hconnect (hne time addr)

lemma checkQuicRtt_cases (w : QuicWorld) (uri : List Char) :
    checkQuicRtt w uri = -1 ∨ ∃ r : ℕ, checkQuicRtt w uri = r := by
  rw [checkQuicRtt]
  split
  · exact .inl rfl
  · split
    · split
      · exact .inr ⟨_, rfl⟩
      · exact .inl rfl
    · exact .inl rfl

/-- The time reported is that of the look-up, of the addresses that failed and of the first one that
did not, all within the timeout; the addresses are those found, each once, IPv4 before IPv6. -/
theorem rtt_of_first_reachable (w : QuicWorld) (uri : List Char) :
    (∀ r : ℕ, checkQuicRtt w uri = r ↔ ∃ target now addrs addr spent,
      parseTarget uri = some target ∧ w.lookupHost target = some (now, .ok addrs) ∧
        FirstOf w.handshake (tried addrs) addr spent ∧ now + spent ≤ checkTimeout ∧
          r = (now + spent) / 10 ^ 6) ∧
    (checkQuicRtt w uri = -1 ∨ ∃ r : ℕ, checkQuicRtt w uri = r ∧ r ≤ 5000) ∧
    ∀ addrs, (tried addrs).Pairwise (fun a b => a ≠ b ∧ familyOf a.ip ≤ familyOf b.ip) ∧
      ∀ a, a ∈ tried addrs ↔ a ∈ addrs := by
  refine ⟨fun r => ?_, ?_, fun addrs => ⟨tried_ordered addrs, fun a => mem_tried⟩⟩
  · rw [checkQuicRtt_eq_iff]
    constructor
    · rintro ⟨target, time, addr, htarget, hconnect, hle, hr⟩
      obtain ⟨now, addrs, spent, hlookup, hfirst, rfl⟩ := connect_ok_iff.mp hconnect
      exact ⟨target, now, addrs, addr, spent, htarget, hlookup, hfirst, hle, hr⟩
    · rintro ⟨target, now, addrs, addr, spent, htarget, hlookup, hfirst, hle, hr⟩
      exact ⟨target, now + spent, addr, htarget,
        connect_ok_iff.mpr ⟨now, addrs, spent, hlookup, hfirst, rfl⟩, hle, hr⟩
  · refine (checkQuicRtt_cases w uri).imp_right ?_
    rintro ⟨r, hr⟩
    obtain ⟨_, time, _, -, -, hle, rfl⟩ := (checkQuicRtt_eq_iff r).mp hr
    exact ⟨_, hr, Nat.div_le_of_le_mul hle⟩

end Outcomes

end Yggstack.Mobile
