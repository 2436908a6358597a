import Yggstack.Http.Padding

namespace Yggstack.Mobile

open Library.Inet
open Forward (trimMatches)
open Http

def isYggAddress (addr : BitVec 128) : Bool := (groupsOf addr).headD 0 &&& 0xfe00 == 0x0200

def parseYggAddrPort (s : String) : Option SocketAddr := do
  let addr ← parseSocket (String.ofList (trim s.toList))
  match addr.ip with
  | .v6 ip => if isYggAddress ip then some addr else none
  | .v4 _ => none

def innerText : List Char → List Char
  | '[' :: rest => rest.takeWhile (· ≠ ']')
  | t => t

def parseYggAddr (s : String) : Option (BitVec 128) := do
  let ip ← parseIpv6 (String.ofList (innerText (trim s.toList)))
  if isYggAddress ip then some ip else none

def isBracket (c : Char) : Bool := c = '[' || c = ']'

def pingTarget (address : String) : Except String (BitVec 128) :=
  match parseIpv6 (String.ofList (trimMatches isBracket (trim address.toList))) with
  | none => .error ("invalid IPv6 address: " ++ address)
  | some dst =>
    if isYggAddress dst then .ok dst
    else .error "not a Yggdrasil address (must be within 200::/7)"

section Scopes

variable {cs rest after : List Char} {s : String} {a : SocketAddr} {ip : BitVec 128}

lemma eq_of_readGiven {c : Char} {u : Unit} (h : readGiven c cs = some (u, rest)) :
    cs = c :: rest := by
  cases cs with
  | nil => cases h
  | cons d cs =>
    rw [readGiven] at h
    split at h
    · next hd =>
      cases h
      rw [hd]
    · cases h

lemma socket_text (h : parseSocket (String.ofList cs) = some a) (hip : a.ip = .v6 ip) :
    ∃ body rest after, cs = '[' :: body ∧ readIpv6 body = some (ip, rest) ∧
      readScope rest = ']' :: after ∧ ∀ c ∈ after, addressChar c := by
  rw [parseSocket, String.toList_ofList, parseWith] at h
  split at h
  · next a' hread =>
    cases h
    rcases (Option.orElse_eq_some _ _ _).mp hread with hv4 | ⟨-, hv6⟩
    · obtain ⟨⟨ip4, cs₁⟩, -, hv4⟩ := Option.bind_eq_some_iff.mp hv4
      obtain ⟨⟨port, cs₂⟩, -, hv4⟩ := Option.bind_eq_some_iff.mp hv4
      cases hv4
      cases hip
    · obtain ⟨⟨u, body⟩, hopen, hv6⟩ := Option.bind_eq_some_iff.mp hv6
      obtain ⟨⟨ip', rest⟩, haddr, hv6⟩ := Option.bind_eq_some_iff.mp hv6
      obtain ⟨⟨u', after⟩, hclose, hv6⟩ := Option.bind_eq_some_iff.mp hv6
      obtain ⟨⟨port, end'⟩, hport, hv6⟩ := Option.bind_eq_some_iff.mp hv6
      cases hv6
      cases hip
      obtain ⟨⟨u'', digits⟩, hcolon, hport⟩ := Option.bind_eq_some_iff.mp hport
      obtain ⟨⟨n, end''⟩, hnumber, hport⟩ := Option.bind_eq_some_iff.mp hport
      cases hport
      obtain ⟨text, htext, hchars⟩ :=
        (consumes_given addressChar_colon hcolon).trans (consumes_number (by decide) hnumber)
      rw [List.append_nil] at htext
      exact ⟨body, rest, after, eq_of_readGiven hopen, haddr, eq_of_readGiven hclose,
        by rw [htext]; exact hchars⟩
  · cases h

lemma takeWhile_bracket {text : List Char} (h : ∀ c ∈ text, addressChar c) (more : List Char) :
    (text ++ ']' :: more).takeWhile (· ≠ ']') = text := by
  rw [List.takeWhile_append_of_pos fun c hc => by simpa using (ne_of_addressChar (h c hc)).2.1]
  simp

lemma mem_takeWhile_percent {text : List Char} (h : ∀ c ∈ text, addressChar c) (more : List Char) :
    '%' ∈ (text ++ '%' :: more).takeWhile (· ≠ ']') := by
  rw [List.takeWhile_append_of_pos fun c hc => by simpa using (ne_of_addressChar (h c hc)).2.1,
    List.takeWhile_cons_of_pos (by decide)]
  exact List.mem_append_right _ List.mem_cons_self

lemma parseIpv6_of_not_addressChar {c : Char} (h : c ∈ cs) (hc : ¬addressChar c) :
    parseIpv6 (String.ofList cs) = none := by
  rw [Option.eq_none_iff_forall_ne_some]
  intro ip hip
  have hchars := addressChar_of_parseIpv6 hip
  rw [String.toList_ofList] at hchars
  exact hc (hchars c h)

lemma readScope_cases (h : readScope rest = ']' :: after) :
    rest = ']' :: after ∨ ∃ more, rest = '%' :: more := by
  cases rest with
  | nil => cases h
  | cons c more =>
    by_cases hc : c = '%'
    · exact .inr ⟨more, by rw [hc]⟩
    · left
      have hgiven : readGiven '%' (c :: more) = none := if_neg hc
      rw [readScope, hgiven] at h
      exact h

/-- The address of a port probe is the one a warm-up reads from the same text, unless the text gives
it a scope, which only the probe accepts. -/
theorem probed_address_warmed_up (h : parseYggAddrPort s = some a) :
    ∃ ip, a.ip = .v6 ip ∧ isYggAddress ip = true ∧
      parseYggAddr s = if '%' ∈ s.toList then none else some ip := by
  unfold parseYggAddrPort at h
  obtain ⟨a', hsocket, h⟩ := Option.bind_eq_some_iff.mp h
  cases hip : a'.ip with
  | v4 ip => simp only [hip] at h; cases h
  | v6 ip =>
    simp only [hip] at h
    split at h
    · next hygg =>
      cases h
      obtain ⟨body, rest, after, htext, haddr, hscope, hafter⟩ := socket_text hsocket hip
      refine ⟨ip, hip, hygg, ?_⟩
      have hpercent : '%' ∈ s.toList ↔ '%' ∈ '[' :: body := by
        rw [← htext]
        exact (mem_trim_iff rfl).symm
      rw [parseYggAddr, htext, innerText]
      rcases readScope_cases hscope with rfl | ⟨more, rfl⟩
      · obtain ⟨text, rfl, hchars, hparse⟩ :=
          parseIpv6_of_readIpv6 haddr fun hc => (ne_of_addressChar hc).2.1 rfl
        have hno : '%' ∉ s.toList := by
          rw [hpercent]
          simp only [List.mem_cons, List.mem_append, not_or]
          exact ⟨by decide, fun hm => (ne_of_addressChar (hchars _ hm)).2.2 rfl, by decide,
            fun hm => (ne_of_addressChar (hafter _ hm)).2.2 rfl⟩
        rw [if_neg hno, takeWhile_bracket hchars, hparse]
        exact if_pos hygg
      · obtain ⟨text, rfl, hchars, -⟩ :=
          parseIpv6_of_readIpv6 haddr fun hc => (ne_of_addressChar hc).2.2 rfl
        rw [if_pos (hpercent.mpr (by simp)),
          parseIpv6_of_not_addressChar (mem_takeWhile_percent hchars more)]
        · rfl
        · exact fun hc => (ne_of_addressChar hc).2.2 rfl
    · cases h

example : parseYggAddrPort "[200::1%3]:80" = some ⟨.v6 (0x200 <<< 112 + 1), 80⟩ ∧
    parseYggAddr "[200::1%3]:80" = none := by
  decide

theorem plain_address_warmed_up : ∃ ip,
    parseYggAddrPort "[200::1]:80" = some ⟨.v6 (0x200 <<< 112 + 1), 80⟩ ∧
    IpAddr.v6 (0x200 <<< 112 + 1) = .v6 ip ∧ isYggAddress ip = true ∧
      parseYggAddr "[200::1]:80" = if '%' ∈ "[200::1]:80".toList then none else some ip := by
  have hprobe : parseYggAddrPort "[200::1]:80" = some ⟨.v6 (0x200 <<< 112 + 1), 80⟩ := by decide
  obtain ⟨ip, hip, hwarm⟩ := probed_address_warmed_up hprobe
  exact ⟨ip, hprobe, hip, hwarm⟩

end Scopes

section Texts

variable {ip : BitVec 128} {port : UInt16} {before text after : List Char}

lemma parseIpv6_toList (ip : BitVec 128) :
    parseIpv6 (String.ofList (showIpv6 ip).toList) = some ip := by
  rw [String.ofList_toList, parseIpv6_showIpv6]

lemma innerText_plain (ip : BitVec 128) : innerText (showIpv6 ip).toList = (showIpv6 ip).toList := by
  rw [innerText]
  intro rest htext
  have hopen : '[' ∈ (showIpv6 ip).toList := by
    rw [htext]
    exact List.mem_cons_self
  exact (ne_of_addressChar (addressChar_showIpv6 ip _ hopen)).1 rfl

lemma parseYggAddr_of_inner {s : String} (hygg : isYggAddress ip = true)
    (h : innerText (trim s.toList) = (showIpv6 ip).toList) : parseYggAddr s = some ip := by
  rw [parseYggAddr, h, parseIpv6_toList]
  exact if_pos hygg

lemma pingTarget_of_inner {s : String} (hygg : isYggAddress ip = true)
    (h : trimMatches isBracket (trim s.toList) = (showIpv6 ip).toList) : pingTarget s = .ok ip := by
  unfold pingTarget
  rw [h, parseIpv6_toList]
  exact if_pos hygg

/-- With white space around it or not: a Yggdrasil address is read back by the warm-up and the ping
as it is and in brackets, and by the warm-up and the port probe with a port, which the ping
refuses. -/
theorem address_texts_read_back (hygg : isYggAddress ip = true)
    (hbefore : ∀ c ∈ before, isWhitespace c = true) (hafter : ∀ c ∈ after, isWhitespace c = true) :
    (∀ text ∈ [(showIpv6 ip).toList, '[' :: (showIpv6 ip).toList ++ [']']],
      parseYggAddr (padded before text after) = some ip ∧
        pingTarget (padded before text after) = .ok ip) ∧
    ∀ text, text = (SocketAddr.display ⟨.v6 ip, port⟩).toList →
      parseYggAddr (padded before text after) = some ip ∧
      parseYggAddrPort (padded before text after) = some ⟨.v6 ip, port⟩ ∧
      pingTarget (padded before text after) =
        .error ("invalid IPv6 address: " ++ padded before text after) := by
  have hchars := addressChar_showIpv6 ip
  have hbracket : ∀ c ∈ (showIpv6 ip).toList, isBracket c = false := by
    intro c hc
    obtain ⟨hopen, hclose, -⟩ := ne_of_addressChar (hchars c hc)
    simp [isBracket, hopen, hclose]
  have hone {c : Char} (hc : isBracket c = true) : ∀ d ∈ [c], isBracket d = true := by
    intro d hd
    rwa [List.mem_singleton.mp hd]
  constructor
  · intro text hmem
    rcases List.mem_cons.mp hmem with rfl | hmem
    · have htrim := trim_padded hbefore hafter
        (fun c hc => not_whitespace_of_addressChar (hchars c hc)) (showIpv6_ne_nil ip)
      have hping : trimMatches isBracket ([] ++ (showIpv6 ip).toList ++ []) = _ :=
        trimMatches_pad (by simp) hbracket (by simp) (showIpv6_ne_nil ip)
      rw [List.nil_append, List.append_nil] at hping
      exact ⟨parseYggAddr_of_inner hygg (by rw [htrim, innerText_plain]),
        pingTarget_of_inner hygg (by rw [htrim, hping])⟩
    · obtain rfl := List.mem_singleton.mp hmem
      have htrim := trim_padded hbefore hafter
        (bracketed_not_whitespace ip fun c hc => absurd hc List.not_mem_nil) (by simp)
      have hping : trimMatches isBracket (['['] ++ (showIpv6 ip).toList ++ [']']) = _ :=
        trimMatches_pad (hone rfl) hbracket (hone rfl) (showIpv6_ne_nil ip)
      exact ⟨parseYggAddr_of_inner hygg (by rw [htrim]; exact takeWhile_bracket hchars []),
        pingTarget_of_inner hygg (by rw [htrim]; exact hping)⟩
  · rintro text rfl
    have hport : ∀ c ∈ ':' :: portText port, addressChar c := by
      intro c hc
      rcases List.mem_cons.mp hc with rfl | hc
      · exact addressChar_colon
      · exact addressChar_of_digit (by decide) (digit_of_mem_portText hc).1
    have hdisplay : (SocketAddr.display ⟨.v6 ip, port⟩).toList =
        '[' :: (showIpv6 ip).toList ++ ']' :: ':' :: portText port := by
      rw [display_toList]
      simp
    have htrim := trim_padded hbefore hafter (bracketed_not_whitespace ip fun c hc =>
      not_whitespace_of_addressChar (hport c hc)) (by simp)
    rw [hdisplay]
    refine ⟨parseYggAddr_of_inner hygg (by rw [htrim]; exact takeWhile_bracket hchars _), ?_, ?_⟩
    · rw [parseYggAddrPort, htrim, ← hdisplay, String.ofList_toList, parseSocket_display]
      exact if_pos hygg
    · have hclose : ']' ∈ trimMatches isBracket
          ('[' :: (showIpv6 ip).toList ++ ']' :: ':' :: portText port) := by
        obtain ⟨c, hc⟩ := List.exists_mem_of_ne_nil _ (showIpv6_ne_nil ip)
        exact mem_trimMatches (List.mem_cons_of_mem _ hc) (hbracket c hc) List.mem_cons_self rfl
      unfold pingTarget
      rw [htrim, parseIpv6_of_not_addressChar hclose]
      exact fun hc => (ne_of_addressChar hc).2.1 rfl

theorem spaced_address_read_back :
    parseYggAddr (padded [' '] (showIpv6 (0x200 <<< 112)).toList ['\n']) = some (0x200 <<< 112) := by
  have hone {c : Char} (hc : isWhitespace c = true) : ∀ d ∈ [c], isWhitespace d = true := by
    intro d hd
    rwa [List.mem_singleton.mp hd]
  have hread := @address_texts_read_back (0x200 <<< 112) 80 [' '] ['\n'] (by decide) (hone rfl)
    (hone rfl)
  exact (hread.1 _ List.mem_cons_self).1

end Texts

end Yggstack.Mobile
