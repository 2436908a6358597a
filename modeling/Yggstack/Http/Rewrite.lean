import Yggstack.Http.Head

/-! What the origin reads: the rewritten head is cut where it was meant to be cut, and parses back
to the request with its hop-by-hop headers taken out. -/

namespace Yggstack.Http

open Library

def forwarded (req : Request) (t : ForwardTarget) : Request :=
  { req with target := t.originForm, headers := forwardedHeaders req t }

def Request.line (req : Request) : List Char :=
  req.method ++ [' '] ++ req.target ++ [' '] ++ req.version

section Lines

variable {out : List Char} {haveConnection haveHost : Bool} {headers : List (List Char)}

lemma connectionName_not_hopByHop : connectionName ∉ hopByHop := by decide

lemma hostName_not_hopByHop : hostName ∉ hopByHop := by decide

lemma foldl_rewriteLine (out : List Char) (haveConnection haveHost : Bool) :
    headers.foldl rewriteLine (out, haveConnection, haveHost) =
      (out ++ endLines (added haveConnection headers),
        haveConnection || headers.any (headerName · = connectionName),
        haveHost || headers.any (headerName · = hostName)) := by
  induction headers generalizing out haveConnection haveHost with
  | nil => cases haveConnection <;> simp [added, closeFirst, endLines]
  | cons l ls ih =>
    rw [List.foldl_cons, rewriteLine]
    by_cases hhop : headerName l ∈ hopByHop
    · have hconn : headerName l ≠ connectionName := by
        intro h
        exact connectionName_not_hopByHop (h ▸ hhop)
      have hhost : headerName l ≠ hostName := by
        intro h
        exact hostName_not_hopByHop (h ▸ hhop)
      simp only [hhop, if_true, ih]
      simp [added, hhop, hconn, hhost]
    · by_cases hconn : headerName l = connectionName
      · have hhost : connectionName ≠ hostName := by decide
        cases haveConnection <;>
          simp [ih, added, hconn, hhost, closeFirst, endLines, connectionName_not_hopByHop]
      · cases haveConnection <;>
          simp [ih, added, hhop, hconn, closeFirst, endLines, Bool.or_assoc]

lemma rewriteHead_eq (req : Request) (t : ForwardTarget) :
    rewriteHead req t = endLines ((forwarded req t).line :: forwardedHeaders req t) ++ crlf := by
  rw [rewriteHead, foldl_rewriteLine]
  simp only [Bool.false_or, List.any_eq_true, decide_eq_true_eq, forwardedHeaders, added]
  by_cases hconn : ∃ l ∈ req.headers, headerName l = connectionName <;>
    by_cases hhost : ∃ l ∈ req.headers, headerName l = hostName <;>
      simp [hconn, hhost, endLines, forwarded, Request.line]

end Lines

section Words

variable {as bs : List Char}

lemma crlfFree_append_space (ha : CrlfFree as) (hb : CrlfFree bs) : CrlfFree (as ++ ' ' :: bs) := by
  refine List.isChain_append.mpr ⟨ha, hb.cons ?_, ?_⟩
  · rintro d - ⟨h, -⟩
    exact absurd h (by decide)
  · rintro c - d hd ⟨-, rfl⟩
    simp at hd

structure Word (w : List Char) : Prop where
  ne_nil : w ≠ []
  no_space : ' ' ∉ w
  crlfFree : CrlfFree w

structure HeaderLine (l : List Char) : Prop where
  ne_nil : l ≠ []
  crlfFree : CrlfFree l

structure Request.WellFormed (req : Request) : Prop where
  method : Word req.method
  target : Word req.target
  version : Word req.version
  headers : ∀ l ∈ req.headers, HeaderLine l

instance (w : List Char) : Decidable (Word w) :=
  decidable_of_iff (w ≠ [] ∧ ' ' ∉ w ∧ CrlfFree w)
    ⟨fun h => ⟨h.1, h.2.1, h.2.2⟩, fun h => ⟨h.ne_nil, h.no_space, h.crlfFree⟩⟩

instance (l : List Char) : Decidable (HeaderLine l) :=
  decidable_of_iff (l ≠ [] ∧ CrlfFree l) ⟨fun h => ⟨h.1, h.2⟩, fun h => ⟨h.ne_nil, h.crlfFree⟩⟩

instance (req : Request) : Decidable req.WellFormed :=
  decidable_of_iff
    (Word req.method ∧ Word req.target ∧ Word req.version ∧ ∀ l ∈ req.headers, HeaderLine l)
    ⟨fun h => ⟨h.1, h.2.1, h.2.2.1, h.2.2.2⟩, fun h => ⟨h.method, h.target, h.version, h.headers⟩⟩

variable {req : Request} {t : ForwardTarget}

lemma Request.WellFormed.line (hreq : req.WellFormed) : HeaderLine req.line := by
  have hline : req.line = req.method ++ ' ' :: (req.target ++ ' ' :: req.version) := by
    simp [Request.line]
  rw [hline]
  refine ⟨by simp, crlfFree_append_space hreq.method.crlfFree ?_⟩
  exact crlfFree_append_space hreq.target.crlfFree hreq.version.crlfFree

lemma Request.WellFormed.lines (hreq : req.WellFormed) :
    ∀ l ∈ req.line :: req.headers, HeaderLine l :=
  List.forall_mem_cons.mpr ⟨hreq.line, hreq.headers⟩

lemma Request.WellFormed.words (hreq : req.WellFormed) :
    (req.line.splitOn ' ').filter (· ≠ []) = [req.method, req.target, req.version] := by
  have hline : req.line = req.method ++ ' ' :: (req.target ++ ' ' :: req.version) := by
    simp [Request.line]
  rw [hline, List.splitOn_append_cons_self_of_not_mem hreq.method.no_space,
    List.splitOn_append_cons_self_of_not_mem hreq.target.no_space,
    List.splitOn_eq_singleton hreq.version.no_space]
  simp [hreq.method.ne_nil, hreq.target.ne_nil, hreq.version.ne_nil]

def Request.text (req : Request) : List Char := endLines (req.line :: req.headers) ++ crlf

lemma parseRequest_text (hreq : req.WellFormed) : parseRequest (utf8 req.text) = .ok req := by
  have hlines : splitCrlf (trimEndCrlf req.text) = req.line :: req.headers :=
    splitCrlf_trimEndCrlf (fun l hl => (hreq.lines l hl).crlfFree)
      (fun l hl => (hreq.lines l hl).ne_nil) (by simp)
  rw [parseRequest, fromUtf8_utf8]
  simp only [Option.elim, ok_bind, hlines, hreq.words]

end Words

section Cuts

variable {cs : List Char} {k : ℕ}

lemma ascii_cr : Ascii '\r' 13 := ⟨by decide, by decide⟩

lemma ascii_lf : Ascii '\n' 10 := ⟨by decide, by decide⟩

lemma blankLineAt_utf8 : BlankLineAt (utf8 cs) k ↔
    ∃ as bs, cs = as ++ crlf ++ crlf ++ bs ∧ k = (utf8 as).length + 4 := by
  constructor
  · rintro ⟨hk, pre, hpre⟩
    have hcut : utf8 cs = pre ++ 13 :: 10 :: 13 :: 10 :: (utf8 cs).drop k := by
      conv_lhs => rw [← List.take_append_drop k (utf8 cs), ← hpre]
      simp [blankLine]
    obtain ⟨as, cs₁, rfl, rfl, h₁⟩ := exists_of_utf8_cons ascii_cr hcut
    obtain ⟨cs₂, rfl, h₂⟩ := exists_of_utf8_head ascii_lf h₁
    obtain ⟨cs₃, rfl, h₃⟩ := exists_of_utf8_head ascii_cr h₂
    obtain ⟨bs, rfl, -⟩ := exists_of_utf8_head ascii_lf h₃
    refine ⟨as, bs, by simp [crlf], ?_⟩
    have hlen := congrArg List.length hpre
    rw [List.length_append, List.length_take_of_le hk] at hlen
    exact hlen.symm
  · rintro ⟨as, bs, rfl, rfl⟩
    have hblank : utf8 (crlf ++ crlf) = blankLine := by decide
    have hcut : utf8 (as ++ crlf ++ crlf ++ bs) = utf8 as ++ blankLine ++ utf8 bs := by
      rw [utf8_append, List.append_assoc, utf8_append, hblank]
    have hlen : (utf8 as ++ blankLine).length = (utf8 as).length + 4 := by
      simp [blankLine]
    rw [hcut, blankLineAt_append _ hlen.ge]
    refine ⟨hlen.ge, ?_⟩
    rw [← hlen, List.take_length]
    exact List.suffix_append _ _

variable {head : List UInt8} {req : Request} {t : ForwardTarget}

lemma eq_nil_of_firstBlankLine (as bs : List Char)
    (hfirst : FirstBlankLine (utf8 cs) (utf8 cs).length) (h : cs = as ++ crlf ++ crlf ++ bs) :
    bs = [] := by
  have hle := hfirst.2 _ (blankLineAt_utf8.mpr ⟨as, bs, h, rfl⟩)
  have hblank : (utf8 (crlf ++ crlf)).length = 4 := by decide
  rw [h, utf8_append, List.append_assoc as, utf8_append] at hle
  simp only [List.length_append, hblank] at hle
  have hnil : utf8 bs = utf8 [] := List.length_eq_zero_iff.mp (by omega)
  exact utf8_injective hnil

lemma blankLineAt_text_iff (hreq : req.WellFormed) :
    BlankLineAt (utf8 req.text) k ↔ k = (utf8 req.text).length := by
  have hlen : ∀ as : List Char, (utf8 (as ++ crlf ++ crlf)).length = (utf8 as).length + 4 := by
    intro as
    have hblank : (utf8 (crlf ++ crlf)).length = 4 := by decide
    rw [List.append_assoc, utf8_append, List.length_append, hblank]
  rw [blankLineAt_utf8]
  constructor
  · rintro ⟨as, bs, htext, rfl⟩
    obtain rfl := blank_only_at_end (fun l hl => (hreq.lines l hl).crlfFree)
      (fun l hl => (hreq.lines l hl).ne_nil) htext
    rw [htext, List.append_nil, hlen]
  · rintro rfl
    obtain ⟨ls, l, hl⟩ : ∃ ls l, req.line :: req.headers = ls ++ [l] := by
      rw [← List.dropLast_concat_getLast (List.cons_ne_nil req.line req.headers)]
      exact ⟨_, _, rfl⟩
    have htext : req.text = endLines ls ++ l ++ crlf ++ crlf := by
      rw [Request.text, hl, endLines_append]
      simp [endLines]
    exact ⟨endLines ls ++ l, [], by rw [htext, List.append_nil], by rw [htext, hlen]⟩

lemma firstBlankLine_text (hreq : req.WellFormed) :
    FirstBlankLine (utf8 req.text) (utf8 req.text).length :=
  ⟨(blankLineAt_text_iff hreq).mpr rfl, fun _ hk => ((blankLineAt_text_iff hreq).mp hk).ge⟩

lemma word_of_mem {line w : List Char} (hline : CrlfFree line)
    (hw : w ∈ (line.splitOn ' ').filter (· ≠ [])) : Word w := by
  rw [List.mem_filter, decide_eq_true_eq] at hw
  obtain ⟨hspace, hinf⟩ := of_mem_splitOn hw.1
  exact ⟨hw.2, hspace, hline.part hinf⟩

lemma parseRequest_ok (hparse : parseRequest head = .ok req) :
    ∃ text line, fromUtf8 head = some text ∧ splitCrlf (trimEndCrlf text) = line :: req.headers ∧
      (line.splitOn ' ').filter (· ≠ []) = [req.method, req.target, req.version] := by
  rw [parseRequest] at hparse
  cases htext : fromUtf8 head with
  | none =>
    rw [htext] at hparse
    cases hparse
  | some text =>
    simp only [htext, Option.elim, ok_bind] at hparse
    split at hparse
    · cases hparse
    · next line headers hlines =>
      split at hparse
      all_goals first
        | cases hparse; done
        | next method target version hwords =>
          cases hparse
          exact ⟨text, line, rfl, hlines, hwords⟩

lemma wellFormed_of_parse (hfirst : FirstBlankLine head head.length)
    (hparse : parseRequest head = .ok req) : req.WellFormed := by
  obtain ⟨text, line, htext, hlines, hwords⟩ := parseRequest_ok hparse
  obtain rfl := utf8_of_fromUtf8 htext
  obtain ⟨cs, bs, rfl, -⟩ := blankLineAt_utf8.mp hfirst.1
  obtain rfl := eq_nil_of_firstBlankLine _ _ hfirst rfl
  -- Another line end before the blank line would make an earlier blank line.
  have htrim : trimEndCrlf (cs ++ crlf ++ crlf ++ []) = cs := by
    rw [List.append_nil, trimEndCrlf_append_crlf, trimEndCrlf_append_crlf]
    apply trimEndCrlf_of_not_suffix
    rintro ⟨as, rfl⟩
    have hnil := eq_nil_of_firstBlankLine as crlf hfirst (by simp)
    exact absurd hnil (by decide)
  rw [htrim] at hlines
  have hfree : ∀ l ∈ line :: req.headers, CrlfFree l := by
    intro l hl
    exact crlfFree_of_mem_splitCrlf (by rw [hlines]; exact hl)
  have hword : ∀ w ∈ [req.method, req.target, req.version], Word w := by
    intro w hw
    exact word_of_mem (hfree line (by simp)) (by rw [hwords]; exact hw)
  refine ⟨hword _ (by simp), hword _ (by simp), hword _ (by simp), fun l hl => ⟨?_, ?_⟩⟩
  · rintro rfl
    obtain ⟨as, bs, hblank⟩ := blank_of_mem_tail hlines hl
    have hnil := eq_nil_of_firstBlankLine as (bs ++ crlf) hfirst (by rw [hblank]; simp)
    simp [crlf] at hnil
  · exact hfree l (by simp [hl])

end Cuts

section Targets

variable {req : Request} {t : ForwardTarget}

lemma trim_part (cs : List Char) : trim cs <:+: cs :=
  (List.rdropWhile_prefix _ _).isInfix.trans (List.dropWhile_suffix _).isInfix

lemma infix_of_findHeader {headers : List (List Char)} {name v : List Char}
    (h : findHeader headers name = some v) : ∃ l ∈ headers, v <:+: l := by
  obtain ⟨l, hl, hv⟩ := List.exists_of_findSome?_eq_some h
  refine ⟨l, hl, ?_⟩
  obtain ⟨⟨k, w⟩, hsplit, hw⟩ := Option.bind_eq_some_iff.mp hv
  simp only at hw
  split at hw
  · rw [splitColon] at hsplit
    split at hsplit
    · simp only [Option.some.injEq, Prod.mk.injEq] at hsplit hw
      obtain ⟨-, rfl⟩ := hsplit
      subst hw
      exact (trim_part _).trans (List.drop_suffix _ _).isInfix
    · cases hsplit
  · cases hw

lemma Word.part {w v : List Char} (hw : Word w) (hv : v <:+: w) (hne : v ≠ []) : Word v :=
  ⟨hne, fun h => hw.no_space (hv.subset h), hw.crlfFree.part hv⟩

lemma word_slash : Word ['/'] := ⟨by simp, by decide, .singleton _⟩

lemma forwardTarget_ok (hreq : req.WellFormed) (ht : forwardTarget req = .ok t) :
    Word t.originForm ∧ CrlfFree t.authority := by
  rw [forwardTarget] at ht
  split at ht
  · -- an absolute URI: both are cut out of the target
    have hrest : req.target.drop "http://".length <:+: req.target := (List.drop_suffix _ _).isInfix
    by_cases hslash : '/' ∈ req.target.drop "http://".length
    · simp only [hslash, if_true] at ht
      split at ht
      · cases ht
      · cases ht
        refine ⟨hreq.target.part ((List.dropWhile_suffix _).isInfix.trans hrest) ?_, ?_⟩
        · intro hnil
          rw [List.dropWhile_eq_nil_iff] at hnil
          exact absurd (hnil '/' hslash) (by simp)
        · exact hreq.target.crlfFree.part ((List.takeWhile_prefix _).isInfix.trans hrest)
    · simp only [hslash, if_false] at ht
      split at ht
      · cases ht
      · cases ht
        exact ⟨word_slash, hreq.target.crlfFree.part hrest⟩
  · split at ht
    · split at ht
      · cases ht
      · next hostHeader hfind =>
        split at ht
        · cases ht
        · cases ht
          obtain ⟨l, hl, hinf⟩ := infix_of_findHeader hfind
          exact ⟨hreq.target, (hreq.headers l hl).crlfFree.part hinf⟩
    · cases ht

lemma headerLine_connectionClose : HeaderLine connectionClose := ⟨by decide, by decide⟩

lemma headerLine_of_mem_closeFirst {l : List Char} {ls : List (List Char)}
    (h : ∀ l ∈ ls, HeaderLine l) (hl : l ∈ closeFirst ls) : HeaderLine l := by
  induction ls with
  | nil => simp [closeFirst] at hl
  | cons m ls ih =>
    rw [List.forall_mem_cons] at h
    rw [closeFirst] at hl
    split at hl
    · rcases List.mem_cons.mp hl with rfl | hl
      · exact headerLine_connectionClose
      · exact h.2 l (List.mem_of_mem_filter hl)
    · rcases List.mem_cons.mp hl with rfl | hl
      · exact h.1
      · exact ih h.2 hl

lemma forwarded_wellFormed (hreq : req.WellFormed) (ht : forwardTarget req = .ok t) :
    (forwarded req t).WellFormed := by
  obtain ⟨hform, hauth⟩ := forwardTarget_ok hreq ht
  refine ⟨hreq.method, hform, hreq.version, fun l hl => ?_⟩
  simp only [forwarded, forwardedHeaders, List.mem_append] at hl
  rcases hl with (hl | hl) | hl
  · exact headerLine_of_mem_closeFirst
      (fun m hm => hreq.headers m (List.mem_of_mem_filter hm)) hl
  · split at hl
    · simp at hl
    · rw [List.mem_singleton.mp hl]
      exact headerLine_connectionClose
  · split at hl
    · simp at hl
    · rw [List.mem_singleton.mp hl]
      have hhost : CrlfFree "Host:".toList := by decide
      exact ⟨by simp, crlfFree_append_space hhost hauth⟩

end Targets

/-- A client's bytes cannot move the end of the head that the origin reads, and the origin reads the
request without what was meant for the proxy. -/
theorem rewritten_head_parses_back {reads rest : List (Except IoError (List UInt8))}
    {head extra : List UInt8} {req : Request} {t : ForwardTarget}
    (hread : readHead [] reads = some (.ok (head, extra), rest))
    (hparse : parseRequest head = .ok req) (ht : forwardTarget req = .ok t) :
    (∀ k, BlankLineAt (utf8 (rewriteHead req t)) k ↔ k = (utf8 (rewriteHead req t)).length) ∧
      parseRequest (utf8 (rewriteHead req t)) =
        .ok { method := req.method, target := t.originForm, version := req.version,
              headers := forwardedHeaders req t } := by
  have hreq := wellFormed_of_parse (readHead_ok hread).1 hparse
  have hwf := forwarded_wellFormed hreq ht
  have htext : rewriteHead req t = (forwarded req t).text := rewriteHead_eq req t
  rw [htext]
  exact ⟨fun k => blankLineAt_text_iff hwf, parseRequest_text hwf⟩

def oddRequest : Request :=
  { method := "GET".toList, target := "http://[200::1]:80/a".toList, version := "HTTP/1.1".toList,
    headers := ["proxy-Authorization: x".toList, "\nA\r".toList, "connection : a".toList,
      "Connection".toList] }

def oddTarget : ForwardTarget :=
  { host := "200::1".toList, port := 80, originForm := "/a".toList,
    authority := "[200::1]:80".toList }

lemma oddRequest_wellFormed : oddRequest.WellFormed := by decide

theorem odd_lines_kept_apart :
    (∀ k, BlankLineAt (utf8 (rewriteHead oddRequest oddTarget)) k ↔
      k = (utf8 (rewriteHead oddRequest oddTarget)).length) ∧
      parseRequest (utf8 (rewriteHead oddRequest oddTarget)) =
        .ok { method := "GET".toList, target := "/a".toList, version := "HTTP/1.1".toList,
              headers := ["\nA\r".toList, connectionClose, "Host: [200::1]:80".toList] } := by
  have hread : readHead [] [.ok ((utf8 oddRequest.text).take 20),
      .ok ((utf8 oddRequest.text).drop 20)] = some (.ok (utf8 oddRequest.text, []), []) := by
    decide +kernel
  have hparse := parseRequest_text oddRequest_wellFormed
  have ht : forwardTarget oddRequest = .ok oddTarget := by decide
  have hheaders : forwardedHeaders oddRequest oddTarget =
      ["\nA\r".toList, connectionClose, "Host: [200::1]:80".toList] := by decide
  rw [← hheaders]
  exact rewritten_head_parses_back hread hparse ht

end Yggstack.Http
