import Yggstack.Http.Rewrite

namespace Yggstack.Http

open Library

variable {headers : List (List Char)} {line : List Char} {req : Request} {t : ForwardTarget}

def BareHost (line : List Char) : Prop := ':' ∉ line ∧ toAsciiLowercase (trim line) = hostName

lemma headerName_of_not_mem (h : ':' ∉ line) : headerName line = toAsciiLowercase (trim line) := by
  have hall : line.takeWhile (· ≠ ':') = line := by
    rw [List.takeWhile_eq_self_iff]
    intro c hc
    simpa using fun he : c = ':' => h (by rwa [he] at hc)
  rw [headerName, hall]

lemma bareHost_iff : BareHost line ↔ ':' ∉ line ∧ headerName line = hostName := by
  refine and_congr_right fun h => ?_
  rw [headerName_of_not_mem h]

lemma lookup_line (line : List Char) :
    (do
      let (k, v) ← splitColon line
      if toAsciiLowercase (trim k) = toAsciiLowercase "Host".toList then some (trim v) else none) =
      if ':' ∈ line ∧ headerName line = hostName then
        some (trim (line.drop ((line.takeWhile (· ≠ ':')).length + 1)))
      else none := by
  have hname : toAsciiLowercase "Host".toList = hostName := by decide
  rw [hname, splitColon]
  by_cases hcolon : ':' ∈ line
  · simp only [hcolon, if_true, true_and]
    rfl
  · simp [hcolon]

lemma findHeader_host_eq_none :
    findHeader headers "Host".toList = none ↔
      ∀ line ∈ headers, ':' ∈ line → headerName line ≠ hostName := by
  rw [findHeader, List.findSome?_eq_none_iff]
  refine forall₂_congr fun line _ => ?_
  rw [lookup_line]
  simp

lemma mem_closeFirst (h : line ∈ closeFirst headers) : line ∈ headers ∨ line = connectionClose := by
  induction headers with
  | nil => cases h
  | cons l ls ih =>
    rw [closeFirst] at h
    split at h
    · rcases List.mem_cons.mp h with rfl | h
      · exact .inr rfl
      · exact .inl (List.mem_cons_of_mem l (List.mem_of_mem_filter h))
    · rcases List.mem_cons.mp h with rfl | h
      · exact .inl List.mem_cons_self
      · rcases ih h with h | h
        · exact .inl (List.mem_cons_of_mem l h)
        · exact .inr h

lemma forwardedHeaders_split (req : Request) (t : ForwardTarget) :
    ∃ front, (∀ line ∈ front, line ∈ req.headers ∨ line = connectionClose) ∧
      forwardedHeaders req t = front ++
        (if ∃ l ∈ req.headers, headerName l = hostName then []
          else ["Host: ".toList ++ t.authority]) := by
  refine ⟨_, ?_, rfl⟩
  intro line h
  rcases List.mem_append.mp h with h | h
  · rcases mem_closeFirst h with h | h
    · exact .inl (List.mem_of_mem_filter h)
    · exact .inr h
  · split at h
    · cases h
    · exact .inr (List.mem_singleton.mp h)

lemma findHeader_front {front : List (List Char)} (h : findHeader headers "Host".toList = none)
    (hfront : ∀ line ∈ front, line ∈ headers ∨ line = connectionClose) :
    findHeader front "Host".toList = none := by
  rw [findHeader_host_eq_none] at h ⊢
  intro line hline hcolon
  rcases hfront line hline with hline | rfl
  · exact h line hline hcolon
  · decide

lemma trim_space (cs : List Char) : trim (' ' :: cs) = trim cs := by
  rw [trim, trim, List.dropWhile_cons_of_pos (by decide)]

lemma findHeader_added (h : findHeader headers "Host".toList = none) (authority : List Char) :
    findHeader (headers ++ ["Host: ".toList ++ authority]) "Host".toList = some (trim authority) := by
  have hfind := h
  have htake : ("Host: ".toList ++ authority).takeWhile (· ≠ ':') = "Host".toList := by rfl
  have hcolon : ':' ∈ "Host: ".toList ++ authority := List.mem_append_left _ (by decide)
  have hname : headerName ("Host: ".toList ++ authority) = hostName := by
    rw [headerName, htake]
    decide
  rw [findHeader] at hfind ⊢
  rw [List.findSome?_append, hfind, Option.none_or, List.findSome?_singleton, lookup_line,
    if_pos ⟨hcolon, hname⟩, htake, ← trim_space]
  rfl

lemma host_line_iff (h : findHeader req.headers "Host".toList = none) :
    findHeader (forwardedHeaders req t) "Host".toList = some (trim t.authority) ↔
      ¬∃ line ∈ req.headers, BareHost line := by
  have hsame : (∃ line ∈ req.headers, BareHost line) ↔
      ∃ line ∈ req.headers, headerName line = hostName := by
    rw [findHeader_host_eq_none] at h
    constructor
    · rintro ⟨line, hline, hbare⟩
      exact ⟨line, hline, (bareHost_iff.mp hbare).2⟩
    · rintro ⟨line, hline, hname⟩
      exact ⟨line, hline, bareHost_iff.mpr ⟨fun hcolon => h line hline hcolon hname, hname⟩⟩
  obtain ⟨front, hfront, heq⟩ := forwardedHeaders_split req t
  have hnone := findHeader_front h hfront
  rw [hsame, heq]
  by_cases hhost : ∃ l ∈ req.headers, headerName l = hostName
  · rw [if_pos hhost, List.append_nil, hnone]
    exact iff_of_false (by simp) (not_not.mpr hhost)
  · rw [if_neg hhost, findHeader_added hnone]
    exact iff_of_true rfl hhost

/-- A forwarded request without a `Host` line gets one, unless one of its lines is the bare name.
The lines that are forwarded are those the origin reads. -/
theorem host_line_added_iff (req : Request) (t : ForwardTarget) (ht : forwardTarget req = .ok t)
    (hnone : findHeader req.headers "Host".toList = none) :
    rewriteHead req t = endLines ((forwarded req t).line :: forwardedHeaders req t) ++ crlf ∧
      (∀ head, FirstBlankLine head head.length → parseRequest head = .ok req →
        parseRequest (utf8 (rewriteHead req t)) =
          .ok ⟨req.method, t.originForm, req.version, forwardedHeaders req t⟩) ∧
      (findHeader (forwardedHeaders req t) "Host".toList = some (trim t.authority) ↔
        ¬∃ line ∈ req.headers, BareHost line) := by
  refine ⟨rewriteHead_eq req t, ?_, host_line_iff hnone⟩
  intro head hfirst hparse
  have hwf := forwarded_wellFormed (wellFormed_of_parse hfirst hparse) ht
  rw [show rewriteHead req t = (forwarded req t).text from rewriteHead_eq req t]
  exact parseRequest_text hwf

def plainRequest : Request :=
  ⟨"GET".toList, "http://h/".toList, "HTTP/1.1".toList, ["Accept: a".toList]⟩

def bareHostRequest : Request :=
  ⟨"GET".toList, "http://h/".toList, "HTTP/1.1".toList, [" Host".toList]⟩

def plainTarget : ForwardTarget := ⟨"h".toList, 80, "/".toList, "h".toList⟩

theorem plain_request_gets_host :
    findHeader (forwardedHeaders plainRequest plainTarget) "Host".toList = some "h".toList :=
  (host_line_added_iff plainRequest plainTarget (by decide) (by decide)).2.2.mpr (by
    rintro ⟨line, hline, hbare⟩
    rw [List.mem_singleton.mp hline] at hbare
    exact hbare.1 (by decide))

theorem bare_host_line_hides_host :
    (∃ head, FirstBlankLine head head.length ∧ parseRequest head = .ok bareHostRequest) ∧
      forwardTarget bareHostRequest = .ok plainTarget ∧
      findHeader bareHostRequest.headers "Host".toList = none ∧
      findHeader (forwardedHeaders bareHostRequest plainTarget) "Host".toList = none := by
  have hwf : bareHostRequest.WellFormed := by decide
  exact ⟨⟨_, firstBlankLine_text hwf, parseRequest_text hwf⟩, by decide, by decide, by decide⟩

end Yggstack.Http
