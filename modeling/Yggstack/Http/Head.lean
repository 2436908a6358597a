import Mathlib.Data.List.DropRight
import Yggstack.Forward.Mapping
import Yggstack.Library.Lines
import Yggstack.Library.Slices

namespace Yggstack.Http

open Library
open Forward (rsplitOnce parsePort)

def maxHeadBytes : ℕ := 16 * 1024

def chunkLen : ℕ := 4096

inductive IoError where
  | headTooLarge
  | eofInHead
  | nonUtf8
  | emptyHead
  | missingMethod
  | missingTarget
  | missingVersion
  | malformedRequestLine
  | badConnectAuthority
  | badUriAuthority
  | originFormWithoutHost
  | badHostHeader
  | unsupportedTarget (target : List Char)
  | unresolved (reason : String)
  | dial
  | read
  | write
  | writeZero
  deriving DecidableEq

structure Request where
  method : List Char
  target : List Char
  version : List Char
  headers : List (List Char)
  deriving DecidableEq

structure ForwardTarget where
  host : List Char
  port : UInt16
  originForm : List Char
  authority : List Char
  deriving DecidableEq

def blankLine : List UInt8 := [13, 10, 13, 10]

def findHeadEnd (buf : List UInt8) : Option ℕ :=
  if buf.length < 4 then none
  else (List.range (buf.length - 3)).find? fun i => (buf.drop i).take 4 = blankLine

-- One turn of the loop of `read_head`, up to its read: the head and what was read behind it, an
-- error, or nothing yet.
def headOf (buf : List UInt8) : Option (Except IoError (List UInt8 × List UInt8)) :=
  match findHeadEnd buf with
  | some pos => some (.ok (buf.take (pos + 4), buf.drop (pos + 4)))
  | none => if buf.length > maxHeadBytes then some (.error .headTooLarge) else none

-- `read_head` on what its reads return, the end of the stream being a read of no bytes; with what
-- is left of the reads. It is still waiting when they run out.
def readHead (buf : List UInt8) (reads : List (Except IoError (List UInt8))) :
    Option (Except IoError (List UInt8 × List UInt8) × List (Except IoError (List UInt8))) :=
  match headOf buf with
  | some r => some (r, reads)
  | none =>
    match reads with
    | [] => none
    | .error e :: reads => some (.error e, reads)
    | .ok bytes :: reads =>
      if bytes = [] then some (.error .eofInHead, reads) else readHead (buf ++ bytes) reads

def isWhitespace (c : Char) : Bool :=
  let n := c.toNat
  (0x9 ≤ n ∧ n ≤ 0xD) ∨ n = 0x20 ∨ n = 0x85 ∨ n = 0xA0 ∨ n = 0x1680 ∨ (0x2000 ≤ n ∧ n ≤ 0x200A) ∨
    n = 0x2028 ∨ n = 0x2029 ∨ n = 0x202F ∨ n = 0x205F ∨ n = 0x3000

def trim (cs : List Char) : List Char := (cs.dropWhile isWhitespace).rdropWhile isWhitespace

def toAsciiLowercase (cs : List Char) : List Char := cs.map Char.toLower

def parseRequest (head : List UInt8) : Except IoError Request := do
  let text ← (fromUtf8 head).elim (.error .nonUtf8) .ok
  match splitCrlf (trimEndCrlf text) with
  | [] => .error .emptyHead
  | requestLine :: headers =>
    match (requestLine.splitOn ' ').filter (· ≠ []) with
    | [] => .error .missingMethod
    | [_] => .error .missingTarget
    | [_, _] => .error .missingVersion
    | [method, target, version] => .ok { method, target, version, headers }
    | _ => .error .malformedRequestLine

def splitAuthority (authority : List Char) (defaultPort : UInt16) : Option (List Char × UInt16) :=
  match authority with
  | '[' :: rest =>
    if ']' ∈ rest then do
      let host := rest.takeWhile (· ≠ ']')
      let after := rest.drop (host.length + 1)
      let port ← match after with
        | ':' :: p => parsePort p
        | _ => some defaultPort
      return (host, port)
    else none
  | _ =>
    match rsplitOnce ':' authority with
    | some (host, port) => do return (host, ← parsePort port)
    | none => some (authority, defaultPort)

def splitColon (line : List Char) : Option (List Char × List Char) :=
  if ':' ∈ line then
    let name := line.takeWhile (· ≠ ':')
    some (name, line.drop (name.length + 1))
  else none

def findHeader (headers : List (List Char)) (name : List Char) : Option (List Char) :=
  headers.findSome? fun h => do
    let (k, v) ← splitColon h
    if toAsciiLowercase (trim k) = toAsciiLowercase name then some (trim v) else none

def forwardTarget (req : Request) : Except IoError ForwardTarget :=
  if "http://".toList.isPrefixOf req.target then
    let rest := req.target.drop "http://".length
    let (authority, path) :=
      if '/' ∈ rest then (rest.takeWhile (· ≠ '/'), rest.dropWhile (· ≠ '/')) else (rest, ['/'])
    match splitAuthority authority 80 with
    | none => .error .badUriAuthority
    | some (host, port) => .ok { host, port, originForm := path, authority }
  else if req.target.head? = some '/' then
    match findHeader req.headers "Host".toList with
    | none => .error .originFormWithoutHost
    | some hostHeader =>
      match splitAuthority hostHeader 80 with
      | none => .error .badHostHeader
      | some (host, port) =>
        .ok { host, port, originForm := req.target, authority := hostHeader }
  else .error (.unsupportedTarget req.target)

def headerName (line : List Char) : List Char :=
  toAsciiLowercase (trim (line.takeWhile (· ≠ ':')))

def hopByHop : List (List Char) :=
  ["proxy-connection".toList, "proxy-authorization".toList, "proxy-authentication".toList,
    "keep-alive".toList]

def connectionName : List Char := "connection".toList

def hostName : List Char := "host".toList

def connectionClose : List Char := "Connection: close".toList

-- The loop over the header lines: what was written so far, and whether a `Connection` and a `Host`
-- line were seen.
def rewriteLine (acc : List Char × Bool × Bool) (line : List Char) : List Char × Bool × Bool :=
  let (out, haveConnection, haveHost) := acc
  let lower := headerName line
  if lower ∈ hopByHop then acc
  else if lower = connectionName then
    if haveConnection then acc else (out ++ connectionClose ++ crlf, true, haveHost)
  else (out ++ line ++ crlf, haveConnection, haveHost || lower = hostName)

def rewriteHead (req : Request) (target : ForwardTarget) : List Char :=
  let out := req.method ++ [' '] ++ target.originForm ++ [' '] ++ req.version ++ crlf
  let (out, haveConnection, haveHost) := req.headers.foldl rewriteLine (out, false, false)
  let out := if haveConnection then out else out ++ connectionClose ++ crlf
  let out := if haveHost then out else out ++ "Host: ".toList ++ target.authority ++ crlf
  out ++ crlf

/-! The header lines that the loop writes, said at once. -/

def closeFirst : List (List Char) → List (List Char)
  | [] => []
  | l :: ls =>
    if headerName l = connectionName then
      connectionClose :: ls.filter (headerName · ≠ connectionName)
    else l :: closeFirst ls

def forwardedHeaders (req : Request) (t : ForwardTarget) : List (List Char) :=
  closeFirst (req.headers.filter (headerName · ∉ hopByHop)) ++
    (if ∃ l ∈ req.headers, headerName l = connectionName then [] else [connectionClose]) ++
    (if ∃ l ∈ req.headers, headerName l = hostName then []
      else ["Host: ".toList ++ t.authority])

def added (haveConnection : Bool) (headers : List (List Char)) : List (List Char) :=
  let kept := headers.filter (headerName · ∉ hopByHop)
  if haveConnection then kept.filter (headerName · ≠ connectionName) else closeFirst kept

def BlankLineAt (bytes : List UInt8) (h : ℕ) : Prop := h ≤ bytes.length ∧ blankLine <:+ bytes.take h

def FirstBlankLine (bytes : List UInt8) (h : ℕ) : Prop :=
  BlankLineAt bytes h ∧ ∀ k, BlankLineAt bytes k → h ≤ k

section Reading

variable {bytes head extra buf : List UInt8} {h k pos : ℕ}

lemma BlankLineAt.four_le (hb : BlankLineAt bytes h) : 4 ≤ h := by
  have hlen := hb.2.length_le
  rw [List.length_take] at hlen
  exact hlen.trans (min_le_left _ _)

lemma blankLineAt_append (ys : List UInt8) (hk : k ≤ bytes.length) :
    BlankLineAt (bytes ++ ys) k ↔ BlankLineAt bytes k := by
  simp only [BlankLineAt, List.take_append_of_le_length hk, hk, true_and, List.length_append,
    and_iff_right_iff_imp]
  intro _
  omega

lemma firstBlankLine_append (ys : List UInt8) (hh : h ≤ bytes.length) :
    FirstBlankLine (bytes ++ ys) h ↔ FirstBlankLine bytes h := by
  rw [FirstBlankLine, FirstBlankLine, blankLineAt_append ys hh]
  refine and_congr_right fun _ => ⟨fun hmin k hk => ?_, fun hmin k hk => ?_⟩
  · exact hmin k ((blankLineAt_append ys hk.1).mpr hk)
  · by_cases hle : k ≤ bytes.length
    · exact hmin k ((blankLineAt_append ys hle).mp hk)
    · omega

lemma FirstBlankLine.unique (hh : FirstBlankLine bytes h) (hk : FirstBlankLine bytes k) : h = k :=
  (hh.2 k hk.1).antisymm (hk.2 h hh.1)

lemma blankLineAt_iff (i : ℕ) : BlankLineAt bytes (i + 4) ↔
    i + 4 ≤ bytes.length ∧ (bytes.drop i).take 4 = blankLine := by
  refine and_congr_right fun hle => ?_
  have hdrop : (bytes.take (i + 4)).drop i = (bytes.drop i).take 4 := by
    rw [List.drop_take, Nat.add_sub_cancel_left]
  have hlen : (bytes.take (i + 4)).length - blankLine.length = i := by
    simp only [List.length_take, blankLine, List.length_cons, List.length_nil]
    omega
  rw [List.suffix_iff_eq_drop, hlen, hdrop, eq_comm]

lemma findHeadEnd_eq_some : findHeadEnd buf = some pos ↔ FirstBlankLine buf (pos + 4) := by
  rw [findHeadEnd]
  split
  · next hshort =>
    refine iff_of_false (by simp) fun hb => ?_
    have := hb.1.1
    omega
  · rw [List.find?_range_eq_some, FirstBlankLine, blankLineAt_iff]
    simp only [decide_eq_true_eq, Bool.not_eq_true', decide_eq_false_iff_not, List.mem_range]
    constructor
    · rintro ⟨hpos, hlt, hmin⟩
      refine ⟨⟨by omega, hpos⟩, fun k hk => ?_⟩
      obtain ⟨i, rfl⟩ := Nat.exists_eq_add_of_le' hk.four_le
      by_contra hi
      exact hmin i (by omega) ((blankLineAt_iff i).mp hk).2
    · rintro ⟨⟨hle, hpos⟩, hmin⟩
      refine ⟨hpos, by omega, fun i hi hw => ?_⟩
      have := hmin (i + 4) ((blankLineAt_iff i).mpr ⟨by omega, hw⟩)
      omega

lemma findHeadEnd_eq_none : findHeadEnd buf = none ↔ ∀ k, ¬BlankLineAt buf k := by
  constructor
  · intro hnone k hk
    have hex : ∃ k, BlankLineAt buf k := ⟨k, hk⟩
    classical
    have hfirst : FirstBlankLine buf (Nat.find hex) :=
      ⟨Nat.find_spec hex, fun j hj => Nat.find_min' hex hj⟩
    obtain ⟨i, hi⟩ := Nat.exists_eq_add_of_le' hfirst.1.four_le
    rw [hi, ← findHeadEnd_eq_some, hnone] at hfirst
    exact absurd hfirst (by simp)
  · intro hnone
    rw [Option.eq_none_iff_forall_ne_some]
    intro pos hpos
    exact hnone _ (findHeadEnd_eq_some.mp hpos).1

lemma headOf_of_firstBlankLine (hb : FirstBlankLine buf h) :
    headOf buf = some (.ok (buf.take h, buf.drop h)) := by
  obtain ⟨pos, rfl⟩ := Nat.exists_eq_add_of_le' hb.1.four_le
  rw [headOf, findHeadEnd_eq_some.mpr hb]

lemma headOf_eq_none {later : List UInt8} (hfirst : FirstBlankLine (buf ++ later) h)
    (hlt : buf.length < h) (hmax : buf.length ≤ maxHeadBytes) : headOf buf = none := by
  have hnone : findHeadEnd buf = none := by
    rw [findHeadEnd_eq_none]
    intro k hk
    have hle := hfirst.2 k ((blankLineAt_append later hk.1).mpr hk)
    have := hk.1
    omega
  rw [headOf, hnone]
  exact if_neg (by omega)

lemma firstBlankLine_of_headOf (hr : headOf buf = some (.ok (head, extra))) :
    buf = head ++ extra ∧ FirstBlankLine head head.length := by
  rw [headOf] at hr
  split at hr
  · next pos hpos =>
    simp only [Option.some.injEq, Except.ok.injEq, Prod.mk.injEq] at hr
    obtain ⟨rfl, rfl⟩ := hr
    have hfirst := findHeadEnd_eq_some.mp hpos
    have hlen : (buf.take (pos + 4)).length = pos + 4 := List.length_take_of_le hfirst.1.1
    refine ⟨(List.take_append_drop _ _).symm, ?_⟩
    rw [hlen, ← firstBlankLine_append (buf.drop (pos + 4)) hlen.ge, List.take_append_drop]
    exact hfirst
  · split at hr <;> simp at hr

lemma readHead_ok {reads rest : List (Except IoError (List UInt8))}
    (hr : readHead buf reads = some (.ok (head, extra), rest)) :
    FirstBlankLine head head.length ∧
      ∃ chunks : List (List UInt8), reads = chunks.map .ok ++ rest ∧
        buf ++ chunks.flatten = head ++ extra := by
  induction reads generalizing buf with
  | nil =>
    rw [readHead] at hr
    split at hr
    · next r hhead =>
      simp only [Option.some.injEq, Prod.mk.injEq] at hr
      obtain ⟨rfl, rfl⟩ := hr
      obtain ⟨rfl, hfirst⟩ := firstBlankLine_of_headOf hhead
      exact ⟨hfirst, [], rfl, by simp⟩
    · simp at hr
  | cons r reads ih =>
    rw [readHead.eq_def] at hr
    split at hr
    · next r hhead =>
      simp only [Option.some.injEq, Prod.mk.injEq] at hr
      obtain ⟨rfl, rfl⟩ := hr
      obtain ⟨rfl, hfirst⟩ := firstBlankLine_of_headOf hhead
      exact ⟨hfirst, [], rfl, by simp⟩
    · cases r with
      | error e => simp at hr
      | ok bytes =>
        simp only at hr
        split at hr
        · simp at hr
        · obtain ⟨hfirst, chunks, rfl, hflat⟩ := ih hr
          exact ⟨hfirst, bytes :: chunks, rfl, by rw [← hflat]; simp⟩

end Reading

end Yggstack.Http
