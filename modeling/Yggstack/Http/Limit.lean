import Yggstack.Http.Head

namespace Yggstack.Http

open Library

structure Cut (stream : List UInt8) (pieces : List (List UInt8)) : Prop where
  flatten : pieces.flatten = stream
  sizes : ∀ p ∈ pieces, p ≠ [] ∧ p.length ≤ chunkLen

def readPieces (buf : List UInt8) (pieces : List (List UInt8)) :
    Option (Except IoError (List UInt8 × List UInt8)) :=
  (readHead buf (pieces.map .ok ++ [.ok []])).map Prod.fst

def verdict (pieces : List (List UInt8)) : Option (Except IoError Unit) :=
  (readPieces [] pieces).map fun r => r.map fun _ => ()

/-- Heads are of the size allowed, and whether one is read is up to the stream. -/
structure LimitHolds (stream : List UInt8) : Prop where
  bounded : ∀ pieces, Cut stream pieces → ∀ head extra,
    readPieces [] pieces = some (.ok (head, extra)) → head.length ≤ maxHeadBytes
  decided : ∀ pieces pieces', Cut stream pieces → Cut stream pieces' →
    verdict pieces = verdict pieces'

variable {stream buf piece : List UInt8} {pieces : List (List UInt8)} {h : ℕ}

lemma readPieces_some {r : Except IoError (List UInt8 × List UInt8)} (hr : headOf buf = some r)
    (pieces : List (List UInt8)) : readPieces buf pieces = some r := by
  rw [readPieces, readHead.eq_def, hr]
  rfl

lemma readPieces_nil (hr : headOf buf = none) : readPieces buf [] = some (.error .eofInHead) := by
  rw [readPieces, readHead.eq_def, hr]
  rfl

lemma readPieces_cons (hr : headOf buf = none) (hne : piece ≠ []) :
    readPieces buf (piece :: pieces) = readPieces (buf ++ piece) pieces := by
  rw [readPieces, readHead.eq_def, hr]
  simp only [List.map_cons, List.cons_append, if_neg hne]
  rfl

lemma readPieces_append {later : List (List UInt8)} (hne : ∀ p ∈ pieces, p ≠ [])
    (hfirst : FirstBlankLine (buf ++ pieces.flatten ++ later.flatten) h)
    (hlt : (buf ++ pieces.flatten).length < h) (hmax : (buf ++ pieces.flatten).length ≤ maxHeadBytes) :
    readPieces buf (pieces ++ later) = readPieces (buf ++ pieces.flatten) later := by
  induction pieces generalizing buf with
  | nil => simp
  | cons piece pieces ih =>
    rw [List.forall_mem_cons] at hne
    rw [List.flatten_cons, ← List.append_assoc] at hfirst hlt hmax ⊢
    have hbuf : buf.length ≤ (buf ++ piece ++ pieces.flatten).length := by
      simp only [List.length_append]
      omega
    have hnone : headOf buf = none := by
      rw [List.append_assoc, List.append_assoc] at hfirst
      exact headOf_eq_none hfirst (by omega) (by omega)
    rw [List.cons_append, readPieces_cons hnone hne.1]
    exact ih hne.2 hfirst hlt hmax

lemma readPieces_accepts (hfirst : FirstBlankLine stream h) (hmax : h ≤ maxHeadBytes)
    (hflat : buf ++ pieces.flatten = stream) (hne : ∀ p ∈ pieces, p ≠ []) :
    ∃ extra, readPieces buf pieces = some (.ok (stream.take h, extra)) := by
  induction pieces generalizing buf with
  | nil =>
    rw [List.flatten_nil, List.append_nil] at hflat
    subst hflat
    exact ⟨_, readPieces_some (headOf_of_firstBlankLine hfirst) []⟩
  | cons piece pieces ih =>
    rw [List.forall_mem_cons] at hne
    rcases Nat.lt_or_ge buf.length h with hlt | hge
    · have hnone : headOf buf = none := by
        rw [← hflat] at hfirst
        exact headOf_eq_none hfirst hlt (by omega)
      rw [readPieces_cons hnone hne.1]
      exact ih (by rw [← hflat, List.flatten_cons, List.append_assoc]) hne.2
    · rw [← hflat] at hfirst ⊢
      rw [firstBlankLine_append _ hge] at hfirst
      rw [List.take_append_of_le_length hge]
      exact ⟨_, readPieces_some (headOf_of_firstBlankLine hfirst) _⟩

def refusal (stream : List UInt8) : IoError :=
  if maxHeadBytes < stream.length then .headTooLarge else .eofInHead

lemma headOf_far (hfar : ∀ h, FirstBlankLine stream h → maxHeadBytes + chunkLen < h)
    (hflat : buf ++ pieces.flatten = stream) (hlen : buf.length ≤ maxHeadBytes + chunkLen) :
    headOf buf = if maxHeadBytes < buf.length then some (.error .headTooLarge) else none := by
  have hnone : findHeadEnd buf = none := by
    rw [Option.eq_none_iff_forall_ne_some]
    intro pos hpos
    have hfirst := findHeadEnd_eq_some.mp hpos
    have hle := hfirst.1.1
    rw [← firstBlankLine_append pieces.flatten hle, hflat] at hfirst
    have := hfar _ hfirst
    omega
  rw [headOf, hnone]

lemma readPieces_refuses (hfar : ∀ h, FirstBlankLine stream h → maxHeadBytes + chunkLen < h)
    (hflat : buf ++ pieces.flatten = stream) (hlen : buf.length ≤ maxHeadBytes + chunkLen)
    (hsizes : ∀ p ∈ pieces, p ≠ [] ∧ p.length ≤ chunkLen) :
    readPieces buf pieces = some (.error (refusal stream)) := by
  induction pieces generalizing buf with
  | nil =>
    have hhead := headOf_far hfar hflat hlen
    rw [List.flatten_nil, List.append_nil] at hflat
    subst hflat
    rw [refusal]
    split at hhead
    · next hlarge => rw [if_pos hlarge, readPieces_some hhead]
    · next hsmall => rw [if_neg hsmall, readPieces_nil hhead]
  | cons piece pieces ih =>
    rw [List.forall_mem_cons] at hsizes
    have hhead := headOf_far hfar hflat hlen
    split at hhead
    · next hlarge =>
      have hstream : maxHeadBytes < stream.length := by
        rw [← hflat, List.length_append]
        omega
      rw [readPieces_some hhead, refusal, if_pos hstream]
    · rw [readPieces_cons hhead hsizes.1.1]
      apply ih _ _ hsizes.2
      · rw [← hflat, List.flatten_cons, List.append_assoc]
      · rw [List.length_append]
        have := hsizes.1.2
        omega

lemma limitHolds_of_reject (hfar : ∀ h, FirstBlankLine stream h → maxHeadBytes + chunkLen < h) :
    LimitHolds stream := by
  have hall : ∀ pieces, Cut stream pieces → readPieces [] pieces = some (.error (refusal stream)) :=
    fun pieces hcut => readPieces_refuses hfar hcut.flatten (Nat.zero_le _) hcut.sizes
  constructor
  · intro pieces hcut head extra hread
    rw [hall pieces hcut] at hread
    cases hread
  · intro pieces pieces' hcut hcut'
    rw [verdict, verdict, hall pieces hcut, hall pieces' hcut']

lemma limitHolds_of_accept (hfirst : FirstBlankLine stream h) (hmax : h ≤ maxHeadBytes) :
    LimitHolds stream := by
  have hall : ∀ pieces, Cut stream pieces →
      ∃ extra, readPieces [] pieces = some (.ok (stream.take h, extra)) :=
    fun pieces hcut =>
      readPieces_accepts hfirst hmax hcut.flatten fun p hp => (hcut.sizes p hp).1
  constructor
  · intro pieces hcut head extra hread
    obtain ⟨rest, hrest⟩ := hall pieces hcut
    rw [hread] at hrest
    cases hrest
    exact (List.length_take_le _ _).trans hmax
  · intro pieces pieces' hcut hcut'
    obtain ⟨rest, hrest⟩ := hall pieces hcut
    obtain ⟨rest', hrest'⟩ := hall pieces' hcut'
    rw [verdict, verdict, hrest, hrest']
    rfl

def singly (bytes : List UInt8) : List (List UInt8) := bytes.map fun b => [b]

lemma cut_singly (bytes : List UInt8) : Cut bytes (singly bytes) where
  flatten := by
    induction bytes with
    | nil => rfl
    | cons b bytes ih =>
      rw [singly] at ih
      rw [singly, List.map_cons, List.flatten_cons, ih, List.singleton_append]
  sizes p hp := by
    obtain ⟨b, -, rfl⟩ := List.mem_map.mp hp
    refine ⟨by simp, ?_⟩
    rw [List.length_singleton]
    decide

def lateCut (stream : List UInt8) (h : ℕ) : List (List UInt8) :=
  singly (stream.take maxHeadBytes) ++
    ((stream.take h).drop maxHeadBytes :: singly (stream.drop h))

lemma take_limit (hlarge : maxHeadBytes < h) :
    stream.take maxHeadBytes ++ (stream.take h).drop maxHeadBytes = stream.take h := by
  have hfront : stream.take maxHeadBytes = (stream.take h).take maxHeadBytes := by
    rw [List.take_take, min_eq_left hlarge.le]
  rw [hfront, List.take_append_drop]

lemma length_piece (hlen : h ≤ stream.length) :
    ((stream.take h).drop maxHeadBytes).length = h - maxHeadBytes := by
  rw [List.length_drop, List.length_take_of_le hlen]

lemma piece_ne_nil (hlen : h ≤ stream.length) (hlarge : maxHeadBytes < h) :
    (stream.take h).drop maxHeadBytes ≠ [] := by
  intro hnil
  have hpiece := length_piece hlen
  rw [hnil, List.length_nil] at hpiece
  omega

lemma cut_lateCut (hlen : h ≤ stream.length) (hlarge : maxHeadBytes < h)
    (hreach : h ≤ maxHeadBytes + chunkLen) : Cut stream (lateCut stream h) where
  flatten := by
    rw [lateCut, List.flatten_append, List.flatten_cons, (cut_singly _).flatten,
      (cut_singly _).flatten, ← List.append_assoc, take_limit hlarge, List.take_append_drop]
  sizes p hp := by
    rcases List.mem_append.mp hp with hp | hp
    · exact (cut_singly _).sizes p hp
    · rcases List.mem_cons.mp hp with rfl | hp
      · refine ⟨piece_ne_nil hlen hlarge, ?_⟩
        rw [length_piece hlen]
        omega
      · exact (cut_singly _).sizes p hp

lemma readPieces_lateCut (hfirst : FirstBlankLine stream h) (hlarge : maxHeadBytes < h) :
    ∃ extra, readPieces [] (lateCut stream h) = some (.ok (stream.take h, extra)) := by
  have hlen : h ≤ stream.length := hfirst.1.1
  have hsize : (stream.take maxHeadBytes).length = maxHeadBytes :=
    List.length_take_of_le (by omega)
  have hfront : (singly (stream.take maxHeadBytes)).flatten = stream.take maxHeadBytes :=
    (cut_singly _).flatten
  have hrest : stream.take maxHeadBytes ++
      ((stream.take h).drop maxHeadBytes :: singly (stream.drop h)).flatten = stream := by
    rw [List.flatten_cons, (cut_singly _).flatten, ← List.append_assoc, take_limit hlarge,
      List.take_append_drop]
  have hnone : headOf (stream.take maxHeadBytes) = none := by
    rw [← hrest] at hfirst
    exact headOf_eq_none hfirst (by omega) (by omega)
  have hhead : FirstBlankLine (stream.take h) h := by
    rw [← firstBlankLine_append (stream.drop h) (by rw [List.length_take_of_le hlen]),
      List.take_append_drop]
    exact hfirst
  have hskip : readPieces [] (lateCut stream h) = readPieces (stream.take maxHeadBytes)
      ((stream.take h).drop maxHeadBytes :: singly (stream.drop h)) := by
    rw [lateCut, readPieces_append (h := h), List.nil_append, hfront]
    · exact fun p hp => ((cut_singly _).sizes p hp).1
    · rwa [List.nil_append, hfront, hrest]
    · rw [List.nil_append, hfront]
      omega
    · rw [List.nil_append, hfront]
      omega
  rw [hskip, readPieces_cons hnone (piece_ne_nil hlen hlarge), take_limit hlarge]
  have hread := readPieces_some (headOf_of_firstBlankLine hhead) (singly (stream.drop h))
  rw [List.take_take, min_self] at hread
  exact ⟨_, hread⟩

/-- The size and the verdict are as they should be unless the first blank line is less than one read
behind the limit. -/
theorem head_limit_holds_iff (stream : List UInt8) :
    LimitHolds stream ↔
      ¬∃ h, FirstBlankLine stream h ∧ maxHeadBytes < h ∧ h ≤ maxHeadBytes + chunkLen := by
  constructor
  · rintro hlimit ⟨h, hfirst, hlarge, hreach⟩
    obtain ⟨extra, hread⟩ := readPieces_lateCut hfirst hlarge
    have hle := hlimit.bounded _ (cut_lateCut hfirst.1.1 hlarge hreach) _ _ hread
    rw [List.length_take_of_le hfirst.1.1] at hle
    omega
  · intro hno
    by_cases hsmall : ∃ h, FirstBlankLine stream h ∧ h ≤ maxHeadBytes
    · obtain ⟨h, hfirst, hmax⟩ := hsmall
      exact limitHolds_of_accept hfirst hmax
    · apply limitHolds_of_reject
      intro h hfirst
      by_contra hle
      refine hno ⟨h, hfirst, ?_, by omega⟩
      by_contra hmax
      exact hsmall ⟨h, hfirst, by omega⟩

lemma readPieces_singly (hfirst : FirstBlankLine stream h) (hlarge : maxHeadBytes + 1 < h) :
    readPieces [] (singly stream) = some (.error .headTooLarge) := by
  have hlen : h ≤ stream.length := hfirst.1.1
  have hfront : (singly (stream.take maxHeadBytes)).flatten = stream.take maxHeadBytes :=
    (cut_singly _).flatten
  have hsize : (stream.take maxHeadBytes).length = maxHeadBytes :=
    List.length_take_of_le (by omega)
  obtain ⟨b, rest, hrest⟩ : ∃ b rest, stream.drop maxHeadBytes = b :: rest := by
    cases hdrop : stream.drop maxHeadBytes with
    | nil =>
      have := List.drop_eq_nil_iff.mp hdrop
      omega
    | cons b rest => exact ⟨b, rest, rfl⟩
  have hstream : stream.take maxHeadBytes ++ b :: rest = stream := by
    rw [← hrest, List.take_append_drop]
  have hsplit : singly stream = singly (stream.take maxHeadBytes) ++ [b] :: singly rest := by
    conv_lhs => rw [← hstream]
    rw [singly, List.map_append, List.map_cons]
    rfl
  have hnone : headOf (stream.take maxHeadBytes) = none := by
    rw [← hstream] at hfirst
    exact headOf_eq_none hfirst (by omega) (by omega)
  have hlarger : headOf (stream.take maxHeadBytes ++ [b]) = some (.error .headTooLarge) := by
    have hno : findHeadEnd (stream.take maxHeadBytes ++ [b]) = none := by
      rw [findHeadEnd_eq_none]
      intro k hk
      have happend := (blankLineAt_append rest hk.1).mpr hk
      rw [← List.append_cons, hstream] at happend
      have hle := hfirst.2 k happend
      have hk' := hk.1
      rw [List.length_append, hsize, List.length_singleton] at hk'
      omega
    rw [headOf, hno]
    apply if_pos
    rw [List.length_append, hsize, List.length_singleton]
    omega
  have hskip : readPieces [] (singly stream) =
      readPieces (stream.take maxHeadBytes) ([b] :: singly rest) := by
    rw [hsplit, readPieces_append (h := h), List.nil_append, hfront]
    · exact fun p hp => ((cut_singly _).sizes p hp).1
    · rw [List.nil_append, hfront, List.flatten_cons, (cut_singly rest).flatten,
        List.singleton_append, hstream]
      exact hfirst
    · rw [List.nil_append, hfront]
      omega
    · rw [List.nil_append, hfront]
      omega
  rw [hskip, readPieces_cons hnone (by simp), readPieces_some hlarger]

def lateStream : List UInt8 := List.replicate 16382 97 ++ blankLine

lemma length_lateStream : lateStream.length = 16386 := by
  rw [lateStream, List.length_append, List.length_replicate]
  rfl

lemma firstBlankLine_lateStream : FirstBlankLine lateStream 16386 := by
  constructor
  · refine ⟨length_lateStream.ge, ?_⟩
    rw [← length_lateStream, List.take_length]
    exact List.suffix_append _ _
  · intro k hk
    obtain ⟨i, rfl⟩ := Nat.exists_eq_add_of_le' hk.four_le
    have hline := ((blankLineAt_iff i).mp hk).2
    by_contra hlt
    have hi : i < (List.replicate 16382 (97 : UInt8)).length := by
      rw [List.length_replicate]
      omega
    have hfirst : lateStream[i]? = some 97 := by
      rw [lateStream, List.getElem?_append_left hi, List.getElem?_replicate, if_pos]
      rwa [List.length_replicate] at hi
    have hhead := congrArg List.head? hline
    rw [List.head?_take, if_neg (by decide), List.head?_drop, hfirst] at hhead
    exact absurd hhead (by decide)

theorem late_head_is_up_to_cut :
    Cut lateStream (lateCut lateStream 16386) ∧ Cut lateStream (singly lateStream) ∧
      (∃ head extra, readPieces [] (lateCut lateStream 16386) = some (.ok (head, extra)) ∧
        maxHeadBytes < head.length) ∧
      readPieces [] (singly lateStream) = some (.error .headTooLarge) := by
  have hfirst := firstBlankLine_lateStream
  have hlen : 16386 ≤ lateStream.length := hfirst.1.1
  refine ⟨cut_lateCut hlen (by decide) (by decide), cut_singly lateStream, ?_,
    readPieces_singly hfirst (by decide)⟩
  obtain ⟨extra, hread⟩ := readPieces_lateCut hfirst (by decide)
  refine ⟨_, extra, hread, ?_⟩
  rw [List.length_take_of_le hlen]
  decide

end Yggstack.Http
