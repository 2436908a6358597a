import Yggstack.Frag.Semantics

namespace Yggstack.Frag

open Library FragReassembler

def fragmentsFrom (key : FragKey) (nextHeader : UInt8) : ℕ → List (List UInt8) → List Fragment
  | _, [] => []
  | off, xs :: pieces =>
    { key, nextHeader, offset := off, more := !pieces.isEmpty, payload := xs } ::
      fragmentsFrom key nextHeader (off + xs.length) pieces

def packets (key : FragKey) (nextHeader : UInt8) (envelopes : List Envelope)
    (pieces : List (List UInt8)) :
    List (List UInt8) :=
  List.zipWith encode envelopes (fragmentsFrom key nextHeader 0 pieces)

def keyOf (pkt : List UInt8) : Option FragKey := (fragment? pkt).map Fragment.key

def Feed.Within (x : Feed) (t₀ : ℕ) : Prop :=
  (t₀ ≤ x.evictNow ∧ x.evictNow < t₀ + fragTimeout) ∧ t₀ ≤ x.createdNow ∧
    x.createdNow < t₀ + fragTimeout

def ours (key : FragKey) (feeds : List Feed) : List Fragment :=
  feeds.filterMap fun x => (fragment? x.pkt).filter fun f => f.key = key

section Fragments

variable {key : FragKey} {nextHeader : UInt8} {off : ℕ} {pieces : List (List UInt8)} {f : Fragment}

lemma segment_fragmentsFrom (key : FragKey) (nextHeader : UInt8) (off : ℕ)
    (pieces : List (List UInt8)) :
    (fragmentsFrom key nextHeader off pieces).map Fragment.segment = Segment.cut off pieces := by
  induction pieces generalizing off with
  | nil => rfl
  | cons xs pieces ih =>
    rw [fragmentsFrom, List.map_cons, ih]
    rfl

lemma length_fragmentsFrom (off : ℕ) (pieces : List (List UInt8)) :
    (fragmentsFrom key nextHeader off pieces).length = pieces.length := by
  induction pieces generalizing off with
  | nil => rfl
  | cons xs pieces ih => rw [fragmentsFrom, List.length_cons, ih, List.length_cons]

lemma segment_mem (h : f ∈ fragmentsFrom key nextHeader off pieces) :
    f.segment ∈ Segment.cut off pieces := by
  rw [← segment_fragmentsFrom]
  exact List.mem_map_of_mem h

lemma fields_of_mem (h : f ∈ fragmentsFrom key nextHeader off pieces) :
    f.key = key ∧ f.nextHeader = nextHeader ∧
      (f.more = false → f.fin = off + pieces.flatten.length) := by
  induction pieces generalizing off with
  | nil => cases h
  | cons xs pieces ih =>
    rcases List.mem_cons.mp h with rfl | h
    · refine ⟨rfl, rfl, ?_⟩
      intro hm
      have hn : pieces = [] := by simpa using hm
      simp [Fragment.fin, hn]
    · obtain ⟨hk, hn, hl⟩ := ih h
      refine ⟨hk, hn, fun hm => ?_⟩
      rw [hl hm, List.flatten_cons, List.length_append]
      omega

lemma last_mem (h : pieces ≠ []) :
    ∃ f ∈ fragmentsFrom key nextHeader off pieces, f.more = false := by
  induction pieces generalizing off with
  | nil => exact absurd rfl h
  | cons xs pieces ih =>
    by_cases hp : pieces = []
    · exact ⟨_, List.mem_cons_self, by simp [hp]⟩
    · obtain ⟨f, hf, hm⟩ := @ih (off + xs.length) hp
      exact ⟨f, List.mem_cons_of_mem _ hf, hm⟩

lemma offset_dvd (ho : 8 ∣ off) (h8 : ∀ xs ∈ pieces.dropLast, 8 ∣ xs.length)
    (h : f ∈ fragmentsFrom key nextHeader off pieces) : 8 ∣ f.offset := by
  induction pieces generalizing off with
  | nil => cases h
  | cons xs pieces ih =>
    rcases List.mem_cons.mp h with rfl | h
    · exact ho
    · cases pieces with
      | nil => cases h
      | cons ys pieces =>
        refine ih (dvd_add ho (h8 xs (by simp))) ?_ h
        intro zs hz
        exact h8 zs (by simp [hz])

end Fragments

structure Cut (key : FragKey) (nextHeader : UInt8) (pieces : List (List UInt8))
    (frags : List Fragment) : Prop where
  perm : frags.Perm (fragmentsFrom key nextHeader 0 pieces)
  nonempty : pieces ≠ []
  pos : ∀ xs ∈ pieces, xs ≠ []
  le : pieces.flatten.length ≤ bufLen

namespace Cut

variable {key : FragKey} {nextHeader : UInt8} {pieces : List (List UInt8)}
    {frags done rest : List Fragment}
  {f : Fragment} {t : ℕ} {s : FragSlot}

lemma segment (h : Cut key nextHeader pieces frags) (hf : f ∈ frags) :
    f.segment ∈ Segment.cut 0 pieces :=
  segment_mem (h.perm.mem_iff.mp hf)

lemma fields (h : Cut key nextHeader pieces frags) (hf : f ∈ frags) :
    f.key = key ∧ f.nextHeader = nextHeader ∧ (f.more = false → f.fin = pieces.flatten.length) := by
  simpa using fields_of_mem (h.perm.mem_iff.mp hf)

lemma fin_le (h : Cut key nextHeader pieces frags) (hf : f ∈ frags) :
    f.fin ≤ pieces.flatten.length := by
  have hb := (Segment.bounds_of_mem_cut (h.segment hf)).2
  rwa [Nat.zero_add] at hb

lemma total (h : Cut key nextHeader pieces frags) :
    Segment.total (frags.map Fragment.segment) = pieces.flatten.length := by
  rw [Segment.total_perm (h.perm.map _), segment_fragmentsFrom, Segment.total_cut]

lemma total_lt (h : Cut key nextHeader pieces (done ++ rest)) (hr : rest ≠ []) :
    Segment.total (done.map Fragment.segment) < pieces.flatten.length := by
  have ht := h.total
  rw [List.map_append, Segment.total_append] at ht
  obtain ⟨f, rest, rfl⟩ := List.exists_cons_of_ne_nil hr
  have hf := h.segment (f := f) (by simp)
  have hp := List.length_pos_iff.mpr (h.pos _ (Segment.content_of_mem_cut hf))
  rw [List.map_cons, Segment.total_cons] at ht
  omega

lemma slot (h : Cut key nextHeader pieces (done ++ rest)) (hs : FragSlot.ofLog t done = some s) :
    s.src = key.src ∧ s.dst = key.dst ∧ s.nextHeader = nextHeader ∧
      s.received = Segment.total (done.map Fragment.segment) ∧
      (∀ n ∈ s.totalLen, n = pieces.flatten.length) ∧
        s.buf = Segment.paste (List.replicate bufLen 0)
        (done.map Fragment.segment) := by
  cases done with
  | nil => cases hs
  | cons f done =>
    obtain rfl := Option.some.inj hs
    obtain ⟨hk, hn, -⟩ := h.fields (f := f) (by simp)
    obtain ⟨hsrc, hdst, hnext, -⟩ := FragSlot.foldl_write_const (.fresh f t) (f :: done)
    refine ⟨?_, ?_, ?_, ?_, ?_, FragSlot.foldl_write_buf _ _⟩
    · rw [hsrc, ← hk]; rfl
    · rw [hdst, ← hk]; rfl
    · rw [hnext, ← hn]; rfl
    · rw [FragSlot.foldl_write_received]
      simp [FragSlot.fresh]
    · intro n htot
      rcases FragSlot.foldl_write_totalLen _ _ htot with hz | ⟨g, hg, hm, hfin⟩
      · simp [FragSlot.fresh] at hz
      · rw [← hfin]
        exact (h.fields (List.mem_append_left _ hg)).2.2 hm

lemma incomplete (h : Cut key nextHeader pieces (done ++ rest)) (hr : rest ≠ [])
    (hs : FragSlot.ofLog t done = some s) : s.complete? = none := by
  obtain ⟨-, -, -, hrec, htot, -⟩ := h.slot hs
  rw [Option.eq_none_iff_forall_ne_some]
  intro n hc
  obtain ⟨hn, hle⟩ := FragSlot.complete?_eq_some.mp hc
  have hlt := h.total_lt hr
  rw [htot n hn] at hle
  omega

lemma complete (h : Cut key nextHeader pieces done) (hs : FragSlot.ofLog t done = some s) :
    s.complete? = some pieces.flatten.length ∧
      s.packet pieces.flatten.length =
        ipv6Header key.src key.dst nextHeader pieces.flatten.length ++ pieces.flatten := by
  have hcut : Cut key nextHeader pieces (done ++ []) := by simpa using h
  obtain ⟨hsrc, hdst, hnext, hrec, htot, hbuf⟩ := hcut.slot hs
  have hsome : s.totalLen ≠ none := by
    obtain ⟨f, hf, hm⟩ : ∃ f ∈ fragmentsFrom key nextHeader 0 pieces, f.more = false :=
      last_mem h.nonempty
    cases done with
    | nil => cases hs
    | cons g done =>
      obtain rfl := Option.some.inj hs
      exact FragSlot.foldl_write_totalLen_ne_none _ _ (Or.inr ⟨f, h.perm.mem_iff.mpr hf, hm⟩)
  obtain ⟨n, hn⟩ := Option.ne_none_iff_exists'.mp hsome
  obtain rfl := htot n hn
  refine ⟨FragSlot.complete?_eq_some.mpr ⟨hn, by rw [hrec, h.total]⟩, ?_⟩
  rw [FragSlot.packet, hsrc, hdst, hnext, hbuf]
  congr 1
  have hfit :
      ∀ g ∈ done.map Fragment.segment, g.fin ≤ (List.replicate bufLen (0 : UInt8)).length := by
    intro g hg
    obtain ⟨f, hf, rfl⟩ := List.mem_map.mp hg
    rw [List.length_replicate]
    exact (h.fin_le hf).trans h.le
  have hlen := Segment.length_paste hfit
  apply List.ext_getElem?
  intro p
  by_cases hp : p < pieces.flatten.length
  · rw [List.getElem?_take_of_lt hp]
    obtain ⟨g, hg, hc⟩ : ∃ g ∈ Segment.cut 0 pieces, g.Covers p :=
      Segment.covered_by_cut (Nat.zero_le p) (by simpa using hp)
    rw [← segment_fragmentsFrom key nextHeader, ← (h.perm.map _).mem_iff] at hg
    rcases Segment.byte_of_paste hfit p with ⟨g', hg', hc', he⟩ | ⟨hn, -⟩
    · rw [(h.perm.map _).mem_iff, segment_fragmentsFrom] at hg'
      rw [he, Segment.byte_of_mem_cut hg' hc', Nat.sub_zero]
    · exact absurd hc (hn g hg)
  · rw [List.getElem?_eq_none (by simp at *; omega), List.getElem?_eq_none (by omega)]

end Cut

section Run

variable {key : FragKey} {nextHeader : UInt8} {pieces : List (List UInt8)} {r : FragReassembler}
    {x : Feed}
  {xs : List Feed} {done : List Fragment} {f : Fragment} {t t₀ : ℕ}

lemma find_evict (hx : x.Within t₀) (ht : t₀ ≤ t) (hs : r.slots.find key = FragSlot.ofLog t done) :
    (r.evictExpired x.evictNow).slots.find key = FragSlot.ofLog t done := by
  rw [evictExpired, Store.find_retain, hs]
  cases done with
  | nil => rfl
  | cons f done =>
    have hc : ((f :: done).foldl FragSlot.write (.fresh f t)).created = t :=
      (FragSlot.foldl_write_const _ _).2.2.2
    simp only [FragSlot.ofLog, Option.filter_some, hc]
    have hlt : x.evictNow - t < fragTimeout := by
      have h := hx.1.2
      have hpos : 0 < fragTimeout := by decide
      omega
    rw [if_pos (decide_eq_true hlt)]

lemma feed_ours (h : Cut key nextHeader pieces (done ++ f :: ours key xs))
    (hf : fragment? x.pkt = some f)
    (hx : x.Within t₀) (ht : t₀ ≤ t) (hs : r.slots.find key = FragSlot.ofLog t done) :
    ∃ t', t₀ ≤ t' ∧ (r.outcome x.evictNow x.createdNow x.pkt).1.slots.find key =
        (if ours key xs = [] then none else FragSlot.ofLog t' (done ++ [f])) ∧
      (r.outcome x.evictNow x.createdNow x.pkt).2 = if ours key xs = [] then
        some (ipv6Header key.src key.dst nextHeader pieces.flatten.length ++ pieces.flatten) else
          none := by
  have hk : f.key = key := (h.fields (f := f) (by simp)).1
  have hfin : ¬ bufLen < f.fin := by
    have h1 := h.fin_le (f := f) (by simp)
    have h2 := h.le
    omega
  have he := find_evict hx ht hs
  obtain ⟨t', ht', hslot⟩ : ∃ t', t₀ ≤ t' ∧ FragSlot.ofLog t' (done ++ [f]) =
      some (((r.evictExpired x.evictNow).slotFor f x.createdNow).write f) := by
    rw [slotFor, hk, he]
    cases done with
    | nil => exact ⟨x.createdNow, hx.2.1, rfl⟩
    | cons g done => exact ⟨t, ht, FragSlot.ofLog_append rfl f⟩
  refine ⟨t', ht', ?_⟩
  simp only [outcome, hf, accept, if_neg hfin]
  by_cases hr : ours key xs = []
  · rw [hr] at h
    obtain ⟨hc, hp⟩ := h.complete hslot
    simp only [hc, hp, hr, if_true, hk, Store.find_erase_self, and_self]
  · have hcut : Cut key nextHeader pieces ((done ++ [f]) ++ ours key xs) := by simpa using h
    have hc := hcut.incomplete hr hslot
    simp only [hc, hr, if_false, hk, Store.find_insert_self, hslot, and_self]

lemma ours_cons_none (h : ∀ f, fragment? x.pkt = some f → f.key ≠ key) :
    ours key (x :: xs) = ours key xs := by
  rw [ours, List.filterMap_cons_none]
  · rfl
  · rw [Option.filter_eq_none_iff]
    intro f hf
    simpa using h f hf

lemma ours_cons_some (hf : fragment? x.pkt = some f) (hk : f.key = key) :
    ours key (x :: xs) = f :: ours key xs := by
  rw [ours, List.filterMap_cons_some (b := f)]
  · rfl
  · simp [hf, hk, Option.filter_some]

lemma ours_ne_nil : ours key xs ≠ [] ↔ ∃ y ∈ xs, keyOf y.pkt = some key := by
  constructor
  · intro h
    obtain ⟨f, hf⟩ := List.exists_mem_of_ne_nil _ h
    obtain ⟨y, hy, hf⟩ := List.mem_filterMap.mp hf
    simp only [Option.filter_eq_some_iff, decide_eq_true_eq] at hf
    exact ⟨y, hy, by rw [keyOf, hf.1, ← hf.2]; rfl⟩
  · rintro ⟨y, hy, h⟩
    obtain ⟨f, hf, hk⟩ := Option.map_eq_some_iff.mp h
    refine List.ne_nil_of_mem (a := f) (List.mem_filterMap.mpr ⟨y, hy, ?_⟩)
    simp [hf, hk, Option.filter_some]

def answer (key : FragKey) (nextHeader : UInt8) (payload : List UInt8) (post : List Feed) :
    Option (List UInt8) :=
  if ∃ y ∈ post, keyOf y.pkt = some key then none
  else some (ipv6Header key.src key.dst nextHeader payload.length ++ payload)

lemma answer_eq (post : List Feed) :
    answer key nextHeader pieces.flatten post = if ours key post = [] then
      some (ipv6Header key.src key.dst nextHeader pieces.flatten.length ++ pieces.flatten) else
        none := by
  by_cases h : ours key post = []
  · rw [answer, if_neg (fun hh => ours_ne_nil.mpr hh h), if_pos h]
  · rw [answer, if_pos (ours_ne_nil.mp h), if_neg h]

lemma feedAll_delivers (hr : r.Sound) (h : Cut key nextHeader pieces (done ++ ours key xs))
    (htime : ∀ x ∈ xs, x.Within t₀) (ht : t₀ ≤ t)
    (hs : r.slots.find key = if ours key xs = [] then none else FragSlot.ofLog t done) :
    ∃ r' outs, r.feedAll xs = .ok (r', outs) ∧ r'.slots.find key = none ∧
      ∀ pre x post, xs = pre ++ x :: post → keyOf x.pkt = some key →
        outs[pre.length]? = some (answer key nextHeader pieces.flatten post) := by
  induction xs generalizing r done t with
  | nil => exact ⟨r, [], rfl, by simpa [ours] using hs, by simp⟩
  | cons x xs ih =>
    have hx := htime x (by simp)
    set next := r.outcome x.evictNow x.createdNow x.pkt with hnext
    suffices hstep : ∃ done' t', t₀ ≤ t' ∧ Cut key nextHeader pieces (done' ++ ours key xs) ∧
        (next.1.slots.find key = if ours key xs = [] then none else FragSlot.ofLog t' done') ∧
        (keyOf x.pkt = some key → next.2 = answer key nextHeader pieces.flatten xs) by
      obtain ⟨done', t', ht', hcut, hfind, hout⟩ := hstep
      obtain ⟨r', outs, hrun, hnone, hall⟩ :=
        ih (hr.outcome x) hcut (fun y hy => htime y (by simp [hy])) ht' hfind
      refine ⟨r', next.2 :: outs, by rw [feedAll_cons hr, ← hnext, hrun]; rfl, hnone, ?_⟩
      intro pre y post heq hy
      cases pre with
      | nil =>
        obtain ⟨rfl, rfl⟩ := List.cons.inj heq
        simpa using hout hy
      | cons z pre =>
        obtain ⟨rfl, rfl⟩ := List.cons.inj heq
        simpa using hall pre y post rfl hy
    by_cases hk : ∃ f, fragment? x.pkt = some f ∧ f.key = key
    · obtain ⟨f, hf, hk⟩ := hk
      rw [ours_cons_some hf hk] at h hs
      obtain ⟨t', ht', hfind, hout⟩ := feed_ours h hf hx ht (by simpa using hs)
      exact ⟨done ++ [f], t', ht', by simpa using h, hfind, fun _ => by rw [hout, answer_eq]⟩
    · have hne : ∀ f, fragment? x.pkt = some f → f.key ≠ key := fun f hf hh => hk ⟨f, hf, hh⟩
      rw [ours_cons_none hne] at h hs
      refine ⟨done, t, ht, h, ?_, ?_⟩
      · rw [find_outcome_of_ne hne]
        by_cases hn : ours key xs = []
        · simp only [hn, if_true] at hs ⊢
          have hs' : r.slots.find key = FragSlot.ofLog t [] := hs
          exact find_evict hx ht hs'
        · simp only [hn, if_false] at hs ⊢
          exact find_evict hx ht hs
      · intro hy
        obtain ⟨f, hf, hfk⟩ := Option.map_eq_some_iff.mp hy
        exact absurd hfk (hne f hf)

end Run

lemma filterMap_packets {key : FragKey} {nextHeader : UInt8} {envelopes : List Envelope}
    {pieces : List (List UInt8)}
    (he : envelopes.length = pieces.length) (hpos : ∀ xs ∈ pieces, xs ≠ [])
    (h8 : ∀ xs ∈ pieces.dropLast, 8 ∣ xs.length) (hlen : pieces.flatten.length ≤ bufLen) :
    (packets key nextHeader envelopes pieces).filterMap fragment? =
      fragmentsFrom key nextHeader 0 pieces := by
  have hall :
      ∀ f ∈ fragmentsFrom key nextHeader 0 pieces, ∀ e, fragment? (encode e f) = some f := by
    intro f hf e
    have hseg := segment_mem hf
    have hp := List.length_pos_iff.mpr (hpos _ (Segment.content_of_mem_cut hseg))
    have hb := (Segment.bounds_of_mem_cut hseg).2
    simp only [Fragment.segment, Segment.fin] at hp hb
    exact fragment?_encode (offset_dvd (by simp) h8 hf) (by simp only [bufLen] at hlen; omega)
  have hl : envelopes.length = (fragmentsFrom key nextHeader 0 pieces).length := by
    rw [length_fragmentsFrom, he]
  rw [packets]
  generalize fragmentsFrom key nextHeader 0 pieces = frags at hall hl
  clear he
  induction frags generalizing envelopes with
  | nil => simp
  | cons f frags ih =>
    cases envelopes with
    | nil => simp at hl
    | cons e envelopes =>
      rw [List.zipWith_cons_cons, List.filterMap_cons_some (hall f (by simp) e),
        ih (fun g hg => hall g (by simp [hg])) (by simpa using hl)]

lemma ours_eq_filterMap (key : FragKey) (feeds : List Feed) :
    ours key feeds = ((feeds.map Feed.pkt).filter fun pkt => keyOf pkt = some key).filterMap
      fragment? := by
  induction feeds with
  | nil => rfl
  | cons x feeds ih =>
    rw [List.map_cons, List.filter_cons]
    cases hf : fragment? x.pkt with
    | none =>
      rw [ours_cons_none (by simp [hf]), ih]
      simp [keyOf, hf]
    | some f =>
      by_cases hk : f.key = key
      · rw [ours_cons_some hf hk, ih]
        simp [keyOf, hf, hk]
      · rw [ours_cons_none (by simp [hf, hk]), ih]
        simp [keyOf, hf, hk]

/-- Delivery, for every cut of a payload, every order of its fragments and any other packets
between them. The clock readings of all feeds lie in one window of `fragTimeout`. -/
theorem fragments_delivered (r : FragReassembler) (hr : r.Reachable) (key : FragKey)
    (hk : r.slots.find key = none) (nextHeader : UInt8) (pieces : List (List UInt8))
    (hne : pieces ≠ [])
    (hpos : ∀ xs ∈ pieces, xs ≠ []) (h8 : ∀ xs ∈ pieces.dropLast, 8 ∣ xs.length)
    (hlen : pieces.flatten.length ≤ 65535) (envelopes : List Envelope)
    (he : envelopes.length = pieces.length)
    (feeds : List Feed)
    (horder : ((feeds.map Feed.pkt).filter fun pkt => keyOf pkt = some key).Perm
      (packets key nextHeader envelopes pieces))
    (t₀ : ℕ) (htime : ∀ x ∈ feeds, x.Within t₀) :
    ∃ r' outs, r.feedAll feeds = .ok (r', outs) ∧ r'.slots.find key = none ∧
      ∀ pre x post, feeds = pre ++ x :: post → keyOf x.pkt = some key →
        outs[pre.length]? = some (answer key nextHeader pieces.flatten post) := by
  have hours : (ours key feeds).Perm (fragmentsFrom key nextHeader 0 pieces) := by
    rw [ours_eq_filterMap, ← filterMap_packets he hpos h8 hlen]
    exact horder.filterMap _
  have hcut : Cut key nextHeader pieces ([] ++ ours key feeds) := ⟨hours, hne, hpos, hlen⟩
  refine feedAll_delivers (t := t₀) hr.sound hcut htime le_rfl ?_
  rw [hk]
  split <;> rfl

def sampleFeeds : List Feed :=
  [⟨5, 5, encode sampleEnvelope ⟨sampleKey, 17, 8, false, [9]⟩⟩, ⟨6, 6, [1, 2, 3]⟩,
    ⟨7, 7, encode sampleEnvelope ⟨sampleKey, 17, 0, true, [1, 2, 3, 4, 5, 6, 7, 8]⟩⟩]

theorem nine_bytes_delivered :
    ∃ r' outs, new.feedAll sampleFeeds = .ok (r', outs) ∧ r'.slots.find sampleKey = none ∧
      outs[2]? = some (some (ipv6Header sampleKey.src sampleKey.dst 17 9 ++ [1, 2, 3, 4, 5, 6, 7, 8,
        9])) := by
  obtain ⟨r', outs, hrun, hnone, hall⟩ := fragments_delivered new ⟨[], [], rfl⟩ sampleKey rfl 17
    [[1, 2, 3, 4, 5, 6, 7, 8], [9]] (by simp) (by simp) (by simp) (by simp)
      [sampleEnvelope, sampleEnvelope] rfl
    sampleFeeds (by decide +kernel) 0 (by simp [sampleFeeds, Feed.Within, fragTimeout])
  have hlast := hall (sampleFeeds.take 2)
    ⟨7, 7, encode sampleEnvelope ⟨sampleKey, 17, 0, true, [1, 2, 3, 4, 5, 6, 7, 8]⟩⟩ [] rfl
      (by decide +kernel)
  exact ⟨r', outs, hrun, hnone, by simpa [answer, sampleFeeds] using hlast⟩

end Yggstack.Frag
