import Mathlib.Data.List.ReduceOption
import Yggstack.Frag.Assembly
import Yggstack.Library.Outcomes

namespace Yggstack.Frag

open Library FragReassembler

namespace FragReassembler

lemma feedAll_concat {r r' : FragReassembler} {xs : List Feed} {outs : List (Option (List UInt8))}
    (h : r.feedAll xs = .ok (r', outs)) {x : Feed} {r'' : FragReassembler}
    {out : Option (List UInt8)} (hx : r'.feed x.evictNow x.createdNow x.pkt = .ok (r'', out)) :
    r.feedAll (xs ++ [x]) = .ok (r'', outs ++ [out]) := by
  induction xs generalizing r outs with
  | nil =>
    cases h
    simp only [List.nil_append, feedAll, hx]
    rfl
  | cons y ys ih =>
    rw [feedAll, bind_eq_ok] at h
    obtain ⟨⟨r₁, out₁⟩, hy, h⟩ := h
    rw [bind_eq_ok] at h
    obtain ⟨⟨r₂, outs₂⟩, hys, h⟩ := h
    cases h
    rw [List.cons_append, feedAll, hy, ok_bind]
    simp only [ih hys]
    rfl

lemma length_feedAll {r r' : FragReassembler} {xs : List Feed} {outs : List (Option (List UInt8))}
    (h : r.feedAll xs = .ok (r', outs)) : outs.length = xs.length := by
  induction xs generalizing r outs with
  | nil =>
    cases h
    rfl
  | cons x xs ih =>
    rw [feedAll, bind_eq_ok] at h
    obtain ⟨⟨r₁, out⟩, -, h⟩ := h
    rw [bind_eq_ok] at h
    obtain ⟨⟨r₂, outs'⟩, hxs, h⟩ := h
    cases h
    simp [ih hxs]

lemma reduceOption_answers {key : FragKey} {nextHeader : UInt8} {payload : List UInt8}
    {xs : List Feed} {outs : List (Option (List UInt8))} (hne : xs ≠ [])
    (hkey : ∀ x ∈ xs, keyOf x.pkt = some key) (hlen : outs.length = xs.length)
    (hall : ∀ pre x post, xs = pre ++ x :: post → keyOf x.pkt = some key →
      outs[pre.length]? = some (answer key nextHeader payload post)) :
    outs.reduceOption = [ipv6Header key.src key.dst nextHeader payload.length ++ payload] := by
  induction xs generalizing outs with
  | nil => exact absurd rfl hne
  | cons x xs ih =>
    cases outs with
    | nil => cases hlen
    | cons out outs =>
      have hout : out = answer key nextHeader payload xs := by
        simpa using hall [] x xs rfl (hkey x List.mem_cons_self)
      have hlen' : outs.length = xs.length := Nat.succ.inj hlen
      cases xs with
      | nil =>
        rw [List.length_eq_zero_iff.mp hlen', hout]
        simp [answer]
      | cons y ys =>
        have hnone : answer key nextHeader payload (y :: ys) = none :=
          if_pos ⟨y, List.mem_cons_self, hkey y (by simp)⟩
        rw [hout, hnone, List.reduceOption_cons_of_none]
        refine ih (List.cons_ne_nil y ys) (fun z hz => hkey z (by simp [hz])) hlen' ?_
        intro pre z post heq hz
        simpa using hall (x :: pre) z post (by rw [heq]; rfl) hz

end FragReassembler

lemma answersTo_fragmented {key : FragKey} {nextHeader : UInt8} {pieces : List (List UInt8)}
    {envelopes : List Envelope} {feeds : List Feed} {r : FragReassembler}
    {outs : List (Option (List UInt8))} {t₀ : ℕ} (hne : pieces ≠ []) (hpos : ∀ xs ∈ pieces, xs ≠ [])
    (h8 : ∀ xs ∈ pieces.dropLast, 8 ∣ xs.length) (hlen : pieces.flatten.length ≤ bufLen)
    (he : envelopes.length = pieces.length)
    (horder : ((feeds.map Feed.pkt).filter fun pkt => keyOf pkt = some key).Perm
      (packets key nextHeader envelopes pieces))
    (hc : Chronological 0 feeds) (htime : ∀ x ∈ feeds, keyOf x.pkt = some key → x.Within t₀)
    (hrun : FragReassembler.new.feedAll feeds = .ok (r, outs)) :
    (answersTo key feeds outs).reduceOption =
      [ipv6Header key.src key.dst nextHeader pieces.flatten.length ++ pieces.flatten] := by
  have hnew : FragReassembler.new.Sound := FragReassembler.Reachable.sound ⟨[], [], rfl⟩
  obtain ⟨r', s, outs', hr, hs, -⟩ := feedAll_feedsOf hnew hnew (fun _ _ => rfl) hc
  rw [hrun] at hr
  obtain ⟨-, rfl⟩ := Prod.mk.inj (Except.ok.inj hr)
  have hmap : (feedsOf key feeds).map Feed.pkt =
      (feeds.map Feed.pkt).filter fun pkt => keyOf pkt = some key := by
    rw [feedsOf, List.filter_map]
    rfl
  have hours : (ours key (feedsOf key feeds)).Perm (fragmentsFrom key nextHeader 0 pieces) := by
    rw [ours_eq_filterMap, hmap, List.filter_filter]
    simp only [Bool.and_self]
    rw [← filterMap_packets he hpos h8 hlen]
    exact horder.filterMap _
  have hmem : ∀ x ∈ feedsOf key feeds, x ∈ feeds ∧ keyOf x.pkt = some key := by
    intro x hx
    simpa [feedsOf] using hx
  have hcut : Cut key nextHeader pieces ([] ++ ours key (feedsOf key feeds)) :=
    ⟨hours, hne, hpos, hlen⟩
  obtain ⟨s', outs', hs', -, hall⟩ := feedAll_delivers hnew hcut
    (fun x hx => htime x (hmem x hx).1 (hmem x hx).2) (le_refl t₀) (by split <;> rfl)
  rw [hs] at hs'
  obtain ⟨-, rfl⟩ := Prod.mk.inj (Except.ok.inj hs')
  refine FragReassembler.reduceOption_answers ?_ (fun x hx => (hmem x hx).2)
    (FragReassembler.length_feedAll hs) hall
  intro hnil
  have hlen := horder.length_eq
  rw [← hmap, hnil, packets, List.length_zipWith, length_fragmentsFrom, he, min_self] at hlen
  exact hne (List.length_eq_zero_iff.mp hlen.symm)

def Feed.recentFragment (now : ℕ) (x : Feed) : Bool :=
  (keyOf x.pkt).isSome && decide (now < x.createdNow + fragTimeout)

lemma Accounted.fresh_slots {before : List Feed} {t : ℕ} {r : FragReassembler} {x : Feed}
    (h : Accounted before t r) (ht : t ≤ x.evictNow) (he : x.evictNow ≤ x.createdNow)
    {key : FragKey} {s : FragSlot}
    (hs : (r.outcome x.evictNow x.createdNow x.pkt).1.slots.find key = some s) :
    x.evictNow < s.created + fragTimeout := by
  by_cases hk : keyOf x.pkt = some key
  · obtain ⟨f, hf, rfl⟩ := keyOf_eq_some.mp hk
    obtain ⟨-, hlt, -⟩ := h.written ht he hf
    simp only [outcome, hf, accept] at hs
    split at hs
    · simp at hs
    · split at hs
      · simp at hs
      · rw [Store.find_insert_self] at hs
        obtain rfl := Option.some.inj hs
        exact hlt
  · have hne : ∀ f, fragment? x.pkt = some f → f.key ≠ key := by
      intro f hf hkey
      exact hk (keyOf_eq_some.mpr ⟨f, hf, hkey⟩)
    rw [find_outcome_of_ne hne, evictExpired, Store.find_retain, Option.filter_eq_some_iff] at hs
    have hage : x.evictNow - s.created < fragTimeout := of_decide_eq_true hs.2
    omega

lemma Traced.used_ne_nil {key : FragKey} {s : FragSlot} {used : List Feed}
    (h : Traced key s used) : used ≠ [] := by
  rintro rfl
  have hslot := h.slot
  cases hslot

/-- The slots that are open after a feed take no more room than one buffer for every fragment of the
last 60 seconds, however long the run and however many keys it has seen. -/
theorem memory_bounded_by_recent_fragments (feeds : List Feed) (last : Feed)
    (hc : Chronological 0 (feeds ++ [last])) :
    ∃ r outs, new.feedAll (feeds ++ [last]) = .ok (r, outs) ∧
      ∀ entries, r.slots.Enumerates entries → (entries.map fun e => e.2.buf.length).sum ≤
        bufLen * (feeds ++ [last]).countP (Feed.recentFragment last.evictNow) := by
  have hnew : Accounted [] 0 new := by
    refine ⟨Reachable.sound ⟨[], [], rfl⟩, ?_⟩
    intro key s hs
    cases hs
  obtain ⟨hfeeds, hlast, he, -⟩ := chronological_append.mp hc
  obtain ⟨r₀, outs₀, hrun₀, hacc₀, -⟩ := hnew.run hfeeds
  have hstep := feed_eq hacc₀.sound last.evictNow last.createdNow last.pkt
  have hacc := hacc₀.step hlast he
  refine ⟨_, _, feedAll_concat hrun₀ hstep, ?_⟩
  intro entries hentries
  set recent := (feeds ++ [last]).filter (Feed.recentFragment last.evictNow) with hrec
  have hall : ∀ e ∈ entries, e.2.buf.length = bufLen ∧
      e.1 ∈ recent.filterMap fun x => keyOf x.pkt := by
    intro e hmem
    have hs := (hentries.mem_iff e.1 e.2).mp hmem
    obtain ⟨hintact, -, used, hsub, htraced⟩ := hacc.slots _ _ hs
    obtain ⟨y, hy⟩ := List.exists_mem_of_ne_nil _ htraced.used_ne_nil
    have hkey := htraced.keys y hy
    have hnow := (hacc₀.fresh_slots hlast he hs).trans_le
      (Nat.add_le_add_right (htraced.since y hy) fragTimeout)
    have hrecent : Feed.recentFragment last.evictNow y = true := by
      simp [Feed.recentFragment, hkey, hnow]
    exact ⟨hintact.buf, List.mem_filterMap.mpr
      ⟨y, List.mem_filter.mpr ⟨hsub.subset hy, hrecent⟩, hkey⟩⟩
  have hroom : (entries.map fun e => e.2.buf.length).sum = bufLen * entries.length := by
    rw [List.map_congr_left fun e he => (hall e he).1, List.map_const', List.sum_replicate,
      smul_eq_mul, Nat.mul_comm]
  -- the keys of the slots are distinct, and each has a fragment of its own among the recent ones
  have hkeys : (entries.map Prod.fst).Subperm (recent.filterMap fun x => keyOf x.pkt) := by
    refine hentries.nodup.subperm fun key hkey => ?_
    obtain ⟨e, he, rfl⟩ := List.mem_map.mp hkey
    exact (hall e he).2
  have hcount : entries.length ≤ recent.length := by
    simpa using hkeys.length_le.trans (List.length_filterMap_le _ _)
  rw [hroom, List.countP_eq_length_filter]
  exact Nat.mul_le_mul_left bufLen hcount

theorem two_fragments_fill_one_buffer : ∃ r outs,
    new.feedAll ([⟨0, 0, encode sampleEnvelope head8⟩] ++
      [⟨fragTimeout, fragTimeout, encode sampleEnvelope tail8⟩]) = .ok (r, outs) ∧
    ∀ entries, r.slots.Enumerates entries →
      (entries.map fun e => e.2.buf.length).sum ≤ bufLen * 1 :=
  memory_bounded_by_recent_fragments [⟨0, 0, encode sampleEnvelope head8⟩]
    ⟨fragTimeout, fragTimeout, encode sampleEnvelope tail8⟩ (by simp [Chronological])

end Yggstack.Frag
