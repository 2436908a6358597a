import Yggstack.Frag.Holes
import Yggstack.Frag.Isolation

/-! What the slots are between two feeds and what the packets that go out are made of. Every slot is
traced to the feeds that wrote it, none of them older than the slot. -/

namespace Yggstack.Frag

open Library FragReassembler

def fragmentsIn (feeds : List Feed) : List Fragment := feeds.filterMap fun x => fragment? x.pkt

def assembled (fs : List Fragment) : List UInt8 :=
  Segment.paste (List.replicate bufLen 0) (fs.map Fragment.segment)

structure Intact (key : FragKey) (s : FragSlot) : Prop where
  buf : s.buf.length = bufLen
  src : s.src = key.src
  dst : s.dst = key.dst
  incomplete : ∀ total, s.totalLen = some total → s.received < total ∧ total ≤ bufLen

structure Traced (key : FragKey) (s : FragSlot) (used : List Feed) : Prop where
  slot : FragSlot.ofLog s.created (fragmentsIn used) = some s
  keys : ∀ y ∈ used, keyOf y.pkt = some key
  since : ∀ y ∈ used, s.created ≤ y.createdNow

structure Emitted (before : List Feed) (x : Feed) (key : FragKey) (pkt : List UInt8) (L : ℕ) :
    Prop where
  le : L ≤ bufLen
  length : pkt.length = ipv6HeaderLen + L
  payloadLen : (u16FromBeBytes (pkt.getD 4 0) (pkt.getD 5 0)).toNat = L
  recent : ∃ used nextHeader, used.Sublist (before ++ [x]) ∧
    (∀ y ∈ used, keyOf y.pkt = some key ∧ x.evictNow < y.createdNow + fragTimeout) ∧
    pkt = ipv6Header key.src key.dst nextHeader L ++ (assembled (fragmentsIn used)).take L

variable {key : FragKey} {s : FragSlot} {used before xs : List Feed} {x : Feed} {f : Fragment}
  {r : FragReassembler} {t n : ℕ}

lemma fragmentsIn_append (before xs : List Feed) :
    fragmentsIn (before ++ xs) = fragmentsIn before ++ fragmentsIn xs := List.filterMap_append

lemma fragmentsIn_singleton (hf : fragment? x.pkt = some f) : fragmentsIn [x] = [f] := by
  simp [fragmentsIn, hf]

lemma key_of_mem_fragmentsIn (hk : ∀ y ∈ used, keyOf y.pkt = some key) (hf : f ∈ fragmentsIn used) :
    f.key = key := by
  obtain ⟨y, hy, hv⟩ := List.mem_filterMap.mp hf
  have h := hk y hy
  rw [keyOf, hv] at h
  exact Option.some.inj h

namespace Traced

lemma fields (h : Traced key s used) : s.src = key.src ∧ s.dst = key.dst ∧
    s.buf = assembled (fragmentsIn used) := by
  have hslot := h.slot
  cases hlog : fragmentsIn used with
  | nil =>
    rw [hlog] at hslot
    cases hslot
  | cons f fs =>
    have hkey : f.key = key := key_of_mem_fragmentsIn h.keys (by rw [hlog]; exact List.mem_cons_self)
    rw [hlog] at hslot
    obtain ⟨hsrc, hdst, -, -⟩ := FragSlot.foldl_write_const (.fresh f s.created) (f :: fs)
    rw [Option.some.inj hslot] at hsrc hdst
    refine ⟨hsrc.trans (congrArg FragKey.src hkey), hdst.trans (congrArg FragKey.dst hkey), ?_⟩
    rw [← Option.some.inj hslot]
    exact FragSlot.foldl_write_buf _ _

lemma start (hf : fragment? x.pkt = some f) :
    Traced f.key ((FragSlot.fresh f x.createdNow).write f) [x] := by
  refine ⟨?_, ?_, ?_⟩
  · rw [fragmentsIn_singleton hf]
    rfl
  · intro y hy
    obtain rfl := List.mem_singleton.mp hy
    exact keyOf_eq_some.mpr ⟨f, hf, rfl⟩
  · intro y hy
    obtain rfl := List.mem_singleton.mp hy
    exact le_rfl

lemma extend (h : Traced f.key s used) (hf : fragment? x.pkt = some f)
    (hc : s.created ≤ x.createdNow) : Traced f.key (s.write f) (used ++ [x]) := by
  refine ⟨?_, ?_, ?_⟩
  · rw [fragmentsIn_append, fragmentsIn_singleton hf]
    exact FragSlot.ofLog_append h.slot f
  · intro y hy
    obtain hy | hy := List.mem_append.mp hy
    · exact h.keys y hy
    · obtain rfl := List.mem_singleton.mp hy
      exact keyOf_eq_some.mpr ⟨f, hf, rfl⟩
  · intro y hy
    obtain hy | hy := List.mem_append.mp hy
    · exact h.since y hy
    · obtain rfl := List.mem_singleton.mp hy
      exact hc

end Traced

lemma length_ipv6Header (src dst : Octets) (nextHeader : UInt8) (n : ℕ) :
    (ipv6Header src dst nextHeader n).length = ipv6HeaderLen := by
  simp [ipv6Header, src.property, dst.property, ipv6HeaderLen]

lemma Traced.emitted (h : Traced key s used) (hsound : s.Sound) (hn : s.complete? = some n)
    (hsub : used.Sublist (before ++ [x])) (hrecent : x.evictNow < s.created + fragTimeout) :
    Emitted before x key (s.packet n) n := by
  obtain ⟨htotal, -⟩ := FragSlot.complete?_eq_some.mp hn
  have hle : n ≤ bufLen := hsound.total_le n htotal
  obtain ⟨hsrc, hdst, hbuf⟩ := h.fields
  refine ⟨hle, ?_, ?_, used, s.nextHeader, hsub, ?_, ?_⟩
  · rw [FragSlot.packet, List.length_append, length_ipv6Header, List.length_take, hsound.buf_length,
      Nat.min_eq_left hle]
  · apply u16FromBeBytes_ofNat
    exact Nat.lt_succ_of_le hle
  · intro y hy
    have hsince := h.since y hy
    exact ⟨h.keys y hy, by omega⟩
  · rw [FragSlot.packet, hsrc, hdst, hbuf]

/-- The invariant of a run: `before` has been fed, and the clock is at `t`. -/
structure Accounted (before : List Feed) (t : ℕ) (r : FragReassembler) : Prop where
  sound : r.Sound
  slots : ∀ key s, r.slots.find key = some s → Intact key s ∧ s.created ≤ t ∧
    ∃ used, used.Sublist before ∧ Traced key s used

namespace Accounted

variable (h : Accounted before t r) (ht : t ≤ x.evictNow) (he : x.evictNow ≤ x.createdNow)

include h ht he

lemma written (hf : fragment? x.pkt = some f) :
    let s := ((r.evictExpired x.evictNow).slotFor f x.createdNow).write f
    s.created ≤ x.createdNow ∧ x.evictNow < s.created + fragTimeout ∧
      ∃ used, used.Sublist (before ++ [x]) ∧ Traced f.key s used := by
  have hpos : 0 < fragTimeout := by decide
  rw [FragReassembler.slotFor]
  cases hs : (r.evictExpired x.evictNow).slots.find f.key with
  | none =>
    refine ⟨le_rfl, ?_, [x], List.sublist_append_right before [x], Traced.start hf⟩
    exact Nat.lt_of_le_of_lt he (Nat.lt_add_of_pos_right hpos)
  | some s =>
    simp only [evictExpired, Store.find_retain, Option.filter_eq_some_iff, decide_eq_true_eq] at hs
    obtain ⟨-, hcreated, used, hsub, htraced⟩ := h.slots f.key s hs.1
    have hle : s.created ≤ x.createdNow := by omega
    have hlt : x.evictNow < s.created + fragTimeout := by omega
    exact ⟨hle, hlt, used ++ [x], hsub.append_right [x], htraced.extend hf hle⟩

lemma other {key : FragKey} (hne : ∀ f, fragment? x.pkt = some f → f.key ≠ key) {s : FragSlot}
    (hs : (r.outcome x.evictNow x.createdNow x.pkt).1.slots.find key = some s) :
    Intact key s ∧ s.created ≤ x.createdNow ∧
      ∃ used, used.Sublist (before ++ [x]) ∧ Traced key s used := by
  rw [find_outcome_of_ne hne, evictExpired, Store.find_retain, Option.filter_eq_some_iff] at hs
  obtain ⟨hintact, hcreated, used, hsub, htraced⟩ := h.slots key s hs.1
  exact ⟨hintact, by omega, used, hsub.trans (List.sublist_append_left before [x]), htraced⟩

lemma own (hf : fragment? x.pkt = some f) {s : FragSlot}
    (hs : (r.outcome x.evictNow x.createdNow x.pkt).1.slots.find f.key = some s) :
    Intact f.key s ∧ s.created ≤ x.createdNow ∧
      ∃ used, used.Sublist (before ++ [x]) ∧ Traced f.key s used := by
  obtain ⟨hcreated, -, used, hsub, htraced⟩ := h.written ht he hf
  have hslot := (h.sound.evict x.evictNow).slotFor f x.createdNow
  simp only [outcome, hf, accept] at hs
  split at hs
  · simp at hs
  · next hfin =>
    have hsound := hslot.write (show f.fin ≤ bufLen by omega)
    split at hs
    · simp at hs
    · next hopen =>
      rw [Store.find_insert_self] at hs
      obtain rfl := Option.some.inj hs
      obtain ⟨hsrc, hdst, -⟩ := htraced.fields
      refine ⟨⟨hsound.buf_length, hsrc, hdst, ?_⟩, hcreated, used, hsub, htraced⟩
      intro total htotal
      refine ⟨?_, hsound.total_le total htotal⟩
      by_contra hge
      rw [FragSlot.complete?_eq_some.mpr ⟨htotal, by omega⟩] at hopen
      cases hopen

lemma step : Accounted (before ++ [x]) x.createdNow (r.outcome x.evictNow x.createdNow x.pkt).1 := by
  refine ⟨h.sound.outcome x, ?_⟩
  intro key s hs
  by_cases hk : keyOf x.pkt = some key
  · obtain ⟨f, hf, rfl⟩ := keyOf_eq_some.mp hk
    exact h.own ht he hf hs
  · apply h.other ht he ?_ hs
    intro f hf hkey
    exact hk (keyOf_eq_some.mpr ⟨f, hf, hkey⟩)

lemma emitted (hf : fragment? x.pkt = some f) {pkt : List UInt8}
    (hout : (r.outcome x.evictNow x.createdNow x.pkt).2 = some pkt) :
    ∃ L, Emitted before x f.key pkt L := by
  obtain ⟨-, hrecent, used, hsub, htraced⟩ := h.written ht he hf
  have hslot := (h.sound.evict x.evictNow).slotFor f x.createdNow
  simp only [outcome, hf, accept] at hout
  split at hout
  · cases hout
  · next hfin =>
    split at hout
    · next n hn =>
      cases hout
      exact ⟨n, htraced.emitted (hslot.write (by omega)) hn hsub hrecent⟩
    · cases hout

end Accounted

lemma Accounted.run (h : Accounted before t r) (hc : Chronological t xs) :
    ∃ r' outs, r.feedAll xs = .ok (r', outs) ∧
      Accounted (before ++ xs) (clockAfter t xs) r' ∧
      ∀ pre x post, xs = pre ++ x :: post → ∀ f pkt, fragment? x.pkt = some f →
        outs[pre.length]? = some (some pkt) → ∃ L, Emitted (before ++ pre) x f.key pkt L := by
  induction xs generalizing before t r with
  | nil =>
    refine ⟨r, [], rfl, by simpa [clockAfter] using h, ?_⟩
    intro pre x post hnil
    simp at hnil
  | cons x xs ih =>
    obtain ⟨ht, he, hc⟩ := hc
    obtain ⟨r', outs, hrun, hfinal, hall⟩ := ih (h.step ht he) hc
    refine ⟨r', _ :: outs, by rw [feedAll_cons h.sound, hrun]; rfl, ?_, ?_⟩
    · rwa [List.append_assoc] at hfinal
    · intro pre y post heq f pkt hf hout
      cases pre with
      | nil =>
        obtain ⟨rfl, rfl⟩ := List.cons.inj heq
        rw [List.append_nil]
        exact h.emitted ht he hf (Option.some.inj hout)
      | cons z pre =>
        obtain ⟨rfl, rfl⟩ := List.cons.inj heq
        have hemitted := hall pre y post rfl f pkt hf hout
        rwa [List.append_assoc] at hemitted

/-- Whatever is fed, at times that never go back: no access is out of range, every slot left is
intact, and every packet emitted for a fragment fits its length field and holds recent bytes
only. -/
theorem feeds_stay_in_bounds (feeds : List Feed) (hc : Chronological 0 feeds) :
    ∃ r outs, new.feedAll feeds = .ok (r, outs) ∧
      (∀ key s, r.slots.find key = some s → Intact key s) ∧
      ∀ pre x post, feeds = pre ++ x :: post → ∀ f pkt, fragment? x.pkt = some f →
        outs[pre.length]? = some (some pkt) → ∃ L, Emitted pre x f.key pkt L := by
  have hnew : Accounted [] 0 new := by
    refine ⟨Reachable.sound ⟨[], [], rfl⟩, ?_⟩
    intro key s hs
    cases hs
  obtain ⟨r, outs, hrun, hfinal, hall⟩ := hnew.run hc
  refine ⟨r, outs, hrun, fun key s hs => (hfinal.slots key s hs).1, ?_⟩
  intro pre x post heq f pkt hf hout
  exact hall pre x post heq f pkt hf hout

def lastByte : Fragment := ⟨sampleKey, 17, 8, false, [9]⟩

def inTime : Feed := ⟨fragTimeout - 1, fragTimeout, encode sampleEnvelope lastByte⟩

def nineBytes : List UInt8 :=
  ipv6Header sampleKey.src sampleKey.dst 17 9 ++ [1, 2, 3, 4, 5, 6, 7, 8, 9]

theorem packet_in_time_accounted : ∃ r L,
    new.feedAll [lateHead, inTime] = .ok (r, [none, some nineBytes]) ∧
      Emitted [lateHead] inTime sampleKey nineBytes L := by
  have hnew : (new : FragReassembler).Sound := Reachable.sound ⟨[], [], rfl⟩
  obtain ⟨r₁, h₁, r₂, h₂⟩ : ∃ r₁, new.feed lateHead.evictNow lateHead.createdNow lateHead.pkt =
      .ok (r₁, none) ∧ ∃ r₂, r₁.feed inTime.evictNow inTime.createdNow inTime.pkt =
        .ok (r₂, some nineBytes) := by
    refine ⟨((new.evictExpired 0).accept 0 head8).1, ?_, ?_⟩
    · rw [show lateHead.pkt = encode sampleEnvelope head8 from rfl,
        feed_encode hnew _ _ sampleEnvelope (by decide) (by decide)]
      rfl
    · rw [show inTime.pkt = encode sampleEnvelope lastByte from rfl,
        feed_encode ((hnew.evict 0).accept 0 head8) _ _ sampleEnvelope (by decide) (by decide)]
      exact ⟨_, rfl⟩
  have hfeeds : new.feedAll [lateHead, inTime] = .ok (r₂, [none, some nineBytes]) := by
    simp only [feedAll, h₁, h₂, ok_bind, pure_eq_ok]
  obtain ⟨r, outs, hrun, -, hall⟩ := feeds_stay_in_bounds [lateHead, inTime]
    (by simp [Chronological, lateHead, inTime])
  rw [hfeeds] at hrun
  cases hrun
  have hlast : fragment? inTime.pkt = some lastByte := fragment?_encode (by decide) (by decide)
  obtain ⟨L, hemitted⟩ := hall [lateHead] inTime [] rfl lastByte _ hlast rfl
  exact ⟨r₂, L, hfeeds, hemitted⟩

end Yggstack.Frag
