import Yggstack.Frag.Semantics

/-! Which bytes of a reassembled packet some fragment supplied. Completion is decided by a byte
count, so a slot whose fragments overlap, or reach past its end, completes with holes. -/

namespace Yggstack.Frag

open Library FragReassembler

abbrev Logs := FragKey → List Fragment

def logWith (r : FragReassembler) (logs : Logs) (x : Feed) (f : Fragment) : List Fragment :=
  if ((r.evictExpired x.evictNow).slots.find f.key).isSome then logs f.key ++ [f] else [f]

def nextLogs (r : FragReassembler) (logs : Logs) (x : Feed) : Logs :=
  match fragment? x.pkt with
  | none => logs
  | some f => Function.update logs f.key (logWith r logs x f)

/-- States reached by feeds that all meet `ok`, with the log of each key. -/
inductive History (ok : FragReassembler → Logs → Feed → Prop) : FragReassembler → Logs → Prop
  | new : History ok new fun _ => []
  | feed {r r' : FragReassembler} {logs : Logs} {out : Option (List UInt8)}
      (x : Feed) : History ok r logs →
      ok r logs x → r.feed x.evictNow x.createdNow x.pkt = .ok (r', out) →
        History ok r' (nextLogs r logs x)

def lastEnd (log : List Fragment) : Option ℕ :=
  log.foldl (fun e f => if f.more then e else some f.fin) none

structure CleanLog (log : List Fragment) : Prop where
  apart : log.Pairwise fun f g => f.segment.Apart g.segment
  within : ∀ n ∈ lastEnd log, ∀ f ∈ log, f.fin ≤ n

def CleanFeed (r : FragReassembler) (logs : Logs) (x : Feed) : Prop :=
  ∀ f, fragment? x.pkt = some f → f.fin ≤ bufLen → CleanLog (logWith r logs x f)

def Supplied (log : List Fragment) (out : List UInt8) : Prop :=
  ∀ p, ipv6HeaderLen + p < out.length →
    ∃ f ∈ log, f.segment.Covers p ∧ out[ipv6HeaderLen + p]? = f.segment.byte? p

def judgedBy (r : FragReassembler) (logs : Logs) (x : Feed) : List Fragment :=
  match fragment? x.pkt with
  | none => []
  | some f => logWith r logs x f

structure Logged (r : FragReassembler) (logs : Logs) : Prop where
  sound : r.Sound
  slot : ∀ k s, r.slots.find k = some s →
    (∃ t, FragSlot.ofLog t (logs k) = some s) ∧ ∀ f ∈ logs k, f.key = k ∧ f.fin ≤ bufLen

variable {r r' : FragReassembler} {logs : Logs} {x : Feed} {f : Fragment}
    {out : Option (List UInt8)}
  {ok : FragReassembler → Logs → Feed → Prop}

lemma totalLen_ofLog {t : ℕ} {log : List Fragment} {s : FragSlot}
    (h : FragSlot.ofLog t log = some s) :
    s.totalLen = lastEnd log := by
  have hfold : ∀ (fs : List Fragment) (s : FragSlot), (fs.foldl FragSlot.write s).totalLen =
      fs.foldl (fun e f => if f.more then e else some f.fin) s.totalLen := by
    intro fs
    induction fs with
    | nil => intro s; rfl
    | cons f fs ih => intro s; exact ih (s.write f)
  cases log with
  | nil => cases h
  | cons f log =>
    obtain rfl := Option.some.inj h
    exact hfold _ _

lemma Logged.slotFor (h : Logged r logs) (x : Feed) (f : Fragment) (hf : f.fin ≤ bufLen) :
    (∃ t, FragSlot.ofLog t (logWith r logs x f) =
        some (((r.evictExpired x.evictNow).slotFor f x.createdNow).write f)) ∧
      ∀ g ∈ logWith r logs x f, g.key = f.key ∧ g.fin ≤ bufLen := by
  rw [logWith, FragReassembler.slotFor]
  cases hs : (r.evictExpired x.evictNow).slots.find f.key with
  | none => exact ⟨⟨x.createdNow, rfl⟩, by simp [hf]⟩
  | some s =>
    simp only [evictExpired, Store.find_retain, Option.filter_eq_some_iff] at hs
    obtain ⟨⟨t, ht⟩, hall⟩ := h.slot f.key s hs.1
    refine ⟨⟨t, FragSlot.ofLog_append ht f⟩, ?_⟩
    intro g hg
    rcases List.mem_append.mp hg with hg | hg
    · exact hall g hg
    · obtain rfl := List.mem_singleton.mp hg
      exact ⟨rfl, hf⟩

lemma Logged.step (h : Logged r logs) (hx : r.feed x.evictNow x.createdNow x.pkt = .ok (r', out)) :
    Logged r' (nextLogs r logs x) := by
  rw [feed_eq h.sound, Except.ok.injEq] at hx
  obtain rfl : (r.outcome x.evictNow x.createdNow x.pkt).1 = r' := by rw [hx]
  refine ⟨h.sound.outcome x, ?_⟩
  intro k s hs
  have hevict :
      ∀ k s, (r.evictExpired x.evictNow).slots.find k = some s → r.slots.find k = some s := by
    intro k s hs
    simp only [evictExpired, Store.find_retain, Option.filter_eq_some_iff] at hs
    exact hs.1
  by_cases hk : ∃ f, fragment? x.pkt = some f ∧ f.key = k
  · obtain ⟨f, hf, rfl⟩ := hk
    have hfin : f.fin ≤ bufLen := by
      by_contra hn
      simp [outcome, hf, accept, if_pos (show bufLen < f.fin by omega)] at hs
    obtain ⟨hlog, hall⟩ := h.slotFor x f hfin
    simp only [outcome, hf, accept, if_neg (show ¬ bufLen < f.fin by omega)] at hs
    rw [nextLogs, hf]
    simp only [Function.update_self]
    split at hs
    · simp at hs
    · rw [Store.find_insert_self] at hs
      obtain rfl := Option.some.inj hs
      exact ⟨hlog, hall⟩
  · have hne : ∀ f, fragment? x.pkt = some f → f.key ≠ k := fun f hf hh => hk ⟨f, hf, hh⟩
    rw [find_outcome_of_ne hne] at hs
    have hl : nextLogs r logs x k = logs k := by
      rw [nextLogs]
      cases hf : fragment? x.pkt with
      | none => rfl
      | some f => exact Function.update_of_ne (hne f hf).symm _ _
    rw [hl]
    exact h.slot k s (hevict k s hs)

lemma History.logged (h : History ok r logs) : Logged r logs := by
  induction h with
  | new =>
    refine ⟨?_, ?_⟩
    · intro k s hs
      cases hs
    · intro k s hs
      cases hs
  | feed x _ _ hx ih => exact ih.step hx

lemma supplied_of_clean {log : List Fragment} {s : FragSlot} {t n : ℕ}
    (hlog : FragSlot.ofLog t log = some s)
    (hb : ∀ f ∈ log, f.fin ≤ bufLen) (hc : CleanLog log) (hn : s.complete? = some n) :
    Supplied log (s.packet n) := by
  obtain ⟨htot, hle⟩ := FragSlot.complete?_eq_some.mp hn
  have hend := totalLen_ofLog hlog
  have hfit :
      ∀ g ∈ log.map Fragment.segment, g.fin ≤ (List.replicate bufLen (0 : UInt8)).length := by
    intro g hg
    obtain ⟨f, hf, rfl⟩ := List.mem_map.mp hg
    rw [List.length_replicate]
    exact hb f hf
  obtain ⟨hbuf, hrec⟩ : s.buf = Segment.paste (List.replicate bufLen 0) (log.map Fragment.segment) ∧
      s.received = Segment.total (log.map Fragment.segment) := by
    cases log with
    | nil => cases hlog
    | cons f log =>
      obtain rfl := Option.some.inj hlog
      exact ⟨FragSlot.foldl_write_buf _ _,
        by rw [FragSlot.foldl_write_received]; simp [FragSlot.fresh]⟩
  have hcover : ∀ p < n, ∃ g ∈ log.map Fragment.segment, g.Covers p := by
    intro p hp
    refine Segment.covered_of_total (hc.apart.map _ fun _ _ h => h) ?_
      (by rw [← hrec]; exact hle) hp
    intro g hg
    obtain ⟨f, hf, rfl⟩ := List.mem_map.mp hg
    exact hc.within n (by rw [← hend]; exact htot) f hf
  have hhead : (ipv6Header s.src s.dst s.nextHeader n).length = ipv6HeaderLen := by
    simp [ipv6Header, s.src.property, s.dst.property, ipv6HeaderLen]
  intro p hp
  have hpn : p < n := by
    simp only [FragSlot.packet, List.length_append, hhead, List.length_take] at hp
    omega
  rw [FragSlot.packet, List.getElem?_append_right (by omega), hhead, Nat.add_sub_cancel_left,
    List.getElem?_take_of_lt hpn, hbuf]
  rcases Segment.byte_of_paste hfit p with ⟨g, hg, hcov, he⟩ | ⟨hnone, -⟩
  · obtain ⟨f, hf, rfl⟩ := List.mem_map.mp hg
    exact ⟨f, hf, hcov, he⟩
  · obtain ⟨g, hg, hcov⟩ := hcover p hpn
    exact absurd hcov (hnone g hg)

/-- In every run of clean feeds, no reassembled packet has a byte that no fragment supplied. -/
theorem clean_runs_have_no_holes (h : History CleanFeed r logs) (hx : CleanFeed r logs x)
    {pkt : List UInt8}
    (hf : r.feed x.evictNow x.createdNow x.pkt = .ok (r', some pkt)) (h44 : x.pkt.getD 6 0 = 44) :
    Supplied (judgedBy r logs x) pkt := by
  have hl := h.logged
  rw [feed_eq hl.sound, Except.ok.injEq, outcome] at hf
  rw [judgedBy]
  cases hv : fragment? x.pkt with
  | none =>
    -- A packet with next header 44 that passes through is shorter than the fixed header.
    simp only [hv, h44, ne_eq, not_true_eq_false, or_false, Prod.mk.injEq,
      Option.ite_none_right_eq_some,
      Option.some.injEq] at hf
    obtain ⟨-, hshort, rfl⟩ := hf
    intro p hp
    omega
  | some f =>
    simp only [hv, accept] at hf
    split at hf
    · cases hf
    · rename_i hfin
      obtain ⟨⟨t, hslot⟩, hall⟩ := hl.slotFor x f (by omega)
      split at hf
      · rename_i n hn
        cases hf
        exact supplied_of_clean hslot (fun g hg => (hall g hg).2) (hx f hv (by omega)) hn
      · cases hf

lemma feed_encode (h : r.Sound) (e c : ℕ) (env : Envelope) (ho : 8 ∣ f.offset)
    (hb : f.offset < 2 ^ 16) :
    r.feed e c (encode env f) = .ok ((r.evictExpired e).accept c f) := by
  rw [feed_eq h, outcome, fragment?_encode ho hb]

def head8 : Fragment := ⟨sampleKey, 17, 0, true, [1, 2, 3, 4, 5, 6, 7, 8]⟩
def mid8 : Fragment := ⟨sampleKey, 17, 8, true, [9, 10, 11, 12, 13, 14, 15, 16]⟩
def tail8 : Fragment := ⟨sampleKey, 17, 16, false, [17, 18, 19, 20, 21, 22, 23, 24]⟩

lemma cleanFeed_encode {f : Fragment} (ho : 8 ∣ f.offset) (hb : f.offset < 65536)
    (hlog : CleanLog (logWith r logs ⟨0, 0, encode sampleEnvelope f⟩ f)) :
    CleanFeed r logs ⟨0, 0, encode sampleEnvelope f⟩ := by
  intro g hg _
  obtain rfl : f = g := Option.some.inj ((fragment?_encode ho hb).symm.trans hg)
  exact hlog

theorem whole_packet_supplied : ∃ r logs r' pkt, History CleanFeed r logs ∧
    r.feed 0 0 (encode sampleEnvelope mid8) = .ok (r', some pkt) ∧
    judgedBy r logs ⟨0, 0, encode sampleEnvelope mid8⟩ = [tail8, head8, mid8] ∧
    Supplied [tail8, head8, mid8] pkt := by
  let tail : Feed := ⟨0, 0, encode sampleEnvelope tail8⟩
  let head : Feed := ⟨0, 0, encode sampleEnvelope head8⟩
  let mid : Feed := ⟨0, 0, encode sampleEnvelope mid8⟩
  let r₁ := ((new.evictExpired 0).accept 0 tail8).1
  let r₂ := ((r₁.evictExpired 0).accept 0 head8).1
  have hhead : fragment? head.pkt = some head8 := fragment?_encode (by decide) (by decide)
  have htail : fragment? tail.pkt = some tail8 := fragment?_encode (by decide) (by decide)
  have hmid : fragment? mid.pkt = some mid8 := fragment?_encode (by decide) (by decide)
  have h₀ : (new : FragReassembler).Sound := Reachable.sound ⟨[], [], rfl⟩
  have h₁ : new.feed 0 0 tail.pkt = .ok (r₁, none) := by
    rw [feed_encode h₀ 0 0 sampleEnvelope (by decide) (by decide)]
    rfl
  have hs₁ : r₁.Sound := (h₀.evict 0).accept 0 tail8
  have h₂ : r₁.feed 0 0 head.pkt = .ok (r₂, none) := by
    rw [feed_encode hs₁ 0 0 sampleEnvelope (by decide) (by decide)]
    rfl
  have hs₂ : r₂.Sound := (hs₁.evict 0).accept 0 head8
  obtain ⟨pkt, h₃⟩ : ∃ pkt, r₂.feed 0 0 mid.pkt =
      .ok (((r₂.evictExpired 0).accept 0 mid8).1, some pkt) := by
    rw [feed_encode hs₂ 0 0 sampleEnvelope (by decide) (by decide)]
    exact ⟨_, rfl⟩
  have hlog₁ : logWith new (fun _ => []) tail tail8 = [tail8] := rfl
  have hlog₂ : logWith r₁ (nextLogs new (fun _ => []) tail) head head8 = [tail8, head8] := by
    simp only [nextLogs, htail]
    rfl
  have hlog₃ : logWith r₂ (nextLogs r₁ (nextLogs new (fun _ => []) tail) head) mid mid8 =
      [tail8, head8, mid8] := by
    simp only [nextLogs, htail, hhead]
    rfl
  have hclean : ∀ log ∈ [[tail8], [tail8, head8], [tail8, head8, mid8]], CleanLog log := by
    intro log hlog
    simp only [List.mem_cons, List.not_mem_nil, or_false] at hlog
    have hapart : tail8.segment.Apart head8.segment ∧ tail8.segment.Apart mid8.segment ∧
        head8.segment.Apart mid8.segment := by
      refine ⟨fun p hp hq => ?_, fun p hp hq => ?_, fun p hp hq => ?_⟩ <;>
        simp only [Segment.Covers, Segment.fin, Fragment.segment, tail8, head8, mid8,
          List.length_cons, List.length_nil] at hp hq <;> omega
    rcases hlog with rfl | rfl | rfl <;> constructor <;>
      simp [hapart, Fragment.fin, lastEnd] <;> decide
  have hrun : History CleanFeed r₂ (nextLogs r₁ (nextLogs new (fun _ => []) tail) head) :=
    .feed head (.feed tail .new
      (cleanFeed_encode (by decide) (by decide) (by rw [hlog₁]; exact hclean _ (by simp))) h₁)
      (cleanFeed_encode (by decide) (by decide) (by rw [hlog₂]; exact hclean _ (by simp))) h₂
  have hjudged : judgedBy r₂ (nextLogs r₁ (nextLogs new (fun _ => []) tail) head) mid =
      [tail8, head8, mid8] := by rw [judgedBy, hmid]; exact hlog₃
  have hs := clean_runs_have_no_holes hrun (x := mid)
    (cleanFeed_encode (by decide) (by decide) (by rw [hlog₃]; exact hclean _ (by simp))) h₃
    (encode_nextHeader _ _)
  exact ⟨_, _, _, pkt, hrun, h₃, hjudged, by rw [← hjudged]; exact hs⟩

theorem repeated_fragment_leaves_hole :
    ¬ ∀ (r : FragReassembler) (logs : Logs) (x : Feed) (r' : FragReassembler) (pkt : List UInt8),
      History (fun _ _ _ => True) r logs → r.feed x.evictNow x.createdNow x.pkt =
        .ok (r', some pkt) →
        x.pkt.getD 6 0 = 44 → Supplied (judgedBy r logs x) pkt := by
  intro hall
  let head : Feed := ⟨0, 0, encode sampleEnvelope head8⟩
  let tail : Feed := ⟨0, 0, encode sampleEnvelope tail8⟩
  let r₁ := ((new.evictExpired 0).accept 0 head8).1
  let r₂ := ((r₁.evictExpired 0).accept 0 head8).1
  have hhead : fragment? head.pkt = some head8 := fragment?_encode (by decide) (by decide)
  have htail : fragment? tail.pkt = some tail8 := fragment?_encode (by decide) (by decide)
  have h₀ : (new : FragReassembler).Sound := Reachable.sound ⟨[], [], rfl⟩
  have h₁ : new.feed 0 0 head.pkt = .ok (r₁, none) := by
    rw [feed_encode h₀ 0 0 sampleEnvelope (by decide) (by decide)]
    rfl
  have hs₁ : r₁.Sound := (h₀.evict 0).accept 0 head8
  have h₂ : r₁.feed 0 0 head.pkt = .ok (r₂, none) := by
    rw [feed_encode hs₁ 0 0 sampleEnvelope (by decide) (by decide)]
    rfl
  have hs₂ : r₂.Sound := (hs₁.evict 0).accept 0 head8
  have h₃ : r₂.feed 0 0 tail.pkt = .ok (((r₂.evictExpired 0).accept 0 tail8).1,
      some (ipv6Header sampleKey.src sampleKey.dst 17 24 ++
        (head8.payload ++ (List.replicate 8 0 ++ tail8.payload)))) := by
    rw [feed_encode hs₂ 0 0 sampleEnvelope (by decide) (by decide)]
    rfl
  have hrun : History (fun _ _ _ => True) _ _ := .feed head (.feed head .new trivial h₁) trivial h₂
  have hlog : judgedBy r₂ (nextLogs r₁ (nextLogs new (fun _ => []) head) head) tail =
      [head8, head8, tail8] := by
    rw [judgedBy, htail]
    simp only [nextLogs, hhead]
    rfl
  have hs := hall _ _ tail _ _ hrun h₃ (encode_nextHeader _ _)
  rw [hlog] at hs
  obtain ⟨f, hf, hc, -⟩ := hs 8 (by decide)
  simp only [List.mem_cons, List.not_mem_nil, or_false] at hf
  rcases hf with rfl | rfl | rfl
    <;> simp [Segment.Covers, Segment.fin, Fragment.segment, head8, tail8] at hc

end Yggstack.Frag
