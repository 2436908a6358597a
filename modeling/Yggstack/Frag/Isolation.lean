import Yggstack.Frag.Delivery

/-! What one key's fragments get back does not depend on the other packets fed between them. A run
is compared with the run of that key's feeds alone: until the next feed reads the clock, the slots
of the two may differ by an eviction that this feed is going to make anyway. -/

namespace Yggstack.Frag

open Library FragReassembler

def Chronological : ℕ → List Feed → Prop
  | _, [] => True
  | t, x :: feeds =>
    t ≤ x.evictNow ∧ x.evictNow ≤ x.createdNow ∧ Chronological x.createdNow feeds

def clockAfter : ℕ → List Feed → ℕ
  | t, [] => t
  | _, x :: feeds => clockAfter x.createdNow feeds

def feedsOf (key : FragKey) (feeds : List Feed) : List Feed :=
  feeds.filter fun x => keyOf x.pkt = some key

def answersTo (key : FragKey) (feeds : List Feed) (outs : List (Option (List UInt8))) :
    List (Option (List UInt8)) :=
  ((feeds.zip outs).filter fun p => keyOf p.1.pkt = some key).map Prod.snd

def FragReassembler.found (r : FragReassembler) (t : ℕ) (key : FragKey) : Option FragSlot :=
  (r.evictExpired t).slots.find key

def Alike (key : FragKey) (t : ℕ) (r s : FragReassembler) : Prop :=
  ∀ t', t ≤ t' → r.found t' key = s.found t' key

variable {key : FragKey} {t t' : ℕ} {r s r' s' : FragReassembler} {x : Feed}
    {feeds pre post : List Feed} {f : Fragment} {outs : List (Option (List UInt8))}

lemma chronological_append :
    Chronological t (pre ++ post) ↔ Chronological t pre ∧ Chronological (clockAfter t pre) post := by
  induction pre generalizing t with
  | nil => simp [Chronological, clockAfter]
  | cons x pre ih => simp only [List.cons_append, Chronological, clockAfter, ih, and_assoc]

lemma feedsOf_cons (x : Feed) (feeds : List Feed) :
    feedsOf key (x :: feeds) =
      if keyOf x.pkt = some key then x :: feedsOf key feeds else feedsOf key feeds := by
  simp only [feedsOf, List.filter_cons, decide_eq_true_eq]

lemma answersTo_cons (x : Feed) (out : Option (List UInt8)) :
    answersTo key (x :: feeds) (out :: outs) =
      if keyOf x.pkt = some key then out :: answersTo key feeds outs
      else answersTo key feeds outs := by
  simp only [answersTo, List.zip_cons_cons, List.filter_cons, decide_eq_true_eq]
  split <;> rfl

lemma found_evictExpired (h : t ≤ t') : (r.evictExpired t).found t' key = r.found t' key := by
  simp only [found, evictExpired, Store.find_retain]
  cases r.slots.find key with
  | none => rfl
  | some slot =>
    by_cases hs : t' - slot.created < fragTimeout
    · have he : t - slot.created < fragTimeout := by omega
      simp [Option.filter_some, hs, he]
    · by_cases he : t - slot.created < fragTimeout <;> simp [Option.filter_some, hs, he]

lemma Alike.mono (h : Alike key t r s) (ht : t ≤ t') : Alike key t' r s :=
  fun u hu => h u (ht.trans hu)

lemma keyOf_eq_some : keyOf x.pkt = some key ↔ ∃ f, fragment? x.pkt = some f ∧ f.key = key :=
  Option.map_eq_some_iff

lemma Alike.other (h : Alike key t r s) (ht : t ≤ x.evictNow) (hk : keyOf x.pkt ≠ some key) :
    Alike key x.evictNow (r.outcome x.evictNow x.createdNow x.pkt).1 s := by
  intro u hu
  have hne : ∀ f, fragment? x.pkt = some f → f.key ≠ key :=
    fun f hf he => hk (keyOf_eq_some.mpr ⟨f, hf, he⟩)
  have hfind := find_outcome_of_ne (r := r) hne x.evictNow x.createdNow
  calc (r.outcome x.evictNow x.createdNow x.pkt).1.found u key
      = (r.evictExpired x.evictNow).found u key := by
        simp only [found, evictExpired, Store.find_retain] at hfind ⊢
        rw [hfind]
    _ = r.found u key := found_evictExpired hu
    _ = s.found u key := h u (ht.trans hu)

lemma Alike.ours (h : Alike key t r s) (ht : t ≤ x.evictNow) (hk : keyOf x.pkt = some key) :
    (r.outcome x.evictNow x.createdNow x.pkt).2 = (s.outcome x.evictNow x.createdNow x.pkt).2 ∧
      ∀ u, Alike key u (r.outcome x.evictNow x.createdNow x.pkt).1
        (s.outcome x.evictNow x.createdNow x.pkt).1 := by
  obtain ⟨f, hf, rfl⟩ := keyOf_eq_some.mp hk
  have hfound := h x.evictNow ht
  have hslot : (r.evictExpired x.evictNow).slotFor f x.createdNow =
      (s.evictExpired x.evictNow).slotFor f x.createdNow := by
    rw [slotFor, slotFor, show (r.evictExpired x.evictNow).slots.find f.key = _ from hfound]
    rfl
  simp only [outcome, hf, accept, hslot]
  split
  · exact ⟨rfl, fun u v _ => by simp [found, evictExpired]⟩
  · split
    · exact ⟨rfl, fun u v _ => by simp [found, evictExpired]⟩
    · exact ⟨rfl, fun u v _ => by simp [found, evictExpired]⟩

lemma feedAll_feedsOf (hr : r.Sound) (hs : s.Sound) (ha : Alike key t r s)
    (hc : Chronological t feeds) :
    ∃ r' s' outs, r.feedAll feeds = .ok (r', outs) ∧
      s.feedAll (feedsOf key feeds) = .ok (s', answersTo key feeds outs) ∧
      Alike key (clockAfter t feeds) r' s' := by
  induction feeds generalizing t r s with
  | nil => exact ⟨r, s, [], rfl, rfl, ha⟩
  | cons x feeds ih =>
    obtain ⟨ht, he, hc⟩ := hc
    by_cases hk : keyOf x.pkt = some key
    · obtain ⟨hout, hnext⟩ := ha.ours ht hk
      obtain ⟨r', s', outs, hr', hs', ha'⟩ := ih (hr.outcome x) (hs.outcome x) (hnext _) hc
      refine ⟨r', s', (r.outcome x.evictNow x.createdNow x.pkt).2 :: outs, ?_, ?_, ha'⟩
      · rw [feedAll_cons hr, hr']
        rfl
      · rw [feedsOf_cons, if_pos hk, feedAll_cons hs, hs', answersTo_cons, if_pos hk, hout]
        rfl
    · have hnext := (ha.other ht hk).mono he
      obtain ⟨r', s', outs, hr', hs', ha'⟩ := ih (hr.outcome x) hs hnext hc
      refine ⟨r', s', (r.outcome x.evictNow x.createdNow x.pkt).2 :: outs, ?_, ?_, ha'⟩
      · rw [feedAll_cons hr, hr']
        rfl
      · rw [feedsOf_cons, if_neg hk, answersTo_cons, if_neg hk]
        exact hs'

lemma feed_passes (r : FragReassembler) (evictNow createdNow : ℕ) {pkt : List UInt8}
    (h : pkt.length < ipv6HeaderLen ∨ pkt.getD 6 0 ≠ 44) :
    r.feed evictNow createdNow pkt = .ok (r.evictExpired evictNow, some pkt) := by
  by_cases hs : pkt.length < ipv6HeaderLen
  · simp only [feed, if_pos hs, pure_eq_ok]
  · have h6 : index pkt 6 = .ok (pkt.getD 6 0) :=
      index_getD 0 (by simp only [ipv6HeaderLen] at hs; omega)
    simp only [feed, if_neg hs, h6, ok_bind, if_pos (h.resolve_left hs), pure_eq_ok]

/-- Two runs that feed the same fragments of one key answer them alike, whatever else they feed:
each of these fragments also finds the same slot, expired or not. Other packets pass unchanged. -/
theorem answers_independent_of_others (key : FragKey) (feeds₁ feeds₂ : List Feed)
    (h₁ : Chronological 0 feeds₁) (h₂ : Chronological 0 feeds₂)
    (hsame : feedsOf key feeds₁ = feedsOf key feeds₂) :
    (∃ r₁ outs₁ r₂ outs₂, new.feedAll feeds₁ = .ok (r₁, outs₁) ∧
      new.feedAll feeds₂ = .ok (r₂, outs₂) ∧
      answersTo key feeds₁ outs₁ = answersTo key feeds₂ outs₂) ∧
    (∀ pre₁ pre₂ x post₁ post₂, feeds₁ = pre₁ ++ x :: post₁ → feeds₂ = pre₂ ++ x :: post₂ →
      feedsOf key pre₁ = feedsOf key pre₂ →
      ∃ r₁ outs₁ r₂ outs₂, new.feedAll pre₁ = .ok (r₁, outs₁) ∧
        new.feedAll pre₂ = .ok (r₂, outs₂) ∧
        r₁.found x.evictNow key = r₂.found x.evictNow key) ∧
    ∀ (r : FragReassembler) (evictNow createdNow : ℕ) (pkt : List UInt8),
      pkt.length < 40 ∨ pkt.getD 6 0 ≠ 44 →
      ∃ r', r.feed evictNow createdNow pkt = .ok (r', some pkt) := by
  have hnew : (new : FragReassembler).Sound := Reachable.sound ⟨[], [], rfl⟩
  have halike : Alike key 0 new new := fun _ _ => rfl
  refine ⟨?_, ?_, ?_⟩
  · obtain ⟨r₁, s₁, outs₁, hr₁, hs₁, -⟩ := feedAll_feedsOf hnew hnew halike h₁
    obtain ⟨r₂, s₂, outs₂, hr₂, hs₂, -⟩ := feedAll_feedsOf hnew hnew halike h₂
    rw [hsame, hs₂] at hs₁
    refine ⟨r₁, outs₁, r₂, outs₂, hr₁, hr₂, ?_⟩
    exact (Prod.mk.inj (Except.ok.inj hs₁)).2.symm
  · rintro pre₁ pre₂ x post₁ post₂ rfl rfl hpre
    obtain ⟨hc₁, ht₁, -, -⟩ := chronological_append.mp h₁
    obtain ⟨hc₂, ht₂, -, -⟩ := chronological_append.mp h₂
    obtain ⟨r₁, s₁, outs₁, hr₁, hs₁, ha₁⟩ := feedAll_feedsOf hnew hnew halike hc₁
    obtain ⟨r₂, s₂, outs₂, hr₂, hs₂, ha₂⟩ := feedAll_feedsOf hnew hnew halike hc₂
    rw [hpre, hs₂] at hs₁
    obtain rfl : s₂ = s₁ := (Prod.mk.inj (Except.ok.inj hs₁)).1
    exact ⟨r₁, outs₁, r₂, outs₂, hr₁, hr₂, (ha₁ _ ht₁).trans (ha₂ _ ht₂).symm⟩
  · intro r evictNow createdNow pkt h
    exact ⟨_, feed_passes r evictNow createdNow h⟩

def lateHead : Feed :=
  ⟨0, 0, encode sampleEnvelope ⟨sampleKey, 17, 0, true, [1, 2, 3, 4, 5, 6, 7, 8]⟩⟩

def lateTail : Feed :=
  ⟨fragTimeout, fragTimeout, encode sampleEnvelope ⟨sampleKey, 17, 8, false, [9]⟩⟩

theorem late_fragment_answered_alike :
    ∃ r₁ outs₁ r₂ outs₂,
      new.feedAll [lateHead, ⟨fragTimeout, fragTimeout, [1]⟩, lateTail] = .ok (r₁, outs₁) ∧
      new.feedAll [lateHead, lateTail] = .ok (r₂, outs₂) ∧
      answersTo sampleKey [lateHead, ⟨fragTimeout, fragTimeout, [1]⟩, lateTail] outs₁ =
        answersTo sampleKey [lateHead, lateTail] outs₂ := by
  have hhead : keyOf lateHead.pkt = some sampleKey := by decide +kernel
  have htail : keyOf lateTail.pkt = some sampleKey := by decide +kernel
  have hother : keyOf [1] ≠ some sampleKey := by decide
  obtain ⟨halike, -⟩ := answers_independent_of_others sampleKey
    [lateHead, ⟨fragTimeout, fragTimeout, [1]⟩, lateTail] [lateHead, lateTail]
    (by simp [Chronological, lateHead, lateTail]) (by simp [Chronological, lateHead, lateTail])
    (by simp only [feedsOf_cons, hhead, htail, hother, if_true, if_false])
  exact halike

end Yggstack.Frag
