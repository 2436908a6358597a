import Yggstack.Netstack.Dialing

/-! The netstack without the sockets of one call. A poll cycle does the same to all other sockets
whether the hidden ones are there or not. -/

namespace Yggstack.Netstack

open Library

structure Hidden (ours : List ℕ) (s t : SocketSet) : Prop where
  eq : t = s.eraseAll ours
  present : ∀ j ∈ ours, (s.find j).isSome

namespace Hidden

variable {ours : List ℕ} {s t : SocketSet} {j : ℕ}

lemma find (h : Hidden ours s t) (hj : j ∉ ours) : t.find j = s.find j := by
  rw [h.eq, Store.find_eraseAll, if_neg hj]

lemma not_mem_of_find (h : Hidden ours s t) (hf : s.find j = none) : j ∉ ours := by
  intro hj
  have hp := h.present j hj
  rw [hf] at hp
  cases hp

lemma not_mem_of_kindAt (h : Hidden ours s t) {k : Kind} (hk : t.kindAt j = some k) : j ∉ ours := by
  intro hj
  rw [h.eq, SocketSet.kindAt, Store.find_eraseAll, if_pos hj] at hk
  cases hk

lemma getAs (h : Hidden ours s t) {α : Type} (view : Socket → Option α) (hj : j ∉ ours) :
    SocketSet.getAs view t j = SocketSet.getAs view s j := by
  rw [SocketSet.getAs, SocketSet.getAs, h.find hj]

lemma getTcp (h : Hidden ours s t) (hj : j ∉ ours) : t.getTcp j = s.getTcp j := h.getAs _ hj

lemma insert (h : Hidden ours s t) (sock : Socket) (hj : j ∉ ours) :
    Hidden ours (s.insert j sock) (t.insert j sock) := by
  constructor
  · rw [Store.eraseAll_insert_of_not_mem _ _ hj, h.eq]
  · intro k hk
    rw [Store.find_insert_of_ne _ _ (show k ≠ j from fun he => hj (he ▸ hk))]
    exact h.present k hk

lemma insert_ours (h : Hidden ours s t) (sock : Socket) (hj : j ∈ ours) :
    Hidden ours (s.insert j sock) t := by
  constructor
  · rw [Store.eraseAll_insert_of_mem _ _ hj, h.eq]
  · intro k hk
    rw [Store.find_insert]
    split
    · rfl
    · exact h.present k hk

lemma erase (h : Hidden ours s t) (hj : j ∉ ours) : Hidden ours (s.erase j) (t.erase j) := by
  constructor
  · rw [h.eq, Store.erase_eraseAll]
  · intro k hk
    rw [Store.find_erase_of_ne _ (show k ≠ j from fun he => hj (he ▸ hk))]
    exact h.present k hk

lemma mapValues (h : Hidden ours s t) (f : ℕ → Socket → Socket) :
    Hidden ours (s.mapValues f) (t.mapValues f) := by
  constructor
  · rw [h.eq, Store.mapValues_eraseAll]
  · intro k hk
    rw [Store.find_mapValues, Option.isSome_map]
    exact h.present k hk

lemma add (h : Hidden ours s t) (supply : List ℕ) (sock : Socket) :
    Follows (fun a b => Hidden ours a.1 b.1 ∧ b.2 = a.2 ∧ a.2.1 ∉ ours) (s.add supply sock)
      (t.add supply sock) := by
  rcases supply with _ | ⟨j, supply⟩
  · exact Follows.error
  · rw [SocketSet.add, SocketSet.add]
    rcases hf : s.find j with _ | old
    · have hj := h.not_mem_of_find hf
      rw [h.find hj, hf]
      exact Follows.ok ⟨h.insert sock hj, rfl, hj⟩
    · exact Follows.error

lemma remove (h : Hidden ours s t) (hj : j ∉ ours) :
    Follows (Hidden ours) (s.remove j) (t.remove j) := by
  rw [SocketSet.remove, SocketSet.remove, h.find hj]
  rcases s.find j with _ | sock
  · exact Follows.error
  · exact Follows.ok (h.erase hj)

end Hidden

section Cycle

variable {ours : List ℕ} {s t : SocketSet}

lemma promoteStep_hidden (h : Hidden ours s t) (acc : List ℕ × Bool) {slot : PoolSlot}
    (hs : slot.1 ∉ ours) :
    Follows (fun a b => b.1 = a.1 ∧ b.2 = a.2 ∧ ∀ y ∈ a.2, y.1 ∉ ours)
      (promoteStep s acc slot) (promoteStep t acc slot) := by
  apply (Follows.of_eq (h.getTcp hs)).bind
  rintro socket _ rfl
  split
  · exact Follows.ok ⟨rfl, rfl, by simp⟩
  · exact Follows.ok ⟨rfl, rfl, by simpa using hs⟩

lemma reapStep_hidden (now : ℤ) (h : Hidden ours s t) {slot : PoolSlot} (hs : slot.1 ∉ ours) :
    Follows (fun a b => Hidden ours a.1 b.1 ∧ b.2 = a.2 ∧ ∀ y ∈ a.2, y.1 ∉ ours)
      (reapStep now s slot) (reapStep now t slot) := by
  apply (Follows.of_eq (h.getTcp hs)).bind
  rintro socket _ rfl
  split
  · exact Follows.ok ⟨h, rfl, by simpa using hs⟩
  · split
    · exact Follows.ok ⟨h, rfl, by simpa using hs⟩
    · split
      · apply (Follows.of_eq (h.getTcp hs)).bind
        rintro socket _ rfl
        apply ((h.insert _ hs).remove hs).bind
        intro a b hab
        exact Follows.ok ⟨hab, rfl, by simp⟩
      · exact Follows.ok ⟨h, rfl, by simpa using hs⟩

lemma topUp_hidden (ep : IpListenEndpoint) (n : ℕ) (h : Hidden ours s t) (supply : List ℕ)
    (pool : List PoolSlot) :
    Follows (fun a b => Hidden ours a.1 b.1 ∧ b.2 = a.2) (topUp ep n s supply pool)
      (topUp ep n t supply pool) := by
  induction n generalizing s t supply pool with
  | zero => exact Follows.ok ⟨h, rfl⟩
  | succ n ih =>
    apply (h.add supply _).bind
    rintro ⟨s', j, supply'⟩ ⟨t', _⟩ ⟨h', rfl, -⟩
    exact ih h' supply' _

lemma serviceEntry_hidden (now : ℤ) (h : Hidden ours s t) (supply : List ℕ)
    {entry : TcpListenerEntry}
    (hp : ∀ slot ∈ entry.listenPool, slot.1 ∉ ours) :
    Follows (fun a b => Hidden ours a.sockets b.sockets ∧ b.supply = a.supply ∧ b.entry = a.entry ∧
      b.woken = a.woken)
      (serviceEntry now s supply entry) (serviceEntry now t supply entry) := by
  apply (sweep_follows (R := fun a b => b = a) (p := fun slot => slot.1 ∉ ours) _ rfl hp).bind
  · rintro ⟨_, _⟩ ⟨⟨queue, queued⟩, pool⟩ ⟨rfl, rfl, hpool⟩
    apply (sweep_follows (R := Hidden ours) (p := fun slot => slot.1 ∉ ours) _ h hpool).bind
    · rintro ⟨s', _⟩ ⟨t', pool'⟩ ⟨h', rfl, -⟩
      apply (topUp_hidden _ _ h' supply pool').bind
      rintro ⟨s'', supply', pool''⟩ ⟨t'', _⟩ ⟨h'', rfl⟩
      exact Follows.ok ⟨h'', rfl, rfl, rfl⟩
    · intro s t slot h hs
      exact reapStep_hidden now h hs
  · rintro _ acc slot rfl hs
    exact promoteStep_hidden h acc hs

lemma serviceListeners_hidden (now : ℤ) (h : Hidden ours s t) (supply : List ℕ)
    {entries : List TcpListenerEntry}
    (hp : ∀ j ∈ listenerHandles entries, j ∉ ours) :
    Follows (fun a b => Hidden ours a.1 b.1 ∧ b.2 = a.2)
      (serviceListeners now s supply entries) (serviceListeners now t supply entries) := by
  induction entries generalizing s t supply with
  | nil => exact Follows.ok ⟨h, rfl⟩
  | cons entry entries ih =>
    have hpool : ∀ slot ∈ entry.listenPool, slot.1 ∉ ours := by
      intro slot hs
      apply hp
      simp [TcpListenerEntry.handles, List.mem_map_of_mem hs]
    apply (serviceEntry_hidden now h supply hpool).bind
    rintro r r' ⟨h', hsupply, hentry, hwoken⟩
    rw [hsupply]
    apply (ih h' r.supply fun j hj => hp j (by simp [hj])).bind
    rintro ⟨s', supply', entries', woken⟩ ⟨t', _⟩ ⟨h'', rfl⟩
    rw [hentry, hwoken]
    exact Follows.ok ⟨h'', rfl⟩

lemma processConnects_hidden (source : IpAddress → Option IpAddress) (d : ℕ) (h : Hidden ours s t)
    {cmds : List PendingConnect} (hown : ∀ cmd ∈ cmds, cmd.dial = d ↔ cmd.handle ∈ ours) :
    Follows (fun a b => Hidden ours a.1 b.1 ∧ b.2 = a.2.filter fun r => r.1 ≠ d)
      (processConnects source s cmds)
      (processConnects source t (cmds.filter fun cmd => cmd.dial ≠ d)) := by
  induction cmds generalizing s t with
  | nil => exact Follows.ok ⟨h, rfl⟩
  | cons cmd cmds ih =>
    have hcmd := hown cmd (by simp)
    have hown' : ∀ c ∈ cmds, c.dial = d ↔ c.handle ∈ ours := fun c hc => hown c (by simp [hc])
    by_cases hd : cmd.dial = d
    · rw [List.filter_cons_of_neg (by simpa using hd)]
      rintro ⟨s', results⟩ hs
      obtain ⟨⟨s₁, r⟩, hr, hs⟩ := bind_eq_ok.mp hs
      obtain ⟨⟨s₂, rs⟩, hrs, hs⟩ := bind_eq_ok.mp hs
      cases hs
      have hstep : Hidden ours s₁ t ∧ r.1 = d := by
        obtain ⟨socket, -, hr⟩ := bind_eq_ok.mp hr
        split at hr
        · cases hr
          exact ⟨h.insert_ours _ (hcmd.mp hd), hd⟩
        · cases hr
          exact ⟨h, hd⟩
      obtain ⟨⟨t', rs'⟩, ht, h', rfl⟩ := ih hstep.1 hown' _ hrs
      refine ⟨_, ht, h', ?_⟩
      simp [hstep.2]
    · rw [List.filter_cons_of_pos (by simpa using hd)]
      have hj : cmd.handle ∉ ours := fun hm => hd (hcmd.mpr hm)
      have hstep : Follows (fun a b => Hidden ours a.1 b.1 ∧ b.2 = a.2 ∧ a.2.1 ≠ d)
          (processConnect source s cmd) (processConnect source t cmd) := by
        apply (Follows.of_eq (h.getTcp hj)).bind
        rintro socket _ rfl
        split
        · exact Follows.ok ⟨h.insert _ hj, rfl, hd⟩
        · exact Follows.ok ⟨h, rfl, hd⟩
      apply hstep.bind
      rintro ⟨s₁, r⟩ ⟨t₁, _⟩ ⟨h₁, rfl, hne⟩
      apply (ih h₁ hown').bind
      rintro ⟨s₂, rs⟩ ⟨t₂, _⟩ ⟨h₂, rfl⟩
      refine Follows.ok ⟨h₂, ?_⟩
      rw [List.filter_cons_of_pos (by simpa using hne)]

def remaining (ours : List ℕ) (s : SocketSet) : List ℕ := ours.filter fun j => (s.find j).isSome

lemma mem_remaining {j : ℕ} : j ∈ remaining ours s ↔ j ∈ ours ∧ (s.find j).isSome := List.mem_filter

structure Reaped (ours : List ℕ) (closing closing' : List (ℕ × ℤ)) (s' : SocketSet) : Prop where
  keeps : ∀ item ∈ closing, (s'.find item.1).isSome → item ∈ closing'
  adds : ∀ item ∈ closing', item ∈ closing
  unlisted : ∀ j ∈ ours, j ∉ closingHandles closing → (s'.find j).isSome

variable {closing hidden closing' : List (ℕ × ℤ)} {s' : SocketSet}

lemma goneIn_hidden (now : ℤ) (h : Hidden ours s t) {item : ℕ × ℤ} (hi : item.1 ∉ ours) :
    goneIn now t item = goneIn now s item := by
  rw [goneIn, goneIn, h.getTcp hi]

lemma reapClosingSockets_hidden (now : ℤ) (h : Hidden ours s t)
    (htcp : ∀ item ∈ closing, s.IsTcp item.1)
    (hn : (closing.map Prod.fst).Nodup)
    (hc : hidden.Perm (closing.filter fun item => item.1 ∉ ours))
    (hr : reapClosingSockets now s closing = .ok (s', closing')) :
    Reaped ours closing closing' s' ∧ ∃ t' hidden', reapClosingSockets now t hidden =
      .ok (t', hidden') ∧
      Hidden (remaining ours s') s' t' ∧
        hidden'.Perm (closing'.filter fun item => item.1 ∉ remaining ours s') := by
  have hmem : ∀ item, item ∈ hidden ↔ item ∈ closing ∧ item.1 ∉ ours := by
    intro item
    rw [hc.mem_iff, List.mem_filter]
    simp
  obtain ⟨_, hperm, hreap⟩ := reapClosingSockets_spec now s closing htcp hn
  rw [hr] at hreap
  cases hreap
  set gone := (closing.filter (goneIn now s)).map Prod.fst with hgone
  have htcp' : ∀ item ∈ hidden, t.IsTcp item.1 := by
    intro item hm
    obtain ⟨u, hu⟩ := htcp item ((hmem item).mp hm).1
    exact ⟨u, by rw [h.getTcp ((hmem item).mp hm).2, hu]⟩
  have hn' : (hidden.map Prod.fst).Nodup := by
    rw [(hc.map Prod.fst).nodup_iff]
    exact hn.sublist (List.filter_sublist.map _)
  obtain ⟨hidden', hperm', hreap'⟩ := reapClosingSockets_spec now t hidden htcp' hn'
  have hfind : ∀ j, (s.eraseAll gone).find j = if j ∈ gone then none else s.find j :=
    Store.find_eraseAll s gone
  -- The list names each handle once, so an entry that stays keeps its socket.
  have hkept : ∀ item ∈ closing, goneIn now s item = false → item.1 ∉ gone := by
    intro item hm hg hj
    obtain ⟨item', hm', he⟩ := List.mem_map.mp hj
    rw [List.mem_filter] at hm'
    rw [List.inj_on_of_nodup_map hn hm'.1 hm he, hg] at hm'
    cases hm'.2
  have hours : ∀ j, j ∈ remaining ours (s.eraseAll gone) ↔ j ∈ ours ∧ j ∉ gone := by
    intro j
    rw [mem_remaining, hfind]
    constructor
    · rintro ⟨hj, hs⟩
      refine ⟨hj, fun hg => ?_⟩
      rw [if_pos hg] at hs
      cases hs
    · rintro ⟨hj, hg⟩
      rw [if_neg hg]
      exact ⟨hj, h.present j hj⟩
  refine ⟨⟨?_, ?_, ?_⟩, _, hidden', hreap', ⟨?_, fun j hj => (mem_remaining.mp hj).2⟩, ?_⟩
  · intro item hm hs
    rw [hperm.mem_iff, List.mem_filter]
    refine ⟨hm, ?_⟩
    cases hg : goneIn now s item with
    | false => rfl
    | true =>
      rw [hfind, if_pos (List.mem_map_of_mem (List.mem_filter.mpr ⟨hm, hg⟩))] at hs
      cases hs
  · intro item hm
    exact List.mem_of_mem_filter (hperm.mem_iff.mp hm)
  · intro j hj hnot
    rw [hfind, if_neg]
    · exact h.present j hj
    · intro hg
      exact hnot (List.map_subset _ (List.filter_subset_self _) hg)
  · ext j : 2
    have ht : t.find j = if j ∈ ours then none else s.find j := by rw [h.eq, Store.find_eraseAll]
    rw [Store.find_eraseAll, Store.find_eraseAll, hfind, ht]
    have hboth : j ∈ (hidden.filter (goneIn now t)).map Prod.fst ↔ j ∈ gone ∧ j ∉ ours := by
      simp only [hgone, List.mem_map, List.mem_filter, hmem]
      constructor
      · rintro ⟨item, ⟨⟨hm, ho⟩, hg⟩, rfl⟩
        exact ⟨⟨item, ⟨hm, by rwa [goneIn_hidden now h ho] at hg⟩, rfl⟩, ho⟩
      · rintro ⟨⟨item, ⟨hm, hg⟩, rfl⟩, ho⟩
        exact ⟨item, ⟨⟨hm, ho⟩, by rwa [goneIn_hidden now h ho]⟩, rfl⟩
    simp only [hboth, hours]
    by_cases ho : j ∈ ours <;> by_cases hg : j ∈ gone <;> simp [ho, hg]
  · refine hperm'.trans ((hc.filter _).trans ?_)
    refine List.Perm.trans ?_ (hperm.filter _).symm
    rw [List.filter_filter, List.filter_filter]
    apply List.Perm.of_eq
    apply List.filter_congr
    intro item hm
    by_cases ho : item.1 ∈ ours
    · cases hg : goneIn now s item with
      | false => simp [hours, ho, hkept item hm hg]
      | true => simp [ho]
    · simp [goneIn_hidden now h ho, hours, ho]

end Cycle

namespace NetstackState

def hide (s : NetstackState) (d : ℕ) (ours : List ℕ) (hidden : List (ℕ × ℤ)) (wakers : List Waker) :
    NetstackState :=
  { s with
    sockets := s.sockets.eraseAll ours
    wakers
    pendingConnects := s.pendingConnects.filter fun cmd => cmd.dial ≠ d
    closing := hidden }

lemma cycle_hide {s s' : NetstackState} {i : CycleInput}
    {results : List (ℕ × Except SocketError Unit)}
    {woken : List Waker} {rest : Multiset (ℕ × Kind)} {d : ℕ} {ours : List ℕ}
    {hidden : List (ℕ × ℤ)}
    (hl : Ledger s.sockets.kindAt (tag .tcp s.held + rest))
    (hp : ∀ cmd ∈ s.pendingConnects, s.sockets.IsTcp cmd.handle)
    (h₀ : Hidden ours s.sockets (s.sockets.eraseAll ours))
    (hown : ∀ cmd ∈ s.pendingConnects, cmd.dial = d ↔ cmd.handle ∈ ours)
    (hpool : ∀ j ∈ listenerHandles s.listeners, j ∉ ours)
    (hc : hidden.Perm (s.closing.filter fun item => item.1 ∉ ours)) (wakers : List Waker)
    (h : s.cycle i = .ok (s', results, woken)) :
    Reaped ours s.closing s'.closing s'.sockets ∧ ∃ hidden' woken',
      (s.hide d ours hidden wakers).cycle i = .ok (s'.hide d (remaining ours s'.sockets) hidden' [],
        results.filter fun r => r.1 ≠ d, woken') ∧
      hidden'.Perm (s'.closing.filter fun item => item.1 ∉ remaining ours s'.sockets) := by
  obtain ⟨⟨dialed, results⟩, hconnect, h⟩ := bind_eq_ok.mp h
  obtain ⟨⟨served, supply, listeners, accepts⟩, hserve, h⟩ := bind_eq_ok.mp h
  obtain ⟨⟨sockets, closing⟩, hreap, h⟩ := bind_eq_ok.mp h
  cases h
  obtain ⟨_, _, he, hspec⟩ := processConnects_spec s.sourceAddress s.sockets s.pendingConnects hp
  rw [hconnect] at he
  cases he
  have hl₁ := hspec.ledger_polled i.effect hl
  have hclosing : (∀ item ∈ s.closing, served.IsTcp item.1) ∧ (s.closing.map Prod.fst).Nodup := by
    rcases serviceListeners_spec i.serviceNow (i.effect.apply dialed) i.supply s.listeners hl₁ with
      ⟨he, -⟩ | ⟨_, _, _, _, he, hserved, -⟩
    · rw [hserve] at he
      cases he
    · rw [hserve] at he
      cases he
      exact hserved.closing_tcp hl₁
  obtain ⟨⟨dialed', _⟩, hconnect', h₁, rfl⟩ :=
    processConnects_hidden s.sourceAddress d h₀ hown _ hconnect
  have hpolled : Hidden ours (i.effect.apply dialed) (i.effect.apply dialed') := h₁.mapValues _
  obtain ⟨⟨served', _⟩, hserve', h₂, rfl⟩ :=
    serviceListeners_hidden i.serviceNow hpolled i.supply hpool _ hserve
  obtain ⟨hreaped, sockets', hidden', hreap', h₃, hperm⟩ :=
    reapClosingSockets_hidden i.reapNow h₂ hclosing.1 hclosing.2 hc hreap
  refine ⟨hreaped, hidden', accepts ++ wakers, ?_, hperm⟩
  refine bind_eq_ok.mpr ⟨_, hconnect', bind_eq_ok.mpr ⟨_, hserve', bind_eq_ok.mpr ⟨_, hreap', ?_⟩⟩⟩
  rw [h₃.eq]
  rfl

end NetstackState

end Yggstack.Netstack
