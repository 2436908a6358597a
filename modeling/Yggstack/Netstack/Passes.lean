import Yggstack.Netstack.State

/-! The three index loops of a poll cycle in closed form. Each loop looks only at the socket of the
entry it is on, so on distinct handles its decisions are those of the sockets it started with. -/

namespace Yggstack.Netstack

open Library

namespace SocketSet

variable {s : SocketSet} {h j : ℕ} {t : TcpSocket}

lemma getTcp_eq_ok : s.getTcp h = .ok t ↔ s.find h = some (.tcp t) := by
  rw [getTcp, getAs]
  cases hf : s.find h with
  | none => simp
  | some sock => cases sock <;> simp [Socket.tcp?]

lemma getTcp_erase_of_ne (hne : j ≠ h) : getTcp (s.erase h) j = s.getTcp j := by
  rw [getTcp, getTcp, getAs, getAs, Store.find_erase_of_ne s hne]

lemma getTcp_insert_of_ne (sock : Socket) (hne : j ≠ h) :
    getTcp (s.insert h sock) j = s.getTcp j := by
  rw [getTcp, getTcp, getAs, getAs, Store.find_insert_of_ne s sock hne]

lemma remove_eq (hf : (s.find h).isSome) : s.remove h = .ok (s.erase h) := by
  rw [remove]
  cases hh : s.find h with
  | none => simp [hh] at hf
  | some sock => rfl

def IsTcp (s : SocketSet) (h : ℕ) : Prop := ∃ t, s.getTcp h = .ok t

lemma IsTcp.erase_of_ne (hs : s.IsTcp j) (hne : j ≠ h) : IsTcp (s.erase h) j := by
  obtain ⟨t, ht⟩ := hs
  exact ⟨t, by rw [getTcp_erase_of_ne hne, ht]⟩

end SocketSet

def readyIn (sockets : SocketSet) (slot : PoolSlot) : Bool :=
  match sockets.getTcp slot.1 with
  | .ok t => t.mayRecv && t.maySend
  | .error _ => false

def staleIn (now : ℤ) (sockets : SocketSet) (slot : PoolSlot) : Bool :=
  match sockets.getTcp slot.1, slot.2 with
  | .ok t, some since => decide (t.state ≠ .listen ∧ elapsed now since > synHandshakeTimeout)
  | _, _ => false

def markIn (now : ℤ) (sockets : SocketSet) (slot : PoolSlot) : PoolSlot :=
  match sockets.getTcp slot.1 with
  | .ok t => if t.state = .listen then (slot.1, none) else (slot.1, some (slot.2.getD now))
  | .error _ => slot

def goneIn (now : ℤ) (sockets : SocketSet) (item : ℕ × ℤ) : Bool :=
  match sockets.getTcp item.1 with
  | .ok t => decide (t.state = .closed ∨ elapsed now item.2 > closeGrace)
  | .error _ => false

lemma promoteStep_eq {sockets : SocketSet} {slot : PoolSlot} (acc : List ℕ × Bool)
    (h : sockets.IsTcp slot.1) :
    promoteStep sockets acc slot =
      .ok (if readyIn sockets slot then ((acc.1 ++ [slot.1], true), none)
      else (acc, some slot)) := by
  obtain ⟨t, ht⟩ := h
  have hr : readyIn sockets slot = (t.mayRecv && t.maySend) := by simp [readyIn, ht]
  rw [promoteStep, ht, ok_bind, hr]
  split <;> rfl

lemma visit_promote (sockets : SocketSet) (queue : List ℕ) (queued : Bool) (order : List PoolSlot)
    (h : ∀ slot ∈ order, sockets.IsTcp slot.1) :
    visit (promoteStep sockets) (queue, queued) order =
      .ok ((queue ++ (order.filter (readyIn sockets)).map Prod.fst,
        queued || order.any (readyIn sockets)),
        order.filter fun slot => !readyIn sockets slot) := by
  induction order generalizing queue queued with
  | nil => simp [visit]
  | cons slot order ih =>
    have hall : ∀ slot ∈ order, sockets.IsTcp slot.1 := fun x hx => h x (by simp [hx])
    rw [visit, promoteStep_eq _ (h slot (by simp)), ok_bind]
    by_cases hready : readyIn sockets slot = true
    · simp [hready, ih _ _ hall]
    · simp [hready, ih _ _ hall]

lemma reapStep_eq (now : ℤ) {sockets : SocketSet} {slot : PoolSlot} (h : sockets.IsTcp slot.1) :
    reapStep now sockets slot = .ok (if staleIn now sockets slot then (sockets.erase slot.1, none)
      else (sockets, some (markIn now sockets slot))) := by
  obtain ⟨t, ht⟩ := h
  have hremove : SocketSet.remove (sockets.insert slot.1 (.tcp t.abort)) slot.1 =
      .ok (sockets.erase slot.1) := by
    rw [SocketSet.remove_eq (by simp), Store.erase_insert]
  rcases hs : slot.2 with _ | since
  · by_cases hl : t.state = .listen <;> simp [reapStep, staleIn, markIn, ht, hs, hl]
  · by_cases hl : t.state = .listen
    · simp [reapStep, staleIn, markIn, ht, hs, hl]
    · by_cases he : synHandshakeTimeout < elapsed now since
      · simp [reapStep, staleIn, ht, hs, hl, he, hremove]
      · have hslot : (slot.1, some since) = slot := by rw [← hs]
        simp [reapStep, staleIn, markIn, ht, hs, hl, he, hslot]

lemma visit_reap (now : ℤ) (sockets : SocketSet) (order : List PoolSlot)
    (h : ∀ slot ∈ order, sockets.IsTcp slot.1) (hn : (order.map Prod.fst).Nodup) :
    visit (reapStep now) sockets order =
      .ok (sockets.eraseAll ((order.filter (staleIn now sockets)).map Prod.fst),
        (order.filter fun slot => !staleIn now sockets slot).map (markIn now sockets)) := by
  induction order generalizing sockets with
  | nil => rfl
  | cons slot order ih =>
    simp only [List.map_cons, List.nodup_cons] at hn
    have hne : ∀ x ∈ order, x.1 ≠ slot.1 := fun x hx he => hn.1 (he ▸ List.mem_map_of_mem hx)
    have hall : ∀ x ∈ order, sockets.IsTcp x.1 := fun x hx => h x (by simp [hx])
    rw [visit, reapStep_eq now (h slot (by simp)), ok_bind]
    by_cases hs : staleIn now sockets slot = true
    · have hstale : ∀ x ∈ order, staleIn now (sockets.erase slot.1) x = staleIn now sockets x := by
        intro x hx
        simp only [staleIn, SocketSet.getTcp_erase_of_ne (hne x hx)]
      have hmark : ∀ x ∈ order, markIn now (sockets.erase slot.1) x = markIn now sockets x := by
        intro x hx
        simp only [markIn, SocketSet.getTcp_erase_of_ne (hne x hx)]
      have hfilter :
          order.filter (staleIn now (sockets.erase slot.1)) = order.filter (staleIn now sockets) :=
        List.filter_congr hstale
      have hfilter' : (order.filter fun x => !staleIn now (sockets.erase slot.1) x) =
          order.filter fun x => !staleIn now sockets x :=
        List.filter_congr fun x hx => by rw [hstale x hx]
      have hmap :
          (order.filter fun x => !staleIn now sockets x).map (markIn now (sockets.erase slot.1)) =
          (order.filter fun x => !staleIn now sockets x).map (markIn now sockets) :=
        List.map_congr_left fun x hx => hmark x (List.mem_of_mem_filter hx)
      rw [if_pos hs]
      simp only [ih (sockets.erase slot.1) (fun x hx => (hall x hx).erase_of_ne (hne x hx)) hn.2,
        ok_bind,
        hfilter, hfilter', hmap, pure_eq_ok]
      simp [hs, Store.eraseAll_cons]
    · rw [if_neg hs]
      simp only [ih sockets hall hn.2, ok_bind, pure_eq_ok]
      simp [hs]

lemma closingStep_eq (now : ℤ) {sockets : SocketSet} {item : ℕ × ℤ} (h : sockets.IsTcp item.1) :
    closingStep now sockets item = .ok (if goneIn now sockets item then (sockets.erase item.1, none)
      else (sockets, some item)) := by
  obtain ⟨t, ht⟩ := h
  have hfound : sockets.find item.1 = some (.tcp t) := SocketSet.getTcp_eq_ok.mp ht
  have hgone :
      goneIn now sockets item = decide (t.state = .closed ∨ elapsed now item.2 > closeGrace) := by
    simp [goneIn, ht]
  rw [closingStep, ht, ok_bind, hgone]
  by_cases hd : t.state = .closed
  · simp [hd, SocketSet.remove_eq (s := sockets) (h := item.1) (by simp [hfound])]
  · by_cases he : closeGrace < elapsed now item.2
    · simp [hd, he, SocketSet.remove_eq (s := sockets.insert item.1 (.tcp t.abort)) (h :=
        item.1) (by simp)]
    · simp [hd, he]

lemma visit_closing (now : ℤ) (sockets : SocketSet) (order : List (ℕ × ℤ))
    (h : ∀ item ∈ order, sockets.IsTcp item.1) (hn : (order.map Prod.fst).Nodup) :
    visit (closingStep now) sockets order =
      .ok (sockets.eraseAll ((order.filter (goneIn now sockets)).map Prod.fst),
        order.filter fun item => !goneIn now sockets item) := by
  induction order generalizing sockets with
  | nil => rfl
  | cons item order ih =>
    simp only [List.map_cons, List.nodup_cons] at hn
    have hne : ∀ x ∈ order, x.1 ≠ item.1 := fun x hx he => hn.1 (he ▸ List.mem_map_of_mem hx)
    have hall : ∀ x ∈ order, sockets.IsTcp x.1 := fun x hx => h x (by simp [hx])
    rw [visit, closingStep_eq now (h item (by simp)), ok_bind]
    by_cases hg : goneIn now sockets item = true
    · have hgone : ∀ x ∈ order, goneIn now (sockets.erase item.1) x = goneIn now sockets x := by
        intro x hx
        simp only [goneIn, SocketSet.getTcp_erase_of_ne (hne x hx)]
      have hfilter :
          order.filter (goneIn now (sockets.erase item.1)) = order.filter (goneIn now sockets) :=
        List.filter_congr hgone
      have hfilter' : (order.filter fun x => !goneIn now (sockets.erase item.1) x) =
          order.filter fun x => !goneIn now sockets x :=
        List.filter_congr fun x hx => by rw [hgone x hx]
      rw [if_pos hg]
      simp only [ih (sockets.erase item.1) (fun x hx => (hall x hx).erase_of_ne (hne x hx)) hn.2,
        ok_bind,
        hfilter, hfilter', pure_eq_ok]
      simp [hg, Store.eraseAll_cons]
    · rw [if_neg hg]
      simp only [ih sockets hall hn.2, ok_bind, pure_eq_ok]
      simp [hg]

-- The next `n` handles of the supply are ones that `add` can return one after the other.
structure Hands (sockets : SocketSet) (n : ℕ) (supply new rest : List ℕ) : Prop where
  supply : supply = new ++ rest
  length : new.length = n
  nodup : new.Nodup
  fresh : ∀ h ∈ new, sockets.find h = none

lemma Hands.unique {sockets : SocketSet} {n : ℕ} {supply new rest new' rest' : List ℕ}
    (h : Hands sockets n supply new rest) (h' : Hands sockets n supply new' rest') :
    new = new' ∧ rest = rest' :=
  List.append_inj (h.supply.symm.trans h'.supply) (h.length.trans h'.length.symm)

lemma Hands.tail {sockets : SocketSet} {n h : ℕ} {supply new rest : List ℕ} (sock : Socket)
    (hh : Hands sockets (n + 1) (h :: supply) new rest) :
    ∃ new', Hands (sockets.insert h sock) n supply new' rest := by
  obtain ⟨hsupply, hlen, hn, hfresh⟩ := hh
  cases new with
  | nil => cases hlen
  | cons j new =>
    obtain ⟨rfl, rfl⟩ := List.cons.inj hsupply
    rw [List.nodup_cons] at hn
    refine ⟨new, rfl, Nat.succ.inj hlen, hn.2, fun k hk => ?_⟩
    rw [Store.find_insert_of_ne _ _ fun he : k = h => hn.1 (he ▸ hk)]
    exact hfresh k (List.mem_cons_of_mem h hk)

lemma topUp_spec (ep : IpListenEndpoint) (n : ℕ) (sockets : SocketSet) (supply : List ℕ)
    (pool : List PoolSlot) :
    (topUp ep n sockets supply pool = .error .supply ∧
        ∀ new rest, ¬Hands sockets n supply new rest) ∨
      ∃ new rest, Hands sockets n supply new rest ∧
        topUp ep n sockets supply pool = .ok (sockets.insertAll new (.tcp (listenSocket ep)), rest,
          pool ++ new.map fun h => (h, none)) := by
  induction n generalizing sockets supply pool with
  | zero =>
    exact Or.inr ⟨[], supply, ⟨rfl, rfl, List.nodup_nil, by simp⟩, by simp [topUp]⟩
  | succ n ih =>
    rcases supply with _ | ⟨h, supply⟩
    · refine Or.inl ⟨rfl, fun new rest hh => ?_⟩
      have hlen := hh.length
      rw [(List.append_eq_nil_iff.mp hh.supply.symm).1] at hlen
      cases hlen
    · rcases hf : sockets.find h with _ | sock
      · have hadd : newListenSocket sockets (h :: supply) ep =
            .ok (sockets.insert h (.tcp (listenSocket ep)), h, supply) := by
          simp [newListenSocket, SocketSet.add, hf]
        rw [topUp, hadd, ok_bind]
        rcases ih (sockets.insert h (.tcp (listenSocket ep))) supply (pool ++ [(h, none)]) with
          ⟨he, hno⟩ | ⟨new, rest, ⟨rfl, hlen, hn, hfresh⟩, ht⟩
        · refine Or.inl ⟨he, fun new rest hh => ?_⟩
          obtain ⟨new', hh'⟩ := hh.tail _
          exact hno new' rest hh'
        · have hnot : h ∉ new := fun hm => by simpa using hfresh h hm
          refine Or.inr
            ⟨h :: new, rest, ⟨rfl, by simp [hlen], by simp [hn, hnot], ?_⟩,
              by simp only [ht]; simp [Store.insertAll_cons]⟩
          intro j hj
          rcases List.mem_cons.mp hj with rfl | hj
          · exact hf
          · rw [← hfresh j hj, Store.find_insert_of_ne _ _ (fun e : j = h => hnot (e ▸ hj))]
      · refine Or.inl ⟨?_, fun new rest hh => ?_⟩
        · simp [topUp, newListenSocket, SocketSet.add, hf]
          rfl
        · obtain ⟨hsupply, hlen, -, hfresh⟩ := hh
          cases new with
          | nil => cases hlen
          | cons j new =>
            obtain ⟨rfl, -⟩ := List.cons.inj hsupply
            rw [hfresh h List.mem_cons_self] at hf
            cases hf

end Yggstack.Netstack
