import Yggstack.Library.Ledger
import Yggstack.Netstack.Passes

namespace Yggstack.Netstack

open Library

namespace SocketSet

def kindAt (s : SocketSet) (h : ℕ) : Option Kind := (s.find h).map Socket.kind

variable {s : SocketSet} {h : ℕ}

lemma isTcp_iff : s.IsTcp h ↔ s.kindAt h = some .tcp := by
  simp only [IsTcp, getTcp_eq_ok, kindAt, Option.map_eq_some_iff]
  constructor
  · rintro ⟨t, ht⟩
    exact ⟨.tcp t, ht, rfl⟩
  · rintro ⟨sock, hs, hk⟩
    cases sock with
    | tcp t => exact ⟨t, hs⟩
    | udp u => simp [Socket.kind] at hk
    | icmp i => simp [Socket.kind] at hk

end SocketSet

def waiting (sockets : SocketSet) (pool : List PoolSlot) : List PoolSlot :=
  pool.filter fun slot => !readyIn sockets slot

def staleHandles (now : ℤ) (sockets : SocketSet) (pool : List PoolSlot) : List ℕ :=
  ((waiting sockets pool).filter (staleIn now sockets)).map Prod.fst

def lacking (now : ℤ) (sockets : SocketSet) (pool : List PoolSlot) : ℕ :=
  listenPoolSize - inListen (((waiting sockets pool).filter fun slot =>
    !staleIn now sockets slot).map (markIn now sockets))

structure EntryServiced (now : ℤ) (sockets : SocketSet) (entry : TcpListenerEntry)
    (moved new : List ℕ)
    (r : Serviced) : Prop where
  listenEp : r.entry.listenEp = entry.listenEp
  promoted : moved.Perm ((entry.listenPool.filter (readyIn sockets)).map Prod.fst)
  acceptQueue : r.entry.acceptQueue = entry.acceptQueue ++ moved
  listenPool : r.entry.listenPool.Perm
    (((waiting sockets entry.listenPool).filter fun slot =>
      !staleIn now sockets slot).map (markIn now sockets) ++
      new.map fun h => (h, none))
  count : new.length = lacking now sockets entry.listenPool
  nodup : new.Nodup
  fresh : ∀ h ∈ new, (sockets.eraseAll (staleHandles now sockets entry.listenPool)).find h = none
  result : r.sockets = (sockets.eraseAll (staleHandles now sockets entry.listenPool)).insertAll new
    (.tcp (listenSocket entry.listenEp))
  woken : r.woken ++ r.entry.acceptWakers = entry.acceptWakers

lemma inListen_perm {pool pool' : List PoolSlot} (h : pool.Perm pool') :
    inListen pool = inListen pool' := (h.filter _).length_eq

lemma serviceEntry_spec (now : ℤ) (sockets : SocketSet) (supply : List ℕ) (entry : TcpListenerEntry)
    (h : ∀ slot ∈ entry.listenPool, sockets.IsTcp slot.1)
    (hn : (entry.listenPool.map Prod.fst).Nodup) :
    (serviceEntry now sockets supply entry = .error .supply ∧ ∀ new rest,
        ¬Hands (sockets.eraseAll (staleHandles now sockets entry.listenPool))
          (lacking now sockets entry.listenPool) supply new rest) ∨
      ∃ moved new r, serviceEntry now sockets supply entry = .ok r ∧
        EntryServiced now sockets entry moved new r ∧
        Hands (sockets.eraseAll (staleHandles now sockets entry.listenPool))
          (lacking now sockets entry.listenPool) supply new r.supply := by
  obtain ⟨order, hp, hs⟩ :=
    sweep_spec (promoteStep sockets) (entry.acceptQueue, false) entry.listenPool
  rw [visit_promote sockets _ _ order fun slot hm => h slot (hp.mem_iff.mp hm)] at hs
  obtain ⟨e, he, -⟩ | ⟨acc, ys, pool, hv, hpromote, hpool⟩ := hs
  · exact absurd he (by simp)
  obtain ⟨rfl, rfl⟩ : _ = acc ∧ _ = ys := by simpa using hv
  have hw : pool.Perm (waiting sockets entry.listenPool) := hpool.trans (hp.filter _)
  have hsub : ∀ slot ∈ pool, slot ∈ entry.listenPool :=
    fun slot hm => List.mem_of_mem_filter (hw.mem_iff.mp hm)
  obtain ⟨order', hp', hs'⟩ := sweep_spec (reapStep now) sockets pool
  have hnodup : (order'.map Prod.fst).Nodup := by
    rw [(hp'.map Prod.fst).nodup_iff, (hw.map Prod.fst).nodup_iff]
    exact hn.sublist (List.filter_sublist.map _)
  rw [visit_reap now sockets order' (fun slot hm =>
    h slot (hsub slot (hp'.mem_iff.mp hm))) hnodup] at hs'
  obtain ⟨e, he, -⟩ | ⟨sockets', ys', pool', hv', hreap, hpool'⟩ := hs'
  · exact absurd he (by simp)
  obtain ⟨rfl, rfl⟩ : _ = sockets' ∧ _ = ys' := by simpa using hv'
  have herase : sockets.eraseAll ((order'.filter (staleIn now sockets)).map Prod.fst) =
      sockets.eraseAll (staleHandles now sockets entry.listenPool) :=
    Store.eraseAll_perm _ (((hp'.trans hw).filter _).map _)
  rw [herase] at hreap
  have hkept := hpool'.trans (((hp'.trans hw).filter _).map _)
  have hlack : listenPoolSize - inListen pool' = lacking now sockets entry.listenPool := by
    rw [lacking, inListen_perm hkept]
  rw [serviceEntry, hpromote, ok_bind]
  simp only [hreap, ok_bind]
  rcases topUp_spec entry.listenEp (listenPoolSize - inListen pool')
    (sockets.eraseAll (staleHandles now sockets entry.listenPool)) supply pool' with
    ⟨he, hno⟩ | ⟨new, rest, hhands, htop⟩
  · rw [hlack] at hno
    refine Or.inl ⟨?_, hno⟩
    rw [he]
    rfl
  · rw [htop]
    rw [hlack] at hhands
    refine Or.inr ⟨(order.filter (readyIn sockets)).map Prod.fst, new, _, rfl, ?_, hhands⟩
    refine ⟨rfl, (hp.filter _).map _, rfl, hkept.append_right _, hhands.length, hhands.nodup,
      hhands.fresh, rfl, ?_⟩
    cases order.any (readyIn sockets) <;> simp

def TcpListenerEntry.handles (entry : TcpListenerEntry) : List ℕ :=
  entry.listenPool.map Prod.fst ++ entry.acceptQueue

def keptHandles (now : ℤ) (sockets : SocketSet) (pool : List PoolSlot) : List ℕ :=
  ((waiting sockets pool).filter fun slot => !staleIn now sockets slot).map Prod.fst

lemma markIn_fst (now : ℤ) (sockets : SocketSet) (slot : PoolSlot) :
    (markIn now sockets slot).1 = slot.1 := by
  rw [markIn]
  split
  · split <;> rfl
  · rfl

lemma filter_split {α : Type} (p : α → Bool) (xs : List α) :
    xs.Perm (xs.filter p ++ xs.filter fun x => !p x) := (List.filter_append_perm p xs).symm

namespace EntryServiced

variable {now : ℤ} {sockets : SocketSet} {entry : TcpListenerEntry} {moved new : List ℕ}
    {r : Serviced}

lemma handles_before (h : EntryServiced now sockets entry moved new r) : entry.handles.Perm
    (staleHandles now sockets entry.listenPool ++
      (moved ++ keptHandles now sockets entry.listenPool ++ entry.acceptQueue)) := by
  have hsplit := (filter_split (readyIn sockets) entry.listenPool).map Prod.fst
  have hsplit' :=
    (filter_split (staleIn now sockets) (waiting sockets entry.listenPool)).map Prod.fst
  rw [List.map_append] at hsplit hsplit'
  have hpool :
      (entry.listenPool.map Prod.fst).Perm (moved ++ (staleHandles now sockets entry.listenPool ++
      keptHandles now sockets entry.listenPool)) :=
    hsplit.trans (h.promoted.symm.append hsplit')
  rw [TcpListenerEntry.handles, ← Multiset.coe_eq_coe]
  have hc := Multiset.coe_eq_coe.mpr hpool
  simp only [← Multiset.coe_add] at hc ⊢
  rw [hc]
  abel

lemma handles_after (h : EntryServiced now sockets entry moved new r) : r.entry.handles.Perm
    (new ++ (moved ++ keptHandles now sockets entry.listenPool ++ entry.acceptQueue)) := by
  have hpool := h.listenPool.map Prod.fst
  simp only [List.map_append, List.map_map, Function.comp_def, markIn_fst, List.map_id'] at hpool
  rw [TcpListenerEntry.handles, h.acceptQueue, ← Multiset.coe_eq_coe]
  have hc := Multiset.coe_eq_coe.mpr hpool
  simp only [← Multiset.coe_add, keptHandles] at hc ⊢
  rw [hc]
  abel

lemma ledger (h : EntryServiced now sockets entry moved new r) {rest : Multiset (ℕ × Kind)}
    (hl : Ledger sockets.kindAt (tag .tcp entry.handles + rest)) :
    Ledger r.sockets.kindAt (tag .tcp r.entry.handles + rest) ∧
      (∀ x ∈ rest, r.sockets.find x.1 = sockets.find x.1) ∧
      ∀ j ∈ moved ++ keptHandles now sockets entry.listenPool ++ entry.acceptQueue,
        r.sockets.find j = sockets.find j := by
  rw [tag_perm _ h.handles_before, tag_append, add_assoc] at hl
  rw [tag_perm _ h.handles_after, tag_append, add_assoc, h.result]
  set kept := moved ++ keptHandles now sockets entry.listenPool ++ entry.acceptQueue
  set stale := staleHandles now sockets entry.listenPool
  have hsame :
      ∀ x ∈ tag .tcp kept + rest, (sockets.eraseAll stale).find x.1 = sockets.find x.1 := by
    intro x hx
    rw [Store.find_eraseAll, if_neg]
    intro hm
    exact hl.ne_of_mem_add (x := (x.1, .tcp)) (by simpa using hm) hx rfl
  have hmid : Ledger (SocketSet.kindAt (sockets.eraseAll stale)) (tag .tcp kept + rest) :=
    (hl.of_le (Multiset.le_add_left _ _)).congr fun x hx => by
      rw [SocketSet.kindAt, SocketSet.kindAt, hsame x hx]
  have hkeep : ∀ x ∈ tag .tcp kept + rest, x.1 ∉ new := by
    intro x hx hm
    have hp := hmid.present x hx
    rw [SocketSet.kindAt, h.fresh x.1 hm] at hp
    exact absurd hp (by simp)
  have hfind : ∀ x ∈ tag .tcp kept + rest, ((sockets.eraseAll stale).insertAll new
      (.tcp (listenSocket entry.listenEp))).find x.1 = sockets.find x.1 := by
    intro x hx
    rw [Store.find_insertAll, if_neg (hkeep x hx), hsame x hx]
  refine ⟨hmid.alloc (Ledger.of_tag h.nodup ?_) ?_ ?_, ?_, ?_⟩
  · intro j hj
    rw [SocketSet.kindAt, Store.find_insertAll, if_pos hj]
    rfl
  · intro x hx
    rw [SocketSet.kindAt, h.fresh x.1 (mem_tag.mp hx).1]
    rfl
  · intro x hx
    rw [SocketSet.kindAt, SocketSet.kindAt, Store.find_insertAll, if_neg (hkeep x hx)]
  · intro x hx
    exact hfind x (Multiset.mem_add.mpr (Or.inr hx))
  · intro j hj
    exact hfind (j, .tcp) (Multiset.mem_add.mpr (Or.inl (by simpa using hj)))

lemma origin (h : EntryServiced now sockets entry moved new r) {j : ℕ} {sock : Socket}
    (hf : r.sockets.find j = some sock) :
    sockets.find j = some sock ∨ sock = .tcp (listenSocket entry.listenEp) := by
  rw [h.result, Store.find_insertAll] at hf
  split at hf
  · exact Or.inr (Option.some.inj hf).symm
  · rw [Store.find_eraseAll] at hf
    split at hf
    · exact absurd hf (by simp)
    · exact Or.inl hf

end EntryServiced

def listenerHandles (entries : List TcpListenerEntry) : List ℕ :=
  entries.flatMap TcpListenerEntry.handles

@[simp] lemma listenerHandles_nil : listenerHandles [] = [] := rfl

@[simp] lemma listenerHandles_cons (entry : TcpListenerEntry) (entries : List TcpListenerEntry) :
    listenerHandles (entry :: entries) = entry.handles ++ listenerHandles entries := rfl

inductive ListenersServiced (now : ℤ) : SocketSet → List TcpListenerEntry → SocketSet →
    List TcpListenerEntry → Prop
  | nil (s : SocketSet) : ListenersServiced now s [] s []
  | cons {s s' : SocketSet} {entry : TcpListenerEntry} {entries entries' : List TcpListenerEntry}
      {moved new : List ℕ} {r : Serviced} :
      EntryServiced now s entry moved new r → ListenersServiced now r.sockets entries s' entries' →
      ListenersServiced now s (entry :: entries) s' (r.entry :: entries')

/-- The supply has, turn by turn, the handles that `add` can return there: as many as the pool of
the listener is short of, none of them in use once its stuck sockets are gone. -/
def Supplied (now : ℤ) : SocketSet → List TcpListenerEntry → List ℕ → Prop
  | _, [], _ => True
  | sockets, entry :: entries, supply =>
    ∃ new rest, Hands (sockets.eraseAll (staleHandles now sockets entry.listenPool))
        (lacking now sockets entry.listenPool) supply new rest ∧
      Supplied now ((sockets.eraseAll (staleHandles now sockets entry.listenPool)).insertAll new
        (.tcp (listenSocket entry.listenEp))) entries rest

lemma serviceListeners_spec (now : ℤ) (sockets : SocketSet) (supply : List ℕ)
    (entries : List TcpListenerEntry)
    {rest : Multiset (ℕ × Kind)}
    (hl : Ledger sockets.kindAt (tag .tcp (listenerHandles entries) + rest)) :
    (serviceListeners now sockets supply entries = .error .supply ∧
        ¬Supplied now sockets entries supply) ∨
      ∃ sockets' supply' entries' woken,
        serviceListeners now sockets supply entries = .ok (sockets', supply', entries', woken) ∧
          ListenersServiced now sockets entries sockets' entries' ∧
          Supplied now sockets entries supply := by
  induction entries generalizing sockets supply rest with
  | nil => exact Or.inr ⟨sockets, supply, [], [], rfl, .nil sockets, trivial⟩
  | cons entry entries ih =>
    rw [listenerHandles_cons, tag_append, add_assoc] at hl
    have hown : Ledger sockets.kindAt (tag .tcp entry.handles) :=
      hl.of_le (Multiset.le_add_right _ _)
    have htcp : ∀ slot ∈ entry.listenPool, sockets.IsTcp slot.1 := by
      intro slot hm
      refine SocketSet.isTcp_iff.mpr (hown.present (slot.1, .tcp) ?_)
      simp [TcpListenerEntry.handles, List.mem_map_of_mem hm]
    have hnodup : (entry.listenPool.map Prod.fst).Nodup :=
      hown.tag_nodup.sublist (List.sublist_append_left _ _)
    rw [serviceListeners]
    rcases serviceEntry_spec now sockets supply entry htcp hnodup with ⟨he, hno⟩ |
      ⟨moved, new, r, hr, hspec, hhands⟩
    · refine Or.inl ⟨by rw [he]; rfl, ?_⟩
      rintro ⟨new, rest, hhands, -⟩
      exact hno new rest hhands
    · have hl' : Ledger r.sockets.kindAt
          (tag .tcp (listenerHandles entries) + (tag .tcp r.entry.handles + rest)) := by
        have := (hspec.ledger hl).1
        rwa [add_left_comm] at this
      rw [hr, ok_bind]
      rcases ih r.sockets r.supply hl' with ⟨he, hno⟩ |
        ⟨sockets', supply', entries', woken, hs, hrest, hsupplied⟩
      · refine Or.inl ⟨by rw [he]; rfl, ?_⟩
        rintro ⟨new', rest', hhands', hsupplied⟩
        obtain ⟨rfl, rfl⟩ := hhands.unique hhands'
        rw [← hspec.result] at hsupplied
        exact hno hsupplied
      · refine Or.inr ⟨sockets', supply', r.entry :: entries', r.woken ++ woken,
          by rw [hs]; rfl, .cons hspec hrest, new, r.supply, hhands, ?_⟩
        rwa [← hspec.result]

namespace ListenersServiced

variable {now : ℤ} {s s' : SocketSet} {entries entries' : List TcpListenerEntry}
    {rest : Multiset (ℕ × Kind)}

lemma ledger (h : ListenersServiced now s entries s' entries')
    (hl : Ledger s.kindAt (tag .tcp (listenerHandles entries) + rest)) :
    Ledger s'.kindAt (tag .tcp (listenerHandles entries') + rest) ∧
      ∀ x ∈ rest, s'.find x.1 = s.find x.1 := by
  induction h generalizing rest with
  | nil s => exact ⟨hl, fun x _ => rfl⟩
  | @cons s s' entry entries entries' moved new r hentry _ ih =>
    simp only [listenerHandles_cons, tag_append, add_assoc] at hl ⊢
    obtain ⟨hl₁, hsame₁, -⟩ := hentry.ledger hl
    rw [add_left_comm] at hl₁
    obtain ⟨hl₂, hsame₂⟩ := ih hl₁
    rw [add_left_comm] at hl₂
    refine ⟨hl₂, fun x hx => ?_⟩
    rw [hsame₂ x (Multiset.mem_add.mpr (Or.inr hx)), hsame₁ x (Multiset.mem_add.mpr (Or.inr hx))]

lemma origin (h : ListenersServiced now s entries s' entries') {j : ℕ} {sock : Socket}
    (hf : s'.find j = some sock) :
    s.find j = some sock ∨ ∃ entry ∈ entries, sock = .tcp (listenSocket entry.listenEp) := by
  induction h with
  | nil s => exact Or.inl hf
  | @cons s s' entry entries entries' moved new r hentry _ ih =>
    rcases ih hf with hr | ⟨e, hm, he⟩
    · rcases hentry.origin hr with hs | hs
      · exact Or.inl hs
      · exact Or.inr ⟨entry, by simp, hs⟩
    · exact Or.inr ⟨e, by simp [hm], he⟩

lemma listenEps (h : ListenersServiced now s entries s' entries') :
    entries'.map TcpListenerEntry.listenEp = entries.map TcpListenerEntry.listenEp := by
  induction h with
  | nil s => rfl
  | cons hentry _ ih => rw [List.map_cons, List.map_cons, ih, hentry.listenEp]

lemma entrywise (h : ListenersServiced now s entries s' entries')
    (hl : Ledger s.kindAt (tag .tcp (listenerHandles entries) + rest)) {k : ℕ}
    {entry : TcpListenerEntry}
    (hk : entries[k]? = some entry) :
    ∃ (t : SocketSet) (moved new : List ℕ) (r : Serviced) (others : Multiset (ℕ × Kind)),
      (∀ j ∈ entry.handles, t.find j = s.find j) ∧ EntryServiced now t entry moved new r ∧
        Ledger t.kindAt (tag .tcp entry.handles + others) ∧ entries'[k]? = some r.entry ∧
        (∀ j ∈ r.entry.handles, s'.find j = r.sockets.find j) ∧
        ∀ j sock, s'.find j = some sock → r.sockets.find j = some sock ∨
          ∃ e ∈ entries, sock = .tcp (listenSocket e.listenEp) := by
  induction h generalizing rest k with
  | nil s => simp at hk
  | @cons s s' first entries entries' moved new r hentry hentries ih =>
    simp only [listenerHandles_cons, tag_append, add_assoc] at hl
    obtain ⟨hl₁, hsame, -⟩ := hentry.ledger hl
    rw [add_left_comm] at hl₁
    cases k with
    | zero =>
      obtain rfl : first = entry := by simpa using hk
      refine ⟨s, moved, new, r, _, fun _ _ => rfl, hentry, hl, rfl, ?_, ?_⟩
      · intro j hj
        apply (hentries.ledger hl₁).2 (j, .tcp)
        simp [hj]
      · intro j sock hf
        obtain hr | ⟨e, hm, he⟩ := hentries.origin hf
        · exact Or.inl hr
        · exact Or.inr ⟨e, List.mem_cons_of_mem _ hm, he⟩
    | succ k =>
      obtain ⟨t, moved', new', r', others, ht, hspec, hlt, hk', hafter, horigin⟩ :=
        ih hl₁ (k := k) (by simpa using hk)
      refine ⟨t, moved', new', r', others, ?_, hspec, hlt, by simpa using hk', hafter, ?_⟩
      · intro j hj
        rw [ht j hj]
        refine hsame (j, .tcp) (Multiset.mem_add.mpr (Or.inl ?_))
        simp only [listenerHandles, mem_tag, List.mem_flatMap, and_true]
        exact ⟨entry, List.mem_of_getElem? (by simpa using hk), hj⟩
      · intro j sock hf
        obtain hr | ⟨e, hm, he⟩ := horigin j sock hf
        · exact Or.inl hr
        · exact Or.inr ⟨e, List.mem_cons_of_mem _ hm, he⟩

end ListenersServiced

end Yggstack.Netstack
