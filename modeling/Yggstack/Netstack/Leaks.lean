import Yggstack.Netstack.Mirror

namespace Yggstack.Netstack

open Library

namespace World

variable {d j : ℕ} {ours ours' ours'' : List ℕ} {w v w' v' w'' : World} {a : Action}

namespace Tracks

variable {calm calm' : Prop}

lemma refl (ours : List ℕ) (calm : Prop) (w : World) : Tracks ours ours calm w w :=
  ⟨fun _ hj => hj, fun _ hj hn => ⟨hj, hn⟩, fun _ _ hm _ => hm⟩

lemma trans (h : Tracks ours ours' calm w w') (h' : Tracks ours' ours'' calm' w' w'') :
    Tracks ours ours'' (calm ∧ calm') w w'' where
  sub _ hj := h.sub (h'.sub hj)
  unlisted j hj hn := by
    obtain ⟨hj', hn'⟩ := h.unlisted j hj hn
    exact h'.unlisted j hj' hn'
  listed hc item hm hj := h'.listed hc.2 item (h.listed hc.1 item hm (h'.sub hj)) hj

end Tracks

lemma run_follows {actions : List Action} (hr : Run Step w actions w') (hm : Mirrors d ours w v)
    (hi : Inv w)
    (hv : Inv v) (ha : ∀ b ∈ actions, b.dial? ≠ some d) :
    ∃ v' ours', Run Step v actions v' ∧ Mirrors d ours' w' v' ∧
      Tracks ours ours' (∀ b ∈ actions, b ≠ .shutdown) w w' := by
  induction hr generalizing v ours with
  | nil w => exact ⟨v, ours, .nil v, hm, .refl _ _ _⟩
  | @cons w w₁ w' b actions hs hrun ih =>
    obtain ⟨v₁, ours₁, hs', hm₁, ht₁⟩ := step_follows hm hi hv (ha b (by simp)) hs
    obtain ⟨v', ours', hrun', hm', ht'⟩ :=
      ih hm₁ (inv_step _ _ _ hi hs) (inv_step _ _ _ hv hs') fun c hc => ha c (by simp [hc])
    refine ⟨v', ours', .cons hs' hrun', hm', ?_⟩
    simpa using ht₁.trans ht'

structure DialPassed (f : Dial → Dial) : Prop where
  handle : ∀ dial, (f dial).handle? = dial.handle?
  ended : ∀ o lost, f (.over o lost) = .over o lost
  back : ∀ dial o lost, f dial = .over o lost → dial = .over o lost

lemma DialPassed.same : DialPassed fun dial => dial :=
  ⟨fun _ => rfl, fun _ _ => rfl, fun _ _ _ h => h⟩

lemma DialPassed.receive (r : Option (Except SocketError Unit)) :
    DialPassed fun dial => dial.receive r where
  handle dial := receive_handle? dial r
  ended _ _ := rfl
  back dial o lost h := by
    cases dial with
    | queued j channel => cases channel <;> cases r <;> cases h
    | _ => exact h

lemma DialPassed.hangUp : DialPassed Dial.hangUp where
  handle := hangUp_handle?
  ended _ _ := rfl
  back dial o lost h := by
    cases dial with
    | queued j channel => cases channel <;> cases h
    | _ => exact h

lemma dialPassed_moved (hm : Moved w a w') (ha : a.dial? ≠ some d) :
    ∃ f, DialPassed f ∧ w'.dials.find d = (w.dials.find d).map f := by
  have hset : ∀ {d' : ℕ} (dial : Dial), some d' ≠ some d →
      ∃ f, DialPassed f ∧ (w.dials.insert d' dial).find d = (w.dials.find d).map f := by
    intro d' dial hne
    refine ⟨_, .same, ?_⟩
    rw [Store.find_insert_of_ne _ _ (dial_ne hne).symm, Option.map_id_fun']
    rfl
  have hsame : ∃ f, DialPassed f ∧ w.dials.find d = (w.dials.find d).map f := ⟨_, .same, by simp⟩
  cases hm with
  | dialRefused => exact hset _ ha
  | dialStart => exact hset _ ha
  | dialQueue => exact hset _ ha
  | dialDropLost => exact hset _ ha
  | dialDrop => exact hset _ ha
  | dialLost => exact hset _ ha
  | dialConnected => exact hset _ ha
  | dialFailed => exact hset _ ha
  | dialParked => exact hset _ ha
  | pollerCycled hc => exact ⟨_, .receive _, rfl⟩
  | shutdown =>
    by_cases hp : d ∈ w.net.pendingConnects.map PendingConnect.dial
    · refine ⟨_, .hangUp, ?_⟩
      rw [World.shutdown, Store.find_mapValues]
      simp [hp]
    · refine ⟨_, .same, ?_⟩
      rw [World.shutdown, Store.find_mapValues]
      simp [hp]
  | _ => exact hsame

lemma over_moved {o : Outcome} {lost : Option ℕ} (hm : Moved w a w')
    (ho : w.dials.find d = some (.over o lost)) :
    a.dial? ≠ some d := by
  rintro ha
  have hne : ∀ {d' : ℕ} {dial : Dial}, w.dials.find d' = some dial → some d' = some d →
      dial = .over o lost := by
    rintro d' dial hd ⟨rfl⟩
    rw [ho] at hd
    exact (Option.some.inj hd).symm
  cases hm with
  | dialRefused hd => cases ha; rw [ho] at hd; cases hd
  | dialStart hd => cases ha; rw [ho] at hd; cases hd
  | dialQueue hd => cases hne hd ha
  | dialDropLost hd => cases hne hd ha
  | dialDrop hd => cases hne hd ha
  | dialWaits hd => cases hne hd ha
  | dialLost hd => cases hne hd ha
  | dialConnected hd hs => exact not_streams_over (hne hd ha ▸ hs)
  | dialFailed hd hs => exact not_streams_over (hne hd ha ▸ hs)
  | dialParked hd hs => exact not_streams_over (hne hd ha ▸ hs)
  | streamUsed hop => cases hop.symm.trans ha
  | udpUsed hop => cases hop.symm.trans ha
  | pingUsed hop => cases hop.symm.trans ha
  | bound hb => rw [dial?_of_bindsAt hb] at ha; cases ha
  | _ => cases ha

lemma over_run {actions : List Action} {o : Outcome} {lost : Option ℕ} (hr : Run Step w actions w')
    (hi : Inv w)
    (ho : w.dials.find d = some (.over o lost)) :
    (∀ b ∈ actions, b.dial? ≠ some d) ∧ w'.dials.find d = some (.over o lost) := by
  induction hr with
  | nil w => exact ⟨by simp, ho⟩
  | @cons w w₁ w' b actions hs hrun ih =>
    have hm := moved_of_step hi hs
    have hb := over_moved hm ho
    obtain ⟨f, hf, hd⟩ := dialPassed_moved hm hb
    rw [ho, Option.map_some, hf.ended] at hd
    obtain ⟨hall, hlast⟩ := ih (inv_step _ _ _ hi hs) hd
    exact ⟨List.forall_mem_cons.mpr ⟨hb, hall⟩, hlast⟩

def Settled (d : ℕ) (ours : List ℕ) (covered : Prop) (w v : World) : Prop :=
  Mirrors d ours w v ∧ ((covered ∧ ∀ j ∈ ours, j ∈ closingHandles w.net.closing) ∨
    (¬covered ∧ ∃ j ∈ ours, j ∉ closingHandles w.net.closing))

lemma Mirrors.sockets_ne (hm : Mirrors d ours w v) (hj : j ∈ ours) :
    v.net.sockets ≠ w.net.sockets := by
  intro he
  have hp := hm.net.sockets.present j hj
  rw [← he, hm.net.sockets.eq, Store.find_eraseAll, if_pos hj] at hp
  cases hp

lemma settled_run {covered : Prop} {bs cs : List Action} (hs : Settled d ours covered w v)
    (hi : Inv w) (hv : Inv v)
    (hreap : Run (fun w b w' => Step w b w' ∧ b ≠ .shutdown) w bs w')
    (hgone : ∀ item ∈ w.net.closing, item ∉ w'.net.closing) (hrun : Run Step w' cs w'')
    (hd : ∀ b ∈ bs ++ cs, b.dial? ≠ some d) :
    ∃ v', Run Step v (bs ++ cs) v' ∧ (v'.net.sockets = w''.net.sockets ↔ covered) := by
  obtain ⟨hm, hcase⟩ := hs
  have hbs : Run Step w bs w' := hreap.mono fun _ _ _ h => h.1
  obtain ⟨v₁, ours₁, hr₁, hm₁, ht₁⟩ :=
    run_follows hbs hm hi hv fun b hb => hd b (List.mem_append_left _ hb)
  obtain ⟨v₂, ours₂, hr₂, hm₂, ht₂⟩ :=
    run_follows hrun hm₁ (hbs.invariant hi inv_step) (hr₁.invariant hv inv_step)
    fun b hb => hd b (List.mem_append_right _ hb)
  refine ⟨v₂, hr₁.append hr₂, ?_⟩
  rcases hcase with ⟨hc, hlisted⟩ | ⟨hc, j, hj, hnot⟩
  · have hnone : ours₂ = [] := by
      apply List.eq_nil_iff_forall_not_mem.mpr
      intro j hj
      have hj₁ := ht₂.sub hj
      obtain ⟨item, hitem, rfl⟩ := List.mem_map.mp (hlisted j (ht₁.sub hj₁))
      exact hgone item hitem (ht₁.listed hreap.forall_mem item hitem hj₁)
    rw [hm₂.net.sockets.eq, hnone]
    exact iff_of_true rfl hc
  · obtain ⟨hj₁, hnot₁⟩ := ht₁.unlisted j hj hnot
    obtain ⟨hj₂, -⟩ := ht₂.unlisted j hj₁ hnot₁
    exact iff_of_false (hm₂.sockets_ne hj₂) hc

structure Live (d : ℕ) (ours : List ℕ) (w v : World) : Prop where
  mirrors : Mirrors d ours w v
  own : ∀ j ∈ ours, ∃ dial, w.dials.find d = some dial ∧ dial.handle? = some j
  unlisted : ∀ j ∈ ours, j ∉ closingHandles w.net.closing

lemma Live.eq (hl : Live d ours w v) {dial : Dial} {h : ℕ} (hd : w.dials.find d = some dial)
    (hh : dial.handle? = some h) : ∀ j ∈ ours, j = h := by
  intro j hj
  obtain ⟨dial', hd', hj'⟩ := hl.own j hj
  rw [hd] at hd'
  cases hd'
  rw [hh] at hj'
  exact (Option.some.inj hj').symm

lemma Live.nil (hl : Live d ours w v) (hd : w.dials.find d = none) : ours = [] := by
  apply List.eq_nil_iff_forall_not_mem.mpr
  intro j hj
  obtain ⟨dial, hd', -⟩ := hl.own j hj
  rw [hd] at hd'
  cases hd'

lemma Inv.closing_present (hi : Inv w) (hf : w.net.sockets.find j = none) :
    j ∉ closingHandles w.net.closing := by
  intro hm
  have hk := hi.ledger.present (j, .tcp) (by simp [held, NetstackState.held, hm])
  rw [SocketSet.kindAt, hf] at hk
  cases hk

lemma filter_unlisted {closing : List (ℕ × ℤ)} (h : j ∉ closingHandles closing) :
    (closing.filter fun item => item.1 ∉ [j]) = closing := by
  apply List.filter_eq_self.mpr
  intro item hm
  have hne : item.1 ≠ j := fun he => h (he ▸ List.mem_map_of_mem hm)
  simpa using hne

lemma live_start (hi : Inv w) (hd : w.dials.find d = none) : Live d [] w w where
  mirrors :=
    { net := ⟨⟨rfl, by simp⟩, by
        apply (List.filter_eq_self.mpr _).symm
        intro cmd hc
        obtain ⟨dial, hd', -⟩ := hi.pending cmd hc
        have hne : cmd.dial ≠ d := by
          rintro rfl
          rw [hd] at hd'
          cases hd'
        simpa using hne, by simp, rfl, rfl, rfl⟩
      dials := (Store.erase_of_find hd).symm
      owned := by
        intro dial h hd'
        rw [hd] at hd'
        cases hd'
      ourAddr := rfl, ckr := rfl, streams := rfl, udpSockets := rfl, pingSockets := rfl, tcpListeners := rfl
      poller := rfl }
  own := by simp
  unlisted := by simp

lemma Mirrors.add (hm : Mirrors d [] w v) (hi : Inv w) (hf : w.net.sockets.find j = none)
    (sock : Socket) :
    NetMirrors d [j] (w.putSocket j sock).net v.net where
  __ := hm.net
  sockets := by
    constructor
    · rw [hm.net.sockets.eq, show (w.putSocket j sock).net.sockets =
        w.net.sockets.insert j sock from rfl,
        Store.eraseAll_insert_of_mem _ _ (by simp), Store.eraseAll_nil]
      exact (Store.erase_of_find hf).symm
    · simp [putSocket]
  closing := by
    have hc := hm.net.closing
    rw [show (w.putSocket j sock).net.closing = w.net.closing from rfl,
      filter_unlisted (hi.closing_present hf)]
    simpa using hc

lemma Mirrors.own_setDial (hm : Mirrors d ours w v) {dial : Dial} (hh : ∀ h, dial.handle? = some h →
    h ∈ ours) :
    Mirrors d ours (w.setDial d dial) v where
  __ := hm
  dials := by
    rw [hm.dials]
    exact (Store.erase_insert _ _ _).symm
  owned := by
    intro dial' h hd
    rw [show (w.setDial d dial).dials.find d = some dial from Store.find_insert_self _ _ _] at hd
    cases hd
    exact hh h

lemma Live.own_setDial (hl : Live d ours w v) {dial dial' : Dial} {h : ℕ}
    (hd : w.dials.find d = some dial)
    (hh : dial.handle? = some h) (hh' : dial'.handle? = some h) :
    Live d ours (w.setDial d dial') v where
  mirrors := by
    apply hl.mirrors.own_setDial
    intro j hj
    rw [hh'] at hj
    exact Option.some.inj hj ▸ hl.mirrors.owned dial h hd hh
  own j hj := ⟨dial', Store.find_insert_self _ _ _, by rw [hh', hl.eq hd hh j hj]⟩
  unlisted := hl.unlisted

def Running (w : World) (d : ℕ) : Prop := ∀ o lost, w.dials.find d ≠ some (.over o lost)

lemma not_running_setDial {o : Outcome} {lost : Option ℕ} :
    ¬(w.setDial d (.over o lost)).Running d :=
  fun hr => hr o lost (Store.find_insert_self _ _ _)

lemma Live.answer (hl : Live d ours w v) (k : Waker) : Live d ours (w.answer k) v :=
  { hl with mirrors := { hl.mirrors with } }

lemma Live.wait (hl : Live d ours w v) (wakers : List Waker) : Live d ours (w.wait wakers) v :=
  { hl with mirrors := { hl.mirrors with net := { hl.mirrors.net with } } }

lemma live_own (hl : Live d ours w v) (hi : Inv w) (hm : Moved w a w') (ha : a.dial? = some d)
    (hr : w'.Running d) :
    ∃ ours', Live d ours' w' v := by
  cases hm with
  | dialRefused => cases ha; exact absurd hr not_running_setDial
  | @dialStart _ remote draw handle hd hf =>
    cases ha
    obtain rfl := hl.nil hd
    have hbase : Mirrors d [handle] (w.putSocket handle (.tcp .new)) v :=
      { hl.mirrors with
        net := hl.mirrors.add hi hf _
        owned := by
          intro dial h hd'
          rw [show (w.putSocket handle (.tcp .new)).dials.find d = none from hd] at hd'
          cases hd' }
    refine ⟨[handle], hbase.own_setDial ?_, ?_, ?_⟩
    · rintro h ⟨rfl⟩
      exact List.mem_singleton_self _
    · intro j hj
      exact ⟨_, Store.find_insert_self _ _ _, by rw [List.mem_singleton.mp hj]; rfl⟩
    · intro j hj
      rw [List.mem_singleton.mp hj]
      exact hi.closing_present hf
  | @dialQueue _ handle remote localPort hd =>
    cases ha
    have hl' : Live d ours (w.setDial d (.queued handle .waiting)) v := hl.own_setDial hd rfl rfl
    refine ⟨ours,
      { hl' with mirrors := { hl'.mirrors with net := { hl'.mirrors.net with pending := ?_ } } }⟩
    rw [List.filter_append, List.filter_cons_of_neg (by simp), List.filter_nil, List.append_nil]
    exact hl.mirrors.net.pending
  | dialDropLost => cases ha; exact absurd hr not_running_setDial
  | dialDrop => cases ha; exact absurd hr not_running_setDial
  | dialWaits => exact ⟨ours, hl.answer _⟩
  | dialLost => cases ha; exact absurd hr not_running_setDial
  | dialConnected =>
    cases ha
    exact absurd (Store.find_insert_self _ _ _) (hr _ _)
  | dialFailed => cases ha; exact absurd hr not_running_setDial
  | dialParked hd hs =>
    cases ha
    exact ⟨ours, ((hl.answer _).wait _).own_setDial hd hs.handle? rfl⟩
  | streamUsed hop => cases hop.symm.trans ha
  | udpUsed hop => cases hop.symm.trans ha
  | pingUsed hop => cases hop.symm.trans ha
  | bound hb => rw [dial?_of_bindsAt hb] at ha; cases ha
  | _ => cases ha

lemma live_other (hl : Live d ours w v) (hi : Inv w) (hv : Inv v) (hs : Step w a w')
    (ha : a.dial? ≠ some d) :
    ∃ v' ours', Step v a v' ∧ Live d ours' w' v' := by
  obtain ⟨v', ours', hs', hm', ht⟩ := step_follows hl.mirrors hi hv ha hs
  obtain ⟨f, hf, hd⟩ := dialPassed_moved (moved_of_step hi hs) ha
  refine ⟨v', ours', hs', hm', ?_, ?_⟩
  · intro j hj
    obtain ⟨dial, hdial, hh⟩ := hl.own j (ht.sub hj)
    exact ⟨f dial, by rw [hd, hdial]; rfl, by rw [hf.handle, hh]⟩
  · intro j hj
    exact (ht.unlisted j (ht.sub hj) (hl.unlisted j (ht.sub hj))).2

lemma running_before {actions : List Action} (hrun : Run Step w actions w') (hi : Inv w)
    (hr : w'.Running d) :
    w.Running d := by
  intro o lost ho
  exact hr o lost (over_run hrun hi ho).2

lemma live_run {actions : List Action} (hrun : Run Step w actions w') (hl : Live d ours w v)
    (hi : Inv w)
    (hv : Inv v) (hr : w'.Running d) :
    ∃ v' ours', Run Step v (actions.filter fun b => b.dial? ≠ some d) v' ∧ Live d ours' w' v' := by
  induction hrun generalizing v ours with
  | nil w => exact ⟨v, ours, .nil v, hl⟩
  | @cons w w₁ w' b actions hs hrun ih =>
    have hi₁ := inv_step _ _ _ hi hs
    by_cases hb : b.dial? = some d
    -- A step of the call itself has no counterpart: the other world stays where it is.
    · rw [List.filter_cons_of_neg (by simpa using hb)]
      obtain ⟨ours₁, hl₁⟩ := live_own hl hi (moved_of_step hi hs) hb (running_before hrun hi₁ hr)
      exact ih hl₁ hi₁ hv hr
    · rw [List.filter_cons_of_pos (by simpa using hb)]
      obtain ⟨v₁, ours₁, hs', hl₁⟩ := live_other hl hi hv hs hb
      obtain ⟨v', ours', hrun', hl'⟩ := ih hl₁ hi₁ (inv_step _ _ _ hv hs') hr
      exact ⟨v', ours', .cons hs' hrun', hl'⟩

/-- The step ends a call that has no socket yet, or whose stream owns it. Calls that end in any
other way leave before an object with a `Drop` exists. -/
def Covered (w : World) : Action → Prop
  | .dialStart _ _ _ _ => True
  | .dialDrop d _ => ∃ h deadline, w.dials.find d = some (.connecting h deadline)
  | .poll _ (.dial d _ _) => ∃ dial h, w.dials.find d = some dial ∧ dial.Streams h
  | _ => False

lemma Live.closeStream (hl : Live d ours w v) {dial : Dial} {h : ℕ} {t : TcpSocket}
    (hd : w.dials.find d = some dial)
    (hh : dial.handle? = some h) (wall : ℤ) (o : Outcome) :
    Mirrors d ours ((w.closeStream h t wall).setDial d (.over o none)) v ∧
      ∀ j ∈ ours, j ∈ closingHandles (w.closeStream h t wall).net.closing := by
  have hmem := hl.mirrors.owned dial h hd hh
  constructor
  · have hm : Mirrors d ours (w.closeStream h t wall) v :=
      { hl.mirrors with
        net := { hl.mirrors.net with
          sockets := hl.mirrors.net.sockets.insert_ours _ hmem
          closing := by
            rw [show (w.closeStream h t wall).net.closing = w.net.closing ++ [(h, wall)] from rfl, List.filter_append,
              List.filter_cons_of_neg (by simpa using hmem), List.filter_nil, List.append_nil]
            exact hl.mirrors.net.closing } }
    exact hm.own_setDial fun j hj => by cases hj
  · intro j hj
    rw [hl.eq hd hh j hj]
    simp [World.closeStream, closingHandles]

lemma Live.lose (hl : Live d ours w v) {h : ℕ} {channel : Channel} {covered : Prop} (o : Outcome)
    (hd : w.dials.find d = some (.queued h channel)) (hc : ¬covered) :
    Settled d ours covered (w.setDial d (.over o (some h))) v := by
  have hl' : Live d ours (w.setDial d (.over o (some h))) v := hl.own_setDial hd rfl rfl
  have hmem := hl.mirrors.owned _ h hd rfl
  exact ⟨hl'.mirrors, Or.inr ⟨hc, h, hmem, hl.unlisted h hmem⟩⟩

lemma settled_of_end (hl : Live d ours w v) (hm : Moved w a w') (ha : a.dial? = some d)
    {o : Outcome}
    {lost : Option ℕ} (ho : w'.dials.find d = some (.over o lost)) (hne : ∀ h, o ≠ .connected h) :
    Settled d ours (w.Covered a) w' v := by
  cases hm with
  | dialRefused hd =>
    cases ha
    obtain rfl := hl.nil hd
    exact ⟨hl.mirrors.own_setDial fun h hh => (by cases hh), Or.inl ⟨trivial, by simp⟩⟩
  | dialStart =>
    cases ha
    cases (Store.find_insert_self _ _ _).symm.trans ho
  | dialQueue =>
    cases ha
    cases (Store.find_insert_self _ _ _).symm.trans ho
  | @dialDropLost _ h channel wall hd =>
    cases ha
    apply hl.lose _ hd
    rintro ⟨j, deadline, hd'⟩
    rw [hd] at hd'
    cases hd'
  | @dialDrop _ h deadline wall t hd hf =>
    cases ha
    obtain ⟨hm', hlisted⟩ := hl.closeStream (t := t) hd rfl wall .dropped
    exact ⟨hm', Or.inl ⟨⟨h, deadline, hd⟩, hlisted⟩⟩
  | dialWaits hd =>
    cases ha
    cases hd.symm.trans ho
  | @dialLost n _ h channel now wall e hd hc =>
    cases ha
    apply (hl.answer (.dial d)).lose _ hd
    rintro ⟨dial, j, hd', hs⟩
    rw [hd] at hd'
    cases hd'
    rcases hs with he | ⟨deadline, he⟩
    · cases he
      exact hc rfl
    · cases he
  | dialConnected hd hs =>
    cases ha
    cases (Store.find_insert_self _ _ _).symm.trans ho
    exact absurd rfl (hne _)
  | @dialFailed n _ h dial now wall t e wakers hd hs hf =>
    cases ha
    obtain ⟨hm', hlisted⟩ :=
      ((hl.answer (.dial d)).wait wakers).closeStream (t := t) hd hs.handle? wall (.failed e)
    exact ⟨hm', Or.inl ⟨⟨dial, h, hd, hs⟩, hlisted⟩⟩
  | dialParked =>
    cases ha
    cases (Store.find_insert_self _ _ _).symm.trans ho
  | streamUsed hop => cases hop.symm.trans ha
  | udpUsed hop => cases hop.symm.trans ha
  | pingUsed hop => cases hop.symm.trans ha
  | bound hb => rw [dial?_of_bindsAt hb] at ha; cases ha
  | _ => cases ha

/-- A call that ends in an error or whose future is dropped: what others did while it ran, the world
before its last step, that step and the world after it. -/
inductive FailedCall (w₀ : World) : List Action → World → Action → World → Prop
  | listenTcp {port : UInt16} {supply : List ℕ} {e : IoError} {net : NetstackState} :
      w₀.net.listenTcp w₀.ourAddr port supply = .ok (.error e, net) →
      FailedCall w₀ [] w₀ (.listenTcp port supply) { w₀ with net }
  | bindUdp {port : UInt16} {supply : List ℕ} {e : IoError} {net : NetstackState} :
      w₀.net.bindUdp w₀.ourAddr port supply = .ok (.error e, net) →
      FailedCall w₀ [] w₀ (.bindUdp port supply) { w₀ with net }
  | openUdp {draw : UInt16} {supply : List ℕ} {e : IoError} {net : NetstackState} :
      w₀.net.openUdp draw supply = .ok (.error e, net) →
      FailedCall w₀ [] w₀ (.openUdp draw supply) { w₀ with net }
  | openIcmp {ident : UInt16} {supply : List ℕ} {e : IoError} {net : NetstackState} :
      w₀.net.openIcmp ident supply = .ok (.error e, net) →
      FailedCall w₀ [] w₀ (.openIcmp ident supply) { w₀ with net }
  | dialTcp {d : ℕ} {actions : List Action} {w₁ w₂ : World} {a : Action} {o : Outcome}
      {lost : Option ℕ} :
      w₀.dials.find d = none → Run Step w₀ actions w₁ → w₁.Running d → Step w₁ a w₂ →
      w₂.dials.find d = some (.over o lost) → (∀ h, o ≠ .connected h) →
      FailedCall w₀ (actions.filter fun b => b.dial? ≠ some d) w₁ a w₂

lemma exists_fresh_dial (w : World) (actions : List Action) :
    ∃ d, w.dials.find d = none ∧ ∀ b ∈ actions, b.dial? ≠ some d := by
  obtain ⟨d, hd⟩ :=
    (w.dials.finite.union (List.finite_toSet (actions.filterMap Action.dial?))).exists_notMem
  simp only [Set.mem_union, Set.mem_ofPred_eq, not_or, not_not, List.mem_filterMap, not_exists,
    not_and] at hd
  exact ⟨d, hd.1, hd.2⟩

lemma settled_of_leak (hi : Inv w) (hf : w.net.sockets.find j = none) (sock : Socket)
    (hd : w.dials.find d = none) :
    Settled d [j] False (w.putSocket j sock) w := by
  have hm := (live_start hi hd).mirrors
  refine ⟨{ hm with net := hm.add hi hf sock, owned := ?_ },
    Or.inr ⟨not_false, j, by simp, hi.closing_present hf⟩⟩
  intro dial h hd'
  cases hd.symm.trans hd'

lemma leak_of_failed {others : List Action} {w₀ w₁ w₂ : World} (hf : FailedCall w₀ others w₁ a w₂) :
    (others = [] ∧ w₁ = w₀ ∧ ¬w₁.Covered a ∧ ∃ j sock, w₀.net.sockets.find j = none ∧
      w₂ = w₀.putSocket j sock) ∨
    ∃ d actions o lost, others = (actions.filter fun b => b.dial? ≠ some d) ∧
      w₀.dials.find d = none ∧
      Run Step w₀ actions w₁ ∧ w₁.Running d ∧ Step w₁ a w₂ ∧ w₂.dials.find d = some (.over o lost) ∧
        ∀ h, o ≠ .connected h := by
  cases hf with
  | @listenTcp port supply e net h =>
    rcases (listenTcp_ends w₀.net supply w₀.ourAddr port).of_ok h with ⟨-, j, hj, he⟩ | ⟨-, handles,
      -, -, -, he⟩
    · cases he
      exact Or.inl ⟨rfl, rfl, not_false, j, _, hj, rfl⟩
    · cases he
  | @bindUdp port supply e net h =>
    obtain ⟨j, hj, he⟩ := (bindUdpAt_ends w₀.net supply _).of_ok h
    split at he
    · cases he
      exact Or.inl ⟨rfl, rfl, not_false, j, _, hj, rfl⟩
    · cases he
  | @openUdp draw supply e net h =>
    obtain ⟨j, -, he⟩ := (bindUdpAt_ends w₀.net supply _).of_ok h
    rw [if_neg (show
      ({ addr := none, port := NetstackState.ephemeralPort draw } : IpListenEndpoint).port ≠ 0 from
      ephemeralPort_ne_zero draw)] at he
    cases he
  | @openIcmp ident supply e net h =>
    obtain ⟨j, -, he⟩ := (openIcmp_ends w₀.net supply ident).of_ok h
    cases he
  | dialTcp hd hrun hr hs ho hne => exact Or.inr ⟨_, _, _, _, rfl, hd, hrun, hr, hs, ho, hne⟩

/-- Once the closing list is reaped after a failed call, the socket set is the one of the run
without the call exactly if the call failed before it had a socket or while its stream owned it. -/
theorem failed_call_leaves_no_socket_iff {w₀ w₁ w₂ m w₃ : World} {others bs cs : List Action}
    (hr : Reachable w₀)
    (hf : FailedCall w₀ others w₁ a w₂)
    (hreap : Run (fun w b w' => Step w b w' ∧ b ≠ .shutdown) w₂ bs m)
    (hgone : ∀ item ∈ w₂.net.closing, item ∉ m.net.closing) (hrun : Run Step m cs w₃) :
    ∃ v, Run Step w₀ (others ++ (bs ++ cs)) v ∧
      (v.net.sockets = w₃.net.sockets ↔ w₁.Covered a) := by
  have hi := hr.inv
  rcases leak_of_failed hf with ⟨rfl, rfl, hc, j, sock, hj, rfl⟩ | ⟨d, actions, o, lost, rfl, hd,
    hrun₁, hlive, hs, ho, hne⟩
  · obtain ⟨d, hd, hfresh⟩ := exists_fresh_dial w₁ (bs ++ cs)
    have hset := settled_of_leak hi hj sock hd
    obtain ⟨v, hv, hiff⟩ := settled_run hset (hi.leak sock hj) hi hreap hgone hrun hfresh
    exact ⟨v, hv, hiff.trans (iff_of_false not_false hc)⟩
  · obtain ⟨v₁, ours, hv₁, hl⟩ := live_run hrun₁ (live_start hi hd) hi hi hlive
    have hi₁ := hrun₁.invariant hi inv_step
    have hi₂ := inv_step _ _ _ hi₁ hs
    have hm := moved_of_step hi₁ hs
    have ha : a.dial? = some d := by
      by_contra ha
      obtain ⟨f, hpass, hd'⟩ := dialPassed_moved hm ha
      obtain ⟨dial, hdial, he⟩ := Option.map_eq_some_iff.mp (hd'.symm.trans ho)
      exact hlive o lost (hpass.back dial o lost he ▸ hdial)
    have hafter := (hreap.mono fun _ _ _ h => h.1).append hrun
    obtain ⟨v, hv, hiff⟩ := settled_run (settled_of_end hl hm ha ho hne) hi₂
        (hv₁.invariant hi inv_step) hreap hgone hrun
      (over_run hafter hi₂ ho).1
    exact ⟨v, hv₁.append hv, hiff⟩

def quietCycle : Action := .pollerCycle (cycleAt 9 .established [] 0 [])

def dialTo (remote : IpEndpoint) : List Action :=
  [.dialStart 0 remote 0 3, .dialQueue 0, .pollerCheck, quietCycle]

theorem timed_out_dial_leaves_nothing :
    ∃ w₁ w₂ m v, FailedCall (initial 1 false fun _ => some (.ipv6 1)) [.pollerCheck, quietCycle] w₁
        (.poll 0 (.dial 0 10000000 0)) w₂ ∧ w₁.Covered (.poll 0 (.dial 0 10000000 0)) ∧
      Run (fun w b w' => Step w b w' ∧ b ≠ .shutdown) w₂ [.pollerCheck, quietCycle] m ∧
      Run Step (initial 1 false fun _ => some (.ipv6 1))
        [.pollerCheck, quietCycle, .pollerCheck, quietCycle] v ∧
      v.net.sockets = m.net.sockets := by
  have hrun : ∃ w₁ w₂ w₃ m, Run Step (initial 1 false fun _ => some (.ipv6 1))
      (dialTo ⟨.ipv6 2, 80⟩ ++ [.poll 0 (.dial 0 0 0)]) w₁ ∧
        w₁.dials.find 0 = some (.connecting 3 10000000) ∧
      Step w₁ (.poll 0 (.dial 0 10000000 0)) w₂ ∧
      w₂.dials.find 0 = some (.over (.failed ⟨.timedOut, "netstack connect timed out"⟩) none) ∧
      Step w₂ .pollerCheck w₃ ∧ Step w₃ quietCycle m ∧ m.net.closing = [] :=
    ⟨_, _, _, _, .of_runAll rfl, rfl, rfl, rfl, rfl, rfl, rfl⟩
  obtain ⟨w₁, w₂, w₃, m, hrun, hd, hs, ho, hs₂, hs₃, hm⟩ := hrun
  have hf : FailedCall (initial 1 false fun _ => some (.ipv6 1)) [.pollerCheck, quietCycle] w₁ _
      w₂ :=
    .dialTcp rfl hrun (fun o lost he => (by cases hd.symm.trans he)) hs ho (fun h he => by cases he)
  have hreap : Run (fun w b w' => Step w b w' ∧ b ≠ .shutdown) w₂ [.pollerCheck, quietCycle] m :=
    .cons ⟨hs₂, by simp⟩ (.single ⟨hs₃, by simp [quietCycle]⟩)
  have hc : w₁.Covered (.poll 0 (.dial 0 10000000 0)) := ⟨_, 3, hd, Or.inr ⟨_, rfl⟩⟩
  obtain ⟨v, hv, hiff⟩ :=
    failed_call_leaves_no_socket_iff ⟨_, _, _, [], .nil _⟩ hf hreap (by simp [hm]) (.nil _)
  exact ⟨w₁, w₂, m, v, hf, hc, hreap, hv, hiff.mpr hc⟩

theorem refused_dial_leaves_socket :
    ¬∀ (w₀ w₁ w₂ m w₃ : World) (a : Action) (others bs cs : List Action),
    Reachable w₀ → FailedCall w₀ others w₁ a w₂ →
      Run (fun w b w' => Step w b w' ∧ b ≠ .shutdown) w₂ bs m →
      (∀ item ∈ w₂.net.closing, item ∉ m.net.closing) → Run Step m cs w₃ →
        ∃ v, Run Step w₀ (others ++ (bs ++ cs)) v ∧ v.net.sockets = w₃.net.sockets := by
  intro hall
  have hrun : ∃ w₁ w₂, Run Step (initial 1 false fun _ => some (.ipv6 1)) (dialTo ⟨.ipv6 2, 0⟩) w₁ ∧
      w₁.dials.find 0 = some (.queued 3 (.sent (.error .unaddressable))) ∧
        Step w₁ (.poll 0 (.dial 0 0 0)) w₂ ∧
      w₂.dials.find 0 = some (.over (.failed ⟨.connectionRefused, "Unaddressable"⟩) (some 3)) ∧
      w₂.net.closing = [] ∧ w₂.net.sockets.find 3 = some (.tcp .new) :=
    ⟨_, _, .of_runAll rfl, rfl, rfl, rfl, rfl, rfl⟩
  obtain ⟨w₁, w₂, hrun, hd, hs, ho, hclosing, hleft⟩ := hrun
  have hf : FailedCall (initial 1 false fun _ => some (.ipv6 1)) [.pollerCheck, quietCycle] w₁ _
      w₂ :=
    .dialTcp rfl hrun (fun o lost he => (by cases hd.symm.trans he)) hs ho (fun h he => by cases he)
  obtain ⟨v, hv, he⟩ :=
    hall _ w₁ w₂ w₂ w₂ _ _ [] [] ⟨_, _, _, [], .nil _⟩ hf (.nil _) (by simp [hclosing]) (.nil _)
  have hnone : v.net.sockets.find 3 = none := by
    rcases hv with _ | ⟨hs, hv⟩
    cases hs
    rcases hv with _ | ⟨hs, hv⟩
    cases hs
    cases hv
    rfl
  rw [he, hleft] at hnone
  cases hnone

end World

end Yggstack.Netstack
