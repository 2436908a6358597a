import Yggstack.Forward.Udp

namespace Yggstack.Forward.Udp

open Library Inet

structure Inv (s : State) : Prop where
  session : ∀ a v, s.sessions.find a = some v → s.opened[v.socket]? = some a
  listener : ∀ (i : ℕ) (l : Listener), s.listeners[i]? = some l → s.opened[l.socket]? = some l.source
  used : ∀ way k a t ok, .forwarded way k a t ok ∈ s.log → s.opened[k]? = some a
  unique : ∀ (i j : ℕ) (l l' : Listener), s.listeners[i]? = some l → s.listeners[j]? = some l' →
    l.Live → l'.Live → l.socket = l'.socket → i = j
  known : ∀ a v (i : ℕ) (l : Listener), s.sessions.find a = some v → s.listeners[i]? = some l →
    l.Live → l.socket = v.socket → v.listenerHandle = some i ∨ s.main = .storing a i ∨
      s.main = .aborted
  sending : ∀ a k need, s.main = .sending a k need → s.opened[k]? = some a ∧
    (∀ v, s.sessions.find a = some v → v.socket = k) ∧
    (need = true → ∀ (i : ℕ) (l : Listener), s.listeners[i]? = some l → l.Live → l.socket ≠ k)
  storing : ∀ a i, s.main = .storing a i → ∃ l : Listener, s.listeners[i]? = some l ∧
    (∀ v, s.sessions.find a = some v → v.socket = l.socket) ∧
    ∀ (j : ℕ) (l' : Listener), s.listeners[j]? = some l' → l'.Live → l'.socket = l.socket → j = i

structure Tamer (listeners listeners' : List Listener) : Prop where
  before : ∀ (i : ℕ) (l' : Listener), listeners'[i]? = some l' → ∃ l : Listener,
    listeners[i]? = some l ∧ l.socket = l'.socket ∧ l.source = l'.source ∧ (l'.Live → l.Live)
  after : ∀ (i : ℕ) (l : Listener), listeners[i]? = some l → ∃ l' : Listener,
    listeners'[i]? = some l' ∧ l'.socket = l.socket

lemma Tamer.refl (ls : List Listener) : Tamer ls ls where
  before _ l h := ⟨l, h, rfl, rfl, id⟩
  after _ l h := ⟨l, h, rfl⟩

lemma Tamer.set {ls : List Listener} {i : ℕ} {l l' : Listener} (h : ls[i]? = some l)
    (hsocket : l'.socket = l.socket) (hsource : l'.source = l.source) (hlive : l'.Live → l.Live) :
    Tamer ls (ls.set i l') where
  before j m hm := by
    rcases getElem?_change hm with ⟨rfl, rfl⟩ | ⟨-, hm⟩
    · exact ⟨l, h, hsocket.symm, hsource.symm, hlive⟩
    · exact ⟨m, hm, rfl, rfl, id⟩
  after j m hm := by
    by_cases hj : j = i
    · subst hj
      rw [h] at hm
      cases hm
      exact ⟨l', getElem?_change_self h, hsocket⟩
    · exact ⟨m, by rw [List.getElem?_set_ne (Ne.symm hj)]; exact hm, rfl⟩

lemma Tamer.abort (handles : List ℕ) (ls : List Listener) : Tamer ls (State.abort handles ls) where
  before i l' h := by
    rw [State.abort, List.getElem?_mapIdx, Option.map_eq_some_iff] at h
    obtain ⟨l, hl, rfl⟩ := h
    refine ⟨l, hl, ?_⟩
    split
    · exact ⟨rfl, rfl, id⟩
    · exact ⟨rfl, rfl, id⟩
  after i l h := by
    refine ⟨if i ∈ handles then { l with aborting := true } else l, ?_, ?_⟩
    · rw [State.abort, List.getElem?_mapIdx, h]
      rfl
    · split <;> rfl

section Steps

variable {s t : State}

def Main.Between (m : Main) : Prop := (∀ a i, m ≠ .storing a i) ∧ m ≠ .aborted

lemma Main.between_of_eq {m m' : Main} (h : m = m') (hstoring : ∀ a i, m' ≠ .storing a i)
    (haborted : m' ≠ .aborted) : m.Between := by
  subst h
  exact ⟨hstoring, haborted⟩

structure Fewer (s t : State) : Prop where
  opened : t.opened = s.opened
  sessions : ∀ a v', t.sessions.find a = some v' → ∃ v, s.sessions.find a = some v ∧
    v.socket = v'.socket ∧ v.listenerHandle = v'.listenerHandle
  listeners : Tamer s.listeners t.listeners
  used : ∀ way k a time ok, .forwarded way k a time ok ∈ t.log →
    .forwarded way k a time ok ∈ s.log ∨ t.opened[k]? = some a
  main : t.main = s.main ∨ t.main = .aborted ∨ s.main.Between ∧
    (∀ a k need, t.main ≠ .sending a k need) ∧ ∀ a i, t.main ≠ .storing a i

lemma Inv.fewer (h : Inv s) (hf : Fewer s t) : Inv t where
  session a v' hv' := by
    obtain ⟨v, hv, hsocket, -⟩ := hf.sessions a v' hv'
    rw [hf.opened, ← hsocket]
    exact h.session a v hv
  listener i l' hl' := by
    obtain ⟨l, hl, hsocket, hsource, -⟩ := hf.listeners.before i l' hl'
    rw [hf.opened, ← hsocket, ← hsource]
    exact h.listener i l hl
  used way k a time ok hmem := by
    rcases hf.used way k a time ok hmem with hold | hnew
    · rw [hf.opened]
      exact h.used way k a time ok hold
    · exact hnew
  unique i j l m hl hm hlive hlive' heq := by
    obtain ⟨l₀, hl₀, hsocket, -, hlive₀⟩ := hf.listeners.before i l hl
    obtain ⟨m₀, hm₀, hsocket', -, hlive₁⟩ := hf.listeners.before j m hm
    exact h.unique i j l₀ m₀ hl₀ hm₀ (hlive₀ hlive) (hlive₁ hlive') (by rw [hsocket, hsocket', heq])
  known a v' i l' hv' hl' hlive heq := by
    obtain ⟨v, hv, hsocket, hhandle⟩ := hf.sessions a v' hv'
    obtain ⟨l, hl, hsocket', -, hlive'⟩ := hf.listeners.before i l' hl'
    rw [← hhandle]
    rcases h.known a v i l hv hl (hlive' hlive) (by rw [hsocket', hsocket, heq]) with hk | hk
    · exact .inl hk
    · right
      rcases hf.main with hmain | hmain | ⟨hno, -⟩
      · rwa [hmain]
      · exact .inr hmain
      · exact hk.elim (fun hk => absurd hk (hno.1 a i)) fun hk => absurd hk hno.2
  sending a k need hmain := by
    rcases hf.main with hsame | habort | ⟨-, hno, -⟩
    · obtain ⟨howner, hsession, hneed⟩ := h.sending a k need (hsame.symm.trans hmain)
      refine ⟨by rw [hf.opened]; exact howner, fun v' hv' => ?_, fun hn i l' hl' hlive => ?_⟩
      · obtain ⟨v, hv, hsocket, -⟩ := hf.sessions a v' hv'
        rw [← hsocket]
        exact hsession v hv
      · obtain ⟨l, hl, hsocket, -, hlive'⟩ := hf.listeners.before i l' hl'
        rw [← hsocket]
        exact hneed hn i l hl (hlive' hlive)
    · cases habort.symm.trans hmain
    · exact absurd hmain (hno a k need)
  storing a i hmain := by
    rcases hf.main with hsame | habort | ⟨-, -, hno⟩
    · obtain ⟨l, hl, hsession, honly⟩ := h.storing a i (hsame.symm.trans hmain)
      obtain ⟨l', hl', hsocket⟩ := hf.listeners.after i l hl
      refine ⟨l', hl', fun v' hv' => ?_, fun j m' hm' hlive heq => ?_⟩
      · obtain ⟨v, hv, hsocket', -⟩ := hf.sessions a v' hv'
        rw [hsocket, ← hsocket']
        exact hsession v hv
      · obtain ⟨m, hm, hsocket', -, hlive'⟩ := hf.listeners.before j m' hm'
        exact honly j m hm (hlive' hlive) (by rw [hsocket', heq, hsocket])
    · cases habort.symm.trans hmain
    · exact absurd hmain (hno a i)

lemma Inv.logged (h : Inv s) {log : List Entry} {timer : Option ℕ}
    (hlog : ∀ way k a time ok, .forwarded way k a time ok ∈ log →
      .forwarded way k a time ok ∈ s.log ∨ s.opened[k]? = some a) :
    Inv { s with timer := timer, log := log } :=
  h.fewer ⟨rfl, fun _ v hv => ⟨v, hv, rfl, rfl⟩, .refl _, hlog, .inl rfl⟩

lemma Inv.heard (h : Inv s) (a : SocketAddr) (time : ℕ) :
    Inv { s with log := s.log ++ [.heard a time] } := by
  refine h.logged fun way k b time' ok hmem => .inl ?_
  simpa using hmem

lemma Inv.begin (h : Inv s) {a : SocketAddr} {k : ℕ} {need : Bool}
    (hmain : s.main.Between) (howner : s.opened[k]? = some a)
    (hsession : ∀ v, s.sessions.find a = some v → v.socket = k)
    (hneed : need = true → ∀ (i : ℕ) (l : Listener), s.listeners[i]? = some l → l.Live →
      l.socket ≠ k) : Inv { s with main := .sending a k need } where
  session := h.session
  listener := h.listener
  used := h.used
  unique := h.unique
  known b v i l hv hl hlive heq := by
    rcases h.known b v i l hv hl hlive heq with hk | hk
    · exact .inl hk
    · exact hk.elim (fun hk => absurd hk (hmain.1 b i)) fun hk => absurd hk hmain.2
  sending b k' need' heq := by
    cases heq
    exact ⟨howner, hsession, hneed⟩
  storing b i heq := by cases heq

lemma lt_of_opened {k : ℕ} {a : SocketAddr} (h : s.opened[k]? = some a) : k < s.opened.length :=
  (List.getElem?_eq_some_iff.mp h).1

lemma Inv.open (h : Inv s) {a : SocketAddr} (hmain : s.main = .locking a) :
    Inv { s with
      sessions := s.sessions.insert a
        { socket := s.opened.length, lastActive := s.now, listenerHandle := none }
      opened := s.opened ++ [a] } where
  session b v hv := by
    rcases Store.find_insert_cases hv with ⟨rfl, rfl⟩ | ⟨-, hv⟩
    · exact List.getElem?_concat_length
    · exact getElem?_snoc_of_some (h.session b v hv)
  listener i l hl := getElem?_snoc_of_some (h.listener i l hl)
  used way k b time ok hmem := getElem?_snoc_of_some (h.used way k b time ok hmem)
  unique := h.unique
  known b v i l hv hl hlive heq := by
    rcases Store.find_insert_cases hv with ⟨rfl, rfl⟩ | ⟨-, hv⟩
    · have hlt := lt_of_opened (h.listener i l hl)
      simp only at heq
      omega
    · exact h.known b v i l hv hl hlive heq
  sending b k need heq := by
    rw [hmain] at heq
    cases heq
  storing b i heq := by
    rw [hmain] at heq
    cases heq

lemma Inv.no_listener (h : Inv s) {a : SocketAddr} {v : Session} (hmain : s.main = .locking a)
    (hv : s.sessions.find a = some v) (hneed : s.needListener v = true) (i : ℕ) (l : Listener)
    (hl : s.listeners[i]? = some l) (hlive : l.Live) : l.socket ≠ v.socket := by
  intro heq
  rcases h.known a v i l hv hl hlive heq with hk | hk
  · rw [State.needListener, hk] at hneed
    simp only [hl, Option.all_some, decide_eq_true_eq] at hneed
    exact hlive hneed
  · rw [hmain] at hk
    rcases hk with hk | hk <;> cases hk

lemma fewer_main {m : Main} {timer : Option ℕ} (hmain : s.main.Between)
    (hsending : ∀ a k need, m ≠ .sending a k need) (hstoring : ∀ a i, m ≠ .storing a i) :
    Fewer s { s with main := m, timer := timer } :=
  ⟨rfl, fun _ v hv => ⟨v, hv, rfl, rfl⟩, .refl _, fun _ _ _ _ _ => .inl,
    .inr (.inr ⟨hmain, hsending, hstoring⟩)⟩

lemma fewer_release : Fewer s s.release :=
  ⟨rfl, fun _ v hv => ⟨v, find_release hv, rfl, rfl⟩, .refl _, fun _ _ _ _ _ => .inl, .inl rfl⟩

lemma inv_enter (h : Inv s) {a : SocketAddr} (hmain : s.main = .locking a) (opens : Bool) :
    Inv (s.enter a opens) := by
  have hbetween : s.main.Between := Main.between_of_eq hmain (by simp) (by simp)
  rw [State.enter]
  split
  · next v hv =>
    have hfewer : Fewer s
        { s with sessions := s.sessions.insert a { v with lastActive := s.now } } := by
      refine ⟨rfl, fun b v' hv' => ?_, .refl _, fun _ _ _ _ _ hmem => .inl hmem, .inl rfl⟩
      rcases Store.find_insert_cases hv' with ⟨rfl, rfl⟩ | ⟨-, hv'⟩
      · exact ⟨v, hv, rfl, rfl⟩
      · exact ⟨v', hv', rfl, rfl⟩
    refine ((h.fewer hfewer).heard a s.now).begin hbetween (h.session a v hv) (fun w hw => ?_) ?_
    · rw [Store.find_insert_self] at hw
      cases hw
      rfl
    · exact h.no_listener hmain hv
  · split
    · refine ((h.open hmain).heard a s.now).begin hbetween List.getElem?_concat_length
        (fun w hw => ?_) fun _ i l hl _ heq => ?_
      · rw [Store.find_insert_self] at hw
        cases hw
        rfl
      · have hlt := lt_of_opened (h.listener i l hl)
        omega
    · split
      · exact (h.fewer (fewer_main (m := .panicked) hbetween (by simp) (by simp))).fewer fewer_release
      · exact h.fewer (fewer_main hbetween (by simp) (by simp))

lemma inv_sent (h : Inv s) {a : SocketAddr} {k : ℕ} {need : Bool}
    (hmain : s.main = .sending a k need) (ok : Bool) : Inv (s.sent a k need ok) := by
  obtain ⟨howner, hsession, hneed⟩ := h.sending a k need hmain
  have hbetween : s.main.Between := Main.between_of_eq hmain (by simp) (by simp)
  have hused : ∀ way k' b time ok', Entry.forwarded way k' b time ok' ∈
      s.log ++ [.forwarded .out k a s.now ok] →
        Entry.forwarded way k' b time ok' ∈ s.log ∨ s.opened[k']? = some b := by
    intro way k' b time ok' hmem
    rcases List.mem_append.mp hmem with hold | hnew
    · exact .inl hold
    · cases List.mem_singleton.mp hnew
      exact .inr howner
  rw [State.sent]
  split
  · next hspawn =>
    have hnone := hneed hspawn.1
    exact {
      session := h.session
      listener := fun i l hl => by
        rcases getElem?_snoc hl with hl | ⟨-, rfl⟩
        · exact h.listener i l hl
        · exact howner
      used := fun way k' b time ok' hmem => by
        rcases hused way k' b time ok' hmem with hold | hnew
        · exact h.used way k' b time ok' hold
        · exact hnew
      unique := fun i j l l' hl hl' hlive hlive' heq => by
        rcases getElem?_snoc hl with hl | ⟨rfl, rfl⟩ <;> rcases getElem?_snoc hl' with hl' | ⟨rfl, rfl⟩
        · exact h.unique i j l l' hl hl' hlive hlive' heq
        · exact absurd heq (hnone i l hl hlive)
        · exact absurd heq.symm (hnone j l' hl' hlive')
        · rfl
      known := fun b v i l hv hl hlive heq => by
        rcases getElem?_snoc hl with hl | ⟨rfl, rfl⟩
        · rcases h.known b v i l hv hl hlive heq with hk | hk
          · exact .inl hk
          · exact hk.elim (fun hk => absurd hk (hbetween.1 b i)) fun hk => absurd hk hbetween.2
        · have hb := h.session b v hv
          rw [← heq, howner] at hb
          cases hb
          exact .inr (.inl rfl)
      sending := fun b k' need' heq => by cases heq
      storing := fun b i heq => by
        cases heq
        refine ⟨_, List.getElem?_concat_length, hsession, fun j l' hl' hlive heq => ?_⟩
        rcases getElem?_snoc hl' with hl' | ⟨rfl, -⟩
        · exact absurd heq (hnone j l' hl' hlive)
        · rfl }
  · exact h.fewer ⟨rfl, fun b v hv => ⟨v, hv, rfl, rfl⟩, .refl _, hused,
      .inr (.inr ⟨hbetween, by simp, by simp⟩)⟩

-- Only the loop makes sessions, so that the one it finds when it stores a handle is the one that it
-- sent for.
lemma inv_store (h : Inv s) {a : SocketAddr} {i : ℕ} (hmain : s.main = .storing a i) :
    Inv (s.store a i) := by
  obtain ⟨l, hl, hsession, honly⟩ := h.storing a i hmain
  exact {
    session := fun b v' hv' => by
      obtain ⟨v, hv, hsocket, -⟩ := find_store hv'
      rw [hsocket]
      exact h.session b v hv
    listener := h.listener
    used := h.used
    unique := h.unique
    known := fun b v' j m hv' hm hlive heq => by
      obtain ⟨v, hv, hsocket, -, hhandle⟩ := find_store hv'
      left
      rcases hhandle with ⟨rfl, hhandle⟩ | ⟨hb, hhandle⟩
      · rw [hhandle, honly j m hm hlive (by rw [heq, hsocket, hsession v hv])]
      · rw [hhandle]
        rcases h.known b v j m hv hm hlive (by rw [heq, hsocket]) with hk | hk
        · exact hk
        · rw [hmain] at hk
          rcases hk with hk | hk
          · cases hk
            exact absurd rfl hb
          · cases hk
    sending := fun b k need heq => by cases heq
    storing := fun b j heq => by cases heq }

lemma fewer_remove (entries : List (SocketAddr × Session)) : Fewer s (s.remove entries) := by
  refine ⟨rfl, fun a v hv => ?_, .abort _ _, fun _ _ _ _ _ hmem => .inl hmem, .inl rfl⟩
  exact ⟨v, find_remove hv, rfl, rfl⟩

lemma fewer_set {i : ℕ} {l l' : Listener} (h : s.listeners[i]? = some l)
    (hsocket : l'.socket = l.socket) (hsource : l'.source = l.source) (hlive : l'.Live → l.Live) :
    Fewer s (s.setListener i l') :=
  ⟨rfl, fun _ v hv => ⟨v, hv, rfl, rfl⟩, .set h hsocket hsource hlive,
    fun _ _ _ _ _ hmem => .inl hmem, .inl rfl⟩

lemma inv_step {ev : Event} (h : Inv s) (hs : Step s ev t) : Inv t := by
  have hreceiving : ∀ {m : Main}, s.main = .receiving → (∀ a k need, m ≠ .sending a k need) →
      (∀ a i, m ≠ .storing a i) → Inv { s with main := m } := by
    intro m hmain hsending hstoring
    exact h.fewer (fewer_main (Main.between_of_eq hmain (by simp) (by simp)) hsending hstoring)
  cases hs with
  | elapse n =>
    exact h.fewer ⟨rfl, fun _ v hv => ⟨v, hv, rfl, rfl⟩, .refl _, fun _ _ _ _ _ => .inl, .inl rfl⟩
  | receive source hmain => exact hreceiving hmain (by simp) (by simp)
  | receiveError hmain => exact h
  | enter opens hmain => exact inv_enter h hmain opens
  | sent ok hmain => exact inv_sent h hmain ok
  | store hmain => exact inv_store h hmain
  | stop hmain => exact hreceiving hmain (by simp) (by simp)
  | @drain order hmain horder =>
    have hbetween : (s.remove order).main.Between :=
      Main.between_of_eq hmain (by simp) (by simp)
    exact (h.fewer (fewer_remove order)).fewer (fewer_main hbetween (by simp) (by simp))
  | reply hl hphase =>
    refine h.fewer (fewer_set hl rfl rfl fun _ => ?_)
    rw [Listener.Live, hphase]
    simp
  | @replied i l ok hl hphase =>
    have hset : Inv (s.setListener i { l with phase := .receiving }) := by
      refine h.fewer (fewer_set hl rfl rfl fun _ => ?_)
      rw [Listener.Live, hphase]
      simp
    refine hset.logged fun way k a time ok' hmem => ?_
    rcases List.mem_append.mp hmem with hold | hnew
    · exact .inl hold
    · cases List.mem_singleton.mp hnew
      exact .inr (h.listener i l hl)
  | replyError hl hphase => exact h.fewer (fewer_set hl rfl rfl fun hno => absurd rfl hno)
  | cancelled hl haborting hlive => exact h.fewer (fewer_set hl rfl rfl fun _ => hlive)
  | @evict order tick htimer hdue horder =>
    refine (h.fewer (fewer_remove _)).logged fun way k a time ok hmem => .inl ?_
    have hlog : Entry.forwarded way k a time ok ∈ s.log := by simpa using hmem
    exact hlog
  | stopTimer =>
    have hlogged : Inv { s with timer := none } := h.logged fun _ _ _ _ _ => .inl
    exact hlogged.fewer fewer_release
  | abort hmain =>
    have haborted : Inv { s with main := .aborted } :=
      h.fewer ⟨rfl, fun _ v hv => ⟨v, hv, rfl, rfl⟩, .refl _, fun _ _ _ _ _ => .inl, .inr (.inl rfl)⟩
    exact haborted.fewer fewer_release

lemma inv_start (side : Side) (now : ℕ) : Inv (.start side now) where
  session a v hv := by cases hv
  listener i l hl := by cases hl
  used way k a time ok hmem := by cases hmem
  unique i j l l' hl := by cases hl
  known a v i l hv := by cases hv
  sending a k need hmain := by cases hmain
  storing a i hmain := by cases hmain

end Steps

def Fresh (s : State) (k : ℕ) : Prop :=
  (∀ a v, s.sessions.find a = some v → v.socket ≠ k) ∧ (∀ l ∈ s.listeners, l.socket ≠ k) ∧
    (∀ a j need, s.main = .sending a j need → j ≠ k) ∧
    ∀ way a time ok, .forwarded way k a time ok ∉ s.log

lemma Inv.fresh {s : State} (h : Inv s) : Fresh s s.opened.length := by
  refine ⟨fun a v hv => (lt_of_opened (h.session a v hv)).ne, fun l hl => ?_,
    fun a j need hmain => (lt_of_opened (h.sending a j need hmain).1).ne,
    fun way a time ok hmem => ?_⟩
  · obtain ⟨i, hi, rfl⟩ := List.mem_iff_getElem.mp hl
    exact (lt_of_opened (h.listener i _ (List.getElem?_eq_getElem hi))).ne
  · exact absurd (lt_of_opened (h.used way _ a time ok hmem)) (lt_irrefl _)

lemma socket_of_new {s t : State} {ev : Event} (hs : Step s ev t) {a : SocketAddr} {v : Session}
    (hnone : s.sessions.find a = none) (hv : t.sessions.find a = some v) :
    v.socket = s.opened.length := by
  have hno : ∀ {w : Session}, s.sessions.find a = some w → v.socket = s.opened.length := by
    intro w hw
    rw [hnone] at hw
    cases hw
  cases hs with
  | enter opens hmain =>
    rcases find_enter hv with ⟨w, hw, -⟩ | ⟨-, -, hsocket, -⟩
    · exact hno hw
    · exact hsocket
  | @sent source socket need ok hmain =>
    rw [State.sent] at hv
    split at hv <;> exact hno hv
  | store hmain =>
    obtain ⟨w, hw, -⟩ := find_store hv
    exact hno hw
  | drain hmain horder => exact hno (find_remove hv)
  | evict htimer hdue horder => exact hno (find_remove hv)
  | stopTimer => exact hno (find_release hv)
  | abort hmain => exact hno (find_release hv)
  | _ => exact hno hv

/-- Whatever comes in, whatever fails and whenever sessions go: a socket serves the source that it
was opened for and no other, one listener reads it, and a session made anew gets a new one. -/
theorem sources_kept_apart {side : Side} {now : ℕ} {events : List Event} {s : State}
    (hr : Run Step (.start side now) events s) :
    (∀ a v, s.sessions.find a = some v → s.opened[v.socket]? = some a) ∧
      (∀ way k a time ok, .forwarded way k a time ok ∈ s.log → s.opened[k]? = some a) ∧
      (∀ a k need, s.main = .sending a k need → s.opened[k]? = some a) ∧
      (∀ l ∈ s.listeners, s.opened[l.socket]? = some l.source) ∧
      (∀ (i j : ℕ) (l l' : Listener), s.listeners[i]? = some l → s.listeners[j]? = some l' →
        l.Live → l'.Live → l.socket = l'.socket → i = j) ∧
      ∀ ev t, Step s ev t → ∀ a v, s.sessions.find a = none → t.sessions.find a = some v →
        Fresh s v.socket ∧ t.opened[v.socket]? = some a := by
  have hinv : Inv s := hr.invariant (inv_start side now) fun _ _ _ h hs => inv_step h hs
  refine ⟨hinv.session, hinv.used, fun a k need hmain => (hinv.sending a k need hmain).1,
    fun l hl => ?_, hinv.unique, fun ev t hs a v hnone hv => ?_⟩
  · obtain ⟨i, hi, rfl⟩ := List.mem_iff_getElem.mp hl
    exact hinv.listener i _ (List.getElem?_eq_getElem hi)
  · refine ⟨?_, (inv_step hinv hs).session a v hv⟩
    rw [socket_of_new hs hnone hv]
    exact hinv.fresh

def firstSource : SocketAddr := ⟨localhost, 1000⟩

def secondSource : SocketAddr := ⟨localhost, 2000⟩

def exchanges : List Event :=
  [.receive firstSource, .enter true, .sent true, .store, .receive secondSource, .enter true,
    .sent true, .store, .reply 1, .replied 1 true, .reply 0, .replied 0 true]

lemma exists_exchanges : ∃ s, Run Step (.start .localUdp 0) exchanges s ∧
    s.log = [.heard firstSource 0, .forwarded .out 0 firstSource 0 true, .heard secondSource 0,
      .forwarded .out 1 secondSource 0 true, .forwarded .back 1 secondSource 0 true,
      .forwarded .back 0 firstSource 0 true] := by
  refine ⟨_, .cons (.receive firstSource rfl) (.cons (.enter true rfl) (.cons (.sent true rfl)
    (.cons (.store rfl) (.cons (.receive secondSource rfl) (.cons (.enter true rfl)
    (.cons (.sent true rfl) (.cons (.store rfl) (.cons (.reply rfl rfl)
    (.cons (.replied true rfl rfl) (.cons (.reply rfl rfl) (.single (.replied true rfl rfl))))))))))))
    , rfl⟩

theorem two_sources_kept_apart :
    ∃ s, Run Step (.start .localUdp 0) exchanges s ∧
      Entry.forwarded .back 0 firstSource 0 true ∈ s.log ∧
      Entry.forwarded .back 1 secondSource 0 true ∈ s.log ∧
      ∀ way k a time ok, .forwarded way k a time ok ∈ s.log → s.opened[k]? = some a := by
  obtain ⟨s, hr, hlog⟩ := exists_exchanges
  exact ⟨s, hr, by simp [hlog], by simp [hlog], (sources_kept_apart hr).2.1⟩

end Yggstack.Forward.Udp
