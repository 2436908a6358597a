import Yggstack.Netstack.Ownership

namespace Yggstack.Netstack

open Library

def TcpListenerEntry.port (entry : TcpListenerEntry) : UInt16 := entry.listenEp.port

lemma acceptFrom_listenEps (port : UInt16) (k : Waker) (entries : List TcpListenerEntry) :
    (NetstackState.acceptFrom port k entries).2.map TcpListenerEntry.listenEp =
      entries.map TcpListenerEntry.listenEp := by
  induction entries with
  | nil => rfl
  | cons entry entries ih =>
    rw [NetstackState.acceptFrom]
    split
    · split <;> rfl
    · rw [List.map_cons, List.map_cons, ih]

lemma acceptFrom_ready {entries : List TcpListenerEntry} {entry : TcpListenerEntry} (k : Waker)
    (hn : (entries.map TcpListenerEntry.port).Nodup) (hm : entry ∈ entries)
    (hq : entry.acceptQueue ≠ []) :
    ∃ h ∈ entry.acceptQueue, (NetstackState.acceptFrom entry.port k entries).1 = .ready h := by
  induction entries with
  | nil => cases hm
  | cons first entries ih =>
    simp only [List.map_cons, List.nodup_cons] at hn
    rw [NetstackState.acceptFrom]
    rcases List.mem_cons.mp hm with rfl | hm
    · obtain ⟨h, queue, hh⟩ := List.exists_cons_of_ne_nil hq
      rw [if_pos (show entry.listenEp.port = entry.port from rfl), hh]
      exact ⟨h, by simp, rfl⟩
    · have hne : first.listenEp.port ≠ entry.port := by
        intro he
        apply hn.1
        rw [TcpListenerEntry.port, he]
        exact List.mem_map_of_mem hm
      rw [if_neg hne]
      exact ih hn.2 hm

def Action.dropped? : Action → Option UInt16
  | .dropListener port => some port
  | _ => none

namespace World

variable {w w' : World} {a : Action}

def FreshListen (w : World) (a : Action) : Prop :=
  ∀ port supply, a = .listenTcp port supply → port ∉ w.net.listeners.map TcpListenerEntry.port

lemma listeners_moved (hm : Moved w a w') (ha : a ≠ .shutdown) :
    (a.dropped? = none ∧ w'.tcpListeners = w.tcpListeners ∧
      w'.net.listeners.map TcpListenerEntry.listenEp =
        w.net.listeners.map TcpListenerEntry.listenEp) ∨
    (∃ port supply, a = .listenTcp port supply ∧ w'.tcpListeners = w.tcpListeners ++ [port] ∧
      w'.net.listeners.map TcpListenerEntry.listenEp =
        w.net.listeners.map TcpListenerEntry.listenEp ++
          [NetstackState.ourEndpoint w.ourAddr port]) ∨
    ∃ port, a = .dropListener port ∧ w'.tcpListeners = w.tcpListeners.erase port ∧
      w'.net.listeners = w.net.listeners := by
  cases hm with
  | @accepted n h port listeners he =>
    have hp := acceptFrom_listenEps port (.task n) w.net.listeners
    rw [he] at hp
    exact Or.inl ⟨rfl, rfl, hp⟩
  | @acceptParked n port listeners he =>
    have hp := acceptFrom_listenEps port (.task n) w.net.listeners
    rw [he] at hp
    exact Or.inl ⟨rfl, rfl, hp⟩
  | @listened port supply handles hp hn hfresh =>
    exact Or.inr (Or.inl ⟨port, supply, rfl, rfl, by simp [newEntry]⟩)
  | listenerDropped => exact Or.inr (Or.inr ⟨_, rfl, rfl, rfl⟩)
  | bound hb hp hf =>
    refine Or.inl ⟨?_, rfl, rfl⟩
    cases a <;> first | rfl | cases hb
  | pollerCycled hc => exact Or.inl ⟨rfl, rfl, hc.service.listenEps⟩
  | shutdown => exact absurd rfl ha
  | _ => exact Or.inl ⟨rfl, rfl, rfl⟩

lemma listenEps_moved (hm : Moved w a w') :
    w'.net.listeners.map TcpListenerEntry.listenEp = w.net.listeners.map TcpListenerEntry.listenEp ∨
      (∃ port supply, a = .listenTcp port supply ∧ w'.net.listeners.map TcpListenerEntry.listenEp =
        w.net.listeners.map TcpListenerEntry.listenEp ++
          [NetstackState.ourEndpoint w.ourAddr port]) ∨
      w'.net.listeners = [] := by
  by_cases ha : a = .shutdown
  · subst ha
    cases hm with
    | shutdown => exact Or.inr (Or.inr rfl)
    | bound hb _ _ => cases hb
  · rcases listeners_moved hm ha with ⟨-, -, he⟩ | ⟨port, supply, rfl, -, he⟩ | ⟨port, -, -, he⟩
    · exact Or.inl he
    · exact Or.inr (Or.inl ⟨port, supply, rfl, he⟩)
    · exact Or.inl (by rw [he])

lemma ports_eq (entries : List TcpListenerEntry) :
    entries.map TcpListenerEntry.port = (entries.map TcpListenerEntry.listenEp).map
      IpListenEndpoint.port := by
  rw [List.map_map]
  rfl

lemma ports_nodup_moved (hm : Moved w a w') (hf : w.FreshListen a)
    (hn : (w.net.listeners.map TcpListenerEntry.port).Nodup) :
    (w'.net.listeners.map TcpListenerEntry.port).Nodup := by
  rcases listenEps_moved hm with he | ⟨port, supply, ha, he⟩ | he
  · rwa [ports_eq, he, ← ports_eq]
  · have hport := hf port supply ha
    rw [ports_eq, he, List.map_append, ← ports_eq]
    refine List.nodup_append.mpr ⟨hn, by simp, ?_⟩
    rintro p hp q hq rfl
    obtain rfl : p = port := by simpa [NetstackState.ourEndpoint] using hq
    exact hport hp
  · simp [he]

theorem accept_serves_every_queue {ourAddr : BitVec 128} {ckr : Bool}
    {source : IpAddress → Option IpAddress}
    {actions : List Action} {entry : TcpListenerEntry}
    (hr : Run (fun w a w' => Step w a w' ∧ w.FreshListen a) (initial ourAddr ckr source) actions w)
    (he : entry ∈ w.net.listeners) (hq : entry.acceptQueue ≠ []) (hl : entry.port ∈ w.tcpListeners)
    (n : ℕ) :
    ∃ h ∈ entry.acceptQueue, ∃ w', w.poll n (.accept entry.port) =
      .ok (.ready (.stream (.ok h)), w') := by
  have hinv : Inv w ∧ (w.net.listeners.map TcpListenerEntry.port).Nodup := by
    apply hr.invariant (I := fun w => Inv w ∧ (w.net.listeners.map TcpListenerEntry.port).Nodup)
    · exact ⟨inv_initial ourAddr ckr source, by simp [initial]⟩
    rintro v a v' ⟨hi, hn⟩ ⟨hs, hf⟩
    exact ⟨inv_step v a v' hi hs, ports_nodup_moved (moved_of_step hi hs) hf hn⟩
  obtain ⟨h, hh, ha⟩ := acceptFrom_ready (.task n) hinv.2 he hq
  obtain ⟨w', hw⟩ := poll_accept n hl
  rw [ha] at hw
  exact ⟨h, hh, w', hw⟩

def arrives (h : ℕ) (state : TcpState) (rx : List UInt8) : PollEffect where
  tcp j t := if j = h then { t with state, rx } else t
  udp _ u := u
  icmp _ i := i

def cycleAt (h : ℕ) (state : TcpState) (rx : List UInt8) (now : ℤ) (supply : List ℕ) : CycleInput :=
  { effect := arrives h state rx, serviceNow := now, reapNow := now, supply }

theorem lone_listener_serves :
    ∃ w, Run (fun w a w' => Step w a w' ∧ w.FreshListen a) (initial 1 false fun _ => none)
        [.listenTcp 80 [0, 1, 2, 3, 4, 5, 6, 7], .pollerCheck,
          .pollerCycle (cycleAt 0 .established [] 0 [8])] w ∧
      ∃ entry ∈ w.net.listeners, entry.acceptQueue = [0] ∧
        ∃ h ∈ entry.acceptQueue, ∃ w', w.poll 0 (.accept entry.port) =
          .ok (.ready (.stream (.ok h)), w') := by
  have hlisten :
      (initial 1 false fun _ => none).FreshListen (.listenTcp 80 [0, 1, 2, 3, 4, 5, 6, 7]) := by
    rintro port supply - (hm : port ∈ [])
    cases hm
  have hr : Run (fun w a w' => Step w a w' ∧ w.FreshListen a) (initial 1 false fun _ => none)
      [.listenTcp 80 [0, 1, 2, 3, 4, 5, 6, 7], .pollerCheck,
        .pollerCycle (cycleAt 0 .established [] 0 [8])] _ :=
    .cons ⟨rfl, hlisten⟩
      (.cons ⟨rfl, fun _ _ h => by cases h⟩ (.single ⟨rfl, fun _ _ h => by cases h⟩))
  refine ⟨_, hr, _, List.mem_cons_self, rfl, ?_⟩
  exact accept_serves_every_queue hr List.mem_cons_self (by decide) (by decide) 0

theorem second_listener_starves :
    ¬∀ w, Reachable w → w.net.closed = false → ∀ entry ∈ w.net.listeners,
    entry.acceptQueue ≠ [] → entry.port ∈ w.tcpListeners →
      ∀ n, ∃ h w', w.poll n (.accept entry.port) = .ok (.ready (.stream (.ok h)), w') := by
  intro hall
  have hr := Reachable.of_runAll 1 false (fun _ => none) [.listenTcp 80 [0, 1, 2, 3, 4, 5, 6, 7],
    .listenTcp 80 [8, 9, 10, 11, 12, 13, 14, 15], .pollerCheck,
    .pollerCycle (cycleAt 8 .established [] 0 [16])] rfl
  obtain ⟨h, w', he⟩ :=
    hall _ hr rfl _ (List.mem_cons_of_mem _ List.mem_cons_self) (by decide) (by decide) 0
  cases he

end World

end Yggstack.Netstack
