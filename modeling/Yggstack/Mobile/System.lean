import Yggstack.Forward.Listener
import Yggstack.Library.Runs
import Yggstack.Library.Store
import Yggstack.Library.Tables

/-! The mobile node: its calls, which may overlap, and the listener tasks they start and stop. A
step of a call is what it does under one hold of a lock; `listeners` stays locked over several steps
while `start` spawns and while `stop_listener` waits. -/

namespace Yggstack.Mobile

open Library Forward

inductive YggstackError where
  | config (message : String)
  | alreadyRunning (message : String)

structure Config where
  signingKey : Except String (List UInt8)

inductive Request where
  | loadConfig (parsed : Except String Config)
  | start
  | stop
  | add (kind : Kind) (spec : String)
  | remove (kind : Kind) (spec : String)
  | clearMappings

def Request.joins : Request → Bool
  | .clearMappings => false
  | _ => true

inductive Stage where
  | peerEvents
  | multicast
  | core
  | signal
  | socks
  | http
  | netstack

def Stage.next : Stage → Option Stage
  | .peerEvents => some .multicast
  | .multicast => some .core
  | .core => some .signal
  | .signal => some .socks
  | .socks => some .http
  | .http => some .netstack
  | .netstack => none

inductive Pc where
  | entered
  | configuring
  | copying (kinds : List Kind) (jobs : List (Kind × Mapping))
  | spawning (node : ℕ) (jobs : List (Kind × Mapping))
  | built (node : ℕ)
  | tearing (node : ℕ) (stage : Stage)
  | adding (m : Mapping)
  | removing (key : String)
  | clearing (kinds : List Kind)
  | draining
  | signalling (todo handles : List ℕ)
  | done (result : Except YggstackError Unit)

structure Call where
  request : Request
  pc : Pc

inductive NodeStatus where
  | starting
  | running
  | closing (stage : Stage)
  | closed
  | replaced

inductive Event where
  | started
  | taken
  deriving DecidableEq

-- Nodes, tasks, stats entries and calls are named by numbers in the order they were made.
-- `listeners` has the task of each running listener.
structure World where
  cfg : Option Config
  mappings : Kind → List Mapping
  state : Option ℕ
  nodes : List NodeStatus
  listeners : Store String ℕ
  lock : Option ℕ
  tasks : List Task
  stats : Store (ℕ × String) ℕ
  entries : ℕ
  conns : List (ℕ × ℕ)
  calls : List Call
  log : List Event

inductive Section where
  | loadConfig
  | startCheck
  | startConfig
  | startCopy (kind : Kind)
  | startBuild
  | startSpawn
  | startBuilt
  | startPublish
  | stopTake
  | stopTeardown
  | addPush
  | addLook
  | removeRetain
  | removeTake
  | clearList (kind : Kind)
  | drain
  | signal
  | abort
  | join
  | signalled
  deriving DecidableEq

inductive Action where
  | begin (request : Request)
  | call (c : ℕ) (s : Section)
  | task (i : ℕ) (a : TaskAction)

def allKinds : List Kind := [.localTcp, .localUdp, .remoteTcp, .remoteUdp]

def Request.entry : Request → Pc
  | .clearMappings => .clearing allKinds
  | _ => .entered

namespace World

variable (w : World)

def goto (c : ℕ) (pc : Pc) : World :=
  { w with calls := w.calls.modify c fun call => { call with pc } }

def finish (c : ℕ) (result : Except YggstackError Unit) : World := w.goto c (.done result)

def setMappings (kind : Kind) (ms : List Mapping) : World :=
  { w with mappings := Function.update w.mappings kind ms }

def register (node : ℕ) (key : String) : ℕ × World :=
  match w.stats.find (node, key) with
  | some e => (e, w)
  | none =>
    (w.entries,
      { w with stats := w.stats.insert (node, key) w.entries, entries := w.entries + 1 })

def newTask (node : ℕ) (kind : Kind) (m : Mapping) (stats : ℕ) : Task := {
  node, kind, mapping := m, stats, stop := .new, phase := .spawned, timer := .absent
  aborting := false }

-- A listener that was recorded under the key before is forgotten; its task goes on.
def spawnListener (node : ℕ) (kind : Kind) (m : Mapping) : World :=
  let (stats, w) := w.register node (kind.key m)
  { w with
    tasks := w.tasks ++ [newTask node kind m stats]
    listeners := w.listeners.insert (kind.key m) w.tasks.length }

def setTask (i : ℕ) (t : Task) : World := { w with tasks := w.tasks.set i t }

def send (i : ℕ) : World :=
  { w with tasks := w.tasks.modify i fun t => { t with stop := t.stop.send } }

def abort (i : ℕ) : World :=
  { w with tasks := w.tasks.modify i fun t => { t with aborting := true } }

def loadConfig (c : ℕ) : Except String Config → World
  | .ok cfg => { w with cfg := some cfg }.finish c (.ok ())
  | .error e => w.finish c (.error (.config e))

def startCheck (c : ℕ) : World :=
  match w.state with
  | some _ => w.finish c (.error (.alreadyRunning "already running"))
  | none => w.goto c .configuring

def startConfig (c : ℕ) : World :=
  match w.cfg with
  | none => w.finish c (.error (.config "no config loaded"))
  | some cfg =>
    match cfg.signingKey with
    | .error e => w.finish c (.error (.config e))
    | .ok _ => w.goto c (.copying allKinds [])

def publish (node : ℕ) : World :=
  let nodes := match w.state with
    | some old => w.nodes.set old .replaced
    | none => w.nodes
  { w with state := some node, nodes := nodes.set node .running, log := w.log ++ [.started] }

def stopTake (c : ℕ) : World :=
  match w.state with
  | some node =>
    { w with
      state := none
      nodes := w.nodes.set node (.closing .peerEvents)
      log := w.log ++ [Event.taken] }.goto c (.tearing node .peerEvents)
  | none => w.goto c .draining

def stopTeardown (c node : ℕ) (stage : Stage) : World :=
  match stage.next with
  | some next =>
    { w with nodes := w.nodes.set node (.closing next) }.goto c (.tearing node next)
  | none => { w with nodes := w.nodes.set node .closed }.goto c .draining

def addPush (c : ℕ) (kind : Kind) (spec : String) : World :=
  match kind.parse spec with
  | .error e => w.finish c (.error (.config e))
  | .ok m => (w.setMappings kind (w.mappings kind ++ [m])).goto c (.adding m)

def addLook (c : ℕ) (kind : Kind) (m : Mapping) : World :=
  match w.state with
  | some node => (w.spawnListener node kind m).finish c (.ok ())
  | none => w.finish c (.ok ())

def removeRetain (c : ℕ) (kind : Kind) (spec : String) : World :=
  match kind.parse spec with
  | .error e => w.finish c (.error (.config e))
  | .ok m =>
    (w.setMappings kind ((w.mappings kind).filter fun x => kind.key x ≠ kind.key m)).goto c
      (.removing (kind.key m))

def removeTake (c : ℕ) (key : String) : World :=
  match w.listeners.find key with
  | some i =>
    { w with listeners := w.listeners.erase key, lock := some c }.goto c (.signalling [i] [])
  | none => w.finish c (.ok ())

def clearList (c : ℕ) (kind : Kind) (kinds : List Kind) : World :=
  (w.setMappings kind []).goto c (if kinds = [] then .draining else .clearing kinds)

def afterTask (i : ℕ) (t : Task) (a : TaskAction) (t' : Task) : World :=
  { w.setTask i t' with
    stats := if a.unregisters then w.stats.erase (t.node, t.key) else w.stats
    conns := if a = .accept then w.conns ++ [(i, t.stats)] else w.conns }

inductive Step : World → Action → World → Prop
  | begin (w : World) (request : Request) :
      Step w (.begin request) { w with calls := w.calls ++ [⟨request, request.entry⟩] }
  | loadConfig {w : World} {c : ℕ} {parsed : Except String Config} :
      w.calls[c]? = some ⟨.loadConfig parsed, .entered⟩ →
      Step w (.call c .loadConfig) (w.loadConfig c parsed)
  | startCheck {w : World} {c : ℕ} :
      w.calls[c]? = some ⟨.start, .entered⟩ → Step w (.call c .startCheck) (w.startCheck c)
  | startConfig {w : World} {c : ℕ} :
      w.calls[c]? = some ⟨.start, .configuring⟩ → Step w (.call c .startConfig) (w.startConfig c)
  | startCopy {w : World} {c : ℕ} {kind : Kind} {kinds : List Kind}
      {jobs : List (Kind × Mapping)} :
      w.calls[c]? = some ⟨.start, .copying (kind :: kinds) jobs⟩ →
      Step w (.call c (.startCopy kind))
        (w.goto c (.copying kinds (jobs ++ (w.mappings kind).map fun m => (kind, m))))
  | startBuild {w : World} {c : ℕ} {jobs : List (Kind × Mapping)} :
      w.calls[c]? = some ⟨.start, .copying [] jobs⟩ → w.lock = none →
      Step w (.call c .startBuild)
        ({ w with nodes := w.nodes ++ [NodeStatus.starting], lock := some c }.goto c
          (.spawning w.nodes.length jobs))
  | startSpawn {w : World} {c node : ℕ} {kind : Kind} {m : Mapping}
      {jobs : List (Kind × Mapping)} :
      w.calls[c]? = some ⟨.start, .spawning node ((kind, m) :: jobs)⟩ →
      Step w (.call c .startSpawn) ((w.spawnListener node kind m).goto c (.spawning node jobs))
  | startBuilt {w : World} {c node : ℕ} :
      w.calls[c]? = some ⟨.start, .spawning node []⟩ →
      Step w (.call c .startBuilt) ({ w with lock := none }.goto c (.built node))
  | startPublish {w : World} {c node : ℕ} :
      w.calls[c]? = some ⟨.start, .built node⟩ →
      Step w (.call c .startPublish) ((w.publish node).finish c (.ok ()))
  | stopTake {w : World} {c : ℕ} :
      w.calls[c]? = some ⟨.stop, .entered⟩ → Step w (.call c .stopTake) (w.stopTake c)
  | stopTeardown {w : World} {c node : ℕ} {stage : Stage} :
      w.calls[c]? = some ⟨.stop, .tearing node stage⟩ →
      Step w (.call c .stopTeardown) (w.stopTeardown c node stage)
  | addPush {w : World} {c : ℕ} {kind : Kind} {spec : String} :
      w.calls[c]? = some ⟨.add kind spec, .entered⟩ →
      Step w (.call c .addPush) (w.addPush c kind spec)
  | addLook {w : World} {c : ℕ} {kind : Kind} {spec : String} {m : Mapping} :
      w.calls[c]? = some ⟨.add kind spec, .adding m⟩ → (w.state = none ∨ w.lock = none) →
      Step w (.call c .addLook) (w.addLook c kind m)
  | removeRetain {w : World} {c : ℕ} {kind : Kind} {spec : String} :
      w.calls[c]? = some ⟨.remove kind spec, .entered⟩ →
      Step w (.call c .removeRetain) (w.removeRetain c kind spec)
  | removeTake {w : World} {c : ℕ} {kind : Kind} {spec key : String} :
      w.calls[c]? = some ⟨.remove kind spec, .removing key⟩ → w.lock = none →
      Step w (.call c .removeTake) (w.removeTake c key)
  | clearList {w : World} {c : ℕ} {kind : Kind} {kinds : List Kind} :
      w.calls[c]? = some ⟨.clearMappings, .clearing (kind :: kinds)⟩ →
      Step w (.call c (.clearList kind)) (w.clearList c kind kinds)
  | drain {w : World} {c : ℕ} {request : Request} {order : List (String × ℕ)} :
      w.calls[c]? = some ⟨request, .draining⟩ → w.lock = none → w.listeners.Enumerates order →
      Step w (.call c .drain)
        ({ w with listeners := .empty }.goto c (.signalling (order.map Prod.snd) []))
  | signal {w : World} {c i : ℕ} {request : Request} {todo handles : List ℕ} :
      w.calls[c]? = some ⟨request, .signalling (i :: todo) handles⟩ →
      Step w (.call c .signal)
        ((w.send i).goto c (.signalling todo (if request.joins then handles ++ [i] else handles)))
  | abort {w : World} {c i : ℕ} {request : Request} {handles : List ℕ} :
      w.calls[c]? = some ⟨request, .signalling [] (i :: handles)⟩ →
      Step w (.call c .abort) (w.abort i)
  | join {w : World} {c i : ℕ} {request : Request} {handles : List ℕ} {t : Task} :
      w.calls[c]? = some ⟨request, .signalling [] (i :: handles)⟩ → w.tasks[i]? = some t →
      t.Finished → Step w (.call c .join) (w.goto c (.signalling [] handles))
  | signalled {w : World} {c : ℕ} {request : Request} :
      w.calls[c]? = some ⟨request, .signalling [] []⟩ →
      Step w (.call c .signalled)
        ({ w with lock := if w.lock = some c then none else w.lock }.finish c (.ok ()))
  | task {w : World} {i : ℕ} {t t' : Task} {a : TaskAction} :
      w.tasks[i]? = some t → Task.Step t a t' → Step w (.task i a) (w.afterTask i t a t')

def initial : World where
  cfg := none
  mappings _ := []
  state := none
  nodes := []
  listeners := .empty
  lock := none
  tasks := []
  stats := .empty
  entries := 0
  conns := []
  calls := []
  log := []

def Reachable (w : World) : Prop := ∃ actions, Run Step initial actions w

lemma spawnListener_eq (node : ℕ) (kind : Kind) (m : Mapping) : ∃ e stats entries,
    w.spawnListener node kind m =
      { w with
        stats, entries
        tasks := w.tasks ++ [newTask node kind m e]
        listeners := w.listeners.insert (kind.key m) w.tasks.length } := by
  cases he : w.stats.find (node, kind.key m) with
  | none =>
    simp only [spawnListener, register, he]
    exact ⟨_, _, _, rfl⟩
  | some e =>
    simp only [spawnListener, register, he]
    exact ⟨_, _, _, rfl⟩

def started : World where
  cfg := some ⟨.ok []⟩
  mappings _ := []
  state := some 0
  nodes := [.running]
  listeners := .empty
  lock := none
  tasks := []
  stats := .empty
  entries := 0
  conns := []
  calls := [⟨.loadConfig (.ok ⟨.ok []⟩), .done (.ok ())⟩, ⟨.start, .done (.ok ())⟩]
  log := [.started]

lemma started_run : Run Step initial
    [.begin (.loadConfig (.ok ⟨.ok []⟩)), .call 0 .loadConfig, .begin .start,
      .call 1 .startCheck, .call 1 .startConfig, .call 1 (.startCopy .localTcp),
      .call 1 (.startCopy .localUdp), .call 1 (.startCopy .remoteTcp),
      .call 1 (.startCopy .remoteUdp), .call 1 .startBuild, .call 1 .startBuilt,
      .call 1 .startPublish] started :=
  .cons (.begin _ _) <| .cons (.loadConfig rfl) <| .cons (.begin _ _) <|
  .cons (.startCheck rfl) <| .cons (.startConfig rfl) <| .cons (.startCopy rfl) <|
  .cons (.startCopy rfl) <| .cons (.startCopy rfl) <| .cons (.startCopy rfl) <|
  .cons (.startBuild rfl rfl) <| .cons (.startBuilt rfl) <| .cons (.startPublish rfl) <| .nil _

end World

end Yggstack.Mobile
