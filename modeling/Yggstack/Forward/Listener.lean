import Yggstack.Forward.Mapping
import Yggstack.Library.Broadcast

namespace Yggstack.Forward

open Library

inductive Phase where
  | spawned
  | bound
  | serving (stop : Receiver)
  | draining
  | exited
  | aborted

inductive Timer where
  | absent
  | spawned
  | waiting (stop : Receiver)
  | exited

-- `stats` is the counters' entry that the task got when it was spawned; its connections count
-- there. Aborting a task ends it at its next wait.
structure Task where
  node : ℕ
  kind : Kind
  mapping : Mapping
  stats : ℕ
  stop : Broadcast
  phase : Phase
  timer : Timer
  aborting : Bool

namespace Task

variable (t : Task)

def key : String := t.kind.key t.mapping

def Finished : Prop := t.phase = .exited ∨ t.phase = .aborted

-- Our own address is refused only for port zero; a bind on the host can go either way.
def MayBind : Prop := t.kind.isRemote = true → t.mapping.listen.port ≠ 0

def MayFail : Prop := t.kind.isRemote = true → t.mapping.listen.port = 0

def afterStop : Phase := if t.kind.isUdp then .draining else .exited

def Waits : Prop :=
  t.phase = .spawned ∨ (∃ stop, t.phase = .serving stop) ∨ t.phase = .draining

end Task

inductive TaskAction where
  | bound
  | bindFailed
  | spawnTimer
  | subscribe
  | accept
  | stopped
  | drained
  | cancelled
  | timerSubscribe
  | timerStopped
  deriving DecidableEq

inductive Task.Step : Task → TaskAction → Task → Prop
  | bound {t : Task} : t.phase = .spawned → t.MayBind →
      Task.Step t .bound { t with phase := .bound }
  | bindFailed {t : Task} : t.phase = .spawned → t.MayFail →
      Task.Step t .bindFailed { t with phase := .exited }
  | spawnTimer {t : Task} : t.phase = .bound → t.kind.isUdp = true → t.timer = .absent →
      Task.Step t .spawnTimer { t with timer := .spawned }
  | subscribe {t : Task} : t.phase = .bound → (t.kind.isUdp = true → t.timer ≠ .absent) →
      Task.Step t .subscribe { t with phase := .serving t.stop.subscribe }
  | accept {t : Task} {stop : Receiver} : t.phase = .serving stop → Task.Step t .accept t
  | stopped {t : Task} {stop : Receiver} : t.phase = .serving stop → stop.Pending t.stop →
      Task.Step t .stopped { t with phase := t.afterStop }
  | drained {t : Task} : t.phase = .draining → Task.Step t .drained { t with phase := .exited }
  | cancelled {t : Task} : t.aborting = true → t.Waits →
      Task.Step t .cancelled { t with phase := .aborted }
  | timerSubscribe {t : Task} : t.timer = .spawned →
      Task.Step t .timerSubscribe { t with timer := .waiting t.stop.subscribe }
  | timerStopped {t : Task} {stop : Receiver} : t.timer = .waiting stop → stop.Pending t.stop →
      Task.Step t .timerStopped { t with timer := .exited }

def TaskAction.unregisters : TaskAction → Bool
  | .bindFailed | .stopped => true
  | _ => false

end Yggstack.Forward
