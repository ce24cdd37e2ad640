import OrbitRelay.Permits
import OrbitRelay.ServerLifecycle
import OrbitRelay.Transition

/-!
# The listeners and the application around them

`ConnectionSupervisor` and the task set of `AssetHttpListener`, their accept loops, and
the methods of `ServerApplication` that run and stop them. Connection tasks go on while
the application is at any await of its own, and a method's future may be dropped there;
only `start` is taken to be awaited to its end.
-/
namespace OrbitRelay.Server

open Fallible Transition

/-- The task of one connection. Only an Asset connection downloads. It stays in the
`JoinSet` until its end has been noticed. -/
inductive Connection where
  | accepted
  | downloading
  | answered
  | ended
  deriving DecidableEq, Repr

/-- The task has not ended, and owns its connection permit. -/
def Connection.live : Connection → Bool
  | .ended => false
  | _ => true

/-- The task owns a download permit. -/
def Connection.downloads : Connection → Bool
  | .downloading => true
  | _ => false

/-- A listener: its two limits, the permits that are available, and its task set. -/
structure Listener where
  maxConnections : Nat
  maxActiveDownloads : Nat
  connections : Nat
  downloads : Nat
  tasks : List Connection

def Listener.bind (maxConnections maxActiveDownloads : Nat) : Listener :=
  ⟨maxConnections, maxActiveDownloads, maxConnections, maxActiveDownloads, []⟩

/-- What a task does on its own. A task that is aborted goes to its end from where it is,
and gives back what it owns. -/
inductive Listener.TaskStep (l : Listener) : Listener → Prop
  | download {before after : List Connection} {available : Nat} : l.tasks = before ++ .accepted :: after →
      l.downloads = available + 1 →
      l.TaskStep { l with downloads := available, tasks := before ++ .downloading :: after }
  | downloaded {before after : List Connection} : l.tasks = before ++ .downloading :: after →
      l.TaskStep { l with downloads := l.downloads + 1, tasks := before ++ .answered :: after }
  | finish {before after : List Connection} {c : Connection} : c = .accepted ∨ c = .answered →
      l.tasks = before ++ c :: after →
      l.TaskStep { l with connections := l.connections + 1, tasks := before ++ .ended :: after }

/-- `try_spawn`, with a permit. -/
inductive Listener.Accepts (l : Listener) : Listener → Prop
  | spawn {available : Nat} : l.connections = available + 1 →
      l.Accepts { l with connections := available, tasks := l.tasks ++ [.accepted] }

/-- `JoinSet::join_next`. -/
inductive Listener.Joins (l : Listener) : Listener → Prop
  | join {before after : List Connection} : l.tasks = before ++ .ended :: after →
      l.Joins { l with tasks := before ++ after }

/-- The methods that run the accept loops. -/
inductive Method where
  | serve | run | runWithStdinShutdown
  deriving DecidableEq, Repr

/-- Where the application is. From `stopping` on, `result` is the answer of the accept
loops, and `aborting` says that the grace period is over. -/
inductive Phase where
  | idle
  | serving (method : Method)
  | stopping (result : Except ServerError Unit)
  | draining (result : Except ServerError Unit) (aborting : Bool)
  | drainingAssets (result : Except ServerError Unit) (aborting : Bool)
  | finishing (result : Except ServerError Unit)

/-- A process: an application that alone drives its context. The last two fields only
record what has happened: that `finish_shutdown` may have begun to close the stores, and
what the last call returned that ran or stopped the listeners. -/
structure Process (N : NodeKernel) extends Started N where
  listener : Listener
  assetListener : Listener
  phase : Phase
  rejecting : Bool
  storesClosed : Bool
  returned : Option (Except ServerError Unit)

variable {N : NodeKernel}

def Listener.rebind (l : Listener) (bound : Bool) : Listener :=
  if bound = true then l else .bind l.maxConnections l.maxActiveDownloads

/-- `ServerApplication::start`. A listener that is bound anew has no tasks. Every error
rolls the startup back, which closes the stores unless the node is stopped. -/
def Process.start (o : Outcomes) (s : Process N) : Process N where
  toStarted := (Server.start o s.toStarted).2
  listener := s.listener.rebind s.application.listener
  assetListener := s.assetListener.rebind s.application.listener
  phase := .idle
  rejecting := false
  storesClosed := s.storesClosed ||
    (!(Server.start o s.toStarted).1.isOk && decide (s.context.lifecycle.state ≠ .stopped))
  returned := none

/-- `serve_result?; shutdown_result`. -/
def first (result next : Except ServerError Unit) : Except ServerError Unit :=
  match result with
  | .ok () => next
  | .error e => .error e

/-- How an accept loop ends. -/
inductive LoopEnds (s : Process N) : Except ServerError Unit → Prop
  | cancelled : s.application.cancelled = true → LoopEnds s (.ok ())
  | acceptFailed : LoopEnds s (.error (.listener "accept failed"))
  | assetAcceptFailed : s.application.assetListener = true → s.rejecting = false →
      LoopEnds s (.error (.listener "Asset HTTP accept failed"))

/-- The accept loops. At capacity a WebSocket connection is dropped at once, an Asset
connection is told so, and its loop does nothing else meanwhile. -/
inductive LoopStep (s : Process N) : Process N → Prop
  | accept {l : Listener} : s.listener.Accepts l → LoopStep s { s with listener := l }
  | join {l : Listener} : s.listener.Joins l → LoopStep s { s with listener := l }
  | acceptAsset {l : Listener} : s.application.assetListener = true → s.rejecting = false →
      s.assetListener.Accepts l → LoopStep s { s with assetListener := l }
  | joinAsset {l : Listener} : s.application.assetListener = true → s.rejecting = false →
      s.assetListener.Joins l → LoopStep s { s with assetListener := l }
  | reject : s.application.assetListener = true → s.rejecting = false → s.assetListener.connections = 0 →
      LoopStep s { s with rejecting := true }
  | rejected : s.rejecting = true → LoopStep s { s with rejecting := false }

/-- `shutdown`, after its first await: drain one listener, then the other, then finish. -/
inductive DrainStep (s : Process N) : Process N → Prop
  | join {result : Except ServerError Unit} {aborting : Bool} {l : Listener} :
      s.phase = .draining result aborting → s.listener.Joins l → DrainStep s { s with listener := l }
  | deadline {result : Except ServerError Unit} : s.phase = .draining result false →
      DrainStep s { s with phase := .draining result true }
  | drained {result : Except ServerError Unit} {aborting : Bool} : s.phase = .draining result aborting →
      s.application.listener = false ∨ s.listener.tasks = [] →
      DrainStep s { s with phase := .drainingAssets result false }
  | joinAsset {result : Except ServerError Unit} {aborting : Bool} {l : Listener} :
      s.phase = .drainingAssets result aborting → s.assetListener.Joins l →
      DrainStep s { s with assetListener := l }
  | assetDeadline {result : Except ServerError Unit} : s.phase = .drainingAssets result false →
      DrainStep s { s with phase := .drainingAssets result true }
  | assetDrained {result : Except ServerError Unit} {aborting : Bool} :
      s.phase = .drainingAssets result aborting →
      s.application.assetListener = false ∨ s.assetListener.tasks = [] →
      DrainStep s { s with
        application := { s.application with listener := false, assetListener := false }
        phase := .finishing result
        storesClosed := true }

inductive Process.Step : Process N → Process N → Prop
  | start {s : Process N} (o : Outcomes) : s.phase = .idle → Step s (s.start o)
  | serve {s : Process N} (method : Method) : s.phase = .idle → s.application.listener = true →
      Step s { s with phase := .serving method, returned := none }
  | loop {s t : Process N} {method : Method} : s.phase = .serving method → LoopStep s t → Step s t
  | loopEnds {s : Process N} {method : Method} {result : Except ServerError Unit} : s.phase = .serving method →
      LoopEnds s result → Step s { s with phase := .stopping result, rejecting := false }
  | signal {s : Process N} {method : Method} : s.phase = .serving method → method ≠ .serve →
      Step s { s with phase := .stopping (.ok ()), rejecting := false }
  | inputFailed {s : Process N} : s.phase = .serving .runWithStdinShutdown →
      Step s { s with
        phase := .stopping (.error (.shutdown "failed to wait for process shutdown input"))
        rejecting := false }
  /-- The `?` stands inside the arm of `select!`, so `run` returns without a shutdown. -/
  | signalFailed {s : Process N} : s.phase = .serving .run →
      Step s { s with
        phase := .idle
        rejecting := false
        returned := some (.error (.shutdown "failed to wait for process shutdown signal")) }
  | shutdown {s : Process N} : s.phase = .idle → Step s { s with phase := .stopping (.ok ()), returned := none }
  | alreadyStopped {s : Process N} {result : Except ServerError Unit} : s.phase = .stopping result →
      s.context.lifecycle.state = .stopped → Step s { s with phase := .idle, returned := some result }
  | begin {s : Process N} {result : Except ServerError Unit} (o : Outcomes) : s.phase = .stopping result →
      s.context.lifecycle.state ≠ .stopped → (beginShutdown o s.context).1 = .ok () →
      Step s { s with
        context := (beginShutdown o s.context).2
        application := { s.application with cancelled := true }
        phase := .draining result false }
  | beginFailed {s : Process N} {result : Except ServerError Unit} {e : ServerError} (o : Outcomes) :
      s.phase = .stopping result → s.context.lifecycle.state ≠ .stopped →
      (beginShutdown o s.context).1 = .error e →
      Step s { s with
        context := (beginShutdown o s.context).2
        phase := .idle
        returned := some (first result (.error e)) }
  | drain {s t : Process N} : DrainStep s t → Step s t
  | finish {s : Process N} {result : Except ServerError Unit} (o : Outcomes) : s.phase = .finishing result →
      Step s { s with
        context := (finishShutdown o s.context).2
        phase := .idle
        returned := some (first result (finishShutdown o s.context).1) }
  | task {s : Process N} {l : Listener} : s.listener.TaskStep l → Step s { s with listener := l }
  | assetTask {s : Process N} {l : Listener} : s.assetListener.TaskStep l → Step s { s with assetListener := l }
  | cancel {s : Process N} : Step s { s with application := { s.application with cancelled := true } }
  /-- The future of the call is dropped. Between two awaits of `begin_shutdown` and of
  `finish_shutdown` the context is as a failure there would leave it. -/
  | dropped {s : Process N} : Step s { s with phase := .idle, rejecting := false, returned := none }
  | beginDropped {s : Process N} {result : Except ServerError Unit} (o : Outcomes) :
      s.phase = .stopping result → s.context.lifecycle.state ≠ .stopped →
      Step s { s with context := (beginShutdown o s.context).2, phase := .idle, returned := none }
  | finishDropped {s : Process N} {result : Except ServerError Unit} (o : Outcomes) :
      s.phase = .finishing result →
      Step s { s with context := (finishShutdown o s.context).2, phase := .idle, returned := none }

/-- A process that has not started, around a context that nothing has shut down. -/
structure Process.Initial (s : Process N) : Prop where
  context : s.context.lifecycle.state = .starting ∨ s.context.lifecycle.state = .ready
  unbound : s.application.listener = false ∧ s.application.assetListener = false
  listener : ∃ max, s.listener = .bind max 0
  assetListener : ∃ max downloads, s.assetListener = .bind max downloads
  idle : s.phase = .idle
  rejecting : s.rejecting = false
  storesOpen : s.storesClosed = false
  returned : s.returned = none

def Process.system (N : NodeKernel) : System (Process N) where
  init := Process.Initial
  step := Process.Step

end OrbitRelay.Server
