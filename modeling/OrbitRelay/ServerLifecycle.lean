import OrbitRelay.Fallible
import Mathlib.Data.List.Basic
import Mathlib.Logic.Function.Basic

/-!
# The lifecycle of a server node

`ServerLifecycle`, the transitions of `ServerContext`, and `ServerApplication` with its
startup rollback. The node registry, the stores and the listeners answer as they like.
-/
namespace OrbitRelay.Server

open Fallible

inductive LifecycleState where
  | starting | ready | draining | stopped
  deriving DecidableEq, Repr

inductive HealthState where
  | starting | ready | stopping | stopped
  deriving DecidableEq, Repr

inductive NodeState where
  | starting | ready | draining | offline
  deriving DecidableEq, Repr

inductive ServerError where
  | lifecycle (source target : LifecycleState)
  | config (message : String)
  | bootstrap (message : String)
  | nodeLifecycle (message : String)
  | listener (message : String)
  | shutdown (message : String)
  deriving DecidableEq, Repr

structure ServerLifecycle where
  state : LifecycleState
  health : HealthState
  deriving DecidableEq

def healthFor : LifecycleState → HealthState
  | .starting => .starting
  | .ready => .ready
  | .draining => .stopping
  | .stopped => .stopped

/-- `ServerLifecycle::from_state`. -/
def ServerLifecycle.fromState (state : LifecycleState) : ServerLifecycle := ⟨state, healthFor state⟩

/-- `ServerLifecycle::transition`. -/
def ServerLifecycle.transition (allowed : List LifecycleState) (target : LifecycleState) :
    Action ServerError ServerLifecycle := fun l =>
  if l.state ∈ allowed then (.ok (), .fromState target) else (.error (.lifecycle l.state target), l)

def ServerLifecycle.ready : Action ServerError ServerLifecycle := transition [.starting] .ready

def ServerLifecycle.beginShutdown : Action ServerError ServerLifecycle :=
  transition [.starting, .ready] .draining

def ServerLifecycle.stop : Action ServerError ServerLifecycle := transition [.draining] .stopped

structure NodeKernel where
  NodeId : Type
  Metadata : Type
  Capability : Type
  [decNodeId : DecidableEq NodeId]

attribute [instance] NodeKernel.decNodeId

structure Node (N : NodeKernel) where
  id : N.NodeId
  metadata : N.Metadata
  state : NodeState
  capabilities : List N.Capability

/-- A context, with the registry it advertises its node in. -/
structure ServerContext (N : NodeKernel) where
  nodeId : N.NodeId
  nodeMetadata : N.Metadata
  nodeCapabilities : List N.Capability
  nodeState : NodeState
  lifecycle : ServerLifecycle
  nodeRegistry : N.NodeId → Option (Node N)
  assetDelivery : Bool
  assetStore : Bool
  catalogStore : Bool

/-- What the registry answers. A request that fails may have been carried out. -/
inductive RegistryReply where
  | ok
  | failed (applied : Bool)
  deriving DecidableEq, Repr

/-- How everything outside the context behaves during one call. -/
structure Outcomes where
  register : NodeState → RegistryReply
  unregister : RegistryReply
  closeEventStore : Bool
  closeAssetStore : Bool
  closeCatalogStore : Bool
  bindWebSocket : Except ServerError Unit
  bindAssets : Except ServerError Unit

variable {N : NodeKernel}

/-- The entry of this node is set. -/
def ServerContext.enter (c : ServerContext N) (entry : Option (Node N)) : ServerContext N :=
  { c with nodeRegistry := Function.update c.nodeRegistry c.nodeId entry }

def ServerContext.node (c : ServerContext N) (state : NodeState) : Node N :=
  ⟨c.nodeId, c.nodeMetadata, state, c.nodeCapabilities⟩

def onLifecycle (transition : Action ServerError ServerLifecycle) : Action ServerError (ServerContext N) := fun c =>
  ((transition c.lifecycle).1, { c with lifecycle := (transition c.lifecycle).2 })

def registerNodeState (o : Outcomes) (state : NodeState) : Action ServerError (ServerContext N) := fun c =>
  match o.register state with
  | .ok => (.ok (), { c.enter (some (c.node state)) with nodeState := state })
  | .failed applied => (.error (.nodeLifecycle "node state registration failed"),
      if applied = true then c.enter (some (c.node state)) else c)

def unregisterNode (o : Outcomes) : Action ServerError (ServerContext N) := fun c =>
  match o.unregister with
  | .ok => (.ok (), c.enter none)
  | .failed applied => (.error (.nodeLifecycle "node unregister failed"), if applied = true then c.enter none else c)

def closeStore (closed : Bool) (message : String) : Action ServerError (ServerContext N) := fun c =>
  (if closed = true then .ok () else .error (.shutdown message), c)

def markReady (o : Outcomes) : Action ServerError (ServerContext N) :=
  (registerNodeState o .ready).andThen (onLifecycle ServerLifecycle.ready)

def beginShutdown (o : Outcomes) : Action ServerError (ServerContext N) :=
  ((onLifecycle ServerLifecycle.beginShutdown).onlyIf (fun c => c.lifecycle.state ≠ .draining)).andThen
    ((registerNodeState o .draining).onlyIf (fun c => c.nodeState ≠ .draining))

def finishShutdown (o : Outcomes) : Action ServerError (ServerContext N) :=
  (closeStore o.closeEventStore "event store shutdown failed").andThen <|
  ((closeStore o.closeAssetStore "asset store shutdown failed").onlyIf (·.assetStore)).andThen <|
  ((closeStore o.closeCatalogStore "catalog store shutdown failed").onlyIf (·.catalogStore)).andThen <|
  ((registerNodeState o .offline).onlyIf (fun c => c.nodeState ≠ .offline)).andThen <|
  (unregisterNode o).andThen
    ((onLifecycle ServerLifecycle.stop).onlyIf (fun c => c.lifecycle.state = .draining))

def shutdown (o : Outcomes) : Action ServerError (ServerContext N) :=
  (beginShutdown o).andThen (finishShutdown o)

/-! ## The application -/

/-- An application around the context. `validate` is the answer of its configuration. -/
structure ServerApplication where
  validate : Except ServerError Unit
  assetDeliveryEnabled : Bool
  listener : Bool
  assetListener : Bool
  cancelled : Bool

/-- Both steps are attempted, their errors are only logged. -/
def rollbackStartup (o : Outcomes) (c : ServerContext N) : ServerContext N :=
  if c.lifecycle.state ≠ .stopped then (finishShutdown o (beginShutdown o c).2).2 else c

/-- An application and the context it shares with others. -/
structure Started (N : NodeKernel) where
  application : ServerApplication
  context : ServerContext N

/-- The bound listeners are shut down, and the startup rolled back. -/
def abandonStartup (o : Outcomes) (s : Started N) : Started N :=
  ⟨{ s.application with listener := false }, rollbackStartup o s.context⟩

/-- The last part of `start`: the listeners are bound. -/
def announce (o : Outcomes) : Action ServerError (Started N) := fun s =>
  match markReady o s.context with
  | (.ok (), c) => (.ok (), { s with context := c })
  | (.error e, c) =>
    (.error e, ⟨{ s.application with cancelled := true, listener := false, assetListener := false },
      rollbackStartup o c⟩)

def start (o : Outcomes) : Action ServerError (Started N) := fun s =>
  if s.application.listener = true then (.ok (), s)
  else match s.application.validate with
    | .error e => (.error e, { s with context := rollbackStartup o s.context })
    | .ok () => match o.bindWebSocket with
      | .error e => (.error e, { s with context := rollbackStartup o s.context })
      | .ok () =>
        let bound : Started N := { s with application := { s.application with listener := true } }
        if s.application.assetDeliveryEnabled = true then
          if s.context.assetDelivery = true then
            match o.bindAssets with
            | .ok () => announce o { bound with application := { bound.application with assetListener := true } }
            | .error e => (.error e, abandonStartup o bound)
          else (.error (.bootstrap "Asset Delivery service was not composed"), abandonStartup o bound)
        else announce o bound

/-- `ServerApplication::shutdown`. -/
def stopApplication (o : Outcomes) : Action ServerError (Started N) := fun s =>
  if s.context.lifecycle.state = .stopped then (.ok (), s)
  else match beginShutdown o s.context with
    | (.error e, c) => (.error e, { s with context := c })
    | (.ok (), c) =>
      ((finishShutdown o c).1,
        ⟨{ s.application with cancelled := true, listener := false, assetListener := false },
          (finishShutdown o c).2⟩)

/-! ## Calls -/

/-- The calls on one context and on the applications around it. -/
inductive Call (ι : Type) where
  | markReady | beginShutdown | finishShutdown | shutdown
  | start (i : ι)
  | stopApplication (i : ι)
  deriving DecidableEq

structure Server (N : NodeKernel) (ι : Type) where
  context : ServerContext N
  applications : ι → ServerApplication

variable {ι : Type} [DecidableEq ι]

def Server.onContext (action : Action ServerError (ServerContext N)) : Action ServerError (Server N ι) := fun w =>
  ((action w.context).1, { w with context := (action w.context).2 })

def Server.onApplication (i : ι) (action : Action ServerError (Started N)) : Action ServerError (Server N ι) := fun w =>
  let result := action ⟨w.applications i, w.context⟩
  (result.1, ⟨result.2.context, Function.update w.applications i result.2.application⟩)

def Server.perform (o : Outcomes) : Call ι → Action ServerError (Server N ι)
  | .markReady => Server.onContext (Server.markReady o)
  | .beginShutdown => Server.onContext (Server.beginShutdown o)
  | .finishShutdown => Server.onContext (Server.finishShutdown o)
  | .shutdown => Server.onContext (Server.shutdown o)
  | .start i => Server.onApplication i (Server.start o)
  | .stopApplication i => Server.onApplication i (Server.stopApplication o)

/-- The state after a sequence of calls. -/
def Server.after (w : Server N ι) (calls : List (Outcomes × Call ι)) : Server N ι :=
  calls.foldl (fun w x => (Server.perform x.1 x.2 w).2) w

end OrbitRelay.Server
