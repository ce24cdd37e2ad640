import OrbitRelay.Transition
import Mathlib.Data.List.AList
import Mathlib.Logic.Function.Basic

/-!
# The execution coordinator

`TokioExecutionCoordinator` keeps one async mutex per scope behind a map of weak
references. An entry is an allocation `k : Nat` with a strong count; the entries
mutex guards the map, and the last strong reference to go runs `KeyedMutex::drop`
on the thread that let it go, wherever that thread is. Each task makes one call:
an `acquire` with the lease it may get, or a `key_count`.
-/
namespace OrbitRelay.Coordinator

open Transition

variable {Scope : Type}

/-- What `prune_stale` is called for. -/
inductive Purpose (Scope : Type) where
  | acquire (scope : Scope)
  | keyCount

/-- The locked section of a `prune_stale`, with the keys that `retain` has yet to visit. -/
structure Pruning (Scope : Type) where
  purpose : Purpose Scope
  rest : List Scope

/-- `upgraded` holds the temporary reference of `prune_stale`, `released` the entry of
a lease whose guard is gone or of a cancelled `acquire`. A `KeyedMutex::drop` goes
through `dropping`, `requesting` and `removing`; `inside` is the locked section that
it runs in, if its thread is in one. -/
inductive Task (Scope : Type) where
  | idle
  | called (purpose : Purpose Scope)
  | pruning (f : Pruning Scope)
  | upgraded (f : Pruning Scope) (k : Nat)
  | pruned (purpose : Purpose Scope)
  | looking (scope : Scope)
  | found (k : Nat)
  | waiting (k : Nat)
  | leased (k : Nat)
  | released (k : Nat)
  | dropping (k : Nat) (inside : Option (Pruning Scope))
  | requesting (k : Nat) (inside : Option (Pruning Scope))
  | removing (k : Nat) (inside : Option (Pruning Scope))
  | counting
  | counted (n : Nat)
  | done

/-- Where a thread goes on after `KeyedMutex::drop`. -/
def Task.resume : Option (Pruning Scope) → Task Scope
  | none => .done
  | some f => .pruning f

/-- The entry that the task holds a strong reference to. -/
def Task.holds : Task Scope → Option Nat
  | .upgraded _ k => some k
  | .found k => some k
  | .waiting k => some k
  | .leased k => some k
  | .released k => some k
  | _ => none

/-- The entry whose `KeyedMutex::drop` the task has not finished. -/
def Task.destroys : Task Scope → Option Nat
  | .dropping k _ => some k
  | .requesting k _ => some k
  | .removing k _ => some k
  | _ => none

/-- The task owns the entries mutex. -/
def Task.owns : Task Scope → Prop
  | .pruning _ => True
  | .upgraded _ _ => True
  | .looking _ => True
  | .found _ => True
  | .dropping _ (some _) => True
  | .requesting _ (some _) => True
  | .removing _ _ => True
  | .counting => True
  | _ => False

/-- The task keeps the coordinator's state alive. -/
def Task.borrows : Task Scope → Prop
  | .called _ => True
  | .pruning _ => True
  | .upgraded _ _ => True
  | .pruned _ => True
  | .looking _ => True
  | .found _ => True
  | .waiting _ => True
  | .dropping _ (some _) => True
  | .requesting _ _ => True
  | .removing _ _ => True
  | .counting => True
  | _ => False

/-- `scope` is set once for every allocated entry, `guard` is the owner of its async
mutex, and `lock` the owner of the entries mutex. -/
structure State (Scope : Type) where
  alive : Bool
  entries : AList (fun _ : Scope => Nat)
  lock : Option Nat
  scope : Nat → Option Scope
  strong : Nat → Nat
  guard : Nat → Option Nat
  task : Nat → Task Scope

/-- `TokioExecutionCoordinator::new`. -/
def State.new (Scope : Type) : State Scope where
  alive := true
  entries := ∅
  lock := none
  scope := fun _ => none
  strong := fun _ => 0
  guard := fun _ => none
  task := fun _ => .idle

def State.move (s : State Scope) (i : Nat) (b : Task Scope) : State Scope :=
  { s with task := Function.update s.task i b }

variable [DecidableEq Scope]

inductive Step : State Scope → State Scope → Prop
  | call {s : State Scope} (i p) : s.task i = .idle → s.alive = true → Step s (s.move i (.called p))
  | lockPrune {s : State Scope} (i) {p} (rest) : s.task i = .called p → s.lock = none →
      rest.Perm s.entries.keys →
      Step s { s.move i (.pruning ⟨p, rest⟩) with lock := some i }
  | pruneStale {s : State Scope} (i) {p x rest k} : s.task i = .pruning ⟨p, x :: rest⟩ →
      s.entries.lookup x = some k → s.strong k = 0 →
      Step s { s.move i (.pruning ⟨p, rest⟩) with entries := s.entries.erase x }
  | pruneUpgrade {s : State Scope} (i) {p x rest k} : s.task i = .pruning ⟨p, x :: rest⟩ →
      s.entries.lookup x = some k → 0 < s.strong k →
      Step s { s.move i (.upgraded ⟨p, rest⟩ k) with
        strong := Function.update s.strong k (s.strong k + 1) }
  | pruneRelease {s : State Scope} (i) {f k} : s.task i = .upgraded f k → 1 < s.strong k →
      Step s { s.move i (.pruning f) with strong := Function.update s.strong k (s.strong k - 1) }
  | pruneReleaseLast {s : State Scope} (i) {f k} : s.task i = .upgraded f k → s.strong k = 1 →
      Step s { s.move i (.dropping k (some f)) with
        strong := Function.update s.strong k (s.strong k - 1) }
  | unlockPrune {s : State Scope} (i) {p} : s.task i = .pruning ⟨p, []⟩ →
      Step s { s.move i (.pruned p) with lock := none }
  | lockAcquire {s : State Scope} (i) {x} : s.task i = .pruned (.acquire x) → s.lock = none →
      Step s { s.move i (.looking x) with lock := some i }
  | lookupUpgrade {s : State Scope} (i) {x k} : s.task i = .looking x → s.entries.lookup x = some k →
      0 < s.strong k →
      Step s { s.move i (.found k) with strong := Function.update s.strong k (s.strong k + 1) }
  | lookupInsert {s : State Scope} (i) {x} (k) : s.task i = .looking x →
      (∀ k', s.entries.lookup x = some k' → s.strong k' = 0) → s.scope k = none →
      Step s { s.move i (.found k) with
        entries := s.entries.insert x k
        scope := Function.update s.scope k (some x)
        strong := Function.update s.strong k 1 }
  | unlockAcquire {s : State Scope} (i) {k} : s.task i = .found k →
      Step s { s.move i (.waiting k) with lock := none }
  | lockMutex {s : State Scope} (i) {k} : s.task i = .waiting k → s.guard k = none →
      Step s { s.move i (.leased k) with guard := Function.update s.guard k (some i) }
  | cancel {s : State Scope} (i) {k} : s.task i = .waiting k → Step s (s.move i (.released k))
  | dropGuard {s : State Scope} (i) {k} : s.task i = .leased k →
      Step s { s.move i (.released k) with guard := Function.update s.guard k none }
  | dropEntry {s : State Scope} (i) {k} : s.task i = .released k → 1 < s.strong k →
      Step s { s.move i .done with strong := Function.update s.strong k (s.strong k - 1) }
  | dropEntryLast {s : State Scope} (i) {k} : s.task i = .released k → s.strong k = 1 →
      Step s { s.move i (.dropping k none) with
        strong := Function.update s.strong k (s.strong k - 1) }
  | upgradeCoordinator {s : State Scope} (i) {k inside} : s.task i = .dropping k inside →
      s.alive = true → Step s (s.move i (.requesting k inside))
  | coordinatorGone {s : State Scope} (i) {k inside} : s.task i = .dropping k inside →
      s.alive = false → Step s (s.move i (.resume inside))
  | lockDrop {s : State Scope} (i) {k inside} : s.task i = .requesting k inside → s.lock = none →
      Step s { s.move i (.removing k inside) with lock := some i }
  | removeCurrent {s : State Scope} (i) {k inside x} : s.task i = .removing k inside →
      s.scope k = some x → s.entries.lookup x = some k →
      Step s { s.move i (.resume inside) with entries := s.entries.erase x, lock := none }
  | keepReplacement {s : State Scope} (i) {k inside x} : s.task i = .removing k inside →
      s.scope k = some x → s.entries.lookup x ≠ some k →
      Step s { s.move i (.resume inside) with lock := none }
  | lockCount {s : State Scope} (i) : s.task i = .pruned .keyCount → s.lock = none →
      Step s { s.move i .counting with lock := some i }
  | keyCount {s : State Scope} (i) : s.task i = .counting →
      Step s { s.move i (.counted s.entries.keys.length) with lock := none }
  | dropCoordinator {s : State Scope} : s.alive = true → (∀ i, ¬ (s.task i).borrows) →
      Step s { s with alive := false, entries := ∅ }

def system (Scope : Type) [DecidableEq Scope] : System (State Scope) where
  init s := s = State.new Scope
  step := Step

end OrbitRelay.Coordinator
