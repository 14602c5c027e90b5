import Tcpdumpw.Spec.Basic

/-!
# `start`: fan-out and fan-in

`start(ctx, timeout, tasks)` adds `len(tasks)` to a `sync.WaitGroup`, replaces `ctx` by a
child with a deadline when `timeout > 0`, starts one goroutine per task, passing it `ctx` and
the task, then waits for `ctx` to be done and then for the group. Each goroutine calls
`t.engine.Start(ctx, t.writers)` and, on its return, the deferred `wg.Done()`.

A state holds `start`'s program point, its `ctx` variable, the group's counter, the
goroutines started so far with what each was passed, and the calls made to `engine.Start`.
A step is one statement of one goroutine, or an event of the environment: the deadline, or
the cancellation of the parent context. An engine may return at any time.
-/

namespace Tcpdumpw

/-- A context `start` can hand to its goroutines: the parent, or the child
`context.WithTimeout(ctx, timeout)`. -/
inductive Scope where
  | parent
  | deadline (timeout : Duration)
  deriving DecidableEq, Repr

/-- The scope of the engines: `timeout > 0*time.Second` is a signed comparison. -/
def execScope (timeout : Duration) : Scope :=
  if (0 : Duration).slt timeout then .deadline timeout else .parent

/-- Program points of `start`'s own goroutine. -/
inductive StartPc where
  | add
  | withTimeout
  | spawn (i : ℕ)
  | waitDone
  | waitGroup
  | returned
  deriving DecidableEq, Repr

/-- Program points of a task goroutine. -/
inductive WorkerPc where
  | begin
  | running
  | finished
  | done
  deriving DecidableEq, Repr

/-- A task goroutine and the arguments `go func(ctx, t)` evaluated for it. -/
structure Worker (E W : Type) where
  ctx : Scope
  task : PcapTask E W
  pc : WorkerPc
  deriving DecidableEq, Repr

/-- A call `t.engine.Start(ctx, t.writers)` and the goroutine that made it. -/
structure EngineCall (E W : Type) where
  worker : ℕ
  ctx : Scope
  engine : E
  writers : List (Option W)
  deriving DecidableEq, Repr

structure StartState (E W : Type) where
  pc : StartPc
  ctx : Scope
  counter : ℕ
  workers : List (Worker E W)
  calls : List (EngineCall E W)
  parentDone : Bool
  deadlineFired : Bool
  deriving DecidableEq, Repr

/-- The steps of a run of `start`. -/
inductive StartAction where
  /-- The next statement of `start`'s goroutine. -/
  | main
  /-- Goroutine `j` calls `t.engine.Start(ctx, t.writers)`. -/
  | call (j : ℕ)
  /-- The engine of goroutine `j` returns. -/
  | ret (j : ℕ)
  /-- Goroutine `j` runs its deferred `wg.Done()`. -/
  | done (j : ℕ)
  /-- The deadline of the child context passes. -/
  | deadline
  /-- The parent context is cancelled. -/
  | cancelParent
  deriving DecidableEq, Repr

namespace StartState

variable {E W : Type}

/-- The state at the call `start(ctx, timeout, tasks)`. -/
def init (parentDone : Bool) : StartState E W := ⟨.add, .parent, 0, [], [], parentDone, false⟩

/-- `ctx.Done()` is closed. -/
def isDone (s : StartState E W) : Scope → Bool
  | .parent => s.parentDone
  | .deadline _ => s.parentDone || s.deadlineFired

/-- The next statement of `start`'s goroutine; `none` where it blocks. -/
def mainStep (timeout : Duration) (tasks : List (PcapTask E W)) (s : StartState E W) :
    Option (StartState E W) :=
  match s.pc with
  | .add => some { s with pc := .withTimeout, counter := s.counter + tasks.length }
  | .withTimeout =>
    some { s with pc := .spawn 0, ctx := if (0 : Duration).slt timeout then .deadline timeout else s.ctx }
  | .spawn i =>
    match tasks[i]? with
    | some t => some { s with pc := .spawn (i + 1), workers := s.workers ++ [⟨s.ctx, t, .begin⟩] }
    | none => some { s with pc := .waitDone }
  | .waitDone => if s.isDone s.ctx then some { s with pc := .waitGroup } else none
  | .waitGroup => if s.counter = 0 then some { s with pc := .returned } else none
  | .returned => none

/-- Move goroutine `j` from `pc` to `pc'`. -/
def advance (s : StartState E W) (j : ℕ) (pc pc' : WorkerPc) : Option (Worker E W × StartState E W) :=
  match s.workers[j]? with
  | some w => if w.pc = pc then some (w, { s with workers := s.workers.set j { w with pc := pc' } })
    else none
  | none => none

/-- One step; `none` where it is not enabled. `wg.Done()` on a zero counter panics in Go, and
is not enabled here. -/
def step (timeout : Duration) (tasks : List (PcapTask E W)) (s : StartState E W) :
    StartAction → Option (StartState E W)
  | .main => s.mainStep timeout tasks
  | .call j => (s.advance j .begin .running).map fun (w, s') =>
    { s' with calls := s'.calls ++ [⟨j, w.ctx, w.task.engine, w.task.writers⟩] }
  | .ret j => (s.advance j .running .finished).map Prod.snd
  | .done j =>
    if s.counter = 0 then none else
    (s.advance j .finished .done).map fun (_, s') => { s' with counter := s'.counter - 1 }
  | .deadline =>
    match s.ctx with
    | .deadline _ => if s.deadlineFired then none else some { s with deadlineFired := true }
    | .parent => none
  | .cancelParent => if s.parentDone then none else some { s with parentDone := true }

/-- A sequence of steps from `s`; `none` where one of them is not enabled. -/
def run (timeout : Duration) (tasks : List (PcapTask E W)) (s : StartState E W) :
    List StartAction → Option (StartState E W)
  | [] => some s
  | a :: as => (s.step timeout tasks a).bind fun s' => s'.run timeout tasks as

end StartState

/-- The states a run of `start(ctx, timeout, tasks)` reaches, from a parent that is not yet
cancelled, over any interleaving. -/
inductive StartReachable {E W : Type} (timeout : Duration) (tasks : List (PcapTask E W)) :
    StartState E W → Prop where
  | init : StartReachable timeout tasks (StartState.init false)
  | step {s s' : StartState E W} (a : StartAction) :
      StartReachable timeout tasks s → s.step timeout tasks a = some s' →
        StartReachable timeout tasks s'

end Tcpdumpw
