import Tcpdumpw.Spec.CreateTasks
import Tcpdumpw.Spec.Start

/-!
# `main`: the lifecycle of the process

The model starts where `createTasks` has returned (line 289), with the `args` entry and
`createTasks`' entries in the log, and follows `main` to its end, together with every
goroutine it starts and the events of the outside world:

* `main`'s own statements (`mainStep`): the check of line 291, the timeout of line 296, the
  context of line 299, then either the one-shot call `start(ctx, timeout, tasks)` or the
  scheduled path: time zone, scheduler, job, `jid`, `jobs`, `s.Start()`, `signal.Notify`, the
  signal goroutine, `<-ctx.Done()`, `StopJobs`, `RemoveJob`, `Shutdown`;
* the call of `start` in progress (`call`), whose goroutines step as `StartState.step` says;
* gocron's executor (`execStep`): on a trigger, the listener `beforeTcpdump`, the task
  `tcpdump`, and, when `tcpdump` returns `nil`, the listener `afterTcpdump`;
* the goroutine of lines 375-379 (`handlerStep`);
* a signal, `SIGINT` or `SIGTERM`: Go's default action ends the process until
  `signal.Notify` has run, and delivers it to the channel of capacity one afterwards.

What gocron does is modelled from the spec (section 4.3): a trigger starts an execution only
from `s.Start()` until `s.StopJobs()` returns and only while no execution runs
(`LimitModeReschedule` drops the others); `Shutdown` is not assumed to wait for the execution
in progress. The values the outside world supplies (what `createTasks` was given and returned,
`LoadLocation`, `NewScheduler`, `NewJob`, `LastRun`, `NextRun`, the random bytes of
`uuid.New`) are fields of `Config`.
-/

namespace Tcpdumpw

/-- `time.Duration(*duration) * time.Second` (line 296): a product of `int64`s, which wraps. -/
def parseTimeout (duration : ℤ) : Duration := BitVec.ofInt 64 duration * second

/-- What `s.NewJob` returns, as `main` reads it: `j.ID()`, `j.Name()`, `j.Tags()`. -/
structure SchedJob where
  id : UUID
  name : String
  tags : List String
  deriving DecidableEq, Repr

/-- The flags, what `createTasks` was given and returned, and what each call to the outside
world returns. The `k`-th execution (from `1`) reads `lastRun k`, `random k` and `nextRun k`;
line 370 reads `nextRun 0`. -/
structure Config (E W : Type) where
  useCron : Bool
  /-- `-cron_exp`, which only the `args` entry and gocron read. -/
  cronExp : String
  /-- `-timeout`. -/
  duration : ℤ
  /-- The flags `createTasks` reads, `-timezone` among them. -/
  flags : Flags
  /-- `PCAP_IFACE`. -/
  ifacePattern : String
  /-- What `createTasks`' calls return, interface by interface. -/
  host : List (DeviceRun E W)
  tasks : List (PcapTask E W)
  /-- The entries `createTasks` logged, as level and message. -/
  taskLog : List LogLine
  /-- `createTasks` returned `tasks` (line 289), after logging `taskLog`: it did not panic. -/
  created : createTasks flags ifacePattern host = .ok (tasks, taskLog)
  env : ProcEnv
  /-- `time.LoadLocation(*timezone)`: the location's name, or the error. -/
  location : Except String String
  /-- `gocron.NewScheduler(...)`. -/
  scheduler : Except String Unit
  /-- `s.NewJob(...)`. -/
  newJob : Except String SchedJob
  lastRun : ℕ → Time
  nextRun : ℕ → Time
  /-- The 16 bytes `uuid.New()` reads in the `k`-th `beforeTcpdump`. -/
  random : ℕ → UUID

namespace Config

variable {E W : Type}

/-- `-timezone`. -/
def timezone (cfg : Config E W) : String := cfg.flags.timezone

/-- The entries logged before `createTasks` returns, all stamped `uuid.Nil`: the `args` entry
of line 285, then `createTasks`' own. -/
def setupLog (cfg : Config E W) : List JLogEntry :=
  jlog cfg.env UUID.nil .info (emptyTcpdumpJob : TcpdumpJob E W)
      (.args cfg.useCron cfg.cronExp cfg.duration cfg.flags) ::
    cfg.taskLog.map fun l => jlog cfg.env UUID.nil l.1 (emptyTcpdumpJob : TcpdumpJob E W) l.2

end Config

/-- How the process ends. -/
inductive ExitStatus where
  /-- `os.Exit(n)`, or `0` when `main` returns. -/
  | code (n : ℕ)
  /-- Go's default action for `SIGINT` and `SIGTERM`. -/
  | signaled (sig : Sig)
  deriving DecidableEq, Repr

/-- Program points of `main`, from line 291. -/
inductive MainPc where
  /-- `if len(tasks) == 0` -/
  | checkTasks
  /-- `timeout := ...; jlog(... "parsed timeout: %v" ...)` -/
  | logTimeout
  /-- `ctx, cancel := context.WithCancel(...)`, then `if !*use_cron` -/
  | withCancel
  /-- `start(ctx, timeout, tasks); return` -/
  | oneShot
  /-- `time.LoadLocation(*timezone)` and its logs -/
  | loadLocation
  /-- `gocron.NewScheduler(...)` -/
  | newScheduler
  /-- `s.NewJob(...)` -/
  | newJob
  /-- `jid.Store(j.ID())` -/
  | storeJid
  /-- `job := ...; jobs.Store(j.ID(), job); jlog(INFO, job, "scheduled job")` -/
  | storeJob
  /-- `s.Start()` -/
  | schedStart
  /-- `nextRun, _ := j.NextRun(); jlog(...)` -/
  | logNextRun
  /-- `signal.Notify(signals, ...)` -/
  | notify
  /-- `go func(job) { ... }(job)` -/
  | goHandler
  /-- `<-ctx.Done()` -/
  | waitDone
  /-- `s.StopJobs()` -/
  | stopJobs
  /-- `s.RemoveJob(j.ID())` -/
  | removeJob
  /-- `s.Shutdown()`, then `main` returns -/
  | shutdown
  deriving DecidableEq, Repr

/-- The scheduler fires triggers from `s.Start()` until `s.StopJobs()` returns. -/
def MainPc.schedulerRunning : MainPc → Bool
  | .logNextRun | .notify | .goHandler | .waitDone | .stopJobs => true
  | _ => false

/-- Program points of gocron's executor for the job. -/
inductive ExecPc (E W : Type) where
  /-- No execution in progress. -/
  | idle
  /-- `beforeTcpdump`: `jobs.Load(id)` and `"execution started"` -/
  | before
  /-- `beforeTcpdump`: `xid.Store(uuid.New())` -/
  | mint
  /-- `tcpdump`: `jid.Load()`, `xid.Load()`, `jobs.Load(jobID)` -/
  | task
  /-- `tcpdump`: `return start(ctx, timeout, job.tasks)` -/
  | running
  /-- `afterTcpdump`: `jobs.Load(id)` and `"execution complete"` -/
  | afterLog
  /-- `afterTcpdump`: `"next execution: %v"`, for the job it loaded -/
  | afterNext (job : TcpdumpJob E W)
  /-- `afterTcpdump`: `xid.Store(uuid.Nil)` -/
  | afterReset
  deriving DecidableEq, Repr

/-- No execution is in progress. -/
def ExecPc.isIdle {E W : Type} : ExecPc E W → Bool
  | .idle => true
  | _ => false

/-- The steps of gocron's executor at which the current execution's id has been minted. -/
def ExecPc.minted {E W : Type} : ExecPc E W → Bool
  | .idle | .before | .mint => false
  | _ => true

/-- Program points of the goroutine of lines 375-379. -/
inductive HandlerPc where
  | notStarted
  /-- `signal := <-signals` -/
  | recv
  /-- `jlog(INFO, job, fmt.Sprintf("signaled: %v", signal))` -/
  | log (sig : Sig)
  /-- `cancel()` -/
  | cancel
  | done
  deriving DecidableEq, Repr

/-- A call of `start` in progress: the tasks it was given and its state. -/
structure StartCall (E W : Type) where
  tasks : List (PcapTask E W)
  st : StartState E W
  deriving DecidableEq, Repr

/-- The process. -/
structure ProcState (E W : Type) where
  pc : MainPc
  /-- `*timezone`, which line 311 overwrites. -/
  timezone : String
  /-- The context of line 299 is cancelled. -/
  ctxCancelled : Bool
  jid : UUID
  xid : UUID
  /-- `jobs`, newest entry first. -/
  jobs : List (UUID × TcpdumpJob E W)
  /-- `main`'s `job`. -/
  job : TcpdumpJob E W
  /-- `main`'s `j`, once `s.NewJob` returned it. -/
  sjob : Option SchedJob
  exec : ExecPc E W
  /-- The number of triggers that started an execution. -/
  execs : ℕ
  call : Option (StartCall E W)
  /-- `signal.Notify` has run. -/
  notified : Bool
  /-- The channel `signals`, of capacity one. -/
  sigBuf : Option Sig
  handler : HandlerPc
  /-- The entries `jlog` printed, oldest first. -/
  log : List JLogEntry
  exit : Option ExitStatus
  deriving DecidableEq, Repr

/-- The steps of a run of the process. -/
inductive ProcAction where
  /-- The next statement of `main`. -/
  | main
  /-- A step of the call of `start` in progress; its parent's cancellation is `cancel()`. -/
  | start (a : StartAction)
  /-- The cron trigger starts an execution. -/
  | trigger
  /-- The next statement of the executor. -/
  | exec
  /-- The next statement of the signal goroutine. -/
  | handler
  /-- The process receives `sig`. -/
  | signal (sig : Sig)
  deriving DecidableEq, Repr

namespace ProcState

variable {E W : Type}

/-- The process once `createTasks` has returned: `jid` and `xid` hold `uuid.Nil`, and the log
holds the `args` entry and `createTasks`' entries. -/
def init (cfg : Config E W) : ProcState E W :=
  { pc := .checkTasks, timezone := cfg.timezone, ctxCancelled := false, jid := UUID.nil,
    xid := UUID.nil, jobs := [], job := emptyTcpdumpJob, sjob := none, exec := .idle, execs := 0,
    call := none, notified := false, sigBuf := none, handler := .notStarted, log := cfg.setupLog,
    exit := none }

/-- `jlog(severity, job, message)`: append the entry, stamped with the current `xid`. -/
def jlog (cfg : Config E W) (s : ProcState E W) (severity : JLogLevel) (job : TcpdumpJob E W)
    (message : Msg) : ProcState E W :=
  { s with log := s.log ++ [Tcpdumpw.jlog cfg.env s.xid severity job message] }

/-- `jobs.Load(id)`. -/
def jobsLoad (s : ProcState E W) (id : UUID) : Option (TcpdumpJob E W) := s.jobs.lookup id

/-- `cancel()`: the context and, with it, the parent of the call of `start` in progress. -/
def cancel (s : ProcState E W) : ProcState E W :=
  { s with
    ctxCancelled := true
    call := s.call.map fun c => { c with st := { c.st with parentDone := true } } }

/-- A call of `start(ctx, timeout, tasks)` that has just begun. -/
def newCall (s : ProcState E W) (tasks : List (PcapTask E W)) : StartCall E W :=
  ⟨tasks, StartState.init s.ctxCancelled⟩

/-- The next statement of `main`; `none` where it blocks. -/
def mainStep (cfg : Config E W) (s : ProcState E W) : Option (ProcState E W) :=
  match s.pc with
  | .checkTasks =>
    if cfg.tasks.length = 0 then
      some { s.jlog cfg .error emptyTcpdumpJob .noTasks with exit := some (.code 1) }
    else some { s with pc := .logTimeout }
  | .logTimeout =>
    some { s.jlog cfg .info emptyTcpdumpJob (.parsedTimeout (parseTimeout cfg.duration)) with
      pc := .withCancel }
  | .withCancel =>
    if !cfg.useCron then some { s with pc := .oneShot, call := some (s.newCall cfg.tasks) }
    else some { s with pc := .loadLocation }
  | .oneShot =>
    match s.call with
    | some c => if c.st.pc = .returned then
        -- `return`, and the deferred `cancel()`
        some { s.cancel with call := none, exit := some (.code 0) }
      else none
    | none => none
  | .loadLocation =>
    match cfg.location with
    | .error err =>
      let s₁ := { s with timezone := "UTC" }
      let s₂ := s₁.jlog cfg .error emptyTcpdumpJob (.timezoneFailed s₁.timezone err)
      some { s₂.jlog cfg .info emptyTcpdumpJob (.parsedTimezone "UTC") with pc := .newScheduler }
    | .ok loc => some { s.jlog cfg .info emptyTcpdumpJob (.parsedTimezone loc) with pc := .newScheduler }
  | .newScheduler =>
    match cfg.scheduler with
    | .error err => some { s.jlog cfg .error emptyTcpdumpJob (.schedulerFailed err) with exit := some (.code 2) }
    | .ok () => some { s with pc := .newJob }
  | .newJob =>
    match cfg.newJob with
    | .error err => some { s.jlog cfg .error emptyTcpdumpJob (.jobFailed err) with exit := some (.code 3) }
    | .ok j => some { s with pc := .storeJid, sjob := some j }
  | .storeJid =>
    match s.sjob with
    | some j => some { s with pc := .storeJob, jid := j.id }
    | none => none
  | .storeJob =>
    match s.sjob with
    | some j =>
      let job : TcpdumpJob E W :=
        { xid := UUID.nil, jid := j.id, name := j.name, tags := j.tags, tasks := cfg.tasks }
      let s₁ := { s with job, jobs := (j.id, job) :: s.jobs }
      some { s₁.jlog cfg .info job .scheduledJob with pc := .schedStart }
    | none => none
  | .schedStart => some { s with pc := .logNextRun }
  | .logNextRun => some { s.jlog cfg .info s.job (.nextExecution (cfg.nextRun 0)) with pc := .notify }
  | .notify => some { s with pc := .goHandler, notified := true }
  | .goHandler => some { s with pc := .waitDone, handler := .recv }
  | .waitDone => if s.ctxCancelled then some { s with pc := .stopJobs } else none
  | .stopJobs => some { s with pc := .removeJob }
  | .removeJob => some { s with pc := .shutdown }
  | .shutdown =>
    -- `s.Shutdown()`, `return`, and the deferred `cancel()`
    some { s.cancel with exit := some (.code 0) }

/-- `beforeTcpdump(id, name)`, gocron's `BeforeJobRuns` listener: `jobs.Load(id)`, the
`"execution started"` entry for the job it found, then `xid.Store(uuid.New())`. -/
def beforeTcpdump (cfg : Config E W) (s : ProcState E W) (id : UUID) : Option (ProcState E W) :=
  match s.exec with
  | .before =>
    match s.jobsLoad id with
    | some job => some { s.jlog cfg .info job (.executionStarted (cfg.lastRun s.execs)) with exec := .mint }
    | none => some { s with exec := .mint }
  | .mint => some { s with exec := .task, xid := newRandom (cfg.random s.execs) }
  | _ => none

/-- `tcpdump(timeout)`, the job's task: `jid.Load()`, `xid.Load()`, `jobs.Load(jobID)`, then
`return start(ctx, timeout, job.tasks)`, which returns once that call of `start` has; `none`
while it runs. -/
def tcpdump (cfg : Config E W) (s : ProcState E W) : Option (ProcState E W) :=
  match s.exec with
  | .task =>
    match s.jobsLoad s.jid with
    | none => some { s.jlog cfg .error emptyTcpdumpJob (.jobNotFound s.jid) with exec := .idle }
    | some job => some { s with exec := .running, call := some (s.newCall job.tasks) }
  | .running =>
    match s.call with
    | some c => if c.st.pc = .returned then some { s with exec := .afterLog, call := none } else none
    | none => none
  | _ => none

/-- `afterTcpdump(id, name)`, gocron's `AfterJobRuns` listener: `jobs.Load(id)`, the
`"execution complete"` and `"next execution"` entries for the job it found, then
`xid.Store(uuid.Nil)`. -/
def afterTcpdump (cfg : Config E W) (s : ProcState E W) (id : UUID) : Option (ProcState E W) :=
  match s.exec with
  | .afterLog =>
    match s.jobsLoad id with
    | some job => some { s.jlog cfg .info job .executionComplete with exec := .afterNext job }
    | none => some { s with exec := .afterReset }
  | .afterNext job =>
    some { s.jlog cfg .info job (.nextExecution (cfg.nextRun s.execs)) with exec := .afterReset }
  | .afterReset => some { s with exec := .idle, xid := UUID.nil }
  | _ => none

/-- The next statement of gocron's executor for the job `j`: `beforeTcpdump`, `tcpdump` and,
when `tcpdump` returns `nil`, `afterTcpdump`, the listeners getting `j.ID()`; `none` where it
blocks. When `tcpdump` returns an error, gocron runs no `AfterJobRuns` listener. -/
def execStep (cfg : Config E W) (s : ProcState E W) : Option (ProcState E W) :=
  match s.sjob with
  | none => none
  | some j =>
    match s.exec with
    | .idle => none
    | .before | .mint => s.beforeTcpdump cfg j.id
    | .task | .running => s.tcpdump cfg
    | .afterLog | .afterNext _ | .afterReset => s.afterTcpdump cfg j.id

/-- The next statement of the goroutine of lines 375-379. -/
def handlerStep (cfg : Config E W) (s : ProcState E W) : Option (ProcState E W) :=
  match s.handler with
  | .recv =>
    match s.sigBuf with
    | some sig => some { s with handler := .log sig, sigBuf := none }
    | none => none
  | .log sig => some { s.jlog cfg .info s.job (.signaled sig) with handler := .cancel }
  | .cancel => some { s.cancel with handler := .done }
  | _ => none

/-- One step; `none` where it is not enabled. Nothing runs once the process has exited. -/
def step (cfg : Config E W) (s : ProcState E W) (a : ProcAction) : Option (ProcState E W) :=
  if s.exit.isSome then none else
  match a with
  | .main => s.mainStep cfg
  | .start a =>
    if a = .cancelParent then none else
    match s.call with
    | some c => (c.st.step (parseTimeout cfg.duration) c.tasks a).map fun st =>
        { s with call := some { c with st } }
    | none => none
  | .trigger =>
    if s.pc.schedulerRunning && s.exec.isIdle then
      some { s with exec := .before, execs := s.execs + 1 }
    else none
  | .exec => s.execStep cfg
  | .handler => s.handlerStep cfg
  | .signal sig =>
    if s.notified then
      match s.sigBuf with
      | none => some { s with sigBuf := some sig }
      | some _ => some s
    else some { s with exit := some (.signaled sig) }

/-- A sequence of steps from `s`; `none` where one of them is not enabled. -/
def run (cfg : Config E W) (s : ProcState E W) : List ProcAction → Option (ProcState E W)
  | [] => some s
  | a :: as => (s.step cfg a).bind fun s' => s'.run cfg as

end ProcState

/-- The states a run of the process reaches, over any interleaving and any signals. -/
inductive ProcReachable {E W : Type} (cfg : Config E W) : ProcState E W → Prop where
  | init : ProcReachable cfg (ProcState.init cfg)
  | step {s s' : ProcState E W} (a : ProcAction) :
      ProcReachable cfg s → s.step cfg a = some s' → ProcReachable cfg s'

end Tcpdumpw
