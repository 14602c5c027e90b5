import Tcpdumpw.Proof.CreateTasks
import Tcpdumpw.Proof.Start
import Tcpdumpw.Spec.Process

/-!
# Runs of the process

Two invariants hold in every reachable state (`ProcReachable.inv`), each proved by one
lemma per action:

* `ProcState.CtlInv`: `signal.Notify` has run exactly when `main` is past line 374; `ctx` is
  cancelled only by the signal goroutine or as the process exits; the call of `start` in
  progress is a reachable run of `start` whose parent is cancelled when `ctx` is; once `main`
  has stored the job, `jid` and `jobs` find it; an execution runs only after that.
* `ProcState.LogInv`: `xid` is the current execution's minted id or `uuid.Nil`; the log holds
  one `"execution started"` per execution past `beforeTcpdump`'s log and one
  `"execution complete"` per execution past `afterTcpdump`'s, and no `"job not found"`.

The executor's steps are taken apart once, in `CtlInv.execStep_cases`. From the invariants:

* `call_refines_start`, `call_engines`: every call of `start` inside the process is a run of
  the model of `start`, so what `Tcpdumpw.Proof.Start` proves holds of it.
* `signal_exits_uncancelled`: until `signal.Notify` (in the whole one-shot path), a signal
  ends the process with `ctx` and the running engines' scope not cancelled.
* `executionStarted_xid_nil`: `"execution started"` always carries `uuid.Nil`;
  `log_xid_step`: every entry carries the current execution's id or `uuid.Nil`;
  `xid_nil_of_idle`: between executions `xid` is `uuid.Nil`.
* `tcpdump_finds_job`, `executions_matched`: `tcpdump` always finds the job, and the hooks'
  entries count the executions.
-/

namespace Tcpdumpw

/-- `main` took the scheduled branch of line 303. -/
def MainPc.cronPath : MainPc → Bool
  | .checkTasks | .logTimeout | .withCancel | .oneShot => false
  | _ => true

/-- `main` has stored the job in `jobs` (line 364). -/
def MainPc.stored : MainPc → Bool
  | .schedStart | .logNextRun | .notify | .goHandler | .waitDone | .stopJobs | .removeJob
  | .shutdown => true
  | _ => false

/-- `signal.Notify` has run (line 374). -/
def MainPc.notifiedAt : MainPc → Bool
  | .goHandler | .waitDone | .stopJobs | .removeJob | .shutdown => true
  | _ => false

/-- The signal goroutine has been started (line 375). -/
def MainPc.handlerStarted : MainPc → Bool
  | .waitDone | .stopJobs | .removeJob | .shutdown => true
  | _ => false

theorem MainPc.cronPath_of_notifiedAt {pc : MainPc} (h : pc.notifiedAt = true) :
    pc.cronPath = true := by
  cases pc <;> simp_all [notifiedAt, cronPath]

theorem MainPc.notifiedAt_of_handlerStarted {pc : MainPc} (h : pc.handlerStarted = true) :
    pc.notifiedAt = true := by
  cases pc <;> simp_all [notifiedAt, handlerStarted]

theorem MainPc.stored_of_schedulerRunning {pc : MainPc} (h : pc.schedulerRunning = true) :
    pc.stored = true := by
  cases pc <;> simp_all [schedulerRunning, stored]

/-- `beforeTcpdump` has not yet logged. -/
def ExecPc.isBefore {E W : Type} : ExecPc E W → Bool
  | .before => true
  | _ => false

/-- `afterTcpdump` has logged `"execution complete"`, or no execution is in progress. -/
def ExecPc.completed {E W : Type} : ExecPc E W → Bool
  | .idle | .afterNext _ | .afterReset => true
  | _ => false

/-- `"execution started ( last execution: %v )"` -/
def Msg.isExecutionStarted : Msg → Bool
  | .executionStarted _ => true
  | _ => false

/-- `"execution complete"` -/
def Msg.isExecutionComplete : Msg → Bool
  | .executionComplete => true
  | _ => false

/-- The entries of the hooks and of `tcpdump`'s error branch. -/
def Msg.isHook : Msg → Bool
  | .executionStarted _ | .executionComplete | .jobNotFound _ => true
  | _ => false

theorem Msg.isExecutionStarted_of_isHook {m : Msg} (h : m.isHook = false) :
    m.isExecutionStarted = false := by
  cases m <;> simp_all [isHook, isExecutionStarted]

theorem Msg.isExecutionComplete_of_isHook {m : Msg} (h : m.isHook = false) :
    m.isExecutionComplete = false := by
  cases m <;> simp_all [isHook, isExecutionComplete]

theorem Msg.ne_jobNotFound_of_isHook {m : Msg} (h : m.isHook = false) (id : UUID) :
    m ≠ .jobNotFound id := by
  rintro rfl; simp [isHook] at h

theorem Msg.isHook_of_isSetup {m : Msg} (h : m.isSetup = true) : m.isHook = false := by
  cases m <;> simp_all [isSetup, isHook]

/-- The entries logged before `createTasks` returns carry `uuid.Nil` and setup messages. -/
theorem Config.setupLog_isSetup {E W : Type} (cfg : Config E W) :
    ∀ e ∈ cfg.setupLog, e.xid = UUID.nil ∧ e.message.isSetup = true := by
  have h := createTasks_isSetup cfg.created
  simp only [Config.setupLog, List.mem_cons, List.mem_map]
  rintro e (rfl | ⟨l, hl, rfl⟩)
  · exact ⟨rfl, rfl⟩
  · exact ⟨rfl, h l hl⟩

theorem Config.setupLog_plain {E W : Type} (cfg : Config E W) :
    ∀ e ∈ cfg.setupLog, e.xid = UUID.nil ∧ e.message.isHook = false :=
  fun e he => (cfg.setupLog_isSetup e he).imp_right Msg.isHook_of_isSetup

namespace ProcState

variable {E W : Type} {cfg : Config E W} {s s' : ProcState E W}

@[simp] theorem jlog_log {sev : JLogLevel} {job : TcpdumpJob E W} {m : Msg} :
    (s.jlog cfg sev job m).log = s.log ++ [Tcpdumpw.jlog cfg.env s.xid sev job m] := rfl

@[simp] theorem jlog_xid' {sev : JLogLevel} {job : TcpdumpJob E W} {m : Msg} :
    (s.jlog cfg sev job m).xid = s.xid := rfl

@[simp] theorem jlog_execs {sev : JLogLevel} {job : TcpdumpJob E W} {m : Msg} :
    (s.jlog cfg sev job m).execs = s.execs := rfl

/-! ## What each step does -/

theorem exit_eq_none_of_step {a : ProcAction} (h : s.step cfg a = some s') : s.exit = none := by
  unfold step at h
  split at h
  · cases h
  · rename_i hx
    simpa using hx

theorem step_main (h : s.step cfg .main = some s') : s.mainStep cfg = some s' := by
  simpa [step, exit_eq_none_of_step h] using h

theorem step_start {a : StartAction} (h : s.step cfg (.start a) = some s') :
    a ≠ .cancelParent ∧ ∃ c st, s.call = some c ∧
      c.st.step (parseTimeout cfg.duration) c.tasks a = some st ∧ s' = { s with call := some { c with st } } := by
  have hx := exit_eq_none_of_step h
  rw [step, if_neg (by simp [hx])] at h
  split at h
  · cases h
  · rename_i ha
    refine ⟨ha, ?_⟩
    split at h
    · rename_i c hc
      obtain ⟨st, hst, rfl⟩ := Option.map_eq_some'.1 h
      exact ⟨c, st, hc, hst, rfl⟩
    · cases h

theorem step_trigger (h : s.step cfg .trigger = some s') :
    s.pc.schedulerRunning = true ∧ s.exec.isIdle = true ∧
      s' = { s with exec := .before, execs := s.execs + 1 } := by
  have hx := exit_eq_none_of_step h
  rw [step, if_neg (by simp [hx])] at h
  split at h
  · rename_i hr
    cases h
    simp only [Bool.and_eq_true] at hr
    exact ⟨hr.1, hr.2, rfl⟩
  · cases h

theorem step_exec (h : s.step cfg .exec = some s') : s.execStep cfg = some s' := by
  simpa [step, exit_eq_none_of_step h] using h

theorem step_handler (h : s.step cfg .handler = some s') : s.handlerStep cfg = some s' := by
  simpa [step, exit_eq_none_of_step h] using h

theorem step_signal {sig : Sig} (h : s.step cfg (.signal sig) = some s') :
    (s.notified = true ∧ (s' = { s with sigBuf := some sig } ∨ s' = s)) ∨
      (s.notified = false ∧ s' = { s with exit := some (.signaled sig) }) := by
  have hx := exit_eq_none_of_step h
  rw [step, if_neg (by simp [hx])] at h
  split at h
  · rename_i hn
    split at h <;> cases h
    · exact .inl ⟨hn, .inl rfl⟩
    · exact .inl ⟨hn, .inr rfl⟩
  · rename_i hn
    cases h
    exact .inr ⟨by simpa using hn, rfl⟩

/-! ## The control invariant -/

/-- How `main`, the signal goroutine and the call of `start` in progress relate. -/
structure CtlInv (cfg : Config E W) (s : ProcState E W) : Prop where
  cron_path : s.pc.cronPath = true → cfg.useCron = true
  notified_pc : s.notified = s.pc.notifiedAt
  handler_pc : s.handler ≠ .notStarted → s.pc.handlerStarted = true
  cancelled : s.ctxCancelled = true → s.exit.isSome ∨ s.handler = .done
  exit_signaled : ∀ sig, s.exit = some (.signaled sig) → s.notified = false
  exit_zero : s.exit = some (.code 0) → s.ctxCancelled = true
  call_reach : ∀ c, s.call = some c → StartReachable (parseTimeout cfg.duration) c.tasks c.st
  call_parent : ∀ c, s.call = some c → c.st.parentDone = s.ctxCancelled
  call_tasks : ∀ c, s.call = some c → c.tasks = cfg.tasks
  jid_stored : s.pc = .storeJob → ∀ j, s.sjob = some j → s.jid = j.id
  registered : s.pc.stored = true → ∃ j, s.sjob = some j ∧ s.jid = j.id ∧
    s.jobsLoad j.id = some s.job ∧ s.job.tasks = cfg.tasks
  exec_stored : s.exec.isIdle = false → s.pc.stored = true

theorem CtlInv.init : CtlInv cfg (init cfg) where
  cron_path := by simp [ProcState.init, MainPc.cronPath]
  notified_pc := rfl
  handler_pc := by simp [ProcState.init]
  cancelled := by simp [ProcState.init]
  exit_signaled := by simp [ProcState.init]
  exit_zero := by simp [ProcState.init]
  call_reach := by simp [ProcState.init]
  call_parent := by simp [ProcState.init]
  call_tasks := by simp [ProcState.init]
  jid_stored := by simp [ProcState.init]
  registered := by simp [ProcState.init, MainPc.stored]
  exec_stored := by simp [ProcState.init, ExecPc.isIdle]

/-- `main` moves to `pc'`, where the same parts of its path are behind it. -/
theorem CtlInv.move (hi : CtlInv cfg s) {pc : MainPc} (hpc : s.pc = pc) (pc' : MainPc)
    (hc : pc'.cronPath = pc.cronPath) (hn : pc'.notifiedAt = pc.notifiedAt)
    (hh : pc'.handlerStarted = pc.handlerStarted) (hs : pc'.stored = pc.stored)
    (hj : pc' ≠ .storeJob) : CtlInv cfg { s with pc := pc' } := by
  subst hpc
  exact { hi with
    cron_path := hc ▸ hi.cron_path
    notified_pc := hn ▸ hi.notified_pc
    handler_pc := hh ▸ hi.handler_pc
    jid_stored := fun h => absurd h hj
    registered := hs ▸ hi.registered
    exec_stored := hs ▸ hi.exec_stored }

/-- While the process runs and the handler has not cancelled it, `ctx` is live. -/
theorem CtlInv.live (hi : CtlInv cfg s) (hx : s.exit = none) (hh : s.handler ≠ .done) :
    s.ctxCancelled = false := by
  cases hc : s.ctxCancelled
  · rfl
  · simpa [hx, hh] using hi.cancelled hc

/-- `os.Exit(n)` with `n ≠ 0`. -/
theorem CtlInv.exit_code (hi : CtlInv cfg s) {n : ℕ} (hn : n ≠ 0) :
    CtlInv cfg { s with exit := some (.code n) } :=
  { hi with
    cancelled := fun _ => .inl rfl
    exit_signaled := by simp
    exit_zero := by simp [hn] }

/-- `cancel()` keeps every call of `start` a run of `start`, now with its parent cancelled. -/
theorem CtlInv.cancel_call (hi : CtlInv cfg s) :
    (∀ c, s.cancel.call = some c → StartReachable (parseTimeout cfg.duration) c.tasks c.st) ∧
      (∀ c, s.cancel.call = some c → c.st.parentDone = true) ∧
      (∀ c, s.cancel.call = some c → c.tasks = cfg.tasks) := by
  simp only [cancel, Option.map_eq_some']
  refine ⟨?_, ?_, ?_⟩ <;> rintro _ ⟨c, hc, rfl⟩
  · exact (hi.call_reach c hc).cancel
  · rfl
  · exact hi.call_tasks c hc

/-- The process exits with code `0` after `cancel()`. -/
theorem CtlInv.exit_cancel (hi : CtlInv cfg s) : CtlInv cfg { s.cancel with exit := some (.code 0) } := by
  obtain ⟨h1, h2, h3⟩ := hi.cancel_call
  exact { hi with
    cancelled := fun _ => .inl rfl
    exit_signaled := by simp
    exit_zero := fun _ => rfl
    call_reach := h1
    call_parent := h2
    call_tasks := h3 }

theorem CtlInv.main (hi : CtlInv cfg s) (hx : s.exit = none) (h : s.mainStep cfg = some s') :
    CtlInv cfg s' := by
  have hnot : s.pc.handlerStarted = false → s.handler = .notStarted := fun h => by
    by_contra hh
    simp [hi.handler_pc hh] at h
  have hidle : s.pc.stored = false → s.exec.isIdle = true := fun h => by
    cases he : s.exec.isIdle
    · simp [hi.exec_stored he] at h
    · rfl
  unfold mainStep at h
  split at h
  next hpc =>
    split at h
    · cases h; exact { hi.exit_code one_ne_zero with }
    · cases h; exact hi.move hpc .logTimeout rfl rfl rfl rfl nofun
  next hpc =>
    cases h
    exact { hi.move hpc .withCancel rfl rfl rfl rfl nofun with }
  next hpc =>
    split at h
    · cases h
      refine { hi.move hpc .oneShot rfl rfl rfl rfl nofun with
        call_reach := ?_
        call_parent := ?_
        call_tasks := ?_ } <;>
      rintro c ⟨⟩
      · exact StartReachable.init_any _
      · rfl
      · rfl
    · rename_i hc
      cases h
      exact { hi with
        cron_path := fun _ => by simpa using hc
        notified_pc := by rw [hi.notified_pc, hpc]; rfl
        handler_pc := by rw [hnot (by rw [hpc]; rfl)]; exact absurd rfl
        jid_stored := nofun
        registered := nofun
        exec_stored := fun he => by simpa [hpc, MainPc.stored] using hi.exec_stored he }
  next hpc =>
    split at h
    · split at h
      · cases h
        exact { hi with
          cancelled := fun _ => .inl rfl
          exit_signaled := by simp
          exit_zero := fun _ => rfl
          call_reach := nofun
          call_parent := nofun
          call_tasks := nofun }
      · cases h
    · cases h
  next hpc =>
    split at h <;> cases h <;>
      exact { hi.move hpc .newScheduler rfl rfl rfl rfl nofun with }
  next hpc =>
    split at h <;> cases h
    · exact { hi.exit_code two_ne_zero with }
    · exact hi.move hpc .newJob rfl rfl rfl rfl nofun
  next hpc =>
    split at h <;> cases h
    · exact { hi.exit_code (by decide : 3 ≠ 0) with }
    · exact { hi.move hpc .storeJid rfl rfl rfl rfl nofun with
        jid_stored := nofun
        registered := nofun }
  next hpc =>
    split at h <;> cases h
    rename_i j hj
    exact { hi with
      cron_path := fun _ => hi.cron_path (by rw [hpc]; rfl)
      notified_pc := by rw [hi.notified_pc, hpc]; rfl
      handler_pc := by rw [hnot (by rw [hpc]; rfl)]; exact absurd rfl
      jid_stored := fun _ j' hj' => by rw [hj] at hj'; cases hj'; rfl
      registered := nofun
      exec_stored := fun he => by simpa [hpc, MainPc.stored] using hi.exec_stored he }
  next hpc =>
    split at h <;> cases h
    rename_i j hj
    exact { hi with
      cron_path := fun _ => hi.cron_path (by rw [hpc]; rfl)
      notified_pc := by rw [hi.notified_pc, hpc]; rfl
      handler_pc := by rw [hnot (by rw [hpc]; rfl)]; exact absurd rfl
      jid_stored := nofun
      registered := fun _ => ⟨j, hj, hi.jid_stored hpc j hj, by simp [jobsLoad, ProcState.jlog], rfl⟩
      exec_stored := fun _ => rfl }
  next hpc =>
    cases h
    exact hi.move hpc .logNextRun rfl rfl rfl rfl nofun
  next hpc =>
    cases h
    exact { hi.move hpc .notify rfl rfl rfl rfl nofun with }
  next hpc =>
    cases h
    exact { hi with
      cron_path := fun _ => hi.cron_path (by rw [hpc]; rfl)
      notified_pc := rfl
      handler_pc := by rw [hnot (by rw [hpc]; rfl)]; exact absurd rfl
      exit_signaled := by simp [hx]
      jid_stored := nofun
      registered := fun _ => hi.registered (by rw [hpc]; rfl)
      exec_stored := fun _ => rfl }
  next hpc =>
    cases h
    have hc := hi.live hx (by rw [hnot (by rw [hpc]; rfl)]; nofun)
    exact { hi with
      cron_path := fun _ => hi.cron_path (by rw [hpc]; rfl)
      notified_pc := by rw [hi.notified_pc, hpc]; rfl
      handler_pc := fun _ => rfl
      cancelled := by simp [hc]
      jid_stored := nofun
      registered := fun _ => hi.registered (by rw [hpc]; rfl)
      exec_stored := fun _ => rfl }
  next hpc =>
    split at h <;> cases h
    exact hi.move hpc .stopJobs rfl rfl rfl rfl nofun
  next hpc =>
    cases h
    exact hi.move hpc .removeJob rfl rfl rfl rfl nofun
  next hpc =>
    cases h
    exact hi.move hpc .shutdown rfl rfl rfl rfl nofun
  next hpc =>
    cases h
    exact hi.exit_cancel

theorem CtlInv.start (hi : CtlInv cfg s) {a : StartAction} (h : s.step cfg (.start a) = some s') :
    CtlInv cfg s' := by
  obtain ⟨ha, c, st, hc, hst, rfl⟩ := step_start h
  exact { hi with
    call_reach := fun _ h' => by cases h'; exact .step a (hi.call_reach c hc) hst
    call_parent := fun _ h' => by cases h'; exact (StartState.step_parentDone ha hst).trans (hi.call_parent c hc)
    call_tasks := fun _ h' => by cases h'; exact hi.call_tasks c hc }

theorem CtlInv.trigger (hi : CtlInv cfg s) (h : s.step cfg .trigger = some s') : CtlInv cfg s' := by
  obtain ⟨hr, -, rfl⟩ := step_trigger h
  exact { hi with exec_stored := fun _ => MainPc.stored_of_schedulerRunning hr }

/-- The executor at a point other than `idle` moves to `e`. -/
theorem CtlInv.with_exec (hi : CtlInv cfg s) (he : s.exec.isIdle = false) (e : ExecPc E W) :
    CtlInv cfg { s with exec := e } :=
  { hi with exec_stored := fun _ => hi.exec_stored he }

/-- `tcpdump` finds the job it looks up: the one `main` stored, with `main`'s tasks. -/
theorem CtlInv.jobsLoad_jid (hi : CtlInv cfg s) (he : s.exec.isIdle = false) :
    ∃ j, s.sjob = some j ∧ s.jid = j.id ∧ s.jobsLoad j.id = some s.job ∧ s.job.tasks = cfg.tasks :=
  hi.registered (hi.exec_stored he)

/-- **What a statement of the executor does**, once `main` has registered the job: each
listener and `tcpdump` find it. -/
theorem CtlInv.execStep_cases (hi : CtlInv cfg s) (h : s.execStep cfg = some s') :
    (s.exec = .before ∧
      s' = { s.jlog cfg .info s.job (.executionStarted (cfg.lastRun s.execs)) with exec := .mint }) ∨
    (s.exec = .mint ∧ s' = { s with exec := .task, xid := newRandom (cfg.random s.execs) }) ∨
    (s.exec = .task ∧ s' = { s with exec := .running, call := some (s.newCall s.job.tasks) }) ∨
    (s.exec = .running ∧ (∃ c, s.call = some c ∧ c.st.pc = .returned) ∧
      s' = { s with exec := .afterLog, call := none }) ∨
    (s.exec = .afterLog ∧
      s' = { s.jlog cfg .info s.job .executionComplete with exec := .afterNext s.job }) ∨
    (∃ job, s.exec = .afterNext job ∧
      s' = { s.jlog cfg .info job (.nextExecution (cfg.nextRun s.execs)) with exec := .afterReset }) ∨
    (s.exec = .afterReset ∧ s' = { s with exec := .idle, xid := UUID.nil }) := by
  obtain ⟨j, hj, hjid, hl, -⟩ := hi.jobsLoad_jid (by
    cases he : s.exec <;> cases hj : s.sjob <;> simp_all [execStep, ExecPc.isIdle])
  have hl' : s.jobsLoad s.jid = some s.job := hjid ▸ hl
  rw [execStep, hj] at h
  cases he : s.exec <;>
    simp only [he, beforeTcpdump, tcpdump, afterTcpdump, hl, hl', Option.some.injEq] at h
  case idle => cases h
  case before => exact .inl ⟨rfl, h.symm⟩
  case mint => exact .inr <| .inl ⟨rfl, h.symm⟩
  case task => exact .inr <| .inr <| .inl ⟨rfl, h.symm⟩
  case running =>
    split at h
    · rename_i c hc
      split at h
      · exact .inr <| .inr <| .inr <| .inl ⟨rfl, ⟨c, hc, ‹_›⟩, (Option.some.inj h).symm⟩
      · cases h
    · cases h
  case afterLog => exact .inr <| .inr <| .inr <| .inr <| .inl ⟨rfl, h.symm⟩
  case afterNext job => exact .inr <| .inr <| .inr <| .inr <| .inr <| .inl ⟨job, rfl, h.symm⟩
  case afterReset => exact .inr <| .inr <| .inr <| .inr <| .inr <| .inr ⟨rfl, h.symm⟩

theorem CtlInv.exec (hi : CtlInv cfg s) (h : s.step cfg .exec = some s') : CtlInv cfg s' := by
  rcases hi.execStep_cases (step_exec h) with ⟨he, rfl⟩ | ⟨he, rfl⟩ | ⟨he, rfl⟩ | ⟨he, -, rfl⟩ |
    ⟨he, rfl⟩ | ⟨job, he, rfl⟩ | ⟨he, rfl⟩
  · exact { hi.with_exec (by rw [he]; rfl) .mint with }
  · exact { hi.with_exec (by rw [he]; rfl) .task with }
  · obtain ⟨-, -, -, -, htasks⟩ := hi.jobsLoad_jid (by rw [he]; rfl)
    exact { hi.with_exec (by rw [he]; rfl) .running with
      call_reach := fun _ h' => by cases h'; exact StartReachable.init_any _
      call_parent := fun _ h' => by cases h'; rfl
      call_tasks := fun _ h' => by cases h'; exact htasks }
  · exact { hi.with_exec (by rw [he]; rfl) .afterLog with
      call_reach := nofun
      call_parent := nofun
      call_tasks := nofun }
  · exact { hi.with_exec (by rw [he]; rfl) (.afterNext _) with }
  · exact { hi.with_exec (by rw [he]; rfl) .afterReset with }
  · exact { hi.with_exec (by rw [he]; rfl) .idle with }

theorem CtlInv.handler (hi : CtlInv cfg s) (h : s.step cfg .handler = some s') : CtlInv cfg s' := by
  have hx := exit_eq_none_of_step h
  have h := step_handler h
  unfold handlerStep at h
  split at h
  next hh =>
    split at h <;> cases h
    have hc := hi.live hx (by rw [hh]; nofun)
    exact { hi with
      handler_pc := fun _ => hi.handler_pc (by rw [hh]; nofun)
      cancelled := by simp [hc] }
  next sig hh =>
    cases h
    have hc := hi.live hx (by rw [hh]; nofun)
    exact { hi with
      handler_pc := fun _ => hi.handler_pc (by rw [hh]; nofun)
      cancelled := by simp [hc, ProcState.jlog] }
  next hh =>
    cases h
    obtain ⟨h1, h2, h3⟩ := hi.cancel_call
    exact { hi with
      handler_pc := fun _ => hi.handler_pc (by rw [hh]; nofun)
      cancelled := fun _ => .inr rfl
      exit_signaled := by simp [cancel, hx]
      exit_zero := fun _ => rfl
      call_reach := h1
      call_parent := h2
      call_tasks := h3 }
  next => cases h

theorem CtlInv.signal (hi : CtlInv cfg s) {sig : Sig} (h : s.step cfg (.signal sig) = some s') :
    CtlInv cfg s' := by
  rcases step_signal h with ⟨-, rfl | rfl⟩ | ⟨hn, rfl⟩
  · exact { hi with }
  · exact hi
  · exact { hi with
      cancelled := fun _ => .inl rfl
      exit_signaled := fun _ _ => hn
      exit_zero := by simp }

/-- **Every step keeps the control invariant.** -/
theorem CtlInv.step (hi : CtlInv cfg s) {a : ProcAction} (h : s.step cfg a = some s') :
    CtlInv cfg s' := by
  cases a with
  | main => exact hi.main (exit_eq_none_of_step h) (step_main h)
  | start a => exact hi.start h
  | trigger => exact hi.trigger h
  | exec => exact hi.exec h
  | handler => exact hi.handler h
  | signal sig => exact hi.signal h

/-! ## The log and the execution id -/

/-- A step logs entries stamped with the `xid` it read, none of them a hook's. -/
def LogsPlain (s s' : ProcState E W) : Prop :=
  s.log <+: s'.log ∧ ∀ e ∈ s'.log.drop s.log.length, e.xid = s.xid ∧ e.message.isHook = false

/-- What `main`'s statements leave alone: the executor, `xid`, and the hooks' entries. -/
theorem mainStep_frame (h : s.mainStep cfg = some s') :
    s'.xid = s.xid ∧ s'.exec = s.exec ∧ s'.execs = s.execs ∧ LogsPlain s s' := by
  unfold mainStep at h
  split at h <;> (repeat' split at h) <;> cases h <;>
    exact ⟨rfl, rfl, rfl, by simp [LogsPlain, cancel, Msg.isHook]⟩

theorem handlerStep_frame (h : s.handlerStep cfg = some s') :
    s'.xid = s.xid ∧ s'.exec = s.exec ∧ s'.execs = s.execs ∧ LogsPlain s s' := by
  unfold handlerStep at h
  split at h <;> (repeat' split at h) <;> cases h <;>
    exact ⟨rfl, rfl, rfl, by simp [LogsPlain, cancel, Msg.isHook]⟩

/-- How the execution id and the hooks' entries follow the executor. -/
structure LogInv (cfg : Config E W) (s : ProcState E W) : Prop where
  xid_eq : s.xid = if s.exec.minted then newRandom (cfg.random s.execs) else UUID.nil
  started_nil : ∀ e ∈ s.log, e.message.isExecutionStarted = true → e.xid = UUID.nil
  found : ∀ e ∈ s.log, ∀ id, e.message ≠ .jobNotFound id
  count_started : s.log.countP (fun e => e.message.isExecutionStarted) +
    (if s.exec.isBefore then 1 else 0) = s.execs
  count_complete : s.log.countP (fun e => e.message.isExecutionComplete) +
    (if s.exec.completed then 0 else 1) = s.execs

theorem LogInv.init : LogInv cfg (init cfg) where
  xid_eq := by simp [ProcState.init, ExecPc.minted]
  started_nil := fun e he _ => (cfg.setupLog_plain e he).1
  found := fun e he => Msg.ne_jobNotFound_of_isHook (cfg.setupLog_plain e he).2
  count_started := by
    simpa [ProcState.init, ExecPc.isBefore] using fun e he =>
      Msg.isExecutionStarted_of_isHook (cfg.setupLog_plain e he).2
  count_complete := by
    simpa [ProcState.init, ExecPc.completed] using fun e he =>
      Msg.isExecutionComplete_of_isHook (cfg.setupLog_plain e he).2

/-- A step that keeps the executor's phase and `xid`, and logs no hook's entry, keeps the
invariant. -/
theorem LogInv.plain (hi : LogInv cfg s) (hx : s'.xid = s.xid) (hm : s'.exec.minted = s.exec.minted)
    (hb : s'.exec.isBefore = s.exec.isBefore) (hc : s'.exec.completed = s.exec.completed)
    (hn : s'.execs = s.execs) (hl : LogsPlain s s') : LogInv cfg s' := by
  obtain ⟨hpre, hnew⟩ := hl
  have hlog := (List.prefix_iff_eq_append.1 hpre).symm
  set new := s'.log.drop s.log.length
  have hs : new.countP (fun e => e.message.isExecutionStarted) = 0 :=
    List.countP_eq_zero.2 fun e he => by simp [Msg.isExecutionStarted_of_isHook (hnew e he).2]
  have hd : new.countP (fun e => e.message.isExecutionComplete) = 0 :=
    List.countP_eq_zero.2 fun e he => by simp [Msg.isExecutionComplete_of_isHook (hnew e he).2]
  refine ⟨by rw [hx, hm, hn]; exact hi.xid_eq, ?_, ?_, ?_, ?_⟩
  · intro e he' hst
    rw [hlog] at he'
    rcases List.mem_append.1 he' with h | h
    · exact hi.started_nil e h hst
    · simp [Msg.isExecutionStarted_of_isHook (hnew e h).2] at hst
  · intro e he' id
    rw [hlog] at he'
    rcases List.mem_append.1 he' with h | h
    · exact hi.found e h id
    · exact Msg.ne_jobNotFound_of_isHook (hnew e h).2 id
  · rw [hlog, List.countP_append, hs, hb, hn]; exact hi.count_started
  · rw [hlog, List.countP_append, hd, hc, hn]; exact hi.count_complete

theorem LogsPlain.refl (s s' : ProcState E W) (h : s'.log = s.log) : LogsPlain s s' := by
  simp [LogsPlain, h]

theorem LogInv.trigger (hi : LogInv cfg s) (h : s.step cfg .trigger = some s') : LogInv cfg s' := by
  obtain ⟨-, hidle, rfl⟩ := step_trigger h
  have he : s.exec = .idle := by cases he : s.exec <;> simp_all [ExecPc.isIdle]
  have hx := hi.xid_eq
  have hs := hi.count_started
  have hc := hi.count_complete
  rw [he] at hx hs hc
  refine ⟨by simpa [ExecPc.minted] using hx, hi.started_nil, hi.found, ?_, ?_⟩
  · simp [ExecPc.isBefore] at hs ⊢; omega
  · simp [ExecPc.completed] at hc ⊢; omega

theorem LogInv.exec (hc : CtlInv cfg s) (hi : LogInv cfg s) (h : s.step cfg .exec = some s') :
    LogInv cfg s' := by
  have hx := hi.xid_eq
  have hs := hi.count_started
  have hd := hi.count_complete
  rcases hc.execStep_cases (step_exec h) with ⟨he, rfl⟩ | ⟨he, rfl⟩ | ⟨he, rfl⟩ | ⟨he, -, rfl⟩ |
    ⟨he, rfl⟩ | ⟨job, he, rfl⟩ | ⟨he, rfl⟩
  · -- `beforeTcpdump` logs `"execution started"` while `xid` holds `uuid.Nil`
    rw [he] at hx hs hd
    have hnil : s.xid = UUID.nil := by simpa [ExecPc.minted] using hx
    refine ⟨by simpa [ExecPc.minted] using hnil,
      List.forall_mem_append.2 ⟨hi.started_nil, by simp [Msg.isExecutionStarted, hnil]⟩,
      List.forall_mem_append.2 ⟨hi.found, by simp⟩, ?_, ?_⟩
    · simp [List.countP_append, ExecPc.isBefore, Msg.isExecutionStarted] at hs ⊢; omega
    · simpa [List.countP_append, ExecPc.completed, Msg.isExecutionComplete] using hd
  · -- `xid.Store(uuid.New())`
    rw [he] at hs hd
    exact ⟨by simp [ExecPc.minted], hi.started_nil, hi.found, by simpa [ExecPc.isBefore] using hs,
      by simpa [ExecPc.completed] using hd⟩
  · exact hi.plain rfl (by rw [he]; rfl) (by rw [he]; rfl) (by rw [he]; rfl) rfl (.refl _ _ rfl)
  · exact hi.plain rfl (by rw [he]; rfl) (by rw [he]; rfl) (by rw [he]; rfl) rfl (.refl _ _ rfl)
  · -- `afterTcpdump` logs `"execution complete"`
    rw [he] at hx hs hd
    refine ⟨by simpa [ExecPc.minted] using hx,
      List.forall_mem_append.2 ⟨hi.started_nil, by simp [Msg.isExecutionStarted]⟩,
      List.forall_mem_append.2 ⟨hi.found, by simp⟩, ?_, ?_⟩
    · simpa [List.countP_append, ExecPc.isBefore, Msg.isExecutionStarted] using hs
    · simp [List.countP_append, ExecPc.completed, Msg.isExecutionComplete] at hd ⊢; omega
  · exact hi.plain rfl (by rw [he]; rfl) (by rw [he]; rfl) (by rw [he]; rfl) rfl
      (by simp [LogsPlain, Msg.isHook])
  · -- `xid.Store(uuid.Nil)`
    rw [he] at hs hd
    exact ⟨by simp [ExecPc.minted], hi.started_nil, hi.found, by simpa [ExecPc.isBefore] using hs,
      by simpa [ExecPc.completed] using hd⟩

theorem LogInv.step (hc : CtlInv cfg s) (hi : LogInv cfg s) {a : ProcAction}
    (h : s.step cfg a = some s') : LogInv cfg s' := by
  cases a with
  | main =>
    obtain ⟨hx, he, hn, hl⟩ := mainStep_frame (step_main h)
    exact hi.plain hx (by rw [he]) (by rw [he]) (by rw [he]) hn hl
  | start a =>
    obtain ⟨-, c, st, -, -, rfl⟩ := step_start h
    exact hi.plain rfl rfl rfl rfl rfl (.refl _ _ rfl)
  | trigger => exact hi.trigger h
  | exec => exact hi.exec hc h
  | handler =>
    obtain ⟨hx, he, hn, hl⟩ := handlerStep_frame (step_handler h)
    exact hi.plain hx (by rw [he]) (by rw [he]) (by rw [he]) hn hl
  | signal sig =>
    rcases step_signal h with ⟨-, rfl | rfl⟩ | ⟨-, rfl⟩
    · exact hi.plain rfl rfl rfl rfl rfl (.refl _ _ rfl)
    · exact hi
    · exact hi.plain rfl rfl rfl rfl rfl (.refl _ _ rfl)

/-- The executor changes only its point, `xid`, the call of `start` and the log. -/
theorem execStep_frame (h : s.execStep cfg = some s') :
    s' = { s with exec := s'.exec, xid := s'.xid, call := s'.call, log := s'.log } := by
  unfold execStep beforeTcpdump tcpdump afterTcpdump at h
  split at h <;> (repeat' split at h) <;> cases h <;> rfl

theorem execStep_log (h : s.execStep cfg = some s') :
    s.log <+: s'.log ∧ ∀ e ∈ s'.log.drop s.log.length, e.xid = s.xid := by
  unfold execStep beforeTcpdump tcpdump afterTcpdump at h
  split at h <;> (repeat' split at h) <;> cases h <;> simp

/-- Every step only appends to the log, entries stamped with the `xid` it read. -/
theorem step_log {a : ProcAction} (h : s.step cfg a = some s') :
    s.log <+: s'.log ∧ ∀ e ∈ s'.log.drop s.log.length, e.xid = s.xid := by
  have plain : LogsPlain s s' → s.log <+: s'.log ∧ ∀ e ∈ s'.log.drop s.log.length, e.xid = s.xid :=
    fun ⟨hp, he⟩ => ⟨hp, fun e h => (he e h).1⟩
  cases a with
  | main => exact plain (mainStep_frame (step_main h)).2.2.2
  | start a =>
    obtain ⟨-, c, st, -, -, rfl⟩ := step_start h
    exact plain (.refl _ _ rfl)
  | trigger =>
    obtain ⟨-, -, rfl⟩ := step_trigger h
    exact plain (.refl _ _ rfl)
  | exec => exact execStep_log (step_exec h)
  | handler => exact plain (handlerStep_frame (step_handler h)).2.2.2
  | signal sig =>
    rcases step_signal h with ⟨-, rfl | rfl⟩ | ⟨-, rfl⟩ <;> exact plain (.refl _ _ rfl)

end ProcState

open ProcState

/-- **Every reachable state of the process satisfies both invariants.** -/
theorem ProcReachable.inv {E W : Type} {cfg : Config E W} {s : ProcState E W}
    (h : ProcReachable cfg s) : CtlInv cfg s ∧ LogInv cfg s := by
  induction h with
  | init => exact ⟨.init, .init⟩
  | step a _ hs ih => exact ⟨ih.1.step hs, ih.2.step ih.1 hs⟩

theorem ProcReachable.run {E W : Type} {cfg : Config E W} {s s' : ProcState E W}
    (h : ProcReachable cfg s) (as : List ProcAction) (hr : s.run cfg as = some s') :
    ProcReachable cfg s' := by
  induction as generalizing s with
  | nil => cases hr; exact h
  | cons a as ih =>
    simp only [ProcState.run, Option.bind_eq_some] at hr
    obtain ⟨s₁, h₁, hr⟩ := hr
    exact ih (h.step a h₁) hr

/-! ## Runs replayed step by step

A one-shot run on one interface and on two, and a scheduled run through its first
execution. -/

/-- `-tcpdump` alone: each interface gets its raw task. -/
def tcpdumpOnly : Flags := { jsondumpOnly with tcpdump := true, jsondump := false }

/-- An interface `eth1` on which every call succeeds; engine and writer are `()`. -/
def eth1 : DeviceRun Unit Unit := { eth0 with iface := "eth1", interfaceByName := .ok ⟨3, "eth1"⟩ }

/-- A one-shot run: no `-use_cron`, `-timeout=0`, `PCAP_IFACE=eth` on a host with `eth0`. -/
def oneShotCfg : Config Unit Unit :=
  { useCron := false, cronExp := "", duration := 0, flags := tcpdumpOnly, ifacePattern := "eth",
    host := [eth0], tasks := oneTask,
    taskLog := [(.info, .configuring "2/eth0"), (.info, .configuredTcpdump "2/eth0")],
    created := rfl, env := ⟨"", ""⟩, location := .ok "UTC", scheduler := .ok (),
    newJob := .ok ⟨1, "tcpdump", []⟩, lastRun := fun _ => 0, nextRun := fun _ => 0,
    random := fun _ => 0 }

/-- `main` to `start`, `start` to `<-ctx.Done()`, then the goroutine's call of `engine.Start`. -/
def capturingRun : List ProcAction :=
  [.main, .main, .main, .start .main, .start .main, .start .main, .start .main, .start (.call 0)]

/-- The one-shot run once its goroutine has called `engine.Start`. -/
def capturing : ProcState Unit Unit :=
  ((ProcState.init oneShotCfg).run oneShotCfg capturingRun).getD (ProcState.init oneShotCfg)

theorem capturing_reachable : ProcReachable oneShotCfg capturing :=
  ProcReachable.init.run capturingRun rfl

/-- The call of `start` in progress at `capturing`. -/
def capturingCall : StartCall Unit Unit := capturing.call.getD ⟨[], StartState.init false⟩

/-- The one-shot run on a host with `eth0` and `eth1`: two tasks. -/
def twoCfg : Config Unit Unit :=
  { oneShotCfg with
    host := [eth0, eth1], tasks := twoTasks,
    taskLog := [(.info, .configuring "2/eth0"), (.info, .configuredTcpdump "2/eth0"),
      (.info, .configuring "3/eth1"), (.info, .configuredTcpdump "3/eth1")],
    created := rfl }

/-- `main` to `start`, `start` to `<-ctx.Done()`, then both goroutines' calls of
`engine.Start`, the second goroutine's first. -/
def bothCapturingRun : List ProcAction :=
  [.main, .main, .main, .start .main, .start .main, .start .main, .start .main, .start .main,
    .start (.call 1), .start (.call 0)]

def bothCapturing : ProcState Unit Unit :=
  ((ProcState.init twoCfg).run twoCfg bothCapturingRun).getD (ProcState.init twoCfg)

/-- The call of `start` in progress at `bothCapturing`. -/
def bothCapturingCall : StartCall Unit Unit := bothCapturing.call.getD ⟨[], StartState.init false⟩

/-- A scheduled run: `-use_cron -timeout=1`, one task; every call to the outside succeeds. -/
def cronCfg : Config Unit Unit :=
  { oneShotCfg with useCron := true, duration := 1, random := fun k => k }

/-- `main` to `s.Start()` and past it, then the first trigger. -/
def triggeredRun : List ProcAction :=
  [.main, .main, .main, .main, .main, .main, .main, .main, .main, .trigger]

/-- The scheduled run once the first trigger has fired. -/
def triggered : ProcState Unit Unit :=
  ((ProcState.init cronCfg).run cronCfg triggeredRun).getD (ProcState.init cronCfg)

theorem triggered_reachable : ProcReachable cronCfg triggered :=
  ProcReachable.init.run triggeredRun rfl

/-- The scheduled run once the first `beforeTcpdump` has logged `"execution started"`. -/
def firstStarted : ProcState Unit Unit := (triggered.step cronCfg .exec).getD triggered

theorem firstStarted_reachable : ProcReachable cronCfg firstStarted :=
  .step .exec triggered_reachable rfl

/-- The first execution past `beforeTcpdump`: `tcpdump` calls `start`, the engine returns, the
deadline passes, `start` returns, and `tcpdump` with it. -/
def finishingRun : List ProcAction :=
  [.exec, .exec, .exec, .start .main, .start .main, .start .main, .start .main, .start (.call 0),
    .start (.ret 0), .start (.done 0), .start .deadline, .start .main, .start .main, .exec]

/-- The scheduled run at `afterTcpdump`, which has yet to log `"execution complete"`. -/
def finishing : ProcState Unit Unit := (triggered.run cronCfg finishingRun).getD triggered

theorem finishing_reachable : ProcReachable cronCfg finishing :=
  triggered_reachable.run finishingRun rfl

/-- The scheduled run once `afterTcpdump` has reset `xid`: the first execution is over. -/
def executed : ProcState Unit Unit := (finishing.run cronCfg [.exec, .exec, .exec]).getD finishing

section Runs

variable {E W : Type} {cfg : Config E W} {s : ProcState E W}

theorem ProcReachable.call_start (h : ProcReachable cfg s) {c : StartCall E W}
    (hc : s.call = some c) : StartReachable (parseTimeout cfg.duration) cfg.tasks c.st :=
  h.inv.1.call_tasks c hc ▸ h.inv.1.call_reach c hc

/-- **The process runs `start` as the model of `start` does.** The call of `start` in progress
in a reachable state of the process, the one-shot call or an execution's, is a reachable state
of `start` on `main`'s tasks and the timeout of line 296, and its parent is cancelled exactly
when `ctx` is. -/
theorem call_refines_start (h : ProcReachable cfg s) {c : StartCall E W} (hc : s.call = some c) :
    c.tasks = cfg.tasks ∧ StartReachable (parseTimeout cfg.duration) cfg.tasks c.st ∧
      c.st.parentDone = s.ctxCancelled :=
  ⟨h.inv.1.call_tasks c hc, h.call_start hc, h.inv.1.call_parent c hc⟩

theorem call_refines_start_capturing :
    ProcReachable oneShotCfg capturing ∧ capturing.call = some capturingCall ∧
      capturingCall.tasks = oneShotCfg.tasks ∧
      StartReachable (parseTimeout oneShotCfg.duration) oneShotCfg.tasks capturingCall.st ∧
      capturingCall.st.parentDone = capturing.ctxCancelled :=
  ⟨capturing_reachable, rfl, call_refines_start capturing_reachable rfl⟩

/-- Every `engine.Start` that a call of `start` in the process has made is a distinct task's,
with that task's engine and writers, in the scope `timeout` gives. -/
theorem call_engines (h : ProcReachable cfg s) {c : StartCall E W} (hc : s.call = some c) :
    (c.st.calls.map (·.worker)).Nodup ∧ ∀ e ∈ c.st.calls, ∃ t, cfg.tasks[e.worker]? = some t ∧
      e.ctx = execScope (parseTimeout cfg.duration) ∧ e.engine = t.engine ∧ e.writers = t.writers := by
  have hs := (h.call_start hc).ok
  exact ⟨hs.calls_nodup, hs.calls_task⟩

theorem call_engines_bothCapturing :
    ProcReachable twoCfg bothCapturing ∧ bothCapturing.call = some bothCapturingCall ∧
      bothCapturingCall.st.calls.map (·.worker) = [1, 0] ∧
      (bothCapturingCall.st.calls.map (·.worker)).Nodup ∧ ∀ e ∈ bothCapturingCall.st.calls,
        ∃ t, twoCfg.tasks[e.worker]? = some t ∧ e.ctx = execScope (parseTimeout twoCfg.duration) ∧
          e.engine = t.engine ∧ e.writers = t.writers :=
  have reach : ProcReachable twoCfg bothCapturing := ProcReachable.init.run bothCapturingRun rfl
  ⟨reach, rfl, rfl, call_engines reach rfl⟩

/-! ## Signals -/

/-- Until `signal.Notify` has run, `ctx` is not cancelled while the process runs. -/
theorem ctxCancelled_eq_false (h : ProcReachable cfg s) (hx : s.exit = none)
    (hn : s.notified = false) : s.ctxCancelled = false := by
  have hi := h.inv.1
  refine hi.live hx fun hd => ?_
  have := MainPc.notifiedAt_of_handlerStarted (hi.handler_pc (by simp [hd]))
  rw [← hi.notified_pc, hn] at this
  cases this

/-- **Until `signal.Notify` has run, a signal ends the process with `ctx` not cancelled.** In
every reachable state before line 374 (so in every state of the one-shot path), `SIGINT` or
`SIGTERM` ends the process by Go's default action, and neither `ctx` nor the scope of the call
of `start` in progress is cancelled. -/
theorem signal_exits_uncancelled (h : ProcReachable cfg s) (hx : s.exit = none)
    (hn : s.notified = false) (sig : Sig) :
    ∃ s', s.step cfg (.signal sig) = some s' ∧ s'.exit = some (.signaled sig) ∧
      s'.ctxCancelled = false ∧ ∀ c, s'.call = some c → c.st.parentDone = false := by
  have hc := ctxCancelled_eq_false h hx hn
  refine ⟨{ s with exit := some (.signaled sig) }, by simp [ProcState.step, hx, hn], rfl, hc, ?_⟩
  intro c hcall
  rw [h.inv.1.call_parent c hcall, hc]

/-- While the engine of a one-shot run captures, `SIGTERM` ends the process with `ctx` and the
engine's scope not cancelled. -/
theorem signal_exits_uncancelled_capturing :
    ProcReachable oneShotCfg capturing ∧ capturing.exit = none ∧ capturing.notified = false ∧
      capturingCall.st.calls.length = 1 ∧
      ∃ s', capturing.step oneShotCfg (.signal .term) = some s' ∧ s'.exit = some (.signaled .term) ∧
        s'.ctxCancelled = false ∧ ∀ c, s'.call = some c → c.st.parentDone = false :=
  ⟨capturing_reachable, rfl, rfl, rfl, signal_exits_uncancelled capturing_reachable rfl rfl .term⟩

/-! ## Executions and their id -/

/-- **`"execution started"` is logged with `uuid.Nil`.** `beforeTcpdump` logs it (line 123)
before it stores the new execution id (line 125), while `xid` still holds `uuid.Nil`. -/
theorem executionStarted_xid_nil (h : ProcReachable cfg s) :
    ∀ e ∈ s.log, e.message.isExecutionStarted = true → e.xid = UUID.nil :=
  h.inv.2.started_nil

theorem executionStarted_xid_nil_first :
    ProcReachable cronCfg firstStarted ∧
      (∃ e ∈ firstStarted.log, e.message.isExecutionStarted = true) ∧
      ∀ e ∈ firstStarted.log, e.message.isExecutionStarted = true → e.xid = UUID.nil :=
  ⟨firstStarted_reachable, by decide, executionStarted_xid_nil firstStarted_reachable⟩

/-- **`tcpdump` always finds its job.** No `"job[id:%s] not found"` entry is ever logged, and
while an execution is in progress, `jobs.Load(jid.Load())` returns the job `main` stored, with
`main`'s tasks. -/
theorem tcpdump_finds_job (h : ProcReachable cfg s) :
    (∀ e ∈ s.log, ∀ id, e.message ≠ .jobNotFound id) ∧
      (s.exec.isIdle = false → s.jobsLoad s.jid = some s.job ∧ s.job.tasks = cfg.tasks) := by
  refine ⟨h.inv.2.found, fun he => ?_⟩
  obtain ⟨j, -, hjid, hload, htasks⟩ := h.inv.1.jobsLoad_jid he
  exact ⟨hjid ▸ hload, htasks⟩

theorem tcpdump_finds_job_first :
    ProcReachable cronCfg firstStarted ∧ firstStarted.exec.isIdle = false ∧
      (∀ e ∈ firstStarted.log, ∀ id, e.message ≠ .jobNotFound id) ∧
      (firstStarted.exec.isIdle = false → firstStarted.jobsLoad firstStarted.jid = some firstStarted.job ∧
        firstStarted.job.tasks = cronCfg.tasks) :=
  ⟨firstStarted_reachable, rfl, tcpdump_finds_job firstStarted_reachable⟩

/-- **`xid` is `uuid.Nil` whenever no execution is in progress.** -/
theorem xid_nil_of_idle (h : ProcReachable cfg s) (he : s.exec.isIdle = true) :
    s.xid = UUID.nil := by
  rw [h.inv.2.xid_eq]
  cases hs : s.exec <;> simp_all [ExecPc.isIdle, ExecPc.minted]

/-- After the first execution, whose id was minted and used, `xid` is back to `uuid.Nil`. -/
theorem xid_nil_of_idle_executed :
    ProcReachable cronCfg executed ∧ executed.execs = 1 ∧ finishing.xid = newRandom 1 ∧
      executed.exec.isIdle = true ∧ executed.xid = UUID.nil :=
  have reach : ProcReachable cronCfg executed := finishing_reachable.run [.exec, .exec, .exec] rfl
  ⟨reach, rfl, rfl, rfl, xid_nil_of_idle reach rfl⟩

end Runs

end Tcpdumpw
