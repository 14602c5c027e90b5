import Tcpdumpw.Proof.Lifecycle

/-!
# Shutting down

* `signal_shuts_down`: once `signal.Notify` has run, a signal lets the process exit with
  code `0` through steps of `main` and of the signal goroutine alone, whatever the executor
  and the engines do: the goroutine logs and cancels `ctx`, and `main` passes
  `<-ctx.Done()`, `StopJobs`, `RemoveJob` and `Shutdown`.
* `cron_exits_on_signal`: with `-use_cron`, the process exits with code `0` only after the
  signal goroutine has received a signal and logged it.
* `execution_ends_after_cancel`: once `ctx` is cancelled, the execution in progress can end
  through the executor's and `start`'s own steps: its call of `start` runs on the cancelled
  `ctx` and returns.
-/

namespace Tcpdumpw

/-- `main` is past `<-ctx.Done()` (line 382). -/
def MainPc.stopping : MainPc → Bool
  | .stopJobs | .removeJob | .shutdown => true
  | _ => false

theorem MainPc.handlerStarted_of_notifiedAt {pc : MainPc} (h : pc.notifiedAt = true)
    (hg : pc ≠ .goHandler) : pc.handlerStarted = true := by
  cases pc <;> simp_all [notifiedAt, handlerStarted]

open ProcState

variable {E W : Type} {cfg : Config E W} {s : ProcState E W}

/-! ## Shutting down on a signal -/

namespace ProcState

variable {s' : ProcState E W}

/-- How `main` and the signal goroutine relate on the way out. -/
structure ShutInv (s : ProcState E W) : Prop where
  started : s.pc.handlerStarted = true → s.handler ≠ .notStarted
  done_cancelled : s.handler = .done → s.ctxCancelled = true
  stop_cancelled : s.pc.stopping = true → s.ctxCancelled = true

theorem ShutInv.init : ShutInv (ProcState.init cfg) where
  started := nofun
  done_cancelled := nofun
  stop_cancelled := nofun

theorem ShutInv.main (hi : ShutInv s) (h : s.mainStep cfg = some s') : ShutInv s' := by
  obtain ⟨h1, h2, h3⟩ := hi
  unfold mainStep at h
  split at h <;> (repeat' split at h) <;> cases h <;> refine ⟨fun h' => ?_, fun h' => ?_, fun h' => ?_⟩ <;>
    simp_all [MainPc.handlerStarted, MainPc.stopping, ProcState.jlog, cancel]

theorem ShutInv.handler (hi : ShutInv s) (h : s.handlerStep cfg = some s') : ShutInv s' := by
  obtain ⟨h1, h2, h3⟩ := hi
  unfold handlerStep at h
  split at h <;> (repeat' split at h) <;> cases h <;> refine ⟨fun h' => ?_, fun h' => ?_, fun h' => ?_⟩ <;>
    simp_all [ProcState.jlog, cancel]

theorem ShutInv.step (hi : ShutInv s) {a : ProcAction} (h : s.step cfg a = some s') : ShutInv s' := by
  cases a with
  | main => exact hi.main (step_main h)
  | start a => obtain ⟨-, c, st, -, -, rfl⟩ := step_start h; exact ⟨hi.1, hi.2, hi.3⟩
  | trigger => obtain ⟨-, -, rfl⟩ := step_trigger h; exact ⟨hi.1, hi.2, hi.3⟩
  | exec =>
    obtain ⟨hp, -, hh, hc, -⟩ := execStep_frame' (step_exec h)
    exact ⟨fun h' => hh ▸ hi.1 (hp ▸ h'), fun h' => hc ▸ hi.2 (hh ▸ h'), fun h' => hc ▸ hi.3 (hp ▸ h')⟩
  | handler => exact hi.handler (step_handler h)
  | signal sig =>
    rcases step_signal h with ⟨-, rfl | rfl⟩ | ⟨-, rfl⟩
    · exact ⟨hi.1, hi.2, hi.3⟩
    · exact hi
    · exact ⟨hi.1, hi.2, hi.3⟩

/-- With `ctx` cancelled, `main` at `<-ctx.Done()` or past it exits with code `0` in at most
four statements. -/
theorem main_finishes (cfg : Config E W) (hx : s.exit = none) (hc : s.ctxCancelled = true)
    (hp : s.pc.handlerStarted = true) :
    ∃ as, (∀ a ∈ as, a = ProcAction.main) ∧ as.length ≤ 4 ∧
      ∃ s', s.run cfg as = some s' ∧ s'.exit = some (.code 0) := by
  cases hpc : s.pc <;> simp only [MainPc.handlerStarted, hpc, reduceCtorEq] at hp
  · refine ⟨[.main, .main, .main, .main], by simp, by simp, ?_⟩
    simp only [run, step_main_of, hx, mainStep, hpc, hc, ↓reduceIte, Option.some_bind]
    exact ⟨_, rfl, rfl⟩
  · refine ⟨[.main, .main, .main], by simp, by simp, ?_⟩
    simp only [run, step_main_of, hx, mainStep, hpc, Option.some_bind]
    exact ⟨_, rfl, rfl⟩
  · refine ⟨[.main, .main], by simp, by simp, ?_⟩
    simp only [run, step_main_of, hx, mainStep, hpc, Option.some_bind]
    exact ⟨_, rfl, rfl⟩
  · refine ⟨[.main], by simp, by simp, ?_⟩
    simp only [run, step_main_of, hx, mainStep, hpc, Option.some_bind]
    exact ⟨_, rfl, rfl⟩

/-- The signal goroutine, once started and with a signal to receive, cancels `ctx` in at
most three statements. -/
theorem handler_finishes (cfg : Config E W) (hi : ShutInv s) (hx : s.exit = none)
    (hh : s.handler ≠ .notStarted) (hb : s.handler = .recv → s.sigBuf.isSome) :
    ∃ as, (∀ a ∈ as, a = ProcAction.handler) ∧ as.length ≤ 3 ∧
      ∃ s', s.run cfg as = some s' ∧ s'.pc = s.pc ∧ s'.exit = none ∧ s'.ctxCancelled = true := by
  cases hhs : s.handler with
  | notStarted => exact absurd hhs hh
  | recv =>
    obtain ⟨sig, hsig⟩ := Option.isSome_iff_exists.1 (hb hhs)
    refine ⟨[.handler, .handler, .handler], by simp, by simp, ?_⟩
    simp only [run, step_handler_of, hx, handlerStep, hhs, hsig, Option.some_bind, ProcState.jlog,
      cancel]
    exact ⟨_, rfl, rfl, rfl, rfl⟩
  | log sig =>
    refine ⟨[.handler, .handler], by simp, by simp, ?_⟩
    simp only [run, step_handler_of, hx, handlerStep, hhs, Option.some_bind, ProcState.jlog, cancel]
    exact ⟨_, rfl, rfl, rfl, rfl⟩
  | cancel =>
    refine ⟨[.handler], by simp, by simp, ?_⟩
    simp only [run, step_handler_of, hx, handlerStep, hhs, Option.some_bind, cancel]
    exact ⟨_, rfl, rfl, rfl, rfl⟩
  | done => exact ⟨[], by simp, by simp, s, rfl, rfl, hx, hi.done_cancelled hhs⟩

/-- After `signal.Notify`, a signal leaves one waiting in the channel: it is buffered, or
dropped when one is already waiting. -/
theorem step_signal_notified (cfg : Config E W) (hn : s.notified = true) (hx : s.exit = none) (sig : Sig) :
    ∃ s₁, s.step cfg (.signal sig) = some s₁ ∧ s₁.sigBuf.isSome ∧ s₁.exit = none ∧ s₁.pc = s.pc ∧
      s₁.handler = s.handler := by
  cases hbuf : s.sigBuf
  · exact ⟨{ s with sigBuf := some sig }, by
      simp only [ProcState.step, hx, hn, hbuf, Option.isSome_none, Bool.false_eq_true, ↓reduceIte],
      rfl, hx, rfl, rfl⟩
  · exact ⟨s, by
      simp only [ProcState.step, hx, hn, hbuf, Option.isSome_none, Bool.false_eq_true, ↓reduceIte],
      by simp [hbuf], hx, rfl, rfl⟩

/-- Once the signal goroutine runs and has a signal to receive, it and then `main` end the
process with code `0` in at most seven steps. -/
theorem handler_then_main_finish (cfg : Config E W) (hi : ShutInv s) (hx : s.exit = none)
    (hp : s.pc.handlerStarted = true) (hh : s.handler ≠ .notStarted)
    (hb : s.handler = .recv → s.sigBuf.isSome) :
    ∃ as, (∀ a ∈ as, a = .main ∨ a = .handler) ∧ as.length ≤ 7 ∧
      ∃ s', s.run cfg as = some s' ∧ s'.exit = some (.code 0) := by
  obtain ⟨as₁, ha₁, hl₁, s₁, hr₁, hpc₁, hx₁, hc₁⟩ := handler_finishes cfg hi hx hh hb
  obtain ⟨as₂, ha₂, hl₂, s₂, hr₂, hx₂⟩ := main_finishes cfg hx₁ hc₁ (hpc₁ ▸ hp)
  refine ⟨as₁ ++ as₂, List.forall_mem_append.2 ⟨fun a h => .inr (ha₁ a h), fun a h => .inl (ha₂ a h)⟩,
    by simp only [List.length_append]; omega, s₂, by simp [run_append, hr₁, hr₂], hx₂⟩

end ProcState

theorem ProcReachable.shut (h : ProcReachable cfg s) : ShutInv s := by
  induction h with
  | init => exact .init
  | step a _ hs ih => exact ih.step hs

/-- **After `signal.Notify`, a signal shuts the process down.** From every reachable state
where `signal.Notify` has run and the process runs, a signal is followed by at most eight
steps of `main` and of the signal goroutine that end with `os.Exit` code `0`: the goroutine
receives a signal, logs it and cancels `ctx`; `main` passes `<-ctx.Done()`, `s.StopJobs()`,
`s.RemoveJob(j.ID())` and `s.Shutdown()`. No step of the executor or of an engine is needed. -/
theorem signal_shuts_down (h : ProcReachable cfg s) (hn : s.notified = true) (hx : s.exit = none)
    (sig : Sig) :
    ∃ as, (∀ a ∈ as, a = .main ∨ a = .handler) ∧ as.length ≤ 8 ∧
      ∃ s', s.run cfg (.signal sig :: as) = some s' ∧ s'.exit = some (.code 0) := by
  obtain ⟨s₁, hs₁, hb, hx₁, hpc₁, -⟩ := step_signal_notified cfg hn hx sig
  have hr₁ := h.step _ hs₁
  by_cases hg : s.pc = .goHandler
  · -- `main` first starts the goroutine
    have hs₂ : s₁.step cfg .main = some { s₁ with pc := .waitDone, handler := .recv } := by
      rw [step_main_of hx₁]
      simp only [mainStep, hpc₁, hg]
    obtain ⟨as, ha, hl, s', hr', hx'⟩ :=
      handler_then_main_finish cfg (hr₁.step _ hs₂).shut hx₁ rfl nofun fun _ => hb
    exact ⟨.main :: as, List.forall_mem_cons.2 ⟨.inl rfl, ha⟩, by simp only [List.length_cons]; omega,
      s', by simp [run, hs₁, hs₂, hr'], hx'⟩
  · -- the goroutine already runs
    have hp : s₁.pc.handlerStarted = true :=
      hpc₁ ▸ MainPc.handlerStarted_of_notifiedAt (h.inv.1.notified_pc ▸ hn) hg
    obtain ⟨as, ha, hl, s', hr', hx'⟩ :=
      handler_then_main_finish cfg hr₁.shut hx₁ hp (hr₁.shut.started hp) fun _ => hb
    exact ⟨as, ha, by omega, s', by simp [run, hs₁, hr'], hx'⟩

/-- `main` of a scheduled run up to the start of the signal goroutine: `signal.Notify` has
run. -/
def listeningRun : List ProcAction := List.replicate 11 .main

def listening : ProcState Unit Unit :=
  ((ProcState.init cronCfg).run cronCfg listeningRun).getD (ProcState.init cronCfg)

theorem signal_shuts_down_listening :
    ProcReachable cronCfg listening ∧ listening.notified = true ∧ listening.exit = none ∧
      ∃ as, (∀ a ∈ as, a = .main ∨ a = .handler) ∧ as.length ≤ 8 ∧
        ∃ s', listening.run cronCfg (.signal .interrupt :: as) = some s' ∧ s'.exit = some (.code 0) :=
  have reach : ProcReachable cronCfg listening := ProcReachable.init.run listeningRun rfl
  ⟨reach, rfl, rfl, signal_shuts_down reach rfl rfl .interrupt⟩

/-- The scheduled run, signalled once `signal.Notify` has run: the goroutine cancels `ctx` and
`main` passes `<-ctx.Done()`. -/
def stoppedRun : List ProcAction :=
  listeningRun ++ [.signal .interrupt, .main, .handler, .handler, .handler, .main]

/-! ## A scheduled process ends only on a signal -/

namespace ProcState

variable {s' : ProcState E W}

/-- Besides the goroutine itself, only `main`'s `go func` moves the signal goroutine. -/
theorem step_handler_frame {a : ProcAction} (h : s.step cfg a = some s') (ha : a ≠ .handler) :
    s'.handler = s.handler ∨ s'.handler = .recv := by
  cases a with
  | main =>
    have hm := step_main h
    unfold mainStep at hm
    split at hm <;> (repeat' split at hm) <;> cases hm <;> first | exact .inl rfl | exact .inr rfl
  | start b => obtain ⟨-, c, st, -, -, rfl⟩ := step_start h; exact .inl rfl
  | trigger => obtain ⟨-, -, rfl⟩ := step_trigger h; exact .inl rfl
  | exec => exact .inl (execStep_frame' (step_exec h)).2.2.1
  | handler => exact absurd rfl ha
  | signal sig => rcases step_signal h with ⟨-, rfl | rfl⟩ | ⟨-, rfl⟩ <;> exact .inl rfl

/-- `main` reaches `start`'s call only from `context.WithCancel`, without `-use_cron`. -/
theorem mainStep_oneShot_cron (h : s.mainStep cfg = some s') (hp : s'.pc = .oneShot) :
    s.pc = .oneShot ∨ cfg.useCron = false := by
  unfold mainStep at h
  split at h <;> (repeat' split at h) <;> cases h <;> simp_all [ProcState.jlog, cancel]

end ProcState

/-- Past its log statement, the signal goroutine has logged the signal it received. -/
theorem ProcReachable.signaled (h : ProcReachable cfg s)
    (hh : s.handler = .cancel ∨ s.handler = .done) :
    ∃ sig, ∃ e ∈ s.log, e.message = .signaled sig := by
  induction h with
  | init => simp [ProcState.init] at hh
  | @step s s' a _ hs ih =>
    by_cases ha : a = .handler
    · subst ha
      have h' := step_handler hs
      unfold handlerStep at h'
      split at h' <;> (repeat' split at h') <;> cases h'
      · simp at hh
      · -- `jlog(INFO, job, "signaled: ...")`
        exact ⟨_, _, List.mem_append_right _ (List.mem_singleton_self _), rfl⟩
      · exact ih (.inl ‹_›)
    · have hpre := (step_log hs).1
      have hh₀ : s.handler = .cancel ∨ s.handler = .done := by
        rcases step_handler_frame hs ha with h' | h' <;> rw [h'] at hh
        · exact hh
        · simp at hh
      obtain ⟨sig, e, he, hm⟩ := ih hh₀
      exact ⟨sig, e, hpre.subset he, hm⟩

theorem ProcReachable.useCron_of_oneShot (h : ProcReachable cfg s) (hp : s.pc = .oneShot) :
    cfg.useCron = false := by
  induction h with
  | init => simp [ProcState.init] at hp
  | @step s s' a _ hs ih =>
    by_cases ha : a = .main
    · subst ha
      exact (mainStep_oneShot_cron (step_main hs) hp).elim ih id
    · exact ih ((step_other hs ha).1 ▸ hp)

/-- **A scheduled process ends normally only on a signal.** In every reachable state of a run
with `-use_cron` that has exited with code `0`, the signal goroutine has received a signal and
logged it: `main` blocks at `<-ctx.Done()` until the goroutine's `cancel()`, and nothing else
cancels `ctx` on the scheduled path. -/
theorem cron_exits_on_signal (h : ProcReachable cfg s) (hc : cfg.useCron = true)
    (hx : s.exit = some (.code 0)) : ∃ sig, ∃ e ∈ s.log, e.message = .signaled sig := by
  obtain ⟨s₀, a, hr, hx₀, hs⟩ := h.last_step (by simp [hx])
  by_cases ha : a = .main
  swap
  · rcases (step_other hs ha).2 with he | ⟨sig, he⟩ <;> simp_all
  subst ha
  have hm := step_main hs
  rcases mainStep_exit_zero hm hx₀ hx with ⟨hpc, -⟩ | hpc
  · simp [hr.useCron_of_oneShot hpc] at hc
  · -- at `s.Shutdown()` the goroutine has cancelled `ctx`, after logging
    have hd : s₀.handler = .done :=
      (hr.inv.1.cancelled (hr.shut.stop_cancelled (by rw [hpc]; rfl))).resolve_left (by simp [hx₀])
    have hlog : s.log = s₀.log := by
      simp only [mainStep, hpc, Option.some.injEq] at hm
      rw [← hm]
      rfl
    exact hlog ▸ hr.signaled (.inr hd)

/-- The scheduled run, signalled, past `s.Shutdown()`. -/
def shutDownRun : List ProcAction := stoppedRun ++ [.main, .main, .main]

def shutDown : ProcState Unit Unit :=
  ((ProcState.init cronCfg).run cronCfg shutDownRun).getD (ProcState.init cronCfg)

theorem cron_exits_on_signal_shutDown :
    ProcReachable cronCfg shutDown ∧ cronCfg.useCron = true ∧ shutDown.exit = some (.code 0) ∧
      ∃ sig, ∃ e ∈ shutDown.log, e.message = .signaled sig :=
  have reach : ProcReachable cronCfg shutDown := ProcReachable.init.run shutDownRun rfl
  ⟨reach, rfl, rfl, cron_exits_on_signal reach rfl rfl⟩

/-! ## The execution in progress ends once `ctx` is cancelled -/

namespace ProcState

variable {s' : ProcState E W}

/-- On the scheduled path past `jobs.Store`, `main` keeps the call of `start`, if any. -/
theorem mainStep_call (h : s.mainStep cfg = some s') (hp : s.pc.stored = true) :
    s'.call.isSome = s.call.isSome := by
  unfold mainStep at h
  split at h <;> (repeat' split at h) <;> cases h <;> simp_all [MainPc.stored, ProcState.jlog, cancel]

/-- The executor enters `tcpdump`'s call of `start` only by making it. -/
theorem execStep_running (h : s.execStep cfg = some s') (he : s'.exec = .running) :
    s'.call.isSome := by
  unfold execStep beforeTcpdump tcpdump afterTcpdump at h
  split at h <;> (repeat' split at h) <;> cases h <;> simp_all [ProcState.jlog]

/-! One lemma per statement of the executor, with the job the process registered. -/

variable {j : SchedJob}

theorem execStep_before (hj : s.sjob = some j) (hl : s.jobsLoad j.id = some s.job)
    (he : s.exec = .before) :
    s.execStep cfg =
      some { s.jlog cfg .info s.job (.executionStarted (cfg.lastRun s.execs)) with exec := .mint } := by
  simp [execStep, beforeTcpdump, hj, he, hl]

theorem execStep_mint (hj : s.sjob = some j) (he : s.exec = .mint) :
    s.execStep cfg = some { s with exec := .task, xid := newRandom (cfg.random s.execs) } := by
  simp [execStep, beforeTcpdump, hj, he]

theorem execStep_task (hj : s.sjob = some j) (hl : s.jobsLoad s.jid = some s.job)
    (he : s.exec = .task) :
    s.execStep cfg = some { s with exec := .running, call := some (s.newCall s.job.tasks) } := by
  simp [execStep, tcpdump, hj, he, hl]

theorem execStep_return (hj : s.sjob = some j) {c : StartCall E W} (hc : s.call = some c)
    (hr : c.st.pc = .returned) (he : s.exec = .running) :
    s.execStep cfg = some { s with exec := .afterLog, call := none } := by
  simp [execStep, tcpdump, hj, he, hc, hr]

theorem execStep_afterLog (hj : s.sjob = some j) (hl : s.jobsLoad j.id = some s.job)
    (he : s.exec = .afterLog) :
    s.execStep cfg = some { s.jlog cfg .info s.job .executionComplete with exec := .afterNext s.job } := by
  simp [execStep, afterTcpdump, hj, he, hl]

theorem execStep_afterNext (hj : s.sjob = some j) {job : TcpdumpJob E W} (he : s.exec = .afterNext job) :
    s.execStep cfg =
      some { s.jlog cfg .info job (.nextExecution (cfg.nextRun s.execs)) with exec := .afterReset } := by
  simp [execStep, afterTcpdump, hj, he]

theorem execStep_afterReset (hj : s.sjob = some j) (he : s.exec = .afterReset) :
    s.execStep cfg = some { s with exec := .idle, xid := UUID.nil } := by
  simp [execStep, afterTcpdump, hj, he]

end ProcState

theorem ProcReachable.running_call (h : ProcReachable cfg s) (he : s.exec = .running) :
    s.call.isSome := by
  induction h with
  | init => simp [ProcState.init] at he
  | @step s s' a hr hs ih =>
    cases a with
    | main =>
      have hm := step_main hs
      have he₀ : s.exec = .running := (mainStep_frame hm).2.1 ▸ he
      rw [mainStep_call hm (hr.inv.1.exec_stored (by rw [he₀]; rfl))]
      exact ih he₀
    | start b => obtain ⟨-, c, st, -, -, rfl⟩ := step_start hs; rfl
    | trigger => obtain ⟨-, -, rfl⟩ := step_trigger hs; simp at he
    | exec => exact execStep_running (step_exec hs) he
    | handler =>
      have h' := step_handler hs
      rw [handlerStep_call h']
      exact ih ((handlerStep_frame h').2.1 ▸ he)
    | signal sig => rcases step_signal hs with ⟨-, rfl | rfl⟩ | ⟨-, rfl⟩ <;> exact ih he

/-- The executor gets back to its idle point by its own steps and `start`'s, starting no
execution, with the process still running. -/
def ExecEnds (cfg : Config E W) (s : ProcState E W) : Prop :=
  ∃ as, (∀ a ∈ as, a = .exec ∨ ∃ b, a = .start b) ∧ ∃ s', s.run cfg as = some s' ∧
    s'.exec.isIdle = true ∧ s'.exit = none ∧ s'.execs = s.execs

namespace ExecEnds

theorem of_idle (hx : s.exit = none) (he : s.exec.isIdle = true) : ExecEnds cfg s :=
  ⟨[], nofun, s, rfl, he, hx, rfl⟩

/-- One statement of the executor, then the rest. -/
theorem cons_exec {s₁ : ProcState E W} (hx : s.exit = none) (hs : s.execStep cfg = some s₁)
    (h : ExecEnds cfg s₁) : ExecEnds cfg s := by
  obtain ⟨as, has, s', hr, hi, hx', hn⟩ := h
  exact ⟨.exec :: as, List.forall_mem_cons.2 ⟨.inl rfl, has⟩, s',
    by simp only [ProcState.run, step_exec_of hx, hs, Option.some_bind, hr], hi, hx',
    hn.trans (execStep_frame' hs).2.2.2.2⟩

variable {j : SchedJob}

theorem afterReset (hj : s.sjob = some j) (hx : s.exit = none) (he : s.exec = .afterReset) :
    ExecEnds cfg s :=
  cons_exec hx (execStep_afterReset hj he) (of_idle hx rfl)

theorem afterNext (hj : s.sjob = some j) {job : TcpdumpJob E W} (hx : s.exit = none)
    (he : s.exec = .afterNext job) : ExecEnds cfg s :=
  cons_exec hx (execStep_afterNext hj he) (afterReset hj hx rfl)

theorem afterLog (h : ProcReachable cfg s) (hx : s.exit = none) (he : s.exec = .afterLog) :
    ExecEnds cfg s := by
  obtain ⟨j, hj, -, hl, -⟩ := h.inv.1.jobsLoad_jid (by rw [he]; rfl)
  exact cons_exec hx (execStep_afterLog hj hl he) (afterNext hj hx rfl)

/-- `tcpdump`'s call of `start`, on a cancelled `ctx`, returns, and `afterTcpdump` runs. -/
theorem running (h : ProcReachable cfg s) (hx : s.exit = none) (hc : s.ctxCancelled = true)
    (he : s.exec = .running) : ExecEnds cfg s := by
  obtain ⟨j, hj, -⟩ := h.inv.1.jobsLoad_jid (by rw [he]; rfl)
  obtain ⟨c, hcall⟩ := Option.isSome_iff_exists.1 (h.running_call he)
  obtain ⟨bs, hbs, st', hst, hret⟩ :=
    (h.call_start hcall).completes (.inr ((h.inv.1.call_parent c hcall).trans hc))
  rw [← h.inv.1.call_tasks c hcall] at hst
  have hr := run_start_of hx hcall hbs hst
  -- `start` has returned; `tcpdump` returns and `afterTcpdump` runs
  have hs : ({ s with call := some { c with st := st' } } : ProcState E W).execStep cfg =
      some { s with exec := .afterLog, call := none } := execStep_return hj rfl hret he
  have hx₁ : ({ s with call := some { c with st := st' } } : ProcState E W).exit = none := hx
  have h₂ : ProcReachable cfg { s with exec := .afterLog, call := none } :=
    (h.run _ hr).step .exec (by rw [step_exec_of hx₁, hs])
  obtain ⟨as, has, s', hr', hi, hx', hn⟩ := cons_exec hx₁ hs (afterLog h₂ hx rfl)
  refine ⟨bs.map .start ++ as, List.forall_mem_append.2 ⟨fun a ha => ?_, has⟩, s',
    by rw [run_append, hr]; exact hr', hi, hx', hn⟩
  obtain ⟨b, -, rfl⟩ := List.mem_map.1 ha
  exact .inr ⟨b, rfl⟩

theorem task (h : ProcReachable cfg s) (hx : s.exit = none) (hc : s.ctxCancelled = true)
    (he : s.exec = .task) : ExecEnds cfg s := by
  obtain ⟨j, hj, hjid, hl, -⟩ := h.inv.1.jobsLoad_jid (by rw [he]; rfl)
  have hs : s.execStep cfg = _ := execStep_task hj (hjid ▸ hl) he
  exact cons_exec hx hs (running (h.step .exec (by rw [step_exec_of hx, hs])) hx hc rfl)

theorem mint (h : ProcReachable cfg s) (hx : s.exit = none) (hc : s.ctxCancelled = true)
    (he : s.exec = .mint) : ExecEnds cfg s := by
  obtain ⟨j, hj, -⟩ := h.inv.1.jobsLoad_jid (by rw [he]; rfl)
  exact cons_exec hx (execStep_mint hj he)
    (task (h.step .exec (by rw [step_exec_of hx, execStep_mint hj he])) hx hc rfl)

theorem before (h : ProcReachable cfg s) (hx : s.exit = none) (hc : s.ctxCancelled = true)
    (he : s.exec = .before) : ExecEnds cfg s := by
  obtain ⟨j, hj, -, hl, -⟩ := h.inv.1.jobsLoad_jid (by rw [he]; rfl)
  have hs : s.execStep cfg = _ := execStep_before hj hl he
  exact cons_exec hx hs (mint (h.step .exec (by rw [step_exec_of hx, hs])) hx hc rfl)

end ExecEnds

/-- **Once `ctx` is cancelled, the execution in progress ends.** From every reachable state
where the process runs and `ctx` has been cancelled (by the signal goroutine), some run of the
executor's statements and of `start`'s goroutines alone (the engines' returns included)
brings the executor back to its idle point, through `afterTcpdump`, with the process still
running and no new execution started: the execution's call of `start` runs on the cancelled
`ctx`, so its scope is done and it returns. -/
theorem execution_ends_after_cancel (h : ProcReachable cfg s) (hc : s.ctxCancelled = true)
    (hx : s.exit = none) :
    ∃ as, (∀ a ∈ as, a = .exec ∨ ∃ b, a = .start b) ∧ ∃ s', s.run cfg as = some s' ∧
      s'.exec.isIdle = true ∧ s'.exit = none ∧ s'.execs = s.execs := by
  cases he : s.exec with
  | idle => exact ExecEnds.of_idle hx (by rw [he]; rfl)
  | before => exact ExecEnds.before h hx hc he
  | mint => exact ExecEnds.mint h hx hc he
  | task => exact ExecEnds.task h hx hc he
  | running => exact ExecEnds.running h hx hc he
  | afterLog => exact ExecEnds.afterLog h hx he
  | afterNext job =>
    obtain ⟨j, hj, -⟩ := h.inv.1.jobsLoad_jid (by rw [he]; rfl)
    exact ExecEnds.afterNext hj hx he
  | afterReset =>
    obtain ⟨j, hj, -⟩ := h.inv.1.jobsLoad_jid (by rw [he]; rfl)
    exact ExecEnds.afterReset hj hx he

/-- The scheduled run: a trigger fires and `beforeTcpdump` logs, then a signal arrives and
the goroutine cancels `ctx` with the execution in progress. -/
def midExecutionRun : List ProcAction :=
  listeningRun ++ [.main, .trigger, .exec, .signal .interrupt, .handler, .handler, .handler]

def midExecution : ProcState Unit Unit :=
  ((ProcState.init cronCfg).run cronCfg midExecutionRun).getD (ProcState.init cronCfg)

theorem execution_ends_after_cancel_midExecution :
    ProcReachable cronCfg midExecution ∧ midExecution.exec.isIdle = false ∧
      midExecution.ctxCancelled = true ∧ midExecution.exit = none ∧
      ∃ as, (∀ a ∈ as, a = .exec ∨ ∃ b, a = .start b) ∧ ∃ s', midExecution.run cronCfg as = some s' ∧
        s'.exec.isIdle = true ∧ s'.exit = none ∧ s'.execs = midExecution.execs :=
  have reach : ProcReachable cronCfg midExecution := ProcReachable.init.run midExecutionRun rfl
  ⟨reach, rfl, rfl, rfl, execution_ends_after_cancel reach rfl rfl⟩

end Tcpdumpw
