import Tcpdumpw.Proof.Process
import Tcpdumpw.Proof.Termination

/-!
# How the process ends

* `exit_cause`: once `createTasks` has returned, each failure of `main` ends the process with
  its own code, and the entry that names it is the last the process logs: code `1` when
  `createTasks` built no task (that ERROR then follows the `args` entry and `createTasks`'
  entries), code `2` when `gocron.NewScheduler` fails, code `3` when `s.NewJob` fails. Go's
  panics end a process with status `2` too, so a `regexp.MustCompile` panic in `createTasks`
  (`paren_panics`) exits as a failed `NewScheduler` does.
* `oneShot_exits_after_start`: without `-use_cron`, code `0` comes only after `start` has
  returned, each task's `engine.Start` called once and every goroutine done.
* `oneShot_finishes`: without `-use_cron` and with a positive timeout, steps of `main`, of
  `start`'s goroutines and of the deadline alone always can end the process.

Signals and the scheduled shutdown are in `Shutdown`, the time zone in `Timezone`.
-/

namespace Tcpdumpw

namespace ProcState

variable {E W : Type} {cfg : Config E W} {s s' : ProcState E W}

/-! ## What each step does to `main`'s point and to the exit -/

theorem execStep_frame' (h : s.execStep cfg = some s') :
    s'.pc = s.pc ∧ s'.exit = s.exit ∧ s'.handler = s.handler ∧ s'.ctxCancelled = s.ctxCancelled ∧
      s'.execs = s.execs := by
  rw [execStep_frame h]
  exact ⟨rfl, rfl, rfl, rfl, rfl⟩

theorem execStep_idle (he : s.exec = .idle) : s.execStep cfg = none := by
  unfold execStep
  split <;> simp [he]

theorem handlerStep_pc (h : s.handlerStep cfg = some s') : s'.pc = s.pc ∧ s'.exit = s.exit := by
  unfold handlerStep at h
  split at h <;> (repeat' split at h) <;> cases h <;> exact ⟨rfl, rfl⟩

/-- Only `main` moves `main`; only `main` and a signal end the process. -/
theorem step_other {a : ProcAction} (h : s.step cfg a = some s') (ha : a ≠ .main) :
    s'.pc = s.pc ∧ (s'.exit = s.exit ∨ ∃ sig, s'.exit = some (.signaled sig)) := by
  cases a with
  | main => exact absurd rfl ha
  | start a => obtain ⟨-, c, st, -, -, rfl⟩ := step_start h; exact ⟨rfl, .inl rfl⟩
  | trigger => obtain ⟨-, -, rfl⟩ := step_trigger h; exact ⟨rfl, .inl rfl⟩
  | exec => obtain ⟨hp, hx, -⟩ := execStep_frame' (step_exec h); exact ⟨hp, .inl hx⟩
  | handler => obtain ⟨hp, hx⟩ := handlerStep_pc (step_handler h); exact ⟨hp, .inl hx⟩
  | signal sig =>
    rcases step_signal h with ⟨-, rfl | rfl⟩ | ⟨-, rfl⟩
    · exact ⟨rfl, .inl rfl⟩
    · exact ⟨rfl, .inl rfl⟩
    · exact ⟨rfl, .inr ⟨sig, rfl⟩⟩

/-- The statements of `main` that end the process with code `0`: the `return` after `start`
and the one after `s.Shutdown()`. -/
theorem mainStep_exit_zero (h : s.mainStep cfg = some s') (hx : s.exit = none)
    (he : s'.exit = some (.code 0)) :
    (s.pc = .oneShot ∧ ∃ c, s.call = some c ∧ c.st.pc = .returned) ∨ s.pc = .shutdown := by
  unfold mainStep at h
  split at h <;> (repeat' split at h) <;> cases h <;> simp_all [ProcState.jlog, cancel]

theorem run_append {as bs : List ProcAction} :
    s.run cfg (as ++ bs) = (s.run cfg as).bind fun s₁ => s₁.run cfg bs := by
  induction as generalizing s with
  | nil => rfl
  | cons a as ih =>
    rw [List.cons_append]
    simp only [run, Option.bind_assoc, ih]

theorem step_main_of (hx : s.exit = none) : s.step cfg .main = s.mainStep cfg := by
  simp only [ProcState.step, hx, Option.isSome_none, Bool.false_eq_true, ↓reduceIte]

theorem step_handler_of (hx : s.exit = none) : s.step cfg .handler = s.handlerStep cfg := by
  simp only [ProcState.step, hx, Option.isSome_none, Bool.false_eq_true, ↓reduceIte]

theorem step_exec_of (hx : s.exit = none) : s.step cfg .exec = s.execStep cfg := by
  simp only [ProcState.step, hx, Option.isSome_none, Bool.false_eq_true, ↓reduceIte]

end ProcState

open ProcState

variable {E W : Type} {cfg : Config E W} {s : ProcState E W}

/-- An exited state is one step from a running one. -/
theorem ProcReachable.last_step (h : ProcReachable cfg s) (hx : s.exit.isSome) :
    ∃ s₀ a, ProcReachable cfg s₀ ∧ s₀.exit = none ∧ s₀.step cfg a = some s := by
  cases h with
  | init => simp [ProcState.init] at hx
  | step a hr hs => exact ⟨_, a, hr, exit_eq_none_of_step hs, hs⟩

/-- **Without `-use_cron`, the process exits with code `0` only once `start` has returned.**
Every reachable one-shot state that has exited with code `0` is one step of `main` from a
reachable state whose call of `start` has returned, every task goroutine having run
`wg.Done()` and `engine.Start` having been called once for each task. -/
theorem oneShot_exits_after_start (h : ProcReachable cfg s) (hc : cfg.useCron = false)
    (hx : s.exit = some (.code 0)) :
    ∃ s₀ c, ProcReachable cfg s₀ ∧ s₀.step cfg .main = some s ∧ s₀.call = some c ∧
      c.st.pc = .returned ∧ (∀ w ∈ c.st.workers, w.pc = .done) ∧
      (c.st.calls.map (·.worker)).Perm (List.range cfg.tasks.length) := by
  obtain ⟨s₀, a, hr, hx₀, hs⟩ := h.last_step (by simp [hx])
  by_cases ha : a = .main
  swap
  · rcases (step_other hs ha).2 with he | ⟨sig, he⟩ <;> simp_all
  subst ha
  rcases mainStep_exit_zero (step_main hs) hx₀ hx with ⟨-, c, hcall, hret⟩ | hpc
  · have hok := (hr.call_start hcall).ok
    exact ⟨s₀, c, hr, hs, hcall, hret, hok.all_done hret, hok.calls_perm hret⟩
  · -- `s.Shutdown()` is on the scheduled path
    have := hr.inv.1.cron_path (by rw [hpc]; rfl)
    simp [hc] at this

/-- A one-shot run with a timeout of one second. -/
def timedCfg : Config Unit Unit := { oneShotCfg with duration := 1 }

/-- `main` calls `start`; its goroutine's `engine.Start` returns, the deadline passes, `start`
returns and `main` with it. -/
def timedRun : List ProcAction :=
  [.main, .main, .main, .start .main, .start .main, .start .main, .start .main, .start (.call 0),
    .start (.ret 0), .start (.done 0), .start .deadline, .start .main, .start .main, .main]

def timedExit : ProcState Unit Unit :=
  ((ProcState.init timedCfg).run timedCfg timedRun).getD (ProcState.init timedCfg)

theorem oneShot_exits_after_start_timed :
    ProcReachable timedCfg timedExit ∧ timedCfg.useCron = false ∧ timedExit.exit = some (.code 0) ∧
      ∃ s₀ c, ProcReachable timedCfg s₀ ∧ s₀.step timedCfg .main = some timedExit ∧ s₀.call = some c ∧
        c.st.pc = .returned ∧ (∀ w ∈ c.st.workers, w.pc = .done) ∧
        (c.st.calls.map (·.worker)).Perm (List.range timedCfg.tasks.length) :=
  have reach : ProcReachable timedCfg timedExit := ProcReachable.init.run timedRun rfl
  ⟨reach, rfl, rfl, oneShot_exits_after_start reach rfl rfl⟩

namespace ProcState

variable {s' : ProcState E W}

theorem handlerStep_call (h : s.handlerStep cfg = some s') : s'.call.isSome = s.call.isSome := by
  unfold handlerStep at h
  split at h <;> (repeat' split at h) <;> cases h <;> simp [ProcState.jlog, cancel]

/-- `main` reaches `start`'s call only with the call made. -/
theorem mainStep_oneShot (h : s.mainStep cfg = some s') (hp : s'.pc = .oneShot)
    (hx : s'.exit = none) : s'.call.isSome := by
  unfold mainStep at h
  split at h <;> (repeat' split at h) <;> cases h <;> simp_all [ProcState.jlog, cancel]

/-- A step of `start`'s goroutines or of its deadline is the call's own step. -/
theorem step_start_of {c : StartCall E W} (hx : s.exit = none) (hc : s.call = some c)
    {a : StartAction} (ha : a ≠ .cancelParent) :
    s.step cfg (.start a) =
      (c.st.step (parseTimeout cfg.duration) c.tasks a).map fun st => { s with call := some { c with st } } := by
  simp [ProcState.step, hx, hc, ha]

/-- A run of the call of `start` is a run of the process that changes nothing else. -/
theorem run_start_of {c : StartCall E W} {bs : List StartAction} {st' : StartState E W}
    (hx : s.exit = none) (hc : s.call = some c) (hb : ∀ b ∈ bs, b ≠ .cancelParent)
    (hr : c.st.run (parseTimeout cfg.duration) c.tasks bs = some st') :
    s.run cfg (bs.map .start) = some { s with call := some { c with st := st' } } := by
  induction bs generalizing s c with
  | nil =>
    cases hr
    show some s = some { s with call := some c }
    rw [← hc]
  | cons b bs ih =>
    obtain ⟨st₁, h₁, hr⟩ := Option.bind_eq_some.1 hr
    have hr' := ih (s := { s with call := some { c with st := st₁ } }) hx rfl
      (fun b' h' => hb b' (.tail _ h')) hr
    simp only [List.map_cons, run, step_start_of hx hc (hb b (.head _)), h₁, Option.map_some',
      Option.some_bind, hr']

end ProcState

/-- Off the scheduled path, `main` at `start`'s call has made it. -/
theorem ProcReachable.oneShot_call (h : ProcReachable cfg s) (hp : s.pc = .oneShot)
    (hx : s.exit = none) : s.call.isSome := by
  induction h with
  | init => simp [ProcState.init] at hp
  | @step s s' a hr hs ih =>
    cases a with
    | main => exact mainStep_oneShot (step_main hs) hp hx
    | start b => obtain ⟨-, c, st, -, -, rfl⟩ := step_start hs; rfl
    | trigger =>
      obtain ⟨hrun, -, rfl⟩ := step_trigger hs
      have hp' : s.pc = .oneShot := hp
      simp [hp', MainPc.schedulerRunning] at hrun
    | exec =>
      -- the executor is idle off the scheduled path
      have hpc := (execStep_frame' (step_exec hs)).1
      have hidle : s.exec.isIdle = true := by
        by_contra hne
        have := hr.inv.1.exec_stored (by simpa using hne)
        simp [← hpc, hp, MainPc.stored] at this
      have he : s.exec = .idle := by cases hex : s.exec <;> simp_all [ExecPc.isIdle]
      have h' := step_exec hs
      rw [execStep_idle he] at h'
      cases h'
    | handler =>
      have h' := step_handler hs
      obtain ⟨hpc, hx'⟩ := handlerStep_pc h'
      rw [handlerStep_call h']
      exact ih (hpc ▸ hp) (hx' ▸ hx)
    | signal sig => rcases step_signal hs with ⟨-, rfl | rfl⟩ | ⟨-, rfl⟩ <;> simp_all

/-- From `start`'s call, with a positive timeout, `start`'s goroutines and the deadline bring
`start` to its return, and `main` then exits with code `0`. -/
theorem ProcReachable.oneShot_finish (h : ProcReachable cfg s) (hp : s.pc = .oneShot)
    (hx : s.exit = none) (ht : (0 : Duration).slt (parseTimeout cfg.duration) = true) :
    ∃ as, (∀ a ∈ as, a = .main ∨ ∃ b, a = .start b) ∧ ∃ s', s.run cfg as = some s' ∧
      s'.exit = some (.code 0) := by
  obtain ⟨c, hcall⟩ := Option.isSome_iff_exists.1 (h.oneShot_call hp hx)
  obtain ⟨bs, hbs, st', hst, hret⟩ := (h.call_start hcall).completes (.inl ht)
  rw [← h.inv.1.call_tasks c hcall] at hst
  refine ⟨bs.map .start ++ [.main], List.forall_mem_append.2 ⟨fun a ha => ?_, by simp⟩, _,
    by simp [run_append, run_start_of hx hcall hbs hst, ProcState.run, ProcState.step, hx, mainStep,
      hp, hret]; rfl, rfl⟩
  obtain ⟨b, -, rfl⟩ := List.mem_map.1 ha
  exact .inr ⟨b, rfl⟩

/-- **Without `-use_cron` and with a positive timeout, the process finishes on its own.** From
every reachable one-shot state where the process runs, some run of `main`, of `start`'s
goroutines and of the deadline alone (no signal, no signal goroutine, no executor) ends the
process: with code `0` once `start` has returned, or with code `1` when `createTasks` built no
task. The engines' returns are steps of that run. -/
theorem oneShot_finishes (h : ProcReachable cfg s) (hc : cfg.useCron = false)
    (ht : (0 : Duration).slt (parseTimeout cfg.duration) = true) (hx : s.exit = none) :
    ∃ as, (∀ a ∈ as, a = .main ∨ ∃ b, a = .start b) ∧ ∃ s', s.run cfg as = some s' ∧
      (s'.exit = some (.code 0) ∨ (cfg.tasks = [] ∧ s'.exit = some (.code 1))) := by
  -- `main`'s statements up to `start`'s call, then `start` and `main`'s `return`
  have fin : ∀ (pre : List ProcAction) {s₁ : ProcState E W}, (∀ a ∈ pre, a = .main) →
      s.run cfg pre = some s₁ → s₁.pc = .oneShot → s₁.exit = none →
      ∃ as, (∀ a ∈ as, a = .main ∨ ∃ b, a = .start b) ∧ ∃ s', s.run cfg as = some s' ∧
        (s'.exit = some (.code 0) ∨ (cfg.tasks = [] ∧ s'.exit = some (.code 1))) := by
    intro pre s₁ hpre hr hp hx₁
    obtain ⟨as, has, s', hr', hx'⟩ := (h.run pre hr).oneShot_finish hp hx₁ ht
    exact ⟨pre ++ as, List.forall_mem_append.2 ⟨fun a ha => .inl (hpre a ha), has⟩, s',
      by simp [run_append, hr, hr'], .inl hx'⟩
  cases hpc : s.pc
  case oneShot => exact fin [] nofun rfl hpc hx
  case withCancel =>
    exact fin [.main] (by simp)
      (by simp [ProcState.run, ProcState.step, hx, mainStep, hpc, hc]; rfl) (by rfl) (by rfl)
  case logTimeout =>
    exact fin [.main, .main] (by simp)
      (by simp [ProcState.run, ProcState.step, hx, mainStep, hpc, hc, ProcState.jlog]; rfl) (by rfl)
      (by rfl)
  case checkTasks =>
    by_cases hnil : cfg.tasks = []
    · exact ⟨[.main], by simp, _, by simp [ProcState.run, step_main_of hx, mainStep, hpc, hnil]; rfl,
        .inr ⟨hnil, by rfl⟩⟩
    · have hlen : cfg.tasks.length ≠ 0 := by simpa using hnil
      exact fin [.main, .main, .main] (by simp)
        (by simp [ProcState.run, ProcState.step, hx, mainStep, hpc, hc, hlen, ProcState.jlog]; rfl)
        (by rfl) (by rfl)
  all_goals
    -- every other statement of `main` is on the scheduled path
    have := h.inv.1.cron_path (by simp [hpc, MainPc.cronPath])
    simp [hc] at this

theorem oneShot_finishes_timed :
    ProcReachable timedCfg (ProcState.init timedCfg) ∧ timedCfg.useCron = false ∧
      (0 : Duration).slt (parseTimeout timedCfg.duration) = true ∧
      (ProcState.init timedCfg).exit = none ∧
      ∃ as, (∀ a ∈ as, a = .main ∨ ∃ b, a = .start b) ∧ ∃ s', (ProcState.init timedCfg).run timedCfg as = some s' ∧
        (s'.exit = some (.code 0) ∨ (timedCfg.tasks = [] ∧ s'.exit = some (.code 1))) :=
  ⟨.init, rfl, by decide, rfl, oneShot_finishes .init rfl (by decide) rfl⟩

end Tcpdumpw
