import Tcpdumpw.Proof.Start

/-!
# Every run of `start` ends

`start` runs `len(tasks) + 5` statements of its own, three per task goroutine (the call to
`engine.Start`, its return, `wg.Done()`), and sees each event of the environment (the
deadline, the parent's cancellation) at most once. `StartState.budget` counts what a state
has left, and every step spends one of it (`OK.budget_step`). So a run can always be extended
until no goroutine of `start` can step (`StartReachable.exists_blocked_run`), and with a
positive timeout or a cancelled parent until `start` returns (`StartReachable.completes`).
Hence:

* `start_calls_each_task_once`: each task's `engine.Start` is called once, with its writers
  and the execution scope; some run makes every call, and every run that stops has made them.
* `start_waits_for_scope`: `start` returns only once its scope is done; once every goroutine
  has run `wg.Done()` on a live scope it waits for the deadline or the parent, and with a zero
  timeout for the parent (`start_waits_for_scope_timeout_zero`).
* `start_run_length_le`: whatever the interleaving, a run of `start(ctx, timeout, tasks)` has
  at most `4 * len(tasks) + 7` steps;
* `start_returns_once_cancelled`, `start_returns_after_deadline`: once the parent is
  cancelled, or with a positive timeout, `start` can return without the other event, and every
  run that stops stops with `start` returned.
-/

namespace Tcpdumpw

/-- The statements a task goroutine has left: the call, the return, `wg.Done()`. -/
def WorkerPc.left : WorkerPc → ℕ
  | .begin => 3
  | .running => 2
  | .finished => 1
  | .done => 0

namespace StartState

variable {E W : Type} {timeout : Duration} {tasks : List (PcapTask E W)} {s s' : StartState E W}

/-- The statements `start`'s own goroutine has left, for `n` tasks: the `Add`, the
`WithTimeout`, one `go` per task and the exit of the loop, the two waits. -/
def mainLeft (n : ℕ) : StartPc → ℕ
  | .add => n + 5
  | .withTimeout => n + 4
  | .spawn i => n - i + 3
  | .waitDone => 2
  | .waitGroup => 1
  | .returned => 0

/-- The statements the task goroutines started so far have left. -/
def workersLeft : List (Worker E W) → ℕ
  | [] => 0
  | w :: ws => w.pc.left + workersLeft ws

/-- The steps a run of `start` on `n` tasks has left: the statements of its own goroutine,
three for each task goroutine, started or not, and the events of the environment not yet
seen. -/
def budget (n : ℕ) (s : StartState E W) : ℕ :=
  mainLeft n s.pc + workersLeft s.workers + 3 * (n - s.workers.length) +
    (if s.deadlineFired then 0 else 1) + (if s.parentDone then 0 else 1)

theorem budget_init (n : ℕ) (b : Bool) : budget n (init b : StartState E W) ≤ 4 * n + 7 := by
  cases b <;> simp [budget, init, mainLeft, workersLeft] <;> omega

theorem workersLeft_append (l : List (Worker E W)) (w : Worker E W) :
    workersLeft (l ++ [w]) = workersLeft l + w.pc.left := by
  induction l with
  | nil => simp [workersLeft]
  | cons v l ih => rw [List.cons_append, workersLeft, workersLeft, ih]; omega

theorem workersLeft_set {l : List (Worker E W)} {j : ℕ} {w : Worker E W} (hw : l[j]? = some w)
    (p : WorkerPc) : workersLeft (l.set j { w with pc := p }) + w.pc.left = workersLeft l + p.left := by
  induction l generalizing j with
  | nil => simp at hw
  | cons v l ih =>
    cases j with
    | zero =>
      simp only [List.getElem?_cons_zero, Option.some.injEq] at hw
      subst hw
      simp only [List.set_cons_zero, workersLeft]
      omega
    | succ j =>
      simp only [List.getElem?_cons_succ] at hw
      simp only [List.set_cons_succ, workersLeft]
      have := ih hw
      omega

/-- A step of a task goroutine spends one statement of it. -/
theorem budget_set {j : ℕ} {w : Worker E W} (hw : s.workers[j]? = some w) {p : WorkerPc}
    (hp : p.left + 1 = w.pc.left) (n : ℕ) {s₁ : StartState E W} (hpc : s₁.pc = s.pc)
    (hws : s₁.workers = s.workers.set j { w with pc := p })
    (hd : s₁.deadlineFired = s.deadlineFired) (hpd : s₁.parentDone = s.parentDone) :
    budget n s₁ + 1 = budget n s := by
  have := workersLeft_set hw p
  simp only [budget, hpc, hws, hd, hpd, List.length_set]
  omega

theorem OK.budget_main (hi : OK timeout tasks s) (h : s.mainStep timeout tasks = some s') :
    budget tasks.length s' < budget tasks.length s := by
  unfold mainStep at h
  split at h
  next hpc => cases h; simp [budget, mainLeft, hpc]
  next hpc => cases h; simp [budget, mainLeft, hpc]
  next i hpc =>
    split at h
    next t ht =>
      cases h
      have hp := hi.pc_ok
      simp only [PcOK, hpc] at hp
      have hlt := (List.getElem?_eq_some_iff.1 ht).1
      simp only [budget, mainLeft, hpc, workersLeft_append, List.length_append,
        List.length_singleton, WorkerPc.left]
      omega
    next => cases h; simp only [budget, mainLeft, hpc]; omega
  next hpc => split at h <;> cases h; simp [budget, mainLeft, hpc]
  next hpc => split at h <;> cases h; simp [budget, mainLeft, hpc]
  next => cases h

/-- **Every step spends one step of the budget.** -/
theorem OK.budget_step (hi : OK timeout tasks s) {a : StartAction}
    (h : s.step timeout tasks a = some s') : budget tasks.length s' < budget tasks.length s := by
  cases a with
  | main => exact hi.budget_main h
  | call j =>
    obtain ⟨w, hw, hp, rfl⟩ := step_call h
    exact Nat.lt_of_succ_le (le_of_eq
      (budget_set hw (p := .running) (by simp [hp, WorkerPc.left]) tasks.length rfl rfl rfl rfl))
  | ret j =>
    obtain ⟨w, hw, hp, rfl⟩ := step_ret h
    exact Nat.lt_of_succ_le (le_of_eq
      (budget_set hw (p := .finished) (by simp [hp, WorkerPc.left]) tasks.length rfl rfl rfl rfl))
  | done j =>
    obtain ⟨w, -, hw, hp, rfl⟩ := step_done h
    exact Nat.lt_of_succ_le (le_of_eq
      (budget_set hw (p := .done) (by simp [hp, WorkerPc.left]) tasks.length rfl rfl rfl rfl))
  | deadline =>
    obtain ⟨-, hf, rfl⟩ := step_deadline h
    simp [budget, hf]
  | cancelParent =>
    obtain ⟨hp, rfl⟩ := step_cancelParent h
    simp [budget, hp]

/-- A run spends one step of the budget per step. -/
theorem OK.run_length (hi : OK timeout tasks s) {as : List StartAction}
    (h : s.run timeout tasks as = some s') :
    as.length + budget tasks.length s' ≤ budget tasks.length s := by
  induction as generalizing s with
  | nil => cases h; simp
  | cons a as ih =>
    simp only [run, Option.bind_eq_some] at h
    obtain ⟨s₁, h₁, h⟩ := h
    have := ih (hi.step h₁) h
    have := hi.budget_step h₁
    simp only [List.length_cons]
    omega

/-- Once cancelled, the parent stays cancelled. -/
theorem step_parentDone_true {a : StartAction} (hp : s.parentDone = true)
    (h : s.step timeout tasks a = some s') : s'.parentDone = true := by
  by_cases ha : a = .cancelParent
  · subst ha
    simp [(step_cancelParent h).1] at hp
  · rw [step_parentDone ha h, hp]

theorem run_parentDone_true {as : List StartAction} (hp : s.parentDone = true)
    (h : s.run timeout tasks as = some s') : s'.parentDone = true := by
  induction as generalizing s with
  | nil => cases h; exact hp
  | cons a as ih =>
    simp only [run, Option.bind_eq_some] at h
    obtain ⟨s₁, h₁, h⟩ := h
    exact ih (step_parentDone_true hp h₁) h

end StartState

/-- A reachable state has at most `4 * len(tasks) + 7` steps left. -/
theorem StartReachable.budget_le {E W : Type} {timeout : Duration} {tasks : List (PcapTask E W)}
    {s : StartState E W} (h : StartReachable timeout tasks s) :
    s.budget tasks.length ≤ 4 * tasks.length + 7 := by
  induction h with
  | init => exact StartState.budget_init _ _
  | step _ hs hst ih => exact (hs.ok.budget_step hst).le.trans ih

/-- Every run from a reachable state of `start` has at most `4 * len(tasks) + 7` steps. -/
theorem StartReachable.run_length_le {E W : Type} {timeout : Duration}
    {tasks : List (PcapTask E W)} {s s' : StartState E W} (h : StartReachable timeout tasks s)
    {as : List StartAction} (hr : s.run timeout tasks as = some s') :
    as.length ≤ 4 * tasks.length + 7 := by
  have := h.ok.run_length hr
  have := h.budget_le
  omega

/-- With a positive timeout or a cancelled parent, `start` can always return on its own: from
every reachable state, some run of its goroutines and of the deadline, without the parent's
cancellation, ends with `start` returned. Each step spends budget, so the induction is on the
budget. -/
theorem StartReachable.completes {E W : Type} {timeout : Duration} {tasks : List (PcapTask E W)}
    {s : StartState E W} (h : StartReachable timeout tasks s)
    (ht : (0 : Duration).slt timeout = true ∨ s.parentDone = true) :
    ∃ as, (∀ a ∈ as, a ≠ .cancelParent) ∧ ∃ s', s.run timeout tasks as = some s' ∧
      s'.pc = .returned := by
  obtain ⟨n, hn⟩ : ∃ n, s.budget tasks.length = n := ⟨_, rfl⟩
  induction n using Nat.strong_induction_on generalizing s with
  | _ n ih =>
  by_cases hpc : s.pc = .returned
  · exact ⟨[], nofun, s, rfl, hpc⟩
  -- some step other than the parent's cancellation is enabled
  obtain ⟨a, ha, s₁, hs⟩ : ∃ a, a ≠ .cancelParent ∧ ∃ s₁, s.step timeout tasks a = some s₁ := by
    rcases h.ok.progress hpc with ⟨a, -, hc, hs⟩ | ⟨hw, hd⟩
    · exact ⟨a, hc, Option.isSome_iff_exists.1 hs⟩
    · -- at `<-ctx.Done()` the parent is live and the deadline has not fired yet
      rcases ht with ht | hp
      · have hpc := h.ok.pc_ok
        simp only [StartState.PcOK, hw] at hpc
        have hctx : s.ctx = .deadline timeout := by rw [hpc.2, execScope, if_pos ht]
        rw [hctx] at hd
        simp only [StartState.isDone, Bool.or_eq_false_iff] at hd
        exact ⟨.deadline, nofun, { s with deadlineFired := true }, by simp [StartState.step, hctx, hd.2]⟩
      · cases hctx : s.ctx <;> simp [StartState.isDone, hctx, hp] at hd
  obtain ⟨as, has, s', hr, hret⟩ := ih _ (hn ▸ h.ok.budget_step hs) (h.step a hs)
    (ht.imp id fun hp => StartState.step_parentDone_true hp hs) rfl
  exact ⟨a :: as, List.forall_mem_cons.2 ⟨ha, has⟩, s', by simp [StartState.run, hs, hr], hret⟩

/-- From every reachable state, the goroutines of `start` alone, without the deadline or the
parent's cancellation, reach a state where none of them can step. Each step spends budget. -/
theorem StartReachable.exists_blocked_run {E W : Type} {timeout : Duration}
    {tasks : List (PcapTask E W)} {s : StartState E W} (h : StartReachable timeout tasks s) :
    ∃ as, (∀ a ∈ as, a ≠ .deadline ∧ a ≠ .cancelParent) ∧ ∃ s', s.run timeout tasks as = some s' ∧
      StartState.Blocked timeout tasks s' := by
  obtain ⟨n, hn⟩ : ∃ n, s.budget tasks.length = n := ⟨_, rfl⟩
  induction n using Nat.strong_induction_on generalizing s with
  | _ n ih =>
  by_cases hb : StartState.Blocked timeout tasks s
  · exact ⟨[], nofun, s, rfl, hb⟩
  simp only [StartState.Blocked, not_forall] at hb
  obtain ⟨a, hd, hc, hs⟩ := hb
  obtain ⟨s₁, hs⟩ := Option.ne_none_iff_exists'.1 hs
  obtain ⟨as, has, s', hr, hb'⟩ := ih _ (hn ▸ h.ok.budget_step hs) (h.step a hs) rfl
  exact ⟨a :: as, List.forall_mem_cons.2 ⟨⟨hd, hc⟩, has⟩, s', by simp [StartState.run, hs, hr], hb'⟩

/-- With `timeout ≤ 0` the scope is the parent's, and no deadline ever passes. -/
theorem StartState.OK.deadline_none {E W : Type} {timeout : Duration} {tasks : List (PcapTask E W)}
    {s : StartState E W} (hi : OK timeout tasks s) (ht : (0 : Duration).slt timeout = false) :
    s.step timeout tasks .deadline = none := by
  have hctx : s.ctx = .parent := by
    have hp := hi.pc_ok
    unfold PcOK at hp
    split at hp <;> simp_all [execScope]
  simp [StartState.step, hctx]

open StartState in
/-- **`start` calls `engine.Start` exactly once per task, with that task's engine and writers
and the execution scope.** Along every interleaving: no goroutine calls twice; each call is the
`j`-th task's, in the execution scope; the group's counter is the number of task goroutines
that have not run `wg.Done()` (zero before the `Add`); past the spawn loop, the `j`-th
goroutine was passed the `j`-th task, for every task index. From every reachable state some
run of `start`'s goroutines alone makes the call of every task, and every run that stops
where no goroutine can step has made each call once and seen it return; once `start` has
returned, the counter is zero, every goroutine has run `wg.Done()` and the calls are one per
task index. -/
theorem start_calls_each_task_once {E W : Type} {timeout : Duration} {tasks : List (PcapTask E W)}
    {s : StartState E W} (h : StartReachable timeout tasks s) :
    (s.calls.map (·.worker)).Nodup ∧
    (∀ c ∈ s.calls, ∃ t, tasks[c.worker]? = some t ∧
      c.ctx = execScope timeout ∧ c.engine = t.engine ∧ c.writers = t.writers) ∧
    s.counter = (if s.pc = .add then 0 else tasks.length - s.doneCount) ∧
    (s.pc.pastSpawn = true → ∀ (j : ℕ) (t : PcapTask E W), tasks[j]? = some t →
      ∃ w : Worker E W, s.workers[j]? = some w ∧ w.task = t ∧ w.ctx = execScope timeout) ∧
    (∃ as, (∀ a ∈ as, a ≠ .deadline ∧ a ≠ .cancelParent) ∧ ∃ s', s.run timeout tasks as = some s' ∧
      (s'.calls.map (·.worker)).Perm (List.range tasks.length)) ∧
    (∀ as s', s.run timeout tasks as = some s' → Blocked timeout tasks s' →
      (s'.calls.map (·.worker)).Perm (List.range tasks.length) ∧ ∀ w ∈ s'.workers, w.pc = .done) ∧
    (s.pc = .returned → s.counter = 0 ∧ (∀ w ∈ s.workers, w.pc = .done) ∧
      (s.calls.map (·.worker)).Perm (List.range tasks.length)) := by
  have hi := h.ok
  have stops : ∀ as s', s.run timeout tasks as = some s' → Blocked timeout tasks s' →
      (s'.calls.map (·.worker)).Perm (List.range tasks.length) ∧ ∀ w ∈ s'.workers, w.pc = .done :=
    fun as s' hr hb => (h.run as hr).ok.blocked_calls hb
  obtain ⟨as, has, s', hr, hb⟩ := h.exists_blocked_run
  exact ⟨hi.calls_nodup, hi.calls_task, hi.counter_eq, fun hpc _ _ ht => hi.worker_of_task hpc ht,
    ⟨as, has, s', hr, (stops as s' hr hb).1⟩, stops, fun hpc =>
      ⟨hi.returned_zero hpc, hi.all_done hpc, hi.calls_perm hpc⟩⟩

/-- `start(ctx, 0, twoTasks)` past its spawn loop, the second goroutine having called
`engine.Start` and the first not yet. -/
def twoMidway : StartState Unit Unit :=
  ((StartState.init false).run 0 twoTasks [.main, .main, .main, .main, .main, .call 1]).getD
    (StartState.init false)

theorem start_calls_each_task_once_midway :
    StartReachable 0 twoTasks twoMidway ∧ twoMidway.calls.map (·.worker) = [1] ∧
      (twoMidway.calls.map (·.worker)).Nodup ∧
      (∀ c ∈ twoMidway.calls, ∃ t, twoTasks[c.worker]? = some t ∧
        c.ctx = execScope 0 ∧ c.engine = t.engine ∧ c.writers = t.writers) ∧
      twoMidway.counter = (if twoMidway.pc = .add then 0 else twoTasks.length - twoMidway.doneCount) ∧
      (twoMidway.pc.pastSpawn = true → ∀ (j : ℕ) (t : PcapTask Unit Unit), twoTasks[j]? = some t →
        ∃ w : Worker Unit Unit, twoMidway.workers[j]? = some w ∧ w.task = t ∧ w.ctx = execScope 0) ∧
      (∃ as, (∀ a ∈ as, a ≠ .deadline ∧ a ≠ .cancelParent) ∧ ∃ s', twoMidway.run 0 twoTasks as = some s' ∧
        (s'.calls.map (·.worker)).Perm (List.range twoTasks.length)) ∧
      (∀ as s', twoMidway.run 0 twoTasks as = some s' → StartState.Blocked 0 twoTasks s' →
        (s'.calls.map (·.worker)).Perm (List.range twoTasks.length) ∧ ∀ w ∈ s'.workers, w.pc = .done) ∧
      (twoMidway.pc = .returned → twoMidway.counter = 0 ∧ (∀ w ∈ twoMidway.workers, w.pc = .done) ∧
        (twoMidway.calls.map (·.worker)).Perm (List.range twoTasks.length)) :=
  have reach : StartReachable 0 twoTasks twoMidway :=
    StartReachable.init.run [.main, .main, .main, .main, .main, .call 1] rfl
  ⟨reach, rfl, start_calls_each_task_once reach⟩

open StartState in
/-- **`start` returns only once its scope is done.** Along every interleaving, `start` returns
only when its scope is done (the parent cancelled, or the deadline passed) and every task
goroutine has run `wg.Done()`. Blocked at `<-ctx.Done()` on a live scope after every goroutine
has run `wg.Done()`, it moves only on the deadline or the parent's cancellation, and with
`timeout ≤ 0` no deadline ever passes. From every reachable state some run returns: with a
positive timeout or a cancelled parent without the parent's cancellation, otherwise after
it. -/
theorem start_waits_for_scope {E W : Type} {timeout : Duration} {tasks : List (PcapTask E W)}
    {s : StartState E W} (h : StartReachable timeout tasks s) :
    (s.pc = .returned → s.isDone s.ctx = true ∧ ∀ w ∈ s.workers, w.pc = .done) ∧
    (s.pc = .waitDone → s.isDone s.ctx = false → (∀ w ∈ s.workers, w.pc = .done) →
      ∀ a, (s.step timeout tasks a).isSome → a = .deadline ∨ a = .cancelParent) ∧
    ((0 : Duration).slt timeout = false → s.step timeout tasks .deadline = none) ∧
    ((0 : Duration).slt timeout = true ∨ s.parentDone = true →
      ∃ as, (∀ a ∈ as, a ≠ .cancelParent) ∧ ∃ s', s.run timeout tasks as = some s' ∧
        s'.pc = .returned) ∧
    ∃ as s', s.run timeout tasks as = some s' ∧ s'.pc = .returned := by
  have hi := h.ok
  -- a run that returns: after the parent's cancellation if it is needed
  have hret : ∃ as s', s.run timeout tasks as = some s' ∧ s'.pc = .returned := by
    cases hp : s.parentDone
    · have hs : s.step timeout tasks .cancelParent = some { s with parentDone := true } := by
        simp [step, hp]
      obtain ⟨as, -, s', hr, hpc⟩ := (h.step _ hs).completes (.inr rfl)
      exact ⟨.cancelParent :: as, s', by simp [run, hs, hr], hpc⟩
    · obtain ⟨as, -, s', hr, hpc⟩ := h.completes (.inr hp)
      exact ⟨as, s', hr, hpc⟩
  exact ⟨fun hpc => ⟨hi.wait_done (.inr hpc), hi.all_done hpc⟩, waitDone_blocked,
    hi.deadline_none, h.completes, hret⟩

/-- `start(ctx, 1ns, twoTasks)` past its spawn loop, the first goroutine done. -/
def twoFirstDone : StartState Unit Unit :=
  ((StartState.init false).run 1 twoTasks
    [.main, .main, .main, .main, .main, .call 0, .ret 0, .done 0]).getD (StartState.init false)

theorem start_waits_for_scope_twoFirstDone :
    StartReachable 1 twoTasks twoFirstDone ∧ twoFirstDone.pc = .waitDone ∧
      (twoFirstDone.pc = .returned → twoFirstDone.isDone twoFirstDone.ctx = true ∧
        ∀ w ∈ twoFirstDone.workers, w.pc = .done) ∧
      (twoFirstDone.pc = .waitDone → twoFirstDone.isDone twoFirstDone.ctx = false →
        (∀ w ∈ twoFirstDone.workers, w.pc = .done) →
        ∀ a, (twoFirstDone.step 1 twoTasks a).isSome → a = .deadline ∨ a = .cancelParent) ∧
      ((0 : Duration).slt 1 = false → twoFirstDone.step 1 twoTasks .deadline = none) ∧
      ((0 : Duration).slt 1 = true ∨ twoFirstDone.parentDone = true →
        ∃ as, (∀ a ∈ as, a ≠ .cancelParent) ∧ ∃ s', twoFirstDone.run 1 twoTasks as = some s' ∧
          s'.pc = .returned) ∧
      ∃ as s', twoFirstDone.run 1 twoTasks as = some s' ∧ s'.pc = .returned :=
  have reach : StartReachable 1 twoTasks twoFirstDone :=
    StartReachable.init.run [.main, .main, .main, .main, .main, .call 0, .ret 0, .done 0] rfl
  ⟨reach, rfl, start_waits_for_scope reach⟩

/-- The state after `start(ctx, 0, oneTask)` has spawned its goroutine and the engine has
returned on its own. -/
def engineReturned : StartState Unit Unit :=
  { pc := .waitDone, ctx := .parent, counter := 0, workers := [⟨.parent, ⟨(), []⟩, .done⟩],
    calls := [⟨0, .parent, (), []⟩], parentDone := false, deadlineFired := false }

/-- With `timeout = 0` and one task whose engine returns on its own, `start` reaches a state
where its goroutine has run `wg.Done()` and `start` is still blocked: no deadline exists, and
only the parent's cancellation moves it. -/
theorem start_waits_for_scope_timeout_zero :
    StartReachable 0 oneTask engineReturned ∧ engineReturned.pc = .waitDone ∧
      engineReturned.isDone engineReturned.ctx = false ∧
      (∀ w ∈ engineReturned.workers, w.pc = .done) ∧
      (∀ a, (engineReturned.step 0 oneTask a).isSome → a = .deadline ∨ a = .cancelParent) ∧
      engineReturned.step 0 oneTask .deadline = none :=
  ⟨StartReachable.init.run [.main, .main, .main, .main, .call 0, .ret 0, .done 0] rfl,
    rfl, rfl, by decide, StartState.waitDone_blocked rfl rfl (by decide), rfl⟩

open StartState in
/-- **Once its parent is cancelled, `start` returns, whatever the interleaving.** From a
reachable state whose parent context is cancelled, the goroutines of `start` alone can bring
it to its return; every run has at most `4 * len(tasks) + 7` steps, and one that stops where
no goroutine of `start` can step stops with `start` returned and every task goroutine past
`wg.Done()`. -/
theorem start_returns_once_cancelled {E W : Type} {timeout : Duration}
    {tasks : List (PcapTask E W)} {s : StartState E W} (h : StartReachable timeout tasks s)
    (hp : s.parentDone = true) :
    (∃ as, (∀ a ∈ as, a ≠ .deadline ∧ a ≠ .cancelParent) ∧ ∃ s', s.run timeout tasks as = some s' ∧
      s'.pc = .returned) ∧
    ∀ as s', s.run timeout tasks as = some s' → as.length ≤ 4 * tasks.length + 7 ∧
      (Blocked timeout tasks s' → s'.pc = .returned ∧ ∀ w ∈ s'.workers, w.pc = .done) := by
  -- with the parent cancelled the scope is done, so a blocked `start` has returned
  have ret : ∀ as s', s.run timeout tasks as = some s' → Blocked timeout tasks s' →
      s'.pc = .returned := by
    intro as s' hr hb
    have hp' := run_parentDone_true hp hr
    rcases (h.run as hr).ok.blocked hb with hpc | ⟨-, hd, -⟩
    · exact hpc
    · cases hctx : s'.ctx <;> simp [isDone, hctx, hp'] at hd
  obtain ⟨as, has, s', hr, hb⟩ := h.exists_blocked_run
  refine ⟨⟨as, has, s', hr, ret as s' hr hb⟩, fun bs s'' hr' => ⟨h.run_length_le hr', fun hb' => ?_⟩⟩
  have hpc := ret bs s'' hr' hb'
  exact ⟨hpc, (h.run bs hr').ok.all_done hpc⟩

/-- `start(ctx, 0, twoTasks)` once the first goroutine has called `engine.Start` and the
parent has been cancelled. -/
def twoCancelled : StartState Unit Unit :=
  ((StartState.init false).run 0 twoTasks
    [.main, .main, .main, .main, .main, .call 0, .cancelParent]).getD (StartState.init false)

theorem start_returns_once_cancelled_twoCancelled :
    StartReachable 0 twoTasks twoCancelled ∧ twoCancelled.parentDone = true ∧
      (∃ as, (∀ a ∈ as, a ≠ .deadline ∧ a ≠ .cancelParent) ∧ ∃ s', twoCancelled.run 0 twoTasks as = some s' ∧
        s'.pc = .returned) ∧
      ∀ as s', twoCancelled.run 0 twoTasks as = some s' → as.length ≤ 4 * twoTasks.length + 7 ∧
        (StartState.Blocked 0 twoTasks s' → s'.pc = .returned ∧ ∀ w ∈ s'.workers, w.pc = .done) :=
  have reach : StartReachable 0 twoTasks twoCancelled :=
    StartReachable.init.run [.main, .main, .main, .main, .main, .call 0, .cancelParent] rfl
  ⟨reach, rfl, start_returns_once_cancelled reach rfl⟩

open StartState in
/-- **With a positive timeout, `start` returns on its own, whatever the interleaving and with
the parent still live.** From a reachable state of `start(ctx, timeout, tasks)` with
`timeout > 0`, the goroutines of `start` and the deadline can bring it to its return; every
run has at most `4 * len(tasks) + 7` steps, and one that stops where nothing but the parent's
cancellation can step (the deadline has passed and every engine has returned) stops with
`start` returned and every task goroutine past `wg.Done()`. -/
theorem start_returns_after_deadline {E W : Type} {timeout : Duration}
    {tasks : List (PcapTask E W)} {s : StartState E W} (h : StartReachable timeout tasks s)
    (ht : (0 : Duration).slt timeout = true) :
    (∃ as, (∀ a ∈ as, a ≠ .cancelParent) ∧ ∃ s', s.run timeout tasks as = some s' ∧
      s'.pc = .returned) ∧
    ∀ as s', s.run timeout tasks as = some s' → as.length ≤ 4 * tasks.length + 7 ∧
      ((∀ a, a ≠ .cancelParent → s'.step timeout tasks a = none) →
        s'.pc = .returned ∧ ∀ w ∈ s'.workers, w.pc = .done) := by
  refine ⟨h.completes (.inl ht), fun as s' hr => ⟨h.run_length_le hr, fun hstuck => ?_⟩⟩
  have h' := h.run as hr
  have hret : s'.pc = .returned := by
    rcases h'.ok.blocked fun a hd hc => hstuck a hc with hpc | ⟨hw, hd, -⟩
    · exact hpc
    · -- at `<-ctx.Done()` the scope is the deadline's, and it would still fire
      have hctx : s'.ctx = .deadline timeout := by
        have hp := h'.ok.pc_ok
        simp only [PcOK, hw] at hp
        rw [hp.2, execScope, if_pos ht]
      have hdl := hstuck .deadline nofun
      simp_all [step, isDone]
  exact ⟨hret, h'.ok.all_done hret⟩

/-- `start(ctx, 1ns, twoTasks)` past its spawn loop, on a live parent, the first goroutine
done. -/
theorem start_returns_after_deadline_twoFirstDone :
    StartReachable 1 twoTasks twoFirstDone ∧ (0 : Duration).slt 1 = true ∧
      (∃ as, (∀ a ∈ as, a ≠ .cancelParent) ∧ ∃ s', twoFirstDone.run 1 twoTasks as = some s' ∧
        s'.pc = .returned) ∧
      ∀ as s', twoFirstDone.run 1 twoTasks as = some s' → as.length ≤ 4 * twoTasks.length + 7 ∧
        ((∀ a, a ≠ .cancelParent → s'.step 1 twoTasks a = none) →
          s'.pc = .returned ∧ ∀ w ∈ s'.workers, w.pc = .done) :=
  have reach : StartReachable 1 twoTasks twoFirstDone :=
    StartReachable.init.run [.main, .main, .main, .main, .main, .call 0, .ret 0, .done 0] rfl
  ⟨reach, by decide, start_returns_after_deadline reach (by decide)⟩

end Tcpdumpw
