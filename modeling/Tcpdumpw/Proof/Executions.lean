import Tcpdumpw.Proof.Process

/-!
# The job's executions, one after another

The spec asks that no two executions of the job overlap, and that an execution's
`"execution started"` come before its `"execution complete"`. `sequentialMarks` is the log of
a job that runs its executions one at a time: for the `k`-th, `"execution started"` with its
`LastRun`, then `"execution complete"`, each stamped as `jlog` stamps it.

`executions_sequential`: in every reachable state of the process, whatever the interleaving of
`main`, the executor, the signal goroutine and the engines, the log's `"execution started"`
and `"execution complete"` entries are the first ones of that sequential log; only the marks
of the execution in progress can be missing (`ExecPc.pending`). The invariant `MarkInv` is
kept by every action: steps other than the executor's stutter, and the executor logs the next
mark.
-/

namespace Tcpdumpw

variable {E W : Type}

/-- `"execution started"` or `"execution complete"`: the entries that open and close an
execution. -/
def JLogEntry.marksExecution (e : JLogEntry) : Bool :=
  e.message.isExecutionStarted || e.message.isExecutionComplete

/-- The marks of the `k`-th execution (from `1`) of `job` when the executions run one at a
time: `"execution started"` with its `LastRun`, stamped `uuid.Nil`, which `xid` holds between
executions, then `"execution complete"`, stamped with the id `uuid.New()` gave it. -/
def execMarks (cfg : Config E W) (job : TcpdumpJob E W) (k : ℕ) : List JLogEntry :=
  [jlog cfg.env UUID.nil .info job (.executionStarted (cfg.lastRun k)),
    jlog cfg.env (newRandom (cfg.random k)) .info job .executionComplete]

/-- The marks of the first `n` executions of a job that runs them one at a time. -/
def sequentialMarks (cfg : Config E W) (job : TcpdumpJob E W) : ℕ → List JLogEntry
  | 0 => []
  | n + 1 => sequentialMarks cfg job n ++ execMarks cfg job (n + 1)

/-- The marks of the execution at `e` that are still to be logged. -/
def ExecPc.pending : ExecPc E W → ℕ
  | .before => 2
  | .mint | .task | .running | .afterLog => 1
  | .idle | .afterNext _ | .afterReset => 0

section Sequential

variable {cfg : Config E W} {job : TcpdumpJob E W}

theorem length_sequentialMarks (n : ℕ) : (sequentialMarks cfg job n).length = 2 * n := by
  induction n with
  | zero => rfl
  | succ n ih => simp [sequentialMarks, ih, execMarks]; omega

/-- The first marks of `n + 1` executions: all of the first `n`, then the first of the last. -/
theorem take_sequentialMarks_succ (m p : ℕ) (hp : p ≤ 2) :
    (sequentialMarks cfg job (m + 1)).take (2 * (m + 1) - p) =
      sequentialMarks cfg job m ++ (execMarks cfg job (m + 1)).take (2 - p) := by
  rw [sequentialMarks, List.take_append_eq_append_take, length_sequentialMarks,
    List.take_of_length_le (by rw [length_sequentialMarks]; omega)]
  congr 2
  omega

theorem take_sequentialMarks_self (n : ℕ) :
    (sequentialMarks cfg job n).take (2 * n) = sequentialMarks cfg job n :=
  List.take_of_length_le (by rw [length_sequentialMarks])

end Sequential

namespace ProcState

variable {cfg : Config E W} {s s' : ProcState E W}

/-- Entries that are not a hook's mark no execution. -/
theorem filter_marks_of_plain (hl : LogsPlain s s') :
    s'.log.filter (·.marksExecution) = s.log.filter (·.marksExecution) := by
  obtain ⟨hpre, hnew⟩ := hl
  have hn : (s'.log.drop s.log.length).filter (·.marksExecution) = [] :=
    List.filter_eq_nil_iff.2 fun e he => by
      have hk := (hnew e he).2
      simp [JLogEntry.marksExecution, Msg.isExecutionStarted_of_isHook hk,
        Msg.isExecutionComplete_of_isHook hk]
  rw [← List.prefix_iff_eq_append.1 hpre, List.filter_append, hn, List.append_nil]

/-- What `main`'s statements do to the job and to the point past `jobs.Store`. -/
theorem mainStep_job (h : s.mainStep cfg = some s') :
    (s'.job = s.job ∨ s.pc = .storeJob) ∧ (s.pc.stored = true → s'.pc.stored = true) := by
  unfold mainStep at h
  split at h <;> (repeat' split at h) <;> cases h <;> simp_all [MainPc.stored, ProcState.jlog, cancel]

theorem handlerStep_job (h : s.handlerStep cfg = some s') : s'.job = s.job ∧ s'.pc = s.pc := by
  unfold handlerStep at h
  split at h <;> (repeat' split at h) <;> cases h <;> exact ⟨rfl, rfl⟩

/-- The log's marks are those of the sequential job, up to the execution in progress. -/
structure MarkInv (cfg : Config E W) (s : ProcState E W) : Prop where
  marks : s.log.filter (·.marksExecution) =
    (sequentialMarks cfg s.job s.execs).take (2 * s.execs - s.exec.pending)
  execs_pos : s.exec.isIdle = false → 0 < s.execs
  execs_stored : s.pc.stored = false → s.execs = 0

theorem MarkInv.init : MarkInv cfg (init cfg) where
  marks := List.filter_eq_nil_iff.2 fun e he => by
    have hk := (cfg.setupLog_plain e he).2
    simp [JLogEntry.marksExecution, Msg.isExecutionStarted_of_isHook hk,
      Msg.isExecutionComplete_of_isHook hk]
  execs_pos := nofun
  execs_stored := fun _ => rfl

/-- A step that logs no mark and keeps the executor's marks and the job (or runs before any
execution) keeps the invariant. -/
theorem MarkInv.plain (hi : MarkInv cfg s) (hp : s'.exec.pending = s.exec.pending)
    (hidle : s'.exec.isIdle = false → s.exec.isIdle = false) (hn : s'.execs = s.execs)
    (hj : s'.job = s.job ∨ s.execs = 0) (hs : s.pc.stored = true → s'.pc.stored = true)
    (hl : LogsPlain s s') : MarkInv cfg s' where
  marks := by
    rw [filter_marks_of_plain hl, hi.marks, hp, hn]
    rcases hj with hj | h0
    · rw [hj]
    · simp [h0]
  execs_pos := fun he => hn ▸ hi.execs_pos (hidle he)
  execs_stored := fun hst => hn ▸ hi.execs_stored (by
    cases h : s.pc.stored
    · rfl
    · simp [hs h] at hst)

theorem MarkInv.trigger (hi : MarkInv cfg s) (h : s.step cfg .trigger = some s') : MarkInv cfg s' := by
  obtain ⟨hr, hidle, rfl⟩ := step_trigger h
  have he : s.exec = .idle := by cases he : s.exec <;> simp_all [ExecPc.isIdle]
  refine ⟨?_, fun _ => Nat.succ_pos _, fun hst => ?_⟩
  · have hm := hi.marks
    rw [he, ExecPc.pending, Nat.sub_zero, take_sequentialMarks_self] at hm
    simp only [ExecPc.pending]
    rw [take_sequentialMarks_succ _ 2 (le_refl _), hm]
    simp
  · simp [MainPc.stored_of_schedulerRunning hr] at hst

/-- The executor logs the next mark of the execution in progress, or none. -/
theorem MarkInv.exec (hc : CtlInv cfg s) (hl : LogInv cfg s) (hi : MarkInv cfg s)
    (h : s.step cfg .exec = some s') : MarkInv cfg s' := by
  have hx := hl.xid_eq
  rcases hc.execStep_cases (step_exec h) with ⟨he, rfl⟩ | ⟨he, rfl⟩ | ⟨he, rfl⟩ | ⟨he, -, rfl⟩ |
    ⟨he, rfl⟩ | ⟨job, he, rfl⟩ | ⟨he, rfl⟩
  · -- `beforeTcpdump` logs `"execution started"`
    obtain ⟨m, hm⟩ := Nat.exists_eq_succ_of_ne_zero (hi.execs_pos (by rw [he]; rfl)).ne'
    have hmarks := hi.marks
    rw [he, hm, ExecPc.pending, take_sequentialMarks_succ _ 2 (le_refl _)] at hmarks
    rw [he] at hx
    refine ⟨?_, fun _ => hm ▸ Nat.succ_pos m, hi.execs_stored⟩
    simp only [jlog_log, List.filter_append, hmarks, hm, jlog_execs, ExecPc.pending]
    rw [take_sequentialMarks_succ _ 1 (by omega)]
    simp [hx, ExecPc.minted, execMarks, JLogEntry.marksExecution, Msg.isExecutionStarted, hm,
      ProcState.jlog]
  · exact hi.plain (by rw [he]; rfl) (fun _ => by rw [he]; rfl) rfl (.inl rfl) id (.refl _ _ rfl)
  · exact hi.plain (by rw [he]; rfl) (fun _ => by rw [he]; rfl) rfl (.inl rfl) id (.refl _ _ rfl)
  · exact hi.plain (by rw [he]; rfl) (fun _ => by rw [he]; rfl) rfl (.inl rfl) id (.refl _ _ rfl)
  · -- `afterTcpdump` logs `"execution complete"`
    obtain ⟨m, hm⟩ := Nat.exists_eq_succ_of_ne_zero (hi.execs_pos (by rw [he]; rfl)).ne'
    have hmarks := hi.marks
    rw [he, hm, ExecPc.pending, take_sequentialMarks_succ _ 1 (by omega)] at hmarks
    rw [he, hm] at hx
    refine ⟨?_, fun _ => hm ▸ Nat.succ_pos m, hi.execs_stored⟩
    simp only [jlog_log, List.filter_append, hmarks, hm, jlog_execs, ExecPc.pending]
    rw [take_sequentialMarks_succ _ 0 (by omega)]
    simp [hx, ExecPc.minted, execMarks, JLogEntry.marksExecution, Msg.isExecutionStarted,
      Msg.isExecutionComplete, ProcState.jlog]
  · exact hi.plain (by rw [he]; rfl) (fun _ => by rw [he]; rfl) rfl (.inl rfl) id
      (by simp [LogsPlain, Msg.isHook])
  · exact hi.plain (by rw [he]; rfl) nofun rfl (.inl rfl) id (.refl _ _ rfl)

theorem MarkInv.step (hc : CtlInv cfg s) (hl : LogInv cfg s) (hi : MarkInv cfg s) {a : ProcAction}
    (h : s.step cfg a = some s') : MarkInv cfg s' := by
  cases a with
  | main =>
    have h := step_main h
    obtain ⟨-, he, hn, hlog⟩ := mainStep_frame h
    obtain ⟨hj, hs⟩ := mainStep_job h
    refine hi.plain (by rw [he]) (fun h' => by rwa [← he]) hn ?_ hs hlog
    rcases hj with hj | hpc
    · exact .inl hj
    · exact .inr (hi.execs_stored (by rw [hpc]; rfl))
  | start a =>
    obtain ⟨-, c, st, -, -, rfl⟩ := step_start h
    exact hi.plain rfl id rfl (.inl rfl) id (.refl _ _ rfl)
  | trigger => exact hi.trigger h
  | exec => exact hi.exec hc hl h
  | handler =>
    have h := step_handler h
    obtain ⟨-, he, hn, hlog⟩ := handlerStep_frame h
    obtain ⟨hj, hpc⟩ := handlerStep_job h
    exact hi.plain (by rw [he]) (fun h' => by rwa [← he]) hn (.inl hj) (fun h' => by rwa [hpc])
      hlog
  | signal sig =>
    rcases step_signal h with ⟨-, rfl | rfl⟩ | ⟨-, rfl⟩
    · exact hi.plain rfl id rfl (.inl rfl) id (.refl _ _ rfl)
    · exact hi
    · exact hi.plain rfl id rfl (.inl rfl) id (.refl _ _ rfl)

end ProcState

open ProcState

theorem ProcReachable.marks {cfg : Config E W} {s : ProcState E W} (h : ProcReachable cfg s) :
    MarkInv cfg s := by
  induction h with
  | init => exact .init
  | step a hr hs ih => exact ih.step hr.inv.1 hr.inv.2 hs

end Tcpdumpw
