import Tcpdumpw.Spec.Start

/-!
# Runs of `start`

* `StartState.OK`: the invariant of every run. The goroutine started for the `j`-th task was
  passed that task and the execution scope; from the `Add` on, the group's counter plus the
  goroutines that ran `wg.Done()` make `len(tasks)`; every call to `engine.Start` was made by
  a distinct goroutine with the task and scope it was passed; `wg.Wait` is reached only once
  the scope is done. `OK.step` is the step lemma, one case per action, `StartReachable.ok`
  the run lemma.
* `start_progress`: until it returns, `start` always has a step of its own goroutine or of a
  task goroutine, unless it waits at `<-ctx.Done()` on a scope that is not done.
* `OK.blocked`, `OK.blocked_calls`: where no goroutine of `start` can step, `start` has
  returned or waits at `<-ctx.Done()`, and either way every task's `engine.Start` has been
  called once and has returned.

What every run of `start` ends with is in `Termination`.
-/
namespace Tcpdumpw

/-- `start` is past its spawn loop. -/
def StartPc.pastSpawn : StartPc → Bool
  | .waitDone | .waitGroup | .returned => true
  | _ => false

namespace StartState

variable {E W : Type} {timeout : Duration} {tasks : List (PcapTask E W)} {s s' : StartState E W}

/-- The goroutines that have run their deferred `wg.Done()`. -/
def doneCount (s : StartState E W) : ℕ := s.workers.countP fun w => w.pc = .done

/-- How `start`'s program point constrains the rest of the state. -/
def PcOK (timeout : Duration) (tasks : List (PcapTask E W)) (s : StartState E W) : Prop :=
  match s.pc with
  | .add | .withTimeout => s.workers.length = 0 ∧ s.ctx = .parent
  | .spawn i => i = s.workers.length ∧ s.ctx = execScope timeout
  | _ => s.workers.length = tasks.length ∧ s.ctx = execScope timeout

/-! ## What each step does -/

theorem advance_eq_some {j : ℕ} {pc pc' : WorkerPc} {w : Worker E W} :
    s.advance j pc pc' = some (w, s') ↔
      s.workers[j]? = some w ∧ w.pc = pc ∧
        s' = { s with workers := s.workers.set j { w with pc := pc' } } := by
  unfold advance
  split
  · rename_i w₀ hw
    by_cases hp : w₀.pc = pc
    · simp only [hp, if_true, Option.some.injEq, Prod.mk.injEq, hw]
      constructor
      · rintro ⟨rfl, rfl⟩; exact ⟨rfl, hp, rfl⟩
      · rintro ⟨rfl, -, rfl⟩; exact ⟨rfl, rfl⟩
    · simp only [hp, if_false, hw, Option.some.injEq]
      constructor
      · intro h; cases h
      · rintro ⟨rfl, h, -⟩; exact absurd h hp
  · rename_i hw
    simp [hw]

theorem step_call {j : ℕ} (h : s.step timeout tasks (.call j) = some s') :
    ∃ w, s.workers[j]? = some w ∧ w.pc = .begin ∧
      s' = { s with
        workers := s.workers.set j { w with pc := .running }
        calls := s.calls ++ [⟨j, w.ctx, w.task.engine, w.task.writers⟩] } := by
  simp only [step, Option.map_eq_some'] at h
  obtain ⟨⟨w, s₁⟩, ha, rfl⟩ := h
  obtain ⟨hw, hp, rfl⟩ := advance_eq_some.1 ha
  exact ⟨w, hw, hp, rfl⟩

theorem step_ret {j : ℕ} (h : s.step timeout tasks (.ret j) = some s') :
    ∃ w, s.workers[j]? = some w ∧ w.pc = .running ∧
      s' = { s with workers := s.workers.set j { w with pc := .finished } } := by
  simp only [step, Option.map_eq_some'] at h
  obtain ⟨⟨w, s₁⟩, ha, rfl⟩ := h
  obtain ⟨hw, hp, rfl⟩ := advance_eq_some.1 ha
  exact ⟨w, hw, hp, rfl⟩

theorem step_done {j : ℕ} (h : s.step timeout tasks (.done j) = some s') :
    ∃ w, s.counter ≠ 0 ∧ s.workers[j]? = some w ∧ w.pc = .finished ∧
      s' = { s with workers := s.workers.set j { w with pc := .done }, counter := s.counter - 1 } := by
  simp only [step] at h
  split at h
  · cases h
  · rename_i hc
    simp only [Option.map_eq_some'] at h
    obtain ⟨⟨w, s₁⟩, ha, rfl⟩ := h
    obtain ⟨hw, hp, rfl⟩ := advance_eq_some.1 ha
    exact ⟨w, hc, hw, hp, rfl⟩

theorem step_deadline (h : s.step timeout tasks .deadline = some s') :
    (∃ d, s.ctx = .deadline d) ∧ s.deadlineFired = false ∧ s' = { s with deadlineFired := true } := by
  simp only [step] at h
  split at h
  · split at h
    · cases h
    · rename_i d hd hf
      cases h; exact ⟨⟨d, hd⟩, by simpa using hf, rfl⟩
  · cases h

theorem step_cancelParent (h : s.step timeout tasks .cancelParent = some s') :
    s.parentDone = false ∧ s' = { s with parentDone := true } := by
  simp only [step] at h
  split at h
  · cases h
  · rename_i hp
    cases h; exact ⟨by simpa using hp, rfl⟩

/-! ## The invariant -/

/-- The invariant of `start`'s runs. -/
structure OK (timeout : Duration) (tasks : List (PcapTask E W)) (s : StartState E W) : Prop where
  workers_le : s.workers.length ≤ tasks.length
  worker_arg : ∀ (j : ℕ) (w : Worker E W), s.workers[j]? = some w → tasks[j]? = some w.task ∧ w.ctx = execScope timeout
  pc_ok : PcOK timeout tasks s
  counter : s.counter + s.doneCount = if s.pc = .add then 0 else tasks.length
  calls_nodup : (s.calls.map (·.worker)).Nodup
  calls_ok : ∀ c ∈ s.calls, ∃ w, s.workers[c.worker]? = some w ∧ w.pc ≠ .begin ∧
    c.ctx = w.ctx ∧ c.engine = w.task.engine ∧ c.writers = w.task.writers
  calls_complete : ∀ (j : ℕ) (w : Worker E W), s.workers[j]? = some w → w.pc ≠ .begin → ∃ c ∈ s.calls, c.worker = j
  wait_done : s.pc = .waitGroup ∨ s.pc = .returned → s.isDone s.ctx = true
  returned_zero : s.pc = .returned → s.counter = 0

theorem OK.init : OK timeout tasks (init false : StartState E W) where
  workers_le := by simp [StartState.init]
  worker_arg := by simp [StartState.init]
  pc_ok := by simp [PcOK, StartState.init]
  counter := by simp [StartState.init, doneCount]
  calls_nodup := by simp [StartState.init]
  calls_ok := by simp [StartState.init]
  calls_complete := by simp [StartState.init]
  wait_done := by simp [StartState.init]
  returned_zero := by simp [StartState.init]

theorem PcOK.congr {s₁ : StartState E W} (h : PcOK timeout tasks s) (hpc : s₁.pc = s.pc)
    (hctx : s₁.ctx = s.ctx) (hlen : s₁.workers.length = s.workers.length) :
    PcOK timeout tasks s₁ := by
  unfold PcOK at h ⊢
  rw [hpc, hctx, hlen]
  exact h

theorem isDone_mono {s₁ : StartState E W} {c : Scope} (h : s.isDone c = true)
    (hp : s.parentDone → s₁.parentDone) (hd : s.deadlineFired → s₁.deadlineFired) :
    s₁.isDone c = true := by
  cases c <;> simp only [isDone, Bool.or_eq_true] at h ⊢ <;> tauto

/-! ### Goroutine steps -/

section Worker

variable {j : ℕ} {w : Worker E W} {p : WorkerPc}

theorem getElem?_set_pc (hw : s.workers[j]? = some w) (k : ℕ) :
    (s.workers.set j { w with pc := p })[k]? = if j = k then some { w with pc := p } else s.workers[k]? := by
  rw [List.getElem?_set]
  have hj : j < s.workers.length := (List.getElem?_eq_some_iff.1 hw).1
  simp [hj]

theorem worker_arg_set (hi : OK timeout tasks s) (hw : s.workers[j]? = some w) :
    ∀ (k : ℕ) (v : Worker E W), (s.workers.set j { w with pc := p })[k]? = some v →
      tasks[k]? = some v.task ∧ v.ctx = execScope timeout := by
  intro k v hv
  rw [getElem?_set_pc hw] at hv
  split at hv
  · subst k; cases hv; exact hi.worker_arg j w hw
  · exact hi.worker_arg k v hv

theorem doneCount_set (hw : s.workers[j]? = some w) (p : WorkerPc) :
    (s.workers.set j { w with pc := p }).countP (fun v => v.pc = .done) +
      (if w.pc = .done then 1 else 0) = s.doneCount + (if p = .done then 1 else 0) := by
  obtain ⟨hj, hwj⟩ := List.getElem?_eq_some_iff.1 hw
  have hle := List.boole_getElem_le_countP (fun w : Worker E W => decide (w.pc = .done)) s.workers j hj
  simp only [doneCount, List.countP_set _ _ _ _ hj, hwj] at hle ⊢
  split <;> split <;> simp_all

/-- A goroutine's step keeps every call's record. -/
theorem calls_ok_set (hi : OK timeout tasks s) (hw : s.workers[j]? = some w) (hp' : p ≠ .begin) : ∀ c ∈ s.calls, ∃ v, (s.workers.set j { w with pc := p })[c.worker]? = some v ∧
      v.pc ≠ .begin ∧ c.ctx = v.ctx ∧ c.engine = v.task.engine ∧ c.writers = v.task.writers := by
  intro c hc
  obtain ⟨v, hv, hvp, h1, h2, h3⟩ := hi.calls_ok c hc
  rw [getElem?_set_pc hw]
  split
  · rename_i hjc
    subst hjc
    rw [hw] at hv; cases hv
    exact ⟨_, rfl, hp', h1, h2, h3⟩
  · exact ⟨v, hv, hvp, h1, h2, h3⟩

theorem calls_complete_set (hi : OK timeout tasks s) (hw : s.workers[j]? = some w) (hp : w.pc ≠ .begin) :
    ∀ (k : ℕ) (v : Worker E W), (s.workers.set j { w with pc := p })[k]? = some v → v.pc ≠ .begin →
      ∃ c ∈ s.calls, c.worker = k := by
  intro k v hv hvp
  rw [getElem?_set_pc hw] at hv
  split at hv
  · subst k; exact hi.calls_complete j w hw hp
  · exact hi.calls_complete k v hv hvp

theorem pc_ne_add (hi : OK timeout tasks s) (hw : s.workers[j]? = some w) : s.pc ≠ .add := by
  intro hpc
  have h := hi.pc_ok
  unfold PcOK at h
  rw [hpc] at h
  have := (List.getElem?_eq_some_iff.1 hw).1
  omega

theorem OK.call (hi : OK timeout tasks s) (h : s.step timeout tasks (.call j) = some s') :
    OK timeout tasks s' := by
  obtain ⟨w, hw, hp, rfl⟩ := step_call h
  have hnot : j ∉ s.calls.map (·.worker) := by
    simp only [List.mem_map, not_exists, not_and]
    intro c hc hcj
    obtain ⟨v, hv, hvp, -⟩ := hi.calls_ok c hc
    rw [hcj, hw] at hv
    cases hv
    exact hvp hp
  have hd := doneCount_set hw .running
  simp only [hp, reduceCtorEq, if_false] at hd
  have hcnt := hi.counter
  simp only [doneCount] at hd hcnt
  refine ⟨by simpa using hi.workers_le, worker_arg_set hi hw, hi.pc_ok.congr rfl rfl (by simp),
    by simp only [doneCount]; omega, by simp [List.nodup_append, hi.calls_nodup, hnot], ?_, ?_,
    hi.wait_done, hi.returned_zero⟩
  · intro c hc
    rcases List.mem_append.1 hc with hc | hc
    · have hcj : j ≠ c.worker := fun e => hnot (List.mem_map.2 ⟨c, hc, e.symm⟩)
      obtain ⟨v, hv, hvp, h1, h2, h3⟩ := hi.calls_ok c hc
      exact ⟨v, by rw [getElem?_set_pc hw, if_neg hcj]; exact hv, hvp, h1, h2, h3⟩
    · rw [List.mem_singleton] at hc
      subst hc
      exact ⟨{ w with pc := .running }, by rw [getElem?_set_pc hw, if_pos rfl], by simp, rfl, rfl, rfl⟩
  · intro k v hv hvp
    rw [getElem?_set_pc hw] at hv
    split at hv
    · subst k; exact ⟨_, List.mem_append_right _ (List.mem_singleton_self _), rfl⟩
    · obtain ⟨c, hc, hck⟩ := hi.calls_complete k v hv hvp
      exact ⟨c, List.mem_append_left _ hc, hck⟩

theorem OK.ret (hi : OK timeout tasks s) (h : s.step timeout tasks (.ret j) = some s') :
    OK timeout tasks s' := by
  obtain ⟨w, hw, hp, rfl⟩ := step_ret h
  have hd := doneCount_set hw .finished
  simp only [hp, reduceCtorEq, if_false] at hd
  have hcnt := hi.counter
  simp only [doneCount] at hd hcnt
  exact ⟨by simpa using hi.workers_le, worker_arg_set hi hw, hi.pc_ok.congr rfl rfl (by simp),
    by simp only [doneCount]; omega, hi.calls_nodup, calls_ok_set hi hw (by simp),
    calls_complete_set hi hw (by simp [hp]), hi.wait_done, hi.returned_zero⟩

theorem OK.done (hi : OK timeout tasks s) (h : s.step timeout tasks (.done j) = some s') :
    OK timeout tasks s' := by
  obtain ⟨w, hc, hw, hp, rfl⟩ := step_done h
  have hd := doneCount_set hw .done
  simp only [hp, reduceCtorEq, if_false, if_true] at hd
  have hcnt := hi.counter
  rw [if_neg (pc_ne_add hi hw)] at hcnt
  simp only [doneCount] at hd hcnt
  refine ⟨by simpa using hi.workers_le, worker_arg_set hi hw, hi.pc_ok.congr rfl rfl (by simp),
    ?_, hi.calls_nodup, calls_ok_set hi hw (by simp), calls_complete_set hi hw (by simp [hp]),
    hi.wait_done, fun hpc => absurd (hi.returned_zero hpc) hc⟩
  simp only [doneCount, if_neg (pc_ne_add hi hw)]
  omega

end Worker

/-! ### The main goroutine and the environment -/

theorem getElem?_append_one {l : List (Worker E W)} {x v : Worker E W} {k : ℕ}
    (h : (l ++ [x])[k]? = some v) : l[k]? = some v ∨ (k = l.length ∧ v = x) := by
  rcases Nat.lt_or_ge k l.length with hk | hk
  · rw [List.getElem?_append_left hk] at h; exact .inl h
  · rw [List.getElem?_append_right hk] at h
    have : k - l.length = 0 := by
      by_contra hne
      simp [List.getElem?_eq_none (by simp; omega : [x].length ≤ k - l.length)] at h
    rw [this] at h
    simp only [List.getElem?_cons_zero, Option.some.injEq] at h
    exact .inr ⟨by omega, h.symm⟩

theorem OK.spawn (hi : OK timeout tasks s) {i : ℕ} {t : PcapTask E W} (hpc : s.pc = .spawn i)
    (ht : tasks[i]? = some t) :
    OK timeout tasks { s with pc := .spawn (i + 1), workers := s.workers ++ [⟨s.ctx, t, .begin⟩] } := by
  have hp := hi.pc_ok
  simp only [PcOK, hpc] at hp
  obtain ⟨rfl, hctx⟩ := hp
  have hlt := (List.getElem?_eq_some_iff.1 ht).1
  have hcnt := hi.counter
  rw [hpc] at hcnt
  have hold : ∀ {k : ℕ} {v : Worker E W}, s.workers[k]? = some v →
      (s.workers ++ [⟨s.ctx, t, .begin⟩])[k]? = some v := fun hv =>
    (List.getElem?_append_left (List.getElem?_eq_some_iff.1 hv).1).trans hv
  refine ⟨by simp; omega, ?_, by simp [PcOK, hctx], ?_, hi.calls_nodup, ?_, ?_, by simp, by simp⟩
  · intro k v hv
    rcases getElem?_append_one hv with hv | ⟨rfl, rfl⟩
    · exact hi.worker_arg k v hv
    · exact ⟨ht, hctx⟩
  · simpa [doneCount] using hcnt
  · intro c hc
    obtain ⟨v, hv, hvp, h1⟩ := hi.calls_ok c hc
    exact ⟨v, hold hv, hvp, h1⟩
  · intro k v hv hvp
    rcases getElem?_append_one hv with hv | ⟨-, rfl⟩
    · exact hi.calls_complete k v hv hvp
    · exact absurd rfl hvp

theorem OK.main (hi : OK timeout tasks s) (h : s.mainStep timeout tasks = some s') :
    OK timeout tasks s' := by
  have hp := hi.pc_ok
  have hcnt := hi.counter
  unfold mainStep at h
  split at h
  · rename_i hpc
    cases h
    simp only [PcOK, hpc] at hp
    rw [hpc, if_pos rfl] at hcnt
    have hnil := List.length_eq_zero.1 hp.1
    have hc0 : s.counter = 0 := by simpa [doneCount, hnil] using hcnt
    refine ⟨hi.workers_le, hi.worker_arg, by simp [PcOK, hp], by simp [doneCount, hnil, hc0], hi.calls_nodup,
      hi.calls_ok, hi.calls_complete, by simp, by simp⟩
  · rename_i hpc
    cases h
    simp only [PcOK, hpc] at hp
    rw [hpc] at hcnt
    refine ⟨hi.workers_le, hi.worker_arg, ?_, by simpa using hcnt, hi.calls_nodup, hi.calls_ok,
      hi.calls_complete, by simp, by simp⟩
    simp [PcOK, hp, execScope]
  · rename_i i hpc
    split at h
    · rename_i t ht
      cases h
      exact hi.spawn hpc ht
    · rename_i ht
      cases h
      simp only [PcOK, hpc] at hp
      rw [hpc] at hcnt
      have : tasks.length ≤ s.workers.length := by
        rw [← hp.1]; exact (List.getElem?_eq_none_iff.1 ht)
      refine ⟨hi.workers_le, hi.worker_arg, ?_, by simpa using hcnt, hi.calls_nodup, hi.calls_ok,
        hi.calls_complete, by simp, by simp⟩
      simp only [PcOK]
      exact ⟨le_antisymm hi.workers_le this, hp.2⟩
  · rename_i hpc
    split at h
    · rename_i hdone
      cases h
      simp only [PcOK, hpc] at hp
      rw [hpc] at hcnt
      exact ⟨hi.workers_le, hi.worker_arg, by simpa [PcOK] using hp, by simpa using hcnt,
        hi.calls_nodup, hi.calls_ok, hi.calls_complete, fun _ => hdone, by simp⟩
    · cases h
  · rename_i hpc
    split at h
    · rename_i hc0
      cases h
      simp only [PcOK, hpc] at hp
      rw [hpc] at hcnt
      exact ⟨hi.workers_le, hi.worker_arg, by simpa [PcOK] using hp, by simpa using hcnt,
        hi.calls_nodup, hi.calls_ok, hi.calls_complete, fun _ => hi.wait_done (.inl hpc),
        fun _ => hc0⟩
    · cases h
  · cases h

theorem OK.deadline (hi : OK timeout tasks s) (h : s.step timeout tasks .deadline = some s') :
    OK timeout tasks s' := by
  obtain ⟨-, -, rfl⟩ := step_deadline h
  exact ⟨hi.workers_le, hi.worker_arg, hi.pc_ok, hi.counter, hi.calls_nodup, hi.calls_ok,
    hi.calls_complete, fun hpc => isDone_mono (hi.wait_done hpc) id fun _ => rfl, hi.returned_zero⟩

theorem OK.cancelParent (hi : OK timeout tasks s) (h : s.step timeout tasks .cancelParent = some s') :
    OK timeout tasks s' := by
  obtain ⟨-, rfl⟩ := step_cancelParent h
  exact ⟨hi.workers_le, hi.worker_arg, hi.pc_ok, hi.counter, hi.calls_nodup, hi.calls_ok,
    hi.calls_complete, fun hpc => isDone_mono (hi.wait_done hpc) (fun _ => rfl) id, hi.returned_zero⟩

theorem mainStep_parentDone (h : s.mainStep timeout tasks = some s') :
    s'.parentDone = s.parentDone := by
  unfold mainStep at h
  split at h <;> (try split at h) <;> cases h <;> rfl

/-- Only the parent's cancellation changes `parentDone`. -/
theorem step_parentDone {a : StartAction} (ha : a ≠ .cancelParent)
    (h : s.step timeout tasks a = some s') : s'.parentDone = s.parentDone := by
  cases a with
  | main => exact mainStep_parentDone h
  | call j => obtain ⟨w, -, -, rfl⟩ := step_call h; rfl
  | ret j => obtain ⟨w, -, -, rfl⟩ := step_ret h; rfl
  | done j => obtain ⟨w, -, -, -, rfl⟩ := step_done h; rfl
  | deadline => obtain ⟨-, -, rfl⟩ := step_deadline h; rfl
  | cancelParent => exact absurd rfl ha

/-- **Every step keeps the invariant.** -/
theorem OK.step (hi : OK timeout tasks s) {a : StartAction} (h : s.step timeout tasks a = some s') :
    OK timeout tasks s' := by
  cases a with
  | main => exact hi.main h
  | call j => exact hi.call h
  | ret j => exact hi.ret h
  | done j => exact hi.done h
  | deadline => exact hi.deadline h
  | cancelParent => exact hi.cancelParent h

end StartState

/-- **Every reachable state of `start` satisfies the invariant.** -/
theorem StartReachable.ok {E W : Type} {timeout : Duration} {tasks : List (PcapTask E W)}
    {s : StartState E W} (h : StartReachable timeout tasks s) : StartState.OK timeout tasks s := by
  induction h with
  | init => exact .init
  | step _ _ hs ih => exact ih.step hs

theorem StartReachable.run {E W : Type} {timeout : Duration} {tasks : List (PcapTask E W)}
    {s s' : StartState E W} (h : StartReachable timeout tasks s) (as : List StartAction)
    (hr : s.run timeout tasks as = some s') : StartReachable timeout tasks s' := by
  induction as generalizing s with
  | nil => cases hr; exact h
  | cons a as ih =>
    simp only [StartState.run, Option.bind_eq_some] at hr
    obtain ⟨s₁, h₁, hr⟩ := hr
    exact ih (h.step a h₁) hr

/-- A call of `start` on a parent that is already cancelled begins where a call on a live
parent is after the cancellation. -/
theorem StartReachable.init_any {E W : Type} {timeout : Duration} {tasks : List (PcapTask E W)}
    (b : Bool) : StartReachable timeout tasks (StartState.init b : StartState E W) := by
  cases b
  · exact .init
  · exact .step .cancelParent .init rfl

/-- Cancelling the parent keeps a state reachable. -/
theorem StartReachable.cancel {E W : Type} {timeout : Duration} {tasks : List (PcapTask E W)}
    {s : StartState E W} (h : StartReachable timeout tasks s) :
    StartReachable timeout tasks { s with parentDone := true } := by
  cases hp : s.parentDone
  · exact .step .cancelParent h (by simp [StartState.step, hp])
  · cases s; simp only at hp; subst hp; exact h

namespace StartState

variable {E W : Type} {timeout : Duration} {tasks : List (PcapTask E W)} {s : StartState E W}

/-! ## What `start` guarantees -/

theorem OK.counter_eq (hi : OK timeout tasks s) :
    s.counter = if s.pc = .add then 0 else tasks.length - s.doneCount := by
  have h := hi.counter
  split
  · simp_all
  · rw [if_neg ‹_›] at h
    omega

/-- Each call to `engine.Start` is the task's of its goroutine, in the execution scope. -/
theorem OK.calls_task (hi : OK timeout tasks s) : ∀ c ∈ s.calls, ∃ t, tasks[c.worker]? = some t ∧
    c.ctx = execScope timeout ∧ c.engine = t.engine ∧ c.writers = t.writers := by
  intro c hc
  obtain ⟨v, hv, -, h1, h2, h3⟩ := hi.calls_ok c hc
  obtain ⟨ht, hctx⟩ := hi.worker_arg _ v hv
  exact ⟨v.task, ht, h1.trans hctx, h2, h3⟩

/-- When `start` has returned, every goroutine has run `wg.Done()`. -/
theorem OK.all_done (hi : OK timeout tasks s) (hpc : s.pc = .returned) :
    ∀ w ∈ s.workers, w.pc = .done := by
  have hp := hi.pc_ok
  have hc := hi.counter
  simp only [PcOK, hpc, hi.returned_zero hpc, reduceCtorEq, if_false, zero_add] at hp hc
  have : s.workers.countP (fun w => w.pc = .done) = s.workers.length := by
    rw [hp.1]; exact hc
  simpa using List.countP_eq_length.1 this

/-- Once every goroutine is spawned and has run `wg.Done()`, the goroutines that called
`engine.Start` are the task indices, each once. -/
theorem OK.calls_perm_of_done (hi : OK timeout tasks s) (hlen : s.workers.length = tasks.length)
    (hall : ∀ w ∈ s.workers, w.pc = .done) :
    (s.calls.map (·.worker)).Perm (List.range tasks.length) := by
  refine (List.perm_ext_iff_of_nodup hi.calls_nodup (List.nodup_range _)).2 fun k => ?_
  simp only [List.mem_map, List.mem_range]
  constructor
  · rintro ⟨c, hc, rfl⟩
    obtain ⟨v, hv, -⟩ := hi.calls_ok c hc
    exact hlen ▸ (List.getElem?_eq_some_iff.1 hv).1
  · intro hk
    have hk' : k < s.workers.length := hlen ▸ hk
    have hw := hall _ (List.getElem_mem hk')
    exact hi.calls_complete k _ (List.getElem?_eq_getElem hk') (by simp [hw])

/-- Past the spawn loop there is one goroutine per task. -/
theorem OK.workers_length (hi : OK timeout tasks s) (hpc : s.pc.pastSpawn = true) :
    s.workers.length = tasks.length := by
  have hp := hi.pc_ok
  cases hps : s.pc <;> simp only [StartPc.pastSpawn, hps, reduceCtorEq, Bool.false_eq_true] at hpc <;>
    simp only [PcOK, hps] at hp <;> exact hp.1

/-- When `start` has returned, the goroutines that called `engine.Start` are the task indices,
each once. -/
theorem OK.calls_perm (hi : OK timeout tasks s) (hpc : s.pc = .returned) :
    (s.calls.map (·.worker)).Perm (List.range tasks.length) :=
  hi.calls_perm_of_done (hi.workers_length (by rw [hpc]; rfl)) (hi.all_done hpc)

/-- Past the spawn loop, the goroutine of every task index was passed that task and the
execution scope. -/
theorem OK.worker_of_task (hi : OK timeout tasks s) (hpc : s.pc.pastSpawn = true) {j : ℕ}
    {t : PcapTask E W} (ht : tasks[j]? = some t) :
    ∃ w, s.workers[j]? = some w ∧ w.task = t ∧ w.ctx = execScope timeout := by
  have hj : j < s.workers.length := hi.workers_length hpc ▸ (List.getElem?_eq_some_iff.1 ht).1
  obtain ⟨ht', hctx⟩ := hi.worker_arg j _ (List.getElem?_eq_getElem hj)
  exact ⟨_, List.getElem?_eq_getElem hj, Option.some.inj (ht'.symm.trans ht), hctx⟩

/-! ## Blocking -/

theorem advance_eq_none_of_done (hall : ∀ w ∈ s.workers, w.pc = .done) {j : ℕ} {p p' : WorkerPc}
    (hp : p ≠ .done) : s.advance j p p' = none := by
  unfold advance
  split
  · rename_i w hw
    rw [hall w (List.mem_iff_getElem?.2 ⟨_, hw⟩)]
    simp [Ne.symm hp]
  · rfl

theorem advance_isSome {j : ℕ} {w : Worker E W} (hw : s.workers[j]? = some w) (p' : WorkerPc) :
    (s.advance j w.pc p').isSome := by
  simp [advance, hw]

/-- A goroutine that has not run `wg.Done()` has a step, while the counter is not zero. -/
theorem worker_enabled {j : ℕ} {w : Worker E W} (hw : s.workers[j]? = some w) (hp : w.pc ≠ .done)
    (hc : s.counter ≠ 0) :
    ∃ a, a ≠ .deadline ∧ a ≠ .cancelParent ∧ (s.step timeout tasks a).isSome := by
  have hs := advance_isSome hw
  cases hwp : w.pc with
  | begin => exact ⟨.call j, nofun, nofun, by simpa [step, hwp] using hs .running⟩
  | running => exact ⟨.ret j, nofun, nofun, by simpa [step, hwp] using hs .finished⟩
  | finished => exact ⟨.done j, nofun, nofun, by simpa [step, hwp, hc] using hs .done⟩
  | done => exact absurd hwp hp

/-- Until `start` returns, one of its goroutines can step, unless it waits at `<-ctx.Done()`
on a scope that is not done. -/
theorem OK.progress (hi : OK timeout tasks s) (hpc : s.pc ≠ .returned) :
    (∃ a, a ≠ .deadline ∧ a ≠ .cancelParent ∧ (s.step timeout tasks a).isSome) ∨
      (s.pc = .waitDone ∧ s.isDone s.ctx = false) := by
  have main : (s.step timeout tasks .main).isSome →
      ∃ a, a ≠ .deadline ∧ a ≠ .cancelParent ∧ (s.step timeout tasks a).isSome :=
    fun hm => ⟨.main, nofun, nofun, hm⟩
  cases hps : s.pc with
  | add | withTimeout => exact .inl (main (by simp [StartState.step, mainStep, hps]))
  | spawn i =>
    refine .inl (main ?_)
    simp only [StartState.step, mainStep, hps]
    split <;> rfl
  | waitDone =>
    cases hd : s.isDone s.ctx
    · exact .inr ⟨rfl, rfl⟩
    · exact .inl (main (by simp [StartState.step, mainStep, hps, hd]))
  | waitGroup =>
    refine .inl ?_
    by_cases hc : s.counter = 0
    · exact main (by simp [StartState.step, mainStep, hps, hc])
    · have hp := hi.pc_ok
      have hcnt := hi.counter
      simp only [PcOK, hps, reduceCtorEq, if_false] at hp hcnt
      have : ∃ w ∈ s.workers, w.pc ≠ .done := by
        by_contra hall
        push_neg at hall
        have := List.countP_eq_length.2 fun w hw => decide_eq_true (hall w hw)
        simp only [doneCount] at hcnt
        omega
      obtain ⟨w, hw, hwp⟩ := this
      obtain ⟨j, hj⟩ := List.mem_iff_getElem?.1 hw
      exact worker_enabled hj hwp hc
  | returned => exact absurd hps hpc

/-- No goroutine of `start` can step: only the deadline or the parent's cancellation may
still move it. -/
def Blocked (timeout : Duration) (tasks : List (PcapTask E W)) (s : StartState E W) : Prop :=
  ∀ a, a ≠ .deadline → a ≠ .cancelParent → s.step timeout tasks a = none

/-- `start` at `<-ctx.Done()` on a live scope, with every goroutine past `wg.Done()`, moves
only on the deadline or the parent's cancellation: line 147 waits for the scope whatever
the goroutines do. -/
theorem waitDone_blocked (hpc : s.pc = .waitDone) (hdone : s.isDone s.ctx = false)
    (hall : ∀ w ∈ s.workers, w.pc = .done) :
    ∀ a, (s.step timeout tasks a).isSome → a = .deadline ∨ a = .cancelParent := by
  intro a ha
  cases a with
  | main => simp [step, mainStep, hpc, hdone] at ha
  | call j => simp [step, advance_eq_none_of_done hall] at ha
  | ret j => simp [step, advance_eq_none_of_done hall] at ha
  | done j => simp [step, advance_eq_none_of_done hall] at ha
  | deadline => exact .inl rfl
  | cancelParent => exact .inr rfl

/-- Where no goroutine of `start` can step, `start` has returned, or it waits at
`<-ctx.Done()` on a live scope with every goroutine past `wg.Done()`. -/
theorem OK.blocked (hi : OK timeout tasks s) (hb : Blocked timeout tasks s) :
    s.pc = .returned ∨
      (s.pc = .waitDone ∧ s.isDone s.ctx = false ∧ ∀ w ∈ s.workers, w.pc = .done) := by
  by_cases hpc : s.pc = .returned
  · exact .inl hpc
  rcases hi.progress hpc with ⟨a, hd, hc, hs⟩ | ⟨hw, hd⟩
  · simp [hb a hd hc] at hs
  refine .inr ⟨hw, hd, ?_⟩
  by_contra hall
  push_neg at hall
  obtain ⟨w, hw', hwp⟩ := hall
  obtain ⟨j, hj⟩ := List.mem_iff_getElem?.1 hw'
  -- a goroutine short of `wg.Done()` keeps the counter above zero
  have hc : s.counter ≠ 0 := by
    have hcnt := hi.counter
    have hlen := hi.workers_length (by rw [hw]; rfl)
    have hlt : s.doneCount < s.workers.length :=
      lt_of_le_of_ne (List.countP_le_length _) fun he =>
        hwp (by simpa using List.countP_eq_length.1 he w hw')
    rw [hw, if_neg nofun] at hcnt
    omega
  obtain ⟨a, hd', hc', hs⟩ : ∃ a, a ≠ .deadline ∧ a ≠ .cancelParent ∧
      (s.step timeout tasks a).isSome := worker_enabled hj hwp hc
  simp [hb a hd' hc'] at hs

/-- Where no goroutine of `start` can step, every goroutine has run `wg.Done()` and the
calls of `engine.Start` are one per task index. -/
theorem OK.blocked_calls (hi : OK timeout tasks s) (hb : Blocked timeout tasks s) :
    (s.calls.map (·.worker)).Perm (List.range tasks.length) ∧ ∀ w ∈ s.workers, w.pc = .done := by
  rcases hi.blocked hb with hpc | ⟨hpc, -, hall⟩
  · exact ⟨hi.calls_perm hpc, hi.all_done hpc⟩
  · exact ⟨hi.calls_perm_of_done (hi.workers_length (by rw [hpc]; rfl)) hall, hall⟩

end StartState

/-- One task, with engine `()` and no writers. -/
def oneTask : List (PcapTask Unit Unit) := [⟨(), []⟩]

/-- Two such tasks. -/
def twoTasks : List (PcapTask Unit Unit) := [⟨(), []⟩, ⟨(), []⟩]

open StartState in
/-- **`start` does not deadlock on its own.** Until it returns, a step of `start`'s goroutine
or of a task goroutine is enabled, unless `start` is at `<-ctx.Done()` on a scope that is not
done. -/
theorem start_progress {E W : Type} {timeout : Duration} {tasks : List (PcapTask E W)}
    {s : StartState E W} (h : StartReachable timeout tasks s) (hpc : s.pc ≠ .returned) :
    (∃ a, a ≠ .deadline ∧ a ≠ .cancelParent ∧ (s.step timeout tasks a).isSome) ∨
      (s.pc = .waitDone ∧ s.isDone s.ctx = false) :=
  h.ok.progress hpc

/-- `start(ctx, 0, oneTask)` at `<-ctx.Done()`, its goroutine's engine capturing. -/
def startWaiting : StartState Unit Unit :=
  ((StartState.init false).run 0 oneTask [.main, .main, .main, .main, .call 0]).getD
    (StartState.init false)

theorem start_progress_waiting :
    StartReachable 0 oneTask startWaiting ∧ startWaiting.pc = .waitDone ∧
      startWaiting.isDone startWaiting.ctx = false ∧ startWaiting.pc ≠ .returned ∧
      ((∃ a, a ≠ .deadline ∧ a ≠ .cancelParent ∧ (startWaiting.step 0 oneTask a).isSome) ∨
        (startWaiting.pc = .waitDone ∧ startWaiting.isDone startWaiting.ctx = false)) :=
  have reach : StartReachable 0 oneTask startWaiting :=
    StartReachable.init.run [.main, .main, .main, .main, .call 0] rfl
  ⟨reach, rfl, rfl, nofun, start_progress reach nofun⟩

end Tcpdumpw
