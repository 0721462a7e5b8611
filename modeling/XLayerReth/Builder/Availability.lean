import XLayerReth.Builder.Runs

/-!
# The payload a caller waits for

Model of `BlockCell`, `WaitForValue` and `spawn_build_job` in `generator.rs`.  A caller of
`engine_getPayload` polls the cell of the job until there is a payload in it, and the build task is
the only writer of the cell: a task that ends without writing leaves the caller waiting.

* `spawnBuildJob` — the cell after the build task has ended.
* `Available` — what the caller relies on.
* `spawnBuildJob_available` — the task gets as far as resolving its payload exactly if the steps
  between the fallback block and the loop, each of which ends the task at once when it fails, all
  succeed.
-/

set_option autoImplicit false

namespace XLayerReth.Builder

open RcsFilter

/-! ## The cell -/

/-- `BlockCell`. -/
structure BlockCell (α : Type) where
  inner : Option α

/-- One poll of a future. -/
inductive Poll (α : Type) where
  | ready (value : α)
  | pending

namespace BlockCell

variable {α : Type}

def new : BlockCell α := ⟨none⟩

def get (cell : BlockCell α) : Option α := cell.inner

/-- `set`: whatever was there is replaced. -/
def set (_ : BlockCell α) (value : α) : BlockCell α := ⟨some value⟩

/-- A poll of the future returned by `wait_for_value`. -/
def waitForValue (cell : BlockCell α) : Poll α :=
  match cell.get with
  | some value => .ready value
  | none => .pending

theorem waitForValue_ready {cell : BlockCell α} :
    (∃ value, cell.waitForValue = .ready value) ↔ cell.get.isSome = true := by
  unfold waitForValue
  cases cell.get with
  | none => simp
  | some value => simp

end BlockCell

/-- The cell after a build task, from the cell before it: it is filled, what was in it is kept, and
    the future that waits for it is ready. -/
structure Available {α : Type} (before after : BlockCell α) : Prop where
  filled : after.get.isSome = true
  kept : ∀ value, before.get = some value → after.get = some value
  ready : ∃ value, after.waitForValue = .ready value

section

variable {Db Changes Env : Type}

/-- A run finds its cell as it is. -/
def RunInputs.withCell (i : RunInputs Db) (cell : BlockCell BuiltPayload) : RunInputs Db :=
  { i with resolve := { i.resolve with cellFilled := cell.get.isSome } }

/-- `spawn_build_job`: the cell when the task has ended, whether `build_payload` returned an error,
    panicked, or neither. -/
def spawnBuildJob (P : Platform Db Changes Env) (builder : BuilderConfig)
    (config : FlashblocksConfig) (i : RunInputs Db) (cell : BlockCell BuiltPayload) :
    BlockCell BuiltPayload :=
  match (buildPayload P builder config (i.withCell cell)).stored with
  | some payload => cell.set payload
  | none => cell

variable {P : Platform Db Changes Env} {builder : BuilderConfig} {config : FlashblocksConfig}
  {i : RunInputs Db}

/-! ## Resolving -/

/-- A payload is stored unless the cell is filled. -/
theorem resolveBestPayload_isSome (r : ResolveInputs) (bestPayload : BuiltPayload × Db)
    (fallbackPayload : BuiltPayload) :
    (resolveBestPayload P config r bestPayload fallbackPayload).isSome = !r.cellFilled := by
  unfold resolveBestPayload
  cases r.cellFilled with
  | true => rfl
  | false =>
    simp only [Bool.false_eq_true, if_false, Bool.not_false]
    split_ifs
    · rfl
    · rfl
    · rfl
    · split
      · rfl
      · split <;> rfl
    · rfl

/-- What has to succeed once the fallback was published: a schedule can be made, and if it leaves
    time for a flashblock, the context for the loop is made again and the channel of the triggers
    can be created. -/
structure RunInputs.GetsToLoop (i : RunInputs Db) (config : FlashblocksConfig) : Prop where
  scheduled : Timing.Constructible config.args i.payloadTimestamp i.referenceSystem
  prepared : Timing.timeLeft config.args i.payloadTimestamp i.referenceSystem = 0 ∨
    (i.contextRemade = true ∧ config.TriggersFit)

/-- What has to succeed after the fallback block for the run to resolve a payload: the fallback is
    sent and published, and the loop is prepared, as far as the run needs them. -/
def FallbackRun.GetsToResolve (r : FallbackRun P builder config i) : Prop :=
  r.rebuilds = true ∨
    (i.sends = true ∧
      (r.ctx.attributes.noTxPool = true ∨ (i.publishes = true ∧ i.GetsToLoop config)))

theorem scheduler_ok_iff :
    (∃ scheduler, i.scheduler config = .ok scheduler) ↔
      Timing.Constructible config.args i.payloadTimestamp i.referenceSystem :=
  Timing.fromReference_ok_iff _ _ _

/-- With a schedule, what remains is to prepare the loop, if there is a flashblock for it. -/
theorem getsToLoop_iff {scheduler : Timing.FlashblockScheduler}
    (hok : i.scheduler config = .ok scheduler) :
    i.GetsToLoop config ↔
      scheduler.targetFlashblocks = 0 ∨ (i.contextRemade = true ∧ config.TriggersFit) := by
  rw [Timing.targetFlashblocks_eq_zero _ _ _ hok]
  exact ⟨fun h => h.prepared, fun h => ⟨scheduler_ok_iff.mp ⟨scheduler, hok⟩, h⟩⟩

theorem buildFlashblocks_stored (ctx : BuilderCtx Env) (x : Exec Db Changes)
    (fallbackPayload : BuiltPayload) (flashblock : Flashblock) (fb : FlashblocksState)
    (sent : List Flashblock) :
    (buildFlashblocks P ctx config i x fallbackPayload flashblock fb sent).stored.isSome = true ↔
      i.resolve.cellFilled = false ∧ i.publishes = true ∧ i.GetsToLoop config := by
  unfold buildFlashblocks
  split
  · rename_i hpublishes
    have : i.publishes = false := by simpa using hpublishes
    simp [RunOutcome.failed, this]
  · rename_i hpublishes
    have hpublished : i.publishes = true := by simpa using hpublishes
    split
    · rename_i panic hpanic
      -- the construction of the schedule panics
      have hnot : ¬ i.GetsToLoop config := by
        intro h
        obtain ⟨scheduler, hok⟩ := scheduler_ok_iff.mpr h.scheduled
        rw [hpanic] at hok
        cases hok
      simp [RunOutcome.failed, hnot]
    · rename_i scheduler hok
      rw [getsToLoop_iff hok]
      split_ifs with htarget hremade hfit
      · simp [RunOutcome.resolved, resolveBestPayload_isSome, hpublished, htarget]
      · have : i.contextRemade = false := by simpa using hremade
        simp [RunOutcome.failed, htarget, this]
      · have : i.contextRemade = true := by simpa using hremade
        simp [RunOutcome.resolved, resolveBestPayload_isSome, hpublished, this, hfit]
      · simp [RunOutcome.failed, htarget, hfit]

/-- A run stores a payload exactly if it gets there and finds the cell empty. -/
theorem FallbackRun.stored_isSome (r : FallbackRun P builder config i) :
    (buildPayload P builder config i).stored.isSome = true ↔
      i.resolve.cellFilled = false ∧ r.GetsToResolve := by
  rw [r.buildPayload_eq]
  unfold FallbackRun.GetsToResolve
  split_ifs with hrebuilds hsends hpool
  · simp [RunOutcome.resolved, resolveBestPayload_isSome, hrebuilds]
  · have : i.sends = false := by simpa using hsends
    simp [RunOutcome.failed, hrebuilds, this]
  · have : i.sends = true := by simpa using hsends
    simp [RunOutcome.resolved, resolveBestPayload_isSome, this, hpool]
  · have : i.sends = true := by simpa using hsends
    rw [buildFlashblocks_stored]
    simp [hrebuilds, this, hpool]

/-- The fallback block does not depend on the cell. -/
def FallbackRun.withCell (r : FallbackRun P builder config i) (cell : BlockCell BuiltPayload) :
    FallbackRun P builder config (i.withCell cell) where
  ctx := r.ctx
  db := r.db
  pre := r.pre
  payload := r.payload
  flashblock := r.flashblock
  fb := r.fb
  context := r.context
  state := r.state
  preSteps := r.preSteps
  built := r.built

theorem FallbackRun.getsToResolve_withCell (r : FallbackRun P builder config i)
    (cell : BlockCell BuiltPayload) : (r.withCell cell).GetsToResolve ↔ r.GetsToResolve := by
  have hloop : (i.withCell cell).GetsToLoop config ↔ i.GetsToLoop config :=
    ⟨fun h => ⟨h.scheduled, h.prepared⟩, fun h => ⟨h.scheduled, h.prepared⟩⟩
  unfold GetsToResolve
  rw [hloop]
  exact Iff.rfl

/-! ## The whole task -/

/-- **Payload availability**: once the fallback block was built, the build task ends with a payload
    in the cell, the one that was there if there was one, and the waiting future is ready, exactly
    if the cell was filled before or sending the fallback, publishing it, making the schedule,
    making the context again and creating the channel of the triggers succeed as far as the run
    needs them.  Nothing that happens in the loop or in the resolution matters. -/
theorem spawnBuildJob_available (r : FallbackRun P builder config i)
    (cell : BlockCell BuiltPayload) :
    Available cell (spawnBuildJob P builder config i cell) ↔
      cell.get.isSome = true ∨ r.GetsToResolve := by
  have hstored := (r.withCell cell).stored_isSome
  rw [r.getsToResolve_withCell cell] at hstored
  have hfilled : (i.withCell cell).resolve.cellFilled = cell.get.isSome := rfl
  rw [hfilled] at hstored
  unfold spawnBuildJob
  cases hrun : (buildPayload P builder config (i.withCell cell)).stored with
  | some payload =>
    -- the cell was empty, so nothing is overwritten
    obtain ⟨hempty, hreached⟩ := hstored.mp (by simp [hrun])
    have hnone : cell.get = none := by simpa using hempty
    refine ⟨fun _ => .inr hreached, fun _ => ⟨rfl, ?_, ⟨payload, rfl⟩⟩⟩
    intro value hvalue
    rw [hnone] at hvalue
    cases hvalue
  | none =>
    have hnot : ¬(cell.get.isSome = false ∧ r.GetsToResolve) := by
      rw [← hstored, hrun]
      simp
    constructor
    · intro h
      exact .inl h.filled
    · intro h
      have hsome : cell.get.isSome = true := by
        by_contra hempty
        rcases h with h | h
        · exact hempty h
        · exact hnot ⟨by simpa using hempty, h⟩
      exact ⟨hsome, fun _ hvalue => hvalue, BlockCell.waitForValue_ready.mpr hsome⟩

end

/-! ## A run that leaves its caller waiting -/

namespace Sample

/-- A run whose fallback flashblock cannot be sent: the channel is full. -/
def unsent : RunInputs Nat := { run none with sends := false }

/-- **The channel is full**: the fallback block was built, and the task ends with an empty cell. -/
theorem run_unsent_unavailable :
    Nonempty (FallbackRun platform config synchronous unsent) ∧
      ¬ Available .new (spawnBuildJob platform config synchronous unsent .new) := by
  refine ⟨⟨_, 0, _, _, _, _, rfl, rfl, rfl, rfl⟩, fun h => ?_⟩
  have := h.filled
  revert this
  decide

/-- Without an interval between the flashblocks the task panics, after the fallback was
    published. -/
example : (spawnBuildJob platform config { synchronous with args := ⟨1000, 0, 0, 0⟩ } (run none)
    .new).get = none := by decide

end Sample

end XLayerReth.Builder
