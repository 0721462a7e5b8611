import XLayerReth.Builder.BuilderTx
import XLayerReth.Builder.LoopBudgets

/-!
# The budgets of the flashblocks of a block

Flashblock `k` of `n` may fill the block up to `k` shares of its limits.  The gas target is advanced
from the state of the flashblock, the DA targets from copies that the flashblock has already reduced
by what it reserved for the builder transactions at its end.

* `BatchState` — what is fixed over the block, and the exact gas target.
* `TurnsFrom.targets` — the exact targets at the start of every flashblock: only the last one
  reserves anything, so nothing of a reservation is carried over.
* `turnBottom_usage` — what was used after a flashblock is within its targets.
-/

set_option autoImplicit false

namespace XLayerReth.Builder

open RcsFilter

section

variable {Db Changes Env : Type} {P : Platform Db Changes Env} {B : BuilderTxPlatform Db Env}
  {ctx : BuilderCtx Env}

/-! ## Targets -/

variable (P ctx) in
/-- The share of the gas limit that a flashblock adds. -/
def gasShare (n : Nat) : Nat := ctx.blockGasLimit P / n

variable (P ctx) in
/-- The state of the flashblocks at the start of flashblock `k` of `n`. -/
structure BatchState (scalar : Option Nat) (n k : Nat) (fb : FlashblocksState) : Prop where
  count : fb.targetFlashblockCount = n
  index : fb.flashblockIndex = k
  gasPerBatch : fb.gasPerBatch = gasShare P ctx n
  daPerBatch : fb.daPerBatch = ctx.maxDaBlockSize.map (fun limit => limit / n)
  daFootprintPerBatch : fb.daFootprintPerBatch = scalar.map (fun _ => gasShare P ctx n)
  targetGas : fb.targetGasForBatch = k * gasShare P ctx n

variable (P ctx) in
/-- The DA targets at the start of flashblock `k` of `n`. -/
structure DaTargets (scalar : Option Nat) (n k : Nat) (fb : FlashblocksState) : Prop where
  da : fb.targetDaForBatch = ctx.maxDaBlockSize.map (fun limit => k * (limit / n))
  daFootprint : fb.targetDaFootprintForBatch = scalar.map (fun _ => k * gasShare P ctx n)

theorem firstFbState_batch (fb : FlashblocksState) (scalar : Option Nat) (n : Nat) :
    BatchState P ctx scalar n 1 (firstFbState P ctx fb scalar n) := by
  refine ⟨rfl, rfl, rfl, rfl, rfl, ?_⟩
  rw [Nat.one_mul]
  rfl

theorem firstFbState_targets (fb : FlashblocksState) (scalar : Option Nat) (n : Nat) :
    DaTargets P ctx scalar n 1 (firstFbState P ctx fb scalar n) := by
  constructor
  · simp [firstFbState, FlashblocksState.withBatchLimits]
  · simp [firstFbState, FlashblocksState.withBatchLimits, gasShare]

theorem BatchState.next {scalar : Option Nat} {n k : Nat} {fb fb' : FlashblocksState}
    {index : Nat} (h : BatchState P ctx scalar n k fb)
    (hfb : fb' = { fb with lastFlashblockTxIndex := index })
    (targetDa targetDaFootprint : Option Nat) :
    BatchState P ctx scalar n (k + 1) (nextFbState fb' targetDa targetDaFootprint) := by
  subst hfb
  refine ⟨h.count, ?_, h.gasPerBatch, h.daPerBatch, h.daFootprintPerBatch, ?_⟩
  · simp [nextFbState, FlashblocksState.next, h.index]
  · simp only [nextFbState, FlashblocksState.next, h.targetGas, h.gasPerBatch]
    rw [Nat.add_mul, Nat.one_mul]

/-- Without a reservation the DA targets advance by one share. -/
theorem DaTargets.next {scalar : Option Nat} {n k index : Nat} {fb fb' : FlashblocksState}
    (h : DaTargets P ctx scalar n k fb) (hb : BatchState P ctx scalar n k fb)
    (hfb : fb' = { fb with lastFlashblockTxIndex := index }) :
    DaTargets P ctx scalar n (k + 1)
      (nextFbState fb' fb.targetDaForBatch fb.targetDaFootprintForBatch) := by
  subst hfb
  constructor
  · simp only [nextFbState, FlashblocksState.next, hb.daPerBatch, h.da]
    cases ctx.maxDaBlockSize with
    | none => rfl
    | some limit => simp [Nat.add_mul]
  · simp only [nextFbState, FlashblocksState.next, hb.daFootprintPerBatch, h.daFootprint]
    cases scalar with
    | none => rfl
    | some scalar => simp [Nat.add_mul]

variable (P ctx) in
/-- What is returned is what was simulated, or nothing. -/
theorem addBuilderTxs_returns (topOfBlock : Bool) (x : Exec Db Changes)
    (simulated : Option (List BuilderTransactionCtx)) :
    (addBuilderTxs P ctx topOfBlock x simulated).2 = simulated ∨
      (addBuilderTxs P ctx topOfBlock x simulated).2 = none := by
  unfold addBuilderTxs
  cases simulated with
  | none => exact .inl rfl
  | some builderTxs =>
    dsimp only
    split
    · exact .inl rfl
    · exact .inr rfl

variable (P ctx) in
/-- What a turn reserves for its end. -/
def turnReserved (s : BuildState Db Changes) (t : Turn) : List BuilderTransactionCtx :=
  reservedTxs ((turnTop P ctx s t).2.getD [])

/-- Only the last flashblock reserves anything. -/
theorem turnReserved_eq_nil {builderTx : FlashblocksBuilderTx} {s : BuildState Db Changes}
    {t : Turn} (h : t.SimulatedBy P B ctx builderTx s) (hindex : 0 < s.fbState.flashblockIndex)
    (hlast : s.fbState.flashblockIndex < s.fbState.targetFlashblockCount) :
    turnReserved P ctx s t = [] := by
  have hnil := reserved_eq_nil hindex hlast h.top
  unfold turnReserved turnTop
  rcases addBuilderTxs_returns P ctx true s.exec t.topSimulated with hret | hret
  · rw [hret]
    exact hnil
  · rw [hret]
    rfl

variable (P ctx) in
/-- The limits of a turn, from what it reserves. -/
theorem turnTransactionLimits_eq (s : BuildState Db Changes) (t : Turn) :
    turnTransactionLimits P ctx s t =
      let gas := ((turnReserved P ctx s t).map BuilderTransactionCtx.gasUsed).sum
      let da := ((turnReserved P ctx s t).map BuilderTransactionCtx.daSize).sum
      { blockGas := min (s.fbState.targetGasForBatch - gas) (ctx.blockGasLimit P)
        blockDa := s.fbState.targetDaForBatch.map (fun limit => limit - da)
        blockDaFootprint :=
          match s.fbState.targetDaFootprintForBatch,
              (turnTop P ctx s t).1.info.daFootprintScalar with
          | some footprint, some scalar => some (footprint - saturatingMul da scalar)
          | footprint, _ => footprint } := rfl

/-- A turn that reserves nothing has its targets for limits. -/
theorem turnTransactionLimits_unreserved {s : BuildState Db Changes} {t : Turn}
    (h : turnReserved P ctx s t = []) :
    (turnTransactionLimits P ctx s t).blockDa = s.fbState.targetDaForBatch ∧
      (turnTransactionLimits P ctx s t).blockDaFootprint = s.fbState.targetDaFootprintForBatch := by
  rw [turnTransactionLimits_eq, h]
  constructor
  · simp
  · cases s.fbState.targetDaFootprintForBatch <;>
      cases (turnTop P ctx s t).1.info.daFootprintScalar <;> simp [saturatingMul]

/-- The start of a turn `m + 1` turns into the block. -/
theorem TurnsFrom.batchState {start s : BuildState Db Changes} {done : List Turn}
    {scalar : Option Nat} {n k : Nat} (hstart : BatchState P ctx scalar n k start.fbState)
    (h : TurnsFrom P ctx start done s) : BatchState P ctx scalar n (k + done.length) s.fbState := by
  induction h with
  | start => exact hstart
  | turn _ _ hturn ih =>
    obtain ⟨payload, flashblock, fb, hbuilds, -, -, rfl⟩ := buildNextFlashblock_built hturn
    obtain ⟨header, beaconRoot, -, -, -, hfb⟩ := tryBuildBlock_built hbuilds.block
    rw [List.length_append]
    exact ih.next hfb _ _

/-- **The targets at the start of every flashblock are exact.** -/
theorem TurnsFrom.targets {builderTx : FlashblocksBuilderTx} {start s : BuildState Db Changes}
    {turns done : List Turn} {scalar : Option Nat} {n : Nat}
    (hsim : EachTurn P ctx start turns (fun s t => t.SimulatedBy P B ctx builderTx s))
    (hbatch : BatchState P ctx scalar n 1 start.fbState)
    (htargets : DaTargets P ctx scalar n 1 start.fbState) (h : TurnsFrom P ctx start done s)
    (hstarts : done <+: turns) (hle : done.length + 1 ≤ n) :
    BatchState P ctx scalar n (done.length + 1) s.fbState ∧
      DaTargets P ctx scalar n (done.length + 1) s.fbState := by
  refine h.rule hsim (fun m s => m + 1 ≤ n → BatchState P ctx scalar n (m + 1) s.fbState ∧
    DaTargets P ctx scalar n (m + 1) s.fbState) (fun _ => ⟨hbatch, htargets⟩) ?_ hstarts hle
  intro m s t s' ih hsim _ hturn hle
  obtain ⟨hb, ht⟩ := ih (by omega)
  obtain ⟨payload, flashblock, fb, hbuilds, -, -, rfl⟩ := buildNextFlashblock_built hturn
  obtain ⟨header, beaconRoot, -, -, -, hfb⟩ := tryBuildBlock_built hbuilds.block
  -- this flashblock is not the last one
  have hnil :=
    turnReserved_eq_nil hsim (by rw [hb.index]; omega) (by rw [hb.index, hb.count]; omega)
  obtain ⟨hda, hfootprint⟩ := turnTransactionLimits_unreserved hnil
  rw [hda, hfootprint]
  exact ⟨hb.next hfb _ _, ht.next hb hfb⟩

/-! ## Usage -/

/-- What every path does to the counters of a block: they grow, and the footprint scalar stays. -/
structure Exec.Accounts (x x' : Exec Db Changes) : Prop where
  scalar : x'.info.daFootprintScalar = x.info.daFootprintScalar
  gas : x.info.cumulativeGasUsed ≤ x'.info.cumulativeGasUsed
  da : x.info.cumulativeDaBytesUsed ≤ x'.info.cumulativeDaBytesUsed

variable (P ctx) in
theorem accounts_path : PathRelation P ctx (fun x x' => Exec.Accounts x x') where
  refl x := ⟨rfl, Nat.le_refl _, Nat.le_refl _⟩
  trans h h' := ⟨h'.scalar.trans h.scalar, h.gas.trans h'.gas, h.da.trans h'.da⟩
  builder x c _ := ⟨rfl, Nat.le_add_right _ _, Nat.le_add_right _ _⟩
  exhausted x := ⟨rfl, Nat.le_refl _, Nat.le_refl _⟩
  accepted h := by
    rw [h.appended]
    exact ⟨rfl, Nat.le_add_right _ _, Nat.le_add_right _ _⟩

/-- The counters of gas and DA bytes. -/
def ExecutionInfo.used (info : ExecutionInfo) : Nat × Nat :=
  (info.cumulativeGasUsed, info.cumulativeDaBytesUsed)

/-- A round adds nothing, or its limits hold after it, whatever was used before. -/
theorem runTxLoop_used {limits : TransactionLimits} :
    ∀ {candidates : List (Candidate × Verdicts)} {s : LoopState Db Changes},
      (∀ cv ∈ candidates, GasBounded P ctx cv.1.tx.tx) →
      (runTxLoop P ctx limits s candidates).1.exec.info.used = s.exec.info.used ∨
        limits.Hold (runTxLoop P ctx limits s candidates).1.exec.info
  | [], _, _ => .inl rfl
  | cv :: rest, s, hgas => by
    have hrest : ∀ cv' ∈ rest, GasBounded P ctx cv'.1.tx.tx :=
      fun cv' hcv => hgas cv' (List.mem_cons_of_mem _ hcv)
    unfold runTxLoop
    split
    · rename_i s' hstep
      rcases considerTx_cases hstep with hsame | hspent | ⟨gasless, result, changes, haccepted⟩
      · rw [← hsame]
        exact runTxLoop_used hrest
      · have hused : s'.exec.info.used = s.exec.info.used := by
          rw [hspent]
          rfl
        rw [← hused]
        exact runTxLoop_used hrest
      · exact .inr (runTxLoop_limits hrest
          (haccepted.limits_hold (hgas cv List.mem_cons_self)))
    · exact .inl rfl

/-- The arithmetic of one resource over a turn: `u₀` is used at its start, `u₁` after the builder
    transactions at its top, `u₂` after its round and `u₃` at its end. -/
theorem used_within_target {u₀ u₁ u₂ u₃ target reserved limit : Nat} (h₀₁ : u₀ ≤ u₁)
    (h₂₃ : u₂ ≤ u₃) (hfits : target < 2 ^ 64 - 1 → u₀ + (u₁ - u₀ + (u₃ - u₂)) ≤ target)
    (hcovers : target < 2 ^ 64 - 1 → u₃ - u₂ ≤ reserved) (hround : u₂ = u₁ ∨ Within u₂ limit)
    (hlimit : limit ≤ target - reserved) : Within u₃ target := by
  intro htarget
  have hfits := hfits htarget
  have hcovers := hcovers htarget
  rcases hround with hsame | hwithin
  · omega
  · have hu : u₂ ≤ limit := hwithin (by omega)
    omega

variable (P ctx) in
/-- The gas of the builder transactions that a turn adds at its top and at its end. -/
def turnBuilderGas (s : BuildState Db Changes) (t : Turn) : Nat :=
  (turnTop P ctx s t).1.info.cumulativeGasUsed - s.exec.info.cumulativeGasUsed +
    ((turnBottom P ctx s t).info.cumulativeGasUsed -
      (turnRound P ctx s t).1.exec.info.cumulativeGasUsed)

variable (P ctx) in
/-- Their DA bytes. -/
def turnBuilderDa (s : BuildState Db Changes) (t : Turn) : Nat :=
  (turnTop P ctx s t).1.info.cumulativeDaBytesUsed - s.exec.info.cumulativeDaBytesUsed +
    ((turnBottom P ctx s t).info.cumulativeDaBytesUsed -
      (turnRound P ctx s t).1.exec.info.cumulativeDaBytesUsed)

variable (P ctx) in
/-- An amount of gas and of DA bytes fits in `k` of `n` batches. -/
structure FitsBatches (daFootprintScalar : Option Nat) (n k gasUsed daUsed : Nat) : Prop where
  gas : gasUsed ≤ k * gasShare P ctx n
  da : ∀ limit ∈ ctx.maxDaBlockSize, daUsed ≤ k * (limit / n)
  daFootprint : ∀ scalar ∈ daFootprintScalar, daUsed * scalar ≤ k * gasShare P ctx n

variable (P ctx) in
/-- The same for counters of 64 bits, against the targets of flashblock `k`. -/
structure WithinBatches (daFootprintScalar : Option Nat) (n k gasUsed daUsed : Nat) : Prop where
  gas : Within gasUsed (k * gasShare P ctx n)
  da : ∀ limit ∈ ctx.maxDaBlockSize, Within daUsed (k * (limit / n))
  daFootprint : ∀ scalar ∈ daFootprintScalar, Within (daUsed * scalar) (k * gasShare P ctx n)

variable (P ctx) in
/-- The builder transactions that a turn adds at its end take no more than it reserved for them. -/
structure ReservationCovers (s : BuildState Db Changes) (t : Turn) : Prop where
  gas : (turnBottom P ctx s t).info.cumulativeGasUsed -
      (turnRound P ctx s t).1.exec.info.cumulativeGasUsed ≤
    ((turnReserved P ctx s t).map BuilderTransactionCtx.gasUsed).sum
  da : (turnBottom P ctx s t).info.cumulativeDaBytesUsed -
      (turnRound P ctx s t).1.exec.info.cumulativeDaBytesUsed ≤
    ((turnReserved P ctx s t).map BuilderTransactionCtx.daSize).sum

/-- The reservation of one resource, as the limit of the round sees it. -/
theorem sub_le_saturatingMul {a b scalar bound : Nat} (h : a ≤ b) (hbound : a * scalar ≤ bound)
    (hlt : bound < 2 ^ 64 - 1) : a * scalar ≤ saturatingMul b scalar := by
  have hmul : a * scalar ≤ b * scalar := Nat.mul_le_mul_right _ h
  unfold saturatingMul
  omega

/-- **One turn**: if what was used before it fits in its batches together with its builder
    transactions, then what was used after it does. -/
theorem turnBottom_usage {scalar : Option Nat} {n k : Nat} {s : BuildState Db Changes} {t : Turn}
    (hbatch : BatchState P ctx scalar n k s.fbState)
    (htargets : DaTargets P ctx scalar n k s.fbState)
    (hscalar : s.exec.info.daFootprintScalar = scalar)
    (hgas : ∀ cv ∈ t.candidates, GasBounded P ctx cv.1.tx.tx)
    (hcovers : ReservationCovers P ctx s t)
    (hfits : WithinBatches P ctx scalar n k
      (s.exec.info.cumulativeGasUsed + turnBuilderGas P ctx s t)
      (s.exec.info.cumulativeDaBytesUsed + turnBuilderDa P ctx s t)) :
    WithinBatches P ctx scalar n k (turnBottom P ctx s t).info.cumulativeGasUsed
      (turnBottom P ctx s t).info.cumulativeDaBytesUsed := by
  have hpath := accounts_path P ctx
  have htop : s.exec.Accounts (turnTop P ctx s t).1 :=
    hpath.addBuilderTxs true s.exec t.topSimulated
  have hend : (turnRound P ctx s t).1.exec.Accounts (turnBottom P ctx s t) :=
    hpath.addBuilderTxs false _ t.bottomSimulated
  have hround : (turnRound P ctx s t).1.exec.info.used = (turnTop P ctx s t).1.info.used ∨
      (turnTransactionLimits P ctx s t).Hold (turnRound P ctx s t).1.exec.info :=
    runTxLoop_used hgas
  have hlimits := turnTransactionLimits_eq P ctx s t
  refine ⟨?_, fun limit hlimit => ?_, fun footprint hfootprint => ?_⟩
  · refine used_within_target htop.gas hend.gas hfits.gas (fun _ => hcovers.gas)
      (hround.imp (congrArg Prod.fst) TransactionLimits.Hold.gas) ?_
    rw [hlimits, ← hbatch.targetGas]
    exact Nat.min_le_left _ _
  · have hda : (turnTransactionLimits P ctx s t).blockDa = some (k * (limit / n) -
        ((turnReserved P ctx s t).map BuilderTransactionCtx.daSize).sum) := by
      rw [Option.mem_def] at hlimit
      simp [hlimits, htargets.da, hlimit]
    exact used_within_target htop.da hend.da (hfits.da limit hlimit) (fun _ => hcovers.da)
      (hround.imp (congrArg Prod.snd) (fun hold => hold.da _ hda)) (Nat.le_refl _)
  · obtain rfl : scalar = some footprint := hfootprint
    have hfits := hfits.daFootprint footprint rfl
    have hrest : (turnRound P ctx s t).1.exec.info.daFootprintScalar = some footprint := by
      rw [← hend.scalar, (hpath.turnBottom s t).scalar, hscalar]
    have hlimit : (turnTransactionLimits P ctx s t).blockDaFootprint =
        some (k * gasShare P ctx n - saturatingMul
          ((turnReserved P ctx s t).map BuilderTransactionCtx.daSize).sum footprint) := by
      simp [hlimits, htargets.daFootprint, htop.scalar, hscalar]
    have hused : (turnRound P ctx s t).1.exec.info.cumulativeDaBytesUsed * footprint =
          (turnTop P ctx s t).1.info.cumulativeDaBytesUsed * footprint ∨
        Within ((turnRound P ctx s t).1.exec.info.cumulativeDaBytesUsed * footprint)
          (k * gasShare P ctx n - saturatingMul
            ((turnReserved P ctx s t).map BuilderTransactionCtx.daSize).sum footprint) := by
      refine hround.imp (congrArg (fun used : Nat × Nat => used.2 * footprint)) (fun hold => ?_)
      have := hold.daFootprint footprint hrest
      rw [hlimit] at this
      exact this
    refine used_within_target (Nat.mul_le_mul_right footprint htop.da)
      (Nat.mul_le_mul_right footprint hend.da) (fun htarget => ?_) (fun htarget => ?_) hused
      (Nat.le_refl _)
    · rw [← Nat.sub_mul, ← Nat.sub_mul, ← Nat.add_mul, ← Nat.add_mul]
      exact hfits htarget
    · rw [← Nat.sub_mul]
      refine sub_le_saturatingMul hcovers.da (Nat.le_trans ?_ (hfits htarget)) htarget
      refine Nat.mul_le_mul_right footprint ?_
      unfold turnBuilderDa
      omega

/-! ## The whole block -/

/-- Adding up batches. -/
theorem WithinBatches.add {scalar : Option Nat} {n k gas da gas' da' : Nat}
    (h : WithinBatches P ctx scalar n k gas da) (h' : FitsBatches P ctx scalar n 1 gas' da') :
    WithinBatches P ctx scalar n (k + 1) (gas + gas') (da + da') := by
  have hadd : ∀ {a a' share : Nat}, Within a (k * share) → a' ≤ 1 * share →
      Within (a + a') ((k + 1) * share) := by
    intro a a' share ha ha' hlt
    rw [Nat.add_mul] at hlt ⊢
    have := ha (by omega)
    omega
  refine ⟨hadd h.gas h'.gas, fun limit hlimit => hadd (h.da limit hlimit) (h'.da limit hlimit),
    fun scalar hscalar => ?_⟩
  rw [Nat.add_mul]
  exact hadd (h.daFootprint scalar hscalar) (h'.daFootprint scalar hscalar)

theorem FitsBatches.within {scalar : Option Nat} {n k gas da : Nat}
    (h : FitsBatches P ctx scalar n k gas da) : WithinBatches P ctx scalar n k gas da :=
  ⟨fun _ => h.gas, fun limit hlimit _ => h.da limit hlimit,
    fun scalar hscalar _ => h.daFootprint scalar hscalar⟩

variable (P ctx) in
/-- What the usage bound asks of a run of `n` flashblocks from `start`: what is used at the start
    fits in one batch together with the builder transactions of the first flashblock, those of each
    flashblock fit in one batch, and what a flashblock adds at its end is covered by what it
    reserved. -/
structure BatchesFit (n : Nat) (start : BuildState Db Changes) (turns : List Turn) : Prop where
  first : ∀ t, [t] <+: turns → FitsBatches P ctx start.exec.info.daFootprintScalar n 1
    (start.exec.info.cumulativeGasUsed + turnBuilderGas P ctx start t)
    (start.exec.info.cumulativeDaBytesUsed + turnBuilderDa P ctx start t)
  builder : EachTurn P ctx start turns (fun s t =>
    FitsBatches P ctx start.exec.info.daFootprintScalar n 1 (turnBuilderGas P ctx s t)
      (turnBuilderDa P ctx s t))
  reserved : EachTurn P ctx start turns (ReservationCovers P ctx)

section

variable {builderTx : FlashblocksBuilderTx} {start s : BuildState Db Changes}
  {turns done : List Turn}
  {t : Turn} {n : Nat}
  (hsim : EachTurn P ctx start turns (fun s t => t.SimulatedBy P B ctx builderTx s))
  (hevm : EachTurn P ctx start turns (fun _ t =>
    ∀ cv ∈ t.candidates, GasBounded P ctx cv.1.tx.tx))
  (hbatch : BatchState P ctx start.exec.info.daFootprintScalar n 1 start.fbState)
  (htargets : DaTargets P ctx start.exec.info.daFootprintScalar n 1 start.fbState)
  (hfit : BatchesFit P ctx n start turns)

include hsim hevm hbatch htargets hfit in
/-- The usage after a turn, from the usage after the one before it. -/
theorem TurnsFrom.turn_usage (h : TurnsFrom P ctx start done s) (hstarts : done ++ [t] <+: turns)
    (hle : done.length + 1 ≤ n)
    (hprev : s = start ∧ done = [] ∨ WithinBatches P ctx start.exec.info.daFootprintScalar n
      done.length s.exec.info.cumulativeGasUsed s.exec.info.cumulativeDaBytesUsed) :
    WithinBatches P ctx start.exec.info.daFootprintScalar n (done.length + 1)
      (turnBottom P ctx s t).info.cumulativeGasUsed
      (turnBottom P ctx s t).info.cumulativeDaBytesUsed := by
  obtain ⟨hb, ht⟩ := h.targets hsim hbatch htargets ((List.prefix_append _ _).trans hstarts) hle
  have hindex : s.fbState.flashblockIndex ≤ s.fbState.targetFlashblockCount := by
    rw [hb.index, hb.count]
    exact hle
  refine turnBottom_usage hb ht ((accounts_path P ctx).turns h).scalar
    (hevm done t s hstarts h hindex) (hfit.reserved done t s hstarts h hindex) ?_
  rcases hprev with ⟨rfl, rfl⟩ | hprev
  · exact (hfit.first t hstarts).within
  · exact hprev.add (hfit.builder done t s hstarts h hindex)

include hsim hevm hbatch htargets hfit in
/-- The usage at the start of every turn. -/
theorem TurnsFrom.usage (h : TurnsFrom P ctx start done s) (hstarts : done <+: turns)
    (hle : done.length ≤ n) :
    s = start ∧ done = [] ∨ WithinBatches P ctx start.exec.info.daFootprintScalar n done.length
      s.exec.info.cumulativeGasUsed s.exec.info.cumulativeDaBytesUsed := by
  induction h with
  | start => exact .inl ⟨rfl, rfl⟩
  | @turn done s₁ s₂ t hdone hindex hturn ih =>
    rw [List.length_append, List.length_singleton] at hle ⊢
    have hprev := ih ((List.prefix_append _ _).trans hstarts) (by omega)
    obtain ⟨payload, flashblock, fb, -, -, -, rfl⟩ := buildNextFlashblock_built hturn
    exact .inr (hdone.turn_usage hsim hevm hbatch htargets hfit hstarts hle hprev)

end

variable (P B) in
/-- **Batch budgets roll over**: in every run with any configuration of builder transactions, at the
    start of flashblock `k` of `n` the targets are exactly `k` shares of the gas limit, of the DA
    limit and, for the footprint, of the gas limit, hence not above these limits; and if what is
    used after index 0 fits in one batch together with the builder transactions of the first
    flashblock, those of each flashblock fit in one batch, and what a flashblock adds at its end is
    covered by what it reserved, then what was used after flashblock `k` is within those targets. -/
theorem flashblocks_batch_budgets (builderTx : FlashblocksBuilderTx) (builder : BuilderConfig)
    (config : FlashblocksConfig) (i : RunInputs Db) (r : FallbackRun P builder config i)
    (hsim : EachTurn P r.ctx r.start i.turns (fun s t => t.SimulatedBy P B r.ctx builderTx s))
    (done : List Turn) (t : Turn) (s : BuildState Db Changes) (hstarts : done ++ [t] <+: i.turns)
    (h : TurnsFrom P r.ctx r.start done s)
    (hindex : s.fbState.flashblockIndex ≤ s.fbState.targetFlashblockCount) :
    let n := i.targetFlashblocks config
    let k := s.fbState.flashblockIndex
    let gasLimit := r.ctx.blockGasLimit P
    k = done.length + 1 ∧ k ≤ n ∧
    s.fbState.targetGasForBatch = k * (gasLimit / n) ∧
    s.fbState.targetDaForBatch = r.ctx.maxDaBlockSize.map (fun limit => k * (limit / n)) ∧
    s.fbState.targetDaFootprintForBatch =
      r.exec.info.daFootprintScalar.map (fun _ => k * (gasLimit / n)) ∧
    k * (gasLimit / n) ≤ gasLimit ∧ (∀ limit ∈ r.ctx.maxDaBlockSize, k * (limit / n) ≤ limit) ∧
    ((∀ t' ∈ i.turns, ∀ cv ∈ t'.candidates, GasBounded P r.ctx cv.1.tx.tx) →
      BatchesFit P r.ctx n r.start i.turns →
      WithinBatches P r.ctx r.exec.info.daFootprintScalar n k
        (turnBottom P r.ctx s t).info.cumulativeGasUsed
        (turnBottom P r.ctx s t).info.cumulativeDaBytesUsed) := by
  have hstart : BatchState P r.ctx r.exec.info.daFootprintScalar (i.targetFlashblocks config)
      1 r.start.fbState := firstFbState_batch _ _ _
  have htargets : DaTargets P r.ctx r.exec.info.daFootprintScalar (i.targetFlashblocks config)
      1 r.start.fbState := firstFbState_targets _ _ _
  have hdone := (List.prefix_append _ _).trans hstarts
  have hbatch := h.batchState hstart
  have hk : s.fbState.flashblockIndex = done.length + 1 := by
    rw [hbatch.index, Nat.add_comm]
  have hle : done.length + 1 ≤ i.targetFlashblocks config := by
    rw [← hk, ← hbatch.count]
    exact hindex
  obtain ⟨hb, ht⟩ := h.targets hsim hstart htargets hdone hle
  have hshare : ∀ limit, s.fbState.flashblockIndex * (limit / i.targetFlashblocks config) ≤
      limit := by
    intro limit
    rw [hk]
    exact (Nat.mul_le_mul_right _ hle).trans (Nat.mul_div_le limit _)
  refine ⟨hk, hk ▸ hle, hk ▸ hb.targetGas, hk ▸ ht.da, hk ▸ ht.daFootprint, hshare _,
    fun limit _ => hshare limit, fun hevm hfit => ?_⟩
  have hevm : EachTurn P r.ctx r.start i.turns (fun _ t =>
      ∀ cv ∈ t.candidates, GasBounded P r.ctx cv.1.tx.tx) :=
    fun done' t' s' hstarts' _ _ => hevm t' (hstarts'.subset (by simp))
  rw [hk]
  exact h.turn_usage hsim hevm hstart htargets hfit hstarts hle
    (h.usage hsim hevm hstart htargets hfit hdone (by omega))

end

namespace Sample

theorem maxDaBlockSize_eq_none {i : RunInputs (List Address)}
    (r : FallbackRun ledger config synchronous i) : r.ctx.maxDaBlockSize = none := by
  obtain ⟨data, env, -, -, hctx⟩ := getOpPayloadBuilderCtx_eq_some.mp r.context
  rw [hctx]
  rfl

/-- The first of two flashblocks, with one transfer and no builder transactions. -/
def plainTurn : Turn := ⟨some [], transfers, false, some [], none, true, true⟩

def plainRun : FallbackRun ledger config synchronous
    (ledgerRun 84000 2 (.base none) plainTurn) :=
  (FallbackRun.ofInputs _ _ _ _).get (by decide +kernel)

/-- Without builder transactions the first flashblock ends within its targets. -/
theorem plainRun_budgets :
    EachTurn ledger plainRun.ctx plainRun.start [plainTurn]
      (fun s t => t.SimulatedBy ledger signing plainRun.ctx (.base none) s) ∧
    WithinBatches ledger plainRun.ctx plainRun.exec.info.daFootprintScalar 2 1
      (turnBottom ledger plainRun.ctx plainRun.start plainTurn).info.cumulativeGasUsed
      (turnBottom ledger plainRun.ctx plainRun.start plainTurn).info.cumulativeDaBytesUsed := by
  have hsim : EachTurn ledger plainRun.ctx plainRun.start [plainTurn]
      (fun s t => t.SimulatedBy ledger signing plainRun.ctx (.base none) s) :=
    eachTurn_singleton ⟨.inr rfl, .inr rfl⟩
  refine ⟨hsim, (flashblocks_batch_budgets ledger signing (.base none) config synchronous _ plainRun
    hsim [] plainTurn plainRun.start (List.prefix_refl _) .start (by decide)).2.2.2.2.2.2.2 ?_ ?_⟩
  · intro t ht cv hcv
    rw [List.mem_singleton.mp ht] at hcv
    rw [List.mem_singleton.mp hcv]
    intro db gasless result changes hok
    rw [ledger_gasUsed hok]
    exact Nat.min_le_right _ _
  · have hbuilder : FitsBatches ledger plainRun.ctx (some 100) 2 1
        (turnBuilderGas ledger plainRun.ctx plainRun.start plainTurn)
        (turnBuilderDa ledger plainRun.ctx plainRun.start plainTurn) :=
      ⟨by decide, by simp [maxDaBlockSize_eq_none], by decide⟩
    refine ⟨fun t ht => ?_, eachTurn_singleton hbuilder, eachTurn_singleton ⟨by decide, by decide⟩⟩
    have ht : t = plainTurn := by simpa [ledgerRun] using ht
    rw [ht]
    exact ⟨by decide, by simp [maxDaBlockSize_eq_none], by decide⟩

/-- The first of two flashblocks, which begins with a call of the number contract. -/
def numberTurn : Turn :=
  ⟨simulated 84000 numberBuilderTx [55, 100] 1 2, [], false,
    simulated 84000 numberBuilderTx [55, 55, 100] 1 2, none, true, true⟩

def numberRun : FallbackRun ledger config synchronous
    (ledgerRun 84000 2 numberBuilderTx numberTurn) :=
  (FallbackRun.ofInputs _ _ _ _).get (by decide +kernel)

/-- **One batch is used at the start, and the first flashblock adds a builder transaction**: each
    fits in a batch of 42000 gas, and together they exceed the first target. -/
theorem numberRun_exceeds_first_target :
    numberTurn.SimulatedBy ledger signing numberRun.ctx numberBuilderTx numberRun.start ∧
    FitsBatches ledger numberRun.ctx numberRun.exec.info.daFootprintScalar 2 1
      numberRun.exec.info.cumulativeGasUsed numberRun.exec.info.cumulativeDaBytesUsed ∧
    FitsBatches ledger numberRun.ctx numberRun.exec.info.daFootprintScalar 2 1
      (turnBuilderGas ledger numberRun.ctx numberRun.start numberTurn)
      (turnBuilderDa ledger numberRun.ctx numberRun.start numberTurn) ∧
    ¬ Within (turnBottom ledger numberRun.ctx numberRun.start numberTurn).info.cumulativeGasUsed
      (1 * gasShare ledger numberRun.ctx 2) := by
  refine ⟨⟨.inr rfl, .inr rfl⟩, ⟨by decide +kernel, ?_, by decide +kernel⟩,
    ⟨by decide +kernel, ?_, by decide +kernel⟩, ?_⟩
  · simp [maxDaBlockSize_eq_none]
  · simp [maxDaBlockSize_eq_none]
  · intro h
    have := h (by decide +kernel)
    revert this
    decide +kernel

/-- The only flashblock of a block: the simulation at its start fails, the one at its end does
    not. -/
def unreservedTurn : Turn :=
  ⟨none, transfers, false, simulated 63000 plainBuilderTx [102, 55, 100] 1 1, none, true, true⟩

def unreservedRun : FallbackRun ledger config synchronous
    (ledgerRun 63000 1 plainBuilderTx unreservedTurn) :=
  (FallbackRun.ofInputs _ _ _ _).get (by decide +kernel)

/-- **Nothing is reserved**: the pool fills the block, and the builder transaction at its end
    exceeds it, though it fits in the block together with what is used at the start. -/
theorem unreservedRun_exceeds_target :
    unreservedTurn.SimulatedBy ledger signing unreservedRun.ctx plainBuilderTx
      unreservedRun.start ∧
    FitsBatches ledger unreservedRun.ctx unreservedRun.exec.info.daFootprintScalar 1 1
      (unreservedRun.exec.info.cumulativeGasUsed +
        turnBuilderGas ledger unreservedRun.ctx unreservedRun.start unreservedTurn)
      (unreservedRun.exec.info.cumulativeDaBytesUsed +
        turnBuilderDa ledger unreservedRun.ctx unreservedRun.start unreservedTurn) ∧
    ¬ Within (turnBottom ledger unreservedRun.ctx unreservedRun.start
      unreservedTurn).info.cumulativeGasUsed (1 * gasShare ledger unreservedRun.ctx 1) := by
  have hdb : (turnRound ledger unreservedRun.ctx unreservedRun.start unreservedTurn).1.exec.db =
      [102, 55, 100] := by decide +kernel
  refine ⟨⟨.inl rfl, .inr ?_⟩, ⟨by decide +kernel, ?_, by decide +kernel⟩, ?_⟩
  · rw [hdb]
    rfl
  · simp [maxDaBlockSize_eq_none]
  · intro h
    have := h (by decide +kernel)
    revert this
    decide +kernel

end Sample

end XLayerReth.Builder
