import XLayerReth.Builder.Block
import XLayerReth.Builder.Timing

/-!
# Building a payload from flashblocks

Model of `build_payload`, `build_next_flashblock` and `resolve_best_payload` in `builder.rs`.

A run is given by everything it waits for or asks: the answers of the channels, of the websocket
publisher, of the pool and of the database, and the clocks.  A flashblock that was published is
recorded, also when a later step of its turn fails.

* `buildNextFlashblock` — one turn: builder transactions, a round over the pool, the block, and
  then publishing, sending and taking it as the best payload, in this order.
* `flashblocksLoop` — the turns, up to the end of the channel.
* `resolveBestPayload` — what is stored at the end.
* `RunInputs.scheduler` — the schedule of the slot, whose construction may panic.
* `buildPayload` — the fallback block, the loop, and the resolution.
-/

set_option autoImplicit false

namespace XLayerReth.Builder

open RcsFilter

/-- `FlashblocksConfig`, as far as a run depends on it, with the arguments that the schedule is made
    from. -/
structure FlashblocksConfig where
  args : Timing.BuilderArgs
  disableStateRoot : Bool
  disableAsyncCalculateStateRoot : Bool

def FlashblocksConfig.flashblocksPerBlock (config : FlashblocksConfig) : Nat :=
  config.args.config.flashblocksPerBlock

/-- The capacity of the channel of the triggers: one for each flashblock of a block, and one
    more. -/
def FlashblocksConfig.triggerCapacity (config : FlashblocksConfig) : Nat :=
  (config.flashblocksPerBlock + 1) % 2 ^ 64

/-- The channel has a slot of 16 bytes for each trigger: beyond the largest allocation its creation
    panics. -/
def FlashblocksConfig.TriggersFit (config : FlashblocksConfig) : Prop :=
  config.triggerCapacity ≤ (2 ^ 63 - 1) / 16

instance (config : FlashblocksConfig) : Decidable config.TriggersFit :=
  inferInstanceAs (Decidable (_ ≤ _))

/-- What one turn of the loop meets.  A build error is a failure of the database. -/
structure Turn where
  topSimulated : Option (List BuilderTransactionCtx)
  candidates : List (Candidate × Verdicts)
  blockCancelled : Bool
  bottomSimulated : Option (List BuilderTransactionCtx)
  buildError : Option BuildError
  publishes : Bool
  sends : Bool

/-- What the resolution meets: the cell may be filled, the state of the parent may be gone, and the
    calculation of the state root may fail. -/
structure ResolveInputs where
  cellFilled : Bool
  stateAvailable : Bool
  stateRootError : Option BuildError

/-- What a whole run meets.  The clocks are read when the schedule is made. -/
structure RunInputs (Db : Type) where
  parent : Header
  parentHash : B256
  attributes : PayloadAttributes
  state : Option Db
  cachedTxs : Option (List Recovered)
  simulated : Option (List BuilderTransactionCtx)
  buildError : Option BuildError
  sends : Bool
  publishes : Bool
  referenceSystem : Timing.SystemTime
  referenceInstant : Nat
  contextRemade : Bool
  turns : List Turn
  resolve : ResolveInputs

/-- The timestamp of the payload, as the schedule reads it. -/
def RunInputs.payloadTimestamp {Db : Type} (i : RunInputs Db) : UInt64 :=
  UInt64.ofNat i.attributes.timestamp

/-- `FlashblockScheduler::new`. -/
def RunInputs.scheduler {Db : Type} (i : RunInputs Db) (config : FlashblocksConfig) :
    Except Timing.SchedulePanic Timing.FlashblockScheduler :=
  Timing.fromReference config.args.config.flashblocks config.args.config.blockTime
    i.payloadTimestamp i.referenceSystem i.referenceInstant

/-- The number of flashblocks of a run: none if there is no schedule. -/
def RunInputs.targetFlashblocks {Db : Type} (i : RunInputs Db) (config : FlashblocksConfig) : Nat :=
  match i.scheduler config with
  | .ok scheduler => scheduler.targetFlashblocks
  | .error _ => 0

/-- A run in progress. -/
structure BuildState (Db Changes : Type) where
  exec : Exec Db Changes
  fbState : FlashblocksState
  bestPayload : BuiltPayload × Db
  published : List Flashblock
  sent : List Flashblock

/-- How a turn ends. -/
inductive TurnEnd where
  | built
  | cancelled
  | failed
  deriving DecidableEq

/-- What a run leaves behind: the flashblocks it published and sent, the best payload and the
    fallback it ended with, and the payload it stored. -/
structure RunOutcome (Db : Type) where
  published : List Flashblock
  sent : List Flashblock
  resolvedFrom : Option ((BuiltPayload × Db) × BuiltPayload)
  stored : Option BuiltPayload

/-- A run that returns an error, or panics, without a payload. -/
def RunOutcome.failed {Db : Type} (published sent : List Flashblock) : RunOutcome Db :=
  ⟨published, sent, none, none⟩

section

variable {Db Changes Env : Type} (P : Platform Db Changes Env) (ctx : BuilderCtx Env)

/-- `build_block`, unless the database fails. -/
def tryBuildBlock (buildError : Option BuildError) (info : ExecutionInfo) (db : Db)
    (fb : FlashblocksState) (calculateStateRoot : Bool) :
    Except BuildError (BuiltPayload × Flashblock × FlashblocksState) :=
  match buildError with
  | some e => .error e
  | none =>
    match buildBlock P ctx info db (some fb) calculateStateRoot with
    | .error e => .error e
    | .ok (payload, flashblock, fb') => .ok (payload, flashblock, fb'.getD fb)

/-- The limits of a turn: the targets of the batch, less what the builder transactions at the end
    of the flashblock will need. -/
def turnLimits (fb : FlashblocksState) (daFootprintScalar : Option Nat)
    (builderTxs : List BuilderTransactionCtx) : Nat × Option Nat × Option Nat :=
  let reserved := builderTxs.filter (fun tx => !tx.isTopOfBlock)
  let builderTxGas := (reserved.map BuilderTransactionCtx.gasUsed).sum
  let builderTxDaSize := (reserved.map BuilderTransactionCtx.daSize).sum
  (fb.targetGasForBatch - builderTxGas,
    fb.targetDaForBatch.map (fun limit => limit - builderTxDaSize),
    match fb.targetDaFootprintForBatch, daFootprintScalar with
    | some footprint, some scalar => some (footprint - saturatingMul builderTxDaSize scalar)
    | footprint, _ => footprint)

/-- The state for the next turn: the limits of this turn roll over, the gas from its target. -/
def nextFbState (fb : FlashblocksState) (targetDa targetDaFootprint : Option Nat) :
    FlashblocksState :=
  fb.next (fb.targetGasForBatch + fb.gasPerBatch)
    (match fb.daPerBatch with
      | some limit => targetDa.map (fun da => da + limit)
      | none => targetDa)
    (match targetDaFootprint, fb.daFootprintPerBatch with
      | some footprint, some limit => some (footprint + limit)
      | footprint, _ => footprint)

/-- The end of `build_next_flashblock`, after the last transaction of the turn: the block is built,
    published, sent, and only then taken as the best payload. -/
def finishFlashblock (s : BuildState Db Changes) (t : Turn)
    (targetDa targetDaFootprint : Option Nat) : BuildState Db Changes × TurnEnd :=
  let calculateStateRoot := !s.fbState.disableStateRoot || ctx.attributes.noTxPool
  match tryBuildBlock P ctx t.buildError s.exec.info s.exec.db s.fbState calculateStateRoot with
  | .error _ => (s, .failed)
  | .ok (payload, flashblock, fb) =>
    let flashblock := { flashblock with index := fb.flashblockIndex, base := none }
    let s := { s with fbState := fb }
    if !t.publishes then (s, .failed)
    else
      let s := { s with published := s.published ++ [flashblock] }
      if !t.sends then (s, .failed)
      else
        ({ s with
          sent := s.sent ++ [flashblock]
          bestPayload := (payload, s.exec.db)
          fbState := nextFbState fb targetDa targetDaFootprint }, .built)

/-- `build_next_flashblock`. -/
def buildNextFlashblock (s : BuildState Db Changes) (t : Turn) : BuildState Db Changes × TurnEnd :=
  let top := addBuilderTxs P ctx true s.exec t.topSimulated
  let (targetGas, targetDa, targetDaFootprint) :=
    turnLimits s.fbState top.1.info.daFootprintScalar (top.2.getD [])
  let round := executeBestTransactions P ctx
    ⟨min targetGas (ctx.blockGasLimit P), targetDa, targetDaFootprint⟩ top.1 t.candidates
  if round.2 = .evmError then ({ s with exec := round.1.exec }, .failed)
  else if t.blockCancelled then ({ s with exec := round.1.exec }, .cancelled)
  else
    let bottom := addBuilderTxs P ctx false round.1.exec t.bottomSimulated
    finishFlashblock P ctx { s with exec := bottom.1 } t targetDa targetDaFootprint

/-- The loop of `build_payload`: each turn is a signal of the scheduler, and the end of the list is
    the end of the channel. -/
def flashblocksLoop : BuildState Db Changes → List Turn → BuildState Db Changes
  | s, [] => s
  | s, t :: turns =>
    if s.fbState.flashblockIndex > s.fbState.targetFlashblockCount then s
    else
      match buildNextFlashblock P ctx s t with
      | (s', .built) => flashblocksLoop s' turns
      | (s', .cancelled) => s'
      | (s', .failed) => s'

/-- `resolve_best_payload`: the payload it stores.  A best payload without a state root is completed
    now or in the background; if that is to happen now and cannot, the fallback is stored. -/
def resolveBestPayload (config : FlashblocksConfig) (r : ResolveInputs)
    (bestPayload : BuiltPayload × Db) (fallbackPayload : BuiltPayload) : Option BuiltPayload :=
  if r.cellFilled then none
  else if bestPayload.1.header.stateRoot ≠ 0 then some bestPayload.1
  else
    let calculateStateRootSynchronously := config.disableAsyncCalculateStateRoot
    let fallbackPayloadForResolve :=
      if calculateStateRootSynchronously then fallbackPayload else bestPayload.1
    if !r.stateAvailable then some fallbackPayloadForResolve
    else if calculateStateRootSynchronously then
      match r.stateRootError with
      | some _ => some fallbackPayloadForResolve
      | none =>
        match resolveZeroStateRoot P bestPayload.1 bestPayload.2 with
        | .ok resolved => some resolved
        | .error _ => some fallbackPayloadForResolve
    else some fallbackPayloadForResolve

/-- A run that ends by resolving its best payload. -/
def RunOutcome.resolved (config : FlashblocksConfig) (r : ResolveInputs)
    (published sent : List Flashblock) (bestPayload : BuiltPayload × Db)
    (fallbackPayload : BuiltPayload) : RunOutcome Db :=
  ⟨published, sent, some (bestPayload, fallbackPayload),
    resolveBestPayload P config r bestPayload fallbackPayload⟩

/-- The state for the first turn: every batch has its share of the limits of the block. -/
def firstFbState (fb : FlashblocksState) (daFootprintScalar : Option Nat)
    (targetFlashblocks : Nat) : FlashblocksState :=
  let gasPerBatch := ctx.blockGasLimit P / targetFlashblocks
  let daPerBatch := ctx.maxDaBlockSize.map (fun limit => limit / targetFlashblocks)
  let daFootprintPerBatch :=
    daFootprintScalar.map (fun _ => ctx.blockGasLimit P / targetFlashblocks)
  { fb.withBatchLimits gasPerBatch daPerBatch daFootprintPerBatch gasPerBatch daPerBatch
      daFootprintPerBatch with
    flashblockIndex := 1
    targetFlashblockCount := targetFlashblocks }

/-- The transactions of a cached sequence of flashblocks to replay: none if the filter is enabled,
    since they were not screened here. -/
def cachedSequence (cachedTxs : Option (List Recovered)) : Option (List Recovered) :=
  if ctx.filter.isSome then none else cachedTxs.filter (fun txs => txs ≠ [])

/-- What the fallback block adds to the sequencer's transactions: the cached flashblocks, or the
    first builder transaction. -/
def executeFallback (i : RunInputs Db) (x : Exec Db Changes) : Exec Db Changes :=
  match cachedSequence ctx i.cachedTxs with
  | some txs => (executeCachedFlashblocksTransactions P ctx x txs).1
  | none =>
    if ctx.attributes.noTxPool then x else (addBuilderTxs P ctx false x i.simulated).1

/-- `build_payload` once the fallback block was sent, with the pool in use: it is published, and
    then there are as many flashblocks as there is time for.  A schedule or a channel that cannot be
    made ends the task by a panic. -/
def buildFlashblocks (config : FlashblocksConfig) (i : RunInputs Db) (x : Exec Db Changes)
    (fallbackPayload : BuiltPayload) (flashblock : Flashblock) (fb : FlashblocksState)
    (sent : List Flashblock) : RunOutcome Db :=
  if !i.publishes then .failed [] sent
  else
    match i.scheduler config with
    | .error _ => .failed [flashblock] sent
    | .ok scheduler =>
      if scheduler.targetFlashblocks = 0 then
        .resolved P config i.resolve [flashblock] sent (fallbackPayload, x.db) fallbackPayload
      else if !i.contextRemade then .failed [flashblock] sent
      else if ¬ config.TriggersFit then .failed [flashblock] sent
      else
        let s := flashblocksLoop P ctx
          ⟨x, firstFbState P ctx fb x.info.daFootprintScalar scheduler.targetFlashblocks,
            (fallbackPayload, x.db), [flashblock], sent⟩ i.turns
        .resolved P config i.resolve s.published s.sent s.bestPayload fallbackPayload

/-- `build_payload` after the pre-steps: the fallback block is built and sent, and resolved at once
    if the pool is not used. -/
def buildPayloadFrom (config : FlashblocksConfig) (i : RunInputs Db) (x : Exec Db Changes) :
    RunOutcome Db :=
  let rebuildExternalPayload := (cachedSequence ctx i.cachedTxs).isSome
  let x := executeFallback P ctx i x
  let fb := FlashblocksState.new config.flashblocksPerBlock config.disableStateRoot
  match tryBuildBlock P ctx i.buildError x.info x.db fb true with
  | .error _ => .failed [] []
  | .ok (fallbackPayload, flashblock, fb) =>
    if !rebuildExternalPayload && !i.sends then .failed [] []
    else
      let sent := if rebuildExternalPayload then [] else [flashblock]
      if ctx.attributes.noTxPool || rebuildExternalPayload then
        .resolved P config i.resolve [] sent (fallbackPayload, x.db) fallbackPayload
      else buildFlashblocks P ctx config i x fallbackPayload flashblock fb sent

/-- `build_payload`. -/
def buildPayload (builder : BuilderConfig) (config : FlashblocksConfig) (i : RunInputs Db) :
    RunOutcome Db :=
  match getOpPayloadBuilderCtx P builder i.parent i.parentHash i.attributes with
  | none => .failed [] []
  | some ctx =>
    match i.state with
    | none => .failed [] []
    | some db =>
      match executePreSteps P ctx db with
      | .error _ => .failed [] []
      | .ok x => buildPayloadFrom P ctx config i x

end

end XLayerReth.Builder
