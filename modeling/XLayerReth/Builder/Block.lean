import XLayerReth.Builder.Execution

/-!
# Sealing a block

Model of `build_block` and of `FlashblocksState` in `builder.rs`: the header derived from the
accounting and the database, and the flashblock with the transactions added since the last one.

The trie cache of `FlashblocksState` only speeds up the state root and is left out, as are the
metrics and the account balances of the flashblock metadata.
-/

set_option autoImplicit false

namespace XLayerReth.Builder

open RcsFilter

/-- `FlashblocksState`. -/
structure FlashblocksState where
  flashblockIndex : Nat
  targetFlashblockCount : Nat
  targetGasForBatch : Nat
  targetDaForBatch : Option Nat
  targetDaFootprintForBatch : Option Nat
  gasPerBatch : Nat
  daPerBatch : Option Nat
  daFootprintPerBatch : Option Nat
  disableStateRoot : Bool
  lastFlashblockTxIndex : Nat

namespace FlashblocksState

/-- `FlashblocksState::new`. -/
def new (targetFlashblockCount : Nat) (disableStateRoot : Bool) : FlashblocksState where
  flashblockIndex := 0
  targetFlashblockCount := targetFlashblockCount
  targetGasForBatch := 0
  targetDaForBatch := none
  targetDaFootprintForBatch := none
  gasPerBatch := 0
  daPerBatch := none
  daFootprintPerBatch := none
  disableStateRoot := disableStateRoot
  lastFlashblockTxIndex := 0

/-- `next`. -/
def next (fb : FlashblocksState) (targetGasForBatch : Nat)
    (targetDaForBatch targetDaFootprintForBatch : Option Nat) : FlashblocksState :=
  { fb with
    flashblockIndex := fb.flashblockIndex + 1
    targetGasForBatch := targetGasForBatch
    targetDaForBatch := targetDaForBatch
    targetDaFootprintForBatch := targetDaFootprintForBatch }

/-- `with_batch_limits`. -/
def withBatchLimits (fb : FlashblocksState) (gasPerBatch : Nat)
    (daPerBatch daFootprintPerBatch : Option Nat) (targetGasForBatch : Nat)
    (targetDaForBatch targetDaFootprintForBatch : Option Nat) : FlashblocksState :=
  { fb with
    gasPerBatch := gasPerBatch
    daPerBatch := daPerBatch
    daFootprintPerBatch := daFootprintPerBatch
    targetGasForBatch := targetGasForBatch
    targetDaForBatch := targetDaForBatch
    targetDaFootprintForBatch := targetDaFootprintForBatch }

end FlashblocksState

/-- `OpBuiltPayload`: the sealed block, its fees and its execution output. -/
structure BuiltPayload where
  header : Header
  blockHash : B256
  transactions : List Tx
  senders : List Address
  fees : Nat
  receipts : List Receipt

/-- `OpFlashblockPayloadBase`. -/
structure FlashblockBase where
  parentBeaconBlockRoot : B256
  parentHash : B256
  feeRecipient : Address
  prevRandao : B256
  blockNumber : Nat
  gasLimit : Nat
  timestamp : Nat
  extraData : List UInt8
  baseFeePerGas : Nat

/-- `OpFlashblockPayload`. -/
structure Flashblock where
  index : Nat
  base : Option FlashblockBase
  stateRoot : B256
  receiptsRoot : B256
  logsBloom : BitVec 2048
  gasUsed : Nat
  blockHash : B256
  transactions : List (List UInt8)
  withdrawalsRoot : B256
  blobGasUsed : Option Nat
  receipts : List (B256 × Receipt)
  blockNumber : Nat

section

variable {Db Changes Env : Type} (P : Platform Db Changes Env) (ctx : BuilderCtx Env)

/-- `blob_fields`: given for a validated payload, else computed. -/
def blobFields (info : ExecutionInfo) : Except BuildError (Option Nat × Option Nat) :=
  match info.optionalBlobFields with
  | some fields => .ok fields
  | none =>
    if ctx.isJovianActive then
      match info.daFootprintScalar with
      | none => .error .missingFootprintScalar
      | some scalar => .ok (some 0, some (info.cumulativeDaBytesUsed * scalar))
    else if ctx.isEcotoneActive then .ok (some 0, some 0)
    else .ok (none, none)

/-- The withdrawals root: the storage root of the message passer after Isthmus. -/
def withdrawalsRoot (db : Db) : Except BuildError (Option B256) :=
  if ctx.isIsthmusActive then
    match P.messagePasserRoot db with
    | some root => .ok (some root)
    | none => .error .withdrawalsRootFailed
  else if ctx.isCanyonActive then .ok (some P.emptyWithdrawals)
  else .ok none

/-- The state root of a block, zero if it is left for later. -/
def blockStateRoot (db : Db) (calculateStateRoot : Bool) : Except BuildError B256 :=
  if calculateStateRoot then
    match P.stateRoot db with
    | some root => .ok root
    | none => .error .stateRootFailed
  else .ok 0

/-- The header literal of `build_block`. -/
def assembleHeader (info : ExecutionInfo) (stateRoot : B256) (withdrawalsRoot : Option B256)
    (blobFields : Option Nat × Option Nat) (extraData : List UInt8) : Header where
  parentHash := ctx.parentHash
  beneficiary := P.beneficiary ctx.evmEnv
  stateRoot := stateRoot
  transactionsRoot := P.transactionRoot info.executedTransactions
  receiptsRoot := P.receiptRoot ctx.timestamp info.receipts
  withdrawalsRoot := withdrawalsRoot
  logsBloom := P.logsBloom (info.receipts.flatMap Receipt.logs)
  timestamp := ctx.timestamp
  mixHash := ctx.attributes.prevRandao
  baseFeePerGas := P.baseFee ctx.evmEnv
  number := ctx.parent.number + 1
  gasLimit := ctx.blockGasLimit P
  gasUsed := info.cumulativeGasUsed
  extraData := extraData
  parentBeaconBlockRoot := ctx.attributes.parentBeaconBlockRoot
  blobGasUsed := blobFields.2
  excessBlobGas := blobFields.1
  emptyRequests := ctx.isIsthmusActive

/-- The header of `build_block`, and what can fail on the way to it. -/
def buildHeader (info : ExecutionInfo) (db : Db) (calculateStateRoot : Bool) :
    Except BuildError Header :=
  if P.number ctx.evmEnv ≠ ctx.parent.number + 1 then
    .error (.blockNumberMismatch (ctx.parent.number + 1) (P.number ctx.evmEnv))
  else
    match blockStateRoot P db calculateStateRoot with
    | .error e => .error e
    | .ok stateRoot =>
      match withdrawalsRoot P ctx db with
      | .error e => .error e
      | .ok withdrawalsRoot =>
        match blobFields ctx info with
        | .error e => .error e
        | .ok blobFields =>
          match ctx.extraData P with
          | none => .error .extraDataFailed
          | some extraData =>
            .ok (assembleHeader P ctx info stateRoot withdrawalsRoot blobFields extraData)

/-- The flashblock of a block: what was added since transaction `lastIdx`. -/
def buildFlashblock (info : ExecutionInfo) (header : Header) (lastIdx : Nat) (beaconRoot : B256) :
    Flashblock where
  index := 0
  base := some
    { parentBeaconBlockRoot := beaconRoot
      parentHash := ctx.parentHash
      feeRecipient := ctx.attributes.suggestedFeeRecipient
      prevRandao := ctx.attributes.prevRandao
      blockNumber := ctx.parent.number + 1
      gasLimit := ctx.blockGasLimit P
      timestamp := ctx.timestamp
      extraData := header.extraData
      baseFeePerGas := P.baseFee ctx.evmEnv }
  stateRoot := header.stateRoot
  receiptsRoot := header.receiptsRoot
  logsBloom := header.logsBloom
  gasUsed := info.cumulativeGasUsed
  blockHash := P.blockHash header
  transactions := (info.executedTransactions.drop lastIdx).map Tx.encoded
  withdrawalsRoot := header.withdrawalsRoot.getD 0
  blobGasUsed := header.blobGasUsed
  receipts := ((info.executedTransactions.drop lastIdx).zip (info.receipts.drop lastIdx)).map
    (fun p => (p.1.hash, p.2))
  blockNumber := ctx.parent.number + 1

/-- `build_block`.  A state of flashblocks that is passed in is told how far the block goes. -/
def buildBlock (info : ExecutionInfo) (db : Db) (fb : Option FlashblocksState)
    (calculateStateRoot : Bool) :
    Except BuildError (BuiltPayload × Flashblock × Option FlashblocksState) :=
  match buildHeader P ctx info db calculateStateRoot with
  | .error e => .error e
  | .ok header =>
    match ctx.attributes.parentBeaconBlockRoot with
    | none => .error .missingParentBeaconBlockRoot
    | some beaconRoot =>
      let lastIdx := (fb.map FlashblocksState.lastFlashblockTxIndex).getD 0
      .ok (⟨header, P.blockHash header, info.executedTransactions, info.executedSenders,
          info.totalFees, info.receipts⟩,
        buildFlashblock P ctx info header lastIdx beaconRoot,
        fb.map (fun fb => { fb with lastFlashblockTxIndex := info.executedTransactions.length }))

/-- The payload of `resolve_zero_state_root`: the same block, sealed again with its state root. -/
def BuiltPayload.withStateRoot (payload : BuiltPayload) (stateRoot : B256) : BuiltPayload :=
  let header := { payload.header with stateRoot := stateRoot }
  { payload with header := header, blockHash := P.blockHash header }

/-- `resolve_zero_state_root`, on the database the payload was built from. -/
def resolveZeroStateRoot (payload : BuiltPayload) (db : Db) : Except BuildError BuiltPayload :=
  match P.stateRoot db with
  | some root => .ok (payload.withStateRoot P root)
  | none => .error .stateRootFailed

variable {P ctx}

/-- A header was built if and only if no part of it failed. -/
theorem buildHeader_eq_ok {info : ExecutionInfo} {db : Db} {calculateStateRoot : Bool}
    {header : Header} :
    buildHeader P ctx info db calculateStateRoot = .ok header ↔
      P.number ctx.evmEnv = ctx.parent.number + 1 ∧
      ∃ root withdrawals fields data, blockStateRoot P db calculateStateRoot = .ok root ∧
        withdrawalsRoot P ctx db = .ok withdrawals ∧ blobFields ctx info = .ok fields ∧
        ctx.extraData P = some data ∧
        header = assembleHeader P ctx info root withdrawals fields data := by
  unfold buildHeader
  by_cases hnumber : P.number ctx.evmEnv = ctx.parent.number + 1
  · rw [if_neg (not_not_intro hnumber)]
    cases blockStateRoot P db calculateStateRoot with
    | error e => simp
    | ok root =>
      cases withdrawalsRoot P ctx db with
      | error e => simp
      | ok withdrawals =>
        cases blobFields ctx info with
        | error e => simp
        | ok fields =>
          cases ctx.extraData P with
          | none => simp
          | some data => simp [hnumber, eq_comm]
  · simp [hnumber]

/-- The payload and the flashblock of a block, from its header. -/
theorem buildBlock_eq_ok {info : ExecutionInfo} {db : Db} {fb fb' : Option FlashblocksState}
    {calculateStateRoot : Bool} {payload : BuiltPayload} {flashblock : Flashblock} :
    buildBlock P ctx info db fb calculateStateRoot = .ok (payload, flashblock, fb') ↔
      ∃ header beaconRoot, buildHeader P ctx info db calculateStateRoot = .ok header ∧
        ctx.attributes.parentBeaconBlockRoot = some beaconRoot ∧
        payload = ⟨header, P.blockHash header, info.executedTransactions, info.executedSenders,
          info.totalFees, info.receipts⟩ ∧
        flashblock = buildFlashblock P ctx info header
          ((fb.map FlashblocksState.lastFlashblockTxIndex).getD 0) beaconRoot ∧
        fb' = fb.map (fun fb =>
          { fb with lastFlashblockTxIndex := info.executedTransactions.length }) := by
  unfold buildBlock
  cases buildHeader P ctx info db calculateStateRoot with
  | error e => simp
  | ok header =>
    cases ctx.attributes.parentBeaconBlockRoot with
    | none => simp
    | some beaconRoot => simp [eq_comm]

end

end XLayerReth.Builder
