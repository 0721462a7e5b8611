import XLayerReth.Builder.Block

/-!
# Executing a received payload

Model of the follower in `handler.rs` and `handler_ctx.rs`: a full payload of another builder is
validated, executed on the state of its parent, sealed again, and compared by its hash.

* `executeTransactions` — the loop over the transactions of the payload.
* `decodeExtraData` — the fee parameters in the extra data of a header.
* `executeBuiltPayload` — the whole path, with its error exits in order.
-/

set_option autoImplicit false

namespace XLayerReth.Builder

open RcsFilter

/-- Why a received payload is rejected. -/
inductive FollowerError where
  | parentNotFound
  | preExecutionValidation
  | stateNotFound
  | evmEnvFailed
  | preExecutionChangesFailed
  | extraDataLength (expected : Nat)
  | recoverFailed
  | depositorNonceFailed
  | executionFailed
  | maxGasPerTxnExceeded
  | gasUsedOverflow
  | gasLimitExceeded
  | buildFailed (e : BuildError)
  | blockHashMismatch (expected got : B256)
  deriving DecidableEq

/-- What the node knows of the chain. -/
structure Client (Db : Type) where
  headerById : B256 → Option Header
  stateByBlockHash : B256 → Option Db

/-- `FlashblockHandlerContext`. -/
structure HandlerContext where
  maxDaTxSize : Option Nat
  maxDaBlockSize : Option Nat
  chainSpec : ChainSpec
  maxGasPerTxn : Option Nat
  gaslessContract : Bool

/-- `FlashblockHandlerContext::new`. -/
def HandlerContext.new (config : BuilderConfig) : HandlerContext where
  maxDaTxSize := config.maxDaTxSize
  maxDaBlockSize := config.maxDaBlockSize
  chainSpec := config.chainSpec
  maxGasPerTxn := config.maxGasPerTxn
  gaslessContract := config.gaslessContract

/-- `into_flashblocks_builder_ctx`: no override of the gas limit, no interception and no filter. -/
def HandlerContext.intoFlashblocksBuilderCtx {Env : Type} (hctx : HandlerContext)
    (parent : Header) (parentHash : B256) (attributes : PayloadAttributes) (evmEnv : Env)
    (blockEnvAttributes : NextBlockEnvAttributes) : BuilderCtx Env where
  parent := parent
  parentHash := parentHash
  attributes := attributes
  chainSpec := hctx.chainSpec
  evmEnv := evmEnv
  blockEnvAttributes := blockEnvAttributes
  gasLimitConfig := none
  maxDaTxSize := hctx.maxDaTxSize
  maxDaBlockSize := hctx.maxDaBlockSize
  maxGasPerTxn := hctx.maxGasPerTxn
  bridgeInterceptConfig := ⟨false, 0, 0, false⟩
  gaslessContract := hctx.gaslessContract
  gaslessBlockGasLimit := none
  filter := none
  interopFeature := false

/-- The environment attributes of a sealed header. -/
def Header.blockEnvAttributes (header : Header) : NextBlockEnvAttributes where
  timestamp := header.timestamp
  suggestedFeeRecipient := header.beneficiary
  prevRandao := header.mixHash
  gasLimit := header.gasLimit
  parentBeaconBlockRoot := header.parentBeaconBlockRoot
  extraData := header.extraData

/-- The fee parameters and the minimal base fee in the extra data of a header. -/
def decodeExtraData (chainSpec : ChainSpec) (header : Header) :
    Except FollowerError (Option (List UInt8) × Option Nat) :=
  let params := (header.extraData.drop 1).take 8
  if chainSpec.isJovianActive header.timestamp then
    if header.extraData.length ≠ 17 then .error (.extraDataLength 17)
    else .ok (some params, some (fromBeBytes ((header.extraData.drop 9).take 8)))
  else if chainSpec.isHoloceneActive header.timestamp then
    if header.extraData.length ≠ 9 then .error (.extraDataLength 9)
    else .ok (some params, none)
  else if header.extraData ≠ [] then .error (.extraDataLength 0)
  else .ok (none, none)

/-- The payload attributes of a sealed header; what the header does not tell is the default. -/
def Header.payloadAttributes (header : Header) (eip1559Params : Option (List UInt8))
    (minBaseFee : Option Nat) : PayloadAttributes where
  timestamp := header.timestamp
  suggestedFeeRecipient := header.beneficiary
  prevRandao := header.mixHash
  gasLimit := none
  parentBeaconBlockRoot := header.parentBeaconBlockRoot
  eip1559Params := eip1559Params
  minBaseFee := minBaseFee
  noTxPool := false
  transactions := []

section

variable {Db Changes Env : Type} (P : Platform Db Changes Env) (hctx : HandlerContext)

/-- One transaction of `execute_transactions`.  It is executed without the gasless flag, its gas is
    capped whatever it is, and no fee and no data size is counted. -/
def executeTransactionsStep (evmEnv : Env) (timestamp gasLimit : Nat) (s : ExecutionInfo × Db)
    (tx : Tx) : Except FollowerError (ExecutionInfo × Db) :=
  let (info, db) := s
  match h : tx.signer with
  | none => .error .recoverFailed
  | some sender =>
    match depositorNonce P (hctx.chainSpec.isRegolithActive timestamp) db ⟨tx, sender, h⟩ with
    | none => .error .depositorNonceFailed
    | some depositNonce =>
      match P.transact evmEnv db tx false with
      | .error _ => .error .executionFailed
      | .ok (result, changes) =>
        if hctx.maxGasPerTxn.any (fun limit => result.gasUsed > limit) then
          .error .maxGasPerTxnExceeded
        else
          let cumulativeGasUsed := info.cumulativeGasUsed + result.gasUsed
          if 2 ^ 64 ≤ cumulativeGasUsed then .error .gasUsedOverflow
          else if cumulativeGasUsed > gasLimit then .error .gasLimitExceeded
          else
            .ok ({ info with
              cumulativeGasUsed := cumulativeGasUsed
              receipts := info.receipts ++ [buildReceipt
                (hctx.chainSpec.isCanyonActive timestamp) tx.txType result cumulativeGasUsed
                depositNonce]
              executedSenders := info.executedSenders ++ [sender]
              executedTransactions := info.executedTransactions ++ [tx] }, P.commit db changes)

/-- `execute_transactions`. -/
def executeTransactions (info : ExecutionInfo) (db : Db) (txs : List Tx) (gasLimit timestamp : Nat)
    (evmEnv : Env) : Except FollowerError (ExecutionInfo × Db) :=
  (txs.foldlM (executeTransactionsStep P hctx evmEnv timestamp gasLimit) (info, db)).map
    (fun s => ({ s.1 with
      daFootprintScalar :=
        if hctx.chainSpec.isJovianActive timestamp then some (P.daFootprintGasScalar s.2)
        else none }, s.2))

/-- The first part of `execute_built_payload`: the header is validated against its parent and the
    context and the state to execute it in are made. -/
def prepareExecution (client : Client Db) (header : Header) :
    Except FollowerError (BuilderCtx Env × Db) :=
  match client.headerById header.parentHash with
  | none => .error .parentNotFound
  | some parent =>
    if !(P.validateHeader header && P.validateHeaderAgainstParent header parent) then
      .error .preExecutionValidation
    else
      match client.stateByBlockHash header.parentHash with
      | none => .error .stateNotFound
      | some db =>
        match P.nextEvmEnv parent header.blockEnvAttributes with
        | none => .error .evmEnvFailed
        | some evmEnv =>
          match P.applyPreExecutionChanges parent header.blockEnvAttributes db with
          | none => .error .preExecutionChangesFailed
          | some db =>
            match decodeExtraData hctx.chainSpec header with
            | .error e => .error e
            | .ok (eip1559Params, minBaseFee) =>
              .ok (hctx.intoFlashblocksBuilderCtx parent header.parentHash
                (header.payloadAttributes eip1559Params minBaseFee) evmEnv
                header.blockEnvAttributes, db)

/-- `execute_built_payload`. -/
def executeBuiltPayload (client : Client Db) (payload : BuiltPayload) :
    Except FollowerError (BuiltPayload × Flashblock) :=
  let header := payload.header
  match prepareExecution P hctx client header with
  | .error e => .error e
  | .ok (ctx, db) =>
    let info := { ExecutionInfo.new with
      optionalBlobFields := some (header.excessBlobGas, header.blobGasUsed) }
    match executeTransactions P hctx info db payload.transactions header.gasUsed header.timestamp
        ctx.evmEnv with
    | .error e => .error e
    | .ok (info, db) =>
      match buildBlock P ctx info db none true with
      | .error e => .error (.buildFailed e)
      | .ok (built, flashblock, _) =>
        if built.blockHash ≠ payload.blockHash then
          .error (.blockHashMismatch payload.blockHash built.blockHash)
        else .ok (built, flashblock)

end

end XLayerReth.Builder
