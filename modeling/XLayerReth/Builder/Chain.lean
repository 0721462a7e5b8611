import XLayerReth.Builder.Capture

/-!
# The chain as the builder sees it

The data the builder exchanges with the execution layer, and the functions of that layer as
parameters.

* `Tx`, `Recovered` — a signed transaction, and one whose signer is known.
* `Platform`, `PlatformLaws` — the EVM, the state database, the commitments of a header and its
  encodings, none of which is part of this repository, and what is documented of them.
* `BuilderCtx` — `FlashblocksBuilderCtx`: what one block is built from.
* `interceptBridgeTransactionIfNeed` — the interception of bridge events.
-/

set_option autoImplicit false

namespace XLayerReth.Builder

open RcsFilter

/-! ## Transactions and results -/

/-- `OpTxType`, and the blob type the builder refuses. -/
inductive TxType where
  | legacy
  | eip2930
  | eip1559
  | eip4844
  | eip7702
  | deposit
  deriving DecidableEq

/-- A signed transaction; the signer is the one its signature recovers to, if any. -/
structure Tx where
  txType : TxType
  hash : B256
  signer : Option Address
  nonce : Nat
  gasLimit : Nat
  maxFeePerGas : Nat
  maxPriorityFeePerGas : Option Nat
  recipient : Option Address
  value : U256
  encoded : List UInt8

def Tx.isDeposit (tx : Tx) : Bool := tx.txType = .deposit

def Tx.isEip4844 (tx : Tx) : Bool := tx.txType = .eip4844

/-- `effective_tip_per_gas`: the tip above the base fee, if the transaction covers it. -/
def Tx.effectiveTipPerGas (tx : Tx) (baseFee : Nat) : Option Nat :=
  if tx.maxFeePerGas < baseFee then none
  else
    let fee := tx.maxFeePerGas - baseFee
    match tx.maxPriorityFeePerGas with
    | none => some fee
    | some priority => some (min fee priority)

/-- A transaction with its signer. -/
structure Recovered where
  tx : Tx
  signer : Address
  recovered : tx.signer = some signer

/-- An EVM error: the transaction is invalid, or the attempt cannot go on. -/
inductive EvmError where
  | invalidTx (nonceTooLow : Bool)
  | fatal
  deriving DecidableEq

/-- `ExecutionResult`, with the inspector callbacks made on the way. -/
structure ExecutionResult where
  gasUsed : Nat
  success : Bool
  logs : List Log
  hooks : List Hook

structure Receipt where
  txType : TxType
  success : Bool
  cumulativeGasUsed : Nat
  logs : List Log
  depositNonce : Option Nat
  depositReceiptVersion : Option Nat
  deriving DecidableEq

/-- `build_receipt`: only a deposit receipt carries a nonce and, after Canyon, a version. -/
def buildReceipt (canyon : Bool) (txType : TxType) (result : ExecutionResult)
    (cumulativeGasUsed : Nat) (depositNonce : Option Nat) : Receipt where
  txType := txType
  success := result.success
  cumulativeGasUsed := cumulativeGasUsed
  logs := result.logs
  depositNonce := if txType = .deposit then depositNonce else none
  depositReceiptVersion := if txType = .deposit ∧ canyon then some 1 else none

/-! ## Headers and attributes -/

/-- A header, without the fields that are the same in every block. -/
structure Header where
  parentHash : B256
  beneficiary : Address
  stateRoot : B256
  transactionsRoot : B256
  receiptsRoot : B256
  withdrawalsRoot : Option B256
  logsBloom : BitVec 2048
  timestamp : Nat
  mixHash : B256
  baseFeePerGas : Nat
  number : Nat
  gasLimit : Nat
  gasUsed : Nat
  extraData : List UInt8
  parentBeaconBlockRoot : Option B256
  blobGasUsed : Option Nat
  excessBlobGas : Option Nat
  emptyRequests : Bool
  deriving DecidableEq

/-- `OpNextBlockEnvAttributes`. -/
structure NextBlockEnvAttributes where
  timestamp : Nat
  suggestedFeeRecipient : Address
  prevRandao : B256
  gasLimit : Nat
  parentBeaconBlockRoot : Option B256
  extraData : List UInt8

/-- `OpPayloadBuilderAttributes`. -/
structure PayloadAttributes where
  timestamp : Nat
  suggestedFeeRecipient : Address
  prevRandao : B256
  gasLimit : Option Nat
  parentBeaconBlockRoot : Option B256
  eip1559Params : Option (List UInt8)
  minBaseFee : Option Nat
  noTxPool : Bool
  transactions : List Tx

/-- The hard forks, by timestamp. -/
structure ChainSpec where
  isRegolithActive : Nat → Bool
  isCanyonActive : Nat → Bool
  isEcotoneActive : Nat → Bool
  isHoloceneActive : Nat → Bool
  isIsthmusActive : Nat → Bool
  isJovianActive : Nat → Bool

/-- The execution layer: EVM, state database, commitments and encodings.  `none` is a failure. -/
structure Platform (Db Changes Env : Type) where
  nextEvmEnv : Header → NextBlockEnvAttributes → Option Env
  applyPreExecutionChanges : Header → NextBlockEnvAttributes → Db → Option Db
  number : Env → Nat
  baseFee : Env → Nat
  gasLimit : Env → Nat
  beneficiary : Env → Address
  transact : Env → Db → Tx → Bool → Except EvmError (ExecutionResult × Changes)
  commit : Db → Changes → Db
  contractIsGasless : Env → Db → Tx → Option Bool
  accountNonce : Db → Address → Option Nat
  daFootprintGasScalar : Db → Nat
  txEstimatedSizeFjordBytes : List UInt8 → Nat
  isValidInterop : Nat → Nat → Bool
  receiptRoot : Nat → List Receipt → B256
  transactionRoot : List Tx → B256
  logsBloom : List Log → BitVec 2048
  stateRoot : Db → Option B256
  messagePasserRoot : Db → Option B256
  emptyWithdrawals : B256
  jovianExtraData : Nat → Option (List UInt8) → Option Nat → Option (List UInt8)
  holoceneExtraData : Nat → Option (List UInt8) → Option (List UInt8)
  blockHash : Header → B256
  validateHeader : Header → Bool
  validateHeaderAgainstParent : Header → Header → Bool

/-- The extra data of a block: the fee parameters after Holocene, and the minimal base fee after
    Jovian. -/
def PayloadAttributes.extraData {Db Changes Env : Type} (attributes : PayloadAttributes)
    (P : Platform Db Changes Env) (chainSpec : ChainSpec) : Option (List UInt8) :=
  if chainSpec.isJovianActive attributes.timestamp then
    P.jovianExtraData attributes.timestamp attributes.eip1559Params attributes.minBaseFee
  else if chainSpec.isHoloceneActive attributes.timestamp then
    P.holoceneExtraData attributes.timestamp attributes.eip1559Params
  else some []

/-! ## What is relied on -/

/-- A big-endian number. -/
def fromBeBytes (bytes : List UInt8) : Nat := bytes.foldl (fun n b => n * 256 + b.toNat) 0

/-- What is documented of the execution layer: the environment carries the attributes it is made
    from, decoding and encoding the extra data gives it back, and the base fee is enforced unless
    the gasless flag is set. -/
structure PlatformLaws {Db Changes Env : Type} (P : Platform Db Changes Env) : Prop where
  beneficiary : ∀ {parent attributes env}, P.nextEvmEnv parent attributes = some env →
    P.beneficiary env = attributes.suggestedFeeRecipient
  gasLimit : ∀ {parent attributes env}, P.nextEvmEnv parent attributes = some env →
    P.gasLimit env = attributes.gasLimit
  jovian : ∀ {timestamp params minBaseFee data},
    P.jovianExtraData timestamp params minBaseFee = some data → data.length = 17 ∧
      P.jovianExtraData timestamp (some ((data.drop 1).take 8))
        (some (fromBeBytes ((data.drop 9).take 8))) = some data
  holocene : ∀ {timestamp params data}, P.holoceneExtraData timestamp params = some data →
    data.length = 9 ∧ P.holoceneExtraData timestamp (some ((data.drop 1).take 8)) = some data
  baseFee : ∀ {env tx} (db), tx.isDeposit = false → tx.maxFeePerGas < P.baseFee env →
    ∃ e, P.transact env db tx false = .error e

namespace Sample

/-- Big-endian bytes. -/
def toBeBytes : Nat → Nat → List UInt8
  | 0, _ => []
  | k + 1, n => toBeBytes k (n / 256) ++ [UInt8.ofNat (n % 256)]

theorem toBeBytes_length : ∀ k n, (toBeBytes k n).length = k
  | 0, _ => rfl
  | k + 1, n => by simp [toBeBytes, toBeBytes_length k]

theorem fromBeBytes_toBeBytes : ∀ k n, n < 256 ^ k → fromBeBytes (toBeBytes k n) = n
  | 0, n, h => by
    have : n = 0 := by simpa using h
    subst this
    rfl
  | k + 1, n, h => by
    have hq : n / 256 < 256 ^ k := by
      rw [Nat.pow_succ] at h
      omega
    have ih := fromBeBytes_toBeBytes k (n / 256) hq
    unfold fromBeBytes at ih
    simp only [toBeBytes, fromBeBytes, List.foldl_append, ih, List.foldl_cons, List.foldl_nil]
    simp
    omega

/-- A chain whose transactions cost 21000 gas and whose base fee is 7. -/
def platform : Platform Nat Nat (Header × NextBlockEnvAttributes) where
  nextEvmEnv parent attributes := some (parent, attributes)
  applyPreExecutionChanges _ _ db := some db
  number env := env.1.number + 1
  baseFee _ := 7
  gasLimit env := env.2.gasLimit
  beneficiary env := env.2.suggestedFeeRecipient
  transact _ db tx gasless :=
    if !gasless && !tx.isDeposit && tx.maxFeePerGas < 7 then .error (.invalidTx false)
    else .ok (⟨21000, true, [], []⟩, db + 1)
  commit _ changes := changes
  contractIsGasless _ _ _ := some true
  accountNonce _ _ := some 0
  daFootprintGasScalar _ := 400
  txEstimatedSizeFjordBytes bytes := bytes.length
  isValidInterop _ _ := true
  receiptRoot _ receipts := BitVec.ofNat 256 receipts.length
  transactionRoot txs := BitVec.ofNat 256 txs.length
  logsBloom _ := 0
  stateRoot db := some (BitVec.ofNat 256 (db + 1))
  messagePasserRoot _ := some 1
  emptyWithdrawals := 2
  jovianExtraData _ params minBaseFee :=
    match params, minBaseFee with
    | some params, some minBaseFee =>
      if params.length = 8 ∧ minBaseFee < 2 ^ 64 then some (1 :: (params ++ toBeBytes 8 minBaseFee))
      else none
    | _, _ => none
  holoceneExtraData _ params :=
    match params with
    | some params => if params.length = 8 then some (0 :: params) else none
    | none => none
  blockHash header := header.stateRoot + header.receiptsRoot
  validateHeader header := header.gasUsed ≤ header.gasLimit
  validateHeaderAgainstParent header parent := header.number = parent.number + 1

theorem platform_laws : PlatformLaws platform where
  beneficiary := by
    intro parent attributes env h
    cases h
    rfl
  gasLimit := by
    intro parent attributes env h
    cases h
    rfl
  jovian := by
    intro timestamp params minBaseFee data h
    simp only [platform] at h ⊢
    split at h
    · rename_i params minBaseFee
      split_ifs at h with hok
      cases h
      obtain ⟨hlen, hfee⟩ := hok
      have hparams : ((1 :: (params ++ toBeBytes 8 minBaseFee)).drop 1).take 8 = params := by
        simp [hlen]
      have hbytes : ((1 :: (params ++ toBeBytes 8 minBaseFee)).drop 9).take 8 =
          toBeBytes 8 minBaseFee := by
        simp [hlen, toBeBytes_length]
      have hround := fromBeBytes_toBeBytes 8 minBaseFee (by norm_num; exact hfee)
      refine ⟨by simp [hlen, toBeBytes_length], ?_⟩
      rw [hparams, hbytes, hround, if_pos ⟨hlen, hfee⟩]
    · cases h
  holocene := by
    intro timestamp params data h
    simp only [platform] at h ⊢
    split at h
    · rename_i params
      split_ifs at h with hlen
      cases h
      have hparams : ((0 :: params).drop 1).take 8 = params := by simp [← hlen]
      refine ⟨by simp [hlen], ?_⟩
      rw [hparams, if_pos hlen]
    · cases h
  baseFee := by
    intro env tx db hdeposit hfee
    refine ⟨.invalidTx false, ?_⟩
    have : tx.maxFeePerGas < 7 := hfee
    simp [platform, hdeposit, this]

end Sample

/-! ## Bridge interception -/

structure BridgeInterceptConfig where
  enabled : Bool
  bridgeContractAddress : Address
  targetTokenAddress : Address
  wildcard : Bool

/-- `BRIDGE_EVENT_SIGNATURE`. -/
def bridgeEventSignature : B256 :=
  0x501781209a1f8899323b96b4ef08b168df93e0a90c673d1e4cce39366cb62f9b

/-- `parse_bridge_event`: the origin address of a bridge event. -/
def parseBridgeEvent (log : Log) : Option Address :=
  if log.topics.head? ≠ some bridgeEventSignature then none
  else if log.data.length < 256 then none
  else some (BitVec.ofNat 160 (fromBeBytes ((log.data.drop 76).take 20)))

/-- `intercept_bridge_transaction_if_need`: whether a log of the bridge blocks the transaction. -/
def interceptBridgeTransactionIfNeed (logs : List Log) (config : BridgeInterceptConfig) : Bool :=
  config.enabled && logs.any (fun log =>
    log.address = config.bridgeContractAddress &&
      match parseBridgeEvent log with
      | none => false
      | some originAddress => config.wildcard || originAddress = config.targetTokenAddress)

/-! ## The builder context -/

/-- `FlashblocksBuilderCtx`.  The filter is given by its budget of native transfers. -/
structure BuilderCtx (Env : Type) where
  parent : Header
  parentHash : B256
  attributes : PayloadAttributes
  chainSpec : ChainSpec
  evmEnv : Env
  blockEnvAttributes : NextBlockEnvAttributes
  gasLimitConfig : Option Nat
  maxDaTxSize : Option Nat
  maxDaBlockSize : Option Nat
  maxGasPerTxn : Option Nat
  bridgeInterceptConfig : BridgeInterceptConfig
  gaslessContract : Bool
  gaslessBlockGasLimit : Option Nat
  filter : Option Nat
  interopFeature : Bool

namespace BuilderCtx

variable {Db Changes Env : Type}

def timestamp (ctx : BuilderCtx Env) : Nat := ctx.attributes.timestamp

/-- `block_gas_limit`. -/
def blockGasLimit (ctx : BuilderCtx Env) (P : Platform Db Changes Env) : Nat :=
  match ctx.gasLimitConfig with
  | some gasLimit => gasLimit
  | none => ctx.attributes.gasLimit.getD (P.gasLimit ctx.evmEnv)

def isRegolithActive (ctx : BuilderCtx Env) : Bool := ctx.chainSpec.isRegolithActive ctx.timestamp
def isCanyonActive (ctx : BuilderCtx Env) : Bool := ctx.chainSpec.isCanyonActive ctx.timestamp
def isEcotoneActive (ctx : BuilderCtx Env) : Bool := ctx.chainSpec.isEcotoneActive ctx.timestamp
def isHoloceneActive (ctx : BuilderCtx Env) : Bool := ctx.chainSpec.isHoloceneActive ctx.timestamp
def isIsthmusActive (ctx : BuilderCtx Env) : Bool := ctx.chainSpec.isIsthmusActive ctx.timestamp
def isJovianActive (ctx : BuilderCtx Env) : Bool := ctx.chainSpec.isJovianActive ctx.timestamp

/-- `extra_data`. -/
def extraData (ctx : BuilderCtx Env) (P : Platform Db Changes Env) : Option (List UInt8) :=
  ctx.attributes.extraData P ctx.chainSpec

end BuilderCtx

/-- `BuilderConfig`, as far as a context is made from it. -/
structure BuilderConfig where
  chainSpec : ChainSpec
  gasLimitConfig : Option Nat
  maxDaTxSize : Option Nat
  maxDaBlockSize : Option Nat
  maxGasPerTxn : Option Nat
  bridgeInterceptConfig : BridgeInterceptConfig
  gaslessContract : Bool
  gaslessBlockGasLimit : Option Nat
  filter : Option Nat
  interopFeature : Bool

/-- The environment attributes of a block to build. -/
def PayloadAttributes.blockEnvAttributes (attributes : PayloadAttributes) (parent : Header)
    (extraData : List UInt8) : NextBlockEnvAttributes where
  timestamp := attributes.timestamp
  suggestedFeeRecipient := attributes.suggestedFeeRecipient
  prevRandao := attributes.prevRandao
  gasLimit := attributes.gasLimit.getD parent.gasLimit
  parentBeaconBlockRoot := attributes.parentBeaconBlockRoot
  extraData := extraData

/-- The context literal of `get_op_payload_builder_ctx`. -/
def BuilderConfig.context {Env : Type} (config : BuilderConfig) (parent : Header)
    (parentHash : B256) (attributes : PayloadAttributes)
    (blockEnvAttributes : NextBlockEnvAttributes) (evmEnv : Env) : BuilderCtx Env where
  parent := parent
  parentHash := parentHash
  attributes := attributes
  chainSpec := config.chainSpec
  evmEnv := evmEnv
  blockEnvAttributes := blockEnvAttributes
  gasLimitConfig := config.gasLimitConfig
  maxDaTxSize := config.maxDaTxSize
  maxDaBlockSize := config.maxDaBlockSize
  maxGasPerTxn := config.maxGasPerTxn
  bridgeInterceptConfig := config.bridgeInterceptConfig
  gaslessContract := config.gaslessContract
  gaslessBlockGasLimit := config.gaslessBlockGasLimit
  filter := config.filter
  interopFeature := config.interopFeature

/-- `get_op_payload_builder_ctx`: the extra data may not encode, and the environment may not be
    made. -/
def getOpPayloadBuilderCtx {Db Changes Env : Type} (P : Platform Db Changes Env)
    (config : BuilderConfig) (parent : Header) (parentHash : B256)
    (attributes : PayloadAttributes) : Option (BuilderCtx Env) :=
  match attributes.extraData P config.chainSpec with
  | none => none
  | some extraData =>
    let blockEnvAttributes := attributes.blockEnvAttributes parent extraData
    (P.nextEvmEnv parent blockEnvAttributes).map
      (config.context parent parentHash attributes blockEnvAttributes)

theorem getOpPayloadBuilderCtx_eq_some {Db Changes Env : Type} {P : Platform Db Changes Env}
    {config : BuilderConfig} {parent : Header} {parentHash : B256}
    {attributes : PayloadAttributes} {ctx : BuilderCtx Env} :
    getOpPayloadBuilderCtx P config parent parentHash attributes = some ctx ↔
      ∃ data env, attributes.extraData P config.chainSpec = some data ∧
        P.nextEvmEnv parent (attributes.blockEnvAttributes parent data) = some env ∧
        ctx = config.context parent parentHash attributes
          (attributes.blockEnvAttributes parent data) env := by
  unfold getOpPayloadBuilderCtx
  cases attributes.extraData P config.chainSpec with
  | none => simp
  | some data => simp [eq_comm]

namespace Sample

def parent : Header where
  parentHash := 0
  beneficiary := 0
  stateRoot := 1
  transactionsRoot := 0
  receiptsRoot := 0
  withdrawalsRoot := some 1
  logsBloom := 0
  timestamp := 999
  mixHash := 0
  baseFeePerGas := 7
  number := 41
  gasLimit := 30000000
  gasUsed := 0
  extraData := []
  parentBeaconBlockRoot := some 3
  blobGasUsed := some 0
  excessBlobGas := some 0
  emptyRequests := true

/-- Every fork is active, the contract approves gasless transactions, and nothing is capped. -/
def config : BuilderConfig where
  chainSpec := ⟨fun _ => true, fun _ => true, fun _ => true, fun _ => true, fun _ => true,
    fun _ => true⟩
  gasLimitConfig := none
  maxDaTxSize := none
  maxDaBlockSize := none
  maxGasPerTxn := some 1000000
  bridgeInterceptConfig := ⟨false, 0, 0, false⟩
  gaslessContract := true
  gaslessBlockGasLimit := none
  filter := none
  interopFeature := false

def deposit : Tx := ⟨.deposit, 10, some 100, 0, 1000000, 0, none, some 101, 0, [126]⟩

def attributes : PayloadAttributes where
  timestamp := 1000
  suggestedFeeRecipient := 17
  prevRandao := 5
  gasLimit := some 30000000
  parentBeaconBlockRoot := some 3
  eip1559Params := some [0, 0, 0, 250, 0, 0, 0, 6]
  minBaseFee := some 7
  noTxPool := false
  transactions := [deposit]

end Sample

end XLayerReth.Builder
