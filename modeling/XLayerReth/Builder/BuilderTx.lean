import XLayerReth.Builder.Runs

/-!
# The builder's own transactions

Model of `FlashblocksBuilderTx` and `BuilderTxBase` in `builder_tx.rs`: which transactions the
builder simulates for a flashblock, and at which end of it they go.

* `BuilderTxPlatform` — signing and the simulated contract call, which are not part of this
  repository.
* `simulateBuilderTxs` — the builder transactions of a flashblock, `none` if the simulation fails.
* `Turn.SimulatedBy` — a turn whose simulated transactions are those of a configuration.  A read of
  the database can fail at any time, so each simulation may also fail.

Between the fallback block and the last flashblock no configuration adds anything at the end of a
flashblock (`reserved_eq_nil`).
-/

set_option autoImplicit false

namespace XLayerReth.Builder

open RcsFilter

/-- `TxEip1559`, the fields that the builder sets. -/
structure TxEip1559 where
  nonce : Nat
  gasLimit : Nat
  maxFeePerGas : Nat
  maxPriorityFeePerGas : Nat
  recipient : Address
  input : List UInt8

/-- A request signed by `signer`. -/
structure SignedTx (signer : Address) (request : TxEip1559) where
  recovered : Recovered
  signed : recovered.signer = signer
  eip1559 : recovered.tx.txType = .eip1559
  nonce : recovered.tx.nonce = request.nonce
  gasLimit : recovered.tx.gasLimit = request.gasLimit
  maxFeePerGas : recovered.tx.maxFeePerGas = request.maxFeePerGas

/-- The result of a simulated call: the topics of its logs, and whether its output decodes. -/
inductive CallResult where
  | success (gasUsed : Nat) (topics : List B256) (decodes : Bool)
  | revert
  | halt

/-- Signing, and calls that are simulated without balance and block gas limit checks. -/
structure BuilderTxPlatform (Db Env : Type) where
  signTx : (signer : Address) → (request : TxEip1559) → Option (SignedTx signer request)
  simulateCall : Env → Db → (caller : Address) → TxEip1559 → Except EvmError CallResult
  incrementFlashblockNumber : List UInt8
  flashblockIncremented : B256

/-- `FlashblocksBuilderTx`: a plain builder transaction, if there is a signer, or one that
    increments the flashblock number contract. -/
inductive FlashblocksBuilderTx where
  | base (signer : Option Address)
  | numberContract (signer flashblockNumberAddress : Address)

/-- `TOTAL_COST_FLOOR_PER_TOKEN`. -/
def totalCostFloorPerToken : Nat := 10

/-- `estimate_builder_tx_gas`: 4 gas for a zero byte and 16 for another, but not less than the
    floor. -/
def estimateBuilderTxGas (input : List UInt8) : Nat :=
  let zeroBytes := (input.filter (fun b => b = 0)).length
  let nonzeroBytes := (input.filter (fun b => b ≠ 0)).length
  let tokensInCalldata := zeroBytes + nonzeroBytes * 4
  max (zeroBytes * 4 + nonzeroBytes * 16 + 21000)
    (21000 + tokensInCalldata * totalCostFloorPerToken)

/-- The message in the data of a builder transaction. -/
def builderTxMessage (blockNumber : Nat) : List UInt8 :=
  (s!"Block Number: {blockNumber}").toUTF8.toList

def FlashblocksState.isFirstFlashblock (fb : FlashblocksState) : Bool := fb.flashblockIndex = 0

def FlashblocksState.isLastFlashblock (fb : FlashblocksState) : Bool :=
  fb.flashblockIndex = fb.targetFlashblockCount

section

variable {Db Changes Env : Type} (P : Platform Db Changes Env) (B : BuilderTxPlatform Db Env)
  (ctx : BuilderCtx Env)

/-- `sign_tx` and what is measured of its result. -/
def signBuilderTx (signer : Address) (gasUsed : Nat) (isTopOfBlock : Bool) (request : TxEip1559) :
    Option BuilderTransactionCtx :=
  (B.signTx signer request).map (fun signed =>
    { gasUsed := gasUsed
      daSize := P.txEstimatedSizeFjordBytes signed.recovered.tx.encoded
      signedTx := signed.recovered
      isTopOfBlock := isTopOfBlock
      eip1559 := signed.eip1559 })

/-- `simulate_builder_tx`, with a signer. -/
def signedBuilderTx (signer : Address) (db : Db) : Option BuilderTransactionCtx := do
  let message := builderTxMessage (P.number ctx.evmEnv)
  let gasUsed := estimateBuilderTxGas message
  let nonce ← P.accountNonce db signer
  signBuilderTx P B signer gasUsed false
    { nonce := nonce, gasLimit := gasUsed, maxFeePerGas := P.baseFee ctx.evmEnv
      maxPriorityFeePerGas := 0, recipient := 0, input := message }

/-- `simulate_builder_tx`: nothing without a signer. -/
def simulateBuilderTx (signer : Option Address) (db : Db) :
    Option (Option BuilderTransactionCtx) :=
  match signer with
  | some signer => (signedBuilderTx P B ctx signer db).map some
  | none => some none

/-- `BuilderTransactionCtx::set_top_of_block`. -/
def BuilderTransactionCtx.setTopOfBlock (b : BuilderTransactionCtx) : BuilderTransactionCtx :=
  { b with isTopOfBlock := true }

/-- `simulate_base_builder_txs`. -/
def simulateBaseBuilderTxs (signer : Option Address) (db : Db)
    (isFirstFlashblock isLastFlashblock : Bool) : Option (List BuilderTransactionCtx) := do
  let first ← if isFirstFlashblock then simulateBuilderTx P B ctx signer db else some none
  let last ← if isLastFlashblock then simulateBuilderTx P B ctx signer db else some none
  some (first.toList ++ last.toList)

/-- `simulate_flashblocks_call`: the gas of the call, if it succeeds, logs the expected event and
    its output decodes. -/
def simulateFlashblocksCall (signer flashblockNumberAddress : Address) (db : Db) : Option Nat := do
  let nonce ← P.accountNonce db signer
  let request : TxEip1559 :=
    { nonce := nonce, gasLimit := ctx.blockGasLimit P, maxFeePerGas := P.baseFee ctx.evmEnv
      maxPriorityFeePerGas := 0, recipient := flashblockNumberAddress
      input := B.incrementFlashblockNumber }
  match B.simulateCall ctx.evmEnv db signer request with
  | .ok (.success gasUsed topics decodes) =>
    if B.flashblockIncremented ∈ topics ∧ decodes then some gasUsed else none
  | .ok .revert | .ok .halt | .error _ => none

/-- `signed_increment_flashblocks_tx`: an external call is forwarded 63/64 of the gas, so the limit
    has a buffer. -/
def signedIncrementFlashblocksTx (signer flashblockNumberAddress : Address) (db : Db) :
    Option BuilderTransactionCtx := do
  let gasUsed ← simulateFlashblocksCall P B ctx signer flashblockNumberAddress db
  let nonce ← P.accountNonce db signer
  signBuilderTx P B signer gasUsed true
    { nonce := nonce, gasLimit := gasUsed * 64 / 63, maxFeePerGas := P.baseFee ctx.evmEnv
      maxPriorityFeePerGas := 0, recipient := flashblockNumberAddress
      input := B.incrementFlashblockNumber }

/-- `simulate_number_contract_builder_txs`: the plain transaction stands in for a call that does not
    work. -/
def simulateNumberContractBuilderTxs (signer flashblockNumberAddress : Address) (db : Db)
    (isFirstFlashblock : Bool) : Option (List BuilderTransactionCtx) :=
  if isFirstFlashblock then (simulateBuilderTx P B ctx (some signer) db).map Option.toList
  else
    match signedIncrementFlashblocksTx P B ctx signer flashblockNumberAddress db with
    | some tx => some [tx]
    | none =>
      (simulateBuilderTx P B ctx (some signer) db).map
        (fun tx => (tx.map BuilderTransactionCtx.setTopOfBlock).toList)

/-- `simulate_builder_txs`. -/
def simulateBuilderTxs (builderTx : FlashblocksBuilderTx) (db : Db)
    (isFirstFlashblock isLastFlashblock : Bool) : Option (List BuilderTransactionCtx) :=
  match builderTx with
  | .base signer => simulateBaseBuilderTxs P B ctx signer db isFirstFlashblock isLastFlashblock
  | .numberContract signer address =>
    simulateNumberContractBuilderTxs P B ctx signer address db isFirstFlashblock

/-- A simulation for the flashblock of `fb`, or its failure. -/
def SimulatedFor (builderTx : FlashblocksBuilderTx) (fb : FlashblocksState) (db : Db)
    (simulated : Option (List BuilderTransactionCtx)) : Prop :=
  simulated = none ∨
    simulated = simulateBuilderTxs P B ctx builderTx db fb.isFirstFlashblock fb.isLastFlashblock

/-- The builder transactions of a turn are those of a configuration. -/
structure Turn.SimulatedBy (builderTx : FlashblocksBuilderTx) (s : BuildState Db Changes)
    (t : Turn) : Prop where
  top : SimulatedFor P B ctx builderTx s.fbState s.exec.db t.topSimulated
  bottom : SimulatedFor P B ctx builderTx s.fbState (turnRound P ctx s t).1.exec.db
    t.bottomSimulated

variable {P B ctx}

/-! ## Which transactions there are -/

theorem signBuilderTx_isTopOfBlock {signer : Address} {gasUsed : Nat} {isTopOfBlock : Bool}
    {request : TxEip1559} {b : BuilderTransactionCtx}
    (h : signBuilderTx P B signer gasUsed isTopOfBlock request = some b) :
    b.isTopOfBlock = isTopOfBlock := by
  unfold signBuilderTx at h
  cases hsign : B.signTx signer request with
  | none => simp [hsign] at h
  | some signed =>
    simp only [hsign, Option.map_some, Option.some.injEq] at h
    rw [← h]

theorem signedIncrementFlashblocksTx_isTopOfBlock {signer address : Address} {db : Db}
    {b : BuilderTransactionCtx}
    (h : signedIncrementFlashblocksTx P B ctx signer address db = some b) :
    b.isTopOfBlock = true := by
  simp only [signedIncrementFlashblocksTx, Option.bind_eq_bind, Option.bind_eq_some_iff] at h
  obtain ⟨gasUsed, -, nonce, -, hsign⟩ := h
  exact signBuilderTx_isTopOfBlock hsign

/-- After the fallback block and before the last flashblock, nothing is for the end. -/
theorem simulateBuilderTxs_between {builderTx : FlashblocksBuilderTx} {db : Db}
    {builderTxs : List BuilderTransactionCtx}
    (h : simulateBuilderTxs P B ctx builderTx db false false = some builderTxs) :
    ∀ b ∈ builderTxs, b.isTopOfBlock = true := by
  cases builderTx with
  | base signer =>
    have hempty : builderTxs = [] := by
      simpa [simulateBuilderTxs, simulateBaseBuilderTxs] using h.symm
    simp [hempty]
  | numberContract signer address =>
    simp only [simulateBuilderTxs, simulateNumberContractBuilderTxs, Bool.false_eq_true,
      if_false] at h
    cases hcall : signedIncrementFlashblocksTx P B ctx signer address db with
    | some tx =>
      simp only [hcall, Option.some.injEq] at h
      intro b hb
      rw [← h, List.mem_singleton] at hb
      rw [hb]
      exact signedIncrementFlashblocksTx_isTopOfBlock hcall
    | none =>
      simp only [hcall] at h
      obtain ⟨tx, -, rfl⟩ := Option.map_eq_some_iff.mp h
      intro b hb
      cases tx with
      | none => cases hb
      | some tx =>
        rw [Option.map_some, Option.toList_some, List.mem_singleton] at hb
        rw [hb]
        rfl

/-- What a turn reserves: the builder transactions that it will add at its end. -/
def reservedTxs (builderTxs : List BuilderTransactionCtx) : List BuilderTransactionCtx :=
  builderTxs.filter (fun tx => !tx.isTopOfBlock)

theorem reserved_eq_nil {builderTx : FlashblocksBuilderTx} {fb : FlashblocksState} {db : Db}
    {simulated : Option (List BuilderTransactionCtx)} (hindex : 0 < fb.flashblockIndex)
    (hlast : fb.flashblockIndex < fb.targetFlashblockCount)
    (h : SimulatedFor P B ctx builderTx fb db simulated) :
    reservedTxs (simulated.getD []) = [] := by
  rcases h with rfl | h
  · rfl
  · have hfirst : fb.isFirstFlashblock = false := by
      simp only [FlashblocksState.isFirstFlashblock, decide_eq_false_iff_not]
      omega
    have hnot : fb.isLastFlashblock = false := by
      simp only [FlashblocksState.isLastFlashblock, decide_eq_false_iff_not]
      omega
    rw [hfirst, hnot] at h
    cases simulated with
    | none => rfl
    | some builderTxs =>
      have htop := simulateBuilderTxs_between h.symm
      simp only [reservedTxs, Option.getD_some, List.filter_eq_nil_iff]
      intro b hb
      simp [htop b hb]

end

namespace Sample

/-- A chain that counts nonces: its state is the list of the senders so far.  A transaction costs
    21000 gas, or all of its gas limit. -/
def ledger : Platform (List Address) Address (Header × NextBlockEnvAttributes) where
  nextEvmEnv := platform.nextEvmEnv
  applyPreExecutionChanges _ _ db := some db
  number := platform.number
  baseFee := platform.baseFee
  gasLimit := platform.gasLimit
  beneficiary := platform.beneficiary
  transact env db tx gasless :=
    match tx.signer with
    | none => .error (.invalidTx false)
    | some signer =>
      if tx.isDeposit then .ok (⟨min 21000 tx.gasLimit, true, [], []⟩, signer)
      else if tx.nonce ≠ db.count signer then
        .error (.invalidTx (decide (tx.nonce < db.count signer)))
      else if !gasless && tx.maxFeePerGas < platform.baseFee env then .error (.invalidTx false)
      else .ok (⟨min 21000 tx.gasLimit, true, [], []⟩, signer)
  commit db signer := signer :: db
  contractIsGasless _ _ _ := some true
  accountNonce db signer := some (db.count signer)
  daFootprintGasScalar _ := 100
  txEstimatedSizeFjordBytes _ := 100
  isValidInterop := platform.isValidInterop
  receiptRoot := platform.receiptRoot
  transactionRoot := platform.transactionRoot
  logsBloom := platform.logsBloom
  stateRoot db := some (BitVec.ofNat 256 (db.length + 1))
  messagePasserRoot _ := some 1
  emptyWithdrawals := platform.emptyWithdrawals
  jovianExtraData := platform.jovianExtraData
  holoceneExtraData := platform.holoceneExtraData
  blockHash := platform.blockHash
  validateHeader := platform.validateHeader
  validateHeaderAgainstParent := platform.validateHeaderAgainstParent

theorem ledger_gasUsed {env : Header × NextBlockEnvAttributes} {db : List Address} {tx : Tx}
    {gasless : Bool} {result : ExecutionResult} {changes : Address}
    (h : ledger.transact env db tx gasless = .ok (result, changes)) :
    result.gasUsed = min 21000 tx.gasLimit := by
  simp only [ledger] at h
  split at h
  · cases h
  · split_ifs at h
    · cases h
      rfl
    · cases h
      rfl

/-- Signing always succeeds, and so does the call of the flashblock number contract. -/
def signing : BuilderTxPlatform (List Address) (Header × NextBlockEnvAttributes) where
  signTx signer request := some
    { recovered :=
        { tx := ⟨.eip1559, BitVec.ofNat 256 (1000 + request.nonce), some signer, request.nonce,
            request.gasLimit, request.maxFeePerGas, some request.maxPriorityFeePerGas,
            some request.recipient, 0, [2, 0, UInt8.ofNat request.nonce]⟩
          signer := signer
          recovered := rfl }
      signed := rfl
      eip1559 := rfl
      nonce := rfl
      gasLimit := rfl
      maxFeePerGas := rfl }
  simulateCall _ _ _ _ := .ok (.success 21000 [77] true)
  incrementFlashblockNumber := [1, 2, 3, 4]
  flashblockIncremented := 77

/-- The builder signs with address 55, and the number contract is at 66. -/
def plainBuilderTx : FlashblocksBuilderTx := .base (some 55)

def numberBuilderTx : FlashblocksBuilderTx := .numberContract 55 66

def attributesWith (gasLimit : Nat) : PayloadAttributes :=
  { attributes with gasLimit := some gasLimit }

/-- The context of a block with the given gas limit. -/
def contextWith (gasLimit : Nat) : BuilderCtx (Header × NextBlockEnvAttributes) :=
  let attributes := attributesWith gasLimit
  let env := attributes.blockEnvAttributes parent
    ((attributes.extraData platform config.chainSpec).getD [])
  config.context parent 9 attributes env (parent, env)

/-- The simulation for flashblock `index` of `n`, after the given senders. -/
def simulated (gasLimit : Nat) (builderTx : FlashblocksBuilderTx) (db : List Address)
    (index n : Nat) : Option (List BuilderTransactionCtx) :=
  simulateBuilderTxs ledger signing (contextWith gasLimit) builderTx db (index = 0) (index = n)

/-- A run on the ledger with one turn: a deposit, and the builder transaction of the fallback
    block. -/
def ledgerRun (gasLimit n : Nat) (builderTx : FlashblocksBuilderTx) (turn : Turn) :
    RunInputs (List Address) where
  parent := parent
  parentHash := 9
  attributes := attributesWith gasLimit
  state := some []
  cachedTxs := none
  simulated := simulated gasLimit builderTx [100] 0 5
  buildError := none
  sends := true
  publishes := true
  referenceSystem := clockBefore n
  referenceInstant := 0
  contextRemade := true
  turns := [turn]
  resolve := ⟨false, true, none⟩

end Sample

end XLayerReth.Builder
