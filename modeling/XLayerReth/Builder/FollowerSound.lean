import XLayerReth.Builder.Agreement

/-!
# What the follower checks of a header

A received payload may have any header.  The follower executes its transactions, seals a block from
the result and accepts the payload if the two hashes are equal, so each field that it seals from the
execution is checked, and each one that it takes from the received header is not.

* `Derivation` — the block that the builder itself derives from the same transactions.
* `Header.executed` — the fields that the follower computes again.
* `executeBuiltPayload_sound` — in an accepted payload they are those of every derivation.

The blob fields are taken from the received header.
-/

set_option autoImplicit false

namespace XLayerReth.Builder

open RcsFilter

/-- The fields of a header that are computed from the execution: gas used, receipts root, logs
    bloom, transactions root, withdrawals root and state root. -/
def Header.executed (header : Header) : Nat × B256 × BitVec 2048 × B256 × Option B256 × B256 :=
  (header.gasUsed, header.receiptsRoot, header.logsBloom, header.transactionsRoot,
    header.withdrawalsRoot, header.stateRoot)

section

variable {Db Changes Env : Type} {P : Platform Db Changes Env} {config : BuilderConfig}
  {parent : Header} {db : Db} {payload : BuiltPayload}

/-! ## The builder's own block -/

variable (P) in
/-- The attributes from which the builder would have been asked for a block with this header. -/
structure PayloadAttributes.Describe (attributes : PayloadAttributes) (chainSpec : ChainSpec)
    (header : Header) : Prop where
  timestamp : attributes.timestamp = header.timestamp
  suggestedFeeRecipient : attributes.suggestedFeeRecipient = header.beneficiary
  prevRandao : attributes.prevRandao = header.mixHash
  gasLimit : attributes.gasLimit = some header.gasLimit
  parentBeaconBlockRoot : attributes.parentBeaconBlockRoot = header.parentBeaconBlockRoot
  extraData : attributes.extraData P chainSpec = some header.extraData

/-- A block that the builder derives from the transactions of a payload, on the state of its parent:
    they are executed, by whichever of its paths, and the block is sealed. -/
structure Derivation (P : Platform Db Changes Env) (config : BuilderConfig) (parent : Header)
    (db : Db) (payload : BuiltPayload) where
  attributes : PayloadAttributes
  ctx : BuilderCtx Env
  start : Db
  exec : Exec Db Changes
  header : Header
  describe : attributes.Describe P config.chainSpec payload.header
  context : getOpPayloadBuilderCtx P config parent payload.header.parentHash attributes = some ctx
  preExecution : P.applyPreExecutionChanges ctx.parent ctx.blockEnvAttributes db = some start
  reaches : (⟨ExecutionInfo.new, start, []⟩ : Exec Db Changes).Reaches P ctx exec
  transactions : exec.info.executedTransactions = payload.transactions
  built : buildHeader P ctx exec.info exec.db true = .ok header

namespace Derivation

/-- The environment of the derivation is the one that the follower reads from the header. -/
theorem ctx_eq (d : Derivation P config parent db payload) :
    ∃ env, P.nextEvmEnv parent payload.header.blockEnvAttributes = some env ∧
      d.ctx = config.context parent payload.header.parentHash d.attributes
        payload.header.blockEnvAttributes env := by
  obtain ⟨data, env, hdata, henv, hctx⟩ := getOpPayloadBuilderCtx_eq_some.mp d.context
  have hattributes : d.attributes.blockEnvAttributes parent data =
      payload.header.blockEnvAttributes := by
    have hextra : payload.header.extraData = data :=
      Option.some.inj (d.describe.extraData.symm.trans hdata)
    simp only [PayloadAttributes.blockEnvAttributes, Header.blockEnvAttributes,
      d.describe.timestamp, d.describe.suggestedFeeRecipient, d.describe.prevRandao,
      d.describe.gasLimit, d.describe.parentBeaconBlockRoot, hextra, Option.getD_some]
  rw [hattributes] at henv hctx
  exact ⟨env, henv, hctx⟩

/-- The executed transactions, on the state after the pre-execution changes. -/
theorem extends_history (d : Derivation P config parent db payload) :
    (⟨ExecutionInfo.new, d.start, []⟩ : Exec Db Changes).Extends P d.ctx d.exec.history d.exec := by
  obtain ⟨cs, h⟩ := d.reaches
  have hhistory : d.exec.history = cs := h.history
  rw [hhistory]
  exact h

end Derivation

/-! ## The follower's block -/

/-- The context and the state that the follower makes of a header. -/
theorem prepareExecution_eq_ok {hctx : HandlerContext} {client : Client Db} {header : Header}
    {ctx : BuilderCtx Env} {start : Db}
    (h : prepareExecution P hctx client header = .ok (ctx, start))
    (hparent : client.headerById header.parentHash = some parent)
    (hstate : client.stateByBlockHash header.parentHash = some db) :
    ∃ env params minBaseFee, P.nextEvmEnv parent header.blockEnvAttributes = some env ∧
      P.applyPreExecutionChanges parent header.blockEnvAttributes db = some start ∧
      ctx = hctx.intoFlashblocksBuilderCtx parent header.parentHash
        (header.payloadAttributes params minBaseFee) env header.blockEnvAttributes := by
  unfold prepareExecution at h
  simp only [hparent, hstate] at h
  split_ifs at h
  split at h
  · cases h
  · rename_i env henv
    split at h
    · cases h
    · rename_i db' hdb
      split at h
      · cases h
      · rename_i params minBaseFee _
        cases h
        exact ⟨env, params, minBaseFee, henv, hdb, rfl⟩

/-- Two headers from the same transactions, receipts, gas and database have the same executed
    fields. -/
theorem buildHeader_executed {ctx ctx' : BuilderCtx Env} {info info' : ExecutionInfo} {db : Db}
    {header header' : Header} (h : buildHeader P ctx info db true = .ok header)
    (h' : buildHeader P ctx' info' db true = .ok header')
    (hspec : ctx'.chainSpec = ctx.chainSpec) (htimestamp : ctx'.timestamp = ctx.timestamp)
    (htransactions : info'.executedTransactions = info.executedTransactions)
    (hreceipts : info'.receipts = info.receipts)
    (hgas : info'.cumulativeGasUsed = info.cumulativeGasUsed) :
    header'.executed = header.executed := by
  obtain ⟨-, root, withdrawals, fields, data, hroot, hw, -, -, rfl⟩ := buildHeader_eq_ok.mp h
  obtain ⟨-, root', withdrawals', fields', data', hroot', hw', -, -, rfl⟩ :=
    buildHeader_eq_ok.mp h'
  have hrootEq : root' = root := Except.ok.inj (hroot'.symm.trans hroot)
  have hforks : withdrawalsRoot P ctx' db = withdrawalsRoot P ctx db := by
    unfold withdrawalsRoot BuilderCtx.isIsthmusActive BuilderCtx.isCanyonActive
    rw [hspec, htimestamp]
  have hwEq : withdrawals' = withdrawals := Except.ok.inj (hw'.symm.trans (hforks.trans hw))
  simp only [Header.executed, assembleHeader, hrootEq, hwEq, htimestamp, htransactions, hreceipts,
    hgas]

/-- **Follower soundness**: if the follower accepts a payload, whatever its header, then gas used,
    receipts root, logs bloom, transactions root, withdrawals root and state root of the header are
    those of every block that the builder derives from the same transactions on the same parent.
    Transactions that the builder executes gaslessly where there is no base fee are left out. -/
theorem executeBuiltPayload_sound (laws : PlatformLaws P) (config : BuilderConfig)
    (client : Client Db) (payload built : BuiltPayload) (flashblock : Flashblock) (parent : Header)
    (db : Db) (hsealed : payload.blockHash = P.blockHash payload.header)
    (hhash : P.blockHash built.header = P.blockHash payload.header →
      built.header = payload.header)
    (hparent : client.headerById payload.header.parentHash = some parent)
    (hstate : client.stateByBlockHash payload.header.parentHash = some db)
    (hok : executeBuiltPayload P (HandlerContext.new config) client payload =
      .ok (built, flashblock))
    (d : Derivation P config parent db payload)
    (hgasless : ∀ c ∈ d.exec.history, c.gasless = true → 0 < P.baseFee d.ctx.evmEnv) :
    payload.header.executed = d.header.executed := by
  obtain ⟨ctx, start, s, hprepare, hfold, scalar, hbuild, hbuilt⟩ :=
    executeBuiltPayload_accepted hok
  have hheader : built.header = payload.header := hhash (hbuilt.trans hsealed)
  obtain ⟨env, params, minBaseFee, henv, hdb, rfl⟩ := prepareExecution_eq_ok hprepare hparent hstate
  obtain ⟨env', henv', hctx⟩ := d.ctx_eq
  obtain rfl : env = env' := Option.some.inj (henv.symm.trans henv')
  -- both start from the same state
  have hstart : start = d.start := by
    have hown := d.preExecution
    rw [hctx] at hown
    exact Option.some.inj (hdb.symm.trans hown)
  have henvEq : d.ctx.evmEnv = env := by
    rw [hctx]
    rfl
  have hspec : (HandlerContext.new config).chainSpec = d.ctx.chainSpec := by
    rw [hctx]
    rfl
  have htimestamp : payload.header.timestamp = d.ctx.timestamp := by
    rw [hctx]
    exact d.describe.timestamp.symm
  -- and execute the same transactions to the same end
  have hext := d.extends_history
  have htransactions : payload.transactions = d.exec.history.map (fun c => c.tx.tx) := by
    rw [← d.transactions]
    exact hext.transactions
  have hloop : (d.exec.history.map (fun c => c.tx.tx)).foldlM
      (executeTransactionsStep P (HandlerContext.new config) d.ctx.evmEnv d.ctx.timestamp
        payload.header.gasUsed)
      ({ ExecutionInfo.new with
        optionalBlobFields := some (payload.header.excessBlobGas, payload.header.blobGasUsed) },
        d.start) = .ok s := by
    rw [← htransactions, henvEq, ← htimestamp, ← hstart]
    exact hfold
  obtain ⟨-, -, rfl⟩ := executeTransactions_accepted laws hspec hext.executed hgasless hloop
    (by simp [ExecutionInfo.new])
  have hdbEq : commitAll P d.start d.exec.history = d.exec.db := hext.db.symm
  rw [hdbEq] at hbuild
  rw [← hheader]
  refine buildHeader_executed d.built hbuild hspec htimestamp ?_ ?_ ?_
  · exact hext.transactions.symm
  · exact hext.receipts.symm
  · exact hext.gas.symm

end

namespace Sample

/-- The payload of the priced run with another blob gas in its header. -/
def blobPayload (blobGasUsed : Option Nat) : BuiltPayload :=
  let header := { pricedRun.payload.header with blobGasUsed := blobGasUsed }
  { pricedRun.payload with header := header, blockHash := platform.blockHash header }

/-- What the builder derives from its transactions. -/
def blobDerivation (blobGasUsed : Option Nat) :
    Derivation platform config parent 0 (blobPayload blobGasUsed) where
  attributes := attributes
  ctx := pricedRun.ctx
  start := 0
  exec := pricedRun.exec
  header := pricedRun.payload.header
  describe := ⟨rfl, rfl, rfl, rfl, rfl, rfl⟩
  context := rfl
  preExecution := rfl
  reaches := by
    obtain ⟨start, hstart, h⟩ := pricedRun.extends
    cases hstart
    exact ⟨_, h⟩
  transactions := rfl
  built := rfl

/-- The follower accepts the payload of the builder, and its header is the builder's. -/
theorem blobPayload_sound :
    ∃ built flashblock,
      executeBuiltPayload platform (HandlerContext.new config) client (blobPayload (some 40000)) =
        .ok (built, flashblock) ∧
      (blobPayload (some 40000)).header.executed =
        (blobDerivation (some 40000)).header.executed := by
  have hok : executeBuiltPayload platform (HandlerContext.new config) client
      (blobPayload (some 40000)) = .ok (_, _) := rfl
  exact ⟨_, _, hok, executeBuiltPayload_sound platform_laws config client _ _ _ parent 0 rfl
    (fun _ => rfl) rfl rfl hok (blobDerivation (some 40000)) (fun _ _ _ => by decide)⟩

/-- **Any blob gas is accepted**: it is copied from the received header, which the follower then
    finds again, while the builder derives 40000 from the same transactions. -/
theorem blobPayload_accepted :
    ∃ built flashblock,
      executeBuiltPayload platform (HandlerContext.new config) client (blobPayload (some 1)) =
        .ok (built, flashblock) ∧
      built.header = (blobPayload (some 1)).header ∧
      (blobDerivation (some 1)).header.blobGasUsed = some 40000 ∧
      (blobPayload (some 1)).header.blobGasUsed ≠
        (blobDerivation (some 1)).header.blobGasUsed :=
  ⟨_, _, rfl, rfl, rfl, by decide⟩

end Sample

end XLayerReth.Builder
