import XLayerReth.Builder.ExecutionSpec
import XLayerReth.Builder.Follower

/-!
# Leader and follower

A payload of the leader is executed again by its followers.  The two loops are written separately:
the follower never sets the gasless flag, caps the gas of every transaction, takes the gas limit of
the environment from the header, and counts no fees.

* `LeaderRun` — a payload with the run of the leader that produced it.
* `Agrees` — the follower accepts the payload and computes what the leader did.
* `FollowerReady` — no transaction of the run meets one of the differences.
* `executeBuiltPayload_agrees` — a ready run is agreed upon, and conversely.
-/

set_option autoImplicit false

namespace XLayerReth.Builder

open RcsFilter
open XLayerReth.Lib

section

variable {Db Changes Env : Type}

/-! ## The run of the leader -/

/-- What the leader does after the sequencer's transactions: a round over the pool, or a commit of
    builder transactions. -/
inductive Phase where
  | best (limits : TransactionLimits) (candidates : List (Candidate × Verdicts))
  | builder (topOfBlock : Bool) (simulated : Option (List BuilderTransactionCtx))

def Phase.run (P : Platform Db Changes Env) (ctx : BuilderCtx Env) (x : Exec Db Changes) :
    Phase → Exec Db Changes
  | .best limits candidates => (executeBestTransactions P ctx limits x candidates).1.exec
  | .builder topOfBlock simulated => (addBuilderTxs P ctx topOfBlock x simulated).1

/-- What a run of the leader starts from. -/
structure LeaderInputs (Db : Type) where
  parent : Header
  parentHash : B256
  attributes : PayloadAttributes
  db : Db
  phases : List Phase
  flashblocks : FlashblocksState
  calculateStateRoot : Bool

/-- The payload handed over: without a state root it is resolved first. -/
def sealPayload (P : Platform Db Changes Env) (ctx : BuilderCtx Env) (x : Exec Db Changes)
    (flashblocks : FlashblocksState) (calculateStateRoot : Bool) :
    Except BuildError BuiltPayload :=
  match buildBlock P ctx x.info x.db (some flashblocks) calculateStateRoot with
  | .error e => .error e
  | .ok (payload, _, _) =>
    if calculateStateRoot then .ok payload else resolveZeroStateRoot P payload x.db

/-- A run of the leader: the context, the block it executed, and the payload. -/
structure LeaderRun (P : Platform Db Changes Env) (config : BuilderConfig) where
  inputs : LeaderInputs Db
  ctx : BuilderCtx Env
  start : Exec Db Changes
  payload : BuiltPayload
  made : getOpPayloadBuilderCtx P config inputs.parent inputs.parentHash inputs.attributes =
    some ctx
  started : executePreSteps P ctx inputs.db = .ok start
  handed : sealPayload P ctx (inputs.phases.foldl (Phase.run P ctx) start) inputs.flashblocks
    inputs.calculateStateRoot = .ok payload

variable {P : Platform Db Changes Env} {config : BuilderConfig}

/-- The block as the leader executed it. -/
def LeaderRun.exec (run : LeaderRun P config) : Exec Db Changes :=
  run.inputs.phases.foldl (Phase.run P run.ctx) run.start

/-! ## Agreement -/

/-- The follower accepts the payload with the same receipts, gas and fees. -/
def Agrees (payload : BuiltPayload)
    (outcome : Except FollowerError (BuiltPayload × Flashblock)) : Prop :=
  ∃ built flashblock, outcome = .ok (built, flashblock) ∧ built.receipts = payload.receipts ∧
    built.header.gasUsed = payload.header.gasUsed ∧ built.fees = payload.fees

/-- An executed transaction that both loops treat alike. -/
structure Committed.Replayable (P : Platform Db Changes Env) (ctx : BuilderCtx Env)
    (c : Committed Changes) : Prop where
  unflagged : c.gasless = false
  capped : ∀ limit ∈ ctx.maxGasPerTxn, c.result.gasUsed ≤ limit
  free : feeOf P ctx c = 0

/-- The gas limit is not overridden by another one than the environment has. -/
def LeaderRun.SameGasLimit (run : LeaderRun P config) : Prop :=
  ∀ limit ∈ config.gasLimitConfig,
    limit = run.inputs.attributes.gasLimit.getD run.inputs.parent.gasLimit

/-- The header passes consensus validation, the gas limit is the environment's, and the loops treat
    every transaction alike. -/
structure LeaderRun.FollowerReady (run : LeaderRun P config) : Prop where
  header : P.validateHeader run.payload.header = true
  parent : P.validateHeaderAgainstParent run.payload.header run.inputs.parent = true
  gasLimit : run.SameGasLimit
  gasUsed : run.payload.header.gasUsed < 2 ^ 64
  transactions : ∀ c ∈ run.exec.history, c.Replayable P run.ctx

/-! ## The follower's loop -/

section Loop

variable {ctx : BuilderCtx Env} {hctx : HandlerContext} {db : Db} {c : Committed Changes}
  {cs : List (Committed Changes)} {info : ExecutionInfo} {gasLimit : Nat}

/-- The accounting of the follower after it executed `cs`. -/
def ExecutionInfo.replay (ctx : BuilderCtx Env) (info : ExecutionInfo)
    (cs : List (Committed Changes)) : ExecutionInfo :=
  { info with
    cumulativeGasUsed := info.cumulativeGasUsed + gasOf cs
    receipts := info.receipts ++ receiptsFrom ctx info.cumulativeGasUsed cs
    executedSenders := info.executedSenders ++ cs.map (fun c => c.tx.signer)
    executedTransactions := info.executedTransactions ++ cs.map (fun c => c.tx.tx) }

theorem ExecutionInfo.replay_nil (ctx : BuilderCtx Env) (info : ExecutionInfo) :
    info.replay ctx ([] : List (Committed Changes)) = info := by
  simp [ExecutionInfo.replay, gasOf, receiptsFrom]

theorem ExecutionInfo.replay_cons (ctx : BuilderCtx Env) (info : ExecutionInfo)
    (c : Committed Changes) (cs : List (Committed Changes)) :
    (info.replay ctx [c]).replay ctx cs = info.replay ctx (c :: cs) := by
  simp [ExecutionInfo.replay, gasOf, receiptsFrom, Nat.add_assoc]

theorem ExecutionInfo.replay_gas (ctx : BuilderCtx Env) (info : ExecutionInfo)
    (c : Committed Changes) :
    (info.replay ctx [c]).cumulativeGasUsed = info.cumulativeGasUsed + c.result.gasUsed := by
  simp [ExecutionInfo.replay, gasOf]

/-- The follower's step on a transaction that the leader executed without the flag: only the gas
    bounds can stop it. -/
theorem executeTransactionsStep_eq (info : ExecutionInfo) (gasLimit : Nat)
    (hspec : hctx.chainSpec = ctx.chainSpec) (hc : c.ExecutedAt P ctx db)
    (hflag : c.gasless = false) :
    executeTransactionsStep P hctx ctx.evmEnv ctx.timestamp gasLimit (info, db) c.tx.tx =
      if hctx.maxGasPerTxn.any (fun limit => c.result.gasUsed > limit) then
        .error .maxGasPerTxnExceeded
      else if 2 ^ 64 ≤ info.cumulativeGasUsed + c.result.gasUsed then .error .gasUsedOverflow
      else if info.cumulativeGasUsed + c.result.gasUsed > gasLimit then .error .gasLimitExceeded
      else .ok (info.replay ctx [c], P.commit db c.changes) := by
  obtain ⟨_, ⟨tx, signer, hsigner⟩, _, depositNonce, result, changes, _⟩ := c
  dsimp only at hflag
  subst hflag
  have hnonce := hc.nonce
  have htransact := hc.transact
  simp only [BuilderCtx.isRegolithActive, ← hspec] at hnonce
  unfold executeTransactionsStep
  dsimp only at htransact ⊢
  split
  · rename_i hnone
    rw [hsigner] at hnone
    cases hnone
  · rename_i sender hsender
    obtain rfl : signer = sender := Option.some.inj (hsigner.symm.trans hsender)
    simp only [hnonce, htransact, ExecutionInfo.replay, gasOf_cons, receiptsFrom,
      BuilderCtx.isCanyonActive, ← hspec]
    simp [gasOf]

/-- **The loops agree**: on transactions that both treat alike the follower succeeds, with the
    leader's accounting and database. -/
theorem executeTransactions_replays (hspec : hctx.chainSpec = ctx.chainSpec)
    (hlimit : gasLimit < 2 ^ 64) : ∀ {cs : List (Committed Changes)} (info : ExecutionInfo) {db},
    ExecutedFrom P ctx db cs →
    (∀ c ∈ cs, c.gasless = false ∧ ∀ limit ∈ hctx.maxGasPerTxn, c.result.gasUsed ≤ limit) →
    info.cumulativeGasUsed + gasOf cs ≤ gasLimit →
    (cs.map (fun c => c.tx.tx)).foldlM
        (executeTransactionsStep P hctx ctx.evmEnv ctx.timestamp gasLimit) (info, db) =
      .ok (info.replay ctx cs, commitAll P db cs) := by
  intro cs
  induction cs with
  | nil =>
    intro info db _ _ _
    rw [ExecutionInfo.replay_nil]
    rfl
  | cons c cs ih =>
    intro info db hexec hloops hgas
    rw [gasOf_cons] at hgas
    obtain ⟨hflag, hcap⟩ := hloops c List.mem_cons_self
    have hcapped : hctx.maxGasPerTxn.any (fun limit => c.result.gasUsed > limit) = false := by
      rw [Option.any_eq_false_iff_get]
      intro hsome
      simpa using hcap _ (Option.get_mem hsome)
    have hstep := executeTransactionsStep_eq info gasLimit hspec hexec.1 hflag
    rw [hcapped, if_neg (by simp), if_neg (by omega), if_neg (by omega)] at hstep
    rw [List.map_cons, foldlM_cons, hstep]
    show List.foldlM _ (info.replay ctx [c], P.commit db c.changes) _ = _
    have hrest : (info.replay ctx [c]).cumulativeGasUsed + gasOf cs ≤ gasLimit := by
      simp only [ExecutionInfo.replay_gas]
      omega
    rw [ih _ hexec.2 (fun c' h => hloops c' (List.mem_cons_of_mem _ h)) hrest,
      ExecutionInfo.replay_cons]
    rfl

/-- With a base fee to pay, a transaction that the follower executes was not gasless. -/
theorem executeTransactionsStep_unflagged {s : ExecutionInfo × Db} (laws : PlatformLaws P)
    (hbase : c.gasless = true → 0 < P.baseFee ctx.evmEnv) (hc : c.ExecutedAt P ctx db)
    (h : executeTransactionsStep P hctx ctx.evmEnv ctx.timestamp gasLimit (info, db) c.tx.tx =
      .ok s) : c.gasless = false := by
  by_contra hnot
  have hflag : c.gasless = true := by simpa using hnot
  obtain ⟨hdeposit, hfee⟩ := hc.unpriced hflag
  have hbelow : c.tx.tx.maxFeePerGas < P.baseFee ctx.evmEnv := by
    rw [hfee]
    exact hbase hflag
  obtain ⟨e, he⟩ := laws.baseFee db hdeposit hbelow
  unfold executeTransactionsStep at h
  dsimp only at h
  split at h
  · cases h
  · split at h
    · cases h
    · rw [he] at h
      cases h

/-- What the follower accepted, both loops treat alike. -/
theorem executeTransactions_accepted (laws : PlatformLaws P)
    (hspec : hctx.chainSpec = ctx.chainSpec) :
    ∀ {cs : List (Committed Changes)} {info : ExecutionInfo} {db} {s : ExecutionInfo × Db},
    ExecutedFrom P ctx db cs → (∀ c ∈ cs, c.gasless = true → 0 < P.baseFee ctx.evmEnv) →
    (cs.map (fun c => c.tx.tx)).foldlM
        (executeTransactionsStep P hctx ctx.evmEnv ctx.timestamp gasLimit) (info, db) = .ok s →
    info.cumulativeGasUsed < 2 ^ 64 →
    (∀ c ∈ cs, c.gasless = false ∧ ∀ limit ∈ hctx.maxGasPerTxn, c.result.gasUsed ≤ limit) ∧
      info.cumulativeGasUsed + gasOf cs < 2 ^ 64 ∧ s = (info.replay ctx cs, commitAll P db cs) := by
  intro cs
  induction cs with
  | nil =>
    intro info db s _ _ h hgas
    rw [List.map_nil, foldlM_nil, Except.ok.injEq] at h
    exact ⟨by simp, by simpa [gasOf] using hgas, by rw [ExecutionInfo.replay_nil, ← h]; rfl⟩
  | cons c cs ih =>
    intro info db s hexec hbase h hgas
    rw [List.map_cons, foldlM_cons] at h
    cases hstep : executeTransactionsStep P hctx ctx.evmEnv ctx.timestamp gasLimit (info, db)
        c.tx.tx with
    | error e =>
      rw [hstep] at h
      cases h
    | ok s₁ =>
      have hflag :=
        executeTransactionsStep_unflagged laws (hbase c List.mem_cons_self) hexec.1 hstep
      rw [hstep] at h
      rw [executeTransactionsStep_eq info gasLimit hspec hexec.1 hflag] at hstep
      split_ifs at hstep with hcap hover hlimit
      cases hstep
      obtain ⟨hrest, htotal, hs⟩ := ih hexec.2 (fun c' hc' => hbase c' (List.mem_cons_of_mem _ hc'))
        h (by simp only [ExecutionInfo.replay_gas]; omega)
      refine ⟨?_, ?_, ?_⟩
      · intro c' hc'
        rcases List.mem_cons.mp hc' with rfl | hc'
        · refine ⟨hflag, fun limit hmem => ?_⟩
          rw [Option.mem_def] at hmem
          simpa [hmem] using hcap
        · exact hrest c' hc'
      · simp only [ExecutionInfo.replay_gas] at htotal
        rw [gasOf_cons]
        omega
      · rw [hs, ExecutionInfo.replay_cons]
        rfl

end Loop

/-! ## The follower's block -/

/-- A payload that was handed over has the header of a block with its state root. -/
theorem sealPayload_eq_ok {ctx : BuilderCtx Env} {x : Exec Db Changes} {fb : FlashblocksState}
    {calculateStateRoot : Bool} {payload : BuiltPayload}
    (h : sealPayload P ctx x fb calculateStateRoot = .ok payload) :
    ∃ header beaconRoot, buildHeader P ctx x.info x.db true = .ok header ∧
      ctx.attributes.parentBeaconBlockRoot = some beaconRoot ∧
      payload = ⟨header, P.blockHash header, x.info.executedTransactions, x.info.executedSenders,
        x.info.totalFees, x.info.receipts⟩ := by
  unfold sealPayload at h
  cases hbuild : buildBlock P ctx x.info x.db (some fb) calculateStateRoot with
  | error e => simp [hbuild] at h
  | ok block =>
    obtain ⟨built, flashblock, fb'⟩ := block
    obtain ⟨header, beaconRoot, hheader, hbeacon, rfl, -, -⟩ := buildBlock_eq_ok.mp hbuild
    simp only [hbuild] at h
    cases calculateStateRoot with
    | true =>
      cases h
      exact ⟨header, beaconRoot, hheader, hbeacon, rfl⟩
    | false =>
      -- the resolved header is the one `build_block` would have made with the root
      simp only [Bool.false_eq_true, if_false, resolveZeroStateRoot] at h
      cases hroot : P.stateRoot x.db with
      | none => simp [hroot] at h
      | some root =>
        simp only [hroot, Except.ok.injEq] at h
        subst h
        obtain ⟨hnumber, -, withdrawals, fields, data, -, hw, hf, hd, rfl⟩ :=
          buildHeader_eq_ok.mp hheader
        refine ⟨assembleHeader P ctx x.info root withdrawals fields data, beaconRoot,
          buildHeader_eq_ok.mpr ⟨hnumber, root, withdrawals, fields, data, ?_, hw, hf, hd, rfl⟩,
          hbeacon, rfl⟩
        simp [blockStateRoot, hroot]

/-- The fee parameters that the follower reads from the extra data encode to the same extra data. -/
theorem decodeExtraData_encode (laws : PlatformLaws P) {spec : ChainSpec} {header : Header}
    {attributes : PayloadAttributes} (hts : header.timestamp = attributes.timestamp)
    (h : attributes.extraData P spec = some header.extraData) :
    ∃ params minBaseFee, decodeExtraData spec header = .ok (params, minBaseFee) ∧
      (header.payloadAttributes params minBaseFee).extraData P spec = some header.extraData := by
  unfold PayloadAttributes.extraData at h
  rw [← hts] at h
  by_cases hj : spec.isJovianActive header.timestamp = true
  · rw [if_pos hj] at h
    obtain ⟨hlen, hround⟩ := laws.jovian h
    refine ⟨some ((header.extraData.drop 1).take 8),
      some (fromBeBytes ((header.extraData.drop 9).take 8)), by simp [decodeExtraData, hj, hlen],
      ?_⟩
    simpa [PayloadAttributes.extraData, Header.payloadAttributes, hj] using hround
  · by_cases hh : spec.isHoloceneActive header.timestamp = true
    · rw [if_neg hj, if_pos hh] at h
      obtain ⟨hlen, hround⟩ := laws.holocene h
      refine ⟨some ((header.extraData.drop 1).take 8), none,
        by simp [decodeExtraData, hj, hh, hlen], ?_⟩
      simpa [PayloadAttributes.extraData, Header.payloadAttributes, hj, hh] using hround
    · rw [if_neg hj, if_neg hh, Option.some.injEq] at h
      refine ⟨none, none, by simp [decodeExtraData, hj, hh, ← h], ?_⟩
      simp [PayloadAttributes.extraData, Header.payloadAttributes, hj, hh, ← h]

theorem Phase.run_reaches (ctx : BuilderCtx Env) (x : Exec Db Changes) (phase : Phase) :
    x.Reaches P ctx (phase.run P ctx x) := by
  cases phase with
  | best limits candidates => exact executeBestTransactions_reaches limits x candidates
  | builder topOfBlock simulated => exact addBuilderTxs_reaches topOfBlock x simulated

theorem Phase.foldl_reaches (ctx : BuilderCtx Env) : ∀ (phases : List Phase) (x : Exec Db Changes),
    x.Reaches P ctx (phases.foldl (Phase.run P ctx) x)
  | [], x => .refl x
  | phase :: phases, x => (phase.run_reaches ctx x).trans (Phase.foldl_reaches ctx phases _)

/-- The block is what its history executes to, from the state after the pre-execution changes. -/
theorem LeaderRun.extends (run : LeaderRun P config) :
    ∃ db, P.applyPreExecutionChanges run.ctx.parent run.ctx.blockEnvAttributes run.inputs.db =
        some db ∧
      (⟨ExecutionInfo.new, db, []⟩ : Exec Db Changes).Extends P run.ctx run.exec.history
        run.exec := by
  obtain ⟨db, hdb, hstart⟩ := executePreSteps_reaches run.started
  obtain ⟨cs, hcs⟩ := hstart.trans (Phase.foldl_reaches run.ctx run.inputs.phases run.start)
  refine ⟨db, hdb, ?_⟩
  have hhistory : run.exec.history = cs := hcs.history
  rw [hhistory]
  exact hcs

/-- The parts of the payload that was handed over. -/
theorem LeaderRun.payload_eq (run : LeaderRun P config) :
    ∃ root withdrawals fields data, P.number run.ctx.evmEnv = run.ctx.parent.number + 1 ∧
      blockStateRoot P run.exec.db true = .ok root ∧
      withdrawalsRoot P run.ctx run.exec.db = .ok withdrawals ∧
      run.ctx.extraData P = some data ∧ run.ctx.attributes.parentBeaconBlockRoot.isSome ∧
      run.payload.header =
        assembleHeader P run.ctx run.exec.info root withdrawals fields data ∧
      run.payload = ⟨run.payload.header, P.blockHash run.payload.header,
        run.exec.info.executedTransactions, run.exec.info.executedSenders,
        run.exec.info.totalFees, run.exec.info.receipts⟩ := by
  obtain ⟨header, beaconRoot, hheader, hbeacon, hpayload⟩ := sealPayload_eq_ok run.handed
  obtain ⟨hnumber, root, withdrawals, fields, data, hroot, hw, -, hd, hassembled⟩ :=
    buildHeader_eq_ok.mp hheader
  have hheader' : run.payload.header = header := by rw [hpayload]
  refine ⟨root, withdrawals, fields, data, hnumber, hroot, hw, hd, by simp [hbeacon], ?_, ?_⟩
  · rw [hheader', hassembled]
    rfl
  · rw [hheader']
    exact hpayload

/-- The context of the leader, from its configuration. -/
theorem LeaderRun.ctx_eq (run : LeaderRun P config) :
    ∃ data env, run.inputs.attributes.extraData P config.chainSpec = some data ∧
      P.nextEvmEnv run.inputs.parent
        (run.inputs.attributes.blockEnvAttributes run.inputs.parent data) = some env ∧
      run.ctx = config.context run.inputs.parent run.inputs.parentHash run.inputs.attributes
        (run.inputs.attributes.blockEnvAttributes run.inputs.parent data) env :=
  getOpPayloadBuilderCtx_eq_some.mp run.made

theorem LeaderRun.chainSpec_eq (run : LeaderRun P config) :
    (HandlerContext.new config).chainSpec = run.ctx.chainSpec := by
  obtain ⟨data, env, -, -, hctx⟩ := run.ctx_eq
  rw [hctx]
  rfl

theorem LeaderRun.maxGasPerTxn_eq (run : LeaderRun P config) :
    (HandlerContext.new config).maxGasPerTxn = run.ctx.maxGasPerTxn := by
  obtain ⟨data, env, -, -, hctx⟩ := run.ctx_eq
  rw [hctx]
  rfl

theorem LeaderRun.parentHash_eq (run : LeaderRun P config) :
    run.payload.header.parentHash = run.inputs.parentHash := by
  obtain ⟨root, withdrawals, fields, data, -, -, -, -, -, hheader, -⟩ := run.payload_eq
  obtain ⟨_, _, -, -, hctx⟩ := run.ctx_eq
  rw [hheader, hctx]
  rfl

theorem LeaderRun.parent_eq (run : LeaderRun P config) : run.ctx.parent = run.inputs.parent := by
  obtain ⟨_, _, -, -, hctx⟩ := run.ctx_eq
  rw [hctx]
  rfl

theorem LeaderRun.timestamp_eq (run : LeaderRun P config) :
    run.payload.header.timestamp = run.ctx.timestamp := by
  obtain ⟨root, withdrawals, fields, data, -, -, -, -, -, hheader, -⟩ := run.payload_eq
  rw [hheader]
  rfl

/-- Without another override the header has the gas limit of the environment. -/
theorem LeaderRun.blockGasLimit_eq (laws : PlatformLaws P) (run : LeaderRun P config)
    (h : run.SameGasLimit) : run.ctx.blockGasLimit P = P.gasLimit run.ctx.evmEnv := by
  obtain ⟨data, env, -, henv, hctx⟩ := run.ctx_eq
  have hlimit : P.gasLimit env =
      run.inputs.attributes.gasLimit.getD run.inputs.parent.gasLimit := laws.gasLimit henv
  rw [hctx]
  simp only [BuilderCtx.blockGasLimit, BuilderConfig.context]
  split
  · rename_i limit hsome
    rw [h limit hsome, hlimit]
  · cases hattr : run.inputs.attributes.gasLimit with
    | none => rfl
    | some limit => rw [hlimit, hattr]; rfl

/-- The header that the follower reads gives back the environment of the leader. -/
theorem LeaderRun.blockEnvAttributes_eq (laws : PlatformLaws P) (run : LeaderRun P config)
    (h : run.SameGasLimit) :
    run.payload.header.blockEnvAttributes = run.ctx.blockEnvAttributes := by
  obtain ⟨root, withdrawals, fields, data, -, -, -, hd, -, hheader, -⟩ := run.payload_eq
  have hgas := run.blockGasLimit_eq laws h
  obtain ⟨data', env, hdata, henv, hctx⟩ := run.ctx_eq
  have hlimit := laws.gasLimit henv
  have hbeneficiary := laws.beneficiary henv
  rw [hheader]
  simp only [Header.blockEnvAttributes, assembleHeader, hgas]
  simp only [hctx, BuilderConfig.context, BuilderCtx.timestamp, BuilderCtx.extraData,
    PayloadAttributes.blockEnvAttributes] at hd ⊢
  rw [hdata, Option.some.injEq] at hd
  rw [← hd, hlimit, hbeneficiary]
  rfl

/-- The context that the follower makes from the header of the payload. -/
def LeaderRun.followerCtx (run : LeaderRun P config) (params : Option (List UInt8))
    (minBaseFee : Option Nat) : BuilderCtx Env :=
  (HandlerContext.new config).intoFlashblocksBuilderCtx run.inputs.parent
    run.payload.header.parentHash (run.payload.header.payloadAttributes params minBaseFee)
    run.ctx.evmEnv run.payload.header.blockEnvAttributes

/-- What the follower makes of a header that passes validation. -/
theorem LeaderRun.prepareExecution_eq (laws : PlatformLaws P) (run : LeaderRun P config)
    {client : Client Db} {db : Db}
    (hparent : client.headerById run.inputs.parentHash = some run.inputs.parent)
    (hstate : client.stateByBlockHash run.inputs.parentHash = some run.inputs.db)
    (hheader : P.validateHeader run.payload.header = true)
    (hagainst : P.validateHeaderAgainstParent run.payload.header run.inputs.parent = true)
    (hgas : run.SameGasLimit)
    (hdb : P.applyPreExecutionChanges run.ctx.parent run.ctx.blockEnvAttributes run.inputs.db =
      some db) :
    ∃ params minBaseFee,
      (run.followerCtx params minBaseFee).extraData P = some run.payload.header.extraData ∧
      prepareExecution P (HandlerContext.new config) client run.payload.header =
        .ok (run.followerCtx params minBaseFee, db) := by
  obtain ⟨root, withdrawals, fields, data, -, -, -, hd, -, hassembled, -⟩ := run.payload_eq
  have henvAttributes := run.blockEnvAttributes_eq laws hgas
  have htimestamp := run.timestamp_eq
  have hspec := run.chainSpec_eq
  have hextra : run.ctx.attributes.extraData P (HandlerContext.new config).chainSpec =
      some run.payload.header.extraData := by
    rw [hspec, hassembled]
    exact hd
  obtain ⟨params, minBaseFee, hdecode, hencode⟩ := decodeExtraData_encode laws htimestamp hextra
  refine ⟨params, minBaseFee, hencode, ?_⟩
  have henv : P.nextEvmEnv run.inputs.parent run.ctx.blockEnvAttributes =
      some run.ctx.evmEnv := by
    obtain ⟨_, _, -, henv, hctx⟩ := run.ctx_eq
    rw [hctx]
    exact henv
  rw [run.parent_eq] at hdb
  unfold prepareExecution LeaderRun.followerCtx
  simp only [run.parentHash_eq, hparent, hheader, hagainst, hstate, henvAttributes, henv, hdb,
    hdecode,
    Bool.and_self, Bool.not_true, Bool.false_eq_true, if_false]

/-- A header that the follower executes passed validation. -/
theorem prepareExecution_validated {hctx : HandlerContext} {client : Client Db} {header : Header}
    {r : BuilderCtx Env × Db} (h : prepareExecution P hctx client header = .ok r) :
    ∃ parent, client.headerById header.parentHash = some parent ∧
      P.validateHeader header = true ∧ P.validateHeaderAgainstParent header parent = true := by
  unfold prepareExecution at h
  split at h
  · cases h
  · rename_i parent hparent
    split_ifs at h with hvalid
    simp only [Bool.not_eq_true', Bool.not_eq_false, Bool.and_eq_true] at hvalid
    exact ⟨parent, hparent, hvalid⟩

/-- From the leader's accounting and database the follower seals the leader's block. -/
theorem LeaderRun.rebuild (laws : PlatformLaws P) (run : LeaderRun P config)
    (hgas : run.SameGasLimit) {params : Option (List UInt8)} {minBaseFee : Option Nat}
    (hextra : (run.followerCtx params minBaseFee).extraData P = some run.payload.header.extraData)
    {info : ExecutionInfo}
    (htransactions : info.executedTransactions = run.exec.info.executedTransactions)
    (hreceipts : info.receipts = run.exec.info.receipts)
    (hused : info.cumulativeGasUsed = run.exec.info.cumulativeGasUsed)
    (hblob : info.optionalBlobFields =
      some (run.payload.header.excessBlobGas, run.payload.header.blobGasUsed)) :
    ∃ flashblock, buildBlock P (run.followerCtx params minBaseFee) info run.exec.db none true =
      .ok (⟨run.payload.header, P.blockHash run.payload.header, info.executedTransactions,
        info.executedSenders, info.totalFees, info.receipts⟩, flashblock, none) := by
  obtain ⟨root, withdrawals, fields, data, hnumber, hroot, hw, hd, hbeacon, hheader, -⟩ :=
    run.payload_eq
  have hlimit' : (run.followerCtx params minBaseFee).blockGasLimit P = run.ctx.blockGasLimit P :=
    (run.blockGasLimit_eq laws hgas).symm
  have hforks : (run.followerCtx params minBaseFee).chainSpec = run.ctx.chainSpec ∧
      (run.followerCtx params minBaseFee).timestamp = run.ctx.timestamp :=
    ⟨run.chainSpec_eq, run.timestamp_eq⟩
  have hbuild : buildHeader P (run.followerCtx params minBaseFee) info run.exec.db true =
      .ok run.payload.header := by
    refine buildHeader_eq_ok.mpr ⟨?_, root, withdrawals,
      (run.payload.header.excessBlobGas, run.payload.header.blobGasUsed),
      run.payload.header.extraData, hroot, ?_, by simp [blobFields, hblob], hextra, ?_⟩
    · show P.number run.ctx.evmEnv = run.inputs.parent.number + 1
      rw [← run.parent_eq, hnumber]
    · rw [← hw]
      unfold withdrawalsRoot BuilderCtx.isIsthmusActive BuilderCtx.isCanyonActive
      rw [hforks.1, hforks.2]
    · unfold assembleHeader BuilderCtx.isIsthmusActive
      rw [hforks.1, hforks.2, hlimit', htransactions, hreceipts, hused]
      simp only [LeaderRun.followerCtx, HandlerContext.intoFlashblocksBuilderCtx,
        Header.payloadAttributes, ← run.parent_eq]
      rw [hheader]
      rfl
  obtain ⟨beaconRoot, hbeacon⟩ := Option.isSome_iff_exists.mp hbeacon
  have hbeacon' : (run.followerCtx params minBaseFee).attributes.parentBeaconBlockRoot =
      some beaconRoot := by
    show run.payload.header.parentBeaconBlockRoot = some beaconRoot
    rw [hheader]
    exact hbeacon
  exact ⟨_, buildBlock_eq_ok.mpr ⟨_, beaconRoot, hbuild, hbeacon', rfl, rfl, rfl⟩⟩

/-- The accounting of the follower before the first transaction. -/
def LeaderRun.followerStart (run : LeaderRun P config) : ExecutionInfo :=
  { ExecutionInfo.new with
    optionalBlobFields := some (run.payload.header.excessBlobGas, run.payload.header.blobGasUsed) }

/-- The accounting of the follower after the last transaction. -/
def LeaderRun.followerEnd (run : LeaderRun P config) : ExecutionInfo :=
  { run.followerStart.replay run.ctx run.exec.history with
    daFootprintScalar :=
      if config.chainSpec.isJovianActive run.payload.header.timestamp then
        some (P.daFootprintGasScalar run.exec.db)
      else none }

theorem LeaderRun.transactions_eq (run : LeaderRun P config) :
    run.payload.transactions = run.exec.history.map (fun c => c.tx.tx) := by
  obtain ⟨_, _, _, _, -, -, -, -, -, -, hpayload⟩ := run.payload_eq
  obtain ⟨db, -, hext⟩ := run.extends
  rw [hpayload]
  exact hext.transactions

theorem LeaderRun.gasUsed_eq (run : LeaderRun P config) :
    run.payload.header.gasUsed = gasOf run.exec.history := by
  obtain ⟨_, _, _, _, -, -, -, -, -, hheader, -⟩ := run.payload_eq
  obtain ⟨db, -, hext⟩ := run.extends
  rw [hheader]
  exact hext.gas.trans (Nat.zero_add _)

theorem LeaderRun.receipts_eq (run : LeaderRun P config) :
    run.payload.receipts = receiptsFrom run.ctx 0 run.exec.history := by
  obtain ⟨_, _, _, _, -, -, -, -, -, -, hpayload⟩ := run.payload_eq
  obtain ⟨db, -, hext⟩ := run.extends
  rw [hpayload]
  exact hext.receipts

theorem LeaderRun.fees_eq (run : LeaderRun P config) :
    run.payload.fees = feesOf P run.ctx run.exec.history := by
  obtain ⟨_, _, _, _, -, -, -, -, -, -, hpayload⟩ := run.payload_eq
  obtain ⟨db, -, hext⟩ := run.extends
  rw [hpayload]
  exact hext.fees.trans (Nat.zero_add _)

/-- What the follower computes when nothing stops it: the leader's block, without its fees. -/
theorem LeaderRun.executeBuiltPayload_eq (laws : PlatformLaws P) (run : LeaderRun P config)
    {client : Client Db}
    (hparent : client.headerById run.inputs.parentHash = some run.inputs.parent)
    (hstate : client.stateByBlockHash run.inputs.parentHash = some run.inputs.db)
    (hheader : P.validateHeader run.payload.header = true)
    (hagainst : P.validateHeaderAgainstParent run.payload.header run.inputs.parent = true)
    (hgas : run.SameGasLimit) (hused : run.payload.header.gasUsed < 2 ^ 64)
    (hloops : ∀ c ∈ run.exec.history,
      c.gasless = false ∧ ∀ limit ∈ run.ctx.maxGasPerTxn, c.result.gasUsed ≤ limit) :
    ∃ senders flashblock,
      executeBuiltPayload P (HandlerContext.new config) client run.payload =
        .ok (⟨run.payload.header, run.payload.blockHash, run.payload.transactions, senders, 0,
          run.payload.receipts⟩, flashblock) := by
  obtain ⟨db, hdb, hext⟩ := run.extends
  obtain ⟨_, _, _, _, -, -, -, -, -, -, hpayload⟩ := run.payload_eq
  obtain ⟨params, minBaseFee, hextra, hprepare⟩ :=
    run.prepareExecution_eq laws hparent hstate hheader hagainst hgas hdb
  have hfold := executeTransactions_replays run.chainSpec_eq hused run.followerStart
    hext.executed (run.maxGasPerTxn_eq ▸ hloops)
    (by rw [run.gasUsed_eq]; exact (Nat.zero_add _).le)
  rw [← run.transactions_eq, ← run.timestamp_eq, ← hext.db] at hfold
  have hexec : executeTransactions P (HandlerContext.new config)
      { ExecutionInfo.new with
        optionalBlobFields :=
          some (run.payload.header.excessBlobGas, run.payload.header.blobGasUsed) }
      db run.payload.transactions run.payload.header.gasUsed run.payload.header.timestamp
      (run.followerCtx params minBaseFee).evmEnv =
      .ok (run.followerEnd, run.exec.db) := by
    unfold executeTransactions
    have henv : (run.followerCtx params minBaseFee).evmEnv = run.ctx.evmEnv := rfl
    rw [henv, ← LeaderRun.followerStart, hfold]
    rfl
  have htransactions : run.followerEnd.executedTransactions =
      run.exec.info.executedTransactions := hext.transactions.symm
  have hreceipts : run.followerEnd.receipts = run.exec.info.receipts := hext.receipts.symm
  have hcumulative : run.followerEnd.cumulativeGasUsed = run.exec.info.cumulativeGasUsed :=
    hext.gas.symm
  obtain ⟨flashblock, hbuild⟩ := run.rebuild laws hgas hextra htransactions hreceipts hcumulative
    rfl
  have hhash : run.payload.blockHash = P.blockHash run.payload.header := by rw [hpayload]
  refine ⟨run.followerEnd.executedSenders, flashblock, ?_⟩
  simp only [executeBuiltPayload, hprepare, hexec, hbuild, hhash, ne_eq, not_true, if_false]
  have hbody : run.payload.transactions = run.followerEnd.executedTransactions :=
    run.transactions_eq
  have houtput : run.payload.receipts = run.followerEnd.receipts := run.receipts_eq
  rw [hbody, houtput]
  rfl

/-- A payload that the follower accepts passed validation, its loop ran to the end, and the block
    that was built from it has the hash of the payload. -/
theorem executeBuiltPayload_accepted {hctx : HandlerContext} {client : Client Db}
    {payload built : BuiltPayload} {flashblock : Flashblock}
    (h : executeBuiltPayload P hctx client payload = .ok (built, flashblock)) :
    ∃ ctx db s, prepareExecution P hctx client payload.header = .ok (ctx, db) ∧
      payload.transactions.foldlM (executeTransactionsStep P hctx ctx.evmEnv
        payload.header.timestamp payload.header.gasUsed)
        ({ ExecutionInfo.new with
          optionalBlobFields :=
            some (payload.header.excessBlobGas, payload.header.blobGasUsed) }, db) = .ok s ∧
      ∃ scalar, buildHeader P ctx { s.1 with daFootprintScalar := scalar } s.2 true =
          .ok built.header ∧ P.blockHash built.header = payload.blockHash := by
  unfold executeBuiltPayload at h
  dsimp only at h
  split at h
  · cases h
  · rename_i ctx db hprepare
    split at h
    · cases h
    · rename_i info db' hexec
      unfold executeTransactions at hexec
      cases hfold : payload.transactions.foldlM (executeTransactionsStep P hctx ctx.evmEnv
          payload.header.timestamp payload.header.gasUsed)
          ({ ExecutionInfo.new with
            optionalBlobFields :=
              some (payload.header.excessBlobGas, payload.header.blobGasUsed) }, db) with
      | error e =>
        rw [hfold] at hexec
        cases hexec
      | ok s =>
        rw [hfold] at hexec
        cases hexec
        split at h
        · cases h
        · rename_i built' flashblock' _ hbuild
          split_ifs at h with hhash
          cases h
          obtain ⟨header, beaconRoot, hheader, -, rfl, -, -⟩ := buildBlock_eq_ok.mp hbuild
          exact ⟨ctx, db, s, hprepare, hfold, _, hheader, not_not.mp hhash⟩

/-- The fees of a list are zero if and only if each transaction adds nothing. -/
theorem feesOf_eq_zero {ctx : BuilderCtx Env} {cs : List (Committed Changes)} :
    feesOf P ctx cs = 0 ↔ ∀ c ∈ cs, feeOf P ctx c = 0 := by
  induction cs with
  | nil => simp [feesOf]
  | cons c cs ih =>
    unfold feesOf at ih
    simp [feesOf, ih]

/-- **Agreement of leader and follower**: a run that is ready for the follower is agreed upon.
    Conversely, where there is a base fee to pay and the gas limit is the environment's, a run that
    is agreed upon was ready. -/
theorem executeBuiltPayload_agrees (laws : PlatformLaws P) (run : LeaderRun P config)
    (client : Client Db)
    (hparent : client.headerById run.inputs.parentHash = some run.inputs.parent)
    (hstate : client.stateByBlockHash run.inputs.parentHash = some run.inputs.db) :
    (run.FollowerReady →
      Agrees run.payload (executeBuiltPayload P (HandlerContext.new config) client run.payload)) ∧
    (0 < P.baseFee run.ctx.evmEnv → run.SameGasLimit →
      Agrees run.payload (executeBuiltPayload P (HandlerContext.new config) client run.payload) →
      run.FollowerReady) := by
  refine ⟨fun ready => ?_, fun hbase hgas hagrees => ?_⟩
  · obtain ⟨senders, flashblock, houtcome⟩ := run.executeBuiltPayload_eq laws hparent hstate
      ready.header ready.parent ready.gasLimit ready.gasUsed
      (fun c hc => ⟨(ready.transactions c hc).unflagged, (ready.transactions c hc).capped⟩)
    refine ⟨_, flashblock, houtcome, rfl, rfl, ?_⟩
    rw [run.fees_eq, feesOf_eq_zero.mpr (fun c hc => (ready.transactions c hc).free)]
  · obtain ⟨built, flashblock, houtcome, -, -, hfees⟩ := hagrees
    obtain ⟨ctx', db', s, hprepare', hfold, -⟩ := executeBuiltPayload_accepted houtcome
    obtain ⟨parent, hparent', hheader, hagainst⟩ := prepareExecution_validated hprepare'
    rw [run.parentHash_eq, hparent, Option.some.injEq] at hparent'
    subst hparent'
    obtain ⟨db, hdb, hext⟩ := run.extends
    obtain ⟨params, minBaseFee, -, hprepare⟩ :=
      run.prepareExecution_eq laws hparent hstate hheader hagainst hgas hdb
    rw [hprepare', Except.ok.injEq, Prod.mk.injEq] at hprepare
    obtain ⟨rfl, rfl⟩ := hprepare
    rw [run.transactions_eq, run.timestamp_eq] at hfold
    obtain ⟨hloops, hused, -⟩ := executeTransactions_accepted laws run.chainSpec_eq hext.executed
      (fun _ _ _ => hbase) hfold (by simp [ExecutionInfo.new])
    rw [run.maxGasPerTxn_eq] at hloops
    have hused' : run.payload.header.gasUsed < 2 ^ 64 := by
      rw [run.gasUsed_eq]
      simpa [ExecutionInfo.new] using hused
    obtain ⟨senders, flashblock', hfinal⟩ := run.executeBuiltPayload_eq laws hparent hstate
      hheader hagainst hgas hused' hloops
    rw [hfinal, Except.ok.injEq, Prod.mk.injEq] at houtcome
    rw [← houtcome.1, run.fees_eq] at hfees
    have hfree := feesOf_eq_zero.mp hfees.symm
    exact ⟨hheader, hagainst, hgas, hused',
      fun c hc => ⟨(hloops c hc).1, (hloops c hc).2, hfree c hc⟩⟩

end

/-! ## Two runs -/

namespace Sample

/-- One round with a single transfer, and then the block is sealed. -/
def inputs (maxFeePerGas : Nat) : LeaderInputs Nat where
  parent := parent
  parentHash := 9
  attributes := attributes
  db := 0
  phases := [.best ⟨30000000, none, none⟩
    [(transfer maxFeePerGas, ⟨false, .execute, fun _ => .allow⟩)]]
  flashblocks := FlashblocksState.new 5 false
  calculateStateRoot := true

def client : Client Nat := ⟨fun _ => some parent, fun _ => some 0⟩

/-- The transfer covers the base fee. -/
def pricedRun : LeaderRun platform config where
  inputs := inputs 7
  ctx := _
  start := _
  payload := _
  made := rfl
  started := rfl
  handed := rfl

/-- The transfer pays nothing, and the contract approves it. -/
def gaslessRun : LeaderRun platform config where
  inputs := inputs 0
  ctx := _
  start := _
  payload := _
  made := rfl
  started := rfl
  handed := rfl

theorem pricedRun_history : pricedRun.exec.history =
    [⟨.sequencer, ⟨deposit, 100, rfl⟩, false, some 0, ⟨21000, true, [], []⟩, 1, 0⟩,
      ⟨.pool, (transfer 7).tx, false, none, ⟨21000, true, [], []⟩, 2, 100⟩] := rfl

theorem pricedRun_ready : pricedRun.FollowerReady where
  header := by decide
  parent := by decide
  gasLimit := by intro limit h; cases h
  gasUsed := by decide
  transactions := by
    intro c hc
    rw [pricedRun_history, List.mem_cons, List.mem_singleton] at hc
    rcases hc with rfl | rfl
    · exact ⟨rfl, by decide, rfl⟩
    · exact ⟨rfl, by decide, rfl⟩

/-- A deposit and a priced transfer are agreed upon. -/
theorem pricedRun_agrees : pricedRun.FollowerReady ∧ 0 < platform.baseFee pricedRun.ctx.evmEnv ∧
    Agrees pricedRun.payload
      (executeBuiltPayload platform (HandlerContext.new config) client pricedRun.payload) :=
  ⟨pricedRun_ready, by decide,
    (executeBuiltPayload_agrees platform_laws pricedRun client rfl rfl).1 pricedRun_ready⟩

/-- **A gasless transfer is not**: the leader commits it, and the follower rejects its block. -/
theorem gaslessRun_not_agrees :
    executeBuiltPayload platform (HandlerContext.new config) client gaslessRun.payload =
        .error .executionFailed ∧
      ¬ Agrees gaslessRun.payload
        (executeBuiltPayload platform (HandlerContext.new config) client gaslessRun.payload) := by
  have hrejected : executeBuiltPayload platform (HandlerContext.new config) client
      gaslessRun.payload = .error .executionFailed := rfl
  refine ⟨hrejected, ?_⟩
  rintro ⟨built, flashblock, haccepted, -⟩
  rw [hrejected] at haccepted
  cases haccepted

end Sample

end XLayerReth.Builder
