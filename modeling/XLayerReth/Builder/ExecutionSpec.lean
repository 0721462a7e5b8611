import XLayerReth.Lib.Loops
import XLayerReth.Builder.Execution

/-!
# What executing transactions does to a block

Every path of the leader only appends: an accounting with its database is reached from an earlier
one by transactions that the EVM executed, each on the state its predecessors left.

* `Committed.ExecutedAt`, `ExecutedFrom` — what is known of an executed transaction, and of a list.
* `Exec.Extends` — the accounting, receipts, fees and database after such a list.
* `Exec.Reaches` — some list leads from one to the other; each path is shown to be such a step.
-/

set_option autoImplicit false

namespace XLayerReth.Builder

open RcsFilter
open XLayerReth.Lib

section

variable {Db Changes Env : Type} (P : Platform Db Changes Env) (ctx : BuilderCtx Env)

/-! ## Executed transactions -/

/-- The EVM executed the transaction on `db`; only an unpriced one that is no deposit is
    gasless. -/
structure Committed.ExecutedAt (c : Committed Changes) (db : Db) : Prop where
  transact : P.transact ctx.evmEnv db c.tx.tx c.gasless = .ok (c.result, c.changes)
  unpriced : c.gasless = true → c.tx.tx.isDeposit = false ∧ c.tx.tx.maxFeePerGas = 0
  nonce : depositorNonce P ctx.isRegolithActive db c.tx = some c.depositNonce

/-- Each transaction of the list was executed on the state its predecessors left. -/
def ExecutedFrom : Db → List (Committed Changes) → Prop
  | _, [] => True
  | db, c :: cs => c.ExecutedAt P ctx db ∧ ExecutedFrom (P.commit db c.changes) cs

/-- The database after the list. -/
def commitAll (db : Db) (cs : List (Committed Changes)) : Db :=
  cs.foldl (fun db c => P.commit db c.changes) db

/-- The receipts of the list, after `gas` was used before it. -/
def receiptsFrom : Nat → List (Committed Changes) → List Receipt
  | _, [] => []
  | gas, c :: cs =>
    buildReceipt ctx.isCanyonActive c.tx.tx.txType c.result (gas + c.result.gasUsed)
      c.depositNonce :: receiptsFrom (gas + c.result.gasUsed) cs

def gasOf (cs : List (Committed Changes)) : Nat := (cs.map (fun c => c.result.gasUsed)).sum

/-- What a transaction adds to the fees: nothing if the sequencer or the builder sent it. -/
def feeOf (c : Committed Changes) : Nat :=
  match c.source with
  | .pool | .cached => minerFee P ctx c.tx.tx c.result.gasUsed
  | .sequencer | .builder => 0

def feesOf (cs : List (Committed Changes)) : Nat := (cs.map (feeOf P ctx)).sum

variable {P ctx}

theorem executedFrom_append {cs₁ cs₂ : List (Committed Changes)} : ∀ {db : Db},
    ExecutedFrom P ctx db (cs₁ ++ cs₂) ↔
      ExecutedFrom P ctx db cs₁ ∧ ExecutedFrom P ctx (commitAll P db cs₁) cs₂ := by
  induction cs₁ with
  | nil => simp [ExecutedFrom, commitAll]
  | cons c cs ih =>
    intro db
    simp only [List.cons_append, ExecutedFrom, ih, and_assoc, commitAll, List.foldl_cons]

theorem receiptsFrom_append {cs₁ cs₂ : List (Committed Changes)} : ∀ {gas : Nat},
    receiptsFrom ctx gas (cs₁ ++ cs₂) =
      receiptsFrom ctx gas cs₁ ++ receiptsFrom ctx (gas + gasOf cs₁) cs₂ := by
  induction cs₁ with
  | nil => simp [receiptsFrom, gasOf]
  | cons c cs ih =>
    intro gas
    simp only [List.cons_append, receiptsFrom, ih, gasOf, List.map_cons, List.sum_cons,
      Nat.add_assoc]

@[simp]
theorem gasOf_append (cs₁ cs₂ : List (Committed Changes)) :
    gasOf (cs₁ ++ cs₂) = gasOf cs₁ + gasOf cs₂ := by
  simp [gasOf]

@[simp]
theorem gasOf_cons (c : Committed Changes) (cs : List (Committed Changes)) :
    gasOf (c :: cs) = c.result.gasUsed + gasOf cs := by
  simp [gasOf]

@[simp]
theorem feesOf_append (cs₁ cs₂ : List (Committed Changes)) :
    feesOf P ctx (cs₁ ++ cs₂) = feesOf P ctx cs₁ + feesOf P ctx cs₂ := by
  simp [feesOf]

/-! ## Extending a block -/

variable (P ctx) in
/-- `x'` is `x` after the EVM executed `cs`. -/
structure Exec.Extends (x : Exec Db Changes) (cs : List (Committed Changes))
    (x' : Exec Db Changes) : Prop where
  history : x'.history = x.history ++ cs
  executed : ExecutedFrom P ctx x.db cs
  db : x'.db = commitAll P x.db cs
  transactions : x'.info.executedTransactions =
    x.info.executedTransactions ++ cs.map (fun c => c.tx.tx)
  senders : x'.info.executedSenders = x.info.executedSenders ++ cs.map (fun c => c.tx.signer)
  gas : x'.info.cumulativeGasUsed = x.info.cumulativeGasUsed + gasOf cs
  receipts : x'.info.receipts = x.info.receipts ++ receiptsFrom ctx x.info.cumulativeGasUsed cs
  fees : x'.info.totalFees = x.info.totalFees + feesOf P ctx cs
  blobFields : x'.info.optionalBlobFields = x.info.optionalBlobFields

variable {x x' x'' : Exec Db Changes} {c : Committed Changes} {cs cs' : List (Committed Changes)}

theorem Exec.Extends.refl (x : Exec Db Changes) : x.Extends P ctx [] x where
  history := by simp
  executed := trivial
  db := rfl
  transactions := by simp
  senders := by simp
  gas := by simp [gasOf]
  receipts := by simp [receiptsFrom]
  fees := by simp [feesOf]
  blobFields := rfl

theorem Exec.Extends.trans (h : x.Extends P ctx cs x') (h' : x'.Extends P ctx cs' x'') :
    x.Extends P ctx (cs ++ cs') x'' where
  history := by rw [h'.history, h.history, List.append_assoc]
  executed := executedFrom_append.mpr ⟨h.executed, h.db ▸ h'.executed⟩
  db := by rw [h'.db, h.db, commitAll, commitAll, commitAll, List.foldl_append]
  transactions := by rw [h'.transactions, h.transactions, List.map_append, List.append_assoc]
  senders := by rw [h'.senders, h.senders, List.map_append, List.append_assoc]
  gas := by rw [h'.gas, h.gas, gasOf_append, Nat.add_assoc]
  receipts := by
    rw [h'.receipts, h.receipts, h.gas, receiptsFrom_append, List.append_assoc]
  fees := by rw [h'.fees, h.fees, feesOf_append, Nat.add_assoc]
  blobFields := h'.blobFields.trans h.blobFields

/-- The part of the accounting that follows from the executed transactions. -/
def ExecutionInfo.outcome (info : ExecutionInfo) :
    List Tx × List Address × List Receipt × Nat × Nat × Option (Option Nat × Option Nat) :=
  (info.executedTransactions, info.executedSenders, info.receipts, info.cumulativeGasUsed,
    info.totalFees, info.optionalBlobFields)

/-- The budgets and the scalar may change without a transaction. -/
theorem Exec.Extends.of_outcome (h : x.Extends P ctx cs x') {info : ExecutionInfo}
    (hinfo : info.outcome = x'.info.outcome) : x.Extends P ctx cs { x' with info := info } := by
  simp only [ExecutionInfo.outcome, Prod.mk.injEq] at hinfo
  obtain ⟨htransactions, hsenders, hreceipts, hgas, hfees, hblob⟩ := hinfo
  exact
    { history := h.history
      executed := h.executed
      db := h.db
      transactions := htransactions.trans h.transactions
      senders := hsenders.trans h.senders
      gas := hgas.trans h.gas
      receipts := hreceipts.trans h.receipts
      fees := hfees.trans h.fees
      blobFields := hblob.trans h.blobFields }

/-- A transaction that pays no fee. -/
theorem Exec.extends_append (h : c.ExecutedAt P ctx x.db) (hfee : feeOf P ctx c = 0) :
    x.Extends P ctx [c] (x.append P ctx c) where
  history := rfl
  executed := ⟨h, trivial⟩
  db := rfl
  transactions := rfl
  senders := rfl
  gas := by simp [Exec.append, gasOf]
  receipts := rfl
  fees := by simp [Exec.append, feesOf, hfee]
  blobFields := rfl

/-- A transaction that pays a fee. -/
theorem Exec.extends_appendPriced (h : c.ExecutedAt P ctx x.db)
    (hfee : feeOf P ctx c = minerFee P ctx c.tx.tx c.result.gasUsed) :
    x.Extends P ctx [c] (x.appendPriced P ctx c) where
  history := rfl
  executed := ⟨h, trivial⟩
  db := rfl
  transactions := rfl
  senders := rfl
  gas := by simp [Exec.appendPriced, Exec.append, gasOf]
  receipts := rfl
  fees := by simp [Exec.appendPriced, feesOf, hfee]
  blobFields := rfl

variable (P ctx) in
/-- Some list of executed transactions leads from `x` to `x'`. -/
def Exec.Reaches (x x' : Exec Db Changes) : Prop := ∃ cs, x.Extends P ctx cs x'

theorem Exec.Reaches.refl (x : Exec Db Changes) : x.Reaches P ctx x := ⟨[], .refl x⟩

theorem Exec.Reaches.trans : x.Reaches P ctx x' → x'.Reaches P ctx x'' → x.Reaches P ctx x''
  | ⟨_, h⟩, ⟨_, h'⟩ => ⟨_, h.trans h'⟩

/-- Nothing that was executed is taken back. -/
theorem Exec.Reaches.prefix_transactions (h : x.Reaches P ctx x') :
    x.info.executedTransactions <+: x'.info.executedTransactions := by
  obtain ⟨cs, h⟩ := h
  rw [h.transactions]
  exact List.prefix_append _ _

/-! ## Each path extends the block -/

theorem isGasless_unpriced {db : Db} {tx : Tx} (h : isGasless P ctx db tx = .ok true) :
    tx.isDeposit = false ∧ tx.maxFeePerGas = 0 := by
  unfold isGasless at h
  split at h
  · cases h
  · rename_i hpriced
    simpa [not_or] using hpriced

/-- An answer of `transact_maybe_gasless` is the EVM's, with the flag it chose. -/
theorem transactMaybeGasless_answer {db : Db} {inspector : Option RcsInspector} {tx : Tx}
    {result : ExecutionResult} {changes : Changes} {gasless : Bool} {capture : CaptureOutcome}
    (h : (transactMaybeGasless P ctx db inspector tx).1 = .ok (result, changes, gasless, capture)) :
    isGasless P ctx db tx = .ok gasless ∧
      P.transact ctx.evmEnv db tx gasless = .ok (result, changes) := by
  unfold transactMaybeGasless at h
  cases hg : isGasless P ctx db tx with
  | error e => simp [hg] at h
  | ok flag =>
    cases ht : P.transact ctx.evmEnv db tx flag with
    | error e => simp [hg, ht] at h
    | ok answer =>
      simp only [hg, ht, Except.ok.injEq, Prod.mk.injEq] at h
      obtain ⟨rfl, rfl, rfl, -⟩ := h
      exact ⟨rfl, ht⟩

/-- A transaction that is executed without a price has none. -/
theorem transactMaybeGasless_ok {db : Db} {inspector : Option RcsInspector} {tx : Tx}
    {result : ExecutionResult} {changes : Changes} {gasless : Bool} {capture : CaptureOutcome}
    (h : (transactMaybeGasless P ctx db inspector tx).1 = .ok (result, changes, gasless, capture)) :
    P.transact ctx.evmEnv db tx gasless = .ok (result, changes) ∧
      (gasless = true → tx.isDeposit = false ∧ tx.maxFeePerGas = 0) := by
  obtain ⟨hgasless, ht⟩ := transactMaybeGasless_answer h
  exact ⟨ht, fun hflag => isGasless_unpriced (hflag ▸ hgasless)⟩

/-- Only a deposit has a depositor nonce. -/
theorem depositorNonce_of_not_deposit {regolith : Bool} {db : Db} {r : Recovered}
    (h : r.tx.isDeposit = false) : depositorNonce P regolith db r = some none := by
  simp [depositorNonce, h]

/-- A transaction of the sequencer is skipped, or executed and appended. -/
theorem sequencerStep_cases {tx : Tx} (h : sequencerStep P ctx x tx = .ok x') :
    x' = x ∨ ∃ c : Committed Changes, c.source = .sequencer ∧ c.tx.tx = tx ∧
      c.daSize = sequencerDaSize P tx ∧ c.ExecutedAt P ctx x.db ∧ x' = x.append P ctx c := by
  unfold sequencerStep at h
  split at h
  · cases h
  · split at h
    · cases h
    · rename_i signer hsigner
      dsimp only at h
      cases hn : depositorNonce P ctx.isRegolithActive x.db ⟨tx, signer, hsigner⟩ with
      | none => simp [hn] at h
      | some depositNonce =>
        simp only [hn] at h
        split at h
        · cases h
          exact .inl rfl
        · cases h
        · rename_i result changes gasless _ ht
          cases h
          obtain ⟨htransact, hunpriced⟩ := transactMaybeGasless_ok ht
          exact .inr ⟨_, rfl, rfl, rfl, ⟨htransact, hunpriced, hn⟩, rfl⟩

/-- **Rule for the pre-steps**: what holds after the pre-execution changes, is kept by each executed
    transaction of the sequencer and does not depend on the footprint scalar, holds at the end. -/
theorem executePreSteps_rule (motive : Exec Db Changes → Prop)
    (step : ∀ (x : Exec Db Changes) (c : Committed Changes), motive x → c.source = .sequencer →
      c.daSize = sequencerDaSize P c.tx.tx → c.ExecutedAt P ctx x.db → motive (x.append P ctx c))
    (scalar : ∀ (x : Exec Db Changes) (scalar : Option Nat), motive x →
      motive { x with info := { x.info with daFootprintScalar := scalar } })
    {db db₁ : Db} (hdb : P.applyPreExecutionChanges ctx.parent ctx.blockEnvAttributes db = some db₁)
    (h : executePreSteps P ctx db = .ok x) (hstart : motive ⟨ExecutionInfo.new, db₁, []⟩) :
    motive x := by
  simp only [executePreSteps, hdb, executeSequencerTransactions] at h
  cases hfold : ctx.attributes.transactions.foldlM (sequencerStep P ctx)
      ⟨ExecutionInfo.new, db₁, []⟩ with
  | error e => simp [hfold, Except.map] at h
  | ok x₁ =>
    simp only [hfold, Except.map, Except.ok.injEq] at h
    subst h
    apply scalar
    refine foldlM_ok (fun _ => motive) (fun _ tx x x' hx hstep => ?_) [] hstart hfold
    rcases sequencerStep_cases hstep with rfl | ⟨c, hsource, rfl, hsize, hat, rfl⟩
    · exact hx
    · exact step x c hx hsource hsize hat

theorem executePreSteps_changes {db : Db} (h : executePreSteps P ctx db = .ok x) :
    ∃ db₁, P.applyPreExecutionChanges ctx.parent ctx.blockEnvAttributes db = some db₁ := by
  unfold executePreSteps at h
  split at h
  · cases h
  · rename_i db₁ hdb
    exact ⟨db₁, hdb⟩

theorem executePreSteps_reaches {db : Db} (h : executePreSteps P ctx db = .ok x) :
    ∃ db₁, P.applyPreExecutionChanges ctx.parent ctx.blockEnvAttributes db = some db₁ ∧
      (⟨ExecutionInfo.new, db₁, []⟩ : Exec Db Changes).Reaches P ctx x := by
  obtain ⟨db₁, hdb⟩ := executePreSteps_changes h
  refine ⟨db₁, hdb, executePreSteps_rule
    (fun x => (⟨ExecutionInfo.new, db₁, []⟩ : Exec Db Changes).Reaches P ctx x) ?_ ?_ hdb h
    (.refl _)⟩
  · intro x c hx hsource _ hat
    exact hx.trans ⟨_, Exec.extends_append hat (by simp [feeOf, hsource])⟩
  · rintro x scalar ⟨cs, hcs⟩
    exact ⟨cs, hcs.of_outcome rfl⟩

/-- What a candidate has passed when it is executed: the limits, its type and, once the gasless
    budget is spent, its price. -/
structure PassesChecks (ctx : BuilderCtx Env) (limits : TransactionLimits) (info : ExecutionInfo)
    (cand : Candidate) : Prop where
  fits : info.isTxOverLimits cand.estimatedDaSize limits.blockGas ctx.maxDaTxSize limits.blockDa
    cand.tx.tx.gasLimit info.daFootprintScalar limits.blockDaFootprint = .ok ()
  notBlob : cand.tx.tx.isEip4844 = false
  notDeposit : cand.tx.tx.isDeposit = false
  priced : info.gaslessBudgetExhausted = true → cand.tx.tx.maxFeePerGas ≠ 0

variable (P ctx) in
/-- **What happens before the execution**: the candidate passes the checks, it is turned away and
    only the marks change, or the round is cancelled. -/
theorem beforeExecution_cases (limits : TransactionLimits) (s : LoopState Db Changes)
    (cand : Candidate) (v : Verdicts) :
    (beforeExecution P ctx limits s cand v = none ∧ PassesChecks ctx limits s.exec.info cand) ∨
    (∃ s', beforeExecution P ctx limits s cand v = some (.ok s') ∧ s'.exec = s.exec ∧
      s'.inspector = s.inspector) ∨
    beforeExecution P ctx limits s cand v = some (.error .cancelled) := by
  unfold beforeExecution
  dsimp only
  by_cases hconditional : (!cand.conditionalMatches) = true
  · rw [if_pos hconditional]
    exact .inr (.inl ⟨_, rfl, rfl, rfl⟩)
  rw [if_neg hconditional]
  split
  · exact .inr (.inl ⟨_, rfl, rfl, rfl⟩)
  cases hfits : s.exec.info.isTxOverLimits cand.estimatedDaSize limits.blockGas ctx.maxDaTxSize
      limits.blockDa cand.tx.tx.gasLimit s.exec.info.daFootprintScalar limits.blockDaFootprint with
  | error e => exact .inr (.inl ⟨_, rfl, rfl, rfl⟩)
  | ok _ =>
    dsimp only
    by_cases htype : (cand.tx.tx.isEip4844 || cand.tx.tx.isDeposit) = true
    · rw [if_pos htype]
      exact .inr (.inl ⟨_, rfl, rfl, rfl⟩)
    rw [if_neg htype]
    by_cases hcancelled : v.cancelled = true
    · rw [if_pos hcancelled]
      exact .inr (.inr rfl)
    rw [if_neg hcancelled]
    split
    · exact .inr (.inl ⟨_, rfl, rfl, rfl⟩)
    split
    · exact .inr (.inl ⟨_, rfl, rfl, rfl⟩)
    split
    · exact .inr (.inl ⟨_, rfl, rfl, rfl⟩)
    · rename_i hbudget
      simp only [Bool.or_eq_true, not_or, Bool.not_eq_true] at htype
      refine .inl ⟨rfl, hfits, htype.1, htype.2, ?_⟩
      intro hspent hfree
      exact hbudget (by simp [hspent, hfree])

theorem beforeExecution_passes {limits : TransactionLimits} {s : LoopState Db Changes}
    {cand : Candidate} {v : Verdicts} (h : beforeExecution P ctx limits s cand v = none) :
    PassesChecks ctx limits s.exec.info cand := by
  rcases beforeExecution_cases P ctx limits s cand v with ⟨-, hpasses⟩ | ⟨s', hs, -⟩ | hs
  · exact hpasses
  · rw [h] at hs
    cases hs
  · rw [h] at hs
    cases hs

theorem beforeExecution_turnsAway {limits : TransactionLimits} {s s' : LoopState Db Changes}
    {cand : Candidate} {v : Verdicts} (h : beforeExecution P ctx limits s cand v = some (.ok s')) :
    s'.exec = s.exec ∧ s'.inspector = s.inspector := by
  rcases beforeExecution_cases P ctx limits s cand v with ⟨hs, -⟩ | ⟨s₁, hs, hsame⟩ | hs
  · rw [h] at hs
    cases hs
  · rw [h] at hs
    cases hs
    exact hsame
  · rw [h] at hs
    cases hs

/-- After a candidate was executed it is in the block, or the block is as before. -/
theorem afterExecution_reaches {s : LoopState Db Changes} {cand : Candidate} {v : Verdicts}
    {result : ExecutionResult} {changes : Changes} {gasless : Bool} {capture : CaptureOutcome}
    (hdeposit : cand.tx.tx.isDeposit = false)
    (ht : P.transact ctx.evmEnv s.exec.db cand.tx.tx gasless = .ok (result, changes))
    (hu : gasless = true → cand.tx.tx.isDeposit = false ∧ cand.tx.tx.maxFeePerGas = 0) :
    s.exec.Reaches P ctx (afterExecution P ctx s cand v result changes gasless capture).exec := by
  have accepted : s.exec.Reaches P ctx (s.exec.appendPool P ctx
      ⟨.pool, cand.tx, gasless, none, result, changes, cand.estimatedDaSize⟩) := by
    have hc : Committed.ExecutedAt P ctx
        ⟨.pool, cand.tx, gasless, none, result, changes, cand.estimatedDaSize⟩ s.exec.db :=
      ⟨ht, hu, depositorNonce_of_not_deposit hdeposit⟩
    exact ⟨_, (Exec.extends_appendPriced hc rfl).of_outcome rfl⟩
  have refused : s.exec.Reaches P ctx { s.exec with
      info := { s.exec.info with gaslessBudgetExhausted := true } } :=
    ⟨_, (Exec.Extends.refl s.exec).of_outcome rfl⟩
  unfold afterExecution
  dsimp only
  split_ifs
  · exact .refl _
  · exact refused
  · exact .refl _
  · cases screenDecision v capture with
    | allow => exact accepted
    | auditApproved => exact accepted
    | deny => exact .refl _
    | drop => exact .refl _
    | auditPending => exact .refl _
  · exact accepted

theorem considerTx_reaches {limits : TransactionLimits} {s s' : LoopState Db Changes}
    {cv : Candidate × Verdicts} (h : considerTx P ctx limits s cv = .ok s') :
    s.exec.Reaches P ctx s'.exec := by
  obtain ⟨cand, v⟩ := cv
  simp only [considerTx] at h
  split at h
  · rename_i stopped hstopped
    subst h
    rw [(beforeExecution_turnsAway hstopped).1]
    exact .refl _
  · rename_i hnone
    have hdeposit := (beforeExecution_passes hnone).notDeposit
    split at h
    · cases h
      split <;> exact .refl _
    · cases h
    · rename_i result changes gasless capture inspector ht
      cases h
      obtain ⟨htransact, hu⟩ := transactMaybeGasless_ok (congrArg Prod.fst ht)
      exact afterExecution_reaches (s := { s with inspector := inspector }) hdeposit htransact hu

theorem runTxLoop_reaches {limits : TransactionLimits} :
    ∀ (candidates : List (Candidate × Verdicts)) (s : LoopState Db Changes),
      s.exec.Reaches P ctx (runTxLoop P ctx limits s candidates).1.exec
  | [], s => .refl _
  | cv :: rest, s => by
    unfold runTxLoop
    split
    · rename_i s' hs
      exact (considerTx_reaches hs).trans (runTxLoop_reaches rest s')
    · exact .refl _

theorem executeBestTransactions_reaches (limits : TransactionLimits) (x : Exec Db Changes)
    (candidates : List (Candidate × Verdicts)) :
    x.Reaches P ctx (executeBestTransactions P ctx limits x candidates).1.exec :=
  runTxLoop_reaches candidates ⟨x, ctx.filter.map RcsInspector.new, [], []⟩

theorem BuilderTransactionCtx.not_deposit (b : BuilderTransactionCtx) :
    b.signedTx.tx.isDeposit = false := by
  simp [Tx.isDeposit, b.eip1559]

/-- What is committed for a builder transaction. -/
structure BuilderTransactionCtx.CommittedAs (b : BuilderTransactionCtx) (c : Committed Changes) :
    Prop where
  source : c.source = .builder
  tx : c.tx = b.signedTx
  gasless : c.gasless = false
  depositNonce : c.depositNonce = none
  daSize : c.daSize = b.daSize
  success : c.result.success = true

variable (P ctx) in
/-- A builder transaction is appended or leaves the block, and an EVM failure leaves it too. -/
theorem builderTxStep_cases (topOfBlock : Bool) (s : Exec Db Changes × List Address)
    (b : BuilderTransactionCtx) :
    match builderTxStep P ctx topOfBlock s b with
    | .ok s' => s'.1 = s.1 ∨ (b.isTopOfBlock = topOfBlock ∧
        ∃ c : Committed Changes, b.CommittedAs c ∧ c.ExecutedAt P ctx s.1.db ∧
          s'.1 = s.1.append P ctx c)
    | .error x' => x' = s.1 := by
  obtain ⟨x, invalid⟩ := s
  simp only [builderTxStep]
  split_ifs with hposition
  · exact .inl rfl
  · exact .inl rfl
  · cases ht : P.transact ctx.evmEnv x.db b.signedTx.tx false with
    | error e =>
      cases e with
      | invalidTx nonceTooLow => exact .inl rfl
      | fatal => rfl
    | ok answer =>
      obtain ⟨result, changes⟩ := answer
      dsimp only
      by_cases hs : result.success
      · rw [hs]
        exact .inr ⟨by simpa using hposition,
          ⟨.builder, b.signedTx, false, none, result, changes, b.daSize⟩,
          ⟨rfl, rfl, rfl, rfl, rfl, hs⟩,
          ⟨ht, Bool.noConfusion, depositorNonce_of_not_deposit b.not_deposit⟩, rfl⟩
      · simp only [hs]
        exact .inl rfl

variable (P ctx) in
/-- `add_builder_txs` appends some of the simulated transactions of its position, in order. -/
theorem addBuilderTxs_appends (topOfBlock : Bool) (x : Exec Db Changes)
    (simulated : Option (List BuilderTransactionCtx)) :
    ∃ (bs : List BuilderTransactionCtx) (cs : List (Committed Changes)),
      bs.Sublist ((simulated.getD []).filter (fun b => b.isTopOfBlock = topOfBlock)) ∧
      List.Forall₂ BuilderTransactionCtx.CommittedAs bs cs ∧ ExecutedFrom P ctx x.db cs ∧
      (addBuilderTxs P ctx topOfBlock x simulated).1 = cs.foldl (Exec.append P ctx) x := by
  cases simulated with
  | none => exact ⟨[], [], List.nil_sublist _, .nil, trivial, rfl⟩
  | some builderTxs =>
    -- the loop from any state, with what it returns after a fatal error
    suffices run : ∀ (builderTxs : List BuilderTransactionCtx) (s : Exec Db Changes × List Address),
        ∃ (bs : List BuilderTransactionCtx) (cs : List (Committed Changes)),
          bs.Sublist (builderTxs.filter (fun b => b.isTopOfBlock = topOfBlock)) ∧
          List.Forall₂ BuilderTransactionCtx.CommittedAs bs cs ∧ ExecutedFrom P ctx s.1.db cs ∧
          (match builderTxs.foldlM (builderTxStep P ctx topOfBlock) s with
            | .ok s' => s'.1
            | .error x' => x') = cs.foldl (Exec.append P ctx) s.1 by
      obtain ⟨bs, cs, hbs, hcs, hexecuted, hresult⟩ := run builderTxs (x, [])
      refine ⟨bs, cs, hbs, hcs, hexecuted, ?_⟩
      rw [← hresult, addBuilderTxs]
      cases builderTxs.foldlM (builderTxStep P ctx topOfBlock) (x, []) with
      | ok s => rfl
      | error x' => rfl
    intro builderTxs
    induction builderTxs with
    | nil => exact fun s => ⟨[], [], List.nil_sublist _, .nil, trivial, rfl⟩
    | cons b rest ih =>
      intro s
      have hstep := builderTxStep_cases P ctx topOfBlock s b
      rw [foldlM_cons]
      cases h : builderTxStep P ctx topOfBlock s b with
      | error x' =>
        rw [h] at hstep
        subst hstep
        exact ⟨[], [], List.nil_sublist _, .nil, trivial, rfl⟩
      | ok s₁ =>
        rw [h] at hstep
        obtain ⟨bs, cs, hbs, hcs, hexecuted, hresult⟩ := ih s₁
        rcases hstep with hsame | ⟨hposition, c, hc, hat, happended⟩
        · rw [hsame] at hexecuted hresult
          refine ⟨bs, cs, hbs.trans ?_, hcs, hexecuted, hresult⟩
          exact (List.sublist_cons_self b rest).filter _
        · rw [happended] at hexecuted hresult
          refine ⟨b :: bs, c :: cs, ?_, .cons hc hcs, ⟨hat, hexecuted⟩, hresult⟩
          rw [List.filter_cons_of_pos (by simpa using hposition)]
          exact hbs.cons_cons b

/-- The simulated builder transactions that go to one end of a flashblock. -/
def positionTxs (topOfBlock : Bool) (simulated : Option (List BuilderTransactionCtx)) :
    List BuilderTransactionCtx :=
  (simulated.getD []).filter (fun b => b.isTopOfBlock = topOfBlock)

variable (P ctx) in
/-- The EVM accepts a builder transaction on a state: it succeeds there. -/
def BuilderTransactionCtx.acceptedAt (b : BuilderTransactionCtx) (db : Db) : Bool :=
  match P.transact ctx.evmEnv db b.signedTx.tx false with
  | .ok (result, _) => result.success
  | .error _ => false

variable (P ctx) in
/-- It accepts one of those for one end of a flashblock. -/
def acceptsBuilderTx (topOfBlock : Bool) (db : Db)
    (simulated : Option (List BuilderTransactionCtx)) : Bool :=
  (positionTxs topOfBlock simulated).any (fun b => b.acceptedAt P ctx db)

/-- What was committed was accepted. -/
theorem BuilderTransactionCtx.CommittedAs.acceptedAt {b : BuilderTransactionCtx}
    {c : Committed Changes} {db : Db} (hb : b.CommittedAs c) (hc : c.ExecutedAt P ctx db) :
    b.acceptedAt P ctx db = true := by
  have htransact := hc.transact
  rw [hb.tx, hb.gasless] at htransact
  unfold BuilderTransactionCtx.acceptedAt
  rw [htransact]
  exact hb.success

/-- If none is accepted, nothing is added. -/
theorem addBuilderTxs_of_not_accepts {topOfBlock : Bool} {x : Exec Db Changes}
    {simulated : Option (List BuilderTransactionCtx)}
    (h : acceptsBuilderTx P ctx topOfBlock x.db simulated = false) :
    (addBuilderTxs P ctx topOfBlock x simulated).1 = x := by
  obtain ⟨bs, cs, hbs, hcs, hexecuted, hresult⟩ :=
    addBuilderTxs_appends P ctx topOfBlock x simulated
  rw [hresult]
  cases hcs with
  | nil => rfl
  | @cons b c bs' cs' hc hrest =>
    have haccepted := hc.acceptedAt hexecuted.1
    have hnone := List.any_eq_false.mp h b (hbs.subset List.mem_cons_self)
    exact absurd haccepted hnone

/-- Transactions that pay no fee, one after the other. -/
theorem Exec.extends_foldl_append : ∀ {cs : List (Committed Changes)} {x : Exec Db Changes},
    ExecutedFrom P ctx x.db cs → (∀ c ∈ cs, feeOf P ctx c = 0) →
    x.Extends P ctx cs (cs.foldl (Exec.append P ctx) x)
  | [], x, _, _ => .refl x
  | _ :: _, x, ⟨hc, hcs⟩, hfee =>
    (Exec.extends_append hc (hfee _ List.mem_cons_self)).trans
      (Exec.extends_foldl_append (x := x.append P ctx _) hcs
        (fun c' hc' => hfee c' (List.mem_cons_of_mem _ hc')))

/-- A fact about the committed transactions, from the simulated ones. -/
theorem BuilderTransactionCtx.forall_committedAs {bs : List BuilderTransactionCtx}
    {cs : List (Committed Changes)} (h : List.Forall₂ BuilderTransactionCtx.CommittedAs bs cs) :
    ∀ c ∈ cs, ∃ b ∈ bs, b.CommittedAs c := by
  induction h with
  | nil => simp
  | cons hb _ ih =>
    intro c hc
    rcases List.mem_cons.mp hc with rfl | hc
    · exact ⟨_, List.mem_cons_self, hb⟩
    · obtain ⟨b, hmem, hcommitted⟩ := ih c hc
      exact ⟨b, List.mem_cons_of_mem _ hmem, hcommitted⟩

theorem addBuilderTxs_reaches (topOfBlock : Bool) (x : Exec Db Changes)
    (simulated : Option (List BuilderTransactionCtx)) :
    x.Reaches P ctx (addBuilderTxs P ctx topOfBlock x simulated).1 := by
  obtain ⟨bs, cs, -, hcs, hexecuted, hresult⟩ := addBuilderTxs_appends P ctx topOfBlock x simulated
  rw [hresult]
  refine ⟨cs, Exec.extends_foldl_append hexecuted (fun c hc => ?_)⟩
  obtain ⟨b, -, hb⟩ := BuilderTransactionCtx.forall_committedAs hcs c hc
  simp [feeOf, hb.source]

/-- A cached transaction was replayed: it passed the limits of the block and was appended. -/
structure CachedReplayed (P : Platform Db Changes Env) (ctx : BuilderCtx Env) (r : Recovered)
    (gasless : Bool) (result : ExecutionResult) (changes : Changes) (x x' : Exec Db Changes) :
    Prop where
  fits : x.info.isTxOverLimits (P.txEstimatedSizeFjordBytes r.tx.encoded) (ctx.blockGasLimit P)
    ctx.maxDaTxSize ctx.maxDaBlockSize r.tx.gasLimit x.info.daFootprintScalar
    (x.info.daFootprintScalar.map (fun _ => ctx.blockGasLimit P)) = .ok ()
  notDeposit : r.tx.isDeposit = false
  transact : P.transact ctx.evmEnv x.db r.tx gasless = .ok (result, changes)
  unpriced : gasless = true → r.tx.isDeposit = false ∧ r.tx.maxFeePerGas = 0
  appended : x' = x.appendPriced P ctx
    ⟨.cached, r, gasless, none, result, changes, P.txEstimatedSizeFjordBytes r.tx.encoded⟩

variable (P ctx) in
theorem cachedTxStep_cases (x : Exec Db Changes) (r : Recovered) :
    match cachedTxStep P ctx x r with
    | .ok x' => ∃ gasless result changes, CachedReplayed P ctx r gasless result changes x x'
    | .error (x', _) => x' = x := by
  simp only [cachedTxStep]
  cases hfits : x.info.isTxOverLimits (P.txEstimatedSizeFjordBytes r.tx.encoded)
      (ctx.blockGasLimit P) ctx.maxDaTxSize ctx.maxDaBlockSize r.tx.gasLimit
      x.info.daFootprintScalar (x.info.daFootprintScalar.map (fun _ => ctx.blockGasLimit P)) with
  | error result => rfl
  | ok _ =>
    dsimp only
    split_ifs with hblob hdeposit
    · rfl
    · rfl
    · cases ht : (transactMaybeGasless P ctx x.db none r.tx).1 with
      | error e => rfl
      | ok answer =>
        obtain ⟨result, changes, gasless, capture⟩ := answer
        obtain ⟨htransact, hunpriced⟩ := transactMaybeGasless_ok ht
        exact ⟨gasless, result, changes, hfits, by simpa using hdeposit, htransact, hunpriced, rfl⟩

/-- **Rule for the replay**: what each replayed transaction preserves holds at its end, also if it
    stops at an error. -/
theorem executeCachedFlashblocksTransactions_rule (motive : Exec Db Changes → Prop)
    (step : ∀ x r gasless result changes x', motive x →
      CachedReplayed P ctx r gasless result changes x x' → motive x')
    {x : Exec Db Changes} (h : motive x) (cachedTxs : List Recovered) :
    motive (executeCachedFlashblocksTransactions P ctx x cachedTxs).1 := by
  have hstep : ∀ (x x' : Exec Db Changes) (r : Recovered), motive x →
      cachedTxStep P ctx x r = .ok x' → motive x' := by
    intro x x' r hx hok
    have hcases := cachedTxStep_cases P ctx x r
    rw [hok] at hcases
    obtain ⟨gasless, result, changes, hreplayed⟩ := hcases
    exact step x r gasless result changes x' hx hreplayed
  unfold executeCachedFlashblocksTransactions
  cases hfold : cachedTxs.foldlM (cachedTxStep P ctx) x with
  | ok x' => exact foldlM_ok (fun _ => motive) (fun _ r x x' => hstep x x' r) [] h hfold
  | error stop =>
    obtain ⟨x', e⟩ := stop
    obtain ⟨pre, r, post, x₁, -, hpre, herror⟩ := foldlM_error hfold
    have hcases := cachedTxStep_cases P ctx x₁ r
    rw [herror] at hcases
    subst hcases
    exact foldlM_ok (fun _ => motive) (fun _ r x x' => hstep x x' r) [] h hpre

theorem executeCachedFlashblocksTransactions_reaches (x : Exec Db Changes)
    (cachedTxs : List Recovered) :
    x.Reaches P ctx (executeCachedFlashblocksTransactions P ctx x cachedTxs).1 := by
  refine executeCachedFlashblocksTransactions_rule (fun x' => x.Reaches P ctx x') ?_ (.refl x)
    cachedTxs
  intro x₁ r gasless result changes x₂ hx h
  rw [h.appended]
  exact hx.trans ⟨_, Exec.extends_appendPriced
    ⟨h.transact, h.unpriced, depositorNonce_of_not_deposit h.notDeposit⟩ rfl⟩

end

end XLayerReth.Builder
