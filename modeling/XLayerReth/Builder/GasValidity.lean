import Mathlib.Algebra.Order.BigOperators.Group.List
import Mathlib.Algebra.Order.Group.Nat
import XLayerReth.Builder.BatchBudgets

/-!
# The gas of a block and its limit

Gas is added to a block at four places: by the sequencer's transactions, by the builder transaction
of the fallback block, and in each flashblock by builder transactions at its top, by the pool and by
builder transactions at its end.  Only the pool is held to the limit.  The round of a flashblock
leaves room for the builder transactions at its end, but a reservation that does not fit saturates.

* `addBuilderTxs_gas` — builder transactions add at most their gas limits.
* `turnReserved_covers` — what a flashblock reserves is what it adds at its end, if its first
  simulation succeeds.
* `TurnHasRoom` — the builder transactions of a turn, as far as the EVM accepts any, fit in what is
  left of the block.
* `buildPayload_gas_valid` — if they do at every turn, every block is within its gas limit.
-/

set_option autoImplicit false

namespace XLayerReth.Builder

open RcsFilter

section

variable {Db Changes Env : Type} {P : Platform Db Changes Env} {B : BuilderTxPlatform Db Env}
  {ctx : BuilderCtx Env}

/-! ## Builder transactions -/

variable (P ctx) in
/-- The gas limits of the builder transactions for one end of a flashblock, if the EVM accepts one
    of them on the state that they are added to. -/
def positionGas (topOfBlock : Bool) (db : Db) (simulated : Option (List BuilderTransactionCtx)) :
    Nat :=
  if acceptsBuilderTx P ctx topOfBlock db simulated then
    ((positionTxs topOfBlock simulated).map (fun b => b.signedTx.tx.gasLimit)).sum
  else 0

/-- What was committed used at most the gas limits of what was simulated. -/
theorem gasOf_le_gasLimits (hevm : ∀ tx, GasBounded P ctx tx) {bs : List BuilderTransactionCtx}
    {cs : List (Committed Changes)} (h : List.Forall₂ BuilderTransactionCtx.CommittedAs bs cs) :
    ∀ {db : Db}, ExecutedFrom P ctx db cs →
      gasOf cs ≤ (bs.map (fun b => b.signedTx.tx.gasLimit)).sum := by
  induction h with
  | nil => exact fun _ => Nat.le_refl _
  | cons hb _ ih =>
    intro db hexecuted
    have hused := hevm _ _ _ _ _ hexecuted.1.transact
    rw [hb.tx] at hused
    have hrest := ih hexecuted.2
    simp only [gasOf_cons, List.map_cons, List.sum_cons]
    omega

theorem addBuilderTxs_gas (hevm : ∀ tx, GasBounded P ctx tx) (topOfBlock : Bool)
    (x : Exec Db Changes) (simulated : Option (List BuilderTransactionCtx)) :
    (addBuilderTxs P ctx topOfBlock x simulated).1.info.cumulativeGasUsed ≤
      x.info.cumulativeGasUsed + positionGas P ctx topOfBlock x.db simulated := by
  by_cases haccepts : acceptsBuilderTx P ctx topOfBlock x.db simulated = false
  · rw [addBuilderTxs_of_not_accepts haccepts]
    exact Nat.le_add_right _ _
  obtain ⟨bs, cs, hbs, hcs, hexecuted, hresult⟩ :=
    addBuilderTxs_appends P ctx topOfBlock x simulated
  have hextends : x.Extends P ctx cs (cs.foldl (Exec.append P ctx) x) := by
    refine Exec.extends_foldl_append hexecuted (fun c hc => ?_)
    obtain ⟨b, -, hb⟩ := BuilderTransactionCtx.forall_committedAs hcs c hc
    simp [feeOf, hb.source]
  have hcommitted := gasOf_le_gasLimits hevm hcs hexecuted
  have hsublist : (bs.map (fun b => b.signedTx.tx.gasLimit)).sum ≤
      ((positionTxs topOfBlock simulated).map (fun b => b.signedTx.tx.gasLimit)).sum :=
    (hbs.map _).sum_le_sum (fun _ _ => Nat.zero_le _)
  rw [hresult, hextends.gas, positionGas, if_pos (by simpa using haccepts)]
  omega

/-! ## Reservations -/

/-- Without transactions for this position nothing happens. -/
theorem addBuilderTxs_of_positionTxs_eq_nil {topOfBlock : Bool}
    {builderTxs : List BuilderTransactionCtx} (x : Exec Db Changes)
    (h : ∀ b ∈ builderTxs, b.isTopOfBlock ≠ topOfBlock) :
    addBuilderTxs P ctx topOfBlock x (some builderTxs) = (x, some builderTxs) := by
  have hskip : ∀ (l : List BuilderTransactionCtx) (s : Exec Db Changes × List Address),
      (∀ b ∈ l, b.isTopOfBlock ≠ topOfBlock) →
      l.foldlM (builderTxStep P ctx topOfBlock) s = .ok s := by
    intro l
    induction l with
    | nil => exact fun _ _ => rfl
    | cons b rest ih =>
      intro s hl
      have hb : builderTxStep P ctx topOfBlock s b = .ok s := by
        simp [builderTxStep, hl b List.mem_cons_self]
      rw [Lib.foldlM_cons, hb]
      exact ih s (fun b' hb' => hl b' (List.mem_cons_of_mem _ hb'))
  simp only [addBuilderTxs, hskip builderTxs (x, []) h]

variable (P ctx) in
/-- The gas of a plain builder transaction: it only depends on the number of the block. -/
def plainBuilderGas : Nat := estimateBuilderTxGas (builderTxMessage (P.number ctx.evmEnv))

/-- The plain builder transactions of the last flashblock, which is not the fallback. -/
theorem simulateBaseBuilderTxs_last {signer : Option Address} {db : Db}
    {builderTxs : List BuilderTransactionCtx}
    (h : simulateBaseBuilderTxs P B ctx signer db false true = some builderTxs) :
    (signer = none ∧ builderTxs = []) ∨
      (signer.isSome ∧ ∃ b : BuilderTransactionCtx, builderTxs = [b] ∧ b.isTopOfBlock = false ∧
        b.gasUsed = plainBuilderGas P ctx ∧ b.signedTx.tx.gasLimit = plainBuilderGas P ctx) := by
  cases signer with
  | none =>
    have hempty : builderTxs = [] := by
      simpa [simulateBaseBuilderTxs, simulateBuilderTx] using h.symm
    exact .inl ⟨rfl, hempty⟩
  | some signer =>
    simp only [simulateBaseBuilderTxs, simulateBuilderTx, Bool.false_eq_true, if_false, if_true,
      Option.bind_eq_bind, Option.bind_some, Option.toList_none, List.nil_append,
      Option.bind_eq_some_iff, Option.map_eq_some_iff, Option.some.injEq] at h
    obtain ⟨last, ⟨b, hb, rfl⟩, rfl⟩ := h
    simp only [signedBuilderTx, signBuilderTx, Option.bind_eq_bind, Option.bind_eq_some_iff,
      Option.map_eq_some_iff] at hb
    obtain ⟨nonce, -, signed, -, rfl⟩ := hb
    exact .inr ⟨rfl, _, rfl, rfl, rfl, signed.gasLimit⟩

/-- What a flashblock adds at its end is covered by what it reserved at its start, unless the
    simulation at its start fails and the EVM accepts a transaction at its end. -/
theorem turnReserved_covers {builderTx : FlashblocksBuilderTx} {s : BuildState Db Changes}
    {t : Turn}
    (h : t.SimulatedBy P B ctx builderTx s) (hindex : 0 < s.fbState.flashblockIndex)
    (hfails : t.topSimulated = none →
      acceptsBuilderTx P ctx false (turnRound P ctx s t).1.exec.db t.bottomSimulated = false) :
    positionGas P ctx false (turnRound P ctx s t).1.exec.db t.bottomSimulated ≤
      ((turnReserved P ctx s t).map BuilderTransactionCtx.gasUsed).sum := by
  by_cases haccepts :
      acceptsBuilderTx P ctx false (turnRound P ctx s t).1.exec.db t.bottomSimulated = false
  · simp [positionGas, haccepts]
  have hempty : positionTxs false t.bottomSimulated ≠ [] := by
    intro hempty
    simp [acceptsBuilderTx, hempty] at haccepts
  rw [positionGas, if_pos (by simpa using haccepts)]
  -- something is added at the end: it is a plain transaction of the last flashblock
  have hfirst : s.fbState.isFirstFlashblock = false := by
    simp only [FlashblocksState.isFirstFlashblock, decide_eq_false_iff_not]
    omega
  have hbottom := h.bottom
  have htop := h.top
  simp only [SimulatedFor, hfirst] at hbottom htop
  have htop' := htop.resolve_left (fun hnone => haccepts (hfails hnone))
  have hbottom' := hbottom.resolve_left (fun hnone => hempty (by simp [hnone, positionTxs]))
  cases builderTx with
  | numberContract signer address =>
    refine absurd ?_ hempty
    cases hb : t.bottomSimulated with
    | none => rfl
    | some builderTxs =>
      have hall : ∀ b ∈ builderTxs, b.isTopOfBlock = true := by
        have hsimulated : simulateBuilderTxs P B ctx (.numberContract signer address)
            (turnRound P ctx s t).1.exec.db false false = some builderTxs := by
          rw [← hb]
          exact hbottom'.symm
        exact simulateBuilderTxs_between hsimulated
      simp only [positionTxs, Option.getD_some, List.filter_eq_nil_iff]
      intro b hmem
      simp [hall b hmem]
  | base signer =>
    cases hlast : s.fbState.isLastFlashblock with
    | false =>
      have : t.bottomSimulated = some [] := by
        rw [hbottom']
        simp [simulateBuilderTxs, simulateBaseBuilderTxs, hlast]
      exact absurd (by simp [this, positionTxs]) hempty
    | true =>
      rw [hlast] at htop' hbottom'
      simp only [simulateBuilderTxs] at htop' hbottom'
      cases hb : t.bottomSimulated with
      | none => simp [hb, positionTxs] at hempty
      | some bottom =>
        cases ht : t.topSimulated with
        | none => exact absurd (hfails ht) haccepts
        | some top =>
          rw [hb] at hbottom'
          rw [ht] at htop'
          rcases simulateBaseBuilderTxs_last hbottom'.symm with ⟨-, rfl⟩ |
            ⟨hsome, b, rfl, -, -, hlimit⟩
          · simp [hb, positionTxs] at hempty
          · rcases simulateBaseBuilderTxs_last htop'.symm with ⟨rfl, -⟩ |
              ⟨-, b', rfl, hend, hused, -⟩
            · simp at hsome
            · have hreserved : turnReserved P ctx s t = [b'] := by
                unfold turnReserved turnTop
                rw [ht, addBuilderTxs_of_positionTxs_eq_nil s.exec (by simp [hend])]
                simp [reservedTxs, hend]
              rw [hreserved]
              simp only [positionTxs, Option.getD_some]
              by_cases hposition : b.isTopOfBlock = false
              · simp [hposition, hlimit, hused]
              · simp [hposition]

/-! ## The blocks of a run -/

/-- The gas of a block that was built is what was counted, and its limit that of the context. -/
theorem tryBuildBlock_gas {buildError : Option BuildError} {info : ExecutionInfo} {db : Db}
    {fb fb' : FlashblocksState} {calculateStateRoot : Bool} {payload : BuiltPayload}
    {flashblock : Flashblock}
    (h : tryBuildBlock P ctx buildError info db fb calculateStateRoot =
      .ok (payload, flashblock, fb')) :
    payload.header.gasUsed = info.cumulativeGasUsed ∧
      payload.header.gasLimit = ctx.blockGasLimit P := by
  obtain ⟨header, beaconRoot, hheader, rfl, -, -⟩ := tryBuildBlock_built h
  obtain ⟨-, root, withdrawals, fields, data, -, -, -, -, rfl⟩ := buildHeader_eq_ok.mp hheader
  exact ⟨rfl, rfl⟩

variable (P ctx) in
/-- The builder transactions of a turn fit, with their gas limits, in what is left of the block
    before it, and if its first simulation fails the EVM accepts none at its end. -/
structure TurnHasRoom (s : BuildState Db Changes) (t : Turn) : Prop where
  room : s.exec.info.cumulativeGasUsed + positionGas P ctx true s.exec.db t.topSimulated +
    positionGas P ctx false (turnRound P ctx s t).1.exec.db t.bottomSimulated ≤ ctx.blockGasLimit P
  reserved : t.topSimulated = none →
    acceptsBuilderTx P ctx false (turnRound P ctx s t).1.exec.db t.bottomSimulated = false

/-- A turn with room ends within the gas limit. -/
theorem TurnHasRoom.gas {builderTx : FlashblocksBuilderTx} {scalar : Option Nat} {n k : Nat}
    {s : BuildState Db Changes} {t : Turn} (h : TurnHasRoom P ctx s t)
    (hevm : ∀ tx, GasBounded P ctx tx) (hsim : t.SimulatedBy P B ctx builderTx s)
    (hbatch : BatchState P ctx scalar n k s.fbState) (hk : 0 < k) (hle : k ≤ n) :
    Within (turnBottom P ctx s t).info.cumulativeGasUsed (ctx.blockGasLimit P) := by
  intro hlimit
  have htop := addBuilderTxs_gas hevm true s.exec t.topSimulated
  have hend := addBuilderTxs_gas hevm false (turnRound P ctx s t).1.exec t.bottomSimulated
  change (turnTop P ctx s t).1.info.cumulativeGasUsed ≤ _ at htop
  change (turnBottom P ctx s t).info.cumulativeGasUsed ≤ _ at hend
  have hroom := h.room
  have hround : (turnRound P ctx s t).1.exec.info.used = (turnTop P ctx s t).1.info.used ∨
      (turnTransactionLimits P ctx s t).Hold (turnRound P ctx s t).1.exec.info :=
    runTxLoop_used (fun cv _ => hevm cv.1.tx.tx)
  rcases hround with hused | hold
  · have : (turnRound P ctx s t).1.exec.info.cumulativeGasUsed =
        (turnTop P ctx s t).1.info.cumulativeGasUsed := congrArg Prod.fst hused
    omega
  · -- the pool stopped where the reservation begins
    have hcovers := turnReserved_covers hsim (by rw [hbatch.index]; exact hk) h.reserved
    have htarget : s.fbState.targetGasForBatch ≤ ctx.blockGasLimit P := by
      rw [hbatch.targetGas]
      exact (Nat.mul_le_mul_right _ hle).trans (Nat.mul_div_le _ _)
    have hpool := hold.gas
    rw [turnTransactionLimits_eq] at hpool
    dsimp only at hpool
    have := hpool (by omega)
    omega

variable (P) in
/-- The builder transactions of the fallback block, if the run adds any, fit with their gas limits
    in what the sequencer's transactions leave. -/
def FallbackHasRoom {builder : BuilderConfig} {config : FlashblocksConfig} {i : RunInputs Db}
    (r : FallbackRun P builder config i) : Prop :=
  r.rebuilds = true ∨ r.ctx.attributes.noTxPool = true ∨
    r.pre.info.cumulativeGasUsed + positionGas P r.ctx false r.pre.db i.simulated ≤
      r.ctx.blockGasLimit P

/-- A replay of cached flashblocks is held to the limit of the block. -/
theorem executeCachedFlashblocksTransactions_gas (hevm : ∀ tx, GasBounded P ctx tx)
    {x : Exec Db Changes} (h : Within x.info.cumulativeGasUsed (ctx.blockGasLimit P))
    (cachedTxs : List Recovered) :
    Within (executeCachedFlashblocksTransactions P ctx x cachedTxs).1.info.cumulativeGasUsed
      (ctx.blockGasLimit P) := by
  refine executeCachedFlashblocksTransactions_rule
    (fun x => Within x.info.cumulativeGasUsed (ctx.blockGasLimit P)) ?_ h cachedTxs
  intro x r gasless result changes x' _ hreplayed
  obtain ⟨-, -, -, hblock⟩ := isTxOverLimits_eq_ok.mp hreplayed.fits
  rw [hreplayed.appended]
  exact Within.of_saturatingAdd hblock (hevm _ _ _ _ _ hreplayed.transact)

theorem FallbackRun.gas {builder : BuilderConfig} {config : FlashblocksConfig} {i : RunInputs Db}
    (r : FallbackRun P builder config i) (hevm : ∀ tx, GasBounded P r.ctx tx)
    (hseq : r.pre.info.cumulativeGasUsed ≤ r.ctx.blockGasLimit P) (hroom : FallbackHasRoom P r) :
    Within r.exec.info.cumulativeGasUsed (r.ctx.blockGasLimit P) := by
  unfold FallbackRun.exec executeFallback
  split
  · exact executeCachedFlashblocksTransactions_gas hevm (fun _ => hseq) _
  · rename_i hcached
    split_ifs with hpool
    · exact fun _ => hseq
    · intro _
      have hadded := addBuilderTxs_gas hevm false r.pre i.simulated
      rcases hroom with hrebuilds | hnoTxPool | hroom
      · simp [FallbackRun.rebuilds, hcached] at hrebuilds
      · exact absurd hnoTxPool hpool
      · omega

variable (P B) in
/-- **Block gas validity**: in every run in which the sequencer's transactions alone are within the
    gas limit, if at the fallback block and at every flashblock the builder transactions that are
    added, if the EVM accepts any, fit in what is left of the block, then the fallback block and the
    block of every flashblock are within the gas limit of their header. -/
theorem buildPayload_gas_valid (builderTx : FlashblocksBuilderTx) (builder : BuilderConfig)
    (config : FlashblocksConfig) (i : RunInputs Db) (r : FallbackRun P builder config i)
    (hevm : ∀ tx, GasBounded P r.ctx tx)
    (hsim : EachTurn P r.ctx r.start i.turns (fun s t => t.SimulatedBy P B r.ctx builderTx s))
    (hseq : r.pre.info.cumulativeGasUsed ≤ r.ctx.blockGasLimit P) (hroom : FallbackHasRoom P r)
    (hturns : EachTurn P r.ctx r.start i.turns (TurnHasRoom P r.ctx)) :
    Within r.payload.header.gasUsed r.payload.header.gasLimit ∧
      EachTurn P r.ctx r.start i.turns (fun s t => ∀ payload flashblock fb,
        TurnBuilds P r.ctx s t payload flashblock fb →
        Within payload.header.gasUsed payload.header.gasLimit) := by
  constructor
  · obtain ⟨hused, hlimit⟩ := tryBuildBlock_gas r.built
    rw [hused, hlimit]
    exact r.gas hevm hseq hroom
  · intro done t s hstarts h hindex payload flashblock fb hbuilds
    obtain ⟨hused, hlimit⟩ := tryBuildBlock_gas hbuilds.block
    rw [hused, hlimit]
    have hstart : BatchState P r.ctx r.exec.info.daFootprintScalar
        (i.targetFlashblocks config) 1 r.start.fbState := firstFbState_batch _ _ _
    have hbatch := h.batchState hstart
    refine (hturns done t s hstarts h hindex).gas hevm (hsim done t s hstarts h hindex) hbatch
      (by omega) ?_
    rw [← hbatch.index, ← hbatch.count]
    exact hindex

end

namespace Sample

theorem ledger_gasBounded (ctx : BuilderCtx (Header × NextBlockEnvAttributes)) (tx : Tx) :
    GasBounded ledger ctx tx := by
  intro db gasless result changes h
  rw [ledger_gasUsed h]
  exact Nat.min_le_right _ _

/-- The first of two flashblocks, with a call of the number contract and no room for a transfer. -/
def roomyTurn : Turn :=
  ⟨simulated 84000 numberBuilderTx [55, 100] 1 2, transfers, false,
    simulated 84000 numberBuilderTx [55, 55, 100] 1 2, none, true, true⟩

def roomyRun : FallbackRun ledger config synchronous
    (ledgerRun 84000 2 numberBuilderTx roomyTurn) :=
  (FallbackRun.ofInputs _ _ _ _).get (by decide +kernel)

theorem roomyRun_gas_valid :
    EachTurn ledger roomyRun.ctx roomyRun.start [roomyTurn] (TurnHasRoom ledger roomyRun.ctx) ∧
      Within roomyRun.payload.header.gasUsed roomyRun.payload.header.gasLimit := by
  have hturns : EachTurn ledger roomyRun.ctx roomyRun.start [roomyTurn]
      (TurnHasRoom ledger roomyRun.ctx) :=
    eachTurn_singleton ⟨by decide +kernel, fun h => by cases h⟩
  have hdb : (turnRound ledger roomyRun.ctx roomyRun.start roomyTurn).1.exec.db =
      [55, 55, 100] := by decide +kernel
  refine ⟨hturns,
    (buildPayload_gas_valid ledger signing numberBuilderTx config synchronous _ roomyRun
    (ledger_gasBounded _) (eachTurn_singleton ⟨.inr rfl, .inr ?_⟩) (by decide +kernel)
    (.inr (.inr (by decide +kernel))) hturns).1⟩
  rw [hdb]
  rfl

def overfullRun : FallbackRun ledger config synchronous
    (ledgerRun 30000 5 plainBuilderTx plainTurn) :=
  (FallbackRun.ofInputs _ _ _ _).get (by decide +kernel)

/-- **The fallback block is overfilled**: the deposit uses 21000 of 30000 gas, and the builder
    transaction 21000 more. -/
theorem overfullRun_gas_invalid :
    SimulatedFor ledger signing overfullRun.ctx plainBuilderTx (FlashblocksState.new 5 true) [100]
      (simulated 30000 plainBuilderTx [100] 0 5) ∧
    overfullRun.pre.info.cumulativeGasUsed ≤ overfullRun.ctx.blockGasLimit ledger ∧
    ¬ Within overfullRun.payload.header.gasUsed overfullRun.payload.header.gasLimit := by
  refine ⟨.inr rfl, by decide +kernel, fun h => ?_⟩
  have := h (by decide +kernel)
  revert this
  decide +kernel

end Sample

end XLayerReth.Builder
