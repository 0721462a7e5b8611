import XLayerReth.Lib.OrdMap
import XLayerReth.Builder.Runs

/-!
# Flashblocks partition the block

`build_block` is called again and again on one `FlashblocksState` while other paths add to the
accounting.  Each flashblock holds what was added since the last one, so together they hold the
block.

* `SharedRun` — such calls, in any order with what adds to the accounting.
* `ExecutionInfo.Aligned` — the parallel vectors and the gas of the receipts.
* `Flashblock.Shows` — a flashblock and the transactions it stands for.
* `Partitions`, `Numbered` — the flashblocks of a block, and their indices.

Principal result: `flashblocks_partition`.
-/

set_option autoImplicit false

namespace XLayerReth.Builder

open RcsFilter
open XLayerReth.Lib

/-! ## The accounting -/

/-- The gas of the block after the last receipt. -/
def lastCumulativeGas (receipts : List Receipt) : Nat :=
  (receipts.getLast?.map Receipt.cumulativeGasUsed).getD 0

/-- The vectors of the accounting are parallel, and the receipts count the gas up. -/
structure ExecutionInfo.Aligned (info : ExecutionInfo) : Prop where
  senders : info.executedSenders.length = info.executedTransactions.length
  receipts : info.receipts.length = info.executedTransactions.length
  ascending : (info.receipts.map Receipt.cumulativeGasUsed).Pairwise (· ≤ ·)
  last : lastCumulativeGas info.receipts = info.cumulativeGasUsed

/-- A transaction of the block and its receipt. -/
def ExecutionInfo.receipted (info : ExecutionInfo) : List (Tx × Receipt) :=
  info.executedTransactions.zip info.receipts

/-! ## The flashblocks -/

/-- The receipts of the metadata, which are collected into a map by the hash. -/
def Flashblock.metadataReceipts (flashblock : Flashblock) : OrdMap Nat Receipt :=
  OrdMap.ofList (flashblock.receipts.map (fun p => (p.1.toNat, p.2)))

/-- A flashblock stands for `own`: it has these transactions, the metadata has the receipt of the
    last of them with a hash, and so exactly their receipts if no two have the same hash. -/
structure Flashblock.Shows (flashblock : Flashblock) (own : List (Tx × Receipt)) : Prop where
  transactions : flashblock.transactions = own.map (fun p => p.1.encoded)
  receipts : ∀ hash, flashblock.metadataReceipts.get? hash =
    (own.reverse.find? (fun p => p.1.hash.toNat = hash)).map Prod.snd
  exact : (own.map (fun p => p.1.hash)).Nodup →
    flashblock.metadataReceipts.entries.Perm (own.map (fun p => (p.1.hash.toNat, p.2)))

/-- The flashblocks of a block, one slice of it each. -/
structure Partitions (info : ExecutionInfo) (header : Header) (flashblocks : List Flashblock) :
    Prop where
  transactions : preconfirmed flashblocks = info.executedTransactions.map Tx.encoded
  slices : ∃ slices, slices.flatten = info.receipted ∧
    List.Forall₂ Flashblock.Shows flashblocks slices
  aligned : info.Aligned
  gasUsed : lastCumulativeGas info.receipts = header.gasUsed

/-- The indices are consecutive from 0, and only the flashblock at 0 has a base. -/
structure Numbered (flashblocks : List Flashblock) : Prop where
  indices : flashblocks.map Flashblock.index = List.range flashblocks.length
  base : ∀ flashblock ∈ flashblocks, flashblock.base.isSome = true ↔ flashblock.index = 0

section

variable {Db Changes Env : Type} (P : Platform Db Changes Env) (ctx : BuilderCtx Env)

/-- What adds to the accounting: a transaction of the sequencer, the builder transactions of one
    position, a round over the pool, and a cached sequence. -/
inductive Adds : Exec Db Changes → Exec Db Changes → Prop where
  | sequencer {x x' : Exec Db Changes} {tx : Tx} : sequencerStep P ctx x tx = .ok x' → Adds x x'
  | builderTxs (x : Exec Db Changes) (topOfBlock : Bool)
      (simulated : Option (List BuilderTransactionCtx)) :
      Adds x (addBuilderTxs P ctx topOfBlock x simulated).1
  | pool (x : Exec Db Changes) (limits : TransactionLimits)
      (candidates : List (Candidate × Verdicts)) :
      Adds x (executeBestTransactions P ctx limits x candidates).1.exec
  | cached (x : Exec Db Changes) (cachedTxs : List Recovered) :
      Adds x (executeCachedFlashblocksTransactions P ctx x cachedTxs).1
  | scalar (x : Exec Db Changes) (daFootprintScalar : Option Nat) :
      Adds x { x with info := { x.info with daFootprintScalar := daFootprintScalar } }

/-- The state of the flashblocks after `build_block` failed: without the beacon root it fails after
    the state was told how far the block goes. -/
def failedFbState (e : BuildError) (info : ExecutionInfo) (fb : FlashblocksState) :
    FlashblocksState :=
  if e = .missingParentBeaconBlockRoot then
    { fb with lastFlashblockTxIndex := info.executedTransactions.length }
  else fb

/-- Calls of `build_block` that share a state of the flashblocks, with the flashblocks they
    returned.  Between them the accounting is added to, and the state gets new limits. -/
inductive SharedRun (db : Db) :
    Exec Db Changes → FlashblocksState → List Flashblock → Prop where
  | start {fb : FlashblocksState} : fb.lastFlashblockTxIndex = 0 →
      SharedRun db ⟨ExecutionInfo.new, db, []⟩ fb []
  | add {x x' : Exec Db Changes} {fb : FlashblocksState} {flashblocks : List Flashblock} :
      SharedRun db x fb flashblocks → Adds P ctx x x' → SharedRun db x' fb flashblocks
  | relimit {x : Exec Db Changes} {fb fb' : FlashblocksState} {flashblocks : List Flashblock} :
      SharedRun db x fb flashblocks → fb'.lastFlashblockTxIndex = fb.lastFlashblockTxIndex →
      SharedRun db x fb' flashblocks
  | built {x : Exec Db Changes} {fb fb' : FlashblocksState} {flashblocks : List Flashblock}
      {calculateStateRoot : Bool} {payload : BuiltPayload} {flashblock : Flashblock} :
      SharedRun db x fb flashblocks →
      buildBlock P ctx x.info x.db (some fb) calculateStateRoot =
        .ok (payload, flashblock, some fb') →
      SharedRun db x fb' (flashblocks ++ [flashblock])
  | failed {x : Exec Db Changes} {fb : FlashblocksState} {flashblocks : List Flashblock}
      {calculateStateRoot : Bool} {e : BuildError} :
      SharedRun db x fb flashblocks →
      buildBlock P ctx x.info x.db (some fb) calculateStateRoot = .error e →
      SharedRun db x (failedFbState e x.info fb) flashblocks

variable {P ctx}

theorem Adds.reaches {x x' : Exec Db Changes} (h : Adds P ctx x x') : x.Reaches P ctx x' := by
  cases h with
  | sequencer hstep =>
    rcases sequencerStep_cases hstep with rfl | ⟨c, hsource, -, -, hat, rfl⟩
    · exact .refl _
    · exact ⟨_, Exec.extends_append hat (by simp [feeOf, hsource])⟩
  | builderTxs topOfBlock simulated => exact addBuilderTxs_reaches topOfBlock x simulated
  | pool limits candidates => exact executeBestTransactions_reaches limits x candidates
  | cached cachedTxs => exact executeCachedFlashblocksTransactions_reaches x cachedTxs
  | scalar daFootprintScalar => exact ⟨[], (Exec.Extends.refl x).of_outcome rfl⟩

/-! ## The accounting of a run -/

theorem receiptsFrom_length : ∀ (gas : Nat) (cs : List (Committed Changes)),
    (receiptsFrom ctx gas cs).length = cs.length
  | _, [] => rfl
  | gas, c :: cs => by simp [receiptsFrom, receiptsFrom_length (gas + c.result.gasUsed) cs]

theorem le_receiptsFrom : ∀ (gas : Nat) (cs : List (Committed Changes)),
    ∀ r ∈ receiptsFrom ctx gas cs, gas ≤ r.cumulativeGasUsed
  | _, [], r, hr => by simp [receiptsFrom] at hr
  | gas, c :: cs, r, hr => by
    rcases List.mem_cons.mp hr with rfl | hr
    · exact Nat.le_add_right _ _
    · exact (Nat.le_add_right _ _).trans (le_receiptsFrom (gas + c.result.gasUsed) cs r hr)

theorem receiptsFrom_ascending : ∀ (gas : Nat) (cs : List (Committed Changes)),
    ((receiptsFrom ctx gas cs).map Receipt.cumulativeGasUsed).Pairwise (· ≤ ·)
  | _, [] => List.Pairwise.nil
  | gas, c :: cs => by
    rw [receiptsFrom, List.map_cons, List.pairwise_cons]
    refine ⟨fun total htotal => ?_, receiptsFrom_ascending _ cs⟩
    obtain ⟨r, hr, rfl⟩ := List.mem_map.mp htotal
    exact le_receiptsFrom _ cs r hr

theorem receiptsFrom_last : ∀ (gas : Nat) (cs : List (Committed Changes)),
    ((receiptsFrom ctx gas cs).getLast?.map Receipt.cumulativeGasUsed).getD gas = gas + gasOf cs
  | gas, [] => rfl
  | gas, c :: cs => by
    have ih := receiptsFrom_last (gas + c.result.gasUsed) cs
    rw [receiptsFrom, List.getLast?_cons, gasOf_cons, ← Nat.add_assoc, ← ih]
    cases (receiptsFrom ctx (gas + c.result.gasUsed) cs).getLast? with
    | none => rfl
    | some r => rfl

theorem aligned_of_reaches {db : Db} {x : Exec Db Changes}
    (h : (⟨ExecutionInfo.new, db, []⟩ : Exec Db Changes).Reaches P ctx x) : x.info.Aligned := by
  obtain ⟨cs, h⟩ := h
  have htransactions : x.info.executedTransactions = cs.map (fun c => c.tx.tx) := by
    simpa [ExecutionInfo.new] using h.transactions
  have hsenders : x.info.executedSenders = cs.map (fun c => c.tx.signer) := by
    simpa [ExecutionInfo.new] using h.senders
  have hreceipts : x.info.receipts = receiptsFrom ctx 0 cs := by
    simpa [ExecutionInfo.new] using h.receipts
  have hgas : x.info.cumulativeGasUsed = gasOf cs := by
    simpa [ExecutionInfo.new] using h.gas
  refine ⟨?_, ?_, ?_, ?_⟩
  · rw [hsenders, htransactions, List.length_map, List.length_map]
  · rw [hreceipts, htransactions, receiptsFrom_length, List.length_map]
  · rw [hreceipts]
    exact receiptsFrom_ascending 0 cs
  · rw [hreceipts, hgas, lastCumulativeGas, receiptsFrom_last, Nat.zero_add]

theorem SharedRun.reaches {db : Db} {x : Exec Db Changes} {fb : FlashblocksState}
    {flashblocks : List Flashblock} (h : SharedRun P ctx db x fb flashblocks) :
    (⟨ExecutionInfo.new, db, []⟩ : Exec Db Changes).Reaches P ctx x := by
  induction h with
  | start _ => exact .refl _
  | add _ hadds ih => exact ih.trans hadds.reaches
  | relimit _ _ ih => exact ih
  | built _ _ ih => exact ih
  | failed _ _ ih => exact ih

/-! ## One flashblock -/

theorem ExecutionInfo.Aligned.receipted_length {info : ExecutionInfo} (h : info.Aligned) :
    info.receipted.length = info.executedTransactions.length := by
  simp [ExecutionInfo.receipted, h.receipts]

theorem ExecutionInfo.Aligned.map_receipted {info : ExecutionInfo} (h : info.Aligned) :
    info.receipted.map Prod.fst = info.executedTransactions :=
  List.map_fst_zip h.receipts.ge

variable (P ctx) in
/-- The flashblock of `build_block` stands for what was added since the last index. -/
theorem buildFlashblock_shows {info : ExecutionInfo} (h : info.Aligned) (header : Header)
    (lastIdx : Nat) (beaconRoot : B256) :
    (buildFlashblock P ctx info header lastIdx beaconRoot).Shows
      (info.receipted.drop lastIdx) := by
  have hmap : (buildFlashblock P ctx info header lastIdx beaconRoot).receipts.map
      (fun p => (p.1.toNat, p.2)) =
        (info.receipted.drop lastIdx).map (fun p => (p.1.hash.toNat, p.2)) := by
    rw [ExecutionInfo.receipted, List.zip_eq_zipWith, List.drop_zipWith, ← List.zip_eq_zipWith]
    exact List.map_map
  refine ⟨?_, fun hash => ?_, fun hnodup => ?_⟩
  · show (info.executedTransactions.drop lastIdx).map Tx.encoded = _
    rw [← h.map_receipted, ← List.map_drop, List.map_map]
    rfl
  · rw [Flashblock.metadataReceipts, hmap, OrdMap.get?_ofList, ← List.map_reverse, List.find?_map,
      Option.map_map]
    rfl
  · rw [Flashblock.metadataReceipts, hmap]
    apply OrdMap.ofList_perm
    have hmapped := hnodup.map (f := BitVec.toNat) (fun _ _ => BitVec.eq_of_toNat_eq)
    rw [List.map_map] at hmapped
    rw [List.map_map]
    exact hmapped

theorem preconfirmed_of_shows {flashblocks : List Flashblock} {slices : List (List (Tx × Receipt))}
    (h : List.Forall₂ Flashblock.Shows flashblocks slices) :
    preconfirmed flashblocks = slices.flatten.map (fun p => p.1.encoded) := by
  induction h with
  | nil => rfl
  | cons hshows _ ih =>
    rw [preconfirmed, List.flatMap_cons, hshows.transactions, List.flatten_cons, List.map_append,
      ← ih]
    rfl

/-! ## The flashblocks of a run -/

/-- The flashblocks so far stand for the block up to the last index. -/
structure Covers (info : ExecutionInfo) (lastIdx : Nat) (flashblocks : List Flashblock) : Prop where
  within : lastIdx ≤ info.receipted.length
  slices : ∃ slices, slices.flatten = info.receipted.take lastIdx ∧
    List.Forall₂ Flashblock.Shows flashblocks slices

/-- The block only grows. -/
theorem Exec.Reaches.prefix_receipted {x x' : Exec Db Changes} (h : x.Reaches P ctx x')
    (hx : x.info.Aligned) : x.info.receipted <+: x'.info.receipted := by
  obtain ⟨cs, h⟩ := h
  rw [ExecutionInfo.receipted, ExecutionInfo.receipted, h.transactions, h.receipts,
    List.zip_append hx.receipts.symm]
  exact List.prefix_append _ _

theorem Covers.of_prefix {info info' : ExecutionInfo} {lastIdx : Nat}
    {flashblocks : List Flashblock} (h : Covers info lastIdx flashblocks)
    (hstarts : info.receipted <+: info'.receipted) : Covers info' lastIdx flashblocks := by
  obtain ⟨slices, hflatten, hshows⟩ := h.slices
  refine ⟨h.within.trans hstarts.length_le, slices, ?_, hshows⟩
  obtain ⟨rest, hrest⟩ := hstarts
  rw [hflatten, ← hrest, List.take_append_of_le_length h.within]

/-- The next flashblock stands for the rest of the block. -/
theorem Covers.built {info : ExecutionInfo} {lastIdx : Nat} {flashblocks : List Flashblock}
    {flashblock : Flashblock} (h : Covers info lastIdx flashblocks)
    (hshows : flashblock.Shows (info.receipted.drop lastIdx)) :
    Covers info info.receipted.length (flashblocks ++ [flashblock]) := by
  obtain ⟨slices, hflatten, hslices⟩ := h.slices
  refine ⟨le_rfl, slices ++ [info.receipted.drop lastIdx], ?_, ?_⟩
  · rw [List.flatten_append, hflatten, List.flatten_singleton, List.take_append_drop,
      List.take_length]
  · exact List.rel_append hslices (.cons hshows .nil)

theorem Covers.partitions {info : ExecutionInfo} {header : Header} {flashblocks : List Flashblock}
    (h : Covers info info.receipted.length flashblocks) (hinfo : info.Aligned)
    (hheader : header.gasUsed = info.cumulativeGasUsed) : Partitions info header flashblocks := by
  obtain ⟨slices, hflatten, hshows⟩ := h.slices
  rw [List.take_length] at hflatten
  refine ⟨?_, ⟨slices, hflatten, hshows⟩, hinfo, hinfo.last.trans hheader.symm⟩
  rw [preconfirmed_of_shows hshows, hflatten, ← hinfo.map_receipted, List.map_map]
  rfl

/-- A header does not need the beacon root. -/
theorem buildHeader_error {info : ExecutionInfo} {db : Db} {calculateStateRoot : Bool} :
    buildHeader P ctx info db calculateStateRoot ≠ .error .missingParentBeaconBlockRoot := by
  have hroot : blockStateRoot P db calculateStateRoot ≠ .error .missingParentBeaconBlockRoot := by
    unfold blockStateRoot
    repeat' split
    all_goals simp
  have hwithdrawals : withdrawalsRoot P ctx db ≠ .error .missingParentBeaconBlockRoot := by
    unfold withdrawalsRoot
    repeat' split
    all_goals simp
  have hblob : blobFields ctx info ≠ .error .missingParentBeaconBlockRoot := by
    unfold blobFields
    repeat' split
    all_goals simp
  unfold buildHeader
  split_ifs
  · simp
  · cases hr : blockStateRoot P db calculateStateRoot with
    | error e => simpa [hr] using hroot
    | ok root =>
      cases hw : withdrawalsRoot P ctx db with
      | error e => simpa [hw] using hwithdrawals
      | ok withdrawals =>
        cases hf : blobFields ctx info with
        | error e => simpa [hf] using hblob
        | ok fields =>
          cases ctx.extraData P with
          | none => simp
          | some data => simp

theorem buildBlock_error {info : ExecutionInfo} {db : Db} {fb : Option FlashblocksState}
    {calculateStateRoot : Bool} {e : BuildError}
    (hbeacon : ctx.attributes.parentBeaconBlockRoot ≠ none)
    (h : buildBlock P ctx info db fb calculateStateRoot = .error e) :
    e ≠ .missingParentBeaconBlockRoot := by
  unfold buildBlock at h
  split at h
  · rename_i e' hheader
    cases h
    rintro rfl
    exact buildHeader_error hheader
  · split at h
    · rename_i hnone
      exact absurd hnone hbeacon
    · cases h

/-- Unless the beacon root is missing, and then no block is built at all. -/
theorem SharedRun.covers {db : Db} {x : Exec Db Changes} {fb : FlashblocksState}
    {flashblocks : List Flashblock} (h : SharedRun P ctx db x fb flashblocks)
    (hbeacon : ctx.attributes.parentBeaconBlockRoot ≠ none) :
    Covers x.info fb.lastFlashblockTxIndex flashblocks := by
  induction h with
  | start hindex =>
    rw [hindex]
    exact ⟨Nat.zero_le _, [], rfl, .nil⟩
  | add hrun hadds ih =>
    exact ih.of_prefix (hadds.reaches.prefix_receipted (aligned_of_reaches hrun.reaches))
  | relimit _ hindex ih =>
    rw [hindex]
    exact ih
  | built hrun hbuilt ih =>
    have hinfo := aligned_of_reaches hrun.reaches
    obtain ⟨header, beaconRoot, -, -, -, rfl, hfb⟩ := buildBlock_eq_ok.mp hbuilt
    cases hfb
    rw [← hinfo.receipted_length]
    exact ih.built (buildFlashblock_shows P ctx hinfo header _ beaconRoot)
  | failed _ hfailed ih =>
    rw [failedFbState, if_neg (buildBlock_error hbeacon hfailed)]
    exact ih

/-! ## `build_payload` -/

/-- What `build_payload` adds before the fallback block is added in such a run. -/
theorem FallbackRun.sharedRun {builder : BuilderConfig} {config : FlashblocksConfig}
    {i : RunInputs Db} (r : FallbackRun P builder config i) :
    ∃ db₁, SharedRun P r.ctx db₁ r.exec
      (FlashblocksState.new config.flashblocksPerBlock config.disableStateRoot) [] := by
  obtain ⟨db₁, hdb⟩ := executePreSteps_changes r.preSteps
  have hpre := r.preSteps
  simp only [executePreSteps, hdb, executeSequencerTransactions] at hpre
  refine ⟨db₁, ?_⟩
  have hsequencer : SharedRun P r.ctx db₁ r.pre
      (FlashblocksState.new config.flashblocksPerBlock config.disableStateRoot) [] := by
    cases hfold : r.ctx.attributes.transactions.foldlM (sequencerStep P r.ctx)
        ⟨ExecutionInfo.new, db₁, []⟩ with
    | error e => simp [hfold, Except.map] at hpre
    | ok x =>
      simp only [hfold, Except.map, Except.ok.injEq] at hpre
      rw [← hpre]
      refine .add (foldlM_ok (fun _ x => SharedRun P r.ctx db₁ x _ []) ?_ [] (.start rfl) hfold)
        (.scalar x _)
      intro _ tx x x' hx hstep
      exact .add hx (.sequencer hstep)
  unfold FallbackRun.exec executeFallback
  split
  · exact .add hsequencer (.cached r.pre _)
  · split_ifs
    · exact hsequencer
    · exact .add hsequencer (.builderTxs r.pre false i.simulated)

/-- The number and the base do not matter for what a flashblock stands for. -/
theorem Flashblock.Shows.atIndex {flashblock : Flashblock} {own : List (Tx × Receipt)}
    (h : flashblock.Shows own) (index : Nat) : (flashblock.atIndex index).Shows own :=
  ⟨h.transactions, h.receipts, h.exact⟩

theorem Numbered.append {flashblocks : List Flashblock} (h : Numbered flashblocks)
    (flashblock : Flashblock) (hne : flashblocks ≠ []) :
    Numbered (flashblocks ++ [flashblock.atIndex flashblocks.length]) := by
  refine ⟨?_, fun f hf => ?_⟩
  · rw [List.map_append, h.indices, List.length_append, List.length_singleton, List.range_succ]
    rfl
  · rcases List.mem_append.mp hf with hf | hf
    · exact h.base f hf
    · rw [List.mem_singleton.mp hf]
      simp [Flashblock.atIndex, hne]

/-- The flashblocks published so far, at the start of a turn. -/
structure BuildState.Published (P : Platform Db Changes Env) (ctx : BuilderCtx Env)
    (db : Db) (s : BuildState Db Changes) : Prop where
  reaches : (⟨ExecutionInfo.new, db, []⟩ : Exec Db Changes).Reaches P ctx s.exec
  covers : Covers s.exec.info s.exec.info.receipted.length s.published
  lastIndex : s.fbState.lastFlashblockTxIndex = s.exec.info.receipted.length
  gasUsed : s.bestPayload.1.header.gasUsed = s.exec.info.cumulativeGasUsed
  numbered : Numbered s.published
  count : s.published.length = s.fbState.flashblockIndex
  nonempty : s.published ≠ []

theorem BuildState.Published.partitions {db : Db} {s : BuildState Db Changes}
    (h : s.Published P ctx db) : Partitions s.exec.info s.bestPayload.1.header s.published :=
  h.covers.partitions (aligned_of_reaches h.reaches) h.gasUsed

theorem buildHeader_gasUsed {info : ExecutionInfo} {db : Db} {calculateStateRoot : Bool}
    {header : Header} (h : buildHeader P ctx info db calculateStateRoot = .ok header) :
    header.gasUsed = info.cumulativeGasUsed := by
  obtain ⟨-, root, withdrawals, fields, data, -, -, -, -, rfl⟩ := buildHeader_eq_ok.mp h
  rfl

variable (P ctx) in
theorem turnBottom_reaches (s : BuildState Db Changes) (t : Turn) :
    s.exec.Reaches P ctx (turnBottom P ctx s t) :=
  ((addBuilderTxs_reaches true s.exec t.topSimulated).trans
    (executeBestTransactions_reaches _ _ t.candidates)).trans
    (addBuilderTxs_reaches false _ t.bottomSimulated)

/-- A turn whose block was built: the flashblocks stand for it. -/
theorem BuildState.Published.turnBuilds {db : Db} {s : BuildState Db Changes} {t : Turn}
    {payload : BuiltPayload} {flashblock : Flashblock} {fb : FlashblocksState}
    (h : s.Published P ctx db) (hbuilds : TurnBuilds P ctx s t payload flashblock fb)
    (targetDa targetDaFootprint : Option Nat) (sent : List Flashblock) :
    BuildState.Published P ctx db
      { exec := turnBottom P ctx s t
        fbState := nextFbState fb targetDa targetDaFootprint
        bestPayload := (payload, (turnBottom P ctx s t).db)
        published := s.published ++ [flashblock.atIndex fb.flashblockIndex]
        sent := sent } := by
  obtain ⟨header, beaconRoot, hheader, rfl, rfl, rfl⟩ := tryBuildBlock_built hbuilds.block
  have hbefore := aligned_of_reaches h.reaches
  have hreaches := h.reaches.trans (turnBottom_reaches P ctx s t)
  have hinfo := aligned_of_reaches hreaches
  have hcovers := h.covers.of_prefix ((turnBottom_reaches P ctx s t).prefix_receipted hbefore)
  rw [← h.lastIndex] at hcovers
  have hshows := (buildFlashblock_shows P ctx hinfo header
    s.fbState.lastFlashblockTxIndex beaconRoot).atIndex s.fbState.flashblockIndex
  refine ⟨hreaches, hcovers.built hshows, hinfo.receipted_length.symm,
    buildHeader_gasUsed hheader, ?_, ?_, by simp⟩
  · show Numbered (s.published ++ [Flashblock.atIndex _ s.fbState.flashblockIndex])
    rw [← h.count]
    exact h.numbered.append _ h.nonempty
  · show (s.published ++ [_]).length = s.fbState.flashblockIndex + 1
    rw [List.length_append, h.count]
    rfl

theorem FallbackRun.published {builder : BuilderConfig} {config : FlashblocksConfig}
    {i : RunInputs Db} (r : FallbackRun P builder config i) :
    ∃ db₁, ∀ {done : List Turn} {s : BuildState Db Changes}, TurnsFrom P r.ctx r.start done s →
      s.Published P r.ctx db₁ ∧ s.published.length = done.length + 1 := by
  obtain ⟨db₁, hshared⟩ := r.sharedRun
  refine ⟨db₁, fun h => ?_⟩
  induction h with
  | start =>
    obtain ⟨header, beaconRoot, hheader, hpayload, hflashblock, hfb⟩ := tryBuildBlock_built r.built
    have hinfo := aligned_of_reaches hshared.reaches
    have hshows := buildFlashblock_shows P r.ctx hinfo header 0 beaconRoot
    have hempty : Covers r.exec.info 0 [] := ⟨Nat.zero_le _, [], rfl, .nil⟩
    refine ⟨⟨hshared.reaches, ?_, ?_, ?_, ?_, rfl, by simp [FallbackRun.start]⟩, rfl⟩
    · show Covers r.exec.info _ [r.flashblock]
      rw [hflashblock]
      exact hempty.built hshows
    · show r.fb.lastFlashblockTxIndex = _
      rw [hfb]
      exact hinfo.receipted_length.symm
    · show r.payload.header.gasUsed = _
      rw [hpayload]
      exact buildHeader_gasUsed hheader
    · show Numbered [r.flashblock]
      rw [hflashblock]
      exact ⟨rfl, by simp [buildFlashblock]⟩
  | turn _ _ hturn ih =>
    obtain ⟨payload, flashblock, fb, hbuilds, -, -, rfl⟩ := buildNextFlashblock_built hturn
    refine ⟨ih.1.turnBuilds hbuilds _ _ _, ?_⟩
    rw [List.length_append, List.length_append, ih.2]
    rfl

/-- A turn publishes nothing, or the flashblock of its block. -/
theorem buildNextFlashblock_published {s s' : BuildState Db Changes} {t : Turn} {turnEnd : TurnEnd}
    (h : buildNextFlashblock P ctx s t = (s', turnEnd)) :
    s'.published = s.published ∨
      ∃ payload flashblock fb, TurnBuilds P ctx s t payload flashblock fb ∧
        s'.published = s.published ++ [flashblock.atIndex fb.flashblockIndex] := by
  rw [buildNextFlashblock_eq] at h
  split_ifs at h with hround hcancelled
  · cases h
    exact .inl rfl
  · cases h
    exact .inl rfl
  · unfold finishFlashblock at h
    dsimp only at h
    split at h
    · cases h
      exact .inl rfl
    · rename_i payload flashblock fb hbuild
      have hbuilds : TurnBuilds P ctx s t payload flashblock fb :=
        ⟨hround, by simpa using hcancelled, hbuild⟩
      split_ifs at h
      · cases h
        exact .inl rfl
      · cases h
        exact .inr ⟨payload, flashblock, fb, hbuilds, rfl⟩
      · cases h
        exact .inr ⟨payload, flashblock, fb, hbuilds, rfl⟩

/-- What a run publishes: nothing, or what was published at the start of some turn, perhaps with the
    flashblock of that turn. -/
theorem FallbackRun.published_cases {builder : BuilderConfig} {config : FlashblocksConfig}
    {i : RunInputs Db} (r : FallbackRun P builder config i) :
    (buildPayload P builder config i).published = [] ∨
      r.rebuilds = false ∧ r.ctx.attributes.noTxPool = false ∧
        ∃ done s, TurnsFrom P r.ctx r.start done s ∧ done <+: i.turns ∧
        ((buildPayload P builder config i).published = s.published ∨
          ∃ t payload flashblock fb, done ++ [t] <+: i.turns ∧
            s.fbState.flashblockIndex ≤ s.fbState.targetFlashblockCount ∧
            TurnBuilds P r.ctx s t payload flashblock fb ∧
            (buildPayload P builder config i).published =
              s.published ++ [flashblock.atIndex fb.flashblockIndex]) := by
  rw [r.buildPayload_eq]
  split_ifs with hrebuilds _ hnoTxPool
  · exact .inl rfl
  · exact .inl rfl
  · exact .inl rfl
  · have hfresh : r.rebuilds = false := by simpa using hrebuilds
    have hpool : r.ctx.attributes.noTxPool = false := by simpa using hnoTxPool
    unfold buildFlashblocks
    split
    · exact .inl rfl
    · split
      · exact .inr ⟨hfresh, hpool, [], r.start, .start, List.nil_prefix, .inl rfl⟩
      · rename_i scheduler hok
        rw [← r.start_eq hok]
        split_ifs
        · exact .inr ⟨hfresh, hpool, [], r.start, .start, List.nil_prefix, .inl rfl⟩
        · exact .inr ⟨hfresh, hpool, [], r.start, .start, List.nil_prefix, .inl rfl⟩
        · show (flashblocksLoop P r.ctx r.start i.turns).published = [] ∨ _
          obtain ⟨done, s, hdone, hstarts, heq | ⟨t, turnEnd, hnext, hindex, hturn, -⟩⟩ :=
            flashblocksLoop_turns P r.ctx i.turns r.start
          · exact .inr ⟨hfresh, hpool, done, s, hdone, hstarts,
              .inl (congrArg BuildState.published heq)⟩
          · refine .inr ⟨hfresh, hpool, done, s, hdone, hstarts, ?_⟩
            rcases buildNextFlashblock_published hturn with
              hsame | ⟨payload, flashblock, fb, hbuilds, hnew⟩
            · exact .inl hsame
            · exact .inr ⟨t, payload, flashblock, fb, hnext, hindex, hbuilds, hnew⟩
        · exact .inr ⟨hfresh, hpool, [], r.start, .start, List.nil_prefix, .inl rfl⟩

theorem FallbackRun.published_numbered {builder : BuilderConfig} {config : FlashblocksConfig}
    {i : RunInputs Db} (r : FallbackRun P builder config i) :
    Numbered (buildPayload P builder config i).published := by
  obtain ⟨db₁, hturns⟩ := r.published
  rcases r.published_cases with hnone | ⟨-, -, done, s, hdone, -, hsame | hturn⟩
  · rw [hnone]
    exact ⟨rfl, by simp⟩
  · rw [hsame]
    exact (hturns hdone).1.numbered
  · obtain ⟨t, payload, flashblock, fb, -, -, hbuilds, hnew⟩ := hturn
    rw [hnew]
    exact ((hturns hdone).1.turnBuilds hbuilds none none []).numbered

/-- **Flashblocks partition the block**: whenever `build_block` returns one more flashblock on a
    shared state, the flashblocks so far are the block cut into slices, each with the receipts of
    its own transactions, by hash; the vectors of the accounting are parallel, and the receipts
    count the gas up to the gas of the header.  In a run of `build_payload` this holds for what is
    published after the fallback block and after each turn, and the flashblocks are numbered. -/
theorem flashblocks_partition (P : Platform Db Changes Env) :
    (∀ (ctx : BuilderCtx Env) (db : Db) (x : Exec Db Changes) (fb : FlashblocksState)
      (flashblocks : List Flashblock), SharedRun P ctx db x fb flashblocks →
      x.info.Aligned ∧
        ∀ calculateStateRoot payload flashblock fb',
          buildBlock P ctx x.info x.db (some fb) calculateStateRoot =
            .ok (payload, flashblock, fb') →
          Partitions x.info payload.header (flashblocks ++ [flashblock])) ∧
    ∀ (builder : BuilderConfig) (config : FlashblocksConfig) (i : RunInputs Db)
      (r : FallbackRun P builder config i),
      Numbered (buildPayload P builder config i).published ∧
        ∀ done s, TurnsFrom P r.ctx r.start done s →
          Partitions s.exec.info s.bestPayload.1.header s.published ∧
          Numbered s.published ∧ s.published.length = done.length + 1 ∧
          ∀ t payload flashblock fb, TurnBuilds P r.ctx s t payload flashblock fb →
            Partitions (turnBottom P r.ctx s t).info payload.header
              (s.published ++ [flashblock.atIndex fb.flashblockIndex]) ∧
            Numbered (s.published ++ [flashblock.atIndex fb.flashblockIndex]) := by
  constructor
  · intro ctx db x fb flashblocks hrun
    have hinfo := aligned_of_reaches hrun.reaches
    refine ⟨hinfo, fun calculateStateRoot payload flashblock fb' hbuilt => ?_⟩
    obtain ⟨header, beaconRoot, hheader, hbeacon, rfl, rfl, -⟩ := buildBlock_eq_ok.mp hbuilt
    have hcovers := (hrun.covers (by simp [hbeacon])).built
      (buildFlashblock_shows P ctx hinfo header _ beaconRoot)
    exact hcovers.partitions hinfo (buildHeader_gasUsed hheader)
  · intro builder config i r
    refine ⟨r.published_numbered, fun done s hdone => ?_⟩
    obtain ⟨db₁, hturns⟩ := r.published
    obtain ⟨hs, hcount⟩ := hturns hdone
    refine ⟨hs.partitions, hs.numbered, hcount, fun t payload flashblock fb hbuilds => ?_⟩
    have hnext := hs.turnBuilds hbuilds none none []
    exact ⟨hnext.partitions, hnext.numbered⟩

end

namespace Sample

/-- The fallback block of a run with one turn. -/
def shownRun : FallbackRun platform config synchronous (run none) :=
  (FallbackRun.ofInputs _ _ _ _).get (by decide +kernel)

def shownTurn : Turn :=
  ⟨some [], [(transfer 7, ⟨false, .execute, fun _ => .allow⟩)], false, some [], none, true, true⟩

/-- The deposit is in the first flashblock and the transfer in the second. -/
theorem shownRun_partition :
    Numbered (buildPayload platform config synchronous (run none)).published ∧
    ∃ payload flashblock fb,
      TurnBuilds platform shownRun.ctx shownRun.start shownTurn payload flashblock fb ∧
      Partitions (turnBottom platform shownRun.ctx shownRun.start shownTurn).info payload.header
        [shownRun.flashblock, flashblock.atIndex fb.flashblockIndex] := by
  obtain ⟨hnumbered, hturns⟩ :=
    (flashblocks_partition platform).2 config synchronous (run none) shownRun
  have hbuilds : TurnBuilds platform shownRun.ctx shownRun.start shownTurn _ _ _ :=
    ⟨by decide, rfl, rfl⟩
  exact ⟨hnumbered, _, _, _, hbuilds, ((hturns [] _ .start).2.2.2 _ _ _ _ hbuilds).1⟩

/-- A sequencer that sends its deposit twice. -/
def repeatedRun : FallbackRun platform config synchronous
    { run none with attributes := { attributes with transactions := [deposit, deposit] } } :=
  (FallbackRun.ofInputs _ _ _ _).get (by decide +kernel)

/-- **One hash, two transactions**: both are in the first flashblock, and only the receipt of the
    second is in its metadata. -/
theorem repeatedRun_loses_receipt :
    repeatedRun.flashblock.transactions =
      repeatedRun.exec.info.executedTransactions.map Tx.encoded ∧
      ¬ ∀ p ∈ repeatedRun.exec.info.receipted,
        repeatedRun.flashblock.metadataReceipts.get? p.1.hash.toNat = some p.2 := by
  decide

end Sample

end XLayerReth.Builder
