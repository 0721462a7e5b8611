import Mathlib.Data.List.Sort
import XLayerReth.Builder.BatchBudgets
import XLayerReth.Builder.Partition

/-!
# Replaying the flashblocks of another builder

Model of `FlashblockPayloadsCache` in `utils/cache.rs`, and what becomes of a published sequence of
flashblocks at a node that takes over.

* `addFlashblockPayload`, `getFlashblocksSequenceTxs` — the cache of the pending sequence, and the
  transactions that are replayed from it: those of every flashblock but the first.
* `getFlashblocksSequenceTxs_eq` — they are found in the published order, whatever the order in
  which the flashblocks arrived.
* `ExecutedAlike`, `Exec.Follows` — what a transaction does not depend on, and a replay that is
  behind the leader only in that.
* `Replayed` — the replay follows the leader transaction by transaction.

The first flashblock also has a builder transaction, if there is a signer.  It is not replayed, and
the builder transactions after it then have the wrong nonce.  Without them, and with transactions of
the pool that do not depend on it, the replay is complete.
-/

set_option autoImplicit false

namespace XLayerReth.Builder

open RcsFilter
open XLayerReth.Lib

/-! ## The cache -/

/-- `FlashblockPayloadsSequence`. -/
structure FlashblockPayloadsSequence where
  payloadId : BitVec 64
  parentHash : Option B256
  payloads : List Flashblock

/-- `parent_hash`, which only the base has. -/
def Flashblock.parentHash (payload : Flashblock) : Option B256 :=
  payload.base.map FlashblockBase.parentHash

/-- `add_flashblock_payload`: a new payload id replaces the sequence. -/
def addFlashblockPayload (payloadId : BitVec 64) (cache : Option FlashblockPayloadsSequence)
    (payload : Flashblock) : Option FlashblockPayloadsSequence :=
  match cache with
  | some sequence =>
    if sequence.payloadId = payloadId then
      some
        { sequence with
          parentHash := if sequence.parentHash.isNone then payload.parentHash
            else sequence.parentHash
          payloads := sequence.payloads ++ [payload] }
    else some ⟨payloadId, payload.parentHash, [payload]⟩
  | none => some ⟨payloadId, payload.parentHash, [payload]⟩

/-- The transactions of one payload are added if it has the next index and all of them decode. -/
def sequenceStep (recoverTx : List UInt8 → Option Recovered) (acc : List Recovered)
    (p : Flashblock × Nat) : Option (List Recovered) :=
  if p.1.index ≠ p.2 + 1 then none
  else (p.1.transactions.mapM recoverTx).map (fun txs => acc ++ txs)

/-- `get_flashblocks_sequence_txs`; `recoverTx` decodes a transaction and recovers its signer. -/
def getFlashblocksSequenceTxs (recoverTx : List UInt8 → Option Recovered)
    (cache : Option FlashblockPayloadsSequence) (parentHash : B256) : Option (List Recovered) :=
  match cache with
  | none => none
  | some sequence =>
    if sequence.parentHash ≠ some parentHash then none
    else
      let payloads := sequence.payloads.mergeSort (fun a b => a.index ≤ b.index)
      (payloads.drop 1).zipIdx.foldlM (sequenceStep recoverTx) []

/-- The cache holds the sequence that is added to it. -/
theorem foldl_addFlashblockPayload (payloadId : BitVec 64) : ∀ (arrived : List Flashblock)
    (sequence : FlashblockPayloadsSequence), sequence.payloadId = payloadId →
    arrived.foldl (addFlashblockPayload payloadId) (some sequence) =
      some ⟨payloadId, arrived.foldl (fun hash payload => hash.or payload.parentHash)
        sequence.parentHash, sequence.payloads ++ arrived⟩
  | [], sequence, hid => by simp [← hid]
  | payload :: arrived, sequence, hid => by
    rw [List.foldl_cons, addFlashblockPayload, if_pos hid, List.foldl_cons]
    refine (foldl_addFlashblockPayload payloadId arrived _ (by exact hid)).trans ?_
    cases sequence.parentHash with
    | none => simp
    | some hash => simp

/-- The first hash that is found is kept. -/
theorem foldl_or_parentHash : ∀ (arrived : List Flashblock) (hash : Option B256),
    arrived.foldl (fun hash payload => hash.or payload.parentHash) hash =
      hash.or (arrived.findSome? Flashblock.parentHash)
  | [], hash => by simp
  | payload :: arrived, hash => by
    rw [List.foldl_cons, foldl_or_parentHash, List.findSome?_cons]
    cases hash with
    | some hash => simp
    | none =>
      cases payload.parentHash with
      | some hash => simp
      | none => simp

/-- After payloads of a new sequence arrived. -/
theorem cache_arrived {payloadId : BitVec 64} {cache : Option FlashblockPayloadsSequence}
    {arrived : List Flashblock} (hcache : ∀ sequence ∈ cache, sequence.payloadId ≠ payloadId)
    (hne : arrived ≠ []) :
    arrived.foldl (addFlashblockPayload payloadId) cache =
      some ⟨payloadId, arrived.findSome? Flashblock.parentHash, arrived⟩ := by
  cases arrived with
  | nil => exact absurd rfl hne
  | cons payload arrived =>
    have hfirst : addFlashblockPayload payloadId cache payload =
        some ⟨payloadId, payload.parentHash, [payload]⟩ := by
      cases cache with
      | none => rfl
      | some sequence => exact if_neg (hcache sequence rfl)
    rw [List.foldl_cons, hfirst, foldl_addFlashblockPayload payloadId arrived _ rfl,
      foldl_or_parentHash, List.findSome?_cons]
    cases payload.parentHash with
    | none => rfl
    | some hash => rfl

/-- Only the first flashblock has a parent hash. -/
theorem Numbered.findSome?_parentHash {published arrived : List Flashblock} {first : Flashblock}
    {parentHash : B256} (h : Numbered published) (hfirst : first ∈ published)
    (hhash : first.parentHash = some parentHash) (harrived : arrived.Perm published) :
    arrived.findSome? Flashblock.parentHash = some parentHash := by
  have hindex : ∀ f ∈ published, f.parentHash.isSome = true → f.index = 0 := by
    intro f hf hsome
    exact (h.base f hf).mp (by simpa [Flashblock.parentHash] using hsome)
  have hnodup : (published.map Flashblock.index).Nodup := by
    rw [h.indices]
    exact List.nodup_range
  cases hfound : arrived.findSome? Flashblock.parentHash with
  | none =>
    have hnone := List.findSome?_eq_none_iff.mp hfound first (harrived.mem_iff.mpr hfirst)
    rw [hhash] at hnone
    cases hnone
  | some hash =>
    obtain ⟨f, hf, hash'⟩ := List.exists_of_findSome?_eq_some hfound
    have hmem := harrived.mem_iff.mp hf
    have hsame : f = first := List.inj_on_of_nodup_map hnodup hmem hfirst (by
      rw [hindex f hmem (by simp [hash']), hindex first hfirst (by simp [hhash])])
    rw [← hhash, ← hsame, hash']

/-- The payloads sorted by their index. -/
theorem pairwise_mergeSort_index (arrived : List Flashblock) :
    (arrived.mergeSort (fun a b => a.index ≤ b.index)).Pairwise
      (fun a b => a.index ≤ b.index) := by
  have htrans : ∀ a b c : Flashblock, decide (a.index ≤ b.index) = true →
      decide (b.index ≤ c.index) = true → decide (a.index ≤ c.index) = true := by
    intro a b c hab hbc
    simp only [decide_eq_true_eq] at *
    omega
  have htotal : ∀ a b : Flashblock,
      (decide (a.index ≤ b.index) || decide (b.index ≤ a.index)) = true := by
    intro a b
    simp only [Bool.or_eq_true, decide_eq_true_eq]
    omega
  exact (List.pairwise_mergeSort htrans htotal arrived).imp (fun hle => by simpa using hle)

/-- Sorting by the index gives the published order back. -/
theorem Numbered.mergeSort_eq {published arrived : List Flashblock} (h : Numbered published)
    (harrived : arrived.Perm published) :
    arrived.mergeSort (fun a b => a.index ≤ b.index) = published := by
  have hsorted := pairwise_mergeSort_index arrived
  have hpublished : published.Pairwise (fun a b => a.index ≤ b.index) := by
    have hrange : (published.map Flashblock.index).Pairwise (· ≤ ·) := by
      rw [h.indices]
      exact List.pairwise_le_range
    exact List.pairwise_map.mp hrange
  have hnodup : (published.map Flashblock.index).Nodup := by
    rw [h.indices]
    exact List.nodup_range
  have hperm := (List.mergeSort_perm arrived (fun a b => a.index ≤ b.index)).trans harrived
  refine hperm.eq_of_pairwise (fun a b ha hb hab hba => ?_) hsorted hpublished
  exact List.inj_on_of_nodup_map hnodup (hperm.mem_iff.mp ha) hb (by omega)

/-- The payloads in order, from index `k + 1` on. -/
theorem sequence_foldlM (recoverTx : List UInt8 → Option Recovered) :
    ∀ (payloads : List Flashblock) (k : Nat) (acc : List Recovered),
      payloads.map Flashblock.index = List.range' (k + 1) payloads.length →
      (payloads.zipIdx k).foldlM (sequenceStep recoverTx) acc =
        ((preconfirmed payloads).mapM recoverTx).map (fun txs => acc ++ txs)
  | [], k, acc, _ => by simp [preconfirmed]
  | payload :: payloads, k, acc, hindices => by
    rw [List.map_cons, List.length_cons, List.range'_succ, List.cons.injEq] at hindices
    obtain ⟨hindex, hrest⟩ := hindices
    have hflat : preconfirmed (payload :: payloads) =
        payload.transactions ++ preconfirmed payloads := rfl
    rw [List.zipIdx_cons, List.foldlM_cons, hflat, List.mapM_append, sequenceStep,
      if_neg (not_not_intro hindex)]
    cases payload.transactions.mapM recoverTx with
    | none => rfl
    | some txs =>
      show (payloads.zipIdx (k + 1)).foldlM (sequenceStep recoverTx) (acc ++ txs) = _
      rw [sequence_foldlM recoverTx payloads (k + 1) (acc ++ txs) hrest]
      cases (preconfirmed payloads).mapM recoverTx with
      | none => rfl
      | some rest => simp

theorem mapM_recoverTx {recoverTx : List UInt8 → Option Recovered} : ∀ {rs : List Recovered},
    (∀ r ∈ rs, recoverTx r.tx.encoded = some r) →
    (rs.map (fun r => r.tx.encoded)).mapM recoverTx = some rs
  | [], _ => rfl
  | r :: rs, h => by
    rw [List.map_cons, List.mapM_cons, h r List.mem_cons_self,
      mapM_recoverTx (fun r' hr' => h r' (List.mem_cons_of_mem _ hr'))]
    rfl

/-- **What is replayed**: the transactions of every flashblock but the first, in the published
    order, whatever the order in which the flashblocks arrived. -/
theorem getFlashblocksSequenceTxs_eq {recoverTx : List UInt8 → Option Recovered}
    {payloadId : BitVec 64} {cache : Option FlashblockPayloadsSequence}
    {published arrived : List Flashblock} {first : Flashblock} {parentHash : B256}
    {rs : List Recovered} (hnumbered : Numbered published) (hfirst : first ∈ published)
    (hhash : first.parentHash = some parentHash)
    (hcache : ∀ sequence ∈ cache, sequence.payloadId ≠ payloadId)
    (harrived : arrived.Perm published)
    (hrest : preconfirmed (published.drop 1) = rs.map (fun r => r.tx.encoded))
    (hrecovers : ∀ r ∈ rs, recoverTx r.tx.encoded = some r) :
    getFlashblocksSequenceTxs recoverTx (arrived.foldl (addFlashblockPayload payloadId) cache)
      parentHash = some rs := by
  have hne : arrived ≠ [] := by
    rintro rfl
    rw [List.nil_perm.mp harrived] at hfirst
    cases hfirst
  have hindices : (published.drop 1).map Flashblock.index =
      List.range' (0 + 1) (published.drop 1).length := by
    rw [List.map_drop, hnumbered.indices, List.range_eq_range', List.drop_range', List.length_drop]
  rw [cache_arrived hcache hne, getFlashblocksSequenceTxs]
  dsimp only
  rw [hnumbered.findSome?_parentHash hfirst hhash harrived, if_neg (not_not_intro rfl),
    hnumbered.mergeSort_eq harrived, sequence_foldlM recoverTx _ 0 [] hindices, hrest,
    mapM_recoverTx hrecovers]
  rfl

section

variable {Db Changes Env : Type} {P : Platform Db Changes Env} {B : BuilderTxPlatform Db Env}
  {ctx : BuilderCtx Env}

/-! ## One replayed transaction -/

/-- The transactions of the block so far, and what the next one is executed on and checked
    against. -/
def Exec.chain (x : Exec Db Changes) : Db × List Tx × Nat × Nat × Option Nat :=
  (x.db, x.info.executedTransactions, x.info.cumulativeGasUsed, x.info.cumulativeDaBytesUsed,
    x.info.daFootprintScalar)

/-- A replay `y` of what the leader has at `x`: it is on a related state, and has used no more. -/
structure Exec.Follows (R : Db → Db → Prop) (y x : Exec Db Changes) : Prop where
  db : R x.db y.db
  accounts : y.Accounts x

variable (P ctx) in
/-- A transaction that is executed on a state is executed alike on a related one, and the states
    stay related: it does not depend on what they differ in. -/
def ExecutedAlike (R : Db → Db → Prop) (tx : Tx) : Prop :=
  ∀ db db' gasless result changes, R db db' → isGasless P ctx db tx = .ok gasless →
    P.transact ctx.evmEnv db tx gasless = .ok (result, changes) →
      isGasless P ctx db' tx = .ok gasless ∧
      ∃ changes', P.transact ctx.evmEnv db' tx gasless = .ok (result, changes') ∧
        R (P.commit db changes) (P.commit db' changes')

/-- On one state there is nothing to differ in. -/
theorem executedAlike_eq (tx : Tx) : ExecutedAlike P ctx Eq tx := by
  rintro db _ gasless result changes rfl hgasless htransact
  exact ⟨hgasless, changes, htransact, rfl⟩

variable {R : Db → Db → Prop}

theorem Exec.Follows.of_chain {x x' y : Exec Db Changes} (h : y.Follows R x)
    (hx : x'.chain = x.chain) : y.Follows R x' := by
  simp only [Exec.chain, Prod.mk.injEq] at hx
  obtain ⟨hdb, -, hgas, hda, hscalar⟩ := hx
  refine ⟨?_, hscalar.trans h.accounts.scalar, ?_, ?_⟩
  · rw [hdb]
    exact h.db
  · rw [hgas]
    exact h.accounts.gas
  · rw [hda]
    exact h.accounts.da

variable (P ctx) in
/-- A transaction fits in what is left of the limits of the block. -/
def FitsBlock (info : ExecutionInfo) (tx : Tx) : Prop :=
  info.isTxOverLimits (P.txEstimatedSizeFjordBytes tx.encoded) (ctx.blockGasLimit P)
    ctx.maxDaTxSize ctx.maxDaBlockSize tx.gasLimit info.daFootprintScalar
    (info.daFootprintScalar.map (fun _ => ctx.blockGasLimit P)) = .ok ()

/-- Where less is used, more fits. -/
theorem FitsBlock.of_accounts {x y : Exec Db Changes} {tx : Tx} (h : y.Accounts x)
    (hfits : FitsBlock P ctx x.info tx) : FitsBlock P ctx y.info tx := by
  unfold FitsBlock at *
  rw [h.scalar, isTxOverLimits_eq_ok] at hfits
  rw [isTxOverLimits_eq_ok]
  obtain ⟨htx, hda, hfootprint, hgas⟩ := hfits
  have hdaMono := saturatingAdd_mono h.da (P.txEstimatedSizeFjordBytes tx.encoded)
  refine ⟨htx, fun limit hlimit => hdaMono.trans (hda limit hlimit), fun scalar hscalar => ?_,
    (saturatingAdd_mono h.gas _).trans hgas⟩
  exact (saturatingMul_mono hdaMono scalar).trans (hfootprint scalar hscalar)

variable (P ctx) in
/-- A transaction of the leader that a replay takes over. -/
structure Committed.TakenOver (c : Committed Changes) (R : Db → Db → Prop) (x : Exec Db Changes) :
    Prop where
  fits : FitsBlock P ctx x.info c.tx.tx
  notBlob : c.tx.tx.isEip4844 = false
  notDeposit : c.tx.tx.isDeposit = false
  isGasless : isGasless P ctx x.db c.tx.tx = .ok c.gasless
  transact : P.transact ctx.evmEnv x.db c.tx.tx c.gasless = .ok (c.result, c.changes)
  alike : ExecutedAlike P ctx R c.tx.tx
  daSize : c.daSize = P.txEstimatedSizeFjordBytes c.tx.tx.encoded

/-- The replay of a transaction, behind the leader that executed it. -/
theorem Committed.TakenOver.cachedTxStep {c : Committed Changes} {x y : Exec Db Changes}
    (h : c.TakenOver P ctx R x) (hy : y.Follows R x) :
    ∃ y', cachedTxStep P ctx y c.tx = .ok y' ∧
      y'.info.executedTransactions = y.info.executedTransactions ++ [c.tx.tx] ∧
      y'.Follows R (x.append P ctx c) := by
  obtain ⟨hgasless, changes, htransact, hrelated⟩ :=
    h.alike _ _ _ _ _ hy.db h.isGasless h.transact
  have hfits : y.info.isTxOverLimits (P.txEstimatedSizeFjordBytes c.tx.tx.encoded)
      (ctx.blockGasLimit P) ctx.maxDaTxSize ctx.maxDaBlockSize c.tx.tx.gasLimit
      y.info.daFootprintScalar (y.info.daFootprintScalar.map (fun _ => ctx.blockGasLimit P)) =
        .ok () := h.fits.of_accounts hy.accounts
  have hanswer : (transactMaybeGasless P ctx y.db none c.tx.tx).1 =
      .ok (c.result, changes, c.gasless, .passthrough) := by
    simp [transactMaybeGasless, hgasless, htransact, captured]
  refine ⟨y.appendPriced P ctx ⟨.cached, c.tx, c.gasless, none, c.result, changes,
    P.txEstimatedSizeFjordBytes c.tx.tx.encoded⟩, ?_, rfl, hrelated, hy.accounts.scalar, ?_, ?_⟩
  · rw [Builder.cachedTxStep, hfits, hanswer]
    simp [h.notBlob, h.notDeposit]
  · exact Nat.add_le_add_right hy.accounts.gas c.result.gasUsed
  · rw [← h.daSize]
    exact Nat.add_le_add_right hy.accounts.da c.daSize

/-! ## Following the leader -/

variable (P ctx) in
/-- Some transactions lead the leader from `x` to `x'`, and their replay follows it there. -/
def Replayed (recoverTx : List UInt8 → Option Recovered) (R : Db → Db → Prop)
    (x x' : Exec Db Changes) : Prop :=
  ∃ rs : List Recovered, (∀ r ∈ rs, recoverTx r.tx.encoded = some r) ∧
    x'.info.executedTransactions = x.info.executedTransactions ++ rs.map Recovered.tx ∧
    ∀ y : Exec Db Changes, y.Follows R x →
      ∃ y', rs.foldlM (cachedTxStep P ctx) y = .ok y' ∧
        y'.info.executedTransactions = y.info.executedTransactions ++ rs.map Recovered.tx ∧
        y'.Follows R x'

variable {recoverTx : List UInt8 → Option Recovered} {x x' x'' : Exec Db Changes}

/-- Flags that the replay does not look at. -/
theorem Replayed.of_chain (h : x'.chain = x.chain) : Replayed P ctx recoverTx R x x' := by
  have htransactions : x'.info.executedTransactions = x.info.executedTransactions :=
    congrArg (fun c => c.2.1) h
  exact ⟨[], by simp, by simpa using htransactions,
    fun y hy => ⟨y, rfl, (List.append_nil _).symm, hy.of_chain h⟩⟩

theorem Replayed.trans (h : Replayed P ctx recoverTx R x x')
    (h' : Replayed P ctx recoverTx R x' x'') : Replayed P ctx recoverTx R x x'' := by
  obtain ⟨rs, hrecovers, htransactions, hreplay⟩ := h
  obtain ⟨rs', hrecovers', htransactions', hreplay'⟩ := h'
  refine ⟨rs ++ rs', fun r hr => ?_, ?_, fun y hy => ?_⟩
  · rcases List.mem_append.mp hr with hr | hr
    · exact hrecovers r hr
    · exact hrecovers' r hr
  · rw [htransactions', htransactions, List.map_append, List.append_assoc]
  · obtain ⟨y₁, hy₁, hadded₁, hfollows₁⟩ := hreplay y hy
    obtain ⟨y₂, hy₂, hadded₂, hfollows₂⟩ := hreplay' y₁ hfollows₁
    refine ⟨y₂, ?_, ?_, hfollows₂⟩
    · rw [foldlM_append, hy₁]
      exact hy₂
    · rw [hadded₂, hadded₁, List.map_append, List.append_assoc]

theorem Replayed.single {c : Committed Changes} (h : c.TakenOver P ctx R x)
    (hrecovers : recoverTx c.tx.tx.encoded = some c.tx)
    (hx' : x'.chain = (x.append P ctx c).chain) : Replayed P ctx recoverTx R x x' := by
  have htransactions : x'.info.executedTransactions = x.info.executedTransactions ++ [c.tx.tx] :=
    congrArg (fun c => c.2.1) hx'
  refine ⟨[c.tx], by simpa using hrecovers, htransactions, fun y hy => ?_⟩
  obtain ⟨y', hy', hadded, hfollows⟩ := h.cachedTxStep hy
  refine ⟨y', ?_, hadded, hfollows.of_chain hx'⟩
  rw [foldlM_cons, hy']
  rfl

variable (P ctx) in
/-- The limits of a round are within those of the block. -/
structure TransactionLimits.WithinBlock (limits : TransactionLimits)
    (daFootprintScalar : Option Nat) : Prop where
  gas : limits.blockGas ≤ ctx.blockGasLimit P
  da : ∀ blockLimit ∈ ctx.maxDaBlockSize, ∃ limit ∈ limits.blockDa, limit ≤ blockLimit
  daFootprint : ∀ scalar ∈ daFootprintScalar,
    limits.blockDaFootprint.getD limits.blockGas ≤ ctx.blockGasLimit P

variable (P) in
/-- The pool's estimate is that of the encoded bytes, and the encoding decodes. -/
structure Candidate.PublishesAs (c : Candidate) (recoverTx : List UInt8 → Option Recovered) :
    Prop where
  daSize : c.estimatedDaSize = P.txEstimatedSizeFjordBytes c.tx.tx.encoded
  recovers : recoverTx c.tx.tx.encoded = some c.tx

theorem Accepted.replayed {limits : TransactionLimits} {c : Candidate} {gasless : Bool}
    {result : ExecutionResult} {changes : Changes}
    (h : Accepted P ctx limits c gasless result changes x x')
    (hlimits : limits.WithinBlock P ctx x.info.daFootprintScalar)
    (hc : c.PublishesAs P recoverTx) (halike : ExecutedAlike P ctx R c.tx.tx) :
    Replayed P ctx recoverTx R x x' := by
  obtain ⟨htx, hda, hfootprint, hgas⟩ := isTxOverLimits_eq_ok.mp h.fits
  have hfits : FitsBlock P ctx x.info c.tx.tx := by
    unfold FitsBlock
    rw [← hc.daSize]
    refine isTxOverLimits_eq_ok.mpr ⟨htx, fun blockLimit hblock => ?_, fun scalar hscalar => ?_, ?_⟩
    · obtain ⟨limit, hlimit, hle⟩ := hlimits.da blockLimit hblock
      exact (hda limit hlimit).trans hle
    · rw [Option.mem_def.mp hscalar, Option.map_some, Option.getD_some]
      exact (hfootprint scalar hscalar).trans (hlimits.daFootprint scalar hscalar)
    · exact hgas.trans hlimits.gas
  refine Replayed.single (c := ⟨.pool, c.tx, gasless, none, result, changes, c.estimatedDaSize⟩)
    ⟨hfits, h.notBlob, h.notDeposit, h.isGasless, h.transact, halike, hc.daSize⟩ hc.recovers ?_
  rw [h.appended]
  rfl

/-- The scalar does not change along a round. -/
theorem considerTx_replayed {limits : TransactionLimits} {s s' : LoopState Db Changes}
    {cv : Candidate × Verdicts} (h : considerTx P ctx limits s cv = .ok s')
    (hlimits : limits.WithinBlock P ctx s.exec.info.daFootprintScalar)
    (hcv : cv.1.PublishesAs P recoverTx) (halike : ExecutedAlike P ctx R cv.1.tx.tx) :
    Replayed P ctx recoverTx R s.exec s'.exec := by
  rcases considerTx_cases h with hsame | hspent | ⟨gasless, result, changes, haccepted⟩
  · rw [hsame]
    exact .of_chain rfl
  · rw [hspent]
    exact .of_chain rfl
  · exact haccepted.replayed hlimits hcv halike

theorem runTxLoop_replayed {limits : TransactionLimits} :
    ∀ {candidates : List (Candidate × Verdicts)} {s : LoopState Db Changes},
      limits.WithinBlock P ctx s.exec.info.daFootprintScalar →
      (∀ cv ∈ candidates, cv.1.PublishesAs P recoverTx) →
      (∀ cv ∈ candidates, ExecutedAlike P ctx R cv.1.tx.tx) →
      Replayed P ctx recoverTx R s.exec (runTxLoop P ctx limits s candidates).1.exec
  | [], _, _, _, _ => .of_chain rfl
  | cv :: rest, s, hlimits, hcandidates, halike => by
    unfold runTxLoop
    split
    · rename_i s' hstep
      have hscalar := ((accounts_path P ctx).considerTx hstep).scalar
      refine (considerTx_replayed hstep hlimits (hcandidates cv List.mem_cons_self)
        (halike cv List.mem_cons_self)).trans (runTxLoop_replayed ?_
          (fun cv' hcv => hcandidates cv' (List.mem_cons_of_mem _ hcv))
          (fun cv' hcv => halike cv' (List.mem_cons_of_mem _ hcv)))
      rw [hscalar]
      exact hlimits
    · exact .of_chain rfl

/-! ## Builder transactions -/

variable (P ctx) in
/-- Each builder transaction of a position that the EVM accepts is within the limits of the block
    when it is added, is not taken for a gasless one, and does not depend on what was left out. -/
def BuilderTxsFit (R : Db → Db → Prop) (topOfBlock : Bool) (x : Exec Db Changes)
    (simulated : Option (List BuilderTransactionCtx)) : Prop :=
  ∀ b ∈ positionTxs topOfBlock simulated, b.acceptedAt P ctx x.db = true →
    FitsBlock P ctx x.info b.signedTx.tx ∧ isGasless P ctx x.db b.signedTx.tx = .ok false ∧
      ExecutedAlike P ctx R b.signedTx.tx

theorem signBuilderTx_daSize {signer : Address} {gasUsed : Nat} {isTopOfBlock : Bool}
    {request : TxEip1559} {b : BuilderTransactionCtx}
    (h : signBuilderTx P B signer gasUsed isTopOfBlock request = some b) :
    b.daSize = P.txEstimatedSizeFjordBytes b.signedTx.tx.encoded := by
  unfold signBuilderTx at h
  cases hsign : B.signTx signer request with
  | none => simp [hsign] at h
  | some signed =>
    simp only [hsign, Option.map_some, Option.some.injEq] at h
    rw [← h]

theorem simulateBuilderTx_daSize {signer : Option Address} {db : Db}
    {simulated : Option BuilderTransactionCtx}
    (h : simulateBuilderTx P B ctx signer db = some simulated) :
    ∀ b ∈ simulated, b.daSize = P.txEstimatedSizeFjordBytes b.signedTx.tx.encoded := by
  intro b hb
  rw [Option.mem_def.mp hb] at h
  cases signer with
  | none => simp [simulateBuilderTx] at h
  | some signer =>
    simp only [simulateBuilderTx, signedBuilderTx, Option.bind_eq_bind, Option.map_eq_some_iff,
      Option.bind_eq_some_iff, Option.some.injEq, exists_eq_right] at h
    obtain ⟨nonce, -, hsign⟩ := h
    exact signBuilderTx_daSize hsign

/-- After the fallback block there is at most one builder transaction, with the estimate of its
    encoded bytes. -/
theorem simulateBuilderTxs_later {builderTx : FlashblocksBuilderTx} {db : Db}
    {isLastFlashblock : Bool} {builderTxs : List BuilderTransactionCtx}
    (h : simulateBuilderTxs P B ctx builderTx db false isLastFlashblock = some builderTxs) :
    ∃ simulated : Option BuilderTransactionCtx, builderTxs = simulated.toList ∧
      ∀ b ∈ simulated, b.daSize = P.txEstimatedSizeFjordBytes b.signedTx.tx.encoded := by
  cases builderTx with
  | base signer =>
    cases isLastFlashblock with
    | false =>
      exact ⟨none, by simpa [simulateBuilderTxs, simulateBaseBuilderTxs] using h.symm, by simp⟩
    | true =>
      simp only [simulateBuilderTxs, simulateBaseBuilderTxs, Bool.false_eq_true, if_false, if_true,
        Option.bind_eq_bind, Option.bind_some, Option.bind_eq_some_iff, Option.toList_none,
        List.nil_append, Option.some.injEq] at h
      obtain ⟨last, hlast, rfl⟩ := h
      exact ⟨last, rfl, simulateBuilderTx_daSize hlast⟩
  | numberContract signer address =>
    simp only [simulateBuilderTxs, simulateNumberContractBuilderTxs, Bool.false_eq_true,
      if_false] at h
    cases hcall : signedIncrementFlashblocksTx P B ctx signer address db with
    | some tx =>
      simp only [hcall, Option.some.injEq] at h
      refine ⟨some tx, h.symm, fun b hb => ?_⟩
      cases hb
      simp only [signedIncrementFlashblocksTx, Option.bind_eq_bind, Option.bind_eq_some_iff]
        at hcall
      obtain ⟨gasUsed, -, nonce, -, hsign⟩ := hcall
      exact signBuilderTx_daSize hsign
    | none =>
      simp only [hcall] at h
      obtain ⟨tx, htx, rfl⟩ := Option.map_eq_some_iff.mp h
      refine ⟨tx.map BuilderTransactionCtx.setTopOfBlock, rfl, fun b hb => ?_⟩
      obtain ⟨b', hb', rfl⟩ := Option.map_eq_some_iff.mp hb
      exact simulateBuilderTx_daSize htx b' hb'

/-- The builder transactions of one position of a turn. -/
theorem addBuilderTxs_replayed {builderTx : FlashblocksBuilderTx} {fb : FlashblocksState}
    {topOfBlock : Bool} {simulated : Option (List BuilderTransactionCtx)}
    (hindex : 0 < fb.flashblockIndex) (hsim : SimulatedFor P B ctx builderTx fb x.db simulated)
    (hrecovers : ∀ b ∈ simulated.getD [], recoverTx b.signedTx.tx.encoded = some b.signedTx)
    (hfits : BuilderTxsFit P ctx R topOfBlock x simulated) :
    Replayed P ctx recoverTx R x (addBuilderTxs P ctx topOfBlock x simulated).1 := by
  have hfirst : fb.isFirstFlashblock = false := by
    simp only [FlashblocksState.isFirstFlashblock, decide_eq_false_iff_not]
    omega
  have hone : ∃ b : Option BuilderTransactionCtx, simulated.getD [] = b.toList ∧
      ∀ b' ∈ b, b'.daSize = P.txEstimatedSizeFjordBytes b'.signedTx.tx.encoded := by
    rcases hsim with rfl | hsim
    · exact ⟨none, rfl, by simp⟩
    · rw [hfirst] at hsim
      cases simulated with
      | none => exact ⟨none, rfl, by simp⟩
      | some builderTxs => exact simulateBuilderTxs_later hsim.symm
  obtain ⟨b, hb, hdaSize⟩ := hone
  obtain ⟨bs, cs, hbs, hcs, hexecuted, hresult⟩ :=
    addBuilderTxs_appends P ctx topOfBlock x simulated
  rw [hresult]
  rw [hb] at hbs hrecovers
  -- what was committed is the one simulated transaction, or nothing
  have hlength : bs.length ≤ 1 := by
    refine hbs.length_le.trans ((List.length_filter_le _ _).trans ?_)
    cases b <;> simp
  cases hcs with
  | nil => exact .of_chain rfl
  | @cons b' c bs' cs' hc hrest =>
    obtain rfl : bs' = [] := by
      rw [List.length_cons] at hlength
      exact List.length_eq_zero_iff.mp (by omega)
    cases hrest
    have hmem := hbs.subset List.mem_cons_self
    obtain ⟨hblock, hgasless, halike⟩ := hfits b' (by rw [positionTxs, hb]; exact hmem)
      (hc.acceptedAt hexecuted.1)
    have hmem := (List.mem_filter.mp hmem).1
    have htype : c.tx.tx.txType = .eip1559 := by rw [hc.tx, b'.eip1559]
    have hreplayable : c.TakenOver P ctx R x :=
      { fits := by rw [hc.tx]; exact hblock
        notBlob := by simp [Tx.isEip4844, htype]
        notDeposit := by simp [Tx.isDeposit, htype]
        isGasless := by rw [hc.tx, hc.gasless]; exact hgasless
        transact := hexecuted.1.transact
        alike := by rw [hc.tx]; exact halike
        daSize := by
          rw [hc.daSize, hc.tx]
          exact hdaSize b' (Option.mem_toList.mp hmem) }
    have hrecovered : recoverTx c.tx.tx.encoded = some c.tx := by
      rw [hc.tx]
      exact hrecovers b' hmem
    exact Replayed.single hreplayable hrecovered rfl

/-! ## A published sequence -/

theorem turnTransactionLimits_withinBlock {scalar : Option Nat} {n k : Nat}
    {s : BuildState Db Changes} {t : Turn} (hbatch : BatchState P ctx scalar n k s.fbState)
    (htargets : DaTargets P ctx scalar n k s.fbState)
    (hscalar : s.exec.info.daFootprintScalar = scalar) (hk : k ≤ n) :
    (turnTransactionLimits P ctx s t).WithinBlock P ctx scalar := by
  have hshares : ∀ limit, k * (limit / n) ≤ limit := fun limit =>
    (Nat.mul_le_mul_right _ hk).trans (Nat.mul_div_le limit n)
  have htop := ((accounts_path P ctx).addBuilderTxs true s.exec t.topSimulated).scalar
  rw [turnTransactionLimits_eq]
  refine ⟨Nat.min_le_right _ _, fun limit hlimit => ?_, fun footprint hfootprint => ?_⟩
  · refine ⟨k * (limit / n) - ((turnReserved P ctx s t).map BuilderTransactionCtx.daSize).sum, ?_,
      (Nat.sub_le _ _).trans (hshares limit)⟩
    rw [Option.mem_def] at hlimit
    simp [htargets.da, hlimit]
  · have htopScalar : (turnTop P ctx s t).1.info.daFootprintScalar = some footprint :=
      (htop.trans hscalar).trans hfootprint
    obtain rfl : scalar = some footprint := hfootprint
    simp only [htargets.daFootprint, Option.map_some, htopScalar, Option.getD_some]
    exact (Nat.sub_le _ _).trans (hshares (ctx.blockGasLimit P))

variable (P) in
/-- What is published of a turn decodes, and the pool estimated its candidates from it. -/
structure Turn.PublishesAs (t : Turn) (recoverTx : List UInt8 → Option Recovered) : Prop where
  candidates : ∀ cv ∈ t.candidates, cv.1.PublishesAs P recoverTx
  top : ∀ b ∈ t.topSimulated.getD [], recoverTx b.signedTx.tx.encoded = some b.signedTx
  bottom : ∀ b ∈ t.bottomSimulated.getD [], recoverTx b.signedTx.tx.encoded = some b.signedTx

variable (P ctx) in
/-- The builder transactions of a turn are within the limits of the block, and depend on nothing
    that was left out. -/
structure Turn.BuilderTxsFit (t : Turn) (R : Db → Db → Prop) (s : BuildState Db Changes) :
    Prop where
  top : Builder.BuilderTxsFit P ctx R true s.exec t.topSimulated
  bottom : Builder.BuilderTxsFit P ctx R false (turnRound P ctx s t).1.exec t.bottomSimulated

theorem turnBottom_replayed {builderTx : FlashblocksBuilderTx} {scalar : Option Nat} {n k : Nat}
    {s : BuildState Db Changes} {t : Turn} (hbatch : BatchState P ctx scalar n (k + 1) s.fbState)
    (htargets : DaTargets P ctx scalar n (k + 1) s.fbState)
    (hscalar : s.exec.info.daFootprintScalar = scalar) (hk : k + 1 ≤ n)
    (hsim : t.SimulatedBy P B ctx builderTx s) (hpublishes : t.PublishesAs P recoverTx)
    (halike : ∀ cv ∈ t.candidates, ExecutedAlike P ctx R cv.1.tx.tx)
    (hfits : t.BuilderTxsFit P ctx R s) :
    Replayed P ctx recoverTx R s.exec (turnBottom P ctx s t) := by
  have hindex : 0 < s.fbState.flashblockIndex := by
    rw [hbatch.index]
    omega
  have htop : Replayed P ctx recoverTx R s.exec (turnTop P ctx s t).1 :=
    addBuilderTxs_replayed hindex hsim.top hpublishes.top hfits.top
  have hround : Replayed P ctx recoverTx R (turnTop P ctx s t).1 (turnRound P ctx s t).1.exec := by
    refine runTxLoop_replayed ?_ hpublishes.candidates halike
    have hkept := ((accounts_path P ctx).addBuilderTxs true s.exec t.topSimulated).scalar
    show (turnTransactionLimits P ctx s t).WithinBlock P ctx
      (addBuilderTxs P ctx true s.exec t.topSimulated).1.info.daFootprintScalar
    rw [hkept, hscalar]
    exact turnTransactionLimits_withinBlock hbatch htargets hscalar hk
  have hbottom : Replayed P ctx recoverTx R (turnRound P ctx s t).1.exec (turnBottom P ctx s t) :=
    addBuilderTxs_replayed hindex hsim.bottom hpublishes.bottom hfits.bottom
  exact (htop.trans hround).trans hbottom

/-- A fresh run with the pool in use adds the builder transactions to the sequencer's. -/
theorem FallbackRun.exec_eq {builder : BuilderConfig} {config : FlashblocksConfig}
    {i : RunInputs Db} (r : FallbackRun P builder config i) (hfresh : r.rebuilds = false)
    (hpool : r.ctx.attributes.noTxPool = false) :
    r.exec = (addBuilderTxs P r.ctx false r.pre i.simulated).1 := by
  have hnone : cachedSequence r.ctx i.cachedTxs = none := by
    unfold FallbackRun.rebuilds at hfresh
    simpa using hfresh
  unfold FallbackRun.exec executeFallback
  rw [hnone]
  simp [hpool]

variable (P) in
/-- What a run of the leader must give for its flashblocks to be replayed.  Related states differ in
    what the builder transactions of the fallback block did: they are equal if there were none. -/
structure FallbackRun.Replayable {builder : BuilderConfig} {config : FlashblocksConfig}
    {i : RunInputs Db} (r : FallbackRun P builder config i) (B : BuilderTxPlatform Db Env)
    (builderTx : FlashblocksBuilderTx) (recoverTx : List UInt8 → Option Recovered)
    (R : Db → Db → Prop) : Prop where
  simulated : EachTurn P r.ctx r.start i.turns (fun s t => t.SimulatedBy P B r.ctx builderTx s)
  publishes : ∀ t ∈ i.turns, t.PublishesAs P recoverTx
  leftOut : R (addBuilderTxs P r.ctx false r.pre i.simulated).1.db r.pre.db
  candidates : ∀ t ∈ i.turns, ∀ cv ∈ t.candidates, ExecutedAlike P r.ctx R cv.1.tx.tx
  fits : EachTurn P r.ctx r.start i.turns (fun s t => t.BuilderTxsFit P r.ctx R s)

namespace FallbackRun

variable {builder : BuilderConfig} {config : FlashblocksConfig} {i : RunInputs Db}
  {r : FallbackRun P builder config i} {builderTx : FlashblocksBuilderTx}

theorem turnBottom_replayed (h : r.Replayable P B builderTx recoverTx R) {done : List Turn}
    {t : Turn} {s : BuildState Db Changes} (hdone : TurnsFrom P r.ctx r.start done s)
    (hstarts : done ++ [t] <+: i.turns)
    (hindex : s.fbState.flashblockIndex ≤ s.fbState.targetFlashblockCount) :
    Replayed P r.ctx recoverTx R s.exec (turnBottom P r.ctx s t) := by
  have hstart : BatchState P r.ctx r.exec.info.daFootprintScalar (i.targetFlashblocks config)
      1 r.start.fbState := firstFbState_batch _ _ _
  have hbatch := hdone.batchState hstart
  rw [hbatch.index, hbatch.count] at hindex
  have hle : done.length + 1 ≤ i.targetFlashblocks config := by omega
  obtain ⟨hbatch, htargets⟩ := hdone.targets h.simulated hstart (firstFbState_targets _ _ _)
    ((List.prefix_append _ _).trans hstarts) hle
  have hmem : t ∈ i.turns := hstarts.subset (by simp)
  have hindex' : s.fbState.flashblockIndex ≤ s.fbState.targetFlashblockCount := by
    rw [hbatch.index, hbatch.count]
    exact hle
  exact Builder.turnBottom_replayed hbatch htargets ((accounts_path P r.ctx).turns hdone).scalar hle
    (h.simulated done t s hstarts hdone hindex') (h.publishes t hmem) (h.candidates t hmem)
    (h.fits done t s hstarts hdone hindex')

theorem turns_replayed (h : r.Replayable P B builderTx recoverTx R) {done : List Turn}
    {s : BuildState Db Changes} (hdone : TurnsFrom P r.ctx r.start done s)
    (hstarts : done <+: i.turns) : Replayed P r.ctx recoverTx R r.exec s.exec := by
  induction hdone with
  | start => exact .of_chain rfl
  | turn hbefore hindex hturn ih =>
    obtain ⟨payload, flashblock, fb, -, -, -, rfl⟩ := buildNextFlashblock_built hturn
    exact (ih ((List.prefix_append _ _).trans hstarts)).trans
      (turnBottom_replayed h hbefore hstarts hindex)

/-- The first flashblock that is published is that of the fallback block. -/
theorem prefix_published {done : List Turn} {s : BuildState Db Changes}
    (h : TurnsFrom P r.ctx r.start done s) : [r.flashblock] <+: s.published := by
  induction h with
  | start => exact List.prefix_refl _
  | turn _ _ hturn ih =>
    obtain ⟨payload, flashblock, fb, -, -, -, rfl⟩ := buildNextFlashblock_built hturn
    exact ih.trans (List.prefix_append _ _)

theorem parentHash_flashblock (r : FallbackRun P builder config i) :
    r.flashblock.parentHash = some i.parentHash := by
  obtain ⟨header, beaconRoot, -, -, hflashblock, -⟩ := tryBuildBlock_built r.built
  obtain ⟨data, env, -, -, hctx⟩ := getOpPayloadBuilderCtx_eq_some.mp r.context
  rw [hflashblock]
  show some r.ctx.parentHash = some i.parentHash
  rw [hctx]
  rfl

theorem prefix_outcome (r : FallbackRun P builder config i)
    (hne : (buildPayload P builder config i).published ≠ []) :
    [r.flashblock] <+: (buildPayload P builder config i).published := by
  rcases r.published_cases with hnone | ⟨-, -, done, s, hdone, -, hsame | hturn⟩
  · exact absurd hnone hne
  · rw [hsame]
    exact prefix_published hdone
  · obtain ⟨t, payload, flashblock, fb, -, -, -, hnew⟩ := hturn
    rw [hnew]
    exact (prefix_published hdone).trans (List.prefix_append _ _)

/-- The state after the sequencer's transactions is behind that after the fallback block. -/
theorem pre_follows (h : r.Replayable P B builderTx recoverTx R) (hfresh : r.rebuilds = false)
    (hpool : r.ctx.attributes.noTxPool = false) : r.pre.Follows R r.exec := by
  rw [r.exec_eq hfresh hpool]
  exact ⟨h.leftOut, (accounts_path P r.ctx).addBuilderTxs false r.pre i.simulated⟩

/-- The transactions of the later flashblocks are replayed on the state after the sequencer's. -/
theorem published_replayed (h : r.Replayable P B builderTx recoverTx R)
    (hne : (buildPayload P builder config i).published ≠ []) :
    ∃ (rs : List Recovered) (y : Exec Db Changes),
      (∀ r ∈ rs, recoverTx r.tx.encoded = some r) ∧
      preconfirmed ((buildPayload P builder config i).published.drop 1) =
        rs.map (fun r => r.tx.encoded) ∧
      rs.foldlM (cachedTxStep P r.ctx) r.pre = .ok y ∧
      y.info.executedTransactions = r.pre.info.executedTransactions ++ rs.map Recovered.tx := by
  obtain ⟨db₁, hturns⟩ := r.published
  rcases r.published_cases with hnone | ⟨hfresh, hpool, done, s, hdone, hstarts, hend⟩
  · exact absurd hnone hne
  · have hreplayed := turns_replayed h hdone hstarts
    -- the block that was published last
    obtain ⟨x, hx, hshown⟩ : ∃ x, Replayed P r.ctx recoverTx R r.exec x ∧
        preconfirmed (buildPayload P builder config i).published =
          x.info.executedTransactions.map Tx.encoded := by
      rcases hend with hsame | ⟨t, payload, flashblock, fb, hnext, hindex, hbuilds, hnew⟩
      · exact ⟨s.exec, hreplayed, hsame ▸ (hturns hdone).1.partitions.transactions⟩
      · refine ⟨turnBottom P r.ctx s t,
          hreplayed.trans (turnBottom_replayed h hdone hnext hindex), ?_⟩
        rw [hnew]
        exact ((hturns hdone).1.turnBuilds hbuilds none none []).partitions.transactions
    obtain ⟨rest, hrest⟩ := r.prefix_outcome hne
    obtain ⟨rs, hrecovers, htransactions, hreplay⟩ := hx
    obtain ⟨y, hy, hadded, -⟩ := hreplay r.pre (pre_follows h hfresh hpool)
    have hbase : r.flashblock.transactions = r.exec.info.executedTransactions.map Tx.encoded := by
      have hpartitions := (hturns .start).1.partitions.transactions
      simpa [FallbackRun.start, preconfirmed] using hpartitions
    refine ⟨rs, y, hrecovers, ?_, hy, hadded⟩
    rw [← hrest] at hshown ⊢
    rw [List.singleton_append, List.drop_succ_cons, List.drop_zero]
    have hsplit : r.flashblock.transactions ++ preconfirmed rest =
        x.info.executedTransactions.map Tx.encoded := by
      simpa [preconfirmed] using hshown
    rw [hbase, htransactions, List.map_append] at hsplit
    rw [List.append_cancel_left hsplit, List.map_map]
    rfl

end FallbackRun

/-! ## The node that takes over -/

/-- A node without the filter, on the same chain and with the same limits. -/
structure BuilderConfig.FailsOverFrom (builder' builder : BuilderConfig) : Prop where
  filter : builder'.filter = none
  chainSpec : builder'.chainSpec = builder.chainSpec
  gasLimitConfig : builder'.gasLimitConfig = builder.gasLimitConfig
  maxDaTxSize : builder'.maxDaTxSize = builder.maxDaTxSize
  maxDaBlockSize : builder'.maxDaBlockSize = builder.maxDaBlockSize
  gaslessContract : builder'.gaslessContract = builder.gaslessContract

/-- Its context executes the transactions of the sequencer and of the cache alike. -/
theorem BuilderConfig.FailsOverFrom.context {builder builder' : BuilderConfig}
    (h : builder'.FailsOverFrom builder) {parent : Header} {parentHash : B256}
    {attributes : PayloadAttributes}
    (hctx : getOpPayloadBuilderCtx P builder parent parentHash attributes = some ctx) :
    ∃ ctx', getOpPayloadBuilderCtx P builder' parent parentHash attributes = some ctx' ∧
      ctx'.filter = none ∧ (∀ db, executePreSteps P ctx' db = executePreSteps P ctx db) ∧
      ∀ x txs, executeCachedFlashblocksTransactions P ctx' x txs =
        executeCachedFlashblocksTransactions P ctx x txs := by
  obtain ⟨data, env, hdata, henv, rfl⟩ := getOpPayloadBuilderCtx_eq_some.mp hctx
  obtain ⟨hfilter, hspec, hgas, htx, hblock, hgasless⟩ := h
  cases builder
  cases builder'
  dsimp only at hfilter hspec hgas htx hblock hgasless
  subst hfilter hspec hgas htx hblock hgasless
  exact ⟨_, getOpPayloadBuilderCtx_eq_some.mpr ⟨data, env, hdata, henv, rfl⟩, rfl, fun _ => rfl,
    fun _ _ => rfl⟩

/-- **Replay of a published sequence**: in every run whose later transactions do not depend on the
    builder transactions of the fallback block, and whose later builder transactions are within the
    limits of the block, a node that takes over finds the transactions of all later flashblocks in
    the published order, in whichever order the flashblocks arrived, and replays them without an
    error on the state after the sequencer's transactions.  The states that `R` relates differ in
    what those builder transactions did. -/
theorem flashblocks_replayed (P : Platform Db Changes Env) (B : BuilderTxPlatform Db Env)
    (builderTx : FlashblocksBuilderTx) (recoverTx : List UInt8 → Option Recovered)
    (builder builder' : BuilderConfig) (config : FlashblocksConfig) (i : RunInputs Db)
    (r : FallbackRun P builder config i) (R : Db → Db → Prop)
    (hr : r.Replayable P B builderTx recoverTx R) (hbuilder : builder'.FailsOverFrom builder)
    (payloadId : BitVec 64) (cache : Option FlashblockPayloadsSequence)
    (hcache : ∀ sequence ∈ cache, sequence.payloadId ≠ payloadId) (arrived : List Flashblock)
    (harrived : arrived.Perm (buildPayload P builder config i).published) (hne : arrived ≠ []) :
    ∃ ctx' txs y,
      getOpPayloadBuilderCtx P builder' i.parent i.parentHash i.attributes = some ctx' ∧
      ctx'.filter = none ∧ executePreSteps P ctx' r.db = .ok r.pre ∧
      getFlashblocksSequenceTxs recoverTx (arrived.foldl (addFlashblockPayload payloadId) cache)
        i.parentHash = some txs ∧
      txs.map (fun r => r.tx.encoded) =
        preconfirmed ((buildPayload P builder config i).published.drop 1) ∧
      executeCachedFlashblocksTransactions P ctx' r.pre txs = (y, none) ∧
      y.info.executedTransactions = r.pre.info.executedTransactions ++ txs.map Recovered.tx := by
  have hpublished : (buildPayload P builder config i).published ≠ [] := by
    intro hnil
    rw [hnil] at harrived
    exact hne (List.perm_nil.mp harrived)
  have hfirst := (r.prefix_outcome hpublished).subset List.mem_cons_self
  obtain ⟨rs, y, hrecovers, hrest, hreplay, htransactions⟩ :=
    FallbackRun.published_replayed hr hpublished
  obtain ⟨ctx', hctx', hfilter, hpre, hcached⟩ := hbuilder.context r.context
  refine ⟨ctx', rs, y, hctx', hfilter, (hpre r.db).trans r.preSteps, ?_, hrest.symm, ?_,
    htransactions⟩
  · exact getFlashblocksSequenceTxs_eq r.published_numbered hfirst r.parentHash_flashblock hcache
      harrived hrest hrecovers
  · rw [hcached, executeCachedFlashblocksTransactions, hreplay]

end

namespace Sample

/-- Decoding, for transactions that are known. -/
def recoverFrom (known : List Recovered) (bytes : List UInt8) : Option Recovered :=
  known.find? (fun r => r.tx.encoded = bytes)

theorem plainTurn_publishes :
    ∀ t ∈ [plainTurn], t.PublishesAs ledger (recoverFrom [(transfer 7).tx]) := by
  intro t ht
  rw [List.mem_singleton.mp ht]
  refine ⟨fun cv hcv => ?_, ?_, ?_⟩
  · rw [List.mem_singleton.mp hcv]
    exact ⟨rfl, rfl⟩
  · intro b hb
    cases hb
  · intro b hb
    cases hb

/-- What the plain run publishes arrives in the wrong order and is replayed. -/
theorem plainRun_replayed :
    plainRun.Replayable ledger signing (.base none) (recoverFrom [(transfer 7).tx]) Eq ∧
    ∃ ctx' txs y, getOpPayloadBuilderCtx ledger config parent 9 (attributesWith 84000) = some ctx' ∧
      getFlashblocksSequenceTxs (recoverFrom [(transfer 7).tx])
        ((buildPayload ledger config synchronous
          (ledgerRun 84000 2 (.base none) plainTurn)).published.reverse.foldl
            (addFlashblockPayload 1) none) 9 = some txs ∧
      txs.map (fun r => r.tx.encoded) = [[2, 1]] ∧
      executeCachedFlashblocksTransactions ledger ctx' plainRun.pre txs = (y, none) := by
  have hr : plainRun.Replayable ledger signing (.base none) (recoverFrom [(transfer 7).tx]) Eq := by
    refine ⟨eachTurn_singleton ⟨.inr rfl, .inr rfl⟩, plainTurn_publishes, ?_,
      fun t _ cv _ => executedAlike_eq _, eachTurn_singleton ⟨?_, ?_⟩⟩
    · rw [addBuilderTxs_of_not_accepts rfl]
    · intro b hb
      cases hb
    · intro b hb
      cases hb
  obtain ⟨ctx', txs, y, hctx', -, -, hsequence, hencoded, hreplay, -⟩ :=
    flashblocks_replayed ledger signing (.base none) (recoverFrom [(transfer 7).tx]) config config
      synchronous (ledgerRun 84000 2 (.base none) plainTurn) plainRun Eq hr
      ⟨rfl, rfl, rfl, rfl, rfl, rfl⟩ 1 none (by simp) _ (List.reverse_perm _) (by decide)
  have hshown : preconfirmed ((buildPayload ledger config synchronous
      (ledgerRun 84000 2 (.base none) plainTurn)).published.drop 1) = [[2, 1]] := by decide
  exact ⟨hr, ctx', txs, y, hctx', hsequence, hencoded.trans hshown, hreplay⟩

/-- A builder with a signer, whose run ends before the last flashblock. -/
def cutShortRun : FallbackRun ledger config synchronous
    (ledgerRun 84000 2 plainBuilderTx plainTurn) :=
  (FallbackRun.ofInputs _ _ _ _).get (by decide +kernel)

/-- Ledgers that differ at most in the transactions of the builder. -/
def SameButBuilder (db db' : List Address) : Prop :=
  ∀ signer, signer ≠ 55 → db.count signer = db'.count signer

theorem executedAlike_sameButBuilder {ctx : BuilderCtx (Header × NextBlockEnvAttributes)} {tx : Tx}
    (h : tx.signer ≠ some 55) : ExecutedAlike ledger ctx SameButBuilder tx := by
  intro db db' gasless result changes hsame hgasless htransact
  refine ⟨hgasless, changes, ?_, fun signer hsigner => ?_⟩
  · cases hs : tx.signer with
    | none => simp [ledger, hs] at htransact
    | some signer =>
      have hcount := hsame signer (by rintro rfl; exact h hs)
      simpa only [ledger, hs, hcount] using htransact
  · show (changes :: db).count signer = (changes :: db').count signer
    rw [List.count_cons, List.count_cons, hsame signer hsigner]

/-- **A leader that stops early**: the fallback block has a builder transaction, and no later
    transaction depends on it. -/
theorem cutShortRun_replayable :
    acceptsBuilderTx ledger cutShortRun.ctx false cutShortRun.pre.db
      (simulated 84000 plainBuilderTx [100] 0 5) = true ∧
    cutShortRun.Replayable ledger signing plainBuilderTx (recoverFrom [(transfer 7).tx])
      SameButBuilder := by
  refine ⟨by decide, eachTurn_singleton ⟨.inr rfl, .inr rfl⟩, plainTurn_publishes, ?_,
    fun t ht cv hcv => ?_, eachTurn_singleton ⟨?_, ?_⟩⟩
  · intro signer hsigner
    have hadded : (addBuilderTxs ledger cutShortRun.ctx false cutShortRun.pre
        (simulated 84000 plainBuilderTx [100] 0 5)).1.db = 55 :: cutShortRun.pre.db := by decide
    show (addBuilderTxs ledger cutShortRun.ctx false cutShortRun.pre
      (simulated 84000 plainBuilderTx [100] 0 5)).1.db.count signer = _
    rw [hadded, List.count_cons_of_ne hsigner.symm]
  · rw [List.mem_singleton.mp ht] at hcv
    rw [List.mem_singleton.mp hcv]
    exact executedAlike_sameButBuilder (by decide)
  · intro b hb
    cases hb
  · intro b hb
    cases hb

/-- The only flashblock after the fallback block, with a builder transaction at its end. -/
def signedTurn : Turn :=
  ⟨simulated 84000 plainBuilderTx [55, 100] 1 1, [], false,
    simulated 84000 plainBuilderTx [55, 100] 1 1, none, true, true⟩

def signedRun : FallbackRun ledger config synchronous
    (ledgerRun 84000 1 plainBuilderTx signedTurn) :=
  (FallbackRun.ofInputs _ _ _ _).get (by decide +kernel)

/-- The builder transactions of the run. -/
def signedTxs : List Recovered :=
  (signedTurn.bottomSimulated.getD []).map BuilderTransactionCtx.signedTx

/-- **A builder with a signer**: its first transaction is in the first flashblock and is not
    replayed, so the second has the wrong nonce. -/
theorem signedRun_replay_fails :
    signedTurn.SimulatedBy ledger signing signedRun.ctx plainBuilderTx signedRun.start ∧
    signedTurn.PublishesAs ledger (recoverFrom signedTxs) ∧
    ¬ ∃ txs y,
      getFlashblocksSequenceTxs (recoverFrom signedTxs)
        ((buildPayload ledger config synchronous
          (ledgerRun 84000 1 plainBuilderTx signedTurn)).published.foldl
            (addFlashblockPayload 1) none) 9 = some txs ∧
      executeCachedFlashblocksTransactions ledger signedRun.ctx signedRun.pre txs = (y, none) := by
  have hdb : (turnRound ledger signedRun.ctx signedRun.start signedTurn).1.exec.db = [55, 100] := by
    decide
  have hrecovers : ∀ r ∈ signedTxs, recoverFrom signedTxs r.tx.encoded = some r := by
    intro r hr
    have hone : signedTxs = [r] := by
      obtain ⟨r', hr'⟩ : ∃ r', signedTxs = [r'] := ⟨_, rfl⟩
      rw [hr', List.mem_singleton] at hr
      rw [hr', hr]
    rw [hone, recoverFrom]
    simp
  have hbuilder : ∀ b ∈ signedTurn.bottomSimulated.getD [],
      recoverFrom signedTxs b.signedTx.tx.encoded = some b.signedTx :=
    fun b hb => hrecovers _ (List.mem_map_of_mem hb)
  refine ⟨⟨.inr rfl, .inr ?_⟩, ⟨?_, hbuilder, hbuilder⟩, ?_⟩
  · rw [hdb]
    rfl
  · intro cv hcv
    cases hcv
  · rintro ⟨txs, y, hsequence, hreplay⟩
    have hrest : preconfirmed ((buildPayload ledger config synchronous
        (ledgerRun 84000 1 plainBuilderTx signedTurn)).published.drop 1) =
          signedTxs.map (fun r => r.tx.encoded) := by decide
    have hlength : (buildPayload ledger config synchronous
        (ledgerRun 84000 1 plainBuilderTx signedTurn)).published.length = 2 := by decide
    have hfirst := signedRun.prefix_outcome (fun hnil => by simp [hnil] at hlength)
    have hcache : ∀ sequence ∈ (none : Option FlashblockPayloadsSequence),
        sequence.payloadId ≠ 1 := by simp
    have hfound := getFlashblocksSequenceTxs_eq signedRun.published_numbered
      (hfirst.subset List.mem_cons_self) signedRun.parentHash_flashblock hcache (List.Perm.refl _)
      hrest hrecovers
    obtain rfl : signedTxs = txs := Option.some.inj (hfound.symm.trans hsequence)
    have hfails : (executeCachedFlashblocksTransactions ledger signedRun.ctx signedRun.pre
        signedTxs).2.isNone = false := by decide +kernel
    rw [hreplay] at hfails
    cases hfails

end Sample

end XLayerReth.Builder
