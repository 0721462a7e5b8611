import XLayerReth.Lib.LruCache
import XLayerReth.Flashblocks.Pubsub
import XLayerReth.RcsFilter.Matching

/-!
# The stream of a flashblocks subscription

Model of `new_flashblocks_stream` in `flashblocks/src/subscription.rs`.  Each snapshot of the
pending block holds the block so far; a cache of transaction hashes keeps a transaction from being
sent again.

* `collectTransactions` — the transactions of one snapshot that are sent.
* `newFlashblocksStream` — the events of a sequence of snapshots.
* `Sighting` — a transaction of a snapshot; `matches` — it has a receipt and passes the filter.

Principal result: `stream_delivers` (what is sent, how often, in what order and with what gas).

The node's types (`NodePrimitives`), its conversions (`RpcConvert`) and the cache (`LruCache`) are
parameters.
-/

set_option autoImplicit false

namespace XLayerReth.Flashblocks

open RcsFilter
open XLayerReth.Lib

/-! ## Blocks and events -/

/-- The transactions and receipts of the node. -/
structure NodePrimitives where
  SignedTx : Type
  txHash : SignedTx → B256
  toAddr : SignedTx → Option Address
  Receipt : Type
  cumulativeGasUsed : Receipt → UInt64
  logs : Receipt → List Log

/-- A sealed header, as far as events depend on it. -/
structure SealedHeader where
  hash : B256
  number : UInt64
  timestamp : UInt64
  baseFeePerGas : Option UInt64
  excessBlobGas : Option UInt64

structure RecoveredBlock (N : NodePrimitives) where
  header : SealedHeader
  rlpLength : Nat
  transactionsWithSender : List (Address × N.SignedTx)

structure PendingFlashBlock (N : NodePrimitives) where
  block : RecoveredBlock N
  receipts : List N.Receipt

structure TransactionInfo where
  hash : Option B256
  index : Option Nat
  blockHash : Option B256
  blockNumber : Option UInt64
  blockTimestamp : Option UInt64
  baseFee : Option UInt64

structure TransactionMeta where
  txHash : B256
  index : Nat
  blockHash : B256
  blockNumber : UInt64
  baseFee : Option UInt64
  excessBlobGas : Option UInt64
  timestamp : UInt64

structure ConvertReceiptInput (N : NodePrimitives) where
  receipt : N.Receipt
  tx : N.SignedTx
  sender : Address
  gasUsed : UInt64
  nextLogIndex : Nat
  txMeta : TransactionMeta

/-- The conversions of the node. -/
structure RpcConvert (N : NodePrimitives) where
  RpcTx : Type
  RpcReceipt : Type
  fill : N.SignedTx → Address → TransactionInfo → Option RpcTx
  convertReceiptsWithBlock : List (ConvertReceiptInput N) → RecoveredBlock N →
    Option (List RpcReceipt)
  calculateGasUsedAndNextLogIndex : Nat → List N.Receipt → UInt64 × Nat

structure EnrichedTransaction (Tx R : Type) where
  txHash : B256
  txData : Option Tx
  receipt : Option R

/-- `Header`: the sealed header, the total difficulty and the size of the block. -/
structure Header where
  inner : SealedHeader
  totalDifficulty : Option Nat
  size : Option Nat

inductive FlashblockStreamEvent (Tx R : Type) where
  | header (blockNumber : UInt64) (header : Header)
  | transaction (blockNumber : UInt64) (transaction : EnrichedTransaction Tx R)

/-- `MAX_TXHASH_CACHE_SIZE`. -/
def maxTxhashCacheSize : Nat := 10000

/-- `extract_header_from_pending_block`. -/
def extractHeaderFromPendingBlock {N : NodePrimitives} (pendingBlock : PendingFlashBlock N) :
    Header :=
  ⟨pendingBlock.block.header, none, some pendingBlock.block.rlpLength⟩

/-- A transaction of a snapshot, at its index. -/
structure Sighting (N : NodePrimitives) where
  pendingBlock : PendingFlashBlock N
  idx : Nat
  sender : Address
  tx : N.SignedTx

section

variable {N : NodePrimitives}

def Sighting.txHash (s : Sighting N) : B256 := N.txHash s.tx

/-- The receipt at the index of the transaction. -/
def Sighting.receipt? (s : Sighting N) : Option N.Receipt := s.pendingBlock.receipts[s.idx]?

def Sighting.blockNumber (s : Sighting N) : UInt64 := s.pendingBlock.block.header.number

/-- `transactions_with_sender().enumerate()`. -/
def sightings (pendingBlock : PendingFlashBlock N) : List (Sighting N) :=
  pendingBlock.block.transactionsWithSender.zipIdx.map
    (fun (entry, idx) => ⟨pendingBlock, idx, entry.1, entry.2⟩)

/-- `is_address_in_transaction`. -/
def isAddressInTransaction (sender : Address) (tx : N.SignedTx) (receipt : Option N.Receipt)
    (addresses : Finset Address) : Bool :=
  decide (sender ∈ addresses) || (N.toAddr tx).any (fun to' => decide (to' ∈ addresses)) ||
    receipt.any (fun r => (N.logs r).any (fun log => decide (log.address ∈ addresses)))

section

variable (C : RpcConvert N) (filter : FlashblocksFilter)

/-- `enrich_transaction_data`. -/
def enrichTransactionData (s : Sighting N) : Option C.RpcTx :=
  if filter.subTxFilter.txInfo then
    C.fill s.tx s.sender
      ⟨some s.txHash, some s.idx, some s.pendingBlock.block.header.hash,
        some s.pendingBlock.block.header.number, some s.pendingBlock.block.header.timestamp,
        s.pendingBlock.block.header.baseFeePerGas⟩
  else none

/-- The receipt that is converted, with the gas and the log index of the transaction. -/
def receiptInput (s : Sighting N) (receipt : N.Receipt) : ConvertReceiptInput N :=
  let (gasUsed, nextLogIndex) :=
    C.calculateGasUsedAndNextLogIndex s.idx s.pendingBlock.receipts
  ⟨receipt, s.tx, s.sender, N.cumulativeGasUsed receipt - gasUsed, nextLogIndex,
    ⟨s.txHash, s.idx, s.pendingBlock.block.header.hash, s.pendingBlock.block.header.number,
      s.pendingBlock.block.header.baseFeePerGas, s.pendingBlock.block.header.excessBlobGas,
      s.pendingBlock.block.header.timestamp⟩⟩

/-- `enrich_receipt`. -/
def enrichReceipt (s : Sighting N) (receipt : N.Receipt) : Option C.RpcReceipt :=
  if filter.subTxFilter.txReceipt then
    (C.convertReceiptsWithBlock [receiptInput C s receipt] s.pendingBlock.block).bind List.head?
  else none

/-- What is sent for a transaction with this receipt. -/
def enriched (s : Sighting N) (receipt : N.Receipt) : EnrichedTransaction C.RpcTx C.RpcReceipt :=
  ⟨s.txHash, enrichTransactionData C filter s, enrichReceipt C filter s receipt⟩

variable (L : LruCache B256 maxTxhashCacheSize)

/-- One round of `collect_transactions`. -/
def collectTransaction (txhashCache : L.State) (s : Sighting N) :
    Option (EnrichedTransaction C.RpcTx C.RpcReceipt) × L.State :=
  match L.get txhashCache s.txHash with
  | (true, txhashCache) => (none, txhashCache)
  | (false, txhashCache) =>
    match s.receipt? with
    | none => (none, txhashCache)
    | some receipt =>
      if filter.requiresAddressFiltering && !isAddressInTransaction s.sender s.tx (some receipt)
          filter.subTxFilter.subscribeAddresses then (none, txhashCache)
      else (some (enriched C filter s receipt), L.insert txhashCache s.txHash)

/-- `collect_transactions`. -/
def collectTransactions : L.State → List (Sighting N) →
    List (EnrichedTransaction C.RpcTx C.RpcReceipt) × L.State
  | txhashCache, [] => ([], txhashCache)
  | txhashCache, s :: rest =>
    let (transaction, txhashCache) := collectTransaction C filter L txhashCache s
    let (transactions, txhashCache) := collectTransactions txhashCache rest
    (transaction.toList ++ transactions, txhashCache)

/-- `flashblock_to_stream_events`. -/
def flashblockToStreamEvents (txhashCache : L.State) (pendingBlock : PendingFlashBlock N) :
    List (FlashblockStreamEvent C.RpcTx C.RpcReceipt) × L.State :=
  let blockNumber := pendingBlock.block.header.number
  let header := if filter.headerInfo then
    [.header blockNumber (extractHeaderFromPendingBlock pendingBlock)] else []
  let (transactions, txhashCache) :=
    collectTransactions C filter L txhashCache (sightings pendingBlock)
  (header ++ transactions.map (.transaction blockNumber), txhashCache)

/-- `new_flashblocks_stream`, from a cache on: a value of the watch channel that holds no block is
    passed over. -/
def newFlashblocksStream : L.State → List (Option (PendingFlashBlock N)) →
    List (FlashblockStreamEvent C.RpcTx C.RpcReceipt)
  | _, [] => []
  | txhashCache, none :: rest => newFlashblocksStream txhashCache rest
  | txhashCache, some pendingBlock :: rest =>
    let (events, txhashCache) := flashblockToStreamEvents C filter L txhashCache pendingBlock
    events ++ newFlashblocksStream txhashCache rest

/-! ## What is sent -/

/-- The transaction has a receipt and passes the filter. -/
def matchesFilter (s : Sighting N) : Bool :=
  s.receipt?.any (fun receipt => decide (filter.subTxFilter.subscribeAddresses = ∅) ||
    isAddressInTransaction s.sender s.tx (some receipt) filter.subTxFilter.subscribeAddresses)

theorem matchesFilter_iff {filter : FlashblocksFilter} {s : Sighting N} :
    matchesFilter filter s = true ↔ ∃ receipt, s.receipt? = some receipt ∧
      (filter.subTxFilter.subscribeAddresses = ∅ ∨
        isAddressInTransaction s.sender s.tx (some receipt)
          filter.subTxFilter.subscribeAddresses = true) := by
  unfold matchesFilter
  cases s.receipt? with
  | none => simp
  | some receipt => simp

/-- The transactions among the events, with the numbers of their blocks. -/
def transactionsOf (events : List (FlashblockStreamEvent C.RpcTx C.RpcReceipt)) :
    List (UInt64 × EnrichedTransaction C.RpcTx C.RpcReceipt) :=
  events.filterMap (fun event =>
    match event with
    | .header _ _ => none
    | .transaction blockNumber transaction => some (blockNumber, transaction))

/-- The transactions of all snapshots, in the order in which they are met. -/
def allSightings (snapshots : List (Option (PendingFlashBlock N))) : List (Sighting N) :=
  (snapshots.filterMap id).flatMap sightings

/-- What is sent for a transaction: its block number and the transaction, if it has a receipt. -/
def sent (s : Sighting N) : Option (UInt64 × EnrichedTransaction C.RpcTx C.RpcReceipt) :=
  s.receipt?.map (fun receipt => (s.blockNumber, enriched C filter s receipt))

/-- **One round**: the cache decides on the hash and the match. -/
theorem collectTransaction_eq (c : L.State) (s : Sighting N) :
    collectTransaction C filter L c s =
      (if (L.see Sighting.txHash (matchesFilter filter) c s).1 then
        s.receipt?.map (enriched C filter s) else none,
        (L.see Sighting.txHash (matchesFilter filter) c s).2) := by
  unfold collectTransaction LruCache.see
  generalize L.get c s.txHash = r
  obtain ⟨hit, c'⟩ := r
  cases hit with
  | true => rfl
  | false =>
    dsimp only
    unfold matchesFilter
    cases s.receipt? with
    | none => rfl
    | some receipt =>
      dsimp only [Option.any_some, Option.map_some]
      rw [FlashblocksFilter.requiresAddressFiltering, SubTxFilter.hasAddressFilter]
      by_cases hnone : filter.subTxFilter.subscribeAddresses = ∅
      · simp [hnone]
      · by_cases haddress : isAddressInTransaction s.sender s.tx (some receipt)
          filter.subTxFilter.subscribeAddresses = true
        · simp [hnone, haddress]
        · simp [hnone, haddress]

/-- **One snapshot**: what is sent are the transactions that pass the cache. -/
theorem collectTransactions_eq : ∀ (items : List (Sighting N)) (c : L.State),
    collectTransactions C filter L c items =
      ((L.unseen Sighting.txHash (matchesFilter filter) c items).1.filterMap
        (fun s => s.receipt?.map (enriched C filter s)),
        (L.unseen Sighting.txHash (matchesFilter filter) c items).2)
  | [], _ => rfl
  | s :: items, c => by
    rw [collectTransactions, collectTransaction_eq]
    dsimp only
    rw [collectTransactions_eq items, LruCache.unseen]
    dsimp only
    cases (L.see Sighting.txHash (matchesFilter filter) c s).1 with
    | false => rfl
    | true =>
      rw [if_pos rfl, if_pos rfl, List.filterMap_cons]
      cases s.receipt? with
      | none => rfl
      | some receipt => rfl

theorem getElem?_sightings (pendingBlock : PendingFlashBlock N) (idx : Nat) :
    (sightings pendingBlock)[idx]? = pendingBlock.block.transactionsWithSender[idx]?.map
      (fun entry => ⟨pendingBlock, idx, entry.1, entry.2⟩) := by
  rw [sightings, List.getElem?_map, List.getElem?_zipIdx, Option.map_map, Nat.zero_add]
  rfl

theorem mem_sightings {pendingBlock : PendingFlashBlock N} {s : Sighting N} :
    s ∈ sightings pendingBlock ↔ s.pendingBlock = pendingBlock ∧
      pendingBlock.block.transactionsWithSender[s.idx]? = some (s.sender, s.tx) := by
  rw [List.mem_iff_getElem?]
  constructor
  · rintro ⟨idx, h⟩
    rw [getElem?_sightings] at h
    obtain ⟨entry, hentry, rfl⟩ := Option.map_eq_some_iff.mp h
    exact ⟨rfl, hentry⟩
  · rintro ⟨rfl, hentry⟩
    exact ⟨s.idx, by rw [getElem?_sightings, hentry]; rfl⟩

theorem transactionsOf_append (events more : List (FlashblockStreamEvent C.RpcTx C.RpcReceipt)) :
    transactionsOf C (events ++ more) = transactionsOf C events ++ transactionsOf C more :=
  List.filterMap_append

/-- The events for the transactions of one block. -/
theorem transactionsOf_transactions (blockNumber : UInt64) : ∀ (items : List (Sighting N)),
    (∀ s ∈ items, s.blockNumber = blockNumber) →
      transactionsOf C ((items.filterMap (fun s => s.receipt?.map (enriched C filter s))).map
        (.transaction blockNumber)) = items.filterMap (sent C filter)
  | [], _ => rfl
  | s :: items, h => by
    have hrest := transactionsOf_transactions blockNumber items
      (fun t ht => h t (List.mem_cons_of_mem _ ht))
    have hnumber := h s List.mem_cons_self
    rw [List.filterMap_cons, List.filterMap_cons, sent]
    cases s.receipt? with
    | none => exact hrest
    | some receipt =>
      rw [Option.map_some, Option.map_some, List.map_cons, hnumber, ← hrest]
      rfl

/-- **The stream**: the transactions among its events are those that pass the cache. -/
theorem transactionsOf_newFlashblocksStream : ∀ (snapshots : List (Option (PendingFlashBlock N)))
    (c : L.State), transactionsOf C (newFlashblocksStream C filter L c snapshots) =
      (L.unseen Sighting.txHash (matchesFilter filter) c (allSightings snapshots)).1.filterMap
        (sent C filter)
  | [], _ => rfl
  | none :: snapshots, c => transactionsOf_newFlashblocksStream snapshots c
  | some pendingBlock :: snapshots, c => by
    have hsplit : allSightings (some pendingBlock :: snapshots) =
        sightings pendingBlock ++ allSightings snapshots := rfl
    have hnumbers : ∀ s ∈ (L.unseen Sighting.txHash (matchesFilter filter) c
        (sightings pendingBlock)).1, s.blockNumber = pendingBlock.block.header.number := by
      intro s hs
      have hmem := ((LruCache.unseen_sublist _ c).trans List.filter_sublist).subset hs
      rw [← (mem_sightings.mp hmem).1]
      rfl
    rw [hsplit, LruCache.unseen_append, newFlashblocksStream, flashblockToStreamEvents,
      collectTransactions_eq]
    dsimp only
    rw [transactionsOf_append, transactionsOf_append, List.filterMap_append,
      transactionsOf_transactions C filter _ _ hnumbers,
      transactionsOf_newFlashblocksStream snapshots]
    split
    · rfl
    · rfl

/-! ## The order in a block -/

/-- The snapshots of a block agree as far as both go. -/
def Agree (p q : PendingFlashBlock N) : Prop :=
  p.block.header.number = q.block.header.number →
    ∀ idx, idx < p.block.transactionsWithSender.length →
      idx < q.block.transactionsWithSender.length →
        idx < p.receipts.length → idx < q.receipts.length →
          p.block.transactionsWithSender[idx]? = q.block.transactionsWithSender[idx]? ∧
            p.receipts[idx]? = q.receipts[idx]?

/-- The later snapshot of the same block extends the transactions and the receipts of the earlier
    one. -/
def Extends (p q : PendingFlashBlock N) : Prop :=
  p.block.header.number = q.block.header.number →
    p.block.transactionsWithSender <+: q.block.transactionsWithSender ∧ p.receipts <+: q.receipts

/-- An element that both of two lists have, one of which extends the other. -/
theorem getElem?_eq_of_initial {T : Type} {l₁ l₂ : List T} {idx : Nat} (h : l₁ <+: l₂)
    (hlt : idx < l₁.length) : l₁[idx]? = l₂[idx]? := by
  obtain ⟨rest, rfl⟩ := h
  rw [List.getElem?_append_left hlt]

theorem Extends.agree {p q : PendingFlashBlock N} (h : Extends p q) : Agree p q := by
  intro hnumber idx hp _ hpr _
  obtain ⟨htxs, hreceipts⟩ := h hnumber
  exact ⟨getElem?_eq_of_initial htxs hp, getElem?_eq_of_initial hreceipts hpr⟩

theorem Agree.symm {p q : PendingFlashBlock N} (h : Agree p q) : Agree q p := by
  intro hnumber idx hq hp hqr hpr
  obtain ⟨htxs, hreceipts⟩ := h hnumber.symm idx hp hq hpr hqr
  exact ⟨htxs.symm, hreceipts.symm⟩

theorem agree_of_pairwise {snapshots : List (PendingFlashBlock N)}
    (h : snapshots.Pairwise Extends) {p q : PendingFlashBlock N} (hp : p ∈ snapshots)
    (hq : q ∈ snapshots) : Agree p q :=
  List.Pairwise.forall_of_forall_of_flip (fun _ _ _ _ _ _ _ _ => ⟨rfl, rfl⟩)
    (h.imp (fun hpq => hpq.agree)) (h.imp (fun hpq => hpq.agree.symm)) hp hq

/-- What comes before a transaction in its block has been met. -/
theorem mem_of_idx_le : ∀ (snapshots : List (PendingFlashBlock N)) (pre : List (Sighting N))
    (s : Sighting N) (post : List (Sighting N)), snapshots.flatMap sightings = pre ++ s :: post →
    ∀ t ∈ sightings s.pendingBlock, t.idx ≤ s.idx → t ∈ pre ++ [s]
  | [], pre, s, post, h, _, _, _ => by simp at h
  | p :: snapshots, pre, s, post, h, t, ht, hle => by
    rw [List.flatMap_cons] at h
    rcases List.append_eq_append_iff.mp h with ⟨pre', rfl, hrest⟩ | ⟨bs, hp, hpost⟩
    · have hmem := mem_of_idx_le snapshots pre' s post hrest t ht hle
      rw [List.append_assoc]
      exact List.mem_append_right _ hmem
    · rcases bs with - | ⟨b, bs⟩
      · have hmem := mem_of_idx_le snapshots [] s post hpost.symm t ht hle
        exact List.mem_append_right _ hmem
      · obtain ⟨rfl, hpost⟩ := List.cons.inj hpost
        -- both stand in the sightings of the first snapshot, at their indices
        have hs : (sightings p)[pre.length]? = some s := by rw [hp]; simp
        have hblock : s.pendingBlock = p := by
          have hmem : s ∈ sightings p := List.mem_iff_getElem?.mpr ⟨_, hs⟩
          exact (mem_sightings.mp hmem).1
        have hidx : s.idx = pre.length := by
          rw [getElem?_sightings] at hs
          obtain ⟨entry, -, rfl⟩ := Option.map_eq_some_iff.mp hs
          rfl
        have htp : (sightings p)[t.idx]? = some t := by
          rw [hblock] at ht
          obtain ⟨hb, hentry⟩ := mem_sightings.mp ht
          rw [getElem?_sightings, hentry, ← hb]
          rfl
        have hfront : (pre ++ [s])[t.idx]? = some t := by
          rw [List.append_cons] at hp
          rw [← htp, hp]
          exact (List.getElem?_append_left
            (by rw [List.length_append, List.length_singleton]; omega)).symm
        exact List.mem_iff_getElem?.mpr ⟨_, hfront⟩

/-- **Block order**: of two transactions of a block, each sent at its first match, the first one
    sent has the smaller index. -/
theorem idx_lt_of_first {snapshots : List (PendingFlashBlock N)}
    (hextends : snapshots.Pairwise Extends) {pre mid post : List (Sighting N)} {s t : Sighting N}
    (hall : snapshots.flatMap sightings = pre ++ s :: mid ++ t :: post)
    (hs : matchesFilter filter s = true) (ht : matchesFilter filter t = true)
    (hfirst : ∀ k ∈ pre ++ s :: mid, matchesFilter filter k = true → k.txHash ≠ t.txHash)
    (hnumber : s.blockNumber = t.blockNumber) : s.idx < t.idx := by
  have hin : ∀ k, k = s ∨ k = t → k.pendingBlock ∈ snapshots ∧
      k.pendingBlock.block.transactionsWithSender[k.idx]? = some (k.sender, k.tx) := by
    intro k hk
    have hmem : k ∈ snapshots.flatMap sightings := by
      rw [hall]
      rcases hk with rfl | rfl
      · simp
      · simp
    obtain ⟨p, hp, hkp⟩ := List.mem_flatMap.mp hmem
    obtain ⟨rfl, hentry⟩ := mem_sightings.mp hkp
    exact ⟨hp, hentry⟩
  obtain ⟨hps, hsentry⟩ := hin s (.inl rfl)
  obtain ⟨hpt, htentry⟩ := hin t (.inr rfl)
  obtain ⟨rs, hsreceipt, -⟩ := matchesFilter_iff.mp hs
  obtain ⟨rt, htreceipt, hpass⟩ := matchesFilter_iff.mp ht
  have hsr := (List.getElem?_eq_some_iff.mp hsreceipt).1
  have htr := (List.getElem?_eq_some_iff.mp htreceipt).1
  have hsl := (List.getElem?_eq_some_iff.mp hsentry).1
  have htl := (List.getElem?_eq_some_iff.mp htentry).1
  by_contra hle
  -- the later transaction has matched in the snapshot of the earlier one already
  obtain ⟨htxs, hreceipts⟩ := agree_of_pairwise hextends hps hpt hnumber t.idx (by omega) htl
    (by omega) htr
  have hmem : (⟨s.pendingBlock, t.idx, t.sender, t.tx⟩ : Sighting N) ∈ pre ++ s :: mid := by
    have hfront := mem_of_idx_le snapshots pre s (mid ++ t :: post) (by rw [hall]; simp)
      ⟨s.pendingBlock, t.idx, t.sender, t.tx⟩ (mem_sightings.mpr ⟨rfl, htxs.trans htentry⟩)
      (Nat.le_of_not_lt hle)
    rw [List.append_cons]
    exact List.mem_append_left _ hfront
  refine hfirst _ hmem (matchesFilter_iff.mpr ⟨rt, ?_, hpass⟩) rfl
  exact hreceipts.trans htreceipt

/-! ## Gas -/

/-- The cumulative gas before a receipt. -/
def gasBefore (receipts : List N.Receipt) (idx : Nat) : UInt64 :=
  ((receipts.take idx).getLast?.map N.cumulativeGasUsed).getD 0

/-- The logs before a receipt. -/
def logsBefore (receipts : List N.Receipt) (idx : Nat) : Nat :=
  ((receipts.take idx).map (fun receipt => (N.logs receipt).length)).sum

/-- The cumulative gas of the receipts does not decrease. -/
def GasOrdered (pendingBlock : PendingFlashBlock N) : Prop :=
  pendingBlock.receipts.Pairwise (fun r r' => N.cumulativeGasUsed r ≤ N.cumulativeGasUsed r')

theorem gasBefore_le {pendingBlock : PendingFlashBlock N} (h : GasOrdered pendingBlock) {idx : Nat}
    {receipt : N.Receipt} (hreceipt : pendingBlock.receipts[idx]? = some receipt) :
    gasBefore pendingBlock.receipts idx ≤ N.cumulativeGasUsed receipt := by
  unfold gasBefore
  cases idx with
  | zero => exact UInt64.zero_le
  | succ idx =>
    obtain ⟨hlt, rfl⟩ := List.getElem?_eq_some_iff.mp hreceipt
    rw [List.take_succ_eq_append_getElem (by omega), List.getLast?_concat]
    exact List.pairwise_iff_getElem.mp h idx (idx + 1) (by omega) hlt (Nat.lt_succ_self idx)

/-! ## How often -/

/-- The hashes of the transactions that are sent, in order. -/
def sentHashes (snapshots : List (Option (PendingFlashBlock N))) : List B256 :=
  (transactionsOf C (newFlashblocksStream C filter L L.empty snapshots)).map (fun t => t.2.txHash)

/-- Every transaction that has a receipt and passes the filter is sent once. -/
def ExactlyOnce (snapshots : List (Option (PendingFlashBlock N))) : Prop :=
  ∀ s ∈ allSightings snapshots, matchesFilter filter s = true →
    (sentHashes C filter L snapshots).count s.txHash = 1

/-- Between two successive appearances of a transaction that has matched, fewer others that have
    matched appear than the cache holds. -/
def AppearancesBelow (snapshots : List (Option (PendingFlashBlock N))) : Prop :=
  ReuseBelow maxTxhashCacheSize
    (marked Sighting.txHash (matchesFilter filter) [] (allSightings snapshots))

/-- A transaction that has matched matches whenever it appears again. -/
def Settled (snapshots : List (Option (PendingFlashBlock N))) : Prop :=
  (allSightings snapshots).Pairwise (fun s t => matchesFilter filter s = true →
    s.txHash = t.txHash → matchesFilter filter t = true)

/-- The sightings at which a transaction is sent. -/
def sentAt (snapshots : List (Option (PendingFlashBlock N))) : List (Sighting N) :=
  (L.unseen Sighting.txHash (matchesFilter filter) L.empty (allSightings snapshots)).1

theorem matches_of_mem_sentAt {snapshots : List (Option (PendingFlashBlock N))} {s : Sighting N}
    (h : s ∈ sentAt filter L snapshots) :
    s ∈ allSightings snapshots ∧ matchesFilter filter s = true :=
  List.mem_filter.mp ((LruCache.unseen_sublist _ _).subset h)

/-- Each of these transactions is sent. -/
theorem map_sent_sentAt (snapshots : List (Option (PendingFlashBlock N))) :
    (transactionsOf C (newFlashblocksStream C filter L L.empty snapshots)).map some =
      (sentAt filter L snapshots).map (sent C filter) := by
  have hsome : ∀ items : List (Sighting N), (∀ s ∈ items, matchesFilter filter s = true) →
      (items.filterMap (sent C filter)).map some = items.map (sent C filter) := by
    intro items
    induction items with
    | nil => exact fun _ => rfl
    | cons s items ih =>
      intro h
      obtain ⟨receipt, hreceipt, -⟩ := matchesFilter_iff.mp (h s List.mem_cons_self)
      have hsent : sent C filter s = some (s.blockNumber, enriched C filter s receipt) := by
        rw [sent, hreceipt]
        rfl
      rw [List.filterMap_cons_some hsent, List.map_cons, List.map_cons, hsent,
        ih (fun t ht => h t (List.mem_cons_of_mem _ ht))]
  rw [transactionsOf_newFlashblocksStream]
  exact hsome _ (fun s hs => (matches_of_mem_sentAt filter L hs).2)

theorem sentHashes_eq (snapshots : List (Option (PendingFlashBlock N))) :
    sentHashes C filter L snapshots = (sentAt filter L snapshots).map Sighting.txHash := by
  have hmap := congrArg (List.map (Option.map (fun t => t.2.txHash)))
    (map_sent_sentAt C filter L snapshots)
  rw [List.map_map, List.map_map] at hmap
  apply List.map_injective_iff.mpr (Option.some_injective B256)
  rw [sentHashes, List.map_map, List.map_map]
  refine hmap.trans (List.map_congr_left ?_)
  intro s hs
  obtain ⟨receipt, hreceipt, -⟩ :=
    matchesFilter_iff.mp (matches_of_mem_sentAt filter L hs).2
  rw [Function.comp_apply, Function.comp_apply, sent, hreceipt]
  rfl

theorem keys_empty_subset (x : B256) (h : x ∈ L.keys L.empty) : x ∈ ([] : List B256) := by
  rw [L.keys_empty] at h
  exact h

/-- **At least once.** -/
theorem mem_sentHashes {snapshots : List (Option (PendingFlashBlock N))} {s : Sighting N}
    (hs : s ∈ allSightings snapshots) (hmatch : matchesFilter filter s = true) :
    s.txHash ∈ sentHashes C filter L snapshots := by
  rw [sentHashes_eq]
  rcases LruCache.exists_unseen (allSightings snapshots) L.empty [] (keys_empty_subset L) hs hmatch
    with hmem | ⟨t, ht, heq⟩
  · cases hmem
  · exact List.mem_map.mpr ⟨t, ht, heq⟩

theorem exactlyOnce_iff_nodup (snapshots : List (Option (PendingFlashBlock N))) :
    ExactlyOnce C filter L snapshots ↔ (sentHashes C filter L snapshots).Nodup := by
  constructor
  · intro h
    refine List.nodup_iff_count_le_one.mpr (fun x => ?_)
    by_cases hx : x ∈ sentHashes C filter L snapshots
    · rw [sentHashes_eq] at hx
      obtain ⟨s, hs, rfl⟩ := List.mem_map.mp hx
      obtain ⟨hall, hmatch⟩ := matches_of_mem_sentAt filter L hs
      exact (h s hall hmatch).le
    · rw [List.count_eq_zero.mpr hx]
      exact Nat.zero_le 1
  · intro h s hs hmatch
    exact List.count_eq_one_of_mem h (mem_sentHashes C filter L hs hmatch)

/-- **Below the capacity**, what is sent is the first match of each transaction. -/
theorem sentAt_eq_firsts {snapshots : List (Option (PendingFlashBlock N))}
    (h : AppearancesBelow filter snapshots) :
    sentAt filter L snapshots =
      firsts Sighting.txHash (matchesFilter filter) [] (allSightings snapshots) := by
  refine LruCache.unseen_eq_firsts _ L.empty [] [] ?_ (fun _ => Iff.rfl) h
  rw [L.keys_empty]
  exact Kept.refl _ _

theorem exactlyOnce_of_below {snapshots : List (Option (PendingFlashBlock N))}
    (h : AppearancesBelow filter snapshots) : ExactlyOnce C filter L snapshots := by
  rw [exactlyOnce_iff_nodup, sentHashes_eq, sentAt_eq_firsts filter L h]
  exact nodup_firsts _ _

/-- **Only then**, with a cache that holds at most its capacity. -/
theorem exactlyOnce_iff_below (hbound : L.Bounded)
    {snapshots : List (Option (PendingFlashBlock N))} (hsettled : Settled filter snapshots) :
    ExactlyOnce C filter L snapshots ↔ AppearancesBelow filter snapshots := by
  have hnodup := LruCache.nodup_unseen_iff hbound (allSightings snapshots) L.empty [] []
    (by rw [L.keys_empty]; exact Kept.refl _ _) (fun _ => Iff.rfl) List.nodup_nil
    (fun pre x between post huses => by simp at huses) hsettled
    (fun _ _ hmem => absurd hmem List.not_mem_nil)
  rw [exactlyOnce_iff_nodup, sentHashes_eq]
  exact hnodup

/-- The transactions of each block are sent in its order. -/
theorem pairwise_sentAt {snapshots : List (Option (PendingFlashBlock N))}
    (hextends : (snapshots.filterMap id).Pairwise Extends) (h : AppearancesBelow filter snapshots) :
    (sentAt filter L snapshots).Pairwise
      (fun s t => s.blockNumber = t.blockNumber → s.idx < t.idx) := by
  rw [sentAt_eq_firsts filter L h]
  refine pairwise_firsts (allSightings snapshots) ?_ _ [] rfl [] (by simp)
  intro pre s mid t post hall hs ht hfirst hnumber
  exact idx_lt_of_first filter hextends hall hs ht hfirst hnumber

/-- What a subscription delivers. -/
structure Delivered (snapshots : List (Option (PendingFlashBlock N))) : Prop where
  /-- The transactions among the events are those of the sightings at which one is sent. -/
  events : (transactionsOf C (newFlashblocksStream C filter L L.empty snapshots)).map some =
    (sentAt filter L snapshots).map (sent C filter)
  /-- They have a receipt and pass the filter, and they are sent in the order of appearance. -/
  matching : (sentAt filter L snapshots).Sublist
    ((allSightings snapshots).filter (matchesFilter filter))
  atLeastOnce : ∀ s ∈ allSightings snapshots, matchesFilter filter s = true →
    s.txHash ∈ sentHashes C filter L snapshots
  /-- The gas of a receipt is that of its transaction, without an underflow. -/
  gas : ∀ s ∈ sentAt filter L snapshots, ∀ receipt, s.receipt? = some receipt →
    gasBefore s.pendingBlock.receipts s.idx ≤ N.cumulativeGasUsed receipt ∧
    (receiptInput C s receipt).gasUsed.toNat = (N.cumulativeGasUsed receipt).toNat -
      (gasBefore s.pendingBlock.receipts s.idx).toNat ∧
    (receiptInput C s receipt).nextLogIndex = logsBefore s.pendingBlock.receipts s.idx
  once : AppearancesBelow filter snapshots → ExactlyOnce C filter L snapshots ∧
    (sentAt filter L snapshots).Pairwise (fun s t => s.blockNumber = t.blockNumber → s.idx < t.idx)
  onlyThen : L.Bounded → Settled filter snapshots →
    (ExactlyOnce C filter L snapshots ↔ AppearancesBelow filter snapshots)

end

/-- **Delivery.**  For every filter, every cache that drops least recently used hashes only, beyond
    its capacity, and every sequence of snapshots in which a later one of the same block extends
    the transactions and the receipts of an earlier one: only transactions that have a receipt and
    pass the filter are sent, each at least once and with its own gas; when fewer others that have
    matched than the cache holds appear between two successive appearances of one, each is sent
    exactly once and in the order of its block; and with a cache that holds at most its capacity
    only then. -/
theorem stream_delivers (C : RpcConvert N)
    (hgasUsed : ∀ idx receipts, C.calculateGasUsedAndNextLogIndex idx receipts =
      (gasBefore receipts idx, logsBefore receipts idx))
    (filter : FlashblocksFilter) (L : LruCache B256 maxTxhashCacheSize)
    (snapshots : List (Option (PendingFlashBlock N)))
    (hextends : (snapshots.filterMap id).Pairwise Extends)
    (hordered : ∀ pendingBlock ∈ snapshots.filterMap id, GasOrdered pendingBlock) :
    Delivered C filter L snapshots := by
  refine ⟨map_sent_sentAt C filter L snapshots, LruCache.unseen_sublist _ _,
    fun s hs hmatch => mem_sentHashes C filter L hs hmatch, ?_,
    fun h => ⟨exactlyOnce_of_below C filter L h, pairwise_sentAt filter L hextends h⟩,
    fun hbound hsettled => exactlyOnce_iff_below C filter L hbound hsettled⟩
  intro s hs receipt hreceipt
  obtain ⟨p, hp, hsp⟩ := List.mem_flatMap.mp (matches_of_mem_sentAt filter L hs).1
  obtain ⟨rfl, -⟩ := mem_sightings.mp hsp
  have hle := gasBefore_le (hordered _ hp) hreceipt
  have hinput : receiptInput C s receipt =
      ⟨receipt, s.tx, s.sender,
        N.cumulativeGasUsed receipt - gasBefore s.pendingBlock.receipts s.idx,
        logsBefore s.pendingBlock.receipts s.idx, (receiptInput C s receipt).txMeta⟩ := by
    unfold receiptInput
    rw [hgasUsed]
  rw [hinput]
  exact ⟨hle, UInt64.toNat_sub_of_le _ _ hle, rfl⟩

end

/-! ## A full block -/

/-- Transactions that are their hashes, and receipts of a cumulative gas and logs. -/
abbrev plainPrimitives : NodePrimitives :=
  ⟨B256, id, fun _ => none, UInt64 × List Log, Prod.fst, Prod.snd⟩

/-- Conversions that keep nothing. -/
def plainConvert : RpcConvert plainPrimitives where
  RpcTx := Unit
  RpcReceipt := Unit
  fill _ _ _ := some ()
  convertReceiptsWithBlock inputs _ := some (inputs.map (fun _ => ()))
  calculateGasUsedAndNextLogIndex idx receipts := (gasBefore receipts idx, logsBefore receipts idx)

/-- The first block, with transactions of these hashes and with these receipts. -/
def plainBlock (hashes : List B256) (receipts : List (UInt64 × List Log)) :
    PendingFlashBlock plainPrimitives :=
  ⟨⟨⟨0, 1, 0, none, none⟩, 0, hashes.map (fun hash => (0, hash))⟩, receipts⟩

/-- So many transactions, all with a receipt. -/
def fullBlock (n : Nat) : PendingFlashBlock plainPrimitives :=
  plainBlock ((List.range n).map (BitVec.ofNat 256)) (List.replicate n (0, []))

theorem fullBlock_extends (n : Nat) : Extends (fullBlock n) (fullBlock (n + 1)) := by
  intro _
  constructor
  · show List.map _ (List.map _ (List.range n)) <+: List.map _ (List.map _ (List.range (n + 1)))
    rw [List.range_succ, List.map_append, List.map_append]
    exact List.prefix_append _ _
  · show List.replicate n _ <+: List.replicate (n + 1) _
    rw [List.replicate_succ']
    exact List.prefix_append _ _

theorem fullBlock_gasOrdered (n : Nat) : GasOrdered (fullBlock n) :=
  List.pairwise_replicate.mpr (.inr (UInt64.le_refl 0))

/-- A watch channel that is empty at first, and two snapshots of a block. -/
theorem stream_delivers_growing :
    Delivered plainConvert FlashblocksFilter.default (LruCache.exact B256 maxTxhashCacheSize)
      [none, some (fullBlock 2), some (fullBlock 3)] := by
  refine stream_delivers plainConvert (fun _ _ => rfl) FlashblocksFilter.default
    (LruCache.exact B256 maxTxhashCacheSize) [none, some (fullBlock 2), some (fullBlock 3)]
    (List.pairwise_pair.mpr (fullBlock_extends 2)) ?_
  intro pendingBlock h
  rcases List.mem_cons.mp h with rfl | h
  · exact fullBlock_gasOrdered 2
  · rw [List.mem_singleton.mp h]
    exact fullBlock_gasOrdered 3

example : sentHashes plainConvert FlashblocksFilter.default
    (LruCache.exact B256 maxTxhashCacheSize) [none, some (fullBlock 2), some (fullBlock 3)] =
      [0, 1, 2] := by decide

theorem map_txHash_fullBlock (n : Nat) :
    (sightings (fullBlock n)).map Sighting.txHash = (List.range n).map (BitVec.ofNat 256) := by
  apply List.ext_getElem?
  intro idx
  rw [List.getElem?_map, getElem?_sightings, Option.map_map]
  show Option.map _ ((((List.range n).map (BitVec.ofNat 256)).map _)[idx]?) = _
  rw [List.getElem?_map, Option.map_map, List.getElem?_map, Option.map_map]
  rfl

/-- Without addresses, every transaction of a full block matches. -/
theorem fullBlock_matches {n : Nat} {s : Sighting plainPrimitives}
    (h : s ∈ sightings (fullBlock n)) : matchesFilter FlashblocksFilter.default s = true := by
  obtain ⟨hblock, hentry⟩ := mem_sightings.mp h
  have hlt : s.idx < n := by
    have hlen := (List.getElem?_eq_some_iff.mp hentry).1
    have htxs : (fullBlock n).block.transactionsWithSender.length = n := by
      simp [fullBlock, plainBlock]
    omega
  refine matchesFilter_iff.mpr ⟨(0, []), ?_, .inl rfl⟩
  rw [Sighting.receipt?, hblock]
  show (List.replicate n _)[s.idx]? = _
  rw [List.getElem?_replicate, if_pos hlt]

/-- More transactions in a block than the cache holds: they are sent again with the next
    snapshot. -/
theorem fullBlock_not_once {n : Nat} (hsize : maxTxhashCacheSize ≤ n) (hlt : n + 2 < 2 ^ 256) :
    ¬ ExactlyOnce plainConvert FlashblocksFilter.default (LruCache.exact B256 maxTxhashCacheSize)
      [some (fullBlock (n + 1)), some (fullBlock (n + 2))] := by
  have hall : allSightings [some (fullBlock (n + 1)), some (fullBlock (n + 2))] =
      sightings (fullBlock (n + 1)) ++ sightings (fullBlock (n + 2)) := by
    simp [allSightings]
  have hmatch : ∀ s ∈ allSightings [some (fullBlock (n + 1)), some (fullBlock (n + 2))],
      matchesFilter FlashblocksFilter.default s = true := by
    intro s hs
    rw [hall] at hs
    rcases List.mem_append.mp hs with hs | hs
    · exact fullBlock_matches hs
    · exact fullBlock_matches hs
  have hsettled : Settled FlashblocksFilter.default
      [some (fullBlock (n + 1)), some (fullBlock (n + 2))] :=
    List.Pairwise.imp_of_mem (R := fun _ _ => True)
      (fun _ ht _ _ _ => hmatch _ ht) (List.pairwise_of_forall (fun _ _ => trivial))
  rw [exactlyOnce_iff_below _ _ _ (LruCache.exact_bounded _) hsettled, AppearancesBelow,
    marked_of_forall_wanted _ _ hmatch, hall, List.map_append, map_txHash_fullBlock,
    map_txHash_fullBlock]
  intro hbelow
  -- between the two appearances of the first transaction stand the other transactions
  have hcard := hbelow [] 0 ((List.range n).map (fun i => BitVec.ofNat 256 (i + 1)))
    ((List.range (n + 1)).map (fun i => BitVec.ofNat 256 (i + 1))) ?_ ?_
  · have hnodup : ((List.range n).map (fun i => BitVec.ofNat 256 (i + 1))).Nodup := by
      refine List.nodup_range.map_on ?_
      intro i hi j hj heq
      have hval := congrArg BitVec.toNat heq
      rw [BitVec.toNat_ofNat, BitVec.toNat_ofNat, Nat.mod_eq_of_lt, Nat.mod_eq_of_lt] at hval
      · omega
      · have hj' := List.mem_range.mp hj
        omega
      · have hi' := List.mem_range.mp hi
        omega
    rw [List.toFinset_card_of_nodup hnodup, List.length_map, List.length_range] at hcard
    omega
  · have hrange : ∀ k, (List.range (k + 1)).map (BitVec.ofNat 256) =
        0 :: (List.range k).map (fun i => BitVec.ofNat 256 (i + 1)) := by
      intro k
      rw [List.range_succ_eq_map, List.map_cons, List.map_map]
      rfl
    rw [hrange, hrange]
    rfl
  · intro hmem
    obtain ⟨i, hi, heq⟩ := List.mem_map.mp hmem
    have hval := congrArg BitVec.toNat heq
    have hi' := List.mem_range.mp hi
    rw [BitVec.toNat_ofNat, Nat.mod_eq_of_lt (by omega)] at hval
    cases hval

/-- A subscription to the addresses of one contract. -/
def oneAddress : FlashblocksFilter := ⟨false, ⟨{7}, false, false⟩⟩

/-- Two transactions of a block, of which so many log at the contract. -/
def twoTransactions (first second : List Log) : PendingFlashBlock plainPrimitives :=
  plainBlock [1, 2] [(5, first), (8, second)]

/-- Ten thousand and one transactions that match, in a block of which a second snapshot is met, are
    sent again with it; and when a receipt changes between two snapshots, the transactions of a
    block are not sent in its order. -/
theorem stream_delivers_fails :
    (([some (fullBlock 10001), some (fullBlock 10002)].filterMap id).Pairwise Extends ∧
      (∀ pendingBlock ∈ [some (fullBlock 10001), some (fullBlock 10002)].filterMap id,
        GasOrdered pendingBlock) ∧
      ¬ ExactlyOnce plainConvert FlashblocksFilter.default (LruCache.exact B256 maxTxhashCacheSize)
        [some (fullBlock 10001), some (fullBlock 10002)]) ∧
    ((twoTransactions [] [⟨7, [], []⟩]).block =
      (twoTransactions [⟨7, [], []⟩] [⟨7, [], []⟩]).block ∧
      sentHashes plainConvert oneAddress (LruCache.exact B256 maxTxhashCacheSize)
        [some (twoTransactions [] [⟨7, [], []⟩]),
          some (twoTransactions [⟨7, [], []⟩] [⟨7, [], []⟩])] = [2, 1]) := by
  refine ⟨⟨List.pairwise_pair.mpr (fullBlock_extends 10001), ?_,
    fullBlock_not_once (n := 10000) (Nat.le_refl _) (by omega)⟩, rfl, by decide⟩
  intro pendingBlock h
  rcases List.mem_cons.mp h with rfl | h
  · exact fullBlock_gasOrdered 10001
  · rw [List.mem_singleton.mp h]
    exact fullBlock_gasOrdered 10002

end XLayerReth.Flashblocks
