import Mathlib.Data.Prod.Lex
import XLayerReth.Lib.SortedList
import XLayerReth.RcsFilter.Primitives

/-!
# Moving the changeset tables to static files

Model of `migrate_account_changesets` and `migrate_storage_changesets`.

* `Cursor`, `walk` — a table in key order, and what a walk over it yields when a read fails.
* `SegmentWriter`, `LawfulWriter` — the static-file writer of one segment, which is not part of
  this repository: its operations, and what in-order calls of them do to the segment.
* `takeBlock`, `copyBlocks` — the peeking inner loop and the loop over the blocks.
* `migrateChangesets` — the shared body; `migrateAccountChangesets` and
  `migrateStorageChangesets` are its two members.

The inner loop is a `while let Some(Ok(..)) = walker.peek()`: a read error ends it exactly as the
end of the table does, and the `?` behind the peek only ever sees the entry that was peeked.  So
every block from the error on is written empty and the function still returns `Ok`
(`migrateChangesets_ok`).

Principal result: `changesets_lossless_iff`.
-/

set_option autoImplicit false

namespace XLayerReth.MigrateV2

open Lib RcsFilter

/-! ## Tables and cursors -/

/-- A failed read: after how many entries, with which error, and what the walker yields next. -/
structure ReadError (κ ν : Type) where
  position : Nat
  error : String
  rest : List (Except String (κ × ν))

/-- A read cursor: the table in key order, whether the seek fails, and where a read fails. -/
structure Cursor (κ ν : Type) [LinearOrder κ] where
  table : List (κ × ν)
  sorted : table.Pairwise (fun x y => x.1 ≤ y.1)
  seekError : Option String
  readError : Option (ReadError κ ν)

/-- The entries from a start key on. -/
def Cursor.found {κ ν : Type} [LinearOrder κ] (c : Cursor κ ν) (start : κ) : List (κ × ν) :=
  c.table.dropWhile (fun kv => kv.1 < start)

/-- `cursor.walk(Some(start))?`: the items of the walker. -/
def Cursor.walk {κ ν : Type} [LinearOrder κ] (c : Cursor κ ν) (start : κ) :
    Except String (List (Except String (κ × ν))) :=
  match c.seekError with
  | some e => .error e
  | none =>
    match c.readError with
    | none => .ok ((c.found start).map .ok)
    | some r => .ok (((c.found start).take r.position).map .ok ++ .error r.error :: r.rest)

/-! ## The segment writer -/

/-- The writer that `latest_writer` hands out for one segment. -/
structure SegmentWriter (α W : Type) where
  currentBlockNumber : W → Option Nat
  incrementBlock : Nat → W → Except String W
  ensureAtBlock : Nat → W → Except String W
  append : List α → Nat → W → Except String W
  commit : W → Except String W
  /-- The entries the segment holds under a block. -/
  blocks : W → Nat → Option (List α)

/-- `next_block_number`: a segment without blocks starts at the genesis block. -/
def SegmentWriter.nextBlock {α W : Type} (sw : SegmentWriter α W) (genesisBlock : Nat) (w : W) :
    Nat :=
  match sw.currentBlockNumber w with
  | none => genesisBlock
  | some b => b + 1

/-- In-order calls succeed and act on the segment as on a map from block to entries. -/
structure LawfulWriter {α W : Type} (sw : SegmentWriter α W) (genesisBlock : Nat) : Prop where
  blocks_fresh : ∀ w, sw.currentBlockNumber w = none → ∀ b, sw.blocks w b = none
  incrementBlock_next : ∀ w, ∃ w', sw.incrementBlock (sw.nextBlock genesisBlock w) w = .ok w' ∧
    sw.currentBlockNumber w' = some (sw.nextBlock genesisBlock w) ∧
    ∀ b, sw.blocks w' b = if b = sw.nextBlock genesisBlock w then some [] else sw.blocks w b
  append_next : ∀ w es, ∃ w', sw.append es (sw.nextBlock genesisBlock w) w = .ok w' ∧
    sw.currentBlockNumber w' = some (sw.nextBlock genesisBlock w) ∧
    ∀ b, sw.blocks w' b = if b = sw.nextBlock genesisBlock w then some es else sw.blocks w b
  /-- `ensure_at_block` opens with `increment_block(0)` on a fresh writer. -/
  ensureAtBlock_next : ∀ w advanceTo, (sw.currentBlockNumber w = none → genesisBlock = 0) →
    sw.nextBlock genesisBlock w ≤ advanceTo + 1 →
    ∃ w', sw.ensureAtBlock advanceTo w = .ok w' ∧ sw.currentBlockNumber w' = some advanceTo ∧
      ∀ b, sw.blocks w' b =
        if sw.nextBlock genesisBlock w ≤ b ∧ b ≤ advanceTo then some [] else sw.blocks w b
  commit_ok : ∀ w, ∃ w', sw.commit w = .ok w' ∧
    sw.currentBlockNumber w' = sw.currentBlockNumber w ∧ sw.blocks w' = sw.blocks w

/-! ## The migration -/

/-- What tells the two changeset tables apart: the block of a key, the key a walk from a block
starts at, and the entry that is written for a row. -/
structure Changesets (κ ν α : Type) where
  blockNumber : κ → Nat
  start : Nat → κ
  entry : κ × ν → α

variable {κ ν α W : Type}

/-- `PruneCheckpoint`, with the field the migration reads. -/
structure PruneCheckpoint where
  blockNumber : Option Nat

/-- `max(prune_checkpoint + 1, genesis_block)` in `u64`. -/
def firstBlock (prune : Option PruneCheckpoint) (genesisBlock : Nat) : Nat :=
  max (((prune.bind (fun cp => cp.blockNumber)).map (fun b => (b + 1) % 2 ^ 64)).getD 0)
    genesisBlock

/-- Fill the leading gap `[genesis, first_block)` with empty blocks. -/
def fillGap (sw : SegmentWriter α W) (genesisBlock first : Nat) (w : W) : Except String W :=
  if first > genesisBlock then do
    let w ←
      if genesisBlock > 0 ∧ sw.currentBlockNumber w = none then sw.incrementBlock genesisBlock w
      else .ok w
    sw.ensureAtBlock (first - 1) w
  else .ok w

/-- `while let Some(Ok(..)) = walker.peek()`: the entries of one block, and the walker behind them.
An entry of another block, a read error and the end of the table all stay unconsumed. -/
def takeBlock (t : Changesets κ ν α) (block : Nat) :
    List (Except String (κ × ν)) → List α × List (Except String (κ × ν))
  | .ok kv :: walker =>
    if t.blockNumber kv.1 ≠ block then ([], .ok kv :: walker)
    else
      let (entries, walker) := takeBlock t block walker
      (t.entry kv :: entries, walker)
  | walker => ([], walker)

/-- `for block in first_block..=tip`. -/
def copyBlocks (t : Changesets κ ν α) (sw : SegmentWriter α W) :
    List Nat → List (Except String (κ × ν)) → W → Except String W
  | [], _, w => .ok w
  | block :: blocks, walker, w => do
    let (entries, walker) := takeBlock t block walker
    let w ← sw.append entries block w
    copyBlocks t sw blocks walker w

/-- The body of both migrations. -/
def migrateChangesets [LinearOrder κ] (t : Changesets κ ν α) (sw : SegmentWriter α W)
    (prune : Option PruneCheckpoint) (cursor : Cursor κ ν) (tip genesisBlock : Nat) (writer : W) :
    Except String W := do
  let first := firstBlock prune genesisBlock
  let writer ← fillGap sw genesisBlock first writer
  let walker ← cursor.walk (t.start first)
  let writer ← copyBlocks t sw (List.range' first (tip + 1 - first)) walker writer
  sw.commit writer

/-- `AccountChangeSets`: rows keyed by the block number, stored as they are. -/
def accountChangeSets (A : Type) : Changesets Nat A A where
  blockNumber k := k
  start b := b
  entry kv := kv.2

structure BlockNumberAddress where
  blockNumber : Nat
  address : Address

theorem blockNumberAddress_injective :
    Function.Injective (fun k : BlockNumberAddress => toLex (k.blockNumber, k.address.toNat)) := by
  rintro ⟨b, a⟩ ⟨b', a'⟩ h
  obtain ⟨hb, ha⟩ := Prod.mk.inj (toLex.injective h)
  exact congrArg₂ BlockNumberAddress.mk hb (BitVec.eq_of_toNat_eq ha)

/-- Keys are ordered by block number, then by address. -/
instance : LinearOrder BlockNumberAddress :=
  LinearOrder.lift' (fun k => toLex (k.blockNumber, k.address.toNat)) blockNumberAddress_injective

structure StorageEntry (B U : Type) where
  key : B
  value : U

structure StorageBeforeTx (B U : Type) where
  address : Address
  key : B
  value : U
  deriving DecidableEq

/-- `StorageChangeSets`: the address moves from the key into the entry. -/
def storageChangeSets (B U : Type) :
    Changesets BlockNumberAddress (StorageEntry B U) (StorageBeforeTx B U) where
  blockNumber k := k.blockNumber
  start b := ⟨b, 0⟩
  entry kv := ⟨kv.1.address, kv.2.key, kv.2.value⟩

def migrateAccountChangesets {A : Type} (sw : SegmentWriter A W) :=
  migrateChangesets (accountChangeSets A) sw

def migrateStorageChangesets {B U : Type} (sw : SegmentWriter (StorageBeforeTx B U) W) :=
  migrateChangesets (storageChangeSets B U) sw

/-! ## What the migration is for -/

/-- The table's entries of a block, in table order. -/
def entriesOf (t : Changesets κ ν α) (table : List (κ × ν)) (b : Nat) : List α :=
  (table.filter (fun kv => t.blockNumber kv.1 = b)).map t.entry

/-- The blocks of `[first, tip]` hold exactly the table's entries, the blocks of the gap are empty,
and there is no other block. -/
structure Lossless (t : Changesets κ ν α) (table : List (κ × ν)) (genesisBlock first tip : Nat)
    (blocks : Nat → Option (List α)) : Prop where
  copied : ∀ b, first ≤ b → b ≤ tip → blocks b = some (entriesOf t table b)
  gap : ∀ b, genesisBlock ≤ b → b < first → blocks b = some []
  nothingElse : ∀ b, b < genesisBlock ∨ (first ≤ b ∧ tip < b) → blocks b = none

/-- The rows of the blocks `[first, tip]`. -/
def rowsIn (t : Changesets κ ν α) (table : List (κ × ν)) (first tip : Nat) : List (κ × ν) :=
  table.filter (fun kv => first ≤ t.blockNumber kv.1 ∧ t.blockNumber kv.1 ≤ tip)

/-- The walker yields a read error before the last row of the blocks `[first, tip]`. -/
def ReadErrorInRange [LinearOrder κ] (t : Changesets κ ν α) (cursor : Cursor κ ν)
    (first tip : Nat) : Prop :=
  ∃ r, cursor.readError = some r ∧ r.position < (rowsIn t cursor.table first tip).length

/-- A migration loses nothing: an `Ok` means a lossless copy, and a read error in the range is
returned. -/
structure LosesNothing [LinearOrder κ] (t : Changesets κ ν α) (sw : SegmentWriter α W)
    (cursor : Cursor κ ν) (genesisBlock first tip : Nat) (result : Except String W) : Prop where
  ok : ∀ w, result = .ok w → Lossless t cursor.table genesisBlock first tip (sw.blocks w)
  readError : cursor.seekError.isSome ∨ ReadErrorInRange t cursor first tip → ∃ e, result = .error e

/-! ## The two tables -/

/-- Blocks follow the key order, and a walk from a block starts at its first row. -/
structure LawfulChangesets [LinearOrder κ] (t : Changesets κ ν α) : Prop where
  blockNumber_mono : ∀ k k', k ≤ k' → t.blockNumber k ≤ t.blockNumber k'
  lt_start : ∀ k b, k < t.start b ↔ t.blockNumber k < b

theorem accountChangeSets_lawful (A : Type) : LawfulChangesets (accountChangeSets A) where
  blockNumber_mono _ _ h := h
  lt_start _ _ := Iff.rfl

theorem storageChangeSets_lawful (B U : Type) : LawfulChangesets (storageChangeSets B U) where
  blockNumber_mono k k' h := by
    rcases Prod.Lex.toLex_le_toLex.mp h with h | h
    · exact Nat.le_of_lt h
    · exact Nat.le_of_eq h.1
  lt_start k b := by
    show toLex (k.blockNumber, k.address.toNat) < toLex (b, (0 : Address).toNat) ↔ k.blockNumber < b
    -- no address is below `Address::ZERO`
    rw [Prod.Lex.toLex_lt_toLex]
    simp

section Lawful

variable [LinearOrder κ] {t : Changesets κ ν α} (ht : LawfulChangesets t)
include ht

theorem sortedBy_table (c : Cursor κ ν) : SortedBy (fun kv => t.blockNumber kv.1) c.table :=
  c.sorted.imp (fun h => ht.blockNumber_mono _ _ h)

theorem found_start (c : Cursor κ ν) (first : Nat) :
    c.found (t.start first) = c.table.filter (fun kv => first ≤ t.blockNumber kv.1) := by
  have hlt : (fun kv : κ × ν => decide (kv.1 < t.start first)) =
      fun kv => decide (t.blockNumber kv.1 < first) :=
    funext (fun kv => decide_eq_decide.mpr (ht.lt_start kv.1 first))
  rw [Cursor.found, hlt]
  exact (sortedBy_table ht c).dropWhile_lt

theorem sortedBy_found (c : Cursor κ ν) (first : Nat) :
    SortedBy (fun kv => t.blockNumber kv.1) (c.found (t.start first)) := by
  rw [found_start ht]
  exact (sortedBy_table ht c).filter _

end Lawful

/-! ## The loops -/

/-- The rest of a walker that the peeking loop never gets past. -/
def Stops (walker : List (Except String (κ × ν))) : Prop := ∀ kv rest, walker ≠ .ok kv :: rest

theorem takeBlock_stops {t : Changesets κ ν α} {block : Nat} {walker : List (Except String (κ × ν))}
    (h : Stops walker) : takeBlock t block walker = ([], walker) := by
  match walker with
  | [] => rfl
  | .error _ :: _ => rfl
  | .ok kv :: rest => exact absurd rfl (h kv rest)

/-- The inner loop takes the entries of its block and leaves those of the later ones. -/
theorem takeBlock_map_ok {t : Changesets κ ν α} {block : Nat} {tail : List (Except String (κ × ν))}
    (htail : Stops tail) {l : List (κ × ν)} (hl : SortedBy (fun kv => t.blockNumber kv.1) l)
    (hge : ∀ kv ∈ l, block ≤ t.blockNumber kv.1) :
    takeBlock t block (l.map .ok ++ tail) =
      (entriesOf t l block,
        (l.filter (fun kv => block + 1 ≤ t.blockNumber kv.1)).map .ok ++ tail) := by
  induction l with
  | nil => exact takeBlock_stops htail
  | cons kv l ih =>
    have hle := hge kv (List.mem_cons_self ..)
    by_cases hkv : t.blockNumber kv.1 = block
    · have := ih hl.tail (fun x hx => hge x (List.mem_cons_of_mem _ hx))
      simp [takeBlock, hkv, this, entriesOf]
    · -- the block of this row is a later one, and so are those of the rows behind it
      have hlt : block + 1 ≤ t.blockNumber kv.1 := by omega
      have hlater : ∀ x ∈ kv :: l, block + 1 ≤ t.blockNumber x.1 := by
        rintro x (_ | ⟨_, hx⟩)
        · exact hlt
        · exact Nat.le_trans hlt (hl.head_le x hx)
      have hkeep : (kv :: l).filter (fun x => block + 1 ≤ t.blockNumber x.1) = kv :: l := by
        rw [List.filter_eq_self]
        exact fun x hx => decide_eq_true (hlater x hx)
      have hnone : (kv :: l).filter (fun x => t.blockNumber x.1 = block) = [] := by
        rw [List.filter_eq_nil_iff]
        intro x hx
        have := hlater x hx
        simp only [decide_eq_true_eq]
        omega
      unfold entriesOf
      rw [hkeep, hnone, List.map_cons, List.cons_append, takeBlock, if_pos hkv, List.map_nil]

theorem entriesOf_filter_later (t : Changesets κ ν α) (l : List (κ × ν)) {block b : Nat}
    (hb : block < b) :
    entriesOf t (l.filter (fun kv => block + 1 ≤ t.blockNumber kv.1)) b = entriesOf t l b := by
  unfold entriesOf
  rw [List.filter_filter]
  congr 1
  apply List.filter_congr
  intro kv _
  by_cases h : t.blockNumber kv.1 = b
  · simp [h]
    omega
  · simp [h]

variable {sw : SegmentWriter α W} {genesisBlock : Nat}

/-- The loop over the blocks writes, under each block, the rows of that block. -/
theorem copyBlocks_ok (hsw : LawfulWriter sw genesisBlock) (t : Changesets κ ν α)
    {tail : List (Except String (κ × ν))} (htail : Stops tail) (n : Nat) :
    ∀ (first : Nat) (l : List (κ × ν)) (w : W), SortedBy (fun kv => t.blockNumber kv.1) l →
      (∀ kv ∈ l, first ≤ t.blockNumber kv.1) → sw.nextBlock genesisBlock w = first →
      ∃ w', copyBlocks t sw (List.range' first n) (l.map .ok ++ tail) w = .ok w' ∧
        ∀ b, sw.blocks w' b =
          if first ≤ b ∧ b < first + n then some (entriesOf t l b) else sw.blocks w b := by
  induction n with
  | zero =>
    intro first l w _ _ _
    refine ⟨w, rfl, fun b => ?_⟩
    rw [if_neg (by omega)]
  | succ n ih =>
    intro first l w hl hge hnext
    obtain ⟨w₁, happ, hcur, hblocks⟩ := hsw.append_next w (entriesOf t l first)
    rw [hnext] at happ hcur hblocks
    have hnext₁ : sw.nextBlock genesisBlock w₁ = first + 1 := by rw [SegmentWriter.nextBlock, hcur]
    obtain ⟨w₂, hcopy, hblocks₂⟩ := ih (first + 1)
      (l.filter (fun kv => first + 1 ≤ t.blockNumber kv.1)) w₁ (hl.filter _)
      (fun kv hkv => by simpa using (List.mem_filter.mp hkv).2) hnext₁
    refine ⟨w₂, ?_, fun b => ?_⟩
    · rw [List.range'_succ, copyBlocks, takeBlock_map_ok htail hl hge]
      simp only [happ]
      exact hcopy
    · rw [hblocks₂, hblocks]
      rcases Nat.lt_trichotomy b first with hb | rfl | hb
      · rw [if_neg (by omega), if_neg (by omega), if_neg (by omega)]
      · rw [if_neg (by omega), if_pos rfl, if_pos (by omega)]
      · rw [entriesOf_filter_later t l hb]
        by_cases hlt : b < first + 1 + n
        · rw [if_pos ⟨by omega, hlt⟩, if_pos (by omega)]
        · rw [if_neg (by omega), if_neg (by omega), if_neg (by omega)]

/-- On an empty segment the gap is filled with empty blocks, whatever the genesis block. -/
theorem fillGap_ok (hsw : LawfulWriter sw genesisBlock) {first : Nat}
    (hfirst : genesisBlock ≤ first)
    {w : W} (hw : sw.currentBlockNumber w = none) :
    ∃ w', fillGap sw genesisBlock first w = .ok w' ∧ sw.nextBlock genesisBlock w' = first ∧
      ∀ b, sw.blocks w' b = if genesisBlock ≤ b ∧ b < first then some [] else none := by
  have hfresh := hsw.blocks_fresh w hw
  have hnext : sw.nextBlock genesisBlock w = genesisBlock := by rw [SegmentWriter.nextBlock, hw]
  unfold fillGap
  by_cases hgap : first > genesisBlock
  · rw [if_pos hgap]
    by_cases hg : genesisBlock > 0
    · -- bridge to genesis first, then fill from there
      obtain ⟨w₁, hinc, hcur₁, hblocks₁⟩ := hsw.incrementBlock_next w
      rw [hnext] at hinc hcur₁ hblocks₁
      have hnext₁ : sw.nextBlock genesisBlock w₁ = genesisBlock + 1 := by
        rw [SegmentWriter.nextBlock, hcur₁]
      obtain ⟨w₂, hens, hcur₂, hblocks₂⟩ := hsw.ensureAtBlock_next w₁ (first - 1)
        (by simp [hcur₁]) (by omega)
      refine ⟨w₂, ?_, ?_, fun b => ?_⟩
      · rw [if_pos ⟨hg, hw⟩, hinc]
        exact hens
      · rw [SegmentWriter.nextBlock, hcur₂]
        show first - 1 + 1 = first
        omega
      · rw [hblocks₂, hblocks₁, hfresh, hnext₁]
        by_cases hb : b = genesisBlock
        · rw [if_neg (by omega), if_pos hb, if_pos (by omega)]
        · by_cases hin : genesisBlock ≤ b ∧ b < first
          · rw [if_pos (by omega), if_pos hin]
          · rw [if_neg (by omega), if_neg hb, if_neg hin]
    · obtain ⟨w₂, hens, hcur₂, hblocks₂⟩ := hsw.ensureAtBlock_next w (first - 1)
        (fun _ => by omega) (by omega)
      refine ⟨w₂, ?_, ?_, fun b => ?_⟩
      · rw [if_neg (by omega)]
        exact hens
      · rw [SegmentWriter.nextBlock, hcur₂]
        show first - 1 + 1 = first
        omega
      · rw [hblocks₂, hfresh, hnext]
        by_cases hin : genesisBlock ≤ b ∧ b < first
        · rw [if_pos (by omega), if_pos hin]
        · rw [if_neg (by omega), if_neg hin]
  · rw [if_neg hgap]
    refine ⟨w, rfl, ?_, fun b => ?_⟩
    · omega
    · rw [hfresh, if_neg (by omega)]

/-! ## The whole migration -/

section Migration

variable [LinearOrder κ] {t : Changesets κ ν α} {cursor : Cursor κ ν}

/-- The rows the walker yields before it ends or fails. -/
def Cursor.readable (c : Cursor κ ν) (start : κ) : List (κ × ν) :=
  match c.readError with
  | none => c.found start
  | some r => (c.found start).take r.position

theorem walk_readable (hseek : cursor.seekError = none) (start : κ) :
    ∃ tail, Stops tail ∧ cursor.walk start = .ok ((cursor.readable start).map .ok ++ tail) := by
  unfold Cursor.walk Cursor.readable
  rw [hseek]
  cases cursor.readError with
  | none => exact ⟨[], by simp [Stops], by simp⟩
  | some r => exact ⟨.error r.error :: r.rest, by simp [Stops], rfl⟩

theorem readable_sublist (c : Cursor κ ν) (start : κ) :
    (c.readable start).Sublist (c.found start) := by
  unfold Cursor.readable
  cases c.readError with
  | none => exact List.Sublist.refl _
  | some r => exact List.take_sublist _ _

/-- Once the walk is open the migration returns `Ok`, with the rows read before the first read error
and empty blocks from there on. -/
theorem migrateChangesets_ok (ht : LawfulChangesets t) (hsw : LawfulWriter sw genesisBlock)
    (hseek : cursor.seekError = none) (prune : Option PruneCheckpoint) (tip : Nat) {w : W}
    (hw : sw.currentBlockNumber w = none) :
    ∃ w', migrateChangesets t sw prune cursor tip genesisBlock w = .ok w' ∧
      ∀ b, sw.blocks w' b =
        if firstBlock prune genesisBlock ≤ b ∧ b ≤ tip then
          some (entriesOf t (cursor.readable (t.start (firstBlock prune genesisBlock))) b)
        else if genesisBlock ≤ b ∧ b < firstBlock prune genesisBlock then some [] else none := by
  have hfirst : genesisBlock ≤ firstBlock prune genesisBlock := Nat.le_max_right _ _
  unfold migrateChangesets
  generalize firstBlock prune genesisBlock = first at hfirst
  obtain ⟨w₁, hfill, hnext₁, hblocks₁⟩ := fillGap_ok hsw hfirst hw
  obtain ⟨tail, htail, hwalk⟩ := walk_readable hseek (t.start first)
  have hfound : ∀ kv ∈ cursor.found (t.start first), first ≤ t.blockNumber kv.1 := by
    intro kv hkv
    rw [found_start ht] at hkv
    simpa using (List.mem_filter.mp hkv).2
  have hsub := readable_sublist cursor (t.start first)
  obtain ⟨w₂, hcopy, hblocks₂⟩ := copyBlocks_ok hsw t htail (tip + 1 - first) first
    (cursor.readable (t.start first)) w₁
      (List.Pairwise.sublist hsub (sortedBy_found ht cursor first))
    (fun kv hkv => hfound kv (hsub.subset hkv)) hnext₁
  obtain ⟨w₃, hcommit, -, hblocks₃⟩ := hsw.commit_ok w₂
  refine ⟨w₃, ?_, fun b => ?_⟩
  · simp only [hfill, hwalk, bind, Except.bind, hcopy, hcommit]
  · rw [hblocks₃, hblocks₂, hblocks₁]
    by_cases hin : first ≤ b ∧ b ≤ tip
    · rw [if_pos ⟨hin.1, by omega⟩, if_pos hin]
    · rw [if_neg (by omega), if_neg hin]

theorem migrateChangesets_seekError (hsw : LawfulWriter sw genesisBlock)
    (hseek : cursor.seekError.isSome) (prune : Option PruneCheckpoint) (tip : Nat) {w : W}
    (hw : sw.currentBlockNumber w = none) :
    ∃ e, migrateChangesets t sw prune cursor tip genesisBlock w = .error e := by
  obtain ⟨e, he⟩ := Option.isSome_iff_exists.mp hseek
  have hfirst : genesisBlock ≤ firstBlock prune genesisBlock := Nat.le_max_right _ _
  obtain ⟨w₁, hfill, -, -⟩ := fillGap_ok hsw hfirst hw
  refine ⟨e, ?_⟩
  simp only [migrateChangesets, hfill, Cursor.walk, he, bind, Except.bind]

/-- A walk without a read error in the range reads every row of the range. -/
theorem entriesOf_readable (ht : LawfulChangesets t) {first tip : Nat}
    (h : ¬ ReadErrorInRange t cursor first tip) {b : Nat} (hfirst : first ≤ b) (htip : b ≤ tip) :
    entriesOf t (cursor.readable (t.start first)) b = entriesOf t cursor.table b := by
  have hfound : entriesOf t (cursor.found (t.start first)) b = entriesOf t cursor.table b := by
    rw [found_start ht, entriesOf, entriesOf, List.filter_filter]
    congr 1
    apply List.filter_congr
    intro kv _
    by_cases hkv : t.blockNumber kv.1 = b
    · simp [hkv, hfirst]
    · simp [hkv]
  unfold Cursor.readable
  cases hr : cursor.readError with
  | none => exact hfound
  | some r =>
    have hrows :
        ((cursor.found (t.start first)).filter (fun kv => t.blockNumber kv.1 ≤ tip)).length ≤
        r.position := by
      rw [found_start ht, List.filter_filter]
      have hpos : ¬ r.position < (rowsIn t cursor.table first tip).length :=
        fun hlt => h ⟨r, hr, hlt⟩
      simpa [rowsIn, Bool.and_comm] using hpos
    show entriesOf t ((cursor.found (t.start first)).take r.position) b = _
    rw [← hfound, entriesOf, entriesOf, (sortedBy_found ht cursor first).filter_take_eq hrows htip]

/-- One migration loses nothing exactly when the walk cannot be opened at all, or no read error
comes before the last row of the range. -/
theorem losesNothing_iff (ht : LawfulChangesets t) (hsw : LawfulWriter sw genesisBlock)
    (prune : Option PruneCheckpoint) (tip : Nat) {w : W} (hw : sw.currentBlockNumber w = none) :
    LosesNothing t sw cursor genesisBlock (firstBlock prune genesisBlock) tip
        (migrateChangesets t sw prune cursor tip genesisBlock w) ↔
      cursor.seekError.isSome ∨
        ¬ ReadErrorInRange t cursor (firstBlock prune genesisBlock) tip := by
  by_cases hseek : cursor.seekError.isSome
  · obtain ⟨e, he⟩ := @migrateChangesets_seekError _ _ _ _ _ _ _ t _ hsw hseek prune tip w hw
    refine ⟨fun _ => .inl hseek, fun _ => ⟨fun w' hok => ?_, fun _ => ⟨e, he⟩⟩⟩
    rw [he] at hok
    cases hok
  · have hnone : cursor.seekError = none := by simpa using hseek
    obtain ⟨w', hok, hblocks⟩ := migrateChangesets_ok ht hsw hnone prune tip hw
    refine ⟨fun h => .inr (fun hread => ?_), fun h => ?_⟩
    · -- the error is swallowed: the migration returns `Ok`
      obtain ⟨e, he⟩ := h.readError (.inr hread)
      rw [hok] at he
      cases he
    · have hread := h.resolve_left hseek
      refine ⟨fun w₁ hw₁ => ?_, fun herr => absurd herr (not_or.mpr ⟨hseek, hread⟩)⟩
      cases hok.symm.trans hw₁
      refine ⟨fun b hfirst htip => ?_, fun b hg hgap => ?_, fun b hb => ?_⟩
      · rw [hblocks, if_pos ⟨hfirst, htip⟩, entriesOf_readable ht hread hfirst htip]
      · rw [hblocks, if_neg (by omega), if_pos ⟨hg, hgap⟩]
      · have : genesisBlock ≤ firstBlock prune genesisBlock := Nat.le_max_right _ _
        rw [hblocks, if_neg (by omega), if_neg (by omega)]

end Migration

/-! ## A segment as the list of its blocks -/

/-- A segment kept as the list of its blocks from genesis on. -/
def listSegment (α : Type) (genesisBlock : Nat) : SegmentWriter α (List (List α)) where
  currentBlockNumber w := if w = [] then none else some (genesisBlock + w.length - 1)
  incrementBlock b w :=
    if b = genesisBlock + w.length then .ok (w ++ [[]]) else .error "unexpected block number"
  ensureAtBlock advanceTo w :=
    if (w = [] → genesisBlock = 0) ∧ genesisBlock + w.length ≤ advanceTo + 1 then
      .ok (w ++ List.replicate (advanceTo + 1 - (genesisBlock + w.length)) [])
    else .error "unexpected block number"
  append es b w :=
    if b = genesisBlock + w.length then .ok (w ++ [es]) else .error "unexpected block number"
  commit w := .ok w
  blocks w b := if b < genesisBlock then none else w[b - genesisBlock]?

theorem nextBlock_listSegment (genesisBlock : Nat) (w : List (List α)) :
    (listSegment α genesisBlock).nextBlock genesisBlock w = genesisBlock + w.length := by
  cases w with
  | nil => rfl
  | cons x w =>
    show genesisBlock + (w.length + 1) - 1 + 1 = genesisBlock + (w.length + 1)
    omega

theorem blocks_listSegment_concat (genesisBlock : Nat) (w : List (List α)) (es : List α) (b : Nat) :
    (listSegment α genesisBlock).blocks (w ++ [es]) b =
      if b = genesisBlock + w.length then some es else (listSegment α genesisBlock).blocks w b := by
  simp only [listSegment]
  by_cases hb : b = genesisBlock + w.length
  · subst hb
    simp
  · by_cases hlt : b < genesisBlock
    · simp [hlt, hb]
    · have hne : b - genesisBlock ≠ w.length := by omega
      rw [if_neg hlt, if_neg hb, if_neg hlt, List.getElem?_append]
      split
      · rfl
      · rw [List.getElem?_eq_none (by simp; omega), List.getElem?_eq_none (by omega)]

theorem listSegment_lawful (α : Type) (genesisBlock : Nat) :
    LawfulWriter (listSegment α genesisBlock) genesisBlock where
  blocks_fresh w hw b := by
    have hnil : w = [] := by
      by_contra hne
      simp [listSegment, hne] at hw
    simp [listSegment, hnil]
  incrementBlock_next w := by
    refine ⟨w ++ [[]], ?_, ?_, fun b => ?_⟩
    · rw [nextBlock_listSegment]
      simp [listSegment]
    · rw [nextBlock_listSegment]
      simp [listSegment]
    · rw [nextBlock_listSegment, blocks_listSegment_concat]
  append_next w es := by
    refine ⟨w ++ [es], ?_, ?_, fun b => ?_⟩
    · rw [nextBlock_listSegment]
      simp [listSegment]
    · rw [nextBlock_listSegment]
      simp [listSegment]
    · rw [nextBlock_listSegment, blocks_listSegment_concat]
  ensureAtBlock_next w advanceTo hfresh hle := by
    rw [nextBlock_listSegment] at hle
    have hzero : w = [] → genesisBlock = 0 := fun h => hfresh (by simp [listSegment, h])
    refine ⟨w ++ List.replicate (advanceTo + 1 - (genesisBlock + w.length)) [], ?_, ?_, fun b => ?_⟩
    · exact if_pos ⟨hzero, hle⟩
    · have hne : w ++ List.replicate (advanceTo + 1 - (genesisBlock + w.length)) [] ≠ [] := by
        intro h
        have hlen := congrArg List.length h
        have hg := hzero (List.append_eq_nil_iff.mp h).1
        simp only [List.length_append, List.length_replicate, List.length_nil] at hlen
        omega
      show (if _ then none else some _) = some advanceTo
      rw [if_neg hne, List.length_append, List.length_replicate]
      have := List.length_pos_iff.mpr hne
      rw [List.length_append, List.length_replicate] at this
      congr 1
      omega
    · rw [nextBlock_listSegment]
      simp only [listSegment]
      by_cases hlt : b < genesisBlock
      · rw [if_pos hlt, if_neg (by omega), if_pos hlt]
      · rw [if_neg hlt, if_neg hlt, List.getElem?_append, List.getElem?_replicate]
        by_cases hin : b - genesisBlock < w.length
        · rw [if_pos hin, if_neg (by omega)]
        · rw [if_neg hin, List.getElem?_eq_none (by omega)]
          by_cases hto : b ≤ advanceTo
          · rw [if_pos (by omega), if_pos (by omega)]
          · rw [if_neg (by omega), if_neg (by omega)]
  commit_ok w := ⟨w, rfl, rfl, rfl⟩

/-! ## The two migrations -/

/-- **Changeset migration is lossless exactly when no read fails in its range.**  For every content
of the tables, prune checkpoint, genesis block and tip, and wherever a read fails: on an empty
segment `migrate_account_changesets` and `migrate_storage_changesets` either copy every row of
`[first_block, tip]` under its block or report the failed read, if and only if the walk cannot be
opened or no read error comes before the last row of that range. -/
theorem changesets_lossless_iff {A B U W' : Type} {genesisBlock : Nat}
    (swA : SegmentWriter A W) (hA : LawfulWriter swA genesisBlock)
    (swS : SegmentWriter (StorageBeforeTx B U) W') (hS : LawfulWriter swS genesisBlock)
    (pruneA pruneS : Option PruneCheckpoint) (cA : Cursor Nat A)
    (cS : Cursor BlockNumberAddress (StorageEntry B U)) (tip : Nat) (wA : W) (wS : W')
    (hwA : swA.currentBlockNumber wA = none) (hwS : swS.currentBlockNumber wS = none) :
    (LosesNothing (accountChangeSets A) swA cA genesisBlock (firstBlock pruneA genesisBlock) tip
        (migrateAccountChangesets swA pruneA cA tip genesisBlock wA) ↔
      cA.seekError.isSome ∨
        ¬ ReadErrorInRange (accountChangeSets A) cA (firstBlock pruneA genesisBlock) tip) ∧
    (LosesNothing (storageChangeSets B U) swS cS genesisBlock (firstBlock pruneS genesisBlock) tip
        (migrateStorageChangesets swS pruneS cS tip genesisBlock wS) ↔
      cS.seekError.isSome ∨
        ¬ ReadErrorInRange (storageChangeSets B U) cS (firstBlock pruneS genesisBlock) tip) := by
  constructor
  · exact losesNothing_iff (accountChangeSets_lawful A) hA pruneA tip hwA
  · exact losesNothing_iff (storageChangeSets_lawful B U) hS pruneS tip hwS

/-- The account changesets of three blocks, read by a cursor whose second read fails. -/
def failingCursor : Cursor Nat Nat where
  table := [(0, 10), (1, 11), (2, 12)]
  sorted := by decide
  seekError := none
  readError := some ⟨1, "MDBX_CORRUPTED", []⟩

/-- The storage changesets of blocks 6 to 8, read without an error. -/
def soundCursor : Cursor BlockNumberAddress (StorageEntry Nat Nat) where
  table := [(⟨6, 3⟩, ⟨0, 1⟩), (⟨7, 1⟩, ⟨4, 5⟩), (⟨7, 1⟩, ⟨5, 6⟩), (⟨7, 2⟩, ⟨4, 5⟩),
    (⟨8, 1⟩, ⟨4, 0⟩)]
  sorted := by decide
  seekError := none
  readError := none

/-- On a chain that starts at block 5 and is pruned up to block 6, blocks 5 and 6 are bridged and
the rows of block 7 are copied, for a tip at block 7. -/
theorem changesets_lossless_pruned :
    migrateStorageChangesets (listSegment _ 5) (some ⟨some 6⟩) soundCursor 7 5 [] =
      .ok [[], [], [⟨1, 4, 5⟩, ⟨1, 5, 6⟩, ⟨2, 4, 5⟩]] ∧
    LosesNothing (storageChangeSets Nat Nat) (listSegment _ 5) soundCursor 5 7 7
      (migrateStorageChangesets (listSegment _ 5) (some ⟨some 6⟩) soundCursor 7 5 []) := by
  refine ⟨by rfl, ?_⟩
  have h := changesets_lossless_iff (listSegment Nat 5) (listSegment_lawful _ 5) (listSegment _ 5)
    (listSegment_lawful _ 5) none (some ⟨some 6⟩) failingCursor soundCursor 7 [] [] rfl rfl
  refine h.2.mpr (.inr ?_)
  rintro ⟨r, hr, -⟩
  cases hr

/-- A read error behind block 0 is swallowed: blocks 1 and 2 are written empty, and the migration
returns `Ok`. -/
theorem changesets_lost_after_read_error :
    migrateAccountChangesets (listSegment Nat 0) none failingCursor 2 0 [] = .ok [[10], [], []] ∧
    ¬ LosesNothing (accountChangeSets Nat) (listSegment Nat 0) failingCursor 0 0 2
      (migrateAccountChangesets (listSegment Nat 0) none failingCursor 2 0 []) := by
  have hok : migrateAccountChangesets (listSegment Nat 0) none failingCursor 2 0 [] =
    .ok [[10], [], []] := by rfl
  refine ⟨hok, fun h => ?_⟩
  have hcopied := (h.ok _ hok).copied 1 (by decide) (by decide)
  revert hcopied
  decide

end XLayerReth.MigrateV2
