import Mathlib.Data.List.DropRight
import XLayerReth.Builder.Replay

/-!
# The cached flashblock sequence

What `get_flashblocks_sequence_txs` finds after any calls of `add_flashblock_payload`: payloads of
several ids, in any order, with gaps, repetitions and late bases.

* `cacheAfter` — the cache after the calls; `latest` — the payloads of the longest run of calls at
  the end with the last payload id.
* `cacheAfter_eq` — the cache holds exactly these, and the hash of the first base among them.
* `found_numbered` — the index check from the second sorted payload on, against a numbering from
  0.

Principal result: `cached_sequence_exact`.
-/

set_option autoImplicit false

namespace XLayerReth.Builder

open RcsFilter
open XLayerReth.Lib

/-! ## The cache after a sequence of calls -/

/-- One call: the payload id and the payload. -/
abbrev AddCall := BitVec 64 × Flashblock

/-- The cache after the calls. -/
def cacheAfter (calls : List AddCall) : Option FlashblockPayloadsSequence :=
  calls.foldl (fun cache call => addFlashblockPayload call.1 cache call.2) none

/-- The payloads of the longest suffix of the calls that share the last payload id. -/
def latest (calls : List AddCall) : List Flashblock :=
  match calls.getLast? with
  | none => []
  | some last => (calls.rtakeWhile (fun call => call.1 = last.1)).map Prod.snd

theorem cacheAfter_concat (calls : List AddCall) (call : AddCall) :
    cacheAfter (calls ++ [call]) = addFlashblockPayload call.1 (cacheAfter calls) call.2 := by
  unfold cacheAfter
  rw [List.foldl_append]
  rfl

theorem latest_same {calls : List AddCall} {last call : AddCall}
    (hlast : calls.getLast? = some last) (hid : last.1 = call.1) :
    latest (calls ++ [call]) = latest calls ++ [call.2] := by
  unfold latest
  rw [List.getLast?_concat, hlast]
  dsimp only
  rw [List.rtakeWhile_concat_pos _ _ call (by simp), hid, List.map_append]
  rfl

theorem latest_new {calls : List AddCall} {call : AddCall}
    (hlast : ∀ last ∈ calls.getLast?, last.1 ≠ call.1) : latest (calls ++ [call]) = [call.2] := by
  unfold latest
  rw [List.getLast?_concat]
  dsimp only
  rw [List.rtakeWhile_concat_pos _ _ call (by simp)]
  have hnil : calls.rtakeWhile (fun c => c.1 = call.1) = [] := by
    rw [List.rtakeWhile_eq_nil_iff]
    intro hne
    have hne' := hlast (calls.getLast hne) (List.getLast?_eq_some_getLast hne)
    simpa using hne'
  rw [hnil]
  rfl

/-- **The cache** holds the payloads of the longest suffix with the last id, and the parent hash
    of the first of them that has one. -/
theorem cacheAfter_eq (calls : List AddCall) :
    cacheAfter calls = calls.getLast?.map (fun last =>
      ⟨last.1, (latest calls).findSome? Flashblock.parentHash, latest calls⟩) := by
  induction calls using List.reverseRecOn with
  | nil => rfl
  | append_singleton calls call ih =>
    rw [cacheAfter_concat, ih, List.getLast?_concat, Option.map_some]
    cases hlast : calls.getLast? with
    | none =>
      rw [latest_new (by simp [hlast]), List.findSome?_singleton]
      rfl
    | some last =>
      by_cases hid : last.1 = call.1
      · rw [latest_same hlast hid, List.findSome?_append, List.findSome?_singleton]
        simp only [Option.map_some, addFlashblockPayload, hid, if_true]
        cases (latest calls).findSome? Flashblock.parentHash <;> rfl
      · rw [latest_new (by simpa [hlast] using hid), List.findSome?_singleton, Option.map_some,
          addFlashblockPayload, if_neg hid]

theorem mem_latest {calls : List AddCall} {payload : Flashblock} (h : payload ∈ latest calls) :
    ∃ call ∈ calls, call.2 = payload := by
  unfold latest at h
  split at h
  · cases h
  · obtain ⟨call, hcall, rfl⟩ := List.mem_map.mp h
    exact ⟨call, (List.rtakeWhile_suffix _ _).mem hcall, rfl⟩

/-! ## The index check -/

/-- The check passes only when the payloads are numbered in order. -/
theorem indices_of_foldlM {recoverTx : List UInt8 → Option Recovered} :
    ∀ (payloads : List Flashblock) (k : Nat) (acc txs : List Recovered),
      (payloads.zipIdx k).foldlM (sequenceStep recoverTx) acc = some txs →
      payloads.map Flashblock.index = List.range' (k + 1) payloads.length
  | [], _, _, _, _ => rfl
  | payload :: payloads, k, acc, txs, h => by
    rw [List.zipIdx_cons, List.foldlM_cons] at h
    obtain ⟨acc', hstep, hrest⟩ := Option.bind_eq_some_iff.mp h
    have hindex : payload.index = k + 1 := by
      by_contra hne
      rw [sequenceStep, if_pos hne] at hstep
      cases hstep
    rw [List.map_cons, List.length_cons, List.range'_succ, hindex,
      indices_of_foldlM payloads (k + 1) acc' txs hrest]

theorem isSome_mapM (recoverTx : List UInt8 → Option Recovered) : ∀ (txs : List (List UInt8)),
    (txs.mapM recoverTx).isSome = true ↔ ∀ tx ∈ txs, (recoverTx tx).isSome = true
  | [] => by simp
  | tx :: txs => by
    have ih := isSome_mapM recoverTx txs
    rw [List.mapM_cons, List.forall_mem_cons, ← ih]
    cases recoverTx tx with
    | none => simp
    | some r => cases txs.mapM recoverTx <;> simp

/-- Payloads numbered from 0 are what sorting gives. -/
theorem mergeSort_numbered {payloads : List Flashblock} {n : Nat}
    (h : (payloads.map Flashblock.index).Perm (List.range n)) :
    (payloads.mergeSort (fun a b => a.index ≤ b.index)).map Flashblock.index = List.range n := by
  have hperm : ((payloads.mergeSort (fun a b => a.index ≤ b.index)).map Flashblock.index).Perm
      (List.range n) := ((List.mergeSort_perm payloads _).map _).trans h
  have hsorted : ((payloads.mergeSort (fun a b => a.index ≤ b.index)).map Flashblock.index).Pairwise
      (· ≤ ·) := List.pairwise_map.mpr (pairwise_mergeSort_index payloads)
  exact hperm.eq_of_pairwise (fun a b _ _ hab hba => Nat.le_antisymm hab hba) hsorted
    List.pairwise_le_range

/-- A numbered list and its payload of index 0. -/
theorem numbered_cons {ordered : List Flashblock} (hne : ordered ≠ [])
    (hindices : ordered.map Flashblock.index = List.range ordered.length) :
    ∃ first rest, ordered = first :: rest ∧ first.index = 0 ∧
      rest.map Flashblock.index = List.range' (0 + 1) rest.length := by
  cases ordered with
  | nil => exact absurd rfl hne
  | cons first rest =>
    rw [List.map_cons, List.length_cons, List.range_eq_range', List.range'_succ,
      List.cons.injEq] at hindices
    exact ⟨first, rest, rfl, hindices.1, hindices.2⟩

/-! ## What is found -/

/-- The payloads are numbered from 0 without a gap or a repetition, the one of index 0 builds on
    the parent, and all transactions of the others decode. -/
structure CompleteSequence (recoverTx : List UInt8 → Option Recovered)
    (payloads : List Flashblock) (parentHash : B256) : Prop where
  indices : ∃ n, (payloads.map Flashblock.index).Perm (List.range (n + 1))
  parent : ∃ first ∈ payloads, first.index = 0 ∧ first.parentHash = some parentHash
  recovers : ∀ payload ∈ payloads, 1 ≤ payload.index → ∀ tx ∈ payload.transactions,
    (recoverTx tx).isSome = true

section

variable {recoverTx : List UInt8 → Option Recovered} {calls : List AddCall} {parentHash : B256}

theorem getFlashblocksSequenceTxs_cacheAfter :
    getFlashblocksSequenceTxs recoverTx (cacheAfter calls) parentHash =
      if (latest calls).findSome? Flashblock.parentHash ≠ some parentHash then none
      else (((latest calls).mergeSort (fun a b => a.index ≤ b.index)).drop 1).zipIdx.foldlM
        (sequenceStep recoverTx) [] := by
  rw [cacheAfter_eq]
  unfold getFlashblocksSequenceTxs
  cases hlast : calls.getLast? with
  | none =>
    have hnil : latest calls = [] := by
      unfold latest
      rw [hlast]
    rw [hnil, List.findSome?_nil, if_pos (by simp)]
    rfl
  | some last => rfl

/-- A sequence that is found is numbered, and starts with a base on the parent. -/
theorem found_numbered (hbase : ∀ call ∈ calls, call.2.base.isSome = true ↔ call.2.index = 0)
    {txs : List Recovered}
    (h : getFlashblocksSequenceTxs recoverTx (cacheAfter calls) parentHash = some txs) :
    ∃ first rest, (latest calls).mergeSort (fun a b => a.index ≤ b.index) = first :: rest ∧
      (first :: rest).map Flashblock.index = List.range (rest.length + 1) ∧
      first.parentHash = some parentHash ∧
      (preconfirmed rest).mapM recoverTx = some txs := by
  rw [getFlashblocksSequenceTxs_cacheAfter] at h
  by_cases hparent : (latest calls).findSome? Flashblock.parentHash = some parentHash
  · rw [if_neg (not_not_intro hparent)] at h
    obtain ⟨f, hf, hhash⟩ := List.exists_of_findSome?_eq_some hparent
    have hfzero : f.index = 0 := by
      obtain ⟨call, hcall, rfl⟩ := mem_latest hf
      refine (hbase call hcall).mp ?_
      unfold Flashblock.parentHash at hhash
      obtain ⟨base, hb, -⟩ := Option.map_eq_some_iff.mp hhash
      rw [hb]
      rfl
    have hsorted := pairwise_mergeSort_index (latest calls)
    have hmem := (List.mergeSort_perm (latest calls) (fun a b => a.index ≤ b.index)).mem_iff.mpr hf
    generalize (latest calls).mergeSort (fun a b => a.index ≤ b.index) = sorted at h hsorted hmem
    cases sorted with
    | nil => cases hmem
    | cons first rest =>
      have hrest := indices_of_foldlM rest 0 [] txs h
      rw [List.pairwise_cons] at hsorted
      -- the base is the first of the sorted payloads: the others have an index of at least 1
      have hfirst : f = first := by
        rcases List.mem_cons.mp hmem with rfl | hmem
        · rfl
        · have hpos : f.index ∈ List.range' (0 + 1) rest.length :=
            hrest ▸ List.mem_map_of_mem hmem
          rw [List.mem_range'_1] at hpos
          omega
      subst hfirst
      rw [show (f :: rest).drop 1 = rest from rfl, sequence_foldlM recoverTx rest 0 [] hrest] at h
      obtain ⟨txs', htxs, rfl⟩ := Option.map_eq_some_iff.mp h
      refine ⟨f, rest, rfl, ?_, hhash, htxs⟩
      rw [List.map_cons, hrest, hfzero, List.range_eq_range', List.range'_succ]
  · rw [if_pos hparent] at h
    cases h

theorem complete_of_found (hbase : ∀ call ∈ calls, call.2.base.isSome = true ↔ call.2.index = 0)
    {txs : List Recovered}
    (h : getFlashblocksSequenceTxs recoverTx (cacheAfter calls) parentHash = some txs) :
    CompleteSequence recoverTx (latest calls) parentHash := by
  obtain ⟨first, rest, hsort, hindices, hhash, htxs⟩ := found_numbered hbase h
  have hperm : (first :: rest).Perm (latest calls) :=
    hsort ▸ List.mergeSort_perm (latest calls) (fun a b => a.index ≤ b.index)
  rw [List.range_eq_range', List.range'_succ, List.map_cons, List.cons.injEq] at hindices
  refine ⟨⟨rest.length, ?_⟩, ⟨first, hperm.mem_iff.mp List.mem_cons_self, hindices.1, hhash⟩, ?_⟩
  · have hmap : (first :: rest).map Flashblock.index = List.range (rest.length + 1) := by
      rw [List.map_cons, hindices.1, hindices.2, List.range_eq_range', List.range'_succ]
    exact hmap ▸ (hperm.map _).symm
  · intro payload hpayload hpos tx htx
    have hrest : payload ∈ rest := by
      rcases List.mem_cons.mp (hperm.mem_iff.mpr hpayload) with rfl | hmem
      · omega
      · exact hmem
    have hall := (isSome_mapM recoverTx (preconfirmed rest)).mp (by rw [htxs]; rfl)
    exact hall tx (List.mem_flatMap.mpr ⟨payload, hrest, htx⟩)

theorem found_of_complete
    (hbase : ∀ call ∈ calls, call.2.base.isSome = true ↔ call.2.index = 0)
    (h : CompleteSequence recoverTx (latest calls) parentHash) :
    (getFlashblocksSequenceTxs recoverTx (cacheAfter calls) parentHash).isSome = true := by
  obtain ⟨n, hn⟩ := h.indices
  obtain ⟨base, hbaseMem, -, hhash⟩ := h.parent
  have hsortedIndices := mergeSort_numbered hn
  have hperm := List.mergeSort_perm (latest calls) (fun a b => a.index ≤ b.index)
  generalize hsort : (latest calls).mergeSort (fun a b => a.index ≤ b.index) = sorted
    at hsortedIndices hperm
  have hlength : sorted.length = n + 1 := by
    rw [← List.length_map Flashblock.index, hsortedIndices, List.length_range]
  have hnumbered : Numbered sorted := by
    refine ⟨by rw [hsortedIndices, hlength], fun payload hpayload => ?_⟩
    obtain ⟨call, hcall, rfl⟩ := mem_latest (hperm.mem_iff.mp hpayload)
    exact hbase call hcall
  have hfound := hnumbered.findSome?_parentHash (hperm.mem_iff.mpr hbaseMem) hhash hperm.symm
  have hne : sorted ≠ [] := List.ne_nil_of_length_eq_add_one hlength
  obtain ⟨first, rest, rfl, hzero, hrest⟩ := numbered_cons hne hnumbered.indices
  rw [getFlashblocksSequenceTxs_cacheAfter, if_neg (not_not_intro hfound), hsort,
    show (first :: rest).drop 1 = rest from rfl, sequence_foldlM recoverTx rest 0 [] hrest,
    Option.isSome_map, isSome_mapM]
  intro tx htx
  obtain ⟨payload, hpayload, htx⟩ := List.mem_flatMap.mp htx
  have hpos : payload.index ∈ List.range' (0 + 1) rest.length :=
    hrest ▸ List.mem_map_of_mem hpayload
  rw [List.mem_range'_1] at hpos
  exact h.recovers payload (hperm.mem_iff.mp (List.mem_cons_of_mem _ hpayload)) (by omega) tx htx

end

/-- **The cached flashblock sequence.**  After any calls in which a payload has a base exactly
    when its index is 0, a sequence is found for a parent if and only if the payloads of the
    longest suffix of the calls with the last payload id are numbered from 0 without a gap or a
    repetition, the one of index 0 builds on that parent, and all transactions of the others
    decode.  What is found are the transactions of the others in the order of the index, however
    the payloads arrived. -/
theorem cached_sequence_exact (recoverTx : List UInt8 → Option Recovered) (calls : List AddCall)
    (hbase : ∀ call ∈ calls, call.2.base.isSome = true ↔ call.2.index = 0) (parentHash : B256) :
    ((getFlashblocksSequenceTxs recoverTx (cacheAfter calls) parentHash).isSome = true ↔
      CompleteSequence recoverTx (latest calls) parentHash) ∧
    (∀ txs, getFlashblocksSequenceTxs recoverTx (cacheAfter calls) parentHash = some txs →
      ∀ ordered : List Flashblock, ordered.Perm (latest calls) →
        ordered.map Flashblock.index = List.range ordered.length →
        ((ordered.drop 1).flatMap Flashblock.transactions).mapM recoverTx = some txs) := by
  refine ⟨⟨fun h => ?_, found_of_complete hbase⟩, ?_⟩
  · obtain ⟨txs, htxs⟩ := Option.isSome_iff_exists.mp h
    exact complete_of_found hbase htxs
  · intro txs h ordered hperm hindices
    obtain ⟨first, rest, hsort, -, -, htxs⟩ := found_numbered hbase h
    have hnumbered : Numbered ordered := by
      refine ⟨hindices, fun payload hpayload => ?_⟩
      obtain ⟨call, hcall, rfl⟩ := mem_latest (hperm.mem_iff.mp hpayload)
      exact hbase call hcall
    rw [← hnumbered.mergeSort_eq hperm.symm, hsort]
    exact htxs

/-- A payload with one transaction, with a base on `parentHash` if there is one. -/
def smallPayload (index : Nat) (parentHash : Option B256) (tx : List UInt8) : Flashblock :=
  ⟨index, parentHash.map (fun hash => ⟨0, hash, 0, 0, 1, 30000000, 1, [], 7⟩), 0, 0, 0, 21000, 0,
    [tx], 0, none, [], 1⟩

/-- A transaction that decodes. -/
def smallRecovered : Recovered where
  tx := ⟨.eip1559, 11, some 100, 0, 21000, 10, some 1, some 101, 0, [1]⟩
  signer := 100
  recovered := rfl

/-- One payload of an older sequence, then a sequence whose base arrives last. -/
def lateBaseCalls : List AddCall :=
  [(7, smallPayload 3 none [9]), (9, smallPayload 1 none [1]), (9, smallPayload 0 (some 5) [2])]

theorem cached_sequence_exact_late_base :
    (∀ call ∈ lateBaseCalls, call.2.base.isSome = true ↔ call.2.index = 0) ∧
      (getFlashblocksSequenceTxs (fun bytes => if bytes = [1] then some smallRecovered else none)
        (cacheAfter lateBaseCalls) 5).isSome = true := by
  have hbase : ∀ call ∈ lateBaseCalls, call.2.base.isSome = true ↔ call.2.index = 0 := by
    decide
  refine ⟨hbase, (cached_sequence_exact _ lateBaseCalls hbase 5).1.mpr ⟨⟨1, ?_⟩, ?_, ?_⟩⟩
  · exact List.Perm.swap 0 1 []
  · exact ⟨smallPayload 0 (some 5) [2], List.mem_cons_of_mem _ (List.mem_singleton_self _),
      rfl, rfl⟩
  · intro payload hpayload hpos tx htx
    rcases List.mem_cons.mp hpayload with rfl | hpayload
    · rw [List.mem_singleton.mp htx]
      rfl
    · rw [List.mem_singleton.mp hpayload] at hpos
      exact absurd hpos (by decide)

end XLayerReth.Builder
