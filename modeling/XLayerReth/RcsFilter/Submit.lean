import Mathlib.Data.Finset.Union
import Mathlib.Data.Finset.Option
import XLayerReth.Lib.Loops
import XLayerReth.RcsFilter.Pool

/-!
# Submit batching

Model of the synchronous part of `submit.rs`: collecting the transactions to submit, the conflict
profile of a group, and the schedule of one batch.

* `collectSubmit` — the `NotSubmitted` entries of the pool, grouped by block height.
* `profileEntries` — the nonce and quota keys a group reserves; a group that cannot be classified
  is exclusive (`mem_nonceKeys_new`, `mem_quotaKeys_new`, `exclusive_new`).
* `buildSubmitSchedule`, `buildNormalNodes` — exclusive groups are barriers, and between them
  each group waits for the last earlier user of each of its keys.
-/

set_option autoImplicit false

namespace XLayerReth.RcsFilter

open Lib

/-! ## Requests -/

/-- One transaction of a submit request. -/
structure SubmitTx where
  txHash : String
  origin : String
  contractAddress : String
  nonce : Nat
  actions : Actions

/-- A transaction to submit, with the lifecycle it was read from. -/
structure SubmitEntry where
  tx : SubmitTx
  hash : B256
  generation : Nat
  origin : Address

/-- The submission of a buffered entry. -/
def submitEntryOf (e : BufferEntry) : SubmitEntry where
  tx := ⟨e.txHash.lowerHex, e.origin.lowerHex, e.contractAddress.lowerHex, e.nonce, e.actions⟩
  hash := e.txHash
  generation := e.generation
  origin := e.origin

/-- The entries to submit, grouped by block height. -/
def collectSubmit (p : BufferPool) : OrdMap Nat (List SubmitEntry) :=
  p.notSubmitted.foldl (fun grouped hash =>
    match p.get hash with
    | some e => grouped.alter e.blockHeight (fun old => old.getD [] ++ [submitEntryOf e])
    | none => grouped) OrdMap.empty

/-! ## Conflict profiles -/

/-- `NonceKey`: origin and nonce. -/
abbrev NonceKey := Address × Nat

/-- `QuotaKey`: recipient and token. -/
abbrev QuotaKey := Address × Address

structure GroupConflictProfile where
  nonceKeys : Finset NonceKey
  quotaKeys : Finset QuotaKey
  exclusive : Bool

structure SubmitGroup where
  blockHeight : Nat
  entries : List SubmitEntry
  profile : GroupConflictProfile

/-- `address_param`. -/
def addressParam (params : OrdMap String Json) (name : String) : Option Address :=
  ((params.get? name).bind Json.asStr).bind Address.fromStr

/-- Whether a JSON string parses as a uint256. -/
def isUint (v : Json) : Bool := (v.asStr.bind (fun s => U256.fromStr s.toList)).isSome

/-- `uint_param`. -/
def uintParam (params : OrdMap String Json) (name : String) : Bool :=
  match params.get? name with
  | some v => isUint v
  | none => false

/-- `matching_uint_arrays`. -/
def matchingUintArrays (params : OrdMap String Json) (left right : String) : Bool :=
  match (params.get? left).bind Json.asArray, (params.get? right).bind Json.asArray with
  | some l, some r => !l.isEmpty && l.length == r.length && (l ++ r).all isUint
  | _, _ => false

/-- `known_quota_recipient`: the recipient of one of the fixed quota shapes. -/
def knownQuotaRecipient (params : OrdMap String Json) : Option Address :=
  match addressParam params "to" with
  | none => none
  | some recipient =>
    let knownShape :=
      if params.size = 3 then (addressParam params "from").isSome && uintParam params "value"
      else if params.size = 5 ∧ (addressParam params "operator").isSome ∧
          (addressParam params "from").isSome then
        (uintParam params "id" && uintParam params "value") ||
          matchingUintArrays params "ids" "values"
      else false
    if knownShape then some recipient else none

/-- One quota item: its key, or an unknown shape. -/
def profileItem (profile : GroupConflictProfile) (item : ActionItem) : GroupConflictProfile :=
  match knownQuotaRecipient item.params with
  | none => { profile with exclusive := true }
  | some recipient =>
    match Address.fromStr item.address with
    | none => { profile with exclusive := true }
    | some token => { profile with quotaKeys := insert (recipient, token) profile.quotaKeys }

/-- The actions of one audit type. -/
def profileActions (profile : GroupConflictProfile) (actions : String × List ActionItem) :
    GroupConflictProfile :=
  if actions.1 ≠ quota ∨ actions.2 = [] then { profile with exclusive := true }
  else actions.2.foldl profileItem profile

/-- One entry of a group. -/
def profileEntry (profile : GroupConflictProfile) (entry : SubmitEntry) : GroupConflictProfile :=
  let profile :=
    { profile with nonceKeys := insert (entry.origin, entry.tx.nonce) profile.nonceKeys }
  if entry.tx.actions.isEmpty then { profile with exclusive := true }
  else entry.tx.actions.entries.foldl profileActions profile

/-- `profile_entries`. -/
def profileEntries (entries : List SubmitEntry) : GroupConflictProfile :=
  entries.foldl profileEntry ⟨∅, ∅, false⟩

/-- `SubmitGroup::new`. -/
def SubmitGroup.new (blockHeight : Nat) (entries : List SubmitEntry) : SubmitGroup :=
  ⟨blockHeight, entries, profileEntries entries⟩

/-! ## What a group reserves -/

/-- The quota key of an item of one of the fixed shapes. -/
def ActionItem.quotaKey? (item : ActionItem) : Option QuotaKey :=
  (knownQuotaRecipient item.params).bind (fun recipient =>
    (Address.fromStr item.address).map (fun token => (recipient, token)))

/-- An entry reserves the quota keys of its quota items. -/
def SubmitEntry.Reserves (entry : SubmitEntry) (key : QuotaKey) : Prop :=
  ∃ actions ∈ entry.tx.actions.entries, actions.1 = quota ∧
    ∃ item ∈ actions.2, item.quotaKey? = some key

/-- An entry is classified if it has actions, and all of them are quota items of a fixed shape. -/
structure SubmitEntry.Classified (entry : SubmitEntry) : Prop where
  acts : entry.tx.actions.entries ≠ []
  quotas : ∀ actions ∈ entry.tx.actions.entries, actions.1 = quota ∧ actions.2 ≠ []
  shapes : ∀ actions ∈ entry.tx.actions.entries, ∀ item ∈ actions.2, item.quotaKey?.isSome = true

theorem profileItem_eq (profile : GroupConflictProfile) (item : ActionItem) :
    profileItem profile item =
      match item.quotaKey? with
      | none => { profile with exclusive := true }
      | some key => { profile with quotaKeys := insert key profile.quotaKeys } := by
  unfold profileItem ActionItem.quotaKey?
  cases knownQuotaRecipient item.params with
  | none => rfl
  | some recipient =>
    cases Address.fromStr item.address with
    | none => rfl
    | some token => rfl

theorem nonceKeys_profileItem (profile : GroupConflictProfile) (item : ActionItem) :
    (profileItem profile item).nonceKeys = profile.nonceKeys := by
  rw [profileItem_eq]
  split <;> rfl

theorem mem_quotaKeys_profileItem {key : QuotaKey} (profile : GroupConflictProfile)
    (item : ActionItem) :
    key ∈ (profileItem profile item).quotaKeys ↔
      key ∈ profile.quotaKeys ∨ item.quotaKey? = some key := by
  rw [profileItem_eq]
  cases item.quotaKey? with
  | none => simp
  | some k => simp [or_comm, eq_comm]

theorem exclusive_profileItem (profile : GroupConflictProfile) (item : ActionItem) :
    (profileItem profile item).exclusive = true ↔
      profile.exclusive = true ∨ item.quotaKey? = none := by
  rw [profileItem_eq]
  cases item.quotaKey? with
  | none => simp
  | some k => simp

theorem nonceKeys_profileActions (profile : GroupConflictProfile)
    (actions : String × List ActionItem) :
    (profileActions profile actions).nonceKeys = profile.nonceKeys := by
  unfold profileActions
  split
  · rfl
  · exact List.foldlRecOn (motive := fun p => p.nonceKeys = profile.nonceKeys) _ _ rfl
      (fun p hp item _ => (nonceKeys_profileItem p item).trans hp)

theorem mem_quotaKeys_profileActions {key : QuotaKey} (profile : GroupConflictProfile)
    (actions : String × List ActionItem) :
    key ∈ (profileActions profile actions).quotaKeys ↔
      key ∈ profile.quotaKeys ∨
        actions.1 = quota ∧ ∃ item ∈ actions.2, item.quotaKey? = some key := by
  unfold profileActions
  split
  · rename_i h
    rcases h with h | h
    · simp [h]
    · simp [h]
  · rename_i h
    rw [not_or, not_not] at h
    rw [foldl_or_iff (P := fun p : GroupConflictProfile => key ∈ p.quotaKeys)
      mem_quotaKeys_profileItem]
    simp [h.1]

theorem exclusive_profileActions (profile : GroupConflictProfile)
    (actions : String × List ActionItem) :
    (profileActions profile actions).exclusive = true ↔
      profile.exclusive = true ∨
        (actions.1 ≠ quota ∨ actions.2 = [] ∨ ∃ item ∈ actions.2, item.quotaKey? = none) := by
  unfold profileActions
  split
  · rename_i h
    simp [← or_assoc, h]
  · rename_i h
    rw [not_or] at h
    rw [foldl_or_iff (P := fun p : GroupConflictProfile => p.exclusive = true)
      exclusive_profileItem]
    simp [h.1, h.2]

theorem mem_nonceKeys_profileEntry {key : NonceKey} (profile : GroupConflictProfile)
    (entry : SubmitEntry) :
    key ∈ (profileEntry profile entry).nonceKeys ↔
      key ∈ profile.nonceKeys ∨ (entry.origin, entry.tx.nonce) = key := by
  have hkept : (profileEntry profile entry).nonceKeys =
      insert (entry.origin, entry.tx.nonce) profile.nonceKeys := by
    unfold profileEntry
    dsimp only
    split
    · rfl
    · refine List.foldlRecOn
        (motive := fun p => p.nonceKeys = insert (entry.origin, entry.tx.nonce) profile.nonceKeys)
        _ _ ?_ (fun p hp actions _ => (nonceKeys_profileActions p actions).trans hp)
      rfl
  rw [hkept, Finset.mem_insert, or_comm, eq_comm]

theorem mem_quotaKeys_profileEntry {key : QuotaKey} (profile : GroupConflictProfile)
    (entry : SubmitEntry) :
    key ∈ (profileEntry profile entry).quotaKeys ↔
      key ∈ profile.quotaKeys ∨ entry.Reserves key := by
  unfold profileEntry SubmitEntry.Reserves
  dsimp only
  split
  · rename_i h
    have hnone : entry.tx.actions.entries = [] := by simpa [OrdMap.isEmpty] using h
    simp [hnone]
  · exact foldl_or_iff (P := fun p : GroupConflictProfile => key ∈ p.quotaKeys)
      mem_quotaKeys_profileActions _ _

theorem exclusive_profileEntry (profile : GroupConflictProfile) (entry : SubmitEntry) :
    (profileEntry profile entry).exclusive = true ↔
      profile.exclusive = true ∨ ¬ entry.Classified := by
  unfold profileEntry
  dsimp only
  split
  · rename_i h
    have hnone : entry.tx.actions.entries = [] := by simpa [OrdMap.isEmpty] using h
    have : ¬ entry.Classified := fun hc => hc.acts hnone
    simp [this]
  · rename_i h
    have hsome : entry.tx.actions.entries ≠ [] := by simpa [OrdMap.isEmpty] using h
    rw [foldl_or_iff (P := fun p : GroupConflictProfile => p.exclusive = true)
      exclusive_profileActions]
    refine or_congr Iff.rfl ⟨?_, ?_⟩
    · rintro ⟨actions, hmem, hother | hnone | ⟨item, hitem, hkey⟩⟩ hc
      · exact hother (hc.quotas actions hmem).1
      · exact (hc.quotas actions hmem).2 hnone
      · have := hc.shapes actions hmem item hitem
        rw [hkey] at this
        cases this
    · intro hc
      by_contra hall
      simp only [not_exists, not_and, not_or, not_not] at hall
      refine hc ⟨hsome, fun actions hmem => ⟨(hall actions hmem).1, (hall actions hmem).2.1⟩,
        fun actions hmem item hitem => ?_⟩
      exact Option.isSome_iff_ne_none.mpr ((hall actions hmem).2.2 item hitem)

/-- **A group reserves the nonces of its entries.** -/
theorem mem_nonceKeys_new {blockHeight : Nat} {entries : List SubmitEntry} {key : NonceKey} :
    key ∈ (SubmitGroup.new blockHeight entries).profile.nonceKeys ↔
      ∃ entry ∈ entries, (entry.origin, entry.tx.nonce) = key := by
  rw [SubmitGroup.new, profileEntries,
    foldl_or_iff (P := fun p : GroupConflictProfile => key ∈ p.nonceKeys)
      mem_nonceKeys_profileEntry]
  simp

/-- **It reserves the quotas** of the recipients and tokens of its quota items. -/
theorem mem_quotaKeys_new {blockHeight : Nat} {entries : List SubmitEntry} {key : QuotaKey} :
    key ∈ (SubmitGroup.new blockHeight entries).profile.quotaKeys ↔
      ∃ entry ∈ entries, entry.Reserves key := by
  rw [SubmitGroup.new, profileEntries,
    foldl_or_iff (P := fun p : GroupConflictProfile => key ∈ p.quotaKeys)
      mem_quotaKeys_profileEntry]
  simp

/-- **It is exclusive** if one of its entries is not classified. -/
theorem exclusive_new {blockHeight : Nat} {entries : List SubmitEntry} :
    (SubmitGroup.new blockHeight entries).profile.exclusive = true ↔
      ∃ entry ∈ entries, ¬ entry.Classified := by
  rw [SubmitGroup.new, profileEntries,
    foldl_or_iff (P := fun p : GroupConflictProfile => p.exclusive = true) exclusive_profileEntry]
  simp

/-- A transfer of 5 units, to be submitted. -/
def submittedTransfer : SubmitEntry where
  tx :=
    ⟨"0x0000000000000000000000000000000000000000000000000000000000000001",
      "0x000000000000000000000000000000000000000a", "0x000000000000000000000000000000000000000c", 7,
      OrdMap.ofList [(quota, [⟨"transfer", "0x000000000000000000000000000000000000000c",
        OrdMap.ofList [("from", .str "0x000000000000000000000000000000000000000a"),
          ("to", .str "0x000000000000000000000000000000000000000b"), ("value", .str "5")]⟩])]⟩
  hash := 1
  generation := 1
  origin := 0xa

/-- It reserves a nonce of its origin, and a quota of the recipient. -/
example :
    (SubmitGroup.new 100 [submittedTransfer]).profile = ⟨{(0xa, 7)}, {(0xb, 0xc)}, false⟩ := by
  rfl

/-! ## The schedule of a batch -/

/-- A group with the number of groups it still waits for and the groups that wait for it. -/
structure SubmitNode where
  group : Option SubmitGroup
  remainingPredecessors : Nat
  successors : List Nat

/-- The nodes built so far and the last user of each key. -/
structure NodeBuilder where
  nodes : List SubmitNode
  lastNonce : NonceKey → Option Nat
  lastQuota : QuotaKey → Option Nat

def NodeBuilder.new : NodeBuilder := ⟨[], fun _ => none, fun _ => none⟩

/-- The distinct last users of the keys of a group. -/
def NodeBuilder.predecessors (b : NodeBuilder) (profile : GroupConflictProfile) : Finset Nat :=
  profile.nonceKeys.biUnion (fun k => (b.lastNonce k).toFinset) ∪
    profile.quotaKeys.biUnion (fun k => (b.lastQuota k).toFinset)

/-- One iteration of `build_normal_nodes`. -/
def NodeBuilder.push (b : NodeBuilder) (group : SubmitGroup) : NodeBuilder :=
  let predecessors := b.predecessors group.profile
  let index := b.nodes.length
  let linked := b.nodes.mapIdx (fun i node =>
    if i ∈ predecessors then { node with successors := node.successors ++ [index] } else node)
  { nodes := linked ++ [⟨some group, predecessors.card, []⟩]
    lastNonce := fun k => if k ∈ group.profile.nonceKeys then some index else b.lastNonce k
    lastQuota := fun k => if k ∈ group.profile.quotaKeys then some index else b.lastQuota k }

/-- `build_normal_nodes`. -/
def buildNormalNodes (groups : List SubmitGroup) : List SubmitNode :=
  (groups.foldl NodeBuilder.push NodeBuilder.new).nodes

/-- `ExecutionSegment`. -/
inductive ExecutionSegment where
  | normal (nodes : List SubmitNode)
  | exclusive (group : SubmitGroup)

/-- The segment of the groups collected since the last barrier, if any. -/
def flushNormal (normal : List SubmitGroup) : List ExecutionSegment :=
  if normal.isEmpty then [] else [.normal (buildNormalNodes normal)]

/-- The loop of `build_submit_schedule`. -/
def scheduleLoop : List SubmitGroup → List SubmitGroup → List ExecutionSegment
  | normal, [] => flushNormal normal
  | normal, group :: rest =>
    if group.profile.exclusive then
      flushNormal normal ++ .exclusive group :: scheduleLoop [] rest
    else scheduleLoop (normal ++ [group]) rest

/-- `build_submit_schedule`. -/
def buildSubmitSchedule (groups : List SubmitGroup) : List ExecutionSegment :=
  scheduleLoop [] groups

end XLayerReth.RcsFilter
