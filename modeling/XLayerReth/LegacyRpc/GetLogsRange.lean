import Mathlib.Data.Set.Basic
import XLayerReth.LegacyRpc.GetLogs

/-!
# Splitting the range of `eth_getLogs`

What a filter asks for and what the two backends are asked for, as sets of block numbers.

* `Bound` — what a bound of a filter says: a tag of the chain head (also when it is absent), a
  number, or neither.
* `ChainView` — the heights the tags stand for, at or above the cutoff.
* `PreservesQuery` — the two requests together ask for what the filter asks for, split at the
  cutoff.
* `FoldedUpperBound` — the lower bound is a number below the cutoff and the upper bound is folded
  into the sentinel `u64::MAX` although it does not stand for that number.

Principal result: `preservesQuery_iff`.
-/

set_option autoImplicit false

namespace XLayerReth.LegacyRpc

open RcsFilter Lib

/-! ## What a filter asks for -/

/-- The tags that stand for a block near the head of the chain. -/
inductive HeadTag where
  | latest
  | safe
  | finalized
  | pending
  deriving DecidableEq

/-- A bound of a filter. -/
inductive Bound where
  | head (tag : HeadTag)
  | height (n : Nat)
  | malformed
  deriving DecidableEq

/-- A hexadecimal number below `2 ^ 64`. -/
def hexQuantity (s : String) : Option Nat := (strip0x s.toList).bind (u64FromStrRadix 16)

/-- The reading of a bound: absent and null mean `latest`, `earliest` is block 0. -/
def boundOf : Option Json → Bound
  | none => .head .latest
  | some .null => .head .latest
  | some (.str s) =>
    if s = "latest" then .head .latest
    else if s = "safe" then .head .safe
    else if s = "finalized" then .head .finalized
    else if s = "pending" then .head .pending
    else if s = "earliest" then .height 0
    else
      match hexQuantity s with
      | some n => .height n
      | none => .malformed
  | some _ => .malformed

/-- A state of the chain, whose head is at or above the cutoff. -/
structure ChainView (cutoff : Nat) where
  height : HeadTag → Nat
  above : ∀ t, cutoff ≤ height t
  isU64 : ∀ t, height t ≤ u64Max

/-- The block number a bound stands for. -/
def ChainView.resolve {cutoff : Nat} (chain : ChainView cutoff) : Bound → Option Nat
  | .head tag => some (chain.height tag)
  | .height n => some n
  | .malformed => none

/-- The block numbers a filter asks for; a filter with a malformed bound asks for none. -/
def blocks {cutoff : Nat} (chain : ChainView cutoff) (filter : FilterObject) : Set Nat :=
  {b | ∃ lo hi, chain.resolve (boundOf (OrdMap.lookup "fromBlock" filter)) = some lo ∧
    chain.resolve (boundOf (OrdMap.lookup "toBlock" filter)) = some hi ∧ lo ≤ b ∧ b ≤ hi}

/-- The filter object of a request. -/
def Request.filter (req : Request) : Option FilterObject :=
  match req.params.map RawValue.decode with
  | some (.ok (.arr (.obj filter :: _))) => some filter
  | _ => none

/-- The block numbers a backend is asked for. -/
def asked {cutoff : Nat} (chain : ChainView cutoff) (req : Option Request) : Set Nat :=
  {b | ∃ r filter, req = some r ∧ r.filter = some filter ∧ b ∈ blocks chain filter}

/-- The request to the legacy endpoint on a route. -/
def GetLogsRoute.legacyRequest (req : Request) : GetLogsRoute → Option Request
  | .legacy => some req
  | .hybrid legacyReq _ => some legacyReq
  | .missingParams | .localNode | .byHash _ => none

/-- The request to the local node on a route. -/
def GetLogsRoute.localRequest (req : Request) : GetLogsRoute → Option Request
  | .localNode => some req
  | .hybrid _ localReq => some localReq
  | .missingParams | .legacy | .byHash _ => none

/-- The routing of a request asks the two backends for what its filter asks for. -/
structure PreservesQuery {cutoff : Nat} (chain : ChainView cutoff) (req : Request)
    (filter : FilterObject) (rest : List Json) : Prop where
  /-- Together the backends are asked for the blocks of the filter. -/
  covers : asked chain ((getLogsRoute cutoff req).legacyRequest req) ∪
    asked chain ((getLogsRoute cutoff req).localRequest req) = blocks chain filter
  legacyBelow : ∀ b ∈ asked chain ((getLogsRoute cutoff req).legacyRequest req), b < cutoff
  localAbove : ∀ b ∈ asked chain ((getLogsRoute cutoff req).localRequest req), cutoff ≤ b
  /-- The subtraction does not wrap. -/
  noUnderflow : ∀ legacyReq localReq, getLogsRoute cutoff req = .hybrid legacyReq localReq →
    u64Sub cutoff 1 + 1 = cutoff
  /-- Nothing but the bounds changes. -/
  unchanged : ∀ r, (getLogsRoute cutoff req).legacyRequest req = some r ∨
      (getLogsRoute cutoff req).localRequest req = some r →
    r.method = req.method ∧ r.id = req.id ∧
      ∃ filter', r.params = some (.json (.arr (.obj filter' :: rest))) ∧
        ∀ k, k ≠ "fromBlock" → k ≠ "toBlock" → OrdMap.lookup k filter' = OrdMap.lookup k filter
  /-- A malformed bound reaches the local node as it is. -/
  malformed : ∀ field ∈ ["fromBlock", "toBlock"],
    boundOf (OrdMap.lookup field filter) = .malformed →
    ∃ r filter', (getLogsRoute cutoff req).localRequest req = some r ∧
      r.filter = some filter' ∧ OrdMap.lookup field filter' = OrdMap.lookup field filter

/-- The lower bound is a number below the cutoff, and the upper bound is a tag, absent or
    malformed and does not stand for `u64::MAX`. -/
def FoldedUpperBound {cutoff : Nat} (chain : ChainView cutoff) (filter : FilterObject) : Prop :=
  (∃ n, boundOf (OrdMap.lookup "fromBlock" filter) = .height n ∧ n < cutoff) ∧
    ((∃ tag, boundOf (OrdMap.lookup "toBlock" filter) = .head tag ∧ chain.height tag ≠ u64Max) ∨
      boundOf (OrdMap.lookup "toBlock" filter) = .malformed)

/-! ## Bounds as the router reads them -/

theorem hexQuantity_le {s : String} {n : Nat} (h : hexQuantity s = some n) : n ≤ u64Max := by
  obtain ⟨digits, -, hd⟩ := Option.bind_eq_some_iff.mp h
  exact Nat.le_sub_one_of_lt (u64FromStrRadix_lt hd)

/-- The sentinel reading of a bound. -/
def Bound.folded : Bound → Nat
  | .height n => n
  | _ => u64Max

theorem parseBlockNumberString_eq (s : String) :
    (parseBlockNumberString s).getD u64Max = (boundOf (some (.str s))).folded := by
  unfold parseBlockNumberString boundOf
  by_cases h1 : s = "latest"
  · simp [h1, Bound.folded]
  by_cases h2 : s = "safe"
  · simp [h2, Bound.folded]
  by_cases h3 : s = "finalized"
  · simp [h3, Bound.folded]
  by_cases h4 : s = "pending"
  · simp [h4, Bound.folded]
  by_cases h5 : s = "earliest"
  · simp [h5, Bound.folded]
  simp only [h1, h2, h3, h4, h5, or_self, if_false]
  unfold hexQuantity
  cases strip0x s.toList with
  | none => rfl
  | some digits =>
    simp only [Option.bind_some]
    cases u64FromStrRadix 16 digits with
    | none => rfl
    | some n => rfl

theorem blockBound_eq (filter : FilterObject) (field : String) :
    blockBound filter field = (boundOf (OrdMap.lookup field filter)).folded := by
  unfold blockBound
  cases OrdMap.lookup field filter with
  | none => rfl
  | some v =>
    cases v with
    | str s => exact parseBlockNumberString_eq s
    | _ => rfl

theorem height_le {v : Option Json} {n : Nat} (h : boundOf v = .height n) : n ≤ u64Max := by
  unfold boundOf at h
  split at h
  · cases h
  · cases h
  · rename_i s
    split at h
    · cases h
    split at h
    · cases h
    split at h
    · cases h
    split at h
    · cases h
    split at h
    · cases h; exact Nat.zero_le _
    split at h
    · rename_i m hm
      cases h
      exact hexQuantity_le hm
    · cases h
  · cases h

/-- A bound reads as a 64-bit number. -/
theorem folded_boundOf_le (v : Option Json) : (boundOf v).folded ≤ u64Max := by
  cases hv : boundOf v with
  | head tag => exact le_refl _
  | malformed => exact le_refl _
  | height m => exact height_le hv

theorem boundOf_hexString {n : Nat} (h : n ≤ u64Max) :
    boundOf (some (.str (hexString n))) = .height n := by
  have hlist : (hexString n).toList = '0' :: 'x' :: Nat.toDigits 16 n := String.toList_ofList
  have htag : ∀ t : String, t.toList.head? ≠ some '0' → hexString n ≠ t := by
    intro t ht he
    rw [← he, hlist] at ht
    exact ht rfl
  have hread : hexQuantity (hexString n) = some n := by
    unfold hexQuantity
    rw [hlist, strip0x, Option.bind_some]
    exact u64FromStrRadix_toDigits (by omega) (by omega) (by unfold u64Max at h; omega)
  unfold boundOf
  dsimp only
  rw [if_neg (htag _ (by decide)), if_neg (htag _ (by decide)), if_neg (htag _ (by decide)),
    if_neg (htag _ (by decide)), if_neg (htag _ (by decide)), hread]

theorem lookup_insertField (k field : String) (v : Json) : ∀ filter : FilterObject,
    OrdMap.lookup k (insertField filter field v) =
      if k = field then some v else OrdMap.lookup k filter
  | [] => by
    by_cases h : k = field
    · simp [insertField, OrdMap.alterList, OrdMap.lookup, h]
    · simp [insertField, OrdMap.alterList, OrdMap.lookup, h, Ne.symm h]
  | (k', v') :: filter => by
    have ih := lookup_insertField k field v filter
    unfold insertField at ih ⊢
    unfold OrdMap.alterList
    split
    · by_cases h : k = field
      · simp [OrdMap.lookup, h]
      · simp [OrdMap.lookup, h, Ne.symm h]
    · split
      · rename_i hk
        subst hk
        by_cases h : k = field
        · simp [OrdMap.lookup, h]
        · simp [OrdMap.lookup, h, Ne.symm h]
      · rename_i hk
        rw [OrdMap.lookup, OrdMap.lookup, ih]
        by_cases h : k' = k
        · subst h
          simp [Ne.symm hk]
        · simp [h]

/-! ## The two requests of a split range -/

theorem u64Sub_one {n cutoff : Nat} (hn : n < cutoff) (hcut : cutoff ≤ u64Max) :
    u64Sub cutoff 1 + 1 = cutoff := by
  unfold u64Sub
  unfold u64Max at hcut
  omega

/-- The filter of one of the two requests. -/
def partFilter (filter : FilterObject) (fromBlock toBlock : Nat) : FilterObject :=
  setBound (setBound filter "fromBlock" (some fromBlock)) "toBlock" (some toBlock)

theorem lookup_partFilter (filter : FilterObject) (fromBlock toBlock : Nat) (k : String) :
    OrdMap.lookup k (partFilter filter fromBlock toBlock) =
      if k = "toBlock" then some (.str (hexString toBlock))
      else if k = "fromBlock" then some (.str (hexString fromBlock))
      else OrdMap.lookup k filter := by
  unfold partFilter setBound
  rw [lookup_insertField, lookup_insertField]

theorem filter_partRequest (req : Request) (filter : FilterObject) (rest : List Json)
    (fromBlock toBlock : Nat) :
    (partRequest req filter rest fromBlock toBlock).filter =
      some (partFilter filter fromBlock toBlock) := rfl

section Blocks

variable {cutoff : Nat} (chain : ChainView cutoff)

theorem blocks_eq {filter : FilterObject} {lo hi : Nat}
    (hlo : chain.resolve (boundOf (OrdMap.lookup "fromBlock" filter)) = some lo)
    (hhi : chain.resolve (boundOf (OrdMap.lookup "toBlock" filter)) = some hi) :
    blocks chain filter = {b | lo ≤ b ∧ b ≤ hi} := by
  ext b
  simp [blocks, hlo, hhi]

theorem blocks_malformed {filter : FilterObject}
    (h : boundOf (OrdMap.lookup "toBlock" filter) = .malformed) : blocks chain filter = ∅ := by
  ext b
  simp [blocks, h, ChainView.resolve]

theorem blocks_partFilter (filter : FilterObject) {lo hi : Nat} (hlo : lo ≤ u64Max)
    (hhi : hi ≤ u64Max) : blocks chain (partFilter filter lo hi) = {b | lo ≤ b ∧ b ≤ hi} := by
  apply blocks_eq
  · rw [lookup_partFilter, if_neg (by decide), if_pos rfl, boundOf_hexString hlo]
    rfl
  · rw [lookup_partFilter, if_pos rfl, boundOf_hexString hhi]
    rfl

theorem asked_none : asked chain none = ∅ := by
  ext b
  simp [asked]

theorem asked_some {req : Request} {filter : FilterObject} (h : req.filter = some filter) :
    asked chain (some req) = blocks chain filter := by
  ext b
  simp [asked, h]

/-- A lower bound that resolves does so to the number itself or to a height at the head. -/
theorem lower_cases {filter : FilterObject} {b : Nat} (h : b ∈ blocks chain filter) :
    (∃ tag, boundOf (OrdMap.lookup "fromBlock" filter) = .head tag ∧ chain.height tag ≤ b) ∨
      ∃ n, boundOf (OrdMap.lookup "fromBlock" filter) = .height n ∧ n ≤ b := by
  obtain ⟨lo, hi, hlo, -, hb, -⟩ := h
  cases hbound : boundOf (OrdMap.lookup "fromBlock" filter) with
  | head tag =>
    rw [hbound] at hlo
    cases hlo
    exact .inl ⟨tag, rfl, hb⟩
  | height n =>
    rw [hbound] at hlo
    cases hlo
    exact .inr ⟨_, rfl, hb⟩
  | malformed =>
    rw [hbound] at hlo
    cases hlo

end Blocks

/-! ## When the query is preserved -/

section Preserved

variable {cutoff : Nat} {chain : ChainView cutoff} {req : Request} {filter : FilterObject}
  {rest : List Json}

/-- A request that is passed on unmodified to the local node. -/
theorem preserves_localNode (hp : req.params = some (.json (.arr (.obj filter :: rest))))
    (hroute : getLogsRoute cutoff req = .localNode)
    (habove : ∀ b ∈ blocks chain filter, cutoff ≤ b) :
    PreservesQuery chain req filter rest := by
  have hfilter : req.filter = some filter := by
    unfold Request.filter
    rw [hp]
    rfl
  refine ⟨?_, ?_, ?_, ?_, ?_, ?_⟩
  · rw [hroute, GetLogsRoute.legacyRequest, GetLogsRoute.localRequest, asked_none,
      asked_some chain hfilter, Set.empty_union]
  · rw [hroute, GetLogsRoute.legacyRequest, asked_none]
    intro b hb
    cases hb
  · rw [hroute, GetLogsRoute.localRequest, asked_some chain hfilter]
    exact habove
  · intro legacyReq localReq h
    rw [hroute] at h
    cases h
  · rw [hroute]
    rintro r (h | h)
    · cases h
    · cases h
      exact ⟨rfl, rfl, filter, hp, fun _ _ _ => rfl⟩
  · intro field _ _
    rw [hroute]
    exact ⟨req, filter, rfl, hfilter, rfl⟩

/-- A request that is passed on unmodified to the legacy endpoint. -/
theorem preserves_legacy (hp : req.params = some (.json (.arr (.obj filter :: rest))))
    (hroute : getLogsRoute cutoff req = .legacy)
    (hbelow : ∀ b ∈ blocks chain filter, b < cutoff)
    (hwell : ∀ field ∈ ["fromBlock", "toBlock"],
      boundOf (OrdMap.lookup field filter) ≠ .malformed) :
    PreservesQuery chain req filter rest := by
  have hfilter : req.filter = some filter := by
    unfold Request.filter
    rw [hp]
    rfl
  refine ⟨?_, ?_, ?_, ?_, ?_, ?_⟩
  · rw [hroute, GetLogsRoute.legacyRequest, GetLogsRoute.localRequest, asked_none,
      asked_some chain hfilter, Set.union_empty]
  · rw [hroute, GetLogsRoute.legacyRequest, asked_some chain hfilter]
    exact hbelow
  · rw [hroute, GetLogsRoute.localRequest, asked_none]
    intro b hb
    cases hb
  · intro legacyReq localReq h
    rw [hroute] at h
    cases h
  · rw [hroute]
    rintro r (h | h)
    · cases h
      exact ⟨rfl, rfl, filter, hp, fun _ _ _ => rfl⟩
    · cases h
  · intro field hfield hm
    exact absurd hm (hwell field hfield)

/-- What the backends are asked for when the range is split. -/
theorem asked_hybrid (chain : ChainView cutoff) {n hi : Nat} (hcut : cutoff ≤ u64Max)
    (hn : n < cutoff) (hhi : hi ≤ u64Max)
    (hroute : getLogsRoute cutoff req =
      .hybrid (partRequest req filter rest n (u64Sub cutoff 1))
        (partRequest req filter rest cutoff hi)) :
    asked chain ((getLogsRoute cutoff req).legacyRequest req) = {b | n ≤ b ∧ b < cutoff} ∧
      asked chain ((getLogsRoute cutoff req).localRequest req) = {b | cutoff ≤ b ∧ b ≤ hi} := by
  have hsub : u64Sub cutoff 1 + 1 = cutoff := u64Sub_one hn hcut
  rw [hroute, GetLogsRoute.legacyRequest, GetLogsRoute.localRequest,
    asked_some chain (filter_partRequest ..), asked_some chain (filter_partRequest ..),
    blocks_partFilter chain filter (by omega) (by omega), blocks_partFilter chain filter hcut hhi]
  refine ⟨?_, rfl⟩
  ext b
  show n ≤ b ∧ b ≤ u64Sub cutoff 1 ↔ n ≤ b ∧ b < cutoff
  omega

/-- A range that is split at the cutoff, with its own upper bound. -/
theorem preserves_hybrid {n hi : Nat} (hcut : cutoff ≤ u64Max) (hn : n < cutoff)
    (hchi : cutoff ≤ hi) (hhi : hi ≤ u64Max)
    (hroute : getLogsRoute cutoff req =
      .hybrid (partRequest req filter rest n (u64Sub cutoff 1))
        (partRequest req filter rest cutoff hi))
    (hfrom : boundOf (OrdMap.lookup "fromBlock" filter) = .height n)
    (hto : chain.resolve (boundOf (OrdMap.lookup "toBlock" filter)) = some hi) :
    PreservesQuery chain req filter rest := by
  obtain ⟨hlegacy, hlocal⟩ := asked_hybrid chain hcut hn hhi hroute
  refine ⟨?_, ?_, ?_, ?_, ?_, ?_⟩
  · rw [hlegacy, hlocal, blocks_eq chain (by rw [hfrom]; rfl) hto]
    ext b
    show (n ≤ b ∧ b < cutoff) ∨ (cutoff ≤ b ∧ b ≤ hi) ↔ n ≤ b ∧ b ≤ hi
    omega
  · rw [hlegacy]
    exact fun b hb => hb.2
  · rw [hlocal]
    exact fun b hb => hb.1
  · intro _ _ _
    exact u64Sub_one hn hcut
  · rw [hroute]
    have hother : ∀ lo' hi' k, k ≠ "fromBlock" → k ≠ "toBlock" →
        OrdMap.lookup k (partFilter filter lo' hi') = OrdMap.lookup k filter := by
      intro lo' hi' k h1 h2
      rw [lookup_partFilter, if_neg h2, if_neg h1]
    rintro r (h | h)
    · cases h
      exact ⟨rfl, rfl, _, rfl, hother n (u64Sub cutoff 1)⟩
    · cases h
      exact ⟨rfl, rfl, _, rfl, hother cutoff hi⟩
  · intro field hfield hm
    rcases List.mem_cons.mp hfield with rfl | hfield
    · rw [hfrom] at hm
      cases hm
    · rw [List.mem_singleton.mp hfield] at hm
      rw [hm] at hto
      cases hto

/-- A number below the sentinel is the bound itself. -/
theorem height_of_folded_lt {bound : Bound} (h : bound.folded < u64Max) :
    ∃ m, bound = .height m := by
  cases bound with
  | head tag => exact absurd h (lt_irrefl _)
  | malformed => exact absurd h (lt_irrefl _)
  | height m => exact ⟨m, rfl⟩

theorem not_folded_of_number {m : Nat}
    (hto : boundOf (OrdMap.lookup "toBlock" filter) = .height m) :
    ¬ FoldedUpperBound chain filter := by
  rintro ⟨-, ⟨tag, htag, -⟩ | hm⟩
  · rw [hto] at htag
    cases htag
  · rw [hto] at hm
    cases hm

/-- A split range asks for the sentinel, whatever its upper bound stands for. -/
theorem hybrid_preserves_iff {n : Nat} (hcut : cutoff ≤ u64Max) (hn : n < cutoff)
    (hchi : cutoff ≤ (boundOf (OrdMap.lookup "toBlock" filter)).folded)
    (hhi : (boundOf (OrdMap.lookup "toBlock" filter)).folded ≤ u64Max)
    (hroute : getLogsRoute cutoff req =
      .hybrid (partRequest req filter rest n (u64Sub cutoff 1))
        (partRequest req filter rest cutoff (boundOf (OrdMap.lookup "toBlock" filter)).folded))
    (hfrom : boundOf (OrdMap.lookup "fromBlock" filter) = .height n) :
    PreservesQuery chain req filter rest ↔ ¬ FoldedUpperBound chain filter := by
  obtain ⟨hlegacy, hlocal⟩ := asked_hybrid chain hcut hn hhi hroute
  cases hto : boundOf (OrdMap.lookup "toBlock" filter) with
  | height m =>
    refine iff_of_true (preserves_hybrid hcut hn hchi hhi hroute hfrom ?_)
      (not_folded_of_number hto)
    rw [hto]
    rfl
  | head tag =>
    by_cases hmax : chain.height tag = u64Max
    · refine iff_of_true (preserves_hybrid hcut hn hchi hhi hroute hfrom ?_) ?_
      · rw [hto, ChainView.resolve, hmax]
        rfl
      · rintro ⟨-, ⟨tag', htag, hne⟩ | hm⟩
        · rw [hto] at htag
          cases htag
          exact hne hmax
        · rw [hto] at hm
          cases hm
    · refine iff_of_false (fun hpres => ?_) (fun h => h ⟨⟨n, hfrom, hn⟩, .inl ⟨tag, hto, hmax⟩⟩)
      -- the sentinel is asked of the local node, but the filter ends at the tag
      have hasked : u64Max ∈ blocks chain filter := by
        rw [← hpres.covers, hlocal, hto]
        exact .inr ⟨hcut, le_refl _⟩
      rw [blocks_eq chain (by rw [hfrom]; rfl) (by rw [hto]; rfl)] at hasked
      exact hmax (le_antisymm (chain.isU64 tag) hasked.2)
  | malformed =>
    refine iff_of_false (fun hpres => ?_) (fun h => h ⟨⟨n, hfrom, hn⟩, .inr hto⟩)
    have hasked : n ∈ blocks chain filter := by
      rw [← hpres.covers, hlegacy]
      exact .inl ⟨le_refl _, hn⟩
    rw [blocks_malformed chain hto] at hasked
    cases hasked

/-- A lower bound that is no number reads as the sentinel, and the request stays as it is. -/
theorem preserves_of_no_number (hcut : cutoff ≤ u64Max)
    (hp : req.params = some (.json (.arr (.obj filter :: rest))))
    (hh : (OrdMap.lookup "blockHash" filter).bind Json.asStr = none)
    (hnum : ∀ n, boundOf (OrdMap.lookup "fromBlock" filter) ≠ .height n) :
    PreservesQuery chain req filter rest ∧ ¬ FoldedUpperBound chain filter := by
  have hmax : blockBound filter "fromBlock" = u64Max := by
    rw [blockBound_eq]
    cases hfrom : boundOf (OrdMap.lookup "fromBlock" filter) with
    | head tag => rfl
    | malformed => rfl
    | height n => exact absurd hfrom (hnum n)
  have hlocal : getLogsRoute cutoff req = .localNode := by
    rw [getLogsRoute_range hp hh, hmax]
    by_cases hgt : u64Max > blockBound filter "toBlock"
    · rw [if_pos hgt]
    · rw [if_neg hgt, if_neg (by omega), if_pos hcut]
  refine ⟨preserves_localNode hp hlocal (fun b hb => ?_), ?_⟩
  · rcases lower_cases chain hb with ⟨tag, -, hle⟩ | ⟨n, hn, -⟩
    · exact le_trans (chain.above tag) hle
    · exact absurd hn (hnum n)
  · rintro ⟨⟨n, hn, -⟩, -⟩
    exact hnum n hn

end Preserved

/-- **When the split preserves the query**: exactly when no upper bound is folded into the
    sentinel for a number it does not stand for. -/
theorem preservesQuery_iff (cutoff : Nat) (chain : ChainView cutoff) (req : Request)
    (filter : FilterObject) (rest : List Json) (hcut : cutoff ≤ u64Max)
    (hp : req.params = some (.json (.arr (.obj filter :: rest))))
    (hh : (OrdMap.lookup "blockHash" filter).bind Json.asStr = none) :
    PreservesQuery chain req filter rest ↔ ¬ FoldedUpperBound chain filter := by
  have hroute : getLogsRoute cutoff req = _ := getLogsRoute_range hp hh
  rw [blockBound_eq, blockBound_eq] at hroute
  by_cases hnum : ∃ n, boundOf (OrdMap.lookup "fromBlock" filter) = .height n
  · obtain ⟨n, hfrom⟩ := hnum
    rw [hfrom, Bound.folded] at hroute
    by_cases hgt : n > (boundOf (OrdMap.lookup "toBlock" filter)).folded
    · -- the range is empty and goes to the local node
      rw [if_pos hgt] at hroute
      obtain ⟨m, hto⟩ := height_of_folded_lt (lt_of_lt_of_le hgt (height_le hfrom))
      rw [hto, Bound.folded] at hgt
      refine iff_of_true (preserves_localNode hp hroute (fun b hb => ?_))
        (not_folded_of_number hto)
      rw [blocks_eq chain (by rw [hfrom]; rfl) (by rw [hto]; rfl)] at hb
      have h1 : n ≤ b := hb.1
      have h2 : b ≤ m := hb.2
      omega
    rw [if_neg hgt] at hroute
    by_cases hlt : (boundOf (OrdMap.lookup "toBlock" filter)).folded < cutoff
    · rw [if_pos hlt] at hroute
      obtain ⟨m, hto⟩ := height_of_folded_lt (lt_of_lt_of_le hlt hcut)
      rw [hto, Bound.folded] at hlt
      refine iff_of_true (preserves_legacy hp hroute (fun b hb => ?_) ?_)
        (not_folded_of_number hto)
      · rw [blocks_eq chain (by rw [hfrom]; rfl) (by rw [hto]; rfl)] at hb
        have h2 : b ≤ m := hb.2
        omega
      · simp [hfrom, hto]
    rw [if_neg hlt] at hroute
    by_cases hge : n ≥ cutoff
    · rw [if_pos hge] at hroute
      refine iff_of_true (preserves_localNode hp hroute (fun b hb => ?_)) ?_
      · rcases lower_cases chain hb with ⟨tag, htag, -⟩ | ⟨n', hn', hle⟩
        · rw [hfrom] at htag
          cases htag
        · rw [hfrom] at hn'
          cases hn'
          omega
      · rintro ⟨⟨n', hn', hlt'⟩, -⟩
        rw [hfrom] at hn'
        cases hn'
        omega
    rw [if_neg hge] at hroute
    exact hybrid_preserves_iff hcut (Nat.lt_of_not_le hge) (Nat.le_of_not_lt hlt)
      (folded_boundOf_le _) hroute hfrom
  · obtain ⟨hpreserves, hnot⟩ := preserves_of_no_number hcut hp hh (fun n hn => hnum ⟨n, hn⟩)
    exact iff_of_true hpreserves hnot

/-- A chain at block 200, whose safe block is 150. -/
def sampleChain : ChainView 50 where
  height
    | .latest => 200
    | .safe => 150
    | .finalized => 100
    | .pending => 201
  above t := by cases t <;> decide
  isU64 t := by cases t <;> decide

theorem preservesQuery_hundred : PreservesQuery sampleChain hundredRequest hundredFilter [] := by
  rw [preservesQuery_iff 50 sampleChain hundredRequest hundredFilter [] (by decide) rfl
    (by decide)]
  have hto : boundOf (OrdMap.lookup "toBlock" hundredFilter) = .height 100 := by decide
  exact not_folded_of_number hto

/-- A filter from block 1 to the safe block, in a request for its logs. -/
def safeFilter : FilterObject := [("fromBlock", .str "0x1"), ("toBlock", .str "safe")]

def safeRequest : Request := ⟨"eth_getLogs", some (.json (.arr [.obj safeFilter])), .number 7⟩

/-- The local node is asked for block 200, above the safe block. -/
theorem safe_upper_bound_lost :
    200 ∈ asked sampleChain ((getLogsRoute 50 safeRequest).localRequest safeRequest) ∧
      200 ∉ blocks sampleChain safeFilter ∧
      ¬ PreservesQuery sampleChain safeRequest safeFilter [] := by
  have hfrom : blockBound safeFilter "fromBlock" = 1 := by decide
  have hto : blockBound safeFilter "toBlock" = u64Max := by decide
  have hroute : getLogsRoute 50 safeRequest = .hybrid _ _ :=
    getLogsRoute_crosses ⟨rfl, by decide, by rw [hfrom]; decide, by rw [hto]; decide⟩
  rw [hfrom, hto] at hroute
  obtain ⟨-, hlocal⟩ := asked_hybrid sampleChain (by decide) (by decide) (by decide) hroute
  have hasked :
      200 ∈ asked sampleChain ((getLogsRoute 50 safeRequest).localRequest safeRequest) := by
    rw [hlocal]
    exact ⟨by decide, by decide⟩
  have hblocks : 200 ∉ blocks sampleChain safeFilter := by
    have hlo : sampleChain.resolve (boundOf (OrdMap.lookup "fromBlock" safeFilter)) = some 1 := by
      decide
    have hhi : sampleChain.resolve (boundOf (OrdMap.lookup "toBlock" safeFilter)) = some 150 := by
      decide
    rw [blocks_eq sampleChain hlo hhi]
    exact fun h => absurd h.2 (by decide)
  refine ⟨hasked, hblocks, fun hpres => hblocks ?_⟩
  rw [← hpres.covers]
  exact .inr hasked

end XLayerReth.LegacyRpc
