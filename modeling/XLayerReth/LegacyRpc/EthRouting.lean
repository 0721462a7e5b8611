import XLayerReth.LegacyRpc.Routing

/-!
# A chain split between two backends

The `eth_` methods of `service.rs` that ask for a block or a transaction.  Those that take a block
are routed by the number they name, or by whether the local node finds the hash they name; those
that take the hash of a block or transaction only are tried locally first.

* `ethTarget` — the block a request names; unlike for the debug methods `earliest` is block 0.
* `ethDestination` — where the request goes, from what it names.
* `SplitAt` — one chain whose blocks below the cutoff are held by the legacy endpoint, and those
  from the cutoff on by the local node.

Principal results: `ethMethods_destination` — the destination of every request that takes a block,
from its target alone; `answered_as_one_node` — a client of the router sees the answers of a node
that holds the whole chain.
-/

set_option autoImplicit false

namespace XLayerReth.LegacyRpc

open RcsFilter Lib Lib.Digits

/-! ## What a request names -/

/-- The block a parameter names. -/
def ethNamedBlock : Option Json → Target
  | some (.str s) => if s = "earliest" then .number 0 else namedByString s
  | v => namedBlock v

/-- The block a request names, at the position that its method has it. -/
def ethTarget (req : Request) : Target := ethNamedBlock (req.param (blockParamPos req.method))

/-- Where a request goes whose block hash the local node was asked for. -/
def Lookup.destination : Lookup → Destination
  | .height _ => .localNode
  | .unknown | .failed | .unreadable | .undecodable => .legacy

/-- Where a request goes, from what it names. -/
def ethDestination (cfg : RouterConfig) (inner : Request → MethodResponse) (method : String) :
    Target → Destination
  | .number n => if n < cfg.cutoffBlock then .legacy else .localNode
  | .blockHash hash =>
    if canUseBlockHashAsParam method then (blockLookup inner hash).destination else .localNode
  | .tag | .txHash _ | .malformed => .localNode

/-! ## The router reads what the request names -/

theorem parseBlockParam_earliest {params : RawValue} {index : Nat}
    (h : paramAt params index = some (.str "earliest")) :
    parseBlockParam params index = some "0" := by
  unfold parseBlockParam
  rw [h]
  rfl

/-- The four tags of a moving block have no text. -/
theorem parseBlockParam_moving {params : RawValue} {index : Nat} {s : String}
    (h : paramAt params index = some (.str s)) (hs : isSpecialBlockTag s = true)
    (hne : s ≠ "earliest") : parseBlockParam params index = none := by
  unfold parseBlockParam
  rw [h]
  change parseBlockString s = none
  have htag : s = "latest" ∨ s = "pending" ∨ s = "safe" ∨ s = "finalized" ∨ s = "earliest" := by
    simpa [isSpecialBlockTag] using hs
  unfold parseBlockString
  rw [if_pos]
  rcases htag with h | h | h | h | h
  · exact .inl h
  · exact .inr (.inl h)
  · exact .inr (.inr (.inl h))
  · exact .inr (.inr (.inr h))
  · exact absurd h hne

/-- **The block parameter of a request is read as what it names.** -/
theorem parseBlockParam_readsAs (params : RawValue) (index : Nat) :
    ReadsAs (parseBlockParam params index) (ethNamedBlock (paramAt params index)) := by
  cases hv : paramAt params index with
  | none =>
    rw [(rawBlockParamAt_none hv).2]
    exact ⟨rfl, rfl⟩
  | some v =>
    have hplain (h : (rawBlockParamAt params index).any isSpecialBlockTag = false) :
        ReadsAs (parseBlockParam params index) (namedBlock (some v)) := by
      have := parseBlockParam_reads h (by rw [hv]; rfl)
      rwa [hv] at this
    cases v with
    | str s =>
      by_cases hearliest : s = "earliest"
      · rw [hearliest] at hv ⊢
        rw [parseBlockParam_earliest hv]
        exact ⟨by decide, by decide⟩
      · rw [ethNamedBlock, if_neg hearliest]
        cases htag : isSpecialBlockTag s with
        | true =>
          rw [parseBlockParam_moving hv htag hearliest, namedByString, if_pos htag]
          exact ⟨rfl, rfl⟩
        | false =>
          exact hplain (by rw [rawBlockParamAt, hv]; exact htag)
    | null | bool | num | arr | obj =>
      exact hplain (by rw [rawBlockParamAt, hv]; rfl)

/-- Where a request goes, from the lookup of the block hash it names. -/
def hashDestination : Except String (Option Nat) → Destination
  | .ok none => .legacy
  | .ok (some _) => .localNode
  | .error _ => .legacy

/-- A hash goes to the legacy endpoint unless the local node answers with a height. -/
theorem hashDestination_lookup (inner : Request → MethodResponse) {hash : String}
    (h : isValid32BytesString hash = true) :
    hashDestination (callEthGetBlockByHash inner hash false) =
      (blockLookup inner hash).destination := by
  unfold callEthGetBlockByHash blockLookup
  rw [h, if_neg (by decide)]
  dsimp only
  generalize inner _ = res
  obtain ⟨id, payload⟩ := res
  cases payload with
  | error e =>
    obtain ⟨j, hj, hres⟩ := decode_error id e
    rw [hj]
    dsimp only
    rw [hres]
    rfl
  | success raw =>
    cases raw with
    | undecodable e => rfl
    | json v =>
      obtain ⟨j, hj, hres⟩ := decode_success id v
      rw [hj]
      dsimp only
      rw [hres, Option.bind_some]
      unfold lookupOf
      cases v with
      | null => rfl
      | bool | num | str | arr | obj =>
        dsimp only
        generalize (Json.get? "number" _).bind heightOf = height
        cases height with
        | none => rfl
        | some n => rfl

/-! ## The destination of a request that takes a block -/

section Methods

variable {cfg : RouterConfig} {inner : Request → MethodResponse} {req : Request}

/-- The methods that take a block reach the handler of block parameters. -/
theorem destination_blockParam (hm : needParseBlock req.method = true) (he : cfg.enabled = true) :
    destination cfg inner req = blockParamMethods cfg inner req := by
  have hmethods : ∀ m ∈ ["eth_getBlockByNumber", "eth_getBlockTransactionCountByNumber",
      "eth_getHeaderByNumber", "eth_getTransactionByBlockNumberAndIndex",
      "eth_getRawTransactionByBlockNumberAndIndex", "eth_getBlockReceipts", "eth_getBalance",
      "eth_getCode", "eth_getStorageAt", "eth_getTransactionCount", "eth_call", "eth_estimateGas",
      "eth_createAccessList"], isLegacyRoutable m = true ∧ m ≠ "eth_getLogs" ∧
        m ≠ "debug_traceBlockByHash" ∧ m ≠ "debug_traceTransaction" ∧
        ¬ (m = "debug_traceBlockByNumber" ∨ m = "debug_traceCall") ∧
        needTryLocalThenLegacy m = false := by
    decide
  obtain ⟨hroutable, h1, h2, h3, h4, htry⟩ := hmethods _ (List.contains_iff_mem.mp hm)
  unfold destination
  rw [he, hroutable, if_neg (by decide), if_neg h1, if_neg h2, if_neg h3, if_neg h4, htry,
    if_neg (by decide), if_pos hm]

/-- The methods that take a hash only are tried locally first. -/
theorem destination_tryLocal (hm : needTryLocalThenLegacy req.method = true)
    (he : cfg.enabled = true) :
    destination cfg inner req = tryLocalThenLegacy inner req := by
  have hmethods : ∀ m ∈ ["eth_getTransactionByHash", "eth_getTransactionReceipt",
      "eth_getRawTransactionByHash", "eth_getBlockByHash", "eth_getHeaderByHash",
      "eth_getBlockTransactionCountByHash", "eth_getTransactionByBlockHashAndIndex",
      "eth_getRawTransactionByBlockHashAndIndex"], isLegacyRoutable m = true ∧ m ≠ "eth_getLogs" ∧
        m ≠ "debug_traceBlockByHash" ∧ m ≠ "debug_traceTransaction" ∧
        ¬ (m = "debug_traceBlockByNumber" ∨ m = "debug_traceCall") := by
    decide
  obtain ⟨hroutable, h1, h2, h3, h4⟩ := hmethods _ (List.contains_iff_mem.mp hm)
  unfold destination
  rw [he, hroutable, if_neg (by decide), if_neg h1, if_neg h2, if_neg h3, if_neg h4, if_pos hm]

/-- **The destination of every request that takes a block**, from what it names. -/
theorem ethMethods_destination (hm : needParseBlock req.method = true) (he : cfg.enabled = true) :
    destination cfg inner req =
      if req.params.isNone then .missingParams
      else ethDestination cfg inner req.method (ethTarget req) := by
  rw [destination_blockParam hm he, blockParamMethods, ethTarget, Request.param]
  cases req.params with
  | none => rfl
  | some params =>
    have hreads := parseBlockParam_readsAs params (blockParamPos req.method)
    rw [Option.bind_some]
    dsimp only
    rw [if_neg (by simp)]
    generalize ethNamedBlock (paramAt params (blockParamPos req.method)) = t at hreads ⊢
    obtain ⟨hnumber, hhash⟩ := hreads
    cases htext : parseBlockParam params (blockParamPos req.method) with
    | none =>
      rw [htext] at hnumber hhash
      cases t with
      | number n => cases hnumber
      | blockHash hash => cases hhash
      | tag | txHash | malformed => rfl
    | some text =>
      rw [htext, Option.bind_some] at hnumber
      rw [htext, Option.filter_some] at hhash
      dsimp only
      cases hvalid : isValid32BytesString text with
      | true =>
        rw [hvalid, if_pos rfl] at hhash
        cases t with
        | number | tag | txHash | malformed => cases hhash
        | blockHash hash =>
          cases hhash
          rw [Bool.and_true, fromStr_hash hvalid, ethDestination]
          split
          · rw [← hashDestination_lookup inner hvalid]
            cases callEthGetBlockByHash inner text false with
            | error e => rfl
            | ok found => cases found <;> rfl
          · rfl
      | false =>
        rw [hvalid, if_neg (by decide)] at hhash
        rw [Bool.and_false, if_neg (by decide), hnumber]
        cases t with
        | blockHash hash => cases hhash
        | number n => rfl
        | tag | txHash | malformed => rfl

end Methods

/-! ## One chain, two backends -/

/-- A response with a result that is not empty. -/
def HasData (response : MethodResponse) : Prop :=
  response.isSuccess = true ∧ isResultEmpty response = false

/-- The chain a client asks about. -/
structure Chain where
  /-- The height of the block with a hash. -/
  blockHeight : String → Option Nat
  /-- The height of the block that has the transaction with a hash. -/
  txHeight : String → Option Nat
  /-- What a node that holds the whole chain answers. -/
  answer : Request → MethodResponse

/-- The methods that take the hash of a transaction. -/
def takesTxHash (method : String) : Bool :=
  ["eth_getTransactionByHash", "eth_getTransactionReceipt",
    "eth_getRawTransactionByHash"].contains method

/-- The backend that holds a height. -/
def holderOf (cutoff height : Nat) : Destination :=
  if height < cutoff then .legacy else .localNode

/-- The backend that holds the block a request asks about, if it asks about a block of the chain.
    The moving tags are blocks of the local node; a hash is a block only to a method that takes
    hashes. -/
def Chain.holder (chain : Chain) (cutoff : Nat) (req : Request) : Option Destination :=
  if needParseBlock req.method then
    match ethTarget req with
    | .number n => some (holderOf cutoff n)
    | .blockHash hash =>
      if canUseBlockHashAsParam req.method then (chain.blockHeight hash).map (holderOf cutoff)
      else none
    | .tag => some .localNode
    | .txHash _ | .malformed => none
  else
    let height := if takesTxHash req.method then chain.txHeight else chain.blockHeight
    (((req.param 0).bind Json.asStr).bind height).map (holderOf cutoff)

/-- The legacy endpoint holds the blocks of a chain below the cutoff, and the local node those from
    the cutoff on: each answers about its blocks as a node with the whole chain, and the local node
    finds nothing of the others by their hashes. -/
structure SplitAt (chain : Chain) (cutoff : Nat) (legacy : LegacyCall → LegacyReply)
    (inner : Request → MethodResponse) : Prop where
  lookup : ∀ hash n, chain.blockHeight hash = some n →
    blockLookup inner hash = if n < cutoff then .unknown else .height n
  localNode : ∀ req, chain.holder cutoff req = some .localNode → inner req = chain.answer req
  legacy : ∀ req, chain.holder cutoff req = some .legacy →
    forwardToLegacy legacy req = chain.answer req
  absent : ∀ req, needTryLocalThenLegacy req.method = true →
    chain.holder cutoff req = some .legacy → ¬ HasData (inner req)

section Split

variable {chain : Chain} {cfg : RouterConfig} {legacy : LegacyCall → LegacyReply}
  {inner : Request → MethodResponse} {req : Request} {holder : Destination}

theorem holderOf_cases (cutoff height : Nat) :
    holderOf cutoff height = .legacy ∨ holderOf cutoff height = .localNode := by
  unfold holderOf
  split
  · exact .inl rfl
  · exact .inr rfl

/-- Only the two backends hold blocks. -/
theorem Chain.holder_cases {cutoff : Nat} (h : chain.holder cutoff req = some holder) :
    holder = .legacy ∨ holder = .localNode := by
  have hmap : ∀ {o : Option Nat}, o.map (holderOf cutoff) = some holder →
      holder = .legacy ∨ holder = .localNode := by
    intro o ho
    obtain ⟨n, -, rfl⟩ := Option.map_eq_some_iff.mp ho
    exact holderOf_cases cutoff n
  unfold Chain.holder at h
  split at h
  · split at h
    · cases h
      exact holderOf_cases cutoff _
    · split at h
      · exact hmap h
      · cases h
    · exact .inr (Option.some.inj h).symm
    · cases h
    · cases h
  · exact hmap h

/-- **A request that takes a block is sent to the backend that holds it.** -/
theorem SplitAt.destination_blockParam (hs : SplitAt chain cfg.cutoffBlock legacy inner)
    (he : cfg.enabled = true) (hm : needParseBlock req.method = true) (hp : req.params.isSome)
    (h : chain.holder cfg.cutoffBlock req = some holder) :
    destination cfg inner req = holder := by
  rw [ethMethods_destination hm he, if_neg (by simp [Option.isSome_iff_ne_none.mp hp])]
  rw [Chain.holder, if_pos hm] at h
  cases ht : ethTarget req with
  | number n =>
    rw [ht] at h
    exact Option.some.inj h
  | blockHash hash =>
    rw [ht] at h
    dsimp only at h
    obtain ⟨htakes, h⟩ := Option.ite_none_right_eq_some.mp h
    obtain ⟨n, hn, rfl⟩ := Option.map_eq_some_iff.mp h
    rw [ethDestination, if_pos htakes, hs.lookup hash n hn, holderOf]
    split
    · rfl
    · rfl
  | tag =>
    rw [ht] at h
    exact Option.some.inj h
  | txHash hash =>
    rw [ht] at h
    cases h
  | malformed =>
    rw [ht] at h
    cases h

/-- **A client of the router sees the answers of one node that holds the whole chain**, for every
    request about a block or transaction of the chain, by number, tag or hash.  A request that is
    tried locally first has to have an answer with data, since one without goes on to the legacy
    endpoint wherever the block is. -/
theorem answered_as_one_node (hs : SplitAt chain cfg.cutoffBlock legacy inner)
    (he : cfg.enabled = true)
    (hm : needParseBlock req.method = true ∧ req.params.isSome ∨
      needTryLocalThenLegacy req.method = true ∧ HasData (chain.answer req))
    (hheld : (chain.holder cfg.cutoffBlock req).isSome) :
    call cfg legacy inner req = chain.answer req := by
  obtain ⟨holder, h⟩ := Option.isSome_iff_exists.mp hheld
  rcases hm with ⟨hm, hp⟩ | ⟨hm, hdata⟩
  · have hdest := hs.destination_blockParam he hm hp h
    rcases Chain.holder_cases h with rfl | rfl
    · rw [call, hdest]
      exact hs.legacy req h
    · rw [call, hdest]
      exact hs.localNode req h
  · have hdest : destination cfg inner req = tryLocalThenLegacy inner req :=
      destination_tryLocal hm he
    rcases Chain.holder_cases h with rfl | rfl
    · -- the local node has nothing about the hash
      have habsent := hs.absent req hm h
      have hlegacy : tryLocalThenLegacy inner req = .legacy := by
        unfold tryLocalThenLegacy
        apply if_pos
        unfold HasData at habsent
        cases hsuccess : (inner req).isSuccess with
        | false => rfl
        | true =>
          rw [hsuccess] at habsent
          simpa using habsent
      rw [call, hdest, hlegacy]
      exact hs.legacy req h
    · have hinner := hs.localNode req h
      have hlocal : tryLocalThenLegacy inner req = .localNode := by
        unfold tryLocalThenLegacy
        apply if_neg
        rw [hinner, hdata.1, hdata.2]
        decide
      rw [call, hdest, hlocal]
      exact hinner

end Split

section Sample

/-- A block of height 50. -/
def oldHeight (hash : String) : Option Nat := if hash = sampleHash then some 50 else none

/-- A local node that finds nothing by its hash. -/
def recentNode : Request → MethodResponse := fun req =>
  if needTryLocalThenLegacy req.method then ⟨req.id, .success (.json .null)⟩
  else ⟨req.id, .success (.json (.str "0x2"))⟩

def oldEndpoint : LegacyCall → LegacyReply := fun _ => .fields (some (.json (.str "0x1"))) none

def splitHeights : Chain := ⟨oldHeight, fun _ => none, recentNode⟩

/-- A chain with one block below the cutoff. -/
def splitChain : Chain :=
  { splitHeights with
    answer := fun req =>
      if splitHeights.holder 100 req = some .legacy then ⟨req.id, .success (.json (.str "0x1"))⟩
      else recentNode req }

def balanceByHash : Request :=
  ⟨"eth_getBalance", some (.json (.arr [.str "0x00", .str sampleHash])), .number 1⟩

theorem splitChain_splitAt : SplitAt splitChain 100 oldEndpoint recentNode where
  lookup hash n hn := by
    have hn : oldHeight hash = some n := hn
    obtain ⟨-, hn⟩ := Option.ite_none_right_eq_some.mp hn
    cases hn
    rfl
  localNode req h := by
    have hne : splitHeights.holder 100 req ≠ some .legacy := by
      intro hlegacy
      have : some Destination.localNode = some .legacy := h.symm.trans hlegacy
      cases this
    exact (if_neg hne).symm
  legacy req h := by
    have heq : splitHeights.holder 100 req = some .legacy := h
    exact (if_pos heq).symm
  absent req hm h := by
    rintro ⟨-, hempty⟩
    rw [recentNode, if_pos hm] at hempty
    cases hempty

/-- The balance at an old block, named by its hash, is the one of the legacy endpoint. -/
theorem balanceByHash_old :
    call ⟨true, 100⟩ oldEndpoint recentNode balanceByHash =
      ⟨.number 1, .success (.json (.str "0x1"))⟩ := by
  have hheld : splitChain.holder 100 balanceByHash = some .legacy := by decide
  have hanswer : splitChain.answer balanceByHash = ⟨.number 1, .success (.json (.str "0x1"))⟩ :=
    @if_pos (splitHeights.holder 100 balanceByHash = some .legacy) _ hheld _ _
      (recentNode balanceByHash)
  rw [← hanswer]
  exact answered_as_one_node splitChain_splitAt rfl
    (.inl ⟨by decide, rfl⟩) (by rw [hheld]; rfl)

end Sample

end XLayerReth.LegacyRpc
