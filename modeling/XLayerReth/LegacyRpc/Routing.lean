import XLayerReth.LegacyRpc.GetLogs

/-!
# Routing by the height of the target block

Model of `legacy-rpc/src/service.rs`: which backend serves a request.

* `destination` — the decision of `LegacyRpcRouterService::call`, from the method, the parameters
  and what the local node answers to the lookups the router makes.
* `Target`, `target` — the block or transaction a debug trace request names.
* `Lookup` — an answer of the local node to a lookup by hash, with the ways it can be no height.

Principal results: `destination_debug` (the destination of every debug trace request, from its
target alone) and `debug_routing_by_height`.
-/

set_option autoImplicit false

namespace XLayerReth.LegacyRpc

open RcsFilter Lib Lib.Digits

/-! ## The router -/

structure RouterConfig where
  enabled : Bool
  cutoffBlock : Nat

/-- `is_legacy_routable`. -/
def isLegacyRoutable (method : String) : Bool :=
  ["eth_getBlockByNumber", "eth_getBlockByHash", "eth_getBlockTransactionCountByNumber",
    "eth_getBlockTransactionCountByHash", "eth_getBlockReceipts", "eth_getHeaderByNumber",
    "eth_getHeaderByHash", "eth_getTransactionByHash", "eth_getTransactionReceipt",
    "eth_getTransactionByBlockHashAndIndex", "eth_getTransactionByBlockNumberAndIndex",
    "eth_getRawTransactionByHash", "eth_getRawTransactionByBlockHashAndIndex",
    "eth_getRawTransactionByBlockNumberAndIndex", "eth_getBalance", "eth_getCode",
    "eth_getStorageAt", "eth_getTransactionCount", "eth_call", "eth_estimateGas",
    "eth_createAccessList", "eth_getLogs", "debug_traceTransaction", "debug_traceBlockByNumber",
    "debug_traceBlockByHash", "debug_traceCall"].contains method

/-- `need_parse_block`. -/
def needParseBlock (method : String) : Bool :=
  ["eth_getBlockByNumber", "eth_getBlockTransactionCountByNumber", "eth_getHeaderByNumber",
    "eth_getTransactionByBlockNumberAndIndex", "eth_getRawTransactionByBlockNumberAndIndex",
    "eth_getBlockReceipts", "eth_getBalance", "eth_getCode", "eth_getStorageAt",
    "eth_getTransactionCount", "eth_call", "eth_estimateGas",
    "eth_createAccessList"].contains method

/-- `can_use_block_hash_as_param`. -/
def canUseBlockHashAsParam (method : String) : Bool :=
  ["eth_getBlockReceipts", "eth_getBalance", "eth_getCode", "eth_getStorageAt",
    "eth_getTransactionCount", "eth_call", "eth_estimateGas",
    "eth_createAccessList"].contains method

/-- `need_try_local_then_legacy`. -/
def needTryLocalThenLegacy (method : String) : Bool :=
  ["eth_getTransactionByHash", "eth_getTransactionReceipt", "eth_getRawTransactionByHash",
    "eth_getBlockByHash", "eth_getHeaderByHash", "eth_getBlockTransactionCountByHash",
    "eth_getTransactionByBlockHashAndIndex",
    "eth_getRawTransactionByBlockHashAndIndex"].contains method

/-- `is_result_empty`: a null result, an empty object or an empty array. -/
def isResultEmpty (response : MethodResponse) : Bool :=
  match response.decode with
  | .error _ => false
  | .ok json =>
    match json.get? "result" with
    | some .null => true
    | some (.obj fields) => fields.isEmpty
    | some (.arr items) => items.isEmpty
    | _ => false

/-- `block_param_pos`. -/
def blockParamPos (method : String) : Nat :=
  if ["eth_getBalance", "eth_getCode", "eth_getTransactionCount", "eth_call", "eth_estimateGas",
      "eth_createAccessList", "debug_traceCall"].contains method then 1
  else if method = "eth_getStorageAt" then 2
  else 0

/-- `is_special_block_tag`. -/
def isSpecialBlockTag (raw : String) : Bool :=
  ["latest", "pending", "safe", "finalized", "earliest"].contains raw

/-- `raw_block_param_at`. -/
def rawBlockParamAt (params : RawValue) (index : Nat) : Option String :=
  (paramAt params index).bind Json.asStr

/-- Where a request is served. -/
inductive Destination where
  | legacy
  | localNode
  /-- The router answers itself: the parameters are missing. -/
  | missingParams
  /-- `handle_eth_get_logs`. -/
  | getLogs
  deriving DecidableEq, Repr

/-- `handle_try_local_then_legacy`. -/
def tryLocalThenLegacy (inner : Request → MethodResponse) (req : Request) : Destination :=
  let res := inner req
  if !res.isSuccess || (res.isSuccess && isResultEmpty res) then .legacy else .localNode

/-- `handle_block_param_methods`. -/
def blockParamMethods (cfg : RouterConfig) (inner : Request → MethodResponse) (req : Request) :
    Destination :=
  match req.params with
  | none => .missingParams
  | some params =>
    match parseBlockParam params (blockParamPos req.method) with
    | none => .localNode
    | some blockParam =>
      if canUseBlockHashAsParam req.method && isValid32BytesString blockParam then
        match callEthGetBlockByHash inner blockParam false with
        | .ok none => .legacy
        | .ok (some _) => .localNode
        | .error _ => .legacy
      else
        match u64FromStrRadix 10 blockParam.toList with
        | some blockNum => if blockNum < cfg.cutoffBlock then .legacy else .localNode
        | none => .localNode

/-- `route_by_resolved_height`. -/
def routeByResolvedHeight (cfg : RouterConfig) : Except String (Option Nat) → Destination
  | .ok (some height) => if height < cfg.cutoffBlock then .legacy else .localNode
  | .ok none => .legacy
  | .error _ => .localNode

/-- `handle_debug_block_by_hash`. -/
def debugBlockByHash (cfg : RouterConfig) (inner : Request → MethodResponse) (req : Request) :
    Destination :=
  match req.params.bind (fun p => parseBlockParam p 0) with
  | none => .localNode
  | some blockHash => routeByResolvedHeight cfg (callEthGetBlockByHash inner blockHash false)

/-- `handle_debug_trace_transaction`. -/
def debugTraceTransaction (cfg : RouterConfig) (inner : Request → MethodResponse)
    (req : Request) : Destination :=
  match req.params.bind (fun p => rawBlockParamAt p 0) with
  | none => .localNode
  | some txHash => routeByResolvedHeight cfg (getTransactionBlockNumber inner txHash)

/-- The decision of `LegacyRpcRouterService::call`. -/
def destination (cfg : RouterConfig) (inner : Request → MethodResponse) (req : Request) :
    Destination :=
  if !cfg.enabled || !isLegacyRoutable req.method then .localNode
  else if req.method = "eth_getLogs" then .getLogs
  else if req.method = "debug_traceBlockByHash" then debugBlockByHash cfg inner req
  else if req.method = "debug_traceTransaction" then debugTraceTransaction cfg inner req
  else if req.method = "debug_traceBlockByNumber" ∨ req.method = "debug_traceCall" then
    if (req.params.bind (fun p => rawBlockParamAt p (blockParamPos req.method))).any
        isSpecialBlockTag then .localNode
    else blockParamMethods cfg inner req
  else if needTryLocalThenLegacy req.method then tryLocalThenLegacy inner req
  else if needParseBlock req.method then blockParamMethods cfg inner req
  else .localNode

/-- `LegacyRpcRouterService::call`. -/
def call (cfg : RouterConfig) (legacy : LegacyCall → LegacyReply)
    (inner : Request → MethodResponse) (req : Request) : MethodResponse :=
  match destination cfg inner req with
  | .legacy => forwardToLegacy legacy req
  | .localNode => inner req
  | .missingParams => errorResponse req.id invalidParamsCode "Missing required params"
  | .getLogs => handleEthGetLogs cfg.cutoffBlock legacy inner req

/-! ## What a debug trace request names -/

def debugTraceMethods : List String :=
  ["debug_traceBlockByNumber", "debug_traceBlockByHash", "debug_traceTransaction",
    "debug_traceCall"]

/-- The block or transaction a request names. -/
inductive Target where
  | tag
  | number (n : Nat)
  | blockHash (hash : String)
  | txHash (hash : String)
  | malformed
  deriving DecidableEq

/-- A number below `2 ^ 64` in the given notation. -/
def numberTarget (r : Nat) (digits : List Char) : Target :=
  match u64FromStrRadix r digits with
  | some n => .number n
  | none => .malformed

/-- A block named by a string: a tag, a hash of 66 characters, or a hexadecimal number. -/
def namedByString (s : String) : Target :=
  if isSpecialBlockTag s then .tag
  else
    match strip0x s.toList with
    | some digits =>
      if s.utf8ByteSize = 66 then if isValid32BytesString s then .blockHash s else .malformed
      else numberTarget 16 digits
    | none => .malformed

/-- A block named by an object with a hash, or with a number in either notation. -/
def namedByObject (obj : Json) : Target :=
  match (obj.get? "blockHash").bind Json.asStr with
  | some hash => if isValid32BytesString hash then .blockHash hash else .malformed
  | none =>
    match (obj.get? "blockNumber").bind Json.asStr with
    | some num =>
      match strip0x num.toList with
      | some digits => numberTarget 16 digits
      | none => numberTarget 10 num.toList
    | none => .malformed

/-- The block a parameter names; without one it is the latest. -/
def namedBlock : Option Json → Target
  | none => .tag
  | some (.str s) => namedByString s
  | some (.obj fields) => namedByObject (.obj fields)
  | some _ => .malformed

/-- The parameter of a request at a position. -/
def Request.param (req : Request) (index : Nat) : Option Json :=
  req.params.bind (fun p => paramAt p index)

/-- What a debug trace request names, in the way its method does. -/
def target (req : Request) : Target :=
  if req.method = "debug_traceCall" then namedBlock (req.param 1)
  else if req.method = "debug_traceBlockByNumber" then
    match namedBlock (req.param 0) with
    | .blockHash _ => .malformed
    | t => t
  else if req.method = "debug_traceBlockByHash" then
    match namedBlock (req.param 0) with
    | .blockHash hash => .blockHash hash
    | _ => .malformed
  else
    match (req.param 0).bind Json.asStr with
    | some hash => if isValid32BytesString hash then .txHash hash else .malformed
    | none => .malformed

/-! ## Lookups -/

/-- An answer of the local node to a lookup by hash. -/
inductive Lookup where
  | height (n : Nat)
  /-- A null result: the hash is unknown. -/
  | unknown
  /-- A JSON-RPC error. -/
  | failed
  /-- A result without a readable height. -/
  | unreadable
  /-- A response that cannot be decoded. -/
  | undecodable
  deriving DecidableEq

/-- What a response says about the height in a field of its result. -/
def lookupOf (field : String) (res : MethodResponse) : Lookup :=
  match res.payload with
  | .error _ => .failed
  | .success (.undecodable _) => .undecodable
  | .success (.json .null) => .unknown
  | .success (.json v) =>
    match (v.get? field).bind heightOf with
    | some n => .height n
    | none => .unreadable

/-- The lookup of a block by its hash. -/
def blockLookup (inner : Request → MethodResponse) (hash : String) : Lookup :=
  lookupOf "number" (inner ⟨"eth_getBlockByHash",
    some (.json (.arr [.str hash, .bool false])), .number 1⟩)

/-- The lookup of a transaction by its hash. -/
def txLookup (inner : Request → MethodResponse) (hash : String) : Lookup :=
  lookupOf "blockNumber" (inner ⟨"eth_getTransactionByHash",
    some (.json (.arr [.str hash])), .number 1⟩)

/-- The hash is unknown, or the height it resolves to is below the cutoff. -/
def Lookup.below (cutoff : Nat) : Lookup → Bool
  | .height n => n < cutoff
  | .unknown => true
  | .failed | .unreadable | .undecodable => false

/-! ## The router reads what the request names -/

theorem strip0x_eq_some {cs digits : List Char} (h : strip0x cs = some digits) :
    cs = '0' :: 'x' :: digits := by
  unfold strip0x at h
  split at h
  · cases h; rfl
  · cases h

theorem toString_invalid (n : Nat) : isValid32BytesString (toString n) = false := by
  unfold isValid32BytesString
  cases hs : strip0x (toString n).toList with
  | none => rfl
  | some digits =>
    have hx : 'x' ∈ Nat.toDigits 10 n := by
      rw [← Nat.toList_repr, ← Nat.toString_eq_repr, strip0x_eq_some hs]
      simp
    have hdigit := Nat.isDigit_of_mem_toDigits (by decide) (by decide) hx
    exact absurd hdigit (by decide)

theorem fromStr_toString {n : Nat} (h : n < 2 ^ 64) :
    u64FromStrRadix 10 (toString n).toList = some n := by
  rw [Nat.toString_eq_repr, Nat.toList_repr]
  exact u64FromStrRadix_toDigits (by decide) (by decide) h

/-- A hash is no decimal number. -/
theorem fromStr_hash {hash : String} (h : isValid32BytesString hash = true) :
    u64FromStrRadix 10 hash.toList = none := by
  unfold isValid32BytesString at h
  cases hs : strip0x hash.toList with
  | none =>
    rw [hs] at h
    cases h
  | some digits =>
    have hx : digitIn 10 'x' = none := by decide
    rw [strip0x_eq_some hs]
    simp [u64FromStrRadix, hx]

def Target.number? : Target → Option Nat
  | .number n => some n
  | .tag | .blockHash _ | .txHash _ | .malformed => none

def Target.blockHash? : Target → Option String
  | .blockHash hash => some hash
  | .tag | .number _ | .txHash _ | .malformed => none

/-- What the router makes of the text of a block parameter: a number, a hash, or neither. -/
structure ReadsAs (text : Option String) (t : Target) : Prop where
  number : text.bind (fun p => u64FromStrRadix 10 p.toList) = t.number?
  hash : text.filter isValid32BytesString = t.blockHash?

theorem readsAs_none : ReadsAs none .malformed := ⟨rfl, rfl⟩

theorem readsAs_hash {hash : String} (h : isValid32BytesString hash = true) :
    ReadsAs (some hash) (.blockHash hash) := by
  refine ⟨fromStr_hash h, ?_⟩
  rw [Option.filter_some, if_pos h]
  rfl

/-- A hexadecimal number is passed on in decimal. -/
theorem readsAs_hex (digits : List Char) :
    ReadsAs ((u64FromStrRadix 16 digits).map toString) (numberTarget 16 digits) := by
  unfold numberTarget
  cases hd : u64FromStrRadix 16 digits with
  | none => exact readsAs_none
  | some n =>
    refine ⟨?_, ?_⟩
    · rw [Option.map_some, Option.bind_some, fromStr_toString (u64FromStrRadix_lt hd)]
      rfl
    · rw [Option.map_some, Option.filter_some, toString_invalid]
      rfl

/-- A text that is passed on as it is, and is no hash. -/
theorem readsAs_decimal {text : String} (h : isValid32BytesString text = false) :
    ReadsAs (some text) (numberTarget 10 text.toList) := by
  refine ⟨?_, ?_⟩
  · rw [Option.bind_some, numberTarget]
    cases u64FromStrRadix 10 text.toList with
    | none => rfl
    | some n => rfl
  · rw [Option.filter_some, h, numberTarget]
    cases u64FromStrRadix 10 text.toList with
    | none => rfl
    | some n => rfl

theorem parseBlockString_reads {s : String} (h : isSpecialBlockTag s = false) :
    ReadsAs (parseBlockString s) (namedByString s) := by
  have htags : s ≠ "latest" ∧ s ≠ "pending" ∧ s ≠ "safe" ∧ s ≠ "finalized" ∧ s ≠ "earliest" := by
    simpa [isSpecialBlockTag] using h
  unfold parseBlockString namedByString
  rw [if_neg (by simp [htags]), if_neg htags.2.2.2.2]
  simp only [h, Bool.false_eq_true, if_false]
  cases strip0x s.toList with
  | none => exact readsAs_none
  | some digits =>
    by_cases hsize : s.utf8ByteSize = 66
    · simp only [hsize, if_true]
      cases hv : isValid32BytesString s with
      | true => exact readsAs_hash hv
      | false => exact readsAs_none
    · simp only [hsize, if_false]
      exact readsAs_hex digits

theorem parseBlockObject_reads (obj : Json) :
    ReadsAs (parseBlockObject obj) (namedByObject obj) := by
  unfold parseBlockObject namedByObject
  cases (obj.get? "blockHash").bind Json.asStr with
  | some hash =>
    dsimp only
    cases hv : isValid32BytesString hash with
    | true => exact readsAs_hash hv
    | false => exact readsAs_none
  | none =>
    cases (obj.get? "blockNumber").bind Json.asStr with
    | none => exact readsAs_none
    | some num =>
      dsimp only
      cases hs : strip0x num.toList with
      | some digits => exact readsAs_hex digits
      | none =>
        apply readsAs_decimal
        unfold isValid32BytesString
        rw [hs]

/-- **The block parameter of a request, but for the tags, is read as what it names.** -/
theorem parseBlockParam_reads {params : RawValue} {index : Nat}
    (h : (rawBlockParamAt params index).any isSpecialBlockTag = false)
    (hsome : (paramAt params index).isSome) :
    ReadsAs (parseBlockParam params index) (namedBlock (paramAt params index)) := by
  unfold parseBlockParam
  unfold rawBlockParamAt at h
  obtain ⟨v, hv⟩ := Option.isSome_iff_exists.mp hsome
  rw [hv] at h ⊢
  cases v with
  | str s => exact parseBlockString_reads (by simpa [Json.asStr] using h)
  | obj fields => exact parseBlockObject_reads (.obj fields)
  | null | bool | num | arr => exact readsAs_none

/-! ## Lookups as the router reads them -/

/-- Where a block hash sends a request, from the lookup of the block. -/
def blockHashDestination (cutoff : Nat) : Lookup → Destination
  | .height n => if n < cutoff then .legacy else .localNode
  | .unknown | .failed | .unreadable => .legacy
  | .undecodable => .localNode

/-- Where a transaction hash sends a request, from the lookup of the transaction. -/
def txHashDestination (cutoff : Nat) : Lookup → Destination
  | .height n => if n < cutoff then .legacy else .localNode
  | .unknown | .failed => .legacy
  | .unreadable | .undecodable => .localNode

theorem route_blockHash (cfg : RouterConfig) (inner : Request → MethodResponse) {hash : String}
    (h : isValid32BytesString hash = true) :
    routeByResolvedHeight cfg (callEthGetBlockByHash inner hash false) =
      blockHashDestination cfg.cutoffBlock (blockLookup inner hash) := by
  unfold callEthGetBlockByHash blockLookup
  rw [h, if_neg (by decide)]
  dsimp only
  generalize inner _ = res
  obtain ⟨id, payload⟩ := res
  cases payload with
  | error e =>
    obtain ⟨j, hj, hres⟩ := decode_error id e
    rw [hj]
    dsimp only
    rw [hres]
    rfl
  | success raw =>
    cases raw with
    | undecodable e => rfl
    | json v =>
      obtain ⟨j, hj, hres⟩ := decode_success id v
      rw [hj]
      dsimp only
      rw [hres, Option.bind_some]
      unfold lookupOf
      split
      · rename_i hnull
        cases hnull
      · rename_i hnull
        cases hnull
      · rename_i hnull
        cases hnull
        rfl
      · rename_i w _ hw
        cases hw
        cases (v.get? "number").bind heightOf with
        | none => rfl
        | some n => rfl

theorem route_txHash (cfg : RouterConfig) (inner : Request → MethodResponse) {hash : String}
    (h : isValid32BytesString hash = true) :
    routeByResolvedHeight cfg (getTransactionBlockNumber inner hash) =
      txHashDestination cfg.cutoffBlock (txLookup inner hash) := by
  unfold getTransactionBlockNumber txLookup
  rw [h, if_neg (by decide)]
  dsimp only
  generalize inner _ = res
  obtain ⟨id, payload⟩ := res
  cases payload with
  | error e =>
    obtain ⟨j, hj, hres⟩ := decode_error id e
    rw [hj]
    dsimp only
    rw [hres]
    rfl
  | success raw =>
    cases raw with
    | undecodable e => rfl
    | json v =>
      obtain ⟨j, hj, hres⟩ := decode_success id v
      rw [hj]
      dsimp only
      rw [hres]
      unfold lookupOf
      cases v with
      | null => rfl
      | bool | num | str | arr | obj =>
        dsimp only
        generalize (Json.get? "blockNumber" _).bind heightOf = height
        cases height with
        | none => rfl
        | some n => rfl

/-- A text that is no hash is not looked up. -/
theorem route_invalid (cfg : RouterConfig) (inner : Request → MethodResponse) {hash : String}
    (h : isValid32BytesString hash = false) :
    routeByResolvedHeight cfg (callEthGetBlockByHash inner hash false) = .localNode ∧
      routeByResolvedHeight cfg (getTransactionBlockNumber inner hash) = .localNode := by
  unfold callEthGetBlockByHash getTransactionBlockNumber
  rw [h]
  exact ⟨rfl, rfl⟩

/-! ## The destination of a debug trace request -/

section Debug

variable (cfg : RouterConfig) (inner : Request → MethodResponse) (req : Request)

/-- Where a request goes, from what it names.  A block hash decides only where the method looks
    it up. -/
def targetDestination : Target → Destination
  | .number n => if n < cfg.cutoffBlock then .legacy else .localNode
  | .blockHash hash =>
    if req.method = "debug_traceBlockByHash" then
      blockHashDestination cfg.cutoffBlock (blockLookup inner hash)
    else .localNode
  | .txHash hash => txHashDestination cfg.cutoffBlock (txLookup inner hash)
  | .tag | .malformed =>
    if req.params.isNone ∧ (req.method = "debug_traceBlockByNumber" ∨
      req.method = "debug_traceCall") then .missingParams
    else .localNode

/-- A block number sends the request to the legacy endpoint when it is below the cutoff; anything
    else a number is expected for stays local. -/
def numberDestination : Option Nat → Destination
  | some n => if n < cfg.cutoffBlock then .legacy else .localNode
  | none => .localNode

variable {cfg inner req}

theorem rawBlockParamAt_none {params : RawValue} {index : Nat} (h : paramAt params index = none) :
    rawBlockParamAt params index = none ∧ parseBlockParam params index = none := by
  unfold rawBlockParamAt parseBlockParam
  rw [h]
  exact ⟨rfl, rfl⟩

theorem namedBlock_tag {params : RawValue} {index : Nat}
    (h : (rawBlockParamAt params index).any isSpecialBlockTag = true) :
    namedBlock (paramAt params index) = .tag := by
  unfold rawBlockParamAt at h
  cases hv : paramAt params index with
  | none => rfl
  | some v =>
    rw [hv] at h
    cases v with
    | str s =>
      have hs : isSpecialBlockTag s = true := h
      rw [namedBlock, namedByString, if_pos hs]
    | null | bool | num | arr | obj => cases h

/-- The text the router makes of a tag is no hash. -/
theorem parseBlockParam_tag {params : RawValue} {index : Nat}
    (h : (rawBlockParamAt params index).any isSpecialBlockTag = true) :
    (parseBlockParam params index).filter isValid32BytesString = none := by
  unfold rawBlockParamAt at h
  unfold parseBlockParam
  cases hv : paramAt params index with
  | none => rfl
  | some v =>
    rw [hv] at h
    cases v with
    | str s =>
      have hs : s = "latest" ∨ s = "pending" ∨ s = "safe" ∨ s = "finalized" ∨ s = "earliest" := by
        have : isSpecialBlockTag s = true := h
        simpa [isSpecialBlockTag] using this
      rcases hs with rfl | rfl | rfl | rfl | rfl <;> decide
    | null | bool | num | arr | obj => cases h

/-- A block parameter of a method that takes a number or a tag. -/
theorem numberMethods_destination {params : RawValue} (hp : req.params = some params)
    (hhash : canUseBlockHashAsParam req.method = false) :
    (if (req.params.bind (fun p => rawBlockParamAt p (blockParamPos req.method))).any
        isSpecialBlockTag then Destination.localNode else blockParamMethods cfg inner req) =
      numberDestination cfg
        (namedBlock (paramAt params (blockParamPos req.method))).number? := by
  rw [hp, Option.bind_some]
  cases htag : (rawBlockParamAt params (blockParamPos req.method)).any isSpecialBlockTag with
  | true =>
    rw [namedBlock_tag htag]
    rfl
  | false =>
    rw [if_neg (by decide), blockParamMethods, hp]
    dsimp only
    rw [hhash]
    cases hv : paramAt params (blockParamPos req.method) with
    | none =>
      rw [(rawBlockParamAt_none hv).2]
      rfl
    | some v =>
      have hread := (parseBlockParam_reads htag (by rw [hv]; rfl)).number
      rw [hv] at hread
      rw [← hread]
      cases parseBlockParam params (blockParamPos req.method) with
      | none => rfl
      | some text =>
        rw [Option.bind_some]
        dsimp only
        rw [Bool.false_and, if_neg (by decide)]
        cases u64FromStrRadix 10 text.toList with
        | none => rfl
        | some n => rfl

/-- A block parameter of the method that takes a hash. -/
theorem hashMethod_destination :
    debugBlockByHash cfg inner req =
      match (namedBlock (req.param 0)).blockHash? with
      | some hash => blockHashDestination cfg.cutoffBlock (blockLookup inner hash)
      | none => .localNode := by
  unfold debugBlockByHash Request.param
  cases hp : req.params with
  | none => rfl
  | some params =>
    rw [Option.bind_some, Option.bind_some]
    have hread : (parseBlockParam params 0).filter isValid32BytesString =
        (namedBlock (paramAt params 0)).blockHash? := by
      cases htag : (rawBlockParamAt params 0).any isSpecialBlockTag with
      | true =>
        rw [namedBlock_tag htag]
        exact parseBlockParam_tag htag
      | false =>
        cases hv : paramAt params 0 with
        | none =>
          rw [(rawBlockParamAt_none hv).2]
          rfl
        | some v =>
          rw [← hv]
          exact (parseBlockParam_reads htag (by rw [hv]; rfl)).hash
    rw [← hread]
    cases parseBlockParam params 0 with
    | none => rfl
    | some text =>
      rw [Option.filter_some]
      cases hvalid : isValid32BytesString text with
      | true => exact route_blockHash cfg inner hvalid
      | false => exact (route_invalid cfg inner hvalid).1

theorem txMethod_destination :
    debugTraceTransaction cfg inner req =
      match (req.param 0).bind Json.asStr with
      | some hash =>
        if isValid32BytesString hash then
          txHashDestination cfg.cutoffBlock (txLookup inner hash)
        else .localNode
      | none => .localNode := by
  unfold debugTraceTransaction Request.param rawBlockParamAt
  cases req.params with
  | none => rfl
  | some params =>
    rw [Option.bind_some, Option.bind_some]
    cases (paramAt params 0).bind Json.asStr with
    | none => rfl
    | some hash =>
      dsimp only
      cases hvalid : isValid32BytesString hash with
      | true => exact route_txHash cfg inner hvalid
      | false => exact (route_invalid cfg inner hvalid).2

theorem isLegacyRoutable_debug (hm : req.method ∈ debugTraceMethods) :
    isLegacyRoutable req.method = true := by
  have h : ∀ m ∈ debugTraceMethods, isLegacyRoutable m = true := by decide
  exact h _ hm

theorem destination_number (hm : req.method ∈ debugTraceMethods) (he : cfg.enabled = true)
    (h : req.method = "debug_traceBlockByNumber" ∨ req.method = "debug_traceCall") :
    destination cfg inner req =
      if req.params.isNone then .missingParams
      else numberDestination cfg (namedBlock (req.param (blockParamPos req.method))).number? := by
  have hne : req.method ≠ "eth_getLogs" ∧ req.method ≠ "debug_traceBlockByHash" ∧
      req.method ≠ "debug_traceTransaction" ∧ canUseBlockHashAsParam req.method = false := by
    rcases h with h | h
    · rw [h]
      decide
    · rw [h]
      decide
  unfold destination
  rw [he, isLegacyRoutable_debug hm, if_neg (by decide), if_neg hne.1, if_neg hne.2.1,
    if_neg hne.2.2.1, if_pos h]
  cases hp : req.params with
  | none =>
    rw [blockParamMethods, hp]
    rfl
  | some params =>
    have hnum := @numberMethods_destination cfg inner req params hp hne.2.2.2
    rw [hp] at hnum
    rw [Request.param, hp]
    exact hnum

theorem numberTarget_ne_txHash (r : Nat) (digits : List Char) (hash : String) :
    numberTarget r digits ≠ .txHash hash := by
  unfold numberTarget
  split
  · simp
  · simp

theorem namedByString_ne_txHash (s hash : String) : namedByString s ≠ .txHash hash := by
  unfold namedByString
  split
  · simp
  · split
    · split
      · split
        · simp
        · simp
      · exact numberTarget_ne_txHash _ _ _
    · simp

theorem namedByObject_ne_txHash (obj : Json) (hash : String) :
    namedByObject obj ≠ .txHash hash := by
  unfold namedByObject
  split
  · split
    · simp
    · simp
  · split
    · split
      · exact numberTarget_ne_txHash _ _ _
      · exact numberTarget_ne_txHash _ _ _
    · simp

/-- A block parameter names no transaction. -/
theorem namedBlock_ne_txHash (v : Option Json) (hash : String) : namedBlock v ≠ .txHash hash := by
  unfold namedBlock
  split
  · simp
  · exact namedByString_ne_txHash _ _
  · exact namedByObject_ne_txHash _ _
  · simp

/-- The destination from the target, for the two methods that take a number or a tag. -/
theorem targetDestination_number {t : Target} (htx : ∀ hash, t ≠ .txHash hash)
    (h : req.method = "debug_traceBlockByNumber" ∨ req.method = "debug_traceCall")
    (hnone : req.params = none → t = .tag) :
    targetDestination cfg inner req t =
      if req.params.isNone then .missingParams else numberDestination cfg t.number? := by
  have hhash : req.method ≠ "debug_traceBlockByHash" := by
    rcases h with h | h
    · rw [h]; decide
    · rw [h]; decide
  cases hp : req.params with
  | none =>
    rw [hnone hp, targetDestination, hp]
    exact if_pos ⟨rfl, h⟩
  | some params =>
    cases t with
    | number n => rfl
    | txHash hash => exact absurd rfl (htx hash)
    | blockHash hash =>
      rw [targetDestination]
      exact if_neg hhash
    | tag | malformed =>
      rw [targetDestination, hp]
      exact if_neg (by simp)

/-- **The destination of every debug trace request**, from what it names. -/
theorem destination_debug (hm : req.method ∈ debugTraceMethods) (he : cfg.enabled = true) :
    destination cfg inner req = targetDestination cfg inner req (target req) := by
  have hmethods : req.method = "debug_traceBlockByNumber" ∨ req.method = "debug_traceBlockByHash" ∨
      req.method = "debug_traceTransaction" ∨ req.method = "debug_traceCall" := by
    simpa [debugTraceMethods] using hm
  rcases hmethods with h | h | h | h
  · have hpos : blockParamPos req.method = 0 := by rw [h]; decide
    have htarget : target req = match namedBlock (req.param 0) with
        | .blockHash _ => .malformed
        | t => t := by
      unfold target
      rw [if_neg (by rw [h]; decide), if_pos h]
    have hnum : (target req).number? = (namedBlock (req.param 0)).number? := by
      rw [htarget]
      cases namedBlock (req.param 0) <;> rfl
    rw [destination_number hm he (.inl h), hpos, ← hnum]
    refine (targetDestination_number ?_ (.inl h) ?_).symm
    · intro hash
      rw [htarget]
      have hne := namedBlock_ne_txHash (req.param 0) hash
      split
      · simp
      · exact hne
    · intro hp
      rw [htarget, Request.param, hp]
      rfl
  · have hother : ¬ (req.method = "debug_traceBlockByNumber" ∨ req.method = "debug_traceCall") := by
      rw [h]
      decide
    unfold destination
    rw [he, isLegacyRoutable_debug hm, if_neg (by decide), if_neg (by rw [h]; decide), if_pos h,
      hashMethod_destination, target, if_neg (by rw [h]; decide), if_neg (by rw [h]; decide),
      if_pos h]
    cases namedBlock (req.param 0) with
    | blockHash hash => rw [targetDestination, if_pos h]; rfl
    | tag | number | txHash | malformed =>
      rw [targetDestination, if_neg (fun hx => hother hx.2)]
      rfl
  · have hother : ¬ (req.method = "debug_traceBlockByNumber" ∨ req.method = "debug_traceCall") := by
      rw [h]
      decide
    unfold destination
    rw [he, isLegacyRoutable_debug hm, if_neg (by decide), if_neg (by rw [h]; decide),
      if_neg (by rw [h]; decide), if_pos h, txMethod_destination, target,
      if_neg (by rw [h]; decide), if_neg (by rw [h]; decide), if_neg (by rw [h]; decide)]
    cases (req.param 0).bind Json.asStr with
    | none =>
      rw [targetDestination, if_neg (fun hx => hother hx.2)]
    | some hash =>
      dsimp only
      cases isValid32BytesString hash with
      | true => rfl
      | false =>
        rw [if_neg (by decide), if_neg (by decide), targetDestination,
          if_neg (fun hx => hother hx.2)]
  · have hpos : blockParamPos req.method = 1 := by rw [h]; decide
    have htarget : target req = namedBlock (req.param 1) := if_pos h
    rw [destination_number hm he (.inr h), hpos, htarget]
    refine (targetDestination_number (namedBlock_ne_txHash (req.param 1)) (.inr h) ?_).symm
    intro hp
    rw [Request.param, hp]
    rfl

end Debug

/-! ## Routing by height -/

/-- The target resolves to a height below the cutoff, or is a hash the local node does not
    know. -/
def ResolvesBelow (cutoff : Nat) (inner : Request → MethodResponse) : Target → Prop
  | .number n => n < cutoff
  | .blockHash hash => (blockLookup inner hash).below cutoff = true
  | .txHash hash => (txLookup inner hash).below cutoff = true
  | .tag | .malformed => False

/-- `debug_traceCall` takes a number or a tag; a block hash there is not looked up. -/
def HashOfCall (req : Request) : Prop :=
  req.method = "debug_traceCall" ∧ ∃ hash, target req = .blockHash hash

/-- The lookup the request makes is answered: by a height or null for a block, and not by a
    JSON-RPC error for a transaction. -/
def LookupAnswered (inner : Request → MethodResponse) (req : Request) : Prop :=
  (∀ hash, target req = .blockHash hash → req.method = "debug_traceBlockByHash" →
    blockLookup inner hash ≠ .failed ∧ blockLookup inner hash ≠ .unreadable) ∧
  ∀ hash, target req = .txHash hash → txLookup inner hash ≠ .failed

theorem blockHashDestination_legacy {cutoff : Nat} {l : Lookup} (h1 : l ≠ .failed)
    (h2 : l ≠ .unreadable) : blockHashDestination cutoff l = .legacy ↔ l.below cutoff = true := by
  cases l with
  | height n => simp [blockHashDestination, Lookup.below]
  | unknown => simp [blockHashDestination, Lookup.below]
  | undecodable => simp [blockHashDestination, Lookup.below]
  | failed => exact absurd rfl h1
  | unreadable => exact absurd rfl h2

theorem txHashDestination_legacy {cutoff : Nat} {l : Lookup} (h : l ≠ .failed) :
    txHashDestination cutoff l = .legacy ↔ l.below cutoff = true := by
  cases l with
  | height n => simp [txHashDestination, Lookup.below]
  | unknown => simp [txHashDestination, Lookup.below]
  | undecodable => simp [txHashDestination, Lookup.below]
  | unreadable => simp [txHashDestination, Lookup.below]
  | failed => exact absurd rfl h

/-- A method whose target can be a block hash. -/
theorem method_of_blockHash {req : Request} (hm : req.method ∈ debugTraceMethods) {hash : String}
    (h : target req = .blockHash hash) :
    req.method = "debug_traceBlockByHash" ∨ req.method = "debug_traceCall" := by
  have hmethods : req.method = "debug_traceBlockByNumber" ∨ req.method = "debug_traceBlockByHash" ∨
      req.method = "debug_traceTransaction" ∨ req.method = "debug_traceCall" := by
    simpa [debugTraceMethods] using hm
  rcases hmethods with hn | hn | hn | hn
  · unfold target at h
    rw [if_neg (by rw [hn]; decide), if_pos hn] at h
    split at h
    · cases h
    · rename_i t hne
      exact absurd h (hne hash)
  · exact .inl hn
  · unfold target at h
    rw [if_neg (by rw [hn]; decide), if_neg (by rw [hn]; decide), if_neg (by rw [hn]; decide)] at h
    split at h
    · split at h
      · cases h
      · cases h
    · cases h
  · exact .inr hn

theorem targetDestination_not_legacy (cfg : RouterConfig) (inner : Request → MethodResponse)
    (req : Request) (t : Target) (h : targetDestination cfg inner req t ≠ .legacy) :
    targetDestination cfg inner req t = .localNode ∨
      targetDestination cfg inner req t = .missingParams ∧ req.params = none := by
  have hif : ∀ (p : Prop) [Decidable p], (if p then Destination.legacy else .localNode) ≠ .legacy →
      (if p then Destination.legacy else .localNode) = .localNode := by
    intro p _ hne
    split
    · rename_i hp
      exact absurd (if_pos hp) hne
    · rfl
  cases t with
  | number n => exact .inl (hif _ h)
  | blockHash hash =>
    rw [targetDestination] at h ⊢
    split at h
    · rename_i hmethod
      rw [if_pos hmethod]
      left
      cases hl : blockLookup inner hash with
      | height n =>
        rw [hl] at h
        exact hif _ h
      | undecodable => rfl
      | unknown | failed | unreadable => rw [hl] at h; exact absurd rfl h
    · rename_i hmethod
      exact .inl (if_neg hmethod)
  | txHash hash =>
    left
    rw [targetDestination] at h ⊢
    cases hl : txLookup inner hash with
    | height n =>
      rw [hl] at h
      exact hif _ h
    | unreadable | undecodable => rfl
    | unknown | failed => rw [hl] at h; exact absurd rfl h
  | tag | malformed =>
    rw [targetDestination]
    split
    · rename_i hnone
      exact .inr ⟨rfl, Option.isNone_iff_eq_none.mp hnone.1⟩
    · exact .inl rfl

/-- **Debug trace requests are routed by the height of their target**, for every request of the
    four methods and every behaviour of the local node in which the lookup made for it is
    answered. -/
theorem debug_routing_by_height (cfg : RouterConfig) (inner : Request → MethodResponse)
    (req : Request) (hm : req.method ∈ debugTraceMethods) (ha : LookupAnswered inner req) :
    (destination cfg inner req = .legacy ↔
      cfg.enabled = true ∧ ¬ HashOfCall req ∧
        ResolvesBelow cfg.cutoffBlock inner (target req)) ∧
    (destination cfg inner req ≠ .legacy →
      destination cfg inner req = .localNode ∨
        destination cfg inner req = .missingParams ∧ req.params = none) ∧
    ∀ legacy,
      (destination cfg inner req = .legacy →
        call cfg legacy inner req = forwardToLegacy legacy req) ∧
      (destination cfg inner req = .localNode → call cfg legacy inner req = inner req) := by
  refine ⟨?_, ?_, ?_⟩
  · cases he : cfg.enabled with
    | false =>
      have hlocal : destination cfg inner req = .localNode := by
        unfold destination
        rw [he]
        rfl
      rw [hlocal]
      simp
    | true =>
      rw [destination_debug hm he]
      have hcall : ∀ t, target req = t → (∀ hash, t ≠ .blockHash hash) → ¬ HashOfCall req := by
        rintro t ht hne ⟨-, hash, hhash⟩
        rw [ht] at hhash
        exact hne hash hhash
      cases ht : target req with
      | number n =>
        have hno := hcall _ ht (fun _ => by simp)
        simp [targetDestination, ResolvesBelow, hno]
      | tag | malformed =>
        simp only [targetDestination, ResolvesBelow, and_false, iff_false]
        split
        · simp
        · simp
      | txHash hash =>
        have hno := hcall _ ht (fun _ => by simp)
        rw [targetDestination, txHashDestination_legacy (ha.2 hash ht)]
        simp [ResolvesBelow, hno]
      | blockHash hash =>
        rcases method_of_blockHash hm ht with hmethod | hmethod
        · have hno : ¬ HashOfCall req := by
            rintro ⟨hc, -⟩
            rw [hmethod] at hc
            exact absurd hc (by decide)
          obtain ⟨h1, h2⟩ := ha.1 hash ht hmethod
          rw [targetDestination, if_pos hmethod, blockHashDestination_legacy h1 h2]
          simp [ResolvesBelow, hno]
        · have hyes : HashOfCall req := ⟨hmethod, hash, ht⟩
          rw [targetDestination, if_neg (by rw [hmethod]; decide)]
          simp [hyes]
  · intro hne
    cases he : cfg.enabled with
    | false =>
      left
      unfold destination
      rw [he]
      rfl
    | true =>
      rw [destination_debug hm he] at hne ⊢
      exact targetDestination_not_legacy cfg inner req _ hne
  · intro legacy
    unfold call
    exact ⟨fun h => by rw [h], fun h => by rw [h]⟩

section Sample

/-- A block hash. -/
def sampleHash : String := "0x1234567890abcdef1234567890abcdef1234567890abcdef1234567890abcdef"

/-- A local node that finds every block hash at height 999999. -/
def sampleNode : Request → MethodResponse := fun req =>
  if req.method = "eth_getBlockByHash" then
    ⟨req.id, .success (.json (.obj [("number", .str "0xf423f")]))⟩
  else ⟨req.id, .success (.json (.str "LOCAL_OK"))⟩

def traceByHash : Request :=
  ⟨"debug_traceBlockByHash", some (.json (.arr [.str sampleHash])), .number 1⟩

def traceCallByHash : Request :=
  ⟨"debug_traceCall", some (.json (.arr [.obj [], .str sampleHash])), .number 1⟩

theorem traceByHash_below_cutoff :
    destination ⟨true, 1000000⟩ sampleNode traceByHash = .legacy := by
  have htarget : target traceByHash = .blockHash sampleHash := by decide
  have hlookup : blockLookup sampleNode sampleHash = .height 999999 := by decide
  have hcall : ¬ HashOfCall traceByHash := fun h => absurd h.1 (by decide)
  refine (debug_routing_by_height ⟨true, 1000000⟩ sampleNode traceByHash (by decide) ?_).1.mpr ?_
  · refine ⟨?_, ?_⟩
    · intro hash hh _
      rw [htarget] at hh
      cases hh
      rw [hlookup]
      simp
    · intro hash hh
      rw [htarget] at hh
      cases hh
  · refine ⟨rfl, hcall, ?_⟩
    rw [htarget, ResolvesBelow, hlookup]
    decide

/-- A call is traced at a block the local node finds below the cutoff, but by its hash: the
    request stays local. -/
theorem traceCallByHash_stays_local :
    LookupAnswered sampleNode traceCallByHash ∧
    ResolvesBelow 1000000 sampleNode (target traceCallByHash) ∧
      destination ⟨true, 1000000⟩ sampleNode traceCallByHash = .localNode ∧
      ¬ (destination ⟨true, 1000000⟩ sampleNode traceCallByHash = .legacy ↔
        ResolvesBelow 1000000 sampleNode (target traceCallByHash)) := by
  have htarget : target traceCallByHash = .blockHash sampleHash := by decide
  have hlookup : blockLookup sampleNode sampleHash = .height 999999 := by decide
  have hlocal : destination ⟨true, 1000000⟩ sampleNode traceCallByHash = .localNode := by
    decide
  have hbelow : ResolvesBelow 1000000 sampleNode (target traceCallByHash) := by
    rw [htarget, ResolvesBelow, hlookup]
    decide
  refine ⟨⟨?_, ?_⟩, hbelow, hlocal, ?_⟩
  · intro hash hh hmethod
    exact absurd hmethod (by decide)
  · intro hash hh
    rw [htarget] at hh
    cases hh
  · rw [hlocal]
    intro h
    exact absurd (h.mpr hbelow) (by decide)

end Sample

end XLayerReth.LegacyRpc
