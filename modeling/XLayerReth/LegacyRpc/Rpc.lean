import Mathlib.Data.String.Basic
import XLayerReth.Lib.OrdMap
import XLayerReth.RcsFilter.JsonLogic

/-!
# Requests, responses and the two backends

Model of `legacy-rpc/src/lib.rs`: what the legacy router shares between its methods.

* `Request`, `MethodResponse` — JSON-RPC requests and responses.
* `forwardToLegacy` — one request to the legacy endpoint, with every way it can fail.
* `parseBlockParam` — the block parameter of a request, as a decimal number or a hash.
* `callEthGetBlockByHash`, `getTransactionBlockNumber` — heights looked up in the local node.

The local node and the legacy endpoint are functions of the request; an answer may be anything.

Principal results: `u64FromStrRadix_toDigits` (a number that is written is read back) and
`buildLegacyResponse_isSuccess` (a legacy answer is a success exactly when it has a result).
-/

set_option autoImplicit false

namespace XLayerReth.RcsFilter

/-- `Value::get` on a key. -/
def Json.get? (k : String) : Json → Option Json
  | .obj fields => Lib.OrdMap.lookup k fields
  | _ => none

/-- `Value::as_i64`. -/
def Json.asI64 : Json → Option Int
  | .num (.posInt n) => if n < 2 ^ 63 then some n else none
  | .num (.negInt n) => if n ≤ 2 ^ 63 then some (-n) else none
  | _ => none

end XLayerReth.RcsFilter

namespace XLayerReth.LegacyRpc

open RcsFilter Lib Lib.Digits

/-! ## Numbers -/

/-- `u64::MAX`. -/
def u64Max : Nat := 2 ^ 64 - 1

/-- `u64::from_str_radix`: at least one digit, after an optional `+`, and no overflow. -/
def u64FromStrRadix (r : Nat) (cs : List Char) : Option Nat :=
  let digits := match cs with
    | '+' :: c :: rest => c :: rest
    | cs => cs
  if digits = [] then none
  else (digits.mapM (digitIn r)).bind
    (fun ds => if valueOf r ds < 2 ^ 64 then some (valueOf r ds) else none)

/-- `str::trim_start_matches("0x")`. -/
def trimStart0x : List Char → List Char
  | '0' :: 'x' :: rest => trimStart0x rest
  | cs => cs

/-- `str::strip_prefix("0x")`. -/
def strip0x : List Char → Option (List Char)
  | '0' :: 'x' :: rest => some rest
  | _ => none

/-- `format!("0x{n:x}")`. -/
def hexString (n : Nat) : String := String.ofList ('0' :: 'x' :: Nat.toDigits 16 n)

/-- The reading of a `number` or `blockNumber` field of a response. -/
def heightOf (v : Json) : Option Nat :=
  v.asStr.bind (fun s => u64FromStrRadix 16 (trimStart0x s.toList))

theorem digitIn_plus (r : Nat) : digitIn r '+' = none := by
  have : digitVal '+' = none := by decide
  rw [digitIn, this]
  rfl

theorem u64FromStrRadix_lt {r n : Nat} {cs : List Char} (h : u64FromStrRadix r cs = some n) :
    n < 2 ^ 64 := by
  obtain ⟨-, h⟩ := Option.ite_none_left_eq_some.mp h
  obtain ⟨ds, -, hd⟩ := Option.bind_eq_some_iff.mp h
  obtain ⟨hlt, hn⟩ := Option.ite_none_right_eq_some.mp hd
  cases hn
  exact hlt

/-- **Round trip**: a number below `2 ^ 64` is read back from its digits. -/
theorem u64FromStrRadix_toDigits {r n : Nat} (h1 : 1 < r) (hr : r ≤ 16) (h : n < 2 ^ 64) :
    u64FromStrRadix r (Nat.toDigits r n) = some n := by
  obtain ⟨ds, hds, hv⟩ := mapM_toDigits h1 hr n
  have hdigits : (match Nat.toDigits r n with
      | '+' :: c :: rest => c :: rest
      | cs => cs) = Nat.toDigits r n := by
    split
    · rename_i c rest he
      rw [he, List.mapM_cons, digitIn_plus] at hds
      cases hds
    · rfl
  unfold u64FromStrRadix
  rw [hdigits, if_neg Nat.toDigits_ne_nil, hds, Option.bind_some, hv, if_pos h]

/-! ## Requests and responses -/

/-- `RawValue`: a JSON text.  A text may be scanned by `serde_json` and yet not be decoded into a
    value (nesting beyond its recursion limit, a number out of range): `error` says why. -/
inductive RawValue where
  | json (v : Json)
  | undecodable (error : String)

/-- `serde_json::from_str`. -/
def RawValue.decode : RawValue → Except String Json
  | .json v => .ok v
  | .undecodable e => .error e

inductive Id where
  | null
  | number (n : Nat)
  | str (s : String)
  deriving DecidableEq

structure Request where
  method : String
  params : Option RawValue
  id : Id

structure ErrorObject where
  code : Int
  message : String
  deriving DecidableEq

inductive Payload where
  | success (result : RawValue)
  | error (e : ErrorObject)

structure MethodResponse where
  id : Id
  payload : Payload

/-- `MethodResponse::is_success`. -/
def MethodResponse.isSuccess (r : MethodResponse) : Bool :=
  match r.payload with
  | .success _ => true
  | .error _ => false

def Id.toJson : Id → Json
  | .null => .null
  | .number n => .num (.posInt n)
  | .str s => .str s

def intJson (i : Int) : Json := if 0 ≤ i then .num (.posInt i.toNat) else .num (.negInt i.natAbs)

/-- `serde_json::from_str(response.as_json().get())`. -/
def MethodResponse.decode (r : MethodResponse) : Except String Json :=
  match r.payload with
  | .success result =>
    result.decode.map (fun v => .obj [("id", r.id.toJson), ("jsonrpc", .str "2.0"), ("result", v)])
  | .error e =>
    .ok (.obj [("error", .obj [("code", intJson e.code), ("message", .str e.message)]),
      ("id", r.id.toJson), ("jsonrpc", .str "2.0")])

/-- `INVALID_PARAMS_CODE`. -/
def invalidParamsCode : Int := -32602

/-- `INTERNAL_ERROR_CODE`. -/
def internalErrorCode : Int := -32603

/-- `CALL_EXECUTION_FAILED_CODE`. -/
def callExecutionFailedCode : Int := -32000

def errorResponse (id : Id) (code : Int) (message : String) : MethodResponse :=
  ⟨id, .error ⟨code, message⟩⟩

theorem decode_success (id : Id) (v : Json) :
    ∃ j, MethodResponse.decode ⟨id, .success (.json v)⟩ = .ok j ∧ j.get? "result" = some v :=
  ⟨_, rfl, by simp [Json.get?, OrdMap.lookup]⟩

theorem decode_error (id : Id) (e : ErrorObject) :
    ∃ j, MethodResponse.decode ⟨id, .error e⟩ = .ok j ∧ j.get? "result" = none :=
  ⟨_, rfl, by simp [Json.get?, OrdMap.lookup]⟩

/-! ## The legacy endpoint -/

/-- The body posted to the legacy endpoint. -/
structure LegacyCall where
  method : String
  params : Json

/-- What comes of one request to the legacy endpoint. -/
inductive LegacyReply where
  | sendError (e : String)
  | bodyError (e : String)
  /-- The body is not a JSON object. -/
  | invalid (e : String)
  /-- The `result` and `error` fields of the body. -/
  | fields (result error : Option RawValue)

/-- `code as i32`. -/
def toI32 (code : Int) : Int := Int.bmod code (2 ^ 32)

/-- `build_legacy_response`. -/
def buildLegacyResponse (id : Id) (result error : Option RawValue) : MethodResponse :=
  match result, error with
  | some result, _ => ⟨id, .success result⟩
  | none, some error =>
    let error := error.decode.toOption.getD .null
    let code := ((error.get? "code").bind Json.asI64).getD callExecutionFailedCode
    let message := ((error.get? "message").bind Json.asStr).getD "Legacy RPC error"
    errorResponse id (toI32 code) message
  | none, none => errorResponse id internalErrorCode "Invalid legacy response"

/-- `forward_to_legacy`. -/
def forwardToLegacy (legacy : LegacyCall → LegacyReply) (req : Request) : MethodResponse :=
  let params := (req.params.bind (fun p => p.decode.toOption)).getD .null
  match legacy ⟨req.method, params⟩ with
  | .sendError e => errorResponse req.id internalErrorCode ("Legacy RPC error: " ++ e)
  | .bodyError e => errorResponse req.id internalErrorCode ("Legacy parse error: " ++ e)
  | .invalid e => errorResponse req.id internalErrorCode ("Legacy parse error: " ++ e)
  | .fields result error => buildLegacyResponse req.id result error

theorem buildLegacyResponse_isSuccess (id : Id) (result error : Option RawValue) :
    (buildLegacyResponse id result error).isSuccess = result.isSome := by
  cases result with
  | some r => rfl
  | none =>
    cases error with
    | some e => rfl
    | none => rfl

/-! ## Block parameters -/

/-- `is_valid_32_bytes_string`: `0x` and 64 hexadecimal digits. -/
def isValid32BytesString (hex : String) : Bool :=
  match strip0x hex.toList with
  | some digits => hex.utf8ByteSize == 66 && digits.all (fun c => (digitIn 16 c).isSome)
  | none => false

/-- The string parameter of `parse_block_param`. -/
def parseBlockString (s : String) : Option String :=
  if s = "latest" ∨ s = "pending" ∨ s = "safe" ∨ s = "finalized" then none
  else if s = "earliest" then some "0"
  else
    match strip0x s.toList with
    | some digits =>
      if s.utf8ByteSize = 66 then if isValid32BytesString s then some s else none
      else (u64FromStrRadix 16 digits).map toString
    | none => none

/-- The object parameter of `parse_block_param`. -/
def parseBlockObject (obj : Json) : Option String :=
  match (obj.get? "blockHash").bind Json.asStr with
  | some hash => if isValid32BytesString hash then some hash else none
  | none =>
    match (obj.get? "blockNumber").bind Json.asStr with
    | some num =>
      match strip0x num.toList with
      | some digits => (u64FromStrRadix 16 digits).map toString
      | none => some num
    | none => none

/-- The parameter at a position of the parameter list. -/
def paramAt (params : RawValue) (index : Nat) : Option Json :=
  (params.decode.toOption.bind Json.asArray).bind (fun items => items[index]?)

/-- `parse_block_param`. -/
def parseBlockParam (params : RawValue) (index : Nat) : Option String :=
  match paramAt params index with
  | some (.str s) => parseBlockString s
  | some (.obj fields) => parseBlockObject (.obj fields)
  | _ => none

/-! ## Lookups in the local node -/

/-- `call_eth_get_block_by_hash`. -/
def callEthGetBlockByHash (inner : Request → MethodResponse) (blockHash : String)
    (fullTransactions : Bool) : Except String (Option Nat) :=
  if !isValid32BytesString blockHash then .error ("Invalid block hash format: " ++ blockHash)
  else
    let res := inner ⟨"eth_getBlockByHash",
      some (.json (.arr [.str blockHash, .bool fullTransactions])), .number 1⟩
    match res.decode with
    | .error e => .error e
    | .ok response =>
      .ok (((response.get? "result").bind (Json.get? "number")).bind heightOf)

/-- `get_transaction_block_number`. -/
def getTransactionBlockNumber (inner : Request → MethodResponse) (hash : String) :
    Except String (Option Nat) :=
  if !isValid32BytesString hash then .error ("Invalid tx hash format: " ++ hash)
  else
    let res := inner ⟨"eth_getTransactionByHash", some (.json (.arr [.str hash])), .number 1⟩
    match res.decode with
    | .error e => .error e
    | .ok response =>
      match response.get? "result" with
      | none => .ok none
      | some .null => .ok none
      | some result =>
        match (result.get? "blockNumber").bind heightOf with
        | some n => .ok (some n)
        | none => .error "Missing or invalid blockNumber in transaction"

end XLayerReth.LegacyRpc
