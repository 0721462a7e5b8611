import XLayerReth.RcsFilter.Matching

/-!
# The quota consistency hash

Model of `quota_hash.rs`: the canonical, length-prefixed encoding of `actions.quota` and its
hash, computed once when a transaction is buffered and again before it is packaged.
-/

set_option autoImplicit false

namespace XLayerReth.RcsFilter

open Lib

/-! ## JSON text -/

/-- `str::as_bytes`. -/
def utf8 (s : String) : List UInt8 := s.toUTF8.data.toList

/-- `str::to_ascii_lowercase`. -/
def asciiLower (s : String) : String := s.map Char.toLower

/-- One character of a JSON string, escaped as `serde_json` does. -/
def escapeChar (c : Char) : List Char :=
  if c = '"' then ['\\', '"']
  else if c = '\\' then ['\\', '\\']
  else if c.toNat = 8 then ['\\', 'b']
  else if c.toNat = 12 then ['\\', 'f']
  else if c = '\n' then ['\\', 'n']
  else if c = '\r' then ['\\', 'r']
  else if c = '\t' then ['\\', 't']
  else if c.toNat < 32 then '\\' :: 'u' :: Digits.toHex 4 c.toNat
  else [c]

def quoted (s : String) : String :=
  String.ofList ('"' :: s.toList.flatMap escapeChar ++ ['"'])

mutual

/-- `Value::to_string`: compact JSON. -/
def Json.render : Json → String
  | .null => "null"
  | .bool b => toString b
  | .num n => n.render
  | .str s => quoted s
  | .arr items => "[" ++ ",".intercalate (renderItems items) ++ "]"
  | .obj fields => "\x7b" ++ ",".intercalate (renderFields fields) ++ "\x7d"

def renderItems : List Json → List String
  | [] => []
  | v :: vs => v.render :: renderItems vs

def renderFields : List (String × Json) → List String
  | [] => []
  | (k, v) :: fs => (quoted k ++ ":" ++ v.render) :: renderFields fs

end

/-! ## The canonical encoding -/

/-- `push_u32`: a big-endian length prefix; the length is taken modulo `2 ^ 32`. -/
def pushU32 (n : Nat) : List UInt8 :=
  [UInt8.ofNat (n / 2 ^ 24), UInt8.ofNat (n / 2 ^ 16), UInt8.ofNat (n / 2 ^ 8), UInt8.ofNat n]

/-- `push_bytes`. -/
def pushBytes (bytes : List UInt8) : List UInt8 := pushU32 bytes.length ++ bytes

/-- `Address::as_slice`: 20 bytes, most significant first. -/
def Address.bytes (a : Address) : List UInt8 :=
  (List.range 20).map (fun i => UInt8.ofNat (a.toNat / 256 ^ (19 - i)))

/-- `push_address`. -/
def pushAddress (address : String) : List UInt8 :=
  match Address.fromStr address with
  | some a => pushU32 20 ++ a.bytes
  | none => pushBytes (utf8 (asciiLower address))

mutual

/-- `push_json_value`. -/
def pushJsonValue : Json → List UInt8
  | .str s => 0 :: pushBytes (utf8 (asciiLower s))
  | .arr values => 1 :: (pushU32 values.length ++ pushJsonValues values)
  | .null => 2 :: pushBytes (utf8 (asciiLower (Json.render .null)))
  | .bool b => 2 :: pushBytes (utf8 (asciiLower (Json.render (.bool b))))
  | .num n => 2 :: pushBytes (utf8 (asciiLower (Json.render (.num n))))
  | .obj fields => 2 :: pushBytes (utf8 (asciiLower (Json.render (.obj fields))))

def pushJsonValues : List Json → List UInt8
  | [] => []
  | v :: vs => pushJsonValue v ++ pushJsonValues vs

end

/-- The encoding of one action. -/
def encodeItem (item : ActionItem) : List UInt8 :=
  pushBytes (utf8 item.name) ++ pushAddress item.address ++ pushU32 item.params.size ++
    item.params.entries.flatMap (fun p => pushBytes (utf8 p.1) ++ pushJsonValue p.2)

/-- The `quota` list of an action map; an absent key is an empty list. -/
def quotaItems (actions : Actions) : List ActionItem := (actions.get? quota).getD []

/-- The buffer that is hashed. -/
def encodeQuota (actions : Actions) : List UInt8 :=
  pushU32 (quotaItems actions).length ++ (quotaItems actions).flatMap encodeItem

/-- `encode_and_hash`. -/
def encodeAndHash (abi : Abi) (actions : Actions) : B256 := abi.keccak256 (encodeQuota actions)

end XLayerReth.RcsFilter
