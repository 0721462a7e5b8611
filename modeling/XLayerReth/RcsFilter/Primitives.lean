import XLayerReth.Lib.Digits

/-!
# Addresses, hashes and numbers as the filter reads and writes them

The textual forms of `alloy_primitives` values that the filter exchanges with RCS:

* `Address.fromStr`, `B256.fromStr` — hexadecimal digits with an optional `0x` prefix;
* `U256.fromStrRadix`, `U256.fromStr` — big integers, a `0x`/`0o`/`0b` prefix selecting the base;
* `Address.lowerHex`, `B256.lowerHex` — the `{:#x}` rendering;
* `saturatingAdd`, `saturatingMul` — arithmetic that stops at the largest 64-bit number.

Principal results: `B256.fromStr_lowerHex` (what the filter writes it reads back) and
`B256.lowerHex_injective`.
-/

set_option autoImplicit false

namespace XLayerReth.RcsFilter

open Lib.Digits

/-- A 20-byte account address. -/
abbrev Address := BitVec 160

/-- A 32-byte word (transaction hash, topic). -/
abbrev B256 := BitVec 256

-- What decides the membership of a hash in a list, and of a hash with its generation.
instance : LawfulBEq B256 := inferInstance

instance : LawfulBEq (B256 × Nat) := inferInstance

/-- The digits after an optional `0x`. -/
def stripHexPrefix : List Char → List Char
  | '0' :: 'x' :: rest => rest
  | cs => cs

/-- `Address::from_str`: 40 hexadecimal digits with an optional `0x` prefix. -/
def Address.fromStr (s : String) : Option Address :=
  (hexValue 40 (stripHexPrefix s.toList)).map (BitVec.ofNat 160)

/-- `B256::from_str`: 64 hexadecimal digits with an optional `0x` prefix. -/
def B256.fromStr (s : String) : Option B256 :=
  (hexValue 64 (stripHexPrefix s.toList)).map (BitVec.ofNat 256)

/-- `format!("{:#x}", address)`. -/
def Address.lowerHex (a : Address) : String := String.ofList ('0' :: 'x' :: toHex 40 a.toNat)

/-- `format!("{:#x}", hash)`. -/
def B256.lowerHex (h : B256) : String := String.ofList ('0' :: 'x' :: toHex 64 h.toNat)

/-- `U256::from_str_radix`: underscores are skipped, an overflow is an error. -/
def U256.fromStrRadix (r : Nat) (cs : List Char) : Option Nat :=
  ((cs.filter (· ≠ '_')).mapM (digitIn r)).bind
    (fun ds => if valueOf r ds < 2 ^ 256 then some (valueOf r ds) else none)

/-- `U256::from_str`: decimal unless a prefix selects another base. -/
def U256.fromStr : List Char → Option Nat
  | '0' :: 'x' :: rest => U256.fromStrRadix 16 rest
  | '0' :: 'X' :: rest => U256.fromStrRadix 16 rest
  | '0' :: 'o' :: rest => U256.fromStrRadix 8 rest
  | '0' :: 'O' :: rest => U256.fromStrRadix 8 rest
  | '0' :: 'b' :: rest => U256.fromStrRadix 2 rest
  | '0' :: 'B' :: rest => U256.fromStrRadix 2 rest
  | cs => U256.fromStrRadix 10 cs

/-- `char::is_whitespace` (the Unicode `White_Space` property). -/
def isWhitespace (c : Char) : Bool :=
  let n := c.toNat
  (9 ≤ n && n ≤ 13) || n == 32 || n == 0x85 || n == 0xA0 || n == 0x1680 ||
    (0x2000 ≤ n && n ≤ 0x200A) || n == 0x2028 || n == 0x2029 || n == 0x202F || n == 0x205F ||
    n == 0x3000

/-- `str::trim`. -/
def trim (cs : List Char) : List Char :=
  ((cs.dropWhile isWhitespace).reverse.dropWhile isWhitespace).reverse

/-- `saturating_add` and `saturating_mul` on 64 bits. -/
def saturatingAdd (a b : Nat) : Nat := min (a + b) (2 ^ 64 - 1)

def saturatingMul (a b : Nat) : Nat := min (a * b) (2 ^ 64 - 1)

theorem B256.fromStr_lowerHex (h : B256) : B256.fromStr h.lowerHex = some h := by
  have hlt : h.toNat < 16 ^ 64 := h.isLt
  unfold B256.fromStr B256.lowerHex
  rw [String.toList_ofList, stripHexPrefix, hexValue_toHex hlt, Option.map_some]
  simp

theorem stripHexPrefix_of_hex {cs : List Char} (h : ∀ c ∈ cs, (digitIn 16 c).isSome) :
    stripHexPrefix cs = cs := by
  unfold stripHexPrefix
  split
  · exact absurd (h 'x' (by simp)) (by decide)
  · rfl

/-- A hash reads the same with and without `0x`. -/
theorem B256.fromStr_of_hex {cs : List Char} (h : ∀ c ∈ cs, (digitIn 16 c).isSome) :
    B256.fromStr (String.ofList ('0' :: 'x' :: cs)) = B256.fromStr (String.ofList cs) := by
  unfold B256.fromStr
  rw [String.toList_ofList, String.toList_ofList, stripHexPrefix_of_hex h]
  rfl

/-- A hash reads the same in either case. -/
theorem B256.fromStr_toUpper {cs : List Char} (h : ∀ c ∈ cs, (digitIn 16 c).isSome) :
    B256.fromStr (String.ofList (cs.map Char.toUpper)) = B256.fromStr (String.ofList cs) := by
  have hupper : ∀ c ∈ cs.map Char.toUpper, (digitIn 16 c).isSome := by
    intro c hc
    obtain ⟨d, hd, rfl⟩ := List.mem_map.mp hc
    rw [digitIn_toUpper (h d hd)]
    exact h d hd
  unfold B256.fromStr
  rw [String.toList_ofList, String.toList_ofList, stripHexPrefix_of_hex h,
    stripHexPrefix_of_hex hupper, hexValue_toUpper h]

theorem B256.lowerHex_injective {g h : B256} (e : g.lowerHex = h.lowerHex) : g = h := by
  have hg := B256.fromStr_lowerHex g
  rw [e, B256.fromStr_lowerHex h] at hg
  exact (Option.some.inj hg).symm

end XLayerReth.RcsFilter
