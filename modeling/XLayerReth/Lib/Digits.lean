import Mathlib.Data.List.Induction
import Mathlib.Tactic.Ring
import Mathlib.Tactic.IntervalCases

/-!
# Positional notation over character lists

* `digitVal` — the value of one digit character, case-insensitive up to base 36.
* `valueOf` — the number a digit sequence denotes, most significant digit first.
* `hexValue` — the number exactly `k` hexadecimal characters denote.
* `toHex` — the `k` lower-case hexadecimal characters of a number.

Principal results: `hexValue_lt` (the value of `k` digits fits in `16 ^ k`), and `hexValue_toHex`
and `mapM_toDigits` (reading back what was written, at a fixed and at the shortest length).
-/

set_option autoImplicit false

namespace XLayerReth.Lib.Digits

/-- Value of a digit character (`0-9`, `a-z`, `A-Z`). -/
def digitVal (c : Char) : Option Nat :=
  if '0' ≤ c ∧ c ≤ '9' then some (c.toNat - 48)
  else if 'a' ≤ c ∧ c ≤ 'z' then some (c.toNat - 87)
  else if 'A' ≤ c ∧ c ≤ 'Z' then some (c.toNat - 55)
  else none

/-- Value of a digit character in base `r`; `none` for a character that is no digit there. -/
def digitIn (r : Nat) (c : Char) : Option Nat :=
  (digitVal c).filter (· < r)

/-- Horner evaluation, most significant digit first. -/
def valueOf (r : Nat) (ds : List Nat) : Nat := ds.foldl (fun n d => n * r + d) 0

theorem digitIn_lt {r d : Nat} {c : Char} (h : digitIn r c = some d) : d < r := by
  unfold digitIn at h
  rw [Option.filter_eq_some_iff] at h
  simpa using h.2

theorem valueOf_append (r : Nat) (ds : List Nat) (d : Nat) :
    valueOf r (ds ++ [d]) = valueOf r ds * r + d := by
  simp [valueOf]

theorem valueOf_lt {r : Nat} : ∀ (ds : List Nat), (∀ d ∈ ds, d < r) →
    valueOf r ds < r ^ ds.length := by
  intro ds
  induction ds using List.reverseRecOn with
  | nil => intro _; simp [valueOf]
  | append_singleton ds d ih =>
    intro h
    have hd : d < r := h d (by simp)
    have hv := ih (fun x hx => h x (by simp [hx]))
    rw [valueOf_append, List.length_append, List.length_singleton, pow_succ]
    calc valueOf r ds * r + d < valueOf r ds * r + r := by omega
      _ = (valueOf r ds + 1) * r := by ring
      _ ≤ r ^ ds.length * r := Nat.mul_le_mul_right r hv

/-- The number denoted by exactly `k` hexadecimal characters. -/
def hexValue (k : Nat) (cs : List Char) : Option Nat :=
  if cs.length = k then (cs.mapM (digitIn 16)).map (valueOf 16) else none

theorem mapM_digits {r : Nat} : ∀ {cs : List Char} {ds : List Nat},
    cs.mapM (digitIn r) = some ds → ds.length = cs.length ∧ ∀ d ∈ ds, d < r
  | [], ds, h => by
    simp only [List.mapM_nil] at h
    cases h; simp
  | c :: cs, ds, h => by
    simp only [List.mapM_cons] at h
    obtain ⟨d, hd, h⟩ := Option.bind_eq_some_iff.mp h
    obtain ⟨es, he, h⟩ := Option.bind_eq_some_iff.mp h
    cases h
    obtain ⟨hl, hlt⟩ := mapM_digits he
    refine ⟨by simp [hl], ?_⟩
    intro x hx
    rcases List.mem_cons.mp hx with rfl | hx
    · exact digitIn_lt hd
    · exact hlt x hx

theorem hexValue_eq_some {k n : Nat} {cs : List Char} (h : hexValue k cs = some n) :
    ∃ ds, cs.mapM (digitIn 16) = some ds ∧ valueOf 16 ds = n ∧ ds.length = k ∧
      ∀ d ∈ ds, d < 16 := by
  unfold hexValue at h
  split at h
  · rename_i hl
    obtain ⟨ds, hds, rfl⟩ := Option.map_eq_some_iff.mp h
    obtain ⟨h1, h2⟩ := mapM_digits hds
    exact ⟨ds, hds, rfl, h1.trans hl, h2⟩
  · cases h

theorem hexValue_lt {k n : Nat} {cs : List Char} (h : hexValue k cs = some n) : n < 16 ^ k := by
  obtain ⟨ds, -, rfl, hk, hlt⟩ := hexValue_eq_some h
  rw [← hk]
  exact valueOf_lt ds hlt

/-- Lower-case hexadecimal character of a digit. -/
def hexChar (d : Nat) : Char :=
  if d < 10 then Char.ofNat (48 + d) else Char.ofNat (87 + d)

theorem digitIn_hexChar {d : Nat} (h : d < 16) : digitIn 16 (hexChar d) = some d := by
  interval_cases d <;> decide

/-- The last `k` hexadecimal characters of `n`, most significant first. -/
def toHex : Nat → Nat → List Char
  | 0, _ => []
  | k + 1, n => toHex k (n / 16) ++ [hexChar (n % 16)]

theorem toHex_length : ∀ (k n : Nat), (toHex k n).length = k
  | 0, _ => rfl
  | k + 1, n => by simp [toHex, toHex_length k]

theorem mapM_toHex : ∀ (k n : Nat), n < 16 ^ k →
    ∃ ds, (toHex k n).mapM (digitIn 16) = some ds ∧ valueOf 16 ds = n
  | 0, n, h => ⟨[], by simp [toHex], by simp at h; simp [valueOf, h]⟩
  | k + 1, n, h => by
    have hq : n / 16 < 16 ^ k := by
      rw [pow_succ] at h
      exact Nat.div_lt_of_lt_mul (by omega)
    obtain ⟨ds, hds, hv⟩ := mapM_toHex k (n / 16) hq
    refine ⟨ds ++ [n % 16], ?_, ?_⟩
    · rw [toHex, List.mapM_append, hds]
      simp [digitIn_hexChar (Nat.mod_lt n (by omega))]
    · rw [valueOf_append, hv]; omega

/-- **Round trip**: reading the `k` characters written for `n` gives `n` back. -/
theorem hexValue_toHex {k n : Nat} (h : n < 16 ^ k) : hexValue k (toHex k n) = some n := by
  obtain ⟨ds, hds, hv⟩ := mapM_toHex k n h
  unfold hexValue
  rw [if_pos (toHex_length k n), hds, Option.map_some, hv]

/-- A hexadecimal digit is an ASCII character. -/
theorem toNat_lt_of_digit {c : Char} (h : (digitIn 16 c).isSome) : c.toNat < 128 := by
  unfold digitIn digitVal at h
  split at h
  · rename_i hc
    exact Nat.lt_of_le_of_lt (show c.toNat ≤ 57 from hc.2) (by decide)
  · split at h
    · rename_i hc
      exact Nat.lt_of_le_of_lt (show c.toNat ≤ 122 from hc.2) (by decide)
    · split at h
      · rename_i hc
        exact Nat.lt_of_le_of_lt (show c.toNat ≤ 90 from hc.2) (by decide)
      · cases h

/-- A hexadecimal digit has one value in either case. -/
theorem digitIn_toUpper {c : Char} (h : (digitIn 16 c).isSome) :
    digitIn 16 c.toUpper = digitIn 16 c := by
  have hall : ∀ n < 128, digitIn 16 (Char.ofNat n) ≠ none →
      digitIn 16 (Char.ofNat n).toUpper = digitIn 16 (Char.ofNat n) := by decide
  have hc := hall c.toNat (toNat_lt_of_digit h)
  rw [Char.ofNat_toNat] at hc
  exact hc (Option.isSome_iff_ne_none.mp h)

theorem mapM_toUpper : ∀ {cs : List Char}, (∀ c ∈ cs, (digitIn 16 c).isSome) →
    (cs.map Char.toUpper).mapM (digitIn 16) = cs.mapM (digitIn 16)
  | [], _ => rfl
  | c :: cs, h => by
    rw [List.map_cons, List.mapM_cons, List.mapM_cons, digitIn_toUpper (h c List.mem_cons_self),
      mapM_toUpper (fun d hd => h d (List.mem_cons_of_mem _ hd))]

theorem hexValue_toUpper {cs : List Char} (h : ∀ c ∈ cs, (digitIn 16 c).isSome) (k : Nat) :
    hexValue k (cs.map Char.toUpper) = hexValue k cs := by
  unfold hexValue
  rw [List.length_map, mapM_toUpper h]

theorem digitIn_digitChar {r d : Nat} (hr : r ≤ 16) (h : d < r) :
    digitIn r (Nat.digitChar d) = some d := by
  have hval : digitVal (Nat.digitChar d) = some d := by
    have hd : d < 16 := by omega
    interval_cases d <;> decide
  rw [digitIn, hval]
  simp [h]

/-- Reading the digits `Nat.toDigits` writes, most significant first, gives the number back. -/
theorem mapM_toDigits {r : Nat} (h1 : 1 < r) (hr : r ≤ 16) (n : Nat) :
    ∃ ds, (Nat.toDigits r n).mapM (digitIn r) = some ds ∧ valueOf r ds = n := by
  induction n using Nat.strong_induction_on with
  | _ n ih =>
    rw [Nat.toDigits_eq_if h1]
    split
    · rename_i hlt
      exact ⟨[n], by simp [digitIn_digitChar hr hlt], by simp [valueOf]⟩
    · rename_i hge
      obtain ⟨ds, hds, hv⟩ := ih (n / r) (Nat.div_lt_self (by omega) h1)
      refine ⟨ds ++ [n % r], ?_, ?_⟩
      · rw [List.mapM_append, hds]
        simp [digitIn_digitChar hr (Nat.mod_lt n (by omega))]
      · rw [valueOf_append, hv, Nat.mul_comm]
        exact Nat.div_add_mod n r

end XLayerReth.Lib.Digits
