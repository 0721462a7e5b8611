import Mathlib.Logic.Function.Basic

/-!
# Xorshift steps

One step of an xorshift generator replaces a word by its exclusive or with a shifted copy of
itself.

* `xorShiftLeft`, `xorShiftRight` — the two kinds of step, on words of any width;
* `eq_zero_of_shiftLeft_eq`, `eq_zero_of_ushiftRight_eq` — only zero is its own shift;
* `xorShiftLeft_injective`, `xorShiftRight_injective` — no step forgets anything about the word.
-/

set_option autoImplicit false

namespace XLayerReth.Lib

variable {w : Nat}

/-- `x ^= x << s`. -/
def xorShiftLeft (s : Nat) (x : BitVec w) : BitVec w := x ^^^ (x <<< s)

/-- `x ^= x >> s`. -/
def xorShiftRight (s : Nat) (x : BitVec w) : BitVec w := x ^^^ (x >>> s)

variable {s : Nat} {x : BitVec w}

/-- A word that is its own shift is also its own shift by every multiple, and the multiple by the
    width leaves nothing. -/
theorem eq_zero_of_shiftLeft_eq (hs : 0 < s) (h : x <<< s = x) : x = 0#w := by
  have hmul : ∀ n, x <<< (n * s) = x := by
    intro n
    induction n with
    | zero => rw [Nat.zero_mul, BitVec.shiftLeft_zero]
    | succ n ih => rw [Nat.succ_mul, BitVec.shiftLeft_add, ih, h]
  rw [← hmul w]
  exact BitVec.shiftLeft_eq_zero (Nat.le_mul_of_pos_right w hs)

theorem eq_zero_of_ushiftRight_eq (hs : 0 < s) (h : x >>> s = x) : x = 0#w := by
  have hmul : ∀ n, x >>> (n * s) = x := by
    intro n
    induction n with
    | zero => rw [Nat.zero_mul, BitVec.ushiftRight_zero]
    | succ n ih => rw [Nat.succ_mul, BitVec.shiftRight_add, ih, h]
  rw [← hmul w]
  exact BitVec.ushiftRight_eq_zero (Nat.le_mul_of_pos_right w hs)

theorem xorShiftLeft_eq_zero (hs : 0 < s) (h : xorShiftLeft s x = 0#w) : x = 0#w :=
  eq_zero_of_shiftLeft_eq hs (BitVec.xor_eq_zero_iff.mp h).symm

theorem xorShiftRight_eq_zero (hs : 0 < s) (h : xorShiftRight s x = 0#w) : x = 0#w :=
  eq_zero_of_ushiftRight_eq hs (BitVec.xor_eq_zero_iff.mp h).symm

theorem xorShiftLeft_xor (x y : BitVec w) :
    xorShiftLeft s (x ^^^ y) = xorShiftLeft s x ^^^ xorShiftLeft s y := by
  unfold xorShiftLeft
  rw [BitVec.shiftLeft_xor_distrib]
  ac_rfl

theorem xorShiftRight_xor (x y : BitVec w) :
    xorShiftRight s (x ^^^ y) = xorShiftRight s x ^^^ xorShiftRight s y := by
  unfold xorShiftRight
  rw [BitVec.ushiftRight_xor_distrib]
  ac_rfl

/-- **A left step forgets nothing**: two words with one image differ by a word with image zero. -/
theorem xorShiftLeft_injective (hs : 0 < s) :
    Function.Injective (xorShiftLeft s : BitVec w → BitVec w) := by
  intro x y h
  have hdiff : xorShiftLeft s (x ^^^ y) = 0#w := by
    rw [xorShiftLeft_xor, h, BitVec.xor_self]
  exact BitVec.xor_eq_zero_iff.mp (xorShiftLeft_eq_zero hs hdiff)

/-- **A right step forgets nothing**. -/
theorem xorShiftRight_injective (hs : 0 < s) :
    Function.Injective (xorShiftRight s : BitVec w → BitVec w) := by
  intro x y h
  have hdiff : xorShiftRight s (x ^^^ y) = 0#w := by
    rw [xorShiftRight_xor, h, BitVec.xor_self]
  exact BitVec.xor_eq_zero_iff.mp (xorShiftRight_eq_zero hs hdiff)

end XLayerReth.Lib
