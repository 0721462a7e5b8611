import Mathlib.Data.List.Chain
import Mathlib.Algebra.Order.Ring.Nat

/-!
# Spans of time

A span of time is a number of nanoseconds whose whole seconds fit in 64 bits.

* `fromMillis`, `asMillis` — a span of 64-bit milliseconds, and the whole milliseconds of a span;
  `fromSecs`, `asSecs` the same for seconds;
* `fromNanos` — a span of 64-bit nanoseconds;
* `saturatingAdd`, `saturatingSub`, `saturatingMul` — arithmetic that stops at the ends of the
  range;
* `ticks` — the times `first`, `first + step`, … that a timer of a fixed step goes through, each
  mapped by `f`.

Principal results: the ticks of a map that keeps the order and moves no two times further apart
are in order and at most a step apart (`isChain_ticks`); without saturation they are exactly a
step apart (`exact_ticks`).
-/

set_option autoImplicit false

namespace XLayerReth.Lib

/-- A span of time. -/
structure Duration where
  nanos : Nat
  bounded : nanos < 2 ^ 64 * 10 ^ 9
  deriving DecidableEq

namespace Duration

theorem ext {a b : Duration} (h : a.nanos = b.nanos) : a = b := by
  cases a; cases b; cases h; rfl

/-- `Duration::from_millis`. -/
def fromMillis (ms : UInt64) : Duration :=
  ⟨ms.toNat * 10 ^ 6, by
    have h := ms.toNat_lt
    omega⟩

/-- `Duration::as_millis`: the whole milliseconds. -/
def asMillis (d : Duration) : Nat := d.nanos / 10 ^ 6

/-- `Duration::from_secs`. -/
def fromSecs (secs : UInt64) : Duration :=
  ⟨secs.toNat * 10 ^ 9, by
    have h := secs.toNat_lt
    omega⟩

/-- `Duration::as_secs`: the whole seconds. -/
def asSecs (d : Duration) : Nat := d.nanos / 10 ^ 9

/-- `Duration::from_nanos`. -/
def fromNanos (nanos : UInt64) : Duration :=
  ⟨nanos.toNat, by
    have h := nanos.toNat_lt
    omega⟩

/-- `Duration::saturating_add`. -/
def saturatingAdd (a b : Duration) : Duration :=
  ⟨min (a.nanos + b.nanos) (2 ^ 64 * 10 ^ 9 - 1),
    Nat.lt_of_le_of_lt (Nat.min_le_right _ _) (by decide)⟩

/-- `Duration::saturating_sub`. -/
def saturatingSub (a b : Duration) : Duration :=
  ⟨a.nanos - b.nanos, Nat.lt_of_le_of_lt (Nat.sub_le _ _) a.bounded⟩

/-- `Duration::saturating_mul`. -/
def saturatingMul (a : Duration) (n : UInt32) : Duration :=
  ⟨min (a.nanos * n.toNat) (2 ^ 64 * 10 ^ 9 - 1),
    Nat.lt_of_le_of_lt (Nat.min_le_right _ _) (by decide)⟩

/-- `Ord::min`. -/
protected def min (a b : Duration) : Duration :=
  ⟨min a.nanos b.nanos, Nat.lt_of_le_of_lt (Nat.min_le_left _ _) a.bounded⟩

@[simp] theorem nanos_fromMillis (ms : UInt64) : (fromMillis ms).nanos = ms.toNat * 10 ^ 6 := rfl

@[simp] theorem asMillis_fromMillis (ms : UInt64) : (fromMillis ms).asMillis = ms.toNat :=
  Nat.mul_div_cancel _ (by decide)

@[simp] theorem nanos_fromSecs (secs : UInt64) : (fromSecs secs).nanos = secs.toNat * 10 ^ 9 := rfl

@[simp] theorem asSecs_fromSecs (secs : UInt64) : (fromSecs secs).asSecs = secs.toNat :=
  Nat.mul_div_cancel _ (by decide)

theorem nanos_saturatingAdd (a b : Duration) :
    (a.saturatingAdd b).nanos = min (a.nanos + b.nanos) (2 ^ 64 * 10 ^ 9 - 1) := rfl

@[simp] theorem nanos_saturatingSub (a b : Duration) :
    (a.saturatingSub b).nanos = a.nanos - b.nanos := rfl

@[simp] theorem nanos_saturatingMul (a : Duration) (n : UInt32) :
    (a.saturatingMul n).nanos = min (a.nanos * n.toNat) (2 ^ 64 * 10 ^ 9 - 1) := rfl

@[simp] theorem nanos_fromNanos (nanos : UInt64) : (fromNanos nanos).nanos = nanos.toNat := rfl

@[simp] theorem nanos_min (a b : Duration) : (a.min b).nanos = min a.nanos b.nanos := rfl

theorem le_saturatingAdd (a b : Duration) : a.nanos ≤ (a.saturatingAdd b).nanos := by
  have ha := a.bounded
  rw [nanos_saturatingAdd]
  exact Nat.le_min.mpr ⟨Nat.le_add_right _ _, by omega⟩

theorem saturatingAdd_le (a b : Duration) :
    (a.saturatingAdd b).nanos ≤ a.nanos + b.nanos := Nat.min_le_left _ _

theorem saturatingAdd_eq {a b : Duration} (h : a.nanos + b.nanos < 2 ^ 64 * 10 ^ 9) :
    (a.saturatingAdd b).nanos = a.nanos + b.nanos := Nat.min_eq_left (by omega)

theorem asMillis_min (a b : Duration) : (a.min b).asMillis = min a.asMillis b.asMillis := by
  unfold asMillis
  rw [nanos_min]
  rcases Nat.le_total a.nanos b.nanos with h | h
  · have hdiv : a.nanos / 10 ^ 6 ≤ b.nanos / 10 ^ 6 := Nat.div_le_div_right h
    rw [Nat.min_eq_left h, Nat.min_eq_left hdiv]
  · have hdiv : b.nanos / 10 ^ 6 ≤ a.nanos / 10 ^ 6 := Nat.div_le_div_right h
    rw [Nat.min_eq_right h, Nat.min_eq_right hdiv]

/-! ## Ticks -/

section

variable (f : Duration → Duration) (step : Duration)

/-- The first `n` times of a timer, each mapped by `f`. -/
def ticks : Nat → Duration → List Duration
  | 0, _ => []
  | n + 1, first => f first :: ticks n (first.saturatingAdd step)

theorem length_ticks : ∀ (n : Nat) (first : Duration), (ticks f step n first).length = n
  | 0, _ => rfl
  | n + 1, first => by rw [ticks, List.length_cons, length_ticks n]

theorem mem_ticks : ∀ {n : Nat} {first t : Duration}, t ∈ ticks f step n first → ∃ u, t = f u
  | 0, _, _, h => by cases h
  | n + 1, first, t, h => by
    rcases List.mem_cons.mp h with rfl | h
    · exact ⟨first, rfl⟩
    · exact mem_ticks h

/-- **Ticks in order, at most a step apart**, when the map keeps the order and moves no two times
    further apart. -/
theorem isChain_ticks
    (hf : ∀ t u : Duration, t.nanos ≤ u.nanos → (f t).nanos ≤ (f u).nanos ∧
      (f u).nanos + t.nanos ≤ (f t).nanos + u.nanos) :
    ∀ (n : Nat) (first : Duration), (ticks f step n first).IsChain
      (fun a b => a.nanos ≤ b.nanos ∧ b.nanos - a.nanos ≤ step.nanos)
  | 0, _ => List.isChain_nil
  | 1, _ => List.isChain_singleton _
  | n + 2, first => by
    have htail := isChain_ticks hf (n + 1) (first.saturatingAdd step)
    have hle := le_saturatingAdd first step
    have hstep := saturatingAdd_le first step
    obtain ⟨hmono, happart⟩ := hf first _ hle
    refine List.isChain_cons_cons.mpr ⟨⟨hmono, ?_⟩, htail⟩
    omega

/-- **Ticks exactly a step apart**, where the map keeps all of them and the range is not left. -/
theorem exact_ticks (limit : Nat) (hlimit : limit + step.nanos < 2 ^ 64 * 10 ^ 9)
    (hf : ∀ t : Duration, t.nanos ≤ limit → (f t).nanos = t.nanos) :
    ∀ (n : Nat) (first : Duration), first.nanos + n * step.nanos ≤ limit →
      ∃ rest, ticks f step (n + 1) first = f first :: rest ∧ (f first).nanos = first.nanos ∧
        (f first :: rest).IsChain (fun a b => b.nanos = a.nanos + step.nanos) ∧
        (((f first :: rest).getLast?).map nanos) = some (first.nanos + n * step.nanos)
  | 0, first, h => by
    have hfirst := hf first (by omega)
    refine ⟨[], rfl, hfirst, List.isChain_singleton _, ?_⟩
    simp [hfirst]
  | n + 1, first, h => by
    rw [Nat.succ_mul] at h
    have hnext : (first.saturatingAdd step).nanos = first.nanos + step.nanos :=
      saturatingAdd_eq (by omega)
    have hfirst := hf first (by omega)
    obtain ⟨rest, hticks, hval, hchain, hlast⟩ :=
      exact_ticks limit hlimit hf n (first.saturatingAdd step) (by omega)
    refine ⟨f (first.saturatingAdd step) :: rest, ?_, hfirst,
      List.isChain_cons_cons.mpr ⟨?_, hchain⟩, ?_⟩
    · rw [ticks, hticks]
    · omega
    · rw [List.getLast?_cons_cons, hlast, hnext, Nat.succ_mul]
      congr 1
      omega

end

end Duration

end XLayerReth.Lib
