import Mathlib.Data.List.DropRight
import XLayerReth.Lib.Duration
import XLayerReth.Lib.XorShift

/-!
# The retry backoff

Model of `RetryBackoff` in `worker.rs`: base delays that double up to a maximum, each returned with
a pseudorandom jitter between a half and the whole of it.

* `nextBaseDelay`, `nextDelay`, `reset` — the calls; `nextJitter` is the generator of the jitter.
* `nextJitter_injective` — the generator permutes the 64-bit words, so it never ends up at zero.
* `BackoffInv` — what holds `k` delays after construction or reset; `BackoffInv.nextDelay` and
  `BackoffInv.reset` carry it through a call, and `backoffInv_run` through any calls.

Principal result: `retry_backoff_bounds`.
-/

set_option autoImplicit false

namespace XLayerReth.RcsFilter

open XLayerReth.Lib

/-- `RetryBackoff`. -/
structure RetryBackoff where
  initial : Duration
  maximum : Duration
  current : Duration
  jitterState : UInt64
  deriving DecidableEq

namespace RetryBackoff

/-- `with_seed`. -/
def withSeed (initial maximum : Duration) (seed : UInt64) : RetryBackoff where
  initial := initial
  maximum := maximum
  current := initial
  jitterState := max seed 1

/-- `new`: the static counter `SEED` gives the seed and moves on. -/
def new (initial maximum : Duration) (seedCounter : UInt64) : RetryBackoff × UInt64 :=
  (withSeed initial maximum seedCounter, seedCounter + 0x9e3779b97f4a7c15)

/-- `next_base_delay`. -/
def nextBaseDelay (b : RetryBackoff) : Duration × RetryBackoff :=
  (b.current, { b with current := (b.current.saturatingMul 2).min b.maximum })

/-- The xorshift step of `next_delay`. -/
def nextJitter (state : UInt64) : UInt64 :=
  let state := state ^^^ (state <<< 13)
  let state := state ^^^ (state >>> 7)
  state ^^^ (state <<< 17)

/-- Equal jitter: between 500 and 1000 thousandths of the base, in saturating 128-bit
    arithmetic. -/
def jittered (base : Duration) (jitterState : UInt64) : Duration :=
  let factor := 500 + (jitterState % 501).toNat
  let nanos := min (min (base.nanos * factor) (2 ^ 128 - 1) / 1000) (2 ^ 64 - 1)
  Duration.fromNanos (UInt64.ofNat nanos)

/-- `next_delay`. -/
def nextDelay (b : RetryBackoff) : Duration × RetryBackoff :=
  let base := b.nextBaseDelay.1
  let jitterState := nextJitter b.jitterState
  (jittered base jitterState, { b.nextBaseDelay.2 with jitterState := jitterState })

/-- `reset`. -/
def reset (b : RetryBackoff) : RetryBackoff := { b with current := b.initial }

/-- `is_capped`. -/
def isCapped (b : RetryBackoff) : Bool := b.current = b.maximum

/-- The base delays of `worker.rs`'s own test. -/
example :
    let next (b : RetryBackoff) : RetryBackoff := b.nextBaseDelay.2
    let b := withSeed (.fromMillis 200) (.fromMillis 5000) 7
    [b, next b, next^[2] b, next^[3] b, next^[4] b, next^[5] b, next^[6] b].map
        (fun b => b.nextBaseDelay.1) =
      [200, 400, 800, 1600, 3200, 5000, 5000].map Duration.fromMillis := by
  decide

/-! ## The generator -/

theorem toBitVec_nextJitter (state : UInt64) :
    (nextJitter state).toBitVec =
      xorShiftLeft 17 (xorShiftRight 7 (xorShiftLeft 13 state.toBitVec)) := rfl

/-- **The generator permutes the words**: each of its three steps does. -/
theorem nextJitter_injective : Function.Injective nextJitter := by
  intro x y h
  have hbits := congrArg UInt64.toBitVec h
  rw [toBitVec_nextJitter, toBitVec_nextJitter] at hbits
  have hright := xorShiftLeft_injective (by decide) hbits
  have hleft := xorShiftRight_injective (by decide) hright
  exact UInt64.toBitVec_inj.mp (xorShiftLeft_injective (by decide) hleft)

/-- Zero is the image of zero, and so of nothing else. -/
theorem nextJitter_ne_zero {state : UInt64} (h : state ≠ 0) : nextJitter state ≠ 0 := by
  have hzero : nextJitter 0 = 0 := by decide
  intro hnext
  exact h (nextJitter_injective (hnext.trans hzero.symm))

/-! ## One delay -/

/-- The range of the jitter. -/
theorem jittered_bounds {base : Duration} (hbase : base.nanos < 2 ^ 64) (jitterState : UInt64) :
    base.nanos / 2 ≤ (jittered base jitterState).nanos ∧
      (jittered base jitterState).nanos ≤ base.nanos := by
  have hfactor : (jitterState % 501).toNat ≤ 500 := by
    rw [UInt64.toNat_mod]
    exact Nat.le_of_lt_succ (Nat.mod_lt _ (by decide))
  generalize hf : 500 + (jitterState % 501).toNat = factor
  have hlo : base.nanos * 500 ≤ base.nanos * factor := Nat.mul_le_mul_left _ (by omega)
  have hhi : base.nanos * factor ≤ base.nanos * 1000 := Nat.mul_le_mul_left _ (by omega)
  -- neither the 128-bit product nor the cast to 64 bits meets its bound
  have hnanos : (jittered base jitterState).nanos = base.nanos * factor / 1000 := by
    unfold jittered
    rw [hf, Duration.nanos_fromNanos, Nat.min_eq_left (by omega), Nat.min_eq_left (by omega)]
    exact UInt64.toNat_ofNat_of_lt (by show _ < 2 ^ 64; omega)
  rw [hnanos]
  omega

/-- What holds `k` delays after construction or reset. -/
structure BackoffInv (initial maximum : Duration) (k : Nat) (b : RetryBackoff) : Prop where
  initial_eq : b.initial = initial
  maximum_eq : b.maximum = maximum
  current_eq : b.current.nanos = min (initial.nanos * 2 ^ k) maximum.nanos
  nonzero : b.jitterState ≠ 0

variable {initial maximum : Duration} {k : Nat} {b : RetryBackoff}

theorem backoffInv_withSeed (hle : initial.nanos ≤ maximum.nanos) (seed : UInt64) :
    BackoffInv initial maximum 0 (withSeed initial maximum seed) := by
  refine ⟨rfl, rfl, ?_, ?_⟩
  · show initial.nanos = _
    rw [Nat.pow_zero, Nat.mul_one, Nat.min_eq_left hle]
  · show (if seed ≤ 1 then 1 else seed) ≠ 0
    by_cases hseed : seed ≤ 1
    · rw [if_pos hseed]
      decide
    · rw [if_neg hseed]
      rintro rfl
      exact hseed (by decide)

theorem BackoffInv.nextDelay (h : BackoffInv initial maximum k b) :
    BackoffInv initial maximum (k + 1) b.nextDelay.2 := by
  refine ⟨h.initial_eq, h.maximum_eq, ?_, nextJitter_ne_zero h.nonzero⟩
  show ((b.current.saturatingMul 2).min b.maximum).nanos = _
  have hmax := maximum.bounded
  have htwo : (2 : UInt32).toNat = 2 := rfl
  have hpow : initial.nanos * 2 ^ (k + 1) = initial.nanos * 2 ^ k * 2 := by
    rw [Nat.pow_succ, Nat.mul_assoc]
  rw [Duration.nanos_min, Duration.nanos_saturatingMul, h.current_eq, h.maximum_eq, htwo, hpow]
  omega

theorem BackoffInv.reset (hle : initial.nanos ≤ maximum.nanos)
    (h : BackoffInv initial maximum k b) : BackoffInv initial maximum 0 b.reset := by
  refine ⟨h.initial_eq, h.maximum_eq, ?_, h.nonzero⟩
  show b.initial.nanos = _
  rw [h.initial_eq, Nat.pow_zero, Nat.mul_one, Nat.min_eq_left hle]

/-! ## Any calls -/

/-- A call of the worker. -/
inductive BackoffCall where
  | nextDelay
  | reset
  deriving DecidableEq

/-- What a call leaves. -/
def call (b : RetryBackoff) : BackoffCall → RetryBackoff
  | .nextDelay => b.nextDelay.2
  | .reset => b.reset

/-- What any calls leave. -/
def afterCalls (b : RetryBackoff) (calls : List BackoffCall) : RetryBackoff := calls.foldl call b

/-- How many delays were returned since construction or the last reset. -/
def sinceReset (calls : List BackoffCall) : Nat :=
  (calls.rtakeWhile (fun c => c = .nextDelay)).length

theorem afterCalls_concat (b : RetryBackoff) (calls : List BackoffCall) (c : BackoffCall) :
    afterCalls b (calls ++ [c]) = (afterCalls b calls).call c := by
  unfold afterCalls
  rw [List.foldl_append]
  rfl

theorem sinceReset_nextDelay (calls : List BackoffCall) :
    sinceReset (calls ++ [.nextDelay]) = sinceReset calls + 1 := by
  unfold sinceReset
  rw [List.rtakeWhile_concat_pos _ _ _ (by decide), List.length_append]
  rfl

theorem sinceReset_reset (calls : List BackoffCall) : sinceReset (calls ++ [.reset]) = 0 := by
  unfold sinceReset
  rw [List.rtakeWhile_concat_neg _ _ _ (by decide)]
  rfl

/-- The invariant after any calls, by induction on them from the right. -/
theorem backoffInv_run (hle : initial.nanos ≤ maximum.nanos) (seed : UInt64)
    (calls : List BackoffCall) :
    BackoffInv initial maximum (sinceReset calls)
      (afterCalls (withSeed initial maximum seed) calls) := by
  induction calls using List.reverseRecOn with
  | nil => exact backoffInv_withSeed hle seed
  | append_singleton calls c ih =>
    rw [afterCalls_concat]
    cases c with
    | nextDelay =>
      rw [sinceReset_nextDelay]
      exact ih.nextDelay
    | reset =>
      rw [sinceReset_reset]
      exact ih.reset hle

/-- The worker has reached the cap when the doubled initial delay has reached the maximum. -/
theorem isCapped_afterCalls (hle : initial.nanos ≤ maximum.nanos) (seed : UInt64)
    (calls : List BackoffCall) :
    (afterCalls (withSeed initial maximum seed) calls).isCapped = true ↔
      maximum.nanos ≤ initial.nanos * 2 ^ sinceReset calls := by
  have h := backoffInv_run hle seed calls
  have hcurrent := h.current_eq
  unfold isCapped
  rw [decide_eq_true_iff, h.maximum_eq]
  constructor
  · intro heq
    rw [heq] at hcurrent
    omega
  · intro hcap
    exact Duration.ext (by rw [hcurrent, Nat.min_eq_right hcap])

/-- **Retry delays**: after any calls, the next base delay is the initial delay doubled once for
    each delay since construction or the last reset, up to the maximum; the delay is between a half
    of it and the whole; and the generator is not at zero. -/
theorem retry_backoff_bounds (initial maximum : Duration) (hle : initial.nanos ≤ maximum.nanos)
    (hmax : maximum.nanos < 2 ^ 64) (seed : UInt64) (calls : List BackoffCall) :
    let b := afterCalls (withSeed initial maximum seed) calls
    let base := min (initial.nanos * 2 ^ sinceReset calls) maximum.nanos
    b.nextBaseDelay.1.nanos = base ∧
      base / 2 ≤ b.nextDelay.1.nanos ∧ b.nextDelay.1.nanos ≤ base ∧
      b.nextDelay.1.nanos ≤ maximum.nanos ∧ b.jitterState ≠ 0 := by
  intro b base
  have h : BackoffInv initial maximum (sinceReset calls) b := backoffInv_run hle seed calls
  have hbase : b.nextBaseDelay.1.nanos = base := h.current_eq
  have hcap : base ≤ maximum.nanos := Nat.min_le_right _ _
  have hbounds : base / 2 ≤ b.nextDelay.1.nanos ∧ b.nextDelay.1.nanos ≤ base := by
    rw [← hbase]
    exact jittered_bounds (by omega) (nextJitter b.jitterState)
  exact ⟨hbase, hbounds.1, hbounds.2, by omega, h.nonzero⟩

/-- The default configuration, one delay after a reset. -/
theorem retry_backoff_bounds_default :
    let b := afterCalls (withSeed (.fromMillis 200) (.fromMillis 5000) 7)
      [.nextDelay, .nextDelay, .reset, .nextDelay]
    b.nextBaseDelay.1.nanos = 400000000 ∧
      200000000 ≤ b.nextDelay.1.nanos ∧ b.nextDelay.1.nanos ≤ 400000000 ∧
      b.nextDelay.1.nanos ≤ 5000000000 ∧ b.jitterState ≠ 0 :=
  retry_backoff_bounds (.fromMillis 200) (.fromMillis 5000) (by decide) (by decide) 7
    [.nextDelay, .nextDelay, .reset, .nextDelay]

end RetryBackoff

end XLayerReth.RcsFilter
