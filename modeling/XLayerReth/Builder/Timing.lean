import Mathlib.Algebra.Order.Floor.Div
import XLayerReth.Lib.Duration

/-!
# The flashblock schedule of a slot

Model of `flashblocks/timing.rs`, with the settings of `flashblocks/mod.rs` that it reads.

* `BuilderArgs.config` — the settings of an accepted configuration: whole milliseconds.
* `computeRemainingTime`, `computeSchedulerIntervals`, `fromReference` — the time left in the slot,
  the send times in it, and the scheduler.  A panic of the source is an outcome of its own.
* `timeLeft` — the whole milliseconds left, read off the settings, the timestamp and the clock.

Principal results: `schedule_shape` (the send times of a slot) and `scheduler_useful_iff` (when a
scheduler is built that triggers between one flashblock and all of a block).

The monotonic clock is a number of nanoseconds without an upper bound, and memory is not limited
below the largest size an allocation can have.
-/

set_option autoImplicit false

namespace XLayerReth.Builder.Timing

open XLayerReth.Lib

/-! ## Settings -/

/-- The arguments of `BuilderArgs` that the schedule depends on, in milliseconds. -/
structure BuilderArgs where
  chainBlockTime : UInt64
  flashblocksBlockTime : UInt64
  flashblocksSendOffsetMs : Int64
  flashblocksEndBufferMs : UInt64

/-- The settings of `FlashblocksConfig` that the schedule depends on. -/
structure FlashblocksConfig where
  interval : Duration
  sendOffsetMs : Int64
  endBufferMs : UInt64

/-- The settings of `BuilderConfig` that the schedule depends on. -/
structure BuilderConfig where
  blockTime : Duration
  flashblocks : FlashblocksConfig

/-- `TryFrom<BuilderArgs>`: what an accepted configuration has been made of. -/
def BuilderArgs.config (args : BuilderArgs) : BuilderConfig where
  blockTime := Duration.fromMillis args.chainBlockTime
  flashblocks :=
    { interval := Duration.fromMillis args.flashblocksBlockTime
      sendOffsetMs := args.flashblocksSendOffsetMs
      endBufferMs := args.flashblocksEndBufferMs }

/-- `flashblocks_per_block`. -/
def BuilderConfig.flashblocksPerBlock (config : BuilderConfig) : Nat :=
  if config.blockTime.asMillis = 0 ∨ config.flashblocks.interval.asMillis = 0 then 0
  else (config.blockTime.asMillis ⌈/⌉ config.flashblocks.interval.asMillis) % 2 ^ 64

/-! ## The scheduler -/

/-- A wall-clock time: nanoseconds from the Unix epoch, with seconds of 64 signed bits. -/
structure SystemTime where
  nanos : Int
  lower : -(2 ^ 63 * 10 ^ 9) ≤ nanos
  upper : nanos < 2 ^ 63 * 10 ^ 9

/-- The ways in which the construction of a schedule panics. -/
inductive SchedulePanic where
  | divideByZero
  | timeOverflow
  | capacityOverflow
  deriving DecidableEq, Repr

/-- `SystemTime::UNIX_EPOCH + Duration::from_secs(secs)`. -/
def SystemTime.fromSecs (secs : UInt64) : Except SchedulePanic SystemTime :=
  if h : secs.toNat < 2 ^ 63 then
    .ok ⟨secs.toNat * 10 ^ 9, by omega, by omega⟩
  else .error .timeOverflow

/-- `SystemTime::duration_since`: `none` when the other time is later. -/
def SystemTime.durationSince (t earlier : SystemTime) : Option Duration :=
  if earlier.nanos ≤ t.nanos then
    some ⟨(t.nanos - earlier.nanos).toNat, by
      have h1 := t.upper
      have h2 := earlier.lower
      omega⟩
  else none

/-- `compute_remaining_time`. -/
def computeRemainingTime (blockTime : Duration) (payloadTimestamp : UInt64)
    (referenceSystem : SystemTime) : Except SchedulePanic Duration :=
  match SystemTime.fromSecs payloadTimestamp with
  | .error panic => .error panic
  | .ok targetTime =>
    match (targetTime.durationSince referenceSystem).filter (fun d => d.nanos ≠ 0) with
    | some d => .ok (d.min blockTime)
    | none => .ok blockTime

/-- `calculate_first_flashblock_timing`. -/
def calculateFirstFlashblockTiming (remainingTime interval : Duration) :
    Except SchedulePanic Duration :=
  let remainingTimeMs := remainingTime.asMillis % 2 ^ 64
  let intervalMs := interval.asMillis % 2 ^ 64
  if intervalMs = 0 then .error .divideByZero
  else .ok (Duration.fromMillis (UInt64.ofNat ((remainingTimeMs - 1) % intervalMs + 1)))

/-- `apply_offset`. -/
def applyOffset (duration : Duration) (offsetMs : Int64) : Duration :=
  let offsetDelta := Duration.fromMillis (UInt64.ofNat offsetMs.toInt.natAbs)
  if 0 ≤ offsetMs.toInt then duration.saturatingAdd offsetDelta
  else duration.saturatingSub offsetDelta

/-- The send time of a slot: the offset is applied between two clamps at the deadline. -/
def sendTime (deadline : Duration) (sendOffsetMs : Int64) (timing : Duration) : Duration :=
  (applyOffset (timing.min deadline) sendOffsetMs).min deadline

/-- The most elements a vector of 16-byte durations can be allocated for. -/
def maxDurations : Nat := (2 ^ 63 - 1) / 16

/-- `compute_scheduler_intervals`. -/
def computeSchedulerIntervals (flashblockInterval : Duration) (sendOffsetMs : Int64)
    (endBufferMs : UInt64) (remainingTime : Duration) (targetFlashblocks : Nat) :
    Except SchedulePanic (List Duration) :=
  match calculateFirstFlashblockTiming remainingTime flashblockInterval with
  | .error panic => .error panic
  | .ok firstFlashblockTiming =>
    let deadline := remainingTime.saturatingSub (Duration.fromMillis endBufferMs)
    if targetFlashblocks > maxDurations then .error .capacityOverflow
    else .ok (Duration.ticks (sendTime deadline sendOffsetMs) flashblockInterval targetFlashblocks
      firstFlashblockTiming)

/-- `FlashblockScheduler`; instants are nanoseconds of the monotonic clock. -/
structure FlashblockScheduler where
  referenceSystem : SystemTime
  referenceInstant : Nat
  targetFlashblocks : Nat
  sendTimes : List Nat

/-- `FlashblockScheduler::from_reference`. -/
def fromReference (config : FlashblocksConfig) (blockTime : Duration) (payloadTimestamp : UInt64)
    (referenceSystem : SystemTime) (referenceInstant : Nat) :
    Except SchedulePanic FlashblockScheduler :=
  match computeRemainingTime blockTime payloadTimestamp referenceSystem with
  | .error panic => .error panic
  | .ok remainingTime =>
    if config.interval.asMillis = 0 then .error .divideByZero
    else
      let targetFlashblocks := (remainingTime.asMillis ⌈/⌉ config.interval.asMillis) % 2 ^ 64
      match computeSchedulerIntervals config.interval config.sendOffsetMs config.endBufferMs
          remainingTime targetFlashblocks with
      | .error panic => .error panic
      | .ok intervals =>
        .ok ⟨referenceSystem, referenceInstant, targetFlashblocks,
          intervals.map (fun d => referenceInstant + d.nanos)⟩

/-! ## The send times -/

theorem toNat_ofNat_natAbs (offset : Int64) :
    (UInt64.ofNat offset.toInt.natAbs).toNat = offset.toInt.natAbs := by
  have hlow := offset.le_toInt
  have hhigh := offset.toInt_lt
  have hsize : UInt64.size = 2 ^ 64 := rfl
  exact UInt64.toNat_ofNat_of_lt' (by omega)

/-- The send time of a slot in nanoseconds. -/
theorem nanos_sendTime (deadline : Duration) (offset : Int64) (timing : Duration) :
    (sendTime deadline offset timing).nanos =
      if 0 ≤ offset.toInt then
        min (min timing.nanos deadline.nanos + offset.toInt.natAbs * 10 ^ 6) deadline.nanos
      else min timing.nanos deadline.nanos - offset.toInt.natAbs * 10 ^ 6 := by
  have hdeadline := deadline.bounded
  unfold sendTime applyOffset
  dsimp only
  split
  · rw [Duration.nanos_min, Duration.nanos_saturatingAdd, Duration.nanos_min,
      Duration.nanos_fromMillis, toNat_ofNat_natAbs]
    omega
  · rw [Duration.nanos_min, Duration.nanos_saturatingSub, Duration.nanos_min,
      Duration.nanos_fromMillis, toNat_ofNat_natAbs]
    omega

theorem sendTime_le (deadline : Duration) (offset : Int64) (timing : Duration) :
    (sendTime deadline offset timing).nanos ≤ deadline.nanos := by
  rw [sendTime, Duration.nanos_min]
  exact Nat.min_le_right _ _

/-- Offset and clamps keep the order of the slots and move no two of them further apart. -/
theorem sendTime_apart (deadline : Duration) (offset : Int64) (t u : Duration)
    (h : t.nanos ≤ u.nanos) :
    (sendTime deadline offset t).nanos ≤ (sendTime deadline offset u).nanos ∧
      (sendTime deadline offset u).nanos + t.nanos ≤
        (sendTime deadline offset t).nanos + u.nanos := by
  rw [nanos_sendTime, nanos_sendTime]
  split
  · omega
  · omega

/-- Without an offset a slot before the deadline keeps its time. -/
theorem sendTime_zero {deadline t : Duration} (h : t.nanos ≤ deadline.nanos) :
    (sendTime deadline 0 t).nanos = t.nanos := by
  rw [nanos_sendTime]
  simp [h]

/-- The first slot is in `[1, interval]` and leaves whole intervals up to the end. -/
theorem first_slot {remaining interval : Nat} (hr : 1 ≤ remaining) (hi : 1 ≤ interval) :
    1 ≤ (remaining - 1) % interval + 1 ∧ (remaining - 1) % interval + 1 ≤ interval ∧
      1 ≤ remaining ⌈/⌉ interval ∧
      (remaining - 1) % interval + 1 + (remaining ⌈/⌉ interval - 1) * interval = remaining := by
  have hmod := Nat.mod_lt (remaining - 1) hi
  have hslots : remaining ⌈/⌉ interval = (remaining - 1) / interval + 1 := by
    rw [Nat.ceilDiv_eq_add_pred_div,
      show remaining + interval - 1 = remaining - 1 + interval by omega,
      Nat.add_div_right _ hi]
  have hdiv := Nat.div_add_mod (remaining - 1) interval
  rw [Nat.mul_comm] at hdiv
  rw [hslots, Nat.add_sub_cancel]
  generalize (remaining - 1) / interval * interval = whole at hdiv ⊢
  refine ⟨Nat.le_add_left 1 _, hmod, Nat.le_add_left 1 _, ?_⟩
  omega

theorem calculateFirstFlashblockTiming_eq (remaining interval : Duration)
    (hi : 1 ≤ interval.asMillis) (hlt : interval.asMillis < 2 ^ 64) :
    ∃ first, calculateFirstFlashblockTiming remaining interval = .ok first ∧
      first.nanos =
        ((remaining.asMillis % 2 ^ 64 - 1) % interval.asMillis + 1) * 10 ^ 6 := by
  have hmod := Nat.mod_lt (remaining.asMillis % 2 ^ 64 - 1) hi
  unfold calculateFirstFlashblockTiming
  dsimp only
  rw [Nat.mod_eq_of_lt hlt, if_neg (by omega)]
  refine ⟨_, rfl, ?_⟩
  rw [Duration.nanos_fromMillis, UInt64.toNat_ofNat_of_lt' (Nat.lt_of_le_of_lt hmod hlt)]

/-- **The send times exist** when the interval is at least a millisecond and they can be
    allocated: the slots of a timer, clamped and shifted. -/
theorem computeSchedulerIntervals_eq (interval remaining : Duration) (offset : Int64)
    (buffer : UInt64) {target : Nat} (hi : 1 ≤ interval.asMillis)
    (hlt : interval.asMillis < 2 ^ 64) (htarget : target ≤ maxDurations) :
    ∃ first, first.nanos =
        ((remaining.asMillis % 2 ^ 64 - 1) % interval.asMillis + 1) * 10 ^ 6 ∧
      computeSchedulerIntervals interval offset buffer remaining target =
        .ok (Duration.ticks (sendTime (remaining.saturatingSub (Duration.fromMillis buffer)) offset)
          interval target first) := by
  obtain ⟨first, hfirst, hnanos⟩ := calculateFirstFlashblockTiming_eq remaining interval hi hlt
  refine ⟨first, hnanos, ?_⟩
  unfold computeSchedulerIntervals
  rw [hfirst]
  dsimp only
  rw [if_neg (by omega)]

/-- The send times of a slot: their number, their order, the deadline and the gaps. -/
structure Schedule (times : List Duration) (interval : Duration) (deadline target : Nat) :
    Prop where
  length : times.length = target
  ordered : times.Pairwise (fun a b => a.nanos ≤ b.nanos)
  inTime : ∀ t ∈ times, t.nanos ≤ deadline
  gaps : times.IsChain (fun a b => b.nanos - a.nanos ≤ interval.nanos)

/-- The send times cover the slot: the first is within the first interval, each of the others is
    one interval after the one before it, and the last is at the end. -/
structure Covers (times : List Duration) (interval : Duration) (endMs : Nat) : Prop where
  first : ∃ t, times.head? = some t ∧ 10 ^ 6 ≤ t.nanos ∧ t.nanos ≤ interval.nanos
  gaps : times.IsChain (fun a b => b.nanos = a.nanos + interval.nanos)
  last : times.getLast?.map Duration.nanos = some (endMs * 10 ^ 6)

theorem schedule_ticks (deadline : Duration) (offset : Int64) (interval first : Duration)
    (n : Nat) : Schedule (Duration.ticks (sendTime deadline offset) interval n first) interval
      deadline.nanos n := by
  have hchain := Duration.isChain_ticks (sendTime deadline offset) interval
    (sendTime_apart deadline offset) n first
  refine ⟨Duration.length_ticks _ _ n first, ?_, ?_, hchain.imp (fun _ _ h => h.2)⟩
  · exact (hchain.imp (fun _ _ h => h.1)).pairwise
  · intro t ht
    obtain ⟨u, rfl⟩ := Duration.mem_ticks _ _ ht
    exact sendTime_le deadline offset u

/-- **Schedule shape.**  For every interval of at least 1 ms, every remaining time, every signed
    offset and every end buffer, with as many slots as intervals fit in the remaining
    milliseconds, rounded up, there are exactly that many send times; they are in order, none is
    after the remaining time less the end buffer, and no gap is longer than the interval.  With
    no offset and no buffer, an interval of whole milliseconds and a remaining time of at least
    1 ms, the first is in `[1 ms, interval]`, the gaps are exactly the interval and the last is
    at the end of the remaining milliseconds. -/
theorem schedule_shape (remaining : Duration) :
    (∀ (interval : Duration) (offset : Int64) (buffer : UInt64), 1 ≤ interval.asMillis →
      interval.asMillis < 2 ^ 64 → remaining.asMillis ⌈/⌉ interval.asMillis ≤ maxDurations →
      ∃ times, computeSchedulerIntervals interval offset buffer remaining
          (remaining.asMillis ⌈/⌉ interval.asMillis) = .ok times ∧
        Schedule times interval (remaining.nanos - buffer.toNat * 10 ^ 6)
          (remaining.asMillis ⌈/⌉ interval.asMillis)) ∧
    (∀ intervalMs : UInt64, 1 ≤ intervalMs.toNat → 1 ≤ remaining.asMillis →
      remaining.asMillis < 2 ^ 64 → remaining.asMillis ⌈/⌉ intervalMs.toNat ≤ maxDurations →
      ∃ times, computeSchedulerIntervals (Duration.fromMillis intervalMs) 0 0 remaining
          (remaining.asMillis ⌈/⌉ intervalMs.toNat) = .ok times ∧
        Covers times (Duration.fromMillis intervalMs) remaining.asMillis) := by
  constructor
  · intro interval offset buffer hi hlt htarget
    obtain ⟨first, -, htimes⟩ := computeSchedulerIntervals_eq interval remaining offset buffer
      hi hlt htarget
    exact ⟨_, htimes, schedule_ticks _ offset interval first _⟩
  · intro intervalMs hi hr hlt htarget
    have hinterval := intervalMs.toNat_lt
    obtain ⟨first, hfirst, htimes⟩ := computeSchedulerIntervals_eq
      (Duration.fromMillis intervalMs) remaining 0 0
      (by simpa using hi) (by simpa using hinterval) htarget
    rw [Duration.asMillis_fromMillis, Nat.mod_eq_of_lt hlt] at hfirst
    obtain ⟨hone, hle, hslots, hsum⟩ := first_slot hr hi
    refine ⟨_, htimes, ?_⟩
    -- the last slot is at the end of the remaining milliseconds
    have hend : first.nanos + (remaining.asMillis ⌈/⌉ intervalMs.toNat - 1) *
        (Duration.fromMillis intervalMs).nanos = remaining.asMillis * 10 ^ 6 := by
      rw [hfirst, Duration.nanos_fromMillis, ← Nat.mul_assoc, ← Nat.add_mul, hsum]
    have hwhole : remaining.asMillis * 10 ^ 6 ≤ remaining.nanos := Nat.div_mul_le_self _ _
    have hdeadline : (remaining.saturatingSub (Duration.fromMillis 0)).nanos = remaining.nanos :=
      rfl
    obtain ⟨rest, hticks, hval, hchain, hlast⟩ := Duration.exact_ticks
      (sendTime (remaining.saturatingSub (Duration.fromMillis 0)) 0)
      (Duration.fromMillis intervalMs) (remaining.asMillis * 10 ^ 6)
      (by rw [Duration.nanos_fromMillis]; omega)
      (fun t ht => sendTime_zero (by rw [hdeadline]; omega))
      (remaining.asMillis ⌈/⌉ intervalMs.toNat - 1) first (by rw [hend])
    rw [Nat.sub_add_cancel hslots] at hticks
    rw [hticks]
    refine ⟨⟨_, rfl, ?_, ?_⟩, hchain, ?_⟩
    · rw [hval, hfirst]
      omega
    · rw [hval, hfirst, Duration.nanos_fromMillis]
      exact Nat.mul_le_mul_right _ hle
    · rw [hlast, hend]

/-- An interval of one and a half milliseconds, which no configuration has. -/
def fractionalInterval : Duration := ⟨1500000, by decide⟩

/-- `2 ^ 64` milliseconds, which are more than a configuration can have. -/
def longSpan : Duration := ⟨2 ^ 64 * 10 ^ 6, by decide⟩

/-- The slots are counted in whole milliseconds of 64 bits: with an interval that is not a number
    of them the last gap is shorter than the interval, an interval of `2 ^ 64` of them counts as
    zero, as a remaining time it leaves the end of the slot uncovered, and `2 ^ 59` slots cannot
    be allocated. -/
theorem schedule_shape_fails :
    (∃ times, computeSchedulerIntervals fractionalInterval 0 0 (Duration.fromMillis 3)
        ((Duration.fromMillis 3).asMillis ⌈/⌉ fractionalInterval.asMillis) = .ok times ∧
      1 ≤ fractionalInterval.asMillis ∧ 1 ≤ (Duration.fromMillis 3).asMillis ∧
      ¬ Covers times fractionalInterval (Duration.fromMillis 3).asMillis) ∧
    computeSchedulerIntervals longSpan 0 0 (Duration.fromMillis 1) 1 = .error .divideByZero ∧
    (∃ times, computeSchedulerIntervals (Duration.fromMillis (.ofNat (2 ^ 63))) 0 0 longSpan
        (longSpan.asMillis ⌈/⌉ (Duration.fromMillis (.ofNat (2 ^ 63))).asMillis) = .ok times ∧
      ¬ Covers times (Duration.fromMillis (.ofNat (2 ^ 63))) longSpan.asMillis) ∧
    computeSchedulerIntervals (Duration.fromMillis 1) 0 0 (Duration.fromMillis (.ofNat (2 ^ 59)))
      (2 ^ 59) = .error .capacityOverflow := by
  refine ⟨⟨[⟨1000000, by decide⟩, ⟨2500000, by decide⟩, ⟨3000000, by decide⟩], by rfl, by decide,
    by decide, fun h => ?_⟩, by rfl, ⟨[⟨10 ^ 6, by decide⟩, ⟨10 ^ 6 + 2 ^ 63 * 10 ^ 6, by decide⟩],
    by rfl, fun h => ?_⟩, by rfl⟩
  · have hlast := (List.isChain_cons_cons.mp h.gaps).2
    have hgap : (3000000 : Nat) = 2500000 + 1500000 := (List.isChain_cons_cons.mp hlast).1
    cases hgap
  · exact absurd h.last (by decide)

/-! ## The time left -/

/-- The whole milliseconds until the timestamp, at most the block time; the whole block time when
    the timestamp is not ahead of the clock. -/
def timeLeft (args : BuilderArgs) (payloadTimestamp : UInt64) (referenceSystem : SystemTime) :
    Nat :=
  let ahead := payloadTimestamp.toNat * 10 ^ 9 - referenceSystem.nanos
  if 0 < ahead then min (ahead.toNat / 10 ^ 6) args.chainBlockTime.toNat
  else args.chainBlockTime.toNat

theorem timeLeft_le (args : BuilderArgs) (ts : UInt64) (ref : SystemTime) :
    timeLeft args ts ref ≤ args.chainBlockTime.toNat := by
  unfold timeLeft
  dsimp only
  split
  · exact Nat.min_le_right _ _
  · exact le_refl _

/-- A timestamp that the wall clock cannot hold. -/
theorem computeRemainingTime_overflow {blockTime : Duration} {ts : UInt64} {ref : SystemTime}
    (h : ¬ ts.toNat < 2 ^ 63) :
    computeRemainingTime blockTime ts ref = .error .timeOverflow := by
  unfold computeRemainingTime SystemTime.fromSecs
  rw [dif_neg h]

/-- **The remaining time** in whole milliseconds. -/
theorem computeRemainingTime_eq (args : BuilderArgs) {ts : UInt64} (ref : SystemTime)
    (h : ts.toNat < 2 ^ 63) :
    ∃ remaining, computeRemainingTime args.config.blockTime ts ref = .ok remaining ∧
      remaining.asMillis = timeLeft args ts ref := by
  unfold computeRemainingTime SystemTime.fromSecs
  rw [dif_pos h]
  dsimp only
  unfold SystemTime.durationSince timeLeft
  dsimp only
  by_cases hle : ref.nanos ≤ (ts.toNat : Int) * 10 ^ 9
  · rw [if_pos hle]
    by_cases hzero : ((ts.toNat : Int) * 10 ^ 9 - ref.nanos).toNat = 0
    · rw [Option.filter_some_neg (by simpa using hzero), if_neg (by omega)]
      exact ⟨_, rfl, Duration.asMillis_fromMillis _⟩
    · rw [Option.filter_some_pos (by simpa using hzero), if_pos (by omega)]
      refine ⟨_, rfl, ?_⟩
      rw [Duration.asMillis_min]
      exact congrArg (min _) (Duration.asMillis_fromMillis _)
  · rw [if_neg hle, if_neg (by omega)]
    exact ⟨_, rfl, Duration.asMillis_fromMillis _⟩

/-! ## When a scheduler is built -/

section

variable (args : BuilderArgs) (payloadTimestamp : UInt64) (referenceSystem : SystemTime)
  (referenceInstant : Nat)

/-- A scheduler is built without a panic, triggers at least one flashblock and at most those of a
    block, and its triggers fit in the channel: the first one at once and one at each send
    time. -/
def SchedulerUseful : Prop :=
  ∃ scheduler, fromReference args.config.flashblocks args.config.blockTime payloadTimestamp
      referenceSystem referenceInstant = .ok scheduler ∧
    1 ≤ scheduler.targetFlashblocks ∧
    scheduler.targetFlashblocks ≤ args.config.flashblocksPerBlock ∧
    scheduler.sendTimes.length + 1 ≤ args.config.flashblocksPerBlock + 1

/-- What it takes for a scheduler to be built at all. -/
structure Constructible : Prop where
  /-- The interval is not zero. -/
  interval : args.flashblocksBlockTime.toNat ≠ 0
  /-- The wall clock can hold the timestamp. -/
  timestamp : payloadTimestamp.toNat < 2 ^ 63
  /-- No more send times than can be allocated are in the time that is left. -/
  slots : timeLeft args payloadTimestamp referenceSystem ≤
    args.flashblocksBlockTime.toNat * maxDurations

/-- What the arguments, the timestamp and the clock have to meet. -/
structure Schedulable : Prop where
  /-- The interval is not zero. -/
  interval : args.flashblocksBlockTime.toNat ≠ 0
  /-- The wall clock can hold the timestamp. -/
  timestamp : payloadTimestamp.toNat < 2 ^ 63
  /-- The timestamp is not ahead of the clock by less than a millisecond. -/
  millisecond : (payloadTimestamp.toNat : Int) * 10 ^ 9 ≤ referenceSystem.nanos ∨
    referenceSystem.nanos + 10 ^ 6 ≤ payloadTimestamp.toNat * 10 ^ 9
  /-- No more send times than can be allocated are in the time that is left. -/
  slots : timeLeft args payloadTimestamp referenceSystem ≤
    args.flashblocksBlockTime.toNat * maxDurations

variable {args}

theorem one_le_timeLeft (hblock : args.chainBlockTime.toNat ≠ 0) :
    1 ≤ timeLeft args payloadTimestamp referenceSystem ↔
      (payloadTimestamp.toNat : Int) * 10 ^ 9 ≤ referenceSystem.nanos ∨
        referenceSystem.nanos + 10 ^ 6 ≤ payloadTimestamp.toNat * 10 ^ 9 := by
  unfold timeLeft
  dsimp only
  by_cases hahead : 0 < (payloadTimestamp.toNat : Int) * 10 ^ 9 - referenceSystem.nanos
  · rw [if_pos hahead]
    omega
  · rw [if_neg hahead]
    omega

/-- The number of flashblocks of a block. -/
theorem flashblocksPerBlock_eq (hblock : args.chainBlockTime.toNat ≠ 0)
    (hinterval : args.flashblocksBlockTime.toNat ≠ 0) :
    args.config.flashblocksPerBlock =
      args.chainBlockTime.toNat ⌈/⌉ args.flashblocksBlockTime.toNat := by
  have hlt := args.chainBlockTime.toNat_lt
  have hle : args.chainBlockTime.toNat ⌈/⌉ args.flashblocksBlockTime.toNat ≤
      args.chainBlockTime.toNat :=
    (ceilDiv_le_iff_le_mul (by omega)).mpr (Nat.le_mul_of_pos_left _ (by omega))
  unfold BuilderConfig.flashblocksPerBlock BuilderArgs.config
  dsimp only
  rw [Duration.asMillis_fromMillis, Duration.asMillis_fromMillis, if_neg (by omega),
    Nat.mod_eq_of_lt (by omega)]

/-- What `fromReference` does once the time left and the number of slots are known. -/
theorem fromReference_slots (hinterval : args.flashblocksBlockTime.toNat ≠ 0)
    (hts : payloadTimestamp.toNat < 2 ^ 63) :
    ∃ remaining : Duration, fromReference args.config.flashblocks args.config.blockTime
        payloadTimestamp referenceSystem referenceInstant =
      match computeSchedulerIntervals args.config.flashblocks.interval
          args.config.flashblocks.sendOffsetMs args.config.flashblocks.endBufferMs remaining
          (timeLeft args payloadTimestamp referenceSystem ⌈/⌉ args.flashblocksBlockTime.toNat) with
      | .error panic => .error panic
      | .ok intervals =>
        .ok ⟨referenceSystem, referenceInstant,
          timeLeft args payloadTimestamp referenceSystem ⌈/⌉ args.flashblocksBlockTime.toNat,
          intervals.map (fun d => referenceInstant + d.nanos)⟩ := by
  obtain ⟨remaining, hremaining, hms⟩ := computeRemainingTime_eq args referenceSystem hts
  have hleft := timeLeft_le args payloadTimestamp referenceSystem
  have hblock := args.chainBlockTime.toNat_lt
  have hms' : args.config.flashblocks.interval.asMillis = args.flashblocksBlockTime.toNat :=
    Duration.asMillis_fromMillis _
  have hle : timeLeft args payloadTimestamp referenceSystem ⌈/⌉ args.flashblocksBlockTime.toNat ≤
      timeLeft args payloadTimestamp referenceSystem :=
    (ceilDiv_le_iff_le_mul (by omega)).mpr (Nat.le_mul_of_pos_left _ (by omega))
  refine ⟨remaining, ?_⟩
  unfold fromReference
  rw [hremaining]
  dsimp only
  rw [hms', hms, if_neg hinterval, Nat.mod_eq_of_lt (by omega)]

/-- **Construction**: with an interval, a timestamp of the clock's range and the time left, the
    scheduler has one slot for each interval of it, rounded up. -/
theorem fromReference_eq (hinterval : args.flashblocksBlockTime.toNat ≠ 0)
    (hts : payloadTimestamp.toNat < 2 ^ 63)
    (hslots : timeLeft args payloadTimestamp referenceSystem ⌈/⌉
      args.flashblocksBlockTime.toNat ≤ maxDurations) :
    ∃ sendTimes, fromReference args.config.flashblocks args.config.blockTime payloadTimestamp
        referenceSystem referenceInstant =
          .ok ⟨referenceSystem, referenceInstant, timeLeft args payloadTimestamp referenceSystem ⌈/⌉
            args.flashblocksBlockTime.toNat, sendTimes⟩ ∧
      sendTimes.length = timeLeft args payloadTimestamp referenceSystem ⌈/⌉
        args.flashblocksBlockTime.toNat := by
  obtain ⟨remaining, hbuilt⟩ := fromReference_slots payloadTimestamp referenceSystem
    referenceInstant hinterval hts
  have hlt := args.flashblocksBlockTime.toNat_lt
  have hms : args.config.flashblocks.interval.asMillis = args.flashblocksBlockTime.toNat :=
    Duration.asMillis_fromMillis _
  generalize timeLeft args payloadTimestamp referenceSystem ⌈/⌉
    args.flashblocksBlockTime.toNat = target at hbuilt hslots ⊢
  obtain ⟨first, -, htimes⟩ := computeSchedulerIntervals_eq
    args.config.flashblocks.interval remaining args.config.flashblocks.sendOffsetMs
    args.config.flashblocks.endBufferMs (by omega) (by omega) hslots
  rw [htimes] at hbuilt
  refine ⟨_, hbuilt, ?_⟩
  rw [List.length_map, Duration.length_ticks]

/-- More slots than can be allocated. -/
theorem fromReference_capacityOverflow (hinterval : args.flashblocksBlockTime.toNat ≠ 0)
    (hts : payloadTimestamp.toNat < 2 ^ 63)
    (hslots : maxDurations < timeLeft args payloadTimestamp referenceSystem ⌈/⌉
      args.flashblocksBlockTime.toNat) :
    fromReference args.config.flashblocks args.config.blockTime payloadTimestamp referenceSystem
      referenceInstant = .error .capacityOverflow := by
  obtain ⟨remaining, hbuilt⟩ := fromReference_slots payloadTimestamp referenceSystem
    referenceInstant hinterval hts
  have hlt := args.flashblocksBlockTime.toNat_lt
  have hms : args.config.flashblocks.interval.asMillis = args.flashblocksBlockTime.toNat :=
    Duration.asMillis_fromMillis _
  generalize timeLeft args payloadTimestamp referenceSystem ⌈/⌉
    args.flashblocksBlockTime.toNat = target at hbuilt hslots ⊢
  obtain ⟨first, hfirst, -⟩ := calculateFirstFlashblockTiming_eq remaining
    args.config.flashblocks.interval (by omega) (by omega)
  rw [hbuilt, computeSchedulerIntervals, hfirst]
  dsimp only
  rw [if_pos hslots]

/-- A timestamp beyond the range of the clock. -/
theorem fromReference_timeOverflow (hts : ¬ payloadTimestamp.toNat < 2 ^ 63) :
    fromReference args.config.flashblocks args.config.blockTime payloadTimestamp referenceSystem
      referenceInstant = .error .timeOverflow := by
  rw [fromReference, computeRemainingTime_overflow hts]

/-- Without an interval the time left is divided by zero. -/
theorem fromReference_divideByZero (hts : payloadTimestamp.toNat < 2 ^ 63)
    (hinterval : args.flashblocksBlockTime.toNat = 0) :
    fromReference args.config.flashblocks args.config.blockTime payloadTimestamp referenceSystem
      referenceInstant = .error .divideByZero := by
  obtain ⟨remaining, hremaining, -⟩ := computeRemainingTime_eq args referenceSystem hts
  have hms : args.config.flashblocks.interval.asMillis = 0 :=
    (Duration.asMillis_fromMillis _).trans hinterval
  rw [fromReference, hremaining]
  dsimp only
  rw [if_pos hms]

/-- There is a slot when there is a millisecond left, and there are no more than in a block. -/
theorem slots_bounds (hinterval : args.flashblocksBlockTime.toNat ≠ 0) :
    (1 ≤ timeLeft args payloadTimestamp referenceSystem ⌈/⌉ args.flashblocksBlockTime.toNat ↔
      1 ≤ timeLeft args payloadTimestamp referenceSystem) ∧
    timeLeft args payloadTimestamp referenceSystem ⌈/⌉ args.flashblocksBlockTime.toNat ≤
      args.chainBlockTime.toNat ⌈/⌉ args.flashblocksBlockTime.toNat := by
  have hpos : 0 < args.flashblocksBlockTime.toNat := by omega
  have hleft := timeLeft_le args payloadTimestamp referenceSystem
  have hzero : timeLeft args payloadTimestamp referenceSystem ⌈/⌉
      args.flashblocksBlockTime.toNat ≤ 0 ↔ _ := ceilDiv_le_iff_le_mul hpos
  rw [Nat.mul_zero] at hzero
  refine ⟨by omega, (ceilDiv_le_iff_le_mul hpos).mpr ?_⟩
  exact hleft.trans ((ceilDiv_le_iff_le_mul hpos).mp le_rfl)

/-- **When a scheduler is built**: there is an interval, the timestamp is within the range of the
    clock, and the slots can be allocated. -/
theorem fromReference_ok_iff :
    (∃ scheduler, fromReference args.config.flashblocks args.config.blockTime payloadTimestamp
      referenceSystem referenceInstant = .ok scheduler) ↔
      Constructible args payloadTimestamp referenceSystem := by
  constructor
  · rintro ⟨scheduler, hok⟩
    have hts : payloadTimestamp.toNat < 2 ^ 63 := by
      by_contra hts
      rw [fromReference_timeOverflow _ _ _ hts] at hok
      cases hok
    have hinterval : args.flashblocksBlockTime.toNat ≠ 0 := by
      intro hinterval
      rw [fromReference_divideByZero _ _ _ hts hinterval] at hok
      cases hok
    refine ⟨hinterval, hts, (ceilDiv_le_iff_le_mul (by omega)).mp ?_⟩
    by_contra hslots
    rw [fromReference_capacityOverflow _ _ _ hinterval hts (Nat.lt_of_not_le hslots)] at hok
    cases hok
  · rintro ⟨hinterval, hts, hslots⟩
    obtain ⟨sendTimes, hbuilt, -⟩ := fromReference_eq payloadTimestamp referenceSystem
      referenceInstant hinterval hts ((ceilDiv_le_iff_le_mul (by omega)).mpr hslots)
    exact ⟨_, hbuilt⟩

/-- A scheduler that is built has no flashblock only when there is no millisecond left. -/
theorem targetFlashblocks_eq_zero {scheduler : FlashblockScheduler}
    (hok : fromReference args.config.flashblocks args.config.blockTime payloadTimestamp
      referenceSystem referenceInstant = .ok scheduler) :
    scheduler.targetFlashblocks = 0 ↔ timeLeft args payloadTimestamp referenceSystem = 0 := by
  obtain ⟨hinterval, hts, hslots⟩ := (fromReference_ok_iff _ _ _).mp ⟨scheduler, hok⟩
  obtain ⟨sendTimes, hbuilt, -⟩ := fromReference_eq payloadTimestamp referenceSystem
    referenceInstant hinterval hts ((ceilDiv_le_iff_le_mul (by omega)).mpr hslots)
  have hone := (slots_bounds payloadTimestamp referenceSystem hinterval).1
  rw [hbuilt] at hok
  cases hok
  dsimp only
  omega

end

/-- **When the scheduler is useful.**  For every configuration with a block time other than zero,
    every payload timestamp and every wall-clock time: a scheduler is built without a panic, with
    at least one flashblock and at most those of a block, so that its triggers fit in the channel,
    if and only if the interval is not zero, the timestamp is within the range of the clock and
    not less than a millisecond ahead of it, and the slots can be allocated. -/
theorem scheduler_useful_iff (args : BuilderArgs) (payloadTimestamp : UInt64)
    (referenceSystem : SystemTime) (referenceInstant : Nat)
    (hblock : args.chainBlockTime.toNat ≠ 0) :
    SchedulerUseful args payloadTimestamp referenceSystem referenceInstant ↔
      Schedulable args payloadTimestamp referenceSystem := by
  constructor
  · rintro ⟨scheduler, hok, htarget, -, -⟩
    obtain ⟨hinterval, hts, hslots⟩ := (fromReference_ok_iff _ _ _).mp ⟨scheduler, hok⟩
    have hzero := targetFlashblocks_eq_zero _ _ _ hok
    exact ⟨hinterval, hts, (one_le_timeLeft _ _ hblock).mp (by omega), hslots⟩
  · intro h
    have hpos : 0 < args.flashblocksBlockTime.toNat := Nat.pos_of_ne_zero h.interval
    obtain ⟨hone, hmono⟩ := slots_bounds payloadTimestamp referenceSystem h.interval
    rw [SchedulerUseful, flashblocksPerBlock_eq hblock h.interval]
    obtain ⟨sendTimes, hbuilt, hlength⟩ := fromReference_eq payloadTimestamp
      referenceSystem referenceInstant h.interval h.timestamp
      ((ceilDiv_le_iff_le_mul hpos).mpr h.slots)
    refine ⟨_, hbuilt, hone.mpr ((one_le_timeLeft _ _ hblock).mpr h.millisecond), hmono, ?_⟩
    rw [hlength]
    exact Nat.succ_le_succ hmono

/-- The default arguments, with an interval of so many milliseconds. -/
def everySecond (flashblocksBlockTime : UInt64) : BuilderArgs := ⟨1000, flashblocksBlockTime, 0, 0⟩

/-- A wall-clock time of 2023, so many nanoseconds into a second. -/
def clockAt (nanos : Fin (10 ^ 9)) : SystemTime :=
  ⟨1700000000 * 10 ^ 9 + nanos.val, by omega, by omega⟩

/-- With the default interval and 0.8 s to go, a scheduler is built. -/
theorem scheduler_useful_default :
    (everySecond 250).chainBlockTime.toNat ≠ 0 ∧
      SchedulerUseful (everySecond 250) 1700000001 (clockAt 200000000) 0 :=
  ⟨by decide, (scheduler_useful_iff (everySecond 250) 1700000001 (clockAt 200000000) 0
    (by decide)).mpr ⟨by decide, by decide, .inr (by decide), by decide⟩⟩

/-- An interval of zero panics, and half a millisecond before the timestamp nothing is
    scheduled. -/
theorem scheduler_not_useful :
    (everySecond 0).chainBlockTime.toNat ≠ 0 ∧
    fromReference (everySecond 0).config.flashblocks (everySecond 0).config.blockTime 1700000001
      (clockAt 200000000) 0 = .error .divideByZero ∧
    ¬ SchedulerUseful (everySecond 0) 1700000001 (clockAt 200000000) 0 ∧
    ¬ SchedulerUseful (everySecond 250) 1700000001 (clockAt 999500000) 0 := by
  have hpanic : fromReference (everySecond 0).config.flashblocks (everySecond 0).config.blockTime
      1700000001 (clockAt 200000000) 0 = .error .divideByZero :=
    fromReference_divideByZero _ _ _ (by decide) rfl
  refine ⟨by decide, hpanic, ?_, ?_⟩
  · rintro ⟨scheduler, hok, -⟩
    rw [hpanic] at hok
    cases hok
  · rintro ⟨scheduler, hok, htarget, -⟩
    have hnone : timeLeft (everySecond 250) 1700000001 (clockAt 999500000) ⌈/⌉
        (everySecond 250).flashblocksBlockTime.toNat = 0 := by decide
    obtain ⟨sendTimes, hbuilt, -⟩ := @fromReference_eq (everySecond 250) 1700000001
      (clockAt 999500000) 0 (by decide) (by decide) (by rw [hnone]; exact Nat.zero_le _)
    rw [hnone] at hbuilt
    rw [hbuilt] at hok
    cases hok
    exact absurd htarget (Nat.not_succ_le_zero 0)

end XLayerReth.Builder.Timing
