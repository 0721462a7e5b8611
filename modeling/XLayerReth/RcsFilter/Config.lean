import XLayerReth.Lib.Duration
import XLayerReth.RcsFilter.RuleUpdates

/-!
# The configuration of the filter

Model of `config.rs`, and of `build_rcs_filter_config` of the builder, which makes a configuration
from the command line.

* `FilterSettings` — `FilterConfig` with every setting; `worker` is the part that screening and the
  workers read, in whole seconds.
* `validate` — the checks, in the order of the source; `Usable` — what they establish.

Principal results: `validate_ok` and `buildRcsFilterConfig_usable` (a filter is only started with a
configuration its workers can work with).
-/

set_option autoImplicit false

namespace XLayerReth.RcsFilter

open XLayerReth.Lib

/-- `FilterConfig`. -/
structure FilterSettings where
  enabled : Bool
  rcsBaseUrl : String
  connectTimeout : Duration
  requestTimeout : Duration
  retryInitialBackoff : Duration
  retryMaxBackoff : Duration
  batchWindow : Duration
  submitMaxConcurrency : Nat
  submittedConfirmationTimeout : Duration
  riskModuleUnresponsiveTimeout : Duration
  totalRetryTimeout : Duration
  rulesVersionPollInterval : Duration
  terminalEntryRetention : Duration
  maxNativeTransfersPerTx : Nat
  maxEventBindingsPerTx : Nat

/-- `MAX_SUBMIT_CONCURRENCY`. -/
def maxSubmitConcurrency : Nat := 64

namespace FilterSettings

/-- `Default::default`. -/
def default : FilterSettings where
  enabled := false
  rcsBaseUrl := ""
  connectTimeout := .fromSecs 1
  requestTimeout := .fromSecs 3
  retryInitialBackoff := .fromMillis 200
  retryMaxBackoff := .fromSecs 5
  batchWindow := .fromMillis 200
  submitMaxConcurrency := 1
  submittedConfirmationTimeout := .fromSecs 8
  riskModuleUnresponsiveTimeout := .fromSecs 20
  totalRetryTimeout := .fromSecs 90
  rulesVersionPollInterval := .fromMillis 2000
  terminalEntryRetention := .fromSecs 300
  maxNativeTransfersPerTx := 10000
  maxEventBindingsPerTx := 10000

def durations (c : FilterSettings) : List Duration :=
  [c.connectTimeout, c.requestTimeout, c.retryInitialBackoff, c.retryMaxBackoff, c.batchWindow,
    c.submittedConfirmationTimeout, c.riskModuleUnresponsiveTimeout, c.totalRetryTimeout,
    c.rulesVersionPollInterval, c.terminalEntryRetention]

/-- The checks of `validate`, each with the message of its failure. -/
def checks (c : FilterSettings) : List (Bool × String) :=
  [(c.enabled && c.rcsBaseUrl.toList.all isWhitespace,
      "rcs-filter enabled but rcs_base_url is empty"),
    (c.enabled && c.terminalEntryRetention.nanos ≤ c.totalRetryTimeout.nanos,
      "rcs-filter terminal_entry_retention must exceed total_retry_timeout"),
    (c.enabled && c.durations.any (fun d => d.nanos == 0),
      "rcs-filter durations must be non-zero"),
    (c.enabled && c.requestTimeout.nanos < c.connectTimeout.nanos,
      "rcs-filter connect_timeout must not exceed request_timeout"),
    (c.enabled && (c.totalRetryTimeout.nanos ≤ c.connectTimeout.nanos ||
        c.totalRetryTimeout.nanos ≤ c.requestTimeout.nanos),
      "rcs-filter network timeouts must be less than total_retry_timeout"),
    (c.enabled && c.retryMaxBackoff.nanos < c.retryInitialBackoff.nanos,
      "rcs-filter retry_initial_backoff must not exceed retry_max_backoff"),
    (c.enabled && !(1 ≤ c.submitMaxConcurrency && c.submitMaxConcurrency ≤ maxSubmitConcurrency),
      "rcs-filter submit_max_concurrency must be between 1 and 64"),
    (c.maxNativeTransfersPerTx == 0, "rcs-filter max_native_transfers_per_tx must be >= 1"),
    (c.maxEventBindingsPerTx == 0, "rcs-filter max_event_bindings_per_tx must be >= 1")]

/-- `validate`: the first check that fails. -/
def validate (c : FilterSettings) : Except FilterError Unit :=
  match c.checks.find? (fun check => check.1) with
  | some check => .error (.config check.2)
  | none => .ok ()

/-- The settings that screening and the workers read. -/
def worker (c : FilterSettings) : FilterConfig where
  submitMaxConcurrency := c.submitMaxConcurrency
  submittedConfirmationTimeout := c.submittedConfirmationTimeout.asSecs
  riskModuleUnresponsiveTimeout := c.riskModuleUnresponsiveTimeout.asSecs
  totalRetryTimeout := c.totalRetryTimeout.asSecs
  terminalEntryRetention := c.terminalEntryRetention.asSecs
  maxEventBindingsPerTx := c.maxEventBindingsPerTx

/-- What an enabled filter needs. -/
structure Usable (c : FilterSettings) : Prop where
  url : ∃ ch ∈ c.rcsBaseUrl.toList, isWhitespace ch = false
  durations : ∀ d ∈ c.durations, 0 < d.nanos
  connect : c.connectTimeout.nanos ≤ c.requestTimeout.nanos
  request : c.requestTimeout.nanos < c.totalRetryTimeout.nanos
  retention : c.totalRetryTimeout.nanos < c.terminalEntryRetention.nanos
  backoff : c.retryInitialBackoff.nanos ≤ c.retryMaxBackoff.nanos
  concurrency : 1 ≤ c.submitMaxConcurrency ∧ c.submitMaxConcurrency ≤ maxSubmitConcurrency
  transfers : 1 ≤ c.maxNativeTransfersPerTx
  bindings : 1 ≤ c.maxEventBindingsPerTx

/-- **The checks of an enabled filter** pass exactly for a usable configuration. -/
theorem validate_ok {c : FilterSettings} (h : c.enabled = true) :
    c.validate = .ok () ↔ c.Usable := by
  have hnone : c.validate = .ok () ↔ ∀ check ∈ c.checks, check.1 = false := by
    unfold validate
    cases hfind : c.checks.find? (fun check => check.1) with
    | none =>
      have := List.find?_eq_none.mp hfind
      simpa using this
    | some check =>
      obtain ⟨hcheck, hmem⟩ := And.intro (List.find?_some hfind) (List.mem_of_find?_eq_some hfind)
      constructor
      · intro hok
        cases hok
      · intro hall
        rw [hall check hmem] at hcheck
        cases hcheck
  rw [hnone]
  simp only [checks, h, List.forall_mem_cons, List.not_mem_nil, false_imp_iff, implies_true,
    and_true, Bool.true_and]
  constructor
  · rintro ⟨h1, h2, h3, h4, h5, h6, h7, h8, h9⟩
    simp only [List.all_eq_false, List.any_eq_false, decide_eq_false_iff_not, Bool.or_eq_false_iff,
      Bool.not_eq_false', Bool.and_eq_true, decide_eq_true_eq, beq_eq_false_iff_ne, beq_iff_eq,
      Nat.not_le, Nat.not_lt, Bool.not_eq_true] at h1 h2 h3 h4 h5 h6 h7 h8 h9
    exact ⟨h1, fun d hd => Nat.pos_of_ne_zero (h3 d hd), h4, h5.2, h2, h6, h7,
      Nat.pos_of_ne_zero h8, Nat.pos_of_ne_zero h9⟩
  · rintro ⟨h1, h2, h3, h4, h5, h6, h7, h8, h9⟩
    simp only [List.all_eq_false, List.any_eq_false, decide_eq_false_iff_not, Bool.or_eq_false_iff,
      Bool.not_eq_false', Bool.and_eq_true, decide_eq_true_eq, beq_eq_false_iff_ne, beq_iff_eq,
      Nat.not_le, Nat.not_lt, Bool.not_eq_true]
    exact ⟨h1, h5, fun d hd => Nat.ne_of_gt (h2 d hd), h3, ⟨Nat.lt_of_le_of_lt h3 h4, h4⟩, h6, h7,
      Nat.ne_of_gt h8, Nat.ne_of_gt h9⟩

/-- The defaults pass, given a URL. -/
theorem default_usable : ({ default with enabled := true, rcsBaseUrl := "http://rcs" } :
    FilterSettings).Usable :=
  (validate_ok rfl).mp (by decide)

end FilterSettings

/-! ## The command line -/

/-- `RcsFilterArgs`. -/
structure RcsFilterArgs where
  enabled : Bool
  rcsBaseUrl : Option String
  connectTimeoutMs : UInt64
  requestTimeoutMs : UInt64
  retryInitialBackoffMs : UInt64
  retryMaxBackoffMs : UInt64
  batchWindowMs : UInt64
  submitMaxConcurrency : Nat
  submittedConfirmationTimeoutSeconds : UInt64
  riskModuleUnresponsiveTimeoutSeconds : UInt64
  totalRetryTimeoutSeconds : UInt64
  rulesVersionPollIntervalMs : UInt64
  terminalEntryRetentionSeconds : UInt64
  maxNativeTransfersPerTx : Nat
  maxEventBindingsPerTx : Nat

/-- The default values of the command line. -/
def RcsFilterArgs.default : RcsFilterArgs where
  enabled := false
  rcsBaseUrl := none
  connectTimeoutMs := 1000
  requestTimeoutMs := 3000
  retryInitialBackoffMs := 200
  retryMaxBackoffMs := 5000
  batchWindowMs := 200
  submitMaxConcurrency := 1
  submittedConfirmationTimeoutSeconds := 8
  riskModuleUnresponsiveTimeoutSeconds := 20
  totalRetryTimeoutSeconds := 90
  rulesVersionPollIntervalMs := 2000
  terminalEntryRetentionSeconds := 300
  maxNativeTransfersPerTx := 10000
  maxEventBindingsPerTx := 10000

/-- Why no configuration is made; a failed check is reported by its text. -/
inductive ArgsError where
  | message (text : String)
  | invalid (error : FilterError)

def RcsFilterArgs.settings (args : RcsFilterArgs) (url : String) : FilterSettings where
  enabled := true
  rcsBaseUrl := url
  connectTimeout := .fromMillis args.connectTimeoutMs
  requestTimeout := .fromMillis args.requestTimeoutMs
  retryInitialBackoff := .fromMillis args.retryInitialBackoffMs
  retryMaxBackoff := .fromMillis args.retryMaxBackoffMs
  batchWindow := .fromMillis args.batchWindowMs
  submitMaxConcurrency := args.submitMaxConcurrency
  submittedConfirmationTimeout := .fromSecs args.submittedConfirmationTimeoutSeconds
  riskModuleUnresponsiveTimeout := .fromSecs args.riskModuleUnresponsiveTimeoutSeconds
  totalRetryTimeout := .fromSecs args.totalRetryTimeoutSeconds
  rulesVersionPollInterval := .fromMillis args.rulesVersionPollIntervalMs
  terminalEntryRetention := .fromSecs args.terminalEntryRetentionSeconds
  maxNativeTransfersPerTx := args.maxNativeTransfersPerTx
  maxEventBindingsPerTx := args.maxEventBindingsPerTx

/-- `build_rcs_filter_config`; the two budgets are checked even for a filter that is switched
    off. -/
def buildRcsFilterConfig (args : RcsFilterArgs) : Except ArgsError (Option FilterSettings) :=
  if args.maxNativeTransfersPerTx = 0 then
    .error (.message "rcs-filter --rcs-filter.max-native-transfers-per-tx must be >= 1")
  else if args.maxEventBindingsPerTx = 0 then
    .error (.message "rcs-filter --rcs-filter.max-event-bindings-per-tx must be >= 1")
  else if args.enabled = false then .ok none
  else
    match args.rcsBaseUrl with
    | none =>
      .error (.message "rcs-filter enabled but --rcs-filter.rcs-base-url is missing")
    | some url =>
      match (args.settings url).validate with
      | .ok () => .ok (some (args.settings url))
      | .error e => .error (.invalid e)

/-- **A filter is only started with a usable configuration**, in which a tombstone is kept for more
    whole seconds than a transaction is retried. -/
theorem buildRcsFilterConfig_usable {args : RcsFilterArgs} {c : FilterSettings}
    (h : buildRcsFilterConfig args = .ok (some c)) :
    c.Usable ∧ c.worker.totalRetryTimeout < c.worker.terminalEntryRetention := by
  unfold buildRcsFilterConfig at h
  split at h
  · cases h
  · split at h
    · cases h
    · split at h
      · cases h
      · split at h
        · cases h
        · rename_i url _
          split at h
          · rename_i hok
            cases h
            have husable := (FilterSettings.validate_ok rfl).mp hok
            refine ⟨husable, ?_⟩
            have hretention : args.totalRetryTimeoutSeconds.toNat * 10 ^ 9 <
                args.terminalEntryRetentionSeconds.toNat * 10 ^ 9 := husable.retention
            show (Duration.fromSecs args.totalRetryTimeoutSeconds).asSecs <
              (Duration.fromSecs args.terminalEntryRetentionSeconds).asSecs
            rw [Duration.asSecs_fromSecs, Duration.asSecs_fromSecs]
            omega
          · cases h

section Sample

/-- The defaults, with the filter switched on. -/
def enabledArgs : RcsFilterArgs :=
  { RcsFilterArgs.default with enabled := true, rcsBaseUrl := some "http://rcs" }

def enabledSettings : FilterSettings := enabledArgs.settings "http://rcs"

theorem enabledArgs_build : buildRcsFilterConfig enabledArgs = .ok (some enabledSettings) := by
  have hvalid : (enabledArgs.settings "http://rcs").validate = .ok () := by decide
  have hurl : enabledArgs.rcsBaseUrl = some "http://rcs" := rfl
  unfold buildRcsFilterConfig
  rw [if_neg (by decide), if_neg (by decide), if_neg (by decide), hurl]
  dsimp only
  rw [hvalid]
  rfl

end Sample

end XLayerReth.RcsFilter
