import XLayerReth.RcsFilter.Matching

/-!
# Native-transfer capture

Model of `rcs_capture.rs`: the inspector that records, while a candidate transaction is
simulated, the real logs and the internal native-token movements in one ordered queue.

* `RcsInspector` — the state of the inspector.
* `Hook`, `RcsInspector.hook` — the callbacks of the EVM.  Every hook does nothing while the
  inspector is inactive.
* `startCapture`, `finishCapture`, `abortCapture` — the capture window.

The parts of the source compiled only for its tests are left out.
-/

set_option autoImplicit false

namespace XLayerReth.Builder

open RcsFilter

/-- A native amount. -/
abbrev U256 := BitVec 256

/-! ## Virtual logs -/

/-- `NATIVE_ASSET_ADDRESS`. -/
def nativeAssetAddress : Address := 0xEeeeeEeeeEeEeeEeEeEeeEEEeeeeEeeeeeeeEEeE

/-- The operation that moved the value. -/
inductive NativeTransferKind where
  | call
  | create
  | selfDestruct

/-- `transfer_topic0`: `keccak256("Transfer(address,address,uint256)")`. -/
def transferTopic0 : B256 :=
  0xddf252ad1be2c89b69c2b068fc378daa952ba7f163c4a11628f55a4df523b3ef

/-- `Address::into_word`: left-padded with zeros. -/
def intoWord (a : Address) : B256 := a.setWidth 256

/-- `to_be_bytes::<32>`. -/
def toBeBytes (v : U256) : List UInt8 :=
  (List.range 32).map (fun i => UInt8.ofNat (v.toNat / 256 ^ (31 - i)))

/-- `native_transfer_log`. -/
def nativeTransferLog (sender recipient : Address) (value : U256) : Log where
  address := nativeAssetAddress
  topics := [transferTopic0, intoWord sender, intoWord recipient]
  data := toBeBytes value

/-! ## The inspector -/

/-- One entry of the observation stream. -/
inductive QueuedLog where
  | real (log : Log)
  | virtual (log : Log)
  deriving DecidableEq

/-- `QueuedLog::into_log`. -/
def QueuedLog.intoLog : QueuedLog → Log
  | .real log => log
  | .virtual log => log

/-- `CaptureInvariantError`. -/
inductive CaptureInvariantError where
  | realLogMismatch (firstBadIndex observed expected : Nat)
  | createAddressMismatch (createIndex : Nat)
  deriving DecidableEq

/-- `CaptureOutcome`. -/
inductive CaptureOutcome where
  | passthrough
  | complete (logs : List Log)
  | limitExceeded (attempted limit : Nat)
  | invariantViolation (reason : CaptureInvariantError)
  deriving DecidableEq

structure RcsInspector where
  active : Bool
  queue : List QueuedLog
  checkpoints : List Nat
  observedCount : Nat
  overflowed : Bool
  limit : Nat
  createRecipients : List (Option Address)
  addressMismatchCreateIndex : Option Nat
  selfdestructJournalMark : Option Nat
  selfdestructWroteJournal : Bool

namespace RcsInspector

/-- `RcsInspector::new`. -/
def new (maxNativeTransfers : Nat) : RcsInspector where
  active := false
  queue := []
  checkpoints := []
  observedCount := 0
  overflowed := false
  limit := maxNativeTransfers
  createRecipients := []
  addressMismatchCreateIndex := none
  selfdestructJournalMark := none
  selfdestructWroteJournal := false

/-- `observe_native_transfer`: a candidate is counted, and recorded within the budget. -/
def observeNativeTransfer (s : RcsInspector) (sender recipient : Address) (value : U256)
    (_kind : NativeTransferKind) : RcsInspector :=
  if !s.active then s
  else if value = 0 ∨ sender = recipient then s
  else
    let s := { s with observedCount := s.observedCount + 1 }
    if s.observedCount > s.limit then { s with overflowed := true }
    else { s with queue := s.queue ++ [.virtual (nativeTransferLog sender recipient value)] }

/-- `record_call_observation`. -/
def recordCallObservation (s : RcsInspector) (transferValue : Option U256)
    (sender recipient : Address) : RcsInspector :=
  match transferValue with
  | some value => s.observeNativeTransfer sender recipient value .call
  | none => s

/-- `record_create_observation`. -/
def recordCreateObservation (s : RcsInspector) (value : U256) (caller createdAddress : Address) :
    RcsInspector :=
  s.observeNativeTransfer caller createdAddress value .create

/-- `record_real_log`. -/
def recordRealLog (s : RcsInspector) (log : Log) : RcsInspector :=
  if !s.active then s else { s with queue := s.queue ++ [.real log] }

/-- `push_checkpoint`; the top of the stack is the head. -/
def pushCheckpoint (s : RcsInspector) : RcsInspector :=
  if !s.active then s else { s with checkpoints := s.queue.length :: s.checkpoints }

/-- `pop_checkpoint`: on a revert the queue is truncated. -/
def popCheckpoint (s : RcsInspector) (reverted : Bool) : RcsInspector :=
  if !s.active then s
  else
    match s.checkpoints with
    | [] => s
    | checkpoint :: rest =>
      if reverted then { s with checkpoints := rest, queue := s.queue.take checkpoint }
      else { s with checkpoints := rest }

/-- `real_log_subsequence`. -/
def realLogSubsequence (s : RcsInspector) : List Log :=
  s.queue.filterMap (fun
    | .real log => some log
    | .virtual _ => none)

/-! ## The capture window -/

/-- `start_capture`. -/
def startCapture (s : RcsInspector) : RcsInspector :=
  { s with
    queue := []
    checkpoints := []
    createRecipients := []
    observedCount := 0
    overflowed := false
    addressMismatchCreateIndex := none
    selfdestructJournalMark := none
    selfdestructWroteJournal := false
    active := true }

/-- `abort_capture`. -/
def abortCapture (s : RcsInspector) : RcsInspector :=
  { s with
    queue := []
    checkpoints := []
    createRecipients := []
    observedCount := 0
    overflowed := false
    addressMismatchCreateIndex := none
    selfdestructJournalMark := none
    selfdestructWroteJournal := false
    active := false }

/-- The first divergence of the real logs from those of the execution result. -/
def realLogDivergence (real resultLogs : List Log) : Option (Nat × Nat × Nat) :=
  let firstDivergence := (real.zip resultLogs).findIdx? (fun p => p.1 ≠ p.2)
  if real.length ≠ resultLogs.length then
    some (firstDivergence.getD (min real.length resultLogs.length), real.length, resultLogs.length)
  else firstDivergence.map (fun i => (i, real.length, resultLogs.length))

/-- The outcome of `finish_capture`. -/
def outcome (s : RcsInspector) (resultLogs : List Log) : CaptureOutcome :=
  match s.addressMismatchCreateIndex with
  | some createIndex => .invariantViolation (.createAddressMismatch createIndex)
  | none =>
    if s.overflowed then .limitExceeded s.observedCount s.limit
    else
      match realLogDivergence s.realLogSubsequence resultLogs with
      | some (firstBadIndex, observed, expected) =>
        .invariantViolation (.realLogMismatch firstBadIndex observed expected)
      | none => .complete (s.queue.map QueuedLog.intoLog)

/-- `finish_capture`: the outcome, and then the clearing that every path goes through. -/
def finishCapture (s : RcsInspector) (resultLogs : List Log) : CaptureOutcome × RcsInspector :=
  (s.outcome resultLogs,
    { s with
      queue := []
      checkpoints := []
      createRecipients := []
      observedCount := 0
      overflowed := false
      addressMismatchCreateIndex := none
      selfdestructJournalMark := none
      selfdestructWroteJournal := false
      active := false })

end RcsInspector

/-! ## Hooks -/

/-- `CreateScheme`. -/
inductive CreateScheme where
  | create
  | create2
  | custom
  deriving DecidableEq

/-- `CreateInputs`, with its derivation of the created address from a nonce. -/
structure CreateInputs where
  caller : Address
  scheme : CreateScheme
  value : U256
  createdAddress : Nat → Address

/-- The address derived before the frame runs: from the caller's nonce for `CREATE` (zero if the
    journal does not hold the account), from nothing else for the other schemes. -/
def CreateInputs.derived (inputs : CreateInputs) (callerNonce : Option Nat) : Address :=
  match inputs.scheme with
  | .create => inputs.createdAddress (callerNonce.getD 0)
  | _ => inputs.createdAddress 0

/-- The callbacks, with what they read of the EVM. -/
inductive Hook where
  | log (log : Log)
  | call (transferValue : Option U256) (sender recipient : Address)
  | callEnd (isOk : Bool)
  | create (inputs : CreateInputs) (callerNonce : Option Nat)
  | createEnd (isOk : Bool) (address : Option Address)
  | step (selfdestruct : Bool) (journalLen : Nat)
  | stepEnd (journalLen : Nat)
  | selfdestruct (contract target : Address) (value : U256)

namespace RcsInspector

/-- `call`. -/
def call (s : RcsInspector) (transferValue : Option U256) (sender recipient : Address) :
    RcsInspector :=
  s.pushCheckpoint.recordCallObservation transferValue sender recipient

/-- `create`. -/
def create (s : RcsInspector) (inputs : CreateInputs) (callerNonce : Option Nat) : RcsInspector :=
  let s := s.pushCheckpoint
  if !s.active then s
  else
    let createdAddress := inputs.derived callerNonce
    let expected := if inputs.value ≠ 0 then some createdAddress else none
    { s with createRecipients := expected :: s.createRecipients }.recordCreateObservation
      inputs.value inputs.caller createdAddress

/-- `create_end`. -/
def createEnd (s : RcsInspector) (isOk : Bool) (address : Option Address) : RcsInspector :=
  if !s.active then s
  else
    let expected := s.createRecipients.head?
    let s := { s with createRecipients := s.createRecipients.tail }
    if !isOk then s.popCheckpoint true
    else
      match address with
      | none => s.popCheckpoint true
      | some a =>
        match expected with
        | some (some e) =>
          if e ≠ a then
            { s with addressMismatchCreateIndex := some s.createRecipients.length }.popCheckpoint
              true
          else s.popCheckpoint false
        | _ => s.popCheckpoint false

/-- `step`. -/
def step (s : RcsInspector) (selfdestruct : Bool) (journalLen : Nat) : RcsInspector :=
  if !selfdestruct then s
  else if !s.active then s
  else { s with selfdestructJournalMark := some journalLen }

/-- `step_end`. -/
def stepEnd (s : RcsInspector) (journalLen : Nat) : RcsInspector :=
  if !s.active then s
  else
    match s.selfdestructJournalMark with
    | some pre =>
      { s with
        selfdestructJournalMark := none
        selfdestructWroteJournal := decide (journalLen > pre) }
    | none => s

/-- `selfdestruct`. -/
def selfdestruct (s : RcsInspector) (contract target : Address) (value : U256) : RcsInspector :=
  if !s.active then s
  else
    let wrote := s.selfdestructWroteJournal
    let s := { s with selfdestructWroteJournal := false }
    if !wrote then s else s.observeNativeTransfer contract target value .selfDestruct

/-- One callback. -/
def hook (s : RcsInspector) : Hook → RcsInspector
  | .log log => s.recordRealLog log
  | .call transferValue sender recipient => s.call transferValue sender recipient
  | .callEnd isOk => s.popCheckpoint (!isOk)
  | .create inputs callerNonce => s.create inputs callerNonce
  | .createEnd isOk address => s.createEnd isOk address
  | .step selfdestruct journalLen => s.step selfdestruct journalLen
  | .stepEnd journalLen => s.stepEnd journalLen
  | .selfdestruct contract target value => s.selfdestruct contract target value

/-- A sequence of callbacks. -/
def hooks (s : RcsInspector) (hs : List Hook) : RcsInspector := hs.foldl hook s

end RcsInspector

end XLayerReth.Builder
