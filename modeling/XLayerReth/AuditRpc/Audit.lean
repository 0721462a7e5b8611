import XLayerReth.RcsFilter.Matching

/-!
# The audit method

Model of `rpc/src/audit`: `xlayer_auditTransactions` executes deposit transactions one at a time
on the state of the chain tip and classifies them by the rules of the request.

* `buildDepositTx` — a deposit transaction from the decoded fields of a request.
* `verdictFor` — the verdict of one executed transaction.
* `executeLoop` — the execution of the built transactions, in order, until one is to be audited.
* `assembleResults` — the results in the order of the request.
* `auditTransactions` — the method.

The node (`Backend`) is a parameter: its head, its state, its EVM and the hash of a deposit.  A
panic of the source is an outcome (`AuditFailure`).
-/

set_option autoImplicit false

namespace XLayerReth.AuditRpc

open RcsFilter
open XLayerReth.Lib Lib.Digits

/-! ## Deposit transactions -/

/-- The decoded fields of a deposit, as they are requested. -/
structure DepositTxRequest where
  sourceHash : String
  fromAddr : String
  toAddr : Option String
  mint : String
  value : String
  gasLimit : Nat
  isSystemTransaction : Bool
  data : String

inductive DepositBuildError where
  | invalidSourceHash (text : String)
  | invalidFrom (text : String)
  | invalidTo (text : String)
  | mintOverflowsU128 (text : String)
  | invalidValue (text : String)
  | invalidData (text : String)
  deriving DecidableEq

/-- `TxDeposit`; a deposit without a recipient creates a contract. -/
structure TxDeposit where
  sourceHash : B256
  fromAddr : Address
  toAddr : Option Address
  mint : Nat
  value : Nat
  gasLimit : Nat
  isSystemTransaction : Bool
  input : List UInt8
  deriving DecidableEq

/-- A deposit with its hash; its signer is the sender that was requested. -/
structure RecoveredDeposit where
  deposit : TxDeposit
  txHash : B256
  deriving DecidableEq

def RecoveredDeposit.signer (tx : RecoveredDeposit) : Address := tx.deposit.fromAddr

/-- `u128::from_str`: decimal digits after an optional `+`, without overflow. -/
def U128.fromStr (s : String) : Option Nat :=
  let digits := match s.toList with
    | '+' :: rest => rest
    | cs => cs
  if digits = [] then none
  else (digits.mapM (digitIn 10)).bind
    (fun ds => if valueOf 10 ds < 2 ^ 128 then some (valueOf 10 ds) else none)

/-- Bytes from pairs of hexadecimal digits. -/
def hexBytes : List Char → Option (List UInt8)
  | [] => some []
  | [_] => none
  | a :: b :: rest =>
    match digitIn 16 a, digitIn 16 b, hexBytes rest with
    | some high, some low, some bytes => some (UInt8.ofNat (16 * high + low) :: bytes)
    | _, _, _ => none

/-- `hex_decode`: the prefix is stripped here and once more by the decoder. -/
def hexDecode (s : String) : Option (List UInt8) :=
  hexBytes (stripHexPrefix (stripHexPrefix s.toList))

/-- `build_deposit_tx`; `sealSlow` hashes a deposit. -/
def buildDepositTx (sealSlow : TxDeposit → B256) (req : DepositTxRequest) :
    Except DepositBuildError RecoveredDeposit :=
  match B256.fromStr req.sourceHash with
  | none => .error (.invalidSourceHash req.sourceHash)
  | some sourceHash =>
    match Address.fromStr req.fromAddr with
    | none => .error (.invalidFrom req.fromAddr)
    | some sender =>
      match req.toAddr.map (fun addr => (addr, Address.fromStr addr)) with
      | some (addr, none) => .error (.invalidTo addr)
      | toAddr =>
        match U128.fromStr req.mint with
        | none => .error (.mintOverflowsU128 req.mint)
        | some mint =>
          match U256.fromStr req.value.toList with
          | none => .error (.invalidValue req.value)
          | some value =>
            match hexDecode req.data with
            | none => .error (.invalidData req.data)
            | some input =>
              let deposit : TxDeposit := ⟨sourceHash, sender, toAddr.bind (·.2), mint, value,
                req.gasLimit, req.isSystemTransaction, input⟩
              .ok ⟨deposit, sealSlow deposit⟩

/-! ## Verdicts -/

inductive Verdict where
  | allow
  | deny
  | audit
  | unknown
  | malformed
  deriving DecidableEq, Repr

structure AuditResult where
  txHash : String
  sourceHash : String
  verdict : Verdict
  actions : Option Actions
  deriving DecidableEq

/-- `AuditResult::malformed`. -/
def AuditResult.malformed (sourceHash : String) : AuditResult := ⟨"", sourceHash, .malformed, none⟩

/-- `AuditResult::unknown`. -/
def AuditResult.unknown (sourceHash : String) : AuditResult := ⟨"", sourceHash, .unknown, none⟩

/-- `verdict_for`. -/
def verdictFor (abi : Abi) (req : DepositTxRequest) (sender : Address) (toAddr : Option Address)
    (txHash : B256) (value : Nat) (logs : List Log) (rules : RuleSet) : AuditResult :=
  let input : ScreenInput := ⟨txHash, sender, toAddr, 0, value, 0, logs⟩
  match evaluateChecked abi rules input defaultMaxEventBindingsPerTx with
  | .error _ => AuditResult.malformed req.sourceHash
  | .ok .allow => ⟨txHash.lowerHex, req.sourceHash, .allow, none⟩
  | .ok .deny => ⟨txHash.lowerHex, req.sourceHash, .deny, none⟩
  | .ok (.audit actions _) => ⟨txHash.lowerHex, req.sourceHash, .audit, some actions⟩

/-- `commit_and_continue`; `none` is its `unreachable!` arm. -/
def commitAndContinue : Verdict → Option (Bool × Bool)
  | .allow => some (true, true)
  | .deny => some (false, true)
  | .audit => some (false, false)
  | .malformed => some (false, true)
  | .unknown => none

/-- `known_allowed_result`. -/
def knownAllowedResult (txHash : B256) (sourceHash : String) : AuditResult :=
  ⟨txHash.lowerHex, sourceHash, .allow, none⟩

/-! ## The method -/

structure AuditTransactionsRequest where
  rules : List RawRule
  txs : List DepositTxRequest
  knownAllowed : List String

/-- An error response: its code, message and the rejected rules, if it has any. -/
structure RpcError where
  code : Int
  message : String
  data : Option (List RejectedRule)

/-- How a request fails: with an error response, or by a panic. -/
inductive AuditFailure where
  | rpc (error : RpcError)
  | unreachable
  | indexOutOfBounds

/-- The node that serves the method. -/
structure Backend (Db Changes Header EvmEnv : Type) where
  abi : Abi
  /-- `Sealable::seal_slow`: the hash of a deposit. -/
  sealSlow : TxDeposit → B256
  latestHeader : Except String (Option Header)
  evmEnv : Header → Except String EvmEnv
  /-- The state of the block of a header, if it can be opened. -/
  stateAt : Header → Except RpcError Db
  /-- `Evm::transact`: the logs and the state changes of a transaction. -/
  transact : EvmEnv → Db → RecoveredDeposit → Except RpcError (List Log × Changes)
  /-- `DatabaseCommit::commit`. -/
  commit : Db → Changes → Db

/-- The transactions that were built, their requests, and where each request went. -/
structure BuiltTxs where
  orderedTxs : List RecoveredDeposit
  orderedTxReqs : List DepositTxRequest
  built : List (Option Nat)

/-- One iteration of the build loop. -/
def buildStep (sealSlow : TxDeposit → B256) (b : BuiltTxs) (txReq : DepositTxRequest) : BuiltTxs :=
  match buildDepositTx sealSlow txReq with
  | .ok tx =>
    ⟨b.orderedTxs ++ [tx], b.orderedTxReqs ++ [txReq], b.built ++ [some b.orderedTxs.length]⟩
  | .error _ => { b with built := b.built ++ [none] }

/-- The overlay and the results so far. -/
structure Execution (Db : Type) where
  db : Db
  executed : List (Option AuditResult)
  /-- Every execution so far: the state it ran on and the transaction. -/
  calls : List (Db × RecoveredDeposit)

section

variable {Db Changes Header EvmEnv : Type}

/-- A result is stored in its slot. -/
def Execution.record (x : Execution Db) (execIdx : Nat) (result : AuditResult) :
    Except AuditFailure (Execution Db) :=
  if execIdx < x.executed.length then
    .ok { x with executed := x.executed.set execIdx (some result) }
  else .error .indexOutOfBounds

variable (B : Backend Db Changes Header EvmEnv)

/-- The execution loop, from the transaction of index `execIdx` on. -/
def executeLoop (env : EvmEnv) (rules : RuleSet) (knownAllowed : List String)
    (orderedTxReqs : List DepositTxRequest) :
    Nat → List RecoveredDeposit → Execution Db → Except AuditFailure (Execution Db)
  | _, [], x => .ok x
  | execIdx, tx :: rest, x =>
    match orderedTxReqs[execIdx]? with
    | none => .error .indexOutOfBounds
    | some txReq =>
      match B.transact env x.db tx with
      | .error error => .error (.rpc error)
      | .ok (logs, state) =>
        let called := { x with calls := x.calls ++ [(x.db, tx)] }
        if txReq.sourceHash ∈ knownAllowed then
          match ({ called with db := B.commit x.db state } : Execution Db).record execIdx
              (knownAllowedResult tx.txHash txReq.sourceHash) with
          | .error failure => .error failure
          | .ok next => executeLoop env rules knownAllowed orderedTxReqs (execIdx + 1) rest next
        else
          let result :=
            verdictFor B.abi txReq tx.signer tx.deposit.toAddr tx.txHash tx.deposit.value
            logs rules
          match commitAndContinue result.verdict with
          | none => .error .unreachable
          | some (commit, keepGoing) =>
            match ({ called with db := if commit then B.commit x.db state else x.db } :
                Execution Db).record execIdx result with
            | .error failure => .error failure
            | .ok next =>
              if keepGoing then
                executeLoop env rules knownAllowed orderedTxReqs (execIdx + 1) rest next
              else .ok next

/-- `assemble_results`: each result is taken out of its slot. -/
def assembleResults : List DepositTxRequest → List (Option Nat) → List (Option AuditResult) →
    Except AuditFailure (List AuditResult)
  | [], _, _ => .ok []
  | _ :: _, [], _ => .error .indexOutOfBounds
  | txReq :: txs, none :: built, executed =>
    (assembleResults txs built executed).map (AuditResult.malformed txReq.sourceHash :: ·)
  | txReq :: txs, some execIdx :: built, executed =>
    match executed[execIdx]? with
    | none => .error .indexOutOfBounds
    | some slot =>
      (assembleResults txs built (executed.set execIdx none)).map
        (slot.getD (AuditResult.unknown txReq.sourceHash) :: ·)

/-- The response, with the executions that were made for it. -/
structure Audited (Db : Type) where
  results : List AuditResult
  calls : List (Db × RecoveredDeposit)

/-- What runs with the state of the tip. -/
def auditBatch (env : EvmEnv) (tip : Db) (rules : RuleSet) (knownAllowed : List String)
    (txs : List DepositTxRequest) (b : BuiltTxs) : Except AuditFailure (Audited Db) :=
  match executeLoop B env rules knownAllowed b.orderedTxReqs 0 b.orderedTxs
      ⟨tip, b.orderedTxs.map (fun _ => none), []⟩ with
  | .error failure => .error failure
  | .ok x => (assembleResults txs b.built x.executed).map (fun results => ⟨results, x.calls⟩)

/-- `audit_transactions`. -/
def auditTransactions (req : AuditTransactionsRequest) : Except AuditFailure (Audited Db) :=
  let rules := loadRules B.abi 1 0 req.rules
  if rules.rejected ≠ [] then
    .error (.rpc ⟨-32602,
      toString rules.rejected.length ++ " rule(s) failed validation and were rejected",
      some rules.rejected⟩)
  else
    let b := req.txs.foldl (buildStep B.sealSlow) ⟨[], [], []⟩
    match B.latestHeader with
    | .error text => .error (.rpc ⟨-32000, text, none⟩)
    | .ok none => .error (.rpc ⟨-32000, "no latest header", none⟩)
    | .ok (some header) =>
      match B.evmEnv header with
      | .error text => .error (.rpc ⟨-32000, text, none⟩)
      | .ok env =>
        match B.stateAt header with
        | .error error => .error (.rpc error)
        | .ok tip => auditBatch B env tip rules req.knownAllowed req.txs b

end

end XLayerReth.AuditRpc
