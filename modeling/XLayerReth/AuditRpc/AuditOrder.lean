import XLayerReth.AuditRpc.Audit
import XLayerReth.RcsFilter.MatchingSpec

/-!
# The order of an audited batch

What a batch of any length does, stated over the built transactions in the order of the request.

* `Item`, `builtItems` — the transactions that were built, each with its request.
* `resultOf`, `overlay`, `Stops` — the result of a transaction on a state, the state after some
  transactions, and what ends the execution.
* `trace` — the transactions that are executed, each with the state it is executed on;
  `executeLoop_eq` — the loop does exactly these.
* `resultsFrom` — the results in the order of the request; `assembleResults_eq`.

Principal result: `ordered_batch_audit`.
-/

set_option autoImplicit false

namespace XLayerReth.AuditRpc

open RcsFilter
open XLayerReth.Lib

/-! ## The built transactions -/

/-- A built transaction and its request. -/
abbrev Item := DepositTxRequest × RecoveredDeposit

/-- The transactions of a request that can be built, in order. -/
def builtItems (sealSlow : TxDeposit → B256) (txs : List DepositTxRequest) : List Item :=
  txs.filterMap (fun req =>
    match buildDepositTx sealSlow req with
    | .ok tx => some (req, tx)
    | .error _ => none)

/-- Where each request goes, when the next free slot is `k`. -/
def slots (sealSlow : TxDeposit → B256) : Nat → List DepositTxRequest → List (Option Nat)
  | _, [] => []
  | k, req :: txs =>
    match buildDepositTx sealSlow req with
    | .ok _ => some k :: slots sealSlow (k + 1) txs
    | .error _ => none :: slots sealSlow k txs

theorem builtItems_ok {sealSlow : TxDeposit → B256} {req : DepositTxRequest}
    {tx : RecoveredDeposit} (h : buildDepositTx sealSlow req = .ok tx)
    (txs : List DepositTxRequest) :
    builtItems sealSlow (req :: txs) = (req, tx) :: builtItems sealSlow txs := by
  unfold builtItems
  rw [List.filterMap_cons, h]

theorem builtItems_error {sealSlow : TxDeposit → B256} {req : DepositTxRequest}
    {e : DepositBuildError} (h : buildDepositTx sealSlow req = .error e)
    (txs : List DepositTxRequest) : builtItems sealSlow (req :: txs) = builtItems sealSlow txs := by
  unfold builtItems
  rw [List.filterMap_cons, h]

/-- The slot of a transaction that is built holds it. -/
theorem getElem?_builtItems {sealSlow : TxDeposit → B256} {txs : List DepositTxRequest} {i : Nat}
    {req : DepositTxRequest} {tx : RecoveredDeposit} (hi : txs[i]? = some req)
    (h : buildDepositTx sealSlow req = .ok tx) :
    (builtItems sealSlow txs)[(builtItems sealSlow (txs.take i)).length]? = some (req, tx) := by
  obtain ⟨hlt, rfl⟩ := List.getElem?_eq_some_iff.mp hi
  have hsplit : builtItems sealSlow txs = builtItems sealSlow (txs.take i) ++
      builtItems sealSlow (txs[i] :: txs.drop (i + 1)) := by
    rw [builtItems, builtItems, builtItems, ← List.filterMap_append,
      ← List.drop_eq_getElem_cons hlt, List.take_append_drop]
  rw [hsplit, builtItems_ok h, List.getElem?_append_right (Nat.le_refl _), Nat.sub_self]
  rfl

/-- **The build loop** keeps the built transactions and their requests in the order of the
    request. -/
theorem foldl_buildStep (sealSlow : TxDeposit → B256) : ∀ (txs : List DepositTxRequest)
    (b : BuiltTxs), txs.foldl (buildStep sealSlow) b =
      ⟨b.orderedTxs ++ (builtItems sealSlow txs).map Prod.snd,
        b.orderedTxReqs ++ (builtItems sealSlow txs).map Prod.fst,
        b.built ++ slots sealSlow b.orderedTxs.length txs⟩
  | [], b => by simp [builtItems, slots]
  | req :: txs, b => by
    rw [List.foldl_cons, foldl_buildStep sealSlow txs, buildStep, slots]
    cases hbuild : buildDepositTx sealSlow req with
    | ok tx => simp [builtItems_ok hbuild]
    | error e => simp [builtItems_error hbuild]

/-! ## Execution -/

section

variable {Db Changes Header EvmEnv : Type} (B : Backend Db Changes Header EvmEnv)
  (run : Db → RecoveredDeposit → List Log × Changes) (rules : RuleSet)
  (knownAllowed : List String)

/-- The result of a transaction that is executed on a state. -/
def resultOf (db : Db) (item : Item) : AuditResult :=
  if item.1.sourceHash ∈ knownAllowed then knownAllowedResult item.2.txHash item.1.sourceHash
  else verdictFor B.abi item.1 item.2.signer item.2.deposit.toAddr item.2.txHash
    item.2.deposit.value (run db item.2).1 rules

/-- The state after a transaction: its changes are kept if it is known to be allowed or classified
    as `Allow`. -/
def afterItem (db : Db) (item : Item) : Db :=
  if item.1.sourceHash ∈ knownAllowed ∨
      (resultOf B run rules knownAllowed db item).verdict = .allow then
    B.commit db (run db item.2).2
  else db

/-- The state after some transactions, in order. -/
def overlay (db : Db) (items : List Item) : Db :=
  items.foldl (afterItem B run rules knownAllowed) db

/-- A transaction that is not known to be allowed and is classified as `Audit`. -/
def Stops (db : Db) (item : Item) : Prop :=
  item.1.sourceHash ∉ knownAllowed ∧ (resultOf B run rules knownAllowed db item).verdict = .audit

instance (db : Db) (item : Item) : Decidable (Stops B run rules knownAllowed db item) :=
  inferInstanceAs (Decidable (_ ∧ _))

/-- The transactions that are executed, each with the state it is executed on. -/
def trace : Db → List Item → List (Db × Item)
  | _, [] => []
  | db, item :: items =>
    (db, item) :: if Stops B run rules knownAllowed db item then []
      else trace (afterItem B run rules knownAllowed db item) items

/-- The verdicts of an execution: every one of them has an arm. -/
theorem commitAndContinue_verdictFor (abi : Abi) (req : DepositTxRequest) (sender : Address)
    (toAddr : Option Address) (txHash : B256) (value : Nat) (logs : List Log) :
    let verdict := (verdictFor abi req sender toAddr txHash value logs rules).verdict
    commitAndContinue verdict = some (decide (verdict = .allow), decide (verdict ≠ .audit)) := by
  unfold verdictFor
  dsimp only
  cases evaluateChecked abi rules ⟨txHash, sender, toAddr, 0, value, 0, logs⟩
      defaultMaxEventBindingsPerTx with
  | error e => rfl
  | ok outcome => cases outcome <;> rfl

theorem verdictFor_sourceHash (abi : Abi) (req : DepositTxRequest) (sender : Address)
    (toAddr : Option Address) (txHash : B256) (value : Nat) (logs : List Log) :
    (verdictFor abi req sender toAddr txHash value logs rules).sourceHash = req.sourceHash := by
  unfold verdictFor
  dsimp only
  cases evaluateChecked abi rules ⟨txHash, sender, toAddr, 0, value, 0, logs⟩
      defaultMaxEventBindingsPerTx with
  | error e => rfl
  | ok outcome => cases outcome <;> rfl

theorem resultOf_sourceHash (db : Db) (item : Item) :
    (resultOf B run rules knownAllowed db item).sourceHash = item.1.sourceHash := by
  unfold resultOf
  split
  · rfl
  · exact verdictFor_sourceHash _ _ _ _ _ _ _ _

variable {B run rules knownAllowed}

/-- **One iteration** of the loop. -/
theorem executeLoop_cons {env : EvmEnv} (hevm : ∀ db tx, B.transact env db tx = .ok (run db tx))
    {reqs : List DepositTxRequest} {execIdx : Nat} {item : Item} {rest : List RecoveredDeposit}
    {x : Execution Db} (hreq : reqs[execIdx]? = some item.1)
    (hslot : execIdx < x.executed.length) :
    executeLoop B env rules knownAllowed reqs execIdx (item.2 :: rest) x =
      let next : Execution Db := ⟨afterItem B run rules knownAllowed x.db item,
        x.executed.set execIdx (some (resultOf B run rules knownAllowed x.db item)),
        x.calls ++ [(x.db, item.2)]⟩
      if Stops B run rules knownAllowed x.db item then .ok next
      else executeLoop B env rules knownAllowed reqs (execIdx + 1) rest next := by
  rw [executeLoop, hreq]
  dsimp only
  rw [hevm]
  dsimp only
  by_cases hknown : item.1.sourceHash ∈ knownAllowed
  · rw [if_pos hknown, Execution.record, if_pos hslot]
    have hstops : ¬ Stops B run rules knownAllowed x.db item := fun h => h.1 hknown
    rw [if_neg hstops, afterItem, if_pos (.inl hknown), resultOf, if_pos hknown]
  · rw [if_neg hknown, commitAndContinue_verdictFor]
    dsimp only
    rw [Execution.record, if_pos hslot]
    have hresult : resultOf B run rules knownAllowed x.db item =
        verdictFor B.abi item.1 item.2.signer item.2.deposit.toAddr item.2.txHash
          item.2.deposit.value (run x.db item.2).1 rules := if_neg hknown
    rw [← hresult]
    dsimp only
    have hafter : (if decide ((resultOf B run rules knownAllowed x.db item).verdict = .allow) = true
        then B.commit x.db (run x.db item.2).2 else x.db) =
          afterItem B run rules knownAllowed x.db item := by
      rw [afterItem]
      simp only [hknown, false_or, decide_eq_true_eq]
    rw [hafter]
    by_cases haudit : (resultOf B run rules knownAllowed x.db item).verdict = .audit
    · rw [if_pos (show Stops B run rules knownAllowed x.db item from ⟨hknown, haudit⟩),
        if_neg (by simp [haudit])]
    · rw [if_neg (fun h : Stops B run rules knownAllowed x.db item => haudit h.2),
        if_pos (by simp [haudit])]

variable (rules knownAllowed) in
/-- **The loop** executes the transactions of the trace, each on its state, and stores their
    results in the first slots. -/
theorem executeLoop_eq {env : EvmEnv} (hevm : ∀ db tx, B.transact env db tx = .ok (run db tx))
    (items : List Item) : ∀ (rest pre : List Item), items = pre ++ rest →
    ∀ (db : Db) (done : List (Option AuditResult)) (calls : List (Db × RecoveredDeposit)),
      done.length = pre.length →
      ∃ db', executeLoop B env rules knownAllowed (items.map Prod.fst) pre.length
          (rest.map Prod.snd) ⟨db, done ++ rest.map (fun _ => none), calls⟩ =
        .ok ⟨db', done ++ (trace B run rules knownAllowed db rest).map
            (fun t => some (resultOf B run rules knownAllowed t.1 t.2)) ++
              List.replicate (rest.length - (trace B run rules knownAllowed db rest).length) none,
          calls ++ (trace B run rules knownAllowed db rest).map (fun t => (t.1, t.2.2))⟩
  | [], pre, _, db, done, calls, _ => ⟨db, by simp [executeLoop, trace]⟩
  | item :: rest, pre, hitems, db, done, calls, hdone => by
    have hreq : (items.map Prod.fst)[pre.length]? = some item.1 := by
      rw [hitems]
      simp
    have hset : (done ++ (item :: rest).map (fun _ => (none : Option AuditResult))).set pre.length
        (some (resultOf B run rules knownAllowed db item)) =
          done ++ [some (resultOf B run rules knownAllowed db item)] ++
            rest.map (fun _ => none) := by
      rw [← hdone]
      simp
    rw [List.map_cons, executeLoop_cons hevm hreq (by simp [hdone])]
    dsimp only
    rw [hset, trace]
    by_cases hstops : Stops B run rules knownAllowed db item
    · rw [if_pos hstops, if_pos hstops]
      refine ⟨afterItem B run rules knownAllowed db item, ?_⟩
      simp [List.map_const']
    · rw [if_neg hstops, if_neg hstops]
      obtain ⟨db', hloop⟩ := executeLoop_eq hevm items rest (pre ++ [item]) (by simp [hitems])
        (afterItem B run rules knownAllowed db item)
        (done ++ [some (resultOf B run rules knownAllowed db item)]) (calls ++ [(db, item.2)])
        (by simp [hdone])
      refine ⟨db', ?_⟩
      rw [List.length_append, List.length_singleton] at hloop
      rw [hloop]
      simp

/-! ## The trace -/

theorem length_trace_le : ∀ (db : Db) (items : List Item),
    (trace B run rules knownAllowed db items).length ≤ items.length
  | _, [] => Nat.le_refl 0
  | db, item :: items => by
    have ih := length_trace_le (afterItem B run rules knownAllowed db item) items
    rw [trace]
    split
    · simp
    · simpa using ih

/-- Each transaction of the trace is executed on the state that the ones before it leave. -/
theorem getElem?_trace : ∀ (items : List Item) (db : Db) (j : Nat) (item : Item),
    items[j]? = some item → j < (trace B run rules knownAllowed db items).length →
      (trace B run rules knownAllowed db items)[j]? =
        some (overlay B run rules knownAllowed db (items.take j), item)
  | [], _, _, _, h, _ => by simp at h
  | first :: items, db, 0, item, h, _ => by
    cases h
    rfl
  | first :: items, db, j + 1, item, h, hlt => by
    rw [trace] at hlt ⊢
    by_cases hstops : Stops B run rules knownAllowed db first
    · rw [if_pos hstops] at hlt
      simp at hlt
    · rw [if_neg hstops, List.length_cons] at hlt
      rw [if_neg hstops, List.getElem?_cons_succ]
      exact getElem?_trace items _ j item (by simpa using h) (Nat.lt_of_succ_lt_succ hlt)

/-- Where the transactions of the trace stand among all of them. -/
theorem getElem?_trace_eq (items : List Item) (db : Db) (j : Nat) :
    (trace B run rules knownAllowed db items)[j]? =
      if j < (trace B run rules knownAllowed db items).length then
        items[j]?.map (fun item => (overlay B run rules knownAllowed db (items.take j), item))
      else none := by
  by_cases hlt : j < (trace B run rules knownAllowed db items).length
  · have hitem := List.getElem?_eq_getElem (Nat.lt_of_lt_of_le hlt (length_trace_le db items))
    rw [if_pos hlt, getElem?_trace _ db j _ hitem hlt, hitem]
    rfl
  · rw [if_neg hlt, List.getElem?_eq_none (Nat.le_of_not_lt hlt)]

/-- So many transactions are executed: all of them, or those up to the first that is not known to
    be allowed and is classified as `Audit` on the state that the ones before it leave. -/
structure ExecutesTo (B : Backend Db Changes Header EvmEnv)
    (run : Db → RecoveredDeposit → List Log × Changes) (rules : RuleSet)
    (knownAllowed : List String) (db : Db) (items : List Item) (m : Nat) : Prop where
  le : m ≤ items.length
  first : ∀ j item, items[j]? = some item →
    Stops B run rules knownAllowed (overlay B run rules knownAllowed db (items.take j)) item →
      m ≤ j + 1
  stopped : m < items.length → ∃ j item, m = j + 1 ∧ items[j]? = some item ∧
    Stops B run rules knownAllowed (overlay B run rules knownAllowed db (items.take j)) item

theorem executesTo_trace : ∀ (items : List Item) (db : Db),
    ExecutesTo B run rules knownAllowed db items (trace B run rules knownAllowed db items).length
  | [], db => ⟨Nat.le_refl 0, by simp, by simp [trace]⟩
  | item :: items, db => by
    have ih := executesTo_trace items (afterItem B run rules knownAllowed db item)
    refine ⟨length_trace_le db _, ?_, ?_⟩
    · intro j other hj hstops
      rw [trace]
      by_cases hnow : Stops B run rules knownAllowed db item
      · rw [if_pos hnow]
        exact Nat.succ_le_succ (Nat.zero_le j)
      · rw [if_neg hnow, List.length_cons]
        cases j with
        | zero =>
          cases hj
          exact absurd hstops hnow
        | succ j => exact Nat.succ_le_succ (ih.first j other (by simpa using hj) hstops)
    · intro hlt
      rw [trace] at hlt ⊢
      by_cases hnow : Stops B run rules knownAllowed db item
      · rw [if_pos hnow]
        exact ⟨0, item, rfl, rfl, hnow⟩
      · rw [if_neg hnow, List.length_cons] at hlt ⊢
        obtain ⟨j, other, hm, hj, hstops⟩ := ih.stopped (Nat.lt_of_succ_lt_succ hlt)
        exact ⟨j + 1, other, congrArg (· + 1) hm, by simpa using hj, hstops⟩

/-! ## The results -/

/-- A deposit with this source hash and this mint. -/
def depositRequest (sourceHash mint : String) : DepositTxRequest :=
  ⟨sourceHash, "0x0404040404040404040404040404040404040404",
    some "0x0303030303030303030303030303030303030303", mint, "1000000000000000000", 100000,
      false, "0x"⟩

/-- The result of a request whose slot holds this, if it has one. -/
def slotResult (sealSlow : TxDeposit → B256) (req : DepositTxRequest) (slot : Option AuditResult) :
    AuditResult :=
  match buildDepositTx sealSlow req with
  | .ok _ => slot.getD (AuditResult.unknown req.sourceHash)
  | .error _ => AuditResult.malformed req.sourceHash

/-- **The results** are those of the slots: a slot that is emptied is not read again. -/
theorem assembleResults_eq (sealSlow : TxDeposit → B256) : ∀ (txs : List DepositTxRequest) (k : Nat)
    (executed : List (Option AuditResult)),
    k + (builtItems sealSlow txs).length ≤ executed.length →
      ∃ results, assembleResults txs (slots sealSlow k txs) executed = .ok results ∧
        results.length = txs.length ∧
        ∀ i req, txs[i]? = some req → results[i]? = some (slotResult sealSlow req
          (executed[k + (builtItems sealSlow (txs.take i)).length]?).join)
  | [], _, _, _ => ⟨[], rfl, rfl, by simp⟩
  | req :: txs, k, executed, hle => by
    rw [slots]
    cases hbuild : buildDepositTx sealSlow req with
    | error e =>
      rw [builtItems_error hbuild] at hle
      obtain ⟨results, hok, hlength, hresults⟩ := assembleResults_eq sealSlow txs k executed hle
      refine ⟨AuditResult.malformed req.sourceHash :: results, ?_, by simp [hlength], ?_⟩
      · dsimp only
        rw [assembleResults, hok]
        rfl
      · intro i other hi
        cases i with
        | zero =>
          cases hi
          rw [slotResult, hbuild]
          rfl
        | succ i =>
          rw [List.take_succ_cons, builtItems_error hbuild, List.getElem?_cons_succ]
          exact hresults i other (by simpa using hi)
    | ok tx =>
      rw [builtItems_ok hbuild, List.length_cons] at hle
      obtain ⟨slot, hslot⟩ : ∃ slot, executed[k]? = some slot :=
        ⟨_, List.getElem?_eq_getElem (by omega)⟩
      obtain ⟨results, hok, hlength, hresults⟩ := assembleResults_eq sealSlow txs (k + 1)
        (executed.set k none) (by rw [List.length_set]; omega)
      refine ⟨slot.getD (AuditResult.unknown req.sourceHash) :: results, ?_, by simp [hlength], ?_⟩
      · dsimp only
        rw [assembleResults, hslot]
        dsimp only
        rw [hok]
        rfl
      · intro i other hi
        cases i with
        | zero =>
          cases hi
          rw [slotResult, hbuild]
          simp [builtItems, hslot]
        | succ i =>
          have hrest := hresults i other (by simpa using hi)
          rw [List.getElem?_set_ne (by omega)] at hrest
          rw [List.take_succ_cons, builtItems_ok hbuild, List.getElem?_cons_succ, hrest,
            List.length_cons, Nat.add_right_comm, Nat.add_assoc]

example : (assembleResults [depositRequest "a" "0", depositRequest "b" "x", depositRequest "c" "0",
      depositRequest "d" "0"] [some 0, none, some 1, some 2]
      [some (knownAllowedResult 1 "a"), some (AuditResult.malformed "c"), none]).toOption.map
        (List.map (fun result => (result.sourceHash, result.verdict))) =
    some [("a", .allow), ("b", .malformed), ("c", .malformed), ("d", .unknown)] := by decide

variable (B run rules knownAllowed)

/-- The response to a batch, when so many of the transactions that are built are executed. -/
structure BatchAudited (tip : Db) (txs : List DepositTxRequest) (m : Nat) (out : Audited Db) :
    Prop where
  executes : ExecutesTo B run rules knownAllowed tip (builtItems B.sealSlow txs) m
  /-- In order, each on the state of the tip with the changes that were kept before it. -/
  calls : ∀ j, out.calls[j]? = if j < m then
      (builtItems B.sealSlow txs)[j]?.map (fun item =>
        (overlay B run rules knownAllowed tip ((builtItems B.sealSlow txs).take j), item.2))
    else none
  /-- One result for each transaction, in the order of the request. -/
  sourceHashes : out.results.map AuditResult.sourceHash = txs.map DepositTxRequest.sourceHash
  malformed : ∀ (i : Nat) req e, txs[i]? = some req → buildDepositTx B.sealSlow req = .error e →
    out.results[i]? = some (AuditResult.malformed req.sourceHash)
  /-- The transaction in slot `j`. -/
  built : ∀ (i : Nat) req tx, txs[i]? = some req → buildDepositTx B.sealSlow req = .ok tx →
    ∃ j, (builtItems B.sealSlow txs)[j]? = some (req, tx) ∧
      j = (builtItems B.sealSlow (txs.take i)).length ∧
      out.results[i]? = some (if j < m then resultOf B run rules knownAllowed
          (overlay B run rules knownAllowed tip ((builtItems B.sealSlow txs).take j)) (req, tx)
        else AuditResult.unknown req.sourceHash)

variable {B run rules knownAllowed}

/-- What a slot holds when the loop has ended. -/
theorem join_getElem?_executed (db : Db) (items : List Item) (j n : Nat) :
    (((trace B run rules knownAllowed db items).map
        (fun t => some (resultOf B run rules knownAllowed t.1 t.2)) ++
          List.replicate n none)[j]?).join =
      ((trace B run rules knownAllowed db items)[j]?).map
        (fun t => resultOf B run rules knownAllowed t.1 t.2) := by
  by_cases hlt : j < (trace B run rules knownAllowed db items).length
  · rw [List.getElem?_append_left (by simpa using hlt), List.getElem?_map,
      List.getElem?_eq_getElem hlt]
    rfl
  · rw [List.getElem?_append_right (by simpa using hlt), List.getElem?_replicate,
      List.getElem?_eq_none (Nat.le_of_not_lt hlt)]
    split
    · rfl
    · rfl

/-- Each result names the transaction that was requested at its place. -/
theorem BatchAudited.of_results {tip : Db} {txs : List DepositTxRequest} {m : Nat}
    {out : Audited Db}
    (hexec : ExecutesTo B run rules knownAllowed tip (builtItems B.sealSlow txs) m)
    (hcalls : ∀ j, out.calls[j]? = if j < m then
        (builtItems B.sealSlow txs)[j]?.map (fun item =>
          (overlay B run rules knownAllowed tip ((builtItems B.sealSlow txs).take j), item.2))
      else none)
    (hlength : out.results.length = txs.length)
    (hresults : ∀ (i : Nat) req, txs[i]? = some req →
      ∃ slot, out.results[i]? = some (slotResult B.sealSlow req slot) ∧
        ∀ tx, buildDepositTx B.sealSlow req = .ok tx →
          slot = if (builtItems B.sealSlow (txs.take i)).length < m then
              some (resultOf B run rules knownAllowed (overlay B run rules knownAllowed tip
                ((builtItems B.sealSlow txs).take (builtItems B.sealSlow (txs.take i)).length))
                (req, tx))
            else none) :
    BatchAudited B run rules knownAllowed tip txs m out := by
  have hmalformed : ∀ (i : Nat) req e, txs[i]? = some req →
      buildDepositTx B.sealSlow req = .error e →
      out.results[i]? = some (AuditResult.malformed req.sourceHash) := by
    intro i req e hi hbuild
    obtain ⟨slot, hslot, -⟩ := hresults i req hi
    rw [hslot, slotResult, hbuild]
  have hbuilt : ∀ (i : Nat) req tx, txs[i]? = some req → buildDepositTx B.sealSlow req = .ok tx →
      out.results[i]? = some (if (builtItems B.sealSlow (txs.take i)).length < m then
          resultOf B run rules knownAllowed (overlay B run rules knownAllowed tip
            ((builtItems B.sealSlow txs).take (builtItems B.sealSlow (txs.take i)).length))
              (req, tx)
        else AuditResult.unknown req.sourceHash) := by
    intro i req tx hi hbuild
    obtain ⟨slot, hslot, hof⟩ := hresults i req hi
    rw [hslot, slotResult, hbuild, hof tx hbuild]
    by_cases hlt : (builtItems B.sealSlow (txs.take i)).length < m
    · rw [if_pos hlt, if_pos hlt]
      rfl
    · rw [if_neg hlt, if_neg hlt]
      rfl
  refine ⟨hexec, hcalls, ?_, hmalformed, ?_⟩
  · apply List.ext_getElem?
    intro i
    rw [List.getElem?_map, List.getElem?_map]
    cases hi : txs[i]? with
    | none =>
      have hnone : out.results[i]? = none :=
        List.getElem?_eq_none (hlength ▸ List.getElem?_eq_none_iff.mp hi)
      rw [hnone]
      rfl
    | some req =>
      cases hbuild : buildDepositTx B.sealSlow req with
      | error e =>
        rw [hmalformed i req e hi hbuild]
        rfl
      | ok tx =>
        rw [hbuilt i req tx hi hbuild]
        split
        · exact congrArg some (resultOf_sourceHash _ _ _ _ _ _)
        · rfl
  · intro i req tx hi hbuild
    exact ⟨_, getElem?_builtItems hi hbuild, rfl, hbuilt i req tx hi hbuild⟩

/-- **A batch** is built, executed and assembled without a failure. -/
theorem auditBatch_audited {env : EvmEnv} (hevm : ∀ db tx, B.transact env db tx = .ok (run db tx))
    (tip : Db) (txs : List DepositTxRequest) :
    ∃ m out, auditBatch B env tip rules knownAllowed txs
        (txs.foldl (buildStep B.sealSlow) ⟨[], [], []⟩) = .ok out ∧
      BatchAudited B run rules knownAllowed tip txs m out := by
  obtain ⟨db', hloop⟩ := executeLoop_eq rules knownAllowed hevm (builtItems B.sealSlow txs)
    (builtItems B.sealSlow txs) [] rfl tip [] [] rfl
  have hexec : ExecutesTo B run rules knownAllowed tip (builtItems B.sealSlow txs)
      (trace B run rules knownAllowed tip (builtItems B.sealSlow txs)).length :=
    executesTo_trace _ tip
  obtain ⟨results, hok, hlength, hresults⟩ := assembleResults_eq B.sealSlow txs 0
    ((trace B run rules knownAllowed tip (builtItems B.sealSlow txs)).map
        (fun t => some (resultOf B run rules knownAllowed t.1 t.2)) ++
      List.replicate ((builtItems B.sealSlow txs).length -
        (trace B run rules knownAllowed tip (builtItems B.sealSlow txs)).length) none)
    (by simp; omega)
  refine ⟨_, ⟨results, (trace B run rules knownAllowed tip (builtItems B.sealSlow txs)).map
    (fun t => (t.1, t.2.2))⟩, ?_, BatchAudited.of_results hexec ?_ hlength ?_⟩
  · rw [foldl_buildStep, auditBatch]
    simp only [List.nil_append, List.length_nil, List.map_map, Function.comp_def] at hloop ⊢
    rw [hloop]
    dsimp only
    rw [hok]
    rfl
  · intro j
    rw [List.getElem?_map, getElem?_trace_eq]
    split
    · rw [Option.map_map]
      rfl
    · rfl
  · intro i req hi
    have hresult := hresults i req hi
    rw [Nat.zero_add, join_getElem?_executed, getElem?_trace_eq] at hresult
    refine ⟨_, hresult, ?_⟩
    intro tx hbuild
    split
    · rw [getElem?_builtItems hi hbuild]
      rfl
    · rfl

end

/-- **Ordered batch audit.**  Whenever the rules of a request are all accepted, the tip of the chain
    can be read and the EVM does not fail, the method responds: with one result for each
    transaction, in the order of the request, `Malformed` for those that cannot be built; the
    others are executed in order, each on the tip with the changes of those before it that were
    known to be allowed or classified as `Allow`, up to the first one that is not known to be
    allowed and is classified as `Audit`, and those after it are `Unknown`. -/
theorem ordered_batch_audit {Db Changes Header EvmEnv : Type}
    (B : Backend Db Changes Header EvmEnv) (req : AuditTransactionsRequest)
    (hrules : (loadRules B.abi 1 0 req.rules).rejected = []) (header : Header)
    (hheader : B.latestHeader = .ok (some header)) (env : EvmEnv) (henv : B.evmEnv header = .ok env)
    (tip : Db) (hstate : B.stateAt header = .ok tip)
    (run : Db → RecoveredDeposit → List Log × Changes)
    (hevm : ∀ db tx, B.transact env db tx = .ok (run db tx)) :
    ∃ m out, auditTransactions B req = .ok out ∧
      BatchAudited B run (loadRules B.abi 1 0 req.rules) req.knownAllowed tip req.txs m out := by
  obtain ⟨m, out, hbatch, haudited⟩ := auditBatch_audited hevm tip req.txs
  refine ⟨m, out, ?_, haudited⟩
  rw [auditTransactions, if_neg (not_not_intro hrules), hheader]
  dsimp only
  rw [henv]
  dsimp only
  rw [hstate]
  exact hbatch

/-- A node whose state counts the changes that were kept, and on which every transaction makes a
    transfer. -/
def transferBackend : Backend Nat Unit Unit Unit where
  abi := transferAbi
  sealSlow tx := tx.sourceHash
  latestHeader := .ok (some ())
  evmEnv _ := .ok ()
  stateAt _ := .ok 0
  transact _ _ _ := .ok (transferInput.logs, ())
  commit db _ := db + 1

/-- A source hash that ends in this digit. -/
def sourceHashOf (digit : Char) : String := String.ofList (List.replicate 63 '0' ++ [digit])

/-- Three deposits of which the first is known to be allowed, and one between them whose mint
    overflows. -/
def mixedRequest : AuditTransactionsRequest where
  rules := [transferRule]
  txs := [depositRequest (sourceHashOf '1') "0",
    depositRequest (sourceHashOf '2') "340282366920938463463374607431768211456",
    depositRequest (sourceHashOf '3') "0", depositRequest (sourceHashOf '4') "0"]
  knownAllowed := [sourceHashOf '1']

theorem ordered_batch_audit_mixed :
    ∃ m out, auditTransactions transferBackend mixedRequest = .ok out ∧
      BatchAudited transferBackend (fun _ _ => (transferInput.logs, ()))
        (loadRules transferAbi 1 0 mixedRequest.rules) mixedRequest.knownAllowed 0
        mixedRequest.txs m out :=
  ordered_batch_audit transferBackend mixedRequest (by rfl) () rfl () rfl 0 rfl
    (fun _ _ => (transferInput.logs, ())) (fun _ _ => rfl)

end XLayerReth.AuditRpc
