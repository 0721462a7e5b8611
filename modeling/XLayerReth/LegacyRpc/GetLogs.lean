import Mathlib.Data.Prod.Basic
import XLayerReth.LegacyRpc.Rpc

/-!
# `eth_getLogs`

Model of `legacy-rpc/src/get_logs.rs`.

* `parseEthGetLogsParams` — a block hash, or a range of block numbers in which every bound that is
  no number stands for `u64::MAX`.
* `getLogsRoute` — which backends a request goes to, and the two requests of a range that crosses
  the cutoff.
* `mergeEthGetLogsResponses` — the logs of the two responses, sorted by block number.

Principal result: `hybrid_getLogs_hides_nothing_iff`.
-/

set_option autoImplicit false

namespace XLayerReth.LegacyRpc

open RcsFilter Lib

/-! ## Parameters -/

/-- `parse_block_number_string`. -/
def parseBlockNumberString (s : String) : Option Nat :=
  if s = "latest" ∨ s = "pending" ∨ s = "safe" ∨ s = "finalized" then some u64Max
  else if s = "earliest" then some 0
  else
    match strip0x s.toList with
    | some digits => u64FromStrRadix 16 digits
    | none => none

inductive GetLogsParams where
  | range (fromBlock toBlock : Nat)
  | blockHash (hash : String)
  deriving DecidableEq

/-- The fields of a filter object. -/
abbrev FilterObject := List (String × Json)

/-- The bound in a field of a filter; everything else than a number or `earliest` reads as
    `u64::MAX`. -/
def blockBound (filter : FilterObject) (field : String) : Nat :=
  (((OrdMap.lookup field filter).bind Json.asStr).bind parseBlockNumberString).getD u64Max

/-- `parse_eth_get_logs_params`. -/
def parseEthGetLogsParams (params : RawValue) : Option GetLogsParams :=
  match params.decode with
  | .ok (.arr (.obj filter :: _)) =>
    match (OrdMap.lookup "blockHash" filter).bind Json.asStr with
    | some hash => if isValid32BytesString hash then some (.blockHash hash) else none
    | none =>
      let fromBlock := blockBound filter "fromBlock"
      let toBlock := blockBound filter "toBlock"
      if fromBlock > toBlock then none else some (.range fromBlock toBlock)
  | _ => none

/-- `Map::insert`. -/
def insertField (filter : FilterObject) (field : String) (v : Json) : FilterObject :=
  OrdMap.alterList field (fun _ => v) filter

/-- A bound of a filter is replaced, if there is one to replace it with. -/
def setBound (filter : FilterObject) (field : String) : Option Nat → FilterObject
  | some n => insertField filter field (.str (hexString n))
  | none => filter

/-- `modify_eth_get_logs_params`. -/
def modifyEthGetLogsParams (req : Request) (fromBlock toBlock : Option Nat) : Option Request :=
  match req.params.map RawValue.decode with
  | some (.ok (.arr (.obj filter :: rest))) =>
    let filter' := setBound (setBound filter "fromBlock" fromBlock) "toBlock" toBlock
    some { req with params := some (.json (.arr (.obj filter' :: rest))) }
  | _ => none

/-! ## Merging -/

/-- The block number of a log, 0 if there is none to read. -/
def logBlock (log : Json) : Nat := ((log.get? "blockNumber").bind heightOf).getD 0

/-- The logs of a decoded response, none if the result is no array. -/
def resultLogs (response : Json) : List Json := ((response.get? "result").bind Json.asArray).getD []

/-- `sort_by` on the block numbers, which is stable. -/
def sortLogs (logs : List Json) : List Json :=
  logs.mergeSort (fun a b => decide (logBlock a ≤ logBlock b))

/-- `merge_eth_get_logs_responses`. -/
def mergeEthGetLogsResponses (legacyResponse localResponse : MethodResponse) (id : Id) :
    MethodResponse :=
  match legacyResponse.decode with
  | .error _ => legacyResponse
  | .ok legacyParsed =>
    match localResponse.decode with
    | .error _ => localResponse
    | .ok localParsed =>
      ⟨id, .success (.json (.arr (sortLogs (resultLogs legacyParsed ++ resultLogs localParsed))))⟩

/-! ## Routing -/

/-- `u64` subtraction. -/
def u64Sub (a b : Nat) : Nat := (a + 2 ^ 64 - b) % 2 ^ 64

/-- Where an `eth_getLogs` request goes. -/
inductive GetLogsRoute where
  | missingParams
  | legacy
  | localNode
  | hybrid (legacyReq localReq : Request)
  | byHash (hash : String)

/-- The routing of `handle_eth_get_logs`. -/
def getLogsRoute (cutoff : Nat) (req : Request) : GetLogsRoute :=
  match req.params with
  | none => .missingParams
  | some params =>
    match parseEthGetLogsParams params with
    | some (.range fromBlock toBlock) =>
      if toBlock < cutoff then .legacy
      else if fromBlock ≥ cutoff then .localNode
      else
        let legacyReq := modifyEthGetLogsParams req (some fromBlock) (some (u64Sub cutoff 1))
        let localReq := modifyEthGetLogsParams req (some cutoff) (some toBlock)
        match legacyReq, localReq with
        | some legacyReq, some localReq => .hybrid legacyReq localReq
        | _, _ => .localNode
    | some (.blockHash hash) => .byHash hash
    | none => .localNode

/-- `handle_eth_get_logs`. -/
def handleEthGetLogs (cutoff : Nat) (legacy : LegacyCall → LegacyReply)
    (inner : Request → MethodResponse) (req : Request) : MethodResponse :=
  match getLogsRoute cutoff req with
  | .missingParams => errorResponse req.id invalidParamsCode "Missing required params"
  | .legacy => forwardToLegacy legacy req
  | .localNode => inner req
  | .hybrid legacyReq localReq =>
    mergeEthGetLogsResponses (forwardToLegacy legacy legacyReq) (inner localReq) req.id
  | .byHash hash =>
    match callEthGetBlockByHash inner hash false with
    | .ok (some _) => inner req
    | .ok none => forwardToLegacy legacy req
    | .error _ => forwardToLegacy legacy req

/-! ## Ranges that cross the cutoff -/

/-- A request for the logs of a range that crosses the cutoff. -/
structure Crosses (cutoff : Nat) (req : Request) (filter : FilterObject) (rest : List Json) :
    Prop where
  params : req.params = some (.json (.arr (.obj filter :: rest)))
  byRange : (OrdMap.lookup "blockHash" filter).bind Json.asStr = none
  below : blockBound filter "fromBlock" < cutoff
  above : cutoff ≤ blockBound filter "toBlock"

/-- One of the two requests for a part of a range. -/
def partRequest (req : Request) (filter : FilterObject) (rest : List Json)
    (fromBlock toBlock : Nat) : Request :=
  { req with
    params := some (.json (.arr (.obj (setBound (setBound filter "fromBlock" (some fromBlock))
      "toBlock" (some toBlock)) :: rest))) }

theorem modify_eq {req : Request} {filter : FilterObject} {rest : List Json}
    (h : req.params = some (.json (.arr (.obj filter :: rest)))) (fromBlock toBlock : Nat) :
    modifyEthGetLogsParams req (some fromBlock) (some toBlock) =
      some (partRequest req filter rest fromBlock toBlock) := by
  unfold modifyEthGetLogsParams
  rw [h]
  rfl

/-- The route of a request with a filter object that names no block hash. -/
theorem getLogsRoute_range {cutoff : Nat} {req : Request} {filter : FilterObject}
    {rest : List Json} (hp : req.params = some (.json (.arr (.obj filter :: rest))))
    (hh : (OrdMap.lookup "blockHash" filter).bind Json.asStr = none) :
    getLogsRoute cutoff req =
      if blockBound filter "fromBlock" > blockBound filter "toBlock" then .localNode
      else if blockBound filter "toBlock" < cutoff then .legacy
      else if blockBound filter "fromBlock" ≥ cutoff then .localNode
      else .hybrid (partRequest req filter rest (blockBound filter "fromBlock") (u64Sub cutoff 1))
        (partRequest req filter rest cutoff (blockBound filter "toBlock")) := by
  unfold getLogsRoute
  rw [hp]
  simp only [parseEthGetLogsParams, RawValue.decode, hh, modify_eq hp]
  by_cases hgt : blockBound filter "fromBlock" > blockBound filter "toBlock"
  · rw [if_pos hgt, if_pos hgt]
  · rw [if_neg hgt, if_neg hgt]

theorem getLogsRoute_crosses {cutoff : Nat} {req : Request} {filter : FilterObject}
    {rest : List Json} (h : Crosses cutoff req filter rest) :
    getLogsRoute cutoff req =
      .hybrid (partRequest req filter rest (blockBound filter "fromBlock") (u64Sub cutoff 1))
        (partRequest req filter rest cutoff (blockBound filter "toBlock")) := by
  obtain ⟨hp, hh, hlo, hhi⟩ := h
  rw [getLogsRoute_range hp hh, if_neg (by omega), if_neg (by omega), if_neg (by omega)]

/-! ## The merged logs -/

theorem sortLogs_perm (logs : List Json) : (sortLogs logs).Perm logs := List.mergeSort_perm _ _

section Order

variable (key : Json → Nat)

theorem keyLe_trans (a b c : Json) : decide (key a ≤ key b) = true →
    decide (key b ≤ key c) = true → decide (key a ≤ key c) = true := by
  simp only [decide_eq_true_eq]
  exact Nat.le_trans

theorem keyLe_total (a b : Json) : (decide (key a ≤ key b) || decide (key b ≤ key a)) = true := by
  simp only [Bool.or_eq_true, decide_eq_true_eq]
  exact Nat.le_total _ _

end Order

theorem sortLogs_sorted (logs : List Json) :
    (sortLogs logs).Pairwise (fun a b => logBlock a ≤ logBlock b) := by
  have h := List.pairwise_mergeSort (keyLe_trans logBlock) (keyLe_total logBlock) logs
  exact h.imp (fun hab => by simpa using hab)

/-- **Stability**: the logs of one block keep their order. -/
theorem sortLogs_block (logs : List Json) (n : Nat) :
    (sortLogs logs).filter (fun log => logBlock log = n) =
      logs.filter (fun log => logBlock log = n) := by
  have hsub : (logs.filter (fun log => logBlock log = n)).Sublist (sortLogs logs) := by
    apply List.sublist_mergeSort (keyLe_trans logBlock) (keyLe_total logBlock) ?_
      List.filter_sublist
    rw [List.pairwise_iff_forall_sublist]
    intro a b hab
    have ha := List.mem_filter.mp (hab.subset (by simp : a ∈ [a, b]))
    have hb := List.mem_filter.mp (hab.subset (by simp : b ∈ [a, b]))
    simp only [decide_eq_true_eq] at ha hb ⊢
    omega
  have hfilter := hsub.filter (fun log => decide (logBlock log = n))
  rw [List.filter_filter] at hfilter
  simp only [Bool.and_self] at hfilter
  exact (hfilter.eq_of_length ((sortLogs_perm logs).filter _).length_eq.symm).symm

/-- A successful response whose result is an array of logs. -/
def ArrayResult (r : MethodResponse) (logs : List Json) : Prop :=
  r.payload = .success (.json (.arr logs))

theorem decode_arrayResult {r : MethodResponse} {logs : List Json} (h : ArrayResult r logs) :
    ∃ j, r.decode = .ok j ∧ resultLogs j = logs := by
  obtain ⟨id, payload⟩ := r
  cases h
  obtain ⟨j, hj, hres⟩ := decode_success id (.arr logs)
  exact ⟨j, hj, by rw [resultLogs, hres]; rfl⟩

/-- A response that cannot be decoded is a success: errors always can. -/
theorem isSuccess_of_decode_error {r : MethodResponse} {e : String} (h : r.decode = .error e) :
    r.isSuccess = true := by
  obtain ⟨id, payload⟩ := r
  cases payload with
  | success result => rfl
  | error err => cases h

/-- **The merged response is a success whatever the two responses are.** -/
theorem merge_isSuccess (legacyResponse localResponse : MethodResponse) (id : Id) :
    (mergeEthGetLogsResponses legacyResponse localResponse id).isSuccess = true := by
  unfold mergeEthGetLogsResponses
  split
  · rename_i e he
    exact isSuccess_of_decode_error he
  · split
    · rename_i e he
      exact isSuccess_of_decode_error he
    · rfl

theorem merge_arrays {legacyResponse localResponse : MethodResponse}
    {legacyLogs localLogs : List Json}
    (hl : ArrayResult legacyResponse legacyLogs) (hc : ArrayResult localResponse localLogs)
    (id : Id) :
    ArrayResult (mergeEthGetLogsResponses legacyResponse localResponse id)
      (sortLogs (legacyLogs ++ localLogs)) := by
  obtain ⟨j, hj, hjl⟩ := decode_arrayResult hl
  obtain ⟨k, hk, hkl⟩ := decode_arrayResult hc
  unfold mergeEthGetLogsResponses
  rw [hj, hk]
  dsimp only
  rw [hjl, hkl]
  rfl

/-! ## What a hybrid query may hide -/

/-- A success is the two arrays merged by block number, and an error of either side is an
    error. -/
structure HidesNothing (legacyResponse localResponse response : MethodResponse) : Prop where
  merged : response.isSuccess = true → ∃ legacyLogs localLogs logs,
    ArrayResult legacyResponse legacyLogs ∧ ArrayResult localResponse localLogs ∧
    ArrayResult response logs ∧ logs.Perm (legacyLogs ++ localLogs) ∧
    logs.Pairwise (fun a b => logBlock a ≤ logBlock b) ∧
    ∀ n, logs.filter (fun log => logBlock log = n) =
      (legacyLogs ++ localLogs).filter (fun log => logBlock log = n)
  failed : legacyResponse.isSuccess = false ∨ localResponse.isSuccess = false →
    response.isSuccess = false

theorem isSuccess_of_arrayResult {r : MethodResponse} {logs : List Json} (h : ArrayResult r logs) :
    r.isSuccess = true := by
  rw [MethodResponse.isSuccess, h]

/-- **When a hybrid `eth_getLogs` hides no failure**: exactly when both backends answer with an
    array, for every filter whose range crosses the cutoff and every pair of answers. -/
theorem hybrid_getLogs_hides_nothing_iff (cutoff : Nat) (legacy : LegacyCall → LegacyReply)
    (inner : Request → MethodResponse) (req : Request) (filter : FilterObject) (rest : List Json)
    (h : Crosses cutoff req filter rest) :
    let legacyResponse := forwardToLegacy legacy
      (partRequest req filter rest (blockBound filter "fromBlock") (u64Sub cutoff 1))
    let localResponse := inner (partRequest req filter rest cutoff (blockBound filter "toBlock"))
    HidesNothing legacyResponse localResponse (handleEthGetLogs cutoff legacy inner req) ↔
      (∃ logs, ArrayResult legacyResponse logs) ∧ ∃ logs, ArrayResult localResponse logs := by
  intro legacyResponse localResponse
  have hhandle : handleEthGetLogs cutoff legacy inner req =
      mergeEthGetLogsResponses legacyResponse localResponse req.id := by
    unfold handleEthGetLogs
    rw [getLogsRoute_crosses h]
  rw [hhandle]
  constructor
  · intro hn
    obtain ⟨legacyLogs, localLogs, -, hl, hc, -⟩ := hn.merged (merge_isSuccess _ _ _)
    exact ⟨⟨legacyLogs, hl⟩, ⟨localLogs, hc⟩⟩
  · rintro ⟨⟨legacyLogs, hl⟩, ⟨localLogs, hc⟩⟩
    refine ⟨fun _ => ?_, fun hf => ?_⟩
    · exact ⟨legacyLogs, localLogs, _, hl, hc, merge_arrays hl hc req.id, sortLogs_perm _,
        sortLogs_sorted _, sortLogs_block _⟩
    · rw [isSuccess_of_arrayResult hl, isSuccess_of_arrayResult hc] at hf
      simp at hf

/-- A filter for the blocks 1 to 100, in a request for its logs. -/
def hundredFilter : FilterObject := [("fromBlock", .str "0x1"), ("toBlock", .str "0x64")]

def hundredRequest : Request := ⟨"eth_getLogs", some (.json (.arr [.obj hundredFilter])), .number 7⟩

theorem hundredRequest_crosses : Crosses 50 hundredRequest hundredFilter [] :=
  ⟨rfl, by decide, by decide, by decide⟩

/-- A local node with one log in block 64. -/
def oneLog : Request → MethodResponse := fun req =>
  ⟨req.id, .success (.json (.arr [.obj [("blockNumber", .str "0x40")]]))⟩

theorem hybrid_getLogs_both_answer :
    HidesNothing
      (forwardToLegacy (fun _ => .fields (some (.json (.arr []))) none)
        (partRequest hundredRequest hundredFilter [] (blockBound hundredFilter "fromBlock")
          (u64Sub 50 1)))
      (oneLog (partRequest hundredRequest hundredFilter [] 50 (blockBound hundredFilter "toBlock")))
      (handleEthGetLogs 50 (fun _ => .fields (some (.json (.arr []))) none) oneLog
        hundredRequest) :=
  (hybrid_getLogs_hides_nothing_iff 50 (fun _ => .fields (some (.json (.arr []))) none) oneLog
    hundredRequest hundredFilter [] hundredRequest_crosses).mpr ⟨⟨_, rfl⟩, ⟨_, rfl⟩⟩

/-- The legacy endpoint cannot be reached: the caller gets the logs of the local node alone, as a
    success. -/
theorem hybrid_getLogs_legacy_down :
    Crosses 50 hundredRequest hundredFilter [] ∧
    (forwardToLegacy (fun _ => .sendError "connection refused")
      (partRequest hundredRequest hundredFilter [] (blockBound hundredFilter "fromBlock")
        (u64Sub 50 1))).isSuccess = false ∧
    ¬ HidesNothing
      (forwardToLegacy (fun _ => .sendError "connection refused")
        (partRequest hundredRequest hundredFilter [] (blockBound hundredFilter "fromBlock")
          (u64Sub 50 1)))
      (oneLog (partRequest hundredRequest hundredFilter [] 50 (blockBound hundredFilter "toBlock")))
      (handleEthGetLogs 50 (fun _ => .sendError "connection refused") oneLog hundredRequest) := by
  refine ⟨hundredRequest_crosses, rfl, fun hn => ?_⟩
  have hfailed := hn.failed (.inl rfl)
  unfold handleEthGetLogs at hfailed
  rw [getLogsRoute_crosses hundredRequest_crosses] at hfailed
  dsimp only at hfailed
  rw [merge_isSuccess] at hfailed
  cases hfailed

end XLayerReth.LegacyRpc
