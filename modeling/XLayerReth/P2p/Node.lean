import XLayerReth.Lib.Runs
import XLayerReth.P2p.Outgoing

/-!
# The p2p node

Model of the event loop of `Node::run` over the live connections and the outgoing streams.

* `Node`, `Event`, `step` — the state, the events of the loop and what each of them does.
* `Reached` — every connected peer has, for every supported protocol, a stream on a live connection.
* `LeavesConnected` — a connection closes while another one to the same peer is live.

A connection event carries the id of the connection, but streams are kept for each peer: the loop
opens streams on the first connection to a peer and drops all of them when any connection to that
peer closes.

Principal results: `run_inv` (the streams that are kept are always on live connections) and
`broadcasts_reach_iff` (broadcasts reach every connected peer throughout a run exactly when no
connection closes while the peer has another one).
-/

set_option autoImplicit false

namespace XLayerReth.P2p

open Lib StreamsHandler

variable {P R C : Type} [DecidableEq P]

/-! ## The event loop -/

/-- The live connections, as the swarm knows them, and the outgoing streams. -/
structure Node (P R C : Type) where
  live : List (P × C)
  handler : StreamsHandler P R C

def Node.new : Node P R C := ⟨[], Table.empty⟩

/-- The peer has at least one live connection. -/
def Node.Connected (n : Node P R C) (peer : P) : Prop := ∃ c, (peer, c) ∈ n.live

inductive Event (P R C : Type) where
  /-- `opened` is the connection on which `open_stream` opens the stream of a protocol. -/
  | connectionEstablished (peer : P) (connection : C) (opened : R → C)
  | connectionClosed (peer : P) (connection : C)
  /-- Disconnected known peers are dialed again. -/
  | retryTick
  | broadcast (protocol : R) (payload : Except String String) (polling : Polling P C)
      (sendOk : C → Bool)

/-! ## What is kept, and what a broadcast reaches -/

/-- A peer with an entry has every stream, and every stream is on a live connection of its peer. -/
structure Inv (protocols : List R) (n : Node P R C) : Prop where
  opened : ∀ peer, n.handler.hasPeer peer = true → ∀ q ∈ protocols,
    (n.handler.stream? peer q).isSome
  live : ∀ peer q c, n.handler.stream? peer q = some c → (peer, c) ∈ n.live

theorem inv_new (protocols : List R) : Inv protocols (Node.new : Node P R C) where
  opened _ h := by cases h
  live _ _ _ h := by cases h

/-- Each connected peer has, for every supported protocol, a stream on a live connection. -/
def Reached (protocols : List R) (n : Node P R C) : Prop :=
  ∀ peer, n.Connected peer → ∀ q ∈ protocols, ∃ c, n.handler.stream? peer q = some c ∧
    (peer, c) ∈ n.live

theorem reached_of_hasPeer {protocols : List R} {n : Node P R C} (hinv : Inv protocols n)
    (h : ∀ peer, n.Connected peer → n.handler.hasPeer peer = true) : Reached protocols n := by
  intro peer hpeer q hq
  obtain ⟨c, hc⟩ := Option.isSome_iff_exists.mp (hinv.opened peer (h peer hpeer) q hq)
  exact ⟨c, hc, hinv.live peer q c hc⟩

variable [DecidableEq R]

/-- Every broadcast goes through and is sent exactly once to each connected peer. -/
def BroadcastsOnce (protocols : List R) (n : Node P R C) : Prop :=
  ∀ q ∈ protocols, ∀ (text : String) (polling : Polling P C) (sendOk : C → Bool),
    (∀ x ∈ n.live, sendOk x.2 = true) →
    ∃ h' sent, broadcastMessage n.handler q (.ok text) polling sendOk = .done h' sent ∧
      ∀ peer, n.Connected peer → (sent.filter (fun x => x.1 = peer)).length = 1

theorem broadcastsOnce_of_reached {protocols : List R} {n : Node P R C} (h : Reached protocols n) :
    BroadcastsOnce protocols n := by
  intro q hq text polling sendOk hsend
  obtain ⟨h', sent, hdone, -, -, hsent⟩ := broadcastMessage_spec n.handler q text polling sendOk
  refine ⟨h', sent, hdone, fun peer hpeer => ?_⟩
  obtain ⟨c, hc, hlive⟩ := h peer hpeer q hq
  rw [hsent, hc, Option.filter_some_pos (hsend _ hlive)]
  rfl

/-! ## The steps of the loop -/

/-- Open one stream for each protocol, unless the peer already has an entry. -/
def openStreams (protocols : List R) (peer : P) (opened : R → C) (h : StreamsHandler P R C) :
    StreamsHandler P R C :=
  if h.hasPeer peer then h
  else protocols.foldl (fun h protocol => h.insertPeerAndStream peer protocol (opened protocol)) h

theorem hasPeer_foldl_insert (peer : P) (opened : R → C) (k : P) :
    ∀ (protocols : List R) (h : StreamsHandler P R C),
      (protocols.foldl (fun h q => h.insertPeerAndStream peer q (opened q)) h).hasPeer k =
        (h.hasPeer k || (decide (k = peer) && decide (protocols ≠ [])))
  | [], h => by simp
  | q :: protocols, h => by
    rw [List.foldl_cons, hasPeer_foldl_insert peer opened k protocols, hasPeer_insertPeerAndStream]
    by_cases hk : k = peer <;> simp [hk]

theorem stream?_foldl_insert (peer : P) (opened : R → C) (k : P) (q : R) :
    ∀ (protocols : List R) (h : StreamsHandler P R C),
      (protocols.foldl (fun h q => h.insertPeerAndStream peer q (opened q)) h).stream? k q =
        if k = peer ∧ q ∈ protocols then some (opened q) else h.stream? k q
  | [], h => by simp
  | q' :: protocols, h => by
    rw [List.foldl_cons, stream?_foldl_insert peer opened k q protocols,
      stream?_insertPeerAndStream]
    by_cases hk : k = peer
    · by_cases hq : q = q'
      · subst hq
        by_cases hmem : q ∈ protocols <;> simp [hk, hmem]
      · simp [hk, hq]
    · simp [hk]

/-- The handler after a broadcast; an error is only logged. -/
def afterBroadcast (h : StreamsHandler P R C) : Outcome P R C → Option (StreamsHandler P R C)
  | .panicked _ => none
  | .failed _ => some h
  | .done h' _ => some h'

variable [DecidableEq C]

/-- One iteration of the loop; `none` when the event cannot happen, or when the loop panics.
Streams open on a live connection of the peer, and sends on live connections succeed. -/
def step (protocols : List R) (n : Node P R C) : Event P R C → Option (Node P R C)
  | .connectionEstablished peer connection opened =>
    let live := (peer, connection) :: n.live
    if connection ∉ n.live.map Prod.snd ∧
        ∀ protocol ∈ protocols, (peer, opened protocol) ∈ live then
      some ⟨live, openStreams protocols peer opened n.handler⟩
    else none
  | .connectionClosed peer connection =>
    if (peer, connection) ∈ n.live then
      some ⟨n.live.erase (peer, connection), n.handler.removePeer peer⟩
    else none
  | .retryTick => some n
  | .broadcast protocol payload polling sendOk =>
    if protocol ∈ protocols ∧ ∀ x ∈ n.live, sendOk x.2 = true then
      (afterBroadcast n.handler (broadcastMessage n.handler protocol payload polling sendOk)).map
        (fun h => { n with handler := h })
    else none

/-- The states of a run. -/
def run (protocols : List R) (events : List (Event P R C)) : Option (Node P R C) :=
  runFrom (step protocols) Node.new events

/-- A broadcast step keeps the entries and, since sends on live connections succeed, the streams. -/
theorem step_broadcast {protocols : List R} {n n' : Node P R C} (hinv : Inv protocols n)
    {protocol : R} {payload : Except String String} {polling : Polling P C} {sendOk : C → Bool}
    (h : step protocols n (.broadcast protocol payload polling sendOk) = some n') :
    n'.live = n.live ∧ (∀ k, n'.handler.hasPeer k = n.handler.hasPeer k) ∧
      ∀ k q, n'.handler.stream? k q = n.handler.stream? k q := by
  simp only [step] at h
  split at h
  · rename_i hguard
    cases payload with
    | error e =>
      simp only [broadcastMessage, afterBroadcast, Option.map_some, Option.some.injEq] at h
      subst h
      exact ⟨rfl, fun _ => rfl, fun _ _ => rfl⟩
    | ok text =>
      obtain ⟨h', sent, hdone, hhas, hstream, -⟩ :=
        broadcastMessage_spec n.handler protocol text polling sendOk
      rw [hdone] at h
      simp only [afterBroadcast, Option.map_some, Option.some.injEq] at h
      subst h
      refine ⟨rfl, hhas, fun k q => ?_⟩
      show h'.stream? k q = n.handler.stream? k q
      rw [hstream]
      split
      · cases hs : n.handler.stream? k q with
        | none => rfl
        | some c => rw [Option.filter_some_pos (hguard.2 _ (hinv.live k q c hs))]
      · rfl
  · cases h

theorem step_established {protocols : List R} {n n' : Node P R C} {peer : P} {connection : C}
    {opened : R → C}
    (h : step protocols n (.connectionEstablished peer connection opened) = some n') :
    connection ∉ n.live.map Prod.snd ∧ n'.live = (peer, connection) :: n.live ∧
      (∀ q ∈ protocols, (peer, opened q) ∈ n'.live) ∧
      (∀ k, n'.handler.hasPeer k =
        (n.handler.hasPeer k || (decide (k = peer) && decide (protocols ≠ [])))) ∧
      ∀ k q, n'.handler.stream? k q =
        if k = peer ∧ q ∈ protocols ∧ n.handler.hasPeer peer = false then some (opened q)
        else n.handler.stream? k q := by
  simp only [step] at h
  split at h
  · rename_i hguard
    cases h
    refine ⟨hguard.1, rfl, hguard.2, fun k => ?_, fun k q => ?_⟩
    · show (openStreams protocols peer opened n.handler).hasPeer k = _
      unfold openStreams
      by_cases hhas : n.handler.hasPeer peer = true
      · by_cases hk : k = peer
        · subst hk
          simp [hhas]
        · simp [hhas, hk]
      · rw [if_neg hhas, hasPeer_foldl_insert]
    · show (openStreams protocols peer opened n.handler).stream? k q = _
      unfold openStreams
      by_cases hhas : n.handler.hasPeer peer = true
      · simp [hhas]
      · rw [if_neg hhas, stream?_foldl_insert]
        simp [hhas]
  · cases h

theorem step_closed {protocols : List R} {n n' : Node P R C} {peer : P} {connection : C}
    (h : step protocols n (.connectionClosed peer connection) = some n') :
    (peer, connection) ∈ n.live ∧ n'.live = n.live.erase (peer, connection) ∧
      n'.handler = n.handler.removePeer peer := by
  simp only [step] at h
  split at h
  · rename_i hmem
    cases h
    exact ⟨hmem, rfl, rfl⟩
  · cases h

/-- Every event keeps the invariant, closing one of several connections included: the streams of
the peer go with it. -/
theorem step_inv {protocols : List R} {n n' : Node P R C} {e : Event P R C} (hinv : Inv protocols n)
    (h : step protocols n e = some n') : Inv protocols n' := by
  cases e with
  | connectionEstablished peer connection opened =>
    obtain ⟨-, hlive, hopened, hhas, hstream⟩ := step_established h
    refine ⟨fun k hk q hq => ?_, fun k q c hs => ?_⟩
    · rw [hstream]
      split
      · rfl
      · rename_i hne
        apply hinv.opened k _ q hq
        rw [hhas] at hk
        by_cases hkp : k = peer
        · subst hkp
          by_contra hno
          exact hne ⟨rfl, hq, by simpa using hno⟩
        · simpa [hkp] using hk
    · rw [hstream] at hs
      split at hs
      · rename_i hpos
        cases hs
        rw [hpos.1]
        exact hopened q hpos.2.1
      · rw [hlive]
        exact List.mem_cons_of_mem _ (hinv.live k q c hs)
  | connectionClosed peer connection =>
    obtain ⟨-, hlive, hhandler⟩ := step_closed h
    refine ⟨fun k hk q hq => ?_, fun k q c hs => ?_⟩
    · rw [hhandler, hasPeer_removePeer, Bool.and_eq_true, decide_eq_true_eq] at hk
      rw [hhandler, stream?_removePeer, if_neg hk.2]
      exact hinv.opened k hk.1 q hq
    · rw [hhandler, stream?_removePeer] at hs
      split at hs
      · cases hs
      · rename_i hne
        rw [hlive, List.mem_erase_of_ne (fun heq => hne (congrArg Prod.fst heq))]
        exact hinv.live k q c hs
  | retryTick =>
    cases h
    exact hinv
  | broadcast protocol payload polling sendOk =>
    obtain ⟨hlive, hhas, hstream⟩ := step_broadcast hinv h
    refine ⟨fun k hk q hq => ?_, fun k q c hs => ?_⟩
    · rw [hstream]
      exact hinv.opened k (hhas k ▸ hk) q hq
    · rw [hlive]
      exact hinv.live k q c (hstream k q ▸ hs)

/-- **Kept streams are live, in every reachable state.** -/
theorem run_inv {protocols : List R} {events : List (Event P R C)} {n : Node P R C}
    (h : run protocols events = some n) : Inv protocols n :=
  runFrom_induction (fun _ n => Inv protocols n) (inv_new protocols)
    (fun _ _ _ _ _ hinv hstep => step_inv hinv hstep) events n h

/-- The event closes one connection to a peer that has another one. -/
def LeavesConnected (n : Node P R C) : Event P R C → Prop
  | .connectionClosed peer connection => ∃ c, (peer, c) ∈ n.live.erase (peer, connection)
  | _ => False

/-- After such an event the peer is connected and has no stream. -/
theorem not_reached_of_leavesConnected {protocols : List R} (hne : protocols ≠ [])
    {n n' : Node P R C}
    {e : Event P R C} (h : step protocols n e = some n') (hleaves : LeavesConnected n e) :
    ¬ Reached protocols n' := by
  intro hreached
  cases e with
  | connectionClosed peer connection =>
    obtain ⟨-, hlive, hhandler⟩ := step_closed h
    obtain ⟨c, hc⟩ := hleaves
    obtain ⟨q, hq⟩ := List.exists_mem_of_ne_nil protocols hne
    obtain ⟨c', hs, -⟩ := hreached peer ⟨c, by rwa [hlive]⟩ q hq
    rw [hhandler, stream?_removePeer, if_pos rfl] at hs
    cases hs
  | _ => exact hleaves

/-- Any other event leaves every connected peer with an entry. -/
theorem step_hasPeer {protocols : List R} (hne : protocols ≠ []) {n n' : Node P R C}
    {e : Event P R C}
    (hinv : Inv protocols n) (hall : ∀ peer, n.Connected peer → n.handler.hasPeer peer = true)
    (h : step protocols n e = some n') (hleaves : ¬ LeavesConnected n e) :
    ∀ peer, n'.Connected peer → n'.handler.hasPeer peer = true := by
  intro k hk
  cases e with
  | connectionEstablished peer connection opened =>
    obtain ⟨-, hlive, -, hhas, -⟩ := step_established h
    rw [hhas]
    obtain ⟨c, hc⟩ := hk
    rw [hlive] at hc
    rcases List.mem_cons.mp hc with heq | hc
    · have hkp : k = peer := congrArg Prod.fst heq
      simp [hkp, hne]
    · rw [hall k ⟨c, hc⟩]
      rfl
  | connectionClosed peer connection =>
    obtain ⟨-, hlive, hhandler⟩ := step_closed h
    obtain ⟨c, hc⟩ := hk
    rw [hlive] at hc
    have hkp : k ≠ peer := by
      rintro rfl
      exact hleaves ⟨c, hc⟩
    rw [hhandler, hasPeer_removePeer, hall k ⟨c, List.mem_of_mem_erase hc⟩]
    simp [hkp]
  | retryTick =>
    cases h
    exact hall k hk
  | broadcast protocol payload polling sendOk =>
    obtain ⟨hlive, hhas, -⟩ := step_broadcast hinv h
    obtain ⟨c, hc⟩ := hk
    rw [hhas]
    exact hall k ⟨c, hlive ▸ hc⟩

/-! ## Whole runs -/

/-- With a protocol, every connected peer has its streams throughout a run exactly when no event
leaves a peer connected without them. -/
theorem reached_iff {protocols : List R} (hne : protocols ≠ []) {events : List (Event P R C)}
    {n : Node P R C} (hrun : run protocols events = some n) :
    (∀ pre m, pre <+: events → run protocols pre = some m → Reached protocols m) ↔
      ∀ pre e m, pre ++ [e] <+: events → run protocols pre = some m → ¬ LeavesConnected m e := by
  -- the invariant: every connected peer has an entry
  refine runFrom_safe_iff (I := fun m : Node P R C =>
    Inv protocols m ∧ ∀ peer, m.Connected peer → m.handler.hasPeer peer = true) ?_ ?_ ?_ ?_ hrun
  · refine ⟨inv_new protocols, fun peer hpeer => ?_⟩
    obtain ⟨c, hc⟩ := hpeer
    cases hc
  · intro m hm
    exact reached_of_hasPeer hm.1 hm.2
  · intro m e m' hm hleaves hstep
    exact ⟨step_inv hm.1 hstep, step_hasPeer hne hm.1 hm.2 hstep hleaves⟩
  · intro m e m' hm hleaves hstep
    exact not_reached_of_leavesConnected hne hstep (not_not.mp hleaves)

/-- **Broadcasts reach every connected peer throughout a run exactly when no connection closes while
its peer has another one.**  In every state of the run each connected peer has a stream on a live
connection for every supported protocol, each broadcast is sent to it exactly once, and no `expect`
of `broadcast_message` is reached, if and only if each `ConnectionClosed` of the run closes the last
connection to its peer (or the node supports no protocol). -/
theorem broadcasts_reach_iff (protocols : List R) (events : List (Event P R C)) (n : Node P R C)
    (hrun : run protocols events = some n) :
    (∀ pre m, pre <+: events → run protocols pre = some m →
      Reached protocols m ∧ BroadcastsOnce protocols m ∧
        ∀ q payload polling sendOk message,
          broadcastMessage m.handler q payload polling sendOk ≠ .panicked message) ↔
    (protocols = [] ∨
      ∀ pre e m, pre ++ [e] <+: events → run protocols pre = some m → ¬ LeavesConnected m e) := by
  constructor
  · intro h
    by_cases hne : protocols = []
    · exact .inl hne
    · exact .inr ((reached_iff hne hrun).mp (fun pre m hpre hm => (h pre m hpre hm).1))
  · intro h pre m hpre hm
    have hreached : Reached protocols m := by
      by_cases hne : protocols = []
      · subst hne
        intro peer _ q hq
        cases hq
      · exact (reached_iff hne hrun).mpr (h.resolve_left hne) pre m hpre hm
    exact ⟨hreached, broadcastsOnce_of_reached hreached,
      fun q payload polling sendOk message =>
        broadcastMessage_ne_panicked m.handler q payload polling sendOk message⟩

/-- The sends finish in the order they were started. -/
def inOrder (P C : Type) : Polling P C := ⟨id, fun l => List.Perm.refl l⟩

/-- Peers 1 and 2 connect, a flashblock is broadcast, and the only connection to peer 1 closes. -/
def plainRun : List (Event Nat Nat Nat) :=
  [.connectionEstablished 1 10 (fun _ => 10), .connectionEstablished 2 20 (fun _ => 20), .retryTick,
    .broadcast 0 (.ok "flashblock") (inOrder Nat Nat) (fun _ => true), .connectionClosed 1 10]

theorem broadcasts_reach_plainRun :
    ∃ n, run [0] plainRun = some n ∧ n.live = [(2, 20)] ∧ Reached [0] n ∧ BroadcastsOnce [0] n := by
  refine ⟨_, rfl, rfl, ?_⟩
  have hlast :
      ∀ pre e m, pre ++ [e] <+: plainRun → run [0] pre = some m → ¬ LeavesConnected m e := by
    intro pre e m hpre hm hleaves
    cases e with
    | connectionClosed peer connection =>
      obtain ⟨post, hpost⟩ := hpre
      match pre, hpost with
      | [_, _, _, _], hpost =>
        cases hpost
        cases hm
        obtain ⟨c, hc⟩ := hleaves
        have hother : (1, c) ∈ [(2, 20)] := hc
        simp at hother
      | _ :: _ :: _ :: _ :: _ :: _, hpost => simp [plainRun] at hpost
    | _ => exact hleaves
  have h :=
    (broadcasts_reach_iff [0] plainRun _ rfl).mpr (.inr hlast) plainRun _ List.prefix_rfl rfl
  exact ⟨h.1, h.2.1⟩

/-- Both sides dial: peer 1 has two connections when the first one closes.  The node is still
connected to it and has no stream to it, so a broadcast is sent to nobody. -/
theorem broadcast_lost_after_close :
    ∃ n h', run [0] [Event.connectionEstablished 1 10 (fun _ => 10),
        .connectionEstablished 1 11 (fun _ => 11), .connectionClosed 1 10] = some n ∧
      n.live = [(1, 11)] ∧ ¬ Reached [0] n ∧
      broadcastMessage n.handler 0 (.ok "flashblock") (inOrder Nat Nat) (fun _ => true) =
        .done h' [] := by
  refine ⟨_, _, rfl, rfl, fun h => ?_, rfl⟩
  obtain ⟨c, hc, -⟩ := h 1 ⟨11, by decide⟩ 0 (by decide)
  cases hc

end XLayerReth.P2p
