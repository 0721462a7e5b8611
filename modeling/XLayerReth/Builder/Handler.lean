import XLayerReth.Builder.Follower
import XLayerReth.Builder.SequenceCache
import XLayerReth.Lib.Runs

/-!
# The flashblocks payload handler

Model of the loop of `FlashblocksPayloadHandler::run` in `handler.rs`, with the messages of
`utils/p2p.rs` and the executions it spawns.

* `PayloadHandler` — the cache, the executions that run, and what was sent on each channel.
* `HandlerEvent` — one arm of the loop, or the end of an execution.

Principal result: `run_spec` — what was sent where, from the events alone.
-/

set_option autoImplicit false

namespace XLayerReth.Builder

open RcsFilter
open XLayerReth.Lib

/-! ## Messages -/

/-- `OpBuiltPayload` of `utils/p2p.rs`: the block and its fees, without what its execution left. -/
structure OpBuiltPayload where
  header : Header
  blockHash : B256
  transactions : List Tx
  fees : Nat

inductive Message where
  | opBuiltPayload (payload : OpBuiltPayload)
  | opFlashblockPayload (payload : AddCall)

/-- `From<RethOpBuiltPayload>`. -/
def OpBuiltPayload.ofBuilt (value : BuiltPayload) : OpBuiltPayload :=
  ⟨value.header, value.blockHash, value.transactions, value.fees⟩

/-- `Into<RethOpBuiltPayload>`: nothing of an execution. -/
def OpBuiltPayload.intoBuilt (value : OpBuiltPayload) : BuiltPayload where
  header := value.header
  blockHash := value.blockHash
  transactions := value.transactions
  senders := []
  fees := value.fees
  receipts := []

/-- `Message::from_built_payload`. -/
def Message.fromBuiltPayload (value : BuiltPayload) : Message := .opBuiltPayload (.ofBuilt value)

/-- `Message::from_flashblock_payload`. -/
def Message.fromFlashblockPayload (value : AddCall) : Message := .opFlashblockPayload value

/-- The flashblock of a message. -/
def Message.flashblock? : Message → Option AddCall
  | .opFlashblockPayload payload => some payload
  | .opBuiltPayload _ => none

/-! ## The loop -/

structure HandlerFlags where
  p2pSendFullPayload : Bool
  p2pProcessFullPayload : Bool

structure PayloadHandler where
  p2pCache : Option FlashblockPayloadsSequence
  /-- The payloads that are being executed. -/
  executing : List BuiltPayload
  /-- What was sent to the peers. -/
  sent : List Message
  /-- What was published to the subscribers. -/
  published : List AddCall
  /-- The payloads reported to the payload builder. -/
  events : List BuiltPayload

def PayloadHandler.new (p2pCache : Option FlashblockPayloadsSequence) : PayloadHandler :=
  ⟨p2pCache, [], [], [], []⟩

inductive HandlerEvent (Db : Type) where
  | builtFlashblock (payload : AddCall)
  | builtPayload (payload : BuiltPayload)
  /-- `pending` is the hash of the pending block, if there is one. -/
  | received (message : Message) (pending : Option B256)
  /-- An execution ends; `client` is what it found of the chain. -/
  | executed (i : Nat) (client : Client Db)

namespace HandlerEvent

variable {Db : Type}

/-- The message that is sent to the peers. -/
def sends (flags : HandlerFlags) : HandlerEvent Db → Option Message
  | .builtFlashblock payload => some (.fromFlashblockPayload payload)
  | .builtPayload payload =>
    if flags.p2pSendFullPayload then some (.fromBuiltPayload payload) else none
  | .received _ _ | .executed _ _ => none

/-- The flashblock that is received. -/
def receivedFlashblock? : HandlerEvent Db → Option AddCall
  | .received message _ => message.flashblock?
  | _ => none

def builtFlashblock? : HandlerEvent Db → Option AddCall
  | .builtFlashblock payload => some payload
  | _ => none

def builtPayload? : HandlerEvent Db → Option BuiltPayload
  | .builtPayload payload => some payload
  | _ => none

def received? : HandlerEvent Db → Option Message
  | .received message _ => some message
  | _ => none

/-- The payload that is executed. -/
def spawns (flags : HandlerFlags) : HandlerEvent Db → Option BuiltPayload
  | .received (.opBuiltPayload payload) pending =>
    if flags.p2pProcessFullPayload = false ∨ pending = some payload.blockHash then none
    else some payload.intoBuilt
  | _ => none

end HandlerEvent

section

variable {Db Changes Env : Type} (P : Platform Db Changes Env) (hctx : HandlerContext)
  (flags : HandlerFlags)

namespace PayloadHandler

/-- A received message. -/
def receive (h : PayloadHandler) (pending : Option B256) : Message → PayloadHandler
  | .opBuiltPayload payload =>
    if flags.p2pProcessFullPayload = false then h
    else if pending = some payload.blockHash then h
    else { h with executing := h.executing ++ [payload.intoBuilt] }
  | .opFlashblockPayload payload =>
    { h with
      p2pCache := addFlashblockPayload payload.1 h.p2pCache payload.2
      published := h.published ++ [payload] }

/-- An execution ends: its payload is reported if it was executed. -/
def finished (h : PayloadHandler) (i : Nat)
    (result : Except FollowerError (BuiltPayload × Flashblock)) :
    PayloadHandler :=
  match result with
  | .ok (payload, _) =>
    { h with executing := h.executing.eraseIdx i, events := h.events ++ [payload] }
  | .error _ => { h with executing := h.executing.eraseIdx i }

/-- One iteration of the loop, or the end of an execution. -/
def step (h : PayloadHandler) : HandlerEvent Db → Option PayloadHandler
  | .builtFlashblock payload => some { h with sent := h.sent ++ [.fromFlashblockPayload payload] }
  | .builtPayload payload =>
    let h := { h with events := h.events ++ [payload] }
    if flags.p2pSendFullPayload then some { h with sent := h.sent ++ [.fromBuiltPayload payload] }
    else some h
  | .received message pending => some (h.receive flags pending message)
  | .executed i client =>
    (h.executing[i]?).map (fun payload => h.finished i (executeBuiltPayload P hctx client payload))

/-- A run of the loop. -/
def run (p2pCache : Option FlashblockPayloadsSequence) (events : List (HandlerEvent Db)) :
    Option PayloadHandler :=
  runFrom (step P hctx flags) (new p2pCache) events

/-! ## What was sent where -/

/-- Where a reported payload comes from: it was built here, or it was received and executed here,
    with the block hash it was received with. -/
def Reported (events : List (HandlerEvent Db)) (payload : BuiltPayload) : Prop :=
  .builtPayload payload ∈ events ∨
    ∃ received pending client flashblock, flags.p2pProcessFullPayload = true ∧
      .received (.opBuiltPayload received) pending ∈ events ∧
      pending ≠ some received.blockHash ∧
      executeBuiltPayload P hctx client received.intoBuilt = .ok (payload, flashblock)

/-- What was sent where, from the events alone. -/
structure Spec (p2pCache : Option FlashblockPayloadsSequence) (events : List (HandlerEvent Db))
    (h : PayloadHandler) : Prop where
  sent : h.sent = events.filterMap (HandlerEvent.sends flags)
  published : h.published = events.filterMap HandlerEvent.receivedFlashblock?
  cache : h.p2pCache =
    h.published.foldl (fun cache call => addFlashblockPayload call.1 cache call.2) p2pCache
  executing : ∀ payload ∈ h.executing, ∃ e ∈ events, e.spawns flags = some payload
  reported : ∀ payload ∈ h.events, Reported P hctx flags events payload

variable {P hctx flags}

theorem Reported.mono {events more : List (HandlerEvent Db)} {payload : BuiltPayload}
    (h : Reported P hctx flags events payload) :
    Reported P hctx flags (events ++ more) payload := by
  rcases h with h | ⟨received, pending, client, flashblock, hflag, hmem, hrest⟩
  · exact .inl (List.mem_append_left _ h)
  · exact .inr ⟨received, pending, client, flashblock, hflag, List.mem_append_left _ hmem, hrest⟩

/-- What is executed was received. -/
theorem spawns_eq_some {e : HandlerEvent Db} {payload : BuiltPayload}
    (h : e.spawns flags = some payload) : ∃ received pending,
      e = .received (.opBuiltPayload received) pending ∧ flags.p2pProcessFullPayload = true ∧
      pending ≠ some received.blockHash ∧ received.intoBuilt = payload := by
  unfold HandlerEvent.spawns at h
  split at h
  · rename_i received pending
    split at h
    · cases h
    · rename_i hnot
      cases h
      rw [not_or] at hnot
      exact ⟨received, pending, rfl, by simpa using hnot.1, hnot.2, rfl⟩
  · cases h

variable (Db) in
/-- A full payload only starts an execution. -/
theorem receive_opBuiltPayload (h : PayloadHandler) (pending : Option B256)
    (payload : OpBuiltPayload) :
    h.receive flags pending (.opBuiltPayload payload) =
      { h with
        executing :=
          h.executing ++
            ((.received (.opBuiltPayload payload) pending :
              HandlerEvent Db).spawns flags).toList } := by
  unfold receive HandlerEvent.spawns
  by_cases hflag : flags.p2pProcessFullPayload = false
  · simp [hflag]
  · by_cases hpending : pending = some payload.blockHash
    · simp [hpending]
    · simp [hflag, hpending]

/-- An execution that ends reports its payload, or nothing. -/
theorem finished_cases (h : PayloadHandler) (i : Nat)
    (result : Except FollowerError (BuiltPayload × Flashblock)) :
    h.finished i result = { h with executing := h.executing.eraseIdx i } ∨
      ∃ payload flashblock, result = .ok (payload, flashblock) ∧ h.finished i result =
        { h with executing := h.executing.eraseIdx i, events := h.events ++ [payload] } := by
  cases result with
  | error e => exact .inl rfl
  | ok r => exact .inr ⟨r.1, r.2, rfl, rfl⟩

theorem Spec.executed {p2pCache : Option FlashblockPayloadsSequence}
    {events : List (HandlerEvent Db)} {h : PayloadHandler}
    (hspec : Spec P hctx flags p2pCache events h)
    {i : Nat} {payload : BuiltPayload} (hpayload : h.executing[i]? = some payload)
    (client : Client Db) :
    Spec P hctx flags p2pCache (events ++ [.executed i client])
      (h.finished i (executeBuiltPayload P hctx client payload)) := by
  have hexecuting : ∀ p ∈ h.executing.eraseIdx i,
      ∃ e ∈ events ++ [.executed i client], e.spawns flags = some p := by
    intro p hp
    obtain ⟨e, he, hspawns⟩ := hspec.executing p (List.mem_of_mem_eraseIdx hp)
    exact ⟨e, List.mem_append_left _ he, hspawns⟩
  have hsent : h.sent =
      (events ++ [HandlerEvent.executed i client]).filterMap (HandlerEvent.sends flags) := by
    simp [hspec.sent, HandlerEvent.sends]
  have hpublished : h.published =
      (events ++ [HandlerEvent.executed i client]).filterMap
        HandlerEvent.receivedFlashblock? := by
    simp [hspec.published, HandlerEvent.receivedFlashblock?]
  rcases finished_cases h i (executeBuiltPayload P hctx client payload) with heq |
    ⟨reported, flashblock, hok, heq⟩
  · rw [heq]
    exact ⟨hsent, hpublished, hspec.cache, hexecuting, fun p hp => (hspec.reported p hp).mono⟩
  · rw [heq]
    refine ⟨hsent, hpublished, hspec.cache, hexecuting, fun p hp => ?_⟩
    rcases List.mem_append.mp hp with hp | hp
    · exact (hspec.reported p hp).mono
    · -- the payload was received when its execution was started
      rw [List.mem_singleton.mp hp]
      obtain ⟨e, he, hspawns⟩ := hspec.executing payload (List.mem_of_getElem? hpayload)
      obtain ⟨received, pending, rfl, hflag, hpending, rfl⟩ := spawns_eq_some hspawns
      exact .inr ⟨received, pending, client, flashblock, hflag, List.mem_append_left _ he, hpending,
        hok⟩

/-- **What one event does.** -/
theorem Spec.step {p2pCache : Option FlashblockPayloadsSequence} {events : List (HandlerEvent Db)}
    {h h' : PayloadHandler} {e : HandlerEvent Db} (hspec : Spec P hctx flags p2pCache events h)
    (hstep : h.step P hctx flags e = some h') : Spec P hctx flags p2pCache (events ++ [e]) h' := by
  have hexecuting :
      ∀ payload ∈ h.executing, ∃ e' ∈ events ++ [e], e'.spawns flags = some payload := by
    intro payload hp
    obtain ⟨e', he', hspawns⟩ := hspec.executing payload hp
    exact ⟨e', List.mem_append_left _ he', hspawns⟩
  have hreported : ∀ payload ∈ h.events, Reported P hctx flags (events ++ [e]) payload :=
    fun payload hp => (hspec.reported payload hp).mono
  cases e with
  | builtFlashblock payload =>
    cases hstep
    refine ⟨?_, ?_, hspec.cache, hexecuting, hreported⟩
    · simp [hspec.sent, HandlerEvent.sends]
    · simp [hspec.published, HandlerEvent.receivedFlashblock?]
  | builtPayload payload =>
    have hevents : ∀ p ∈ h.events ++ [payload],
        Reported P hctx flags (events ++ [.builtPayload payload]) p := by
      intro p hp
      rcases List.mem_append.mp hp with hp | hp
      · exact hreported p hp
      · rw [List.mem_singleton.mp hp]
        exact .inl (by simp)
    simp only [PayloadHandler.step] at hstep
    split at hstep
    · rename_i hflag
      cases hstep
      refine ⟨?_, ?_, hspec.cache, hexecuting, hevents⟩
      · simp [hspec.sent, HandlerEvent.sends, hflag]
      · simp [hspec.published, HandlerEvent.receivedFlashblock?]
    · rename_i hflag
      cases hstep
      refine ⟨?_, ?_, hspec.cache, hexecuting, hevents⟩
      · simp [hspec.sent, HandlerEvent.sends, hflag]
      · simp [hspec.published, HandlerEvent.receivedFlashblock?]
  | received message pending =>
    cases hstep
    cases message with
    | opFlashblockPayload payload =>
      refine ⟨?_, ?_, ?_, hexecuting, hreported⟩
      · simp [receive, hspec.sent, HandlerEvent.sends]
      · simp [receive, hspec.published, HandlerEvent.receivedFlashblock?, Message.flashblock?]
      · simp only [receive, List.foldl_append, ← hspec.cache]
        rfl
    | opBuiltPayload payload =>
      rw [receive_opBuiltPayload Db]
      refine ⟨?_, ?_, hspec.cache, fun p hp => ?_, hreported⟩
      · simp [hspec.sent, HandlerEvent.sends]
      · simp [hspec.published, HandlerEvent.receivedFlashblock?, Message.flashblock?]
      · rcases List.mem_append.mp hp with hp | hp
        · exact hexecuting p hp
        · exact ⟨_, List.mem_append_right _ (List.mem_singleton_self _), by simpa using hp⟩
  | executed i client =>
    obtain ⟨payload, hpayload, rfl⟩ := Option.map_eq_some_iff.mp hstep
    exact hspec.executed hpayload client

/-- **What was sent where**, in every run of the loop. -/
theorem run_spec {p2pCache : Option FlashblockPayloadsSequence} (events : List (HandlerEvent Db)) :
    ∀ h, run P hctx flags p2pCache events = some h → Spec P hctx flags p2pCache events h := by
  refine runFrom_induction (fun events h => Spec P hctx flags p2pCache events h) ?_ ?_ events
  · exact ⟨rfl, rfl, rfl, by simp [new], by simp [new]⟩
  · exact fun events h e h' _ ih hstep => ih.step hstep

end PayloadHandler

end

end XLayerReth.Builder
