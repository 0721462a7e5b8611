import Mathlib.Algebra.BigOperators.Group.List.Basic
import Mathlib.Algebra.Ring.Nat
import XLayerReth.Lib.Broadcast
import XLayerReth.Lib.Runs

/-!
# The websocket publisher

Model of `utils/wspub.rs`: a publisher, the listener loop that accepts connections, and one task for
each connection, which share a broadcast channel, two counters and a termination flag.

* `WebSocketPublisher`, `step` — the shared state, and the steps of the publisher's owner, of the
  listener and of the tasks, in any interleaving.
* `SubscriberPhase` — how far the task of a connection is: it reads the counter of the subscriptions
  and adds itself to it in two steps, so that tasks can pass the check side by side.
* `WebSocketPublisher.Exact` — what holds in every state.

Principal results: `publisher_exact`; `run_limit` and `accept_failed_final` are its parts about the
limit of subscribers and about a listener whose accept failed.

`broadcast::channel` holds at least the capacity it is made with; how many is a parameter.  A
payload is text once it is serialized, by a function that may fail.
-/

set_option autoImplicit false

namespace XLayerReth.Builder

open XLayerReth.Lib

/-! ## The publisher -/

structure PublisherConfig where
  /-- How many messages the channel holds. -/
  capacity : Nat
  subscriberLimit : Option Nat

/-- The task of a connection. -/
inductive SubscriberPhase where
  /-- The task is spawned. -/
  | checking
  /-- The limit is not reached; the subscription is not counted yet. -/
  | admitted
  /-- `broadcast_loop` waits. -/
  | active
  /-- `broadcast_loop` sends a message to the client. -/
  | sending
  /-- `broadcast_loop` has returned; the subscription is still counted. -/
  | leaving
  /-- The limit is reached; the client is told so. -/
  | rejected
  | closed
  deriving DecidableEq

/-- The subscription is counted. -/
def SubscriberPhase.counted : SubscriberPhase → Bool
  | .active | .sending | .leaving => true
  | .checking | .admitted | .rejected | .closed => false

/-- The task holds its receiver. -/
def SubscriberPhase.receiving : SubscriberPhase → Bool
  | .checking | .admitted | .active | .sending | .rejected => true
  | .leaving | .closed => false

structure Subscriber where
  phase : SubscriberPhase
  /-- How many messages were sent before the connection was accepted. -/
  start : Nat
  cursor : Nat
  /-- The messages sent to the client. -/
  received : List String
  /-- The message read from the channel that is not sent to the client, or could not be. -/
  inFlight : Option String

/-- The messages read from the channel. -/
def Subscriber.taken (s : Subscriber) : List String := s.received ++ s.inFlight.toList

/-- A message is held back from the client only while it is sent, or once that has failed. -/
def Subscriber.Held (s : Subscriber) : Prop :=
  s.inFlight.isSome → s.phase = .sending ∨ s.phase = .leaving ∨ s.phase = .closed

theorem Subscriber.Held.active {s : Subscriber} (h : s.Held) (hphase : s.phase = .active) :
    s.inFlight = none := by
  cases hin : s.inFlight with
  | none => rfl
  | some a =>
    have := h (by rw [hin]; rfl)
    rw [hphase] at this
    simp at this

inductive Listener where
  | starting
  | idle
  /-- A connection is being accepted; its receiver is at the cursor. -/
  | handshaking (cursor : Nat)
  /-- `listener.accept()` has failed: its branch is disabled, and only termination is awaited. -/
  | deaf
  /-- The socket could not be set up. -/
  | failed
  | stopped
  deriving DecidableEq

def Listener.receivers : Listener → Nat
  | .starting | .idle | .deaf => 1
  | .handshaking _ => 2
  | .failed | .stopped => 0

structure WebSocketPublisher where
  sent : Nat
  subs : Nat
  term : Bool
  /-- The messages sent to the channel. -/
  pipe : List String
  listener : Listener
  /-- The connections, in the order in which they were accepted. -/
  subscribers : List Subscriber

namespace WebSocketPublisher

def new : WebSocketPublisher := ⟨0, 0, false, [], .starting, []⟩

/-- The receivers of the channel. -/
def receivers (ws : WebSocketPublisher) : Nat :=
  ws.listener.receivers + ws.subscribers.countP (fun s => s.phase.receiving)

inductive PublishError where
  | serialize
  | connectionAborted
  deriving DecidableEq

variable {P : Type}

/-- `publish`. -/
def publish (serialize : P → Option String) (ws : WebSocketPublisher) (payload : P) :
    Except PublishError Nat × WebSocketPublisher :=
  match serialize payload with
  | none => (.error .serialize, ws)
  | some text =>
    if ws.receivers = 0 then (.error .connectionAborted, ws)
    else (.ok text.utf8ByteSize, { ws with pipe := ws.pipe ++ [text] })

/-! ## The steps -/

inductive TaskAction where
  /-- The counter is compared with the limit. -/
  | check
  | rejectionSent
  /-- The subscription is counted; `peer` says whether the peer's address is known. -/
  | count (peer : Bool)
  | terminate
  | receive
  | sendDone (ok : Bool)
  /-- A frame of the client, or an error of its stream; `ends` for a close frame or an error. -/
  | frame (ends : Bool)
  | uncount

inductive PublisherAction (P : Type) where
  | listen (ok : Bool)
  | publish (payload : P)
  | drop
  | terminate
  | accept
  | acceptFailed
  | handshake (ok : Bool)
  | task (k : Nat) (action : TaskAction)

/-- The limit of subscribers is reached. -/
def limitReached (cfg : PublisherConfig) (subs : Nat) : Bool :=
  cfg.subscriberLimit.any (fun limit => limit ≤ subs)

def setSubscriber (ws : WebSocketPublisher) (k : Nat) (s : Subscriber) : WebSocketPublisher :=
  { ws with subscribers := ws.subscribers.set k s }

/-- A step of the task of a connection. -/
def taskStep (cfg : PublisherConfig) (ws : WebSocketPublisher) (k : Nat) (s : Subscriber) :
    TaskAction → Option WebSocketPublisher
  | .check =>
    if s.phase = .checking then
      some (ws.setSubscriber k
        { s with phase := if limitReached cfg ws.subs then .rejected else .admitted })
    else none
  | .rejectionSent =>
    if s.phase = .rejected then some (ws.setSubscriber k { s with phase := .closed }) else none
  | .count peer =>
    if s.phase = .admitted then
      some { ws.setSubscriber k { s with phase := if peer then .active else .leaving } with
        subs := ws.subs + 1 }
    else none
  | .terminate =>
    if s.phase = .active ∧ ws.term then some (ws.setSubscriber k { s with phase := .leaving })
    else none
  | .receive =>
    if s.phase = .active then
      match Lib.receive cfg.capacity ws.pipe s.cursor with
      | (.value a, next) =>
        some { ws.setSubscriber k { s with phase := .sending, cursor := next, inFlight := some a }
          with sent := ws.sent + 1 }
      | (.lagged _, next) => some (ws.setSubscriber k { s with cursor := next })
      | (.empty, _) =>
        -- the channel is closed once the publisher is dropped
        if ws.term then some (ws.setSubscriber k { s with phase := .leaving }) else none
    else none
  | .sendDone ok =>
    if s.phase = .sending then
      if ok then
        some (ws.setSubscriber k { s with phase := .active, received := s.taken, inFlight := none })
      else some (ws.setSubscriber k { s with phase := .leaving })
    else none
  | .frame ends =>
    if s.phase = .active then
      some (ws.setSubscriber k { s with phase := if ends then .leaving else .active })
    else none
  | .uncount =>
    if s.phase = .leaving then
      some { ws.setSubscriber k { s with phase := .closed } with subs := ws.subs - 1 }
    else none

/-- A step of the publisher's owner, the listener loop or a task. -/
def step (cfg : PublisherConfig) (serialize : P → Option String) (ws : WebSocketPublisher) :
    PublisherAction P → Option WebSocketPublisher
  | .listen ok =>
    if ws.listener = .starting then some { ws with listener := if ok then .idle else .failed }
    else none
  | .publish payload => if ws.term then none else some (ws.publish serialize payload).2
  | .drop => if ws.term then none else some { ws with term := true }
  | .terminate =>
    if ws.term ∧ (ws.listener = .idle ∨ ws.listener = .deaf) then
      some { ws with listener := .stopped }
    else none
  | .accept =>
    if ws.listener = .idle then some { ws with listener := .handshaking ws.pipe.length } else none
  | .acceptFailed => if ws.listener = .idle then some { ws with listener := .deaf } else none
  | .handshake ok =>
    match ws.listener with
    | .handshaking cursor =>
      some { ws with
        listener := .idle
        subscribers := ws.subscribers ++
          if ok then [⟨.checking, cursor, cursor, [], none⟩] else [] }
    | _ => none
  | .task k action => ws.subscribers[k]?.bind (fun s => taskStep cfg ws k s action)

/-- A run of the publisher. -/
def run (cfg : PublisherConfig) (serialize : P → Option String) (acts : List (PublisherAction P)) :
    Option WebSocketPublisher :=
  runFrom (step cfg serialize) new acts

/-! ## What a task can do -/

/-- A step of a task changes its subscriber and the counters, and nothing else. -/
structure Moves (cfg : PublisherConfig) (ws : WebSocketPublisher) (s : Subscriber)
    (ws' : WebSocketPublisher) (s' : Subscriber) : Prop where
  pipe : ws'.pipe = ws.pipe
  term : ws'.term = ws.term
  listener : ws'.listener = ws.listener
  start : s'.start = s.start
  subs : (s.phase.counted = true → 0 < ws.subs) →
    ws'.subs + s.phase.counted.toNat = ws.subs + s'.phase.counted.toNat
  sent : s.Held → ws'.sent + s.taken.length = ws.sent + s'.taken.length
  /-- Only a task that finds the limit not reached is admitted. -/
  admitted : s'.phase = .admitted → s.phase = .checking ∧ limitReached cfg ws.subs = false
  /-- Only a task that is admitted is counted. -/
  counted : s'.phase.counted = true → s.phase.counted = true ∨ s.phase = .admitted
  held : s.Held → s'.Held
  follows : s.Held →
    Follows cfg.capacity ws.pipe s.start s.cursor s.taken →
    Follows cfg.capacity ws.pipe s.start s'.cursor s'.taken

/-- A step by which a task changes its phase only, and does not cross the counter. -/
theorem Moves.of_phase {cfg : PublisherConfig} {ws : WebSocketPublisher} {k : Nat} {s : Subscriber}
    {phase : SubscriberPhase} (hcounted : phase.counted = s.phase.counted)
    (hadmitted : phase = .admitted → s.phase = .checking ∧ limitReached cfg ws.subs = false)
    (hheld : s.phase = .sending ∨ s.phase = .leaving ∨ s.phase = .closed →
      phase = .sending ∨ phase = .leaving ∨ phase = .closed) :
    Moves cfg ws s (ws.setSubscriber k { s with phase := phase }) { s with phase := phase } where
  pipe := rfl
  term := rfl
  listener := rfl
  start := rfl
  subs _ := by rw [hcounted]; rfl
  sent _ := rfl
  admitted := hadmitted
  counted h := .inl (hcounted ▸ h)
  held h hsome := hheld (h hsome)
  follows _ h := h

theorem taskStep_moves {cfg : PublisherConfig} {ws ws' : WebSocketPublisher} {k : Nat}
    {s : Subscriber} {action : TaskAction} (h : taskStep cfg ws k s action = some ws') :
    ∃ s', ws'.subscribers = ws.subscribers.set k s' ∧ Moves cfg ws s ws' s' := by
  cases action with
  | check =>
    obtain ⟨hphase, h⟩ := Option.ite_none_right_eq_some.mp h
    cases h
    refine ⟨_, rfl, Moves.of_phase ?_ ?_ ?_⟩
    · rw [hphase]
      split <;> rfl
    · intro hadmitted
      refine ⟨hphase, ?_⟩
      split at hadmitted
      · cases hadmitted
      · rename_i hlimit
        simpa using hlimit
    · rw [hphase]
      simp
  | rejectionSent =>
    obtain ⟨hphase, h⟩ := Option.ite_none_right_eq_some.mp h
    cases h
    refine ⟨_, rfl, Moves.of_phase ?_ ?_ ?_⟩
    · rw [hphase]
      rfl
    · simp
    · simp
  | count peer =>
    obtain ⟨hphase, h⟩ := Option.ite_none_right_eq_some.mp h
    cases h
    refine ⟨_, rfl, rfl, rfl, rfl, rfl, ?_, fun _ => rfl, ?_, fun _ => .inr hphase, ?_,
      fun _ h => h⟩
    · intro _
      rw [hphase]
      cases peer <;> rfl
    · cases peer <;> simp
    · intro hin hsome
      have := hin hsome
      rw [hphase] at this
      simp at this
  | terminate =>
    obtain ⟨hphase, h⟩ := Option.ite_none_right_eq_some.mp h
    cases h
    refine ⟨_, rfl, Moves.of_phase ?_ ?_ ?_⟩
    · rw [hphase.1]
      rfl
    · simp
    · simp
  | receive =>
    obtain ⟨hphase, h⟩ := Option.ite_none_right_eq_some.mp h
    cases hr : Lib.receive cfg.capacity ws.pipe s.cursor with
    | mk result next =>
      rw [hr] at h
      cases result with
      | value a =>
        cases h
        refine ⟨_, rfl, rfl, rfl, rfl, rfl, ?_, ?_, ?_, ?_, fun _ _ => .inl rfl, ?_⟩
        · intro _
          rw [hphase]
          rfl
        · intro hheld
          simp [Subscriber.taken, hheld.active hphase]
          omega
        · simp
        · rw [hphase]
          exact fun _ => .inl rfl
        · intro hheld hfollows
          have := hfollows.value hr
          rw [Subscriber.taken, hheld.active hphase, Option.toList_none, List.append_nil] at this
          exact this
      | lagged missed =>
        cases h
        refine ⟨_, rfl, rfl, rfl, rfl, rfl, fun _ => rfl, fun _ => rfl, ?_, .inl, fun h => h, ?_⟩
        · intro hadmitted
          exact absurd (hphase.symm.trans hadmitted) (by simp)
        · exact fun _ hfollows => hfollows.lagged hr
      | empty =>
        obtain ⟨-, h⟩ := Option.ite_none_right_eq_some.mp h
        cases h
        refine ⟨_, rfl, Moves.of_phase ?_ ?_ ?_⟩
        · rw [hphase]
          rfl
        · simp
        · simp
  | sendDone ok =>
    obtain ⟨hphase, h⟩ := Option.ite_none_right_eq_some.mp h
    cases ok with
    | true =>
      cases h
      refine ⟨_, rfl, rfl, rfl, rfl, rfl, ?_, ?_, ?_, ?_, ?_, ?_⟩
      · intro _
        rw [hphase]
        rfl
      · intro _
        simp [Subscriber.taken, setSubscriber]
      · simp
      · rw [hphase]
        exact fun _ => .inl rfl
      · intro _ hsome
        cases hsome
      · intro _ hfollows
        simpa [Subscriber.taken] using hfollows
    | false =>
      cases h
      refine ⟨_, rfl, Moves.of_phase ?_ ?_ ?_⟩
      · rw [hphase]
        rfl
      · simp
      · simp
  | frame ends =>
    obtain ⟨hphase, h⟩ := Option.ite_none_right_eq_some.mp h
    cases h
    refine ⟨_, rfl, Moves.of_phase ?_ ?_ ?_⟩
    · rw [hphase]
      cases ends <;> rfl
    · cases ends <;> simp
    · rw [hphase]
      simp
  | uncount =>
    obtain ⟨hphase, h⟩ := Option.ite_none_right_eq_some.mp h
    cases h
    refine ⟨_, rfl, rfl, rfl, rfl, rfl, ?_, fun _ => rfl, ?_, ?_,
      fun _ _ => .inr (.inr rfl), fun _ h => h⟩
    · intro hpos
      rw [hphase] at hpos ⊢
      have := hpos rfl
      simp [SubscriberPhase.counted]
      omega
    · simp
    · intro hcounted
      cases hcounted

/-! ## Counting the tasks -/

theorem countP_set_toNat {α : Type} (p : α → Bool) {l : List α} {k : Nat} {a : α} (b : α)
    (hk : l[k]? = some a) : (l.set k b).countP p + (p a).toNat = l.countP p + (p b).toNat := by
  obtain ⟨hlt, hget⟩ := List.getElem?_eq_some_iff.mp hk
  have hpos : p a = true → 0 < l.countP p :=
    fun ha => List.countP_pos_iff.mpr ⟨a, List.mem_of_getElem? hk, ha⟩
  rw [List.countP_set hlt, hget]
  cases ha : p a with
  | false => cases p b <;> simp
  | true =>
    have := hpos ha
    cases p b with
    | false =>
      simp
      omega
    | true =>
      simp
      omega

theorem sum_map_set {α : Type} (f : α → Nat) : ∀ {l : List α} {k : Nat} {a : α} (b : α),
    l[k]? = some a → ((l.set k b).map f).sum + f a = (l.map f).sum + f b
  | [], k, a, b, hk => by cases hk
  | x :: l, 0, a, b, hk => by
    cases hk
    simp only [List.set_cons_zero, List.map_cons, List.sum_cons]
    omega
  | x :: l, k + 1, a, b, hk => by
    have := sum_map_set f b (List.getElem?_cons_succ.symm.trans hk)
    simp only [List.set_cons_succ, List.map_cons, List.sum_cons]
    omega

/-! ## What holds in every state -/

/-- Between the check of the limit and the counter. -/
def admitted (ws : WebSocketPublisher) : Nat :=
  ws.subscribers.countP (fun s => s.phase == .admitted)

structure Inv (cfg : PublisherConfig) (ws : WebSocketPublisher) : Prop where
  held : ∀ s ∈ ws.subscribers, s.Held
  follows : ∀ s ∈ ws.subscribers, Follows cfg.capacity ws.pipe s.start s.cursor s.taken
  handshake : ∀ cursor, ws.listener = .handshaking cursor → cursor ≤ ws.pipe.length
  subs : ws.subs = ws.subscribers.countP (fun s => s.phase.counted)
  sent : ws.sent = (ws.subscribers.map (fun s => s.taken.length)).sum
  stopped : ws.listener = .stopped → ws.term = true
  early : ws.listener = .starting ∨ ws.listener = .failed → ws.subscribers = []

variable {cfg : PublisherConfig} {serialize : P → Option String}

theorem inv_new : Inv cfg new where
  held _ hs := by cases hs
  follows _ hs := by cases hs
  handshake _ h := by cases h
  subs := rfl
  sent := rfl
  stopped h := by cases h
  early _ := rfl

/-- The listener may move on as long as it does not forget the connections. -/
theorem Inv.withListener {ws : WebSocketPublisher} (h : Inv cfg ws) (listener : Listener)
    (hhandshake : ∀ cursor, listener = .handshaking cursor → cursor ≤ ws.pipe.length)
    (hstopped : listener = .stopped → ws.term = true)
    (hearly : listener = .starting ∨ listener = .failed → ws.subscribers = []) :
    Inv cfg { ws with listener := listener } :=
  ⟨h.held, h.follows, hhandshake, h.subs, h.sent, hstopped, hearly⟩

theorem Inv.publish {ws : WebSocketPublisher} (h : Inv cfg ws) (payload : P) :
    Inv cfg (ws.publish serialize payload).2 := by
  unfold WebSocketPublisher.publish
  split
  · exact h
  · split
    · exact h
    · refine ⟨h.held, ?_, ?_, h.subs, h.sent, h.stopped, h.early⟩
      · intro s hs
        exact (h.follows s hs).send _
      · intro cursor hcursor
        rw [List.length_append]
        exact Nat.le_add_right_of_le (h.handshake cursor hcursor)

theorem Inv.accepted {ws : WebSocketPublisher} (h : Inv cfg ws) {cursor : Nat}
    (hcursor : ws.listener = .handshaking cursor) :
    Inv cfg { ws with
      listener := .idle
      subscribers := ws.subscribers ++ [⟨.checking, cursor, cursor, [], none⟩] } where
  held s hs := by
    rcases List.mem_append.mp hs with hs | hs
    · exact h.held s hs
    · rw [List.mem_singleton.mp hs]
      intro hsome
      cases hsome
  follows s hs := by
    rcases List.mem_append.mp hs with hs | hs
    · exact h.follows s hs
    · rw [List.mem_singleton.mp hs]
      exact follows_new _ (h.handshake cursor hcursor)
  handshake c hc := by cases hc
  subs := by
    rw [List.countP_append]
    exact h.subs
  sent := by
    rw [List.map_append, List.sum_append]
    exact h.sent
  stopped hs := by cases hs
  early hs := by
    rcases hs with hs | hs
    · cases hs
    · cases hs

theorem Inv.task {ws ws' : WebSocketPublisher} (h : Inv cfg ws) {k : Nat} {s s' : Subscriber}
    (hk : ws.subscribers[k]? = some s) (hset : ws'.subscribers = ws.subscribers.set k s')
    (hmoves : Moves cfg ws s ws' s') : Inv cfg ws' := by
  obtain ⟨hlt, hget⟩ := List.getElem?_eq_some_iff.mp hk
  have hmem : s ∈ ws.subscribers := List.mem_of_getElem? hk
  have hheld := h.held s hmem
  have hor {x : Subscriber} (hx : x ∈ ws'.subscribers) : x ∈ ws.subscribers ∨ x = s' := by
    rw [hset] at hx
    exact List.mem_or_eq_of_mem_set hx
  have hpos : s.phase.counted = true → 0 < ws.subs := by
    intro hcounted
    rw [h.subs]
    exact List.countP_pos_iff.mpr ⟨s, hmem, hcounted⟩
  refine ⟨?_, ?_, ?_, ?_, ?_, ?_, ?_⟩
  · intro x hx
    rcases hor hx with hx | rfl
    · exact h.held x hx
    · exact hmoves.held hheld
  · intro x hx
    rw [hmoves.pipe]
    rcases hor hx with hx | rfl
    · exact h.follows x hx
    · rw [hmoves.start]
      exact hmoves.follows hheld (h.follows s hmem)
  · rw [hmoves.listener, hmoves.pipe]
    exact h.handshake
  · have hcount := countP_set_toNat (fun x => x.phase.counted) s' hk
    have hsubs := hmoves.subs hpos
    rw [h.subs] at hsubs
    rw [hset]
    omega
  · have hsum := sum_map_set (fun x => x.taken.length) s' hk
    have hsent := hmoves.sent hheld
    rw [h.sent] at hsent
    rw [hset]
    omega
  · rw [hmoves.listener, hmoves.term]
    exact h.stopped
  · intro hl
    rw [hmoves.listener] at hl
    rw [h.early hl] at hmem
    cases hmem

theorem Inv.step {ws ws' : WebSocketPublisher} {act : PublisherAction P} (h : Inv cfg ws)
    (hstep : step cfg serialize ws act = some ws') : Inv cfg ws' := by
  cases act with
  | listen ok =>
    obtain ⟨hstarting, hstep⟩ := Option.ite_none_right_eq_some.mp hstep
    cases hstep
    refine h.withListener _ ?_ ?_ (fun _ => h.early (.inl hstarting))
    · cases ok <;> simp
    · cases ok <;> simp
  | publish payload =>
    obtain ⟨-, hstep⟩ := Option.ite_none_left_eq_some.mp hstep
    cases hstep
    exact h.publish payload
  | drop =>
    obtain ⟨-, hstep⟩ := Option.ite_none_left_eq_some.mp hstep
    cases hstep
    exact ⟨h.held, h.follows, h.handshake, h.subs, h.sent, fun _ => rfl, h.early⟩
  | terminate =>
    obtain ⟨hterm, hstep⟩ := Option.ite_none_right_eq_some.mp hstep
    cases hstep
    exact h.withListener _ (by simp) (fun _ => hterm.1) (by simp)
  | accept =>
    obtain ⟨-, hstep⟩ := Option.ite_none_right_eq_some.mp hstep
    cases hstep
    refine h.withListener _ ?_ (by simp) (by simp)
    intro cursor hcursor
    cases hcursor
    exact le_rfl
  | acceptFailed =>
    obtain ⟨-, hstep⟩ := Option.ite_none_right_eq_some.mp hstep
    cases hstep
    exact h.withListener _ (by simp) (by simp) (by simp)
  | handshake ok =>
    cases hlistener : ws.listener with
    | handshaking cursor =>
      simp only [WebSocketPublisher.step, hlistener, Option.some.injEq] at hstep
      subst hstep
      cases ok with
      | true => exact h.accepted hlistener
      | false =>
        have := h.withListener .idle (by simp) (by simp) (by simp)
        simpa using this
    | starting | idle | deaf | failed | stopped =>
      simp only [WebSocketPublisher.step, hlistener] at hstep
      cases hstep
  | task k action =>
    obtain ⟨s, hk, hstep⟩ := Option.bind_eq_some_iff.mp hstep
    obtain ⟨s', hset, hmoves⟩ := taskStep_moves hstep
    exact h.task hk hset hmoves

theorem run_inv {acts : List (PublisherAction P)} {ws : WebSocketPublisher}
    (h : run cfg serialize acts = some ws) : Inv cfg ws :=
  runFrom_induction (fun _ ws => Inv cfg ws) inv_new (fun _ _ _ _ _ hinv hstep => hinv.step hstep)
    acts ws h

/-! ## The limit of subscribers -/

/-- Only a task that finds the limit not reached adds to those that are counted or admitted. -/
theorem admitted_step {ws ws' : WebSocketPublisher} {act : PublisherAction P} (h : Inv cfg ws)
    (hstep : step cfg serialize ws act = some ws') :
    ws'.subs + ws'.admitted ≤ ws.subs + ws.admitted ∨
      ws'.subs + ws'.admitted = ws.subs + ws.admitted + 1 ∧ ws'.subs = ws.subs ∧
        limitReached cfg ws.subs = false := by
  cases act with
  | listen ok =>
    obtain ⟨-, hstep⟩ := Option.ite_none_right_eq_some.mp hstep
    cases hstep
    exact .inl le_rfl
  | publish payload =>
    obtain ⟨-, hstep⟩ := Option.ite_none_left_eq_some.mp hstep
    cases hstep
    left
    unfold WebSocketPublisher.publish
    split
    · exact le_rfl
    · split
      · exact le_rfl
      · exact le_rfl
  | drop =>
    obtain ⟨-, hstep⟩ := Option.ite_none_left_eq_some.mp hstep
    cases hstep
    exact .inl le_rfl
  | terminate | accept | acceptFailed =>
    obtain ⟨-, hstep⟩ := Option.ite_none_right_eq_some.mp hstep
    cases hstep
    exact .inl le_rfl
  | handshake ok =>
    cases hlistener : ws.listener with
    | handshaking cursor =>
      simp only [WebSocketPublisher.step, hlistener, Option.some.injEq] at hstep
      subst hstep
      left
      cases ok <;> simp [admitted]
    | starting | idle | deaf | failed | stopped =>
      simp only [WebSocketPublisher.step, hlistener] at hstep
      cases hstep
  | task k action =>
    obtain ⟨s, hk, hstep⟩ := Option.bind_eq_some_iff.mp hstep
    obtain ⟨s', hset, hmoves⟩ := taskStep_moves hstep
    have hadmitted := countP_set_toNat (fun x => x.phase == .admitted) s' hk
    rw [← hset] at hadmitted
    have hpos : s.phase.counted = true → 0 < ws.subs := by
      intro hcounted
      rw [h.subs]
      exact List.countP_pos_iff.mpr ⟨s, List.mem_of_getElem? hk, hcounted⟩
    have hsubs := hmoves.subs hpos
    unfold admitted
    by_cases hs' : s'.phase = .admitted
    · obtain ⟨hphase, hlimit⟩ := hmoves.admitted hs'
      rw [hs', hphase] at hsubs hadmitted
      have hsame : ws'.subs = ws.subs := hsubs
      have hone : ws'.subscribers.countP (fun x => x.phase == .admitted) =
          ws.subscribers.countP (fun x => x.phase == .admitted) + 1 := hadmitted
      exact .inr ⟨by omega, hsame, hlimit⟩
    · left
      have hgain : s'.phase.counted.toNat ≤
          s.phase.counted.toNat + (s.phase == .admitted).toNat := by
        cases hcounted : s'.phase.counted with
        | false => exact Nat.zero_le _
        | true =>
          rcases hmoves.counted hcounted with hc | hc
          · rw [hc]
            exact Nat.le_add_right _ _
          · rw [hc]
            exact Nat.le_add_left _ _
      have hnone : (s'.phase == .admitted) = false := by simpa using hs'
      rw [hnone, Bool.toNat_false] at hadmitted
      omega

/-- **The limit is exceeded only by tasks that pass the check side by side**: by fewer than those
    that are ever admitted at once. -/
theorem run_limit {acts : List (PublisherAction P)} {ws : WebSocketPublisher} {limit width : Nat}
    (hlimit : cfg.subscriberLimit = some limit) (h : run cfg serialize acts = some ws)
    (hwidth : ∀ pre ws₁, pre <+: acts → run cfg serialize pre = some ws₁ → ws₁.admitted ≤ width) :
    ws.subs + ws.admitted ≤ limit + (width - 1) := by
  refine runFrom_induction (fun acts ws =>
    (∀ pre ws₁, pre <+: acts → run cfg serialize pre = some ws₁ → ws₁.admitted ≤ width) →
      ws.subs + ws.admitted ≤ limit + (width - 1)) ?_ ?_ acts ws h hwidth
  · intro _
    exact Nat.zero_le _
  · intro acts ws act ws' hrun ih hstep hwidth
    have hbefore := ih (fun pre ws₁ hpre => hwidth pre ws₁ (hpre.trans (List.prefix_append _ _)))
    rcases admitted_step (run_inv hrun) hstep with hle | ⟨hone, hsame, hfree⟩
    · omega
    · have hlast := hwidth (acts ++ [act]) ws' (List.prefix_refl _)
        (runFrom_concat.mpr ⟨ws, hrun, hstep⟩)
      have hlt : ws.subs < limit := by simpa [limitReached, hlimit] using hfree
      omega

/-! ## After a failed accept -/

/-- No connection is being accepted, and none will be. -/
def Closed (ws : WebSocketPublisher) : Prop := ws.listener = .deaf ∨ ws.listener = .stopped

theorem Closed.step {ws ws' : WebSocketPublisher} {act : PublisherAction P} (h : Closed ws)
    (hstep : step cfg serialize ws act = some ws') :
    Closed ws' ∧ ws'.subscribers.length = ws.subscribers.length := by
  have hidle : ws.listener ≠ .idle := by
    rcases h with h | h
    · simp [h]
    · simp [h]
  cases act with
  | listen ok =>
    obtain ⟨hstarting, -⟩ := Option.ite_none_right_eq_some.mp hstep
    rcases h with h | h
    · cases h.symm.trans hstarting
    · cases h.symm.trans hstarting
  | publish payload =>
    obtain ⟨-, hstep⟩ := Option.ite_none_left_eq_some.mp hstep
    cases hstep
    unfold WebSocketPublisher.publish
    split
    · exact ⟨h, rfl⟩
    · split
      · exact ⟨h, rfl⟩
      · exact ⟨h, rfl⟩
  | drop =>
    obtain ⟨-, hstep⟩ := Option.ite_none_left_eq_some.mp hstep
    cases hstep
    exact ⟨h, rfl⟩
  | terminate =>
    obtain ⟨-, hstep⟩ := Option.ite_none_right_eq_some.mp hstep
    cases hstep
    exact ⟨.inr rfl, rfl⟩
  | accept | acceptFailed =>
    obtain ⟨hl, -⟩ := Option.ite_none_right_eq_some.mp hstep
    exact absurd hl hidle
  | handshake ok =>
    unfold WebSocketPublisher.step at hstep
    rcases h with h | h
    · rw [h] at hstep
      cases hstep
    · rw [h] at hstep
      cases hstep
  | task k action =>
    obtain ⟨s, -, hstep⟩ := Option.bind_eq_some_iff.mp hstep
    obtain ⟨s', hset, hmoves⟩ := taskStep_moves hstep
    unfold Closed
    rw [hmoves.listener, hset, List.length_set]
    exact ⟨h, rfl⟩

/-- **Once accepting a connection has failed, no other is accepted.** -/
theorem accept_failed_final {pre more : List (PublisherAction P)} {ws₁ ws : WebSocketPublisher}
    (h₁ : run cfg serialize pre = some ws₁) (hdeaf : ws₁.listener = .deaf)
    (h : run cfg serialize (pre ++ more) = some ws) :
    ws.subscribers.length = ws₁.subscribers.length := by
  rw [run, runFrom_append] at h
  obtain ⟨m, hm, hmore⟩ := Option.bind_eq_some_iff.mp h
  cases h₁.symm.trans hm
  have hrun := @runFrom_induction _ _ (WebSocketPublisher.step cfg serialize)
    (fun _ ws => Closed ws ∧ ws.subscribers.length = ws₁.subscribers.length)
    _ ⟨.inl hdeaf, rfl⟩ (fun _ _ _ _ _ hinv hstep => by
      obtain ⟨hclosed, hlength⟩ := hinv.1.step hstep
      exact ⟨hclosed, hlength.trans hinv.2⟩) more ws hmore
  exact hrun.2

/-! ## Publishing -/

/-- While the publisher is not dropped, its channel is without receivers only if the listener could
    not start. -/
theorem Inv.receivers_eq_zero {ws : WebSocketPublisher} (h : Inv cfg ws) (hterm : ws.term = false) :
    ws.receivers = 0 ↔ ws.listener = .failed := by
  unfold receivers
  constructor
  · intro hzero
    cases hlistener : ws.listener with
    | failed => rfl
    | stopped =>
      rw [h.stopped hlistener] at hterm
      cases hterm
    | starting | idle | deaf | handshaking =>
      rw [hlistener, Listener.receivers] at hzero
      omega
  · intro hfailed
    rw [h.early (.inr hfailed), hfailed]
    rfl

theorem Inv.publish_result {ws : WebSocketPublisher} (h : Inv cfg ws) (hterm : ws.term = false)
    (payload : P) :
    (ws.publish serialize payload).1 = .error .connectionAborted ↔
      ws.listener = .failed ∧ (serialize payload).isSome := by
  have hreceivers := h.receivers_eq_zero hterm
  unfold WebSocketPublisher.publish
  cases serialize payload with
  | none => simp
  | some text =>
    dsimp only
    split
    · rename_i hzero
      simp [hreceivers.mp hzero]
    · rename_i hpos
      simp [mt hreceivers.mpr hpos]

/-! ## Every run -/

/-- What holds in a state of the publisher. -/
structure Exact (cfg : PublisherConfig) (serialize : P → Option String) (ws : WebSocketPublisher) :
    Prop where
  /-- A client is sent messages in the order in which they were published, none twice; any that
      it missed had at least `capacity` newer ones.  At most one message read is not sent. -/
  order : ∀ s ∈ ws.subscribers, s.Held ∧ Follows cfg.capacity ws.pipe s.start s.cursor s.taken
  /-- With no more than `capacity` messages published since it connected, it missed none. -/
  complete : ∀ s ∈ ws.subscribers, ws.pipe.length ≤ s.start + cfg.capacity →
    s.taken = (ws.pipe.take s.cursor).drop s.start
  subs : ws.subs = ws.subscribers.countP (fun s => s.phase.counted)
  sent : ws.sent = (ws.subscribers.map (fun s => s.taken.length)).sum
  /-- Publishing does not fail for lack of clients. -/
  publish : ws.term = false → ∀ payload,
    (ws.publish serialize payload).1 = .error .connectionAborted ↔
      ws.listener = .failed ∧ (serialize payload).isSome

/-- **Every run of the publisher**, its listener and its tasks, in any interleaving: what each
    client is sent, what the counters count, when publishing fails, and how far the limit of
    subscribers can be exceeded. -/
theorem publisher_exact (acts : List (PublisherAction P)) (ws : WebSocketPublisher)
    (h : run cfg serialize acts = some ws) :
    ws.Exact cfg serialize ∧
    (∀ pre ws₁, pre <+: acts → run cfg serialize pre = some ws₁ → ws₁.listener = .deaf →
      ws.subscribers.length = ws₁.subscribers.length) ∧
    ∀ limit width, cfg.subscriberLimit = some limit →
      (∀ pre ws₁, pre <+: acts → run cfg serialize pre = some ws₁ → ws₁.admitted ≤ width) →
      ws.subs + ws.admitted ≤ limit + (width - 1) := by
  have hinv := run_inv h
  refine ⟨⟨?_, ?_, hinv.subs, hinv.sent, ?_⟩, ?_, ?_⟩
  · exact fun s hs => ⟨hinv.held s hs, hinv.follows s hs⟩
  · exact fun s hs hfew => (hinv.follows s hs).complete hfew
  · exact fun hterm payload => hinv.publish_result hterm payload
  · rintro pre ws₁ ⟨more, rfl⟩ h₁ hdeaf
    exact accept_failed_final h₁ hdeaf h
  · exact fun limit width hlimit hwidth => run_limit hlimit h hwidth

section Sample

/-- Two clients connect, pass the check of a limit of one side by side, and one is sent a
    message. -/
def sideBySide : List (PublisherAction String) :=
  [.listen true, .accept, .handshake true, .accept, .handshake true, .task 0 .check, .task 1 .check,
    .task 0 (.count true), .task 1 (.count true), .publish "flashblock", .task 0 .receive,
    .task 0 (.sendDone true)]

theorem sideBySide_exact :
    ∃ ws, run ⟨128, some 1⟩ some sideBySide = some ws ∧ ws.subs = 2 ∧
      ws.subscribers.map Subscriber.received = [["flashblock"], []] ∧
      ws.Exact ⟨128, some 1⟩ (some : String → Option String) :=
  ⟨_, rfl, rfl, rfl, (publisher_exact sideBySide _ rfl).1⟩

end Sample

end WebSocketPublisher

end XLayerReth.Builder
