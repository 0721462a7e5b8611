import Mathlib.Data.List.Sort
import XLayerReth.RcsFilter.Submit

/-!
# Running a submit batch

Model of the asynchronous part of `submit.rs`: `run_normal_segment` and the loop of `submit_once`
over the segments.  A future that is awaited may complete at any time, so a run is a sequence of
completions: each picks one of the groups in flight and the result of its request.

* `SegmentRun` — the locals of `run_normal_segment`; `start` is everything before its first
  await, `complete` one iteration of its loop.
* `Batch` — where `submit_once` waits: in a normal segment, on an exclusive group, or no more.
* `Panic` — the ways in which the source would panic; they are kept as outcomes, not excluded.
* `Reaches` — the outcomes of `submit_once` after a number of completions.

The calls are recorded as `Event`s in the order in which they are made.
-/

set_option autoImplicit false

namespace XLayerReth.RcsFilter

open Lib

/-- An index out of bounds, an `expect` on an absent group, a predecessor counter below zero, and
    the assertion at the end of a segment. -/
inductive Panic where
  | outOfBounds
  | absentGroup
  | underflow
  | incomplete

/-- The submission of a group starts, or its future completes. -/
inductive Event where
  | started (group : SubmitGroup)
  | finished (group : SubmitGroup)

/-- The order of the ready heap: by height, then by index. -/
def readyLe (a b : Nat × Nat) : Prop := a.1 < b.1 ∨ (a.1 = b.1 ∧ a.2 ≤ b.2)

instance (a b : Nat × Nat) : Decidable (readyLe a b) :=
  inferInstanceAs (Decidable (_ ∨ _))

/-- An error is kept with the height of its group; the run goes on. -/
def recordError {ε : Type} (errors : List (Nat × ε)) (blockHeight : Nat) :
    Except ε Unit → List (Nat × ε)
  | .error error => errors ++ [(blockHeight, error)]
  | .ok _ => errors

/-- The locals of `run_normal_segment`.  The heap is kept sorted, so that `pop` takes its head. -/
structure SegmentRun (ε : Type) where
  nodes : List SubmitNode
  ready : List (Nat × Nat)
  active : List (Nat × SubmitGroup)
  errors : List (Nat × ε)
  completed : Nat
  events : List Event

namespace SegmentRun

variable {ε : Type}

/-- Push a node on the heap if it waits for nothing. -/
def enqueueIfReady (run : SegmentRun ε) (index : Nat) : Except Panic (SegmentRun ε) :=
  match run.nodes[index]? with
  | none => .error .outOfBounds
  | some node =>
    if node.remainingPredecessors = 0 then
      match node.group with
      | none => .error .absentGroup
      | some group =>
        .ok { run with ready := run.ready.orderedInsert readyLe (group.blockHeight, index) }
    else .ok run

/-- One successor of a completed node. -/
def release (run : SegmentRun ε) (successor : Nat) : Except Panic (SegmentRun ε) :=
  match run.nodes[successor]? with
  | none => .error .outOfBounds
  | some node =>
    if node.remainingPredecessors = 0 then .error .underflow
    else
      let node := { node with remainingPredecessors := node.remainingPredecessors - 1 }
      { run with nodes := run.nodes.set successor node }.enqueueIfReady successor

/-- Take the group of a popped node and start its submission. -/
def launch (run : SegmentRun ε) (index : Nat) (ready : List (Nat × Nat)) :
    Except Panic (SegmentRun ε) :=
  match run.nodes[index]? with
  | none => .error .outOfBounds
  | some node =>
    match node.group with
    | none => .error .absentGroup
    | some group =>
      .ok { run with
        nodes := run.nodes.set index { node with group := none }
        ready := ready
        active := run.active ++ [(index, group)]
        events := run.events ++ [.started group] }

/-- The loop that fills the free slots from the heap. -/
def fill (maxConcurrency : Nat) :
    List (Nat × Nat) → SegmentRun ε → Except Panic (SegmentRun ε)
  | [], run => .ok run
  | (_, index) :: ready, run =>
    if run.active.length < maxConcurrency then
      (run.launch index ready).bind (fill maxConcurrency ready)
    else .ok run

/-- `run_normal_segment` up to its first await. -/
def start (maxConcurrency : Nat) (nodes : List SubmitNode) (events : List Event) :
    Except Panic (SegmentRun ε) :=
  ((List.range nodes.length).foldlM enqueueIfReady ⟨nodes, [], [], [], 0, events⟩).bind
    (fun run => run.fill maxConcurrency run.ready)

/-- One iteration of the loop of `run_normal_segment`: the future at position `k` completes. -/
def complete (maxConcurrency : Nat) (run : SegmentRun ε) (k index : Nat) (group : SubmitGroup)
    (result : Except ε Unit) : Except Panic (SegmentRun ε) :=
  match run.nodes[index]? with
  | none => .error .outOfBounds
  | some node =>
    let run := { run with
      nodes := run.nodes.set index { node with successors := [] }
      active := run.active.eraseIdx k
      errors := recordError run.errors group.blockHeight result
      completed := run.completed + 1
      events := run.events ++ [.finished group] }
    (node.successors.foldlM release run).bind (fun run => run.fill maxConcurrency run.ready)

end SegmentRun

/-- Where `submit_once` waits, with the errors collected so far. -/
inductive Batch (ε : Type) where
  | normal (run : SegmentRun ε) (rest : List ExecutionSegment) (errors : List (Nat × ε))
  | exclusive (group : SubmitGroup) (rest : List ExecutionSegment) (errors : List (Nat × ε))
      (events : List Event)
  | finished (errors : List (Nat × ε)) (events : List Event)

namespace Batch

variable {ε : Type}

/-- The groups in flight. -/
def inFlight : Batch ε → List SubmitGroup
  | .normal run _ _ => run.active.map Prod.snd
  | .exclusive group _ _ _ => [group]
  | .finished _ _ => []

def events : Batch ε → List Event
  | .normal run _ _ => run.events
  | .exclusive _ _ _ events => events
  | .finished _ events => events

/-- Await the active futures of a segment; with none left, check that every node has completed
    and go on. -/
def settle (run : SegmentRun ε) (rest : List ExecutionSegment) (errors : List (Nat × ε))
    (next : List (Nat × ε) → List Event → Except Panic (Batch ε)) : Except Panic (Batch ε) :=
  if run.active.isEmpty then
    if run.completed = run.nodes.length then next (errors ++ run.errors) run.events
    else .error .incomplete
  else .ok (.normal run rest errors)

/-- The segments in order, up to the next await. -/
def enter (maxConcurrency : Nat) :
    List ExecutionSegment → List (Nat × ε) → List Event → Except Panic (Batch ε)
  | [], errors, events => .ok (.finished errors events)
  | .exclusive group :: rest, errors, events =>
    .ok (.exclusive group rest errors (events ++ [.started group]))
  | .normal nodes :: rest, errors, events =>
    (SegmentRun.start maxConcurrency nodes events).bind
      (fun run => settle run rest errors (enter maxConcurrency rest))

/-- The future at position `k` of those in flight completes. -/
def complete (maxConcurrency : Nat) (b : Batch ε) (k : Nat) (result : Except ε Unit) :
    Except Panic (Batch ε) :=
  match b with
  | .normal run rest errors =>
    match run.active[k]? with
    | none => .ok b
    | some (index, group) =>
      (run.complete maxConcurrency k index group result).bind
        (fun run => settle run rest errors (enter maxConcurrency rest))
  | .exclusive group rest errors events =>
    enter maxConcurrency rest (recordError errors group.blockHeight result)
      (events ++ [.finished group])
  | .finished _ _ => .ok b

/-- What `submit_once` returns: the error of the lowest height, if any. -/
def outcome (errors : List (Nat × ε)) : Except ε Unit :=
  match errors.foldl (fun best e => match best with
      | none => some e
      | some b => if e.1 < b.1 then some e else some b) none with
  | none => .ok ()
  | some (_, error) => .error error

end Batch

/-- `submit_once` up to its first await. -/
def submitBatch (ε : Type) (maxConcurrency : Nat) (groups : List SubmitGroup) :
    Except Panic (Batch ε) :=
  Batch.enter maxConcurrency (buildSubmitSchedule groups) [] []

/-- The outcomes of a batch after a number of completions, in any order and with any results. -/
inductive Reaches {ε : Type} (maxConcurrency : Nat) (groups : List SubmitGroup) :
    Nat → Except Panic (Batch ε) → Prop
  | start : Reaches maxConcurrency groups 0 (submitBatch ε maxConcurrency groups)
  | complete {n : Nat} {b : Batch ε} {k : Nat} (result : Except ε Unit) :
      Reaches maxConcurrency groups n (.ok b) → k < b.inFlight.length →
        Reaches maxConcurrency groups (n + 1) (b.complete maxConcurrency k result)

end XLayerReth.RcsFilter
