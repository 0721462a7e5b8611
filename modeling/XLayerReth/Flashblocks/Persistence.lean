import XLayerReth.Builder.SequenceCache
import XLayerReth.Lib.Runs

/-!
# Persistence of the pending flashblocks

Model of `handle_persistence` in `handler.rs` and of the file of `FlashblockPayloadsCache`: a loop
that adds the received flashblocks to the cache, writes the cache to disk on every tick if anything
was added, and once more when it ends.

* `persist`, `tryLoadFromFilepath` — the file, which is replaced as a whole or left as it was.
* `Persistence`, `Event`, `step` — the state of the loop and what each branch of its `select` does.
* `Sound` — no update is lost: what is promised of every state of a run.
* `Harmless` — neither a failed flush of a tick nor a receiver that lagged.

A tick clears the dirty flag whether or not the flush succeeded, and any receiver error ends the
loop.

Principal results: `persistence_sound_iff` (no update is lost throughout a run exactly when all
events of the run are harmless) and `file_after_closed` (the file then holds what was received).
-/

set_option autoImplicit false

namespace XLayerReth.Flashblocks

open Lib Builder

/-! ## The file -/

/-- What is found at the persistence path. -/
inductive FileContent where
  | sequence (sequence : FlashblockPayloadsSequence)
  /-- It cannot be read or deserialized. -/
  | unreadable

/-- `FLASHBLOCKS_DIR` and `PENDING_SEQUENCE_FILE` in the datadir. -/
def pendingSequencePath (datadir : String) : String :=
  datadir ++ "/" ++ "flashblocks" ++ "/" ++ "pending_sequence.json"

/-- `init_pending_sequence_path`; `created` tells whether the directory is there. -/
def initPendingSequencePath (datadir : String) (created : Bool) : Option String :=
  if created then some (pendingSequencePath datadir) else none

/-- `try_load_from_filepath`. -/
def tryLoadFromFilepath (path : Option String) (file : Option FileContent) :
    Option FlashblockPayloadsSequence :=
  match path, file with
  | some _, some (.sequence sequence) => some sequence
  | _, _ => none

/-- `FlashblockPayloadsCache`. -/
structure FlashblockPayloadsCache where
  inner : Option FlashblockPayloadsSequence
  persistPath : Option String

namespace FlashblockPayloadsCache

/-- `new`. -/
def new (datadir : Option String) (created : Bool) (file : Option FileContent) :
    FlashblockPayloadsCache :=
  let persistPath := datadir.bind (fun datadir => initPendingSequencePath datadir created)
  ⟨tryLoadFromFilepath persistPath file, persistPath⟩

/-- `add_flashblock_payload`, which always succeeds. -/
def addFlashblockPayload (cache : FlashblockPayloadsCache) (flashblock : AddCall) :
    FlashblockPayloadsCache :=
  { cache with inner := Builder.addFlashblockPayload flashblock.1 cache.inner flashblock.2 }

/-- `persist`: whether it succeeds, and the file after it.  The sequence is written to a file next
to the path, which is then renamed; `written` tells whether both succeed. -/
def persist (cache : FlashblockPayloadsCache) (written : Bool) (file : Option FileContent) :
    Bool × Option FileContent :=
  match cache.persistPath, cache.inner with
  | some _, some sequence => if written then (true, some (.sequence sequence)) else (false, file)
  | _, _ => (true, file)

end FlashblockPayloadsCache

/-! ## The loop -/

/-- `RecvError`. -/
inductive RecvError where
  | closed
  | lagged (skipped : Nat)
  deriving DecidableEq

/-- The locals of `handle_persistence` and the file, with a record of what happened. -/
structure Persistence where
  cache : FlashblockPayloadsCache
  file : Option FileContent
  dirty : Bool
  /-- The receiver error that ended the loop. -/
  ended : Option RecvError
  /-- The flashblocks that were received. -/
  received : List AddCall
  /-- Whether each call of `persist` succeeded. -/
  attempts : List Bool

namespace Persistence

/-- The state before the loop. -/
def start (datadir : String) (created : Bool) (file : Option FileContent) : Persistence where
  cache := .new (some datadir) created file
  file := file
  dirty := false
  ended := none
  received := []
  attempts := []

/-- A branch of the `select`; `written` is the outcome of the writes of a flush, if there is one. -/
inductive Event where
  | received (flashblock : AddCall)
  | receiverError (error : RecvError) (written : Bool)
  | tick (written : Bool)

/-- A call of `persist`. -/
def flush (s : Persistence) (written : Bool) : Persistence :=
  let outcome := s.cache.persist written s.file
  { s with file := outcome.2, attempts := s.attempts ++ [outcome.1] }

/-- What a branch does.  A receiver error leaves the loop, and the flush on shutdown follows. -/
def handle (s : Persistence) : Event → Persistence
  | .received flashblock =>
    { s with
      cache := s.cache.addFlashblockPayload flashblock
      dirty := true
      received := s.received ++ [flashblock] }
  | .receiverError error written =>
    let s := { s with ended := some error }
    if s.dirty then s.flush written else s
  | .tick written =>
    if s.dirty then { s.flush written with dirty := false } else s

/-- One iteration; there is none after the loop has ended. -/
def step (s : Persistence) (e : Event) : Option Persistence :=
  if s.ended = none then some (s.handle e) else none

/-- The event calls `persist`. -/
def Attempts (s : Persistence) (e : Event) : Prop :=
  ∃ s' ok, step s e = some s' ∧ s'.attempts = s.attempts ++ [ok]

/-- **No update is lost.** -/
structure Sound (s : Persistence) : Prop where
  /-- What is not dirty is on disk. -/
  clean : s.dirty = false →
    s.received = [] ∨ ∃ sequence, s.cache.inner = some sequence ∧ s.file = some (.sequence sequence)
  /-- After a failed attempt the next tick tries again, and so does the end of the loop. -/
  retries : s.ended = none → s.attempts.getLast? = some false →
    ∀ written, Attempts s (.tick written) ∧ ∀ error, Attempts s (.receiverError error written)
  /-- Only the end of the sender ends the loop. -/
  closes : ∀ error, s.ended = some error → error = .closed
  /-- At the end the cache is on disk, unless the last attempt failed. -/
  final : s.ended.isSome = true → s.attempts.getLast? ≠ some false →
    ∀ sequence, s.cache.inner = some sequence → s.file = some (.sequence sequence)

/-- No flush of a tick fails, and the receiver does not lag. -/
def Harmless (s : Persistence) : Event → Prop
  | .received _ => True
  | .receiverError error _ => error = .closed
  | .tick written => s.dirty = true → written = true

/-! ## What each step does -/

theorem step_eq_some {s s' : Persistence} {e : Event} :
    step s e = some s' ↔ s.ended = none ∧ s' = s.handle e := by
  unfold step
  by_cases hrun : s.ended = none
  · rw [if_pos hrun, Option.some.injEq]
    exact ⟨fun h => ⟨hrun, h.symm⟩, fun h => h.2.symm⟩
  · rw [if_neg hrun]
    exact ⟨fun h => (by cases h), fun h => absurd h.1 hrun⟩

/-- With a path and a sequence, `persist` replaces the file or fails. -/
theorem persist_eq {cache : FlashblockPayloadsCache} {path : String}
    {sequence : FlashblockPayloadsSequence} (hpath : cache.persistPath = some path)
    (hinner : cache.inner = some sequence) (written : Bool) (file : Option FileContent) :
    cache.persist written file =
      (written, if written then some (.sequence sequence) else file) := by
  unfold FlashblockPayloadsCache.persist
  rw [hpath, hinner]
  cases written <;> rfl

theorem isSome_addFlashblockPayload (cache : FlashblockPayloadsCache) (flashblock : AddCall) :
    (cache.addFlashblockPayload flashblock).inner.isSome = true := by
  show (Builder.addFlashblockPayload flashblock.1 cache.inner flashblock.2).isSome = true
  unfold Builder.addFlashblockPayload
  cases cache.inner with
  | none => rfl
  | some sequence =>
    dsimp only
    split <;> rfl

/-! ## The invariant of the harmless steps -/

/-- What holds while all events are harmless. -/
structure Inv (path : String) (s : Persistence) : Prop where
  path_eq : s.cache.persistPath = some path
  held : s.received ≠ [] → s.cache.inner.isSome = true
  dirtied : s.dirty = true → s.received ≠ []
  saved : s.dirty = false → ∀ sequence, s.cache.inner = some sequence →
    s.file = some (.sequence sequence)
  running : s.ended = none → s.attempts.getLast? ≠ some false
  closes : ∀ error, s.ended = some error → error = .closed
  final : s.ended.isSome = true → s.attempts.getLast? ≠ some false →
    ∀ sequence, s.cache.inner = some sequence → s.file = some (.sequence sequence)

variable {path : String} {s s' : Persistence}

theorem inv_start (datadir : String) (file : Option FileContent) :
    Inv (pendingSequencePath datadir) (start datadir true file) where
  path_eq := rfl
  held h := absurd rfl h
  dirtied h := by cases h
  saved _ sequence h := by
    have hload : tryLoadFromFilepath (some (pendingSequencePath datadir)) file = some sequence := h
    show file = some (.sequence sequence)
    cases file with
    | none => cases hload
    | some content =>
      cases content with
      | sequence loaded =>
        cases hload
        rfl
      | unreadable => cases hload
  running _ h := by cases h
  closes _ h := by cases h
  final h := by cases h

theorem Inv.sound (h : Inv path s) : Sound s where
  clean hdirty := by
    by_cases hreceived : s.received = []
    · exact .inl hreceived
    · obtain ⟨sequence, hinner⟩ := Option.isSome_iff_exists.mp (h.held hreceived)
      exact .inr ⟨sequence, hinner, h.saved hdirty sequence hinner⟩
  retries hrun hfailed := absurd hfailed (h.running hrun)
  closes := h.closes
  final := h.final

/-- A flush of a dirty cache tries the writes. -/
theorem Inv.flush (h : Inv path s) (hdirty : s.dirty = true) (written : Bool) :
    ∃ sequence, s.cache.inner = some sequence ∧
      (s.flush written).attempts = s.attempts ++ [written] ∧
      (s.flush written).file = if written then some (.sequence sequence) else s.file := by
  obtain ⟨sequence, hinner⟩ := Option.isSome_iff_exists.mp (h.held (h.dirtied hdirty))
  refine ⟨sequence, hinner, ?_, ?_⟩
  · show s.attempts ++ [(s.cache.persist written s.file).1] = _
    rw [persist_eq h.path_eq hinner]
  · show (s.cache.persist written s.file).2 = _
    rw [persist_eq h.path_eq hinner]

theorem Inv.received (h : Inv path s) (hrun : s.ended = none) (flashblock : AddCall) :
    Inv path (s.handle (.received flashblock)) where
  path_eq := h.path_eq
  held _ := isSome_addFlashblockPayload s.cache flashblock
  dirtied _ := List.append_ne_nil_of_right_ne_nil _ (List.cons_ne_nil _ _)
  saved hdirty := by cases hdirty
  running := h.running
  closes := h.closes
  final hended := by
    have hnone : (s.handle (.received flashblock)).ended = none := hrun
    rw [hnone] at hended
    cases hended

/-- A tick leaves the file with the sequence, if its flush does not fail. -/
theorem Inv.tick (h : Inv path s) (hrun : s.ended = none) {written : Bool}
    (hwritten : s.dirty = true → written = true) : Inv path (s.handle (.tick written)) := by
  by_cases hdirty : s.dirty = true
  · obtain ⟨sequence, hinner, hattempts, hfile⟩ := h.flush hdirty written
    rw [hwritten hdirty] at hattempts hfile ⊢
    have hhandle : s.handle (.tick true) = { s.flush true with dirty := false } := if_pos hdirty
    rw [hhandle]
    refine ⟨h.path_eq, h.held, fun hno => ?_, fun _ other hother => ?_, fun _ => ?_, h.closes,
      fun hended => ?_⟩
    · cases hno
    · have heq : some sequence = some other := hinner.symm.trans hother
      cases heq
      exact hfile
    · show (s.flush true).attempts.getLast? ≠ some false
      rw [hattempts, List.getLast?_concat]
      decide
    · have hnone : (s.flush true).ended = none := hrun
      rw [hnone] at hended
      cases hended
  · have hhandle : s.handle (.tick written) = s := if_neg hdirty
    rw [hhandle]
    exact h

/-- The end of the sender: the flush on shutdown, if there is anything to flush. -/
theorem Inv.closed (h : Inv path s) (written : Bool) :
    Inv path (s.handle (.receiverError .closed written)) := by
  have hcloses : ∀ error, some RecvError.closed = some error → error = .closed := by
    intro error herror
    cases herror
    rfl
  by_cases hdirty : s.dirty = true
  · obtain ⟨sequence, hinner, hattempts, hfile⟩ := h.flush hdirty written
    have hhandle : s.handle (.receiverError .closed written) =
        { s.flush written with ended := some .closed } := if_pos hdirty
    rw [hhandle]
    refine ⟨h.path_eq, h.held, h.dirtied, fun hno => ?_, fun hno => ?_, hcloses,
      fun _ hlast other hother => ?_⟩
    · exact absurd (hdirty.symm.trans hno) (by decide)
    · cases hno
    · have hwritten : written = true := by
        have hlast' : (s.flush written).attempts.getLast? ≠ some false := hlast
        rw [hattempts, List.getLast?_concat] at hlast'
        simpa using hlast'
      have heq : some sequence = some other := hinner.symm.trans hother
      cases heq
      rw [hwritten] at hfile
      rw [hwritten]
      exact hfile
  · have hclean : s.dirty = false := by simpa using hdirty
    have hhandle : s.handle (.receiverError .closed written) = { s with ended := some .closed } :=
      if_neg hdirty
    rw [hhandle]
    exact ⟨h.path_eq, h.held, h.dirtied, h.saved, fun hno => (by cases hno), hcloses,
      fun _ _ => h.saved hclean⟩

/-- **Harmless steps carry the invariant.** -/
theorem inv_step {e : Event} (h : Inv path s) (hok : Harmless s e) (hstep : step s e = some s') :
    Inv path s' := by
  obtain ⟨hrun, rfl⟩ := step_eq_some.mp hstep
  cases e with
  | received flashblock => exact h.received hrun flashblock
  | receiverError error written =>
    cases (show error = .closed from hok)
    exact h.closed written
  | tick written => exact h.tick hrun hok

/-- **Any other step loses an update**: after a failed flush of a tick the next tick does not try
    again, and after a lag the loop has ended. -/
theorem not_sound_step {e : Event} (h : Inv path s) (hbad : ¬ Harmless s e)
    (hstep : step s e = some s') : ¬ Sound s' := by
  obtain ⟨hrun, rfl⟩ := step_eq_some.mp hstep
  intro hsound
  cases e with
  | received flashblock => exact hbad trivial
  | receiverError error written =>
    apply hbad
    apply hsound.closes error
    show (if s.dirty then _ else _ : Persistence).ended = some error
    split <;> rfl
  | tick written =>
    by_cases hdirty : s.dirty = true
    · have hfailed : written = false := by
        by_contra hwritten
        exact hbad (fun _ => by simpa using hwritten)
      obtain ⟨sequence, -, hattempts, -⟩ := h.flush hdirty written
      rw [hfailed] at hattempts
      have hhandle : s.handle (.tick written) = { s.flush false with dirty := false } := by
        rw [hfailed]
        exact if_pos hdirty
      rw [hhandle] at hsound
      have hlast : (s.flush false).attempts.getLast? = some false := by
        rw [hattempts, List.getLast?_concat]
      obtain ⟨⟨s', ok, hnext, hmore⟩, -⟩ := hsound.retries hrun hlast true
      obtain ⟨-, rfl⟩ := step_eq_some.mp hnext
      -- the flag is cleared, so that the next tick leaves the attempts as they are
      have hsame : (s.flush false).attempts = (s.flush false).attempts ++ [ok] := hmore
      exact absurd (congrArg List.length hsame) (by simp)
    · exact hbad (fun hdirty' => absurd hdirty' hdirty)

/-! ## Whole runs -/

/-- **No update is lost throughout a run exactly when its events are harmless**: neither a flush of
    a tick fails nor does the receiver lag. -/
theorem persistence_sound_iff (datadir : String) (file : Option FileContent) (events : List Event)
    (last : Persistence) (hrun : runFrom step (start datadir true file) events = some last) :
    (∀ pre s, pre <+: events → runFrom step (start datadir true file) pre = some s → Sound s) ↔
      ∀ pre e s, pre ++ [e] <+: events → runFrom step (start datadir true file) pre = some s →
        Harmless s e :=
  runFrom_safe_iff (inv_start datadir file) (fun _ h => h.sound)
    (fun _ _ _ h hok hstep => inv_step h hok hstep)
    (fun _ _ _ h hbad hstep => not_sound_step h hbad hstep) hrun

/-- Two flashblocks of a sequence, the first of them flushed by a tick. -/
def plainEvents : List Event :=
  [.received (7, smallPayload 0 (some 5) [1]), .tick true, .received (7, smallPayload 1 none [2]),
    .receiverError .closed true]

theorem persistence_sound_plainEvents :
    ∃ last, runFrom step (start "data" true none) plainEvents = some last ∧
      last.ended = some .closed ∧ last.attempts = [true, true] ∧ Sound last := by
  refine ⟨_, rfl, rfl, rfl, ?_⟩
  have hharmless : ∀ e ∈ plainEvents, ∀ s, Harmless s e := by
    intro e he s
    simp only [plainEvents, List.mem_cons, List.not_mem_nil, or_false] at he
    rcases he with rfl | rfl | rfl | rfl
    · trivial
    · exact fun _ => rfl
    · trivial
    · rfl
  exact (persistence_sound_iff "data" none plainEvents _ rfl).mpr
    (fun pre e s hpre _ => hharmless e (hpre.subset (by simp)) s) plainEvents _ List.prefix_rfl rfl

/-- A flashblock is received, the flush of the tick fails, and nothing more arrives: the flashblock
    never gets to the file, although the sender closes in order and no later write would fail.  And
    a receiver that lagged by one message ends the loop. -/
theorem failed_flush_loses_flashblock :
    (∃ last, runFrom step (start "data" true none)
        [.received (7, smallPayload 0 (some 5) [1]), .tick false, .tick true,
          .receiverError .closed true] = some last ∧
      last.ended = some .closed ∧ last.dirty = false ∧ last.cache.inner.isSome = true ∧
      last.file.isNone = true ∧ last.attempts = [false] ∧ ¬ Sound last) ∧
    ∃ last, runFrom step (start "data" true none)
        [.received (7, smallPayload 0 (some 5) [1]), .receiverError (.lagged 1) true] = some last ∧
      last.ended = some (.lagged 1) ∧ ¬ Sound last := by
  refine ⟨⟨_, rfl, rfl, rfl, rfl, rfl, rfl, fun h => ?_⟩, ⟨_, rfl, rfl, fun h => ?_⟩⟩
  · rcases h.clean rfl with hnil | ⟨sequence, -, hfile⟩
    · cases hnil
    · cases hfile
  · cases h.closes _ rfl

/-- The sequence that the received flashblocks give, starting from what was loaded. -/
def sequenceAfter (loaded : Option FlashblockPayloadsSequence) (received : List AddCall) :
    Option FlashblockPayloadsSequence :=
  received.foldl (fun sequence call => Builder.addFlashblockPayload call.1 sequence call.2) loaded

/-- The cache holds what was received, whatever the flushes did. -/
theorem cache_eq_sequenceAfter (datadir : String) (created : Bool) (file : Option FileContent)
    (events : List Event) : ∀ s, runFrom step (start datadir created file) events = some s →
      s.cache.inner = sequenceAfter (start datadir created file).cache.inner s.received := by
  apply runFrom_induction (fun _ (s : Persistence) =>
    s.cache.inner = sequenceAfter (start datadir created file).cache.inner s.received) rfl
  intro _ s e s' _ ih hstep
  obtain ⟨-, rfl⟩ := step_eq_some.mp hstep
  cases e with
  | received flashblock =>
    show Builder.addFlashblockPayload flashblock.1 s.cache.inner flashblock.2 =
      sequenceAfter _ (s.received ++ [flashblock])
    unfold sequenceAfter at ih ⊢
    rw [List.foldl_append, ← ih]
    rfl
  | receiverError error written =>
    simp only [handle]
    split <;> exact ih
  | tick written =>
    simp only [handle]
    split <;> exact ih

/-- **The file at the end.**  If all events were harmless and the last attempt did not fail, the
    file holds the sequence of the flashblocks that were received. -/
theorem file_after_closed {datadir : String} {file : Option FileContent} {events : List Event}
    {last : Persistence} (hrun : runFrom step (start datadir true file) events = some last)
    (hharmless : ∀ pre e s, pre ++ [e] <+: events →
      runFrom step (start datadir true file) pre = some s → Harmless s e)
    (hended : last.ended.isSome = true) (hlast : last.attempts.getLast? ≠ some false)
    (hne : last.received ≠ []) :
    last.file =
      (sequenceAfter (start datadir true file).cache.inner last.received).map .sequence := by
  have hinv := runFrom_ok (Inv (pendingSequencePath datadir)) Harmless (inv_start datadir file)
    (fun _ _ _ h hok hstep => inv_step h hok hstep) hharmless events last List.prefix_rfl hrun
  obtain ⟨sequence, hinner⟩ := Option.isSome_iff_exists.mp (hinv.held hne)
  rw [hinv.final hended hlast sequence hinner, ← cache_eq_sequenceAfter _ _ _ _ last hrun, hinner]
  rfl

end Persistence

end XLayerReth.Flashblocks
