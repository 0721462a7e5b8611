import XLayerReth.Builder.Capture

/-!
# Capture is exact

What the inspector should report for a transaction, said over the tree of its frames, and that it
reports exactly this for every tree.

* `Trace` — a well-nested execution: logs, opcodes and SELFDESTRUCTs, and frames with their
  outcome; `Trace.hooks` is the sequence of callbacks it makes.
* `Trace.candidates` — every qualifying native transfer, in reverted frames too.
* `Trace.committed` — the logs and transfers all of whose enclosing frames succeeded.
* `Ran` — what a run of callbacks does to the inspector.

Principal results: `hooks_ran` (one well-nested run, by induction on its tree) and
`capture_exact`.
-/

set_option autoImplicit false

namespace XLayerReth.Builder

open RcsFilter

/-! ## Executions -/

/-- A call or create frame with its outcome. -/
inductive Frame where
  | call (transferValue : Option U256) (sender recipient : Address) (isOk : Bool)
  | create (inputs : CreateInputs) (callerNonce : Option Nat) (isOk : Bool)
      (address : Option Address)

/-- What happens in a frame besides inner frames.  The callback of a SELFDESTRUCT does not fire
    when its opcode fails. -/
inductive Leaf where
  | log (log : Log)
  | opcode (journalBefore journalAfter : Nat)
  | selfdestruct (journalBefore journalAfter : Nat)
      (callback : Option (Address × Address × U256))

/-- A well-nested execution. -/
inductive Trace where
  | nil
  | leaf (e : Leaf) (rest : Trace)
  | frame (f : Frame) (body rest : Trace)

def Frame.enter : Frame → Hook
  | .call transferValue sender recipient _ => .call transferValue sender recipient
  | .create inputs callerNonce _ _ => .create inputs callerNonce

def Frame.exit : Frame → Hook
  | .call _ _ _ isOk => .callEnd isOk
  | .create _ _ isOk address => .createEnd isOk address

def Leaf.hooks : Leaf → List Hook
  | .log l => [.log l]
  | .opcode before after => [.step false before, .stepEnd after]
  | .selfdestruct before after callback =>
    [.step true before, .stepEnd after] ++
      (callback.map (fun c => Hook.selfdestruct c.1 c.2.1 c.2.2)).toList

def Trace.hooks : Trace → List Hook
  | .nil => []
  | .leaf e rest => e.hooks ++ rest.hooks
  | .frame f body rest => f.enter :: body.hooks ++ f.exit :: rest.hooks

/-! ## What should be captured -/

/-- The virtual log of a transfer, if it qualifies. -/
def qualifying (sender recipient : Address) (value : U256) : List Log :=
  if value = 0 ∨ sender = recipient then [] else [nativeTransferLog sender recipient value]

/-- The transfer of a frame on its entry. -/
def Frame.transfer : Frame → List Log
  | .call none _ _ _ => []
  | .call (some value) sender recipient _ => qualifying sender recipient value
  | .create inputs callerNonce _ _ =>
    qualifying inputs.caller (inputs.derived callerNonce) inputs.value

/-- The transfer of a SELFDESTRUCT, if its opcode appended a journal entry. -/
def Leaf.transfer : Leaf → List Log
  | .selfdestruct before after (some (contract, target, value)) =>
    if before < after then qualifying contract target value else []
  | _ => []

/-- A create may also end well without an address; its changes are then revoked. -/
def Frame.succeeded : Frame → Bool
  | .call _ _ _ isOk => isOk
  | .create _ _ isOk address => isOk && address.isSome

/-- An endowed successful create that reports another address than the derived one. -/
def Frame.mismatched : Frame → Bool
  | .call .. => false
  | .create inputs callerNonce isOk address =>
    inputs.value ≠ 0 && isOk && address.isSome && address ≠ some (inputs.derived callerNonce)

/-- One for a create frame. -/
def Frame.creates : Frame → Nat
  | .call .. => 0
  | .create .. => 1

def Frame.entries (f : Frame) : List QueuedLog := f.transfer.map .virtual

def Leaf.entries : Leaf → List QueuedLog
  | .log l => [.real l]
  | e => e.transfer.map .virtual

namespace Trace

/-- Every frame. -/
def frames : Trace → List Frame
  | .nil => []
  | .leaf _ rest => rest.frames
  | .frame f body rest => f :: body.frames ++ rest.frames

/-- Every qualifying transfer. -/
def candidates : Trace → List Log
  | .nil => []
  | .leaf e rest => e.transfer ++ rest.candidates
  | .frame f body rest => f.transfer ++ body.candidates ++ rest.candidates

/-- Every log and transfer in execution order, with the frames around it; the transfer of a frame
    is inside it. -/
def occurrences : List Frame → Trace → List (List Frame × QueuedLog)
  | _, .nil => []
  | enclosing, .leaf e rest => e.entries.map (enclosing, ·) ++ occurrences enclosing rest
  | enclosing, .frame f body rest =>
    f.entries.map (f :: enclosing, ·) ++ occurrences (f :: enclosing) body ++
      occurrences enclosing rest

/-- Those all of whose enclosing frames succeeded. -/
def surviving (os : List (List Frame × QueuedLog)) : List QueuedLog :=
  (os.filter (fun o => o.1.all Frame.succeeded)).map Prod.snd

/-- The logs and transfers all of whose enclosing frames succeeded. -/
def committed (t : Trace) : List QueuedLog := surviving (occurrences [] t)

/-- The real logs all of whose enclosing frames succeeded. -/
def committedLogs (t : Trace) : List Log :=
  t.committed.filterMap (fun
    | .real log => some log
    | .virtual _ => none)

/-- The depths of open create frames at which a mismatch shows, in the order of the ends. -/
def mismatches : Nat → Trace → List Nat
  | _, .nil => []
  | depth, .leaf _ rest => mismatches depth rest
  | depth, .frame f body rest =>
    mismatches (depth + f.creates) body ++ (if f.mismatched then [depth] else []) ++
      mismatches depth rest

theorem surviving_append (os os' : List (List Frame × QueuedLog)) :
    surviving (os ++ os') = surviving os ++ surviving os' := by
  unfold surviving
  rw [List.filter_append, List.map_append]

theorem surviving_map (enclosing : List Frame) (entries : List QueuedLog) :
    surviving (entries.map (enclosing, ·)) =
      if enclosing.all Frame.succeeded then entries else [] := by
  unfold surviving
  induction entries with
  | nil => simp
  | cons e rest ih =>
    rw [List.map_cons, List.filter_cons]
    dsimp only
    split
    · rename_i h
      rw [if_pos h] at ih
      rw [List.map_cons, ih]
    · rename_i h
      rw [if_neg h] at ih
      exact ih

theorem occurrences_leaf (enclosing : List Frame) (e : Leaf) (rest : Trace) :
    occurrences enclosing (.leaf e rest) =
      e.entries.map (enclosing, ·) ++ occurrences enclosing rest := rfl

theorem occurrences_frame (enclosing : List Frame) (f : Frame) (body rest : Trace) :
    occurrences enclosing (.frame f body rest) =
      f.entries.map (f :: enclosing, ·) ++ occurrences (f :: enclosing) body ++
        occurrences enclosing rest := rfl

theorem committed_leaf (e : Leaf) (rest : Trace) :
    (Trace.leaf e rest).committed = e.entries ++ rest.committed := by
  unfold committed
  rw [occurrences_leaf, surviving_append, surviving_map, List.all_nil, if_pos rfl]

/-- Inside frames of which one failed, nothing survives. -/
theorem surviving_occurrences (t : Trace) : ∀ enclosing : List Frame,
    surviving (occurrences enclosing t) =
      if enclosing.all Frame.succeeded then t.committed else [] := by
  induction t with
  | nil => intro enclosing; simp [occurrences, committed, surviving]
  | leaf e rest ih =>
    intro enclosing
    rw [occurrences_leaf, surviving_append, surviving_map, ih, committed_leaf]
    split <;> rfl
  | frame f body rest ihb ihr =>
    intro enclosing
    unfold committed
    rw [occurrences_frame, occurrences_frame]
    simp only [surviving_append, surviving_map, ihb, ihr, List.all_cons]
    by_cases hs : enclosing.all Frame.succeeded = true <;>
      by_cases hf : f.succeeded = true <;> simp [hs, hf]

theorem committed_frame (f : Frame) (body rest : Trace) :
    (Trace.frame f body rest).committed =
      (if f.succeeded then f.entries ++ body.committed else []) ++ rest.committed := by
  have hbody := surviving_occurrences body [f]
  unfold committed
  rw [occurrences_frame, surviving_append, surviving_append, surviving_map, hbody, List.all_cons,
    List.all_nil, Bool.and_true]
  split <;> rfl

theorem mismatches_eq_nil (t : Trace) : ∀ depth : Nat,
    mismatches depth t = [] ↔ ∀ f ∈ t.frames, f.mismatched = false := by
  induction t with
  | nil => intro depth; simp [mismatches, frames]
  | leaf e rest ih => exact ih
  | frame f body rest ihb ihr =>
    intro depth
    unfold mismatches frames
    rw [List.append_eq_nil_iff, List.append_eq_nil_iff, ihb, ihr, List.forall_mem_append,
      List.forall_mem_cons]
    cases f.mismatched <;> simp

end Trace

/-! ## What a run of callbacks does -/

/-- Capturing, with no SELFDESTRUCT under way. -/
structure Armed (s : RcsInspector) : Prop where
  active : s.active = true
  mark : s.selfdestructJournalMark = none
  overflowed : s.overflowed = decide (s.limit < s.observedCount)

/-- An armed inspector passes the gate of every hook. -/
theorem Armed.gate {s : RcsInspector} (h : Armed s) : ¬ (!s.active) = true := by
  rw [h.active]
  exact Bool.false_ne_true

/-- From `s` to `s'`, `n` candidates were counted and `mismatches` noticed; the stacks are back
    where they were; and unless the budget is spent or a mismatch was noticed, exactly `entries`
    joined the queue. -/
structure Ran (s s' : RcsInspector) (n : Nat) (mismatches : List Nat)
    (entries : List QueuedLog) : Prop where
  armed : Armed s'
  limit : s'.limit = s.limit
  checkpoints : s'.checkpoints = s.checkpoints
  recipients : s'.createRecipients = s.createRecipients
  count : s'.observedCount = s.observedCount + n
  mismatch : s'.addressMismatchCreateIndex =
    mismatches.getLast?.or s.addressMismatchCreateIndex
  queue : ∃ q, s'.queue = s.queue ++ q ∧
    (s'.observedCount ≤ s.limit → mismatches = [] → q = entries)

section Runs

variable {s s₁ s₂ : RcsInspector} {n n' : Nat} {ms ms' : List Nat} {es es' : List QueuedLog}

theorem Ran.refl (h : Armed s) : Ran s s 0 [] [] where
  armed := h
  limit := rfl
  checkpoints := rfl
  recipients := rfl
  count := rfl
  mismatch := rfl
  queue := ⟨[], (List.append_nil _).symm, fun _ _ => rfl⟩

theorem Ran.trans (h : Ran s s₁ n ms es) (h' : Ran s₁ s₂ n' ms' es') :
    Ran s s₂ (n + n') (ms ++ ms') (es ++ es') where
  armed := h'.armed
  limit := h'.limit.trans h.limit
  checkpoints := h'.checkpoints.trans h.checkpoints
  recipients := h'.recipients.trans h.recipients
  count := by rw [h'.count, h.count, Nat.add_assoc]
  mismatch := by rw [h'.mismatch, h.mismatch, List.getLast?_append, Option.or_assoc]
  queue := by
    obtain ⟨q, hq, hes⟩ := h.queue
    obtain ⟨q', hq', hes'⟩ := h'.queue
    refine ⟨q ++ q', by rw [hq', hq, List.append_assoc], fun hle hms => ?_⟩
    obtain ⟨hms₁, hms₂⟩ := List.append_eq_nil_iff.mp hms
    have hc := h'.count
    rw [hes (by omega) hms₁, hes' (by rw [h.limit]; exact hle) hms₂]

/-- One candidate. -/
theorem observe_ran (h : Armed s) (sender recipient : Address) (value : U256)
    (kind : NativeTransferKind) :
    Ran s (s.observeNativeTransfer sender recipient value kind)
      (qualifying sender recipient value).length []
      ((qualifying sender recipient value).map .virtual) := by
  unfold RcsInspector.observeNativeTransfer qualifying
  rw [if_neg h.gate]
  by_cases hq : value = 0 ∨ sender = recipient
  · rw [if_pos hq, if_pos hq]
    exact Ran.refl h
  · rw [if_neg hq, if_neg hq]
    dsimp only
    split
    · rename_i hover
      refine ⟨⟨h.active, h.mark, ?_⟩, rfl, rfl, rfl, rfl, rfl, [], ?_, ?_⟩
      · simpa using hover
      · exact (List.append_nil _).symm
      · intro hle
        exact absurd hle (Nat.not_le_of_lt hover)
    · rename_i hfit
      refine ⟨⟨h.active, h.mark, ?_⟩, rfl, rfl, rfl, rfl, rfl, _, rfl, fun _ _ => rfl⟩
      show s.overflowed = decide (s.limit < s.observedCount + 1)
      rw [h.overflowed]
      have hno : ¬ s.limit < s.observedCount := by omega
      simp only [hno, decide_false]
      exact (decide_eq_false (by omega)).symm

theorem leaf_ran (h : Armed s) (e : Leaf) :
    Ran s (s.hooks e.hooks) e.transfer.length [] e.entries := by
  cases e with
  | log l =>
    have hlog : s.hooks [.log l] = { s with queue := s.queue ++ [.real l] } := by
      show s.recordRealLog l = _
      exact if_neg h.gate
    show Ran s (s.hooks [.log l]) 0 [] [.real l]
    rw [hlog]
    exact ⟨⟨h.active, h.mark, h.overflowed⟩, rfl, rfl, rfl, rfl, rfl, _, rfl, fun _ _ => rfl⟩
  | opcode before after =>
    have hop : s.hooks [.step false before, .stepEnd after] = s := by
      show s.stepEnd after = s
      unfold RcsInspector.stepEnd
      rw [h.active, h.mark]
      rfl
    show Ran s (s.hooks [.step false before, .stepEnd after]) 0 [] []
    rw [hop]
    exact Ran.refl h
  | selfdestruct before after callback =>
    -- the step pair measures this opcode alone, whatever an earlier one left behind
    have hmark : s.hooks [.step true before, .stepEnd after] =
        { s with selfdestructWroteJournal := decide (after > before) } := by
      show (s.step true before).stepEnd after = _
      unfold RcsInspector.step RcsInspector.stepEnd
      simp [h.active, h.mark]
    have hmeasured : ∀ wrote, Ran s { s with selfdestructWroteJournal := wrote } 0 [] [] :=
      fun wrote => { Ran.refl h with armed := ⟨h.active, h.mark, h.overflowed⟩ }
    cases callback with
    | none =>
      show Ran s (s.hooks [.step true before, .stepEnd after]) 0 [] []
      rw [hmark]
      exact hmeasured _
    | some c =>
      obtain ⟨contract, target, value⟩ := c
      have hall : s.hooks (Leaf.selfdestruct before after (some (contract, target, value))).hooks =
          (s.hooks [.step true before, .stepEnd after]).selfdestruct contract target value := rfl
      rw [hall, hmark]
      unfold RcsInspector.selfdestruct
      rw [if_neg h.gate]
      by_cases hj : before < after
      · have hmem := hmeasured false
        have hobs := hmem.trans (observe_ran hmem.armed contract target value .selfDestruct)
        simpa [Leaf.entries, Leaf.transfer, hj] using hobs
      · simpa [Leaf.entries, Leaf.transfer, hj] using hmeasured false

/-- The end of a frame whose entry pushed a checkpoint. -/
theorem pop_ran (h : Ran { s with checkpoints := s.queue.length :: s.checkpoints } s₁ n ms es)
    (reverted : Bool) :
    Ran s (s₁.popCheckpoint reverted) n ms (if reverted then [] else es) := by
  unfold RcsInspector.popCheckpoint
  rw [if_neg h.armed.gate, h.checkpoints]
  obtain ⟨q, hq, hes⟩ := h.queue
  cases reverted with
  | true =>
    refine ⟨⟨h.armed.active, h.armed.mark, h.armed.overflowed⟩, h.limit, rfl, h.recipients,
      h.count, h.mismatch, [], ?_, fun _ _ => rfl⟩
    show s₁.queue.take s.queue.length = s.queue ++ []
    rw [hq, List.append_nil]
    exact List.take_left
  | false =>
    exact ⟨⟨h.armed.active, h.armed.mark, h.armed.overflowed⟩, h.limit, rfl, h.recipients,
      h.count, h.mismatch, q, hq, hes⟩

theorem push_eq (h : Armed s) :
    s.pushCheckpoint = { s with checkpoints := s.queue.length :: s.checkpoints } :=
  if_neg h.gate

/-- What the entry of a frame pushes on the recipient stack. -/
def Frame.recipients : Frame → List (Option Address)
  | .call .. => []
  | .create inputs callerNonce _ _ =>
    [if inputs.value ≠ 0 then some (inputs.derived callerNonce) else none]

/-- The inspector inside a frame, before anything in it was observed. -/
def inside (s : RcsInspector) (f : Frame) : RcsInspector :=
  { s with
    checkpoints := s.queue.length :: s.checkpoints
    createRecipients := f.recipients ++ s.createRecipients }

theorem inside_armed (h : Armed s) (f : Frame) : Armed (inside s f) :=
  ⟨h.active, h.mark, h.overflowed⟩

/-- The entry of a frame observes its own transfer. -/
theorem enter_ran (h : Armed s) (f : Frame) :
    Ran (inside s f) (s.hook f.enter) f.transfer.length [] f.entries := by
  cases f with
  | call transferValue sender recipient isOk =>
    have henter : s.hook (Frame.call transferValue sender recipient isOk).enter =
        (inside s (.call transferValue sender recipient isOk)).recordCallObservation
          transferValue sender recipient := by
      show s.pushCheckpoint.recordCallObservation transferValue sender recipient = _
      rw [push_eq h]
      rfl
    rw [henter]
    cases transferValue with
    | none => exact Ran.refl (inside_armed h _)
    | some value => exact observe_ran (inside_armed h _) sender recipient value .call
  | create inputs callerNonce isOk address =>
    have henter : s.hook (Frame.create inputs callerNonce isOk address).enter =
        (inside s (.create inputs callerNonce isOk address)).recordCreateObservation
          inputs.value inputs.caller (inputs.derived callerNonce) := by
      show s.create inputs callerNonce = _
      unfold RcsInspector.create
      rw [push_eq h]
      exact if_neg h.gate
    rw [henter]
    exact observe_ran (inside_armed h _) inputs.caller _ inputs.value .create

/-- The end of a create frame: the recipient is popped with the checkpoint. -/
theorem createEnd_ran {inputs : CreateInputs} {callerNonce : Option Nat} {isOk : Bool}
    {address : Option Address} (f : Frame) (hf : f = .create inputs callerNonce isOk address)
    (h : Ran (inside s f) s₁ n ms es) :
    Ran s (s₁.createEnd isOk address) n
      (ms ++ if f.mismatched then [s.createRecipients.length] else [])
      (if f.succeeded then es else []) := by
  subst hf
  have hrec : s₁.createRecipients =
      (if inputs.value ≠ 0 then some (inputs.derived callerNonce) else none) ::
        s.createRecipients := h.recipients
  -- the checkpoint is popped from a state whose recipient stack is back in place
  have hpopped : Ran { s with checkpoints := s.queue.length :: s.checkpoints }
      { s₁ with createRecipients := s.createRecipients } n ms es :=
    ⟨⟨h.armed.active, h.armed.mark, h.armed.overflowed⟩, h.limit, h.checkpoints, rfl, h.count,
      h.mismatch, h.queue⟩
  unfold RcsInspector.createEnd
  rw [if_neg h.armed.gate, hrec]
  simp only [List.head?_cons, List.tail_cons]
  cases isOk with
  | false =>
    have := pop_ran hpopped true
    simpa [Frame.mismatched, Frame.succeeded] using this
  | true =>
    cases address with
    | none =>
      have := pop_ran hpopped true
      simpa [Frame.mismatched, Frame.succeeded] using this
    | some a =>
      by_cases hv : inputs.value = 0
      · have := pop_ran hpopped false
        simpa [Frame.mismatched, Frame.succeeded, hv] using this
      · rw [if_pos hv]
        by_cases ha : inputs.derived callerNonce = a
        · have := pop_ran hpopped false
          simpa [Frame.mismatched, Frame.succeeded, ha] using this
        · have hmis : Ran { s with checkpoints := s.queue.length :: s.checkpoints }
              { s₁ with
                createRecipients := s.createRecipients
                addressMismatchCreateIndex := some s.createRecipients.length } n
              (ms ++ [s.createRecipients.length]) es :=
            { hpopped with
              armed := ⟨h.armed.active, h.armed.mark, h.armed.overflowed⟩
              mismatch := by rw [List.getLast?_concat]; rfl
              queue := by
                obtain ⟨q, hq, -⟩ := h.queue
                exact ⟨q, hq, fun _ hnil => absurd hnil (by simp)⟩ }
          obtain ⟨harm, hlim, hchk, hrcp, hcnt, hmm, q, hq, -⟩ := pop_ran hmis true
          have hne : ¬ a = inputs.derived callerNonce := fun h => ha h.symm
          simp only [Frame.mismatched, Frame.succeeded, hv, ha, hne, if_true, ne_eq,
            not_false_eq_true, decide_true, Option.isSome_some, Bool.and_self, Option.some.injEq]
          exact ⟨harm, hlim, hchk, hrcp, hcnt, hmm, q, hq, fun _ hnil => absurd hnil (by simp)⟩

theorem exit_ran (f : Frame) (h : Ran (inside s f) s₁ n ms es) :
    Ran s (s₁.hook f.exit) n (ms ++ if f.mismatched then [s.createRecipients.length] else [])
      (if f.succeeded then es else []) := by
  cases f with
  | call transferValue sender recipient isOk =>
    have := pop_ran h (!isOk)
    cases isOk <;> simpa [Frame.mismatched, Frame.succeeded, Frame.exit, RcsInspector.hook]
      using this
  | create inputs callerNonce isOk address => exact createEnd_ran _ rfl h

end Runs

/-- **Every well-nested run**, by induction on its tree: the candidates are counted, the stacks
    are balanced, and what is committed joins the queue. -/
theorem hooks_ran (t : Trace) : ∀ s, Armed s →
    Ran s (s.hooks t.hooks) t.candidates.length
      (Trace.mismatches s.createRecipients.length t) t.committed := by
  induction t with
  | nil => exact fun s h => Ran.refl h
  | leaf e rest ih =>
    intro s h
    have hleaf := leaf_ran h e
    have hrest := ih _ hleaf.armed
    rw [hleaf.recipients] at hrest
    have hall : s.hooks (Trace.leaf e rest).hooks = (s.hooks e.hooks).hooks rest.hooks :=
      List.foldl_append ..
    rw [hall, Trace.committed_leaf, Trace.candidates, List.length_append]
    exact hleaf.trans hrest
  | frame f body rest ihb ihr =>
    intro s h
    have hin := enter_ran h f
    have hbody := hin.trans (ihb _ hin.armed)
    have hout := exit_ran f hbody
    have hrest := ihr _ hout.armed
    rw [hout.recipients] at hrest
    have hall : s.hooks (Trace.frame f body rest).hooks =
        ((((s.hook f.enter).hooks body.hooks).hook f.exit).hooks rest.hooks) := by
      show (f.enter :: body.hooks ++ f.exit :: rest.hooks).foldl RcsInspector.hook s = _
      rw [List.cons_append, List.foldl_cons, List.foldl_append, List.foldl_cons]
      rfl
    have hdepth : (s.hook f.enter).createRecipients.length =
        s.createRecipients.length + f.creates := by
      rw [hin.recipients]
      cases f <;> rfl
    have htrans := hout.trans hrest
    rw [hdepth, List.nil_append] at htrans
    rw [hall, Trace.committed_frame, Trace.candidates, List.length_append, List.length_append]
    exact htrans

/-! ## The outcome -/

/-- The first index at which two sequences differ, among those both have. -/
theorem firstDivergence_spec : ∀ (l l' : List Log),
    (∀ i, (l.zip l').findIdx? (fun p => p.1 ≠ p.2) = some i →
      l.take i = l'.take i ∧ l[i]? ≠ l'[i]?) ∧
    ((l.zip l').findIdx? (fun p => p.1 ≠ p.2) = none →
      l.take (min l.length l'.length) = l'.take (min l.length l'.length))
  | [], l' => by simp
  | a :: l, [] => by simp
  | a :: l, b :: l' => by
    obtain ⟨hsome, hnone⟩ := firstDivergence_spec l l'
    rw [List.zip_cons_cons, List.findIdx?_cons]
    by_cases hab : a = b
    · subst hab
      refine ⟨fun i hi => ?_, fun hi => ?_⟩
      · simp only [ne_eq, not_true_eq_false, decide_false, Bool.false_eq_true, if_false,
          Option.map_eq_some_iff] at hi
        obtain ⟨j, hj, rfl⟩ := hi
        obtain ⟨htake, hne⟩ := hsome j (by simpa using hj)
        exact ⟨by rw [List.take_succ_cons, List.take_succ_cons, htake], by simpa using hne⟩
      · simp only [ne_eq, not_true_eq_false, decide_false, Bool.false_eq_true, if_false,
          Option.map_eq_none_iff] at hi
        have htake := hnone (by simpa using hi)
        rw [List.length_cons, List.length_cons, Nat.add_min_add_right, List.take_succ_cons,
          List.take_succ_cons, htake]
    · refine ⟨fun i hi => ?_, fun hi => ?_⟩
      · simp only [ne_eq, hab, not_false_eq_true, decide_true, if_true, Option.some.injEq] at hi
        subst hi
        exact ⟨rfl, by simpa using hab⟩
      · simp [hab] at hi

theorem realLogDivergence_self (logs : List Log) :
    RcsInspector.realLogDivergence logs logs = none := by
  unfold RcsInspector.realLogDivergence
  dsimp only
  rw [if_neg (not_not.mpr rfl), Option.map_eq_none_iff]
  cases h : (logs.zip logs).findIdx? (fun p => p.1 ≠ p.2) with
  | none => rfl
  | some i => exact absurd rfl ((firstDivergence_spec logs logs).1 i h).2

/-- Sequences that differ are reported with the first index at which they do. -/
theorem realLogDivergence_of_ne {real resultLogs : List Log} (hne : resultLogs ≠ real) :
    ∃ i, RcsInspector.realLogDivergence real resultLogs =
        some (i, real.length, resultLogs.length) ∧
      real.take i = resultLogs.take i ∧ real[i]? ≠ resultLogs[i]? := by
  obtain ⟨hsome, hnone⟩ := firstDivergence_spec real resultLogs
  unfold RcsInspector.realLogDivergence
  dsimp only
  cases h : (real.zip resultLogs).findIdx? (fun p => p.1 ≠ p.2) with
  | some i =>
    refine ⟨i, ?_, hsome i h⟩
    split <;> rfl
  | none =>
    have htake := hnone h
    have hlen : real.length ≠ resultLogs.length := by
      intro heq
      rw [heq, Nat.min_self, ← heq, List.take_length, heq, List.take_length] at htake
      exact hne htake.symm
    refine ⟨min real.length resultLogs.length, if_pos hlen, htake, ?_⟩
    rcases Nat.lt_or_gt_of_ne hlen with hlt | hlt
    · rw [Nat.min_eq_left (Nat.le_of_lt hlt), List.getElem?_eq_none (Nat.le_refl _),
        List.getElem?_eq_getElem hlt]
      simp
    · rw [Nat.min_eq_right (Nat.le_of_lt hlt), List.getElem?_eq_getElem hlt,
        List.getElem?_eq_none (Nat.le_refl _)]
      simp

/-- **Native-transfer capture is exact**, for every inspector and every well-nested execution.
    Without a create mismatch the outcome is the committed stream if the budget of candidates is
    kept and the result carries the committed logs, `LimitExceeded` if the budget is exceeded,
    and a log mismatch otherwise; after a create mismatch it is the last mismatch. -/
theorem capture_exact (s : RcsInspector) (t : Trace) (resultLogs : List Log) :
    let outcome := ((s.startCapture.hooks t.hooks).finishCapture resultLogs).1
    ((∀ f ∈ t.frames, f.mismatched = false) →
      (t.candidates.length ≤ s.limit → resultLogs = t.committedLogs →
        outcome = .complete (t.committed.map QueuedLog.intoLog)) ∧
      (s.limit < t.candidates.length →
        outcome = .limitExceeded t.candidates.length s.limit) ∧
      (t.candidates.length ≤ s.limit → resultLogs ≠ t.committedLogs →
        ∃ i, outcome = .invariantViolation
            (.realLogMismatch i t.committedLogs.length resultLogs.length) ∧
          t.committedLogs.take i = resultLogs.take i ∧
          t.committedLogs[i]? ≠ resultLogs[i]?)) ∧
    ((∃ f ∈ t.frames, f.mismatched = true) →
      ∃ i, (Trace.mismatches 0 t).getLast? = some i ∧
        outcome = .invariantViolation (.createAddressMismatch i)) := by
  have harm : Armed s.startCapture := ⟨rfl, rfl, rfl⟩
  have hran : Ran s.startCapture (s.startCapture.hooks t.hooks) t.candidates.length
      (Trace.mismatches 0 t) t.committed := hooks_ran t s.startCapture harm
  obtain ⟨q, hq, hes⟩ := hran.queue
  have hlimit : (s.startCapture.hooks t.hooks).limit = s.limit := hran.limit
  have hcount : (s.startCapture.hooks t.hooks).observedCount = t.candidates.length := by
    rw [hran.count]
    exact Nat.zero_add _
  have hover := hran.armed.overflowed
  rw [hlimit, hcount] at hover
  have hmis : (s.startCapture.hooks t.hooks).addressMismatchCreateIndex =
      (Trace.mismatches 0 t).getLast? := by
    rw [hran.mismatch]
    exact Option.or_none
  dsimp only
  unfold RcsInspector.finishCapture RcsInspector.outcome
  refine ⟨fun hno => ?_, fun ⟨f, hf, hm⟩ => ?_⟩
  · have hnil := (Trace.mismatches_eq_nil t 0).mpr hno
    rw [hnil, List.getLast?_nil] at hmis
    rw [hmis]
    dsimp only
    rw [hover, hcount, hlimit]
    have hstream : t.candidates.length ≤ s.limit →
        (s.startCapture.hooks t.hooks).queue = t.committed := by
      intro hle
      rw [hq, hes (by rw [hcount]; exact hle) hnil]
      rfl
    have hreal : t.candidates.length ≤ s.limit →
        (s.startCapture.hooks t.hooks).realLogSubsequence = t.committedLogs := by
      intro hle
      unfold RcsInspector.realLogSubsequence
      rw [hstream hle]
      rfl
    refine ⟨fun hle hlogs => ?_, fun hlt => ?_, fun hle hlogs => ?_⟩
    · rw [decide_eq_false (Nat.not_lt.mpr hle), if_neg Bool.false_ne_true, hreal hle, hlogs,
        realLogDivergence_self, hstream hle]
    · rw [decide_eq_true hlt, if_pos rfl]
    · obtain ⟨i, hdiv, hfirst⟩ := realLogDivergence_of_ne hlogs
      rw [decide_eq_false (Nat.not_lt.mpr hle), if_neg Bool.false_ne_true, hreal hle, hdiv]
      exact ⟨i, rfl, hfirst⟩
  · cases hlast : (Trace.mismatches 0 t).getLast? with
    | none =>
      rw [List.getLast?_eq_none_iff] at hlast
      rw [(Trace.mismatches_eq_nil t 0).mp hlast f hf] at hm
      cases hm
    | some i =>
      refine ⟨i, rfl, ?_⟩
      rw [hmis, hlast]

end XLayerReth.Builder
