import XLayerReth.Builder.Availability
import XLayerReth.Lib.Runs

/-!
# Payload jobs

Model of `BlockPayloadJobGenerator` and `BlockPayloadJob` in `generator.rs`: which jobs are live and
what each of them starts from.  The payload service makes jobs, polls them and resolves them in any
order; a job ends once its cancellation token is cancelled, and the clones of a token share it.

* `newPayloadJob` — a job for payload attributes: the running job is cancelled first, if there may
  be only one, and only then the parent is looked up and the attributes are decoded.
* `onNewState`, `maybePreCached` — the reads kept from the last canonical block.
* `JobService`, `step` — the jobs made so far and the tokens that are cancelled.
* `Ends` — what ends a job.

Principal result: `jobs_exact` — in every run a job is cancelled exactly if something ended it, at
most one job is live if there may be only one, and each job starts from the parent its request
names, with the reads of that very parent or none.

Times are in milliseconds, but the clock that a deadline is reckoned from is in seconds.
-/

set_option autoImplicit false

namespace XLayerReth.Builder

open RcsFilter Lib

section

/-- A sealed header. -/
structure SealedHeader where
  header : Header
  hash : B256

/-- `PayloadBuilderError`, as far as `new_payload_job` returns it. -/
inductive PayloadBuilderError where
  | provider
  | missingParentBlock (hash : B256)
  | other

/-- `CancellationToken`. -/
abbrev Token := Nat

/-- `BundleAccount`: an account that a block changed, without an info if it is gone. -/
structure BundleAccount (Info : Type) where
  info : Option Info
  storage : List (U256 × U256)

/-- `CachedReads`: accounts with their storage. -/
abbrev CachedReads (Info : Type) := List (Address × Info × List (U256 × U256))

/-- `CanonStateNotification`: the tip of what was committed, and the accounts it changed. -/
structure CanonStateNotification (Info : Type) where
  tip : B256
  bundleAccounts : List (Address × BundleAccount Info)

/-- `PrecachedState`. -/
structure PrecachedState (Info : Type) where
  block : B256
  cached : CachedReads Info

/-- `BuildNewPayload`. -/
structure BuildNewPayload (Attrs : Type) where
  parentHash : B256
  attributes : Attrs

/-- What the client answers; an error is a failure of the database. -/
structure HeaderReader where
  latestHeader : Except Unit (Option SealedHeader)
  sealedHeaderByHash : B256 → Except Unit (Option SealedHeader)

variable {Attrs Info : Type}

/-- `BlockPayloadJobGenerator`. -/
structure BlockPayloadJobGenerator (Info : Type) where
  ensureOnlyOnePayload : Bool
  lastPayload : Token
  extraBlockDeadline : Nat
  preCached : Option (PrecachedState Info)

/-- `BlockPayloadJob`. -/
structure BlockPayloadJob (Attrs Info : Type) where
  parentHeader : SealedHeader
  attributes : PayloadAttributes
  engineAttrs : Attrs
  payloadId : Nat
  cancel : Token
  deadline : Nat
  cachedReads : Option (CachedReads Info)

/-! ## The reads of the last block -/

/-- The loop of `on_new_state` over the changed accounts. -/
def preCache (bundleAccounts : List (Address × BundleAccount Info)) : CachedReads Info :=
  bundleAccounts.filterMap (fun p => p.2.info.map (fun info => (p.1, info, p.2.storage)))

/-- What is kept from a new canonical state. -/
def readsOf (newState : CanonStateNotification Info) : PrecachedState Info :=
  ⟨newState.tip, preCache newState.bundleAccounts⟩

/-- `on_new_state`. -/
def BlockPayloadJobGenerator.onNewState (g : BlockPayloadJobGenerator Info)
    (newState : CanonStateNotification Info) : BlockPayloadJobGenerator Info :=
  { g with preCached := some (readsOf newState) }

/-- `maybe_pre_cached`. -/
def BlockPayloadJobGenerator.maybePreCached (g : BlockPayloadJobGenerator Info) (parent : B256) :
    Option (CachedReads Info) :=
  (g.preCached.filter (fun pc => pc.block = parent)).map PrecachedState.cached

/-! ## The jobs -/

/-- `job_deadline`: at least one second, also for a timestamp in the past. -/
def jobDeadline (timestamp unixNow : Nat) : Nat :=
  if timestamp - unixNow = 0 then 1 else timestamp - unixNow

/-- The parent of a job: the latest block if the hash is zero. -/
def parentOf (client : HeaderReader) (parentHash : B256) :
    Except PayloadBuilderError SealedHeader :=
  match if parentHash = 0 then client.latestHeader else client.sealedHeaderByHash parentHash with
  | .error _ => .error .provider
  | .ok none => .error (.missingParentBlock parentHash)
  | .ok (some header) => .ok header

/-- The jobs made so far, the tokens that are cancelled, and the next fresh token. -/
structure JobService (Attrs Info : Type) where
  generator : BlockPayloadJobGenerator Info
  jobs : List (BlockPayloadJob Attrs Info)
  cancelled : List Token
  nextToken : Token

/-- `with_builder`. -/
def JobService.new (ensureOnlyOnePayload : Bool) (extraBlockDeadline : Nat) :
    JobService Attrs Info :=
  ⟨⟨ensureOnlyOnePayload, 0, extraBlockDeadline, none⟩, [], [], 1⟩

/-- The token of a new job: if there may be only one job, the token of the last one is cancelled and
    replaced. -/
def JobService.freshToken (w : JobService Attrs Info) : Token × JobService Attrs Info :=
  if w.generator.ensureOnlyOnePayload then
    (w.nextToken, { w with
      generator := { w.generator with lastPayload := w.nextToken }
      cancelled := w.generator.lastPayload :: w.cancelled
      nextToken := w.nextToken + 1 })
  else (w.nextToken, { w with nextToken := w.nextToken + 1 })

variable (fromRpcAttrs : B256 → Nat → Attrs → Option PayloadAttributes)

/-- `new_payload_job`. -/
def JobService.newPayloadJob (w : JobService Attrs Info) (client : HeaderReader)
    (input : BuildNewPayload Attrs) (id now : Nat) :
    Except PayloadBuilderError (BlockPayloadJob Attrs Info) × JobService Attrs Info :=
  let (cancelToken, w) := w.freshToken
  match parentOf client input.parentHash with
  | .error e => (.error e, w)
  | .ok parentHeader =>
    match fromRpcAttrs input.parentHash id input.attributes with
    | none => (.error .other, w)
    | some attributes =>
      let job : BlockPayloadJob Attrs Info :=
        { parentHeader := parentHeader
          attributes := attributes
          engineAttrs := input.attributes
          payloadId := id
          cancel := cancelToken
          deadline := now + 1000 * jobDeadline attributes.timestamp (now / 1000) +
            w.generator.extraBlockDeadline
          cachedReads := w.generator.maybePreCached parentHeader.hash }
      (.ok job, { w with jobs := w.jobs ++ [job] })

/-- `poll`: a job that reached its deadline cancels itself. -/
def JobService.poll (w : JobService Attrs Info) (job : BlockPayloadJob Attrs Info) (now : Nat) :
    Poll Unit × JobService Attrs Info :=
  if job.deadline ≤ now then (.ready (), { w with cancelled := job.cancel :: w.cancelled })
  else if job.cancel ∈ w.cancelled then (.ready (), w)
  else (.pending, w)

/-- `resolve_kind`: the job is cancelled, and the caller waits for its cell. -/
def JobService.resolveKind (w : JobService Attrs Info) (job : BlockPayloadJob Attrs Info) :
    JobService Attrs Info :=
  { w with cancelled := job.cancel :: w.cancelled }

/-- One action of the payload service, or of the chain. -/
inductive JobAct (Attrs Info : Type) where
  | newPayloadJob (client : HeaderReader) (input : BuildNewPayload Attrs) (id now : Nat)
  | onNewState (newState : CanonStateNotification Info)
  | poll (job now : Nat)
  | resolveKind (job : Nat)

/-- One step; `none` when there is no such job. -/
def JobService.step (w : JobService Attrs Info) :
    JobAct Attrs Info → Option (JobService Attrs Info)
  | .newPayloadJob client input id now => some (w.newPayloadJob fromRpcAttrs client input id now).2
  | .onNewState newState => some { w with generator := w.generator.onNewState newState }
  | .poll job now => (w.jobs[job]?).map (fun job => (w.poll job now).2)
  | .resolveKind job => (w.jobs[job]?).map w.resolveKind

/-- A run of the service. -/
def JobService.run (w : JobService Attrs Info) (acts : List (JobAct Attrs Info)) :
    Option (JobService Attrs Info) :=
  runFrom (JobService.step fromRpcAttrs) w acts

/-- The new canonical state that the action tells of. -/
def JobAct.newState? : JobAct Attrs Info → Option (CanonStateNotification Info)
  | .onNewState newState => some newState
  | .newPayloadJob _ _ _ _ | .poll _ _ | .resolveKind _ => none

/-- The canonical state that was told of last. -/
def latestState (acts : List (JobAct Attrs Info)) : Option (CanonStateNotification Info) :=
  (acts.filterMap JobAct.newState?).getLast?

/-! ## What a step does -/

/-- The action ends job `j`: a new job is asked for and there may be only one, the job is polled
    after its deadline, or it is resolved. -/
def JobService.Ends (w : JobService Attrs Info) (j : Nat) : JobAct Attrs Info → Prop
  | .newPayloadJob _ _ _ _ => w.generator.ensureOnlyOnePayload = true
  | .onNewState _ => False
  | .poll i now => i = j ∧ ∃ job, w.jobs[j]? = some job ∧ job.deadline ≤ now
  | .resolveKind i => i = j

/-- The action cancels a token. -/
def JobService.Cancels (w : JobService Attrs Info) (t : Token) : JobAct Attrs Info → Prop
  | .newPayloadJob _ _ _ _ =>
    w.generator.ensureOnlyOnePayload = true ∧ t = w.generator.lastPayload
  | .onNewState _ => False
  | .poll i now => ∃ job, w.jobs[i]? = some job ∧ job.deadline ≤ now ∧ t = job.cancel
  | .resolveKind i => ∃ job, w.jobs[i]? = some job ∧ t = job.cancel

/-- The job that a request asks for, made from the answers of the client and the reads at hand. -/
structure JobService.Makes (w : JobService Attrs Info) (client : HeaderReader)
    (input : BuildNewPayload Attrs) (id now : Nat) (job : BlockPayloadJob Attrs Info) : Prop where
  parent : parentOf client input.parentHash = .ok job.parentHeader
  attributes : fromRpcAttrs input.parentHash id input.attributes = some job.attributes
  engineAttrs : job.engineAttrs = input.attributes
  payloadId : job.payloadId = id
  cancel : job.cancel = w.nextToken
  deadline : job.deadline = now + 1000 * jobDeadline job.attributes.timestamp (now / 1000) +
    w.generator.extraBlockDeadline
  cachedReads : job.cachedReads = w.generator.maybePreCached job.parentHeader.hash

/-- `new_payload_job`: whatever becomes of the request, the last token is cancelled and replaced if
    there may be only one job; a job is added if the parent is found and the attributes decode. -/
theorem newPayloadJob_cases (w : JobService Attrs Info) (client : HeaderReader)
    (input : BuildNewPayload Attrs) (id now : Nat) :
    ∃ jobs, (w.newPayloadJob fromRpcAttrs client input id now).2 =
        { w.freshToken.2 with jobs := jobs } ∧
      ((jobs = w.jobs ∧ ∀ job, ¬ w.Makes fromRpcAttrs client input id now job) ∨
        ∃ job, jobs = w.jobs ++ [job] ∧ w.Makes fromRpcAttrs client input id now job) := by
  have hjobs : w.freshToken.2.jobs = w.jobs := by
    unfold JobService.freshToken
    split <;> rfl
  have htoken : w.freshToken.1 = w.nextToken := by
    unfold JobService.freshToken
    split <;> rfl
  have hextra : w.freshToken.2.generator.extraBlockDeadline = w.generator.extraBlockDeadline := by
    unfold JobService.freshToken
    split <;> rfl
  have hcached : w.freshToken.2.generator.maybePreCached = w.generator.maybePreCached := by
    unfold JobService.freshToken
    split <;> rfl
  unfold JobService.newPayloadJob
  dsimp only
  cases hparent : parentOf client input.parentHash with
  | error e =>
    refine ⟨_, rfl, .inl ⟨hjobs, fun job h => ?_⟩⟩
    cases hparent.symm.trans h.parent
  | ok parentHeader =>
    cases hattributes : fromRpcAttrs input.parentHash id input.attributes with
    | none =>
      refine ⟨_, rfl, .inl ⟨hjobs, fun job h => ?_⟩⟩
      cases hattributes.symm.trans h.attributes
    | some attributes =>
      refine ⟨_, rfl, .inr ⟨_, congrArg (· ++ [_]) hjobs, ?_⟩⟩
      exact
        { parent := hparent
          attributes := hattributes
          engineAttrs := rfl
          payloadId := rfl
          cancel := htoken
          deadline := by rw [hextra]
          cachedReads := by rw [hcached] }

variable {fromRpcAttrs}

/-- A request makes one job only. -/
theorem JobService.Makes.unique {w : JobService Attrs Info} {client : HeaderReader}
    {input : BuildNewPayload Attrs} {id now : Nat} {job job' : BlockPayloadJob Attrs Info}
    (h : w.Makes fromRpcAttrs client input id now job)
    (h' : w.Makes fromRpcAttrs client input id now job') : job = job' := by
  cases job
  cases job'
  cases h.parent.symm.trans h'.parent
  cases h.attributes.symm.trans h'.attributes
  cases h.engineAttrs.trans h'.engineAttrs.symm
  cases h.payloadId.trans h'.payloadId.symm
  cases h.cancel.trans h'.cancel.symm
  cases h.deadline.trans h'.deadline.symm
  cases h.cachedReads.trans h'.cachedReads.symm
  rfl

/-- **One step**: exactly the tokens that the action cancels are cancelled, and a job is added, with
    a fresh token, only by a request for it. -/
theorem JobService.step_cases {w w' : JobService Attrs Info} {a : JobAct Attrs Info}
    (h : w.step fromRpcAttrs a = some w') :
    w'.generator.ensureOnlyOnePayload = w.generator.ensureOnlyOnePayload ∧
      (∀ t, t ∈ w'.cancelled ↔ t ∈ w.cancelled ∨ w.Cancels t a) ∧
      ((w'.jobs = w.jobs ∧ w'.nextToken = w.nextToken ∧
          w'.generator.lastPayload = w.generator.lastPayload ∧
          ∀ client input id now, a ≠ .newPayloadJob client input id now) ∨
        ∃ client input id now, a = .newPayloadJob client input id now ∧
          w'.nextToken = w.nextToken + 1 ∧
          w'.generator.lastPayload = (if w.generator.ensureOnlyOnePayload then w.nextToken
            else w.generator.lastPayload) ∧
          ((w'.jobs = w.jobs ∧ ∀ job, ¬ w.Makes fromRpcAttrs client input id now job) ∨
            ∃ job, w'.jobs = w.jobs ++ [job] ∧ w.Makes fromRpcAttrs client input id now job)) := by
  cases a with
  | newPayloadJob client input id now =>
    obtain ⟨jobs, heq, hjobs⟩ := newPayloadJob_cases fromRpcAttrs w client input id now
    simp only [JobService.step, heq, Option.some.injEq] at h
    subst h
    unfold JobService.freshToken JobService.Cancels
    cases hensure : w.generator.ensureOnlyOnePayload with
    | true =>
      refine ⟨hensure, fun t => ?_, .inr ⟨client, input, id, now, rfl, rfl, rfl, hjobs⟩⟩
      simp [hensure, or_comm]
    | false =>
      refine ⟨hensure, fun t => ?_, .inr ⟨client, input, id, now, rfl, rfl, rfl, hjobs⟩⟩
      simp
  | onNewState newState =>
    cases h
    exact ⟨rfl, fun t => by simp [JobService.Cancels], .inl ⟨rfl, rfl, rfl, by rintro _ _ _ _ ⟨⟩⟩⟩
  | poll i now =>
    obtain ⟨job, hjob, rfl⟩ := Option.map_eq_some_iff.mp h
    unfold JobService.poll JobService.Cancels
    by_cases hdeadline : job.deadline ≤ now
    · rw [if_pos hdeadline]
      refine ⟨rfl, fun t => ?_, .inl ⟨rfl, rfl, rfl, by rintro _ _ _ _ ⟨⟩⟩⟩
      simp [hjob, hdeadline, or_comm]
    · have hsame :
          (if job.cancel ∈ w.cancelled then (Poll.ready (), w) else (.pending, w)).2 = w := by
        split <;> rfl
      rw [if_neg hdeadline, hsame]
      exact ⟨rfl, fun t => by simp [hjob, hdeadline], .inl ⟨rfl, rfl, rfl, by rintro _ _ _ _ ⟨⟩⟩⟩
  | resolveKind i =>
    obtain ⟨job, hjob, rfl⟩ := Option.map_eq_some_iff.mp h
    refine ⟨rfl, fun t => ?_, .inl ⟨rfl, rfl, rfl, by rintro _ _ _ _ ⟨⟩⟩⟩
    simp [JobService.resolveKind, JobService.Cancels, hjob, or_comm]

/-- The reads change with the canonical state only. -/
theorem JobService.step_preCached {w w' : JobService Attrs Info} {a : JobAct Attrs Info}
    (h : w.step fromRpcAttrs a = some w') :
    w'.generator.preCached = (a.newState?.map readsOf).or w.generator.preCached := by
  cases a with
  | newPayloadJob client input id now =>
    obtain ⟨jobs, heq, -⟩ := newPayloadJob_cases fromRpcAttrs w client input id now
    simp only [JobService.step, heq, Option.some.injEq] at h
    subst h
    unfold JobService.freshToken
    split <;> rfl
  | onNewState newState =>
    cases h
    rfl
  | poll i now =>
    obtain ⟨job, -, rfl⟩ := Option.map_eq_some_iff.mp h
    unfold JobService.poll
    split_ifs <;> rfl
  | resolveKind i =>
    obtain ⟨job, -, rfl⟩ := Option.map_eq_some_iff.mp h
    rfl

/-! ## Whole runs -/

/-- The tokens of the jobs are distinct and were all handed out; if there may be only one job, every
    job but the one with the last token is cancelled. -/
structure JobService.Inv (w : JobService Attrs Info) : Prop where
  issued : ∀ job ∈ w.jobs, job.cancel < w.nextToken
  distinct : (w.jobs.map BlockPayloadJob.cancel).Nodup
  lastIssued : w.generator.lastPayload < w.nextToken
  cancelledIssued : ∀ t ∈ w.cancelled, t < w.nextToken
  onlyOne : w.generator.ensureOnlyOnePayload = true → ∀ job ∈ w.jobs,
    job.cancel ≠ w.generator.lastPayload → job.cancel ∈ w.cancelled

theorem JobService.inv_new (ensureOnlyOnePayload : Bool) (extraBlockDeadline : Nat) :
    (JobService.new ensureOnlyOnePayload extraBlockDeadline : JobService Attrs Info).Inv where
  issued := by simp [JobService.new]
  distinct := by simp [JobService.new]
  lastIssued := by simp [JobService.new]
  cancelledIssued := by simp [JobService.new]
  onlyOne := by simp [JobService.new]

/-- Only a token that was handed out is cancelled. -/
theorem JobService.Inv.cancels_issued {w : JobService Attrs Info} (hI : w.Inv)
    {a : JobAct Attrs Info} {t : Token} (h : w.Cancels t a) : t < w.nextToken := by
  cases a with
  | newPayloadJob client input id now =>
    obtain ⟨-, rfl⟩ := h
    exact hI.lastIssued
  | onNewState newState => exact h.elim
  | poll i now =>
    obtain ⟨job, hjob, -, rfl⟩ := h
    exact hI.issued job (List.mem_of_getElem? hjob)
  | resolveKind i =>
    obtain ⟨job, hjob, rfl⟩ := h
    exact hI.issued job (List.mem_of_getElem? hjob)

theorem JobService.Inv.index_eq {w : JobService Attrs Info} (hI : w.Inv) {i j : Nat}
    {job job' : BlockPayloadJob Attrs Info} (hi : w.jobs[i]? = some job)
    (hj : w.jobs[j]? = some job') (heq : job.cancel = job'.cancel) : i = j := by
  have hlt : i < (w.jobs.map BlockPayloadJob.cancel).length := by
    rw [List.length_map]
    exact (List.getElem?_eq_some_iff.mp hi).1
  apply (List.getElem?_inj hlt hI.distinct).mp
  rw [List.getElem?_map, List.getElem?_map, hi, hj, Option.map_some, Option.map_some, heq]

/-- For a job that is still live, cancelling its token and ending it are the same. -/
theorem JobService.Inv.cancels_iff {w : JobService Attrs Info} (hI : w.Inv) {j : Nat}
    {job : BlockPayloadJob Attrs Info} (hj : w.jobs[j]? = some job)
    (hlive : job.cancel ∉ w.cancelled) (a : JobAct Attrs Info) :
    w.Cancels job.cancel a ↔ w.Ends j a := by
  cases a with
  | newPayloadJob client input id now =>
    refine ⟨And.left, fun hensure => ⟨hensure, ?_⟩⟩
    by_contra hne
    exact hlive (hI.onlyOne hensure job (List.mem_of_getElem? hj) hne)
  | onNewState newState => exact Iff.rfl
  | poll i now =>
    constructor
    · rintro ⟨job', hi, hdeadline, heq⟩
      obtain rfl := hI.index_eq hi hj heq.symm
      exact ⟨rfl, job', hi, hdeadline⟩
    · rintro ⟨rfl, job', hi, hdeadline⟩
      cases hj.symm.trans hi
      exact ⟨job, hj, hdeadline, rfl⟩
  | resolveKind i =>
    constructor
    · rintro ⟨job', hi, heq⟩
      exact hI.index_eq hi hj heq.symm
    · rintro rfl
      exact ⟨job, hj, rfl⟩

theorem JobService.Inv.step {w w' : JobService Attrs Info} {a : JobAct Attrs Info} (hI : w.Inv)
    (h : w.step fromRpcAttrs a = some w') : w'.Inv := by
  obtain ⟨hensure, hcancelled, ⟨hjobs, hnext, hlast, -⟩ |
    ⟨client, input, id, now, rfl, hnext, hlast, hjobs⟩⟩ := JobService.step_cases h
  · refine ⟨?_, ?_, ?_, ?_, ?_⟩
    · rw [hjobs, hnext]
      exact hI.issued
    · rw [hjobs]
      exact hI.distinct
    · rw [hlast, hnext]
      exact hI.lastIssued
    · intro t ht
      rw [hnext]
      exact ((hcancelled t).mp ht).elim (hI.cancelledIssued t) hI.cancels_issued
    · intro hone job hjob hne
      rw [hjobs] at hjob
      rw [hlast] at hne
      exact (hcancelled _).mpr (.inl (hI.onlyOne (hensure ▸ hone) job hjob hne))
  · -- every job that was there carries an older token, and the new one carries the fresh one
    have hmem : ∀ job ∈ w'.jobs, job ∈ w.jobs ∨ job.cancel = w.nextToken := by
      intro job hjob
      rcases hjobs with ⟨hjobs, -⟩ | ⟨made, hjobs, hmakes⟩
      · exact .inl (hjobs ▸ hjob)
      · rw [hjobs, List.mem_append, List.mem_singleton] at hjob
        exact hjob.imp (fun hold => hold) (fun heq => (congrArg _ heq).trans hmakes.cancel)
    have hnew : w.generator.ensureOnlyOnePayload = true →
        w'.generator.lastPayload = w.nextToken := by
      intro hone
      rw [hlast, if_pos hone]
    refine ⟨?_, ?_, ?_, ?_, ?_⟩
    · intro job hjob
      rw [hnext]
      rcases hmem job hjob with hold | hfresh
      · exact Nat.lt_succ_of_lt (hI.issued job hold)
      · exact hfresh ▸ Nat.lt_succ_self _
    · rcases hjobs with ⟨hjobs, -⟩ | ⟨made, hjobs, hmakes⟩
      · rw [hjobs]
        exact hI.distinct
      · rw [hjobs, List.map_append, List.map_cons, List.map_nil]
        refine List.nodup_append.mpr ⟨hI.distinct, List.nodup_singleton _, ?_⟩
        intro t ht t' ht' heq
        obtain ⟨job, hjob, rfl⟩ := List.mem_map.mp ht
        have hfresh := hI.issued job hjob
        rw [heq, List.mem_singleton.mp ht', hmakes.cancel] at hfresh
        exact lt_irrefl _ hfresh
    · rw [hlast, hnext]
      split
      · exact Nat.lt_succ_self _
      · exact Nat.lt_succ_of_lt hI.lastIssued
    · intro t ht
      rw [hnext]
      exact Nat.lt_succ_of_lt
        (((hcancelled t).mp ht).elim (hI.cancelledIssued t) hI.cancels_issued)
    · intro hone job hjob hne
      have hone' : w.generator.ensureOnlyOnePayload = true := hensure ▸ hone
      rw [hnew hone'] at hne
      have hold := (hmem job hjob).resolve_right hne
      -- the job with the last token is the one that the request cancels
      by_cases hlastJob : job.cancel = w.generator.lastPayload
      · exact (hcancelled _).mpr (.inr ⟨hone', hlastJob⟩)
      · exact (hcancelled _).mpr (.inl (hI.onlyOne hone' job hold hlastJob))

variable (fromRpcAttrs)

/-- The step is the request by which job `j` was made. -/
def JobService.Requests (w : JobService Attrs Info) (j : Nat) (job : BlockPayloadJob Attrs Info)
    (a : JobAct Attrs Info) : Prop :=
  ∃ client input id now, a = .newPayloadJob client input id now ∧ w.jobs.length = j ∧
    w.Makes fromRpcAttrs client input id now job

/-- What holds of the service after the run `acts` from `start`. -/
structure JobService.Exact (start : JobService Attrs Info) (acts : List (JobAct Attrs Info))
    (w : JobService Attrs Info) : Prop where
  /-- the jobs are those that were asked for, with a parent and attributes, in this order -/
  made : ∀ j job, w.jobs[j]? = some job ↔
    Occurs (JobService.step fromRpcAttrs) start acts
      (fun w a => w.Requests fromRpcAttrs j job a)
  /-- a job is cancelled exactly if something ended it since -/
  cancelled : ∀ j job, w.jobs[j]? = some job →
    (job.cancel ∈ w.cancelled ↔
      Occurs (JobService.step fromRpcAttrs) start acts (fun w a => j < w.jobs.length ∧ w.Ends j a))
  /-- if there may be only one job, at most one is live -/
  single : w.generator.ensureOnlyOnePayload = true → ∀ (i j : Nat)
    (job job' : BlockPayloadJob Attrs Info), w.jobs[i]? = some job → w.jobs[j]? = some job' →
      job.cancel ∉ w.cancelled → job'.cancel ∉ w.cancelled → i = j
  /-- a job starts from the reads of the canonical state told of last before its request, if that
      is its parent, and else from none -/
  starts : ∀ j job, w.jobs[j]? = some job → ∃ pre a v, pre ++ [a] <+: acts ∧
    start.run fromRpcAttrs pre = some v ∧ v.Requests fromRpcAttrs j job a ∧
    job.cachedReads = ((latestState pre).filter (fun s => s.tip = job.parentHeader.hash)).map
      (fun s => preCache s.bundleAccounts)

variable {fromRpcAttrs}

theorem JobService.exact_new (ensureOnlyOnePayload : Bool) (extraBlockDeadline : Nat) :
    JobService.Exact fromRpcAttrs
      (JobService.new ensureOnlyOnePayload extraBlockDeadline : JobService Attrs Info) []
      (JobService.new ensureOnlyOnePayload extraBlockDeadline) where
  made := by
    intro j job
    simp [JobService.new, not_occurs_nil]
  cancelled := by
    intro j job hj
    simp [JobService.new] at hj
  single := by
    intro hone i j job job' hi
    simp [JobService.new] at hi
  starts := by
    intro j job hj
    simp [JobService.new] at hj

/-- A job is added by its request, behind those that are there. -/
theorem JobService.step_jobs {w w' : JobService Attrs Info} {a : JobAct Attrs Info}
    (h : w.step fromRpcAttrs a = some w') (j : Nat) (job : BlockPayloadJob Attrs Info) :
    w'.jobs[j]? = some job ↔ w.jobs[j]? = some job ∨ w.Requests fromRpcAttrs j job a := by
  obtain ⟨-, -, ⟨hjobs, -, -, hother⟩ | ⟨client, input, id, now, rfl, -, -, hjobs⟩⟩ :=
    JobService.step_cases h
  · rw [hjobs]
    refine ⟨.inl, fun h => h.resolve_right ?_⟩
    rintro ⟨client, input, id, now, heq, -⟩
    exact hother client input id now heq
  · rcases hjobs with ⟨hjobs, hnone⟩ | ⟨made, hjobs, hmakes⟩
    · rw [hjobs]
      refine ⟨.inl, fun h => h.resolve_right ?_⟩
      rintro ⟨client, input, id, now, heq, -, hmakes⟩
      cases heq
      exact hnone job hmakes
    · rw [hjobs]
      constructor
      · intro hj
        rcases Nat.lt_or_ge j w.jobs.length with hlt | hge
        · rw [List.getElem?_append_left hlt] at hj
          exact .inl hj
        · rw [List.getElem?_append_right hge] at hj
          have hlast : j - w.jobs.length < 1 := (List.getElem?_eq_some_iff.mp hj).1
          obtain rfl : j = w.jobs.length := by omega
          rw [Nat.sub_self] at hj
          cases hj
          exact .inr ⟨client, input, id, now, rfl, rfl, hmakes⟩
      · rintro (hj | ⟨client', input', id', now', heq, rfl, hmakes'⟩)
        · rw [List.getElem?_append_left (List.getElem?_eq_some_iff.mp hj).1]
          exact hj
        · cases heq
          rw [List.getElem?_concat_length, hmakes.unique hmakes']

theorem JobService.step_lasts {j : Nat} (w : JobService Attrs Info) (a : JobAct Attrs Info)
    (w' : JobService Attrs Info) (hj : j < w.jobs.length) (h : w.step fromRpcAttrs a = some w') :
    j < w'.jobs.length :=
  (List.getElem?_eq_some_iff.mp
    ((JobService.step_jobs h j _).mpr (.inl (List.getElem?_eq_getElem hj)))).1

/-- If there may be only one job, two jobs that are live are the same. -/
theorem JobService.Inv.single {w : JobService Attrs Info} (hI : w.Inv)
    (hone : w.generator.ensureOnlyOnePayload = true) {i j : Nat}
    {job job' : BlockPayloadJob Attrs Info} (hi : w.jobs[i]? = some job)
    (hj : w.jobs[j]? = some job') (hlive : job.cancel ∉ w.cancelled)
    (hlive' : job'.cancel ∉ w.cancelled) : i = j := by
  have hlast : job.cancel = w.generator.lastPayload := by
    by_contra hne
    exact hlive (hI.onlyOne hone job (List.mem_of_getElem? hi) hne)
  have hlast' : job'.cancel = w.generator.lastPayload := by
    by_contra hne
    exact hlive' (hI.onlyOne hone job' (List.mem_of_getElem? hj) hne)
  exact hI.index_eq hi hj (hlast.trans hlast'.symm)

/-- The reads that the next job may start from are those of the last canonical state. -/
theorem JobService.reads_latest (ensureOnlyOnePayload : Bool) (extraBlockDeadline : Nat)
    (acts : List (JobAct Attrs Info)) (w : JobService Attrs Info)
    (hrun : (JobService.new ensureOnlyOnePayload extraBlockDeadline).run fromRpcAttrs acts =
      some w) :
    w.generator.preCached = (latestState acts).map readsOf := by
  refine runFrom_induction (fun acts (w : JobService Attrs Info) =>
    w.generator.preCached = (latestState acts).map readsOf) rfl ?_ acts w hrun
  intro acts w a w' hw hreads h
  rw [JobService.step_preCached h, hreads, latestState, latestState, List.filterMap_append]
  cases hnew : a.newState? with
  | none => simp [hnew]
  | some newState => simp [hnew]

/-- One more step. -/
theorem JobService.Exact.step {start w w' : JobService Attrs Info}
    {acts : List (JobAct Attrs Info)} {a : JobAct Attrs Info} (hI : w.Inv)
    (hE : JobService.Exact fromRpcAttrs start acts w)
    (hrun : start.run fromRpcAttrs acts = some w)
    (hreads : w.generator.preCached = (latestState acts).map readsOf)
    (h : w.step fromRpcAttrs a = some w') :
    JobService.Exact fromRpcAttrs start (acts ++ [a]) w' where
  made := by
    intro j job
    rw [JobService.step_jobs h, occurs_concat hrun, hE.made]
  cancelled := by
    intro j job hj
    rw [occurs_concat hrun, (JobService.step_cases h).2.1]
    rcases (JobService.step_jobs h j job).mp hj with hold | ⟨_, _, _, _, -, rfl, hmakes⟩
    · have hlt := (List.getElem?_eq_some_iff.mp hold).1
      rw [← hE.cancelled j job hold]
      by_cases hlive : job.cancel ∈ w.cancelled
      · simp [hlive]
      · rw [hI.cancels_iff hold hlive]
        simp [hlt]
    · -- a job that was just made is live: its token is fresh, and no earlier step could end it
      constructor
      · rintro (ht | hcancels)
        · exact absurd (hI.cancelledIssued _ ht) (hmakes.cancel ▸ lt_irrefl _)
        · exact absurd (hI.cancels_issued hcancels) (hmakes.cancel ▸ lt_irrefl _)
      · rintro (hoccurs | ⟨hlt, -⟩)
        · exact absurd (Occurs.lasting JobService.step_lasts hrun hoccurs) (lt_irrefl _)
        · exact absurd hlt (lt_irrefl _)
  single := fun hone _ _ _ _ hi hj => (hI.step h).single hone hi hj
  starts := by
    intro j job hj
    rcases (JobService.step_jobs h j job).mp hj with hold | hrequests
    · obtain ⟨pre, b, v, hpre, hstarts⟩ := hE.starts j job hold
      exact ⟨pre, b, v, hpre.trans (List.prefix_append _ _), hstarts⟩
    · refine ⟨acts, a, w, List.prefix_refl _, hrun, hrequests, ?_⟩
      obtain ⟨client, input, id, now, -, -, hmakes⟩ := hrequests
      rw [hmakes.cachedReads, BlockPayloadJobGenerator.maybePreCached, hreads, Option.filter_map,
        Option.map_map]
      rfl

/-- **The payload jobs**: in every run, the jobs are those that were asked for with a known parent
    and attributes that decode, each from its own request; a job is cancelled exactly if it was
    resolved, reached its deadline, or was followed by a request while there may be only one, even
    one that failed; then at most one job is live; and a job never starts from the reads of another
    block than its parent. -/
theorem jobs_exact (ensureOnlyOnePayload : Bool) (extraBlockDeadline : Nat)
    (acts : List (JobAct Attrs Info)) (w : JobService Attrs Info)
    (hrun : (JobService.new ensureOnlyOnePayload extraBlockDeadline).run fromRpcAttrs acts =
      some w) :
    JobService.Exact fromRpcAttrs (JobService.new ensureOnlyOnePayload extraBlockDeadline) acts
      w := by
  have hboth := runFrom_induction
    (fun acts w => w.Inv ∧ JobService.Exact fromRpcAttrs
      (JobService.new ensureOnlyOnePayload extraBlockDeadline) acts w)
    ⟨JobService.inv_new _ _, JobService.exact_new _ _⟩
    (fun acts w a w' hw ih hstep => ⟨ih.1.step hstep,
      ih.2.step ih.1 hw (JobService.reads_latest _ _ acts w hw) hstep⟩) acts w hrun
  exact hboth.2

end

namespace Sample

/-- A client that knows one block. -/
def oneBlock : HeaderReader where
  latestHeader := .ok (some ⟨parent, 7⟩)
  sealedHeaderByHash := fun hash => .ok (if hash = 7 then some ⟨parent, 7⟩ else none)

/-- A job on the latest block, then a request whose parent is not known. -/
def twoRequests : List (JobAct Unit Unit) :=
  [.onNewState ⟨7, []⟩, .newPayloadJob oneBlock ⟨0, ()⟩ 1 5000,
    .newPayloadJob oneBlock ⟨9, ()⟩ 2 6000]

theorem twoRequests_exact :
    ∃ w, (JobService.new true 500).run (fun _ _ _ => some attributes) twoRequests = some w ∧
      w.cancelled = [1, 0] ∧
      JobService.Exact (fun _ _ _ => some attributes) (JobService.new true 500) twoRequests w :=
  ⟨_, rfl, rfl, jobs_exact _ _ _ _ rfl⟩

end Sample

end XLayerReth.Builder
