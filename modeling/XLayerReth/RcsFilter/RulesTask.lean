import XLayerReth.RcsFilter.Config
import XLayerReth.RcsFilter.RetryBackoff

/-!
# The rules worker over time

Model of `rules_task` of `worker.rs` under its supervisor: `updateStep` with the pauses between the
requests of the worker.

* `RulesTask` — the filter with its rules worker, the retry backoff and the pause before the next
  request.
* `Steady` — RCS serves one version: every answer is that version, or an error.

Principal result: `rules_converge` — in every run, the worker never pauses longer than the longest
of three settings, and once RCS serves one version, two answers in a row bring it into force, where
it stays through errors, restarts and anything else the filter does.
-/

set_option autoImplicit false

namespace XLayerReth.RcsFilter

open XLayerReth.Lib

/-- `SUPERVISOR_RESTART_BACKOFF`. -/
def supervisorRestartBackoff : Duration := .fromSecs 1

structure RulesTask where
  updating : Updating
  backoff : RetryBackoff
  /-- The pause before the next request of the worker. -/
  pause : Duration

/-- The worker before its first request. -/
def RulesTask.new (c : FilterSettings) (seed : UInt64) : RulesTask :=
  ⟨Updating.new, .withSeed c.retryInitialBackoff c.retryMaxBackoff seed, .fromSecs 0⟩

/-- The pause after an event, and the backoff: a failed initial load is retried after a delay, a new
    version is pulled at once, a restarted worker begins with a new backoff. -/
def pauseAfter (c : FilterSettings) (t : RulesTask) (u' : Updating) (seed : UInt64) :
    UpdateEvent → RetryBackoff × Duration
  | .rules _ =>
    if t.updating.phase = .loading ∧ u'.phase = .loading then
      (t.backoff.nextDelay.2, t.backoff.nextDelay.1)
    else (t.backoff, c.rulesVersionPollInterval)
  | .version _ =>
    (t.backoff, if u'.phase = .pulling then .fromSecs 0 else c.rulesVersionPollInterval)
  | .restart => (.withSeed c.retryInitialBackoff c.retryMaxBackoff seed, supervisorRestartBackoff)
  | .other _ _ => (t.backoff, t.pause)

/-- One step of the worker or of the rest of the filter; the seed is drawn by a restart. -/
def RulesTask.step (env : Env) (c : FilterSettings) (t : RulesTask) (event : UpdateEvent × UInt64) :
    Option RulesTask :=
  (updateStep env t.updating event.1).map (fun u' =>
    ⟨u', (pauseAfter c t u' event.2 event.1).1, (pauseAfter c t u' event.2 event.1).2⟩)

/-- A run of the filter with its rules worker. -/
def RulesTask.run (env : Env) (c : FilterSettings) (seed : UInt64)
    (events : List (UpdateEvent × UInt64)) : Option RulesTask :=
  runFrom (RulesTask.step env c) (RulesTask.new c seed) events

/-! ## Pauses -/

/-- A jittered delay is not longer than its base. -/
theorem RetryBackoff.jittered_le (base : Duration) (jitterState : UInt64) :
    (jittered base jitterState).nanos ≤ base.nanos := by
  have hfactor : 500 + (jitterState % 501).toNat ≤ 1000 := by
    rw [UInt64.toNat_mod]
    have := Nat.mod_lt jitterState.toNat (show 0 < (501 : UInt64).toNat by decide)
    have h501 : (501 : UInt64).toNat = 501 := by decide
    omega
  generalize hf : 500 + (jitterState % 501).toNat = factor at hfactor
  have hmul : base.nanos * factor ≤ base.nanos * 1000 := Nat.mul_le_mul_left _ hfactor
  have hnanos : (jittered base jitterState).nanos =
      min (min (base.nanos * factor) (2 ^ 128 - 1) / 1000) (2 ^ 64 - 1) := by
    unfold jittered
    rw [hf, Duration.nanos_fromNanos]
    exact UInt64.toNat_ofNat_of_lt (Nat.lt_of_le_of_lt (Nat.min_le_right _ _) (by decide))
  rw [hnanos]
  omega

/-- The longest pause of the worker. -/
def maxPause (c : FilterSettings) : Nat :=
  max c.retryMaxBackoff.nanos (max c.rulesVersionPollInterval.nanos supervisorRestartBackoff.nanos)

/-- The backoff is within its settings, and so is the pause. -/
def PauseInv (c : FilterSettings) (t : RulesTask) : Prop :=
  (∃ k, RetryBackoff.BackoffInv c.retryInitialBackoff c.retryMaxBackoff k t.backoff) ∧
    t.pause.nanos ≤ maxPause c

theorem pauseInv_new {c : FilterSettings} (hc : c.Usable) (seed : UInt64) :
    PauseInv c (RulesTask.new c seed) :=
  ⟨⟨0, RetryBackoff.backoffInv_withSeed hc.backoff seed⟩, Nat.zero_le _⟩

theorem nextDelay_le {c : FilterSettings} {k : Nat} {b : RetryBackoff}
    (h : RetryBackoff.BackoffInv c.retryInitialBackoff c.retryMaxBackoff k b) :
    b.nextDelay.1.nanos ≤ c.retryMaxBackoff.nanos := by
  have hbase : b.nextDelay.1.nanos ≤ b.current.nanos := RetryBackoff.jittered_le _ _
  rw [h.current_eq] at hbase
  exact hbase.trans (Nat.min_le_right _ _)

theorem PauseInv.step {env : Env} {c : FilterSettings} (hc : c.Usable) {t t' : RulesTask}
    {event : UpdateEvent × UInt64} (h : PauseInv c t) (hstep : t.step env c event = some t') :
    PauseInv c t' := by
  obtain ⟨u', -, rfl⟩ := Option.map_eq_some_iff.mp hstep
  obtain ⟨⟨k, hk⟩, hpause⟩ := h
  have hpoll : c.rulesVersionPollInterval.nanos ≤ maxPause c :=
    (Nat.le_max_left _ _).trans (Nat.le_max_right _ _)
  obtain ⟨e, seed⟩ := event
  unfold PauseInv
  dsimp only
  cases e with
  | rules result =>
    rw [pauseAfter]
    split
    · exact ⟨⟨k + 1, hk.nextDelay⟩, (nextDelay_le hk).trans (Nat.le_max_left _ _)⟩
    · exact ⟨⟨k, hk⟩, hpoll⟩
  | version result =>
    refine ⟨⟨k, hk⟩, ?_⟩
    rw [pauseAfter]
    split
    · exact Nat.zero_le _
    · exact hpoll
  | restart =>
    exact ⟨⟨0, RetryBackoff.backoffInv_withSeed hc.backoff seed⟩,
      (Nat.le_max_right _ _).trans (Nat.le_max_right _ _)⟩
  | other act hact => exact ⟨⟨k, hk⟩, hpause⟩

/-! ## One version served -/

/-- RCS serves one version: an answer is that version, or an error. -/
def Steady (served : RulesResponse) : UpdateEvent → Prop
  | .rules (.ok resp) => resp = served
  | .version (.ok v) =>
    v.protocolVersion = served.protocolVersion ∧ v.contentVersion = served.contentVersion
  | .rules (.error _) | .version (.error _) | .restart | .other _ _ => True

/-- The event is an answer to the worker. -/
def UpdateEvent.isAnswer : UpdateEvent → Bool
  | .rules _ | .version _ => true
  | .restart | .other _ _ => false

/-- The event is an answer without an error. -/
def UpdateEvent.isGood : UpdateEvent → Bool
  | .rules (.ok _) | .version (.ok _) => true
  | .rules (.error _) | .version (.error _) | .restart | .other _ _ => false

/-- The rules of a response. -/
def RulesResponse.compiled (resp : RulesResponse) (abi : Abi) : RuleSet :=
  loadRules abi resp.protocolVersion resp.contentVersion resp.rules

/-- A version the filter can work with. -/
structure Loadable (abi : Abi) (served : RulesResponse) : Prop where
  supported : isSupportedProtocol served.protocolVersion = true
  valid : (served.compiled abi).rejected = []

theorem loadAndInstall_loadable {abi : Abi} {served : RulesResponse} (h : Loadable abi served)
    (s : State) :
    loadAndInstall abi s (.ok served) = (.ok true, s.installRules (served.compiled abi)) := by
  have hvalid : (loadRules abi served.protocolVersion served.contentVersion served.rules).rejected =
      [] := h.valid
  simp [loadAndInstall, h.supported, hvalid, RulesResponse.compiled]

/-- The worker will pull the rules with its next request. -/
def Updating.WillPull (u : Updating) : Prop := u.phase = .loading ∨ u.phase = .pulling

/-- The version served is the one in force. -/
def Updating.Current (served : RulesResponse) (u : Updating) : Prop :=
  u.filter.rules.contentVersion = served.contentVersion

section Steady

variable {env : Env} {served : RulesResponse} {u u' : Updating} {e : UpdateEvent}

/-- **What a step does while one version is served**: an answer with rules installs them, and
    anything else leaves the rules as they are. -/
theorem steady_step (h : Loadable env.abi served) (hsteady : Steady served e)
    (hstep : updateStep env u e = some u') :
    u'.filter.rules = u.filter.rules ∨
      e = .rules (.ok served) ∧ u'.filter.rules = served.compiled env.abi := by
  rcases updateStep_cases hstep with ⟨hrules, -⟩ | ⟨resp, rfl, -, -⟩
  · exact .inl hrules
  · have hresp : resp = served := hsteady
    subst hresp
    refine .inr ⟨rfl, ?_⟩
    simp only [updateStep, loadAndInstall_loadable h] at hstep
    split at hstep
    · cases hstep
      rfl
    · cases hstep
      rfl
    · cases hstep

theorem Updating.Current.step (h : Loadable env.abi served) (hsteady : Steady served e)
    (hstep : updateStep env u e = some u') (hu : u.Current served) : u'.Current served := by
  unfold Updating.Current
  rcases steady_step h hsteady hstep with hrules | ⟨-, hrules⟩
  · rw [hrules]
    exact hu
  · rw [hrules]
    rfl

/-- **After one good answer** the version is in force, or the worker will pull it. -/
theorem steady_good (h : Loadable env.abi served) (hsteady : Steady served e)
    (hgood : e.isGood = true) (hstep : updateStep env u e = some u') :
    u'.Current served ∨ u'.WillPull := by
  match e with
  | .rules (.ok resp) =>
    have hresp : resp = served := hsteady
    subst hresp
    left
    simp only [updateStep, loadAndInstall_loadable h] at hstep
    split at hstep
    · cases hstep
      rfl
    · cases hstep
      rfl
    · cases hstep
  | .version (.ok v) =>
    obtain ⟨hpv, hcv⟩ := hsteady
    simp only [updateStep] at hstep
    split at hstep
    · cases hstep
      by_cases hcurrent : v.contentVersion = u.filter.rules.contentVersion
      · exact .inl (hcurrent.symm.trans hcv)
      · right
        right
        simp only [probed]
        rw [if_pos hcurrent, hpv, h.supported]
        rfl
    · cases hstep
    · cases hstep

/-- Until its next answer a worker that will pull the rules does so. -/
theorem Updating.WillPull.step (hanswer : e.isAnswer = false)
    (hstep : updateStep env u e = some u') (hu : u.WillPull) : u'.WillPull := by
  cases e with
  | rules result => cases hanswer
  | version result => cases hanswer
  | restart =>
    cases hstep
    exact .inl rfl
  | other act hact =>
    obtain ⟨s, -, rfl⟩ := Option.map_eq_some_iff.mp hstep
    exact hu

/-- A worker that pulls the rules, and gets them, brings the version into force. -/
theorem Updating.WillPull.good (h : Loadable env.abi served) (hsteady : Steady served e)
    (hgood : e.isGood = true) (hstep : updateStep env u e = some u') (hu : u.WillPull) :
    u'.Current served := by
  match e with
  | .rules (.ok resp) =>
    have hresp : resp = served := hsteady
    subst hresp
    simp only [updateStep, loadAndInstall_loadable h] at hstep
    split at hstep
    · cases hstep
      rfl
    · cases hstep
      rfl
    · cases hstep
  | .version (.ok v) =>
    simp only [updateStep] at hstep
    rcases hu with hu | hu
    · rw [hu] at hstep
      cases hstep
    · rw [hu] at hstep
      cases hstep

/-- What holds of the rules along a run in which one version is served. -/
theorem steady_run (h : Loadable env.abi served) {events : List UpdateEvent}
    (hsteady : ∀ e ∈ events, Steady served e) (hrun : runFrom (updateStep env) u events = some u') :
    (u'.filter.rules = u.filter.rules ∨ u'.filter.rules = served.compiled env.abi) ∧
      (u.Current served → u'.Current served) := by
  refine @runFrom_induction _ _ (updateStep env)
    (fun events (u' : Updating) => (∀ e ∈ events, Steady served e) →
      (u'.filter.rules = u.filter.rules ∨ u'.filter.rules = served.compiled env.abi) ∧
        (u.Current served → u'.Current served)) _ (fun _ =>
          ⟨.inl rfl, id⟩) ?_ events u' hrun hsteady
  intro events m e m' _ ih hstep hsteady
  have he : Steady served e := hsteady e (List.mem_append_right _ (List.mem_singleton_self e))
  obtain ⟨hrules, hcurrent⟩ := ih (fun x hx => hsteady x (List.mem_append_left _ hx))
  refine ⟨?_, fun hu => (hcurrent hu).step h he hstep⟩
  rcases steady_step h he hstep with hsame | ⟨-, hnew⟩
  · rw [hsame]
    exact hrules
  · exact .inr hnew

theorem willPull_run {events : List UpdateEvent} (hquiet : ∀ e ∈ events, e.isAnswer = false)
    (hrun : runFrom (updateStep env) u events = some u') (hu : u.WillPull) : u'.WillPull := by
  refine @runFrom_induction _ _ (updateStep env)
    (fun events (u' : Updating) => (∀ e ∈ events, e.isAnswer = false) → u'.WillPull)
    _ (fun _ => hu) ?_ events u' hrun hquiet
  intro events m e m' _ ih hstep hquiet
  exact (ih (fun x hx => hquiet x (List.mem_append_left _ hx))).step
    (hquiet e (List.mem_append_right _ (List.mem_singleton_self e))) hstep

/-- **Two good answers in a row** bring the version served into force. -/
theorem steady_converges (h : Loadable env.abi served) {a b : UpdateEvent}
    {pre mid post : List UpdateEvent} (ha : a.isGood = true) (hb : b.isGood = true)
    (hquiet : ∀ e ∈ mid, e.isAnswer = false)
    (hsteady : ∀ e ∈ pre ++ a :: (mid ++ b :: post), Steady served e)
    (hrun : runFrom (updateStep env) u (pre ++ a :: (mid ++ b :: post)) = some u') :
    u'.Current served := by
  rw [runFrom_append] at hrun
  obtain ⟨u₀, -, hrun⟩ := Option.bind_eq_some_iff.mp hrun
  obtain ⟨u₁, hstepa, hrun⟩ := Option.bind_eq_some_iff.mp hrun
  rw [runFrom_append] at hrun
  obtain ⟨u₂, hmid, hrun⟩ := Option.bind_eq_some_iff.mp hrun
  obtain ⟨u₃, hstepb, hpost⟩ := Option.bind_eq_some_iff.mp hrun
  have hsteadya : Steady served a := hsteady a (by simp)
  have hsteadyb : Steady served b := hsteady b (by simp)
  have hsteadymid : ∀ e ∈ mid, Steady served e := fun e he => hsteady e (by simp [he])
  have hcurrent : u₃.Current served := by
    rcases steady_good h hsteadya ha hstepa with hu | hu
    · exact ((steady_run h hsteadymid hmid).2 hu).step h hsteadyb hstepb
    · exact (willPull_run hquiet hmid hu).good h hsteadyb hb hstepb
  exact (steady_run h (fun e he => hsteady e (by simp [he])) hpost).2 hcurrent

end Steady

/-! ## Runs of the worker -/

variable {env : Env} {c : FilterSettings}

theorem RulesTask.run_pause (hc : c.Usable) {seed : UInt64} {events : List (UpdateEvent × UInt64)}
    {t : RulesTask} (hrun : RulesTask.run env c seed events = some t) : PauseInv c t :=
  @runFrom_induction _ _ (RulesTask.step env c) (fun _ t => PauseInv c t) _ (pauseInv_new hc seed)
    (fun _ _ _ _ _ h hstep => h.step hc hstep) events t hrun

/-- A run of the worker with its pauses is a run of `updateStep`. -/
theorem RulesTask.run_updating {t t' : RulesTask} {events : List (UpdateEvent × UInt64)}
    (hrun : runFrom (RulesTask.step env c) t events = some t') :
    runFrom (updateStep env) t.updating (events.map Prod.fst) = some t'.updating := by
  induction events generalizing t with
  | nil =>
    cases hrun
    rfl
  | cons event events ih =>
    obtain ⟨m, hstep, hrest⟩ := Option.bind_eq_some_iff.mp hrun
    obtain ⟨u', hu', rfl⟩ := Option.map_eq_some_iff.mp hstep
    rw [List.map_cons, runFrom, hu']
    exact ih hrest

/-- **The rules converge**: in every run of the filter with its rules worker, started from the
    command line, the worker never pauses longer than the longest of its settings.  From when RCS
    serves one version, the rules are those of before or those of that version, they stay those of
    that version once they are, and two good answers in a row make them so. -/
theorem rules_converge {args : RcsFilterArgs} (hc : buildRcsFilterConfig args = .ok (some c))
    (seed : UInt64) (before after : List (UpdateEvent × UInt64)) (t t' : RulesTask)
    (hbefore : RulesTask.run env c seed before = some t)
    (hrun : RulesTask.run env c seed (before ++ after) = some t') (served : RulesResponse)
    (hload : Loadable env.abi served) (hsteady : ∀ e ∈ after, Steady served e.1) :
    t'.pause.nanos ≤ maxPause c ∧
    (t'.updating.filter.rules = t.updating.filter.rules ∨
      t'.updating.filter.rules = served.compiled env.abi) ∧
    (t.updating.Current served → t'.updating.Current served) ∧
    ∀ pre a mid b post, after.map Prod.fst = pre ++ a :: (mid ++ b :: post) →
      a.isGood = true → b.isGood = true → (∀ e ∈ mid, e.isAnswer = false) →
      t'.updating.Current served := by
  have husable := (buildRcsFilterConfig_usable hc).1
  have hpause := RulesTask.run_pause husable hrun
  rw [RulesTask.run, runFrom_append] at hrun
  obtain ⟨m, hm, hafter⟩ := Option.bind_eq_some_iff.mp hrun
  have hmt : m = t := Option.some.inj (hm.symm.trans hbefore)
  subst hmt
  have hupdating := RulesTask.run_updating hafter
  have hsteady' : ∀ e ∈ after.map Prod.fst, Steady served e := by
    intro e he
    obtain ⟨x, hx, rfl⟩ := List.mem_map.mp he
    exact hsteady x hx
  obtain ⟨hrules, hcurrent⟩ := steady_run hload hsteady' hupdating
  refine ⟨hpause.2, hrules, hcurrent, ?_⟩
  intro pre a mid b post heq ha hb hquiet
  rw [heq] at hupdating hsteady'
  exact steady_converges hload ha hb hquiet hsteady' hupdating

section Sample

/-- RCS fails once, and then serves one rule. -/
def recoveredBefore : List (UpdateEvent × UInt64) :=
  [(.rules (.error (.transport "connection refused")), 0)]

def recoveredAfter : List (UpdateEvent × UInt64) :=
  [(.rules (.ok ⟨1, 1, [transferRule]⟩), 0), (.version (.ok ⟨1, 1⟩), 0)]

theorem recovered_converges :
    ∃ t, RulesTask.run ⟨transferAbi, enabledSettings.worker⟩ enabledSettings 7
      (recoveredBefore ++ recoveredAfter) = some t ∧
      t.updating.filter.rules.contentVersion = 1 := by
  obtain ⟨t, ht⟩ : ∃ t, RulesTask.run ⟨transferAbi, enabledSettings.worker⟩ enabledSettings 7
      recoveredBefore = some t := ⟨_, rfl⟩
  obtain ⟨t', ht'⟩ : ∃ t', RulesTask.run ⟨transferAbi, enabledSettings.worker⟩ enabledSettings 7
      (recoveredBefore ++ recoveredAfter) = some t' := Option.isSome_iff_exists.mp (by decide)
  have hload : Loadable transferAbi ⟨1, 1, [transferRule]⟩ := ⟨rfl, by decide⟩
  have hsteady : ∀ e ∈ recoveredAfter, Steady ⟨1, 1, [transferRule]⟩ e.1 := by
    intro e he
    rcases List.mem_pair.mp he with rfl | rfl
    · rfl
    · exact ⟨rfl, rfl⟩
  exact ⟨t', ht', (rules_converge enabledArgs_build 7 recoveredBefore recoveredAfter t t' ht ht' _
    hload hsteady).2.2.2 [] _ [] _ [] rfl rfl rfl (by simp)⟩

end Sample

end XLayerReth.RcsFilter
