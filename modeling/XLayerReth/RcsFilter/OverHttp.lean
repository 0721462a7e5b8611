import XLayerReth.RcsFilter.Client
import XLayerReth.RcsFilter.Fencing
import XLayerReth.RcsFilter.QueryOrder
import XLayerReth.RcsFilter.QuotaInjective

/-!
# Verdicts over the wire

The filter and its workers, with every answer of RCS read off the wire by the client.

* `HttpEvent` — an event of the filter: what the transport makes of a request of a worker, or
  anything that is no answer.
* `Whole` — a value was decoded from a complete response of the expected status, within the bound.
* `ApprovedOver` — the two answers behind an approval, in order.

Principal result: `verdicts_from_whole_answers` — in every run, an approval rests on two whole
answers about this very lifecycle, and the rules behind a verdict were sent in a whole answer, too.
-/

set_option autoImplicit false

namespace XLayerReth.RcsFilter

open XLayerReth.Lib

/-! ## Answers off the wire -/

/-- What the transport makes of a request. -/
abbrev Outcome := Except TransportError HttpResponse

/-- `serde_json::from_slice`, for the types that are decoded. -/
structure Parsers where
  rules : Bytes → Except String RulesResponse
  version : Bytes → Except String VersionResponse
  submit : Bytes → Except String SubmitResponse
  query : Bytes → Except String (List QueryTx)

/-- The action depends on an answer of RCS. -/
def Act.answers : Act → Bool
  | .submitReply _ _ _ | .queryReply _ _ _ | .installRules _ => true
  | _ => false

inductive HttpEvent where
  | rules (outcome : Outcome)
  | version (outcome : Outcome)
  | submitReply (i : Nat) (req : SubmitRequest) (outcome : Outcome) (now : Nat)
  | queryReply (i : Nat) (q : QueryParams) (outcome : Outcome) (now : Nat)
  | restart
  | other (act : Act) (h : act.answers = false)

/-- What the client makes of an outcome. -/
def HttpEvent.read (parse : Parsers) : HttpEvent → UpdateEvent
  | .rules outcome => .rules (getRules (fun _ => outcome) parse.rules)
  | .version outcome => .version (getRulesVersion (fun _ => outcome) parse.version)
  | .submitReply i req outcome now =>
    .other (.submitReply i
      ((submit (fun _ => outcome) parse.submit req).toOption.map SubmitResponse.accepted) now)
      (fun _ => nofun)
  | .queryReply i q outcome now =>
    .other (.queryReply i (query (fun _ => outcome) parse.query q).toOption now) (fun _ => nofun)
  | .restart => .restart
  | .other act h => .other act (by rintro rules rfl; cases h)

def httpStep (env : Env) (parse : Parsers) (u : Updating) (e : HttpEvent) : Option Updating :=
  updateStep env u (e.read parse)

def httpRun (env : Env) (parse : Parsers) (events : List HttpEvent) : Option Updating :=
  runFrom (httpStep env parse) Updating.new events

/-- A value was decoded from a complete response of the expected status, within the bound. -/
def Whole {T : Type} (fromSlice : Bytes → Except String T) (expected : Nat) (outcome : Outcome)
    (value : T) : Prop :=
  ∃ resp, outcome = .ok resp ∧ resp.status = expected ∧
    resp.body.length ≤ maxResponseBodyBytes ∧ resp.failure = none ∧ fromSlice resp.body = .ok value

theorem whole_of_exchange {T : Type} {fromSlice : Bytes → Except String T} {expected : Nat}
    {outcome : Outcome} {req : HttpRequest SubmitRequest} {value : T}
    (h : exchange (fun _ => outcome) fromSlice expected req = .ok value) :
    Whole fromSlice expected outcome value := by
  unfold exchange at h
  cases outcome with
  | error e => cases h
  | ok resp =>
    obtain ⟨hstatus, -, hsmall, hfailure, hslice⟩ := (decodeJson_ok_iff _ _ _ _).mp h
    exact ⟨resp, rfl, hstatus, hsmall, hfailure, hslice⟩

theorem ok_of_toOption {ε α : Type} {r : Except ε α} {a : α} (h : r.toOption = some a) :
    r = .ok a := by
  cases r with
  | error e => cases h
  | ok b =>
    cases h
    rfl

/-! ## Where an operation comes from -/

/-- Why an action performs an operation: a call inserts what it has audited, and an answer is
    applied by the reply to its request. -/
def PerformedBy (env : Env) (s : State) (act : Act) : PoolOp → Prop
  | .insert entry fresh =>
    ∃ i now c r, act = .callStep i now ∧ s.calls[i]? = some c ∧
      c.advance env s.ops s.rules now = some r ∧ .insert entry fresh ∈ r.1
  | .applySubmitResponse accepted expected _ now =>
    ∃ i, act = .submitReply i (some accepted) now ∧ s.requests[i]? = some expected
  | .applyQueryStatus h g status _ now =>
    ∃ i rows task, act = .queryReply i (some rows) now ∧ s.queries[i]? = some task ∧
      (h, g, status) ∈ collectRelevant task.expected rows
  | _ => True

/-- **What a step appends.** -/
theorem step_appends {env : Env} {s s' : State} {act : Act} (h : step env s act = some s') :
    ∃ new, s'.ops = s.ops ++ new ∧ ∀ op ∈ new, PerformedBy env s act op := by
  have hnone : ∀ {t : State}, t.ops = s.ops →
      ∃ new, t.ops = s.ops ++ new ∧ ∀ op ∈ new, PerformedBy env s act op :=
    fun hops => ⟨[], by rw [hops, List.append_nil], by simp⟩
  have hone : ∀ {t : State} (op : PoolOp), t.ops = s.ops ++ [op] → PerformedBy env s act op →
      ∃ new, t.ops = s.ops ++ new ∧ ∀ op ∈ new, PerformedBy env s act op := by
    intro t op hops hop
    refine ⟨[op], hops, fun op' hop' => ?_⟩
    rw [List.mem_singleton.mp hop']
    exact hop
  cases act with
  | screen input => cases h; exact hnone rfl
  | callStep i now =>
    obtain ⟨c, hget, hc⟩ := Option.bind_eq_some_iff.mp h
    obtain ⟨r, hr, rfl⟩ := Option.map_eq_some_iff.mp hc
    rcases advance_performs hr with hops | ⟨entry, fresh, hops⟩ | ⟨g, consistent, hops, -⟩
    · exact hnone (by simp [hops])
    · exact hone (.insert entry fresh) (by rw [hops])
        ⟨i, now, c, r, rfl, hget, hr, by rw [hops]; exact List.mem_singleton_self _⟩
    · exact hone (.finishConsistencyCheck _ g consistent now) (by rw [hops]) trivial
  | submitCollect now => cases h; exact hone _ rfl trivial
  | submitGroup i now =>
    obtain ⟨group, -, rfl⟩ := Option.map_eq_some_iff.mp h
    dsimp only
    split
    · exact hone _ rfl trivial
    · exact hone _ rfl trivial
  | submitReply i reply now =>
    obtain ⟨expected, hexpected, rfl⟩ := Option.map_eq_some_iff.mp h
    cases reply with
    | none => exact hone _ rfl trivial
    | some accepted => exact hone _ rfl ⟨i, rfl, hexpected⟩
  | queryStart now =>
    simp only [step] at h
    split at h
    · cases h; exact hone _ rfl trivial
    · cases h; exact hone _ rfl trivial
  | queryReply i reply now =>
    obtain ⟨task, htask, ht⟩ := Option.bind_eq_some_iff.mp h
    split at ht
    · cases ht
    · cases reply with
      | none => cases ht; exact hone _ rfl trivial
      | some rows =>
        cases ht
        refine ⟨_, rfl, fun op hop => ?_⟩
        obtain ⟨r, hr, rfl⟩ := List.mem_map.mp hop
        exact ⟨i, rows, task, rfl, htask, hr⟩
  | timeoutTick now =>
    cases h
    refine ⟨_, rfl, fun op hop => ?_⟩
    rcases List.mem_cons.mp hop with rfl | hop
    · trivial
    · rw [List.mem_singleton.mp hop]
      trivial
  | installRules rules => cases h; exact hnone rfl
  | removeCanonical hashes => cases h; exact hone _ rfl trivial
  | recoverLag => cases h; exact hone _ rfl trivial
  | removeNonTerminal hash generation => cases h; exact hone _ rfl trivial
  | emit i =>
    obtain ⟨event, -, rfl⟩ := Option.map_eq_some_iff.mp h
    exact hnone rfl

section Run

variable {env : Env} {parse : Parsers}

/-- A step of the rules worker performs no operation and advances no call. -/
theorem updateStep_filter {u u' : Updating} {e : UpdateEvent} (h : updateStep env u e = some u') :
    (∃ rules ready, u'.filter = { u.filter with rules := rules, ready := ready } ∧
      (u'.filter = u.filter ∨ u'.filter = u.filter.installRules rules)) ∨
    ∃ act hact, e = .other act hact ∧ step env u.filter act = some u'.filter := by
  have hload : ∀ result, (loadAndInstall env.abi u.filter result).2 = u'.filter →
      ∃ rules ready, u'.filter = { u.filter with rules := rules, ready := ready } ∧
        (u'.filter = u.filter ∨ u'.filter = u.filter.installRules rules) := by
    intro result hs
    rcases loadAndInstall_cases env.abi u.filter result with ⟨-, hc⟩ | ⟨resp, set, -, -, hc⟩
    · rw [hc] at hs
      exact ⟨u.filter.rules, u.filter.ready, hs.symm, .inl hs.symm⟩
    · rw [hc] at hs
      exact ⟨set, true, hs.symm, .inr hs.symm⟩
  cases e with
  | rules result =>
    left
    simp only [updateStep] at h
    split at h
    · split at h
      · rename_i s hs
        cases h
        exact hload result (by rw [hs])
      · rename_i r s hs
        cases h
        exact hload result (by rw [hs])
    · cases h
      exact hload result rfl
    · cases h
  | version result =>
    left
    simp only [updateStep] at h
    split at h
    · cases h
      exact ⟨_, _, rfl, .inl rfl⟩
    · cases h
    · cases h
  | restart =>
    cases h
    exact .inl ⟨_, _, rfl, .inl rfl⟩
  | other act hact =>
    obtain ⟨s, hs, rfl⟩ := Option.map_eq_some_iff.mp h
    exact .inr ⟨act, hact, rfl, hs⟩

/-- The filter of a run goes through a run of its own actions. -/
theorem httpRun_acts (events : List HttpEvent) : ∀ u, httpRun env parse events = some u →
    ∃ acts, run env State.new acts = some u.filter := by
  refine runFrom_induction (fun _ (u : Updating) => ∃ acts, run env State.new acts = some u.filter)
    ⟨[], rfl⟩ ?_ events
  rintro events u e u' - ⟨acts, hacts⟩ hstep
  rcases updateStep_filter hstep with ⟨rules, -, -, hsame | hinstalled⟩ | ⟨act, -, -, hact⟩
  · exact ⟨acts, by rw [hacts, hsame]⟩
  · refine ⟨acts ++ [.installRules rules], ?_⟩
    rw [run_append, hacts, hinstalled]
    rfl
  · refine ⟨acts ++ [act], ?_⟩
    rw [run_append, hacts]
    simp [run, hact]

theorem httpStep_log {u u' : Updating} {e : HttpEvent} (h : httpStep env parse u e = some u') :
    u.filter.ops <+: u'.filter.ops := by
  rcases updateStep_filter h with ⟨rules, ready, hfilter, -⟩ | ⟨act, -, -, hact⟩
  · rw [hfilter]
  · exact (step_calls hact).1

/-- Why a step of the system performs an operation. -/
theorem httpStep_performs {u u' : Updating} {e : HttpEvent} {k : Nat} {op : PoolOp}
    (h : httpStep env parse u e = some u') (habsent : u.filter.ops.length ≤ k)
    (hop : u'.filter.ops[k]? = some op) :
    ∃ act hact, e.read parse = .other act hact ∧ PerformedBy env u.filter act op := by
  rcases updateStep_filter h with ⟨rules, ready, hfilter, -⟩ | ⟨act, hact, he, hstep⟩
  · rw [hfilter] at hop
    exact absurd (List.getElem?_eq_some_iff.mp hop).1 (Nat.not_lt.mpr habsent)
  · obtain ⟨new, hnew, hby⟩ := step_appends hstep
    rw [hnew, List.getElem?_append_right habsent] at hop
    exact ⟨act, hact, he, hby op (List.mem_of_getElem? hop)⟩

/-! ## The answers behind an approval -/

/-- A whole `202` answer to the submission of a lifecycle accepts it. -/
def AcceptedBy (parse : Parsers) (u : Updating) (h : B256) (g : Nat) (e : HttpEvent) : Prop :=
  ∃ i req outcome now expected resp, e = .submitReply i req outcome now ∧
    u.filter.requests[i]? = some expected ∧ (h, g) ∈ expected.entries ∧
    Whole parse.submit 202 outcome resp ∧ BufferPool.accepts resp.accepted h = true

/-- A whole `200` answer to a query made while a lifecycle was in flight approves it, and no row of
    the answer denies it. -/
def ApprovedBy (parse : Parsers) (u : Updating) (h : B256) (g : Nat) (e : HttpEvent) : Prop :=
  ∃ i q outcome now task rows, e = .queryReply i q outcome now ∧
    u.filter.queries[i]? = some task ∧ (h, g) ∈ task.expected.entries ∧
    Whole parse.query 200 outcome rows ∧
    (∃ row ∈ rows, B256.fromStr row.txHash = some h ∧ row.status = "approved") ∧
    ∀ row ∈ rows, B256.fromStr row.txHash = some h → row.status ≠ "denied" ∧ row.status ≠ "outdated"

/-- **The two answers behind an approval**, the second after the first. -/
def ApprovedOver (env : Env) (parse : Parsers) (events : List HttpEvent) (h : B256) (g : Nat) :
    Prop :=
  ∃ i j m n a b, i < j ∧ events[i]? = some a ∧ httpRun env parse (events.take i) = some m ∧
    AcceptedBy parse m h g a ∧ events[j]? = some b ∧ httpRun env parse (events.take j) = some n ∧
    ApprovedBy parse n h g b

theorem acceptedBy_of_performed {u : Updating} {e : HttpEvent} {act : Act}
    {hact : ∀ rules, act ≠ .installRules rules} {accepted : List String} {expected : Generations}
    {cfg : FilterConfig} {now : Nat} {h : B256} {g : Nat} (he : e.read parse = .other act hact)
    (hby : PerformedBy env u.filter act (.applySubmitResponse accepted expected cfg now))
    (hexpected : (h, g) ∈ expected.entries) (haccepts : BufferPool.accepts accepted h = true) :
    AcceptedBy parse u h g e := by
  obtain ⟨i, rfl, hrequest⟩ := hby
  cases e with
  | submitReply i' req outcome now' =>
    simp only [HttpEvent.read, UpdateEvent.other.injEq, Act.submitReply.injEq] at he
    obtain ⟨rfl, hreply, rfl⟩ := he
    obtain ⟨resp, hresp, rfl⟩ := Option.map_eq_some_iff.mp hreply
    exact ⟨i', req, outcome, now', expected, resp, rfl, hrequest, hexpected,
      whole_of_exchange (ok_of_toOption hresp), haccepts⟩
  | other act' hact' =>
    cases he
    cases hact'
  | queryReply => cases he
  | _ => cases he

/-- A kept row that approves is a row of the answer, and no row denies the hash. -/
theorem approved_of_collectRelevant {expected : Generations} {rows : List QueryTx} {h : B256}
    {g : Nat} (hrow : (h, g, "approved") ∈ collectRelevant expected rows) :
    (∃ row ∈ rows, B256.fromStr row.txHash = some h ∧ row.status = "approved") ∧
      ∀ row ∈ rows, B256.fromStr row.txHash = some h →
        row.status ≠ "denied" ∧ row.status ≠ "outdated" := by
  obtain ⟨v, hv, hveq⟩ := List.mem_map.mp hrow
  obtain ⟨⟨k, v'⟩, hkv, rfl⟩ := List.mem_map.mp hv
  have hkept := (keptMap expected rows).kept k v' (OrdMap.mem_entries.mp hkv)
  obtain ⟨priority, hash, generation, status⟩ := v'
  simp only [Prod.mk.injEq] at hveq
  obtain ⟨rfl, rfl, rfl⟩ := hveq
  have hpriority : priority = 1 := by
    have := hkept.priority
    simp [queryPriority] at this
    exact this.symm
  refine ⟨?_, fun row hmem hparse => ?_⟩
  · obtain ⟨row, hmem, heff⟩ := hkept.said
    obtain ⟨hparse, -, -, hstatus⟩ := effective_eq_some.mp heff
    exact ⟨row, hmem, hparse, hstatus⟩
  · -- a denying row would have been kept in its place
    have hlow : ∀ p, queryPriority row.status = some p → p ≤ 1 := by
      intro p hp
      rw [← hpriority]
      refine hkept.top row.status p ⟨row, hmem, effective_eq_some.mpr ⟨hparse, ?_, ?_, rfl⟩⟩ hp
      · rw [hkept.current]
        rfl
      · rw [hp]
        rfl
    constructor
    · intro hstatus
      have := hlow 2 (by rw [hstatus]; rfl)
      omega
    · intro hstatus
      have := hlow 2 (by rw [hstatus]; rfl)
      omega

theorem approvedBy_of_performed {u : Updating} {e : HttpEvent} {act : Act}
    {hact : ∀ rules, act ≠ .installRules rules} {cfg : FilterConfig} {now : Nat} {h : B256}
    {g : Nat}
    (he : e.read parse = .other act hact)
    (hby : PerformedBy env u.filter act (.applyQueryStatus h g "approved" cfg now)) :
    ApprovedBy parse u h g e := by
  obtain ⟨i, rows, task, rfl, htask, hrow⟩ := hby
  cases e with
  | queryReply i' q outcome now' =>
    simp only [HttpEvent.read, UpdateEvent.other.injEq, Act.queryReply.injEq] at he
    obtain ⟨rfl, hreply, rfl⟩ := he
    obtain ⟨happroved, hdenied⟩ := approved_of_collectRelevant hrow
    exact ⟨i', q, outcome, now', task, rows, rfl, htask, collectRelevant_expected hrow,
      whole_of_exchange (ok_of_toOption hreply), happroved, hdenied⟩
  | other act' hact' =>
    cases he
    cases hact'
  | submitReply => cases he
  | _ => cases he

/-- **An approved lifecycle**: RCS accepted it in one whole answer and approved it in a later
    one. -/
theorem approvedOver_of_ops {events : List HttpEvent} {u : Updating}
    (hrun : httpRun env parse events = some u) {ops : List PoolOp} (hops : ops <+: u.filter.ops)
    {h : B256} {g : Nat} {e : BufferEntry} (he : (poolAfter ops).lifecycle h g = some e)
    (hs : e.status = .approved) : ApprovedOver env parse events h g := by
  obtain ⟨pre, accepted, expected, cfg, now, mid, cfg', now', post, rfl, hexpected, haccepts, -⟩ :=
    approved_origin he hs
  obtain ⟨more, hmore⟩ := hops
  -- the two operations, by their places in the log
  have hfirst : u.filter.ops[pre.length]? =
      some (.applySubmitResponse accepted expected cfg now) := by
    rw [← hmore]
    simp
  have hsecond : u.filter.ops[pre.length + (mid.length + 1)]? =
      some (.applyQueryStatus h g "approved" cfg' now') := by
    rw [← hmore]
    simp
  have hlog : ∀ (s : Updating) e s', httpStep env parse s e = some s' →
      s.filter.ops <+: s'.filter.ops := fun _ _ _ => httpStep_log
  have hperformed : ∀ {k : Nat}, k < u.filter.ops.length → ∃ i before a after,
      LoggedAt (httpStep env parse) (fun u : Updating => u.filter.ops) Updating.new events k i
        before a
        after := @exists_loggedAt _ _ _ _ (fun u : Updating => u.filter.ops) _ _ _ rfl hrun
  obtain ⟨i, m, a, m', hi⟩ := hperformed (List.getElem?_eq_some_iff.mp hfirst).1
  obtain ⟨j, n, b, n', hj⟩ := hperformed (List.getElem?_eq_some_iff.mp hsecond).1
  obtain ⟨act, hact, hread, hby⟩ := httpStep_performs hi.stepped hi.absent
    ((hi.getElem? hlog hrun).trans hfirst)
  obtain ⟨act', hact', hread', hby'⟩ := httpStep_performs hj.stepped hj.absent
    ((hj.getElem? hlog hrun).trans hsecond)
  have ha := acceptedBy_of_performed hread hby hexpected haccepts
  have hb := approvedBy_of_performed hread' hby'
  have hne : i ≠ j := by
    rintro rfl
    have hsame := hi.action.symm.trans hj.action
    obtain ⟨_, _, _, _, _, _, rfl, -⟩ := ha
    obtain ⟨_, _, _, _, _, _, rfl, -⟩ := hb
    cases hsame
  exact ⟨i, j, m, n, a, b, Nat.lt_of_le_of_ne (hi.le hlog hj (Nat.le_add_right _ _)) hne, hi.action,
    hi.reached, ha, hj.action, hj.reached, hb⟩

/-! ## The rules behind a verdict -/

/-- The rules a filter starts with, or those of a whole `200` answer that was installed. -/
def RulesFrom (env : Env) (parse : Parsers) (events : List HttpEvent) (rules : RuleSet) : Prop :=
  rules = RuleSet.default ∨ ∃ outcome resp, .rules outcome ∈ events ∧
    Whole parse.rules 200 outcome resp ∧ Installs env.abi resp rules

theorem RulesFrom.mono {events more : List HttpEvent} {rules : RuleSet}
    (h : RulesFrom env parse events rules) : RulesFrom env parse (events ++ more) rules := by
  rcases h with h | ⟨outcome, resp, hmem, h⟩
  · exact .inl h
  · exact .inr ⟨outcome, resp, List.mem_append_left _ hmem, h⟩

/-- The rules in force are rules that were sent. -/
theorem httpRun_rules (events : List HttpEvent) : ∀ u, httpRun env parse events = some u →
    RulesFrom env parse events u.filter.rules := by
  refine runFrom_induction (fun events (u : Updating) => RulesFrom env parse events u.filter.rules)
    (.inl rfl) ?_ events
  intro events u e u' _ ih hstep
  rcases updateStep_cases hstep with ⟨hrules, -⟩ | ⟨resp, hread, hinstalls, -⟩
  · rw [hrules]
    exact ih.mono
  · cases e with
    | rules outcome =>
      simp only [HttpEvent.read, UpdateEvent.rules.injEq] at hread
      exact .inr ⟨outcome, resp, by simp, whole_of_exchange hread, hinstalls⟩
    | _ => cases hread

/-- What a screening call has read, and what it is about to insert. -/
def ReadsFrom (P : RuleSet → Prop) (c : Call) : Prop :=
  (∀ rules, c.rulesRead = some rules → P rules) ∧
    ∀ rules actions timeoutAction, c.phase = .insert rules actions timeoutAction → P rules

/-- **The next section of a call** reads the rules in force, and inserts under rules it has read. -/
theorem ReadsFrom.advance {P : RuleSet → Prop} {ops : List PoolOp} {rules : RuleSet} {now : Nat}
    {c : Call} {r : List PoolOp × Call} (hc : ReadsFrom P c) (hrules : P rules)
    (h : c.advance env ops rules now = some r) :
    ReadsFrom P r.2 ∧ ∀ entry fresh, PoolOp.insert entry fresh ∈ r.1 → P entry.ruleSnapshot := by
  have hafter : ∀ (kind : SectionKind) (o : List PoolOp) (phase : Phase),
      (∀ rules actions timeoutAction, phase ≠ .insert rules actions timeoutAction) →
      ReadsFrom P (c.after kind o phase) :=
    fun kind o phase hphase => ⟨hc.1, fun rules actions t ht => absurd ht (hphase rules actions t)⟩
  unfold Call.advance at h
  cases hp : c.phase with
  | lookup =>
    simp only [hp] at h
    split at h
    · cases h
      exact ⟨hafter _ _ _ (existingPhase_ne_insert _), by simp⟩
    · cases h
      exact ⟨hafter _ _ _ (by simp), by simp⟩
  | readRules =>
    simp only [hp, Option.some.injEq] at h
    cases h
    refine ⟨⟨?_, ?_⟩, by simp⟩
    · intro rules' hread
      cases hread
      exact hrules
    · intro rules' actions t ht
      dsimp only at ht
      cases hout : evaluateChecked env.abi rules c.input env.config.maxEventBindingsPerTx with
      | error e =>
        rw [hout] at ht
        cases ht
      | ok outcome =>
        rw [hout] at ht
        cases outcome with
        | audit actions' t' =>
          cases ht
          exact hrules
        | _ => cases ht
  | recheck =>
    simp only [hp] at h
    split at h
    · cases h
      exact ⟨hafter _ _ _ (existingPhase_ne_insert _), by simp⟩
    · cases h
      exact ⟨hafter _ _ _ (by simp), by simp⟩
  | insert rules' actions t =>
    simp only [hp, Option.some.injEq] at h
    cases h
    refine ⟨hafter _ _ _ (by simp), fun entry fresh hmem => ?_⟩
    cases List.mem_singleton.mp hmem
    exact hc.2 rules' actions t hp
  | confirm status storedHash generation ruleSnapshot =>
    simp only [hp] at h
    cases status with
    | approved =>
      simp only [Option.some.injEq] at h
      cases h
      exact ⟨hafter _ _ _ (by simp), fun entry fresh hmem => by simp at hmem⟩
    | timedOutAllow | dropped =>
      simp only [Option.some.injEq] at h
      cases h
      exact ⟨hafter _ _ _ (by simp), by simp⟩
    | _ =>
      simp only [Option.some.injEq] at h
      cases h
      exact ⟨⟨hc.1, by simp⟩, by simp⟩
  | metrics result =>
    simp only [hp, Option.some.injEq] at h
    cases h
    exact ⟨hafter _ _ _ (by simp), by simp⟩
  | done result =>
    simp only [hp] at h
    cases h

/-- Every rule set that a run has read or stored is one that was sent. -/
structure Sent (P : RuleSet → Prop) (s : State) : Prop where
  calls : ∀ c ∈ s.calls, ReadsFrom P c
  inserts : ∀ entry fresh, PoolOp.insert entry fresh ∈ s.ops → P entry.ruleSnapshot

theorem Sent.mono {P Q : RuleSet → Prop} {s : State} (h : Sent P s)
    (hPQ : ∀ rules, P rules → Q rules) :
    Sent Q s where
  calls c hc := ⟨fun rules hr => hPQ rules ((h.calls c hc).1 rules hr),
    fun rules actions t hp => hPQ rules ((h.calls c hc).2 rules actions t hp)⟩
  inserts entry fresh hop := hPQ _ (h.inserts entry fresh hop)

theorem Sent.step {P : RuleSet → Prop} {s s' : State} {act : Act} (h : Sent P s)
    (hrules : P s.rules)
    (hstep : step env s act = some s') : Sent P s' := by
  constructor
  · intro c hc
    rcases (step_calls hstep).2 with ⟨input, -, hcalls⟩ |
      ⟨i, now, c₀, r, -, hget, hadv, -, hcalls⟩ |
      hcalls
    · rw [hcalls] at hc
      rcases List.mem_append.mp hc with hc | hc
      · exact h.calls c hc
      · rw [List.mem_singleton.mp hc]
        exact ⟨fun _ => nofun, fun _ _ _ => nofun⟩
    · rw [hcalls] at hc
      rcases List.mem_or_eq_of_mem_set hc with hc | rfl
      · exact h.calls c hc
      · exact ((h.calls c₀ (List.mem_of_getElem? hget)).advance hrules hadv).1
    · exact h.calls c (hcalls ▸ hc)
  · intro entry fresh hop
    obtain ⟨new, hnew, hby⟩ := step_appends hstep
    rw [hnew] at hop
    rcases List.mem_append.mp hop with hop | hop
    · exact h.inserts entry fresh hop
    · obtain ⟨i, now, c, r, -, hget, hadv, hmem⟩ := hby _ hop
      exact ((h.calls c (List.mem_of_getElem? hget)).advance hrules hadv).2 entry fresh hmem

theorem httpRun_sent (events : List HttpEvent) : ∀ u, httpRun env parse events = some u →
    Sent (RulesFrom env parse events) u.filter := by
  refine runFrom_induction (fun events (u : Updating) => Sent (RulesFrom env parse events) u.filter)
    ⟨(fun c hc => by cases hc), (fun _ _ hop => by cases hop)⟩ ?_ events
  intro events u e u' hrun ih hstep
  have hgrown : Sent (RulesFrom env parse (events ++ [e])) u.filter := ih.mono (fun _ h => h.mono)
  rcases updateStep_filter hstep with ⟨rules, ready, hfilter, -⟩ | ⟨act, -, -, hact⟩
  · rw [hfilter]
    exact ⟨hgrown.calls, hgrown.inserts⟩
  · exact hgrown.step (httpRun_rules events u hrun).mono hact

/-- An entry keeps the rules it was inserted under. -/
theorem snapshot_of_get {P : RuleSet → Prop} (ops : List PoolOp)
    (hinserts : ∀ entry fresh, PoolOp.insert entry fresh ∈ ops → P entry.ruleSnapshot) {h : B256} :
    ∀ e, (poolAfter ops).get h = some e → P e.ruleSnapshot := by
  induction ops using List.reverseRecOn with
  | nil => exact fun e he => by simp [poolAfter, BufferPool.get_new] at he
  | append_singleton ops op ih =>
    intro e he
    have hih := ih (fun entry fresh hop => hinserts entry fresh (List.mem_append_left _ hop))
    rw [poolAfter_concat, PoolOp.get_apply] at he
    cases hget : (poolAfter ops).get h with
    | some e₀ =>
      rw [hget] at he
      rcases onEntry_cause he with rfl | ⟨s, now, rfl, -⟩
      · exact hih e hget
      · exact hih e₀ hget
    | none =>
      rw [hget] at he
      cases op with
      | insert entry fresh =>
        simp only [PoolOp.created] at he
        split at he
        · cases he
          exact hinserts entry fresh (by simp)
        · cases he
      | _ => cases he

/-- A lifecycle released by its deadline was to be released by it. -/
theorem timeoutAction_of_timedOutAllow {ops : List PoolOp} {h : B256} {g : Nat} {e : BufferEntry}
    (he : (poolAfter ops).lifecycle h g = some e) (hs : e.status = .timedOutAllow) :
    e.timeoutAction = .allow := by
  have hfresh : ∀ x : BufferEntry, x = e → x.status ≠ .notSubmitted := by
    rintro x rfl hx
    rw [hs] at hx
    cases hx
  obtain ⟨pre, op, post, e₀, e₁, -, -, hne, hop, rfl, -⟩ := since (· = e) hfresh h g ops e he rfl
  rcases onEntry_cause hop with heq | ⟨s, now, heq, hc⟩
  · exact absurd heq.symm hne
  · rw [heq] at hs ⊢
    simp only [BufferEntry.moveTo] at hs ⊢
    subst hs
    generalize hst : BufferStatus.timedOutAllow = status at hc
    cases hc with
    | deadline ha hr hd =>
      cases hta : e₀.timeoutAction with
      | allow => rfl
      | deny =>
        rw [hta] at hst
        cases hst
    | _ => cases hst

/-! ## Verdicts -/

/-- **Every verdict rests on whole answers.**  In every run of the filter and its workers over the
    transport, whatever the transport makes of their requests, the rules in force were sent in a
    whole answer.  A call allows a transaction only under rules that were, and reports it as
    approved only where its entry was audited under rules that were and either is released by its
    deadline or was accepted in one whole answer, and approved in a later one, for this very
    lifecycle. -/
theorem verdicts_from_whole_answers (env : Env) (parse : Parsers) (events : List HttpEvent)
    (u : Updating) (hrun : httpRun env parse events = some u) :
    RulesFrom env parse events u.filter.rules ∧
    ∀ c ∈ u.filter.calls,
      (c.result = some .allow → ∃ rules, RulesFrom env parse events rules ∧
        evaluateChecked env.abi rules c.input env.config.maxEventBindingsPerTx = .ok .allow) ∧
      (c.result = some .auditApproved → ∃ last e, c.consults.getLast? = some last ∧
        c.entryAt last = some e ∧ RulesFrom env parse events e.ruleSnapshot ∧
        (e.status = .timedOutAllow ∧ e.timeoutAction = .allow ∨
          e.status = .approved ∧ ApprovedOver env parse events c.input.txHash e.generation)) := by
  have hsent := httpRun_sent events u hrun
  obtain ⟨acts, hacts⟩ := httpRun_acts events u hrun
  refine ⟨httpRun_rules events u hrun, fun c hc => ⟨fun hr => ?_, fun hr => ?_⟩⟩
  · obtain ⟨last, rules, -, -, hread, heval⟩ := cleared_of_result hacts hc hr
    exact ⟨rules, (hsent.calls c hc).1 rules hread, heval⟩
  · obtain ⟨found, last, e₀, e, -, -, hlast, he, -, -, hstatus⟩ := confirmed_of_result hacts hc hr
    have hmem : last ∈ c.sections := List.mem_of_mem_filter (List.mem_of_getLast? hlast)
    have hops := (calls_inv acts u.filter hacts c hc).2 last hmem
    have hlife : (poolAfter last.ops).lifecycle c.input.txHash e.generation = some e :=
      BufferPool.lifecycle_eq_some.mpr ⟨he, rfl⟩
    refine ⟨last, e, hlast, he, ?_, ?_⟩
    · exact snapshot_of_get last.ops
        (fun entry fresh hop => hsent.inserts entry fresh (hops.subset hop)) e he
    · rcases hstatus with hstatus | ⟨hstatus, -⟩
      · exact .inl ⟨hstatus, timeoutAction_of_timedOutAllow hlife hstatus⟩
      · exact .inr ⟨hstatus, approvedOver_of_ops hrun hops hlife hstatus⟩

end Run

/-- A whole response, in one chunk. -/
def reply (status : Nat) (body : Bytes) : Outcome := .ok ⟨status, none, [body], none⟩

/-- Bodies of one byte. -/
def byteParsers : Parsers where
  rules body := if body = [1] then .ok ⟨1, 1, [transferRule]⟩ else .error "expected value"
  version _ := .error "expected value"
  submit body :=
    if body = [2] then .ok ⟨[transferInput.txHash.lowerHex], []⟩ else .error "expected value"
  query body :=
    if body = [3] then .ok [⟨transferInput.txHash.lowerHex, "approved"⟩]
    else if body = [0] then .ok []
    else .error "expected value"

/-- The rules are loaded at the second attempt; one transaction is buffered, submitted and approved,
    while a response with another status and one that is cut short are discarded. -/
def overHttpEvents : List HttpEvent :=
  [.rules (reply 503 [1]), .rules (reply 200 [1]), .other (.screen transferInput) rfl,
    .other (.callStep 0 0) rfl, .other (.callStep 0 0) rfl, .other (.callStep 0 0) rfl,
    .other (.callStep 0 0) rfl, .other (.submitCollect 1) rfl, .other (.submitGroup 0 1) rfl,
    .submitReply 0 ⟨1, []⟩ (reply 202 [2]) 2, .other (.queryStart 3) rfl,
    .queryReply 0 (.status "pending")
      (.ok ⟨200, some 9, [[3]], some ⟨false, "connection reset"⟩⟩) 3,
    .queryReply 0 (.status "approved") (reply 200 [3]) 4, .other (.screen transferInput) rfl,
    .other (.callStep 1 5) rfl, .other (.callStep 1 5) rfl, .other (.callStep 1 5) rfl]

theorem overHttpEvents_approved :
    ∃ u c last e, httpRun transferEnv byteParsers overHttpEvents = some u ∧ c ∈ u.filter.calls ∧
      c.result = some .auditApproved ∧ c.consults.getLast? = some last ∧ c.entryAt last = some e ∧
      (e.status = .timedOutAllow ∧ e.timeoutAction = .allow ∨ e.status = .approved ∧
        ApprovedOver transferEnv byteParsers overHttpEvents c.input.txHash e.generation) := by
  have hsum : (httpRun transferEnv byteParsers overHttpEvents).map
      (fun u => u.filter.calls.map Call.result) =
        some [some .auditPending, some .auditApproved] := by
    decide +kernel
  obtain ⟨u, hu, hcalls⟩ := Option.map_eq_some_iff.mp hsum
  have hmem : some Screen.auditApproved ∈ u.filter.calls.map Call.result := by rw [hcalls]; simp
  obtain ⟨c, hc, hr⟩ := List.mem_map.mp hmem
  obtain ⟨last, e, hlast, he, -, hverdict⟩ :=
    ((verdicts_from_whole_answers transferEnv byteParsers overHttpEvents u hu).2 c hc).2 hr
  exact ⟨u, c, last, e, hu, hc, hr, hlast, he, hverdict⟩

end XLayerReth.RcsFilter
