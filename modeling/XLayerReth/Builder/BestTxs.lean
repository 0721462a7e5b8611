import XLayerReth.Builder.Partition
import XLayerReth.Builder.Screened

/-!
# The transactions of the pool, flashblock after flashblock

Model of `best_txs.rs` and of the way `build_next_flashblock` uses it.  Every flashblock takes a new
iterator of the pool, and the pool still holds what earlier flashblocks committed, so these
transactions are skipped by their hashes.

* `PayloadTransactions` — the pool's iterator: it hands out what is left of it, each transaction at
  most once, and leaves out the descendants of a transaction that was marked invalid.
* `BestFlashblocksTxs` — the iterator that the flashblocks of a block share.
* `runTxLoopOver`, `flashblocksLoopOver` — the loops over the iterator instead of over given
  candidates.

Principal result: `pool_txs_once` — the loop over the iterator is the loop over the candidates that
the iterator hands out; no transaction of the pool is committed twice in a block, and in no
flashblock is one considered behind a transaction marked invalid there of which it is a descendant.
-/

set_option autoImplicit false

namespace XLayerReth.Builder

open RcsFilter Lib

section

/-! ## The iterators -/

/-- `PayloadTransactions`: `remaining` is what it may still hand out. -/
structure PayloadTransactions (I : Type) where
  next : I → Option (Candidate × I)
  markInvalid : I → Address → Nat → I
  remaining : I → List Candidate
  next_sublist : ∀ {i c i'}, next i = some (c, i') → (c :: remaining i').Sublist (remaining i)
  markInvalid_sublist : ∀ i sender nonce,
    (remaining (markInvalid i sender nonce)).Sublist (remaining i)
  markInvalid_excludes : ∀ i sender nonce, ∀ c ∈ remaining (markInvalid i sender nonce),
    c.tx.signer = sender → c.tx.tx.nonce ≤ nonce

/-- `BestFlashblocksTxs`. -/
structure BestFlashblocksTxs (I : Type) where
  inner : I
  currentFlashblockNumber : Nat
  commitedTransactions : List B256

variable {I : Type} (T : PayloadTransactions I)

namespace BestFlashblocksTxs

/-- `new`. -/
def new (inner : I) : BestFlashblocksTxs I := ⟨inner, 0, []⟩

/-- `refresh_iterator`. -/
def refreshIterator (b : BestFlashblocksTxs I) (inner : I) (currentFlashblockNumber : Nat) :
    BestFlashblocksTxs I :=
  { b with inner := inner, currentFlashblockNumber := currentFlashblockNumber }

/-- `mark_commited`. -/
def markCommited (b : BestFlashblocksTxs I) (txs : List B256) : BestFlashblocksTxs I :=
  { b with commitedTransactions := b.commitedTransactions ++ txs }

/-- `mark_invalid`. -/
def markInvalid (b : BestFlashblocksTxs I) (sender : Address) (nonce : Nat) :
    BestFlashblocksTxs I :=
  { b with inner := T.markInvalid b.inner sender nonce }

/-- The loop of `next`: at most as many rounds as there are transactions left. -/
def nextLoop (commited : List B256) : Nat → I → Option (Candidate × I)
  | 0, _ => none
  | fuel + 1, i =>
    match T.next i with
    | none => none
    | some (c, i') => if c.tx.tx.hash ∈ commited then nextLoop commited fuel i' else some (c, i')

/-- `next`. -/
def next (b : BestFlashblocksTxs I) : Option (Candidate × BestFlashblocksTxs I) :=
  (nextLoop T b.commitedTransactions ((T.remaining b.inner).length + 1) b.inner).map
    (fun p => (p.1, { b with inner := p.2 }))

/-- What may still be handed out, without what was committed. -/
def remaining (b : BestFlashblocksTxs I) : List Candidate :=
  (T.remaining b.inner).filter (fun c => c.tx.tx.hash ∉ b.commitedTransactions)

end BestFlashblocksTxs

/-! ## The loops over the iterator -/

variable {Db Changes Env : Type} (P : Platform Db Changes Env) (ctx : BuilderCtx Env)

/-- A round over the iterator: the candidates it handed out, with what was said of them, the
    iterator and the loop after it. -/
structure Round (I Db Changes : Type) where
  considered : List (Candidate × Verdicts)
  best : BestFlashblocksTxs I
  loop : LoopState Db Changes
  ended : LoopEnd

/-- `mark_invalid` for what an iteration marked. -/
def BestFlashblocksTxs.markNew (b : BestFlashblocksTxs I) (s s' : LoopState Db Changes) :
    BestFlashblocksTxs I :=
  (s'.marked.drop s.marked.length).foldl (fun b m => b.markInvalid T m.1 m.2) b

/-- `run_tx_loop` over the iterator; `verdicts` are those made about one candidate after the
    other. -/
def runTxLoopOver (limits : TransactionLimits) : Nat → (Nat → Verdicts) → LoopState Db Changes →
    BestFlashblocksTxs I → Round I Db Changes
  | 0, _, s, b => ⟨[], b, s, .exhausted⟩
  | fuel + 1, verdicts, s, b =>
    match b.next T with
    | none => ⟨[], b, s, .exhausted⟩
    | some (c, b') =>
      let cv := (c, verdicts 0)
      match considerTx P ctx limits s cv with
      | .error e => ⟨[cv], b', s, e⟩
      | .ok s' =>
        let round := runTxLoopOver limits fuel (fun k => verdicts (k + 1)) s' (b'.markNew T s s')
        { round with considered := cv :: round.considered }

/-- What a turn takes from the pool. -/
structure PoolTurn (I : Type) where
  turn : Turn
  snapshot : I
  verdicts : Nat → Verdicts

/-- The round of a turn over its snapshot of the pool. -/
def PoolTurn.round (p : PoolTurn I) (s : BuildState Db Changes) (b : BestFlashblocksTxs I) :
    Round I Db Changes :=
  runTxLoopOver T P ctx (turnTransactionLimits P ctx s p.turn)
    ((T.remaining p.snapshot).length + 1) p.verdicts (startLoop P ctx s p.turn)
    (b.refreshIterator p.snapshot s.fbState.flashblockIndex)

/-- The turn with the candidates that the iterator handed out. -/
def PoolTurn.toTurn (p : PoolTurn I) (s : BuildState Db Changes) (b : BestFlashblocksTxs I) :
    Turn :=
  { p.turn with candidates := (p.round T P ctx s b).considered }

/-- The iterator after a turn: the transactions since the last flashblock are committed. -/
def PoolTurn.after (p : PoolTurn I) (s : BuildState Db Changes) (b : BestFlashblocksTxs I) :
    BestFlashblocksTxs I :=
  let round := p.round T P ctx s b
  round.best.markCommited
    ((round.loop.exec.info.executedTransactions.drop s.fbState.lastFlashblockTxIndex).map Tx.hash)

/-- The loop of `build_payload` over the iterator, with the turns it went through. -/
def flashblocksLoopOver : BuildState Db Changes → BestFlashblocksTxs I → List (PoolTurn I) →
    BuildState Db Changes × List Turn
  | s, _, [] => (s, [])
  | s, b, p :: turns =>
    if s.fbState.flashblockIndex > s.fbState.targetFlashblockCount then (s, [])
    else
      let t := p.toTurn T P ctx s b
      match buildNextFlashblock P ctx s t with
      | (s', .built) =>
        let rest := flashblocksLoopOver s' (p.after T P ctx s b) turns
        (rest.1, t :: rest.2)
      | (s', .cancelled) => (s', [t])
      | (s', .failed) => (s', [t])

end

section

variable {I Db Changes Env : Type} {T : PayloadTransactions I} {P : Platform Db Changes Env}
  {ctx : BuilderCtx Env}

/-! ## One transaction of the iterator -/

namespace BestFlashblocksTxs

/-- The loop of `next` does not run out of rounds. -/
theorem nextLoop_enough (commited : List B256) : ∀ {m n : Nat} {i : I},
    (T.remaining i).length < m → (T.remaining i).length < n →
    nextLoop T commited m i = nextLoop T commited n i
  | 0, _, _, hm, _ => absurd hm (Nat.not_lt_zero _)
  | _ + 1, 0, _, _, hn => absurd hn (Nat.not_lt_zero _)
  | m + 1, n + 1, i, hm, hn => by
    unfold nextLoop
    cases hnext : T.next i with
    | none => rfl
    | some p =>
      obtain ⟨c, i'⟩ := p
      have hshorter := (T.next_sublist hnext).length_le
      rw [List.length_cons] at hshorter
      dsimp only
      rw [nextLoop_enough commited (m := m) (n := n) (by omega) (by omega)]

/-- **The loop of `next`**: a transaction that was committed is skipped. -/
theorem next_eq (b : BestFlashblocksTxs I) :
    b.next T = (T.next b.inner).bind (fun p =>
      if p.1.tx.tx.hash ∈ b.commitedTransactions then ({ b with inner := p.2 }).next T
      else some (p.1, { b with inner := p.2 })) := by
  unfold next
  rw [nextLoop]
  cases hnext : T.next b.inner with
  | none => rfl
  | some p =>
    obtain ⟨c, i'⟩ := p
    have hshorter := (T.next_sublist hnext).length_le
    rw [List.length_cons] at hshorter
    dsimp only [Option.bind_some]
    split
    · rw [nextLoop_enough b.commitedTransactions (m := (T.remaining b.inner).length)
        (n := (T.remaining i').length + 1) (by omega) (by omega)]
    · rfl

/-- What `next` hands out is the first of what is left, and was not committed. -/
theorem nextLoop_sublist (commited : List B256) : ∀ {n : Nat} {i i' : I} {c : Candidate},
    nextLoop T commited n i = some (c, i') →
      c.tx.tx.hash ∉ commited ∧ (c :: T.remaining i').Sublist (T.remaining i)
  | 0, _, _, _, h => by cases h
  | n + 1, i, i', c, h => by
    unfold nextLoop at h
    cases hnext : T.next i with
    | none =>
      rw [hnext] at h
      cases h
    | some p =>
      obtain ⟨c₁, i₁⟩ := p
      rw [hnext] at h
      dsimp only at h
      have hfirst := T.next_sublist hnext
      split at h
      · obtain ⟨hfresh, hrest⟩ := nextLoop_sublist commited h
        exact ⟨hfresh, hrest.trans ((List.sublist_cons_self c₁ _).trans hfirst)⟩
      · rename_i hfresh
        cases h
        exact ⟨hfresh, hfirst⟩

theorem next_sublist {b b' : BestFlashblocksTxs I} {c : Candidate} (h : b.next T = some (c, b')) :
    b'.commitedTransactions = b.commitedTransactions ∧
      (c :: T.remaining b'.inner).Sublist (T.remaining b.inner) ∧
      (c :: b'.remaining T).Sublist (b.remaining T) := by
  obtain ⟨⟨c₁, i⟩, hloop, heq⟩ := Option.map_eq_some_iff.mp h
  cases heq
  obtain ⟨hfresh, hrest⟩ := nextLoop_sublist b.commitedTransactions hloop
  refine ⟨rfl, hrest, ?_⟩
  have hfiltered := hrest.filter (fun c => c.tx.tx.hash ∉ b.commitedTransactions)
  rwa [List.filter_cons_of_pos (by simpa using hfresh)] at hfiltered

/-- Marking invalid only takes transactions away, among them the descendants. -/
theorem markAll_sublist : ∀ (marks : List (Address × Nat)) (b : BestFlashblocksTxs I),
    (marks.foldl (fun b m => b.markInvalid T m.1 m.2) b).commitedTransactions =
        b.commitedTransactions ∧
      (T.remaining (marks.foldl (fun b m => b.markInvalid T m.1 m.2) b).inner).Sublist
        (T.remaining b.inner) ∧
      ∀ m ∈ marks, ∀ c ∈ T.remaining (marks.foldl (fun b m => b.markInvalid T m.1 m.2) b).inner,
        c.tx.signer = m.1 → c.tx.tx.nonce ≤ m.2
  | [], b => ⟨rfl, List.Sublist.refl _, by simp⟩
  | m :: marks, b => by
    obtain ⟨hcommited, hsub, hmarks⟩ := markAll_sublist marks (b.markInvalid T m.1 m.2)
    refine ⟨hcommited, hsub.trans (T.markInvalid_sublist b.inner m.1 m.2), ?_⟩
    intro m' hm' c hc
    rcases List.mem_cons.mp hm' with rfl | hm'
    · exact T.markInvalid_excludes b.inner m'.1 m'.2 c (hsub.subset hc)
    · exact hmarks m' hm' c hc

end BestFlashblocksTxs

/-! ## One candidate -/

/-- A candidate is committed, as one of the pool, or nothing is. -/
theorem considerTx_history {limits : TransactionLimits} {s s' : LoopState Db Changes}
    {c : Candidate} {v : Verdicts} (h : considerTx P ctx limits s (c, v) = .ok s') :
    s'.exec.history = s.exec.history ∨
      ∃ committed, s'.exec.history = s.exec.history ++ [committed] ∧ committed.tx = c.tx ∧
        committed.source = .pool := by
  unfold considerTx at h
  dsimp only at h
  cases hbefore : beforeExecution P ctx limits s c v with
  | some stopped =>
    rw [hbefore] at h
    dsimp only at h
    subst h
    exact .inl (congrArg Exec.history (beforeExecution_turnsAway hbefore).1)
  | none =>
    rw [hbefore] at h
    dsimp only at h
    split at h
    · cases h
      split <;> exact .inl rfl
    · cases h
    · rename_i result changes gasless capture inspector ht
      cases h
      unfold afterExecution
      dsimp only
      split_ifs
      · exact .inl rfl
      · exact .inl rfl
      · exact .inl rfl
      · cases screenDecision v capture with
        | allow | auditApproved => exact .inr ⟨_, rfl, rfl, rfl⟩
        | deny | drop | auditPending => exact .inl rfl
      · exact .inr ⟨_, rfl, rfl, rfl⟩

/-- A candidate that is turned away before the execution is marked invalid. -/
theorem beforeExecution_marked {limits : TransactionLimits} {s s' : LoopState Db Changes}
    {c : Candidate} {v : Verdicts} (h : beforeExecution P ctx limits s c v = some (.ok s')) :
    s'.marked = s.marked ++ [(c.tx.signer, c.tx.tx.nonce)] := by
  unfold beforeExecution at h
  dsimp only at h
  split at h
  · cases h
    rfl
  split at h
  · cases h
    rfl
  split at h
  · cases h
    rfl
  split at h
  · cases h
    rfl
  split at h
  · cases h
  split at h
  · cases h
    rfl
  split at h
  · cases h
    rfl
  split at h
  · cases h
    rfl
  · cases h

/-- At most the candidate itself is marked invalid. -/
theorem considerTx_marked {limits : TransactionLimits} {s s' : LoopState Db Changes}
    {c : Candidate} {v : Verdicts} (h : considerTx P ctx limits s (c, v) = .ok s') :
    s'.marked = s.marked ∨ s'.marked = s.marked ++ [(c.tx.signer, c.tx.tx.nonce)] := by
  unfold considerTx at h
  dsimp only at h
  cases hbefore : beforeExecution P ctx limits s c v with
  | some stopped =>
    rw [hbefore] at h
    dsimp only at h
    subst h
    exact .inr (beforeExecution_marked hbefore)
  | none =>
    rw [hbefore] at h
    dsimp only at h
    split at h
    · cases h
      split
      · exact .inl rfl
      · exact .inr rfl
    · cases h
    · rename_i result changes gasless capture inspector ht
      cases h
      unfold afterExecution
      dsimp only
      split_ifs
      · exact .inr rfl
      · exact .inr rfl
      · exact .inr rfl
      · cases screenDecision v capture with
        | allow | auditApproved => exact .inl rfl
        | deny | drop | auditPending => exact .inr rfl
      · exact .inl rfl

/-! ## One round -/

/-- No candidate is a descendant of one that was marked invalid before it. -/
def NoDescendants (P : Platform Db Changes Env) (ctx : BuilderCtx Env) (limits : TransactionLimits)
    (s : LoopState Db Changes) (considered : List (Candidate × Verdicts)) : Prop :=
  ∀ pre cv post, considered = pre ++ cv :: post →
    ∀ l, pre.foldlM (considerTx P ctx limits) s = .ok l →
      ∀ m ∈ l.marked, cv.1.tx.signer = m.1 → cv.1.tx.tx.nonce ≤ m.2

/-- What is left in the iterator is no descendant of what was marked invalid. -/
def Excludes (T : PayloadTransactions I) (s : LoopState Db Changes) (b : BestFlashblocksTxs I) :
    Prop :=
  ∀ m ∈ s.marked, ∀ c ∈ T.remaining b.inner, c.tx.signer = m.1 → c.tx.tx.nonce ≤ m.2

theorem BestFlashblocksTxs.markNew_excludes {limits : TransactionLimits}
    {s s' : LoopState Db Changes} {b b' : BestFlashblocksTxs I} {c : Candidate} {v : Verdicts}
    (hnext : b.next T = some (c, b')) (h : considerTx P ctx limits s (c, v) = .ok s')
    (hexcludes : Excludes T s b) : Excludes T s' (b'.markNew T s s') := by
  obtain ⟨-, hsub, hnew⟩ := markAll_sublist (T := T) (s'.marked.drop s.marked.length) b'
  have hleft := hsub.trans ((List.sublist_cons_self c _).trans (next_sublist hnext).2.1)
  intro m hm d hd
  rcases considerTx_marked h with hsame | hmarked
  · rw [hsame] at hm
    exact hexcludes m hm d (hleft.subset hd)
  · rw [hmarked] at hm
    rcases List.mem_append.mp hm with hm | hm
    · exact hexcludes m hm d (hleft.subset hd)
    · refine hnew m ?_ d hd
      rwa [hmarked, List.drop_left]

theorem BestFlashblocksTxs.markNew_remaining (s s' : LoopState Db Changes)
    (b : BestFlashblocksTxs I) :
    (b.markNew T s s').commitedTransactions = b.commitedTransactions ∧
      ((b.markNew T s s').remaining T).Sublist (b.remaining T) := by
  obtain ⟨hcommited, hsub, -⟩ := markAll_sublist (T := T) (s'.marked.drop s.marked.length) b
  refine ⟨hcommited, ?_⟩
  unfold BestFlashblocksTxs.remaining markNew
  rw [hcommited]
  exact hsub.filter _

variable (T P ctx) in
/-- **A round over the iterator** is the round over the candidates that it hands out: each of them
    at most once, none that was committed, and no descendant of one that was marked invalid. -/
theorem runTxLoopOver_spec (limits : TransactionLimits) : ∀ (fuel : Nat) (verdicts : Nat → Verdicts)
    (s : LoopState Db Changes) (b : BestFlashblocksTxs I), Excludes T s b →
    let round := runTxLoopOver T P ctx limits fuel verdicts s b
    runTxLoop P ctx limits s round.considered = (round.loop, round.ended) ∧
      round.best.commitedTransactions = b.commitedTransactions ∧
      (round.considered.map Prod.fst).Sublist (b.remaining T) ∧
      NoDescendants P ctx limits s round.considered
  | 0, _, s, b, _ => ⟨rfl, rfl, List.nil_sublist _, by simp [NoDescendants, runTxLoopOver]⟩
  | fuel + 1, verdicts, s, b, hexcludes => by
    unfold runTxLoopOver
    cases hnext : b.next T with
    | none => exact ⟨rfl, rfl, List.nil_sublist _, by simp [NoDescendants]⟩
    | some p =>
      obtain ⟨c, b'⟩ := p
      obtain ⟨hcommited, hinner, hsub⟩ := BestFlashblocksTxs.next_sublist hnext
      have hfirst : ∀ m ∈ s.marked, c.tx.signer = m.1 → c.tx.tx.nonce ≤ m.2 := fun m hm =>
        hexcludes m hm c (hinner.subset (List.mem_cons_self ..))
      dsimp only
      cases hstep : considerTx P ctx limits s (c, verdicts 0) with
      | error e =>
        refine ⟨by simp [runTxLoop, hstep], hcommited, ?_, ?_⟩
        · exact ((List.nil_sublist _).cons_cons c).trans hsub
        · intro pre cv post hsplit l hl m hm
          obtain ⟨rfl, hcv⟩ : pre = [] ∧ cv = (c, verdicts 0) := by
            cases pre with
            | nil =>
              rw [List.nil_append, List.cons.injEq] at hsplit
              exact ⟨rfl, hsplit.1.symm⟩
            | cons x xs => simp at hsplit
          cases hl
          rw [hcv]
          exact hfirst m hm
      | ok s' =>
        obtain ⟨hround, hbest, hconsidered, hdescendants⟩ := runTxLoopOver_spec limits fuel
          (fun k => verdicts (k + 1)) s' (b'.markNew T s s')
          (BestFlashblocksTxs.markNew_excludes hnext hstep hexcludes)
        obtain ⟨hmarked, hremaining⟩ := b'.markNew_remaining (T := T) s s'
        refine ⟨by simp [runTxLoop, hstep, hround], hbest.trans (hmarked.trans hcommited), ?_, ?_⟩
        · rw [List.map_cons]
          exact ((hconsidered.trans hremaining).cons_cons c).trans hsub
        · intro pre cv post hsplit l hl m hm
          cases pre with
          | nil =>
            cases hl
            rw [List.nil_append, List.cons.injEq] at hsplit
            rw [← hsplit.1]
            exact hfirst m hm
          | cons x xs =>
            rw [List.cons_append, List.cons.injEq] at hsplit
            obtain ⟨rfl, hrest⟩ := hsplit
            rw [foldlM_cons, hstep] at hl
            exact hdescendants xs cv post hrest l hl m hm

/-- The hashes of the transactions from the pool. -/
def poolHashes (cs : List (Committed Changes)) : List B256 :=
  (cs.filter (fun c => c.source = .pool)).map (fun c => c.tx.tx.hash)

theorem poolHashes_append (cs ds : List (Committed Changes)) :
    poolHashes (cs ++ ds) = poolHashes cs ++ poolHashes ds := by
  simp [poolHashes]

theorem poolHashes_builder {cs : List (Committed Changes)} (h : ∀ c ∈ cs, c.source = .builder) :
    poolHashes cs = [] := by
  rw [poolHashes, List.map_eq_nil_iff, List.filter_eq_nil_iff]
  intro c hc
  simp [h c hc]

variable (P ctx) in
/-- What a round commits are candidates of it, in order, each at most once. -/
theorem runTxLoop_history (limits : TransactionLimits) :
    ∀ (cvs : List (Candidate × Verdicts)) (s : LoopState Db Changes),
      ∃ cs, (runTxLoop P ctx limits s cvs).1.exec.history = s.exec.history ++ cs ∧
        (poolHashes cs).Sublist ((cvs.map Prod.fst).map (fun c => c.tx.tx.hash))
  | [], s => ⟨[], by simp [runTxLoop], List.Sublist.refl _⟩
  | cv :: rest, s => by
    obtain ⟨c, v⟩ := cv
    unfold runTxLoop
    cases hstep : considerTx P ctx limits s (c, v) with
    | error e => exact ⟨[], by simp, List.nil_sublist _⟩
    | ok s' =>
      obtain ⟨cs, hhistory, hsub⟩ := runTxLoop_history limits rest s'
      rcases considerTx_history hstep with hsame | ⟨committed, hnew, htx, hsource⟩
      · exact ⟨cs, by rw [hhistory, hsame], hsub.trans (List.sublist_cons_self _ _)⟩
      · refine ⟨committed :: cs, by simp [hhistory, hnew], ?_⟩
        have hfirst : poolHashes (committed :: cs) = c.tx.tx.hash :: poolHashes cs := by
          simp [poolHashes, hsource, htx]
        rw [hfirst]
        exact hsub.cons_cons _

variable (P ctx) in
/-- Builder transactions are no pool transactions. -/
theorem addBuilderTxs_history (topOfBlock : Bool) (x : Exec Db Changes)
    (simulated : Option (List BuilderTransactionCtx)) :
    ∃ cs, (addBuilderTxs P ctx topOfBlock x simulated).1.history = x.history ++ cs ∧
      ∀ c ∈ cs, c.source = .builder := by
  obtain ⟨bs, cs, -, hcs, -, hresult⟩ := addBuilderTxs_appends P ctx topOfBlock x simulated
  refine ⟨cs, ?_, ?_⟩
  · rw [hresult]
    clear hresult hcs
    induction cs generalizing x with
    | nil => simp
    | cons c cs ih =>
      rw [List.foldl_cons, ih]
      simp [Exec.append]
  · intro c hc
    obtain ⟨b, -, hb⟩ := BuilderTransactionCtx.forall_committedAs hcs c hc
    exact hb.source

/-! ## Turn after turn -/

/-- A turn over the iterator is the turn over the candidates that it hands out. -/
theorem PoolTurn.round_eq (p : PoolTurn I) (s : BuildState Db Changes) (b : BestFlashblocksTxs I) :
    turnRound P ctx s (p.toTurn T P ctx s b) =
      ((p.round T P ctx s b).loop, (p.round T P ctx s b).ended) := by
  have hexcludes : Excludes T (startLoop P ctx s p.turn)
      (b.refreshIterator p.snapshot s.fbState.flashblockIndex) := by
    intro m hm
    cases hm
  exact (runTxLoopOver_spec T P ctx _ _ _ _ _ hexcludes).1

/-- The hashes that a round adds are new, and the iterator will skip them. -/
theorem PoolTurn.round_hashes (p : PoolTurn I) (s : BuildState Db Changes)
    (b : BestFlashblocksTxs I)
    (hdistinct : ((T.remaining p.snapshot).map (fun c => c.tx.tx.hash)).Nodup) :
    ∃ cs, (p.round T P ctx s b).loop.exec.history = s.exec.history ++ cs ∧ (poolHashes cs).Nodup ∧
      (∀ hash ∈ poolHashes cs, hash ∉ b.commitedTransactions) ∧
      (p.round T P ctx s b).best.commitedTransactions = b.commitedTransactions := by
  have hexcludes : Excludes T (startLoop P ctx s p.turn)
      (b.refreshIterator p.snapshot s.fbState.flashblockIndex) := by
    intro m hm
    cases hm
  obtain ⟨hround, hbest, hconsidered, -⟩ := runTxLoopOver_spec T P ctx
    (turnTransactionLimits P ctx s p.turn) ((T.remaining p.snapshot).length + 1) p.verdicts
    (startLoop P ctx s p.turn) (b.refreshIterator p.snapshot s.fbState.flashblockIndex) hexcludes
  obtain ⟨cs, hhistory, hsub⟩ := runTxLoop_history P ctx
    (turnTransactionLimits P ctx s p.turn) (p.round T P ctx s b).considered
    (startLoop P ctx s p.turn)
  obtain ⟨ds, htop, hbuilder⟩ := addBuilderTxs_history P ctx true s.exec p.turn.topSimulated
  have hleft := hsub.trans (hconsidered.map (fun c => c.tx.tx.hash))
  refine ⟨ds ++ cs, ?_, ?_, ?_, hbest⟩
  · have hloop := congrArg (fun l => l.1.exec.history) hround
    exact hloop.symm.trans (hhistory.trans ((congrArg (· ++ cs) htop).trans (List.append_assoc ..)))
  · rw [poolHashes_append, poolHashes_builder hbuilder, List.nil_append]
    exact hleft.nodup (hdistinct.sublist (List.filter_sublist.map _))
  · rw [poolHashes_append, poolHashes_builder hbuilder, List.nil_append]
    intro hash hmem
    obtain ⟨c, hc, rfl⟩ := List.mem_map.mp (hleft.subset hmem)
    have hfresh := (List.mem_filter.mp hc).2
    rw [decide_eq_true_eq] at hfresh
    exact hfresh

/-- **A turn over the iterator**: the pool transactions it adds are distinct and new, and if the
    turn is not the last one, later flashblocks skip them. -/
theorem PoolTurn.turn_hashes (p : PoolTurn I) {s s' : BuildState Db Changes}
    {b : BestFlashblocksTxs I} {turnEnd : TurnEnd}
    (hdistinct : ((T.remaining p.snapshot).map (fun c => c.tx.tx.hash)).Nodup)
    (hlast : s.fbState.lastFlashblockTxIndex ≤ s.exec.info.executedTransactions.length)
    (h : buildNextFlashblock P ctx s (p.toTurn T P ctx s b) = (s', turnEnd)) :
    ∃ cs, s'.exec.history = s.exec.history ++ cs ∧ (poolHashes cs).Nodup ∧
      (∀ hash ∈ poolHashes cs, hash ∉ b.commitedTransactions) ∧
      (∀ hash, hash ∈ b.commitedTransactions ∨ hash ∈ poolHashes cs →
        hash ∈ (p.after T P ctx s b).commitedTransactions) := by
  obtain ⟨cs, hhistory, hnodup, hnew, hbest⟩ :
      ∃ cs, (p.round T P ctx s b).loop.exec.history = s.exec.history ++ cs ∧ (poolHashes cs).Nodup ∧
        (∀ hash ∈ poolHashes cs, hash ∉ b.commitedTransactions) ∧
        (p.round T P ctx s b).best.commitedTransactions = b.commitedTransactions :=
    p.round_hashes s b hdistinct
  have hround : turnRound P ctx s (p.toTurn T P ctx s b) =
      ((p.round T P ctx s b).loop, (p.round T P ctx s b).ended) := p.round_eq s b
  -- what the round executed is behind the transactions of earlier flashblocks
  have hmarked : ∀ hash, hash ∈ b.commitedTransactions ∨ hash ∈ poolHashes cs →
      hash ∈ (p.after T P ctx s b).commitedTransactions := by
    intro hash hmem
    show hash ∈ (p.round T P ctx s b).best.commitedTransactions ++ _
    rw [hbest]
    refine List.mem_append.mpr (hmem.imp_right fun hpool => ?_)
    have hreaches : s.exec.Reaches P ctx (turnRound P ctx s (p.toTurn T P ctx s b)).1.exec :=
      (addBuilderTxs_reaches true s.exec p.turn.topSimulated).trans
        (executeBestTransactions_reaches _ _ _)
    rw [hround] at hreaches
    obtain ⟨ds, hds⟩ := hreaches
    have hsame : ds = cs := List.append_cancel_left (hds.history.symm.trans hhistory)
    rw [hds.transactions, hsame, List.drop_append_of_le_length hlast]
    refine List.mem_map.mpr ?_
    obtain ⟨c, hc, rfl⟩ := List.mem_map.mp hpool
    exact ⟨c.tx.tx, List.mem_append_right _
      (List.mem_map.mpr ⟨c, (List.mem_filter.mp hc).1, rfl⟩), rfl⟩
  rw [buildNextFlashblock_eq] at h
  split_ifs at h
  · cases h
    exact ⟨cs, by rw [hround, hhistory], hnodup, hnew, hmarked⟩
  · cases h
    exact ⟨cs, by rw [hround, hhistory], hnodup, hnew, hmarked⟩
  · obtain ⟨ds, hbottom, hbuilder⟩ := addBuilderTxs_history P ctx false
      (turnRound P ctx s (p.toTurn T P ctx s b)).1.exec p.turn.bottomSimulated
    have hpool : poolHashes (cs ++ ds) = poolHashes cs := by
      rw [poolHashes_append, poolHashes_builder hbuilder, List.append_nil]
    refine ⟨cs ++ ds, ?_, hpool ▸ hnodup, hpool ▸ hnew, hpool ▸ hmarked⟩
    rw [(finishFlashblock_cases _ _ _ _ h).1]
    rw [← List.append_assoc, ← hhistory]
    rw [hround] at hbottom
    show (addBuilderTxs P ctx false (turnRound P ctx s _).1.exec
      p.turn.bottomSimulated).1.history = _
    rw [hround]
    exact hbottom

theorem TurnsFrom.nil {s s' : BuildState Db Changes} {turns : List Turn}
    (h : TurnsFrom P ctx s turns s') (hnil : turns = []) : s' = s := by
  cases h with
  | start => rfl
  | turn _ _ _ => simp at hnil

/-- The first turn of a run. -/
theorem TurnsFrom.uncons {s s₂ : BuildState Db Changes} {t : Turn} {turns : List Turn}
    (h : TurnsFrom P ctx s (t :: turns) s₂) :
    ∃ s₁, buildNextFlashblock P ctx s t = (s₁, .built) ∧ TurnsFrom P ctx s₁ turns s₂ := by
  generalize heq : t :: turns = all at h
  induction h generalizing turns with
  | start => cases heq
  | @turn done s₁ s₂ t' hdone hindex hturn ih =>
    cases done with
    | nil =>
      rw [List.nil_append, List.cons.injEq] at heq
      obtain ⟨rfl, rfl⟩ := heq
      obtain rfl := hdone.nil rfl
      exact ⟨s₂, hturn, .start⟩
    | cons t'' done =>
      rw [List.cons_append, List.cons.injEq] at heq
      obtain ⟨rfl, rfl⟩ := heq
      obtain ⟨s', hfirst, hrest⟩ := ih rfl
      exact ⟨s', hfirst, .turn hrest hindex hturn⟩

theorem eachTurn_nil {start : BuildState Db Changes} {fact : BuildState Db Changes → Turn → Prop} :
    EachTurn P ctx start [] fact := by
  intro done t s hstarts
  simpa using hstarts.length_le

/-- What a run over the iterator has committed from the pool so far: no transaction twice, and all
    of them are skipped from now on. -/
structure PoolCommitted (start s : BuildState Db Changes) (b : BestFlashblocksTxs I)
    (cs : List (Committed Changes)) : Prop where
  history : s.exec.history = start.exec.history ++ cs
  once : (poolHashes cs).Nodup
  skipped : ∀ hash ∈ poolHashes cs, hash ∈ b.commitedTransactions

/-- What a run over the iterator shows at its end. -/
structure PoolRun (T : PayloadTransactions I) (P : Platform Db Changes Env) (ctx : BuilderCtx Env)
    (start s : BuildState Db Changes) (out : BuildState Db Changes × List Turn) : Prop where
  loop : flashblocksLoop P ctx s out.2 = out.1
  once : ∃ cs, out.1.exec.history = start.exec.history ++ cs ∧ (poolHashes cs).Nodup
  descendants : EachTurn P ctx s out.2 (fun s t =>
    NoDescendants P ctx (turnTransactionLimits P ctx s t) (startLoop P ctx s t) t.candidates)

theorem PoolTurn.noDescendants (p : PoolTurn I) (s : BuildState Db Changes)
    (b : BestFlashblocksTxs I) :
    NoDescendants P ctx (turnTransactionLimits P ctx s (p.toTurn T P ctx s b))
      (startLoop P ctx s (p.toTurn T P ctx s b)) (p.toTurn T P ctx s b).candidates := by
  have hexcludes : Excludes T (startLoop P ctx s p.turn)
      (b.refreshIterator p.snapshot s.fbState.flashblockIndex) := by
    intro m hm
    cases hm
  exact (runTxLoopOver_spec T P ctx _ _ _ _ _ hexcludes).2.2.2

theorem flashblocksLoopOver_spec {start : BuildState Db Changes}
    (hindex : ∀ {done : List Turn} {s : BuildState Db Changes}, TurnsFrom P ctx start done s →
      s.fbState.lastFlashblockTxIndex ≤ s.exec.info.executedTransactions.length) :
    ∀ (turns : List (PoolTurn I)) (done : List Turn) (s : BuildState Db Changes)
      (b : BestFlashblocksTxs I) (cs : List (Committed Changes)),
      (∀ p ∈ turns, ((T.remaining p.snapshot).map (fun c => c.tx.tx.hash)).Nodup) →
      TurnsFrom P ctx start done s → PoolCommitted start s b cs →
      PoolRun T P ctx start s (flashblocksLoopOver T P ctx s b turns)
  | [], _, _, _, cs, _, _, hcs => ⟨rfl, ⟨cs, hcs.history, hcs.once⟩, eachTurn_nil⟩
  | p :: turns, done, s, b, cs, hdistinct, hdone, hcs => by
    unfold flashblocksLoopOver
    by_cases hover : s.fbState.flashblockIndex > s.fbState.targetFlashblockCount
    · rw [if_pos hover]
      exact ⟨rfl, ⟨cs, hcs.history, hcs.once⟩, eachTurn_nil⟩
    rw [if_neg hover]
    dsimp only
    have hnow : NoDescendants P ctx (turnTransactionLimits P ctx s (p.toTurn T P ctx s b))
        (startLoop P ctx s (p.toTurn T P ctx s b)) (p.toTurn T P ctx s b).candidates :=
      p.noDescendants s b
    cases hturn : buildNextFlashblock P ctx s (p.toTurn T P ctx s b) with
    | mk s' turnEnd =>
      obtain ⟨ds, hhistory, hnodup, hnew, hmarked⟩ :=
        p.turn_hashes (hdistinct p (List.mem_cons_self ..)) (hindex hdone) hturn
      -- the hashes of this turn are not among those of the turns before it
      have hcs' : PoolCommitted start s' (p.after T P ctx s b) (cs ++ ds) := by
        refine ⟨by rw [hhistory, hcs.history, List.append_assoc], ?_, ?_⟩
        · rw [poolHashes_append]
          exact hcs.once.append hnodup fun hash hold hds => hnew hash hds (hcs.skipped hash hold)
        · rw [poolHashes_append]
          intro hash hmem
          exact hmarked hash ((List.mem_append.mp hmem).imp_left (hcs.skipped hash))
      have hlast : turnEnd ≠ .built → PoolRun T P ctx start s (s', [p.toTurn T P ctx s b]) := by
        intro hend
        refine ⟨?_, ⟨cs ++ ds, hcs'.history, hcs'.once⟩, eachTurn_singleton hnow⟩
        show flashblocksLoop P ctx s [p.toTurn T P ctx s b] = s'
        rw [flashblocksLoop, if_neg hover, hturn]
        cases turnEnd with
        | built => exact absurd rfl hend
        | cancelled | failed => rfl
      cases turnEnd with
      | built =>
        dsimp only
        have hle : s.fbState.flashblockIndex ≤ s.fbState.targetFlashblockCount :=
          Nat.not_lt.mp hover
        have hrest := flashblocksLoopOver_spec hindex turns _ s' (p.after T P ctx s b) (cs ++ ds)
          (fun q hq => hdistinct q (List.mem_cons_of_mem _ hq)) (hdone.turn hle hturn) hcs'
        refine ⟨?_, hrest.once, ?_⟩
        · show flashblocksLoop P ctx s (_ :: _) = _
          rw [flashblocksLoop, if_neg hover, hturn]
          exact hrest.loop
        · intro pre t s₁ hstarts hpre hindex'
          cases pre with
          | nil =>
            obtain rfl := hpre.nil rfl
            obtain ⟨rfl, -⟩ := List.cons_prefix_cons.mp hstarts
            exact hnow
          | cons t' pre =>
            obtain ⟨rfl, hrests⟩ := List.cons_prefix_cons.mp hstarts
            obtain ⟨s₂, hfirst, hpre⟩ := hpre.uncons
            cases hturn.symm.trans hfirst
            exact hrest.descendants pre t s₁ hrests hpre hindex'
      | cancelled => exact hlast (by decide)
      | failed => exact hlast (by decide)

/-- **The pool's transactions in a block**, for every pool, every sequence of snapshots of it with
    distinct hashes, and every verdict: the loop of `build_payload` over the iterator is the loop
    over the candidates that the iterator hands out, no transaction of the pool is committed twice
    in a block, though each flashblock starts from a new snapshot, and in no flashblock is a
    descendant considered behind a transaction that was marked invalid. -/
theorem pool_txs_once (T : PayloadTransactions I) (builder : BuilderConfig)
    (config : FlashblocksConfig) (i : RunInputs Db) (r : FallbackRun P builder config i) (pool : I)
    (turns : List (PoolTurn I))
    (hdistinct : ∀ p ∈ turns, ((T.remaining p.snapshot).map (fun c => c.tx.tx.hash)).Nodup) :
    PoolRun T P r.ctx r.start r.start
      (flashblocksLoopOver T P r.ctx r.start (.new pool) turns) := by
  obtain ⟨db₁, hpublished⟩ := r.published
  refine flashblocksLoopOver_spec (fun {done s} hdone => ?_) turns [] r.start (.new pool) []
    hdistinct .start ⟨(List.append_nil _).symm, List.nodup_nil, by simp [poolHashes]⟩
  have hs := (hpublished hdone).1
  rw [hs.lastIndex, (aligned_of_reaches hs.reaches).receipted_length]

end

namespace Sample

/-- A pool that hands out its transactions in the order they are listed. -/
def listed : PayloadTransactions (List Candidate) where
  next l := l.head?.map (fun c => (c, l.tail))
  markInvalid l sender _ := l.filter (fun c => c.tx.signer ≠ sender)
  remaining l := l
  next_sublist := by
    intro l c l' h
    cases l with
    | nil => cases h
    | cons d l =>
      cases h
      exact List.Sublist.refl _
  markInvalid_sublist _ _ _ := List.filter_sublist
  markInvalid_excludes l sender nonce c hc hsigner := by
    have := (List.mem_filter.mp hc).2
    simp [hsigner] at this

/-- A block of two flashblocks. -/
def twoFlashblocks : FallbackRun platform config synchronous
    { run none with referenceSystem := clockBefore 2 } :=
  (FallbackRun.ofInputs _ _ _ _).get (by decide +kernel)

/-- The pool still holds the transfer when the second flashblock starts. -/
def sameTransfer : PoolTurn (List Candidate) :=
  ⟨⟨some [], [], false, some [], none, true, true⟩, [transfer 7],
    fun _ => ⟨false, .execute, fun _ => .allow⟩⟩

theorem sameTransfer_once :
    (flashblocksLoopOver listed platform twoFlashblocks.ctx twoFlashblocks.start (.new [])
      [sameTransfer, sameTransfer]).2.map (fun t => t.candidates.length) = [1, 0] ∧
    PoolRun listed platform twoFlashblocks.ctx twoFlashblocks.start twoFlashblocks.start
      (flashblocksLoopOver listed platform twoFlashblocks.ctx twoFlashblocks.start (.new [])
        [sameTransfer, sameTransfer]) :=
  ⟨by decide, pool_txs_once listed _ _ _ twoFlashblocks [] _ (by decide)⟩

end Sample

end XLayerReth.Builder
