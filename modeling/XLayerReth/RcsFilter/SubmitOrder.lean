import XLayerReth.Lib.Loops
import XLayerReth.RcsFilter.SubmitEvents

/-!
# The order of submissions

Every run of a submit batch, whatever the order in which the requests complete and whether they
succeed: each group is started exactly once, the bound on requests in flight is kept, of two
groups that conflict the lower one completes before the other starts, and the source never
panics.

* `SegmentInv` — the locals of `run_normal_segment` against a `Lib.Progress` of its graph; the
  counters and the heap may lag behind for nodes still to be looked at.
* `BatchInv` — where the batch waits.

Principal result: `submit_batch_ordered`.
-/

set_option autoImplicit false

namespace XLayerReth.RcsFilter

open Lib

variable {ε : Type} {groups past segment later : List SubmitGroup} {maxConcurrency : Nat}
  {P : Progress (dag segment)} {owed hidden : List Nat} {run : SegmentRun ε}

/-! ## A segment in progress -/

/-- The node of an index; it still counts a predecessor that is done if the index is `owed`. -/
structure NodeNow (segment : List SubmitGroup) (P : Progress (dag segment)) (owed : List Nat)
    (i : Nat) (g : SubmitGroup) (node : SubmitNode) : Prop where
  group : node.group = if i ∈ P.started then none else some g
  remaining : node.remainingPredecessors = P.waiting i + (if i ∈ owed then 1 else 0)
  nodup : node.successors.Nodup
  successors : i ∉ P.done →
    ∀ k, k ∈ node.successors ↔ k < segment.length ∧ i ∈ dependencies segment k

/-- The locals of `run_normal_segment` at some point of its run.  The indices in `hidden` have
    not been looked at since they may have become ready. -/
structure SegmentInv (groups past segment : List SubmitGroup) (maxConcurrency : Nat)
    (P : Progress (dag segment)) (owed hidden : List Nat) (run : SegmentRun ε) : Prop where
  length : run.nodes.length = segment.length
  nodes : ∀ i g, segment[i]? = some g →
    ∃ node, run.nodes[i]? = some node ∧ NodeNow segment P owed i g node
  hidden_nodup : hidden.Nodup
  hidden_fresh : ∀ i ∈ hidden, i < segment.length ∧ i ∉ P.started
  ready_nodup : (run.ready.map Prod.snd).Nodup
  mem_ready : ∀ i, i ∈ run.ready.map Prod.snd ↔ P.Enabled i ∧ i ∉ hidden
  active_nodup : run.active.Nodup
  mem_active : ∀ i g,
    (i, g) ∈ run.active ↔ i ∈ P.started ∧ i ∉ P.done ∧ segment[i]? = some g
  active_length : run.active.length + P.done.card = P.started.card
  active_le : run.active.length ≤ maxConcurrency
  completed : run.completed = P.done.card
  recorded : Recorded groups past segment maxConcurrency P.started P.done run.events

/-- One node changes: what the others satisfy, they go on satisfying. -/
theorem nodes_set {nodes : List SubmitNode} {Q Q' : Nat → SubmitGroup → SubmitNode → Prop}
    (h : ∀ i g, segment[i]? = some g → ∃ node, nodes[i]? = some node ∧ Q i g node)
    {x : Nat} {node' : SubmitNode} (hnew : ∀ g, segment[x]? = some g → Q' x g node')
    (hold : ∀ i g node, segment[i]? = some g → i ≠ x → Q i g node → Q' i g node) :
    ∀ i g, segment[i]? = some g →
      ∃ node, (nodes.set x node')[i]? = some node ∧ Q' i g node := by
  intro i g hi
  obtain ⟨node, hnode, hq⟩ := h i g hi
  rw [List.getElem?_set]
  by_cases hx : x = i
  · subst hx
    rw [if_pos rfl, if_pos (List.getElem?_eq_some_iff.mp hnode).1]
    exact ⟨node', rfl, hnew g hi⟩
  · rw [if_neg hx]
    exact ⟨node, hnode, hold i g node hi (fun h => hx h.symm) hq⟩

/-- Looking at one hidden index. -/
theorem enqueueIfReady_inv {x : Nat}
    (hx : x ∉ owed)
    (h : SegmentInv groups past segment maxConcurrency P owed (x :: hidden) run) :
    ∃ run', run.enqueueIfReady x = .ok run' ∧
      SegmentInv groups past segment maxConcurrency P owed hidden run' := by
  obtain ⟨hlt, hns⟩ := h.hidden_fresh x List.mem_cons_self
  obtain ⟨hxh, hnodup⟩ := List.nodup_cons.mp h.hidden_nodup
  have hfresh : ∀ i ∈ hidden, i < segment.length ∧ i ∉ P.started :=
    fun i hi => h.hidden_fresh i (List.mem_cons_of_mem x hi)
  obtain ⟨node, hnode, hn⟩ := h.nodes x _ (List.getElem?_eq_getElem hlt)
  have hrem : node.remainingPredecessors = P.waiting x := by rw [hn.remaining, if_neg hx]; rfl
  have hgroup : node.group = some (segment.get ⟨x, hlt⟩) := by rw [hn.group, if_neg hns]; rfl
  unfold SegmentRun.enqueueIfReady
  simp only [hnode, hgroup, hrem]
  by_cases hw : P.waiting x = 0
  · have hen : P.Enabled x := ⟨hlt, hns, Progress.waiting_eq_zero.mp hw⟩
    have hperm := (List.perm_orderedInsert readyLe
      ((segment.get ⟨x, hlt⟩).blockHeight, x) run.ready).map Prod.snd
    rw [List.map_cons] at hperm
    refine ⟨_, if_pos hw, { h with
      hidden_nodup := hnodup
      hidden_fresh := hfresh
      ready_nodup := ?_
      mem_ready := ?_ }⟩
    · refine hperm.nodup_iff.mpr (List.nodup_cons.mpr ⟨?_, h.ready_nodup⟩)
      intro hmem
      exact ((h.mem_ready x).mp hmem).2 List.mem_cons_self
    · intro i
      rw [hperm.mem_iff, List.mem_cons, h.mem_ready, List.mem_cons]
      constructor
      · rintro (rfl | ⟨he, hi⟩)
        · exact ⟨hen, hxh⟩
        · exact ⟨he, fun hmem => hi (.inr hmem)⟩
      · rintro ⟨he, hi⟩
        by_cases hix : i = x
        · exact .inl hix
        · exact .inr ⟨he, fun hmem => hmem.elim hix hi⟩
  · refine ⟨_, if_neg hw, { h with
      hidden_nodup := hnodup
      hidden_fresh := hfresh
      mem_ready := ?_ }⟩
    intro i
    rw [h.mem_ready, List.mem_cons]
    constructor
    · rintro ⟨he, hi⟩
      exact ⟨he, fun hmem => hi (.inr hmem)⟩
    · rintro ⟨he, hi⟩
      refine ⟨he, ?_⟩
      rintro (rfl | hmem)
      · exact hw (Progress.waiting_eq_zero.mpr he.2.2)
      · exact hi hmem

/-- One successor of the completed node. -/
theorem release_inv {x : Nat} {rest : List Nat}
    (h : SegmentInv groups past segment maxConcurrency P (x :: rest) (x :: rest) run) :
    ∃ run', run.release x = .ok run' ∧
      SegmentInv groups past segment maxConcurrency P rest rest run' := by
  obtain ⟨hlt, -⟩ := h.hidden_fresh x List.mem_cons_self
  obtain ⟨hxr, -⟩ := List.nodup_cons.mp h.hidden_nodup
  obtain ⟨node, hnode, hn⟩ := h.nodes x _ (List.getElem?_eq_getElem hlt)
  have hrem : node.remainingPredecessors = P.waiting x + 1 := by
    rw [hn.remaining, if_pos List.mem_cons_self]
  unfold SegmentRun.release
  simp only [hnode, hrem, Nat.add_one_ne_zero, if_false, Nat.add_sub_cancel]
  refine enqueueIfReady_inv hxr { h with length := ?_, nodes := ?_ }
  · rw [List.length_set, h.length]
  · refine nodes_set h.nodes ?_ ?_
    · intro g hg
      rw [List.getElem?_eq_getElem hlt, Option.some.injEq] at hg
      subst hg
      exact { hn with remaining := by rw [if_neg hxr]; rfl }
    · rintro i g node' - hix hn'
      refine { hn' with remaining := ?_ }
      rw [hn'.remaining]
      simp [hix]

/-- Starting the submission of the node popped from the heap. -/
theorem launch_inv (hpos : Position groups past segment later)
    (hx : ∀ g ∈ segment, g.profile.exclusive = false)
    (h : SegmentInv groups past segment maxConcurrency P [] [] run) {height i : Nat}
    {ready : List (Nat × Nat)} (hr : run.ready = (height, i) :: ready)
    (hfree : run.active.length < maxConcurrency) :
    ∃ run' P', run.launch i ready = .ok run' ∧ run'.ready = ready ∧ P'.done = P.done ∧
      SegmentInv groups past segment maxConcurrency P' [] [] run' := by
  have hnd := h.ready_nodup
  rw [hr, List.map_cons, List.nodup_cons] at hnd
  have hen : P.Enabled i := ((h.mem_ready i).mp (by rw [hr]; exact List.mem_cons_self)).1
  obtain ⟨hlt, hns, -⟩ := id hen
  have hseg : segment[i]? = some (segment.get ⟨i, hlt⟩) := List.getElem?_eq_getElem hlt
  obtain ⟨node, hnode, hn⟩ := h.nodes i _ hseg
  have hgroup : node.group = some (segment.get ⟨i, hlt⟩) := by rw [hn.group, if_neg hns]
  unfold SegmentRun.launch
  simp only [hnode, hgroup]
  have hnotdone : i ∉ P.done := fun hd => hns (P.done_started hd)
  have hcard : (insert i P.started).card = P.started.card + 1 := Finset.card_insert_of_notMem hns
  have hlen := h.active_length
  have hready : ∀ k, k ∈ ready.map Prod.snd ↔ (P.start i hen).Enabled k ∧ k ∉ [] := by
    intro k
    have hk := h.mem_ready k
    rw [hr, List.map_cons, List.mem_cons] at hk
    rw [Progress.enabled_start]
    constructor
    · intro hmem
      refine ⟨⟨(hk.mp (.inr hmem)).1, ?_⟩, List.not_mem_nil⟩
      rintro rfl
      exact hnd.1 hmem
    · rintro ⟨⟨he, hki⟩, -⟩
      exact (hk.mpr ⟨he, List.not_mem_nil⟩).resolve_left hki
  have hactive : ∀ k g, (k, g) ∈ run.active ++ [(i, segment.get ⟨i, hlt⟩)] ↔
      k ∈ (P.start i hen).started ∧ k ∉ (P.start i hen).done ∧ segment[k]? = some g := by
    intro k g
    rw [List.mem_append, List.mem_singleton, h.mem_active, Progress.started_start,
      Progress.done_start, Finset.mem_insert, Prod.mk.injEq]
    constructor
    · rintro (⟨hs, hd, hg⟩ | ⟨rfl, rfl⟩)
      · exact ⟨.inr hs, hd, hg⟩
      · exact ⟨.inl rfl, hnotdone, hseg⟩
    · rintro ⟨rfl | hs, hd, hg⟩
      · rw [hseg, Option.some.injEq] at hg
        exact .inr ⟨rfl, hg.symm⟩
      · exact .inl ⟨hs, hd, hg⟩
  refine ⟨_, P.start i hen, rfl, rfl, rfl, ?_⟩
  exact
    { length := by rw [List.length_set, h.length]
      nodes := by
        refine nodes_set h.nodes ?_ ?_
        · intro g hg
          rw [hseg, Option.some.injEq] at hg
          subst hg
          exact { hn with
            group := by rw [Progress.started_start, if_pos (Finset.mem_insert_self _ _)] }
        · rintro k g node' - hki hn'
          refine { hn' with group := ?_ }
          rw [hn'.group, Progress.started_start]
          simp [hki]
      hidden_nodup := List.nodup_nil
      hidden_fresh := fun k hk => absurd hk List.not_mem_nil
      ready_nodup := hnd.2
      mem_ready := hready
      active_nodup := by
        refine h.active_nodup.append (List.nodup_singleton _) ?_
        intro p hp hp'
        rw [List.mem_singleton.mp hp', h.mem_active] at hp
        exact hns hp.1
      mem_active := hactive
      active_length := by
        rw [List.length_append, List.length_singleton, Progress.done_start,
          Progress.started_start, hcard]
        omega
      active_le := by
        rw [List.length_append, List.length_singleton]
        exact hfree
      completed := h.completed
      recorded := h.recorded.start hpos hseg hns (by omega)
        (fun g' hmem hlow hc => conflicts_done hpos hx hen hseg hmem hlow hc) }

/-- The segment cannot start anything more now. -/
def Saturated (maxConcurrency : Nat) (run : SegmentRun ε) : Prop :=
  maxConcurrency ≤ run.active.length ∨ run.ready = []

/-- Filling the free slots. -/
theorem fill_inv (hpos : Position groups past segment later)
    (hx : ∀ g ∈ segment, g.profile.exclusive = false) :
    ∀ (ready : List (Nat × Nat)) {P : Progress (dag segment)} {run : SegmentRun ε},
      run.ready = ready → SegmentInv groups past segment maxConcurrency P [] [] run →
      ∃ run' P', run.fill maxConcurrency ready = .ok run' ∧
        P'.done = P.done ∧ Saturated maxConcurrency run' ∧
        SegmentInv groups past segment maxConcurrency P' [] [] run'
  | [], P, run, hr, h => ⟨run, P, rfl, rfl, .inr hr, h⟩
  | (height, i) :: ready, P, run, hr, h => by
    unfold SegmentRun.fill
    split
    · rename_i hfree
      obtain ⟨run₁, P₁, hl, hr₁, hd₁, h₁⟩ := launch_inv hpos hx h hr hfree
      obtain ⟨run', P', hf, hd', hs', h'⟩ := fill_inv hpos hx ready hr₁ h₁
      refine ⟨run', P', ?_, hd'.trans hd₁, hs', h'⟩
      rw [hl]
      exact hf
    · rename_i hfull
      exact ⟨run, P, rfl, rfl, .inl (Nat.le_of_not_lt hfull), h⟩

/-- The segment before anything has been looked at. -/
theorem segmentInv_new {events : List Event}
    (hrec : Recorded groups past segment maxConcurrency ∅ ∅ events) :
    SegmentInv groups past segment maxConcurrency (Progress.new (dag segment)) []
      (List.range segment.length)
      (⟨buildNormalNodes segment, [], [], [], 0, events⟩ : SegmentRun ε) where
  length := length_buildNormalNodes segment
  nodes := by
    intro i g hg
    obtain ⟨node, hnode, hn⟩ := built_nodes segment hg
    refine ⟨node, hnode, ⟨?_, ?_, hn.nodup, fun _ => hn.successors⟩⟩
    · rw [hn.group, Progress.started_new, if_neg (Finset.notMem_empty i)]
    · rw [hn.remaining, Progress.waiting_new, if_neg List.not_mem_nil]
      rfl
  hidden_nodup := List.nodup_range
  hidden_fresh := fun i hi => ⟨List.mem_range.mp hi, Finset.notMem_empty i⟩
  ready_nodup := List.nodup_nil
  mem_ready := by
    intro i
    constructor
    · intro hmem
      cases hmem
    · rintro ⟨he, hi⟩
      exact absurd (List.mem_range.mpr he.1) hi
  active_nodup := List.nodup_nil
  mem_active := by
    intro i g
    simp
  active_length := rfl
  active_le := Nat.zero_le _
  completed := rfl
  recorded := hrec

/-- The segment up to its first await. -/
theorem start_inv (hpos : Position groups past segment later)
    (hx : ∀ g ∈ segment, g.profile.exclusive = false) {events : List Event}
    (hrec : Recorded groups past segment maxConcurrency ∅ ∅ events) :
    ∃ (run : SegmentRun ε) (P : Progress (dag segment)),
      SegmentRun.start maxConcurrency (buildNormalNodes segment) events = .ok run ∧
        P.done = ∅ ∧ Saturated maxConcurrency run ∧
        SegmentInv groups past segment maxConcurrency P [] [] run := by
  obtain ⟨run₁, hloop, h₁⟩ := foldlM_total (f := SegmentRun.enqueueIfReady)
    (fun hidden (run : SegmentRun ε) => SegmentInv groups past segment maxConcurrency
      (Progress.new (dag segment)) [] hidden run)
    (fun x rest run h => enqueueIfReady_inv List.not_mem_nil h) (segmentInv_new hrec)
  obtain ⟨run, P, hf, hd, hs, h⟩ := fill_inv hpos hx run₁.ready rfl h₁
  refine ⟨run, P, ?_, hd, hs, h⟩
  unfold SegmentRun.start
  rw [length_buildNormalNodes, hloop]
  exact hf

/-- Without duplicates, erasing a position removes exactly the element there. -/
theorem mem_eraseIdx_of_nodup {α : Type} {l : List α} {k : Nat} {y : α} (hl : l.Nodup)
    (hk : l[k]? = some y) (x : α) : x ∈ l.eraseIdx k ↔ x ∈ l ∧ x ≠ y := by
  rw [List.mem_eraseIdx_iff_getElem?]
  constructor
  · rintro ⟨k', hne, hx⟩
    refine ⟨List.mem_of_getElem? hx, ?_⟩
    rintro rfl
    have hlt := (List.getElem?_eq_some_iff.mp hx).1
    exact hne ((List.getElem?_inj hlt hl).mp (hx.trans hk.symm))
  · rintro ⟨hx, hne⟩
    obtain ⟨k', hk'⟩ := List.mem_iff_getElem?.mp hx
    refine ⟨k', ?_, hk'⟩
    rintro rfl
    exact hne (Option.some.inj (hk'.symm.trans hk))

/-- The completed node is taken out; its successors are owed. -/
theorem segmentInv_finished (hpos : Position groups past segment later)
    (h : SegmentInv groups past segment maxConcurrency P [] [] run) {k i : Nat} {g : SubmitGroup}
    (hk : run.active[k]? = some (i, g)) (errors : List (Nat × ε)) :
    ∃ node, run.nodes[i]? = some node ∧ ∃ hs : i ∈ P.started, i ∉ P.done ∧
      SegmentInv groups past segment maxConcurrency (P.finish i hs) node.successors
        node.successors
        { run with
          nodes := run.nodes.set i { node with successors := [] }
          active := run.active.eraseIdx k
          errors := errors
          completed := run.completed + 1
          events := run.events ++ [.finished g] } := by
  obtain ⟨hs, hd, hg⟩ := (h.mem_active i g).mp (List.mem_of_getElem? hk)
  obtain ⟨node, hnode, hn⟩ := h.nodes i g hg
  have hsucc := hn.successors hd
  -- a successor of a task that was not done has not been started
  have hfresh : ∀ x ∈ node.successors, x < segment.length ∧ x ∉ P.started := by
    intro x hx
    obtain ⟨hlt, hdep⟩ := (hsucc x).mp hx
    exact ⟨hlt, fun hst => hd (P.pred_done hst hdep)⟩
  have howed : ∀ x, x < segment.length → P.waiting x =
      (P.finish i hs).waiting x + (if x ∈ node.successors then 1 else 0) := by
    intro x hx
    have hw := Progress.waiting_finish hs hd x
    rw [← hw]
    by_cases hdep : i ∈ (dag segment).pred x
    · rw [if_pos ((hsucc x).mpr ⟨hx, hdep⟩), if_pos hdep]
    · rw [if_neg (fun hmem => hdep ((hsucc x).mp hmem).2), if_neg hdep]
  have hklt := (List.getElem?_eq_some_iff.mp hk).1
  have hcard : (insert i P.done).card = P.done.card + 1 := Finset.card_insert_of_notMem hd
  have hlen := h.active_length
  have herase : (run.active.eraseIdx k).length + 1 = run.active.length := by
    rw [List.length_eraseIdx_of_lt hklt]
    omega
  have hready : ∀ x, x ∈ run.ready.map Prod.snd ↔
      (P.finish i hs).Enabled x ∧ x ∉ node.successors := by
    intro x
    rw [h.mem_ready, Progress.enabled_finish hs hd]
    constructor
    · rintro ⟨⟨he, hdep⟩, -⟩
      exact ⟨he, fun hmem => hdep ((hsucc x).mp hmem).2⟩
    · rintro ⟨he, hnot⟩
      exact ⟨⟨he, fun hdep => hnot ((hsucc x).mpr ⟨he.1, hdep⟩)⟩, List.not_mem_nil⟩
  have hactive : ∀ x g', (x, g') ∈ run.active.eraseIdx k ↔
      x ∈ (P.finish i hs).started ∧ x ∉ (P.finish i hs).done ∧ segment[x]? = some g' := by
    intro x g'
    rw [mem_eraseIdx_of_nodup h.active_nodup hk, h.mem_active, Progress.started_finish,
      Progress.done_finish, Finset.mem_insert, not_or, ne_eq, Prod.mk.injEq]
    constructor
    · rintro ⟨⟨hxs, hxd, hxg⟩, hne⟩
      refine ⟨hxs, ⟨?_, hxd⟩, hxg⟩
      rintro rfl
      rw [hg, Option.some.injEq] at hxg
      exact hne ⟨rfl, hxg.symm⟩
    · rintro ⟨hxs, ⟨hxi, hxd⟩, hxg⟩
      exact ⟨⟨hxs, hxd, hxg⟩, fun heq => hxi heq.1⟩
  refine ⟨node, hnode, hs, hd, ?_⟩
  exact
    { length := by rw [List.length_set, h.length]
      nodes := by
        refine nodes_set h.nodes ?_ ?_
        · intro g' hg'
          refine ⟨?_, ?_, List.nodup_nil, fun hnd => absurd (Finset.mem_insert_self _ _) hnd⟩
          · rw [Progress.started_finish, if_pos hs]
            simpa [if_pos hs] using hn.group
          · rw [hn.remaining, if_neg List.not_mem_nil, Nat.add_zero]
            exact howed i (List.getElem?_eq_some_iff.mp hg').1
        · intro x g' node' hxg hxi hn'
          refine ⟨hn'.group, ?_, hn'.nodup, ?_⟩
          · rw [hn'.remaining, if_neg List.not_mem_nil, Nat.add_zero]
            exact howed x (List.getElem?_eq_some_iff.mp hxg).1
          · intro hxd
            rw [Progress.done_finish, Finset.mem_insert, not_or] at hxd
            exact hn'.successors hxd.2
      hidden_nodup := hn.nodup
      hidden_fresh := hfresh
      ready_nodup := h.ready_nodup
      mem_ready := hready
      active_nodup := h.active_nodup.eraseIdx k
      mem_active := hactive
      active_length := by
        rw [Progress.started_finish, Progress.done_finish, hcard]
        dsimp only
        omega
      active_le := by
        have hle := h.active_le
        dsimp only
        omega
      completed := by rw [Progress.done_finish, hcard, ← h.completed]
      recorded := h.recorded.finish hpos hg hd }

/-- One iteration of the loop of `run_normal_segment`. -/
theorem complete_inv (hpos : Position groups past segment later)
    (hx : ∀ g ∈ segment, g.profile.exclusive = false)
    (h : SegmentInv groups past segment maxConcurrency P [] [] run) {k i : Nat} {g : SubmitGroup}
    (hk : run.active[k]? = some (i, g)) (result : Except ε Unit) :
    ∃ run' P', run.complete maxConcurrency k i g result = .ok run' ∧
      P'.done.card = P.done.card + 1 ∧ Saturated maxConcurrency run' ∧
      SegmentInv groups past segment maxConcurrency P' [] [] run' := by
  obtain ⟨node, hnode, hs, hd, h₁⟩ := segmentInv_finished hpos h hk
    (recordError run.errors g.blockHeight result)
  obtain ⟨run₂, hloop, h₂⟩ := foldlM_total (f := SegmentRun.release)
    (fun todo (run : SegmentRun ε) => SegmentInv groups past segment maxConcurrency
      (P.finish i hs) todo todo run)
    (fun x rest run h => release_inv h) h₁
  obtain ⟨run', P', hf, hd', hs', h'⟩ := fill_inv hpos hx run₂.ready rfl h₂
  refine ⟨run', P', ?_, ?_, hs', h'⟩
  · unfold SegmentRun.complete
    simp only [hnode]
    rw [hloop]
    exact hf
  · rw [hd', Progress.done_finish, Finset.card_insert_of_notMem hd]

/-- **A segment ends only when all its groups are done.** -/
theorem all_done_of_idle (h : SegmentInv groups past segment maxConcurrency P [] [] run)
    (hs : Saturated maxConcurrency run) (hmax : 1 ≤ maxConcurrency) (hidle : run.active = []) :
    P.started = Finset.range segment.length ∧ P.done = Finset.range segment.length := by
  have hlen := h.active_length
  rw [hidle, List.length_nil, Nat.zero_add] at hlen
  have heq : P.done = P.started :=
    Finset.eq_of_subset_of_card_le (fun _ hi => P.done_started hi) (by omega)
  have hready : run.ready = [] := by
    rcases hs with hs | hs
    · rw [hidle, List.length_nil] at hs
      omega
    · exact hs
  have hnone : ∀ k, ¬ P.Enabled k := by
    intro k hk
    have hmem := (h.mem_ready k).mpr ⟨hk, List.not_mem_nil⟩
    rw [hready] at hmem
    cases hmem
  have hdone : P.done = Finset.range segment.length :=
    Progress.all_done (by rw [heq]) hnone
  exact ⟨heq ▸ hdone, hdone⟩

/-! ## The batch -/

/-- Where a batch waits after `n` completions. -/
def BatchInv (groups : List SubmitGroup) (maxConcurrency n : Nat) : Batch ε → Prop
  | .normal run rest _ => ∃ (past segment later : List SubmitGroup) (P : Progress (dag segment)),
      Position groups past segment later ∧ Planned later rest ∧
      (∀ g ∈ segment, g.profile.exclusive = false) ∧
      SegmentInv groups past segment maxConcurrency P [] [] run ∧
      Saturated maxConcurrency run ∧ run.active ≠ [] ∧ n = past.length + P.done.card
  | .exclusive g rest _ events => ∃ past later, Position groups past [g] later ∧
      Planned later rest ∧ Recorded groups past [g] maxConcurrency {0} ∅ events ∧
      n = past.length
  | .finished _ events => Recorded groups groups [] maxConcurrency ∅ ∅ events ∧
      n = groups.length

/-- The groups before `past` are done and none of the others has been started. -/
def Passed (groups past : List SubmitGroup) (maxConcurrency : Nat) (events : List Event) : Prop :=
  ∀ segment, Recorded groups past segment maxConcurrency ∅ ∅ events

/-- At the end of a segment, or at its next await. -/
theorem settle_inv {rest : List ExecutionSegment} (hmax : 1 ≤ maxConcurrency)
    (hpos : Position groups past segment later) (hplan : Planned later rest)
    (hx : ∀ g ∈ segment, g.profile.exclusive = false)
    (h : SegmentInv groups past segment maxConcurrency P [] [] run)
    (hs : Saturated maxConcurrency run) (errors : List (Nat × ε))
    {next : List (Nat × ε) → List Event → Except Panic (Batch ε)}
    (hnext : ∀ errors events, Passed groups (past ++ segment) maxConcurrency events →
      ∃ b, next errors events = .ok b ∧
        BatchInv groups maxConcurrency (past ++ segment).length b) :
    ∃ b, Batch.settle run rest errors next = .ok b ∧
      BatchInv groups maxConcurrency (past.length + P.done.card) b := by
  unfold Batch.settle
  by_cases hidle : run.active = []
  · obtain ⟨hst, hd⟩ := all_done_of_idle h hs hmax hidle
    have hcard : P.done.card = segment.length := by rw [hd, Finset.card_range]
    have hcomp : run.completed = run.nodes.length := by rw [h.completed, h.length, hcard]
    have hrec := h.recorded
    rw [hst, hd] at hrec
    obtain ⟨b, hb, hinv⟩ := hnext (errors ++ run.errors) run.events (fun s => hrec.pass s)
    rw [if_pos (List.isEmpty_iff.mpr hidle), if_pos hcomp, hcard, ← List.length_append]
    exact ⟨b, hb, hinv⟩
  · rw [if_neg (fun hemp => hidle (List.isEmpty_iff.mp hemp))]
    exact ⟨_, rfl, past, segment, later, P, hpos, hplan, hx, h, hs, hidle, rfl⟩

/-- Entering the rest of the schedule. -/
theorem enter_inv {rest : List ExecutionSegment} (hmax : 1 ≤ maxConcurrency)
    (hinc : groups.Pairwise (fun a b => a.blockHeight < b.blockHeight))
    (hplan : Planned later rest) :
    ∀ (past : List SubmitGroup) (errors : List (Nat × ε)) {events : List Event},
      groups = past ++ later → Passed groups past maxConcurrency events →
        ∃ b, Batch.enter maxConcurrency rest errors events = .ok b ∧
          BatchInv groups maxConcurrency past.length b := by
  induction hplan with
  | nil =>
    intro past errors events hsplit hp
    rw [List.append_nil] at hsplit
    subst hsplit
    exact ⟨_, rfl, hp [], rfl⟩
  | @exclusive group later rest hrest ih =>
    intro past errors events hsplit hp
    have hpos : Position groups past [group] later := ⟨hsplit, hinc⟩
    refine ⟨_, rfl, past, later, hpos, hrest, ?_, rfl⟩
    refine (hp [group]).start hpos rfl (Finset.notMem_empty 0) ?_ ?_
    · rw [Finset.card_empty]
      omega
    · intro g' hmem hlt _
      rcases hpos.lower (i := 0) rfl hmem hlt with hpast | ⟨j, hj, -⟩
      · exact .inl hpast
      · omega
  | @normal segment later rest hx hrest ih =>
    intro past errors events hsplit hp
    have hpos : Position groups past segment later := ⟨hsplit, hinc⟩
    obtain ⟨run, P, hstart, hd, hs, h⟩ := start_inv (ε := ε) hpos hx (hp segment)
    obtain ⟨b, hb, hinv⟩ := settle_inv hmax hpos hrest hx h hs errors
      (fun errors events hp' => ih _ errors (by rw [hsplit, List.append_assoc]) hp')
    refine ⟨b, ?_, by simpa [hd] using hinv⟩
    unfold Batch.enter
    rw [hstart]
    exact hb

/-- One completion. -/
theorem batch_complete_inv {n : Nat} (hmax : 1 ≤ maxConcurrency)
    (hinc : groups.Pairwise (fun a b => a.blockHeight < b.blockHeight)) {b : Batch ε}
    (h : BatchInv groups maxConcurrency n b) {k : Nat} (hk : k < b.inFlight.length)
    (result : Except ε Unit) :
    ∃ b', b.complete maxConcurrency k result = .ok b' ∧
      BatchInv groups maxConcurrency (n + 1) b' := by
  cases b with
  | normal run rest errors =>
    obtain ⟨past, segment, later, P, hpos, hplan, hx, hseg, hs, -, hn⟩ := h
    have hklt : k < run.active.length := by simpa [Batch.inFlight] using hk
    obtain ⟨⟨i, g⟩, hget⟩ : ∃ p, run.active[k]? = some p := ⟨_, List.getElem?_eq_getElem hklt⟩
    obtain ⟨run', P', hc, hcard, hs', h'⟩ := complete_inv hpos hx hseg hget result
    obtain ⟨b', hb', hinv⟩ := settle_inv hmax hpos hplan hx h' hs' errors
      (fun errors events hp => enter_inv hmax hinc hplan _ errors
        (by rw [hpos.split, List.append_assoc]) hp)
    refine ⟨b', ?_, ?_⟩
    · unfold Batch.complete
      simp only [hget]
      rw [hc]
      exact hb'
    · rw [hn, Nat.add_assoc, ← hcard]
      exact hinv
  | exclusive g rest errors events =>
    obtain ⟨past, later, hpos, hplan, hrec, hn⟩ := h
    have hfin := hrec.finish hpos rfl (Finset.notMem_empty 0)
    have hp : Passed groups (past ++ [g]) maxConcurrency (events ++ [.finished g]) :=
      fun s => hfin.pass s
    obtain ⟨b', hb', hinv⟩ := enter_inv hmax hinc hplan _
      (recordError errors g.blockHeight result) (by rw [hpos.split, List.append_assoc]) hp
    refine ⟨b', hb', ?_⟩
    rw [hn]
    simpa using hinv
  | finished errors events =>
    exact absurd hk (Nat.not_lt_zero k)

/-- **Every outcome of a batch** satisfies the invariant; none is a panic. -/
theorem reaches_inv {n : Nat} (hmax : 1 ≤ maxConcurrency)
    (hinc : groups.Pairwise (fun a b => a.blockHeight < b.blockHeight))
    {out : Except Panic (Batch ε)} (h : Reaches maxConcurrency groups n out) :
    ∃ b, out = .ok b ∧ BatchInv groups maxConcurrency n b := by
  induction h with
  | start =>
    refine enter_inv hmax hinc (planned_buildSubmitSchedule groups) [] [] rfl ?_
    intro segment
    exact ⟨fun g => by simp [startsOf], fun g => by simp [finishesOf], rfl, rfl, disciplined_nil⟩
  | complete result _ hk ih =>
    obtain ⟨b, hb, hinv⟩ := ih
    cases hb
    exact batch_complete_inv hmax hinc hinv hk result

/-! ## Whole runs -/

theorem mem_finishesOf {g : SubmitGroup} {events : List Event} :
    g ∈ finishesOf events ↔ .finished g ∈ events := by
  unfold finishesOf
  rw [List.mem_filterMap]
  constructor
  · rintro ⟨e, he, heq⟩
    cases e with
    | started g' => cases heq
    | finished g' =>
      cases heq
      exact he
  · exact fun h => ⟨_, h, rfl⟩

/-- The events of a batch, as its counts. -/
theorem recorded_counts {started done : Finset Nat} {events : List Event}
    (hpos : Position groups past segment later)
    (h : Recorded groups past segment maxConcurrency started done events) {n : Nat} (flight : Nat)
    (hn : n = past.length + done.card) (hf : flight + done.card = started.card) :
    (∀ g ∈ startsOf events, g ∈ groups) ∧ n = (finishesOf events).length ∧
      n + flight = (startsOf events).length := by
  refine ⟨?_, by rw [h.finishes_length, hn], by rw [h.starts_length]; omega⟩
  intro g hg
  rw [hpos.split]
  rcases (h.mem_starts g).mp hg with hg | ⟨i, -, hg⟩
  · exact List.mem_append_left _ hg
  · exact List.mem_append_right _ (List.mem_append_left _ (List.mem_of_getElem? hg))

/-- A batch that waits has something in flight, and the counts of its events are in step. -/
theorem batchInv_counts {n : Nat} {b : Batch ε}
    (hinc : groups.Pairwise (fun a b => a.blockHeight < b.blockHeight))
    (h : BatchInv groups maxConcurrency n b) :
    Disciplined groups maxConcurrency b.events ∧ (∀ g ∈ startsOf b.events, g ∈ groups) ∧
      n = (finishesOf b.events).length ∧
      n + b.inFlight.length = (startsOf b.events).length ∧
      (b.inFlight = [] → (∀ g ∈ groups, g ∈ finishesOf b.events ∧ g ∈ startsOf b.events)) := by
  cases b with
  | normal run rest errors =>
    obtain ⟨past, segment, later, P, hpos, -, -, hseg, -, hne, hn⟩ := h
    obtain ⟨hsub, hfin, hst⟩ := recorded_counts hpos hseg.recorded _ hn hseg.active_length
    refine ⟨hseg.recorded.disciplined, hsub, hfin, ?_, ?_⟩
    · show n + (run.active.map Prod.snd).length = (startsOf run.events).length
      rw [List.length_map]
      exact hst
    · intro hempty
      exact absurd (List.map_eq_nil_iff.mp hempty) hne
  | exclusive g rest errors events =>
    obtain ⟨past, later, hpos, -, hrec, hn⟩ := h
    obtain ⟨hsub, hfin, hst⟩ := recorded_counts hpos hrec 1 hn rfl
    refine ⟨hrec.disciplined, hsub, hfin, hst, ?_⟩
    intro hempty
    cases hempty
  | finished errors events =>
    obtain ⟨hrec, hn⟩ := h
    have hpos : Position groups groups [] [] := ⟨by simp, hinc⟩
    obtain ⟨hsub, hfin, hst⟩ := recorded_counts hpos hrec 0 hn rfl
    refine ⟨hrec.disciplined, hsub, hfin, hst, fun _ g hg => ⟨?_, ?_⟩⟩
    · exact (hrec.mem_finishes g).mpr (.inl hg)
    · exact (hrec.mem_starts g).mpr (.inl hg)

/-- **Submit scheduling**, for every batch with increasing heights, every bound and every order
    of completions, successful or not.  No outcome is a panic: no `expect` meets an absent group,
    no counter underflows, and every segment ends with all its nodes completed.  No group is
    started twice; the requests in flight stay within the bound at every moment; of two groups
    that conflict the lower one has completed when the other starts.  A run has at most as many
    completions as there are groups, and when nothing is in flight every group has been started
    and has completed, exactly once. -/
theorem submit_batch_ordered {ε : Type} (maxConcurrency : Nat) (hmax : 1 ≤ maxConcurrency)
    (groups : List SubmitGroup)
    (hinc : groups.Pairwise (fun a b => a.blockHeight < b.blockHeight)) (n : Nat)
    (out : Except Panic (Batch ε)) (h : Reaches maxConcurrency groups n out) :
    ∃ b, out = .ok b ∧
      (startsOf b.events).Nodup ∧ (∀ g ∈ startsOf b.events, g ∈ groups) ∧
      n = (finishesOf b.events).length ∧ n + b.inFlight.length = (startsOf b.events).length ∧
      (startsOf b.events).length ≤ groups.length ∧
      (b.inFlight = [] →
        (startsOf b.events).Perm groups ∧ (finishesOf b.events).Perm groups ∧
          n = groups.length ∧ ∃ errors, b = .finished errors b.events) ∧
      (∀ pre, pre <+: b.events →
        (startsOf pre).length ≤ (finishesOf pre).length + maxConcurrency) ∧
      (∀ pre g post, b.events = pre ++ .started g :: post → ∀ g' ∈ groups,
        g'.blockHeight < g.blockHeight → Conflicts g' g → .finished g' ∈ pre) := by
  obtain ⟨b, hb, hinv⟩ := reaches_inv hmax hinc h
  obtain ⟨hdisc, hsub, hfin, hst, hall⟩ := batchInv_counts hinc hinv
  have hnodup : groups.Nodup := hinc.imp (fun hlt heq => by rw [heq] at hlt; omega)
  have hle : (startsOf b.events).length ≤ groups.length :=
    (hdisc.starts_nodup.subperm hsub).length_le
  refine ⟨b, hb, hdisc.starts_nodup, hsub, hfin, hst, hle, ?_, hdisc.bounded, ?_⟩
  · intro hempty
    have hstarts : (startsOf b.events).Perm groups :=
      (List.perm_ext_iff_of_nodup hdisc.starts_nodup hnodup).mpr
        (fun g => ⟨hsub g, fun hg => (hall hempty g hg).2⟩)
    -- every group has completed, and there are as many completions as groups
    have hlen := hstarts.length_eq
    rw [hempty, List.length_nil, Nat.add_zero] at hst
    have hfinishes : (finishesOf b.events).Perm groups := by
      have hsp : groups.Subperm (finishesOf b.events) :=
        hnodup.subperm (fun g hg => (hall hempty g hg).1)
      exact (hsp.perm_of_length_le (by omega)).symm
    refine ⟨hstarts, hfinishes, by omega, ?_⟩
    cases b with
    | normal run rest errors =>
      obtain ⟨past, segment, later, P, -, -, -, -, -, hne, -⟩ := hinv
      exact absurd (List.map_eq_nil_iff.mp hempty) hne
    | exclusive g rest errors events => cases hempty
    | finished errors events => exact ⟨errors, rfl⟩
  · intro pre g post heq g' hmem hlt hc
    refine mem_finishesOf.mp (hdisc.ordered pre g ?_ g' hmem hlt hc)
    exact ⟨post, by rw [heq, List.append_assoc]; rfl⟩

section Pair

/-- A group with the transfer. -/
def nonceGroup (height : Nat) : SubmitGroup := .new height [submittedTransfer]

/-- Two groups that share a nonce key. -/
def noncePair : List SubmitGroup := [nonceGroup 1, nonceGroup 2]

/-- With two slots the second group still waits for the first; a failed request does not stop the
    run. -/
theorem submit_batch_ordered_pair :
    ∃ b : Batch String, Reaches 2 noncePair 2 (.ok b) ∧ (startsOf b.events).Perm noncePair := by
  have hinc : noncePair.Pairwise (fun a b => a.blockHeight < b.blockHeight) := by
    simp [noncePair, nonceGroup, SubmitGroup.new]
  have hall := submit_batch_ordered (ε := String) 2 (by decide) noncePair hinc
  obtain ⟨b₀, h₀, -⟩ := hall 0 _ .start
  have hl₀ : (submitBatch String 2 noncePair).toOption.map (fun b => b.inFlight.length) =
      some 1 := by decide
  have hl₁ : ((submitBatch String 2 noncePair).bind
      (fun b => b.complete 2 0 (.error "timeout"))).toOption.map (fun b => b.inFlight.length) =
      some 1 := by decide
  have hl₂ : (((submitBatch String 2 noncePair).bind
      (fun b => b.complete 2 0 (.error "timeout"))).bind
      (fun b => b.complete 2 0 (.ok ()))).toOption.map (fun b => b.inFlight.length) =
      some 0 := by decide
  rw [h₀] at hl₀ hl₁ hl₂
  have hr₀ : Reaches 2 noncePair 0 (.ok b₀) := h₀ ▸ .start
  have hk₀ : 0 < b₀.inFlight.length := Nat.lt_of_lt_of_eq Nat.zero_lt_one (Option.some.inj hl₀).symm
  obtain ⟨b₁, h₁, -⟩ := hall 1 _ (hr₀.complete (.error "timeout") hk₀)
  change ((b₀.complete 2 0 (.error "timeout")).toOption.map _) = _ at hl₁
  change (((b₀.complete 2 0 (.error "timeout")).bind _).toOption.map _) = _ at hl₂
  rw [h₁] at hl₁ hl₂
  have hr₁ : Reaches 2 noncePair 1 (.ok b₁) := h₁ ▸ hr₀.complete (.error "timeout") hk₀
  have hk₁ : 0 < b₁.inFlight.length := Nat.lt_of_lt_of_eq Nat.zero_lt_one (Option.some.inj hl₁).symm
  obtain ⟨b₂, h₂, -, -, -, -, -, hend, -⟩ := hall 2 _ (hr₁.complete (.ok ()) hk₁)
  change ((b₁.complete 2 0 (.ok ())).toOption.map _) = _ at hl₂
  rw [h₂] at hl₂
  refine ⟨b₂, h₂ ▸ hr₁.complete (.ok ()) hk₁, (hend ?_).1⟩
  exact List.eq_nil_of_length_eq_zero (Option.some.inj hl₂)

end Pair

end XLayerReth.RcsFilter
