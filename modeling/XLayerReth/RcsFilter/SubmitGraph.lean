import XLayerReth.Lib.Dependency
import XLayerReth.RcsFilter.Submit

/-!
# The dependency graph of a segment

`build_normal_nodes` stores only an edge from the last user of each key.  Here the stored nodes
are related to a dependency graph (`Lib.Dag`), and every two groups that share a key are ordered
in it, through the users of the key that lie between them.

* `Uses` — the nonce and quota keys of a profile as one family of keys.
* `dag` — the predecessors of each group, as computed when the group is reached.
* `Planned` — what a schedule is: barriers, and between them the nodes of the groups collected.

Principal results: `built_nodes` (every node carries its group, the number of its predecessors
and exactly its successors), `before_of_shared` and `planned_buildSubmitSchedule`.
-/

set_option autoImplicit false

namespace XLayerReth.RcsFilter

open Lib

/-! ## Keys -/

/-- A reservation key of either kind. -/
abbrev Key := NonceKey ⊕ QuotaKey

/-- The group reserves the key. -/
def GroupConflictProfile.Uses (profile : GroupConflictProfile) : Key → Prop
  | .inl k => k ∈ profile.nonceKeys
  | .inr k => k ∈ profile.quotaKeys

/-- The last user of a key. -/
def NodeBuilder.last (b : NodeBuilder) : Key → Option Nat
  | .inl k => b.lastNonce k
  | .inr k => b.lastQuota k

theorem last_new (key : Key) : NodeBuilder.new.last key = none := by
  cases key <;> rfl

theorem mem_predecessors {b : NodeBuilder} {profile : GroupConflictProfile} {j : Nat} :
    j ∈ b.predecessors profile ↔ ∃ key, profile.Uses key ∧ b.last key = some j := by
  unfold NodeBuilder.predecessors
  rw [Finset.mem_union, Finset.mem_biUnion, Finset.mem_biUnion]
  constructor
  · rintro (⟨k, hk, hj⟩ | ⟨k, hk, hj⟩)
    · exact ⟨.inl k, hk, Option.mem_toFinset.mp hj⟩
    · exact ⟨.inr k, hk, Option.mem_toFinset.mp hj⟩
  · rintro ⟨k | k, hk, hj⟩
    · exact .inl ⟨k, hk, Option.mem_toFinset.mpr hj⟩
    · exact .inr ⟨k, hk, Option.mem_toFinset.mpr hj⟩

/-- After a push the new group is the last user of its own keys. -/
theorem last_push_of_uses {b : NodeBuilder} {group : SubmitGroup} {key : Key}
    (h : group.profile.Uses key) : (b.push group).last key = some b.nodes.length := by
  cases key with
  | inl k => exact if_pos h
  | inr k => exact if_pos h

theorem last_push_of_not_uses {b : NodeBuilder} {group : SubmitGroup} {key : Key}
    (h : ¬ group.profile.Uses key) : (b.push group).last key = b.last key := by
  cases key with
  | inl k => exact if_neg h
  | inr k => exact if_neg h

/-! ## The builder after a list of groups -/

/-- The builder after the groups. -/
def builderAfter (groups : List SubmitGroup) : NodeBuilder :=
  groups.foldl NodeBuilder.push NodeBuilder.new

theorem builderAfter_concat (groups : List SubmitGroup) (group : SubmitGroup) :
    builderAfter (groups ++ [group]) = (builderAfter groups).push group := by
  unfold builderAfter
  rw [List.foldl_append]
  rfl

theorem length_push (b : NodeBuilder) (group : SubmitGroup) :
    (b.push group).nodes.length = b.nodes.length + 1 := by
  simp [NodeBuilder.push]

theorem length_builderAfter (groups : List SubmitGroup) :
    (builderAfter groups).nodes.length = groups.length := by
  induction groups using List.reverseRecOn with
  | nil => rfl
  | append_singleton groups group ih =>
    rw [builderAfter_concat, length_push, ih, List.length_append]
    rfl

/-- The last user of a key is a group that uses it. -/
theorem last_sound {groups : List SubmitGroup} {key : Key} {l : Nat}
    (h : (builderAfter groups).last key = some l) :
    ∃ g, groups[l]? = some g ∧ g.profile.Uses key := by
  induction groups using List.reverseRecOn with
  | nil => rw [show builderAfter [] = NodeBuilder.new from rfl, last_new] at h; cases h
  | append_singleton groups group ih =>
    rw [builderAfter_concat] at h
    by_cases hu : group.profile.Uses key
    · rw [last_push_of_uses hu, length_builderAfter, Option.some.injEq] at h
      subst h
      exact ⟨group, by simp, hu⟩
    · rw [last_push_of_not_uses hu] at h
      obtain ⟨g, hg, huses⟩ := ih h
      have hlt := (List.getElem?_eq_some_iff.mp hg).1
      exact ⟨g, by rw [List.getElem?_append_left hlt, hg], huses⟩

/-- A key that has been used has a last user, no earlier than any user. -/
theorem last_complete {groups : List SubmitGroup} {key : Key} {j : Nat} {g : SubmitGroup}
    (hg : groups[j]? = some g) (hu : g.profile.Uses key) :
    ∃ l, (builderAfter groups).last key = some l ∧ j ≤ l := by
  induction groups using List.reverseRecOn with
  | nil => cases hg
  | append_singleton groups group ih =>
    rw [builderAfter_concat]
    by_cases hnew : group.profile.Uses key
    · rw [last_push_of_uses hnew, length_builderAfter]
      have hlt := (List.getElem?_eq_some_iff.mp hg).1
      rw [List.length_append, List.length_singleton] at hlt
      exact ⟨groups.length, rfl, by omega⟩
    · rw [last_push_of_not_uses hnew]
      rcases Nat.lt_or_ge j groups.length with hlt | hge
      · rw [List.getElem?_append_left hlt] at hg
        exact ih hg
      · rw [List.getElem?_append_right hge, List.getElem?_singleton] at hg
        split at hg
        · cases hg
          exact absurd hu hnew
        · cases hg

/-! ## The graph -/

/-- The predecessors of each group. -/
def dependencies (groups : List SubmitGroup) (i : Nat) : Finset Nat :=
  match groups[i]? with
  | none => ∅
  | some group => (builderAfter (groups.take i)).predecessors group.profile

theorem dependencies_eq {groups : List SubmitGroup} {i : Nat} {g : SubmitGroup}
    (h : groups[i]? = some g) :
    dependencies groups i = (builderAfter (groups.take i)).predecessors g.profile := by
  unfold dependencies
  rw [h]

theorem dependencies_lt {groups : List SubmitGroup} {i j : Nat}
    (h : j ∈ dependencies groups i) : j < i := by
  unfold dependencies at h
  split at h
  · exact absurd h (Finset.notMem_empty j)
  · obtain ⟨key, -, hlast⟩ := mem_predecessors.mp h
    obtain ⟨g, hg, -⟩ := last_sound hlast
    have hlt := (List.getElem?_eq_some_iff.mp hg).1
    rw [List.length_take] at hlt
    omega

/-- The dependency graph of a segment. -/
def dag (groups : List SubmitGroup) : Dag where
  size := groups.length
  pred := dependencies groups
  pred_lt := dependencies_lt

/-- **Only the last user is linked, yet all users of a key are ordered**: the others lie behind
    it. -/
theorem before_of_shared {groups : List SubmitGroup} {key : Key} {j : Nat} {g : SubmitGroup}
    (hg : groups[j]? = some g) (hu : g.profile.Uses key) :
    ∀ (i : Nat) {g' : SubmitGroup}, groups[i]? = some g' → g'.profile.Uses key → j < i →
      (dag groups).Before j i := by
  intro i
  -- on the index of the later user: step back to the last user before it
  induction i using Nat.strong_induction_on with
  | _ i ih =>
    intro g' hg' hu' hji
    have htake : (groups.take i)[j]? = some g := by rw [List.getElem?_take_of_lt hji, hg]
    obtain ⟨l, hlast, hjl⟩ := last_complete htake hu
    have hedge : l ∈ (dag groups).pred i := by
      show l ∈ dependencies groups i
      rw [dependencies_eq hg']
      exact mem_predecessors.mpr ⟨key, hu', hlast⟩
    have hli : l < i := (dag groups).pred_lt hedge
    obtain ⟨gl, hgl, hul⟩ := last_sound hlast
    rw [List.getElem?_take_of_lt hli] at hgl
    rcases Nat.eq_or_lt_of_le hjl with rfl | hlt
    · exact .single hedge
    · exact .tail (ih l hli hgl hul hlt) hedge

/-! ## The stored nodes -/

theorem dependencies_concat {groups : List SubmitGroup} (group : SubmitGroup) {i : Nat}
    (hi : i < groups.length) : dependencies (groups ++ [group]) i = dependencies groups i := by
  unfold dependencies
  rw [List.getElem?_append_left hi, List.take_append_of_le_length (Nat.le_of_lt hi)]

theorem dependencies_last (groups : List SubmitGroup) (group : SubmitGroup) :
    dependencies (groups ++ [group]) groups.length =
      (builderAfter groups).predecessors group.profile := by
  rw [dependencies_eq (g := group) (by simp), List.take_left]

/-- A stored node carries its group, the number of its predecessors and its successors. -/
structure NodeOf (groups : List SubmitGroup) (i : Nat) (g : SubmitGroup) (node : SubmitNode) :
    Prop where
  group : node.group = some g
  remaining : node.remainingPredecessors = (dependencies groups i).card
  nodup : node.successors.Nodup
  successors : ∀ k, k ∈ node.successors ↔ k < groups.length ∧ i ∈ dependencies groups k

theorem nodeOf_last (groups : List SubmitGroup) (group : SubmitGroup) :
    NodeOf (groups ++ [group]) groups.length group
      ⟨some group, ((builderAfter groups).predecessors group.profile).card, []⟩ where
  group := rfl
  remaining := by rw [dependencies_last]
  nodup := List.nodup_nil
  successors := by
    intro k
    constructor
    · intro hk
      cases hk
    · rintro ⟨hk, hdep⟩
      have hlt := dependencies_lt hdep
      rw [List.length_append, List.length_singleton] at hk
      omega

/-- An earlier node gains the new index exactly when it is a predecessor of it. -/
theorem nodeOf_concat {groups : List SubmitGroup} {group g : SubmitGroup} {i : Nat}
    {node : SubmitNode} (hi : i < groups.length) (hn : NodeOf groups i g node) :
    NodeOf (groups ++ [group]) i g
      (if i ∈ (builderAfter groups).predecessors group.profile then
        { node with successors := node.successors ++ [groups.length] } else node) := by
  have hfresh : groups.length ∉ node.successors := by
    intro hmem
    have hlt := ((hn.successors _).mp hmem).1
    omega
  have hsucc : ∀ k, (k < (groups ++ [group]).length ∧ i ∈ dependencies (groups ++ [group]) k) ↔
      k ∈ node.successors ∨
        (k = groups.length ∧ i ∈ (builderAfter groups).predecessors group.profile) := by
    intro k
    rw [List.length_append, List.length_singleton, hn.successors]
    rcases Nat.lt_trichotomy k groups.length with hk | rfl | hk
    · rw [dependencies_concat group hk]
      constructor
      · exact fun h => .inl ⟨hk, h.2⟩
      · rintro (h | ⟨rfl, -⟩)
        · exact ⟨by omega, h.2⟩
        · omega
    · rw [dependencies_last]
      constructor
      · exact fun h => .inr ⟨rfl, h.2⟩
      · rintro (⟨h, -⟩ | h)
        · omega
        · exact ⟨by omega, h.2⟩
    · constructor
      · rintro ⟨h, -⟩
        omega
      · rintro (⟨h, -⟩ | ⟨rfl, -⟩) <;> omega
  split
  · rename_i hmem
    refine ⟨hn.group, by rw [dependencies_concat group hi]; exact hn.remaining, ?_, ?_⟩
    · exact hn.nodup.append (List.nodup_singleton _) (by simpa using hfresh)
    · intro k
      rw [hsucc, List.mem_append, List.mem_singleton]
      constructor
      · exact Or.imp_right (fun h => ⟨h, hmem⟩)
      · exact Or.imp_right And.left
  · rename_i hmem
    refine ⟨hn.group, by rw [dependencies_concat group hi]; exact hn.remaining, hn.nodup, ?_⟩
    intro k
    rw [hsucc]
    constructor
    · exact .inl
    · rintro (h | ⟨-, h⟩)
      · exact h
      · exact absurd h hmem

/-- **The nodes of a segment** are those of its dependency graph. -/
theorem built_nodes (groups : List SubmitGroup) {i : Nat} {g : SubmitGroup}
    (h : groups[i]? = some g) :
    ∃ node, (buildNormalNodes groups)[i]? = some node ∧ NodeOf groups i g node := by
  show ∃ node, (builderAfter groups).nodes[i]? = some node ∧ NodeOf groups i g node
  induction groups using List.reverseRecOn with
  | nil => cases h
  | append_singleton groups group ih =>
    have hlen := length_builderAfter groups
    rw [builderAfter_concat]
    unfold NodeBuilder.push
    dsimp only
    rcases Nat.lt_or_ge i groups.length with hi | hi
    · rw [List.getElem?_append_left hi] at h
      obtain ⟨node, hnode, hn⟩ := ih h
      refine ⟨_, ?_, nodeOf_concat hi hn⟩
      rw [List.getElem?_append_left (by simpa [hlen] using hi), List.getElem?_mapIdx, hnode, hlen]
      rfl
    · have hlt := (List.getElem?_eq_some_iff.mp h).1
      rw [List.length_append, List.length_singleton] at hlt
      have hi' : i = groups.length := by omega
      subst hi'
      rw [List.getElem?_concat_length, Option.some.injEq] at h
      subst h
      exact ⟨_, by simp [hlen], nodeOf_last groups group⟩

theorem length_buildNormalNodes (groups : List SubmitGroup) :
    (buildNormalNodes groups).length = groups.length :=
  length_builderAfter groups

/-! ## Schedules -/

/-- The segments of a list of groups. -/
inductive Planned : List SubmitGroup → List ExecutionSegment → Prop
  | nil : Planned [] []
  | exclusive {group : SubmitGroup} {groups : List SubmitGroup} {rest : List ExecutionSegment} :
      Planned groups rest → Planned (group :: groups) (.exclusive group :: rest)
  | normal {segment groups : List SubmitGroup} {rest : List ExecutionSegment} :
      (∀ g ∈ segment, g.profile.exclusive = false) → Planned groups rest →
        Planned (segment ++ groups) (.normal (buildNormalNodes segment) :: rest)

theorem planned_flushNormal {normal groups : List SubmitGroup} {rest : List ExecutionSegment}
    (hn : ∀ g ∈ normal, g.profile.exclusive = false) (h : Planned groups rest) :
    Planned (normal ++ groups) (flushNormal normal ++ rest) := by
  unfold flushNormal
  split
  · rename_i hempty
    rw [List.isEmpty_iff.mp hempty]
    exact h
  · exact .normal hn h

theorem planned_scheduleLoop : ∀ (groups normal : List SubmitGroup),
    (∀ g ∈ normal, g.profile.exclusive = false) →
      Planned (normal ++ groups) (scheduleLoop normal groups)
  | [], normal, hn => by
    have h := planned_flushNormal hn Planned.nil
    rwa [List.append_nil (flushNormal normal)] at h
  | group :: groups, normal, hn => by
    unfold scheduleLoop
    split
    · exact planned_flushNormal hn
        (.exclusive (planned_scheduleLoop groups [] (by simp)))
    · rename_i hx
      have h := planned_scheduleLoop groups (normal ++ [group]) (by
        intro g hg
        rcases List.mem_append.mp hg with hg | hg
        · exact hn g hg
        · rw [List.mem_singleton.mp hg]
          simpa using hx)
      rwa [List.append_assoc] at h

/-- **A schedule keeps every group, in order**, with exclusive groups alone. -/
theorem planned_buildSubmitSchedule (groups : List SubmitGroup) :
    Planned groups (buildSubmitSchedule groups) :=
  planned_scheduleLoop groups [] (by simp)

end XLayerReth.RcsFilter
