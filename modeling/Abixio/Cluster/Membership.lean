import Abixio.Cluster.Addresses
import Abixio.Lib.RoundRobin

/-!
# The members of a cluster

The nodes of a cluster learn of each other in any order (`src/cluster/identity.rs:128-186`), and each
of them makes the member list and the cluster id for itself. `build_members` sorts by node id before it
numbers the volumes; `cluster_id_for` hashes the sorted ids, each with a colon behind it.

`membership_agrees`: all nodes have the same list and the same id, the list has the volumes of the nodes
one node after the other, and another set of nodes has another id. The index is a `u32` in the source, and
a cluster has fewer volumes than that.
-/

namespace Abixio

open List

variable {n : Nat} {known : Fin n → NodeIdentity}

/-- The sorted node ids, as the first boot makes them. -/
def sortedIds (identities : List NodeIdentity) : List String :=
  (identities.map NodeIdentity.nodeId).insertionSort (· ≤ ·)

/-- What `cluster_id_for` hashes. -/
def deploymentText (sortedNodeIds : List String) : Bytes :=
  utf8 "deployment:" ++ sortedNodeIds.flatMap fun id => utf8 id ++ utf8 ":"

/-- **Node `i` finished its first boot** among the nodes `known`, which answer with their identity or
not at all. -/
structure FirstBoot (env : Env) (known : Fin n → NodeIdentity) (i : Fin n) (identity : ResolvedIdentity) :
    Prop where
  resolved : ∃ iter input rounds files files',
    resolveIdentity env iter input rounds files = .ok (some (identity, files')) ∧
    input.nodes.length = n ∧
    (∀ answer ∈ rounds, ∀ url id, answer url = some id → ∃ j, id = known j) ∧
    ∀ first rest files₀, bootFormats input files = .ok (first :: rest, files₀) →
      localIdentity (first :: rest) input.paths first.nodeId
        (deriveAdvertise input.host input.listen) = known i ∧
      (first.clusterId = none ∨ first.cluster = none)

/-- **The volumes of all nodes**, one node after the other, each with its volumes in its own order. -/
structure ListsVolumes (known : Fin n → NodeIdentity) (members : List SetMember) : Prop where
  volumes : ∃ js : List (Fin n), js.Perm (finRange n) ∧
    members.map (fun m => (m.volumeId, m.nodeId)) =
      js.flatMap fun j => (known j).volumes.map fun v => (v.volumeId, (known j).nodeId)
  index : members.map SetMember.index = range members.length

theorem Deployment.Restarted.firstBoot {dep : Deployment n} {env : Env} {a : Fin n}
    {before after : ResolvedIdentity} (h : dep.Restarted env a before after) :
    FirstBoot env dep.identity a before := by
  obtain ⟨iter, -, input, -, rounds, -, files, files₁, -, hrun, hnodes, -, hanswers, hown, -⟩ := h.boots
  have hlen := dep.listed.length_eq
  rw [length_map, length_ofFn] at hlen
  exact ⟨iter, input, rounds, files, files₁, hrun, hnodes ▸ hlen, hanswers, hown⟩

/-! ## Orders of discovery -/

section Orders

variable (hids : Function.Injective fun i => (known i).nodeId) {js : List (Fin n)}
  (hjs : js.Perm (finRange n))
include hids hjs

theorem buildMembers_of_perm : buildMembers (js.map known) = buildMembers (ofFn known) := by
  have hperm : (js.map known).Perm (ofFn known) := by
    rw [ofFn_eq_map]
    exact hjs.map known
  unfold buildMembers
  rw [Lib.insertionSort_of_perm hperm fun a ha b hb hab hba => ?_]
  obtain ⟨i, rfl⟩ := mem_ofFn.mp ha
  obtain ⟨j, rfl⟩ := mem_ofFn.mp hb
  rw [hids (String.le_antisymm hab hba)]

omit hids in
theorem sortedIds_of_perm : sortedIds (js.map known) = sortedIds (ofFn known) := by
  have hperm : (js.map known).Perm (ofFn known) := by
    rw [ofFn_eq_map]
    exact hjs.map known
  exact Lib.insertionSort_of_perm (hperm.map NodeIdentity.nodeId)
    fun a _ b _ hab hba => String.le_antisymm hab hba

end Orders

theorem listsVolumes_buildMembers (known : Fin n → NodeIdentity) :
    ListsVolumes known (buildMembers (ofFn known)) := by
  unfold buildMembers
  constructor
  · refine ⟨(finRange n).insertionSort fun i j => (known i).nodeId ≤ (known j).nodeId,
      perm_insertionSort _ _, ?_⟩
    rw [ofFn_eq_map, ← map_insertionSort _ _ known _ fun _ _ _ _ => Iff.rfl]
    dsimp only
    rw [flatMap_map]
    refine ext_getElem (by simp) fun i h₁ h₂ => ?_
    simp
  · refine ext_getElem (by simp) fun i h₁ h₂ => ?_
    simp

/-! ## Cluster ids -/

theorem utf8_append (s t : String) : utf8 (s ++ t) = utf8 s ++ utf8 t := by
  unfold utf8
  simp

/-- The ids with their colons as one text. -/
theorem exists_idsText (ids : List String) : ∃ s : String,
    s.toList = ids.flatMap (fun id => id.toList ++ [':']) ∧
      utf8 s = ids.flatMap fun id => utf8 id ++ utf8 ":" := by
  induction ids with
  | nil => exact ⟨"", rfl, rfl⟩
  | cons id ids ih =>
    obtain ⟨s, hchars, hbytes⟩ := ih
    refine ⟨id ++ ":" ++ s, ?_, ?_⟩
    · rw [String.toList_append, String.toList_append, hchars]
      rfl
    · rw [utf8_append, utf8_append, hbytes]
      rfl

/-- An id ends at the first colon. -/
theorem takeWhile_colon {id : String} (hfree : ':' ∉ id.toList) (rest : List Char) :
    (id.toList ++ [':'] ++ rest).takeWhile (· ≠ ':') = id.toList := by
  rw [append_assoc, takeWhile_append_of_pos fun c hc => decide_eq_true (ne_of_mem_of_not_mem hc hfree)]
  exact append_nil _

theorem flatMap_colon_inj {ids ids' : List String} (hfree : ∀ id ∈ ids, ':' ∉ id.toList)
    (hfree' : ∀ id ∈ ids', ':' ∉ id.toList)
    (h : (ids.flatMap fun id => id.toList ++ [':']) = ids'.flatMap fun id => id.toList ++ [':']) :
    ids = ids' := by
  induction ids generalizing ids' with
  | nil =>
    cases ids' with
    | nil => rfl
    | cons id' ids' => simp at h
  | cons id ids ih =>
    cases ids' with
    | nil => simp at h
    | cons id' ids' =>
      rw [flatMap_cons, flatMap_cons] at h
      have hid := congrArg (takeWhile (· ≠ ':')) h
      rw [takeWhile_colon (hfree id mem_cons_self), takeWhile_colon (hfree' id' mem_cons_self)] at hid
      rw [hid] at h
      rw [String.toList_inj.mp hid, ih (fun x hx => hfree x (.tail _ hx))
        (fun x hx => hfree' x (.tail _ hx)) (append_cancel_left h)]

/-- **Different ids have different texts.** -/
theorem deploymentText_inj {ids ids' : List String} (hfree : ∀ id ∈ ids, ':' ∉ id.toList)
    (hfree' : ∀ id ∈ ids', ':' ∉ id.toList) (h : deploymentText ids = deploymentText ids') :
    ids = ids' := by
  obtain ⟨s, hchars, hbytes⟩ := exists_idsText ids
  obtain ⟨s', hchars', hbytes'⟩ := exists_idsText ids'
  have hs : s = s' := utf8_inj (by rw [hbytes, hbytes', append_cancel_left h])
  refine flatMap_colon_inj hfree hfree' ?_
  rw [← hchars, ← hchars', hs]

theorem mem_sortedIds {id : String} : id ∈ sortedIds (ofFn known) ↔ ∃ i, (known i).nodeId = id := by
  unfold sortedIds
  rw [mem_insertionSort, map_ofFn, mem_ofFn]
  rfl

/-- **The order of discovery makes no difference.** -/
theorem membership_agrees (env : Env) (known : Fin n → NodeIdentity)
    (hids : Function.Injective fun i => (known i).nodeId) :
    (∀ i identity, FirstBoot env known i identity →
      identity.allMembers = buildMembers (ofFn known) ∧
      identity.clusterId = deploymentIdFor env (sortedIds (ofFn known))) ∧
    ListsVolumes known (buildMembers (ofFn known)) ∧
    ∀ (m : Nat) (other : Fin m → NodeIdentity), (∀ i, ':' ∉ (known i).nodeId.toList) →
      (∀ i, ':' ∉ (other i).nodeId.toList) →
      -- SHA-256 has no collision here in its first eight bytes
      (shortDigest env (deploymentText (sortedIds (ofFn known))) =
          shortDigest env (deploymentText (sortedIds (ofFn other))) →
        deploymentText (sortedIds (ofFn known)) = deploymentText (sortedIds (ofFn other))) →
      deploymentIdFor env (sortedIds (ofFn known)) =
        deploymentIdFor env (sortedIds (ofFn other)) →
      ∀ id, (∃ i, (known i).nodeId = id) ↔ ∃ i, (other i).nodeId = id := by
  refine ⟨?_, listsVolumes_buildMembers known, ?_⟩
  · rintro i identity ⟨iter, input, rounds, files, files', hrun, hlen, hanswers, hown⟩
    have hne : input.nodes ≠ [] := by
      have := i.pos
      rintro hnil
      rw [hnil, length_nil] at hlen
      omega
    obtain ⟨first, rest, files₀, hboot, -, -, -, hlater | hfirst⟩ := resolveIdentity_ok hne hrun
    · obtain ⟨-, hnone | hnone⟩ := hown first rest files₀ hboot
      · cases hnone.symm.trans hlater.members.1
      · cases hnone.symm.trans hlater.members.2
    · obtain ⟨identities, hexchange, hid, hmembers, -⟩ := hfirst.exchanged
      rw [(hown first rest files₀ hboot).1, hlen] at hexchange
      obtain ⟨js, hjs, rfl⟩ := exchange_all hids hanswers hexchange
      exact ⟨hmembers.trans (buildMembers_of_perm hids hjs),
        hid.trans (congrArg (deploymentIdFor env) (sortedIds_of_perm hjs))⟩
  · intro m other hfree hfree' hdigest h id
    have hdigests := congrArg String.toList h
    unfold deploymentIdFor at hdigests
    simp only [String.toList_append] at hdigests
    have htext := hdigest (String.toList_inj.mp (append_cancel_left hdigests))
    have hsorted := deploymentText_inj (fun id hid => ?_) (fun id hid => ?_) htext
    · rw [← mem_sortedIds, ← mem_sortedIds, hsorted]
    · obtain ⟨i, rfl⟩ := mem_sortedIds.mp hid
      exact hfree i
    · obtain ⟨i, rfl⟩ := mem_sortedIds.mp hid
      exact hfree' i

/-- The three nodes of `Deployment.trio`. -/
theorem membership_agrees_trio : ∃ resolved : Fin 3 → ResolvedIdentity,
    (∀ a, FirstBoot Deployment.trioEnv Deployment.trio.identity a (resolved a)) ∧
      ∀ a, (resolved a).allMembers = (resolved 0).allMembers ∧
        (resolved a).clusterId = (resolved 0).clusterId := by
  choose before after hboots using Deployment.trio_boots
  have hfirst := fun a => (Deployment.trio_restarted (hboots a)).firstBoot
  have hsame := (membership_agrees Deployment.trioEnv Deployment.trio.identity Deployment.trio.ids).1
  refine ⟨before, hfirst, fun a => ?_⟩
  rw [(hsame a _ (hfirst a)).1, (hsame a _ (hfirst a)).2, (hsame 0 _ (hfirst 0)).1,
    (hsame 0 _ (hfirst 0)).2]
  exact ⟨rfl, rfl⟩

end Abixio
