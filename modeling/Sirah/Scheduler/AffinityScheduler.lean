import Mathlib.Data.List.ReduceOption
import Sirah.Lib.CString

/-!
# The affinity scheduler

Model of `internal/scheduler/affinity_scheduler.c` with `k8s_toleration_matches_taint` of
`pkg/types/affinity.c`: which of the available nodes is a pod placed on?

* A pod holds an array of tolerations (`pkg/types/pod.h`), a node an array of pointers to taints; either
  pointer may be NULL.
* `k8s_affinity_scheduler_tolerations_satisfy_taints` takes an array of *pointers* to tolerations, and
  `k8s_affinity_scheduler_can_place` passes it the array of the pod as it is. Where the callee reads an element
  of it, what happens is not defined (`none`).

* `selectNode_eq`: the score does not depend on the node, so the first node that a pod can be placed on is
  selected.
* **`keptAway_iff`**: taints keep a pod away **iff** it has no array of tolerations and the first node no
  taints, or the array is empty, or no node has taints.
-/

namespace Sirah.AffinityScheduler

/-! ## Data -/

/-- `k8s_taint_t`. -/
structure Taint where
  key : CString
  value : Option CString
  effect : CString
  deriving DecidableEq

/-- `k8s_toleration_t`. -/
structure Toleration where
  key : CString
  operator : CString
  value : Option CString
  effect : Option CString
  deriving DecidableEq

/-- `k8s_node_affinity_t`: the number of required terms, and the weights of the preferred ones. -/
structure NodeAffinity where
  requiredTerms : Option Nat
  preferred : Option (List (Option Int))
  deriving DecidableEq

/-- `k8s_affinity_t`: of the pod affinity the number of preferred terms is read, of the pod anti-affinity the
number of required ones. -/
structure Affinity where
  nodeAffinity : Option NodeAffinity
  podAffinity : Option (Option Nat)
  podAntiAffinity : Option (Option Nat)
  deriving DecidableEq

/-- `k8s_pod_t`, what is scheduled by. -/
structure Pod where
  affinity : Option Affinity
  tolerations : Option (List Toleration)
  deriving DecidableEq

/-- `k8s_node_t`, its name and its taints. -/
structure Node where
  name : CString
  taints : Option (List (Option Taint))
  deriving DecidableEq

/-- `num_taints`. -/
def Node.numTaints (node : Node) : Nat := (node.taints.getD []).length

/-! ## Taints and tolerations -/

/-- `k8s_toleration_matches_taint`. -/
def tolerationMatchesTaint : Option Toleration → Option Taint → Bool
  | some toleration, some taint =>
    toleration.key == taint.key &&
    (toleration.effect.all fun effect => effect == [] || effect == taint.effect) &&
    (if toleration.operator = "Equal" then
      match toleration.value, taint.value with
      | some value, some value' => value == value'
      | _, _ => false
    else toleration.operator == "Exists")
  | _, _ => false

/-- `k8s_affinity_scheduler_tolerations_satisfy_taints`. -/
def tolerationsSatisfyTaints (tolerations : Option (List (Option Toleration)))
    (taints : Option (List (Option Taint))) : Bool :=
  if (tolerations.getD []).isEmpty then (taints.getD []).isEmpty
  else (taints.getD []).all fun taint => (tolerations.getD []).any fun toleration =>
    tolerationMatchesTaint toleration taint

/-- The call of it with the array of a pod: an element that is read is not a pointer. -/
def callTolerationsSatisfyTaints (tolerations : List Toleration) (taints : List (Option Taint)) : Option Bool :=
  if tolerations = [] ∨ taints = [] then
    some (tolerationsSatisfyTaints (some (tolerations.map some)) (some taints))
  else none

/-! ## Placement -/

/-- The loop over the required terms: every term is taken to match. -/
def requiredTermFound (numTerms : Nat) : Bool := (List.range numTerms).foldl (fun _ _ => true) false

/-- `k8s_affinity_scheduler_score_node`. -/
def scoreNode (pod : Pod) (_node : Node) : Int :=
  let nodeAffinity := pod.affinity.bind Affinity.nodeAffinity
  if nodeAffinity.any fun a => a.requiredTerms.any fun numTerms => !requiredTermFound numTerms then 0
  else
    let preferred := (nodeAffinity.bind NodeAffinity.preferred).getD []
    let score : Int := preferred.foldl (fun score weight => score + (weight.getD 0).tdiv 2) 50
    let score := score + 5 * (((pod.affinity.bind Affinity.podAffinity).getD none).getD 0 : Nat)
    let score := score - 20 * (((pod.affinity.bind Affinity.podAntiAffinity).getD none).getD 0 : Nat)
    if score < 0 then 0 else if score > 100 then 100 else score

/-- `k8s_affinity_scheduler_can_place`. The terms of pod affinity and anti-affinity are not looked at. -/
def canPlace (pod : Pod) (node : Node) : Option Bool :=
  let nodeAffinity := pod.affinity.bind Affinity.nodeAffinity
  if nodeAffinity.any fun a => a.requiredTerms.any fun numTerms =>
      decide (numTerms > 0) && !requiredTermFound numTerms then some false
  else
    match pod.tolerations, node.taints with
    | some tolerations, some taints => callTolerationsSatisfyTaints tolerations taints
    | _, _ => some true

/-- The loop of `k8s_affinity_scheduler_select_node`. -/
def selectLoop (pod : Pod) : List (Option Node) → Option Node → Int → Option (Option Node)
  | [], best, _ => some best
  | none :: nodes, best, bestScore => selectLoop pod nodes best bestScore
  | some node :: nodes, best, bestScore =>
    match canPlace pod node with
    | none => none
    | some false => selectLoop pod nodes best bestScore
    | some true =>
      if scoreNode pod node > bestScore then selectLoop pod nodes (some node) (scoreNode pod node)
      else selectLoop pod nodes best bestScore

/-- `k8s_affinity_scheduler_select_node`. -/
def selectNode (pod : Pod) (nodes : List (Option Node)) : Option (Option Node) := selectLoop pod nodes none (-1)

/-! ## Taints keep pods away -/

/-- The tolerations of the pod satisfy the taints of the node. -/
def Tolerated (pod : Pod) (node : Node) : Prop :=
  tolerationsSatisfyTaints (pod.tolerations.map (List.map some)) node.taints = true

/-- **Taints keep the pod away**: from the nodes it does not tolerate, and from no other. -/
structure KeptAway (pod : Pod) (nodes : List (Option Node)) (result : Option Node) : Prop where
  tolerated : ∀ node, result = some node → some node ∈ nodes ∧ Tolerated pod node
  complete : result = none → ∀ node, some node ∈ nodes → ¬ Tolerated pod node

/-- Without tolerations the first node has no taints; with some, none of the nodes has. -/
def Spared (pod : Pod) (nodes : List (Option Node)) : Prop :=
  match pod.tolerations with
  | none => ∀ node, nodes.reduceOption.head? = some node → node.numTaints = 0
  | some [] => True
  | some (_ :: _) => ∀ node, some node ∈ nodes → node.numTaints = 0

variable {pod : Pod} {node : Node} {nodes : List (Option Node)}

theorem requiredTermFound_iff {numTerms : Nat} : requiredTermFound numTerms = true ↔ 0 < numTerms := by
  unfold requiredTermFound
  cases numTerms with
  | zero => simp
  | succ n => simp [List.range_succ]

/-- Required terms never stand in the way. -/
theorem canPlace_eq : canPlace pod node =
    match pod.tolerations, node.taints with
    | some tolerations, some taints => callTolerationsSatisfyTaints tolerations taints
    | _, _ => some true := by
  unfold canPlace
  rw [if_neg]
  simp only [Option.any_eq_true, Bool.and_eq_true, decide_eq_true_eq, Bool.not_eq_true', not_exists, not_and]
  intro a _ numTerms _ hpos
  simp [requiredTermFound_iff.mpr hpos]

/-- **The score of a pod** is the same for all nodes. -/
theorem scoreNode_eq (node node' : Node) : scoreNode pod node = scoreNode pod node' := by
  unfold scoreNode
  rfl

theorem scoreNode_nonneg : 0 ≤ scoreNode pod node := by
  unfold scoreNode
  dsimp only
  split_ifs <;> omega

/-- Once a node is selected it stays. -/
theorem selectLoop_some (hdef : ∀ node, some node ∈ nodes → (canPlace pod node).isSome = true) (best : Node) :
    selectLoop pod nodes (some best) (scoreNode pod best) = some (some best) := by
  induction nodes with
  | nil => rfl
  | cons node nodes ih =>
    have hrest := ih fun node hnode => hdef node (List.mem_cons_of_mem _ hnode)
    cases node with
    | none => exact hrest
    | some node =>
      obtain ⟨placed, hplaced⟩ := Option.isSome_iff_exists.mp (hdef node List.mem_cons_self)
      unfold selectLoop
      rw [hplaced, scoreNode_eq node best]
      cases placed <;> simp [hrest]

/-- **The first node that the pod can be placed on** is selected. -/
theorem selectNode_eq (hdef : ∀ node, some node ∈ nodes → (canPlace pod node).isSome = true) :
    selectNode pod nodes = some (nodes.reduceOption.find? fun node => canPlace pod node == some true) := by
  unfold selectNode
  induction nodes with
  | nil => rfl
  | cons node nodes ih =>
    have hdef' : ∀ node, some node ∈ nodes → (canPlace pod node).isSome = true :=
      fun node hnode => hdef node (List.mem_cons_of_mem _ hnode)
    cases node with
    | none =>
      rw [List.reduceOption_cons_of_none]
      exact ih hdef'
    | some node =>
      obtain ⟨placed, hplaced⟩ := Option.isSome_iff_exists.mp (hdef node List.mem_cons_self)
      rw [List.reduceOption_cons_of_some]
      unfold selectLoop
      rw [hplaced]
      cases placed with
      | false => simp [hplaced, ih hdef']
      | true =>
        have hscore : scoreNode pod node > -1 := by
          have hnonneg := @scoreNode_nonneg pod node
          omega
        simp [hplaced, hscore, selectLoop_some hdef']

/-- One node that is not defined is enough. -/
theorem selectLoop_eq_none {best : Option Node} {bestScore : Int} (hnode : some node ∈ nodes)
    (h : canPlace pod node = none) : selectLoop pod nodes best bestScore = none := by
  induction nodes generalizing best bestScore with
  | nil => exact absurd hnode List.not_mem_nil
  | cons node' nodes ih =>
    rcases List.mem_cons.mp hnode with rfl | hrest
    · unfold selectLoop
      rw [h]
    · cases node' with
      | none => exact ih hrest
      | some node' =>
        unfold selectLoop
        split
        · rfl
        · exact ih hrest
        · split <;> exact ih hrest

/-! ### The three kinds of pods -/

theorem numTaints_eq_zero_iff : node.numTaints = 0 ↔ (node.taints.getD []).isEmpty = true := by
  rw [Node.numTaints, List.isEmpty_iff, List.length_eq_zero_iff]

/-- A node without taints is tolerated. -/
theorem tolerated_of_numTaints (h : node.numTaints = 0) : Tolerated pod node := by
  have hempty := numTaints_eq_zero_iff.mp h
  unfold Tolerated tolerationsSatisfyTaints
  split
  · exact hempty
  · rw [List.isEmpty_iff.mp hempty]
    rfl

/-- Without tolerations no other node is. -/
theorem tolerated_iff_of_empty (h : pod.tolerations.getD [] = []) : Tolerated pod node ↔ node.numTaints = 0 := by
  have hnone : ((pod.tolerations.map (List.map some)).getD []).isEmpty = true := by
    cases htol : pod.tolerations with
    | none => rfl
    | some tolerations =>
      rw [htol, Option.getD_some] at h
      rw [h]
      rfl
  unfold Tolerated tolerationsSatisfyTaints
  rw [if_pos hnone, numTaints_eq_zero_iff]

/-- What is selected where every test is defined and says whether the node is tolerated. -/
theorem keptAway_of_canPlace (h : ∀ node, some node ∈ nodes → ∃ placed, canPlace pod node = some placed ∧
    (placed = true ↔ Tolerated pod node)) : ∃ result, selectNode pod nodes = some result ∧
      KeptAway pod nodes result := by
  have hdef : ∀ node, some node ∈ nodes → (canPlace pod node).isSome = true := by
    intro node hnode
    obtain ⟨placed, hplaced, -⟩ := h node hnode
    simp [hplaced]
  have hplace : ∀ node, some node ∈ nodes → (canPlace pod node = some true ↔ Tolerated pod node) := by
    intro node hnode
    obtain ⟨placed, hplaced, hiff⟩ := h node hnode
    simp [hplaced, hiff]
  refine ⟨_, selectNode_eq hdef, ?_, ?_⟩
  · intro node hfind
    have hmem := List.reduceOption_mem_iff.mp (List.mem_of_find?_eq_some hfind)
    exact ⟨hmem, (hplace node hmem).mp (by simpa using List.find?_some hfind)⟩
  · intro hnone node hmem htolerated
    have hnot := List.find?_eq_none.mp hnone node (List.reduceOption_mem_iff.mpr hmem)
    simp [(hplace node hmem).mpr htolerated] at hnot

/-- **No array of tolerations**: the taints are not looked at, and the first node is selected. -/
theorem keptAway_of_none (h : pod.tolerations = none) :
    (∃ result, selectNode pod nodes = some result ∧ KeptAway pod nodes result) ↔
      ∀ node, nodes.reduceOption.head? = some node → node.numTaints = 0 := by
  have hplace : ∀ node, canPlace pod node = some true := fun node => by rw [canPlace_eq, h]
  have htolerated : ∀ node, Tolerated pod node ↔ node.numTaints = 0 :=
    fun node => tolerated_iff_of_empty (by rw [h]; rfl)
  have hselect : selectNode pod nodes = some nodes.reduceOption.head? := by
    rw [selectNode_eq fun node _ => by simp [hplace]]
    cases nodes.reduceOption <;> simp [hplace]
  rw [hselect]
  constructor
  · rintro ⟨result, heq, hkept⟩ node hhead
    obtain rfl := Option.some.inj heq
    exact (htolerated node).mp (hkept.tolerated node hhead).2
  · intro hfirst
    refine ⟨_, rfl, fun node hhead => ⟨?_, (htolerated node).mpr (hfirst node hhead)⟩, ?_⟩
    · exact List.reduceOption_mem_iff.mp (List.mem_of_head? hhead)
    · intro hnone node hnode
      rw [List.head?_eq_none_iff] at hnone
      exact absurd (List.reduceOption_mem_iff.mpr hnode) (by simp [hnone])

/-- **Some tolerations**: the first taint they are compared with leaves what is defined. -/
theorem keptAway_of_cons {toleration : Toleration} {tolerations : List Toleration}
    (h : pod.tolerations = some (toleration :: tolerations)) :
    (∃ result, selectNode pod nodes = some result ∧ KeptAway pod nodes result) ↔
      ∀ node, some node ∈ nodes → node.numTaints = 0 := by
  constructor
  · rintro ⟨result, hselect, -⟩ node hnode
    by_contra htaints
    have hplace : canPlace pod node = none := by
      rw [canPlace_eq, h]
      cases hnode : node.taints with
      | none => exact absurd (by simp [Node.numTaints, hnode]) htaints
      | some taints =>
        have hne : taints ≠ [] := by
          rintro rfl
          exact htaints (by simp [Node.numTaints, hnode])
        simp [callTolerationsSatisfyTaints, hne]
    rw [selectNode, selectLoop_eq_none hnode hplace] at hselect
    cases hselect
  · intro hfree
    refine keptAway_of_canPlace fun node hnode => ?_
    have htolerated : Tolerated pod node := tolerated_of_numTaints (hfree node hnode)
    refine ⟨true, ?_, iff_of_true rfl htolerated⟩
    rw [canPlace_eq, h]
    cases htaints : node.taints with
    | none => rfl
    | some taints =>
      have hnil : taints = [] := by simpa [Node.numTaints, htaints] using hfree node hnode
      simp [callTolerationsSatisfyTaints, hnil, tolerationsSatisfyTaints]

theorem keptAway_of_nil (h : pod.tolerations = some []) :
    ∃ result, selectNode pod nodes = some result ∧ KeptAway pod nodes result := by
  refine keptAway_of_canPlace fun node _ => ?_
  rw [canPlace_eq, h, tolerated_iff_of_empty (by rw [h]; rfl), numTaints_eq_zero_iff]
  cases node.taints with
  | none => exact ⟨true, rfl, iff_of_true rfl rfl⟩
  | some taints => exact ⟨taints.isEmpty, by simp [callTolerationsSatisfyTaints, tolerationsSatisfyTaints], Iff.rfl⟩

/-- **Taints keep a pod away, exactly** from untainted nodes, and where the pod has an empty array of
tolerations: without one, the first node must have no taints; with tolerations, no node may have any. -/
theorem keptAway_iff : (∃ result, selectNode pod nodes = some result ∧ KeptAway pod nodes result) ↔
    Spared pod nodes := by
  unfold Spared
  cases h : pod.tolerations with
  | none => exact keptAway_of_none h
  | some tolerations =>
    cases tolerations with
    | nil => exact iff_of_true (keptAway_of_nil h) trivial
    | cons toleration tolerations => exact keptAway_of_cons h

/-! ## A dedicated node -/

/-- A node for a database alone. -/
def dedicated : Node := ⟨"db-node", some [some ⟨"dedicated", some "db", "NoSchedule"⟩]⟩

/-- **A pod without tolerations is placed on a dedicated node.** -/
theorem intolerant_pod_on_dedicated_node :
    ¬ ∀ (pod : Pod) (nodes : List (Option Node)), pod.affinity = none →
      ∃ result, selectNode pod nodes = some result ∧ KeptAway pod nodes result := by
  intro h
  have hfirst := (keptAway_of_none rfl).mp (h ⟨none, none⟩ [some dedicated] rfl)
  exact absurd (hfirst dedicated rfl) Nat.one_ne_zero

end Sirah.AffinityScheduler
