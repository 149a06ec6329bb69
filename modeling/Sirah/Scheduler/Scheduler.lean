import Mathlib.Algebra.Ring.Int.Defs
import Sirah.Lib.CString
import Sirah.Lib.Run
import Sirah.Lib.SplitFirst

/-!
# The scheduler

Model of `internal/scheduler/scheduler.c` and `internal/scheduler/scoring.c`: the nodes, the pods
assigned to them and the calls that change either. Counters are integers; the pods' CPU and memory fit
the types of the source.

* Scores divide integers, and a divisor may be zero: with the weights of `scheduler_new` (40, 30 and 20)
  `weights_sum / 100` always is. C leaves that quotient undefined. `divZero` is what the machine does: a
  value (AArch64 gives 0), or none, when it stops the process (x86). A step after which there is no
  process has no state.
* An assignment in the source is a pod and a node. `request` is what the pod was scheduled with, which
  the source does not keep.
* The labels of a node have values that no modelled function reads.
-/

namespace Sirah.Sched

/-- `pod_request_t`. -/
structure PodRequest where
  cpuMillicores : Int
  memoryBytes : Int
  deriving DecidableEq, Repr

/-- `node_state_t`. -/
structure NodeState where
  nodeName : CString
  status : CString
  allocatableCpus : Int
  allocatableMemory : Int
  allocatedCpus : Int
  allocatedMemory : Int
  podCount : Int
  maxPods : Int
  taints : List CString
  labelKeys : List CString
  deriving DecidableEq, Repr

/-- `pod_spec_t`. -/
structure PodSpec where
  podName : Option CString
  request : PodRequest
  podAffinityKeys : List CString
  podAntiAffinityKeys : List CString
  preferredNodeLabels : List CString
  toleratedTaints : List CString
  deriving DecidableEq, Repr

/-- An entry of `assigned_pods` and `assigned_nodes`, with the request of the pod. -/
structure Assignment where
  pod : CString
  node : CString
  request : PodRequest
  deriving DecidableEq, Repr

/-- The configuration fields of `scheduler_t`. -/
structure Config where
  enableBinPacking : Bool
  enablePodSpread : Bool
  enableAffinity : Bool
  enableTopologySpread : Bool
  weightBinPacking : Int
  weightPodSpread : Int
  weightAffinity : Int
  deriving DecidableEq, Repr

/-- `scheduler_t`. -/
structure Scheduler where
  nodes : List NodeState
  assignments : List Assignment
  config : Config
  deriving DecidableEq, Repr

/-- `scheduler_new`. -/
def schedulerNew : Scheduler where
  nodes := []
  assignments := []
  config := ⟨true, true, true, true, 40, 30, 20⟩

/-! ## Scores -/

section Scoring

variable (divZero : Int → Option Int)

/-- Division of integers in C, rounded towards zero. -/
def divide (a b : Int) : Option Int := if b = 0 then divZero a else some (a.tdiv b)

/-- The value of a `long` in an `int`. -/
def toInt (x : Int) : Int := x.bmod (2 ^ 32)

/-- The share of `allocatable` in use, in percent, at most 100. -/
def utilPercent (after allocatable : Int) : Option Int := do
  let percent ← divide divZero (after * 100) allocatable
  return if toInt percent > 100 then 100 else toInt percent

/-- `scoring_bin_packing`. -/
def scoringBinPacking (node : NodeState) (request : PodRequest) : Option Int := do
  let cpu ← utilPercent divZero (node.allocatedCpus + request.cpuMillicores) node.allocatableCpus
  let memory ← utilPercent divZero (node.allocatedMemory + request.memoryBytes) node.allocatableMemory
  divide divZero (cpu + memory) 2

/-- The body `scoring_pod_spread` and `scoring_topology_spread` share. -/
def freePodsPercent (node : NodeState) : Option Int := do
  let used ← divide divZero (node.podCount * 100) node.maxPods
  return if 100 - used < 0 then 0 else 100 - used

/-- `scoring_pod_spread`. -/
def scoringPodSpread (node : NodeState) : Option Int := freePodsPercent divZero node

/-- `scoring_topology_spread`. -/
def scoringTopologySpread (node : NodeState) : Option Int := freePodsPercent divZero node

/-- The keys that count as matched on a node: all of them once it has a pod. -/
def matchedKeys (node : NodeState) (keys : List CString) : Int :=
  (keys.map fun _ => if node.podCount > 0 then 1 else 0).sum

/-- `scoring_pod_affinity`. -/
def scoringPodAffinity (node : NodeState) (pod : PodSpec) : Option Int :=
  if pod.podAffinityKeys.length = 0 then some 50
  else divide divZero (matchedKeys node pod.podAffinityKeys * 100) pod.podAffinityKeys.length

/-- `scoring_pod_anti_affinity`. -/
def scoringPodAntiAffinity (node : NodeState) (pod : PodSpec) : Option Int :=
  if pod.podAntiAffinityKeys.length = 0 then some 50
  else do
    let conflicts ← divide divZero (matchedKeys node pod.podAntiAffinityKeys * 100)
      pod.podAntiAffinityKeys.length
    return if 100 - conflicts < 0 then 0 else 100 - conflicts

/-- `scoring_node_affinity`. -/
def scoringNodeAffinity (node : NodeState) (pod : PodSpec) : Option Int :=
  if pod.preferredNodeLabels.length = 0 then some 50
  else divide divZero ((pod.preferredNodeLabels.filter fun l => node.labelKeys.any (· == l)).length * 100)
    pod.preferredNodeLabels.length

/-- The three affinity scores, averaged. -/
def affinityScore (node : NodeState) (pod : PodSpec) : Option Int := do
  let na ← scoringNodeAffinity divZero node pod
  let paf ← scoringPodAffinity divZero node pod
  let paaf ← scoringPodAntiAffinity divZero node pod
  divide divZero (na + paf + paaf) 3

/-- One weighted part of the combined score: what it adds to the total and to the weights. -/
def weighted (enabled : Bool) (weight : Int) (score : Option Int) : Option (Int × Int) :=
  if enabled && decide (weight > 0) then do
    let part ← divide divZero ((← score) * weight) 100
    return (part, weight)
  else some (0, 0)

/-- `scoring_combined`. -/
def scoringCombined (config : Config) (node : NodeState) (pod : PodSpec) : Option Int := do
  let (bp, wbp) ← weighted divZero config.enableBinPacking config.weightBinPacking
    (scoringBinPacking divZero node pod.request)
  let (ps, wps) ← weighted divZero config.enablePodSpread config.weightPodSpread
    (scoringPodSpread divZero node)
  let (aff, waff) ← weighted divZero config.enableAffinity config.weightAffinity
    (affinityScore divZero node pod)
  let weightsSum := wbp + wps + waff
  let ts ← if config.enableTopologySpread then do
      let score ← scoringTopologySpread divZero node
      if 100 - weightsSum > 0 then divide divZero (score * (100 - weightsSum)) 100 else some 0
    else some 0
  let total := bp + ps + aff + ts
  let final ← if weightsSum > 0 then do divide divZero total (← divide divZero weightsSum 100) else some 0
  return if final > 100 then 100 else if final < 0 then 0 else final

end Scoring

/-! ## Nodes -/

/-- `scheduler_get_node`: the first node of the name. -/
def getNode (s : Scheduler) (name : CString) : Option NodeState := s.nodes.find? fun n => n.nodeName == name

/-- Change the first node that satisfies `p`; nothing happens when there is none. -/
def Scheduler.editFirst (s : Scheduler) (p : NodeState → Bool) (edit : NodeState → NodeState) : Scheduler :=
  match s.nodes.splitFirst p with
  | none => s
  | some (before, n, after) => { s with nodes := before ++ edit n :: after }

/-- `scheduler_add_node`. -/
def addNode (s : Scheduler) (name : CString) (cpu memory : Int) : Scheduler :=
  { s with nodes := s.nodes ++
    [{ nodeName := name, status := "Ready", allocatableCpus := cpu, allocatableMemory := memory,
       allocatedCpus := 0, allocatedMemory := 0, podCount := 0, maxPods := 110, taints := [],
       labelKeys := [] }] }

/-- `scheduler_update_node_status`. -/
def updateNodeStatus (s : Scheduler) (name status : CString) : Scheduler :=
  s.editFirst (fun n => n.nodeName == name) fun n => { n with status := status }

/-- `scheduler_cordon_node`. -/
def cordonNode (s : Scheduler) (name : CString) : Scheduler := updateNodeStatus s name "Cordoned"

/-- `scheduler_uncordon_node`. -/
def uncordonNode (s : Scheduler) (name : CString) : Scheduler := updateNodeStatus s name "Ready"

/-- `scheduler_drain_node`: it counts the pods of the node and evicts none. -/
def drainNode (s : Scheduler) (name : CString) : Scheduler := updateNodeStatus s name "Draining"

/-- `scheduler_add_node_label`. -/
def addNodeLabel (s : Scheduler) (name key : CString) : Scheduler :=
  s.editFirst (fun n => n.nodeName == name) fun n => { n with labelKeys := n.labelKeys ++ [key] }

/-- `scheduler_add_node_taint`. -/
def addNodeTaint (s : Scheduler) (name taint : CString) : Scheduler :=
  s.editFirst (fun n => n.nodeName == name) fun n => { n with taints := n.taints ++ [taint] }

/-- `scheduler_remove_node_taint`: of the first node of the name that has the taint. -/
def removeNodeTaint (s : Scheduler) (name taint : CString) : Scheduler :=
  s.editFirst (fun n => n.nodeName == name && n.taints.contains taint) fun n =>
    { n with taints := n.taints.erase taint }

/-! ## Pods -/

/-- `scheduler_check_resource_fit`. -/
def checkResourceFit (s : Scheduler) (name : CString) (request : PodRequest) : Bool :=
  match getNode s name with
  | none => false
  | some n =>
    !decide (n.allocatedCpus + request.cpuMillicores > n.allocatableCpus) &&
      !decide (n.allocatedMemory + request.memoryBytes > n.allocatableMemory) &&
      !decide (n.podCount ≥ n.maxPods)

/-- `scheduler_check_toleration_match`. -/
def checkTolerationMatch (s : Scheduler) (name : CString) (pod : PodSpec) : Bool :=
  match getNode s name with
  | none => false
  | some n => n.taints.all fun taint => pod.toleratedTaints.any (taint == ·)

/-- The tests a node passes before it is scored. -/
def feasible (s : Scheduler) (pod : PodSpec) (n : NodeState) : Bool :=
  n.status == "Ready" && checkResourceFit s n.nodeName pod.request &&
    checkTolerationMatch s n.nodeName pod

/-- The loop of `scheduler_find_best_node`, from the best score so far and its node. -/
def bestOf (divZero : Int → Option Int) (s : Scheduler) (pod : PodSpec) :
    Int × Option CString → List NodeState → Option (Int × Option CString)
  | best, [] => some best
  | best, n :: ns =>
    if feasible s pod n then
      match scoringCombined divZero s.config n pod with
      | none => none
      | some score => bestOf divZero s pod (if score > best.1 then (score, some n.nodeName) else best) ns
    else bestOf divZero s pod best ns

/-- `scheduler_find_best_node`. -/
def findBestNode (divZero : Int → Option Int) (s : Scheduler) (pod : PodSpec) : Option (Option CString) :=
  (bestOf divZero s pod (-1, none) s.nodes).map Prod.snd

/-- The pod counter of the first node of the name. -/
def bumpPodCount (s : Scheduler) (name : CString) (d : Int) : Scheduler :=
  s.editFirst (fun n => n.nodeName == name) fun n => { n with podCount := n.podCount + d }

/-- `scheduler_bind_pod`; there is room for 5000 assignments. -/
def bindPod (s : Scheduler) (pod : Option CString) (node : CString) (request : PodRequest) : Scheduler :=
  match pod with
  | none => s
  | some pod =>
    if s.assignments.length ≥ 5000 then s
    else if (getNode s node).isNone then s
    else bumpPodCount { s with assignments := s.assignments ++ [⟨pod, node, request⟩] } node 1

/-- `scheduler_schedule_pod`. -/
def schedulePod (divZero : Int → Option Int) (s : Scheduler) (pod : PodSpec) : Option Scheduler :=
  match findBestNode divZero s pod with
  | none => none
  | some none => some s
  | some (some node) => some (bindPod s pod.podName node pod.request)

/-- `scheduler_evict_pod`: the first assignment of the pod goes. -/
def evictPod (s : Scheduler) (pod : CString) : Scheduler :=
  match s.assignments.splitFirst fun a => a.pod == pod with
  | none => s
  | some (before, a, after) => bumpPodCount { s with assignments := before ++ after } a.node (-1)

/-- A call; a call with a NULL argument returns `-1` at once and is left out. -/
inductive Op where
  | addNode (name : CString) (cpu memory : Int)
  | cordonNode (name : CString)
  | uncordonNode (name : CString)
  | drainNode (name : CString)
  | updateNodeStatus (name status : CString)
  | addNodeLabel (name key : CString)
  | addNodeTaint (name taint : CString)
  | removeNodeTaint (name taint : CString)
  | schedulePod (pod : PodSpec)
  | evictPod (pod : CString)
  deriving DecidableEq, Repr

/-- One call; there is no state once the process has stopped. -/
def step (divZero : Int → Option Int) (s : Option Scheduler) (op : Op) : Option Scheduler :=
  match s with
  | none => none
  | some s =>
    match op with
    | .addNode name cpu memory => some (addNode s name cpu memory)
    | .cordonNode name => some (cordonNode s name)
    | .uncordonNode name => some (uncordonNode s name)
    | .drainNode name => some (drainNode s name)
    | .updateNodeStatus name status => some (updateNodeStatus s name status)
    | .addNodeLabel name key => some (addNodeLabel s name key)
    | .addNodeTaint name taint => some (addNodeTaint s name taint)
    | .removeNodeTaint name taint => some (removeNodeTaint s name taint)
    | .schedulePod pod => schedulePod divZero s pod
    | .evictPod pod => some (evictPod s pod)

end Sirah.Sched
