import Sirah.Lib.Fallible
import Sirah.Lib.Json
import Sirah.Lib.KeyedTable

/-!
# The DaemonSet controller

Model of a pass of `daemonset_controller_run` in `internal/controller/daemonset_controller.c`, over the DaemonSets, the
nodes and the pods in the store. Every call to etcd succeeds. For each DaemonSet and each node without a `NoSchedule`
taint the pass looks for a pod under a name joined from the two names, in the namespace `default`, and creates it there
if there is none.

* `Covers`: after the pass every DaemonSet has its pod on every such node, in its own namespace, with its image;
  no two of them share a pod; and nothing was created on a tainted node.
* **`covers_iff`**: it does **iff** the pass comes to its end and its pods are `Tidy`: no two pods of a namespace have one
  name, those that are there are right, and a pod that is not there belongs to `default` and is what the first
  DaemonSet and node with its name ask for.
* `namespace_ignored`: a DaemonSet of another namespace has no pod in it.
-/

namespace Sirah.DaemonSetController

/-! ## The store -/

/-- A DaemonSet: the namespace it is stored under, which is one segment of a key, and the object, with its containers. -/
structure DaemonSet where
  ns : CString
  object : Json
  segment : 47 ∉ ns
  containers : ((object.get "spec").get "containers").elems.isSome = true

/-- A node: its name, and the object that is stored. -/
structure Node where
  name : CString
  object : Json

/-- `MAX_NODES`. -/
def maxNodes : Nat := 256

/-- The DaemonSets and the nodes. -/
structure Cluster where
  daemonsets : List DaemonSet
  nodes : List Node
  distinct : (nodes.map Node.name).Nodup
  bounded : nodes.length ≤ maxNodes

/-- The pods, by their keys. -/
abbrev Pods := CString → Option Json

/-- The key of a pod. -/
def podKey (ns name : CString) : CString := CString.ofString "/sirah/pods/" ++ ns ++ 47 :: name

/-! ## A pass -/

variable (render : Json → CString)

/-- `daemonset_get_all_nodes`, with the names in buffers of 256 bytes. -/
def getAllNodes (c : Cluster) : Option (List CString) :=
  (c.nodes.take maxNodes).mapM fun node => CString.strncpy 256 node.name

/-- Has the object of a node a taint with the effect `NoSchedule`? -/
def noSchedule (node : Json) : Bool :=
  match (node.get "spec").get "taints" with
  | .arr taints => taints.any fun taint => (taint.get "effect").getString render == some (CString.ofString "NoSchedule")
  | _ => false

/-- `daemonset_node_is_tainted`. -/
def nodeIsTainted (c : Cluster) (name : CString) : Bool :=
  match c.nodes.find? fun node => node.name = name with
  | some node => noSchedule render node.object
  | none => false

/-- `ds_name`. A NULL is printed as `(null)`. -/
def dsName (ds : Json) : CString := (((ds.get "metadata").get "name").getString render).getD "(null)"

/-- `pod_name[256]`. -/
def podName (dsName nodeName : CString) : CString := CString.snprintf 256 (dsName ++ 45 :: nodeName)

/-- The image of the first container. Taking an element of something that is no array fails. -/
def image (spec : Json) : Option CString := do
  let containers ← (spec.get "containers").elems
  some ((((containers.headD .null).get "image").getString render).getD "default-image")

/-- The pod that `daemonset_create_pod_on_node` puts. -/
def podObject (ns name nodeName image : CString) : Json :=
  .obj [("apiVersion", .str (CString.ofString "v1")), ("kind", .str (CString.ofString "Pod")),
    ("metadata", .obj [("name", .str name), ("namespace", .str ns)]),
    ("spec", .obj [("nodeName", .str nodeName),
      ("containers", .arr [.obj [("name", .str (CString.ofString "daemon")), ("image", .str image)]])]),
    ("status", .obj [("phase", .str (CString.ofString "Pending"))])]

/-- `daemonset_create_pod_on_node`. -/
def createPodOnNode (pods : Pods) (ns name nodeName image : CString) : Pods :=
  Function.update pods (CString.snprintf 512 (podKey ns name)) (some (podObject ns name nodeName image))

/-- The pods in the loop over the nodes, and the numbers for the status. -/
structure Progress where
  pods : Pods
  desired : Int
  scheduled : Int

/-- A round of the loop over the nodes. -/
def ensureOnNode (c : Cluster) (ds : Json) (s : Progress) (nodeName : CString) : Option Progress :=
  if nodeIsTainted render c nodeName then some s
  else do
    let name := podName (dsName render ds) nodeName
    let image ← image render (ds.get "spec")
    let found := (s.pods (CString.snprintf 512 (podKey "default" name))).isSome
    let pods := if found then s.pods else createPodOnNode s.pods "default" name nodeName image
    some ⟨pods, s.desired + 1, s.scheduled + 1⟩

/-- The numbers are added to the status, if there is one. The object is not stored. -/
def updateStatus (status : Json) (desired scheduled : Int) : Option Json :=
  match status with
  | .null => some .null
  | status => do
    let status ← status.add "desiredNumberScheduled" (.int desired)
    let status ← status.add "currentNumberScheduled" (.int scheduled)
    status.add "numberReady" (.int scheduled)

/-- The body of the loop over the DaemonSets. -/
def syncDaemonSet (c : Cluster) (pods : Pods) (ds : DaemonSet) : Option Pods := do
  let names ← getAllNodes c
  let s ← names.foldlM (ensureOnNode render c ds.object) ⟨pods, 0, 0⟩
  let _ ← updateStatus (ds.object.get "status") s.desired s.scheduled
  some s.pods

/-- A pass of `daemonset_controller_run`. -/
def run (c : Cluster) (pods : Pods) : Option Pods := c.daemonsets.foldlM (syncDaemonSet render c) pods

/-! ## Coverage -/

theorem image_isSome (ds : DaemonSet) : (image render (ds.object.get "spec")).isSome = true := by
  obtain ⟨items, hitems⟩ := Option.isSome_iff_exists.mp ds.containers
  rw [image, hitems]
  rfl

/-- The image of a DaemonSet. -/
def DaemonSet.image (ds : DaemonSet) : CString :=
  (DaemonSetController.image render (ds.object.get "spec")).get (image_isSome render ds)

/-- The DaemonSets with the nodes that have no `NoSchedule` taint, in the order of the pass. -/
def pairs (c : Cluster) : List (DaemonSet × Node) :=
  c.daemonsets.flatMap fun ds => (c.nodes.filter fun node => !noSchedule render node.object).map fun node => (ds, node)

/-- The name of the pod of a DaemonSet on a node. -/
def pairName (p : DaemonSet × Node) : CString := podName (dsName render p.1.object) p.2.name

/-- Its key in the namespace of the DaemonSet. -/
def ownKey (p : DaemonSet × Node) : CString := podKey p.1.ns (pairName render p)

/-- The node that a pod is on. -/
def podNode (pod : Json) : Json := (pod.get "spec").get "nodeName"

/-- The images of a pod's containers. -/
def podImages (pod : Json) : List Json :=
  match (pod.get "spec").get "containers" with
  | .arr containers => containers.map fun container => container.get "image"
  | _ => []

/-- The pod carries the image of the DaemonSet and the name of the node. -/
def Carries (p : DaemonSet × Node) (pod : Json) : Prop :=
  podNode pod = .str p.2.name ∧ (podImages pod).head? = some (.str (p.1.image render))

variable (c : Cluster) (pods after : Pods)

/-- **What is expected of a pass.** -/
structure Covers : Prop where
  covered : ∀ p ∈ pairs render c, ∃ pod, after (ownKey render p) = some pod ∧ Carries render p pod
  distinct : ∀ p ∈ pairs render c, ∀ q ∈ pairs render c, p ≠ q → ownKey render p ≠ ownKey render q
  untainted : ∀ key pod, after key = some pod → pods key ≠ some pod →
    ∀ node ∈ c.nodes, noSchedule render node.object = true → podNode pod ≠ .str node.name

/-- The names of the nodes are terminated in their buffers, and the status of the DaemonSet, if it has one, is an object. -/
def RoundFinishes (ds : DaemonSet) : Prop :=
  (∀ node ∈ c.nodes, node.name.length < 255) ∧
    (ds.object.get "status" = .null ∨ ∃ members, ds.object.get "status" = .obj members)

/-- What lets the pass come to its end. -/
def Finishes : Prop := ∀ ds ∈ c.daemonsets, RoundFinishes c ds

/-- The condition on the DaemonSets, the nodes and the pods that are there. -/
structure Tidy : Prop where
  distinct : ∀ p ∈ pairs render c, ∀ q ∈ pairs render c, p.1.ns = q.1.ns → pairName render p = pairName render q → p = q
  present : ∀ p ∈ pairs render c, ∀ pod, pods (ownKey render p) = some pod → Carries render p pod
  missing : ∀ p ∈ pairs render c, pods (ownKey render p) = none → p.1.ns = CString.ofString "default" ∧
    ∃ q, (pairs render c).find? (fun q => pairName render q = pairName render p) = some q ∧
      q.2.name = p.2.name ∧ q.1.image render = p.1.image render

variable {render c pods after} {ns ns' name name' : CString} {p q : DaemonSet × Node}

/-! ## Keys -/

/-- **A key tells the namespace and the name.** -/
theorem podKey_inj (hns : 47 ∉ ns) (hns' : 47 ∉ ns') (h : podKey ns name = podKey ns' name') : ns = ns' ∧ name = name' := by
  unfold podKey at h
  rw [List.append_assoc, List.append_assoc] at h
  have hrest := List.append_cancel_left h
  have hfound : CString.strchr 47 (ns ++ 47 :: name) = some (ns', name') := by
    rw [hrest, CString.strchr_append hns']
  rw [CString.strchr_append hns] at hfound
  exact Prod.mk.inj (Option.some.inj hfound)

theorem not_mem_default : (47 : UInt8) ∉ CString.ofString "default" := by decide

/-- The key that the pass looks at. -/
def storeKey (render : Json → CString) (p : DaemonSet × Node) : CString := podKey "default" (pairName render p)

theorem storeKey_eq_ownKey_iff : storeKey render q = ownKey render p ↔
    p.1.ns = CString.ofString "default" ∧ pairName render q = pairName render p := by
  constructor
  · intro h
    obtain ⟨hns, hname⟩ := podKey_inj not_mem_default p.1.segment h
    exact ⟨hns.symm, hname⟩
  · rintro ⟨hns, hname⟩
    rw [storeKey, ownKey, hns, hname]

theorem snprintf_storeKey : CString.snprintf 512 (storeKey render p) = storeKey render p := by
  refine CString.snprintf_of_lt ?_
  have hname : (pairName render p).length ≤ 255 := List.length_take_le 255 _
  have hprefix : (CString.ofString "/sirah/pods/").length = 12 := by decide
  have hdefault : (CString.ofString "default").length = 7 := by decide
  rw [storeKey, podKey, List.length_append, List.length_append, List.length_cons, hprefix, hdefault]
  omega

/-! ## The pass as one loop -/

/-- The pod that is created for a DaemonSet on a node. -/
def pairPod (render : Json → CString) (p : DaemonSet × Node) : Json :=
  podObject "default" (pairName render p) p.2.name (p.1.image render)

theorem nodeIsTainted_eq {node : Node} (hnode : node ∈ c.nodes) :
    nodeIsTainted render c node.name = noSchedule render node.object := by
  have hfind : c.nodes.find? (fun other => other.name = node.name) = some node := by
    refine List.find?_eq_some_of_unique hnode (decide_eq_true rfl) fun other hother hname => ?_
    exact List.inj_on_of_nodup_map c.distinct hother hnode (of_decide_eq_true hname)
  rw [nodeIsTainted, hfind]

/-- A round of the loop over the nodes. -/
def ensured (render : Json → CString) (ds : DaemonSet) (s : Progress) (node : Node) : Progress :=
  if noSchedule render node.object then s
  else ⟨List.putNew (storeKey render) (pairPod render) s.pods (ds, node), s.desired + 1, s.scheduled + 1⟩

theorem ensureOnNode_eq {ds : DaemonSet} {node : Node} (hnode : node ∈ c.nodes) (s : Progress) :
    ensureOnNode render c ds.object s node.name = some (ensured render ds s node) := by
  have himage : image render (ds.object.get "spec") = some (ds.image render) := (Option.some_get _).symm
  have hkey : CString.snprintf 512 (podKey "default" (podName (dsName render ds.object) node.name)) =
      storeKey render (ds, node) := @snprintf_storeKey render (ds, node)
  unfold ensureOnNode ensured
  rw [nodeIsTainted_eq hnode, himage]
  split
  · rfl
  · simp only [createPodOnNode, hkey]
    rfl

theorem getAllNodes_eq_some_iff {names : List CString} : getAllNodes c = some names ↔
    (∀ node ∈ c.nodes, node.name.length < 255) ∧ names = c.nodes.map Node.name := by
  unfold getAllNodes
  rw [List.take_of_length_le c.bounded]
  refine List.mapM_eq_some_iff_of_step fun node name => ?_
  unfold CString.strncpy
  by_cases hfits : node.name.length < 255
  · simp [hfits, eq_comm]
  · simp [hfits]

theorem updateStatus_isSome_iff {status : Json} {desired scheduled : Int} :
    (∃ new, updateStatus status desired scheduled = some new) ↔
      status = .null ∨ ∃ members, status = .obj members := by
  cases status with
  | null => exact iff_of_true ⟨_, rfl⟩ (.inl rfl)
  | obj members => exact iff_of_true ⟨_, rfl⟩ (.inr ⟨members, rfl⟩)
  | bool b => simp [updateStatus, Json.add]
  | int i => simp [updateStatus, Json.add]
  | double m e => simp [updateStatus, Json.add]
  | str s => simp [updateStatus, Json.add]
  | arr items => simp [updateStatus, Json.add]

/-- The pods of one DaemonSet. -/
theorem pods_foldl_ensured (ds : DaemonSet) (nodes : List Node) (s : Progress) :
    (nodes.foldl (ensured render ds) s).pods =
      ((nodes.filter fun node => !noSchedule render node.object).map fun node => (ds, node)).foldl
        (List.putNew (storeKey render) (pairPod render)) s.pods := by
  rw [List.foldl_map, List.foldl_filter]
  refine (List.foldl_hom Progress.pods fun s node => ?_).symm
  unfold ensured
  cases noSchedule render node.object <;> rfl

/-- The keys that the pods of one DaemonSet ask for, in the loop over all of them. -/
theorem pods_pairs (pods : Pods) : (pairs render c).foldl (List.putNew (storeKey render) (pairPod render)) pods =
    c.daemonsets.foldl (fun pods ds => (c.nodes.foldl (ensured render ds) ⟨pods, 0, 0⟩).pods) pods := by
  rw [pairs, List.foldl_flatMap]
  refine List.foldl_ext _ _ _ fun pods ds _ => ?_
  rw [pods_foldl_ensured]

theorem syncDaemonSet_eq_some_iff {ds : DaemonSet} : syncDaemonSet render c pods ds = some after ↔
    RoundFinishes c ds ∧ after = (c.nodes.foldl (ensured render ds) ⟨pods, 0, 0⟩).pods := by
  have hloop : ∀ s t, (c.nodes.map Node.name).foldlM (ensureOnNode render c ds.object) s = some t ↔
      t = c.nodes.foldl (ensured render ds) s := by
    intro s t
    rw [List.foldlM_map, List.foldlM_eq_some_iff_of_step (fun node hnode s t => ?_)]
    · exact and_iff_right fun _ _ => trivial
    · rw [ensureOnNode_eq hnode, Option.some.injEq, eq_comm]
      exact (and_iff_right trivial).symm
  unfold syncDaemonSet
  constructor
  · intro h
    obtain ⟨names, hnames, h⟩ := Option.bind_eq_some_iff.mp h
    obtain ⟨s, hs, h⟩ := Option.bind_eq_some_iff.mp h
    obtain ⟨status, hstatus, h⟩ := Option.bind_eq_some_iff.mp h
    obtain ⟨hfits, rfl⟩ := getAllNodes_eq_some_iff.mp hnames
    obtain rfl := (hloop _ _).mp hs
    exact ⟨⟨hfits, updateStatus_isSome_iff.mp ⟨status, hstatus⟩⟩, (Option.some.inj h).symm⟩
  · rintro ⟨⟨hfits, hstatus⟩, rfl⟩
    obtain ⟨status, hstatus⟩ := updateStatus_isSome_iff.mpr hstatus
    refine Option.bind_eq_some_iff.mpr ⟨_, getAllNodes_eq_some_iff.mpr ⟨hfits, rfl⟩, ?_⟩
    refine Option.bind_eq_some_iff.mpr ⟨_, (hloop _ _).mpr rfl, ?_⟩
    exact Option.bind_eq_some_iff.mpr ⟨status, hstatus, rfl⟩

/-- **A pass** comes to its end under the condition on the names and the status, and creates what is missing. -/
theorem run_eq_some_iff : run render c pods = some after ↔
    Finishes c ∧ after = (pairs render c).foldl (List.putNew (storeKey render) (pairPod render)) pods := by
  have hstep : ∀ ds ∈ c.daemonsets, ∀ pods after : Pods, syncDaemonSet render c pods ds = some after ↔
      RoundFinishes c ds ∧ after = (c.nodes.foldl (ensured render ds) ⟨pods, 0, 0⟩).pods :=
    fun ds _ pods after => syncDaemonSet_eq_some_iff
  rw [pods_pairs]
  exact List.foldlM_eq_some_iff_of_step hstep

/-- **What is under a key after the pass**: what was there, or the pod of the first that ask for it. -/
theorem run_apply (h : run render c pods = some after) (key : CString) : after key =
    (pods key).or (((pairs render c).find? fun q => storeKey render q = key).map (pairPod render)) := by
  obtain ⟨-, rfl⟩ := run_eq_some_iff.mp h
  exact List.foldl_putNew (pairs render c) pods key

theorem carries_pairPod : Carries render p (pairPod render q) ↔
    q.2.name = p.2.name ∧ q.1.image render = p.1.image render := by
  have hnode : podNode (pairPod render q) = .str q.2.name := rfl
  have himages : (podImages (pairPod render q)).head? = some (.str (q.1.image render)) := rfl
  rw [Carries, hnode, himages, Option.some.injEq, Json.str.injEq, Json.str.injEq]

theorem mem_pairs : p ∈ pairs render c ↔
    p.1 ∈ c.daemonsets ∧ p.2 ∈ c.nodes ∧ noSchedule render p.2.object = false := by
  obtain ⟨ds, node⟩ := p
  simp [pairs]

/-! ## Main result -/

/-- **No pod is created on a tainted node.** -/
theorem untainted_of_run (h : run render c pods = some after) {key : CString} {pod : Json}
    (hafter : after key = some pod) (hnew : pods key ≠ some pod) {node : Node} (hnode : node ∈ c.nodes)
    (htaint : noSchedule render node.object = true) : podNode pod ≠ .str node.name := by
  rw [run_apply h] at hafter
  cases hpods : pods key with
  | some old =>
    rw [hpods, Option.some_or] at hafter
    exact absurd (hpods.trans hafter) hnew
  | none =>
    rw [hpods, Option.none_or] at hafter
    obtain ⟨q, hq, rfl⟩ := Option.map_eq_some_iff.mp hafter
    obtain ⟨-, hmem, hfree⟩ := mem_pairs.mp (List.mem_of_find?_eq_some hq)
    intro hname
    have hsame : q.2 = node := List.inj_on_of_nodup_map c.distinct hmem hnode (Json.str.inj hname)
    rw [hsame, htaint] at hfree
    cases hfree

/-- The pods that are found under the keys of a namespace. -/
theorem covered_iff (h : run render c pods = some after) :
    (∃ pod, after (ownKey render p) = some pod ∧ Carries render p pod) ↔
      (∀ pod, pods (ownKey render p) = some pod → Carries render p pod) ∧
        (pods (ownKey render p) = none → p.1.ns = CString.ofString "default" ∧
          ∃ q, (pairs render c).find? (fun q => pairName render q = pairName render p) = some q ∧
            q.2.name = p.2.name ∧ q.1.image render = p.1.image render) := by
  rw [run_apply h]
  cases hpods : pods (ownKey render p) with
  | some old => simp
  | none =>
    simp only [Option.none_or, Option.map_eq_some_iff, storeKey_eq_ownKey_iff, reduceCtorEq, false_implies, implies_true,
      true_and, forall_const]
    by_cases hns : p.1.ns = CString.ofString "default"
    · simp only [hns, true_and]
      constructor
      · rintro ⟨_, ⟨q, hq, rfl⟩, hcarries⟩
        exact ⟨q, hq, carries_pairPod.mp hcarries⟩
      · rintro ⟨q, hq, hsame⟩
        exact ⟨_, ⟨q, hq, rfl⟩, carries_pairPod.mpr hsame⟩
    · simp only [hns, false_and, decide_false, iff_false, not_exists]
      rintro _ ⟨⟨q, hq, -⟩, -⟩
      exact absurd (List.find?_some hq) (by decide)

/-- **The DaemonSets cover the cluster exactly** if the pass comes to its end and their pods are tidy. -/
theorem covers_iff (render : Json → CString) (c : Cluster) (pods : Pods) :
    (∃ after, run render c pods = some after ∧ Covers render c pods after) ↔ Finishes c ∧ Tidy render c pods := by
  constructor
  · rintro ⟨after, hrun, hcovers⟩
    refine ⟨(run_eq_some_iff.mp hrun).1, ?_, ?_, ?_⟩
    · intro p hp q hq hns hname
      by_contra hne
      refine hcovers.distinct p hp q hq hne ?_
      rw [ownKey, ownKey, hns, hname]
    · intro p hp
      exact ((covered_iff hrun).mp (hcovers.covered p hp)).1
    · intro p hp
      exact ((covered_iff hrun).mp (hcovers.covered p hp)).2
  · rintro ⟨hfinishes, htidy⟩
    have hrun : run render c pods = some _ := run_eq_some_iff.mpr ⟨hfinishes, rfl⟩
    refine ⟨_, hrun, ?_, ?_, fun key pod hafter hnew node hnode => untainted_of_run hrun hafter hnew hnode⟩
    · intro p hp
      exact (covered_iff hrun).mpr ⟨htidy.present p hp, htidy.missing p hp⟩
    · intro p hp q hq hne hkey
      obtain ⟨hns, hname⟩ := podKey_inj p.1.segment q.1.segment hkey
      exact hne (htidy.distinct p hp q hq hns hname)

/-! ## A DaemonSet of another namespace -/

/-- A DaemonSet in `monitoring`, and one node. -/
def oneDaemonSet : Cluster where
  daemonsets := [{
    ns := "monitoring"
    object := .obj [("metadata", .obj [("name", .str (CString.ofString "agent"))]),
      ("spec", .obj [("containers", .arr [.obj [("image", .str (CString.ofString "agent:1"))]])])]
    segment := by decide
    containers := by decide }]
  nodes := [⟨"n1", .obj []⟩]
  distinct := by decide
  bounded := by decide

/-- **Its pod is created in another namespace**, and it has none. -/
theorem namespace_ignored : ¬ ∀ (render : Json → CString) (c : Cluster) (pods : Pods),
    ∃ after, run render c pods = some after ∧ Covers render c pods after := by
  intro h
  obtain ⟨after, hrun, hcovers⟩ := h (fun _ => []) oneDaemonSet fun _ => none
  obtain ⟨pod, hpod, -⟩ := hcovers.covered _ List.mem_cons_self
  have hnone : after (podKey "monitoring" "agent-n1") = none := by
    rw [run_apply hrun]
    rfl
  cases hnone.symm.trans hpod

end Sirah.DaemonSetController
