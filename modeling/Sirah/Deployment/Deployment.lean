import Sirah.Lib.CString
import Sirah.Lib.KeyedTable
import Sirah.Lib.Run

/-!
# The deployment controller

Model of the create and delete step of `internal/controller/deployment.c`, over the pods that the API server
holds for a namespace. The server carries out every request it gets: a POST under a name that exists replaces
that pod, a DELETE removes it, and a LIST returns the pods in the order of the table.

`api_request` refuses to send anything without `api_server_url`, and no function of the file gives that static
variable a value. `Controller.call` is what a program can do to the static variables; `requests_run` says that
no request is ever sent.

* `Converged`: one pass leaves as many pods of the deployment as are desired, replaces none, and leaves the
  pods of the others as they are.
* **`converged_iff`**: it does **iff** there are as many before it.
* `converged_iff_of_requests`: what the step would do if its requests were sent. A missing pod is created under
  the name of the deployment and an index, and the indexes are taken from the number of pods there are: the pass
  converges **iff** the desired number is not negative and, where pods are missing, the names of the indexes from
  the current number up to the desired one are distinct and free. What an earlier request leaves in the curl
  handle is not modelled.
-/

namespace Sirah.Deployment

/-! ## The pods of a namespace -/

/-- What the controller reads and writes of a pod: its name, the labels `deployment` and `pod-index`, the
image of its container, and whether its phase is `Running`. -/
structure Pod where
  name : CString
  deployment : Option CString
  podIndex : Option Nat
  image : CString
  running : Bool
  deriving DecidableEq

/-- The pods of a namespace. -/
structure Namespace where
  pods : List Pod
  distinct : (pods.map Pod.name).Nodup

/-- POST of a pod. -/
def Namespace.post (s : Namespace) (pod : Pod) : Namespace :=
  ⟨s.pods.put Pod.name pod, List.nodup_put s.distinct⟩

/-- DELETE of a pod. -/
def Namespace.delete (s : Namespace) (name : CString) : Namespace :=
  ⟨s.pods.without Pod.name name, List.nodup_without s.distinct⟩

/-- Does the pod have the label of the deployment? -/
def Pod.labelled (dep : CString) (pod : Pod) : Bool := pod.deployment == some dep

/-- The number of its pods. -/
def Namespace.count (s : Namespace) (dep : CString) : Nat := s.pods.countP (Pod.labelled dep)

/-! ## The static variables -/

/-- `curl_handle`, which is there or not, and `api_server_url`. -/
structure Controller where
  curlHandle : Bool
  apiServerUrl : Option CString

/-- Their initial values. -/
def Controller.start : Controller := ⟨false, none⟩

inductive ControllerCall where
  /-- `deployment_controller_init`; does `curl_easy_init` succeed? -/
  | init (curl : Bool)
  /-- `deployment_controller_run`: the thread that reconciles. -/
  | run
  /-- `deployment_controller_shutdown`. -/
  | shutdown

def Controller.call (c : Controller) : ControllerCall → Controller
  | .init curl => { c with curlHandle := curl }
  | .run => c
  | .shutdown => { c with curlHandle := false }

/-- The guard of `api_request`. -/
def Controller.requests (c : Controller) : Bool := c.curlHandle && c.apiServerUrl.isSome

/-- **No request is ever sent.** -/
theorem requests_run (calls : List ControllerCall) : (Runs.run Controller.call .start calls).requests = false := by
  have hurl : ∀ {c : Controller}, c.apiServerUrl = none → (Runs.run Controller.call c calls).apiServerUrl = none := by
    induction calls with
    | nil => exact id
    | cons call calls ih =>
      intro c hc
      refine ih ?_
      cases call <;> exact hc
  rw [Controller.requests, hurl rfl, Option.isSome_none, Bool.and_false]

/-! ## Requests -/

section Controller

variable (c : Controller)

/-- `api_request`, of a request that does `f` to the pods. -/
def apiRequest (f : Namespace → Namespace) (s : Namespace) : Int × Namespace :=
  if c.requests then (0, f s) else (-1, s)

/-- `get_pods_in_namespace`. -/
def getPodsInNamespace (s : Namespace) : Option (List Pod) := if c.requests then some s.pods else none

/-- The name of the pod of an index, in a buffer of 256 bytes. -/
def podName (dep : CString) (index : Nat) : CString :=
  CString.snprintf 256 (dep ++ CString.ofString "-pod-" ++ CString.ofNat index)

/-- The pod that `create_pod_for_deployment` posts. -/
def deploymentPod (dep image : CString) (index : Nat) : Pod where
  name := podName dep index
  deployment := some dep
  podIndex := some index
  image := image
  running := false

/-- `create_pod_for_deployment`. -/
def createPodForDeployment (s : Namespace) (dep image : CString) (index : Nat) : Int × Namespace :=
  apiRequest c (fun s => s.post (deploymentPod dep image index)) s

/-- `delete_pod`. -/
def deletePod (s : Namespace) (name : CString) : Int × Namespace := apiRequest c (fun s => s.delete name) s

/-- `count_deployment_pods`: all of them, and those that run. -/
def countDeploymentPods (s : Namespace) (dep : CString) : Option (Nat × Nat) :=
  (getPodsInNamespace c s).map fun items =>
    (items.countP (Pod.labelled dep), items.countP fun pod => pod.labelled dep && pod.running)

/-! ## Create and delete -/

/-- `deployment_create_replicas`. -/
def createReplicas (s : Namespace) (dep image : CString) (desired : Int) : Namespace :=
  match countDeploymentPods c s dep with
  | none => s
  | some (total, _) => (List.range (desired - total).toNat).foldl
      (fun s i => (createPodForDeployment c s dep image (total + i)).2) s

/-- The loop of `deployment_delete_excess_pods` over the items of the list, which are `count`: `total` pods of
the deployment were seen, and `deleted` of them deleted. -/
def deleteExcessLoop (dep : CString) (desired count : Int) : List Pod → Int → Int → Namespace → Namespace
  | [], _, _, s => s
  | pod :: items, total, deleted, s =>
    if deleted < count - desired then
      if pod.labelled dep then
        if total + 1 > desired then
          deleteExcessLoop dep desired count items (total + 1) (deleted + 1) (deletePod c s pod.name).2
        else deleteExcessLoop dep desired count items (total + 1) deleted s
      else deleteExcessLoop dep desired count items total deleted s
    else s

/-- `deployment_delete_excess_pods`. -/
def deleteExcessPods (s : Namespace) (dep : CString) (desired : Int) : Namespace :=
  match getPodsInNamespace c s with
  | none => s
  | some items => deleteExcessLoop c dep desired items.length items 0 0 s

/-- The create and delete step of `deployment_reconcile_loop`. -/
def reconcile (s : Namespace) (dep image : CString) (desired : Int) : Namespace :=
  match countDeploymentPods c s dep with
  | none => s
  | some (current, _) =>
    if current < desired then createReplicas c s dep image desired
    else if current > desired then deleteExcessPods c s dep desired
    else s

end Controller

variable {c : Controller} {s : Namespace} {dep image : CString} {desired : Int}

theorem Namespace.pods_delete {name : CString} :
    (s.delete name).pods = s.pods.filter fun pod => pod.name ≠ name := rfl

theorem Namespace.pods_foldl_post {pods : List Pod} :
    (pods.foldl Namespace.post s).pods = pods.foldl (fun l pod => l.put Pod.name pod) s.pods := by
  induction pods generalizing s with
  | nil => rfl
  | cons pod pods ih => exact ih

/-! ## One pass -/

/-- **One pass converges**: from `s` to `s'`. -/
structure Converged (dep : CString) (desired : Int) (s s' : Namespace) : Prop where
  /-- There are as many pods of the deployment as are desired. -/
  count : s'.count dep = desired
  /-- No pod is replaced. -/
  kept : ∀ pod ∈ s.pods, ∀ pod' ∈ s'.pods, pod'.name = pod.name → pod' = pod
  /-- None is deleted unless there are too many. -/
  stays : s.count dep ≤ desired → ∀ pod ∈ s.pods, pod ∈ s'.pods
  /-- The pods of others are as they were. -/
  others : ∀ pod, pod.labelled dep = false → (pod ∈ s'.pods ↔ pod ∈ s.pods)

/-- A pass that does nothing converges if there is nothing to do. -/
theorem converged_same_iff : Converged dep desired s s ↔ s.count dep = desired := by
  refine ⟨Converged.count, fun h => ⟨h, ?_, fun _ _ hpod => hpod, fun _ _ => Iff.rfl⟩⟩
  exact fun pod hpod pod' hpod' hname => List.inj_on_of_nodup_map s.distinct hpod' hpod hname

/-- The names that are given to the missing pods. -/
def newNames (dep : CString) (total : Nat) (desired : Int) : List CString :=
  (List.range (desired - total).toNat).map fun i => podName dep (total + i)

/-- The names of the missing pods are distinct, and no pod of the namespace has one of them. -/
structure NamesFree (s : Namespace) (dep : CString) (desired : Int) : Prop where
  nodup : (newNames dep (s.count dep) desired).Nodup
  free : ∀ pod ∈ s.pods, pod.name ∉ newNames dep (s.count dep) desired

/-- The pods that are missing up to the desired number. -/
def missingPods (dep image : CString) (total : Nat) (desired : Int) : List Pod :=
  (List.range (desired - total).toNat).map fun i => deploymentPod dep image (total + i)

theorem labelled_of_mem_missingPods {total : Nat} {pod : Pod} (h : pod ∈ missingPods dep image total desired) :
    pod.labelled dep = true := by
  obtain ⟨i, -, rfl⟩ := List.mem_map.mp h
  exact beq_self_eq_true _

theorem map_name_missingPods (image : CString) {total : Nat} :
    (missingPods dep image total desired).map Pod.name = newNames dep total desired := List.map_map

/-- The pods of the deployment beyond the desired number, in the order of the list. -/
def excessPods (s : Namespace) (dep : CString) (d : Nat) : List Pod :=
  (s.pods.filter (Pod.labelled dep)).drop d

/-! ## Requests that are sent -/

section Sent

variable (hc : c.requests = true)

include hc

theorem apiRequest_of_requests (f : Namespace → Namespace) : apiRequest c f s = (0, f s) := if_pos hc

theorem getPodsInNamespace_of_requests : getPodsInNamespace c s = some s.pods := if_pos hc

theorem countDeploymentPods_of_requests : countDeploymentPods c s dep =
    some (s.count dep, s.pods.countP fun pod => pod.labelled dep && pod.running) := by
  rw [countDeploymentPods, getPodsInNamespace_of_requests hc]
  rfl

/-! ## Too many pods -/

/-- **The delete loop**: the pods of the deployment beyond the desired number are deleted. -/
theorem deleteExcessLoop_pods (dep : CString) {d count : Nat} (hd : d < count) (items : List Pod) (total : Nat)
    (s : Namespace)
    (htotal : total + items.length ≤ count) :
    (deleteExcessLoop c dep d count items total (total - d : Nat) s).pods =
      s.pods.filter fun pod =>
        pod.name ∉ ((items.filter (Pod.labelled dep)).drop (d - total)).map Pod.name := by
  induction items generalizing total s with
  | nil => simp [deleteExcessLoop]
  | cons pod items ih =>
    rw [List.length_cons] at htotal
    have hguard : ((total - d : Nat) : Int) < count - d := by omega
    rw [deleteExcessLoop, if_pos hguard]
    by_cases hlabel : pod.labelled dep = true
    · rw [if_pos hlabel, List.filter_cons_of_pos hlabel]
      by_cases hmore : (total : Int) + 1 > d
      · have hdeleted : ((total - d : Nat) : Int) + 1 = ((total + 1 - d : Nat) : Int) := by omega
        have hnone : d - total = 0 := by omega
        have hnone' : d - (total + 1) = 0 := by omega
        rw [if_pos hmore, hdeleted, deletePod, apiRequest_of_requests hc]
        refine (ih (total + 1) _ (by omega)).trans ?_
        rw [hnone, hnone', List.drop_zero, List.drop_zero, Namespace.pods_delete, List.filter_filter]
        refine List.filter_congr fun p _ => ?_
        simp only [List.map_cons, List.mem_cons, not_or, ← Bool.decide_and]
        exact decide_eq_decide.mpr and_comm
      · have hdeleted : ((total - d : Nat) : Int) = ((total + 1 - d : Nat) : Int) := by omega
        have hdrop : d - total = (d - (total + 1)) + 1 := by omega
        rw [if_neg hmore, hdeleted, hdrop, List.drop_succ_cons]
        exact ih (total + 1) _ (by omega)
    · rw [if_neg hlabel, List.filter_cons_of_neg hlabel]
      exact ih total s (by omega)

theorem mem_deleteExcessPods {d : Nat} (hd : d < s.count dep) {pod : Pod} :
    pod ∈ (deleteExcessPods c s dep d).pods ↔ pod ∈ s.pods ∧ pod ∉ excessPods s dep d := by
  have hcount : d < s.pods.length := hd.trans_le List.countP_le_length
  have hpods := deleteExcessLoop_pods hc dep hcount s.pods 0 s (by omega)
  rw [Nat.zero_sub, Nat.sub_zero] at hpods
  rw [deleteExcessPods, getPodsInNamespace_of_requests hc]
  change pod ∈ (deleteExcessLoop c dep d s.pods.length s.pods ((0 : Nat) : Int) ((0 : Nat) : Int) s).pods ↔ _
  rw [hpods, List.mem_filter, decide_eq_true_iff]
  refine and_congr_right fun hpod => not_congr ?_
  -- names are distinct, so a pod of the table with the name of an excess pod is that pod
  rw [List.mem_map]
  constructor
  · rintro ⟨excess, hexcess, hname⟩
    have hmem : excess ∈ s.pods := List.mem_of_mem_filter (List.mem_of_mem_drop hexcess)
    exact List.inj_on_of_nodup_map s.distinct hmem hpod hname ▸ hexcess
  · exact fun h => ⟨pod, h, rfl⟩

theorem count_deleteExcessPods {d : Nat} (hd : d < s.count dep) :
    (deleteExcessPods c s dep d).count dep = d := by
  have hnodup : (s.pods.filter (Pod.labelled dep)).Nodup := (List.Nodup.of_map _ s.distinct).filter _
  have hperm : ((deleteExcessPods c s dep d).pods.filter (Pod.labelled dep)).Perm
      ((s.pods.filter (Pod.labelled dep)).take d) := by
    refine (List.perm_ext_iff_of_nodup ((List.Nodup.of_map _ (deleteExcessPods c s dep d).distinct).filter _)
      (hnodup.sublist (List.take_sublist d _))).mpr fun pod => ?_
    rw [List.mem_filter, mem_deleteExcessPods hc hd, and_right_comm, ← List.mem_filter, excessPods]
    constructor
    · rintro ⟨hmem, hnot⟩
      rw [← List.take_append_drop d (s.pods.filter _), List.mem_append] at hmem
      exact hmem.resolve_right hnot
    · intro htake
      exact ⟨List.mem_of_mem_take htake, fun hdrop => List.disjoint_take_drop hnodup (le_refl d) htake hdrop⟩
  show (deleteExcessPods c s dep d).pods.countP (Pod.labelled dep) = d
  rw [List.countP_eq_length_filter, hperm.length_eq, List.length_take, ← List.countP_eq_length_filter]
  exact Nat.min_eq_left (Nat.le_of_lt hd)

/-! ## Missing pods -/

theorem createReplicas_of_requests : createReplicas c s dep image desired =
    (missingPods dep image (s.count dep) desired).foldl Namespace.post s := by
  rw [createReplicas, countDeploymentPods_of_requests hc, missingPods, List.foldl_map]
  simp only [createPodForDeployment, apiRequest_of_requests hc]

theorem pods_createReplicas : (createReplicas c s dep image desired).pods =
    (missingPods dep image (s.count dep) desired).foldl
      (fun l pod => l.put Pod.name pod) s.pods := by
  rw [createReplicas_of_requests hc]
  exact Namespace.pods_foldl_post

/-- **The number is reached** exactly if no new pod replaces another new pod or one of the deployment. -/
theorem count_createReplicas_iff (h : s.count dep < desired) :
    (createReplicas c s dep image desired).count dep = desired ↔
      (newNames dep (s.count dep) desired).Nodup ∧
        ∀ pod ∈ s.pods, pod.labelled dep = true → pod.name ∉ newNames dep (s.count dep) desired := by
  have hlength : (missingPods dep image (s.count dep) desired).length =
      desired - s.count dep := by
    rw [missingPods, List.length_map, List.length_range]
    omega
  have hlabelled : ∀ pod ∈ missingPods dep image (s.count dep) desired, pod.labelled dep = true :=
    fun _ => labelled_of_mem_missingPods
  have hcount := List.countP_foldl_put_eq_iff s.distinct hlabelled
  rw [map_name_missingPods image, ← pods_createReplicas hc] at hcount
  refine Iff.trans ?_ hcount
  show (((createReplicas c s dep image desired).pods.countP (Pod.labelled dep) : Nat) : Int) = desired ↔ _
  show _ ↔ _ = s.count dep + _
  omega

/-- Where the names are free, the new pods stand beside those that were there. -/
theorem mem_createReplicas (h : NamesFree s dep desired) {pod : Pod} :
    pod ∈ (createReplicas c s dep image desired).pods ↔
      pod ∈ missingPods dep image (s.count dep) desired ∨ pod ∈ s.pods := by
  have hnodup : ((missingPods dep image (s.count dep) desired).map Pod.name).Nodup :=
    map_name_missingPods image ▸ h.nodup
  rw [pods_createReplicas hc, List.mem_foldl_put fun x hx y hy => List.inj_on_of_nodup_map hnodup hx hy,
    map_name_missingPods image]
  exact or_congr_right (and_iff_left_of_imp (h.free pod))

/-- **Missing pods**: the pass converges exactly if their names are free. -/
theorem converged_createReplicas_iff (h : s.count dep < desired) :
    Converged dep desired s (createReplicas c s dep image desired) ↔ NamesFree s dep desired := by
  constructor
  · intro hconverged
    obtain ⟨hnodup, hfree⟩ := (count_createReplicas_iff hc h).mp hconverged.count
    refine ⟨hnodup, fun pod hpod => ?_⟩
    by_cases hlabel : pod.labelled dep = true
    · exact hfree pod hpod hlabel
    · -- a pod of another deployment is still there, so it was not replaced
      rw [Bool.not_eq_true] at hlabel
      have hstill := (hconverged.others pod hlabel).mpr hpod
      rw [pods_createReplicas hc] at hstill
      rcases List.of_mem_foldl_put hstill with hmissing | ⟨-, hname⟩
      · exact absurd (labelled_of_mem_missingPods hmissing) (by rw [hlabel]; exact Bool.false_ne_true)
      · rwa [map_name_missingPods image] at hname
  · intro hnames
    refine ⟨?_, ?_, fun _ pod hpod => (mem_createReplicas hc hnames).mpr (.inr hpod), ?_⟩
    · exact (count_createReplicas_iff hc h).mpr ⟨hnames.nodup, fun pod hpod _ => hnames.free pod hpod⟩
    · intro pod hpod pod' hpod' hname
      rcases (mem_createReplicas hc hnames).mp hpod' with hmissing | hold
      · refine absurd ?_ (hnames.free pod hpod)
        rw [← hname, ← map_name_missingPods image]
        exact List.mem_map_of_mem hmissing
      · exact List.inj_on_of_nodup_map s.distinct hold hpod hname
    · intro pod hlabel
      rw [mem_createReplicas hc hnames]
      refine or_iff_right fun hmissing => ?_
      rw [labelled_of_mem_missingPods hmissing] at hlabel
      cases hlabel

/-- **Too many pods**: the pass converges. -/
theorem converged_deleteExcessPods {d : Nat} (h : d < s.count dep) :
    Converged dep d s (deleteExcessPods c s dep d) := by
  refine ⟨congrArg Nat.cast (count_deleteExcessPods hc h), ?_, ?_, ?_⟩
  · intro pod hpod pod' hpod' hname
    exact List.inj_on_of_nodup_map s.distinct ((mem_deleteExcessPods hc h).mp hpod').1 hpod hname
  · intro hle
    omega
  · intro pod hlabel
    rw [mem_deleteExcessPods hc h]
    refine and_iff_left fun hexcess => ?_
    have hlabelled := List.of_mem_filter (List.mem_of_mem_drop hexcess)
    rw [hlabelled] at hlabel
    cases hlabel

/-- **One pass whose requests are sent** converges exactly where the desired number is not negative and, if pods are
missing, their names are free. -/
theorem converged_iff_of_requests :
    Converged dep desired s (reconcile c s dep image desired) ↔
      0 ≤ desired ∧ (s.count dep < desired → NamesFree s dep desired) := by
  rw [reconcile, countDeploymentPods_of_requests hc]
  dsimp only
  split
  · rename_i hmissing
    rw [converged_createReplicas_iff hc hmissing]
    exact ⟨fun h => ⟨by omega, fun _ => h⟩, fun h => h.2 hmissing⟩
  · rename_i hnot
    split
    · rename_i hexcess
      refine ⟨fun h => ⟨?_, fun hlt => absurd hlt hnot⟩, fun h => ?_⟩
      · rw [← h.count]
        exact Int.natCast_nonneg _
      · obtain ⟨d, rfl⟩ := Int.eq_ofNat_of_zero_le h.1
        exact converged_deleteExcessPods hc (Int.ofNat_lt.mp hexcess)
    · have heq : (s.count dep : Int) = desired := by omega
      exact iff_of_true (converged_same_iff.mpr heq) ⟨by omega, fun hlt => absurd hlt hnot⟩

end Sent

/-- A deployment of three pods that lost the first one. -/
def webPods : Namespace where
  pods := [deploymentPod "web" "nginx" 1, deploymentPod "web" "nginx" 2]
  distinct := by decide

/-- The hole would never be filled: the missing pod gets the index 2, and replaces the pod that has it. -/
example : (reconcile ⟨true, some "http://localhost:8080"⟩ webPods "web" "nginx" 3).count "web" = 2 := by decide

/-! ## The pass of the program -/

/-- **One pass converges, exactly**, in every state of the static variables, where there are as many pods of the
deployment as are desired before it. -/
theorem converged_iff (calls : List ControllerCall) :
    Converged dep desired s (reconcile (Runs.run Controller.call .start calls) s dep image desired) ↔
      s.count dep = desired := by
  rw [reconcile, countDeploymentPods, getPodsInNamespace, requests_run]
  exact converged_same_iff

/-- **Nothing is created**: the controller runs, three pods are desired, and there are still two. -/
theorem missing_pod_stays :
    ¬ ∀ (calls : List ControllerCall) (s : Namespace) (dep image : CString) (desired : Int),
      Converged dep desired s (reconcile (Runs.run Controller.call .start calls) s dep image desired) := by
  intro h
  exact absurd (h [.init true, .run] webPods "web" "nginx" 3).count (by decide)

end Sirah.Deployment
