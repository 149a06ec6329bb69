import Mathlib.Data.List.Perm.Subperm
import Sirah.Deployment.Deployment
import Sirah.Lib.Run

/-!
# Rolling updates

Model of `deployment_rolling_update` of `internal/controller/deployment.c`. For a deployment of `n` pods the
loop creates a pod of the new image under the index `n + updated`, and then, except in its last round,
lists the pods and deletes the first one of the deployment, whatever its image is.

A LIST may return the pods in any order (`Listing`).

* `RolledOut`: the update ends with `n` pods, all of the new image, and the number of pods stays within the
  surge and the unavailability that are allowed.
* **`not_rolledOut`**: it never does, as the first LIST is not sent.
* `rolledOut_iff_of_requests`: if the requests were sent, it would in every order of the lists **iff** the
  deployment has one pod, under the index 1.
* `one_too_many`: where the new names are free it would end with one pod too many, in every order.
-/

namespace Sirah.Deployment

open Runs

/-! ## The loop -/

/-- The order in which each LIST returns the pods. -/
structure Listing where
  order : Nat → List Pod → List Pod
  perm : ∀ round pods, (order round pods).Perm pods

section Loop

variable (c : Controller) (dep image : CString) (n : Nat) (listing : Listing)

/-- The first pod of the deployment in the list is deleted. -/
def deleteFirst (s : Namespace) (items : List Pod) : Namespace :=
  match items.find? (Pod.labelled dep) with
  | some pod => (deletePod c s pod.name).2
  | none => s

/-- A round creates a pod of the new image. -/
def surge (s : Namespace) (updated : Nat) : Namespace := (createPodForDeployment c s dep image (n + updated)).2

/-- A round of the loop. The last one deletes nothing. -/
def round (s : Namespace) (updated : Nat) : Namespace :=
  if updated + 1 < n then
    match getPodsInNamespace c (surge c dep image n s updated) with
    | some items => deleteFirst c dep (surge c dep image n s updated) (listing.order updated items)
    | none => surge c dep image n s updated
  else surge c dep image n s updated

/-- `deployment_rolling_update`. -/
def rollingUpdate (s : Namespace) : Namespace :=
  match countDeploymentPods c s dep with
  | none => s
  | some (total, _) => run (round c dep image total listing) s (List.range total)

end Loop

/-- The number of pods is within what is allowed. -/
def Sized (dep : CString) (n maxSurge maxUnavailable : Nat) (s : Namespace) : Prop :=
  n ≤ s.count dep + maxUnavailable ∧ s.count dep ≤ n + maxSurge

/-- **The update is rolled out**: all pods are replaced, and between any two calls their number is within
what is allowed. -/
structure RolledOut (c : Controller) (s : Namespace) (dep image : CString) (listing : Listing)
    (maxSurge maxUnavailable : Nat) : Prop where
  size : (rollingUpdate c dep image listing s).count dep = s.count dep
  updated : ∀ pod ∈ (rollingUpdate c dep image listing s).pods, pod.labelled dep = true → pod.image = image
  /-- Between two rounds. -/
  rounds : AllStates (round c dep image (s.count dep) listing)
    (Sized dep (s.count dep) maxSurge maxUnavailable) s (List.range (s.count dep))
  /-- Between the calls of a round. -/
  surges : AllSteps (round c dep image (s.count dep) listing)
    (fun t updated => Sized dep (s.count dep) maxSurge maxUnavailable
      (surge c dep image (s.count dep) t updated)) s (List.range (s.count dep))

/-- No pod of the deployment has the new image. -/
def NoneUpdated (dep image : CString) (s : Namespace) : Prop :=
  ∀ pod ∈ s.pods, pod.labelled dep = true → pod.image ≠ image

variable {c : Controller} {s : Namespace} {dep image : CString} {n updated : Nat} {listing : Listing} {pod : Pod}

/-! ## The update of the program -/

/-- **Never rolled out**: in every state of the static variables the update leaves the old pods as they are. -/
theorem not_rolledOut (calls : List ControllerCall) {maxSurge maxUnavailable : Nat} (hold : NoneUpdated dep image s)
    (hsome : 1 ≤ s.count dep) :
    ¬ RolledOut (run Controller.call .start calls) s dep image listing maxSurge maxUnavailable := by
  intro h
  have hsame : rollingUpdate (run Controller.call .start calls) dep image listing s = s := by
    rw [rollingUpdate, countDeploymentPods, getPodsInNamespace, requests_run]
    rfl
  have hupdated := h.updated
  rw [hsame] at hupdated
  obtain ⟨pod, hpod, hlabel⟩ := List.countP_pos_iff.mp hsome
  exact hold pod hpod hlabel (hupdated pod hpod hlabel)

/-- A deployment of one pod of the old image. -/
def singlePod (index : Nat) : Namespace where
  pods := [deploymentPod "web" "nginx:1.24" index]
  distinct := List.nodup_singleton _

theorem singlePod_old (index : Nat) : NoneUpdated "web" "nginx:1.25" (singlePod index) := by
  intro pod hpod _
  rw [List.mem_singleton.mp hpod]
  change CString.ofString "nginx:1.24" ≠ CString.ofString "nginx:1.25"
  decide

/-- The lists as the table has them. -/
def tableOrder : Listing := ⟨fun _ pods => pods, fun _ _ => List.Perm.refl _⟩

theorem singlePod_not_rolledOut :
    ¬ RolledOut (run Controller.call .start [.init true, .run]) (singlePod 1) "web" "nginx:1.25" tableOrder 1 0 :=
  not_rolledOut [.init true, .run] (singlePod_old 1) (by decide)

/-- **The old pod stays**, also that of a deployment of one. -/
theorem old_pod_stays :
    ¬ ∀ (calls : List ControllerCall) (s : Namespace) (dep image : CString) (listing : Listing)
      (maxSurge maxUnavailable : Nat), NoneUpdated dep image s → 1 ≤ s.count dep → 1 ≤ maxSurge →
        RolledOut (run Controller.call .start calls) s dep image listing maxSurge maxUnavailable := by
  intro h
  have hupdated := (h [.init true, .run] (singlePod 0) "web" "nginx:1.25" tableOrder 1 0 (singlePod_old 0) (by decide)
    (Nat.le_refl 1)).updated
  exact absurd (hupdated _ (List.mem_singleton_self _) (by decide)) (by decide)

/-! ## Requests that are sent -/

section Sent

variable (hc : c.requests = true)

include hc

theorem surge_of_requests : surge c dep image n s updated = s.post (deploymentPod dep image (n + updated)) := by
  rw [surge, createPodForDeployment, apiRequest_of_requests hc]

theorem round_of_requests : round c dep image n listing s updated =
    if updated + 1 < n then deleteFirst c dep (surge c dep image n s updated)
      (listing.order updated (surge c dep image n s updated).pods)
    else surge c dep image n s updated := by
  rw [round, getPodsInNamespace_of_requests hc]

theorem rollingUpdate_of_requests : rollingUpdate c dep image listing s =
    run (round c dep image (s.count dep) listing) s (List.range (s.count dep)) := by
  rw [rollingUpdate, countDeploymentPods_of_requests hc]

theorem mem_surge : pod ∈ (surge c dep image n s updated).pods ↔
    pod = deploymentPod dep image (n + updated) ∨ pod ∈ s.pods ∧ pod.name ≠ podName dep (n + updated) := by
  rw [surge_of_requests hc]
  exact List.mem_put

omit hc in
theorem labelled_deploymentPod {index : Nat} : (deploymentPod dep image index).labelled dep = true :=
  beq_self_eq_true _

/-- **A round adds one pod** unless it replaces one of the deployment. -/
theorem count_surge : (surge c dep image n s updated).count dep =
    s.count dep +
      if ∃ pod ∈ s.pods, pod.labelled dep = true ∧ pod.name = podName dep (n + updated) then 0 else 1 := by
  rw [surge_of_requests hc]
  exact List.countP_put s.distinct labelled_deploymentPod

omit hc in
theorem run_range_succ {k : Nat} : run (round c dep image n listing) s (List.range (k + 1)) =
    round c dep image n listing (run (round c dep image n listing) s (List.range k)) k := by
  rw [List.range_succ, run_append]
  rfl

/-! ## One pod under the index 1 -/

omit hc in
theorem eq_of_count_eq_one {pod' : Pod} (h : s.count dep = 1) (hpod : pod ∈ s.pods)
    (hlabel : pod.labelled dep = true) (hpod' : pod' ∈ s.pods) (hlabel' : pod'.labelled dep = true) :
    pod = pod' := by
  have hlength : (s.pods.filter (Pod.labelled dep)).length = 1 := List.countP_eq_length_filter.symm.trans h
  obtain ⟨only, honly⟩ := List.length_eq_one_iff.mp hlength
  have heq : ∀ {p : Pod}, p ∈ s.pods → p.labelled dep = true → p = only := fun hp hl =>
    List.mem_singleton.mp (honly ▸ List.mem_filter.mpr ⟨hp, hl⟩)
  rw [heq hpod hlabel, heq hpod' hlabel']

/-- **One pod that is replaced**: the deployment has the one pod, and it has the name of the index 1. -/
def OnlyIndexOne (s : Namespace) (dep : CString) : Prop :=
  s.count dep = 1 ∧ ∃ pod ∈ s.pods, pod.labelled dep = true ∧ pod.name = podName dep 1

theorem rolledOut_of_onlyIndexOne {maxSurge maxUnavailable : Nat} (h : OnlyIndexOne s dep) :
    RolledOut c s dep image listing maxSurge maxUnavailable := by
  obtain ⟨hone, old, hold, hlabel, hname⟩ := h
  have hsurge : (surge c dep image 1 s 0).count dep = 1 := by
    rw [count_surge hc, if_pos ⟨old, hold, hlabel, hname⟩, hone]
  have hround : round c dep image 1 listing s 0 = surge c dep image 1 s 0 := if_neg (Nat.lt_irrefl 1)
  have hsized : ∀ {t : Namespace}, t.count dep = 1 →
      Sized dep 1 maxSurge maxUnavailable t := by
    intro t ht
    rw [Sized, ht]
    omega
  have hrange : List.range (s.count dep) = [0] := by
    rw [hone]
    rfl
  have hend : rollingUpdate c dep image listing s = surge c dep image 1 s 0 := by
    rw [rollingUpdate_of_requests hc, hrange, hone, run_cons, run_nil, hround]
  constructor
  · rw [hend, hsurge, hone]
  · rw [hend]
    intro pod hpod hlabelled
    rcases (mem_surge hc).mp hpod with rfl | ⟨hmem, hne⟩
    · rfl
    · -- the deployment has one pod, and this one has another name than the one that is replaced
      refine absurd ?_ hne
      rw [eq_of_count_eq_one hone hmem hlabelled hold hlabel]
      exact hname
  · rw [hrange, hone]
    refine ⟨hsized hone, ?_⟩
    rw [hround]
    exact hsized hsurge
  · rw [hrange, hone]
    exact ⟨hsized hsurge, trivial⟩

/-! ## The new pods first -/

/-- The order in which each LIST begins with the pod that was created last. -/
def newestFirst (dep : CString) (n : Nat) : Listing where
  order round pods := pods.filter (fun pod => pod.name == podName dep (n + round)) ++
    pods.filter fun pod => !(pod.name == podName dep (n + round))
  perm _ _ := List.filter_append_perm _ _

/-- **What is created is deleted** in such an order. -/
theorem mem_round_newestFirst (hround : updated + 1 < n)
    (hpod : pod ∈ (round c dep image n (newestFirst dep n) s updated).pods) : pod ∈ s.pods := by
  rw [round_of_requests hc, if_pos hround] at hpod
  have hcreated : deploymentPod dep image (n + updated) ∈ (surge c dep image n s updated).pods.filter
      fun pod => pod.name == podName dep (n + updated) :=
    List.mem_filter.mpr ⟨(mem_surge hc).mpr (.inl rfl), beq_self_eq_true _⟩
  cases hfind : ((surge c dep image n s updated).pods.filter
      fun pod => pod.name == podName dep (n + updated)).find? (Pod.labelled dep) with
  | none => exact absurd labelled_deploymentPod (List.find?_eq_none.mp hfind _ hcreated)
  | some victim =>
    have hname : victim.name = podName dep (n + updated) :=
      beq_iff_eq.mp (List.of_mem_filter (p := fun pod : Pod => pod.name == podName dep (n + updated))
        (List.mem_of_find?_eq_some hfind))
    have hdelete : deleteFirst c dep (surge c dep image n s updated)
        ((newestFirst dep n).order updated (surge c dep image n s updated).pods) =
        (surge c dep image n s updated).delete victim.name := by
      rw [deleteFirst, newestFirst, List.find?_append, hfind]
      change (deletePod c _ victim.name).2 = _
      rw [deletePod, apiRequest_of_requests hc]
    rw [hdelete, hname] at hpod
    obtain ⟨hmem, hne⟩ := List.mem_without.mp hpod
    rcases (mem_surge hc).mp hmem with rfl | ⟨hold, -⟩
    · exact absurd rfl hne
    · exact hold

theorem noneUpdated_run (h : NoneUpdated dep image s) {k : Nat} (hk : k < n) :
    NoneUpdated dep image (run (round c dep image n (newestFirst dep n)) s (List.range k)) := by
  induction k with
  | zero => exact h
  | succ k ih =>
    rw [run_range_succ]
    exact fun pod hpod => ih (by omega) pod (mem_round_newestFirst hc hk hpod)

/-- **The last round** leaves one pod of the new image if there was none before it. -/
theorem count_le_one_of_updated (h : NoneUpdated dep image s)
    (hupdated : ∀ pod ∈ (surge c dep image n s updated).pods, pod.labelled dep = true → pod.image = image) :
    (surge c dep image n s updated).count dep ≤ 1 := by
  have honly : (surge c dep image n s updated).pods.filter (Pod.labelled dep) ⊆
      [deploymentPod dep image (n + updated)] := by
    intro pod hpod
    obtain ⟨hmem, hlabel⟩ := List.mem_filter.mp hpod
    rcases (mem_surge hc).mp hmem with rfl | ⟨hold, -⟩
    · exact List.mem_singleton_self _
    · exact absurd (hupdated pod hmem hlabel) (h pod hold hlabel)
  have hnodup := (List.Nodup.of_map _ (surge c dep image n s updated).distinct).filter (Pod.labelled dep)
  exact List.countP_eq_length_filter.trans_le (List.subperm_of_subset hnodup honly).length_le

/-- **With two pods or more** old ones are left. -/
theorem not_rolledOut_newestFirst {maxSurge maxUnavailable : Nat} (h : NoneUpdated dep image s)
    (hn : 2 ≤ s.count dep) :
    ¬ RolledOut c s dep image (newestFirst dep (s.count dep)) maxSurge maxUnavailable := by
  intro hrolled
  have hsize := hrolled.size
  have hupdated := hrolled.updated
  rw [rollingUpdate_of_requests hc] at hsize hupdated
  generalize s.count dep = n at hn hsize hupdated
  obtain ⟨k, rfl⟩ : ∃ k, n = k + 1 := ⟨n - 1, by omega⟩
  have hlast : ∀ t, round c dep image (k + 1) (newestFirst dep (k + 1)) t k = surge c dep image (k + 1) t k :=
    fun _ => if_neg (Nat.lt_irrefl _)
  rw [run_range_succ, hlast] at hsize hupdated
  have hle := count_le_one_of_updated hc (noneUpdated_run hc h (Nat.lt_add_one k)) hupdated
  omega

/-- **An update whose requests are sent** is rolled out, for a deployment of old pods and in every order of the
lists, **iff** the deployment has one pod, under the name of the index 1. -/
theorem rolledOut_iff_of_requests {maxSurge maxUnavailable : Nat} (hold : NoneUpdated dep image s)
    (hsome : 1 ≤ s.count dep) :
    (∀ listing, RolledOut c s dep image listing maxSurge maxUnavailable) ↔ OnlyIndexOne s dep := by
  refine ⟨fun h => ?_, fun h _ => rolledOut_of_onlyIndexOne hc h⟩
  rcases Nat.lt_or_eq_of_le hsome with hmany | hone
  · exact absurd (h _) (not_rolledOut_newestFirst hc hold hmany)
  · -- the one pod is replaced, or there are two
    have hsize := (h (newestFirst dep 1)).size
    rw [rollingUpdate_of_requests hc] at hsize
    rw [← hone, run_range_succ, round, if_neg (Nat.lt_irrefl _), count_surge hc, List.range_zero, run_nil,
      ← hone] at hsize
    refine ⟨hone.symm, ?_⟩
    by_contra hnone
    rw [if_neg hnone] at hsize
    cases hsize

/-! ## One pod too many -/

/-- The names of the rounds that are to come. -/
def roundNames (dep : CString) (n k : Nat) : List CString := (List.range' k (n - k)).map fun i => podName dep (n + i)

omit hc in
theorem roundNames_eq_cons {k : Nat} (hk : k < n) :
    roundNames dep n k = podName dep (n + k) :: roundNames dep n (k + 1) := by
  have hsub : n - k = (n - (k + 1)) + 1 := by omega
  rw [roundNames, hsub, List.range'_succ, List.map_cons]
  rfl

/-- No pod of the deployment has one of the names. -/
def Unnamed (dep : CString) (names : List CString) (s : Namespace) : Prop :=
  ∀ pod ∈ s.pods, pod.labelled dep = true → pod.name ∉ names

/-- A round under a name that is free adds a pod, and takes none of the names to come. -/
theorem unnamed_surge {names : List CString}
    (h : Unnamed dep (podName dep (n + updated) :: names) s) (hnew : podName dep (n + updated) ∉ names)
    (image : CString) :
    (surge c dep image n s updated).count dep = s.count dep + 1 ∧
      Unnamed dep names (surge c dep image n s updated) := by
  constructor
  · rw [count_surge hc, if_neg]
    rintro ⟨pod, hpod, hlabel, hname⟩
    exact h pod hpod hlabel (hname ▸ List.mem_cons_self)
  · intro pod hpod hlabel
    rcases (mem_surge hc).mp hpod with rfl | ⟨hold, -⟩
    · exact hnew
    · exact fun hmem => h pod hold hlabel (List.mem_cons_of_mem _ hmem)

/-- **A pod is deleted** as long as there is one, in every order of the list. -/
theorem count_deleteFirst {items : List Pod} (hperm : items.Perm s.pods) (hsome : 0 < s.count dep) :
    (deleteFirst c dep s items).count dep + 1 = s.count dep := by
  unfold deleteFirst
  cases hfind : items.find? (Pod.labelled dep) with
  | none =>
    obtain ⟨pod, hpod, hlabel⟩ := List.countP_pos_iff.mp hsome
    exact absurd hlabel (List.find?_eq_none.mp hfind pod (hperm.mem_iff.mpr hpod))
  | some victim =>
    dsimp only
    rw [deletePod, apiRequest_of_requests hc]
    exact List.countP_without s.distinct (hperm.mem_iff.mp (List.mem_of_find?_eq_some hfind))
      (List.find?_some hfind)

theorem mem_of_mem_deleteFirst {items : List Pod} (hpod : pod ∈ (deleteFirst c dep s items).pods) :
    pod ∈ s.pods := by
  unfold deleteFirst at hpod
  split at hpod
  · rw [deletePod, apiRequest_of_requests hc] at hpod
    exact (List.mem_without.mp hpod).1
  · exact hpod

/-- Before the last round there are as many pods as at the start. -/
theorem count_run (image : CString) (listing : Listing) (h : Unnamed dep (roundNames dep n 0) s)
    (hnodup : (roundNames dep n 0).Nodup) (hcount : s.count dep = n) {k : Nat} (hk : k < n) :
    (run (round c dep image n listing) s (List.range k)).count dep = n ∧
      Unnamed dep (roundNames dep n k) (run (round c dep image n listing) s (List.range k)) ∧
      (roundNames dep n k).Nodup := by
  induction k with
  | zero => exact ⟨hcount, h, hnodup⟩
  | succ k ih =>
    obtain ⟨hcount', hunnamed, hnodup'⟩ := ih (by omega)
    rw [roundNames_eq_cons (show k < n by omega)] at hunnamed hnodup'
    obtain ⟨hnew, hrest⟩ := List.nodup_cons.mp hnodup'
    obtain ⟨hsurge, hunnamed'⟩ := unnamed_surge hc hunnamed hnew image
    rw [run_range_succ, round_of_requests hc, if_pos hk]
    refine ⟨?_, fun pod hpod => hunnamed' pod (mem_of_mem_deleteFirst hc hpod), hrest⟩
    have hdelete := count_deleteFirst hc (listing.perm k _) (show 0 < (surge c dep image n
      (run (round c dep image n listing) s (List.range k)) k).count dep by omega)
    omega

/-- **One pod too many**: if the names of the rounds are distinct and free, the update ends with one pod
more than before, in every order of the lists. -/
theorem one_too_many (hsome : 1 ≤ s.count dep)
    (h : Unnamed dep (roundNames dep (s.count dep) 0) s)
    (hnodup : (roundNames dep (s.count dep) 0).Nodup) (listing : Listing) :
    (rollingUpdate c dep image listing s).count dep = s.count dep + 1 := by
  rw [rollingUpdate_of_requests hc]
  generalize hcount : s.count dep = n at *
  obtain ⟨k, rfl⟩ : ∃ k, n = k + 1 := ⟨n - 1, by omega⟩
  obtain ⟨hcount', hunnamed, hnodup'⟩ := count_run hc image listing h hnodup hcount
    (Nat.lt_add_one k)
  rw [roundNames_eq_cons (Nat.lt_add_one k)] at hunnamed hnodup'
  rw [run_range_succ, round, if_neg (Nat.lt_irrefl _),
    (unnamed_surge hc hunnamed (List.nodup_cons.mp hnodup').1 image).1, hcount']

end Sent

end Sirah.Deployment
