import Sirah.Lib.Json
import Sirah.Lib.KeyedTable

/-!
# The StatefulSet controller of the API server

Model of `statefulset_reconcile` in `internal/apiserver/controllers.c`, over the pods that the API server holds for the
namespace. Every call succeeds: a LIST returns the pods that the label selector `app=name` selects, and a POST creates the
named pod anew, in place of one that is there.

* The pods that the controller posts have no labels, so its next LIST does not return them.
* `Exact`: after one pass exactly the ordinals below the desired number exist, the pods that were there are the same,
  and a second pass changes nothing.
* **`reconcile_exact_iff`**: a pass is exact **iff** it has nothing to do: those ordinals and no others exist, and all of them
  have the label that nothing here sets.
* `created_again`: the second pass creates the pods again.
-/

namespace Sirah.StatefulSetController

/-! ## The pods of a namespace -/

/-- A pod: its name, the label `app`, and the identity that the server gives to what a POST creates. -/
structure Pod where
  name : CString
  app : Option CString
  uid : Nat
  deriving DecidableEq

/-- The pods of a namespace. -/
structure Namespace where
  pods : List Pod
  nextUid : Nat
  distinct : (pods.map Pod.name).Nodup

/-- POST of a pod without labels. -/
def Namespace.post (s : Namespace) (name : CString) : Namespace :=
  ⟨s.pods.put Pod.name ⟨name, none, s.nextUid⟩, s.nextUid + 1, List.nodup_put s.distinct⟩

/-- LIST with the selector `app=name`. -/
def Namespace.listApp (s : Namespace) (name : CString) : List Pod := s.pods.filter (·.app = some name)

/-! ## A pass -/

/-- What the pass patches into the status. -/
structure StatefulSetStatus where
  replicas : Int
  readyReplicas : Int
  deriving DecidableEq

/-- `desired_replicas`. -/
def desiredReplicas (ss : Json) : Int :=
  match (ss.get "spec").get "replicas" with
  | .null => 1
  | replicas => replicas.getInt

/-- The name of the pod with an ordinal. -/
def ordinalName (name : CString) (i : Nat) : CString := name ++ 45 :: CString.ofNat i

/-- `pod_name[256]`. -/
def podName (name : CString) (i : Nat) : CString := CString.snprintf 256 (ordinalName name i)

/-- The names that `statefulset_reconcile` posts: those that the list does not have. -/
def missing (name : CString) (desired : Int) (items : List Pod) : List CString :=
  ((List.range desired.toNat).map (podName name)).filter fun n => !items.any (·.name = n)

/-- `statefulset_reconcile`: the pods afterwards, and the status that it patches. It fails without a template. -/
def statefulsetReconcile (name : CString) (ss : Json) (s : Namespace) : Namespace × Option StatefulSetStatus :=
  match (ss.get "spec").get "template" with
  | .null => (s, none)
  | _ => ((missing name (desiredReplicas ss) (s.listApp name)).foldl Namespace.post s,
      some ⟨desiredReplicas ss, desiredReplicas ss⟩)

/-! ## Exactness -/

variable (name : CString) (ss : Json) (s : Namespace)

/-- Exactly the pods with an ordinal below the desired number exist. -/
def HasOrdinals : Prop :=
  ∀ i, (∃ pod ∈ s.pods, pod.name = ordinalName name i) ↔ (i : Int) < desiredReplicas ss

/-- **What a pass should do.** -/
structure Exact : Prop where
  ordinals : HasOrdinals name ss (statefulsetReconcile name ss s).1
  kept : ∀ i : Nat, (i : Int) < desiredReplicas ss → ∀ pod ∈ s.pods, pod.name = ordinalName name i →
    pod ∈ (statefulsetReconcile name ss s).1.pods
  idempotent : (statefulsetReconcile name ss (statefulsetReconcile name ss s).1).1.pods =
    (statefulsetReconcile name ss s).1.pods

/-- The condition on the pods. -/
structure NothingToDo : Prop where
  ordinals : HasOrdinals name ss s
  listed : (ss.get "spec").get "template" ≠ .null →
    ∀ i : Nat, (i : Int) < desiredReplicas ss → ∃ pod ∈ s.pods, pod.app = some name ∧ pod.name = podName name i

variable {name ss s}

/-! ## Creating pods -/

theorem nextUid_le_foldl (names : List CString) (s : Namespace) :
    s.nextUid ≤ (names.foldl Namespace.post s).nextUid := by
  induction names generalizing s with
  | nil => exact Nat.le_refl _
  | cons n names ih => exact (Nat.le_succ _).trans (ih (s.post n))

/-- **What is created** has no label and a new identity, and nothing else changes. -/
theorem mem_foldl_post {names : List CString} {s : Namespace} {pod : Pod}
    (h : pod ∈ (names.foldl Namespace.post s).pods) :
    pod ∈ s.pods ∧ pod.name ∉ names ∨ pod.name ∈ names ∧ pod.app = none ∧
      s.nextUid ≤ pod.uid ∧ pod.uid < (names.foldl Namespace.post s).nextUid := by
  induction names generalizing s with
  | nil => exact .inl ⟨h, List.not_mem_nil⟩
  | cons n names ih =>
    rw [List.mem_cons, not_or]
    rcases ih h with ⟨hmem, hnot⟩ | ⟨hname, happ, hle, hlt⟩
    · rcases List.mem_put.mp hmem with rfl | ⟨hmem, hne⟩
      · exact .inr ⟨.inl rfl, rfl, Nat.le_refl _, nextUid_le_foldl names (s.post n)⟩
      · exact .inl ⟨hmem, hne, hnot⟩
    · exact .inr ⟨.inr hname, happ, (Nat.le_succ _).trans hle, hlt⟩

/-- A name that is posted exists afterwards. -/
theorem exists_of_mem_foldl_post {names : List CString} {s : Namespace} {n : CString}
    (h : n ∈ names ∨ ∃ pod ∈ s.pods, pod.name = n) :
    ∃ pod ∈ (names.foldl Namespace.post s).pods, pod.name = n := by
  induction names generalizing s with
  | nil => exact h.resolve_left List.not_mem_nil
  | cons m names ih =>
    refine ih ?_
    by_cases hnm : n = m
    · subst hnm
      exact .inr ⟨_, List.mem_put.mpr (.inl rfl), rfl⟩
    · rcases h with hmem | ⟨pod, hpod, rfl⟩
      · exact .inl ((List.mem_cons.mp hmem).resolve_left hnm)
      · exact .inr ⟨pod, List.mem_put.mpr (.inr ⟨hpod, hnm⟩), rfl⟩

/-! ## A pass -/

theorem mem_missing {desired : Int} {items : List Pod} {n : CString} : n ∈ missing name desired items ↔
    (∃ i : Nat, (i : Int) < desired ∧ podName name i = n) ∧ ∀ pod ∈ items, pod.name ≠ n := by
  have hlt : ∀ i : Nat, i < desired.toNat ↔ (i : Int) < desired := fun i => Int.lt_toNat
  simp [missing, hlt]

theorem statefulsetReconcile_eq (h : (ss.get "spec").get "template" ≠ .null) : (statefulsetReconcile name ss s).1 =
    (missing name (desiredReplicas ss) (s.listApp name)).foldl Namespace.post s := by
  unfold statefulsetReconcile
  split
  · rename_i hnull
    exact absurd hnull h
  · rfl

/-- A pod that is created is not listed, and the next pass creates it again. -/
theorem not_idempotent (h : (ss.get "spec").get "template" ≠ .null) {n : CString}
    (hn : n ∈ missing name (desiredReplicas ss) (s.listApp name)) :
    (statefulsetReconcile name ss (statefulsetReconcile name ss s).1).1.pods ≠
      (statefulsetReconcile name ss s).1.pods := by
  intro hsame
  rw [statefulsetReconcile_eq h, statefulsetReconcile_eq h] at hsame
  generalize hfirst : (missing name (desiredReplicas ss) (s.listApp name)).foldl Namespace.post s = first at hsame
  have hcreated : ∀ pod ∈ first.pods, pod.name = n → pod.app = none ∧ pod.uid < first.nextUid := by
    intro pod hpod hname
    rw [← hfirst] at hpod ⊢
    rcases mem_foldl_post hpod with ⟨-, hnot⟩ | ⟨-, happ, -, hlt⟩
    · exact absurd (hname ▸ hn) hnot
    · exact ⟨happ, hlt⟩
  have hagain : n ∈ missing name (desiredReplicas ss) (first.listApp name) := by
    refine mem_missing.mpr ⟨(mem_missing.mp hn).1, fun pod hpod hname => ?_⟩
    obtain ⟨hpod, happ⟩ := List.mem_filter.mp hpod
    rw [(hcreated pod hpod hname).1] at happ
    exact absurd (of_decide_eq_true happ) nofun
  obtain ⟨pod, hpod, hname⟩ := exists_of_mem_foldl_post (s := first) (.inl hagain)
  rcases mem_foldl_post hpod with ⟨-, hnot⟩ | ⟨-, -, hle, -⟩
  · exact hnot (hname ▸ hagain)
  · rw [hsame] at hpod
    exact absurd hle (Nat.not_le.mpr (hcreated pod hpod hname).2)

/-- With all of its pods listed, a pass changes nothing. -/
theorem statefulsetReconcile_of_listed (h : (ss.get "spec").get "template" ≠ .null →
    missing name (desiredReplicas ss) (s.listApp name) = []) : (statefulsetReconcile name ss s).1 = s := by
  by_cases htemplate : (ss.get "spec").get "template" = .null
  · unfold statefulsetReconcile
    rw [htemplate]
  · rw [statefulsetReconcile_eq htemplate, h htemplate]
    rfl

theorem missing_eq_nil_iff : missing name (desiredReplicas ss) (s.listApp name) = [] ↔
    ∀ i : Nat, (i : Int) < desiredReplicas ss → ∃ pod ∈ s.pods, pod.app = some name ∧ pod.name = podName name i := by
  rw [List.eq_nil_iff_forall_not_mem]
  constructor
  · intro h i hi
    by_contra hnone
    refine h (podName name i) (mem_missing.mpr ⟨⟨i, hi, rfl⟩, fun pod hpod hname => hnone ?_⟩)
    obtain ⟨hpod, happ⟩ := List.mem_filter.mp hpod
    exact ⟨pod, hpod, of_decide_eq_true happ, hname⟩
  · intro h n hn
    obtain ⟨⟨i, hi, rfl⟩, hnot⟩ := mem_missing.mp hn
    obtain ⟨pod, hpod, happ, hname⟩ := h i hi
    exact hnot pod (List.mem_filter.mpr ⟨hpod, decide_eq_true happ⟩) hname

/-- **A pass is exact, exactly** if there is nothing to do. -/
theorem reconcile_exact_iff (name : CString) (ss : Json) (s : Namespace) : Exact name ss s ↔ NothingToDo name ss s := by
  constructor
  · intro h
    have hnone : (ss.get "spec").get "template" ≠ .null →
        missing name (desiredReplicas ss) (s.listApp name) = [] := by
      intro htemplate
      by_contra hsome
      obtain ⟨n, hn⟩ := List.exists_mem_of_ne_nil _ hsome
      exact not_idempotent htemplate hn h.idempotent
    refine ⟨?_, fun htemplate => missing_eq_nil_iff.mp (hnone htemplate)⟩
    have hordinals := h.ordinals
    rwa [statefulsetReconcile_of_listed hnone] at hordinals
  · intro h
    have hsame : (statefulsetReconcile name ss s).1 = s :=
      statefulsetReconcile_of_listed fun htemplate => missing_eq_nil_iff.mpr (h.listed htemplate)
    refine ⟨?_, fun i hi pod hpod hname => ?_, ?_⟩
    · rw [hsame]
      exact h.ordinals
    · rw [hsame]
      exact hpod
    · rw [hsame, hsame]

/-- **The pods of the first pass are created again** by the second one. -/
theorem created_again : ¬ ∀ (name : CString) (ss : Json) (s : Namespace), Exact name ss s := by
  intro h
  have hexact := h "db" (.obj [("spec", .obj [("template", .obj [])])]) ⟨[], 0, List.nodup_nil⟩
  exact absurd hexact.idempotent (by decide +kernel)

end Sirah.StatefulSetController
