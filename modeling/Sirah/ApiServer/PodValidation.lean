import Sirah.ApiServer.Routing
import Sirah.LimitRange.Quantity
import Sirah.Lib.JsonDocument

/-!
# Validation of pod and deployment specs

Model of `validate_pod_containers`, `validate_pod_spec` and `validate_deployment_spec` in
`internal/apiserver/validation.c`, on any JSON value. A result collects errors, at most 99 of them, and is valid as long
as there are none; an outer validation copies the errors of an inner one.

`json_object_to_json_string`, which prints what is no text, is the parameter `render`.

* `Passes`: the checks of one container; `validatePodSpec_iff`, `validateDeploymentSpec_iff`: what is reported valid.
* `GoodContainer`, `GoodPodSpec`: what a pod spec should be.
* `Slips`: a container that passes and is not good: one that is null, an image that is no text, a port that is brought
  into the range by a coercion.
* **`nothing_malformed_iff`**: what is reported valid is good **iff** a container slips only beside one that is refused
  and, for a deployment, there is a template.
* `null_container_valid`: a null in the place of a container.
-/

namespace Sirah.ApiServer

open Json CString

/-! ## Results -/

/-- `validation_error_t`. -/
structure ValidationError where
  field : CString
  message : CString

/-- `validation_result_t`: `error_count` is the length of `errors`. -/
structure ValidationResult where
  valid : Bool
  errors : List ValidationError
  valid_iff : valid = true ↔ errors = []
  capped : errors.length ≤ 99

/-- `validation_result_new`. -/
def validationResultNew : ValidationResult := ⟨true, [], by decide, by decide⟩

/-- `validation_result_add_error`; after 99 errors there is no room. -/
def addError (result : ValidationResult) (field message : CString) : ValidationResult :=
  if h : result.errors.length ≥ 99 then result
  else
    { valid := false
      errors := result.errors ++ [⟨field, message⟩]
      valid_iff := iff_of_false Bool.false_ne_true (List.append_ne_nil_of_right_ne_nil _ (List.cons_ne_nil _ _))
      capped := by
        rw [List.length_append, List.length_singleton]
        omega }

/-- The errors of an inner result, copied one by one. -/
def copyErrors (result inner : ValidationResult) : ValidationResult :=
  if inner.valid then result else inner.errors.foldl (fun result e => addError result e.field e.message) result

/-! ## Containers -/

/-- The text of an error about a container. -/
def containerMessage (i : Nat) (text : CString) : CString :=
  snprintf 256 (ofString "spec.containers[" ++ ofNat i ++ ofString "]" ++ text)

/-- An error unless the check succeeds. -/
def require (result : ValidationResult) (ok : Bool) (i : Nat) (text : CString) : ValidationResult :=
  if ok then result else addError result "spec.containers" (containerMessage i text)

section Checks

variable (render : Json → CString) (i : Nat) (container : Json) (result : ValidationResult)

def checkName : ValidationResult :=
  match container.get "name" with
  | .null => require result false i ".name is required"
  | name => require result ((name.getString render).any Routing.validateName) i ".name: invalid format"

def checkImage : ValidationResult :=
  match container.get "image" with
  | .null => require result false i ".image is required"
  | image => require result ((image.getString render).any fun s => decide (s.length ≠ 0)) i ".image cannot be empty"

/-- `requests` or `limits`, `cpu` or `memory`, where they are given. -/
def checkQuantity (part name : CString) : ValidationResult :=
  match ((container.get "resources").get part).get name with
  | .null => result
  | quantity =>
    require result ((quantity.getString render).any LimitRange.validateResourceQuantity) i
      (ofString ".resources." ++ part ++ ofString "." ++ name ++ ofString ": invalid format")

/-- A port of the container, at an index. -/
def checkPort (p : Nat) (portObj : Json) : ValidationResult :=
  match portObj.get "containerPort" with
  | .null => result
  | portNum =>
    require result (decide (1 ≤ portNum.getInt ∧ portNum.getInt ≤ 65535)) i
      (ofString ".ports[" ++ ofNat p ++ ofString "].containerPort: port out of range")

/-- The loop over the ports, from an index on. -/
def portsLoop (p : Nat) : List Json → ValidationResult → ValidationResult
  | [], result => result
  | portObj :: ports, result => portsLoop (p + 1) ports (checkPort i result p portObj)

def checkPorts : ValidationResult :=
  match container.get "ports" with
  | .arr ports => portsLoop i 0 ports result
  | _ => result

/-- The body of the loop over the containers. -/
def validateContainer : ValidationResult :=
  match container with
  | .null => result
  | container =>
    let result := checkName render i container result
    let result := checkImage render i container result
    let result := checkQuantity render i container result "requests" "cpu"
    let result := checkQuantity render i container result "requests" "memory"
    let result := checkQuantity render i container result "limits" "cpu"
    let result := checkQuantity render i container result "limits" "memory"
    checkPorts i container result

/-- The loop over the containers, from an index on. -/
def containersLoop (i : Nat) : List Json → ValidationResult → ValidationResult
  | [], result => result
  | container :: containers, result => containersLoop (i + 1) containers (validateContainer render i container result)

/-- `validate_pod_containers`. -/
def validatePodContainers : Json → ValidationResult
  | .arr [] => addError validationResultNew "spec.containers" "At least one container is required"
  | .arr containers => containersLoop render 0 containers validationResultNew
  | _ => addError validationResultNew "spec.containers" "Containers must be a list"

/-- `validate_pod_spec`. -/
def validatePodSpec : Json → ValidationResult
  | .null => addError validationResultNew "spec" "Spec is required"
  | podSpec => copyErrors validationResultNew (validatePodContainers render (podSpec.get "containers"))

/-- `validate_replica_count`. -/
def validateReplicaCount (replicas : Json) : ValidationResult :=
  match replicas with
  | .int _ =>
    if replicas.getInt < 0 ∨ replicas.getInt > 10000 then
      addError validationResultNew "spec.replicas" "Replicas must be between 0 and 10000"
    else validationResultNew
  | _ => validationResultNew

/-- `validate_deployment_spec`. -/
def validateDeploymentSpec : Json → ValidationResult
  | .null => addError validationResultNew "spec" "Spec is required"
  | deploymentSpec =>
    let result := copyErrors validationResultNew (validateReplicaCount (deploymentSpec.get "replicas"))
    match deploymentSpec.get "template" with
    | .null => result
    | template => copyErrors result (validatePodSpec render (template.get "spec"))

end Checks

/-! ## What is valid -/

variable {render : Json → CString} {result inner : ValidationResult} {i : Nat} {container spec : Json}

theorem addError_valid (result : ValidationResult) (field message : CString) :
    (addError result field message).valid = false := by
  unfold addError
  split
  · next hfull =>
    refine eq_false_of_ne_true fun hvalid => ?_
    rw [result.valid_iff.mp hvalid, List.length_nil] at hfull
    omega
  · rfl

theorem addError_not_valid (result : ValidationResult) (field message : CString) :
    ¬ (addError result field message).valid = true := by
  rw [addError_valid]
  exact Bool.false_ne_true

theorem foldl_addError_valid {errors : List ValidationError} (h : errors ≠ []) (result : ValidationResult) :
    (errors.foldl (fun result e => addError result e.field e.message) result).valid = false := by
  induction errors generalizing result with
  | nil => exact absurd rfl h
  | cons e errors ih =>
    rw [List.foldl_cons]
    by_cases hnil : errors = []
    · rw [hnil, List.foldl_nil, addError_valid]
    · exact ih hnil _

/-- **Copying keeps what is invalid invalid.** -/
theorem copyErrors_valid_iff :
    (copyErrors result inner).valid = true ↔ result.valid = true ∧ inner.valid = true := by
  unfold copyErrors
  split
  · next hinner => exact (and_iff_left hinner).symm
  · next hinner =>
    have herrors : inner.errors ≠ [] := fun h => hinner (inner.valid_iff.mpr h)
    rw [foldl_addError_valid herrors]
    exact iff_of_false Bool.false_ne_true fun h => hinner h.2

theorem require_valid_iff (ok : Bool) (text : CString) :
    (require result ok i text).valid = true ↔ result.valid = true ∧ ok = true := by
  unfold require
  cases ok with
  | true => exact (and_iff_left rfl).symm
  | false =>
    rw [if_neg Bool.false_ne_true]
    exact iff_of_false (addError_not_valid _ _ _) fun h => Bool.false_ne_true h.2

/-- A check of a member that has to be there. -/
theorem required_valid_iff (ok : Json → Bool) (hnull : ok null = false) (j : Json) (missing text : CString) :
    (match j with
      | .null => require result false i missing
      | j => require result (ok j) i text).valid = true ↔ result.valid = true ∧ ok j = true := by
  split
  · rw [require_valid_iff, hnull]
  · rw [require_valid_iff]

/-- A check of a member that may be missing. -/
theorem optional_valid_iff (ok : Json → Bool) (j : Json) (text : CString) :
    (match j with
      | .null => result
      | j => require result (ok j) i text).valid = true ↔ result.valid = true ∧ (j ≠ null → ok j = true) := by
  split
  · exact (and_iff_left fun hne => absurd rfl hne).symm
  · next hne =>
    rw [require_valid_iff]
    exact and_congr_right fun _ => (imp_iff_right hne).symm

/-- The text of a member passes a check. -/
def TextPasses (render : Json → CString) (check : CString → Bool) (j : Json) : Prop :=
  ∃ s, j.getString render = some s ∧ check s = true

theorem any_getString_iff (check : CString → Bool) (j : Json) :
    (j.getString render).any check = true ↔ TextPasses render check j := Option.any_eq_true _ _

/-- **The checks of a container that is not null.** -/
structure Passes (render : Json → CString) (container : Json) : Prop where
  name : TextPasses render Routing.validateName (container.get "name")
  image : TextPasses render (fun s => decide (s.length ≠ 0)) (container.get "image")
  quantity : ∀ part ∈ [ofString "requests", ofString "limits"], ∀ name ∈ [ofString "cpu", ofString "memory"],
    ((container.get "resources").get part).get name ≠ null →
      TextPasses render LimitRange.validateResourceQuantity (((container.get "resources").get part).get name)
  port : ∀ ports, container.get "ports" = .arr ports → ∀ p ∈ ports, p.get "containerPort" ≠ null →
    1 ≤ (p.get "containerPort").getInt ∧ (p.get "containerPort").getInt ≤ 65535

theorem checkName_valid_iff : (checkName render i container result).valid = true ↔
    result.valid = true ∧ TextPasses render Routing.validateName (container.get "name") := by
  rw [← any_getString_iff]
  exact required_valid_iff (fun j => (j.getString render).any Routing.validateName) rfl _ _ _

theorem checkImage_valid_iff : (checkImage render i container result).valid = true ↔
    result.valid = true ∧ TextPasses render (fun s => decide (s.length ≠ 0)) (container.get "image") := by
  rw [← any_getString_iff]
  exact required_valid_iff (fun j => (j.getString render).any fun s => decide (s.length ≠ 0)) rfl _ _ _

theorem checkQuantity_valid_iff (part name : CString) :
    (checkQuantity render i container result part name).valid = true ↔
      result.valid = true ∧ (((container.get "resources").get part).get name ≠ null →
        TextPasses render LimitRange.validateResourceQuantity (((container.get "resources").get part).get name)) := by
  rw [← any_getString_iff]
  exact optional_valid_iff (fun j => (j.getString render).any LimitRange.validateResourceQuantity) _ _

theorem checkPort_valid_iff (p : Nat) (portObj : Json) : (checkPort i result p portObj).valid = true ↔
    result.valid = true ∧ (portObj.get "containerPort" ≠ null →
      1 ≤ (portObj.get "containerPort").getInt ∧ (portObj.get "containerPort").getInt ≤ 65535) := by
  rw [← decide_eq_true_eq (p := 1 ≤ _ ∧ _)]
  exact optional_valid_iff (fun j => decide (1 ≤ j.getInt ∧ j.getInt ≤ 65535)) _ _

theorem portsLoop_valid_iff {ports : List Json} (p : Nat) : (portsLoop i p ports result).valid = true ↔
    result.valid = true ∧ ∀ portObj ∈ ports, portObj.get "containerPort" ≠ null →
      1 ≤ (portObj.get "containerPort").getInt ∧ (portObj.get "containerPort").getInt ≤ 65535 := by
  induction ports generalizing p result with
  | nil => exact (and_iff_left (List.forall_mem_nil _)).symm
  | cons portObj ports ih => rw [portsLoop, ih, checkPort_valid_iff, List.forall_mem_cons, and_assoc]

theorem checkPorts_valid_iff : (checkPorts i container result).valid = true ↔
    result.valid = true ∧ ∀ ports, container.get "ports" = .arr ports → ∀ p ∈ ports, p.get "containerPort" ≠ null →
      1 ≤ (p.get "containerPort").getInt ∧ (p.get "containerPort").getInt ≤ 65535 := by
  unfold checkPorts
  split
  · next ports hports =>
    rw [portsLoop_valid_iff, hports]
    simp only [Json.arr.injEq, forall_eq']
  · next hno => exact (and_iff_left fun ports hports => absurd hports (hno ports)).symm

theorem forall_mem_two {α : Type} {a b : α} {p : α → Prop} : (∀ x ∈ [a, b], p x) ↔ p a ∧ p b := by
  rw [List.forall_mem_cons, List.forall_mem_singleton]

/-- **One container**: nothing is checked of one that is null. -/
theorem validateContainer_valid_iff : (validateContainer render i container result).valid = true ↔
    result.valid = true ∧ (container ≠ null → Passes render container) := by
  unfold validateContainer
  split
  · exact (and_iff_left fun hne => absurd rfl hne).symm
  · next hne =>
    dsimp only
    rw [checkPorts_valid_iff, checkQuantity_valid_iff, checkQuantity_valid_iff, checkQuantity_valid_iff,
      checkQuantity_valid_iff, checkImage_valid_iff, checkName_valid_iff, imp_iff_right hne]
    constructor
    · rintro ⟨⟨⟨⟨⟨⟨⟨hvalid, hname⟩, himage⟩, hrcpu⟩, hrmem⟩, hlcpu⟩, hlmem⟩, hports⟩
      refine ⟨hvalid, hname, himage, ?_, hports⟩
      rw [forall_mem_two, forall_mem_two, forall_mem_two]
      exact ⟨⟨hrcpu, hrmem⟩, hlcpu, hlmem⟩
    · rintro ⟨hvalid, hname, himage, hquantity, hports⟩
      rw [forall_mem_two, forall_mem_two, forall_mem_two] at hquantity
      exact ⟨⟨⟨⟨⟨⟨⟨hvalid, hname⟩, himage⟩, hquantity.1.1⟩, hquantity.1.2⟩, hquantity.2.1⟩, hquantity.2.2⟩, hports⟩

theorem containersLoop_valid_iff {containers : List Json} (i : Nat) :
    (containersLoop render i containers result).valid = true ↔
      result.valid = true ∧ ∀ c ∈ containers, c ≠ null → Passes render c := by
  induction containers generalizing i result with
  | nil => exact (and_iff_left (List.forall_mem_nil _)).symm
  | cons c containers ih => rw [containersLoop, ih, validateContainer_valid_iff, List.forall_mem_cons, and_assoc]

theorem validatePodContainers_valid_iff (containers : Json) :
    (validatePodContainers render containers).valid = true ↔
      ∃ items, containers = .arr items ∧ items ≠ [] ∧ ∀ c ∈ items, c ≠ null → Passes render c := by
  unfold validatePodContainers
  split
  · refine iff_of_false (addError_not_valid _ _ _) ?_
    rintro ⟨items, heq, hne, -⟩
    exact hne (Json.arr.inj heq).symm
  · next containers hne =>
    have hnew : validationResultNew.valid = true := rfl
    rw [containersLoop_valid_iff, and_iff_right hnew]
    refine ⟨fun h => ⟨containers, rfl, fun hnil => hne hnil, h⟩, ?_⟩
    rintro ⟨items, heq, -, h⟩
    rwa [Json.arr.inj heq]
  · next hno =>
    refine iff_of_false (addError_not_valid _ _ _) ?_
    rintro ⟨items, heq, -⟩
    exact hno items heq

/-- **What is reported valid**: containers that pass or are null, at least one. -/
theorem validatePodSpec_iff (spec : Json) : (validatePodSpec render spec).valid = true ↔
    ∃ items, spec.get "containers" = .arr items ∧ items ≠ [] ∧ ∀ c ∈ items, c ≠ null → Passes render c := by
  unfold validatePodSpec
  split
  · refine iff_of_false (addError_not_valid _ _ _) ?_
    rintro ⟨items, heq, -⟩
    cases heq
  · rw [copyErrors_valid_iff, validatePodContainers_valid_iff]
    exact and_iff_right rfl

/-- The number of replicas is in the range, if it is a number. -/
def ReplicasPass (replicas : Json) : Prop :=
  ∀ n, replicas = .int n → 0 ≤ replicas.getInt ∧ replicas.getInt ≤ 10000

theorem validateReplicaCount_iff (replicas : Json) :
    (validateReplicaCount replicas).valid = true ↔ ReplicasPass replicas := by
  unfold validateReplicaCount ReplicasPass
  split
  · next n =>
    simp only [Json.int.injEq, forall_eq']
    split
    · next hout =>
      exact iff_of_false (addError_not_valid _ _ _) (by omega)
    · next hin => exact iff_of_true rfl (by omega)
  · next hno => exact iff_of_true rfl fun n hn => absurd hn (hno n)

/-- **What is reported valid of a deployment**: also one that has no template. -/
theorem validateDeploymentSpec_iff (spec : Json) : (validateDeploymentSpec render spec).valid = true ↔
    spec ≠ null ∧ ReplicasPass (spec.get "replicas") ∧ (spec.get "template" ≠ null →
      (validatePodSpec render ((spec.get "template").get "spec")).valid = true) := by
  unfold validateDeploymentSpec
  split
  · refine iff_of_false (addError_not_valid _ _ _) fun h => h.1 rfl
  · next hspec =>
    have hreplicas : ∀ j, (copyErrors validationResultNew (validateReplicaCount j)).valid = true ↔ ReplicasPass j := by
      intro j
      rw [copyErrors_valid_iff, validateReplicaCount_iff]
      exact and_iff_right rfl
    dsimp only
    split
    · next hnull =>
      rw [hreplicas, hnull]
      exact ⟨fun h => ⟨hspec, h, fun hne => absurd rfl hne⟩, fun h => h.2.1⟩
    · next hne =>
      rw [copyErrors_valid_iff, hreplicas, imp_iff_right hne]
      exact (and_iff_right hspec).symm

/-! ## What should be valid -/

/-- A number from 1 to 65535. -/
def PortNumber : Json → Prop
  | .int n => 1 ≤ n ∧ n ≤ 65535
  | .double m e => 1 ≤ numberOf m e ∧ numberOf m e ≤ 65535
  | _ => False

/-- **A container as it should be.** -/
structure GoodContainer (render : Json → CString) (container : Json) : Prop where
  object : IsObj container
  name : TextPasses render Routing.validateName (container.get "name")
  image : ∃ s, container.get "image" = .str s ∧ s ≠ []
  quantity : ∀ part ∈ [ofString "requests", ofString "limits"], ∀ name ∈ [ofString "cpu", ofString "memory"],
    ((container.get "resources").get part).get name ≠ null →
      TextPasses render LimitRange.validateResourceQuantity (((container.get "resources").get part).get name)
  port : ∀ ports, container.get "ports" = .arr ports → ∀ p ∈ ports, p.get "containerPort" ≠ null →
    PortNumber (p.get "containerPort")

/-- **A pod spec as it should be.** -/
def GoodPodSpec (render : Json → CString) (spec : Json) : Prop :=
  ∃ items, spec.get "containers" = .arr items ∧ items ≠ [] ∧ ∀ c ∈ items, GoodContainer render c

/-- What no check sees: a null, an image that is no text, a port that is no number in the range but is read as one. -/
def Slips (container : Json) : Prop :=
  container = null ∨ (∀ s, container.get "image" ≠ .str s) ∨
    ∃ ports, container.get "ports" = .arr ports ∧
      ∃ p ∈ ports, p.get "containerPort" ≠ null ∧ ¬ PortNumber (p.get "containerPort")

/-- A container slips only beside one that is refused. -/
def SlipsCaught (render : Json → CString) (spec : Json) : Prop :=
  ∀ items, spec.get "containers" = .arr items → (∀ c ∈ items, c ≠ null → Passes render c) → ∀ c ∈ items, ¬ Slips c

/-- **A container that passes is good, exactly** if it does not slip. -/
theorem goodContainer_iff (h : container ≠ null → Passes render container) :
    GoodContainer render container ↔ ¬ Slips container := by
  constructor
  · rintro hgood (hnull | himage | ⟨ports, hports, p, hp, hne, hnumber⟩)
    · rw [hnull] at hgood
      exact not_isObj_null hgood.object
    · obtain ⟨s, hs, -⟩ := hgood.image
      exact himage s hs
    · exact hnumber (hgood.port ports hports p hp hne)
  · intro hslips
    have hnull : container ≠ null := fun hnull => hslips (.inl hnull)
    obtain ⟨s, himage⟩ : ∃ s, container.get "image" = .str s := by
      by_contra hno
      exact hslips (.inr (.inl fun s hs => hno ⟨s, hs⟩))
    have hpasses := h hnull
    refine ⟨?_, hpasses.name, ⟨s, himage, ?_⟩, hpasses.quantity, fun ports hports p hp hne => ?_⟩
    · have hne : container.get "image" ≠ null := by
        rw [himage]
        exact Json.noConfusion
      obtain ⟨ms, hms, -⟩ := exists_of_get_ne_null hne
      exact ⟨ms, hms⟩
    · obtain ⟨s', hs', hlen⟩ := hpasses.image
      rw [himage] at hs'
      obtain rfl : s = s' := Option.some.inj hs'
      exact fun hnil => of_decide_eq_true hlen (congrArg List.length hnil)
    · by_contra hnumber
      exact hslips (.inr (.inr ⟨ports, hports, p, hp, hne, hnumber⟩))

/-- What is reported valid of a pod spec is good, exactly if what slips is caught. -/
theorem podSpec_sound_iff (render : Json → CString) (spec : Json) :
    ((validatePodSpec render spec).valid = true → GoodPodSpec render spec) ↔ SlipsCaught render spec := by
  rw [validatePodSpec_iff]
  constructor
  · intro h items hitems hpass c hc
    obtain ⟨items', hitems', -, hgood⟩ := h ⟨items, hitems, List.ne_nil_of_mem hc, hpass⟩
    obtain rfl := Json.arr.inj (hitems.symm.trans hitems')
    exact (goodContainer_iff (hpass c hc)).mp (hgood c hc)
  · rintro h ⟨items, hitems, hne, hpass⟩
    exact ⟨items, hitems, hne, fun c hc => (goodContainer_iff (hpass c hc)).mpr (h items hitems hpass c hc)⟩

/-- **Validation lets nothing malformed through, exactly** where what slips is caught and, for a deployment whose replicas
pass, there is a template. -/
theorem nothing_malformed_iff (render : Json → CString) (spec : Json) :
    (((validatePodSpec render spec).valid = true → GoodPodSpec render spec) ↔ SlipsCaught render spec) ∧
    (((validateDeploymentSpec render spec).valid = true → GoodPodSpec render ((spec.get "template").get "spec")) ↔
      (spec ≠ null → ReplicasPass (spec.get "replicas") →
        spec.get "template" ≠ null ∧ SlipsCaught render ((spec.get "template").get "spec"))) := by
  refine ⟨podSpec_sound_iff render spec, ?_⟩
  rw [validateDeploymentSpec_iff, ← podSpec_sound_iff]
  constructor
  · intro h hspec hreplicas
    have htemplate : spec.get "template" ≠ null := by
      intro hnull
      obtain ⟨items, hitems, -⟩ := h ⟨hspec, hreplicas, fun hne => absurd hnull hne⟩
      rw [hnull] at hitems
      cases hitems
    exact ⟨htemplate, fun hvalid => h ⟨hspec, hreplicas, fun _ => hvalid⟩⟩
  · rintro h ⟨hspec, hreplicas, hvalid⟩
    obtain ⟨htemplate, hsound⟩ := h hspec hreplicas
    exact hsound (hvalid htemplate)

/-- **A null in the place of a container** is reported valid. -/
theorem null_container_valid : ¬ ∀ (render : Json → CString) (spec : Json),
    ((validatePodSpec render spec).valid = true → GoodPodSpec render spec) ∧
    ((validateDeploymentSpec render spec).valid = true → GoodPodSpec render ((spec.get "template").get "spec")) := by
  intro h
  have hvalid : (validatePodSpec (fun _ => []) (.obj [("containers", .arr [.null])])).valid = true := rfl
  obtain ⟨items, hitems, -, hgood⟩ := (h (fun _ => []) (.obj [("containers", .arr [.null])])).1 hvalid
  obtain rfl : [Json.null] = items := Json.arr.inj hitems
  exact not_isObj_null (hgood null List.mem_cons_self).object

end Sirah.ApiServer
