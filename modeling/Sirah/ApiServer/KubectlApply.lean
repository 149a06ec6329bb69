import Sirah.ApiServer.Endpoints

/-!
# kubectl apply

Model of `sirah/internal/apiserver/kubectl_apply.c`: the three-way merge of the last applied
configuration, the current object and the desired one.

`json_merge_recursive` walks the members of `desired` and then those of `current`; both walks start with
json-c's iterator, which wants an object. A member of `current` that is no object where the desired one
is an object ends the process there, which is `none`.
-/

namespace Sirah.ApiServer

/-- `KUBECTL_LAST_APPLIED_ANNOTATION`. -/
def lastAppliedAnnotationKey : CString := "kubectl.kubernetes.io/last-applied-configuration"

/-- `kubectl_apply_mode_t`. -/
inductive ApplyMode where
  | unknown
  | create
  | merge
  | conflict
  deriving DecidableEq, Repr

/-- `kubectl_apply_get_last_applied`; reading from a NULL gives NULL. -/
def kubectlApplyGetLastApplied (json : JsonC) (obj : Json) : Json :=
  let annotations := (obj.get "metadata").get "annotations"
  match (annotations.get lastAppliedAnnotationKey).getString json.render with
  | none => .null
  | some lastApplied => json.parse lastApplied

/-- A new object in the place of a NULL. -/
def orNew : Json → Json
  | .null => .obj []
  | j => j

/-- `kubectl_apply_set_last_applied`, for an object that is not NULL. -/
def kubectlApplySetLastApplied (obj : Json) (desiredJson : CString) : Option Json := do
  let metadata := orNew (obj.get "metadata")
  let annotations := orNew (metadata.get "annotations")
  let annotations ← annotations.add lastAppliedAnnotationKey (.str desiredJson)
  obj.add "metadata" (← metadata.add "annotations" annotations)

/-- `kubectl_apply_determine_mode`, which looks at the last applied configuration and answers the same
with it and without it. -/
def kubectlApplyDetermineMode (current desired : Json) : ApplyMode :=
  match desired, current with
  | .null, _ => .unknown
  | _, .null => .create
  | _, _ => .merge

/-- The second walk: what only `current` has stays, unless it was applied before. -/
def keepCurrent (lastApplied desired : Json) :
    List (CString × Json) → List (CString × Json) → List (CString × Json)
  | [], result => result
  | (key, value) :: members, result =>
    match desired.get key, lastApplied.get key with
    | .null, .null => keepCurrent lastApplied desired members (Json.set key value result)
    | _, _ => keepCurrent lastApplied desired members result

mutual

/-- A member of `desired` in the first walk: an object is merged (`json_merge_recursive`), anything else
stays as it is. -/
def mergeValue (lastApplied current : Json) : Json → Option Json
  | .obj desired => do
    let result ← mergeMembers lastApplied current desired desired
    match current with
    | .null => return .obj result
    | .obj members => return .obj (keepCurrent lastApplied (.obj desired) members result)
    | _ => none
  | value => some value

/-- The first walk: the members of `desired` go into the result, which starts as a copy of it. -/
def mergeMembers (lastApplied current : Json) :
    List (CString × Json) → List (CString × Json) → Option (List (CString × Json))
  | [], result => some result
  | (key, value) :: members, result => do
    let merged ← mergeValue (lastApplied.get key) (current.get key) value
    mergeMembers lastApplied current members (Json.set key merged result)

end

/-- `json_merge_recursive`. -/
def jsonMergeRecursive (lastApplied current desired : Json) : Option Json :=
  match desired with
  | .null => some .null
  | .obj _ => mergeValue lastApplied current desired
  | _ => none

/-- `kubectl_apply_result_t`. -/
structure ApplyResult where
  success : Bool
  responseCode : Nat
  resultObj : Json
  errorMessage : CString

/-- `kubectl_apply_three_way_merge`. -/
def kubectlApplyThreeWayMerge (json : JsonC) (current desired : Json) : Option ApplyResult :=
  match kubectlApplyDetermineMode current desired with
  | .unknown =>
    -- the only way here is a NULL desired, which has its own message
    some ⟨false, 500, .null, "Desired configuration is empty"⟩
  | .create => do
    return ⟨true, 201, ← kubectlApplySetLastApplied desired (json.render desired), []⟩
  | .merge => do
    match ← jsonMergeRecursive (kubectlApplyGetLastApplied json current) current desired with
    | .null => return ⟨false, 500, .null, "Failed to merge configurations"⟩
    | merged => return ⟨true, 200, ← kubectlApplySetLastApplied merged (json.render desired), []⟩
  | .conflict => some ⟨false, 500, .null, "Unknown apply mode"⟩

end Sirah.ApiServer
