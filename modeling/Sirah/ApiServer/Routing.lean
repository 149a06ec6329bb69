import Sirah.Lib.CString
import Sirah.Lib.Path

/-!
# Routing by substring

Model of `api_handle_request` in `sirah/internal/apiserver/handler.c` up to its deployments block, with
`parse_path` and `extract_query_string`, and of `validate_name` in `validation.c`.

* A `Route` is the endpoint that is called, with the arguments the path gives it. What a branch does
  with the body is not part of it: `create .pod` is the branch that checks the body and creates, and the
  branches for a pod and for its `/status` both patch, with different content types (`patch .pod`).
* The handler is a chain of blocks. A block looks for its words anywhere in the path, the query string
  included, and a request it has no branch for goes on to the next (`none`). `Route.rest` stands for the
  blocks behind the deployments.
* A pointer into the path is the text behind it (`Path.after`).
* Services and deployments have one block up to the words and the `PUT` of deployments (`resource`).
-/

namespace Sirah.Routing

open CString Path

/-! ## Names -/

/-- `validate_name`: an RFC 1123 label of at most 253 bytes. -/
def validateName (name : CString) : Bool :=
  name ≠ [] && name.length ≤ 253 &&
    name.all (fun c => (97 ≤ c && c ≤ 122) || (48 ≤ c && c ≤ 57) || c = 45) &&
    name.head? ≠ some 45 && name.getLast? ≠ some 45

/-! ## Reading a path -/

/-- The namespace of a path, in a buffer of 256 bytes. -/
def namespaceOf (path : CString) : CString :=
  match after (ofString "/namespaces/") path with
  | none => ofString "default"
  | some start =>
    match strchr 47 start with
    | some (ns, _) => snprintf 256 ns
    | none => []

/-- The pod's name, from what follows `/pods`: up to the next slash, or else up to the query string. -/
def podNameOf : CString → CString
  | 47 :: c :: cs =>
    match strchr 47 (c :: cs) with
    | some (name, _) => snprintf 256 name
    | none =>
      match strchr 63 (c :: cs) with
      | some (name, _) => snprintf 256 name
      | none => snprintf 256 (c :: cs)
  | _ => []

/-- `parse_path`: the namespace and the pod's name. -/
def parsePath (path : CString) : CString × CString :=
  match after (ofString "/pods") path with
  | none => (ofString "default", [])
  | some rest => (namespaceOf path, podNameOf rest)

/-- `extract_query_string`, into a buffer of 512 bytes. -/
def extractQueryString (path : CString) : CString :=
  match strchr 63 path with
  | some (_, q) => snprintf 512 q
  | none => []

/-- The name of a service or a deployment: what follows `collection`, up to the query string. -/
def nameAfter (collection path : CString) : CString :=
  match after collection path with
  | some (c :: cs) =>
    match strchr 63 (c :: cs) with
    | some (name, _) => snprintf 256 name
    | none => snprintf 256 (c :: cs)
  | _ => []

theorem nameAfter_congr {needle path path' : CString} (h : after needle path = after needle path') :
    nameAfter needle path = nameAfter needle path' := by
  unfold nameAfter
  rw [h]

theorem infix_of_nameAfter {needle path : CString} (h : nameAfter needle path ≠ []) :
    needle <:+: path := by
  by_contra hno
  rw [nameAfter, after_eq_none_iff.mpr hno] at h
  exact h rfl

theorem podNameOf_eq_nil {t : CString} (h : ∀ c ∈ t.head?, c ≠ 47) : podNameOf t = [] := by
  unfold podNameOf
  split
  · exact absurd rfl (h 47 rfl)
  · rfl

theorem podNameOf_cons {s : CString} (hne : s ≠ []) : podNameOf (47 :: s) =
    match strchr 47 s with
    | some (name, _) => snprintf 256 name
    | none =>
      match strchr 63 s with
      | some (name, _) => snprintf 256 name
      | none => snprintf 256 s := by
  obtain ⟨c, cs, rfl⟩ := List.exists_cons_of_ne_nil hne
  rfl

theorem podNameOf_ne_nil {s t : CString} (hs : Word 47 63 s) (hne : s ≠ []) :
    podNameOf (47 :: (s ++ t)) ≠ [] := by
  obtain ⟨c, cs, rfl⟩ := List.exists_cons_of_ne_nil hne
  have hslash : c ≠ 47 := fun h => hs.1 (h ▸ List.mem_cons_self)
  have hstop : c ≠ 63 := fun h => hs.2 (h ▸ List.mem_cons_self)
  rw [List.cons_append, podNameOf_cons (List.cons_ne_nil c (cs ++ t))]
  split
  · exact snprintf_ne_nil (by decide) (strchr_ne_nil hslash ‹_›)
  · split
    · exact snprintf_ne_nil (by decide) (strchr_ne_nil hstop ‹_›)
    · exact snprintf_ne_nil (by decide) (List.cons_ne_nil c _)

/-- A name that a slash ends. -/
theorem podNameOf_segment {s t : CString} (hs : 47 ∉ s) (hne : s ≠ []) :
    podNameOf (47 :: (s ++ 47 :: t)) = snprintf 256 s := by
  rw [podNameOf_cons (List.append_ne_nil_of_left_ne_nil hne _), strchr_append hs]

theorem parsePath_snd (path : CString) :
    (parsePath path).2 = ((after (47 :: ofString "pods") path).map podNameOf).getD [] := by
  unfold parsePath
  rw [show ofString "/pods" = 47 :: ofString "pods" from rfl]
  cases after (47 :: ofString "pods") path with
  | none => rfl
  | some rest => rfl

theorem strstr_of_parsePath {path : CString} (h : (parsePath path).2 ≠ []) :
    strstr path (47 :: ofString "pods") = true := by
  rw [parsePath_snd] at h
  rw [strstr_iff]
  by_contra hno
  rw [after_eq_none_iff.mpr hno] at h
  exact h rfl

/-! ## The blocks -/

inductive Method where
  | get | post | put | patch | delete | other
  deriving DecidableEq

inductive Kind where
  | pod | service | deployment
  deriving DecidableEq

/-- The answers that depend on the path alone. -/
inductive Document where
  | healthz | schedulerStatus | apiVersions | apiGroups | version | openapi | dashboard | metrics
  | coreResources | appsResources | batchResources | autoscalingResources | rbacResources
  deriving DecidableEq

inductive Route where
  | document (d : Document)
  | bindPod (ns name : CString)
  | podLogs (ns name query : CString)
  | execPod (ns name : CString)
  | watch (kind : Kind) (ns query : CString)
  | get (kind : Kind) (ns name : CString)
  | list (kind : Kind) (ns : CString)
  | create (kind : Kind) (ns : CString)
  | update (kind : Kind) (ns name : CString)
  | patch (kind : Kind) (ns name : CString)
  | delete (kind : Kind) (ns name : CString)
  | getNode (name : CString)
  | listNodes
  | registerNode
  | nodeHeartbeat (name : CString)
  | rest
  deriving DecidableEq

/-- The health check, discovery and documentation. -/
def document (path : CString) : Option Document :=
  if path = ofString "/healthz" then some .healthz
  else if path = ofString "/scheduler/status" then some .schedulerStatus
  else if path = ofString "/api" then some .apiVersions
  else if path = ofString "/apis" then some .apiGroups
  else if path = ofString "/version" then some .version
  else if path = ofString "/api/v1/version" then some .version
  else if ofString "/openapi" <+: path || ofString "/docs" <+: path then some .openapi
  else if ofString "/dashboard" <+: path || ofString "/api/dashboard" <+: path then some .dashboard
  else if path = ofString "/metrics" then some .metrics
  else if path = ofString "/api/v1" then some .coreResources
  else if path = ofString "/apis/apps/v1" then some .appsResources
  else if path = ofString "/apis/batch/v1" then some .batchResources
  else if path = ofString "/apis/autoscaling/v2" then some .autoscalingResources
  else if path = ofString "/apis/rbac.authorization.k8s.io/v1" then some .rbacResources
  else none

/-- The pods endpoints. -/
def pods (method : Method) (path : CString) : Option Route :=
  if strstr path (ofString "/api/v1/") && strstr path (ofString "/pods") then
    let (ns, name) := parsePath path
    let query := extractQueryString path
    if method = .post && strstr path (ofString "/bind") then some (.bindPod ns name)
    else if method = .get && strstr path (ofString "/log") then some (.podLogs ns name query)
    else if method = .post && strstr path (ofString "/exec") then some (.execPod ns name)
    else if method = .patch && strstr path (ofString "/status") && name ≠ [] then some (.patch .pod ns name)
    else if method = .get && strstr query (ofString "watch=true") then some (.watch .pod ns query)
    else if method = .get then some (if name ≠ [] then .get .pod ns name else .list .pod ns)
    else if method = .post then some (.create .pod ns)
    else if method = .patch && name ≠ [] then some (.patch .pod ns name)
    else if method = .delete && name ≠ [] then some (.delete .pod ns name)
    else none
  else none

/-- The nodes endpoints. The guard of `getNode` contradicts itself, as in the source. -/
def nodes (method : Method) (path : CString) : Option Route :=
  if strstr path (ofString "/api/v1/") && strstr path (ofString "/nodes") then
    let nodeName := (after (ofString "/nodes/") path).getD []
    if method = .get then
      if strstr path (ofString "/nodes/") && !strstr path (ofString "/nodes/") then
        some (.getNode nodeName)
      else some .listNodes
    else if method = .post && strstr path (ofString "/nodes/register") then some .registerNode
    else if method = .post && strstr path (ofString "/nodes/") && strstr path (ofString "/heartbeat") then
      match strchr 47 nodeName with
      | some (name, _) => some (.nodeHeartbeat name)
      | none => some (.nodeHeartbeat nodeName)
    else none
  else none

/-- The block of a kind, by the words it looks for. -/
def resource (kind : Kind) (group collection : CString) (put : Bool) (method : Method) (path : CString) :
    Option Route :=
  if strstr path group && strstr path collection then
    let ns := namespaceOf path
    let query := extractQueryString path
    let name := nameAfter (collection ++ [47]) path
    if method = .get && strstr query (ofString "watch=true") then some (.watch kind ns query)
    else if method = .get then some (if name ≠ [] then .get kind ns name else .list kind ns)
    else if method = .post then some (.create kind ns)
    else if put && method = .put && name ≠ [] then some (.update kind ns name)
    else if method = .patch && name ≠ [] then some (.patch kind ns name)
    else if method = .delete && name ≠ [] then some (.delete kind ns name)
    else none
  else none

/-- The services endpoints. -/
def services : Method → CString → Option Route :=
  resource .service (ofString "/api/v1/") (ofString "/services") false

/-- The deployments endpoints. -/
def deployments : Method → CString → Option Route :=
  resource .deployment (ofString "/apis/apps/v1") (ofString "/deployments") true

/-- `api_handle_request`. -/
def apiHandleRequest (method : Method) (path : CString) : Route :=
  (((document path).map Route.document).or <| (pods method path).or <| (nodes method path).or <|
    (services method path).or (deployments method path)).getD .rest

/-! ## What a block answers -/

/-- The kind of object a route serves. The subresources of a pod and the nodes are no objects here. -/
def Route.kind : Route → Option Kind
  | watch k _ _ | get k _ _ | list k _ | create k _ | update k _ _ | patch k _ _ | delete k _ _ => some k
  | _ => none

/-- The endpoint of a kind and a method, from the name and the query string a block has read. -/
def objectRoute (kind : Kind) (method : Method) (ns name query : CString) : Option Route :=
  match method with
  | .get =>
    if strstr query (ofString "watch=true") then some (.watch kind ns query)
    else some (if name ≠ [] then .get kind ns name else .list kind ns)
  | .post => some (.create kind ns)
  | .patch => if name ≠ [] then some (.patch kind ns name) else none
  | .delete => if name ≠ [] then some (.delete kind ns name) else none
  | _ => none

/-- The subresource of a pod that the pods block sees in a request. -/
def podSubresource (method : Method) (path : CString) : Option Route :=
  let (ns, name) := parsePath path
  match method with
  | .get =>
    if strstr path (ofString "/log") then some (.podLogs ns name (extractQueryString path)) else none
  | .post =>
    if strstr path (ofString "/bind") then some (.bindPod ns name)
    else if strstr path (ofString "/exec") then some (.execPod ns name)
    else none
  | _ => none

section Blocks

variable {kind : Kind} {group collection : CString} {put : Bool} {method : Method} {path ns name : CString}
  {query : CString} {e : Route}

/-- **The block of pods.** -/
theorem pods_eq : pods method path =
    if strstr path (ofString "/api/v1/") && strstr path (ofString "/pods") then
      (podSubresource method path).or
        (objectRoute .pod method (parsePath path).1 (parsePath path).2 (extractQueryString path))
    else none := by
  unfold pods podSubresource objectRoute
  refine if_congr Iff.rfl ?_ rfl
  obtain ⟨ns, name⟩ := parsePath path
  cases method with
  | get => by_cases hlog : strstr path (ofString "/log") <;> simp [hlog]
  | post =>
    by_cases hbind : strstr path (ofString "/bind")
    · simp [hbind]
    · by_cases hexec : strstr path (ofString "/exec") <;> simp [hbind, hexec]
  | patch => by_cases hname : name = [] <;> simp [hname]
  | put | delete | other => simp

/-- **The block of services and of deployments.** -/
theorem resource_eq (hput : method ≠ .put) :
    resource kind group collection put method path =
      if strstr path group && strstr path collection then
        objectRoute kind method (namespaceOf path) (nameAfter (collection ++ [47]) path)
          (extractQueryString path)
      else none := by
  unfold resource objectRoute
  cases method with
  | put => exact absurd rfl hput
  | get | post | patch | delete | other => simp

/-! Whose route it is. -/

theorem objectRoute_kind (h : objectRoute kind method ns name query = some e) : e.kind = some kind := by
  unfold objectRoute at h
  split at h
  · split_ifs at h <;> (cases h; rfl)
  · cases h
    rfl
  · split_ifs at h
    cases h
    rfl
  · split_ifs at h
    cases h
    rfl
  · cases h

theorem podSubresource_kind (h : podSubresource method path = some e) : e.kind = none := by
  unfold podSubresource at h
  obtain ⟨ns, name⟩ := parsePath path
  cases method with
  | get =>
    simp only [Option.ite_none_right_eq_some] at h
    rw [← Option.some.inj h.2]
    rfl
  | post =>
    simp only at h
    split_ifs at h <;> (cases h; rfl)
  | put | patch | delete | other => cases h

theorem pods_kind (h : pods method path = some e) : ∀ k ∈ e.kind, k = .pod := by
  rw [pods_eq] at h
  split at h
  · rcases Option.or_eq_some_iff.mp h with h | ⟨-, h⟩
    · simp [podSubresource_kind h]
    · simp [objectRoute_kind h]
  · cases h

theorem nodes_kind (h : nodes method path = some e) : e.kind = none := by
  unfold nodes at h
  simp only [Bool.and_not_self, Bool.false_eq_true, ↓reduceIte] at h
  split_ifs at h
  · cases h
    rfl
  · cases h
    rfl
  · split at h <;> (cases h; rfl)

theorem resource_kind (h : resource kind group collection put method path = some e) :
    e.kind = some kind := by
  by_cases hput : method = .put
  · subst hput
    simp only [resource, reduceCtorEq, decide_false, Bool.false_and, Bool.false_eq_true, ↓reduceIte,
      decide_true, Bool.and_true, Option.ite_none_right_eq_some] at h
    rw [← Option.some.inj h.2.2]
    rfl
  · rw [resource_eq hput, Option.ite_none_right_eq_some] at h
    exact objectRoute_kind h.2

/-! ## What a block takes -/

/-- A block takes `GET` and `POST`, and `PATCH` and `DELETE` where it reads a name. -/
def Takes (method : Method) (name : CString) : Prop :=
  match method with
  | .get | .post => True
  | .patch | .delete => name ≠ []
  | .put | .other => False

theorem objectRoute_eq_none_iff :
    objectRoute kind method ns name query = none ↔ ¬ Takes method name := by
  unfold objectRoute Takes
  cases method with
  | get => split_ifs <;> simp
  | post | put | patch | delete | other => simp

theorem podSubresource_takes (h : podSubresource method path = some e) :
    Takes method (parsePath path).2 := by
  unfold podSubresource at h
  unfold Takes
  cases method with
  | get | post => trivial
  | put | patch | delete | other => cases h

theorem pods_eq_none_iff : pods method path = none ↔
    ¬ (strstr path (ofString "/api/v1/") ∧ strstr path (ofString "/pods") ∧
      Takes method (parsePath path).2) := by
  rw [pods_eq, ← and_assoc, not_and, ← Bool.and_eq_true]
  split
  · rename_i hwords
    rw [Option.or_eq_none_iff, objectRoute_eq_none_iff]
    refine ⟨fun h _ => h.2, fun h => ⟨?_, h hwords⟩⟩
    rw [Option.eq_none_iff_forall_ne_some]
    exact fun e he => h hwords (podSubresource_takes he)
  · rename_i hwords
    exact ⟨fun _ h => absurd h hwords, fun _ => rfl⟩

theorem resource_eq_none_iff (hput : method ≠ .put) :
    resource kind group collection put method path = none ↔
      ¬ (strstr path group ∧ strstr path collection ∧
        Takes method (nameAfter (collection ++ [47]) path)) := by
  rw [resource_eq hput, ← and_assoc, not_and, ← Bool.and_eq_true]
  split
  · rename_i hwords
    rw [objectRoute_eq_none_iff]
    exact ⟨fun h _ => h, fun h => h hwords⟩
  · rename_i hwords
    exact ⟨fun _ h => absurd h hwords, fun _ => rfl⟩

theorem nodes_eq_none_iff : nodes method path = none ↔
    ¬ (strstr path (ofString "/api/v1/") ∧ strstr path (ofString "/nodes") ∧
      (method = .get ∨ (method = .post ∧ (strstr path (ofString "/nodes/register") ∨
        (strstr path (ofString "/nodes/") ∧ strstr path (ofString "/heartbeat")))))) := by
  unfold nodes
  rw [← and_assoc, not_and, ← Bool.and_eq_true]
  split
  · rename_i hwords
    simp only [Bool.and_not_self, Bool.false_eq_true, ↓reduceIte, hwords, true_imp_iff]
    cases method with
    | post =>
      simp only [reduceCtorEq, decide_true, Bool.true_and, false_or, true_and, ↓reduceIte,
        Bool.and_eq_true]
      split_ifs with hreg hbeat
      · simp [hreg]
      · split <;> simp [hbeat]
      · simp [hreg, hbeat]
    | get | put | patch | delete | other => simp
  · rename_i hwords
    exact ⟨fun _ h => absurd h hwords, fun _ => rfl⟩

/-! ## The chain -/

/-- The blocks `a` never answer with an endpoint of `kind`. -/
def Never (kind : Kind) (a : Option Route) : Prop := ∀ e ∈ a, e.kind ≠ some kind

theorem Never.or {a b : Option Route} (ha : Never kind a) (hb : Never kind b) : Never kind (a.or b) := by
  intro e he
  rcases Option.or_eq_some_iff.mp he with he | ⟨-, he⟩
  · exact ha e he
  · exact hb e he

/-- Such blocks only have to let the request pass. -/
theorem Never.getD_or {a b : Option Route} (ha : Never kind a) (he : e.kind = some kind) :
    (a.or b).getD .rest = e ↔ a = none ∧ b.getD .rest = e := by
  cases a with
  | none => simp
  | some e' =>
    have hne : e' ≠ e := fun h => ha e' rfl (h ▸ he)
    simp [hne]

/-- Nothing behind the kind's own block answers for it. -/
theorem Never.or_getD {a b : Option Route} (hb : Never kind b) (he : e.kind = some kind) :
    (a.or b).getD .rest = e ↔ a = some e := by
  cases a with
  | some e' => simp
  | none =>
    have hne : b.getD .rest ≠ e := by
      rintro rfl
      cases b with
      | none => cases he
      | some e' => exact hb e' rfl he
    simp [hne]

theorem never_pods (hkind : kind ≠ .pod) : Never kind (pods method path) := fun _ he hk =>
  hkind (pods_kind he kind hk)

theorem never_nodes : Never kind (nodes method path) := fun _ he hk => by
  rw [nodes_kind he] at hk
  cases hk

theorem never_resource {kind' : Kind} (hkind : kind ≠ kind') :
    Never kind (resource kind' group collection put method path) := fun _ he hk => by
  rw [resource_kind he] at hk
  exact hkind (Option.some.inj hk).symm

section Chain

variable (hdoc : document path = none)

include hdoc

theorem apiHandleRequest_eq : apiHandleRequest method path =
    ((pods method path).or <| (nodes method path).or <|
      (services method path).or (deployments method path)).getD .rest := by
  rw [apiHandleRequest, hdoc]
  rfl

/-- **A pod's endpoint** is reached in the first block or not at all. -/
theorem apiHandleRequest_eq_pod_iff (he : e.kind = some .pod) :
    apiHandleRequest method path = e ↔ pods method path = some e := by
  have hlater : Never .pod ((nodes method path).or <|
      (services method path).or (deployments method path)) :=
    never_nodes.or ((never_resource (by decide)).or (never_resource (by decide)))
  rw [apiHandleRequest_eq hdoc, hlater.or_getD he]

/-- **A service's endpoint** is reached through the blocks of pods and nodes. -/
theorem apiHandleRequest_eq_service_iff (he : e.kind = some .service) :
    apiHandleRequest method path = e ↔
      pods method path = none ∧ nodes method path = none ∧ services method path = some e := by
  have hlater : Never .service (deployments method path) := never_resource (by decide)
  rw [apiHandleRequest_eq hdoc, (never_pods (by decide)).getD_or he, never_nodes.getD_or he,
    hlater.or_getD he]

/-- **A deployment's endpoint** is reached through the blocks of pods, nodes and services. -/
theorem apiHandleRequest_eq_deployment_iff (he : e.kind = some .deployment) :
    apiHandleRequest method path = e ↔
      pods method path = none ∧ nodes method path = none ∧ services method path = none ∧
        deployments method path = some e := by
  have hlater : Never .deployment none := nofun
  have hservices : Never .deployment (services method path) := never_resource (by decide)
  rw [apiHandleRequest_eq hdoc, (never_pods (by decide)).getD_or he, never_nodes.getD_or he,
    hservices.getD_or he, ← hlater.or_getD he, Option.or_none]

end Chain

end Blocks

end Sirah.Routing
