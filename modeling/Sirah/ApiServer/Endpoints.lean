import Sirah.Etcd.Manager

/-!
# The etcd-backed endpoints

Model of the create, get, list and delete endpoints of pods, services, deployments and stateful sets in
`sirah/internal/apiserver/endpoints_etcd_integration.c`.

* An endpoint is a function of the world and its arguments, a NULL argument being `none`. Its answer is the
  `Reply` it leaves in `response_buffer` and `response_code`; no answer at all means that the process is
  gone, on a failed assertion of json-c or a NULL given to its parser.
* json-c's parser and printer are the two functions of a `JsonC`. A document stands in the buffer as the
  text the printer makes of it, cut to 16383 bytes.
* `metadata` in the source points into the object, so that adding to it changes the object (`addMeta`).

The four kinds have a copy of each endpoint. Services, deployments and stateful sets share theirs up to
the texts; pods have their own. Two of the differences matter: a list of pods reads `kvs_values`, the
others' reads `value`, which `etcd_list` never sets; and `endpoint_get_pod_etcd` gives what etcd holds to
the parser without asking whether there is anything.
-/

namespace Sirah.ApiServer

open Etcd

/-- json-c's `json_tokener_parse`, NULL where it fails, and `json_object_to_json_string`. -/
structure JsonC where
  parse : CString → Json
  render : Json → CString

/-- What `response_buffer` holds. -/
inductive Body where
  | text (s : CString)
  | doc (j : Json)

structure Reply where
  code : Nat
  body : Body

/-- The text of a flat object of strings, as the endpoints paste it. -/
def fieldsText (fields : List (CString × CString)) : CString :=
  let quote (s : CString) : CString := 34 :: s ++ [34]
  123 :: List.intercalate [44] (fields.map fun (k, v) => quote k ++ 58 :: quote v) ++ [125]

/-- An error reply. -/
def failure (code : Nat) (error : CString) (more : List (CString × CString)) : Reply :=
  ⟨code, .text (fieldsText (("error", error) :: more))⟩

def unavailable : Reply :=
  failure 503 "etcd unavailable" [("details", "control plane storage is unavailable")]

/-! ## Keys -/

/-- `/sirah/<resource>/<namespace>/`. -/
def resourcePath (resource : CString) (ns : Option CString) : CString :=
  CString.ofString "/sirah/" ++ resource ++ [47] ++ ns.getD "default" ++ [47]

/-- The key of an object, in a buffer of `size` bytes. -/
def buildEtcdKey (resource : CString) (size : Nat) (ns name : Option CString) : CString :=
  CString.snprintf size (resourcePath resource ns ++ name.getD "unknown")

/-- `build_pod_etcd_key`. -/
def buildPodEtcdKey : Option CString → Option CString → CString := buildEtcdKey "pods" 512

/-- `build_service_etcd_key`. -/
def buildServiceEtcdKey : Option CString → Option CString → CString := buildEtcdKey "services" 256

/-- `build_deployment_etcd_key`. -/
def buildDeploymentEtcdKey : Option CString → Option CString → CString :=
  buildEtcdKey "deployments" 256

/-- `build_statefulset_etcd_key`. -/
def buildStatefulsetEtcdKey : Option CString → Option CString → CString :=
  buildEtcdKey "statefulsets" 256

/-! ## Members -/

/-- Adding to `metadata`. -/
def addMeta (obj : Json) (key : CString) (value : Json) : Option Json := do
  obj.add "metadata" (← (obj.get "metadata").add key value)

/-- A revision as `resourceVersion`. -/
def revisionToResourceVersion (revision : Nat) : Json := .str (CString.ofNat revision)

/-- The revision goes into the metadata, if there is any. -/
def withResourceVersion (obj : Json) (revision : Nat) : Option Json :=
  match obj.get "metadata" with
  | .null => some obj
  | _ => addMeta obj "resourceVersion" (revisionToResourceVersion revision)

/-- A member for which there is none yet. -/
def addDefault (obj : Json) (key : CString) (value : String) : Option Json :=
  match obj.get key with
  | .null => obj.add key (.str value)
  | _ => some obj

section Endpoints

variable {n : Nat} [NeZero n] (json : JsonC) (now : Nat) (w : World n) (ns : Option CString)

/-! ## Create -/

/-- What the four create endpoints ask of a body: a JSON text with a named metadata. The rest of the
endpoint gets the object and the name. -/
def onNamed (invalid nameRequired : CString) (body : Option CString)
    (rest : Json → CString → Option (Reply × World n)) : Option (Reply × World n) :=
  match body with
  | none | some [] => some (failure 400 "empty body" [], w)
  | some body =>
    match json.parse body with
    | .null => some (failure 400 invalid [], w)
    | obj =>
      match obj.get "metadata" with
      | .null => some (failure 400 "metadata required" [], w)
      | metadata =>
        match (metadata.get "name").getString json.render with
        | none => some (failure 400 nameRequired [], w)
        | some name => rest obj name

/-- The object `endpoint_create_pod_etcd` stores. -/
def podToStore (obj : Json) : Option Json := do
  let status := .obj [("phase", .str ("Pending" : String)), ("conditions", .arr []),
    ("containerStatuses", .arr [])]
  let obj ← obj.add "status" status
  let obj ← addDefault obj "apiVersion" "v1"
  addDefault obj "kind" "Pod"

/-- `endpoint_create_pod_etcd`; `uid` is what `uuid_generate` makes. -/
def endpointCreatePodEtcd (uid : CString) (body : Option CString) : Option (Reply × World n) :=
  onNamed json w "invalid pod JSON" "pod name required in metadata" body fun obj name => do
    let obj ← podToStore obj
    let (status, r, w) ← managerPut now w (buildPodEtcdKey ns (some name)) (json.render obj)
    match status with
    | .ok =>
      let obj ← addMeta obj "resourceVersion" (revisionToResourceVersion r.revision)
      let obj ← match (obj.get "metadata").get "uid" with
        | .null => addMeta obj "uid" (.str uid)
        | _ => some obj
      return (⟨201, .doc obj⟩, w)
    | .unavailable => return (unavailable, w)
    | .circuitBreakerOpen =>
      return (failure 503 "service unavailable" [("details", "etcd circuit breaker open")], w)
    | _ =>
      return (failure 500 "storage error" [("details", "failed to persist pod to etcd")], w)

/-- The object `endpoint_create_service_etcd` and `endpoint_create_deployment_etcd` store: with the time
for a version, and a generation. -/
def versionedToStore (generation : Int) (obj : Json) : Option Json := do
  let obj ← addMeta obj "resourceVersion" (.str (CString.ofNat (now * 1000)))
  addMeta obj "generation" (.int generation)

/-- The create endpoint of services and deployments. -/
def createVersioned (key : Option CString → Option CString → CString) (generation : Int)
    (nameRequired failed : CString) (apiVersion kind : String) (body : Option CString) :
    Option (Reply × World n) :=
  onNamed json w "invalid JSON" nameRequired body fun obj name => do
    let obj ← versionedToStore now generation obj
    let (status, r, w) ← managerPut now w (key ns (some name)) (json.render obj)
    match status with
    | .ok =>
      let obj ← addMeta obj "resourceVersion" (revisionToResourceVersion r.revision)
      let obj ← addDefault obj "apiVersion" apiVersion
      let obj ← addDefault obj "kind" kind
      return (⟨201, .doc obj⟩, w)
    | _ => return (failure 500 failed [], w)

/-- `endpoint_create_service_etcd`. -/
def endpointCreateServiceEtcd : Option CString → Option (Reply × World n) :=
  createVersioned json now w ns buildServiceEtcdKey 0 "service name required"
    "failed to store service" "v1" "Service"

/-- `endpoint_create_deployment_etcd`. -/
def endpointCreateDeploymentEtcd : Option CString → Option (Reply × World n) :=
  createVersioned json now w ns buildDeploymentEtcdKey 1 "deployment name required"
    "failed to store deployment" "apps/v1" "Deployment"

/-- `endpoint_create_statefulset_etcd`, which stores the object as it came. -/
def endpointCreateStatefulsetEtcd (body : Option CString) : Option (Reply × World n) :=
  onNamed json w "invalid JSON" "statefulset name required" body fun obj name => do
    let (status, r, w) ← managerPut now w (buildStatefulsetEtcdKey ns (some name)) (json.render obj)
    match status with
    | .ok =>
      let obj ← addMeta obj "resourceVersion" (revisionToResourceVersion r.revision)
      return (⟨201, .doc obj⟩, w)
    | _ => return (failure 500 "failed to store statefulset" [], w)

/-! ## Get -/

/-- The check of a pod's name. -/
def onPodName (name : Option CString) (rest : CString → Option (Reply × World n)) :
    Option (Reply × World n) :=
  match name with
  | none | some [] => some (failure 400 "pod name required" [], w)
  | some name => rest name

def podNotFound (name : CString) : Reply := failure 404 "pod not found" [("kind", "Pod"), ("name", name)]

/-- `endpoint_get_pod_etcd`. -/
def endpointGetPodEtcd (name : Option CString) : Option (Reply × World n) :=
  onPodName w name fun name => do
    let (status, r, w) ← managerGet json.render now w (buildPodEtcdKey ns (some name))
    match status with
    | .ok =>
      match json.parse (← r.value) with
      | .null => return (failure 500 "invalid pod data in storage" [], w)
      | obj => return (⟨200, .doc (← withResourceVersion obj r.revision)⟩, w)
    | .notFound => return (podNotFound name, w)
    | .unavailable => return (unavailable, w)
    | _ =>
      return (failure 500 "storage error" [("details", "failed to retrieve pod from etcd")], w)

/-- The get endpoint of the other kinds, which copies the stored text. -/
def getStored (key : Option CString → Option CString → CString) (notFound : CString)
    (name : Option CString) : Option (Reply × World n) := do
  let (status, r, w) ← managerGet json.render now w (key ns name)
  match status, r.value with
  | .ok, some value => return (⟨200, .text (CString.snprintf 16384 value)⟩, w)
  | _, _ => return (failure 404 notFound [], w)

/-- `endpoint_get_service_etcd`. -/
def endpointGetServiceEtcd : Option CString → Option (Reply × World n) :=
  getStored json now w ns buildServiceEtcdKey "service not found"

/-- `endpoint_get_deployment_etcd`. -/
def endpointGetDeploymentEtcd : Option CString → Option (Reply × World n) :=
  getStored json now w ns buildDeploymentEtcdKey "deployment not found"

/-- `endpoint_get_statefulset_etcd`. -/
def endpointGetStatefulsetEtcd : Option CString → Option (Reply × World n) :=
  getStored json now w ns buildStatefulsetEtcdKey "statefulset not found"

/-! ## List -/

/-- A list document. -/
def listDoc (apiVersion kind : String) (items : List Json) : Json :=
  .obj [("apiVersion", .str apiVersion), ("kind", .str kind), ("items", .arr items)]

/-- The items of a list of pods: the values that parse, each with its version. -/
def podItems : List (CString × Nat) → Option (List Json)
  | [] => some []
  | (value, version) :: kvs =>
    match json.parse value with
    | .null => podItems kvs
    | obj => do
      let item ← withResourceVersion obj version
      return item :: (← podItems kvs)

/-- `endpoint_list_pods_etcd`. -/
def endpointListPodsEtcd : Option (Reply × World n) := do
  let (status, r, w) ← managerList json.render now w (CString.snprintf 512 (resourcePath "pods" ns))
  match status with
  | .ok =>
    let items ← podItems json (r.kvsValues.zip r.kvsVersions)
    return (⟨200, .doc (listDoc "v1" "PodList" items)⟩, w)
  | .unavailable => return (unavailable, w)
  | _ => return (failure 500 "storage error" [("details", "failed to list pods from etcd")], w)

/-- The items of a list of another kind: the lines of `value` that parse. -/
def lineItems (value : CString) : List Json :=
  ((CString.splitOn 10 value).filter (· ≠ [])).filterMap fun line =>
    match json.parse line with
    | .null => none
    | obj => some obj

/-- The list endpoint of the other kinds. -/
def listLines (resource : CString) (apiVersion kind : String) : Option (Reply × World n) := do
  let (status, r, w) ← managerList json.render now w (CString.snprintf 256 (resourcePath resource ns))
  let items := match status, r.value with
    | .ok, some value => lineItems json value
    | _, _ => []
  return (⟨200, .doc (listDoc apiVersion kind items)⟩, w)

/-- `endpoint_list_services_etcd`. -/
def endpointListServicesEtcd : Option (Reply × World n) :=
  listLines json now w ns "services" "v1" "ServiceList"

/-- `endpoint_list_deployments_etcd`. -/
def endpointListDeploymentsEtcd : Option (Reply × World n) :=
  listLines json now w ns "deployments" "apps/v1" "DeploymentList"

/-- `endpoint_list_statefulsets_etcd`. -/
def endpointListStatefulsetsEtcd : Option (Reply × World n) :=
  listLines json now w ns "statefulsets" "apps/v1" "StatefulSetList"

/-! ## Delete -/

def noContent : Reply := ⟨204, .text []⟩

/-- `endpoint_delete_pod_etcd`. -/
def endpointDeletePodEtcd (name : Option CString) : Option (Reply × World n) :=
  onPodName w name fun name => do
    let (status, _, w) ← managerDelete now w (buildPodEtcdKey ns (some name))
    match status with
    | .ok => return (noContent, w)
    | .notFound => return (podNotFound name, w)
    | .unavailable => return (unavailable, w)
    | _ => return (failure 500 "storage error" [("details", "failed to delete pod from etcd")], w)

/-- The delete endpoint of the other kinds. -/
def deleteStored (key : Option CString → Option CString → CString) (failed : CString)
    (name : Option CString) : Option (Reply × World n) := do
  let (status, _, w) ← managerDelete now w (key ns name)
  match status with
  | .ok => return (noContent, w)
  | _ => return (failure 500 failed [], w)

/-- `endpoint_delete_service_etcd`. -/
def endpointDeleteServiceEtcd : Option CString → Option (Reply × World n) :=
  deleteStored now w ns buildServiceEtcdKey "failed to delete service"

/-- `endpoint_delete_deployment_etcd`. -/
def endpointDeleteDeploymentEtcd : Option CString → Option (Reply × World n) :=
  deleteStored now w ns buildDeploymentEtcdKey "failed to delete deployment"

/-- `endpoint_delete_statefulset_etcd`. -/
def endpointDeleteStatefulsetEtcd : Option CString → Option (Reply × World n) :=
  deleteStored now w ns buildStatefulsetEtcdKey "failed to delete statefulset"

end Endpoints

end Sirah.ApiServer
