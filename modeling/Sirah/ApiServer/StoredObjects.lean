import Sirah.ApiServer.ListGet
import Sirah.ApiServer.Patch
import Sirah.ApiServer.ObjectRoutes

/-!
# Config maps, secrets, volumes and claims

Model of the endpoints of config maps, secrets, PersistentVolumes and PersistentVolumeClaims (and of jobs) in
`sirah/internal/apiserver/endpoints_etcd_integration.c`, over the same store as those of `Endpoints.lean`.

* The four kinds have a copy of each endpoint that differs in its texts and in the code for a store that does not answer; a
  PersistentVolume has no namespace. Their list reads `kvs_values`, so that they can be listed; that of jobs reads `value`.
* `response_buffer` keeps what it held (`buffer`) when a stored text does not parse.
* `Objects` is what the store is for: a map from the kind, the namespace and the name to an object. `Objects.apply` is what
  a request means for it; a patch means nothing, for its compare is with revision 0.
* **`serves_run`**: after every run of creates, deletes and patches of these kinds, among creates and deletes of pods,
  services, deployments, stateful sets and jobs, list answers what the map has in the namespace, each name once, and get
  answers the object that the map has. For a name that it has not get gives no answer: its NULL goes to the parser, and the
  process is gone.
-/

namespace Sirah.ApiServer

open Etcd Runs

/-! ## The endpoints -/

section Endpoints

variable {n : Nat} [NeZero n] (json : JsonC) (now : Nat) (w : World n) (ns name body contentType : Option CString)

/-- `build_configmap_etcd_key`. -/
def buildConfigmapEtcdKey : Option CString → Option CString → CString := buildEtcdKey "configmaps" 512

/-- `build_secret_etcd_key`. -/
def buildSecretEtcdKey : Option CString → Option CString → CString := buildEtcdKey "secrets" 512

/-- `build_pv_etcd_key`. -/
def buildPvEtcdKey (name : Option CString) : CString :=
  CString.snprintf 512 (CString.ofString "/sirah/pv/" ++ name.getD "unknown")

/-- `build_pvc_etcd_key`. -/
def buildPvcEtcdKey : Option CString → Option CString → CString := buildEtcdKey "pvc" 512

/-- `build_job_etcd_key`. -/
def buildJobEtcdKey : Option CString → Option CString → CString := buildEtcdKey "jobs" 256

def storageError (code : Nat) : Reply := failure code "storage error" []

/-- The create endpoint, which stores the object as it came. -/
def createStored (key : Option CString → CString) (nameRequired : CString) (unavailable failed : Reply) :
    Option (Reply × World n) :=
  onNamed json w "invalid JSON" nameRequired body fun obj name => do
    let (status, r, w) ← managerPut now w (key (some name)) (json.render obj)
    match status with
    | .ok => return (⟨201, .doc (← addMeta obj "resourceVersion" (revisionToResourceVersion r.revision))⟩, w)
    | .unavailable => return (unavailable, w)
    | _ => return (failed, w)

/-- The get endpoint. -/
def getObject (buffer : Body) (key notFound : CString) (failed : Reply) : Option (Reply × World n) := do
  let (status, r, w) ← managerGet json.render now w key
  match status with
  | .ok =>
    match json.parse (← r.value) with
    | .null => return (⟨200, buffer⟩, w)
    | obj => return (⟨200, .doc (← withResourceVersion obj r.revision)⟩, w)
  | .notFound => return (failure 404 notFound [], w)
  | _ => return (failed, w)

/-- The list endpoint. -/
def listObjects (pre : CString) (kind : String) : Option (Reply × World n) := do
  let (status, r, w) ← managerList json.render now w pre
  let items ← match status with
    | .ok => podItems json (r.kvsValues.zip r.kvsVersions)
    | _ => some []
  return (⟨200, .doc (listDoc "v1" kind items)⟩, w)

/-- The patch endpoint. Between its read and its write, others may write. -/
def patchObject (others : List Write) (key invalid notFound modified : CString) : Option (Reply × World n) :=
  match body with
  | none | some [] => some (failure 400 "empty body" [], w)
  | some body =>
    onCurrent json now w key (failure 500 invalid []) (storageError 500) fun current revision w =>
      match json.parse body with
      | .null => some (failure 400 "invalid JSON" [], w)
      | patch => do
        match ← mergeStored json contentType notFound (fun obj patch => (mergeFields obj patch).map .ok) current patch with
        | .error reply => return (reply, w)
        | .ok (merged, httpStatus) =>
          writeBack json w others key merged revision httpStatus (failure 409 "Conflict" [("message", modified)])
            fun _ => storageError 500

/-- The delete endpoint. -/
def deleteObject (key notFound : CString) : Option (Reply × World n) := do
  let (status, _, w) ← managerDelete now w key
  match status with
  | .ok => return (noContent, w)
  | .notFound => return (failure 404 notFound [], w)
  | _ => return (storageError 500, w)

/-! ### Config maps -/

/-- `endpoint_create_configmap_etcd`. -/
def endpointCreateConfigmapEtcd : Option (Reply × World n) :=
  createStored json now w body (buildConfigmapEtcdKey ns) "name required in metadata"
    (failure 503 "etcd unavailable" []) (storageError 500)

/-- `endpoint_get_configmap_etcd`. -/
def endpointGetConfigmapEtcd (buffer : Body) : Option (Reply × World n) :=
  getObject json now w buffer (buildConfigmapEtcdKey ns name) "ConfigMap not found" (storageError 503)

/-- `endpoint_list_configmaps_etcd`. -/
def endpointListConfigmapsEtcd : Option (Reply × World n) :=
  listObjects json now w (CString.snprintf 512 (resourcePath "configmaps" ns)) "ConfigMapList"

/-- `endpoint_patch_configmap_etcd`. -/
def endpointPatchConfigmapEtcd (others : List Write) : Option (Reply × World n) :=
  patchObject json now w body contentType others (buildConfigmapEtcdKey ns name) "invalid configmap data"
    "ConfigMap not found" "ConfigMap was modified"

/-- `endpoint_delete_configmap_etcd`. -/
def endpointDeleteConfigmapEtcd : Option (Reply × World n) :=
  deleteObject now w (buildConfigmapEtcdKey ns name) "ConfigMap not found"

/-! ### Secrets -/

/-- `endpoint_create_secret_etcd`. -/
def endpointCreateSecretEtcd : Option (Reply × World n) :=
  createStored json now w body (buildSecretEtcdKey ns) "name required in metadata"
    (failure 503 "etcd unavailable" []) (storageError 500)

/-- `endpoint_get_secret_etcd`. -/
def endpointGetSecretEtcd (buffer : Body) : Option (Reply × World n) :=
  getObject json now w buffer (buildSecretEtcdKey ns name) "Secret not found" (storageError 503)

/-- `endpoint_list_secrets_etcd`. -/
def endpointListSecretsEtcd : Option (Reply × World n) :=
  listObjects json now w (CString.snprintf 512 (resourcePath "secrets" ns)) "SecretList"

/-- `endpoint_patch_secret_etcd`. -/
def endpointPatchSecretEtcd (others : List Write) : Option (Reply × World n) :=
  patchObject json now w body contentType others (buildSecretEtcdKey ns name) "invalid secret data" "Secret not found"
    "Secret was modified"

/-- `endpoint_delete_secret_etcd`. -/
def endpointDeleteSecretEtcd : Option (Reply × World n) :=
  deleteObject now w (buildSecretEtcdKey ns name) "Secret not found"

/-! ### PersistentVolumes -/

/-- `endpoint_create_pv_etcd`. -/
def endpointCreatePvEtcd : Option (Reply × World n) :=
  createStored json now w body buildPvEtcdKey "name required in metadata" (storageError 500) (storageError 500)

/-- `endpoint_get_pv_etcd`. -/
def endpointGetPvEtcd (buffer : Body) : Option (Reply × World n) :=
  getObject json now w buffer (buildPvEtcdKey name) "PersistentVolume not found" (storageError 500)

/-- `endpoint_list_pv_etcd`. -/
def endpointListPvEtcd : Option (Reply × World n) := listObjects json now w "/sirah/pv/" "PersistentVolumeList"

/-- `endpoint_patch_pv_etcd`. -/
def endpointPatchPvEtcd (others : List Write) : Option (Reply × World n) :=
  patchObject json now w body contentType others (buildPvEtcdKey name) "invalid pv data" "PersistentVolume not found"
    "PersistentVolume was modified"

/-- `endpoint_delete_pv_etcd`. -/
def endpointDeletePvEtcd : Option (Reply × World n) :=
  deleteObject now w (buildPvEtcdKey name) "PersistentVolume not found"

/-! ### PersistentVolumeClaims -/

/-- `endpoint_create_pvc_etcd`. -/
def endpointCreatePvcEtcd : Option (Reply × World n) :=
  createStored json now w body (buildPvcEtcdKey ns) "name required in metadata" (storageError 500) (storageError 500)

/-- `endpoint_get_pvc_etcd`. -/
def endpointGetPvcEtcd (buffer : Body) : Option (Reply × World n) :=
  getObject json now w buffer (buildPvcEtcdKey ns name) "PersistentVolumeClaim not found" (storageError 500)

/-- `endpoint_list_pvc_etcd`. -/
def endpointListPvcEtcd : Option (Reply × World n) :=
  listObjects json now w (CString.snprintf 512 (resourcePath "pvc" ns)) "PersistentVolumeClaimList"

/-- `endpoint_patch_pvc_etcd`. -/
def endpointPatchPvcEtcd (others : List Write) : Option (Reply × World n) :=
  patchObject json now w body contentType others (buildPvcEtcdKey ns name) "invalid pvc data"
    "PersistentVolumeClaim not found" "PersistentVolumeClaim was modified"

/-- `endpoint_delete_pvc_etcd`. -/
def endpointDeletePvcEtcd : Option (Reply × World n) :=
  deleteObject now w (buildPvcEtcdKey ns name) "PersistentVolumeClaim not found"

/-! ### Jobs -/

/-- `endpoint_create_job_etcd`. -/
def endpointCreateJobEtcd : Option (Reply × World n) :=
  createStored json now w body (buildJobEtcdKey ns) "job name required" (failure 500 "failed to store job" [])
    (failure 500 "failed to store job" [])

/-- `endpoint_delete_job_etcd`. -/
def endpointDeleteJobEtcd : Option (Reply × World n) := deleteStored now w ns buildJobEtcdKey "failed to delete job" name

end Endpoints

/-! ## The kinds and their objects -/

/-- The four kinds. -/
inductive ObjectKind where
  | configmap
  | secret
  | pv
  | pvc
  deriving DecidableEq, Repr

namespace ObjectKind

/-- What the kind is called in its keys. -/
def resource : ObjectKind → CString
  | configmap => "configmaps"
  | secret => "secrets"
  | pv => "pv"
  | pvc => "pvc"

def listKind : ObjectKind → String
  | configmap => "ConfigMapList"
  | secret => "SecretList"
  | pv => "PersistentVolumeList"
  | pvc => "PersistentVolumeClaimList"

/-- A PersistentVolume is in no namespace. -/
def nsOf (ns : Option CString) : ObjectKind → CString
  | pv => []
  | _ => ns.getD "default"

def key (ns name : Option CString) : ObjectKind → CString
  | configmap => buildConfigmapEtcdKey ns name
  | secret => buildSecretEtcdKey ns name
  | pv => buildPvEtcdKey name
  | pvc => buildPvcEtcdKey ns name

section

variable {n : Nat} [NeZero n] (json : JsonC) (now : Nat) (w : World n) (ns name body contentType : Option CString)

def create : ObjectKind → Option (Reply × World n)
  | configmap => endpointCreateConfigmapEtcd json now w ns body
  | secret => endpointCreateSecretEtcd json now w ns body
  | pv => endpointCreatePvEtcd json now w body
  | pvc => endpointCreatePvcEtcd json now w ns body

def get (buffer : Body) : ObjectKind → Option (Reply × World n)
  | configmap => endpointGetConfigmapEtcd json now w ns name buffer
  | secret => endpointGetSecretEtcd json now w ns name buffer
  | pv => endpointGetPvEtcd json now w name buffer
  | pvc => endpointGetPvcEtcd json now w ns name buffer

def list : ObjectKind → Option (Reply × World n)
  | configmap => endpointListConfigmapsEtcd json now w ns
  | secret => endpointListSecretsEtcd json now w ns
  | pv => endpointListPvEtcd json now w
  | pvc => endpointListPvcEtcd json now w ns

def patch (others : List Write) : ObjectKind → Option (Reply × World n)
  | configmap => endpointPatchConfigmapEtcd json now w ns name body contentType others
  | secret => endpointPatchSecretEtcd json now w ns name body contentType others
  | pv => endpointPatchPvEtcd json now w name body contentType others
  | pvc => endpointPatchPvcEtcd json now w ns name body contentType others

def delete : ObjectKind → Option (Reply × World n)
  | configmap => endpointDeleteConfigmapEtcd now w ns name
  | secret => endpointDeleteSecretEtcd now w ns name
  | pv => endpointDeletePvEtcd now w name
  | pvc => endpointDeletePvcEtcd now w ns name

end

end ObjectKind

/-- An object of one of the kinds. -/
structure ObjectId where
  kind : ObjectKind
  ns : CString
  name : CString
  deriving DecidableEq

namespace ObjectId

/-- The part of the key that names it. -/
def path (id : ObjectId) : CString := if id.kind = .pv then id.name else id.ns ++ 47 :: id.name

/-- The text of its key. -/
def key (id : ObjectId) : CString := CString.ofString "/sirah/" ++ id.kind.resource ++ 47 :: id.path

/-- Its names are ones that `validate_name` accepts, and the key fits its buffer. -/
structure Valid (id : ObjectId) : Prop where
  ns : if id.kind = .pv then id.ns = [] else Routing.validateName id.ns = true
  name : Routing.validateName id.name = true
  fits : id.key.length < 512

end ObjectId

/-! ## What the store is for -/

/-- A request that may write, with the time it is made at. -/
inductive StoreRequest where
  | create (kind : ObjectKind) (ns body : Option CString) (now : Nat)
  | delete (kind : ObjectKind) (ns name : Option CString) (now : Nat)
  | patch (kind : ObjectKind) (ns name body contentType : Option CString) (now : Nat)
  | createJob (ns body : Option CString) (now : Nat)
  | deleteJob (ns name : Option CString) (now : Nat)
  | other (request : Request)

/-- The world after a request; one that ends the process has not written. -/
def storeStep {n : Nat} [NeZero n] (json : JsonC) (w : World n) : StoreRequest → World n
  | .create kind ns body now => ((kind.create json now w ns body).map Prod.snd).getD w
  | .delete kind ns name now => ((kind.delete now w ns name).map Prod.snd).getD w
  | .patch kind ns name body contentType now => ((kind.patch json now w ns name body contentType []).map Prod.snd).getD w
  | .createJob ns body now => ((endpointCreateJobEtcd json now w ns body).map Prod.snd).getD w
  | .deleteJob ns name now => ((endpointDeleteJobEtcd now w ns name).map Prod.snd).getD w
  | .other request => step json w request

/-- The objects that were created last and not deleted. -/
abbrev Objects := ObjectId → Option Json

/-- What a request means. -/
def Objects.apply (json : JsonC) (objects : Objects) : StoreRequest → Objects
  | .create kind ns body _ =>
    match named json body with
    | none => objects
    | some (obj, name) => Function.update objects ⟨kind, kind.nsOf ns, name⟩ (some obj)
  | .delete kind ns name _ => Function.update objects ⟨kind, kind.nsOf ns, name.getD "unknown"⟩ none
  | _ => objects

namespace StoreRequest

/-- The names in a request are ones that `validate_name` accepts. -/
def Valid (json : JsonC) : StoreRequest → Prop
  | create kind ns body _ => ∀ obj name, named json body = some (obj, name) → ObjectId.Valid ⟨kind, kind.nsOf ns, name⟩
  | delete kind ns name _ => ObjectId.Valid ⟨kind, kind.nsOf ns, name.getD "unknown"⟩
  | _ => True

/-- json-c prints what is stored as a text that it reads back. -/
def ReadsBack (json : JsonC) : StoreRequest → Prop
  | create _ _ body _ | createJob _ body _ => ∀ obj name, named json body = some (obj, name) →
    json.render obj ≠ [] ∧ json.parse (json.render obj) = obj
  | other request => request.ReadsBack json
  | _ => True

end StoreRequest

/-! ## Keys -/

section Keys

variable {id id' : ObjectId} {kind : ObjectKind} {ns name : Option CString}

/-- What the keys of a resource begin with. -/
def root (resource : CString) : CString := CString.ofString "/sirah/" ++ resource ++ [47]

/-- A key is below one resource. -/
theorem root_inj {resource resource' key : CString} (h : 47 ∉ resource) (h' : 47 ∉ resource')
    (hpre : root resource <+: key) (hpre' : root resource' <+: key) : resource = resource' := by
  obtain ⟨t, rfl⟩ := hpre
  obtain ⟨t', ht'⟩ := hpre'
  simp only [root, List.append_assoc, List.singleton_append] at ht'
  have hsplit := congrArg (CString.strchr 47) (List.append_cancel_left ht')
  rw [CString.strchr_append h, CString.strchr_append h'] at hsplit
  exact (Prod.mk.inj (Option.some.inj hsplit)).1.symm

theorem resource_slash (kind : ObjectKind) : 47 ∉ kind.resource := by cases kind <;> decide

theorem resource_inj {kind kind' : ObjectKind} (h : kind.resource = kind'.resource) : kind = kind' := by
  cases kind <;> cases kind' <;> first | rfl | exact absurd h (by decide)

theorem root_prefix_key (id : ObjectId) : root id.kind.resource <+: id.key :=
  ⟨id.path, by simp [root, ObjectId.key]⟩

/-- The kind of a key. -/
theorem root_prefix_iff : root kind.resource <+: id.key ↔ id.kind = kind := by
  constructor
  · intro h
    exact resource_inj (root_inj (resource_slash _) (resource_slash _) (root_prefix_key id) h)
  · rintro rfl
    exact root_prefix_key id

/-- **A key names one object.** -/
theorem key_inj (h : id.Valid) (h' : id'.Valid) (heq : id.key = id'.key) : id = id' := by
  have hkind : id'.kind = id.kind := root_prefix_iff.mp (heq ▸ root_prefix_key id)
  have hpath : id.path = id'.path := by
    have hcut := heq
    simp only [ObjectId.key, hkind] at hcut
    exact (List.cons.inj (List.append_cancel_left hcut)).2
  obtain ⟨kind, ns, name⟩ := id
  obtain ⟨kind', ns', name'⟩ := id'
  obtain rfl : kind' = kind := hkind
  have hns := h.ns
  have hns' := h'.ns
  simp only [ObjectId.path] at hpath
  by_cases hpv : kind' = .pv
  · simp only [hpv, if_true] at hns hns' hpath
    rw [hns, hns', hpath]
  · simp only [hpv, if_false] at hns hns' hpath
    have hsplit := congrArg (CString.strchr 47) hpath
    rw [CString.strchr_append (Routing.validateName_spec hns).1.1,
      CString.strchr_append (Routing.validateName_spec hns').1.1] at hsplit
    obtain ⟨rfl, rfl⟩ := Prod.mk.inj (Option.some.inj hsplit)
    rfl

/-- **The key that an endpoint builds.** -/
theorem kind_key_eq (h : ObjectId.Valid ⟨kind, kind.nsOf ns, name.getD "unknown"⟩) :
    kind.key ns name = ObjectId.key ⟨kind, kind.nsOf ns, name.getD "unknown"⟩ := by
  have hfits := h.fits
  have hnamespaced : ∀ resource : CString, buildEtcdKey resource 512 ns name =
      CString.snprintf 512
        (CString.ofString "/sirah/" ++ resource ++ 47 :: (ns.getD "default" ++ 47 :: name.getD "unknown")) := by
    intro resource
    simp [buildEtcdKey, resourcePath]
  cases kind with
  | configmap => exact (hnamespaced "configmaps").trans (CString.snprintf_of_lt hfits)
  | secret => exact (hnamespaced "secrets").trans (CString.snprintf_of_lt hfits)
  | pv => exact CString.snprintf_of_lt hfits
  | pvc => exact (hnamespaced "pvc").trans (CString.snprintf_of_lt hfits)

/-- A key that is cut begins as it would. -/
theorem root_prefix_build (resource : CString) {size : Nat} (hsize : resource.length + 8 < size) (ns name : Option CString) :
    root resource <+: buildEtcdKey resource size ns name := by
  have hlength : (root resource).length = resource.length + 8 := by
    simp [root, CString.ofString]
  unfold buildEtcdKey CString.snprintf
  rw [List.prefix_take_iff, hlength]
  exact ⟨⟨ns.getD "default" ++ [47] ++ name.getD "unknown", by simp [root, resourcePath]⟩, by omega⟩

/-- The keys of pods, services, deployments, stateful sets and jobs are of no object of these kinds. -/
theorem other_key (kind : ObjectKind) (other : Kind) (ns name : Option CString) :
    ¬ root kind.resource <+: other.key ns name := by
  have hother : ∀ (resource : CString) (size : Nat), 47 ∉ resource → resource.length + 8 < size → kind.resource ≠ resource →
      ¬ root kind.resource <+: buildEtcdKey resource size ns name :=
    fun resource size hslash hsize hne hpre =>
      hne (root_inj (resource_slash kind) hslash hpre (root_prefix_build resource hsize ns name))
  cases other with
  | pod => exact hother "pods" 512 (by decide) (by decide) (by cases kind <;> decide)
  | service => exact hother "services" 256 (by decide) (by decide) (by cases kind <;> decide)
  | deployment => exact hother "deployments" 256 (by decide) (by decide) (by cases kind <;> decide)
  | statefulset => exact hother "statefulsets" 256 (by decide) (by decide) (by cases kind <;> decide)

theorem job_key (kind : ObjectKind) (ns name : Option CString) : ¬ root kind.resource <+: buildJobEtcdKey ns name := by
  intro hpre
  have heq := root_inj (resource_slash kind) (by decide) hpre (root_prefix_build "jobs" (by decide) ns name)
  cases kind <;> exact absurd heq (by decide)

end Keys

/-! ## What the requests do to the store -/

section Store

variable {n : Nat} {json : JsonC} {w : World n} {objects : Objects} {kind : ObjectKind} {ns name body : Option CString}

variable (json w objects) in
/-- **The store represents the map.** -/
structure StoreRepresents : Prop where
  ready : Ready w.client
  value : ∀ kv ∈ w.server.kvs, kv.value ≠ []
  found : ∀ id : ObjectId, id.Valid → (w.server.find id.key).map (fun kv => json.parse kv.value) = objects id
  hasMeta : ∀ id obj, objects id = some obj → HasMeta obj
  valid : ∀ id, objects id ≠ none → id.Valid
  keyed : ∀ kv ∈ w.server.kvs, ∀ kind : ObjectKind, root kind.resource <+: kv.key →
    ∃ id : ObjectId, id.Valid ∧ id.kind = kind ∧ kv.key = id.key

/-- The server after a put or a delete has nothing new but what was put. -/
theorem StoreRepresents.frame {w' : World n} (h : StoreRepresents json w objects) (hready : Ready w'.client)
    (hkvs : ∀ kv ∈ w'.server.kvs, kv ∈ w.server.kvs ∨ kv.value ≠ [] ∧ ∀ kind : ObjectKind, ¬ root kind.resource <+: kv.key)
    (hfind : ∀ id : ObjectId, w'.server.find id.key = w.server.find id.key) : StoreRepresents json w' objects := by
  refine ⟨hready, fun kv hkv => ?_, fun id hid => ?_, h.hasMeta, h.valid, fun kv hkv kind hroot => ?_⟩
  · obtain hold | ⟨hvalue, -⟩ := hkvs kv hkv
    · exact h.value kv hold
    · exact hvalue
  · rw [hfind]
    exact h.found id hid
  · obtain hold | ⟨-, hother⟩ := hkvs kv hkv
    · exact h.keyed kv hold kind hroot
    · exact absurd hroot (hother kind)

/-- **A write under another key.** -/
theorem StoreRepresents.putOther {c : Client n} {key value : CString} (h : StoreRepresents json w objects) (hc : Ready c)
    (hkey : ∀ kind : ObjectKind, ¬ root kind.resource <+: key) (hvalue : value ≠ []) :
    StoreRepresents json ⟨c, w.server.put key value⟩ objects := by
  refine h.frame hc (fun kv hkv => ?_) fun id => ?_
  · obtain hold | ⟨rfl, rfl, -⟩ := mem_putKv hkv
    · exact .inl hold
    · exact .inr ⟨hvalue, hkey⟩
  · refine w.server.find_put_ne value ?_
    rintro rfl
    exact hkey id.kind (root_prefix_key id)

theorem StoreRepresents.deleteOther {c : Client n} {key : CString} (h : StoreRepresents json w objects) (hc : Ready c)
    (hkey : ∀ kind : ObjectKind, ¬ root kind.resource <+: key) :
    StoreRepresents json ⟨c, w.server.delete key⟩ objects := by
  refine h.frame hc (fun kv hkv => .inl (List.mem_of_mem_filter hkv)) fun id => ?_
  refine w.server.find_delete_ne ?_
  rintro rfl
  exact hkey id.kind (root_prefix_key id)

/-- **An object is stored.** -/
theorem StoreRepresents.put {c : Client n} {id : ObjectId} {value : CString} {obj : Json} (h : StoreRepresents json w objects)
    (hc : Ready c) (hid : id.Valid) (hvalue : value ≠ []) (hparse : json.parse value = obj) (hmeta : HasMeta obj) :
    StoreRepresents json ⟨c, w.server.put id.key value⟩ (Function.update objects id (some obj)) := by
  refine ⟨hc, fun kv hkv => ?_, fun id' hid' => ?_, fun id' obj' hobj' => ?_, fun id' hid' => ?_, fun kv hkv kind hroot => ?_⟩
  · obtain hold | ⟨-, rfl, -⟩ := mem_putKv hkv
    · exact h.value kv hold
    · exact hvalue
  · by_cases heq : id' = id
    · obtain ⟨kv, hfind, hkv, -⟩ := w.server.find_put id.key value
      rw [heq, hfind, Option.map_some, hkv, hparse, Function.update_self]
    · rw [w.server.find_put_ne value fun hkey => heq (key_inj hid' hid hkey.symm), Function.update_of_ne heq]
      exact h.found id' hid'
  · by_cases heq : id' = id
    · rw [heq, Function.update_self] at hobj'
      exact Option.some.inj hobj' ▸ hmeta
    · rw [Function.update_of_ne heq] at hobj'
      exact h.hasMeta id' obj' hobj'
  · by_cases heq : id' = id
    · exact heq ▸ hid
    · rw [Function.update_of_ne heq] at hid'
      exact h.valid id' hid'
  · obtain hold | ⟨hkey, -, -⟩ := mem_putKv hkv
    · exact h.keyed kv hold kind hroot
    · exact ⟨id, hid, root_prefix_iff.mp (hkey ▸ hroot), hkey⟩

/-- **An object is deleted.** -/
theorem StoreRepresents.delete {c : Client n} {id : ObjectId} (h : StoreRepresents json w objects) (hc : Ready c)
    (hid : id.Valid) : StoreRepresents json ⟨c, w.server.delete id.key⟩ (Function.update objects id none) := by
  refine ⟨hc, fun kv hkv => h.value kv (List.mem_of_mem_filter hkv), fun id' hid' => ?_, fun id' obj' hobj' => ?_,
    fun id' hid' => ?_, fun kv hkv => h.keyed kv (List.mem_of_mem_filter hkv)⟩
  · by_cases heq : id' = id
    · have hnone : (w.server.delete id.key).find id.key = none := by
        refine Option.eq_none_iff_forall_ne_some.mpr fun kv hkv => ?_
        obtain ⟨hmem, hkey⟩ := Server.find_some hkv
        exact absurd hkey (of_decide_eq_true (List.mem_filter.mp hmem).2)
      rw [heq, hnone, Function.update_self]
      rfl
    · rw [w.server.find_delete_ne fun hkey => heq (key_inj hid' hid hkey.symm), Function.update_of_ne heq]
      exact h.found id' hid'
  · by_cases heq : id' = id
    · rw [heq, Function.update_self] at hobj'
      cases hobj'
    · rw [Function.update_of_ne heq] at hobj'
      exact h.hasMeta id' obj' hobj'
  · by_cases heq : id' = id
    · rw [heq, Function.update_self] at hid'
      exact absurd rfl hid'
    · rw [Function.update_of_ne heq] at hid'
      exact h.valid id' hid'

/-! ### The endpoints -/

variable [NeZero n]

/-- What is accepted is stored as it came. -/
theorem createStored_accepted (hw : Ready w.client) {obj : Json} {name : CString} (hnamed : named json body = some (obj, name))
    (key : Option CString → CString) (nameRequired : CString) (unavailable failed : Reply) (now : Nat) :
    ∃ reply c, createStored json now w body key nameRequired unavailable failed =
        some (reply, ⟨c, w.server.put (key (some name)) (json.render obj)⟩) ∧ Ready c := by
  obtain ⟨r, c, hput, hc, -⟩ := managerPut_spec hw now (key (some name)) (json.render obj)
  obtain ⟨doc, hdoc, -⟩ := (named_hasMeta hnamed).addMeta "resourceVersion" (revisionToResourceVersion r.revision)
  refine ⟨⟨201, .doc doc⟩, c, ?_, hc⟩
  simp only [createStored, onNamed_some hnamed, hput, hdoc, Option.bind_eq_bind, Option.bind_some, Option.pure_def]

/-- What is not accepted changes nothing. -/
theorem createStored_refused (hnamed : named json body = none) (key : Option CString → CString) (nameRequired : CString)
    (unavailable failed : Reply) (now : Nat) :
    ∃ reply, createStored json now w body key nameRequired unavailable failed = some (reply, w) :=
  (onNamed_none hnamed _ _ _).imp fun _ h => h.1

theorem deleteObject_spec (hw : Ready w.client) (key notFound : CString) (now : Nat) :
    ∃ c, deleteObject now w key notFound = some (noContent, ⟨c, w.server.delete key⟩) ∧ Ready c := by
  obtain ⟨r, c, hdelete, hc⟩ := managerDelete_spec hw now key
  refine ⟨c, ?_, hc⟩
  simp only [deleteObject, hdelete, Option.bind_eq_bind, Option.bind_some, Option.pure_def]

/-- **A patch writes nothing**: its compare is with a revision that no stored object has, and without an object the process
is gone before. -/
theorem patchObject_spec (hw : Ready w.client) (key invalid notFound modified : CString) (contentType : Option CString)
    (now : Nat) {reply : Reply} {w' : World n}
    (h : patchObject json now w body contentType [] key invalid notFound modified = some (reply, w')) :
    w'.server = w.server ∧ Ready w'.client := by
  unfold patchObject at h
  split at h
  · cases h
    exact ⟨rfl, hw⟩
  · cases h
    exact ⟨rfl, hw⟩
  · obtain ⟨r, c, hget, hc, hrevision, hvalue⟩ := managerGet_spec json.render hw now key
    simp only [onCurrent, hget, Option.bind_eq_bind, Option.bind_some] at h
    obtain ⟨value, hstored, h⟩ := Option.bind_eq_some_iff.mp h
    obtain ⟨kv, hfind, -⟩ := Option.bind_eq_some_iff.mp (hvalue.symm.trans hstored)
    split at h
    · cases h
      exact ⟨rfl, hc⟩
    · split at h
      · cases h
        exact ⟨rfl, hc⟩
      · obtain ⟨merged, -, h⟩ := Option.bind_eq_some_iff.mp h
        split at h
        · cases h
          exact ⟨rfl, hc⟩
        · have hsame : (interfered ⟨c, w.server⟩ []).server.find key = some kv := hfind
          rw [hrevision, writeBack_stored hsame] at h
          cases h
          exact ⟨rfl, hc⟩

/-! ### One request -/

/-- What a create endpoint of the four kinds does. -/
theorem create_spec (hw : Ready w.client) {obj : Json} {name : CString} (hnamed : named json body = some (obj, name))
    (hid : ObjectId.Valid ⟨kind, kind.nsOf ns, name⟩) (now : Nat) :
    ∃ reply c, kind.create json now w ns body =
        some (reply, ⟨c, w.server.put (ObjectId.key ⟨kind, kind.nsOf ns, name⟩) (json.render obj)⟩) ∧ Ready c := by
  have hkey : kind.key ns (some name) = ObjectId.key ⟨kind, kind.nsOf ns, name⟩ := kind_key_eq hid
  rw [← hkey]
  cases kind <;> exact createStored_accepted hw hnamed _ _ _ _ now

theorem create_refused (hnamed : named json body = none) (kind : ObjectKind) (ns : Option CString) (now : Nat) :
    ∃ reply, kind.create json now w ns body = some (reply, w) := by
  cases kind <;> exact createStored_refused hnamed _ _ _ _ now

theorem kind_delete_spec (hw : Ready w.client) (hid : ObjectId.Valid ⟨kind, kind.nsOf ns, name.getD "unknown"⟩) (now : Nat) :
    ∃ c, kind.delete now w ns name =
        some (noContent, ⟨c, w.server.delete (ObjectId.key ⟨kind, kind.nsOf ns, name.getD "unknown"⟩)⟩) ∧ Ready c := by
  rw [← kind_key_eq hid]
  cases kind <;> exact deleteObject_spec hw _ _ now

theorem patch_spec (hw : Ready w.client) (kind : ObjectKind) (ns name body contentType : Option CString) (now : Nat)
    {reply : Reply} {w' : World n} (h : kind.patch json now w ns name body contentType [] = some (reply, w')) :
    w'.server = w.server ∧ Ready w'.client := by
  cases kind <;> exact patchObject_spec hw _ _ _ _ _ now h

/-- **One request** does to the store what it means for the map. -/
theorem represents_step (h : StoreRepresents json w objects) {request : StoreRequest} (hvalid : request.Valid json)
    (hreads : request.ReadsBack json) : StoreRepresents json (storeStep json w request) (objects.apply json request) := by
  cases request with
  | create kind ns body now =>
    cases hnamed : named json body with
    | none =>
      obtain ⟨reply, hcreate⟩ := create_refused (w := w) hnamed kind ns now
      simp only [storeStep, Objects.apply, hnamed, hcreate, Option.map_some, Option.getD_some]
      exact h
    | some accepted =>
      obtain ⟨obj, name⟩ := accepted
      obtain ⟨reply, c, hcreate, hc⟩ := create_spec h.ready hnamed (hvalid obj name hnamed) now
      obtain ⟨hvalue, hparse⟩ := hreads obj name hnamed
      simp only [storeStep, Objects.apply, hnamed, hcreate, Option.map_some, Option.getD_some]
      exact h.put hc (hvalid obj name hnamed) hvalue hparse (named_hasMeta hnamed)
  | delete kind ns name now =>
    obtain ⟨c, hdelete, hc⟩ := kind_delete_spec h.ready hvalid now
    simp only [storeStep, Objects.apply, hdelete, Option.map_some, Option.getD_some]
    exact h.delete hc hvalid
  | patch kind ns name body contentType now =>
    cases hpatch : kind.patch json now w ns name body contentType [] with
    | none =>
      simp only [storeStep, Objects.apply, hpatch, Option.map_none, Option.getD_none]
      exact h
    | some answer =>
      obtain ⟨hserver, hc⟩ := patch_spec h.ready kind ns name body contentType now hpatch
      simp only [storeStep, Objects.apply, hpatch, Option.map_some, Option.getD_some]
      refine h.frame hc (fun kv hkv => .inl (hserver ▸ hkv)) fun id => by rw [hserver]
  | createJob ns body now =>
    cases hnamed : named json body with
    | none =>
      obtain ⟨reply, hcreate⟩ : ∃ reply, endpointCreateJobEtcd json now w ns body = some (reply, w) :=
        createStored_refused hnamed _ _ _ _ now
      simp only [storeStep, Objects.apply, hcreate, Option.map_some, Option.getD_some]
      exact h
    | some accepted =>
      obtain ⟨obj, name⟩ := accepted
      obtain ⟨reply, c, hcreate, hc⟩ : ∃ reply c, endpointCreateJobEtcd json now w ns body =
          some (reply, ⟨c, w.server.put (buildJobEtcdKey ns (some name)) (json.render obj)⟩) ∧ Ready c :=
        createStored_accepted h.ready hnamed _ _ _ _ now
      simp only [storeStep, Objects.apply, hcreate, Option.map_some, Option.getD_some]
      exact h.putOther hc (fun kind => job_key kind ns (some name)) (hreads obj name hnamed).1
  | deleteJob ns name now =>
    obtain ⟨r, c, hdelete, hc⟩ := managerDelete_spec h.ready now (buildJobEtcdKey ns name)
    simp only [storeStep, Objects.apply, endpointDeleteJobEtcd, deleteStored, hdelete, Option.bind_eq_bind, Option.bind_some,
      Option.pure_def, Option.map_some, Option.getD_some]
    exact h.deleteOther hc fun kind => job_key kind ns name
  | other request =>
    cases request with
    | create kind ns body now uid =>
      cases hnamed : named json body with
      | none =>
        obtain ⟨reply, hcreate, -⟩ := create_rejected (w := w) hnamed kind ns now uid
        simp only [storeStep, Objects.apply, step, hcreate, Option.map_some, Option.getD_some]
        exact h
      | some accepted =>
        obtain ⟨obj, name⟩ := accepted
        obtain ⟨stored, hstored, -⟩ := (named_hasMeta hnamed).toStore now kind
        obtain ⟨doc, c, hcreate, hc, -⟩ := create_accepted h.ready kind ns now uid hnamed hstored
        simp only [storeStep, Objects.apply, step, hcreate, Option.map_some, Option.getD_some]
        exact h.putOther hc (fun own => other_key own kind ns (some name)) (hreads obj name stored hnamed hstored).1
    | delete kind ns name now =>
      obtain ⟨reply, c, hc, hdelete | hdelete⟩ := delete_spec h.ready kind ns name now
      · simp only [storeStep, Objects.apply, step, hdelete, Option.map_some, Option.getD_some]
        exact h.deleteOther hc fun own => other_key own kind ns name
      · simp only [storeStep, Objects.apply, step, hdelete, Option.map_some, Option.getD_some]
        exact h.frame hc (fun kv hkv => .inl hkv) fun _ => rfl

/-! ## What is answered -/

/-- **Get** answers the object that the map has, and nothing for a name that it has not. -/
theorem StoreRepresents.get (h : StoreRepresents json w objects) (hid : ObjectId.Valid ⟨kind, kind.nsOf ns, name.getD "unknown"⟩)
    (now : Nat) (buffer : Body) :
    match objects ⟨kind, kind.nsOf ns, name.getD "unknown"⟩ with
    | none => kind.get json now w ns name buffer = none
    | some obj => ∃ doc w', kind.get json now w ns name buffer = some (⟨200, .doc doc⟩, w') ∧ SameObject doc obj := by
  have hget : ∀ key notFound failed, key = ObjectId.key ⟨kind, kind.nsOf ns, name.getD "unknown"⟩ →
      match objects ⟨kind, kind.nsOf ns, name.getD "unknown"⟩ with
      | none => getObject json now w buffer key notFound failed = none
      | some obj => ∃ doc w', getObject json now w buffer key notFound failed = some (⟨200, .doc doc⟩, w') ∧
          SameObject doc obj := by
    rintro _ notFound failed rfl
    obtain ⟨r, c, hmanager, -, hrevision, hvalue⟩ := managerGet_spec json.render h.ready now
      (ObjectId.key ⟨kind, kind.nsOf ns, name.getD "unknown"⟩)
    have hfound := h.found _ hid
    cases hobj : objects ⟨kind, kind.nsOf ns, name.getD "unknown"⟩ with
    | none =>
      rw [hobj, Option.map_eq_none_iff] at hfound
      rw [hfound, Option.bind_none] at hvalue
      simp only [getObject, hmanager, hvalue, Option.bind_eq_bind, Option.bind_some, Option.bind_none]
    | some obj =>
      rw [hobj, Option.map_eq_some_iff] at hfound
      obtain ⟨kv, hfind, hparse⟩ := hfound
      have hsent : kv.sent = some kv.value := if_neg (h.value kv (Server.find_some hfind).1)
      rw [hfind, Option.bind_some, hsent] at hvalue
      obtain ⟨ms, mm, hms, -⟩ := h.hasMeta _ obj hobj
      obtain ⟨doc, hdoc, hsame, -⟩ := (h.hasMeta _ obj hobj).withResourceVersion 0
      refine ⟨doc, ⟨c, w.server⟩, ?_, hsame⟩
      rw [hms] at hparse hdoc
      simp only [getObject, hmanager, hvalue, hrevision, hparse, hdoc, Option.bind_eq_bind, Option.bind_some, Option.pure_def]
  have hkey := kind_key_eq hid
  cases kind <;> exact hget _ _ _ hkey

omit [NeZero n] in
/-- What the keys of a list begin with. -/
def listPrefix (kind : ObjectKind) (ns : Option CString) : CString :=
  if kind = .pv then root kind.resource else root kind.resource ++ ns.getD "default" ++ [47]

/-- The namespace that is asked for is one that `validate_name` accepts. -/
def ValidNs (kind : ObjectKind) (ns : Option CString) : Prop :=
  kind ≠ .pv → Routing.validateName (ns.getD "default") = true

omit [NeZero n] in
/-- **The keys that a list asks for** are those of the objects of the kind in the namespace. -/
theorem listPrefix_iff {id : ObjectId} (hid : id.Valid) (hns : ValidNs kind ns) :
    listPrefix kind ns <+: id.key ↔ id.kind = kind ∧ id.ns = kind.nsOf ns := by
  obtain ⟨kind', ns', name⟩ := id
  have hns' := hid.ns
  dsimp only at hns'
  constructor
  · intro h
    have hroot : root kind.resource <+: listPrefix kind ns := by
      unfold listPrefix
      split
      · exact List.prefix_rfl
      · rw [List.append_assoc]
        exact List.prefix_append _ _
    obtain rfl : kind' = kind := root_prefix_iff.mp (hroot.trans h)
    refine ⟨rfl, ?_⟩
    by_cases hpv : kind' = .pv
    · simp only [hpv, if_true] at hns'
      simp only [hpv, ObjectKind.nsOf, hns']
    · simp only [hpv, if_false] at hns'
      obtain ⟨t, ht⟩ := h
      simp only [listPrefix, hpv, if_false, root, ObjectId.key, ObjectId.path, List.append_assoc, List.singleton_append] at ht
      have hcut : ns.getD "default" ++ 47 :: t = ns' ++ 47 :: name :=
        (List.cons.inj (List.append_cancel_left (List.append_cancel_left ht))).2
      have hsplit := congrArg (CString.strchr 47) hcut
      rw [CString.strchr_append (Routing.validateName_spec (hns hpv)).1.1,
        CString.strchr_append (Routing.validateName_spec hns').1.1] at hsplit
      have heq := (Prod.mk.inj (Option.some.inj hsplit)).1
      rw [← heq]
      cases kind' with
      | pv => exact absurd rfl hpv
      | _ => rfl
  · rintro ⟨rfl, hns''⟩
    by_cases hpv : kind' = .pv
    · simp only [listPrefix, hpv, if_true]
      exact ⟨name, by simp [root, ObjectId.key, ObjectId.path]⟩
    · have heq : ns' = ns.getD "default" := by
        cases kind' with
        | pv => exact absurd rfl hpv
        | _ => exact hns''
      simp only [listPrefix, hpv, if_false]
      exact ⟨name, by simp [root, ObjectId.key, ObjectId.path, hpv, heq]⟩

omit [NeZero n] in
/-- What follows in a key is the name. -/
theorem key_eq_listPrefix {id : ObjectId} (hid : id.Valid) (hkind : id.kind = kind) (hns : id.ns = kind.nsOf ns) :
    id.key = listPrefix kind ns ++ id.name := by
  obtain ⟨kind', ns', name⟩ := id
  obtain rfl : kind' = kind := hkind
  obtain rfl : ns' = kind'.nsOf ns := hns
  cases kind' <;> simp [listPrefix, root, ObjectId.key, ObjectId.path, ObjectKind.nsOf]

/-- The items of a list are the stored values, each with its version. -/
theorem podItems_of_hasMeta : ∀ {kvs : List Kv} {versions : List Nat}, (∀ kv ∈ kvs, HasMeta (json.parse kv.value)) →
    versions.length = kvs.length → ∃ items, podItems json ((kvs.map Kv.value).zip versions) = some items ∧
      List.Forall₂ (fun kv item => SameObject item (json.parse kv.value)) kvs items
  | [], [], _, _ => ⟨[], rfl, .nil⟩
  | kv :: kvs, version :: versions, h, hlen => by
    obtain ⟨items, hitems, hall⟩ := podItems_of_hasMeta (fun x hx => h x (List.mem_cons_of_mem kv hx)) (Nat.succ.inj hlen)
    obtain ⟨item, hitem, hsame, -⟩ := (h kv List.mem_cons_self).withResourceVersion version
    obtain ⟨ms, mm, hparse, -⟩ := h kv List.mem_cons_self
    refine ⟨item :: items, ?_, .cons hsame hall⟩
    rw [hparse] at hitem
    simp only [List.map_cons, List.zip_cons_cons, podItems, hparse, hitem, Option.bind_eq_bind, Option.bind_some, hitems,
      Option.pure_def]

omit [NeZero n] in
/-- The range of a list is below the prefix. -/
theorem mem_range_listPrefix (s : Server) (kind : ObjectKind) (ns : Option CString) (kv : Kv) :
    kv ∈ s.range (listPrefix kind ns) (rangeEnd (listPrefix kind ns)) ↔ kv ∈ s.kvs ∧ listPrefix kind ns <+: kv.key := by
  obtain ⟨p, hp, hpre⟩ : ∃ p, p ≠ [] ∧ listPrefix kind ns = p ++ [47] := by
    unfold listPrefix
    split
    · exact ⟨CString.ofString "/sirah/" ++ kind.resource, by simp [CString.ofString], rfl⟩
    · exact ⟨root kind.resource ++ ns.getD "default", by simp [root], rfl⟩
  have hlength : 1 < (listPrefix kind ns).length := by
    have hpos : 0 < p.length := List.length_pos_iff.mpr hp
    rw [hpre, List.length_append, List.length_singleton]
    omega
  have hlast : (listPrefix kind ns).getLast? ≠ some 255 := by
    rw [hpre, List.getLast?_concat]
    decide
  rw [(s.range_perm _ _).mem_iff, List.mem_filter, Server.inRange_rangeEnd hlength, and_iff_right hlast]

/-- The endpoint asks for the prefix. -/
theorem list_eq (hns : ValidNs kind ns) (now : Nat) :
    kind.list json now w ns = listObjects json now w (listPrefix kind ns) kind.listKind := by
  have hfits : ∀ resource : CString, resource.length ≤ 10 → Routing.validateName (ns.getD "default") = true →
      CString.snprintf 512 (resourcePath resource ns) = root resource ++ ns.getD "default" ++ [47] := by
    intro resource hresource hvalid
    have hlength := (Routing.validateName_spec hvalid).2.2
    refine (CString.snprintf_of_lt ?_).trans (by simp [resourcePath, root])
    have hroot : (CString.ofString "/sirah/").length = 7 := rfl
    simp only [resourcePath, List.length_append, List.length_singleton, hroot]
    omega
  cases kind with
  | configmap => exact congrArg (listObjects json now w · _) (hfits "configmaps" (by decide) (hns (by decide)))
  | secret => exact congrArg (listObjects json now w · _) (hfits "secrets" (by decide) (hns (by decide)))
  | pv => rfl
  | pvc => exact congrArg (listObjects json now w · _) (hfits "pvc" (by decide) (hns (by decide)))

omit [NeZero n] in
/-- What is stored below the prefix are the objects of the kind in the namespace. -/
theorem StoreRepresents.listed (h : StoreRepresents json w objects) (hns : ValidNs kind ns) {kv : Kv}
    (hkv : kv ∈ w.server.kvs) (hpre : listPrefix kind ns <+: kv.key) :
    ∃ name, kv.key = listPrefix kind ns ++ name ∧ objects ⟨kind, kind.nsOf ns, name⟩ = some (json.parse kv.value) := by
  have hroot : root kind.resource <+: kv.key := by
    refine List.IsPrefix.trans ?_ hpre
    unfold listPrefix
    split
    · exact List.prefix_rfl
    · rw [List.append_assoc]
      exact List.prefix_append _ _
  obtain ⟨id, hid, -, hkey⟩ := h.keyed kv hkv kind hroot
  obtain ⟨hkind, hidns⟩ := (listPrefix_iff hid hns).mp (hkey ▸ hpre)
  have hfound := h.found id hid
  rw [← hkey, Server.find_of_mem hkv, Option.map_some] at hfound
  obtain ⟨kind', ns', name⟩ := id
  obtain rfl : kind' = kind := hkind
  obtain rfl : ns' = kind'.nsOf ns := hidns
  exact ⟨name, hkey.trans (key_eq_listPrefix hid rfl rfl), hfound.symm⟩

/-- **List** answers what the map has of the kind in the namespace, each name once. -/
theorem StoreRepresents.list (h : StoreRepresents json w objects) (hns : ValidNs kind ns) (now : Nat) :
    ∃ (names : List CString) (items : List Json) (w' : World n),
      kind.list json now w ns = some (⟨200, .doc (listDoc "v1" kind.listKind items)⟩, w') ∧ names.Nodup ∧
        (∀ name, name ∈ names ↔ objects ⟨kind, kind.nsOf ns, name⟩ ≠ none) ∧
        List.Forall₂ (fun name item => ∃ obj, objects ⟨kind, kind.nsOf ns, name⟩ = some obj ∧ SameObject item obj)
          names items := by
  have hmem := mem_range_listPrefix w.server kind ns
  have hnodup : (w.server.range (listPrefix kind ns) (rangeEnd (listPrefix kind ns))).Nodup :=
    (w.server.range_perm _ _).nodup_iff.mpr (w.server.nodup.of_map.filter _)
  obtain ⟨r, c, hmanager, -, -, hvalues, hlength⟩ := managerList_spec json.render h.ready now (listPrefix kind ns) h.value
  generalize w.server.range (listPrefix kind ns) (rangeEnd (listPrefix kind ns)) = kvs at hmem hnodup hvalues
  rw [hvalues, List.length_map] at hlength
  -- the names are what follows the prefix in the keys
  let name (kv : Kv) : CString := kv.key.drop (listPrefix kind ns).length
  have hname : ∀ kv ∈ kvs, kv.key = listPrefix kind ns ++ name kv ∧
      objects ⟨kind, kind.nsOf ns, name kv⟩ = some (json.parse kv.value) := by
    intro kv hkv
    obtain ⟨hstored, hpre⟩ := (hmem kv).mp hkv
    obtain ⟨text, hkey, hobj⟩ := h.listed hns hstored hpre
    have htext : name kv = text := by simp only [name, hkey, List.drop_left]
    rw [htext]
    exact ⟨hkey, hobj⟩
  obtain ⟨items, hitems, hall⟩ := podItems_of_hasMeta
    (fun kv hkv => h.hasMeta _ _ (hname kv hkv).2) hlength
  refine ⟨kvs.map name, items, ⟨c, w.server⟩, ?_, ?_, fun nm => ?_, ?_⟩
  · rw [list_eq hns]
    simp only [listObjects, hmanager, hvalues, hitems, Option.bind_eq_bind, Option.bind_some, Option.pure_def]
  · refine hnodup.map_on fun a ha b hb hab => ?_
    refine List.inj_on_of_nodup_map w.server.nodup ((hmem a).mp ha).1 ((hmem b).mp hb).1 ?_
    rw [(hname a ha).1, (hname b hb).1, hab]
  · rw [List.mem_map]
    constructor
    · rintro ⟨kv, hkv, rfl⟩
      rw [(hname kv hkv).2]
      exact Option.some_ne_none _
    · intro hobj
      have hid := h.valid _ hobj
      have hkey := key_eq_listPrefix hid rfl rfl
      obtain ⟨obj, hobj⟩ := Option.ne_none_iff_exists'.mp hobj
      have hfound := h.found _ hid
      rw [hobj, Option.map_eq_some_iff] at hfound
      obtain ⟨kv, hfind, -⟩ := hfound
      obtain ⟨hstored, hkv⟩ := Server.find_some hfind
      have hkv := hkv.trans hkey
      refine ⟨kv, (hmem kv).mpr ⟨hstored, hkv ▸ List.prefix_append _ _⟩, ?_⟩
      simp only [name, hkv, List.drop_left]
  · rw [List.forall₂_map_left_iff]
    refine ((List.forall₂_and_left _ _).mpr ⟨fun kv hkv => hkv, hall⟩).imp ?_
    rintro kv item ⟨hkv, hsame⟩
    exact ⟨_, (hname kv hkv).2, hsame⟩

/-! ## Runs -/

variable (json w objects) in
/-- **The store serves the map**: list and get answer what is in it. -/
def Serves : Prop :=
  ∀ (now : Nat) (kind : ObjectKind) (ns : Option CString),
    (ValidNs kind ns → ∃ (names : List CString) (items : List Json) (w' : World n),
      kind.list json now w ns = some (⟨200, .doc (listDoc "v1" kind.listKind items)⟩, w') ∧ names.Nodup ∧
        (∀ name, name ∈ names ↔ objects ⟨kind, kind.nsOf ns, name⟩ ≠ none) ∧
        List.Forall₂ (fun name item => ∃ obj, objects ⟨kind, kind.nsOf ns, name⟩ = some obj ∧ SameObject item obj)
          names items) ∧
    ∀ (name : Option CString) (buffer : Body), ObjectId.Valid ⟨kind, kind.nsOf ns, name.getD "unknown"⟩ →
      match objects ⟨kind, kind.nsOf ns, name.getD "unknown"⟩ with
      | none => kind.get json now w ns name buffer = none
      | some obj => ∃ doc w', kind.get json now w ns name buffer = some (⟨200, .doc doc⟩, w') ∧ SameObject doc obj

theorem StoreRepresents.serves (h : StoreRepresents json w objects) : Serves json w objects :=
  fun now _ _ => ⟨fun hns => h.list hns now, fun _ buffer hid => h.get hid now buffer⟩

/-- A run of such requests does to the store what it means for the map. -/
theorem represents_run (h : StoreRepresents json w objects) {requests : List StoreRequest}
    (hvalid : ∀ request ∈ requests, request.Valid json) (hreads : ∀ request ∈ requests, request.ReadsBack json) :
    StoreRepresents json (run (storeStep json) w requests) (run (Objects.apply json) objects requests) := by
  induction requests generalizing w objects with
  | nil => exact h
  | cons request requests ih =>
    rw [List.forall_mem_cons] at hvalid hreads
    exact ih (represents_step h hvalid.1 hreads.1) hvalid.2 hreads.2

omit [NeZero n] in
theorem represents_newWorld (n : Nat) (json : JsonC) : StoreRepresents json (newWorld n) fun _ => none :=
  ⟨ready_clientCreate n, nofun, fun _ _ => rfl, nofun, fun _ h => absurd rfl h, nofun⟩

end Store

/-- **The API server is a map of objects**: for every sequence of creates, deletes and patches of config maps, secrets,
PersistentVolumes and PersistentVolumeClaims, in any order with creates and deletes of pods, services, deployments, stateful
sets and jobs, the store serves the objects that were created last and not deleted since. -/
theorem serves_run (n : Nat) (json : JsonC) (requests : List StoreRequest)
    (hvalid : ∀ request ∈ requests, request.Valid json) (hreads : ∀ request ∈ requests, request.ReadsBack json) :
    Serves json (run (storeStep json) (newWorld n) requests)
      (run (Objects.apply json) (fun _ => none : Objects) requests) :=
  (represents_run (represents_newWorld n json) hvalid hreads).serves

/-- json-c on one text. -/
def nameJson : JsonC where
  parse text := if text = nameText then nameObj else .null
  render _ := nameText

/-- Two objects of one name, one of which is patched and the other deleted, and a pod of that name. -/
def sameName : List StoreRequest :=
  [.create .configmap none (some nameText) 0, .create .secret none (some nameText) 1,
    .other (.delete .pod none (some ("web" : String)) 2), .patch .configmap none (some ("web" : String)) (some nameText) none 3,
    .delete .secret none (some ("web" : String)) 4]

theorem serves_run_sameName : Serves nameJson (run (storeStep nameJson) (newWorld 0) sameName)
    (run (Objects.apply nameJson) (fun _ => none : Objects) sameName) := by
  have hnamed : named nameJson (some nameText) = some (nameObj, CString.ofString "web") := rfl
  have hvalid : ∀ kind : ObjectKind, ObjectId.Valid ⟨kind, kind.nsOf none, CString.ofString "web"⟩ := by
    intro kind
    cases kind <;> exact ⟨by decide, by decide, by decide⟩
  have hprinted : nameText ≠ [] := by decide +kernel
  have hback : nameJson.parse (nameJson.render nameObj) = nameObj := by simp [nameJson]
  refine serves_run 0 nameJson sameName ?_ ?_
  · intro request hrequest
    simp only [sameName, List.mem_cons, List.not_mem_nil, or_false] at hrequest
    obtain rfl | rfl | rfl | rfl | rfl := hrequest
    · intro obj name h
      cases hnamed.symm.trans h
      exact hvalid .configmap
    · intro obj name h
      cases hnamed.symm.trans h
      exact hvalid .secret
    · trivial
    · trivial
    · exact hvalid .secret
  · intro request hrequest
    simp only [sameName, List.mem_cons, List.not_mem_nil, or_false] at hrequest
    obtain rfl | rfl | rfl | rfl | rfl := hrequest
    · intro obj name h
      cases hnamed.symm.trans h
      exact ⟨hprinted, hback⟩
    · intro obj name h
      cases hnamed.symm.trans h
      exact ⟨hprinted, hback⟩
    · trivial
    · trivial
    · trivial

end Sirah.ApiServer
