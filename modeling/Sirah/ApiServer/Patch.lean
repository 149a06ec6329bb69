import Sirah.ApiServer.KubectlApply

/-!
# Read, modify, write

Model of the patch endpoints of pods, services and deployments in
`sirah/internal/apiserver/endpoints_etcd_integration.c`. A patch reads the object, merges, and writes it
back with `etcd_manager_patch`, which is taken as documented: one atomic compare of the key's modification
revision and put. Between the two, others may write (`others`).

The revision of the compare is `get_resp.revision`, as the header's example has it. `etcd_get` fills
`mod_revision`, `create_revision` and `version` and leaves `revision` at 0, which is no stored key's
modification revision: **`patch_never_as_intended`**, no patch of a stored object is an update.
-/

namespace Sirah.ApiServer

open Etcd

/-! ## The others -/

/-- What somebody else does to the store. -/
inductive Write where
  | put (key value : CString)
  | delete (key : CString)
  deriving DecidableEq, Repr

def Write.key : Write → CString
  | put key _ => key
  | delete key => key

def Write.apply (s : Server) : Write → Server
  | put key value => s.put key value
  | delete key => s.delete key

section

variable {n : Nat}

/-- The world after the others' writes. -/
def interfered (w : World n) (others : List Write) : World n :=
  { w with server := others.foldl Write.apply w.server }

/-- `etcd_manager_patch`: an atomic compare and put, which answers the new revision. -/
def managerPatch (w : World n) (key newValue : CString) (expectedRevision : Nat) :
    Status × Response × World n :=
  match w.server.compareAndPut key newValue expectedRevision with
  | some server => (.ok, { Response.zero with revision := server.revision }, { w with server := server })
  | none => (.casFailed, .zero, w)

end

/-! ## Merging -/

/-- `is_kubectl_apply`. -/
def isKubectlApply : Option CString → Bool
  | none => false
  | some contentType =>
    CString.strstr contentType ("apply-patch" : String) ||
      CString.strstr contentType ("strategic-merge-patch" : String)

/-- The plain merge of pods and services: the patch's members replace the object's. -/
def mergeFields (current patch : Json) : Option Json :=
  match patch with
  | .obj members => members.foldlM (fun obj (key, value) => obj.add key value) current
  | _ => none

/-- The `resourceVersion` of an object's metadata. -/
def resourceVersion (json : JsonC) (obj : Json) : Option CString :=
  ((obj.get "metadata").get "resourceVersion").getString json.render

/-- Does the patch of a deployment carry another `resourceVersion` than the stored object? -/
def staleDeployment (json : JsonC) (current patch : Json) : Bool :=
  match (patch.get "metadata").get "resourceVersion" with
  | .null => false
  | _ =>
    match resourceVersion json patch, resourceVersion json current with
    | some patchRv, some currentRv => patchRv ≠ currentRv
    | _, _ => true

/-- A deployment takes over the generation and the spec of a patch; a new spec is a new generation. -/
def takeOver (current patch : Json) : Option Json := do
  let current ← match (patch.get "metadata").get "generation" with
    | .null => some current
    | generation => addMeta current "generation" generation
  match patch.get "spec" with
  | .null => return current
  | spec =>
    let generation := ((current.get "metadata").get "generation").getInt64
    let current ← addMeta current "generation" (.int (generation + 1))
    current.add "spec" spec

/-- The plain merge of deployments. -/
def mergeDeployment (json : JsonC) (current patch : Json) : Option (Except Reply Json) :=
  if staleDeployment json current patch then
    some (.error (failure 409 "Conflict" [("message", "resourceVersion mismatch")]))
  else (takeOver current patch).map .ok

/-- The merged object and the code of success, or the reply the endpoint ends with. -/
def mergePatch (json : JsonC) (isApply : Bool) (onConflict : ApplyResult → Reply) (notFound : Reply)
    (plain : Json → Json → Option (Except Reply Json)) (current patch : Json) :
    Option (Except Reply (Json × Nat)) :=
  match isApply, current with
  | true, .null => do
    return .ok (← kubectlApplySetLastApplied patch (json.render patch), 201)
  | true, current => do
    let result ← kubectlApplyThreeWayMerge json current patch
    return if result.success then .ok (result.resultObj, result.responseCode)
      else .error (onConflict result)
  | false, .null => return .error notFound
  | false, current => do
    match ← plain current patch with
    | .ok merged => return .ok (merged, 200)
    | .error reply => return .error reply

/-! ## The endpoints -/

section Endpoints

variable {n : Nat} [NeZero n] (json : JsonC) (now : Nat) (w : World n) (others : List Write)
  (ns name body contentType : Option CString)

/-- The read: the rest of the endpoint gets the current object, NULL if there is none, and the revision
for the compare. -/
def onCurrent (key : CString) (invalid storageError : Reply)
    (rest : Json → Nat → World n → Option (Reply × World n)) : Option (Reply × World n) := do
  let (status, r, w) ← managerGet json.render now w key
  match status with
  | .ok =>
    match json.parse (← r.value) with
    | .null => return (invalid, w)
    | current => rest current r.revision w
  | .notFound => rest .null r.revision w
  | _ => return (storageError, w)

/-- The write, and the reply to it. -/
def writeBack (key : CString) (merged : Json) (revision httpStatus : Nat) (conflict : Reply)
    (onStatus : Status → Reply) : Option (Reply × World n) :=
  match managerPatch (interfered w others) key (json.render merged) revision with
  | (.ok, r, w) => do return (⟨httpStatus, .doc (← withResourceVersion merged r.revision)⟩, w)
  | (.casFailed, _, w) => return (conflict, w)
  | (status, _, w) => return (onStatus status, w)

def podConflict : Reply :=
  failure 409 "Conflict" [("message", CString.ofString "the object has been modified; " ++
    CString.ofString "please apply your changes to the latest version and try again")]

/-- Does the patch of a pod carry another revision than the one read? -/
def stalePatch (current patch : Json) (revision : Nat) : Bool :=
  match current, resourceVersion json patch with
  | .null, _ => false
  | _, none | _, some [] => false
  | _, some rv => rv.strtoull = 0 || rv.strtoull ≠ revision

/-- The merge of pods. -/
def mergePod (podName : CString) : Json → Json → Option (Except Reply (Json × Nat)) :=
  mergePatch json (isKubectlApply contentType)
    (fun result => failure 409 "apply conflict" [("message", result.errorMessage)])
    (podNotFound podName) (fun current patch => (mergeFields current patch).map .ok)

/-- `endpoint_patch_pod_etcd`. -/
def endpointPatchPodEtcd : Option (Reply × World n) :=
  onPodName w name fun podName =>
    match body with
    | none | some [] => some (failure 400 "patch body required" [], w)
    | some body =>
      let key := buildPodEtcdKey ns (some podName)
      onCurrent json now w key
        (failure 500 "invalid pod data" [("details", "failed to parse current pod")])
        (failure 500 "storage error" [("details", "failed to retrieve current pod")])
        fun current revision w =>
          match json.parse body with
          | .null => some (failure 400 "invalid patch JSON" [], w)
          | patch => do
            match ← mergePod json contentType podName current patch with
            | .error reply => return (reply, w)
            | .ok (merged, httpStatus) =>
              if stalePatch json current patch revision then return (podConflict, w)
              else
                writeBack json w others key merged revision httpStatus podConflict fun
                  | .unavailable => unavailable
                  | _ => failure 500 "storage error" [("details", "failed to update pod in etcd")]

/-- The merge of services and deployments around their plain one. -/
def mergeStored (notFound : CString) (plain : Json → Json → Option (Except Reply Json)) :
    Json → Json → Option (Except Reply (Json × Nat)) :=
  mergePatch json (isKubectlApply contentType)
    (fun result => ⟨result.responseCode, .text (CString.snprintf 16384 result.errorMessage)⟩)
    (failure 404 notFound []) plain

/-- The patch endpoint of services and deployments. -/
def patchStored (key : Option CString → Option CString → CString)
    (invalid notFound modified : CString) (plain : Json → Json → Option (Except Reply Json)) :
    Option (Reply × World n) :=
  match body with
  | none => some (failure 400 "empty body" [], w)
  | some body =>
    onCurrent json now w (key ns name) (failure 500 invalid []) (failure 500 "storage error" [])
      fun current revision w =>
        match json.parse body with
        | .null => some (failure 400 "invalid JSON" [], w)
        | patch => do
          match ← mergeStored json contentType notFound plain current patch with
          | .error reply => return (reply, w)
          | .ok (merged, httpStatus) =>
            writeBack json w others (key ns name) merged revision httpStatus
              (failure 409 "Conflict" [("message", modified)]) fun _ => failure 500 "internal error" []

/-- The plain merge of services. -/
def mergeService (current patch : Json) : Option (Except Reply Json) :=
  (mergeFields current patch).map .ok

/-- `endpoint_patch_service_etcd`. -/
def endpointPatchServiceEtcd : Option (Reply × World n) :=
  patchStored json now w others ns name body contentType buildServiceEtcdKey "invalid service data"
    "service not found" "service was modified" mergeService

/-- `endpoint_patch_deployment_etcd`. -/
def endpointPatchDeploymentEtcd : Option (Reply × World n) :=
  patchStored json now w others ns name body contentType buildDeploymentEtcdKey
    "invalid deployment data" "deployment not found" "deployment was modified" (mergeDeployment json)

end Endpoints

/-! ## No patch of a stored object is an update -/

section Refused

variable {n : Nat} {json : JsonC} {now : Nat} {w : World n} {others : List Write}

/-- If the endpoint answers at all, it answers an error. -/
def Refused (answer : Option (Reply × World n)) : Prop :=
  ∀ reply w', answer = some (reply, w') → 400 ≤ reply.code

theorem refused_none : Refused (none : Option (Reply × World n)) := nofun

theorem refused_some {reply : Reply} (h : 400 ≤ reply.code) : Refused (some (reply, w)) := by
  rintro _ _ ⟨⟩
  exact h

/-- A compare with revision 0 fails on every stored key. -/
theorem writeBack_stored {key : CString} {kv : Kv}
    (h : (interfered w others).server.find key = some kv) (merged : Json) (httpStatus : Nat)
    (conflict : Reply) (onStatus : Status → Reply) :
    writeBack json w others key merged 0 httpStatus conflict onStatus =
      some (conflict, interfered w others) := by
  unfold writeBack managerPatch
  rw [Server.compareAndPut_zero h]
  rfl

/-- What a merge that ends the endpoint ends it with. -/
theorem mergePatch_error {isApply : Bool} {onConflict : ApplyResult → Reply} {notFound reply : Reply}
    {plain : Json → Json → Option (Except Reply Json)} {current patch : Json}
    (h : mergePatch json isApply onConflict notFound plain current patch = some (.error reply)) :
    (∃ result, kubectlApplyThreeWayMerge json current patch = some result ∧ result.success = false ∧
      reply = onConflict result) ∨ reply = notFound ∨ plain current patch = some (.error reply) := by
  unfold mergePatch at h
  split at h
  · obtain ⟨merged, -, h⟩ := Option.bind_eq_some_iff.mp h
    cases h
  · obtain ⟨result, hresult, h⟩ := Option.bind_eq_some_iff.mp h
    split at h
    · cases h
    · rename_i hfail
      cases h
      exact .inl ⟨result, hresult, by simpa using hfail, rfl⟩
  · cases h
    exact .inr (.inl rfl)
  · obtain ⟨merged, hplain, h⟩ := Option.bind_eq_some_iff.mp h
    split at h
    · cases h
    · cases h
      exact .inr (.inr hplain)

/-- A three-way merge that fails answers 500. -/
theorem threeWayMerge_failed {current desired : Json} {result : ApplyResult}
    (h : kubectlApplyThreeWayMerge json current desired = some result) (hs : result.success = false) :
    result.responseCode = 500 := by
  unfold kubectlApplyThreeWayMerge at h
  split at h
  · cases h
    rfl
  · obtain ⟨merged, -, h⟩ := Option.bind_eq_some_iff.mp h
    cases h
    cases hs
  · obtain ⟨merged, -, h⟩ := Option.bind_eq_some_iff.mp h
    split at h
    · cases h
      rfl
    · obtain ⟨obj, -, h⟩ := Option.bind_eq_some_iff.mp h
      cases h
      cases hs
  · cases h
    rfl

theorem mergeDeployment_error {current patch : Json} {reply : Reply}
    (h : mergeDeployment json current patch = some (.error reply)) : reply.code = 409 := by
  unfold mergeDeployment at h
  split at h
  · cases h
    rfl
  · obtain ⟨merged, -, h⟩ := Option.map_eq_some_iff.mp h
    cases h

variable [NeZero n]

/-- The read never finds a revision: the rest of the endpoint works with 0. -/
theorem onCurrent_refused (hw : Ready w.client) {key : CString} {invalid storageError : Reply}
    {rest : Json → Nat → World n → Option (Reply × World n)} (hinvalid : 400 ≤ invalid.code)
    (hrest : ∀ current c, Refused (rest current 0 ⟨c, w.server⟩)) :
    Refused (onCurrent json now w key invalid storageError rest) := by
  obtain ⟨r, c, hget, -, hrev, -⟩ := managerGet_spec json.render hw now key
  unfold onCurrent
  rw [hget]
  simp only [Option.bind_eq_bind, Option.bind_some]
  cases r.value with
  | none => exact refused_none
  | some value =>
    simp only [Option.bind_some, hrev]
    split
    · exact refused_some hinvalid
    · exact hrest _ c

theorem patchStored_refused (hw : Ready w.client)
    {key : Option CString → Option CString → CString} {ns name body contentType : Option CString}
    {kv : Kv} (hkey : (interfered w others).server.find (key ns name) = some kv)
    (invalid notFound modified : CString) {plain : Json → Json → Option (Except Reply Json)}
    (hplain : ∀ current patch reply, plain current patch = some (.error reply) → 400 ≤ reply.code) :
    Refused (patchStored json now w others ns name body contentType key invalid notFound modified
      plain) := by
  unfold patchStored
  cases body with
  | none => exact refused_some (by decide)
  | some body =>
    refine onCurrent_refused hw (show 400 ≤ 500 by decide) fun current c => ?_
    have hkey' : (interfered ⟨c, w.server⟩ others).server.find (key ns name) = some kv := hkey
    split
    · exact refused_some (by decide)
    · cases hm : mergeStored json contentType notFound plain current (json.parse body) with
      | none => exact refused_none
      | some outcome =>
        cases outcome with
        | ok merged =>
          simp only [Option.bind_eq_bind, Option.bind_some, writeBack_stored hkey']
          exact refused_some (show 400 ≤ 409 by decide)
        | error reply =>
          refine refused_some ?_
          rcases mergePatch_error hm with ⟨result, hresult, hs, rfl⟩ | rfl | herr
          · exact threeWayMerge_failed hresult hs ▸ show 400 ≤ 500 by decide
          · exact show 400 ≤ 404 by decide
          · exact hplain current _ reply herr

theorem mergeFields_error {current patch : Json} {reply : Reply} :
    (mergeFields current patch).map Except.ok ≠ some (.error reply) := by
  intro h
  obtain ⟨merged, -, h⟩ := Option.map_eq_some_iff.mp h
  cases h

theorem patchPod_refused (hw : Ready w.client) {ns name body contentType : Option CString} {kv : Kv}
    (hkey : (interfered w others).server.find (buildPodEtcdKey ns name) = some kv) :
    Refused (endpointPatchPodEtcd json now w others ns name body contentType) := by
  unfold endpointPatchPodEtcd onPodName
  split
  · exact refused_some (by decide)
  · exact refused_some (by decide)
  · split
    · exact refused_some (by decide)
    · exact refused_some (by decide)
    · rename_i podName _ _ body _
      refine onCurrent_refused hw (by decide) fun current c => ?_
      have hkey' : (interfered ⟨c, w.server⟩ others).server.find (buildPodEtcdKey ns (some podName)) =
        some kv := hkey
      split
      · exact refused_some (by decide)
      · cases hm : mergePod json contentType podName current (json.parse body) with
        | none => exact refused_none
        | some outcome =>
          cases outcome with
          | ok merged =>
            simp only [Option.bind_eq_bind, Option.bind_some, writeBack_stored hkey']
            split <;> exact refused_some (by decide)
          | error reply =>
            refine refused_some ?_
            rcases mergePatch_error hm with ⟨result, -, -, rfl⟩ | rfl | herr
            · exact show 400 ≤ 409 by decide
            · exact show 400 ≤ 404 by decide
            · exact absurd herr mergeFields_error

end Refused

/-! ## What a patch is for -/

/-- The kinds the claim of a patch is about. -/
inductive PatchKind where
  | pod
  | service
  | deployment
  deriving DecidableEq, Repr

namespace PatchKind

def key : PatchKind → Option CString → Option CString → CString
  | pod => buildPodEtcdKey
  | service => buildServiceEtcdKey
  | deployment => buildDeploymentEtcdKey

/-- The merge of a kind. -/
def merge (json : JsonC) (contentType : Option CString) : PatchKind → Json → Json →
    Option (Except Reply (Json × Nat))
  | pod => mergePod json contentType []
  | service => mergeStored json contentType "service not found" mergeService
  | deployment => mergeStored json contentType "deployment not found" (mergeDeployment json)

/-- The patch endpoint of a kind. -/
def endpoint {n : Nat} [NeZero n] (json : JsonC) (now : Nat) (w : World n) (others : List Write)
    (ns name body contentType : Option CString) : PatchKind → Option (Reply × World n)
  | pod => endpointPatchPodEtcd json now w others ns name body contentType
  | service => endpointPatchServiceEtcd json now w others ns name body contentType
  | deployment => endpointPatchDeploymentEtcd json now w others ns name body contentType

end PatchKind

variable {n : Nat} [NeZero n]

/-- **Optimistic locking**: a patch that nobody disturbs answers 200 and stores the merged object; one
that somebody disturbs answers 409 and leaves what the others left. -/
structure OptimisticLocking (json : JsonC) (now : Nat) (w : World n) (kind : PatchKind)
    (ns name : Option CString) (body : CString) (contentType : Option CString) : Prop where
  uncontended : ∀ others : List Write, (∀ o ∈ others, o.key ≠ kind.key ns name) →
    ∃ reply w' kv merged code,
      kind.endpoint json now w others ns name (some body) contentType = some (reply, w') ∧
      reply.code = 200 ∧ w.server.find (kind.key ns name) = some kv ∧
      kind.merge json contentType (json.parse kv.value) (json.parse body) = some (.ok (merged, code)) ∧
      (w'.server.find (kind.key ns name)).map Kv.value = some (json.render merged)
  contended : ∀ others : List Write, (∃ o ∈ others, o.key = kind.key ns name) →
    ∃ reply w',
      kind.endpoint json now w others ns name (some body) contentType = some (reply, w') ∧
      reply.code = 409 ∧
      w'.server.find (kind.key ns name) = (interfered w others).server.find (kind.key ns name)

/-- As long as the object is there when it is written back, every patch is answered with an error. -/
theorem endpoint_refused {json : JsonC} {now : Nat} {w : World n} {others : List Write}
    (hw : Ready w.client) (kind : PatchKind) {ns name body contentType : Option CString} {kv : Kv}
    (hkey : (interfered w others).server.find (kind.key ns name) = some kv) :
    Refused (kind.endpoint json now w others ns name body contentType) := by
  cases kind with
  | pod => exact patchPod_refused hw hkey
  | service =>
    exact patchStored_refused hw hkey _ _ _ fun _ _ _ herr => absurd herr mergeFields_error
  | deployment =>
    refine patchStored_refused hw hkey _ _ _ fun current patch reply herr => ?_
    rw [mergeDeployment_error herr]
    decide

/-- **Never**: for every stored pod, service and deployment and every body, the patch endpoint fails what
it is for. -/
theorem patch_never_as_intended (json : JsonC) (now : Nat) {w : World n} (hw : Ready w.client)
    (kind : PatchKind) (ns name : Option CString) {kv : Kv}
    (hkey : w.server.find (kind.key ns name) = some kv) (body : CString) (contentType : Option CString) :
    ¬ OptimisticLocking json now w kind ns name body contentType := by
  intro h
  obtain ⟨reply, w', _, _, _, hanswer, hcode, -⟩ := h.uncontended [] nofun
  have hrefused : Refused (kind.endpoint json now w [] ns name (some body) contentType) :=
    endpoint_refused hw kind hkey
  have := hrefused reply w' hanswer
  omega

/-! ## A service and a pod -/

/-- The text `endpoint_create_statefulset_etcd` and its like store for an object with only a name. -/
def webText : CString := "\x7b \"metadata\": \x7b \"name\": \"web\" \x7d \x7d"

def patchText : CString := "\x7b\"spec\":\x7b\x7d\x7d"

/-- json-c on these texts and on the object they merge to. -/
def webJson : JsonC where
  parse text :=
    if text = webText then .obj [("metadata", .obj [("name", .str ("web" : String))])]
    else if text = patchText then .obj [("spec", .obj [])]
    else .null
  render _ := "\x7b \"metadata\": \x7b \"name\": \"web\" \x7d, \"spec\": \x7b \x7d \x7d"

/-- An etcd that holds `web` of a kind. -/
def webWorld (kind : PatchKind) : World 1 :=
  ⟨clientCreate 0, Server.empty.put (kind.key none (some ("web" : String))) webText⟩

theorem patch_never_as_intended_service : Ready (webWorld .service).client ∧
    ¬ OptimisticLocking webJson 0 (webWorld .service) .service none (some ("web" : String)) patchText none :=
  ⟨ready_clientCreate 0, patch_never_as_intended webJson 0 (ready_clientCreate 0) .service none
    (some ("web" : String)) rfl patchText none⟩

/-- Patching the pod `web` while nobody else writes. -/
theorem lone_patch_conflicts :
    ¬ OptimisticLocking webJson 0 (webWorld .pod) .pod none (some ("web" : String)) patchText none := by
  intro h
  obtain ⟨reply, w', _, _, _, hanswer, hcode, -⟩ := h.uncontended [] nofun
  have hrefused : Refused (endpointPatchPodEtcd webJson 0 (webWorld .pod) [] none
      (some ("web" : String)) (some patchText) none) := patchPod_refused (ready_clientCreate 0) rfl
  have := hrefused reply w' hanswer
  omega

end Sirah.ApiServer
