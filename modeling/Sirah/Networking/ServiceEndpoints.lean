import Sirah.Lib.Fallible
import Sirah.Lib.Json
import Sirah.Lib.Run

/-!
# The endpoints of services

Model of the loop of `internal/controller/service.c`, over the services, the pods and the Endpoints objects that the API server
holds. Every call succeeds: a LIST returns all services, or the pods at its path, and a PUT replaces the object at its path.

* `render` is `json_object_to_json_string`, which gives the text of a value that is no string.
* An endpoint is copied into buffers that nothing initialises (`CString.strncpy`): what is read from one that is filled is
  undefined, `none`. A state of a run is `none` behind it.
* `backends`: the name and the IP of every pod that backs a service. `listed`: those that an Endpoints object lists.
* **`followsPods_of_keeps`**: after every pass the objects list the pods that back the services, in a run whose passes find that
  what is copied fits and that a service without such a pod has an object that lists none. `followsPods_iff`: this is exact.
* `last_pod_listed`: the last pod of a service stays listed when it is gone.
-/

namespace Sirah.ServiceController

open Runs

variable (render : Json → CString)

/-! ## Pods -/

/-- The loop of `service_pod_matches_selector`. -/
def selectorLoop (podLabels : Json) : List (CString × Json) → Bool
  | [] => true
  | (key, val) :: selector =>
    match podLabels.getEx key with
    | none => false
    | some podVal =>
      match val.getString render, podVal.getString render with
      | some selStr, some podStr => if selStr = podStr then selectorLoop podLabels selector else false
      | _, _ => false

/-- `service_pod_matches_selector`. -/
def podMatchesSelector (pod : Json) (selector : List (CString × Json)) : Bool :=
  match pod.getEx "metadata" with
  | none => false
  | some metadata =>
    match metadata.getEx "labels" with
    | none => false
    | some podLabels => selectorLoop render podLabels selector

/-- The body of the loop of `service_discover_endpoints`: the name and the IP that it takes from a pod. -/
def discover (selector : List (CString × Json)) (pod : Json) : Option (CString × CString) :=
  if !podMatchesSelector render pod selector then none
  else
    match pod.getEx "metadata", pod.getEx "status" with
    | some metadata, some status =>
      match metadata.getEx "name", status.getEx "podIP", status.getEx "phase" with
      | some podName, some podIp, some phase =>
        match podName.getString render, podIp.getString render with
        | some name, some ip => if phase.getString render = some "Running" then some (name, ip) else none
        | _, _ => none
      | _, _, _ => none
    | _, _ => none

/-! ## Services -/

/-- What the loop reads of a service. -/
structure Service where
  name : CString
  ns : CString
  selector : List (CString × Json)

/-- Where the pods of its namespace are. -/
def Service.podsPath (service : Service) : CString :=
  CString.ofString "/api/v1/namespaces/" ++ service.ns ++ CString.ofString "/pods"

/-- Where its Endpoints object is. -/
def Service.path (service : Service) : CString :=
  CString.ofString "/api/v1/namespaces/" ++ service.ns ++ CString.ofString "/endpoints/" ++ service.name

/-- The checks of `service_reconcile_loop`. Without a name or a namespace nothing is discovered; a selector is an object. -/
def readService (svc : Json) : Option Service := do
  let metadata ← svc.getEx "metadata"
  let spec ← svc.getEx "spec"
  let name ← metadata.getEx "name"
  let ns ← metadata.getEx "namespace"
  let selector ← spec.getEx "selector"
  let _ ← spec.getEx "type"
  match selector with
  | .obj selector => return ⟨← name.getString render, ← ns.getString render, selector⟩
  | _ => none

/-- `endpoint_t`: what is written to the Endpoints object. -/
structure Endpoint where
  podIp : CString
  podName : CString
  podNamespace : CString

/-- `MAX_ENDPOINTS`. -/
def maxEndpoints : Nat := 1000

/-- The buffers of an endpoint. -/
def copyEndpoint (ns : CString) (pod : CString × CString) : Option Endpoint := do
  let podName ← CString.strncpy 256 pod.1
  let podNamespace ← CString.strncpy 256 ns
  let podIp ← CString.strncpy 16 pod.2
  return ⟨podIp, podName, podNamespace⟩

/-- `service_discover_endpoints`. -/
def discoverEndpoints (service : Service) (items : List Json) : Option (List Endpoint) :=
  ((items.filterMap (discover render service.selector)).take maxEndpoints).mapM (copyEndpoint service.ns)

/-- An address of the Endpoints object. -/
def addressJson (endpoint : Endpoint) : Json :=
  .obj [("ip", .str endpoint.podIp),
    ("targetRef", .obj [("name", .str endpoint.podName), ("namespace", .str endpoint.podNamespace)])]

/-- The object that `service_update_endpoints` puts. -/
def endpointsJson (service : Service) (endpoints : List Endpoint) : Json :=
  .obj [("kind", .str "Endpoints"), ("apiVersion", .str "v1"),
    ("metadata", .obj [("name", .str service.name), ("namespace", .str service.ns)]),
    ("subsets", .arr [.obj [("addresses", .arr (endpoints.map addressJson))]])]

/-! ## A pass -/

/-- The API server, by paths: the pods of a namespace, and the Endpoints objects. -/
structure Cluster where
  pods : CString → List Json
  endpoints : CString → Option Json

/-- `service_reconcile_loop` for a service: nothing is put for an empty set. A path that does not fit its buffer is cut. -/
def reconcileService (c : Cluster) (service : Service) : Option Cluster :=
  match discoverEndpoints render service (c.pods (CString.snprintf 512 service.podsPath)) with
  | none => none
  | some [] => some c
  | some endpoints =>
    some { c with
      endpoints := Function.update c.endpoints (CString.snprintf 512 service.path) (some (endpointsJson service endpoints)) }

/-- The services of a LIST: each has a selector, and a path of its own. -/
structure Services where
  items : List Json
  selected : ∀ service ∈ items.filterMap (readService render), service.selector ≠ []
  distinct : ((items.filterMap (readService render)).map Service.path).Nodup

variable {render} in
/-- What the loop reads of the services. -/
def Services.read (services : Services render) : List Service := services.items.filterMap (readService render)

/-- One pass of `service_reconcile_loop`. -/
def reconcilePass (services : Services render) (c : Cluster) : Option Cluster :=
  services.read.foldlM (reconcileService render) c

/-- A pass, or a change of the pods. -/
inductive Op where
  | pass
  | setPods (pods : CString → List Json)

def step (services : Services render) (c : Option Cluster) : Op → Option Cluster
  | .pass => c.bind (reconcilePass render services)
  | .setPods pods => c.map fun c => { c with pods }

/-! ## What is listed, and what should be -/

/-- The text of a member behind a path. -/
def member (j : Json) : List CString → Option CString
  | [] => j.getString render
  | key :: path => (j.getEx key).bind (member · path)

/-- The name and the IP of a pod that backs a service: it runs, has an IP and carries every label of the selector. -/
def backend (selector : List (CString × Json)) (pod : Json) : Option (CString × CString) :=
  if member render pod ["status", "phase"] = some "Running" ∧
      ∀ label ∈ selector, (label.2.getString render).isSome ∧
        member render pod ["metadata", "labels", label.1] = label.2.getString render then do
    let name ← member render pod ["metadata", "name"]
    let ip ← member render pod ["status", "podIP"]
    return (name, ip)
  else none

/-- The pods that back a service. -/
def Service.backends (service : Service) (c : Cluster) : List (CString × CString) :=
  (c.pods service.podsPath).filterMap (backend render service.selector)

/-- The elements of an array. -/
def elements : Json → List Json
  | .arr items => items
  | _ => []

/-- The names and IPs that an Endpoints object lists. -/
def listed : Option Json → List (CString × CString)
  | none => []
  | some object =>
    (elements (object.get "subsets")).flatMap fun subset =>
      (elements (subset.get "addresses")).filterMap fun address => do
        return (← member render address ["targetRef", "name"], ← member render address ["ip"])

/-- The object of the service lists exactly the pods that back it. -/
def Service.Follows (service : Service) (c : Cluster) : Prop :=
  (listed render (c.endpoints service.path)).Perm (service.backends render c)

/-- **After a pass** this holds of every service. -/
def FollowsPods (services : Services render) (c : Option Cluster) : Op → Prop
  | .pass => ∃ after, step render services c .pass = some after ∧ ∀ service ∈ services.read, service.Follows render after
  | .setPods _ => True

/-- The paths of its requests fit. -/
def Service.Addressed (service : Service) : Prop := service.path.length < 512

/-- The condition on a service. -/
structure Service.Keeps (service : Service) (c : Cluster) : Prop where
  count : (service.backends render c).length ≤ maxEndpoints
  stale : service.backends render c = [] → listed render (c.endpoints service.path) = []
  fits : ∀ pod ∈ service.backends render c, pod.1.length ≤ 254 ∧ pod.2.length ≤ 14 ∧ service.ns.length ≤ 254

/-- The condition on a pass. -/
def Keeps (services : Services render) (c : Option Cluster) : Op → Prop
  | .pass => ∃ before, c = some before ∧ ∀ service ∈ services.read, service.Addressed ∧ service.Keeps render before
  | .setPods _ => True

variable {render} {selector : List (CString × Json)} {service : Service} {c after : Cluster}

/-! ## Discovery -/

theorem selectorLoop_iff {podLabels : Json} : selectorLoop render podLabels selector = true ↔
    ∀ label ∈ selector, (label.2.getString render).isSome ∧
      (podLabels.getEx label.1).bind (Json.getString render) = label.2.getString render := by
  induction selector with
  | nil => simp [selectorLoop]
  | cons label selector ih =>
    obtain ⟨key, val⟩ := label
    rw [List.forall_mem_cons, ← ih, selectorLoop]
    cases hget : podLabels.getEx key with
    | none =>
      refine iff_of_false Bool.false_ne_true fun h => ?_
      obtain ⟨⟨hsome, heq⟩, -⟩ := h
      simp [← heq] at hsome
    | some podVal =>
      cases hsel : val.getString render with
      | none => simp
      | some selStr =>
        cases hpod : podVal.getString render with
        | none => simp [hpod]
        | some podStr =>
          by_cases hsame : selStr = podStr
          · simp [hpod, hsame]
          · simp [hpod, hsame, Ne.symm hsame]

/-- **The labels of a pod**: with a selector that is not empty, the test is whether it carries them all. -/
theorem podMatchesSelector_iff {pod : Json} (hselector : selector ≠ []) :
    podMatchesSelector render pod selector = true ↔ ∀ label ∈ selector, (label.2.getString render).isSome ∧
      member render pod ["metadata", "labels", label.1] = label.2.getString render := by
  obtain ⟨first, hfirst⟩ := List.exists_mem_of_ne_nil selector hselector
  unfold podMatchesSelector
  cases hmetadata : pod.getEx "metadata" with
  | none =>
    refine iff_of_false Bool.false_ne_true fun h => ?_
    obtain ⟨hsome, heq⟩ := h first hfirst
    simp [← heq, member, hmetadata] at hsome
  | some metadata =>
    dsimp only
    cases hlabels : metadata.getEx "labels" with
    | none =>
      refine iff_of_false Bool.false_ne_true fun h => ?_
      obtain ⟨hsome, heq⟩ := h first hfirst
      simp [← heq, member, hmetadata, hlabels] at hsome
    | some podLabels => simp [selectorLoop_iff, member, hmetadata, hlabels]

/-- **What is taken from a pod** is the name and the IP of one that backs the service. -/
theorem discover_eq_backend (hselector : selector ≠ []) (pod : Json) :
    discover render selector pod = backend render selector pod := by
  unfold discover backend
  by_cases hmatches : podMatchesSelector render pod selector = true
  · have hlabels := (podMatchesSelector_iff hselector).mp hmatches
    rw [if_neg (by simp [hmatches])]
    simp only [and_iff_left hlabels]
    cases hmetadata : pod.getEx "metadata" with
    | none => simp [member, hmetadata]
    | some metadata =>
      cases hstatus : pod.getEx "status" with
      | none => simp [member, hstatus]
      | some status =>
        cases hname : metadata.getEx "name" <;> cases hip : status.getEx "podIP" <;>
          cases hphase : status.getEx "phase" <;> simp [member, hmetadata, hstatus, hname, hip, hphase]
        rename_i podName podIp phase
        cases podName.getString render <;> cases podIp.getString render <;> simp
  · rw [if_pos (by simp [hmatches]), if_neg fun h => hmatches ((podMatchesSelector_iff hselector).mpr h.2)]

/-- What fits the buffers of an endpoint. -/
def Fits (ns : CString) (pod : CString × CString) : Prop :=
  pod.1.length ≤ 254 ∧ pod.2.length ≤ 14 ∧ ns.length ≤ 254

theorem copyEndpoint_eq_some_iff {ns : CString} {pod : CString × CString} {endpoint : Endpoint} :
    copyEndpoint ns pod = some endpoint ↔ Fits ns pod ∧ endpoint = ⟨pod.2, pod.1, ns⟩ := by
  unfold copyEndpoint CString.strncpy Fits
  by_cases hname : pod.1.length < 255 <;> by_cases hns : ns.length < 255 <;> by_cases hip : pod.2.length < 15 <;>
    simp [hname, hns, hip, eq_comm] <;> omega

/-- **The endpoints of a service** are the first of the pods that back it. -/
theorem discoverEndpoints_eq_some_iff (hselector : service.selector ≠ []) {endpoints : List Endpoint} :
    discoverEndpoints render service (c.pods service.podsPath) = some endpoints ↔
      (∀ pod ∈ (service.backends render c).take maxEndpoints, Fits service.ns pod) ∧
        endpoints = ((service.backends render c).take maxEndpoints).map fun pod => ⟨pod.2, pod.1, service.ns⟩ := by
  have hbackends : (c.pods service.podsPath).filterMap (discover render service.selector) = service.backends render c :=
    List.filterMap_congr fun pod _ => discover_eq_backend hselector pod
  rw [discoverEndpoints, hbackends]
  exact List.mapM_eq_some_iff_of_step fun _ _ => copyEndpoint_eq_some_iff

/-- **The object that is put** lists what was copied. -/
theorem listed_endpointsJson (endpoints : List Endpoint) : listed render (some (endpointsJson service endpoints)) =
    endpoints.map fun endpoint => (endpoint.podName, endpoint.podIp) := by
  have hsubsets : (endpointsJson service endpoints).get "subsets" =
      .arr [.obj [("addresses", .arr (endpoints.map addressJson))]] := rfl
  have haddresses : (Json.obj [("addresses", .arr (endpoints.map addressJson))]).get "addresses" =
      .arr (endpoints.map addressJson) := rfl
  have haddress : ∀ endpoint : Endpoint, (do
      return (← member render (addressJson endpoint) ["targetRef", "name"], ← member render (addressJson endpoint) ["ip"]))
        = some (endpoint.podName, endpoint.podIp) := fun endpoint => rfl
  rw [listed, hsubsets, elements, List.flatMap_cons, List.flatMap_nil, List.append_nil, haddresses, elements,
    List.filterMap_map]
  exact (List.filterMap_congr fun endpoint _ => haddress endpoint).trans (congrFun List.filterMap_eq_map' endpoints)

/-! ## One service -/

theorem Service.Addressed.snprintf_path (h : service.Addressed) : CString.snprintf 512 service.path = service.path :=
  CString.snprintf_of_lt h

/-- The path of the pods is the shorter one. -/
theorem Service.Addressed.snprintf_podsPath (h : service.Addressed) :
    CString.snprintf 512 service.podsPath = service.podsPath := by
  refine CString.snprintf_of_lt (Nat.lt_of_le_of_lt ?_ h)
  have hpods : (CString.ofString "/pods").length = 5 := by decide
  have hendpoints : (CString.ofString "/endpoints/").length = 11 := by decide
  simp only [Service.podsPath, Service.path, List.length_append, hpods, hendpoints]
  omega

/-- **The frame**: the pods and the objects of other services stay. -/
theorem reconcileService_frame (haddressed : service.Addressed) (h : reconcileService render c service = some after) :
    after.pods = c.pods ∧ ∀ path, path ≠ service.path → after.endpoints path = c.endpoints path := by
  unfold reconcileService at h
  rw [haddressed.snprintf_path] at h
  split at h
  · cases h
  · cases h
    exact ⟨rfl, fun _ _ => rfl⟩
  · cases h
    exact ⟨rfl, fun path hpath => Function.update_of_ne hpath _ _⟩

/-- What is taken of a service has to fit. -/
theorem exists_reconcileService_iff (hselector : service.selector ≠ []) (haddressed : service.Addressed) :
    (∃ after, reconcileService render c service = some after) ↔
      ∀ pod ∈ (service.backends render c).take maxEndpoints, Fits service.ns pod := by
  unfold reconcileService
  rw [haddressed.snprintf_path, haddressed.snprintf_podsPath]
  constructor
  · rintro ⟨after, hafter⟩
    split at hafter
    · cases hafter
    next hdiscover => exact ((discoverEndpoints_eq_some_iff hselector).mp hdiscover).1
    next hdiscover => exact ((discoverEndpoints_eq_some_iff hselector).mp hdiscover).1
  · intro hfits
    rw [(discoverEndpoints_eq_some_iff hselector).mpr ⟨hfits, rfl⟩]
    split
    · contradiction
    · exact ⟨_, rfl⟩
    · exact ⟨_, rfl⟩

/-- **The object afterwards**: it stays as it is when no pod backs the service. -/
theorem listed_reconcileService (hselector : service.selector ≠ []) (haddressed : service.Addressed)
    (h : reconcileService render c service = some after) : listed render (after.endpoints service.path) =
      if service.backends render c = [] then listed render (c.endpoints service.path)
      else (service.backends render c).take maxEndpoints := by
  unfold reconcileService at h
  rw [haddressed.snprintf_path, haddressed.snprintf_podsPath] at h
  split at h
  · cases h
  next hdiscover =>
    cases h
    obtain ⟨-, hnil⟩ := (discoverEndpoints_eq_some_iff hselector).mp hdiscover
    have hnone : service.backends render c = [] := by
      simpa [maxEndpoints] using hnil.symm
    rw [if_pos hnone]
  next endpoints hne hdiscover =>
    cases h
    obtain ⟨-, rfl⟩ := (discoverEndpoints_eq_some_iff hselector).mp hdiscover
    have hsome : service.backends render c ≠ [] := fun hnone => absurd (by rw [hnone]; rfl) hne
    dsimp only
    rw [if_neg hsome, Function.update_self, listed_endpointsJson, List.map_map]
    exact List.map_id _

/-- **One service**: its object lists the pods that back it exactly under the condition. -/
theorem reconcileService_follows_iff (hselector : service.selector ≠ []) (haddressed : service.Addressed) :
    (∃ after, reconcileService render c service = some after ∧ service.Follows render after) ↔ service.Keeps render c := by
  have hfollows_iff : ∀ after, reconcileService render c service = some after → (service.Follows render after ↔
      (if service.backends render c = [] then listed render (c.endpoints service.path)
        else (service.backends render c).take maxEndpoints).Perm (service.backends render c)) := by
    intro after hafter
    have hbackends : service.backends render after = service.backends render c := by
      rw [Service.backends, Service.backends, (reconcileService_frame haddressed hafter).1]
    rw [Service.Follows, hbackends, listed_reconcileService hselector haddressed hafter]
  constructor
  · rintro ⟨after, hafter, hfollows⟩
    rw [hfollows_iff after hafter] at hfollows
    have hfits := (exists_reconcileService_iff hselector haddressed).mp ⟨after, hafter⟩
    by_cases hnone : service.backends render c = []
    · rw [if_pos hnone, hnone] at hfollows
      exact ⟨by simp [hnone], fun _ => hfollows.eq_nil, by simp [hnone]⟩
    · rw [if_neg hnone] at hfollows
      have hcount : (service.backends render c).length ≤ maxEndpoints := by
        have hlength := hfollows.length_eq
        rw [List.length_take] at hlength
        omega
      rw [List.take_of_length_le hcount] at hfits
      exact ⟨hcount, fun hnil => absurd hnil hnone, hfits⟩
  · rintro ⟨hcount, hstale, hfits⟩
    have htake := List.take_of_length_le hcount
    obtain ⟨after, hafter⟩ := (exists_reconcileService_iff hselector haddressed).mpr (htake.symm ▸ hfits)
    refine ⟨after, hafter, (hfollows_iff after hafter).mpr ?_⟩
    by_cases hnone : service.backends render c = []
    · rw [if_pos hnone, hstale hnone, hnone]
    · rw [if_neg hnone, htake]

/-! ## A pass -/

/-- What a service is tested for reads its own object and the pods. -/
theorem follows_congr {c c' : Cluster} (hpods : c'.pods = c.pods)
    (hobject : c'.endpoints service.path = c.endpoints service.path) :
    service.Follows render c' ↔ service.Follows render c := by
  rw [Service.Follows, Service.Follows, Service.backends, Service.backends, hpods, hobject]

theorem keeps_congr {c c' : Cluster} (hpods : c'.pods = c.pods)
    (hobject : c'.endpoints service.path = c.endpoints service.path) (h : service.Keeps render c) :
    service.Keeps render c' := by
  have hbackends : service.backends render c' = service.backends render c := by
    rw [Service.backends, Service.backends, hpods]
  obtain ⟨hcount, hstale, hfits⟩ := h
  exact ⟨hbackends ▸ hcount, hobject ▸ hbackends ▸ hstale, hbackends ▸ hfits⟩

/-- **The frame of a pass** over services of other paths. -/
theorem foldlM_frame {services : List Service} (haddressed : ∀ service ∈ services, service.Addressed)
    (h : services.foldlM (reconcileService render) c = some after) :
    after.pods = c.pods ∧ ∀ path, path ∉ services.map Service.path → after.endpoints path = c.endpoints path := by
  induction services generalizing c with
  | nil =>
    cases h
    exact ⟨rfl, fun _ _ => rfl⟩
  | cons first services ih =>
    rw [List.forall_mem_cons] at haddressed
    rw [List.foldlM_cons] at h
    obtain ⟨mid, hmid, h⟩ := Option.bind_eq_some_iff.mp h
    obtain ⟨hpods, hothers⟩ := reconcileService_frame haddressed.1 hmid
    obtain ⟨hpods', hothers'⟩ := ih haddressed.2 h
    refine ⟨hpods'.trans hpods, fun path hpath => ?_⟩
    rw [List.map_cons, List.mem_cons, not_or] at hpath
    exact (hothers' path hpath.2).trans (hothers path hpath.1)

/-- **A pass**: the objects of all services list the pods that back them exactly under the condition on each. -/
theorem foldlM_follows_iff {services : List Service} (hselected : ∀ service ∈ services, service.selector ≠ [])
    (haddressed : ∀ service ∈ services, service.Addressed) (hdistinct : (services.map Service.path).Nodup) :
    (∃ after, services.foldlM (reconcileService render) c = some after ∧
      ∀ service ∈ services, service.Follows render after) ↔ ∀ service ∈ services, service.Keeps render c := by
  induction services generalizing c with
  | nil => simp
  | cons first services ih =>
    rw [List.forall_mem_cons] at hselected haddressed
    rw [List.map_cons, List.nodup_cons] at hdistinct
    obtain ⟨hfirst, hdistinct⟩ := hdistinct
    have hne : ∀ service ∈ services, service.path ≠ first.path := fun service hservice heq =>
      hfirst (heq ▸ List.mem_map_of_mem hservice)
    rw [List.forall_mem_cons, ← reconcileService_follows_iff hselected.1 haddressed.1]
    simp only [List.foldlM_cons, List.forall_mem_cons]
    constructor
    · rintro ⟨after, h, hfollows, hrest⟩
      obtain ⟨mid, hmid, h⟩ := Option.bind_eq_some_iff.mp h
      obtain ⟨hpods, hothers⟩ := foldlM_frame haddressed.2 h
      obtain ⟨hpods', hothers'⟩ := reconcileService_frame haddressed.1 hmid
      refine ⟨⟨mid, hmid, (follows_congr hpods (hothers _ hfirst)).mp hfollows⟩, fun service hservice => ?_⟩
      have hkeeps := (ih hselected.2 haddressed.2 hdistinct).mp ⟨after, h, hrest⟩ service hservice
      exact keeps_congr hpods'.symm (hothers' _ (hne service hservice)).symm hkeeps
    · rintro ⟨⟨mid, hmid, hfollows⟩, hkeeps⟩
      obtain ⟨hpods', hothers'⟩ := reconcileService_frame haddressed.1 hmid
      obtain ⟨after, h, hrest⟩ := (ih hselected.2 haddressed.2 hdistinct).mpr fun service hservice =>
        keeps_congr hpods' (hothers' _ (hne service hservice)) (hkeeps service hservice)
      obtain ⟨hpods, hothers⟩ := foldlM_frame haddressed.2 h
      exact ⟨after, Option.bind_eq_some_iff.mpr ⟨mid, hmid, h⟩,
        (follows_congr hpods (hothers _ hfirst)).mpr hfollows, hrest⟩

variable {services : Services render}

/-- **The condition on a pass** is exact when the paths fit. -/
theorem followsPods_pass_iff (haddressed : ∀ service ∈ services.read, service.Addressed) (c : Cluster) :
    FollowsPods render services (some c) .pass ↔ ∀ service ∈ services.read, service.Keeps render c :=
  foldlM_follows_iff services.selected haddressed services.distinct

/-! ## Runs -/

/-- **Endpoints follow the pods**: for all services and every history of the pods, if each pass finds that what is copied of a
service fits and that a service which no pod backs has an object that lists none, the objects list after every pass exactly the
pods that back the services. -/
theorem followsPods_of_keeps (services : Services render) (c : Option Cluster) (ops : List Op)
    (h : AllSteps (step render services) (Keeps render services) c ops) :
    AllSteps (step render services) (FollowsPods render services) c ops := by
  refine h.imp fun c op hkeeps => ?_
  cases op with
  | setPods pods => trivial
  | pass =>
    obtain ⟨before, rfl, hkeeps⟩ := hkeeps
    exact (followsPods_pass_iff (fun service hservice => (hkeeps service hservice).1) before).mpr
      fun service hservice => (hkeeps service hservice).2

/-- A service of the pods with `app=web`. -/
def webJson : Json :=
  .obj [("metadata", .obj [("name", .str "web"), ("namespace", .str "default")]),
    ("spec", .obj [("selector", .obj [("app", .str "web")]), ("type", .str "ClusterIP")])]

def web : Service := ⟨"web", "default", [("app", .str "web")]⟩

theorem read_webJson : [webJson].filterMap (readService fun _ => []) = [web] := rfl

def webServices : Services fun _ => [] where
  items := [webJson]
  selected := by
    rw [read_webJson, List.forall_mem_singleton]
    exact List.cons_ne_nil _ _
  distinct := by
    rw [read_webJson]
    exact List.pairwise_singleton _ _

/-- A pod that backs it. -/
def webPod : Json :=
  .obj [("metadata", .obj [("name", .str "web-0"), ("labels", .obj [("app", .str "web")])]),
    ("status", .obj [("phase", .str "Running"), ("podIP", .str "10.244.0.5")])]

def noPods : Cluster := ⟨fun _ => [], fun _ => none⟩

theorem webServices_addressed : ∀ service ∈ webServices.read, service.Addressed := by
  have hweb : web.Addressed := by
    unfold Service.Addressed
    decide
  exact List.forall_mem_singleton.mpr hweb

theorem followsPods_of_keeps_web :
    AllSteps (step (fun _ => []) webServices) (FollowsPods (fun _ => []) webServices) (some noPods)
      [.setPods fun _ => [webPod], .pass] := by
  refine followsPods_of_keeps webServices (some noPods) [.setPods fun _ => [webPod], .pass] ⟨trivial, ⟨_, rfl, ?_⟩, trivial⟩
  intro service hservice
  refine ⟨webServices_addressed service hservice, ?_⟩
  obtain rfl := List.mem_singleton.mp hservice
  exact ⟨by decide, fun hnone => absurd hnone (by decide), by decide⟩

/-- **And only so**, when the paths fit. -/
theorem followsPods_iff (haddressed : ∀ service ∈ services.read, service.Addressed) (c : Option Cluster) (ops : List Op) :
    AllSteps (step render services) (FollowsPods render services) c ops ↔
      AllSteps (step render services) (Keeps render services) c ops := by
  refine ⟨fun h => h.imp fun c op hfollows => ?_, followsPods_of_keeps services c ops⟩
  cases op with
  | setPods pods => trivial
  | pass =>
    cases c with
    | none =>
      obtain ⟨after, hafter, -⟩ := hfollows
      cases hafter
    | some c =>
      have hkeeps := (followsPods_pass_iff haddressed c).mp hfollows
      exact ⟨c, rfl, fun service hservice => ⟨haddressed service hservice, hkeeps service hservice⟩⟩

/-- **The last pod of a service stays listed**: it backed the service at the first pass and is gone at the second. -/
theorem last_pod_listed :
    ¬ AllSteps (step (fun _ => []) webServices) (FollowsPods (fun _ => []) webServices) (some noPods)
      [.setPods fun _ => [webPod], .pass, .setPods fun _ => [], .pass] := by
  rw [followsPods_iff webServices_addressed]
  rintro ⟨-, -, -, ⟨before, hbefore, hkeeps⟩, -⟩
  cases hbefore
  have hstale := (hkeeps web (List.mem_singleton.mpr rfl)).2.stale rfl
  exact absurd hstale (by decide)

end Sirah.ServiceController
