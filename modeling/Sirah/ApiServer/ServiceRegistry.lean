import Sirah.Lib.CString
import Sirah.Lib.Run
import Sirah.Lib.SplitFirst

/-!
# Services and their load balancers

Model of `internal/apiserver/service_registry.c`, with the endpoints of `pkg/networking/load_balancer.c` and of
`pkg/types/service.c`. The pod IPs behind a service are kept twice: the status of the service shows them, its load
balancer sends traffic to them.

* `node_name` and `hostname` of an endpoint are set by nothing, and freed with it: `Unset` is what `malloc` left there, any
  of it at any time. Undefined are the `free` of such a pointer that is not NULL, and a `strcpy` that does not fit: `none`.
  A state of a run is `none` behind it.
* `Agree`: every service has one load balancer and vice versa, and the two have the same pod IPs, none of them twice.
* **`endpoints_agree_iff`**: it holds along a run **iff** the texts of a service fit, a new one comes without endpoints, a
  replacing one with those of its load balancer, no known IP is added again, no endpoint is removed, and what is freed with
  a service is NULL where it was never set.
* `removed_endpoint_listed`: an endpoint that is removed stays in the status.
-/

namespace Sirah.ServiceRegistry

open Runs

/-! ## Data -/

/-- The pointers of an endpoint that no call sets: whether they are NULL. -/
structure Unset where
  nodeName : Bool
  hostname : Bool
  deriving DecidableEq

/-- All of them are NULL. -/
def Unset.null : Unset := ⟨true, true⟩

/-- `k8s_endpoint_t`. -/
structure Endpoint where
  podIp : CString
  podName : CString
  unset : Unset
  deriving DecidableEq

/-- `k8s_service_t`: the names of the metadata, the cluster IP and the endpoints of the status. -/
structure Service where
  name : CString
  ns : CString
  clusterIp : CString
  endpoints : List Endpoint
  deriving DecidableEq

/-- `load_balancer_t`. -/
structure LoadBalancer where
  serviceName : CString
  ns : CString
  endpoints : List Endpoint
  deriving DecidableEq

/-- `service_registry_t`. -/
structure Registry where
  services : List Service
  loadBalancers : List LoadBalancer
  deriving DecidableEq

def Service.key (svc : Service) : CString × CString := (svc.name, svc.ns)

def Service.ips (svc : Service) : List CString := svc.endpoints.map Endpoint.podIp

def LoadBalancer.key (lb : LoadBalancer) : CString × CString := (lb.serviceName, lb.ns)

def LoadBalancer.ips (lb : LoadBalancer) : List CString := lb.endpoints.map Endpoint.podIp

/-! ## Endpoints -/

/-- `k8s_service_add_endpoint`: `unset` is in the place of the endpoint. -/
def Service.addEndpoint (svc : Service) (podIp podName : CString) (unset : Unset) : Service × Int :=
  if svc.endpoints.length ≥ 100 then (svc, -1)
  else ({ svc with endpoints := svc.endpoints ++ [⟨podIp, podName, unset⟩] }, 0)

/-- `load_balancer_new`: the names are copied into `service_name[256]` and `namespace[64]`. -/
def loadBalancerNew (serviceName ns : CString) : Option LoadBalancer :=
  if serviceName.length ≥ 256 ∨ ns.length ≥ 64 then none else some ⟨serviceName, ns, []⟩

/-- `load_balancer_add_endpoint`: `unset` is in the place of the endpoint. -/
def LoadBalancer.addEndpoint (lb : LoadBalancer) (podIp podName : CString) (unset : Unset) : LoadBalancer × Int :=
  if lb.endpoints.length ≥ 100 then (lb, -1)
  else if lb.endpoints.any fun e => e.podIp = podIp then (lb, 0)
  else ({ lb with endpoints := lb.endpoints ++ [⟨podIp, podName, unset⟩] }, 0)

/-- `load_balancer_remove_endpoint`, where the `node_name` that it frees is NULL. -/
def LoadBalancer.removeEndpoint (lb : LoadBalancer) (podIp : CString) : LoadBalancer × Int :=
  match lb.endpoints.splitFirst fun e => e.podIp = podIp with
  | none => (lb, -1)
  | some (pre, _, post) => ({ lb with endpoints := pre ++ post }, 0)

/-- `load_balancer_remove_endpoint` frees no `node_name` but NULL. -/
def LoadBalancer.removable (lb : LoadBalancer) (podIp : CString) : Bool :=
  (lb.endpoints.find? fun e => e.podIp = podIp).all fun e => e.unset.nodeName

/-- The loop over the endpoints of `k8s_service_free` and of `load_balancer_free`. -/
def freeEndpoints (endpoints : List Endpoint) : Option Unit :=
  if ∀ e ∈ endpoints, e.unset = .null then some () else none

/-- `dns_resolver_update_service`: the texts are copied into `service_name[256]`, `namespace[64]` and `cluster_ip[64]`. The
cache has room: its entries are those of services. -/
def dnsResolverUpdateService (service : Service) : Option Unit :=
  if service.name.length < 256 ∧ service.ns.length < 64 ∧ service.clusterIp.length < 64 then some () else none

/-! ## The registry -/

/-- `service_registry_new`. -/
def Registry.new : Registry := ⟨[], []⟩

namespace Registry

variable (r : Registry)

/-- `service_registry_add_service`. -/
def addService (service : Service) : Option (Registry × Int) :=
  if r.services.length ≥ 1000 then some (r, -1)
  else
    match r.services.splitFirst fun svc => svc.key = service.key with
    | some (pre, svc, post) => do
      freeEndpoints svc.endpoints
      dnsResolverUpdateService service
      return ({ r with services := pre ++ service :: post }, 0)
    | none => do
      dnsResolverUpdateService service
      let lb ← loadBalancerNew service.name service.ns
      let loadBalancers := if r.loadBalancers.length < 1000 then r.loadBalancers ++ [lb] else r.loadBalancers
      return (⟨r.services ++ [service], loadBalancers⟩, 0)

/-- `service_registry_remove_service`. -/
def removeService (name ns : CString) : Option (Registry × Int) :=
  match r.services.splitFirst fun svc => svc.key = (name, ns) with
  | none => some (r, -1)
  | some (pre, svc, post) => do
    freeEndpoints svc.endpoints
    match r.loadBalancers.splitFirst fun lb => lb.key = (name, ns) with
    | none => return (⟨pre ++ post, r.loadBalancers⟩, 0)
    | some (preLb, lb, postLb) => do
      freeEndpoints lb.endpoints
      return (⟨pre ++ post, preLb ++ postLb⟩, 0)

/-- `service_registry_add_endpoint`: `unsetLb` and `unset` are in the places of the endpoint. -/
def addEndpoint (serviceName ns podIp podName : CString) (unsetLb unset : Unset) : Registry × Int :=
  match r.loadBalancers.splitFirst fun lb => lb.key = (serviceName, ns) with
  | none => (r, -1)
  | some (preLb, lb, postLb) =>
    match lb.addEndpoint podIp podName unsetLb with
    | (lb, 0) =>
      match r.services.splitFirst fun svc => svc.key = (serviceName, ns) with
      | none => (⟨r.services, preLb ++ lb :: postLb⟩, 0)
      | some (pre, svc, post) => (⟨pre ++ (svc.addEndpoint podIp podName unset).1 :: post, preLb ++ lb :: postLb⟩, 0)
    | _ => (r, -1)

/-- `service_registry_remove_endpoint`. -/
def removeEndpoint (serviceName ns podIp : CString) : Option (Registry × Int) :=
  match r.loadBalancers.splitFirst fun lb => lb.key = (serviceName, ns) with
  | none => some (r, -1)
  | some (preLb, lb, postLb) =>
    if lb.removable podIp then
      some (⟨r.services, preLb ++ (lb.removeEndpoint podIp).1 :: postLb⟩, (lb.removeEndpoint podIp).2)
    else none

end Registry

/-! ## Runs -/

inductive Op where
  | addService (service : Service)
  | removeService (name ns : CString)
  | addEndpoint (serviceName ns podIp podName : CString) (unsetLb unset : Unset)
  | removeEndpoint (serviceName ns podIp : CString)
  deriving DecidableEq

def Registry.step (r : Registry) : Op → Option Registry
  | .addService service => (r.addService service).map Prod.fst
  | .removeService name ns => (r.removeService name ns).map Prod.fst
  | .addEndpoint serviceName ns podIp podName unsetLb unset =>
    some (r.addEndpoint serviceName ns podIp podName unsetLb unset).1
  | .removeEndpoint serviceName ns podIp => (r.removeEndpoint serviceName ns podIp).map Prod.fst

/-- A call, from a state that may be undefined. -/
def step (r : Option Registry) (op : Op) : Option Registry := r.bind (Registry.step · op)

/-- The pod IPs of the status are exactly those of the load balancer, without repetition. -/
structure SameIps (svc : Service) (lb : LoadBalancer) : Prop where
  nodup : svc.ips.Nodup
  perm : svc.ips.Perm lb.ips

/-- **One set seen twice.** -/
structure Registry.Agree (r : Registry) : Prop where
  services : (r.services.map Service.key).Nodup
  loadBalancers : (r.loadBalancers.map LoadBalancer.key).Nodup
  paired : ∀ k, k ∈ r.services.map Service.key ↔ k ∈ r.loadBalancers.map LoadBalancer.key
  same : ∀ svc ∈ r.services, ∀ lb ∈ r.loadBalancers, lb.key = svc.key → SameIps svc lb

def Agrees (r : Option Registry) : Prop := ∃ r', r = some r' ∧ r'.Agree

/-- The texts of a service fit the DNS cache, and its load balancer. -/
def Service.Fits (service : Service) : Prop :=
  service.name.length ≤ 255 ∧ service.ns.length ≤ 63 ∧ service.clusterIp.length ≤ 63

/-- What is freed with the service of a key is NULL where it was never set. -/
def Registry.FreesService (r : Registry) (key : CString × CString) : Prop :=
  ∀ svc ∈ r.services, svc.key = key → ∀ e ∈ svc.endpoints, e.unset = .null

/-- What is freed with the load balancer of a key is NULL where it was never set. -/
def Registry.FreesLoadBalancer (r : Registry) (key : CString × CString) : Prop :=
  ∀ lb ∈ r.loadBalancers, lb.key = key → ∀ e ∈ lb.endpoints, e.unset = .null

/-- The condition on a call. -/
def Registry.Keeps (r : Registry) : Op → Prop
  | .addService service => r.services.length < 1000 → service.Fits ∧
      if service.key ∈ r.services.map Service.key then
        r.FreesService service.key ∧ ∀ lb ∈ r.loadBalancers, lb.key = service.key → SameIps service lb
      else service.endpoints = []
  | .removeService name ns => r.FreesService (name, ns) ∧ r.FreesLoadBalancer (name, ns)
  | .addEndpoint serviceName ns podIp _ _ _ => ∀ lb ∈ r.loadBalancers, lb.key = (serviceName, ns) →
      lb.endpoints.length < 100 → podIp ∉ lb.ips
  | .removeEndpoint serviceName ns podIp => ∀ lb ∈ r.loadBalancers, lb.key = (serviceName, ns) → podIp ∉ lb.ips

def Keeps (r : Option Registry) (op : Op) : Prop := ∀ r' ∈ r, r'.Keeps op

/-! ## Two tables -/

namespace Registry

variable {r : Registry} {pre post : List Service} {preLb postLb : List LoadBalancer} {svc svc' : Service}
  {lb lb' : LoadBalancer}

/-- **A service and its load balancer are replaced.** -/
theorem agree_replace_iff (h : Agree ⟨pre ++ svc :: post, preLb ++ lb :: postLb⟩) (hkey : lb.key = svc.key)
    (hsvc : svc'.key = svc.key) (hlb : lb'.key = lb.key) :
    Agree ⟨pre ++ svc' :: post, preLb ++ lb' :: postLb⟩ ↔ SameIps svc' lb' := by
  have hservices : (pre ++ svc' :: post).map Service.key = (pre ++ svc :: post).map Service.key := by simp [hsvc]
  have hlbs : (preLb ++ lb' :: postLb).map LoadBalancer.key = (preLb ++ lb :: postLb).map LoadBalancer.key := by
    simp [hlb]
  constructor
  · intro h'
    exact h'.same svc' (List.mem_append_cons_iff.mpr (.inl rfl)) lb' (List.mem_append_cons_iff.mpr (.inl rfl))
      ((hlb.trans hkey).trans hsvc.symm)
  · intro hsame
    refine ⟨hservices ▸ h.services, hlbs ▸ h.loadBalancers, ?_, fun s hs l hl heq => ?_⟩
    · intro k
      rw [hservices, hlbs]
      exact h.paired k
    · rcases List.mem_append_cons_iff.mp hs with rfl | hs' <;> rcases List.mem_append_cons_iff.mp hl with rfl | hl'
      · exact hsame
      · exact absurd ((heq.trans hsvc).trans hkey.symm) (List.key_ne_of_nodup h.loadBalancers hl')
      · exact absurd ((heq.symm.trans hlb).trans hkey) (List.key_ne_of_nodup h.services hs')
      · exact h.same s (List.mem_append_cons_iff.mpr (.inr hs')) l (List.mem_append_cons_iff.mpr (.inr hl')) heq

/-- **A service and its load balancer are removed.** -/
theorem agree_remove (h : Agree ⟨pre ++ svc :: post, preLb ++ lb :: postLb⟩) (hkey : lb.key = svc.key) :
    Agree ⟨pre ++ post, preLb ++ postLb⟩ := by
  refine ⟨?_, ?_, fun k => ?_, fun s hs l hl heq => ?_⟩
  · exact List.nodup_remove h.services
  · exact List.nodup_remove h.loadBalancers
  · rw [List.mem_map_remove_iff h.services, List.mem_map_remove_iff h.loadBalancers, h.paired k, hkey]
  · exact h.same s (List.mem_append_cons_iff.mpr (.inr hs)) l (List.mem_append_cons_iff.mpr (.inr hl)) heq

/-- **A service and its load balancer are added.** -/
theorem agree_append_iff (h : r.Agree) (hnew : svc.key ∉ r.services.map Service.key) (hkey : lb.key = svc.key) :
    Agree ⟨r.services ++ [svc], r.loadBalancers ++ [lb]⟩ ↔ SameIps svc lb := by
  have hnewLb : lb.key ∉ r.loadBalancers.map LoadBalancer.key := by
    rw [hkey, ← h.paired]
    exact hnew
  constructor
  · intro h'
    exact h'.same svc (List.mem_append_right _ List.mem_cons_self) lb (List.mem_append_right _ List.mem_cons_self) hkey
  · intro hsame
    refine ⟨?_, ?_, fun k => ?_, fun s hs l hl heq => ?_⟩
    · exact List.nodup_map_concat.mpr ⟨hnew, h.services⟩
    · exact List.nodup_map_concat.mpr ⟨hnewLb, h.loadBalancers⟩
    · rw [List.map_append, List.map_append, List.mem_append, List.mem_append, h.paired k]
      simp [hkey]
    · rcases List.mem_append.mp hs with hs | hs <;> rcases List.mem_append.mp hl with hl | hl
      · exact h.same s hs l hl heq
      · rw [List.mem_singleton.mp hl, hkey] at heq
        exact absurd (heq ▸ List.mem_map_of_mem hs) hnew
      · rw [List.mem_singleton.mp hs, ← hkey] at heq
        exact absurd (heq ▸ List.mem_map_of_mem hl) hnewLb
      · rw [List.mem_singleton.mp hs, List.mem_singleton.mp hl]
        exact hsame

/-- There are as many load balancers as services. -/
theorem Agree.length_eq (h : r.Agree) : r.services.length = r.loadBalancers.length := by
  have hperm := (List.perm_ext_iff_of_nodup h.services h.loadBalancers).mpr h.paired
  simpa using hperm.length_eq

/-- The load balancer of a service. -/
theorem Agree.exists_loadBalancer (h : r.Agree) (hsvc : svc ∈ r.services) :
    ∃ preLb lb postLb, r.loadBalancers = preLb ++ lb :: postLb ∧ lb.key = svc.key := by
  obtain ⟨lb, hlb, hkey⟩ := List.mem_map.mp ((h.paired svc.key).mp (List.mem_map_of_mem hsvc))
  obtain ⟨preLb, postLb, heq⟩ := List.append_of_mem hlb
  exact ⟨preLb, lb, postLb, heq, hkey⟩

/-- The service of a load balancer. -/
theorem Agree.exists_service (h : r.Agree) (hlb : lb ∈ r.loadBalancers) :
    ∃ pre svc post, r.services = pre ++ svc :: post ∧ svc.key = lb.key := by
  obtain ⟨svc, hsvc, hkey⟩ := List.mem_map.mp ((h.paired lb.key).mpr (List.mem_map_of_mem hlb))
  obtain ⟨pre, post, heq⟩ := List.append_of_mem hsvc
  exact ⟨pre, svc, post, heq, hkey⟩

/-- What holds of the services with one key holds of the one. -/
theorem Agree.forall_service_iff (h : r.Agree) (hsvc : svc ∈ r.services) {P : Service → Prop} :
    (∀ s ∈ r.services, s.key = svc.key → P s) ↔ P svc := by
  refine ⟨fun hall => hall svc hsvc rfl, fun hP s hs heq => ?_⟩
  rw [List.inj_on_of_nodup_map h.services hs hsvc heq]
  exact hP

/-- What holds of the load balancers with one key holds of the one. -/
theorem Agree.forall_key_iff (h : r.Agree) (hlb : lb ∈ r.loadBalancers) {P : LoadBalancer → Prop} :
    (∀ l ∈ r.loadBalancers, l.key = lb.key → P l) ↔ P lb := by
  refine ⟨fun hall => hall lb hlb rfl, fun hP l hl heq => ?_⟩
  rw [List.inj_on_of_nodup_map h.loadBalancers hl hlb heq]
  exact hP

end Registry

/-! ## One call -/

/-- `load_balancer_add_endpoint` fails, knows the IP, or appends it. -/
theorem LoadBalancer.addEndpoint_cases (lb : LoadBalancer) (podIp podName : CString) (unset : Unset) :
    (100 ≤ lb.endpoints.length ∧ lb.addEndpoint podIp podName unset = (lb, -1)) ∨
    lb.endpoints.length < 100 ∧ (podIp ∈ lb.ips ∧ lb.addEndpoint podIp podName unset = (lb, 0) ∨
      podIp ∉ lb.ips ∧
        lb.addEndpoint podIp podName unset = ({ lb with endpoints := lb.endpoints ++ [⟨podIp, podName, unset⟩] }, 0)) := by
  have hany : (lb.endpoints.any fun e => e.podIp = podIp) = true ↔ podIp ∈ lb.ips := by
    simp [LoadBalancer.ips]
  unfold addEndpoint
  by_cases hfull : lb.endpoints.length ≥ 100
  · exact .inl ⟨hfull, if_pos hfull⟩
  · refine .inr ⟨Nat.lt_of_not_le hfull, ?_⟩
    rw [if_neg hfull]
    by_cases hknown : podIp ∈ lb.ips
    · exact .inl ⟨hknown, if_pos (hany.mpr hknown)⟩
    · exact .inr ⟨hknown, if_neg fun h => hknown (hany.mp h)⟩

/-- `load_balancer_remove_endpoint` changes the load balancer exactly if it has the IP: there is one endpoint less. -/
theorem LoadBalancer.removeEndpoint_cases (lb : LoadBalancer) (podIp : CString) :
    (lb.removeEndpoint podIp).1.key = lb.key ∧
      (podIp ∉ lb.ips ∧ (lb.removeEndpoint podIp).1 = lb ∨
        podIp ∈ lb.ips ∧ (lb.removeEndpoint podIp).1.ips.length + 1 = lb.ips.length) := by
  unfold removeEndpoint
  rcases List.splitFirst_key_cases Endpoint.podIp lb.endpoints podIp with
    ⟨hfirst, hnone⟩ | ⟨pre, e, post, hfirst, hendpoints, he⟩
  · rw [hfirst]
    exact ⟨rfl, .inl ⟨hnone, rfl⟩⟩
  · rw [hfirst]
    refine ⟨rfl, .inr ⟨?_, ?_⟩⟩
    · rw [LoadBalancer.ips, hendpoints, ← he]
      exact List.mem_map_of_mem (List.mem_append_cons_iff.mpr (.inl rfl))
    · simp [LoadBalancer.ips, hendpoints]
      omega

theorem SameIps.length_eq {svc : Service} {lb : LoadBalancer} (h : SameIps svc lb) :
    svc.endpoints.length = lb.endpoints.length := by
  simpa [Service.ips, LoadBalancer.ips] using h.perm.length_eq

/-- A new IP on both sides. -/
theorem SameIps.append {svc : Service} {lb : LoadBalancer} {podIp : CString} (h : SameIps svc lb) (hnew : podIp ∉ lb.ips)
    (podName : CString) (unsetLb unset : Unset) : SameIps { svc with endpoints := svc.endpoints ++ [⟨podIp, podName, unset⟩] }
      { lb with endpoints := lb.endpoints ++ [⟨podIp, podName, unsetLb⟩] } := by
  constructor
  · have hnewSvc : podIp ∉ svc.ips := fun hmem => hnew (h.perm.mem_iff.mp hmem)
    exact List.nodup_map_concat.mpr ⟨hnewSvc, h.nodup⟩
  · rw [Service.ips, LoadBalancer.ips, List.map_append, List.map_append]
    exact h.perm.append_right _

theorem freeEndpoints_of_null {endpoints : List Endpoint} (h : ∀ e ∈ endpoints, e.unset = .null) :
    freeEndpoints endpoints = some () :=
  if_pos h

theorem freeEndpoints_of_not_null {endpoints : List Endpoint} (h : ¬ ∀ e ∈ endpoints, e.unset = .null) :
    freeEndpoints endpoints = none :=
  if_neg h

theorem dnsResolverUpdateService_of_fits {service : Service} (h : service.Fits) :
    dnsResolverUpdateService service = some () := by
  obtain ⟨hname, hns, hip⟩ := h
  exact if_pos ⟨by omega, by omega, by omega⟩

theorem dnsResolverUpdateService_of_not_fits {service : Service} (h : ¬ service.Fits) :
    dnsResolverUpdateService service = none := by
  refine if_neg ?_
  rintro ⟨hname, hns, hip⟩
  exact h ⟨by omega, by omega, by omega⟩

theorem loadBalancerNew_of_fits {service : Service} (h : service.Fits) :
    loadBalancerNew service.name service.ns = some ⟨service.name, service.ns, []⟩ := by
  obtain ⟨hname, hns, -⟩ := h
  exact if_neg (by omega)

/-- An IP that the load balancer does not have: nothing is freed. -/
theorem LoadBalancer.removable_of_not_mem {lb : LoadBalancer} {podIp : CString} (h : podIp ∉ lb.ips) :
    lb.removable podIp = true := by
  have hnone : (lb.endpoints.find? fun e => e.podIp = podIp) = none := by
    rw [List.find?_eq_none]
    intro e he hip
    exact h (of_decide_eq_true hip ▸ List.mem_map_of_mem he)
  rw [removable, hnone]
  rfl

namespace Registry

variable {r : Registry}

theorem agrees_none : ¬ Agrees none := by
  simp [Agrees]

theorem agrees_some_iff : Agrees (some r) ↔ r.Agree := by
  simp [Agrees]

/-- **A service of a new name.** -/
theorem addService_new_iff (h : r.Agree) (hroom : r.services.length < 1000) {service : Service}
    (hnew : service.key ∉ r.services.map Service.key)
    (hfirst : (r.services.splitFirst fun svc => svc.key = service.key) = none) :
    Agrees (r.step (.addService service)) ↔ service.Fits ∧ service.endpoints = [] := by
  have hroomLb : r.loadBalancers.length < 1000 := h.length_eq ▸ hroom
  have hempty : SameIps service ⟨service.name, service.ns, []⟩ ↔ service.endpoints = [] := by
    refine ⟨fun hsame => List.eq_nil_of_length_eq_zero hsame.length_eq, fun heq => ?_⟩
    exact ⟨by simp [Service.ips, heq], by simp [Service.ips, LoadBalancer.ips, heq]⟩
  rw [Registry.step, addService, if_neg (Nat.not_le.mpr hroom), hfirst]
  dsimp only
  by_cases hfits : service.Fits
  · rw [dnsResolverUpdateService_of_fits hfits, loadBalancerNew_of_fits hfits, and_iff_right hfits]
    simp only [Option.bind_eq_bind, Option.bind_some, if_pos hroomLb, Option.pure_def, Option.map_some]
    rw [agrees_some_iff, agree_append_iff h hnew rfl, hempty]
  · rw [dnsResolverUpdateService_of_not_fits hfits]
    exact iff_of_false agrees_none fun hkeeps => hfits hkeeps.1

/-- **A service that replaces another.** -/
theorem addService_replace_iff {pre post : List Service} {svc : Service} {preLb postLb : List LoadBalancer} {lb : LoadBalancer}
    (h : Agree ⟨pre ++ svc :: post, preLb ++ lb :: postLb⟩) (hroom : (pre ++ svc :: post).length < 1000) {service : Service}
    (hkey : svc.key = service.key) (hlb : lb.key = svc.key)
    (hfirst : ((pre ++ svc :: post).splitFirst fun svc => svc.key = service.key) = some (pre, svc, post)) :
    Agrees (Registry.step ⟨pre ++ svc :: post, preLb ++ lb :: postLb⟩ (.addService service)) ↔
      service.Fits ∧ (∀ e ∈ svc.endpoints, e.unset = .null) ∧ SameIps service lb := by
  rw [Registry.step, addService]
  dsimp only
  rw [if_neg (Nat.not_le.mpr hroom), hfirst]
  dsimp only
  by_cases hnull : ∀ e ∈ svc.endpoints, e.unset = .null
  · rw [freeEndpoints_of_null hnull, and_iff_right hnull]
    by_cases hfits : service.Fits
    · rw [dnsResolverUpdateService_of_fits hfits, and_iff_right hfits]
      exact agrees_some_iff.trans (agree_replace_iff h hlb hkey.symm rfl)
    · rw [dnsResolverUpdateService_of_not_fits hfits]
      exact iff_of_false agrees_none fun hkeeps => hfits hkeeps.1
  · rw [freeEndpoints_of_not_null hnull]
    exact iff_of_false agrees_none fun hkeeps => hnull hkeeps.2.1

theorem addService_iff (h : r.Agree) (service : Service) :
    Agrees (r.step (.addService service)) ↔ r.Keeps (.addService service) := by
  rw [Registry.Keeps]
  by_cases hfull : r.services.length ≥ 1000
  · rw [Registry.step, addService, if_pos hfull]
    exact iff_of_true (agrees_some_iff.mpr h) fun hroom => absurd hfull (Nat.not_le.mpr hroom)
  have hroom := Nat.lt_of_not_le hfull
  rw [forall_prop_of_true hroom]
  rcases List.splitFirst_key_cases Service.key r.services service.key with
    ⟨hfirst, hnew⟩ | ⟨pre, svc, post, hfirst, hservices, hkey⟩
  · rw [if_neg hnew]
    exact addService_new_iff h hroom hnew hfirst
  · have hmem : svc ∈ r.services := hservices.symm ▸ List.mem_append_cons_self
    obtain ⟨preLb, lb, postLb, hlbs, hlb⟩ := h.exists_loadBalancer hmem
    have hmemLb : lb ∈ r.loadBalancers := hlbs.symm ▸ List.mem_append_cons_self
    have hall := h.forall_key_iff hmemLb (P := SameIps service)
    have hfrees := h.forall_service_iff hmem (P := fun svc => ∀ e ∈ svc.endpoints, e.unset = .null)
    rw [hlb.trans hkey] at hall
    rw [hkey] at hfrees
    rw [if_pos (hkey ▸ List.mem_map_of_mem hmem), hall, FreesService, hfrees]
    obtain ⟨services, loadBalancers⟩ := r
    cases hservices
    cases hlbs
    exact addService_replace_iff h hroom hkey hlb hfirst

theorem removeService_iff (h : r.Agree) (name ns : CString) :
    Agrees (r.step (.removeService name ns)) ↔ r.Keeps (.removeService name ns) := by
  rw [Registry.step, Registry.Keeps, removeService]
  rcases List.splitFirst_key_cases Service.key r.services (name, ns) with
    ⟨hfirst, hnone⟩ | ⟨pre, svc, post, hfirst, hservices, hkey⟩
  · have hnoneLb : (name, ns) ∉ r.loadBalancers.map LoadBalancer.key := fun hmem => hnone ((h.paired _).mpr hmem)
    rw [hfirst]
    exact iff_of_true (agrees_some_iff.mpr h)
      ⟨fun svc hsvc hkey => absurd (hkey ▸ List.mem_map_of_mem hsvc) hnone,
        fun lb hlb hkey => absurd (hkey ▸ List.mem_map_of_mem hlb) hnoneLb⟩
  have hmem : svc ∈ r.services := hservices.symm ▸ List.mem_append_cons_self
  have hpaired := (h.paired svc.key).mp (List.mem_map_of_mem hmem)
  have hfrees := h.forall_service_iff hmem (P := fun svc => ∀ e ∈ svc.endpoints, e.unset = .null)
  rw [hkey] at hfrees
  rw [hfirst, FreesService, hfrees]
  rcases List.splitFirst_key_cases LoadBalancer.key r.loadBalancers (name, ns) with
    ⟨-, hnone⟩ | ⟨preLb, lb, postLb, hfirstLb, hlbs, hkeyLb⟩
  · exact absurd (hkey ▸ hpaired) hnone
  have hmemLb : lb ∈ r.loadBalancers := hlbs.symm ▸ List.mem_append_cons_self
  have hfreesLb := h.forall_key_iff hmemLb (P := fun lb => ∀ e ∈ lb.endpoints, e.unset = .null)
  rw [hkeyLb] at hfreesLb
  dsimp only
  rw [hfirstLb, FreesLoadBalancer, hfreesLb]
  by_cases hnull : ∀ e ∈ svc.endpoints, e.unset = .null
  swap
  · rw [freeEndpoints_of_not_null hnull]
    exact iff_of_false agrees_none fun hkeeps => hnull hkeeps.1
  by_cases hnullLb : ∀ e ∈ lb.endpoints, e.unset = .null
  swap
  · rw [freeEndpoints_of_null hnull]
    dsimp only [Option.bind_eq_bind, Option.bind_some]
    rw [freeEndpoints_of_not_null hnullLb]
    exact iff_of_false agrees_none fun hkeeps => hnullLb hkeeps.2
  rw [freeEndpoints_of_null hnull]
  dsimp only [Option.bind_eq_bind, Option.bind_some]
  rw [freeEndpoints_of_null hnullLb]
  obtain ⟨services, loadBalancers⟩ := r
  cases hservices
  cases hlbs
  exact iff_of_true (agrees_some_iff.mpr (agree_remove h (hkeyLb.trans hkey.symm))) ⟨hnull, hnullLb⟩

theorem addEndpoint_iff (h : r.Agree) (serviceName ns podIp podName : CString) (unsetLb unset : Unset) :
    Agrees (r.step (.addEndpoint serviceName ns podIp podName unsetLb unset)) ↔
      r.Keeps (.addEndpoint serviceName ns podIp podName unsetLb unset) := by
  rw [Registry.step, Registry.Keeps, addEndpoint, agrees_some_iff]
  rcases List.splitFirst_key_cases LoadBalancer.key r.loadBalancers (serviceName, ns) with
    ⟨hfirst, hnone⟩ | ⟨preLb, lb, postLb, hfirst, hlbs, hkey⟩
  · rw [hfirst]
    exact iff_of_true h fun lb hlb hkey => absurd (hkey ▸ List.mem_map_of_mem hlb) hnone
  · have hmemLb : lb ∈ r.loadBalancers := hlbs.symm ▸ List.mem_append_cons_self
    have hpaired := (h.paired lb.key).mpr (List.mem_map_of_mem hmemLb)
    have hall := h.forall_key_iff hmemLb (P := fun lb => lb.endpoints.length < 100 → podIp ∉ lb.ips)
    rw [hkey] at hall
    rw [hfirst, hall]
    rcases List.splitFirst_key_cases Service.key r.services (serviceName, ns) with
      ⟨-, hnone⟩ | ⟨pre, svc, post, hfirstSvc, hservices, hsvc⟩
    · exact absurd (hkey ▸ hpaired) hnone
    have hsvcKey : lb.key = svc.key := hkey.trans hsvc.symm
    rw [hfirstSvc]
    dsimp only
    obtain ⟨services, loadBalancers⟩ := r
    cases hservices
    cases hlbs
    have hsame := (agree_replace_iff h hsvcKey rfl rfl).mp h
    rcases lb.addEndpoint_cases podIp podName unsetLb with ⟨hfull, heq⟩ | ⟨hroom, ⟨hknown, heq⟩ | ⟨hnew, heq⟩⟩
    · rw [heq]
      exact iff_of_true h fun hroom => absurd hroom (Nat.not_lt.mpr hfull)
    all_goals
      have hroomSvc : ¬ svc.endpoints.length ≥ 100 := by
        rw [hsame.length_eq]
        omega
      have hadded : svc.addEndpoint podIp podName unset =
          ({ svc with endpoints := svc.endpoints ++ [⟨podIp, podName, unset⟩] }, 0) := if_neg hroomSvc
      rw [heq, hadded]
    · -- the status gets the IP a second time
      refine iff_of_false (fun h' => ?_) fun hkeeps => hkeeps hroom hknown
      have hnext : Agree ⟨pre ++ { svc with endpoints := svc.endpoints ++ [⟨podIp, podName, unset⟩] } :: post,
        preLb ++ lb :: postLb⟩ := h'
      have hlength := (hnext.same _ (List.mem_append_cons_iff.mpr (.inl rfl)) _
        (List.mem_append_cons_iff.mpr (.inl rfl)) hsvcKey).length_eq
      rw [List.length_append, hsame.length_eq] at hlength
      simp at hlength
    · have hnext : Agree ⟨pre ++ { svc with endpoints := svc.endpoints ++ [⟨podIp, podName, unset⟩] } :: post,
          preLb ++ { lb with endpoints := lb.endpoints ++ [⟨podIp, podName, unsetLb⟩] } :: postLb⟩ ↔ _ :=
        agree_replace_iff h hsvcKey rfl rfl
      exact iff_of_true (hnext.mpr (hsame.append hnew podName unsetLb unset)) fun _ => hnew

theorem removeEndpoint_iff (h : r.Agree) (serviceName ns podIp : CString) :
    Agrees (r.step (.removeEndpoint serviceName ns podIp)) ↔ r.Keeps (.removeEndpoint serviceName ns podIp) := by
  rw [Registry.step, Registry.Keeps, removeEndpoint]
  rcases List.splitFirst_key_cases LoadBalancer.key r.loadBalancers (serviceName, ns) with
    ⟨hfirst, hnone⟩ | ⟨preLb, lb, postLb, hfirst, hlbs, hkey⟩
  · rw [hfirst]
    exact iff_of_true (agrees_some_iff.mpr h) fun lb hlb hkey => absurd (hkey ▸ List.mem_map_of_mem hlb) hnone
  have hmemLb : lb ∈ r.loadBalancers := hlbs.symm ▸ List.mem_append_cons_self
  have hall := h.forall_key_iff hmemLb (P := fun lb => podIp ∉ lb.ips)
  rw [hkey] at hall
  rw [hfirst, hall]
  dsimp only
  obtain ⟨pre, svc, post, hservices, hsvcKey⟩ := h.exists_service hmemLb
  obtain ⟨hremovedKey, hremoved⟩ := lb.removeEndpoint_cases podIp
  obtain ⟨services, loadBalancers⟩ := r
  cases hservices
  cases hlbs
  have hsame := (agree_replace_iff h hsvcKey.symm rfl rfl).mp h
  rcases hremoved with ⟨hunknown, heq⟩ | ⟨hknown, hlength⟩
  · rw [LoadBalancer.removable_of_not_mem hunknown, heq]
    exact iff_of_true (agrees_some_iff.mpr h) hunknown
  · refine iff_of_false (fun hagrees => ?_) fun hunknown => hunknown hknown
    split at hagrees
    · have hnew := ((agree_replace_iff h hsvcKey.symm rfl hremovedKey).mp (agrees_some_iff.mp hagrees)).perm.length_eq
      have hold := hsame.perm.length_eq
      omega
    · exact agrees_none hagrees

/-- **One call, exactly.** -/
theorem step_iff (h : r.Agree) (op : Op) : Agrees (r.step op) ↔ r.Keeps op := by
  cases op with
  | addService service => exact addService_iff h service
  | removeService name ns => exact removeService_iff h name ns
  | addEndpoint serviceName ns podIp podName unsetLb unset =>
    exact addEndpoint_iff h serviceName ns podIp podName unsetLb unset
  | removeEndpoint serviceName ns podIp => exact removeEndpoint_iff h serviceName ns podIp

theorem agree_new : new.Agree :=
  ⟨List.nodup_nil, List.nodup_nil, fun _ => Iff.rfl, fun _ hsvc => absurd hsvc List.not_mem_nil⟩

end Registry

/-- **The endpoints agree, exactly** along the runs whose calls all meet the condition. -/
theorem endpoints_agree_iff {ops : List Op} :
    AllStates step Agrees (some .new) ops ↔ AllSteps step Keeps (some .new) ops := by
  refine allStates_iff_allSteps_of_kept (I := fun _ => True) (A := fun _ _ => True) (fun _ _ _ _ _ _ => trivial) ?_
    trivial (Registry.agrees_some_iff.mpr Registry.agree_new) allSteps_true
  rintro - op - - ⟨r, rfl, hagree⟩
  exact (Registry.step_iff hagree op).trans (by simp [Keeps])

/-- **An endpoint that is removed** stays in the status of the service. -/
theorem removed_endpoint_listed : ¬ ∀ ops : List Op, AllStates step Agrees (some .new) ops := by
  intro h
  obtain ⟨r, hr, hagree⟩ := (h [.addService ⟨"web", "a", "10.96.0.1", []⟩,
    .addEndpoint "web" "a" "10.0.0.1" "web-0" .null .null, .removeEndpoint "web" "a" "10.0.0.1"]).run_mem
  cases hr
  have hsame := hagree.same ⟨"web", "a", "10.96.0.1", [⟨"10.0.0.1", "web-0", .null⟩]⟩ List.mem_cons_self ⟨"web", "a", []⟩
    List.mem_cons_self rfl
  exact absurd hsame.length_eq (by decide)

end Sirah.ServiceRegistry
