import Sirah.Lib.CString
import Sirah.Lib.SplitFirst

/-!
# The resource quota manager

`internal/controller/resource_quota.c`: a table of at most 500 quotas, each with its limits and its
own usage. A quota is looked up by namespace and name when it is created, updated or deleted, and by
namespace alone, the first one in the table, when usage is recorded and when a pod is admitted.

The counters are the `long long` and `int` of the source, with the arithmetic of two's complement.
-/

namespace Sirah.Quota

/-! ## The table -/

/-- The kinds of object that a quota only counts. -/
inductive Countable
  | services
  | configmaps
  | secrets
deriving DecidableEq

/-- `quota_limits_t`. A limit that is not positive is not checked. -/
structure QuotaLimits where
  cpuMillicores : Int64
  memoryBytes : Int64
  pods : Int32
  counts : Countable → Int32

/-- `quota_usage_t`. -/
structure QuotaUsage where
  cpuUsedMillicores : Int64
  memoryUsedBytes : Int64
  podsUsed : Int32
  countsUsed : Countable → Int32

/-- What `memset` leaves. -/
def QuotaUsage.zero : QuotaUsage := ⟨0, 0, 0, fun _ => 0⟩

/-- `resource_quota_t`. -/
structure ResourceQuota where
  ns : CString
  name : CString
  hard : QuotaLimits
  used : QuotaUsage

/-- `MAX_RESOURCE_QUOTAS`. -/
def maxResourceQuotas : Nat := 500

/-- `resource_quota_manager_t`. -/
structure Manager where
  quotas : List ResourceQuota
  bounded : quotas.length ≤ maxResourceQuotas

def Manager.init : Manager := ⟨[], Nat.zero_le _⟩

/-! ## Changing one quota -/

/-- The first quota that satisfies `p` is changed by `f`. -/
def changeFirst (p : ResourceQuota → Bool) (f : ResourceQuota → ResourceQuota)
    (quotas : List ResourceQuota) : Option (List ResourceQuota) :=
  (quotas.splitFirst p).map fun r => r.1 ++ f r.2.1 :: r.2.2

/-- Is it the quota of this namespace and name? -/
def ResourceQuota.hasKey (ns name : CString) (q : ResourceQuota) : Bool := q.ns == ns && q.name == name

variable {p : ResourceQuota → Bool} {f : ResourceQuota → ResourceQuota} {quotas quotas' : List ResourceQuota}

/-- **What a change does**: one quota, the first that satisfies `p`, is replaced. -/
theorem changeFirst_eq_some (h : changeFirst p f quotas = some quotas') :
    ∃ pre q post, quotas = pre ++ q :: post ∧ p q = true ∧ quotas' = pre ++ f q :: post := by
  obtain ⟨⟨pre, q, post⟩, hsplit, rfl⟩ := Option.map_eq_some_iff.mp h
  obtain ⟨rfl, hq, -⟩ := List.splitFirst_eq_some hsplit
  exact ⟨pre, q, post, rfl, hq, rfl⟩

theorem changeFirst_eq_none (h : changeFirst p f quotas = none) : ∀ q ∈ quotas, p q = false :=
  List.splitFirst_eq_none.mp (Option.map_eq_none_iff.mp h)

theorem length_changeFirst (h : changeFirst p f quotas = some quotas') :
    quotas'.length = quotas.length := by
  obtain ⟨pre, q, post, rfl, -, rfl⟩ := changeFirst_eq_some h
  simp only [List.length_append, List.length_cons]

/-- The table after the change, with `missing` returned where there is nothing to change. -/
def Manager.change (m : Manager) (p : ResourceQuota → Bool) (f : ResourceQuota → ResourceQuota)
    (missing : Int) : Manager × Int :=
  match h : changeFirst p f m.quotas with
  | some quotas' => (⟨quotas', length_changeFirst h ▸ m.bounded⟩, 0)
  | none => (m, missing)

theorem Manager.change_cases (m : Manager) (p : ResourceQuota → Bool) (f : ResourceQuota → ResourceQuota)
    (missing : Int) :
    (∃ pre q post, m.quotas = pre ++ q :: post ∧ p q = true ∧
      (m.change p f missing).1.quotas = pre ++ f q :: post) ∨
    (∀ q ∈ m.quotas, p q = false) ∧ (m.change p f missing).1 = m := by
  unfold Manager.change
  split
  · rename_i h
    exact .inl (changeFirst_eq_some h)
  · rename_i h
    exact .inr ⟨changeFirst_eq_none h, rfl⟩

/-! ## Quotas -/

/-- Does `resource_quota_create` take it? There is no quota of its key, and a free slot. -/
def Manager.accepts (m : Manager) (quota : ResourceQuota) : Bool :=
  !m.quotas.any (ResourceQuota.hasKey quota.ns quota.name) && decide (m.quotas.length < maxResourceQuotas)

theorem Manager.bounded_append {m : Manager} {quota q : ResourceQuota} (h : m.accepts quota = true) :
    (m.quotas ++ [q]).length ≤ maxResourceQuotas := by
  have hlt := of_decide_eq_true (Bool.and_eq_true_iff.mp h).2
  rw [List.length_append]
  exact hlt

/-- `resource_quota_create`. The usage starts at zero. -/
def Manager.create (m : Manager) (quota : ResourceQuota) : Manager × Int :=
  if h : m.accepts quota = true then
    (⟨m.quotas ++ [{ quota with used := .zero }], Manager.bounded_append h⟩, 0)
  else (m, -1)

/-- `resource_quota_get`. -/
def Manager.get (m : Manager) (ns name : CString) : Option ResourceQuota :=
  m.quotas.find? (ResourceQuota.hasKey ns name)

/-- `resource_quota_update`: the limits only. -/
def Manager.update (m : Manager) (quota : ResourceQuota) : Manager × Int :=
  m.change (ResourceQuota.hasKey quota.ns quota.name) (fun q => { q with hard := quota.hard }) (-1)

/-- `resource_quota_delete`. -/
def Manager.delete (m : Manager) (ns name : CString) : Manager × Int :=
  if m.quotas.any (ResourceQuota.hasKey ns name) then
    (⟨m.quotas.eraseP (ResourceQuota.hasKey ns name), (List.length_eraseP_le).trans m.bounded⟩, 0)
  else (m, -1)

/-- `resource_quota_list`, up to 100. -/
def Manager.list (m : Manager) (ns : CString) : List ResourceQuota :=
  (m.quotas.filter fun q => q.ns == ns).take 100

/-! ## Usage -/

/-- The usage of the first quota of the namespace is changed by `f`. -/
def Manager.charge (m : Manager) (ns : CString) (f : QuotaUsage → QuotaUsage) : Manager × Int :=
  m.change (fun q => q.ns == ns) (fun q => { q with used := f q.used }) 1

/-- The counters after a pod is added. -/
def QuotaUsage.addPod (cpu memory : Int64) (u : QuotaUsage) : QuotaUsage :=
  { u with
    cpuUsedMillicores := u.cpuUsedMillicores + cpu
    memoryUsedBytes := u.memoryUsedBytes + memory
    podsUsed := u.podsUsed + 1 }

/-- The counters after a pod is removed, none of them below zero. -/
def QuotaUsage.removePod (cpu memory : Int64) (u : QuotaUsage) : QuotaUsage :=
  { u with
    cpuUsedMillicores := if u.cpuUsedMillicores - cpu < 0 then 0 else u.cpuUsedMillicores - cpu
    memoryUsedBytes := if u.memoryUsedBytes - memory < 0 then 0 else u.memoryUsedBytes - memory
    podsUsed := if u.podsUsed - 1 < 0 then 0 else u.podsUsed - 1 }

/-- `resource_quota_add_pod`. -/
def Manager.addPod (m : Manager) (ns : CString) (cpu memory : Int64) : Manager × Int :=
  m.charge ns (QuotaUsage.addPod cpu memory)

/-- `resource_quota_remove_pod`. -/
def Manager.removePod (m : Manager) (ns : CString) (cpu memory : Int64) : Manager × Int :=
  m.charge ns (QuotaUsage.removePod cpu memory)

/-- One more object of a kind. -/
def Manager.addCount (kind : Countable) (m : Manager) (ns : CString) : Manager × Int :=
  m.charge ns fun u => { u with countsUsed := Function.update u.countsUsed kind (u.countsUsed kind + 1) }

/-- One object less of a kind, if there is one. -/
def Manager.removeCount (kind : Countable) (m : Manager) (ns : CString) : Manager × Int :=
  m.charge ns fun u =>
    if u.countsUsed kind > 0 then
      { u with countsUsed := Function.update u.countsUsed kind (u.countsUsed kind - 1) }
    else u

/-- `resource_quota_add_service`. -/
def Manager.addService := Manager.addCount .services

/-- `resource_quota_remove_service`. -/
def Manager.removeService := Manager.removeCount .services

/-- `resource_quota_add_configmap`. -/
def Manager.addConfigmap := Manager.addCount .configmaps

/-- `resource_quota_remove_configmap`. -/
def Manager.removeConfigmap := Manager.removeCount .configmaps

/-- `resource_quota_add_secret`. -/
def Manager.addSecret := Manager.addCount .secrets

/-- `resource_quota_remove_secret`. -/
def Manager.removeSecret := Manager.removeCount .secrets

/-! ## Admission -/

/-- `quota_decision_t`. -/
inductive Decision
  | allowed
  | exceeded
  | notFound
  | error
deriving DecidableEq

/-- `quota_admission_result_t`. -/
structure AdmissionResult where
  decision : Decision
  reason : CString
  exceededResource : CString
  requested : Int64
  limit : Int64
  current : Int64

/-- A number as `%lld` and `%d` print it. -/
def ofInt (i : Int) : CString := CString.ofString (toString i)

/-- The result for a resource of which `current + requested` is over the limit. -/
def overSum (label resource : String) (requested limit current : Int64) : AdmissionResult :=
  { decision := .exceeded
    reason := CString.snprintf 512 (CString.ofString label ++ CString.ofString " quota exceeded: " ++
      ofInt current.toInt ++ CString.ofString " + " ++ ofInt requested.toInt ++
      CString.ofString " > " ++ ofInt limit.toInt)
    exceededResource := resource
    requested := requested
    limit := limit
    current := current }

/-- The reason for a resource of which there are enough already. -/
def overCount (label : String) (limit current : Int32) : CString :=
  CString.snprintf 512 (CString.ofString label ++ CString.ofString " quota exceeded: " ++
    ofInt current.toInt ++ CString.ofString " >= " ++ ofInt limit.toInt)

/-- `resource_quota_can_create_pod`, with what `result_out` holds before and after. -/
def Manager.canCreatePod (m : Manager) (ns : CString) (cpu memory : Int64) (result : AdmissionResult) :
    Int × AdmissionResult :=
  match m.quotas.find? fun q => q.ns == ns with
  | none => (1, result)
  | some quota =>
    if quota.hard.cpuMillicores > 0 ∧ quota.used.cpuUsedMillicores + cpu > quota.hard.cpuMillicores then
      (-1, overSum "CPU" "cpu" cpu quota.hard.cpuMillicores quota.used.cpuUsedMillicores)
    else if quota.hard.memoryBytes > 0 ∧ quota.used.memoryUsedBytes + memory > quota.hard.memoryBytes then
      (-1, overSum "Memory" "memory" memory quota.hard.memoryBytes quota.used.memoryUsedBytes)
    else if quota.hard.pods > 0 ∧ quota.used.podsUsed ≥ quota.hard.pods then
      (-1, { decision := .exceeded
             reason := overCount "Pod" quota.hard.pods quota.used.podsUsed
             exceededResource := CString.ofString "pods"
             requested := 1
             limit := quota.hard.pods.toInt64
             current := quota.used.podsUsed.toInt64 })
    else (0, { result with decision := .allowed, reason := CString.ofString "Pod creation allowed" })

/-- **What is admitted** passes the three checks against the first quota of the namespace. -/
theorem Manager.canCreatePod_eq_zero_iff {m : Manager} {ns : CString} {cpu memory : Int64}
    {result : AdmissionResult} : (m.canCreatePod ns cpu memory result).1 = 0 ↔
    ∃ q, m.quotas.find? (fun q => q.ns == ns) = some q ∧
      (q.hard.cpuMillicores > 0 → q.used.cpuUsedMillicores + cpu ≤ q.hard.cpuMillicores) ∧
      (q.hard.memoryBytes > 0 → q.used.memoryUsedBytes + memory ≤ q.hard.memoryBytes) ∧
      (q.hard.pods > 0 → q.used.podsUsed < q.hard.pods) := by
  have hrefused : (-1 : Int) ≠ 0 := by decide
  unfold Manager.canCreatePod
  cases hfind : m.quotas.find? fun q => q.ns == ns with
  | none =>
    refine iff_of_false Int.one_ne_zero ?_
    rintro ⟨q, hq, -⟩
    cases hq
  | some q =>
    dsimp only
    simp only [Option.some.injEq, exists_eq_left']
    split_ifs with hcpu hmemory hpods
    · exact iff_of_false hrefused fun h => Int64.not_lt.mpr (h.1 hcpu.1) hcpu.2
    · exact iff_of_false hrefused fun h => Int64.not_lt.mpr (h.2.1 hmemory.1) hmemory.2
    · exact iff_of_false hrefused fun h => Int32.not_le.mpr (h.2.2 hpods.1) hpods.2
    · exact iff_of_true rfl ⟨fun hpos => Int64.not_lt.mp fun hgt => hcpu ⟨hpos, hgt⟩,
        fun hpos => Int64.not_lt.mp fun hgt => hmemory ⟨hpos, hgt⟩,
        fun hpos => Int32.not_le.mp fun hge => hpods ⟨hpos, hge⟩⟩

/-- The admission of an object of a kind that is only counted. Of `result_out` it sets the decision and,
where it refuses, the reason and the resource. -/
def Manager.canCreateCount (kind : Countable) (label resource : String) (m : Manager) (ns : CString)
    (result : AdmissionResult) : Int × AdmissionResult :=
  match m.quotas.find? fun q => q.ns == ns with
  | none => (1, result)
  | some quota =>
    if quota.hard.counts kind > 0 ∧ quota.used.countsUsed kind ≥ quota.hard.counts kind then
      (-1, { result with
             decision := .exceeded
             reason := overCount label (quota.hard.counts kind) (quota.used.countsUsed kind)
             exceededResource := CString.ofString resource })
    else (0, { result with decision := .allowed })

/-- `resource_quota_can_create_service`. -/
def Manager.canCreateService := Manager.canCreateCount .services "Service" "services"

/-- `resource_quota_can_create_configmap`. -/
def Manager.canCreateConfigmap := Manager.canCreateCount .configmaps "ConfigMap" "configmaps"

/-- `resource_quota_can_create_secret`. -/
def Manager.canCreateSecret := Manager.canCreateCount .secrets "Secret" "secrets"

end Sirah.Quota
