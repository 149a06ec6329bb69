import Sirah.Lib.CString
import Sirah.Lib.Run
import Sirah.Lib.SplitFirst

/-!
# Eviction and disruption budgets

Model of `internal/controller/pod_eviction_controller.c`: a table of disruption budgets, a table of their statuses,
and the requests for evictions. A budget and a status are created together; the status stays when the budget is
deleted, and is found by its name. The thread marks every request that is due as evicted.

* `Allows`: a budget allows a disruption, by the status that was created with it.
* `Right`: what is expected of a question and of a pass. The answer is 1 if and only if every budget that covers
  the pod allows a disruption, and no request that is not forced is evicted against it.
* `Respectful`: a budget is created under a name without a status; where a question is asked, the first budget that
  covers the pod refuses or all of them allow; and at a pass every request that is due is forced, or the first budget
  that covers its pod allows.
* **`right_of_respectful`**: every step of a run of respectful steps is right. `right_ask_iff`, `right_pass_iff`: the
  conditions on questions and passes are exact.
* `second_budget_unheard`: of two budgets that cover a pod only the first is asked.
-/

namespace Sirah.PodEviction

open Runs

/-! ## The tables -/

/-- `EVICTION_MAX_PDBS`. -/
def maxPdbs : Nat := 1024

/-- `EVICTION_MAX_PODS`. -/
def maxPods : Nat := 10000

/-- `EVICTION_GRACE_PERIOD_DEFAULT`. -/
def gracePeriodDefault : Int := 30

/-- `pdb_policy_type_t`. -/
inductive PolicyType where
  | minAvailable
  | maxUnavailable
  deriving DecidableEq

/-- `pod_disruption_budget_t`, and where the status is that was created with it, if there was room for one. -/
structure Pdb where
  name : CString
  ns : CString
  selector : CString
  policyType : PolicyType
  policyValue : Int
  enabled : Bool
  own : Option Nat

/-- The counters of a status. -/
structure Counters where
  desiredHealthy : Int
  currentHealthy : Int
  disruptionsAllowed : Int
  disruptionsActive : Int

/-- `pdb_status_t`. -/
structure PdbStatus where
  name : CString
  ns : CString
  counters : Counters

/-- `eviction_request_t`. -/
structure Request where
  podName : CString
  podNamespace : CString
  evictionDeadline : Int
  forceEviction : Bool
  evicted : Bool
  failed : Bool

/-- `pod_eviction_controller_t`. -/
structure Controller where
  pdbs : List Pdb
  statuses : List PdbStatus
  evictions : List Request
  successfulEvictions : Nat

/-- `pod_eviction_controller_init`. -/
def Controller.init : Controller := ⟨[], [], [], 0⟩

/-- A name in its buffer of 256 bytes. -/
def stored (name : CString) : CString := name.take 255

def Pdb.key (pdb : Pdb) : CString × CString := (pdb.ns, pdb.name)

def PdbStatus.key (status : PdbStatus) : CString × CString := (status.ns, status.name)

def Pdb.hasKey (ns name : CString) (pdb : Pdb) : Bool := pdb.ns == ns && pdb.name == name

def PdbStatus.hasKey (ns name : CString) (status : PdbStatus) : Bool := status.ns == ns && status.name == name

def Request.hasKey (ns name : CString) (req : Request) : Bool := req.podNamespace == ns && req.podName == name

/-! ## The calls -/

/-- `pod_eviction_create_pdb`. -/
def Controller.createPdb (s : Controller) (ns name selector : CString) (policyType : PolicyType)
    (policyValue : Int) : Controller × Int :=
  if maxPdbs ≤ s.pdbs.length then (s, -1)
  else
    let room : Bool := s.statuses.length < maxPdbs
    let pdb : Pdb :=
      { name := stored name, ns := stored ns, selector := selector.take 1023, policyType, policyValue, enabled := true
        own := if room then some s.statuses.length else none }
    let status : PdbStatus := ⟨stored name, stored ns, ⟨policyValue, 0, 0, 0⟩⟩
    ({ s with
        pdbs := s.pdbs ++ [pdb]
        statuses := if room then s.statuses ++ [status] else s.statuses }, 0)

/-- The first element that satisfies `p` is changed (`some`) or removed (`none`). -/
def changeFirst {α : Type} (p : α → Bool) (f : α → Option α) (l : List α) : List α × Int :=
  match l.splitFirst p with
  | none => (l, -1)
  | some (pre, x, post) => (pre ++ (f x).toList ++ post, 0)

/-- `pod_eviction_update_pdb`. -/
def Controller.updatePdb (s : Controller) (ns name : CString) (policyType : PolicyType) (policyValue : Int) :
    Controller × Int :=
  let r := changeFirst (Pdb.hasKey ns name) (fun pdb => some { pdb with policyType, policyValue }) s.pdbs
  ({ s with pdbs := r.1 }, r.2)

/-- `pod_eviction_delete_pdb`. The status stays. -/
def Controller.deletePdb (s : Controller) (ns name : CString) : Controller × Int :=
  let r := changeFirst (Pdb.hasKey ns name) (fun _ => none) s.pdbs
  ({ s with pdbs := r.1 }, r.2)

/-- Somebody sets the counters of a status. -/
def Controller.setCounters (s : Controller) (i : Nat) (counters : Counters) : Controller :=
  { s with statuses := s.statuses.modify i fun status => { status with counters } }

/-- The comparison of a budget with a status. -/
def Pdb.allows (pdb : Pdb) (status : PdbStatus) : Bool :=
  match pdb.policyType with
  | .minAvailable => status.counters.currentHealthy > pdb.policyValue
  | .maxUnavailable => status.counters.disruptionsActive < pdb.policyValue

/-- Is the pod covered by the budget? The selector is searched for in its name. -/
def Pdb.covers (ns podName : CString) (pdb : Pdb) : Bool :=
  pdb.ns == ns && pdb.enabled && CString.strstr podName pdb.selector

/-- The loop over the budgets in `pod_eviction_can_disrupt_pod`. -/
def canDisrupt (statuses : List PdbStatus) (ns podName : CString) : List Pdb → Int
  | [] => 1
  | pdb :: pdbs =>
    if pdb.covers ns podName then
      match statuses.find? (PdbStatus.hasKey ns pdb.name) with
      | some status => if pdb.allows status then 1 else 0
      | none => canDisrupt statuses ns podName pdbs
    else canDisrupt statuses ns podName pdbs

/-- `pod_eviction_can_disrupt_pod`. -/
def Controller.canDisruptPod (s : Controller) (ns podName : CString) : Int :=
  canDisrupt s.statuses ns podName s.pdbs

/-- `pod_eviction_request_eviction` at the time `now`. -/
def Controller.requestEviction (s : Controller) (podNamespace podName : CString) (gracePeriod now : Int) :
    Controller × Int :=
  if maxPods ≤ s.evictions.length then (s, -1)
  else
    let grace := if gracePeriod > 0 then gracePeriod else gracePeriodDefault
    ({ s with
        evictions := s.evictions ++
          [{ podName := stored podName, podNamespace := stored podNamespace, evictionDeadline := now + grace
             forceEviction := false, evicted := false, failed := false }] }, 0)

/-- `pod_eviction_cancel_eviction`. -/
def Controller.cancelEviction (s : Controller) (podNamespace podName : CString) : Controller × Int :=
  let r := changeFirst (fun req => req.hasKey podNamespace podName && !req.evicted && !req.failed) (fun _ => none)
    s.evictions
  ({ s with evictions := r.1 }, r.2)

/-- `pod_eviction_force_evict`. -/
def Controller.forceEvict (s : Controller) (podNamespace podName : CString) : Controller × Int :=
  let r := changeFirst (Request.hasKey podNamespace podName) (fun req => some { req with forceEviction := true })
    s.evictions
  ({ s with evictions := r.1 }, r.2)

/-- Does a pass at the time `now` mark the request? -/
def Request.due (now : Int) (req : Request) : Bool := !req.evicted && !req.failed && req.evictionDeadline ≤ now

/-- One round of `pod_eviction_controller_thread`, at the time `now`. -/
def Controller.pass (s : Controller) (now : Int) : Controller :=
  { s with
    evictions := s.evictions.map fun req => if req.due now then { req with evicted := true } else req
    successfulEvictions := s.successfulEvictions + s.evictions.countP (Request.due now) }

/-! ## Runs -/

inductive Op where
  | createPdb (ns name selector : CString) (policyType : PolicyType) (policyValue : Int)
  | updatePdb (ns name : CString) (policyType : PolicyType) (policyValue : Int)
  | deletePdb (ns name : CString)
  /-- The counters of a status change. -/
  | setCounters (i : Nat) (counters : Counters)
  /-- `pod_eviction_can_disrupt_pod` is asked. -/
  | ask (ns podName : CString)
  | requestEviction (podNamespace podName : CString) (gracePeriod now : Int)
  | cancelEviction (podNamespace podName : CString)
  | forceEvict (podNamespace podName : CString)
  /-- The thread goes round. -/
  | pass (now : Int)

def step (s : Controller) : Op → Controller
  | .createPdb ns name selector policyType policyValue => (s.createPdb ns name selector policyType policyValue).1
  | .updatePdb ns name policyType policyValue => (s.updatePdb ns name policyType policyValue).1
  | .deletePdb ns name => (s.deletePdb ns name).1
  | .setCounters i counters => s.setCounters i counters
  | .ask _ _ => s
  | .requestEviction podNamespace podName gracePeriod now => (s.requestEviction podNamespace podName gracePeriod now).1
  | .cancelEviction podNamespace podName => (s.cancelEviction podNamespace podName).1
  | .forceEvict podNamespace podName => (s.forceEvict podNamespace podName).1
  | .pass now => s.pass now

/-- **A budget allows a disruption**, by the status that was created with it. -/
def Allows (s : Controller) (pdb : Pdb) : Prop :=
  ∃ i status, pdb.own = some i ∧ s.statuses[i]? = some status ∧ pdb.allows status = true

/-- **What is expected of a step.** -/
def Right (s : Controller) : Op → Prop
  | .ask ns podName =>
    s.canDisruptPod ns podName = 1 ↔ ∀ pdb ∈ s.pdbs, pdb.covers ns podName = true → Allows s pdb
  | .pass now =>
    ∀ (i : Nat) (req after : Request), s.evictions[i]? = some req → (s.pass now).evictions[i]? = some after →
      req.evicted = false → after.evicted = true → req.forceEviction = false →
        s.canDisruptPod req.podNamespace req.podName = 1
  | _ => True

/-- The budgets that cover a pod, in the order of the table. -/
def covering (s : Controller) (ns podName : CString) : List Pdb := s.pdbs.filter fun pdb => pdb.covers ns podName

/-- The first budget that covers the pod, if there is one, allows a disruption. -/
def FirstAllows (s : Controller) (ns podName : CString) : Prop :=
  ∀ pdb, (covering s ns podName).head? = some pdb → Allows s pdb

/-- A budget is created under a name without a status, and there is room for one; at a question all the budgets that
cover the pod allow if the first one does; and at a pass every request that is due is forced, or the first budget that
covers its pod allows. -/
def Respectful (s : Controller) : Op → Prop
  | .createPdb ns name _ _ _ =>
    s.pdbs.length < maxPdbs → s.statuses.length < maxPdbs ∧ (stored ns, stored name) ∉ s.statuses.map PdbStatus.key
  | .ask ns podName => FirstAllows s ns podName → ∀ pdb ∈ covering s ns podName, Allows s pdb
  | .pass now =>
    ∀ req ∈ s.evictions, req.due now = true → req.forceEviction = true ∨ FirstAllows s req.podNamespace req.podName
  | _ => True

/-! ## Budgets and their statuses -/

/-- **Every budget has its status**, and no two statuses have one name. -/
structure Linked (s : Controller) : Prop where
  keys : (s.statuses.map PdbStatus.key).Nodup
  own : ∀ pdb ∈ s.pdbs, ∃ i status, pdb.own = some i ∧ s.statuses[i]? = some status ∧ status.key = pdb.key

variable {s : Controller} {ns podName : CString} {pdb : Pdb} {now : Int}

/-- What is found under a budget's name is its own status. -/
theorem Linked.find_own (h : Linked s) (hpdb : pdb ∈ s.pdbs) :
    ∃ status, s.statuses.find? (PdbStatus.hasKey pdb.ns pdb.name) = some status ∧
      (Allows s pdb ↔ pdb.allows status = true) := by
  obtain ⟨i, status, hown, hget, hkey⟩ := h.own pdb hpdb
  have hmem := List.mem_of_getElem? hget
  have hfind : s.statuses.find? (PdbStatus.hasKey pdb.ns pdb.name) = some status := by
    refine List.find?_eq_some_of_unique hmem ?_ fun other hother hothers => ?_
    · obtain ⟨hns, hname⟩ := Prod.mk.inj hkey
      rw [PdbStatus.hasKey, hns, hname, beq_self_eq_true, beq_self_eq_true, Bool.and_true]
    · rw [PdbStatus.hasKey, Bool.and_eq_true, beq_iff_eq, beq_iff_eq] at hothers
      exact List.inj_on_of_nodup_map h.keys hother hmem ((Prod.ext hothers.1 hothers.2).trans hkey.symm)
  refine ⟨status, hfind, fun ⟨i', status', hown', hget', hallows⟩ => ?_, fun hallows => ⟨i, status, hown, hget, hallows⟩⟩
  rw [hown, Option.some.injEq] at hown'
  rw [← hown', hget, Option.some.injEq] at hget'
  rwa [hget']

/-- **The loop asks the first budget that covers the pod.** -/
theorem Linked.canDisrupt_iff (h : Linked s) {pdbs : List Pdb} (hsub : ∀ pdb ∈ pdbs, pdb ∈ s.pdbs) :
    canDisrupt s.statuses ns podName pdbs = 1 ↔
      ∀ pdb, (pdbs.filter fun pdb => pdb.covers ns podName).head? = some pdb → Allows s pdb := by
  induction pdbs with
  | nil => exact iff_of_true rfl nofun
  | cons pdb pdbs ih =>
    rw [List.forall_mem_cons] at hsub
    rw [canDisrupt, List.filter_cons]
    by_cases hcovers : pdb.covers ns podName = true
    · have hns : pdb.ns = ns := by
        rw [Pdb.covers, Bool.and_eq_true, Bool.and_eq_true, beq_iff_eq] at hcovers
        exact hcovers.1.1
      obtain ⟨status, hfind, hallows⟩ := h.find_own hsub.1
      rw [hns] at hfind
      rw [if_pos hcovers, if_pos hcovers, hfind, List.head?_cons]
      simp only [Option.some.injEq, forall_eq']
      rw [hallows]
      cases pdb.allows status <;> decide
    · rw [if_neg hcovers, if_neg hcovers]
      exact ih hsub.2

theorem Linked.canDisruptPod_iff (h : Linked s) : s.canDisruptPod ns podName = 1 ↔ FirstAllows s ns podName :=
  h.canDisrupt_iff fun _ hpdb => hpdb

/-- **A question is answered right, exactly** if the first budget refuses or all of them allow. -/
theorem right_ask_iff (h : Linked s) : Right s (.ask ns podName) ↔ Respectful s (.ask ns podName) := by
  have hall : (∀ pdb ∈ s.pdbs, pdb.covers ns podName = true → Allows s pdb) ↔
      ∀ pdb ∈ covering s ns podName, Allows s pdb := by
    simp only [covering, List.mem_filter, and_imp]
  simp only [Right, Respectful, h.canDisruptPod_iff, hall]
  refine ⟨fun hright => hright.mp, fun hfirst => ⟨hfirst, fun hallow pdb hhead => ?_⟩⟩
  exact hallow pdb (List.mem_of_mem_head? hhead)

/-- **A pass is right, exactly** if no request that is due goes against a budget. -/
theorem right_pass_iff (h : Linked s) : Right s (.pass now) ↔ Respectful s (.pass now) := by
  have hafter : ∀ (i : Nat) (req : Request), s.evictions[i]? = some req →
      (s.pass now).evictions[i]? = some (if req.due now then { req with evicted := true } else req) := by
    intro i req hget
    rw [Controller.pass, List.getElem?_map, hget, Option.map_some]
  constructor
  · intro hright req hmem hdue
    obtain ⟨i, hget⟩ := List.mem_iff_getElem?.mp hmem
    rcases Bool.eq_false_or_eq_true req.forceEviction with hforce | hforce
    · exact .inl hforce
    · have hpending : req.evicted = false := by
        rw [Request.due, Bool.and_eq_true, Bool.and_eq_true, Bool.not_eq_true'] at hdue
        exact hdue.1.1
      refine .inr (h.canDisruptPod_iff.mp (hright i req { req with evicted := true } hget ?_ hpending rfl hforce))
      rw [hafter i req hget, if_pos hdue]
  · intro hrespectful i req after hget hget' hpending hevicted hforce
    rw [hafter i req hget, Option.some.injEq] at hget'
    by_cases hdue : req.due now = true
    · have hcase := hrespectful req (List.mem_of_getElem? hget) hdue
      rw [hforce] at hcase
      exact h.canDisruptPod_iff.mpr (hcase.resolve_left (by decide))
    · rw [if_neg hdue] at hget'
      rw [← hget', hpending] at hevicted
      cases hevicted

/-! ## What a step keeps -/

theorem mem_changeFirst {α : Type} {p : α → Bool} {f : α → Option α} {l : List α} {x : α}
    (h : x ∈ (changeFirst p f l).1) : x ∈ l ∨ ∃ y ∈ l, f y = some x := by
  unfold changeFirst at h
  rcases List.splitFirst_cases p l with ⟨hnone, -⟩ | ⟨pre, y, post, hsome, rfl, -⟩
  · rw [hnone] at h
    exact .inl h
  · rw [hsome] at h
    simp only [List.mem_append, Option.mem_toList] at h
    rcases h with (h | h) | h
    · exact .inl (List.mem_append_left _ h)
    · exact .inr ⟨y, List.mem_append_right _ List.mem_cons_self, h⟩
    · exact .inl (List.mem_append_right _ (List.mem_cons_of_mem _ h))

/-- A status keeps its name and its place when its counters are set. -/
theorem getElem?_setCounters (i : Nat) (counters : Counters) {j : Nat} {status : PdbStatus}
    (h : s.statuses[j]? = some status) :
    ∃ status', (s.setCounters i counters).statuses[j]? = some status' ∧ status'.key = status.key := by
  rw [Controller.setCounters, List.getElem?_modify, h]
  by_cases hij : i = j
  · exact ⟨{ status with counters }, by simp only [if_pos hij, Option.map_eq_map, Option.map_some], rfl⟩
  · exact ⟨status, by simp only [if_neg hij, Option.map_eq_map, Option.map_some], rfl⟩

theorem Linked.setCounters (h : Linked s) (i : Nat) (counters : Counters) : Linked (s.setCounters i counters) := by
  have hkeys : (s.setCounters i counters).statuses.map PdbStatus.key = s.statuses.map PdbStatus.key := by
    refine List.ext_getElem? fun j => ?_
    rw [List.getElem?_map, List.getElem?_map]
    cases hget : s.statuses[j]? with
    | none =>
      rw [Controller.setCounters, List.getElem?_modify, hget]
      rfl
    | some status =>
      obtain ⟨status', hget', hkey⟩ := getElem?_setCounters i counters hget
      rw [hget', Option.map_some, Option.map_some, hkey]
  refine ⟨hkeys ▸ h.keys, fun pdb hpdb => ?_⟩
  obtain ⟨j, status, hown, hget, hkey⟩ := h.own pdb hpdb
  obtain ⟨status', hget', hkey'⟩ := getElem?_setCounters i counters hget
  exact ⟨j, status', hown, hget', hkey'.trans hkey⟩

/-- Budgets are taken away, or changed under their names. -/
theorem Linked.of_pdbs (h : Linked s) {pdbs : List Pdb}
    (hpdbs : ∀ pdb ∈ pdbs, ∃ old ∈ s.pdbs, pdb.own = old.own ∧ pdb.key = old.key) : Linked { s with pdbs } := by
  refine ⟨h.keys, fun pdb hpdb => ?_⟩
  obtain ⟨old, hold, hown, hkey⟩ := hpdbs pdb hpdb
  rw [hown, hkey]
  exact h.own old hold

/-- **A budget is created with its status**, under a name that has none. -/
theorem Linked.createPdb (h : Linked s) {name selector : CString} {policyType : PolicyType} {policyValue : Int}
    (hr : Respectful s (.createPdb ns name selector policyType policyValue)) :
    Linked (s.createPdb ns name selector policyType policyValue).1 := by
  unfold Controller.createPdb
  by_cases hfull : maxPdbs ≤ s.pdbs.length
  · rw [if_pos hfull]
    exact h
  · obtain ⟨hroom, hfresh⟩ := hr (Nat.lt_of_not_le hfull)
    rw [if_neg hfull]
    simp only [hroom, decide_true, if_true]
    constructor
    · exact List.nodup_map_concat.mpr ⟨hfresh, h.keys⟩
    · intro pdb hpdb
      rcases List.mem_append.mp hpdb with hold | hnew
      · obtain ⟨i, status, hown, hget, hkey⟩ := h.own pdb hold
        have hlt : i < s.statuses.length := (List.getElem?_eq_some_iff.mp hget).1
        exact ⟨i, status, hown, by rw [List.getElem?_append_left hlt, hget], hkey⟩
      · rw [List.mem_singleton.mp hnew]
        exact ⟨s.statuses.length, _, rfl, List.getElem?_concat_length, rfl⟩

/-- **A respectful step keeps every budget at its status.** -/
theorem Linked.step {op : Op} (h : Linked s) (hr : Respectful s op) : Linked (step s op) := by
  cases op with
  | createPdb ns name selector policyType policyValue => exact h.createPdb hr
  | updatePdb ns name policyType policyValue =>
    refine h.of_pdbs fun pdb hpdb => ?_
    rcases mem_changeFirst hpdb with hold | ⟨old, hold, hchanged⟩
    · exact ⟨pdb, hold, rfl, rfl⟩
    · obtain rfl := Option.some.inj hchanged
      exact ⟨old, hold, rfl, rfl⟩
  | deletePdb ns name =>
    refine h.of_pdbs fun pdb hpdb => ?_
    rcases mem_changeFirst hpdb with hold | ⟨old, hold, hchanged⟩
    · exact ⟨pdb, hold, rfl, rfl⟩
    · cases hchanged
  | setCounters i counters => exact h.setCounters i counters
  | ask ns podName => exact h
  | requestEviction podNamespace podName gracePeriod now =>
    change Linked (s.requestEviction podNamespace podName gracePeriod now).1
    unfold Controller.requestEviction
    split
    · exact h
    · exact ⟨h.keys, h.own⟩
  | cancelEviction podNamespace podName => exact ⟨h.keys, h.own⟩
  | forceEvict podNamespace podName => exact ⟨h.keys, h.own⟩
  | pass now => exact ⟨h.keys, h.own⟩

theorem Linked.right {op : Op} (h : Linked s) (hr : Respectful s op) : Right s op := by
  cases op with
  | ask ns podName => exact (right_ask_iff h).mpr hr
  | pass now => exact (right_pass_iff h).mpr hr
  | _ => trivial

theorem linked_init : Linked Controller.init := ⟨List.nodup_nil, nofun⟩

/-! ## Main results -/

/-- **Disruption budgets are respected** in every run of respectful steps. -/
theorem right_of_respectful {ops : List Op} (h : AllSteps step Respectful Controller.init ops) :
    AllSteps step Right Controller.init ops :=
  allSteps_of_kept (fun _ _ hs hr => hs.step hr) (fun _ _ hs hr => hs.right hr) linked_init h

/-- A budget for the pod, a status that allows a disruption, a question, a request, and the thread goes round. -/
def evictedInTime : List Op :=
  [.createPdb "default" "web" "web" .minAvailable 1, .setCounters 0 ⟨1, 2, 1, 0⟩, .ask "default" "web-0",
    .requestEviction "default" "web-0" 30 0, .pass 30]

theorem right_evictedInTime : AllSteps step Right Controller.init evictedInTime := by
  have hallows : ∀ pdb : Pdb, pdb.own = some 0 → pdb.policyType = .minAvailable → pdb.policyValue = 1 →
      Allows (run step Controller.init (evictedInTime.take 2)) pdb := by
    intro pdb hown htype hvalue
    refine ⟨0, _, hown, rfl, ?_⟩
    rw [Pdb.allows, htype, hvalue]
    rfl
  refine right_of_respectful ⟨fun _ => ⟨by decide, by decide⟩, trivial, fun _ pdb hpdb => ?_, trivial, ?_, trivial⟩
  · obtain rfl := List.mem_singleton.mp hpdb
    exact hallows _ rfl rfl rfl
  · intro req hreq _
    obtain rfl := List.mem_singleton.mp hreq
    refine .inr fun pdb hpdb => ?_
    obtain rfl := Option.some.inj hpdb
    exact hallows _ rfl rfl rfl

/-! ## Two budgets over one pod -/

/-- No two budgets of a namespace have one name. -/
def UniqueNames (s : Controller) : Prop := (s.pdbs.map Pdb.key).Nodup

instance : DecidablePred UniqueNames := fun s => inferInstanceAs (Decidable (s.pdbs.map Pdb.key).Nodup)

/-- The first of two budgets allows a disruption, the second none. -/
def allowedAndRefused : List Op :=
  [.createPdb "default" "web" "web" .minAvailable 1, .createPdb "default" "all" "web" .maxUnavailable 0,
    .setCounters 0 ⟨1, 2, 1, 0⟩, .ask "default" "web-0"]

/-- **The second budget is not heard.** -/
theorem second_budget_unheard : ¬ ∀ ops, AllStates step UniqueNames Controller.init ops →
    AllSteps step Right Controller.init ops := by
  intro h
  obtain ⟨-, -, -, hask, -⟩ := h allowedAndRefused (by decide)
  have hall := hask.mp (by decide) _ (List.mem_cons_of_mem _ List.mem_cons_self) (by decide)
  obtain ⟨i, status, hown, hget, hallows⟩ := hall
  obtain rfl := Option.some.inj hown
  obtain rfl := Option.some.inj hget
  exact absurd hallows (by decide)

end Sirah.PodEviction
