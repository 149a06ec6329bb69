import Sirah.Quota.Admission
import Sirah.Quota.Controller

/-!
# Two quota engines

`internal/controller/resource_quota.c` and `internal/controller/quota_controller.c` both admit pods against
the quotas of a namespace. This module runs them side by side, over the same pods, for a namespace with one
quota that both engines have with the same limits.

Their counters move together (`InStep`). They part in two conventions: a limit of zero is no limit for the
first and a limit for the second, and the first compares the number of pods with the limit where the second
compares the number with one more pod.

* **`agree_iff`**: the engines agree along every run of admitted pods **iff** the three limits are set and
  the limit on pods is not the largest number of its type.
* `cpu_limit_alone_disagrees`: with a limit on CPU alone the controller refuses every pod.
-/

namespace Sirah.Quota

open Runs
open QuotaController (Quantity Resource Controller clampedSub)

/-! ## Pods as quantities -/

/-- The CPU, the memory and the number of pods; the fields that pods have no part in are zero. -/
def podQuantity (cpu memory : Int64) (pods : Int32) : Quantity where
  field
    | .cpuMillicores => cpu.toBitVec
    | .memoryBytes => memory.toBitVec
    | .podsCount => pods.toBitVec
    | .storageBytes => 0#64
    | .servicesCount => 0#32
    | .deploymentsCount => 0#32

/-- What the controller is asked about one pod. -/
def request (cpu memory : Int64) : Quantity := podQuantity cpu memory 1

/-- The limits on pods, as the controller holds them. -/
def QuotaLimits.quantity (hard : QuotaLimits) : Quantity :=
  podQuantity hard.cpuMillicores hard.memoryBytes hard.pods

/-- The usage by pods, as the controller holds it. -/
def QuotaUsage.quantity (u : QuotaUsage) : Quantity :=
  podQuantity u.cpuUsedMillicores u.memoryUsedBytes u.podsUsed

theorem podQuantity_add (cpu cpu' memory memory' : Int64) (pods pods' : Int32) :
    (podQuantity cpu memory pods).add (podQuantity cpu' memory' pods') =
      podQuantity (cpu + cpu') (memory + memory') (pods + pods') := by
  refine Quantity.ext (funext fun r => ?_)
  cases r <;> rfl

/-- A field of which nothing is used stays so when nothing is taken. -/
theorem subtract_field_of_zero {total qty : Quantity} {r : Resource} (htotal : total.field r = 0#r.width)
    (hqty : qty.field r = 0#r.width) : (total.subtract qty).field r = 0#r.width := by
  show clampedSub (total.field r) (qty.field r) = 0#r.width
  rw [htotal, hqty, clampedSub, BitVec.sub_zero, ite_self]

theorem clampedSub_toBitVec64 (a b : Int64) :
    clampedSub a.toBitVec b.toBitVec = (if a - b < 0 then 0 else a - b).toBitVec := by
  unfold clampedSub
  rw [apply_ite Int64.toBitVec]
  rfl

theorem clampedSub_toBitVec32 (a b : Int32) :
    clampedSub a.toBitVec b.toBitVec = (if a - b < 0 then 0 else a - b).toBitVec := by
  unfold clampedSub
  rw [apply_ite Int32.toBitVec]
  rfl

variable {cpu memory : Int64} {u : QuotaUsage}

/-- **Both engines count an added pod alike.** -/
theorem QuotaUsage.quantity_addPod : (u.addPod cpu memory).quantity = u.quantity.add (request cpu memory) :=
  (podQuantity_add _ _ _ _ _ _).symm

/-- **And a removed one.** -/
theorem QuotaUsage.quantity_removePod :
    (u.removePod cpu memory).quantity = u.quantity.subtract (request cpu memory) := by
  refine Quantity.ext (funext fun r => ?_)
  cases r with
  | cpuMillicores => exact (clampedSub_toBitVec64 u.cpuUsedMillicores cpu).symm
  | memoryBytes => exact (clampedSub_toBitVec64 u.memoryUsedBytes memory).symm
  | podsCount => exact (clampedSub_toBitVec32 u.podsUsed 1).symm
  | storageBytes => exact (subtract_field_of_zero (r := .storageBytes) rfl rfl).symm
  | servicesCount => exact (subtract_field_of_zero (r := .servicesCount) rfl rfl).symm
  | deploymentsCount => exact (subtract_field_of_zero (r := .deploymentsCount) rfl rfl).symm

theorem podQuantity_exceeds_iff {cpu cpu' memory memory' : Int64} {pods pods' : Int32} :
    (podQuantity cpu memory pods).exceeds (podQuantity cpu' memory' pods') = false ↔
      cpu ≤ cpu' ∧ memory ≤ memory' ∧ pods ≤ pods' := by
  rw [Quantity.not_exceeds_iff, Int64.le_iff_toInt_le, Int64.le_iff_toInt_le, Int32.le_iff_toInt_le]
  refine ⟨fun h => ⟨h .cpuMillicores, h .memoryBytes, h .podsCount⟩, fun h r => ?_⟩
  cases r with
  | cpuMillicores => exact h.1
  | memoryBytes => exact h.2.1
  | podsCount => exact h.2.2
  | _ => exact le_refl (0 : Int)

/-! ## The two engines -/

/-- Both engines, and the pods added and not removed. -/
structure Engines where
  manager : Manager
  controller : Controller
  pods : List Pod

inductive PodOp where
  | add (pod : Pod)
  | remove (pod : Pod)

/-- Both engines are told about the pod. -/
def Engines.step (e : Engines) : PodOp → Engines
  | .add pod =>
    { manager := (e.manager.addPod pod.ns pod.cpu pod.memory).1
      controller := e.controller.recordResourceUsage pod.ns (request pod.cpu pod.memory)
      pods := e.pods ++ [pod] }
  | .remove pod =>
    { manager := (e.manager.removePod pod.ns pod.cpu pod.memory).1
      controller := e.controller.releaseResourceUsage pod.ns (request pod.cpu pod.memory)
      pods := e.pods.erase pod }

/-- `resource_quota_can_create_pod` allows the pod. What it returns does not depend on what `result_out`
held before. -/
def Engines.Allows (e : Engines) (ns : CString) (cpu memory : Int64) : Prop :=
  ∀ result, (e.manager.canCreatePod ns cpu memory result).1 = 0

/-- `k8s_quota_controller_can_admit_resource` admits the pod. -/
def Engines.Admits (e : Engines) (ns : CString) (cpu memory : Int64) : Prop :=
  e.controller.canAdmitResource ns (request cpu memory) = true

/-- **The engines agree** on every pod that could come next. -/
def Agree (ns : CString) (e : Engines) : Prop :=
  ∀ cpu memory : Int64, 0 ≤ cpu → 0 ≤ memory → (e.Allows ns cpu memory ↔ e.Admits ns cpu memory)

/-- A pod is added when one of the engines admits it, and removed after it was added. Requests are not
negative. -/
def Admitted (e : Engines) : PodOp → Prop
  | .add pod => 0 ≤ pod.cpu ∧ 0 ≤ pod.memory ∧
      (e.Allows pod.ns pod.cpu pod.memory ∨ e.Admits pod.ns pod.cpu pod.memory)
  | .remove pod => pod ∈ e.pods

/-- The namespace has one quota in each engine, with the same limits and the same usage. -/
structure InStep (ns : CString) (hard : QuotaLimits) (used : QuotaUsage) (e : Engines) : Prop where
  enabled : e.controller.enabled = true
  manager : ∃ q, e.manager.quotas.filter (fun q => q.ns == ns) = [q] ∧ q.hard = hard ∧ q.used = used
  controller : ∃ q, e.controller.listQuotas ns = [q] ∧ q.hard = hard.quantity ∧ q.used = used.quantity

variable {e : Engines} {ns : CString} {hard : QuotaLimits} {used : QuotaUsage} {pod : Pod} {op : PodOp}

theorem InStep.allows_iff (h : InStep ns hard used e) : e.Allows ns cpu memory ↔
    (0 < hard.cpuMillicores → used.cpuUsedMillicores + cpu ≤ hard.cpuMillicores) ∧
      (0 < hard.memoryBytes → used.memoryUsedBytes + memory ≤ hard.memoryBytes) ∧
      (0 < hard.pods → used.podsUsed < hard.pods) := by
  obtain ⟨q, hfilter, rfl, rfl⟩ := h.manager
  have hfind : e.manager.quotas.find? (fun q => q.ns == ns) = some q := by
    rw [← List.head?_filter, hfilter]
    rfl
  simp only [Engines.Allows, Manager.canCreatePod_eq_zero_iff, hfind, Option.some.injEq, exists_eq_left',
    gt_iff_lt]
  exact ⟨fun h => h ⟨.allowed, [], [], 0, 0, 0⟩, fun h _ => h⟩

theorem InStep.admits_iff (h : InStep ns hard used e) : e.Admits ns cpu memory ↔
    used.cpuUsedMillicores + cpu ≤ hard.cpuMillicores ∧
      used.memoryUsedBytes + memory ≤ hard.memoryBytes ∧ used.podsUsed + 1 ≤ hard.pods := by
  obtain ⟨q, hlist, hhard, hused⟩ := h.controller
  rw [← podQuantity_exceeds_iff, ← podQuantity_add]
  simp only [Engines.Admits, Controller.canAdmitResource, h.enabled, hlist, List.all_cons, List.all_nil,
    Bool.and_true, Bool.not_true, Bool.false_or, QuotaController.ResourceQuota.canAdmit, hhard, hused,
    Bool.not_eq_true']
  rfl

/-! ## Steps -/

/-- A charge to the namespace changes its one quota. -/
theorem filter_charge {m : Manager} {q : ResourceQuota} {f : QuotaUsage → QuotaUsage}
    (h : m.quotas.filter (fun q => q.ns == ns) = [q]) :
    (m.charge ns f).1.quotas.filter (fun q => q.ns == ns) = [{ q with used := f q.used }] := by
  unfold Manager.charge
  obtain ⟨pre, q', post, hm, hq', heq⟩ | ⟨hnone, -⟩ := m.change_cases (fun q => q.ns == ns)
    (fun q => { q with used := f q.used }) 1
  · rw [hm, List.filter_append, List.filter_cons, if_pos hq'] at h
    obtain ⟨hpre, hpost⟩ := List.append_eq_singleton_iff.mp h |>.resolve_right
      (fun hcontra => absurd hcontra.2 (List.cons_ne_nil _ _))
    obtain ⟨rfl, hnil⟩ := List.cons.inj hpost
    rw [heq, List.filter_append, List.filter_cons, if_pos hq', hpre, hnil]
    rfl
  · rw [List.filter_eq_nil_iff.mpr fun q hq => by rw [hnone q hq]; exact Bool.false_ne_true] at h
    exact absurd h (List.cons_ne_nil _ _).symm

/-- A charge to another namespace does not. -/
theorem filter_charge_of_ne {m : Manager} {ns' : CString} {f : QuotaUsage → QuotaUsage} (hne : ns' ≠ ns) :
    (m.charge ns' f).1.quotas.filter (fun q => q.ns == ns) = m.quotas.filter fun q => q.ns == ns := by
  unfold Manager.charge
  obtain ⟨pre, q', post, hm, hq', heq⟩ | ⟨-, heq⟩ := m.change_cases (fun q => q.ns == ns')
    (fun q => { q with used := f q.used }) 1
  · have hother : ¬ (q'.ns == ns) = true := fun h => hne ((beq_iff_eq.mp hq').symm.trans (beq_iff_eq.mp h))
    rw [heq, hm, List.filter_append, List.filter_append, List.filter_cons, List.filter_cons, if_neg hother,
      if_neg hother]
  · rw [heq]

theorem listQuotas_change {c : Controller} {ns' : CString} {g : Quantity → Quantity} :
    (c.change ns' fun q => { q with used := g q.used }).listQuotas ns =
      (c.listQuotas ns).map fun q => if q.ns == ns' then { q with used := g q.used } else q := by
  unfold Controller.change Controller.listQuotas
  rw [List.filter_map]
  congr 1
  refine List.filter_congr fun q _ => ?_
  show ((if q.ns == ns' then { q with used := g q.used } else q).ns == ns) = (q.ns == ns)
  split <;> rfl

/-- **Both engines move together**: a change that they make alike to the usage of a namespace. -/
theorem InStep.change {f : QuotaUsage → QuotaUsage} {g : Quantity → Quantity} {pods : List Pod}
    (hfg : ∀ u : QuotaUsage, (f u).quantity = g u.quantity) (h : InStep ns hard used e) (ns' : CString) :
    InStep ns hard (if ns' = ns then f used else used)
      ⟨(e.manager.charge ns' f).1, e.controller.change ns' fun q => { q with used := g q.used }, pods⟩ := by
  obtain ⟨q, hfilter, hhard, hused⟩ := h.manager
  obtain ⟨q', hlist, hhard', hused'⟩ := h.controller
  have hns' : q'.ns = ns := by
    have hmem : q' ∈ e.controller.listQuotas ns := hlist ▸ List.mem_singleton_self q'
    exact beq_iff_eq.mp (List.mem_filter.mp hmem).2
  by_cases hns : ns' = ns
  · subst hns
    rw [if_pos rfl]
    refine ⟨h.enabled, ⟨_, filter_charge hfilter, hhard, congrArg f hused⟩, ?_⟩
    refine ⟨{ q' with used := g q'.used }, ?_, hhard', ?_⟩
    · rw [listQuotas_change, hlist, List.map_singleton, hns', beq_self_eq_true, if_pos rfl]
    · exact (congrArg g hused').trans (hfg used).symm
  · rw [if_neg hns]
    refine ⟨h.enabled, ⟨q, (filter_charge_of_ne hns).trans hfilter, hhard, hused⟩, ⟨q', ?_, hhard', hused'⟩⟩
    rw [listQuotas_change, hlist, List.map_singleton, hns',
      if_neg (mt beq_iff_eq.mp (Ne.symm hns))]

theorem InStep.add (h : InStep ns hard used e) (pod : Pod) : InStep ns hard
    (if pod.ns = ns then used.addPod pod.cpu pod.memory else used) (e.step (.add pod)) :=
  h.change (f := QuotaUsage.addPod pod.cpu pod.memory) (g := fun q => q.add (request pod.cpu pod.memory))
    (fun _ => QuotaUsage.quantity_addPod) pod.ns

theorem InStep.remove (h : InStep ns hard used e) (pod : Pod) : InStep ns hard
    (if pod.ns = ns then used.removePod pod.cpu pod.memory else used) (e.step (.remove pod)) :=
  h.change (f := QuotaUsage.removePod pod.cpu pod.memory)
    (g := fun q => q.subtract (request pod.cpu pod.memory)) (fun _ => QuotaUsage.quantity_removePod) pod.ns

/-! ## When they agree -/

/-- The three limits on pods are set, and one more pod than the limit is a number of its type. -/
structure QuotaLimits.AllSet (hard : QuotaLimits) : Prop where
  cpu : 0 < hard.cpuMillicores
  memory : 0 < hard.memoryBytes
  pods : 0 < hard.pods
  room : hard.pods ≠ Int32.maxValue

/-- **The invariant**: the engines are in step, and the pods are within the limit. -/
def Bounded (ns : CString) (hard : QuotaLimits) (e : Engines) : Prop :=
  ∃ used, InStep ns hard used e ∧ 0 ≤ used.podsUsed ∧ used.podsUsed ≤ hard.pods

/-- A number that is not negative is clamped to one that is not, and not more. -/
theorem clamped_pred_bounds {a : Int32} (h : 0 ≤ a.toInt) :
    0 ≤ (if a - 1 < 0 then 0 else a - 1).toInt ∧ (if a - 1 < 0 then 0 else a - 1).toInt ≤ a.toInt := by
  rcases Int.lt_or_eq_of_le h with hpos | hzero
  · rw [toInt_clamped_pred hpos]
    omega
  · obtain rfl : a = 0 := Int32.toInt_inj.mp hzero.symm
    decide

theorem lt_of_ne_maxValue {a : Int32} (h : a ≠ Int32.maxValue) : a.toInt + 1 < 2 ^ 31 := by
  have hlt := a.toInt_lt
  have hne : a.toInt ≠ 2 ^ 31 - 1 := fun heq => h (Int32.toInt_inj.mp heq)
  omega

/-- **In step is in agreement** where all limits are set. -/
theorem Bounded.agree (hset : hard.AllSet) (h : Bounded ns hard e) : Agree ns e := by
  obtain ⟨used, hstep, hlow, hhigh⟩ := h
  intro cpu memory _ _
  rw [hstep.allows_iff, hstep.admits_iff]
  have hroom := lt_of_ne_maxValue hset.room
  rw [Int32.le_iff_toInt_le] at hlow hhigh
  have hsucc : (used.podsUsed + 1).toInt = used.podsUsed.toInt + 1 := toInt_succ hlow (by omega)
  have hpods : used.podsUsed < hard.pods ↔ used.podsUsed + 1 ≤ hard.pods := by
    rw [Int32.lt_iff_toInt_lt, Int32.le_iff_toInt_le, hsucc]
    omega
  rw [← hpods]
  exact ⟨fun h => ⟨h.1 hset.cpu, h.2.1 hset.memory, h.2.2 hset.pods⟩,
    fun h => ⟨fun _ => h.1, fun _ => h.2.1, fun _ => h.2.2⟩⟩

theorem Bounded.step (hset : hard.AllSet) (h : Bounded ns hard e) (hop : Admitted e op) :
    Bounded ns hard (e.step op) := by
  have hagree := h.agree hset
  obtain ⟨used, hstep, hlow, hhigh⟩ := h
  rw [Int32.le_iff_toInt_le] at hlow hhigh
  cases op with
  | add pod =>
    refine ⟨_, hstep.add pod, ?_⟩
    split
    · rename_i hns
      obtain ⟨hcpu, hmemory, hor⟩ := hop
      rw [hns, hagree _ _ hcpu hmemory, or_self, ← hagree _ _ hcpu hmemory, hstep.allows_iff] at hor
      have hlt := hor.2.2 hset.pods
      rw [Int32.lt_iff_toInt_lt] at hlt
      have hroom := hard.pods.toInt_lt
      have hsucc : (used.podsUsed + 1).toInt = used.podsUsed.toInt + 1 := toInt_succ hlow (by omega)
      rw [Int32.le_iff_toInt_le, Int32.le_iff_toInt_le]
      show (0 : Int32).toInt ≤ (used.podsUsed + 1).toInt ∧ (used.podsUsed + 1).toInt ≤ hard.pods.toInt
      rw [hsucc]
      rw [Int32.toInt_zero] at hlow ⊢
      omega
    · exact ⟨Int32.le_iff_toInt_le.mpr hlow, Int32.le_iff_toInt_le.mpr hhigh⟩
  | remove pod =>
    refine ⟨_, hstep.remove pod, ?_⟩
    split
    · obtain ⟨hnonneg, hle⟩ := clamped_pred_bounds hlow
      exact ⟨Int32.le_iff_toInt_le.mpr hnonneg, Int32.le_iff_toInt_le.mpr (hle.trans hhigh)⟩
    · exact ⟨Int32.le_iff_toInt_le.mpr hlow, Int32.le_iff_toInt_le.mpr hhigh⟩

/-- A namespace with one quota in both engines, of which nothing is used. -/
structure Engines.Started (e : Engines) (ns : CString) (hard : QuotaLimits) : Prop where
  inStep : InStep ns hard .zero e
  pods : e.pods = []
  limits : hard.Nonneg

theorem Engines.Started.bounded (h : e.Started ns hard) : Bounded ns hard e :=
  ⟨.zero, h.inStep, Int32.le_refl 0, h.limits.pods⟩

/-- **One more of a resource without a limit** is allowed by the first engine, so the second has to admit
it. -/
theorem Engines.Started.set_of_agree (h : e.Started ns hard) (hagree : Agree ns e) :
    0 < hard.cpuMillicores ∧ 0 < hard.memoryBytes ∧ 0 < hard.pods := by
  obtain ⟨hcpu, hmemory, hpods⟩ := h.limits
  have hiff : ∀ cpu memory : Int64, 0 ≤ cpu → 0 ≤ memory →
      ((0 < hard.cpuMillicores → cpu ≤ hard.cpuMillicores) ∧ (0 < hard.memoryBytes → memory ≤ hard.memoryBytes) →
        cpu ≤ hard.cpuMillicores ∧ memory ≤ hard.memoryBytes ∧ 1 ≤ hard.pods) := by
    intro cpu memory hc hm hwithin
    have hboth := hagree cpu memory hc hm
    rw [h.inStep.allows_iff, h.inStep.admits_iff] at hboth
    simp only [QuotaUsage.zero, Int64.zero_add, Int32.zero_add] at hboth
    exact hboth.mp ⟨hwithin.1, hwithin.2, id⟩
  have hone : (0 : Int64) < 1 := by decide
  refine ⟨?_, ?_, ?_⟩
  · by_contra hunset
    have hle := (hiff 1 0 (Int64.le_of_lt hone) (Int64.le_refl 0) ⟨fun h => absurd h hunset, fun _ => hmemory⟩).1
    exact hunset (Int64.lt_of_lt_of_le hone hle)
  · by_contra hunset
    have hle := (hiff 0 1 (Int64.le_refl 0) (Int64.le_of_lt hone) ⟨fun _ => hcpu, fun h => absurd h hunset⟩).2.1
    exact hunset (Int64.lt_of_lt_of_le hone hle)
  · have hle := (hiff 0 0 (Int64.le_refl 0) (Int64.le_refl 0) ⟨fun _ => hcpu, fun _ => hmemory⟩).2.2
    exact Int32.lt_of_lt_of_le (by decide) hle

/-- Empty pods, as many as there can be. -/
def emptyPods (ns : CString) (n : Nat) : List PodOp := List.replicate n (.add ⟨ns, 0, 0⟩)

/-- **Empty pods are admitted** up to the limit, and counted. -/
theorem Engines.Started.run_emptyPods (h : e.Started ns hard) {n : Nat} (hn : (n : Int) ≤ hard.pods.toInt) :
    AllSteps Engines.step Admitted e (emptyPods ns n) ∧
      InStep ns hard { QuotaUsage.zero with podsUsed := Int32.ofNat n }
        (run Engines.step e (emptyPods ns n)) := by
  induction n with
  | zero => exact ⟨trivial, h.inStep⟩
  | succ n ih =>
    obtain ⟨hsteps, hstep⟩ := ih (by omega)
    have hlt := hard.pods.toInt_lt
    have htoInt : (Int32.ofNat n).toInt = n := Int32.toInt_ofNat_of_lt (by omega)
    have hallows : (run Engines.step e (emptyPods ns n)).Allows ns 0 0 := by
      refine hstep.allows_iff.mpr ⟨fun _ => h.limits.cpu, fun _ => h.limits.memory, fun _ => ?_⟩
      rw [Int32.lt_iff_toInt_lt, htoInt]
      omega
    have hsnoc : emptyPods ns (n + 1) = emptyPods ns n ++ [.add ⟨ns, 0, 0⟩] := List.replicate_succ'
    rw [hsnoc, run_append]
    refine ⟨allSteps_append.mpr ⟨hsteps, ⟨Int64.le_refl 0, Int64.le_refl 0, .inl hallows⟩, trivial⟩, ?_⟩
    have hnext := hstep.add ⟨ns, 0, 0⟩
    rw [if_pos rfl] at hnext
    have hused : QuotaUsage.addPod 0 0 { QuotaUsage.zero with podsUsed := Int32.ofNat n } =
        { QuotaUsage.zero with podsUsed := Int32.ofNat (n + 1) } := by
      unfold QuotaUsage.addPod
      rw [Int32.ofNat_add]
      rfl
    rw [← hused]
    exact hnext

/-- **At the largest limit there can be** the number of pods with one more wraps around. -/
theorem Engines.Started.disagree_at_maxValue (h : e.Started ns hard) (hmax : hard.pods = Int32.maxValue) :
    ¬ ∀ ops, AllSteps Engines.step Admitted e ops → AllStates Engines.step (Agree ns) e ops := by
  intro hall
  have hn : ((2 ^ 31 - 1 : Nat) : Int) ≤ hard.pods.toInt := by
    rw [hmax]
    decide
  obtain ⟨hsteps, hstep⟩ := h.run_emptyPods hn
  have hagree := (hall _ hsteps).run_mem 0 0 (Int64.le_refl 0) (Int64.le_refl 0)
  rw [hstep.allows_iff, hstep.admits_iff, hmax] at hagree
  have hfull := (hagree.mpr ⟨h.limits.cpu, h.limits.memory, by decide⟩).2.2 (by decide)
  exact absurd hfull (by decide)

/-- **The engines agree, exactly.** Along every run of admitted pods and matching removals they decide
alike **iff** every limit on pods is set and the largest is not the limit on their number. -/
theorem agree_iff (h : e.Started ns hard) :
    (∀ ops, AllSteps Engines.step Admitted e ops → AllStates Engines.step (Agree ns) e ops) ↔
      hard.AllSet := by
  constructor
  · intro hall
    obtain ⟨hcpu, hmemory, hpods⟩ := h.set_of_agree (hall [] trivial)
    exact ⟨hcpu, hmemory, hpods, fun hmax => h.disagree_at_maxValue hmax hall⟩
  · intro hset ops hops
    exact (allStates_of_allSteps (fun _ _ hb hop => hb.step hset hop) h.bounded hops).imp
      fun _ hb => hb.agree hset

/-! ## A limit on CPU alone -/

/-- Both engines with the same limits for the default namespace. -/
def sameLimits (hard : QuotaLimits) : Engines where
  manager := ⟨[⟨"default", "team", hard, .zero⟩], Nat.le_add_left 1 499⟩
  controller := { Controller.new 10 with quotas := [⟨"team", "default", hard.quantity, .zero⟩] }
  pods := []

theorem sameLimits_started (h : hard.Nonneg) : (sameLimits hard).Started "default" hard := by
  refine ⟨⟨rfl, ⟨_, rfl, rfl, rfl⟩, ⟨_, rfl, rfl, ?_⟩⟩, rfl, h⟩
  refine Quantity.ext (funext fun r => ?_)
  cases r <;> rfl

/-- Four cores, one gigabyte and ten pods. -/
def teamLimits : QuotaLimits := ⟨4000, 1073741824, 10, fun _ => 0⟩

theorem teamLimits_agree : teamLimits.AllSet ∧ ∀ ops,
    AllSteps Engines.step Admitted (sameLimits teamLimits) ops →
      AllStates Engines.step (Agree "default") (sameLimits teamLimits) ops := by
  have hset : teamLimits.AllSet := ⟨by decide, by decide, by decide, by decide⟩
  exact ⟨hset, (agree_iff (sameLimits_started ⟨by decide, by decide, by decide⟩)).mpr hset⟩

/-- **A limit on CPU alone**: the first engine allows a pod within it, the second refuses every pod. -/
theorem cpu_limit_alone_disagrees :
    ¬ ∀ (e : Engines) (ns : CString) (hard : QuotaLimits), e.Started ns hard →
      ∀ ops, AllSteps Engines.step Admitted e ops → AllStates Engines.step (Agree ns) e ops := by
  intro hall
  have hnonneg : QuotaLimits.Nonneg ⟨1000, 0, 0, fun _ => 0⟩ := ⟨by decide, by decide, by decide⟩
  have hstarted := sameLimits_started hnonneg
  have hpods := (hstarted.set_of_agree (hall _ _ _ hstarted [] trivial)).2.2
  exact absurd hpods (by decide)

end Sirah.Quota
