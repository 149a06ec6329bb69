import Sirah.Lib.KeyedSum
import Sirah.Lib.Run
import Sirah.Lib.Signed
import Sirah.Quota.ResourceQuota

/-!
# Admission and the pods of a namespace

The calls of `internal/controller/resource_quota.c` over a run, beside the pods that were added and not
removed since. An admission is right when the pods of the namespace, with the new one, stay within the
limits of every quota of the namespace.

* `Tracked`: the invariant. A namespace has at most one quota, and its usage is the sum of its pods.
* `Fresh`: the calls that keep it. A quota is created for a namespace that has neither a quota nor pods.
* **`admission_sound`**: along a run of such calls an admitted pod is within every limit.
* `second_quota_ignored`: a namespace with two quotas is checked against the first.
-/

namespace Sirah.Quota

open Runs

/-! ## Runs -/

/-- A pod as `resource_quota_add_pod` is told about it. -/
structure Pod where
  ns : CString
  cpu : Int64
  memory : Int64
deriving DecidableEq

/-- The table, and the pods added and not removed. -/
structure World where
  manager : Manager
  pods : List Pod

def World.init : World := ⟨.init, []⟩

inductive Op
  | create (quota : ResourceQuota)
  | update (quota : ResourceQuota)
  | delete (ns name : CString)
  | addPod (pod : Pod)
  | removePod (pod : Pod)
  | addCount (kind : Countable) (ns : CString)
  | removeCount (kind : Countable) (ns : CString)

def step (w : World) : Op → World
  | .create quota => { w with manager := (w.manager.create quota).1 }
  | .update quota => { w with manager := (w.manager.update quota).1 }
  | .delete ns name => { w with manager := (w.manager.delete ns name).1 }
  | .addPod pod => ⟨(w.manager.addPod pod.ns pod.cpu pod.memory).1, w.pods ++ [pod]⟩
  | .removePod pod => ⟨(w.manager.removePod pod.ns pod.cpu pod.memory).1, w.pods.erase pod⟩
  | .addCount kind ns => { w with manager := (w.manager.addCount kind ns).1 }
  | .removeCount kind ns => { w with manager := (w.manager.removeCount kind ns).1 }

/-- The CPU of the pods of a namespace. -/
def cpuOf (pods : List Pod) (ns : CString) : Int := pods.sumAt Pod.ns (fun pod => pod.cpu.toInt) ns

/-- The memory of the pods of a namespace. -/
def memoryOf (pods : List Pod) (ns : CString) : Int := pods.sumAt Pod.ns (fun pod => pod.memory.toInt) ns

/-- The number of pods of a namespace. -/
def countOf (pods : List Pod) (ns : CString) : Int := pods.sumAt Pod.ns (fun _ => 1) ns

/-- Requests are not negative, and a pod that is removed was added. -/
def Matched (w : World) : Op → Prop
  | .addPod pod => 0 ≤ pod.cpu ∧ 0 ≤ pod.memory
  | .removePod pod => pod ∈ w.pods
  | _ => True

/-- **With the new pod the namespace is within the limits** of the quota that are not zero. -/
structure WithinLimits (pods : List Pod) (ns : CString) (cpu memory : Int64) (hard : QuotaLimits) :
    Prop where
  cpu : hard.cpuMillicores ≠ 0 → cpuOf pods ns + cpu.toInt ≤ hard.cpuMillicores.toInt
  memory : hard.memoryBytes ≠ 0 → memoryOf pods ns + memory.toInt ≤ hard.memoryBytes.toInt
  pods : hard.pods ≠ 0 → countOf pods ns + 1 ≤ hard.pods.toInt

/-- **The admission is right**: if the pod is admitted, the namespace with it is within the limits of every
quota that is stored for it. -/
def Sound (w : World) (ns : CString) (cpu memory : Int64) : Prop :=
  ∀ result, (w.manager.canCreatePod ns cpu memory result).1 = 0 →
    ∀ q ∈ w.manager.quotas, q.ns = ns → WithinLimits w.pods ns cpu memory q.hard

/-- No limit on pods is negative. -/
structure QuotaLimits.Nonneg (hard : QuotaLimits) : Prop where
  cpu : 0 ≤ hard.cpuMillicores
  memory : 0 ≤ hard.memoryBytes
  pods : 0 ≤ hard.pods

/-- The sums of a namespace, with the new pod, are numbers of their types. -/
structure Representable (pods : List Pod) (pod : Pod) : Prop where
  cpu : cpuOf pods pod.ns + pod.cpu.toInt < 2 ^ 63
  memory : memoryOf pods pod.ns + pod.memory.toInt < 2 ^ 63
  count : countOf pods pod.ns + 1 < 2 ^ 31

/-- A quota is created where there is neither a quota nor a pod, limits are not negative, and the counters
do not overflow. -/
def Fresh (w : World) : Op → Prop
  | .create quota => w.manager.accepts quota = true →
      (∀ q ∈ w.manager.quotas, q.ns ≠ quota.ns) ∧ (∀ pod ∈ w.pods, pod.ns ≠ quota.ns) ∧
        quota.hard.Nonneg
  | .update quota => quota.hard.Nonneg
  | .addPod pod => Representable w.pods pod
  | _ => True

/-! ## The invariant -/

/-- The usage is the sum of the pods of the namespace. -/
structure QuotaUsage.Sums (u : QuotaUsage) (pods : List Pod) (ns : CString) : Prop where
  cpu : u.cpuUsedMillicores.toInt = cpuOf pods ns
  memory : u.memoryUsedBytes.toInt = memoryOf pods ns
  pods : u.podsUsed.toInt = countOf pods ns

/-- **The invariant** over the table and the pods. -/
structure Tracked (quotas : List ResourceQuota) (pods : List Pod) : Prop where
  unique : (quotas.map ResourceQuota.ns).Nodup
  sums : ∀ q ∈ quotas, q.used.Sums pods q.ns
  limits : ∀ q ∈ quotas, q.hard.Nonneg
  nonneg : ∀ pod ∈ pods, 0 ≤ pod.cpu ∧ 0 ≤ pod.memory

variable {quotas pre post : List ResourceQuota} {pods pods' : List Pod} {pod : Pod} {ns : CString}
  {q : ResourceQuota} {u : QuotaUsage}

theorem cpuOf_nonneg (h : ∀ pod ∈ pods, 0 ≤ pod.cpu ∧ 0 ≤ pod.memory) : 0 ≤ cpuOf pods ns :=
  List.sumAt_nonneg fun pod hp => Int64.le_iff_toInt_le.mp (h pod hp).1

theorem memoryOf_nonneg (h : ∀ pod ∈ pods, 0 ≤ pod.cpu ∧ 0 ≤ pod.memory) : 0 ≤ memoryOf pods ns :=
  List.sumAt_nonneg fun pod hp => Int64.le_iff_toInt_le.mp (h pod hp).2

theorem countOf_nonneg : 0 ≤ countOf pods ns := List.sumAt_nonneg fun _ _ => Int.one_nonneg

/-! ## Counters -/

theorem toInt_add_of_lt {a b : Int64} (ha : 0 ≤ a.toInt) (hb : 0 ≤ b.toInt)
    (h : a.toInt + b.toInt < 2 ^ 63) : (a + b).toInt = a.toInt + b.toInt :=
  BitVec.toInt_add_of_lt ha hb h

theorem toInt_succ {a : Int32} (ha : 0 ≤ a.toInt) (h : a.toInt + 1 < 2 ^ 31) : (a + 1).toInt = a.toInt + 1 :=
  BitVec.toInt_add_of_lt ha (by decide) h

/-- The clamp does nothing where there is enough to take. -/
theorem toInt_clamped_sub {a b : Int64} (hb : 0 ≤ b.toInt) (h : b.toInt ≤ a.toInt) :
    (if a - b < 0 then 0 else a - b).toInt = a.toInt - b.toInt := by
  have hsub : (a - b).toInt = a.toInt - b.toInt := BitVec.toInt_sub_of_le hb h
  have hpos : ¬ a - b < 0 := by
    rw [Int64.lt_iff_toInt_lt, hsub, Int64.toInt_zero]
    omega
  rw [if_neg hpos, hsub]

theorem toInt_clamped_pred {a : Int32} (h : 1 ≤ a.toInt) :
    (if a - 1 < 0 then 0 else a - 1).toInt = a.toInt - 1 := by
  have hsub : (a - 1).toInt = a.toInt - 1 := BitVec.toInt_sub_of_le (by decide) h
  have hpos : ¬ a - 1 < 0 := by
    rw [Int32.lt_iff_toInt_lt, hsub, Int32.toInt_zero]
    omega
  rw [if_neg hpos, hsub]

/-- **An added pod** is added to the sums of its namespace. -/
theorem QuotaUsage.Sums.addPod (h : u.Sums pods pod.ns) (hpod : 0 ≤ pod.cpu ∧ 0 ≤ pod.memory)
    (hpods : ∀ pod ∈ pods, 0 ≤ pod.cpu ∧ 0 ≤ pod.memory) (hfits : Representable pods pod) :
    (u.addPod pod.cpu pod.memory).Sums (pods ++ [pod]) pod.ns := by
  have hcpu : 0 ≤ pod.cpu.toInt := Int64.le_iff_toInt_le.mp hpod.1
  have hmemory : 0 ≤ pod.memory.toInt := Int64.le_iff_toInt_le.mp hpod.2
  have hcpus : 0 ≤ cpuOf pods pod.ns := cpuOf_nonneg hpods
  have hmemories : 0 ≤ memoryOf pods pod.ns := memoryOf_nonneg hpods
  have hcounts : 0 ≤ countOf pods pod.ns := countOf_nonneg
  obtain ⟨hu, hv, hw⟩ := h
  obtain ⟨hfu, hfv, hfw⟩ := hfits
  constructor
  · rw [cpuOf, List.sumAt_append_singleton, if_pos rfl, ← cpuOf, ← hu]
    exact toInt_add_of_lt (by omega) hcpu (by omega)
  · rw [memoryOf, List.sumAt_append_singleton, if_pos rfl, ← memoryOf, ← hv]
    exact toInt_add_of_lt (by omega) hmemory (by omega)
  · rw [countOf, List.sumAt_append_singleton, if_pos rfl, ← countOf, ← hw]
    exact toInt_succ (by omega) (by omega)

/-- **A removed pod** is taken from them. -/
theorem QuotaUsage.Sums.removePod (h : u.Sums pods pod.ns) (hmem : pod ∈ pods)
    (hpods : ∀ pod ∈ pods, 0 ≤ pod.cpu ∧ 0 ≤ pod.memory) :
    (u.removePod pod.cpu pod.memory).Sums (pods.erase pod) pod.ns := by
  have hrest : ∀ p ∈ pods.erase pod, 0 ≤ p.cpu ∧ 0 ≤ p.memory :=
    fun p hp => hpods p (List.mem_of_mem_erase hp)
  have hcpus : 0 ≤ cpuOf (pods.erase pod) pod.ns := cpuOf_nonneg hrest
  have hmemories : 0 ≤ memoryOf (pods.erase pod) pod.ns := memoryOf_nonneg hrest
  have hcounts : 0 ≤ countOf (pods.erase pod) pod.ns := countOf_nonneg
  obtain ⟨hu, hv, hw⟩ := h
  rw [cpuOf, List.sumAt_erase hmem, if_pos rfl, ← cpuOf] at hu
  rw [memoryOf, List.sumAt_erase hmem, if_pos rfl, ← memoryOf] at hv
  rw [countOf, List.sumAt_erase hmem, if_pos rfl, ← countOf] at hw
  constructor
  · exact (toInt_clamped_sub (Int64.le_iff_toInt_le.mp (hpods pod hmem).1) (by omega)).trans (by omega)
  · exact (toInt_clamped_sub (Int64.le_iff_toInt_le.mp (hpods pod hmem).2) (by omega)).trans (by omega)
  · exact (toInt_clamped_pred (by omega)).trans (by omega)

/-- The sums of the other namespaces stay. -/
theorem QuotaUsage.Sums.append_of_ne (h : u.Sums pods ns) (hne : pod.ns ≠ ns) :
    u.Sums (pods ++ [pod]) ns :=
  ⟨h.cpu.trans (List.sumAt_append_of_ne hne).symm, h.memory.trans (List.sumAt_append_of_ne hne).symm,
    h.pods.trans (List.sumAt_append_of_ne hne).symm⟩

theorem QuotaUsage.Sums.erase_of_ne (h : u.Sums pods ns) (hmem : pod ∈ pods) (hne : pod.ns ≠ ns) :
    u.Sums (pods.erase pod) ns :=
  ⟨h.cpu.trans (List.sumAt_erase_of_ne hmem hne).symm, h.memory.trans (List.sumAt_erase_of_ne hmem hne).symm,
    h.pods.trans (List.sumAt_erase_of_ne hmem hne).symm⟩

/-! ## Steps -/

variable {m : Manager}

theorem Tracked.init : Tracked Manager.init.quotas [] := by
  refine ⟨List.nodup_nil, ?_, ?_, ?_⟩ <;> exact fun _ h => absurd h List.not_mem_nil

/-- **One quota is replaced** by one of its namespace whose usage is true, while the pods of the other
namespaces stay. -/
theorem Tracked.replace {q' : ResourceQuota} (h : Tracked (pre ++ q :: post) pods) (hns : q'.ns = q.ns)
    (hsums : q'.used.Sums pods' q'.ns) (hhard : q'.hard.Nonneg)
    (hother : ∀ u ns', q.ns ≠ ns' → QuotaUsage.Sums u pods ns' → u.Sums pods' ns')
    (hnonneg : ∀ pod ∈ pods', 0 ≤ pod.cpu ∧ 0 ≤ pod.memory) : Tracked (pre ++ q' :: post) pods' := by
  have hne : ∀ z ∈ pre ++ post, z.ns ≠ q.ns := fun z hz => List.key_ne_of_nodup h.unique hz
  refine ⟨(List.nodup_replace_iff h.unique).mpr (hns ▸ hne), ?_, ?_, hnonneg⟩
  · intro z hz
    rcases List.mem_append_cons_iff.mp hz with rfl | hbeside
    · exact hsums
    · exact hother _ _ (hne z hbeside).symm (h.sums z (List.mem_append_cons_iff.mpr (.inr hbeside)))
  · intro z hz
    rcases List.mem_append_cons_iff.mp hz with rfl | hbeside
    · exact hhard
    · exact h.limits z (List.mem_append_cons_iff.mpr (.inr hbeside))

/-- **A charge** to a namespace keeps the invariant if it moves the sums of this namespace as the pods
move, and the pods of the others stay. -/
theorem Tracked.charge {f : QuotaUsage → QuotaUsage} (h : Tracked m.quotas pods)
    (hns : ∀ u, QuotaUsage.Sums u pods ns → (f u).Sums pods' ns)
    (hother : ∀ u ns', ns ≠ ns' → QuotaUsage.Sums u pods ns' → u.Sums pods' ns')
    (hnonneg : ∀ pod ∈ pods', 0 ≤ pod.cpu ∧ 0 ≤ pod.memory) :
    Tracked (m.charge ns f).1.quotas pods' := by
  unfold Manager.charge
  obtain ⟨pre, q, post, hm, hq, heq⟩ | ⟨hnone, heq⟩ := m.change_cases (fun q => q.ns == ns)
    (fun q => { q with used := f q.used }) 1
  · obtain rfl : q.ns = ns := beq_iff_eq.mp hq
    have hmem : q ∈ m.quotas := hm ▸ List.mem_append_cons_iff.mpr (.inl rfl)
    rw [heq]
    exact (hm ▸ h).replace rfl (hns _ (h.sums q hmem)) (h.limits q hmem) hother hnonneg
  · rw [heq]
    refine ⟨h.unique, ?_, h.limits, hnonneg⟩
    intro q hq
    have hne : q.ns ≠ ns := by simpa using hnone q hq
    exact hother _ _ hne.symm (h.sums q hq)

theorem Tracked.create {quota : ResourceQuota} (h : Tracked m.quotas pods)
    (hfresh : m.accepts quota = true → (∀ q ∈ m.quotas, q.ns ≠ quota.ns) ∧
      (∀ pod ∈ pods, pod.ns ≠ quota.ns) ∧ quota.hard.Nonneg) :
    Tracked (m.create quota).1.quotas pods := by
  unfold Manager.create
  split
  · rename_i haccepts
    obtain ⟨hquotas, hpods, hhard⟩ := hfresh haccepts
    refine ⟨?_, ?_, ?_, h.nonneg⟩
    · refine List.nodup_map_concat.mpr ⟨fun hmem => ?_, h.unique⟩
      obtain ⟨q, hq, heq⟩ := List.mem_map.mp hmem
      exact hquotas q hq heq
    · intro q hq
      rcases List.mem_append.mp hq with hq | hq
      · exact h.sums q hq
      · obtain rfl := List.mem_singleton.mp hq
        -- no pod of the namespace is there yet, so all three sums are zero
        exact ⟨(List.sumAt_eq_zero hpods).symm, (List.sumAt_eq_zero hpods).symm,
          (List.sumAt_eq_zero hpods).symm⟩
    · intro q hq
      rcases List.mem_append.mp hq with hq | hq
      · exact h.limits q hq
      · obtain rfl := List.mem_singleton.mp hq
        exact hhard
  · exact h

theorem Tracked.update {quota : ResourceQuota} (h : Tracked m.quotas pods) (hhard : quota.hard.Nonneg) :
    Tracked (m.update quota).1.quotas pods := by
  unfold Manager.update
  obtain ⟨pre, q, post, hm, -, heq⟩ | ⟨-, heq⟩ := m.change_cases
    (ResourceQuota.hasKey quota.ns quota.name) (fun q => { q with hard := quota.hard }) (-1)
  · have hmem : q ∈ m.quotas := hm ▸ List.mem_append_cons_iff.mpr (.inl rfl)
    rw [heq]
    exact (hm ▸ h).replace rfl (h.sums q hmem) hhard (fun _ _ _ hu => hu) h.nonneg
  · rw [heq]
    exact h

theorem Tracked.delete {name : CString} (h : Tracked m.quotas pods) :
    Tracked (m.delete ns name).1.quotas pods := by
  unfold Manager.delete
  split
  · have hsub : List.Sublist (m.quotas.eraseP (ResourceQuota.hasKey ns name)) m.quotas :=
      List.eraseP_sublist
    exact ⟨h.unique.sublist (hsub.map _), fun q hq => h.sums q (hsub.mem hq),
      fun q hq => h.limits q (hsub.mem hq), h.nonneg⟩
  · exact h

/-- **The step lemma.** -/
theorem Tracked.step {w : World} {op : Op} (h : Tracked w.manager.quotas w.pods)
    (hmatched : Matched w op) (hfresh : Fresh w op) :
    Tracked (step w op).manager.quotas (step w op).pods := by
  cases op with
  | create quota => exact h.create hfresh
  | update quota => exact h.update hfresh
  | delete ns name => exact h.delete
  | addPod pod =>
    refine h.charge (fun u hu => hu.addPod hmatched h.nonneg hfresh)
      (fun u ns' hne hu => hu.append_of_ne hne) ?_
    intro p hp
    rcases List.mem_append.mp hp with hp | hp
    · exact h.nonneg p hp
    · exact List.mem_singleton.mp hp ▸ hmatched
  | removePod pod =>
    exact h.charge (fun u hu => hu.removePod hmatched h.nonneg)
      (fun u ns' hne hu => hu.erase_of_ne hmatched hne) fun p hp => h.nonneg p (List.mem_of_mem_erase hp)
  | addCount kind ns =>
    exact h.charge (fun u hu => ⟨hu.cpu, hu.memory, hu.pods⟩) (fun u ns' hne hu => hu) h.nonneg
  | removeCount kind ns =>
    refine h.charge (fun u hu => ?_) (fun u ns' hne hu => hu) h.nonneg
    split
    · exact ⟨hu.cpu, hu.memory, hu.pods⟩
    · exact hu

/-! ## Admission -/

theorem pos_of_ne_zero {a : Int64} (h : 0 ≤ a) (hne : a ≠ 0) : a > 0 := Int64.lt_of_le_of_ne h hne.symm

/-- In a state of the invariant the quota that is checked is the only one, and its usage is true. -/
theorem Tracked.sound {w : World} {cpu memory : Int64} (h : Tracked w.manager.quotas w.pods)
    (hcpu : 0 ≤ cpu) (hmemory : 0 ≤ memory) (hcpus : cpuOf w.pods ns + cpu.toInt < 2 ^ 63)
    (hmemories : memoryOf w.pods ns + memory.toInt < 2 ^ 63) : Sound w ns cpu memory := by
  intro result hzero q hq hns
  obtain ⟨checked, hfind, hc, hm, hp⟩ := Manager.canCreatePod_eq_zero_iff.mp hzero
  have hchecked := List.find?_some hfind
  obtain rfl : q = checked := by
    refine List.inj_on_of_nodup_map h.unique hq (List.mem_of_find?_eq_some hfind) ?_
    rw [hns]
    exact (beq_iff_eq.mp hchecked).symm
  obtain rfl := hns
  obtain ⟨hu, hv, hw⟩ := h.sums q hq
  have hc0 : 0 ≤ cpuOf w.pods q.ns := cpuOf_nonneg h.nonneg
  have hm0 : 0 ≤ memoryOf w.pods q.ns := memoryOf_nonneg h.nonneg
  constructor
  · intro hne
    have hle := Int64.le_iff_toInt_le.mp (hc (pos_of_ne_zero (h.limits q hq).cpu hne))
    rwa [toInt_add_of_lt (by omega) (Int64.le_iff_toInt_le.mp hcpu) (by omega), hu] at hle
  · intro hne
    have hle := Int64.le_iff_toInt_le.mp (hm (pos_of_ne_zero (h.limits q hq).memory hne))
    rwa [toInt_add_of_lt (by omega) (Int64.le_iff_toInt_le.mp hmemory) (by omega), hv] at hle
  · intro hne
    have hlt := Int32.lt_iff_toInt_lt.mp (hp (Int32.lt_of_le_of_ne (h.limits q hq).pods hne.symm))
    rw [hw] at hlt
    exact hlt

/-- **Admission is sound** along every run whose quotas are created for namespaces that have neither a quota
nor pods. -/
theorem admission_sound {ops : List Op} (hmatched : AllSteps step Matched World.init ops)
    (hfresh : AllSteps step Fresh World.init ops) :
    AllStates step (fun w => ∀ ns cpu memory, 0 ≤ cpu → 0 ≤ memory →
      cpuOf w.pods ns + cpu.toInt < 2 ^ 63 → memoryOf w.pods ns + memory.toInt < 2 ^ 63 →
      Sound w ns cpu memory) World.init ops := by
  have htracked : AllStates step (fun w => Tracked w.manager.quotas w.pods) World.init ops :=
    allStates_of_allSteps (fun w op h hop => h.step hop.1 hop.2) Tracked.init (hmatched.and hfresh)
  exact htracked.imp fun w h ns cpu memory => h.sound

/-! ## Two quotas -/

/-- A quota of the default namespace on CPU. -/
def cpuQuota (name : String) (cpu : Int64) : ResourceQuota :=
  ⟨CString.ofString "default", CString.ofString name, ⟨cpu, 0, 0, fun _ => 0⟩, .zero⟩

/-- A pod of the default namespace. -/
def web : Pod := ⟨CString.ofString "default", 800, 0⟩

/-- With one quota of 1000 millicores a second pod of 800 is refused. -/
theorem one_quota_sound :
    ((run step World.init [.create (cpuQuota "tight" 1000), .addPod web]).manager.canCreatePod
      web.ns 800 0 (overSum "" "" 0 0 0)).1 = -1 ∧
    AllStates step (fun w => ∀ ns cpu memory, 0 ≤ cpu → 0 ≤ memory →
      cpuOf w.pods ns + cpu.toInt < 2 ^ 63 → memoryOf w.pods ns + memory.toInt < 2 ^ 63 →
      Sound w ns cpu memory) World.init [.create (cpuQuota "tight" 1000), .addPod web] := by
  refine ⟨rfl, admission_sound ⟨trivial, ⟨by decide, by decide⟩, trivial⟩ ⟨?_, ⟨?_, ?_, ?_⟩, trivial⟩⟩
  · exact fun _ => ⟨fun _ h => absurd h List.not_mem_nil, fun _ h => absurd h List.not_mem_nil,
      by decide, by decide, by decide⟩
  all_goals decide

/-- **Only the first quota counts**: beside one of 4000 millicores, a quota of 1000 admits a second pod of
800. -/
theorem second_quota_ignored : ¬ ∀ ops, AllSteps step Matched World.init ops →
    ∀ ns cpu memory, 0 ≤ cpu → 0 ≤ memory → Sound (run step World.init ops) ns cpu memory := by
  intro h
  have hsound := h [.create (cpuQuota "wide" 4000), .create (cpuQuota "tight" 1000), .addPod web]
    ⟨trivial, trivial, ⟨by decide, by decide⟩, trivial⟩ web.ns 800 0 (by decide) (by decide)
    (overSum "" "" 0 0 0) rfl (cpuQuota "tight" 1000) (List.mem_cons_of_mem _ List.mem_cons_self) rfl
  exact absurd (hsound.cpu (by decide)) (by decide)

end Sirah.Quota
