import Mathlib.Data.List.Perm.Basic
import Sirah.Lib.CString
import Sirah.Lib.Run
import Sirah.Lib.SplitFirst

/-!
# The pod controller

Model of `pod_controller_fetch_pods` and `pod_controller_sync_states` in `internal/controller/pod_controller.c`. A fetch
reads the pods of the namespace `default` and tracks, by their names, the pending ones that have a unikernel image; a sync
starts a VM for every tracked pod whose status is `pending`. Every call to the API succeeds.

Each pod that is created is an incarnation with an identity of its own. The world remembers which incarnations a fetch
has seen pending, for which of them a VM was asked for, and what was reported about them.

* `Right`: what is expected of a sync. Afterwards a VM was asked for exactly once for each incarnation that was seen
  pending, and for no other; and the end of a VM whose pod was reported running is reported.
* `Respectful`: the pods that a fetch sees for the first time have names that fit and that are not tracked, and there is
  room for them; at a sync no VM of a pod that was reported running has ended.
* **`right_of_fresh_names`**: every step of a run of respectful steps is right. `right_sync_iff`: the condition on a sync
  is exact.
* `end_unnoticed`: the status that is written is `Running`, and the one that is looked for is `running`.
-/

namespace Sirah.PodController

open Runs

/-! ## Pods and entries -/

/-- What a fetch reads of a pod: its name, the image of the first container with its limits, and the phase. The identity
is that of the incarnation. -/
structure ApiPod where
  uid : Nat
  ns : CString
  name : CString
  image : CString
  memory : Option CString
  cpu : Option CString
  phase : CString

/-- `pod_entry_t`, with the identity of the pod that it was made for. -/
structure Entry where
  podName : CString
  ns : CString
  image : CString
  status : CString
  vmId : CString
  memoryMb : Int
  cpuCount : Int
  vmPid : Int
  vmStatus : CString
  uid : Nat

/-- `vm_spec_t`. -/
structure VmSpec where
  id : CString
  image : CString
  memoryMb : Int
  cpuCount : Int
  ns : CString
  podName : CString
  vmPid : Int
  status : CString

/-- A VM: the pod that it was started for, its process, and whether that has ended. -/
structure Vm where
  uid : Nat
  pid : Int
  exited : Bool

/-- A call of `runtime_spawn_vm`. -/
structure Call where
  uid : Nat
  spec : VmSpec

/-- A status that was sent to the API server. -/
structure Report where
  uid : Nat
  phase : CString
  deriving DecidableEq

/-- What the controller acts on: the pods, the VMs, and what was done so far. -/
structure Env where
  api : List ApiPod
  vms : List Vm
  calls : List Call
  reports : List Report

/-- The environment, `tracked_pods`, the identity of the next pod, and the pods that a fetch has seen pending. -/
structure World where
  env : Env
  tracked : List Entry
  nextUid : Nat
  seen : List Nat

def World.init : World := ⟨⟨[], [], [], []⟩, [], 0, []⟩

/-- `MAX_TRACKED_PODS`. -/
def maxTrackedPods : Nat := 100

/-! ## A fetch -/

/-- `strcasestr`. -/
def strcasestr (hay needle : CString) : Bool :=
  let lower (c : UInt8) : UInt8 := if 65 ≤ c && c ≤ 90 then c + 32 else c
  CString.strstr (hay.map lower) (needle.map lower)

def unikernelKeywords : List CString :=
  ["unikernel", "kernel", ".img", ".bin", "vmlinuz", "osv", "mirage", "rumprun", "IncludeOS"].map CString.ofString

/-- `pod_is_unikernel_image`. -/
def isUnikernelImage (image : CString) : Bool :=
  unikernelKeywords.any (strcasestr image) ||
    (image.head? == some 47 || !CString.strstr image "/" || !CString.strstr image ":")

/-- `pod_extract_memory_mb`, in exact arithmetic. -/
def extractMemoryMb : Option CString → Int
  | none => 128
  | some memory =>
    let value := CString.atoi memory
    let value :=
      if CString.strstr memory "Gi" then value * 1024
      else if CString.strstr memory "G" then value * 1000
      else if CString.strstr memory "Mi" then value
      else if CString.strstr memory "M" then value
      else if CString.strstr memory "Ki" then value.tdiv 1024
      else if CString.strstr memory "K" then value.tdiv 1000
      else value
    max 32 (min value 32768)

/-- `pod_extract_cpu_count`. -/
def extractCpuCount : Option CString → Int
  | none => 1
  | some cpu =>
    if CString.strstr cpu "m" then (CString.atoi cpu + 999).tdiv 1000 else max 1 (min (CString.atoi cpu) 16)

/-- The entry for a new pod. -/
def ApiPod.entry (pod : ApiPod) : Entry where
  podName := pod.name.take 255
  ns := pod.ns.take 255
  image := pod.image.take 511
  status := "pending"
  vmId := CString.snprintf 256 (pod.ns ++ 45 :: pod.name)
  memoryMb := extractMemoryMb pod.memory
  cpuCount := extractCpuCount pod.cpu
  vmPid := -1
  vmStatus := "pending"
  uid := pod.uid

/-- Is it the entry with the name of the pod? -/
def Entry.isOf (pod : ApiPod) (entry : Entry) : Bool := entry.ns == pod.ns && entry.podName == pod.name

/-- The body of the loop over the items. -/
def track (tracked : List Entry) (pod : ApiPod) : List Entry :=
  if isUnikernelImage pod.image then
    if !tracked.any (Entry.isOf pod) && pod.phase == CString.ofString "Pending" then
      if tracked.length < maxTrackedPods then tracked ++ [pod.entry] else tracked
    else tracked
  else tracked

/-- The items of `/api/v1/namespaces/default/pods`. -/
def Env.items (env : Env) : List ApiPod := env.api.filter fun pod => pod.ns == CString.ofString "default"

/-- A pod with a unikernel image that is pending. -/
def ApiPod.awaits (pod : ApiPod) : Bool := isUnikernelImage pod.image && pod.phase == CString.ofString "Pending"

/-- The pods that a fetch sees pending. -/
def Env.visible (env : Env) : List ApiPod := env.items.filter ApiPod.awaits

/-- `pod_controller_fetch_pods`. -/
def World.fetchPods (s : World) : World :=
  { s with tracked := s.env.items.foldl track s.tracked, seen := s.seen ++ s.env.visible.map ApiPod.uid }

/-! ## A sync -/

/-- `pod_update_status_in_api`: the pod of this name, whichever it is. -/
def Env.updateStatus (env : Env) (entry : Entry) (phase : CString) : Env :=
  { env with
    api := env.api.map fun pod => if pod.ns = entry.ns ∧ pod.name = entry.podName then { pod with phase } else pod
    reports := env.reports ++ [⟨entry.uid, phase⟩] }

/-- `pod_transition_status`. -/
def Entry.transition (entry : Entry) (toStatus : CString) : Entry := { entry with status := toStatus }

/-- The `vm_spec` of a sync. -/
def Entry.vmSpec (entry : Entry) : VmSpec where
  id := entry.vmId
  image := entry.image
  memoryMb := entry.memoryMb
  cpuCount := entry.cpuCount
  ns := entry.ns
  podName := entry.podName
  vmPid := -1
  status := "pending"

/-- What `runtime_spawn_vm` returns, and the process that it starts if this is 0. -/
structure Answer where
  ret : Int
  pid : Int

/-- `runtime_spawn_vm`, which leaves the process in the `vm_spec`. -/
def Env.spawnVm (env : Env) (uid : Nat) (spec : VmSpec) (answer : Answer) : Env × Int × VmSpec :=
  if answer.ret = 0 then
    ({ env with calls := env.calls ++ [⟨uid, spec⟩], vms := env.vms ++ [⟨uid, answer.pid, false⟩] }, 0,
      { spec with vmPid := answer.pid })
  else ({ env with calls := env.calls ++ [⟨uid, spec⟩] }, answer.ret, spec)

/-- `pod_get_vm_status`. -/
def Env.getVmStatus (env : Env) (vmPid : Int) : CString :=
  if vmPid ≤ 0 then "unknown"
  else if env.vms.any fun vm => vm.pid == vmPid && !vm.exited then "running"
  else "stopped"

/-- The body of the loop over the tracked pods. -/
def syncEntry (answer : Answer) (env : Env) (entry : Entry) : Env × Entry :=
  if entry.status = CString.ofString "pending" then
    -- the process is left in the specification, and with it forgotten
    let r := env.spawnVm entry.uid entry.vmSpec answer
    if r.2.1 = 0 then (r.1.updateStatus entry "Running", entry.transition "Running")
    else (r.1.updateStatus entry "Failed", entry.transition "Failed")
  else if entry.status = CString.ofString "running" then
    let vmStatus := env.getVmStatus entry.vmPid
    let entry := { entry with vmStatus }
    if vmStatus = CString.ofString "stopped" then
      (env.updateStatus entry "Succeeded", entry.transition "Succeeded")
    else (env, entry)
  else (env, entry)

/-- The loop of `pod_controller_sync_states`, from the entry `i` on. -/
def syncLoop (answer : Nat → Answer) : Nat → Env → List Entry → Env × List Entry
  | _, env, [] => (env, [])
  | i, env, entry :: entries =>
    let first := syncEntry (answer i) env entry
    let rest := syncLoop answer (i + 1) first.1 entries
    (rest.1, first.2 :: rest.2)

/-- `pod_controller_sync_states`. -/
def World.syncStates (s : World) (answer : Nat → Answer) : World :=
  let r := syncLoop answer 0 s.env s.tracked
  { s with env := r.1, tracked := r.2 }

/-! ## Runs -/

def ApiPod.key (pod : ApiPod) : CString × CString := (pod.ns, pod.name)

inductive Op where
  /-- A pod is created, in place of one that has its name. -/
  | create (ns name image : CString) (memory cpu : Option CString) (phase : CString)
  | delete (ns name : CString)
  /-- The process of a VM ends. -/
  | exit (i : Nat)
  | fetch
  /-- A sync, with what `runtime_spawn_vm` answers for each entry. -/
  | sync (answer : Nat → Answer)

def step (s : World) : Op → World
  | .create ns name image memory cpu phase =>
    { s with
      env := { s.env with
        api := s.env.api.filter (fun pod => pod.key ≠ (ns, name)) ++ [⟨s.nextUid, ns, name, image, memory, cpu, phase⟩] }
      nextUid := s.nextUid + 1 }
  | .delete ns name => { s with env := { s.env with api := s.env.api.filter fun pod => pod.key ≠ (ns, name) } }
  | .exit i => { s with env := { s.env with vms := s.env.vms.modify i fun vm => { vm with exited := true } } }
  | .fetch => s.fetchPods
  | .sync answer => s.syncStates answer

/-- How often a VM was asked for. -/
def Env.spawns (env : Env) (uid : Nat) : Nat := (env.calls.map Call.uid).count uid

/-- The ends of VMs are noticed: those of pods that were reported running before are reported after. -/
def EndsReported (before after : Env) : Prop :=
  ∀ vm ∈ before.vms, vm.exited = true → ⟨vm.uid, CString.ofString "Running"⟩ ∈ before.reports →
    ⟨vm.uid, CString.ofString "Succeeded"⟩ ∈ after.reports

/-- **What is expected of a step.** -/
def Right (s : World) : Op → Prop
  | .sync answer =>
    (∀ uid, (s.syncStates answer).env.spawns uid = if uid ∈ s.seen then 1 else 0) ∧
      EndsReported s.env (s.syncStates answer).env
  | _ => True

/-- The pods that a fetch sees pending for the first time. -/
def World.fresh (s : World) : List ApiPod := s.env.visible.filter fun pod => pod.uid ∉ s.seen

/-- The condition on a step. -/
def Respectful (s : World) : Op → Prop
  | .fetch =>
    (∀ pod ∈ s.fresh, pod.name.length ≤ 255 ∧ ∀ entry ∈ s.tracked, entry.podName ≠ pod.name) ∧
      s.tracked.length + s.fresh.length ≤ maxTrackedPods
  | .sync _ => ∀ vm ∈ s.env.vms, vm.exited = true → ⟨vm.uid, CString.ofString "Running"⟩ ∉ s.env.reports
  | _ => True

instance (s : World) : DecidablePred (Respectful s)
  | .fetch => inferInstanceAs (Decidable (_ ∧ _))
  | .sync _ =>
    inferInstanceAs (Decidable (∀ vm ∈ s.env.vms, vm.exited = true → ⟨vm.uid, CString.ofString "Running"⟩ ∉ s.env.reports))
  | .create .. => inferInstanceAs (Decidable True)
  | .delete .. => inferInstanceAs (Decidable True)
  | .exit _ => inferInstanceAs (Decidable True)

/-! ## What is tracked -/

/-- The pods by their identity and their name. -/
def Env.ids (env : Env) : List (Nat × CString × CString) := env.api.map fun pod => (pod.uid, pod.key)

def Entry.id (entry : Entry) : Nat × CString × CString := (entry.uid, entry.ns, entry.podName)

def Entry.isPending (entry : Entry) : Bool := entry.status == CString.ofString "pending"

variable {s : World} {env env' : Env} {tracked entries entries' : List Entry} {entry entry' : Entry} {pod : ApiPod}

theorem track_of_found (h : ∃ entry ∈ tracked, entry.isOf pod = true) : track tracked pod = tracked := by
  have hany : tracked.any (Entry.isOf pod) = true := List.any_eq_true.mpr h
  unfold track
  rw [hany]
  split <;> rfl

theorem track_of_not_awaits (h : pod.awaits = false) : track tracked pod = tracked := by
  unfold track
  rw [ApiPod.awaits, Bool.and_eq_false_iff] at h
  rcases h with himage | hphase
  · rw [himage]
    rfl
  · rw [hphase, Bool.and_false]
    split <;> rfl

theorem track_of_new (hawaits : pod.awaits = true) (hnew : ∀ entry ∈ tracked, entry.isOf pod = false)
    (hroom : tracked.length < maxTrackedPods) : track tracked pod = tracked ++ [pod.entry] := by
  rw [ApiPod.awaits, Bool.and_eq_true] at hawaits
  have hany : tracked.any (Entry.isOf pod) = false := by simpa using hnew
  unfold track
  rw [if_pos hawaits.1, hany, hawaits.2]
  exact if_pos hroom

theorem Entry.isOf_iff : entry.isOf pod = true ↔ (entry.ns, entry.podName) = pod.key := by
  rw [Entry.isOf, Bool.and_eq_true, beq_iff_eq, beq_iff_eq, ApiPod.key, Prod.mk.injEq]

theorem ApiPod.entry_id (hns : pod.ns.length ≤ 255) (hname : pod.name.length ≤ 255) :
    pod.entry.id = (pod.uid, pod.key) := by
  rw [Entry.id, ApiPod.entry, List.take_of_length_le hns, List.take_of_length_le hname]
  rfl

/-- **The loop over the items** tracks the new pods, if their names fit and are free and there is room for all of them. -/
theorem foldl_track {new : ApiPod → Bool} {items : List ApiPod} (hkeys : (items.map ApiPod.key).Nodup)
    (hfits : ∀ pod ∈ items, new pod = true → pod.awaits = true ∧ pod.ns.length ≤ 255 ∧ pod.name.length ≤ 255)
    (hfree : ∀ pod ∈ items, new pod = true → ∀ entry ∈ tracked, entry.isOf pod = false)
    (hold : ∀ pod ∈ items, new pod = false → pod.awaits = true → ∃ entry ∈ tracked, entry.isOf pod = true)
    (hroom : tracked.length + (items.filter new).length ≤ maxTrackedPods) :
    items.foldl track tracked = tracked ++ (items.filter new).map ApiPod.entry := by
  induction items generalizing tracked with
  | nil => simp
  | cons pod items ih =>
    rw [List.map_cons, List.nodup_cons] at hkeys
    rw [List.forall_mem_cons] at hfits hfree hold
    rw [List.foldl_cons, List.filter_cons]
    rw [List.filter_cons] at hroom
    cases hnew : new pod with
    | true =>
      rw [hnew, if_pos rfl, List.length_cons] at hroom
      obtain ⟨hawaits, hns, hname⟩ := hfits.1 hnew
      have hid : (pod.entry.ns, pod.entry.podName) = pod.key :=
        congrArg Prod.snd (ApiPod.entry_id hns hname)
      rw [track_of_new hawaits (hfree.1 hnew) (by omega), if_pos rfl, List.map_cons]
      rw [ih hkeys.2 hfits.2 ?_ ?_ ?_, List.append_assoc, List.singleton_append]
      · -- the entry that was made has another name
        intro other hother hnew' entry hentry
        rcases List.mem_append.mp hentry with hentry | hentry
        · exact hfree.2 other hother hnew' entry hentry
        · rw [List.mem_singleton.mp hentry, ← Bool.not_eq_true, Entry.isOf_iff, hid]
          exact fun hsame => hkeys.1 (hsame ▸ List.mem_map_of_mem hother)
      · intro other hother hold' hawaits'
        obtain ⟨entry, hentry, his⟩ := hold.2 other hother hold' hawaits'
        exact ⟨entry, List.mem_append_left _ hentry, his⟩
      · rw [List.length_append, List.length_singleton]
        omega
    | false =>
      rw [hnew] at hroom
      have hsame : track tracked pod = tracked := by
        cases hawaits : pod.awaits with
        | true => exact track_of_found (hold.1 hnew hawaits)
        | false => exact track_of_not_awaits hawaits
      rw [hsame]
      exact ih hkeys.2 hfits.2 hfree.2 hold.2 hroom

/-! ## What a sync does -/

/-- **The loop of a sync**: the entries keep their names, none is pending after it, and a VM was asked for each that was. -/
structure Synced (env env' : Env) (entries entries' : List Entry) : Prop where
  ids : env'.ids = env.ids
  calls : env'.calls.map Call.uid = env.calls.map Call.uid ++ (entries.filter Entry.isPending).map Entry.uid
  names : entries'.map Entry.id = entries.map Entry.id
  statuses : ∀ entry ∈ entries', entry.isPending = false ∧ entry.status ≠ CString.ofString "running"
  reports : ∀ report ∈ env'.reports, report ∈ env.reports ∨ report.phase ≠ CString.ofString "Succeeded"

theorem Env.ids_updateStatus (env : Env) (entry : Entry) (phase : CString) :
    (env.updateStatus entry phase).ids = env.ids := by
  unfold Env.ids Env.updateStatus
  rw [List.map_map]
  refine List.map_congr_left fun pod _ => ?_
  rw [Function.comp_apply]
  split <;> rfl

theorem mem_reports_updateStatus {phase : CString} (hphase : phase ≠ CString.ofString "Succeeded") :
    ∀ report ∈ (env.updateStatus entry phase).reports,
      report ∈ env.reports ∨ report.phase ≠ CString.ofString "Succeeded" := by
  intro report hreport
  rcases List.mem_append.mp hreport with hreport | hreport
  · exact .inl hreport
  · rw [List.mem_singleton.mp hreport]
    exact .inr hphase

theorem Entry.settled_transition {status : CString} (hpending : status ≠ CString.ofString "pending")
    (hrunning : status ≠ CString.ofString "running") :
    (entry.transition status).isPending = false ∧ (entry.transition status).status ≠ CString.ofString "running" :=
  ⟨beq_eq_false_iff_ne.mpr hpending, hrunning⟩

theorem synced_syncEntry (answer : Answer) (env : Env) (hstatus : entry.status ≠ CString.ofString "running") :
    Synced env (syncEntry answer env entry).1 [entry] [(syncEntry answer env entry).2] := by
  unfold syncEntry
  by_cases hpending : entry.status = CString.ofString "pending"
  · have hfilter : [entry].filter Entry.isPending = [entry] :=
      List.filter_cons_of_pos (beq_iff_eq.mpr hpending)
    rw [if_pos hpending]
    unfold Env.spawnVm
    by_cases hret : answer.ret = 0
    · simp only [if_pos hret, if_true]
      exact {
        ids := Env.ids_updateStatus _ _ _
        calls := by rw [hfilter]; exact List.map_append
        names := rfl
        statuses := List.forall_mem_singleton.mpr (Entry.settled_transition (by decide) (by decide))
        reports := mem_reports_updateStatus (by decide) }
    · simp only [if_neg hret]
      exact {
        ids := Env.ids_updateStatus _ _ _
        calls := by rw [hfilter]; exact List.map_append
        names := rfl
        statuses := List.forall_mem_singleton.mpr (Entry.settled_transition (by decide) (by decide))
        reports := mem_reports_updateStatus (by decide) }
  · have hnot : entry.isPending = false := beq_eq_false_iff_ne.mpr hpending
    rw [if_neg hpending, if_neg hstatus]
    exact {
      ids := rfl
      calls := by rw [List.filter_cons_of_neg (by rw [hnot]; decide)]; exact (List.append_nil _).symm
      names := rfl
      statuses := List.forall_mem_singleton.mpr ⟨hnot, hstatus⟩
      reports := fun _ hreport => .inl hreport }

/-- Two stretches of the loop. -/
theorem Synced.trans {mid : Env} (h : Synced env mid [entry] [entry']) (h' : Synced mid env' entries entries') :
    Synced env env' (entry :: entries) (entry' :: entries') where
  ids := h'.ids.trans h.ids
  calls := by
    rw [h'.calls, h.calls, List.append_assoc, ← List.map_append, ← List.filter_append, List.singleton_append]
  names := by
    rw [List.map_cons, List.map_cons, h'.names, List.head_eq_of_cons_eq h.names]
  statuses := List.forall_mem_cons.mpr ⟨h.statuses _ List.mem_cons_self, h'.statuses⟩
  reports := by
    intro report hreport
    rcases h'.reports report hreport with hmid | hphase
    · exact h.reports report hmid
    · exact .inr hphase

theorem synced_syncLoop (answer : Nat → Answer) (i : Nat) (env : Env)
    (hstatus : ∀ entry ∈ entries, entry.status ≠ CString.ofString "running") :
    Synced env (syncLoop answer i env entries).1 entries (syncLoop answer i env entries).2 := by
  induction entries generalizing i env with
  | nil => exact ⟨rfl, (List.append_nil _).symm, rfl, nofun, fun _ hreport => .inl hreport⟩
  | cons entry entries ih =>
    rw [List.forall_mem_cons] at hstatus
    exact (synced_syncEntry (answer i) env hstatus.1).trans (ih (i + 1) _ hstatus.2)

/-! ## The invariant -/

def World.trackedIds (s : World) : List (Nat × CString × CString) := s.tracked.map Entry.id

/-- **Every pod that was seen pending is tracked**, once and under its name, and a VM was asked for those that are not
pending any more. -/
structure Inv (s : World) : Prop where
  keys : (s.env.ids.map Prod.snd).Nodup
  uids : (s.env.ids.map Prod.fst).Nodup
  old : ∀ uid, uid ∈ s.env.ids.map Prod.fst ∨ uid ∈ s.seen → uid < s.nextUid
  tracked : (s.trackedIds.map Prod.fst).Nodup
  seen : ∀ uid, uid ∈ s.seen ↔ uid ∈ s.trackedIds.map Prod.fst
  named : ∀ id ∈ s.env.ids, id.1 ∈ s.seen → id ∈ s.trackedIds
  statuses : ∀ entry ∈ s.tracked, entry.status ≠ CString.ofString "running"
  calls : (s.env.calls.map Call.uid).Perm ((s.tracked.filter fun entry => !entry.isPending).map Entry.uid)
  reports : ∀ report ∈ s.env.reports, report.phase ≠ CString.ofString "Succeeded"

theorem inv_init : Inv World.init :=
  ⟨List.nodup_nil, List.nodup_nil, by simp [World.init, Env.ids], List.nodup_nil, by simp [World.init, World.trackedIds],
    nofun, nofun, List.Perm.refl _, nofun⟩

theorem map_uid_eq (entries : List Entry) : entries.map Entry.uid = (entries.map Entry.id).map Prod.fst := by
  rw [List.map_map]
  rfl

/-- The pods whose name is another one. -/
theorem ids_filter (api : List ApiPod) (key : CString × CString) :
    (api.filter fun pod => pod.key ≠ key).map (fun pod => (pod.uid, pod.key)) =
      (api.map fun pod => (pod.uid, pod.key)).filter fun id => id.2 ≠ key := by
  rw [List.filter_map]
  rfl

theorem Inv.delete (h : Inv s) (ns name : CString) : Inv (step s (.delete ns name)) := by
  have hids : (step s (.delete ns name)).env.ids = s.env.ids.filter fun id => id.2 ≠ (ns, name) :=
    ids_filter s.env.api (ns, name)
  have hsub : (step s (.delete ns name)).env.ids.Sublist s.env.ids := hids ▸ List.filter_sublist
  exact { h with
    keys := h.keys.sublist (hsub.map _)
    uids := h.uids.sublist (hsub.map _)
    old := fun uid huid => h.old uid (huid.imp_left fun hmem => (hsub.map _).mem hmem)
    named := fun id hid => h.named id (hsub.mem hid) }

theorem Inv.create (h : Inv s) (ns name image : CString) (memory cpu : Option CString) (phase : CString) :
    Inv (step s (.create ns name image memory cpu phase)) := by
  have hids : (step s (.create ns name image memory cpu phase)).env.ids =
      (s.env.ids.filter fun id => id.2 ≠ (ns, name)) ++ [(s.nextUid, ns, name)] := by
    change ((s.env.api.filter fun pod => pod.key ≠ (ns, name)) ++ _).map (fun pod => (pod.uid, pod.key)) = _
    rw [List.map_append, ids_filter]
    rfl
  have hsub : (s.env.ids.filter fun id => id.2 ≠ (ns, name)).Sublist s.env.ids := List.filter_sublist
  have hnew : s.nextUid ∉ s.env.ids.map Prod.fst := fun hmem => Nat.lt_irrefl _ (h.old _ (.inl hmem))
  refine { h with keys := ?_, uids := ?_, old := ?_, named := ?_ }
  · rw [hids]
    refine List.nodup_map_concat.mpr ⟨fun hmem => ?_, h.keys.sublist (hsub.map _)⟩
    obtain ⟨id, hid, heq⟩ := List.mem_map.mp hmem
    exact of_decide_eq_true (List.mem_filter.mp hid).2 heq
  · rw [hids]
    exact List.nodup_map_concat.mpr ⟨fun hmem => hnew ((hsub.map _).mem hmem), h.uids.sublist (hsub.map _)⟩
  · intro uid huid
    rw [hids, List.map_append, List.mem_append, List.map_singleton, List.mem_singleton] at huid
    rcases huid with (hmem | rfl) | hseen
    · exact Nat.lt_succ_of_lt (h.old uid (.inl ((hsub.map _).mem hmem)))
    · exact Nat.lt_succ_self _
    · exact Nat.lt_succ_of_lt (h.old uid (.inr hseen))
  · intro id hid hseen
    rw [hids, List.mem_append, List.mem_singleton] at hid
    rcases hid with hid | rfl
    · exact h.named id (hsub.mem hid) hseen
    · exact absurd (h.old _ (.inr hseen)) (Nat.lt_irrefl _)

theorem World.fresh_eq (s : World) :
    s.fresh = s.env.items.filter fun pod => decide (pod.uid ∉ s.seen) && pod.awaits := by
  rw [World.fresh, Env.visible, List.filter_filter]

/-- **A respectful fetch** tracks the pods that it sees for the first time. -/
theorem Inv.tracked_fetchPods (h : Inv s) (hr : Respectful s .fetch) :
    s.fetchPods.tracked = s.tracked ++ s.fresh.map ApiPod.entry := by
  have hsub : s.env.items.Sublist s.env.api := List.filter_sublist
  have hkeys : (s.env.api.map ApiPod.key).Nodup := by
    have hnodup := h.keys
    rwa [Env.ids, List.map_map] at hnodup
  have hdefault : ∀ pod ∈ s.env.items, pod.ns.length ≤ 255 := by
    intro pod hpod
    rw [beq_iff_eq.mp (List.mem_filter.mp hpod).2]
    decide
  have hfresh : ∀ pod ∈ s.env.items, (decide (pod.uid ∉ s.seen) && pod.awaits) = true → pod ∈ s.fresh := by
    intro pod hpod hnew
    rw [s.fresh_eq]
    exact List.mem_filter.mpr ⟨hpod, hnew⟩
  rw [World.fetchPods, s.fresh_eq]
  refine foldl_track (hkeys.sublist (hsub.map _)) ?_ ?_ ?_ ?_
  · intro pod hpod hnew
    exact ⟨(Bool.and_eq_true_iff.mp hnew).2, hdefault pod hpod, (hr.1 pod (hfresh pod hpod hnew)).1⟩
  · intro pod hpod hnew entry hentry
    rw [← Bool.not_eq_true, Entry.isOf_iff]
    exact fun hsame => (hr.1 pod (hfresh pod hpod hnew)).2 entry hentry (congrArg Prod.snd hsame)
  · intro pod hpod hnew hawaits
    rw [hawaits, Bool.and_true, decide_eq_false_iff_not, not_not] at hnew
    have hid := h.named (pod.uid, pod.key) (List.mem_map_of_mem (hsub.mem hpod)) hnew
    obtain ⟨entry, hentry, heq⟩ := List.mem_map.mp hid
    exact ⟨entry, hentry, Entry.isOf_iff.mpr (congrArg Prod.snd heq)⟩
  · rw [← s.fresh_eq]
    exact hr.2

theorem World.mem_fresh : pod ∈ s.fresh ↔ pod ∈ s.env.visible ∧ pod.uid ∉ s.seen := by
  rw [World.fresh, List.mem_filter, decide_eq_true_iff]

theorem Env.visible_sublist (env : Env) : env.visible.Sublist env.api := List.filter_sublist.trans List.filter_sublist

theorem Inv.trackedIds_fetchPods (h : Inv s) (hr : Respectful s .fetch) :
    s.fetchPods.trackedIds = s.trackedIds ++ s.fresh.map fun pod => (pod.uid, pod.key) := by
  rw [World.trackedIds, h.tracked_fetchPods hr, List.map_append, List.map_map]
  refine congrArg _ (List.map_congr_left fun pod hpod => ?_)
  have hvisible := List.mem_filter.mp (World.mem_fresh.mp hpod).1
  have hns : pod.ns = CString.ofString "default" := beq_iff_eq.mp (List.mem_filter.mp hvisible.1).2
  exact ApiPod.entry_id (by rw [hns]; decide) (hr.1 pod hpod).1

theorem Inv.fetch (h : Inv s) (hr : Respectful s .fetch) : Inv s.fetchPods := by
  have hids := h.trackedIds_fetchPods hr
  have hfreshUids : (s.fresh.map fun pod => (pod.uid, pod.key)).map Prod.fst = s.fresh.map ApiPod.uid := by
    rw [List.map_map]
    rfl
  have hapiUids : s.env.ids.map Prod.fst = s.env.api.map ApiPod.uid := by
    rw [Env.ids, List.map_map]
    rfl
  have hsub : s.fresh.Sublist s.env.api := List.filter_sublist.trans s.env.visible_sublist
  have hseen : ∀ uid, uid ∈ s.fetchPods.seen ↔ uid ∈ s.seen ∨ uid ∈ s.fresh.map ApiPod.uid := by
    intro uid
    rw [World.fetchPods, List.mem_append]
    by_cases hold : uid ∈ s.seen
    · exact iff_of_true (.inl hold) (.inl hold)
    · refine or_congr_right ?_
      simp only [List.mem_map, World.mem_fresh]
      constructor
      · rintro ⟨pod, hpod, rfl⟩
        exact ⟨pod, ⟨hpod, hold⟩, rfl⟩
      · rintro ⟨pod, ⟨hpod, -⟩, rfl⟩
        exact ⟨pod, hpod, rfl⟩
  constructor
  case keys => exact h.keys
  case uids => exact h.uids
  case old =>
    rintro uid (hmem | hmem)
    · exact h.old uid (.inl hmem)
    · rcases (hseen uid).mp hmem with hold | hfresh
      · exact h.old uid (.inr hold)
      · exact h.old uid (.inl (hapiUids ▸ (hsub.map _).mem hfresh))
  case tracked =>
    rw [hids, List.map_append, hfreshUids, List.nodup_append]
    refine ⟨h.tracked, (hapiUids ▸ h.uids).sublist (hsub.map _), fun uid hold other hfresh heq => ?_⟩
    obtain ⟨pod, hpod, rfl⟩ := List.mem_map.mp hfresh
    exact (World.mem_fresh.mp hpod).2 ((h.seen _).mpr (heq ▸ hold))
  case seen =>
    intro uid
    rw [hseen, h.seen, hids, List.map_append, List.mem_append, hfreshUids]
  case named =>
    intro id hid hmem
    rw [hids, List.mem_append]
    rcases (hseen id.1).mp hmem with hold | hfresh
    · exact .inl (h.named id hid hold)
    · obtain ⟨pod, hpod, heq⟩ := List.mem_map.mp hfresh
      have hpodId : (pod.uid, pod.key) ∈ s.env.ids := List.mem_map_of_mem (hsub.mem hpod)
      have hsame : (pod.uid, pod.key) = id := List.inj_on_of_nodup_map h.uids hpodId hid heq
      exact .inr (hsame ▸ List.mem_map_of_mem hpod)
  case statuses =>
    intro entry hentry
    rw [h.tracked_fetchPods hr, List.mem_append] at hentry
    rcases hentry with hold | hnew
    · exact h.statuses entry hold
    · obtain ⟨pod, -, rfl⟩ := List.mem_map.mp hnew
      exact show CString.ofString "pending" ≠ CString.ofString "running" by decide
  case calls =>
    have hnone : ((s.fresh.map ApiPod.entry).filter fun entry => !entry.isPending) = [] := by
      refine List.filter_eq_nil_iff.mpr fun entry hentry => ?_
      obtain ⟨pod, -, rfl⟩ := List.mem_map.mp hentry
      exact show ¬ (!(CString.ofString "pending" == CString.ofString "pending")) = true by decide
    rw [h.tracked_fetchPods hr, List.filter_append, hnone, List.append_nil]
    exact h.calls
  case reports => exact h.reports

/-! ## A sync, from a state of the invariant -/

theorem Inv.synced (h : Inv s) (answer : Nat → Answer) :
    Synced s.env (s.syncStates answer).env s.tracked (s.syncStates answer).tracked :=
  synced_syncLoop answer 0 s.env h.statuses

/-- **After a sync** a VM was asked for each tracked pod. -/
theorem Inv.calls_syncStates (h : Inv s) (answer : Nat → Answer) :
    ((s.syncStates answer).env.calls.map Call.uid).Perm (s.trackedIds.map Prod.fst) := by
  have hsplit := (List.filter_append_perm Entry.isPending s.tracked).map Entry.uid
  rw [List.map_append] at hsplit
  rw [(h.synced answer).calls, World.trackedIds, ← map_uid_eq]
  exact ((h.calls.append_right _).trans List.perm_append_comm).trans hsplit

theorem Inv.sync (h : Inv s) (answer : Nat → Answer) : Inv (s.syncStates answer) := by
  have hsynced := h.synced answer
  have hids : (s.syncStates answer).trackedIds = s.trackedIds := hsynced.names
  constructor
  case keys => exact hsynced.ids ▸ h.keys
  case uids => exact hsynced.ids ▸ h.uids
  case old => exact hsynced.ids ▸ h.old
  case tracked => exact hids ▸ h.tracked
  case seen => exact hids ▸ h.seen
  case named => exact hsynced.ids ▸ hids ▸ h.named
  case statuses => exact fun entry hentry => (hsynced.statuses entry hentry).2
  case calls =>
    have hall : ((s.syncStates answer).tracked.filter fun entry => !entry.isPending) = (s.syncStates answer).tracked :=
      List.filter_eq_self.mpr fun entry hentry => by rw [(hsynced.statuses entry hentry).1]; rfl
    have hcalls := h.calls_syncStates answer
    rw [← hids, World.trackedIds, ← map_uid_eq] at hcalls
    rwa [hall]
  case reports =>
    intro report hreport
    rcases hsynced.reports report hreport with hold | hphase
    · exact h.reports report hold
    · exact hphase

/-- **A sync is right, exactly** if no VM of a pod that was reported running has ended. -/
theorem right_sync_iff (h : Inv s) {answer : Nat → Answer} : Right s (.sync answer) ↔ Respectful s (.sync answer) := by
  have hcalls : ∀ uid, (s.syncStates answer).env.spawns uid = if uid ∈ s.seen then 1 else 0 := by
    intro uid
    rw [Env.spawns, (h.calls_syncStates answer).count_eq, h.tracked.count]
    simp only [h.seen]
  constructor
  · rintro ⟨-, hends⟩ vm hvm hexited hrunning
    exact (h.sync answer).reports _ (hends vm hvm hexited hrunning) rfl
  · intro hnone
    exact ⟨hcalls, fun vm hvm hexited hrunning => absurd hrunning (hnone vm hvm hexited)⟩

/-! ## Main result -/

theorem Inv.step {op : Op} (h : Inv s) (hr : Respectful s op) : Inv (step s op) := by
  cases op with
  | create ns name image memory cpu phase => exact h.create ns name image memory cpu phase
  | delete ns name => exact h.delete ns name
  | exit i => exact { h with }
  | fetch => exact h.fetch hr
  | sync answer => exact h.sync answer

theorem Inv.right {op : Op} (h : Inv s) (hr : Respectful s op) : Right s op := by
  cases op with
  | sync answer => exact (right_sync_iff h).mpr hr
  | _ => trivial

/-- **Every pod gets one VM**, and no end is missed, in every run of respectful steps. -/
theorem right_of_fresh_names {ops : List Op} (h : AllSteps step Respectful World.init ops) :
    AllSteps step Right World.init ops :=
  allSteps_of_kept (fun _ _ hs hr => hs.step hr) (fun _ _ hs hr => hs.right hr) inv_init h

/-- A pod whose VM runs is deleted, and another one is created whose VM does not start. -/
def twoPods : List Op :=
  [.create "default" "a" "app.img" none none "Pending", .fetch, .sync fun _ => ⟨0, 42⟩, .delete "default" "a",
    .create "default" "b" "app.img" none none "Pending", .fetch, .sync fun _ => ⟨-1, 0⟩]

theorem right_twoPods : AllSteps step Right World.init twoPods :=
  right_of_fresh_names (by decide)

/-! ## The end of a VM -/

/-- A pod whose VM ends after the first pass. -/
def oneEnd : List Op :=
  [.create "default" "a" "app.img" none none "Pending", .fetch, .sync fun _ => ⟨0, 42⟩, .exit 0, .fetch, .sync fun _ => ⟨0, 43⟩]

/-- **The end is not noticed.** -/
theorem end_unnoticed : ¬ ∀ ops, AllStates step (fun s => s.env.api.length ≤ 100) World.init ops →
    AllSteps step Right World.init ops := by
  intro h
  obtain ⟨-, -, -, -, -, ⟨-, hends⟩, -⟩ := h oneEnd (by decide)
  exact absurd (hends ⟨0, 42, true⟩ List.mem_cons_self rfl (by decide)) (by decide)

end Sirah.PodController
