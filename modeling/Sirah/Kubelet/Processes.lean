import Sirah.Kubelet.UnikernelRuntime

/-!
# The processes of the virtual machines

Whom the processes that `sirah/internal/kubelet/qemu_manager.c` forks belong to. A process that is neither waited for
nor kept by a virtual machine is lost to the kubelet, and so is a virtual machine that counts on a process of another.

* `Owned`: the processes that were not waited for are those of the virtual machines that are on.
* `Forks`: `fork` does not give the number of a process that was not waited for. It may give one that is free again.
* `Spares`: no kill means a virtual machine that has stopped and whose old process number another process has got.
* **`processes_owned_iff`**: in a run in which `fork` behaves, the processes are owned in every state **iff** every kill
  spares the others. `qemu_kill_vm` keeps the process number and signals it again: `kill_takes_another` is a run that
  does not.
* `Kept.shutdown`: after such a run `unikernel_runtime_shutdown` leaves no process and no virtual machine that is on.
-/

namespace Sirah.UnikernelRuntime

open Runs KeyedQueues

/-! ## Owners -/

/-- Has it a process? -/
def Vm.isOn (vm : Vm) : Bool := decide (vm.state = .running ∨ vm.state = .paused)

/-- The processes of the virtual machines that are on. -/
def live (vms : List Vm) : List Int := (vms.filter Vm.isOn).map Vm.qemuPid

/-- **Every process has its virtual machine**, and every virtual machine that is on its process. -/
def Owned (s : Runtime) : Prop := (live s.vms).Perm s.children

/-- `fork` gives a new number. -/
def Forks (s : Runtime) : Call → Prop
  | .run _ forked => forked ∉ s.children
  | _ => True

/-- The virtual machine that a call of a container means. -/
def Runtime.called (s : Runtime) (id : CString) : Option Vm :=
  (s.findContainer id).bind fun _ => (s.findVm id).map fun found => found.2.1

/-- Does the virtual machine count on a process of another? -/
def Runtime.stale (s : Runtime) (vm : Vm) : Bool := decide (vm.state = .stopped ∧ vm.qemuPid ∈ s.children)

/-- **A kill spares the others.** -/
def Spares (s : Runtime) : Call → Prop
  | .kill id => (s.called id).any s.stale = false
  | _ => True

instance : DecidablePred Owned := fun s => inferInstanceAs (Decidable ((live s.vms).Perm s.children))

instance Forks.decidable (s : Runtime) : ∀ call, Decidable (Forks s call)
  | .run _ forked => inferInstanceAs (Decidable (forked ∉ s.children))
  | .create .. | .stop .. | .kill _ | .remove _ | .pause .. | .resume .. | .inspect _ | .runtimeStats | .qemuStats =>
    inferInstanceAs (Decidable True)

instance Spares.decidable (s : Runtime) : ∀ call, Decidable (Spares s call)
  | .kill id => inferInstanceAs (Decidable ((s.called id).any s.stale = false))
  | .create .. | .run .. | .stop .. | .remove _ | .pause .. | .resume .. | .inspect _ | .runtimeStats | .qemuStats =>
    inferInstanceAs (Decidable True)

/-! ## What a call does to the processes -/

/-- **What a call does to the processes**: nothing, start one, end one, or take one from another virtual machine. -/
inductive Effect (s : Runtime) (call : Call) (s' : Runtime) : Prop where
  | still (hlive : live s'.vms = live s.vms) (hchildren : s'.children = s.children) (hspares : Spares s call)
  | started (id : CString) (pid : Int) (hcall : call = .run id pid) (hpid : 0 < pid)
    (hlive : (live s'.vms).Perm (pid :: live s.vms)) (hchildren : s'.children = s.children ++ [pid])
  | ended (pid : Int) (hlive : (live s.vms).Perm (pid :: live s'.vms)) (hchildren : s'.children = s.reap pid)
    (hspares : Spares s call)
  | taken (pid : Int) (hlive : live s'.vms = live s.vms) (hchildren : s'.children = s.reap pid)
    (hspares : Spares s call ↔ pid ∉ s.children)

section Live

variable {pre post : List Vm} {vm vm' : Vm}

/-- A virtual machine goes on. -/
theorem live_on (hvm : vm.isOn = false) (hvm' : vm'.isOn = true) :
    (live (pre ++ vm' :: post)).Perm (vm'.qemuPid :: live (pre ++ vm :: post)) :=
  (List.filter_replace_perm pre post hvm hvm').map Vm.qemuPid

/-- A virtual machine changes that is off and stays so. -/
theorem live_off (hvm : vm.isOn = false) (hvm' : vm'.isOn = false) : live (pre ++ vm' :: post) = live (pre ++ vm :: post) := by
  rw [live, live, List.filter_replace_of_not hvm hvm']

/-- One that is on keeps its process. -/
theorem live_kept (hvm : vm.isOn = true) (hvm' : vm'.isOn = true) (hpid : vm'.qemuPid = vm.qemuPid) :
    live (pre ++ vm' :: post) = live (pre ++ vm :: post) := by
  simp [live, hvm, hvm', hpid]

/-- A virtual machine that is off goes. -/
theorem live_gone (hvm : vm.isOn = false) : live (pre ++ post) = live (pre ++ vm :: post) := by
  simp [live, hvm]

end Live

section Effects

variable {s : Runtime} {n : Node} {id : CString} {pre post : List Container} {c : Container}
  {pre' post' : List Guest} {g : Guest} {preV postV : List Vm} {vm : Vm}

/-- The virtual machine of a guest is on if the guest is. -/
theorem Backed.isOn (h : Backed g vm) : vm.isOn = g.phase.isOn := by
  rw [Vm.isOn, h.state]
  cases g.phase <;> rfl

theorem Located.called (h : Located s n id pre c post pre' g post' preV vm postV) : s.called id = some vm := by
  rw [Runtime.called, h.container, Option.bind_some, h.machine, Option.map_some]

/-- Nothing is meant. -/
theorem called_of_none (h : s.findContainer id = none) : s.called id = none := by
  rw [Runtime.called, h, Option.bind_none]

theorem effect_create (podName ns : CString) (now : Int) (found foundAgain : Bool) :
    Effect s (.create podName ns now found foundAgain) (s.containerCreate podName ns now found foundAgain).2 := by
  rw [Runtime.containerCreate]
  split
  · exact .still rfl rfl trivial
  · split
    · exact .still rfl rfl trivial
    · by_cases hfull : s.vms.length ≥ 100
      · simp only [Runtime.qemuCreateVm, if_pos hfull]
        exact .still rfl rfl trivial
      · cases foundAgain with
        | false =>
          simp only [Runtime.qemuCreateVm, if_neg hfull, if_true]
          exact .still rfl rfl trivial
        | true =>
          simp only [Runtime.qemuCreateVm, if_neg hfull, Bool.true_eq_false, if_false]
          refine .still ?_ rfl trivial
          simp [live, Vm.isOn]

variable (h : Refines s n)
include h

theorem effect_run (id : CString) (forked : Int) : Effect s (.run id forked) (s.containerRun id forked).2 := by
  obtain ⟨hc, -⟩ | ⟨pre, c, post, pre', g, post', preV, vm, postV, hl⟩ := h.located id
  · rw [Runtime.containerRun, hc]
    exact .still rfl rfl trivial
  · rw [hl.containerRun]
    split
    · exact .still rfl rfl trivial
    · next hboth =>
      obtain ⟨hoff, hforked⟩ := not_or.mp hboth
      have hvm : vm.isOn = false := by
        rw [hl.backed.isOn]
        exact Bool.eq_false_iff.mpr hoff
      refine .started id forked rfl (not_not.mp hforked) ?_ rfl
      rw [hl.lists.2.2]
      exact live_on hvm rfl

theorem effect_stop (id : CString) (timeoutSec : Int) (exit : Option (Nat × Option Int)) :
    Effect s (.stop id timeoutSec exit) (s.containerStop id timeoutSec exit).2 := by
  obtain ⟨hc, -⟩ | ⟨pre, c, post, pre', g, post', preV, vm, postV, hl⟩ := h.located id
  · rw [Runtime.containerStop, hc]
    exact .still rfl rfl trivial
  · rw [hl.containerStop]
    split
    · next hon =>
      have hvm : vm.isOn = true := by rw [hl.backed.isOn, hon]
      refine .ended vm.qemuPid ?_ rfl trivial
      rw [hl.lists.2.2]
      exact live_on rfl hvm
    · exact .still rfl rfl trivial

theorem effect_kill (hpos : ∀ pid ∈ s.children, 0 < pid) (id : CString) :
    Effect s (.kill id) (s.containerKill id).2 := by
  obtain ⟨hc, -⟩ | ⟨pre, c, post, pre', g, post', preV, vm, postV, hl⟩ := h.located id
  · rw [Runtime.containerKill, hc]
    exact .still rfl rfl (by rw [Spares, called_of_none hc, Option.any_none])
  · have hspares : Spares s (.kill id) ↔ ¬ (vm.state = .stopped ∧ vm.qemuPid ∈ s.children) := by
      rw [Spares, hl.called, Option.any_some, Runtime.stale, decide_eq_false_iff_not]
    rw [hl.containerKill]
    cases hon : vm.isOn with
    | true =>
      have hpid : vm.qemuPid > 0 := hl.backed.pid (hl.backed.isOn ▸ hon)
      have hstate : vm.state ≠ .stopped := by
        intro hstopped
        rw [Vm.isOn, hstopped] at hon
        cases hon
      refine .ended vm.qemuPid ?_ (if_pos hpid) (hspares.mpr fun hboth => hstate hboth.1)
      rw [hl.lists.2.2]
      exact live_on rfl hon
    | false =>
      have hlive : live (preV ++ { vm with state := .stopped, exitCode := if vm.qemuPid > 0 then -1 else vm.exitCode } :: postV) =
          live s.vms := by
        rw [hl.lists.2.2]
        exact live_off hon rfl
      by_cases hpid : vm.qemuPid > 0
      · have hstopped : vm.state = .stopped := by
          rw [hl.backed.state]
          cases hphase : g.phase with
          | fresh => rw [hl.backed.noPid hphase] at hpid; cases hpid
          | running => rw [hl.backed.isOn, hphase] at hon; cases hon
          | paused => rw [hl.backed.isOn, hphase] at hon; cases hon
          | ended => rfl
        refine .taken vm.qemuPid hlive (if_pos hpid) ?_
        rw [hspares]
        exact not_congr (and_iff_right hstopped)
      · exact .still hlive (if_neg hpid) (hspares.mpr fun hboth => hpid (hpos _ hboth.2))

theorem effect_remove (id : CString) : Effect s (.remove id) (s.containerRemove id).2 := by
  obtain ⟨hc, -⟩ | ⟨pre, c, post, pre', g, post', preV, vm, postV, hl⟩ := h.located id
  · rw [Runtime.containerRemove, hc]
    exact .still rfl rfl trivial
  · have hon := hl.backed.isOn
    rw [hl.containerRemove]
    cases hphase : g.phase with
    | running => exact .still rfl rfl trivial
    | paused => exact .still rfl rfl trivial
    | fresh => exact .still rfl rfl trivial
    | ended =>
      rw [hphase] at hon
      refine .still ?_ rfl trivial
      rw [hl.lists.2.2]
      exact live_gone hon

omit h in
/-- A signal that leaves a virtual machine on. -/
theorem effect_signal (call : Call) (hspares : Spares s call) (id : CString) {before after : VmState} (delivered : Bool)
    (hbefore : before = .running ∨ before = .paused) (hafter : after = .running ∨ after = .paused) :
    Effect s call (s.signalVm id before after delivered).2 := by
  rw [Runtime.signalVm]
  cases hvm : s.findVm id with
  | none => exact .still rfl rfl hspares
  | some found =>
    obtain ⟨preV, vm, postV⟩ := found
    dsimp only
    split
    · exact .still rfl rfl hspares
    · next hstate =>
      split
      · refine .still ?_ rfl hspares
        rw [(Runtime.findVm_some hvm).1]
        refine live_kept (decide_eq_true ?_) (decide_eq_true hafter) rfl
        rw [not_not.mp hstate]
        exact hbefore
      · exact .still rfl rfl hspares

/-- **Every call.** -/
theorem effect_step (hpos : ∀ pid ∈ s.children, 0 < pid) (call : Call) : Effect s call (next Runtime.step s call) := by
  cases call with
  | create podName ns now found foundAgain => exact effect_create podName ns now found foundAgain
  | run id forked => exact effect_run h id forked
  | stop id timeoutSec exit => exact effect_stop h id timeoutSec exit
  | kill id => exact effect_kill h hpos id
  | remove id => exact effect_remove h id
  | pause id delivered => exact effect_signal (.pause id delivered) trivial id delivered (.inl rfl) (.inr rfl)
  | resume id delivered => exact effect_signal (.resume id delivered) trivial id delivered (.inr rfl) (.inl rfl)
  | inspect id => exact .still rfl rfl trivial
  | runtimeStats => exact .still rfl rfl trivial
  | qemuStats => exact .still rfl rfl trivial

end Effects

/-! ## Each step -/

/-- What every run keeps in which `fork` behaves. -/
structure Kept (s : Runtime) : Prop where
  shows : ∃ n, Refines s n
  nodup : s.children.Nodup
  pos : ∀ pid ∈ s.children, 0 < pid

section Steps

variable {s : Runtime} {call : Call} {pid : Int}

theorem mem_reap {child : Int} : child ∈ s.reap pid ↔ child ∈ s.children ∧ child ≠ pid := by
  simp [Runtime.reap]

/-- **A process that is waited for** when its virtual machine goes off. -/
theorem Owned.reap {vms : List Vm} (h : Owned s) (hnodup : s.children.Nodup) (hlive : (live s.vms).Perm (pid :: live vms)) :
    (live vms).Perm (s.reap pid) := by
  have hperm : s.children.Perm (pid :: live vms) := h.symm.trans hlive
  have hnot : pid ∉ live vms := (List.nodup_cons.mp (hperm.nodup hnodup)).1
  have hkept : (pid :: live vms).filter (fun child => child ≠ pid) = live vms := by
    rw [List.filter_cons_of_neg (by simp), List.filter_eq_self]
    intro child hchild
    rw [decide_eq_true_eq]
    rintro rfl
    exact hnot hchild
  rw [← hkept]
  exact (hperm.filter _).symm

theorem Kept.reap {s' : Runtime} (h : Kept s) (hs' : ∃ n, Refines s' n) (hchildren : s'.children = s.reap pid) : Kept s' :=
  ⟨hs', hchildren ▸ h.nodup.filter _, fun child hchild => h.pos child (mem_reap.mp (hchildren ▸ hchild)).1⟩

theorem Kept.step (h : Kept s) (hforks : Forks s call) : Kept (next Runtime.step s call) := by
  obtain ⟨n, hn⟩ := h.shows
  have hs' : ∃ n', Refines (next Runtime.step s call) n' := ⟨_, (hn.step call).after⟩
  cases effect_step hn h.pos call with
  | still _ hchildren _ => exact ⟨hs', hchildren ▸ h.nodup, hchildren ▸ h.pos⟩
  | started id pid hcall hpid _ hchildren =>
    subst hcall
    refine ⟨hs', ?_, fun child hchild => ?_⟩
    · rw [hchildren]
      exact List.nodup_append.mpr ⟨h.nodup, List.nodup_singleton pid, fun a ha b hb => by
        rw [List.mem_singleton.mp hb]
        rintro rfl
        exact hforks ha⟩
    · rw [hchildren] at hchild
      obtain hold | hnew := List.mem_append.mp hchild
      · exact h.pos child hold
      · rw [List.mem_singleton.mp hnew]
        exact hpid
  | ended pid _ hchildren _ => exact h.reap hs' hchildren
  | taken pid _ hchildren _ => exact h.reap hs' hchildren

/-- **A call keeps the owners** exactly if it spares the others. -/
theorem owned_step_iff (h : Kept s) (howned : Owned s) : Owned (next Runtime.step s call) ↔ Spares s call := by
  obtain ⟨n, hn⟩ := h.shows
  cases effect_step hn h.pos call with
  | still hlive hchildren hspares =>
    rw [Owned, hlive, hchildren]
    exact iff_of_true howned hspares
  | started id pid hcall _ hlive hchildren =>
    subst hcall
    rw [Owned, hchildren]
    exact iff_of_true (hlive.trans ((howned.cons pid).trans (List.perm_append_singleton pid s.children).symm)) trivial
  | ended pid hlive hchildren hspares =>
    rw [Owned, hchildren]
    exact iff_of_true (howned.reap h.nodup hlive) hspares
  | taken pid hlive hchildren hspares =>
    rw [Owned, hlive, hchildren, hspares]
    constructor
    · intro hperm hmem
      have hmem' : pid ∈ s.reap pid := hperm.mem_iff.mp (howned.mem_iff.mpr hmem)
      exact (mem_reap.mp hmem').2 rfl
    · intro hnot
      have hsame : s.reap pid = s.children := by
        refine List.filter_eq_self.mpr fun child hchild => ?_
        rw [decide_eq_true_eq]
        rintro rfl
        exact hnot hchild
      rw [hsame]
      exact howned

end Steps

/-! ## The end -/

/-- What `waitpid` answers while a virtual machine is stopped. -/
abbrev Exit := Option (Nat × Option Int)

/-- A round of the loop of `unikernel_runtime_shutdown`. -/
def Runtime.stopContainerAt (exits : Nat → Exit) (s : Runtime) (i : Nat) : Runtime :=
  match s.containers[i]? with
  | none => s
  | some c => if c.running then (s.containerStop c.containerId 5 (exits i)).2 else s

/-- A round of the loop of `qemu_manager_shutdown`. -/
def Runtime.stopVmAt (exits : Nat → Exit) (s : Runtime) (i : Nat) : Runtime :=
  match s.vms[i]? with
  | none => s
  | some vm => (s.qemuStopVm vm.vmId 5 (exits i)).2

/-- `qemu_manager_shutdown`. -/
def Runtime.qemuManagerShutdown (s : Runtime) (exits : Nat → Exit) : Runtime :=
  (List.range s.vms.length).foldl (Runtime.stopVmAt exits) s

/-- `unikernel_runtime_shutdown`, with what `waitpid` answers in its own loop and in that of `qemu_manager_shutdown`. -/
def Runtime.shutdown (s : Runtime) (exits exits' : Nat → Exit) : Runtime :=
  ((List.range s.containers.length).foldl (Runtime.stopContainerAt exits) s).qemuManagerShutdown exits'

/-- **What the second loop relies on**: only the first virtual machine of an id is on, one that is on has a process, and one that
never ran has none. -/
structure Tidy (s : Runtime) : Prop where
  heads : ∀ id, ∀ vm ∈ (queue Vm.vmId id s.vms).tail, vm.isOn = false
  pid : ∀ vm ∈ s.vms, vm.isOn = true → 0 < vm.qemuPid
  noPid : ∀ vm ∈ s.vms, vm.state = .created → vm.qemuPid = 0
  owned : Owned s
  nodup : s.children.Nodup

section Shutdown

variable {s : Runtime} {exits : Nat → Exit} {id : CString} {pre post : List Vm} {vm : Vm}

theorem Vm.Unused.isOn (h : vm.Unused) : vm.isOn = false := by
  rw [Vm.isOn, h.state]
  rfl

/-- The virtual machines of one id. -/
theorem Backs.tidy {gs : List Guest} {vms : List Vm} (h : Backs gs vms) : (∀ vm ∈ vms.tail, vm.isOn = false) ∧
    ∀ vm ∈ vms, (vm.isOn = true → 0 < vm.qemuPid) ∧ (vm.state = .created → vm.qemuPid = 0) := by
  have hunused : ∀ {vms : List Vm}, (∀ vm ∈ vms, vm.Unused) →
      ∀ vm ∈ vms, (vm.isOn = true → 0 < vm.qemuPid) ∧ (vm.state = .created → vm.qemuPid = 0) := by
    intro vms hvms vm hvm
    refine ⟨fun hon => ?_, fun _ => (hvms vm hvm).pid⟩
    rw [(hvms vm hvm).isOn] at hon
    cases hon
  cases gs with
  | nil => exact ⟨fun vm hvm => (h vm (List.mem_of_mem_tail hvm)).isOn, hunused h⟩
  | cons g gs =>
    cases vms with
    | nil => exact h.elim
    | cons vm vms =>
      obtain ⟨hbacked, -, hvms, -⟩ := h
      refine ⟨fun vm' hvm' => (hvms vm' hvm').isOn, fun vm' hvm' => ?_⟩
      obtain rfl | hvm' := List.mem_cons.mp hvm'
      · refine ⟨fun hon => hbacked.pid (hbacked.isOn ▸ hon), fun hcreated => hbacked.noPid ?_⟩
        rw [hbacked.state] at hcreated
        revert hcreated
        cases g.phase <;> simp [Phase.vmState]
      · exact hunused hvms vm' hvm'

theorem Kept.tidy (h : Kept s) (howned : Owned s) : Tidy s := by
  obtain ⟨n, hn⟩ := h.shows
  have hvm : ∀ vm ∈ s.vms, (vm.isOn = true → 0 < vm.qemuPid) ∧ (vm.state = .created → vm.qemuPid = 0) :=
    fun vm hvm => (hn.paired vm.vmId).tidy.2 vm (mem_queue.mpr ⟨hvm, rfl⟩)
  exact ⟨fun id => (hn.paired id).tidy.1, fun vm hmem => (hvm vm hmem).1, fun vm hmem => (hvm vm hmem).2, howned, h.nodup⟩

/-- **`qemu_stop_vm`** on a virtual machine: it is off then, and its process is waited for if it was on. -/
theorem Tidy.qemuStopVm (h : Tidy s) (hvm : s.findVm id = some (pre, vm, post)) (timeoutSec : Int) (exit : Exit) :
    ∃ vm' children', (s.qemuStopVm id timeoutSec exit).2 = ⟨pre ++ vm' :: post, s.containers, children'⟩ ∧
      vm'.vmId = vm.vmId ∧ vm'.state = .stopped ∧ children' = if vm.isOn then s.reap vm.qemuPid else s.children := by
  have hmem : vm ∈ s.vms := by
    rw [(Runtime.findVm_some hvm).1]
    exact List.mem_append_right pre List.mem_cons_self
  rw [Runtime.qemuStopVm, hvm]
  dsimp only
  split
  · next hstopped =>
    refine ⟨vm, s.children, ?_, rfl, hstopped, ?_⟩
    · rw [← (Runtime.findVm_some hvm).1]
    · rw [Vm.isOn, hstopped]
      rfl
  · next hstate =>
    by_cases hpid : vm.qemuPid > 0
    · have hon : vm.isOn = true := by
        rw [Vm.isOn, decide_eq_true_eq]
        cases hvmState : vm.state with
        | created => rw [h.noPid vm hmem hvmState] at hpid; cases hpid
        | running => exact .inl rfl
        | paused => exact .inr rfl
        | stopped => exact absurd hvmState hstate
      rw [if_pos hpid, if_pos hon]
      cases Runtime.exitInTime timeoutSec exit with
      | some exitCode => exact ⟨_, _, rfl, rfl, rfl, rfl⟩
      | none =>
        refine ⟨{ vm with state := .stopped, exitCode := -1 }, s.reap vm.qemuPid, ?_, rfl, rfl, rfl⟩
        simp [Runtime.qemuKillVm, hvm, hpid]
    · have hoff : ¬ vm.isOn = true := fun hon => hpid (h.pid vm hmem hon)
      rw [if_neg hpid, if_neg hoff]
      exact ⟨_, _, rfl, rfl, rfl, rfl⟩

/-- **A stop of one id**: no virtual machine of this id is on then, and the others are as they were. -/
theorem Tidy.stop (h : Tidy s) (id : CString) (timeoutSec : Int) (exit : Exit) :
    Tidy (s.qemuStopVm id timeoutSec exit).2 ∧
      (s.qemuStopVm id timeoutSec exit).2.vms.map Vm.vmId = s.vms.map Vm.vmId ∧
      ∀ vm ∈ (s.qemuStopVm id timeoutSec exit).2.vms, vm.isOn = true → vm ∈ s.vms ∧ vm.vmId ≠ id := by
  cases hfound : s.findVm id with
  | none =>
    have hnone : ∀ vm ∈ s.vms, vm.vmId ≠ id := fun vm hvm => of_decide_eq_false (List.splitFirst_eq_none.mp hfound vm hvm)
    rw [Runtime.qemuStopVm, hfound]
    exact ⟨h, rfl, fun vm hvm _ => ⟨hvm, hnone vm hvm⟩⟩
  | some found =>
    obtain ⟨pre, vm, post⟩ := found
    obtain ⟨hvms, hid, hqueue, hpre⟩ := Runtime.findVm_some hfound
    obtain ⟨vm', children', heq, hid', hstopped, rfl⟩ := h.qemuStopVm hfound timeoutSec exit
    rw [heq]
    have hoff : vm'.isOn = false := by
      rw [Vm.isOn, hstopped]
      rfl
    have hnot : ∀ vm'' ∈ pre ++ vm' :: post, vm''.isOn = true → vm'' ∈ pre ++ post := by
      intro vm'' hmem hon
      obtain rfl | hmem := List.mem_append_cons_iff.mp hmem
      · rw [hoff] at hon
        cases hon
      · exact hmem
    have hold : ∀ vm'' ∈ pre ++ post, vm'' ∈ s.vms := by
      rw [hvms]
      exact fun vm'' hmem => List.mem_append_cons_iff.mpr (.inr hmem)
    refine ⟨⟨fun k => ?_, fun vm'' hmem hon => h.pid vm'' (hold vm'' (hnot vm'' hmem hon)) hon, fun vm'' hmem hcreated => ?_,
      ?_, ?_⟩, ?_, fun vm'' hmem hon => ⟨hold vm'' (hnot vm'' hmem hon), fun hsame => ?_⟩⟩
    · by_cases hk : k = id
      · have htail := h.heads id
        rw [hqueue] at htail
        rw [hk, queue_replace hpre (hid'.trans hid)]
        exact htail
      · rw [queue_replace_of_ne hid (hid'.trans hid) hk, ← hvms]
        exact h.heads k
    · obtain rfl | hmem := List.mem_append_cons_iff.mp hmem
      · rw [hstopped] at hcreated
        cases hcreated
      · exact h.noPid vm'' (hold vm'' hmem) hcreated
    · split
      · next hon =>
        refine h.owned.reap h.nodup ?_
        rw [hvms]
        exact live_on hoff hon
      · next hon =>
        have hsame : live (pre ++ vm' :: post) = live s.vms := by
          rw [hvms]
          exact live_off (Bool.eq_false_iff.mpr hon) hoff
        rw [Owned, hsame]
        exact h.owned
    · split
      · exact h.nodup.filter _
      · exact h.nodup
    · rw [hvms, List.map_append, List.map_append, List.map_cons, List.map_cons, hid']
    · -- one of this id that is on would be the first one
      have hpost : vm'' ∈ queue Vm.vmId id post := by
        obtain hmem | hmem := List.mem_append.mp (hnot vm'' hmem hon)
        · have hin : vm'' ∈ queue Vm.vmId id pre := mem_queue.mpr ⟨hmem, hsame⟩
          rw [hpre] at hin
          cases hin
        · exact mem_queue.mpr ⟨hmem, hsame⟩
      have htail := h.heads id
      rw [hqueue] at htail
      rw [htail vm'' hpost] at hon
      cases hon

/-- **The second loop**: after some rounds no virtual machine is on of the ids that were looked at. -/
theorem Tidy.stopVms (h : Tidy s) (exits : Nat → Exit) {rounds : Nat} (hrounds : rounds ≤ s.vms.length) :
    Tidy ((List.range rounds).foldl (Runtime.stopVmAt exits) s) ∧
      ((List.range rounds).foldl (Runtime.stopVmAt exits) s).vms.map Vm.vmId = s.vms.map Vm.vmId ∧
      ∀ vm ∈ ((List.range rounds).foldl (Runtime.stopVmAt exits) s).vms, vm.isOn = true →
        vm.vmId ∉ (s.vms.map Vm.vmId).take rounds := by
  induction rounds with
  | zero =>
    refine ⟨h, rfl, fun vm _ _ => ?_⟩
    rw [List.take_zero]
    exact List.not_mem_nil
  | succ rounds ih =>
    obtain ⟨htidy, hids, hdone⟩ := ih (Nat.le_of_succ_le hrounds)
    rw [List.range_succ, List.foldl_append, List.foldl_cons, List.foldl_nil]
    generalize (List.range rounds).foldl (Runtime.stopVmAt exits) s = s' at htidy hids hdone
    have hlt : rounds < s'.vms.length := by
      have hlength := congrArg List.length hids
      rw [List.length_map, List.length_map] at hlength
      omega
    obtain ⟨vm, hvm⟩ : ∃ vm, s'.vms[rounds]? = some vm := ⟨_, List.getElem?_eq_getElem hlt⟩
    have hid : (s.vms.map Vm.vmId)[rounds]? = some vm.vmId := by
      rw [← hids, List.getElem?_map, hvm, Option.map_some]
    obtain ⟨htidy', hids', hoff⟩ := htidy.stop vm.vmId 5 (exits rounds)
    rw [Runtime.stopVmAt, hvm]
    refine ⟨htidy', hids'.trans hids, fun vm' hvm' hon => ?_⟩
    obtain ⟨hmem, hne⟩ := hoff vm' hvm' hon
    rw [List.take_add_one, hid, List.mem_append, not_or]
    exact ⟨hdone vm' hmem hon, fun hlast => hne (List.mem_singleton.mp hlast)⟩

/-- **The first loop** is a run of stops. -/
theorem Kept.stopContainers (h : Kept s) (howned : Owned s) (exits : Nat → Exit) (rounds : List Nat) :
    Kept (rounds.foldl (Runtime.stopContainerAt exits) s) ∧ Owned (rounds.foldl (Runtime.stopContainerAt exits) s) := by
  induction rounds generalizing s with
  | nil => exact ⟨h, howned⟩
  | cons i rounds ih =>
    rw [List.foldl_cons, Runtime.stopContainerAt]
    cases s.containers[i]? with
    | none => exact ih h howned
    | some c =>
      dsimp only
      split
      · have hforks : Forks s (.stop c.containerId 5 (exits i)) := trivial
        have hspares : Spares s (.stop c.containerId 5 (exits i)) := trivial
        exact ih (h.step hforks) ((owned_step_iff h howned).mpr hspares)
      · exact ih h howned

/-- **`unikernel_runtime_shutdown` leaves nothing**, whether a process ends in time or not. -/
theorem Kept.shutdown (h : Kept s) (howned : Owned s) (exits exits' : Nat → Exit) :
    (s.shutdown exits exits').children = [] ∧ ∀ vm ∈ (s.shutdown exits exits').vms, vm.isOn = false := by
  obtain ⟨hkept, howned⟩ := h.stopContainers howned exits (List.range s.containers.length)
  obtain ⟨htidy, hids, hdone⟩ := (hkept.tidy howned).stopVms exits' (Nat.le_refl _)
  have hoff : ∀ vm ∈ (s.shutdown exits exits').vms, vm.isOn = false := by
    intro vm hvm
    rw [← Bool.not_eq_true]
    intro hon
    refine hdone vm hvm hon ?_
    rw [List.take_of_length_le (by rw [List.length_map]), ← hids]
    exact List.mem_map_of_mem hvm
  refine ⟨?_, hoff⟩
  have hlive : live (s.shutdown exits exits').vms = [] := by
    rw [live, List.filter_eq_nil_iff.mpr fun vm hvm => Bool.not_eq_true _ ▸ hoff vm hvm, List.map_nil]
  exact List.perm_nil.mp (hlive ▸ htidy.owned.symm)

end Shutdown

/-! ## Whole runs -/

/-- **The processes are owned in every state of a run** in which `fork` behaves **iff** every kill spares the others, and
after such a run nothing is left by the shutdown. -/
theorem processes_owned_iff {calls : List Call} (h : AllSteps (next Runtime.step) Forks .init calls) :
    (AllStates (next Runtime.step) Owned .init calls ↔ AllSteps (next Runtime.step) Spares .init calls) ∧
      (AllSteps (next Runtime.step) Spares .init calls → ∀ exits exits' : Nat → Exit,
        ((run (next Runtime.step) .init calls).shutdown exits exits').children = [] ∧
          ∀ vm ∈ ((run (next Runtime.step) .init calls).shutdown exits exits').vms, vm.isOn = false) := by
  have hinit : Kept .init := ⟨⟨_, refines_init⟩, List.nodup_nil, nofun⟩
  have hkept : AllStates (next Runtime.step) Kept .init calls :=
    allStates_of_allSteps (fun _ _ hkept hforks => hkept.step hforks) hinit h
  have hiff : AllStates (next Runtime.step) Owned .init calls ↔ AllSteps (next Runtime.step) Spares .init calls :=
    allStates_iff_allSteps (fun _ _ hkept hforks => hkept.step hforks)
      (fun _ _ hkept _ howned => owned_step_iff hkept howned) hinit (List.Perm.refl []) h
  exact ⟨hiff, fun hspares => hkept.run_mem.shutdown (hiff.mpr hspares).run_mem⟩

/-- Two containers, the second of which gets the process number that the first one had, and a kill of the first. -/
def killLate : List Call :=
  [.create "web" "default" 7 true true, .run (generateVmId "web" "default" 7) 100,
    .stop (generateVmId "web" "default" 7) 5 (some (3, some 0)), .create "db" "default" 8 true true,
    .run (generateVmId "db" "default" 8) 100, .kill (generateVmId "web" "default" 7)]

theorem processes_owned_iff_late : (AllStates (next Runtime.step) Owned .init killLate ↔
    AllSteps (next Runtime.step) Spares .init killLate) ∧
      (AllSteps (next Runtime.step) Spares .init killLate → ∀ exits exits' : Nat → Exit,
        ((run (next Runtime.step) .init killLate).shutdown exits exits').children = [] ∧
          ∀ vm ∈ ((run (next Runtime.step) .init killLate).shutdown exits exits').vms, vm.isOn = false) :=
  processes_owned_iff (by decide)

/-- **A kill of a container that has stopped** ends the process of another one. -/
theorem kill_takes_another : ¬ AllStates (next Runtime.step) Owned .init killLate := by decide

end Sirah.UnikernelRuntime
