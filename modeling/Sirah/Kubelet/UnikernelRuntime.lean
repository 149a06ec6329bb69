import Sirah.Lib.CString
import Sirah.Lib.KeyedQueues
import Sirah.Lib.Signed
import Sirah.Lib.Simulation

/-!
# Containers and their virtual machines

Model of `sirah/internal/kubelet/unikernel_runtime.c` over `sirah/internal/kubelet/qemu_manager.c`: a table of
containers, and one of the virtual machines they run in. Both are searched by the id that `generate_vm_id` makes of the
namespace, the name of the pod and the time in seconds, so that two containers may have one id; a call means the first
of them.

* `Runtime` also has the processes that were forked and not waited for. What the operating system answers is part of a
  call: `access`, `fork`, `kill`, and how often `waitpid` is asked before the process has ended.
* `Node`: what the two tables are for. A guest is fresh until it runs, runs or pauses, and has ended with an exit code
  until it runs again. `lost` counts the guests that were removed while they were fresh.
* `Refines`: the containers are the guests, the first virtual machine of an id is in the state of the first guest, all
  others of this id are as they were created, and there is one for each guest and for each that is lost.
* **`runtime_refines`**: the runtime answers every run of calls as the node does. A guest that is lost takes its place
  for good: there is room for a new one **iff** guests and lost ones are fewer than a hundred.
-/

namespace Sirah.UnikernelRuntime

open Runs KeyedQueues

/-! ## The virtual machines -/

/-- `qemu_vm_state_t`, without the state that no call sets. -/
inductive VmState where
  | created
  | running
  | paused
  | stopped
  deriving DecidableEq

/-- `qemu_vm_t`, what the calls read. -/
structure Vm where
  vmId : CString
  qemuPid : Int
  state : VmState
  exitCode : Int
  deriving DecidableEq

/-- `unikernel_container_t`, what the calls read. -/
structure Container where
  containerId : CString
  running : Bool
  exitCode : Int
  deriving DecidableEq

/-- `g_qemu_manager` and `g_runtime`, and the processes that were forked and not waited for. -/
structure Runtime where
  vms : List Vm
  containers : List Container
  children : List Int
  deriving DecidableEq

/-- `unikernel_runtime_init` with the backend `"qemu"`. -/
def Runtime.init : Runtime := ⟨[], [], []⟩

/-- `generate_vm_id`: `"%s-%s-%ld"`. -/
def generateVmId (podName ns : CString) (now : Int) : CString :=
  CString.snprintf 256 (ns ++ 45 :: podName ++ 45 :: CString.ofInt now)

example : generateVmId "b-c" "a" 7 = generateVmId "c" "a-b" 7 := by decide

namespace Runtime

/-- `find_vm`, with what stands beside it. -/
def findVm (s : Runtime) (id : CString) : Option (List Vm × Vm × List Vm) :=
  s.vms.splitFirst fun vm => decide (vm.vmId = id)

/-- `find_container`, with what stands beside it. -/
def findContainer (s : Runtime) (id : CString) : Option (List Container × Container × List Container) :=
  s.containers.splitFirst fun c => decide (c.containerId = id)

/-- `qemu_create_vm`. -/
def qemuCreateVm (s : Runtime) (podName ns : CString) (now : Int) (found : Bool) : Option CString × Runtime :=
  if s.vms.length ≥ 100 then (none, s)
  else if found = false then (none, s)
  else
    let id := generateVmId podName ns now
    (some id, { s with vms := s.vms ++ [⟨id, 0, .created, -1⟩] })

/-- `qemu_start_vm`. -/
def qemuStartVm (s : Runtime) (id : CString) (forked : Int) : Int × Runtime :=
  match s.findVm id with
  | none => (-1, s)
  | some (pre, vm, post) =>
    if vm.state = .running then (0, s)
    else if forked > 0 then
      (0, { s with
        vms := pre ++ { vm with qemuPid := forked, state := .running } :: post
        children := s.children ++ [forked] })
    else (-1, s)

/-- A signal that takes a virtual machine from one state to another. -/
def signalVm (s : Runtime) (id : CString) (before after : VmState) (delivered : Bool) : Int × Runtime :=
  match s.findVm id with
  | none => (-1, s)
  | some (pre, vm, post) =>
    if vm.state ≠ before then (-1, s)
    else if delivered then (0, { s with vms := pre ++ { vm with state := after } :: post })
    else (-1, s)

/-- `qemu_pause_vm`. -/
def qemuPauseVm (s : Runtime) (id : CString) (delivered : Bool) : Int × Runtime :=
  s.signalVm id .running .paused delivered

/-- `qemu_resume_vm`. -/
def qemuResumeVm (s : Runtime) (id : CString) (delivered : Bool) : Int × Runtime :=
  s.signalVm id .paused .running delivered

/-- A process that was waited for. -/
def reap (s : Runtime) (pid : Int) : List Int := s.children.filter fun child => child ≠ pid

/-- `qemu_kill_vm`. -/
def qemuKillVm (s : Runtime) (id : CString) : Int × Runtime :=
  match s.findVm id with
  | none => (-1, s)
  | some (pre, vm, post) =>
    if vm.qemuPid > 0 then
      (0, { s with
        vms := pre ++ { vm with state := .stopped, exitCode := -1 } :: post
        children := s.reap vm.qemuPid })
    else (0, { s with vms := pre ++ { vm with state := .stopped } :: post })

/-- What the loop of `qemu_stop_vm` finds, which looks ten times a second: the exit code, if the process ends in time. The
answer is the number of looks before it has ended, and `WEXITSTATUS` unless a signal ended it. -/
def exitInTime (timeoutSec : Int) (exit : Option (Nat × Option Int)) : Option Int :=
  exit.bind fun e => if e.1 < (timeoutSec * 10).wrap32 then some (e.2.getD (-1)) else none

/-- `qemu_stop_vm`. -/
def qemuStopVm (s : Runtime) (id : CString) (timeoutSec : Int) (exit : Option (Nat × Option Int)) : Int × Runtime :=
  match s.findVm id with
  | none => (0, s)
  | some (pre, vm, post) =>
    if vm.state = .stopped then (0, s)
    else if vm.qemuPid > 0 then
      match exitInTime timeoutSec exit with
      | some exitCode =>
        (0, { s with
          vms := pre ++ { vm with state := .stopped, exitCode } :: post
          children := s.reap vm.qemuPid })
      | none => s.qemuKillVm id
    else (0, { s with vms := pre ++ { vm with state := .stopped } :: post })

/-- `qemu_delete_vm`. -/
def qemuDeleteVm (s : Runtime) (id : CString) : Int × Runtime :=
  match s.findVm id with
  | none => (-1, s)
  | some (pre, vm, post) =>
    if vm.state ≠ .stopped then (-1, s) else (0, { s with vms := pre ++ post })

/-- `qemu_get_stats`: how many there are, and how many run. -/
def qemuGetStats (s : Runtime) : Nat × Nat := (s.vms.length, s.vms.countP fun vm => decide (vm.state = .running))

/-! ## The containers -/

/-- `unikernel_container_create`. The image is looked for here and again for the virtual machine. -/
def containerCreate (s : Runtime) (podName ns : CString) (now : Int) (found foundAgain : Bool) : Option CString × Runtime :=
  if s.containers.length ≥ 1000 then (none, s)
  else if found = false then (none, s)
  else
    match s.qemuCreateVm podName ns now foundAgain with
    | (none, s') => (none, s')
    | (some vmId, s') => (some vmId, { s' with containers := s'.containers ++ [⟨vmId, false, -1⟩] })

/-- `unikernel_container_run`. -/
def containerRun (s : Runtime) (id : CString) (forked : Int) : Int × Runtime :=
  match s.findContainer id with
  | none => (-1, s)
  | some (pre, container, post) =>
    if container.running then (-1, s)
    else
      let r := s.qemuStartVm id forked
      if r.1 ≠ 0 then (-1, r.2)
      else (0, { r.2 with containers := pre ++ { container with running := true } :: post })

/-- `unikernel_container_stop`. -/
def containerStop (s : Runtime) (id : CString) (timeoutSec : Int) (exit : Option (Nat × Option Int)) : Int × Runtime :=
  match s.findContainer id with
  | none => (0, s)
  | some (pre, container, post) =>
    if container.running = false then (0, s)
    else
      let r := s.qemuStopVm id timeoutSec exit
      if r.1 ≠ 0 then (-1, r.2)
      else
        let exitCode := (r.2.findVm id).elim container.exitCode fun found => found.2.1.exitCode
        (0, { r.2 with containers := pre ++ { container with running := false, exitCode } :: post })

/-- `unikernel_container_kill`. -/
def containerKill (s : Runtime) (id : CString) : Int × Runtime :=
  match s.findContainer id with
  | none => (-1, s)
  | some (pre, container, post) =>
    let s' := (s.qemuKillVm id).2
    (0, { s' with containers := pre ++ { container with running := false, exitCode := -1 } :: post })

/-- `unikernel_container_remove`. -/
def containerRemove (s : Runtime) (id : CString) : Int × Runtime :=
  match s.findContainer id with
  | none => (-1, s)
  | some (pre, container, post) =>
    if container.running then (-1, s) else (0, { (s.qemuDeleteVm id).2 with containers := pre ++ post })

/-- `unikernel_container_inspect`: whether it runs, and its exit code. -/
def containerInspect (s : Runtime) (id : CString) : Option (Bool × Int) :=
  (s.findContainer id).map fun found => (found.2.1.running, found.2.1.exitCode)

/-- `unikernel_runtime_stats`: how many containers there are, and how many run. -/
def runtimeStats (s : Runtime) : Nat × Nat := (s.containers.length, s.containers.countP Container.running)

end Runtime

/-! ## Calls -/

/-- A call, with what the operating system answers. -/
inductive Call where
  | create (podName ns : CString) (now : Int) (found foundAgain : Bool)
  | run (id : CString) (forked : Int)
  | stop (id : CString) (timeoutSec : Int) (exit : Option (Nat × Option Int))
  | kill (id : CString)
  | remove (id : CString)
  | pause (id : CString) (delivered : Bool)
  | resume (id : CString) (delivered : Bool)
  | inspect (id : CString)
  | runtimeStats
  | qemuStats

/-- What a call returns. -/
inductive Outcome where
  | made (id : Option CString)
  | code (code : Int)
  | seen (info : Option (Bool × Int))
  | counts (total running : Nat)
  deriving DecidableEq

/-- The value a call returns, as its outcome. -/
def reply {α σ : Type} (outcome : α → Outcome) (r : α × σ) : Outcome × σ := (outcome r.1, r.2)

/-- A call of the runtime. -/
def Runtime.step (s : Runtime) : Call → Outcome × Runtime
  | .create podName ns now found foundAgain => reply .made (s.containerCreate podName ns now found foundAgain)
  | .run id forked => reply .code (s.containerRun id forked)
  | .stop id timeoutSec exit => reply .code (s.containerStop id timeoutSec exit)
  | .kill id => reply .code (s.containerKill id)
  | .remove id => reply .code (s.containerRemove id)
  | .pause id delivered => reply .code (s.qemuPauseVm id delivered)
  | .resume id delivered => reply .code (s.qemuResumeVm id delivered)
  | .inspect id => (.seen (s.containerInspect id), s)
  | .runtimeStats => (.counts s.runtimeStats.1 s.runtimeStats.2, s)
  | .qemuStats => (.counts s.qemuGetStats.1 s.qemuGetStats.2, s)

/-! ## What the two tables are for -/

/-- Where a guest is in its life. -/
inductive Phase where
  | fresh
  | running
  | paused
  | ended
  deriving DecidableEq

/-- Has it a process? -/
def Phase.isOn : Phase → Bool
  | .running | .paused => true
  | .fresh | .ended => false

/-- The state of its virtual machine. -/
def Phase.vmState : Phase → VmState
  | .fresh => .created
  | .running => .running
  | .paused => .paused
  | .ended => .stopped

/-- A guest, with the exit code of its last end. -/
structure Guest where
  id : CString
  phase : Phase
  exitCode : Int

/-- The guests, and how many were removed before they ran. -/
structure Node where
  guests : List Guest
  lost : Nat

namespace Node

/-- The first guest of an id, with what stands beside it. -/
def find (n : Node) (id : CString) : Option (List Guest × Guest × List Guest) :=
  n.guests.splitFirst fun g => decide (g.id = id)

/-- A node without guests. -/
def empty : Node := ⟨[], 0⟩

/-- There is room while guests and lost ones are fewer than a hundred. -/
def create (n : Node) (id : CString) (found : Bool) : Option CString × Node :=
  if n.guests.length + n.lost < 100 ∧ found = true then (some id, { n with guests := n.guests ++ [⟨id, .fresh, -1⟩] })
  else (none, n)

/-- A guest that is not on starts. -/
def run (n : Node) (id : CString) (forked : Int) : Int × Node :=
  match n.find id with
  | none => (-1, n)
  | some (pre, g, post) =>
    if g.phase.isOn = true ∨ ¬ forked > 0 then (-1, n)
    else (0, { n with guests := pre ++ { g with phase := .running } :: post })

/-- A guest that is on ends, with its own exit code if it ends in time. -/
def stop (n : Node) (id : CString) (exitCode : Option Int) : Int × Node :=
  match n.find id with
  | none => (0, n)
  | some (pre, g, post) =>
    if g.phase.isOn then (0, { n with guests := pre ++ { g with phase := .ended, exitCode := exitCode.getD (-1) } :: post })
    else (0, n)

/-- A guest ends. -/
def kill (n : Node) (id : CString) : Int × Node :=
  match n.find id with
  | none => (-1, n)
  | some (pre, g, post) => (0, { n with guests := pre ++ { g with phase := .ended, exitCode := -1 } :: post })

/-- A guest that is not on goes, and is lost if it is fresh. -/
def remove (n : Node) (id : CString) : Int × Node :=
  match n.find id with
  | none => (-1, n)
  | some (pre, g, post) =>
    match g.phase with
    | .running | .paused => (-1, n)
    | .fresh => (0, ⟨pre ++ post, n.lost + 1⟩)
    | .ended => (0, { n with guests := pre ++ post })

/-- A guest in one phase comes to another, if the signal is delivered. -/
def signal (n : Node) (id : CString) (before after : Phase) (delivered : Bool) : Int × Node :=
  match n.find id with
  | none => (-1, n)
  | some (pre, g, post) =>
    if g.phase = before ∧ delivered = true then (0, { n with guests := pre ++ { g with phase := after } :: post })
    else (-1, n)

/-- What a call does. -/
def step (n : Node) : Call → Outcome × Node
  | .create podName ns now found foundAgain => reply .made (n.create (generateVmId podName ns now) (found && foundAgain))
  | .run id forked => reply .code (n.run id forked)
  | .stop id timeoutSec exit => reply .code (n.stop id (Runtime.exitInTime timeoutSec exit))
  | .kill id => reply .code (n.kill id)
  | .remove id => reply .code (n.remove id)
  | .pause id delivered => reply .code (n.signal id .running .paused delivered)
  | .resume id delivered => reply .code (n.signal id .paused .running delivered)
  | .inspect id => (.seen ((n.find id).map fun found => (found.2.1.phase.isOn, found.2.1.exitCode)), n)
  | .runtimeStats => (.counts n.guests.length (n.guests.countP fun g => g.phase.isOn), n)
  | .qemuStats => (.counts (n.guests.length + n.lost) (n.guests.countP fun g => decide (g.phase = .running)), n)

end Node

/-! ## How they show it -/

/-- What a container has in common with its guest. -/
def Container.face (c : Container) : CString × Bool × Int := (c.containerId, c.running, c.exitCode)

def Guest.face (g : Guest) : CString × Bool × Int := (g.id, g.phase.isOn, g.exitCode)

/-- A virtual machine as it was created. -/
structure Vm.Unused (vm : Vm) : Prop where
  state : vm.state = .created
  pid : vm.qemuPid = 0

/-- The virtual machine of a guest. -/
structure Backed (g : Guest) (vm : Vm) : Prop where
  state : vm.state = g.phase.vmState
  pid : g.phase.isOn = true → 0 < vm.qemuPid
  noPid : g.phase = .fresh → vm.qemuPid = 0

/-- **The guests and the virtual machines of one id**: only the first ones were ever called. -/
def Backs : List Guest → List Vm → Prop
  | [], vms => ∀ vm ∈ vms, vm.Unused
  | _ :: _, [] => False
  | g :: gs, vm :: vms =>
    Backed g vm ∧ (∀ g' ∈ gs, g'.phase = .fresh) ∧ (∀ vm' ∈ vms, vm'.Unused) ∧ gs.length ≤ vms.length

/-- **The tables show the node.** -/
structure Refines (s : Runtime) (n : Node) : Prop where
  faces : s.containers.map Container.face = n.guests.map Guest.face
  count : s.vms.length = n.guests.length + n.lost
  room : s.vms.length ≤ 100
  paired : Paired Guest.id Vm.vmId Backs n.guests s.vms

/-- Guests that were never called, with at least as many virtual machines. -/
theorem backs_of_fresh {gs : List Guest} {vms : List Vm} (hgs : ∀ g ∈ gs, g.phase = .fresh)
    (hvms : ∀ vm ∈ vms, vm.Unused) (hle : gs.length ≤ vms.length) : Backs gs vms := by
  cases gs with
  | nil => exact hvms
  | cons g gs =>
    cases vms with
    | nil => exact absurd hle (Nat.not_succ_le_zero _)
    | cons vm vms =>
      have hg : g.phase = .fresh := hgs g List.mem_cons_self
      have hvm : vm.Unused := hvms vm List.mem_cons_self
      refine ⟨⟨?_, ?_, fun _ => hvm.pid⟩, fun g' hg' => hgs g' (List.mem_cons_of_mem g hg'),
        fun vm' hvm' => hvms vm' (List.mem_cons_of_mem vm hvm'), Nat.le_of_succ_le_succ hle⟩
      · rw [hg]
        exact hvm.state
      · rw [hg]
        exact nofun

/-- One more of each. -/
theorem Backs.concat {gs : List Guest} {vms : List Vm} {id : CString} (h : Backs gs vms) :
    Backs (gs ++ [⟨id, .fresh, -1⟩]) (vms ++ [⟨id, 0, .created, -1⟩]) := by
  have hunused : ∀ {vms : List Vm}, (∀ vm ∈ vms, vm.Unused) → ∀ vm ∈ vms ++ [⟨id, 0, .created, -1⟩], vm.Unused := by
    intro vms hvms vm hvm
    obtain hvm | hvm := List.mem_append.mp hvm
    · exact hvms vm hvm
    · rw [List.mem_singleton.mp hvm]
      exact ⟨rfl, rfl⟩
  cases gs with
  | nil =>
    refine backs_of_fresh ?_ (hunused h) ?_
    · intro g hg
      rw [List.mem_singleton.mp hg]
    · simp
  | cons g gs =>
    cases vms with
    | nil => exact h.elim
    | cons vm vms =>
      obtain ⟨hbacked, hgs, hvms, hle⟩ := h
      refine ⟨hbacked, fun g' hg' => ?_, hunused hvms, ?_⟩
      · obtain hg' | hg' := List.mem_append.mp hg'
        · exact hgs g' hg'
        · rw [List.mem_singleton.mp hg']
      · simpa using hle

/-- As many guests of one id as virtual machines are in a phase that is called on. -/
theorem Backs.countP_eq {gs : List Guest} {vms : List Vm} (h : Backs gs vms) {p : Phase → Bool} {q : VmState → Bool}
    (hpq : ∀ phase : Phase, p phase = q phase.vmState) (hfresh : p .fresh = false) :
    gs.countP (fun g => p g.phase) = vms.countP fun vm => q vm.state := by
  have hunused : ∀ {vms : List Vm}, (∀ vm ∈ vms, vm.Unused) → vms.countP (fun vm => q vm.state) = 0 := by
    intro vms hvms
    refine List.countP_eq_zero.mpr fun vm hvm => ?_
    have hq : q .created = false := (hpq .fresh).symm.trans hfresh
    rw [(hvms vm hvm).state, hq]
    exact Bool.false_ne_true
  cases gs with
  | nil => exact (hunused h).symm
  | cons g gs =>
    cases vms with
    | nil => exact h.elim
    | cons vm vms =>
      obtain ⟨hbacked, hgs, hvms, -⟩ := h
      have hzero : gs.countP (fun g => p g.phase) = 0 := by
        refine List.countP_eq_zero.mpr fun g hg => ?_
        rw [hgs g hg, hfresh]
        exact Bool.false_ne_true
      rw [List.countP_cons, List.countP_cons, hzero, hunused hvms, hbacked.state, hpq]

/-! ## What is called -/

theorem Runtime.findVm_some {s : Runtime} {id : CString} {pre post : List Vm} {vm : Vm}
    (h : s.findVm id = some (pre, vm, post)) : s.vms = pre ++ vm :: post ∧ vm.vmId = id ∧
      queue Vm.vmId id s.vms = vm :: queue Vm.vmId id post ∧ queue Vm.vmId id pre = [] :=
  queue_of_found h

theorem Runtime.findContainer_some {s : Runtime} {id : CString} {pre post : List Container} {c : Container}
    (h : s.findContainer id = some (pre, c, post)) : s.containers = pre ++ c :: post ∧ c.containerId = id ∧
      queue Container.containerId id s.containers = c :: queue Container.containerId id post ∧
        queue Container.containerId id pre = [] :=
  queue_of_found h

theorem Node.find_some {n : Node} {id : CString} {pre post : List Guest} {g : Guest}
    (h : n.find id = some (pre, g, post)) : n.guests = pre ++ g :: post ∧ g.id = id ∧
      queue Guest.id id n.guests = g :: queue Guest.id id post ∧ queue Guest.id id pre = [] :=
  queue_of_found h

section Located

variable {s : Runtime} {n : Node} {id : CString} {pre post : List Container} {c c' : Container}
  {pre' post' : List Guest} {g g' : Guest} {preV postV : List Vm} {vm vm' : Vm} {children : List Int}

/-- **The container, the guest and the virtual machine** that a call of an id means. -/
structure Located (s : Runtime) (n : Node) (id : CString) (pre : List Container) (c : Container) (post : List Container)
    (pre' : List Guest) (g : Guest) (post' : List Guest) (preV : List Vm) (vm : Vm) (postV : List Vm) : Prop where
  container : s.findContainer id = some (pre, c, post)
  guest : n.find id = some (pre', g, post')
  machine : s.findVm id = some (preV, vm, postV)
  face : c.face = g.face
  before : pre.map Container.face = pre'.map Guest.face
  after : post.map Container.face = post'.map Guest.face
  backed : Backed g vm
  fresh : ∀ g' ∈ queue Guest.id id post', g'.phase = .fresh
  unused : ∀ vm' ∈ queue Vm.vmId id postV, vm'.Unused
  enough : (queue Guest.id id post').length ≤ (queue Vm.vmId id postV).length

/-- A call means all three, or nothing. -/
theorem Refines.located (h : Refines s n) (id : CString) : (s.findContainer id = none ∧ n.find id = none) ∨
    ∃ pre c post pre' g post' preV vm postV, Located s n id pre c post pre' g post' preV vm postV := by
  obtain ⟨hc, hg⟩ | ⟨pre, c, post, pre', g, post', hc, hg, hbefore, hface, hafter⟩ :=
    found_alike (fun face : CString × Bool × Int => decide (face.1 = id)) h.faces
  · exact .inl ⟨hc, hg⟩
  · obtain ⟨-, -, hqueue, -⟩ := Node.find_some hg
    have hbacks := h.paired id
    rw [hqueue] at hbacks
    cases hvms : queue Vm.vmId id s.vms with
    | nil => rw [hvms] at hbacks; exact hbacks.elim
    | cons vm vms =>
      rw [hvms] at hbacks
      obtain ⟨preV, postV, hvm, rfl⟩ := found_of_queue hvms
      obtain ⟨hbacked, hfresh, hunused, hle⟩ := hbacks
      exact .inr ⟨pre, c, post, pre', g, post', preV, vm, postV,
        ⟨hc, hg, hvm, hface, hbefore, hafter, hbacked, hfresh, hunused, hle⟩⟩

variable (h : Located s n id pre c post pre' g post' preV vm postV)
include h

theorem Located.ids : c.containerId = id ∧ g.id = id ∧ vm.vmId = id :=
  ⟨(Runtime.findContainer_some h.container).2.1, (Node.find_some h.guest).2.1, (Runtime.findVm_some h.machine).2.1⟩

/-- Whether the container runs, and its exit code. -/
theorem Located.shown : c.running = g.phase.isOn ∧ c.exitCode = g.exitCode :=
  Prod.mk.inj (Prod.mk.inj h.face).2

theorem Located.lists : s.containers = pre ++ c :: post ∧ n.guests = pre' ++ g :: post' ∧ s.vms = preV ++ vm :: postV :=
  ⟨(Runtime.findContainer_some h.container).1, (Node.find_some h.guest).1, (Runtime.findVm_some h.machine).1⟩

/-- **All three change.** -/
theorem Located.changed (hs : Refines s n) (hface : c'.face = g'.face) (hg : g'.id = id) (hvm : vm'.vmId = id)
    (hbacked : Backed g' vm') :
    Refines ⟨preV ++ vm' :: postV, pre ++ c' :: post, children⟩ ⟨pre' ++ g' :: post', n.lost⟩ := by
  obtain ⟨-, hguests, hvms⟩ := h.lists
  have hcount := hs.count
  have hroom := hs.room
  rw [hvms] at hcount hroom
  rw [hguests] at hcount
  simp only [List.length_append, List.length_cons] at hcount hroom
  refine ⟨?_, ?_, ?_, hs.paired.replace h.guest h.machine hg hvm ⟨hbacked, h.fresh, h.unused, h.enough⟩⟩
  · rw [List.map_append, List.map_cons, List.map_append, List.map_cons, h.before, hface, h.after]
  · simp only [List.length_append, List.length_cons]
    exact hcount
  · simp only [List.length_append, List.length_cons]
    exact hroom

/-- **All three go.** -/
theorem Located.deleted (hs : Refines s n) : Refines ⟨preV ++ postV, pre ++ post, children⟩ ⟨pre' ++ post', n.lost⟩ := by
  obtain ⟨-, hguests, hvms⟩ := h.lists
  have hcount := hs.count
  have hroom := hs.room
  rw [hvms] at hcount hroom
  rw [hguests] at hcount
  simp only [List.length_append, List.length_cons] at hcount hroom
  refine ⟨?_, ?_, ?_, hs.paired.remove h.guest h.machine (backs_of_fresh h.fresh h.unused h.enough)⟩
  · rw [List.map_append, List.map_append, h.before, h.after]
  · simp only [List.length_append]
    omega
  · simp only [List.length_append]
    omega

/-- **The virtual machine of a fresh guest stays behind.** -/
theorem Located.left (hs : Refines s n) (hg : g.phase = .fresh) :
    Refines ⟨s.vms, pre ++ post, children⟩ ⟨pre' ++ post', n.lost + 1⟩ := by
  obtain ⟨-, hguests, -⟩ := h.lists
  obtain ⟨-, -, hqueue, -⟩ := Runtime.findVm_some h.machine
  have hvm : vm.Unused := ⟨by rw [h.backed.state, hg]; rfl, h.backed.noPid hg⟩
  have hcount := hs.count
  rw [hguests] at hcount
  simp only [List.length_append, List.length_cons] at hcount
  refine ⟨?_, ?_, hs.room, hs.paired.remove_left h.guest ?_⟩
  · rw [List.map_append, List.map_append, h.before, h.after]
  · simp only [List.length_append]
    omega
  · rw [hqueue]
    refine backs_of_fresh h.fresh ?_ (Nat.le_succ_of_le h.enough)
    intro vm' hmem
    obtain rfl | hmem := List.mem_cons.mp hmem
    · exact hvm
    · exact h.unused vm' hmem

/-- The next look finds the virtual machine again. -/
theorem Located.findVm_changed (state : VmState) (exitCode : Int) :
    Runtime.findVm ⟨preV ++ { vm with state, exitCode } :: postV, s.containers, children⟩ id =
      some (preV, { vm with state, exitCode }, postV) :=
  found_replaced h.machine h.ids.2.2

/-- `qemu_stop_vm` on a virtual machine that is on. -/
theorem Located.qemuStopVm_of_on (hon : g.phase.isOn = true) (timeoutSec : Int) (exit : Option (Nat × Option Int)) :
    s.qemuStopVm id timeoutSec exit = (0, ⟨preV ++ { vm with
        state := .stopped
        exitCode := (Runtime.exitInTime timeoutSec exit).getD (-1) } :: postV, s.containers, s.reap vm.qemuPid⟩) := by
  have hstate : vm.state ≠ .stopped := by
    rw [h.backed.state]
    cases hphase : g.phase <;> simp [hphase, Phase.isOn] at hon <;> simp [Phase.vmState]
  have hpid : vm.qemuPid > 0 := h.backed.pid hon
  simp only [Runtime.qemuStopVm, h.machine, if_neg hstate, if_pos hpid]
  cases Runtime.exitInTime timeoutSec exit with
  | some exitCode => rfl
  | none =>
    simp only [Runtime.qemuKillVm, h.machine, if_pos hpid]
    rfl

/-- `unikernel_container_run`. -/
theorem Located.containerRun (forked : Int) : s.containerRun id forked =
    if g.phase.isOn = true ∨ ¬ forked > 0 then (-1, s)
    else (0, ⟨preV ++ { vm with qemuPid := forked, state := .running } :: postV, pre ++ { c with running := true } :: post,
      s.children ++ [forked]⟩) := by
  rw [Runtime.containerRun, h.container]
  dsimp only
  rw [h.shown.1]
  cases hon : g.phase.isOn with
  | true => rfl
  | false =>
    have hstate : vm.state ≠ .running := by
      rw [h.backed.state]
      cases hphase : g.phase <;> simp [hphase, Phase.isOn] at hon <;> simp [Phase.vmState]
    by_cases hforked : forked > 0
    · simp [Runtime.qemuStartVm, h.machine, hstate, hforked]
    · simp [Runtime.qemuStartVm, h.machine, hstate, hforked]

/-- `unikernel_container_stop`. -/
theorem Located.containerStop (timeoutSec : Int) (exit : Option (Nat × Option Int)) : s.containerStop id timeoutSec exit =
    if g.phase.isOn then
      (0, ⟨preV ++ { vm with state := .stopped, exitCode := (Runtime.exitInTime timeoutSec exit).getD (-1) } :: postV,
        pre ++ { c with running := false, exitCode := (Runtime.exitInTime timeoutSec exit).getD (-1) } :: post,
        s.reap vm.qemuPid⟩)
    else (0, s) := by
  rw [Runtime.containerStop, h.container]
  dsimp only
  rw [h.shown.1]
  cases hon : g.phase.isOn with
  | false => rfl
  | true =>
    rw [h.qemuStopVm_of_on hon]
    dsimp only
    rw [h.findVm_changed]
    rfl

/-- `unikernel_container_kill`. -/
theorem Located.containerKill : s.containerKill id =
    (0, ⟨preV ++ { vm with state := .stopped, exitCode := if vm.qemuPid > 0 then -1 else vm.exitCode } :: postV,
      pre ++ { c with running := false, exitCode := -1 } :: post,
      if vm.qemuPid > 0 then s.reap vm.qemuPid else s.children⟩) := by
  rw [Runtime.containerKill, h.container]
  dsimp only
  rw [Runtime.qemuKillVm, h.machine]
  by_cases hpid : vm.qemuPid > 0
  · simp [hpid]
  · simp [hpid]

/-- `unikernel_container_remove`. -/
theorem Located.containerRemove : s.containerRemove id =
    match g.phase with
    | .running | .paused => (-1, s)
    | .fresh => (0, ⟨s.vms, pre ++ post, s.children⟩)
    | .ended => (0, ⟨preV ++ postV, pre ++ post, s.children⟩) := by
  rw [Runtime.containerRemove, h.container]
  dsimp only
  rw [Runtime.qemuDeleteVm, h.machine]
  dsimp only
  rw [h.shown.1, h.backed.state]
  cases g.phase <;> rfl

end Located

/-! ## Each call -/

section Calls

variable {s : Runtime} {n : Node} (h : Refines s n)
include h

theorem Refines.length_eq : s.containers.length = n.guests.length := by
  have hlength := congrArg List.length h.faces
  rw [List.length_map, List.length_map] at hlength
  exact hlength

theorem Refines.create (podName ns : CString) (now : Int) (found foundAgain : Bool) :
    (s.containerCreate podName ns now found foundAgain).1 =
        (n.create (generateVmId podName ns now) (found && foundAgain)).1 ∧
      Refines (s.containerCreate podName ns now found foundAgain).2
        (n.create (generateVmId podName ns now) (found && foundAgain)).2 := by
  have hlength := h.length_eq
  have hcount := h.count
  have hmany : ¬ s.containers.length ≥ 1000 := by
    have := h.room
    omega
  rw [Runtime.containerCreate, if_neg hmany, Node.create]
  cases found with
  | false => simpa using h
  | true =>
    rw [Runtime.qemuCreateVm]
    by_cases hfull : s.vms.length ≥ 100
    · have hnone : ¬ n.guests.length + n.lost < 100 := by omega
      simpa [hfull, hnone] using h
    · have hroom : n.guests.length + n.lost < 100 := by omega
      cases foundAgain with
      | false => simpa [hfull] using h
      | true =>
        simp only [if_neg hfull, hroom, Bool.and_self, and_self, if_true, reduceCtorEq, if_false, true_and]
        refine ⟨?_, ?_, ?_, h.paired.concat rfl rfl ?_⟩
        · rw [List.map_append, List.map_append, h.faces]
          rfl
        · simp only [List.length_append, List.length_singleton]
          omega
        · simp only [List.length_append, List.length_singleton]
          omega
        · exact (h.paired _).concat

theorem Refines.run (id : CString) (forked : Int) : (s.containerRun id forked).1 = (n.run id forked).1 ∧
    Refines (s.containerRun id forked).2 (n.run id forked).2 := by
  obtain ⟨hc, hg⟩ | ⟨pre, c, post, pre', g, post', preV, vm, postV, hl⟩ := h.located id
  · rw [Runtime.containerRun, hc, Node.run, hg]
    exact ⟨rfl, h⟩
  · obtain ⟨hcid, hgid, hvid⟩ := hl.ids
    rw [hl.containerRun, Node.run, hl.guest]
    dsimp only
    split
    · exact ⟨rfl, h⟩
    · next hboth =>
      have hforked : forked > 0 := by
        by_contra hnot
        exact hboth (.inr hnot)
      have hface : ({ c with running := true } : Container).face = ({ g with phase := .running } : Guest).face := by
        simp [Container.face, Guest.face, hcid, hgid, hl.shown.2, Phase.isOn]
      exact ⟨rfl, hl.changed h hface hgid hvid ⟨rfl, fun _ => hforked, nofun⟩⟩

theorem Refines.stop (id : CString) (timeoutSec : Int) (exit : Option (Nat × Option Int)) :
    (s.containerStop id timeoutSec exit).1 = (n.stop id (Runtime.exitInTime timeoutSec exit)).1 ∧
      Refines (s.containerStop id timeoutSec exit).2 (n.stop id (Runtime.exitInTime timeoutSec exit)).2 := by
  obtain ⟨hc, hg⟩ | ⟨pre, c, post, pre', g, post', preV, vm, postV, hl⟩ := h.located id
  · rw [Runtime.containerStop, hc, Node.stop, hg]
    exact ⟨rfl, h⟩
  · obtain ⟨hcid, hgid, hvid⟩ := hl.ids
    let exitCode := (Runtime.exitInTime timeoutSec exit).getD (-1)
    have hface : ({ c with running := false, exitCode } : Container).face =
        ({ g with phase := .ended, exitCode } : Guest).face := by
      simp [Container.face, Guest.face, hcid, hgid, Phase.isOn]
    rw [hl.containerStop, Node.stop, hl.guest]
    dsimp only
    split
    · exact ⟨rfl, hl.changed h hface hgid hvid ⟨rfl, nofun, nofun⟩⟩
    · exact ⟨rfl, h⟩

theorem Refines.kill (id : CString) : (s.containerKill id).1 = (n.kill id).1 ∧
    Refines (s.containerKill id).2 (n.kill id).2 := by
  obtain ⟨hc, hg⟩ | ⟨pre, c, post, pre', g, post', preV, vm, postV, hl⟩ := h.located id
  · rw [Runtime.containerKill, hc, Node.kill, hg]
    exact ⟨rfl, h⟩
  · obtain ⟨hcid, hgid, hvid⟩ := hl.ids
    have hface : ({ c with running := false, exitCode := -1 } : Container).face =
        ({ g with phase := .ended, exitCode := -1 } : Guest).face := by
      simp [Container.face, Guest.face, hcid, hgid, Phase.isOn]
    rw [hl.containerKill, Node.kill, hl.guest]
    exact ⟨rfl, hl.changed h hface hgid hvid ⟨rfl, nofun, nofun⟩⟩

theorem Refines.remove (id : CString) : (s.containerRemove id).1 = (n.remove id).1 ∧
    Refines (s.containerRemove id).2 (n.remove id).2 := by
  obtain ⟨hc, hg⟩ | ⟨pre, c, post, pre', g, post', preV, vm, postV, hl⟩ := h.located id
  · rw [Runtime.containerRemove, hc, Node.remove, hg]
    exact ⟨rfl, h⟩
  · rw [hl.containerRemove, Node.remove, hl.guest]
    dsimp only
    cases hphase : g.phase with
    | running => exact ⟨rfl, h⟩
    | paused => exact ⟨rfl, h⟩
    | fresh => exact ⟨rfl, hl.left h hphase⟩
    | ended => exact ⟨rfl, hl.deleted h⟩

/-- Only the virtual machine of a guest in the right phase obeys a signal. -/
theorem Refines.signal (id : CString) (before after : Phase) (delivered : Bool) (hbefore : before.isOn = true)
    (hafter : after.isOn = true) :
    (s.signalVm id before.vmState after.vmState delivered).1 = (n.signal id before after delivered).1 ∧
      Refines (s.signalVm id before.vmState after.vmState delivered).2 (n.signal id before after delivered).2 := by
  obtain ⟨hc, hg⟩ | ⟨pre, c, post, pre', g, post', preV, vm, postV, hl⟩ := h.located id
  · rw [Runtime.signalVm, Node.signal, hg]
    cases hvm : s.findVm id with
    | none => exact ⟨rfl, h⟩
    | some found =>
      obtain ⟨preV, vm, postV⟩ := found
      have hunused := h.paired id
      rw [(Runtime.findVm_some hvm).2.2.1, show queue Guest.id id n.guests = [] from queue_of_not_found hg] at hunused
      have hstate : vm.state ≠ before.vmState := by
        rw [(hunused vm List.mem_cons_self).state]
        cases before <;> simp [Phase.isOn, Phase.vmState] at hbefore ⊢
      dsimp only
      rw [if_pos hstate]
      exact ⟨rfl, h⟩
  · obtain ⟨hcid, hgid, hvid⟩ := hl.ids
    obtain ⟨hrunning, hexit⟩ := hl.shown
    rw [Runtime.signalVm, hl.machine, Node.signal, hl.guest]
    dsimp only
    rw [hl.backed.state]
    by_cases hphase : g.phase = before
    · have hface : c.face = ({ g with phase := after } : Guest).face := by
        simp [Container.face, Guest.face, hcid, hgid, hexit, hrunning, hphase, hbefore, hafter]
      rw [if_neg (by simp [hphase])]
      cases delivered with
      | false => simpa using h
      | true =>
        have hold : after ≠ .fresh := by
          rintro rfl
          exact Bool.false_ne_true hafter
        have hchanged : Refines ⟨preV ++ { vm with state := after.vmState } :: postV, pre ++ c :: post, s.children⟩
            ⟨pre' ++ { g with phase := after } :: post', n.lost⟩ :=
          hl.changed h hface hgid hvid ⟨rfl, fun _ => hl.backed.pid (hphase ▸ hbefore), fun hfresh => absurd hfresh hold⟩
        rw [← hl.lists.1] at hchanged
        rw [if_pos rfl, if_pos ⟨hphase, rfl⟩]
        exact ⟨rfl, hchanged⟩
    · have hstate : g.phase.vmState ≠ before.vmState := by
        revert hphase
        cases g.phase <;> cases before <;> simp [Phase.vmState]
      rw [if_pos hstate, if_neg fun hboth => hphase hboth.1]
      exact ⟨rfl, h⟩

theorem Refines.inspect (id : CString) :
    s.containerInspect id = (n.find id).map fun found => (found.2.1.phase.isOn, found.2.1.exitCode) := by
  obtain ⟨hc, hg⟩ | ⟨pre, c, post, pre', g, post', preV, vm, postV, hl⟩ := h.located id
  · rw [Runtime.containerInspect, hc, hg]
    rfl
  · obtain ⟨hrunning, hexit⟩ := hl.shown
    rw [Runtime.containerInspect, hl.container, hl.guest, Option.map_some, Option.map_some, hrunning, hexit]

/-- As many containers run as guests are on. -/
theorem Refines.countP_running : s.containers.countP Container.running = n.guests.countP fun g => g.phase.isOn := by
  have hcount := congrArg (List.countP fun face => face.2.1) h.faces
  rw [List.countP_map, List.countP_map] at hcount
  exact hcount

/-- As many virtual machines run as guests do. -/
theorem Refines.countP_vms : s.vms.countP (fun vm => decide (vm.state = .running)) =
    n.guests.countP fun g => decide (g.phase = .running) := by
  refine (h.paired.countP_eq fun gs vms hbacks => ?_).symm
  refine hbacks.countP_eq (p := fun phase => decide (phase = .running)) (q := fun state => decide (state = .running))
    (fun phase => ?_) rfl
  cases phase <;> rfl

/-- **Every call**: the runtime answers as the node does, and shows it still. -/
theorem Refines.step (call : Call) : StepsAlike Refines Runtime.step Node.step s n call := by
  cases call with
  | create podName ns now found foundAgain =>
    have hcreate := h.create podName ns now found foundAgain
    exact ⟨congrArg Outcome.made hcreate.1, hcreate.2⟩
  | run id forked => exact ⟨congrArg Outcome.code (h.run id forked).1, (h.run id forked).2⟩
  | stop id timeoutSec exit => exact ⟨congrArg Outcome.code (h.stop id timeoutSec exit).1, (h.stop id timeoutSec exit).2⟩
  | kill id => exact ⟨congrArg Outcome.code (h.kill id).1, (h.kill id).2⟩
  | remove id => exact ⟨congrArg Outcome.code (h.remove id).1, (h.remove id).2⟩
  | pause id delivered =>
    have hpause := h.signal id .running .paused delivered rfl rfl
    exact ⟨congrArg Outcome.code hpause.1, hpause.2⟩
  | resume id delivered =>
    have hresume := h.signal id .paused .running delivered rfl rfl
    exact ⟨congrArg Outcome.code hresume.1, hresume.2⟩
  | inspect id => exact ⟨congrArg Outcome.seen (h.inspect id), h⟩
  | runtimeStats => exact ⟨congrArg₂ Outcome.counts h.length_eq h.countP_running, h⟩
  | qemuStats => exact ⟨congrArg₂ Outcome.counts h.count h.countP_vms, h⟩

end Calls

theorem refines_init : Refines .init .empty := ⟨rfl, rfl, Nat.zero_le 100, fun _ => nofun⟩

/-- **The two tables are one node**: whatever the operating system answers, every run of calls is answered as the node
answers it. -/
theorem runtime_refines (calls : List Call) : answers Runtime.step .init calls = answers Node.step .empty calls :=
  answers_eq (fun _ _ call h => h.step call) refines_init calls

end Sirah.UnikernelRuntime
