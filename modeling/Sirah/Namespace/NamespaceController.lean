import Sirah.Lib.CString
import Sirah.Lib.Run
import Sirah.Lib.SplitFirst
import Sirah.Lib.Sweep

/-!
# The namespace controller

Model of `internal/controller/namespace_controller.c`: a table of at most 1024 namespaces, which a deletion takes
through the phase Terminating. Five functions start or finish a deletion, and each has its own guards.

* The counters are `int` (`BitVec 32`). `time(NULL)` is an argument of the calls that read it.
* `Sane`: no protected namespace is terminating, the names are distinct, and the counters account for the table.
  `RemovesDue`: what a call removes is not protected, and its grace period is over.
* **`deletion_guarded_iff`**: both hold along a run **iff** no protected namespace is put into termination, only what is
  due is finalized, and no sweep finds a namespace that is due.
* `default_removed`: the namespace `default` is finalized.
-/

namespace Sirah.Namespaces

open Runs

/-! ## Data -/

/-- `namespace_phase_t`. -/
inductive Phase where
  | active
  | terminating
  | terminated
  deriving DecidableEq

/-- `namespace_record_t`: what the life of a namespace depends on. -/
structure Record where
  name : CString
  phase : Phase
  createdAt : Int
  deletedAt : Int
  deletionGraceSeconds : Int
  deriving DecidableEq

/-- `namespace_controller_t`. -/
structure Controller where
  namespaces : List Record
  totalCreated : BitVec 32
  totalDeleted : BitVec 32
  deriving DecidableEq

/-- `NAMESPACE_MAX_NAMESPACES`. -/
def maxNamespaces : Nat := 1024

/-! ## Names -/

/-- `namespace_controller_validate_name`. -/
def validateName (name : CString) : Int :=
  if name = [] then -1
  else if name.length > 253 then -1
  else if name.all fun c => (97 ≤ c && c ≤ 122) || (48 ≤ c && c ≤ 57) || c = 45 then 0
  else -1

/-- `namespace_controller_is_protected`. -/
def isProtected (name : CString) : Bool :=
  name = "default" ∨ name = "kube-system" ∨ name = "kube-public" ∨ name = "kube-node-lease"

namespace Controller

variable (c : Controller)

/-! ## Calls -/

/-- `namespace_controller_create`. -/
def create (name : CString) (now : Int) : Controller × Int :=
  if validateName name ≠ 0 then (c, -1)
  else if c.namespaces.any fun r => r.name = name then (c, -1)
  else if c.namespaces.length ≥ maxNamespaces then (c, -1)
  else
    ({ c with
        namespaces := c.namespaces ++ [⟨name, .active, now, 0, 0⟩]
        totalCreated := c.totalCreated + 1 }, 0)

/-- `namespace_controller_init`: the namespace `default` is created. -/
def init (now : Int) : Controller := ((⟨[], 0, 0⟩ : Controller).create "default" now).1

/-- `namespace_controller_start_termination`. -/
def startTermination (name : CString) (graceSeconds now : Int) : Controller × Int :=
  match c.namespaces.splitFirst fun r => r.name = name with
  | none => (c, -1)
  | some (pre, r, post) =>
    ({ c with
        namespaces := pre ++
          { r with phase := .terminating, deletedAt := now, deletionGraceSeconds := graceSeconds } :: post }, 0)

/-- `namespace_controller_delete`. -/
def delete (name : CString) (now : Int) : Controller × Int :=
  if name = [] then (c, -1)
  else if isProtected name then (c, -1)
  else c.startTermination name 30 now

/-- `namespace_controller_finalize_deletion`. -/
def finalizeDeletion (name : CString) : Controller × Int :=
  match c.namespaces.splitFirst fun r => r.name = name with
  | none => (c, -1)
  | some (pre, _, post) => ({ c with namespaces := pre ++ post, totalDeleted := c.totalDeleted + 1 }, 0)

end Controller

/-- The condition of `namespace_controller_cleanup_orphaned_namespaces`: the deletion may be finished. -/
def dueForCleanup (now : Int) (r : Record) : Bool :=
  decide (r.phase = .terminating) && decide (now - r.deletedAt ≥ r.deletionGraceSeconds) && !isProtected r.name

namespace Controller

/-- `namespace_controller_cleanup_orphaned_namespaces`, with the count that it returns. The cleanup thread calls it
too. -/
def cleanupOrphanedNamespaces (c : Controller) (now : Int) : Controller × Nat :=
  let namespaces := c.namespaces.sweep (dueForCleanup now) c.namespaces.length
  ({ c with namespaces := namespaces }, c.namespaces.length - namespaces.length)

/-! ## Runs -/

/-- A call, with the time at which it is made. -/
inductive Op where
  | create (name : CString) (now : Int)
  | delete (name : CString) (now : Int)
  | startTermination (name : CString) (graceSeconds now : Int)
  | finalizeDeletion (name : CString) (now : Int)
  | cleanup (now : Int)

def Op.now : Op → Int
  | .create _ now => now
  | .delete _ now => now
  | .startTermination _ _ now => now
  | .finalizeDeletion _ now => now
  | .cleanup now => now

def step (c : Controller) : Op → Controller
  | .create name now => (c.create name now).1
  | .delete name now => (c.delete name now).1
  | .startTermination name graceSeconds now => (c.startTermination name graceSeconds now).1
  | .finalizeDeletion name _ => (c.finalizeDeletion name).1
  | .cleanup now => (c.cleanupOrphanedNamespaces now).1

/-- **What a state should be.** -/
structure Sane (c : Controller) : Prop where
  guarded : ∀ r ∈ c.namespaces, isProtected r.name = true → r.phase ≠ .terminating
  unique : (c.namespaces.map Record.name).Nodup
  counted : c.totalCreated - c.totalDeleted = BitVec.ofNat 32 c.namespaces.length

/-- **What a call may remove**: namespaces that are not protected, terminating, and past their grace period. -/
def RemovesDue (c : Controller) (op : Op) : Prop :=
  ∀ r ∈ c.namespaces, (∀ r' ∈ (c.step op).namespaces, r'.name ≠ r.name) → dueForCleanup op.now r = true

/-- The condition on a call. -/
def Keeps (c : Controller) : Op → Prop
  | .create _ _ => True
  | .delete _ _ => True
  | .startTermination name _ _ => isProtected name = true → ∀ r ∈ c.namespaces, r.name ≠ name
  | .finalizeDeletion name now => ∀ r ∈ c.namespaces, r.name = name → dueForCleanup now r = true
  | .cleanup now => ∀ r ∈ c.namespaces, dueForCleanup now r = false

variable {c : Controller}

/-! ## One call -/

/-- `namespace_controller_create` appends a namespace with a new name, or does nothing. -/
theorem create_cases (c : Controller) (name : CString) (now : Int) :
    (c.create name now).1 = c ∨ (∀ r ∈ c.namespaces, r.name ≠ name) ∧ c.namespaces.length < maxNamespaces ∧
      (c.create name now).1 = { c with
        namespaces := c.namespaces ++ [⟨name, .active, now, 0, 0⟩]
        totalCreated := c.totalCreated + 1 } := by
  unfold create
  split
  · exact .inl rfl
  · split
    · exact .inl rfl
    · rename_i hnew
      split
      · exact .inl rfl
      · rename_i hroom
        refine .inr ⟨fun r hr heq => hnew ?_, Nat.lt_of_not_le hroom, rfl⟩
        exact List.any_eq_true.mpr ⟨r, hr, decide_eq_true heq⟩

/-- What a loop over the names finds. -/
theorem splitFirst_name (c : Controller) (name : CString) :
    (c.namespaces.splitFirst (fun r : Record => r.name = name) = none ∧ ∀ r ∈ c.namespaces, r.name ≠ name) ∨
    ∃ pre r post, c.namespaces.splitFirst (fun r : Record => r.name = name) = some (pre, r, post) ∧
      c.namespaces = pre ++ r :: post ∧ r.name = name := by
  rcases List.splitFirst_key_cases Record.name c.namespaces name with ⟨hnone, hno⟩ | hfound
  · exact .inl ⟨hnone, fun r hr hname => hno (hname ▸ List.mem_map_of_mem hr)⟩
  · exact .inr hfound

/-- `namespace_controller_start_termination` changes the namespace, if it is there. -/
theorem startTermination_cases (c : Controller) (name : CString) (graceSeconds now : Int) :
    ((c.startTermination name graceSeconds now).1 = c ∧ ∀ r ∈ c.namespaces, r.name ≠ name) ∨
    ∃ pre r post, c.namespaces = pre ++ r :: post ∧ r.name = name ∧
      (c.startTermination name graceSeconds now).1 = { c with namespaces := pre ++
        { r with phase := .terminating, deletedAt := now, deletionGraceSeconds := graceSeconds } :: post } := by
  unfold startTermination
  rcases c.splitFirst_name name with ⟨hfirst, hno⟩ | ⟨pre, r, post, hfirst, hnamespaces, hname⟩
  · rw [hfirst]
    exact .inl ⟨rfl, hno⟩
  · rw [hfirst]
    exact .inr ⟨pre, r, post, hnamespaces, hname, rfl⟩

/-- `namespace_controller_finalize_deletion` removes the namespace, if it is there. -/
theorem finalizeDeletion_cases (c : Controller) (name : CString) :
    ((c.finalizeDeletion name).1 = c ∧ ∀ r ∈ c.namespaces, r.name ≠ name) ∨
    ∃ pre r post, c.namespaces = pre ++ r :: post ∧ r.name = name ∧
      (c.finalizeDeletion name).1 = { c with namespaces := pre ++ post, totalDeleted := c.totalDeleted + 1 } := by
  unfold finalizeDeletion
  rcases c.splitFirst_name name with ⟨hfirst, hno⟩ | ⟨pre, r, post, hfirst, hnamespaces, hname⟩
  · rw [hfirst]
    exact .inl ⟨rfl, hno⟩
  · rw [hfirst]
    exact .inr ⟨pre, r, post, hnamespaces, hname, rfl⟩

theorem cleanup_eq (c : Controller) (now : Int) : (c.cleanupOrphanedNamespaces now).1 =
    { c with namespaces := c.namespaces.filter fun r => !dueForCleanup now r } := by
  simp only [cleanupOrphanedNamespaces, List.sweep_length]

/-- A call that keeps every name removes nothing. -/
theorem removesDue_of_names {op : Op} (h : c.namespaces.map Record.name ⊆ (c.step op).namespaces.map Record.name) :
    c.RemovesDue op := by
  intro r hr hgone
  obtain ⟨r', hr', hname⟩ := List.mem_map.mp (h (List.mem_map_of_mem hr))
  exact absurd hname (hgone r' hr')

/-- What holds besides along every run. -/
def Bounded (c : Controller) : Prop := c.namespaces.length ≤ maxNamespaces

theorem sane_create (hsane : c.Sane) (name : CString) (now : Int) : (c.create name now).1.Sane := by
  rcases create_cases c name now with heq | ⟨hnew, -, heq⟩
  · rw [heq]
    exact hsane
  · rw [heq]
    refine ⟨fun r hr hprotected => ?_, ?_, ?_⟩
    · rcases List.mem_append.mp hr with hr | hr
      · exact hsane.guarded r hr hprotected
      · rw [List.mem_singleton.mp hr]
        exact Phase.noConfusion
    · refine List.nodup_map_concat.mpr ⟨fun hmem => ?_, hsane.unique⟩
      obtain ⟨r, hr, heq⟩ := List.mem_map.mp hmem
      exact hnew r hr heq
    · have hcounted := hsane.counted
      rw [List.length_append, List.length_singleton]
      dsimp only
      bv_omega

theorem removesDue_create (name : CString) (now : Int) : c.RemovesDue (.create name now) := by
  refine removesDue_of_names fun n hn => ?_
  rcases create_cases c name now with heq | ⟨-, -, heq⟩
  · rw [step, heq]
    exact hn
  · rw [step, heq, List.map_append]
    exact List.mem_append_left _ hn

/-- **A termination** is right exactly if the namespace is not protected, or not there. -/
theorem sane_startTermination_iff (hsane : c.Sane) (name : CString) (graceSeconds now : Int) :
    (c.startTermination name graceSeconds now).1.Sane ↔
      (isProtected name = true → ∀ r ∈ c.namespaces, r.name ≠ name) := by
  rcases startTermination_cases c name graceSeconds now with ⟨heq, hnone⟩ | ⟨pre, r, post, hnamespaces, hname, heq⟩
  · rw [heq]
    exact iff_of_true hsane fun _ => hnone
  · have hmem : r ∈ c.namespaces := by
      rw [hnamespaces]
      exact List.mem_append_cons_iff.mpr (.inl rfl)
    rw [heq]
    constructor
    · intro h hprotected
      have hterminating := h.guarded _ (List.mem_append_cons_iff.mpr (.inl rfl)) (hname ▸ hprotected)
      exact absurd rfl hterminating
    · intro hfree
      have hunprotected : isProtected r.name ≠ true := fun h => hfree (hname ▸ h) r hmem hname
      have hunique := hsane.unique
      have hcounted := hsane.counted
      rw [hnamespaces] at hunique hcounted
      refine ⟨fun r' hr' hprotected => ?_, ?_, ?_⟩
      · rcases List.mem_append_cons_iff.mp hr' with rfl | hr'
        · exact absurd hprotected hunprotected
        · refine hsane.guarded r' ?_ hprotected
          rw [hnamespaces]
          exact List.mem_append_cons_iff.mpr (.inr hr')
      · simpa using hunique
      · simpa using hcounted

theorem removesDue_of_startTermination {op : Op} {name : CString} {graceSeconds now : Int}
    (h : c.step op = (c.startTermination name graceSeconds now).1) : c.RemovesDue op := by
  refine removesDue_of_names fun n hn => ?_
  rw [h]
  rcases startTermination_cases c name graceSeconds now with ⟨heq, -⟩ | ⟨pre, r, post, hnamespaces, -, heq⟩
  · rw [heq]
    exact hn
  · rw [heq]
    rw [hnamespaces] at hn
    simpa using hn

/-- `namespace_controller_delete` terminates what is not protected. -/
theorem delete_cases (c : Controller) (name : CString) (now : Int) : (c.delete name now).1 = c ∨
    isProtected name ≠ true ∧ (c.delete name now).1 = (c.startTermination name 30 now).1 := by
  unfold delete
  split
  · exact .inl rfl
  · split
    · exact .inl rfl
    · rename_i hfree
      exact .inr ⟨hfree, rfl⟩

theorem sane_delete (hsane : c.Sane) (name : CString) (now : Int) :
    (c.step (.delete name now)).Sane ∧ c.RemovesDue (.delete name now) := by
  rcases delete_cases c name now with heq | ⟨hfree, heq⟩
  · rw [step, heq]
    exact ⟨hsane, removesDue_of_names (by rw [step, heq]; exact fun _ hn => hn)⟩
  · rw [step, heq]
    exact ⟨(sane_startTermination_iff hsane name 30 now).mpr fun h => absurd h hfree, removesDue_of_startTermination heq⟩

theorem sane_finalizeDeletion (hsane : c.Sane) (name : CString) : (c.finalizeDeletion name).1.Sane := by
  rcases finalizeDeletion_cases c name with ⟨heq, -⟩ | ⟨pre, r, post, hnamespaces, -, heq⟩
  · rw [heq]
    exact hsane
  · have hunique := hsane.unique
    have hcounted := hsane.counted
    rw [hnamespaces] at hunique hcounted
    rw [heq]
    refine ⟨fun r' hr' => hsane.guarded r' ?_, ?_, ?_⟩
    · rw [hnamespaces]
      exact List.mem_append_cons_iff.mpr (.inr hr')
    · exact List.nodup_remove hunique
    · rw [List.length_append, List.length_cons] at hcounted
      rw [List.length_append]
      dsimp only
      bv_omega

theorem removesDue_finalizeDeletion_iff (hsane : c.Sane) (name : CString) (now : Int) :
    c.RemovesDue (.finalizeDeletion name now) ↔ c.Keeps (.finalizeDeletion name now) := by
  rcases finalizeDeletion_cases c name with ⟨heq, hnone⟩ | ⟨pre, r, post, hnamespaces, hname, heq⟩
  · have hkept : c.RemovesDue (.finalizeDeletion name now) :=
      removesDue_of_names fun n hn => by rw [step, heq]; exact hn
    exact iff_of_true hkept fun r hr hname => absurd hname (hnone r hr)
  · have hunique := hsane.unique
    rw [hnamespaces] at hunique
    have hgone : ∀ r' ∈ (c.step (.finalizeDeletion name now)).namespaces, r'.name ≠ r.name := by
      rw [step, heq]
      exact fun r' hr' => List.key_ne_of_nodup hunique hr'
    constructor
    · intro h r' hr' hname'
      refine h r' hr' fun r'' hr'' => ?_
      rw [hname', ← hname]
      exact hgone r'' hr''
    · intro h r' hr' hgone'
      refine h r' hr' ?_
      -- what is beside `r` is still there
      rw [hnamespaces] at hr'
      rcases List.mem_append_cons_iff.mp hr' with rfl | hbeside
      · exact hname
      · refine absurd rfl (hgone' r' ?_)
        rw [step, heq]
        exact hbeside

/-- **A sweep** is right exactly if it removes nothing: what it removes is not counted. -/
theorem sane_cleanup_iff (hsane : c.Sane) (hbounded : c.Bounded) (now : Int) :
    (c.cleanupOrphanedNamespaces now).1.Sane ↔ ∀ r ∈ c.namespaces, dueForCleanup now r = false := by
  rw [cleanup_eq]
  constructor
  · intro h r hr
    have hcounted := h.counted
    rw [show c.totalCreated - c.totalDeleted = _ from hsane.counted] at hcounted
    have hle := List.length_filter_le (fun r => !dueForCleanup now r) c.namespaces
    have hmax : c.namespaces.length ≤ 1024 := hbounded
    have hlength : (c.namespaces.filter fun r => !dueForCleanup now r).length = c.namespaces.length := by
      dsimp only at hcounted
      bv_omega
    have hall := List.length_filter_eq_length_iff.mp hlength r hr
    simpa using hall
  · intro h
    rw [List.filter_eq_self.mpr fun r hr => by simp [h r hr]]
    exact hsane

theorem removesDue_cleanup (c : Controller) (now : Int) : c.RemovesDue (.cleanup now) := by
  intro r hr hgone
  by_contra hkept
  refine absurd rfl (hgone r ?_)
  rw [step, cleanup_eq]
  exact List.mem_filter.mpr ⟨hr, by simpa [Op.now] using hkept⟩

theorem sane_init (now : Int) : (init now).Sane := by
  have hempty : (⟨[], 0, 0⟩ : Controller).Sane := ⟨fun _ hr => absurd hr List.not_mem_nil, List.nodup_nil, rfl⟩
  exact sane_create hempty "default" now

/-! ## Exactness -/

/-- **One call, exactly.** -/
theorem sane_step_iff (hsane : c.Sane) (hbounded : c.Bounded) (op : Op) :
    (c.step op).Sane ∧ c.RemovesDue op ↔ c.Keeps op := by
  cases op with
  | create name now => exact iff_of_true ⟨sane_create hsane name now, removesDue_create name now⟩ trivial
  | delete name now =>
    exact iff_of_true (sane_delete hsane name now) trivial
  | startTermination name graceSeconds now =>
    rw [Keeps, ← sane_startTermination_iff hsane name graceSeconds now]
    exact and_iff_left (removesDue_of_startTermination rfl)
  | finalizeDeletion name now =>
    rw [← removesDue_finalizeDeletion_iff hsane]
    exact and_iff_right (sane_finalizeDeletion hsane name)
  | cleanup now =>
    rw [Keeps, ← sane_cleanup_iff hsane hbounded now]
    exact and_iff_left (removesDue_cleanup c now)

theorem bounded_step (hbounded : c.Bounded) (op : Op) : (c.step op).Bounded := by
  have hterminate : ∀ name graceSeconds now, (c.startTermination name graceSeconds now).1.Bounded := by
    intro name graceSeconds now
    rcases startTermination_cases c name graceSeconds now with ⟨heq, -⟩ | ⟨pre, r, post, hnamespaces, -, heq⟩
    · rw [heq]
      exact hbounded
    · rw [heq]
      rw [Bounded, hnamespaces] at hbounded
      simpa [Bounded] using hbounded
  cases op with
  | create name now =>
    rcases create_cases c name now with heq | ⟨-, hroom, heq⟩
    · rw [step, heq]
      exact hbounded
    · rw [step, heq, Bounded, List.length_append]
      exact hroom
  | delete name now =>
    rcases delete_cases c name now with heq | ⟨-, heq⟩
    · rw [step, heq]
      exact hbounded
    · rw [step, heq]
      exact hterminate name 30 now
  | startTermination name graceSeconds now => exact hterminate name graceSeconds now
  | finalizeDeletion name now =>
    rcases finalizeDeletion_cases c name with ⟨heq, -⟩ | ⟨pre, r, post, hnamespaces, -, heq⟩
    · rw [step, heq]
      exact hbounded
    · rw [Bounded, hnamespaces, List.length_append, List.length_cons] at hbounded
      rw [step, heq, Bounded, List.length_append]
      omega
  | cleanup now =>
    rw [step, cleanup_eq, Bounded]
    exact (List.length_filter_le _ _).trans hbounded

/-- **Deletion is guarded, exactly** along the runs whose calls all meet the condition. -/
theorem deletion_guarded_iff {start : Int} {ops : List Op} :
    AllStates step Sane (init start) ops ∧ AllSteps step RemovesDue (init start) ops ↔
      AllSteps step Keeps (init start) ops := by
  rw [allStates_iff_next (sane_init start), ← allSteps_and]
  refine allSteps_iff_of_kept (I := fun c => c.Sane ∧ c.Bounded) (A := fun _ _ => True) ?_ ?_ ?_ allSteps_true
  · rintro c op ⟨hsane, hbounded⟩ - hkeeps
    exact ⟨((sane_step_iff hsane hbounded op).mpr hkeeps).1, bounded_step hbounded op⟩
  · rintro c op ⟨hsane, hbounded⟩ -
    exact sane_step_iff hsane hbounded op
  · exact ⟨sane_init start, show 1 ≤ 1024 by decide⟩

/-- **The namespace `default` is removed**, without a deletion before. -/
theorem default_removed : ¬ ∀ (start : Int) (ops : List Op),
    AllStates step Sane (init start) ops ∧ AllSteps step RemovesDue (init start) ops := by
  intro h
  have hremoves := (h 0 [.finalizeDeletion "default" 60]).2.1
  have hdue := hremoves ⟨"default", .active, 0, 0, 0⟩ List.mem_cons_self nofun
  exact absurd hdue (by decide)

end Controller

end Sirah.Namespaces
