import Sirah.Lib.CString
import Sirah.Lib.SplitFirst
import Sirah.Lib.Sweep

/-!
# The garbage collector

Model of `internal/controller/gc_controller.c`: a table of at most 10000 object records, with owner
references, finalizers and the marks of a deletion. An object is looked up by kind, namespace and name, and
the first record with its key is the one that is changed. Nothing keeps a key from being registered twice.

* `dueForCleanup`: the condition under which `gc_cleanup_orphaned_objects` and the collector thread remove a
  record. `cleanup_objects` and `scan_objects` say that their loops remove these records and no others.
-/

namespace Sirah.Gc

/-! ## Records -/

/-- `gc_propagation_policy_t`. -/
inductive PropagationPolicy where
  | orphan
  | background
  | foreground
  deriving DecidableEq

/-- `gc_deletion_strategy_t`. -/
inductive DeletionStrategy where
  | immediate
  | withGracePeriod
  deriving DecidableEq

/-- `gc_owner_ref_t`. -/
structure OwnerRef where
  ownerKind : CString
  ownerName : CString
  ownerNamespace : CString
  ownerUid : CString
  controller : Bool
  blockOwnerDeletion : Bool
  deriving DecidableEq

/-- `gc_object_record_t`. Every finalizer that is added is a blocking one. -/
structure Record where
  kind : CString
  ns : CString
  name : CString
  uid : CString
  deletionTimestamp : Int
  deletionGraceSeconds : Int
  deletionStrategy : DeletionStrategy
  ownerRefs : List OwnerRef
  finalizers : List CString
  orphaned : Bool
  pendingDeletion : Bool
  propagationPolicy : PropagationPolicy
  deriving DecidableEq

/-- The record that `gc_register_object` fills in, each text cut to its buffer. -/
def Record.new (kind ns name uid : CString) : Record where
  kind := kind.take 63
  ns := ns.take 255
  name := name.take 255
  uid := uid.take 127
  deletionTimestamp := 0
  deletionGraceSeconds := 0
  deletionStrategy := .immediate
  ownerRefs := []
  finalizers := []
  orphaned := false
  pendingDeletion := false
  propagationPolicy := .background

/-- Is it a record of this object? -/
def Record.hasKey (kind ns name : CString) (obj : Record) : Bool :=
  obj.kind == kind && obj.ns == ns && obj.name == name

/-- Is it a reference to an owner of this kind and name? The namespace of the owner is not compared. -/
def OwnerRef.isTo (kind name : CString) (ref : OwnerRef) : Bool := ref.ownerKind == kind && ref.ownerName == name

/-! ## The table -/

/-- `GC_MAX_OBJECTS`. -/
def gcMaxObjects : Nat := 10000

/-- `GC_MAX_OWNERSHIP_REFS`. -/
def gcMaxOwnershipRefs : Nat := 5

/-- `gc_controller_t`. -/
structure Controller where
  objects : List Record
  objectsScanned : Nat
  objectsCleaned : Nat
  lastScan : Int

/-- `gc_controller_init`. -/
def Controller.init : Controller := ⟨[], 0, 0, 0⟩

/-- `gc_register_object`. -/
def Controller.registerObject (c : Controller) (kind ns name uid : CString) : Controller × Int :=
  if c.objects.length ≥ gcMaxObjects then (c, -1)
  else ({ c with objects := c.objects ++ [Record.new kind ns name uid] }, 0)

/-- `gc_unregister_object`. -/
def Controller.unregisterObject (c : Controller) (kind ns name : CString) : Controller × Int :=
  if c.objects.any (Record.hasKey kind ns name) then
    ({ c with objects := c.objects.eraseP (Record.hasKey kind ns name) }, 0)
  else (c, -1)

/-- The first record that satisfies `p` is changed by `f`, unless it refuses. -/
def Controller.change (c : Controller) (p : Record → Bool) (f : Record → Option Record) : Controller × Int :=
  match c.objects.splitFirst p with
  | none => (c, -1)
  | some (pre, obj, post) =>
    match f obj with
    | none => (c, -1)
    | some obj' => ({ c with objects := pre ++ obj' :: post }, 0)

/-- One more owner, unless there are as many as fit. The object is no orphan any more. -/
def Record.addOwner (ref : OwnerRef) (obj : Record) : Option Record :=
  if obj.ownerRefs.length ≥ gcMaxOwnershipRefs then none
  else some { obj with ownerRefs := obj.ownerRefs ++ [ref], orphaned := false }

/-- `gc_add_owner_reference`. -/
def Controller.addOwnerReference (c : Controller) (kind ns name : CString) (ref : OwnerRef) : Controller × Int :=
  c.change (Record.hasKey kind ns name) (Record.addOwner ref)

/-- The first reference to the owner is removed. Without owners the object is an orphan. -/
def Record.removeOwner (ownerKind ownerName : CString) (obj : Record) : Record :=
  let ownerRefs := obj.ownerRefs.eraseP (OwnerRef.isTo ownerKind ownerName)
  { obj with ownerRefs := ownerRefs, orphaned := if ownerRefs.length = 0 then true else obj.orphaned }

/-- `gc_remove_owner_reference`. A record of the object without such a reference is passed over. -/
def Controller.removeOwnerReference (c : Controller) (kind ns name ownerKind ownerName : CString) :
    Controller × Int :=
  c.change (fun obj => obj.hasKey kind ns name && obj.ownerRefs.any (OwnerRef.isTo ownerKind ownerName))
    fun obj => some (obj.removeOwner ownerKind ownerName)

/-- `gc_add_finalizer`. -/
def Controller.addFinalizer (c : Controller) (kind ns name finalizer : CString) : Controller × Int :=
  c.change (Record.hasKey kind ns name) fun obj =>
    if obj.finalizers.length ≥ 10 then none
    else some { obj with finalizers := obj.finalizers ++ [finalizer.take 255] }

/-- `gc_remove_finalizer`. A record of the object without the finalizer is passed over. -/
def Controller.removeFinalizer (c : Controller) (kind ns name finalizer : CString) : Controller × Int :=
  c.change (fun obj => obj.hasKey kind ns name && obj.finalizers.any fun fin => fin == finalizer)
    fun obj => some { obj with finalizers := obj.finalizers.eraseP fun fin => fin == finalizer }

/-- `gc_has_finalizers`. -/
def Controller.hasFinalizers (c : Controller) (kind ns name : CString) : Bool :=
  ((c.objects.find? (Record.hasKey kind ns name)).map fun obj => decide (obj.finalizers.length > 0)).getD false

/-- `gc_mark_for_deletion`, at a time. -/
def Controller.markForDeletion (c : Controller) (now : Int) (kind ns name : CString) (grace : Int)
    (propagation : PropagationPolicy) : Controller × Int :=
  c.change (Record.hasKey kind ns name) fun obj => some
    { obj with
      pendingDeletion := true
      deletionTimestamp := now
      deletionGraceSeconds := grace
      propagationPolicy := propagation
      deletionStrategy := if propagation = .foreground then .withGracePeriod else .immediate }

/-- `gc_set_propagation_policy`. -/
def Controller.setPropagationPolicy (c : Controller) (kind ns name : CString) (policy : PropagationPolicy) :
    Controller × Int :=
  c.change (Record.hasKey kind ns name) fun obj => some { obj with propagationPolicy := policy }

/-! ## Cleaning up -/

/-- Does a cleanup ask for objects of this kind? -/
def Record.ofKind (kind : Option CString) (obj : Record) : Bool := kind.all fun k => obj.kind == k

/-- **The condition of a cleanup**: the record is an orphan of the kind that is asked for, it is marked, and
its grace period has passed. -/
def Record.dueForCleanup (now : Int) (kind : Option CString) (obj : Record) : Bool :=
  obj.orphaned && obj.ofKind kind && obj.pendingDeletion &&
    decide (now - obj.deletionTimestamp ≥ obj.deletionGraceSeconds)

/-- `gc_get_orphaned_objects`. -/
def Controller.getOrphanedObjects (c : Controller) (kind : Option CString) : List Record :=
  c.objects.filter fun obj => obj.ofKind kind && obj.orphaned

/-- `gc_cleanup_orphaned_objects`, with the number of records it removes. -/
def Controller.cleanupOrphanedObjects (c : Controller) (now : Int) (kind : Option CString) : Controller × Nat :=
  let objects := c.objects.sweep (Record.dueForCleanup now kind) c.objects.length
  ({ c with objects := objects }, c.objects.length - objects.length)

/-- A scan of `gc_controller_thread`. It tests the marks in another order, and objects of every kind. -/
def Controller.scan (c : Controller) (now : Int) : Controller :=
  let objects := c.objects.sweep (fun obj => obj.pendingDeletion && obj.orphaned &&
    decide (now - obj.deletionTimestamp ≥ obj.deletionGraceSeconds)) c.objects.length
  { objects := objects
    objectsScanned := objects.length
    objectsCleaned := c.objectsCleaned + (c.objects.length - objects.length)
    lastScan := now }

/-- **A cleanup removes what is due** and nothing else. -/
theorem cleanup_objects {c : Controller} {now : Int} {kind : Option CString} :
    (c.cleanupOrphanedObjects now kind).1.objects =
      c.objects.filter fun obj => !obj.dueForCleanup now kind :=
  List.sweep_length _ _

/-- **A scan is a cleanup** of every kind. -/
theorem scan_objects {c : Controller} {now : Int} :
    (c.scan now).objects = c.objects.filter fun obj => !obj.dueForCleanup now none := by
  refine (List.sweep_length _ _).trans (List.filter_congr fun obj _ => ?_)
  rw [Record.dueForCleanup, Record.ofKind, Option.all_none, Bool.and_true, Bool.and_comm obj.orphaned]

end Sirah.Gc
