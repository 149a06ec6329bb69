import Sirah.GarbageCollector.GcController
import Sirah.Lib.Run

/-!
# Finalizers and collection

The calls of `internal/controller/gc_controller.c` and the scans of its thread over a run, with a clock that
does not go back. A collection is right if it removes the marked objects that have neither a finalizer nor an
owner and whose grace period has passed, and no other object.

* `World.hadOwner`: whether each record ever had an owner. The source keeps the flag `orphaned` instead, which only
  the removal of a last owner sets; `Flagged` is the invariant that says so.
* `CollectsRight`: a cleanup, or a scan, removes what it should.
* **`collectsRight_iff`**: along a run every collection is right **iff** each record that one of them finds marked,
  without owners and past its grace period had an owner once exactly if it has no finalizer.
* `finalizer_ignored`: an object with a finalizer is removed. `never_owned_stays`: one that never had an owner is not.
-/

namespace Sirah.Gc

open Runs

/-! ## Runs -/

/-- The controller, whether each of its records ever had an owner, and the clock. -/
structure World where
  controller : Controller
  hadOwner : List Bool
  clock : Int

def World.init (clock : Int) : World := ⟨.init, [], clock⟩

inductive Op where
  | register (kind ns name uid : CString)
  | unregister (kind ns name : CString)
  | addFinalizer (kind ns name finalizer : CString)
  | removeFinalizer (kind ns name finalizer : CString)
  | addOwner (kind ns name : CString) (ref : OwnerRef)
  | removeOwner (kind ns name ownerKind ownerName : CString)
  | mark (kind ns name : CString) (grace : Int) (propagation : PropagationPolicy)
  /-- `gc_cleanup_orphaned_objects`, of one kind or of all. -/
  | cleanup (kind : Option CString)
  /-- A scan of the collector thread. -/
  | scan
  /-- Time passes. -/
  | tick (seconds : Nat)

/-- The place of the record that the calls for an object change. -/
def World.place (w : World) (kind ns name : CString) : Nat := w.controller.objects.findIdx (Record.hasKey kind ns name)

/-- The histories of the records that a collection leaves. -/
def World.kept (w : World) (kind : Option CString) : List Bool :=
  ((w.controller.objects.zip w.hadOwner).filter fun x => !x.1.dueForCleanup w.clock kind).map Prod.snd

def step (w : World) : Op → World
  | .register kind ns name uid =>
    let r := w.controller.registerObject kind ns name uid
    { w with controller := r.1, hadOwner := if r.2 = 0 then w.hadOwner ++ [false] else w.hadOwner }
  | .unregister kind ns name =>
    let r := w.controller.unregisterObject kind ns name
    { w with controller := r.1
             hadOwner := if r.2 = 0 then w.hadOwner.eraseIdx (w.place kind ns name) else w.hadOwner }
  | .addFinalizer kind ns name finalizer =>
    { w with controller := (w.controller.addFinalizer kind ns name finalizer).1 }
  | .removeFinalizer kind ns name finalizer =>
    { w with controller := (w.controller.removeFinalizer kind ns name finalizer).1 }
  | .addOwner kind ns name ref =>
    let r := w.controller.addOwnerReference kind ns name ref
    { w with controller := r.1
             hadOwner := if r.2 = 0 then w.hadOwner.modify (w.place kind ns name) fun _ => true else w.hadOwner }
  | .removeOwner kind ns name ownerKind ownerName =>
    { w with controller := (w.controller.removeOwnerReference kind ns name ownerKind ownerName).1 }
  | .mark kind ns name grace propagation =>
    { w with controller := (w.controller.markForDeletion w.clock kind ns name grace propagation).1 }
  | .cleanup kind =>
    { w with controller := (w.controller.cleanupOrphanedObjects w.clock kind).1, hadOwner := w.kept kind }
  | .scan => { w with controller := w.controller.scan w.clock, hadOwner := w.kept none }
  | .tick seconds => { w with clock := w.clock + seconds }

/-! ## Right collections -/

/-- A marked record of the kind that is asked for, without owners, whose grace period has passed since it was marked. -/
def Record.ripe (now : Int) (kind : Option CString) (obj : Record) : Bool :=
  obj.pendingDeletion && obj.ofKind kind && obj.ownerRefs.isEmpty &&
    decide (obj.deletionTimestamp + obj.deletionGraceSeconds ≤ now)

/-- **What a collection should remove**: such a record that has no finalizer. -/
def Record.collectible (now : Int) (kind : Option CString) (obj : Record) : Bool :=
  obj.ripe now kind && obj.finalizers.isEmpty

/-- **A collection is right**: it removes what is collectible and leaves the rest. -/
def CollectsRight (w : World) : Op → Prop
  | .cleanup kind => (step w (.cleanup kind)).controller.objects =
      w.controller.objects.filter fun obj => !obj.collectible w.clock kind
  | .scan => (step w .scan).controller.objects =
      w.controller.objects.filter fun obj => !obj.collectible w.clock none
  | _ => True

/-- Each ripe record had an owner once, or has a finalizer, but not both. -/
def Settled (w : World) (kind : Option CString) : Prop :=
  ∀ x ∈ w.controller.objects.zip w.hadOwner, x.1.ripe w.clock kind = true → (x.2 = true ↔ x.1.finalizers = [])

/-- A collection finds only such records. -/
def FindsSettled (w : World) : Op → Prop
  | .cleanup kind => Settled w kind
  | .scan => Settled w none
  | _ => True

/-- A record and its history: it has the flag exactly if it has no owner and had one. -/
def Tells (obj : Record) (had : Bool) : Prop :=
  (obj.orphaned = true ↔ obj.ownerRefs = [] ∧ had = true) ∧ (obj.ownerRefs ≠ [] → had = true)

/-- **The invariant**: the flags tell the histories. -/
def Flagged (w : World) : Prop := List.Forall₂ Tells w.controller.objects w.hadOwner

variable {w : World} {op : Op} {obj : Record} {now : Int} {kind : Option CString}

/-- What a collection removes, by the history of the record. -/
theorem Tells.due_eq {had : Bool} (h : Tells obj had) :
    obj.dueForCleanup now kind = (obj.ripe now kind && had) := by
  have htime : decide (now - obj.deletionTimestamp ≥ obj.deletionGraceSeconds) =
      decide (obj.deletionTimestamp + obj.deletionGraceSeconds ≤ now) := by
    refine decide_eq_decide.mpr ?_
    omega
  have hflag : obj.orphaned = (obj.ownerRefs.isEmpty && had) := by
    rw [Bool.eq_iff_iff, h.1, Bool.and_eq_true, List.isEmpty_iff]
  rw [Record.dueForCleanup, Record.ripe, htime, hflag]
  cases obj.pendingDeletion <;> cases obj.ofKind kind <;> cases obj.ownerRefs.isEmpty <;> cases had <;> simp

/-- **A collection is right, exactly** if the ripe records it finds are settled. -/
theorem filter_due_eq_iff (h : Flagged w) :
    (w.controller.objects.filter fun obj => !obj.dueForCleanup w.clock kind) =
      (w.controller.objects.filter fun obj => !obj.collectible w.clock kind) ↔ Settled w kind := by
  obtain ⟨hlength, htells⟩ := List.forall₂_iff_zip.mp h
  have hobjects : (w.controller.objects.zip w.hadOwner).map Prod.fst = w.controller.objects :=
    List.map_fst_zip hlength.le
  have hall : (∀ obj ∈ w.controller.objects, (!obj.dueForCleanup w.clock kind) = !obj.collectible w.clock kind) ↔
      ∀ x ∈ w.controller.objects.zip w.hadOwner,
        (!x.1.dueForCleanup w.clock kind) = !x.1.collectible w.clock kind := by
    refine ⟨fun hobj x hx => hobj x.1 (hobjects ▸ List.mem_map_of_mem hx), fun hzip obj hobj => ?_⟩
    rw [← hobjects] at hobj
    obtain ⟨x, hx, rfl⟩ := List.mem_map.mp hobj
    exact hzip x hx
  rw [List.filter_eq_filter_iff]
  refine hall.trans (forall₂_congr fun x hx => ?_)
  rw [Record.collectible, (htells hx).due_eq]
  cases x.1.ripe w.clock kind with
  | false => simp
  | true => cases x.2 <;> cases x.1.finalizers <;> simp

theorem collectsRight_step_iff (h : Flagged w) : CollectsRight w op ↔ FindsSettled w op := by
  cases op with
  | cleanup kind =>
    show (w.controller.cleanupOrphanedObjects w.clock kind).1.objects = _ ↔ _
    rw [cleanup_objects]
    exact filter_due_eq_iff h
  | scan =>
    show (w.controller.scan w.clock).objects = _ ↔ _
    rw [scan_objects]
    exact filter_due_eq_iff h
  | _ => exact Iff.rfl

/-! ## The invariant -/

/-- The histories beside a record. -/
theorem forall₂_split {R : Record → Bool → Prop} {pre post : List Record} {bs : List Bool}
    (h : List.Forall₂ R (pre ++ obj :: post) bs) : ∃ pre' b post', bs = pre' ++ b :: post' ∧ pre'.length = pre.length ∧
      List.Forall₂ R pre pre' ∧ R obj b ∧ List.Forall₂ R post post' := by
  induction pre generalizing bs with
  | nil =>
    cases h with
    | cons hR hpost => exact ⟨[], _, _, rfl, rfl, .nil, hR, hpost⟩
  | cons x pre ih =>
    cases h with
    | cons hR hrest =>
      obtain ⟨pre', b, post', rfl, hlength, hpre, hobj, hpost⟩ := ih hrest
      exact ⟨_ :: pre', b, post', rfl, congrArg (· + 1) hlength, .cons hR hpre, hobj, hpost⟩

/-- The first record that satisfies `p` is behind those that do not. -/
theorem findIdx_append_cons {p : Record → Bool} {pre post : List Record} (hpre : ∀ x ∈ pre, p x = false)
    (hp : p obj = true) : (pre ++ obj :: post).findIdx p = pre.length := by
  have hlt : ¬ pre.findIdx p < pre.length := by
    rw [List.findIdx_lt_length]
    rintro ⟨y, hy, hpy⟩
    exact Bool.false_ne_true ((hpre y hy).symm.trans hpy)
  rw [List.findIdx_append, List.findIdx_cons, hp, if_neg hlt]
  exact Nat.zero_add _

/-- **One record is changed**, and its history by `g`. -/
theorem Flagged.change (h : Flagged w) {p : Record → Bool} {f : Record → Option Record} {g : Bool → Bool} {place : Nat}
    (hplace : place = w.controller.objects.findIdx p)
    (hf : ∀ old obj had, Tells old had → p old = true → f old = some obj → Tells obj (g had)) :
    Flagged { w with controller := (w.controller.change p f).1
                     hadOwner := if (w.controller.change p f).2 = 0 then w.hadOwner.modify place g else w.hadOwner } := by
  unfold Flagged
  rcases List.splitFirst_cases p w.controller.objects with ⟨hnone, -⟩ | ⟨pre, old, post, hsome, -⟩
  · have hsame : w.controller.change p f = (w.controller, -1) := by rw [Controller.change, hnone]
    rw [hsame]
    exact h
  · obtain ⟨hl, hp, hpre⟩ := List.splitFirst_eq_some hsome
    cases hchange : f old with
    | none =>
      have hsame : w.controller.change p f = (w.controller, -1) := by simp only [Controller.change, hsome, hchange]
      rw [hsame]
      exact h
    | some obj =>
      have hnew : w.controller.change p f = ({ w.controller with objects := pre ++ obj :: post }, 0) := by
        simp only [Controller.change, hsome, hchange]
      unfold Flagged at h
      rw [hl] at h
      obtain ⟨pre', b, post', hbs, hlength, hforall, hold, hpost⟩ := forall₂_split h
      have hfound : place = pre'.length := by
        rw [hplace, hl, hlength]
        exact findIdx_append_cons hpre hp
      rw [hnew, hfound, hbs, if_pos rfl, List.modify_append_cons]
      exact List.rel_append hforall (.cons (hf old obj b hold hp hchange) hpost)

/-- One record is changed, and its history stays. -/
theorem Flagged.change_same (h : Flagged w) {p : Record → Bool} {f : Record → Option Record}
    (hf : ∀ old obj had, Tells old had → p old = true → f old = some obj → Tells obj had) :
    Flagged { w with controller := (w.controller.change p f).1 } := by
  have hchange := h.change (g := id) rfl hf
  rwa [List.modify_id, ite_self] at hchange

/-- A record and its history go together. -/
theorem forall₂_erase {p : Record → Bool} {objs : List Record} {hads : List Bool} (h : List.Forall₂ Tells objs hads)
    (hany : objs.any p = true) : List.Forall₂ Tells (objs.eraseP p) (hads.eraseIdx (objs.findIdx p)) := by
  obtain ⟨x, hx, hpx⟩ := List.any_eq_true.mp hany
  obtain ⟨obj, pre, post, hpre, hp, rfl, herase⟩ := List.exists_of_eraseP hx hpx
  obtain ⟨pre', b, post', rfl, hlength, hforall, -, hpost⟩ := forall₂_split h
  rw [herase, findIdx_append_cons (fun y hy => Bool.eq_false_iff.mpr (hpre y hy)) hp, ← hlength,
    List.eraseIdx_append_of_length_le le_rfl, Nat.sub_self]
  exact List.rel_append hforall hpost

/-- What a collection leaves. -/
theorem forall₂_filter {objs : List Record} {hads : List Bool} (h : List.Forall₂ Tells objs hads) (q : Record → Bool) :
    List.Forall₂ Tells (objs.filter q) (((objs.zip hads).filter fun x => q x.1).map Prod.snd) := by
  induction h with
  | nil => exact .nil
  | @cons obj had objs hads hhead _ ih =>
    rw [List.zip_cons_cons, List.filter_cons, List.filter_cons]
    cases q obj with
    | true => exact .cons hhead ih
    | false => exact ih

theorem Flagged.step (h : Flagged w) : Flagged (step w op) := by
  cases op with
  | register kind ns name uid =>
    simp only [Gc.step, Controller.registerObject]
    split
    · exact h
    · exact List.rel_append h (.cons ⟨iff_of_false Bool.false_ne_true fun hand => Bool.false_ne_true hand.2, absurd rfl⟩ .nil)
  | unregister kind ns name =>
    simp only [Gc.step, Controller.unregisterObject]
    split
    · exact forall₂_erase h ‹_›
    · exact h
  | addFinalizer kind ns name finalizer =>
    refine h.change_same fun old obj had htells _ hchange => ?_
    split at hchange
    · cases hchange
    · cases hchange
      exact htells
  | removeFinalizer kind ns name finalizer =>
    refine h.change_same fun old obj had htells _ hchange => ?_
    cases hchange
    exact htells
  | addOwner kind ns name ref =>
    refine h.change rfl fun old obj had htells _ hchange => ?_
    unfold Record.addOwner at hchange
    split at hchange
    · cases hchange
    · cases hchange
      exact ⟨iff_of_false Bool.false_ne_true fun hand => by simpa using hand.1, fun _ => rfl⟩
  | removeOwner kind ns name ownerKind ownerName =>
    refine h.change_same fun old obj had htells hp hchange => ?_
    cases hchange
    have hany := (Bool.and_eq_true_iff.mp hp).2
    have hhad : had = true := by
      refine htells.2 fun hnil => ?_
      rw [hnil] at hany
      exact Bool.false_ne_true hany
    have hflag : old.orphaned = false := by
      rw [← Bool.not_eq_true, htells.1]
      rintro ⟨hnil, -⟩
      rw [hnil] at hany
      exact Bool.false_ne_true hany
    refine ⟨?_, fun _ => hhad⟩
    simp only [Record.removeOwner, hhad, and_true, hflag, List.length_eq_zero_iff]
    split <;> simp_all
  | mark kind ns name grace propagation =>
    refine h.change_same fun old obj had htells _ hchange => ?_
    cases hchange
    exact htells
  | cleanup kind =>
    show List.Forall₂ Tells (w.controller.cleanupOrphanedObjects w.clock kind).1.objects _
    rw [cleanup_objects]
    exact forall₂_filter h _
  | scan =>
    show List.Forall₂ Tells (w.controller.scan w.clock).objects _
    rw [scan_objects]
    exact forall₂_filter h _
  | tick seconds => exact h

/-- **Collections are right, exactly.** Along a run from the empty table every cleanup and every scan removes what is
collectible and nothing else **iff** each ripe record that one of them finds had an owner once, or has a finalizer, but not
both. -/
theorem collectsRight_iff {clock : Int} {ops : List Op} :
    AllSteps step CollectsRight (World.init clock) ops ↔ AllSteps step FindsSettled (World.init clock) ops :=
  allSteps_congr (fun _ _ h => collectsRight_step_iff h) (allStates_of_step (fun _ _ h => h.step) .nil)

/-! ## A finalizer that is ignored -/

/-- **An object with a finalizer is removed** by the scan after it lost its owner and was marked. -/
theorem finalizer_ignored :
    ¬ ∀ (clock : Int) (ops : List Op), AllSteps step CollectsRight (World.init clock) ops := by
  intro h
  have hrun := h 0 [.register "Pod" "default" "web-1" "",
    .addOwner "Pod" "default" "web-1" ⟨"ReplicaSet", "web", "default", "", true, false⟩,
    .addFinalizer "Pod" "default" "web-1" "pvc-protection",
    .removeOwner "Pod" "default" "web-1" "ReplicaSet" "web",
    .mark "Pod" "default" "web-1" 0 .background, .scan]
  have hscan := hrun.2.2.2.2.2.1
  unfold CollectsRight at hscan
  exact absurd hscan (by decide)

/-- **An object that never had an owner stays**, though it is marked and its grace period has passed. -/
theorem never_owned_stays : ¬ AllSteps step CollectsRight (World.init 0)
    [.register "Pod" "default" "web-1" "", .mark "Pod" "default" "web-1" 0 .background, .scan] := by
  intro h
  have hscan := h.2.2.1
  unfold CollectsRight at hscan
  exact absurd hscan (by decide)

end Sirah.Gc
