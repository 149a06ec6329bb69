import Sirah.GarbageCollector.GcController

/-!
# Deletion cascades

`gc_start_deletion_cascade` and `gc_get_dependent_objects` of `internal/controller/gc_controller.c` look for
the objects that an owner leaves behind. Both go through all records and all their references, and compare the
kind and the name of the owner; the namespace they are given is not read.

* `CascadeRight`: the cascade lists the objects of the namespace that refer to the owner, each once, and the
  dependent objects are the same.
* **`cascadeRight_iff`**: it is so **iff** the records that refer to an owner of the kind and name are all of
  the namespace, refer to it once, and have distinct keys.
* `dependentObjects_eq`: the two functions find the same, always.
* `other_tenant_listed`: an object of another namespace is listed.
-/

namespace Sirah.Gc

/-! ## The two searches -/

/-- What a cascade says of an object. -/
structure Item where
  kind : CString
  ns : CString
  name : CString
  deriving DecidableEq

def Record.item (obj : Record) : Item := ⟨obj.kind, obj.ns, obj.name⟩

/-- Does the record refer to an owner of this kind and name? -/
def Record.refersTo (kind name : CString) (obj : Record) : Bool := obj.ownerRefs.any (OwnerRef.isTo kind name)

/-- The records that the two nested loops come by: one for each reference. -/
def Controller.ownedBy (c : Controller) (kind name : CString) : List Record :=
  c.objects.flatMap fun obj => (obj.ownerRefs.filter (OwnerRef.isTo kind name)).map fun _ => obj

/-- `gc_start_deletion_cascade`: the list, and what it returns. -/
def Controller.startDeletionCascade (c : Controller) (kind _ns name : CString) : List Item × Nat :=
  ((c.ownedBy kind name).map Record.item, (c.ownedBy kind name).length)

/-- The arrays and the number that `gc_get_dependent_objects` gives back. -/
structure Dependents where
  kinds : List CString
  names : List CString
  namespaces : List CString
  count : Nat

/-- `gc_get_dependent_objects`. It counts first, and allocates nothing for no dependent. -/
def Controller.getDependentObjects (c : Controller) (kind _ns name : CString) : Dependents :=
  if (c.ownedBy kind name).length = 0 then ⟨[], [], [], 0⟩
  else
    { kinds := (c.ownedBy kind name).map Record.kind
      names := (c.ownedBy kind name).map Record.name
      namespaces := (c.ownedBy kind name).map Record.ns
      count := (c.ownedBy kind name).length }

/-- The dependents, one entry of each array after the other. -/
def Dependents.items (d : Dependents) : List Item :=
  (d.kinds.zip (d.namespaces.zip d.names)).map fun entry => ⟨entry.1, entry.2.1, entry.2.2⟩

/-- **The cascade is right**, and the dependent objects are the same. -/
structure CascadeRight (c : Controller) (kind ns name : CString) : Prop where
  once : (c.startDeletionCascade kind ns name).1.Nodup
  exact : ∀ item, item ∈ (c.startDeletionCascade kind ns name).1 ↔
    ∃ obj ∈ c.objects, obj.ns = ns ∧ obj.refersTo kind name = true ∧ obj.item = item
  same : ∀ item, item ∈ (c.getDependentObjects kind ns name).items ↔
    item ∈ (c.startDeletionCascade kind ns name).1

/-- The records that refer to an owner of the kind and name are of the namespace, refer to it once, and have
distinct keys. -/
structure Unambiguous (c : Controller) (kind ns name : CString) : Prop where
  inside : ∀ obj ∈ c.objects, obj.refersTo kind name = true → obj.ns = ns
  single : ∀ obj ∈ c.objects, obj.ownerRefs.countP (OwnerRef.isTo kind name) ≤ 1
  keys : ((c.objects.filter (Record.refersTo kind name)).map Record.item).Nodup

variable {c : Controller} {kind ns name : CString} {item : Item} {obj : Record}

/-! ## What is listed -/

/-- **Both functions find the same**, in the same order. -/
theorem dependentObjects_eq :
    (c.getDependentObjects kind ns name).items = (c.startDeletionCascade kind ns name).1 := by
  unfold Controller.getDependentObjects Controller.startDeletionCascade
  split
  · rename_i h
    rw [List.length_eq_zero_iff.mp h]
    rfl
  · simp only [Dependents.items, List.zip_map', List.map_map]
    rfl

theorem refersTo_iff : obj.refersTo kind name = true ↔ 0 < obj.ownerRefs.countP (OwnerRef.isTo kind name) := by
  rw [Record.refersTo, List.any_eq_true, List.countP_pos_iff]

/-- What is listed refers to an owner of the kind and name, in whatever namespace. -/
theorem mem_cascade : item ∈ (c.startDeletionCascade kind ns name).1 ↔
    ∃ obj ∈ c.objects, obj.refersTo kind name = true ∧ obj.item = item := by
  simp only [Controller.startDeletionCascade, Controller.ownedBy, List.mem_map, List.mem_flatMap,
    List.mem_filter, Record.refersTo, List.any_eq_true]
  constructor
  · rintro ⟨_, ⟨obj, hobj, ref, href, rfl⟩, hitem⟩
    exact ⟨obj, hobj, ⟨ref, href⟩, hitem⟩
  · rintro ⟨obj, hobj, ⟨ref, href⟩, hitem⟩
    exact ⟨obj, ⟨obj, hobj, ref, href, rfl⟩, hitem⟩

/-- Elements listed a number of times are listed once, exactly if no number is above one and what is listed
is distinct. -/
theorem nodup_flatMap_replicate_iff {α β : Type} {n : α → Nat} {f : α → β} {l : List α} :
    (l.flatMap fun x => List.replicate (n x) (f x)).Nodup ↔
      (∀ x ∈ l, n x ≤ 1) ∧ ((l.filter fun x => decide (0 < n x)).map f).Nodup := by
  have hmem : ∀ (l : List α) (b : β), b ∈ l.flatMap (fun x => List.replicate (n x) (f x)) ↔
      b ∈ (l.filter fun x => decide (0 < n x)).map f := by
    intro l b
    simp only [List.mem_flatMap, List.mem_replicate, List.mem_map, List.mem_filter, decide_eq_true_eq,
      Nat.pos_iff_ne_zero]
    exact exists_congr fun x => ⟨fun h => ⟨⟨h.1, h.2.1⟩, h.2.2.symm⟩, fun h => ⟨h.1.1, h.1.2, h.2.symm⟩⟩
  induction l with
  | nil => simp
  | cons x l ih =>
    rw [List.flatMap_cons, List.nodup_append, List.nodup_replicate, List.forall_mem_cons]
    simp only [ih]
    rcases Nat.eq_zero_or_pos (n x) with hzero | hpos
    · rw [hzero, List.filter_cons_of_neg (by simp [hzero])]
      simp
    · rw [List.filter_cons_of_pos (by simp [hpos]), List.map_cons, List.nodup_cons]
      simp only [List.mem_replicate, hmem]
      constructor
      · rintro ⟨hx, ⟨hl, hnodup⟩, hdisjoint⟩
        exact ⟨⟨hx, hl⟩, fun hfx => hdisjoint _ ⟨Nat.ne_of_gt hpos, rfl⟩ _ hfx rfl, hnodup⟩
      · rintro ⟨⟨hx, hl⟩, hfx, hnodup⟩
        refine ⟨hx, ⟨hl, hnodup⟩, ?_⟩
        rintro _ ⟨-, rfl⟩ b hb rfl
        exact hfx hb

/-- **No object is listed twice** exactly if the records refer to the owner once and have distinct keys. -/
theorem nodup_cascade_iff : (c.startDeletionCascade kind ns name).1.Nodup ↔
    (∀ obj ∈ c.objects, obj.ownerRefs.countP (OwnerRef.isTo kind name) ≤ 1) ∧
      ((c.objects.filter (Record.refersTo kind name)).map Record.item).Nodup := by
  have hlist : (c.startDeletionCascade kind ns name).1 = c.objects.flatMap fun obj =>
      List.replicate (obj.ownerRefs.countP (OwnerRef.isTo kind name)) obj.item := by
    simp only [Controller.startDeletionCascade, Controller.ownedBy, List.map_flatMap, List.map_map,
      List.countP_eq_length_filter]
    exact List.flatMap_congr fun obj _ => List.map_const
  have hfilter : c.objects.filter (Record.refersTo kind name) =
      c.objects.filter fun obj => decide (0 < obj.ownerRefs.countP (OwnerRef.isTo kind name)) :=
    List.filter_congr fun obj _ => Bool.eq_iff_iff.mpr (refersTo_iff.trans decide_eq_true_iff.symm)
  rw [hlist, hfilter]
  exact nodup_flatMap_replicate_iff

/-- **The cascade is right, exactly** where the records that refer to the owner's kind and name are of its
namespace, refer to it once, and have distinct keys. -/
theorem cascadeRight_iff : CascadeRight c kind ns name ↔ Unambiguous c kind ns name := by
  constructor
  · rintro ⟨honce, hexact, -⟩
    obtain ⟨hsingle, hkeys⟩ := nodup_cascade_iff.mp honce
    refine ⟨fun obj hobj href => ?_, hsingle, hkeys⟩
    obtain ⟨other, -, hns, -, hitem⟩ := (hexact obj.item).mp (mem_cascade.mpr ⟨obj, hobj, href, rfl⟩)
    rw [← hns]
    exact (congrArg Item.ns hitem).symm
  · rintro ⟨hinside, hsingle, hkeys⟩
    refine ⟨nodup_cascade_iff.mpr ⟨hsingle, hkeys⟩, fun item => ?_, fun item => ?_⟩
    · rw [mem_cascade]
      refine exists_congr fun obj => and_congr_right fun hobj => ?_
      exact ⟨fun h => ⟨hinside obj hobj h.1, h⟩, And.right⟩
    · rw [dependentObjects_eq]

/-! ## Two tenants -/

/-- The owner of every object lives in its namespace. -/
def OwnersLocal (c : Controller) : Prop :=
  ∀ obj ∈ c.objects, ∀ ref ∈ obj.ownerRefs, ref.ownerNamespace = obj.ns

/-- A replica set of a namespace. -/
def webOwner (ns : CString) : OwnerRef := ⟨"ReplicaSet", "web", ns, "", true, false⟩

/-- A pod of a replica set `web` in each of two namespaces. -/
def twoTenants : Controller :=
  ((((Controller.init.registerObject "Pod" "blue" "web-1" "").1.addOwnerReference "Pod" "blue" "web-1"
    (webOwner "blue")).1.registerObject "Pod" "green" "web-1" "").1.addOwnerReference "Pod" "green" "web-1"
    (webOwner "green")).1

/-- **The pod of the other tenant is listed** in the cascade of a replica set. -/
theorem other_tenant_listed :
    ¬ ∀ (c : Controller) (kind ns name : CString), OwnersLocal c → CascadeRight c kind ns name := by
  intro h
  have hlocal : OwnersLocal twoTenants := by
    unfold OwnersLocal
    decide
  have hlisted : (⟨"Pod", "green", "web-1"⟩ : Item) ∈ (twoTenants.startDeletionCascade "ReplicaSet" "blue" "web").1 := by
    decide
  obtain ⟨obj, -, hns, -, hitem⟩ := ((h twoTenants "ReplicaSet" "blue" "web" hlocal).exact _).mp hlisted
  exact absurd (hns.symm.trans (congrArg Item.ns hitem)) (by decide)

end Sirah.Gc
