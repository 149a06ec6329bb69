import Sirah.Lib.CString
import Sirah.Lib.Run
import Sirah.Lib.SplitFirst

/-!
# Storage classes

Model of `sirah/internal/storage/storage_class.c`: the array of classes and the calls that change it. A class is
looked up by its name, the first one that has it.

* `sc_create` refuses a name that is taken, and a class marked as default takes the mark from the others.
* `sc_update` puts the caller's record in the place of the class it finds, its name and its mark included.
* `sc_delete` refuses a class that is marked as default.

`Sound` is what the classes are meant to be: at most one is marked, no two share a name, and no deletion takes the
marked one away. **`sound_iff`**: along a run they are **iff** no update marks a class beside another that is, or gives
it the name of another. `default_beside_default`: an update marks a second class.
-/

namespace Sirah.StorageClasses

open Runs

/-! ## Data -/

/-- `storage_class_t`, without the fields that nothing here reads. -/
structure StorageClass where
  name : CString
  isDefault : Bool
  createdAt : Int
  deriving DecidableEq, Repr

/-- `sc_manager_t`: the classes in use. -/
abbrev Manager := List StorageClass

/-! ## Operations -/

namespace Manager

/-- `find_sc_index`: the class with what is before and behind it. -/
def findSc (m : Manager) (name : CString) : Option (Manager × StorageClass × Manager) :=
  List.splitFirst (fun c => decide (c.name = name)) m

/-- The mark is taken from a class. -/
def clear (c : StorageClass) : StorageClass := { c with isDefault := false }

/-- `sc_create`. -/
def create (m : Manager) (sc : StorageClass) (now : Int) : Manager × Int :=
  if sc.name = [] then (m, -1)
  else
    match m.findSc sc.name with
    | some _ => (m, -2)
    | none =>
      if m.length ≥ 100 then (m, -3)
      else ((if sc.isDefault then m.map clear else m) ++ [{ sc with createdAt := now }], 0)

/-- `sc_update`. -/
def update (m : Manager) (name : CString) (updated : StorageClass) : Manager × Int :=
  match m.findSc name with
  | none => (m, -2)
  | some (pre, current, post) => (pre ++ { updated with createdAt := current.createdAt } :: post, 0)

/-- `sc_delete`. -/
def delete (m : Manager) (name : CString) : Manager × Int :=
  match m.findSc name with
  | none => (m, -2)
  | some (pre, c, post) => if c.isDefault then (m, -3) else (pre ++ post, 0)

/-- `sc_set_default`. -/
def setDefault (m : Manager) (name : CString) : Manager × Int :=
  match m.findSc name with
  | none => (m, -2)
  | some (pre, c, post) => (pre.map clear ++ { c with isDefault := true } :: post.map clear, 0)

/-- The class that `sc_get_default` finds marked. -/
def marked (m : Manager) : Option StorageClass := m.find? fun c => c.isDefault

/-- `sc_get_default`. -/
def getDefault (m : Manager) : Except Int CString :=
  match m.marked with
  | some c => .ok c.name
  | none => if m.any fun c => decide (c.name = "default") then .ok "default" else .error (-2)

/-- The class of `sc_manager_init`. -/
def defaultSc (now : Int) : StorageClass where
  name := "default"
  isDefault := true
  createdAt := now

/-- `sc_manager_init`. -/
def init (now : Int) : Manager := (create [] (defaultSc now) now).1

inductive Op where
  | create (sc : StorageClass) (now : Int)
  | update (name : CString) (updated : StorageClass)
  | delete (name : CString)
  | setDefault (name : CString)

def step (m : Manager) : Op → Manager
  | .create sc now => (m.create sc now).1
  | .update name updated => (m.update name updated).1
  | .delete name => (m.delete name).1
  | .setDefault name => (m.setDefault name).1

/-! ## The default -/

/-- **What the classes are meant to be.** -/
structure Sound (m : Manager) : Prop where
  /-- At most one class is marked. -/
  atMostOne : m.countP (fun c => c.isDefault) ≤ 1
  /-- No two classes share a name. -/
  distinct : (m.map fun c => c.name).Nodup
  /-- The marked class that `sc_get_default` returns is not deleted. -/
  delete : ∀ name c, m.marked = some c → (m.delete name).1.marked = some c

/-- An update does not mark a class beside another that is, and does not give it the name of another. -/
def KeepsSound (m : Manager) : Op → Prop
  | .update name updated => name ∈ m.map (fun c => c.name) →
      ∀ c ∈ m, c.name ≠ name → c.name ≠ updated.name ∧ (updated.isDefault = true → c.isDefault = false)
  | _ => True

variable {m pre post : Manager} {c sc : StorageClass} {name : CString}

theorem findSc_cases (m : Manager) (name : CString) : (m.findSc name = none ∧ name ∉ m.map fun c => c.name) ∨
    ∃ pre c post, m.findSc name = some (pre, c, post) ∧ m = pre ++ c :: post ∧ c.name = name :=
  List.splitFirst_key_cases StorageClass.name m name

theorem map_name_clear (m : Manager) : ((m.map clear).map fun c => c.name) = m.map fun c => c.name := by
  rw [List.map_map]
  rfl

theorem countP_clear (m : Manager) : (m.map clear).countP (fun c => c.isDefault) = 0 := by
  rw [List.countP_map, List.countP_eq_zero]
  exact fun c _ => Bool.false_ne_true

theorem countP_insert (pre post : Manager) (c : StorageClass) :
    (pre ++ c :: post).countP (fun c => c.isDefault) =
      (pre ++ post).countP (fun c => c.isDefault) + if c.isDefault = true then 1 else 0 := by
  rw [List.countP_append, List.countP_cons, List.countP_append, Nat.add_assoc]

/-- **Only a class without the mark is deleted.** -/
theorem marked_delete (m : Manager) (name : CString) : (m.delete name).1.marked = m.marked := by
  rcases findSc_cases m name with ⟨hnone, -⟩ | ⟨pre, c, post, hsome, rfl, -⟩
  · simp only [delete, hnone]
  · simp only [delete, hsome]
    split
    · rfl
    · next hmark => simp only [marked, List.find?_append, List.find?_cons_of_neg hmark]

theorem sound_iff_count : m.Sound ↔ m.countP (fun c => c.isDefault) ≤ 1 ∧ (m.map fun c => c.name).Nodup := by
  refine ⟨fun h => ⟨h.atMostOne, h.distinct⟩, fun h => ⟨h.1, h.2, fun name c hc => ?_⟩⟩
  rw [marked_delete, hc]

theorem Sound.create (h : m.Sound) (sc : StorageClass) (now : Int) : (m.create sc now).1.Sound := by
  unfold Manager.create
  split
  · exact h
  rcases findSc_cases m sc.name with ⟨hnone, hfree⟩ | ⟨pre, c, post, hsome, -, -⟩
  · simp only [hnone]
    split
    · exact h
    · rw [sound_iff_count, List.nodup_map_concat, List.countP_append, List.countP_singleton]
      cases hmark : sc.isDefault with
      | true =>
        rw [if_pos rfl, countP_clear, map_name_clear]
        exact ⟨by simp, hfree, h.distinct⟩
      | false =>
        rw [if_neg Bool.false_ne_true, if_neg Bool.false_ne_true]
        exact ⟨h.atMostOne, hfree, h.distinct⟩
  · simp only [hsome]
    exact h

theorem Sound.delete_step (h : m.Sound) (name : CString) : (m.delete name).1.Sound := by
  rcases findSc_cases m name with ⟨hnone, -⟩ | ⟨pre, c, post, hsome, rfl, -⟩
  · simp only [Manager.delete, hnone]
    exact h
  · simp only [Manager.delete, hsome]
    split
    · exact h
    · have hcount := (List.beside_sublist pre c post).countP_le (p := fun c => c.isDefault)
      exact sound_iff_count.mpr ⟨hcount.trans h.atMostOne, List.nodup_remove h.distinct⟩

theorem Sound.setDefault (h : m.Sound) (name : CString) : (m.setDefault name).1.Sound := by
  rcases findSc_cases m name with ⟨hnone, -⟩ | ⟨pre, c, post, hsome, rfl, -⟩
  · simp only [Manager.setDefault, hnone]
    exact h
  · simp only [Manager.setDefault, hsome]
    refine sound_iff_count.mpr ⟨?_, ?_⟩
    · rw [countP_insert, List.countP_append, countP_clear, countP_clear]
      simp
    · have hnames := h.distinct
      rw [List.map_append, List.map_cons] at hnames ⊢
      rwa [map_name_clear, map_name_clear]

/-- **What an update does**, exactly. -/
theorem sound_update_iff (h : m.Sound) (name : CString) (updated : StorageClass) :
    (m.update name updated).1.Sound ↔ m.KeepsSound (.update name updated) := by
  rcases findSc_cases m name with ⟨hnone, hfree⟩ | ⟨pre, c, post, hsome, rfl, rfl⟩
  · simp only [Manager.update, hnone]
    exact iff_of_true h fun hmem => absurd hmem hfree
  · have hcount := h.atMostOne
    rw [countP_insert] at hcount
    have hothers : ∀ z, z ∈ pre ++ post ↔ z ∈ pre ++ c :: post ∧ z.name ≠ c.name := fun z =>
      List.mem_beside_iff h.distinct
    simp only [Manager.update, hsome]
    rw [sound_iff_count, countP_insert, List.nodup_replace_iff h.distinct]
    constructor
    · rintro ⟨hone, hnew⟩ - z hz hne
      have hmem := (hothers z).mpr ⟨hz, hne⟩
      refine ⟨hnew z hmem, fun hmark => ?_⟩
      rw [if_pos hmark] at hone
      have hzero : (pre ++ post).countP (fun c => c.isDefault) = 0 := by omega
      exact Bool.eq_false_iff.mpr (List.countP_eq_zero.mp hzero z hmem)
    · intro hkeep
      have hname : c.name ∈ (pre ++ c :: post).map fun c => c.name :=
        List.mem_map_of_mem (List.mem_append_right _ List.mem_cons_self)
      have hbeside : ∀ z ∈ pre ++ post, z.name ≠ updated.name ∧ (updated.isDefault = true → z.isDefault = false) :=
        fun z hz => hkeep hname z ((hothers z).mp hz).1 ((hothers z).mp hz).2
      refine ⟨?_, fun z hz => (hbeside z hz).1⟩
      split
      · next hmark =>
        have hzero : (pre ++ post).countP (fun c => c.isDefault) = 0 := by
          rw [List.countP_eq_zero]
          intro z hz
          rw [(hbeside z hz).2 hmark]
          exact Bool.false_ne_true
        omega
      · omega

theorem sound_step_iff (op : Op) (h : m.Sound) : (m.step op).Sound ↔ m.KeepsSound op := by
  cases op with
  | create sc now => exact iff_of_true (h.create sc now) trivial
  | update name updated => exact sound_update_iff h name updated
  | delete name => exact iff_of_true (h.delete_step name) trivial
  | setDefault name => exact iff_of_true (h.setDefault name) trivial

theorem sound_nil : Sound [] := sound_iff_count.mpr ⟨Nat.zero_le 1, List.nodup_nil⟩

/-- **One default and distinct names, exactly** along the runs whose updates keep them so. -/
theorem sound_iff (now : Int) (ops : List Op) :
    AllStates step Sound (init now) ops ↔ AllSteps step KeepsSound (init now) ops :=
  allStates_iff_allSteps (I := fun _ => True) (A := fun _ _ => True) (fun _ _ _ _ => trivial)
    (fun _ op _ _ h => sound_step_iff op h) trivial (sound_nil.create _ _) allSteps_true

/-- A second class, without the mark. -/
def fastSc : StorageClass := { defaultSc 0 with name := "fast", isDefault := false }

/-- **Two defaults**: an update marks the second class beside the first. -/
theorem default_beside_default : ¬ ∀ (now : Int) (ops : List Op), AllStates step Sound (init now) ops := by
  intro h
  have hrun := (h 0 [.create fastSc 0, .update "fast" { fastSc with isDefault := true }]).run_mem
  have hone := hrun.atMostOne
  exact absurd hone (by decide)

end Manager

end Sirah.StorageClasses
