import Sirah.Job.Job
import Sirah.Lib.Represents
import Sirah.Lib.Run
import Sirah.StatefulSet.StatefulSet

/-!
# The stores of jobs and stateful sets

`internal/job/job.c` and `internal/statefulset/statefulset.c` keep their objects in tables with the same create, get,
update and delete. `Kind` is what they differ in.

* A creation and an update copy the specification of the caller as it is, then `strncpy` the namespace and the name
  into it and set some fields. The arrays are `char namespace[128]` and `char name[256]`, and their last bytes are
  never written: they stay the caller's. A namespace that fills the other 127 goes on, for `strcmp`, with that byte
  and the `int32_t` behind the array (`storedKey`).
* An update puts back the time of creation and counts up the generation it finds, which is the caller's.
* `History` is what the calls that succeeded say: for each key the time of its creation and the number of updates
  since, or nothing. `MapWithGenerations` is what the store promises about it.

**`map_with_generations_iff`**: along a run of calls either store keeps its promise **iff** every creation and update
that is made stores its key as it is given, and every update brings the generation that is stored, which is not the
largest. `generation_lost`: an update whose specification has no generation sets it back to 1.
-/

namespace Sirah.Workload

open Runs KeyedRecords CString

/-! ## The two kinds -/

/-- What the two stores differ in: their specifications and statuses, the size of the table, what is accepted, and the
`int32_t` that follows the namespace in the specification. -/
structure Kind where
  Spec : Type
  Status : Type
  capacity : Nat
  validateSpec : Spec → Option String
  ns : Spec → CString
  name : Spec → CString
  withKey : Spec → CString × CString → Spec
  behindNamespace : Spec → BitVec 32
  freshStatus : Status
  ns_withKey : ∀ spec key, ns (withKey spec key) = key.1
  name_withKey : ∀ spec key, name (withKey spec key) = key.2

/-- `job_manager_t`. -/
def job : Kind where
  Spec := Jobs.JobSpec
  Status := Jobs.JobStatus
  capacity := 1000
  validateSpec := Jobs.validateSpec
  ns := Jobs.JobSpec.ns
  name := Jobs.JobSpec.name
  withKey := fun spec key => { spec with ns := key.1, name := key.2 }
  behindNamespace := Jobs.JobSpec.completions
  freshStatus := ⟨0, 0, 0, [], 0⟩
  ns_withKey := fun _ _ => rfl
  name_withKey := fun _ _ => rfl

/-- `statefulset_status_t`: the ordinals. -/
structure SetStatus where
  podOrdinals : Nat → Stateful.PodOrdinal
  maxOrdinal : Int
  readyOrdinal : Int

/-- `statefulset_manager_t`. -/
def statefulSet : Kind where
  Spec := Stateful.Spec
  Status := SetStatus
  capacity := 500
  validateSpec := Stateful.StatefulSet.validateSpec
  ns := Stateful.Spec.ns
  name := Stateful.Spec.name
  withKey := fun spec key => { spec with ns := key.1, name := key.2 }
  behindNamespace := fun spec => BitVec.ofInt 32 spec.replicas
  freshStatus := ⟨fun _ => .zero, -1, -1⟩
  ns_withKey := fun _ _ => rfl
  name_withKey := fun _ _ => rfl

/-! ## Data -/

/-- `job_spec_t` and `statefulset_spec_t`, with the last bytes of `name` and `namespace` and what the server owns. -/
structure Spec (kind : Kind) where
  fields : kind.Spec
  nameLast : UInt8
  namespaceLast : UInt8
  createdAt : Int
  updatedAt : Int
  generation : UInt32

/-- `job_t` and `statefulset_t`. -/
structure Object (kind : Kind) where
  spec : Spec kind
  status : kind.Status

variable {kind : Kind}

def Object.key (o : Object kind) : CString × CString := (kind.ns o.spec.fields, kind.name o.spec.fields)

/-- What `find_job_index` and `find_statefulset_index` look for. -/
def Object.hasKey (ns name : CString) (o : Object kind) : Bool :=
  kind.ns o.spec.fields == ns && kind.name o.spec.fields == name

/-- The string that the bytes from a place on are. -/
def cstring (bytes : List UInt8) : CString := bytes.takeWhile (· ≠ 0)

/-- The bytes of an `int32_t`. -/
def littleEndian (x : BitVec 32) : List UInt8 :=
  [UInt8.ofNat x.toNat, UInt8.ofNat (x.toNat / 2 ^ 8), UInt8.ofNat (x.toNat / 2 ^ 16), UInt8.ofNat (x.toNat / 2 ^ 24)]

/-- The string that starts at the last byte of `namespace`. -/
def Spec.pastNamespace (spec : Spec kind) : CString :=
  cstring (spec.namespaceLast :: littleEndian (kind.behindNamespace spec.fields))

/-- The key under which the table has an object of this namespace and name. Behind `name` stands `namespace`. -/
def Spec.storedKey (spec : Spec kind) (ns name : CString) : CString × CString :=
  let storedNs := strncpyOver 127 ns spec.pastNamespace
  (storedNs, strncpyOver 255 name (cstring (spec.nameLast :: storedNs)))

/-- The specification of the caller with its key and the fields of the server. -/
def Spec.stored (spec : Spec kind) (ns name : CString) (createdAt now : Int) (generation : UInt32) : Spec kind :=
  { spec with
    fields := kind.withKey spec.fields (spec.storedKey ns name)
    createdAt := createdAt
    updatedAt := now
    generation := generation }

/-! ## Calls -/

/-- `job_create` and `statefulset_create`, at time `now`. -/
def create (kind : Kind) (table : List (Object kind)) (ns name : CString) (spec : Spec kind) (now : Int) :
    List (Object kind) × Int :=
  if table.length ≥ kind.capacity then (table, -1)
  else if table.any (Object.hasKey ns name) then (table, -1)
  else
    match kind.validateSpec spec.fields with
    | some _ => (table, -2)
    | none => (table ++ [⟨spec.stored ns name now now 1, kind.freshStatus⟩], 0)

/-- `job_get` and `statefulset_get`. -/
def get (kind : Kind) (table : List (Object kind)) (ns name : CString) : Except Int (Object kind) :=
  match table.find? (Object.hasKey ns name) with
  | none => .error (-1)
  | some o => .ok o

/-- `job_update` and `statefulset_update`, at time `now`. -/
def update (kind : Kind) (table : List (Object kind)) (ns name : CString) (spec : Spec kind) (now : Int) :
    List (Object kind) × Int :=
  match table.splitFirst (Object.hasKey ns name) with
  | none => (table, -1)
  | some (pre, o, post) =>
    match kind.validateSpec spec.fields with
    | some _ => (table, -2)
    | none =>
      (pre ++ ⟨spec.stored ns name o.spec.createdAt now (spec.generation + 1), o.status⟩ :: post, 0)

/-- `job_delete` and `statefulset_delete`: the objects behind move up. -/
def delete (kind : Kind) (table : List (Object kind)) (ns name : CString) : List (Object kind) × Int :=
  match table.splitFirst (Object.hasKey ns name) with
  | none => (table, -1)
  | some (pre, _, post) => (pre ++ post, 0)

abbrev jobCreate := create job
abbrev jobGet := get job
abbrev jobUpdate := update job
abbrev jobDelete := delete job

abbrev statefulsetCreate := create statefulSet
abbrev statefulsetGet := get statefulSet
abbrev statefulsetUpdate := update statefulSet
abbrev statefulsetDelete := delete statefulSet

/-! ## What the calls say -/

/-- When an object was created, and how often it was updated since. -/
structure Version where
  born : Int
  updates : Nat

/-- What the calls that succeeded say about each key. -/
abbrev History := CString × CString → Option Version

inductive Call (kind : Kind) where
  | create (ns name : CString) (spec : Spec kind) (now : Int)
  | update (ns name : CString) (spec : Spec kind) (now : Int)
  | delete (ns name : CString)

/-- What a call does to the table. -/
def apply (table : List (Object kind)) : Call kind → List (Object kind) × Int
  | .create ns name spec now => create kind table ns name spec now
  | .update ns name spec now => update kind table ns name spec now
  | .delete ns name => delete kind table ns name

/-- The history after a call that succeeded. -/
def note (history : History) : Call kind → History
  | .create ns name _ now => Function.update history (ns, name) (some ⟨now, 0⟩)
  | .update ns name _ _ =>
    Function.update history (ns, name) ((history (ns, name)).map fun v => { v with updates := v.updates + 1 })
  | .delete ns name => Function.update history (ns, name) none

/-- The table and what its calls said so far. -/
structure State (kind : Kind) where
  table : List (Object kind)
  history : History

def step (s : State kind) (call : Call kind) : State kind :=
  let (table, code) := apply s.table call
  ⟨table, if code = 0 then note s.history call else s.history⟩

/-- The empty table. -/
def start (kind : Kind) : State kind := ⟨[], fun _ => none⟩

/-- **What a store promises.** -/
structure MapWithGenerations (s : State kind) : Prop where
  get_iff : ∀ ns name, (∃ o, get kind s.table ns name = .ok o) ↔ s.history (ns, name) ≠ none
  distinct : (s.table.map Object.key).Nodup
  createdAt : ∀ ns name o v, get kind s.table ns name = .ok o → s.history (ns, name) = some v →
    o.spec.createdAt = v.born
  generation : ∀ ns name o v, get kind s.table ns name = .ok o → s.history (ns, name) = some v →
    o.spec.generation.toNat = 1 + v.updates

/-- The key is stored as it is given: it is short enough, or what the caller's specification has behind it happens to
be the rest of it. -/
def Fits (spec : Spec kind) (ns name : CString) : Prop :=
  (ns.length < 127 ∨ spec.pastNamespace = ns.drop 127) ∧
    (name.length < 255 ∨ cstring (spec.nameLast :: ns) = name.drop 255)

/-- A creation or an update that is made stores its key as it is given, and such an update brings the generation that
is stored, which can be counted up. -/
def Faithful (s : State kind) : Call kind → Prop
  | .create ns name spec _ =>
    s.table.length < kind.capacity → (ns, name) ∉ s.table.map Object.key → kind.validateSpec spec.fields = none →
      Fits spec ns name
  | .update ns name spec _ =>
    kind.validateSpec spec.fields = none → ∀ o ∈ s.table, o.key = (ns, name) →
      Fits spec ns name ∧ spec.generation = o.spec.generation ∧ o.spec.generation.toNat + 1 < 2 ^ 32
  | .delete _ _ => True

/-! ## The key that is stored -/

variable {s : State kind} {table : List (Object kind)} {history : History} {ns name : CString} {spec : Spec kind}
  {now : Int} {o : Object kind}

theorem storedKey_eq_iff : spec.storedKey ns name = (ns, name) ↔ Fits spec ns name := by
  unfold Spec.storedKey Fits
  rw [Prod.mk.injEq, strncpyOver_eq_iff, strncpyOver_eq_iff]
  refine and_congr_right fun hns => ?_
  rw [strncpyOver_eq_iff.mpr hns]

theorem key_stored (createdAt : Int) (generation : UInt32) (status : kind.Status) :
    Object.key ⟨spec.stored ns name createdAt now generation, status⟩ = spec.storedKey ns name := by
  unfold Object.key Spec.stored
  rw [kind.ns_withKey, kind.name_withKey]

/-- A field below 2^24 has a zero byte, so the string does not go on behind it. -/
theorem zero_mem_littleEndian {x : BitVec 32} (h : x.toNat < 2 ^ 24) : 0 ∈ littleEndian x := by
  have hzero : x.toNat / 2 ^ 24 = 0 := Nat.div_eq_of_lt h
  unfold littleEndian
  rw [hzero]
  simp

theorem job_string_ends {spec : Jobs.JobSpec} (h : job.validateSpec spec = none) :
    0 ∈ littleEndian (job.behindNamespace spec) := by
  refine zero_mem_littleEndian ?_
  change Jobs.validateSpec spec = none at h
  change spec.completions.toNat < 2 ^ 24
  have hsign := BitVec.toInt_eq_toNat_cond spec.completions
  unfold Jobs.validateSpec at h
  split at h
  · cases h
  · split at h
    · cases h
    · next hcompletions =>
      rw [not_or] at hcompletions
      split at hsign <;> omega

theorem statefulset_string_ends {spec : Stateful.Spec} (h : statefulSet.validateSpec spec = none) :
    0 ∈ littleEndian (statefulSet.behindNamespace spec) := by
  refine zero_mem_littleEndian ?_
  change Stateful.StatefulSet.validateSpec spec = none at h
  change (BitVec.ofInt 32 spec.replicas).toNat < 2 ^ 24
  unfold Stateful.StatefulSet.validateSpec at h
  split at h
  · cases h
  · split at h
    · cases h
    · next hreplicas =>
      rw [BitVec.toNat_ofInt]
      omega

theorem fits_iff (hname : name.length ≤ 253) : Fits spec ns name ↔ ns.length < 127 ∨ spec.pastNamespace = ns.drop 127 :=
  and_iff_left (.inl (by omega))

/-- A caller who has cleared the last bytes gets the key cut to the arrays. -/
theorem storedKey_of_cleared (hname : spec.nameLast = 0) (hns : spec.namespaceLast = 0) :
    spec.storedKey ns name = (ns.take 127, name.take 255) := by
  have hcleared : ∀ rest, cstring (0 :: rest) = [] := fun _ => rfl
  unfold Spec.storedKey Spec.pastNamespace
  dsimp only
  rw [hname, hns, hcleared, hcleared, strncpyOver_nil, strncpyOver_nil]

/-- The job that is stored then is the one of the model of a single job. -/
theorem jobs_create_eq (ns name : CString) (spec : Jobs.JobSpec) :
    Jobs.create ns name spec = match job.validateSpec spec with
      | some _ => .error (-2)
      | none => .ok ⟨job.withKey spec (ns.take 127, name.take 255), job.freshStatus⟩ := rfl

theorem stateful_create_eq (ns name : CString) (spec : Stateful.Spec) :
    Stateful.StatefulSet.create ns name spec = match statefulSet.validateSpec spec with
      | some _ => .error (-2)
      | none =>
        .ok ⟨statefulSet.withKey spec (ns.take 127, name.take 255), statefulSet.freshStatus.podOrdinals,
          statefulSet.freshStatus.maxOrdinal, statefulSet.freshStatus.readyOrdinal⟩ := rfl

/-! ## The table as a map -/

theorem hasKey_eq (ns name : CString) :
    (Object.hasKey ns name : Object kind → Bool) = fun o => decide (o.key = (ns, name)) := by
  funext o
  rw [Bool.eq_iff_iff, Object.hasKey, Bool.and_eq_true, beq_iff_eq, beq_iff_eq, decide_eq_true_eq, Object.key,
    Prod.mk.injEq]

theorem get_eq_ok_iff : get kind table ns name = .ok o ↔ lookup Object.key (ns, name) table = some o := by
  unfold get lookup
  rw [hasKey_eq]
  cases table.find? fun o => decide (o.key = (ns, name)) with
  | none => simp
  | some x => simp

/-- The times and the generation of an object are those of its version. -/
def Shows (o : Object kind) (v : Version) : Prop :=
  o.spec.createdAt = v.born ∧ o.spec.generation.toNat = 1 + v.updates

/-- **The promise** is that the table represents the history. -/
theorem mapWithGenerations_iff : MapWithGenerations s ↔ Represents Object.key Shows s.table s.history := by
  rw [represents_iff]
  constructor
  · intro h
    refine ⟨h.distinct, fun ⟨ns, name⟩ => ?_, fun ⟨ns, name⟩ o v ho hv => ?_⟩
    · rw [← h.get_iff]
      simp only [get_eq_ok_iff]
    · rw [← get_eq_ok_iff] at ho
      exact ⟨h.createdAt ns name o v ho hv, h.generation ns name o v ho hv⟩
  · rintro ⟨hdistinct, hsome, hshows⟩
    refine ⟨fun ns name => ?_, hdistinct, fun ns name o v ho hv => ?_, fun ns name o v ho hv => ?_⟩
    · simp only [get_eq_ok_iff]
      exact hsome (ns, name)
    · exact (hshows _ o v (get_eq_ok_iff.mp ho) hv).1
    · exact (hshows _ o v (get_eq_ok_iff.mp ho) hv).2

/-! ## What a call does -/

/-- A creation that is made. -/
def Created (table : List (Object kind)) (ns name : CString) (spec : Spec kind) : Prop :=
  table.length < kind.capacity ∧ (ns, name) ∉ table.map Object.key ∧ kind.validateSpec spec.fields = none

theorem any_hasKey : table.any (Object.hasKey ns name) = true ↔ (ns, name) ∈ table.map Object.key := by
  rw [hasKey_eq]
  simp only [List.any_eq_true, decide_eq_true_eq, List.mem_map]

/-- A creation does nothing, or it adds an object. -/
theorem create_cases (table : List (Object kind)) (ns name : CString) (spec : Spec kind) (now : Int) :
    (∃ code, create kind table ns name spec now = (table, code) ∧ code ≠ 0) ∧ ¬ Created table ns name spec ∨
      Created table ns name spec ∧ create kind table ns name spec now =
        (table ++ [⟨spec.stored ns name now now 1, kind.freshStatus⟩], 0) := by
  unfold create Created
  by_cases hroom : table.length ≥ kind.capacity
  · rw [if_pos hroom]
    exact .inl ⟨⟨-1, rfl, by decide⟩, fun h => absurd h.1 (Nat.not_lt.mpr hroom)⟩
  · rw [if_neg hroom]
    by_cases hkey : (ns, name) ∈ table.map Object.key
    · rw [if_pos (any_hasKey.mpr hkey)]
      exact .inl ⟨⟨-1, rfl, by decide⟩, fun h => h.2.1 hkey⟩
    · rw [if_neg (mt any_hasKey.mp hkey)]
      cases hvalid : kind.validateSpec spec.fields with
      | some reason => exact .inl ⟨⟨-2, rfl, by decide⟩, fun h => by cases h.2.2⟩
      | none => exact .inr ⟨⟨Nat.not_le.mp hroom, hkey, rfl⟩, rfl⟩

/-- What the loop over the keys finds. -/
theorem splitFirst_hasKey (table : List (Object kind)) (ns name : CString) :
    (table.splitFirst (Object.hasKey ns name) = none ∧ (ns, name) ∉ table.map Object.key) ∨
      ∃ pre o post, table.splitFirst (Object.hasKey ns name) = some (pre, o, post) ∧ table = pre ++ o :: post ∧
        o.key = (ns, name) := by
  rw [hasKey_eq]
  exact List.splitFirst_key_cases Object.key table (ns, name)

/-- An update does nothing, or it overwrites an object. -/
theorem update_cases (table : List (Object kind)) (ns name : CString) (spec : Spec kind) (now : Int) :
    (∃ code, update kind table ns name spec now = (table, code) ∧ code ≠ 0) ∧
        ¬ ((ns, name) ∈ table.map Object.key ∧ kind.validateSpec spec.fields = none) ∨
      kind.validateSpec spec.fields = none ∧ ∃ pre o post, table = pre ++ o :: post ∧ o.key = (ns, name) ∧
        update kind table ns name spec now =
          (pre ++ ⟨spec.stored ns name o.spec.createdAt now (spec.generation + 1), o.status⟩ :: post, 0) := by
  unfold update
  rcases splitFirst_hasKey table ns name with ⟨hnone, hno⟩ | ⟨pre, o, post, hsome, htable, ho⟩
  · rw [hnone]
    exact .inl ⟨⟨-1, rfl, by decide⟩, fun h => hno h.1⟩
  · rw [hsome]
    cases hvalid : kind.validateSpec spec.fields with
    | some reason => exact .inl ⟨⟨-2, rfl, by decide⟩, fun h => by cases h.2⟩
    | none => exact .inr ⟨rfl, pre, o, post, htable, ho, rfl⟩

/-- A deletion does nothing, or it takes an object out. -/
theorem delete_cases (table : List (Object kind)) (ns name : CString) :
    (∃ code, delete kind table ns name = (table, code) ∧ code ≠ 0) ∨
      ∃ pre o post, table = pre ++ o :: post ∧ o.key = (ns, name) ∧ delete kind table ns name = (pre ++ post, 0) := by
  unfold delete
  rcases splitFirst_hasKey table ns name with ⟨hnone, -⟩ | ⟨pre, o, post, hsome, htable, ho⟩
  · rw [hnone]
    exact .inl ⟨-1, rfl, by decide⟩
  · rw [hsome]
    exact .inr ⟨pre, o, post, htable, ho, rfl⟩

/-! ## What a call keeps -/

/-- A call that fails changes nothing. -/
theorem step_of_failed (call : Call kind) {code : Int} (h : apply s.table call = (s.table, code)) (hcode : code ≠ 0) :
    step s call = s := by
  unfold step
  rw [h]
  dsimp only
  rw [if_neg hcode]

theorem step_of_done (call : Call kind) (h : apply s.table call = (table, 0)) :
    step s call = ⟨table, note s.history call⟩ := by
  unfold step
  rw [h]
  dsimp only
  rw [if_pos rfl]

/-- **A creation keeps the promise exactly if** its key is stored as it is given. -/
theorem create_keeps_iff (h : MapWithGenerations s) :
    MapWithGenerations (step s (.create ns name spec now)) ↔ Faithful s (.create ns name spec now) := by
  unfold Faithful
  rcases create_cases s.table ns name spec now with ⟨⟨code, hfail, hcode⟩, hno⟩ | ⟨⟨hroom, hfree, hvalid⟩, hdone⟩
  · rw [step_of_failed (.create ns name spec now) hfail hcode]
    exact iff_of_true h fun hroom hfree hvalid => absurd ⟨hroom, hfree, hvalid⟩ hno
  · have hconcat := represents_concat_iff (x := ⟨spec.stored ns name now now 1, kind.freshStatus⟩) (v := ⟨now, 0⟩)
      (mapWithGenerations_iff.mp h) hfree
    rw [step_of_done (.create ns name spec now) hdone, mapWithGenerations_iff]
    refine hconcat.trans ?_
    rw [key_stored, storedKey_eq_iff]
    exact ⟨fun hkept _ _ _ => hkept.1, fun hfits => ⟨hfits hroom hfree hvalid, rfl, rfl⟩⟩

/-- An object that is overwritten shows one update more exactly if the caller brings its generation. -/
theorem shows_overwritten_iff {v : Version} (h : Shows o v) :
    Shows ⟨spec.stored ns name o.spec.createdAt now (spec.generation + 1), o.status⟩
        { v with updates := v.updates + 1 } ↔
      spec.generation = o.spec.generation ∧ o.spec.generation.toNat + 1 < 2 ^ 32 := by
  obtain ⟨hborn, hcount⟩ := h
  rw [← UInt32.toNat_succ_iff, hcount, Nat.add_assoc]
  exact and_iff_right hborn

/-- **An update keeps the promise exactly if** its key is stored as it is given and it brings the stored generation. -/
theorem update_keeps_iff (h : MapWithGenerations s) :
    MapWithGenerations (step s (.update ns name spec now)) ↔ Faithful s (.update ns name spec now) := by
  unfold Faithful
  rcases update_cases s.table ns name spec now with
    ⟨⟨code, hfail, hcode⟩, hno⟩ | ⟨hvalid, pre, o, post, htable, ho, hdone⟩
  · rw [step_of_failed (.update ns name spec now) hfail hcode]
    refine iff_of_true h fun hvalid o hmem ho => absurd ⟨?_, hvalid⟩ hno
    exact List.mem_map.mpr ⟨o, hmem, ho⟩
  · have hrep := mapWithGenerations_iff.mp h
    rw [htable] at hrep
    obtain ⟨v, hv, hshows⟩ : ∃ v, s.history (ns, name) = some v ∧ Shows o v := by
      rw [← ho]
      exact hrep.value_of_mem
    have hreplace := represents_replace_iff
      (x := ⟨spec.stored ns name o.spec.createdAt now (spec.generation + 1), o.status⟩)
      (v := { v with updates := v.updates + 1 }) hrep
    rw [step_of_done (.update ns name spec now) hdone, mapWithGenerations_iff]
    change Represents Object.key Shows _ (Function.update s.history (ns, name) _) ↔ _
    rw [hv, ← ho]
    refine hreplace.trans ?_
    rw [key_stored, ho, storedKey_eq_iff, shows_overwritten_iff hshows]
    constructor
    · intro hkept _ x hx hxkey
      rw [htable] at hx
      rcases List.mem_append_cons_iff.mp hx with rfl | hx
      · exact hkept
      · exact absurd (hxkey.trans ho.symm) (List.key_ne_of_nodup hrep.distinct hx)
    · intro hfaithful
      exact hfaithful hvalid o (htable ▸ List.mem_append_cons_iff.mpr (.inl rfl)) ho

theorem delete_keeps (h : MapWithGenerations s) : MapWithGenerations (step s (.delete ns name)) := by
  rcases delete_cases s.table ns name with ⟨code, hfail, hcode⟩ | ⟨pre, o, post, htable, ho, hdone⟩
  · rw [step_of_failed (.delete ns name) hfail hcode]
    exact h
  · have hrep := mapWithGenerations_iff.mp h
    rw [htable] at hrep
    rw [step_of_done (.delete ns name) hdone, mapWithGenerations_iff, note, ← ho]
    exact hrep.remove

/-! ## Runs -/

theorem step_keeps_iff (call : Call kind) (h : MapWithGenerations s) :
    MapWithGenerations (step s call) ↔ Faithful s call := by
  cases call with
  | create ns name spec now => exact create_keeps_iff h
  | update ns name spec now => exact update_keeps_iff h
  | delete ns name => exact iff_of_true (delete_keeps h) trivial

theorem mapWithGenerations_start : MapWithGenerations (start kind) :=
  mapWithGenerations_iff.mpr represents_nil

theorem kept_along_iff (calls : List (Call kind)) :
    AllStates step MapWithGenerations (start kind) calls ↔ AllSteps step Faithful (start kind) calls :=
  allStates_iff_allSteps (I := fun _ => True) (A := fun _ _ => True) (fun _ _ _ _ => trivial)
    (fun _ call _ _ h => step_keeps_iff call h) trivial mapWithGenerations_start allSteps_true

/-- **The stores are maps with generations, exactly**: along every run of the calls on jobs, and along every run of
those on stateful sets. -/
theorem map_with_generations_iff (jobCalls : List (Call job)) (setCalls : List (Call statefulSet)) :
    (AllStates step MapWithGenerations (start job) jobCalls ↔ AllSteps step Faithful (start job) jobCalls) ∧
      (AllStates step MapWithGenerations (start statefulSet) setCalls ↔
        AllSteps step Faithful (start statefulSet) setCalls) :=
  ⟨kept_along_iff jobCalls, kept_along_iff setCalls⟩

/-! ## An update without a generation -/

/-- The specification of a caller, who does not fill in what the server owns. -/
def fromCaller (fields : kind.Spec) : Spec kind := ⟨fields, 0, 0, 0, 0, 0⟩

def backup : Spec job := fromCaller ⟨"backup", "default", 1, 1, 6, false, 0⟩

def cache : Spec statefulSet := fromCaller ⟨"cache", "default", 1, "cache", .orderedReady, 30, []⟩

/-- **The generation is lost**: after an update that brings none it is 1 again. -/
theorem generation_lost :
    (¬ ∀ calls : List (Call job), AllStates step MapWithGenerations (start job) calls) ∧
      ¬ ∀ calls : List (Call statefulSet), AllStates step MapWithGenerations (start statefulSet) calls := by
  constructor
  · intro h
    have hend := (h [.create "default" "backup" backup 100, .update "default" "backup" backup 200]).run_mem
    exact absurd (hend.generation "default" "backup" _ _ rfl rfl) (by decide)
  · intro h
    have hend := (h [.create "default" "cache" cache 100, .update "default" "cache" cache 200]).run_mem
    exact absurd (hend.generation "default" "cache" _ _ rfl rfl) (by decide)

end Sirah.Workload
