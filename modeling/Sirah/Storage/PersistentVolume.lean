import Sirah.Lib.CString
import Sirah.Lib.Run
import Sirah.Lib.SplitFirst

/-!
# The PersistentVolume store

Model of `sirah/internal/storage/persistent_volume.c`: the array of volumes of the manager and the operations
that change it. A volume's binding is in its phase and in the name of the claim.

* `pv_create` checks the name and starts with an unbound volume; `pv_delete` refuses a bound one.
* `pv_update` writes the record it is given over the stored one, with its name, its phase and its claim.
* `pv_bind_to_pvc` takes any name, also the empty one, with which the volume is `BOUND` to nothing.
* `pv_unbind_from_pvc` and `pv_reclaim` always clear the name, but know three reclaim policies; with another
  value (a record filled with zeros has one) the phase stays.

**`store_coherent_iff`**: along a run, names stay unique, a volume is `BOUND` exactly if it names a claim, and
no bound volume is deleted **iff** every step is `Sound`.
-/

namespace Sirah.Storage

open Runs

/-! ## Data -/

/-- `pv_phase_t`, or another value. -/
inductive PvPhase where
  | available
  | bound
  | released
  | failed
  | pending
  | other (value : Int)
  deriving DecidableEq, Repr

/-- `pv_reclaim_policy_t`, or another value. -/
inductive ReclaimPolicy where
  | retain
  | delete
  | recycle
  | other (value : Int)
  deriving DecidableEq, Repr

/-- `persistent_volume_t`, without the fields that nothing here reads. -/
structure PersistentVolume where
  name : CString
  boundPvcName : CString
  reclaimPolicy : ReclaimPolicy
  phase : PvPhase
  createdAt : Int
  boundAt : Int
  claimRefGeneration : Int
  deriving DecidableEq, Repr

/-- The volumes of `pv_manager_t`. -/
abbrev PvStore := List PersistentVolume

/-! ## Operations -/

/-- `pv_create`, at time `now`. -/
def pvCreate (s : PvStore) (pv : Option PersistentVolume) (now : Int) : Int × PvStore :=
  match pv with
  | none => (-1, s)
  | some pv =>
    if pv.name = [] then (-1, s)
    else if s.any fun v => v.name = pv.name then (-2, s)
    else if s.length ≥ 500 then (-3, s)
    else (0, s ++ [{ pv with createdAt := now, phase := .available, boundPvcName := [], boundAt := 0,
                             claimRefGeneration := 0 }])

/-- An operation on the volume `find_pv_index` finds; `f` gives its code and what becomes of the volume. -/
def onPv (s : PvStore) (name : Option CString) (f : PersistentVolume → Int × Option PersistentVolume) :
    Int × PvStore :=
  match name with
  | none => (-1, s)
  | some name =>
    match s.splitFirst fun v => v.name = name with
    | none => (-2, s)
    | some (pre, pv, post) => ((f pv).1, pre ++ (f pv).2.toList ++ post)

/-- What `pv_update` stores. -/
def updatedPv (updated current : PersistentVolume) : PersistentVolume :=
  { updated with createdAt := current.createdAt, boundAt := current.boundAt }

/-- `pv_update`. -/
def pvUpdate (s : PvStore) (name : Option CString) (updated : Option PersistentVolume) : Int × PvStore :=
  match updated with
  | none => (-1, s)
  | some updated => onPv s name fun current => (0, some (updatedPv updated current))

/-- `pv_delete`. -/
def pvDelete (s : PvStore) (name : Option CString) : Int × PvStore :=
  onPv s name fun pv => if pv.phase = .bound ∧ pv.boundPvcName ≠ [] then (-3, some pv) else (0, none)

/-- `strncpy` of a name into a field of `n` bytes, the last of which it leaves alone; it is taken to be
NUL. -/
def strncpy (n : Nat) (s : CString) : CString := s.take (n - 1)

/-- What `pv_bind_to_pvc` makes of a volume. -/
def boundPv (name : CString) (now : Int) (pv : PersistentVolume) : PersistentVolume :=
  { pv with boundPvcName := strncpy 256 name, phase := .bound, boundAt := now,
            claimRefGeneration := pv.claimRefGeneration + 1 }

/-- `pv_bind_to_pvc`, at time `now`. -/
def pvBindToPvc (s : PvStore) (pvName pvcNamespace pvcName : Option CString) (now : Int) :
    Int × PvStore :=
  match pvcNamespace, pvcName with
  | some _, some name =>
    onPv s pvName fun pv =>
      if pv.phase ≠ .available ∧ pv.phase ≠ .released then (-3, some pv)
      else (0, some (boundPv name now pv))
  | _, _ => (-1, s)

/-- What `pv_unbind_from_pvc` makes of a volume. -/
def unboundPv (pv : PersistentVolume) : PersistentVolume :=
  let phase := if pv.phase = .bound then
      match pv.reclaimPolicy with
      | .delete => .released
      | .retain => .released
      | .recycle => .released
      | .other _ => pv.phase
    else pv.phase
  { pv with phase := phase, boundPvcName := [], boundAt := 0 }

/-- `pv_unbind_from_pvc`. -/
def pvUnbindFromPvc (s : PvStore) (pvName : Option CString) : Int × PvStore :=
  onPv s pvName fun pv => (0, some (unboundPv pv))

/-- What `pv_reclaim` makes of a volume. -/
def reclaimedPv (pv : PersistentVolume) : PersistentVolume :=
  let phase := match pv.reclaimPolicy with
    | .delete => .released
    | .retain => .released
    | .recycle => .available
    | .other _ => pv.phase
  { pv with phase := phase, boundPvcName := [] }

/-- `pv_reclaim`. -/
def pvReclaim (s : PvStore) (pvName : Option CString) : Int × PvStore :=
  onPv s pvName fun pv => (0, some (reclaimedPv pv))

/-- A call. -/
inductive PvAction where
  | create (pv : Option PersistentVolume) (now : Int)
  | update (name : Option CString) (updated : Option PersistentVolume)
  | delete (name : Option CString)
  | bind (pvName pvcNamespace pvcName : Option CString) (now : Int)
  | unbind (pvName : Option CString)
  | reclaim (pvName : Option CString)

/-- One call. -/
def pvStep (s : PvStore) : PvAction → PvStore
  | .create pv now => (pvCreate s pv now).2
  | .update name updated => (pvUpdate s name updated).2
  | .delete name => (pvDelete s name).2
  | .bind pvName pvcNamespace pvcName now => (pvBindToPvc s pvName pvcNamespace pvcName now).2
  | .unbind pvName => (pvUnbindFromPvc s pvName).2
  | .reclaim pvName => (pvReclaim s pvName).2

/-! ## Coherent stores -/

/-- The two records of a binding agree. -/
def PersistentVolume.Coherent (v : PersistentVolume) : Prop := v.phase = .bound ↔ v.boundPvcName ≠ []

/-- **Names are unique and binding data coherent.** -/
structure Coherent (s : PvStore) : Prop where
  unique : (s.map (·.name)).Nodup
  bound : ∀ v ∈ s, v.Coherent

/-- **No bound volume is deleted**: what `pv_delete` removes is bound by neither record. -/
def KeepsBound (s : PvStore) : PvAction → Prop
  | .delete name => ∀ v ∈ s, v ∉ (pvDelete s name).2 → v.phase ≠ .bound ∧ v.boundPvcName = []
  | _ => True

/-- A step that keeps the store coherent: an update takes no other volume's name and agrees with itself about
the binding, a claim that is bound has a name, and the reclaim policy of a bound volume that is unbound or
reclaimed is one of the three. -/
def Sound (s : PvStore) : PvAction → Prop
  | .update (some name) (some updated) => (∃ v ∈ s, v.name = name) →
    (updated.name = name ∨ ∀ v ∈ s, v.name ≠ updated.name) ∧ updated.Coherent
  | .bind (some pvName) (some _) (some pvcName) _ =>
    (∃ v ∈ s, v.name = pvName ∧ (v.phase = .available ∨ v.phase = .released)) → pvcName ≠ []
  | .unbind (some pvName) =>
    ∀ v ∈ s, v.name = pvName → v.phase = .bound → ∀ x, v.reclaimPolicy ≠ .other x
  | .reclaim (some pvName) =>
    ∀ v ∈ s, v.name = pvName → v.phase = .bound → ∀ x, v.reclaimPolicy ≠ .other x
  | _ => True

/-! ## One step -/

section Steps

variable {s pre post : PvStore} {v v' : PersistentVolume}

/-- A volume replaced by another. -/
theorem coherent_replace (h : Coherent (pre ++ v :: post)) : Coherent (pre ++ v' :: post) ↔
    (∀ z ∈ pre ++ post, z.name ≠ v'.name) ∧ v'.Coherent := by
  constructor
  · intro h'
    exact ⟨(List.nodup_replace_iff h.unique).mp h'.unique,
      h'.bound v' (List.mem_append_cons_iff.mpr (.inl rfl))⟩
  · rintro ⟨hnames, hv'⟩
    refine ⟨(List.nodup_replace_iff h.unique).mpr hnames, ?_⟩
    intro u hu
    rcases List.mem_append_cons_iff.mp hu with rfl | hu
    · exact hv'
    · exact h.bound u (List.mem_append_cons_iff.mpr (.inr hu))

/-- A volume replaced by one of the same name. -/
theorem coherent_rewrite (h : Coherent (pre ++ v :: post)) (hname : v'.name = v.name) :
    Coherent (pre ++ v' :: post) ↔ v'.Coherent := by
  rw [coherent_replace h, hname]
  exact and_iff_right fun z hz => List.key_ne_of_nodup h.unique hz

/-- **An operation on a stored volume** does nothing, or acts on the one volume of its name. -/
theorem onPv_cases (h : Coherent s) (name : CString) (f : PersistentVolume → Int × Option PersistentVolume) :
    ((∀ v ∈ s, v.name ≠ name) ∧ (onPv s (some name) f).2 = s) ∨
      ∃ pre v post, s = pre ++ v :: post ∧ v.name = name ∧ (∀ u ∈ pre ++ post, u.name ≠ name) ∧
        (onPv s (some name) f).2 = pre ++ (f v).2.toList ++ post := by
  unfold onPv
  dsimp only
  split
  · rename_i hnone
    refine .inl ⟨fun v hv => ?_, rfl⟩
    simpa using List.splitFirst_eq_none.mp hnone v hv
  · rename_i pre v post hsome
    obtain ⟨rfl, hp, -⟩ := List.splitFirst_eq_some hsome
    have hname : v.name = name := by simpa using hp
    refine .inr ⟨pre, v, post, rfl, hname, ?_, rfl⟩
    intro u hu
    exact hname ▸ List.key_ne_of_nodup h.unique hu

/-- **A rewrite of a stored volume** that keeps its name is right exactly if it leaves a coherent record. -/
theorem coherent_onPv (h : Coherent s) (name : CString) (f : PersistentVolume → Int × PersistentVolume)
    (hf : ∀ v, (f v).2.name = v.name) :
    Coherent (onPv s (some name) fun v => ((f v).1, some (f v).2)).2 ↔
      ∀ v ∈ s, v.name = name → (f v).2.Coherent := by
  rcases onPv_cases h name fun v => ((f v).1, some (f v).2) with
    ⟨hnone, heq⟩ | ⟨pre, v, post, rfl, hname, hothers, heq⟩
  · rw [heq]
    exact iff_of_true h fun v hv hname => absurd hname (hnone v hv)
  · have heq' : pre ++ (some (f v).2).toList ++ post = pre ++ (f v).2 :: post := by simp
    rw [heq, heq', coherent_rewrite h (hf v)]
    constructor
    · intro hv u hu huname
      rcases List.mem_append_cons_iff.mp hu with rfl | hu
      · exact hv
      · exact absurd huname (hothers u hu)
    · intro hall
      exact hall v (List.mem_append_cons_iff.mpr (.inl rfl)) hname

/-- Creating keeps the store coherent. -/
theorem coherent_create (h : Coherent s) (pv : Option PersistentVolume) (now : Int) :
    Coherent (pvCreate s pv now).2 := by
  unfold pvCreate
  split
  · exact h
  · split
    · exact h
    · split
      · exact h
      · split
        · exact h
        · rename_i pv _ hnew _
          refine ⟨?_, ?_⟩
          · refine List.nodup_map_concat.mpr ⟨fun hmem => ?_, h.unique⟩
            obtain ⟨v, hv, heq⟩ := List.mem_map.mp hmem
            exact hnew (List.any_eq_true.mpr ⟨v, hv, decide_eq_true heq⟩)
          · intro v hv
            rcases List.mem_append.mp hv with hv | hv
            · exact h.bound v hv
            · cases List.mem_singleton.mp hv
              exact iff_of_false nofun fun hne => hne rfl

/-- Updating. -/
theorem coherent_update (h : Coherent s) (name : CString) (updated : PersistentVolume) :
    Coherent (pvUpdate s (some name) (some updated)).2 ↔
      Sound s (.update (some name) (some updated)) := by
  rcases onPv_cases h name fun current => (0, some (updatedPv updated current)) with
    ⟨hnone, heq⟩ | ⟨pre, v, post, rfl, hname, hothers, heq⟩
  · rw [pvUpdate, heq]
    refine iff_of_true h ?_
    rintro ⟨v, hv, hname⟩
    exact absurd hname (hnone v hv)
  · have heq' : pre ++ (some (updatedPv updated v)).toList ++ post =
        pre ++ updatedPv updated v :: post := by simp
    have hfound : ∃ u ∈ pre ++ v :: post, u.name = name :=
      ⟨v, List.mem_append_cons_iff.mpr (.inl rfl), hname⟩
    rw [pvUpdate, heq, heq', coherent_replace h]
    have hfree : (∀ z ∈ pre ++ post, z.name ≠ (updatedPv updated v).name) ↔
        (updated.name = name ∨ ∀ u ∈ pre ++ v :: post, u.name ≠ updated.name) := by
      constructor
      · intro hz
        by_cases hsame : updated.name = name
        · exact .inl hsame
        · refine .inr fun u hu => ?_
          rcases List.mem_append_cons_iff.mp hu with rfl | hu
          · exact fun heq => hsame (heq.symm.trans hname)
          · exact hz u hu
      · rintro (hsame | hall) z hz
        · intro heq
          exact hothers z hz (heq.trans hsame)
        · exact hall z (List.mem_append_cons_iff.mpr (.inr hz))
    rw [hfree]
    exact ⟨fun hs _ => hs, fun hs => hs hfound⟩

/-- Deleting keeps the store coherent, and removes no bound volume. -/
theorem coherent_delete (h : Coherent s) (name : Option CString) :
    Coherent (pvDelete s name).2 ∧ KeepsBound s (.delete name) := by
  cases name with
  | none => exact ⟨h, fun v hv hgone => absurd hv hgone⟩
  | some name =>
    rcases onPv_cases h name fun pv =>
        if pv.phase = .bound ∧ pv.boundPvcName ≠ [] then (-3, some pv) else (0, none) with
      ⟨hnone, heq⟩ | ⟨pre, v, post, rfl, hname, hothers, heq⟩
    · have hdel : (pvDelete s (some name)).2 = s := heq
      rw [hdel]
      refine ⟨h, fun v hv hgone => ?_⟩
      rw [hdel] at hgone
      exact absurd hv hgone
    · by_cases hbound : v.phase = .bound ∧ v.boundPvcName ≠ []
      · have hdel : (pvDelete (pre ++ v :: post) (some name)).2 = pre ++ v :: post := by
          refine heq.trans ?_
          rw [if_pos hbound, Option.toList_some, List.append_assoc, List.singleton_append]
        rw [hdel]
        refine ⟨h, fun u hu hgone => ?_⟩
        rw [hdel] at hgone
        exact absurd hu hgone
      · have hdel : (pvDelete (pre ++ v :: post) (some name)).2 = pre ++ post := by
          refine heq.trans ?_
          rw [if_neg hbound, Option.toList_none, List.append_nil]
        have hsub := List.beside_sublist pre v post
        rw [hdel]
        refine ⟨⟨h.unique.sublist (hsub.map _), fun u hu => h.bound u (hsub.subset hu)⟩, ?_⟩
        intro u hu hgone
        rw [hdel] at hgone
        rcases List.mem_append_cons_iff.mp hu with rfl | hu
        · have hiff := h.bound u (List.mem_append_cons_iff.mpr (.inl rfl))
          have hphase : u.phase ≠ .bound := fun hp => hbound ⟨hp, hiff.mp hp⟩
          exact ⟨hphase, by_contra fun hne => hphase (hiff.mpr hne)⟩
        · exact absurd hu hgone

theorem strncpy_ne_nil {n : Nat} (hn : 2 ≤ n) (name : CString) : strncpy n name ≠ [] ↔ name ≠ [] := by
  obtain ⟨k, rfl⟩ : ∃ k, n = k + 2 := ⟨n - 2, by omega⟩
  cases name with
  | nil => simp [strncpy]
  | cons b bs => simp [strncpy]

/-- Binding. -/
theorem coherent_bind (h : Coherent s) (pvName ns pvcName : CString) (now : Int) :
    Coherent (pvBindToPvc s (some pvName) (some ns) (some pvcName) now).2 ↔
      Sound s (.bind (some pvName) (some ns) (some pvcName) now) := by
  let f : PersistentVolume → Int × PersistentVolume := fun pv =>
    if pv.phase ≠ .available ∧ pv.phase ≠ .released then (-3, pv) else (0, boundPv pvcName now pv)
  have hf : (fun pv : PersistentVolume =>
      if pv.phase ≠ .available ∧ pv.phase ≠ .released then ((-3 : Int), some pv)
      else (0, some (boundPv pvcName now pv))) = fun pv => ((f pv).1, some (f pv).2) := by
    funext pv
    by_cases hpv : pv.phase ≠ .available ∧ pv.phase ≠ .released
    · simp only [f, if_pos hpv]
    · simp only [f, if_neg hpv]
  have hname : ∀ pv, (f pv).2.name = pv.name := by
    intro pv
    by_cases hpv : pv.phase ≠ .available ∧ pv.phase ≠ .released
    · simp only [f, if_pos hpv]
    · simp only [f, if_neg hpv]
      rfl
  rw [pvBindToPvc, hf, coherent_onPv h pvName f hname]
  constructor
  · rintro hall ⟨v, hv, hvname, hphase⟩
    have hbindable : ¬ (v.phase ≠ .available ∧ v.phase ≠ .released) := by
      rintro ⟨ha, hr⟩
      exact hphase.elim ha hr
    have hcoh := hall v hv hvname
    simp only [f, if_neg hbindable] at hcoh
    exact (strncpy_ne_nil (by decide) pvcName).mp (hcoh.mp rfl)
  · intro hsound v hv hvname
    by_cases hpv : v.phase ≠ .available ∧ v.phase ≠ .released
    · simp only [f, if_pos hpv]
      exact h.bound v hv
    · simp only [f, if_neg hpv]
      have hphase : v.phase = .available ∨ v.phase = .released := by
        by_contra hno
        exact hpv (not_or.mp hno)
      exact iff_of_true rfl ((strncpy_ne_nil (by decide) pvcName).mpr (hsound ⟨v, hv, hvname, hphase⟩))

/-- A record without a claim's name is coherent if its phase is not `BOUND`. -/
theorem coherent_cleared (hv' : v'.boundPvcName = []) : v'.Coherent ↔ v'.phase ≠ .bound := by
  unfold PersistentVolume.Coherent
  simp [hv']

theorem coherent_unboundPv (v : PersistentVolume) :
    (unboundPv v).Coherent ↔ (v.phase = .bound → ∀ x, v.reclaimPolicy ≠ .other x) := by
  rw [coherent_cleared rfl]
  unfold unboundPv
  dsimp only
  by_cases hphase : v.phase = .bound
  · rw [if_pos hphase]
    cases v.reclaimPolicy <;> simp [hphase]
  · rw [if_neg hphase]
    exact iff_of_true hphase fun hp => absurd hp hphase

theorem coherent_reclaimedPv (v : PersistentVolume) :
    (reclaimedPv v).Coherent ↔ (v.phase = .bound → ∀ x, v.reclaimPolicy ≠ .other x) := by
  rw [coherent_cleared rfl]
  unfold reclaimedPv
  dsimp only
  cases v.reclaimPolicy <;> simp

/-- Unbinding. -/
theorem coherent_unbind (h : Coherent s) (pvName : CString) :
    Coherent (pvUnbindFromPvc s (some pvName)).2 ↔ Sound s (.unbind (some pvName)) := by
  refine (coherent_onPv h pvName (fun pv => (0, unboundPv pv)) fun v => rfl).trans ?_
  simp only [coherent_unboundPv, Sound]

/-- Reclaiming. -/
theorem coherent_reclaim (h : Coherent s) (pvName : CString) :
    Coherent (pvReclaim s (some pvName)).2 ↔ Sound s (.reclaim (some pvName)) := by
  refine (coherent_onPv h pvName (fun pv => (0, reclaimedPv pv)) fun v => rfl).trans ?_
  simp only [coherent_reclaimedPv, Sound]

/-- **One step.** -/
theorem coherent_step (h : Coherent s) (a : PvAction) : Coherent (pvStep s a) ↔ Sound s a := by
  cases a with
  | create pv now => exact iff_of_true (coherent_create h pv now) trivial
  | update name updated =>
    cases name with
    | none => cases updated <;> exact iff_of_true h trivial
    | some name =>
      cases updated with
      | none => exact iff_of_true h trivial
      | some updated => exact coherent_update h name updated
  | delete name => exact iff_of_true (coherent_delete h name).1 trivial
  | bind pvName pvcNamespace pvcName now =>
    cases pvcNamespace with
    | none => cases pvName <;> exact iff_of_true h trivial
    | some ns =>
      cases pvcName with
      | none => cases pvName <;> exact iff_of_true h trivial
      | some pvcName =>
        cases pvName with
        | none => exact iff_of_true h trivial
        | some pvName => exact coherent_bind h pvName ns pvcName now
  | unbind pvName =>
    cases pvName with
    | none => exact iff_of_true h trivial
    | some pvName => exact coherent_unbind h pvName
  | reclaim pvName =>
    cases pvName with
    | none => exact iff_of_true h trivial
    | some pvName => exact coherent_reclaim h pvName

/-- In a coherent store no bound volume is deleted. -/
theorem keepsBound_of_coherent (h : Coherent s) (a : PvAction) : KeepsBound s a := by
  cases a with
  | delete name => exact (coherent_delete h name).2
  | _ => trivial

end Steps

/-! ## Whole runs -/

/-- **The store is coherent, exactly**: from the empty store on. -/
theorem store_coherent_iff (as : List PvAction) :
    AllStates pvStep Coherent [] as ∧ AllSteps pvStep KeepsBound [] as ↔ AllSteps pvStep Sound [] as := by
  have hempty : Coherent [] := ⟨List.nodup_nil, List.forall_mem_nil _⟩
  have hiff : AllStates pvStep Coherent [] as ↔ AllSteps pvStep Sound [] as :=
    allStates_iff_allSteps (I := fun _ => True) (fun _ _ _ _ => trivial)
      (fun _ a _ _ h => coherent_step h a) trivial hempty allSteps_true
  refine ⟨fun h => hiff.mp h.1, fun h => ⟨hiff.mpr h, ?_⟩⟩
  exact (hiff.mpr h).allSteps fun s a hs => keepsBound_of_coherent hs a

/-- A volume of a name. -/
def namedPv (name : CString) : PersistentVolume := ⟨name, [], .retain, .available, 0, 0, 0⟩

/-- Two volumes are created, and the second is updated to the name of the first. -/
def renamed : List PvAction :=
  [.create (some (namedPv ("a" : String))) 0, .create (some (namedPv ("b" : String))) 0,
    .update (some ("b" : String)) (some (namedPv ("a" : String)))]

/-- An update takes another volume's name. -/
theorem two_volumes_one_name :
    ¬ (AllStates pvStep Coherent [] renamed ∧ AllSteps pvStep KeepsBound [] renamed) := by
  rintro ⟨h, -⟩
  have hunique := h.run_mem.unique
  exact absurd hunique (by decide)

end Sirah.Storage
