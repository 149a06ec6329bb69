import Mathlib.Data.List.Perm.Subperm
import Sirah.Storage.PersistentVolume

/-!
# Matching a claim with a volume

Model of `pvc_find_matching_pv` (`sirah/internal/storage/persistent_volume_claim.c`), with the look-ups of
`persistent_volume.c` it calls.

* The loop runs once for every volume, but nothing is ever read into its local record `pv`: each turn asks for
  the volume of the name that happens to stand in `pv`, and tests the access modes that stand there.
  The contents of `pv` are a parameter, and the match has to be right for all of them.
* `findLoop_eq`: so all turns do the same.

**`matching_right_iff`**: the result is right whatever `pv` holds **iff** no volume suits the claim and no
look-up finds an available volume that is large enough.
-/

namespace Sirah.Storage

/-! ## Data -/

/-- `persistent_volume_t` with `capacity_bytes` and the bitmask `access_modes`. The name stands in a
`char[256]`. -/
structure SizedVolume extends PersistentVolume where
  capacityBytes : Int
  accessModes : UInt32
  name_lt : name.length < 256
  deriving DecidableEq, Repr

/-- `persistent_volume_claim_t`: the fields that the matching reads. -/
structure PersistentVolumeClaim where
  «namespace» : CString
  name : CString
  requestedCapacityBytes : Int
  accessModes : UInt32
  deriving DecidableEq, Repr

/-- `pvc_binding_result_t`. -/
structure PvcBindingResult where
  found : Int
  matchedPvName : CString
  reason : CString
  deriving DecidableEq, Repr

/-! ## Operations -/

/-- The volume `find_pv_index` finds. -/
def findPv (s : List SizedVolume) (name : CString) : Option SizedVolume := s.find? fun v => v.name = name

/-- `pv_is_available`. -/
def pvIsAvailable (s : List SizedVolume) (name : CString) : Bool :=
  match findPv s name with
  | none => false
  | some v => v.phase = .available

/-- `pv_get_capacity`. -/
def pvGetCapacity (s : List SizedVolume) (name : CString) : Int :=
  match findPv s name with
  | none => -1
  | some v => v.capacityBytes

/-- `pvc_get`. -/
def pvcGet (claims : List PersistentVolumeClaim) (ns name : CString) : Option PersistentVolumeClaim :=
  claims.find? fun c => c.namespace = ns ∧ c.name = name

/-- The loop of `pvc_find_matching_pv`, with the turns left: what is stored for a match. `pv` is the local
record, which the loop does not fill. -/
def findLoop (s : List SizedVolume) (pvc : PersistentVolumeClaim) (pv : SizedVolume) :
    Nat → Option PvcBindingResult
  | 0 => none
  | n + 1 =>
    if ¬ pvIsAvailable s pv.name then findLoop s pvc pv n
    else if pvGetCapacity s pv.name < pvc.requestedCapacityBytes then findLoop s pvc pv n
    else if pv.accessModes &&& pvc.accessModes ≠ pvc.accessModes then findLoop s pvc pv n
    else some { found := 1, matchedPvName := strncpy 256 pv.name, reason := [] }

/-- The reason that is given when no volume matches. -/
def noMatch (pvc : PersistentVolumeClaim) : CString :=
  CString.snprintf 256 ("No available PV with capacity " ++ CString.ofInt pvc.requestedCapacityBytes ++
    " and required access modes")

/-- `pvc_find_matching_pv`: the code and what `out_result` holds afterwards. -/
def pvcFindMatchingPv (s : List SizedVolume) (claims : List PersistentVolumeClaim)
    (ns pvcName : Option CString) (pv : SizedVolume) (out : PvcBindingResult) : Int × PvcBindingResult :=
  match ns, pvcName with
  | some ns, some pvcName =>
    match pvcGet claims ns pvcName with
    | none => (-2, { out with found := 0, reason := strncpy 256 "PVC not found" })
    | some pvc =>
      match findLoop s pvc pv s.length with
      | some result => (0, result)
      | none => (0, { out with found := 0, reason := noMatch pvc })
  | _, _ => (-1, out)

/-! ## What the matching is for -/

/-- An available volume, large enough for the claim. -/
def SizedVolume.Enough (v : SizedVolume) (pvc : PersistentVolumeClaim) : Prop :=
  v.phase = .available ∧ pvc.requestedCapacityBytes ≤ v.capacityBytes

/-- A volume for the claim: it supports all its access modes too. -/
def SizedVolume.Suits (v : SizedVolume) (pvc : PersistentVolumeClaim) : Prop :=
  v.Enough pvc ∧ v.accessModes &&& pvc.accessModes = pvc.accessModes

/-- **Sound and complete**: a match is found exactly if a volume suits the claim, and it is such a volume. -/
def RightMatch (s : List SizedVolume) (pvc : PersistentVolumeClaim) (out : PvcBindingResult) : Prop :=
  (out.found = 1 ↔ ∃ v ∈ s, v.Suits pvc) ∧
    (out.found = 1 → ∃ v ∈ s, v.Suits pvc ∧ v.name = out.matchedPvName)

/-- **The matching is right** whatever its local record and its result hold at the start. -/
def MatchesRightly (s : List SizedVolume) (claims : List PersistentVolumeClaim) (ns name : CString)
    (pvc : PersistentVolumeClaim) : Prop :=
  ∀ pv out, RightMatch s pvc (pvcFindMatchingPv s claims (some ns) (some name) pv out).2

/-! ## What the loop does -/

section Loop

variable {s : List SizedVolume} {pvc : PersistentVolumeClaim} {pv : SizedVolume}

/-- What the look-ups of a turn say: the volume of that name is enough. -/
theorem lookups_iff (name : CString) :
    (pvIsAvailable s name = true ∧ pvc.requestedCapacityBytes ≤ pvGetCapacity s name) ↔
      ∃ v, findPv s name = some v ∧ v.Enough pvc := by
  unfold pvIsAvailable pvGetCapacity SizedVolume.Enough
  cases findPv s name with
  | none => simp
  | some v => simp

/-- **Every turn looks at the same record.** -/
theorem findLoop_eq (n : Nat) : findLoop s pvc pv n =
    if 0 < n ∧ (pvIsAvailable s pv.name = true ∧ pvc.requestedCapacityBytes ≤ pvGetCapacity s pv.name) ∧
        pv.accessModes &&& pvc.accessModes = pvc.accessModes then
      some { found := 1, matchedPvName := strncpy 256 pv.name, reason := [] }
    else none := by
  induction n with
  | zero => simp [findLoop]
  | succ n ih =>
    unfold findLoop
    rw [ih]
    by_cases hav : pvIsAvailable s pv.name = true
    · by_cases hcap : pvc.requestedCapacityBytes ≤ pvGetCapacity s pv.name
      · by_cases hmodes : pv.accessModes &&& pvc.accessModes = pvc.accessModes
        · simp [hav, Int.not_lt.mpr hcap, hcap, hmodes]
        · simp [hav, Int.not_lt.mpr hcap, hmodes]
      · simp [hav, Int.not_le.mp hcap, hcap]
    · simp [hav]

/-- **When a match is found**: the record holds the name of a volume that is enough, and the modes. -/
theorem found_iff {claims : List PersistentVolumeClaim} {ns name : CString}
    (hget : pvcGet claims ns name = some pvc) (pv : SizedVolume) (out : PvcBindingResult) :
    (pvcFindMatchingPv s claims (some ns) (some name) pv out).2.found = 1 ↔
      (∃ v, findPv s pv.name = some v ∧ v.Enough pvc) ∧
        pv.accessModes &&& pvc.accessModes = pvc.accessModes := by
  rw [← lookups_iff]
  unfold pvcFindMatchingPv
  simp only [hget, findLoop_eq]
  have hlen : pvIsAvailable s pv.name = true → 0 < s.length := by
    intro hav
    cases s with
    | nil => cases hav
    | cons v vs => exact Nat.succ_pos _
  split
  · rename_i result hres
    split at hres
    · rename_i hall
      obtain rfl := Option.some.inj hres
      exact iff_of_true rfl hall.2
    · cases hres
  · rename_i hres
    split at hres
    · cases hres
    · rename_i hno
      refine iff_of_false (by simp) fun hall => hno ⟨hlen hall.1.1, hall⟩

end Loop

/-! ## When the result is right -/

/-- Names of two bytes. -/
def shortName (i : Nat) : CString := [.ofNat (1 + i / 255), .ofNat (1 + i % 255)]

theorem shortName_inj {i j : Nat} (hi : i ≤ 500) (hj : j ≤ 500) (h : shortName i = shortName j) : i = j := by
  injection h with hq hrest
  injection hrest with hr
  have hq' := congrArg UInt8.toNat hq
  have hr' := congrArg UInt8.toNat hr
  simp only [UInt8.toNat_ofNat'] at hq' hr'
  omega

/-- The store has room for 500 volumes, so that a short name is not taken. -/
theorem exists_free_name {s : List SizedVolume} (hs : s.length ≤ 500) : ∃ i, findPv s (shortName i) = none := by
  by_contra hall
  have htaken : ∀ i, shortName i ∈ s.map (·.name) := by
    intro i
    by_contra hno
    refine hall ⟨i, List.find?_eq_none.mpr fun v hv => ?_⟩
    have hne : v.name ≠ shortName i := fun heq => hno (heq ▸ List.mem_map_of_mem hv)
    simpa using hne
  have hnd : ((List.range 501).map shortName).Nodup := by
    refine List.Nodup.map_on (fun i hi j hj hij => ?_) List.nodup_range
    rw [List.mem_range] at hi hj
    exact shortName_inj (by omega) (by omega) hij
  have hsub : (List.range 501).map shortName ⊆ s.map (·.name) := by
    intro name hname
    obtain ⟨i, -, rfl⟩ := List.mem_map.mp hname
    exact htaken i
  have hle := (hnd.subperm hsub).length_le
  rw [List.length_map, List.length_range, List.length_map] at hle
  omega

/-- What the local record may hold: a volume of that name, with all access modes. -/
def leftover (name : CString) (hname : name.length < 256) : SizedVolume where
  name := name
  boundPvcName := []
  reclaimPolicy := .retain
  phase := .available
  createdAt := 0
  boundAt := 0
  claimRefGeneration := 0
  capacityBytes := 0
  accessModes := -1
  name_lt := hname

/-- **The result is right whatever the local record holds**, exactly if no volume suits the claim, and none
that is found by its name is available and large enough. -/
theorem matching_right_iff {s : List SizedVolume} (hs : s.length ≤ 500) {claims : List PersistentVolumeClaim}
    {ns name : CString} {pvc : PersistentVolumeClaim} (hget : pvcGet claims ns name = some pvc) :
    MatchesRightly s claims ns name pvc ↔
      (∀ v ∈ s, ¬ v.Suits pvc) ∧ ∀ v ∈ s, findPv s v.name = some v → ¬ v.Enough pvc := by
  constructor
  · intro hright
    have hnone : ∀ v ∈ s, ¬ v.Suits pvc := by
      -- with the name of no volume nothing is found
      obtain ⟨i, hfree⟩ := exists_free_name hs
      intro v hv hsuits
      have hfound := (hright (leftover (shortName i) (by simp [shortName])) ⟨0, [], []⟩).1.mpr ⟨v, hv, hsuits⟩
      obtain ⟨⟨u, hu, -⟩, -⟩ := (found_iff hget _ _).mp hfound
      cases hfree.symm.trans hu
    refine ⟨hnone, fun v hv hfind henough => ?_⟩
    -- with its name, and all modes, it is found
    have hfound := (found_iff hget (leftover v.name v.name_lt) ⟨0, [], []⟩).mpr
      ⟨⟨v, hfind, henough⟩, UInt32.neg_one_and⟩
    obtain ⟨u, hu, hsuits⟩ := (hright _ _).1.mp hfound
    exact hnone u hu hsuits
  · rintro ⟨hnone, hsmall⟩ pv out
    have hnot : (pvcFindMatchingPv s claims (some ns) (some name) pv out).2.found ≠ 1 := by
      intro hfound
      obtain ⟨⟨v, hfind, henough⟩, -⟩ := (found_iff hget pv out).mp hfound
      have hname : v.name = pv.name := by simpa using List.find?_some hfind
      exact hsmall v (List.mem_of_find?_eq_some hfind) (hname ▸ hfind) henough
    refine ⟨iff_of_false hnot ?_, fun hfound => absurd hfound hnot⟩
    rintro ⟨v, hv, hsuits⟩
    exact hnone v hv hsuits

/-- A volume of one gibibyte for one writer. -/
def gibibyte : SizedVolume where
  toPersistentVolume := namedPv ("disk" : String)
  capacityBytes := 2 ^ 30
  accessModes := 1
  name_lt := by decide

/-- A claim on some bytes for one writer. -/
def dataClaim (bytes : Int) : PersistentVolumeClaim := ⟨("default" : String), ("data" : String), bytes, 1⟩

/-- Two gibibytes are asked for, and the only volume has one. -/
theorem too_large_not_found :
    MatchesRightly [gibibyte] [dataClaim (2 ^ 31)] ("default" : String) ("data" : String) (dataClaim (2 ^ 31)) := by
  have hget : pvcGet [dataClaim (2 ^ 31)] ("default" : String) ("data" : String) =
      some (dataClaim (2 ^ 31)) := by decide
  have hsmall : ¬ gibibyte.Enough (dataClaim (2 ^ 31)) := by simp [SizedVolume.Enough, gibibyte, dataClaim]
  refine (matching_right_iff (s := [gibibyte]) (by simp) hget).mpr ⟨?_, ?_⟩
  · rintro v hv ⟨henough, -⟩
    cases List.mem_singleton.mp hv
    exact hsmall henough
  · intro v hv _
    cases List.mem_singleton.mp hv
    exact hsmall

/-- One byte is asked for. With a local record full of zeros the volume is not found. -/
theorem suitable_not_found :
    ¬ MatchesRightly [gibibyte] [dataClaim 1] ("default" : String) ("data" : String) (dataClaim 1) := by
  intro hright
  have hget : pvcGet [dataClaim 1] ("default" : String) ("data" : String) = some (dataClaim 1) := by decide
  have hsuits : gibibyte.Suits (dataClaim 1) := by
    simp [SizedVolume.Suits, SizedVolume.Enough, gibibyte, namedPv, dataClaim]
  have hfound := (hright { leftover [] (by simp) with accessModes := 0 } ⟨0, [], []⟩).1.mpr
    ⟨gibibyte, List.mem_singleton.mpr rfl, hsuits⟩
  obtain ⟨⟨v, hfind, -⟩, -⟩ := (found_iff hget _ _).mp hfound
  cases hfind

end Sirah.Storage
