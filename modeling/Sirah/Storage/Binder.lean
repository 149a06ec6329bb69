import Sirah.Lib.CString
import Sirah.Lib.Run
import Sirah.Lib.SplitFirst

/-!
# Binding volumes to claims

Model of `sirah/internal/storage/storage_binder.c`: a context of volumes, the claims, and the three
operations on them. A binding is stored twice, as `claim_ref` and status of the volume and as phase and
`volume_name` of the claim.

* `storage_bind_pvc` writes both sides, also for a claim that is bound already.
* `storage_unbind_pvc` makes the volume `RELEASED` and leaves the claim bound to it.
* `storage_release_pv` makes the volume `AVAILABLE`, whatever it was, and leaves the claim bound to it.

**`one_to_one_iff`**: along a run, binding stays one to one **iff** no step unbinds or releases a volume that
is `BOUND`, or binds a claim that is bound already to another volume. After bind, unbind and release, the
next bind gives the same volume to a second claim (`one_disk_two_claims`).
-/

namespace Sirah.Storage

open Runs

/-! ## Data -/

/-- `k8s_volume_status_t`. -/
inductive VolumeStatus where
  | available
  | bound
  | released
  | failed
  deriving DecidableEq, Repr

/-- `k8s_access_mode_t`. -/
inductive AccessMode where
  | readWriteOnce
  | readOnlyMany
  | readWriteMany
  deriving DecidableEq, Repr

/-- `k8s_persistent_volume_t`, as far as the binder looks. -/
structure Volume where
  name : CString
  storageClass : Option CString
  capacityBytes : Int
  accessModes : List AccessMode
  status : VolumeStatus
  claimRef : Option CString
  deriving DecidableEq, Repr

/-- `k8s_persistent_volume_claim_t`, as far as the binder looks. -/
structure Claim where
  name : CString
  storageClass : Option CString
  storageBytes : Int
  accessModes : List AccessMode
  phase : VolumeStatus
  volumeName : Option CString
  deriving DecidableEq, Repr

/-- `k8s_pv_new`. -/
def pvNew (name : CString) : Volume :=
  ⟨name, some [], 1024 * 1024 * 1024, [.readWriteOnce], .available, none⟩

/-- `k8s_pvc_new`. -/
def pvcNew (name : CString) : Claim :=
  ⟨name, some [], 1024 * 1024 * 1024, [.readWriteOnce], .available, none⟩

/-- The volumes of the context, and the claims. -/
structure World (κ : Type*) where
  volumes : List Volume
  claims : κ → Claim

/-! ## Operations -/

/-- `access_modes_compatible`. -/
def accessModesCompatible (pvModes pvcModes : List AccessMode) : Bool :=
  !pvModes.isEmpty && !pvcModes.isEmpty && pvcModes.all fun m => pvModes.contains m

/-- `storage_class_matches`. -/
def storageClassMatches : Option CString → Option CString → Bool
  | some pvClass, some pvcClass => pvClass = [] || pvcClass = [] || pvClass = pvcClass
  | _, _ => false

/-- The checks of `storage_bind_pvc`. -/
def suitable (pvc : Claim) (pv : Volume) : Bool :=
  pv.status = .available && storageClassMatches pv.storageClass pvc.storageClass &&
    pv.capacityBytes ≥ pvc.storageBytes && accessModesCompatible pv.accessModes pvc.accessModes

/-- An operation on the first volume that satisfies `p`. -/
def onVolume {κ : Type*} (w : World κ) (p : Volume → Bool) (f : Volume → Volume)
    (g : Volume → (κ → Claim)) : Int × World κ :=
  match w.volumes.splitFirst p with
  | none => (-1, w)
  | some (pre, pv, post) => (0, ⟨pre ++ f pv :: post, g pv⟩)

section Operations

variable {κ : Type*} [DecidableEq κ]

/-- `storage_bind_pvc`. -/
def storageBindPvc (w : World κ) (c : κ) : Int × World κ :=
  onVolume w (suitable (w.claims c))
    (fun pv => { pv with status := .bound, claimRef := some (w.claims c).name })
    (fun pv => Function.update w.claims c
      { w.claims c with phase := .bound, volumeName := some pv.name })

/-- `storage_unbind_pvc`. -/
def storageUnbindPvc (w : World κ) (c : κ) : Int × World κ :=
  match (w.claims c).volumeName with
  | none => (-1, w)
  | some name =>
    onVolume w (fun pv => pv.name = name) (fun pv => { pv with status := .released }) fun _ => w.claims

/-- `storage_release_pv`. -/
def storageReleasePv (w : World κ) (pvName : Option CString) : Int × World κ :=
  match pvName with
  | none => (-1, w)
  | some name =>
    onVolume w (fun pv => pv.name = name) (fun pv => { pv with status := .available, claimRef := none })
      fun _ => w.claims

variable (κ) in
/-- A call. -/
inductive Action where
  | bind (c : κ)
  | unbind (c : κ)
  | release (pvName : Option CString)

/-- One call. -/
def step (w : World κ) : Action κ → World κ
  | .bind c => (storageBindPvc w c).2
  | .unbind c => (storageUnbindPvc w c).2
  | .release name => (storageReleasePv w name).2

end Operations

/-! ## One to one -/

section OneToOne

variable {κ : Type*}

/-- The claim is bound to a volume of this name. -/
def BoundTo (w : World κ) (c : κ) (name : CString) : Prop :=
  (w.claims c).phase = .bound ∧ (w.claims c).volumeName = some name

/-- **Binding is one to one**: no volume has two claims, and a volume is `BOUND` exactly if one claim is
bound to it. -/
structure OneToOne (w : World κ) : Prop where
  unique : ∀ c c' name, BoundTo w c name → BoundTo w c' name → c = c'
  bound : ∀ pv ∈ w.volumes, (pv.status = .bound ↔ ∃! c, BoundTo w c pv.name)

/-- The volumes have distinct names. -/
def DistinctNames (w : World κ) : Prop := (w.volumes.map (·.name)).Nodup

/-- A step that keeps binding one to one: a claim that is bound to a volume of the context is not bound again,
and a `BOUND` volume is neither unbound nor released. -/
def Keeps (w : World κ) : Action κ → Prop
  | .bind c => (∃ pv ∈ w.volumes, suitable (w.claims c) pv = true) → ∀ pv ∈ w.volumes, ¬ BoundTo w c pv.name
  | .unbind c => ∀ pv ∈ w.volumes, (w.claims c).volumeName = some pv.name → pv.status ≠ .bound
  | .release name => ∀ pv ∈ w.volumes, name = some pv.name → pv.status ≠ .bound

/-! ## One step -/

section Steps

variable {w : World κ} {pre post : List Volume} {pv pv' : Volume} {g : κ → Claim}

/-- Replacing a volume by one of the same name keeps the names distinct. -/
theorem DistinctNames.replace (h : DistinctNames w) (hw : w.volumes = pre ++ pv :: post)
    (hname : pv'.name = pv.name) : DistinctNames (⟨pre ++ pv' :: post, g⟩ : World κ) := by
  unfold DistinctNames at h ⊢
  rw [hw] at h
  rw [List.nodup_replace_iff h, hname]
  intro z hz
  exact List.key_ne_of_nodup h hz

/-- Other volumes have other names. -/
theorem DistinctNames.name_ne (h : DistinctNames w) (hw : w.volumes = pre ++ pv :: post) {u : Volume}
    (hu : u ∈ pre ++ post) : u.name ≠ pv.name := by
  unfold DistinctNames at h
  rw [hw] at h
  exact List.key_ne_of_nodup h hu

/-- An available volume has no claim. -/
theorem OneToOne.not_boundTo (h : OneToOne w) {u : Volume} (hu : u ∈ w.volumes)
    (hst : u.status ≠ .bound) (c : κ) : ¬ BoundTo w c u.name := fun hc =>
  hst ((h.bound u hu).mpr ⟨c, hc, fun c' hc' => h.unique c' c u.name hc' hc⟩)

/-- **Unbinding and releasing** leave the claim bound, so they are right only for a volume that is not. -/
theorem oneToOne_unbound (h : OneToOne w) (hw : w.volumes = pre ++ pv :: post)
    (hname : pv'.name = pv.name) (hst : pv'.status ≠ .bound) :
    OneToOne ⟨pre ++ pv' :: post, w.claims⟩ ↔ pv.status ≠ .bound := by
  have hmem : pv ∈ w.volumes := hw ▸ List.mem_append_cons_iff.mpr (.inl rfl)
  constructor
  · intro h' hbound
    have hone := (h.bound pv hmem).mp hbound
    exact hst ((h'.bound pv' (List.mem_append_cons_iff.mpr (.inl rfl))).mpr (hname ▸ hone))
  · intro hfree
    refine ⟨h.unique, ?_⟩
    intro u hu
    rcases List.mem_append_cons_iff.mp hu with rfl | hu
    · rw [hname]
      exact iff_of_false hst fun hone => hfree ((h.bound pv hmem).mpr hone)
    · exact h.bound u (hw ▸ List.mem_append_cons_iff.mpr (.inr hu))

/-- A call acts on a volume it finds, or does nothing. -/
theorem onVolume_cases (w : World κ) (p : Volume → Bool) (f : Volume → Volume) (g : Volume → κ → Claim) :
    ((∀ pv ∈ w.volumes, p pv = false) ∧ (onVolume w p f g).2 = w) ∨
      ∃ pre pv post, w.volumes = pre ++ pv :: post ∧ p pv = true ∧
        (onVolume w p f g).2 = ⟨pre ++ f pv :: post, g pv⟩ := by
  unfold onVolume
  split
  · rename_i hnone
    exact .inl ⟨List.splitFirst_eq_none.mp hnone, rfl⟩
  · rename_i pre pv post hsome
    obtain ⟨hw, hp, -⟩ := List.splitFirst_eq_some hsome
    exact .inr ⟨pre, pv, post, hw, hp, rfl⟩

/-- No call renames a volume. -/
theorem DistinctNames.onVolume (hd : DistinctNames w) (p : Volume → Bool) {f : Volume → Volume}
    (hf : ∀ pv, (f pv).name = pv.name) (g : Volume → κ → Claim) :
    DistinctNames (onVolume w p f g).2 := by
  rcases onVolume_cases w p f g with ⟨-, heq⟩ | ⟨pre, pv, post, hw, -, heq⟩
  · rw [heq]
    exact hd
  · rw [heq]
    exact hd.replace hw (hf pv)

/-- Unbinding and releasing, for a volume found by its name. -/
theorem oneToOne_onName (hd : DistinctNames w) (h : OneToOne w) (name : CString) (f : Volume → Volume)
    (hf : ∀ pv, (f pv).name = pv.name ∧ (f pv).status ≠ .bound) :
    OneToOne (onVolume w (fun pv => pv.name = name) f fun _ => w.claims).2 ↔
      ∀ pv ∈ w.volumes, name = pv.name → pv.status ≠ .bound := by
  rcases onVolume_cases w (fun pv => pv.name = name) f fun _ => w.claims with
    ⟨hnone, heq⟩ | ⟨pre, pv, post, hw, hp, heq⟩
  · rw [heq]
    refine iff_of_true h fun pv hpv hname => ?_
    have := hnone pv hpv
    rw [hname, decide_eq_false_iff_not] at this
    exact absurd rfl this
  · rw [heq]
    have hpname : pv.name = name := by simpa using hp
    refine (oneToOne_unbound h hw (hf pv).1 (hf pv).2).trans ?_
    constructor
    · intro hst u hu hname
      rw [hw] at hu
      rcases List.mem_append_cons_iff.mp hu with rfl | hu
      · exact hst
      · exact absurd (hname.symm.trans hpname.symm) (hd.name_ne hw hu)
    · intro hall
      exact hall pv (hw ▸ List.mem_append_cons_iff.mpr (.inl rfl)) hpname.symm

variable [DecidableEq κ]

/-- A claim that was bound is bound to its volume alone, and the others stay as they were. -/
theorem boundTo_update_self {volumes : List Volume} {c : κ} {claim : Claim} {name name' : CString}
    (hphase : claim.phase = .bound) (hvol : claim.volumeName = some name') :
    BoundTo ⟨volumes, Function.update w.claims c claim⟩ c name ↔ name = name' := by
  simp only [BoundTo, Function.update_self, hphase, hvol, true_and, Option.some.injEq, eq_comm]

theorem boundTo_update_of_ne {volumes : List Volume} {c c' : κ} {claim : Claim} {name : CString} (hc : c' ≠ c) :
    BoundTo ⟨volumes, Function.update w.claims c claim⟩ c' name ↔ BoundTo w c' name := by
  simp only [BoundTo, Function.update_of_ne hc]

/-- **Binding** is right for a claim that is bound to no volume of the context. -/
theorem oneToOne_bind (hd : DistinctNames w) (h : OneToOne w) (hw : w.volumes = pre ++ pv :: post)
    (hav : pv.status = .available) {c : κ} {claim : Claim} (hname : pv'.name = pv.name)
    (hst : pv'.status = .bound) (hphase : claim.phase = .bound)
    (hvol : claim.volumeName = some pv.name) :
    OneToOne ⟨pre ++ pv' :: post, Function.update w.claims c claim⟩ ↔
      ∀ u ∈ w.volumes, ¬ BoundTo w c u.name := by
  have hmem : pv ∈ w.volumes := hw ▸ List.mem_append_cons_iff.mpr (.inl rfl)
  have hfree := h.not_boundTo hmem (by rw [hav]; nofun)
  have hself : ∀ name, BoundTo ⟨pre ++ pv' :: post, Function.update w.claims c claim⟩ c name ↔
      name = pv.name := fun name => boundTo_update_self hphase hvol
  have hother : ∀ c' name, c' ≠ c →
      (BoundTo ⟨pre ++ pv' :: post, Function.update w.claims c claim⟩ c' name ↔ BoundTo w c' name) :=
    fun c' name => boundTo_update_of_ne
  constructor
  · intro h' u hu hc
    have hne : u.name ≠ pv.name := fun heq => hfree c (heq ▸ hc)
    have hu' : u ∈ pre ++ pv' :: post := by
      rw [hw] at hu
      rcases List.mem_append_cons_iff.mp hu with rfl | hu
      · exact absurd rfl hne
      · exact List.mem_append_cons_iff.mpr (.inr hu)
    have hub : u.status = .bound :=
      (h.bound u hu).mpr ⟨c, hc, fun c' hc' => h.unique c' c u.name hc' hc⟩
    obtain ⟨c', hc', -⟩ := (h'.bound u hu').mp hub
    by_cases hcc : c' = c
    · subst hcc
      exact hne ((hself u.name).mp hc')
    · exact hcc (h.unique c' c u.name ((hother c' u.name hcc).mp hc') hc)
  · intro hc
    refine ⟨?_, ?_⟩
    · intro c₁ c₂ name h₁ h₂
      by_cases hc₁ : c₁ = c
      · by_cases hc₂ : c₂ = c
        · rw [hc₁, hc₂]
        · rw [hc₁, hself] at h₁
          rw [hother c₂ name hc₂, h₁] at h₂
          exact absurd h₂ (hfree c₂)
      · rw [hother c₁ name hc₁] at h₁
        by_cases hc₂ : c₂ = c
        · rw [hc₂, hself] at h₂
          rw [h₂] at h₁
          exact absurd h₁ (hfree c₁)
        · rw [hother c₂ name hc₂] at h₂
          exact h.unique c₁ c₂ name h₁ h₂
    · intro u hu
      rcases List.mem_append_cons_iff.mp hu with rfl | hbeside
      · rw [hname]
        refine iff_of_true hst ⟨c, (hself _).mpr rfl, fun c' hc' => ?_⟩
        by_contra hcc
        exact hfree c' ((hother c' _ hcc).mp hc')
      · have hmemu : u ∈ w.volumes := hw ▸ List.mem_append_cons_iff.mpr (.inr hbeside)
        have hsame : ∀ c', BoundTo ⟨pre ++ pv' :: post, Function.update w.claims c claim⟩ c' u.name ↔
            BoundTo w c' u.name := by
          intro c'
          by_cases hcc : c' = c
          · subst hcc
            exact iff_of_false (fun hb => hd.name_ne hw hbeside ((hself _).mp hb)) (hc u hmemu)
          · exact hother c' u.name hcc
        rw [h.bound u hmemu]
        simp only [hsame]

theorem DistinctNames.step (hd : DistinctNames w) (a : Action κ) : DistinctNames (step w a) := by
  cases a with
  | bind c =>
    refine hd.onVolume _ ?_ _
    exact fun _ => rfl
  | unbind c =>
    unfold Storage.step storageUnbindPvc
    dsimp only
    split
    · exact hd
    · refine hd.onVolume _ ?_ _
      exact fun _ => rfl
  | release name =>
    cases name with
    | none => exact hd
    | some name =>
      refine hd.onVolume _ ?_ _
      exact fun _ => rfl

/-- **One step.** -/
theorem oneToOne_step (hd : DistinctNames w) (h : OneToOne w) (a : Action κ) :
    OneToOne (step w a) ↔ Keeps w a := by
  cases a with
  | bind c =>
    rcases onVolume_cases w (suitable (w.claims c))
      (fun pv => { pv with status := .bound, claimRef := some (w.claims c).name })
      (fun pv => Function.update w.claims c
        { w.claims c with phase := .bound, volumeName := some pv.name }) with
      ⟨hnone, heq⟩ | ⟨pre, pv, post, hw, hp, heq⟩
    · have hsame : step w (.bind c) = w := heq
      rw [hsame]
      refine iff_of_true h ?_
      rintro ⟨pv, hpv, hsuit⟩
      rw [hnone pv hpv] at hsuit
      cases hsuit
    · have hav : pv.status = .available := by
        simp only [suitable, Bool.and_eq_true, decide_eq_true_eq] at hp
        exact hp.1.1.1
      have hstep : step w (.bind c) = _ := heq
      rw [hstep]
      refine Iff.trans (oneToOne_bind hd h hw hav ?_ ?_ ?_ ?_) ?_
      · rfl
      · rfl
      · rfl
      · rfl
      · exact ⟨fun hc _ => hc, fun hc => hc ⟨pv, hw ▸ List.mem_append_cons_iff.mpr (.inl rfl), hp⟩⟩
  | unbind c =>
    cases hvol : (w.claims c).volumeName with
    | none =>
      have hsame : step w (.unbind c) = w := by
        simp only [step, storageUnbindPvc, hvol]
      rw [hsame]
      refine iff_of_true h fun pv _ hname => ?_
      rw [hvol] at hname
      cases hname
    | some name =>
      have hstep : step w (.unbind c) = (onVolume w (fun pv => pv.name = name)
          (fun pv => { pv with status := .released }) fun _ => w.claims).2 := by
        simp only [step, storageUnbindPvc, hvol]
      have hkeeps : Keeps w (.unbind c) ↔
          ∀ pv ∈ w.volumes, name = pv.name → pv.status ≠ .bound := by
        simp only [Keeps, hvol, Option.some.injEq]
      rw [hstep, hkeeps]
      exact oneToOne_onName hd h name _ fun pv => ⟨rfl, nofun⟩
  | release name =>
    cases name with
    | none => exact iff_of_true h nofun
    | some name =>
      have hkeeps : Keeps w (.release (some name)) ↔
          ∀ pv ∈ w.volumes, name = pv.name → pv.status ≠ .bound := by
        simp only [Keeps, Option.some.injEq]
      rw [hkeeps]
      exact oneToOne_onName hd h name _ fun pv => ⟨rfl, nofun⟩

end Steps

end OneToOne

/-! ## Whole runs -/

/-- **Binding is one to one, exactly**: from volumes with distinct names and any binding that is one to
one. -/
theorem one_to_one_iff {κ : Type*} [DecidableEq κ] (w : World κ) (hd : DistinctNames w) (h : OneToOne w)
    (as : List (Action κ)) : AllStates step OneToOne w as ↔ AllSteps step Keeps w as :=
  allStates_iff_allSteps (I := DistinctNames) (fun _ a hd _ => hd.step a)
    (fun _ a hd _ h => oneToOne_step hd h a) hd h allSteps_true

/-- Nothing is bound to begin with. -/
theorem oneToOne_unbound_all {κ : Type*} {w : World κ} (hv : ∀ pv ∈ w.volumes, pv.status ≠ .bound)
    (hc : ∀ c, (w.claims c).phase ≠ .bound) : OneToOne w := by
  refine ⟨fun c _ _ hb => absurd hb.1 (hc c), fun pv hpv => iff_of_false (hv pv hpv) ?_⟩
  rintro ⟨c, hb, -⟩
  exact hc c hb.1

/-- One volume and two claims. -/
def oneDisk : World Bool :=
  ⟨[pvNew ("disk" : String)], fun c => pvcNew (if c then ("a" : String) else ("b" : String))⟩

theorem oneToOne_oneDisk : OneToOne oneDisk := by
  refine oneToOne_unbound_all ?_ fun c => nofun
  intro pv hpv
  cases List.mem_singleton.mp hpv
  nofun

/-- Two claims ask for one volume, and the second does not get it. -/
theorem one_to_one_iff_oneDisk : DistinctNames oneDisk ∧ OneToOne oneDisk ∧
    AllStates step OneToOne oneDisk [.bind true, .bind false] := by
  have hd : DistinctNames oneDisk := List.nodup_singleton _
  refine ⟨hd, oneToOne_oneDisk, (one_to_one_iff oneDisk hd oneToOne_oneDisk _).mpr ⟨?_, ?_, trivial⟩⟩
  · intro _ pv _ hb
    cases hb.1
  · rintro ⟨pv, hpv, hsuit⟩
    cases List.mem_singleton.mp hpv
    cases hsuit

/-- Bound, unbound, released and bound again, one disk has two claims. -/
theorem one_disk_two_claims : ¬ AllStates step OneToOne oneDisk
    [.bind true, .unbind true, .release (some ("disk" : String)), .bind false] := by
  intro h
  cases h.run_mem.unique true false ("disk" : String) ⟨rfl, rfl⟩ ⟨rfl, rfl⟩

end Sirah.Storage
