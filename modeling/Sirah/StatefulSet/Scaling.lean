import Mathlib.Logic.Function.Iterate
import Sirah.StatefulSet.StatefulSet

/-!
# Scaling a stateful set

A controller asks the two selectors of `statefulset.c` in turn. The ordinal to create it sets running and ready, the
ordinal to delete it sets not ready and terminated. Replicas change in between.

* `Settled`: what the scale operations leave of an ordinal. It is running and ready, or terminated and not ready.
* `Converges`: after finitely many rounds both selectors return -1, and the ordinals below `replicas` run.
* **`converges_iff`**: every state of a run converges **iff** no update takes the replicas above a terminated ordinal.
* `scaled_up_again`: to zero and back. The selector for creation skips a terminated ordinal.
-/

namespace Sirah.Stateful.Scaling

open Runs StatefulSet

/-! ## Rounds -/

/-- The next pod is created and gets ready. -/
def scaleUp (s : StatefulSet) : StatefulSet :=
  let k := s.nextOrdinalToCreate
  if k < 0 then s else ((s.setOrdinalState k .running).1.setOrdinalReady k true).1

/-- The next pod is taken down. -/
def scaleDown (s : StatefulSet) : StatefulSet :=
  let d := s.nextOrdinalToDelete
  if d < 0 then s else ((s.setOrdinalReady d false).1.setOrdinalState d .terminated).1

def round (s : StatefulSet) : StatefulSet := scaleDown (scaleUp s)

inductive Op where
  | update (spec : Spec)
  | scaleUp
  | scaleDown

def step (s : StatefulSet) : Op → StatefulSet
  | .update spec => (s.update spec).1
  | .scaleUp => Scaling.scaleUp s
  | .scaleDown => Scaling.scaleDown s

def Running (s : StatefulSet) (i : Nat) : Prop := i ≤ s.maxOrdinal ∧ (s.podOrdinals i).state = .running

/-- Nothing is left to do, and exactly the replicas run. -/
structure Done (s : StatefulSet) : Prop where
  create : s.nextOrdinalToCreate = -1
  delete : s.nextOrdinalToDelete = -1
  running : ∀ i : Nat, Running s i ↔ i < s.spec.replicas

/-- **Scaling ends**: after finitely many rounds. -/
def Converges (s : StatefulSet) : Prop := ∃ n, Done (round^[n] s)

/-- No ordinal below `replicas` is terminated. -/
def Kept (s : StatefulSet) (replicas : Int) : Prop :=
  ∀ i : Nat, i < replicas → i ≤ s.maxOrdinal → (s.podOrdinals i).state ≠ .terminated

/-- The condition on a step: an update that is accepted sets the replicas to at most the lowest terminated ordinal. -/
def StepKept (s : StatefulSet) : Op → Prop
  | .update spec => validateSpec spec = none → Kept s spec.replicas
  | .scaleUp => True
  | .scaleDown => True

/-! ## The states between the rounds -/

/-- What the operations leave. -/
structure Settled (s : StatefulSet) : Prop where
  nonneg : 0 ≤ s.spec.replicas
  replicas : s.spec.replicas ≤ 1000
  lower : -1 ≤ s.maxOrdinal
  upper : s.maxOrdinal < 1000
  pods : ∀ i : Nat, i ≤ s.maxOrdinal →
    ((s.podOrdinals i).state = .running ∧ (s.podOrdinals i).ready = true) ∨
    ((s.podOrdinals i).state = .terminated ∧ (s.podOrdinals i).ready = false)
  tail : s.TailUnready

variable {s : StatefulSet}

theorem Settled.not_missing (h : Settled s) {i : Nat} (hi : i ≤ s.maxOrdinal) : ¬ s.Missing i := by
  intro hmissing
  rcases hmissing hi with hstate | hstate <;> rcases h.pods i hi with ⟨hrun, -⟩ | ⟨hterm, -⟩ <;> simp_all

/-- What `scaleUp` does: the first place behind the table comes into use. -/
structure Created (s t : StatefulSet) (k : Nat) : Prop where
  next : s.nextOrdinalToCreate = k
  first : (k : Int) = s.maxOrdinal + 1
  replica : k < s.spec.replicas
  spec : t.spec = s.spec
  last : t.maxOrdinal = k
  state : (t.podOrdinals k).state = .running
  ready : (t.podOrdinals k).ready = true
  others : ∀ i ≠ k, t.podOrdinals i = s.podOrdinals i

theorem Settled.first_creatable (h : Settled s) {k : Nat} (hk : s.Creatable k) (hlowest : ∀ i < k, ¬ s.Creatable i) :
    (k : Int) = s.maxOrdinal + 1 := by
  have hbehind : s.maxOrdinal < k := by
    by_contra hle
    exact h.not_missing (by omega) hk.1
  have hlower := h.lower
  by_cases hpolicy : s.spec.podManagementPolicy = .orderedReady
  · rcases hk.2 hpolicy with rfl | hready
    · omega
    · -- the pod before it is ready, so its place is in use
      by_contra hne
      have hunready := h.tail (k - 1) (by omega)
      exact absurd (hunready.symm.trans hready) Bool.false_ne_true
  · by_contra hne
    refine hlowest (s.maxOrdinal + 1).toNat (by omega) ⟨fun hle => by omega, fun hord => absurd hord hpolicy⟩

theorem scaleUp_cases (h : Settled s) :
    (s.nextOrdinalToCreate = -1 ∧ scaleUp s = s) ∨ ∃ k, Created s (scaleUp s) k := by
  rcases s.nextOrdinalToCreate_cases with ⟨hnext, -⟩ | ⟨k, hnext, hrep, hk, hlowest⟩
  · exact .inl ⟨hnext, by simp [scaleUp, hnext]⟩
  · have hfirst := h.first_creatable hk hlowest
    have hbound := h.replicas
    have heq : scaleUp s = ((s.setOrdinalState k .running).1.setOrdinalReady k true).1 := by
      simp only [scaleUp, hnext]
      rw [if_neg (by omega)]
    have hstate : ¬ ((k : Int) < 0 ∨ (k : Int) ≥ 1000) := by omega
    have hgrow : (k : Int) > s.maxOrdinal := by omega
    simp only [setOrdinalState, if_neg hstate, expand, Int.toNat_natCast, if_pos hgrow, setOrdinalReady] at heq
    rw [if_neg (by omega)] at heq
    refine .inr ⟨k, hnext, hfirst, hrep, ?_, ?_, ?_, ?_, fun i hi => ?_⟩ <;> rw [heq]
    · simp
    · simp
    · dsimp only
      rw [Function.update_of_ne hi, Function.update_of_ne hi, if_neg (by omega)]

/-- What `scaleDown` does: the highest ordinal that is not terminated gets terminated. -/
structure Deleted (s t : StatefulSet) (d : Nat) : Prop where
  next : s.nextOrdinalToDelete = d
  surplus : s.spec.replicas ≤ d
  inUse : d ≤ s.maxOrdinal
  above : ∀ j : Nat, d < j → j ≤ s.maxOrdinal → (s.podOrdinals j).state = .terminated
  spec : t.spec = s.spec
  last : t.maxOrdinal = s.maxOrdinal
  state : (t.podOrdinals d).state = .terminated
  ready : (t.podOrdinals d).ready = false
  others : ∀ i ≠ d, t.podOrdinals i = s.podOrdinals i

theorem scaleDown_cases (h : Settled s) :
    (s.nextOrdinalToDelete = -1 ∧ scaleDown s = s) ∨ ∃ d, Deleted s (scaleDown s) d := by
  rcases s.nextOrdinalToDelete_cases with ⟨hnext, -⟩ | ⟨d, hnext, hrep, hin, -, habove⟩
  · exact .inl ⟨hnext, by simp [scaleDown, hnext]⟩
  · have hupper := h.upper
    have heq : scaleDown s = ((s.setOrdinalReady d false).1.setOrdinalState d .terminated).1 := by
      simp only [scaleDown, hnext]
      rw [if_neg (by omega)]
    have hready : ¬ ((d : Int) < 0 ∨ (d : Int) > s.maxOrdinal) := by omega
    have hstate : ¬ ((d : Int) < 0 ∨ (d : Int) ≥ 1000) := by omega
    have hgrow : ¬ (d : Int) > s.maxOrdinal := by omega
    simp only [setOrdinalReady, if_neg hready, setOrdinalState, if_neg hstate, expand, Int.toNat_natCast,
      if_neg hgrow] at heq
    refine .inr ⟨d, hnext, hrep, hin, habove, ?_, ?_, ?_, ?_, fun i hi => ?_⟩ <;> rw [heq]
    · simp
    · simp
    · dsimp only
      rw [Function.update_of_ne hi, Function.update_of_ne hi]

theorem Settled.scaleUp (h : Settled s) : Settled (scaleUp s) := by
  rcases scaleUp_cases h with ⟨-, heq⟩ | ⟨k, hk⟩
  · rwa [heq]
  · have hfirst := hk.first
    have hrep := hk.replica
    have hreplicas := h.replicas
    refine ⟨hk.spec ▸ h.nonneg, hk.spec ▸ h.replicas, ?_, ?_, fun i hi => ?_, fun j hj => ?_⟩
    · rw [hk.last]
      omega
    · rw [hk.last]
      omega
    · rw [hk.last] at hi
      rcases eq_or_ne i k with rfl | hne
      · exact .inl ⟨hk.state, hk.ready⟩
      · rw [hk.others i hne]
        exact h.pods i (by omega)
    · rw [hk.last] at hj
      rw [hk.others j (by omega)]
      exact h.tail j (by omega)

theorem Settled.scaleDown (h : Settled s) : Settled (scaleDown s) := by
  rcases scaleDown_cases h with ⟨-, heq⟩ | ⟨d, hd⟩
  · rwa [heq]
  · have hin := hd.inUse
    refine ⟨hd.spec ▸ h.nonneg, hd.spec ▸ h.replicas, hd.last ▸ h.lower, hd.last ▸ h.upper, fun i hi => ?_,
      fun j hj => ?_⟩
    · rw [hd.last] at hi
      rcases eq_or_ne i d with rfl | hne
      · exact .inr ⟨hd.state, hd.ready⟩
      · rw [hd.others i hne]
        exact h.pods i hi
    · rw [hd.last] at hj
      rw [hd.others j (by omega)]
      exact h.tail j hj

theorem Settled.round (h : Settled s) : Settled (round s) := h.scaleUp.scaleDown

/-! ## Rounds and the ordinals in use -/

theorem scaleUp_spec (h : Settled s) : (scaleUp s).spec = s.spec := by
  rcases scaleUp_cases h with ⟨-, heq⟩ | ⟨k, hk⟩
  · rw [heq]
  · exact hk.spec

theorem scaleDown_spec (h : Settled s) : (scaleDown s).spec = s.spec := by
  rcases scaleDown_cases h with ⟨-, heq⟩ | ⟨d, hd⟩
  · rw [heq]
  · exact hd.spec

theorem round_spec (h : Settled s) : (round s).spec = s.spec :=
  (scaleDown_spec h.scaleUp).trans (scaleUp_spec h)

/-- A pod below the replicas that is in use stays as it is. -/
theorem scaleUp_keeps (h : Settled s) {i : Nat} (hi : i ≤ s.maxOrdinal) :
    i ≤ (scaleUp s).maxOrdinal ∧ (scaleUp s).podOrdinals i = s.podOrdinals i := by
  rcases scaleUp_cases h with ⟨-, heq⟩ | ⟨k, hk⟩
  · rw [heq]
    exact ⟨hi, rfl⟩
  · have hfirst := hk.first
    exact ⟨by rw [hk.last]; omega, hk.others i (by omega)⟩

theorem scaleDown_keeps (h : Settled s) {i : Nat} (hi : i ≤ s.maxOrdinal) (hrep : i < s.spec.replicas) :
    i ≤ (scaleDown s).maxOrdinal ∧ (scaleDown s).podOrdinals i = s.podOrdinals i := by
  rcases scaleDown_cases h with ⟨-, heq⟩ | ⟨d, hd⟩
  · rw [heq]
    exact ⟨hi, rfl⟩
  · have hsurplus := hd.surplus
    exact ⟨hd.last ▸ hi, hd.others i (by omega)⟩

theorem round_keeps (h : Settled s) {i : Nat} (hi : i ≤ s.maxOrdinal) (hrep : i < s.spec.replicas) :
    i ≤ (round s).maxOrdinal ∧ (round s).podOrdinals i = s.podOrdinals i := by
  obtain ⟨hup, heq⟩ := scaleUp_keeps h hi
  obtain ⟨hdown, heq'⟩ := scaleDown_keeps h.scaleUp hup (scaleUp_spec h ▸ hrep)
  exact ⟨hdown, heq'.trans heq⟩

/-- A terminated replica stays terminated, and the rounds never end with it running. -/
theorem not_converges_of_terminated (h : Settled s) {i : Nat} (hrep : i < s.spec.replicas) (hi : i ≤ s.maxOrdinal)
    (hstate : (s.podOrdinals i).state = .terminated) : ¬ Converges s := by
  rintro ⟨n, hdone⟩
  induction n generalizing s with
  | zero =>
    have hrun := ((hdone.running i).mpr hrep).2
    exact absurd (hstate.symm.trans hrun) (by decide)
  | succ n ih =>
    obtain ⟨hle, heq⟩ := round_keeps h hi hrep
    exact ih h.round (round_spec h ▸ hrep) hle (heq ▸ hstate) hdone

theorem Kept.scaleUp {replicas : Int} (hkept : Kept s replicas) (h : Settled s) : Kept (scaleUp s) replicas := by
  rcases scaleUp_cases h with ⟨-, heq⟩ | ⟨k, hk⟩
  · rwa [heq]
  · intro i hi hle
    have hfirst := hk.first
    rw [hk.last] at hle
    rcases eq_or_ne i k with rfl | hne
    · rw [hk.state]
      decide
    · rw [hk.others i hne]
      exact hkept i hi (by omega)

theorem Kept.scaleDown (hkept : Kept s s.spec.replicas) (h : Settled s) : Kept (scaleDown s) s.spec.replicas := by
  rcases scaleDown_cases h with ⟨-, heq⟩ | ⟨d, hd⟩
  · rwa [heq]
  · intro i hi hle
    have hsurplus := hd.surplus
    rw [hd.others i (by omega)]
    exact hkept i hi (hd.last ▸ hle)

theorem Kept.round (hkept : Kept s s.spec.replicas) (h : Settled s) : Kept (round s) (round s).spec.replicas := by
  have hup : Kept (Scaling.scaleUp s) (Scaling.scaleUp s).spec.replicas := (scaleUp_spec h).symm ▸ hkept.scaleUp h
  exact (scaleDown_spec h.scaleUp).symm ▸ hup.scaleDown h.scaleUp

/-! ## Progress -/

/-- The rounds that are left: one for each place that is missing, at most one for each that is in use. -/
def remaining (s : StatefulSet) : Nat :=
  (s.spec.replicas - (s.maxOrdinal + 1)).toNat + (s.nextOrdinalToDelete + 1).toNat

theorem Settled.creates (h : Settled s) (hkept : Kept s s.spec.replicas) (hlt : s.maxOrdinal + 1 < s.spec.replicas) :
    s.nextOrdinalToCreate ≠ -1 := by
  have hlower := h.lower
  obtain ⟨k, hk⟩ : ∃ k : Nat, (k : Int) = s.maxOrdinal + 1 := ⟨(s.maxOrdinal + 1).toNat, by omega⟩
  have hcreatable : s.Creatable k := by
    refine ⟨fun hle => by omega, fun _ => ?_⟩
    rcases Nat.eq_zero_or_pos k with hzero | hpos
    · exact .inl hzero
    · rcases h.pods (k - 1) (by omega) with ⟨-, hready⟩ | ⟨hstate, -⟩
      · exact .inr hready
      · exact absurd hstate (hkept (k - 1) (by omega) (by omega))
  rcases s.nextOrdinalToCreate_cases with ⟨-, hnone⟩ | ⟨k', heq, -⟩
  · exact absurd hcreatable (hnone k (by omega))
  · omega

theorem nextOrdinalToDelete_of_lt (h : s.maxOrdinal < s.spec.replicas) : s.nextOrdinalToDelete = -1 := by
  rcases s.nextOrdinalToDelete_cases with ⟨heq, -⟩ | ⟨d, -, hd, hle, -⟩
  · exact heq
  · omega

theorem scaleUp_of_le (h : Settled s) (hle : s.spec.replicas ≤ s.maxOrdinal + 1) :
    s.nextOrdinalToCreate = -1 ∧ scaleUp s = s := by
  rcases scaleUp_cases h with hnone | ⟨k, hk⟩
  · exact hnone
  · have hfirst := hk.first
    have hrep := hk.replica
    omega

/-- The highest ordinal that is not terminated moves down. -/
theorem Deleted.lower {t : StatefulSet} {d : Nat} (hd : Deleted s t d) : t.nextOrdinalToDelete < d := by
  rcases t.nextOrdinalToDelete_cases with ⟨heq, -⟩ | ⟨d', heq, -, hle, hstate, -⟩
  · omega
  · rw [heq]
    rcases Nat.lt_trichotomy d' d with hlt | rfl | hgt
    · omega
    · exact absurd hd.state hstate
    · rw [hd.others d' (by omega)] at hstate
      exact absurd (hd.above d' hgt (hd.last ▸ hle)) hstate

theorem done_of_remaining (h : Settled s) (hkept : Kept s s.spec.replicas) (hzero : remaining s = 0) : Done s := by
  unfold remaining at hzero
  rcases s.nextOrdinalToDelete_cases with ⟨hdel, hterm⟩ | ⟨d, heq, -⟩
  · refine ⟨(scaleUp_of_le h (by omega)).1, hdel, fun i => ⟨fun hrun => ?_, fun hi => ?_⟩⟩
    · by_contra hge
      have hstate := hterm i (by omega) hrun.1
      exact absurd (hstate.symm.trans hrun.2) (by decide)
    · have hle : (i : Int) ≤ s.maxOrdinal := by omega
      rcases h.pods i hle with ⟨hrun, -⟩ | ⟨hstate, -⟩
      · exact ⟨hle, hrun⟩
      · exact absurd hstate (hkept i hi hle)
  · omega

theorem remaining_round_lt (h : Settled s) (hkept : Kept s s.spec.replicas) (hpos : 0 < remaining s) :
    remaining (round s) < remaining s := by
  by_cases hlt : s.maxOrdinal + 1 < s.spec.replicas
  · -- a pod is created, and none is in surplus
    rcases scaleUp_cases h with ⟨hnone, -⟩ | ⟨k, hk⟩
    · exact absurd hnone (h.creates hkept hlt)
    · have hfirst := hk.first
      have hnone : (scaleUp s).nextOrdinalToDelete = -1 := by
        refine nextOrdinalToDelete_of_lt ?_
        rw [hk.last, hk.spec]
        exact hk.replica
      have heq : round s = scaleUp s := by simp [round, scaleDown, hnone]
      unfold remaining
      rw [heq, hnone, hk.last, hk.spec, nextOrdinalToDelete_of_lt (by omega)]
      omega
  · -- nothing is missing, and the highest pod in surplus goes
    have heq : round s = scaleDown s := by rw [round, (scaleUp_of_le h (by omega)).2]
    unfold remaining at hpos ⊢
    rw [heq]
    rcases scaleDown_cases h with ⟨hnone, -⟩ | ⟨d, hd⟩
    · omega
    · have hlower := hd.lower
      rw [hd.spec, hd.last, hd.next]
      omega

/-- **Scaling ends, exactly** from the states without a terminated replica. -/
theorem converges_iff_kept (h : Settled s) : Converges s ↔ Kept s s.spec.replicas := by
  constructor
  · intro hconv i hrep hi hstate
    exact not_converges_of_terminated h hrep hi hstate hconv
  · intro hkept
    generalize hn : remaining s = n
    induction n using Nat.strong_induction_on generalizing s with
    | _ n ih =>
      rcases Nat.eq_zero_or_pos (remaining s) with hzero | hpos
      · exact ⟨0, done_of_remaining h hkept hzero⟩
      · have hless := remaining_round_lt h hkept hpos
        obtain ⟨m, hm⟩ := ih (remaining (round s)) (by omega) h.round (hkept.round h) rfl
        exact ⟨m + 1, hm⟩

/-! ## Runs -/

theorem validateSpec_replicas {spec : Spec} (h : validateSpec spec = none) :
    0 ≤ spec.replicas ∧ spec.replicas ≤ 1000 := by
  unfold validateSpec at h
  split_ifs at h with hname hreplicas
  omega

theorem Settled.step (h : Settled s) (op : Op) : Settled (step s op) := by
  cases op with
  | update spec =>
    simp only [Scaling.step, update]
    split
    · exact h
    · rename_i hvalid
      obtain ⟨hnonneg, hle⟩ := validateSpec_replicas hvalid
      exact ⟨hnonneg, hle, h.lower, h.upper, h.pods, h.tail⟩
  | scaleUp => exact h.scaleUp
  | scaleDown => exact h.scaleDown

theorem settled_create {ns name : CString} {spec : Spec} (h : create ns name spec = .ok s) :
    Settled s ∧ s.maxOrdinal = -1 := by
  unfold create at h
  split at h
  · cases h
  · rename_i hvalid
    cases h
    obtain ⟨hnonneg, hle⟩ := validateSpec_replicas hvalid
    exact ⟨⟨hnonneg, hle, Int.le_refl _, by dsimp only; omega, fun i hi => by dsimp only at hi; omega, fun _ _ => rfl⟩, rfl⟩

theorem kept_step_iff (h : Settled s) (hkept : Kept s s.spec.replicas) (op : Op) :
    Kept (step s op) (step s op).spec.replicas ↔ StepKept s op := by
  cases op with
  | update spec =>
    simp only [step, update, StepKept]
    cases hvalid : validateSpec spec with
    | some reason => exact iff_of_true hkept fun hnone => by cases hnone
    | none => exact ⟨fun hk _ => hk, fun hk => hk rfl⟩
  | scaleUp => exact iff_of_true ((scaleUp_spec h).symm ▸ hkept.scaleUp h) trivial
  | scaleDown => exact iff_of_true ((scaleDown_spec h).symm ▸ hkept.scaleDown h) trivial

/-- **Scaling converges, exactly** along the runs that never ask for a terminated ordinal. -/
theorem converges_iff {ns name : CString} {spec : Spec} (h : create ns name spec = .ok s) {ops : List Op} :
    AllStates step Converges s ops ↔ AllSteps step StepKept s ops := by
  obtain ⟨hsettled, hlast⟩ := settled_create h
  have hkept : Kept s s.spec.replicas := fun i _ hi => by omega
  refine allStates_iff_allSteps (I := Settled) (A := fun _ _ => True) (fun t op ht _ => ht.step op) ?_ hsettled
    ((converges_iff_kept hsettled).mpr hkept) allSteps_true
  intro t op ht _ hconv
  rw [converges_iff_kept (ht.step op)]
  exact kept_step_iff ht ((converges_iff_kept ht).mp hconv) op

/-! ## To zero and back -/

/-- A database with `replicas` pods. -/
def dbSpec (replicas : Int) : Spec := ⟨"db", "default", replicas, "db", .orderedReady, 30, []⟩

/-- `statefulset_create` of it. -/
def dbSet : StatefulSet := ⟨dbSpec 1, fun _ => .zero, -1, -1⟩

theorem create_dbSet : create "default" "db" (dbSpec 1) = .ok dbSet := rfl

theorem scaled_once : AllStates step Converges dbSet [.scaleUp, .update (dbSpec 0), .scaleDown] := by
  refine (converges_iff create_dbSet).mpr ⟨trivial, fun _ i hi => ?_, trivial, trivial⟩
  have hi : (i : Int) < 0 := hi
  omega

/-- **A set does not come back from zero**: the ordinal that was terminated is not created again. -/
theorem scaled_up_again :
    ¬ ∀ (ns name : CString) (spec : Spec) (s : StatefulSet), create ns name spec = .ok s →
      ∀ ops : List Op, AllStates step Converges s ops := by
  intro h
  have hrun := (h "default" "db" (dbSpec 1) dbSet create_dbSet
    [.scaleUp, .update (dbSpec 0), .scaleDown, .update (dbSpec 1)]).run_mem
  have hsettled := (settled_create create_dbSet).1
  have hlast := (((hsettled.step .scaleUp).step (.update (dbSpec 0))).step .scaleDown).step (.update (dbSpec 1))
  exact not_converges_of_terminated hlast (i := 0) (by decide) (by decide) (by decide) hrun

end Sirah.Stateful.Scaling
