import Mathlib.Data.Int.Order.Basic
import Sirah.Lib.Fallible
import Sirah.Lib.FirstMax
import Sirah.Scheduler.Scheduler

/-!
# The node a pod is put on

`scheduler_find_best_node` and `scheduler_score_nodes` (`internal/scheduler/scheduler.c`) test every node
and take the best score of those that pass. Both test the status, the resources and the taints; neither
calls `scheduler_check_affinity_match`, so a label that a pod requires excludes no node.

* `bestOf_spec`: the loop of `scheduler_find_best_node` finds the first maximum among the nodes that pass
  its tests.
* `RightChoice`: the first maximum among those that carry the required labels as well, or NULL when there
  is none; it is also the first feasible entry of maximal score.
* **`right_choice_iff`**: this is the choice exactly when every node that passes the tests without the
  labels is beaten by a node that has them.
* `label_ignored`: the only node lacks the label that the pod requires, and is chosen.
-/

namespace Sirah.Sched

/-- `pod_spec_t` with the field that only `scheduler_check_affinity_match` reads. -/
structure LabelledPodSpec extends PodSpec where
  requiredNodeLabels : List CString
  deriving DecidableEq, Repr

/-- `scheduler_check_affinity_match`: without a required label no node is looked up. -/
def checkAffinityMatch (s : Scheduler) (name : CString) (pod : LabelledPodSpec) : Bool :=
  pod.requiredNodeLabels.all fun label =>
    match getNode s name with
    | none => false
    | some n => n.labelKeys.any (· == label)

/-- `node_score_t`. -/
structure NodeScore where
  nodeName : CString
  score : Int
  feasible : Bool
  infeasibilityReason : Option CString
  deriving DecidableEq, Repr

/-- The first test of `scheduler_score_nodes` that the node fails. -/
def infeasibility (s : Scheduler) (pod : PodSpec) (n : NodeState) : Option CString :=
  if (n.status == "Ready") = false then some "Node not ready"
  else if checkResourceFit s n.nodeName pod.request = false then some "Insufficient resources"
  else if checkTolerationMatch s n.nodeName pod = false then some "Taint not tolerated"
  else none

/-- The entry `scheduler_score_nodes` makes for a node. -/
def scoreNode (divZero : Int → Option Int) (s : Scheduler) (pod : PodSpec) (n : NodeState) :
    Option NodeScore :=
  match infeasibility s pod n with
  | some reason => some ⟨n.nodeName, 0, false, some reason⟩
  | none => (scoringCombined divZero s.config n pod).map fun score => ⟨n.nodeName, score, true, none⟩

/-- `scheduler_score_nodes`. -/
def scoreNodes (divZero : Int → Option Int) (s : Scheduler) (pod : PodSpec) : Option (List NodeScore) :=
  s.nodes.mapM (scoreNode divZero s pod)

/-- The node passes all four tests: status, resources, taints and required labels. -/
def eligible (s : Scheduler) (pod : LabelledPodSpec) (n : NodeState) : Bool :=
  feasible s pod.toPodSpec n && checkAffinityMatch s n.nodeName pod

/-- The score of a node, where it is defined. -/
def scoreOf (divZero : Int → Option Int) (s : Scheduler) (pod : PodSpec) (n : NodeState) : Int :=
  (scoringCombined divZero s.config n pod).getD 0

/-- The scores that are computed are defined and not negative. -/
def Scored (divZero : Int → Option Int) (s : Scheduler) (pod : PodSpec) : Prop :=
  ∀ n ∈ s.nodes, feasible s pod n = true →
    ∃ score, scoringCombined divZero s.config n pod = some score ∧ 0 ≤ score

/-- **The right choice**: NULL exactly when no node is eligible, else the first eligible node of maximal
score, which is the first feasible entry of maximal score. -/
structure RightChoice (divZero : Int → Option Int) (s : Scheduler) (pod : LabelledPodSpec) : Prop where
  null_iff : findBestNode divZero s pod.toPodSpec = some none ↔ ∀ n ∈ s.nodes, eligible s pod n = false
  first_max : ∀ name, findBestNode divZero s pod.toPodSpec = some (some name) →
    ∃ n, n.nodeName = name ∧ FirstMax (eligible s pod) (scoreOf divZero s pod.toPodSpec) s.nodes n
  first_entry : ∀ name, findBestNode divZero s pod.toPodSpec = some (some name) →
    ∃ entries entry, scoreNodes divZero s pod.toPodSpec = some entries ∧ entry.nodeName = name ∧
      FirstMax NodeScore.feasible NodeScore.score entries entry

/-- Every node that passes the three tests without the required labels is beaten by an eligible node: one
before it with at least its score, or one after it with a greater score. -/
def Outscored (divZero : Int → Option Int) (s : Scheduler) (pod : LabelledPodSpec) : Prop :=
  ∀ pre n post, s.nodes = pre ++ n :: post → feasible s pod.toPodSpec n = true →
    checkAffinityMatch s n.nodeName pod = false →
    (∃ m ∈ pre, eligible s pod m = true ∧
      scoreOf divZero s pod.toPodSpec n ≤ scoreOf divZero s pod.toPodSpec m) ∨
    ∃ m ∈ post, eligible s pod m = true ∧
      scoreOf divZero s pod.toPodSpec n < scoreOf divZero s pod.toPodSpec m

/-! ## The loop -/

section Loop

variable {divZero : Int → Option Int} {s : Scheduler} {pod : PodSpec} {n : NodeState}

/-- A node that does not pass is skipped. -/
theorem bestOf_skip {best : Int × Option CString} {ns : List NodeState} (hn : feasible s pod n = false) :
    bestOf divZero s pod best (n :: ns) = bestOf divZero s pod best ns := by
  rw [bestOf, if_neg (by rw [hn]; exact Bool.false_ne_true)]

/-- A node that passes replaces the best one by a greater score. -/
theorem bestOf_take {best : Int × Option CString} {ns : List NodeState} {score : Int}
    (hn : feasible s pod n = true) (hscore : scoringCombined divZero s.config n pod = some score) :
    bestOf divZero s pod best (n :: ns) =
      bestOf divZero s pod (if score > best.1 then (score, some n.nodeName) else best) ns := by
  rw [bestOf, if_pos hn, hscore]

/-- **The loop** keeps the best so far if no node exceeds it, and else ends at the first maximum. -/
theorem bestOf_spec {ns : List NodeState} (best : Int × Option CString)
    (hscored : ∀ n ∈ ns, feasible s pod n = true →
      scoringCombined divZero s.config n pod = some (scoreOf divZero s pod n)) :
    (bestOf divZero s pod best ns = some best ∧
      ∀ n ∈ ns, feasible s pod n = true → scoreOf divZero s pod n ≤ best.1) ∨
    ∃ m, FirstMax (feasible s pod) (scoreOf divZero s pod) ns m ∧ best.1 < scoreOf divZero s pod m ∧
      bestOf divZero s pod best ns = some (scoreOf divZero s pod m, some m.nodeName) := by
  induction ns generalizing best with
  | nil => exact .inl ⟨rfl, List.forall_mem_nil _⟩
  | cons n ns ih =>
    obtain ⟨hscore, hrest⟩ := List.forall_mem_cons.mp hscored
    cases hn : feasible s pod n with
    | false =>
      have hvacuous {P : Prop} (h : feasible s pod n = true) : P := absurd (hn.symm.trans h) (by decide)
      rw [bestOf_skip hn]
      rcases ih best hrest with ⟨hkeep, hle⟩ | ⟨m, hm, hlt, hres⟩
      · exact .inl ⟨hkeep, List.forall_mem_cons.mpr ⟨hvacuous, hle⟩⟩
      · exact .inr ⟨m, hm.cons hvacuous, hlt, hres⟩
    | true =>
      rw [bestOf_take hn (hscore hn)]
      by_cases hgreater : scoreOf divZero s pod n > best.1
      · rw [if_pos hgreater]
        rcases ih (scoreOf divZero s pod n, some n.nodeName) hrest with ⟨hkeep, hle⟩ | ⟨m, hm, hlt, hres⟩
        · exact .inr ⟨n, .head hn hle, hgreater, hkeep⟩
        · exact .inr ⟨m, hm.cons fun _ => hlt, hgreater.trans hlt, hres⟩
      · rw [if_neg hgreater]
        rcases ih best hrest with ⟨hkeep, hle⟩ | ⟨m, hm, hlt, hres⟩
        · exact .inl ⟨hkeep, List.forall_mem_cons.mpr ⟨fun _ => Int.not_lt.mp hgreater, hle⟩⟩
        · exact .inr ⟨m, hm.cons fun _ => Int.lt_of_le_of_lt (Int.not_lt.mp hgreater) hlt, hlt, hres⟩

theorem Scored.eq_scoreOf (h : Scored divZero s pod) (hn : n ∈ s.nodes) (hfeas : feasible s pod n = true) :
    scoringCombined divZero s.config n pod = some (scoreOf divZero s pod n) ∧ 0 ≤ scoreOf divZero s pod n := by
  obtain ⟨score, hscore, hnonneg⟩ := h n hn hfeas
  unfold scoreOf
  rw [hscore]
  exact ⟨rfl, hnonneg⟩

/-- `scheduler_find_best_node` returns NULL when no node passes, and else the first maximum. -/
theorem findBestNode_spec (h : Scored divZero s pod) :
    (findBestNode divZero s pod = some none ∧ ∀ n ∈ s.nodes, feasible s pod n = false) ∨
    ∃ m, FirstMax (feasible s pod) (scoreOf divZero s pod) s.nodes m ∧
      findBestNode divZero s pod = some (some m.nodeName) := by
  unfold findBestNode
  rcases bestOf_spec (-1, none) fun n hn hfeas => (h.eq_scoreOf hn hfeas).1 with ⟨hkeep, hle⟩ | ⟨m, hm, -, hres⟩
  · refine .inl ⟨by rw [hkeep]; rfl, fun n hn => ?_⟩
    by_contra hfeas
    rw [Bool.not_eq_false] at hfeas
    have hlow : scoreOf divZero s pod n ≤ -1 := hle n hn hfeas
    have hnonneg := (h.eq_scoreOf hn hfeas).2
    omega
  · exact .inr ⟨m, hm, by rw [hres]; rfl⟩

end Loop

/-! ## The entries -/

section Entries

variable {divZero : Int → Option Int} {s : Scheduler} {pod : PodSpec}

/-- Both functions make the same tests. -/
theorem infeasibility_isNone (s : Scheduler) (pod : PodSpec) (n : NodeState) :
    (infeasibility s pod n).isNone = feasible s pod n := by
  unfold infeasibility feasible
  cases n.status == "Ready" with
  | false => rfl
  | true =>
    cases checkResourceFit s n.nodeName pod.request with
    | false => rfl
    | true => cases checkTolerationMatch s n.nodeName pod <;> rfl

/-- What is known of an entry: its name and feasibility, and its score if the node passes the tests. -/
structure EntryFor (divZero : Int → Option Int) (s : Scheduler) (pod : PodSpec) (n : NodeState)
    (entry : NodeScore) : Prop where
  name : entry.nodeName = n.nodeName
  feasible : entry.feasible = feasible s pod n
  score : Sched.feasible s pod n = true → entry.score = scoreOf divZero s pod n

theorem scoreNode_spec (h : Scored divZero s pod) {n : NodeState} (hn : n ∈ s.nodes) :
    ∃ entry, scoreNode divZero s pod n = some entry ∧ EntryFor divZero s pod n entry := by
  have hsame := infeasibility_isNone s pod n
  unfold scoreNode
  cases hreason : infeasibility s pod n with
  | some reason =>
    rw [hreason] at hsame
    exact ⟨_, rfl, rfl, hsame, fun hfeas => absurd (hsame.trans hfeas) Bool.false_ne_true⟩
  | none =>
    rw [hreason] at hsame
    obtain ⟨hscore, -⟩ := h.eq_scoreOf hn hsame.symm
    rw [hscore]
    exact ⟨_, rfl, rfl, hsame, fun _ => rfl⟩

/-- `scheduler_score_nodes` makes one entry for each node, in their order. -/
theorem scoreNodes_spec (h : Scored divZero s pod) :
    ∃ entryOf : NodeState → NodeScore, scoreNodes divZero s pod = some (s.nodes.map entryOf) ∧
      ∀ n ∈ s.nodes, EntryFor divZero s pod n (entryOf n) := by
  let entryOf (n : NodeState) : NodeScore := (scoreNode divZero s pod n).getD ⟨n.nodeName, 0, false, none⟩
  have hstep (n : NodeState) (entry : NodeScore) :
      scoreNode divZero s pod n = some entry ↔ (scoreNode divZero s pod n).isSome ∧ entry = entryOf n := by
    show _ ↔ _ ∧ entry = (scoreNode divZero s pod n).getD _
    cases scoreNode divZero s pod n with
    | none => simp
    | some _ => simp [eq_comm]
  refine ⟨entryOf, (List.mapM_eq_some_iff_of_step hstep).mpr ⟨fun n hn => ?_, rfl⟩, fun n hn => ?_⟩
  · obtain ⟨entry, hentry, -⟩ := scoreNode_spec h hn
    rw [hentry]
    rfl
  · obtain ⟨entry, hentry, hfor⟩ := scoreNode_spec h hn
    rw [← ((hstep n entry).mp hentry).2]
    exact hfor

/-- The first maximum among the nodes that pass is the first maximum among the feasible entries. -/
theorem firstMax_entry (h : Scored divZero s pod) {m : NodeState}
    (hm : FirstMax (feasible s pod) (scoreOf divZero s pod) s.nodes m) :
    ∃ entries entry, scoreNodes divZero s pod = some entries ∧ entry.nodeName = m.nodeName ∧
      FirstMax NodeScore.feasible NodeScore.score entries entry := by
  obtain ⟨entryOf, hentries, hfor⟩ := scoreNodes_spec h
  exact ⟨_, entryOf m, hentries, (hfor m hm.mem).name,
    hm.map (fun n hn => (hfor n hn).feasible) fun n hn => (hfor n hn).score⟩

end Entries

/-! ## The choice -/

section Choice

variable {divZero : Int → Option Int} {s : Scheduler} {pod : LabelledPodSpec}

theorem eligible_feasible {n : NodeState} (h : eligible s pod n = true) :
    feasible s pod.toPodSpec n = true := (Bool.and_eq_true_iff.mp h).1

/-- **The choice is right exactly when every node that passes the other tests without the required labels
is beaten by an eligible one**, for distinct node names and scores that are defined and not negative. -/
theorem right_choice_iff (hnames : (s.nodes.map NodeState.nodeName).Nodup)
    (hscored : Scored divZero s pod.toPodSpec) :
    RightChoice divZero s pod ↔ Outscored divZero s pod := by
  rcases findBestNode_spec hscored with ⟨hnull, hnone⟩ | ⟨m, hm, hres⟩
  · refine iff_of_true ⟨iff_of_true hnull ?_, ?_, ?_⟩ ?_
    · intro n hn
      unfold eligible
      rw [hnone n hn]
      rfl
    · intro name hname
      rw [hnull] at hname
      cases hname
    · intro name hname
      rw [hnull] at hname
      cases hname
    · intro pre n post hl hfeas
      have hn : n ∈ s.nodes := hl ▸ List.mem_append_right pre List.mem_cons_self
      rw [hnone n hn] at hfeas
      cases hfeas
  · have haffinity := hm.holds_iff (q := fun n => checkAffinityMatch s n.nodeName pod)
    constructor
    · intro hright
      obtain ⟨n, hname, hn⟩ := hright.first_max _ hres
      obtain rfl : n = m := List.inj_on_of_nodup_map hnames hn.mem hm.mem hname
      exact haffinity.mp (Bool.and_eq_true_iff.mp hn.holds).2
    · intro hout
      have heligible : eligible s pod m = true :=
        Bool.and_eq_true_iff.mpr ⟨hm.holds, haffinity.mpr hout⟩
      refine ⟨iff_of_false ?_ ?_, ?_, ?_⟩
      · rw [hres]
        exact fun h => Option.some_ne_none _ (Option.some.inj h)
      · intro hnone
        rw [hnone m hm.mem] at heligible
        cases heligible
      · intro name hname
        rw [hres] at hname
        cases hname
        exact ⟨m, rfl, hm.restrict heligible fun _ => eligible_feasible⟩
      · intro name hname
        rw [hres] at hname
        cases hname
        exact firstMax_entry hscored hm

/-- A node of 1000 millicores with the given labels. -/
def labelledNode (name : CString) (podCount : Int) (labelKeys : List CString) : NodeState :=
  ⟨name, "Ready", 1000, 2000, 0, 0, podCount, 110, [], labelKeys⟩

/-- A scheduler of these nodes, with weights that sum to 100. -/
def labelledNodes (nodes : List NodeState) : Scheduler := ⟨nodes, [], ⟨true, true, true, true, 40, 30, 30⟩⟩

/-- A pod that requires the label `gpu`. -/
def gpuPod : LabelledPodSpec := ⟨⟨"p", ⟨200, 500⟩, [], [], [], []⟩, ["gpu"]⟩

/-- The node without the label carries more pods and is outscored. -/
theorem gpu_node_chosen :
    RightChoice (fun _ => none) (labelledNodes [labelledNode "a" 50 [], labelledNode "b" 0 ["gpu"]]) gpuPod := by
  refine (right_choice_iff (by decide) ?_).mpr ?_
  · refine List.forall_mem_cons.mpr ⟨fun _ => ⟨39, by decide, by decide⟩, ?_⟩
    exact List.forall_mem_singleton.mpr fun _ => ⟨53, by decide, by decide⟩
  · intro pre n post hl _ haffinity
    rcases pre with - | ⟨x, - | ⟨y, pre⟩⟩
    · cases hl
      exact .inr ⟨_, List.mem_singleton_self _, by decide, by decide⟩
    · cases hl
      exact absurd haffinity (by decide)
    · cases pre <;> cases hl

/-- **The only node lacks the required label, and is chosen.** -/
theorem label_ignored :
    ¬ ∀ (divZero : Int → Option Int) (s : Scheduler) (pod : LabelledPodSpec),
      (s.nodes.map NodeState.nodeName).Nodup → Scored divZero s pod.toPodSpec → RightChoice divZero s pod := by
  intro h
  have hright := h (fun _ => none) (labelledNodes [labelledNode "a" 0 []]) gpuPod (by decide)
    (List.forall_mem_singleton.mpr fun _ => ⟨53, by decide, by decide⟩)
  have hnull := hright.null_iff.mpr (List.forall_mem_singleton.mpr (by decide))
  exact absurd hnull (by decide)

end Choice

end Sirah.Sched
