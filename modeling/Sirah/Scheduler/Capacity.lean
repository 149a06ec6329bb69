import Sirah.Lib.KeyedSum
import Sirah.Scheduler.Scheduler

/-!
# What the scheduler puts on a node

A node is overcommitted when the pods assigned to its name ask for more CPU or memory than it has, or are
more than `max_pods`. The fit test of `internal/scheduler/scheduler.c` reads `allocated_cpus` and
`allocated_memory`, which no call ever moves, and `pod_count`, which follows the assignments.

* `Balanced`: the invariant. The counter of the first node of a name is the number of pods assigned to it.
* `RoomFor`: the calls that respect the true sums.
* **`never_overcommits`**: no node is overcommitted along a run whose calls all respect them, whatever
  the machine makes of the division by zero.
* `overcommits`: two pods of 600 millicores on a node of 1000.
-/

namespace Sirah.Sched

/-! ## Loads -/

/-- The part of a node's state that the balance is about. -/
structure Account where
  name : CString
  podCount : Int
  maxPods : Int
  cpus : Int
  memory : Int

def NodeState.account (n : NodeState) : Account :=
  ⟨n.nodeName, n.podCount, n.maxPods, n.allocatableCpus, n.allocatableMemory⟩

def Scheduler.accounts (s : Scheduler) : List Account := s.nodes.map NodeState.account

/-- The sum of `w` over the pods assigned to a name. -/
def load (w : Assignment → Int) (l : List Assignment) (name : CString) : Int :=
  ((l.filter fun a => a.node == name).map w).sum

/-- The CPU requests of the pods assigned to a name. -/
def cpuAssigned (l : List Assignment) (name : CString) : Int :=
  load (fun a => a.request.cpuMillicores) l name

/-- The memory requests of the pods assigned to a name. -/
def memoryAssigned (l : List Assignment) (name : CString) : Int :=
  load (fun a => a.request.memoryBytes) l name

/-- The number of pods assigned to a name. -/
def podsAssigned (l : List Assignment) (name : CString) : Int := load (fun _ => 1) l name

/-- The counter of the first node of a name. -/
def counter (accounts : List Account) (name : CString) : Int :=
  ((accounts.find? fun x => x.name == name).map Account.podCount).getD 0

/-- The node carries no more than it has. -/
structure NodeState.Within (n : NodeState) (s : Scheduler) : Prop where
  cpu : cpuAssigned s.assignments n.nodeName ≤ n.allocatableCpus
  memory : memoryAssigned s.assignments n.nodeName ≤ n.allocatableMemory
  pods : podsAssigned s.assignments n.nodeName ≤ n.maxPods

/-- **No node is overcommitted**, if there is a state. -/
def NoOvercommit (s : Option Scheduler) : Prop := ∀ t, s = some t → ∀ n ∈ t.nodes, n.Within t

/-- The call respects the sums: a new node can carry what its name carries already, and each node that
passes the tests of the scheduler can carry the pod on top of what is assigned to it. -/
def RoomFor (s : Option Scheduler) (op : Op) : Prop :=
  ∀ t, s = some t →
    match op with
    | .addNode name cpu memory =>
      cpuAssigned t.assignments name ≤ cpu ∧ memoryAssigned t.assignments name ≤ memory
    | .schedulePod pod =>
      0 ≤ pod.request.cpuMillicores ∧ 0 ≤ pod.request.memoryBytes ∧
        ∀ candidate ∈ t.nodes, feasible t pod candidate = true →
          ∀ n ∈ t.nodes, n.nodeName = candidate.nodeName →
            cpuAssigned t.assignments n.nodeName + pod.request.cpuMillicores ≤ n.allocatableCpus ∧
              memoryAssigned t.assignments n.nodeName + pod.request.memoryBytes ≤ n.allocatableMemory
    | _ => True

/-- The invariant over the accounts and the assignments. -/
structure Balanced (accounts : List Account) (l : List Assignment) : Prop where
  counts : ∀ name, counter accounts name = podsAssigned l name
  maxPods : ∀ x ∈ accounts, x.maxPods = 110
  full : ∀ name, podsAssigned l name ≤ 110
  nonneg : ∀ a ∈ l, 0 ≤ a.request.cpuMillicores ∧ 0 ≤ a.request.memoryBytes
  fits : ∀ x ∈ accounts, cpuAssigned l x.name ≤ x.cpus ∧ memoryAssigned l x.name ≤ x.memory

/-! ## Loads after an assignment and an eviction -/

variable {w : Assignment → Int} {l before after : List Assignment} {a : Assignment} {name : CString}

theorem load_eq_sumAt : load w l name = l.sumAt Assignment.node w name := by
  simp only [load, List.sumAt, beq_eq_decide]

theorem load_append : load w (l ++ [a]) name = load w l name + if a.node = name then w a else 0 := by
  rw [load_eq_sumAt, List.sumAt_append_singleton, ← load_eq_sumAt]

theorem load_remove : load w (before ++ a :: after) name =
    load w (before ++ after) name + if a.node = name then w a else 0 := by
  rw [load_eq_sumAt, List.sumAt_remove, ← load_eq_sumAt]

theorem load_nonneg (h : ∀ a ∈ l, 0 ≤ w a) : 0 ≤ load w l name := by
  rw [load_eq_sumAt]
  exact List.sumAt_nonneg h

/-! ## Counters -/

section Counters

variable {accounts pre post : List Account} {x : Account} {d : Int}

theorem counter_append (hx : x.podCount = 0) (name : CString) :
    counter (accounts ++ [x]) name = counter accounts name := by
  unfold counter
  rw [List.find?_append]
  cases accounts.find? fun y => y.name == name with
  | some y => rfl
  | none => by_cases h : x.name = name <;> simp [h, hx]

/-- The counter that a bump moves is that of its name. -/
theorem counter_bump (hpre : ∀ y ∈ pre, (y.name == x.name) = false) (name : CString) :
    counter (pre ++ { x with podCount := x.podCount + d } :: post) name =
      counter (pre ++ x :: post) name + if x.name = name then d else 0 := by
  unfold counter
  rw [List.find?_append, List.find?_append]
  by_cases h : x.name = name
  · have hnone : (pre.find? fun y => y.name == name) = none := by
      rw [List.find?_eq_none]
      intro y hy
      rw [← h, hpre y hy]
      exact Bool.false_ne_true
    simp [hnone, h]
  · simp [h]

theorem forall_bump {P : Account → Prop} (hP : P x → P { x with podCount := x.podCount + d })
    (h : ∀ y ∈ pre ++ x :: post, P y) : ∀ y ∈ pre ++ { x with podCount := x.podCount + d } :: post, P y := by
  intro y hy
  rcases List.mem_append_cons_iff.mp hy with rfl | hy
  · exact hP (h x (List.mem_append_cons_iff.mpr (.inl rfl)))
  · exact h y (List.mem_append_cons_iff.mpr (.inr hy))

end Counters

/-! ## Edits of a node -/

section Edits

variable {s : Scheduler} {p : NodeState → Bool} {edit : NodeState → NodeState} {name : CString}

/-- What an edit does to the nodes. -/
theorem editFirst_cases (s : Scheduler) (p : NodeState → Bool) (edit : NodeState → NodeState) :
    (s.editFirst p edit = s ∧ ∀ n ∈ s.nodes, p n = false) ∨
    ∃ pre n post, s.nodes = pre ++ n :: post ∧ p n = true ∧ (∀ m ∈ pre, p m = false) ∧
      s.editFirst p edit = { s with nodes := pre ++ edit n :: post } := by
  unfold Scheduler.editFirst
  cases h : s.nodes.splitFirst p with
  | none => exact .inl ⟨rfl, List.splitFirst_eq_none.mp h⟩
  | some r =>
    obtain ⟨pre, n, post⟩ := r
    obtain ⟨heq, hn, hpre⟩ := List.splitFirst_eq_some h
    exact .inr ⟨pre, n, post, heq, hn, hpre, rfl⟩

theorem editFirst_assignments : (s.editFirst p edit).assignments = s.assignments := by
  rcases editFirst_cases s p edit with ⟨h, -⟩ | ⟨pre, n, post, -, -, -, h⟩ <;> rw [h]

/-- An edit that keeps the account of the node keeps all accounts. -/
theorem editFirst_accounts (hedit : ∀ n, (edit n).account = n.account) :
    (s.editFirst p edit).accounts = s.accounts := by
  rcases editFirst_cases s p edit with ⟨h, -⟩ | ⟨pre, n, post, heq, -, -, h⟩
  · rw [h]
  · unfold Scheduler.accounts
    rw [h, heq, List.map_append, List.map_append, List.map_cons, List.map_cons, hedit]

end Edits

/-! ## The invariant at each kind of step -/

section Steps

variable {accounts pre post : List Account} {x : Account}

theorem balanced_addNode {cpu memory : Int} (h : Balanced accounts l)
    (hroom : cpuAssigned l name ≤ cpu ∧ memoryAssigned l name ≤ memory) :
    Balanced (accounts ++ [⟨name, 0, 110, cpu, memory⟩]) l where
  counts k := (counter_append rfl k).trans (h.counts k)
  maxPods y hy := by
    rcases List.mem_append.mp hy with hy | hy
    · exact h.maxPods y hy
    · rw [List.mem_singleton.mp hy]
  full := h.full
  nonneg := h.nonneg
  fits y hy := by
    rcases List.mem_append.mp hy with hy | hy
    · exact h.fits y hy
    · rw [List.mem_singleton.mp hy]
      exact hroom

/-- The counter of the first node is the one that counts. -/
theorem counter_first (post : List Account) (hpre : ∀ y ∈ pre, (y.name == x.name) = false) :
    counter (pre ++ x :: post) x.name = x.podCount := by
  have hfirst : (pre ++ x :: post).find? (fun y => y.name == x.name) = some x :=
    List.find?_eq_some_iff_append.mpr
      ⟨beq_self_eq_true _, pre, post, rfl, fun y hy => by rw [hpre y hy]; rfl⟩
  unfold counter
  rw [hfirst]
  rfl

theorem balanced_bind (h : Balanced (pre ++ x :: post) l)
    (hpre : ∀ y ∈ pre, (y.name == x.name) = false) (hfree : x.podCount < x.maxPods)
    (ha : a.node = x.name)
    (hnonneg : 0 ≤ a.request.cpuMillicores ∧ 0 ≤ a.request.memoryBytes)
    (hroom : ∀ y ∈ pre ++ x :: post, y.name = x.name →
      cpuAssigned l y.name + a.request.cpuMillicores ≤ y.cpus ∧
        memoryAssigned l y.name + a.request.memoryBytes ≤ y.memory) :
    Balanced (pre ++ { x with podCount := x.podCount + 1 } :: post) (l ++ [a]) where
  counts k := by
    unfold podsAssigned
    rw [counter_bump hpre, load_append, h.counts, ha]
    rfl
  maxPods := forall_bump id h.maxPods
  full k := by
    have hx := h.maxPods x (List.mem_append_cons_iff.mpr (.inl rfl))
    have hcount := (counter_first post hpre).symm.trans (h.counts x.name)
    have hk := h.full k
    unfold podsAssigned at hcount hk ⊢
    rw [load_append, ha]
    split
    · next hname =>
      rw [← hname]
      omega
    · omega
  nonneg b hb := by
    rcases List.mem_append.mp hb with hb | hb
    · exact h.nonneg b hb
    · rw [List.mem_singleton.mp hb]
      exact hnonneg
  fits := by
    refine forall_bump id fun y hy => ?_
    have hy' := h.fits y hy
    have hroom' := hroom y hy
    unfold cpuAssigned memoryAssigned at *
    rw [load_append, load_append, ha]
    split
    · next hname => exact hroom' hname.symm
    · omega

theorem balanced_evict (h : Balanced (pre ++ x :: post) (before ++ a :: after))
    (hpre : ∀ y ∈ pre, (y.name == x.name) = false) (ha : a.node = x.name) :
    Balanced (pre ++ { x with podCount := x.podCount + -1 } :: post) (before ++ after) where
  counts k := by
    have hk := h.counts k
    unfold podsAssigned at hk ⊢
    rw [counter_bump hpre, hk, load_remove, ha]
    split <;> omega
  maxPods := forall_bump id h.maxPods
  full k := by
    have hk := h.full k
    unfold podsAssigned at hk ⊢
    rw [load_remove] at hk
    split at hk <;> omega
  nonneg b hb := h.nonneg b (List.mem_append_cons_iff.mpr (.inr hb))
  fits := by
    have hnonneg := h.nonneg a (List.mem_append_cons_iff.mpr (.inl rfl))
    refine forall_bump id fun y hy => ?_
    have hy' := h.fits y hy
    unfold cpuAssigned memoryAssigned at *
    rw [load_remove, load_remove] at hy'
    split at hy' <;> omega

/-- Every pod is assigned to the name of a node. -/
theorem exists_account (h : Balanced accounts (before ++ a :: after)) :
    ∃ y ∈ accounts, y.name = a.node := by
  by_contra hno
  have hnone : (accounts.find? fun y => y.name == a.node) = none := by
    rw [List.find?_eq_none]
    intro y hy heq
    exact hno ⟨y, hy, beq_iff_eq.mp heq⟩
  have hcount := h.counts a.node
  have hrest : 0 ≤ load (fun _ => 1) (before ++ after) a.node := load_nonneg fun _ _ => Int.one_nonneg
  unfold counter podsAssigned at hcount
  rw [hnone, load_remove, if_pos rfl] at hcount
  simp only [Option.map_none, Option.getD_none] at hcount
  omega

end Steps

/-! ## The calls -/

section Calls

variable {divZero : Int → Option Int} {s : Scheduler} {pod : PodSpec}

/-- The loop returns the name of a node that passes the tests. -/
theorem bestOf_feasible {best : Int × Option CString} {ns : List NodeState} {score : Int}
    (h : bestOf divZero s pod best ns = some (score, some name)) :
    best.2 = some name ∨ ∃ n ∈ ns, n.nodeName = name ∧ feasible s pod n = true := by
  induction ns generalizing best with
  | nil =>
    cases h
    exact .inl rfl
  | cons n ns ih =>
    unfold bestOf at h
    split at h
    · next hn =>
      split at h
      · cases h
      · rcases ih h with hbest | ⟨m, hm, hname, hfeas⟩
        · split at hbest
          · exact .inr ⟨n, List.mem_cons_self, Option.some.inj hbest, hn⟩
          · exact .inl hbest
        · exact .inr ⟨m, List.mem_cons_of_mem n hm, hname, hfeas⟩
    · rcases ih h with hbest | ⟨m, hm, hname, hfeas⟩
      · exact .inl hbest
      · exact .inr ⟨m, List.mem_cons_of_mem n hm, hname, hfeas⟩

theorem findBestNode_feasible (h : findBestNode divZero s pod = some (some name)) :
    ∃ n ∈ s.nodes, n.nodeName = name ∧ feasible s pod n = true := by
  unfold findBestNode at h
  obtain ⟨⟨score, best⟩, hbest, heq⟩ := Option.map_eq_some_iff.mp h
  cases heq
  rcases bestOf_feasible hbest with hnone | hn
  · cases hnone
  · exact hn

/-- A name that passes the fit test has room for a pod on its first node. -/
theorem checkResourceFit_free {request : PodRequest} (h : checkResourceFit s name request = true) :
    ∃ n, getNode s name = some n ∧ n.podCount < n.maxPods := by
  unfold checkResourceFit at h
  cases hn : getNode s name with
  | none => simp [hn] at h
  | some n =>
    rw [hn] at h
    simp only [Bool.and_eq_true, Bool.not_eq_true', decide_eq_false_iff_not, ge_iff_le, not_le] at h
    exact ⟨n, rfl, h.2⟩

/-- A bump moves the account of the first node of the name. -/
theorem bumpPodCount_cases (d : Int) (hname : ∃ n ∈ s.nodes, n.nodeName = name) :
    ∃ pre n post, s.nodes = pre ++ n :: post ∧ getNode s name = some n ∧ n.nodeName = name ∧
      (∀ y ∈ pre.map NodeState.account, (y.name == n.account.name) = false) ∧
      (bumpPodCount s name d).accounts = pre.map NodeState.account ++
        { n.account with podCount := n.account.podCount + d } :: post.map NodeState.account := by
  obtain ⟨k, hk, hkname⟩ := hname
  unfold bumpPodCount
  rcases editFirst_cases s (fun n => n.nodeName == name) fun n => { n with podCount := n.podCount + d } with
    ⟨-, hno⟩ | ⟨pre, n, post, heq, hn, hpre, hedit⟩
  · exact absurd hkname (by simpa using hno k hk)
  · have hname := beq_iff_eq.mp hn
    refine ⟨pre, n, post, heq, ?_, hname, ?_, ?_⟩
    · exact List.find?_eq_some_iff_append.mpr
        ⟨hn, pre, post, heq, fun m hm => by rw [hpre m hm]; rfl⟩
    · intro y hy
      obtain ⟨m, hm, rfl⟩ := List.mem_map.mp hy
      have hm' := hpre m hm
      rw [← hname] at hm'
      exact hm'
    · rw [hedit, Scheduler.accounts, List.map_append, List.map_cons]
      rfl

theorem bumpPodCount_assignments (d : Int) : (bumpPodCount s name d).assignments = s.assignments :=
  editFirst_assignments

theorem balanced_bindPod (h : Balanced s.accounts s.assignments) {n : NodeState} (hn : n ∈ s.nodes)
    (hfeas : feasible s pod n = true) (hroom : RoomFor (some s) (.schedulePod pod)) :
    Balanced (bindPod s pod.podName n.nodeName pod.request).accounts
      (bindPod s pod.podName n.nodeName pod.request).assignments := by
  unfold bindPod
  split
  · exact h
  · next podName _ =>
    split
    · exact h
    split
    · exact h
    · obtain ⟨hcpu, hmem, hfits⟩ := hroom s rfl
      have hfit : checkResourceFit s n.nodeName pod.request = true := by
        unfold feasible at hfeas
        simp only [Bool.and_eq_true] at hfeas
        exact hfeas.1.2
      obtain ⟨m, hm, hfree⟩ := checkResourceFit_free hfit
      obtain ⟨pre, k, post, heq, hget, hname, hpre, hacc⟩ :=
        bumpPodCount_cases (s := { s with assignments := s.assignments ++ [⟨podName, n.nodeName, pod.request⟩] })
          1 ⟨n, hn, rfl⟩
      have hkm : k = m := Option.some.inj (hget.symm.trans hm)
      have haccounts : s.accounts = pre.map NodeState.account ++ k.account :: post.map NodeState.account := by
        rw [Scheduler.accounts, show s.nodes = pre ++ k :: post from heq, List.map_append, List.map_cons]
      rw [hacc, bumpPodCount_assignments]
      rw [haccounts] at h
      refine balanced_bind h hpre (hkm ▸ hfree) hname.symm ⟨hcpu, hmem⟩ ?_
      intro y hy hyname
      rw [← haccounts] at hy
      obtain ⟨k', hk', rfl⟩ := List.mem_map.mp hy
      exact hfits n hn hfeas k' hk' (hyname.trans hname)

theorem balanced_evictPod (h : Balanced s.accounts s.assignments) (podName : CString) :
    Balanced (evictPod s podName).accounts (evictPod s podName).assignments := by
  unfold evictPod
  split
  · exact h
  · next before a after hsplit =>
    obtain ⟨hassign, -, -⟩ := List.splitFirst_eq_some hsplit
    rw [hassign] at h
    obtain ⟨y, hy, hyname⟩ := exists_account h
    obtain ⟨n, hn, rfl⟩ := List.mem_map.mp hy
    obtain ⟨pre, k, post, heq, -, hname, hpre, hacc⟩ :=
      bumpPodCount_cases (s := { s with assignments := before ++ after }) (-1) ⟨n, hn, hyname⟩
    rw [hacc, bumpPodCount_assignments]
    rw [Scheduler.accounts, show s.nodes = pre ++ k :: post from heq, List.map_append, List.map_cons] at h
    exact balanced_evict h hpre hname.symm

/-- The invariant, if there is a state. -/
def BalancedState (s : Option Scheduler) : Prop := ∀ t, s = some t → Balanced t.accounts t.assignments

/-- An edit that keeps the account of the node keeps the balance. -/
theorem balanced_editFirst {p : NodeState → Bool} {edit : NodeState → NodeState}
    (h : Balanced s.accounts s.assignments) (hedit : ∀ n, (edit n).account = n.account) :
    Balanced (s.editFirst p edit).accounts (s.editFirst p edit).assignments := by
  rw [editFirst_accounts hedit, editFirst_assignments]
  exact h

/-- **The step**: a call that respects the sums keeps the balance. -/
theorem step_balanced (divZero : Int → Option Int) (s : Option Scheduler) (op : Op)
    (h : BalancedState s) (hroom : RoomFor s op) : BalancedState (step divZero s op) := by
  cases s with
  | none => exact fun t ht => nomatch ht
  | some s =>
    have hs := h s rfl
    intro t ht
    cases op with
    | addNode name cpu memory =>
      cases ht
      simp only [addNode, Scheduler.accounts, List.map_append, List.map_cons, List.map_nil]
      exact balanced_addNode hs (hroom s rfl)
    | cordonNode name =>
      cases ht
      exact balanced_editFirst hs fun _ => rfl
    | uncordonNode name =>
      cases ht
      exact balanced_editFirst hs fun _ => rfl
    | drainNode name =>
      cases ht
      exact balanced_editFirst hs fun _ => rfl
    | updateNodeStatus name status =>
      cases ht
      exact balanced_editFirst hs fun _ => rfl
    | addNodeLabel name key =>
      cases ht
      exact balanced_editFirst hs fun _ => rfl
    | addNodeTaint name taint =>
      cases ht
      exact balanced_editFirst hs fun _ => rfl
    | removeNodeTaint name taint =>
      cases ht
      exact balanced_editFirst hs fun _ => rfl
    | schedulePod pod =>
      have ht' : schedulePod divZero s pod = some t := ht
      unfold schedulePod at ht'
      split at ht'
      · cases ht'
      · cases ht'
        exact hs
      · next best hbest =>
        cases ht'
        obtain ⟨n, hn, rfl, hfeas⟩ := findBestNode_feasible hbest
        exact balanced_bindPod hs hn hfeas hroom
    | evictPod pod =>
      cases ht
      exact balanced_evictPod hs pod

theorem balanced_new : BalancedState (some schedulerNew) := by
  intro t ht
  cases ht
  refine ⟨fun _ => rfl, nofun, fun _ => ?_, nofun, nofun⟩
  exact Int.le_of_lt (by decide : (0 : Int) < 110)

theorem BalancedState.noOvercommit {s : Option Scheduler} (h : BalancedState s) : NoOvercommit s := by
  intro t ht n hn
  have hb := h t ht
  have hmem : n.account ∈ t.accounts := List.mem_map_of_mem hn
  obtain ⟨hcpu, hmemory⟩ := hb.fits _ hmem
  have hpods : podsAssigned t.assignments n.nodeName ≤ n.account.maxPods :=
    (hb.maxPods _ hmem) ▸ hb.full n.nodeName
  exact ⟨hcpu, hmemory, hpods⟩

/-- **No overcommitment** along a run from `scheduler_new` whose calls all respect the sums, whatever the
machine makes of a division by zero. -/
theorem never_overcommits (divZero : Int → Option Int) (ops : List Op)
    (h : Runs.AllSteps (step divZero) RoomFor (some schedulerNew) ops) :
    Runs.AllStates (step divZero) NoOvercommit (some schedulerNew) ops :=
  (Runs.allStates_of_allSteps (step_balanced divZero) balanced_new h).imp fun _ hs => hs.noOvercommit

end Calls

/-! ## A machine that stops -/

section Trap

variable {s : Scheduler} {pod : PodSpec}

/-- With the weights of `scheduler_new`, no node can be scored where a division by zero stops the
process. -/
theorem scoringCombined_trap (n : NodeState) (pod : PodSpec) :
    scoringCombined (fun _ => none) schedulerNew.config n pod = none := by
  unfold scoringCombined
  cases scoringBinPacking (fun _ => none) n pod.request with
  | none => rfl
  | some bp =>
    cases scoringPodSpread (fun _ => none) n with
    | none => rfl
    | some ps =>
      cases affinityScore (fun _ => none) n pod with
      | none => rfl
      | some aff => cases scoringTopologySpread (fun _ => none) n <;> rfl

/-- There the loop stops, or finds no node. -/
theorem bestOf_trap (hconfig : s.config = schedulerNew.config) (best : Int × Option CString)
    (ns : List NodeState) :
    bestOf (fun _ => none) s pod best ns = none ∨ bestOf (fun _ => none) s pod best ns = some best := by
  induction ns with
  | nil => exact .inr rfl
  | cons n ns ih =>
    unfold bestOf
    rw [hconfig, scoringCombined_trap]
    split
    · exact .inl rfl
    · exact ih

/-- The weights are those of `scheduler_new` and no pod is assigned. -/
def Unbound (s : Option Scheduler) : Prop :=
  ∀ t, s = some t → t.config = schedulerNew.config ∧ t.assignments = []

theorem editFirst_config {p : NodeState → Bool} {edit : NodeState → NodeState} :
    (s.editFirst p edit).config = s.config := by
  rcases editFirst_cases s p edit with ⟨h, -⟩ | ⟨pre, n, post, -, -, -, h⟩ <;> rw [h]

theorem step_unbound (s : Option Scheduler) (op : Op) (h : Unbound s) :
    Unbound (step (fun _ => none) s op) := by
  cases s with
  | none => exact fun t ht => nomatch ht
  | some s =>
    obtain ⟨hconfig, hassign⟩ := h s rfl
    have hedit : ∀ p edit, (s.editFirst p edit).config = schedulerNew.config ∧
        (s.editFirst p edit).assignments = [] := fun p edit =>
      ⟨editFirst_config.trans hconfig, editFirst_assignments.trans hassign⟩
    intro t ht
    cases op with
    | addNode name cpu memory =>
      cases ht
      exact ⟨hconfig, hassign⟩
    | cordonNode name =>
      cases ht
      exact hedit _ _
    | uncordonNode name =>
      cases ht
      exact hedit _ _
    | drainNode name =>
      cases ht
      exact hedit _ _
    | updateNodeStatus name status =>
      cases ht
      exact hedit _ _
    | addNodeLabel name key =>
      cases ht
      exact hedit _ _
    | addNodeTaint name taint =>
      cases ht
      exact hedit _ _
    | removeNodeTaint name taint =>
      cases ht
      exact hedit _ _
    | schedulePod pod =>
      have ht' : schedulePod (fun _ => none) s pod = some t := ht
      unfold schedulePod findBestNode at ht'
      rcases bestOf_trap hconfig (-1, none) s.nodes with hstop | hnone
      · rw [hstop] at ht'
        cases ht'
      · rw [hnone] at ht'
        cases ht'
        exact ⟨hconfig, hassign⟩
    | evictPod pod =>
      cases ht
      unfold evictPod
      rw [hassign]
      exact ⟨hconfig, hassign⟩

/-- **Where a division by zero stops the process, no pod is ever assigned.** -/
theorem never_binds_on_trap (ops : List Op) :
    Runs.AllStates (step fun _ => none) Unbound (some schedulerNew) ops := by
  refine Runs.allStates_of_step step_unbound fun t ht => ?_
  cases ht
  exact ⟨rfl, rfl⟩

end Trap

/-! ## A node that is filled twice -/

/-- A pod that asks for 600 millicores. -/
def bigPod (name : CString) : PodSpec := ⟨some name, ⟨600, 100⟩, [], [], [], []⟩

/-- A node of 1000 millicores with pods on it. -/
def oneNode (assignments : List Assignment) : Scheduler where
  nodes := [⟨"node-1", "Ready", 1000, 1000, 0, 0, assignments.length, 110, [], []⟩]
  assignments := assignments
  config := schedulerNew.config

/-- A single node that passes the tests and has a score gets the pod. -/
theorem findBestNode_single {divZero : Int → Option Int} {s : Scheduler} {pod : PodSpec} {n : NodeState}
    {score : Int} (hs : s.nodes = [n]) (hfeas : feasible s pod n = true)
    (hscore : scoringCombined divZero s.config n pod = some score) (hpos : -1 < score) :
    findBestNode divZero s pod = some (some n.nodeName) := by
  simp [findBestNode, hs, bestOf, hfeas, hscore, hpos]

/-- The node is taken for a pod of 600 millicores, whatever the quotient by zero is. -/
theorem oneNode_best (q : Int → Int) (name : CString) (as : List Assignment)
    (hfeas : feasible (oneNode as) (bigPod name)
      ⟨"node-1", "Ready", 1000, 1000, 0, 0, as.length, 110, [], []⟩ = true)
    (hscore : scoringCombined (fun a => some (q a)) schedulerNew.config
      ⟨"node-1", "Ready", 1000, 1000, 0, 0, as.length, 110, [], []⟩ (bigPod name) =
        some (if q 64 > 100 then 100 else if q 64 < 0 then 0 else q 64)) :
    findBestNode (fun a => some (q a)) (oneNode as) (bigPod name) =
      some (some (CString.ofString "node-1")) := by
  refine findBestNode_single rfl hfeas hscore ?_
  split
  · omega
  · split <;> omega

/-- **1200 millicores on a node of 1000**: on a machine that gives any quotient by zero, the second pod
is put on the node as well. -/
theorem overcommits : ¬ ∃ q : Int → Int, ∀ ops : List Op,
    Runs.AllStates (step fun a => some (q a)) NoOvercommit (some schedulerNew) ops := by
  rintro ⟨q, h⟩
  have hrun : Runs.run (step fun a => some (q a)) (some schedulerNew)
      [.addNode "node-1" 1000 1000, .schedulePod (bigPod "a"), .schedulePod (bigPod "b")] =
        some (oneNode [⟨"a", "node-1", ⟨600, 100⟩⟩, ⟨"b", "node-1", ⟨600, 100⟩⟩]) := by
    have hfirst : schedulePod (fun a => some (q a)) (oneNode []) (bigPod "a") =
        some (oneNode [⟨"a", "node-1", ⟨600, 100⟩⟩]) := by
      unfold schedulePod
      rw [oneNode_best q "a" [] rfl rfl]
      rfl
    have hsecond : schedulePod (fun a => some (q a)) (oneNode [⟨"a", "node-1", ⟨600, 100⟩⟩]) (bigPod "b") =
        some (oneNode [⟨"a", "node-1", ⟨600, 100⟩⟩, ⟨"b", "node-1", ⟨600, 100⟩⟩]) := by
      unfold schedulePod
      rw [oneNode_best q "b" [_] rfl rfl]
      rfl
    exact (congrArg (fun s => step (fun a => some (q a)) s (.schedulePod (bigPod "b"))) hfirst).trans hsecond
  have hnode := (h _).run_mem _ hrun _ List.mem_cons_self
  exact absurd hnode.cpu (by decide)

/-- One pod fits the node. -/
theorem oneNode_respected : Runs.AllStates (step fun _ => some 0) NoOvercommit (some schedulerNew)
    [.addNode "node-1" 1000 1000, .schedulePod (bigPod "a")] := by
  refine never_overcommits _ _ ⟨?_, ?_, trivial⟩
  · intro t ht
    cases ht
    exact ⟨by decide, by decide⟩
  · intro t ht
    cases ht
    refine ⟨by decide, by decide, ?_⟩
    intro candidate hc _ n hn _
    obtain rfl := List.mem_singleton.mp hn
    exact ⟨by decide, by decide⟩

end Sirah.Sched
