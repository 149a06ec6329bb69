import Sirah.Lib.CString
import Sirah.Lib.Run

/-!
# Leader election

Model of `internal/ha/ha_manager.c`: any number of `ha_manager` instances, each with its election
thread, against one etcd. The thread's loop takes the manager's lock only around its reads and writes
of `status`, so an iteration is three moves between which the other instances run:

* `begin`: `election_running` and, under the lock, `is_leader`;
* `write`: the lease value and `etcd_cas_write`, one request that etcd executes atomically;
* `finish`: the result goes into `status`.

The calls of a manager's owner (`start`, `stop`, `stepDown`, `forceElection`) come in between. `stop`
joins the thread before it returns, so a manager is started again only after its thread has exited.

etcd is a parameter `exec : E → CString → Option Nat × E`: its state, the request body as the code
builds it, and the HTTP status (`none` for a failed transfer). Nothing is assumed of it.

`etcd_cas_write` compares nothing when its caller passes no previous value, and neither of its callers
passes one: a campaigning instance overwrites whatever lease is stored, and becomes leader as soon as
the answer is 200. Beside each instance the world keeps its `Term`: what etcd answered it and what its
owner called. **`at_most_one_leader_iff`**: at most one instance is leader along a run **iff** no campaign
that etcd answered 200 ends while another instance is in office by etcd's answers.
-/

namespace Sirah.Ha

open Runs

/-- `leader_status_t`. -/
inductive LeaderStatus where
  | follower
  | leader
  | candidate
  deriving DecidableEq, Repr

/-- `ha_manager_config_t`; the intervals only time the sleeps. -/
structure Config where
  electionKey : CString
  componentName : CString
  instanceId : CString
  deriving DecidableEq, Repr

/-- Where the election thread stands. -/
inductive Pc where
  | exited
  | looping
  | sending (isLeader : Bool)
  | answered (isLeader : Bool) (ok : Bool)
  deriving DecidableEq, Repr

/-- `ha_manager_t` and its thread. -/
structure Manager where
  config : Config
  status : LeaderStatus
  leadershipTransitions : Nat
  electionRunning : Bool
  pc : Pc
  deriving DecidableEq, Repr

/-- `ha_manager_new`. -/
def managerNew (config : Config) : Manager := ⟨config, .follower, 0, false, .exited⟩

/-! ## The request -/

/-- `lease_value`, in its `char[256]`. -/
def leaseValue (c : Config) (now : Nat) : CString :=
  CString.snprintf 256 ("\x7b\"leader\":\"" ++ c.componentName ++ "\",\"id\":\"" ++ c.instanceId ++
    "\",\"since\":" ++ CString.ofNat now ++ "\x7d")

/-- The body `etcd_cas_write` posts, in its `char[1024]`. -/
def txnBody (key value : CString) : Option CString → CString
  | some prev =>
    CString.snprintf 1024
      ("\x7b\"compare\":[\x7b\"key\":\"" ++ key ++ "\",\"result\":\"EQUAL\",\"value\":\"" ++ prev ++
        "\"\x7d]," ++ "\"success\":[\x7b\"request_put\":\x7b\"key\":\"" ++ key ++ "\",\"value\":\"" ++
        value ++ "\"\x7d\x7d]\x7d")
  | none =>
    CString.snprintf 1024
      ("\x7b\"success\":[\x7b\"request_put\":\x7b\"key\":\"" ++ key ++ "\",\"value\":\"" ++ value ++
        "\"\x7d\x7d]\x7d")

section Etcd

variable {ι E : Type*} [DecidableEq ι] (exec : E → CString → Option Nat × E)

/-- `etcd_cas_write`: success is the HTTP status alone. `curl` says whether `curl_easy_init`
succeeded. -/
def etcdCasWrite (etcd : E) (curl : Bool) (key value : CString) (prev : Option CString) : Bool × E :=
  if curl then
    let r := exec etcd (txnBody key value prev)
    (decide (r.1 = some 200), r.2)
  else (false, etcd)

/-! ## The instances -/

/-- What etcd answered an instance and what its owner called, apart from its `status`. -/
structure Term where
  /-- Etcd answered a campaign 200, and since then every transaction, and the owner called no step-down. -/
  inOffice : Bool
  /-- The last iteration began out of office. -/
  campaign : Bool
  /-- Etcd answered the transaction of that iteration 200. -/
  granted : Bool
  deriving DecidableEq, Repr

variable (ι E) in
/-- The instances with their terms, and the etcd they share. -/
structure World where
  manager : ι → Manager
  etcd : E
  term : ι → Term

/-- Every instance as `ha_manager_new` leaves it. -/
def World.new (config : ι → Config) (etcd : E) : World ι E :=
  ⟨fun i => managerNew (config i), etcd, fun _ => ⟨false, false, false⟩⟩

/-- Instance `i` becomes `m`, and its term `t`. -/
def World.set (w : World ι E) (i : ι) (m : Manager) (t : Term) : World ι E :=
  { w with manager := fun j => if j = i then m else w.manager j
           term := fun j => if j = i then t else w.term j }

variable (ι) in
/-- The moves, each of instance `i`. -/
inductive Act where
  | start (i : ι) (created : Bool)
  | stop (i : ι)
  | stepDown (i : ι)
  | forceElection (i : ι)
  | begin (i : ι)
  | write (i : ι) (now : Nat) (curl : Bool)
  | finish (i : ι)
  deriving DecidableEq, Repr

/-- `ha_manager_start`; `created` says whether `pthread_create` succeeded. -/
def managerStart (m : Manager) (created : Bool) : Manager :=
  if m.electionRunning then m
  else if m.pc = .exited then
    { m with electionRunning := created, leadershipTransitions := 0,
             pc := if created then .looping else .exited }
  else m

/-- `ha_manager_step_down`. -/
def managerStepDown (m : Manager) : Manager := { m with status := .follower }

/-- `ha_manager_force_election`. -/
def managerForceElection (m : Manager) : Manager := managerStepDown m

/-- The head of the loop of `ha_election_thread`. -/
def electionBegin (m : Manager) : Manager :=
  match m.pc with
  | .looping =>
    if m.electionRunning then { m with pc := .sending (decide (m.status = .leader)) }
    else { m with pc := .exited }
  | _ => m

/-- The rest of the iteration, once the answer is known. -/
def electionFinish (m : Manager) : Manager :=
  match m.pc with
  | .answered true renewed =>
    { m with status := if renewed then m.status else .follower, pc := .looping }
  | .answered false becameLeader =>
    if becameLeader then
      { m with status := .leader, leadershipTransitions := (m.leadershipTransitions + 1) % 2 ^ 32,
               pc := .looping }
    else { m with pc := .looping }
  | _ => m

/-- The term of a new iteration. -/
def Term.begun (t : Term) (m : Manager) : Term :=
  if m.pc = .looping then { t with campaign := !t.inOffice } else t

/-- The term when the answer gets there: a renewal that is granted keeps the office, unless the owner
called a step-down meanwhile. -/
def Term.ended (t : Term) (m : Manager) : Term :=
  match m.pc with
  | .answered _ _ => { t with inOffice := t.granted && (t.campaign || t.inOffice) }
  | _ => t

/-- The answer that gets there is that to a campaign, and it is 200. -/
def Term.elected (t : Term) (m : Manager) : Bool :=
  match m.pc with
  | .answered _ _ => t.campaign && t.granted
  | _ => false

/-- The transaction both branches of the loop post: they pass NULL for `prev_value`. -/
def leaseBody (c : Config) (now : Nat) : CString := txnBody c.electionKey (leaseValue c now) none

/-- One move. -/
def step (w : World ι E) : Act ι → World ι E
  | .start i created => w.set i (managerStart (w.manager i) created) (w.term i)
  | .stop i => w.set i { w.manager i with electionRunning := false } (w.term i)
  | .stepDown i => w.set i (managerStepDown (w.manager i)) { w.term i with inOffice := false }
  | .forceElection i => w.set i (managerForceElection (w.manager i)) { w.term i with inOffice := false }
  | .begin i => w.set i (electionBegin (w.manager i)) ((w.term i).begun (w.manager i))
  | .write i now curl =>
    let m := w.manager i
    match m.pc with
    | .sending isLeader =>
      let r := etcdCasWrite exec w.etcd curl m.config.electionKey (leaseValue m.config now) none
      let answered := curl && decide ((exec w.etcd (leaseBody m.config now)).1 = some 200)
      { w.set i { m with pc := .answered isLeader r.1 } { w.term i with granted := answered } with etcd := r.2 }
    | _ => w
  | .finish i => w.set i (electionFinish (w.manager i)) ((w.term i).ended (w.manager i))

/-- **Mutual exclusion.** -/
def AtMostOneLeader (w : World ι E) : Prop :=
  ∀ i j, (w.manager i).status = .leader → (w.manager j).status = .leader → i = j

/-- The move does not end a campaign that etcd answered 200 while another instance is in office. -/
def Unopposed (w : World ι E) : Act ι → Prop
  | .finish i => (w.term i).elected (w.manager i) = true → ∀ j, j ≠ i → (w.term j).inOffice = false
  | _ => True

/-! ## The status is the office -/

/-- A thread inside an iteration remembers how it began and what etcd answered; nothing elects the instance
during a campaign. -/
def Pc.Agrees : Pc → Term → Prop
  | .sending isLeader, t => isLeader = (!t.campaign) ∧ (t.campaign = true → t.inOffice = false)
  | .answered isLeader ok, t => isLeader = (!t.campaign) ∧ ok = t.granted ∧ (t.campaign = true → t.inOffice = false)
  | _, _ => True

/-- **The invariant of one instance**: it has the status of a leader exactly in office. -/
def Agrees (m : Manager) (t : Term) : Prop := (m.status = .leader ↔ t.inOffice = true) ∧ m.pc.Agrees t

def AllAgree (w : World ι E) : Prop := ∀ i, Agrees (w.manager i) (w.term i)

theorem Agrees.stepDown {m : Manager} {t : Term} (h : Agrees m t) :
    Agrees (managerStepDown m) { t with inOffice := false } := by
  refine ⟨iff_of_false (fun hs => by cases hs) Bool.false_ne_true, ?_⟩
  obtain ⟨-, hpc⟩ := h
  unfold managerStepDown
  revert hpc
  cases m.pc with
  | sending isLeader => exact fun hpc => ⟨hpc.1, fun _ => rfl⟩
  | answered isLeader ok => exact fun hpc => ⟨hpc.1, hpc.2.1, fun _ => rfl⟩
  | exited => exact id
  | looping => exact id

theorem Agrees.start {m : Manager} {t : Term} (h : Agrees m t) (created : Bool) :
    Agrees (managerStart m created) t := by
  unfold managerStart
  split
  · exact h
  · split
    · refine ⟨h.1, ?_⟩
      cases created <;> trivial
    · exact h

theorem Agrees.begun {m : Manager} {t : Term} (h : Agrees m t) : Agrees (electionBegin m) (t.begun m) := by
  unfold electionBegin Term.begun
  cases hpc : m.pc with
  | looping =>
    simp only [if_pos]
    split
    · refine ⟨h.1, ?_, fun hcampaign => by simpa using hcampaign⟩
      rw [Bool.not_not, Bool.eq_iff_iff, decide_eq_true_iff]
      exact h.1
    · exact ⟨h.1, trivial⟩
  | exited => exact h
  | sending isLeader => exact h
  | answered isLeader ok => exact h

theorem Agrees.ended {m : Manager} {t : Term} (h : Agrees m t) : Agrees (electionFinish m) (t.ended m) := by
  obtain ⟨hstatus, hthread⟩ := h
  unfold electionFinish Term.ended
  cases hpc : m.pc with
  | looping => exact ⟨hstatus, hthread⟩
  | exited => exact ⟨hstatus, hthread⟩
  | sending isLeader => exact ⟨hstatus, hthread⟩
  | answered isLeader ok =>
    rw [hpc] at hthread
    obtain ⟨rfl, rfl, hcampaign⟩ := hthread
    cases hc : t.campaign with
    | true =>
      have hout : m.status ≠ .leader := by
        rw [Ne, hstatus, hcampaign hc]
        exact Bool.false_ne_true
      cases hg : t.granted with
      | true => exact ⟨iff_of_true rfl rfl, trivial⟩
      | false => exact ⟨iff_of_false hout Bool.false_ne_true, trivial⟩
    | false =>
      cases hg : t.granted with
      | true => exact ⟨hstatus, trivial⟩
      | false => exact ⟨iff_of_false (fun hs => by cases hs) Bool.false_ne_true, trivial⟩

/-- The answer that the thread gets is etcd's. -/
theorem Agrees.written {m : Manager} {t : Term} (h : Agrees m t) {isLeader : Bool} (hpc : m.pc = .sending isLeader)
    (etcd : E) (now : Nat) (curl : Bool) :
    Agrees { m with pc := .answered isLeader
                      (etcdCasWrite exec etcd curl m.config.electionKey (leaseValue m.config now) none).1 }
      { t with granted := curl && decide ((exec etcd (leaseBody m.config now)).1 = some 200) } := by
  obtain ⟨hstatus, hthread⟩ := h
  rw [hpc] at hthread
  refine ⟨hstatus, hthread.1, ?_, hthread.2⟩
  unfold etcdCasWrite leaseBody
  cases curl <;> rfl

theorem AllAgree.set {w : World ι E} (h : AllAgree w) {i : ι} {m : Manager} {t : Term} (hi : Agrees m t) :
    AllAgree (w.set i m t) := by
  intro j
  by_cases hji : j = i
  · simpa only [World.set, if_pos hji] using hi
  · simpa only [World.set, if_neg hji] using h j

/-- **Every move keeps the agreement.** -/
theorem AllAgree.step {w : World ι E} (h : AllAgree w) (a : Act ι) : AllAgree (step exec w a) := by
  cases a with
  | start i created => exact h.set ((h i).start created)
  | stop i => exact h.set (h i)
  | stepDown i => exact h.set (h i).stepDown
  | forceElection i => exact h.set (h i).stepDown
  | «begin» i => exact h.set (h i).begun
  | write i now curl =>
    simp only [Ha.step]
    split
    · rename_i isLeader hpc
      exact h.set ((h i).written exec hpc w.etcd now curl)
    · exact h
  | finish i => exact h.set (h i).ended

omit [DecidableEq ι] in
theorem new_agree (config : ι → Config) (etcd : E) : AllAgree (World.new config etcd) :=
  fun _ => ⟨iff_of_false (fun hs => by cases hs) Bool.false_ne_true, trivial⟩

/-! ## What a move does to the exclusion -/

/-- **At most one instance is in office.** -/
def AtMostOneTerm (w : World ι E) : Prop :=
  ∀ i j, (w.term i).inOffice = true → (w.term j).inOffice = true → i = j

omit [DecidableEq ι] in
theorem AllAgree.exclusion_iff {w : World ι E} (h : AllAgree w) : AtMostOneLeader w ↔ AtMostOneTerm w :=
  forall₂_congr fun i j => by rw [(h i).1, (h j).1]

/-- Exclusion survives a change of one instance that does not bring it into office. -/
theorem AtMostOneTerm.set {w : World ι E} (h : AtMostOneTerm w) {i : ι} {m : Manager} {t : Term}
    (ht : t.inOffice = true → (w.term i).inOffice = true) : AtMostOneTerm (w.set i m t) := by
  have key : ∀ j, ((w.set i m t).term j).inOffice = true → (w.term j).inOffice = true := by
    intro j hj
    by_cases hji : j = i
    · subst hji
      exact ht (by simpa [World.set] using hj)
    · simpa [World.set, hji] using hj
  exact fun j k hj hk => h j k (key j hj) (key k hk)

/-- Exclusion survives an election of `i` exactly when nobody else is in office. -/
theorem atMostOneTerm_set_inOffice {w : World ι E} {i : ι} {m : Manager} {t : Term} (ht : t.inOffice = true) :
    AtMostOneTerm (w.set i m t) ↔ ∀ j, j ≠ i → (w.term j).inOffice = false := by
  constructor
  · intro hex j hji
    by_contra hj
    rw [Bool.not_eq_false] at hj
    refine hji (hex j i ?_ ?_)
    · simpa [World.set, hji] using hj
    · simpa [World.set] using ht
  · intro hno
    have key : ∀ j, ((w.set i m t).term j).inOffice = true → j = i := by
      intro j hj
      by_contra hji
      rw [show ((w.set i m t).term j).inOffice = (w.term j).inOffice by simp [World.set, hji], hno j hji] at hj
      cases hj
    exact fun j k hj hk => (key j hj).trans (key k hk).symm

/-- The step law of the terms. -/
theorem step_exclusion {w : World ι E} (h : AtMostOneTerm w) (a : Act ι) :
    AtMostOneTerm (step exec w a) ↔ Unopposed w a := by
  cases a with
  | start i created => exact iff_of_true (h.set id) trivial
  | stop i => exact iff_of_true (h.set id) trivial
  | stepDown i => exact iff_of_true (h.set fun ht => by cases ht) trivial
  | forceElection i => exact iff_of_true (h.set fun ht => by cases ht) trivial
  | «begin» i =>
    refine iff_of_true (h.set fun ht => ?_) trivial
    unfold Term.begun at ht
    split at ht <;> exact ht
  | write i now curl =>
    have hsame : ∀ j, ((step exec w (.write i now curl)).term j).inOffice = (w.term j).inOffice := by
      intro j
      simp only [step]
      split
      · by_cases hji : j = i
        · subst hji
          simp [World.set]
        · simp [World.set, hji]
      · rfl
    exact iff_of_true (fun j k hj hk => h j k (hsame j ▸ hj) (hsame k ▸ hk)) trivial
  | finish i =>
    show AtMostOneTerm (w.set i _ ((w.term i).ended (w.manager i))) ↔
      ((w.term i).elected (w.manager i) = true → ∀ j, j ≠ i → (w.term j).inOffice = false)
    unfold Term.ended Term.elected
    cases hpc : (w.manager i).pc with
    | looping => exact iff_of_true (h.set id) fun hno => by cases hno
    | exited => exact iff_of_true (h.set id) fun hno => by cases hno
    | sending isLeader => exact iff_of_true (h.set id) fun hno => by cases hno
    | answered isLeader ok =>
      cases hc : (w.term i).campaign with
      | false =>
        -- a renewal brings nobody into office
        refine iff_of_true (h.set fun ht => ?_) fun hno => by cases hno
        exact (Bool.and_eq_true_iff.mp ht).2
      | true =>
        cases hg : (w.term i).granted with
        | false => exact iff_of_true (h.set fun ht => by cases ht) fun hno => by cases hno
        | true => exact (atMostOneTerm_set_inOffice rfl).trans ⟨fun hno _ => hno, fun hno => hno rfl⟩

/-- **The step law.** -/
theorem leader_step {w : World ι E} (h : AllAgree w) (hex : AtMostOneLeader w) (a : Act ι) :
    AtMostOneLeader (step exec w a) ↔ Unopposed w a :=
  (h.step exec a).exclusion_iff.trans (step_exclusion exec (h.exclusion_iff.mp hex) a)

omit [DecidableEq ι] in
theorem new_exclusion (config : ι → Config) (etcd : E) : AtMostOneLeader (World.new config etcd) := by
  intro i j hi
  cases hi

/-- **At most one leader, exactly.** For any number of instances, any etcd and any interleaving of
the moves: at most one instance is leader in every state reached **iff** no campaign that etcd answered
200 ends while another instance is in office by etcd's answers. -/
theorem at_most_one_leader_iff (config : ι → Config) (etcd : E) (as : List (Act ι)) :
    AllStates (step exec) AtMostOneLeader (World.new config etcd) as ↔
      AllSteps (step exec) Unopposed (World.new config etcd) as :=
  allStates_iff_allSteps (fun _ a h _ => h.step exec a) (fun _ a h _ hex => leader_step exec h hex a)
    (I := AllAgree) (new_agree config etcd) (new_exclusion config etcd) allSteps_true

end Etcd

/-! ## Two leaders -/

/-- An etcd that keeps the transactions it has executed and answers 200 to each. -/
def etcdLog (log : List CString) (body : CString) : Option Nat × List CString :=
  (some 200, body :: log)

/-- Replicas of one component, under one election key. -/
def replica (i : Nat) : Config :=
  ⟨"/sirah/leader", "controller-manager", "cm-" ++ CString.ofNat i⟩

/-- **Two leaders.** The second replica campaigns after the first one has won: its transaction
overwrites the lease, is answered 200, and both are leader. -/
theorem second_campaign_wins :
    ¬ AllStates (step etcdLog) AtMostOneLeader (World.new replica [])
      [.start 1 true, .start 2 true, .begin 1, .write 1 1700000000 true, .finish 1,
       .begin 2, .write 2 1700000020 true, .finish 2] := by
  intro h
  exact absurd (h.run_mem 1 2 (by decide) (by decide)) (by decide)

end Sirah.Ha
