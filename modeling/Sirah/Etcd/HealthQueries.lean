import Mathlib.Data.List.FinRange
import Sirah.Etcd.Client
import Sirah.Lib.Run

/-!
# Health queries

Model of `etcd_is_healthy` and `etcd_client_get_stats` (`internal/etcd/etcd_client.c`) beside the five requests
of `Sirah.Etcd.Client`. All of them ask the breakers through `etcd_circuit_breaker_should_allow`, which takes
an OPEN breaker whose timeout has passed to HALF_OPEN.

* A `Check` is one call of it, with the breaker it found and whether a request follows. `callChecks` are those of
  a request, in the order of its loop; `move_checked`: no breaker gets from OPEN to HALF_OPEN in another way.
* `etcd_is_healthy` stops at the first breaker that admits, `etcd_client_get_stats` asks all.

**`observes_iff`**: along a run the queries leave all breakers as they were, and every move to HALF_OPEN comes
with a request, **iff** no query asks a breaker that is OPEN past its timeout.
-/

namespace Sirah.Etcd

open Runs

variable {n : Nat}

/-! ## The queries -/

/-- The endpoint's breaker becomes `cb`. -/
def Client.setBreaker (c : Client n) (i : Fin n) (cb : Breaker) : Client n :=
  { c with breakers := Function.update c.breakers i cb }

/-- The loop of `etcd_is_healthy` over the endpoints left; `now i` is the clock when endpoint `i` is asked. -/
def isHealthyLoop (now : Fin n → Int) : List (Fin n) → Client n → Bool × Client n
  | [], c => (false, c)
  | i :: is, c =>
    let allowed := shouldAllow (c.breakers i) (now i)
    let c := c.setBreaker i allowed.2
    if allowed.1 then (true, c) else isHealthyLoop now is c

/-- `etcd_is_healthy`. -/
def etcdIsHealthy (c : Client n) (now : Fin n → Int) : Bool × Client n :=
  isHealthyLoop now (List.finRange n) c

/-- The loop of `etcd_client_get_stats` over the endpoints left, with `healthy_endpoints`. -/
def getStatsLoop (now : Fin n → Int) : List (Fin n) → Nat × Client n → Nat × Client n
  | [], s => s
  | i :: is, (healthy, c) =>
    let allowed := shouldAllow (c.breakers i) (now i)
    getStatsLoop now is (if allowed.1 then healthy + 1 else healthy, c.setBreaker i allowed.2)

/-- `etcd_client_stats_t`, without the text of the last error. -/
structure ClientStats where
  totalRequests : Nat
  totalErrors : Nat
  totalEndpoints : Nat
  healthyEndpoints : Nat
  deriving DecidableEq, Repr

/-- `etcd_client_get_stats`. -/
def etcdClientGetStats (c : Client n) (now : Fin n → Int) : ClientStats × Client n :=
  let s := getStatsLoop now (List.finRange n) (0, c)
  (⟨c.totalRequests, c.totalErrors, n, s.1⟩, s.2)

/-! ## Runs -/

/-- A call of the client. -/
inductive Call (n : Nat) where
  | put (key value : Option CString) (leaseId : Nat) (r : Response) (env : Env) (errorTime : Int)
  | get (key : Option CString) (r : Response) (env : Env) (errorTime : Int)
  | delete (key : Option CString) (r : Response) (env : Env)
  | list (pre : Option CString) (r : Response) (env : Env)
  | putIfRevisionMatches (key newValue : Option CString) (expectedRevision : Nat) (r : Response) (env : Env)
  | isHealthy (now : Fin n → Int)
  | getStats (now : Fin n → Int)

/-- The client after a call; after one that ends the process, the client it had. -/
def callStep [NeZero n] (render : Json → CString) (c : Client n) : Call n → Client n
  | .put key value leaseId r env errorTime => ((etcdPut env errorTime c key value leaseId r).map (·.2.2)).getD c
  | .get key r env errorTime => ((etcdGet render env errorTime c key r).map (·.2.2)).getD c
  | .delete key r env => ((etcdDelete env c key r).map (·.2.2)).getD c
  | .list pre r env => ((etcdList render env c pre r).map (·.2.2)).getD c
  | .putIfRevisionMatches key newValue expectedRevision r env =>
    ((etcdPutIfRevisionMatches env c key newValue expectedRevision r).map (·.2.2)).getD c
  | .isHealthy now => (etcdIsHealthy c now).2
  | .getStats now => (etcdClientGetStats c now).2

/-! ## Checks -/

/-- A call of `etcd_circuit_breaker_should_allow`: the breaker, the clock, and whether a request is sent to the
endpoint next. -/
structure Check (n : Nat) where
  endpoint : Fin n
  breaker : Breaker
  now : Int
  sends : Bool

/-- The breaker is OPEN, and its timeout has passed. -/
def Expired (cb : Breaker) (now : Int) : Prop :=
  cb.state = .opened ∧ now - cb.lastFailureTime > cb.timeoutSeconds

instance (cb : Breaker) (now : Int) : Decidable (Expired cb now) :=
  inferInstanceAs (Decidable (_ ∧ _))

/-- It takes the breaker from OPEN to HALF_OPEN. -/
def Check.Moves (ch : Check n) : Prop :=
  ch.breaker.state = .opened ∧ (shouldAllow ch.breaker ch.now).2.state = .halfOpen

/-- The checks of the loop of a request, which follow `attempts`. -/
def attemptChecks [NeZero n] (handle : Answer → Response → Option Handled) (turn : Nat → Turn) :
    Nat → Nat → Attempts n → List (Check n)
  | 0, _, _ => []
  | k + 1, attempt, s =>
    let t := turn attempt
    let allowed := shouldAllow (s.client.breakers s.idx) t.now
    ⟨s.idx, s.client.breakers s.idx, t.now, allowed.1⟩ ::
      if allowed.1 then
        match onAnswer handle t.answer s.response with
        | none => []
        | some h =>
          if h.stop then [] else attemptChecks handle turn k (attempt + 1) (s.answered t h).next
      else attemptChecks handle turn k (attempt + 1) (s.setBreaker allowed.2).next

/-- The checks of a request. -/
def callChecks [NeZero n] (handle : Answer → Response → Option Handled) (turn : Nat → Turn) (c : Client n)
    (r : Response) : List (Check n) :=
  attemptChecks handle turn c.maxRetries.toNat 0
    ⟨{ c with totalRequests := c.totalRequests + 1 }, c.currentEndpointIndex, .clusterUnavailable, r,
      [], false⟩

/-- The checks of `etcd_is_healthy`: up to the first breaker that admits. -/
def isHealthyChecks (now : Fin n → Int) (c : Client n) : List (Fin n) → List (Check n)
  | [] => []
  | i :: is => ⟨i, c.breakers i, now i, false⟩ ::
    if (shouldAllow (c.breakers i) (now i)).1 then [] else isHealthyChecks now c is

/-- The checks of a call. -/
def checks [NeZero n] (render : Json → CString) (c : Client n) : Call n → List (Check n)
  | .put (some key) (some value) leaseId r env _ => callChecks handlePut (env (putRequest key value leaseId)) c r
  | .get (some key) r env _ => callChecks (handleGet render) (env (keyRequest key)) c r
  | .delete (some key) r env => callChecks handleDelete (env (keyRequest key)) c r
  | .list (some pre) r env => callChecks (handleList render) (env (listRequest pre)) c r
  | .putIfRevisionMatches (some key) (some newValue) expectedRevision r env =>
    callChecks handleTxn (env (txnRequest key newValue expectedRevision)) c r
  | .isHealthy now => isHealthyChecks now c (List.finRange n)
  | .getStats now => (List.finRange n).map fun i => ⟨i, c.breakers i, now i, false⟩
  | _ => []

def Call.isQuery : Call n → Prop
  | .isHealthy _ => True
  | .getStats _ => True
  | _ => False

/-- **Queries only observe**, and a breaker moves from OPEN to HALF_OPEN when a request is about to be sent. -/
structure Observes [NeZero n] (render : Json → CString) (c : Client n) (call : Call n) : Prop where
  unchanged : call.isQuery → (callStep render c call).breakers = c.breakers
  trial : ∀ ch ∈ checks render c call, ch.Moves → ch.sends = true

/-- No breaker that is asked without a request is OPEN past its timeout: for `etcd_is_healthy` the first one
that admits, for `etcd_client_get_stats` any. -/
def Quiet (c : Client n) : Call n → Prop
  | .isHealthy now => ∀ i,
    (List.finRange n).find? (fun i => (shouldAllow (c.breakers i) (now i)).1) = some i →
      ¬ Expired (c.breakers i) (now i)
  | .getStats now => ∀ i, ¬ Expired (c.breakers i) (now i)
  | _ => True

/-! ## One check -/

/-- **What the breaker answers**: HALF_OPEN and `true` past the timeout, else its state decides and nothing
changes. -/
theorem shouldAllow_eq (cb : Breaker) (now : Int) : shouldAllow cb now =
    if Expired cb now then (true, { cb with state := .halfOpen, halfOpenTestTime := now })
    else (decide (cb.state ≠ .opened), cb) := by
  obtain ⟨state, failures, successes, last, test, threshold, timeout⟩ := cb
  unfold shouldAllow Expired
  cases state with
  | closed => simp
  | halfOpen => simp
  | opened =>
    by_cases hpast : now - last > timeout
    · simp [hpast]
    · simp [hpast]

/-- A breaker stays as it was exactly if it is not past its timeout. -/
theorem shouldAllow_unchanged_iff {cb : Breaker} {now : Int} :
    (shouldAllow cb now).2 = cb ↔ ¬ Expired cb now := by
  rw [shouldAllow_eq]
  split
  · rename_i hexp
    refine iff_of_false (fun heq => ?_) (not_not_intro hexp)
    have hstate := congrArg Breaker.state heq
    rw [hexp.1] at hstate
    cases hstate
  · rename_i hexp
    exact iff_of_true rfl hexp

/-- It moves to HALF_OPEN in the same case. -/
theorem moves_iff {ch : Check n} : ch.Moves ↔ Expired ch.breaker ch.now := by
  unfold Check.Moves
  rw [shouldAllow_eq]
  split
  · rename_i hexp
    exact iff_of_true ⟨hexp.1, rfl⟩ hexp
  · rename_i hexp
    refine iff_of_false ?_ hexp
    rintro ⟨hopened, hhalf⟩
    cases hopened.symm.trans hhalf

/-- Past its timeout, a breaker admits. -/
theorem allowed_of_expired {cb : Breaker} {now : Int} (h : Expired cb now) : (shouldAllow cb now).1 = true := by
  rw [shouldAllow_eq, if_pos h]

/-- A breaker that refuses stays as it was. -/
theorem refused_unchanged {cb : Breaker} {now : Int} (h : (shouldAllow cb now).1 = false) :
    (shouldAllow cb now).2 = cb := by
  refine shouldAllow_unchanged_iff.mpr fun hexp => ?_
  rw [allowed_of_expired hexp] at h
  cases h

/-! ## The queries -/

/-- A breaker set to itself. -/
theorem setBreaker_self (c : Client n) (i : Fin n) : c.setBreaker i (c.breakers i) = c := by
  unfold Client.setBreaker
  rw [Function.update_eq_self]

/-- What is asked of the first element that satisfies `p`. -/
theorem forall_find_cons_iff {α : Type*} {p : α → Bool} {Q : α → Prop} (j : α) (js : List α) :
    (∀ i, (j :: js).find? p = some i → Q i) ↔ if p j then Q j else ∀ i, js.find? p = some i → Q i := by
  split
  · next hp =>
    rw [List.find?_cons_of_pos hp]
    exact ⟨fun h => h j rfl, fun hj i hi => Option.some.inj hi ▸ hj⟩
  · next hp => rw [List.find?_cons_of_neg hp]

/-- **`etcd_is_healthy` changes nothing**, exactly if the first breaker that admits is not past its timeout. -/
theorem isHealthyLoop_unchanged_iff {now : Fin n → Int} {c : Client n} (l : List (Fin n)) :
    (isHealthyLoop now l c).2.breakers = c.breakers ↔
      ∀ i, l.find? (fun i => (shouldAllow (c.breakers i) (now i)).1) = some i → ¬ Expired (c.breakers i) (now i) := by
  induction l with
  | nil => exact iff_of_true rfl (by simp)
  | cons j js ih =>
    rw [forall_find_cons_iff]
    unfold isHealthyLoop
    dsimp only
    cases hallow : (shouldAllow (c.breakers j) (now j)).1 with
    | true =>
      rw [if_pos rfl, if_pos rfl]
      show Function.update c.breakers j (shouldAllow (c.breakers j) (now j)).2 = c.breakers ↔ _
      rw [Function.update_eq_self_iff, shouldAllow_unchanged_iff]
    | false =>
      rw [if_neg (by simp), if_neg (by simp), refused_unchanged hallow, setBreaker_self]
      exact ih

/-- The checks of `etcd_is_healthy` move no breaker in the same case. -/
theorem isHealthyChecks_iff {now : Fin n → Int} {c : Client n} (l : List (Fin n)) :
    (∀ ch ∈ isHealthyChecks now c l, ch.Moves → ch.sends = true) ↔
      ∀ i, l.find? (fun i => (shouldAllow (c.breakers i) (now i)).1) = some i → ¬ Expired (c.breakers i) (now i) := by
  induction l with
  | nil => exact iff_of_true (by simp [isHealthyChecks]) (by simp)
  | cons j js ih =>
    rw [forall_find_cons_iff]
    unfold isHealthyChecks
    rw [List.forall_mem_cons, moves_iff]
    cases hallow : (shouldAllow (c.breakers j) (now j)).1 with
    | true =>
      rw [if_pos rfl, if_pos rfl]
      constructor
      · rintro ⟨hhead, -⟩ hexp
        cases hhead hexp
      · intro h
        exact ⟨fun hexp => absurd hexp h, List.forall_mem_nil _⟩
    | false =>
      have hnot : ¬ Expired (c.breakers j) (now j) := by
        intro hexp
        rw [allowed_of_expired hexp] at hallow
        cases hallow
      rw [if_neg (by simp), if_neg (by simp), ← ih]
      exact and_iff_right fun hexp => absurd hexp hnot

/-- The loop of `etcd_client_get_stats` asks every breaker once. -/
theorem getStatsLoop_breakers {now : Fin n → Int} (l : List (Fin n)) (hl : l.Nodup) (s : Nat × Client n) (i : Fin n) :
    (getStatsLoop now l s).2.breakers i =
      if i ∈ l then (shouldAllow (s.2.breakers i) (now i)).2 else s.2.breakers i := by
  induction l generalizing s with
  | nil => simp [getStatsLoop]
  | cons j js ih =>
    obtain ⟨hj, hjs⟩ := List.nodup_cons.mp hl
    obtain ⟨healthy, c⟩ := s
    unfold getStatsLoop
    dsimp only
    rw [ih hjs]
    dsimp only [Client.setBreaker]
    by_cases hij : i = j
    · subst hij
      rw [if_neg hj, if_pos List.mem_cons_self, Function.update_self]
    · rw [Function.update_of_ne hij]
      simp [hij]

/-- **`etcd_client_get_stats` changes nothing**, exactly if no breaker is past its timeout. -/
theorem getStats_unchanged_iff {now : Fin n → Int} {c : Client n} :
    (etcdClientGetStats c now).2.breakers = c.breakers ↔ ∀ i, ¬ Expired (c.breakers i) (now i) := by
  rw [funext_iff]
  refine forall_congr' fun i => ?_
  have hi : (getStatsLoop now (List.finRange n) (0, c)).2.breakers i = _ :=
    getStatsLoop_breakers (List.finRange n) (List.nodup_finRange n) (0, c) i
  rw [if_pos (List.mem_finRange i)] at hi
  show (getStatsLoop now (List.finRange n) (0, c)).2.breakers i = _ ↔ _
  rw [hi, shouldAllow_unchanged_iff]

/-! ## The requests -/

section Requests

variable [NeZero n] {handle : Answer → Response → Option Handled} {turn : Nat → Turn}

/-- A check of a request that moves its breaker is followed by the request. -/
theorem attemptChecks_send : ∀ (k attempt : Nat) (s : Attempts n),
    ∀ ch ∈ attemptChecks handle turn k attempt s, ch.Moves → ch.sends = true
  | 0, _, _ => List.forall_mem_nil _
  | k + 1, attempt, s => by
    have ih := attemptChecks_send k (attempt + 1)
    unfold attemptChecks
    dsimp only
    rw [List.forall_mem_cons, moves_iff]
    refine ⟨allowed_of_expired, ?_⟩
    split
    · split
      · exact List.forall_mem_nil _
      · split
        · exact List.forall_mem_nil _
        · exact ih _
    · exact ih _

omit [NeZero n] in
/-- An answered attempt touches the breaker of its endpoint only. -/
theorem answered_breakers (s : Attempts n) (t : Turn) (h : Handled) {i : Fin n} (hi : i ≠ s.idx) :
    (s.answered t h).client.breakers i = s.client.breakers i := by
  have htake := take_breakers
    ((s.setBreaker (shouldAllow (s.client.breakers s.idx) t.now).2).receive t.answer) h t.failureTime hi
  exact htake.trans (Function.update_of_ne hi _ _)

/-- **No other way to HALF_OPEN**: a breaker that is OPEN before the loop of a request and HALF_OPEN after it
was moved by one of its checks. -/
theorem move_checked (i : Fin n) : ∀ (k attempt : Nat) (s : Attempts n),
    (s.client.breakers i).state = .opened →
    ((attempts handle turn k attempt s).client.breakers i).state = .halfOpen →
    ∃ ch ∈ attemptChecks handle turn k attempt s, ch.endpoint = i ∧ ch.Moves
  | 0, _, s, hbefore, hafter => by
    cases hbefore.symm.trans hafter
  | k + 1, attempt, s, hbefore, hafter => by
    have ih := move_checked i k (attempt + 1)
    unfold attemptChecks
    dsimp only
    cases hallow : (shouldAllow (s.client.breakers s.idx) (turn attempt).now).1 with
    | false =>
      rw [attempts_refused hallow, refused_unchanged hallow] at hafter
      rw [if_neg (by simp), refused_unchanged hallow]
      have hsame : ((s.setBreaker (s.client.breakers s.idx)).next.client.breakers i).state = .opened := by
        show (Function.update s.client.breakers s.idx (s.client.breakers s.idx) i).state = _
        rw [Function.update_eq_self, hbefore]
      obtain ⟨ch, hch, hmove⟩ := ih _ hsame hafter
      exact ⟨ch, List.mem_cons_of_mem _ hch, hmove⟩
    | true =>
      by_cases hi : i = s.idx
      · -- the breaker that admits was past its timeout
        subst hi
        refine ⟨_, List.mem_cons_self, rfl, moves_iff.mpr ?_⟩
        by_contra hexp
        rw [shouldAllow_eq, if_neg hexp, hbefore] at hallow
        cases hallow
      · rw [if_pos rfl]
        cases hsome : onAnswer handle (turn attempt).answer s.response with
        | none =>
          have hsome' : onAnswer handle (turn attempt).answer
              (s.setBreaker (shouldAllow (s.client.breakers s.idx) (turn attempt).now).2).response = none := hsome
          rw [attempts] at hafter
          simp only [hallow, if_true, hsome'] at hafter
          have hsame := hafter.symm.trans (congrArg Breaker.state (Function.update_of_ne hi _ _))
          cases hbefore.symm.trans hsame.symm
        | some h =>
          have hopened : ((s.answered (turn attempt) h).client.breakers i).state = .opened := by
            rw [answered_breakers s (turn attempt) h hi, hbefore]
          rw [attempts_answered hallow hsome] at hafter
          dsimp only
          cases hstop : h.stop with
          | true =>
            rw [hstop, if_pos rfl, hopened] at hafter
            cases hafter
          | false =>
            rw [hstop, if_neg (by simp)] at hafter
            rw [if_neg (by simp)]
            obtain ⟨ch, hch, hmove⟩ := ih (s.answered (turn attempt) h).next hopened hafter
            exact ⟨ch, List.mem_cons_of_mem _ hch, hmove⟩

end Requests

/-! ## The result -/

variable [NeZero n]

/-- **One call observes**, exactly if it asks no breaker past its timeout without a request. -/
theorem observes_iff_quiet (render : Json → CString) (c : Client n) (call : Call n) :
    Observes render c call ↔ Quiet c call := by
  have hrequest : ∀ call : Call n, ¬ call.isQuery →
      (∀ ch ∈ checks render c call, ch.Moves → ch.sends = true) → (Observes render c call ↔ True) := by
    intro call hreq htrial
    exact iff_true_intro ⟨fun hquery => absurd hquery hreq, htrial⟩
  have hnull : ∀ ch ∈ ([] : List (Check n)), ch.Moves → ch.sends = true := List.forall_mem_nil _
  cases call with
  | put key value leaseId r env errorTime =>
    refine hrequest _ id ?_
    cases key with
    | none => cases value <;> exact hnull
    | some key =>
      cases value with
      | none => exact hnull
      | some value => exact attemptChecks_send _ _ _
  | get key r env errorTime =>
    refine hrequest _ id ?_
    cases key with
    | none => exact hnull
    | some key => exact attemptChecks_send _ _ _
  | delete key r env =>
    refine hrequest _ id ?_
    cases key with
    | none => exact hnull
    | some key => exact attemptChecks_send _ _ _
  | list pre r env =>
    refine hrequest _ id ?_
    cases pre with
    | none => exact hnull
    | some pre => exact attemptChecks_send _ _ _
  | putIfRevisionMatches key newValue expectedRevision r env =>
    refine hrequest _ id ?_
    cases key with
    | none => cases newValue <;> exact hnull
    | some key =>
      cases newValue with
      | none => exact hnull
      | some newValue => exact attemptChecks_send _ _ _
  | isHealthy now =>
    have hloop : (isHealthyLoop now (List.finRange n) c).2.breakers = c.breakers ↔ _ :=
      isHealthyLoop_unchanged_iff (List.finRange n)
    have hchecks : (∀ ch ∈ isHealthyChecks now c (List.finRange n), ch.Moves → ch.sends = true) ↔ _ :=
      isHealthyChecks_iff (List.finRange n)
    exact ⟨fun h => hloop.mp (h.unchanged trivial), fun h => ⟨fun _ => hloop.mpr h, hchecks.mpr h⟩⟩
  | getStats now =>
    refine ⟨fun h => getStats_unchanged_iff.mp (h.unchanged trivial),
      fun h => ⟨fun _ => getStats_unchanged_iff.mpr h, ?_⟩⟩
    intro ch hch hmoves
    obtain ⟨i, -, rfl⟩ := List.mem_map.mp hch
    exact absurd (moves_iff.mp hmoves) (h i)

/-- **Queries only observe**, along a run from any client: exactly if no query asks a breaker past its
timeout. -/
theorem observes_iff (render : Json → CString) (c : Client n) (calls : List (Call n)) :
    AllSteps (callStep render) (Observes render) c calls ↔ AllSteps (callStep render) Quiet c calls :=
  ⟨fun h => h.imp fun c call => (observes_iff_quiet render c call).mp,
    fun h => h.imp fun c call => (observes_iff_quiet render c call).mpr⟩

/-- An endpoint that failed at time 0 and is OPEN. -/
def tripped : Client 1 := { clientCreate 0 with breakers := fun _ => { breakerInit with state := .opened } }

/-- Queries within the 30 seconds leave it OPEN. -/
theorem early_queries_observe : AllSteps (callStep fun _ => []) (Observes fun _ => []) tripped
    [.isHealthy fun _ => 10, .getStats fun _ => 20] := by
  have hearly : ∀ t ≤ 30, ¬ Expired (tripped.breakers 0) t := by
    rintro t ht ⟨-, hlate⟩
    have hlate : t - 0 > 30 := hlate
    omega
  refine (observes_iff (fun _ => []) tripped _).mpr ⟨fun i _ => ?_, fun i => ?_, trivial⟩
  · rw [Fin.eq_zero i]
    exact hearly 10 (by decide)
  · rw [Fin.eq_zero i]
    exact hearly 20 (by decide)

/-- A health query after 31 seconds takes the breaker to HALF_OPEN. -/
theorem health_query_moves : ¬ AllSteps (callStep fun _ => []) (Observes fun _ => []) tripped
    [.isHealthy fun _ => 31] := by
  rintro ⟨h, -⟩
  have hbreaker := congrFun (h.unchanged trivial) 0
  revert hbreaker
  decide

end Sirah.Etcd
