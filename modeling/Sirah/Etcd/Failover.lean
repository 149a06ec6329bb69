import Mathlib.Algebra.Group.Fin.Basic
import Sirah.Etcd.Mutations

/-!
# How far a put looks for a live endpoint

The loop of `etcd_put` (`internal/etcd/etcd_client.c`) goes round the endpoints from the current one and
spends one of its `max_retries` attempts on each, also on one whose breaker refuses. `etcd_manager_init`
accepts up to fifteen endpoints and sets `max_retries` to 3.

* `Scan`: before attempt `k` the loop is at the `k`-th endpoint from the start, and what lies ahead has
  the breakers the call found.
* `scan_status`: how a scan that meets no endpoint twice ends.
* **`failover_iff`**: a live endpoint makes the put succeed **iff** the attempts suffice for all endpoints,
  or one of those they reach answers over HTTP, with a JSON body or as the last one asked.
-/

namespace Sirah.Etcd

variable {n : Nat} [NeZero n]

/-! ## Endpoints -/

/-- What an endpoint does with a request. -/
inductive Reply where
  | timedOut
  | transportError
  | http (code : Int) (body : Json)

namespace Reply

/-- What the attempt makes of it. -/
def answer : Reply → Answer
  | timedOut => .timedOut
  | transportError => .transportError
  | http code body => .http code body

/-- A reply over HTTP whose body parses. -/
def Parsed (a : Reply) : Prop := ∃ code body, a = http code body ∧ body ≠ .null

/-- A success. -/
def Success (a : Reply) : Prop := ∃ body, a = http 200 body ∧ body ≠ .null

theorem Success.parsed {a : Reply} (h : a.Success) : a.Parsed := by
  obtain ⟨body, ha, hbody⟩ := h
  exact ⟨200, body, ha, hbody⟩

end Reply

/-- What asking an endpoint would be like: the clock when its breaker is asked, its reply, and the clock
when a failure is recorded. -/
structure Visit where
  now : Int
  reply : Reply
  failureTime : Int

/-- What each endpoint would do at each attempt of a call. -/
abbrev Cluster (n : Nat) := Fin n → Nat → Visit

section Scan

variable (w : Cluster n) (c : Client n)

/-- The endpoint of attempt `k`. -/
def endpointAt (k : Nat) : Fin n := c.currentEndpointIndex + Fin.ofNat n k

/-- What attempt `k` meets. -/
def visitAt (k : Nat) : Visit := w (endpointAt c k) k

/-- Attempt `k` of a call over the endpoints. -/
def scanTurn (k : Nat) : Turn :=
  ⟨(visitAt w c k).now, (visitAt w c k).reply.answer, (visitAt w c k).failureTime⟩

/-- An endpoint whose breaker admits requests and that would answer successfully. -/
def Live (i : Fin n) : Prop :=
  ∀ k, (shouldAllow (c.breakers i) (w i k).now).1 = true ∧ (w i k).reply.Success

/-- The breaker of the endpoint of attempt `k` admits it. -/
def Admitted (k : Nat) : Prop :=
  (shouldAllow (c.breakers (endpointAt c k)) (visitAt w c k).now).1 = true

/-- **Failover reaches a live endpoint**: a put succeeds if one is there. -/
def FailsOver (errorTime : Int) (key value : CString) (leaseId : Nat) (r : Response) : Prop :=
  (∃ i, Live w c i) →
    ∃ r' c', etcdPut (fun _ => scanTurn w c) errorTime c (some key) (some value) leaseId r = some (.ok, r', c')

variable {w c}

theorem endpointAt_succ (k : Nat) : endpointAt c (k + 1) = endpointAt c k + 1 := by
  unfold endpointAt
  rw [add_assoc]
  congr 1
  apply Fin.ext
  simp [Fin.val_add]

/-- The first `n` attempts meet no endpoint twice. -/
theorem endpointAt_inj {j k : Nat} (hj : j < n) (hk : k < n) (h : endpointAt c j = endpointAt c k) :
    j = k := by
  have heq := congrArg Fin.val (add_left_cancel h)
  simpa [Nat.mod_eq_of_lt hj, Nat.mod_eq_of_lt hk] using heq

/-- They meet every one. -/
theorem exists_endpointAt (i : Fin n) : ∃ k < n, endpointAt c k = i := by
  refine ⟨(i - c.currentEndpointIndex).val, (i - c.currentEndpointIndex).isLt, ?_⟩
  unfold endpointAt
  rw [Fin.ofNat_val_eq_self]
  exact add_sub_cancel _ _

/-! ## One attempt -/

/-- The loop before attempt `k`. -/
structure Scan (c : Client n) (k : Nat) (s : Attempts n) : Prop where
  idx : s.idx = endpointAt c k
  fresh : ∀ j, k ≤ j → j < n → s.client.breakers (endpointAt c j) = c.breakers (endpointAt c j)

theorem Scan.next {k : Nat} {s s' : Attempts n} (hs : Scan c k s) (hk : k < n)
    (hidx : s'.idx = s.idx + 1)
    (hbreakers : ∀ i, i ≠ s.idx → s'.client.breakers i = s.client.breakers i) : Scan c (k + 1) s' := by
  refine ⟨?_, ?_⟩
  · rw [hidx, hs.idx, endpointAt_succ]
  · intro j hkj hj
    rw [hbreakers _ ?_, hs.fresh j (by omega) hj]
    rw [hs.idx]
    intro heq
    have := endpointAt_inj hj hk heq
    omega

/-- What a put makes of a reply: one that parses ends the loop. -/
theorem handlePut_reply (a : Reply) (r : Response) :
    ∃ h, onAnswer handlePut a.answer r = some h ∧ h.status = executeHttpRequest a.answer ∧
      (h.stop = true ↔ a.Parsed) := by
  cases a with
  | http code body =>
    cases body with
    | null =>
      refine ⟨_, rfl, rfl, iff_of_false nofun ?_⟩
      rintro ⟨code', body', heq, hbody⟩
      cases heq
      exact hbody rfl
    | _ => exact ⟨_, rfl, rfl, iff_of_true rfl ⟨code, _, rfl, nofun⟩⟩
  | _ => exact ⟨_, rfl, rfl, iff_of_false nofun nofun⟩

variable (w) in
/-- The loop of a put over the endpoints: `m` more attempts from attempt `k` on. -/
def scan (c : Client n) (m k : Nat) (s : Attempts n) : Attempts n :=
  attempts handlePut (scanTurn w c) m k s

/-- **One attempt**: a breaker that refuses is passed by, a reply that parses ends the scan with `ETCD_OK`,
any other leaves the transport's status. -/
theorem scan_succ (m : Nat) {k : Nat} {s : Attempts n} (hs : Scan c k s) (hk : k < n) :
    (¬ Admitted w c k ∧ ∃ s', Scan c (k + 1) s' ∧ s'.status = s.status ∧
      scan w c (m + 1) k s = scan w c m (k + 1) s') ∨
    (Admitted w c k ∧ ¬ (visitAt w c k).reply.Parsed ∧ ∃ s', Scan c (k + 1) s' ∧
      s'.status = executeHttpRequest (visitAt w c k).reply.answer ∧
      scan w c (m + 1) k s = scan w c m (k + 1) s') ∨
    (Admitted w c k ∧ (visitAt w c k).reply.Parsed ∧ (scan w c (m + 1) k s).status = .ok) := by
  have hcb : s.client.breakers s.idx = c.breakers (endpointAt c k) := by
    rw [hs.idx]
    exact hs.fresh k le_rfl hk
  by_cases hadm : Admitted w c k
  · refine .inr ?_
    have hallowed : (shouldAllow (s.client.breakers s.idx) (scanTurn w c k).now).1 = true := hcb ▸ hadm
    obtain ⟨h, hsome, hst, hstop⟩ := handlePut_reply (visitAt w c k).reply s.response
    have hstep := attempts_answered (k := m) hallowed hsome
    by_cases hparsed : (visitAt w c k).reply.Parsed
    · refine .inr ⟨hadm, hparsed, ?_⟩
      obtain ⟨code, body, hreply, -⟩ := id hparsed
      rw [scan, hstep, hstop.mpr hparsed]
      refine (take_told ..).1.trans (hst.trans ?_)
      rw [hreply]
      rfl
    · refine .inl ⟨hadm, hparsed, (s.answered (scanTurn w c k) h).next, hs.next hk ?_ ?_, ?_, ?_⟩
      · exact congrArg (· + 1) (take_idx ..)
      · intro i hi
        refine (take_breakers (i := i) ((s.setBreaker _).receive _) h _ hi).trans ?_
        exact Function.update_of_ne hi _ _
      · exact (take_told ..).1.trans hst
      · rw [scan, hstep, if_neg (fun hs => hparsed (hstop.mp hs))]
        rfl
  · have hrefused : (shouldAllow (s.client.breakers s.idx) (scanTurn w c k).now).1 = false := by
      rw [hcb]
      exact Bool.eq_false_iff.mpr hadm
    refine .inl ⟨hadm, (s.setBreaker _).next, hs.next hk rfl ?_, rfl, attempts_refused hrefused⟩
    intro i hi
    exact Function.update_of_ne hi _ _

/-! ## The whole scan -/

/-- A reply that parses ends a scan that gets as far with `ETCD_OK`. -/
theorem scan_reaches {j : Nat} (hj : j < n) (hadm : Admitted w c j)
    (hparsed : (visitAt w c j).reply.Parsed) (m : Nat) : ∀ {k : Nat} {s : Attempts n}, Scan c k s →
      k ≤ j → j < k + m → (scan w c m k s).status = .ok := by
  induction m with
  | zero =>
    intro k s _ hkj hjm
    omega
  | succ m ih =>
    intro k s hs hkj hjm
    by_cases hjk : k = j
    · subst hjk
      rcases scan_succ m hs hj with ⟨hna, -⟩ | ⟨-, hnp, -⟩ | ⟨-, -, hok⟩
      · exact absurd hadm hna
      · exact absurd hparsed hnp
      · exact hok
    · have hlt : k + 1 ≤ j := by omega
      rcases scan_succ m hs (by omega) with ⟨-, s', hs', -, heq⟩ | ⟨-, -, s', hs', -, heq⟩ | ⟨-, -, hok⟩
      · rw [heq]
        exact ih hs' hlt (by omega)
      · rw [heq]
        exact ih hs' hlt (by omega)
      · exact hok

variable (w c) in
/-- Attempt `j` of those below `e` settles a put: a reply over HTTP that parses, or after which no breaker
admits. -/
def Settles (e j : Nat) : Prop :=
  Admitted w c j ∧ (visitAt w c j).reply.answer.OverHttp ∧
    ((visitAt w c j).reply.Parsed ∨ ∀ i, j < i → i < e → ¬ Admitted w c i)

theorem Reply.Parsed.overHttp {a : Reply} (h : a.Parsed) : a.answer.OverHttp := by
  obtain ⟨code, body, rfl, -⟩ := h
  exact ⟨code, body, rfl⟩

/-- The attempts from `k` on are attempt `k` and those after it. -/
theorem exists_settles_iff {k e : Nat} (hk : k < e) :
    (∃ j, k ≤ j ∧ j < e ∧ Settles w c e j) ↔
      Settles w c e k ∨ ∃ j, k + 1 ≤ j ∧ j < e ∧ Settles w c e j := by
  constructor
  · rintro ⟨j, hkj, hj, hset⟩
    rcases Nat.eq_or_lt_of_le hkj with rfl | hlt
    · exact .inl hset
    · exact .inr ⟨j, hlt, hj, hset⟩
  · rintro (hset | ⟨j, hkj, hj, hset⟩)
    · exact ⟨k, le_rfl, hk, hset⟩
    · exact ⟨j, by omega, hj, hset⟩

theorem none_admitted_iff {k e : Nat} (hk : k < e) :
    (∀ i, k ≤ i → i < e → ¬ Admitted w c i) ↔
      ¬ Admitted w c k ∧ ∀ i, k + 1 ≤ i → i < e → ¬ Admitted w c i := by
  constructor
  · intro h
    exact ⟨h k le_rfl hk, fun i hki hi => h i (by omega) hi⟩
  · rintro ⟨hk', h⟩ i hki hi
    rcases Nat.eq_or_lt_of_le hki with rfl | hlt
    · exact hk'
    · exact h i hlt hi

/-- **How a scan ends** that meets no endpoint twice. -/
theorem scan_status (m : Nat) : ∀ {k : Nat} {s : Attempts n}, Scan c k s → k + m ≤ n →
    ((scan w c m k s).status = .ok ↔ (∃ j, k ≤ j ∧ j < k + m ∧ Settles w c (k + m) j) ∨
      s.status = .ok ∧ ∀ i, k ≤ i → i < k + m → ¬ Admitted w c i) := by
  induction m with
  | zero =>
    intro k s _ _
    refine ⟨fun h => .inr ⟨h, fun i hki hik => by omega⟩, ?_⟩
    rintro (⟨j, hkj, hjk, -⟩ | ⟨h, -⟩)
    · omega
    · exact h
  | succ m ih =>
    intro k s hs hkm
    have hend : k + 1 + m = k + (m + 1) := by omega
    have hk : k < k + (m + 1) := by omega
    rcases scan_succ m hs (by omega) with ⟨hna, s', hs', hst, heq⟩ | ⟨hadm, hnp, s', hs', hst, heq⟩ |
      ⟨hadm, hparsed, hok⟩
    · rw [heq, ih hs' (by omega), hst, hend, exists_settles_iff hk, none_admitted_iff hk]
      have hnset : ¬ Settles w c (k + (m + 1)) k := fun h => hna h.1
      simp only [hnset, hna, false_or, not_false_iff, true_and]
    · rw [heq, ih hs' (by omega), hst, hend, Answer.executeHttpRequest_eq_ok,
        exists_settles_iff hk, none_admitted_iff hk]
      have hset : Settles w c (k + (m + 1)) k ↔ (visitAt w c k).reply.answer.OverHttp ∧
          ∀ i, k + 1 ≤ i → i < k + (m + 1) → ¬ Admitted w c i := by
        simp only [Settles, hadm, hnp, true_and, false_or, Nat.lt_iff_add_one_le]
      simp only [hset, hadm, not_true_eq_false, false_and, and_false, or_false]
      exact or_comm
    · exact iff_of_true hok (.inl ⟨k, le_rfl, by omega, hadm, hparsed.overHttp, .inl hparsed⟩)

/-! ## Failover -/

/-- The loop of a call, before its first attempt. -/
theorem scan_start (r : Response) : Scan c 0 (⟨{ c with totalRequests := c.totalRequests + 1 },
    c.currentEndpointIndex, .clusterUnavailable, r, [], false⟩ : Attempts n) := by
  refine ⟨?_, fun _ _ _ => rfl⟩
  unfold endpointAt
  rw [Fin.ofNat_zero, add_zero]

theorem put_ok_iff (errorTime : Int) (key value : CString) (leaseId : Nat) (r : Response) :
    (∃ r' c', etcdPut (fun _ => scanTurn w c) errorTime c (some key) (some value) leaseId r =
        some (.ok, r', c')) ↔
      (scan w c c.maxRetries.toNat 0 ⟨{ c with totalRequests := c.totalRequests + 1 },
        c.currentEndpointIndex, .clusterUnavailable, r, [], false⟩).status = .ok := by
  have halive := (call_lastStatus handlePut_transport (scanTurn w c) c r).crashed
  have hput : etcdPut (fun _ => scanTurn w c) errorTime c (some key) (some value) leaseId r =
      finish (· ≠ .ok) (some errorTime) (call handlePut (scanTurn w c) c r) := rfl
  rw [hput]
  constructor
  · rintro ⟨r', c', hfin⟩
    exact (finish_status hfin).2
  · intro hok
    obtain ⟨r', c', hfin⟩ := finish_of_not_crashed (· ≠ .ok) (some errorTime) halive
    exact ⟨r', c', hok ▸ hfin⟩

variable (w c) in
/-- **Failover reaches a live endpoint, exactly**: the attempts suffice for every endpoint, none is live,
or one of those reached settles the put. -/
theorem failover_iff (errorTime : Int) (key value : CString) (leaseId : Nat) (r : Response) :
    FailsOver w c errorTime key value leaseId r ↔
      n ≤ c.maxRetries.toNat ∨ (∀ i, ¬ Live w c i) ∨
        ∃ j < c.maxRetries.toNat, Settles w c c.maxRetries.toNat j := by
  unfold FailsOver
  rw [put_ok_iff]
  by_cases hn : n ≤ c.maxRetries.toNat
  · refine iff_of_true ?_ (.inl hn)
    rintro ⟨i, hlive⟩
    obtain ⟨k, hk, rfl⟩ := exists_endpointAt (c := c) i
    obtain ⟨hadm, hsuccess⟩ := hlive k
    exact scan_reaches hk hadm hsuccess.parsed _ (scan_start r) (Nat.zero_le k) (by omega)
  · rw [scan_status _ (scan_start r) (by omega)]
    by_cases hlive : ∃ i, Live w c i
    · have hsome : ¬ ∀ i, ¬ Live w c i := fun h => hlive.elim h
      simp [hn, hlive, hsome]
    · exact iff_of_true (fun h => absurd h hlive) (.inr (.inl (not_exists.mp hlive)))

end Scan

/-- Three attempts are enough for three endpoints. -/
theorem failover_iff_three : FailsOver (fun _ _ => ⟨0, .http 200 (.obj []), 0⟩) (clientCreate 2) 0
    ("k" : String) ("v" : String) 0 Response.zero :=
  (failover_iff _ _ 0 _ _ 0 _).mpr (.inl (by decide))

/-- A breaker that opened at time 0. -/
def openedBreaker : Breaker := { breakerInit with state := .opened, failureCount := 5 }

/-- Four endpoints, of which only the last is admitted. -/
def oneAdmitted : Client 4 :=
  { clientCreate 3 with breakers := fun i => if i = 3 then breakerInit else openedBreaker }

/-- Every endpoint would accept the put. -/
def allAccept : Cluster 4 := fun _ _ => ⟨0, .http 200 (.obj [("header", .obj [])]), 0⟩

/-- The put never gets to the fourth of four endpoints. -/
theorem fourth_endpoint_not_reached :
    ¬ FailsOver allAccept oneAdmitted 0 ("k" : String) ("v" : String) 0 Response.zero := by
  intro h
  obtain ⟨r', c', hok⟩ := h ⟨3, fun k => ⟨rfl, _, rfl, nofun⟩⟩
  have hst : (etcdPut (fun _ => scanTurn allAccept oneAdmitted) 0 oneAdmitted (some ("k" : String))
      (some ("v" : String)) 0 Response.zero).map (·.1) = some .clusterUnavailable := rfl
  rw [hok] at hst
  cases hst

end Sirah.Etcd
