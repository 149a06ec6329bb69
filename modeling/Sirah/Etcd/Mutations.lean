import Sirah.Etcd.Client

/-!
# What a put or a delete reports

`etcd_put` and `etcd_delete` of `internal/etcd/etcd_client.c` look at no HTTP code. Their status is that of
the transport in the last attempt that was answered (`call_lastStatus`), so that every HTTP answer is a
success: a 500 with a JSON page ends the call with `ETCD_OK`.

**`mutation_acknowledged_iff`**: an acknowledged mutation was accepted by a server **iff** the call's
answers do not end in an HTTP answer with a 200 nowhere among them.
-/

namespace Sirah.Etcd

namespace Answer

/-- An answer with HTTP status 200. -/
def Accepted (a : Answer) : Prop := ∃ body, a = .http 200 body

/-- An HTTP answer, whatever its status. -/
def OverHttp (a : Answer) : Prop := ∃ code body, a = .http code body

theorem executeHttpRequest_eq_ok {a : Answer} : executeHttpRequest a = .ok ↔ a.OverHttp := by
  cases a with
  | http code body => exact iff_of_true rfl ⟨code, body, rfl⟩
  | _ => exact iff_of_false nofun nofun

end Answer

variable {n : Nat} [NeZero n]

/-! ## The status of the transport -/

/-- An operation that reports the transport's status for every answer. -/
def ReportsTransport (handle : Answer → Response → Option Handled) : Prop :=
  ∀ a r, ∃ h, onAnswer handle a r = some h ∧ h.status = executeHttpRequest a

theorem handlePut_transport : ReportsTransport handlePut := by
  intro a r
  cases a with
  | http code body => cases body <;> exact ⟨_, rfl, rfl⟩
  | _ => exact ⟨_, rfl, rfl⟩

theorem handleDelete_transport : ReportsTransport handleDelete := by
  intro a r
  cases a <;> exact ⟨_, rfl, rfl⟩

/-- The status the answers so far leave. -/
def lastStatus (answers : List Answer) : Status :=
  match answers.getLast? with
  | none => .clusterUnavailable
  | some a => executeHttpRequest a

theorem lastStatus_concat (answers : List Answer) (a : Answer) :
    lastStatus (answers ++ [a]) = executeHttpRequest a := by
  rw [lastStatus, List.getLast?_concat]

/-- The loop of such an operation, running or left. -/
structure Transported (s : Attempts n) : Prop where
  crashed : s.crashed = false
  status : s.status = lastStatus s.answers

/-- **The last answer counts.** -/
theorem call_lastStatus {handle : Answer → Response → Option Handled} (hh : ReportsTransport handle)
    (turn : Nat → Turn) (c : Client n) (r : Response) : Transported (call handle turn c r) := by
  have received : ∀ (s : Attempts n) cb a h t, Transported s → onAnswer handle a s.response = some h →
      Transported (((s.setBreaker cb).receive a).take h t) := by
    intro s cb a h t hs hsome
    obtain ⟨h', hsome', hstatus⟩ := hh a s.response
    cases hsome'.symm.trans hsome
    obtain ⟨hst, hans, hcr⟩ := take_told ((s.setBreaker cb).receive a) h t
    refine ⟨hcr.trans hs.crashed, ?_⟩
    rw [hst, hans, hstatus]
    exact (lastStatus_concat s.answers a).symm
  refine attempts_rule (I := Transported) (J := Transported) (fun s hs => hs) ?_ ?_ ?_ ?_ turn _ 0 _
    ⟨rfl, rfl⟩
  · intro s cb hs
    exact ⟨hs.crashed, hs.status⟩
  · intro s cb a hs hnone
    obtain ⟨h, hsome, -⟩ := hh a s.response
    rw [hnone] at hsome
    cases hsome
  · intro s cb a h t hs hsome _
    exact received s cb a h t hs hsome
  · intro s cb a h t hs hsome _
    obtain ⟨hcr, hst⟩ := received s cb a h t hs hsome
    exact ⟨hcr, hst⟩

/-! ## Mutations -/

/-- A call of `etcd_put` or `etcd_delete`. -/
inductive Mutation where
  | put (key value : Option CString) (leaseId : Nat)
  | delete (key : Option CString)

namespace Mutation

/-- What the call returns. -/
def perform (env : Env) (errorTime : Int) (c : Client n) (r : Response) :
    Mutation → Option (Status × Response × Client n)
  | put key value leaseId => etcdPut env errorTime c key value leaseId r
  | delete key => etcdDelete env c key r

/-- The answers it receives. -/
def answers (env : Env) (c : Client n) (r : Response) : Mutation → List Answer
  | put (some key) (some value) leaseId =>
    (call handlePut (env (putRequest key value leaseId)) c r).answers
  | delete (some key) => (call handleDelete (env (keyRequest key)) c r).answers
  | _ => []

end Mutation

/-- **Acknowledged only if accepted**: `ETCD_OK` only if some attempt was answered with status 200. -/
def Acknowledged (env : Env) (errorTime : Int) (c : Client n) (r : Response) (m : Mutation) : Prop :=
  ∀ r' c', m.perform env errorTime c r = some (.ok, r', c') → ∃ a ∈ m.answers env c r, a.Accepted

/-- A mutation with its arguments returns the status of its last answer. -/
theorem perform_ok_iff (env : Env) (errorTime : Int) (c : Client n) (r : Response) (m : Mutation) :
    (∃ r' c', m.perform env errorTime c r = some (.ok, r', c')) ↔
      ∃ a, (m.answers env c r).getLast? = some a ∧ a.OverHttp := by
  have settled : ∀ {handle} turn (isError : Status → Bool) (stamp : Option Int),
      ReportsTransport handle →
      ((∃ r' c', finish isError stamp (call handle turn c r) = some (.ok, r', c')) ↔
        ∃ a, (call handle turn c r).answers.getLast? = some a ∧ a.OverHttp) := by
    intro handle turn isError stamp hh
    obtain ⟨hcr, hst⟩ := call_lastStatus hh turn c r
    constructor
    · rintro ⟨r', c', hfin⟩
      obtain ⟨-, hok⟩ := finish_status hfin
      rw [hst, lastStatus] at hok
      split at hok
      · cases hok
      · rename_i a ha
        exact ⟨a, ha, Answer.executeHttpRequest_eq_ok.mp hok⟩
    · rintro ⟨a, ha, hhttp⟩
      obtain ⟨r', c', hfin⟩ := finish_of_not_crashed isError stamp hcr
      rw [hst, lastStatus, ha] at hfin
      exact ⟨r', c', (Answer.executeHttpRequest_eq_ok.mpr hhttp) ▸ hfin⟩
  have refused : ∀ {r₁ : Response} {c₁ : Client n}, (∃ r' c',
      some (Status.invalidArgument, r₁, c₁) = some (Status.ok, r', c')) ↔
      ∃ a, ([] : List Answer).getLast? = some a ∧ a.OverHttp := by
    refine iff_of_false ?_ ?_
    · rintro ⟨r', c', h⟩
      cases h
    · rintro ⟨a, h, -⟩
      cases h
  cases m with
  | put key value leaseId =>
    cases key with
    | none => exact refused
    | some key =>
      cases value with
      | none => exact refused
      | some value =>
        exact settled (env (putRequest key value leaseId)) (· ≠ .ok) (some errorTime) handlePut_transport
  | delete key =>
    cases key with
    | none => exact refused
    | some key => exact settled (env (keyRequest key)) (· ≠ .ok) none handleDelete_transport

/-- **Acknowledged only if accepted, exactly.** -/
theorem mutation_acknowledged_iff (env : Env) (errorTime : Int) (c : Client n) (r : Response)
    (m : Mutation) : Acknowledged env errorTime c r m ↔
      ∀ a, (m.answers env c r).getLast? = some a → a.OverHttp →
        ∃ b ∈ m.answers env c r, b.Accepted := by
  constructor
  · intro h a ha hhttp
    obtain ⟨r', c', hok⟩ := (perform_ok_iff env errorTime c r m).mpr ⟨a, ha, hhttp⟩
    exact h r' c' hok
  · intro h r' c' hok
    obtain ⟨a, ha, hhttp⟩ := (perform_ok_iff env errorTime c r m).mp ⟨r', c', hok⟩
    exact h a ha hhttp

/-- Every attempt is answered 200. -/
def okPage : Env := fun _ _ => ⟨0, .http 200 (.obj [("header", .obj [])]), 0⟩

/-- A put that a server accepted. -/
theorem mutation_acknowledged_iff_okPage : Acknowledged okPage 0 (clientCreate 0) Response.zero
    (.put (some ("k" : String)) (some ("v" : String)) 0) := by
  refine (mutation_acknowledged_iff okPage 0 (clientCreate 0) Response.zero _).mpr ?_
  intro a ha _
  exact ⟨a, List.mem_of_getLast? ha, by cases ha; exact ⟨_, rfl⟩⟩

/-- Every attempt is answered 500 with a JSON page. -/
def errorPage : Env := fun _ _ => ⟨0, .http 500 (.obj [("error", .str ("no leader" : String))]), 0⟩

/-- A put that a server refused is acknowledged. -/
theorem refused_put_acknowledged : ¬ Acknowledged errorPage 0 (clientCreate 0) Response.zero
    (.put (some ("k" : String)) (some ("v" : String)) 0) := by
  intro h
  obtain ⟨a, ha, body, rfl⟩ := h _ _ rfl
  cases List.mem_singleton.mp ha

end Sirah.Etcd
