import Sirah.Etcd.Client

/-!
# What a compare-and-swap reports

`etcd_put_if_revision_matches` retries until an answer settles the transaction. An answer settles it
when it is a 200 whose JSON body has the field `succeeded`. Every other HTTP answer leaves `status` at
the `ETCD_OK` of the transport: an error code, a body that does not parse, and a body without the field
(etcd's gateway may omit a `false`) are all inconclusive, and if the call ends there it reports a write
that did not happen.

**`put_if_revision_matches_truthful_iff`**: the call's report is true to the answers it received **iff**
the last of them is not inconclusive.
-/

namespace Sirah.Etcd

namespace Answer

/-- A 200 whose body says that the transaction succeeded. -/
def Succeeded (a : Answer) : Prop :=
  ∃ body v, a = .http 200 body ∧ body.getEx "succeeded" = some v ∧ v.getBoolean = true

/-- A 200 with a body in which the transaction did not succeed: `succeeded` is false or omitted. -/
def NotSucceeded (a : Answer) : Prop :=
  ∃ body, a = .http 200 body ∧ body ≠ .null ∧
    ∀ v, body.getEx "succeeded" = some v → v.getBoolean = false

/-- An HTTP answer that does not say what became of the transaction. -/
def Inconclusive (a : Answer) : Prop :=
  ∃ code body, a = .http code body ∧ (code ≠ 200 ∨ body.getEx "succeeded" = none)

theorem Succeeded.not_inconclusive {a : Answer} (h : a.Succeeded) : ¬ a.Inconclusive := by
  obtain ⟨body, v, rfl, hv, -⟩ := h
  rintro ⟨code, body', heq, hcode | hnone⟩
  · cases heq
    exact hcode rfl
  · cases heq
    rw [hv] at hnone
    cases hnone

end Answer

variable {n : Nat} [NeZero n]

/-- The answers a call receives. -/
def received (env : Env) (c : Client n) (key newValue : Option CString) (expectedRevision : Nat)
    (r : Response) : List Answer :=
  match key, newValue with
  | some key, some newValue =>
    (call handleTxn (env (txnRequest key newValue expectedRevision)) c r).answers
  | _, _ => []

/-- **The report is true**: `ETCD_OK` only if some attempt's transaction succeeded, `ETCD_CAS_FAILED`
only if some attempt's did not. -/
def Truthful (env : Env) (c : Client n) (key newValue : Option CString) (expectedRevision : Nat)
    (r : Response) : Prop :=
  ∀ status r' c', etcdPutIfRevisionMatches env c key newValue expectedRevision r = some (status, r', c') →
    (status = .ok → ∃ a ∈ received env c key newValue expectedRevision r, a.Succeeded) ∧
      (status = .casFailed → ∃ a ∈ received env c key newValue expectedRevision r, a.NotSucceeded)

/-! ## One answer -/

/-- Without an HTTP answer there is nothing to be said of the transaction. -/
theorem not_http {a : Answer} (h : ∀ code body, a ≠ .http code body) :
    ¬ a.Succeeded ∧ ¬ a.Inconclusive :=
  ⟨fun ⟨body, _, ha, _⟩ => h 200 body ha, fun ⟨code, body, ha, _⟩ => h code body ha⟩

/-- What the operation says of an answer. -/
structure Reports (a : Answer) (h : Handled) : Prop where
  ok : h.status = .ok ↔ a.Succeeded ∨ a.Inconclusive
  casFailed : h.status = .casFailed → a.NotSucceeded
  goOn : h.stop = false → ¬ a.Succeeded ∧ h.status ≠ .casFailed

theorem reports_inconclusive {a : Answer} (ha : a.Inconclusive) (r : Response) (rec : Record)
    (stop : Bool) : Reports a ⟨.ok, r, rec, stop⟩ :=
  ⟨iff_of_true rfl (.inr ha), nofun, fun _ => ⟨fun hs => hs.not_inconclusive ha, nofun⟩⟩

theorem reports_not_http {a : Answer} (ha : ∀ code body, a ≠ .http code body) {h : Handled}
    (hok : h.status ≠ .ok) (hcas : h.status ≠ .casFailed) : Reports a h := by
  obtain ⟨hsucc, hinc⟩ := not_http ha
  exact ⟨iff_of_false hok fun h => h.elim hsucc hinc, fun h => absurd h hcas,
    fun _ => ⟨hsucc, hcas⟩⟩

/-- A 200 with the field `succeeded`: it reports the field. The assertion on `responses` can only fail
after a success. -/
theorem handleTxn_field {body v : Json} (hfield : body.getEx "succeeded" = some v) (r : Response) :
    (handleTxn (.http 200 body) r = none → (Answer.http 200 body).Succeeded) ∧
      ∀ h, handleTxn (.http 200 body) r = some h → Reports (.http 200 body) h := by
  -- only an object has members, so the body is no NULL
  have hhandle : handleTxn (.http 200 body) r =
      if v.getBoolean then (readTxn body r).map fun r => ⟨.ok, r, .success, true⟩
      else some ⟨.casFailed, r, .success, true⟩ := by
    cases body with
    | obj ms => simp only [handleTxn, if_pos, hfield]
    | _ => cases hfield
  rw [hhandle]
  cases hv : v.getBoolean with
  | true =>
    have hsucc : (Answer.http 200 body).Succeeded := ⟨body, v, rfl, hfield, hv⟩
    rw [if_pos rfl]
    refine ⟨fun _ => hsucc, fun h hh => ?_⟩
    obtain ⟨r', -, rfl⟩ := Option.map_eq_some_iff.mp hh
    exact ⟨iff_of_true rfl (.inl hsucc), nofun, nofun⟩
  | false =>
    rw [if_neg (by simp)]
    refine ⟨nofun, ?_⟩
    rintro h ⟨⟩
    refine ⟨iff_of_false nofun ?_, fun _ => ⟨body, rfl, ?_, ?_⟩, nofun⟩
    · rintro (⟨body', w, heq, hw, htrue⟩ | ⟨code, body', heq, hcode | hnone⟩) <;> cases heq
      · rw [hfield] at hw
        cases hw
        rw [hv] at htrue
        cases htrue
      · exact hcode rfl
      · rw [hfield] at hnone
        cases hnone
    · rintro rfl
      cases hfield
    · intro w hw
      rw [hfield] at hw
      cases hw
      exact hv

theorem onAnswer_reports (a : Answer) (r : Response) :
    (onAnswer handleTxn a r = none → a.Succeeded) ∧
      ∀ h, onAnswer handleTxn a r = some h → Reports a h := by
  cases a with
  | http code body =>
    by_cases hcode : code = 200
    · subst hcode
      cases hfield : body.getEx "succeeded" with
      | none =>
        have hinc : (Answer.http 200 body).Inconclusive := ⟨200, body, rfl, .inr hfield⟩
        cases body <;> simp only [onAnswer, handleTxn, if_pos, hfield] <;>
          exact ⟨nofun, fun h hh => by cases hh; exact reports_inconclusive hinc _ _ _⟩
      | some v => exact handleTxn_field hfield r
    · have hinc : (Answer.http code body).Inconclusive := ⟨code, body, rfl, .inl hcode⟩
      simp only [onAnswer, handleTxn, if_neg hcode]
      exact ⟨nofun, fun h hh => by cases hh; exact reports_inconclusive hinc _ _ _⟩
  | _ =>
    refine ⟨nofun, ?_⟩
    rintro h ⟨⟩
    exact reports_not_http (fun _ _ heq => by cases heq) (fun heq => by cases heq)
      fun heq => by cases heq

/-! ## The loop -/

/-- What the status of a call, running or left, says of the answers it received. -/
structure Told (status : Status) (answers : List Answer) (crashed : Bool) : Prop where
  ok : crashed = false → status = .ok →
    ∃ a, answers.getLast? = some a ∧ (a.Succeeded ∨ a.Inconclusive)
  casFailed : status = .casFailed → ∃ a ∈ answers, a.NotSucceeded
  inconclusive : ∀ a, answers.getLast? = some a → a.Inconclusive →
    crashed = false ∧ status = .ok ∧ ∀ b ∈ answers, ¬ b.Succeeded

theorem told_start : Told .clusterUnavailable [] false :=
  ⟨nofun, nofun, fun _ h => by simp at h⟩

/-- One more answer, none of those before it a success. -/
theorem told_receive {answers : List Answer} {a : Answer} {h : Handled}
    (hgo : ∀ b ∈ answers, ¬ b.Succeeded) (hr : Reports a h) :
    Told h.status (answers ++ [a]) false where
  ok _ hs := ⟨a, List.getLast?_concat, hr.ok.mp hs⟩
  casFailed hs := ⟨a, List.mem_append_right _ (List.mem_singleton_self a), hr.casFailed hs⟩
  inconclusive b hb hinc := by
    rw [List.getLast?_concat] at hb
    obtain rfl := Option.some.inj hb
    refine ⟨rfl, hr.ok.mpr (.inr hinc), fun c hc => ?_⟩
    rcases List.mem_append.mp hc with hc | hc
    · exact hgo c hc
    · obtain rfl := List.mem_singleton.mp hc
      exact fun hs => hs.not_inconclusive hinc

/-- The process ended on an answer that was a success. -/
theorem told_crash {answers : List Answer} {a : Answer} {status : Status} (ha : a.Succeeded)
    (hcas : status ≠ .casFailed) : Told status (answers ++ [a]) true where
  ok := nofun
  casFailed hs := absurd hs hcas
  inconclusive b hb hinc := by
    rw [List.getLast?_concat] at hb
    obtain rfl := Option.some.inj hb
    exact absurd hinc ha.not_inconclusive

/-- As long as the loop runs, no answer was a success. -/
structure Running (s : Attempts n) : Prop where
  crashed : s.crashed = false
  casFailed : s.status ≠ .casFailed
  noSuccess : ∀ b ∈ s.answers, ¬ b.Succeeded
  told : Told s.status s.answers false

/-- When the loop is left, the status tells what the answers were. -/
theorem call_told (turn : Nat → Turn) (c : Client n) (r : Response) :
    Told (call handleTxn turn c r).status (call handleTxn turn c r).answers
      (call handleTxn turn c r).crashed := by
  refine attempts_rule (I := Running) (J := fun s => Told s.status s.answers s.crashed)
    ?_ ?_ ?_ ?_ ?_ turn _ 0 _ ⟨rfl, nofun, fun b hb => absurd hb List.not_mem_nil, told_start⟩
  · intro s h
    rw [h.crashed]
    exact h.told
  · intro s cb h
    exact ⟨h.crashed, h.casFailed, h.noSuccess, h.told⟩
  · intro s cb a h hnone
    exact told_crash ((onAnswer_reports a s.response).1 hnone) h.casFailed
  · intro s cb a hd t h hsome _
    obtain ⟨hst, hans, hcr⟩ := take_told ((s.setBreaker cb).receive a) hd t
    rw [hst, hans, hcr.trans h.crashed]
    exact told_receive h.noSuccess ((onAnswer_reports a s.response).2 hd hsome)
  · intro s cb a hd t h hsome hgo
    have hr := (onAnswer_reports a s.response).2 hd hsome
    obtain ⟨hns, hnc⟩ := hr.goOn hgo
    obtain ⟨hst, hans, hcr⟩ := take_told ((s.setBreaker cb).receive a) hd t
    refine ⟨hcr.trans h.crashed, fun h => hnc (hst.symm.trans h), ?_, ?_⟩
    · intro b hb
      have hb : b ∈ s.answers ++ [a] := (congrArg (b ∈ ·) hans).mp hb
      rcases List.mem_append.mp hb with hb | hb
      · exact h.noSuccess b hb
      · rw [List.mem_singleton.mp hb]
        exact hns
    · have htold := told_receive h.noSuccess hr
      rw [← hst] at htold
      exact hans ▸ htold

/-! ## The call -/

/-- **A true report, exactly**: the call reports no write that did not happen, and no conflict that was
none, **iff** the last answer it received says what became of the transaction. -/
theorem put_if_revision_matches_truthful_iff (env : Env) (c : Client n)
    (key newValue : Option CString) (expectedRevision : Nat) (r : Response) :
    Truthful env c key newValue expectedRevision r ↔
      ∀ a, (received env c key newValue expectedRevision r).getLast? = some a → ¬ a.Inconclusive := by
  cases key with
  | none =>
    refine iff_of_true ?_ fun a ha => by cases ha
    rintro status r' c' ⟨⟩
    exact ⟨nofun, nofun⟩
  | some key =>
    cases newValue with
    | none =>
      refine iff_of_true ?_ fun a ha => by cases ha
      rintro status r' c' ⟨⟩
      exact ⟨nofun, nofun⟩
    | some newValue =>
      have htold := call_told (env (txnRequest key newValue expectedRevision)) c r
      constructor
      · intro h a ha hinc
        obtain ⟨hcr, hok, hnone⟩ := htold.inconclusive a ha hinc
        obtain ⟨r', c', hfin⟩ := finish_of_not_crashed
          (fun s => s ≠ .ok && s ≠ .casFailed) none hcr
        obtain ⟨b, hb, hsucc⟩ := (h _ r' c' hfin).1 hok
        exact hnone b hb hsucc
      · intro h status r' c' hfin
        simp only [etcdPutIfRevisionMatches, onKey] at hfin
        obtain ⟨hcr, rfl⟩ := finish_status hfin
        refine ⟨fun hok => ?_, htold.casFailed⟩
        obtain ⟨a, hlast, hsucc | hinc⟩ := htold.ok hcr hok
        · exact ⟨a, List.mem_of_getLast? hlast, hsucc⟩
        · exact absurd hinc (h a hlast)

/-- Every attempt is answered `200` with a body in which the transaction succeeded. -/
def committed : Env := fun _ _ => ⟨0, .http 200 (.obj [("succeeded", .bool true)]), 0⟩

/-- A write that is answered so is reported. -/
theorem put_if_revision_matches_truthful_iff_committed :
    Truthful committed (clientCreate 0) (some ("k" : String)) (some ("v" : String)) 7 Response.zero := by
  refine (put_if_revision_matches_truthful_iff committed (clientCreate 0) _ _ 7 Response.zero).mpr ?_
  intro a ha
  cases ha
  exact Answer.Succeeded.not_inconclusive ⟨_, _, rfl, rfl, rfl⟩

/-- Every attempt is answered `200` with a body that has no `succeeded`. -/
def unsaid : Env := fun _ _ => ⟨0, .http 200 (.obj [("header", .obj [])]), 0⟩

/-- A conflict of which the gateway omits the `false` is reported as a write. -/
theorem omitted_false_reported_ok : ¬ Truthful unsaid (clientCreate 0) (some ("k" : String))
    (some ("v" : String)) 7 Response.zero := by
  intro h
  obtain ⟨a, ha, body, v, rfl, hv, -⟩ := (h .ok Response.zero _ rfl).1 rfl
  obtain ⟨rfl⟩ := List.mem_singleton.mp ha
  cases hv

end Sirah.Etcd
