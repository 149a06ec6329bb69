import Mathlib.Data.Fintype.Basic
import Mathlib.Logic.Function.Basic
import Sirah.Etcd.Base64
import Sirah.Lib.Json

/-!
# The etcd client

Model of `internal/etcd/etcd_client.c`: the circuit breakers of the endpoints, the retry loop the
operations share, and what each operation makes of an answer.

* A call runs under the client's mutex, so it is one function from client to client. `Env` is what the
  world does to it: for the request the call sends, attempt number `k` reads the clock twice and, if the
  breaker lets it through, gets an `Answer`. The body of an answer is what `json_tokener_parse` makes of
  it, `null` if nothing.
* `attempts` is the loop of `etcd_put`, `etcd_get`, `etcd_delete`, `etcd_list` and
  `etcd_put_if_revision_matches`; the five differ in how they handle an answer (`handlePut` and so on).
  json-c's failed assertions and a `strlen(NULL)` end the process: the handler answers `none`.
* The model records the answers a call received (`received`).

`status` is one variable for the whole call: an attempt overwrites it with the transport status, which
is `ETCD_OK` for every HTTP answer, and only some branches overwrite it again.
-/

namespace Sirah.Etcd

/-- `etcd_status_t`. -/
inductive Status where
  | ok
  | notFound
  | casFailed
  | networkError
  | timeout
  | unavailable
  | permissionDenied
  | invalidArgument
  | outOfRange
  | internal
  | clusterUnavailable
  | circuitBreakerOpen
  deriving DecidableEq, Repr

/-! ## Circuit breakers -/

/-- `etcd_circuit_breaker_state_t`. -/
inductive BreakerState where
  | closed
  | opened
  | halfOpen
  deriving DecidableEq, Repr

/-- `etcd_circuit_breaker_t`. -/
structure Breaker where
  state : BreakerState
  failureCount : Int
  successCount : Int
  lastFailureTime : Int
  halfOpenTestTime : Int
  failureThreshold : Int
  timeoutSeconds : Int
  deriving DecidableEq, Repr

/-- `etcd_circuit_breaker_init`. -/
def breakerInit : Breaker := ⟨.closed, 0, 0, 0, 0, 5, 30⟩

/-- `etcd_circuit_breaker_should_allow`, at time `now`. -/
def shouldAllow (cb : Breaker) (now : Int) : Bool × Breaker :=
  match cb.state with
  | .closed => (true, cb)
  | .opened =>
    if now - cb.lastFailureTime > cb.timeoutSeconds then
      (true, { cb with state := .halfOpen, halfOpenTestTime := now })
    else (false, cb)
  | .halfOpen => (true, cb)

/-- `etcd_circuit_breaker_record_success`. -/
def recordSuccess (cb : Breaker) : Breaker :=
  match cb.state with
  | .halfOpen => { cb with failureCount := 0, state := .closed, successCount := 0 }
  | _ => { cb with failureCount := 0, successCount := cb.successCount + 1 }

/-- `etcd_circuit_breaker_record_failure`, at time `now`. -/
def recordFailure (cb : Breaker) (now : Int) : Breaker :=
  match cb.state with
  | .halfOpen => { cb with state := .opened, failureCount := 1, lastFailureTime := now }
  | .closed =>
    { cb with state := if cb.failureCount + 1 ≥ cb.failureThreshold then .opened else .closed,
              failureCount := cb.failureCount + 1, lastFailureTime := now }
  | .opened => { cb with failureCount := cb.failureCount + 1, lastFailureTime := now }

/-! ## Client and response -/

/-- `etcd_client_t` over `n` endpoints. -/
structure Client (n : Nat) where
  breakers : Fin n → Breaker
  currentEndpointIndex : Fin n
  maxRetries : Int
  totalRequests : Nat
  totalErrors : Nat
  lastErrorTime : Int

/-- `etcd_client_create`; `n + 1` endpoints, as it refuses an empty list. -/
def clientCreate (n : Nat) : Client (n + 1) := ⟨fun _ => breakerInit, 0, 3, 0, 0, 0⟩

/-- `etcd_response_t`, of which the operations write these fields. -/
structure Response where
  value : Option CString
  revision : Nat
  modRevision : Nat
  createRevision : Nat
  version : Nat
  kvsKeys : List CString
  kvsValues : List CString
  kvsVersions : List Nat
  deriving DecidableEq, Repr

/-- `{0}`. -/
def Response.zero : Response := ⟨none, 0, 0, 0, 0, [], [], []⟩

/-- What an attempt gets. -/
inductive Answer where
  | noBuffer
  | noCurl
  | timedOut
  | transportError
  | http (code : Int) (body : Json)

/-- The status of `etcd_execute_http_request`; `noBuffer` never gets there. -/
def executeHttpRequest : Answer → Status
  | .noBuffer => .internal
  | .noCurl => .internal
  | .timedOut => .timeout
  | .transportError => .networkError
  | .http _ _ => .ok

/-- One attempt: the clock when the breaker is asked, the answer, and the clock when a failure is
recorded. -/
structure Turn where
  now : Int
  answer : Answer
  failureTime : Int

/-- The world, for each request and attempt. -/
abbrev Env := Json → Nat → Turn

/-- What an operation does to the endpoint's breaker. -/
inductive Record where
  | success
  | failure
  | nothing
  deriving DecidableEq, Repr

/-- What an operation makes of an answer: `status`, the response, the record, and whether it leaves the
loop. -/
structure Handled where
  status : Status
  response : Response
  record : Record
  stop : Bool

/-! ## The loop -/

/-- The loop's state; `answers` are those received so far, `crashed` that the process is gone. -/
structure Attempts (n : Nat) where
  client : Client n
  idx : Fin n
  status : Status
  response : Response
  answers : List Answer
  crashed : Bool

namespace Attempts

variable {n : Nat}

/-- The endpoint's breaker becomes `cb`. -/
def setBreaker (s : Attempts n) (cb : Breaker) : Attempts n :=
  { s with client := { s.client with breakers := Function.update s.client.breakers s.idx cb } }

/-- `endpoint_idx = (endpoint_idx + 1) % endpoint_count`. -/
def next [NeZero n] (s : Attempts n) : Attempts n := { s with idx := s.idx + 1 }

/-- The record on the endpoint's breaker. -/
def record (s : Attempts n) (r : Record) (failureTime : Int) : Attempts n :=
  match r with
  | .success => s.setBreaker (recordSuccess (s.client.breakers s.idx))
  | .failure => s.setBreaker (recordFailure (s.client.breakers s.idx) failureTime)
  | .nothing => s

/-- Taking in an answer. -/
def receive (s : Attempts n) (a : Answer) : Attempts n := { s with answers := s.answers ++ [a] }

/-- Taking in what the operation made of it. -/
def take (s : Attempts n) (h : Handled) (failureTime : Int) : Attempts n :=
  { s with status := h.status, response := h.response }.record h.record failureTime

end Attempts

/-- What becomes of an answer; without a buffer for it, the loop is left with `ETCD_INTERNAL`. -/
def onAnswer (handle : Answer → Response → Option Handled) (a : Answer) (r : Response) :
    Option Handled :=
  match a with
  | .noBuffer => some ⟨.internal, r, .nothing, true⟩
  | a => handle a r

/-- The loop: `k` more attempts, the next of which is number `attempt`. -/
def attempts {n : Nat} [NeZero n] (handle : Answer → Response → Option Handled) (turn : Nat → Turn) :
    Nat → Nat → Attempts n → Attempts n
  | 0, _, s => s
  | k + 1, attempt, s =>
    let t := turn attempt
    let allowed := shouldAllow (s.client.breakers s.idx) t.now
    let s := s.setBreaker allowed.2
    if allowed.1 then
      match onAnswer handle t.answer s.response with
      | none => { s.receive t.answer with crashed := true }
      | some h =>
        let s := (s.receive t.answer).take h t.failureTime
        if h.stop then s else attempts handle turn k (attempt + 1) s.next
    else attempts handle turn k (attempt + 1) s.next

/-- Taking in what was made of an answer changes the client besides. -/
theorem take_told {n : Nat} (s : Attempts n) (h : Handled) (t : Int) :
    (s.take h t).status = h.status ∧ (s.take h t).answers = s.answers ∧
      (s.take h t).crashed = s.crashed := by
  unfold Attempts.take Attempts.record
  cases h.record <;> exact ⟨rfl, rfl, rfl⟩

theorem take_response {n : Nat} (s : Attempts n) (h : Handled) (t : Int) :
    (s.take h t).response = h.response := by
  unfold Attempts.take Attempts.record
  cases h.record <;> rfl

theorem take_idx {n : Nat} (s : Attempts n) (h : Handled) (t : Int) : (s.take h t).idx = s.idx := by
  unfold Attempts.take Attempts.record
  cases h.record <;> rfl

/-- Taking in an answer touches the breaker of the endpoint that gave it. -/
theorem take_breakers {n : Nat} (s : Attempts n) (h : Handled) (t : Int) {i : Fin n} (hi : i ≠ s.idx) :
    (s.take h t).client.breakers i = s.client.breakers i := by
  unfold Attempts.take Attempts.record
  cases h.record with
  | success => exact Function.update_of_ne hi _ _
  | failure => exact Function.update_of_ne hi _ _
  | nothing => rfl

section OneAttempt

variable {n : Nat} [NeZero n] {handle : Answer → Response → Option Handled} {turn : Nat → Turn}
  {k attempt : Nat} {s : Attempts n}

/-- An attempt the breaker refuses. -/
theorem attempts_refused
    (hrefused : (shouldAllow (s.client.breakers s.idx) (turn attempt).now).1 = false) :
    attempts handle turn (k + 1) attempt s = attempts handle turn k (attempt + 1)
      (s.setBreaker (shouldAllow (s.client.breakers s.idx) (turn attempt).now).2).next := by
  rw [attempts]
  simp only [hrefused, Bool.false_eq_true, if_false]

/-- After an attempt that was answered. -/
def Attempts.answered (s : Attempts n) (t : Turn) (h : Handled) : Attempts n :=
  ((s.setBreaker (shouldAllow (s.client.breakers s.idx) t.now).2).receive t.answer).take h t.failureTime

/-- An attempt that is answered. -/
theorem attempts_answered
    (hallowed : (shouldAllow (s.client.breakers s.idx) (turn attempt).now).1 = true) {h : Handled}
    (hsome : onAnswer handle (turn attempt).answer s.response = some h) :
    attempts handle turn (k + 1) attempt s = if h.stop then s.answered (turn attempt) h
      else attempts handle turn k (attempt + 1) (s.answered (turn attempt) h).next := by
  have hsome' : onAnswer handle (turn attempt).answer
      (s.setBreaker (shouldAllow (s.client.breakers s.idx) (turn attempt).now).2).response = some h := hsome
  rw [attempts]
  simp only [hallowed, if_true, hsome', Attempts.answered]

end OneAttempt

/-- **The loop rule**: `I` holds as long as the loop runs and `J` of the state it is left in. -/
theorem attempts_rule {n : Nat} [NeZero n] {handle : Answer → Response → Option Handled}
    {I J : Attempts n → Prop} (hend : ∀ s, I s → J s)
    (hskip : ∀ s cb, I s → I (s.setBreaker cb).next)
    (hcrash : ∀ s cb a, I s → onAnswer handle a s.response = none →
      J { (s.setBreaker cb).receive a with crashed := true })
    (hstop : ∀ s cb a h t, I s → onAnswer handle a s.response = some h → h.stop = true →
      J (((s.setBreaker cb).receive a).take h t))
    (hgo : ∀ s cb a h t, I s → onAnswer handle a s.response = some h → h.stop = false →
      I (((s.setBreaker cb).receive a).take h t).next) (turn : Nat → Turn) :
    ∀ (k attempt : Nat) (s : Attempts n), I s → J (attempts handle turn k attempt s)
  | 0, _, s, h => hend s h
  | k + 1, attempt, s, h => by
    have ih := attempts_rule hend hskip hcrash hstop hgo turn k (attempt + 1)
    unfold attempts
    dsimp only
    split
    · split
      · rename_i hnone
        exact hcrash s _ _ h hnone
      · rename_i hd hsome
        split
        · rename_i hs
          exact hstop s _ _ hd _ h hsome hs
        · rename_i hs
          exact ih _ (hgo s _ _ hd _ h hsome (by simpa using hs))
    · exact ih _ (hskip s _ h)

/-- A call's state when its loop is left. -/
def call {n : Nat} [NeZero n] (handle : Answer → Response → Option Handled) (turn : Nat → Turn)
    (c : Client n) (r : Response) : Attempts n :=
  attempts handle turn c.maxRetries.toNat 0
    ⟨{ c with totalRequests := c.totalRequests + 1 }, c.currentEndpointIndex, .clusterUnavailable, r,
      [], false⟩

/-- What a call returns and leaves behind; `isError` are the statuses it counts as errors, and
`stamp` the time it notes for one, if it does. -/
def finish {n : Nat} (isError : Status → Bool) (stamp : Option Int) (s : Attempts n) :
    Option (Status × Response × Client n) :=
  if s.crashed then none
  else
    let c := { s.client with currentEndpointIndex := s.idx }
    let c := if isError s.status then
        { c with totalErrors := c.totalErrors + 1, lastErrorTime := stamp.getD c.lastErrorTime }
      else c
    some (s.status, s.response, c)

/-- A call that comes back reports the status its loop was left with. -/
theorem finish_status {n : Nat} {isError : Status → Bool} {stamp : Option Int} {s : Attempts n}
    {status : Status} {r : Response} {c : Client n} (h : finish isError stamp s = some (status, r, c)) :
    s.crashed = false ∧ s.status = status := by
  unfold finish at h
  split at h
  · cases h
  · rename_i hcr
    cases h
    exact ⟨by simpa using hcr, rfl⟩

theorem finish_response {n : Nat} {isError : Status → Bool} {stamp : Option Int} {s : Attempts n}
    {status : Status} {r : Response} {c : Client n} (h : finish isError stamp s = some (status, r, c)) :
    s.response = r := by
  unfold finish at h
  split at h
  · cases h
  · cases h
    rfl

theorem finish_of_not_crashed {n : Nat} (isError : Status → Bool) (stamp : Option Int) {s : Attempts n}
    (h : s.crashed = false) : ∃ r c, finish isError stamp s = some (s.status, r, c) := by
  unfold finish
  rw [if_neg (by simp [h])]
  exact ⟨_, _, rfl⟩

/-! ## Requests -/

/-- A base64 string. -/
def b64 (s : CString) : Json := .str (base64Encode s)

/-- The body of `etcd_put`. -/
def putRequest (key value : CString) (leaseId : Nat) : Json :=
  .obj (("key", b64 key) :: ("value", b64 value) ::
    if leaseId > 0 then [("lease", .int leaseId)] else [])

/-- The body of `etcd_get` and `etcd_delete`. -/
def keyRequest (key : CString) : Json := .obj [("key", b64 key)]

/-- `range_end` of `etcd_list`: the prefix with its last byte incremented, up to the NUL this may
make. -/
def rangeEnd (pre : CString) : CString :=
  match pre.getLast? with
  | none => []
  | some c => if c = 255 then pre.dropLast else pre.dropLast ++ [c + 1]

/-- The body of `etcd_list`. -/
def listRequest (pre : CString) : Json := .obj [("key", b64 pre), ("range_end", b64 (rangeEnd pre))]

/-- The body of `etcd_put_if_revision_matches`. -/
def txnRequest (key value : CString) (expectedRevision : Nat) : Json :=
  .obj [
    ("compare", .arr [.obj [("key", b64 key), ("result", .str ("0" : String)),
      ("target", .str ("MOD" : String)), ("mod_revision", .int expectedRevision)]]),
    ("success", .arr [.obj [("request_put", .obj []), ("key", b64 key), ("value", b64 value)]])]

/-! ## Answers -/

section Handlers

variable (render : Json → CString)

/-- `etcd_parse_json_string` with a NULL default. -/
def parseJsonString (j : Json) (key : CString) : Option CString :=
  match j.getEx key with
  | none => none
  | some v => v.getString render

/-- `etcd_parse_json_int`. -/
def parseJsonInt (j : Json) (key : CString) (default : Nat) : Nat :=
  match j.getEx key with
  | none => default
  | some v => (v.getInt64 % 2 ^ 64).toNat

/-- No HTTP answer, or one the operation does not accept: the failure is recorded, the loop goes on. -/
def failed (a : Answer) (r : Response) : Handled := ⟨executeHttpRequest a, r, .failure, false⟩

/-- `etcd_put`, which looks at no HTTP code. -/
def handlePut (a : Answer) (r : Response) : Option Handled :=
  match a with
  | .http _ .null => some ⟨.ok, r, .nothing, false⟩
  | .http _ body =>
    let r := { r with revision := parseJsonInt body "header" 0 }
    let r := match body.getEx "header" with
      | some header => { r with revision := parseJsonInt header "revision" 0 }
      | none => r
    some ⟨.ok, r, .success, true⟩
  | a => some (failed a r)

/-- The fields `etcd_get` takes from the first kv. -/
def readKv (kv : Json) (r : Response) : Response :=
  { r with
    value := match parseJsonString render kv "value" with
      | some encoded => some (base64Decode encoded)
      | none => r.value
    version := parseJsonInt kv "version" 0
    modRevision := parseJsonInt kv "mod_revision" 0
    createRevision := parseJsonInt kv "create_revision" 0 }

/-- `etcd_get`. -/
def handleGet (a : Answer) (r : Response) : Option Handled :=
  match a with
  | .http code body =>
    if code = 200 then
      match body with
      | .null => some ⟨.ok, r, .nothing, false⟩
      | body =>
        match body.getEx "kvs" with
        | none => some ⟨.ok, r, .success, true⟩
        | some kvs =>
          match kvs.elems with
          | none => none
          | some [] => some ⟨.notFound, r, .nothing, false⟩
          | some (kv :: _) => some ⟨.ok, readKv render kv r, .success, true⟩
    else some (failed a r)
  | a => some (failed a r)

/-- `etcd_delete`, which looks at no HTTP code and no body. -/
def handleDelete (a : Answer) (r : Response) : Option Handled :=
  match a with
  | .http _ _ => some ⟨.ok, r, .success, true⟩
  | a => some (failed a r)

/-- The arrays `etcd_list` fills, one entry for each kv; a kv without key or value is a
`strlen(NULL)`. -/
def readKvs (kvs : List Json) : Option (List (CString × CString × Nat)) :=
  kvs.mapM fun kv => do
    let key ← parseJsonString render kv "key"
    let value ← parseJsonString render kv "value"
    return (base64Decode key, base64Decode value, parseJsonInt kv "version" 0 % 2 ^ 32)

/-- `etcd_list`. -/
def handleList (a : Answer) (r : Response) : Option Handled :=
  match a with
  | .http code body =>
    if code = 200 then
      match body with
      | .null => some ⟨.ok, r, .nothing, false⟩
      | body =>
        match body.getEx "kvs" with
        | none => some ⟨.ok, r, .success, true⟩
        | some kvs => do
          let entries ← readKvs render (← kvs.elems)
          return ⟨.ok, { r with kvsKeys := entries.map (·.1), kvsValues := entries.map (·.2.1),
                                kvsVersions := entries.map (·.2.2) }, .success, true⟩
    else some (failed a r)
  | a => some (failed a r)

/-- The revision `etcd_put_if_revision_matches` takes from the first of the responses. -/
def readTxn (body : Json) (r : Response) : Option Response :=
  match body.getEx "responses" with
  | none => some r
  | some responses =>
    match responses.elems with
    | none => none
    | some [] => some r
    | some (first :: _) => some { r with revision := parseJsonInt first "revision" 0 }

/-- `etcd_put_if_revision_matches`. -/
def handleTxn (a : Answer) (r : Response) : Option Handled :=
  match a with
  | .http code body =>
    if code = 200 then
      match body with
      | .null => some ⟨.ok, r, .nothing, false⟩
      | body =>
        match body.getEx "succeeded" with
        | none => some ⟨.ok, r, .success, true⟩
        | some succeeded =>
          if succeeded.getBoolean then (readTxn body r).map fun r => ⟨.ok, r, .success, true⟩
          else some ⟨.casFailed, r, .success, true⟩
    else some (failed a r)
  | a => some (failed a r)

end Handlers

/-! ## The operations -/

section Operations

variable {n : Nat} [NeZero n] (render : Json → CString) (env : Env) (errorTime : Int)

/-- The argument check of the operations on one string, NULL or not. -/
def onKey (c : Client n) (r : Response) (op : CString → Option (Status × Response × Client n)) :
    Option CString → Option (Status × Response × Client n)
  | some key => op key
  | none => some (.invalidArgument, r, c)

/-- `etcd_put`. -/
def etcdPut (c : Client n) (key value : Option CString) (leaseId : Nat) (r : Response) :
    Option (Status × Response × Client n) :=
  onKey c r (fun key => onKey c r (fun value =>
    finish (· ≠ .ok) (some errorTime) (call handlePut (env (putRequest key value leaseId)) c r))
    value) key

/-- `etcd_get`. -/
def etcdGet (c : Client n) (key : Option CString) (r : Response) :
    Option (Status × Response × Client n) :=
  onKey c r (fun key =>
    finish (· ≠ .ok) (some errorTime) (call (handleGet render) (env (keyRequest key)) c r)) key

/-- `etcd_delete`. -/
def etcdDelete (c : Client n) (key : Option CString) (r : Response) :
    Option (Status × Response × Client n) :=
  onKey c r (fun key => finish (· ≠ .ok) none (call handleDelete (env (keyRequest key)) c r)) key

/-- `etcd_list`. -/
def etcdList (c : Client n) (pre : Option CString) (r : Response) :
    Option (Status × Response × Client n) :=
  onKey c r (fun pre => finish (fun s => s ≠ .ok && s ≠ .notFound) none
    (call (handleList render) (env (listRequest pre)) c r)) pre

/-- `etcd_put_if_revision_matches`. -/
def etcdPutIfRevisionMatches (c : Client n) (key newValue : Option CString) (expectedRevision : Nat)
    (r : Response) : Option (Status × Response × Client n) :=
  onKey c r (fun key => onKey c r (fun newValue =>
    finish (fun s => s ≠ .ok && s ≠ .casFailed) none
      (call handleTxn (env (txnRequest key newValue expectedRevision)) c r)) newValue) key

end Operations

end Sirah.Etcd
