import Sirah.Etcd.Server

/-!
# The etcd manager against a server

Model of the operations of `internal/etcd/etcd_manager.c` after `etcd_manager_init`: each is one call of
the client, whose requests a `Server` answers through its JSON gateway. The manager's own state is
statistics.

A client is `Ready` when the breaker of its endpoint lets the next attempt through. Against a server that
answers, every call of a ready client ends with its first attempt and leaves the client ready; the lemmas
`managerPut_spec`, `managerGet_spec`, `managerDelete_spec` and `managerList_spec` say what the endpoints
see of it. `managerGet_spec` has the modification revision in none of the fields the endpoints read:
`revision` stays 0.
-/

namespace Sirah.Etcd

/-! ## The gateway -/

/-- A 64-bit number. -/
def int64 (n : Nat) : Json := .str (CString.ofNat n)

/-- A field of bytes of a request. -/
def requestBytes (req : Json) (field : CString) : CString :=
  match req.getEx field with
  | some (.str s) => base64Decode s
  | _ => []

def header (s : Server) : CString × Json := ("header", .obj [("revision", int64 s.revision)])

def kvJson (kv : Kv) : Json :=
  .obj (("key", b64 kv.key) :: ("create_revision", int64 kv.createRevision) ::
    ("mod_revision", int64 kv.modRevision) :: ("version", int64 kv.version) ::
    if kv.value = [] then [] else [("value", b64 kv.value)])

/-- `/v3/kv/range`. -/
def rangeBody (s : Server) (req : Json) : Json :=
  let kvs := s.range (requestBytes req "key") (requestBytes req "range_end")
  .obj (header s ::
    if kvs = [] then [] else [("kvs", .arr (kvs.map kvJson)), ("count", int64 kvs.length)])

/-- `/v3/kv/put`. -/
def servePut (s : Server) (req : Json) : Server :=
  s.put (requestBytes req "key") (requestBytes req "value")

/-- `/v3/kv/deleterange`. -/
def serveDelete (s : Server) (req : Json) : Server := s.delete (requestBytes req "key")

/-- The world of a call that is answered 200 with `body`, at time `now`. -/
def gateway (now : Nat) (body : Json) : Env := fun _ _ => ⟨now, .http 200 body, now⟩

@[simp] theorem requestBytes_cons (key field : CString) (value : CString) (ms : List (CString × Json)) :
    requestBytes (.obj ((key, b64 value) :: ms)) field =
      if key = field then value else requestBytes (.obj ms) field := by
  by_cases h : key = field
  · simp [requestBytes, Json.getEx, Json.lookup, h, b64, base64_roundtrip]
  · simp [requestBytes, Json.getEx, Json.lookup, h]

@[simp] theorem requestBytes_nil (field : CString) : requestBytes (.obj []) field = [] := rfl

/-- The range that `etcd_list` sends. -/
theorem listRequest_key (pre : CString) : requestBytes (listRequest pre) "key" = pre := by
  rw [listRequest, requestBytes_cons, if_pos rfl]

theorem listRequest_rangeEnd (pre : CString) : requestBytes (listRequest pre) "range_end" = rangeEnd pre := by
  rw [listRequest, requestBytes_cons, if_neg (by decide), requestBytes_cons, if_pos rfl]

/-! ## The operations -/

/-- The API server's client and the etcd behind it. -/
structure World (n : Nat) where
  client : Client n
  server : Server

section Operations

variable {n : Nat} [NeZero n] (render : Json → CString) (now : Nat) (w : World n)

/-- `etcd_manager_put`; the server has served the request if the call comes back with `ETCD_OK`. -/
def managerPut (key value : CString) : Option (Status × Response × World n) :=
  let served := servePut w.server (putRequest key value 0)
  (etcdPut (gateway now (.obj [header served])) now w.client (some key) (some value) 0 .zero).map
    fun (status, r, c) => (status, r, ⟨c, if status = .ok then served else w.server⟩)

/-- `etcd_manager_get`. -/
def managerGet (key : CString) : Option (Status × Response × World n) :=
  (etcdGet render (gateway now (rangeBody w.server (keyRequest key))) now w.client (some key) .zero).map
    fun (status, r, c) => (status, r, ⟨c, w.server⟩)

/-- `etcd_manager_delete`. -/
def managerDelete (key : CString) : Option (Status × Response × World n) :=
  let served := serveDelete w.server (keyRequest key)
  (etcdDelete (gateway now (.obj [header served])) w.client (some key) .zero).map
    fun (status, r, c) => (status, r, ⟨c, if status = .ok then served else w.server⟩)

/-- `etcd_manager_list`. -/
def managerList (pre : CString) : Option (Status × Response × World n) :=
  (etcdList render (gateway now (rangeBody w.server (listRequest pre))) w.client (some pre) .zero).map
    fun (status, r, c) => (status, r, ⟨c, w.server⟩)

end Operations

/-! ## A client that reaches etcd -/

/-- The next attempt goes out. -/
structure Ready {n : Nat} (c : Client n) : Prop where
  retries : 0 < c.maxRetries
  breaker : (c.breakers c.currentEndpointIndex).state ≠ .opened

theorem ready_clientCreate (n : Nat) : Ready (clientCreate n) :=
  ⟨show (0 : Int) < 3 by decide, nofun⟩

theorem shouldAllow_of_ne_opened {cb : Breaker} (h : cb.state ≠ .opened) (now : Int) :
    shouldAllow cb now = (true, cb) := by
  unfold shouldAllow
  cases hs : cb.state with
  | opened => exact absurd hs h
  | closed => rfl
  | halfOpen => rfl

theorem recordSuccess_state {cb : Breaker} (h : cb.state ≠ .opened) :
    (recordSuccess cb).state ≠ .opened := by
  unfold recordSuccess
  cases hs : cb.state with
  | opened => exact absurd hs h
  | closed => exact fun h => BreakerState.noConfusion h
  | halfOpen => nofun

variable {n : Nat} [NeZero n]

/-- **A ready client's call**: if the answer settles it, it ends with what was made of that answer, and
the client stays ready. -/
theorem finish_call_of_ready {handle : Answer → Response → Option Handled} {body : Json} {c : Client n}
    {r r' : Response} {status : Status} (hc : Ready c)
    (hh : handle (.http 200 body) r = some ⟨status, r', .success, true⟩) (now : Nat) (req : Json)
    (isError : Status → Bool) (stamp : Option Int) :
    ∃ c', Ready c' ∧
      finish isError stamp (call handle (gateway now body req) c r) = some (status, r', c') := by
  obtain ⟨k, hk⟩ : ∃ k, c.maxRetries.toNat = k + 1 :=
    ⟨c.maxRetries.toNat - 1, by have := hc.retries; omega⟩
  unfold call
  rw [hk]
  unfold attempts
  simp only [gateway, shouldAllow_of_ne_opened hc.breaker, Attempts.setBreaker, onAnswer, hh, if_pos,
    Attempts.receive, Attempts.take, Attempts.record, Function.update_eq_self]
  unfold finish
  simp only [Bool.false_eq_true, if_false]
  refine ⟨_, ?_, rfl⟩
  split <;>
    exact ⟨hc.retries, by simpa using recordSuccess_state hc.breaker⟩

/-! ## What the endpoints see -/

/-- The value of a kv, if the gateway sends it. -/
def Kv.sent (kv : Kv) : Option CString := if kv.value = [] then none else some kv.value

theorem parseJsonString_value (render : Json → CString) (kv : Kv) :
    parseJsonString render (kvJson kv) "value" = kv.sent.map base64Encode := by
  by_cases h : kv.value = []
  · simp only [kvJson, Kv.sent, h, if_pos]
    rfl
  · simp only [kvJson, Kv.sent, h, if_false]
    rfl

theorem parseJsonString_key (render : Json → CString) (kv : Kv) :
    parseJsonString render (kvJson kv) "key" = some (base64Encode kv.key) := rfl

/-- A 64-bit number of the gateway, as `etcd_parse_json_int` reads it. -/
theorem parseJsonInt_int64 (key : CString) (k : Nat) (default : Nat) :
    parseJsonInt (.obj [(key, int64 k)]) key default = min k (2 ^ 63 - 1) := by
  have hfield : (Json.obj [(key, int64 k)]).getEx key = some (int64 k) := by
    simp [Json.getEx, Json.lookup]
  unfold parseJsonInt
  rw [hfield]
  simp only [int64, Json.getInt64, CString.atoi_ofNat, Json.clampInt64]
  omega

/-- What `etcd_put` makes of the answer: the revision of its header. -/
theorem handlePut_header (s : Server) : ∃ r, handlePut (.http 200 (.obj [header s])) .zero =
    some ⟨.ok, r, .success, true⟩ ∧ r.revision = min s.revision (2 ^ 63 - 1) := by
  have hfield : (Json.obj [header s]).getEx "header" = some (.obj [("revision", int64 s.revision)]) := by
    simp [Json.getEx, Json.lookup, header]
  have hrevision := parseJsonInt_int64 "revision" s.revision 0
  simp only [handlePut, hfield, hrevision]
  exact ⟨_, rfl, rfl⟩

/-- A put that is answered: the response has the revision of the store after it. -/
theorem managerPut_spec {w : World n} (hw : Ready w.client) (now : Nat) (key value : CString) :
    ∃ r c, managerPut now w key value = some (.ok, r, ⟨c, w.server.put key value⟩) ∧ Ready c ∧
      r.revision = min (w.server.revision + 1) (2 ^ 63 - 1) := by
  have hserved : servePut w.server (putRequest key value 0) = w.server.put key value := by
    simp [servePut, putRequest, show ¬ CString.ofString "key" = CString.ofString "value" by decide]
  obtain ⟨r, hr, hrev⟩ := handlePut_header (w.server.put key value)
  obtain ⟨c, hc, hfin⟩ := finish_call_of_ready hw hr now (putRequest key value 0) (· ≠ .ok) (some now)
  refine ⟨r, c, ?_, hc, hrev⟩
  simp only [managerPut, etcdPut, onKey, hserved, hfin]
  rfl

theorem managerDelete_spec {w : World n} (hw : Ready w.client) (now : Nat) (key : CString) :
    ∃ r c, managerDelete now w key = some (.ok, r, ⟨c, w.server.delete key⟩) ∧ Ready c := by
  have hserved : serveDelete w.server (keyRequest key) = w.server.delete key := by
    simp [serveDelete, keyRequest]
  have hr : handleDelete (.http 200 (.obj [header (w.server.delete key)])) .zero =
    some ⟨.ok, .zero, .success, true⟩ := rfl
  obtain ⟨c, hc, hfin⟩ := finish_call_of_ready hw hr now (keyRequest key) (· ≠ .ok) none
  refine ⟨.zero, c, ?_, hc⟩
  simp only [managerDelete, etcdDelete, onKey, hserved, hfin]
  rfl

/-- What `etcd_get` makes of the answer for one key: the value, and no revision. -/
theorem handleGet_range (render : Json → CString) (s : Server) (key : CString) :
    ∃ r, handleGet render (.http 200 (rangeBody s (keyRequest key))) .zero =
      some ⟨.ok, r, .success, true⟩ ∧ r.revision = 0 ∧ r.value = (s.find key).bind Kv.sent := by
  have hrange : s.range (requestBytes (keyRequest key) "key")
      (requestBytes (keyRequest key) "range_end") = (s.find key).toList := by
    rw [keyRequest, requestBytes_cons, if_pos rfl, requestBytes_cons, if_neg (by decide),
      requestBytes_nil, Server.range_key]
  unfold rangeBody
  simp only [hrange]
  cases s.find key with
  | none => exact ⟨.zero, rfl, rfl, rfl⟩
  | some kv =>
    refine ⟨readKv render (kvJson kv) .zero, rfl, rfl, ?_⟩
    simp only [readKv, parseJsonString_value, Option.bind_some]
    cases kv.sent with
    | none => rfl
    | some value => exact congrArg some (base64_roundtrip value)

theorem managerGet_spec (render : Json → CString) {w : World n} (hw : Ready w.client) (now : Nat)
    (key : CString) :
    ∃ r c, managerGet render now w key = some (.ok, r, ⟨c, w.server⟩) ∧ Ready c ∧
      r.revision = 0 ∧ r.value = (w.server.find key).bind Kv.sent := by
  obtain ⟨r, hr, hrev, hval⟩ := handleGet_range render w.server key
  obtain ⟨c, hc, hfin⟩ := finish_call_of_ready hw hr now (keyRequest key) (· ≠ .ok) (some now)
  refine ⟨r, c, ?_, hc, hrev, hval⟩
  simp only [managerGet, etcdGet, onKey, hfin]
  rfl

/-- The entry `etcd_list` makes of a kv. -/
def Kv.entry (kv : Kv) : CString × CString × Nat :=
  (kv.key, kv.value, parseJsonInt (kvJson kv) "version" 0 % 2 ^ 32)

/-- The response with the arrays of `etcd_list`. -/
def listed (kvs : List Kv) : Response :=
  let entries := kvs.map Kv.entry
  { Response.zero with kvsKeys := entries.map (·.1), kvsValues := entries.map (·.2.1),
                       kvsVersions := entries.map (·.2.2) }

/-- The arrays of `etcd_list`, for kvs the gateway sends in full. -/
theorem readKvs_map (render : Json → CString) : ∀ {kvs : List Kv}, (∀ kv ∈ kvs, kv.value ≠ []) →
    readKvs render (kvs.map kvJson) = some (kvs.map Kv.entry)
  | [], _ => rfl
  | kv :: kvs, h => by
    have ih := readKvs_map render fun x hx => h x (List.mem_cons_of_mem kv hx)
    unfold readKvs at ih ⊢
    rw [List.map_cons, List.mapM_cons, ih, parseJsonString_key, parseJsonString_value, Kv.sent,
      if_neg (h kv List.mem_cons_self)]
    simp only [Option.map_some, base64_roundtrip, Option.pure_def, Option.bind_eq_bind,
      Option.bind_some]
    rfl

/-- What `etcd_list` makes of the answer for a prefix. -/
theorem handleList_range (render : Json → CString) (s : Server) (pre : CString)
    (hval : ∀ kv ∈ s.kvs, kv.value ≠ []) :
    handleList render (.http 200 (rangeBody s (listRequest pre))) .zero =
      some ⟨.ok, listed (s.range pre (rangeEnd pre)), .success, true⟩ := by
  have hrange : s.range (requestBytes (listRequest pre) "key")
      (requestBytes (listRequest pre) "range_end") = s.range pre (rangeEnd pre) := by
    rw [listRequest_key, listRequest_rangeEnd]
  have hread : readKvs render ((s.range pre (rangeEnd pre)).map kvJson) =
      some ((s.range pre (rangeEnd pre)).map Kv.entry) :=
    readKvs_map render fun x hx =>
      hval x (List.mem_of_mem_filter ((s.range_perm pre (rangeEnd pre)).mem_iff.mp hx))
  unfold rangeBody
  simp only [hrange]
  cases hkvs : s.range pre (rangeEnd pre) with
  | nil => rfl
  | cons kv kvs =>
    rw [hkvs] at hread
    rw [if_neg (List.cons_ne_nil kv kvs)]
    have hkvs : (Json.obj [header s, ("kvs", .arr ((kv :: kvs).map kvJson)),
      ("count", int64 (kv :: kvs).length)]).getEx "kvs" = some (.arr ((kv :: kvs).map kvJson)) := rfl
    simp only [handleList, if_pos, hkvs, Json.elems, Option.bind_eq_bind, Option.bind_some, hread,
      Option.pure_def]
    rfl

/-- What the endpoints see of a list: the values, and no `value`. -/
theorem managerList_spec (render : Json → CString) {w : World n} (hw : Ready w.client) (now : Nat)
    (pre : CString) (hval : ∀ kv ∈ w.server.kvs, kv.value ≠ []) :
    ∃ r c, managerList render now w pre = some (.ok, r, ⟨c, w.server⟩) ∧ Ready c ∧ r.value = none ∧
      r.kvsValues = (w.server.range pre (rangeEnd pre)).map Kv.value ∧
      r.kvsVersions.length = r.kvsValues.length := by
  have hr := handleList_range render w.server pre hval
  obtain ⟨c, hc, hfin⟩ := finish_call_of_ready hw hr now (listRequest pre)
    (fun s => s ≠ .ok && s ≠ .notFound) none
  refine ⟨listed (w.server.range pre (rangeEnd pre)), c, ?_, hc, rfl, List.map_map, ?_⟩
  · simp only [managerList, etcdList, onKey, hfin]
    rfl
  · simp only [listed, List.length_map]

end Sirah.Etcd
