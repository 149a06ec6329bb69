import Sirah.ApiServer.Endpoints
import Sirah.Lib.Run

/-!
# List and get

What the create and delete endpoints do to the store, for the four kinds, and whether the list endpoint of
a kind then agrees with its get endpoint (`Agrees`): one item for each name for which get answers 200, the
same object up to its `resourceVersion`.

Only pods can be listed. `etcd_list` leaves `value` NULL, which the list endpoints of services,
deployments and stateful sets read, so that their lists are empty whatever is stored
(`list_other_empty`). A pod's list and get agree unless the pod's key ends in `/` (get asks for a name) or
fills the buffer (get cuts longer names to the same key).

**`list_agrees_with_get`**: in every run whose accepted creates are of pods with such names, list agrees
with get in every state, for every kind and namespace.
-/

namespace Sirah.ApiServer

open Etcd Runs

/-! ## The four kinds -/

inductive Kind where
  | pod
  | service
  | deployment
  | statefulset
  deriving DecidableEq, Repr

namespace Kind

def key : Kind → Option CString → Option CString → CString
  | pod => buildPodEtcdKey
  | service => buildServiceEtcdKey
  | deployment => buildDeploymentEtcdKey
  | statefulset => buildStatefulsetEtcdKey

section

variable {n : Nat} [NeZero n] (json : JsonC) (now : Nat) (w : World n) (ns : Option CString)

def create (uid : CString) (body : Option CString) : Kind → Option (Reply × World n)
  | pod => endpointCreatePodEtcd json now w ns uid body
  | service => endpointCreateServiceEtcd json now w ns body
  | deployment => endpointCreateDeploymentEtcd json now w ns body
  | statefulset => endpointCreateStatefulsetEtcd json now w ns body

def get (name : Option CString) : Kind → Option (Reply × World n)
  | pod => endpointGetPodEtcd json now w ns name
  | service => endpointGetServiceEtcd json now w ns name
  | deployment => endpointGetDeploymentEtcd json now w ns name
  | statefulset => endpointGetStatefulsetEtcd json now w ns name

def list : Kind → Option (Reply × World n)
  | pod => endpointListPodsEtcd json now w ns
  | service => endpointListServicesEtcd json now w ns
  | deployment => endpointListDeploymentsEtcd json now w ns
  | statefulset => endpointListStatefulsetsEtcd json now w ns

def delete (name : Option CString) : Kind → Option (Reply × World n)
  | pod => endpointDeletePodEtcd now w ns name
  | service => endpointDeleteServiceEtcd now w ns name
  | deployment => endpointDeleteDeploymentEtcd now w ns name
  | statefulset => endpointDeleteStatefulsetEtcd now w ns name

end

/-- The object a create endpoint stores. -/
def toStore (now : Nat) (obj : Json) : Kind → Option Json
  | pod => podToStore obj
  | service => versionedToStore now 0 obj
  | deployment => versionedToStore now 1 obj
  | statefulset => some obj

end Kind

/-! ## Runs of requests -/

/-- A request, with the time it is made at and the uid a new pod may get. -/
inductive Request where
  | create (kind : Kind) (ns body : Option CString) (now : Nat) (uid : CString)
  | delete (kind : Kind) (ns name : Option CString) (now : Nat)

/-- The world after a request. -/
def step {n : Nat} [NeZero n] (json : JsonC) (w : World n) : Request → World n
  | .create kind ns body now uid => ((kind.create json now w ns uid body).map Prod.snd).getD w
  | .delete kind ns name now => ((kind.delete now w ns name).map Prod.snd).getD w

/-- The object and the name in a body that a create endpoint accepts. -/
def named (json : JsonC) (body : Option CString) : Option (Json × CString) :=
  match body with
  | none | some [] => none
  | some body =>
    match json.parse body with
    | .null => none
    | obj =>
      match obj.get "metadata" with
      | .null => none
      | metadata =>
        match (metadata.get "name").getString json.render with
        | none => none
        | some name => some (obj, name)

/-! ## List and get agree -/

/-- The object in a reply. -/
def Reply.object (json : JsonC) (reply : Reply) : Json :=
  match reply.body with
  | .text text => json.parse text
  | .doc obj => obj

/-- The same object, up to `resourceVersion`. -/
def SameObject (a b : Json) : Prop := withResourceVersion a 0 = withResourceVersion b 0

/-- Get answers 200. -/
def Found {n : Nat} [NeZero n] (json : JsonC) (now : Nat) (w : World n) (kind : Kind)
    (ns : Option CString) (name : CString) (reply : Reply) : Prop :=
  reply.code = 200 ∧ ∃ w', kind.get json now w ns (some name) = some (reply, w')

/-- **List agrees with get**: the items of the list are the objects get answers, one for each name. -/
def Agrees {n : Nat} [NeZero n] (json : JsonC) (now : Nat) (w : World n) (kind : Kind)
    (ns : Option CString) : Prop :=
  ∃ (names : List CString) (items : List Json) (doc : Json) (w' : World n),
    kind.list json now w ns = some (⟨200, .doc doc⟩, w') ∧ doc.getEx "items" = some (.arr items) ∧
      names.Nodup ∧ (∀ name, name ∈ names ↔ ∃ reply, Found json now w kind ns name reply) ∧
      List.Forall₂ (fun name item => ∃ reply, Found json now w kind ns name reply ∧
        SameObject (reply.object json) item) names items

/-! ## Objects with metadata -/

/-- An object whose metadata is an object. -/
def HasMeta (obj : Json) : Prop :=
  ∃ ms mm, obj = .obj ms ∧ Json.lookup "metadata" ms = some (.obj mm)

theorem addMeta_eq {ms mm : List (CString × Json)} (h : Json.lookup "metadata" ms = some (.obj mm))
    (key : CString) (value : Json) : addMeta (.obj ms) key value =
      some (.obj (Json.set "metadata" (.obj (Json.set key value mm)) ms)) := by
  simp only [addMeta, Json.get, Json.getEx, h, Option.getD_some, Json.add, Option.bind_eq_bind,
    Option.bind_some]

theorem HasMeta.addMeta {obj : Json} (h : HasMeta obj) (key : CString) (value : Json) :
    ∃ obj', addMeta obj key value = some obj' ∧ HasMeta obj' := by
  obtain ⟨ms, mm, rfl, hm⟩ := h
  exact ⟨_, addMeta_eq hm key value, _, _, rfl, Json.lookup_set_self _ _ _⟩

theorem HasMeta.add {obj : Json} (h : HasMeta obj) (key : CString)
    (hkey : key ≠ CString.ofString "metadata") (value : Json) :
    ∃ obj', obj.add key value = some obj' ∧ HasMeta obj' := by
  obtain ⟨ms, mm, rfl, hm⟩ := h
  exact ⟨_, rfl, _, mm, rfl, (Json.lookup_set_ne hkey value ms).trans hm⟩

theorem HasMeta.addDefault {obj : Json} (h : HasMeta obj) (key : CString)
    (hkey : key ≠ CString.ofString "metadata") (value : String) :
    ∃ obj', addDefault obj key value = some obj' ∧ HasMeta obj' := by
  unfold ApiServer.addDefault
  split
  · exact h.add key hkey _
  · exact ⟨obj, rfl, h⟩

/-- The revision goes into the metadata, in place of an older one. -/
theorem HasMeta.withResourceVersion {obj : Json} (h : HasMeta obj) (revision : Nat) :
    ∃ obj', withResourceVersion obj revision = some obj' ∧ SameObject obj' obj ∧ HasMeta obj' := by
  obtain ⟨ms, mm, rfl, hm⟩ := h
  have hget : (Json.obj ms).get "metadata" = .obj mm := by simp [Json.get, Json.getEx, hm]
  have heq : ∀ rev, ApiServer.withResourceVersion (.obj ms) rev = some (.obj (Json.set "metadata"
      (.obj (Json.set "resourceVersion" (revisionToResourceVersion rev) mm)) ms)) := by
    intro rev
    simp only [ApiServer.withResourceVersion, hget, addMeta_eq hm]
  refine ⟨_, heq revision, ?_, _, _, rfl, Json.lookup_set_self _ _ _⟩
  have hlookup := Json.lookup_set_self "metadata"
    (.obj (Json.set "resourceVersion" (revisionToResourceVersion revision) mm)) ms
  unfold SameObject
  rw [heq 0]
  simp only [ApiServer.withResourceVersion, Json.get, Json.getEx, hlookup, Option.getD_some,
    addMeta_eq hlookup, Json.set_set]

/-- Every kind stores an object with metadata. -/
theorem HasMeta.toStore {obj : Json} (h : HasMeta obj) (now : Nat) (kind : Kind) :
    ∃ stored, kind.toStore now obj = some stored ∧ HasMeta stored := by
  have versioned : ∀ generation, ∃ stored, versionedToStore now generation obj = some stored ∧
      HasMeta stored := by
    intro generation
    obtain ⟨obj₁, h₁, hm₁⟩ := h.addMeta "resourceVersion" (.str (CString.ofNat (now * 1000)))
    obtain ⟨obj₂, h₂, hm₂⟩ := hm₁.addMeta "generation" (.int generation)
    exact ⟨obj₂, by simp only [versionedToStore, h₁, Option.bind_eq_bind, Option.bind_some, h₂], hm₂⟩
  cases kind with
  | pod =>
    obtain ⟨obj₁, h₁, hm₁⟩ := h.add "status" (by decide)
      (.obj [("phase", .str ("Pending" : String)), ("conditions", .arr []),
        ("containerStatuses", .arr [])])
    obtain ⟨obj₂, h₂, hm₂⟩ := hm₁.addDefault "apiVersion" (by decide) "v1"
    obtain ⟨obj₃, h₃, hm₃⟩ := hm₂.addDefault "kind" (by decide) "Pod"
    refine ⟨obj₃, ?_, hm₃⟩
    simp only [Kind.toStore, podToStore, Option.bind_eq_bind, h₁, Option.bind_some, h₂, h₃]
  | service => exact versioned 0
  | deployment => exact versioned 1
  | statefulset => exact ⟨obj, rfl, h⟩

/-! ## What the requests do to the store -/

theorem named_hasMeta {json : JsonC} {body : Option CString} {obj : Json} {name : CString}
    (h : named json body = some (obj, name)) : HasMeta obj := by
  unfold named at h
  split at h
  · cases h
  · cases h
  · split at h
    · cases h
    · split at h
      · cases h
      · split at h
        · cases h
        · rename_i text _ _ _ _ hmeta _ _ hname
          cases h
          obtain ⟨ms, hobj, hms⟩ := Json.exists_of_get_ne_null hmeta
          have hne : ((json.parse text).get "metadata").get "name" ≠ .null := by
            intro hnull
            rw [hnull] at hname
            cases hname
          obtain ⟨mm, hmm, -⟩ := Json.exists_of_get_ne_null hne
          exact ⟨ms, mm, hobj, hmm ▸ hms⟩

section

variable {n : Nat} {json : JsonC} {w : World n}

/-- A body that is not accepted is answered 400; of an accepted one the rest of the endpoint gets the
object and the name. -/
theorem onNamed_none {body : Option CString} (h : named json body = none)
    (invalid nameRequired : CString) (rest : Json → CString → Option (Reply × World n)) :
    ∃ reply, onNamed json w invalid nameRequired body rest = some (reply, w) ∧ reply.code = 400 := by
  unfold named at h
  unfold onNamed
  split
  · exact ⟨_, rfl, rfl⟩
  · exact ⟨_, rfl, rfl⟩
  · split
    · exact ⟨_, rfl, rfl⟩
    · split
      · exact ⟨_, rfl, rfl⟩
      · split
        · exact ⟨_, rfl, rfl⟩
        · simp_all

theorem onNamed_some {body : Option CString} {obj : Json} {name : CString}
    (h : named json body = some (obj, name)) (invalid nameRequired : CString)
    (rest : Json → CString → Option (Reply × World n)) :
    onNamed json w invalid nameRequired body rest = rest obj name := by
  unfold named at h
  unfold onNamed
  split at h
  · cases h
  · cases h
  · split at h
    · cases h
    · split at h
      · cases h
      · split at h
        · cases h
        · simp_all

variable [NeZero n]

/-- An object with a revision in its metadata. -/
def Versioned (rv obj : Json) : Prop :=
  ∃ ms mm, obj = .obj ms ∧ Json.lookup "metadata" ms = some (.obj mm) ∧
    Json.lookup "resourceVersion" mm = some rv

omit [NeZero n] in
theorem HasMeta.versioned {obj : Json} (h : HasMeta obj) (rv : Json) :
    ∃ obj', ApiServer.addMeta obj "resourceVersion" rv = some obj' ∧ Versioned rv obj' := by
  obtain ⟨ms, mm, rfl, hm⟩ := h
  exact ⟨_, addMeta_eq hm _ _, _, _, rfl, Json.lookup_set_self _ _ _, Json.lookup_set_self _ _ _⟩

theorem Versioned.addMeta {rv obj : Json} (h : Versioned rv obj) (key : CString)
    (hkey : key ≠ CString.ofString "resourceVersion") (value : Json) :
    ∃ obj', ApiServer.addMeta obj key value = some obj' ∧ Versioned rv obj' := by
  obtain ⟨ms, mm, rfl, hm, hrv⟩ := h
  exact ⟨_, addMeta_eq hm _ _, _, _, rfl, Json.lookup_set_self _ _ _,
    (Json.lookup_set_ne hkey value mm).trans hrv⟩

theorem Versioned.addDefault {rv obj : Json} (h : Versioned rv obj) (key : CString)
    (hkey : key ≠ CString.ofString "metadata") (value : String) :
    ∃ obj', ApiServer.addDefault obj key value = some obj' ∧ Versioned rv obj' := by
  unfold ApiServer.addDefault
  split
  · obtain ⟨ms, mm, rfl, hm, hrv⟩ := h
    exact ⟨_, rfl, _, mm, rfl, (Json.lookup_set_ne hkey _ ms).trans hm, hrv⟩
  · exact ⟨obj, rfl, h⟩

/-- An accepted create stores the object under its key, and answers 201 with the store's revision. -/
theorem create_accepted (hw : Ready w.client) (kind : Kind) (ns : Option CString)
    {body : Option CString} (now : Nat) (uid : CString) {obj stored : Json} {name : CString}
    (hnamed : named json body = some (obj, name)) (hstored : kind.toStore now obj = some stored) :
    ∃ doc c, kind.create json now w ns uid body = some (⟨201, .doc doc⟩,
        ⟨c, w.server.put (kind.key ns (some name)) (json.render stored)⟩) ∧ Ready c ∧
      Versioned (revisionToResourceVersion (min (w.server.revision + 1) (2 ^ 63 - 1))) doc := by
  obtain ⟨r, c, hput, hc, hrev⟩ := managerPut_spec hw now (kind.key ns (some name)) (json.render stored)
  obtain ⟨stored', hstored', hmeta⟩ := (named_hasMeta hnamed).toStore now kind
  obtain rfl : stored' = stored := Option.some.inj (hstored'.symm.trans hstored)
  obtain ⟨obj₁, h₁, hv₁⟩ := hmeta.versioned (revisionToResourceVersion r.revision)
  rw [← hrev]
  cases kind with
  | pod =>
    obtain ⟨obj₂, h₂, hv₂⟩ : ∃ obj₂, (match (obj₁.get "metadata").get "uid" with
        | .null => addMeta obj₁ "uid" (.str uid)
        | _ => some obj₁) = some obj₂ ∧ Versioned (revisionToResourceVersion r.revision) obj₂ := by
      split
      · exact hv₁.addMeta "uid" (by decide) (.str uid)
      · exact ⟨obj₁, rfl, hv₁⟩
    refine ⟨obj₂, c, ?_, hc, hv₂⟩
    simp only [Kind.create, endpointCreatePodEtcd, onNamed_some hnamed, Option.bind_eq_bind]
    simp only [Kind.toStore] at hstored
    simp only [Kind.key] at hput
    simp only [hstored, Option.bind_some, hput, h₁, Option.pure_def, Kind.key]
    split
    · rename_i hnull
      simp only [hnull] at h₂
      rw [h₂, Option.bind_some]
    · rename_i hsome
      split at h₂
      · rename_i hnull
        exact absurd hnull hsome
      · cases h₂
        rfl
  | service =>
    obtain ⟨obj₂, h₂, hv₂⟩ := hv₁.addDefault "apiVersion" (by decide) "v1"
    obtain ⟨obj₃, h₃, hv₃⟩ := hv₂.addDefault "kind" (by decide) "Service"
    refine ⟨obj₃, c, ?_, hc, hv₃⟩
    simp only [Kind.toStore] at hstored
    simp only [Kind.key] at hput
    simp only [Kind.create, endpointCreateServiceEtcd, createVersioned, onNamed_some hnamed,
      Option.bind_eq_bind, hstored, Option.bind_some, hput, h₁, h₂, h₃, Option.pure_def, Kind.key]
  | deployment =>
    obtain ⟨obj₂, h₂, hv₂⟩ := hv₁.addDefault "apiVersion" (by decide) "apps/v1"
    obtain ⟨obj₃, h₃, hv₃⟩ := hv₂.addDefault "kind" (by decide) "Deployment"
    refine ⟨obj₃, c, ?_, hc, hv₃⟩
    simp only [Kind.toStore] at hstored
    simp only [Kind.key] at hput
    simp only [Kind.create, endpointCreateDeploymentEtcd, createVersioned, onNamed_some hnamed,
      Option.bind_eq_bind, hstored, Option.bind_some, hput, h₁, h₂, h₃, Option.pure_def, Kind.key]
  | statefulset =>
    refine ⟨obj₁, c, ?_, hc, hv₁⟩
    cases hstored
    simp only [Kind.key] at hput
    simp only [Kind.create, endpointCreateStatefulsetEtcd, onNamed_some hnamed, Option.bind_eq_bind,
      hput, Option.bind_some, h₁, Option.pure_def, Kind.key]

/-- What is not accepted changes nothing. -/
theorem create_rejected {body : Option CString} (hnamed : named json body = none) (kind : Kind)
    (ns : Option CString) (now : Nat) (uid : CString) :
    ∃ reply, kind.create json now w ns uid body = some (reply, w) ∧ reply.code = 400 := by
  cases kind <;> exact onNamed_none hnamed _ _ _

/-- A delete takes its key from the store, or asks for a name and changes nothing. -/
theorem delete_spec (hw : Ready w.client) (kind : Kind) (ns name : Option CString) (now : Nat) :
    ∃ reply c, Ready c ∧ (kind.delete now w ns name = some (reply, ⟨c, w.server.delete (kind.key ns name)⟩) ∨
      kind.delete now w ns name = some (reply, ⟨c, w.server⟩)) := by
  obtain ⟨r, c, hdel, hc⟩ := managerDelete_spec hw now (kind.key ns name)
  cases kind with
  | pod =>
    simp only [Kind.key] at hdel
    simp only [Kind.delete, endpointDeletePodEtcd, onPodName]
    split
    · exact ⟨_, w.client, hw, .inr rfl⟩
    · exact ⟨_, w.client, hw, .inr rfl⟩
    · refine ⟨noContent, c, hc, .inl ?_⟩
      simp only [hdel, Option.bind_eq_bind, Option.bind_some, Option.pure_def, Kind.key]
  | _ =>
    simp only [Kind.key] at hdel
    refine ⟨noContent, c, hc, .inl ?_⟩
    simp only [Kind.delete, endpointDeleteServiceEtcd, endpointDeleteDeploymentEtcd,
      endpointDeleteStatefulsetEtcd, deleteStored, hdel, Option.bind_eq_bind, Option.bind_some,
      Option.pure_def, Kind.key]

/-! ## A store of pods -/

variable (json) in
/-- A stored pod that can be listed and got. -/
structure PodKv (kv : Kv) : Prop where
  isPod : CString.ofString "/sirah/pods/" <+: kv.key
  length : kv.key.length ≤ 510
  last : kv.key.getLast? ≠ some 47
  value : kv.value ≠ []
  reads : HasMeta (json.parse kv.value)

variable (json w) in
/-- Nothing but such pods is stored. -/
structure OnlyPods : Prop where
  ready : Ready w.client
  pods : ∀ kv ∈ w.server.kvs, PodKv json kv

omit [NeZero n] in
theorem path_last (resource : CString) (ns : Option CString) :
    ∃ p, p ≠ [] ∧ resourcePath resource ns = p ++ [47] :=
  ⟨_, by simp [CString.ofString], rfl⟩

/-- The kvs a list of pods asks for. -/
def listedPods (s : Server) (ns : Option CString) : List Kv :=
  let pre := CString.snprintf 512 (resourcePath "pods" ns)
  s.range pre (rangeEnd pre)

omit [NeZero n] in
/-- They are those below the namespace's path. -/
theorem mem_listedPods (h : OnlyPods json w) (ns : Option CString) (kv : Kv) :
    kv ∈ listedPods w.server ns ↔ kv ∈ w.server.kvs ∧ resourcePath "pods" ns <+: kv.key := by
  obtain ⟨p, hp, hpath⟩ := path_last "pods" ns
  have hplen : 0 < p.length := List.length_pos_iff.mpr hp
  have hpre : 1 < (CString.snprintf 512 (resourcePath "pods" ns)).length := by
    simp only [CString.snprintf, List.length_take, hpath, List.length_append, List.length_singleton]
    omega
  unfold listedPods
  rw [(w.server.range_perm _ _).mem_iff, List.mem_filter, Server.inRange_rangeEnd hpre]
  refine and_congr_right fun hkv => ?_
  have hlen := (h.pods kv hkv).length
  by_cases hlong : (resourcePath "pods" ns).length < 512
  · rw [CString.snprintf_of_lt hlong, hpath, List.getLast?_concat]
    exact and_iff_right (by decide)
  · -- a path that fills the buffer is longer than every key
    have hprelen : (CString.snprintf 512 (resourcePath "pods" ns)).length = 511 := by
      simp only [CString.snprintf, List.length_take]
      omega
    refine iff_of_false (fun hpk => ?_) fun hpk => ?_
    · have := hpk.2.length_le
      omega
    · have := hpk.length_le
      omega

omit [NeZero n] in
theorem PodKv.sent {kv : Kv} (h : PodKv json kv) : kv.sent = some kv.value := if_neg h.value

/-- Get finds every stored pod below the namespace's path. -/
theorem get_pod_found (h : OnlyPods json w) {kv : Kv} (hkv : kv ∈ w.server.kvs) {ns : Option CString}
    {name : CString} (hkey : kv.key = resourcePath "pods" ns ++ name) (now : Nat) :
    ∃ obj, Found json now w .pod ns name ⟨200, .doc obj⟩ ∧ SameObject obj (json.parse kv.value) := by
  have hpod := h.pods kv hkv
  obtain ⟨p, -, hpath⟩ := path_last "pods" ns
  have hname : name ≠ [] := by
    rintro rfl
    rw [List.append_nil, hpath] at hkey
    exact hpod.last (by rw [hkey, List.getLast?_concat])
  have hfit : buildPodEtcdKey ns (some name) = kv.key := by
    rw [hkey]
    exact CString.snprintf_of_lt (by have := hpod.length; rw [hkey] at this; exact this.trans_lt (by decide))
  obtain ⟨r, c, hget, -, hrev, hval⟩ := managerGet_spec json.render h.ready now kv.key
  rw [Server.find_of_mem hkv, Option.bind_some, hpod.sent] at hval
  obtain ⟨obj, hobj, hsame, -⟩ := hpod.reads.withResourceVersion 0
  obtain ⟨ms, mm, hparse, -⟩ := hpod.reads
  refine ⟨obj, ⟨rfl, ⟨c, w.server⟩, ?_⟩, hsame⟩
  rw [hparse] at hobj
  simp only [Kind.get, endpointGetPodEtcd, onPodName, hfit, hget, Option.bind_eq_bind,
    Option.bind_some, hval, hrev, hparse, hobj, Option.pure_def]

/-- What get finds is stored below the namespace's path. -/
theorem get_pod_stored (h : OnlyPods json w) {ns : Option CString} {name : CString} {now : Nat}
    {reply : Reply} (hf : Found json now w .pod ns name reply) :
    ∃ kv ∈ w.server.kvs, kv.key = resourcePath "pods" ns ++ name := by
  obtain ⟨hcode, w', hget⟩ := hf
  obtain ⟨r, c, hget', -, -, hval⟩ := managerGet_spec json.render h.ready now
    (buildPodEtcdKey ns (some name))
  cases hfind : w.server.find (buildPodEtcdKey ns (some name)) with
  | none =>
    -- without a value the process is gone, and without a name get asks for one
    rw [hfind, Option.bind_none] at hval
    simp only [Kind.get, endpointGetPodEtcd, onPodName] at hget
    split at hget
    · cases hget
      cases hcode
    · cases hget
      cases hcode
    · rename_i heq
      cases heq
      simp only [hget', Option.bind_eq_bind, Option.bind_some, hval, Option.bind_none] at hget
      cases hget
  | some kv =>
    obtain ⟨hkv, hkey⟩ := Server.find_some hfind
    refine ⟨kv, hkv, ?_⟩
    have hlen := (h.pods kv hkv).length
    rw [hkey] at hlen ⊢
    refine CString.snprintf_of_lt ?_
    simp only [buildPodEtcdKey, buildEtcdKey, CString.snprintf, List.length_take] at hlen
    simp only [Option.getD_some] at hlen ⊢
    omega

/-! ## Lists -/

/-- The items of a list of pods are the stored ones, one for each. -/
theorem podItems_spec : ∀ {kvs : List Kv} {versions : List Nat}, (∀ kv ∈ kvs, PodKv json kv) →
    versions.length = kvs.length → ∃ items, podItems json ((kvs.map Kv.value).zip versions) = some items ∧
      List.Forall₂ (fun kv item => SameObject (json.parse kv.value) item) kvs items
  | [], [], _, _ => ⟨[], rfl, .nil⟩
  | kv :: kvs, version :: versions, h, hlen => by
    obtain ⟨items, hitems, hall⟩ := podItems_spec (fun x hx => h x (List.mem_cons_of_mem kv hx))
      (Nat.succ.inj hlen)
    have hpod := h kv List.mem_cons_self
    obtain ⟨item, hitem, hsame, -⟩ := hpod.reads.withResourceVersion version
    obtain ⟨ms, mm, hparse, -⟩ := hpod.reads
    refine ⟨item :: items, ?_, .cons hsame.symm hall⟩
    rw [hparse] at hitem
    simp only [List.map_cons, List.zip_cons_cons, podItems, hparse, hitem, Option.bind_eq_bind,
      Option.bind_some, hitems, Option.pure_def]

theorem list_pods (h : OnlyPods json w) (ns : Option CString) (now : Nat) :
    ∃ items w', Kind.list json now w ns .pod = some (⟨200, .doc (listDoc "v1" "PodList" items)⟩, w') ∧
      List.Forall₂ (fun kv item => SameObject (json.parse kv.value) item) (listedPods w.server ns)
        items := by
  obtain ⟨r, c, hlist, -, -, hvals, hlen⟩ := managerList_spec json.render h.ready now
    (CString.snprintf 512 (resourcePath "pods" ns)) fun kv hkv => (h.pods kv hkv).value
  rw [hvals, List.length_map] at hlen
  obtain ⟨items, hitems, hall⟩ := podItems_spec
    (fun kv hkv => h.pods kv ((mem_listedPods h ns kv).mp hkv).1) hlen
  refine ⟨items, ⟨c, w.server⟩, ?_, hall⟩
  unfold listedPods at hitems
  simp only [Kind.list, endpointListPodsEtcd, hlist, Option.bind_eq_bind, Option.bind_some, hvals,
    hitems, Option.pure_def]

/-- **The other lists are empty**, whatever is stored. -/
theorem list_other_empty (hw : Ready w.client) (hval : ∀ kv ∈ w.server.kvs, kv.value ≠ []) {kind : Kind}
    (hkind : kind ≠ .pod) (ns : Option CString) (now : Nat) :
    ∃ doc w', kind.list json now w ns = some (⟨200, .doc doc⟩, w') ∧
      doc.getEx "items" = some (.arr []) := by
  have lines : ∀ resource apiVersion kindName, ∃ doc w',
      listLines json now w ns resource apiVersion kindName = some (⟨200, .doc doc⟩, w') ∧
        doc.getEx "items" = some (.arr []) := by
    intro resource apiVersion kindName
    obtain ⟨r, c, hlist, -, hnone, -⟩ := managerList_spec json.render hw now
      (CString.snprintf 256 (resourcePath resource ns)) hval
    refine ⟨listDoc apiVersion kindName [], ⟨c, w.server⟩, ?_, rfl⟩
    simp only [listLines, hlist, Option.bind_eq_bind, Option.bind_some, hnone, Option.pure_def]
  cases kind with
  | pod => exact absurd rfl hkind
  | service => exact lines _ _ _
  | deployment => exact lines _ _ _
  | statefulset => exact lines _ _ _

omit [NeZero n] in
/-- The first byte of the resource is in the key. -/
theorem take_buildEtcdKey (c : UInt8) (resource : CString) {size : Nat} (hsize : 8 < size)
    (ns name : Option CString) :
    (buildEtcdKey (c :: resource) size ns name).take 8 = CString.ofString "/sirah/" ++ [c] := by
  unfold buildEtcdKey CString.snprintf
  rw [List.take_take, min_eq_left (by omega), resourcePath, List.append_assoc, List.append_assoc,
    List.append_assoc, List.append_assoc, List.cons_append, List.take_append]
  rfl

omit [NeZero n] in
/-- The keys of the other kinds are no pods'. -/
theorem key_other {kind : Kind} (hkind : kind ≠ .pod) (ns name : Option CString) :
    ¬ CString.ofString "/sirah/pods/" <+: kind.key ns name := by
  intro hpre
  have htake : (kind.key ns name).take 8 = CString.ofString "/sirah/p" := by
    obtain ⟨t, ht⟩ := hpre
    rw [← ht, List.take_append_of_le_length (by decide)]
    rfl
  have hother : ∀ c resource, c ≠ 112 →
      (buildEtcdKey (c :: resource) 256 ns name).take 8 ≠ CString.ofString "/sirah/p" := by
    intro c resource hc heq
    rw [take_buildEtcdKey c resource (by decide)] at heq
    have hcons : CString.ofString "/sirah/" ++ [c] = CString.ofString "/sirah/" ++ [112] := heq
    exact hc (List.singleton_inj.mp (List.append_cancel_left hcons))
  cases kind with
  | pod => exact hkind rfl
  | service => exact hother 115 _ (by decide) htake
  | deployment => exact hother 100 _ (by decide) htake
  | statefulset => exact hother 115 _ (by decide) htake

/-- Get finds nothing of the other kinds among pods. -/
theorem get_other (h : OnlyPods json w) {kind : Kind} (hkind : kind ≠ .pod) (ns : Option CString)
    (name : CString) (now : Nat) (reply : Reply) : ¬ Found json now w kind ns name reply := by
  rintro ⟨hcode, w', hget⟩
  have hfind : w.server.find (kind.key ns (some name)) = none := by
    refine Option.eq_none_iff_forall_ne_some.mpr fun kv hkv => ?_
    obtain ⟨hmem, hkey⟩ := Server.find_some hkv
    exact key_other hkind ns (some name) (hkey ▸ (h.pods kv hmem).isPod)
  obtain ⟨r, c, hget', -, -, hval⟩ := managerGet_spec json.render h.ready now (kind.key ns (some name))
  rw [hfind, Option.bind_none] at hval
  cases kind with
  | pod => exact hkind rfl
  | _ =>
    simp only [Kind.key] at hget'
    simp only [Kind.get, endpointGetServiceEtcd, endpointGetDeploymentEtcd, endpointGetStatefulsetEtcd,
      getStored, hget', Option.bind_eq_bind, Option.bind_some, hval, Option.pure_def] at hget
    cases hget
    cases hcode

/-! ## Agreement -/

/-- **A store of pods**: list agrees with get, for every kind and namespace. -/
theorem OnlyPods.agrees (h : OnlyPods json w) (now : Nat) (kind : Kind) (ns : Option CString) :
    Agrees json now w kind ns := by
  by_cases hkind : kind = .pod
  · subst hkind
    obtain ⟨items, w', hlist, hall⟩ := list_pods h ns now
    -- the names are what follows the path in the keys
    let name (kv : Kv) : CString := kv.key.drop (resourcePath "pods" ns).length
    have hname : ∀ kv ∈ listedPods w.server ns, kv.key = resourcePath "pods" ns ++ name kv := by
      intro kv hkv
      obtain ⟨t, ht⟩ := ((mem_listedPods h ns kv).mp hkv).2
      simp only [name, ← ht, List.drop_left]
    refine ⟨(listedPods w.server ns).map name, items, _, w', hlist, rfl, ?_, ?_, ?_⟩
    · refine List.Nodup.map_on ?_ ?_
      · intro a ha b hb hab
        refine List.inj_on_of_nodup_map w.server.nodup ((mem_listedPods h ns a).mp ha).1
          ((mem_listedPods h ns b).mp hb).1 ?_
        rw [hname a ha, hname b hb, hab]
      · exact (w.server.range_perm _ _).nodup_iff.mpr (w.server.nodup.of_map.filter _)
    · intro nm
      rw [List.mem_map]
      constructor
      · rintro ⟨kv, hkv, rfl⟩
        obtain ⟨obj, hfound, -⟩ := get_pod_found h ((mem_listedPods h ns kv).mp hkv).1 (hname kv hkv) now
        exact ⟨_, hfound⟩
      · rintro ⟨reply, hfound⟩
        obtain ⟨kv, hkv, hkey⟩ := get_pod_stored h hfound
        refine ⟨kv, (mem_listedPods h ns kv).mpr ⟨hkv, hkey ▸ List.prefix_append _ _⟩, ?_⟩
        simp only [name, hkey, List.drop_left]
    · rw [List.forall₂_map_left_iff]
      refine (List.forall₂_and_left _ _).mpr ⟨fun kv hkv => hkv, hall⟩ |>.imp ?_
      rintro kv item ⟨hkv, hsame⟩
      obtain ⟨obj, hfound, hobj⟩ := get_pod_found h ((mem_listedPods h ns kv).mp hkv).1 (hname kv hkv) now
      exact ⟨_, hfound, Eq.trans hobj hsame⟩
  · obtain ⟨doc, w', hlist, hitems⟩ := list_other_empty h.ready (fun kv hkv => (h.pods kv hkv).value)
      hkind ns now
    refine ⟨[], [], doc, w', hlist, hitems, List.nodup_nil, fun name => ?_, .nil⟩
    refine iff_of_false List.not_mem_nil ?_
    rintro ⟨reply, hfound⟩
    exact get_other h hkind ns name now reply hfound

end

/-! ## Runs -/

namespace Request

/-- A create that is accepted is of a pod whose key neither ends in `/` nor fills its buffer. -/
def Listable (json : JsonC) : Request → Prop
  | create kind ns body _ _ => ∀ obj name, named json body = some (obj, name) →
    kind = .pod ∧ name ≠ [] ∧ name.getLast? ≠ some 47 ∧ (resourcePath "pods" ns ++ name).length ≤ 510
  | delete _ _ _ _ => True

/-- json-c prints what an accepted create stores as a text that it reads back. -/
def ReadsBack (json : JsonC) : Request → Prop
  | create kind _ body now _ => ∀ obj name stored, named json body = some (obj, name) →
    kind.toStore now obj = some stored →
    json.render stored ≠ [] ∧ json.parse (json.render stored) = stored
  | delete _ _ _ _ => True

end Request

variable {n : Nat} [NeZero n] {json : JsonC}

omit [NeZero n] in
/-- An accepted pod, as it is stored. -/
theorem podKv_create {kv : Kv} {ns : Option CString} {name : CString} {stored : Json}
    (hkey : kv.key = buildPodEtcdKey ns (some name)) (hvalue : kv.value = json.render stored)
    (hname : name ≠ []) (hlast : name.getLast? ≠ some 47)
    (hlen : (resourcePath "pods" ns ++ name).length ≤ 510) (hmeta : HasMeta stored)
    (hreads : json.render stored ≠ [] ∧ json.parse (json.render stored) = stored) : PodKv json kv := by
  have hfit : kv.key = resourcePath "pods" ns ++ name := by
    rw [hkey]
    exact CString.snprintf_of_lt (hlen.trans_lt (by decide))
  refine ⟨?_, hfit ▸ hlen, ?_, hvalue ▸ hreads.1, ?_⟩
  · rw [hfit, resourcePath]
    exact ⟨ns.getD "default" ++ [47] ++ name, by simp [CString.ofString]⟩
  · rw [hfit, List.getLast?_append_of_ne_nil _ hname]
    exact hlast
  · rw [hvalue, hreads.2]
    exact hmeta

/-- **One request** keeps a store of pods one. -/
theorem onlyPods_step {w : World n} (h : OnlyPods json w) {request : Request}
    (hl : request.Listable json) (hr : request.ReadsBack json) : OnlyPods json (step json w request) := by
  cases request with
  | create kind ns body now uid =>
    cases hnamed : named json body with
    | none =>
      obtain ⟨reply, hcreate, -⟩ := create_rejected (w := w) hnamed kind ns now uid
      simp only [step, hcreate, Option.map_some, Option.getD_some]
      exact h
    | some accepted =>
      obtain ⟨obj, name⟩ := accepted
      obtain ⟨rfl, hname, hlast, hlen⟩ := hl obj name hnamed
      obtain ⟨stored, hstored, hmeta⟩ := (named_hasMeta hnamed).toStore now .pod
      obtain ⟨doc, c, hcreate, hc, -⟩ := create_accepted h.ready .pod ns now uid hnamed hstored
      simp only [step, hcreate, Option.map_some, Option.getD_some]
      refine ⟨hc, fun kv hkv => ?_⟩
      rcases mem_putKv hkv with hold | ⟨hkey, hvalue, -⟩
      · exact h.pods kv hold
      · exact podKv_create hkey hvalue hname hlast hlen hmeta (hr obj name stored hnamed hstored)
  | delete kind ns name now =>
    obtain ⟨reply, c, hc, hdel | hdel⟩ := delete_spec h.ready kind ns name now
    · simp only [step, hdel, Option.map_some, Option.getD_some]
      exact ⟨hc, fun kv hkv => h.pods kv (List.mem_of_mem_filter hkv)⟩
    · simp only [step, hdel, Option.map_some, Option.getD_some]
      exact ⟨hc, h.pods⟩

/-- An accepted create of another kind is never listed: get finds the object and the list is empty. -/
theorem created_not_listed {w : World n} (hw : Ready w.client) (hval : ∀ kv ∈ w.server.kvs, kv.value ≠ [])
    {kind : Kind} (hkind : kind ≠ .pod) {ns body : Option CString} {now : Nat} {uid name : CString}
    {obj stored : Json} (hnamed : named json body = some (obj, name))
    (hstored : kind.toStore now obj = some stored) (hrender : json.render stored ≠ []) (later : Nat) :
    ¬ Agrees json later (step json w (.create kind ns body now uid)) kind ns := by
  obtain ⟨doc, c, hcreate, hc, -⟩ := create_accepted hw kind ns now uid hnamed hstored
  simp only [step, hcreate, Option.map_some, Option.getD_some]
  rintro ⟨names, items, doc', w', hlist, hitems, -, hmem, hall⟩
  have hval' : ∀ kv ∈ (w.server.put (kind.key ns (some name)) (json.render stored)).kvs,
      kv.value ≠ [] := by
    intro kv hkv
    rcases mem_putKv hkv with hold | ⟨-, hvalue, -⟩
    · exact hval kv hold
    · rw [hvalue]
      exact hrender
  -- no item in the list, so no name that get finds
  obtain ⟨doc'', w'', hlist', hitems'⟩ := @list_other_empty n json
    ⟨c, w.server.put (kind.key ns (some name)) (json.render stored)⟩ _ hc hval' kind hkind ns later
  rw [hlist'] at hlist
  cases hlist
  rw [hitems'] at hitems
  cases hitems
  cases hall
  refine absurd ((hmem name).mpr ?_) List.not_mem_nil
  obtain ⟨kv, hfind, hvalue, -⟩ := w.server.find_put (kind.key ns (some name)) (json.render stored)
  obtain ⟨r, c', hget, -, -, hrval⟩ := managerGet_spec json.render (w := ⟨c, w.server.put
    (kind.key ns (some name)) (json.render stored)⟩) hc later (kind.key ns (some name))
  have hsent : r.value = some (json.render stored) := by
    rw [hrval, hfind, Option.bind_some, Kv.sent, hvalue, if_neg hrender]
  refine ⟨⟨200, .text (CString.snprintf 16384 (json.render stored))⟩, rfl,
    ⟨c', w.server.put (kind.key ns (some name)) (json.render stored)⟩, ?_⟩
  cases kind with
  | pod => exact absurd rfl hkind
  | _ =>
    simp only [Kind.key] at hget
    simp only [Kind.get, endpointGetServiceEtcd, endpointGetDeploymentEtcd,
      endpointGetStatefulsetEtcd, getStored, Kind.key, hget, Option.bind_eq_bind, Option.bind_some,
      hsent, Option.pure_def]

/-- A new API server before an empty etcd. -/
def newWorld (n : Nat) : World (n + 1) := ⟨clientCreate n, Server.empty⟩

/-- **List agrees with get** in every state of every run of listable requests. -/
theorem list_agrees_with_get (n : Nat) (json : JsonC) (requests : List Request)
    (hl : ∀ request ∈ requests, request.Listable json)
    (hr : ∀ request ∈ requests, request.ReadsBack json) :
    AllStates (step json) (fun w => ∀ now kind ns, Agrees json now w kind ns) (newWorld n) requests := by
  have hstart : OnlyPods json (newWorld n) := ⟨ready_clientCreate n, nofun⟩
  have hsteps : AllSteps (step json) (fun _ request => request.Listable json ∧ request.ReadsBack json)
      (newWorld n) requests := allSteps_of_mem fun request hmem => ⟨hl request hmem, hr request hmem⟩
  have hpods : AllStates (step json) (OnlyPods json) (newWorld n) requests :=
    allStates_of_allSteps (fun w request hw hp => onlyPods_step hw hp.1 hp.2) hstart hsteps
  exact hpods.imp fun w hw now kind ns => hw.agrees now kind ns

/-- A body with only a name, and what each kind stores of it, as json-c prints it. -/
def nameText : CString := "\x7b\"metadata\":\x7b\"name\":\"web\"\x7d\x7d"

def nameObj : Json := .obj [("metadata", .obj [("name", .str ("web" : String))])]

def podText : CString :=
  CString.ofString "\x7b \"metadata\": \x7b \"name\": \"web\" \x7d, \"status\": \x7b " ++
    CString.ofString "\"phase\": \"Pending\", \"conditions\": [ ], \"containerStatuses\": [ ] \x7d, " ++
    CString.ofString "\"apiVersion\": \"v1\", \"kind\": \"Pod\" \x7d"

def podObj : Json :=
  .obj [("metadata", .obj [("name", .str ("web" : String))]),
    ("status", .obj [("phase", .str ("Pending" : String)), ("conditions", .arr []),
      ("containerStatuses", .arr [])]),
    ("apiVersion", .str ("v1" : String)), ("kind", .str ("Pod" : String))]

/-- json-c on the texts of a pod. -/
def podJson : JsonC where
  parse text := if text = nameText then nameObj else if text = podText then podObj else .null
  render _ := podText

theorem list_agrees_with_get_web :
    AllStates (step podJson) (fun w => ∀ now kind ns, Agrees podJson now w kind ns) (newWorld 0)
      [.create .pod none (some nameText) 0 [], .delete .pod none (some ("web" : String)) 1] := by
  have hnamed : named podJson (some nameText) = some (nameObj, CString.ofString "web") := rfl
  have hstored : Kind.toStore 0 nameObj .pod = some podObj := rfl
  refine list_agrees_with_get 0 podJson _ ?_ ?_
  · intro request hrequest
    rcases List.mem_pair.mp hrequest with rfl | rfl
    · intro obj name h
      cases hnamed.symm.trans h
      exact ⟨rfl, by decide, by decide, by decide⟩
    · trivial
  · intro request hrequest
    rcases List.mem_pair.mp hrequest with rfl | rfl
    · intro obj name stored h hs
      cases hnamed.symm.trans h
      cases hstored.symm.trans hs
      have hne : podText ≠ nameText := by decide +kernel
      exact ⟨by decide +kernel, by simp [podJson, hne]⟩
    · trivial

/-- json-c on the texts of a stateful set, which is stored as it came. -/
def setJson : JsonC where
  parse text := if text = nameText then nameObj else .null
  render _ := "\x7b \"metadata\": \x7b \"name\": \"web\" \x7d \x7d"

/-- A stateful set that get finds and list does not show. -/
theorem statefulset_not_listed :
    ¬ AllStates (step setJson) (fun w => ∀ now kind ns, Agrees setJson now w kind ns) (newWorld 0)
      [.create .statefulset none (some nameText) 0 []] := by
  intro h
  have hagrees : Agrees setJson 0 (step setJson (newWorld 0)
    (.create .statefulset none (some nameText) 0 [])) .statefulset none := h.2.head 0 .statefulset none
  have hnamed : named setJson (some nameText) = some (nameObj, CString.ofString "web") := rfl
  have hrender : setJson.render nameObj ≠ [] := by decide +kernel
  have hval : ∀ kv ∈ (newWorld 0).server.kvs, kv.value ≠ [] := fun kv hkv => absurd hkv List.not_mem_nil
  exact created_not_listed (ready_clientCreate 0) hval (by decide) hnamed rfl hrender 0 hagrees

end Sirah.ApiServer
