import Sirah.ApiServer.ListGet
import Sirah.ApiServer.Patch

/-!
# The resource version of a pod

Three endpoints report a `metadata.resourceVersion` for one stored pod, and take it from three fields of
`etcd_response_t`: `endpoint_create_pod_etcd` from the revision in the header of the put,
`endpoint_list_pods_etcd` from the key's version counter, and `endpoint_get_pod_etcd` from `revision`,
which `etcd_get` leaves at 0.

`OneVersion` is what the version is for: as long as nobody writes the pod, get and list report what the
write reported, and after another write something else. **`one_version_never`**: no write of a pod is
followed by a get that reports its version.
-/

namespace Sirah.ApiServer

open Etcd Runs

/-- The version an object reports, NULL if none. -/
def reportedVersion (obj : Json) : Json := (obj.get "metadata").get "resourceVersion"

/-- Does a request write a key? -/
def Request.Writes (json : JsonC) (key : CString) : Request → Prop
  | create kind ns body _ _ => ∃ obj name, named json body = some (obj, name) ∧
    kind.key ns (some name) = key
  | delete kind ns name _ => kind.key ns name = key

section

variable {n : Nat} [NeZero n]

/-- A request that writes a pod, with its reply and the world after it. -/
inductive Wrote (json : JsonC) (w : World n) (ns : Option CString) (name : CString) :
    Reply → World n → Prop where
  | post {now : Nat} {uid : CString} {body : Option CString} {obj : Json} {reply : Reply}
      {w' : World n} (hnamed : named json body = some (obj, name))
      (hpost : endpointCreatePodEtcd json now w ns uid body = some (reply, w')) :
      Wrote json w ns name reply w'
  | patch {now : Nat} {body contentType : Option CString} {reply : Reply} {w' : World n}
      (hpatch : endpointPatchPodEtcd json now w [] ns (some name) body contentType = some (reply, w'))
      (hcode : reply.code < 400) : Wrote json w ns name reply w'

/-- **One version for one state**, after a write of a pod. -/
structure OneVersion (json : JsonC) (ns : Option CString) (name : CString) (reply : Reply)
    (w : World n) : Prop where
  same : ∀ (later : List Request) (now : Nat),
    (∀ request ∈ later, ¬ request.Writes json (buildPodEtcdKey ns (some name))) →
    ∃ got doc items item w', Found json now (run (step json) w later) .pod ns name got ∧
      endpointListPodsEtcd json now (run (step json) w later) ns = some (⟨200, .doc doc⟩, w') ∧
      doc.getEx "items" = some (.arr items) ∧ item ∈ items ∧ SameObject (got.object json) item ∧
      reportedVersion (got.object json) = reportedVersion (reply.object json) ∧
      reportedVersion item = reportedVersion (reply.object json)
  differs : ∀ (later : List Request) (now : Nat),
    (∃ request ∈ later, request.Writes json (buildPodEtcdKey ns (some name))) →
    ∀ got, Found json now (run (step json) w later) .pod ns name got →
      reportedVersion (got.object json) ≠ reportedVersion (reply.object json)

/-! ## What the endpoints report -/

omit [NeZero n] in
/-- An object that has got a revision in its metadata reports it. -/
theorem reportedVersion_withResourceVersion {obj obj' : Json} {revision : Nat}
    (h : withResourceVersion obj revision = some obj') :
    reportedVersion obj' = .null ∨ reportedVersion obj' = revisionToResourceVersion revision := by
  unfold withResourceVersion at h
  split at h
  · rename_i hnull
    cases h
    exact .inl (by rw [reportedVersion, hnull]; rfl)
  · rename_i hmeta
    obtain ⟨ms, rfl, hms⟩ := Json.exists_of_get_ne_null hmeta
    obtain ⟨metadata, hadd, h⟩ := Option.bind_eq_some_iff.mp h
    cases h
    refine .inr ?_
    unfold Json.add at hadd
    split at hadd
    · cases hadd
      simp [reportedVersion, Json.get, Json.getEx]
    · cases hadd

/-- **Get reports 0**, or no version for a pod without metadata. -/
theorem get_reports_zero {json : JsonC} {now : Nat} {w : World n} (hw : Ready w.client)
    {ns : Option CString} {name : CString} {got : Reply} (h : Found json now w .pod ns name got) :
    reportedVersion (got.object json) = .null ∨
      reportedVersion (got.object json) = revisionToResourceVersion 0 := by
  obtain ⟨hcode, w', hget⟩ := h
  obtain ⟨r, c, hget', -, hrev, -⟩ := managerGet_spec json.render hw now (buildPodEtcdKey ns (some name))
  simp only [Kind.get, endpointGetPodEtcd, onPodName] at hget
  split at hget
  · cases hget
    cases hcode
  · cases hget
    cases hcode
  · rename_i heq
    cases heq
    simp only [hget', Option.bind_eq_bind, Option.bind_some] at hget
    obtain ⟨value, -, hget⟩ := Option.bind_eq_some_iff.mp hget
    split at hget
    · cases hget
      cases hcode
    · obtain ⟨obj, hobj, hget⟩ := Option.bind_eq_some_iff.mp hget
      cases hget
      rw [hrev] at hobj
      exact reportedVersion_withResourceVersion hobj

omit [NeZero n] in
theorem Versioned.reported {rv obj : Json} (h : Versioned rv obj) : reportedVersion obj = rv := by
  obtain ⟨ms, mm, rfl, hm, hrv⟩ := h
  simp [reportedVersion, Json.get, Json.getEx, hm, hrv]

/-- No patch writes a pod: a stored one is answered with an error, and for an absent one the parser gets
a NULL. -/
theorem patchPod_never_writes {json : JsonC} {now : Nat} {w : World n} (hw : Ready w.client)
    {ns body contentType : Option CString} {name : CString} :
    Refused (endpointPatchPodEtcd json now w [] ns (some name) body contentType) := by
  cases hfind : w.server.find (buildPodEtcdKey ns (some name)) with
  | some kv => exact patchPod_refused hw hfind
  | none =>
    obtain ⟨r, c, hget, -, -, hval⟩ := managerGet_spec json.render hw now
      (buildPodEtcdKey ns (some name))
    rw [hfind, Option.bind_none] at hval
    unfold endpointPatchPodEtcd onPodName
    split
    · exact refused_some (by decide)
    · exact refused_some (by decide)
    · rename_i heq
      cases heq
      split
      · exact refused_some (by decide)
      · exact refused_some (by decide)
      · simp only [onCurrent, hget, Option.bind_eq_bind, Option.bind_some, hval, Option.bind_none]
        exact refused_none

/-- A ready client stays ready. -/
theorem ready_step {json : JsonC} {w : World n} (hw : Ready w.client) (request : Request) :
    Ready (step json w request).client := by
  cases request with
  | create kind ns body now uid =>
    cases hnamed : named json body with
    | none =>
      obtain ⟨reply, hcreate, -⟩ := create_rejected (w := w) hnamed kind ns now uid
      simp only [step, hcreate, Option.map_some, Option.getD_some]
      exact hw
    | some accepted =>
      obtain ⟨stored, hstored, -⟩ := (named_hasMeta hnamed).toStore now kind
      obtain ⟨doc, c, hcreate, hc, -⟩ := create_accepted hw kind ns now uid hnamed hstored
      simp only [step, hcreate, Option.map_some, Option.getD_some]
      exact hc
  | delete kind ns name now =>
    obtain ⟨reply, c, hc, hdel | hdel⟩ := delete_spec hw kind ns name now
    · simp only [step, hdel, Option.map_some, Option.getD_some]
      exact hc
    · simp only [step, hdel, Option.map_some, Option.getD_some]
      exact hc

theorem ready_run {json : JsonC} {w : World n} (hw : Ready w.client) (requests : List Request) :
    Ready (run (step json) w requests).client :=
  AllStates.run_mem (Q := fun w : World n => Ready w.client)
    (allStates_of_step (fun _ request h => ready_step h request) hw)

/-- **Get never reports what the post reported**, whatever comes after the post. -/
theorem get_never_reports_post {json : JsonC} {w w' : World n} (hw : Ready w.client)
    {ns body : Option CString} {name uid : CString} {obj : Json} {reply : Reply} {now : Nat}
    (hnamed : named json body = some (obj, name))
    (hpost : endpointCreatePodEtcd json now w ns uid body = some (reply, w')) (later : List Request)
    (later' : Nat) (got : Reply) (hgot : Found json later' (run (step json) w' later) .pod ns name got) :
    reportedVersion (got.object json) ≠ reportedVersion (reply.object json) := by
  obtain ⟨stored, hstored, -⟩ := (named_hasMeta hnamed).toStore now .pod
  obtain ⟨doc, c, hcreate, hc, hversioned⟩ := create_accepted hw .pod ns now uid hnamed hstored
  cases hpost.symm.trans hcreate
  rw [show Reply.object json ⟨201, .doc doc⟩ = doc from rfl, hversioned.reported]
  rcases get_reports_zero (ready_run hc later) hgot with hnull | hzero
  · rw [hnull]
    exact nofun
  · rw [hzero]
    intro heq
    have := CString.ofNat_inj (Json.str.inj heq)
    omega

/-- **Never**: whatever wrote a pod, a get after it reports another version. -/
theorem one_version_never {json : JsonC} {w w' : World n} (hw : Ready w.client) {ns : Option CString}
    {name : CString} {reply : Reply} (h : Wrote json w ns name reply w') :
    ¬ OneVersion json ns name reply w' := by
  intro hone
  cases h with
  | patch hpatch hcode =>
    have := patchPod_never_writes hw reply w' hpatch
    omega
  | post hnamed hpost =>
    obtain ⟨got, -, -, -, -, hfound, -, -, -, -, hsame, -⟩ := hone.same [] 0 nofun
    exact get_never_reports_post hw hnamed hpost [] 0 got hfound hsame

end

/-- A post of the pod `web`. -/
theorem wrote_web : ∃ reply w', Wrote podJson (newWorld 0) none "web" reply w' ∧
    endpointCreatePodEtcd podJson 0 (newWorld 0) none [] (some nameText) = some (reply, w') := by
  have hnamed : named podJson (some nameText) = some (nameObj, CString.ofString "web") := rfl
  obtain ⟨doc, c, hcreate, -⟩ := create_accepted (w := newWorld 0) (ready_clientCreate 0) .pod none 0 [] hnamed
    (show Kind.toStore 0 nameObj .pod = some podObj from rfl)
  exact ⟨_, _, .post hnamed hcreate, hcreate⟩

theorem one_version_never_web : ∃ reply w', Wrote podJson (newWorld 0) none "web" reply w' ∧
    ¬ OneVersion podJson none "web" reply w' := by
  obtain ⟨reply, w', hwrote, -⟩ := wrote_web
  exact ⟨reply, w', hwrote, one_version_never (ready_clientCreate 0) hwrote⟩

/-- The pod `web`, posted and got, has two versions. -/
theorem web_two_versions :
    ¬ ∀ reply w', Wrote podJson (newWorld 0) none "web" reply w' → OneVersion podJson none "web" reply w' := by
  intro h
  obtain ⟨reply, w', hwrote, hpost⟩ := wrote_web
  obtain ⟨got, -, -, -, -, hfound, -, -, -, -, hsame, -⟩ := (h reply w' hwrote).same [] 0 nofun
  have hnamed : named podJson (some nameText) = some (nameObj, CString.ofString "web") := rfl
  exact get_never_reports_post (ready_clientCreate 0) hnamed hpost [] 0 got hfound hsame

end Sirah.ApiServer
