import Sirah.ApiServer.Patch
import Sirah.Lib.JsonTree

/-!
# A plain patch of a pod

The patch of `endpoint_patch_pod_etcd` whose content type is not one of `kubectl apply`, and the route of
`/status` to it: every member of the body replaces the member of the stored object.

* `MergesPatch`: what a PATCH is expected to do. The object that goes to the write is the stored one merged with
  the body as RFC 7386 has it.
* `Covers old new`: the new value mentions every key that the old one has, at every depth, and nothing in it is
  null.
* **`mergesPatch_iff`**: a patch is a merge patch **iff** each of its members is not null and covers the value that
  it replaces.
* `endpointPatchPodEtcd_plain`: the object that the endpoint writes is this one.
* `label_patch_drops_name`: a patch of the labels drops the name.
-/

namespace Sirah.ApiServer

open Etcd Json

/-! ## The route of the status -/

/-- `content_type` in the branch of `api_handle_request` for `PATCH /pods/{name}/status`. -/
def statusContentType : CString := "application/json-patch+json"

section Endpoint

variable {n : Nat} [NeZero n] (json : JsonC) (now : Nat) (w : World n) (others : List Write)

/-- The branch of `api_handle_request` for `PATCH /pods/{name}/status`. -/
def patchPodStatus (ns name body : Option CString) : Option (Reply × World n) :=
  match body with
  | none | some [] => some (failure 400 "empty body" [], w)
  | some text =>
    match json.parse text with
    | .null => some (failure 400 "invalid JSON" [], w)
    | _ => endpointPatchPodEtcd json now w others ns name body (some statusContentType)

/-! ## What is written -/

/-- The plain merge of two objects: the members of the patch, one after the other. -/
theorem mergeFields_obj (ms ps : List (CString × Json)) : mergeFields (obj ms) (obj ps) = some (obj (setAll ps ms)) := by
  unfold mergeFields setAll
  simp only
  induction ps generalizing ms with
  | nil => rfl
  | cons p ps ih =>
    rw [List.foldlM_cons, List.foldl_cons]
    exact ih (set p.1 p.2 ms)

theorem mergePod_plain {contentType : Option CString} (hplain : isKubectlApply contentType = false)
    (podName : CString) (ms ps : List (CString × Json)) :
    mergePod json contentType podName (obj ms) (obj ps) = some (.ok (obj (setAll ps ms), 200)) := by
  unfold mergePod mergePatch
  rw [hplain]
  simp only [mergeFields_obj]
  rfl

variable {json now w others}

/-- **The object that the endpoint writes**, once it has read the stored one. -/
theorem endpointPatchPodEtcd_plain {ns contentType : Option CString} {podName text value : CString}
    {r : Response} {w' : World n} {ms ps : List (CString × Json)} (hname : podName ≠ []) (htext : text ≠ [])
    (hread : managerGet json.render now w (buildPodEtcdKey ns (some podName)) = some (.ok, r, w'))
    (hvalue : r.value = some value) (hstored : json.parse value = obj ms) (hbody : json.parse text = obj ps)
    (hplain : isKubectlApply contentType = false)
    (hfresh : stalePatch json (obj ms) (obj ps) r.revision = false) :
    ∃ onStatus, endpointPatchPodEtcd json now w others ns (some podName) (some text) contentType =
      writeBack json w' others (buildPodEtcdKey ns (some podName)) (obj (setAll ps ms)) r.revision 200 podConflict
        onStatus := by
  unfold endpointPatchPodEtcd onPodName onCurrent
  cases podName with
  | nil => exact absurd rfl hname
  | cons c podName =>
    cases text with
    | nil => exact absurd rfl htext
    | cons b text =>
      simp only [hread, hvalue, hstored, hbody, mergePod_plain json hplain, hfresh, Option.bind_eq_bind,
        Option.bind_some, Bool.false_eq_true, if_false]
      exact ⟨_, rfl⟩

/-- The route of the status ends in a plain patch. -/
theorem patchPodStatus_eq {ns name : Option CString} {text : CString} {ps : List (CString × Json)}
    (htext : text ≠ []) (hbody : json.parse text = obj ps) :
    patchPodStatus json now w others ns name (some text) =
        endpointPatchPodEtcd json now w others ns name (some text) (some statusContentType) ∧
      isKubectlApply (some statusContentType) = false := by
  refine ⟨?_, by decide⟩
  unfold patchPodStatus
  cases text with
  | nil => exact absurd rfl htext
  | cons b text => simp only [hbody]

end Endpoint

/-! ## A merge patch -/

/-- **What a PATCH is expected to do**: the object that goes to the write is the stored one merged with the body. -/
def MergesPatch (json : JsonC) (contentType : Option CString) (podName : CString) (current patch : Json) : Prop :=
  ∃ merged httpStatus, mergePod json contentType podName current patch = some (.ok (merged, httpStatus)) ∧
    MergePatched current patch merged

/-- **The new value covers the old one**: it mentions each of its keys, at every depth, and nothing in it is null. -/
inductive Covers : Json → Json → Prop
  | value {old new : Json} : ¬ IsObj new → Covers old new
  | object {old : Json} {ms : List (CString × Json)}
      (mentioned : ∀ k ∈ keys old.members, k ∈ keys ms)
      (notNull : ∀ k, lookup k ms ≠ some .null)
      (deeper : ∀ k v, lookup k ms = some v → Covers (old.get k) v) : Covers old (obj ms)

/-- **To replace is to merge** exactly where the new value covers the old one. -/
theorem mergePatched_self_iff {old new : Json} : MergePatched old new new ↔ Covers old new := by
  constructor
  · intro h
    induction new using members_induction generalizing old with
    | value new hno => exact .value hno
    | object ms ih =>
      obtain ⟨rs, hrs, kept, deleted, merged⟩ := h.of_obj
      cases hrs
      have notNull : ∀ k, lookup k ms ≠ some .null := fun k hk => by
        have hgone := deleted k hk
        rw [hk] at hgone
        cases hgone
      refine .object (fun k hk => ?_) notNull fun k v hk => ?_
      · by_contra hno
        have hkept := kept k (lookup_eq_none_iff.mpr hno)
        rw [lookup_eq_none_iff.mpr hno, getEx_eq] at hkept
        exact lookup_eq_none_iff.mp hkept.symm hk
      · exact ih k v (mem_of_lookup hk) (merged k v v hk (fun hnull => notNull k (hnull ▸ hk)) hk)
  · intro h
    induction h with
    | value hno => exact .value hno
    | @object old ms mentioned notNull deeper ih =>
      refine .object (fun k hk => ?_) (fun k hk => absurd hk (notNull k)) (fun k v hk _ => ⟨v, hk⟩) ?_
      · have hold : lookup k old.members = none :=
          lookup_eq_none_iff.mpr fun hmem => lookup_eq_none_iff.mp hk (mentioned k hmem)
        rw [hk, getEx_eq, hold]
      · intro k v r hk _ hr
        rw [hk] at hr
        cases hr
        exact ih k v hk

/-- **A plain patch is a merge patch, exactly** if each of its members covers what it replaces and is not null. -/
theorem mergesPatch_iff (json : JsonC) (podName : CString) {contentType : Option CString}
    (hplain : isKubectlApply contentType = false) {ms ps : List (CString × Json)} (hps : (keys ps).Nodup) :
    MergesPatch json contentType podName (obj ms) (obj ps) ↔
      ∀ k v, lookup k ps = some v → v ≠ .null ∧ Covers ((obj ms).get k) v := by
  unfold MergesPatch
  rw [mergePod_plain json hplain]
  have hlookup := lookup_setAll hps ms
  constructor
  · rintro ⟨merged, httpStatus, hmerged, hlaw⟩
    cases hmerged
    obtain ⟨rs, hrs, -, deleted, merged⟩ := hlaw.of_obj
    cases hrs
    intro k v hk
    have hr : lookup k (setAll ps ms) = some v := by rw [hlookup, hk, Option.some_or]
    have hv : v ≠ .null := by
      rintro rfl
      rw [deleted k hk] at hr
      cases hr
    exact ⟨hv, mergePatched_self_iff.mp (merged k v v hk hv hr)⟩
  · intro h
    refine ⟨_, _, rfl, .object (fun k hk => ?_) (fun k hk => absurd rfl (h k .null hk).1) (fun k v hk _ => ?_) ?_⟩
    · rw [hlookup, hk, Option.none_or, getEx_obj]
    · exact ⟨v, by rw [hlookup, hk, Option.some_or]⟩
    · intro k v r hk _ hr
      rw [hlookup, hk, Option.some_or] at hr
      cases hr
      exact mergePatched_self_iff.mpr (h k v hk).2

/-! ## A patch of the labels -/

/-- A pod with a name and a label. -/
def labelledPod : List (CString × Json) :=
  [("metadata", .obj [("name", .str ("web" : String)), ("labels", .obj [("app", .str ("web" : String))])])]

/-- A patch that changes the label. -/
def labelPatch : List (CString × Json) :=
  [("metadata", .obj [("labels", .obj [("app", .str ("db" : String))])])]

/-- The patch of the labels with the name beside them. -/
def namedLabelPatch : List (CString × Json) :=
  [("metadata", .obj [("name", .str ("web" : String)), ("labels", .obj [("app", .str ("db" : String))])])]

theorem mergesPatch_iff_named :
    MergesPatch webJson (some statusContentType) "web" (obj labelledPod) (obj namedLabelPatch) := by
  refine (mergesPatch_iff webJson "web" (by decide) (by decide)).mpr fun k v hk => ?_
  obtain ⟨rfl, rfl⟩ := Prod.mk.inj (List.mem_singleton.mp (mem_of_lookup hk))
  refine ⟨nofun, .object (by decide) (fun k hk => ?_) fun k v hk => ?_⟩
  · simpa using mem_of_lookup hk
  · rcases List.mem_cons.mp (mem_of_lookup hk) with heq | hmem
    · cases heq
      exact .value nofun
    · obtain ⟨rfl, rfl⟩ := Prod.mk.inj (List.mem_singleton.mp hmem)
      refine .object (by decide) (fun k hk => ?_) fun k v hk => ?_
      · simpa using mem_of_lookup hk
      · obtain ⟨rfl, rfl⟩ := Prod.mk.inj (List.mem_singleton.mp (mem_of_lookup hk))
        exact .value nofun

/-- **A patch of the labels drops the name.** -/
theorem label_patch_drops_name : ¬ ∀ (json : JsonC) (contentType : Option CString) (podName : CString)
    (ms ps : List (CString × Json)), isKubectlApply contentType = false → (keys ps).Nodup →
    MergesPatch json contentType podName (obj ms) (obj ps) := by
  intro h
  obtain ⟨merged, httpStatus, hmerged, hlaw⟩ :=
    h webJson (some statusContentType) "web" labelledPod labelPatch (by decide) (by decide)
  cases hmerged
  obtain ⟨rs, hrs, -, -, hmetadata⟩ := hlaw.of_obj
  cases hrs
  obtain ⟨rs, hrs, hkept, -, -⟩ := (hmetadata "metadata" _ _ rfl nofun rfl).of_obj
  cases hrs
  exact absurd (hkept "name" rfl) nofun

end Sirah.ApiServer
