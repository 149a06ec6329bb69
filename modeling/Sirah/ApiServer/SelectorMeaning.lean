import Sirah.ApiServer.Selectors
import Sirah.Lib.JsonDocument

/-!
# What a selector means

`matches_label_selector` and `matches_field_selector` of `internal/apiserver/query_parser.c`, which take the text of a
selector apart (`Sirah.ApiServer.Selectors` has them), beside what the requirements in it say of an object.

A label selector and a field selector are conjunctions. The first reads `key!=value` as a label named `key!`, and has an
answer of its own for an object without labels. The second ends with its first requirement: the inner `strtok`, for the
path, has taken the place of the outer one.

* `MetBy`, `FieldRequirement.MetBy`: what a requirement asks of an object.
* **`label_means_iff`**: a label selector means what it says **iff** `LabelsMean` holds; `labelsMean_iff_of_ordinary`
  for labels whose names do not end in `!`.
* **`field_means_iff`**: a field selector means what it says **iff** an object that meets the first requirement meets
  them all.
* `absent_label_refused`, `second_field_ignored`: an object that each gets wrong.
-/

namespace Sirah.Selectors

open CString

variable {render : Json → CString} {item labels : Json} {reqs : List Requirement}

/-! ## Labels -/

section Meaning

variable (render : Json → CString)

/-- **What a requirement asks of the labels**: that the key has the value, or that it has not. -/
def metBy (labels : Json) (r : Requirement) : Bool :=
  match r.op with
  | .eq => labelIs render labels r.key r.value
  | .ne => !labelIs render labels r.key r.value

/-- The labels of an object; no label is read from one that has none. -/
def labelsIn (item : Json) : Json := (labelsOf item).getD .null

/-- The label selector selects the object iff all its requirements are met. -/
def LabelMeans (item : Json) (reqs : List Requirement) : Prop :=
  matchesLabelSelector render item (some (selectorText reqs)) = some (reqs.all (metBy render (labelsIn item)))

/-- **When a label selector means what it says.** Without labels, it asks for one or asks for nothing. With labels, the
readings of its requirements, from the first to the last, are met if the requirements are, and else one is not met. -/
def LabelsMean (item : Json) (reqs : List Requirement) : Prop :=
  match labelsOf item with
  | none | some .null => reqs = [] ∨ ∃ r ∈ reqs, r.op = .eq
  | some labels =>
    if reqs.all (metBy render labels) then ∀ reading ∈ listReadings render labels reqs, reading = some true
    else Stops (listReadings render labels reqs)

end Meaning

theorem allHold_listReadings_iff (labels : Json) (reqs : List Requirement) :
    allHold (listReadings render labels reqs) = some (reqs.all (metBy render labels)) ↔
      if reqs.all (metBy render labels) then ∀ reading ∈ listReadings render labels reqs, reading = some true
      else Stops (listReadings render labels reqs) := by
  split
  · next hmet => rw [hmet, allHold_eq_true_iff]
  · next hmet => rw [eq_false_of_ne_true hmet, allHold_eq_false_iff]

/-- Without labels, a requirement is met if it asks for none. -/
theorem metBy_null (r : Requirement) : metBy render .null r = decide (r.op = .ne) := by
  unfold metBy
  cases r.op <;> rfl

/-- **A label selector means what it says, exactly** where `LabelsMean` holds. -/
theorem label_means_iff (render : Json → CString) (item : Json) {reqs : List Requirement}
    (h : ∀ r ∈ reqs, r.Readable) : LabelMeans render item reqs ↔ LabelsMean render item reqs := by
  unfold LabelMeans LabelsMean labelsIn
  by_cases hnil : reqs = []
  · subst hnil
    have htrue : matchesLabelSelector render item (some (selectorText [])) = some true := rfl
    rw [htrue, List.all_nil]
    split
    · exact iff_of_true rfl (.inl rfl)
    · exact iff_of_true rfl (.inl rfl)
    · exact iff_of_true rfl (List.forall_mem_nil _)
  · rw [matchesLabelSelector_eq item (selectorText_ne_nil h hnil)]
    have hnone : some false = some (reqs.all (metBy render .null)) ↔ reqs = [] ∨ ∃ r ∈ reqs, r.op = .eq := by
      rw [Option.some.injEq, eq_comm, List.all_eq_false, or_iff_right hnil]
      refine exists_congr fun r => and_congr_right fun _ => ?_
      rw [metBy_null]
      cases r.op <;> decide
    cases hlabels : labelsOf item with
    | none => exact hnone
    | some labels =>
      cases labels with
      | null => exact hnone
      | _ =>
        dsimp only
        rw [Option.getD_some, tokens_selectorText h, matchesLabelLoop_withRest h]
        exact allHold_listReadings_iff _ reqs

/-- What a list makes of a requirement if no label's name ends in `!`. -/
theorem listReading_of_ordinary (render : Json → CString) {r : Requirement}
    (h : r.op = .ne → labels.get r.readKey = .null) (behind : Option CString) :
    listReading render labels r behind = some (decide (r.op = .eq) && metBy render labels r) := by
  unfold metBy
  cases hop : r.op with
  | eq =>
    have hkey : r.readKey = r.key := by rw [Requirement.readKey, hop]
    simp only [listReading, hop, hkey]
    rfl
  | ne =>
    have hget := h hop
    have hno : labelIs render labels r.readKey = fun _ => false := by
      funext value
      rw [labelIs, hget]
      rfl
    simp only [listReading, hop, hget, hno]
    cases r.value <;> rfl

/-- Readings that are all defined stop where one is not met. -/
theorem stops_map_some_iff {f : Requirement → Bool} : Stops (reqs.map fun r => some (f r)) ↔ ∃ r ∈ reqs, f r = false := by
  rw [← allHold_eq_false_iff]
  induction reqs with
  | nil =>
    refine iff_of_false (fun h => Bool.noConfusion (Option.some.inj h)) ?_
    rintro ⟨r, hr, -⟩
    exact List.not_mem_nil hr
  | cons r reqs ih =>
    simp only [List.map_cons, List.mem_cons, exists_eq_or_imp]
    cases hr : f r with
    | true => exact ih.trans (or_iff_right Bool.noConfusion).symm
    | false => exact iff_of_true rfl (.inl rfl)

/-- **For labels as they are**, a requirement `key!=value` is never met in the code's reading: a selector that has one
means what it says for an object that does not meet it. -/
theorem labelsMean_iff_of_ordinary (hlabels : labelsOf item = some labels) (hne : labels ≠ .null)
    (h : ∀ r ∈ reqs, r.op = .ne → labels.get r.readKey = .null) :
    LabelsMean render item reqs ↔
      ((∃ r ∈ reqs, r.op = .ne) → ∃ r ∈ reqs, metBy render labels r = false) := by
  have hmean : LabelsMean render item reqs ↔
      if reqs.all (metBy render labels) then ∀ reading ∈ listReadings render labels reqs, reading = some true
      else Stops (listReadings render labels reqs) := by
    unfold LabelsMean
    rw [hlabels]
    cases labels with
    | null => exact absurd rfl hne
    | _ => rfl
  rw [hmean, listReadings_eq_map fun r hr => listReading_of_ordinary render (h r hr)]
  split
  · next hmet =>
    have hall := List.all_eq_true.mp hmet
    rw [List.forall_mem_map]
    constructor
    · rintro heq ⟨r, hr, hop⟩
      have hreading := heq r hr
      rw [hop] at hreading
      cases hreading
    · intro hno r hr
      cases hop : r.op with
      | eq => rw [hall r hr]; rfl
      | ne =>
        obtain ⟨r', hr', hfalse⟩ := hno ⟨r, hr, hop⟩
        exact absurd (hall r' hr') (by rw [hfalse]; decide)
  · next hmet =>
    obtain ⟨r, hr, hfalse⟩ := List.all_eq_false.mp (eq_false_of_ne_true hmet)
    have hunmet := eq_false_of_ne_true hfalse
    refine iff_of_true (stops_map_some_iff.mpr ⟨r, hr, ?_⟩) fun _ => ⟨r, hr, hunmet⟩
    rw [hunmet, Bool.and_false]

theorem defaultPod_label_means : LabelMeans (fun _ => []) defaultPod [⟨"app", .eq, "web"⟩] := by
  have hreadable : ∀ r ∈ [(⟨"app", .eq, "web"⟩ : Requirement)], r.Readable := by
    intro r hr
    rw [List.mem_singleton.mp hr]
    exact ⟨by decide, by decide⟩
  refine (label_means_iff (fun _ => []) defaultPod hreadable).mpr ?_
  change ∀ reading ∈ [some true], reading = some true
  exact fun reading hreading => List.mem_singleton.mp hreading

/-- **A pod that is not in production is not selected** by `env!=prod`. -/
theorem absent_label_refused :
    ¬ ∀ (render : Json → CString) (item : Json) (reqs : List Requirement), (∀ r ∈ reqs, r.Readable) →
      LabelMeans render item reqs := by
  intro h
  have hreadable : ∀ r ∈ [(⟨"env", .ne, "prod"⟩ : Requirement)], r.Readable := by
    intro r hr
    rw [List.mem_singleton.mp hr]
    exact ⟨by decide, by decide⟩
  have hmeans := h (fun _ => []) defaultPod _ hreadable
  unfold LabelMeans at hmeans
  exact absurd hmeans (by decide)

/-! ## Fields -/

/-- A requirement on a field: the keys of its path, and the text it is to be. -/
structure FieldRequirement where
  path : List CString
  value : CString
  deriving DecidableEq

namespace FieldRequirement

/-- A key of a path. -/
structure PathKey (k : CString) : Prop where
  ne_nil : k ≠ []
  dot : 46 ∉ k
  comma : 44 ∉ k
  equals : 61 ∉ k

/-- `key.key=value`, the path shorter than 256 bytes. -/
structure Valid (r : FieldRequirement) : Prop where
  path : ∀ k ∈ r.path, PathKey k
  short : (join 46 r.path).length < 256
  value : 44 ∉ r.value

def text (r : FieldRequirement) : CString := join 46 r.path ++ 61 :: r.value

/-- **What a requirement asks of an object**: that the path exists, and its text is the value. -/
def MetBy (render : Json → CString) (item : Json) (r : FieldRequirement) : Prop :=
  ∃ field, Json.valueAt r.path item = some field ∧ field.getString render = some r.value

end FieldRequirement

/-- The text of a list of requirements. -/
def fieldSelectorText (reqs : List FieldRequirement) : CString := join 44 (reqs.map FieldRequirement.text)

/-- The field selector selects the object iff all its requirements are met. -/
def FieldMeans (render : Json → CString) (item : Json) (reqs : List FieldRequirement) : Prop :=
  matchesFieldSelector render item (some (fieldSelectorText reqs)) = true ↔ ∀ r ∈ reqs, r.MetBy render item

/-- A byte of joined parts is the separator or in one of them. -/
theorem notMem_join {c : UInt8} {delim : UInt8} (hc : c ≠ delim) : ∀ {ps : List CString}, (∀ p ∈ ps, c ∉ p) → c ∉ join delim ps
  | [], _ => List.not_mem_nil
  | [p], h => h p List.mem_cons_self
  | p :: q :: ps, h => by
    have hrest : c ∉ join delim (q :: ps) := notMem_join hc fun r hr => h r (List.mem_cons_of_mem p hr)
    rw [join, List.mem_append, List.mem_cons]
    rintro (hp | heq | hq)
    · exact h p List.mem_cons_self hp
    · exact hc heq
    · exact hrest hq

namespace FieldRequirement

variable {r : FieldRequirement}

theorem Valid.strchr_text (h : r.Valid) : strchr 61 r.text = some (join 46 r.path, r.value) :=
  strchr_append (notMem_join (by decide) fun k hk => (h.path k hk).equals)

theorem Valid.text (h : r.Valid) : r.text ≠ [] ∧ 44 ∉ r.text := by
  refine ⟨fun hnil => List.cons_ne_nil _ _ (List.append_eq_nil_iff.mp hnil).2, ?_⟩
  rw [FieldRequirement.text, List.mem_append, List.mem_cons]
  rintro (hpath | heq | hvalue)
  · exact notMem_join (by decide) (fun k hk => (h.path k hk).comma) hpath
  · exact absurd heq (by decide)
  · exact h.value hvalue

/-- **The path is followed** key by key. -/
theorem Valid.followPath (h : r.Valid) (item : Json) :
    followPath item (join 46 r.path) = (Json.valueAt r.path item).getD .null := by
  have hlen : r.path.length ≤ (join 46 r.path).length := length_le_length_join fun k hk => (h.path k hk).ne_nil
  have hshort := h.short
  unfold Selectors.followPath
  rw [List.take_of_length_le (by omega), tokens_join (by omega) fun k hk => ⟨(h.path k hk).ne_nil, (h.path k hk).dot⟩,
    map_fst_withRest, Json.foldl_get]

/-- What is read at the end of a path is what the requirement asks for. -/
theorem metBy_iff (render : Json → CString) (item : Json) (r : FieldRequirement) :
    r.MetBy render item ↔ ((Json.valueAt r.path item).getD .null).getString render = some r.value := by
  unfold MetBy
  cases Json.valueAt r.path item with
  | none =>
    refine iff_of_false ?_ (Option.some_ne_none _ ∘ Eq.symm)
    rintro ⟨field, hfield, -⟩
    cases hfield
  | some field =>
    constructor
    · rintro ⟨field', hfield, htext⟩
      rwa [← Option.some.inj hfield] at htext
    · exact fun htext => ⟨field, rfl, htext⟩

end FieldRequirement

/-- **Only the first requirement counts.** -/
theorem matchesFieldSelector_cons_iff {r : FieldRequirement} {reqs : List FieldRequirement}
    (h : ∀ s ∈ r :: reqs, s.Valid) :
    matchesFieldSelector render item (some (fieldSelectorText (r :: reqs))) = true ↔ r.MetBy render item := by
  have htext : ∀ p ∈ (r :: reqs).map FieldRequirement.text, p ≠ [] ∧ 44 ∉ p := by
    intro p hp
    obtain ⟨s, hs, rfl⟩ := List.mem_map.mp hp
    exact (h s hs).text
  have hlen : ((r :: reqs).map FieldRequirement.text).length ≤ (fieldSelectorText (r :: reqs)).length :=
    length_le_length_join fun p hp => (htext p hp).1
  have hne : fieldSelectorText (r :: reqs) ≠ [] := by
    refine List.ne_nil_of_length_pos ?_
    rw [List.length_map, List.length_cons] at hlen
    omega
  have hloop : matchesFieldSelector render item (some (fieldSelectorText (r :: reqs))) =
      matchesFieldLoop render item (withRest 44 ((r :: reqs).map FieldRequirement.text)) := by
    rw [← tokens_join (Nat.le_succ_of_le hlen) htext]
    exact matchesFieldSelector_eq item hne
  have hr := h r List.mem_cons_self
  have hfirst : ∃ behind rest, withRest 44 ((r :: reqs).map FieldRequirement.text) = (r.text, behind) :: rest := by
    cases reqs with
    | nil => exact ⟨none, [], rfl⟩
    | cons s reqs => exact ⟨_, _, rfl⟩
  obtain ⟨behind, rest, hfirst⟩ := hfirst
  rw [hloop, hfirst, matchesFieldLoop, hr.strchr_text, r.metBy_iff]
  dsimp only
  rw [hr.followPath, decide_eq_true_eq]

/-- **A field selector means what it says, exactly** if the first requirement decides: an object that meets it meets the
others. -/
theorem field_means_iff (render : Json → CString) (item : Json) {reqs : List FieldRequirement} (h : ∀ r ∈ reqs, r.Valid) :
    FieldMeans render item reqs ↔
      ∀ first rest, reqs = first :: rest → first.MetBy render item → ∀ r ∈ rest, r.MetBy render item := by
  unfold FieldMeans
  cases reqs with
  | nil =>
    refine iff_of_true (iff_of_true rfl (List.forall_mem_nil _)) ?_
    intro first rest heq
    cases heq
  | cons r reqs =>
    rw [matchesFieldSelector_cons_iff h, List.forall_mem_cons]
    constructor
    · intro hiff first rest heq hfirst
      obtain ⟨rfl, rfl⟩ := List.cons.inj heq
      exact (hiff.mp hfirst).2
    · exact fun hrest => ⟨fun hr => ⟨hr, hrest r reqs rfl hr⟩, And.left⟩

/-- A pod with a name and a phase. -/
def runningPod : Json :=
  .obj [("metadata", .obj [("name", .str "web")]), ("status", .obj [("phase", .str "Running")])]

theorem pathKey_of_mem {keys : List CString}
    (h : keys.all fun k => decide (k ≠ [] ∧ 46 ∉ k ∧ 44 ∉ k ∧ 61 ∉ k)) : ∀ k ∈ keys, FieldRequirement.PathKey k := by
  intro k hk
  obtain ⟨hne, hdot, hcomma, hequals⟩ := of_decide_eq_true (List.all_eq_true.mp h k hk)
  exact ⟨hne, hdot, hcomma, hequals⟩

theorem runningPod_field_means :
    FieldMeans (fun _ => []) runningPod [⟨["metadata", "name"], "api"⟩, ⟨["status", "phase"], "Running"⟩] := by
  have hvalid : ∀ r ∈ [(⟨["metadata", "name"], "api"⟩ : FieldRequirement), ⟨["status", "phase"], "Running"⟩], r.Valid := by
    intro r hr
    rcases List.mem_pair.mp hr with rfl | rfl
    · exact ⟨pathKey_of_mem (by decide), by decide, by decide⟩
    · exact ⟨pathKey_of_mem (by decide), by decide, by decide⟩
  refine (field_means_iff (fun _ => []) runningPod hvalid).mpr fun first rest heq hfirst => ?_
  obtain ⟨rfl, rfl⟩ := List.cons.inj heq
  rw [FieldRequirement.metBy_iff] at hfirst
  exact absurd hfirst (by decide)

/-- **A second requirement is not looked at**: a running pod is selected as a pending one. -/
theorem second_field_ignored :
    ¬ ∀ (render : Json → CString) (item : Json) (reqs : List FieldRequirement), (∀ r ∈ reqs, r.Valid) →
      FieldMeans render item reqs := by
  intro h
  have hvalid : ∀ r ∈ [(⟨["metadata", "name"], "web"⟩ : FieldRequirement), ⟨["status", "phase"], "Pending"⟩], r.Valid := by
    intro r hr
    rcases List.mem_pair.mp hr with rfl | rfl
    · exact ⟨pathKey_of_mem (by decide), by decide, by decide⟩
    · exact ⟨pathKey_of_mem (by decide), by decide, by decide⟩
  have hmet := (h (fun _ => []) runningPod _ hvalid).mp (by decide)
  have hphase := hmet _ (List.mem_cons_of_mem _ List.mem_cons_self)
  rw [FieldRequirement.metBy_iff] at hphase
  exact absurd hphase (by decide)

end Sirah.Selectors
