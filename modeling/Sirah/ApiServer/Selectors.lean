import Sirah.Lib.Json
import Sirah.Lib.Strtok

/-!
# Label and field selectors

Model of the selectors of `internal/apiserver/watch_manager.c` (a watch) and of `internal/apiserver/query_parser.c`
(a list). Both take the text of a selector apart by hand.

* A selector is the text of a list of requirements `key=value` and `key!=value`. `none` is what the source leaves
  undefined: a key behind `key[256]`, a value behind the copy of the text.
* `json_object_to_json_string`, which prints a label that is no string, is the parameter `render`.
* `watchReading`, `listReading`: what the two make of a requirement. Neither knows `!=`: both look for a label whose
  name ends in `!`.
* **`selectors_agree_iff`**: when they select the same objects.
* `other_namespace_watched`: a watch of one namespace by field selector takes the objects of all.
-/

namespace Sirah.Selectors

open CString

variable (render : Json → CString)

/-! ## Watches -/

/-- The test of `match_label`. What it takes for `!=` is `==`. -/
def testLabel (labels : Json) (key : CString) : CString → Bool
  | 61 :: value =>
    match labels.getEx key with
    | none => true
    | some label => label.getString render ≠ some value
  | value =>
    match labels.getEx key with
    | none => false
    | some label => label.getString render = some value

/-- The loop of `match_label`. -/
def matchLabelLoop (labels : Json) : List (CString × Option CString) → Option Bool
  | [] => some true
  | (token, _) :: rest =>
    match strchr 61 token with
    | none => matchLabelLoop labels rest
    | some (key, value) =>
      -- `key[key_len] = '\0'` has to stay inside `key[256]`
      if key.length ≥ 256 then none
      else if testLabel render labels key value then matchLabelLoop labels rest
      else some false

/-- `match_label`. -/
def matchLabel (selector : CString) : Json → Option Bool
  | .null => some true
  | labels => matchLabelLoop render labels (tokens 44 (selector.length + 1) selector)

/-- `watch_match_label_selector`. -/
def watchMatchLabelSelector (object : Json) : Option CString → Option Bool
  | none => some true
  | some labelSelector =>
    match object with
    | .null => some false
    | object =>
      match object.getEx "metadata" with
      | none => some false
      | some metadata =>
        match metadata.getEx "labels" with
        | none => some false
        | some labels => matchLabel render labelSelector labels

/-- `match_field`. -/
def matchField (selector : CString) (object : Json) : Bool :=
  if strstr selector "metadata.name=" then
    match strchr 61 selector, object.getEx "metadata" with
    | some (_, expected), some metadata =>
      match metadata.getEx "name" with
      | none => false
      | some name => name.getString render = some expected
    | _, _ => false
  else true

/-- `watch_match_field_selector`. -/
def watchMatchFieldSelector (object : Json) : Option CString → Bool
  | none => true
  | some fieldSelector =>
    match object with
    | .null => false
    | object => matchField render fieldSelector object

/-! ## Lists -/

/-- `expected_value` of `matches_label_selector`: a `!` before the `=` moves it by one byte. With an empty value that is
behind the NUL of the token. -/
def expectedValue (key value : CString) (behind : Option CString) : Option CString :=
  if 33 ∈ key then
    match value with
    | [] => behind
    | _ :: value => some value
  else some value

/-- The test of `matches_label_selector`. -/
def testListed (labels : Json) (key : CString) (neq : Bool) (expected : Option CString) : Option Bool :=
  match labels.get key with
  | .null => some neq
  | label => expected.map fun expected => decide (label.getString render = some expected) != neq

/-- The loop of `matches_label_selector`. `neq` is cleared for `!=`: only a `!` behind the `=` leaves it set. -/
def matchesLabelLoop (labels : Json) : List (CString × Option CString) → Option Bool
  | [] => some true
  | (token, behind) :: rest =>
    match strchr 61 token with
    | none => matchesLabelLoop labels rest
    | some (key, value) =>
      match testListed render labels key (decide (33 ∉ key ∧ 33 ∈ value)) (expectedValue key value behind) with
      | some true => matchesLabelLoop labels rest
      | test => test

/-- `matches_label_selector`. -/
def matchesLabelSelector (item : Json) : Option CString → Option Bool
  | none => some true
  | some [] => some true
  | some labelSelector =>
    match item.get "metadata" with
    | .null => some false
    | metadata =>
      match metadata.get "labels" with
      | .null => some false
      | labels => matchesLabelLoop render labels (tokens 44 (labelSelector.length + 1) labelSelector)

/-- The member of a path, whose parts `strtok` takes from `field_copy[256]`. -/
def followPath (item : Json) (field : CString) : Json :=
  ((tokens 46 256 (field.take 255)).map Prod.fst).foldl Json.get item

/-- The loop of `matches_field_selector`. It ends with the first requirement: the `strtok` of its path has taken the
place of the one of the selector, and finds nothing more. -/
def matchesFieldLoop (item : Json) : List (CString × Option CString) → Bool
  | [] => true
  | (token, _) :: rest =>
    match strchr 61 token with
    | none => matchesFieldLoop item rest
    | some (field, value) => (followPath item field).getString render = some value

/-- `matches_field_selector`. -/
def matchesFieldSelector (item : Json) : Option CString → Bool
  | none => true
  | some [] => true
  | some fieldSelector => matchesFieldLoop render item (tokens 44 (fieldSelector.length + 1) fieldSelector)

/-! ## Requirements -/

inductive Operator where
  | eq
  | ne
  deriving DecidableEq

structure Requirement where
  key : CString
  op : Operator
  value : CString
  deriving DecidableEq

namespace Requirement

/-- Neither `,` nor `=` nor `!`. -/
def Plain (s : CString) : Prop := 44 ∉ s ∧ 61 ∉ s ∧ 33 ∉ s

instance (s : CString) : Decidable (Plain s) := inferInstanceAs (Decidable (_ ∧ _))

structure Valid (r : Requirement) : Prop where
  key : Plain r.key
  value : Plain r.value
  short : r.key.length < 256

/-- What the list's parser needs: it has no buffer for the key. -/
structure Readable (r : Requirement) : Prop where
  key : Plain r.key
  value : Plain r.value

theorem Valid.readable {r : Requirement} (h : r.Valid) : r.Readable := ⟨h.key, h.value⟩

/-- The key as both parsers read it: up to the `=`. -/
def readKey (r : Requirement) : CString :=
  match r.op with
  | .eq => r.key
  | .ne => r.key ++ [33]

/-- `key=value` or `key!=value`. -/
def text (r : Requirement) : CString := r.readKey ++ 61 :: r.value

end Requirement

/-- The text of a list of requirements. -/
def selectorText (reqs : List Requirement) : CString := join 44 (reqs.map Requirement.text)

/-! ## What the parsers make of a requirement -/

/-- The label of the name is the text. -/
def labelIs (labels : Json) (name value : CString) : Bool := decide ((labels.get name).getString render = some value)

/-- A watch wants the label `key` or `key!` to be the value. -/
def watchReading (labels : Json) (r : Requirement) : Option Bool :=
  if r.readKey.length ≥ 256 then none else some (labelIs render labels r.readKey r.value)

/-- A list takes the first byte off the value of `key!=value`; `behind` is the text behind the requirement. -/
def listReading (labels : Json) (r : Requirement) (behind : Option CString) : Option Bool :=
  match r.op, r.value with
  | .eq, value => some (labelIs render labels r.readKey value)
  | .ne, _ :: value => some (labelIs render labels r.readKey value)
  | .ne, [] =>
    match labels.get r.readKey with
    | .null => some false
    | _ => behind.map (labelIs render labels r.readKey)

/-- The readings of a list, each with the text behind the requirement. -/
def listReadings (labels : Json) : List Requirement → List (Option Bool)
  | [] => []
  | [r] => [listReading render labels r none]
  | r :: r' :: rs => listReading render labels r (some (selectorText (r' :: rs))) :: listReadings labels (r' :: rs)

/-- One test after the other, up to the first that fails. -/
def allHold : List (Option Bool) → Option Bool
  | [] => some true
  | some true :: tests => allHold tests
  | test :: _ => test

/-- A test fails, and those before it hold. -/
def Stops (tests : List (Option Bool)) : Prop :=
  ∃ pre post, tests = pre ++ some false :: post ∧ ∀ test ∈ pre, test = some true

theorem allHold_eq_true_iff {tests : List (Option Bool)} : allHold tests = some true ↔ ∀ test ∈ tests, test = some true := by
  induction tests with
  | nil => simp [allHold]
  | cons test tests ih =>
    rcases test with - | - | - <;> simp [allHold, ih]

theorem allHold_eq_false_iff {tests : List (Option Bool)} : allHold tests = some false ↔ Stops tests := by
  constructor
  · intro h
    induction tests with
    | nil => simp [allHold] at h
    | cons test tests ih =>
      rcases test with - | - | -
      · simp [allHold] at h
      · exact ⟨[], tests, rfl, by simp⟩
      · obtain ⟨pre, post, rfl, hpre⟩ := ih h
        exact ⟨some true :: pre, post, rfl, by simpa using hpre⟩
  · rintro ⟨pre, post, rfl, hpre⟩
    induction pre with
    | nil => rfl
    | cons test pre ih =>
      rw [hpre test List.mem_cons_self]
      exact ih fun test' htest => hpre test' (List.mem_cons_of_mem _ htest)

variable {render} {labels : Json} {r : Requirement}

namespace Requirement

theorem Readable.notMem_readKey (h : r.Readable) : 44 ∉ r.readKey ∧ 61 ∉ r.readKey := by
  unfold readKey
  cases r.op with
  | eq => exact ⟨h.key.1, h.key.2.1⟩
  | ne => simp [h.key.1, h.key.2.1]

theorem Readable.mem_readKey_iff (h : r.Readable) : 33 ∈ r.readKey ↔ r.op = .ne := by
  unfold readKey
  cases r.op with
  | eq => simp [h.key.2.2]
  | ne => simp

theorem Readable.text (h : r.Readable) : r.text ≠ [] ∧ 44 ∉ r.text := by
  unfold Requirement.text
  simp [h.notMem_readKey.1, h.value.1]

theorem Readable.strchr_text (h : r.Readable) : strchr 61 r.text = some (r.readKey, r.value) :=
  strchr_append h.notMem_readKey.2

end Requirement

theorem testLabel_eq {key value : CString} (h : 61 ∉ value) :
    testLabel render labels key value = labelIs render labels key value := by
  unfold testLabel labelIs Json.get
  split
  · exact absurd List.mem_cons_self h
  · split
    · rename_i hget
      simp [hget, Json.getString]
    · rename_i hget
      simp [hget]

/-- The loop of a watch is a conjunction. -/
theorem matchLabelLoop_withRest : ∀ {reqs : List Requirement}, (∀ r ∈ reqs, r.Valid) →
    matchLabelLoop render labels (withRest 44 (reqs.map Requirement.text)) =
      allHold (reqs.map (watchReading render labels)) := by
  have hcons : ∀ {r : Requirement} {behind : Option CString} {rest : List (CString × Option CString)}
      {tests : List (Option Bool)}, r.Valid → matchLabelLoop render labels rest = allHold tests →
      matchLabelLoop render labels ((r.text, behind) :: rest) = allHold (watchReading render labels r :: tests) := by
    intro r behind rest tests h heq
    simp only [matchLabelLoop, h.readable.strchr_text, watchReading, testLabel_eq h.value.2.1, heq]
    split
    · rfl
    · cases labelIs render labels r.readKey r.value <;> rfl
  intro reqs h
  induction reqs with
  | nil => rfl
  | cons r reqs ih =>
    have hrest := ih fun r' hr' => h r' (List.mem_cons_of_mem r hr')
    cases reqs with
    | nil => exact hcons (h r List.mem_cons_self) hrest
    | cons r' reqs => exact hcons (h r List.mem_cons_self) hrest

theorem testListed_eq (h : r.Readable) (behind : Option CString) :
    testListed render labels r.readKey false (expectedValue r.readKey r.value behind) =
      listReading render labels r behind := by
  unfold testListed expectedValue listReading labelIs
  simp only [h.mem_readKey_iff]
  cases hop : r.op with
  | eq => cases hget : labels.get r.readKey <;> simp [Json.getString]
  | ne =>
    cases r.value with
    | nil => cases hget : labels.get r.readKey <;> simp
    | cons c value => cases hget : labels.get r.readKey <;> simp [Json.getString]

theorem matchesLabelLoop_cons (h : r.Readable) (behind : Option CString) {rest : List (CString × Option CString)}
    {tests : List (Option Bool)} (heq : matchesLabelLoop render labels rest = allHold tests) :
    matchesLabelLoop render labels ((r.text, behind) :: rest) =
      allHold (listReading render labels r behind :: tests) := by
  have hneq : decide (33 ∉ r.readKey ∧ 33 ∈ r.value) = false := by simp [h.value.2.2]
  simp only [matchesLabelLoop, h.strchr_text]
  rw [hneq, testListed_eq h, heq]
  rcases listReading render labels r behind with - | - | - <;> rfl

/-- The loop of a list is a conjunction too. -/
theorem matchesLabelLoop_withRest {reqs : List Requirement} (h : ∀ r ∈ reqs, r.Readable) :
    matchesLabelLoop render labels (withRest 44 (reqs.map Requirement.text)) =
      allHold (listReadings render labels reqs) := by
  induction reqs with
  | nil => rfl
  | cons r reqs ih =>
    have hrest := ih fun r' hr' => h r' (List.mem_cons_of_mem r hr')
    cases reqs with
    | nil => exact matchesLabelLoop_cons (h r List.mem_cons_self) none hrest
    | cons r' reqs => exact matchesLabelLoop_cons (h r List.mem_cons_self) _ hrest

theorem text_of_mem {reqs : List Requirement} (h : ∀ r ∈ reqs, r.Readable) :
    ∀ p ∈ reqs.map Requirement.text, p ≠ [] ∧ 44 ∉ p := by
  intro p hp
  obtain ⟨r, hr, rfl⟩ := List.mem_map.mp hp
  exact (h r hr).text

theorem length_le_length_selectorText {reqs : List Requirement} (h : ∀ r ∈ reqs, r.Readable) :
    reqs.length ≤ (selectorText reqs).length := by
  have hlen : (reqs.map Requirement.text).length ≤ (join 44 (reqs.map Requirement.text)).length :=
    length_le_length_join fun p hp => (text_of_mem h p hp).1
  rwa [List.length_map] at hlen

theorem tokens_selectorText {reqs : List Requirement} (h : ∀ r ∈ reqs, r.Readable) :
    tokens 44 ((selectorText reqs).length + 1) (selectorText reqs) = withRest 44 (reqs.map Requirement.text) := by
  have hlen := length_le_length_selectorText h
  exact tokens_join (by rw [List.length_map]; omega) (text_of_mem h)

theorem selectorText_ne_nil {reqs : List Requirement} (h : ∀ r ∈ reqs, r.Readable) (hne : reqs ≠ []) :
    selectorText reqs ≠ [] := by
  have hlen := length_le_length_selectorText h
  have hpos := List.length_pos_of_ne_nil hne
  exact List.ne_nil_of_length_pos (by omega)

/-! ## Labels -/

/-- The two readings of `=` are the same. -/
theorem listReading_of_eq (h : r.Valid) (hop : r.op = .eq) (behind : Option CString) :
    listReading render labels r behind = watchReading render labels r := by
  have hshort : ¬ r.readKey.length ≥ 256 := by
    simp only [Requirement.readKey, hop]
    have hlt := h.short
    omega
  simp only [listReading, hop, watchReading, if_neg hshort]

/-- The two readings of `!=` do not hold together. -/
theorem reading_of_ne (hop : r.op = .ne) {behind : Option CString} (hbehind : behind ≠ some [])
    (hwatch : watchReading render labels r = some true) : listReading render labels r behind ≠ some true := by
  intro hlist
  have hlabel : (labels.get r.readKey).getString render = some r.value := by
    unfold watchReading at hwatch
    split at hwatch
    · cases hwatch
    · simpa [labelIs] using hwatch
  cases hvalue : r.value with
  | nil =>
    simp only [listReading, hop, hvalue] at hlist
    split at hlist
    · cases hlist
    · obtain ⟨text, rfl, hlabel'⟩ := Option.map_eq_some_iff.mp hlist
      have heq := hlabel.symm.trans (of_decide_eq_true hlabel')
      rw [hvalue, Option.some.injEq] at heq
      exact hbehind (heq ▸ rfl)
  | cons c value =>
    simp only [listReading, hop, hvalue, labelIs, Option.some.injEq, decide_eq_true_eq] at hlist
    have heq := hlabel.symm.trans hlist
    rw [hvalue, Option.some.injEq] at heq
    exact absurd (congrArg List.length heq) (by simp)

/-- Readings that the text behind does not matter for. -/
theorem listReadings_eq_map {reqs : List Requirement} {f : Requirement → Option Bool}
    (h : ∀ r ∈ reqs, ∀ behind, listReading render labels r behind = f r) :
    listReadings render labels reqs = reqs.map f := by
  induction reqs with
  | nil => rfl
  | cons r reqs ih =>
    obtain ⟨hr, hreqs⟩ := List.forall_mem_cons.mp h
    have hrest := ih hreqs
    cases reqs with
    | nil => rw [listReadings, hr, List.map_singleton]
    | cons r' reqs => rw [listReadings, hr, hrest, List.map_cons (a := r)]

theorem listReadings_of_eq {reqs : List Requirement} (h : ∀ r ∈ reqs, r.Valid) (hop : ∀ r ∈ reqs, r.op = .eq) :
    listReadings render labels reqs = reqs.map (watchReading render labels) :=
  listReadings_eq_map fun r hr => listReading_of_eq (h r hr) (hop r hr)

/-- With a `!=` the parsers do not both accept. -/
theorem not_both_hold {reqs : List Requirement} (h : ∀ r ∈ reqs, r.Valid) (hne : ∃ r ∈ reqs, r.op = .ne)
    (hwatch : ∀ r ∈ reqs, watchReading render labels r = some true) :
    ¬ ∀ test ∈ listReadings render labels reqs, test = some true := by
  induction reqs with
  | nil =>
    obtain ⟨r, hr, -⟩ := hne
    exact absurd hr List.not_mem_nil
  | cons r reqs ih =>
    intro hlist
    have hfirst := hwatch r List.mem_cons_self
    by_cases hop : r.op = .ne
    · cases reqs with
      | nil => exact reading_of_ne hop (by simp) hfirst (hlist _ List.mem_cons_self)
      | cons r' reqs =>
        have htext : selectorText (r' :: reqs) ≠ [] :=
          selectorText_ne_nil (fun s hs => (h s (List.mem_cons_of_mem r hs)).readable) (List.cons_ne_nil _ _)
        exact reading_of_ne hop (by simpa using htext) hfirst (hlist _ List.mem_cons_self)
    · have hrest : ∃ r' ∈ reqs, r'.op = .ne := by
        obtain ⟨r', hr', hop'⟩ := hne
        rcases List.mem_cons.mp hr' with rfl | hr'
        · exact absurd hop' hop
        · exact ⟨r', hr', hop'⟩
      cases reqs with
      | nil =>
        obtain ⟨r', hr', -⟩ := hrest
        exact absurd hr' List.not_mem_nil
      | cons r' reqs =>
        exact ih (fun s hs => h s (List.mem_cons_of_mem r hs)) hrest
          (fun s hs => hwatch s (List.mem_cons_of_mem r hs)) fun test htest => hlist test (List.mem_cons_of_mem _ htest)

theorem allHold_of_ne_none {tests : List (Option Bool)} (h : ∀ test ∈ tests, test ≠ none) : ∃ b, allHold tests = some b := by
  induction tests with
  | nil => exact ⟨true, rfl⟩
  | cons test tests ih =>
    have hrest := ih fun test' htest => h test' (List.mem_cons_of_mem test htest)
    rcases test with - | - | -
    · exact absurd rfl (h none List.mem_cons_self)
    · exact ⟨false, rfl⟩
    · exact hrest

theorem allHold_agree_iff {reqs : List Requirement} (h : ∀ r ∈ reqs, r.Valid) :
    (∃ b, allHold (reqs.map (watchReading render labels)) = some b ∧ allHold (listReadings render labels reqs) = some b) ↔
      ((∃ r ∈ reqs, r.op = .ne) →
        Stops (reqs.map (watchReading render labels)) ∧ Stops (listReadings render labels reqs)) := by
  by_cases hne : ∃ r ∈ reqs, r.op = .ne
  · simp only [hne, true_implies, ← allHold_eq_false_iff]
    constructor
    · rintro ⟨b, hwatch, hlist⟩
      cases b with
      | false => exact ⟨hwatch, hlist⟩
      | true =>
        rw [allHold_eq_true_iff] at hwatch hlist
        exact absurd hlist (not_both_hold h hne fun r hr => hwatch _ (List.mem_map_of_mem hr))
    · rintro ⟨hwatch, hlist⟩
      exact ⟨false, hwatch, hlist⟩
  · have hop : ∀ r ∈ reqs, r.op = .eq := by
      intro r hr
      cases hop : r.op with
      | eq => rfl
      | ne => exact absurd ⟨r, hr, hop⟩ hne
    have hdefined : ∀ test ∈ reqs.map (watchReading render labels), test ≠ none := by
      intro test htest
      obtain ⟨r, hr, rfl⟩ := List.mem_map.mp htest
      have hlt := (h r hr).short
      simp [watchReading, Requirement.readKey, hop r hr]
      omega
    obtain ⟨b, hb⟩ := allHold_of_ne_none hdefined
    exact iff_of_true ⟨b, hb, listReadings_of_eq h hop ▸ hb⟩ fun hex => absurd hex hne

/-- The member `metadata.labels`. -/
def labelsOf (object : Json) : Option Json := (object.getEx "metadata").bind fun metadata => metadata.getEx "labels"

theorem watchMatchLabelSelector_eq (object : Json) (selector : CString) :
    watchMatchLabelSelector render object (some selector) =
      match labelsOf object with
      | none => some false
      | some labels => matchLabel render selector labels := by
  unfold watchMatchLabelSelector labelsOf
  cases object with
  | obj members =>
    dsimp only
    cases Json.getEx (.obj members) "metadata" with
    | none => rfl
    | some metadata => cases hlabels : metadata.getEx "labels" <;> simp [hlabels]
  | _ => rfl

theorem matchesLabelSelector_eq (object : Json) {selector : CString} (h : selector ≠ []) :
    matchesLabelSelector render object (some selector) =
      match labelsOf object with
      | none => some false
      | some .null => some false
      | some labels => matchesLabelLoop render labels (tokens 44 (selector.length + 1) selector) := by
  obtain ⟨c, cs, rfl⟩ := List.exists_cons_of_ne_nil h
  unfold matchesLabelSelector labelsOf Json.get
  cases object.getEx "metadata" with
  | none => rfl
  | some metadata =>
    cases metadata with
    | obj members =>
      dsimp only [Option.getD_some, Option.bind_some]
      cases Json.getEx (.obj members) "labels" with
      | none => rfl
      | some labels => cases labels <;> rfl
    | _ => rfl

variable (render) in
/-- **When the label selectors agree**: on the empty selector if there is a member `labels`, on others if it is absent,
or not null and, where there is a `!=`, neither parser finds that all its requirements hold. -/
def LabelsAgree (object : Json) (reqs : List Requirement) : Prop :=
  match labelsOf object with
  | none => reqs ≠ []
  | some .null => reqs = []
  | some labels => (∃ r ∈ reqs, r.op = .ne) →
      Stops (reqs.map (watchReading render labels)) ∧ Stops (listReadings render labels reqs)

theorem labels_agree_iff {reqs : List Requirement} (h : ∀ r ∈ reqs, r.Valid) (object : Json) :
    (∃ b, watchMatchLabelSelector render object (some (selectorText reqs)) = some b ∧
      matchesLabelSelector render object (some (selectorText reqs)) = some b) ↔ LabelsAgree render object reqs := by
  have hreadable : ∀ r ∈ reqs, r.Readable := fun r hr => (h r hr).readable
  rw [watchMatchLabelSelector_eq, LabelsAgree]
  by_cases hnil : reqs = []
  · subst hnil
    rw [show matchesLabelSelector render object (some (selectorText [])) = some true from rfl]
    cases labelsOf object with
    | none => simp
    | some labels => cases labels <;> simp [matchLabel, selectorText, join, tokens, strtok, matchLabelLoop]
  · rw [matchesLabelSelector_eq object (selectorText_ne_nil hreadable hnil)]
    cases labelsOf object with
    | none => simp [hnil]
    | some labels =>
      cases labels with
      | null => simp [matchLabel, hnil]
      | _ =>
        dsimp only [matchLabel]
        rw [tokens_selectorText hreadable, matchLabelLoop_withRest h, matchesLabelLoop_withRest hreadable]
        exact allHold_agree_iff h

/-! ## Fields -/

/-- The fields a selector can ask for. -/
inductive Field where
  | name
  | ns
  | phase
  deriving DecidableEq

namespace Field

def path : Field → CString
  | .name => "metadata.name"
  | .ns => "metadata.namespace"
  | .phase => "status.phase"

/-- The member of the path. -/
def get (object : Json) : Field → Json
  | .name => (object.get "metadata").get "name"
  | .ns => (object.get "metadata").get "namespace"
  | .phase => (object.get "status").get "phase"

/-- `path=value`. -/
def text (field : Field) (value : CString) : CString := field.path ++ 61 :: value

end Field

variable (render) in
/-- The field is the text. -/
def fieldIs (object : Json) (field : Field) (value : CString) : Prop :=
  (field.get object).getString render = some value

instance (object : Json) (field : Field) (value : CString) : Decidable (fieldIs render object field value) :=
  inferInstanceAs (Decidable (_ = _))

variable (render) in
/-- **When the field selectors agree**: a watch takes every object for a field other than the name, unless the value
reads like a requirement on the name. -/
def FieldsAgree (object : Json) (field : Field) (value : CString) : Prop :=
  field = .name ∨ object = .null ∨
    if strstr value "metadata.name=" then (fieldIs render object .name value ↔ fieldIs render object field value)
    else fieldIs render object field value

theorem followPath_path (object : Json) (field : Field) : followPath object field.path = field.get object := by
  unfold followPath
  cases field with
  | name =>
    rw [show (tokens 46 256 (Field.path .name |>.take 255)).map Prod.fst = [ofString "metadata", ofString "name"] by decide]
    rfl
  | ns =>
    rw [show (tokens 46 256 (Field.path .ns |>.take 255)).map Prod.fst = [ofString "metadata", ofString "namespace"] by
      decide]
    rfl
  | phase =>
    rw [show (tokens 46 256 (Field.path .phase |>.take 255)).map Prod.fst = [ofString "status", ofString "phase"] by decide]
    rfl

theorem notMem_path (field : Field) : 44 ∉ field.path ∧ 61 ∉ field.path := by
  cases field <;> decide

theorem matchesFieldSelector_eq (object : Json) {selector : CString} (h : selector ≠ []) :
    matchesFieldSelector render object (some selector) =
      matchesFieldLoop render object (tokens 44 (selector.length + 1) selector) := by
  cases selector with
  | nil => exact absurd rfl h
  | cons c cs => rfl

theorem matchesFieldSelector_text (object : Json) (field : Field) {value : CString} (h : 44 ∉ value) :
    matchesFieldSelector render object (some (field.text value)) = decide (fieldIs render object field value) := by
  have hno : 44 ∉ field.text value := by
    simp [Field.text, (notMem_path field).1, h]
  have hne : field.text value ≠ [] := by simp [Field.text]
  have hchr : strchr 61 (field.text value) = some (field.path, value) := strchr_append (notMem_path field).2
  rw [matchesFieldSelector_eq object hne, tokens, strtok_of_not_mem hne hno]
  simp only [matchesFieldLoop, hchr, followPath_path]
  rfl

/-- The first `=` is in one place. -/
theorem append_eq_inj {a a' b b' : CString} (ha : 61 ∉ a) (ha' : 61 ∉ a') (h : a ++ 61 :: b = a' ++ 61 :: b') :
    a = a' ∧ b = b' := by
  have hparts := (strchr_append ha).symm.trans ((congrArg (strchr 61) h).trans (strchr_append ha'))
  simpa using hparts

/-- A text that ends in `=` and has no other is not found across a `=`. -/
theorem strstr_behind {pre needle value : CString} (hpre : 61 ∉ pre) (hneedle : 61 ∉ needle) (hend : ¬ needle <:+ pre) :
    strstr (pre ++ 61 :: value) (needle ++ [61]) = strstr value (needle ++ [61]) := by
  rw [Bool.eq_iff_iff, strstr_iff, strstr_iff]
  constructor
  · rintro ⟨a, b, hab⟩
    have hab : (a ++ needle) ++ 61 :: b = pre ++ 61 :: value := by simpa using hab
    by_cases ha : 61 ∈ a
    · obtain ⟨a₁, a₂, rfl, ha₁⟩ := List.eq_append_cons_of_mem ha
      have hab : a₁ ++ 61 :: (a₂ ++ needle ++ 61 :: b) = pre ++ 61 :: value := by simpa using hab
      exact ⟨a₂, b, by simpa using (append_eq_inj ha₁ hpre hab).2⟩
    · have hno : 61 ∉ a ++ needle := by simp [ha, hneedle]
      exact absurd ⟨a, (append_eq_inj hno hpre hab).1⟩ hend
  · intro h
    exact h.trans ⟨pre ++ [61], [], by simp⟩

theorem nameRequirement : ofString "metadata.name=" = Field.path .name ++ [61] := rfl

theorem strstr_text (field : Field) (value : CString) :
    strstr (field.text value) "metadata.name=" = (decide (field = .name) || strstr value "metadata.name=") := by
  have hname : 61 ∉ Field.path .name := by decide
  rw [nameRequirement]
  cases field with
  | name =>
    rw [decide_eq_true rfl, Bool.true_or, strstr_iff]
    exact ⟨[], value, by simp [Field.text]⟩
  | ns => exact strstr_behind (by decide) hname (by decide)
  | phase => exact strstr_behind (by decide) hname (by decide)

theorem matchField_text (object : Json) (field : Field) (value : CString) :
    matchField render (field.text value) object =
      if field = .name ∨ strstr value "metadata.name=" = true then decide (fieldIs render object .name value)
      else true := by
  have hchr : strchr 61 (field.text value) = some (field.path, value) := strchr_append (notMem_path field).2
  unfold matchField
  rw [strstr_text, hchr]
  simp only [Bool.or_eq_true, decide_eq_true_eq]
  refine if_congr Iff.rfl ?_ rfl
  rw [Bool.eq_iff_iff, decide_eq_true_eq]
  dsimp only [fieldIs, Field.get, Json.get]
  cases object.getEx "metadata" with
  | none => simp [Json.getEx, Json.getString]
  | some metadata =>
    cases hname : metadata.getEx "name" with
    | none => simp [hname, Json.getString]
    | some name => simp [hname]

theorem fields_agree_iff (object : Json) (field : Field) {value : CString} (h : 44 ∉ value) :
    watchMatchFieldSelector render object (some (field.text value)) =
      matchesFieldSelector render object (some (field.text value)) ↔ FieldsAgree render object field value := by
  rw [matchesFieldSelector_text object field h]
  by_cases hnull : object = .null
  · subst hnull
    have hno : ¬ fieldIs render .null field value := by
      cases field <;> exact fun heq => nomatch heq
    simp [watchMatchFieldSelector, FieldsAgree, hno]
  · have hwatch : watchMatchFieldSelector render object (some (field.text value)) =
        matchField render (field.text value) object := by
      cases object with
      | null => exact absurd rfl hnull
      | _ => rfl
    rw [hwatch, matchField_text]
    by_cases hname : field = .name
    · subst hname
      simp [FieldsAgree]
    · by_cases hlike : strstr value "metadata.name=" = true
      · simp [FieldsAgree, hname, hnull, hlike]
      · simp [FieldsAgree, hname, hnull, hlike]

/-! ## Lists and watches -/

/-- **List and watch select the same objects, exactly** where the labels and the field allow it. -/
theorem selectors_agree_iff {reqs : List Requirement} (h : ∀ r ∈ reqs, r.Valid) (field : Field) {value : CString}
    (hvalue : 44 ∉ value) (object : Json) :
    ((∃ b, watchMatchLabelSelector render object (some (selectorText reqs)) = some b ∧
      matchesLabelSelector render object (some (selectorText reqs)) = some b) ↔ LabelsAgree render object reqs) ∧
    (watchMatchFieldSelector render object (some (field.text value)) =
      matchesFieldSelector render object (some (field.text value)) ↔ FieldsAgree render object field value) :=
  ⟨labels_agree_iff h object, fields_agree_iff object field hvalue⟩

/-- A pod of the namespace `default`. -/
def defaultPod : Json := .obj [("metadata", .obj [("namespace", .str "default"), ("labels", .obj [("app", .str "web")])])]

theorem defaultPod_selected :
    ((∃ b, watchMatchLabelSelector (fun _ => []) defaultPod (some (selectorText [⟨"app", .eq, "web"⟩])) = some b ∧
      matchesLabelSelector (fun _ => []) defaultPod (some (selectorText [⟨"app", .eq, "web"⟩])) = some b)) ∧
    watchMatchFieldSelector (fun _ => []) defaultPod (some (Field.text .ns "default")) =
      matchesFieldSelector (fun _ => []) defaultPod (some (Field.text .ns "default")) := by
  have hvalid : ∀ r ∈ [(⟨"app", .eq, "web"⟩ : Requirement)], r.Valid := by
    intro r hr
    rw [List.mem_singleton.mp hr]
    exact ⟨by decide, by decide, by decide⟩
  have hagree := @selectors_agree_iff (fun _ => []) _ hvalid .ns "default" (by decide) defaultPod
  refine ⟨hagree.1.mpr fun hne => ?_, hagree.2.mpr ?_⟩
  · obtain ⟨r, hr, hop⟩ := hne
    rw [List.mem_singleton.mp hr] at hop
    cases hop
  · exact .inr (.inr rfl)

/-- **A watch of another namespace**: the list does not have the pod, and the watch delivers it. -/
theorem other_namespace_watched :
    ¬ ∀ (render : Json → CString) (object : Json) (reqs : List Requirement) (field : Field) (value : CString),
      (∀ r ∈ reqs, r.Valid) → 44 ∉ value →
      (∃ b, watchMatchLabelSelector render object (some (selectorText reqs)) = some b ∧
        matchesLabelSelector render object (some (selectorText reqs)) = some b) ∧
      watchMatchFieldSelector render object (some (field.text value)) =
        matchesFieldSelector render object (some (field.text value)) := by
  intro h
  have hfield := (h (fun _ => []) defaultPod [] .ns "prod" (by simp) (by decide)).2
  exact absurd hfield (by decide)

end Sirah.Selectors
