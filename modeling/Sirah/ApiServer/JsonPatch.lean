import Sirah.ApiServer.Endpoints
import Sirah.Lib.JsonDocument
import Sirah.Lib.Run
import Sirah.Lib.Strtok

/-!
# JSON patches

Model of `apply_json_patch` in `internal/apiserver/patch_handler.c`. The operations are applied to the target one
after the other, where it stands: a loop over the tokens of the path goes down to the object that is changed, and
remembers it and the last key. What an operation has changed stays changed when a later one fails.

A token of 256 bytes or more overflows `last_key`, and json-c's `json_object_object_add` and `_del` want an object:
there is no result (`none`).

* `alter`: a change of one member at the end of a path, for the document as a whole. `edited`: the one that an operation is.
* `RefusedOp`, `Accepted`: when an operation fails, and when it is applied. `refused_iff`, `accepted_iff`: the code does so, and
  leaves the document or its edit.
* `CancelOut`: the operations before the first one that fails, as edits, give the document back.
* **`atomic_iff`**: a patch is all or nothing **iff** they do; `cancelOut_of_tests`: tests do.
* `half_applied`: a patch whose first operation stays when the second one fails.
-/

namespace Sirah.ApiServer

open Json Runs

/-! ## The code -/

/-- `json_object_object_del`. -/
def deleteMember (j : Json) (key : CString) : Option Json :=
  match j with
  | .obj ms => some (.obj (without key ms))
  | _ => none

/-- The object that a pointer into the document points to is changed; `keys` lead to it. -/
def modifyAt (f : Json → Option Json) : List CString → Json → Option Json
  | [], j => f j
  | key :: keys, j =>
    match j with
    | .obj ms => (modifyAt f keys (j.get key)).map fun child => .obj (set key child ms)
    | _ => none

/-- The variables of the loop over the tokens. `parent` is the keys that lead to it, none where it is NULL. -/
structure Cursor where
  parent : Option (List CString)
  lastKey : CString
  current : Json

/-- The loop over the tokens, `here` leading to `current`. An error is the token that cannot be followed. -/
def navigate : List CString → List CString → Cursor → Option (Except CString Cursor)
  | [], _, c => some (.ok c)
  | token :: tokens, here, c =>
    if 256 ≤ token.length then none
    else
      match c.current with
      | .obj _ => navigate tokens (here ++ [token]) ⟨some here, token, c.current.get token⟩
      | _ => some (.error token)

/-- `strtok(path_copy, "/")` until it returns NULL. -/
def pathTokens (path : CString) : List CString := (CString.tokens 47 path.length path).map Prod.fst

/-- A document, and the error if there is one. -/
abbrev Applied := Json × Option CString

section Apply

variable (json : JsonC)

/-- `json_dup`, of a value that is not NULL. -/
def jsonDup (value : Json) : Json := json.parse (json.render value)

/-- An operation on the object of the cursor: its parent, or the target. -/
def changeParent (target : Json) (c : Cursor) (f : Json → CString → Option Json) : Option Applied :=
  (modifyAt (fun parent => f parent c.lastKey) (c.parent.getD []) target).map fun target => (target, none)

/-- An operation that wants a value. -/
def withValue (target op : Json) (name : CString) (rest : Json → Option Applied) : Option Applied :=
  match op.get "value" with
  | .null => some (target, some (name ++ CString.ofString " operation missing 'value'"))
  | value => rest value

/-- The operation, once its path is followed. -/
def perform (target op : Json) (opStr path : CString) (c : Cursor) : Option Applied :=
  if opStr = ("add" : String) then
    withValue target op "add" fun value => changeParent target c fun parent key => parent.add key (jsonDup json value)
  else if opStr = ("remove" : String) then changeParent target c deleteMember
  else if opStr = ("replace" : String) then
    withValue target op "replace" fun value => changeParent target c fun parent key => do
      let parent ← deleteMember parent key
      parent.add key (jsonDup json value)
  else if opStr = ("test" : String) then
    withValue target op "test" fun value =>
      match c.current with
      | .null => some (target, none)
      | current =>
        if json.render current = json.render value then some (target, none)
        else some (target, some (CString.ofString "test failed at path " ++ path))
  else if opStr = ("copy" : String) ∨ opStr = ("move" : String) then
    match op.get "from" with
    | .null => some (target, some (opStr ++ CString.ofString " operation missing 'from'"))
    | _ => some (target, some (opStr ++ CString.ofString " operation not fully implemented"))
  else some (target, some (CString.ofString "unknown operation: " ++ opStr))

/-- The operation at an index, as the body of the loop over the patch applies it. -/
def applyOp (index : Nat) (target op : Json) : Option Applied :=
  let refused (text : CString) : Option Applied :=
    some (target, some (CString.ofString "patch operation " ++ CString.ofNat index ++ text))
  match op with
  | .obj _ =>
    match op.get "op", op.get "path" with
    | .null, _ | _, .null => refused " missing 'op' or 'path'"
    | opType, pathObj =>
      match opType.getString json.render, pathObj.getString json.render with
      | some opStr, some path => do
        match ← navigate (pathTokens path) [] ⟨none, [], target⟩ with
        | .error token => some (target, some (CString.ofString "cannot navigate path at " ++ token))
        | .ok c => perform json target op opStr path c
      | _, _ => some (target, some (CString.ofString "invalid operation or path at index " ++ CString.ofNat index))
  | _ => refused " is not an object"

/-- The loop over the operations, from an index on. -/
def applyOps (index : Nat) : List Json → Json → Option Applied
  | [], target => some (target, none)
  | op :: ops, target => do
    match ← applyOp json index target op with
    | (target, none) => applyOps (index + 1) ops target
    | (target, some text) => some (target, some text)

/-- `apply_json_patch`: the target it leaves, and `error_buffer` where it returns -1. -/
def applyJsonPatch (errorBufferSize : Nat) (target patchOps : Json) : Option Applied :=
  match patchOps with
  | .arr ops =>
    (applyOps json 0 ops target).map fun (target, error) =>
      (target, error.map (CString.snprintf errorBufferSize))
  | _ => some (target, some (CString.snprintf errorBufferSize "patch must be an array"))

end Apply

/-! ## Operations as edits of the document -/

/-- What an operation does to the members of the object that it changes. -/
inductive Change where
  | nothing
  | put (value : Json)
  | remove
  | replace (value : Json)

/-- The members after the change of one of them. -/
def Change.members (key : CString) : Change → List (CString × Json) → List (CString × Json)
  | .nothing, ms => ms
  | .put value, ms => set key value ms
  | .remove, ms => without key ms
  | .replace value, ms => set key value (without key ms)

/-- **The document with one member changed**, at the end of a path. -/
def alter (change : Change) : List CString → Json → Json
  | [], j => obj (change.members [] j.members)
  | [key], j => obj (change.members key j.members)
  | key :: keys, j => obj (set key (alter change keys (j.get key)) j.members)

/-- What the name of an operation says, with its value. -/
def changeOf (json : JsonC) (op : Json) : Change :=
  if (op.get "op").getString json.render = some (CString.ofString "add") then .put (jsonDup json (op.get "value"))
  else if (op.get "op").getString json.render = some (CString.ofString "remove") then .remove
  else if (op.get "op").getString json.render = some (CString.ofString "replace") then
    .replace (jsonDup json (op.get "value"))
  else .nothing

/-- The tokens of an operation's path. -/
def pathOf (json : JsonC) (op : Json) : List CString := pathTokens (((op.get "path").getString json.render).getD [])

/-- **The edit that an operation is.** -/
def edited (json : JsonC) (doc op : Json) : Json :=
  match changeOf json op with
  | .nothing => doc
  | change => alter change (pathOf json op) doc

/-- **An operation is well formed**: an object that names its verb and its path. -/
def WellFormedOp (op : Json) : Prop := IsObj op ∧ op.get "op" ≠ null ∧ op.get "path" ≠ null

/-- The verb of an operation. -/
def verbOf (json : JsonC) (op : Json) : CString := ((op.get "op").getString json.render).getD []

/-- `last_key` is too small for a key on the way. -/
def Overruns : List CString → Json → Prop
  | [], _ => False
  | k :: keys, j => 256 ≤ k.length ∨ IsObj j ∧ Overruns keys (j.get k)

/-- **The verb fails at the end of the path**: it wants a value and there is none, it is a test of what is not null and is
printed otherwise, or it is not one of the four. -/
def FailsThere (json : JsonC) (doc op : Json) : Prop :=
  if verbOf json op = ("add" : String) then op.get "value" = null
  else if verbOf json op = ("remove" : String) then False
  else if verbOf json op = ("replace" : String) then op.get "value" = null
  else if verbOf json op = ("test" : String) then
    op.get "value" = null ∨ (pathOf json op).foldl get doc ≠ null ∧
      json.render ((pathOf json op).foldl get doc) ≠ json.render (op.get "value")
  else True

/-- **The operation is refused**: it is not well formed, its path asks a key of what is no object, or its verb fails. -/
def RefusedOp (json : JsonC) (doc op : Json) : Prop :=
  ¬ WellFormedOp op ∨
    ¬ Overruns (pathOf json op) doc ∧ (¬ Leads (pathOf json op) doc ∨ FailsThere json doc op)

/-- **The operation is applied**: at the root it wants an object, unless it tests. -/
structure Accepted (json : JsonC) (doc op : Json) : Prop where
  wellFormed : WellFormedOp op
  fits : ¬ Overruns (pathOf json op) doc
  leads : Leads (pathOf json op) doc
  succeeds : ¬ FailsThere json doc op
  root : changeOf json op = .nothing ∨ (pathOf json op = [] → IsObj doc)

variable {json : JsonC} {change : Change} {j j' target doc op value : Json} {k key opStr path text : CString}
  {keys tokens here : List CString} {ms : List (CString × Json)} {c c' : Cursor} {index : Nat}

theorem alter_cons (h : keys ≠ []) :
    alter change (k :: keys) j = obj (set k (alter change keys (j.get k)) j.members) := by
  rw [alter]
  exact h

/-! ## A change behind a pointer -/

/-- The code's change of the object that `parent` points to. -/
def Change.act (change : Change) (parent : Json) (key : CString) : Option Json :=
  match change with
  | .nothing => some parent
  | .put value => parent.add key value
  | .remove => deleteMember parent key
  | .replace value => do
    let parent ← deleteMember parent key
    parent.add key value

theorem Change.act_obj (change : Change) (ms : List (CString × Json)) (key : CString) :
    change.act (.obj ms) key = some (.obj (change.members key ms)) := by
  cases change <;> rfl

theorem Change.act_of_not_obj (hchange : change ≠ .nothing) (hj : ¬ IsObj j) (key : CString) : change.act j key = none := by
  cases change with
  | nothing => exact absurd rfl hchange
  | put value =>
    cases j with
    | obj ms => exact absurd ⟨ms, rfl⟩ hj
    | _ => rfl
  | remove =>
    cases j with
    | obj ms => exact absurd ⟨ms, rfl⟩ hj
    | _ => rfl
  | replace value =>
    cases j with
    | obj ms => exact absurd ⟨ms, rfl⟩ hj
    | _ => rfl

/-- **A change behind a pointer** is one at the end of a path. -/
theorem modifyAt_eq (h : Leads (keys ++ [key]) j) :
    modifyAt (fun j => change.act j key) keys j = some (alter change (keys ++ [key]) j) := by
  induction keys generalizing j with
  | nil =>
    obtain ⟨⟨ms, rfl⟩, -⟩ := h
    exact change.act_obj ms key
  | cons k keys ih =>
    obtain ⟨⟨ms, rfl⟩, hrest⟩ := h
    rw [modifyAt, ih hrest, List.cons_append, alter_cons (List.append_ne_nil_of_right_ne_nil _ (List.cons_ne_nil _ _))]
    rfl

/-- Where the loop over the tokens ends: it has not moved, or stands behind the last token. -/
theorem navigate_ok (h : navigate tokens here c = some (.ok c')) :
    tokens = [] ∧ c' = c ∨
      ∃ keys key, tokens = keys ++ [key] ∧ c'.parent = some (here ++ keys) ∧ c'.lastKey = key := by
  induction tokens generalizing here c with
  | nil =>
    cases h
    exact .inl ⟨rfl, rfl⟩
  | cons token tokens ih =>
    rw [navigate] at h
    split at h
    · cases h
    · split at h
      · rcases ih h with ⟨rfl, rfl⟩ | ⟨keys, key, rfl, hparent, hkey⟩
        · exact .inr ⟨[], token, rfl, by rw [List.append_nil], rfl⟩
        · exact .inr ⟨token :: keys, key, rfl, by rw [hparent, List.append_assoc, List.singleton_append], hkey⟩
      · cases h

/-- **Where the loop over the path ends**: past the end of a key, at what is no object, or behind the last key. -/
theorem navigate_spec (keys here : List CString) (c : Cursor) :
    (Overruns keys c.current → navigate keys here c = none) ∧
    (¬ Overruns keys c.current → ¬ Leads keys c.current → ∃ token, navigate keys here c = some (.error token)) ∧
    (¬ Overruns keys c.current → Leads keys c.current →
      ∃ c', navigate keys here c = some (.ok c') ∧ c'.current = keys.foldl Json.get c.current) := by
  induction keys generalizing here c with
  | nil => exact ⟨False.elim, fun _ h => absurd trivial h, fun _ _ => ⟨c, rfl, rfl⟩⟩
  | cons k keys ih =>
    rw [navigate, Overruns, Leads]
    by_cases hlong : 256 ≤ k.length
    · rw [if_pos hlong]
      exact ⟨fun _ => rfl, fun h => absurd (Or.inl hlong) h, fun h => absurd (Or.inl hlong) h⟩
    · rw [if_neg hlong]
      simp only [hlong, false_or]
      by_cases hobj : IsObj c.current
      · obtain ⟨ms, hms⟩ := hobj
        obtain ⟨hover, herror, hok⟩ := ih (here ++ [k]) ⟨some here, k, c.current.get k⟩
        have hisObj : IsObj c.current := ⟨ms, hms⟩
        simp only [hisObj, true_and]
        rw [hms] at hover herror hok ⊢
        exact ⟨hover, herror, hok⟩
      · simp only [hobj, false_and]
        refine ⟨False.elim, fun _ _ => ?_, fun _ h => h.elim⟩
        cases hc : c.current with
        | obj ms => exact absurd ⟨ms, hc⟩ hobj
        | _ => exact ⟨k, rfl⟩

/-- **An object that is changed is the end of the path.** -/
theorem changeParent_eq (hnav : navigate keys [] ⟨none, [], doc⟩ = some (.ok c)) (hleads : Leads keys doc)
    (hroot : keys = [] → IsObj doc) : changeParent doc c change.act = some (alter change keys doc, none) := by
  rcases navigate_ok hnav with ⟨rfl, rfl⟩ | ⟨keys, key, rfl, hparent, rfl⟩
  · obtain ⟨ms, rfl⟩ := hroot rfl
    rw [changeParent, Option.getD_none, modifyAt, change.act_obj]
    rfl
  · rw [changeParent, hparent, Option.getD_some, List.nil_append, modifyAt_eq hleads]
    rfl

/-- At the root there has to be an object. -/
theorem changeParent_root (hnav : navigate [] [] ⟨none, [], doc⟩ = some (.ok c)) (hchange : change ≠ .nothing)
    (hdoc : ¬ IsObj doc) : changeParent doc c change.act = none := by
  cases hnav
  rw [changeParent, Option.getD_none, modifyAt, Change.act_of_not_obj hchange hdoc]
  rfl

/-! ## One operation -/

theorem withValue_null {name : CString} {rest : Json → Option Applied} (h : op.get "value" = null) :
    ∃ text, withValue target op name rest = some (target, some text) := by
  unfold withValue
  rw [h]
  exact ⟨_, rfl⟩

theorem withValue_of_ne {name : CString} {rest : Json → Option Applied} (h : op.get "value" ≠ null) :
    withValue target op name rest = rest (op.get "value") := by
  unfold withValue
  split
  · next heq => exact absurd heq h
  · rfl

/-- What names a change is the verb. -/
theorem changeOf_eq (h : op.get "op" ≠ null) :
    changeOf json op =
      if verbOf json op = ("add" : String) then .put (jsonDup json (op.get "value"))
      else if verbOf json op = ("remove" : String) then .remove
      else if verbOf json op = ("replace" : String) then .replace (jsonDup json (op.get "value"))
      else .nothing := by
  have hsome : (op.get "op").getString json.render = some (verbOf json op) := by
    unfold verbOf
    cases hop : op.get "op" with
    | null => exact absurd hop h
    | _ => rfl
  rw [changeOf, hsome]
  simp only [Option.some.injEq]

/-- **A verb that fails** changes nothing. -/
theorem perform_fails (hcurrent : c.current = (pathOf json op).foldl get doc) (h : FailsThere json doc op) (path : CString) :
    ∃ text, perform json doc op (verbOf json op) path c = some (doc, some text) := by
  unfold FailsThere at h
  unfold perform
  split at h
  · next hadd =>
    rw [if_pos hadd]
    exact withValue_null h
  · next hadd =>
    rw [if_neg hadd]
    split at h
    · exact h.elim
    · next hremove =>
      rw [if_neg hremove]
      split at h
      · next hreplace =>
        rw [if_pos hreplace]
        exact withValue_null h
      · next hreplace =>
        rw [if_neg hreplace]
        split at h
        · next htest =>
          rw [if_pos htest]
          by_cases hnull : op.get "value" = null
          · exact withValue_null hnull
          · obtain ⟨hne, hprinted⟩ := h.resolve_left hnull
            rw [← hcurrent] at hne hprinted
            refine ⟨CString.ofString "test failed at path " ++ path, ?_⟩
            rw [withValue_of_ne hnull]
            split
            · next hc => exact absurd hc hne
            · exact if_neg hprinted
        · next htest =>
          rw [if_neg htest]
          split
          · split
            · exact ⟨_, rfl⟩
            · exact ⟨_, rfl⟩
          · exact ⟨_, rfl⟩

/-- **A verb that does not fail** is its change. -/
theorem perform_acts (hop : op.get "op" ≠ null) (hcurrent : c.current = (pathOf json op).foldl get doc)
    (h : ¬ FailsThere json doc op) (path : CString) :
    perform json doc op (verbOf json op) path c =
      if changeOf json op matches .nothing then some (doc, none) else changeParent doc c (changeOf json op).act := by
  rw [changeOf_eq hop]
  unfold FailsThere at h
  unfold perform
  by_cases hadd : verbOf json op = ("add" : String)
  · rw [if_pos hadd] at h
    rw [if_pos hadd, if_pos hadd, withValue_of_ne h]
    rfl
  rw [if_neg hadd] at h
  rw [if_neg hadd, if_neg hadd]
  by_cases hremove : verbOf json op = ("remove" : String)
  · rw [if_pos hremove, if_pos hremove]
    rfl
  rw [if_neg hremove] at h
  rw [if_neg hremove, if_neg hremove]
  by_cases hreplace : verbOf json op = ("replace" : String)
  · rw [if_pos hreplace] at h
    rw [if_pos hreplace, if_pos hreplace, withValue_of_ne h]
    rfl
  rw [if_neg hreplace] at h
  rw [if_neg hreplace, if_neg hreplace]
  by_cases htest : verbOf json op = ("test" : String)
  · rw [if_pos htest] at h
    obtain ⟨hvalue, hprinted⟩ := not_or.mp h
    rw [if_pos htest, withValue_of_ne hvalue]
    split
    · rfl
    · next hne =>
      refine if_pos ?_
      by_contra hdiffer
      refine hprinted ⟨fun hnull => hne ?_, ?_⟩
      · rw [hcurrent, hnull]
      · rwa [hcurrent] at hdiffer
  · rw [if_neg htest] at h
    exact absurd trivial h

/-- What the code reads of an operation that is well formed. -/
theorem applyOp_wellFormed (h : WellFormedOp op) :
    applyOp json index doc op = (navigate (pathOf json op) [] ⟨none, [], doc⟩).bind fun
      | .error token => some (doc, some (CString.ofString "cannot navigate path at " ++ token))
      | .ok c => perform json doc op (verbOf json op) (((op.get "path").getString json.render).getD []) c := by
  obtain ⟨⟨ms, rfl⟩, hop, hpath⟩ := h
  have hsome : ∀ {j : Json}, j ≠ null → j.getString json.render = some ((j.getString json.render).getD []) := by
    intro j hj
    cases j with
    | null => exact absurd rfl hj
    | _ => rfl
  unfold applyOp pathOf verbOf
  dsimp only
  split
  · next heq => exact absurd heq hop
  · next heq _ => exact absurd heq hpath
  · rw [hsome hop, hsome hpath]
    rfl

theorem applyOp_malformed (h : ¬ WellFormedOp op) : ∃ text, applyOp json index doc op = some (doc, some text) := by
  unfold applyOp
  cases op with
  | obj ms =>
    dsimp only
    split
    · exact ⟨_, rfl⟩
    · exact ⟨_, rfl⟩
    · next hop hpath => exact absurd ⟨⟨ms, rfl⟩, hop, hpath⟩ h
  | _ => exact ⟨_, rfl⟩

/-- **An operation that is refused** leaves the document. -/
theorem applyOp_refused (h : RefusedOp json doc op) : ∃ text, applyOp json index doc op = some (doc, some text) := by
  by_cases hform : WellFormedOp op
  · obtain ⟨hfits, h⟩ := h.resolve_left (not_not_intro hform)
    obtain ⟨-, herror, hok⟩ := navigate_spec (pathOf json op) [] ⟨none, [], doc⟩
    rw [applyOp_wellFormed hform]
    by_cases hleads : Leads (pathOf json op) doc
    · obtain ⟨c, hc, hcurrent⟩ := hok hfits hleads
      rw [hc]
      exact perform_fails hcurrent (h.resolve_left (not_not_intro hleads)) _
    · obtain ⟨token, htoken⟩ := herror hfits hleads
      rw [htoken]
      exact ⟨_, rfl⟩
  · exact applyOp_malformed hform

/-- **An operation that is applied** leaves its edit. -/
theorem applyOp_accepted (h : Accepted json doc op) : applyOp json index doc op = some (edited json doc op, none) := by
  obtain ⟨c, hc, hcurrent⟩ := (navigate_spec (pathOf json op) [] ⟨none, [], doc⟩).2.2 h.fits h.leads
  have hacts := perform_acts h.wellFormed.2.1 hcurrent h.succeeds (((op.get "path").getString json.render).getD [])
  rw [applyOp_wellFormed h.wellFormed, hc, Option.bind_some]
  refine hacts.trans ?_
  rw [edited]
  have hroot := h.root
  cases hchange : changeOf json op with
  | nothing => rfl
  | put value =>
    exact changeParent_eq hc h.leads (hroot.resolve_left (by rw [hchange]; exact Change.noConfusion))
  | remove =>
    exact changeParent_eq hc h.leads (hroot.resolve_left (by rw [hchange]; exact Change.noConfusion))
  | replace value =>
    exact changeParent_eq hc h.leads (hroot.resolve_left (by rw [hchange]; exact Change.noConfusion))

/-- Any other has no result. -/
theorem applyOp_undefined (hrefused : ¬ RefusedOp json doc op) (haccepted : ¬ Accepted json doc op) :
    applyOp json index doc op = none := by
  obtain ⟨hform, hrest⟩ := not_or.mp hrefused
  rw [not_not] at hform
  rw [applyOp_wellFormed hform]
  obtain ⟨hover, -, hok⟩ := navigate_spec (pathOf json op) [] ⟨none, [], doc⟩
  by_cases hfits : Overruns (pathOf json op) doc
  · rw [hover hfits]
    rfl
  obtain ⟨hleads, hsucceeds⟩ := not_or.mp fun h => hrest ⟨hfits, h⟩
  rw [not_not] at hleads
  have hroot : ¬ (changeOf json op = .nothing ∨ (pathOf json op = [] → IsObj doc)) := fun hroot =>
    haccepted ⟨hform, hfits, hleads, hsucceeds, hroot⟩
  obtain ⟨hchange, hroot⟩ := not_or.mp hroot
  obtain ⟨hempty, hdoc⟩ := Classical.not_imp.mp hroot
  obtain ⟨c, hc, hcurrent⟩ := hok hfits hleads
  rw [hc, Option.bind_some]
  refine (perform_acts hform.2.1 hcurrent hsucceeds _).trans ?_
  rw [hempty] at hc
  have hnone := changeParent_root hc hchange hdoc
  cases heq : changeOf json op with
  | nothing => exact absurd heq hchange
  | put value => rw [heq] at hnone; exact hnone
  | remove => rw [heq] at hnone; exact hnone
  | replace value => rw [heq] at hnone; exact hnone

theorem refused_iff : (∃ text, applyOp json index doc op = some (j, some text)) ↔ RefusedOp json doc op ∧ j = doc := by
  constructor
  · rintro ⟨text, h⟩
    by_cases hrefused : RefusedOp json doc op
    · obtain ⟨text', happly⟩ : ∃ text, applyOp json index doc op = some (doc, some text) := applyOp_refused hrefused
      exact ⟨hrefused, congrArg Prod.fst (Option.some.inj (h.symm.trans happly))⟩
    · by_cases haccepted : Accepted json doc op
      · cases congrArg Prod.snd (Option.some.inj (h.symm.trans (applyOp_accepted haccepted)))
      · cases h.symm.trans (applyOp_undefined hrefused haccepted)
  · rintro ⟨hrefused, rfl⟩
    exact applyOp_refused hrefused

theorem accepted_iff : applyOp json index doc op = some (j, none) ↔ Accepted json doc op ∧ j = edited json doc op := by
  constructor
  · intro h
    by_cases haccepted : Accepted json doc op
    · exact ⟨haccepted, congrArg Prod.fst (Option.some.inj (h.symm.trans (applyOp_accepted haccepted)))⟩
    · by_cases hrefused : RefusedOp json doc op
      · obtain ⟨text, happly⟩ : ∃ text, applyOp json index doc op = some (doc, some text) := applyOp_refused hrefused
        cases congrArg Prod.snd (Option.some.inj (h.symm.trans happly))
      · cases h.symm.trans (applyOp_undefined hrefused haccepted)
  · rintro ⟨haccepted, rfl⟩
    exact applyOp_accepted haccepted

/-! ## All or nothing -/

/-- **All or nothing**: a patch that fails leaves the target as it was. -/
def Atomic (json : JsonC) (errorBufferSize : Nat) (target patch : Json) : Prop :=
  ∀ after text, applyJsonPatch json errorBufferSize target patch = some (after, some text) → after = target

/-- **The edits before the first operation that fails cancel out.** -/
def CancelOut (json : JsonC) (target : Json) (ops : List Json) : Prop :=
  ∀ before op rest, ops = before ++ op :: rest → AllSteps (edited json) (Accepted json) target before →
    RefusedOp json (run (edited json) target before) op → run (edited json) target before = target

/-- **What a patch that fails leaves**: the edits before the first operation that fails. -/
theorem applyOps_failed_iff {ops : List Json} :
    (∃ text, applyOps json index ops doc = some (j, some text)) ↔
      ∃ before op rest, ops = before ++ op :: rest ∧ AllSteps (edited json) (Accepted json) doc before ∧
        RefusedOp json (run (edited json) doc before) op ∧ j = run (edited json) doc before := by
  induction ops generalizing index doc with
  | nil => exact iff_of_false (fun ⟨_, h⟩ => by cases h) fun ⟨before, _, _, h, _⟩ => by cases before <;> cases h
  | cons op ops ih =>
    constructor
    · rintro ⟨text, h⟩
      obtain ⟨⟨t, error⟩, happly, hrest⟩ := Option.bind_eq_some_iff.mp h
      cases error with
      | none =>
        obtain ⟨hop, rfl⟩ := accepted_iff.mp happly
        obtain ⟨before, op', rest, rfl, hbefore, hrefused, hj⟩ := ih.mp ⟨text, hrest⟩
        exact ⟨op :: before, op', rest, rfl, ⟨hop, hbefore⟩, hrefused, hj⟩
      | some text' =>
        obtain ⟨hop, rfl⟩ := refused_iff.mp ⟨text', happly⟩
        exact ⟨[], op, ops, rfl, trivial, hop, (congrArg Prod.fst (Option.some.inj hrest)).symm⟩
    · rintro ⟨before, op', rest, heq, hbefore, hrefused, rfl⟩
      cases before with
      | nil =>
        obtain ⟨rfl, rfl⟩ := List.cons.inj heq
        have happly : ∃ text, applyOp json index doc op = some (doc, some text) := refused_iff.mpr ⟨hrefused, rfl⟩
        obtain ⟨text, happly⟩ := happly
        exact ⟨text, by rw [applyOps, happly]; rfl⟩
      | cons b before =>
        obtain ⟨rfl, rfl⟩ := List.cons.inj heq
        have happly : applyOp json index doc op = some (edited json doc op, none) := accepted_iff.mpr ⟨hbefore.1, rfl⟩
        obtain ⟨text, hrest⟩ := ih.mpr ⟨before, op', rest, rfl, hbefore.2, hrefused, rfl⟩
        exact ⟨text, by rw [applyOps, happly]; exact hrest⟩

/-- **A patch is all or nothing, exactly** if the edits before the first operation that fails cancel out. -/
theorem atomic_iff (json : JsonC) (errorBufferSize : Nat) (target patch : Json) :
    Atomic json errorBufferSize target patch ↔ ∀ ops, patch = .arr ops → CancelOut json target ops := by
  constructor
  · rintro h ops rfl before op rest rfl hbefore hrefused
    have hfailed : ∃ text, applyOps json 0 (before ++ op :: rest) target =
        some (run (edited json) target before, some text) :=
      applyOps_failed_iff.mpr ⟨before, op, rest, rfl, hbefore, hrefused, rfl⟩
    obtain ⟨text, happly⟩ := hfailed
    exact h _ (CString.snprintf errorBufferSize text) (by rw [applyJsonPatch, happly]; rfl)
  · intro h after text hpatch
    cases patch with
    | arr ops =>
      obtain ⟨⟨t, error⟩, happly, heq⟩ := Option.map_eq_some_iff.mp hpatch
      obtain ⟨rfl, herror⟩ := Prod.mk.inj heq
      obtain ⟨text', rfl, -⟩ := Option.map_eq_some_iff.mp herror
      obtain ⟨before, op, rest, hops, hbefore, hrefused, rfl⟩ := applyOps_failed_iff.mp ⟨text', happly⟩
      exact h ops rfl before op rest hops hbefore hrefused
    | _ => exact (congrArg Prod.fst (Option.some.inj hpatch)).symm

/-- Operations that only test cancel out. -/
theorem run_of_nothing {before : List Json} (h : ∀ op ∈ before, changeOf json op = .nothing) :
    run (edited json) doc before = doc := by
  induction before with
  | nil => rfl
  | cons op before ih =>
    rw [List.forall_mem_cons] at h
    have hop : edited json doc op = doc := by rw [edited, h.1]
    rw [run_cons, hop, ih h.2]

/-- **A patch that tests first** is all or nothing up to its first edit: one that fails there has changed nothing. -/
theorem cancelOut_of_tests {ops : List Json}
    (h : ∀ before op rest, ops = before ++ op :: rest → RefusedOp json (run (edited json) target before) op →
      ∀ op ∈ before, changeOf json op = .nothing) : CancelOut json target ops :=
  fun before op rest hops _ hrefused => run_of_nothing (h before op rest hops hrefused)

/-! ## A patch that fails at its second operation -/

/-- json-c on the value `1` and its text. -/
def oneJson : JsonC where
  parse text := if text = ("1" : CString) then .int 1 else .null
  render _ := ("1" : CString)

/-- An addition, and an operation that there is none of. -/
def addThenUnknown : List Json :=
  [.obj [("op", .str ("add" : String)), ("path", .str ("/a" : String)), ("value", .int 1)],
    .obj [("op", .str ("frobnicate" : String)), ("path", .str ("/a" : String))]]

/-- **What was added stays** when the next operation fails. -/
theorem half_applied : ¬ ∀ json errorBufferSize target patch, Atomic json errorBufferSize target patch := by
  intro h
  have hfailed : applyJsonPatch oneJson 256 (.obj []) (.arr addThenUnknown) =
      some (.obj [("a", .int 1)], some ("unknown operation: frobnicate" : CString)) := by
    rfl
  cases h oneJson 256 (.obj []) (.arr addThenUnknown) _ _ hfailed

end Sirah.ApiServer
