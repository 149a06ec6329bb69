import Sirah.Lib.Run
import Sirah.Lib.SplitFirst
import Sirah.Rbac.RbacManager

/-!
# Namespaces of the RBAC manager

The calls of `sirah/internal/rbac/rbac_manager.c` that change the Roles and RoleBindings of a namespace,
as a step function over the stored policy. A record is copied whole and the namespace of the call is then
written over its own with `strncpy`: 63 bytes of it, into a field of 64, whose last byte stays that of the
record. Every later look-up compares what then stands in the field, and behind it, with the full namespace
of its call.

Roles and RoleBindings are two copies of the same code; `createRecord`, `editRecord` and `deleteRecord`
are that code over any kind of record.

**`isolated_iff`**: what is done in namespace `A` never shows in the answers for another namespace `B`
**iff** `A` leaves room in the field, or `B` does not begin with what the field keeps of `A`.
-/

namespace Sirah.Rbac

/-! ## The calls -/

section Records

variable {α : Type} (limit : Nat) (named : α → Bool) (l : List α)

/-- Append a record unless the array is full or has one of its name. -/
def createRecord (new : α) : Option (List α) :=
  if l.length ≥ limit then none
  else if l.any named then none
  else some (l ++ [new])

/-- Change the first record of the name; the change may be refused. -/
def editRecord (edit : α → Option α) : Option (List α) :=
  match l.splitFirst named with
  | none => none
  | some (before, x, after) => (edit x).map fun y => before ++ y :: after

/-- Remove the first record of the name, shifting those behind it. -/
def deleteRecord : Option (List α) :=
  match l.splitFirst named with
  | none => none
  | some (before, _, after) => some (before ++ after)

end Records

/-- The test of the loops over the Roles. -/
def Role.named (ns name : CString) (r : Role) : Bool := r.name == name && r.ns == ns

/-- The test of the loops over the RoleBindings. -/
def RoleBinding.named (ns name : CString) (b : RoleBinding) : Bool := b.name == name && b.ns == ns

/-- What is stored of a namespace. `past` is what the record of the call has from the last byte of the field on, up to
a NUL. -/
def storedNamespace (past ns : CString) : CString := CString.strncpyOver 63 ns past

/-- What stands there once a text `front` is written behind the field. The last byte of the field stays, so a namespace
that had room does not change. -/
def rewrittenBehind (front ns : CString) : CString := if ns.length ≤ 63 then ns else ns.take 64 ++ front

/-- The return value with the new Roles, or `-1` with the old ones. -/
def Manager.withRoles (m : Manager) : Option (List Role) → Int × Manager
  | some roles => (0, { m with roles := roles })
  | none => (-1, m)

/-- The return value with the new RoleBindings, or `-1` with the old ones. -/
def Manager.withRoleBindings (m : Manager) : Option (List RoleBinding) → Int × Manager
  | some bindings => (0, { m with roleBindings := bindings })
  | none => (-1, m)

/-- `rbac_create_role`; `past` as in `storedNamespace`. -/
def createRole (m : Manager) (past : CString) : Option CString → Option Role → Int × Manager
  | some ns, some role =>
    m.withRoles (createRecord 1000 (Role.named ns role.name) m.roles
      { role with ns := storedNamespace past ns })
  | _, _ => (-1, m)

/-- `rbac_update_role`. -/
def updateRole (m : Manager) (past : CString) : Option CString → Option Role → Int × Manager
  | some ns, some role =>
    m.withRoles (editRecord (Role.named ns role.name) m.roles fun _ =>
      some { role with ns := storedNamespace past ns })
  | _, _ => (-1, m)

/-- `rbac_delete_role`. -/
def deleteRole (m : Manager) : Option CString → Option CString → Int × Manager
  | some ns, some name => m.withRoles (deleteRecord (Role.named ns name) m.roles)
  | _, _ => (-1, m)

/-- `rbac_add_rule_to_role`; a role holds at most 50 rules. The first of them stands behind the namespace: `front` is the
text that the rule begins with in memory. -/
def addRuleToRole (m : Manager) (front : CString) : Option CString → Option CString → Option Rule → Int × Manager
  | some ns, some name, some rule =>
    m.withRoles (editRecord (Role.named ns name) m.roles fun r =>
      if r.rules.length ≥ 50 then none
      else some { r with
        rules := r.rules ++ [rule]
        ns := if r.rules.isEmpty then rewrittenBehind front r.ns else r.ns })
  | _, _, _ => (-1, m)

/-- `rbac_create_role_binding`. -/
def createRoleBinding (m : Manager) (past : CString) : Option CString → Option RoleBinding → Int × Manager
  | some ns, some binding =>
    m.withRoleBindings (createRecord 2000 (RoleBinding.named ns binding.name) m.roleBindings
      { binding with ns := storedNamespace past ns })
  | _, _ => (-1, m)

/-- `rbac_update_role_binding`. -/
def updateRoleBinding (m : Manager) (past : CString) : Option CString → Option RoleBinding → Int × Manager
  | some ns, some binding =>
    m.withRoleBindings (editRecord (RoleBinding.named ns binding.name) m.roleBindings fun _ =>
      some { binding with ns := storedNamespace past ns })
  | _, _ => (-1, m)

/-- `rbac_delete_role_binding`. -/
def deleteRoleBinding (m : Manager) : Option CString → Option CString → Int × Manager
  | some ns, some name => m.withRoleBindings (deleteRecord (RoleBinding.named ns name) m.roleBindings)
  | _, _ => (-1, m)

/-- `rbac_add_subject_to_binding`; a binding holds at most 20 subjects, the first of them behind the namespace. -/
def addSubjectToBinding (m : Manager) (front : CString) :
    Option CString → Option CString → Option Subject → Int × Manager
  | some ns, some name, some subject =>
    m.withRoleBindings (editRecord (RoleBinding.named ns name) m.roleBindings fun b =>
      if b.subjects.length ≥ 20 then none
      else some { b with
        subjects := b.subjects ++ [subject]
        ns := if b.subjects.isEmpty then rewrittenBehind front b.ns else b.ns })
  | _, _, _ => (-1, m)

/-- A call, without its namespace; `none` for a NULL argument. `past` and `front` are what the memory of its record has
behind the namespace. -/
inductive Op where
  | createRole (role : Option Role) (past : CString)
  | updateRole (role : Option Role) (past : CString)
  | deleteRole (name : Option CString)
  | addRuleToRole (name : Option CString) (rule : Option Rule) (front : CString)
  | createRoleBinding (binding : Option RoleBinding) (past : CString)
  | updateRoleBinding (binding : Option RoleBinding) (past : CString)
  | deleteRoleBinding (name : Option CString)
  | addSubjectToBinding (name : Option CString) (subject : Option Subject) (front : CString)
  deriving DecidableEq, Repr

/-- The policy after a call for the namespace `ns`. -/
def stepIn (ns : CString) (m : Manager) : Op → Manager
  | .createRole role past => (createRole m past (some ns) role).2
  | .updateRole role past => (updateRole m past (some ns) role).2
  | .deleteRole name => (deleteRole m (some ns) name).2
  | .addRuleToRole name rule front => (addRuleToRole m front (some ns) name rule).2
  | .createRoleBinding binding past => (createRoleBinding m past (some ns) binding).2
  | .updateRoleBinding binding past => (updateRoleBinding m past (some ns) binding).2
  | .deleteRoleBinding name => (deleteRoleBinding m (some ns) name).2
  | .addSubjectToBinding name subject front => (addSubjectToBinding m front (some ns) name subject).2

/-- **Isolation**: no sequence of calls for `A`, from any policy, changes an answer for `B`. -/
def Isolated (A B : CString) : Prop :=
  ∀ (m : Manager) (ops : List Op) (c : Call), c.ns = some B →
    canPerformAction (Runs.run (stepIn A) m ops) c = canPerformAction m c

/-! ## What a namespace sees -/

/-- The part of the policy that is in force in a namespace. -/
def Manager.view (m : Manager) (ns : CString) : Manager where
  roles := m.roles.filter fun r => r.ns == ns
  roleBindings := m.roleBindings.filter fun b => b.ns == ns
  clusterRoles := m.clusterRoles
  clusterRoleBindings := m.clusterRoleBindings

theorem role_view (m : Manager) (ns : CString) : (m.view ns).role ns = m.role ns := by
  funext name
  unfold Manager.role Manager.view
  rw [List.find?_filter]
  congr 1
  funext r
  cases r.name == name <;> cases r.ns == ns <;> rfl

theorem matchedBinding_view {m : Manager} {req : Request} {ns : CString} (hns : req.ns = some ns) :
    matchedBinding (m.view ns) req = matchedBinding m req := by
  unfold matchedBinding
  rw [hns]
  dsimp only
  rw [role_view]
  have hbindings : (m.view ns).roleBindings.find? (fun b => b.ns == ns && grants req (m.role ns) b) =
      m.roleBindings.find? fun b => b.ns == ns && grants req (m.role ns) b := by
    unfold Manager.view
    rw [List.find?_filter]
    congr 1
    funext b
    cases b.ns == ns <;> simp
  rw [hbindings]
  rfl

theorem request_ns {c : Call} {req : Request} (h : c.request = some req) : req.ns = c.ns := by
  unfold Call.request at h
  split at h
  · cases h
    rfl
  · cases h

/-- **An answer for a namespace reads only what is in force there.** -/
theorem canPerformAction_view {m : Manager} {c : Call} {ns : CString} (hns : c.ns = some ns) :
    canPerformAction (m.view ns) c = canPerformAction m c := by
  unfold canPerformAction
  cases hreq : c.request with
  | none => rfl
  | some req =>
    dsimp only
    rw [matchedBinding_view ((request_ns hreq).trans hns)]

/-! ## What a call leaves alone -/

section Records

variable {α : Type} {limit : Nat} {named p : α → Bool} {l l' : List α}

theorem filter_createRecord {new : α} (hnew : p new = false)
    (h : createRecord limit named l new = some l') : l'.filter p = l.filter p := by
  unfold createRecord at h
  split at h
  · cases h
  split at h
  · cases h
  · cases h
    simp [hnew]

theorem filter_editRecord {edit : α → Option α} (hnamed : ∀ x, named x = true → p x = false)
    (hedit : ∀ x y, named x = true → edit x = some y → p y = false)
    (h : editRecord named l edit = some l') : l'.filter p = l.filter p := by
  unfold editRecord at h
  cases hs : l.splitFirst named with
  | none => simp [hs] at h
  | some r =>
    obtain ⟨before, x, after⟩ := r
    rw [hs] at h
    obtain ⟨y, hy, rfl⟩ := Option.map_eq_some_iff.mp h
    obtain ⟨rfl, hx, -⟩ := List.splitFirst_eq_some hs
    simp [hnamed x hx, hedit x y hx hy]

theorem filter_deleteRecord (hnamed : ∀ x, named x = true → p x = false)
    (h : deleteRecord named l = some l') : l'.filter p = l.filter p := by
  unfold deleteRecord at h
  cases hs : l.splitFirst named with
  | none => simp [hs] at h
  | some r =>
    obtain ⟨before, x, after⟩ := r
    rw [hs] at h
    cases h
    obtain ⟨rfl, hx, -⟩ := List.splitFirst_eq_some hs
    simp [hnamed x hx]

end Records

variable {A B : CString} {m : Manager}

/-- New Roles that are the same to `B`. -/
theorem view_withRoles {r : Option (List Role)}
    (h : ∀ roles, r = some roles →
      roles.filter (fun r => r.ns == B) = m.roles.filter fun r => r.ns == B) :
    (m.withRoles r).2.view B = m.view B := by
  cases r with
  | none => rfl
  | some roles => simp only [Manager.withRoles, Manager.view, h roles rfl]

/-- New RoleBindings that are the same to `B`. -/
theorem view_withRoleBindings {r : Option (List RoleBinding)}
    (h : ∀ bindings, r = some bindings →
      bindings.filter (fun b => b.ns == B) = m.roleBindings.filter fun b => b.ns == B) :
    (m.withRoleBindings r).2.view B = m.view B := by
  cases r with
  | none => rfl
  | some bindings => simp only [Manager.withRoleBindings, Manager.view, h bindings rfl]

theorem role_named_foreign (hne : A ≠ B) {name : CString} (r : Role) (h : r.named A name = true) :
    (r.ns == B) = false := by
  simp only [Role.named, Bool.and_eq_true, beq_iff_eq] at h
  rw [h.2]
  exact beq_false_of_ne hne

theorem roleBinding_named_foreign (hne : A ≠ B) {name : CString} (b : RoleBinding)
    (h : b.named A name = true) : (b.ns == B) = false := by
  simp only [RoleBinding.named, Bool.and_eq_true, beq_iff_eq] at h
  rw [h.2]
  exact beq_false_of_ne hne

/-- **What the field keeps does not lead to `B`**: `A` leaves room in it, or `B` does not begin so. -/
def KeptApart (A B : CString) : Prop := A.length < 63 ∨ ¬ A.take 63 <+: B

theorem KeptApart.stored (h : KeptApart A B) (hne : A ≠ B) (past : CString) : (storedNamespace past A == B) = false := by
  refine beq_false_of_ne ?_
  unfold storedNamespace CString.strncpyOver
  split
  · exact hne
  · rename_i hfull
    rintro rfl
    exact h.resolve_left hfull (List.prefix_append _ _)

theorem KeptApart.rewritten (h : KeptApart A B) (hne : A ≠ B) (front : CString) :
    (rewrittenBehind front A == B) = false := by
  refine beq_false_of_ne ?_
  unfold rewrittenBehind
  split
  · exact hne
  · rename_i hlong
    rintro rfl
    refine h.resolve_left (by omega) ((List.prefix_take_iff.mpr ⟨List.take_prefix 63 A, ?_⟩).trans (List.prefix_append _ _))
    rw [List.length_take]
    omega

/-- The namespace of a record of `A`, whether or not something is written behind it. -/
theorem KeptApart.edited (h : KeptApart A B) (hne : A ≠ B) {ns : CString} (hns : ns = A) (isEmpty : Bool)
    (front : CString) : ((if isEmpty then rewrittenBehind front ns else ns) == B) = false := by
  cases isEmpty with
  | true => exact hns ▸ h.rewritten hne front
  | false => exact hns ▸ beq_false_of_ne hne

theorem role_named_ns {r : Role} {name : CString} (h : r.named A name = true) : r.ns = A :=
  beq_iff_eq.mp (Bool.and_eq_true_iff.mp h).2

theorem roleBinding_named_ns {b : RoleBinding} {name : CString} (h : b.named A name = true) : b.ns = A :=
  beq_iff_eq.mp (Bool.and_eq_true_iff.mp h).2

/-- **The step**: a call for `A` leaves what `B` sees alone, unless the field can lead from `A` to `B`. -/
theorem view_stepIn (hne : A ≠ B) (happart : KeptApart A B) (op : Op) :
    (stepIn A m op).view B = m.view B := by
  cases op with
  | createRole role past =>
    cases role with
    | none => rfl
    | some role => exact view_withRoles fun roles h => filter_createRecord (happart.stored hne past) h
  | updateRole role past =>
    cases role with
    | none => rfl
    | some role =>
      refine view_withRoles fun roles h => filter_editRecord (role_named_foreign hne) ?_ h
      rintro x y - hy
      cases hy
      exact happart.stored hne past
  | deleteRole name =>
    cases name with
    | none => rfl
    | some name => exact view_withRoles fun roles h => filter_deleteRecord (role_named_foreign hne) h
  | addRuleToRole name rule front =>
    cases name with
    | none => rfl
    | some name =>
      cases rule with
      | none => rfl
      | some rule =>
        refine view_withRoles fun roles h => filter_editRecord (role_named_foreign hne) ?_ h
        intro x y hx hy
        split at hy
        · cases hy
        · cases hy
          exact happart.edited hne (role_named_ns hx) _ front
  | createRoleBinding binding past =>
    cases binding with
    | none => rfl
    | some binding => exact view_withRoleBindings fun bindings h => filter_createRecord (happart.stored hne past) h
  | updateRoleBinding binding past =>
    cases binding with
    | none => rfl
    | some binding =>
      refine view_withRoleBindings fun bindings h =>
        filter_editRecord (roleBinding_named_foreign hne) ?_ h
      rintro x y - hy
      cases hy
      exact happart.stored hne past
  | deleteRoleBinding name =>
    cases name with
    | none => rfl
    | some name =>
      exact view_withRoleBindings fun bindings h =>
        filter_deleteRecord (roleBinding_named_foreign hne) h
  | addSubjectToBinding name subject front =>
    cases name with
    | none => rfl
    | some name =>
      cases subject with
      | none => rfl
      | some subject =>
        refine view_withRoleBindings fun bindings h =>
          filter_editRecord (roleBinding_named_foreign hne) ?_ h
        intro x y hx hy
        split at hy
        · cases hy
        · cases hy
          exact happart.edited hne (roleBinding_named_ns hx) _ front

/-- **The run**: nor does any sequence of calls. -/
theorem view_run (hne : A ≠ B) (happart : KeptApart A B) (ops : List Op) :
    (Runs.run (stepIn A) m ops).view B = m.view B := by
  induction ops generalizing m with
  | nil => rfl
  | cons op ops ih => rw [Runs.run_cons, ih, view_stepIn hne happart]

/-! ## A namespace that leads to another -/

/-- The subject `eve` is bound to a role that the namespace does not have. -/
def eveBound (ns : CString) : Manager := ⟨[], [⟨"eve", ns, [⟨.user, "eve"⟩], "admin"⟩], [], []⟩

/-- A tenant creates that role in its own namespace. The record's first rule begins with what `past` has behind its first
byte, as the memory does; the second one allows everything. -/
def selfGrant (past : CString) : List Op :=
  [.createRole (some ⟨"admin", "", [⟨[past.tail], [], [], []⟩, ⟨["*"], ["*"], ["*"], []⟩]⟩) past]

/-- The subject asks for a secret of a namespace. -/
def readSecret (ns : CString) : Call :=
  ⟨some "eve", none, some "get", some "", some "secrets", some ns, some "token"⟩

/-- What `selfGrant` stores is in force where the field says. -/
theorem selfGrant_allows (A past : CString) :
    (canPerformAction (Runs.run (stepIn A) (eveBound (storedNamespace past A)) (selfGrant past))
      (readSecret (storedNamespace past A))).1 = 0 := by
  rw [canPerformAction_eq_zero_iff]
  refine ⟨_, rfl, matchedBinding_isSome_iff.mpr (.inr ⟨_, rfl, _, List.mem_singleton.mpr rfl, rfl, ?_⟩)⟩
  refine ⟨⟨_, List.mem_singleton.mpr rfl, rfl⟩, ?_⟩
  have hrole : (Runs.run (stepIn A) (eveBound (storedNamespace past A)) (selfGrant past)).role (storedNamespace past A)
      "admin" = some ⟨"admin", storedNamespace past A, [⟨[past.tail], [], [], []⟩, ⟨["*"], ["*"], ["*"], []⟩]⟩ := by
    unfold Manager.role
    exact List.find?_cons_of_pos (by simp)
  refine ⟨_, hrole, _, List.mem_cons_of_mem _ List.mem_cons_self, ?_⟩
  exact ruleMatches_iff.mp rfl

/-- Without the role, the binding grants nothing. -/
theorem eveBound_denies (ns : CString) (c : Call) : (canPerformAction (eveBound ns) c).1 ≠ 0 := by
  rw [Ne, canPerformAction_eq_zero_iff]
  rintro ⟨req, -, h⟩
  rcases matchedBinding_isSome_iff.mp h with ⟨b, hb, -⟩ | ⟨ns, -, b, hb, -, -, role, hrole, -⟩
  · exact List.not_mem_nil hb
  · cases hrole

/-- **Isolation, exactly.** Of two different namespaces, the second is isolated from what is done in
the first **iff** the first one has fewer than 63 bytes or the second one does not begin with those the field keeps. -/
theorem isolated_iff (A B : CString) (hne : A ≠ B) : Isolated A B ↔ KeptApart A B := by
  constructor
  · intro h
    by_contra hlead
    unfold KeptApart at hlead
    rw [not_or, not_not] at hlead
    obtain ⟨hlong, past, hB⟩ := hlead
    have hstored : storedNamespace past A = B := by
      rw [storedNamespace, CString.strncpyOver, if_neg hlong, hB]
    have hrun := h (eveBound (storedNamespace past A)) (selfGrant past) (readSecret (storedNamespace past A))
      (congrArg some hstored)
    exact eveBound_denies _ _ (hrun ▸ selfGrant_allows A past)
  · intro happart m ops c hns
    rw [← canPerformAction_view hns, view_run hne happart, canPerformAction_view hns]

/-- Two short names: what `team-a` does stays in `team-a`. -/
theorem isolated_teams : (CString.ofString "team-a" ≠ CString.ofString "team-b") ∧
    Isolated (CString.ofString "team-a") (CString.ofString "team-b") :=
  ⟨by decide, (isolated_iff _ _ (by decide)).mpr (.inl (by decide))⟩

/-- **Privileges across namespaces**: a role that is created in the namespace of 64 letters is in force in that of 63. -/
theorem not_isolated_long :
    ¬ ∀ A B : CString, A.length ≤ 253 → B.length ≤ 253 → A ≠ B → Isolated A B := by
  intro h
  have hiso := h (List.replicate 64 97) (List.replicate 63 97) (by decide) (by decide) (by decide)
  have hrun := hiso (eveBound (storedNamespace [] (List.replicate 64 97))) (selfGrant [])
    (readSecret (List.replicate 63 97)) rfl
  exact eveBound_denies _ _ (hrun ▸ selfGrant_allows (List.replicate 64 97) [])

end Sirah.Rbac
