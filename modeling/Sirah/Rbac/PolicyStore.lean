import Sirah.Lib.BoundedMap
import Sirah.Rbac.Isolation

/-!
# The stored policy as four maps

The remaining calls of `sirah/internal/rbac/rbac_manager.c` that change the policy (the ClusterRoles and their bindings,
the removal of a rule and of a subject, the default role and the bindings made for one user or group), and what the four
arrays are for: maps from names to rules, and from names to subjects and the name of a role.

* `Policy` and `Policy.step`: the four maps and the calls on them. `Policy.Permits` reads nothing but the maps.
* `Models`: the four arrays represent the four maps, which one call after the other keeps (`Models.step`).
* **`policy_refined`**: after every run of calls from `rbac_manager_init`, for namespaces that leave room in their fields,
  a call of `rbac_can_perform_action` answers 0 exactly if the maps permit it.
-/

namespace Sirah.Rbac

open Runs KeyedRecords

/-! ## The remaining calls -/

/-- `rbac_remove_rule_from_role`; `front` is the text that stands behind the namespace afterwards, where the first rule
was. -/
def removeRuleFromRole (m : Manager) (ns name : CString) (ruleIndex : Int) (front : CString) : Int × Manager :=
  if ruleIndex < 0 then (-1, m)
  else m.withRoles (editRecord (Role.named ns name) m.roles fun r =>
    if ruleIndex ≥ r.rules.length then none
    else some { r with
      rules := r.rules.eraseIdx ruleIndex.toNat
      ns := if ruleIndex = 0 then rewrittenBehind front r.ns else r.ns })

/-- `rbac_remove_subject_from_binding`: the first subject of the name and the type. -/
def removeSubjectFromBinding (m : Manager) (ns name : CString) (subject : Subject) (front : CString) : Int × Manager :=
  m.withRoleBindings (editRecord (RoleBinding.named ns name) m.roleBindings fun b =>
    if b.subjects.any fun s => s.name == subject.name && s.type == subject.type then
      some { b with
        subjects := b.subjects.eraseP fun s => s.name == subject.name && s.type == subject.type
        ns := if (b.subjects.findIdx fun s => s.name == subject.name && s.type == subject.type) = 0 then
            rewrittenBehind front b.ns
          else b.ns }
    else none)

/-- The return value with the new ClusterRoles, or `-1` with the old ones. -/
def Manager.withClusterRoles (m : Manager) : Option (List Role) → Int × Manager
  | some roles => (0, { m with clusterRoles := roles })
  | none => (-1, m)

/-- The return value with the new ClusterRoleBindings, or `-1` with the old ones. -/
def Manager.withClusterRoleBindings (m : Manager) : Option (List RoleBinding) → Int × Manager
  | some bindings => (0, { m with clusterRoleBindings := bindings })
  | none => (-1, m)

/-- `rbac_create_cluster_role`. -/
def createClusterRole (m : Manager) (role : Role) : Int × Manager :=
  m.withClusterRoles (createRecord 200 (fun r => r.name == role.name) m.clusterRoles { role with ns := "" })

/-- `rbac_update_cluster_role`. -/
def updateClusterRole (m : Manager) (role : Role) : Int × Manager :=
  m.withClusterRoles (editRecord (fun r => r.name == role.name) m.clusterRoles fun _ => some { role with ns := "" })

/-- `rbac_delete_cluster_role`. -/
def deleteClusterRole (m : Manager) (name : CString) : Int × Manager :=
  m.withClusterRoles (deleteRecord (fun r => r.name == name) m.clusterRoles)

/-- `rbac_create_cluster_role_binding`. -/
def createClusterRoleBinding (m : Manager) (binding : RoleBinding) : Int × Manager :=
  m.withClusterRoleBindings (createRecord 500 (fun b => b.name == binding.name) m.clusterRoleBindings
    { binding with ns := "" })

/-- `rbac_update_cluster_role_binding`. -/
def updateClusterRoleBinding (m : Manager) (binding : RoleBinding) : Int × Manager :=
  m.withClusterRoleBindings (editRecord (fun b => b.name == binding.name) m.clusterRoleBindings fun _ =>
    some { binding with ns := "" })

/-- `rbac_delete_cluster_role_binding`. -/
def deleteClusterRoleBinding (m : Manager) (name : CString) : Int × Manager :=
  m.withClusterRoleBindings (deleteRecord (fun b => b.name == name) m.clusterRoleBindings)

/-- The rule that allows everything. -/
def wildcardRule : Rule := ⟨["*"], ["*"], ["*"], []⟩

/-- `rbac_create_default_roles`. -/
def createDefaultRoles (m : Manager) : Int × Manager := createClusterRole m ⟨"system:masters", "", [wildcardRule]⟩

/-- `rbac_manager_init`. -/
def managerInit : Manager := (createDefaultRoles ⟨[], [], [], []⟩).2

/-- The binding that `rbac_create_admin_binding` creates. -/
def adminBinding (user : CString) : RoleBinding :=
  ⟨CString.snprintf 256 ("admin-" ++ user), "", [⟨.user, user.take 255⟩], "system:masters"⟩

/-- `rbac_create_admin_binding`. -/
def createAdminBinding (m : Manager) (user : CString) : Int × Manager := createClusterRoleBinding m (adminBinding user)

/-- The binding that `rbac_create_readonly_binding` creates. -/
def readonlyBinding (group : CString) : RoleBinding :=
  ⟨CString.snprintf 256 ("readonly-" ++ group), "", [⟨.group, group.take 255⟩], "system:unauthenticated"⟩

/-- `rbac_create_readonly_binding`. -/
def createReadonlyBinding (m : Manager) (group : CString) : Int × Manager :=
  createClusterRoleBinding m (readonlyBinding group)

/-- A call that changes the policy; an argument that is NULL is refused. `past` and `front` are as in `Op`. -/
inductive PolicyOp where
  | createRole (ns : CString) (role : Role) (past : CString)
  | updateRole (ns : CString) (role : Role) (past : CString)
  | deleteRole (ns name : CString)
  | addRuleToRole (ns name : CString) (rule : Rule) (front : CString)
  | removeRuleFromRole (ns name : CString) (ruleIndex : Int) (front : CString)
  | createRoleBinding (ns : CString) (binding : RoleBinding) (past : CString)
  | updateRoleBinding (ns : CString) (binding : RoleBinding) (past : CString)
  | deleteRoleBinding (ns name : CString)
  | addSubjectToBinding (ns name : CString) (subject : Subject) (front : CString)
  | removeSubjectFromBinding (ns name : CString) (subject : Subject) (front : CString)
  | createClusterRole (role : Role)
  | updateClusterRole (role : Role)
  | deleteClusterRole (name : CString)
  | createClusterRoleBinding (binding : RoleBinding)
  | updateClusterRoleBinding (binding : RoleBinding)
  | deleteClusterRoleBinding (name : CString)
  | createAdminBinding (user : CString)
  | createReadonlyBinding (group : CString)

def policyStep (m : Manager) : PolicyOp → Manager
  | .createRole ns role past => (createRole m past (some ns) (some role)).2
  | .updateRole ns role past => (updateRole m past (some ns) (some role)).2
  | .deleteRole ns name => (deleteRole m (some ns) (some name)).2
  | .addRuleToRole ns name rule front => (addRuleToRole m front (some ns) (some name) (some rule)).2
  | .removeRuleFromRole ns name ruleIndex front => (removeRuleFromRole m ns name ruleIndex front).2
  | .createRoleBinding ns binding past => (createRoleBinding m past (some ns) (some binding)).2
  | .updateRoleBinding ns binding past => (updateRoleBinding m past (some ns) (some binding)).2
  | .deleteRoleBinding ns name => (deleteRoleBinding m (some ns) (some name)).2
  | .addSubjectToBinding ns name subject front => (addSubjectToBinding m front (some ns) (some name) (some subject)).2
  | .removeSubjectFromBinding ns name subject front => (removeSubjectFromBinding m ns name subject front).2
  | .createClusterRole role => (createClusterRole m role).2
  | .updateClusterRole role => (updateClusterRole m role).2
  | .deleteClusterRole name => (deleteClusterRole m name).2
  | .createClusterRoleBinding binding => (createClusterRoleBinding m binding).2
  | .updateClusterRoleBinding binding => (updateClusterRoleBinding m binding).2
  | .deleteClusterRoleBinding name => (deleteClusterRoleBinding m name).2
  | .createAdminBinding user => (createAdminBinding m user).2
  | .createReadonlyBinding group => (createReadonlyBinding m group).2

/-- The namespace of the call leaves room in its field. -/
def PolicyOp.Fits : PolicyOp → Prop
  | .createRole ns _ _ | .updateRole ns _ _ | .addRuleToRole ns _ _ _ | .removeRuleFromRole ns _ _ _ => ns.length < 63
  | .createRoleBinding ns _ _ | .updateRoleBinding ns _ _ | .addSubjectToBinding ns _ _ _
  | .removeSubjectFromBinding ns _ _ _ => ns.length < 63
  | _ => True

/-! ## The maps -/

/-- What a binding binds: its subjects, and the name of a role. -/
structure Bound where
  subjects : List Subject
  roleName : CString

/-- **The policy**: rules under the names of roles, and bindings under their names. -/
structure Policy where
  roles : CString × CString → Option (List Rule)
  roleBindings : CString × CString → Option Bound
  clusterRoles : CString → Option (List Rule)
  clusterRoleBindings : CString → Option Bound

namespace Policy

/-- The policy without names. -/
def empty : Policy := ⟨fun _ => none, fun _ => none, fun _ => none, fun _ => none⟩

def onRoles (p : Policy) (f : (CString × CString → Option (List Rule)) → CString × CString → Option (List Rule)) :
    Policy := { p with roles := f p.roles }

def onRoleBindings (p : Policy) (f : (CString × CString → Option Bound) → CString × CString → Option Bound) : Policy :=
  { p with roleBindings := f p.roleBindings }

def onClusterRoles (p : Policy) (f : (CString → Option (List Rule)) → CString → Option (List Rule)) : Policy :=
  { p with clusterRoles := f p.clusterRoles }

def onClusterRoleBindings (p : Policy) (f : (CString → Option Bound) → CString → Option Bound) : Policy :=
  { p with clusterRoleBindings := f p.clusterRoleBindings }

/-- A binding named at most once, with its subjects and its role. -/
noncomputable def bind (name : CString) (bound : Bound) (p : Policy) : Policy :=
  p.onClusterRoleBindings (insertNew 500 name bound)

/-- **A call on the maps.** -/
noncomputable def step (p : Policy) : PolicyOp → Policy
  | .createRole ns role _ => p.onRoles (insertNew 1000 (ns, role.name) role.rules)
  | .updateRole ns role _ => p.onRoles (editAt (ns, role.name) fun _ => some role.rules)
  | .deleteRole ns name => p.onRoles (erase (ns, name))
  | .addRuleToRole ns name rule _ => p.onRoles (editAt (ns, name) fun rules =>
      if rules.length ≥ 50 then none else some (rules ++ [rule]))
  | .removeRuleFromRole ns name i _ => p.onRoles (editAt (ns, name) fun rules =>
      if i < 0 ∨ i ≥ rules.length then none else some (rules.eraseIdx i.toNat))
  | .createRoleBinding ns b _ => p.onRoleBindings (insertNew 2000 (ns, b.name) ⟨b.subjects, b.roleName⟩)
  | .updateRoleBinding ns b _ => p.onRoleBindings (editAt (ns, b.name) fun _ => some ⟨b.subjects, b.roleName⟩)
  | .deleteRoleBinding ns name => p.onRoleBindings (erase (ns, name))
  | .addSubjectToBinding ns name subject _ => p.onRoleBindings (editAt (ns, name) fun b =>
      if b.subjects.length ≥ 20 then none else some { b with subjects := b.subjects ++ [subject] })
  | .removeSubjectFromBinding ns name subject _ => p.onRoleBindings (editAt (ns, name) fun b =>
      if b.subjects.any fun s => s.name == subject.name && s.type == subject.type then
        some { b with subjects := b.subjects.eraseP fun s => s.name == subject.name && s.type == subject.type }
      else none)
  | .createClusterRole role => p.onClusterRoles (insertNew 200 role.name role.rules)
  | .updateClusterRole role => p.onClusterRoles (editAt role.name fun _ => some role.rules)
  | .deleteClusterRole name => p.onClusterRoles (erase name)
  | .createClusterRoleBinding b => p.bind b.name ⟨b.subjects, b.roleName⟩
  | .updateClusterRoleBinding b => p.onClusterRoleBindings (editAt b.name fun _ => some ⟨b.subjects, b.roleName⟩)
  | .deleteClusterRoleBinding name => p.onClusterRoleBindings (erase name)
  | .createAdminBinding user => p.bind (adminBinding user).name ⟨(adminBinding user).subjects, (adminBinding user).roleName⟩
  | .createReadonlyBinding group =>
    p.bind (readonlyBinding group).name ⟨(readonlyBinding group).subjects, (readonlyBinding group).roleName⟩

/-- The policy after `rbac_manager_init`. -/
noncomputable def init : Policy := empty.onClusterRoles (insertNew 200 "system:masters" [wildcardRule])

/-- A binding has one of the caller's names among its subjects, and a rule of its role accepts the action. -/
def Bound.Grants (b : Bound) (rulesOf : CString → Option (List Rule)) (req : Request) : Prop :=
  (∃ s ∈ b.subjects, s.Covers req ∨ s.OccursIn req) ∧
    ∃ rules, rulesOf b.roleName = some rules ∧ ∃ rule ∈ rules, rule.Accepts req

/-- **What the maps permit**: a binding of the cluster grants the request, or one of its namespace. -/
def Permits (p : Policy) (req : Request) : Prop :=
  (∃ name b, p.clusterRoleBindings name = some b ∧ Bound.Grants b p.clusterRoles req) ∨
    ∃ ns, req.ns = some ns ∧ ∃ name b, p.roleBindings (ns, name) = some b ∧
      Bound.Grants b (fun role => p.roles (ns, role)) req

end Policy

/-! ## A table and its map -/

section Table

variable {α β κ : Type} [DecidableEq κ] {key : α → κ} {val : α → β} {named : α → Bool} {l : List α}
  {m : κ → Option β} {k : κ} {limit : Nat}

theorem table_create {new : α} {v : β} (h : Represents key (fun x v => val x = v) l m)
    (hnamed : ∀ x, named x = decide (key x = k)) (hkey : key new = k) (hval : val new = v) :
    Represents key (fun x v => val x = v) ((createRecord limit named l new).getD l) (insertNew limit k v m) := by
  have htaken : l.any named = true ↔ k ∈ l.map key := by
    simp only [List.any_eq_true, hnamed, decide_eq_true_eq, List.mem_map]
  rw [createRecord]
  split
  · next hfull => rw [Option.getD_none, h.insertNew_of_full hfull]; exact h
  · next hroom =>
    split
    · next hany =>
      rw [Option.getD_none, insertNew_of_taken (h.mem_keys_iff.mp (htaken.mp hany))]
      exact h
    · next hfree =>
      subst hkey
      exact h.insertNew (by omega) (fun hmem => hfree (htaken.mpr hmem)) hval

theorem table_edit {edit : α → Option α} {f : β → Option β} (h : Represents key (fun x v => val x = v) l m)
    (hnamed : ∀ x, named x = decide (key x = k)) (hedit : ∀ x, (edit x).map val = f (val x))
    (hkey : ∀ x y, key x = k → edit x = some y → key y = k) :
    Represents key (fun x v => val x = v) ((editRecord named l edit).getD l) (editAt k f m) := by
  rw [editRecord, show named = fun x => decide (key x = k) from funext hnamed]
  rcases List.splitFirst_key_cases key l k with ⟨hnone, hfree⟩ | ⟨pre, x, post, hsome, rfl, hx⟩
  · rw [hnone, editAt_of_none (h.eq_none_iff.mpr hfree)]
    exact h
  · rw [hsome]
    obtain ⟨v, hv, rfl⟩ := h.value_of_mem
    rw [hx] at hv
    cases hy : edit x with
    | none =>
      have hf : f (val x) = none := by rw [← hedit, hy, Option.map_none]
      rw [editAt_of_refused hv hf]
      simpa only [hy, Option.map_none, Option.getD_none] using h
    | some y =>
      have hf : f (val x) = some (val y) := by rw [← hedit, hy, Option.map_some]
      have hy' : key y = key x := (hkey x y hx hy).trans hx.symm
      simp only [hy, Option.map_some, Option.getD_some]
      subst hx
      exact h.editAt hv hf hy' rfl

theorem table_delete (h : Represents key (fun x v => val x = v) l m) (hnamed : ∀ x, named x = decide (key x = k)) :
    Represents key (fun x v => val x = v) ((deleteRecord named l).getD l) (erase k m) := by
  rw [deleteRecord, show named = fun x => decide (key x = k) from funext hnamed]
  rcases List.splitFirst_key_cases key l k with ⟨hnone, hfree⟩ | ⟨pre, x, post, hsome, rfl, hx⟩
  · rw [hnone, h.erase_of_free hfree]
    exact h
  · rw [hsome]
    subst hx
    exact h.erase

end Table

/-! ## The manager and its policy -/

/-- The name of a Role or a RoleBinding, with its namespace. -/
def Role.key (r : Role) : CString × CString := (r.ns, r.name)

def RoleBinding.key (b : RoleBinding) : CString × CString := (b.ns, b.name)

def RoleBinding.bound (b : RoleBinding) : Bound := ⟨b.subjects, b.roleName⟩

/-- **The four arrays are the four maps.** -/
structure Models (m : Manager) (p : Policy) : Prop where
  roles : Represents Role.key (fun r rules => r.rules = rules) m.roles p.roles
  roleBindings : Represents RoleBinding.key (fun b v => b.bound = v) m.roleBindings p.roleBindings
  clusterRoles : Represents Role.name (fun r rules => r.rules = rules) m.clusterRoles p.clusterRoles
  clusterRoleBindings : Represents RoleBinding.name (fun b v => b.bound = v) m.clusterRoleBindings p.clusterRoleBindings

variable {m : Manager} {p : Policy}

theorem Role.named_eq (ns name : CString) (r : Role) : r.named ns name = decide (r.key = (ns, name)) := by
  rw [Bool.eq_iff_iff]
  simp [Role.named, Role.key, and_comm]

theorem RoleBinding.named_eq (ns name : CString) (b : RoleBinding) : b.named ns name = decide (b.key = (ns, name)) := by
  rw [Bool.eq_iff_iff]
  simp [RoleBinding.named, RoleBinding.key, and_comm]

/-- The test of the loops over the records of the cluster. -/
theorem beq_name (name name' : CString) : (name == name') = decide (name = name') := by
  rw [Bool.eq_iff_iff]
  simp

theorem storedNamespace_of_fits {past ns : CString} (h : ns.length < 63) : storedNamespace past ns = ns :=
  CString.strncpyOver_eq_iff.mpr (.inl h)

theorem rewrittenBehind_of_fits {front ns : CString} (h : ns.length < 63) : rewrittenBehind front ns = ns :=
  if_pos (Nat.le_of_lt h)

/-- A Role whose namespace leaves room keeps its key, whatever is written behind it. -/
theorem Role.key_edited {r : Role} {ns name front : CString} {rules : List Rule} {c : Prop} [Decidable c]
    (hr : r.key = (ns, name)) (h : ns.length < 63) :
    Role.key { r with rules := rules, ns := if c then rewrittenBehind front r.ns else r.ns } = (ns, name) := by
  obtain ⟨rfl, rfl⟩ := Prod.mk.injEq _ _ _ _ ▸ hr
  rw [Role.key, rewrittenBehind_of_fits h, ite_self]

theorem RoleBinding.key_edited {b : RoleBinding} {ns name front : CString} {subjects : List Subject} {c : Prop}
    [Decidable c] (hb : b.key = (ns, name)) (h : ns.length < 63) :
    RoleBinding.key { b with subjects := subjects, ns := if c then rewrittenBehind front b.ns else b.ns } =
      (ns, name) := by
  obtain ⟨rfl, rfl⟩ := Prod.mk.injEq _ _ _ _ ▸ hb
  rw [RoleBinding.key, rewrittenBehind_of_fits h, ite_self]

theorem withRoles_eq (m : Manager) (l : Option (List Role)) : (m.withRoles l).2 = { m with roles := l.getD m.roles } := by
  cases l <;> rfl

theorem withRoleBindings_eq (m : Manager) (l : Option (List RoleBinding)) :
    (m.withRoleBindings l).2 = { m with roleBindings := l.getD m.roleBindings } := by
  cases l <;> rfl

theorem withClusterRoles_eq (m : Manager) (l : Option (List Role)) :
    (m.withClusterRoles l).2 = { m with clusterRoles := l.getD m.clusterRoles } := by
  cases l <;> rfl

theorem withClusterRoleBindings_eq (m : Manager) (l : Option (List RoleBinding)) :
    (m.withClusterRoleBindings l).2 = { m with clusterRoleBindings := l.getD m.clusterRoleBindings } := by
  cases l <;> rfl

/-- A change of the Roles that is a call of their map. -/
theorem Models.withRoles (h : Models m p) {l : Option (List Role)}
    {f : (CString × CString → Option (List Rule)) → CString × CString → Option (List Rule)}
    (hl : Represents Role.key (fun r rules => r.rules = rules) (l.getD m.roles) (f p.roles)) :
    Models (m.withRoles l).2 (p.onRoles f) := by
  rw [withRoles_eq]
  exact ⟨hl, h.roleBindings, h.clusterRoles, h.clusterRoleBindings⟩

theorem Models.withRoleBindings (h : Models m p) {l : Option (List RoleBinding)}
    {f : (CString × CString → Option Bound) → CString × CString → Option Bound}
    (hl : Represents RoleBinding.key (fun b v => b.bound = v) (l.getD m.roleBindings) (f p.roleBindings)) :
    Models (m.withRoleBindings l).2 (p.onRoleBindings f) := by
  rw [withRoleBindings_eq]
  exact ⟨h.roles, hl, h.clusterRoles, h.clusterRoleBindings⟩

theorem Models.withClusterRoles (h : Models m p) {l : Option (List Role)}
    {f : (CString → Option (List Rule)) → CString → Option (List Rule)}
    (hl : Represents Role.name (fun r rules => r.rules = rules) (l.getD m.clusterRoles) (f p.clusterRoles)) :
    Models (m.withClusterRoles l).2 (p.onClusterRoles f) := by
  rw [withClusterRoles_eq]
  exact ⟨h.roles, h.roleBindings, hl, h.clusterRoleBindings⟩

theorem Models.withClusterRoleBindings (h : Models m p) {l : Option (List RoleBinding)}
    {f : (CString → Option Bound) → CString → Option Bound}
    (hl : Represents RoleBinding.name (fun b v => b.bound = v) (l.getD m.clusterRoleBindings)
      (f p.clusterRoleBindings)) :
    Models (m.withClusterRoleBindings l).2 (p.onClusterRoleBindings f) := by
  rw [withClusterRoleBindings_eq]
  exact ⟨h.roles, h.roleBindings, h.clusterRoles, hl⟩

/-- A binding of the cluster created. -/
theorem Models.createClusterRoleBinding (h : Models m p) (b : RoleBinding) :
    Models (createClusterRoleBinding m b).2 (p.bind b.name b.bound) :=
  h.withClusterRoleBindings (table_create h.clusterRoleBindings (fun _ => beq_name _ _) rfl rfl)

/-- **One call** of the manager is one of the maps. -/
theorem Models.step (h : Models m p) {op : PolicyOp} (hop : op.Fits) : Models (policyStep m op) (p.step op) := by
  cases op with
  | createRole ns role past =>
    refine h.withRoles (table_create h.roles (Role.named_eq ns role.name) ?_ rfl)
    rw [Role.key, storedNamespace_of_fits hop]
  | updateRole ns role past =>
    refine h.withRoles (table_edit h.roles (Role.named_eq ns role.name) (fun _ => rfl) ?_)
    rintro x y - hy
    rw [← Option.some.inj hy, Role.key, storedNamespace_of_fits hop]
  | deleteRole ns name => exact h.withRoles (table_delete h.roles (Role.named_eq ns name))
  | addRuleToRole ns name rule front =>
    refine h.withRoles (table_edit h.roles (Role.named_eq ns name) (fun r => ?_) ?_)
    · by_cases hfull : r.rules.length ≥ 50
      · rw [if_pos hfull, if_pos hfull, Option.map_none]
      · rw [if_neg hfull, if_neg hfull, Option.map_some]
    · rintro x y hx hy
      split at hy
      · cases hy
      · rw [← Option.some.inj hy]
        exact Role.key_edited hx hop
  | removeRuleFromRole ns name i front =>
    rw [policyStep, removeRuleFromRole, Policy.step]
    by_cases hneg : i < 0
    · rw [if_pos hneg]
      have hsame : p.onRoles (editAt (ns, name) fun rules =>
          if i < 0 ∨ i ≥ rules.length then none else some (rules.eraseIdx i.toNat)) = p := by
        have hrefused : (fun rules : List Rule =>
            if i < 0 ∨ i ≥ rules.length then none else some (rules.eraseIdx i.toNat)) = fun _ => none := by
          funext rules
          rw [if_pos (.inl hneg)]
        rw [hrefused, Policy.onRoles, editAt, Option.bind_fun_none]
      rw [hsame]
      exact h
    · rw [if_neg hneg]
      refine h.withRoles (table_edit h.roles (Role.named_eq ns name) (fun r => ?_) ?_)
      · by_cases hout : i ≥ r.rules.length
        · rw [if_pos hout, if_pos (.inr hout), Option.map_none]
        · rw [if_neg hout, if_neg (not_or.mpr ⟨hneg, hout⟩), Option.map_some]
      · rintro x y hx hy
        split at hy
        · cases hy
        · rw [← Option.some.inj hy]
          exact Role.key_edited hx hop
  | createRoleBinding ns b past =>
    refine h.withRoleBindings (table_create h.roleBindings (RoleBinding.named_eq ns b.name) ?_ rfl)
    rw [RoleBinding.key, storedNamespace_of_fits hop]
  | updateRoleBinding ns b past =>
    refine h.withRoleBindings (table_edit h.roleBindings (RoleBinding.named_eq ns b.name) (fun _ => rfl) ?_)
    rintro x y - hy
    rw [← Option.some.inj hy, RoleBinding.key, storedNamespace_of_fits hop]
  | deleteRoleBinding ns name => exact h.withRoleBindings (table_delete h.roleBindings (RoleBinding.named_eq ns name))
  | addSubjectToBinding ns name subject front =>
    refine h.withRoleBindings (table_edit h.roleBindings (RoleBinding.named_eq ns name) (fun b => ?_) ?_)
    · dsimp only [RoleBinding.bound]
      by_cases hfull : b.subjects.length ≥ 20
      · rw [if_pos hfull, if_pos hfull, Option.map_none]
      · rw [if_neg hfull, if_neg hfull, Option.map_some]
        rfl
    · rintro x y hx hy
      split at hy
      · cases hy
      · rw [← Option.some.inj hy]
        exact RoleBinding.key_edited hx hop
  | removeSubjectFromBinding ns name subject front =>
    refine h.withRoleBindings (table_edit h.roleBindings (RoleBinding.named_eq ns name) (fun b => ?_) ?_)
    · dsimp only [RoleBinding.bound]
      split <;> rfl
    · rintro x y hx hy
      split at hy
      · rw [← Option.some.inj hy]
        exact RoleBinding.key_edited hx hop
      · cases hy
  | createClusterRole role => exact h.withClusterRoles (table_create h.clusterRoles (fun _ => beq_name _ _) rfl rfl)
  | updateClusterRole role =>
    refine h.withClusterRoles (table_edit h.clusterRoles (fun _ => beq_name _ _) (fun _ => rfl) ?_)
    rintro x y - hy
    rw [← Option.some.inj hy]
  | deleteClusterRole name => exact h.withClusterRoles (table_delete h.clusterRoles fun _ => beq_name _ _)
  | createClusterRoleBinding b => exact h.createClusterRoleBinding b
  | updateClusterRoleBinding b =>
    refine h.withClusterRoleBindings (table_edit h.clusterRoleBindings (fun _ => beq_name _ _) (fun _ => rfl) ?_)
    rintro x y - hy
    rw [← Option.some.inj hy]
  | deleteClusterRoleBinding name => exact h.withClusterRoleBindings (table_delete h.clusterRoleBindings fun _ => beq_name _ _)
  | createAdminBinding user => exact h.createClusterRoleBinding (adminBinding user)
  | createReadonlyBinding group => exact h.createClusterRoleBinding (readonlyBinding group)

theorem models_init : Models managerInit Policy.init := by
  have hempty : Models ⟨[], [], [], []⟩ Policy.empty := ⟨represents_nil, represents_nil, represents_nil, represents_nil⟩
  exact hempty.withClusterRoles (table_create hempty.clusterRoles (fun _ => beq_name _ _) rfl rfl)

/-! ## Answers -/

theorem lookup_map_eq {α β κ : Type} [DecidableEq κ] {key : α → κ} {val : α → β} {l : List α} {f : κ → Option β}
    (h : Represents key (fun x v => val x = v) l f) (k : κ) : (lookup key k l).map val = f k := by
  have hmap := h.map_lookup (f := val) (g := id) (fun _ _ heq => heq) k
  rwa [Option.map_id, id_eq] at hmap

theorem mem_iff_of_represents {α β κ : Type} [DecidableEq κ] {key : α → κ} {val : α → β} {l : List α} {f : κ → Option β}
    (h : Represents key (fun x v => val x = v) l f) (k : κ) (v : β) :
    (∃ x ∈ l, key x = k ∧ val x = v) ↔ f k = some v := by
  constructor
  · rintro ⟨x, hx, rfl, rfl⟩
    obtain ⟨pre, post, rfl⟩ := List.append_of_mem hx
    obtain ⟨v, hv, rfl⟩ := h.value_of_mem
    exact hv
  · intro hv
    rw [← lookup_map_eq h k, Option.map_eq_some_iff] at hv
    obtain ⟨x, hx, rfl⟩ := hv
    rw [lookup] at hx
    have hkey := List.find?_some hx
    exact ⟨x, List.mem_of_find?_eq_some hx, of_decide_eq_true hkey, rfl⟩

/-- The rules that the code finds under the name of a ClusterRole. -/
theorem Models.clusterRole (h : Models m p) (name : CString) :
    (m.clusterRole name).map Role.rules = p.clusterRoles name := by
  have hfind : m.clusterRole name = lookup Role.name name m.clusterRoles := by
    rw [Manager.clusterRole, lookup]
    congr 1
    funext r
    exact beq_name r.name name
  rw [hfind]
  exact lookup_map_eq h.clusterRoles name

theorem Models.role (h : Models m p) (ns name : CString) : (m.role ns name).map Role.rules = p.roles (ns, name) := by
  have hfind : m.role ns name = lookup Role.key (ns, name) m.roles := by
    rw [Manager.role, lookup]
    congr 1
    funext r
    exact Role.named_eq ns name r
  rw [hfind]
  exact lookup_map_eq h.roles (ns, name)

/-- What the code asks of a binding, for the roles that the map has. -/
theorem grantedThrough_bound_iff {req : Request} {lookupRole : CString → Option Role}
    {rulesOf : CString → Option (List Rule)} (h : ∀ name, (lookupRole name).map Role.rules = rulesOf name)
    (b : RoleBinding) : GrantedThrough (fun s => s.Covers req ∨ s.OccursIn req) req lookupRole b ↔
      Policy.Bound.Grants b.bound rulesOf req := by
  rw [GrantedThrough, Policy.Bound.Grants]
  refine and_congr_right fun _ => ?_
  simp only [RoleBinding.bound, ← h, Option.map_eq_some_iff]
  constructor
  · rintro ⟨role, hrole, hrule⟩
    exact ⟨role.rules, ⟨role, hrole, rfl⟩, hrule⟩
  · rintro ⟨rules, ⟨role, hrole, rfl⟩, hrule⟩
    exact ⟨role, hrole, hrule⟩

/-- **The answer reads nothing but the maps.** -/
theorem Models.permits_iff (h : Models m p) (c : Call) :
    (canPerformAction m c).1 = 0 ↔ ∃ req, c.request = some req ∧ p.Permits req := by
  rw [canPerformAction_eq_zero_iff]
  refine exists_congr fun req => and_congr_right fun _ => ?_
  have hsubjects : Granted (fun s => subjectMatches req s = true) m req ↔
      Granted (fun s => s.Covers req ∨ s.OccursIn req) m req := by
    simp only [subjectMatches_iff]
  rw [matchedBinding_isSome_iff, hsubjects, Granted, Policy.Permits]
  refine or_congr ?_ (exists_congr fun ns => and_congr_right fun _ => ?_)
  · simp only [grantedThrough_bound_iff h.clusterRole]
    constructor
    · rintro ⟨b, hb, hgrants⟩
      exact ⟨b.name, b.bound, (mem_iff_of_represents h.clusterRoleBindings _ _).mp ⟨b, hb, rfl, rfl⟩, hgrants⟩
    · rintro ⟨name, bound, hbound, hgrants⟩
      obtain ⟨b, hb, -, rfl⟩ := (mem_iff_of_represents h.clusterRoleBindings _ _).mpr hbound
      exact ⟨b, hb, hgrants⟩
  · simp only [grantedThrough_bound_iff (h.role ns)]
    constructor
    · rintro ⟨b, hb, rfl, hgrants⟩
      exact ⟨b.name, b.bound, (mem_iff_of_represents h.roleBindings _ _).mp ⟨b, hb, rfl, rfl⟩, hgrants⟩
    · rintro ⟨name, bound, hbound, hgrants⟩
      obtain ⟨b, hb, hkey, rfl⟩ := (mem_iff_of_represents h.roleBindings _ _).mpr hbound
      exact ⟨b, hb, congrArg Prod.fst hkey, hgrants⟩

theorem models_run {ops : List PolicyOp} (h : Models m p) (hops : ∀ op ∈ ops, op.Fits) :
    Models (run policyStep m ops) (run Policy.step p ops) := by
  induction ops generalizing m p with
  | nil => exact h
  | cons op ops ih =>
    rw [List.forall_mem_cons] at hops
    rw [run_cons, run_cons]
    exact ih (h.step hops.1) hops.2

/-- **The decision refines the maps**, after every run of calls from the start. -/
theorem policy_refined {ops : List PolicyOp} (hops : ∀ op ∈ ops, op.Fits) (c : Call) :
    (canPerformAction (run policyStep managerInit ops) c).1 = 0 ↔
      ∃ req, c.request = some req ∧ (run Policy.step Policy.init ops).Permits req :=
  (models_run models_init hops).permits_iff c

/-- A group that may read the pods of its namespace until its binding is deleted. -/
theorem policy_refined_devs :
    (canPerformAction (run policyStep managerInit
      [.createRole "dev" ⟨"reader", "", [⟨[""], ["pods"], ["get"], []⟩]⟩ "",
        .createRoleBinding "dev" ⟨"devs", "", [⟨.group, "devs"⟩], "reader"⟩ "", .deleteRoleBinding "dev" "devs"])
      ⟨some "ann", some "devs", some "get", none, some "pods", some "dev", none⟩).1 = 0 ↔
    ∃ req, Call.request ⟨some "ann", some "devs", some "get", none, some "pods", some "dev", none⟩ = some req ∧
      (run Policy.step Policy.init
        [.createRole "dev" ⟨"reader", "", [⟨[""], ["pods"], ["get"], []⟩]⟩ "",
          .createRoleBinding "dev" ⟨"devs", "", [⟨.group, "devs"⟩], "reader"⟩ "",
          .deleteRoleBinding "dev" "devs"]).Permits req := by
  refine policy_refined (fun op hop => ?_) _
  simp only [List.mem_cons, List.not_mem_nil, or_false] at hop
  rcases hop with rfl | rfl | rfl
  · exact (by decide : (CString.ofString "dev").length < 63)
  · exact (by decide : (CString.ofString "dev").length < 63)
  · trivial

end Sirah.Rbac
