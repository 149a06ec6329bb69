import Sirah.Lib.CString

/-!
# The RBAC decision

Model of `rbac_can_perform_action` in `sirah/internal/rbac/rbac_manager.c` over the stored policy: the
roles and bindings of the namespaces and of the cluster, in the order of their arrays. A `char` array
is the C string in it and a counted array the list of its used elements. Of a role's and a binding's
fields the decision reads those below.

The two near-copies of the nest of loops, over the cluster's bindings and over the namespace's, are
`grants` at their own role lookup; the loops that stop at the first hit are `any` and `find?`.

`Authorized` is the policy as it is documented: the groups of a request are the comma-separated
elements of `groups`. The code looks for a group subject's name anywhere in that text.
**`can_perform_action_iff`**: the decision follows the policy **iff** the request is authorised anyway
whenever a binding grants it through a name that only occurs inside the text.
-/

namespace Sirah.Rbac

/-- `rbac_decision_t`. -/
inductive Decision where
  | allow
  | deny
  | noOpinion
  deriving DecidableEq, Repr

/-- `rbac_subject_type_t`. -/
inductive SubjectType where
  | user
  | group
  | serviceAccount
  deriving DecidableEq, Repr

/-- `rbac_subject_t`. -/
structure Subject where
  type : SubjectType
  name : CString
  deriving DecidableEq, Repr

/-- `rbac_rule_t`. -/
structure Rule where
  apiGroups : List CString
  resources : List CString
  verbs : List CString
  resourceNames : List CString
  deriving DecidableEq, Repr

/-- `rbac_role_t`; the namespace is empty for a ClusterRole. -/
structure Role where
  name : CString
  ns : CString
  rules : List Rule
  deriving DecidableEq, Repr

/-- `rbac_role_binding_t`; the namespace is empty for a ClusterRoleBinding. -/
structure RoleBinding where
  name : CString
  ns : CString
  subjects : List Subject
  roleName : CString
  deriving DecidableEq, Repr

/-- `rbac_manager_t`, the stored policy. -/
structure Manager where
  roles : List Role
  roleBindings : List RoleBinding
  clusterRoles : List Role
  clusterRoleBindings : List RoleBinding
  deriving DecidableEq, Repr

/-- `rbac_policy_decision_t`. -/
structure PolicyDecision where
  decision : Decision
  reason : CString
  matchedRule : CString
  deriving DecidableEq, Repr

/-- The arguments of a call, `none` for NULL. -/
structure Call where
  user : Option CString
  groups : Option CString
  verb : Option CString
  apiGroup : Option CString
  resource : Option CString
  ns : Option CString
  resourceName : Option CString
  deriving DecidableEq, Repr

/-- A request: what a call asks for once its mandatory arguments are there. -/
structure Request where
  user : CString
  groups : Option CString
  verb : CString
  apiGroup : Option CString
  resource : CString
  ns : Option CString
  resourceName : Option CString
  deriving DecidableEq, Repr

/-- The argument check; the place for the decision is always there. -/
def Call.request (c : Call) : Option Request :=
  match c.user, c.verb, c.resource with
  | some user, some verb, some resource =>
    some ⟨user, c.groups, verb, c.apiGroup, resource, c.ns, c.resourceName⟩
  | _, _, _ => none

/-! ## The decision -/

/-- The body `rbac_verb_matches` and `rbac_resource_matches` share. -/
def wildcardMatches : Option CString → Option CString → Bool
  | some rule, some target => rule == "*" || rule == target
  | _, _ => false

/-- `rbac_verb_matches`. -/
def verbMatches (ruleVerb targetVerb : Option CString) : Bool := wildcardMatches ruleVerb targetVerb

/-- `rbac_resource_matches`. -/
def resourceMatches (ruleResource targetResource : Option CString) : Bool :=
  wildcardMatches ruleResource targetResource

/-- One subject against the caller. -/
def subjectMatches (req : Request) (s : Subject) : Bool :=
  (s.type == .user && s.name == req.user) ||
    (s.type == .group && match req.groups with
      | some groups => CString.strstr groups s.name
      | none => false)

/-- One rule against the action. -/
def ruleMatches (req : Request) (rule : Rule) : Bool :=
  (rule.apiGroups.any fun g => g == "*" || g == req.apiGroup.getD "") &&
    (rule.resources.any fun r => resourceMatches (some r) (some req.resource)) &&
    (rule.verbs.any fun v => verbMatches (some v) (some req.verb)) &&
    match req.resourceName with
    | some name =>
      if rule.resourceNames.length > 0 then rule.resourceNames.any fun n => n == "*" || n == name
      else true
    | none => true

/-- The ClusterRole a binding refers to. -/
def Manager.clusterRole (m : Manager) (name : CString) : Option Role :=
  m.clusterRoles.find? fun r => r.name == name

/-- The Role of a namespace a binding refers to. -/
def Manager.role (m : Manager) (ns name : CString) : Option Role :=
  m.roles.find? fun r => r.name == name && r.ns == ns

/-- One binding, its role found by `lookup`. -/
def grants (req : Request) (lookup : CString → Option Role) (b : RoleBinding) : Bool :=
  b.subjects.any (subjectMatches req) &&
    match lookup b.roleName with
    | some role => role.rules.any (ruleMatches req)
    | none => false

/-- The loop over the ClusterRoleBindings and, when it found nothing and a namespace is given, the one
over that namespace's RoleBindings. -/
def matchedBinding (m : Manager) (req : Request) : Option RoleBinding :=
  match m.clusterRoleBindings.find? (grants req m.clusterRole) with
  | some b => some b
  | none =>
    match req.ns with
    | some ns => m.roleBindings.find? fun b => b.ns == ns && grants req (m.role ns) b
    | none => none

/-- `rbac_can_perform_action`: the return value, and the decision when one is written. -/
def canPerformAction (m : Manager) (c : Call) : Int × Option PolicyDecision :=
  match c.request with
  | none => (-1, none)
  | some req =>
    match matchedBinding m req with
    | some b =>
      (0, some ⟨.allow, CString.snprintf 512 ("Matched rule in " ++ b.roleName),
        CString.snprintf 512 b.roleName⟩)
    | none =>
      (-1, some ⟨.deny, CString.snprintf 512 ("No matching rule for " ++ req.user ++ " to " ++ req.verb
        ++ " " ++ req.resource), []⟩)

/-! ## The policy -/

/-- The rule accepts the action. -/
structure Rule.Accepts (rule : Rule) (req : Request) : Prop where
  apiGroup : ∃ g ∈ rule.apiGroups, g = "*" ∨ g = req.apiGroup.getD ""
  resource : ∃ r ∈ rule.resources, r = "*" ∨ r = req.resource
  verb : ∃ v ∈ rule.verbs, v = "*" ∨ v = req.verb
  resourceName : ∀ name, req.resourceName = some name → rule.resourceNames ≠ [] →
    ∃ n ∈ rule.resourceNames, n = "*" ∨ n = name

/-- The subject is the caller, or one of the caller's groups. -/
def Subject.Covers (s : Subject) (req : Request) : Prop :=
  (s.type = .user ∧ s.name = req.user) ∨
    (s.type = .group ∧ ∃ groups, req.groups = some groups ∧ s.name ∈ CString.splitOn 44 groups)

/-- The subject is a group whose name occurs in the text of the caller's groups without being one of
them. -/
def Subject.OccursIn (s : Subject) (req : Request) : Prop :=
  s.type = .group ∧ ∃ groups, req.groups = some groups ∧ s.name ∉ CString.splitOn 44 groups ∧
    CString.strstr groups s.name = true

/-- A binding grants the request through a subject of `P`, its role found by `lookup`. -/
def GrantedThrough (P : Subject → Prop) (req : Request) (lookup : CString → Option Role)
    (b : RoleBinding) : Prop :=
  (∃ s ∈ b.subjects, P s) ∧
    ∃ role, lookup b.roleName = some role ∧ ∃ rule ∈ role.rules, rule.Accepts req

/-- Some binding in force for the request grants it through a subject of `P`. -/
def Granted (P : Subject → Prop) (m : Manager) (req : Request) : Prop :=
  (∃ b ∈ m.clusterRoleBindings, GrantedThrough P req m.clusterRole b) ∨
    ∃ ns, req.ns = some ns ∧ ∃ b ∈ m.roleBindings, b.ns = ns ∧ GrantedThrough P req (m.role ns) b

/-- **The documented policy.** -/
def Authorized (m : Manager) (req : Request) : Prop := Granted (fun s => s.Covers req) m req

/-- Some binding in force grants the request through a group name inside the text of the groups. -/
def GrantedByOccurrence (m : Manager) (req : Request) : Prop := Granted (fun s => s.OccursIn req) m req

/-! ## The decision against the policy -/

theorem wildcardMatches_iff {rule target : CString} :
    wildcardMatches (some rule) (some target) = true ↔ rule = "*" ∨ rule = target := by
  simp only [wildcardMatches, Bool.or_eq_true, beq_iff_eq]

theorem ruleMatches_iff {req : Request} {rule : Rule} :
    ruleMatches req rule = true ↔ rule.Accepts req := by
  have hname : (match req.resourceName with
      | some name =>
        if rule.resourceNames.length > 0 then rule.resourceNames.any fun n => n == "*" || n == name
        else true
      | none => true) = true ↔
      ∀ name, req.resourceName = some name → rule.resourceNames ≠ [] →
        ∃ n ∈ rule.resourceNames, n = "*" ∨ n = name := by
    cases req.resourceName with
    | none => simp
    | some name =>
      by_cases hn : rule.resourceNames = []
      · simp [hn]
      · simp [List.length_pos_iff.mpr hn, hn]
  simp only [ruleMatches, Bool.and_eq_true, hname, List.any_eq_true, resourceMatches, verbMatches,
    wildcardMatches_iff, Bool.or_eq_true, beq_iff_eq]
  exact ⟨fun ⟨⟨⟨h1, h2⟩, h3⟩, h4⟩ => ⟨h1, h2, h3, h4⟩, fun ⟨h1, h2, h3, h4⟩ => ⟨⟨⟨h1, h2⟩, h3⟩, h4⟩⟩

/-- What the code accepts as a subject: a covered one, or a name inside the text. -/
theorem subjectMatches_iff {req : Request} {s : Subject} :
    subjectMatches req s = true ↔ s.Covers req ∨ s.OccursIn req := by
  unfold subjectMatches Subject.Covers Subject.OccursIn
  cases hg : req.groups with
  | none => simp
  | some groups =>
    simp only [Bool.or_eq_true, Bool.and_eq_true, beq_iff_eq, Option.some.injEq, exists_eq_left']
    by_cases hin : s.name ∈ CString.splitOn 44 groups
    · simp [hin, CString.strstr_of_mem_splitOn hin]
    · simp [hin]

theorem grants_iff {req : Request} {lookup : CString → Option Role} {b : RoleBinding} :
    grants req lookup b = true ↔
      GrantedThrough (fun s => subjectMatches req s = true) req lookup b := by
  unfold grants GrantedThrough
  cases lookup b.roleName with
  | none => simp
  | some role =>
    simp only [Bool.and_eq_true, List.any_eq_true, ruleMatches_iff, Option.some.injEq,
      exists_eq_left']

/-- The two loops find a binding exactly when some binding in force grants the request. -/
theorem matchedBinding_isSome_iff {m : Manager} {req : Request} :
    (matchedBinding m req).isSome = true ↔
      Granted (fun s => subjectMatches req s = true) m req := by
  unfold matchedBinding Granted
  cases hc : m.clusterRoleBindings.find? (grants req m.clusterRole) with
  | some b =>
    have hb := List.find?_some hc
    exact iff_of_true rfl (.inl ⟨b, List.mem_of_find?_eq_some hc, grants_iff.mp hb⟩)
  | none =>
    have hno : ¬ ∃ b ∈ m.clusterRoleBindings,
        GrantedThrough (fun s => subjectMatches req s = true) req m.clusterRole b := by
      rintro ⟨b, hb, hg⟩
      exact List.find?_eq_none.mp hc b hb (grants_iff.mpr hg)
    cases hns : req.ns with
    | none => simp [hno]
    | some ns =>
      simp only [hno, false_or, Option.some.injEq, exists_eq_left', List.find?_isSome,
        Bool.and_eq_true, beq_iff_eq, grants_iff]

/-- A binding grants through either kind of subject when it grants through one of them. -/
theorem grantedThrough_or {P Q : Subject → Prop} {req : Request} {lookup : CString → Option Role}
    {b : RoleBinding} :
    GrantedThrough (fun s => P s ∨ Q s) req lookup b ↔
      GrantedThrough P req lookup b ∨ GrantedThrough Q req lookup b := by
  unfold GrantedThrough
  rw [← or_and_right]
  simp only [and_or_left, exists_or]

theorem granted_or {P Q : Subject → Prop} {m : Manager} {req : Request} :
    Granted (fun s => P s ∨ Q s) m req ↔ Granted P m req ∨ Granted Q m req := by
  unfold Granted
  simp only [grantedThrough_or, and_or_left, exists_or]
  exact or_or_or_comm

/-- What the code allows: the authorised requests, and those granted by occurrence. -/
theorem matchedBinding_iff {m : Manager} {req : Request} :
    (matchedBinding m req).isSome = true ↔ Authorized m req ∨ GrantedByOccurrence m req := by
  rw [matchedBinding_isSome_iff]
  simp only [subjectMatches_iff]
  exact granted_or

/-- The return value is 0 for a complete call that a binding matches. -/
theorem canPerformAction_eq_zero_iff {m : Manager} {c : Call} :
    (canPerformAction m c).1 = 0 ↔ ∃ req, c.request = some req ∧ (matchedBinding m req).isSome := by
  unfold canPerformAction
  cases c.request with
  | none => simp
  | some req => cases hb : matchedBinding m req <;> simp [hb]

/-- **The decision, exactly.** For every stored policy and every call, `rbac_can_perform_action`
answers 0 precisely for the authorised requests **iff** a request granted through a group name that
merely occurs inside the text of its groups is authorised anyway. -/
theorem can_perform_action_iff (m : Manager) (c : Call) :
    ((canPerformAction m c).1 = 0 ↔ ∃ req, c.request = some req ∧ Authorized m req) ↔
      ∀ req, c.request = some req → GrantedByOccurrence m req → Authorized m req := by
  rw [canPerformAction_eq_zero_iff]
  cases c.request with
  | none => simp
  | some req =>
    simp only [Option.some.injEq, exists_eq_left', forall_eq', matchedBinding_iff]
    exact or_iff_left_iff_imp

/-! ## A group inside another -/

/-- The cluster role `admin` may do everything; the group `ops` is bound to it. -/
def opsAdmin : Manager where
  roles := []
  roleBindings := []
  clusterRoles := [⟨"admin", "", [⟨["*"], ["*"], ["*"], []⟩]⟩]
  clusterRoleBindings := [⟨"ops-admin", "", [⟨.group, "ops"⟩], "admin"⟩]

/-- A member of `devops` asks to delete a secret. -/
def devopsDelete : Call :=
  ⟨some "eve", some "devops,qa", some "delete", some "", some "secrets", some "default", none⟩

/-- **Privileges through a substring**: `eve`, in `devops` and `qa` only, is granted what `ops` was. -/
theorem devops_granted_as_ops :
    ¬ ((canPerformAction opsAdmin devopsDelete).1 = 0 ↔
      ∃ req, devopsDelete.request = some req ∧ Authorized opsAdmin req) := by
  have hallow : (canPerformAction opsAdmin devopsDelete).1 = 0 := by decide
  intro h
  obtain ⟨req, hreq, hauth⟩ := h.mp hallow
  obtain rfl := Option.some.inj hreq
  rcases hauth with ⟨b, hb, ⟨s, hs, hcov⟩, -⟩ | ⟨ns, -, b, hb, -⟩
  · obtain rfl := List.mem_singleton.mp hb
    obtain rfl := List.mem_singleton.mp hs
    rcases hcov with ⟨htype, -⟩ | ⟨-, groups, hg, hmem⟩
    · exact absurd htype (by decide)
    · obtain rfl := Option.some.inj hg
      exact absurd hmem (by decide)
  · exact absurd hb List.not_mem_nil

end Sirah.Rbac
