import Sirah.Lib.CString

/-!
# The authorization engine

Model of `k8s_authz_authorize` in `sirah/internal/apiserver/authz.c` over the types of
`sirah/pkg/types/rbac.h`: the second engine of the repository, with its own roles and bindings. A pointer
that the code tests is an `Option`; the arrays of the engine hold no NULL (`k8s_authz_add_role` and its
siblings refuse it). An outcome is `none` where the code follows a NULL pointer instead of answering.

A request without a namespace is about the cluster: `namespace` is NULL, or empty as the header has it.
The loop over the RoleBindings compares namespaces only when both are there.

**`authorize_confined_iff`**: a request is allowed only by a ClusterRole of the user or by a Role of its
own namespace **iff** it has a namespace, or a ClusterRole allows it anyway, or no RoleBinding of the user
leads to a matching rule of a Role elsewhere.
-/

namespace Sirah.Authz

/-- The fields of `k8s_metadata_t` the engine reads. -/
structure Metadata where
  name : CString
  ns : CString
  deriving DecidableEq, Repr

/-- `k8s_policy_rule_t`. -/
structure PolicyRule where
  verbs : List (Option CString)
  apiGroups : List (Option CString)
  resources : List (Option CString)
  resourceNames : List (Option CString)
  deriving DecidableEq, Repr

/-- `k8s_subject_t`. -/
structure Subject where
  kind : CString
  name : CString
  deriving DecidableEq, Repr

/-- `k8s_role_t` and `k8s_cluster_role_t`. -/
structure Role where
  metadata : Option Metadata
  rules : List PolicyRule
  deriving DecidableEq, Repr

/-- `k8s_role_binding_t` and `k8s_cluster_role_binding_t`. -/
structure Binding where
  metadata : Option Metadata
  roleName : CString
  subjects : List Subject
  deriving DecidableEq, Repr

/-- `k8s_authz_engine_t`. -/
structure Engine where
  roles : List Role
  roleBindings : List Binding
  clusterRoles : List Role
  clusterRoleBindings : List Binding
  enabled : Bool
  deriving DecidableEq, Repr

/-- `k8s_authz_request_t`. -/
structure Request where
  user : Option CString
  ns : Option CString
  verb : Option CString
  apiGroup : Option CString
  resource : Option CString
  resourceName : Option CString
  deriving DecidableEq, Repr

/-! ## The engine -/

/-- `string_matches`. -/
def stringMatches (str : Option CString) (array : List (Option CString)) : Bool :=
  match str with
  | none => false
  | some s => array.any fun entry =>
    match entry with
    | none => false
    | some e => e == "*" || e == s

/-- One rule of `rule_matches_request`. -/
def matchesRule (req : Request) (rule : PolicyRule) : Bool :=
  stringMatches req.verb rule.verbs && stringMatches req.apiGroup rule.apiGroups &&
    stringMatches req.resource rule.resources &&
    if rule.resourceNames.length > 0 then
      match req.resourceName with
      | none => false
      | some name => stringMatches (some name) rule.resourceNames
    else true

/-- `rule_matches_request`. -/
def ruleMatchesRequest (rules : List PolicyRule) (req : Request) : Bool := rules.any (matchesRule req)

/-- The subjects that are compared with the user. -/
def Subject.isUser (s : Subject) : Bool := s.kind == "User" || s.kind == "ServiceAccount"

/-- The loop over the subjects of a binding. -/
def userInBinding (user : Option CString) (subjects : List Subject) : Option Bool :=
  match user with
  | some u => some (subjects.any fun s => s.isUser && s.name == u)
  | none => if subjects.any Subject.isUser then none else some false

/-- The namespace test of the loop over the RoleBindings. -/
def appliesTo (ns : Option CString) (metadata : Option Metadata) : Bool :=
  match ns, metadata with
  | some ns, some md => md.ns == ns
  | _, _ => true

/-- The role has the name. -/
def Role.named (name : CString) (r : Role) : Bool :=
  match r.metadata with
  | some md => md.name == name
  | none => false

/-- The role has the name and the namespace. -/
def Role.namedIn (ns name : CString) (r : Role) : Bool :=
  match r.metadata with
  | some md => md.name == name && md.ns == ns
  | none => false

/-- The Role a RoleBinding refers to. -/
def Engine.role (e : Engine) (ns name : CString) : Option Role := e.roles.find? (Role.namedIn ns name)

/-- The ClusterRole a ClusterRoleBinding refers to. -/
def Engine.clusterRole (e : Engine) (name : CString) : Option Role := e.clusterRoles.find? (Role.named name)

/-- The role is found and one of its rules matches. -/
def roleAllows (req : Request) : Option Role → Bool
  | some role => ruleMatchesRequest role.rules req
  | none => false

/-- One turn of the loop over the RoleBindings: does the binding allow the request? -/
def roleBindingAllows (e : Engine) (req : Request) (b : Binding) : Option Bool :=
  match userInBinding req.user b.subjects with
  | none => none
  | some false => some false
  | some true =>
    if !appliesTo req.ns b.metadata then some false
    else
      match b.metadata with
      | some md => some (roleAllows req (e.role md.ns b.roleName))
      -- the namespace of the binding is read once a role of the name is there
      | none => if e.roles.any (Role.named b.roleName) then none else some false

/-- One turn of the loop over the ClusterRoleBindings. -/
def clusterRoleBindingAllows (e : Engine) (req : Request) (b : Binding) : Option Bool :=
  match userInBinding req.user b.subjects with
  | none => none
  | some false => some false
  | some true => some (roleAllows req (e.clusterRole b.roleName))

/-- A loop that stops at the first element that answers. -/
def scan {α : Type} (f : α → Option Bool) : List α → Option Bool
  | [] => some false
  | x :: xs =>
    match f x with
    | none => none
    | some true => some true
    | some false => scan f xs

/-- `k8s_authz_authorize`: the answer and the text of its reason. -/
def authorize (engine : Option Engine) (req : Option Request) : Option (Bool × CString) :=
  match engine, req with
  | some e, some req =>
    if !e.enabled then some (true, "RBAC disabled")
    else if (req.user.map fun u => (CString.ofString "system:").isPrefixOf u).getD false then
      some (true, "System account bypass")
    else
      match scan (roleBindingAllows e req) e.roleBindings with
      | none => none
      | some true => some (true, "Matched RoleBinding with Role")
      | some false =>
        match scan (clusterRoleBindingAllows e req) e.clusterRoleBindings with
        | none => none
        | some true => some (true, "Matched ClusterRoleBinding with ClusterRole")
        | some false =>
          some (false, CString.snprintf 256 ("No rules found for user '" ++ req.user.getD "unknown" ++
            "', verb '" ++ req.verb.getD "unknown" ++ "', resource '" ++ req.resource.getD "unknown" ++ "'"))
  | _, _ => some (false, "Invalid parameters")

/-- A rule that lists names does not match a request without one. -/
theorem matchesRule_nameless {req : Request} {rule : PolicyRule} (hreq : req.resourceName = none)
    (hrule : rule.resourceNames ≠ []) : matchesRule req rule = false := by
  unfold matchesRule
  rw [if_pos (List.length_pos_iff.mpr hrule), hreq]
  exact Bool.and_false _

/-! ## What a request may be allowed by -/

/-- The binding names the user. -/
def Binding.Names (b : Binding) (user : CString) : Prop :=
  ∃ s ∈ b.subjects, (s.kind = "User" ∨ s.kind = "ServiceAccount") ∧ s.name = user

/-- A ClusterRoleBinding of the user refers to a ClusterRole with a matching rule. -/
def ClusterGrant (e : Engine) (req : Request) (user : CString) : Prop :=
  ∃ b ∈ e.clusterRoleBindings, b.Names user ∧
    ∃ role, e.clusterRole b.roleName = some role ∧ ruleMatchesRequest role.rules req = true

/-- The RoleBinding is of namespace `ns`, names the user and refers to a Role of `ns` with a matching
rule. -/
structure Binding.GrantsIn (b : Binding) (e : Engine) (req : Request) (user ns : CString) : Prop where
  metadata : ∃ name, b.metadata = some ⟨name, ns⟩
  names : b.Names user
  role : ∃ role, e.role ns b.roleName = some role ∧ ruleMatchesRequest role.rules req = true

/-- **What may allow a request**: the cluster's roles, or those of the namespace it is in. -/
def Confined (e : Engine) (req : Request) (user : CString) : Prop :=
  ClusterGrant e req user ∨
    ∃ ns, req.ns = some ns ∧ ns ≠ [] ∧ ∃ b ∈ e.roleBindings, b.GrantsIn e req user ns

/-- The request is about the cluster. -/
def Request.ClusterScoped (req : Request) : Prop := req.ns = none ∨ req.ns = some []

/-- At this RoleBinding the code reads the namespace of metadata that are not there. -/
structure Binding.Dangling (b : Binding) (e : Engine) (user : CString) : Prop where
  metadata : b.metadata = none
  names : b.Names user
  role : ∃ role ∈ e.roles, ∃ md, role.metadata = some md ∧ md.name = b.roleName

/-- Some RoleBinding that the loop gets to leads to a matching rule, in the namespace of the binding. -/
def Leaks (e : Engine) (req : Request) (user : CString) : Prop :=
  ∃ before b after ns, e.roleBindings = before ++ b :: after ∧ (∀ b' ∈ before, ¬ b'.Dangling e user) ∧
    b.GrantsIn e req user ns ∧ (req.ns = none ∨ req.ns = some ns)

/-! ## The loops -/

/-- The loop answers yes if an element does and none before it makes the code fail. -/
theorem scan_eq_true_iff {α : Type} {f : α → Option Bool} {l : List α} :
    scan f l = some true ↔
      ∃ before x after, l = before ++ x :: after ∧ (∀ y ∈ before, f y ≠ none) ∧ f x = some true := by
  induction l with
  | nil => simp [scan]
  | cons a l ih =>
    unfold scan
    constructor
    · intro h
      split at h
      · cases h
      · next ha => exact ⟨[], a, l, rfl, nofun, ha⟩
      · next ha =>
        obtain ⟨before, x, after, rfl, hbefore, hx⟩ := ih.mp h
        exact ⟨a :: before, x, after, rfl, List.forall_mem_cons.mpr ⟨by simp [ha], hbefore⟩, hx⟩
    · rintro ⟨before, x, after, heq, hbefore, hx⟩
      cases before with
      | nil =>
        cases heq
        rw [hx]
      | cons y before =>
        cases heq
        obtain ⟨hy, hrest⟩ := List.forall_mem_cons.mp hbefore
        have htail := ih.mpr ⟨before, x, after, rfl, hrest, hx⟩
        cases ha : f a with
        | none => exact absurd ha hy
        | some answer =>
          cases answer with
          | true => rfl
          | false => exact htail

variable {e : Engine} {req : Request} {user : CString} {b : Binding}

theorem userInBinding_iff : userInBinding (some user) b.subjects = some true ↔ b.Names user := by
  unfold userInBinding Binding.Names Subject.isUser
  simp [List.any_eq_true]

theorem roleAllows_iff {role : Option Role} :
    roleAllows req role = true ↔ ∃ r, role = some r ∧ ruleMatchesRequest r.rules req = true := by
  cases role with
  | none => simp [roleAllows]
  | some r => simp [roleAllows]

theorem clusterRoleBindingAllows_iff (huser : req.user = some user) :
    clusterRoleBindingAllows e req b = some true ↔
      b.Names user ∧ ∃ role, e.clusterRole b.roleName = some role ∧
        ruleMatchesRequest role.rules req = true := by
  unfold clusterRoleBindingAllows
  rw [huser, ← userInBinding_iff, ← roleAllows_iff]
  cases userInBinding (some user) b.subjects with
  | none => simp
  | some named => cases named <;> simp

/-- A RoleBinding allows what it grants in its own namespace, if this passes the namespace test. -/
theorem roleBindingAllows_iff (huser : req.user = some user) :
    roleBindingAllows e req b = some true ↔
      ∃ ns, b.GrantsIn e req user ns ∧ (req.ns = none ∨ req.ns = some ns) := by
  unfold roleBindingAllows
  rw [huser]
  constructor
  · intro h
    split at h
    · cases h
    · cases h
    · next hnames =>
      split at h
      · cases h
      · next happlies =>
        cases hmeta : b.metadata with
        | none =>
          rw [hmeta] at h
          dsimp only at h
          split at h <;> cases h
        | some md =>
          rw [hmeta] at h happlies
          refine ⟨md.ns, ⟨⟨md.name, hmeta⟩, userInBinding_iff.mp hnames,
            roleAllows_iff.mp (Option.some.inj h)⟩, ?_⟩
          cases hns : req.ns with
          | none => exact .inl rfl
          | some ns =>
            simp only [hns, appliesTo, Bool.not_eq_true', Bool.not_eq_false, beq_iff_eq] at happlies
            exact .inr (by rw [happlies])
  · rintro ⟨ns, ⟨⟨name, hmeta⟩, hnames, hrole⟩, hns⟩
    have happlies : appliesTo req.ns (some ⟨name, ns⟩) = true := by
      rcases hns with hns | hns <;> simp [hns, appliesTo]
    rw [userInBinding_iff.mpr hnames, hmeta]
    simp only [happlies, roleAllows_iff.mpr hrole]
    rfl

/-- The code follows a NULL pointer at the dangling bindings. -/
theorem roleBindingAllows_eq_none_iff (huser : req.user = some user) :
    roleBindingAllows e req b = none ↔ b.Dangling e user := by
  have hroles : e.roles.any (Role.named b.roleName) = true ↔
      ∃ role ∈ e.roles, ∃ md, role.metadata = some md ∧ md.name = b.roleName := by
    rw [List.any_eq_true]
    refine exists_congr fun role => and_congr_right fun _ => ?_
    unfold Role.named
    cases role.metadata with
    | none => simp
    | some md => simp
  unfold roleBindingAllows
  rw [huser]
  constructor
  · intro h
    split at h
    · next hnone => simp [userInBinding] at hnone
    · cases h
    · next hnames =>
      split at h
      · cases h
      · cases hmeta : b.metadata with
        | some md => simp [hmeta] at h
        | none =>
          rw [hmeta] at h
          dsimp only at h
          split at h
          · next hany => exact ⟨hmeta, userInBinding_iff.mp hnames, hroles.mp hany⟩
          · cases h
  · rintro ⟨hmeta, hnames, hrole⟩
    have happlies : appliesTo req.ns none = true := by
      unfold appliesTo
      cases req.ns <;> rfl
    rw [userInBinding_iff.mpr hnames, hmeta]
    simp only [happlies, hroles.mpr hrole]
    rfl

/-- **The loop over the RoleBindings** allows a request that leaks, or one in a namespace whose roles
grant it. -/
theorem scan_roleBindings_iff (huser : req.user = some user) :
    scan (roleBindingAllows e req) e.roleBindings = some true ↔ Leaks e req user := by
  rw [scan_eq_true_iff]
  unfold Leaks
  simp only [roleBindingAllows_iff huser, ne_eq, roleBindingAllows_eq_none_iff huser]
  constructor
  · rintro ⟨before, b, after, heq, hbefore, ns, hgrants, hns⟩
    exact ⟨before, b, after, ns, heq, hbefore, hgrants, hns⟩
  · rintro ⟨before, b, after, ns, heq, hbefore, hgrants, hns⟩
    exact ⟨before, b, after, heq, hbefore, ns, hgrants, hns⟩

/-- The loop over the ClusterRoleBindings allows what the cluster grants. -/
theorem clusterGrant_of_scan (huser : req.user = some user)
    (h : scan (clusterRoleBindingAllows e req) e.clusterRoleBindings = some true) :
    ClusterGrant e req user := by
  obtain ⟨before, b, after, heq, -, hb⟩ := scan_eq_true_iff.mp h
  exact ⟨b, heq ▸ List.mem_append_right _ List.mem_cons_self, (clusterRoleBindingAllows_iff huser).mp hb⟩

/-- A request that the engine has to decide: RBAC is enabled and the user is no system account. -/
structure Decided (e : Engine) (req : Request) (user : CString) : Prop where
  enabled : e.enabled = true
  named : req.user = some user
  notSystem : ¬ (CString.ofString "system:") <+: user

theorem Decided.no_bypass (h : Decided e req user) :
    (req.user.map fun u => (CString.ofString "system:").isPrefixOf u).getD false = false := by
  rw [h.named, Option.map_some, Option.getD_some, Bool.eq_false_iff, Ne, List.isPrefixOf_iff_prefix]
  exact h.notSystem

/-- What is allowed, was allowed by one of the two loops. -/
theorem authorize_allows (h : Decided e req user) {reason : CString}
    (hallow : authorize (some e) (some req) = some (true, reason)) :
    Leaks e req user ∨ ClusterGrant e req user := by
  unfold authorize at hallow
  simp only [h.enabled, h.no_bypass, Bool.not_true, Bool.false_eq_true, if_false] at hallow
  split at hallow
  · cases hallow
  · next hscan => exact .inl ((scan_roleBindings_iff h.named).mp hscan)
  · split at hallow
    · cases hallow
    · next hscan => exact .inr (clusterGrant_of_scan h.named hscan)
    · cases hallow

/-- A request that leaks is allowed. -/
theorem authorize_of_leaks (h : Decided e req user) (hleaks : Leaks e req user) :
    authorize (some e) (some req) =
      some (true, CString.ofString "Matched RoleBinding with Role") := by
  unfold authorize
  simp only [h.enabled, h.no_bypass, Bool.not_true, Bool.false_eq_true, if_false,
    (scan_roleBindings_iff h.named).mpr hleaks]

/-- **Confinement, exactly.** A decided request is allowed only by what may allow it **iff** the cluster
grants it whenever it is about the cluster and some RoleBinding leads it to a matching rule. -/
theorem authorize_confined_iff (e : Engine) (req : Request) (user : CString) (h : Decided e req user) :
    (∀ reason, authorize (some e) (some req) = some (true, reason) → Confined e req user) ↔
      (req.ClusterScoped → Leaks e req user → ClusterGrant e req user) := by
  constructor
  · intro hconfined hscope hleaks
    rcases hconfined _ (authorize_of_leaks h hleaks) with hgrant | ⟨ns, hns, hne, -⟩
    · exact hgrant
    · rcases hscope with hnone | hempty
      · rw [hns] at hnone
        cases hnone
      · rw [hns] at hempty
        exact absurd (Option.some.inj hempty) hne
  · intro hcond reason hallow
    rcases authorize_allows h hallow with hleaks | hgrant
    · by_cases hscope : req.ClusterScoped
      · exact .inl (hcond hscope hleaks)
      · obtain ⟨before, b, after, ns, heq, -, hgrants, hns⟩ := hleaks
        have hsome : req.ns = some ns := hns.resolve_left fun hnone => hscope (.inl hnone)
        have hne : ns ≠ [] := by
          rintro rfl
          exact hscope (.inr hsome)
        exact .inr ⟨ns, hsome, hne, b, heq ▸ List.mem_append_right _ List.mem_cons_self, hgrants⟩
    · exact .inl hgrant

/-! ## A RoleBinding for the whole cluster -/

/-- `dev` may do everything in the namespace `staging`. -/
def stagingAdmin : Engine where
  roles := [⟨some ⟨"admin", "staging"⟩, [⟨[some "*"], [some "*"], [some "*"], []⟩]⟩]
  roleBindings := [⟨some ⟨"dev-admin", "staging"⟩, "admin", [⟨"User", "dev"⟩]⟩]
  clusterRoles := []
  clusterRoleBindings := []
  enabled := true

/-- `dev` deletes a node, or a pod of a namespace. -/
def devDeletes (ns : Option CString) (resource name : CString) : Request :=
  ⟨some "dev", ns, some "delete", some "", some resource, some name⟩

theorem devDeletes_decided (ns : Option CString) (resource name : CString) :
    Decided stagingAdmin (devDeletes ns resource name) "dev" :=
  ⟨rfl, rfl, by decide⟩

/-- In the namespace `staging` the request is allowed by a Role of `staging`. -/
theorem devDeletes_pod_confined :
    Confined stagingAdmin (devDeletes (some "staging") "pods" "web") "dev" := by
  have hallow : authorize (some stagingAdmin) (some (devDeletes (some "staging") "pods" "web")) =
      some (true, CString.ofString "Matched RoleBinding with Role") := rfl
  refine (authorize_confined_iff _ _ _ (devDeletes_decided _ _ _)).mpr ?_ _ hallow
  rintro (hnone | hempty)
  · cases hnone
  · exact absurd (Option.some.inj hempty) (by decide)

/-- **A node for a RoleBinding**: without a namespace in the request, the admin of `staging` may delete
nodes. -/
theorem devDeletes_node_allowed :
    ¬ ∀ (e : Engine) (req : Request) (user : CString), Decided e req user → ∀ reason,
      authorize (some e) (some req) = some (true, reason) → Confined e req user := by
  intro h
  have hallow : authorize (some stagingAdmin) (some (devDeletes none "nodes" "node-1")) =
      some (true, CString.ofString "Matched RoleBinding with Role") := rfl
  rcases h _ _ _ (devDeletes_decided none "nodes" "node-1") _ hallow with ⟨b, hb, -⟩ | ⟨ns, hns, -⟩
  · exact List.not_mem_nil hb
  · cases hns

end Sirah.Authz
