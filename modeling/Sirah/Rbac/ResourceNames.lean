import Sirah.Rbac.RbacManager

/-!
# Rules restricted to resource names

A rule of `sirah/internal/rbac/rbac_manager.c` may list the names of the objects it is about.
`rbac_can_perform_action` looks at the list only when the request names an object, and the calls for
`list`, `watch` and `create` never do.

`BoundTo` are the rules a user has anywhere, `InForce` those that count for the namespace of a request.
**`nameless_denied_iff`**: where every rule of a user is restricted to names, a request that names no
object is denied **iff** no rule in force covers its API group, resource and verb: the names do not count.
-/

namespace Sirah.Rbac

/-- `rbac_can_list`. -/
def canList (m : Manager) (user groups resource ns : Option CString) : Int × Option PolicyDecision :=
  canPerformAction m ⟨user, groups, some "list", some "", resource, ns, none⟩

/-- `rbac_can_watch`. -/
def canWatch (m : Manager) (user groups resource ns : Option CString) : Int × Option PolicyDecision :=
  canPerformAction m ⟨user, groups, some "watch", some "", resource, ns, none⟩

/-- `rbac_can_create`. -/
def canCreate (m : Manager) (user groups resource ns : Option CString) : Int × Option PolicyDecision :=
  canPerformAction m ⟨user, groups, some "create", some "", resource, ns, none⟩

/-- The binding names the caller and its role, found by `lookup`, has the rule. -/
def BoundBy (req : Request) (lookup : CString → Option Role) (rule : Rule) (b : RoleBinding) : Prop :=
  b.subjects.any (subjectMatches req) = true ∧ ∃ role, lookup b.roleName = some role ∧ rule ∈ role.rules

/-- The rule is bound to the caller, in the cluster or in some namespace. -/
def BoundTo (m : Manager) (req : Request) (rule : Rule) : Prop :=
  (∃ b ∈ m.clusterRoleBindings, BoundBy req m.clusterRole rule b) ∨
    ∃ b ∈ m.roleBindings, BoundBy req (m.role b.ns) rule b

/-- The rule is bound to the caller, in the cluster or in the namespace of the request. -/
def InForce (m : Manager) (req : Request) (rule : Rule) : Prop :=
  (∃ b ∈ m.clusterRoleBindings, BoundBy req m.clusterRole rule b) ∨
    ∃ b ∈ m.roleBindings, req.ns = some b.ns ∧ BoundBy req (m.role b.ns) rule b

/-- The rule lists names, and not all of them. -/
def Rule.Restricted (rule : Rule) : Prop :=
  rule.resourceNames ≠ [] ∧ CString.ofString "*" ∉ rule.resourceNames

/-- The rule covers the API group, the resource and the verb of the request. -/
structure Rule.Covers (rule : Rule) (req : Request) : Prop where
  apiGroup : ∃ g ∈ rule.apiGroups, g = "*" ∨ g = req.apiGroup.getD ""
  resource : ∃ r ∈ rule.resources, r = "*" ∨ r = req.resource
  verb : ∃ v ∈ rule.verbs, v = "*" ∨ v = req.verb

/-- A request that names no object, by a user whose rules are all restricted to names. -/
structure Nameless (m : Manager) (c : Call) : Prop where
  resourceName : c.resourceName = none
  restricted : ∀ req, c.request = some req → ∀ rule, BoundTo m req rule → rule.Restricted

/-- A rule in force is bound. -/
theorem InForce.boundTo {m : Manager} {req : Request} {rule : Rule} (h : InForce m req rule) :
    BoundTo m req rule := by
  rcases h with h | ⟨b, hb, -, hrule⟩
  · exact .inl h
  · exact .inr ⟨b, hb, hrule⟩

theorem request_resourceName {c : Call} {req : Request} (h : c.request = some req) :
    req.resourceName = c.resourceName := by
  unfold Call.request at h
  split at h
  · cases h
    rfl
  · cases h

/-- Without a name in the request the names of the rule are not looked at. -/
theorem accepts_iff_covers {rule : Rule} {req : Request} (hname : req.resourceName = none) :
    rule.Accepts req ↔ rule.Covers req := by
  constructor
  · rintro ⟨hgroup, hresource, hverb, -⟩
    exact ⟨hgroup, hresource, hverb⟩
  · rintro ⟨hgroup, hresource, hverb⟩
    refine ⟨hgroup, hresource, hverb, ?_⟩
    intro name hsome
    rw [hname] at hsome
    cases hsome

/-- One binding grants by one of the rules it binds. -/
theorem grantedThrough_iff {req : Request} {lookup : CString → Option Role} {b : RoleBinding} :
    GrantedThrough (fun s => subjectMatches req s = true) req lookup b ↔
      ∃ rule, BoundBy req lookup rule b ∧ rule.Accepts req := by
  unfold GrantedThrough BoundBy
  rw [List.any_eq_true]
  constructor
  · rintro ⟨hs, role, hrole, rule, hmem, hacc⟩
    exact ⟨rule, ⟨hs, role, hrole, hmem⟩, hacc⟩
  · rintro ⟨rule, ⟨hs, role, hrole, hmem⟩, hacc⟩
    exact ⟨hs, role, hrole, rule, hmem, hacc⟩

/-- The loops grant by the rules in force. -/
theorem granted_iff {m : Manager} {req : Request} :
    Granted (fun s => subjectMatches req s = true) m req ↔
      ∃ rule, InForce m req rule ∧ rule.Accepts req := by
  unfold Granted InForce
  simp only [grantedThrough_iff]
  constructor
  · rintro (⟨b, hb, rule, hbound, hacc⟩ | ⟨ns, hns, b, hb, rfl, rule, hbound, hacc⟩)
    · exact ⟨rule, .inl ⟨b, hb, hbound⟩, hacc⟩
    · exact ⟨rule, .inr ⟨b, hb, hns, hbound⟩, hacc⟩
  · rintro ⟨rule, ⟨b, hb, hbound⟩ | ⟨b, hb, hns, hbound⟩, hacc⟩
    · exact .inl ⟨b, hb, rule, hbound, hacc⟩
    · exact .inr ⟨b.ns, hns, b, hb, rfl, rule, hbound, hacc⟩

/-- The decision is to deny unless it is to allow. -/
theorem canPerformAction_denies_iff {m : Manager} {c : Call} :
    (canPerformAction m c).1 = -1 ↔ ¬ (canPerformAction m c).1 = 0 := by
  unfold canPerformAction
  cases c.request with
  | none => simp
  | some req => cases hb : matchedBinding m req <;> simp [hb]

/-- **Names that do not count.** Where every rule of the caller is restricted to names, a request
without one is denied **iff** no rule in force covers its API group, resource and verb. -/
theorem nameless_denied_iff (m : Manager) (c : Call) (h : Nameless m c) :
    (canPerformAction m c).1 = -1 ↔
      ∀ req, c.request = some req → ∀ rule, InForce m req rule → ¬ rule.Covers req := by
  rw [canPerformAction_denies_iff, canPerformAction_eq_zero_iff]
  simp only [not_exists, not_and, matchedBinding_isSome_iff, granted_iff]
  refine forall_congr' fun req => forall_congr' fun hreq => forall_congr' fun rule => ?_
  rw [accepts_iff_covers ((request_resourceName hreq).trans h.resourceName)]

/-! ## Listing by a rule for one object -/

/-- `dev` may read and list the one secret `db-token`. -/
def oneSecret : Manager where
  roles := [⟨"reader", "default", [⟨[""], ["secrets"], ["get", "list"], ["db-token"]⟩]⟩]
  roleBindings := [⟨"dev-reader", "default", [⟨.user, "dev"⟩], "reader"⟩]
  clusterRoles := []
  clusterRoleBindings := []

/-- What `dev` asks for without a name. -/
def devAsks (verb : CString) : Call :=
  ⟨some "dev", none, some verb, some "", some "secrets", some "default", none⟩

theorem oneSecret_role (name : CString) (role : Role) (h : oneSecret.role "default" name = some role) :
    role = ⟨"reader", "default", [⟨[""], ["secrets"], ["get", "list"], ["db-token"]⟩]⟩ :=
  List.mem_singleton.mp (List.mem_of_find?_eq_some h)

theorem oneSecret_bound {req : Request} {rule : Rule} (h : BoundTo oneSecret req rule) :
    rule = ⟨[""], ["secrets"], ["get", "list"], ["db-token"]⟩ := by
  rcases h with ⟨b, hb, -⟩ | ⟨b, hb, -, role, hrole, hmem⟩
  · exact absurd hb List.not_mem_nil
  · obtain rfl := List.mem_singleton.mp hb
    obtain rfl := oneSecret_role _ _ hrole
    exact List.mem_singleton.mp hmem

/-- The rule for `db-token` is all `dev` has. -/
theorem oneSecret_nameless (verb : CString) : Nameless oneSecret (devAsks verb) := by
  refine ⟨rfl, ?_⟩
  rintro req - rule hbound
  obtain rfl := oneSecret_bound hbound
  unfold Rule.Restricted
  decide

/-- Creating is not covered by the rule, and denied. -/
theorem dev_create_denied :
    (canCreate oneSecret (some "dev") none (some "secrets") (some "default")).1 = -1 := by
  refine (nameless_denied_iff oneSecret (devAsks "create") (oneSecret_nameless _)).mpr ?_
  rintro req hreq rule hrule ⟨-, -, hverb⟩
  obtain rfl := Option.some.inj hreq
  obtain rfl := oneSecret_bound hrule.boundTo
  exact absurd hverb (by decide)

/-- **Every secret through a rule for one**: `dev` may list all secrets of the namespace. -/
theorem dev_lists_all :
    ¬ ∀ (m : Manager) (c : Call), Nameless m c → (canPerformAction m c).1 = -1 := by
  intro h
  exact absurd (h oneSecret (devAsks "list") (oneSecret_nameless _)) (by decide)

end Sirah.Rbac
