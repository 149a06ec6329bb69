import Sirah.Rbac.PolicyStore

/-!
# An administrator keeps access

`rbac_create_admin_binding` binds a user to the ClusterRole `system:masters` that `rbac_manager_init` creates. Any other call
may follow, in any order: of Roles and RoleBindings, of other ClusterRoles and other bindings of the cluster.

* `Master` and `Bound`: the records that the access rests on, as all records of their names.
* **`admin_keeps_access`**: from the call that binds the user on, the user is allowed everything in every state of every run in
  which no call replaces or deletes `system:masters` or this binding.
-/

namespace Sirah.Rbac

open Runs

/-! ## What the access rests on -/

/-- The call replaces or deletes the ClusterRole. -/
def PolicyOp.TouchesRole (name : CString) : PolicyOp → Prop
  | .updateClusterRole role => role.name = name
  | .deleteClusterRole name' => name' = name
  | _ => False

/-- The call replaces or deletes the ClusterRoleBinding. -/
def PolicyOp.TouchesBinding (name : CString) : PolicyOp → Prop
  | .updateClusterRoleBinding binding => binding.name = name
  | .deleteClusterRoleBinding name' => name' = name
  | _ => False

/-- The ClusterRoles of a name. -/
def Manager.clusterRolesNamed (m : Manager) (name : CString) : List Role := m.clusterRoles.filter fun r => r.name == name

/-- The ClusterRoleBindings of a name. -/
def Manager.clusterBindingsNamed (m : Manager) (name : CString) : List RoleBinding :=
  m.clusterRoleBindings.filter fun b => b.name == name

/-- The role of the administrators. -/
def mastersRole : Role := ⟨"system:masters", "", [wildcardRule]⟩

/-- The role of the administrators is there. -/
def Master (m : Manager) : Prop := m.clusterRolesNamed "system:masters" = [mastersRole]

/-- And so is the user's binding. -/
def AdminBound (user : CString) (m : Manager) : Prop :=
  m.clusterBindingsNamed (adminBinding user).name = [adminBinding user]

variable {m : Manager} {op : PolicyOp} {name user : CString}

/-! ## What a call leaves alone -/

section Records

variable {α : Type} {limit : Nat} {key : α → CString} {l : List α}

/-- A record of a name that the table has is not created again. -/
theorem filter_create_kept (new : α) (hthere : l.filter (fun x => key x == name) ≠ []) :
    ((createRecord limit (fun x => key x == key new) l new).getD l).filter (fun x => key x == name) =
      l.filter fun x => key x == name := by
  cases hcreate : createRecord limit (fun x => key x == key new) l new with
  | none => rfl
  | some l' =>
    rw [Option.getD_some]
    refine filter_createRecord ?_ hcreate
    by_contra hsame
    rw [Bool.not_eq_false, beq_iff_eq] at hsame
    obtain ⟨x, hx⟩ := List.exists_mem_of_ne_nil _ hthere
    obtain ⟨hmem, hname⟩ := List.mem_filter.mp hx
    have hany : l.any (fun x => key x == key new) = true :=
      List.any_eq_true.mpr ⟨x, hmem, by rw [hsame]; exact hname⟩
    rw [createRecord, if_pos hany, ite_self] at hcreate
    cases hcreate

theorem filter_edit_kept {other : CString} {edit : α → Option α} (hne : other ≠ name)
    (hedit : ∀ x y, key x = other → edit x = some y → key y = other) :
    ((editRecord (fun x => key x == other) l edit).getD l).filter (fun x => key x == name) =
      l.filter fun x => key x == name := by
  cases h : editRecord (fun x => key x == other) l edit with
  | none => rfl
  | some l' =>
    rw [Option.getD_some]
    refine filter_editRecord (fun x hx => ?_) (fun x y hx hy => ?_) h
    · rw [beq_iff_eq] at hx
      exact beq_false_of_ne (hx.symm ▸ hne)
    · rw [beq_iff_eq] at hx
      exact beq_false_of_ne (hedit x y hx hy ▸ hne)

theorem filter_delete_kept {other : CString} (hne : other ≠ name) :
    ((deleteRecord (fun x => key x == other) l).getD l).filter (fun x => key x == name) =
      l.filter fun x => key x == name := by
  cases h : deleteRecord (fun x => key x == other) l with
  | none => rfl
  | some l' =>
    rw [Option.getD_some]
    refine filter_deleteRecord (fun x hx => ?_) h
    rw [beq_iff_eq] at hx
    exact beq_false_of_ne (hx.symm ▸ hne)

end Records

/-- The calls of a namespace leave the cluster's records. -/
theorem cluster_withRoles (l : Option (List Role)) : (m.withRoles l).2.clusterRoles = m.clusterRoles ∧
    (m.withRoles l).2.clusterRoleBindings = m.clusterRoleBindings := by
  rw [withRoles_eq]
  exact ⟨rfl, rfl⟩

theorem cluster_withRoleBindings (l : Option (List RoleBinding)) :
    (m.withRoleBindings l).2.clusterRoles = m.clusterRoles ∧
      (m.withRoleBindings l).2.clusterRoleBindings = m.clusterRoleBindings := by
  rw [withRoleBindings_eq]
  exact ⟨rfl, rfl⟩

/-- The call is for a Role or a RoleBinding. -/
def PolicyOp.ofNamespace : PolicyOp → Bool
  | .createClusterRole _ | .updateClusterRole _ | .deleteClusterRole _ => false
  | .createClusterRoleBinding _ | .updateClusterRoleBinding _ | .deleteClusterRoleBinding _ => false
  | .createAdminBinding _ | .createReadonlyBinding _ => false
  | _ => true

theorem cluster_step (h : op.ofNamespace = true) : (policyStep m op).clusterRoles = m.clusterRoles ∧
    (policyStep m op).clusterRoleBindings = m.clusterRoleBindings := by
  cases op with
  | createRole ns role past => exact cluster_withRoles _
  | updateRole ns role past => exact cluster_withRoles _
  | deleteRole ns name => exact cluster_withRoles _
  | addRuleToRole ns name rule front => exact cluster_withRoles _
  | removeRuleFromRole ns name i front =>
    rw [policyStep, removeRuleFromRole]
    split
    · exact ⟨rfl, rfl⟩
    · exact cluster_withRoles _
  | createRoleBinding ns b past => exact cluster_withRoleBindings _
  | updateRoleBinding ns b past => exact cluster_withRoleBindings _
  | deleteRoleBinding ns name => exact cluster_withRoleBindings _
  | addSubjectToBinding ns name subject front => exact cluster_withRoleBindings _
  | removeSubjectFromBinding ns name subject front => exact cluster_withRoleBindings _
  | createClusterRole _ | updateClusterRole _ | deleteClusterRole _ => cases h
  | createClusterRoleBinding _ | updateClusterRoleBinding _ | deleteClusterRoleBinding _ => cases h
  | createAdminBinding _ | createReadonlyBinding _ => cases h

/-- **A ClusterRole that is there** stays as it is, unless the call is for it. -/
theorem clusterRolesNamed_step (hthere : m.clusterRolesNamed name ≠ []) (hop : ¬ op.TouchesRole name) :
    (policyStep m op).clusterRolesNamed name = m.clusterRolesNamed name := by
  have hcluster : ∀ l, (m.withClusterRoleBindings l).2.clusterRolesNamed name = m.clusterRolesNamed name := fun l => by
    rw [withClusterRoleBindings_eq, Manager.clusterRolesNamed, Manager.clusterRolesNamed]
  by_cases hns : op.ofNamespace = true
  · rw [Manager.clusterRolesNamed, (cluster_step hns).1, Manager.clusterRolesNamed]
  cases op with
  | createClusterRole role =>
    rw [policyStep, createClusterRole, withClusterRoles_eq]
    exact filter_create_kept { role with ns := "" } hthere
  | updateClusterRole role =>
    rw [policyStep, updateClusterRole, withClusterRoles_eq]
    refine filter_edit_kept hop ?_
    rintro x y - hy
    rw [← Option.some.inj hy]
  | deleteClusterRole name' =>
    rw [policyStep, deleteClusterRole, withClusterRoles_eq]
    exact filter_delete_kept hop
  | createClusterRoleBinding b => exact hcluster _
  | updateClusterRoleBinding b => exact hcluster _
  | deleteClusterRoleBinding name => exact hcluster _
  | createAdminBinding user => exact hcluster _
  | createReadonlyBinding group => exact hcluster _
  | _ => exact absurd rfl hns

/-- **A ClusterRoleBinding that is there** stays as it is, unless the call is for it. -/
theorem clusterBindingsNamed_step (hthere : m.clusterBindingsNamed name ≠ []) (hop : ¬ op.TouchesBinding name) :
    (policyStep m op).clusterBindingsNamed name = m.clusterBindingsNamed name := by
  have hcluster : ∀ l, (m.withClusterRoles l).2.clusterBindingsNamed name = m.clusterBindingsNamed name := fun l => by
    rw [withClusterRoles_eq, Manager.clusterBindingsNamed, Manager.clusterBindingsNamed]
  have hcreate : ∀ b, (createClusterRoleBinding m b).2.clusterBindingsNamed name = m.clusterBindingsNamed name := by
    intro b
    rw [createClusterRoleBinding, withClusterRoleBindings_eq]
    exact filter_create_kept { b with ns := "" } hthere
  by_cases hns : op.ofNamespace = true
  · rw [Manager.clusterBindingsNamed, (cluster_step hns).2, Manager.clusterBindingsNamed]
  cases op with
  | createClusterRole role => exact hcluster _
  | updateClusterRole role => exact hcluster _
  | deleteClusterRole name => exact hcluster _
  | createClusterRoleBinding b => exact hcreate b
  | updateClusterRoleBinding b =>
    rw [policyStep, updateClusterRoleBinding, withClusterRoleBindings_eq]
    refine filter_edit_kept hop ?_
    rintro x y - hy
    rw [← Option.some.inj hy]
  | deleteClusterRoleBinding name' =>
    rw [policyStep, deleteClusterRoleBinding, withClusterRoleBindings_eq]
    exact filter_delete_kept hop
  | createAdminBinding user => exact hcreate (adminBinding user)
  | createReadonlyBinding group => exact hcreate (readonlyBinding group)
  | _ => exact absurd rfl hns

theorem Master.step (h : Master m) (hop : ¬ op.TouchesRole "system:masters") : Master (policyStep m op) := by
  have hthere : m.clusterRolesNamed "system:masters" ≠ [] := by
    rw [h]
    nofun
  rw [Master, clusterRolesNamed_step hthere hop]
  exact h

theorem AdminBound.step (h : AdminBound user m) (hop : ¬ op.TouchesBinding (adminBinding user).name) :
    AdminBound user (policyStep m op) := by
  have hthere : m.clusterBindingsNamed (adminBinding user).name ≠ [] := by
    rw [h]
    nofun
  rw [AdminBound, clusterBindingsNamed_step hthere hop]
  exact h

/-- A binding that is created is the only one of its name. -/
theorem adminBound_create (h : (createAdminBinding m user).1 = 0) :
    AdminBound user (policyStep m (.createAdminBinding user)) := by
  rw [createAdminBinding, createClusterRoleBinding] at h
  rw [AdminBound, policyStep, createAdminBinding, createClusterRoleBinding]
  cases hcreate : createRecord 500 (fun b => b.name == (adminBinding user).name) m.clusterRoleBindings
      { adminBinding user with ns := "" } with
  | none =>
    rw [hcreate] at h
    have hrefused : (-1 : Int) = 0 := h
    exact absurd hrefused (by decide)
  | some l =>
    rw [createRecord] at hcreate
    split at hcreate
    · cases hcreate
    split at hcreate
    · cases hcreate
    · next hfree =>
      obtain rfl := Option.some.inj hcreate
      have hnone : m.clusterRoleBindings.filter (fun b => b.name == (adminBinding user).name) = [] := by
        simpa using hfree
      rw [Manager.withClusterRoleBindings, Manager.clusterBindingsNamed, List.filter_append, hnone,
        List.filter_singleton, beq_self_eq_true]
      rfl

/-! ## The access -/

theorem wildcardRule_accepts (req : Request) : wildcardRule.Accepts req :=
  ⟨⟨"*", List.mem_singleton_self _, .inl rfl⟩, ⟨"*", List.mem_singleton_self _, .inl rfl⟩,
    ⟨"*", List.mem_singleton_self _, .inl rfl⟩, fun _ _ hne => absurd rfl hne⟩

/-- **The binding and the role allow everything.** -/
theorem allowed_of_bound (hmaster : Master m) (hbound : AdminBound user m) (huser : user.length ≤ 255) {c : Call}
    {req : Request} (hreq : c.request = some req) (hcaller : req.user = user) : (canPerformAction m c).1 = 0 := by
  refine canPerformAction_eq_zero_iff.mpr ⟨req, hreq, matchedBinding_isSome_iff.mpr (.inl ?_)⟩
  have hmem : adminBinding user ∈ m.clusterRoleBindings := by
    have hfilter : adminBinding user ∈ m.clusterBindingsNamed (adminBinding user).name := by
      rw [hbound]
      exact List.mem_singleton_self _
    exact (List.mem_filter.mp hfilter).1
  have hrole : m.clusterRole "system:masters" = some mastersRole := by
    rw [Manager.clusterRole, ← List.head?_filter]
    exact congrArg List.head? hmaster
  refine ⟨adminBinding user, hmem, ⟨⟨.user, user.take 255⟩, List.mem_singleton_self _, ?_⟩,
    mastersRole, hrole, wildcardRule, List.mem_singleton_self _, wildcardRule_accepts req⟩
  rw [List.take_of_length_le huser]
  exact subjectMatches_iff.mpr (.inl (.inl ⟨rfl, hcaller.symm⟩))

theorem run_master {ops : List PolicyOp} (h : Master m) (hops : ∀ op ∈ ops, ¬ op.TouchesRole "system:masters") :
    AllStates policyStep Master m ops :=
  allStates_of_allSteps (fun _ _ hs hop => hs.step hop) h (allSteps_of_mem hops)

theorem run_adminBound {ops : List PolicyOp} (h : AdminBound user m)
    (hops : ∀ op ∈ ops, ¬ op.TouchesBinding (adminBinding user).name) :
    AllStates policyStep (AdminBound user) m ops :=
  allStates_of_allSteps (fun _ _ hs hop => hs.step hop) h (allSteps_of_mem hops)

/-- The user is allowed everything. -/
def AllowedAll (user : CString) (m : Manager) : Prop :=
  ∀ c req, Call.request c = some req → req.user = user → (canPerformAction m c).1 = 0

/-- **An administrator keeps access** in every state after the call that created the binding. -/
theorem admin_keeps_access {before after : List PolicyOp} (huser : user.length ≤ 255)
    (hcreated : (createAdminBinding (run policyStep managerInit before) user).1 = 0)
    (hrole : ∀ op ∈ before ++ after, ¬ op.TouchesRole "system:masters")
    (hbinding : ∀ op ∈ after, ¬ op.TouchesBinding (adminBinding user).name) :
    AllStates policyStep (AllowedAll user) (policyStep (run policyStep managerInit before) (.createAdminBinding user))
      after := by
  rw [List.forall_mem_append] at hrole
  have hinit : Master managerInit := rfl
  have hmaster : Master (run policyStep managerInit before) := (run_master hinit hrole.1).run_mem
  have hstep : Master (policyStep (run policyStep managerInit before) (.createAdminBinding user)) := hmaster.step id
  have hstart := adminBound_create hcreated
  have hmasters := run_master hstep hrole.2
  exact (hmasters.and (run_adminBound hstart hbinding)).imp
    fun _ hs c req hreq hcaller => allowed_of_bound hs.1 hs.2 huser hreq hcaller

/-- An administrator, with another one bound and taken out again. -/
theorem admin_keeps_access_beside :
    AllStates policyStep (AllowedAll "root") (policyStep managerInit (.createAdminBinding "root"))
      [.createAdminBinding "eve", .createClusterRole ⟨"reader", "", []⟩, .deleteClusterRoleBinding "admin-eve"] := by
  have hcreated : (createAdminBinding (run policyStep managerInit []) "root").1 = 0 := rfl
  refine admin_keeps_access (by decide) hcreated (fun op hop => ?_) (fun op hop => ?_)
  all_goals
    simp only [List.nil_append, List.mem_cons, List.not_mem_nil, or_false] at hop
    rcases hop with rfl | rfl | rfl
  · exact id
  · exact id
  · exact id
  · exact id
  · exact id
  · exact (by decide : CString.ofString "admin-eve" ≠ (adminBinding "root").name)

end Sirah.Rbac
