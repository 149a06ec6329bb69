import Mathlib.Data.List.Flatten
import Sirah.Ipam.Blocks

/-!
# The pools and the nodes' lists

Every live pod address stands twice, in `pod_ips` and in the `allocated_ips` of its node, and
`ipam_manager_get_stats` subtracts the size of the pool from 256 for each node. Unregistering a node
frees its list and leaves the pool alone, so a node that leaves with live addresses leaks them.

* `pools_agree_iff`: the pool is a permutation of the nodes' lists along a run **iff** every node that
  leaves has no live address.
* **`bookkeeping_consistent`**: then, and as long as there are fewer than `2^24` nodes and no block
  runs past `255.255.255.255`, the statistics do not wrap either.
-/

namespace Sirah.Ipam

open Inet Runs

/-- The addresses in the nodes' lists, node after node. -/
def nodeIps (ns : List Node) : List UInt32 := ns.flatMap Node.allocatedIps

/-- The pool holds what the nodes hold. -/
def PoolsAgree (m : Manager) : Prop := m.podIps.Perm (nodeIps m.nodes)

/-- The number of available pod addresses is the difference it stands for, not a wrapped one. -/
def StatsExact (m : Manager) : Prop :=
  ((getStats m).availablePods.toNat : Int) = 256 * m.nodes.length - m.podIps.length

/-- **Consistent bookkeeping.** -/
def Consistent (m : Manager) : Prop := PoolsAgree m ∧ StatsExact m

/-- A node that leaves has no live address. -/
def LeavesEmpty (m : Manager) : Op → Prop
  | .unregisterNode name => ∀ n ∈ m.nodes.find? fun n => n.nodeName = name, n.allocatedIps = []
  | _ => True

/-- Moreover a node that joins is one of fewer than `2^24`, and its block does not run past
`255.255.255.255`. -/
def Orderly (m : Manager) : Op → Prop
  | .registerNode name => (∀ n ∈ m.nodes, n.nodeName ≠ name) → m.nodes.length + 1 < 2 ^ 24 ∧
      (addr m.clusterStart + 256 * m.nodes.length) % 2 ^ 32 + 255 < 2 ^ 32
  | op => LeavesEmpty m op

instance (m : Manager) : DecidablePred (LeavesEmpty m)
  | .unregisterNode name => inferInstanceAs
      (Decidable (∀ n ∈ m.nodes.find? fun n => n.nodeName = name, n.allocatedIps = []))
  | .registerNode _ | .allocatePodIp _ | .releasePodIp _ | .allocateServiceIp | .releaseServiceIp _ =>
    inferInstanceAs (Decidable True)

instance (m : Manager) : DecidablePred (Orderly m)
  | .registerNode name => inferInstanceAs
      (Decidable ((∀ n ∈ m.nodes, n.nodeName ≠ name) → m.nodes.length + 1 < 2 ^ 24 ∧
        (addr m.clusterStart + 256 * m.nodes.length) % 2 ^ 32 + 255 < 2 ^ 32))
  | .unregisterNode name => inferInstanceAs (Decidable (LeavesEmpty m (.unregisterNode name)))
  | .allocatePodIp _ | .releasePodIp _ | .allocateServiceIp | .releaseServiceIp _ =>
    inferInstanceAs (Decidable True)

theorem Orderly.leavesEmpty {m : Manager} {op : Op} (h : Orderly m op) : LeavesEmpty m op := by
  cases op with
  | registerNode name => trivial
  | _ => exact h

/-! ## The lists under the operations -/

theorem nodeIps_cons (n : Node) (ns : List Node) :
    nodeIps (n :: ns) = n.allocatedIps ++ nodeIps ns := List.flatMap_cons

theorem assign_nodeIps (ip : UInt32) (name : CString) : ∀ {ns : List Node} {node : Node},
    (ns.find? fun n => n.nodeName = name) = some node →
    (nodeIps (assign ip name ns)).Perm (nodeIps ns ++ [ip])
  | [], _, h => by simp at h
  | n :: ns, node, h => by
    unfold assign
    split
    · rw [nodeIps_cons, nodeIps_cons]
      have hswap : ([ip] ++ nodeIps ns).Perm (nodeIps ns ++ [ip]) := List.perm_append_comm
      simpa only [List.append_assoc] using hswap.append_left n.allocatedIps
    · rename_i hne
      rw [List.find?_cons_of_neg (by simpa using hne)] at h
      rw [nodeIps_cons, nodeIps_cons, List.append_assoc]
      exact (assign_nodeIps ip name h).append_left _

theorem withdraw_nodeIps (ip : UInt32) (ns : List Node) :
    nodeIps (withdraw ip ns) = (nodeIps ns).erase ip := by
  induction ns with
  | nil => rfl
  | cons n ns ih =>
    unfold withdraw
    split
    · rename_i hmem
      rw [nodeIps_cons, nodeIps_cons, List.erase_append_left _ hmem]
    · rename_i hmem
      rw [nodeIps_cons, nodeIps_cons, List.erase_append_right _ hmem, ih]

/-- A node that leaves takes its addresses out of the lists. -/
theorem unregister_nodeIps (name : CString) : ∀ ns : List Node,
    nodeIps (ns.eraseP fun n => n.nodeName = name) = nodeIps ns ↔
      ∀ node ∈ ns.find? fun n => n.nodeName = name, node.allocatedIps = []
  | [] => by simp
  | n :: ns => by
    by_cases hn : n.nodeName = name
    · rw [List.eraseP_cons_of_pos (by simpa using hn), List.find?_cons_of_pos (by simpa using hn),
        nodeIps_cons]
      constructor
      · rintro h node ⟨⟩
        have hlen := congrArg List.length h
        rw [List.length_append] at hlen
        exact List.length_eq_zero_iff.mp (by omega)
      · intro h
        rw [h n rfl, List.nil_append]
    · rw [List.eraseP_cons_of_neg (by simpa using hn), List.find?_cons_of_neg (by simpa using hn),
        nodeIps_cons, nodeIps_cons, List.append_cancel_left_eq]
      exact unregister_nodeIps name ns

/-- Leaving keeps the pools in agreement exactly when the node has no live address. -/
theorem unregister_perm {m : Manager} (h : PoolsAgree m) (name : CString) :
    m.podIps.Perm (nodeIps (m.nodes.eraseP fun n => n.nodeName = name)) ↔
      LeavesEmpty m (.unregisterNode name) := by
  rw [LeavesEmpty, ← unregister_nodeIps]
  constructor
  · intro hp
    have hlen : (nodeIps (m.nodes.eraseP fun n => n.nodeName = name)).length =
        (nodeIps m.nodes).length := by rw [← hp.length_eq, h.length_eq]
    have hsub : (nodeIps (m.nodes.eraseP fun n => n.nodeName = name)).Sublist (nodeIps m.nodes) := by
      exact List.eraseP_sublist.flatMap _
    exact hsub.eq_of_length hlen
  · intro he
    rw [he]
    exact h

/-- The step law of the pools. -/
theorem poolsAgree_step {m : Manager} (h : PoolsAgree m) (op : Op) :
    PoolsAgree (step m op) ↔ LeavesEmpty m op := by
  cases op with
  | registerNode name =>
    refine iff_of_true ?_ trivial
    rcases registerNode_cases m name with ⟨-, hm⟩ | ⟨-, hm⟩
    · rw [step, hm]
      exact h
    · rw [step, hm]
      have hnil : nodeIps (m.nodes ++ [newNode m name]) = nodeIps m.nodes := by
        simp [nodeIps, newNode]
      rw [PoolsAgree, hnil]
      exact h
  | unregisterNode name =>
    rw [step, unregisterNode_nodes]
    exact unregister_perm h name
  | allocatePodIp name =>
    refine iff_of_true ?_ trivial
    rcases allocatePodIp_cases m name with hm | ⟨node, ip, hfind, -, hm⟩
    · rw [step, hm]
      exact h
    · rw [step, hm]
      exact (h.append_right [ip]).trans (assign_nodeIps ip name hfind).symm
  | releasePodIp ip =>
    refine iff_of_true ?_ trivial
    rw [step, releasePodIp, PoolsAgree, withdraw_nodeIps]
    exact h.erase _
  | allocateServiceIp =>
    refine iff_of_true ?_ trivial
    rcases allocateServiceIp_cases m with hm | ⟨ip, -, hm⟩ <;> rw [step, hm] <;> exact h
  | releaseServiceIp ip => exact iff_of_true h trivial

/-- **The pools agree, exactly**: along every run in which only nodes without live addresses leave, and
along no other. -/
theorem pools_agree_iff (clusterCidr serviceCidr : CString) (ops : List Op) :
    AllStates step PoolsAgree (managerIgnoringPrefix clusterCidr serviceCidr) ops ↔
      AllSteps step LeavesEmpty (managerIgnoringPrefix clusterCidr serviceCidr) ops :=
  allStates_iff_allSteps (I := fun _ => True) (fun _ _ _ _ => trivial)
    (fun _ op _ _ h => poolsAgree_step h op) trivial (List.Perm.refl _) allSteps_true

/-! ## The statistics -/

/-- A scan from a word's second successor to another word's predecessor. -/
theorem getNextAvailableIp_spec {m : Manager} {cidrStart cidrEnd w : UInt32}
    (h : getNextAvailableIp m cidrStart cidrEnd = some w) (hstart : addr cidrStart + 2 < 2 ^ 32)
    (hend : 0 < addr cidrEnd) :
    w ∉ m.podIps ∧ addr cidrStart + 2 ≤ addr w ∧ addr w < addr cidrEnd ∧
      ∀ x, addr cidrStart + 2 ≤ x → x < addr w → x ∈ m.podIps.map addr := by
  have hlt := addr_lt cidrEnd
  have hfrom : (ntohl cidrStart + 2).toNat = addr cidrStart + 2 := by
    rw [UInt32.toNat_add]
    exact Nat.mod_eq_of_lt hstart
  have hto : (ntohl cidrEnd - 1).toNat = addr cidrEnd - 1 :=
    UInt32.toNat_sub_of_le _ _ (UInt32.le_iff_toNat_le.mpr hend)
  obtain ⟨hw, hlo, hhi, hlow⟩ := scan_spec h (by omega)
  rw [hfrom] at hlo hlow
  exact ⟨hw, hlo, by omega, hlow⟩

theorem mem_assign {ip : UInt32} {name : CString} : ∀ {ns : List Node} {n : Node},
    n ∈ assign ip name ns → n ∈ ns ∨ ∃ node, (ns.find? fun n => n.nodeName = name) = some node ∧
      n = { node with allocatedIps := node.allocatedIps ++ [ip] }
  | n' :: ns, n, h => by
    unfold assign at h
    split at h
    · rename_i hn
      rcases List.mem_cons.mp h with rfl | h
      · exact .inr ⟨n', List.find?_cons_of_pos (by simpa using hn), rfl⟩
      · exact .inl (List.mem_cons_of_mem n' h)
    · rename_i hn
      rw [List.find?_cons_of_neg (by simpa using hn)]
      rcases List.mem_cons.mp h with rfl | h
      · exact .inl List.mem_cons_self
      · exact (mem_assign h).imp_left (List.mem_cons_of_mem n')

theorem mem_withdraw {ip : UInt32} : ∀ {ns : List Node} {n : Node}, n ∈ withdraw ip ns →
    ∃ node ∈ ns, ∃ ips, ips ⊆ node.allocatedIps ∧ n = { node with allocatedIps := ips }
  | n' :: ns, n, h => by
    unfold withdraw at h
    split at h
    · rcases List.mem_cons.mp h with rfl | h
      · exact ⟨n', List.mem_cons_self, _, List.erase_subset, rfl⟩
      · exact ⟨n, List.mem_cons_of_mem n' h, _, List.Subset.refl _, rfl⟩
    · rcases List.mem_cons.mp h with rfl | h
      · exact ⟨n, List.mem_cons_self, _, List.Subset.refl _, rfl⟩
      · obtain ⟨node, hmem, rest⟩ := mem_withdraw h
        exact ⟨node, List.mem_cons_of_mem n' hmem, rest⟩

/-- A node's block does not wrap, and its addresses lie in it. -/
structure Node.Own (n : Node) : Prop where
  fits : addr n.nodeCidrStart + 255 < 2 ^ 32
  last : addr n.nodeCidrEnd = addr n.nodeCidrStart + 255
  ips : ∀ w ∈ n.allocatedIps, addr n.nodeCidrStart ≤ addr w ∧ addr w < addr n.nodeCidrStart + 255

/-- What a run of orderly steps keeps. -/
structure PoolInv (m : Manager) : Prop where
  agree : PoolsAgree m
  nodup : m.podIps.Nodup
  few : m.nodes.length < 2 ^ 24
  own : ∀ n ∈ m.nodes, n.Own

/-- A block has room for 255 addresses below its last. -/
theorem Node.Own.length_le {n : Node} (h : n.Own) (hnd : n.allocatedIps.Nodup) :
    n.allocatedIps.length ≤ 255 := by
  have hmap : (n.allocatedIps.map addr).Nodup := hnd.map fun _ _ => addr_inj.mp
  have hsub : n.allocatedIps.map addr ⊆ List.range' (addr n.nodeCidrStart) 255 := by
    intro x hx
    obtain ⟨w, hw, rfl⟩ := List.mem_map.mp hx
    have hin := h.ips w hw
    exact List.mem_range'_1.mpr hin
  have hle := (hmap.subperm hsub).length_le
  rwa [List.length_map, List.length_range'] at hle

theorem nodeIps_length_le : ∀ {ns : List Node}, (∀ n ∈ ns, n.allocatedIps.length ≤ 255) →
    (nodeIps ns).length ≤ 255 * ns.length
  | [], _ => Nat.le_refl 0
  | n :: ns, h => by
    have hn := h n List.mem_cons_self
    have hns := nodeIps_length_le fun n' hn' => h n' (List.mem_cons_of_mem n hn')
    rw [nodeIps_cons, List.length_append, List.length_cons]
    omega

theorem statsExact_of_inv {m : Manager} (h : PoolInv m) : StatsExact m := by
  have hnd : (nodeIps m.nodes).Nodup := h.agree.nodup_iff.mp h.nodup
  have hlen : (nodeIps m.nodes).length ≤ 255 * m.nodes.length := by
    refine nodeIps_length_le fun n hn => (h.own n hn).length_le (hnd.sublist ?_)
    rw [nodeIps, List.flatMap_def]
    exact List.sublist_flatten_of_mem (List.mem_map_of_mem hn)
  rw [← h.agree.length_eq] at hlen
  have hfew := h.few
  have htotal : (UInt32.ofNat (256 * m.nodes.length)).toNat = 256 * m.nodes.length := by
    rw [UInt32.toNat_ofNat', Nat.mod_eq_of_lt (by omega)]
  have hpods : (UInt32.ofNat m.podIps.length).toNat = m.podIps.length := by
    rw [UInt32.toNat_ofNat', Nat.mod_eq_of_lt (by omega)]
  rw [StatsExact, getStats, UInt32.toNat_sub_of_le, htotal, hpods]
  · omega
  · rw [UInt32.le_iff_toNat_le, htotal, hpods]
    omega

/-- Distinct addresses stay distinct: the scan looks at the whole pool. -/
theorem podIps_step {m : Manager} (h : m.podIps.Nodup) (op : Op) : (step m op).podIps.Nodup := by
  cases op with
  | registerNode name =>
    rcases registerNode_cases m name with ⟨-, hm⟩ | ⟨-, hm⟩ <;> rw [step, hm] <;> exact h
  | unregisterNode name =>
    rw [step, unregisterNode_nodes]
    exact h
  | allocatePodIp name =>
    rcases allocatePodIp_cases m name with hm | ⟨node, ip, -, hnext, hm⟩ <;> rw [step, hm]
    · exact h
    · obtain ⟨-, -, -, hfree, -⟩ := scan_some hnext
      exact List.nodup_append_comm.mp (List.nodup_cons.mpr ⟨hfree, h⟩)
  | releasePodIp ip => exact h.erase _
  | allocateServiceIp =>
    rcases allocateServiceIp_cases m with hm | ⟨ip, -, hm⟩ <;> rw [step, hm] <;> exact h
  | releaseServiceIp ip => exact h

/-- A new node's block, when it does not wrap. -/
theorem newNode_own {m : Manager} {name : CString}
    (h : (addr m.clusterStart + 256 * m.nodes.length) % 2 ^ 32 + 255 < 2 ^ 32) :
    (newNode m name).Own := by
  have hblock := newNode_block m name
  rw [Node.block, Block.mk.injEq] at hblock
  obtain ⟨-, hfirst, hlast⟩ := hblock
  refine ⟨by omega, by omega, fun w hw => absurd hw List.not_mem_nil⟩

/-- The address the scan finds for a node lies in the node's block. -/
theorem Node.Own.grant {m : Manager} {n : Node} (h : n.Own) {ip : UInt32}
    (hnext : getNextAvailableIp m n.nodeCidrStart n.nodeCidrEnd = some ip) :
    Node.Own { n with allocatedIps := n.allocatedIps ++ [ip] } := by
  have hfits := h.fits
  have hlast := h.last
  obtain ⟨-, hlo, hhi, -⟩ := getNextAvailableIp_spec hnext (by omega) (by omega)
  refine ⟨hfits, hlast, fun w hw => ?_⟩
  rcases List.mem_append.mp hw with hw | hw
  · exact h.ips w hw
  · obtain rfl := List.mem_singleton.mp hw
    refine ⟨?_, ?_⟩ <;> simp only <;> omega

theorem own_step {m : Manager} (h : PoolInv m) {op : Op} (ho : Orderly m op) :
    ∀ n ∈ (step m op).nodes, n.Own := by
  intro n hn
  cases op with
  | registerNode name =>
    rcases registerNode_cases m name with ⟨-, hm⟩ | ⟨hnew, hm⟩ <;> rw [step, hm] at hn
    · exact h.own n hn
    · rcases List.mem_append.mp hn with hn | hn
      · exact h.own n hn
      · obtain rfl := List.mem_singleton.mp hn
        exact newNode_own (ho hnew).2
  | unregisterNode name =>
    rw [step, unregisterNode_nodes] at hn
    exact h.own n (List.mem_of_mem_eraseP hn)
  | allocatePodIp name =>
    rcases allocatePodIp_cases m name with hm | ⟨node, ip, hfind, hnext, hm⟩ <;> rw [step, hm] at hn
    · exact h.own n hn
    · rcases mem_assign hn with hn | ⟨node', hfind', rfl⟩
      · exact h.own n hn
      · obtain rfl := Option.some.inj (hfind.symm.trans hfind')
        exact (h.own node (List.mem_of_find?_eq_some hfind)).grant hnext
  | releasePodIp ip =>
    obtain ⟨node, hmem, ips, hsub, rfl⟩ := mem_withdraw hn
    have hown := h.own node hmem
    exact ⟨hown.fits, hown.last, fun w hw => hown.ips w (hsub hw)⟩
  | allocateServiceIp =>
    rcases allocateServiceIp_cases m with hm | ⟨ip, -, hm⟩ <;> rw [step, hm] at hn <;> exact h.own n hn
  | releaseServiceIp ip => exact h.own n hn

/-- The number of nodes grows by the registration of a new name only. -/
theorem few_step {m : Manager} (h : PoolInv m) {op : Op} (ho : Orderly m op) :
    (step m op).nodes.length < 2 ^ 24 := by
  have hfew := h.few
  rcases step_blocks m op with ⟨name, rfl, hnew, hnodes⟩ | ⟨-, hsub⟩
  · have hroom := (ho hnew).1
    rw [hnodes, List.length_append, List.length_singleton]
    omega
  · have hle := hsub.length_le
    rw [blocks, blocks, List.length_map, List.length_map] at hle
    omega

theorem poolInv_step {m : Manager} {op : Op} (h : PoolInv m) (ho : Orderly m op) :
    PoolInv (step m op) where
  agree := (poolsAgree_step h.agree op).mpr ho.leavesEmpty
  nodup := podIps_step h.nodup op
  few := few_step h ho
  own := own_step h ho

theorem poolInv_create (clusterCidr serviceCidr : CString) :
    PoolInv (managerIgnoringPrefix clusterCidr serviceCidr) where
  agree := List.Perm.refl _
  nodup := List.nodup_nil
  few := Nat.two_pow_pos 24
  own _ hn := absurd hn List.not_mem_nil

/-- **Consistent bookkeeping** along every run of orderly steps, as if the prefix output were ignored. -/
theorem bookkeeping_consistent (cluster service : Cidr) {ops : List Op}
    (h : AllSteps step Orderly (managerIgnoringPrefix cluster.text service.text) ops) :
    AllStates step Consistent (managerIgnoringPrefix cluster.text service.text) ops := by
  have hinv : AllStates step PoolInv (managerIgnoringPrefix cluster.text service.text) ops :=
    allStates_of_allSteps (fun _ _ => poolInv_step) (poolInv_create _ _) h
  rw [allStates_iff_prefixes] at hinv ⊢
  exact fun pre hpre => ⟨(hinv pre hpre).agree, statsExact_of_inv (hinv pre hpre)⟩

/-- A node joins, gets a pod address, gives it back, and leaves. -/
theorem bookkeeping_consistent_join_leave :
    Consistent (run step (managerIgnoringPrefix podRange.text serviceRange.text)
      [.registerNode "a", .allocatePodIp "a", .releasePodIp "0.0.0.2", .unregisterNode "a"]) :=
  (bookkeeping_consistent podRange serviceRange (by decide +kernel)).run_mem

/-- **A leaked address.** A node that leaves with a live address leaves it in the pool, and the number
of available addresses is `0 - 1` in 32 bits. -/
theorem leaving_node_leaks :
    ¬ Consistent (run step (managerIgnoringPrefix podRange.text serviceRange.text)
        [.registerNode "a", .allocatePodIp "a", .unregisterNode "a"]) ∧
      (getStats (run step (managerIgnoringPrefix podRange.text serviceRange.text)
        [.registerNode "a", .allocatePodIp "a", .unregisterNode "a"])).availablePods = 4294967295 := by
  refine ⟨fun h => ?_, by decide +kernel⟩
  have hlen := h.1.length_eq
  exact absurd hlen (by decide +kernel)

end Sirah.Ipam
