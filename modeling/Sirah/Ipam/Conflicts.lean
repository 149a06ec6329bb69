import Sirah.Ipam.Pools

/-!
# Address conflicts

Pod and service addresses come from one scan, which skips the addresses of `pod_ips` only, though
`ipam_manager_is_ip_available` knows two pools. A service address is never skipped: two allocations in a
row hand out one address (`service_ip_twice`). And the ranges the scan is asked for are those
`parse_cidr` computed, which for the services need not be the configured one.

A run is recorded in a `Ledger`: the manager, and every address handed out with the range it was asked
from, the node's block or the configured service CIDR. **`no_ip_conflict`**: no two live allocations
share an address, and every address handed out lies strictly inside its range, along every run in which
each allocation finds, as the lowest address of its range that is not in `pod_ips`, one that is not in
`service_ips` either, and the service range starts where it was configured to.
-/

namespace Sirah.Ipam

open Inet Runs

/-- An address handed out, and the first and last address of the range it was asked from. -/
structure Grant where
  ip : Nat
  first : Nat
  last : Nat
  deriving DecidableEq, Repr

/-- A manager and the addresses it has handed out. -/
structure Ledger where
  manager : Manager
  grants : List Grant
  deriving DecidableEq, Repr

section

variable (service : Cidr)

/-- What an operation hands out, read from the text it returns. -/
def grantOf (m : Manager) : Op → Option Grant
  | .allocatePodIp name =>
    match m.nodes.find? fun n => n.nodeName = name, (allocatePodIp m name).1 with
    | some node, some text =>
      some ⟨addr (ipStringToInt text), addr node.nodeCidrStart, addr node.nodeCidrEnd⟩
    | _, _ => none
  | .allocateServiceIp =>
    (allocateServiceIp m).1.map fun text => ⟨addr (ipStringToInt text), service.first, service.last⟩
  | _ => none

/-- One operation, recorded. -/
def record (l : Ledger) (op : Op) : Ledger :=
  ⟨step l.manager op, (grantOf service l.manager op).toList ++ l.grants⟩

/-- **The law**: the live addresses are distinct, across both pools, and every address handed out is
neither the network, nor the gateway, nor the broadcast address of its range, nor outside it. -/
structure NoConflict (l : Ledger) : Prop where
  distinct : (l.manager.podIps ++ l.manager.serviceIps).Nodup
  inside : ∀ g ∈ l.grants, g.first + 1 < g.ip ∧ g.ip < g.last

/-- The lowest address strictly inside the range that is not in `pod_ips` is not in `service_ips`. -/
def LowestFree (m : Manager) (first last : Nat) : Prop :=
  ∃ a, first + 1 < a ∧ a < last ∧ a ∉ m.podIps.map addr ∧ a ∉ m.serviceIps.map addr ∧
    ∀ x, first + 1 < x → x < a → x ∈ m.podIps.map addr

/-- Every address strictly inside the range is in `pod_ips`. -/
def Exhausted (m : Manager) (first last : Nat) : Prop :=
  first + 2 < 2 ^ 32 ∧ 0 < last ∧ ∀ x, first + 1 < x → x < last → x ∈ m.podIps.map addr

/-- An allocation finds its range's lowest address free in both pools, or the range exhausted; the
service range starts where it was configured to. -/
def Clear (m : Manager) : Op → Prop
  | .allocatePodIp name => ∀ node ∈ m.nodes.find? fun n => n.nodeName = name,
      LowestFree m (addr node.nodeCidrStart) (addr node.nodeCidrEnd) ∨
        Exhausted m (addr node.nodeCidrStart) (addr node.nodeCidrEnd)
  | .allocateServiceIp => service.start = service.base ∧
      (LowestFree m service.first service.last ∨
        addr m.serviceEnd = service.last ∧ Exhausted m service.first service.last)
  | _ => True

/-! ## One allocation -/

/-- What the scan finds in a clear range is free in both pools and strictly inside. -/
theorem scan_clear {m : Manager} {cidrStart cidrEnd ip : UInt32} {last : Nat}
    (hnext : getNextAvailableIp m cidrStart cidrEnd = some ip) (hlast : last < 2 ^ 32)
    (h : LowestFree m (addr cidrStart) last ∨
      addr cidrEnd = last ∧ Exhausted m (addr cidrStart) last) :
    ip ∉ m.podIps ∧ ip ∉ m.serviceIps ∧ addr cidrStart + 1 < addr ip ∧ addr ip < last := by
  rcases h with ⟨a, hlo, hhi, hpod, hservice, hlow⟩ | ⟨rfl, hstart, hend, hall⟩
  · have hfrom : (ntohl cidrStart + 2).toNat = addr cidrStart + 2 := by
      rw [UInt32.toNat_add]
      exact Nat.mod_eq_of_lt (by change addr cidrStart + 2 < _; omega)
    obtain ⟨rfl, hfree⟩ := scan_eq_of_lowest hnext (by omega) (by omega) hpod fun x hx hxa =>
      hlow x (by omega) hxa
    exact ⟨hfree, fun hmem => hservice (List.mem_map_of_mem hmem), hlo, hhi⟩
  · obtain ⟨hfree, hlo, hhi, -⟩ := getNextAvailableIp_spec hnext hstart hend
    obtain ⟨v, hv, hva⟩ := List.mem_map.mp (hall (addr ip) (by omega) hhi)
    exact absurd (addr_inj.mp hva ▸ hv) hfree

theorem ipStringToInt_inetNtop (ip : UInt32) : ipStringToInt (inetNtop ip) = ip := by
  rw [ipStringToInt, inetPton_inetNtop, Option.getD_some]

/-- Shrinking the pools keeps them distinct. -/
theorem distinct_sublist {p p' s s' : List UInt32} (h : (p ++ s).Nodup) (hp : p'.Sublist p)
    (hs : s'.Sublist s) : (p' ++ s').Nodup := h.sublist (hp.append hs)

/-- A new address may stand anywhere in the pools. -/
theorem distinct_insert {p s q : List UInt32} {ip : UInt32} (h : (p ++ s).Nodup) (hp : ip ∉ p)
    (hs : ip ∉ s) (hq : q.Perm (ip :: (p ++ s))) : q.Nodup := by
  rw [hq.nodup_iff, List.nodup_cons, List.mem_append]
  exact ⟨fun hmem => hmem.elim hp hs, h⟩

/-- The step law. -/
theorem noConflict_record {l : Ledger} {op : Op} (hs : l.manager.serviceStart = service.start)
    (h : NoConflict l) (hc : Clear service l.manager op) : NoConflict (record service l op) := by
  have hd := h.distinct
  cases op with
  | registerNode name =>
    refine ⟨?_, h.inside⟩
    rcases registerNode_cases l.manager name with ⟨-, hm⟩ | ⟨-, hm⟩ <;> simp only [record, step, hm] <;>
      exact hd
  | unregisterNode name =>
    refine ⟨?_, h.inside⟩
    simp only [record, step, unregisterNode_nodes]
    exact hd
  | allocatePodIp name =>
    rcases allocatePodIp_cases l.manager name with hm | ⟨node, ip, hfind, hnext, hm⟩
    · have hgrant : grantOf service l.manager (.allocatePodIp name) = none := by
        simp only [grantOf, hm]
        cases l.manager.nodes.find? fun n => n.nodeName = name <;> rfl
      simp only [record, step, hm, hgrant]
      exact h
    · obtain ⟨hpod, hserv, hlo, hhi⟩ := scan_clear hnext (addr_lt _)
        ((hc node hfind).imp_right fun he => ⟨rfl, he⟩)
      simp only [record, step, hm, grantOf, hfind, Option.toList_some, ipStringToInt_inetNtop]
      refine ⟨?_, fun g hg => ?_⟩
      · refine distinct_insert hd hpod hserv ?_
        rw [List.append_assoc, List.singleton_append]
        exact List.perm_middle
      · rcases List.mem_append.mp hg with hg | hg
        · obtain rfl := List.mem_singleton.mp hg
          exact ⟨hlo, hhi⟩
        · exact h.inside g hg
  | releasePodIp ip =>
    exact ⟨distinct_sublist hd List.erase_sublist (List.Sublist.refl _), h.inside⟩
  | allocateServiceIp =>
    rcases allocateServiceIp_cases l.manager with hm | ⟨ip, hnext, hm⟩
    · simp only [record, step, hm, grantOf]
      exact h
    · obtain ⟨hstart, hclear⟩ := hc
      have hfirst : addr l.manager.serviceStart = service.first := by rw [hs, hstart, Cidr.first]
      rw [← hfirst] at hclear
      obtain ⟨hpod, hserv, hlo, hhi⟩ := scan_clear hnext service.last_lt hclear
      simp only [record, step, hm, grantOf, Option.map_some, Option.toList_some,
        ipStringToInt_inetNtop]
      refine ⟨?_, fun g hg => ?_⟩
      · refine distinct_insert hd hpod hserv ?_
        rw [← List.append_assoc]
        exact List.perm_append_singleton _ _
      · rcases List.mem_append.mp hg with hg | hg
        · obtain rfl := List.mem_singleton.mp hg
          exact ⟨by rw [← hfirst]; exact hlo, hhi⟩
        · exact h.inside g hg
  | releaseServiceIp ip =>
    exact ⟨distinct_sublist hd (List.Sublist.refl _) List.erase_sublist, h.inside⟩

/-- A manager that has handed out nothing yet, as if the prefix output were ignored. -/
def ledgerIgnoringPrefix (cluster : Cidr) : Ledger := ⟨managerIgnoringPrefix cluster.text service.text, []⟩

/-- **No conflict** along every run of clear steps, as if the prefix output were ignored. -/
theorem no_ip_conflict (cluster : Cidr) {ops : List Op}
    (h : AllSteps (record service) (fun l op => Clear service l.manager op) (ledgerIgnoringPrefix service cluster)
      ops) :
    AllStates (record service) NoConflict (ledgerIgnoringPrefix service cluster) ops := by
  have hinv : AllStates (record service)
      (fun l => l.manager.serviceStart = service.start ∧ NoConflict l)
      (ledgerIgnoringPrefix service cluster) ops := by
    refine allStates_of_allSteps (fun l op hl hc => ⟨?_, noConflict_record service hl.1 hl.2 hc⟩)
      ⟨?_, ⟨List.nodup_nil, fun g hg => absurd hg List.not_mem_nil⟩⟩ h
    · exact (step_ranges l.manager op).2.trans hl.1
    · rw [ledgerIgnoringPrefix, managerIgnoringPrefix, managerOfRanges, service.parseCidr_text]
  rw [allStates_iff_prefixes] at hinv ⊢
  exact fun pre hpre => (hinv pre hpre).2

end

/-! ## Two runs -/

/-- `0.0.96.0/20`, which `parse_cidr` starts where it starts. -/
def lowServiceRange : Cidr := ⟨0x00600000, 20, by decide, by decide⟩

/-- A pod and a service get an address each. -/
theorem no_ip_conflict_pod_and_service :
    NoConflict (run (record lowServiceRange) (ledgerIgnoringPrefix lowServiceRange podRange)
      [.registerNode "a", .allocatePodIp "a", .allocateServiceIp]) := by
  have hsteps : AllSteps (record lowServiceRange) (fun l op => Clear lowServiceRange l.manager op)
      (ledgerIgnoringPrefix lowServiceRange podRange)
      [.registerNode "a", .allocatePodIp "a", .allocateServiceIp] := by
    refine And.intro trivial (And.intro (fun node hnode => .inl ?_)
      (And.intro ⟨by decide +kernel, .inl ⟨24578, ?_⟩⟩ trivial))
    · have hfind : ((record lowServiceRange (ledgerIgnoringPrefix lowServiceRange podRange)
          (.registerNode "a")).manager.nodes.find? fun n => n.nodeName = CString.ofString "a") =
          some ⟨"a", 0, 0xFF000000, "0.0.0.0/24", []⟩ := by decide +kernel
      obtain rfl := Option.some.inj (hfind.symm.trans hnode)
      refine ⟨2, by decide, by decide, by decide +kernel, by decide +kernel, fun x hlo hhi => ?_⟩
      rw [show addr 0 = 0 from by decide] at hlo
      omega
    · refine ⟨by decide +kernel, by decide +kernel, by decide +kernel, by decide +kernel,
        fun x hlo hhi => ?_⟩
      rw [show lowServiceRange.first = 24576 from by decide] at hlo
      omega
  exact (no_ip_conflict lowServiceRange podRange hsteps).run_mem

/-- **One address twice.** Two services ask for an address each; both get the same one, `0.0.0.2`,
which is not in `10.96.0.0/12` either. -/
theorem service_ip_twice :
    serviceRange.last < podRange.first ∧
      ¬ NoConflict (run (record serviceRange) (ledgerIgnoringPrefix serviceRange podRange)
        [.allocateServiceIp, .allocateServiceIp]) := by
  refine ⟨by decide, fun h => ?_⟩
  exact absurd h.distinct (by decide +kernel)

end Sirah.Ipam
