import Mathlib.Data.List.Nodup
import Mathlib.Data.List.Perm.Subperm
import Sirah.Lib.Inet
import Sirah.Lib.Run

/-!
# IP address management

Model of `internal/ipam/ipam_manager.c`. Addresses are `uint32_t` words in network byte order, as the
structs hold them, on a little-endian host; counted arrays are lists, and `realloc` succeeds. Every
operation runs under `manager->mutex`, so an operation is one step.

* `parseCidr` applies its mask to the word in network byte order, as the source does.
* `ipam_manager_create` passes no place for the prefix length, and `parse_cidr` stores it all the same:
  `managerCreate_stops`. The runs start from `managerIgnoringPrefix`, the manager that it would return
  **as if the prefix output were ignored**.
* The loop of `ipam_manager_get_next_available_ip` looks at one pool, `pod_ips`. Each turn but the last
  meets another address of that pool, so the loop is run with one turn more than the pool has entries:
  `scan_fuel` says more turns change nothing.

`scan_spec` is what the callers know of the loop: it returns the lowest address of the range that is
not in `pod_ips`.
-/

namespace Sirah.Ipam

open Inet

/-- `ip_string_to_int`. -/
def ipStringToInt (s : CString) : UInt32 := (inetPton s).getD 0

/-- `mask` of `parse_cidr`; the shift count is taken modulo 32, as the host's shift takes it. -/
def cidrMask (prefixLen : UInt32) : UInt32 := 0xFFFFFFFF <<< (32 - prefixLen)

/-- `parse_cidr`: `out_network` and `out_broadcast`. -/
def parseCidr (cidr : CString) : UInt32 × UInt32 :=
  match CString.strchr 47 cidr with
  | none => (0, 0)
  | some (ipPart, rest) =>
    let ip := ipStringToInt ipPart
    let mask := cidrMask (UInt32.ofInt (CString.atoi rest))
    (ip &&& mask, (ip &&& mask) ||| ~~~mask)

/-- What `parse_cidr` stores: `out_network`, `out_broadcast` and `out_prefix`. -/
structure CidrOutputs where
  network : UInt32
  broadcast : UInt32
  prefixLen : UInt32
  deriving DecidableEq, Repr

/-- `parse_cidr`, with the place for the prefix length or with NULL; no result where it stores through
NULL. -/
def parseCidrInto (hasPrefix : Bool) (cidr : CString) : Option CidrOutputs :=
  let block := parseCidr cidr
  if hasPrefix then
    some {
      network := block.1
      broadcast := block.2
      prefixLen := match CString.strchr 47 cidr with
        | none => 0
        | some (_, rest) => .ofInt (CString.atoi rest) }
  else none

/-- A well-formed range `a.b.c.d/n`: its network address, with the host bits zero. -/
structure Cidr where
  base : UInt32
  len : Nat
  len_le : len ≤ 32
  aligned : addr base % 2 ^ (32 - len) = 0

namespace Cidr

/-- The first and the last address of the range. -/
def first (c : Cidr) : Nat := addr c.base
def last (c : Cidr) : Nat := c.first + (2 ^ (32 - c.len) - 1)

def text (c : Cidr) : CString := inetNtop c.base ++ "/" ++ CString.ofNat c.len

/-- What `parse_cidr` takes for the network address. -/
def start (c : Cidr) : UInt32 := c.base &&& cidrMask (.ofNat c.len)

theorem last_lt (c : Cidr) : c.last < 2 ^ 32 := by
  have hlt : c.first < 2 ^ 32 := addr_lt c.base
  have hal : c.first % 2 ^ (32 - c.len) = 0 := c.aligned
  have hpow : 2 ^ 32 = 2 ^ (32 - c.len) * 2 ^ c.len := by
    rw [← Nat.pow_add, Nat.sub_add_cancel c.len_le]
  -- the range is one of the 2^len blocks of its size
  obtain ⟨q, hq⟩ := Nat.dvd_of_mod_eq_zero hal
  have hpos : 0 < 2 ^ (32 - c.len) := Nat.two_pow_pos _
  have hq1 : q + 1 ≤ 2 ^ c.len := by
    rw [hq, hpow] at hlt
    exact Nat.lt_of_mul_lt_mul_left hlt
  have htop := Nat.mul_le_mul_left (2 ^ (32 - c.len)) hq1
  rw [← hpow, Nat.mul_add, ← hq] at htop
  unfold last
  omega

/-- The prefix lengths read back. -/
theorem atoi_len : ∀ n ≤ 32, UInt32.ofInt (CString.atoi (CString.ofNat n)) = .ofNat n := by decide

/-- `parse_cidr` on an address and a prefix length. -/
theorem parseCidr_slash (w : UInt32) {n : Nat} (hn : n ≤ 32) :
    parseCidr (inetNtop w ++ "/" ++ CString.ofNat n) =
      (w &&& cidrMask (.ofNat n), (w &&& cidrMask (.ofNat n)) ||| ~~~cidrMask (.ofNat n)) := by
  have hslash : (("/" : String) : CString) = [47] := by decide
  have hno : ∀ b ∈ inetNtop w, decide (b ≠ 47) = true := by
    intro b hb
    simpa using ne_of_mem_of_not_mem hb (slash_not_mem_inetNtop w)
  have hchr : CString.strchr 47 (inetNtop w ++ "/" ++ CString.ofNat n) =
      some (inetNtop w, CString.ofNat n) := by
    simp only [CString.strchr, hslash, List.append_assoc, List.cons_append, List.nil_append]
    rw [List.dropWhile_append_of_pos hno, List.takeWhile_append_of_pos hno]
    simp
  simp only [parseCidr, hchr, ipStringToInt, inetPton_inetNtop, Option.getD_some, atoi_len n hn]

/-- `parse_cidr` on the text of a well-formed range. -/
theorem parseCidr_text (c : Cidr) : (parseCidr c.text).1 = c.start := by
  rw [text, parseCidr_slash c.base c.len_le, start]

end Cidr

/-- `node_allocation_t`. -/
structure Node where
  nodeName : CString
  nodeCidrStart : UInt32
  nodeCidrEnd : UInt32
  podCidrStr : CString
  allocatedIps : List UInt32
  deriving DecidableEq, Repr

/-- `ipam_manager_t`. -/
structure Manager where
  clusterStart : UInt32
  clusterEnd : UInt32
  serviceStart : UInt32
  serviceEnd : UInt32
  nodes : List Node
  podIps : List UInt32
  serviceIps : List UInt32
  deriving DecidableEq, Repr

/-- The rest of `ipam_manager_create`, once the two ranges are read. -/
def managerOfRanges (cluster service : UInt32 × UInt32) : Manager where
  clusterStart := cluster.1
  clusterEnd := cluster.2
  serviceStart := service.1
  serviceEnd := service.2
  nodes := []
  podIps := []
  serviceIps := []

/-- `ipam_manager_create`, with a place for the prefix lengths or with NULL. -/
def managerCreateWith (hasPrefix : Bool) (clusterCidr serviceCidr : CString) : Option Manager :=
  (parseCidrInto hasPrefix clusterCidr).bind fun cluster =>
    (parseCidrInto hasPrefix serviceCidr).map fun service =>
      managerOfRanges (cluster.network, cluster.broadcast) (service.network, service.broadcast)

/-- `ipam_manager_create`: it passes NULL. -/
def managerCreate (clusterCidr serviceCidr : CString) : Option Manager :=
  managerCreateWith false clusterCidr serviceCidr

/-- **As if the prefix output were ignored**: the manager that `ipam_manager_create` would return. -/
def managerIgnoringPrefix (clusterCidr serviceCidr : CString) : Manager :=
  managerOfRanges (parseCidr clusterCidr) (parseCidr serviceCidr)

/-- **`ipam_manager_create` stops**, whatever the ranges are. -/
theorem managerCreate_stops (clusterCidr serviceCidr : CString) : managerCreate clusterCidr serviceCidr = none := rfl

/-- With a place for the prefix lengths it returns the manager the runs start from. -/
theorem managerCreateWith_place (clusterCidr serviceCidr : CString) :
    managerCreateWith true clusterCidr serviceCidr = some (managerIgnoringPrefix clusterCidr serviceCidr) := rfl

/-! ## Nodes -/

/-- `node_ip` of `ipam_manager_register_node`, in host byte order. -/
def nodeIp (m : Manager) : UInt32 := ntohl m.clusterStart + (UInt32.ofNat m.nodes.length <<< 8)

/-- The entry a new node gets. -/
def newNode (m : Manager) (name : CString) : Node where
  nodeName := name
  nodeCidrStart := htonl (nodeIp m)
  nodeCidrEnd := htonl (nodeIp m + 255)
  podCidrStr := inetNtop (htonl (nodeIp m)) ++ "/24"
  allocatedIps := []

/-- `ipam_manager_register_node`: the node's pod CIDR. -/
def registerNode (m : Manager) (name : CString) : CString × Manager :=
  match m.nodes.find? fun n => n.nodeName = name with
  | some node => (node.podCidrStr, m)
  | none =>
    let node := newNode m name
    (node.podCidrStr, { m with nodes := m.nodes ++ [node] })

/-- `ipam_manager_unregister_node`. -/
def unregisterNode (m : Manager) (name : CString) : Bool × Manager :=
  if m.nodes.any fun n => n.nodeName = name then
    (true, { m with nodes := m.nodes.eraseP fun n => n.nodeName = name })
  else (false, m)

/-! ## The scan -/

/-- The loop of `ipam_manager_get_next_available_ip`. -/
def scan (podIps : List UInt32) (last : UInt32) : Nat → UInt32 → Option UInt32
  | 0, _ => none
  | fuel + 1, ip =>
    if ip ≤ last then
      if htonl ip ∈ podIps then scan podIps last fuel (ip + 1) else some (htonl ip)
    else none

/-- As many turns as the pool has entries, and one more. -/
def turns (podIps : List UInt32) : Nat := podIps.foldr (fun _ n => n + 1) 1

/-- `ipam_manager_get_next_available_ip`. -/
def getNextAvailableIp (m : Manager) (cidrStart cidrEnd : UInt32) : Option UInt32 :=
  scan m.podIps (ntohl cidrEnd - 1) (turns m.podIps) (ntohl cidrStart + 2)

/-! ## Allocation -/

/-- The first node of that name gets the address. -/
def assign (ip : UInt32) (name : CString) : List Node → List Node
  | [] => []
  | n :: ns =>
    if n.nodeName = name then { n with allocatedIps := n.allocatedIps ++ [ip] } :: ns
    else n :: assign ip name ns

/-- `ipam_manager_allocate_pod_ip`: the text of the address. -/
def allocatePodIp (m : Manager) (name : CString) : Option CString × Manager :=
  match m.nodes.find? fun n => n.nodeName = name with
  | none => (none, m)
  | some node =>
    match getNextAvailableIp m node.nodeCidrStart node.nodeCidrEnd with
    | none => (none, m)
    | some ip =>
      (some (inetNtop ip), { m with nodes := assign ip name m.nodes, podIps := m.podIps ++ [ip] })

/-- The first node that holds the address gives it back. -/
def withdraw (ip : UInt32) : List Node → List Node
  | [] => []
  | n :: ns =>
    if ip ∈ n.allocatedIps then { n with allocatedIps := n.allocatedIps.erase ip } :: ns
    else n :: withdraw ip ns

/-- `ipam_manager_release_pod_ip`. -/
def releasePodIp (m : Manager) (ipAddress : CString) : Bool × Manager :=
  let ip := ipStringToInt ipAddress
  (m.nodes.any fun n => ip ∈ n.allocatedIps,
    { m with podIps := m.podIps.erase ip, nodes := withdraw ip m.nodes })

/-- `ipam_manager_allocate_service_ip`. -/
def allocateServiceIp (m : Manager) : Option CString × Manager :=
  match getNextAvailableIp m m.serviceStart m.serviceEnd with
  | none => (none, m)
  | some ip => (some (inetNtop ip), { m with serviceIps := m.serviceIps ++ [ip] })

/-- `ipam_manager_release_service_ip`. -/
def releaseServiceIp (m : Manager) (ipAddress : CString) : Bool × Manager :=
  let ip := ipStringToInt ipAddress
  (decide (ip ∈ m.serviceIps), { m with serviceIps := m.serviceIps.erase ip })

/-- `ipam_manager_is_ip_available`. -/
def isIpAvailable (m : Manager) (ipAddress : CString) : Bool :=
  let ip := ipStringToInt ipAddress
  decide (ip ∉ m.podIps) && decide (ip ∉ m.serviceIps)

/-- What `ipam_manager_get_stats` stores. -/
structure Stats where
  nodes : UInt32
  allocatedPods : UInt32
  allocatedServices : UInt32
  availablePods : UInt32
  availableServices : UInt32
  deriving DecidableEq, Repr

/-- `ipam_manager_get_stats`. -/
def getStats (m : Manager) : Stats where
  nodes := .ofNat m.nodes.length
  allocatedPods := .ofNat m.podIps.length
  allocatedServices := .ofNat m.serviceIps.length
  availablePods := .ofNat (256 * m.nodes.length) - .ofNat m.podIps.length
  availableServices := ntohl m.serviceEnd - ntohl m.serviceStart - .ofNat m.serviceIps.length

/-- The operations, with their text arguments. -/
inductive Op where
  | registerNode (name : CString)
  | unregisterNode (name : CString)
  | allocatePodIp (node : CString)
  | releasePodIp (ip : CString)
  | allocateServiceIp
  | releaseServiceIp (ip : CString)
  deriving DecidableEq, Repr

/-- The manager after an operation. -/
def step (m : Manager) : Op → Manager
  | .registerNode name => (registerNode m name).2
  | .unregisterNode name => (unregisterNode m name).2
  | .allocatePodIp node => (allocatePodIp m node).2
  | .releasePodIp ip => (releasePodIp m ip).2
  | .allocateServiceIp => (allocateServiceIp m).2
  | .releaseServiceIp ip => (releaseServiceIp m ip).2

/-! ## What an operation does to the manager -/

/-- A registration leaves the manager alone, or appends a new node under a new name. -/
theorem registerNode_cases (m : Manager) (name : CString) :
    ((∃ n ∈ m.nodes, n.nodeName = name) ∧ (registerNode m name).2 = m) ∨
      ((∀ n ∈ m.nodes, n.nodeName ≠ name) ∧
        (registerNode m name).2 = { m with nodes := m.nodes ++ [newNode m name] }) := by
  unfold registerNode
  split
  · rename_i n hn
    exact .inl ⟨⟨n, List.mem_of_find?_eq_some hn, by simpa using List.find?_some hn⟩, rfl⟩
  · rename_i hn
    exact .inr ⟨fun n hmem => by simpa using List.find?_eq_none.mp hn n hmem, rfl⟩

/-- Leaving drops the first node of the name, if there is one. -/
theorem unregisterNode_nodes (m : Manager) (name : CString) :
    (unregisterNode m name).2 = { m with nodes := m.nodes.eraseP fun n => n.nodeName = name } := by
  unfold unregisterNode
  split
  · rfl
  · rename_i hany
    rw [List.eraseP_of_forall_not]
    intro n hn hname
    exact hany (List.any_eq_true.mpr ⟨n, hn, hname⟩)

/-- A pod allocation fails and leaves the manager alone, or enters the address the scan of the node's
block found in the node's list and in the pool. -/
theorem allocatePodIp_cases (m : Manager) (name : CString) :
    allocatePodIp m name = (none, m) ∨
      ∃ node ip, (m.nodes.find? fun n => n.nodeName = name) = some node ∧
        getNextAvailableIp m node.nodeCidrStart node.nodeCidrEnd = some ip ∧
        allocatePodIp m name = (some (inetNtop ip),
          { m with nodes := assign ip name m.nodes, podIps := m.podIps ++ [ip] }) := by
  cases hfind : m.nodes.find? fun n => n.nodeName = name with
  | none => exact .inl (by simp only [allocatePodIp, hfind])
  | some node =>
    cases hnext : getNextAvailableIp m node.nodeCidrStart node.nodeCidrEnd with
    | none => exact .inl (by simp only [allocatePodIp, hfind, hnext])
    | some ip => exact .inr ⟨node, ip, rfl, hnext, by simp only [allocatePodIp, hfind, hnext]⟩

/-- A service allocation fails and leaves the manager alone, or enters the address the scan found in
its pool. -/
theorem allocateServiceIp_cases (m : Manager) :
    allocateServiceIp m = (none, m) ∨
      ∃ ip, getNextAvailableIp m m.serviceStart m.serviceEnd = some ip ∧
        allocateServiceIp m = (some (inetNtop ip), { m with serviceIps := m.serviceIps ++ [ip] }) := by
  cases hnext : getNextAvailableIp m m.serviceStart m.serviceEnd with
  | none => exact .inl (by simp only [allocateServiceIp, hnext])
  | some ip => exact .inr ⟨ip, rfl, by simp only [allocateServiceIp, hnext]⟩

/-- The ranges are fixed when the manager is created. -/
theorem step_ranges (m : Manager) (op : Op) :
    (step m op).clusterStart = m.clusterStart ∧ (step m op).serviceStart = m.serviceStart := by
  cases op with
  | registerNode name =>
    rcases registerNode_cases m name with ⟨-, hm⟩ | ⟨-, hm⟩ <;> rw [step, hm] <;> exact ⟨rfl, rfl⟩
  | unregisterNode name =>
    rw [step, unregisterNode_nodes]
    exact ⟨rfl, rfl⟩
  | allocatePodIp name =>
    rcases allocatePodIp_cases m name with hm | ⟨_, _, _, _, hm⟩ <;> rw [step, hm] <;> exact ⟨rfl, rfl⟩
  | releasePodIp ip => exact ⟨rfl, rfl⟩
  | allocateServiceIp =>
    rcases allocateServiceIp_cases m with hm | ⟨_, _, hm⟩ <;> rw [step, hm] <;> exact ⟨rfl, rfl⟩
  | releaseServiceIp ip => exact ⟨rfl, rfl⟩

/-! ## What the scan finds -/

/-- The scan's answer is the first address, counted from where it starts, that is not in `pod_ips`. -/
theorem scan_some {podIps : List UInt32} {last w : UInt32} : ∀ {fuel : Nat} {ip : UInt32},
    scan podIps last fuel ip = some w → ∃ k : Nat, w = htonl (ip + .ofNat k) ∧
      ip + .ofNat k ≤ last ∧ w ∉ podIps ∧
      ∀ j < k, ip + .ofNat j ≤ last ∧ htonl (ip + .ofNat j) ∈ podIps
  | 0, _, h => by simp [scan] at h
  | fuel + 1, ip, h => by
    simp only [scan] at h
    split at h
    · rename_i hle
      split at h
      · rename_i hmem
        obtain ⟨k, rfl, hk, hw, hj⟩ := scan_some h
        have hnext : ∀ j : Nat, ip + 1 + .ofNat j = ip + .ofNat (j + 1) := by
          intro j
          rw [UInt32.ofNat_add, UInt32.add_assoc, UInt32.add_comm 1]
          rfl
        rw [hnext] at hk hw
        refine ⟨k + 1, by rw [hnext], hk, by rw [hnext]; exact hw, fun j hjk => ?_⟩
        cases j with
        | zero => simpa using ⟨hle, hmem⟩
        | succ j => simpa only [hnext] using hj j (by omega)
      · rename_i hmem
        obtain rfl := Option.some.inj h
        exact ⟨0, by simp, by simpa using hle, hmem, fun j hj => absurd hj (by omega)⟩
    · simp at h

theorem addr_htonl_add {ip : UInt32} {k : Nat} (h : ip.toNat + k < 2 ^ 32) :
    addr (htonl (ip + .ofNat k)) = ip.toNat + k := by
  rw [addr_htonl, UInt32.toNat_add, UInt32.toNat_ofNat', Nat.add_mod_mod, Nat.mod_eq_of_lt h]

/-- The addresses below one the scan passed over are in `pod_ips`. -/
theorem mem_of_passed {podIps : List UInt32} {ip : UInt32} {k : Nat} (hk : ip.toNat + k < 2 ^ 32)
    (h : ∀ j < k, htonl (ip + .ofNat j) ∈ podIps) {x : Nat} (hx : ip.toNat ≤ x)
    (hxk : x < ip.toNat + k) : x ∈ podIps.map addr := by
  refine List.mem_map.mpr ⟨_, h (x - ip.toNat) (by omega), ?_⟩
  rw [addr_htonl_add (by omega)]
  omega

/-- **The scan returns the lowest free address**, when its range does not end at `255.255.255.255`. -/
theorem scan_spec {podIps : List UInt32} {last w ip : UInt32} {fuel : Nat}
    (h : scan podIps last fuel ip = some w) (hlast : last.toNat + 1 < 2 ^ 32) :
    w ∉ podIps ∧ ip.toNat ≤ addr w ∧ addr w ≤ last.toNat ∧
      ∀ x, ip.toNat ≤ x → x < addr w → x ∈ podIps.map addr := by
  obtain ⟨k, rfl, hk, hw, hpassed⟩ := scan_some h
  have hip := ip.toNat_lt
  -- the count does not wrap: the turn at 255.255.255.255 would be past the end
  have hno : ip.toNat + k < 2 ^ 32 := by
    by_contra hge
    have htop := (hpassed (2 ^ 32 - 1 - ip.toNat) (by omega)).1
    rw [UInt32.le_iff_toNat_le, ← addr_htonl, addr_htonl_add (by omega)] at htop
    omega
  have ha := addr_htonl_add hno
  rw [UInt32.le_iff_toNat_le, ← addr_htonl, ha] at hk
  refine ⟨hw, by omega, by omega, fun x hx hxw => ?_⟩
  exact mem_of_passed hno (fun j hj => (hpassed j hj).2) hx (by omega)

/-- The scan stops at the first free address, wherever its range ends. -/
theorem scan_eq_of_lowest {podIps : List UInt32} {last w ip : UInt32} {fuel a : Nat}
    (h : scan podIps last fuel ip = some w) (hip : ip.toNat ≤ a) (ha : a < 2 ^ 32)
    (hfree : a ∉ podIps.map addr) (hlow : ∀ x, ip.toNat ≤ x → x < a → x ∈ podIps.map addr) :
    addr w = a ∧ w ∉ podIps := by
  obtain ⟨k, rfl, -, hw, hpassed⟩ := scan_some h
  have hka : ip.toNat + k ≤ a := by
    by_contra hlt
    refine hfree (List.mem_map.mpr ⟨_, (hpassed (a - ip.toNat) (by omega)).2, ?_⟩)
    rw [addr_htonl_add (by omega)]
    omega
  have haddr := @addr_htonl_add ip k (by omega)
  refine ⟨?_, hw⟩
  by_contra hne
  obtain ⟨v, hv, hva⟩ := List.mem_map.mp (hlow _ (by omega) (by omega : ip.toNat + k < a))
  rw [← haddr, addr_inj] at hva
  exact hw (hva ▸ hv)

/-! ## The turns of the scan -/

/-- Once a turn stops the loop, further turns change nothing. -/
theorem scan_mono {podIps : List UInt32} {last : UInt32} : ∀ {fuel fuel' k : Nat} {ip : UInt32},
    k < fuel → htonl (ip + .ofNat k) ∉ podIps → fuel ≤ fuel' →
    scan podIps last fuel' ip = scan podIps last fuel ip
  | fuel + 1, fuel' + 1, k, ip, hk, hstop, hle => by
    simp only [scan]
    split
    · split
      · rename_i hmem
        cases k with
        | zero => exact absurd hmem (by simpa using hstop)
        | succ k =>
          have hnext : ip + .ofNat (k + 1) = ip + 1 + .ofNat k := by
            rw [UInt32.ofNat_add, UInt32.add_comm (.ofNat k), ← UInt32.add_assoc]
            rfl
          exact scan_mono (by omega) (hnext ▸ hstop) (by omega)
      · rfl
    · rfl
  | _, 0, _, _, hk, _, hle => absurd hle (by omega)
  | 0, _, _, _, hk, _, _ => absurd hk (by omega)

/-- Among as many consecutive addresses as the pool has entries, and one more, one is free. -/
theorem exists_free {podIps : List UInt32} (hlen : podIps.length < 2 ^ 32) (ip : UInt32) :
    ∃ k < podIps.length + 1, htonl (ip + .ofNat k) ∉ podIps := by
  by_contra hall
  have hmem : ∀ k < podIps.length + 1, htonl (ip + .ofNat k) ∈ podIps := by
    intro k hk
    by_contra hno
    exact hall ⟨k, hk, hno⟩
  have hnd : ((List.range (podIps.length + 1)).map fun k => htonl (ip + .ofNat k)).Nodup := by
    refine List.Nodup.map_on (fun i hi j hj hij => ?_) List.nodup_range
    rw [List.mem_range] at hi hj
    have := congrArg UInt32.toNat (UInt32.add_right_inj ip |>.mp (htonl_inj.mp hij))
    rw [UInt32.toNat_ofNat', UInt32.toNat_ofNat', Nat.mod_eq_of_lt (by omega),
      Nat.mod_eq_of_lt (by omega)] at this
    exact this
  have hsub : ((List.range (podIps.length + 1)).map fun k => htonl (ip + .ofNat k)) ⊆ podIps := by
    intro w hw
    obtain ⟨k, hk, rfl⟩ := List.mem_map.mp hw
    exact hmem k (List.mem_range.mp hk)
  have hle := (hnd.subperm hsub).length_le
  rw [List.length_map, List.length_range] at hle
  omega

theorem turns_eq (podIps : List UInt32) : turns podIps = podIps.length + 1 := by
  induction podIps with
  | nil => rfl
  | cons w ws ih =>
    change turns ws + 1 = _
    rw [ih, List.length_cons]

/-- **The turns suffice**: the scan's answer is that of the unbounded loop. -/
theorem scan_fuel {podIps : List UInt32} (hlen : podIps.length < 2 ^ 32) {fuel : Nat}
    (hfuel : turns podIps ≤ fuel) (last ip : UInt32) :
    scan podIps last fuel ip = scan podIps last (turns podIps) ip := by
  obtain ⟨k, hk, hfree⟩ := exists_free hlen ip
  exact scan_mono (turns_eq podIps ▸ hk) hfree hfuel

end Sirah.Ipam
