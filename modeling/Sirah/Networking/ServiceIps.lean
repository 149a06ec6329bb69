import Mathlib.Data.List.Perm.Subperm
import Sirah.Lib.Inet
import Sirah.Lib.Run
import Sirah.Lib.SplitFirst

/-!
# The service IP table of the network controller

Model of the allocation of service addresses in `internal/controller/network_controller.c`: a table of at most 1000 slots.
A slot keeps the names of the service, the address and whether it is in use; a release only marks it.

* The strings are kept in fields of 256 bytes (`strncpy`); `Fits` are the calls whose names are kept whole.
* `System` has, beside the table, the addresses that the services hold: what the last successful allocation or release said.
* `Refines`: a look-up gives the address that is held, and no address is held twice. `FailsWhenFull`: an allocation fails
  only while as many services hold an address as the table has slots.
* **`serviceIps_refine_iff`**: both hold along a run **iff** no allocation is for a service whose slot was released, and none
  for a new service finds the table full with a released slot in it.
* `released_not_found`: an address that is allocated again after its release is not found.
-/

namespace Sirah.NetworkController

open Runs

/-! ## Addresses -/

/-- The last line of `network_ip_string_to_uint32`. -/
def ofParts (a b c d : UInt32) : UInt32 := a <<< 24 ||| b <<< 16 ||| c <<< 8 ||| d

/-- `network_uint32_to_ip_string`. -/
def uint32ToIpString (ip : UInt32) : CString :=
  CString.ofNat ((ip >>> 24) &&& 0xFF).toNat ++ "." ++ CString.ofNat ((ip >>> 16) &&& 0xFF).toNat ++ "." ++
    CString.ofNat ((ip >>> 8) &&& 0xFF).toNat ++ "." ++ CString.ofNat (ip &&& 0xFF).toNat

/-- `service_ip_start`: `network_ip_string_to_uint32("10.96.0.1")`. -/
def serviceIpStart : UInt32 := ofParts 10 96 0 1

/-- `service_ip_end`: `network_ip_string_to_uint32("10.111.255.255")`. -/
def serviceIpEnd : UInt32 := ofParts 10 111 255 255

theorem toNat_byte (ip : UInt32) (k : UInt32) (hk : k.toNat < 32) :
    ((ip >>> k) &&& 0xFF).toNat = ip.toNat / 2 ^ k.toNat % 256 := by
  rw [UInt32.toNat_and, UInt32.toNat_shiftRight, Nat.mod_eq_of_lt hk, Nat.shiftRight_eq_div_pow]
  exact Nat.and_two_pow_sub_one_eq_mod _ 8

/-- **The dotted text** is that of `inet_ntop`. -/
theorem uint32ToIpString_eq (ip : UInt32) : uint32ToIpString ip = Inet.inetNtop (Inet.htonl ip) := by
  obtain ⟨h0, h1, h2, h3⟩ := Inet.octet_ofOctets (Inet.octet_lt ip 3) (Inet.octet_lt ip 2) (Inet.octet_lt ip 1)
    (Inet.octet_lt ip 0)
  have hlast : (ip &&& 0xFF).toNat = ip.toNat / 2 ^ (8 * 0) % 256 := by
    rw [UInt32.toNat_and, Nat.mul_zero, Nat.pow_zero, Nat.div_one]
    exact Nat.and_two_pow_sub_one_eq_mod _ 8
  rw [Inet.inetNtop, Inet.htonl, Inet.ntohl, h0, h1, h2, h3, uint32ToIpString, toNat_byte ip 24 (by decide),
    toNat_byte ip 16 (by decide), toNat_byte ip 8 (by decide), hlast]
  rfl

theorem uint32ToIpString_inj {x y : UInt32} : uint32ToIpString x = uint32ToIpString y ↔ x = y := by
  refine ⟨fun h => ?_, fun h => h ▸ rfl⟩
  rw [uint32ToIpString_eq, uint32ToIpString_eq] at h
  have hread := congrArg Inet.inetPton h
  rw [Inet.inetPton_inetNtop, Inet.inetPton_inetNtop, Option.some_inj] at hread
  exact Inet.htonl_inj.mp hread

/-! ## Data -/

/-- `service_ip_t`: a slot of the table. -/
structure ServiceIp where
  serviceName : CString
  ns : CString
  clusterIp : UInt32
  clusterIpStr : CString
  inUse : Bool
  deriving DecidableEq

/-- What a service is looked up by. -/
def ServiceIp.key (r : ServiceIp) : CString × CString := (r.serviceName, r.ns)

/-- The table of the `network_controller_t`, and the counter that the next address is taken from. -/
structure IpTable where
  allocatedIps : List ServiceIp
  nextAllocatedIp : UInt32
  deriving DecidableEq

/-- `max_allocated_ips`. -/
def maxAllocatedIps : Nat := 1000

/-- `network_controller_new`. -/
def IpTable.new : IpTable := ⟨[], 0⟩

namespace IpTable

variable (t : IpTable)

/-! ## Calls -/

/-- `network_allocate_service_ip`, with the address that it returns. -/
def allocateServiceIp (serviceName ns : CString) : IpTable × Option CString :=
  match t.allocatedIps.find? fun r => r.serviceName = serviceName ∧ r.ns = ns with
  | some r => (t, some r.clusterIpStr)
  | none =>
    if t.allocatedIps.length ≥ maxAllocatedIps then (t, none)
    else
      let ipRangeSize := serviceIpEnd - serviceIpStart
      let offset := t.nextAllocatedIp % ipRangeSize
      let newIp := serviceIpStart + offset
      -- `strncpy` into fields of 256 bytes, which are zero
      let alloc : ServiceIp := ⟨serviceName.take 255, ns.take 255, newIp, uint32ToIpString newIp, true⟩
      (⟨t.allocatedIps ++ [alloc], (t.nextAllocatedIp + 1) % ipRangeSize⟩, some alloc.clusterIpStr)

/-- `network_release_service_ip`: the slot is marked as unused, and stays. -/
def releaseServiceIp (serviceName ns : CString) : IpTable × Int :=
  match t.allocatedIps.splitFirst fun r => r.serviceName = serviceName ∧ r.ns = ns with
  | none => (t, -1)
  | some (pre, r, post) => ({ t with allocatedIps := pre ++ { r with inUse := false } :: post }, 0)

/-- `network_get_service_ip`. -/
def getServiceIp (serviceName ns : CString) : Option CString :=
  (t.allocatedIps.find? fun r => r.inUse ∧ r.serviceName = serviceName ∧ r.ns = ns).map ServiceIp.clusterIpStr

end IpTable

/-! ## Runs -/

/-- A call, by the names it is made with. -/
inductive Op where
  | allocate (serviceName ns : CString)
  | release (serviceName ns : CString)
  | get (serviceName ns : CString)
  deriving DecidableEq

def Op.names : Op → CString × CString
  | .allocate serviceName ns => (serviceName, ns)
  | .release serviceName ns => (serviceName, ns)
  | .get serviceName ns => (serviceName, ns)

/-- The names fit their fields. -/
def Op.Fits (op : Op) : Prop := op.names.1.length ≤ 255 ∧ op.names.2.length ≤ 255

instance : DecidablePred Op.Fits := fun _ => inferInstanceAs (Decidable (_ ∧ _))

/-- The table, and the abstract map: the address that a service holds, as the successful calls say. -/
structure System where
  table : IpTable
  held : CString × CString → Option CString

def System.new : System := ⟨.new, fun _ => none⟩

/-- A successful allocation gives the service the address that it returns, a successful release takes it away. -/
def System.step (s : System) : Op → System
  | .allocate serviceName ns =>
    match s.table.allocateServiceIp serviceName ns with
    | (table, some ip) => ⟨table, Function.update s.held (serviceName, ns) (some ip)⟩
    | (table, none) => ⟨table, s.held⟩
  | .release serviceName ns =>
    match s.table.releaseServiceIp serviceName ns with
    | (table, 0) => ⟨table, Function.update s.held (serviceName, ns) none⟩
    | (table, _) => ⟨table, s.held⟩
  | .get _ _ => s

/-- **The table refines the map.** -/
structure System.Refines (s : System) : Prop where
  found : ∀ serviceName ns, s.table.getServiceIp serviceName ns = s.held (serviceName, ns)
  distinct : ∀ k k' ip, s.held k = some ip → s.held k' = some ip → k = k'

/-- **An allocation fails** only while `max_allocated_ips` services hold an address. -/
def System.FailsWhenFull (s : System) : Op → Prop
  | .allocate serviceName ns => (s.table.allocateServiceIp serviceName ns).2 = none →
      ∃ keys : List (CString × CString), keys.Nodup ∧ keys.length = maxAllocatedIps ∧ ∀ k ∈ keys, (s.held k).isSome
  | .release _ _ => True
  | .get _ _ => True

/-- The condition on a call. -/
def System.Keeps (s : System) : Op → Prop
  | .allocate serviceName ns =>
    (∀ r ∈ s.table.allocatedIps, r.key = (serviceName, ns) → r.inUse = true) ∧
      ((serviceName, ns) ∉ s.table.allocatedIps.map ServiceIp.key →
        s.table.allocatedIps.length < maxAllocatedIps ∨ ∀ r ∈ s.table.allocatedIps, r.inUse = true)
  | .release _ _ => True
  | .get _ _ => True

/-! ## The invariant -/

/-- The address of slot `i`. -/
def address (i : Nat) : CString := uint32ToIpString (serviceIpStart + .ofNat i)

/-- What the calls keep, beside the refinement: the slots are filled in order. -/
structure System.Inv (s : System) : Prop where
  room : s.table.allocatedIps.length ≤ maxAllocatedIps
  next : s.table.nextAllocatedIp = .ofNat s.table.allocatedIps.length
  keys : (s.table.allocatedIps.map ServiceIp.key).Nodup
  addresses : s.table.allocatedIps.map ServiceIp.clusterIpStr = (List.range s.table.allocatedIps.length).map address
  held : ∀ k ip, s.held k = some ip ↔
    ∃ r ∈ s.table.allocatedIps, r.key = k ∧ r.inUse = true ∧ r.clusterIpStr = ip

theorem ServiceIp.key_eq_iff {r : ServiceIp} {serviceName ns : CString} :
    r.key = (serviceName, ns) ↔ r.serviceName = serviceName ∧ r.ns = ns := Prod.ext_iff

theorem address_inj {i j : Nat} (hi : i < 2 ^ 32) (hj : j < 2 ^ 32) (h : address i = address j) : i = j := by
  have hsum := congrArg UInt32.toNat (uint32ToIpString_inj.mp h)
  rw [UInt32.toNat_add, UInt32.toNat_add, UInt32.toNat_ofNat', UInt32.toNat_ofNat'] at hsum
  omega

/-- The addresses of at most 1000 slots are distinct. -/
theorem nodup_addresses {n : Nat} (hn : n ≤ maxAllocatedIps) : ((List.range n).map address).Nodup := by
  refine List.Nodup.map_on (fun i hi j hj h => ?_) List.nodup_range
  have hn : n ≤ 1000 := hn
  have hi := List.mem_range.mp hi
  have hj := List.mem_range.mp hj
  exact address_inj (by omega) (by omega) h

/-- The counter stays far below the size of the range. -/
theorem next_eq {n : Nat} (hn : n < maxAllocatedIps) :
    UInt32.ofNat n % (serviceIpEnd - serviceIpStart) = .ofNat n ∧
      (UInt32.ofNat n + 1) % (serviceIpEnd - serviceIpStart) = .ofNat (n + 1) := by
  have hn : n < 1000 := hn
  have hsize : (serviceIpEnd - serviceIpStart).toNat = 1048574 := by decide
  constructor
  · rw [← UInt32.toNat_inj, UInt32.toNat_mod, hsize, UInt32.toNat_ofNat']
    omega
  · rw [← UInt32.toNat_inj, UInt32.toNat_mod, hsize, UInt32.toNat_add, UInt32.toNat_ofNat', UInt32.toNat_ofNat',
      UInt32.toNat_one]
    omega

variable {s : System}

/-- Two slots of one service are one slot. -/
theorem System.Inv.eq_of_key (hinv : s.Inv) {r r' : ServiceIp} (hr : r ∈ s.table.allocatedIps)
    (hr' : r' ∈ s.table.allocatedIps) (h : r.key = r'.key) : r = r' :=
  List.inj_on_of_nodup_map hinv.keys hr hr' h

/-- **Under the invariant the table refines the map.** -/
theorem System.Inv.refines (hinv : s.Inv) : s.Refines := by
  constructor
  · intro serviceName ns
    have hget : ∀ ip, s.table.getServiceIp serviceName ns = some ip ↔ s.held (serviceName, ns) = some ip := by
      intro ip
      rw [hinv.held, IpTable.getServiceIp, Option.map_eq_some_iff]
      constructor
      · rintro ⟨r, hfind, rfl⟩
        have hr := List.find?_some hfind
        rw [decide_eq_true_iff] at hr
        exact ⟨r, List.mem_of_find?_eq_some hfind, ServiceIp.key_eq_iff.mpr hr.2, hr.1, rfl⟩
      · rintro ⟨r, hr, hkey, huse, rfl⟩
        refine ⟨r, List.find?_eq_some_of_unique hr ?_ fun y hy hfound => ?_, rfl⟩
        · exact decide_eq_true ⟨huse, ServiceIp.key_eq_iff.mp hkey⟩
        · have hfound := of_decide_eq_true hfound
          exact hinv.eq_of_key hy hr ((ServiceIp.key_eq_iff.mpr hfound.2).trans hkey.symm)
    exact Option.ext hget
  · intro k k' ip hk hk'
    obtain ⟨r, hr, rfl, -, hip⟩ := (hinv.held k ip).mp hk
    obtain ⟨r', hr', rfl, -, hip'⟩ := (hinv.held k' ip).mp hk'
    have hnodup : (s.table.allocatedIps.map ServiceIp.clusterIpStr).Nodup := by
      rw [hinv.addresses]
      exact nodup_addresses hinv.room
    rw [List.inj_on_of_nodup_map hnodup hr hr' (hip.trans hip'.symm)]

/-! ## One call -/

/-- **An allocation** returns the address of the slot of the service, fails, or fills the next slot. -/
theorem System.Inv.allocate_cases (hinv : s.Inv) {serviceName ns : CString} (hfits : (Op.allocate serviceName ns).Fits) :
    (∃ r ∈ s.table.allocatedIps, r.key = (serviceName, ns) ∧
      s.table.allocateServiceIp serviceName ns = (s.table, some r.clusterIpStr)) ∨
    (serviceName, ns) ∉ s.table.allocatedIps.map ServiceIp.key ∧
      (maxAllocatedIps ≤ s.table.allocatedIps.length ∧
        s.table.allocateServiceIp serviceName ns = (s.table, none) ∨
      s.table.allocatedIps.length < maxAllocatedIps ∧ ∃ clusterIp,
        s.table.allocateServiceIp serviceName ns =
          (⟨s.table.allocatedIps ++
              [⟨serviceName, ns, clusterIp, address s.table.allocatedIps.length, true⟩],
            .ofNat (s.table.allocatedIps.length + 1)⟩, some (address s.table.allocatedIps.length))) := by
  obtain ⟨hname, hns⟩ : serviceName.length ≤ 255 ∧ ns.length ≤ 255 := hfits
  unfold IpTable.allocateServiceIp
  cases hfind : s.table.allocatedIps.find? fun r => r.serviceName = serviceName ∧ r.ns = ns with
  | some r =>
    have hr := List.find?_some hfind
    rw [decide_eq_true_iff] at hr
    exact .inl ⟨r, List.mem_of_find?_eq_some hfind, ServiceIp.key_eq_iff.mpr hr, rfl⟩
  | none =>
    have hnew : (serviceName, ns) ∉ s.table.allocatedIps.map ServiceIp.key := by
      intro hmem
      obtain ⟨r, hr, hkey⟩ := List.mem_map.mp hmem
      exact List.find?_eq_none.mp hfind r hr (decide_eq_true (ServiceIp.key_eq_iff.mp hkey))
    refine .inr ⟨hnew, ?_⟩
    by_cases hfull : maxAllocatedIps ≤ s.table.allocatedIps.length
    · exact .inl ⟨hfull, if_pos hfull⟩
    · have hroom := Nat.lt_of_not_le hfull
      obtain ⟨hoffset, hnext⟩ := next_eq hroom
      refine .inr ⟨hroom, serviceIpStart + .ofNat s.table.allocatedIps.length, ?_⟩
      dsimp only
      rw [if_neg hfull, hinv.next, hoffset, hnext, List.take_of_length_le hname, List.take_of_length_le hns]
      rfl

/-- **A release** marks the slot of the service, if there is one. -/
theorem IpTable.release_cases (t : IpTable) (serviceName ns : CString) :
    (t.releaseServiceIp serviceName ns = (t, -1) ∧ (serviceName, ns) ∉ t.allocatedIps.map ServiceIp.key) ∨
    ∃ pre r post, t.allocatedIps = pre ++ r :: post ∧ r.key = (serviceName, ns) ∧
      t.releaseServiceIp serviceName ns = ({ t with allocatedIps := pre ++ { r with inUse := false } :: post }, 0) := by
  unfold releaseServiceIp
  obtain ⟨hfirst, hnone⟩ | ⟨pre, r, post, hfirst, hslots, hkey⟩ :=
    List.splitFirst_cases (fun r : ServiceIp => r.serviceName = serviceName ∧ r.ns = ns) t.allocatedIps
  · rw [hfirst]
    refine .inl ⟨rfl, fun hmem => ?_⟩
    obtain ⟨r, hr, hkey⟩ := List.mem_map.mp hmem
    exact of_decide_eq_false (hnone r hr) (ServiceIp.key_eq_iff.mp hkey)
  · rw [hfirst]
    exact .inr ⟨pre, r, post, hslots, ServiceIp.key_eq_iff.mpr (of_decide_eq_true hkey), rfl⟩

/-- A new slot: the service holds its address. -/
theorem System.Inv.fill (hinv : s.Inv) {serviceName ns : CString} {clusterIp : UInt32}
    (hnew : (serviceName, ns) ∉ s.table.allocatedIps.map ServiceIp.key)
    (hroom : s.table.allocatedIps.length < maxAllocatedIps) :
    System.Inv ⟨⟨s.table.allocatedIps ++
        [⟨serviceName, ns, clusterIp, address s.table.allocatedIps.length, true⟩],
      .ofNat (s.table.allocatedIps.length + 1)⟩,
      Function.update s.held (serviceName, ns) (some (address s.table.allocatedIps.length))⟩ := by
  refine ⟨?_, ?_, ?_, ?_, fun k ip => ?_⟩
  · rw [List.length_append]
    exact hroom
  · rw [List.length_append]
    rfl
  · exact List.nodup_map_concat.mpr ⟨hnew, hinv.keys⟩
  · rw [List.map_append, List.length_append, List.length_singleton, List.range_succ, List.map_append, hinv.addresses]
    rfl
  · by_cases hk : k = (serviceName, ns)
    · subst hk
      dsimp only
      rw [Function.update_self, Option.some_inj]
      constructor
      · rintro rfl
        exact ⟨_, List.mem_append_right _ List.mem_cons_self, rfl, rfl, rfl⟩
      · rintro ⟨r, hr, hkey, -, rfl⟩
        rcases List.mem_append.mp hr with hr | hr
        · exact absurd (hkey ▸ List.mem_map_of_mem hr) hnew
        · rw [List.mem_singleton.mp hr]
    · dsimp only
      rw [Function.update_of_ne hk, hinv.held]
      constructor
      · rintro ⟨r, hr, h⟩
        exact ⟨r, List.mem_append_left _ hr, h⟩
      · rintro ⟨r, hr, hkey, h⟩
        rcases List.mem_append.mp hr with hr | hr
        · exact ⟨r, hr, hkey, h⟩
        · rw [List.mem_singleton.mp hr] at hkey
          exact absurd hkey.symm hk

/-- A marked slot: the service holds no address any more. -/
theorem System.Inv.mark (hinv : s.Inv) {pre post : List ServiceIp} {r : ServiceIp}
    (hslots : s.table.allocatedIps = pre ++ r :: post) :
    System.Inv ⟨{ s.table with allocatedIps := pre ++ { r with inUse := false } :: post },
      Function.update s.held r.key none⟩ := by
  obtain ⟨hroom, hnext, hkeys, haddresses, hheld⟩ := hinv
  rw [hslots] at hroom hnext hkeys haddresses
  have hkeys' : ((pre ++ { r with inUse := false } :: post).map ServiceIp.key).Nodup := by
    rw [List.map_append, List.map_cons] at hkeys ⊢
    exact hkeys
  refine ⟨by simpa using hroom, by simpa using hnext, hkeys', by simpa using haddresses, fun k ip => ?_⟩
  have hbeside : ∀ r' ∈ pre ++ post, r'.key ≠ r.key := fun r' => List.key_ne_of_nodup hkeys
  by_cases hk : k = r.key
  · subst hk
    dsimp only
    rw [Function.update_self]
    refine iff_of_false nofun ?_
    rintro ⟨r', hr', hkey, huse, -⟩
    rcases List.mem_append_cons_iff.mp hr' with rfl | hr'
    · cases huse
    · exact hbeside r' hr' hkey
  · dsimp only
    rw [Function.update_of_ne hk, hheld, hslots]
    constructor
    · rintro ⟨r', hr', hkey, h⟩
      rcases List.mem_append_cons_iff.mp hr' with rfl | hr'
      · exact absurd hkey.symm hk
      · exact ⟨r', List.mem_append_cons_iff.mpr (.inr hr'), hkey, h⟩
    · rintro ⟨r', hr', hkey, h⟩
      rcases List.mem_append_cons_iff.mp hr' with rfl | hr'
      · exact absurd hkey.symm hk
      · exact ⟨r', List.mem_append_cons_iff.mpr (.inr hr'), hkey, h⟩

/-- **The services that hold an address** are those of the slots in use: all 1000 slots are, if so many do. -/
theorem System.Inv.full_iff (hinv : s.Inv) :
    (∃ keys : List (CString × CString), keys.Nodup ∧ keys.length = maxAllocatedIps ∧ ∀ k ∈ keys, (s.held k).isSome) ↔
      s.table.allocatedIps.length = maxAllocatedIps ∧ ∀ r ∈ s.table.allocatedIps, r.inUse = true := by
  constructor
  · rintro ⟨keys, hnodup, hlength, hkeys⟩
    have hsubset : keys ⊆ (s.table.allocatedIps.filter ServiceIp.inUse).map ServiceIp.key := by
      intro k hk
      obtain ⟨ip, hip⟩ := Option.isSome_iff_exists.mp (hkeys k hk)
      obtain ⟨r, hr, hkey, huse, -⟩ := (hinv.held k ip).mp hip
      exact List.mem_map.mpr ⟨r, List.mem_filter.mpr ⟨hr, huse⟩, hkey⟩
    have hle := (hnodup.subperm hsubset).length_le
    have hfilter := List.length_filter_le ServiceIp.inUse s.table.allocatedIps
    have hroom := hinv.room
    rw [List.length_map] at hle
    refine ⟨by omega, List.length_filter_eq_length_iff.mp (by omega)⟩
  · rintro ⟨hlength, huse⟩
    refine ⟨s.table.allocatedIps.map ServiceIp.key, hinv.keys, by rw [List.length_map, hlength], fun k hk => ?_⟩
    obtain ⟨r, hr, rfl⟩ := List.mem_map.mp hk
    rw [(hinv.held r.key r.clusterIpStr).mpr ⟨r, hr, rfl, huse r hr, rfl⟩]
    rfl

/-! ## Exactness -/

theorem System.new_inv : System.new.Inv := by
  refine ⟨Nat.zero_le _, rfl, List.nodup_nil, rfl, fun k ip => iff_of_false nofun ?_⟩
  rintro ⟨r, hr, -⟩
  exact absurd hr List.not_mem_nil

/-- **An allocation, exactly.** -/
theorem System.Inv.allocate (hinv : s.Inv) {serviceName ns : CString} (hfits : (Op.allocate serviceName ns).Fits) :
    (s.Keeps (.allocate serviceName ns) → (s.step (.allocate serviceName ns)).Inv) ∧
      ((s.step (.allocate serviceName ns)).Refines ∧ s.FailsWhenFull (.allocate serviceName ns) ↔
        s.Keeps (.allocate serviceName ns)) := by
  rcases hinv.allocate_cases hfits with ⟨r, hr, hkey, heq⟩ | ⟨hnew, ⟨hfull, heq⟩ | ⟨hroom, ip, heq⟩⟩
  · -- the slot of the service is found, in use or not
    have hmem : (serviceName, ns) ∈ s.table.allocatedIps.map ServiceIp.key := List.mem_map.mpr ⟨r, hr, hkey⟩
    have hstep : s.step (.allocate serviceName ns) =
        ⟨s.table, Function.update s.held (serviceName, ns) (some r.clusterIpStr)⟩ := by
      rw [step, heq]
    have hsame : s.Keeps (.allocate serviceName ns) → s.step (.allocate serviceName ns) = s := by
      intro hkeeps
      have hheld := (hinv.held (serviceName, ns) r.clusterIpStr).mpr ⟨r, hr, hkey, hkeeps.1 r hr hkey, rfl⟩
      rw [hstep, ← hheld, Function.update_eq_self]
    refine ⟨fun hkeeps => (hsame hkeeps).symm ▸ hinv, fun ⟨hrefines, _⟩ => ?_, fun hkeeps => ⟨?_, ?_⟩⟩
    · have hfound := hrefines.found serviceName ns
      rw [hstep] at hfound
      dsimp only at hfound
      rw [hinv.refines.found, Function.update_self] at hfound
      obtain ⟨r', hr', hkey', huse, -⟩ := (hinv.held _ _).mp hfound
      refine ⟨fun r'' hr'' hkey'' => ?_, fun hnew => absurd hmem hnew⟩
      rw [hinv.eq_of_key hr'' hr' (hkey''.trans hkey'.symm)]
      exact huse
    · rw [hsame hkeeps]
      exact hinv.refines
    · intro hfail
      rw [heq] at hfail
      cases hfail
  · have hstep : s.step (.allocate serviceName ns) = s := by rw [step, heq]
    have hlength := Nat.le_antisymm hinv.room hfull
    have hnone : ∀ r ∈ s.table.allocatedIps, r.key = (serviceName, ns) → r.inUse = true := fun r hr hkey =>
      absurd (hkey ▸ List.mem_map_of_mem hr) hnew
    refine ⟨fun _ => hstep.symm ▸ hinv, fun ⟨_, hfails⟩ => ?_, fun hkeeps => ⟨?_, fun _ => ?_⟩⟩
    · exact ⟨hnone, fun _ => .inr (hinv.full_iff.mp (hfails (by rw [heq]))).2⟩
    · rw [hstep]
      exact hinv.refines
    · exact hinv.full_iff.mpr ⟨hlength, (hkeeps.2 hnew).resolve_left (Nat.not_lt.mpr hfull)⟩
  · have hstep : (s.step (.allocate serviceName ns)).Inv := by
      rw [step, heq]
      exact hinv.fill hnew hroom
    refine ⟨fun _ => hstep, iff_of_true ⟨hstep.refines, fun hfail => ?_⟩ ?_⟩
    · rw [heq] at hfail
      cases hfail
    · exact ⟨fun r hr hkey => absurd (hkey ▸ List.mem_map_of_mem hr) hnew, fun _ => .inl hroom⟩

/-- A release keeps the refinement, whatever it finds. -/
theorem System.Inv.release (hinv : s.Inv) (serviceName ns : CString) : (s.step (.release serviceName ns)).Inv := by
  rcases s.table.release_cases serviceName ns with ⟨heq, -⟩ | ⟨pre, r, post, hslots, hkey, heq⟩
  · rw [step, heq]
    exact hinv
  · rw [step, heq, ← hkey]
    exact hinv.mark hslots

/-- **One call, exactly.** -/
theorem System.Inv.step_iff (hinv : s.Inv) {op : Op} (hfits : op.Fits) :
    (s.Keeps op → (s.step op).Inv) ∧ ((s.step op).Refines ∧ s.FailsWhenFull op ↔ s.Keeps op) := by
  cases op with
  | allocate serviceName ns => exact hinv.allocate hfits
  | release serviceName ns =>
    have hnext := hinv.release serviceName ns
    exact ⟨fun _ => hnext, iff_of_true ⟨hnext.refines, trivial⟩ trivial⟩
  | get serviceName ns => exact ⟨fun _ => hinv, iff_of_true ⟨hinv.refines, trivial⟩ trivial⟩

/-- **The table refines the map, exactly** along the runs whose allocations all meet the condition. -/
theorem serviceIps_refine_iff {ops : List Op} (hfits : ∀ op ∈ ops, op.Fits) :
    AllStates System.step System.Refines .new ops ∧ AllSteps System.step System.FailsWhenFull .new ops ↔
      AllSteps System.step System.Keeps .new ops := by
  rw [allStates_iff_next System.new_inv.refines, ← allSteps_and]
  refine allSteps_iff_of_kept (I := System.Inv) ?_ ?_ System.new_inv (allSteps_of_mem hfits)
  · exact fun s op hinv hfits => (hinv.step_iff hfits).1
  · exact fun s op hinv hfits => (hinv.step_iff hfits).2

/-- An allocation, a release, a look-up and an allocation of another service. -/
theorem serviceIps_refine_iff_release : AllStates System.step System.Refines .new
      [.allocate "web" "a", .release "web" "a", .get "web" "a", .allocate "db" "a"] ∧
    AllSteps System.step System.FailsWhenFull .new
      [.allocate "web" "a", .release "web" "a", .get "web" "a", .allocate "db" "a"] := by
  refine (serviceIps_refine_iff ?_).mpr ⟨?_, trivial, trivial, ?_, trivial⟩
  · decide
  · exact ⟨by decide, fun _ => .inl (by decide)⟩
  · exact ⟨by decide, fun _ => .inl (by decide)⟩

/-- **A service that gets its address back** after the release is not found. -/
theorem released_not_found : ¬ ∀ ops : List Op, (∀ op ∈ ops, op.Fits) →
    AllStates System.step System.Refines .new ops ∧ AllSteps System.step System.FailsWhenFull .new ops := by
  intro h
  have hstates := (h [.allocate "web" "a", .release "web" "a", .allocate "web" "a"] (by decide)).1
  have hfound := hstates.run_mem.found "web" "a"
  exact absurd hfound (by decide)

end Sirah.NetworkController
