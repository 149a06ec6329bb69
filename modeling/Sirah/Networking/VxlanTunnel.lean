import Mathlib.Data.List.DropRight
import Sirah.Lib.Inet
import Sirah.Lib.Represents
import Sirah.Lib.Run
import Sirah.Lib.Streak

/-!
# The overlay tunnel and what it has heard of the other nodes

Model of `internal/network/vxlan/vxlan_tunnel.c`: the remote endpoints, one for each node, and the forwarding database,
one entry for each MAC address. The arrays grow when they are full; memory does not run out. A call is given the time at
which it is made.

* `signs n ops`: what the calls say of node `n`, in their order. `life n ops` is what they said since it was last removed,
  from the first announcement with an address on.
* `endpointOf`: an endpoint made of a life. Its address is that of the first announcement, its time that of the last one,
  it is healthy if the last sign is an announcement or a check within 120 seconds of one, and its failed checks are the
  latest ones in a row.
* **`tunnel_reflects`**: after every run of calls the table holds exactly the endpoints made of the lives of the nodes, and
  for each MAC address the last valid update.
-/

namespace Sirah.Vxlan

open Runs KeyedRecords Inet

/-! ## The tunnel -/

/-- `vxlan_endpoint_t`. -/
structure Endpoint where
  nodeName : CString
  vtepIp : UInt32
  vtepIpStr : CString
  vxlanPort : UInt16
  podCidr : CString
  vni : UInt32
  lastSeen : Int
  healthy : Bool
  failedChecks : Nat
  deriving DecidableEq

/-- A MAC address. -/
abbrev Mac := Vector UInt8 6

/-- `vxlan_fdb_entry_t`. -/
structure FdbEntry where
  macAddress : Mac
  vtepIp : UInt32
  lastUpdated : Int
  deriving DecidableEq

/-- `vxlan_tunnel_t`. -/
structure Tunnel where
  vni : UInt32
  localVtepIp : UInt32
  listenPort : UInt16
  mtu : Nat
  endpoints : List Endpoint
  fdb : List FdbEntry
  lastHealthCheck : Int

/-- `vxlan_tunnel_create`. -/
def create (vni : UInt32) (localVtepIp : CString) (listenPort : UInt16) : Option Tunnel :=
  (inetPton localVtepIp).map fun addr => ⟨vni, addr, listenPort, 1450, [], [], 0⟩

/-- The endpoint is heard of again. -/
def hear (now : Int) (e : Endpoint) : Endpoint := { e with healthy := true, lastSeen := now }

/-- The endpoint that `vxlan_tunnel_add_endpoint` fills in. -/
def newEndpoint (vni : UInt32) (port : UInt16) (now : Int) (nodeName vtepIp podCidr : CString) (addr : UInt32) : Endpoint :=
  ⟨nodeName, addr, vtepIp, port, podCidr, vni, now, true, 0⟩

/-- `vxlan_tunnel_add_endpoint`. -/
def addEndpoint (t : Tunnel) (now : Int) (nodeName vtepIp podCidr : CString) : Tunnel × Bool :=
  match t.endpoints.splitFirst fun e => decide (e.nodeName = nodeName) with
  | some (pre, e, post) => ({ t with endpoints := pre ++ hear now e :: post }, true)
  | none =>
    match inetPton vtepIp with
    | none => (t, false)
    | some addr =>
      ({ t with endpoints := t.endpoints ++ [newEndpoint t.vni t.listenPort now nodeName vtepIp podCidr addr] }, true)

/-- `vxlan_tunnel_remove_endpoint`. -/
def removeEndpoint (t : Tunnel) (nodeName : CString) : Tunnel × Bool :=
  match t.endpoints.splitFirst fun e => decide (e.nodeName = nodeName) with
  | some (pre, _, post) => ({ t with endpoints := pre ++ post }, true)
  | none => (t, false)

/-- `vxlan_tunnel_update_fdb`. -/
def updateFdb (t : Tunnel) (now : Int) (mac : Mac) (vtepIp : CString) : Tunnel × Bool :=
  match inetPton vtepIp with
  | none => (t, false)
  | some addr =>
    match t.fdb.splitFirst fun x => decide (x.macAddress = mac) with
    | some (pre, x, post) =>
      ({ t with fdb := pre ++ { x with vtepIp := addr, lastUpdated := now } :: post }, true)
    | none => ({ t with fdb := t.fdb ++ [⟨mac, addr, now⟩] }, true)

/-- What `vxlan_tunnel_health_check` does to an endpoint. -/
def check (now : Int) (e : Endpoint) : Endpoint :=
  if now - e.lastSeen > 120 then { e with healthy := false, failedChecks := (e.failedChecks + 1) % 2 ^ 32 }
  else { e with healthy := true, failedChecks := 0 }

/-- `vxlan_tunnel_health_check`. -/
def healthCheck (t : Tunnel) (now : Int) : Tunnel × Nat :=
  ({ t with endpoints := t.endpoints.map (check now), lastHealthCheck := now },
    t.endpoints.countP fun e => ¬ now - e.lastSeen > 120)

/-- `vxlan_tunnel_get_endpoint`. -/
def getEndpoint (t : Tunnel) (nodeName : CString) : Option Endpoint := lookup Endpoint.nodeName nodeName t.endpoints

/-- A call. -/
inductive Call where
  | addEndpoint (now : Int) (nodeName vtepIp podCidr : CString)
  | removeEndpoint (nodeName : CString)
  | updateFdb (now : Int) (mac : Mac) (vtepIp : CString)
  | healthCheck (now : Int)

def step (t : Tunnel) : Call → Tunnel
  | .addEndpoint now nodeName vtepIp podCidr => (addEndpoint t now nodeName vtepIp podCidr).1
  | .removeEndpoint nodeName => (removeEndpoint t nodeName).1
  | .updateFdb now mac vtepIp => (updateFdb t now mac vtepIp).1
  | .healthCheck now => (healthCheck t now).1

/-! ## What was said of a node -/

/-- What a call says of a node. -/
inductive Sign where
  | announced (now : Int) (vtepIp podCidr : CString)
  | checked (now : Int)
  | removed

/-- The sign that a call is for node `n`. -/
def signOf (n : CString) : Call → Option Sign
  | .addEndpoint now nodeName vtepIp podCidr => if nodeName = n then some (.announced now vtepIp podCidr) else none
  | .removeEndpoint nodeName => if nodeName = n then some .removed else none
  | .updateFdb _ _ _ => none
  | .healthCheck now => some (.checked now)

def signs (n : CString) (ops : List Call) : List Sign := ops.filterMap (signOf n)

def Sign.isRemoved : Sign → Bool
  | .removed => true
  | _ => false

/-- An announcement with an address. -/
def Sign.starts : Sign → Bool
  | .announced _ vtepIp _ => (inetPton vtepIp).isSome
  | _ => false

/-- **The life of a node**: what was said since it was last removed, from the first valid announcement on. -/
def life (n : CString) (ops : List Call) : List Sign :=
  ((signs n ops).rtakeWhile fun s => !s.isRemoved).dropWhile fun s => !s.starts

/-- When the node was last heard of, first at `seen`. -/
def lastHeard (seen : Int) (later : List Sign) : Int :=
  later.foldl (fun seen s => match s with
    | .announced now _ _ => now
    | _ => seen) seen

/-- The checks, each with the answer whether the node had not been heard of for 120 seconds. -/
def missed : Int → List Sign → List Bool
  | _, [] => []
  | _, .announced now _ _ :: later => missed now later
  | seen, .checked now :: later => decide (now - seen > 120) :: missed seen later
  | seen, .removed :: later => missed seen later

/-- Healthy: the last sign is no check that missed the node. -/
def healthyAfter (seen : Int) (later : List Sign) : Bool :=
  match later.getLast? with
  | some (.checked now) => decide (now - lastHeard seen later ≤ 120)
  | _ => true

/-- **The endpoint that a life makes**, in a tunnel with this network and port. -/
def endpointOf (vni : UInt32) (port : UInt16) (n : CString) : List Sign → Option Endpoint
  | .announced now vtepIp podCidr :: later => (inetPton vtepIp).map fun addr =>
    { newEndpoint vni port now n vtepIp podCidr addr with
      lastSeen := lastHeard now later
      healthy := healthyAfter now later
      failedChecks := Streak.trailing id (missed now later) % 2 ^ 32 }
  | _ => none

/-- The entry that a valid update of the address makes. -/
def entryOf (mac : Mac) : Call → Option FdbEntry
  | .updateFdb now mac' vtepIp => if mac' = mac then (inetPton vtepIp).map fun addr => ⟨mac, addr, now⟩ else none
  | _ => none

/-- The last valid update of an address. -/
def lastUpdate (mac : Mac) (ops : List Call) : Option FdbEntry := (ops.filterMap (entryOf mac)).getLast?

/-- **The tunnel reflects the calls.** -/
structure Reflects (t : Tunnel) (ops : List Call) : Prop where
  endpoints : (t.endpoints.map Endpoint.nodeName).Nodup ∧
    ∀ n, getEndpoint t n = endpointOf t.vni t.listenPort n (life n ops)
  fdb : (t.fdb.map FdbEntry.macAddress).Nodup ∧
    ∀ mac, lookup FdbEntry.macAddress mac t.fdb = lastUpdate mac ops

/-! ## One more sign -/

variable {vni : UInt32} {port : UInt16} {n : CString} {ops : List Call} {op : Call} {seen now : Int} {later : List Sign}

theorem signs_concat : signs n (ops ++ [op]) = signs n ops ++ (signOf n op).toList := by
  rw [signs, signs, List.filterMap_append]
  cases h : signOf n op with
  | none => simp [h]
  | some s => simp [h]

/-- A call that says nothing of the node. -/
theorem life_concat_of_none {op : Call} (h : signOf n op = none) : life n (ops ++ [op]) = life n ops := by
  rw [life, signs_concat, h, Option.toList_none, List.append_nil, life]

/-- A removal ends the life. -/
theorem life_concat_removed (h : signOf n op = some .removed) : life n (ops ++ [op]) = [] := by
  rw [life, signs_concat, h, Option.toList_some, List.rtakeWhile_concat_neg _ _ _ (by simp [Sign.isRemoved])]
  rfl

/-- Any other sign goes on with a life, or starts one. -/
theorem life_concat {s : Sign} (h : signOf n op = some s) (hs : s.isRemoved = false) :
    life n (ops ++ [op]) = if life n ops = [] then (if s.starts then [s] else []) else life n ops ++ [s] := by
  rw [life, signs_concat, h, Option.toList_some, List.rtakeWhile_concat_pos _ _ _ (by simp [hs]),
    List.dropWhile_append, life]
  cases hstarts : s.starts <;> simp [hstarts]

/-- A life starts with a valid announcement. -/
theorem life_cases (n : CString) (ops : List Call) : life n ops = [] ∨
    ∃ now vtepIp podCidr addr later, life n ops = .announced now vtepIp podCidr :: later ∧ inetPton vtepIp = some addr := by
  cases hlife : life n ops with
  | nil => exact .inl rfl
  | cons s later =>
    have hhead : (life n ops).head? = some s := by rw [hlife, List.head?_cons]
    have hstarts := List.head?_dropWhile_not (fun s : Sign => !s.starts) ((signs n ops).rtakeWhile fun s => !s.isRemoved)
    rw [life] at hhead
    rw [hhead] at hstarts
    cases s with
    | announced now vtepIp podCidr =>
      obtain ⟨addr, haddr⟩ := Option.isSome_iff_exists.mp (by simpa [Sign.starts] using hstarts)
      exact .inr ⟨now, vtepIp, podCidr, addr, later, rfl, haddr⟩
    | checked now => simp [Sign.starts] at hstarts
    | removed => simp [Sign.starts] at hstarts

theorem lastHeard_concat (s : Sign) : lastHeard seen (later ++ [s]) = match s with
    | .announced now _ _ => now
    | _ => lastHeard seen later := by
  rw [lastHeard, List.foldl_concat]
  cases s <;> rfl

theorem missed_announced (vtepIp podCidr : CString) :
    missed seen (later ++ [.announced now vtepIp podCidr]) = missed seen later := by
  induction later generalizing seen with
  | nil => rfl
  | cons s later ih => cases s <;> simp [missed, ih]

/-- A check answers for the time at which the node was last heard of. -/
theorem missed_checked : missed seen (later ++ [.checked now]) =
    missed seen later ++ [decide (now - lastHeard seen later > 120)] := by
  induction later generalizing seen with
  | nil => rfl
  | cons s later ih => cases s <;> simp [missed, ih, lastHeard]

/-- An announcement of a node that is there. -/
theorem endpointOf_announced {l : List Sign} (hl : l ≠ []) (vtepIp podCidr : CString) :
    endpointOf vni port n (l ++ [.announced now vtepIp podCidr]) = (endpointOf vni port n l).map (hear now) := by
  cases l with
  | nil => exact absurd rfl hl
  | cons s later =>
    cases s with
    | announced first vtepIp' podCidr' =>
      simp only [List.cons_append, endpointOf, Option.map_map, lastHeard_concat, missed_announced, healthyAfter,
        List.getLast?_concat]
      rfl
    | checked now' => rfl
    | removed => rfl

/-- A check. -/
theorem endpointOf_checked (l : List Sign) :
    endpointOf vni port n (l ++ [.checked now]) = (endpointOf vni port n l).map (check now) := by
  cases l with
  | nil => rfl
  | cons s later =>
    cases s with
    | announced first vtepIp podCidr =>
      simp only [List.cons_append, endpointOf, Option.map_map, lastHeard_concat, missed_checked, healthyAfter,
        List.getLast?_concat, Streak.trailing_concat, id_eq, decide_eq_true_eq]
      refine congrArg (fun f => Option.map f (inetPton vtepIp)) (funext fun addr => ?_)
      rw [Function.comp_apply, check]
      dsimp only [newEndpoint]
      by_cases hage : now - lastHeard first later > 120
      · rw [if_pos hage, if_pos hage, decide_eq_false (by omega), Nat.mod_add_mod]
      · rw [if_neg hage, if_neg hage, decide_eq_true (by omega), Nat.zero_mod]
    | checked now' => rfl
    | removed => rfl

/-! ## The run -/

/-- The table of endpoints, read as a map from the names of the nodes. -/
def Shows (t : Tunnel) (m : CString → Option Endpoint) : Prop := Represents Endpoint.nodeName Eq t.endpoints m

variable {t : Tunnel}

theorem rel_eq_iff {α : Type*} {a b : Option α} : Option.Rel Eq a b ↔ a = b := by
  cases a <;> cases b <;> simp

theorem shows_iff {m : CString → Option Endpoint} :
    Shows t m ↔ (t.endpoints.map Endpoint.nodeName).Nodup ∧ ∀ n, getEndpoint t n = m n :=
  ⟨fun h => ⟨h.distinct, fun n => rel_eq_iff.mp (h.found n)⟩, fun h => ⟨h.1, fun n => rel_eq_iff.mpr (h.2 n)⟩⟩

/-- The endpoints that the calls make. -/
def made (t : Tunnel) (ops : List Call) (n : CString) : Option Endpoint := endpointOf t.vni t.listenPort n (life n ops)

theorem made_eq_none : made t ops n = none ↔ life n ops = [] := by
  rw [made]
  rcases life_cases n ops with hnil | ⟨now, vtepIp, podCidr, addr, later, hlife, haddr⟩
  · rw [hnil]
    exact iff_of_true rfl rfl
  · rw [hlife, endpointOf, haddr]
    exact iff_of_false nofun nofun

theorem made_nodeName {e : Endpoint} (h : made t ops n = some e) : e.nodeName = n := by
  rw [made] at h
  rcases life_cases n ops with hnil | ⟨now, vtepIp, podCidr, addr, later, hlife, haddr⟩
  · rw [hnil] at h
    nomatch h
  · rw [hlife, endpointOf, haddr, Option.map_some, Option.some.injEq] at h
    rw [← h]
    rfl

theorem Shows.addEndpoint (h : Shows t (made t ops)) (now : Int) (node vtepIp podCidr : CString) :
    Shows (addEndpoint t now node vtepIp podCidr).1 (made t (ops ++ [.addEndpoint now node vtepIp podCidr])) := by
  have hself : signOf node (.addEndpoint now node vtepIp podCidr) = some (.announced now vtepIp podCidr) := if_pos rfl
  have hother : ∀ n ≠ node, made t (ops ++ [.addEndpoint now node vtepIp podCidr]) n = made t ops n := by
    intro n hn
    have hnone : signOf n (.addEndpoint now node vtepIp podCidr) = none := if_neg (Ne.symm hn)
    rw [made, life_concat_of_none hnone, made]
  have hupdate : ∀ v, made t (ops ++ [.addEndpoint now node vtepIp podCidr]) node = v →
      made t (ops ++ [.addEndpoint now node vtepIp podCidr]) = Function.update (made t ops) node v := by
    rintro v rfl
    funext n
    by_cases hn : n = node
    · rw [hn, Function.update_self]
    · rw [Function.update_of_ne hn, hother n hn]
  have hmade : made t (ops ++ [.addEndpoint now node vtepIp podCidr]) node =
      if life node ops = [] then (inetPton vtepIp).map (newEndpoint t.vni t.listenPort now node vtepIp podCidr)
      else (made t ops node).map (hear now) := by
    rw [made, life_concat hself rfl]
    by_cases hnil : life node ops = []
    · rw [if_pos hnil, if_pos hnil, Sign.starts]
      cases haddr : inetPton vtepIp with
      | none => rfl
      | some addr => simp [endpointOf, haddr, lastHeard, missed, healthyAfter, newEndpoint]
    · rw [if_neg hnil, if_neg hnil, endpointOf_announced hnil, made]
  rw [Vxlan.addEndpoint]
  rcases List.splitFirst_key_cases Endpoint.nodeName t.endpoints node with ⟨hnone, hfree⟩ | ⟨pre, e, post, hsome, hl, hkey⟩
  · -- a new node
    have hnil : life node ops = [] := by
      rw [← made_eq_none (t := t)]
      by_contra hne
      exact hfree (h.mem_keys_iff.mpr hne)
    rw [hnone]
    rw [hupdate _ hmade, if_pos hnil]
    cases haddr : inetPton vtepIp with
    | none =>
      have hsame : Function.update (made t ops) node none = made t ops := by
        rw [← made_eq_none.mpr hnil, Function.update_eq_self]
      rw [Option.map_none, hsame]
      exact h
    | some addr => exact (represents_concat_iff h hfree).mpr ⟨rfl, rfl⟩
  · -- a node that is there
    have htable : Represents Endpoint.nodeName Eq (pre ++ e :: post) (made t ops) := hl ▸ h
    obtain ⟨v, hv, rfl⟩ := htable.value_of_mem
    rw [hkey] at hv
    have hlife : life node ops ≠ [] := by
      rw [Ne, ← made_eq_none (t := t), hv]
      nofun
    rw [hsome, hupdate _ hmade, if_neg hlife, hv, Option.map_some, ← hkey]
    exact (represents_replace_iff htable).mpr ⟨rfl, rfl⟩

theorem Shows.removeEndpoint (h : Shows t (made t ops)) (node : CString) :
    Shows (removeEndpoint t node).1 (made t (ops ++ [.removeEndpoint node])) := by
  have hupdate : made t (ops ++ [.removeEndpoint node]) = Function.update (made t ops) node none := by
    funext n
    by_cases hn : n = node
    · have hself : signOf node (.removeEndpoint node) = some .removed := if_pos rfl
      rw [hn, Function.update_self, made, life_concat_removed hself]
      rfl
    · have hnone : signOf n (.removeEndpoint node) = none := if_neg (Ne.symm hn)
      rw [Function.update_of_ne hn, made, life_concat_of_none hnone, made]
  rw [Vxlan.removeEndpoint, hupdate]
  rcases List.splitFirst_key_cases Endpoint.nodeName t.endpoints node with ⟨hnone, hfree⟩ | ⟨pre, e, post, hsome, hl, hkey⟩
  · have hnone' : made t ops node = none := by
      by_contra hne
      exact hfree (h.mem_keys_iff.mpr hne)
    rw [hnone, ← hnone', Function.update_eq_self]
    exact h
  · have htable : Represents Endpoint.nodeName Eq (pre ++ e :: post) (made t ops) := hl ▸ h
    rw [hsome, ← hkey]
    exact htable.remove

theorem Shows.healthCheck (h : Shows t (made t ops)) (now : Int) :
    Shows (healthCheck t now).1 (made t (ops ++ [.healthCheck now])) := by
  have hmade : made t (ops ++ [.healthCheck now]) = fun n => (made t ops n).map (check now) := by
    funext n
    rw [made, life_concat rfl rfl, made]
    by_cases hnil : life n ops = []
    · rw [if_pos hnil, hnil]
      rfl
    · rw [if_neg hnil, endpointOf_checked]
  have hkey : ∀ e : Endpoint, (check now e).nodeName = e.nodeName := by
    intro e
    rw [check]
    split <;> rfl
  rw [hmade]
  exact h.map hkey fun _ _ heq => congrArg (check now) heq

theorem Shows.step (h : Shows t (made t ops)) (op : Call) : Shows (step t op) (made t (ops ++ [op])) := by
  cases op with
  | addEndpoint now node vtepIp podCidr => exact h.addEndpoint now node vtepIp podCidr
  | removeEndpoint node => exact h.removeEndpoint node
  | updateFdb now mac vtepIp =>
    have hmade : made t (ops ++ [.updateFdb now mac vtepIp]) = made t ops := by
      funext n
      rw [made, life_concat_of_none rfl, made]
    have hsame : (Vxlan.step t (.updateFdb now mac vtepIp)).endpoints = t.endpoints := by
      rw [Vxlan.step, updateFdb]
      split
      · rfl
      · split <;> rfl
    rw [hmade, Shows, hsame]
    exact h
  | healthCheck now => exact h.healthCheck now

theorem lastUpdate_concat (mac : Mac) : lastUpdate mac (ops ++ [op]) = (entryOf mac op).or (lastUpdate mac ops) := by
  rw [lastUpdate, List.filterMap_append, lastUpdate]
  cases h : entryOf mac op with
  | none => simp [h]
  | some x => simp [h]

/-- Only an update writes the forwarding database. -/
theorem step_fdb (h : ∀ mac, entryOf mac op = none) : (step t op).fdb = t.fdb := by
  cases op with
  | addEndpoint now node vtepIp podCidr =>
    rw [step, addEndpoint]
    split
    · rfl
    · split <;> rfl
  | removeEndpoint node =>
    rw [step, removeEndpoint]
    split <;> rfl
  | updateFdb now mac vtepIp =>
    have hnone := h mac
    rw [entryOf, if_pos rfl, Option.map_eq_none_iff] at hnone
    rw [step, updateFdb, hnone]
  | healthCheck now => rfl

theorem fdb_step (h : Represents FdbEntry.macAddress Eq t.fdb fun mac => lastUpdate mac ops) (op : Call) :
    Represents FdbEntry.macAddress Eq (step t op).fdb fun mac => lastUpdate mac (ops ++ [op]) := by
  by_cases hop : ∀ mac, entryOf mac op = none
  · have hsame : (fun mac => lastUpdate mac (ops ++ [op])) = fun mac => lastUpdate mac ops := by
      funext mac
      rw [lastUpdate_concat, hop, Option.none_or]
    rw [step_fdb hop, hsame]
    exact h
  · rw [not_forall] at hop
    obtain ⟨mac, hmac⟩ := hop
    cases op with
    | addEndpoint now node vtepIp podCidr => exact absurd rfl hmac
    | removeEndpoint node => exact absurd rfl hmac
    | healthCheck now => exact absurd rfl hmac
    | updateFdb now mac' vtepIp =>
      obtain ⟨addr, haddr⟩ : ∃ addr, inetPton vtepIp = some addr := by
        cases haddr : inetPton vtepIp with
        | none => exact absurd (by rw [entryOf, haddr, Option.map_none, ite_self]) hmac
        | some addr => exact ⟨addr, rfl⟩
      have hupdate : (fun mac => lastUpdate mac (ops ++ [.updateFdb now mac' vtepIp])) =
          Function.update (fun mac => lastUpdate mac ops) mac' (some ⟨mac', addr, now⟩) := by
        funext mac
        rw [lastUpdate_concat, entryOf, haddr, Option.map_some]
        by_cases hm : mac = mac'
        · rw [hm, if_pos rfl, Function.update_self, Option.some_or]
        · rw [if_neg (Ne.symm hm), Function.update_of_ne hm, Option.none_or]
      rw [hupdate, step, updateFdb, haddr]
      rcases List.splitFirst_key_cases FdbEntry.macAddress t.fdb mac' with
        ⟨hnone, hfree⟩ | ⟨pre, x, post, hsome, hl, hkey⟩
      · dsimp only
        rw [hnone]
        exact (represents_concat_iff h hfree).mpr ⟨rfl, rfl⟩
      · have htable : Represents FdbEntry.macAddress Eq (pre ++ x :: post) fun mac => lastUpdate mac ops := hl ▸ h
        dsimp only
        rw [hsome, ← hkey]
        exact (represents_replace_iff htable).mpr ⟨rfl, by rw [hkey]⟩

/-- No call changes the network or the port. -/
theorem step_const (op : Call) : (step t op).vni = t.vni ∧ (step t op).listenPort = t.listenPort := by
  cases op with
  | addEndpoint now node vtepIp podCidr =>
    rw [step, addEndpoint]
    split
    · exact ⟨rfl, rfl⟩
    · split <;> exact ⟨rfl, rfl⟩
  | removeEndpoint node =>
    rw [step, removeEndpoint]
    split <;> exact ⟨rfl, rfl⟩
  | updateFdb now mac vtepIp =>
    rw [step, updateFdb]
    split
    · exact ⟨rfl, rfl⟩
    · split <;> exact ⟨rfl, rfl⟩
  | healthCheck now => exact ⟨rfl, rfl⟩

theorem made_step (op : Call) : made (step t op) = made t := by
  funext ops n
  rw [made, (step_const op).1, (step_const op).2, made]

theorem run_reflects (h : Shows t (made t ops))
    (hfdb : Represents FdbEntry.macAddress Eq t.fdb fun mac => lastUpdate mac ops) (more : List Call) :
    Reflects (run step t more) (ops ++ more) := by
  induction more generalizing t ops with
  | nil =>
    rw [List.append_nil]
    exact ⟨shows_iff.mp h, hfdb.distinct, fun mac => rel_eq_iff.mp (hfdb.found mac)⟩
  | cons op more ih =>
    rw [run_cons, List.append_cons]
    refine ih ?_ (fdb_step hfdb op)
    rw [made_step]
    exact h.step op

/-- **The tunnel reflects every run of calls.** -/
theorem tunnel_reflects {localVtepIp : CString} (h : create vni localVtepIp port = some t) (ops : List Call) :
    Reflects (run step t ops) ops := by
  obtain ⟨addr, -, rfl⟩ := Option.map_eq_some_iff.mp h
  have hempty : Shows ⟨vni, addr, port, 1450, [], [], 0⟩ (made ⟨vni, addr, port, 1450, [], [], 0⟩ []) := represents_nil
  exact run_reflects hempty represents_nil ops

/-- A node that is missed by a check and comes back with another address. -/
def comeBack : List Call :=
  [.addEndpoint 0 "n1" "10.0.0.2" "10.244.1.0/24", .healthCheck 200, .addEndpoint 210 "n1" "10.0.0.3" "10.244.1.0/24",
    .updateFdb 211 #v[2, 0, 0, 0, 0, 1] "10.0.0.3"]

theorem tunnel_reflects_comeBack :
    Reflects (run step ⟨100, ofOctets 10 0 0 1, 4789, 1450, [], [], 0⟩ comeBack) comeBack :=
  have hcreate : create 100 "10.0.0.1" 4789 = some ⟨100, ofOctets 10 0 0 1, 4789, 1450, [], [], 0⟩ := rfl
  tunnel_reflects hcreate comeBack

end Sirah.Vxlan
