import Sirah.ApiServer.ServiceRegistry
import Sirah.Lib.Filling
import Sirah.Lib.Signed

/-!
# Least connections

`pkg/networking/load_balancer.c` with its connection counts and all strategies, and what `LB_LEAST_CONN` makes of them.

* A count is an `int` that goes up with `load_balancer_endpoint_connected` and down, not below zero, with
  `load_balancer_endpoint_disconnected`. `last_used`, `ready` and the session timeout are read by nothing.
* `load_balancer_remove_endpoint` is modelled where `node_name`, which it frees, is NULL.
* `connect` is a selection followed by `load_balancer_endpoint_connected` for what was selected.
* **`connects_fill`**: in every state of every run with fewer than `2^31` connections, further ones fill the endpoints from
  below: one that gets any has at most one more than any other, and enough of them even all counts out.
-/

namespace Sirah.LeastConn

open Runs Filling

/-! ## Data -/

/-- `lb_strategy_t`. -/
inductive Strategy where
  | roundRobin
  | leastConn
  | ipHash
  | clientIp
  deriving DecidableEq

/-- `lb_endpoint_t`. -/
structure LbEndpoint where
  podIp : CString
  podName : CString
  connectionCount : Int
  deriving DecidableEq

/-- `load_balancer_t`. -/
structure LoadBalancer where
  endpoints : List LbEndpoint
  strategy : Strategy
  roundRobinIndex : Int
  deriving DecidableEq

/-- `load_balancer_new`. -/
def loadBalancerNew (strategy : Strategy) : LoadBalancer := ⟨[], strategy, 0⟩

namespace LoadBalancer

variable (lb : LoadBalancer)

def ips : List CString := lb.endpoints.map LbEndpoint.podIp

def counts : List Int := lb.endpoints.map LbEndpoint.connectionCount

/-! ## Operations -/

/-- `load_balancer_add_endpoint`. -/
def addEndpoint (podIp podName : CString) : LoadBalancer × Int :=
  if lb.endpoints.length ≥ 100 then (lb, -1)
  else if lb.endpoints.any fun e => e.podIp = podIp then (lb, 0)
  else ({ lb with endpoints := lb.endpoints ++ [⟨podIp, podName, 0⟩] }, 0)

/-- `load_balancer_remove_endpoint`. -/
def removeEndpoint (podIp : CString) : LoadBalancer × Int :=
  match lb.endpoints.splitFirst fun e => e.podIp = podIp with
  | none => (lb, -1)
  | some (pre, _, post) => ({ lb with endpoints := pre ++ post }, 0)

/-- The character of an IP as an `unsigned int`: a `char` has a sign. -/
def charWord (c : UInt8) : UInt32 := UInt32.ofInt (if c.toNat < 128 then c.toNat else c.toNat - 256)

/-- `hash_ip`. -/
def hashIp (ip : CString) : UInt32 := ip.foldl (fun hash c => hash * 31 + charWord c) 0

/-- The loop of `LB_LEAST_CONN`, from the endpoint at `i` on. -/
def leastConn : List LbEndpoint → Nat → Int → Nat → Nat
  | [], _, _, selected => selected
  | e :: es, i, minConn, selected =>
    if e.connectionCount < minConn then leastConn es (i + 1) e.connectionCount i else leastConn es (i + 1) minConn selected

/-- The place at the round robin index, which counts up. -/
def atIndex : Int × LoadBalancer :=
  (lb.roundRobinIndex.tmod lb.endpoints.length, { lb with roundRobinIndex := (lb.roundRobinIndex + 1).wrap32 })

/-- The `switch` of `load_balancer_select_endpoint`. -/
def place (clientIp : Option CString) : Int × LoadBalancer :=
  match lb.strategy, clientIp with
  | .roundRobin, _ => lb.atIndex
  | .leastConn, _ => (leastConn lb.endpoints 0 (2 ^ 31 - 1) 0, lb)
  | _, some clientIp => ((hashIp clientIp).toNat % lb.endpoints.length, lb)
  | _, none => lb.atIndex

/-- `load_balancer_select_endpoint`. -/
def selectEndpoint (clientIp : Option CString) : Option LbEndpoint × LoadBalancer :=
  if lb.endpoints.length = 0 then (none, lb)
  else
    let (selected, lb) := lb.place clientIp
    if 0 ≤ selected ∧ selected < lb.endpoints.length then (lb.endpoints[selected.toNat]?, lb) else (none, lb)

/-- The first endpoint of an IP is changed. -/
def onEndpoint (podIp : CString) (f : LbEndpoint → LbEndpoint) : LoadBalancer × Int :=
  match lb.endpoints.splitFirst fun e => e.podIp = podIp with
  | none => (lb, -1)
  | some (pre, e, post) => ({ lb with endpoints := pre ++ f e :: post }, 0)

/-- `load_balancer_endpoint_connected`. -/
def endpointConnected (podIp : CString) : LoadBalancer × Int :=
  lb.onEndpoint podIp fun e => { e with connectionCount := (e.connectionCount + 1).wrap32 }

/-- `load_balancer_endpoint_disconnected`. -/
def endpointDisconnected (podIp : CString) : LoadBalancer × Int :=
  lb.onEndpoint podIp fun e => if 0 < e.connectionCount then { e with connectionCount := e.connectionCount - 1 } else e

/-- `load_balancer_clear_endpoints`. -/
def clearEndpoints : LoadBalancer := { lb with endpoints := [] }

/-- A connection of a client goes to the endpoint that is selected. -/
def connect (clientIp : Option CString) : LoadBalancer :=
  match lb.selectEndpoint clientIp with
  | (none, lb) => lb
  | (some e, lb) => (lb.endpointConnected e.podIp).1

end LoadBalancer

inductive Op where
  | addEndpoint (podIp podName : CString)
  | removeEndpoint (podIp : CString)
  | clearEndpoints
  | connect (clientIp : Option CString)
  | disconnected (podIp : CString)
  deriving DecidableEq

def step (lb : LoadBalancer) : Op → LoadBalancer
  | .addEndpoint podIp podName => (lb.addEndpoint podIp podName).1
  | .removeEndpoint podIp => (lb.removeEndpoint podIp).1
  | .clearEndpoints => lb.clearEndpoints
  | .connect clientIp => lb.connect clientIp
  | .disconnected podIp => (lb.endpointDisconnected podIp).1

/-- The number of connections in a run. -/
def connects (ops : List Op) : Nat :=
  ops.countP fun op => match op with
    | .connect _ => true
    | _ => false

/-! ## One call -/

variable {lb : LoadBalancer} {b : Nat} {ops : List Op}

/-- No two endpoints have one IP, and the counts are neither negative nor above `b`. -/
structure Inv (b : Nat) (lb : LoadBalancer) : Prop where
  strategy : lb.strategy = .leastConn
  distinct : lb.ips.Nodup
  counts : ∀ e ∈ lb.endpoints, 0 ≤ e.connectionCount ∧ e.connectionCount ≤ b

/-- **The loop** ends at the first endpoint below all before it, or where it was. -/
theorem leastConn_cases (es : List LbEndpoint) (i : Nat) (minConn : Int) (selected : Nat) :
    (∃ pre e post, es = pre ++ e :: post ∧ LoadBalancer.leastConn es i minConn selected = i + pre.length ∧
        e.connectionCount < minConn ∧ ∀ y ∈ es, e.connectionCount ≤ y.connectionCount) ∨
      LoadBalancer.leastConn es i minConn selected = selected ∧ ∀ y ∈ es, minConn ≤ y.connectionCount := by
  induction es generalizing i minConn selected with
  | nil => exact .inr ⟨rfl, List.forall_mem_nil _⟩
  | cons e es ih =>
    by_cases hlt : e.connectionCount < minConn
    · rw [LoadBalancer.leastConn, if_pos hlt]
      obtain ⟨pre, x, post, rfl, hplace, hbelow, hleast⟩ | ⟨hplace, hleast⟩ := ih (i + 1) e.connectionCount i
      · refine .inl ⟨e :: pre, x, post, rfl, ?_, hbelow.trans hlt, List.forall_mem_cons.mpr ⟨hbelow.le, hleast⟩⟩
        rw [hplace, List.length_cons]
        omega
      · exact .inl ⟨[], e, es, rfl, hplace, hlt, List.forall_mem_cons.mpr ⟨le_rfl, hleast⟩⟩
    · rw [LoadBalancer.leastConn, if_neg hlt]
      obtain ⟨pre, x, post, rfl, hplace, hbelow, hleast⟩ | ⟨hplace, hleast⟩ := ih (i + 1) minConn selected
      · refine .inl ⟨e :: pre, x, post, rfl, ?_, hbelow, List.forall_mem_cons.mpr ⟨by omega, hleast⟩⟩
        rw [hplace, List.length_cons]
        omega
      · exact .inr ⟨hplace, List.forall_mem_cons.mpr ⟨Int.not_lt.mp hlt, hleast⟩⟩

/-- **What is selected** is an endpoint with the least count. -/
theorem selectEndpoint_least (h : Inv b lb) (hb : b < 2 ^ 31) (hne : lb.endpoints ≠ []) (clientIp : Option CString) :
    ∃ e ∈ lb.endpoints, lb.selectEndpoint clientIp = (some e, lb) ∧
      ∀ y ∈ lb.endpoints, e.connectionCount ≤ y.connectionCount := by
  have hselect : ∀ (pre post : List LbEndpoint) (e : LbEndpoint), lb.endpoints = pre ++ e :: post →
      LoadBalancer.leastConn lb.endpoints 0 (2 ^ 31 - 1) 0 = pre.length → lb.selectEndpoint clientIp = (some e, lb) := by
    intro pre post e heq hplace
    have hlength : lb.endpoints.length = pre.length + (post.length + 1) := by rw [heq, List.length_append, List.length_cons]
    have hget : lb.endpoints[((pre.length : Nat) : Int).toNat]? = some e := by
      rw [heq, Int.toNat_natCast, List.getElem?_append_right le_rfl, Nat.sub_self, List.getElem?_cons_zero]
    have hswitch : lb.place clientIp = ((pre.length : Int), lb) := by
      simp only [LoadBalancer.place, h.strategy, hplace]
    rw [LoadBalancer.selectEndpoint, if_neg (by omega), hswitch]
    simp only [hget]
    exact if_pos ⟨by omega, by omega⟩
  obtain ⟨pre, e, post, heq, hplace, -, hleast⟩ | ⟨hplace, hleast⟩ := leastConn_cases lb.endpoints 0 (2 ^ 31 - 1) 0
  · exact ⟨e, heq ▸ List.mem_append_right _ List.mem_cons_self, hselect pre post e heq (hplace.trans (Nat.zero_add _)), hleast⟩
  · -- all counts are the greatest `int`
    obtain ⟨e, es, heq⟩ := List.exists_cons_of_ne_nil hne
    have he : e ∈ lb.endpoints := heq ▸ List.mem_cons_self
    refine ⟨e, he, hselect [] es e heq hplace, fun y hy => ?_⟩
    have := (h.counts e he).2
    have := hleast y hy
    omega

/-- The endpoint of an IP, and what is beside it. -/
theorem onEndpoint_of_mem (h : Inv b lb) {e : LbEndpoint} (he : e ∈ lb.endpoints) (f : LbEndpoint → LbEndpoint) :
    ∃ pre post, lb.endpoints = pre ++ e :: post ∧
      lb.onEndpoint e.podIp f = ({ lb with endpoints := pre ++ f e :: post }, 0) := by
  obtain ⟨-, hnone⟩ | ⟨pre, x, post, hsplit, heq, hip⟩ := List.splitFirst_key_cases LbEndpoint.podIp lb.endpoints e.podIp
  · exact absurd (List.mem_map_of_mem he) hnone
  · have hx : x ∈ lb.endpoints := heq ▸ List.mem_append_right _ List.mem_cons_self
    obtain rfl : x = e := List.inj_on_of_nodup_map h.distinct hx he hip
    refine ⟨pre, post, heq, ?_⟩
    rw [LoadBalancer.onEndpoint, hsplit]

/-- **A connection** goes to an endpoint with the least count. -/
theorem connect_cases (h : Inv b lb) (hb : b + 1 < 2 ^ 31) (clientIp : Option CString) :
    lb.endpoints = [] ∧ lb.connect clientIp = lb ∨
      ∃ pre e post, lb.endpoints = pre ++ e :: post ∧ (∀ y ∈ lb.endpoints, e.connectionCount ≤ y.connectionCount) ∧
        lb.connect clientIp =
          { lb with endpoints := pre ++ { e with connectionCount := e.connectionCount + 1 } :: post } := by
  by_cases hne : lb.endpoints = []
  · refine .inl ⟨hne, ?_⟩
    simp only [LoadBalancer.connect, LoadBalancer.selectEndpoint, hne, List.length_nil, if_true]
  · obtain ⟨e, he, hselect, hleast⟩ := selectEndpoint_least h (by omega) hne clientIp
    obtain ⟨pre, post, heq, hon⟩ := onEndpoint_of_mem h he fun e => { e with connectionCount := (e.connectionCount + 1).wrap32 }
    refine .inr ⟨pre, e, post, heq, hleast, ?_⟩
    have hcount := h.counts e he
    rw [LoadBalancer.connect, hselect]
    dsimp only
    rw [LoadBalancer.endpointConnected, hon, Int.wrap32_of_fits (by omega) (by omega)]

/-- An endpoint is changed, but not its IP. -/
theorem Inv.replace {pre post : List LbEndpoint} {e e' : LbEndpoint} (h : Inv b lb) (heq : lb.endpoints = pre ++ e :: post)
    {b' : Nat} (hb : b ≤ b') (hip : e'.podIp = e.podIp) (hcount : 0 ≤ e'.connectionCount ∧ e'.connectionCount ≤ b') :
    Inv b' { lb with endpoints := pre ++ e' :: post } := by
  refine ⟨h.strategy, ?_, fun y hy => ?_⟩
  · have hdistinct := h.distinct
    rw [LoadBalancer.ips, heq] at hdistinct
    refine (List.nodup_replace_iff hdistinct).mpr fun z hz => ?_
    rw [hip]
    exact List.key_ne_of_nodup hdistinct hz
  · obtain rfl | hbeside := List.mem_append_cons_iff.mp hy
    · exact hcount
    · have := h.counts y (heq ▸ List.mem_append_cons_iff.mpr (.inr hbeside))
      omega

/-- **One step**: only a connection raises a count. -/
theorem inv_step (h : Inv b lb) (op : Op) (hb : b + connects [op] < 2 ^ 31) : Inv (b + connects [op]) (step lb op) := by
  cases op with
  | addEndpoint podIp podName =>
    rw [step, LoadBalancer.addEndpoint]
    split
    · exact h
    · split
      · exact h
      · next hnew =>
        refine ⟨h.strategy, List.nodup_map_concat.mpr ⟨?_, h.distinct⟩, fun e he => ?_⟩
        · simp only [List.any_eq_true, decide_eq_true_eq, not_exists, not_and] at hnew
          intro hmem
          obtain ⟨e, he, hip⟩ := List.mem_map.mp hmem
          exact hnew e he hip
        · obtain he | he := List.mem_append.mp he
          · exact h.counts e he
          · rw [List.mem_singleton.mp he]
            exact ⟨le_rfl, Int.natCast_nonneg _⟩
  | removeEndpoint podIp =>
    rw [step, LoadBalancer.removeEndpoint]
    obtain ⟨hnone, -⟩ | ⟨pre, x, post, hsplit, heq, -⟩ := List.splitFirst_key_cases LbEndpoint.podIp lb.endpoints podIp
    · rw [hnone]
      exact h
    · rw [hsplit]
      have hdistinct := h.distinct
      rw [LoadBalancer.ips, heq] at hdistinct
      exact ⟨h.strategy, List.nodup_remove hdistinct, fun y hy =>
        h.counts y (heq ▸ (List.beside_sublist pre x post).subset hy)⟩
  | clearEndpoints => exact ⟨h.strategy, List.nodup_nil, List.forall_mem_nil _⟩
  | connect clientIp =>
    obtain ⟨-, hsame⟩ | ⟨pre, e, post, heq, -, hconnect⟩ := connect_cases h hb clientIp
    · rw [step, hsame]
      exact ⟨h.strategy, h.distinct, fun y hy => by have := h.counts y hy; omega⟩
    · have hcount := h.counts e (heq ▸ List.mem_append_right _ List.mem_cons_self)
      have hone : connects [.connect clientIp] = 1 := rfl
      rw [step, hconnect, hone]
      exact h.replace heq (Nat.le_succ b) rfl (by dsimp only; omega)
  | disconnected podIp =>
    rw [step, LoadBalancer.endpointDisconnected, LoadBalancer.onEndpoint]
    obtain ⟨hnone, -⟩ | ⟨pre, x, post, hsplit, heq, -⟩ := List.splitFirst_key_cases LbEndpoint.podIp lb.endpoints podIp
    · rw [hnone]
      exact h
    · rw [hsplit]
      have hcount := h.counts x (heq ▸ List.mem_append_right _ List.mem_cons_self)
      refine h.replace heq le_rfl ?_ ?_
      · split <;> rfl
      · split
        · dsimp only
          omega
        · exact hcount

/-! ## Runs -/

theorem inv_run (h : Inv b lb) (hb : b + connects ops < 2 ^ 31) : Inv (b + connects ops) (run step lb ops) := by
  induction ops generalizing b lb with
  | nil => exact h
  | cons op ops ih =>
    have hcons : connects (op :: ops) = connects [op] + connects ops := by
      rw [← List.singleton_append, connects, List.countP_append]
      rfl
    have hsum : b + connects (op :: ops) = b + connects [op] + connects ops := by omega
    rw [hsum] at hb ⊢
    exact ih (inv_step h op (by omega)) hb

/-- **Connections fill the endpoints from below.** -/
theorem fills_connects (h : Inv b lb) (hne : lb.endpoints ≠ []) {clients : List (Option CString)}
    (hb : b + clients.length < 2 ^ 31) {l : List Int} {k : Nat} (hfills : Fills l lb.counts k) :
    (run step lb (clients.map .connect)).ips = lb.ips ∧
      Fills l (run step lb (clients.map .connect)).counts (k + clients.length) := by
  induction clients generalizing b lb k with
  | nil => exact ⟨rfl, hfills⟩
  | cons clientIp clients ih =>
    rw [List.length_cons] at hb
    obtain ⟨hnil, -⟩ | ⟨pre, e, post, heq, hleast, hconnect⟩ := connect_cases h (by omega) clientIp
    · exact absurd hnil hne
    · have hinv : Inv (b + 1) (lb.connect clientIp) := inv_step h (.connect clientIp) (show b + 1 < 2 ^ 31 by omega)
      have hips : (lb.connect clientIp).ips = lb.ips := by
        rw [hconnect, LoadBalancer.ips, LoadBalancer.ips, heq, List.map_append, List.map_append, List.map_cons, List.map_cons]
      have hnext : Fills l (lb.connect clientIp).counts (k + 1) := by
        rw [LoadBalancer.counts, heq, List.map_append, List.map_cons] at hfills
        rw [hconnect, LoadBalancer.counts, List.map_append, List.map_cons]
        refine hfills.next fun y hy => ?_
        rw [← List.map_cons, ← List.map_append, ← heq] at hy
        obtain ⟨x, hx, rfl⟩ := List.mem_map.mp hy
        exact hleast x hx
      have hne' : (lb.connect clientIp).endpoints ≠ [] := by
        rw [hconnect]
        simp
      obtain ⟨hips', hfills'⟩ := ih hinv hne' (by omega) hnext
      refine ⟨hips'.trans hips, ?_⟩
      rw [List.length_cons, Nat.add_comm clients.length, ← Nat.add_assoc]
      exact hfills'

/-- **Least connections**: after every run of calls that leaves an endpoint, further connections of any clients fill the
endpoints from below, and even all counts out when they suffice to raise every count to the highest one. -/
theorem connects_fill (ops : List Op) (clients : List (Option CString)) (hfew : connects ops + clients.length < 2 ^ 31)
    (hne : (run step (loadBalancerNew .leastConn) ops).endpoints ≠ []) :
    let lb := run step (loadBalancerNew .leastConn) ops
    let lb' := run step lb (clients.map .connect)
    lb'.ips = lb.ips ∧ Fills lb.counts lb'.counts clients.length ∧
      ∀ M, (∀ x ∈ lb.counts, x ≤ M) → (lb.counts.map (M - ·)).sum ≤ clients.length →
        ∀ x ∈ lb'.counts, ∀ y ∈ lb'.counts, x ≤ y + 1 := by
  intro lb lb'
  have hnew : Inv 0 (loadBalancerNew .leastConn) := ⟨rfl, List.nodup_nil, List.forall_mem_nil _⟩
  have hinv : Inv (0 + connects ops) lb := inv_run hnew (by omega)
  have hroom : 0 + connects ops + clients.length < 2 ^ 31 := by omega
  obtain ⟨hips, hfills⟩ := fills_connects hinv hne hroom (Fills.refl lb.counts)
  rw [Nat.zero_add] at hfills
  exact ⟨hips, hfills, fun M hM hk => hfills.even hM hk⟩

/-- Two endpoints, one of which comes after three connections and gets the next ones. -/
def lateEndpoint : List Op :=
  [.addEndpoint "10.0.0.1" "a", .connect none, .connect none, .connect none, .addEndpoint "10.0.0.2" "b",
    .disconnected "10.0.0.1"]

theorem connects_fill_late :
    let lb := run step (loadBalancerNew .leastConn) lateEndpoint
    let lb' := run step lb ([none, none, none].map .connect)
    lb'.ips = lb.ips ∧ Fills lb.counts lb'.counts 3 ∧
      ∀ M, (∀ x ∈ lb.counts, x ≤ M) → (lb.counts.map (M - ·)).sum ≤ (3 : Nat) →
        ∀ x ∈ lb'.counts, ∀ y ∈ lb'.counts, x ≤ y + 1 :=
  connects_fill lateEndpoint [none, none, none] (by decide) (by decide +kernel)

end Sirah.LeastConn
