import Sirah.ApiServer.ServiceRegistry
import Sirah.Lib.Rotation
import Sirah.Lib.Signed

/-!
# Round robin

`load_balancer_select_endpoint` of `pkg/networking/load_balancer.c` with the strategy `LB_ROUND_ROBIN`: the endpoint at the
remainder of an `int` that counts the selections. The count wraps around after `2^31` of them, and the remainder of a
negative number is not positive.

* `load_balancer_remove_endpoint` frees a `node_name` that `load_balancer_add_endpoint` does not set; it is modelled where
  this is NULL.
* `Fair`: an endpoint is selected if there is one, and as many selections as there are endpoints return each of them once.
* **`fair_iff`**: this holds in every state of a run **iff** in each of them there is at most one endpoint, or the index is
  not negative and does not pass the greatest `int` during these selections (`Short`).
* `no_endpoint_selected`: after `2^31` selections nothing is returned although there are three endpoints.
-/

namespace Sirah.ServiceRegistry

open Runs Rotation

/-- `load_balancer_t` with the strategy `LB_ROUND_ROBIN`. -/
structure RoundRobin where
  balancer : LoadBalancer
  roundRobinIndex : Int

namespace RoundRobin

/-- `load_balancer_select_endpoint`. -/
def selectEndpoint (lb : RoundRobin) : Option Endpoint × RoundRobin :=
  if lb.balancer.endpoints.length = 0 then (none, lb)
  else
    let selected := lb.roundRobinIndex.tmod lb.balancer.endpoints.length
    let lb := { lb with roundRobinIndex := (lb.roundRobinIndex + 1).wrap32 }
    if 0 ≤ selected ∧ selected < lb.balancer.endpoints.length then (lb.balancer.endpoints[selected.toNat]?, lb)
    else (none, lb)

inductive Op where
  | addEndpoint (podIp podName : CString)
  | removeEndpoint (podIp : CString)
  | selectEndpoint

def step (lb : RoundRobin) : Op → RoundRobin
  | .addEndpoint podIp podName => { lb with balancer := (lb.balancer.addEndpoint podIp podName .null).1 }
  | .removeEndpoint podIp => { lb with balancer := (lb.balancer.removeEndpoint podIp).1 }
  | .selectEndpoint => lb.selectEndpoint.2

/-- What the next selections return. -/
def selections : Nat → RoundRobin → List (Option Endpoint)
  | 0, _ => []
  | k + 1, lb => lb.selectEndpoint.1 :: selections k lb.selectEndpoint.2

/-- **Round robin is fair.** -/
structure Fair (lb : RoundRobin) : Prop where
  /-- No two endpoints are the same. -/
  distinct : lb.balancer.ips.Nodup
  /-- If there is an endpoint, one is selected. -/
  served : lb.balancer.endpoints ≠ [] → lb.selectEndpoint.1.isSome = true
  /-- As many selections as there are endpoints return each of them once. -/
  turns : (selections lb.balancer.endpoints.length lb).Perm (lb.balancer.endpoints.map some)

/-- The index does not pass the greatest `int` during one turn, unless the last of its selections is the one at the least
`int`, and this is a multiple of the number of endpoints. -/
def Short (lb : RoundRobin) : Prop :=
  lb.balancer.endpoints.length ≤ 1 ∨ 0 ≤ lb.roundRobinIndex ∧
    (lb.roundRobinIndex + lb.balancer.endpoints.length ≤ 2 ^ 31 ∨
      lb.roundRobinIndex + lb.balancer.endpoints.length = 2 ^ 31 + 1 ∧ (lb.balancer.endpoints.length : Int) ∣ 2 ^ 31)

instance Short.decidable (lb : RoundRobin) : Decidable lb.Short := inferInstanceAs (Decidable (_ ∨ _ ∧ (_ ∨ _ ∧ _)))

/-- The index is an `int`, and the endpoints are distinct. -/
structure Inv (lb : RoundRobin) : Prop where
  lo : -2 ^ 31 ≤ lb.roundRobinIndex
  hi : lb.roundRobinIndex < 2 ^ 31
  distinct : lb.balancer.ips.Nodup

variable {lb : RoundRobin}

/-! ## Selections -/

theorem selectEndpoint_eq (h : lb.balancer.endpoints ≠ []) : lb.selectEndpoint =
    (pick lb.balancer.endpoints lb.roundRobinIndex,
      { lb with roundRobinIndex := (lb.roundRobinIndex + 1).wrap32 }) := by
  have hlength : lb.balancer.endpoints.length ≠ 0 := fun hzero => h (List.length_eq_zero_iff.mp hzero)
  unfold selectEndpoint pick
  rw [if_neg hlength]
  dsimp only
  split <;> rfl

/-- **The selections** are picks at an index that counts up. -/
theorem selections_eq (h : lb.balancer.endpoints ≠ []) (hfits : lb.roundRobinIndex.wrap32 = lb.roundRobinIndex) (k : Nat) :
    selections k lb = (List.range k).map fun j : Nat => pick lb.balancer.endpoints (lb.roundRobinIndex + j).wrap32 := by
  induction k generalizing lb with
  | zero => rfl
  | succ k ih =>
    rw [selections, selectEndpoint_eq h, List.range_succ_eq_map, List.map_cons, List.map_map]
    refine congrArg₂ List.cons ?_ ?_
    · rw [Int.ofNat_zero, Int.add_zero, hfits]
    · have hnext : (lb.roundRobinIndex + 1).wrap32.wrap32 = (lb.roundRobinIndex + 1).wrap32 :=
        Int.bmod_bmod
      rw [@ih { lb with roundRobinIndex := (lb.roundRobinIndex + 1).wrap32 } h hnext]
      refine List.map_congr_left fun j _ => ?_
      simp only [Function.comp, Int.wrap32_add, Int.natCast_succ]
      congr 2
      omega

theorem Inv.fits (h : Inv lb) : lb.roundRobinIndex.wrap32 = lb.roundRobinIndex := Int.wrap32_of_fits h.lo h.hi

/-- One turn. -/
theorem Inv.turn_eq (h : Inv lb) : selections lb.balancer.endpoints.length lb =
    window lb.balancer.endpoints fun j => (lb.roundRobinIndex + j).wrap32 := by
  by_cases hnil : lb.balancer.endpoints = []
  · rw [hnil]
    rfl
  · exact selections_eq hnil h.fits _

/-- Behind the greatest `int` comes the least one. -/
theorem wrap32_least : Int.wrap32 (2 ^ 31) = -2 ^ 31 := rfl

/-- **A turn that does not pass the end** is fair. -/
theorem Inv.turn_perm (h : Inv lb) (hshort : lb.Short) :
    (selections lb.balancer.endpoints.length lb).Perm (lb.balancer.endpoints.map some) := by
  rw [h.turn_eq]
  unfold Short at hshort
  generalize lb.balancer.endpoints = l at hshort
  rcases hshort with hone | ⟨hpos, hshort⟩
  · refine window_perm 0 fun j hj => ?_
    have hl : l ≠ [] := List.ne_nil_of_length_pos (by omega)
    have hlength : l.length = 1 := by omega
    obtain rfl : j = 0 := by omega
    rw [pick_of_dvd hl (by rw [hlength]; exact Int.one_dvd _)]
    rfl
  · obtain ⟨i, hi⟩ : ∃ i : Nat, lb.roundRobinIndex = i := ⟨_, (Int.toNat_of_nonneg hpos).symm⟩
    rw [hi] at hshort ⊢
    refine window_perm i fun j hj => ?_
    have hl : l ≠ [] := List.ne_nil_of_length_pos (by omega)
    by_cases hover : (i : Int) + j < 2 ^ 31
    · rw [Int.wrap32_of_fits (by omega) hover, ← Int.natCast_add, pick_of_nonneg hl, Nat.add_comm]
    · -- the last selection is the one at the least `int`
      obtain ⟨hlast, hdvd⟩ := hshort.resolve_left (by omega)
      have hend : (i : Int) + j = 2 ^ 31 := by omega
      have hplace : (j + i) % l.length = 0 := by
        have hsum : ((j + i : Nat) : Int) = 2 ^ 31 := by omega
        rw [← hsum] at hdvd
        exact Nat.mod_eq_zero_of_dvd (Int.ofNat_dvd.mp hdvd)
      rw [hend, hplace, wrap32_least]
      exact pick_of_dvd hl (Int.dvd_neg.mpr hdvd)

/-- **A turn that passes the end** is not. -/
theorem Inv.short_of_turn (h : Inv lb)
    (hperm : (selections lb.balancer.endpoints.length lb).Perm (lb.balancer.endpoints.map some)) : lb.Short := by
  rw [h.turn_eq] at hperm
  have hlo := h.lo
  have hhi := h.hi
  have hsome : ∀ j < lb.balancer.endpoints.length, pick lb.balancer.endpoints (lb.roundRobinIndex + j).wrap32 ≠ none :=
    fun j hj hnone => not_window_perm hj hnone hperm
  unfold Short
  generalize lb.balancer.endpoints = l at hsome
  by_contra hlong
  rw [not_or, not_and_or, not_or, not_and_or] at hlong
  obtain ⟨hmany, hcases⟩ := hlong
  have htwo : 2 ≤ l.length := by omega
  by_cases hneg : lb.roundRobinIndex < 0
  · -- the first two indices are not positive
    have hfirst := hsome 0 (by omega)
    have hsecond := hsome 1 (by omega)
    rw [Int.wrap32_of_fits (by omega) (by omega)] at hfirst hsecond
    rw [Int.ofNat_zero, Int.add_zero] at hfirst
    rcases pick_over htwo (x := lb.roundRobinIndex) (by omega) with hnone | hnone
    · exact hfirst hnone
    · exact hsecond hnone
  · obtain ⟨hpast, hlast⟩ := hcases.resolve_left (by omega)
    -- the index passes the end before the last selection, or with it and it is no multiple
    obtain ⟨j, hj⟩ : ∃ j : Nat, lb.roundRobinIndex + j = 2 ^ 31 := ⟨(2 ^ 31 - lb.roundRobinIndex).toNat, by omega⟩
    have hleast := hsome j (by omega)
    rw [hj, wrap32_least] at hleast
    rcases hlast with hmore | hdvd
    · have hafter := hsome (j + 1) (by omega)
      have hnext : (lb.roundRobinIndex + (j + 1 : Nat)).wrap32 = -2 ^ 31 + 1 := by
        rw [Int.natCast_succ, ← Int.add_assoc, hj]
        rfl
      rw [hnext] at hafter
      rcases pick_over htwo (x := -2 ^ 31) (by decide) with hnone | hnone
      · exact hleast hnone
      · exact hafter hnone
    · exact hleast (pick_of_neg (by decide) fun h => hdvd (Int.dvd_neg.mp h))

/-- **Fair in a state.** -/
theorem Inv.fair_iff_short (h : Inv lb) : lb.Fair ↔ lb.Short := by
  refine ⟨fun hfair => h.short_of_turn hfair.turns, fun hshort => ⟨h.distinct, fun hne => ?_, h.turn_perm hshort⟩⟩
  -- the first selection is one of the turn
  have hperm := h.turn_perm hshort
  obtain ⟨k, hk⟩ : ∃ k, lb.balancer.endpoints.length = k + 1 :=
    Nat.exists_eq_succ_of_ne_zero fun hzero => hne (List.length_eq_zero_iff.mp hzero)
  rw [hk, selections] at hperm
  obtain ⟨e, -, he⟩ := List.mem_map.mp (hperm.mem_iff.mp List.mem_cons_self)
  rw [← he]
  rfl

/-! ## Runs -/

theorem inv_step (op : Op) (h : Inv lb) : Inv (lb.step op) := by
  cases op with
  | addEndpoint podIp podName =>
    refine ⟨h.lo, h.hi, ?_⟩
    simp only [step]
    rcases lb.balancer.addEndpoint_cases podIp podName .null with ⟨-, heq⟩ | ⟨-, ⟨-, heq⟩ | ⟨hnew, heq⟩⟩ <;> rw [heq]
    · exact h.distinct
    · exact h.distinct
    · exact List.nodup_map_concat.mpr ⟨hnew, h.distinct⟩
  | removeEndpoint podIp =>
    refine ⟨h.lo, h.hi, ?_⟩
    simp only [step, LoadBalancer.removeEndpoint]
    rcases List.splitFirst_key_cases Endpoint.podIp lb.balancer.endpoints podIp with
      ⟨hnone, -⟩ | ⟨pre, e, post, hsome, hl, -⟩
    · rw [hnone]
      exact h.distinct
    · rw [hsome]
      have hdistinct := h.distinct
      rw [LoadBalancer.ips, hl] at hdistinct
      exact List.nodup_remove hdistinct
  | selectEndpoint =>
    simp only [step]
    by_cases hnil : lb.balancer.endpoints = []
    · have hsame : lb.selectEndpoint = (none, lb) := if_pos (by rw [hnil]; rfl)
      rw [hsame]
      exact h
    · rw [selectEndpoint_eq hnil]
      obtain ⟨hlo, hhi⟩ := Int.wrap32_fits (lb.roundRobinIndex + 1)
      exact ⟨hlo, hhi, h.distinct⟩

theorem inv_new {serviceName ns : CString} {balancer : LoadBalancer} (h : loadBalancerNew serviceName ns = some balancer) :
    Inv ⟨balancer, 0⟩ := by
  unfold loadBalancerNew at h
  split at h
  · cases h
  · cases h
    refine ⟨?_, ?_, List.nodup_nil⟩
    · dsimp only
      omega
    · dsimp only
      omega

/-- **Round robin is fair, exactly** in the states of a run in which a turn does not pass the end. -/
theorem fair_iff {serviceName ns : CString} {balancer : LoadBalancer}
    (h : loadBalancerNew serviceName ns = some balancer) (ops : List Op) :
    AllStates step Fair ⟨balancer, 0⟩ ops ↔ AllStates step Short ⟨balancer, 0⟩ ops :=
  allStates_congr (fun _ hinv => hinv.fair_iff_short) (allStates_of_step (fun _ op hinv => inv_step op hinv) (inv_new h))

/-- `load_balancer_new` for a service. -/
def web : LoadBalancer := ⟨"web", "default", []⟩

/-- Three endpoints. -/
def addThree : List Op := [.addEndpoint "10.0.0.1" "a", .addEndpoint "10.0.0.2" "b", .addEndpoint "10.0.0.3" "c"]

theorem fair_three : AllStates step Fair ⟨web, 0⟩ (addThree ++ [.selectEndpoint, .removeEndpoint "10.0.0.2"]) :=
  (@fair_iff "web" "default" web rfl _).mpr (by decide)

/-- Selections count up the index. -/
theorem run_selectEndpoint (h : lb.balancer.endpoints ≠ []) (hfits : lb.roundRobinIndex.wrap32 = lb.roundRobinIndex) (k : Nat) :
    run step lb (List.replicate k .selectEndpoint) = { lb with roundRobinIndex := (lb.roundRobinIndex + k).wrap32 } := by
  induction k with
  | zero =>
    rw [Int.ofNat_zero, Int.add_zero, hfits]
    rfl
  | succ k ih =>
    have hnext := @selectEndpoint_eq { lb with roundRobinIndex := (lb.roundRobinIndex + k).wrap32 } h
    rw [List.replicate_succ', run_append, ih, run_cons, run_nil, step, hnext, Int.natCast_succ, ← Int.add_assoc]
    dsimp only
    rw [Int.wrap32_add]

/-- **Nothing is selected**: there are three endpoints, and there were `2^31` selections. -/
theorem no_endpoint_selected : ¬ ∀ (serviceName ns : CString) (balancer : LoadBalancer),
    loadBalancerNew serviceName ns = some balancer → ∀ ops : List Op, AllStates step Fair ⟨balancer, 0⟩ ops := by
  intro h
  have hthree : (run step ⟨web, 0⟩ addThree).balancer.endpoints ≠ [] := by decide
  have hserved : ∀ k : Nat, (selectEndpoint
      { run step ⟨web, 0⟩ addThree with roundRobinIndex := (0 + (k : Int)).wrap32 }).1.isSome = true := by
    intro k
    have hrun := (h "web" "default" web rfl (addThree ++ List.replicate k .selectEndpoint)).run_mem
    rw [run_append, run_selectEndpoint hthree rfl] at hrun
    exact hrun.served hthree
  exact absurd (hserved (2 ^ 31)) (by decide)

end RoundRobin

end Sirah.ServiceRegistry
