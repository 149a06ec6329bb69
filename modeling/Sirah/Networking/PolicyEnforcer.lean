import Sirah.Lib.CString

/-!
# The network policy enforcer

Model of `internal/networking/policy_enforcer.c`: is a flow of traffic between two pods allowed by the
policies? A policy belongs to a namespace, selects pods by their labels and holds rules for ingress and for
egress.

* The predicate on labels, `k8s_network_label_selector_matches`, is a parameter: every result holds for any
  interpretation of it.
* `consults` are the tests that a policy has to pass before the loop of `k8s_policy_enforcer_evaluate` looks
  at its rules. They are about the destination, whatever the direction of the flow.
* **`protects_iff`**: the right end of the flow is protected **iff** the flow is an ingress flow, or every
  policy selects its destination exactly if it selects its source.
-/

namespace Sirah.NetworkPolicy

/-! ## Data -/

/-- `k8s_network_label_selector_t`. -/
structure LabelSelector where
  matchLabels : List CString
  matchExpressions : List CString
  deriving DecidableEq

/-- `k8s_network_peer_t`, the pod selector and the CIDR of the block. -/
structure Peer where
  podSelector : Option LabelSelector
  cidrBlock : Option CString
  deriving DecidableEq

/-- `k8s_network_port_t`. -/
structure Port where
  protocol : CString
  port : Int
  deriving DecidableEq

/-- `k8s_network_rule_t`. -/
structure Rule where
  peers : List (Option Peer)
  ports : List (Option Port)
  deriving DecidableEq

/-- `k8s_network_policy_spec_t`. -/
structure PolicySpec where
  podSelector : LabelSelector
  ingressRules : List (Option Rule)
  egressRules : List (Option Rule)
  deriving DecidableEq

/-- `k8s_network_policy_t`. -/
structure Policy where
  name : CString
  ns : CString
  spec : Option PolicySpec
  deriving DecidableEq

/-- `k8s_traffic_flow_t`. -/
structure Flow where
  sourcePod : CString
  sourceNamespace : CString
  sourceIp : Option CString
  sourceLabelsJson : Option CString
  destPod : CString
  destNamespace : CString
  destIp : Option CString
  destLabelsJson : Option CString
  port : Int
  protocol : CString
  direction : CString

def ingress : CString := CString.ofString "ingress"

def egress : CString := CString.ofString "egress"

/-- `k8s_policy_enforcer_t`. -/
structure Enforcer where
  policies : List Policy
  defaultDenyIngress : Bool
  defaultDenyEgress : Bool

/-- `k8s_policy_result_t`. -/
inductive PolicyResult where
  | allow
  | deny
  | noPolicy
  deriving DecidableEq

/-! ## Evaluation -/

/-- `k8s_cidr_contains_ip`: the text before the slash begins the IP. -/
def cidrContainsIp (cidr ip : CString) : Bool :=
  match CString.strchr 47 cidr with
  | none => cidr == ip
  | some (network, _) => network.isPrefixOf ip

section

variable (selectorMatches : LabelSelector → CString → Bool)

/-- `k8s_policy_matches_pod`. -/
def policyMatchesPod (policy : Policy) (flow : Flow) (isSource : Bool) : Bool :=
  let checkNs := if isSource then flow.sourceNamespace else flow.destNamespace
  let labels := if isSource then flow.sourceLabelsJson else flow.destLabelsJson
  checkNs == policy.ns &&
    labels.any fun labels => policy.spec.any fun spec => selectorMatches spec.podSelector labels

/-- Is the peer the other end of the flow? -/
def peerMatches (flow : Flow) (peer : Peer) : Bool :=
  let checkIp := if flow.direction = ingress then flow.sourceIp else flow.destIp
  let labels := if flow.direction = ingress then flow.sourceLabelsJson else flow.destLabelsJson
  (peer.cidrBlock.any fun cidr => checkIp.any (cidrContainsIp cidr)) ||
    peer.podSelector.any fun selector => labels.any (selectorMatches selector)

/-- `k8s_rule_allows_traffic`. -/
def ruleAllowsTraffic (flow : Flow) : Option Rule → Bool
  | none => true
  | some rule =>
    (rule.ports.isEmpty ||
      rule.ports.any fun port => port.any fun p => p.port == flow.port && p.protocol == flow.protocol) &&
    (rule.peers.isEmpty || rule.peers.any fun peer => peer.any (peerMatches selectorMatches flow))

/-- The rules for the direction of the flow. -/
def Policy.rules (policy : Policy) (flow : Flow) : List (Option Rule) :=
  match policy.spec with
  | none => []
  | some spec =>
    if flow.direction = ingress then spec.ingressRules
    else if flow.direction = egress then spec.egressRules
    else []

/-- Does a rule of the policy allow the flow? -/
def Policy.allows (flow : Flow) (policy : Policy) : Bool :=
  (policy.rules flow).any (ruleAllowsTraffic selectorMatches flow)

/-- Does the loop come to the rules of the policy? -/
def consults (flow : Flow) (policy : Policy) : Bool :=
  policy.spec.isSome && policyMatchesPod selectorMatches policy flow false

/-- The loop of `k8s_policy_enforcer_evaluate`: `policy_found` and `allowed`. -/
def evaluateLoop (flow : Flow) : List Policy → Bool → Bool × Bool
  | [], found => (found, false)
  | policy :: policies, found =>
    if consults selectorMatches flow policy then
      if policy.allows selectorMatches flow then (true, true) else evaluateLoop flow policies true
    else evaluateLoop flow policies found

/-- Is the direction of the flow denied by default? -/
def Enforcer.defaultDenies (e : Enforcer) (flow : Flow) : Bool :=
  (flow.direction == ingress && e.defaultDenyIngress) || (flow.direction == egress && e.defaultDenyEgress)

/-- `k8s_policy_enforcer_evaluate`. -/
def evaluate (e : Enforcer) (flow : Flow) : PolicyResult :=
  match evaluateLoop selectorMatches flow e.policies false with
  | (true, allowed) => if allowed then .allow else .deny
  | (false, _) => if e.defaultDenies flow then .deny else .allow

/-! ## The right end -/

/-- The policy selects the end of the flow that its direction protects: the source of an egress flow, the
destination of an ingress flow. -/
def Selects (flow : Flow) (policy : Policy) : Prop :=
  policy.spec.isSome = true ∧ policyMatchesPod selectorMatches policy flow (flow.direction == egress) = true

/-- **The right end of the flow is protected.** -/
structure Protects (e : Enforcer) (flow : Flow) : Prop where
  /-- The policies that are consulted are those that select this end. -/
  consulted : ∀ policy ∈ e.policies, consults selectorMatches flow policy = true ↔ Selects selectorMatches flow policy
  /-- One of them allows the flow, or there is none and the direction is not denied by default. -/
  allow : evaluate selectorMatches e flow = .allow ↔
    (∃ policy ∈ e.policies, Selects selectorMatches flow policy ∧
      ∃ rule ∈ policy.rules flow, ruleAllowsTraffic selectorMatches flow rule = true) ∨
    (∀ policy ∈ e.policies, ¬ Selects selectorMatches flow policy) ∧ e.defaultDenies flow = false
  /-- The order of the policies does not matter. -/
  order : ∀ policies : List Policy, policies.Perm e.policies →
    evaluate selectorMatches { e with policies := policies } flow = evaluate selectorMatches e flow

/-- The policy selects the destination exactly if it selects the source. -/
def SameEnds (flow : Flow) (policy : Policy) : Prop :=
  policyMatchesPod selectorMatches policy flow false = true ↔ policyMatchesPod selectorMatches policy flow true = true

end

variable {selectorMatches : LabelSelector → CString → Bool} {e : Enforcer} {flow : Flow} {policy : Policy}

/-- **What the loop finds**: a policy that is consulted, and one that allows the flow. -/
theorem evaluateLoop_eq {policies : List Policy} {found : Bool} :
    evaluateLoop selectorMatches flow policies found =
      (found || policies.any (consults selectorMatches flow),
        policies.any fun policy => consults selectorMatches flow policy && policy.allows selectorMatches flow) := by
  induction policies generalizing found with
  | nil => simp [evaluateLoop]
  | cons policy policies ih =>
    unfold evaluateLoop
    by_cases hconsults : consults selectorMatches flow policy = true
    · by_cases hallows : policy.allows selectorMatches flow = true
      · simp [hconsults, hallows]
      · simp [hconsults, hallows, ih]
    · simp [hconsults, ih]

/-- **The answer in terms of the policies that are consulted.** -/
theorem evaluate_eq_allow_iff : evaluate selectorMatches e flow = .allow ↔
    (∃ policy ∈ e.policies, consults selectorMatches flow policy = true ∧
      ∃ rule ∈ policy.rules flow, ruleAllowsTraffic selectorMatches flow rule = true) ∨
    (∀ policy ∈ e.policies, consults selectorMatches flow policy = false) ∧ e.defaultDenies flow = false := by
  unfold evaluate
  rw [evaluateLoop_eq, Bool.false_or]
  cases hfound : e.policies.any (consults selectorMatches flow) with
  | false =>
    have hnone : ∀ policy ∈ e.policies, consults selectorMatches flow policy = false := by simpa using hfound
    have hsome : ¬ ∃ policy ∈ e.policies, consults selectorMatches flow policy = true ∧
        ∃ rule ∈ policy.rules flow, ruleAllowsTraffic selectorMatches flow rule = true := by
      rintro ⟨policy, hpolicy, hconsults, -⟩
      simp [hnone policy hpolicy] at hconsults
    rw [or_iff_right hsome, and_iff_right hnone]
    cases e.defaultDenies flow <;> simp
  | true =>
    obtain ⟨policy, hpolicy, hconsults⟩ := List.any_eq_true.mp hfound
    have hnot : ¬ ∀ policy ∈ e.policies, consults selectorMatches flow policy = false := by
      intro hnone
      simp [hnone policy hpolicy] at hconsults
    simp [hnot, Policy.allows]

/-- The order of the policies does not matter, in no direction. -/
theorem evaluate_perm {policies : List Policy} (h : policies.Perm e.policies) :
    evaluate selectorMatches { e with policies := policies } flow = evaluate selectorMatches e flow := by
  have hany : ∀ p : Policy → Bool, policies.any p = e.policies.any p := fun p => by
    rw [Bool.eq_iff_iff, List.any_eq_true, List.any_eq_true]
    exact exists_congr fun policy => and_congr_left fun _ => h.mem_iff
  unfold evaluate
  rw [evaluateLoop_eq, evaluateLoop_eq, hany, hany]
  rfl

theorem consults_eq_selects_of_ingress (hdir : flow.direction = ingress) :
    consults selectorMatches flow policy = true ↔ Selects selectorMatches flow policy := by
  have hne : (flow.direction == egress) = false := by
    rw [hdir]
    rfl
  simp [consults, Selects, hne]

/-- **The right end is protected, exactly** for ingress flows, and for the egress flows whose destination is
selected by the policies that select their source. -/
theorem protects_iff (hdir : flow.direction = ingress ∨ flow.direction = egress) :
    Protects selectorMatches e flow ↔
      (flow.direction = egress → ∀ policy ∈ e.policies, policy.spec.isSome = true →
        SameEnds selectorMatches flow policy) := by
  constructor
  · intro h heg policy hpolicy hspec
    have hconsulted := h.consulted policy hpolicy
    simpa [consults, Selects, SameEnds, hspec, heg] using hconsulted
  · intro h
    have hconsulted : ∀ policy ∈ e.policies,
        (consults selectorMatches flow policy = true ↔ Selects selectorMatches flow policy) := by
      intro policy hpolicy
      rcases hdir with hin | heg
      · exact consults_eq_selects_of_ingress hin
      · unfold consults Selects
        rw [Bool.and_eq_true, heg, beq_self_eq_true]
        exact and_congr_right (h heg policy hpolicy)
    refine ⟨hconsulted, ?_, fun policies => evaluate_perm⟩
    rw [evaluate_eq_allow_iff]
    refine or_congr ?_ (and_congr_left' (forall₂_congr fun policy hpolicy => ?_))
    · exact exists_congr fun policy => and_congr_right fun hpolicy => and_congr_left' (hconsulted policy hpolicy)
    · rw [← hconsulted policy hpolicy, Bool.not_eq_true]

/-! ## An egress flow to another namespace -/

/-- A policy that selects every pod of a namespace and allows nothing. -/
def denyAll (ns : CString) : Policy := ⟨"deny-all", ns, some ⟨⟨[], []⟩, [], []⟩⟩

/-- Traffic from a pod of `team-a` to one of another namespace. -/
def flowTo (ns direction : CString) : Flow where
  sourcePod := "web"
  sourceNamespace := "team-a"
  sourceIp := none
  sourceLabelsJson := some "\x7b\"app\":\"web\"\x7d"
  destPod := "db"
  destNamespace := ns
  destIp := none
  destLabelsJson := some "\x7b\"app\":\"db\"\x7d"
  port := 5432
  protocol := "TCP"
  direction := direction

theorem ingress_protects : Protects (fun _ _ => true) ⟨[denyAll "team-b"], false, false⟩ (flowTo "team-b" ingress) :=
  (protects_iff (.inl rfl)).mpr fun h => absurd h (by decide)

/-- **An egress flow leaves a namespace that denies it**: the policy of the source is not consulted. -/
theorem denied_egress_allowed :
    ¬ ∀ (selectorMatches : LabelSelector → CString → Bool) (e : Enforcer) (flow : Flow),
      flow.direction = ingress ∨ flow.direction = egress → Protects selectorMatches e flow := by
  intro h
  have hallow := (h (fun _ _ => true) ⟨[denyAll "team-a"], false, false⟩ (flowTo "team-b" egress) (.inr rfl)).allow
  have hselects : Selects (fun _ _ => true) (flowTo "team-b" egress) (denyAll "team-a") := ⟨rfl, rfl⟩
  rcases hallow.mp rfl with ⟨policy, hpolicy, -, rule, hrule, -⟩ | ⟨hnone, -⟩
  · rw [List.mem_singleton.mp hpolicy] at hrule
    exact absurd hrule List.not_mem_nil
  · exact hnone _ List.mem_cons_self hselects

end Sirah.NetworkPolicy
