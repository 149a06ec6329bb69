import Sirah.Lib.Json

/-!
# The ingress verdict of the network controller

Model of `network_evaluate_ingress_rules` in `internal/controller/network_controller.c`: may a pod be reached from another
one on a port? The cached policies are asked one after the other.

* `getPod` stands for `network_get_pod`, the NULL pointer is `Json.null`. `render` is `json_object_to_json_string`.
* The text of a label is what `sscanf` reads of it: `readLabel`. `Carries` is what it says of a pod.
* `Allowed`: no policy of the namespace selects the destination, or a selecting one has a rule that admits the source.
  `rightVerdict_iff` says when the verdict is that: the first policy that selects the destination and either has no rules,
  or one that fits labels and port, decides. Without such a policy every pod is let in, and namespaces are not asked for.
* `fallen_through`: a pod that no rule admits is let in.
-/

namespace Sirah.NetworkController

/-! ## Data -/

/-- `network_policy_rule_t`: what is about ingress. -/
structure Rule where
  fromNamespaces : List CString
  fromPodLabels : List CString
  toPorts : List Int
  deriving DecidableEq

/-- `cached_network_policy_t`. -/
structure CachedPolicy where
  ns : CString
  podSelectorLabels : List CString
  ingressRules : List Rule
  deriving DecidableEq

/-- The arguments of `network_evaluate_ingress_rules`. -/
structure Flow where
  destPodName : CString
  destNamespace : CString
  sourcePodName : CString
  sourceNamespace : CString
  port : Int
  deriving DecidableEq

/-! ## Labels -/

/-- `isspace`, as `sscanf` has it. -/
def isSpace (c : UInt8) : Bool := (9 ≤ c && c ≤ 13) || c = 32

/-- `sscanf(selector, "%255[^=]=%255s", key, value)`, if both are read. -/
def readLabel (selector : CString) : Option (CString × CString) :=
  let key := (selector.takeWhile (· ≠ 61)).take 255
  let value := (((selector.drop (key.length + 1)).dropWhile isSpace).takeWhile (!isSpace ·)).take 255
  if key ≠ [] ∧ selector[key.length]? = some 61 ∧ value ≠ [] then some (key, value) else none

variable (render : Json → CString)

/-- The loop of `network_pod_matches_labels`. -/
def matchesLabelsLoop (podLabelsObj : Json) : List CString → Bool
  | [] => true
  | selector :: rest =>
    match readLabel selector with
    | none => false
    | some (key, value) =>
      match podLabelsObj.getEx key with
      | none => false
      | some podLabelValue =>
        if podLabelValue.getString render = some value then matchesLabelsLoop podLabelsObj rest else false

/-- `network_pod_matches_labels`. -/
def podMatchesLabels (pod : Json) (selectorLabels : List CString) : Bool :=
  match pod, selectorLabels with
  | .null, _ => true
  | _, [] => true
  | pod, selectorLabels =>
    match pod.getEx "metadata" with
    | none => false
    | some metadata =>
      match metadata.getEx "labels" with
      | none => false
      | some podLabelsObj => matchesLabelsLoop render podLabelsObj selectorLabels

/-! ## The verdict -/

variable (getPod : CString → CString → Json) (flow : Flow)

/-- The checks of one rule. -/
def ruleAllows (rule : Rule) : Bool :=
  (rule.fromPodLabels.isEmpty ||
    match getPod flow.sourcePodName flow.sourceNamespace with
    | .null => false
    | sourcePod => podMatchesLabels render sourcePod rule.fromPodLabels) &&
  (rule.toPorts.isEmpty || decide (flow.port ∈ rule.toPorts))

/-- The policy applies to the destination. -/
def targets (policy : CachedPolicy) : Bool :=
  decide (policy.ns = flow.destNamespace) &&
    match getPod flow.destPodName flow.destNamespace with
    | .null => false
    | destPod => podMatchesLabels render destPod policy.podSelectorLabels

/-- `network_evaluate_ingress_rules`. -/
def evaluateIngressRules : List CachedPolicy → Int
  | [] => 1
  | policy :: rest =>
    if targets render getPod flow policy then
      if policy.ingressRules.isEmpty then 0
      else if policy.ingressRules.any (ruleAllows render getPod flow) then 1
      else evaluateIngressRules rest
    else evaluateIngressRules rest

/-! ## What the verdict should be -/

/-- The label of a pod. -/
def podLabel (pod : Json) (key : CString) : Option CString := do
  let metadata ← pod.getEx "metadata"
  let labels ← metadata.getEx "labels"
  let label ← labels.getEx key
  label.getString render

/-- The pod carries the label. -/
def Carries (pod : Json) (label : CString) : Prop :=
  ∃ key value, readLabel label = some (key, value) ∧ podLabel render pod key = some value

/-- The policy selects the destination. -/
structure Selects (policy : CachedPolicy) : Prop where
  ns : policy.ns = flow.destNamespace
  labels : ∀ label ∈ policy.podSelectorLabels, Carries render (getPod flow.destPodName flow.destNamespace) label

/-- The rule admits the source. -/
structure Admits (rule : Rule) : Prop where
  namespaces : rule.fromNamespaces ≠ [] → flow.sourceNamespace ∈ rule.fromNamespaces
  labels : ∀ label ∈ rule.fromPodLabels, Carries render (getPod flow.sourcePodName flow.sourceNamespace) label
  ports : rule.toPorts ≠ [] → flow.port ∈ rule.toPorts

/-- A policy lets the source in. -/
def LetIn (policies : List CachedPolicy) : Prop :=
  ∃ policy ∈ policies, Selects render getPod flow policy ∧ ∃ rule ∈ policy.ingressRules, Admits render getPod flow rule

/-- **The union of the policies.** -/
def Allowed (policies : List CachedPolicy) : Prop :=
  (∀ policy ∈ policies, ¬ Selects render getPod flow policy) ∨ LetIn render getPod flow policies

/-- The policy ends the loop: it has no rules, or one that fits labels and port. -/
def decides (policy : CachedPolicy) : Bool :=
  targets render getPod flow policy &&
    (policy.ingressRules.isEmpty || policy.ingressRules.any (ruleAllows render getPod flow))

/-- The condition on the policies. -/
def DecidedRight (policies : List CachedPolicy) : Prop :=
  match policies.find? (decides render getPod flow) with
  | none => ∀ policy ∈ policies, ¬ Selects render getPod flow policy
  | some policy => policy.ingressRules ≠ [] ↔ LetIn render getPod flow policies

variable {render getPod flow}

/-! ## Reading labels -/

/-- **A label `key=value`** whose parts fit their buffers is read as it is written. -/
theorem readLabel_text {key value : CString} (hkey : key ≠ []) (hkey_le : key.length ≤ 255) (heq : 61 ∉ key)
    (hvalue : value ≠ []) (hvalue_le : value.length ≤ 255) (hblank : ∀ c ∈ value, isSpace c = false) :
    readLabel (key ++ 61 :: value) = some (key, value) := by
  have htake : (key ++ 61 :: value).takeWhile (· ≠ 61) = key := by
    rw [List.takeWhile_append_of_pos fun c hc => decide_eq_true (ne_of_mem_of_not_mem hc heq)]
    simp
  have hdrop : (key ++ 61 :: value).drop (key.length + 1) = value := by
    rw [List.drop_append]
    simp
  have hstart : value.dropWhile isSpace = value := by
    cases value with
    | nil => rfl
    | cons c rest => exact List.dropWhile_cons_of_neg (by simp [hblank c List.mem_cons_self])
  have hend : value.takeWhile (!isSpace ·) = value := by
    rw [List.takeWhile_eq_self_iff]
    exact fun c hc => by simp [hblank c hc]
  unfold readLabel
  rw [htake, List.take_of_length_le hkey_le]
  dsimp only
  rw [hdrop, hstart, hend, List.take_of_length_le hvalue_le]
  simp [hkey, hvalue]

theorem matchesLabelsLoop_iff {podLabelsObj : Json} {selectorLabels : List CString} :
    matchesLabelsLoop render podLabelsObj selectorLabels = true ↔ ∀ label ∈ selectorLabels, ∃ key value,
      readLabel label = some (key, value) ∧ (podLabelsObj.getEx key).bind (Json.getString render) = some value := by
  induction selectorLabels with
  | nil => simp [matchesLabelsLoop]
  | cons label rest ih =>
    rw [List.forall_mem_cons, ← ih, matchesLabelsLoop]
    cases readLabel label with
    | none => simp
    | some parts =>
      obtain ⟨key, value⟩ := parts
      cases hget : podLabelsObj.getEx key with
      | none => simp [hget]
      | some podLabelValue =>
        by_cases htext : podLabelValue.getString render = some value
        · simp [hget, htext]
        · simp [hget, htext]

/-- **The test of the labels** is whether the pod carries them all. -/
theorem podMatchesLabels_iff {pod : Json} (hpod : pod ≠ .null) {selectorLabels : List CString} :
    podMatchesLabels render pod selectorLabels = true ↔ ∀ label ∈ selectorLabels, Carries render pod label := by
  cases selectorLabels with
  | nil => cases pod <;> simp [podMatchesLabels]
  | cons label rest =>
    have hunfold : podMatchesLabels render pod (label :: rest) =
        match pod.getEx "metadata" with
        | none => false
        | some metadata =>
          match metadata.getEx "labels" with
          | none => false
          | some podLabelsObj => matchesLabelsLoop render podLabelsObj (label :: rest) := by
      cases pod with
      | null => exact absurd rfl hpod
      | _ => rfl
    rw [hunfold]
    cases hmetadata : pod.getEx "metadata" with
    | none =>
      refine iff_of_false Bool.false_ne_true fun h => ?_
      obtain ⟨key, value, -, hlabel⟩ := h label List.mem_cons_self
      simp [podLabel, hmetadata] at hlabel
    | some metadata =>
      cases hlabels : metadata.getEx "labels" with
      | none =>
        refine iff_of_false (by simp [hlabels]) fun h => ?_
        obtain ⟨key, value, -, hlabel⟩ := h label List.mem_cons_self
        simp [podLabel, hmetadata, hlabels] at hlabel
      | some podLabelsObj => simp [matchesLabelsLoop_iff, Carries, podLabel, hmetadata, hlabels, Option.bind_eq_bind]

/-! ## The loop -/

theorem targets_iff (hdest : getPod flow.destPodName flow.destNamespace ≠ .null) {policy : CachedPolicy} :
    targets render getPod flow policy = true ↔ Selects render getPod flow policy := by
  have hmatch : (match getPod flow.destPodName flow.destNamespace with
      | .null => false
      | destPod => podMatchesLabels render destPod policy.podSelectorLabels) =
      podMatchesLabels render (getPod flow.destPodName flow.destNamespace) policy.podSelectorLabels := by
    split
    · rename_i hnull
      exact absurd hnull hdest
    · rfl
  rw [targets, hmatch, Bool.and_eq_true, decide_eq_true_iff, podMatchesLabels_iff hdest]
  exact ⟨fun ⟨hns, hlabels⟩ => ⟨hns, hlabels⟩, fun h => ⟨h.ns, h.labels⟩⟩

/-- A rule that admits the source passes the checks: they are fewer. -/
theorem ruleAllows_of_admits (hsource : getPod flow.sourcePodName flow.sourceNamespace ≠ .null) {rule : Rule}
    (h : Admits render getPod flow rule) : ruleAllows render getPod flow rule = true := by
  unfold ruleAllows
  rw [Bool.and_eq_true, Bool.or_eq_true, Bool.or_eq_true]
  constructor
  · right
    split
    · rename_i hnull
      exact absurd hnull hsource
    · exact (podMatchesLabels_iff hsource).mpr h.labels
  · by_cases hports : rule.toPorts = []
    · exact .inl (List.isEmpty_iff.mpr hports)
    · exact .inr (decide_eq_true (h.ports hports))

/-- **The first policy that decides** gives the verdict. -/
theorem evaluateIngressRules_eq (policies : List CachedPolicy) :
    evaluateIngressRules render getPod flow policies =
      match policies.find? (decides render getPod flow) with
      | none => 1
      | some policy => if policy.ingressRules.isEmpty then 0 else 1 := by
  induction policies with
  | nil => rfl
  | cons policy rest ih =>
    unfold evaluateIngressRules
    by_cases htargets : targets render getPod flow policy = true
    · by_cases hempty : policy.ingressRules.isEmpty = true
      · simp [decides, htargets, hempty]
      · by_cases hany : policy.ingressRules.any (ruleAllows render getPod flow) = true
        · simp [decides, htargets, hempty, hany]
        · simp [decides, htargets, hempty, hany, ih]
    · simp [decides, htargets, ih]

/-- What should be the verdict does not depend on the order of the policies. -/
theorem allowed_perm {policies policies' : List CachedPolicy} (h : policies.Perm policies') :
    Allowed render getPod flow policies ↔ Allowed render getPod flow policies' := by
  simp only [Allowed, LetIn, h.mem_iff]

/-- **The verdict is right, exactly** under the condition. -/
theorem rightVerdict_iff (policies : List CachedPolicy)
    (hdest : getPod flow.destPodName flow.destNamespace ≠ .null)
    (hsource : getPod flow.sourcePodName flow.sourceNamespace ≠ .null) :
    (evaluateIngressRules render getPod flow policies = 1 ↔ Allowed render getPod flow policies) ↔
      DecidedRight render getPod flow policies := by
  unfold DecidedRight
  rw [evaluateIngressRules_eq]
  cases hfind : policies.find? (decides render getPod flow) with
  | none =>
    have hnone : ¬ LetIn render getPod flow policies := by
      rintro ⟨policy, hpolicy, hselects, rule, hrule, hadmits⟩
      have hany : policy.ingressRules.any (ruleAllows render getPod flow) = true :=
        List.any_eq_true.mpr ⟨rule, hrule, ruleAllows_of_admits hsource hadmits⟩
      refine List.find?_eq_none.mp hfind policy hpolicy ?_
      simp [decides, (targets_iff hdest).mpr hselects, hany]
    simp [Allowed, hnone]
  | some policy =>
    have hdecides := List.find?_some hfind
    unfold decides at hdecides
    rw [Bool.and_eq_true, targets_iff hdest] at hdecides
    have hselected : ¬ ∀ policy ∈ policies, ¬ Selects render getPod flow policy :=
      fun h => h policy (List.mem_of_find?_eq_some hfind) hdecides.1
    have hverdict : (if policy.ingressRules.isEmpty then (0 : Int) else 1) = 1 ↔ policy.ingressRules ≠ [] := by
      cases policy.ingressRules <;> simp
    dsimp only
    rw [hverdict, Allowed, or_iff_right hselected]

/-- Two pods of one namespace, and a policy that lets one of them in. -/
theorem rightVerdict_iff_web :
    evaluateIngressRules (fun _ => []) (fun name _ => .obj [("metadata", .obj [("labels", .obj [("app", .str name)])])])
      ⟨"db", "a", "web", "a", 5432⟩ [⟨"a", ["app=db"], [⟨["a"], ["app=web"], [5432]⟩]⟩] = 1 ↔
    Allowed (fun _ => []) (fun name _ => .obj [("metadata", .obj [("labels", .obj [("app", .str name)])])])
      ⟨"db", "a", "web", "a", 5432⟩ [⟨"a", ["app=db"], [⟨["a"], ["app=web"], [5432]⟩]⟩] := by
  refine (rightVerdict_iff _ (by simp) (by simp)).mpr ?_
  have hcarries : ∀ name label : CString, readLabel label = some (("app" : CString), name) →
      Carries (fun _ => []) (.obj [("metadata", .obj [("labels", .obj [("app", .str name)])])]) label :=
    fun name label hread => ⟨"app", name, hread, rfl⟩
  refine iff_of_true (by decide) ⟨_, List.mem_singleton_self _, ⟨rfl, ?_⟩, _, List.mem_singleton_self _, ?_, ?_, ?_⟩
  · simpa using hcarries "db" "app=db" (by decide)
  · simp
  · simpa using hcarries "web" "app=web" (by decide)
  · simp

/-- **A pod that no rule admits** is let in behind the last policy. -/
theorem fallen_through : ¬ ∀ (render : Json → CString) (getPod : CString → CString → Json) (flow : Flow)
    (policies : List CachedPolicy), getPod flow.destPodName flow.destNamespace ≠ .null →
    getPod flow.sourcePodName flow.sourceNamespace ≠ .null →
    (evaluateIngressRules render getPod flow policies = 1 ↔ Allowed render getPod flow policies) := by
  intro h
  have hright := (h (fun _ => []) (fun _ _ => .obj []) ⟨"db", "a", "web", "a", 80⟩ [⟨"a", [], [⟨[], [], [5432]⟩]⟩]
    nofun nofun).mp (by decide)
  rcases hright with hnone | ⟨policy, hpolicy, -, rule, hrule, hadmits⟩
  · exact hnone _ (List.mem_singleton_self _) ⟨rfl, nofun⟩
  · rw [List.mem_singleton.mp hpolicy] at hrule
    rw [List.mem_singleton.mp hrule] at hadmits
    exact absurd (hadmits.ports (by simp)) (by decide)

end Sirah.NetworkController
