import Sirah.Lib.CString
import Sirah.Lib.Represents
import Sirah.Lib.Run
import Sirah.Lib.Streak
import Sirah.Lib.Window

/-!
# The health of nodes

Model of the registration of nodes and of their health in `internal/controller/node_lifecycle_controller.c`. A record
has a status, a counter of unhealthy reports, the time of the last heartbeat, and the last ten reports. While there are
fewer than ten, a report sets the status and the counter. From then on it only moves the reports on.

* `History` is what the accepted calls say of a node: when it last gave a sign of life, and all of its reports.
* `Follows`: at every later time `getHealth` answers what the history says, the counter is the streak of unhealthy
  reports, and the reports that are stored are the last ten.
* `Tracked`: the invariant. The table represents the history.

**`health_follows_iff`**: along a run the health follows the latest report **iff** every name that is registered fits its
array and every report behind the tenth one is healthy and comes behind a healthy one. `stays_healthy`: an unhealthy
report behind ten healthy ones changes nothing.
-/

namespace Sirah.NodeLifecycle

open Runs Streak KeyedRecords CString

/-! ## Records -/

/-- `NODE_MAX_NODES`. -/
def maxNodes : Nat := 1024

/-- `NODE_HEARTBEAT_TIMEOUT`, in seconds. -/
def heartbeatTimeout : Int := 30

/-- The size of `health_metrics`. -/
def maxMetrics : Nat := 10

/-- `node_health_status_t`. -/
inductive HealthStatus where
  | unknown
  | healthy
  | unhealthy
  | offline
  deriving DecidableEq

/-- What a report says, and when it comes. -/
structure Report where
  timestamp : Int
  cpuAvailablePercent : Int
  memoryAvailablePercent : Int
  diskAvailablePercent : Int

/-- `node_health_metric_t`. -/
structure HealthMetric extends Report where
  readyPodCount : Int
  totalPodCount : Int
  reason : CString

/-- `node_lifecycle_record_t`. The first `metric_count` entries of `health_metrics` are a list. -/
structure NodeRecord where
  name : CString
  healthStatus : HealthStatus
  consecutiveUnhealthyChecks : Nat
  totalPods : Int
  readyPods : Int
  lastHeartbeat : Int
  healthMetrics : List HealthMetric

/-- Are the percentages in range? -/
def Report.inRange (r : Report) : Bool :=
  decide (0 ≤ r.cpuAvailablePercent ∧ r.cpuAvailablePercent ≤ 100) &&
    decide (0 ≤ r.memoryAvailablePercent ∧ r.memoryAvailablePercent ≤ 100) &&
      decide (0 ≤ r.diskAvailablePercent ∧ r.diskAvailablePercent ≤ 100)

/-- Is more than a tenth of everything available? -/
def Report.enough (r : Report) : Bool :=
  decide (r.cpuAvailablePercent > 10) && decide (r.memoryAvailablePercent > 10) && decide (r.diskAvailablePercent > 10)

/-- The metric that is stored for a report. -/
def NodeRecord.metric (node : NodeRecord) (r : Report) (reason : CString) : HealthMetric where
  toReport := r
  readyPodCount := node.readyPods
  totalPodCount := node.totalPods
  reason := reason

/-- What a report does to its record. -/
def NodeRecord.updateHealth (node : NodeRecord) (r : Report) : NodeRecord :=
  if node.healthMetrics.length < maxMetrics then
    if r.enough then
      { node with
        consecutiveUnhealthyChecks := if node.healthStatus ≠ .healthy then 0 else node.consecutiveUnhealthyChecks
        healthStatus := .healthy
        healthMetrics := node.healthMetrics ++ [node.metric r "All resources available"] }
    else
      { node with
        consecutiveUnhealthyChecks := node.consecutiveUnhealthyChecks + 1
        healthStatus := .unhealthy
        healthMetrics := node.healthMetrics ++ [node.metric r "Low available resources"] }
  else
    -- the last metric is overwritten, but for its counts and its reason
    { node with
      healthMetrics :=
        node.healthMetrics.tail ++ node.healthMetrics.getLast?.toList.map fun m => { m with toReport := r } }

/-- What a heartbeat does to its record. -/
def NodeRecord.heartbeat (node : NodeRecord) (now : Int) : NodeRecord :=
  if node.healthStatus = .offline then
    { node with lastHeartbeat := now, healthStatus := .unknown, consecutiveUnhealthyChecks := 0 }
  else { node with lastHeartbeat := now }

/-! ## The table -/

/-- The loop over the nodes: the first one of the name is changed. -/
def changeNode (nodes : List NodeRecord) (name : CString) (change : NodeRecord → NodeRecord) : List NodeRecord × Int :=
  match nodes.splitFirst fun node => decide (node.name = name) with
  | some (pre, node, post) => (pre ++ change node :: post, 0)
  | none => (nodes, -1)

/-- `node_lifecycle_register_node`. The array is `char name[256]`. -/
def registerNode (nodes : List NodeRecord) (name : CString) (now : Int) : List NodeRecord × Int :=
  if name = [] then (nodes, -1)
  else if nodes.any fun node => decide (node.name = name) then (nodes, 0)
  else if nodes.length ≥ maxNodes then (nodes, -1)
  else (nodes ++ [⟨name.take 255, .unknown, 0, 0, 0, now, []⟩], 0)

/-- `node_lifecycle_unregister_node`. -/
def unregisterNode (nodes : List NodeRecord) (name : CString) : List NodeRecord × Int :=
  if name = [] then (nodes, -1)
  else
    match nodes.splitFirst fun node => decide (node.name = name) with
    | some (pre, _, post) => (pre ++ post, 0)
    | none => (nodes, -1)

/-- `node_lifecycle_node_heartbeat`. -/
def nodeHeartbeat (nodes : List NodeRecord) (name : CString) (now : Int) : List NodeRecord × Int :=
  if name = [] then (nodes, -1)
  else changeNode nodes name fun node => node.heartbeat now

/-- `node_lifecycle_update_health`. -/
def updateHealth (nodes : List NodeRecord) (name : CString) (r : Report) : List NodeRecord × Int :=
  if name = [] then (nodes, -1)
  else if r.inRange = false then (nodes, -1)
  else changeNode nodes name fun node => node.updateHealth r

/-- The loop over the nodes: the first one of the name. -/
def findNode (nodes : List NodeRecord) (name : CString) : Option NodeRecord :=
  nodes.find? fun node => decide (node.name = name)

/-- `node_lifecycle_get_health`: the status, and what is written to a buffer for the reason. -/
def getHealth (nodes : List NodeRecord) (name : CString) (now : Int) (reasonLen : Nat) :
    Option (HealthStatus × Option CString) :=
  (findNode nodes name).map fun node =>
    if now - node.lastHeartbeat > heartbeatTimeout then
      (.offline, some (snprintf reasonLen
        (ofString "No heartbeat for " ++ ofInt (now - node.lastHeartbeat) ++ ofString " seconds")))
    else (node.healthStatus, node.healthMetrics.getLast?.map fun m => m.reason.take (reasonLen - 1))

/-! ## What the calls say -/

/-- What is known of a registered node. Its registration is its first sign of life. -/
structure History where
  lastHeartbeat : Int
  reports : List Report

/-- The status by the most recent report. -/
def History.reported (h : History) : HealthStatus :=
  match h.reports.getLast? with
  | none => .unknown
  | some r => if r.enough then .healthy else .unhealthy

/-- The status at a time. -/
def History.health (h : History) (now : Int) : HealthStatus :=
  if now - h.lastHeartbeat > heartbeatTimeout then .offline else h.reported

def isUnhealthy (r : Report) : Bool := !r.enough

inductive Call where
  | register (name : CString) (now : Int)
  | unregister (name : CString) (now : Int)
  | heartbeat (name : CString) (now : Int)
  | report (name : CString) (r : Report)

def Call.now : Call → Int
  | .register _ now => now
  | .unregister _ now => now
  | .heartbeat _ now => now
  | .report _ r => r.timestamp

def apply (nodes : List NodeRecord) : Call → List NodeRecord × Int
  | .register name now => registerNode nodes name now
  | .unregister name _ => unregisterNode nodes name
  | .heartbeat name now => nodeHeartbeat nodes name now
  | .report name r => updateHealth nodes name r

/-- What a call that is accepted says. -/
def note (history : CString → Option History) : Call → CString → Option History
  | .register name now => Function.update history name (some ((history name).getD ⟨now, []⟩))
  | .unregister name _ => Function.update history name none
  | .heartbeat name now => Function.update history name ((history name).map fun h => { h with lastHeartbeat := now })
  | .report name r => Function.update history name ((history name).map fun h => { h with reports := h.reports ++ [r] })

/-- The table, what the calls have said so far, and the time of the last one. -/
structure World where
  nodes : List NodeRecord
  history : CString → Option History
  clock : Int

def World.empty : World := ⟨[], fun _ => none, 0⟩

def step (w : World) (call : Call) : World where
  nodes := (apply w.nodes call).1
  history := if (apply w.nodes call).2 = 0 then note w.history call else w.history
  clock := call.now

/-- **The health follows the latest report.** -/
structure Follows (w : World) : Prop where
  health : ∀ name now reasonLen, w.clock ≤ now →
    (getHealth w.nodes name now reasonLen).map Prod.fst = (w.history name).map fun h => h.health now
  checks : ∀ name, (findNode w.nodes name).map NodeRecord.consecutiveUnhealthyChecks =
    (w.history name).map fun h => trailing isUnhealthy h.reports
  metrics : ∀ name, ((findNode w.nodes name).map fun node => node.healthMetrics.map HealthMetric.toReport) =
    (w.history name).map fun h => h.reports.drop (h.reports.length - maxMetrics)

/-- A new name fits its array, and a report to a node with ten reports is healthy, as is the one before it. -/
def Allowed (w : World) : Call → Prop
  | .register name _ => name ≠ [] → w.history name = none → w.nodes.length < maxNodes → name.length ≤ 255
  | .report name r => name ≠ [] → r.inRange = true → ∀ h, w.history name = some h → maxMetrics ≤ h.reports.length →
      h.reported = .healthy ∧ r.enough = true
  | _ => True

variable {w : World} {nodes : List NodeRecord} {history : CString → Option History} {node : NodeRecord} {h : History}
  {name : CString} {r : Report}

/-! ## One record -/

/-- **What a record shows** of the history of its node. -/
structure Tracks (node : NodeRecord) (h : History) : Prop where
  heartbeat : node.lastHeartbeat = h.lastHeartbeat
  status : node.healthStatus = h.reported
  checks : node.consecutiveUnhealthyChecks = trailing isUnhealthy h.reports
  metrics : node.healthMetrics.map HealthMetric.toReport = h.reports.drop (h.reports.length - maxMetrics)

theorem reported_concat (last : Int) (rs : List Report) (r : Report) :
    History.reported ⟨last, rs ++ [r]⟩ = if r.enough then .healthy else .unhealthy := by
  simp only [History.reported, List.getLast?_concat]

theorem reported_ne_offline (h : History) : h.reported ≠ .offline := by
  unfold History.reported
  cases h.reports.getLast? with
  | none => exact HealthStatus.noConfusion
  | some r => cases hr : r.enough <;> simp [hr]

/-- **Behind a report the last one was healthy** exactly if there is no unhealthy streak. -/
theorem reported_eq_healthy_iff (hne : h.reports ≠ []) : h.reported = .healthy ↔ trailing isUnhealthy h.reports = 0 := by
  obtain ⟨last, rs⟩ := h
  rcases List.eq_nil_or_concat rs with rfl | ⟨rs, r, rfl⟩
  · exact absurd rfl hne
  · rw [List.concat_eq_append, reported_concat, trailing_concat, isUnhealthy]
    cases r.enough <;> simp

theorem trailing_of_healthy (hh : h.reported = .healthy) : trailing isUnhealthy h.reports = 0 := by
  refine (reported_eq_healthy_iff ?_).mp hh
  intro hnil
  rw [History.reported, hnil] at hh
  cases hh

theorem Tracks.length (ht : Tracks node h) : node.healthMetrics.length = min h.reports.length maxMetrics := by
  have hlength := congrArg List.length ht.metrics
  rw [List.length_map, List.length_drop] at hlength
  omega

theorem tracks_fresh (name : CString) (now : Int) : Tracks ⟨name, .unknown, 0, 0, 0, now, []⟩ ⟨now, []⟩ :=
  ⟨rfl, rfl, rfl, rfl⟩

theorem Tracks.beat (ht : Tracks node h) (now : Int) :
    Tracks (node.heartbeat now) { h with lastHeartbeat := now } := by
  unfold NodeRecord.heartbeat
  rw [if_neg (ht.status ▸ reported_ne_offline h)]
  exact ⟨rfl, ht.status, ht.checks, ht.metrics⟩

/-- The regime that fills the metrics. -/
theorem Tracks.filling (ht : Tracks node h) (hroom : h.reports.length < maxMetrics) (r : Report) :
    Tracks (node.updateHealth r) { h with reports := h.reports ++ [r] } := by
  have hlength : node.healthMetrics.length < maxMetrics := by
    rw [ht.length]
    omega
  have hmetrics : ∀ reason, (node.healthMetrics ++ [node.metric r reason]).map HealthMetric.toReport =
      (h.reports ++ [r]).drop ((h.reports ++ [r]).length - maxMetrics) := by
    intro reason
    rw [List.map_append, ← List.window_of_lt ht.metrics (by rwa [List.length_map])]
    rfl
  unfold NodeRecord.updateHealth
  rw [if_pos hlength]
  cases hr : r.enough with
  | true =>
    refine ⟨ht.heartbeat, ?_, ?_, hmetrics _⟩
    · rw [reported_concat, if_pos hr]
      rfl
    · -- a healthy node has no streak to reset
      simp only [trailing_concat, isUnhealthy, hr]
      by_cases hstatus : node.healthStatus = .healthy
      · have hzero := trailing_of_healthy (ht.status ▸ hstatus)
        simp [hstatus, ht.checks, hzero]
      · simp [hstatus]
  | false =>
    refine ⟨ht.heartbeat, ?_, ?_, hmetrics _⟩
    · rw [reported_concat, hr]
      rfl
    · simp [trailing_concat, isUnhealthy, hr, ht.checks]

/-- The regime that moves them on. -/
theorem Tracks.moved (ht : Tracks node h) (hfull : maxMetrics ≤ h.reports.length) (r : Report) :
    (node.updateHealth r).lastHeartbeat = node.lastHeartbeat ∧
      (node.updateHealth r).healthStatus = node.healthStatus ∧
        (node.updateHealth r).consecutiveUnhealthyChecks = node.consecutiveUnhealthyChecks ∧
          (node.updateHealth r).healthMetrics.map HealthMetric.toReport =
            (h.reports ++ [r]).drop ((h.reports ++ [r]).length - maxMetrics) := by
  have hlength : node.healthMetrics.length = maxMetrics := by
    rw [ht.length]
    omega
  unfold NodeRecord.updateHealth
  rw [if_neg (Nat.not_lt.mpr (Nat.le_of_eq hlength.symm))]
  refine ⟨rfl, rfl, rfl, ?_⟩
  rw [← List.window_of_le (by decide) ht.metrics hfull, List.map_append, List.map_tail]
  rcases List.eq_nil_or_concat node.healthMetrics with hnil | ⟨ms, m, hms⟩
  · rw [hnil] at hlength
    cases hlength
  · rw [hms, List.concat_eq_append, List.getLast?_concat]
    rfl

/-- **There a report is followed** if it is healthy, as the one before it was. -/
theorem Tracks.moved_healthy (ht : Tracks node h) (hfull : maxMetrics ≤ h.reports.length)
    (hh : h.reported = .healthy) (hr : r.enough = true) :
    Tracks (node.updateHealth r) { h with reports := h.reports ++ [r] } := by
  obtain ⟨hheartbeat, hstatus, hchecks, hmetrics⟩ := ht.moved hfull r
  refine ⟨hheartbeat.trans ht.heartbeat, ?_, ?_, hmetrics⟩
  · rw [hstatus, ht.status, hh, reported_concat, if_pos hr]
  · rw [hchecks, ht.checks, trailing_of_healthy hh, trailing_concat, isUnhealthy, hr]
    rfl

/-- And only then does the counter keep up. -/
theorem Tracks.healthy_of_checks (ht : Tracks node h) (hfull : maxMetrics ≤ h.reports.length)
    (hchecks : (node.updateHealth r).consecutiveUnhealthyChecks = trailing isUnhealthy (h.reports ++ [r])) :
    h.reported = .healthy ∧ r.enough = true := by
  have hne : h.reports ≠ [] := by
    intro hnil
    rw [hnil] at hfull
    exact absurd hfull (by decide)
  rw [(ht.moved hfull r).2.2.1, ht.checks, trailing_concat, isUnhealthy] at hchecks
  cases hr : r.enough with
  | true =>
    rw [hr] at hchecks
    exact ⟨(reported_eq_healthy_iff hne).mpr hchecks, rfl⟩
  | false =>
    rw [hr] at hchecks
    simp at hchecks

/-! ## The table -/

/-- **The invariant**: the table represents the history. -/
def Tracked (w : World) : Prop := Represents NodeRecord.name Tracks w.nodes w.history

theorem tracked_empty : Tracked World.empty := represents_nil

theorem follows_of_tracked (hw : Tracked w) : Follows w := by
  refine ⟨fun name now reasonLen _ => ?_, hw.map_lookup fun _ _ ht => ht.checks,
    hw.map_lookup fun _ _ ht => ht.metrics⟩
  unfold getHealth
  rw [Option.map_map]
  refine hw.map_lookup (fun node h ht => ?_) name
  simp only [Function.comp, History.health, ht.heartbeat]
  split
  · rfl
  · exact ht.status

theorem name_updateHealth (node : NodeRecord) (r : Report) : (node.updateHealth r).name = node.name := by
  unfold NodeRecord.updateHealth
  split
  · split <;> rfl
  · rfl

theorem name_heartbeat (node : NodeRecord) (now : Int) : (node.heartbeat now).name = node.name := by
  unfold NodeRecord.heartbeat
  split <;> rfl

theorem any_name_iff : (nodes.any fun node => decide (node.name = name)) = true ↔ name ∈ nodes.map NodeRecord.name := by
  simp only [List.any_eq_true, decide_eq_true_eq, List.mem_map]

/-- No record has the name, or one of them is changed. -/
theorem changeNode_cases (nodes : List NodeRecord) (name : CString) (change : NodeRecord → NodeRecord) :
    (changeNode nodes name change = (nodes, -1) ∧ name ∉ nodes.map NodeRecord.name) ∨
      ∃ pre node post, nodes = pre ++ node :: post ∧ node.name = name ∧
        changeNode nodes name change = (pre ++ change node :: post, 0) := by
  unfold changeNode
  rcases List.splitFirst_key_cases NodeRecord.name nodes name with ⟨hnone, hno⟩ | ⟨pre, node, post, hsome, hl, hname⟩
  · rw [hnone]
    exact .inl ⟨rfl, hno⟩
  · rw [hsome]
    exact .inr ⟨pre, node, post, hl, hname, rfl⟩

/-- A registration of a new name with room for it. -/
theorem registerNode_new (now : Int) (hne : name ≠ []) (hno : name ∉ nodes.map NodeRecord.name)
    (hroom : nodes.length < maxNodes) :
    registerNode nodes name now = (nodes ++ [⟨name.take 255, .unknown, 0, 0, 0, now, []⟩], 0) := by
  unfold registerNode
  rw [if_neg hne, if_neg (mt any_name_iff.mp hno), if_neg (Nat.not_le.mpr hroom)]

theorem updateHealth_inRange (hne : name ≠ []) (hr : r.inRange = true) :
    updateHealth nodes name r = changeNode nodes name fun node => node.updateHealth r := by
  unfold updateHealth
  rw [if_neg hne, hr, if_neg Bool.noConfusion]

/-! ## What a call keeps -/

theorem step_done (call : Call) (h : apply w.nodes call = (nodes, 0)) :
    step w call = ⟨nodes, note w.history call, call.now⟩ := by
  unfold step
  rw [h, if_pos rfl]

/-- A call that is refused says nothing. -/
theorem tracked_of_refused (hw : Tracked w) (call : Call) (h : apply w.nodes call = (w.nodes, -1)) :
    Tracked (step w call) := by
  unfold step
  rw [h]
  exact hw

/-- **A record is changed**, and its history with it. -/
theorem tracked_of_changed (hw : Tracked w) (call : Call) {change : NodeRecord → NodeRecord} {f : History → History}
    (happly : apply w.nodes call = changeNode w.nodes name change)
    (hnote : note w.history call = Function.update w.history name ((w.history name).map f))
    (hname : ∀ node, (change node).name = node.name)
    (hchange : ∀ node h, w.history name = some h → Tracks node h → Tracks (change node) (f h)) :
    Tracked (step w call) := by
  rcases changeNode_cases w.nodes name change with ⟨hsame, -⟩ | ⟨pre, node, post, hl, rfl, hdone⟩
  · exact tracked_of_refused hw call (happly.trans hsame)
  · rw [Tracked, hl] at hw
    obtain ⟨h, hh, ht⟩ := hw.value_of_mem
    rw [step_done call (happly.trans hdone), hnote, hh]
    exact (represents_replace_iff hw).mpr ⟨hname node, hchange node h hh ht⟩

theorem register_keeps {now : Int} (hw : Tracked w) (ha : Allowed w (.register name now)) :
    Tracked (step w (.register name now)) := by
  by_cases hne : name = []
  · exact tracked_of_refused hw _ (if_pos hne)
  by_cases hknown : name ∈ w.nodes.map NodeRecord.name
  · -- the node is registered already, and its history goes on
    have hsame : apply w.nodes (.register name now) = (w.nodes, 0) := by
      unfold apply registerNode
      dsimp only
      rw [if_neg hne, if_pos (any_name_iff.mpr hknown)]
    obtain ⟨h, hh⟩ := Option.ne_none_iff_exists'.mp (hw.mem_keys_iff.mp hknown)
    rw [step_done _ hsame, note, hh, Option.getD_some, ← hh, Function.update_eq_self]
    exact hw
  by_cases hroom : w.nodes.length < maxNodes
  · have hnone : w.history name = none := not_not.mp (mt hw.mem_keys_iff.mpr hknown)
    rw [step_done (.register name now) (registerNode_new now hne hknown hroom), note, hnone, Option.getD_none,
      List.take_of_length_le (ha hne hnone hroom)]
    exact (represents_concat_iff hw hknown).mpr ⟨rfl, tracks_fresh name now⟩
  · refine tracked_of_refused hw _ ?_
    unfold apply registerNode
    dsimp only
    rw [if_neg hne, if_neg (mt any_name_iff.mp hknown), if_pos (Nat.not_lt.mp hroom)]

theorem unregister_keeps {now : Int} (hw : Tracked w) : Tracked (step w (.unregister name now)) := by
  by_cases hne : name = []
  · exact tracked_of_refused hw _ (if_pos hne)
  rcases List.splitFirst_key_cases NodeRecord.name w.nodes name with ⟨hnone, -⟩ | ⟨pre, node, post, hsome, hl, rfl⟩
  · refine tracked_of_refused hw _ ?_
    unfold apply unregisterNode
    dsimp only
    rw [if_neg hne, hnone]
  · have hdone : apply w.nodes (.unregister node.name now) = (pre ++ post, 0) := by
      unfold apply unregisterNode
      dsimp only
      rw [if_neg hne, hsome]
    rw [step_done _ hdone]
    rw [Tracked, hl] at hw
    exact hw.remove

theorem heartbeat_keeps {now : Int} (hw : Tracked w) : Tracked (step w (.heartbeat name now)) := by
  by_cases hne : name = []
  · exact tracked_of_refused hw _ (if_pos hne)
  · exact tracked_of_changed hw _ (if_neg hne) rfl (fun node => name_heartbeat node now) fun _ _ _ ht => ht.beat now

theorem report_keeps (hw : Tracked w) (ha : Allowed w (.report name r)) : Tracked (step w (.report name r)) := by
  by_cases hne : name = []
  · exact tracked_of_refused hw _ (if_pos hne)
  cases hr : r.inRange with
  | false =>
    refine tracked_of_refused hw _ ?_
    unfold apply updateHealth
    dsimp only
    rw [if_neg hne, hr, if_pos rfl]
  | true =>
    refine tracked_of_changed hw _ (updateHealth_inRange hne hr) rfl (fun node => name_updateHealth node r) ?_
    intro node h hh ht
    rcases Nat.lt_or_ge h.reports.length maxMetrics with hroom | hfull
    · exact ht.filling hroom r
    · obtain ⟨hhealthy, henough⟩ := ha hne hr h hh hfull
      exact ht.moved_healthy hfull hhealthy henough

theorem step_keeps (call : Call) (hw : Tracked w) (ha : Allowed w call) : Tracked (step w call) := by
  cases call with
  | register name now => exact register_keeps hw ha
  | unregister name now => exact unregister_keeps hw
  | heartbeat name now => exact heartbeat_keeps hw
  | report name r => exact report_keeps hw ha

/-! ## What the health needs -/

/-- A new node is found only if its name is not cut. -/
theorem allowed_of_register {now : Int} (hw : Tracked w) (hafter : Follows (step w (.register name now))) :
    Allowed w (.register name now) := by
  intro hne hnone hroom
  have hno : name ∉ w.nodes.map NodeRecord.name := fun hmem => hw.mem_keys_iff.mp hmem hnone
  have hchecks := hafter.checks name
  rw [step_done (.register name now) (registerNode_new now hne hno hroom)] at hchecks
  dsimp only [note] at hchecks
  rw [Function.update_self, findNode, ← lookup, lookup_insert (by rwa [List.append_nil])] at hchecks
  split at hchecks
  · next heq => exact (List.take_eq_self_iff name).mp heq
  · cases hchecks

/-- A counter keeps up with a report behind the tenth one only if no streak goes on. -/
theorem allowed_of_report (hw : Tracked w) (hafter : Follows (step w (.report name r))) :
    Allowed w (.report name r) := by
  intro hne hr h hh hfull
  rcases changeNode_cases w.nodes name fun node => node.updateHealth r with ⟨-, hno⟩ | ⟨pre, node, post, hl, rfl, hdone⟩
  · exact absurd (hw.mem_keys_iff.mpr (Option.ne_none_iff_exists'.mpr ⟨h, hh⟩)) hno
  · have hrep := hw
    rw [Tracked, hl] at hrep
    obtain ⟨h', hh', ht⟩ := hrep.value_of_mem
    obtain rfl : h' = h := Option.some_inj.mp (hh'.symm.trans hh)
    have hchecks := hafter.checks node.name
    rw [step_done (.report node.name r) ((updateHealth_inRange hne hr).trans hdone)] at hchecks
    dsimp only [note] at hchecks
    rw [Function.update_self, hh, findNode, ← lookup, lookup_insert hrep.free,
      if_pos (name_updateHealth node r)] at hchecks
    exact ht.healthy_of_checks hfull (Option.some_inj.mp hchecks)

theorem step_follows_iff (call : Call) (hw : Tracked w) : Follows (step w call) ↔ Allowed w call := by
  refine ⟨fun hafter => ?_, fun ha => follows_of_tracked (step_keeps call hw ha)⟩
  cases call with
  | register name now => exact allowed_of_register hw hafter
  | unregister name now => trivial
  | heartbeat name now => trivial
  | report name r => exact allowed_of_report hw hafter

/-- **The health follows the latest report, exactly** along the runs whose calls are allowed. -/
theorem health_follows_iff (calls : List Call) :
    AllStates step Follows World.empty calls ↔ AllSteps step Allowed World.empty calls :=
  allStates_iff_allSteps_of_kept (I := Tracked) (A := fun _ _ => True) (fun _ call hw _ _ ha => step_keeps call hw ha)
    (fun _ call hw _ _ => step_follows_iff call hw) tracked_empty (follows_of_tracked tracked_empty) allSteps_true

/-! ## A report behind ten -/

/-- A node that is registered, and has ten healthy reports and an unhealthy one. -/
def exhausted : List Call :=
  .register "worker" 0 :: List.replicate 10 (.report "worker" ⟨1, 50, 50, 50⟩) ++ [.report "worker" ⟨2, 50, 5, 50⟩]

/-- **The node stays healthy.** -/
theorem stays_healthy : ¬ ∀ calls : List Call, AllStates step Follows World.empty calls := by
  intro h
  have hhealth := (h exhausted).run_mem.health "worker" 2 256 (by decide)
  exact absurd hhealth (by decide)

end Sirah.NodeLifecycle
