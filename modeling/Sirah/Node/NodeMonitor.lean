import Mathlib.Data.List.Dedup
import Mathlib.Data.List.Perm.Subperm
import Mathlib.Data.Int.Order.Basic
import Sirah.Lib.CString
import Sirah.Lib.Run
import Sirah.Lib.SplitFirst

/-!
# The node monitor

Model of `internal/monitor/node_monitor.c`: nodes send heartbeats, and a thread looks at every node it has heard of and reports
those that have been silent for too long.

* A section under the mutex is one step. The thread gives the mutex up for each callback, so heartbeats arrive in the middle of a
  scan (`resume` is the return of the callback). A scan keeps the time at which it began.
* `Event` is the history that the monitor has seen and made: heartbeats, looks at a node with what they found, and callbacks.
* A heartbeat of a new node may make the array grow: it is dropped if there is no memory, and the array may move. A record that
  the thread holds on to over the callback for an offline node is then gone, and what the thread does with it is undefined
  (`Thread.lost`).
* `verdict`: what a look has to find, from the last heartbeat of the node and the looks since.
* **`outages_exact`**: in every interleaving a look finds a node offline exactly once for each outage, a node that reported
  that it is not ready has recovered at the first look in time, and pods are evicted only behind a look that found their node
  offline, once. A scan looks at every node that was heard of. Up to 100 nodes are all heard of, and no record moves.
-/

namespace Sirah.NodeMonitor

open Runs

/-! ## The monitor -/

/-- `node_status_t`. -/
inductive NodeStatus where
  | ready
  | notReady
  | unknown
  deriving DecidableEq

/-- `node_heartbeat_t`. -/
structure Heartbeat where
  nodeName : CString
  lastHeartbeat : Int
  status : NodeStatus
  statusMessage : Option CString
  allocatableCpuMillicores : UInt32
  allocatableMemoryBytes : UInt64
  activePodCount : UInt32

/-- `node_monitor_config_t`, as far as the monitor reads it. -/
structure Config where
  heartbeatTimeoutSeconds : UInt32
  enablePodEviction : Bool

/-- `node_monitor_t`, with how often the array was moved and whether a callback is set. -/
structure Monitor where
  config : Config
  heartbeats : List Heartbeat
  heartbeatCapacity : Nat
  array : Nat
  onNodeOffline : Bool
  onNodeRecovered : Bool
  evictPodsFromNode : Bool

/-- What a look at a node finds. -/
inductive Finding where
  | unchanged
  | offline
  | recovered
  deriving DecidableEq

/-- What happens. -/
inductive Event where
  | heard (name : CString) (time : Int) (status : NodeStatus)
  | looked (name : CString) (now : Int) (found : Finding)
  | calledOffline (name : CString)
  | calledRecovered (name : CString)
  | evicted (name : CString)
  deriving DecidableEq

/-- Where the thread is: asleep, in a callback for node `i` of a scan that began at `now` (in the one for an offline node with
a pointer to its record), or behind the use of a record that has moved. -/
inductive Thread where
  | asleep
  | inOffline (now : Int) (i : Nat) (array : Nat)
  | inCallback (now : Int) (i : Nat)
  | lost

/-- The monitor and its thread. -/
structure System where
  monitor : Monitor
  thread : Thread
  log : List Event

/-- `node_monitor_new`. -/
def System.new (config : Config) : System := ⟨⟨config, [], 100, 0, false, false, false⟩, .asleep, []⟩

/-- `node_monitor_register_heartbeat`; `moved` is whether an expansion moves the array, if it gets its memory. -/
def registerHeartbeat (m : Monitor) (hb : Heartbeat) (moved : Option Bool) : Option Monitor :=
  match m.heartbeats.splitFirst fun x => x.nodeName = hb.nodeName with
  | some (pre, _, post) => some { m with heartbeats := pre ++ hb :: post }
  | none =>
    if m.heartbeats.length ≥ m.heartbeatCapacity then
      moved.map fun moved =>
        { m with
          heartbeats := m.heartbeats ++ [hb]
          heartbeatCapacity := m.heartbeatCapacity * 2
          array := if moved then m.array + 1 else m.array }
    else some { m with heartbeats := m.heartbeats ++ [hb] }

/-- The message of a node that is silent. -/
def timeoutMessage (silent : Int) : CString :=
  CString.snprintf 100 (CString.ofString "Heartbeat timeout (no response for " ++ CString.ofInt silent ++
    CString.ofString " seconds)")

/-- A look at a node. -/
def lookAt (config : Config) (now : Int) (hb : Heartbeat) : Finding × Heartbeat :=
  let isNowOffline := now - hb.lastHeartbeat > config.heartbeatTimeoutSeconds.toNat
  let wasOffline := hb.status = .notReady ∨ hb.status = .unknown
  if isNowOffline ∧ ¬ wasOffline then
    (.offline, { hb with status := .notReady, statusMessage := some (timeoutMessage (now - hb.lastHeartbeat)) })
  else if ¬ isNowOffline ∧ wasOffline then (.recovered, { hb with status := .ready, statusMessage := none })
  else (.unchanged, hb)

/-- The look at the node at index `i`. -/
def System.looked (s : System) (now : Int) (i : Nat) (hb : Heartbeat) : System :=
  { s with
    monitor := { s.monitor with heartbeats := s.monitor.heartbeats.set i (lookAt s.monitor.config now hb).2 }
    log := s.log ++ [.looked hb.nodeName now (lookAt s.monitor.config now hb).1] }

/-- The loop of `node_monitor_thread` from index `i` on, up to a callback or the end. -/
def scanFrom : Nat → Int → Nat → System → System
  | 0, _, _, s => { s with thread := .asleep }
  | fuel + 1, now, i, s =>
    match s.monitor.heartbeats[i]? with
    | none => { s with thread := .asleep }
    | some hb =>
      let t := s.looked now i hb
      match (lookAt s.monitor.config now hb).1 with
      | .offline =>
        if t.monitor.onNodeOffline then
          { t with
            log := t.log ++ [.calledOffline hb.nodeName]
            thread := .inOffline now i t.monitor.array }
        else if t.monitor.config.enablePodEviction ∧ t.monitor.evictPodsFromNode then
          { t with log := t.log ++ [.evicted hb.nodeName], thread := .inCallback now i }
        else scanFrom fuel now (i + 1) t
      | .recovered =>
        if t.monitor.onNodeRecovered then
          { t with log := t.log ++ [.calledRecovered hb.nodeName], thread := .inCallback now i }
        else scanFrom fuel now (i + 1) t
      | .unchanged => scanFrom fuel now (i + 1) t

/-- The scan from index `i` on. -/
def scan (now : Int) (i : Nat) (s : System) : System := scanFrom (s.monitor.heartbeats.length - i) now i s

/-- The thread goes on when its callback returns. -/
def resume (s : System) : System :=
  match s.thread with
  | .asleep => s
  | .lost => s
  | .inCallback now i => scan now (i + 1) s
  | .inOffline now i array =>
    if s.monitor.config.enablePodEviction ∧ s.monitor.evictPodsFromNode then
      -- the name is read from the record
      if s.monitor.array ≠ array then { s with thread := .lost }
      else
        match s.monitor.heartbeats[i]? with
        | none => scan now (i + 1) s
        | some hb => { s with log := s.log ++ [.evicted hb.nodeName], thread := .inCallback now i }
    else scan now (i + 1) s

/-- A step. The callbacks are set by `node_monitor_set_offline_callback`, `node_monitor_set_online_callback` and
`node_monitor_set_eviction_callback`. -/
inductive Op where
  | heartbeat (hb : Heartbeat) (moved : Option Bool)
  | setOffline (set : Bool)
  | setOnline (set : Bool)
  | setEviction (set : Bool)
  | scan (now : Int)
  | resume

/-- One step. -/
def step (s : System) : Op → System
  | .heartbeat hb moved =>
    match registerHeartbeat s.monitor hb moved with
    | none => s
    | some monitor => { s with monitor := monitor, log := s.log ++ [.heard hb.nodeName hb.lastHeartbeat hb.status] }
  | .setOffline set => { s with monitor := { s.monitor with onNodeOffline := set } }
  | .setOnline set => { s with monitor := { s.monitor with onNodeRecovered := set } }
  | .setEviction set => { s with monitor := { s.monitor with evictPodsFromNode := set } }
  | .scan now =>
    match s.thread with
    | .asleep => NodeMonitor.scan now 0 s
    | _ => s
  | .resume => NodeMonitor.resume s

/-- The time at which a scan begins. -/
def Op.scanTime : Op → Option Int
  | .scan now => some now
  | _ => none

/-! ## What a look has to find -/

/-- The last heartbeat of a node, and the looks since. -/
structure Signs where
  time : Int
  status : NodeStatus
  looks : List Int

/-- One more event. -/
def Signs.next (name : CString) (signs : Option Signs) : Event → Option Signs
  | .heard name' time status => if name' = name then some ⟨time, status, []⟩ else signs
  | .looked name' now _ =>
    if name' = name then signs.map fun h => { h with looks := h.looks ++ [now] } else signs
  | _ => signs

/-- What the events say of a node. -/
def signsOf (name : CString) (log : List Event) : Option Signs := run (Signs.next name) none log

/-- The node counts as ready: it said so or was looked at, and every look was in time. -/
def Signs.Ready (timeout : Nat) (h : Signs) : Prop :=
  (∀ l ∈ h.looks, l - h.time ≤ timeout) ∧ (h.status = .ready ∨ h.looks ≠ [])

instance (timeout : Nat) (h : Signs) : Decidable (h.Ready timeout) := inferInstanceAs (Decidable (_ ∧ _))

/-- **What a look finds**: the first one that comes too late finds a node offline that counts as ready, the first one at all,
if it is in time, finds that a node recovered that said it was not. -/
def verdict (timeout : Nat) (h : Signs) (now : Int) : Finding :=
  if now - h.time > timeout then (if h.Ready timeout then .offline else .unchanged)
  else if h.status ≠ .ready ∧ h.looks = [] then .recovered
  else .unchanged

/-- An event is right behind those before it. -/
def Right (timeout : Nat) (before : List Event) : Event → Prop
  | .heard _ _ _ => True
  | .looked name now found => ∃ h, signsOf name before = some h ∧ found = verdict timeout h now
  | .calledOffline name => ∃ now, before.getLast? = some (.looked name now .offline)
  | .calledRecovered name => ∃ now, before.getLast? = some (.looked name now .recovered)
  | .evicted name => ∃ earlier now between, before = earlier ++ .looked name now .offline :: between ∧
      ∀ e ∈ between, e = .calledOffline name ∨ ∃ other time status, e = .heard other time status

/-- All events are. -/
def AllRight (timeout : Nat) (log : List Event) : Prop := AllSteps (fun log e => log ++ [e]) (Right timeout) [] log

/-- The scan that a step goes on with. -/
def System.scanning (s : System) : Op → Option Int
  | .scan now =>
    match s.thread with
    | .asleep => some now
    | _ => none
  | .resume =>
    match s.thread with
    | .asleep => none
    | .lost => none
    | .inOffline now _ _ => some now
    | .inCallback now _ => some now
  | _ => none

/-- A node was heard of. -/
def Heard (name : CString) (log : List Event) : Prop := ∃ time status, .heard name time status ∈ log

/-- A step that ends a scan has looked at every node that was heard of. -/
def LooksAtAll (s : System) (op : Op) : Prop :=
  ∀ now, s.scanning op = some now → (step s op).thread = .asleep →
    ∀ name, Heard name (step s op).log → ∃ found, .looked name now found ∈ (step s op).log

/-- A heartbeat that was sent. -/
def Op.beat : Op → Option (CString × Int × NodeStatus)
  | .heartbeat hb _ => some (hb.nodeName, hb.lastHeartbeat, hb.status)
  | _ => none

/-- A heartbeat that was heard. -/
def Event.beat : Event → Option (CString × Int × NodeStatus)
  | .heard name time status => some (name, time, status)
  | _ => none

/-- The nodes that send heartbeats. -/
def senders (ops : List Op) : List CString := ((ops.filterMap Op.beat).map Prod.fst).dedup

/-! ## The history -/

variable {timeout fuel i : Nat} {name : CString} {log : List Event} {e : Event} {h : Signs} {now : Int} {hb : Heartbeat}
  {config : Config} {s : System} {ops : List Op}

theorem signsOf_concat : signsOf name (log ++ [e]) = Signs.next name (signsOf name log) e := by
  rw [signsOf, run_append, signsOf]
  rfl

theorem allRight_concat_iff : AllRight timeout (log ++ [e]) ↔ AllRight timeout log ∧ Right timeout log e := by
  have hrun : ∀ l as : List Event, run (fun log e => log ++ [e]) l as = l ++ as := by
    intro l as
    induction as generalizing l with
    | nil => rw [run_nil, List.append_nil]
    | cons a as ih => rw [run_cons, ih, List.append_assoc, List.singleton_append]
  rw [AllRight, allSteps_append, hrun, List.nil_append, AllRight]
  exact and_congr_right fun _ => Iff.of_eq (and_true _)

theorem heard_concat_iff : Heard name (log ++ [e]) ↔ Heard name log ∨ ∃ time status, e = .heard name time status := by
  simp only [Heard, List.mem_append, List.mem_singleton, exists_or, eq_comm]

/-- No look was later than this. -/
def NotAfter (now : Int) (log : List Event) : Prop := ∀ name l found, .looked name l found ∈ log → l ≤ now

theorem notAfter_concat (hlog : NotAfter now log) (he : ∀ name l found, e = .looked name l found → l ≤ now) :
    NotAfter now (log ++ [e]) := by
  intro name l found hmem
  rcases List.mem_append.mp hmem with hmem | hmem
  · exact hlog name l found hmem
  · exact he name l found (List.mem_singleton.mp hmem).symm

/-- The looks that count are events. -/
theorem looks_mem (hsigns : signsOf name log = some h) {l : Int} (hl : l ∈ h.looks) :
    ∃ found, .looked name l found ∈ log := by
  induction log using List.reverseRecOn generalizing h with
  | nil => cases hsigns
  | append_singleton log e ih =>
    have hweaken : (∃ found, Event.looked name l found ∈ log) → ∃ found, .looked name l found ∈ log ++ [e] :=
      fun ⟨found, hmem⟩ => ⟨found, List.mem_append_left _ hmem⟩
    rw [signsOf_concat] at hsigns
    cases e with
    | heard name' time status =>
      rw [Signs.next] at hsigns
      split at hsigns
      · rw [← Option.some.inj hsigns] at hl
        cases hl
      · exact hweaken (ih hsigns hl)
    | looked name' l' found =>
      rw [Signs.next] at hsigns
      split at hsigns
      · next hname =>
        obtain ⟨h', hh', rfl⟩ := Option.map_eq_some_iff.mp hsigns
        rcases List.mem_append.mp hl with hl | hl
        · exact hweaken (ih hh' hl)
        · rw [List.mem_singleton.mp hl, ← hname]
          exact ⟨found, List.mem_append_right _ (List.mem_singleton_self _)⟩
      · exact hweaken (ih hsigns hl)
    | calledOffline name' => exact hweaken (ih hsigns hl)
    | calledRecovered name' => exact hweaken (ih hsigns hl)
    | evicted name' => exact hweaken (ih hsigns hl)

/-! ## A look -/

/-- The record says of its node what the history does. -/
def Tracks (timeout : Nat) (log : List Event) (hb : Heartbeat) : Prop :=
  ∃ h, signsOf hb.nodeName log = some h ∧ h.time = hb.lastHeartbeat ∧ (hb.status = .ready ↔ h.Ready timeout)

/-- **A look** finds what it has to find, and leaves a record that counts it. -/
theorem lookAt_spec (htime : h.time = hb.lastHeartbeat)
    (hready : hb.status = .ready ↔ h.Ready config.heartbeatTimeoutSeconds.toNat) (hlooks : ∀ l ∈ h.looks, l ≤ now) :
    (lookAt config now hb).1 = verdict config.heartbeatTimeoutSeconds.toNat h now ∧
      ((lookAt config now hb).2.status = .ready ↔
        { h with looks := h.looks ++ [now] }.Ready config.heartbeatTimeoutSeconds.toNat) ∧
      (lookAt config now hb).2.nodeName = hb.nodeName ∧ (lookAt config now hb).2.lastHeartbeat = hb.lastHeartbeat := by
  have hoffline : (hb.status = .notReady ∨ hb.status = .unknown) ↔ hb.status ≠ .ready := by
    cases hb.status <;> simp
  simp only [lookAt, hoffline, verdict, ← htime]
  by_cases hlate : now - h.time > config.heartbeatTimeoutSeconds.toNat
  · have hnot : ¬ { h with looks := h.looks ++ [now] }.Ready config.heartbeatTimeoutSeconds.toNat := by
      rintro ⟨hall, -⟩
      have hlast := hall now (List.mem_append_right _ (List.mem_singleton_self _))
      dsimp only at hlast
      omega
    by_cases hst : hb.status = .ready
    · rw [if_pos ⟨hlate, not_not.mpr hst⟩, if_pos hlate, if_pos (hready.mp hst)]
      exact ⟨rfl, iff_of_false nofun hnot, rfl, rfl⟩
    · rw [if_neg fun hand => hand.2 hst, if_neg fun hand => hand.1 hlate, if_pos hlate, if_neg fun hr => hst (hready.mpr hr)]
      exact ⟨rfl, iff_of_false hst hnot, rfl, htime.symm⟩
  · have hall : ∀ l ∈ h.looks ++ [now], l - h.time ≤ config.heartbeatTimeoutSeconds.toNat := by
      intro l hl
      rcases List.mem_append.mp hl with hl | hl
      · have hle := hlooks l hl
        omega
      · rw [List.mem_singleton.mp hl]
        omega
    have hready' : { h with looks := h.looks ++ [now] }.Ready config.heartbeatTimeoutSeconds.toNat :=
      ⟨hall, .inr (List.append_ne_nil_of_right_ne_nil _ (List.cons_ne_nil _ _))⟩
    rw [if_neg fun hand => hlate hand.1, if_neg hlate]
    by_cases hst : hb.status = .ready
    · have hcounted := (hready.mp hst).2
      rw [if_neg fun hand => hand.2 hst, if_neg fun hand => hcounted.elim hand.1 fun hne => hne hand.2]
      exact ⟨rfl, iff_of_true hst hready', rfl, htime.symm⟩
    · have hfirst : h.status ≠ .ready ∧ h.looks = [] := by
        by_contra hcounted
        refine hst (hready.mpr ⟨fun l hl => hall l (List.mem_append_left _ hl), ?_⟩)
        rwa [not_and_or, not_not] at hcounted
      rw [if_pos ⟨hlate, hst⟩, if_pos hfirst]
      exact ⟨rfl, iff_of_true rfl hready', rfl, rfl⟩

theorem Tracks.concat (htracks : Tracks timeout log hb) (he : ∀ signs, Signs.next hb.nodeName signs e = signs) :
    Tracks timeout (log ++ [e]) hb := by
  obtain ⟨h, hsigns, hrest⟩ := htracks
  exact ⟨h, by rw [signsOf_concat, he, hsigns], hrest⟩

/-! ## The invariant -/

/-- The names of the nodes. -/
def Monitor.names (m : Monitor) : List CString := m.heartbeats.map Heartbeat.nodeName

/-- What holds of the monitor and its history. -/
structure Core (timeout : Nat) (s : System) : Prop where
  timeout_eq : s.monitor.config.heartbeatTimeoutSeconds.toNat = timeout
  nodup : s.monitor.names.Nodup
  tracks : ∀ hb ∈ s.monitor.heartbeats, Tracks timeout s.log hb
  right : AllRight timeout s.log
  heard : ∀ name, name ∈ s.monitor.names ↔ Heard name s.log
  inPlace : s.monitor.heartbeats.length ≤ 100 → s.monitor.heartbeatCapacity = 100 ∧ s.monitor.array = 0

/-- The scan has looked at the first nodes. -/
def SeenUpTo (n : Nat) (now : Int) (s : System) : Prop :=
  n ≤ s.monitor.names.length ∧ ∀ name ∈ s.monitor.names.take n, ∃ found, .looked name now found ∈ s.log

/-- A look found the node offline, and nobody has evicted its pods since. -/
def FoundOffline (name : CString) (log : List Event) : Prop :=
  ∃ earlier now between, log = earlier ++ .looked name now .offline :: between ∧
    ∀ e ∈ between, e = .calledOffline name ∨ ∃ other time status, e = .heard other time status

theorem FoundOffline.concat (hfound : FoundOffline name log)
    (he : e = .calledOffline name ∨ ∃ other time status, e = .heard other time status) :
    FoundOffline name (log ++ [e]) := by
  obtain ⟨earlier, now, between, rfl, hbetween⟩ := hfound
  refine ⟨earlier, now, between ++ [e], by rw [List.append_assoc, List.cons_append], ?_⟩
  intro x hx
  rcases List.mem_append.mp hx with hx | hx
  · exact hbetween x hx
  · exact List.mem_singleton.mp hx ▸ he

/-- What holds of the thread. -/
def ThreadOk (s : System) : Prop :=
  match s.thread with
  | .asleep => True
  | .lost => 100 < s.monitor.heartbeats.length
  | .inOffline now i array => NotAfter now s.log ∧ SeenUpTo (i + 1) now s ∧
      (s.monitor.heartbeats.length ≤ 100 → array = 0) ∧
      ∃ name, s.monitor.names[i]? = some name ∧ FoundOffline name s.log
  | .inCallback now i => NotAfter now s.log ∧ SeenUpTo (i + 1) now s

/-- No event of a scan: it adds no look and no sign of a node. -/
def Event.IsCall : Event → Prop
  | .heard _ _ _ => False
  | .looked _ _ _ => False
  | _ => True

section Steps

/-- A callback is made. -/
theorem Core.call {thread : Thread} (hcore : Core timeout s) (hcall : e.IsCall) (hright : Right timeout s.log e) :
    Core timeout { s with log := s.log ++ [e], thread := thread } := by
  refine ⟨hcore.timeout_eq, hcore.nodup, fun hb hmem => ?_, allRight_concat_iff.mpr ⟨hcore.right, hright⟩,
    fun name => ?_, hcore.inPlace⟩
  · refine (hcore.tracks hb hmem).concat fun signs => ?_
    cases e with
    | heard name time status => exact hcall.elim
    | looked name now found => exact hcall.elim
    | calledOffline name => rfl
    | calledRecovered name => rfl
    | evicted name => rfl
  · refine (hcore.heard name).trans (heard_concat_iff.trans (or_iff_left ?_)).symm
    rintro ⟨time, status, rfl⟩
    exact hcall.elim

theorem notAfter_call (hlog : NotAfter now log) (hcall : e.IsCall) : NotAfter now (log ++ [e]) := by
  refine notAfter_concat hlog ?_
  rintro name l found rfl
  exact hcall.elim

theorem lookAt_nodeName : (lookAt config now hb).2.nodeName = hb.nodeName := by
  rw [lookAt]
  split
  · rfl
  · split <;> rfl

theorem names_looked (hget : s.monitor.heartbeats[i]? = some hb) :
    (s.looked now i hb).monitor.names = s.monitor.names := by
  rw [Monitor.names, System.looked, List.map_set, lookAt_nodeName, Monitor.names]
  exact List.set_getElem?_self (by rw [List.getElem?_map, hget, Option.map_some])

theorem Core.looked (hcore : Core timeout s) (hlog : NotAfter now s.log) (hget : s.monitor.heartbeats[i]? = some hb) :
    Core timeout (s.looked now i hb) := by
  obtain ⟨h, hsigns, htime, hready⟩ := hcore.tracks hb (List.mem_of_getElem? hget)
  have hlooks : ∀ l ∈ h.looks, l ≤ now := fun l hl =>
    let ⟨found, hmem⟩ := looks_mem hsigns hl
    hlog _ _ _ hmem
  rw [← hcore.timeout_eq] at hready
  obtain ⟨hfound, hready', hname, hlast⟩ := lookAt_spec htime hready hlooks
  refine ⟨hcore.timeout_eq, by rw [names_looked hget]; exact hcore.nodup, ?_, ?_, ?_, ?_⟩
  · intro hb' hmem
    obtain ⟨j, hj⟩ := List.mem_iff_getElem?.mp hmem
    rw [System.looked, List.getElem?_set] at hj
    by_cases hij : i = j
    · subst hij
      rw [if_pos rfl, if_pos (List.getElem?_eq_some_iff.mp hget).1, Option.some.injEq] at hj
      subst hj
      refine ⟨{ h with looks := h.looks ++ [now] }, ?_, htime.trans hlast.symm, ?_⟩
      · rw [System.looked, signsOf_concat, hname, hsigns, Signs.next, if_pos rfl, Option.map_some]
      · rw [← hcore.timeout_eq]
        exact hready'
    · rw [if_neg hij] at hj
      have hne : hb.nodeName ≠ hb'.nodeName := by
        intro heq
        refine hij ((List.getElem?_inj ?_ hcore.nodup).mp ?_)
        · rw [Monitor.names, List.length_map]
          exact (List.getElem?_eq_some_iff.mp hget).1
        · rw [Monitor.names, List.getElem?_map, List.getElem?_map, hget, hj, Option.map_some, Option.map_some, heq]
      refine (hcore.tracks hb' (List.mem_of_getElem? hj)).concat fun signs => ?_
      rw [Signs.next, if_neg hne]
  · refine allRight_concat_iff.mpr ⟨hcore.right, h, hsigns, ?_⟩
    rw [hfound, hcore.timeout_eq]
  · intro name
    rw [names_looked hget, System.looked, heard_concat_iff, hcore.heard]
    exact (or_iff_left nofun).symm
  · rw [System.looked, List.length_set]
    exact hcore.inPlace

theorem SeenUpTo.looked (hseen : SeenUpTo i now s) (hget : s.monitor.heartbeats[i]? = some hb) :
    SeenUpTo (i + 1) now (s.looked now i hb) := by
  have hlt : i < s.monitor.heartbeats.length := (List.getElem?_eq_some_iff.mp hget).1
  rw [SeenUpTo, names_looked hget]
  refine ⟨?_, fun name hname => ?_⟩
  · rw [Monitor.names, List.length_map]
    exact hlt
  · rw [List.take_add_one, List.mem_append] at hname
    rcases hname with hname | hname
    · obtain ⟨found, hmem⟩ := hseen.2 name hname
      exact ⟨found, List.mem_append_left _ hmem⟩
    · rw [Monitor.names, List.getElem?_map, hget, Option.map_some, Option.toList_some, List.mem_singleton] at hname
      rw [hname]
      exact ⟨_, List.mem_append_right _ (List.mem_singleton_self _)⟩

/-- More history and the same nodes. -/
theorem SeenUpTo.mono {n : Nat} {t : System} (hseen : SeenUpTo n now s) (hnames : s.monitor.names <+: t.monitor.names)
    (hlog : s.log ⊆ t.log) : SeenUpTo n now t := by
  obtain ⟨more, hmore⟩ := hnames
  refine ⟨?_, fun name hname => ?_⟩
  · rw [← hmore, List.length_append]
    exact hseen.1.trans (Nat.le_add_right _ _)
  · rw [← hmore, List.take_append_of_le_length hseen.1] at hname
    obtain ⟨found, hmem⟩ := hseen.2 name hname
    exact ⟨found, hlog hmem⟩

/-- What holds behind a part of a scan. -/
structure Scanned (timeout : Nat) (now : Int) (t : System) : Prop where
  core : Core timeout t
  thread : ThreadOk t
  all : t.thread = .asleep → SeenUpTo t.monitor.names.length now t
  notAfter : NotAfter now t.log
  same : ∀ now', t.scanning .resume = some now' → now' = now

/-- The scan has come to its end. -/
theorem scanned_end (hcore : Core timeout s) (hlog : NotAfter now s.log) (hseen : SeenUpTo i now s)
    (hend : s.monitor.heartbeats.length ≤ i) : Scanned timeout now { s with thread := .asleep } := by
  have hall : s.monitor.names.length = i := by
    refine le_antisymm ?_ hseen.1
    rw [Monitor.names, List.length_map]
    exact hend
  exact ⟨⟨hcore.timeout_eq, hcore.nodup, hcore.tracks, hcore.right, hcore.heard, hcore.inPlace⟩, trivial,
    fun _ => hall ▸ hseen, hlog, nofun⟩

/-- The scan makes a callback. -/
theorem scanned_call {thread : Thread} (hcore : Core timeout s) (hlog : NotAfter now s.log) (hcall : e.IsCall)
    (hright : Right timeout s.log e) (hthread : ThreadOk { s with log := s.log ++ [e], thread := thread })
    (hthreadNow : { s with thread := thread }.scanning .resume = some now) :
    Scanned timeout now { s with log := s.log ++ [e], thread := thread } := by
  refine ⟨hcore.call hcall hright, hthread, fun hasleep => ?_, notAfter_call hlog hcall, fun now' hnow' => ?_⟩
  · obtain rfl : thread = .asleep := hasleep
    cases hthreadNow
  · exact Option.some.inj (hnow'.symm.trans hthreadNow)

/-- **A scan** up to its next callback or its end. -/
theorem scanned_scanFrom (hcore : Core timeout s) (hlog : NotAfter now s.log) (hseen : SeenUpTo i now s)
    (hfuel : s.monitor.heartbeats.length ≤ i + fuel) : Scanned timeout now (scanFrom fuel now i s) := by
  induction fuel generalizing i s with
  | zero => exact scanned_end hcore hlog hseen hfuel
  | succ fuel ih =>
    rw [scanFrom]
    cases hget : s.monitor.heartbeats[i]? with
    | none => exact scanned_end hcore hlog hseen (List.getElem?_eq_none_iff.mp hget)
    | some hb =>
      have hcore' : Core timeout (s.looked now i hb) := hcore.looked hlog hget
      have hseen' : SeenUpTo (i + 1) now (s.looked now i hb) := hseen.looked hget
      have hlog' : NotAfter now (s.looked now i hb).log := by
        refine notAfter_concat hlog ?_
        rintro name l found heq
        cases heq
        exact le_rfl
      have hnext : Scanned timeout now (scanFrom fuel now (i + 1) (s.looked now i hb)) := by
        refine ih hcore' hlog' hseen' ?_
        rw [System.looked, List.length_set]
        omega
      have hlast : (s.looked now i hb).log.getLast? =
          some (.looked hb.nodeName now (lookAt s.monitor.config now hb).1) := List.getLast?_concat
      have hcallback (e : Event) (thread : Thread) (hcall : e.IsCall) :
          NotAfter now ((s.looked now i hb).log ++ [e]) ∧ SeenUpTo (i + 1) now
            { s.looked now i hb with log := (s.looked now i hb).log ++ [e], thread := thread } :=
        ⟨notAfter_call hlog' hcall, hseen'.mono (List.prefix_refl _) (List.subset_append_left _ _)⟩
      dsimp only
      cases hfound : (lookAt s.monitor.config now hb).1 with
      | offline =>
        rw [hfound] at hlast
        have hoffline : FoundOffline hb.nodeName (s.looked now i hb).log := by
          refine ⟨s.log, now, [], ?_, List.forall_mem_nil _⟩
          rw [System.looked, hfound]
        have hname : (s.looked now i hb).monitor.names[i]? = some hb.nodeName := by
          rw [names_looked hget, Monitor.names, List.getElem?_map, hget, Option.map_some]
        dsimp only
        split
        · obtain ⟨hnot, hseen''⟩ := hcallback (.calledOffline hb.nodeName)
            (.inOffline now i (s.looked now i hb).monitor.array) trivial
          exact scanned_call hcore' hlog' trivial ⟨now, hlast⟩ ⟨hnot, hseen'', fun hfew => (hcore'.inPlace hfew).2,
            hb.nodeName, hname, hoffline.concat (.inl rfl)⟩ rfl
        · split
          · exact scanned_call hcore' hlog' trivial hoffline (hcallback _ _ trivial) rfl
          · exact hnext
      | recovered =>
        rw [hfound] at hlast
        dsimp only
        split
        · exact scanned_call hcore' hlog' trivial ⟨now, hlast⟩ (hcallback _ _ trivial) rfl
        · exact hnext
      | unchanged => exact hnext

theorem scanned_scan (hcore : Core timeout s) (hlog : NotAfter now s.log) (hseen : SeenUpTo i now s) :
    Scanned timeout now (scan now i s) :=
  scanned_scanFrom hcore hlog hseen (by omega)

/-- **The thread goes on.** -/
theorem scanned_resume (hcore : Core timeout s) (hthread : ThreadOk s) (hnow : s.scanning .resume = some now) :
    Scanned timeout now (resume s) := by
  rw [System.scanning] at hnow
  rw [ThreadOk] at hthread
  rw [resume]
  cases hs : s.thread with
  | asleep => simp [hs] at hnow
  | lost => simp [hs] at hnow
  | inCallback now' i =>
    simp only [hs, Option.some.injEq] at hnow hthread
    subst hnow
    exact scanned_scan hcore hthread.1 hthread.2
  | inOffline now' i array =>
    simp only [hs, Option.some.injEq] at hnow hthread
    subst hnow
    obtain ⟨hlog, hseen, harray, name, hname, hoffline⟩ := hthread
    dsimp only
    split
    · by_cases hmoved : s.monitor.array ≠ array
      · -- the array has grown
        have hmany : 100 < s.monitor.heartbeats.length := by
          by_contra hfew
          have hfew := Nat.le_of_not_lt hfew
          exact hmoved ((hcore.inPlace hfew).2.trans (harray hfew).symm)
        rw [if_pos hmoved]
        exact ⟨⟨hcore.timeout_eq, hcore.nodup, hcore.tracks, hcore.right, hcore.heard, hcore.inPlace⟩, hmany, nofun, hlog,
          nofun⟩
      · rw [if_neg hmoved]
        cases hget : s.monitor.heartbeats[i]? with
        | none => exact scanned_scan hcore hlog hseen
        | some hb =>
          obtain rfl : hb.nodeName = name := by
            rw [Monitor.names, List.getElem?_map, hget, Option.map_some, Option.some.injEq] at hname
            exact hname
          have hlog' : NotAfter now' (s.log ++ [.evicted hb.nodeName]) := notAfter_call hlog trivial
          exact ⟨hcore.call trivial hoffline, ⟨hlog', hseen.mono (List.prefix_refl _) (List.subset_append_left _ _)⟩, nofun,
            hlog', fun now'' hnow => (Option.some.inj hnow).symm⟩
    · exact scanned_scan hcore hlog hseen

/-- **A heartbeat** replaces the record of its node, or is behind the others; it is dropped if there is no memory for it. -/
theorem registerHeartbeat_cases (m : Monitor) (hb : Heartbeat) (moved : Option Bool) :
    (∃ pre x post, m.heartbeats = pre ++ x :: post ∧ x.nodeName = hb.nodeName ∧
      registerHeartbeat m hb moved = some { m with heartbeats := pre ++ hb :: post }) ∨
    hb.nodeName ∉ m.names ∧ (m.heartbeatCapacity ≤ m.heartbeats.length ∧ registerHeartbeat m hb moved = none ∨
      ∃ capacity array, registerHeartbeat m hb moved =
          some { m with heartbeats := m.heartbeats ++ [hb], heartbeatCapacity := capacity, array := array } ∧
        (m.heartbeats.length < m.heartbeatCapacity → capacity = m.heartbeatCapacity ∧ array = m.array)) := by
  unfold registerHeartbeat
  rcases List.splitFirst_key_cases Heartbeat.nodeName m.heartbeats hb.nodeName with
    ⟨hnone, hnew⟩ | ⟨pre, x, post, hsome, hl, hkey⟩
  · rw [hnone]
    refine .inr ⟨hnew, ?_⟩
    dsimp only
    by_cases hfull : m.heartbeats.length ≥ m.heartbeatCapacity
    · rw [if_pos hfull]
      cases moved with
      | none => exact .inl ⟨hfull, rfl⟩
      | some moved => exact .inr ⟨_, _, rfl, fun hroom => absurd hroom (Nat.not_lt.mpr hfull)⟩
    · rw [if_neg hfull]
      exact .inr ⟨_, _, rfl, fun _ => ⟨rfl, rfl⟩⟩
  · rw [hsome]
    exact .inl ⟨pre, x, post, hl, hkey, rfl⟩

theorem names_registerHeartbeat {m m' : Monitor} {moved : Option Bool} (h : registerHeartbeat m hb moved = some m') :
    m.names <+: m'.names ∧ ∀ name, name ∈ m'.names ↔ name = hb.nodeName ∨ name ∈ m.names := by
  rcases registerHeartbeat_cases m hb moved with ⟨pre, x, post, hl, hkey, heq⟩ | ⟨-, ⟨-, heq⟩ | ⟨capacity, array, heq, -⟩⟩
  · obtain rfl := Option.some.inj (heq.symm.trans h)
    have hsame : m.names = pre.map Heartbeat.nodeName ++ hb.nodeName :: post.map Heartbeat.nodeName := by
      rw [Monitor.names, hl, List.map_append, List.map_cons, hkey]
    have hreplaced : { m with heartbeats := pre ++ hb :: post }.names = m.names := by
      rw [hsame, Monitor.names, List.map_append, List.map_cons]
    rw [hreplaced]
    refine ⟨List.prefix_rfl, fun name => (or_iff_right_of_imp ?_).symm⟩
    rintro rfl
    rw [hsame]
    exact List.mem_append_cons_self
  · cases heq.symm.trans h
  · obtain rfl := Option.some.inj (heq.symm.trans h)
    simp only [Monitor.names, List.map_append, List.map_singleton]
    refine ⟨List.prefix_append _ _, fun name => ?_⟩
    rw [List.mem_append, List.mem_singleton, or_comm]

/-- **A heartbeat** that is heard. -/
theorem Core.heartbeat {m : Monitor} {moved : Option Bool} (hcore : Core timeout s)
    (hm : registerHeartbeat s.monitor hb moved = some m) :
    Core timeout { s with monitor := m, log := s.log ++ [.heard hb.nodeName hb.lastHeartbeat hb.status] } := by
  have htracks : Tracks timeout (s.log ++ [.heard hb.nodeName hb.lastHeartbeat hb.status]) hb := by
    refine ⟨⟨hb.lastHeartbeat, hb.status, []⟩, ?_, rfl, ?_⟩
    · rw [signsOf_concat, Signs.next, if_pos rfl]
    · rw [Signs.Ready]
      exact ⟨fun hst => ⟨List.forall_mem_nil _, .inl hst⟩, fun hr => hr.2.resolve_right fun hne => hne rfl⟩
  have hothers : ∀ x ∈ s.monitor.heartbeats, hb.nodeName ≠ x.nodeName →
      Tracks timeout (s.log ++ [.heard hb.nodeName hb.lastHeartbeat hb.status]) x := fun x hx hne =>
    (hcore.tracks x hx).concat fun signs => if_neg hne
  have hright : AllRight timeout (s.log ++ [.heard hb.nodeName hb.lastHeartbeat hb.status]) :=
    allRight_concat_iff.mpr ⟨hcore.right, trivial⟩
  have hheard : ∀ name, name ∈ m.names ↔ Heard name (s.log ++ [.heard hb.nodeName hb.lastHeartbeat hb.status]) := by
    intro name
    rw [(names_registerHeartbeat hm).2, heard_concat_iff, hcore.heard, or_comm]
    refine or_congr_right ⟨?_, ?_⟩
    · rintro rfl
      exact ⟨_, _, rfl⟩
    · rintro ⟨time, status, heq⟩
      cases heq
      rfl
  rcases registerHeartbeat_cases s.monitor hb moved with
    ⟨pre, x, post, hl, hkey, heq⟩ | ⟨hnew, ⟨-, heq⟩ | ⟨capacity, array, heq, hgrown⟩⟩
  · obtain rfl := Option.some.inj (heq.symm.trans hm)
    have hnodup := hcore.nodup
    rw [Monitor.names, hl] at hnodup
    refine ⟨hcore.timeout_eq, (List.nodup_replace_iff hnodup).mpr fun z hz => ?_, fun y hy => ?_, hright, hheard,
      fun hfew => hcore.inPlace ?_⟩
    · rw [← hkey]
      exact List.key_ne_of_nodup hnodup hz
    · rcases List.mem_append_cons_iff.mp hy with rfl | hy
      · exact htracks
      · refine hothers y (hl ▸ List.mem_append_cons_iff.mpr (.inr hy)) ?_
        rw [← hkey]
        exact (List.key_ne_of_nodup hnodup hy).symm
    · rw [hl]
      dsimp only at hfew
      rwa [List.length_append, List.length_cons] at hfew ⊢
  · cases heq.symm.trans hm
  · obtain rfl := Option.some.inj (heq.symm.trans hm)
    refine ⟨hcore.timeout_eq, List.nodup_map_concat.mpr ⟨hnew, hcore.nodup⟩, fun y hy => ?_, hright, hheard,
      fun hfew => ?_⟩
    · rcases List.mem_append.mp hy with hy | hy
      · exact hothers y hy fun heq => hnew (heq ▸ List.mem_map_of_mem hy)
      · exact List.mem_singleton.mp hy ▸ htracks
    · dsimp only at hfew
      rw [List.length_append, List.length_singleton] at hfew
      obtain ⟨hcapacity, harray⟩ := hcore.inPlace (by omega)
      obtain ⟨hcapacity', harray'⟩ := hgrown (by omega)
      exact ⟨hcapacity'.trans hcapacity, harray'.trans harray⟩

/-- The thread does not notice a heartbeat. -/
theorem ThreadOk.heartbeat {m : Monitor} {moved : Option Bool} (hthread : ThreadOk s)
    (hm : registerHeartbeat s.monitor hb moved = some m) :
    ThreadOk { s with monitor := m, log := s.log ++ [.heard hb.nodeName hb.lastHeartbeat hb.status] } := by
  have hnames := (names_registerHeartbeat hm).1
  have hlog : s.log ⊆ s.log ++ [.heard hb.nodeName hb.lastHeartbeat hb.status] := List.subset_append_left _ _
  have hlen : s.monitor.heartbeats.length ≤ m.heartbeats.length := by
    have hle := hnames.length_le
    rwa [Monitor.names, Monitor.names, List.length_map, List.length_map] at hle
  have hnot {now : Int} (hnow : NotAfter now s.log) :
      NotAfter now (s.log ++ [.heard hb.nodeName hb.lastHeartbeat hb.status]) := notAfter_concat hnow nofun
  rw [ThreadOk] at hthread ⊢
  cases hs : s.thread with
  | asleep => trivial
  | lost =>
    simp only [hs] at hthread ⊢
    exact hthread.trans_le hlen
  | inCallback now i =>
    simp only [hs] at hthread ⊢
    exact ⟨hnot hthread.1, hthread.2.mono hnames hlog⟩
  | inOffline now i array =>
    simp only [hs] at hthread ⊢
    obtain ⟨hnow, hseen, harray, name, hname, hoffline⟩ := hthread
    refine ⟨hnot hnow, hseen.mono hnames hlog, fun hfew => harray (hlen.trans hfew), name, ?_, ?_⟩
    · obtain ⟨more, hmore⟩ := hnames
      rw [← hmore, List.getElem?_append_left (List.getElem?_eq_some_iff.mp hname).1, hname]
    · exact hoffline.concat (.inr ⟨_, _, _, rfl⟩)

/-- No callback returns. -/
theorem resume_of_none (h : s.scanning .resume = none) : resume s = s := by
  rw [System.scanning] at h
  rw [resume]
  cases hs : s.thread <;> simp [hs] at h ⊢

/-- **One step.** -/
theorem core_step (hcore : Core timeout s) (hthread : ThreadOk s) (op : Op)
    (htime : ∀ now, op.scanTime = some now → NotAfter now s.log) :
    Core timeout (step s op) ∧ ThreadOk (step s op) ∧ LooksAtAll s op := by
  have hset (m : Monitor) (hm : m.config = s.monitor.config ∧ m.heartbeats = s.monitor.heartbeats ∧
      m.heartbeatCapacity = s.monitor.heartbeatCapacity ∧ m.array = s.monitor.array) :
      Core timeout { s with monitor := m } ∧ ThreadOk { s with monitor := m } := by
    obtain ⟨hconfig, hheartbeats, hcapacity, harray⟩ := hm
    have hnames : m.names = s.monitor.names := by rw [Monitor.names, hheartbeats, Monitor.names]
    refine ⟨⟨by rw [hconfig]; exact hcore.timeout_eq, by rw [hnames]; exact hcore.nodup,
      by rw [hheartbeats]; exact hcore.tracks, hcore.right, by rw [hnames]; exact hcore.heard,
      by rw [hheartbeats, hcapacity, harray]; exact hcore.inPlace⟩, ?_⟩
    rw [ThreadOk] at hthread ⊢
    simpa only [SeenUpTo, hnames, hheartbeats] using hthread
  have hall {t : System} {now : Int} (hscanned : Scanned timeout now t) (hasleep : t.thread = .asleep) :
      ∀ name, Heard name t.log → ∃ found, .looked name now found ∈ t.log := fun name hheard =>
    (hscanned.all hasleep).2 name (by rw [List.take_length]; exact (hscanned.core.heard name).mpr hheard)
  cases op with
  | heartbeat hb moved =>
    rw [LooksAtAll, step]
    cases hm : registerHeartbeat s.monitor hb moved with
    | none => exact ⟨hcore, hthread, nofun⟩
    | some m => exact ⟨hcore.heartbeat hm, hthread.heartbeat hm, nofun⟩
  | setOffline set =>
    obtain ⟨hcore', hthread'⟩ := hset { s.monitor with onNodeOffline := set } ⟨rfl, rfl, rfl, rfl⟩
    exact ⟨hcore', hthread', nofun⟩
  | setOnline set =>
    obtain ⟨hcore', hthread'⟩ := hset { s.monitor with onNodeRecovered := set } ⟨rfl, rfl, rfl, rfl⟩
    exact ⟨hcore', hthread', nofun⟩
  | setEviction set =>
    obtain ⟨hcore', hthread'⟩ := hset { s.monitor with evictPodsFromNode := set } ⟨rfl, rfl, rfl, rfl⟩
    exact ⟨hcore', hthread', nofun⟩
  | scan now =>
    rw [LooksAtAll, step, System.scanning]
    cases hs : s.thread with
    | asleep =>
      have hscanned : Scanned timeout now (scan now 0 s) :=
        scanned_scan hcore (htime now rfl) ⟨Nat.zero_le _, List.forall_mem_nil _⟩
      refine ⟨hscanned.core, hscanned.thread, ?_⟩
      rintro now' rfl' hasleep
      cases rfl'
      exact hall hscanned hasleep
    | lost => exact ⟨hcore, hthread, nofun⟩
    | inOffline now' i array => exact ⟨hcore, hthread, nofun⟩
    | inCallback now' i => exact ⟨hcore, hthread, nofun⟩
  | resume =>
    cases hnow : s.scanning .resume with
    | none =>
      rw [LooksAtAll, step, resume_of_none hnow, hnow]
      exact ⟨hcore, hthread, nofun⟩
    | some now =>
      have hscanned : Scanned timeout now (resume s) := scanned_resume hcore hthread hnow
      refine ⟨hscanned.core, hscanned.thread, fun now' hnow' hend => ?_⟩
      obtain rfl := Option.some.inj (hnow.symm.trans hnow')
      exact hall hscanned hend

end Steps

/-! ## Runs -/

/-- All looks so far, and those to come of the scan that is going on, are not later than this. -/
def Bounded (t : Int) (s : System) : Prop := NotAfter t s.log ∧ ∀ now, s.scanning .resume = some now → now ≤ t

theorem bounded_step {t : Int} (hcore : Core timeout s) (hthread : ThreadOk s) (hbound : Bounded t s) (op : Op)
    (hnow : ∀ now, op.scanTime = some now → NotAfter now s.log ∧ now ≤ t) : Bounded t (step s op) := by
  have hscanned {now : Int} {u : System} (hu : Scanned timeout now u) (hle : now ≤ t) : Bounded t u :=
    ⟨fun name l found hmem => (hu.notAfter name l found hmem).trans hle, fun now' hnow' => hu.same now' hnow' ▸ hle⟩
  cases op with
  | heartbeat hb moved =>
    rw [step]
    split
    · exact hbound
    · exact ⟨notAfter_concat hbound.1 nofun, hbound.2⟩
  | setOffline set => exact hbound
  | setOnline set => exact hbound
  | setEviction set => exact hbound
  | scan now =>
    rw [step]
    cases hs : s.thread with
    | asleep =>
      obtain ⟨hlog, hle⟩ := hnow now rfl
      exact hscanned (scanned_scan hcore hlog ⟨Nat.zero_le _, List.forall_mem_nil _⟩) hle
    | lost => exact hbound
    | inOffline now' i array => exact hbound
    | inCallback now' i => exact hbound
  | resume =>
    cases hscan : s.scanning .resume with
    | some now => exact hscanned (scanned_resume hcore hthread hscan) (hbound.2 now hscan)
    | none =>
      rw [step, resume_of_none hscan]
      exact hbound

theorem inv_run (hcore : Core timeout s) (hthread : ThreadOk s)
    (hordered : (ops.filterMap Op.scanTime).Pairwise (· ≤ ·)) (hbound : ∀ t ∈ ops.filterMap Op.scanTime, Bounded t s) :
    AllStates step (fun s => Core timeout s ∧ ThreadOk s) s ops ∧ AllSteps step LooksAtAll s ops := by
  induction ops generalizing s with
  | nil => exact ⟨⟨hcore, hthread⟩, trivial⟩
  | cons op ops ih =>
    rw [List.filterMap_cons] at hordered hbound
    have htime : ∀ now, op.scanTime = some now → Bounded now s ∧ ∀ t ∈ ops.filterMap Op.scanTime, now ≤ t := by
      intro now hnow
      rw [hnow] at hordered hbound
      exact ⟨hbound now List.mem_cons_self, (List.pairwise_cons.mp hordered).1⟩
    have hrest : (ops.filterMap Op.scanTime).Pairwise (· ≤ ·) ∧ ∀ t ∈ ops.filterMap Op.scanTime, Bounded t s := by
      cases hscan : op.scanTime with
      | none =>
        rw [hscan] at hordered hbound
        exact ⟨hordered, hbound⟩
      | some now =>
        rw [hscan] at hordered hbound
        exact ⟨(List.pairwise_cons.mp hordered).2, fun t ht => hbound t (List.mem_cons_of_mem _ ht)⟩
    obtain ⟨hcore', hthread', hall⟩ := core_step hcore hthread op fun now hnow => (htime now hnow).1.1
    have hnext := ih hcore' hthread' hrest.1 fun t ht => bounded_step hcore hthread (hrest.2 t ht) op
      fun now hnow => ⟨(htime now hnow).1.1, (htime now hnow).2 t ht⟩
    exact ⟨⟨⟨hcore, hthread⟩, hnext.1⟩, hall, hnext.2⟩

/-- A step that hears nothing. -/
theorem beats_scanFrom (fuel : Nat) (now : Int) (i : Nat) (s : System) :
    (scanFrom fuel now i s).log.filterMap Event.beat = s.log.filterMap Event.beat := by
  induction fuel generalizing i s with
  | zero => rfl
  | succ fuel ih =>
    have hlooked : ∀ hb, (s.looked now i hb).log.filterMap Event.beat = s.log.filterMap Event.beat := fun hb => by
      rw [System.looked, List.filterMap_append]
      exact List.append_nil _
    have hcall : ∀ hb (e : Event), e.beat = none →
        ((s.looked now i hb).log ++ [e]).filterMap Event.beat = s.log.filterMap Event.beat := fun hb e he => by
      rw [List.filterMap_append, hlooked, List.filterMap_cons_none he]
      exact List.append_nil _
    rw [scanFrom]
    cases s.monitor.heartbeats[i]? with
    | none => rfl
    | some hb =>
      dsimp only
      split
      · split
        · exact hcall hb _ rfl
        · split
          · exact hcall hb _ rfl
          · exact (ih _ _).trans (hlooked hb)
      · split
        · exact hcall hb _ rfl
        · exact (ih _ _).trans (hlooked hb)
      · exact (ih _ _).trans (hlooked hb)

theorem beats_resume (s : System) : (resume s).log.filterMap Event.beat = s.log.filterMap Event.beat := by
  rw [resume]
  cases s.thread with
  | asleep => rfl
  | lost => rfl
  | inCallback now i => exact beats_scanFrom _ _ _ _
  | inOffline now i array =>
    dsimp only
    split
    · split
      · rfl
      · split
        · exact beats_scanFrom _ _ _ _
        · rw [List.filterMap_append]
          exact List.append_nil _
    · exact beats_scanFrom _ _ _ _

/-- **A heartbeat is heard** as long as there are at most 100 nodes; nothing else is. -/
theorem beats_step (hcore : Core timeout s) {nodes : List CString} (hnodes : nodes.length ≤ 100)
    (hknown : ∀ name, Heard name s.log → name ∈ nodes) (op : Op) (hsender : ∀ beat ∈ op.beat, beat.1 ∈ nodes) :
    (step s op).log.filterMap Event.beat = s.log.filterMap Event.beat ++ op.beat.toList := by
  cases op with
  | heartbeat hb moved =>
    have hhere : hb.nodeName ∈ nodes := hsender _ rfl
    have hheard : (s.log ++ [Event.heard hb.nodeName hb.lastHeartbeat hb.status]).filterMap Event.beat =
        s.log.filterMap Event.beat ++ [(hb.nodeName, hb.lastHeartbeat, hb.status)] := by
      rw [List.filterMap_append]
      rfl
    rw [step]
    rcases registerHeartbeat_cases s.monitor hb moved with
      ⟨pre, x, post, -, -, heq⟩ | ⟨hnew, ⟨hfull, -⟩ | ⟨capacity, array, heq, -⟩⟩
    · rw [heq]
      exact hheard
    · -- with this node there are at most 100, so there is room
      have hsub : hb.nodeName :: s.monitor.names ⊆ nodes := by
        refine List.cons_subset.mpr ⟨hhere, fun name hname => ?_⟩
        exact hknown name ((hcore.heard name).mp hname)
      have hle := (List.subperm_of_subset (List.nodup_cons.mpr ⟨hnew, hcore.nodup⟩) hsub).length_le
      rw [List.length_cons, Monitor.names, List.length_map] at hle
      have hcapacity := (hcore.inPlace (by omega)).1
      omega
    · rw [heq]
      exact hheard
  | setOffline set => exact (List.append_nil _).symm
  | setOnline set => exact (List.append_nil _).symm
  | setEviction set => exact (List.append_nil _).symm
  | scan now =>
    refine Eq.trans ?_ (List.append_nil _).symm
    rw [step]
    cases s.thread with
    | asleep => exact beats_scanFrom _ _ _ _
    | lost => rfl
    | inOffline now' i array => rfl
    | inCallback now' i => rfl
  | resume => exact (beats_resume s).trans (List.append_nil _).symm

/-- What is heard was sent. -/
theorem heard_iff_beat : Heard name log ↔ name ∈ (log.filterMap Event.beat).map Prod.fst := by
  simp only [Heard, List.mem_map, List.mem_filterMap]
  constructor
  · rintro ⟨time, status, hmem⟩
    exact ⟨(name, time, status), ⟨_, hmem, rfl⟩, rfl⟩
  · rintro ⟨⟨name', time, status⟩, ⟨e, hmem, he⟩, rfl⟩
    cases e with
    | heard name'' time' status' =>
      cases he
      exact ⟨_, _, hmem⟩
    | looked name'' now found => cases he
    | calledOffline name'' => cases he
    | calledRecovered name'' => cases he
    | evicted name'' => cases he

/-- **All heartbeats are heard** in a run with at most 100 nodes. -/
theorem beats_run {nodes : List CString} (hcore : AllStates step (Core timeout) s ops) (hnodes : nodes.length ≤ 100)
    (hknown : ∀ name, Heard name s.log → name ∈ nodes) (hsenders : ∀ beat ∈ ops.filterMap Op.beat, beat.1 ∈ nodes) :
    (run step s ops).log.filterMap Event.beat = s.log.filterMap Event.beat ++ ops.filterMap Op.beat := by
  induction ops generalizing s with
  | nil => exact (List.append_nil _).symm
  | cons op ops ih =>
    have hfirst : (op :: ops).filterMap Op.beat = op.beat.toList ++ ops.filterMap Op.beat := by
      rw [List.filterMap_cons]
      cases op.beat <;> rfl
    rw [hfirst] at hsenders ⊢
    have hstep := beats_step hcore.head hnodes hknown op fun beat hbeat =>
      hsenders beat (List.mem_append_left _ (Option.mem_toList.mpr hbeat))
    rw [run_cons, ih hcore.2 (fun name hheard => ?_) fun beat hbeat => hsenders beat (List.mem_append_right _ hbeat), hstep,
      List.append_assoc]
    rw [heard_iff_beat, hstep, List.map_append, List.mem_append, ← heard_iff_beat] at hheard
    rcases hheard with hheard | hheard
    · exact hknown name hheard
    · obtain ⟨beat, hbeat, rfl⟩ := List.mem_map.mp hheard
      exact hsenders beat (List.mem_append_left _ hbeat)

/-- **Outages are found exactly**, in every interleaving in which the clock does not go back from scan to scan. With at most 100
nodes every heartbeat is heard, and the thread uses no record that has moved. -/
theorem outages_exact (config : Config) (ops : List Op) (h : (ops.filterMap Op.scanTime).Pairwise (· ≤ ·)) :
    AllRight config.heartbeatTimeoutSeconds.toNat (run step (.new config) ops).log ∧
      AllSteps step LooksAtAll (.new config) ops ∧
      ((senders ops).length ≤ 100 →
        (run step (.new config) ops).log.filterMap Event.beat = ops.filterMap Op.beat ∧
          (run step (.new config) ops).thread ≠ .lost) := by
  have hnew : Core config.heartbeatTimeoutSeconds.toNat (.new config) :=
    ⟨rfl, List.nodup_nil, List.forall_mem_nil _, trivial, fun name => iff_of_false List.not_mem_nil nofun, fun _ => ⟨rfl, rfl⟩⟩
  obtain ⟨hrun, hall⟩ := inv_run hnew trivial h fun t _ => ⟨nofun, nofun⟩
  obtain ⟨hcore, hthread⟩ := hrun.run_mem
  refine ⟨hcore.right, hall, fun hfew => ?_⟩
  have hbeats : (run step (.new config) ops).log.filterMap Event.beat = ops.filterMap Op.beat :=
    beats_run (hrun.imp fun _ hs => hs.1) hfew nofun fun beat hbeat => List.mem_dedup.mpr (List.mem_map_of_mem hbeat)
  refine ⟨hbeats, fun hlost => ?_⟩
  have hsub : (run step (.new config) ops).monitor.names ⊆ senders ops := by
    intro name hname
    rw [hcore.heard, heard_iff_beat, hbeats] at hname
    exact List.mem_dedup.mpr hname
  have hle := (List.subperm_of_subset hcore.nodup hsub).length_le
  rw [Monitor.names, List.length_map] at hle
  rw [ThreadOk, hlost] at hthread
  dsimp only at hthread
  omega

/-- A heartbeat. -/
def beat (name : CString) (time : Int) (status : NodeStatus) : Op :=
  .heartbeat ⟨name, time, status, none, 4000, 8000, 3⟩ none

/-- Two nodes, one of which comes back while the other one's callback runs. -/
theorem outages_exact_back :
    let ops : List Op := [.setOffline true, .setEviction true, beat "n1" 0 .ready, beat "n2" 5 .ready, .scan 50,
      beat "n2" 51 .notReady, .resume, .resume, .scan 60, .scan 70]
    let s := run step (.new ⟨40, true⟩) ops
    AllRight 40 s.log ∧ AllSteps step LooksAtAll (.new ⟨40, true⟩) ops ∧
      s.log.filterMap Event.beat = ops.filterMap Op.beat ∧ s.thread ≠ .lost := by
  intro ops s
  obtain ⟨hright, hall, hfew⟩ := outages_exact ⟨40, true⟩ ops (by decide)
  exact ⟨hright, hall, hfew (by decide)⟩

end Sirah.NodeMonitor
