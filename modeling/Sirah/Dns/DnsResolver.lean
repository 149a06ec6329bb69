import Sirah.Lib.CString
import Sirah.Lib.Run

/-!
# The cluster DNS

Model of `internal/dns/dns_resolver.c`: a list of records for services and pods. A registration appends a
record. A lookup, and an unregistration, stop at the first record with the name.

Two places leave what the source defines. `dns_resolver_lookup_service` allocates a buffer of eight bytes and
writes one byte of the address of the copy of the IP into it, so that what the caller reads is whatever the
memory held (`scratch`). `dns_resolver_generate_pod_fqdn` copies the IP into 32 bytes; a run in which it does
not fit is in no state any more (`none`).

* `Refines`: lookups and reverse lookups agree with two maps that hold what was registered last.
* **`maps_refined_iff`**: they agree in every state of a run **iff** no service is registered, every pod is
  registered with an IP that fits and under the IP it has, and a pod is unregistered with one record at most.
* `stale_address`: a pod that is registered again keeps its old address.
-/

namespace Sirah.Dns

open Runs

/-! ## Records -/

/-- `dns_record_t`. -/
structure Record where
  fqdn : CString
  value : CString
  serviceName : Option CString
  podName : Option CString
  ns : CString
  deriving DecidableEq

/-- `dns_resolver_t`. -/
structure Resolver where
  clusterDomain : CString
  records : List Record

/-- `dns_resolver_create`. -/
def Resolver.create (clusterDomain : CString) : Resolver := ⟨clusterDomain, []⟩

/-- A name in a namespace. -/
structure Name where
  name : CString
  ns : CString
  deriving DecidableEq

/-- Is it a record of this service? -/
def Record.isService (n : Name) (r : Record) : Bool := r.serviceName == some n.name && r.ns == n.ns

/-- Is it a record of this pod? -/
def Record.isPod (n : Name) (r : Record) : Bool := r.podName == some n.name && r.ns == n.ns

/-- `dns_resolver_generate_service_fqdn`. -/
def generateServiceFqdn (n : Name) (clusterDomain : CString) : CString :=
  CString.snprintf 256 (n.name ++ CString.ofString "." ++ n.ns ++ CString.ofString ".svc." ++ clusterDomain)

/-- `dns_resolver_generate_pod_fqdn`: the dots of the IP are dashes, in a buffer of 32 bytes. -/
def generatePodFqdn (podIp ns clusterDomain : CString) : Option CString :=
  if podIp.length < 32 then
    some (CString.snprintf 256 ((podIp.map fun c => if c = 46 then 45 else c) ++ CString.ofString "." ++ ns ++
      CString.ofString ".pod." ++ clusterDomain))
  else none

/-- `dns_resolver_register_service`. The pods of a headless service are not read. -/
def Resolver.registerService (d : Resolver) (n : Name) (serviceIp : CString) : Resolver :=
  { d with records := d.records ++ [⟨generateServiceFqdn n d.clusterDomain, serviceIp, some n.name, none, n.ns⟩] }

/-- The first record that satisfies `p` is removed. -/
def Resolver.remove (d : Resolver) (p : Record → Bool) : Resolver × Bool :=
  if d.records.any p then ({ d with records := d.records.eraseP p }, true) else (d, false)

/-- `dns_resolver_unregister_service`. -/
def Resolver.unregisterService (d : Resolver) (n : Name) : Resolver × Bool := d.remove (Record.isService n)

/-- `dns_resolver_register_pod`. -/
def Resolver.registerPod (d : Resolver) (n : Name) (podIp : CString) : Option Resolver :=
  (generatePodFqdn podIp n.ns d.clusterDomain).map fun fqdn =>
    { d with records := d.records ++ [⟨fqdn, podIp, none, some n.name, n.ns⟩] }

/-- `dns_resolver_unregister_pod`. -/
def Resolver.unregisterPod (d : Resolver) (n : Name) : Resolver × Bool := d.remove (Record.isPod n)

/-- `dns_resolver_lookup_service`: the text the caller finds at `*out_ip`. -/
def Resolver.lookupService (d : Resolver) (scratch : CString) (n : Name) : Option CString :=
  (d.records.find? (Record.isService n)).map fun _ => scratch

/-- `dns_resolver_lookup_pod`. -/
def Resolver.lookupPod (d : Resolver) (n : Name) : Option CString :=
  (d.records.find? (Record.isPod n)).map Record.value

/-- `dns_resolver_reverse_lookup`. -/
def Resolver.reverseLookup (d : Resolver) (ip : CString) : Option CString :=
  (d.records.find? fun r => r.value == ip).map Record.fqdn

/-- `dns_resolver_get_stats`: services, pods and all records. -/
def Resolver.getStats (d : Resolver) : Nat × Nat × Nat :=
  (d.records.countP fun r => r.serviceName.isSome,
    d.records.countP fun r => !r.serviceName.isSome && r.podName.isSome, d.records.length)

/-! ## Runs -/

/-- The resolver, and what was registered last under each name and not unregistered since. -/
structure World where
  resolver : Resolver
  services : Name → Option CString
  pods : Name → Option CString

def World.create (clusterDomain : CString) : World := ⟨.create clusterDomain, fun _ => none, fun _ => none⟩

inductive Op where
  | registerService (n : Name) (ip : CString)
  | unregisterService (n : Name)
  | registerPod (n : Name) (ip : CString)
  | unregisterPod (n : Name)

def World.step (w : World) : Op → Option World
  | .registerService n ip => some
    { w with resolver := w.resolver.registerService n ip, services := Function.update w.services n (some ip) }
  | .unregisterService n => some
    { w with resolver := (w.resolver.unregisterService n).1, services := Function.update w.services n none }
  | .registerPod n ip => (w.resolver.registerPod n ip).map fun resolver =>
    { w with resolver := resolver, pods := Function.update w.pods n (some ip) }
  | .unregisterPod n => some
    { w with resolver := (w.resolver.unregisterPod n).1, pods := Function.update w.pods n none }

def step (s : Option World) (op : Op) : Option World := s.bind fun w => w.step op

/-- **The resolver refines the two maps**, whatever the memory held. -/
structure World.Refines (w : World) : Prop where
  services : ∀ n scratch, w.resolver.lookupService scratch n = w.services n
  pods : ∀ n, w.resolver.lookupPod n = w.pods n
  /-- A reverse lookup finds the FQDN of a name whose address is the IP. -/
  reverse : ∀ ip host, w.resolver.reverseLookup ip = some host →
    (∃ n, w.services n = some ip ∧ generateServiceFqdn n w.resolver.clusterDomain = host) ∨
    ∃ n, w.pods n = some ip ∧ generatePodFqdn ip n.ns w.resolver.clusterDomain = some host

/-- In a state that the source defines. -/
def Refines : Option World → Prop
  | some w => w.Refines
  | none => False

/-- No service is registered. A pod is registered with an IP that fits, and if it has a record, under the IP
of its first one. A pod is unregistered with one record at most. -/
def Clean : Option World → Op → Prop
  | some _, .registerService _ _ => False
  | some _, .unregisterService _ => True
  | some w, .registerPod n ip => ip.length < 32 ∧ ∀ old, w.resolver.lookupPod n = some old → old = ip
  | some w, .unregisterPod n => w.resolver.records.countP (Record.isPod n) ≤ 1
  | none, _ => False

/-- **The invariant**: every record is one of a pod, under the address the pod has. -/
def World.Current (w : World) : Prop :=
  ∀ r ∈ w.resolver.records, r.serviceName = none ∧ ∃ n, r.podName = some n.name ∧ r.ns = n.ns ∧
    w.pods n = some r.value ∧ generatePodFqdn r.value n.ns w.resolver.clusterDomain = some r.fqdn

/-! ## Removing the first record -/

theorem find?_eraseP_of_disjoint {α : Type} {p q : α → Bool} {l : List α}
    (h : ∀ x ∈ l, p x = true → q x = false) : (l.eraseP p).find? q = l.find? q := by
  induction l with
  | nil => rfl
  | cons x l ih =>
    by_cases hp : p x = true
    · rw [List.eraseP_cons_of_pos hp, List.find?_cons_of_neg]
      rw [h x List.mem_cons_self hp]
      exact Bool.false_ne_true
    · rw [List.eraseP_cons_of_neg hp, List.find?_cons, List.find?_cons,
        ih fun y hy => h y (List.mem_cons_of_mem x hy)]

/-- **The first record goes**, and one that satisfies `p` is left unless there was one at most. -/
theorem find?_eraseP_eq_none_iff {α : Type} {p : α → Bool} {l : List α} :
    (l.eraseP p).find? p = none ↔ l.countP p ≤ 1 := by
  induction l with
  | nil => simp
  | cons x l ih =>
    by_cases hp : p x = true
    · rw [List.eraseP_cons_of_pos hp, List.countP_cons_of_pos hp, List.find?_eq_none, ← List.countP_eq_zero]
      omega
    · rw [List.eraseP_cons_of_neg hp, List.countP_cons_of_neg hp, List.find?_cons_of_neg hp, ih]

theorem Resolver.records_remove {d : Resolver} {p : Record → Bool} :
    (d.remove p).1 = { d with records := d.records.eraseP p } := by
  unfold Resolver.remove
  split
  · rfl
  · rename_i hnone
    rw [List.eraseP_of_forall_not fun r hr hp => hnone (List.any_eq_true.mpr ⟨r, hr, hp⟩)]

/-! ## Steps -/

variable {w : World} {n n' : Name} {r : Record} {ip fqdn : CString} {op : Op} {s : Option World}

theorem Record.isPod_iff : r.isPod n = true ↔ r.podName = some n.name ∧ r.ns = n.ns := by
  rw [Record.isPod, Bool.and_eq_true, beq_iff_eq, beq_iff_eq]

theorem Record.isPod_unique (h : r.isPod n = true) (h' : r.isPod n' = true) : n = n' := by
  obtain ⟨hname, hns⟩ := Record.isPod_iff.mp h
  obtain ⟨hname', hns'⟩ := Record.isPod_iff.mp h'
  cases n
  cases n'
  rw [hname, Option.some.injEq] at hname'
  rw [hns] at hns'
  simp only [Name.mk.injEq]
  exact ⟨hname', hns'⟩

theorem World.Current.not_isService (h : w.Current) (hr : r ∈ w.resolver.records) (n : Name) :
    r.isService n = false := by
  rw [Record.isService, (h r hr).1]
  rfl

theorem World.Current.lookupService (h : w.Current) (n : Name) (scratch : CString) :
    w.resolver.lookupService scratch n = none := by
  have hnone : w.resolver.records.find? (Record.isService n) = none :=
    List.find?_eq_none.mpr fun r hr => by
      rw [h.not_isService hr]
      exact Bool.false_ne_true
  rw [Resolver.lookupService, hnone]
  rfl

/-- **Reverse lookups are right** where every record is current. -/
theorem World.Current.reverse (h : w.Current) {host : CString} (hhost : w.resolver.reverseLookup ip = some host) :
    ∃ n, w.pods n = some ip ∧ generatePodFqdn ip n.ns w.resolver.clusterDomain = some host := by
  obtain ⟨r, hfind, rfl⟩ := Option.map_eq_some_iff.mp hhost
  have hvalue : r.value = ip := beq_iff_eq.mp (List.find?_some (p := fun r : Record => r.value == ip) hfind)
  obtain ⟨-, n, -, -, hpods, hfqdn⟩ := h r (List.mem_of_find?_eq_some hfind)
  rw [hvalue] at hpods hfqdn
  exact ⟨n, hpods, hfqdn⟩

/-- What refinement comes to where every record is current. -/
theorem World.Current.refines_spec (h : w.Current) :
    w.Refines ↔ (∀ n, w.services n = none) ∧ ∀ n, w.resolver.lookupPod n = w.pods n := by
  constructor
  · intro hw
    exact ⟨fun n => (hw.services n []).symm.trans (h.lookupService n []), hw.pods⟩
  · rintro ⟨hservices, hpods⟩
    refine ⟨fun n scratch => ?_, hpods, fun ip host hhost => .inr (h.reverse hhost)⟩
    rw [h.lookupService, hservices]

/-- **A service that is registered** is not found under its IP. -/
theorem not_refines_registerService : ¬ Refines (w.step (.registerService n ip)) := by
  intro h
  have hlookup := h.services n (0 :: ip)
  have hghost : Function.update w.services n (some ip) n = some ip := Function.update_self n (some ip) w.services
  obtain ⟨r, hr⟩ : ∃ r, (w.resolver.registerService n ip).records.find? (Record.isService n) = some r := by
    rw [← Option.isSome_iff_exists, List.find?_isSome]
    refine ⟨_, List.mem_append_right _ List.mem_cons_self, ?_⟩
    rw [Record.isService, beq_self_eq_true, beq_self_eq_true]
    rfl
  have hfound : (w.resolver.registerService n ip).lookupService (0 :: ip) n = some (0 :: ip) := by
    rw [Resolver.lookupService, hr]
    rfl
  have heq : some (0 :: ip) = some ip := hfound.symm.trans (hlookup.trans hghost)
  exact absurd (Option.some.inj heq) (List.cons_ne_self 0 ip)

/-- The world after a pod is registered under a FQDN. -/
def World.withPod (w : World) (n : Name) (ip fqdn : CString) : World :=
  { w with
    resolver := { w.resolver with records := w.resolver.records ++ [⟨fqdn, ip, none, some n.name, n.ns⟩] }
    pods := Function.update w.pods n (some ip) }

/-- The world after a pod is unregistered. -/
def World.withoutPod (w : World) (n : Name) : World :=
  { w with
    resolver := { w.resolver with records := w.resolver.records.eraseP (Record.isPod n) }
    pods := Function.update w.pods n none }

theorem World.pods_withPod_self : (w.withPod n ip fqdn).pods n = some ip := Function.update_self n _ w.pods

theorem World.pods_withPod_of_ne (h : n' ≠ n) : (w.withPod n ip fqdn).pods n' = w.pods n' :=
  Function.update_of_ne h _ w.pods

theorem World.pods_withoutPod_self : (w.withoutPod n).pods n = none := Function.update_self n _ w.pods

theorem World.pods_withoutPod_of_ne (h : n' ≠ n) : (w.withoutPod n).pods n' = w.pods n' :=
  Function.update_of_ne h _ w.pods

theorem step_registerPod_of_fits (hfqdn : generatePodFqdn ip n.ns w.resolver.clusterDomain = some fqdn) :
    w.step (.registerPod n ip) = some (w.withPod n ip fqdn) := by
  rw [World.step, Resolver.registerPod, hfqdn]
  rfl

theorem step_unregisterPod : w.step (.unregisterPod n) = some (w.withoutPod n) := by
  rw [World.step, Resolver.unregisterPod, Resolver.records_remove]
  rfl

/-- The first record of a pod stays the first. -/
theorem lookupPod_withPod : (w.withPod n ip fqdn).resolver.lookupPod n' =
    (w.resolver.lookupPod n').or (if n' = n then some ip else none) := by
  have hlast : ([⟨fqdn, ip, none, some n.name, n.ns⟩] : List Record).find? (Record.isPod n') =
      if n' = n then some ⟨fqdn, ip, none, some n.name, n.ns⟩ else none := by
    rw [List.find?_singleton]
    refine if_congr ?_ rfl rfl
    have hself : Record.isPod n ⟨fqdn, ip, none, some n.name, n.ns⟩ = true := Record.isPod_iff.mpr ⟨rfl, rfl⟩
    exact ⟨fun h => Record.isPod_unique h hself, fun h => h ▸ hself⟩
  rw [Resolver.lookupPod, World.withPod, List.find?_append, hlast, Option.map_or, Resolver.lookupPod]
  split <;> rfl

theorem World.Current.withPod (h : w.Current) (hfqdn : generatePodFqdn ip n.ns w.resolver.clusterDomain = some fqdn)
    (hold : ∀ old, w.pods n = some old → old = ip) : (w.withPod n ip fqdn).Current := by
  intro r hr
  rcases List.mem_append.mp hr with hr | hr
  · obtain ⟨hservice, n₀, hname, hns, hpods, hfqdn₀⟩ := h r hr
    refine ⟨hservice, n₀, hname, hns, ?_, hfqdn₀⟩
    by_cases heq : n₀ = n
    · subst heq
      rw [hold _ hpods, World.pods_withPod_self]
    · rw [World.pods_withPod_of_ne heq, hpods]
  · rw [List.mem_singleton.mp hr]
    exact ⟨rfl, n, rfl, rfl, World.pods_withPod_self, hfqdn⟩

/-- **A pod is registered** as the map has it exactly if it had no other address. -/
theorem refines_withPod_iff (hcurrent : w.Current) (hw : w.Refines)
    (hfqdn : generatePodFqdn ip n.ns w.resolver.clusterDomain = some fqdn) :
    (w.withPod n ip fqdn).Refines ↔ ∀ old, w.resolver.lookupPod n = some old → old = ip := by
  constructor
  · intro h old hold
    have hlookup := h.pods n
    rw [lookupPod_withPod, hold, Option.some_or, World.pods_withPod_self] at hlookup
    exact Option.some.inj hlookup
  · intro hold
    have hcurrent' := hcurrent.withPod hfqdn (hw.pods n ▸ hold)
    refine hcurrent'.refines_spec.mpr ⟨(hcurrent.refines_spec.mp hw).1, fun n' => ?_⟩
    rw [lookupPod_withPod]
    by_cases heq : n' = n
    · subst heq
      rw [if_pos rfl, World.pods_withPod_self]
      cases hlookup : w.resolver.lookupPod n' with
      | none => rfl
      | some old => rw [Option.some_or, hold old hlookup]
    · rw [if_neg heq, Option.or_none, hw.pods, World.pods_withPod_of_ne heq]

theorem World.Current.withoutPod (h : w.Current) (hone : w.resolver.records.countP (Record.isPod n) ≤ 1) :
    (w.withoutPod n).Current := by
  intro r hr
  obtain ⟨hservice, n₀, hname, hns, hpods, hfqdn⟩ := h r (List.mem_of_mem_eraseP hr)
  refine ⟨hservice, n₀, hname, hns, ?_, hfqdn⟩
  have hne : n₀ ≠ n := by
    rintro rfl
    exact List.find?_eq_none.mp (find?_eraseP_eq_none_iff.mpr hone) r hr (Record.isPod_iff.mpr ⟨hname, hns⟩)
  rw [World.pods_withoutPod_of_ne hne, hpods]

/-- **A pod is unregistered** as the map has it exactly if it had one record at most. -/
theorem refines_withoutPod_iff (hcurrent : w.Current) (hw : w.Refines) :
    (w.withoutPod n).Refines ↔ w.resolver.records.countP (Record.isPod n) ≤ 1 := by
  have hself : (w.withoutPod n).resolver.lookupPod n = none ↔ w.resolver.records.countP (Record.isPod n) ≤ 1 := by
    rw [Resolver.lookupPod, Option.map_eq_none_iff]
    exact find?_eraseP_eq_none_iff
  constructor
  · intro h
    exact hself.mp ((h.pods n).trans World.pods_withoutPod_self)
  · intro hone
    refine (hcurrent.withoutPod hone).refines_spec.mpr ⟨(hcurrent.refines_spec.mp hw).1, fun n' => ?_⟩
    by_cases heq : n' = n
    · subst heq
      rw [hself.mpr hone, World.pods_withoutPod_self]
    · have hother : (w.withoutPod n).resolver.lookupPod n' = w.resolver.lookupPod n' := by
        rw [Resolver.lookupPod, Resolver.lookupPod]
        refine congrArg (Option.map Record.value) (find?_eraseP_of_disjoint fun r _ hpod => ?_)
        exact Bool.eq_false_iff.mpr fun hpod' => heq (Record.isPod_unique hpod' hpod)
      rw [hother, hw.pods, World.pods_withoutPod_of_ne heq]

/-- An unregistration of a service finds none. -/
theorem World.Current.step_unregisterService (h : w.Current) (hw : w.Refines) :
    w.step (.unregisterService n) = some w := by
  have hrecords : w.resolver.records.eraseP (Record.isService n) = w.resolver.records :=
    List.eraseP_of_forall_not fun r hr => by
      rw [h.not_isService hr]
      exact Bool.false_ne_true
  have hservices : Function.update w.services n none = w.services :=
    Function.update_eq_self_iff.mpr ((h.refines_spec.mp hw).1 n).symm
  rw [World.step, Resolver.unregisterService, Resolver.records_remove, hrecords, hservices]

/-- Every record of a state that the source defines is current. -/
def Current (s : Option World) : Prop := ∀ w, s = some w → w.Current

/-- **A step keeps the refinement exactly if it is clean.** -/
theorem refines_step_iff (hcurrent : Current s) (hs : Refines s) : Refines (step s op) ↔ Clean s op := by
  cases s with
  | none => exact hs.elim
  | some w =>
    have hw := hcurrent w rfl
    show Refines (w.step op) ↔ Clean (some w) op
    cases op with
    | registerService n ip => exact iff_of_false not_refines_registerService id
    | unregisterService n =>
      rw [hw.step_unregisterService hs]
      exact iff_of_true hs trivial
    | registerPod n ip =>
      by_cases hfits : ip.length < 32
      · rw [step_registerPod_of_fits (if_pos hfits)]
        exact (refines_withPod_iff hw hs (if_pos hfits)).trans (and_iff_right hfits).symm
      · have hnone : w.step (.registerPod n ip) = none := by
          rw [World.step, Resolver.registerPod, generatePodFqdn, if_neg hfits]
          rfl
        rw [hnone]
        exact iff_of_false id fun h => hfits h.1
    | unregisterPod n =>
      rw [step_unregisterPod]
      exact refines_withoutPod_iff hw hs

theorem Current.step (hcurrent : Current s) (hs : Refines s) (hclean : Clean s op) : Current (step s op) := by
  cases s with
  | none => exact hs.elim
  | some w =>
    have hw := hcurrent w rfl
    show Current (w.step op)
    cases op with
    | registerService n ip => exact hclean.elim
    | unregisterService n =>
      rw [hw.step_unregisterService hs]
      exact hcurrent
    | registerPod n ip =>
      rw [step_registerPod_of_fits (if_pos hclean.1)]
      rintro _ ⟨⟩
      exact hw.withPod (if_pos hclean.1) (hs.pods n ▸ hclean.2)
    | unregisterPod n =>
      rw [step_unregisterPod]
      rintro _ ⟨⟩
      exact hw.withoutPod hclean

/-- **The resolver refines the maps, exactly** along the runs whose steps are all clean. -/
theorem maps_refined_iff {clusterDomain : CString} {ops : List Op} :
    AllStates step Refines (some (World.create clusterDomain)) ops ↔
      AllSteps step Clean (some (World.create clusterDomain)) ops := by
  refine allStates_iff_allSteps_of_kept (I := Current) (A := fun _ _ => True)
    (fun _ _ hcurrent _ hs hclean => hcurrent.step hs hclean) (fun _ _ hcurrent _ hs => refines_step_iff hcurrent hs)
    ?_ ?_ allSteps_true
  · rintro _ ⟨⟩ r hr
    exact absurd hr List.not_mem_nil
  · exact ⟨fun _ _ => rfl, fun _ => rfl, fun _ _ h => by cases h⟩

/-! ## A pod that is registered again -/

/-- **The old address stays**: a pod that is registered again is looked up under its first address. -/
theorem stale_address :
    ¬ ∀ (clusterDomain : CString) (ops : List Op),
      AllStates step Refines (some (World.create clusterDomain)) ops := by
  intro h
  have hrun := (h "cluster.local" [.registerPod ⟨"web-1", "default"⟩ "10.0.0.1",
    .registerPod ⟨"web-1", "default"⟩ "10.0.0.2"]).run_mem
  exact absurd (hrun.pods ⟨"web-1", "default"⟩) (by decide)

end Sirah.Dns
