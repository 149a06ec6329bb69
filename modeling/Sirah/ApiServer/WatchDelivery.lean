import Sirah.ApiServer.WatchRegistrations

/-!
# What a watch delivers

`watch_next_ndjson` takes the first unread event from the buffer of the watch and only then asks the selectors: an event
that they refuse is answered like an empty buffer. The version that the watch was created with is not looked at.

* `Request.wants`: the events a watch should deliver. `Tracked` keeps those that are pending beside the two tables.
* `Opens`: the slots that a new watch takes are free of what an earlier one left. `Allowed`: the calls are defined, the
  watch stays open, and at most 1000 events are unread.
* **`reads_pending_iff`**: along a run of allowed calls each read of the watch gives the first pending event, and none if there
  is none, **iff** at each read the first unread event is new if it passes the selectors, and hides no pending one if it
  does not.
* `old_event_delivered`: a watch from version 5 on is given version 3.
-/

namespace Sirah.WatchStream

open Runs

variable {codec : Codec}

/-! ## Buffers -/

namespace Buffer

/-- The indices are in range. -/
structure Fits (b : Buffer) : Prop where
  read : b.readIndex ≤ b.events.length
  size : b.events.length ≤ b.capacity

variable {b : Buffer}

@[simp] theorem capacity_add (e : Event) : (b.add e).capacity = b.capacity := by
  unfold add
  split <;> rfl

theorem Fits.length_unread (h : Fits b) : b.unread.length + b.readIndex = b.events.length := by
  have hread := h.read
  rw [unread, List.length_drop]
  omega

/-- **An event that is added** comes last, as long as not all places hold unread events. -/
theorem Fits.add (h : Fits b) (hlt : b.unread.length < b.capacity) (e : Event) :
    Fits (b.add e) ∧ (b.add e).unread = b.unread ++ [e] := by
  have hread := h.read
  have hlength := h.length_unread
  unfold Buffer.add
  split
  · rename_i hfull
    have hpos : 0 < b.readIndex := by omega
    refine ⟨⟨?_, ?_⟩, ?_⟩
    · simp only [List.length_append, List.length_tail, List.length_singleton]
      omega
    · have hsize := h.size
      simp only [List.length_append, List.length_tail, List.length_singleton]
      omega
    · simp only [unread]
      rw [List.drop_append_of_le_length (by rw [List.length_tail]; omega), List.drop_tail]
      congr 2
      omega
  · rename_i hfull
    refine ⟨⟨?_, ?_⟩, ?_⟩
    · simp only [List.length_append, List.length_singleton]
      omega
    · simp only [List.length_append, List.length_singleton]
      omega
    · simp only [unread]
      rw [List.drop_append_of_le_length hread]

theorem next_fst (b : Buffer) : b.next.1 = b.unread.head? := by
  unfold next unread
  rw [List.head?_drop]
  cases b.events[b.readIndex]? <;> rfl

/-- **A read** takes the first unread event. -/
theorem Fits.next (h : Fits b) : Fits b.next.2 ∧ b.next.2.unread = b.unread.tail ∧ b.next.2.capacity = b.capacity := by
  unfold Buffer.next
  cases hget : b.events[b.readIndex]? with
  | none =>
    refine ⟨h, ?_, rfl⟩
    rw [unread, List.drop_eq_nil_iff.mpr (List.getElem?_eq_none_iff.mp hget)]
    rfl
  | some e =>
    obtain ⟨hlt, -⟩ := List.getElem?_eq_some_iff.mp hget
    exact ⟨⟨hlt, h.size⟩, by simp [unread], rfl⟩

end Buffer

/-! ## Dispatch -/

/-- **What the loop does to one buffer**: each entry that accepts the event adds a copy. -/
theorem dispatchLoop_at {e : Event} {entries : List Entry} {buffers buffers' : Nat → Option Buffer}
    (h : World.dispatchLoop codec e entries buffers = some buffers') (a : Nat) :
    buffers' a = (entries.filter fun s => s.buffer == a && s.accepts e == some true).foldl
      (fun b _ => b.map fun b => b.add (e.copy codec)) (buffers a) := by
  induction entries generalizing buffers with
  | nil =>
    cases h
    rfl
  | cons s entries ih =>
    unfold World.dispatchLoop at h
    split at h
    · cases h
    · rename_i haccepts
      rw [ih h, List.filter_cons_of_neg (by simp [haccepts])]
    · rename_i haccepts
      split at h
      · cases h
      · rename_i b hb
        rw [ih h, Function.update_apply]
        by_cases ha : s.buffer = a
        · rw [List.filter_cons_of_pos (by simp [ha, haccepts]), if_pos ha.symm, List.foldl_cons, ← ha, hb]
          rfl
        · rw [List.filter_cons_of_neg (by simp [ha]), if_neg (Ne.symm ha)]

theorem isSome_foldl_add (e : Event) (entries : List Entry) (b : Option Buffer) :
    (entries.foldl (fun b _ => b.map fun b => b.add e) b).isSome = b.isSome := by
  induction entries generalizing b with
  | nil => rfl
  | cons s entries ih => rw [List.foldl_cons, ih, Option.isSome_map]

/-! ## Calls -/

/-- The calls of a run: those that change the tables, and the reads. -/
inductive Call where
  | op (op : Op)
  | next (id : Nat)

namespace World

variable {w w' : World}

/-- The state after a call. -/
def perform (codec : Codec) (w : World) : Call → Option World
  | .op op => w.apply codec op
  | .next id => (w.watchNext codec id).map Prod.fst

/-- A state that is not defined has no successor. -/
def callStep (codec : Codec) (w : Option World) (call : Call) : Option World := w.bind fun w => w.perform codec call

/-- `malloc` gives an address that is not in use. -/
def Fresh (w : World) : Call → Prop
  | .op (.create buffer _) => w.buffers buffer = none
  | _ => True

/-- What every run keeps. -/
structure Tidy (w : World) : Prop where
  live : ∀ x ∈ w.openWatches, (w.buffers x.buffer).isSome = true
  ids : ∀ x ∈ w.openWatches, x.id < w.nextSubscriptionId
  apart : (w.openWatches.map Watch.buffer).Nodup

theorem tidy_init : Tidy init := by
  refine ⟨?_, ?_, ?_⟩ <;> simp [openWatches_init]

theorem Tidy.create (h : Tidy w) {buffer : Nat} (hfresh : w.buffers buffer = none) (q : Request) :
    Tidy (w.watchCreate buffer q).1 := by
  have hlive := live_create h.live buffer q
  rcases watchCreate_eq w buffer q with ⟨heq, -⟩ | ⟨pre, slot, post, hwatches, hslot, heq⟩
  · rw [heq]
    exact h
  · rw [heq] at hlive ⊢
    have hperm := List.filter_replace_perm pre post hslot
      (show (slot.start w.nextSubscriptionId buffer q).active = true from rfl)
    rw [← hwatches] at hperm
    refine ⟨hlive, fun x hx => ?_, ?_⟩
    · rcases List.mem_cons.mp (hperm.mem_iff.mp hx) with rfl | hx
      · exact Nat.lt_succ_self _
      · exact Nat.lt_succ_of_lt (h.ids x hx)
    · refine (hperm.map Watch.buffer).nodup_iff.mpr (List.nodup_cons.mpr ⟨fun hmem => ?_, h.apart⟩)
      obtain ⟨x, hx, hbuffer⟩ := List.mem_map.mp hmem
      have hold := h.live x hx
      rw [hbuffer, show (slot.start w.nextSubscriptionId buffer q).buffer = buffer from rfl, hfresh] at hold
      cases hold

/-- **`watch_close`**: the slot becomes free, and the buffer is freed. -/
theorem watchClose_eq {id : Nat} (h : w.watchClose id = some w') :
    w' = w ∨ ∃ pre slot slot' post, w.watches = pre ++ slot :: post ∧ slot.active = true ∧ slot.id = id ∧
      slot'.active = false ∧
      w' = { w with watches := pre ++ slot' :: post, buffers := Function.update w.buffers slot.buffer none } := by
  unfold watchClose findWatch at h
  split at h
  · exact .inl (Option.some.inj h).symm
  · rename_i pre slot post hfirst
    obtain ⟨hwatches, hslot, -⟩ := List.splitFirst_eq_some hfirst
    obtain ⟨hactive, hid⟩ : slot.active = true ∧ slot.id = id := by simpa using hslot
    split at h
    · exact .inr ⟨pre, slot, _, post, hwatches, hactive, hid, rfl, (Option.some.inj h).symm⟩
    · cases h

theorem Tidy.close (h : Tidy w) {id : Nat} (hw : w.watchClose id = some w') : Tidy w' := by
  rcases watchClose_eq hw with rfl | ⟨pre, slot, slot', post, hwatches, hactive, -, hactive', rfl⟩
  · exact h
  · have hold : w.openWatches = pre.filter Watch.active ++ slot :: post.filter Watch.active := by
      simp [openWatches, hwatches, hactive]
    have hnew : ∀ buffers, openWatches ⟨pre ++ slot' :: post, w.entries, buffers, w.nextSubscriptionId⟩ =
        pre.filter Watch.active ++ post.filter Watch.active := by
      simp [openWatches, hactive']
    have hsub : ∀ x ∈ pre.filter Watch.active ++ post.filter Watch.active, x ∈ w.openWatches := by
      intro x hx
      rw [hold]
      exact List.mem_append_cons_iff.mpr (.inr hx)
    have hapart := h.apart
    rw [hold] at hapart
    refine ⟨fun x hx => ?_, fun x hx => ?_, ?_⟩
    · rw [hnew] at hx
      dsimp only
      -- the buffer that is freed is another one
      rw [Function.update_of_ne (List.key_ne_of_nodup hapart hx)]
      exact h.live x (hsub x hx)
    · rw [hnew] at hx
      exact h.ids x (hsub x hx)
    · rw [hnew]
      exact List.nodup_remove hapart

theorem Tidy.buffers (h : Tidy w) {buffers : Nat → Option Buffer}
    (hkept : ∀ a, (w.buffers a).isSome = true → (buffers a).isSome = true) : Tidy { w with buffers := buffers } :=
  ⟨fun x hx => hkept _ (h.live x hx), h.ids, h.apart⟩

/-- **`watch_notify_change`**: every entry that accepts the event adds a copy of it to its buffer. -/
theorem watchNotifyChange_cases {type : EventType} {resourceType : CString} {ns name : Option CString} {object : Json}
    (h : w.watchNotifyChange codec type resourceType ns name object = some w') :
    (object = .null ∧ w' = w) ∨
    object ≠ .null ∧ ∃ buffers, w' = { w with buffers := buffers } ∧
      dispatchLoop codec (eventNew codec type resourceType ns name object) w.entries w.buffers = some buffers := by
  by_cases hobject : object = .null
  · subst hobject
    exact .inl ⟨rfl, (Option.some.inj h).symm⟩
  · rw [watchNotifyChange_eq hobject, eventDispatch, Option.map_eq_some_iff] at h
    obtain ⟨buffers, hloop, hw'⟩ := h
    exact .inr ⟨hobject, buffers, hw'.symm, hloop⟩

theorem findWatch_eq_some {id : Nat} {found : List Watch × Watch × List Watch} (h : w.findWatch id = some found) :
    found.2.1 ∈ w.openWatches ∧ found.2.1.id = id := by
  obtain ⟨pre, slot, post⟩ := found
  obtain ⟨hwatches, hslot, -⟩ := List.splitFirst_eq_some h
  obtain ⟨hactive, hid⟩ : slot.active = true ∧ slot.id = id := by simpa using hslot
  exact ⟨mem_openWatches.mpr ⟨by rw [hwatches]; simp, hactive⟩, hid⟩

/-- **A read** moves the index of one buffer. -/
theorem watchNext_eq {id : Nat} {e : Option Event} (h : w.watchNext codec id = some (w', e)) :
    w' = w ∨ ∃ x ∈ w.openWatches, x.id = id ∧ ∃ b, w.buffers x.buffer = some b ∧
      w' = { w with buffers := Function.update w.buffers x.buffer (some b.next.2) } := by
  unfold watchNext at h
  split at h
  · cases h
    exact .inl rfl
  · rename_i pre slot post hfound
    obtain ⟨hopen, hid⟩ := findWatch_eq_some hfound
    split at h
    · cases h
    · rename_i b hb
      refine .inr ⟨slot, hopen, hid, b, hb, ?_⟩
      dsimp only at h
      split at h
      · cases h
        rfl
      · obtain ⟨pass, -, heq⟩ := Option.map_eq_some_iff.mp h
        cases heq
        rfl

/-- **Every call keeps the invariant.** -/
theorem Tidy.perform (h : Tidy w) {call : Call} (hfresh : Fresh w call) (hw : w.perform codec call = some w') :
    Tidy w' := by
  cases call with
  | op op =>
    cases op with
    | create buffer q =>
      cases hw
      exact h.create hfresh q
    | close id => exact h.close hw
    | notify type resourceType ns name object =>
      rcases watchNotifyChange_cases hw with ⟨-, rfl⟩ | ⟨-, buffers, rfl, hloop⟩
      · exact h
      · refine h.buffers fun a ha => ?_
        rw [dispatchLoop_at hloop, isSome_foldl_add]
        exact ha
  | next id =>
    obtain ⟨⟨w₁, e⟩, hnext, rfl⟩ := Option.map_eq_some_iff.mp hw
    rcases watchNext_eq hnext with rfl | ⟨x, -, -, b, -, rfl⟩
    · exact h
    · exact h.buffers fun a ha => isSome_update ha x.buffer _

/-- **Along every run**, as long as it is defined. -/
theorem tidy_of_run {before : List Call}
    (h : AllSteps (callStep codec) (fun w call => ∀ w', w = some w' → Fresh w' call) (some init) before)
    (hrun : run (callStep codec) (some init) before = some w) : Tidy w := by
  have hall : AllStates (callStep codec) (fun w => ∀ w', w = some w' → Tidy w') (some init) before := by
    refine allStates_of_allSteps ?_ (fun w' hw' => Option.some.inj hw' ▸ tidy_init) h
    intro w₁ call htidy hfresh w₂ hw₂
    obtain ⟨w₁, rfl, hperform⟩ := Option.bind_eq_some_iff.mp hw₂
    exact (htidy w₁ rfl).perform (hfresh w₁ rfl) hperform
  exact hall.run_mem w hrun

end World

/-! ## What a watch should deliver -/

namespace Request

/-- The event is of the type and namespace of the watch. -/
def covers (q : Request) (e : Event) : Bool :=
  q.resourceType == e.resourceType && (q.ns.getD [] == [] || e.ns == some (q.ns.getD []))

/-- The selectors of the watch, on an event. -/
def passes (codec : Codec) (q : Request) (e : Event) : Option Bool :=
  World.passes codec (Selector.null.assign q.labelSelector) (Selector.null.assign q.fieldSelector) e.object

/-- An event of the watch is to be delivered. -/
def wants (codec : Codec) (q : Request) (e : Event) : Bool :=
  q.passes codec e == some true && decide (q.fromVersion < e.resourceVersion)

theorem wants_iff {q : Request} {e : Event} :
    q.wants codec e = true ↔ q.passes codec e = some true ∧ q.fromVersion < e.resourceVersion := by
  simp [wants]

/-- The registration of the watch takes the events of its type and namespace. -/
theorem accepts_register_iff {q : Request} (htype : q.resourceType.length ≤ 63) (hns : (q.ns.getD []).length ≤ 63)
    (a : Nat) (e : Event) :
    (Entry.zero.register a q.resourceType q.ns).accepts e = some true ↔ q.covers e = true := by
  have hns' : (Entry.zero.register a q.resourceType q.ns).ns = q.ns.getD [] := by
    cases hq : q.ns with
    | none => rfl
    | some ns =>
      rw [hq] at hns
      exact List.take_of_length_le hns
  have htype' : (Entry.zero.register a q.resourceType q.ns).resourceType = q.resourceType := List.take_of_length_le htype
  have hactive : (Entry.zero.register a q.resourceType q.ns).active = true := rfl
  unfold Entry.accepts covers
  rw [hns', htype', hactive]
  by_cases hsame : q.resourceType = e.resourceType
  · by_cases hempty : q.ns.getD [] = []
    · simp [hsame, hempty]
    · cases e.ns with
      | none => simp [hsame, hempty]
      | some ns => simpa [hsame, hempty] using eq_comm
  · simp [hsame]

end Request

namespace World

variable {w w' : World} {q : Request} {id a : Nat} {unread : List Event}

/-- **The watch is served**: it is the only one with its number or its buffer, and one entry is registered for it. -/
structure Serves (q : Request) (id a : Nat) (w : World) (unread : List Event) : Prop where
  watch : (w.watches.filter fun x => x.active && (x.id == id || x.buffer == a)) = [Watch.zero.start id a q]
  entry : (w.entries.filter fun s => s.active && s.buffer == a) = [Entry.zero.register a q.resourceType q.ns]
  buffer : ∃ b, w.buffers a = some b ∧ b.Fits ∧ b.capacity = 1000 ∧ b.unread = unread
  number : id < w.nextSubscriptionId

/-- The condition on `watch_create`: its slots keep nothing of an earlier watch, and nothing is cut off. -/
structure Opens (w : World) (a : Nat) (q : Request) : Prop where
  slot : ∃ pre slot post, w.watches.splitFirst (fun x => !x.active) = some (pre, slot, post) ∧
    (q.labelSelector = none → slot.labelSelector = .null) ∧ (q.fieldSelector = none → slot.fieldSelector = .null)
  entry : ∃ pre slot post, w.entries.splitFirst (fun s => !s.active) = some (pre, slot, post) ∧ (q.ns = none → slot.ns = [])
  unused : ∀ s ∈ w.entries, s.active = true → s.buffer ≠ a
  resourceType : q.resourceType.length ≤ 63
  ns : (q.ns.getD []).length ≤ 63

/-- **A new watch is served.** -/
theorem serves_create (htidy : Tidy w) (hfresh : w.buffers a = none) (hopen : Opens w a q) :
    Serves q w.nextSubscriptionId a (w.watchCreate a q).1 [] := by
  obtain ⟨pre, slot, post, hfirst, hlabel, hfield⟩ := hopen.slot
  obtain ⟨pre', slot', post', hfirst', hns⟩ := hopen.entry
  obtain ⟨hwatches, hslot, -⟩ := List.splitFirst_eq_some hfirst
  obtain ⟨hentries, hslot', -⟩ := List.splitFirst_eq_some hfirst'
  have hstart : slot.start w.nextSubscriptionId a q = Watch.zero.start w.nextSubscriptionId a q := by
    cases hl : q.labelSelector <;> cases hf : q.fieldSelector <;>
      simp_all [Watch.start, Watch.zero, Selector.assign]
  have hregister : slot'.register a q.resourceType q.ns = Entry.zero.register a q.resourceType q.ns := by
    cases hq : q.ns <;> simp_all [Entry.register, Entry.zero]
  simp only [watchCreate, eventRegisterSubscription, hfirst, hfirst']
  refine ⟨?_, ?_, ⟨Buffer.new 1000, Function.update_self .., ⟨Nat.le_refl 0, Nat.zero_le _⟩, rfl, rfl⟩, Nat.lt_succ_self _⟩
  · dsimp only
    rw [hstart]
    refine List.filter_eq_singleton (by simp [Watch.start]) fun x hx => ?_
    by_contra hmatch
    obtain ⟨hactive, hnamed⟩ : x.active = true ∧ (x.id = w.nextSubscriptionId ∨ x.buffer = a) := by
      simpa [or_iff_not_imp_left] using hmatch
    have hx : x ∈ w.openWatches :=
      mem_openWatches.mpr ⟨by rw [hwatches]; exact List.mem_append_cons_iff.mpr (.inr hx), hactive⟩
    rcases hnamed with hid | hbuffer
    · exact absurd (htidy.ids x hx) (by omega)
    · have hlive := htidy.live x hx
      rw [hbuffer, hfresh] at hlive
      cases hlive
  · dsimp only
    rw [hregister]
    refine List.filter_eq_singleton (by simp [Entry.register]) fun s hs => ?_
    by_contra hmatch
    obtain ⟨hactive, hbuffer⟩ : s.active = true ∧ s.buffer = a := by simpa using hmatch
    exact hopen.unused s (by rw [hentries]; exact List.mem_append_cons_iff.mpr (.inr hs)) hactive hbuffer

theorem Serves.eq_of_mem (h : Serves q id a w unread) {x : Watch} (hx : x ∈ w.openWatches)
    (hnamed : x.id = id ∨ x.buffer = a) : x = Watch.zero.start id a q := by
  obtain ⟨hmem, hactive⟩ := mem_openWatches.mp hx
  have hfilter : x ∈ w.watches.filter fun x => x.active && (x.id == id || x.buffer == a) :=
    List.mem_filter.mpr ⟨hmem, by simpa [hactive] using hnamed⟩
  rw [h.watch] at hfilter
  exact List.mem_singleton.mp hfilter

theorem Serves.mem_openWatches (h : Serves q id a w unread) : Watch.zero.start id a q ∈ w.openWatches := by
  have hmem : Watch.zero.start id a q ∈ w.watches.filter fun x => x.active && (x.id == id || x.buffer == a) := by
    rw [h.watch]
    exact List.mem_singleton_self _
  exact World.mem_openWatches.mpr ⟨(List.mem_filter.mp hmem).1, rfl⟩

/-! ## The calls, for a watch that is served -/

theorem Serves.create (h : Serves q id a w unread) {buffer : Nat} (hfresh : w.buffers buffer = none) (q' : Request) :
    Serves q id a (w.watchCreate buffer q').1 unread := by
  obtain ⟨b, hb, hfits⟩ := h.buffer
  have hne : buffer ≠ a := by
    rintro rfl
    rw [hfresh] at hb
    cases hb
  have hid := h.number
  rcases watchCreate_eq w buffer q' with ⟨heq, -⟩ | ⟨pre, slot, post, hwatches, hslot, heq⟩
  · rw [heq]
    exact h
  · rw [heq]
    refine ⟨?_, ?_, ⟨b, ?_, hfits⟩, Nat.lt_succ_of_lt hid⟩
    · rw [← h.watch, hwatches]
      refine List.filter_replace_of_not (by simp [hslot]) ?_
      simp only [Watch.start, Bool.true_and, Bool.or_eq_false_iff, beq_eq_false_iff_ne]
      exact ⟨by omega, hne⟩
    · rw [← h.entry]
      dsimp only [eventRegisterSubscription]
      split
      · rfl
      · rename_i pre' slot' post' hfirst
        obtain ⟨hentries, hslot', -⟩ := List.splitFirst_eq_some hfirst
        rw [hentries]
        exact List.filter_replace_of_not (by simp_all) (by simp [Entry.register, hne])
    · dsimp only
      rw [Function.update_of_ne hne.symm, hb]

theorem Serves.close (h : Serves q id a w unread) {id' : Nat} (hne : id' ≠ id) (hw : w.watchClose id' = some w') :
    Serves q id a w' unread := by
  rcases watchClose_eq hw with rfl | ⟨pre, slot, slot', post, hwatches, hactive, hid, hactive', rfl⟩
  · exact h
  · have hother : ¬ (slot.id = id ∨ slot.buffer = a) := by
      intro hnamed
      have hmem : slot ∈ w.openWatches := World.mem_openWatches.mpr ⟨by rw [hwatches]; simp, hactive⟩
      rw [h.eq_of_mem hmem hnamed] at hid
      exact hne hid.symm
    rw [not_or] at hother
    obtain ⟨b, hb, hfits⟩ := h.buffer
    refine ⟨?_, h.entry, ⟨b, ?_, hfits⟩, h.number⟩
    · rw [← h.watch, hwatches]
      exact List.filter_replace_of_not (by simp [hother]) (by simp [hactive'])
    · dsimp only
      rw [Function.update_of_ne (Ne.symm hother.2), hb]

/-- **A change**: the watch gets a copy of an event that it covers. -/
theorem Serves.dispatch (h : Serves q id a w unread) (htype : q.resourceType.length ≤ 63)
    (hns : (q.ns.getD []).length ≤ 63) {e : Event} {buffers : Nat → Option Buffer}
    (hloop : dispatchLoop codec e w.entries w.buffers = some buffers)
    (hroom : q.covers e = true → unread.length < 1000) :
    Serves q id a { w with buffers := buffers } (unread ++ if q.covers e then [e.copy codec] else []) := by
  obtain ⟨b, hb, hfits, hcapacity, hunread⟩ := h.buffer
  refine ⟨h.watch, h.entry, ?_, h.number⟩
  have hentries : (w.entries.filter fun s => s.buffer == a && s.accepts e == some true) =
      [Entry.zero.register a q.resourceType q.ns].filter fun s => s.accepts e == some true := by
    rw [← h.entry, List.filter_filter]
    refine List.filter_congr fun s _ => ?_
    by_cases haccepts : s.accepts e = some true
    · simp [haccepts, active_of_accepts haccepts]
    · simp [beq_eq_false_iff_ne.mpr haccepts]
  have hafter := dispatchLoop_at hloop a
  rw [hentries, hb] at hafter
  by_cases hcovers : q.covers e = true
  · have haccepts := (Request.accepts_register_iff htype hns a e).mpr hcovers
    rw [List.filter_cons_of_pos (by simp [haccepts])] at hafter
    have hlt : b.unread.length < b.capacity := by
      rw [hunread, hcapacity]
      exact hroom hcovers
    obtain ⟨hfits', hunread'⟩ := hfits.add hlt (e.copy codec)
    refine ⟨b.add (e.copy codec), hafter, hfits', by rw [Buffer.capacity_add, hcapacity], ?_⟩
    rw [hunread', hunread, if_pos hcovers]
  · have haccepts := mt (Request.accepts_register_iff htype hns a e).mp hcovers
    rw [List.filter_cons_of_neg (by simpa using haccepts)] at hafter
    exact ⟨b, hafter, hfits, hcapacity, by rw [hunread, if_neg hcovers, List.append_nil]⟩

/-- A read of another watch. -/
theorem Serves.next_of_ne (h : Serves q id a w unread) {id' : Nat} (hne : id' ≠ id) {e : Option Event}
    (hnext : w.watchNext codec id' = some (w', e)) : Serves q id a w' unread := by
  rcases watchNext_eq hnext with rfl | ⟨x, hx, hid, b', -, rfl⟩
  · exact h
  · have hother : x.buffer ≠ a := by
      intro hbuffer
      rw [h.eq_of_mem hx (.inr hbuffer)] at hid
      exact hne hid.symm
    obtain ⟨b, hb, hfits⟩ := h.buffer
    refine ⟨h.watch, h.entry, ⟨b, ?_, hfits⟩, h.number⟩
    dsimp only
    rw [Function.update_of_ne hother.symm, hb]

theorem Serves.findWatch (h : Serves q id a w unread) :
    ∃ pre post, w.findWatch id = some (pre, Watch.zero.start id a q, post) := by
  cases hfound : w.findWatch id with
  | none =>
    obtain ⟨hmem, hactive⟩ := World.mem_openWatches.mp h.mem_openWatches
    have hno := List.splitFirst_eq_none.mp hfound _ hmem
    simp [Watch.start] at hno
  | some found =>
    obtain ⟨hopen, hid⟩ := findWatch_eq_some hfound
    exact ⟨found.1, found.2.2, by rw [← h.eq_of_mem hopen (.inl hid)]⟩

/-- **A read of the watch** takes the first unread event, and then asks the selectors. -/
theorem Serves.watchNext (h : Serves q id a w unread) (codec : Codec) : ∃ w', Serves q id a w' unread.tail ∧
    w.watchNext codec id =
      match unread.head? with
      | none => some (w', none)
      | some e => (q.passes codec e).map fun pass => (w', if pass then some e else none) := by
  obtain ⟨pre, post, hfound⟩ := h.findWatch
  obtain ⟨b, hb, hfits, hcapacity, hunread⟩ := h.buffer
  have hb' : w.buffers (Watch.zero.start id a q).buffer = some b := hb
  obtain ⟨hfits', hunread', hcapacity'⟩ := hfits.next
  refine ⟨{ w with buffers := Function.update w.buffers a (some b.next.2) }, ⟨h.watch, h.entry, ?_, h.number⟩, ?_⟩
  · exact ⟨b.next.2, Function.update_self .., hfits', hcapacity'.trans hcapacity, by rw [hunread', hunread]⟩
  · unfold World.watchNext
    rw [hfound]
    dsimp only
    rw [hb']
    dsimp only
    rw [Buffer.next_fst, hunread]
    cases unread.head? with
    | none => rfl
    | some e => rfl

theorem Serves.next_self (h : Serves q id a w unread) {e : Option Event}
    (hnext : w.watchNext codec id = some (w', e)) : Serves q id a w' unread.tail := by
  obtain ⟨w₁, hserves, heq⟩ := h.watchNext codec
  rw [hnext] at heq
  cases unread with
  | nil =>
    cases heq
    exact hserves
  | cons first rest =>
    obtain ⟨pass, -, heq⟩ := Option.map_eq_some_iff.mp heq.symm
    cases heq
    exact hserves

/-! ## Runs of a watch -/

/-- The condition on the calls behind `watch_create`: they are defined, the watch stays open, and at most 1000 of its
events are unread. -/
def Allowed (codec : Codec) (q : Request) (id a : Nat) (w : World) : Call → Prop
  | .op (.create buffer _) => w.buffers buffer = none
  | .op (.close id') => id' ≠ id ∧ ∀ x ∈ w.openWatches, x.id = id' → x.labelSelector ≠ .freed ∧ x.fieldSelector ≠ .freed
  | .op (.notify type resourceType ns name object) => object ≠ .null →
      (∀ s ∈ w.entries, s.accepts (eventNew codec type resourceType ns name object) ≠ none ∧
        (s.accepts (eventNew codec type resourceType ns name object) = some true → (w.buffers s.buffer).isSome = true)) ∧
      (q.covers (eventNew codec type resourceType ns name object) = true →
        ∀ b, w.buffers a = some b → b.unread.length < 1000)
  | .next id' => ∀ x ∈ w.openWatches, x.id = id' → ∀ b, w.buffers x.buffer = some b → ∀ e ∈ b.unread.head?,
      passes codec x.labelSelector x.fieldSelector e.object ≠ none

theorem Allowed.fresh {call : Call} (h : Allowed codec q id a w call) : Fresh w call := by
  cases call with
  | op op =>
    cases op with
    | create buffer q' => exact h
    | close id' => trivial
    | notify type resourceType ns name object => trivial
  | next id' => trivial

theorem Selector.free_eq_some {s : Selector} (h : s ≠ .freed) : ∃ s', s.free = some s' := by
  cases s with
  | null => exact ⟨.null, rfl⟩
  | text s => exact ⟨.freed, rfl⟩
  | freed => exact absurd rfl h

theorem watchClose_defined {id : Nat}
    (h : ∀ x ∈ w.openWatches, x.id = id → x.labelSelector ≠ .freed ∧ x.fieldSelector ≠ .freed) :
    ∃ w', w.watchClose id = some w' := by
  unfold watchClose
  cases hfound : w.findWatch id with
  | none => exact ⟨w, rfl⟩
  | some found =>
    obtain ⟨hopen, hid⟩ := findWatch_eq_some hfound
    obtain ⟨hlabel, hfield⟩ := h found.2.1 hopen hid
    obtain ⟨label, hlabel⟩ := Selector.free_eq_some hlabel
    obtain ⟨field, hfield⟩ := Selector.free_eq_some hfield
    dsimp only
    rw [hlabel, hfield]
    exact ⟨_, rfl⟩

theorem watchNext_defined (h : Tidy w) {id : Nat}
    (hpasses : ∀ x ∈ w.openWatches, x.id = id → ∀ b, w.buffers x.buffer = some b → ∀ e ∈ b.unread.head?,
      passes codec x.labelSelector x.fieldSelector e.object ≠ none) : ∃ result, w.watchNext codec id = some result := by
  unfold World.watchNext
  cases hfound : w.findWatch id with
  | none => exact ⟨_, rfl⟩
  | some found =>
    obtain ⟨hopen, hid⟩ := findWatch_eq_some hfound
    obtain ⟨b, hb⟩ := Option.isSome_iff_exists.mp (h.live _ hopen)
    dsimp only
    rw [hb]
    dsimp only
    rw [Buffer.next_fst]
    cases hhead : b.unread.head? with
    | none => exact ⟨_, rfl⟩
    | some e =>
      obtain ⟨pass, hpass⟩ := Option.ne_none_iff_exists'.mp (hpasses found.2.1 hopen hid b hb e hhead)
      dsimp only
      rw [hpass]
      exact ⟨_, rfl⟩

/-- **An allowed call is defined.** -/
theorem Allowed.perform (h : Tidy w) {call : Call} (hallowed : Allowed codec q id a w call) :
    ∃ w', w.perform codec call = some w' := by
  cases call with
  | op op =>
    cases op with
    | create buffer q' => exact ⟨_, rfl⟩
    | close id' => exact watchClose_defined hallowed.2
    | notify type resourceType ns name object =>
      change ∃ w', w.watchNotifyChange codec type resourceType ns name object = some w'
      by_cases hobject : object = .null
      · subst hobject
        exact ⟨w, rfl⟩
      · obtain ⟨hdefined, -⟩ := hallowed hobject
        obtain ⟨buffers, hloop, -⟩ := @dispatchLoop_some codec _ w.entries w.buffers (fun s hs => (hdefined s hs).1)
          fun s hs => (hdefined s hs).2
        rw [watchNotifyChange_eq hobject, eventDispatch, hloop]
        exact ⟨_, rfl⟩
  | next id' =>
    obtain ⟨result, hnext⟩ := watchNext_defined h hallowed
    exact ⟨result.1, congrArg (Option.map Prod.fst) hnext⟩

theorem Serves.notify (h : Serves q id a w unread) (htype : q.resourceType.length ≤ 63)
    (hns : (q.ns.getD []).length ≤ 63) {type : EventType} {resourceType : CString} {ns name : Option CString}
    {object : Json} (hallowed : Allowed codec q id a w (.op (.notify type resourceType ns name object)))
    (hobject : object ≠ .null) (hw : w.perform codec (.op (.notify type resourceType ns name object)) = some w') :
    Serves q id a w' (unread ++ if q.covers (eventNew codec type resourceType ns name object) then
      [(eventNew codec type resourceType ns name object).copy codec] else []) := by
  obtain ⟨b, hb, -, -, hunread⟩ := h.buffer
  have hroom := fun hcovers => (hallowed hobject).2 hcovers b hb
  rw [hunread] at hroom
  rcases watchNotifyChange_cases hw with ⟨hnull, -⟩ | ⟨-, buffers, rfl, hloop⟩
  · exact absurd hnull hobject
  · exact h.dispatch htype hns hloop hroom

end World

/-- The two tables, with the events that are still to be delivered. -/
structure Tracked where
  world : Option World
  pending : List Event

namespace Tracked

/-- The events that a change adds for the watch. -/
def due (codec : Codec) (q : Request) (type : EventType) (resourceType : CString) (ns name : Option CString) :
    Json → List Event
  | .null => []
  | object =>
    let e := eventNew codec type resourceType ns name object
    if q.covers e && q.wants codec (e.copy codec) then [e.copy codec] else []

/-- A change adds what is due, a read takes the first. -/
def queue (codec : Codec) (q : Request) (id : Nat) (pending : List Event) : Call → List Event
  | .op (.notify type resourceType ns name object) => pending ++ due codec q type resourceType ns name object
  | .next id' => if id' = id then pending.tail else pending
  | _ => pending

def step (codec : Codec) (q : Request) (id : Nat) (t : Tracked) (call : Call) : Tracked :=
  ⟨World.callStep codec t.world call, queue codec q id t.pending call⟩

/-- **A read gives the first event that is due**, and none if there is none. -/
def Delivers (codec : Codec) (id : Nat) (t : Tracked) : Call → Prop
  | .next id' => id' = id → ∃ w, t.world = some w ∧ (w.watchNext codec id).map Prod.snd = some t.pending.head?
  | _ => True

/-- `watch_next_ndjson` then returns the line of this event, or NULL. -/
theorem Delivers.ndjson {id : Nat} {t : Tracked} (h : Delivers codec id t (.next id)) : ∃ w, t.world = some w ∧
    (w.watchNextNdjson codec id).map Prod.snd = some (t.pending.head?.map (eventToNdjson codec)) := by
  obtain ⟨w, hw, hnext⟩ := h rfl
  obtain ⟨⟨w', e⟩, hnext, rfl⟩ := Option.map_eq_some_iff.mp hnext
  refine ⟨w, hw, ?_⟩
  rw [World.watchNextNdjson, hnext]
  rfl

/-- The condition on a read: the first unread event is new if it passes the selectors, and if it does not, no unread
event behind it is to be delivered. -/
def Unhidden (codec : Codec) (q : Request) (id a : Nat) (t : Tracked) : Call → Prop
  | .next id' => id' = id → ∀ w, t.world = some w → ∀ b, w.buffers a = some b → ∀ e rest, b.unread = e :: rest →
      (q.passes codec e = some true → q.fromVersion < e.resourceVersion) ∧
      (q.passes codec e ≠ some true → ∀ f ∈ rest, q.wants codec f = false)
  | _ => True

variable {q : Request} {id a : Nat} {t : Tracked} {call : Call}

/-- **The invariant**: what is pending is what the watch wants of the unread events. -/
def Follows (codec : Codec) (q : Request) (id a : Nat) (t : Tracked) : Prop :=
  ∃ w unread, t.world = some w ∧ w.Tidy ∧ w.Serves q id a unread ∧ t.pending = unread.filter (q.wants codec)

theorem due_eq {type : EventType} {resourceType : CString} {ns name : Option CString} {object : Json}
    (h : object ≠ .null) : due codec q type resourceType ns name object =
      (if q.covers (eventNew codec type resourceType ns name object) then
        [(eventNew codec type resourceType ns name object).copy codec] else []).filter (q.wants codec) := by
  have hdue : due codec q type resourceType ns name object =
      if q.covers (eventNew codec type resourceType ns name object) &&
          q.wants codec ((eventNew codec type resourceType ns name object).copy codec) then
        [(eventNew codec type resourceType ns name object).copy codec] else [] := by
    cases object with
    | null => exact absurd rfl h
    | _ => rfl
  rw [hdue]
  by_cases hcovers : q.covers (eventNew codec type resourceType ns name object) = true
  · simp [hcovers, List.filter_cons]
  · simp [hcovers]

/-- The pending events after the first unread one is taken. -/
theorem tail_pending {e : Event} {rest : List Event}
    (hpass : q.passes codec e = some true → q.fromVersion < e.resourceVersion)
    (hhide : q.passes codec e ≠ some true → ∀ f ∈ rest, q.wants codec f = false) :
    ((e :: rest).filter (q.wants codec)).tail = rest.filter (q.wants codec) := by
  by_cases hpasses : q.passes codec e = some true
  · rw [List.filter_cons_of_pos (Request.wants_iff.mpr ⟨hpasses, hpass hpasses⟩), List.tail_cons]
  · have hnone : rest.filter (q.wants codec) = [] :=
      List.filter_eq_nil_iff.mpr fun f hf => by simp [hhide hpasses f hf]
    rw [List.filter_cons_of_neg fun h => hpasses (Request.wants_iff.mp h).1, hnone]
    rfl

theorem Unhidden.tail_filter {w : World} {unread : List Event} (h : Unhidden codec q id a t (.next id))
    (hw : t.world = some w) (hserves : w.Serves q id a unread) :
    (unread.filter (q.wants codec)).tail = unread.tail.filter (q.wants codec) := by
  cases hunread : unread with
  | nil => rfl
  | cons e rest =>
    obtain ⟨b, hb, -, -, hunread'⟩ := hserves.buffer
    obtain ⟨hpass, hhide⟩ := h rfl w hw b hb e rest (hunread'.trans hunread)
    exact tail_pending hpass hhide

theorem world_step {w w' : World} (hw : t.world = some w) (h : w.perform codec call = some w') :
    (t.step codec q id call).world = some w' := by
  change World.callStep codec t.world call = some w'
  rw [hw]
  exact h

/-- **One call keeps the invariant.** -/
theorem Follows.step (htype : q.resourceType.length ≤ 63) (hns : (q.ns.getD []).length ≤ 63)
    (h : Follows codec q id a t) (hallowed : ∀ w, t.world = some w → w.Allowed codec q id a call)
    (hread : Unhidden codec q id a t call) : Follows codec q id a (t.step codec q id call) := by
  obtain ⟨w, unread, hw, htidy, hserves, hpending⟩ := h
  obtain ⟨w', hperform⟩ := (hallowed w hw).perform htidy
  have htidy' := htidy.perform (hallowed w hw).fresh hperform
  have hworld : (t.step codec q id call).world = some w' := world_step hw hperform
  cases call with
  | op op =>
    cases op with
    | create buffer q' =>
      cases hperform
      exact ⟨_, unread, hworld, htidy', hserves.create (hallowed w hw) q', hpending⟩
    | close id' => exact ⟨w', unread, hworld, htidy', hserves.close (hallowed w hw).1 hperform, hpending⟩
    | notify type resourceType ns name object =>
      by_cases hobject : object = .null
      · subst hobject
        cases hperform
        refine ⟨w, unread, hworld, htidy', hserves, ?_⟩
        rw [← hpending]
        exact List.append_nil _
      · refine ⟨w', _, hworld, htidy', hserves.notify htype hns (hallowed w hw) hobject hperform, ?_⟩
        rw [List.filter_append, ← hpending, ← due_eq hobject]
        rfl
  | next id' =>
    obtain ⟨⟨w₁, first⟩, hnext, rfl⟩ := Option.map_eq_some_iff.mp hperform
    by_cases hid : id' = id
    · subst hid
      refine ⟨w₁, unread.tail, hworld, htidy', hserves.next_self hnext, ?_⟩
      change (if id' = id' then t.pending.tail else t.pending) = _
      rw [if_pos rfl, hpending, hread.tail_filter hw hserves]
    · refine ⟨w₁, unread, hworld, htidy', hserves.next_of_ne hid hnext, ?_⟩
      change (if id' = id then t.pending.tail else t.pending) = _
      rw [if_neg hid, hpending]

/-- **What a read gives**, against what is pending. -/
theorem head_pending_iff {e : Event} {rest : List Event} {pass : Bool} (hpass : q.passes codec e = some pass) :
    (if pass then some e else none) = ((e :: rest).filter (q.wants codec)).head? ↔
      (q.passes codec e = some true → q.fromVersion < e.resourceVersion) ∧
      (q.passes codec e ≠ some true → ∀ f ∈ rest, q.wants codec f = false) := by
  cases pass with
  | true =>
    simp only [if_true, hpass, forall_const, ne_eq, not_true_eq_false, false_implies, and_true]
    constructor
    · intro hhead
      have hmem := List.mem_of_head? hhead.symm
      exact (Request.wants_iff.mp (List.mem_filter.mp hmem).2).2
    · intro hnew
      rw [List.filter_cons_of_pos (Request.wants_iff.mpr ⟨hpass, hnew⟩), List.head?_cons]
  | false =>
    have hwants : ¬ q.wants codec e = true := by
      intro h
      have hpass' := (Request.wants_iff.mp h).1
      rw [hpass] at hpass'
      cases hpass'
    rw [List.filter_cons_of_neg hwants, eq_comm, hpass]
    simp

theorem Follows.delivers_iff (h : Follows codec q id a t)
    (hallowed : ∀ w, t.world = some w → w.Allowed codec q id a call) :
    Delivers codec id t call ↔ Unhidden codec q id a t call := by
  cases call with
  | op op => exact Iff.rfl
  | next id' =>
    obtain ⟨w, unread, hw, -, hserves, hpending⟩ := h
    obtain ⟨b, hb, -, -, hunread⟩ := hserves.buffer
    obtain ⟨w', -, hnext⟩ := hserves.watchNext codec
    refine imp_congr_right fun hid => ?_
    subst hid
    have hworld : (∃ w, t.world = some w ∧ (w.watchNext codec id').map Prod.snd = some t.pending.head?) ↔
        (w.watchNext codec id').map Prod.snd = some t.pending.head? := by
      simp [hw]
    have hbuffer : (∀ w, t.world = some w → ∀ b, w.buffers a = some b → ∀ e rest, b.unread = e :: rest →
          (q.passes codec e = some true → q.fromVersion < e.resourceVersion) ∧
          (q.passes codec e ≠ some true → ∀ f ∈ rest, q.wants codec f = false)) ↔
        ∀ e rest, unread = e :: rest →
          (q.passes codec e = some true → q.fromVersion < e.resourceVersion) ∧
          (q.passes codec e ≠ some true → ∀ f ∈ rest, q.wants codec f = false) := by
      simp [hw, hb, hunread]
    rw [hworld, hbuffer, hnext, hpending]
    cases unread with
    | nil => simp
    | cons e rest =>
      have hdefined := hallowed w hw _ hserves.mem_openWatches rfl b hb e (by rw [hunread]; rfl)
      obtain ⟨pass, hpass⟩ := Option.ne_none_iff_exists'.mp hdefined
      have hpass : q.passes codec e = some pass := hpass
      have hiff := @head_pending_iff codec q e rest pass hpass
      rw [List.head?_cons]
      dsimp only
      rw [hpass, Option.map_some, Option.map_some, Option.some.injEq, hiff]
      exact ⟨fun h f l heq => by cases heq; exact h, fun h => h e rest rfl⟩

/-- Along the runs of a watch that is served. -/
theorem Follows.allSteps_iff (htype : q.resourceType.length ≤ 63) (hns : (q.ns.getD []).length ≤ 63)
    (h : Follows codec q id a t) {calls : List Call}
    (hcalls : AllSteps (Tracked.step codec q id) (fun t call => ∀ w, t.world = some w → w.Allowed codec q id a call) t
      calls) :
    AllSteps (Tracked.step codec q id) (Delivers codec id) t calls ↔
      AllSteps (Tracked.step codec q id) (Unhidden codec q id a) t calls :=
  allSteps_iff_of_kept (fun _ _ hfollows hallowed hread => hfollows.step htype hns hallowed hread)
    (fun _ _ hfollows hallowed => hfollows.delivers_iff hallowed) h hcalls

/-- **A watch delivers what it should, exactly** when no read meets an old event or one that hides others: for a watch
that is opened in any reachable state, and any calls afterwards. -/
theorem reads_pending_iff {before calls : List Call} {w : World} {a : Nat} {q : Request}
    (hbefore : AllSteps (World.callStep codec) (fun w call => ∀ w', w = some w' → World.Fresh w' call)
      (some World.init) before)
    (hw : run (World.callStep codec) (some World.init) before = some w)
    (hfresh : w.buffers a = none) (hopen : w.Opens a q)
    (hcalls : AllSteps (Tracked.step codec q w.nextSubscriptionId)
      (fun t call => ∀ w', t.world = some w' → w'.Allowed codec q w.nextSubscriptionId a call)
      ⟨some (w.watchCreate a q).1, []⟩ calls) :
    AllSteps (Tracked.step codec q w.nextSubscriptionId) (Delivers codec w.nextSubscriptionId)
        ⟨some (w.watchCreate a q).1, []⟩ calls ↔
      AllSteps (Tracked.step codec q w.nextSubscriptionId) (Unhidden codec q w.nextSubscriptionId a)
        ⟨some (w.watchCreate a q).1, []⟩ calls := by
  have htidy := World.tidy_of_run hbefore hw
  exact Follows.allSteps_iff hopen.resourceType hopen.ns
    ⟨_, [], rfl, htidy.create hfresh q, World.serves_create htidy hfresh hopen, rfl⟩ hcalls

/-! ## An event that is too old -/

/-- A pod at version 3. -/
def oldPod : Json := .obj [(CString.ofString "metadata", .obj [(CString.ofString "resourceVersion", .str "3")])]

/-- The printers and the parser on `oldPod`. -/
def oldPodCodec : Codec :=
  ⟨fun _ => "\x7b \"metadata\": \x7b \"resourceVersion\": \"3\" \x7d \x7d",
    fun _ => "\x7b\"type\":\"MODIFIED\",\"object\":\x7b\"metadata\":\x7b\"resourceVersion\":\"3\"\x7d\x7d\x7d",
    fun _ => oldPod⟩

/-- The pods from a version on. -/
def podsFrom (version : Nat) : Request := ⟨"pods", none, none, none, version⟩

/-- The calls: the pod changes, and the watch is read. -/
def oldPodCalls : List Call := [.op (.notify .modified "pods" none none oldPod), .next 1]

/-- The event of `oldPod`, as the watch gets it. -/
def oldPodEvent : Event := ⟨.modified, "pods", none, none, oldPod, 3⟩

theorem length_pods : (CString.ofString "pods").length ≤ 63 := by decide

theorem opens_podsFrom (version : Nat) : World.init.Opens 1 (podsFrom version) := by
  refine ⟨⟨[], .zero, List.replicate 999 .zero, rfl, fun _ => rfl, fun _ => rfl⟩,
    ⟨[], .zero, List.replicate 999 .zero, rfl, fun _ => rfl⟩, fun s hs hactive => ?_, length_pods, Nat.zero_le 63⟩
  rw [List.eq_of_mem_replicate hs] at hactive
  cases hactive

/-- The first watch, before the pod changes. -/
def firstWatch (version : Nat) : Tracked := ⟨some (World.init.watchCreate 1 (podsFrom version)).1, []⟩

theorem follows_firstWatch (codec : Codec) (version : Nat) : Follows codec (podsFrom version) 1 1 (firstWatch version) :=
  ⟨_, [], rfl, World.tidy_init.create rfl _, World.serves_create World.tidy_init rfl (opens_podsFrom version), rfl⟩

theorem firstWatch_allowed (version : Nat) (w : World) (hw : (firstWatch version).world = some w) :
    w.Allowed oldPodCodec (podsFrom version) 1 1 (.op (.notify .modified "pods" none none oldPod)) := by
  cases hw
  intro _
  refine ⟨fun s hs => ?_, fun _ b hb => ?_⟩
  · rcases List.mem_cons.mp hs with rfl | hs
    · exact ⟨Option.some_ne_none true, fun _ => rfl⟩
    · rw [List.eq_of_mem_replicate hs]
      exact ⟨Option.some_ne_none false, nofun⟩
  · cases hb
    decide

/-- After the change, the event is the only one that is unread. -/
theorem firstWatch_changed (version : Nat) : ∃ w,
    (Tracked.step oldPodCodec (podsFrom version) 1 (firstWatch version)
      (.op (.notify .modified "pods" none none oldPod))).world = some w ∧
    w.Serves (podsFrom version) 1 1 [oldPodEvent] := by
  have hopen := opens_podsFrom version
  have hallowed := firstWatch_allowed version _ rfl
  obtain ⟨w', hw'⟩ := hallowed.perform (World.tidy_init.create rfl (podsFrom version))
  have hserves := World.serves_create World.tidy_init rfl hopen
  exact ⟨w', world_step rfl hw', hserves.notify hopen.resourceType hopen.ns hallowed nofun hw'⟩

theorem oldPodCalls_allowed (version : Nat) : AllSteps (Tracked.step oldPodCodec (podsFrom version) 1)
    (fun t call => ∀ w, t.world = some w → w.Allowed oldPodCodec (podsFrom version) 1 1 call) (firstWatch version)
    oldPodCalls := by
  refine ⟨firstWatch_allowed version, fun w hw => ?_, trivial⟩
  obtain ⟨w', hw', hserves⟩ := firstWatch_changed version
  rw [hw'] at hw
  cases hw
  intro x hx hid b _ e _
  rw [hserves.eq_of_mem hx (.inl hid)]
  exact Option.some_ne_none true

theorem oldPodCalls_unhidden_iff (version : Nat) : AllSteps (Tracked.step oldPodCodec (podsFrom version) 1)
    (Unhidden oldPodCodec (podsFrom version) 1 1) (firstWatch version) oldPodCalls ↔ version < 3 := by
  obtain ⟨w, hw, hserves⟩ := firstWatch_changed version
  obtain ⟨b, hb, -, -, hunread⟩ := hserves.buffer
  constructor
  · rintro ⟨-, hread, -⟩
    exact (hread rfl w hw b hb oldPodEvent [] hunread).1 rfl
  · refine fun hnew => ⟨trivial, fun _ w' hw' b' hb' e rest hunread' => ?_, trivial⟩
    rw [hw] at hw'
    cases hw'
    rw [hb] at hb'
    cases hb'
    rw [hunread] at hunread'
    cases hunread'
    exact ⟨fun _ => hnew, fun h => absurd rfl h⟩

/-- A watch from version 2 on delivers version 3. -/
theorem new_event_delivered : AllSteps (Tracked.step oldPodCodec (podsFrom 2) 1) (Delivers oldPodCodec 1)
    (firstWatch 2) oldPodCalls :=
  (@reads_pending_iff oldPodCodec [] oldPodCalls World.init 1 (podsFrom 2) trivial rfl rfl (opens_podsFrom 2)
    (oldPodCalls_allowed 2)).mpr ((oldPodCalls_unhidden_iff 2).mpr (by decide))

/-- **A watch from version 5 on is given version 3**: the calls are allowed, and yet the read is wrong. -/
theorem old_event_delivered :
    AllSteps (Tracked.step oldPodCodec (podsFrom 5) 1)
      (fun t call => ∀ w, t.world = some w → w.Allowed oldPodCodec (podsFrom 5) 1 1 call) (firstWatch 5) oldPodCalls ∧
    ¬ AllSteps (Tracked.step oldPodCodec (podsFrom 5) 1) (Delivers oldPodCodec 1) (firstWatch 5) oldPodCalls := by
  refine ⟨oldPodCalls_allowed 5, ?_⟩
  rw [(follows_firstWatch oldPodCodec 5).allSteps_iff (opens_podsFrom 5).resourceType (opens_podsFrom 5).ns
    (oldPodCalls_allowed 5), oldPodCalls_unhidden_iff]
  decide

end Tracked

end Sirah.WatchStream
