import Sirah.ApiServer.EventSystem

/-!
# Open watches and their registrations

The event system finds the buffer of a watch through its own table, in which `watch_create` registers it. Nothing takes
an entry out of it: `watch_close` frees the buffer and leaves the entry behind.

* `Registered`: the active entries are the open watches, each with its buffer, resource type and namespace.
* **`registered_iff`**: they are along a run **iff** no open watch is closed, every watch that is opened has a resource
  type and a namespace of at most 63 bytes, and no event without a namespace meets a watch with one.
* `closed_watch_registered`: a watch is opened and closed.
-/

namespace Sirah.WatchStream

open Runs

/-! ## Runs -/

inductive Op where
  | create (buffer : Nat) (q : Request)
  | close (id : Nat)
  | notify (type : EventType) (resourceType : CString) (ns name : Option CString) (object : Json)

/-- What a registration says. -/
def Entry.key (s : Entry) : Nat × CString × CString := (s.buffer, s.resourceType, s.ns)

/-- What the registration of a watch should say. -/
def Watch.key (x : Watch) : Nat × CString × CString := (x.buffer, x.resourceType, x.ns)

namespace World

/-- The active entries of the event system. -/
def registrations (w : World) : List (Nat × CString × CString) := (w.entries.filter Entry.active).map Entry.key

/-- The open watches. -/
def openWatches (w : World) : List Watch := w.watches.filter Watch.active

def apply (codec : Codec) (w : World) : Op → Option World
  | .create buffer q => some (w.watchCreate buffer q).1
  | .close id => w.watchClose id
  | .notify type resourceType ns name object => w.watchNotifyChange codec type resourceType ns name object

/-- A state that is not defined has no successor. -/
def step (codec : Codec) (w : Option World) (op : Op) : Option World := w.bind fun w => w.apply codec op

/-- **The registrations are the open watches.** -/
def Registered (w : World) : Prop := w.registrations.Perm (w.openWatches.map Watch.key)

/-- The state is defined, and the property holds of it. -/
def Holds (P : World → Prop) (w : Option World) : Prop := ∃ w', w = some w' ∧ P w'

/-- The condition on a step. -/
def Clean (w : World) : Op → Prop
  | .create _ q => w.openWatches.length < w.watches.length →
      q.resourceType.length ≤ 63 ∧ (q.ns.getD []).length ≤ 63
  | .close id => ∀ x ∈ w.openWatches, x.id ≠ id
  | .notify _ resourceType ns _ object => ns = none → (∀ x ∈ w.openWatches, x.resourceType = resourceType → x.ns = []) ∨
      object = .null

/-! ## The invariant -/

/-- What the clean runs keep. -/
structure Sound (w : World) : Prop where
  watches : w.watches.length = 1000
  entries : w.entries.length = 1000
  idle : ∀ s ∈ w.entries, s.active = false → s.ns = []
  live : ∀ x ∈ w.openWatches, (w.buffers x.buffer).isSome = true

variable {codec : Codec} {w : World}

theorem mem_openWatches {x : Watch} : x ∈ w.openWatches ↔ x ∈ w.watches ∧ x.active = true := List.mem_filter

theorem mem_registrations {s : Entry} (hs : s ∈ w.entries) (h : s.active = true) : s.key ∈ w.registrations :=
  List.mem_map_of_mem (List.mem_filter.mpr ⟨hs, h⟩)

theorem length_openWatches_lt {pre post : List Watch} {slot : Watch} (h : w.watches = pre ++ slot :: post)
    (hslot : slot.active = false) : w.openWatches.length < w.watches.length := by
  refine List.length_filter_lt_length_iff_exists.mpr ⟨slot, ?_, by simp [hslot]⟩
  rw [h]
  simp

/-- **What `watch_create` does**: the first free slot is taken. -/
theorem watchCreate_eq (w : World) (buffer : Nat) (q : Request) :
    (w.watchCreate buffer q = (w, -1) ∧ ∀ x ∈ w.watches, x.active = true) ∨
    ∃ pre slot post, w.watches = pre ++ slot :: post ∧ slot.active = false ∧
      w.watchCreate buffer q =
        ({ watches := pre ++ slot.start w.nextSubscriptionId buffer q :: post
           entries := eventRegisterSubscription w.entries buffer q.resourceType q.ns
           buffers := Function.update w.buffers buffer (some (Buffer.new 1000))
           nextSubscriptionId := w.nextSubscriptionId + 1 }, (w.nextSubscriptionId : Int)) := by
  unfold watchCreate
  cases hfirst : w.watches.splitFirst fun x => !x.active with
  | none =>
    have hall := List.splitFirst_eq_none.mp hfirst
    exact .inl ⟨rfl, fun x hx => by simpa using hall x hx⟩
  | some found =>
    obtain ⟨pre, slot, post⟩ := found
    obtain ⟨hwatches, hslot, -⟩ := List.splitFirst_eq_some hfirst
    exact .inr ⟨pre, slot, post, hwatches, by simpa using hslot, rfl⟩

/-- While the registrations are the open watches, the first free entry is taken too. -/
theorem watchCreate_cases (hsound : Sound w) (hreg : Registered w) (buffer : Nat) (q : Request) :
    (w.watchCreate buffer q = (w, -1) ∧ w.openWatches.length = w.watches.length) ∨
    ∃ pre slot post pre' slot' post', w.watches = pre ++ slot :: post ∧ slot.active = false ∧
      w.entries = pre' ++ slot' :: post' ∧ slot'.active = false ∧ w.openWatches.length < w.watches.length ∧
      w.watchCreate buffer q =
        ({ watches := pre ++ slot.start w.nextSubscriptionId buffer q :: post
           entries := pre' ++ slot'.register buffer q.resourceType q.ns :: post'
           buffers := Function.update w.buffers buffer (some (Buffer.new 1000))
           nextSubscriptionId := w.nextSubscriptionId + 1 }, (w.nextSubscriptionId : Int)) := by
  rcases watchCreate_eq w buffer q with ⟨heq, hall⟩ | ⟨pre, slot, post, hwatches, hslot, heq⟩
  · exact .inl ⟨heq, by rw [openWatches, List.filter_eq_self.mpr hall]⟩
  · have hlt := length_openWatches_lt hwatches hslot
    -- there are as many active entries as open watches
    have hlen : (w.entries.filter Entry.active).length = w.openWatches.length := by
      simpa [registrations] using hreg.length_eq
    cases hfirst : w.entries.splitFirst fun s => !s.active with
    | none =>
      have hall := List.splitFirst_eq_none.mp hfirst
      rw [List.filter_eq_self.mpr fun s hs => by simpa using hall s hs, hsound.entries] at hlen
      have hwlen := hsound.watches
      omega
    | some found =>
      obtain ⟨pre', slot', post'⟩ := found
      obtain ⟨hentries, hslot', -⟩ := List.splitFirst_eq_some hfirst
      refine .inr ⟨pre, slot, post, pre', slot', post', hwatches, hslot, hentries, by simpa using hslot', hlt, ?_⟩
      rw [heq, eventRegisterSubscription, hfirst]

/-- Buffers that are allocated stay so when one is written. -/
theorem isSome_update {buffers : Nat → Option Buffer} {a : Nat} (h : (buffers a).isSome = true) (c : Nat) (b : Buffer) :
    (Function.update buffers c (some b) a).isSome = true := by
  rw [Function.update_apply]
  split
  · rfl
  · exact h

/-- The buffers of the open watches are allocated, that of a new one too. -/
theorem live_create (hlive : ∀ x ∈ w.openWatches, (w.buffers x.buffer).isSome = true) (buffer : Nat) (q : Request) :
    ∀ x ∈ (w.watchCreate buffer q).1.openWatches, ((w.watchCreate buffer q).1.buffers x.buffer).isSome = true := by
  rcases watchCreate_eq w buffer q with ⟨heq, -⟩ | ⟨pre, slot, post, hwatches, hslot, heq⟩
  · rw [heq]
    exact hlive
  · rw [heq]
    intro x hx
    obtain ⟨hmem, hactive⟩ := mem_openWatches.mp hx
    rcases List.mem_append_cons_iff.mp hmem with rfl | hmem
    · exact Option.isSome_iff_exists.mpr ⟨_, Function.update_self ..⟩
    · refine isSome_update (hlive x (mem_openWatches.mpr ⟨?_, hactive⟩)) _ _
      rw [hwatches]
      exact List.mem_append_cons_iff.mpr (.inr hmem)

/-- The registration says what it should, if nothing is cut off. -/
theorem key_register_iff {slot : Watch} {slot' : Entry} (hidle : slot'.ns = []) (id buffer : Nat) (q : Request) :
    (slot'.register buffer q.resourceType q.ns).key = (slot.start id buffer q).key ↔
      q.resourceType.length ≤ 63 ∧ (q.ns.getD []).length ≤ 63 := by
  simp only [Entry.key, Entry.register, Watch.key, Watch.start, Prod.mk.injEq, true_and, List.take_eq_self_iff, hidle]
  refine and_congr_right fun _ => ?_
  cases q.ns with
  | none => simp
  | some ns => simp

theorem registered_create_iff (hsound : Sound w) (hreg : Registered w) (buffer : Nat) (q : Request) :
    Registered (w.watchCreate buffer q).1 ↔ Clean w (.create buffer q) := by
  rcases watchCreate_cases hsound hreg buffer q with ⟨heq, hfull⟩ |
    ⟨pre, slot, post, pre', slot', post', hwatches, hslot, hentries, hslot', hlt, heq⟩
  · rw [heq]
    exact iff_of_true hreg fun hlt => absurd hfull (Nat.ne_of_lt hlt)
  · have hidle : slot'.ns = [] := hsound.idle slot' (by rw [hentries]; simp) hslot'
    have hnewEntries := (List.filter_replace_perm pre' post' hslot'
      (show (slot'.register buffer q.resourceType q.ns).active = true from rfl)).map Entry.key
    have hnewWatches := (List.filter_replace_perm pre post hslot
      (show (slot.start w.nextSubscriptionId buffer q).active = true from rfl)).map Watch.key
    rw [← hentries, List.map_cons] at hnewEntries
    rw [← hwatches, List.map_cons] at hnewWatches
    have hcongr : Registered (w.watchCreate buffer q).1 ↔
        ((slot'.register buffer q.resourceType q.ns).key :: w.registrations).Perm
          ((slot.start w.nextSubscriptionId buffer q).key :: w.openWatches.map Watch.key) := by
      rw [heq]
      exact ⟨fun h => hnewEntries.symm.trans (h.trans hnewWatches), fun h => hnewEntries.trans (h.trans hnewWatches.symm)⟩
    rw [hcongr, List.cons_perm_cons_iff hreg, key_register_iff hidle]
    exact ⟨fun h _ => h, fun h => h hlt⟩

/-! ## Closing -/

/-- **What `watch_close` does** to an open watch: if it is defined, one watch less is open. -/
theorem watchClose_cases (w : World) (id : Nat) :
    (w.watchClose id = some w ∧ ∀ x ∈ w.openWatches, x.id ≠ id) ∨
    (∃ x ∈ w.openWatches, x.id = id) ∧ ∀ w', w.watchClose id = some w' →
      w'.entries = w.entries ∧ w'.openWatches.length < w.openWatches.length := by
  unfold watchClose findWatch
  cases hfirst : w.watches.splitFirst fun x => x.active && x.id == id with
  | none =>
    refine .inl ⟨rfl, fun x hx hid => ?_⟩
    obtain ⟨hmem, hactive⟩ := mem_openWatches.mp hx
    have hno := List.splitFirst_eq_none.mp hfirst x hmem
    simp [hactive, hid] at hno
  | some found =>
    obtain ⟨pre, slot, post⟩ := found
    obtain ⟨hwatches, hslot, -⟩ := List.splitFirst_eq_some hfirst
    obtain ⟨hactive, hid⟩ : slot.active = true ∧ slot.id = id := by simpa using hslot
    refine .inr ⟨⟨slot, mem_openWatches.mpr ⟨by rw [hwatches]; simp, hactive⟩, hid⟩, fun w' hw' => ?_⟩
    dsimp only at hw'
    split at hw'
    · cases hw'
      refine ⟨rfl, ?_⟩
      simp [openWatches, hwatches, List.filter_append, hactive]
    · cases hw'

theorem holds_close_iff (hreg : Registered w) (id : Nat) :
    Holds Registered (w.watchClose id) ↔ Clean w (.close id) := by
  rcases watchClose_cases w id with ⟨heq, hnone⟩ | ⟨⟨x, hx, hid⟩, hless⟩
  · rw [heq]
    exact iff_of_true ⟨w, rfl, hreg⟩ hnone
  · refine iff_of_false ?_ fun hnone => hnone x hx hid
    rintro ⟨w', hw', hreg'⟩
    obtain ⟨hentries, hlt⟩ := hless w' hw'
    have hlen := hreg'.length_eq
    have hlen' := hreg.length_eq
    rw [registrations, hentries] at hlen
    rw [registrations] at hlen'
    simp only [List.length_map] at hlen hlen'
    omega

/-! ## Dispatch -/

theorem accepts_eq_none_iff {s : Entry} {e : Event} :
    s.accepts e = none ↔ s.active = true ∧ s.resourceType = e.resourceType ∧ s.ns ≠ [] ∧ e.ns = none := by
  unfold Entry.accepts
  split
  · rename_i hmatch
    obtain ⟨hactive, htype⟩ : s.active = true ∧ s.resourceType = e.resourceType := by simpa using hmatch
    split
    · rename_i hns
      simp [hns]
    · rename_i hns
      simp [hactive, htype, hns]
  · rename_i hmatch
    refine iff_of_false (by simp) fun h => hmatch ?_
    simp [h.1, h.2.1]

theorem active_of_accepts {s : Entry} {e : Event} (h : s.accepts e = some true) : s.active = true := by
  unfold Entry.accepts at h
  split at h
  · rename_i hmatch
    simp only [Bool.and_eq_true] at hmatch
    exact hmatch.1
  · cases h

theorem dispatchLoop_eq_none {e : Event} {entries : List Entry} {buffers : Nat → Option Buffer} {s : Entry}
    (hs : s ∈ entries) (h : s.accepts e = none) : dispatchLoop codec e entries buffers = none := by
  induction entries generalizing buffers with
  | nil => exact absurd hs List.not_mem_nil
  | cons t entries ih =>
    unfold dispatchLoop
    rcases List.mem_cons.mp hs with rfl | hs
    · rw [h]
    · split
      · rfl
      · exact ih hs
      · split
        · rfl
        · exact ih hs

/-- **Where the loop is defined**: buffers that are allocated stay so. -/
theorem dispatchLoop_some {e : Event} {entries : List Entry} {buffers : Nat → Option Buffer}
    (hdef : ∀ s ∈ entries, s.accepts e ≠ none)
    (hlive : ∀ s ∈ entries, s.accepts e = some true → (buffers s.buffer).isSome = true) :
    ∃ buffers', dispatchLoop codec e entries buffers = some buffers' ∧
      ∀ a, (buffers a).isSome = true → (buffers' a).isSome = true := by
  induction entries generalizing buffers with
  | nil => exact ⟨buffers, rfl, fun _ h => h⟩
  | cons s entries ih =>
    have hdef' : ∀ t ∈ entries, t.accepts e ≠ none := fun t ht => hdef t (List.mem_cons_of_mem s ht)
    have hlive' := fun t ht => hlive t (List.mem_cons_of_mem s ht)
    unfold dispatchLoop
    cases haccepts : s.accepts e with
    | none => exact absurd haccepts (hdef s List.mem_cons_self)
    | some accepted =>
      cases accepted with
      | false => exact ih hdef' hlive'
      | true =>
        obtain ⟨b, hb⟩ := Option.isSome_iff_exists.mp (hlive s List.mem_cons_self haccepts)
        obtain ⟨buffers', heq, hkept⟩ := ih hdef' fun t ht haccept => isSome_update (hlive' t ht haccept) s.buffer _
        exact ⟨buffers', by rw [hb]; exact heq, fun a ha => hkept a (isSome_update ha s.buffer _)⟩

/-- An active entry belongs to an open watch. -/
theorem exists_watch (hreg : Registered w) {s : Entry} (hs : s ∈ w.entries) (hactive : s.active = true) :
    ∃ x ∈ w.openWatches, x.key = s.key :=
  List.mem_map.mp (hreg.mem_iff.mp (mem_registrations hs hactive))

/-- An open watch has an active entry. -/
theorem exists_entry (hreg : Registered w) {x : Watch} (hx : x ∈ w.openWatches) :
    ∃ s ∈ w.entries, s.active = true ∧ s.key = x.key := by
  obtain ⟨s, hs, hkey⟩ := List.mem_map.mp (hreg.mem_iff.mpr (List.mem_map_of_mem hx))
  obtain ⟨hmem, hactive⟩ := List.mem_filter.mp hs
  exact ⟨s, hmem, hactive, hkey⟩

theorem live_of_accepts (hsound : Sound w) (hreg : Registered w) {s : Entry} {e : Event} (hs : s ∈ w.entries)
    (h : s.accepts e = some true) : (w.buffers s.buffer).isSome = true := by
  obtain ⟨x, hx, hkey⟩ := exists_watch hreg hs (active_of_accepts h)
  have hbuffer : x.buffer = s.buffer := congrArg Prod.fst hkey
  exact hbuffer ▸ hsound.live x hx

theorem defined_iff (hreg : Registered w) (e : Event) :
    (∀ s ∈ w.entries, s.accepts e ≠ none) ↔
      (e.ns = none → ∀ x ∈ w.openWatches, x.resourceType = e.resourceType → x.ns = []) := by
  simp only [Ne, accepts_eq_none_iff, not_and]
  constructor
  · intro h hns x hx htype
    obtain ⟨s, hs, hactive, hkey⟩ := exists_entry hreg hx
    simp only [Entry.key, Watch.key, Prod.mk.injEq] at hkey
    by_contra hne
    exact h s hs hactive (hkey.2.1.trans htype) (hkey.2.2 ▸ hne) hns
  · intro h s hs hactive htype hne hns
    obtain ⟨x, hx, hkey⟩ := exists_watch hreg hs hactive
    simp only [Entry.key, Watch.key, Prod.mk.injEq] at hkey
    exact hne (hkey.2.2 ▸ h hns x hx (hkey.2.1.trans htype))

/-- **What `event_dispatch` does** where it is defined. -/
theorem eventDispatch_cases (hsound : Sound w) (hreg : Registered w) (e : Event) :
    (w.eventDispatch codec e = none ∧ ∃ s ∈ w.entries, s.accepts e = none) ∨
    ∃ buffers, w.eventDispatch codec e = some { w with buffers := buffers } ∧ (∀ s ∈ w.entries, s.accepts e ≠ none) ∧
      dispatchLoop codec e w.entries w.buffers = some buffers ∧
      ∀ a, (w.buffers a).isSome = true → (buffers a).isSome = true := by
  unfold eventDispatch
  by_cases hdef : ∀ s ∈ w.entries, s.accepts e ≠ none
  · obtain ⟨buffers, heq, hkept⟩ := @dispatchLoop_some codec e w.entries w.buffers hdef
      fun s hs h => live_of_accepts hsound hreg hs h
    exact .inr ⟨buffers, by rw [heq]; rfl, hdef, heq, hkept⟩
  · simp only [not_forall, not_not] at hdef
    obtain ⟨s, hs, hnone⟩ := hdef
    exact .inl ⟨by rw [dispatchLoop_eq_none hs hnone]; rfl, s, hs, hnone⟩

theorem watchNotifyChange_eq {object : Json} (h : object ≠ .null) (type : EventType) (resourceType : CString)
    (ns name : Option CString) : w.watchNotifyChange codec type resourceType ns name object =
      w.eventDispatch codec (eventNew codec type resourceType ns name object) := by
  cases object with
  | null => exact absurd rfl h
  | _ => rfl

theorem holds_notify_iff (hsound : Sound w) (hreg : Registered w) (type : EventType) (resourceType : CString)
    (ns name : Option CString) (object : Json) :
    Holds Registered (w.watchNotifyChange codec type resourceType ns name object) ↔
      Clean w (.notify type resourceType ns name object) := by
  by_cases hobject : object = .null
  · subst hobject
    exact iff_of_true ⟨w, rfl, hreg⟩ fun _ => .inr rfl
  · have hdefined := defined_iff hreg (eventNew codec type resourceType ns name object)
    rw [watchNotifyChange_eq hobject]
    simp only [Clean, hobject, or_false]
    rcases eventDispatch_cases hsound hreg (eventNew codec type resourceType ns name object) with
      ⟨heq, s, hs, hnone⟩ | ⟨buffers, heq, hdef, -⟩
    · rw [heq]
      refine iff_of_false (fun h => ?_) fun h => hdefined.mpr h s hs hnone
      obtain ⟨w', hw', -⟩ := h
      cases hw'
    · rw [heq]
      exact iff_of_true ⟨_, rfl, hreg⟩ (hdefined.mp hdef)

/-! ## Exactness -/

theorem holds_apply_iff (hsound : Sound w) (hreg : Registered w) (op : Op) :
    Holds Registered (w.apply codec op) ↔ Clean w op := by
  cases op with
  | create buffer q =>
    rw [← registered_create_iff hsound hreg]
    exact ⟨fun ⟨w', hw', h⟩ => Option.some.inj hw' ▸ h, fun h => ⟨_, rfl, h⟩⟩
  | close id => exact holds_close_iff hreg id
  | notify type resourceType ns name object => exact holds_notify_iff hsound hreg type resourceType ns name object

theorem Sound.create (hsound : Sound w) (hreg : Registered w) (buffer : Nat) (q : Request) :
    Sound (w.watchCreate buffer q).1 := by
  have hlive := live_create hsound.live buffer q
  rcases watchCreate_cases hsound hreg buffer q with ⟨heq, -⟩ |
    ⟨pre, slot, post, pre', slot', post', hwatches, hslot, hentries, hslot', -, heq⟩
  · rw [heq]
    exact hsound
  · have hwlen := hsound.watches
    have helen := hsound.entries
    rw [heq] at hlive ⊢
    refine ⟨?_, ?_, fun s hs hidle => ?_, hlive⟩
    · rw [hwatches] at hwlen
      simpa using hwlen
    · rw [hentries] at helen
      simpa using helen
    · rcases List.mem_append_cons_iff.mp hs with rfl | hs
      · cases hidle
      · exact hsound.idle s (by rw [hentries]; exact List.mem_append_cons_iff.mpr (.inr hs)) hidle

theorem Sound.buffers (hsound : Sound w) {buffers : Nat → Option Buffer}
    (h : ∀ a, (w.buffers a).isSome = true → (buffers a).isSome = true) : Sound { w with buffers := buffers } :=
  ⟨hsound.watches, hsound.entries, hsound.idle, fun x hx => h _ (hsound.live x hx)⟩

/-- A clean step keeps the invariant. -/
theorem Sound.apply (hsound : Sound w) (hreg : Registered w) {op : Op} (hclean : Clean w op) {w' : World}
    (h : w.apply codec op = some w') : Sound w' := by
  cases op with
  | create buffer q =>
    cases h
    exact hsound.create hreg buffer q
  | close id =>
    rcases watchClose_cases w id with ⟨heq, -⟩ | ⟨⟨x, hx, hid⟩, -⟩
    · rw [World.apply, heq] at h
      exact Option.some.inj h ▸ hsound
    · exact absurd hid (hclean x hx)
  | notify type resourceType ns name object =>
    by_cases hobject : object = .null
    · subst hobject
      exact Option.some.inj h ▸ hsound
    · rw [World.apply, watchNotifyChange_eq hobject] at h
      rcases eventDispatch_cases hsound hreg (eventNew codec type resourceType ns name object) with
        ⟨heq, -⟩ | ⟨buffers, heq, -, -, hkept⟩
      · rw [heq] at h
        cases h
      · rw [heq] at h
        exact Option.some.inj h ▸ hsound.buffers hkept

theorem openWatches_init : init.openWatches = [] :=
  List.filter_eq_nil_iff.mpr fun x hx => by
    rw [List.eq_of_mem_replicate hx]
    exact Bool.false_ne_true

theorem registrations_init : init.registrations = [] := by
  refine List.map_eq_nil_iff.mpr (List.filter_eq_nil_iff.mpr fun s hs => ?_)
  rw [List.eq_of_mem_replicate hs]
  exact Bool.false_ne_true

theorem sound_init : Sound init := by
  refine ⟨List.length_replicate, List.length_replicate, fun s hs _ => ?_, fun x hx => ?_⟩
  · rw [List.eq_of_mem_replicate hs]
    rfl
  · rw [openWatches_init] at hx
    exact absurd hx List.not_mem_nil

theorem registered_init : Registered init := by
  rw [Registered, openWatches_init, registrations_init]
  exact List.Perm.nil

/-- **Registrations follow the open watches, exactly** along the clean runs. -/
theorem registered_iff {ops : List Op} :
    AllStates (step codec) (Holds Registered) (some init) ops ↔
      AllSteps (step codec) (fun w op => Holds (fun w => Clean w op) w) (some init) ops := by
  refine allStates_iff_allSteps_of_kept (I := fun w => ∀ w', w = some w' → Sound w') (A := fun _ _ => True) ?_ ?_ ?_ ?_
    allSteps_true
  · rintro w op hsound - ⟨w₁, rfl, hreg⟩ ⟨w₂, heq, hclean⟩ w' hw'
    cases heq
    exact (hsound w₁ rfl).apply hreg hclean hw'
  · rintro w op hsound - ⟨w₁, rfl, hreg⟩
    rw [step, Option.bind_some, holds_apply_iff (hsound w₁ rfl) hreg]
    exact ⟨fun h => ⟨w₁, rfl, h⟩, fun ⟨w₂, heq, h⟩ => Option.some.inj heq ▸ h⟩
  · intro w' hw'
    exact Option.some.inj hw' ▸ sound_init
  · exact ⟨init, rfl, registered_init⟩

/-! ## A watch that is closed -/

/-- All pods. -/
def allPods : Request := ⟨"pods", none, none, none, 0⟩

/-- **A closed watch stays registered**, with a buffer that was freed. -/
theorem closed_watch_registered :
    ¬ ∀ (codec : Codec) (ops : List Op), AllStates (step codec) (Holds Registered) (some init) ops := by
  intro h
  have hrun := h ⟨fun _ => [], fun _ => [], fun _ => .null⟩ [.create 1 allPods, .close 1]
  obtain ⟨w₁, hw₁, hreg⟩ := hrun.2.head
  have hcases := (holds_close_iff hreg 1).mp
  cases hw₁
  refine hcases hrun.2.2 _ (mem_openWatches.mpr ⟨List.mem_cons_self, rfl⟩) rfl

end World

end Sirah.WatchStream
