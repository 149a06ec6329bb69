import Mathlib.Data.List.FinRange
import Mathlib.Logic.Function.Basic
import Sirah.ApiServer.Selectors
import Sirah.Lib.Run

/-!
# Watch sessions

Model of `sirah/internal/apiserver/watch.c`: a hundred sessions, which are used again when they are stopped, each with a
queue of 1000 events that are never taken out.

* Each call is one step. `poll` is one look of `watch_next_event` at the queue; a call makes none, one or many of them,
  up to its timeout.
* `render` and `parse` are the two functions of json-c that `json_dup` calls. A label selector may be undefined for an
  object, and then the call is.
* `Feed`: what a watch is for. The events that its request wants since it was started are `due`, and it reads them one
  after the other.
* **`sessions_serve_feeds`**: in every interleaving of calls, each poll answers what the feed of its slot does: the
  first 1000 events that are due, in their order and numbered from 0, each once, and nothing more. A request has to name
  its selectors, if only as empty texts: a slot keeps those of the last watch otherwise (`old_selector_kept`).
-/

namespace Sirah.WatchSessions

open Runs Selectors

variable (render : Json → CString) (parse : CString → Json)

/-! ## Sessions -/

/-- `watch_event_type_t`. -/
inductive EventType where
  | added
  | modified
  | deleted
  | error
  | bookmark
  deriving DecidableEq

/-- `watch_event_t`, of which `error_message` is not written. -/
structure WatchEvent where
  type : EventType
  object : Json
  resourceVersion : Nat

/-- `watch_session_t`, with the events that are in use. -/
structure Session where
  active : Bool
  resourceType : CString
  ns : CString
  labelSelector : CString
  fieldSelector : CString
  events : List WatchEvent
  eventReadIdx : Nat
  resourceVersion : Nat

/-- A session that was never used. -/
def Session.zero : Session := ⟨false, [], [], [], [], [], 0, 0⟩

/-- What `watch_start` is called with. -/
structure Request where
  resourceType : CString
  ns : CString
  labelSelector : Option CString
  fieldSelector : Option CString

/-- What `watch_notify_all` is called with. -/
structure Notice where
  resourceType : CString
  ns : CString
  type : EventType
  object : Json

/-- `json_dup`. -/
def jsonDup : Json → Json
  | .null => .null
  | object => parse (render object)

/-- The session that `watch_start` fills in. -/
def Session.start (ws : Session) (q : Request) : Session where
  active := true
  resourceType := q.resourceType.take 63
  ns := q.ns.take 63
  labelSelector := q.labelSelector.elim ws.labelSelector (List.take 511)
  fieldSelector := q.fieldSelector.elim ws.fieldSelector (List.take 511)
  events := []
  eventReadIdx := 0
  resourceVersion := 0

/-- The first free slot. -/
def freeSlot (watches : Fin 100 → Session) : Option (Fin 100) := (List.finRange 100).find? fun i => !(watches i).active

/-- `watch_start`. -/
def watchStart (watches : Fin 100 → Session) (q : Request) : Option (Fin 100) × (Fin 100 → Session) :=
  match freeSlot watches with
  | none => (none, watches)
  | some i => (some i, Function.update watches i ((watches i).start q))

/-- A look of `watch_next_event` at the queue. -/
def watchNextEvent (ws : Session) : Option WatchEvent × Session :=
  match ws.events[ws.eventReadIdx]? with
  | none => (none, ws)
  | some e => (some e, { ws with eventReadIdx := ws.eventReadIdx + 1 })

/-- `watch_stop`. -/
def watchStop (ws : Session) : Session := { ws with active := false }

/-- The checks of `watch_notify_all`. -/
def Session.cares (ws : Session) (n : Notice) : Option Bool :=
  if ¬ ws.active then some false
  else if ws.resourceType ≠ n.resourceType then some false
  else if ws.ns ≠ [] ∧ ws.ns ≠ n.ns then some false
  else (matchesLabelSelector render n.object (some ws.labelSelector)).map fun labels =>
    labels && matchesFieldSelector render n.object (some ws.fieldSelector)

/-- The event added to a queue, if there is room. -/
def Session.enqueue (ws : Session) (n : Notice) : Session :=
  if ws.events.length < 1000 then
    { ws with
      events := ws.events ++ [⟨n.type, jsonDup render parse n.object, ws.resourceVersion⟩]
      resourceVersion := ws.resourceVersion + 1 }
  else ws

/-- What `watch_notify_all` does to one session. -/
def Session.notify (ws : Session) (n : Notice) : Session :=
  if ws.cares render n = some true then ws.enqueue render parse n else ws

/-- `watch_notify_all`. -/
def watchNotifyAll (watches : Fin 100 → Session) (n : Notice) : Option (Fin 100 → Session) :=
  if ∀ i, (watches i).cares render n ≠ none then some fun i => (watches i).notify render parse n else none

/-! ## Feeds -/

/-- What a watch is for. -/
structure Feed where
  request : Request
  isOpen : Bool
  due : List (EventType × Json)
  read : Nat

/-- The request wants the event. -/
def Request.Wants (q : Request) (n : Notice) : Prop :=
  q.resourceType = n.resourceType ∧ (q.ns = [] ∨ q.ns = n.ns) ∧
    matchesLabelSelector render n.object q.labelSelector = some true ∧
    matchesFieldSelector render n.object q.fieldSelector = true

instance (q : Request) (n : Notice) : Decidable (q.Wants render n) := inferInstanceAs (Decidable (_ ∧ _ ∧ _ ∧ _))

/-- The events of a watch, numbered. -/
def Feed.events (f : Feed) : List WatchEvent :=
  (f.due.take 1000).mapIdx fun v e => ⟨e.1, jsonDup render parse e.2, v⟩

/-- The next event. -/
def Feed.next (f : Feed) : Option WatchEvent := (f.events render parse)[f.read]?

/-- An event that happens. -/
def Feed.notify (f : Feed) (n : Notice) : Feed :=
  if f.isOpen ∧ f.request.Wants render n then { f with due := f.due ++ [(n.type, n.object)] } else f

/-- The next event is read. -/
def Feed.advance (f : Feed) : Feed := if (f.next render parse).isSome then { f with read := f.read + 1 } else f

/-- The sessions, and what they are for. -/
structure System where
  watches : Fin 100 → Session
  feeds : Fin 100 → Option Feed

/-- Before the first watch. -/
def System.init : System := ⟨fun _ => .zero, fun _ => none⟩

/-- A call. -/
inductive Call where
  | start (q : Request)
  | poll (i : Fin 100)
  | stop (i : Fin 100)
  | notify (n : Notice)

/-- One call on the sessions, and what it means for the feeds. -/
def System.call (s : System) : Call → Option System
  | .start q =>
    match watchStart s.watches q with
    | (none, _) => some s
    | (some i, watches) => some ⟨watches, Function.update s.feeds i (some ⟨q, true, [], 0⟩)⟩
  | .poll i =>
    some ⟨Function.update s.watches i (watchNextEvent (s.watches i)).2,
      Function.update s.feeds i ((s.feeds i).map (Feed.advance render parse))⟩
  | .stop i =>
    some ⟨Function.update s.watches i (watchStop (s.watches i)),
      Function.update s.feeds i ((s.feeds i).map fun f => { f with isOpen := false })⟩
  | .notify n =>
    (watchNotifyAll render parse s.watches n).map fun watches =>
      ⟨watches, fun i => (s.feeds i).map fun f => f.notify render n⟩

/-- One call. -/
def step (s : Option System) (call : Call) : Option System := s.bind fun s => s.call render parse call

/-- The request names its selectors, and all of it fits into its fields. -/
def Call.Fits : Call → Prop
  | .start q => q.resourceType.length ≤ 63 ∧ q.ns.length ≤ 63 ∧
      (∃ l, q.labelSelector = some l ∧ l.length ≤ 511) ∧ ∃ f, q.fieldSelector = some f ∧ f.length ≤ 511
  | _ => True

/-- Every poll answers what the feed does, and the slots in use are those of the open feeds. -/
def Serves (s : System) : Prop := ∀ i,
  (watchNextEvent (s.watches i)).1 = (s.feeds i).bind (Feed.next render parse) ∧
    ((s.watches i).active = true ↔ ∃ f, s.feeds i = some f ∧ f.isOpen = true)

/-! ## One session -/

variable {render parse} {ws : Session} {f : Feed} {n : Notice} {s : System}

/-- The session is as its feed has it. -/
structure Shows (render : Json → CString) (parse : CString → Json) (ws : Session) (f : Feed) : Prop where
  active : ws.active = f.isOpen
  resourceType : ws.resourceType = f.request.resourceType
  ns : ws.ns = f.request.ns
  labelSelector : f.request.labelSelector = some ws.labelSelector
  fieldSelector : f.request.fieldSelector = some ws.fieldSelector
  events : ws.events = f.events render parse
  read : ws.eventReadIdx = f.read
  version : ws.resourceVersion = ws.events.length

theorem shows_start {q : Request} (hfits : (Call.start q).Fits) (ws : Session) :
    Shows render parse (ws.start q) ⟨q, true, [], 0⟩ := by
  obtain ⟨htype, hns, ⟨l, hl, hlen⟩, ⟨fs, hfs, hflen⟩⟩ := hfits
  refine ⟨rfl, List.take_of_length_le htype, List.take_of_length_le hns, ?_, ?_, rfl, rfl, rfl⟩
  · rw [Session.start, hl, Option.elim_some, List.take_of_length_le hlen]
  · rw [Session.start, hfs, Option.elim_some, List.take_of_length_le hflen]

theorem Shows.next (h : Shows render parse ws f) : (watchNextEvent ws).1 = f.next render parse := by
  rw [watchNextEvent, h.events, h.read, Feed.next]
  cases (f.events render parse)[f.read]? <;> rfl

theorem Shows.poll (h : Shows render parse ws f) :
    Shows render parse (watchNextEvent ws).2 (f.advance render parse) := by
  have hnext : ws.events[ws.eventReadIdx]? = f.next render parse := by rw [h.events, h.read, Feed.next]
  rw [watchNextEvent, hnext, Feed.advance]
  cases f.next render parse with
  | none => exact h
  | some e =>
    exact ⟨h.active, h.resourceType, h.ns, h.labelSelector, h.fieldSelector, h.events, congrArg (· + 1) h.read, h.version⟩

theorem Shows.stop (h : Shows render parse ws f) : Shows render parse (watchStop ws) { f with isOpen := false } :=
  ⟨rfl, h.resourceType, h.ns, h.labelSelector, h.fieldSelector, h.events, h.read, h.version⟩

/-- The checks are those of the request. -/
theorem Shows.cares_iff (h : Shows render parse ws f) :
    ws.cares render n = some true ↔ f.isOpen = true ∧ f.request.Wants render n := by
  rw [Session.cares, Request.Wants, ← h.active, ← h.resourceType, ← h.ns, h.labelSelector, h.fieldSelector]
  by_cases hactive : ws.active = true
  · rw [if_neg (not_not.mpr hactive)]
    by_cases htype : ws.resourceType = n.resourceType
    · rw [if_neg (not_not.mpr htype)]
      by_cases hns : ws.ns = [] ∨ ws.ns = n.ns
      · rw [if_neg (by rwa [← not_or, not_not]), Option.map_eq_some_iff]
        constructor
        · rintro ⟨labels, hlabels, hand⟩
          obtain ⟨rfl, hfield⟩ := Bool.and_eq_true_iff.mp hand
          exact ⟨hactive, htype, hns, hlabels, hfield⟩
        · rintro ⟨-, -, -, hlabels, hfield⟩
          exact ⟨true, hlabels, by rw [hfield, Bool.and_true]⟩
      · rw [if_pos (not_or.mp hns)]
        exact iff_of_false nofun fun hand => hns hand.2.2.1
    · rw [if_pos htype]
      exact iff_of_false nofun fun hand => htype hand.2.1
  · rw [if_pos hactive]
    exact iff_of_false nofun fun hand => hactive hand.1

theorem length_events : (f.events render parse).length = min 1000 f.due.length := by
  rw [Feed.events, List.length_mapIdx, List.length_take]

/-- One more event is numbered behind the others, if there is room. -/
theorem events_concat (e : EventType × Json) : Feed.events render parse { f with due := f.due ++ [e] } =
    if f.due.length < 1000 then f.events render parse ++ [⟨e.1, jsonDup render parse e.2, f.due.length⟩]
    else f.events render parse := by
  rw [Feed.events, Feed.events]
  dsimp only
  by_cases hroom : f.due.length < 1000
  · rw [if_pos hroom, List.take_of_length_le (by rw [List.length_append, List.length_singleton]; omega),
      List.take_of_length_le hroom.le, List.mapIdx_concat]
  · rw [if_neg hroom, List.take_append_of_le_length (Nat.not_lt.mp hroom)]

theorem Shows.notify (h : Shows render parse ws f) :
    Shows render parse (ws.notify render parse n) (f.notify render n) := by
  rw [Session.notify, Feed.notify]
  by_cases hwants : f.isOpen = true ∧ f.request.Wants render n
  · rw [if_pos (h.cares_iff.mpr hwants), if_pos hwants, Session.enqueue]
    have hcount : ws.events.length = min 1000 f.due.length := by rw [h.events, length_events]
    by_cases hroom : f.due.length < 1000
    · have hlength : ws.events.length = f.due.length := by omega
      rw [if_pos (by omega)]
      refine ⟨h.active, h.resourceType, h.ns, h.labelSelector, h.fieldSelector, ?_, h.read, ?_⟩
      · rw [events_concat, if_pos hroom, h.version, hlength, h.events]
      · rw [List.length_append, List.length_singleton, h.version]
    · rw [if_neg (by omega)]
      exact ⟨h.active, h.resourceType, h.ns, h.labelSelector, h.fieldSelector,
        by rw [events_concat, if_neg hroom, h.events], h.read, h.version⟩
  · rw [if_neg (h.cares_iff.not.mpr hwants), if_neg hwants]
    exact h

/-! ## All sessions -/

/-- Every slot is as its feed has it, or was never used. -/
def AllShow (render : Json → CString) (parse : CString → Json) (s : System) : Prop := ∀ i,
  match s.feeds i with
  | none => s.watches i = .zero
  | some f => Shows render parse (s.watches i) f

theorem AllShow.serves (h : AllShow render parse s) : Serves render parse s := by
  intro i
  have hi := h i
  cases hf : s.feeds i with
  | none =>
    simp only [hf] at hi
    rw [hi]
    exact ⟨rfl, iff_of_false nofun fun ⟨f, hsome, _⟩ => nomatch hsome⟩
  | some f =>
    simp only [hf] at hi
    refine ⟨hi.next, ?_⟩
    rw [hi.active]
    exact ⟨fun hopen => ⟨f, rfl, hopen⟩, fun ⟨f', hsome, hopen⟩ => Option.some.inj hsome ▸ hopen⟩

/-- A call on one slot. -/
theorem AllShow.update (h : AllShow render parse s) (i : Fin 100) {ws : Session} {feed : Option Feed}
    (hi : match feed with
      | none => ws = .zero
      | some f => Shows render parse ws f) :
    AllShow render parse ⟨Function.update s.watches i ws, Function.update s.feeds i feed⟩ := by
  intro j
  by_cases hij : j = i
  · subst hij
    simp only [Function.update_self]
    exact hi
  · simp only [Function.update_of_ne hij]
    exact h j

theorem AllShow.call (h : AllShow render parse s) {call : Call} (hfits : call.Fits) {s' : System}
    (hs : s.call render parse call = some s') : AllShow render parse s' := by
  cases call with
  | start q =>
    rw [System.call, watchStart] at hs
    cases hfree : freeSlot s.watches with
    | none =>
      simp only [hfree, Option.some.injEq] at hs
      exact hs ▸ h
    | some i =>
      simp only [hfree, Option.some.injEq] at hs
      exact hs ▸ h.update i (shows_start hfits _)
  | poll i =>
    rw [System.call, Option.some.injEq] at hs
    rw [← hs]
    refine h.update i ?_
    have hi := h i
    cases hf : s.feeds i with
    | none =>
      simp only [hf] at hi
      rw [hi]
      rfl
    | some f =>
      simp only [hf] at hi
      exact hi.poll
  | stop i =>
    rw [System.call, Option.some.injEq] at hs
    rw [← hs]
    refine h.update i ?_
    have hi := h i
    cases hf : s.feeds i with
    | none =>
      simp only [hf] at hi
      rw [hi]
      rfl
    | some f =>
      simp only [hf] at hi
      exact hi.stop
  | notify n =>
    rw [System.call, watchNotifyAll] at hs
    obtain ⟨watches, hwatches, rfl⟩ := Option.map_eq_some_iff.mp hs
    split at hwatches
    · obtain rfl := Option.some.inj hwatches
      intro i
      have hi := h i
      cases hf : s.feeds i with
      | none =>
        simp only [hf] at hi ⊢
        rw [hi]
        rfl
      | some f =>
        simp only [hf] at hi ⊢
        exact hi.notify
    · cases hwatches

/-- **Every watch reads its feed**, in every state of every run. -/
theorem sessions_serve_feeds (render : Json → CString) (parse : CString → Json) {calls : List Call}
    (h : ∀ call ∈ calls, call.Fits) :
    AllStates (step render parse) (fun s => ∀ s' ∈ s, Serves render parse s') (some .init) calls := by
  have hinit : ∀ s' ∈ some System.init, AllShow render parse s' := by
    rintro s' hs' i
    rw [← Option.mem_some_iff.mp hs']
    rfl
  have hstep : ∀ s call, (∀ s' ∈ s, AllShow render parse s') → Call.Fits call →
      ∀ s' ∈ step render parse s call, AllShow render parse s' := by
    intro s call hs hfits s' hs'
    obtain ⟨s₀, hs₀, hcall⟩ := Option.bind_eq_some_iff.mp hs'
    exact (hs s₀ hs₀).call hfits hcall
  have hall : AllStates (step render parse) (fun s => ∀ s' ∈ s, AllShow render parse s') (some .init) calls :=
    allStates_of_allSteps hstep hinit (allSteps_of_mem h)
  exact hall.imp fun s hs s' hs' => (hs s' hs').serves

/-- A watch of the pods of all namespaces. -/
def allPods (labelSelector fieldSelector : Option CString) : Request := ⟨"Pod", [], labelSelector, fieldSelector⟩

/-- A pod without labels is added. -/
def podAdded : Notice := ⟨"Pod", "default", .added, .obj []⟩

/-- A slot that is used again, by a watch without selectors. -/
theorem sessions_serve_feeds_again :
    AllStates (step (fun _ => []) (fun _ => .null)) (fun s => ∀ s' ∈ s, Serves (fun _ => []) (fun _ => .null) s')
      (some .init) [.start (allPods (some "app=web") (some [])), .notify podAdded, .stop 0,
        .start (allPods (some []) (some [])), .notify podAdded, .poll 0, .poll 0] := by
  refine sessions_serve_feeds _ _ fun call hcall => ?_
  simp only [List.mem_cons, List.not_mem_nil, or_false] at hcall
  rcases hcall with rfl | rfl | rfl | rfl | rfl | rfl | rfl
  · exact ⟨by decide, by decide, ⟨_, rfl, by decide⟩, ⟨_, rfl, by decide⟩⟩
  · trivial
  · trivial
  · exact ⟨by decide, by decide, ⟨_, rfl, by decide⟩, ⟨_, rfl, by decide⟩⟩
  · trivial
  · trivial
  · trivial

/-- **The selector of the last watch** stays in a slot whose next watch names none. -/
theorem old_selector_kept :
    ¬ ∀ s' ∈ run (step (fun _ => []) (fun _ => .null)) (some .init) [.start (allPods (some "app=web") (some [])), .stop 0,
        .start (allPods none none), .notify podAdded], Serves (fun _ => []) (fun _ => .null) s' := by
  intro h
  have hserves := (h _ rfl 0).1
  cases hserves

end Sirah.WatchSessions
