import Sirah.ApiServer.Selectors
import Sirah.Lib.Run
import Sirah.Lib.SplitFirst

/-!
# Watches and the event system

Model of `internal/apiserver/event_system.c` and of the subscriptions of `internal/apiserver/watch_manager.c`. A watch
has a slot in one table, and its buffer is registered in a second one, through which `event_dispatch` finds it.

* Memory: `buffers` are the event buffers that are allocated. `watch_create` is given the address of its new buffer;
  allocation does not fail. A selector that was freed stays in its slot as `freed`.
* The calls are given a resource type; without one they return -1.
* A call is `none` where the source is undefined: a buffer or a selector is used after it was freed, or `strcmp` is
  given a namespace that is NULL.
* The printers `json_object_to_json_string` and `json_object_to_json_string_ext` and the parser `json_tokener_parse` of
  json-c are parameters (`Codec`).
-/

namespace Sirah.WatchStream

open Selectors

/-! ## Events -/

/-- The functions of json-c that print and parse. -/
structure Codec where
  render : Json → CString
  plain : Json → CString
  parse : CString → Json

/-- `event_type_t`. -/
inductive EventType where
  | added
  | modified
  | deleted
  | error
  | bookmark
  deriving DecidableEq

/-- `event_t`. -/
structure Event where
  type : EventType
  resourceType : CString
  ns : Option CString
  name : Option CString
  object : Json
  resourceVersion : Nat

section Codec

variable (codec : Codec)

/-- The `resourceVersion` of `event_new`. -/
def versionOf (object : Json) : Nat :=
  match (object.getEx "metadata").bind fun metadata => metadata.getEx "resourceVersion" with
  | none => 0
  | some rv =>
    match rv.getString codec.render with
    | none => 0
    | some text => text.strtoull

/-- The object as `event_new` copies it. -/
def copyObject : Json → Json
  | .null => .null
  | object => codec.parse (codec.render object)

/-- `event_new`. -/
def eventNew (type : EventType) (resourceType : CString) (ns name : Option CString) (object : Json) : Event :=
  ⟨type, resourceType, ns, name, copyObject codec object, versionOf codec (copyObject codec object)⟩

/-- The copy that `event_dispatch` makes for a subscription. -/
def Event.copy (e : Event) : Event := eventNew codec e.type e.resourceType e.ns e.name e.object

/-- The names of `event_to_ndjson`. -/
def EventType.text : EventType → CString
  | .added => "ADDED"
  | .modified => "MODIFIED"
  | .deleted => "DELETED"
  | .error => "ERROR"
  | .bookmark => "BOOKMARK"

/-- `event_to_ndjson`. -/
def eventToNdjson (e : Event) : CString :=
  let object :=
    match e.object with
    | .null => []
    | object => [(CString.ofString "object", codec.parse (codec.render object))]
  codec.plain (.obj ((CString.ofString "type", .str e.type.text) :: object)) ++ [10]

end Codec

/-! ## Buffers -/

/-- `event_buffer_t`. -/
structure Buffer where
  events : List Event
  capacity : Nat
  readIndex : Nat

namespace Buffer

/-- `event_buffer_new`. -/
def new (capacity : Nat) : Buffer := ⟨[], capacity, 0⟩

/-- `event_buffer_add`: a full buffer loses its oldest event. -/
def add (b : Buffer) (e : Event) : Buffer :=
  if b.events.length ≥ b.capacity then { b with events := b.events.tail ++ [e], readIndex := b.readIndex - 1 }
  else { b with events := b.events ++ [e] }

/-- `event_buffer_next`. -/
def next (b : Buffer) : Option Event × Buffer :=
  match b.events[b.readIndex]? with
  | none => (none, b)
  | some e => (some e, { b with readIndex := b.readIndex + 1 })

/-- The events that are still to be read. -/
def unread (b : Buffer) : List Event := b.events.drop b.readIndex

end Buffer

/-! ## Subscriptions -/

/-- `subscription_t` of the event system. -/
structure Entry where
  buffer : Nat
  active : Bool
  resourceType : CString
  ns : CString
  deriving DecidableEq

/-- `{0}`. -/
def Entry.zero : Entry := ⟨0, false, [], []⟩

/-- The slot of a new subscription. Both texts are `char[64]`, and without a namespace the old one stays. -/
def Entry.register (slot : Entry) (buffer : Nat) (resourceType : CString) (ns : Option CString) : Entry :=
  ⟨buffer, true, resourceType.take 63, (ns.map (List.take 63)).getD slot.ns⟩

/-- Does the event go to the subscription? -/
def Entry.accepts (s : Entry) (e : Event) : Option Bool :=
  if s.active && s.resourceType == e.resourceType then
    if s.ns = [] then some true
    else e.ns.map fun ns => decide (s.ns = ns)
  else some false

/-- A pointer to a selector. -/
inductive Selector where
  | null
  | text (s : CString)
  | freed
  deriving DecidableEq

namespace Selector

/-- `watch_create` writes a selector that it is given; otherwise the slot keeps what it has. -/
def assign (old : Selector) : Option CString → Selector
  | none => old
  | some s => .text s

/-- `free`. A second time is undefined. -/
def free : Selector → Option Selector
  | .null => some .null
  | .text _ => some .freed
  | .freed => none

end Selector

/-- `watch_subscription_t`. -/
structure Watch where
  id : Nat
  resourceType : CString
  ns : CString
  labelSelector : Selector
  fieldSelector : Selector
  buffer : Nat
  active : Bool
  startResourceVersion : Nat
  deriving DecidableEq

/-- `{0}`. -/
def Watch.zero : Watch := ⟨0, [], [], .null, .null, 0, false, 0⟩

structure World where
  watches : List Watch
  entries : List Entry
  buffers : Nat → Option Buffer
  nextSubscriptionId : Nat

/-- What a watch is created with. -/
structure Request where
  resourceType : CString
  ns : Option CString
  labelSelector : Option CString
  fieldSelector : Option CString
  fromVersion : Nat
  deriving DecidableEq

/-- The slot of a new watch. -/
def Watch.start (slot : Watch) (id buffer : Nat) (q : Request) : Watch :=
  { id := id
    resourceType := q.resourceType
    ns := q.ns.getD []
    labelSelector := slot.labelSelector.assign q.labelSelector
    fieldSelector := slot.fieldSelector.assign q.fieldSelector
    buffer := buffer
    active := true
    startResourceVersion := q.fromVersion }

namespace World

/-- After `watch_manager_init`. -/
def init : World := ⟨List.replicate 1000 .zero, List.replicate 1000 .zero, fun _ => none, 1⟩

/-- `event_register_subscription`. -/
def eventRegisterSubscription (entries : List Entry) (buffer : Nat) (resourceType : CString) (ns : Option CString) :
    List Entry :=
  match entries.splitFirst fun s => !s.active with
  | none => entries
  | some (pre, slot, post) => pre ++ slot.register buffer resourceType ns :: post

/-- `watch_create` with a resource type; `buffer` is the address of the new buffer. -/
def watchCreate (w : World) (buffer : Nat) (q : Request) : World × Int :=
  match w.watches.splitFirst fun x => !x.active with
  | none => (w, -1)
  | some (pre, slot, post) =>
    ({ watches := pre ++ slot.start w.nextSubscriptionId buffer q :: post
       entries := eventRegisterSubscription w.entries buffer q.resourceType q.ns
       buffers := Function.update w.buffers buffer (some (Buffer.new 1000))
       nextSubscriptionId := w.nextSubscriptionId + 1 }, w.nextSubscriptionId)

/-- The search for an open subscription. -/
def findWatch (w : World) (id : Nat) : Option (List Watch × Watch × List Watch) :=
  w.watches.splitFirst fun x => x.active && x.id == id

/-- `watch_close`. -/
def watchClose (w : World) (id : Nat) : Option World :=
  match w.findWatch id with
  | none => some w
  | some (pre, slot, post) =>
    match slot.labelSelector.free, slot.fieldSelector.free with
    | some label, some field =>
      some { w with
        watches := pre ++ { slot with labelSelector := label, fieldSelector := field, active := false } :: post
        buffers := Function.update w.buffers slot.buffer none }
    | _, _ => none

section Codec

variable (codec : Codec)

/-- The loop of `event_dispatch`. -/
def dispatchLoop (e : Event) : List Entry → (Nat → Option Buffer) → Option (Nat → Option Buffer)
  | [], buffers => some buffers
  | s :: rest, buffers =>
    match s.accepts e with
    | none => none
    | some false => dispatchLoop e rest buffers
    | some true =>
      match buffers s.buffer with
      | none => none
      | some b => dispatchLoop e rest (Function.update buffers s.buffer (some (b.add (e.copy codec))))

/-- `event_dispatch`. -/
def eventDispatch (w : World) (e : Event) : Option World :=
  (dispatchLoop codec e w.entries w.buffers).map fun buffers => { w with buffers := buffers }

/-- `watch_notify_change`; a NULL object is refused. -/
def watchNotifyChange (w : World) (type : EventType) (resourceType : CString) (ns name : Option CString) :
    Json → Option World
  | .null => some w
  | object => w.eventDispatch codec (eventNew codec type resourceType ns name object)

/-- The tests of `watch_next_ndjson`. -/
def passes (label field : Selector) (object : Json) : Option Bool :=
  let labelled :=
    match label with
    | .null => some true
    | .text s => watchMatchLabelSelector codec.render object (some s)
    | .freed => none
  match labelled with
  | some true =>
    match field with
    | .null => some true
    | .text s => some (watchMatchFieldSelector codec.render object (some s))
    | .freed => none
  | result => result

/-- The event that `watch_next_ndjson` takes from the buffer and does not skip. -/
def watchNext (w : World) (id : Nat) : Option (World × Option Event) :=
  match w.findWatch id with
  | none => some (w, none)
  | some (_, slot, _) =>
    match w.buffers slot.buffer with
    | none => none
    | some b =>
      let w' := { w with buffers := Function.update w.buffers slot.buffer (some b.next.2) }
      match b.next.1 with
      | none => some (w', none)
      | some e => (passes codec slot.labelSelector slot.fieldSelector e.object).map fun pass =>
          (w', if pass then some e else none)

/-- `watch_next_ndjson`. -/
def watchNextNdjson (w : World) (id : Nat) : Option (World × Option CString) :=
  (w.watchNext codec id).map fun r => (r.1, r.2.map (eventToNdjson codec))

end Codec

end World

end Sirah.WatchStream
