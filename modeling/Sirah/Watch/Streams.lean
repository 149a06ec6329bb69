import Mathlib.Data.List.Induction
import Sirah.Watch.Delivery

/-!
# The watch endpoints

Model of `internal/apiserver/endpoints/watch_handler.c` over the watch manager: `endpoint_watch_pods` and
`endpoint_watch_pod` subscribe, write a bookmark, and then write a line of JSON for each event that `watch_manager_get_event`
returns, and a bookmark whenever it times out.

* A connection is named by the id of its subscription. It has the line that its client has received, and `nextSequence` of
  the call of `get_event` it is in.
* `look` is one search of `get_event`'s loop, which holds the ring's lock for one number only: events are published between
  two looks. `expired` says what the test of the time finds, `written` whether `http_response_write` succeeds. An event that
  the filters refuse moves the search on; but a search that times out starts again behind the last event that was
  given.
* `plain` is `json_object_to_json_string_ext` with `JSON_C_TO_STRING_PLAIN`, which writes no newline.

A run is any order of publications, new connections and looks. **`streams_exact`**, for each connection in each state:
* its filters are those that the selectors of the request that made it ask for;
* the received text is a sequence of whole lines, one for each document that was written;
* the events among them are the first ones that pass the filters, in the order of their publication, each once: all of them
  up to where the search is;
* a client that reads on is given all the others **iff** at most `n` events were published from there on or none of these
  passes;
* if more than `n` were, or the connection ended, it is never given any other event, whatever happens.
So what the filters refuse costs a client its stream as soon as `n` refused events lie between two that pass and the search
times out, and a client that connects after more than `n` publications only ever receives bookmarks.
-/

namespace Sirah.WatchStreams

open Runs Watch

variable {n : Nat} [NeZero n]

/-! ## Lines -/

/-- The `type` of a line. -/
def typeStr : EventType → CString
  | .added => "ADDED"
  | .modified => "MODIFIED"
  | .deleted => "DELETED"
  | .bookmark => "BOOKMARK"
  | .error => "ERROR"

/-- The document of `watch_event_to_ndjson`. -/
def document (e : Event) : Json :=
  .obj (("type", .str (typeStr e.type)) :: match e.object, e.type, e.errorMessage with
    | .null, .error, some message => [("object", .obj [("message", .str message)])]
    | .null, _, _ => []
    | object, _, _ => [("object", object)])

/-- `watch_event_create_bookmark`. -/
def createBookmark (resourceVersion now : Int) : Event := ⟨.bookmark, .null, resourceVersion, 0, now, none⟩

section Render

variable (plain : Json → CString)

/-- `watch_event_to_ndjson`. -/
def toNdjson (e : Event) : CString := plain (document e) ++ [10]

/-- A line: for an event of the ring, or for a bookmark that the endpoint made. -/
inductive Line where
  | event (e : Event)
  | bookmark (e : Event)

/-- What the line shows. -/
def Line.shows : Line → Event
  | .event e => e
  | .bookmark e => e

/-- The event of the ring that the line gives. -/
def Line.given : Line → Option Event
  | .event e => some e
  | .bookmark _ => none

/-! ## Connections -/

/-- A connection. `filters` is what its request asked for. -/
structure Conn where
  filters : List Filter
  nextSequence : Int
  received : CString
  lines : List Line
  closed : Bool

namespace Conn

/-- A connection whose subscription was just made. -/
def new (filters : List Filter) : Conn := ⟨filters, 0, [], [], false⟩

/-- `http_response_write`: it succeeds, or the client has gone. -/
def write (c : Conn) (l : Line) (written : Bool) : Conn :=
  if written then { c with received := c.received ++ toNdjson plain l.shows, lines := c.lines ++ [l] } else c

/-- The events that were given. -/
def given (c : Conn) : List Event := c.lines.filterMap Line.given

end Conn

/-- The watch manager and its connections, by the ids of their subscriptions. -/
structure System (n : Nat) [NeZero n] where
  world : World n
  conns : Nat → Option Conn

/-- After `watch_handler_init` with a new manager. -/
def System.init (n : Nat) [NeZero n] : System n := ⟨.create n, fun _ => none⟩

/-! ## Requests -/

/-- `http_request_t`. -/
structure Request where
  query : String → Option CString
  path : String → Option CString

/-- `http_response_error`. -/
structure HttpError where
  code : Nat
  reason : String
  message : String
  deriving DecidableEq, Repr

/-- The version a watch is asked to start from, as `strtoll` reads it. -/
def Request.resourceVersion (r : Request) : Int :=
  match r.query "resourceVersion" with
  | none => 0
  | some text => Json.clampInt64 (CString.atoi text)

/-- The filters of a selector, which `strtok_r` takes apart at its commas. -/
def selectorFilters (type : FilterType) : Option CString → List Filter
  | none => []
  | some selector => ((CString.splitOn 44 selector).filter (· ≠ [])).filterMap fun part =>
      (CString.strchr 61 part).map fun (key, value) => ⟨type, key, value⟩

/-- The filters of `endpoint_watch_pods`. -/
def podsFilters (r : Request) : Except HttpError (List Filter) :=
  .ok (selectorFilters .label (r.query "labelSelector") ++ selectorFilters .field (r.query "fieldSelector"))

/-- The filters of `endpoint_watch_pod`. -/
def podFilters (r : Request) : Except HttpError (List Filter) :=
  match r.path "name", r.path "namespace" with
  | some name, some «namespace» =>
    .ok [⟨.field, "metadata.name", name⟩, ⟨.field, "metadata.namespace", «namespace»⟩]
  | _, _ => .error ⟨400, "Bad Request", "Missing pod name or namespace"⟩

/-- `watch_subscription_add_filter`, for each filter. -/
def addFilters (render : Json → CString) (id : Nat) (filters : List Filter) (w : World n) : World n :=
  filters.foldl (fun w f => w.step render (.addFilter id f.type (some f.key) (some f.value))) w

namespace System

variable (render : Json → CString)

/-- A subscription with its filters, and the first bookmark, whose write is not checked. -/
def connect (s : System n) (filters : List Filter) (resourceVersion now : Int) (written : Bool) : System n :=
  let id := s.world.manager.nextSubscriptionId
  { world := addFilters render id filters (s.world.step render (.subscribe resourceVersion))
    conns := Function.update s.conns id
      (some ((Conn.new filters).write plain (.bookmark (createBookmark resourceVersion now)) written)) }

/-- Both endpoints up to their loop; `none` is a manager that was not set. -/
def watchEndpoint (filters : Request → Except HttpError (List Filter)) (s : Option (System n)) (r : Request)
    (now : Int) (written : Bool) : Except HttpError (System n) :=
  match s with
  | none => .error ⟨503, "Service Unavailable", "Watch service not initialized"⟩
  | some s =>
    if r.query "watch" = some "true" then
      (filters r).map fun fs => s.connect plain render fs r.resourceVersion now written
    else .error ⟨400, "Bad Request", "watch=true parameter is required"⟩

/-- `endpoint_watch_pods`, up to its loop. -/
def endpointWatchPods : Option (System n) → Request → Int → Bool → Except HttpError (System n) :=
  watchEndpoint plain render podsFilters

/-- `endpoint_watch_pod`, up to its loop. -/
def endpointWatchPod : Option (System n) → Request → Int → Bool → Except HttpError (System n) :=
  watchEndpoint plain render podFilters

/-! ## The loop -/

/-- A line of the loop: when its write fails the loop ends, and the subscription with it. -/
def answer (s : System n) (id : Nat) (c : Conn) (l : Line) (written : Bool) : System n :=
  if written then { s with conns := Function.update s.conns id (some (c.write plain l true)) }
  else { world := { s.world with manager := s.world.manager.unsubscribe id }
         conns := Function.update s.conns id (some { c with closed := true }) }

/-- One search of `watch_manager_get_event` in the loop of an endpoint, and what the endpoint writes if it returns. -/
def look (s : System n) (id : Nat) (expired written : Bool) (currentRv now : Int) : System n :=
  match s.conns id, s.world.manager.subscriptions id with
  | some c, some sub =>
    if c.closed then s
    else
      match s.world.manager.getBySequence c.nextSequence with
      | some e =>
        if passes render sub.filters e then
          { s with world := s.world.deliver id sub e }.answer plain id
            { c with nextSequence := e.sequenceNumber + 1 } (.event e) written
        else { s with conns := Function.update s.conns id (some { c with nextSequence := c.nextSequence + 1 }) }
      | none =>
        if expired then
          s.answer plain id { c with nextSequence := sub.lastDeliveredEvent + 1 }
            (.bookmark (createBookmark currentRv now)) written
        else s
  | _, _ => s

end System

/-- What happens: the `watch_notify_pod_…` publish, as do `watch_send_bookmarks` and `watch_manager_publish_error`; a
request comes in; the loop of a connection looks once. `currentRv` is what `watch_manager_get_stats` read before. -/
inductive Act where
  | notifyPod (type : EventType) (object : Json) (resourceVersion now : Int)
  | sendBookmarks (currentRv now : Int)
  | publishError (message : Option CString) (now : Int)
  | setEnabled (enabled : Bool)
  | watchPods (r : Request) (now : Int) (written : Bool)
  | watchPod (r : Request) (now : Int) (written : Bool)
  | look (id : Nat) (expired written : Bool) (currentRv now : Int)

variable (render : Json → CString)

/-- One step. -/
def System.step (s : System n) : Act → System n
  | .notifyPod type object resourceVersion now =>
    { s with world := s.world.step render (.publishEvent type object resourceVersion now) }
  | .sendBookmarks currentRv now => { s with world := s.world.step render (.publishBookmark currentRv now) }
  | .publishError message now => { s with world := s.world.step render (.publishError message now) }
  | .setEnabled enabled => { s with world := s.world.step render (.setEnabled enabled) }
  | .watchPods r now written => ((endpointWatchPods plain render (some s) r now written).toOption).getD s
  | .watchPod r now written => ((endpointWatchPod plain render (some s) r now written).toOption).getD s
  | .look id expired written currentRv now => s.look plain render id expired written currentRv now

end Render

variable {plain render : Json → CString} {s : System n} {id : Nat} {c : Conn}

/-! ## What a look can do -/

/-- What a look can do. -/
inductive Looked (plain render : Json → CString) (s : System n) (id : Nat) : System n → Prop
  | idle : Looked plain render s id s
  | gives (c : Conn) (sub : Subscription) (e : Event) (written : Bool) (hc : s.conns id = some c)
      (hopen : c.closed = false) (hsub : s.world.manager.subscriptions id = some sub)
      (he : s.world.manager.getBySequence c.nextSequence = some e) (hpass : passes render sub.filters e = true) :
    Looked plain render s id (({ s with world := s.world.deliver id sub e } : System n).answer plain id
      { c with nextSequence := e.sequenceNumber + 1 } (.event e) written)
  | refuses (c : Conn) (sub : Subscription) (e : Event) (hc : s.conns id = some c) (hopen : c.closed = false)
      (hsub : s.world.manager.subscriptions id = some sub)
      (he : s.world.manager.getBySequence c.nextSequence = some e) (hpass : passes render sub.filters e = false) :
    Looked plain render s id
      { s with conns := Function.update s.conns id (some { c with nextSequence := c.nextSequence + 1 }) }
  | expires (c : Conn) (sub : Subscription) (currentRv now : Int) (written : Bool) (hc : s.conns id = some c)
      (hopen : c.closed = false) (hsub : s.world.manager.subscriptions id = some sub) :
    Looked plain render s id (s.answer plain id { c with nextSequence := sub.lastDeliveredEvent + 1 }
      (.bookmark (createBookmark currentRv now)) written)

theorem looked_look (plain render : Json → CString) (s : System n) (id : Nat) (expired written : Bool)
    (currentRv now : Int) : Looked plain render s id (s.look plain render id expired written currentRv now) := by
  unfold System.look
  split
  · rename_i c sub hc hsub
    by_cases hclosed : c.closed = true
    · rw [if_pos hclosed]
      exact .idle
    · rw [if_neg hclosed]
      have hopen : c.closed = false := by simpa using hclosed
      split
      · rename_i e he
        by_cases hpass : passes render sub.filters e = true
        · rw [if_pos hpass]
          exact .gives c sub e written hc hopen hsub he hpass
        · rw [if_neg hpass]
          exact .refuses c sub e hc hopen hsub he (by simpa using hpass)
      · split
        · exact .expires c sub currentRv now written hc hopen hsub
        · exact .idle
  · exact .idle

/-! ## What it leaves alone -/

/-- The connection `id` and its subscription stay as they are, and the history at most grows. -/
structure Beside (s s' : System n) (id : Nat) : Prop where
  conns : s'.conns id = s.conns id
  subscriptions : s'.world.manager.subscriptions id = s.world.manager.subscriptions id
  published : ∃ more, s'.world.published = s.world.published ++ more

theorem Beside.refl (s : System n) (id : Nat) : Beside s s id := ⟨rfl, rfl, [], (List.append_nil _).symm⟩

/-- A line changes nothing but its connection, whose subscription it may end. -/
theorem answer_published (s : System n) (id : Nat) (c : Conn) (l : Line) (written : Bool) :
    (s.answer plain id c l written).world.published = s.world.published := by
  cases written <;> rfl

theorem answer_ids (s : System n) (id : Nat) (c : Conn) (l : Line) (written : Bool) :
    (s.answer plain id c l written).world.manager.nextSubscriptionId = s.world.manager.nextSubscriptionId := by
  cases written <;> rfl

theorem answer_conns (s : System n) (id : Nat) (c : Conn) (l : Line) (written : Bool) :
    (s.answer plain id c l written).conns = Function.update s.conns id
      (some (if written then c.write plain l true else { c with closed := true })) := by
  cases written <;> rfl

theorem answer_beside (plain : Json → CString) (s : System n) {id id' : Nat} (c : Conn) (l : Line) (written : Bool)
    (hid : id' ≠ id) : Beside s (s.answer plain id c l written) id' := by
  refine ⟨?_, ?_, [], ?_⟩
  · rw [answer_conns, Function.update_of_ne hid]
  · cases written with
    | true => rfl
    | false => exact Function.update_of_ne hid ..
  · rw [answer_published, List.append_nil]

theorem good_answer (h : Good s.world) (id : Nat) (c : Conn) (l : Line) (written : Bool) :
    Good (s.answer plain id c l written).world := by
  cases written with
  | true => exact h
  | false =>
    refine h.setSubscription le_rfl ?_ _
    rintro sub ⟨⟩

/-- A delivery of a published event. -/
theorem good_deliver (h : Good s.world) {sub : Subscription} (hsub : s.world.manager.subscriptions id = some sub)
    {i : Nat} {e : Event} (he : s.world.published[i]? = some e) : Good (s.world.deliver id sub e) := by
  refine h.setSubscription le_rfl ?_ _
  rintro sub' ⟨⟩
  have hi := (List.getElem?_eq_some_iff.mp he).1
  have hseq := h.numbered i e he
  refine ⟨?_, h.ids id sub hsub⟩
  show -1 ≤ e.sequenceNumber ∧ e.sequenceNumber < _
  omega

/-- What the search finds is an event of the history. -/
theorem published_of_getBySequence (h : Good s.world) {i : Nat} {e : Event}
    (he : s.world.manager.getBySequence i = some e) :
    s.world.published.length ≤ i + n ∧ s.world.published[i]? = some e := by
  rw [h.getBySequence] at he
  split at he
  · next hlo => exact ⟨by omega, he⟩
  · cases he

/-! ## A new subscription -/

/-- One filter after the other. -/
theorem addFilters_eq (filters : List Filter) : ∀ {w : World n} {sub : Subscription},
    w.manager.subscriptions id = some sub → addFilters render id filters w =
      { w with manager := w.manager.setSubscription id (some { sub with filters := sub.filters ++ filters }) } := by
  induction filters with
  | nil =>
    intro w sub hsub
    rw [List.append_nil, Manager.setSubscription, ← hsub, Function.update_eq_self]
    rfl
  | cons f fs ih =>
    intro w sub hsub
    have hone : w.step render (.addFilter id f.type (some f.key) (some f.value)) =
        { w with manager := w.manager.setSubscription id (some { sub with filters := sub.filters ++ [f] }) } := by
      simp only [World.step, Manager.addFilter, hsub]
    rw [addFilters, List.foldl_cons, hone]
    refine (ih (Function.update_self ..)).trans ?_
    rw [Manager.setSubscription, Manager.setSubscription, Function.update_idem, List.append_assoc, List.singleton_append]
    rfl

/-- The world of a new connection. -/
theorem connect_world (s : System n) (filters : List Filter) (resourceVersion now : Int) (written : Bool) :
    (s.connect plain render filters resourceVersion now written).world =
      { s.world with
        manager := { s.world.manager.setSubscription s.world.manager.nextSubscriptionId
            (some ⟨resourceVersion, filters, -1⟩) with
          nextSubscriptionId := s.world.manager.nextSubscriptionId + 1 }
        delivered := Function.update s.world.delivered s.world.manager.nextSubscriptionId [] } := by
  rw [System.connect]
  dsimp only
  rw [addFilters_eq filters (Function.update_self ..)]
  simp only [World.step, Manager.subscribe, Manager.setSubscription, Function.update_idem, List.nil_append]

theorem connect_subscription (s : System n) (filters : List Filter) (resourceVersion now : Int) (written : Bool) :
    (s.connect plain render filters resourceVersion now written).world.manager.subscriptions
      s.world.manager.nextSubscriptionId = some ⟨resourceVersion, filters, -1⟩ := by
  rw [connect_world]
  exact Function.update_self ..

theorem good_connect (h : Good s.world) (filters : List Filter) (resourceVersion now : Int) (written : Bool) :
    Good (s.connect plain render filters resourceVersion now written).world := by
  rw [connect_world]
  refine h.setSubscription (Nat.le_succ _) ?_ _
  rintro sub ⟨⟩
  exact ⟨⟨le_rfl, by show (-1 : Int) < _; omega⟩, Nat.lt_succ_self _⟩

theorem connect_beside (filters : List Filter) (resourceVersion now : Int) (written : Bool)
    (hid : id < s.world.manager.nextSubscriptionId) :
    Beside s (s.connect plain render filters resourceVersion now written) id := by
  refine ⟨Function.update_of_ne hid.ne .., ?_, [], ?_⟩
  · rw [connect_world]
    exact Function.update_of_ne hid.ne ..
  · rw [connect_world, List.append_nil]

/-! ## What a connection has been given -/

/-- **What a connection is**, of a history `es` and its subscription `o`: its text is its lines, and the events among these are
those of a first part of the history that pass; while it is open, this is what comes before `nextSequence` and what comes
up to the last delivery. -/
structure Follows (plain render : Json → CString) (es : List Event) (o : Option Subscription) (c : Conn) : Prop where
  framed : c.received = (c.lines.map fun l => toNdjson plain l.shows).flatten
  given : ∃ k ≤ es.length, c.given = (es.take k).filter (passes render c.filters)
  place : c.closed = false → ∃ (sub : Subscription) (i j : Nat), o = some sub ∧ sub.filters = c.filters ∧
    c.nextSequence = i ∧ sub.lastDeliveredEvent + 1 = j ∧ j ≤ i ∧ i ≤ es.length ∧
    c.given = (es.take i).filter (passes render c.filters) ∧ c.given = (es.take j).filter (passes render c.filters)

/-- The history grows. -/
theorem Follows.append {es : List Event} {o : Option Subscription} (h : Follows plain render es o c) (more : List Event) :
    Follows plain render (es ++ more) o c where
  framed := h.framed
  given := by
    obtain ⟨k, hk, hgiven⟩ := h.given
    refine ⟨k, ?_, ?_⟩
    · rw [List.length_append]
      omega
    · rw [List.take_append_of_le_length hk, hgiven]
  place hopen := by
    obtain ⟨sub, i, j, ho, hfilters, hi, hj, hji, hle, hgi, hgj⟩ := h.place hopen
    refine ⟨sub, i, j, ho, hfilters, hi, hj, hji, ?_, ?_, ?_⟩
    · rw [List.length_append]
      omega
    · rw [List.take_append_of_le_length hle, hgi]
    · rw [List.take_append_of_le_length (by omega), hgj]

/-- A connection that was just made. -/
theorem follows_new (es : List Event) (filters : List Filter) (resourceVersion : Int) (e : Event) (written : Bool) :
    Follows plain render es (some ⟨resourceVersion, filters, -1⟩)
      ((Conn.new filters).write plain (.bookmark e) written) := by
  have hgiven : ((Conn.new filters).write plain (.bookmark e) written).given = [] := by
    cases written <;> rfl
  have hfilters : ((Conn.new filters).write plain (.bookmark e) written).filters = filters := by
    cases written <;> rfl
  have hnext : ((Conn.new filters).write plain (.bookmark e) written).nextSequence = 0 := by
    cases written <;> rfl
  refine ⟨?_, ⟨0, Nat.zero_le _, ?_⟩, fun _ => ⟨_, 0, 0, rfl, hfilters.symm, hnext, rfl, le_rfl, Nat.zero_le _, ?_, ?_⟩⟩
  · cases written with
    | true => exact (List.append_nil _).symm
    | false => rfl
  · exact hgiven
  · exact hgiven
  · exact hgiven

/-- A line of an event that was given. -/
theorem write_true (c : Conn) (l : Line) : c.write plain l true =
    { c with received := c.received ++ toNdjson plain l.shows, lines := c.lines ++ [l] } := rfl

theorem given_concat (plain : Json → CString) (c : Conn) (l : Line) :
    (c.write plain l true).given = c.given ++ l.given.toList := by
  rw [Conn.given, write_true, List.filterMap_append]
  cases l <;> rfl

theorem framed_concat (h : c.received = (c.lines.map fun l => toNdjson plain l.shows).flatten) (l : Line) :
    (c.write plain l true).received = ((c.write plain l true).lines.map fun l => toNdjson plain l.shows).flatten := by
  rw [write_true, List.map_append, List.flatten_append, ← h, List.map_singleton, List.flatten_singleton]

/-- An event that is refused is passed over. -/
theorem take_filter_skip {p : Event → Bool} {es : List Event} {i : Nat} {e : Event} (he : es[i]? = some e)
    (hp : p e = false) : (es.take (i + 1)).filter p = (es.take i).filter p := by
  rw [List.take_add_one, he, List.filter_append, Option.toList_some, List.filter_cons_of_neg (by simpa using hp),
    List.filter_nil, List.append_nil]

/-- **A look** at what is there gives its event, passes it over, or starts again. -/
theorem follows_looked (hgood : Good s.world) (hc : s.conns id = some c)
    (h : Follows plain render s.world.published (s.world.manager.subscriptions id) c) {s' : System n}
    (hlook : Looked plain render s id s') : ∃ c', s'.conns id = some c' ∧
      Follows plain render s'.world.published (s'.world.manager.subscriptions id) c' := by
  cases hlook with
  | idle => exact ⟨c, hc, h⟩
  | gives c₁ sub e written hc₁ hopen hsub he hpass =>
    obtain rfl : c = c₁ := Option.some.inj (hc.symm.trans hc₁)
    obtain ⟨sub', i, j, ho, hfilters, hi, hj, hji, hle, hgi, hgj⟩ := h.place hopen
    obtain rfl : sub = sub' := Option.some.inj (hsub.symm.trans ho)
    rw [hi] at he
    obtain ⟨-, hget⟩ := published_of_getBySequence hgood he
    have hlt := (List.getElem?_eq_some_iff.mp hget).1
    have hseq := hgood.numbered i e hget
    have hconcat : (s.world.published.take (i + 1)).filter (passes render c.filters) = c.given ++ [e] := by
      rw [hgi]
      exact take_filter_concat le_rfl hget (hfilters ▸ hpass) fun j hij hji => absurd hji (by omega)
    rw [answer_conns, answer_published]
    refine ⟨_, Function.update_self .., ?_⟩
    cases written with
    | true =>
      rw [if_pos rfl]
      refine ⟨framed_concat h.framed _, ⟨i + 1, hlt, ?_⟩, fun _ => ⟨_, i + 1, i + 1, Function.update_self .., hfilters,
        ?_, ?_, le_rfl, hlt, ?_, ?_⟩⟩
      · exact (given_concat plain _ _).trans hconcat.symm
      · show e.sequenceNumber + 1 = _
        omega
      · show e.sequenceNumber + 1 = _
        omega
      · exact (given_concat plain _ _).trans hconcat.symm
      · exact (given_concat plain _ _).trans hconcat.symm
    | false => exact ⟨h.framed, h.given, nofun⟩
  | refuses c₁ sub e hc₁ hopen hsub he hpass =>
    obtain rfl : c = c₁ := Option.some.inj (hc.symm.trans hc₁)
    obtain ⟨sub', i, j, ho, hfilters, hi, hj, hji, hle, hgi, hgj⟩ := h.place hopen
    obtain rfl : sub = sub' := Option.some.inj (hsub.symm.trans ho)
    rw [hi] at he
    obtain ⟨-, hget⟩ := published_of_getBySequence hgood he
    have hlt := (List.getElem?_eq_some_iff.mp hget).1
    refine ⟨_, Function.update_self .., h.framed, h.given, fun _ => ⟨sub, i + 1, j, hsub, hfilters, ?_, hj, by omega, hlt,
      ?_, hgj⟩⟩
    · show c.nextSequence + 1 = _
      omega
    · exact hgi.trans (take_filter_skip hget (hfilters ▸ hpass)).symm
  | expires c₁ sub currentRv now written hc₁ hopen hsub =>
    obtain rfl : c = c₁ := Option.some.inj (hc.symm.trans hc₁)
    obtain ⟨sub', i, j, ho, hfilters, hi, hj, hji, hle, hgi, hgj⟩ := h.place hopen
    obtain rfl : sub = sub' := Option.some.inj (hsub.symm.trans ho)
    rw [answer_conns, answer_published]
    refine ⟨_, Function.update_self .., ?_⟩
    cases written with
    | true =>
      rw [if_pos rfl]
      have hgiven := (given_concat plain { c with nextSequence := sub.lastDeliveredEvent + 1 }
        (.bookmark (createBookmark currentRv now))).trans (List.append_nil _)
      exact ⟨framed_concat h.framed _, ⟨j, by omega, hgiven.trans hgj⟩, fun _ => ⟨sub, j, j, hsub, hfilters, hj, hj, le_rfl,
        by omega, hgiven.trans hgj, hgiven.trans hgj⟩⟩
    | false => exact ⟨h.framed, h.given, nofun⟩

/-! ## Every reachable state -/

/-- **What every reachable state satisfies.** -/
structure Serving (plain render : Json → CString) (s : System n) : Prop where
  good : Good s.world
  ids : ∀ id c, s.conns id = some c → id < s.world.manager.nextSubscriptionId
  follows : ∀ id c, s.conns id = some c →
    Follows plain render s.world.published (s.world.manager.subscriptions id) c

theorem serving_init : Serving plain render (System.init n) := ⟨good_create, nofun, nofun⟩

/-- What a look does to the others. -/
theorem looked_beside {s' : System n} (hlook : Looked plain render s id s') {id' : Nat} (hid : id' ≠ id) :
    Beside s s' id' := by
  cases hlook with
  | idle => exact .refl s id'
  | gives c sub e written =>
    obtain ⟨hconns, hsubs, hpub⟩ := answer_beside plain { s with world := s.world.deliver id sub e }
      { c with nextSequence := e.sequenceNumber + 1 } (.event e) written hid
    exact ⟨hconns, hsubs.trans (Function.update_of_ne hid ..), hpub⟩
  | refuses c => exact ⟨Function.update_of_ne hid .., rfl, [], (List.append_nil _).symm⟩
  | expires c sub currentRv now written => exact answer_beside plain s _ _ written hid

/-- A look makes no connection. -/
theorem looked_isSome {s' : System n} (hlook : Looked plain render s id s') {id' : Nat} {c' : Conn}
    (hc' : s'.conns id' = some c') : (s.conns id').isSome := by
  by_cases hid : id' = id
  · subst hid
    cases hlook with
    | idle => exact Option.isSome_of_eq_some hc'
    | gives c sub e written hc => exact Option.isSome_of_eq_some hc
    | refuses c sub e hc => exact Option.isSome_of_eq_some hc
    | expires c sub currentRv now written hc => exact Option.isSome_of_eq_some hc
  · exact Option.isSome_of_eq_some ((looked_beside hlook hid).conns.symm.trans hc')

theorem looked_published {s' : System n} (hlook : Looked plain render s id s') :
    s'.world.published = s.world.published ∧
      s'.world.manager.nextSubscriptionId = s.world.manager.nextSubscriptionId := by
  cases hlook with
  | idle => exact ⟨rfl, rfl⟩
  | gives c sub e written => exact ⟨answer_published .., answer_ids ..⟩
  | refuses c => exact ⟨rfl, rfl⟩
  | expires c sub currentRv now written => exact ⟨answer_published .., answer_ids ..⟩

theorem good_looked {s' : System n} (h : Serving plain render s) (hlook : Looked plain render s id s') :
    Good s'.world := by
  cases hlook with
  | idle => exact h.good
  | gives c sub e written hc hopen hsub he =>
    obtain ⟨-, i, -, -, -, hi, -⟩ := (h.follows id c hc).place hopen
    rw [hi] at he
    exact good_answer (good_deliver h.good hsub (published_of_getBySequence h.good he).2) ..
  | refuses c => exact h.good
  | expires c sub currentRv now written => exact good_answer h.good ..

/-- What a step can do: publish or nothing, a new connection, or a look. -/
theorem step_cases (plain render : Json → CString) (s : System n) (a : Act) :
    (∃ e, s.step plain render a = { s with world := s.world.pushed e }) ∨
      (∃ b, s.step plain render a = { s with world := { s.world with manager := s.world.manager.setEnabled b } }) ∨
      s.step plain render a = s ∨
      (∃ filters r now written, s.step plain render a = s.connect plain render filters r now written) ∨
      ∃ id expired written currentRv now, a = .look id expired written currentRv now ∧
        Looked plain render s id (s.step plain render a) := by
  have noted : ∀ e : Option Event, s.world.note e (s.world.manager.publish e).2 = s.world ∨
      ∃ e', s.world.note e (s.world.manager.publish e).2 = s.world.pushed e' := by
    intro e
    rw [World.note_publish]
    cases e with
    | none => exact .inl rfl
    | some e => exact .inr ⟨e, rfl⟩
  have pushes : ∀ e : Option Event, s.step plain render a =
      { s with world := s.world.note e (s.world.manager.publish e).2 } →
      (∃ e, s.step plain render a = { s with world := s.world.pushed e }) ∨ s.step plain render a = s := by
    intro e he
    rw [he]
    rcases noted e with h | ⟨e', h⟩
    · exact .inr (by rw [h])
    · exact .inl ⟨e', by rw [h]⟩
  have opens : ∀ filters r now written, s.step plain render a =
      ((System.watchEndpoint plain render filters (some s) r now written).toOption).getD s →
      s.step plain render a = s ∨
        ∃ filters r now written, s.step plain render a = s.connect plain render filters r now written := by
    intro filters r now written he
    rw [he, System.watchEndpoint]
    split
    · cases hfs : filters r with
      | error => exact .inl rfl
      | ok fs => exact .inr ⟨fs, _, now, written, rfl⟩
    · exact .inl rfl
  cases a with
  | notifyPod type object resourceVersion now => exact (pushes _ rfl).elim .inl (.inr ∘ .inr ∘ .inl)
  | sendBookmarks currentRv now => exact (pushes _ rfl).elim .inl (.inr ∘ .inr ∘ .inl)
  | publishError message now => exact (pushes _ rfl).elim .inl (.inr ∘ .inr ∘ .inl)
  | setEnabled b => exact .inr (.inl ⟨b, rfl⟩)
  | watchPods r now written => exact (opens _ r now written rfl).elim (.inr ∘ .inr ∘ .inl) (.inr ∘ .inr ∘ .inr ∘ .inl)
  | watchPod r now written => exact (opens _ r now written rfl).elim (.inr ∘ .inr ∘ .inl) (.inr ∘ .inr ∘ .inr ∘ .inl)
  | look id expired written currentRv now =>
    exact .inr (.inr (.inr (.inr ⟨id, expired, written, currentRv, now, rfl, looked_look ..⟩)))

/-- Whatever is not a look of its own leaves a connection alone. -/
theorem step_beside (h : Serving plain render s) (hc : s.conns id = some c) (a : Act) :
    Beside s (s.step plain render a) id ∨ ∃ expired written currentRv now, a = .look id expired written currentRv now ∧
      Looked plain render s id (s.step plain render a) := by
  rcases step_cases plain render s a with ⟨e, he⟩ | ⟨b, hb⟩ | heq | ⟨filters, r, now, written, hopen⟩ |
    ⟨id', expired, written, currentRv, now, rfl, hlook⟩
  · rw [he]
    exact .inl ⟨rfl, rfl, _, rfl⟩
  · rw [hb]
    exact .inl ⟨rfl, rfl, [], (List.append_nil _).symm⟩
  · rw [heq]
    exact .inl (.refl s id)
  · rw [hopen]
    exact .inl (connect_beside filters r now written (h.ids id c hc))
  · by_cases hid : id = id'
    · subst hid
      exact .inr ⟨expired, written, currentRv, now, rfl, hlook⟩
    · exact .inl (looked_beside hlook hid)

/-- **One step.** -/
theorem Serving.step (h : Serving plain render s) (a : Act) : Serving plain render (s.step plain render a) := by
  have hold : ∀ id c, s.conns id = some c → ∃ c', (s.step plain render a).conns id = some c' ∧
      Follows plain render (s.step plain render a).world.published
        ((s.step plain render a).world.manager.subscriptions id) c' := by
    intro id c hc
    rcases step_beside h hc a with ⟨hconns, hsubs, more, hpub⟩ | ⟨-, -, -, -, -, hlook⟩
    · rw [hconns, hsubs, hpub]
      exact ⟨c, hc, (h.follows id c hc).append more⟩
    · exact follows_looked h.good hc (h.follows id c hc) hlook
  have hkept : ∀ s' : System n, s'.conns = s.conns →
      s'.world.manager.nextSubscriptionId = s.world.manager.nextSubscriptionId →
      ∀ id c, s'.conns id = some c → id < s'.world.manager.nextSubscriptionId := by
    intro s' hconns hids id c hc
    rw [hids]
    exact h.ids id c (hconns ▸ hc)
  have hfollows : ∀ id c, (s.conns id).isSome → (s.step plain render a).conns id = some c →
      Follows plain render (s.step plain render a).world.published
        ((s.step plain render a).world.manager.subscriptions id) c := by
    intro id c hsome hc
    obtain ⟨c₀, hc₀⟩ := Option.isSome_iff_exists.mp hsome
    obtain ⟨c', hc', hf⟩ := hold id c₀ hc₀
    obtain rfl : c = c' := Option.some.inj (hc.symm.trans hc')
    exact hf
  rcases step_cases plain render s a with ⟨e, he⟩ | ⟨b, hb⟩ | heq | ⟨filters, r, now, written, hopen⟩ |
    ⟨id', expired, written, currentRv, now, -, hlook⟩
  · refine ⟨he ▸ h.good.pushed e, he ▸ hkept _ rfl rfl, fun id c hc => hfollows id c ?_ hc⟩
    rw [he] at hc
    exact Option.isSome_of_eq_some hc
  · refine ⟨?_, hb ▸ hkept _ rfl rfl, fun id c hc => hfollows id c ?_ hc⟩
    · rw [hb]
      exact ⟨h.good.ring, h.good.sequence, h.good.numbered, h.good.cursor, h.good.ids⟩
    · rw [hb] at hc
      exact Option.isSome_of_eq_some hc
  · rw [heq]
    exact h
  · rw [hopen] at hfollows ⊢
    have hnext : (s.connect plain render filters r now written).world.manager.nextSubscriptionId =
        s.world.manager.nextSubscriptionId + 1 := by rw [connect_world]
    refine ⟨good_connect h.good .., fun id c hc => ?_, fun id c hc => ?_⟩
    · rw [hnext]
      by_cases hid : id = s.world.manager.nextSubscriptionId
      · omega
      · exact (h.ids id c ((Function.update_of_ne hid ..).symm.trans hc)).trans (Nat.lt_succ_self _)
    · by_cases hid : id = s.world.manager.nextSubscriptionId
      · subst hid
        obtain rfl := Option.some.inj (hc.symm.trans (Function.update_self ..))
        rw [connect_subscription]
        exact follows_new ..
      · exact hfollows id c (Option.isSome_of_eq_some ((Function.update_of_ne hid ..).symm.trans hc)) hc
  · obtain ⟨hpub, hids⟩ := looked_published hlook
    refine ⟨good_looked h hlook, fun id c hc => ?_, fun id c hc => hfollows id c (looked_isSome hlook hc) hc⟩
    obtain ⟨c₀, hc₀⟩ := Option.isSome_iff_exists.mp (looked_isSome hlook hc)
    rw [hids]
    exact h.ids id c₀ hc₀

theorem serving_run (as : List Act) : Serving plain render (run (System.step plain render) (System.init n) as) :=
  (allStates_of_step (fun _ a h => h.step a) serving_init).run_mem

/-! ## Which request made a connection -/

/-- The request `a` is accepted and asks for `filters`. -/
def Act.Asks (a : Act) (filters : List Filter) : Prop :=
  match a with
  | .watchPods r _ _ => r.query "watch" = some "true" ∧ podsFilters r = .ok filters
  | .watchPod r _ _ => r.query "watch" = some "true" ∧ podFilters r = .ok filters
  | _ => False

/-- What a connection asked for stays. -/
theorem step_filters (h : Serving plain render s) (hc : s.conns id = some c) (a : Act) {c' : Conn}
    (hc' : (s.step plain render a).conns id = some c') : c'.filters = c.filters := by
  rcases step_beside h hc a with ⟨hconns, -⟩ | ⟨-, -, -, -, -, hlook⟩
  · rw [hconns, hc] at hc'
    rw [Option.some.inj hc']
  · generalize s.step plain render a = s' at hlook hc'
    cases hlook with
    | idle => rw [Option.some.inj (hc.symm.trans hc')]
    | gives c₁ sub e written hc₁ =>
      obtain rfl : c = c₁ := Option.some.inj (hc.symm.trans hc₁)
      rw [answer_conns, Function.update_self] at hc'
      rw [← Option.some.inj hc']
      cases written <;> rfl
    | refuses c₁ sub e hc₁ =>
      obtain rfl : c = c₁ := Option.some.inj (hc.symm.trans hc₁)
      dsimp only at hc'
      rw [Function.update_self] at hc'
      rw [← Option.some.inj hc']
    | expires c₁ sub currentRv now written hc₁ =>
      obtain rfl : c = c₁ := Option.some.inj (hc.symm.trans hc₁)
      rw [answer_conns, Function.update_self] at hc'
      rw [← Option.some.inj hc']
      cases written <;> rfl

/-- A request that is accepted makes a connection with the filters that it asks for. -/
theorem watchEndpoint_filters {filters : Request → Except HttpError (List Filter)} {r : Request} {now : Int} {written : Bool}
    (hnone : s.conns id = none)
    (hc : (((System.watchEndpoint plain render filters (some s) r now written).toOption).getD s).conns id = some c) :
    r.query "watch" = some "true" ∧ filters r = .ok c.filters := by
  rw [System.watchEndpoint] at hc
  split at hc
  · next hwatch =>
    cases hfs : filters r with
    | error e =>
      rw [hfs] at hc
      exact absurd (hnone.symm.trans hc) nofun
    | ok fs =>
      rw [hfs] at hc
      replace hc : Function.update s.conns s.world.manager.nextSubscriptionId
          (some ((Conn.new fs).write plain (.bookmark (createBookmark r.resourceVersion now)) written)) id = some c := hc
      by_cases hid : id = s.world.manager.nextSubscriptionId
      · rw [hid, Function.update_self] at hc
        rw [← Option.some.inj hc]
        cases written <;> exact ⟨hwatch, rfl⟩
      · rw [Function.update_of_ne hid, hnone] at hc
        cases hc
  · exact absurd (hnone.symm.trans hc) nofun

theorem step_asks (hnone : s.conns id = none) (a : Act) (hc : (s.step plain render a).conns id = some c) :
    a.Asks c.filters := by
  cases a with
  | watchPods r now written => exact watchEndpoint_filters hnone hc
  | watchPod r now written => exact watchEndpoint_filters hnone hc
  | look id' expired written currentRv now =>
    have hsome := looked_isSome (looked_look plain render s id' expired written currentRv now) hc
    rw [hnone] at hsome
    cases hsome
  | _ => exact absurd (hnone.symm.trans hc) nofun

/-- **The request that made a connection**, and what it asked for. -/
theorem conn_asked (as : List Act) : ∀ {c : Conn},
    (run (System.step plain render) (System.init n) as).conns id = some c → ∃ before a after, as = before ++ a :: after ∧
      (run (System.step plain render) (System.init n) before).conns id = none ∧ a.Asks c.filters := by
  induction as using List.reverseRecOn with
  | nil => exact nofun
  | append_singleton as a ih =>
    intro c hc
    rw [run_append, run_cons, run_nil] at hc
    cases hbefore : (run (System.step plain render) (System.init n) as).conns id with
    | none => exact ⟨as, a, [], rfl, hbefore, step_asks hbefore a hc⟩
    | some c₀ =>
      obtain ⟨before, a', after, rfl, hnone, hasks⟩ := ih hbefore
      refine ⟨before, a', after ++ [a], ?_, hnone, ?_⟩
      · rw [List.append_assoc, List.cons_append]
      · rw [step_filters (serving_run _) hbefore a hc]
        exact hasks

/-! ## Reading on -/

/-- An undisturbed look at an event that is there goes one further. -/
theorem look_on (h : Serving plain render s) (hc : s.conns id = some c) (hopen : c.closed = false) {i : Nat}
    (hi : c.nextSequence = i) (hlt : i < s.world.published.length) (hkept : s.world.published.length ≤ i + n)
    (currentRv now : Int) : ∃ c', (s.look plain render id false true currentRv now).conns id = some c' ∧
      c'.closed = false ∧ c'.nextSequence = (i + 1 : Nat) ∧ c'.filters = c.filters := by
  obtain ⟨sub, _, _, hsub, -⟩ := (h.follows id c hc).place hopen
  have hget : s.world.manager.getBySequence c.nextSequence = some s.world.published[i] := by
    rw [hi, h.good.getBySequence, if_pos (by omega), List.getElem?_eq_getElem hlt]
  have hseq := h.good.numbered i _ (List.getElem?_eq_getElem hlt)
  unfold System.look
  rw [hc, hsub]
  simp only [hopen, Bool.false_eq_true, if_false, hget]
  by_cases hpass : passes render sub.filters s.world.published[i] = true
  · rw [if_pos hpass, answer_conns]
    refine ⟨_, Function.update_self .., rfl, ?_, rfl⟩
    show s.world.published[i].sequenceNumber + 1 = _
    omega
  · rw [if_neg hpass]
    refine ⟨_, Function.update_self .., rfl, ?_, rfl⟩
    show c.nextSequence + 1 = _
    omega

/-- An undisturbed look at what is not there changes nothing. -/
theorem look_off (h : Serving plain render s) (hc : s.conns id = some c) (hopen : c.closed = false) {i : Nat}
    (hi : c.nextSequence = i) (hnone : s.world.published.length ≤ i ∨ i + n < s.world.published.length)
    (currentRv now : Int) : s.look plain render id false true currentRv now = s := by
  obtain ⟨sub, _, _, hsub, -⟩ := (h.follows id c hc).place hopen
  have hget : s.world.manager.getBySequence c.nextSequence = none := by
    rw [hi, h.good.getBySequence]
    split
    · exact List.getElem?_eq_none (by omega)
    · rfl
  unfold System.look
  rw [hc, hsub]
  simp [hopen, hget]

/-- **Reading on** from a place that is still held gives everything that passes. -/
theorem reads_on (currentRv now : Int) (k : Nat) : ∀ {s : System n} {c : Conn} {i : Nat}, Serving plain render s →
    s.conns id = some c → c.closed = false → c.nextSequence = i → s.world.published.length ≤ i + n →
    s.world.published.length ≤ i + k →
    ((run (System.step plain render) s (List.replicate k (.look id false true currentRv now))).conns id).map Conn.given =
      some (s.world.published.filter (passes render c.filters)) := by
  induction k with
  | zero =>
    intro s c i h hc hopen hi hkept hk
    obtain ⟨-, i', -, -, -, hi', -, -, -, hgiven, -⟩ := (h.follows id c hc).place hopen
    rw [List.replicate_zero, run_nil, hc, Option.map_some, hgiven, List.take_of_length_le (by omega)]
  | succ k ih =>
    intro s c i h hc hopen hi hkept hk
    rw [List.replicate_succ, run_cons]
    by_cases hlt : i < s.world.published.length
    · obtain ⟨c', hc', hopen', hi', hfilters⟩ := look_on h hc hopen hi hlt hkept currentRv now
      have hpub := (looked_published (looked_look plain render s id false true currentRv now)).1
      have hrec := ih (h.step (.look id false true currentRv now)) hc' hopen' hi'
        (by rw [System.step, hpub]; omega) (by rw [System.step, hpub]; omega)
      rw [hrec, System.step, hpub, hfilters]
    · rw [System.step, look_off h hc hopen hi (.inl (by omega))]
      exact ih h hc hopen hi hkept (by omega)

/-! ## Left behind -/

/-- The loop of the connection has ended, or more than `n` events were published from where its search is. -/
def LeftBehind (s : System n) (c : Conn) : Prop :=
  c.closed = true ∨ c.nextSequence + n < s.world.published.length

/-- **One step** of whoever it is. -/
theorem leftBehind_step (h : Serving plain render s) (hc : s.conns id = some c) (hbehind : LeftBehind s c) (a : Act) :
    ∃ c', (s.step plain render a).conns id = some c' ∧ c'.given = c.given ∧
      LeftBehind (s.step plain render a) c' := by
  rcases step_beside h hc a with ⟨hconns, -, more, hpub⟩ | ⟨-, -, -, -, -, hlook⟩
  · refine ⟨c, hconns.trans hc, rfl, hbehind.imp_right fun hlag => ?_⟩
    rw [hpub, List.length_append]
    omega
  · have hpub := (looked_published hlook).1
    have hlag : c.closed = false → c.nextSequence + n < s.world.published.length := fun hopen =>
      hbehind.resolve_left (by rw [hopen]; exact Bool.false_ne_true)
    -- nothing is there to be found
    have hnone : ∀ e, c.closed = false → s.world.manager.getBySequence c.nextSequence ≠ some e := by
      intro e hopen he
      obtain ⟨-, i, -, -, -, hi, -⟩ := (h.follows id c hc).place hopen
      have hlag := hlag hopen
      rw [hi] at he hlag
      have hkept := (published_of_getBySequence h.good he).1
      omega
    generalize s.step plain render a = s' at hlook hpub
    cases hlook with
    | idle => exact ⟨c, hc, rfl, hbehind⟩
    | gives c₁ sub e written hc₁ hopen hsub he hpass =>
      obtain rfl : c = c₁ := Option.some.inj (hc.symm.trans hc₁)
      exact absurd he (hnone e hopen)
    | refuses c₁ sub e hc₁ hopen hsub he hpass =>
      obtain rfl : c = c₁ := Option.some.inj (hc.symm.trans hc₁)
      exact absurd he (hnone e hopen)
    | expires c₁ sub currentRv now written hc₁ hopen hsub =>
      obtain rfl : c = c₁ := Option.some.inj (hc.symm.trans hc₁)
      rw [answer_conns]
      refine ⟨_, Function.update_self .., ?_⟩
      cases written with
      | true =>
        rw [if_pos rfl]
        refine ⟨(given_concat plain _ _).trans (List.append_nil _), .inr ?_⟩
        -- the search goes back
        obtain ⟨sub', i, j, ho, -, hi, hj, hji, -⟩ := (h.follows id c hc).place hopen
        obtain rfl : sub = sub' := Option.some.inj (hsub.symm.trans ho)
        have hlag := hlag hopen
        rw [hpub]
        show sub.lastDeliveredEvent + 1 + n < _
        omega
      | false => exact ⟨rfl, .inl rfl⟩

theorem leftBehind_run (later : List Act) : ∀ {s : System n} {c : Conn}, Serving plain render s → s.conns id = some c →
    LeftBehind s c → ((run (System.step plain render) s later).conns id).map Conn.given = some c.given := by
  induction later with
  | nil =>
    intro s c h hc hbehind
    rw [run_nil, hc, Option.map_some]
  | cons a later ih =>
    intro s c h hc hbehind
    obtain ⟨c', hc', hgiven, hbehind'⟩ := leftBehind_step h hc hbehind a
    rw [run_cons, ih (h.step a) hc' hbehind', hgiven]

/-! ## What a client receives -/

/-- **Whole lines.** -/
theorem splitOn_lines (hplain : ∀ j, 10 ∉ plain j) (lines : List Line) :
    CString.splitOn 10 (lines.map fun l => toNdjson plain l.shows).flatten =
      lines.map (fun l => plain (document l.shows)) ++ [[]] := by
  induction lines with
  | nil => rfl
  | cons l lines ih =>
    rw [List.map_cons, List.flatten_cons, toNdjson, List.append_assoc, List.singleton_append,
      CString.splitOn_append (hplain _), ih, List.map_cons, List.cons_append]

/-- **What a client receives**, exactly, for the filters that its request asked for: whole lines, whose events are the first
ones that pass; the others if it reads on, iff the next ones are still held or none of them passes; and never any other once
it is left behind. -/
theorem streams_exact (hplain : ∀ j, 10 ∉ plain j) (render : Json → CString) (as : List Act) (id : Nat) (c : Conn)
    (hc : (run (System.step plain render) (System.init n) as).conns id = some c) :
    let s := run (System.step plain render) (System.init n) as
    let wanted := passes render c.filters
    (∃ before a after, as = before ++ a :: after ∧
        (run (System.step plain render) (System.init n) before).conns id = none ∧ a.Asks c.filters) ∧
      CString.splitOn 10 c.received = c.lines.map (fun l => plain (document l.shows)) ++ [[]] ∧
      (∃ k ≤ s.world.published.length, c.given = (s.world.published.take k).filter wanted ∧
        (c.closed = false → c.nextSequence = k)) ∧
      (c.closed = false → ∀ (k : Nat) (currentRv now : Int), s.world.published.length ≤ c.nextSequence + k →
        (((run (System.step plain render) s (List.replicate k (.look id false true currentRv now))).conns id).map
            Conn.given = some (s.world.published.filter wanted) ↔
          s.world.published.length ≤ c.nextSequence + n ∨
            ∀ e ∈ s.world.published.drop c.nextSequence.toNat, wanted e = false)) ∧
      (LeftBehind s c → ∀ later,
        ((run (System.step plain render) s later).conns id).map Conn.given = some c.given) := by
  intro s wanted
  have h : Serving plain render s := serving_run as
  have hf := h.follows id c hc
  refine ⟨conn_asked as hc, ?_, ?_, ?_, fun hbehind later => leftBehind_run later h hc hbehind⟩
  · rw [hf.framed]
    exact splitOn_lines hplain c.lines
  · cases hclosed : c.closed with
    | true =>
      obtain ⟨k, hk, hgiven⟩ := hf.given
      exact ⟨k, hk, hgiven, nofun⟩
    | false =>
      obtain ⟨-, i, -, -, -, hi, -, -, hle, hgiven, -⟩ := hf.place hclosed
      exact ⟨i, hle, hgiven, fun _ => hi⟩
  · intro hopen k currentRv now hk
    obtain ⟨-, i, -, -, -, hi, -, -, hle, hgiven, -⟩ := hf.place hopen
    rw [hi] at hk ⊢
    rw [Int.toNat_natCast]
    by_cases hkept : s.world.published.length ≤ i + n
    · exact iff_of_true (reads_on currentRv now k h hc hopen hi hkept (by omega)) (.inl (by omega))
    · have hsame := leftBehind_run (List.replicate k (.look id false true currentRv now)) h hc
        (.inr (by rw [hi]; omega))
      have hsplit : s.world.published.filter wanted = c.given ++ (s.world.published.drop i).filter wanted := by
        rw [hgiven, ← List.filter_append, List.take_append_drop]
      rw [hsame, hsplit, Option.some_inj, List.self_eq_append_right, List.filter_eq_nil_iff]
      simp only [Bool.not_eq_true]
      exact ⟨.inr, fun hor => hor.resolve_left (by omega)⟩

/-- The text of a bookmark. -/
def bookmarkText : CString := "\x7b\"type\":\"BOOKMARK\"\x7d"

/-- A client of all pods, a bookmark that is published, and a look that gives it. -/
def oneBookmark : List Act :=
  [.watchPods ⟨fun key => if key = "watch" then some "true" else none, fun _ => none⟩ 0 true, .sendBookmarks 0 0,
    .look 1 false true 0 0]

theorem streams_exact_bookmark : ∃ c : Conn,
    (run (System.step (fun _ => bookmarkText) fun _ => []) (System.init 2) oneBookmark).conns 1 = some c ∧
      CString.splitOn 10 c.received = [bookmarkText, bookmarkText, []] := by
  have hplain : ∀ _ : Json, 10 ∉ bookmarkText := fun _ => by decide
  exact ⟨_, rfl, (streams_exact (n := 2) hplain (fun _ => []) oneBookmark 1 _ rfl).2.1⟩

end Sirah.WatchStreams
