import Sirah.ApiServer.Routing

/-!
# The routes of pods, services and deployments

A `Request` for an object has names that `validate_name` accepts; its `path` is
`/api/v1/namespaces/{ns}/pods[/{n}]`, or that of services or deployments, with or without a query string.
`expected` is the endpoint of its kind and verb, with its own namespace and name.

The routing looks for words anywhere in the path, so that names and the query string are read as part of
its structure. **`routed_iff`** says for which requests this does no harm (`RoutedWhen`): no earlier block
takes the request, the pods block does not see a subresource in it, and its own block reads its name and
whether it asks for a watch.
-/

namespace Sirah.Routing

open CString Path

def Kind.collection : Kind → CString
  | pod => ofString "pods"
  | service => ofString "services"
  | deployment => ofString "deployments"

/-- The segments of the kind's API group. -/
def Kind.group : Kind → List CString
  | pod | service => [ofString "api", ofString "v1"]
  | deployment => [ofString "apis", ofString "apps", ofString "v1"]

/-- A request for an object of a namespace, or for the collection of them. -/
structure Request where
  kind : Kind
  method : Method
  ns : CString
  name : Option CString
  query : Option CString
  ns_valid : validateName ns = true
  name_valid : ∀ n ∈ name, validateName n = true

namespace Request

/-- The query string with its question mark. -/
def tail (r : Request) : CString :=
  match r.query with
  | none => []
  | some q => 63 :: q

/-- The path of the request. -/
def path (r : Request) : CString :=
  join 47 (r.kind.group ++ [ofString "namespaces", r.ns, r.kind.collection] ++ r.name.toList) ++ r.tail

/-- The text of the query string. -/
def text (r : Request) : CString := r.query.getD []

/-- What the endpoints get of the query string: their buffer has 512 bytes. -/
def queryString (r : Request) : CString := snprintf 512 r.text

/-- **The request asks for a watch**: `watch=true` is one of the parameters of its query string. -/
def Watches (r : Request) : Prop := ofString "watch=true" ∈ r.text.splitOn 38

instance (r : Request) : Decidable r.Watches := inferInstanceAs (Decidable (_ ∈ _))

/-- **The endpoint of the request's kind and verb.** A `GET` with a name is that of the object, whatever the query
string is; a collection is listed or watched. `PATCH` and `DELETE` have none for a collection. -/
def expected (r : Request) : Option Route :=
  match r.method, r.name with
  | .get, some n => some (.get r.kind r.ns n)
  | .get, none => some (if r.Watches then .watch r.kind r.ns r.queryString else .list r.kind r.ns)
  | .post, _ => some (.create r.kind r.ns)
  | .patch, some n => some (.patch r.kind r.ns n)
  | .delete, some n => some (.delete r.kind r.ns n)
  | _, _ => none

/-- The handler calls the endpoint of the request's kind and verb with the request's own names. -/
def Routed (r : Request) : Prop := ∀ e ∈ r.expected, apiHandleRequest r.method r.path = e

/-! ## Where the routing goes wrong -/

/-- A name begins with the word, or the query string has it behind a slash. -/
def Mentions (r : Request) (word : CString) : Prop :=
  word <+: r.ns ∨ (∃ n ∈ r.name, word <+: n) ∨ 47 :: word <:+: r.text

/-- The path has `/api/v1/`: always, or for a deployment where its query string has it. -/
def Core (r : Request) : Prop := r.kind ≠ .deployment ∨ ofString "/api/v1/" <:+: r.text

/-- The pods block reads the name of a pod in a path of another kind. -/
def PodNamed (r : Request) : Prop :=
  r.ns = ofString "pods" ∨
    (¬ ofString "pods" <+: r.ns ∧ (∀ n ∈ r.name, ¬ ofString "pods" <+: n) ∧ (parsePath r.text).2 ≠ [])

/-- The request looks like one to register a node, or like a node's heartbeat. -/
def NodePosted (r : Request) : Prop :=
  ofString "/nodes/register" <:+: r.text ∨
    ((r.ns = ofString "nodes" ∨ ofString "/nodes/" <:+: r.text) ∧ r.Mentions (ofString "heartbeat"))

/-- The services block reads the name of a service in a path of another kind. -/
def ServiceNamed (r : Request) : Prop :=
  r.ns = ofString "services" ∨ nameAfter (ofString "/services/") r.text ≠ []

/-- The pods block takes a request for another kind. -/
def TakenByPods (r : Request) : Prop :=
  r.kind ≠ .pod ∧ r.Core ∧
    match r.method with
    | .get | .post => r.Mentions (ofString "pods")
    | .patch | .delete => r.PodNamed
    | _ => False

/-- The nodes block takes a request for a service or a deployment. -/
def TakenByNodes (r : Request) : Prop :=
  r.kind ≠ .pod ∧ r.Core ∧
    match r.method with
    | .get => r.Mentions (ofString "nodes")
    | .post => r.NodePosted
    | _ => False

/-- The services block takes a request for a deployment. -/
def TakenByServices (r : Request) : Prop :=
  r.kind = .deployment ∧ r.Core ∧
    match r.method with
    | .get | .post => r.Mentions (ofString "services")
    | .patch | .delete => r.ServiceNamed
    | _ => False

/-- The pods block sees a subresource in a request for a pod. -/
def TakenForSubresource (r : Request) : Prop :=
  r.kind = .pod ∧
    match r.method with
    | .get => r.Mentions (ofString "log")
    | .post => r.Mentions (ofString "bind") ∨ r.Mentions (ofString "exec")
    | _ => False

/-- The endpoint depends on the name. -/
def NameUsed (r : Request) : Prop :=
  match r.method with
  | .get => r.name = none → ¬ r.Watches
  | .patch | .delete => True
  | _ => False

/-- The first 511 bytes of the query string have the text `watch=true` where a collection is to be watched, and
nowhere else. -/
def WatchRead (r : Request) : Prop :=
  ofString "watch=true" <:+: r.queryString ↔ r.name = none ∧ r.Watches

/-- The own block reads the request's name, and no name where there is none. -/
def NameRead (r : Request) : Prop :=
  match r.kind, r.name with
  | .pod, none => r.ns ≠ ofString "pods"
  | .pod, some n =>
    (¬ ofString "pods" <+: r.ns ∧ 47 ∉ r.text) ∨ (r.ns = ofString "pods" ∧ n = ofString "pods")
  | k, none => r.ns ≠ k.collection ∧ nameAfter (47 :: k.collection ++ [47]) r.text = []
  | k, some _ => r.ns ≠ k.collection

/-- **When a request is routed right.** -/
structure RoutedWhen (r : Request) : Prop where
  pods : ¬ r.TakenByPods
  nodes : ¬ r.TakenByNodes
  services : ¬ r.TakenByServices
  subresource : ¬ r.TakenForSubresource
  name : r.NameUsed → r.NameRead
  watch : r.method = .get → r.WatchRead

end Request

/-! ## The words of a path -/

/-- A valid name is a segment, and fits the buffers. -/
theorem validateName_spec {name : CString} (h : validateName name = true) :
    Word 47 63 name ∧ name ≠ [] ∧ name.length < 255 := by
  simp only [validateName, Bool.and_eq_true, List.all_eq_true, decide_eq_true_eq] at h
  obtain ⟨⟨⟨⟨hne, hlen⟩, hall⟩, -⟩, -⟩ := h
  refine ⟨⟨fun hm => absurd (hall 47 hm) (by decide), fun hm => absurd (hall 63 hm) (by decide)⟩, hne, ?_⟩
  omega

theorem Kind.collection_word (k : Kind) : Word 47 63 k.collection := by cases k <;> decide

theorem Kind.collection_ne_nil (k : Kind) : k.collection ≠ [] := by cases k <;> decide

theorem Kind.collection_length (k : Kind) : k.collection.length < 255 := by cases k <;> decide

/-- The segments before the namespace. -/
def Kind.head (kind : Kind) : List CString := kind.group ++ [ofString "namespaces"]

theorem Kind.head_word (kind : Kind) : ∀ s ∈ kind.head, 47 ∉ s := by cases kind <;> decide

/-- A word the handler looks for: it begins no segment before the namespace. -/
def Keyword (k : CString) : Prop :=
  Word 47 63 k ∧ (∀ s ∈ Kind.pod.head, ¬ k <+: s) ∧ ∀ s ∈ Kind.deployment.head, ¬ k <+: s

instance (k : CString) : Decidable (Keyword k) := inferInstanceAs (Decidable (_ ∧ _ ∧ _))

theorem keyword_pods : Keyword (ofString "pods") := by decide

theorem keyword_nodes : Keyword (ofString "nodes") := by decide

theorem keyword_services : Keyword (ofString "services") := by decide

theorem Kind.keyword_collection (kind : Kind) : Keyword kind.collection := by
  cases kind with
  | pod => exact keyword_pods
  | service => exact keyword_services
  | deployment => decide

theorem Kind.not_pods {kind : Kind} (hkind : kind ≠ .pod) : ¬ ofString "pods" <+: kind.collection := by
  cases kind with
  | pod => exact absurd rfl hkind
  | service | deployment => decide

/-- The words of the nodes block begin no collection. -/
theorem Kind.not_nodes (kind : Kind) : ∀ k ∈ [ofString "nodes", ofString "heartbeat", ofString "register"],
    ¬ k <+: kind.collection := by
  cases kind <;> decide

theorem Keyword.head {k : CString} (hk : Keyword k) (kind : Kind) : ∀ s ∈ kind.head, ¬ k <+: s := by
  obtain ⟨-, hcore, happs⟩ := hk
  cases kind with
  | pod | service => exact hcore
  | deployment => exact happs

theorem Keyword.not_mem_head {k : CString} (hk : Keyword k) (kind : Kind) : k ∉ kind.head :=
  fun h => hk.head kind k h List.prefix_rfl

namespace Request

variable (r : Request) {k more : CString}

theorem ns_word : Word 47 63 r.ns := (validateName_spec r.ns_valid).1

/-- What follows the collection. -/
def rest (r : Request) : CString := join 47 r.name.toList ++ r.tail

theorem delimits_tail : Delimits 47 63 r.tail := by
  unfold tail
  split
  · exact delimits_nil
  · exact delimits_stop

theorem not_prefix_tail : ¬ 47 :: more <+: r.tail := by
  unfold tail
  split <;> simp

theorem delimits_rest : Delimits 47 63 r.rest := delimits_join r.delimits_tail _

theorem rest_of_none (h : r.name = none) : r.rest = r.tail := by
  rw [rest, h]
  rfl

theorem rest_of_some {n : CString} (h : r.name = some n) : r.rest = 47 :: (n ++ r.tail) := by
  rw [rest, h, Option.toList_some, join_cons_append]
  rfl

theorem path_eq : r.path = join 47 r.kind.head ++
    47 :: (r.ns ++ 47 :: (r.kind.collection ++ r.rest)) := by
  simp [path, rest, join, Kind.head, List.flatMap_append]

theorem after_tail : after (47 :: k) r.tail = after (47 :: k) r.text := by
  unfold tail text
  cases r.query with
  | none => rfl
  | some q => exact after_append (s := [63]) (by decide)

/-- A search behind the collection. -/
theorem after_rest (hk : Word 47 63 k) : after (47 :: k) r.rest =
    match r.name with
    | some n => if k <+: n then some (n.drop k.length ++ r.tail) else after (47 :: k) r.text
    | none => after (47 :: k) r.text := by
  cases hname : r.name with
  | none => rw [r.rest_of_none hname, r.after_tail]
  | some n =>
    have hn := (validateName_spec (r.name_valid n hname)).1
    rw [r.rest_of_some hname, after_segment hk hn.1 r.delimits_tail, r.after_tail]

theorem after_rest_sep (hk : Word 47 63 k) :
    after (47 :: (k ++ 47 :: more)) r.rest = after (47 :: (k ++ 47 :: more)) r.text := by
  cases hname : r.name with
  | none => rw [r.rest_of_none hname, r.after_tail]
  | some n =>
    have hn := (validateName_spec (r.name_valid n hname)).1
    rw [r.rest_of_some hname, after_segment_sep hk hn.1 r.delimits_tail,
      if_neg fun h => r.not_prefix_tail h.2, r.after_tail]

/-- **A search for a keyword in the path.** -/
theorem after_path (hk : Keyword k) :
    after (47 :: k) r.path =
      if k <+: r.ns then some (r.ns.drop k.length ++ 47 :: (r.kind.collection ++ r.rest))
      else if k <+: r.kind.collection then some (r.kind.collection.drop k.length ++ r.rest)
      else after (47 :: k) r.rest := by
  rw [path_eq, after_segments hk.1 delimits_sep fun s hs => ⟨r.kind.head_word s hs, hk.head r.kind s hs⟩,
    after_segment hk.1 r.ns_word.1 delimits_sep,
    after_segment hk.1 r.kind.collection_word.1 r.delimits_rest]

/-- **A search for a word with a slash behind it**, other than those of the group. -/
theorem after_path_sep (hk : Word 47 63 k) (hhead : k ∉ r.kind.head) :
    after (47 :: (k ++ 47 :: more)) r.path =
      if r.ns = k ∧ more <+: r.kind.collection ++ r.rest then
        some ((r.kind.collection ++ r.rest).drop more.length)
      else if r.kind.collection = k ∧ 47 :: more <+: r.rest then some (r.rest.drop (more.length + 1))
      else after (47 :: (k ++ 47 :: more)) r.text := by
  have hother : ∀ s ∈ r.kind.head, 47 ∉ s ∧ s ≠ k := fun s hs =>
    ⟨r.kind.head_word s hs, fun h => hhead (h ▸ hs)⟩
  rw [path_eq, after_segments_sep hk delimits_sep hother,
    after_segment_sep hk r.ns_word.1 delimits_sep,
    after_segment_sep hk r.kind.collection_word.1 r.delimits_rest, r.after_rest_sep hk]
  refine if_congr (and_congr_right fun _ => ?_) (by rw [List.drop_succ_cons]) rfl
  rw [List.cons_prefix_cons]
  exact and_iff_right rfl

theorem after_rest_eq_none_iff (hk : Word 47 63 k) :
    after (47 :: k) r.rest = none ↔ ¬ ((∃ n ∈ r.name, k <+: n) ∨ 47 :: k <:+: r.text) := by
  rw [r.after_rest hk]
  cases r.name with
  | none => simp [after_eq_none_iff]
  | some n => by_cases hn : k <+: n <;> simp [hn, after_eq_none_iff]

/-- **A keyword of the path** is the collection's, or one of the names and the query string. -/
theorem strstr_path_iff (hk : Keyword k) :
    strstr r.path (47 :: k) = true ↔ k <+: r.kind.collection ∨ r.Mentions k := by
  rw [strstr_iff, ← not_iff_not, ← after_eq_none_iff, r.after_path hk]
  unfold Mentions
  by_cases hns : k <+: r.ns
  · simp [hns]
  · by_cases hcoll : k <+: r.kind.collection
    · simp [hns, hcoll]
    · simp [hns, hcoll, r.after_rest_eq_none_iff hk.1]

theorem strstr_mentions (hk : Keyword k) (hcoll : ¬ k <+: r.kind.collection) :
    strstr r.path (47 :: k) = true ↔ r.Mentions k := by
  rw [r.strstr_path_iff hk]
  exact or_iff_right hcoll

theorem strstr_path_sep_iff (hk : Word 47 63 k) (hhead : k ∉ r.kind.head) :
    strstr r.path (47 :: (k ++ 47 :: more)) = true ↔
      (r.ns = k ∧ more <+: r.kind.collection ++ r.rest) ∨
        (r.kind.collection = k ∧ 47 :: more <+: r.rest) ∨ 47 :: (k ++ 47 :: more) <:+: r.text := by
  rw [strstr_iff, ← not_iff_not, ← after_eq_none_iff, r.after_path_sep hk hhead]
  split_ifs with hns hcoll
  · simp [hns]
  · simp [hcoll]
  · simp [hns, hcoll, after_eq_none_iff]

/-! ## The path as the blocks read it -/

theorem path_of_core (hkind : r.kind ≠ .deployment) :
    r.path = ofString "/api/v1/namespaces/" ++ (r.ns ++ 47 :: (r.kind.collection ++ r.rest)) := by
  rw [path_eq]
  cases hk : r.kind with
  | pod | service => rfl
  | deployment => exact absurd hk hkind

theorem path_of_apps (hkind : r.kind = .deployment) :
    r.path = ofString "/apis/apps/v1/namespaces/" ++ (r.ns ++ 47 :: (r.kind.collection ++ r.rest)) := by
  rw [path_eq, hkind]
  rfl

theorem document_path : document r.path = none := by
  by_cases hkind : r.kind = .deployment
  · rw [r.path_of_apps hkind]
    rfl
  · rw [r.path_of_core hkind]
    rfl

/-- **Every block reads the namespace.** -/
theorem namespaceOf_path : namespaceOf r.path = r.ns := by
  have hafter : after (ofString "/namespaces/") r.path =
      some (r.ns ++ 47 :: (r.kind.collection ++ r.rest)) := by
    by_cases hkind : r.kind = .deployment
    · rw [r.path_of_apps hkind]
      rfl
    · rw [r.path_of_core hkind]
      rfl
  simp only [namespaceOf, hafter, strchr_append r.ns_word.1]
  exact snprintf_of_lt (Nat.lt_succ_of_lt (validateName_spec r.ns_valid).2.2)

theorem stop_not_mem_segments :
    63 ∉ join 47 (r.kind.group ++ [ofString "namespaces", r.ns, r.kind.collection] ++ r.name.toList) := by
  have hgroup : ∀ kind : Kind, ∀ s ∈ kind.group, 63 ∉ s := by
    intro kind
    cases kind <;> decide
  intro h
  obtain ⟨s, hs, h⟩ := List.mem_flatMap.mp h
  replace h : 63 ∈ s := (List.mem_cons.mp h).resolve_left (by decide)
  simp only [List.mem_append, List.mem_cons, List.not_mem_nil, or_false, Option.mem_toList] at hs
  rcases hs with (hs | rfl | rfl | rfl) | hs
  · exact hgroup r.kind s hs h
  · exact absurd h (by decide)
  · exact r.ns_word.2 h
  · exact r.kind.collection_word.2 h
  · exact (validateName_spec (r.name_valid s hs)).1.2 h

theorem extractQueryString_path : extractQueryString r.path = r.queryString := by
  have hstop := r.stop_not_mem_segments
  unfold extractQueryString queryString path tail text
  cases r.query with
  | none => rw [List.append_nil, strchr_eq_none hstop]; rfl
  | some q => rw [strchr_append hstop]; rfl

/-- The pods, nodes and services blocks look at the request. -/
theorem core_iff : strstr r.path (ofString "/api/v1/") = true ↔ r.Core := by
  unfold Core
  by_cases hkind : r.kind = .deployment
  · have hhead : ofString "api" ∉ r.kind.head := by
      rw [hkind]
      decide
    have hns : ¬ ofString "v1/" <+: r.kind.collection ++ r.rest := by
      rw [show ofString "v1/" = ofString "v1" ++ 47 :: [] from rfl,
        prefix_append_sep_iff (by decide) r.kind.collection_word.1 r.delimits_rest, hkind]
      exact fun h => absurd h.1 (by decide)
    have hcoll : r.kind.collection ≠ ofString "api" := by
      rw [hkind]
      decide
    rw [show ofString "/api/v1/" = 47 :: (ofString "api" ++ 47 :: ofString "v1/") from rfl,
      r.strstr_path_sep_iff (by decide) hhead]
    simp only [hns, hcoll, not_not.mpr hkind, and_false, false_and, false_or]
  · rw [strstr_iff, r.path_of_core hkind]
    refine iff_of_true ?_ (.inl hkind)
    exact ⟨[], ofString "namespaces/" ++ _, rfl⟩

theorem strstr_apps (hkind : r.kind = .deployment) :
    strstr r.path (ofString "/apis/apps/v1") = true := by
  rw [strstr_iff, r.path_of_apps hkind]
  exact ⟨[], ofString "/namespaces/" ++ _, rfl⟩

/-! ## Names -/

/-- A name after a collection is read up to the query string. -/
theorem nameAfter_of_after {needle path s : CString} (hs : 63 ∉ s) (hne : s ≠ [])
    (h : after needle path = some (s ++ r.tail)) : nameAfter needle path = snprintf 256 s := by
  obtain ⟨c, cs, rfl⟩ := List.exists_cons_of_ne_nil hne
  rw [List.cons_append] at h
  unfold nameAfter
  rw [h]
  dsimp only
  rw [← List.cons_append]
  unfold tail
  cases r.query with
  | none => rw [List.append_nil, strchr_eq_none hs]
  | some q => rw [strchr_append hs]

theorem stop_not_mem_name : 63 ∉ r.kind.collection ++ join 47 r.name.toList := by
  intro h
  rcases List.mem_append.mp h with h | h
  · exact r.kind.collection_word.2 h
  · obtain ⟨n, hn, h⟩ := List.mem_flatMap.mp h
    have hword := (validateName_spec (r.name_valid n (Option.mem_toList.mp hn))).1
    exact hword.2 ((List.mem_cons.mp h).resolve_left (by decide))

/-- A namespace with the name of the collection is taken for it, and the rest of the path for a name. -/
theorem nameAfter_of_ns (hk : Keyword k) (hns : r.ns = k) : nameAfter (47 :: (k ++ [47])) r.path =
    snprintf 256 (r.kind.collection ++ join 47 r.name.toList) := by
  refine r.nameAfter_of_after r.stop_not_mem_name ?_ ?_
  · exact List.append_ne_nil_of_left_ne_nil r.kind.collection_ne_nil _
  · rw [r.after_path_sep hk.1 (hk.not_mem_head r.kind), if_pos ⟨hns, List.nil_prefix⟩]
    simp [rest]

/-- A named object of the collection. -/
theorem nameAfter_of_name (hk : Keyword r.kind.collection) (hns : r.ns ≠ r.kind.collection) {n : CString}
    (hname : r.name = some n) : nameAfter (47 :: (r.kind.collection ++ [47])) r.path = n := by
  obtain ⟨hword, hne, hlen⟩ := validateName_spec (r.name_valid n hname)
  rw [← snprintf_of_lt (Nat.lt_succ_of_lt hlen)]
  refine r.nameAfter_of_after hword.2 hne ?_
  rw [r.after_path_sep hk.1 (hk.not_mem_head r.kind), if_neg fun h => hns h.1, r.rest_of_some hname,
    if_pos ⟨rfl, by simp⟩]
  rfl

/-- Where neither is the case, only the query string can hold a name. -/
theorem nameAfter_of_text (hk : Keyword k) (hns : r.ns ≠ k)
    (hcoll : r.kind.collection = k → r.name = none) :
    nameAfter (47 :: (k ++ [47])) r.path = nameAfter (47 :: (k ++ [47])) r.text := by
  refine nameAfter_congr ?_
  rw [r.after_path_sep hk.1 (hk.not_mem_head r.kind), if_neg fun h => hns h.1, if_neg]
  rintro ⟨hc, h⟩
  rw [r.rest_of_none (hcoll hc)] at h
  exact r.not_prefix_tail h

/-- **The name a services or deployments block reads.** -/
theorem nameAfter_eq_iff (hkind : r.kind ≠ .pod) :
    nameAfter (47 :: (r.kind.collection ++ [47])) r.path = r.name.getD [] ↔ r.NameRead := by
  have hk := r.kind.keyword_collection
  have hread : r.NameRead ↔ r.ns ≠ r.kind.collection ∧
      (r.name = none → nameAfter (47 :: r.kind.collection ++ [47]) r.text = []) := by
    unfold NameRead
    cases hname : r.name with
    | none => cases hkd : r.kind <;> simp_all
    | some n => cases hkd : r.kind <;> simp_all
  rw [hread]
  by_cases hns : r.ns = r.kind.collection
  · rw [r.nameAfter_of_ns hk hns]
    refine iff_of_false ?_ fun h => h.1 hns
    cases hname : r.name with
    | none =>
      exact snprintf_ne_nil (by decide) (List.append_ne_nil_of_left_ne_nil r.kind.collection_ne_nil _)
    | some n =>
      have hn := (validateName_spec (r.name_valid n hname)).1
      exact snprintf_append_ne (Nat.succ_lt_succ r.kind.collection_length) hn.1
  · cases hname : r.name with
    | none =>
      rw [r.nameAfter_of_text hk hns fun _ => hname]
      simp [hns]
    | some n =>
      rw [r.nameAfter_of_name hk hns hname]
      simp [hns]

theorem serviceNamed_iff (hkind : r.kind = .deployment) :
    nameAfter (ofString "/services/") r.path ≠ [] ↔ r.ServiceNamed := by
  unfold ServiceNamed
  by_cases hns : r.ns = ofString "services"
  · refine iff_of_true ?_ (.inl hns)
    rw [show ofString "/services/" = 47 :: (ofString "services" ++ [47]) from rfl,
      r.nameAfter_of_ns keyword_services hns]
    exact snprintf_ne_nil (by decide) (List.append_ne_nil_of_left_ne_nil r.kind.collection_ne_nil _)
  · have hcoll : r.kind.collection ≠ ofString "services" := by
      rw [hkind]
      decide
    rw [show ofString "/services/" = 47 :: (ofString "services" ++ [47]) from rfl,
      r.nameAfter_of_text keyword_services hns fun h => absurd h hcoll]
    simp [hns]

/-! ## Pod names -/

/-- **The name of a pod is read up to a slash of the query string**, if it has one. -/
theorem podNameOf_rest_iff {n : CString} (hname : r.name = some n) :
    podNameOf r.rest = n ↔ 47 ∉ r.text := by
  obtain ⟨hword, hne, hlen⟩ := validateName_spec (r.name_valid n hname)
  have hfits : snprintf 256 n = n := snprintf_of_lt (Nat.lt_succ_of_lt hlen)
  rw [r.rest_of_some hname]
  unfold tail text
  cases r.query with
  | none =>
    rw [List.append_nil, podNameOf_cons hne, strchr_eq_none hword.1, strchr_eq_none hword.2]
    exact iff_of_true hfits List.not_mem_nil
  | some q =>
    have hstart : ∀ {u : CString}, 47 ∉ u → 47 ∉ n ++ 63 :: u := fun hu h => by
      rcases List.mem_append.mp h with h | h
      · exact hword.1 h
      · exact hu ((List.mem_cons.mp h).resolve_left (by decide))
    by_cases hslash : 47 ∈ q
    · obtain ⟨u, v, hq, hu⟩ := List.eq_append_cons_of_mem hslash
      refine iff_of_false ?_ fun h => h hslash
      rw [hq]
      show podNameOf (47 :: (n ++ 63 :: (u ++ 47 :: v))) ≠ n
      rw [show n ++ 63 :: (u ++ 47 :: v) = (n ++ 63 :: u) ++ 47 :: v by simp,
        podNameOf_segment (hstart hu) (by simp)]
      exact snprintf_append_ne (Nat.succ_lt_succ hlen) hword.2
    · rw [podNameOf_cons (by simp), strchr_eq_none (hstart hslash), strchr_append hword.2]
      exact iff_of_true hfits hslash

/-- A namespace that begins with `pods`: the block takes it for the collection only if it is the whole
word. -/
theorem podNameOf_ns_eq_nil_iff (hpre : ofString "pods" <+: r.ns) {kind : Kind} {t : CString} :
    podNameOf (r.ns.drop 4 ++ 47 :: (kind.collection ++ t)) = [] ↔ r.ns ≠ ofString "pods" := by
  obtain ⟨u, hu⟩ := hpre
  have hslash := r.ns_word.1
  rw [← hu] at hslash ⊢
  show podNameOf (u ++ _) = [] ↔ _
  cases u with
  | nil =>
    refine iff_of_false ?_ fun h => h (List.append_nil _)
    exact podNameOf_ne_nil kind.collection_word kind.collection_ne_nil
  | cons c u =>
    refine iff_of_true (podNameOf_eq_nil ?_) (by simp)
    rintro d hd rfl
    cases hd
    exact hslash (List.mem_append_right _ List.mem_cons_self)

theorem head_tail_ne : ∀ c ∈ r.tail.head?, c ≠ 47 := by
  unfold tail
  split
  · exact nofun
  · rintro c hc rfl
    cases hc

/-- A name that begins with `pods` hides the query string from the block, and is no pod's name. -/
theorem podNameOf_drop_tail {n : CString} (hn : 47 ∉ n) (i : Nat) :
    podNameOf (n.drop i ++ r.tail) = [] := by
  refine podNameOf_eq_nil ?_
  cases hdrop : n.drop i with
  | nil => exact r.head_tail_ne
  | cons c cs =>
    rintro d hd rfl
    cases hd
    exact hn (List.mem_of_mem_drop (hdrop ▸ List.mem_cons_self))

/-- **A pod's name in a path of another kind.** -/
theorem podNamed_iff (hkind : r.kind ≠ .pod) : (parsePath r.path).2 ≠ [] ↔ r.PodNamed := by
  unfold PodNamed
  rw [parsePath_snd, r.after_path keyword_pods, parsePath_snd]
  by_cases hpre : ofString "pods" <+: r.ns
  · rw [if_pos hpre]
    show podNameOf (r.ns.drop 4 ++ _) ≠ [] ↔ _
    rw [Ne, r.podNameOf_ns_eq_nil_iff hpre]
    simp [hpre]
  · have hns : r.ns ≠ ofString "pods" := fun h => hpre (h ▸ List.prefix_rfl)
    rw [if_neg hpre, if_neg (Kind.not_pods hkind), r.after_rest keyword_pods.1]
    cases hname : r.name with
    | none => simp [hpre, hns]
    | some n =>
      have hn := (validateName_spec (r.name_valid n hname)).1
      by_cases hpn : ofString "pods" <+: n
      · simp [hpn, hns, r.podNameOf_drop_tail hn.1]
      · simp [hpn, hpre, hns]

/-- **The pod's name.** -/
theorem parsePath_eq_iff (hkind : r.kind = .pod) :
    (parsePath r.path).2 = r.name.getD [] ↔ r.NameRead := by
  unfold NameRead
  rw [parsePath_snd, r.after_path keyword_pods, hkind]
  by_cases hpre : ofString "pods" <+: r.ns
  · rw [if_pos hpre]
    cases hname : r.name with
    | none =>
      show podNameOf (r.ns.drop 4 ++ 47 :: (Kind.pod.collection ++ r.rest)) = [] ↔ _
      rw [r.podNameOf_ns_eq_nil_iff hpre]
    | some n =>
      have hne := (validateName_spec (r.name_valid n hname)).2.1
      show podNameOf (r.ns.drop 4 ++ 47 :: (Kind.pod.collection ++ r.rest)) = n ↔ _
      by_cases hns : r.ns = ofString "pods"
      · rw [hns, r.rest_of_some hname]
        show podNameOf (47 :: (ofString "pods" ++ 47 :: _)) = n ↔ _
        rw [podNameOf_segment (by decide) (by decide), snprintf_of_lt (by decide), eq_comm]
        simp
      · rw [(r.podNameOf_ns_eq_nil_iff hpre).mpr hns]
        simp [hpre, hns, hne.symm]
  · have hns : r.ns ≠ ofString "pods" := fun h => hpre (h ▸ List.prefix_rfl)
    rw [if_neg hpre, if_pos (by decide)]
    show podNameOf r.rest = _ ↔ _
    cases hname : r.name with
    | none =>
      rw [r.rest_of_none hname]
      exact iff_of_true (podNameOf_eq_nil r.head_tail_ne) hns
    | some n =>
      show podNameOf r.rest = n ↔ _
      rw [r.podNameOf_rest_iff hname]
      simp [hpre, hns]

/-! ## The earlier blocks -/

theorem pods_none_iff (hkind : r.kind ≠ .pod) :
    pods r.method r.path = none ↔ ¬ r.TakenByPods := by
  have hword := r.strstr_mentions keyword_pods (Kind.not_pods hkind)
  rw [pods_eq_none_iff, r.core_iff, not_iff_not, show ofString "/pods" = 47 :: ofString "pods" from rfl]
  unfold TakenByPods Takes
  cases r.method with
  | get | post =>
    rw [hword]
    simp [hkind]
  | patch | delete =>
    rw [← r.podNamed_iff hkind]
    exact ⟨fun h => ⟨hkind, h.1, h.2.2⟩, fun h => ⟨h.2.1, strstr_of_parsePath h.2.2, h.2.2⟩⟩
  | put | other => simp

theorem strstr_nodes_sep : strstr r.path (ofString "/nodes/") = true ↔
    r.ns = ofString "nodes" ∨ ofString "/nodes/" <:+: r.text := by
  have hne : r.kind.collection ≠ ofString "nodes" := fun h =>
    r.kind.not_nodes (ofString "nodes") (by decide) (h ▸ List.prefix_rfl)
  rw [show ofString "/nodes/" = 47 :: (ofString "nodes" ++ 47 :: []) from rfl,
    r.strstr_path_sep_iff keyword_nodes.1 (keyword_nodes.not_mem_head r.kind)]
  simp [hne]

theorem strstr_nodes_register : strstr r.path (ofString "/nodes/register") = true ↔
    ofString "/nodes/register" <:+: r.text := by
  have hne : r.kind.collection ≠ ofString "nodes" := fun h =>
    r.kind.not_nodes (ofString "nodes") (by decide) (h ▸ List.prefix_rfl)
  have hno : ¬ ofString "register" <+: r.kind.collection ++ r.rest := by
    rw [prefix_append_iff (by decide) r.delimits_rest]
    exact r.kind.not_nodes _ (by decide)
  rw [show ofString "/nodes/register" = 47 :: (ofString "nodes" ++ 47 :: ofString "register") from rfl,
    r.strstr_path_sep_iff keyword_nodes.1 (keyword_nodes.not_mem_head r.kind)]
  simp only [hno, hne, and_false, false_and, false_or]

theorem Mentions.of_text {r : Request} {t : CString} (hpre : 47 :: k <+: t) (ht : t <:+: r.text) :
    r.Mentions k :=
  .inr (.inr (hpre.isInfix.trans ht))

theorem NodePosted.mentions {r : Request} (h : r.NodePosted) : r.Mentions (ofString "nodes") := by
  rcases h with h | ⟨h | h, -⟩
  · exact .of_text ⟨ofString "/register", rfl⟩ h
  · exact .inl (h ▸ List.prefix_rfl)
  · exact .of_text ⟨ofString "/", rfl⟩ h

theorem nodes_none_iff (hkind : r.kind ≠ .pod) :
    nodes r.method r.path = none ↔ ¬ r.TakenByNodes := by
  have hnodes : strstr r.path (ofString "/nodes") = true ↔ r.Mentions (ofString "nodes") :=
    r.strstr_mentions keyword_nodes (r.kind.not_nodes _ (by decide))
  have hbeat : strstr r.path (ofString "/heartbeat") = true ↔ r.Mentions (ofString "heartbeat") :=
    r.strstr_mentions (by decide) (r.kind.not_nodes _ (by decide))
  rw [nodes_eq_none_iff, r.core_iff, hnodes, hbeat, r.strstr_nodes_sep, r.strstr_nodes_register,
    not_iff_not]
  unfold TakenByNodes
  cases r.method with
  | get => simp [hkind]
  | post =>
    simp only [reduceCtorEq, false_or, true_and]
    exact ⟨fun h => ⟨hkind, h.1, h.2.2⟩, fun h => ⟨h.2.1, NodePosted.mentions h.2.2, h.2.2⟩⟩
  | put | patch | delete | other => simp

/-- **The services block** takes a request for a deployment that mentions services. -/
theorem services_none_iff (hkind : r.kind = .deployment) (hput : r.method ≠ .put) :
    services r.method r.path = none ↔ ¬ r.TakenByServices := by
  have hcoll : ¬ ofString "services" <+: r.kind.collection := by
    rw [hkind]
    decide
  have hword : strstr r.path (ofString "/services") = true ↔ r.Mentions (ofString "services") :=
    r.strstr_mentions keyword_services hcoll
  have hnamed : r.ServiceNamed → r.Mentions (ofString "services") := by
    rintro (h | h)
    · exact .inl (h ▸ List.prefix_rfl)
    · have hpre : 47 :: ofString "services" <+: ofString "/services/" := ⟨ofString "/", rfl⟩
      exact .of_text hpre (infix_of_nameAfter h)
  unfold services
  rw [resource_eq_none_iff hput, r.core_iff, hword, not_iff_not,
    show ofString "/services" ++ [47] = ofString "/services/" from rfl]
  unfold TakenByServices Takes
  cases r.method with
  | get | post => simp [hkind]
  | patch | delete =>
    rw [← r.serviceNamed_iff hkind] at hnamed ⊢
    exact ⟨fun h => ⟨hkind, h.1, h.2.2⟩, fun h => ⟨h.2.1, hnamed h.2.2, h.2.2⟩⟩
  | put | other => simp

/-! ## The own block -/

/-- The subresources. -/
theorem podSubresource_eq_none_iff (hkind : r.kind = .pod) :
    podSubresource r.method r.path = none ↔ ¬ r.TakenForSubresource := by
  have hword : ∀ {k : CString}, Keyword k → ¬ k <+: Kind.pod.collection →
      (strstr r.path (47 :: k) = true ↔ r.Mentions k) := fun hk hcoll =>
    r.strstr_mentions hk (hkind ▸ hcoll)
  have hlog : strstr r.path (ofString "/log") = true ↔ r.Mentions (ofString "log") :=
    hword (by decide) (by decide)
  have hbind : strstr r.path (ofString "/bind") = true ↔ r.Mentions (ofString "bind") :=
    hword (by decide) (by decide)
  have hexec : strstr r.path (ofString "/exec") = true ↔ r.Mentions (ofString "exec") :=
    hword (by decide) (by decide)
  unfold podSubresource TakenForSubresource
  cases r.method with
  | get => simp [hkind, ← hlog]
  | post =>
    simp only [hkind, ← hbind, ← hexec, true_and, not_or]
    split_ifs with h1 h2
    · simp [h1]
    · simp [h2]
    · simp [h1, h2]
  | put | patch | delete | other => simp

variable {e : Route} (he : r.expected = some e)

include he

/-- A block that reads the rest of the request right has to read the name and the watch. -/
theorem objectRoute_eq_iff {s : CString} : objectRoute r.kind r.method r.ns s r.queryString = some e ↔
    (r.NameUsed → s = r.name.getD []) ∧ (r.method = .get → r.WatchRead) := by
  have hsees : strstr r.queryString (ofString "watch=true") = true ↔ ofString "watch=true" <:+: r.queryString :=
    strstr_iff
  have hvalid := r.name_valid
  unfold expected at he
  unfold objectRoute NameUsed WatchRead
  rw [← hsees]
  cases hm : r.method with
  | get =>
    rw [hm] at he
    cases hname : r.name with
    | some n =>
      rw [hname] at he
      obtain rfl := Option.some.inj he
      have hn := (validateName_spec (hvalid n hname)).2.1
      by_cases hwatch : strstr r.queryString (ofString "watch=true") = true
      · simp [hwatch]
      · by_cases hs : s = [] <;> simp [hwatch, hs, hn.symm]
    | none =>
      rw [hname] at he
      obtain rfl := Option.some.inj he
      by_cases hwatch : strstr r.queryString (ofString "watch=true") = true <;> by_cases hasks : r.Watches <;>
        by_cases hs : s = [] <;> simp [hwatch, hasks, hs]
  | post =>
    rw [hm] at he
    obtain rfl := Option.some.inj he
    simp
  | patch | delete =>
    rw [hm] at he
    cases hname : r.name with
    | none =>
      rw [hname] at he
      cases he
    | some n =>
      rw [hname] at he
      obtain rfl := Option.some.inj he
      have hn := (validateName_spec (hvalid n hname)).2.1
      by_cases hs : s = [] <;> simp [hs, hn.symm]
  | put | other =>
    rw [hm] at he
    cases he

theorem method_ne_put : r.method ≠ .put := by
  intro h
  rw [expected, h] at he
  cases he

theorem expected_kind : e.kind = some r.kind := by
  unfold expected at he
  split at he
  · cases he
    rfl
  · obtain rfl := Option.some.inj he
    split <;> rfl
  · cases he
    rfl
  · cases he
    rfl
  · cases he
    rfl
  · cases he

/-- **The own block of a service or a deployment.** -/
theorem resource_eq_some_iff (group : CString) (put : Bool) (hkind : r.kind ≠ .pod)
    (hgroup : strstr r.path group = true) :
    resource r.kind group (47 :: r.kind.collection) put r.method r.path = some e ↔
      (r.NameUsed → r.NameRead) ∧ (r.method = .get → r.WatchRead) := by
  have hword : strstr r.path (47 :: r.kind.collection) = true := by
    rw [r.strstr_path_iff r.kind.keyword_collection]
    exact .inl List.prefix_rfl
  rw [← r.nameAfter_eq_iff hkind, ← r.objectRoute_eq_iff he, resource_eq (r.method_ne_put he), hgroup,
    hword, r.namespaceOf_path, r.extractQueryString_path]
  rfl

/-- **The own block of a pod.** -/
theorem pods_eq_some_iff (hkind : r.kind = .pod) :
    pods r.method r.path = some e ↔
      ¬ r.TakenForSubresource ∧ (r.NameUsed → r.NameRead) ∧ (r.method = .get → r.WatchRead) := by
  have hcore : strstr r.path (ofString "/api/v1/") = true := by
    rw [r.core_iff]
    exact .inl (by rw [hkind]; decide)
  have hword : strstr r.path (ofString "/pods") = true := by
    rw [show ofString "/pods" = 47 :: ofString "pods" from rfl, r.strstr_path_iff keyword_pods, hkind]
    exact .inl List.prefix_rfl
  have hns : (parsePath r.path).1 = r.ns := by
    rw [strstr_iff, ← not_not (a := _ <:+: _), ← after_eq_none_iff] at hword
    unfold parsePath
    split
    · exact absurd ‹_› hword
    · exact r.namespaceOf_path
  have hobject := r.objectRoute_eq_iff he (s := (parsePath r.path).2)
  rw [r.parsePath_eq_iff hkind, hkind] at hobject
  have hor : (podSubresource r.method r.path).or (objectRoute .pod r.method r.ns (parsePath r.path).2
      r.queryString) = some e ↔ podSubresource r.method r.path = none ∧ (r.NameUsed → r.NameRead) ∧
        (r.method = .get → r.WatchRead) := by
    rw [Option.or_eq_some_iff, hobject]
    refine or_iff_right fun h => ?_
    have hnone := podSubresource_kind h
    rw [r.expected_kind he] at hnone
    cases hnone
  rw [pods_eq, hcore, hword, hns, r.extractQueryString_path]
  exact hor.trans (and_congr_left fun _ => r.podSubresource_eq_none_iff hkind)

/-- A request with an endpoint reaches it iff no other block takes it and its own block reads it right. -/
theorem apiHandleRequest_eq_iff : apiHandleRequest r.method r.path = e ↔ r.RoutedWhen := by
  have hkind := r.expected_kind he
  cases hk : r.kind with
  | pod =>
    rw [hk] at hkind
    rw [apiHandleRequest_eq_pod_iff r.document_path hkind, r.pods_eq_some_iff he hk]
    have hservices : ¬ r.TakenByServices := fun h => absurd (hk.symm.trans h.1) (by decide)
    exact ⟨fun h => ⟨fun ht => ht.1 hk, fun ht => ht.1 hk, hservices, h.1, h.2.1, h.2.2⟩,
      fun h => ⟨h.subresource, h.name, h.watch⟩⟩
  | service =>
    rw [hk] at hkind
    have hpod : r.kind ≠ .pod := fun h => absurd (hk.symm.trans h) (by decide)
    have hservices : ¬ r.TakenByServices := fun h => absurd (hk.symm.trans h.1) (by decide)
    have hgroup := r.core_iff.mpr (.inl fun h => absurd (hk.symm.trans h) (by decide))
    have hown := r.resource_eq_some_iff he _ false hpod hgroup
    rw [hk] at hown
    rw [apiHandleRequest_eq_service_iff r.document_path hkind, r.pods_none_iff hpod,
      r.nodes_none_iff hpod, show services r.method r.path = some e ↔ _ from hown]
    exact ⟨fun h => ⟨h.1, h.2.1, hservices, fun ht => hpod ht.1, h.2.2.1, h.2.2.2⟩,
      fun h => ⟨h.pods, h.nodes, h.name, h.watch⟩⟩
  | deployment =>
    rw [hk] at hkind
    have hpod : r.kind ≠ .pod := fun h => absurd (hk.symm.trans h) (by decide)
    have hown := r.resource_eq_some_iff he _ true hpod (r.strstr_apps hk)
    rw [hk] at hown
    rw [apiHandleRequest_eq_deployment_iff r.document_path hkind, r.pods_none_iff hpod,
      r.nodes_none_iff hpod, r.services_none_iff hk (r.method_ne_put he),
      show deployments r.method r.path = some e ↔ _ from hown]
    exact ⟨fun h => ⟨h.1, h.2.1, h.2.2.1, fun ht => hpod ht.1, h.2.2.2.1, h.2.2.2.2⟩,
      fun h => ⟨h.pods, h.nodes, h.services, h.name, h.watch⟩⟩

end Request

/-! ## Results -/

/-- **A request is routed right** exactly when `RoutedWhen` holds, if there is an endpoint for it. -/
theorem routed_iff (r : Request) : r.Routed ↔ (r.expected ≠ none → r.RoutedWhen) := by
  unfold Request.Routed
  cases he : r.expected with
  | none => simp
  | some e =>
    rw [← r.apiHandleRequest_eq_iff he]
    simp

/-- `GET /api/v1/namespaces/default/pods/login`. -/
def getLogin : Request where
  kind := .pod
  method := .get
  ns := ofString "default"
  name := some (ofString "login")
  query := none
  ns_valid := by decide
  name_valid := by decide

/-- **A pod named `login` cannot be read**: the request goes to the logs. -/
theorem login_not_routed : ¬ getLogin.Routed := by
  have hroute : apiHandleRequest getLogin.method getLogin.path =
      .podLogs (ofString "default") (ofString "login") [] := rfl
  intro h
  have hget := h (.get .pod (ofString "default") (ofString "login")) rfl
  rw [hroute] at hget
  cases hget

end Sirah.Routing
