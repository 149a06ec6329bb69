import Sirah.ApiServer.Endpoints
import Sirah.ApiServer.ObjectRoutes
import Sirah.ApiServer.Versions

/-!
# Keys of objects

An object is stored in etcd under the key that `sirah/internal/apiserver/endpoints_etcd_integration.c`
prints into a buffer, of 512 bytes for a pod and of 256 for a service or a deployment, and its version
under the one that `generate_key` of `cas_handler.c` prints into 256 bytes. A name and a namespace that
`validate_name` accepts have up to 253 bytes each.

* `path` is the part of a key that names the object, `namespace/name`; `pathRoom` is how much of it the
  shortest buffer keeps.
* **`independent_iff`**: two objects have different keys, and what is done to one never touches the other,
  **iff** their paths differ in the bytes that are kept.
* `independent_of_short`: so have two different objects whose paths fit.
-/

namespace Sirah.ApiServer

open Etcd CasHandler

/-- A namespace and a name that `validate_name` accepts. -/
structure ObjectName where
  ns : CString
  name : CString
  ns_valid : Routing.validateName ns = true
  name_valid : Routing.validateName name = true

namespace ObjectName

/-- The part of a key that names the object. -/
def path (o : ObjectName) : CString := o.ns ++ 47 :: o.name

/-- The object as the tracker is asked for it. -/
def ref (o : ObjectName) (resourceType : CString) : ObjectRef := ⟨resourceType, o.ns, o.name⟩

end ObjectName

/-- Two keys of the store: a write or a delete of the first never affects the second. -/
structure Apart (key other : CString) : Prop where
  ne : key ≠ other
  put : ∀ (s : Server) (value : CString), (s.put key value).find other = s.find other
  delete : ∀ s : Server, (s.delete key).find other = s.find other

/-- **Independent keys**, in the store and in the tracker. -/
structure Independent (resourceType : CString) (a b : ObjectName) : Prop where
  pod : Apart (buildPodEtcdKey a.ns a.name) (buildPodEtcdKey b.ns b.name)
  service : Apart (buildServiceEtcdKey a.ns a.name) (buildServiceEtcdKey b.ns b.name)
  deployment : Apart (buildDeploymentEtcdKey a.ns a.name) (buildDeploymentEtcdKey b.ns b.name)
  tracker : generateKey (a.ref resourceType) ≠ generateKey (b.ref resourceType)
  marked : ∀ t : Tracker,
    Versions.version? (casMarkUpdated t (a.ref resourceType)).2 (generateKey (b.ref resourceType)) =
      Versions.version? t (generateKey (b.ref resourceType))

/-- How much of a path all the keys keep: a deployment's has 236 bytes for it, the tracker's 254 less the
resource type. -/
def pathRoom (resourceType : CString) : Nat := min 236 (254 - resourceType.length)

/-! ## What a buffer keeps -/

theorem apart_of_ne {key other : CString} (h : key ≠ other) : Apart key other :=
  ⟨h, fun s value => s.find_put_ne value h, fun s => s.find_delete_ne h⟩

/-- Two texts with a common beginning are cut to the same text if what follows is. -/
theorem snprintf_append_inj {size : Nat} {start p q : CString} :
    CString.snprintf size (start ++ p) = CString.snprintf size (start ++ q) ↔
      p.take (size - 1 - start.length) = q.take (size - 1 - start.length) := by
  unfold CString.snprintf
  rw [List.take_append, List.take_append, List.append_cancel_left_eq]

/-- What more room tells apart, less room may not. -/
theorem take_ne_of_le {m n : Nat} {p q : CString} (hle : m ≤ n) (h : p.take m ≠ q.take m) :
    p.take n ≠ q.take n := by
  intro heq
  apply h
  rw [← min_eq_left hle, ← List.take_take, heq, List.take_take]

variable {resourceType : CString} {a b : ObjectName}

/-- The text of a key in the store. -/
theorem buildEtcdKey_eq (resource : CString) (size : Nat) (o : ObjectName) :
    buildEtcdKey resource size o.ns o.name =
      CString.snprintf size ((CString.ofString "/sirah/" ++ resource ++ [47]) ++ o.path) := by
  unfold buildEtcdKey resourcePath ObjectName.path
  simp

theorem buildEtcdKey_inj (resource : CString) (size : Nat) :
    buildEtcdKey resource size a.ns a.name = buildEtcdKey resource size b.ns b.name ↔
      a.path.take (size - 1 - (resource.length + 8)) = b.path.take (size - 1 - (resource.length + 8)) := by
  have hlen : (CString.ofString "/sirah/" ++ resource ++ [47]).length = resource.length + 8 := by
    rw [List.length_append, List.length_append, show (CString.ofString "/sirah/").length = 7 from rfl,
      List.length_singleton]
    omega
  rw [buildEtcdKey_eq, buildEtcdKey_eq, snprintf_append_inj, hlen]

/-- The text of a key in the tracker. -/
theorem generateKey_inj : generateKey (a.ref resourceType) = generateKey (b.ref resourceType) ↔
    a.path.take (254 - resourceType.length) = b.path.take (254 - resourceType.length) := by
  have heq : ∀ o : ObjectName, generateKey (o.ref resourceType) =
      CString.snprintf 256 ((resourceType ++ [47]) ++ o.path) := by
    intro o
    unfold generateKey ObjectName.ref ObjectName.path
    simp [CString.ofString]
  have hroom : 256 - 1 - (resourceType ++ [47]).length = 254 - resourceType.length := by
    rw [List.length_append, List.length_singleton]
    omega
  rw [heq, heq, snprintf_append_inj, hroom]

/-- **Independence, exactly.** Two objects have independent keys **iff** their paths differ in the bytes
that every key keeps. -/
theorem independent_iff (resourceType : CString) (a b : ObjectName) :
    Independent resourceType a b ↔
      a.path.take (pathRoom resourceType) ≠ b.path.take (pathRoom resourceType) := by
  constructor
  · rintro ⟨-, -, hdeployment, htracker, -⟩ heq
    rcases le_total 236 (254 - resourceType.length) with hle | hle
    · rw [pathRoom, min_eq_left hle] at heq
      exact hdeployment.ne ((buildEtcdKey_inj "deployments" 256).mpr heq)
    · rw [pathRoom, min_eq_right hle] at heq
      exact htracker (generateKey_inj.mpr heq)
  · intro hne
    have hkey : ∀ (resource : CString) (size : Nat), 236 ≤ size - 1 - (resource.length + 8) →
        Apart (buildEtcdKey resource size a.ns a.name) (buildEtcdKey resource size b.ns b.name) := by
      intro resource size hsize
      refine apart_of_ne fun heq => ?_
      exact take_ne_of_le ((min_le_left _ _).trans hsize) hne ((buildEtcdKey_inj resource size).mp heq)
    have htracker : generateKey (a.ref resourceType) ≠ generateKey (b.ref resourceType) := fun heq =>
      take_ne_of_le (min_le_right _ _) hne (generateKey_inj.mp heq)
    exact ⟨hkey _ _ (by decide), hkey _ _ (by decide), hkey _ _ (by decide), htracker,
      fun t => Versions.version?_markUpdated_ne t htracker⟩

/-! ## Objects whose paths fit -/

/-- A path names one object. -/
theorem path_inj (h : a.path = b.path) : a.ns = b.ns ∧ a.name = b.name := by
  have hsplit : ∀ o : ObjectName, CString.splitOn 47 o.path = [o.ns, o.name] := by
    intro o
    have hns := (Routing.validateName_spec o.ns_valid).1.1
    have hname := (Routing.validateName_spec o.name_valid).1.1
    rw [ObjectName.path, CString.splitOn_append hns, CString.splitOn_of_not_mem hname]
  have hlist : [a.ns, a.name] = [b.ns, b.name] := by rw [← hsplit, ← hsplit, h]
  obtain ⟨hns, htail⟩ := List.cons.inj hlist
  exact ⟨hns, (List.cons.inj htail).1⟩

/-- Different objects whose paths are kept whole are independent. -/
theorem independent_of_short (hne : ¬ (a.ns = b.ns ∧ a.name = b.name))
    (ha : a.path.length ≤ pathRoom resourceType) (hb : b.path.length ≤ pathRoom resourceType) :
    Independent resourceType a b := by
  refine (independent_iff resourceType a b).mpr fun heq => hne (path_inj ?_)
  rwa [List.take_of_length_le ha, List.take_of_length_le hb] at heq

/-- A namespace of 253 letters. -/
def longNs : CString := List.replicate 253 97

theorem replicate_valid {n : Nat} (hpos : n ≠ 0) (hle : n ≤ 253) :
    Routing.validateName (List.replicate n 97) = true := by
  simp [Routing.validateName, hpos, hle, List.head?_replicate, List.getLast?_replicate]

theorem longNs_length : longNs.length = 253 := List.length_replicate

/-- The object of the name in the long namespace. -/
def inLongNs (name : CString) (h : Routing.validateName name = true) : ObjectName :=
  ⟨longNs, name, replicate_valid (by decide) le_rfl, h⟩

/-- **One key for two deployments**: in a namespace of 253 letters the name is not part of the key. -/
theorem long_namespace_shares_keys : ¬ ∀ (resourceType : CString) (a b : ObjectName),
    ¬ (a.ns = b.ns ∧ a.name = b.name) → Independent resourceType a b := by
  intro h
  have hcut : ∀ (name : CString) (hv : Routing.validateName name = true),
      (inLongNs name hv).path.take 236 = longNs.take 236 := fun name hv =>
    List.take_append_of_le_length (show 236 ≤ longNs.length by rw [longNs_length]; decide)
  have hx : Routing.validateName (CString.ofString "x") = true := by decide
  have hy : Routing.validateName (CString.ofString "y") = true := by decide
  have hdep := (h "deployments" (inLongNs "x" hx) (inLongNs "y" hy)
    fun heq => absurd (show CString.ofString "x" = CString.ofString "y" from heq.2) (by decide)).deployment
  exact hdep.ne ((buildEtcdKey_inj "deployments" 256).mpr ((hcut _ hx).trans (hcut _ hy).symm))

end Sirah.ApiServer
