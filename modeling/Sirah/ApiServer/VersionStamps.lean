import Sirah.ApiServer.CasHandler
import Sirah.ApiServer.Patch
import Sirah.Lib.Run

/-!
# Versions in documents

Model of `internal/apiserver/resource_version.c`: the counter of the process, the `metadata.resourceVersion` of a document,
and the check that compares two versions.

* A version is written as a decimal text and read with `strtoull`. Adding to a document that is no object, or whose metadata
  is none, is a failed assertion of json-c (`none`).
* Documents stand under keys. A write replaces one by a document that gets the next version (`resource_version_update_object`).
* **`check_iff_unwritten`**: along every run of writes, `resource_version_check` of the version that was read and of the one that
  is there now finds no conflict exactly if the document was not written in between.
-/

namespace Sirah.ApiServer

open Runs

namespace VersionStamps

/-! ## Versions -/

/-- `resource_version_check`. -/
def resourceVersionCheck (expected current : Nat) : Int := if expected ≠ current then 1 else 0

/-- `resource_version_to_string`. -/
def resourceVersionToString (version : Nat) : CString := CString.snprintf 32 (CString.ofNat version)

/-- `resource_version_from_string`; a text without digits is 0 either way. -/
def resourceVersionFromString (text : Option CString) : Nat :=
  match text with
  | none => 0
  | some text => text.strtoull

/-- `resource_version_add_to_json`, which prints the version like `resource_version_to_string`. -/
def resourceVersionAddToJson (obj : Json) (version : Nat) : Option (Json × Int) :=
  match obj with
  | .null => some (.null, -1)
  | obj => do
    let metadata := (obj.getEx "metadata").getD (.obj [])
    let metadata ← metadata.add "resourceVersion" (.str (resourceVersionToString version))
    return (← obj.add "metadata" metadata, 0)

/-- `resource_version_from_json`. -/
def resourceVersionFromJson (render : Json → CString) (obj : Json) : Nat :=
  match obj.getEx "metadata" with
  | none => 0
  | some metadata =>
    match metadata.getEx "resourceVersion" with
    | none => 0
    | some version => resourceVersionFromString (version.getString render)

/-- `resource_version_update_object`, with the counter after it. -/
def resourceVersionUpdateObject (counter : Nat) (obj : Json) : Option (Json × Int × Nat) :=
  match obj with
  | .null => some (.null, -1, counter)
  | obj => do
    let version := (counter + 1) % 2 ^ 64
    let (obj, result) ← resourceVersionAddToJson obj version
    return (obj, result, version)

/-! ## Documents -/

/-- The counter, and the documents under their keys. -/
structure Documents (κ : Type*) where
  counter : Nat
  doc : κ → Json

/-- A write: the document is replaced by another one, with the next version. -/
structure Write (κ : Type*) where
  key : κ
  obj : Json

variable {κ : Type*} [DecidableEq κ]

/-- A write; one that ends the process, or that is of NULL, changes nothing. -/
def step (s : Documents κ) (op : Write κ) : Documents κ :=
  match resourceVersionUpdateObject s.counter op.obj with
  | some (obj, result, counter) => if result = 0 then ⟨counter, Function.update s.doc op.key obj⟩ else s
  | none => s

/-- A document that takes a version: an object whose metadata, if it has any, is one. -/
def Stampable (obj : Json) : Prop :=
  ∃ ms, obj = .obj ms ∧ ∀ metadata, Json.lookup "metadata" ms = some metadata → ∃ mm, metadata = .obj mm

/-- **The check is exact**: no conflict if and only if nobody has written the document since it was read. -/
def CheckExact (render : Json → CString) (s : Documents κ) (later : List (Write κ)) : Prop :=
  ∀ k, resourceVersionCheck (resourceVersionFromJson render (s.doc k))
      (resourceVersionFromJson render ((run step s later).doc k)) = 0 ↔ ∀ op ∈ later, op.key ≠ k

/-! ## Proofs -/

variable {render : Json → CString} {obj : Json} {version counter : Nat} {s : Documents κ} {ops : List (Write κ)}

/-- A version below `2 ^ 64` is read back from its text. -/
theorem fromString_toString (h : version < 2 ^ 64) :
    resourceVersionFromString (some (resourceVersionToString version)) = version := by
  have hlength : (CString.ofNat version).length ≤ 31 :=
    (CString.length_ofNat_le_iff (by decide)).mpr (h.trans (by decide))
  rw [resourceVersionToString, CString.snprintf_of_lt (by omega), resourceVersionFromString]
  simp only [CString.strtoull, CString.atoi_ofNat]
  rw [if_pos (by omega)]
  omega

variable (render) in
/-- **A version that is added is read back.** -/
theorem fromJson_addToJson (hobj : Stampable obj) (h : version < 2 ^ 64) :
    ∃ obj', resourceVersionAddToJson obj version = some (obj', 0) ∧ resourceVersionFromJson render obj' = version := by
  obtain ⟨ms, rfl, hmeta⟩ := hobj
  obtain ⟨mm, hmm⟩ : ∃ mm, ((Json.obj ms).getEx "metadata").getD (.obj []) = .obj mm := by
    rw [Json.getEx]
    cases hlookup : Json.lookup "metadata" ms with
    | none => exact ⟨[], rfl⟩
    | some metadata => exact hmeta metadata hlookup
  let text : Json := .str (resourceVersionToString version)
  refine ⟨.obj (Json.set "metadata" (.obj (Json.set "resourceVersion" text mm)) ms), ?_, ?_⟩
  · simp only [resourceVersionAddToJson, hmm, Json.add, Option.bind_eq_bind, Option.bind_some, Option.pure_def, text]
  · simp only [resourceVersionFromJson, Json.getEx, Json.lookup_set_self, Json.getString, text]
    exact fromString_toString h

variable (render) in
/-- **A write** sets the next version. -/
theorem step_eq {op : Write κ} (hobj : Stampable op.obj) (h : s.counter + 1 < 2 ^ 64) :
    ∃ obj, step s op = ⟨s.counter + 1, Function.update s.doc op.key obj⟩ ∧
      resourceVersionFromJson render obj = s.counter + 1 := by
  obtain ⟨obj, hadd, hread⟩ := fromJson_addToJson render hobj h
  have hupdate : resourceVersionUpdateObject s.counter op.obj = some (obj, 0, s.counter + 1) := by
    obtain ⟨ms, hms, -⟩ := hobj
    rw [hms] at hadd ⊢
    simp only [resourceVersionUpdateObject, Nat.mod_eq_of_lt h, hadd, Option.bind_eq_bind, Option.bind_some, Option.pure_def]
  refine ⟨obj, ?_, hread⟩
  rw [step, hupdate]
  exact if_pos rfl

variable (render) in
/-- A document that is written gets a version above the counter, and another one stays. -/
theorem version_run (hobj : ∀ op ∈ ops, Stampable op.obj) (h : s.counter + ops.length < 2 ^ 64) (k : κ) :
    (∀ op ∈ ops, op.key ≠ k) ∧ (run step s ops).doc k = s.doc k ∨
      (∃ op ∈ ops, op.key = k) ∧ s.counter < resourceVersionFromJson render ((run step s ops).doc k) := by
  induction ops generalizing s with
  | nil => exact .inl ⟨List.forall_mem_nil _, rfl⟩
  | cons op ops ih =>
    rw [List.forall_mem_cons] at hobj
    rw [List.length_cons] at h
    obtain ⟨obj, hstep, hread⟩ := step_eq render hobj.1 (show s.counter + 1 < 2 ^ 64 by omega)
    have hcounter : (step s op).counter = s.counter + 1 := by rw [hstep]
    have hdoc : (step s op).doc = Function.update s.doc op.key obj := by rw [hstep]
    have hroom : (step s op).counter + ops.length < 2 ^ 64 := by omega
    rw [run_cons]
    obtain ⟨hnone, hsame⟩ | ⟨⟨later, hlater, hkey⟩, hlt⟩ := ih hobj.2 hroom
    · rw [hsame, hdoc]
      by_cases hkey : op.key = k
      · refine .inr ⟨⟨op, List.mem_cons_self, hkey⟩, ?_⟩
        rw [← hkey, Function.update_self, hread]
        exact Nat.lt_succ_self _
      · exact .inl ⟨List.forall_mem_cons.mpr ⟨hkey, hnone⟩, Function.update_of_ne (Ne.symm hkey) _ _⟩
    · exact .inr ⟨⟨later, List.mem_cons_of_mem _ hlater, hkey⟩, by omega⟩

/-- No version is above the counter, which counts the writes. -/
theorem counter_run (hobj : ∀ op ∈ ops, Stampable op.obj) (h : s.counter + ops.length < 2 ^ 64)
    (hle : ∀ k, resourceVersionFromJson render (s.doc k) ≤ s.counter) :
    (run step s ops).counter = s.counter + ops.length ∧
      ∀ k, resourceVersionFromJson render ((run step s ops).doc k) ≤ (run step s ops).counter := by
  induction ops generalizing s with
  | nil => exact ⟨rfl, hle⟩
  | cons op ops ih =>
    rw [List.forall_mem_cons] at hobj
    rw [List.length_cons] at h ⊢
    obtain ⟨obj, hstep, hread⟩ := step_eq render hobj.1 (show s.counter + 1 < 2 ^ 64 by omega)
    have hcounter : (step s op).counter = s.counter + 1 := by rw [hstep]
    have hdoc : (step s op).doc = Function.update s.doc op.key obj := by rw [hstep]
    have hnext : ∀ k, resourceVersionFromJson render ((step s op).doc k) ≤ (step s op).counter := by
      intro k
      rw [hcounter, hdoc]
      by_cases hkey : k = op.key
      · rw [hkey, Function.update_self, hread]
      · rw [Function.update_of_ne hkey]
        exact (hle k).trans (Nat.le_succ _)
    have hroom : (step s op).counter + ops.length < 2 ^ 64 := by omega
    obtain ⟨hcount, hall⟩ := ih hobj.2 hroom hnext
    refine ⟨?_, hall⟩
    rw [run_cons, hcount, hcounter]
    omega

/-- **Optimistic concurrency control**: for all documents without a version above the counter's start, every sequence of writes
of well-formed documents under any keys and every further sequence, the check of what was read in between against what is there
at the end finds no conflict exactly if the document was not written after it was read. -/
theorem check_iff_unwritten (render : Json → CString) (doc : κ → Json) (ops later : List (Write κ))
    (hdoc : ∀ k, resourceVersionFromJson render (doc k) ≤ 1000) (hobj : ∀ op ∈ ops ++ later, Stampable op.obj)
    (hcount : 1000 + (ops ++ later).length < 2 ^ 64) : CheckExact render (run step ⟨1000, doc⟩ ops) later := by
  rw [List.length_append] at hcount
  have hobj₁ : ∀ op ∈ ops, Stampable op.obj := fun op hop => hobj op (List.mem_append_left _ hop)
  have hobj₂ : ∀ op ∈ later, Stampable op.obj := fun op hop => hobj op (List.mem_append_right _ hop)
  have hstart : (⟨1000, doc⟩ : Documents κ).counter + ops.length < 2 ^ 64 := by dsimp only; omega
  obtain ⟨hcounter, hle⟩ := counter_run hobj₁ hstart hdoc
  have hroom : (run step ⟨1000, doc⟩ ops).counter + later.length < 2 ^ 64 := by
    rw [hcounter]
    dsimp only
    omega
  intro k
  have hread := hle k
  unfold resourceVersionCheck
  obtain ⟨hnone, hsame⟩ | ⟨⟨op, hop, hkey⟩, hlt⟩ := version_run render hobj₂ hroom k
  · rw [hsame, if_neg (not_not.mpr rfl)]
    exact ⟨fun _ => hnone, fun _ => rfl⟩
  · rw [if_pos (by omega)]
    exact ⟨fun h => absurd h (by decide), fun h => absurd hkey (h op hop)⟩

/-- Two documents, of which one is written before and the other one after the read. -/
theorem check_iff_unwritten_two : CheckExact (fun _ => [])
    (run step ⟨1000, fun _ => .obj []⟩ [(⟨0, .obj []⟩ : Write Nat)]) [⟨1, .obj [("metadata", .obj [])]⟩] := by
  refine check_iff_unwritten (fun _ => []) (fun _ => .obj []) [⟨0, .obj []⟩] [⟨1, .obj [("metadata", .obj [])]⟩] ?_ ?_ (by decide)
  · intro k
    exact Nat.zero_le _
  · intro op hop
    obtain rfl | rfl := List.mem_pair.mp hop
    · exact ⟨[], rfl, fun _ h => by cases h⟩
    · refine ⟨_, rfl, fun metadata h => ⟨[], ?_⟩⟩
      simpa [Json.lookup] using h.symm

end VersionStamps

end Sirah.ApiServer
