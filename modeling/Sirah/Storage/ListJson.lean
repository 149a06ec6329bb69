import Sirah.Storage.ClaimMatching

/-!
# The JSON list of the volumes

Model of `pv_format_list_json` (`sirah/internal/storage/persistent_volume.c`): its calls of `snprintf`, each
with the offset it writes at and the text it formats. The size argument of a call is `buffer_size` less the
offset.

* `snprintf` returns the length of the whole text, also where it writes less: a record that does not fit
  takes the offset past the end, and the closing bracket is written there.
* The loop stops when 50 bytes or less are left. A record can be longer than that.

**`offsets_within_iff`**: no offset is past the end **iff** every record that finds more than 50 bytes left
fits.
-/

namespace Sirah.Storage

/-- A call of `snprintf`. -/
structure Write where
  offset : Int
  text : CString
  deriving DecidableEq, Repr

/-- `phase_str`. -/
def phaseStr : PvPhase → CString
  | .available => "Available"
  | .bound => "Bound"
  | .released => "Released"
  | .failed => "Failed"
  | .pending => "Pending"
  | .other _ => ""

/-- The record of a volume. -/
def recordText (v : SizedVolume) : CString :=
  "\x7b\"name\":\"" ++ v.name ++ "\",\"capacity\":" ++ CString.ofInt v.capacityBytes ++ ",\"phase\":\"" ++
    phaseStr v.phase ++ "\"\x7d"

/-- The loop of `pv_format_list_json` over the volumes left: its calls, and the offset it ends with. -/
def listLoop (bufferSize : Int) : List SizedVolume → (isFirst : Bool) → Int → List Write × Int
  | [], _, offset => ([], offset)
  | v :: vs, isFirst, offset =>
    if offset < bufferSize - 50 then
      let comma : List Write := if isFirst then [] else [⟨offset, ","⟩]
      let start := if isFirst then offset else offset + 1
      let rest := listLoop bufferSize vs false (start + (recordText v).length)
      (comma ++ ⟨start, recordText v⟩ :: rest.1, rest.2)
    else ([], offset)

/-- `pv_format_list_json`: the code and the calls of `snprintf`. -/
def pvFormatListJson (s : List SizedVolume) (bufferSize : Int) : Int × List Write :=
  if bufferSize < 100 then (-1, [])
  else
    let (calls, offset) := listLoop bufferSize s true 1
    (0, ⟨0, "["⟩ :: calls ++ [⟨offset, "]"⟩])

/-- **No call writes past the end**: the offsets are within the buffer, and no size argument is negative. -/
def OffsetsWithin (s : List SizedVolume) (bufferSize : Int) : Prop :=
  ∀ w ∈ (pvFormatListJson s bufferSize).2, w.offset ≤ bufferSize

/-! ## The text -/

/-- The records, with a comma before each but the first of the list. -/
def entries (isFirst : Bool) : List SizedVolume → CString
  | [] => []
  | v :: vs => (if isFirst then [] else ",") ++ recordText v ++ entries false vs

/-- The text of the list, up to its closing bracket. -/
def listed (vs : List SizedVolume) : CString := "[" ++ entries true vs

theorem length_listed (vs : List SizedVolume) : (listed vs).length = 1 + (entries true vs).length := by
  rw [listed, List.length_append]
  rfl

/-- The first record of a text. -/
theorem length_entries_cons (isFirst : Bool) (v : SizedVolume) (vs : List SizedVolume) :
    (entries isFirst (v :: vs)).length =
      (if isFirst then 0 else 1) + (recordText v).length + (entries false vs).length := by
  rw [entries, List.length_append, List.length_append]
  cases isFirst <;> rfl

/-- **A record that starts with more than 50 bytes left fits**, counted from an offset. -/
def FitsFrom (bufferSize : Int) (vs : List SizedVolume) (isFirst : Bool) (offset : Int) : Prop :=
  ∀ pre v post, vs = pre ++ v :: post → offset + (entries isFirst pre).length < bufferSize - 50 →
    offset + (entries isFirst (pre ++ [v])).length ≤ bufferSize

section Loop

variable {bufferSize : Int} {v : SizedVolume} {vs : List SizedVolume} {isFirst : Bool} {offset : Int}

/-- Where 50 bytes or less are left nothing more is asked. -/
theorem fitsFrom_of_full (h : ¬ offset < bufferSize - 50) : FitsFrom bufferSize vs isFirst offset := by
  intro pre v post _ hroom
  omega

/-- One record more. -/
theorem fitsFrom_cons (h : offset < bufferSize - 50) : FitsFrom bufferSize (v :: vs) isFirst offset ↔
    offset + (entries isFirst [v]).length ≤ bufferSize ∧
      FitsFrom bufferSize vs false (offset + (entries isFirst [v]).length) := by
  have hone : (entries isFirst [v]).length = (if isFirst then 0 else 1) + (recordText v).length :=
    length_entries_cons isFirst v []
  constructor
  · intro hfits
    refine ⟨hfits [] v vs rfl (by simpa [entries] using h), ?_⟩
    intro pre u post heq hroom
    have hnext := hfits (v :: pre) u post (by rw [heq, List.cons_append])
    rw [List.cons_append, length_entries_cons, length_entries_cons, ← hone] at hnext
    omega
  · rintro ⟨hfirst, hrest⟩ pre u post heq hroom
    cases pre with
    | nil =>
      obtain ⟨rfl, -⟩ := List.cons.inj heq
      exact hfirst
    | cons w pre =>
      rw [List.cons_append] at heq
      obtain ⟨rfl, rfl⟩ := List.cons.inj heq
      have hnext := hrest pre u post rfl
      rw [List.cons_append, length_entries_cons, ← hone]
      rw [length_entries_cons, ← hone] at hroom
      omega

/-- **The loop**: its offsets and the one it ends with are within the buffer exactly if the records fit. -/
theorem listLoop_within_iff (hoffset : offset ≤ bufferSize) :
    ((∀ w ∈ (listLoop bufferSize vs isFirst offset).1, w.offset ≤ bufferSize) ∧
      (listLoop bufferSize vs isFirst offset).2 ≤ bufferSize) ↔ FitsFrom bufferSize vs isFirst offset := by
  induction vs generalizing isFirst offset with
  | nil =>
    refine iff_of_true ⟨List.forall_mem_nil _, hoffset⟩ ?_
    intro pre v post heq
    cases pre <;> cases heq
  | cons v vs ih =>
    by_cases hroom : offset < bufferSize - 50
    · have hone : (entries isFirst [v]).length = (if isFirst then 0 else 1) + (recordText v).length :=
        length_entries_cons isFirst v []
      have hstart : (if isFirst then offset else offset + 1) + (recordText v).length =
          offset + (entries isFirst [v]).length := by
        rw [hone]
        split <;> omega
      have hwrites : ∀ w ∈ (if isFirst then [] else [⟨offset, ","⟩] : List Write) ++
          [⟨if isFirst then offset else offset + 1, recordText v⟩], w.offset ≤ bufferSize := by
        intro w hw
        cases isFirst with
        | true =>
          cases List.mem_singleton.mp hw
          exact hoffset
        | false =>
          rcases List.mem_pair.mp hw with rfl | rfl
          · exact hoffset
          · show offset + 1 ≤ bufferSize
            omega
      rw [fitsFrom_cons hroom]
      unfold listLoop
      rw [if_pos hroom]
      dsimp only
      rw [hstart, List.append_cons, List.forall_mem_append, and_iff_right hwrites]
      by_cases hfits : offset + (entries isFirst [v]).length ≤ bufferSize
      · rw [and_iff_right hfits]
        exact ih hfits
      · -- the offset stays past the end
        refine iff_of_false ?_ fun h => hfits h.1
        rintro ⟨-, hend⟩
        cases vs with
        | nil => exact hfits hend
        | cons u us =>
          rw [listLoop, if_neg (by omega)] at hend
          exact hfits hend
    · unfold listLoop
      rw [if_neg hroom]
      exact iff_of_true ⟨List.forall_mem_nil _, hoffset⟩ (fitsFrom_of_full hroom)

end Loop

/-- **No offset is past the end of the buffer**, exactly if every record that finds more than 50 bytes left
fits into it. -/
theorem offsets_within_iff (s : List SizedVolume) {bufferSize : Int} (hsize : 100 ≤ bufferSize) :
    OffsetsWithin s bufferSize ↔
      ∀ pre v post, s = pre ++ v :: post → (listed pre).length < bufferSize - 50 →
        (listed (pre ++ [v])).length ≤ bufferSize := by
  have hloop : ((∀ w ∈ (listLoop bufferSize s true 1).1, w.offset ≤ bufferSize) ∧
      (listLoop bufferSize s true 1).2 ≤ bufferSize) ↔ FitsFrom bufferSize s true 1 :=
    listLoop_within_iff (by omega)
  have hfits : FitsFrom bufferSize s true 1 ↔ ∀ pre v post, s = pre ++ v :: post →
      (listed pre).length < bufferSize - 50 → (listed (pre ++ [v])).length ≤ bufferSize := by
    simp only [FitsFrom, length_listed, Int.natCast_add, Int.natCast_one]
  rw [← hfits, ← hloop]
  unfold OffsetsWithin pvFormatListJson
  rw [if_neg (by omega)]
  dsimp only
  rw [List.forall_mem_append, List.forall_mem_cons, List.forall_mem_singleton]
  have hzero : (0 : Int) ≤ bufferSize := by omega
  rw [and_iff_right hzero]

/-- One record of 57 bytes. -/
theorem short_record_within : OffsetsWithin [gibibyte] 100 := by
  refine (offsets_within_iff [gibibyte] (by decide)).mpr ?_
  intro pre v post heq _
  cases pre with
  | nil =>
    obtain ⟨rfl, -⟩ := List.cons.inj heq
    decide +kernel
  | cons u pre =>
    have hnil := (List.cons.inj heq).2
    cases pre <;> cases hnil

/-- A volume with a name of 100 letters. -/
def longNamed : SizedVolume where
  toPersistentVolume := namedPv (List.replicate 100 97)
  capacityBytes := 2 ^ 30
  accessModes := 1
  name_lt := by decide

/-- The list of one volume with a long name is closed behind the buffer. -/
theorem closed_behind_buffer : ¬ OffsetsWithin [longNamed] 100 := by
  unfold OffsetsWithin
  decide +kernel

end Sirah.Storage
