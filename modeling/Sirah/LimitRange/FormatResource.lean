import Sirah.LimitRange.Quantity

/-!
# Printing a quantity

`limitrange_format_resource` of `internal/limitrange/limitrange.c` prints a number of bytes as a whole number of the
greatest of four units that fits, and `limitrange_parse_resource` reads the text back.

**`readsBack`**: what is read is the number rounded down to the unit printed. Nothing is cut off or wraps around: the
printed number times the unit is at most the number of bytes.
-/

namespace Sirah.LimitRange

open CString

/-- `limitrange_format_resource`. -/
def limitrangeFormatResource (bytes : UInt64) : CString :=
  if bytes < 1024 then snprintf 32 (ofNat bytes.toNat)
  else if bytes < 1024 * 1024 then snprintf 32 (ofNat (bytes / 1024).toNat ++ ofString "Ki")
  else if bytes < 1024 * 1024 * 1024 then snprintf 32 (ofNat (bytes / (1024 * 1024)).toNat ++ ofString "Mi")
  else snprintf 32 (ofNat (bytes / (1024 * 1024 * 1024)).toNat ++ ofString "Gi")

/-- **The number is read back up to less than one unit**, the one at the end of the text. -/
def ReadsBack (bytes : UInt64) : Prop :=
  ∃ (factor : Nat) (value : UInt64), (unit (limitrangeFormatResource bytes), factor) ∈ byteUnits ∧
    factor ∈ [1, 1024, 1024 ^ 2, 1024 ^ 3] ∧ limitrangeParseResource (limitrangeFormatResource bytes) = some value ∧
    value.toNat = bytes.toNat / factor * factor ∧ value.toNat ≤ bytes.toNat ∧ bytes.toNat < value.toNat + factor ∧
    (factor ∣ bytes.toNat → value = bytes)

variable {n factor : Nat} {u : CString} {bytes : UInt64}

/-- The units that are printed. -/
def printedUnits : List (CString × Nat) :=
  [(ofString "", 1), (ofString "Ki", 2 ^ 10), (ofString "Mi", 2 ^ 20), (ofString "Gi", 2 ^ 30)]

theorem printedUnits_subset (h : (u, factor) ∈ printedUnits) : (u, factor) ∈ byteUnits ∧ parsedFactor u = factor ∧
    factor ∈ [1, 1024, 1024 ^ 2, 1024 ^ 3] ∧ 0 < factor ∧ u.length ≤ 2 := by
  simp only [printedUnits, List.mem_cons, Prod.mk.injEq, List.not_mem_nil, or_false] at h
  rcases h with h | h | h | h <;> rw [h.1, h.2] <;> decide

/-- No unit starts with a digit or a point. -/
theorem printedUnits_head (h : (u, factor) ∈ printedUnits) :
    u.takeWhile isDigit = [] ∧ u.dropWhile isDigit = u ∧ u.head? ≠ some 46 := by
  simp only [printedUnits, List.mem_cons, Prod.mk.injEq, List.not_mem_nil, or_false] at h
  rcases h with h | h | h | h <;> rw [h.1] <;> decide

theorem isDigit_of_mem_ofNat {c : UInt8} (h : c ∈ ofNat n) : isDigit c = true := by
  obtain ⟨hlo, hhi⟩ := mem_ofNat h
  simpa [isDigit, UInt8.le_iff_toNat_le] using ⟨hlo, hhi⟩

/-- The parts of a number that is printed with a unit. -/
theorem printed_parts (n : Nat) (h : (u, factor) ∈ printedUnits) :
    wholePart (ofNat n ++ u) = ofNat n ∧ unit (ofNat n ++ u) = u := by
  have hdigit : ∀ c ∈ ofNat n, isDigit c = true := fun c hc => isDigit_of_mem_ofNat hc
  obtain ⟨htake, hdrop, hpoint⟩ := printedUnits_head h
  have hafter : afterWhole (ofNat n ++ u) = u := by
    unfold afterWhole
    rw [List.dropWhile_append_of_pos hdigit, hdrop]
  refine ⟨?_, ?_⟩
  · unfold wholePart
    rw [List.takeWhile_append_of_pos hdigit, htake, List.append_nil]
  · unfold unit
    rw [hafter, if_neg hpoint]

/-- **A number that is printed with a unit** is read back, times the unit. -/
theorem parse_printed (h : (u, factor) ∈ printedUnits) (hfit : n * factor < 2 ^ 64) :
    ∃ value, limitrangeParseResource (ofNat n ++ u) = some value ∧ value.toNat = n * factor := by
  obtain ⟨hunit, hparsed, -, hpos, -⟩ := printedUnits_subset h
  obtain ⟨hwhole, hrest⟩ := printed_parts n h
  have hscan : scanLu (ofNat n ++ u) = some (saturated n) := by
    have hdecimal : decimal (ofNat n) = n := foldl_ofNat n
    rw [scanLu_of_digit (by rw [hwhole]; exact ofNat_ne_nil n), hwhole, hdecimal]
  rw [← hrest] at hunit
  refine ⟨saturated n * UInt64.ofNat factor, ?_, toNat_saturated_mul hpos hfit⟩
  rw [limitrangeParseResource_eq hunit, hscan, hrest, hparsed, Option.map_some]

/-- The buffer is long enough. -/
theorem snprintf_printed (h : (u, factor) ∈ printedUnits) (hn : n < 2 ^ 64) :
    snprintf 32 (ofNat n ++ u) = ofNat n ++ u := by
  have hlength : (ofNat n).length ≤ 20 := (length_ofNat_le_iff (by decide)).mpr (hn.trans (by decide))
  obtain ⟨-, -, -, -, hunit⟩ := printedUnits_subset h
  exact snprintf_of_lt (by rw [List.length_append]; omega)

/-- **What is printed**: a whole number of one of the units. -/
theorem limitrangeFormatResource_cases (bytes : UInt64) : ∃ u factor, (u, factor) ∈ printedUnits ∧
    limitrangeFormatResource bytes = ofNat (bytes.toNat / factor) ++ u := by
  have hle : ∀ k, bytes.toNat / k < 2 ^ 64 := fun k => (Nat.div_le_self _ k).trans_lt bytes.toNat_lt
  have hprint : ∀ u factor, (u, factor) ∈ printedUnits → ∀ q : UInt64, q.toNat = bytes.toNat / factor →
      snprintf 32 (ofNat q.toNat ++ u) = ofNat (bytes.toNat / factor) ++ u := by
    intro u factor h q hq
    rw [hq, snprintf_printed h (hle factor)]
  unfold limitrangeFormatResource
  split
  · have hnone : ([], 1) ∈ printedUnits := by decide
    have hdiv := hprint [] 1 hnone bytes (Nat.div_one _).symm
    rw [List.append_nil] at hdiv
    exact ⟨[], 1, hnone, hdiv⟩
  split
  · have hKi : (ofString "Ki", 2 ^ 10) ∈ printedUnits := by decide
    exact ⟨_, 2 ^ 10, hKi, hprint _ _ hKi _ (UInt64.toNat_div bytes 1024)⟩
  split
  · have hMi : (ofString "Mi", 2 ^ 20) ∈ printedUnits := by decide
    exact ⟨_, 2 ^ 20, hMi, hprint _ _ hMi _ (UInt64.toNat_div bytes (1024 * 1024))⟩
  · have hGi : (ofString "Gi", 2 ^ 30) ∈ printedUnits := by decide
    exact ⟨_, 2 ^ 30, hGi, hprint _ _ hGi _ (UInt64.toNat_div bytes (1024 * 1024 * 1024))⟩

/-- **Less than one unit is lost.** -/
theorem readsBack (bytes : UInt64) : ReadsBack bytes := by
  obtain ⟨u, factor, h, hprinted⟩ := limitrangeFormatResource_cases bytes
  obtain ⟨hunit, -, hfactor, hpos, -⟩ := printedUnits_subset h
  have hle : bytes.toNat / factor * factor ≤ bytes.toNat := Nat.div_mul_le_self bytes.toNat factor
  obtain ⟨value, hparse, hvalue⟩ := parse_printed h (hle.trans_lt bytes.toNat_lt)
  refine ⟨factor, value, ?_, hfactor, ?_, hvalue, ?_, ?_, fun hdvd => ?_⟩
  · rw [hprinted, (printed_parts _ h).2]
    exact hunit
  · rw [hprinted, hparse]
  · rw [hvalue]
    exact hle
  · rw [hvalue]
    exact Nat.lt_div_mul_add hpos
  · rw [← UInt64.toNat_inj, hvalue, Nat.div_mul_cancel hdvd]

end Sirah.LimitRange
