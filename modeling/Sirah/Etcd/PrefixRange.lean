import Sirah.Etcd.Manager

/-!
# The range of a prefix

`etcd_list` asks for the keys between the prefix and the prefix with its last byte incremented. There is no carry: a
last byte `0xFF` becomes the NUL that ends the string, and the range ends before it starts.

* `PrefixRange`: the range that is sent is the keys with the prefix.
* **`prefixRange_iff`**: it is **iff** the last byte of the prefix is not `0xFF`.
* `list_misses_prefix`: a prefix that ends in `0xFF` is not in its own range.
-/

namespace Sirah.Etcd

/-- **The range that is sent is the keys with the prefix.** -/
structure PrefixRange (pre : CString) : Prop where
  /-- Its end is the prefix with the last byte incremented. -/
  rangeEnd : ∃ (p : CString) (c c' : UInt8), pre = p ++ [c] ∧
    requestBytes (listRequest pre) "range_end" = p ++ [c'] ∧ c'.toNat = c.toNat + 1
  /-- A key is in the half-open range exactly if it starts with the prefix. -/
  keys : ∀ k : CString, ¬ k < requestBytes (listRequest pre) "key" ∧ k < requestBytes (listRequest pre) "range_end" ↔
    pre <+: k
  /-- And these are the keys that are answered. -/
  answered : ∀ (s : Server) (kv : Kv), kv ∈ s.range (requestBytes (listRequest pre) "key")
    (requestBytes (listRequest pre) "range_end") ↔ kv ∈ s.kvs ∧ pre <+: kv.key

variable {p : CString} {c : UInt8}

theorem rangeEnd_concat (hc : c ≠ 255) : rangeEnd (p ++ [c]) = p ++ [c + 1] := by
  simp only [rangeEnd, List.getLast?_concat, List.dropLast_concat]
  rw [if_neg hc]

theorem rangeEnd_overflow (p : CString) : rangeEnd (p ++ [255]) = p := by
  simp only [rangeEnd, List.getLast?_concat, List.dropLast_concat]
  exact if_pos trivial

theorem mem_range_iff (s : Server) (key stop : CString) (kv : Kv) :
    kv ∈ s.range key stop ↔ kv ∈ s.kvs ∧ Server.inRange key stop kv.key = true := by
  rw [(s.range_perm key stop).mem_iff, List.mem_filter]

theorem inRange_iff {key stop k : CString} (hstop : stop ≠ []) :
    Server.inRange key stop k = true ↔ ¬ k < key ∧ k < stop := by
  rw [Server.inRange, if_neg hstop, Bool.and_eq_true, decide_eq_true_eq, decide_eq_true_eq]

/-- **A range is its prefix, exactly** where the last byte can be incremented. -/
theorem prefixRange_iff (pre : CString) (hpre : pre ≠ []) : PrefixRange pre ↔ pre.getLast hpre ≠ 255 := by
  obtain ⟨p, c, rfl⟩ : ∃ p c, pre = p ++ [c] := ⟨_, _, (List.dropLast_append_getLast hpre).symm⟩
  rw [List.getLast_concat]
  constructor
  · rintro ⟨⟨p', c', c'', heq, hend, -⟩, -, -⟩ rfl
    -- the range ends with what is left of the prefix, which is shorter than the prefix
    rw [listRequest_rangeEnd, rangeEnd_overflow] at hend
    have hlength := congrArg List.length (hend ▸ heq)
    simp at hlength
  · intro hc
    have hend := rangeEnd_concat (p := p) hc
    have hnext : p ++ [c + 1] ≠ [] := List.append_ne_nil_of_right_ne_nil p (List.cons_ne_nil _ _)
    refine ⟨⟨p, c, c + 1, rfl, ?_, CString.toNat_succ hc⟩, fun k => ?_, fun s kv => ?_⟩
    · rw [listRequest_rangeEnd, hend]
    · rw [listRequest_key, listRequest_rangeEnd, hend]
      exact (CString.prefix_iff_range hc).symm
    · rw [listRequest_key, listRequest_rangeEnd, hend, mem_range_iff, inRange_iff hnext]
      exact and_congr_right' (CString.prefix_iff_range hc).symm

theorem pods_prefixRange : PrefixRange ("/sirah/pods/default/" : String) :=
  (prefixRange_iff _ (by decide)).mpr (by decide)

/-- **A prefix that is not in its own range.** -/
theorem list_misses_prefix : ¬ ∀ pre : CString, pre ≠ [] → PrefixRange pre := by
  intro h
  have hkeys := (h [47, 255] (List.cons_ne_nil _ _)).keys [47, 255]
  rw [listRequest_key, listRequest_rangeEnd] at hkeys
  exact absurd (hkeys.mpr List.prefix_rfl).2 (by decide)

end Sirah.Etcd
