import Mathlib.Data.List.Infix

/-!
# Searching a path for its segments

A path is a list of segments, each after a separator, and a query text after a stop byte:
`/seg/seg?query`. Code that has no parser for it looks for `/word` with `strstr` and goes on behind
the place it found. `after needle text` is the text behind the first occurrence of `needle`; the
segments say what it finds:

* **`after_segments`**: a search for `/word` passes over every segment that `word` does not begin, and
  `after_segment` stops at one that it does begin, inside the segment.
* **`after_segments_sep`**, `after_segment_sep`: a search for `/word/more` stops at a segment only if
  it is `word` itself.
-/

namespace Path

variable {α : Type*} {sep stop : α} {k r s t : List α}

/-! ## Segments -/

/-- The segments, each after a separator. -/
def join (sep : α) (segs : List (List α)) : List α := segs.flatMap (sep :: ·)

/-- A text without separators. -/
def Word (sep stop : α) (k : List α) : Prop := sep ∉ k ∧ stop ∉ k

instance [DecidableEq α] : Decidable (Word sep stop k) := inferInstanceAs (Decidable (_ ∧ _))

/-- A text that ends the segment before it. -/
def Delimits (sep stop : α) (t : List α) : Prop := ∀ c ∈ t.head?, c = sep ∨ c = stop

theorem delimits_nil : Delimits sep stop ([] : List α) := nofun

theorem delimits_sep : Delimits sep stop (sep :: t) := fun _ hc => .inl (Option.some.inj hc).symm

theorem delimits_stop : Delimits sep stop (stop :: t) := fun _ hc => .inr (Option.some.inj hc).symm

theorem delimits_join (ht : Delimits sep stop t) (segs : List (List α)) :
    Delimits sep stop (join sep segs ++ t) := by
  cases segs with
  | nil => exact ht
  | cons s segs => exact delimits_sep

theorem join_cons_append (sep : α) (s : List α) (segs : List (List α)) (t : List α) :
    join sep (s :: segs) ++ t = sep :: (s ++ (join sep segs ++ t)) := by
  simp [join]

theorem Word.tail {a : α} (h : Word sep stop (a :: k)) : Word sep stop k :=
  ⟨fun hm => h.1 (List.mem_cons_of_mem a hm), fun hm => h.2 (List.mem_cons_of_mem a hm)⟩

/-- A word cannot begin what ends a segment. -/
theorem Word.not_prefix {a : α} (h : Word sep stop (a :: k)) (ht : Delimits sep stop t) :
    ¬ a :: k <+: t := by
  rintro ⟨u, rfl⟩
  rcases ht a rfl with rfl | rfl
  · exact h.1 List.mem_cons_self
  · exact h.2 List.mem_cons_self

/-- **A word begins the text iff it begins the first segment.** -/
theorem prefix_append_iff (hk : Word sep stop k) (ht : Delimits sep stop t) :
    k <+: s ++ t ↔ k <+: s := by
  induction s generalizing k with
  | nil =>
    cases k with
    | nil => simp
    | cons a k => simp [hk.not_prefix ht]
  | cons c cs ih =>
    cases k with
    | nil => simp
    | cons a k => rw [List.cons_append, List.cons_prefix_cons, List.cons_prefix_cons, ih hk.tail]

/-- A word with a separator behind it begins the text iff it is the first segment. -/
theorem prefix_append_sep_iff (hk : Word sep stop k) (hs : sep ∉ s) (ht : Delimits sep stop t) :
    k ++ sep :: r <+: s ++ t ↔ s = k ∧ sep :: r <+: t := by
  induction s generalizing k with
  | nil =>
    cases k with
    | nil => simp
    | cons a k =>
      have hno : ¬ a :: (k ++ sep :: r) <+: t := fun h =>
        hk.not_prefix ht ((List.prefix_append (a :: k) (sep :: r)).trans h)
      simp [hno]
  | cons c cs ih =>
    have hc : c ≠ sep := fun hc => hs (hc ▸ List.mem_cons_self)
    have hcs : sep ∉ cs := fun hm => hs (List.mem_cons_of_mem c hm)
    cases k with
    | nil => simp [hc.symm]
    | cons a k =>
      rw [List.cons_append, List.cons_append, List.cons_prefix_cons, ih hk.tail hcs, List.cons.injEq,
        and_assoc, eq_comm]

/-! ## Searches -/

variable [DecidableEq α]

/-- The text behind the first occurrence of `needle`. -/
def after (needle : List α) : List α → Option (List α)
  | [] => if needle = [] then some [] else none
  | c :: cs => if needle <+: c :: cs then some ((c :: cs).drop needle.length) else after needle cs

theorem after_eq_none_iff {needle text : List α} : after needle text = none ↔ ¬ needle <:+: text := by
  induction text with
  | nil => simp [after]
  | cons c cs ih =>
    unfold after
    rw [List.infix_cons_iff]
    by_cases h : needle <+: c :: cs
    · simp [h]
    · simp [h, ih]

theorem after_append (h : sep ∉ s) : after (sep :: k) (s ++ t) = after (sep :: k) t := by
  induction s with
  | nil => rfl
  | cons c cs ih =>
    have hc : c ≠ sep := fun hc => h (hc ▸ List.mem_cons_self)
    rw [List.cons_append, after, if_neg fun hp => hc (List.cons_prefix_cons.mp hp).1.symm,
      ih fun hm => h (List.mem_cons_of_mem c hm)]

/-- **A search for `/word` at a segment.** -/
theorem after_segment (hk : Word sep stop k) (hs : sep ∉ s) (ht : Delimits sep stop t) :
    after (sep :: k) (sep :: (s ++ t)) =
      if k <+: s then some (s.drop k.length ++ t) else after (sep :: k) t := by
  have hiff : sep :: k <+: sep :: (s ++ t) ↔ k <+: s := by
    rw [List.cons_prefix_cons, prefix_append_iff hk ht]
    exact and_iff_right rfl
  rw [after, after_append hs]
  by_cases h : k <+: s
  · rw [if_pos (hiff.mpr h), if_pos h, List.length_cons, List.drop_succ_cons,
      List.drop_append_of_le_length h.length_le]
  · rw [if_neg (mt hiff.mp h), if_neg h]

/-- **A search for `/word/more` at a segment.** -/
theorem after_segment_sep (hk : Word sep stop k) (hs : sep ∉ s) (ht : Delimits sep stop t) :
    after (sep :: (k ++ sep :: r)) (sep :: (s ++ t)) =
      if s = k ∧ sep :: r <+: t then some (t.drop (r.length + 1))
      else after (sep :: (k ++ sep :: r)) t := by
  have hiff : sep :: (k ++ sep :: r) <+: sep :: (s ++ t) ↔ s = k ∧ sep :: r <+: t := by
    rw [List.cons_prefix_cons, prefix_append_sep_iff hk hs ht]
    exact and_iff_right rfl
  rw [after, after_append hs]
  by_cases h : s = k ∧ sep :: r <+: t
  · rw [if_pos (hiff.mpr h), if_pos h]
    obtain ⟨rfl, -⟩ := h
    simp [List.drop_append]
  · rw [if_neg (mt hiff.mp h), if_neg h]

/-- **A search for `/word` passes over the segments it does not begin.** -/
theorem after_segments (hk : Word sep stop k) (ht : Delimits sep stop t) {segs : List (List α)}
    (hs : ∀ s ∈ segs, sep ∉ s ∧ ¬ k <+: s) :
    after (sep :: k) (join sep segs ++ t) = after (sep :: k) t := by
  induction segs with
  | nil => rfl
  | cons s segs ih =>
    obtain ⟨hmem, hpre⟩ := hs s List.mem_cons_self
    rw [join_cons_append, after_segment hk hmem (delimits_join ht segs), if_neg hpre,
      ih fun s' hs' => hs s' (List.mem_cons_of_mem s hs')]

/-- **A search for `/word/more` passes over the other segments.** -/
theorem after_segments_sep (hk : Word sep stop k) (ht : Delimits sep stop t) {segs : List (List α)}
    (hs : ∀ s ∈ segs, sep ∉ s ∧ s ≠ k) :
    after (sep :: (k ++ sep :: r)) (join sep segs ++ t) = after (sep :: (k ++ sep :: r)) t := by
  induction segs with
  | nil => rfl
  | cons s segs ih =>
    obtain ⟨hmem, hne⟩ := hs s List.mem_cons_self
    rw [join_cons_append, after_segment_sep hk hmem (delimits_join ht segs), if_neg fun h => hne h.1,
      ih fun s' hs' => hs s' (List.mem_cons_of_mem s hs')]

end Path
