import Sirah.Lib.CString

/-!
# Tokens of a C string

`strtok` skips delimiters, ends the token at the next one with a NUL, and goes on behind it. A token that nothing ends
is the last, and what lies behind its NUL is not part of the text.

`tokens_join`: the tokens of joined parts are the parts, each with the text behind it.
-/

namespace CString

/-- `strtok`: the token, and the text behind the delimiter that ended it. -/
def strtok (delim : UInt8) (s : CString) : Option (CString × Option CString) :=
  match s.dropWhile (· = delim) with
  | [] => none
  | c :: cs =>
    match strchr delim (c :: cs) with
    | none => some (c :: cs, none)
    | some (token, rest) => some (token, some rest)

/-- The tokens of at most `n` calls. -/
def tokens (delim : UInt8) : Nat → CString → List (CString × Option CString)
  | 0, _ => []
  | n + 1, s =>
    match strtok delim s with
    | none => []
    | some (token, none) => [(token, none)]
    | some (token, some rest) => (token, some rest) :: tokens delim n rest

variable {delim : UInt8}

/-- The only token. -/
theorem strtok_of_not_mem {s : CString} (hs : s ≠ []) (h : delim ∉ s) : strtok delim s = some (s, none) := by
  obtain ⟨c, cs, rfl⟩ := List.exists_cons_of_ne_nil hs
  have hc : c ≠ delim := fun hc => h (hc ▸ List.mem_cons_self)
  unfold strtok
  rw [List.dropWhile_cons_of_neg (by simpa using hc)]
  simp only [strchr_eq_none h]

/-- A token and what follows. -/
theorem strtok_append {s rest : CString} (hs : s ≠ []) (h : delim ∉ s) :
    strtok delim (s ++ delim :: rest) = some (s, some rest) := by
  obtain ⟨c, cs, rfl⟩ := List.exists_cons_of_ne_nil hs
  have hc : c ≠ delim := fun hc => h (hc ▸ List.mem_cons_self)
  unfold strtok
  rw [List.cons_append, List.dropWhile_cons_of_neg (by simpa using hc)]
  simp only [← List.cons_append, strchr_append h]

/-- Parts joined by the delimiter. -/
def join (delim : UInt8) : List CString → CString
  | [] => []
  | [p] => p
  | p :: q :: ps => p ++ delim :: join delim (q :: ps)

/-- Each part with the text behind it. -/
def withRest (delim : UInt8) : List CString → List (CString × Option CString)
  | [] => []
  | [p] => [(p, none)]
  | p :: q :: ps => (p, some (join delim (q :: ps))) :: withRest delim (q :: ps)

/-- **The tokens of joined parts.** -/
theorem tokens_join : ∀ {ps : List CString} {n : Nat}, ps.length ≤ n → (∀ p ∈ ps, p ≠ [] ∧ delim ∉ p) →
    tokens delim n (join delim ps) = withRest delim ps
  | [], 0, _, _ => rfl
  | [], n + 1, _, _ => rfl
  | [p], n + 1, _, h => by
    obtain ⟨hp, hno⟩ := h p List.mem_cons_self
    simp only [tokens, join, strtok_of_not_mem hp hno, withRest]
  | p :: q :: ps, n + 1, hn, h => by
    obtain ⟨hp, hno⟩ := h p List.mem_cons_self
    have hrest : tokens delim n (join delim (q :: ps)) = withRest delim (q :: ps) :=
      tokens_join (Nat.le_of_succ_le_succ hn) fun r hr => h r (List.mem_cons_of_mem p hr)
    simp only [tokens, join, strtok_append hp hno, withRest, hrest]

@[simp] theorem map_fst_withRest : ∀ ps : List CString, (withRest delim ps).map Prod.fst = ps
  | [] => rfl
  | [_] => rfl
  | p :: q :: ps => by rw [withRest, List.map_cons, map_fst_withRest (q :: ps)]

theorem length_le_length_join : ∀ {ps : List CString}, (∀ p ∈ ps, p ≠ []) → ps.length ≤ (join delim ps).length
  | [], _ => Nat.le_refl 0
  | [p], h => List.length_pos_of_ne_nil (h p List.mem_cons_self)
  | p :: q :: ps, h => by
    have hrest : (q :: ps).length ≤ (join delim (q :: ps)).length :=
      length_le_length_join fun r hr => h r (List.mem_cons_of_mem p hr)
    simp only [join, List.length_append, List.length_cons] at hrest ⊢
    omega

end CString
