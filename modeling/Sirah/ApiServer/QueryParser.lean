import Sirah.Lib.Json
import Sirah.Lib.PercentEncoding
import Sirah.Lib.Strtok

/-!
# The query string of a list

Model of `url_decode`, `parse_list_query` and `apply_list_limits` in `internal/apiserver/query_parser.c`; the selectors of
the same file are in `Sirah.ApiServer.Selectors`.

`url_decode` works in its buffer: it reads at one offset and writes at another that does not overtake it.

* `urlDecodeLoop_spec`: the string that is left in the buffer is that of `decodeText`; `decodeText_encode`: it undoes
  the encoding.
* **`parse_encoded`**: parameters with encoded values are stored as they are.
* **`pages_partition_iff`**: the pages of an array are its parts **iff** one page has room for all of it;
  `second_page_repeats`.
-/

namespace Sirah.ApiServer

open CString PercentEncoding

/-! ## Decoding -/

/-- The string at an offset of a buffer. -/
def stringAt (buffer : List UInt8) (i : Nat) : CString := (buffer.drop i).takeWhile (· ≠ 0)

/-- The value of a hexadecimal digit. -/
def hexValue (c : UInt8) : Option Nat :=
  if 48 ≤ c && c ≤ 57 then some (c.toNat - 48)
  else if 65 ≤ c && c ≤ 70 then some (c.toNat - 55)
  else if 97 ≤ c && c ≤ 102 then some (c.toNat - 87)
  else none

/-- The number that the digits at the start of a text are, 0 if there are none. -/
def hexNumber (n : Nat) : CString → Nat
  | [] => n
  | c :: s =>
    match hexValue c with
    | none => n
    | some d => hexNumber (n * 16 + d) s

/-- `sscanf(s, "%2x", &val)` into a `val` that is 0: blanks, and two bytes of sign and digits. After `0x` there is no digit
left to read. -/
def scanHex (s : CString) : Int :=
  match (s.dropWhile fun c => c = 32 || (9 ≤ c && c ≤ 13)).take 2 with
  | 45 :: digits => -(hexNumber 0 digits : Int)
  | 43 :: digits => hexNumber 0 digits
  | digits => hexNumber 0 digits

/-- The loop of `url_decode`. -/
def urlDecodeLoop : Nat → List UInt8 → Nat → Nat → List UInt8
  | 0, str, _, _ => str
  | n + 1, str, src, dst =>
    match stringAt str src with
    | [] => str.set dst 0
    | 37 :: a :: b :: rest => urlDecodeLoop n (str.set dst (UInt8.ofInt (scanHex (a :: b :: rest)))) (src + 3) (dst + 1)
    | c :: _ => urlDecodeLoop n (str.set dst c) (src + 1) (dst + 1)

/-- `url_decode`: no more bytes than the buffer has are read. -/
def urlDecode (str : List UInt8) : List UInt8 := urlDecodeLoop (str.length + 1) str 0 0

/-- The bytes that `url_decode` writes for a text. -/
def decodeText : CString → CString
  | [] => []
  | 37 :: a :: b :: rest => UInt8.ofInt (scanHex (a :: b :: rest)) :: decodeText rest
  | c :: rest => c :: decodeText rest

variable {s v : CString} {out gap tail : List UInt8} {c : UInt8}

theorem stringAt_append (h : 0 ∉ s) (before tail : List UInt8) :
    stringAt (before ++ (s ++ 0 :: tail)) before.length = s := by
  have hne : ∀ a ∈ s, decide (a ≠ 0) = true := fun a ha => decide_eq_true fun h0 => h (h0 ▸ ha)
  rw [stringAt, List.drop_left, List.takeWhile_append_of_pos hne, List.takeWhile_cons_of_neg (by decide), List.append_nil]

/-- A byte is written where the gap between the two offsets, or the text, starts. -/
theorem set_gap (out gap rest : List UInt8) (b c : UInt8) :
    ∃ gap', (out ++ (gap ++ b :: rest)).set out.length c = (out ++ [c]) ++ (gap' ++ rest) ∧ gap'.length = gap.length := by
  cases gap with
  | nil => exact ⟨[], by simp, rfl⟩
  | cons g gap => exact ⟨gap ++ [b], by simp, by simp⟩

/-- **One byte of the text**: the loop goes on with a wider gap. -/
theorem urlDecodeLoop_byte (out gap tail : List UInt8) (n : Nat) (hs : 0 ∉ c :: s)
    (hplain : ∀ a b rest, c :: s ≠ 37 :: a :: b :: rest) :
    ∃ gap', urlDecodeLoop (n + 1) (out ++ (gap ++ (c :: s ++ 0 :: tail))) (out ++ gap).length out.length =
        urlDecodeLoop n ((out ++ [c]) ++ (gap' ++ (s ++ 0 :: tail))) ((out ++ [c]) ++ gap').length (out ++ [c]).length ∧
      gap'.length = gap.length := by
  obtain ⟨gap', hset, hlen⟩ := set_gap out gap (s ++ 0 :: tail) c c
  refine ⟨gap', ?_, hlen⟩
  have hat : stringAt (out ++ (gap ++ (c :: s ++ 0 :: tail))) (out ++ gap).length = c :: s := by
    rw [← List.append_assoc]
    exact stringAt_append hs (out ++ gap) tail
  have hsrc : ((out ++ [c]) ++ gap').length = (out ++ gap).length + 1 := by
    simp only [List.length_append, List.length_singleton, hlen]
    omega
  have hdst : (out ++ [c]).length = out.length + 1 := List.length_append
  rw [urlDecodeLoop, hat, hsrc, hdst, ← hset]
  split
  · next heq => cases heq
  · next a b rest heq => exact absurd heq (hplain a b rest)
  · next heq =>
    cases heq
    rfl

/-- **An escape**: three bytes are read for the one that is written. -/
theorem urlDecodeLoop_escape (out gap tail : List UInt8) (n : Nat) (a b : UInt8) (hs : 0 ∉ 37 :: a :: b :: s) :
    ∃ gap', urlDecodeLoop (n + 1) (out ++ (gap ++ (37 :: a :: b :: s ++ 0 :: tail))) (out ++ gap).length out.length =
      urlDecodeLoop n ((out ++ [UInt8.ofInt (scanHex (a :: b :: s))]) ++ (gap' ++ (s ++ 0 :: tail)))
        ((out ++ [UInt8.ofInt (scanHex (a :: b :: s))]) ++ gap').length
        (out ++ [UInt8.ofInt (scanHex (a :: b :: s))]).length := by
  obtain ⟨gap', hset, hlen⟩ := set_gap out gap (a :: b :: s ++ 0 :: tail) 37 (UInt8.ofInt (scanHex (a :: b :: s)))
  refine ⟨gap' ++ [a, b], ?_⟩
  have hat : stringAt (out ++ (gap ++ (37 :: a :: b :: s ++ 0 :: tail))) (out ++ gap).length = 37 :: a :: b :: s := by
    rw [← List.append_assoc]
    exact stringAt_append hs (out ++ gap) tail
  have hsrc : ((out ++ [UInt8.ofInt (scanHex (a :: b :: s))]) ++ (gap' ++ [a, b])).length =
      (out ++ gap).length + 3 := by
    simp only [List.length_append, List.length_cons, List.length_nil, hlen]
    omega
  have hdst : (out ++ [UInt8.ofInt (scanHex (a :: b :: s))]).length = out.length + 1 := List.length_append
  have hrest : (gap' ++ [a, b]) ++ (s ++ 0 :: tail) = gap' ++ (a :: b :: s ++ 0 :: tail) := by
    rw [List.append_assoc]
    rfl
  rw [urlDecodeLoop, hat, hsrc, hdst, hrest, ← hset]
  rfl

/-- **What the loop leaves**: behind the bytes written so far, those of the text. -/
theorem urlDecodeLoop_spec (out gap : List UInt8) {n : Nat} (hs : 0 ∉ s) (hn : s.length < n) :
    stringAt (urlDecodeLoop n (out ++ (gap ++ (s ++ 0 :: tail))) (out ++ gap).length out.length) 0 =
      (out ++ decodeText s).takeWhile (· ≠ 0) := by
  induction s using decodeText.induct generalizing n out gap with
  | case1 =>
    obtain ⟨n, rfl⟩ := Nat.exists_eq_add_of_lt hn
    obtain ⟨gap', hset, -⟩ := set_gap out gap tail 0 0
    have hat : stringAt (out ++ (gap ++ ([] ++ 0 :: tail))) (out ++ gap).length = [] := by
      rw [← List.append_assoc]
      exact stringAt_append hs (out ++ gap) tail
    rw [urlDecodeLoop, hat, decodeText, List.append_nil]
    dsimp only
    rw [List.nil_append, hset, stringAt, List.drop_zero, List.append_assoc, List.takeWhile_append]
    split
    · next hlen =>
      rw [List.singleton_append, List.takeWhile_cons_of_neg (by decide), List.append_nil]
      exact (List.IsPrefix.eq_of_length (List.takeWhile_prefix _) hlen).symm
    · rfl
  | case2 a b rest ih =>
    obtain ⟨n, rfl⟩ := Nat.exists_eq_add_of_lt (Nat.zero_lt_of_lt hn)
    obtain ⟨gap', hloop⟩ := urlDecodeLoop_escape out gap tail (0 + n) a b hs
    have hrest : 0 ∉ rest := fun h => hs (List.mem_cons_of_mem _ (List.mem_cons_of_mem _ (List.mem_cons_of_mem _ h)))
    rw [hloop, ih _ _ hrest (by simp only [List.length_cons] at hn; omega), decodeText, List.append_assoc,
      List.singleton_append]
  | case3 c rest hplain ih =>
    obtain ⟨n, rfl⟩ := Nat.exists_eq_add_of_lt (Nat.zero_lt_of_lt hn)
    have hother : ∀ a b more, c :: rest ≠ 37 :: a :: b :: more := by
      intro a b more heq
      obtain ⟨hc, hrest⟩ := List.cons.inj heq
      exact hplain a b more hc hrest
    obtain ⟨gap', hloop, -⟩ := urlDecodeLoop_byte out gap tail (0 + n) hs hother
    have hrest : 0 ∉ rest := fun h => hs (List.mem_cons_of_mem _ h)
    rw [hloop, ih _ _ hrest (by simp only [List.length_cons] at hn; omega), decodeText, List.append_assoc,
      List.singleton_append]
    exact hplain

/-- **What is decoded in place** is the decoded text, up to the first NUL in it. -/
theorem stringAt_urlDecode (hs : 0 ∉ s) (tail : List UInt8) :
    stringAt (urlDecode (s ++ 0 :: tail)) 0 = (decodeText s).takeWhile (· ≠ 0) := by
  have hlen : s.length < (s ++ 0 :: tail).length + 1 := by
    rw [List.length_append]
    omega
  exact urlDecodeLoop_spec [] [] hs hlen

theorem decodeText_cons (hplain : ∀ a b rest, c :: s ≠ 37 :: a :: b :: rest) :
    decodeText (c :: s) = c :: decodeText s := by
  rw [decodeText]
  intro a b rest hc hs
  exact hplain a b rest (by rw [hc, hs])

/-- Two digits read back. -/
theorem scanHex_hexDigit : ∀ hi < 16, ∀ lo < 16, ∀ s : CString,
    scanHex (hexDigit hi :: hexDigit lo :: s) = (hi * 16 + lo : Nat) := by
  have hdigit : ∀ n < 16, hexValue (hexDigit n) = some n := by decide
  have hblank : ∀ n < 16, (hexDigit n = 32 || (9 ≤ hexDigit n && hexDigit n ≤ 13)) = false := by decide
  have hsign : ∀ n < 16, hexDigit n ≠ 45 ∧ hexDigit n ≠ 43 := by decide
  intro hi hhi lo hlo s
  have hnumber : hexNumber 0 [hexDigit hi, hexDigit lo] = hi * 16 + lo := by
    simp only [hexNumber, hdigit hi hhi, hdigit lo hlo, Nat.zero_mul, Nat.zero_add]
  unfold scanHex
  rw [List.dropWhile_cons_of_neg (by rw [hblank hi hhi]; decide)]
  simp only [List.take_succ_cons, List.take_zero]
  split
  · next heq => exact absurd (List.cons.inj heq).1 (hsign hi hhi).1
  · next heq => exact absurd (List.cons.inj heq).1 (hsign hi hhi).2
  · rw [hnumber]

/-- An encoded byte is decoded. -/
theorem decodeText_encodeByte (c : UInt8) (s : CString) : decodeText (encodeByte c ++ s) = c :: decodeText s := by
  unfold encodeByte
  split
  · next hc =>
    refine decodeText_cons fun a b rest heq => ?_
    rw [(List.cons.inj heq).1] at hc
    exact absurd hc (by decide)
  · have hlt := c.toNat_lt
    have hbyte : UInt8.ofInt (scanHex (hexDigit (c.toNat / 16) :: hexDigit (c.toNat % 16) :: s)) = c := by
      have hmod : ((c.toNat : Int) % 2 ^ 8).toNat = c.toNat := by omega
      rw [scanHex_hexDigit _ (by omega) _ (by omega), Nat.div_add_mod' c.toNat 16, UInt8.ofInt, hmod, UInt8.ofNat_toNat]
    rw [List.cons_append, List.cons_append, List.cons_append, List.nil_append, decodeText, hbyte]

/-- **Decoding undoes the encoding.** -/
theorem decodeText_encode (v : CString) : decodeText (encode v) = v := by
  induction v with
  | nil => rfl
  | cons c v ih => rw [encode_cons, decodeText_encodeByte, ih]

/-! ## Parameters -/

/-- `list_query_params_t`. -/
structure ListQueryParams where
  labelSelector : CString
  fieldSelector : CString
  limit : Int
  continueToken : CString
  timeoutSeconds : Int
  allowWatchBookmarks : Bool
  deriving DecidableEq

/-- The parameters before the query string is read. -/
def defaultParams : ListQueryParams := ⟨[], [], 500, [], 30, false⟩

/-- `value_decoded`: zeros, then at most 511 bytes of the value, decoded. -/
def valueDecoded (value : CString) : CString :=
  stringAt (urlDecode (value.take 511 ++ List.replicate (512 - (value.take 511).length) 0)) 0

/-- One parameter. A field is copied behind zeros, at most all but its last byte. -/
def setParam (params : ListQueryParams) (key value : CString) : ListQueryParams :=
  if key = ("labelSelector" : String) then { params with labelSelector := snprintf 512 value }
  else if key = ("fieldSelector" : String) then { params with fieldSelector := snprintf 512 value }
  else if key = ("limit" : String) then { params with limit := if atoi value ≤ 0 then 500 else atoi value }
  else if key = ("continue" : String) then { params with continueToken := snprintf 256 value }
  else if key = ("timeoutSeconds" : String) then { params with timeoutSeconds := atoi value }
  else if key = ("allowWatchBookmarks" : String) then
    { params with allowWatchBookmarks := decide (value = ("true" : String)) }
  else params

/-- The body of the loop over the tokens. -/
def parseToken (params : ListQueryParams) (token : CString) : ListQueryParams :=
  match strchr 61 token with
  | none => params
  | some (key, value) => setParam params key (valueDecoded value)

/-- `parse_list_query`, which returns 0. -/
def parseListQuery : Option CString → ListQueryParams
  | none => defaultParams
  | some queryString => ((tokens 38 (queryString.length + 1) queryString).map Prod.fst).foldl parseToken defaultParams

/-- **A value that is not cut is stored** as what it encodes. -/
theorem valueDecoded_encode (hv : 0 ∉ v) (hlen : (encode v).length ≤ 511) : valueDecoded (encode v) = v := by
  have hzeros : List.replicate (512 - (encode v).length) (0 : UInt8) =
      0 :: List.replicate (511 - (encode v).length) 0 := by
    rw [← List.replicate_succ]
    congr 1
    omega
  have hall : ∀ a ∈ v, decide (a ≠ 0) = true := fun a ha => decide_eq_true fun h0 => hv (h0 ▸ ha)
  rw [valueDecoded, List.take_of_length_le hlen, hzeros,
    stringAt_urlDecode (notMem_encode (by decide) (by decide) v), decodeText_encode,
    List.takeWhile_eq_self_iff.mpr hall]

/-- The parameters that are texts. -/
inductive TextKey where
  | labelSelector
  | fieldSelector
  | continueToken
  deriving DecidableEq

namespace TextKey

def name : TextKey → CString
  | .labelSelector => ("labelSelector" : String)
  | .fieldSelector => ("fieldSelector" : String)
  | .continueToken => ("continue" : String)

/-- What the field has room for. -/
def room : TextKey → Nat
  | .labelSelector => 511
  | .fieldSelector => 511
  | .continueToken => 255

/-- The field. -/
def get (params : ListQueryParams) : TextKey → CString
  | .labelSelector => params.labelSelector
  | .fieldSelector => params.fieldSelector
  | .continueToken => params.continueToken

/-- `key=enc(value)`. -/
def text (p : TextKey × CString) : CString := p.1.name ++ 61 :: encode p.2

end TextKey

/-- The query string of a list of parameters. -/
def queryText (ps : List (TextKey × CString)) : CString := join 38 (ps.map TextKey.text)

/-- A value that fits its field. -/
structure FitsField (p : TextKey × CString) : Prop where
  nul : 0 ∉ p.2
  length : (encode p.2).length ≤ p.1.room

variable {params : ListQueryParams} {key : TextKey} {ps : List (TextKey × CString)} {p : TextKey × CString}

theorem get_setParam (params : ListQueryParams) (key k : TextKey) (value : CString) :
    k.get (setParam params key.name value) = if k = key then snprintf (key.room + 1) value else k.get params := by
  cases key with
  | labelSelector =>
    have hset : setParam params ("labelSelector" : String) value =
        { params with labelSelector := snprintf 512 value } := if_pos rfl
    rw [TextKey.name, hset]
    cases k <;> rfl
  | fieldSelector =>
    have hset : setParam params ("fieldSelector" : String) value =
        { params with fieldSelector := snprintf 512 value } := (if_neg (by decide)).trans (if_pos rfl)
    rw [TextKey.name, hset]
    cases k <;> rfl
  | continueToken =>
    have hset : setParam params ("continue" : String) value =
        { params with continueToken := snprintf 256 value } :=
      (if_neg (by decide)).trans ((if_neg (by decide)).trans ((if_neg (by decide)).trans (if_pos rfl)))
    rw [TextKey.name, hset]
    cases k <;> rfl

/-- **One parameter** sets its field and no other. -/
theorem get_parseToken (h : FitsField p) (k : TextKey) (params : ListQueryParams) :
    k.get (parseToken params (TextKey.text p)) = if k = p.1 then p.2 else k.get params := by
  have hname : 61 ∉ p.1.name := by cases p.1 <;> decide
  have hroom : p.1.room ≤ 511 := by cases p.1 <;> decide
  have hlen : p.2.length < p.1.room + 1 := Nat.lt_succ_of_le ((length_le_length_encode p.2).trans h.length)
  rw [parseToken, TextKey.text, strchr_append hname]
  dsimp only
  rw [valueDecoded_encode h.nul (h.length.trans hroom), get_setParam, snprintf_of_lt hlen]

theorem get_foldl_of_notMem (h : ∀ p ∈ ps, FitsField p) (hkey : key ∉ ps.map Prod.fst) :
    key.get ((ps.map TextKey.text).foldl parseToken params) = key.get params := by
  induction ps generalizing params with
  | nil => rfl
  | cons p ps ih =>
    obtain ⟨hp, hps⟩ := List.forall_mem_cons.mp h
    rw [List.map_cons, List.mem_cons, not_or] at hkey
    rw [List.map_cons, List.foldl_cons, ih hps hkey.2, get_parseToken hp, if_neg hkey.1]

theorem get_foldl_of_mem (h : ∀ p ∈ ps, FitsField p) (hkeys : (ps.map Prod.fst).Nodup) (hp : p ∈ ps) :
    p.1.get ((ps.map TextKey.text).foldl parseToken params) = p.2 := by
  induction ps generalizing params with
  | nil => cases hp
  | cons q ps ih =>
    obtain ⟨hq, hps⟩ := List.forall_mem_cons.mp h
    rw [List.map_cons, List.nodup_cons] at hkeys
    rw [List.map_cons, List.foldl_cons]
    rcases List.mem_cons.mp hp with rfl | hp
    · rw [get_foldl_of_notMem hps hkeys.1, get_parseToken hq, if_pos rfl]
    · exact ih hps hkeys.2 hp

/-- The tokens of the query string are its parameters. -/
theorem parseListQuery_queryText (ps : List (TextKey × CString)) :
    parseListQuery (some (queryText ps)) = (ps.map TextKey.text).foldl parseToken defaultParams := by
  have htext : ∀ t ∈ ps.map TextKey.text, t ≠ [] ∧ 38 ∉ t := by
    intro t ht
    obtain ⟨p, -, rfl⟩ := List.mem_map.mp ht
    have hname : 38 ∉ p.1.name := by cases p.1 <;> decide
    have hvalue : 38 ∉ encode p.2 := notMem_encode (by decide) (by decide) p.2
    refine ⟨fun hnil => List.cons_ne_nil _ _ (List.append_eq_nil_iff.mp hnil).2, ?_⟩
    rw [TextKey.text, List.mem_append, List.mem_cons]
    rintro (hn | heq | hv)
    · exact hname hn
    · exact absurd heq (by decide)
    · exact hvalue hv
  have hlen : (ps.map TextKey.text).length ≤ (queryText ps).length := length_le_length_join fun t ht => (htext t ht).1
  have htokens : tokens 38 ((queryText ps).length + 1) (queryText ps) = withRest 38 (ps.map TextKey.text) :=
    tokens_join (Nat.le_succ_of_le hlen) htext
  rw [parseListQuery, htokens, map_fst_withRest]

/-- **Query parameters survive the URL**: each value is stored in its field, and the other fields are empty. -/
theorem parse_encoded (h : ∀ p ∈ ps, FitsField p) (hkeys : (ps.map Prod.fst).Nodup) (key : TextKey) :
    (∀ v, (key, v) ∈ ps → key.get (parseListQuery (some (queryText ps))) = v) ∧
      (key ∉ ps.map Prod.fst → key.get (parseListQuery (some (queryText ps))) = []) := by
  rw [parseListQuery_queryText ps]
  constructor
  · exact fun v hv => get_foldl_of_mem h hkeys hv
  · intro hkey
    rw [get_foldl_of_notMem h hkey]
    cases key <;> rfl

/-- A selector with separators in it. -/
theorem selector_survives :
    (∀ v, (TextKey.labelSelector, v) ∈ [(TextKey.labelSelector, ofString "a=b&c")] →
      TextKey.labelSelector.get
        (parseListQuery (some (queryText [(TextKey.labelSelector, ofString "a=b&c")]))) = v) ∧
    (TextKey.labelSelector ∉ [(TextKey.labelSelector, ofString "a=b&c")].map Prod.fst →
      TextKey.labelSelector.get
        (parseListQuery (some (queryText [(TextKey.labelSelector, ofString "a=b&c")]))) = []) := by
  refine parse_encoded (fun p hp => ?_) (by decide) .labelSelector
  rw [List.mem_singleton.mp hp]
  exact ⟨by decide, by decide⟩

/-! ## Pages -/

/-- The variables of `apply_list_limits`. -/
structure Limiting where
  itemsArray : List Json
  startIdx : Int
  newArray : Option (List Json)

/-- The loop of `apply_list_limits`. Its body builds the array without the last element, and breaks: `items_array` is not
replaced. The limit is compared as a `size_t`. -/
def limitLoop (limit : Int) (l : Limiting) : Limiting :=
  if (l.itemsArray.length : Int) > limit % 2 ^ 64 then
    { l with newArray := some (l.itemsArray.take (l.itemsArray.length - 1)) }
  else l

/-- `apply_list_limits`: the array it leaves. -/
def applyListLimits (itemsArray : Json) (limit : Int) (continueToken : Option CString) : Json :=
  match itemsArray with
  | .arr items =>
    let startIdx := match continueToken with
      | none | some [] => 0
      | some token => atoi token
    .arr (limitLoop limit ⟨items, startIdx, none⟩).itemsArray
  | other => other

/-- The calls that the items take, at the offsets below their number: what each leaves in its copy. -/
def pages (items : List Json) (limit : Nat) : List (List Json) :=
  (List.range ((items.length + limit - 1) / limit)).map fun k =>
    ((applyListLimits (.arr items) limit (some (ofNat (k * limit)))).elems).getD []

/-- **The pages are the parts of the array**: none is too long, and together they are all of it. -/
structure Partitioned (items : List Json) (limit : Nat) : Prop where
  short : ∀ page ∈ pages items limit, page.length ≤ limit
  whole : (pages items limit).flatten = items

/-- **The array stays as it is**, whatever the limit and the offset are. -/
theorem applyListLimits_eq (itemsArray : Json) (limit : Int) (continueToken : Option CString) :
    applyListLimits itemsArray limit continueToken = itemsArray := by
  cases itemsArray with
  | arr items =>
    unfold applyListLimits limitLoop
    dsimp only
    split <;> rfl
  | _ => rfl

theorem pages_eq (items : List Json) (limit : Nat) :
    pages items limit = List.replicate ((items.length + limit - 1) / limit) items := by
  unfold pages
  simp only [applyListLimits_eq, Json.elems, Option.getD_some]
  rw [List.map_const', List.length_range]

/-- **Pagination partitions the list, exactly** if one page has room for all of it. -/
theorem pages_partition_iff (items : List Json) {limit : Nat} (hlimit : 1 ≤ limit) :
    Partitioned items limit ↔ items.length ≤ limit := by
  constructor
  · intro h
    by_contra hlong
    have hcount : 0 < (items.length + limit - 1) / limit := Nat.div_pos (by omega) hlimit
    refine hlong (h.short items ?_)
    rw [pages_eq]
    exact List.mem_replicate.mpr ⟨by omega, rfl⟩
  · intro h
    have hcount : (items.length + limit - 1) / limit = if items = [] then 0 else 1 := by
      split
      · next hnil =>
        rw [hnil, List.length_nil, Nat.zero_add]
        exact Nat.div_eq_of_lt (by omega)
      · next hne =>
        have hpos := List.length_pos_of_ne_nil hne
        exact Nat.div_eq_of_lt_le (by omega) (by omega)
    have hpages : pages items limit = if items = [] then [] else [items] := by
      rw [pages_eq, hcount]
      split <;> rfl
    constructor
    · intro page hpage
      rw [hpages] at hpage
      split at hpage
      · cases hpage
      · rwa [List.mem_singleton.mp hpage]
    · rw [hpages]
      split
      · next hnil => rw [hnil, List.flatten_nil]
      · exact List.flatten_singleton

theorem one_page : Partitioned [.int 1, .int 2] 2 := (pages_partition_iff _ (by decide)).mpr (by decide)

/-- **The second page repeats the first**, and both are too long. -/
theorem second_page_repeats : ¬ ∀ (items : List Json) (limit : Nat), 1 ≤ limit → Partitioned items limit := by
  intro h
  have hpages : pages [.int 1, .int 2, .int 3] 2 = [[.int 1, .int 2, .int 3], [.int 1, .int 2, .int 3]] := pages_eq _ 2
  have hshort := (h [.int 1, .int 2, .int 3] 2 (by decide)).short
  rw [hpages] at hshort
  exact absurd (hshort _ List.mem_cons_self) (by decide)

end Sirah.ApiServer
