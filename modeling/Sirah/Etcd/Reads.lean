import Sirah.Etcd.Mutations

/-!
# What a get reports

`etcd_get` of `internal/etcd/etcd_client.c` starts each attempt with the transport's status, `ETCD_OK` for
every HTTP answer, and overwrites it in one place: an empty `kvs` array makes it `ETCD_NOT_FOUND`. An
answer with another code, one that does not parse, and one without `kvs` leave the `ETCD_OK`. Etcd's
gateway leaves `kvs` out when no key matches, so that a key that is not there is found.

* `call_readEnd`: what the loop leaves behind, by its last answer.
* **`get_truthful_iff`**: the call reports what it read **iff** its last answer has a `kvs` array, or is no
  HTTP answer and no earlier one had an empty array.
-/

namespace Sirah.Etcd

/-! ## Answers to a read -/

namespace Answer

/-- A 200 whose first kv is `kv`. -/
def FoundKv (a : Answer) (kv : Json) : Prop :=
  ∃ body rest, a = .http 200 body ∧ body.getEx "kvs" = some (.arr (kv :: rest))

/-- A 200 with an empty `kvs`. -/
def EmptyKvs (a : Answer) : Prop := ∃ body, a = .http 200 body ∧ body.getEx "kvs" = some (.arr [])

/-- A 200 without `kvs`. -/
def OmittedKvs (a : Answer) : Prop :=
  ∃ body, a = .http 200 body ∧ body ≠ .null ∧ body.getEx "kvs" = none

/-- A server answers that no key matches. -/
def NoMatch (a : Answer) : Prop := a.EmptyKvs ∨ a.OmittedKvs

/-- A 200 whose `kvs` is no array, which json-c's assertion refuses. -/
def Malformed (a : Answer) : Prop :=
  ∃ body kvs, a = .http 200 body ∧ body.getEx "kvs" = some kvs ∧ kvs.elems = none

theorem FoundKv.not_empty {a : Answer} {kv : Json} (h : a.FoundKv kv) : ¬ a.EmptyKvs := by
  obtain ⟨body, rest, rfl, hkvs⟩ := h
  rintro ⟨body', heq, hkvs'⟩
  cases heq
  rw [hkvs] at hkvs'
  cases hkvs'

theorem FoundKv.not_omitted {a : Answer} {kv : Json} (h : a.FoundKv kv) : ¬ a.OmittedKvs := by
  obtain ⟨body, rest, rfl, hkvs⟩ := h
  rintro ⟨body', heq, -, hkvs'⟩
  cases heq
  rw [hkvs] at hkvs'
  cases hkvs'

theorem EmptyKvs.not_omitted {a : Answer} (h : a.EmptyKvs) : ¬ a.OmittedKvs := by
  obtain ⟨body, rfl, hkvs⟩ := h
  rintro ⟨body', heq, -, hkvs'⟩
  cases heq
  rw [hkvs] at hkvs'
  cases hkvs'

theorem Malformed.overHttp {a : Answer} (h : a.Malformed) : a.OverHttp := by
  obtain ⟨body, -, rfl, -⟩ := h
  exact ⟨200, body, rfl⟩

/-- A malformed answer is no answer about a key. -/
theorem Malformed.not_match {a : Answer} (h : a.Malformed) :
    (∀ kv, ¬ a.FoundKv kv) ∧ ¬ a.EmptyKvs ∧ ¬ a.OmittedKvs := by
  obtain ⟨body, kvs, rfl, hkvs, helems⟩ := h
  refine ⟨?_, ?_, ?_⟩
  · rintro kv ⟨body', rest, heq, hkvs'⟩
    cases heq
    cases hkvs.symm.trans hkvs'
    cases helems
  · rintro ⟨body', heq, hkvs'⟩
    cases heq
    cases hkvs.symm.trans hkvs'
    cases helems
  · rintro ⟨body', heq, -, hkvs'⟩
    cases heq
    cases hkvs.symm.trans hkvs'

end Answer

/-! ## One answer -/

/-- What the operation makes of an answer. -/
structure ReadHandled (render : Json → CString) (a : Answer) (r : Response) (h : Handled) : Prop where
  notFound : h.status = .notFound ↔ a.EmptyKvs
  ok : h.status = .ok ↔ a.OverHttp ∧ ¬ a.EmptyKvs
  response : ∀ kv, a.FoundKv kv → h.response = readKv render kv r
  unchanged : h.stop = false → h.response = r
  goOn : h.stop = false → ¬ a.OmittedKvs ∧ ∀ kv, ¬ a.FoundKv kv
  wellFormed : ¬ a.Malformed

/-- An answer that is no 200 with a body says nothing about a key. -/
theorem readHandled_silent (render : Json → CString) {a : Answer} (r : Response) (h : Handled)
    (hsilent : ∀ body, body ≠ .null → a ≠ .http 200 body) (hr : h.response = r)
    (hstatus : h.status ≠ .notFound) (hok : h.status = .ok ↔ a.OverHttp) :
    ReadHandled render a r h := by
  have bodied : ∀ {body : Json} {kvs : Json}, body.getEx "kvs" = some kvs → a ≠ .http 200 body := by
    intro body kvs hkvs
    refine hsilent body ?_
    rintro rfl
    cases hkvs
  have noFound : ∀ kv, ¬ a.FoundKv kv := fun kv ⟨body, rest, ha, hkvs⟩ => bodied hkvs ha
  have noEmpty : ¬ a.EmptyKvs := fun ⟨body, ha, hkvs⟩ => bodied hkvs ha
  have noOmitted : ¬ a.OmittedKvs := fun ⟨body, ha, hne, _⟩ => hsilent body hne ha
  exact ⟨iff_of_false hstatus noEmpty, hok.trans (iff_self_and.mpr fun _ => noEmpty),
    fun kv hkv => absurd hkv (noFound kv), fun _ => hr, fun _ => ⟨noOmitted, noFound⟩,
    fun ⟨body, kvs, ha, hkvs, _⟩ => bodied hkvs ha⟩

/-- A 200 with a body, by what is under `kvs`. -/
theorem handleGet_bodied (render : Json → CString) {body : Json} (hbody : body ≠ .null) (r : Response) :
    handleGet render (.http 200 body) r =
      match body.getEx "kvs" with
      | none => some ⟨.ok, r, .success, true⟩
      | some kvs =>
        match kvs.elems with
        | none => none
        | some [] => some ⟨.notFound, r, .nothing, false⟩
        | some (kv :: _) => some ⟨.ok, readKv render kv r, .success, true⟩ := by
  cases body with
  | null => exact absurd rfl hbody
  | _ => rfl

theorem eq_arr_of_elems {j : Json} {js : List Json} (h : j.elems = some js) : j = .arr js := by
  cases j with
  | arr items =>
    cases h
    rfl
  | _ => cases h

/-- An answer without a body: nothing is read from it, and its status is that of the request. -/
theorem onAnswer_of_silent (render : Json → CString) {a : Answer} (r : Response)
    (silent : ∀ body, body ≠ .null → a ≠ .http 200 body) :
    ∃ h, onAnswer (handleGet render) a r = some h ∧ h.response = r ∧ h.status = executeHttpRequest a := by
  cases a with
  | http code body =>
    by_cases hcode : code = 200
    · subst hcode
      cases body with
      | null => exact ⟨_, rfl, rfl, rfl⟩
      | _ => exact absurd rfl (silent _ nofun)
    · exact ⟨failed (.http code body) r, if_neg hcode, rfl, rfl⟩
  | _ => exact ⟨_, rfl, rfl, rfl⟩

theorem onAnswer_handleGet (render : Json → CString) (a : Answer) (r : Response) :
    (onAnswer (handleGet render) a r = none → a.Malformed) ∧
      ∀ h, onAnswer (handleGet render) a r = some h → ReadHandled render a r h := by
  by_cases hbodied : ∃ body, body ≠ .null ∧ a = .http 200 body
  · obtain ⟨body, hbody, rfl⟩ := hbodied
    have http : (Answer.http 200 body).OverHttp := ⟨200, body, rfl⟩
    show (handleGet render (.http 200 body) r = none → _) ∧
      ∀ h, handleGet render (.http 200 body) r = some h → _
    rw [handleGet_bodied render hbody]
    cases hkvs : body.getEx "kvs" with
    | none =>
      have omitted : (Answer.http 200 body).OmittedKvs := ⟨body, rfl, hbody, hkvs⟩
      have noEmpty : ¬ (Answer.http 200 body).EmptyKvs := fun h => h.not_omitted omitted
      refine ⟨nofun, ?_⟩
      rintro h ⟨⟩
      exact ⟨iff_of_false nofun noEmpty, iff_of_true rfl ⟨http, noEmpty⟩,
        fun kv hkv => absurd omitted hkv.not_omitted, fun _ => rfl, nofun,
        fun hm => hm.not_match.2.2 omitted⟩
    | some kvs =>
      dsimp only
      cases helems : kvs.elems with
      | none => exact ⟨fun _ => ⟨body, kvs, rfl, hkvs, helems⟩, nofun⟩
      | some js =>
        cases eq_arr_of_elems helems
        cases js with
        | nil =>
          have empty : (Answer.http 200 body).EmptyKvs := ⟨body, rfl, hkvs⟩
          refine ⟨nofun, ?_⟩
          rintro h ⟨⟩
          exact ⟨iff_of_true rfl empty, iff_of_false nofun fun h => h.2 empty,
            fun kv hkv => absurd empty hkv.not_empty, fun _ => rfl,
            fun _ => ⟨empty.not_omitted, fun kv hkv => hkv.not_empty empty⟩,
            fun hm => hm.not_match.2.1 empty⟩
        | cons kv rest =>
          have found : (Answer.http 200 body).FoundKv kv := ⟨body, rest, rfl, hkvs⟩
          refine ⟨nofun, ?_⟩
          rintro h ⟨⟩
          refine ⟨iff_of_false nofun found.not_empty, iff_of_true rfl ⟨http, found.not_empty⟩, ?_,
            nofun, nofun, fun hm => hm.not_match.1 kv found⟩
          rintro kv' ⟨body', rest', heq, hkvs'⟩
          cases heq
          cases hkvs.symm.trans hkvs'
          rfl
  · have silent : ∀ body, body ≠ .null → a ≠ .http 200 body :=
      fun body hbody ha => hbodied ⟨body, hbody, ha⟩
    obtain ⟨h, hsome, hr, hst⟩ := onAnswer_of_silent render r silent
    rw [hsome]
    refine ⟨nofun, ?_⟩
    rintro h' ⟨⟩
    refine readHandled_silent render r h silent hr ?_ (hst ▸ Answer.executeHttpRequest_eq_ok)
    rw [hst]
    cases a <;> nofun

/-! ## The loop -/

variable {n : Nat}

/-- An answer after which the loop goes on. -/
def Answer.Passed (a : Answer) : Prop := ¬ a.OmittedKvs ∧ ∀ kv, ¬ a.FoundKv kv

/-- The loop, left or running: the status is that of the last answer, and so is what was read. -/
structure ReadEnd (render : Json → CString) (r : Response) (s : Attempts n) : Prop where
  earlier : ∀ a ∈ s.answers.dropLast, a.Passed
  crashed : s.crashed = true ↔ ∃ a ∈ s.answers.getLast?, a.Malformed
  notFound : s.crashed = false → (s.status = .notFound ↔ ∃ a ∈ s.answers.getLast?, a.EmptyKvs)
  ok : s.crashed = false → (s.status = .ok ↔ ∃ a ∈ s.answers.getLast?, a.OverHttp ∧ ¬ a.EmptyKvs)
  response : ∀ a ∈ s.answers.getLast?, ∀ kv, a.FoundKv kv → s.response = readKv render kv r

/-- The loop, running. -/
structure ReadRunning (render : Json → CString) (r : Response) (s : Attempts n) : Prop
    extends ReadEnd render r s where
  alive : s.crashed = false
  response_eq : s.response = r
  passed : ∀ a ∈ s.answers, a.Passed

/-- **An answer that is handled**: what the call ends with if it ends there, and what was made of the answer. -/
theorem ReadRunning.taken {render : Json → CString} {r : Response} {s : Attempts n} {a : Answer} {h : Handled}
    (hs : ReadRunning render r s) (cb : Breaker) (hsome : onAnswer (handleGet render) a s.response = some h)
    (t : Int) :
    ReadEnd render r (((s.setBreaker cb).receive a).take h t) ∧ ReadHandled render a r h := by
  have handled := (onAnswer_handleGet render a s.response).2 h hsome
  rw [hs.response_eq] at handled
  obtain ⟨hst, hans, hcr⟩ := take_told ((s.setBreaker cb).receive a) h t
  have hans' : (((s.setBreaker cb).receive a).take h t).answers = s.answers ++ [a] := hans
  have hcr' : (((s.setBreaker cb).receive a).take h t).crashed = false := hcr.trans hs.alive
  have last : ∀ {P : Answer → Prop}, (∃ b ∈ (s.answers ++ [a]).getLast?, P b) ↔ P a := by
    intro P
    simp
  refine ⟨⟨?_, ?_, ?_, ?_, ?_⟩, handled⟩
  · rw [hans', List.dropLast_concat]
    exact hs.passed
  · rw [hans', hcr', last]
    exact iff_of_false nofun handled.wellFormed
  · intro _
    rw [hans', hst, last]
    exact handled.notFound
  · intro _
    rw [hans', hst, last]
    exact handled.ok
  · intro b hb kv hkv
    rw [hans', List.getLast?_concat] at hb
    cases hb
    rw [take_response]
    exact handled.response kv hkv

/-- **What the loop of a get leaves behind.** -/
theorem call_readEnd [NeZero n] (render : Json → CString) (turn : Nat → Turn) (c : Client n) (r : Response) :
    ReadEnd render r (call (handleGet render) turn c r) := by
  refine attempts_rule (I := ReadRunning render r) (J := ReadEnd render r) (fun s hs => hs.toReadEnd)
    ?_ ?_ ?_ ?_ turn _ 0 _ ?_
  · intro s cb hs
    exact ⟨⟨hs.earlier, hs.crashed, hs.notFound, hs.ok, hs.response⟩, hs.alive, hs.response_eq,
      hs.passed⟩
  · intro s cb a hs hnone
    have malformed := (onAnswer_handleGet render a s.response).1 hnone
    refine ⟨?_, ?_, nofun, nofun, ?_⟩
    · show ∀ b ∈ (s.answers ++ [a]).dropLast, b.Passed
      rw [List.dropLast_concat]
      exact hs.passed
    · exact iff_of_true rfl ⟨a, List.getLast?_concat .., malformed⟩
    · intro b hb kv hkv
      cases (List.getLast?_concat ..).symm.trans hb
      exact absurd hkv (malformed.not_match.1 kv)
  · intro s cb a h t hs hsome _
    exact (hs.taken cb hsome t).1
  · intro s cb a h t hs hsome hgo
    obtain ⟨hend, handled⟩ := hs.taken cb hsome t
    obtain ⟨-, hans, hcr⟩ := take_told ((s.setBreaker cb).receive a) h t
    refine ⟨⟨hend.earlier, hend.crashed, hend.notFound, hend.ok, hend.response⟩, hcr.trans hs.alive,
      ?_, ?_⟩
    · show (((s.setBreaker cb).receive a).take h t).response = r
      rw [take_response]
      exact handled.unchanged hgo
    · intro b hb
      replace hb : b ∈ (((s.setBreaker cb).receive a).take h t).answers := hb
      rw [hans] at hb
      rcases List.mem_append.mp hb with hb | hb
      · exact hs.passed b hb
      · cases List.mem_singleton.mp hb
        exact handled.goOn hgo
  · refine ⟨⟨nofun, ?_, ?_, ?_, nofun⟩, rfl, rfl, nofun⟩
    · exact iff_of_false nofun nofun
    · exact fun _ => iff_of_false nofun nofun
    · exact fun _ => iff_of_false nofun nofun

/-! ## What the end of the loop says -/

/-- An answer that decides the read, or one that lets no earlier one be forgotten. -/
def Decisive (answers : List Answer) (a : Answer) : Prop :=
  (∃ kv, a.FoundKv kv) ∨ a.EmptyKvs ∨ (¬ a.OverHttp ∨ a.Malformed) ∧ ∀ b ∈ answers, ¬ b.EmptyKvs

namespace ReadEnd

variable {render : Json → CString} {r : Response} {s : Attempts n}

/-- Every answer but the last lets the loop go on. -/
theorem passed_or_last (h : ReadEnd render r s) {a : Answer} (ha : a ∈ s.answers) :
    a.Passed ∨ a ∈ s.answers.getLast? := by
  obtain ⟨last, hlast⟩ : ∃ last, last ∈ s.answers.getLast? :=
    Option.isSome_iff_exists.mp (by simpa using List.ne_nil_of_mem ha)
  rw [← List.dropLast_append_getLast? last hlast, List.mem_append, List.mem_singleton] at ha
  rcases ha with ha | rfl
  · exact .inl (h.earlier a ha)
  · exact .inr hlast

/-- Only the last answer finds a key. -/
theorem not_found (h : ReadEnd render r s) {a : Answer} (ha : a ∈ s.answers.getLast?)
    (hfound : ¬ ∃ kv, a.FoundKv kv) : ∀ b ∈ s.answers, ∀ kv, ¬ b.FoundKv kv := by
  intro b hb kv hkv
  rcases h.passed_or_last hb with hpassed | hlast
  · exact hpassed.2 kv hkv
  · cases Option.mem_unique ha hlast
    exact hfound ⟨kv, hkv⟩

theorem alive_of_last (h : ReadEnd render r s) {a : Answer} (ha : a ∈ s.answers.getLast?)
    (hwell : ¬ a.Malformed) : s.crashed = false := by
  refine Bool.eq_false_iff.mpr fun hcr => ?_
  obtain ⟨b, hb, hm⟩ := h.crashed.mp hcr
  cases Option.mem_unique ha hb
  exact hwell hm

/-- With a last answer that decides, `ETCD_OK` comes with what was found. -/
theorem found_of_decisive (h : ReadEnd render r s)
    (hd : ∀ a ∈ s.answers.getLast?, Decisive s.answers a) (halive : s.crashed = false)
    (hok : s.status = .ok) : ∃ a ∈ s.answers, ∃ kv, a.FoundKv kv ∧ s.response = readKv render kv r := by
  obtain ⟨a, ha, hhttp, hempty⟩ := (h.ok halive).mp hok
  rcases hd a ha with ⟨kv, hkv⟩ | hempty' | ⟨hnone | hm, -⟩
  · exact ⟨a, List.mem_of_getLast? ha, kv, hkv, h.response a ha kv hkv⟩
  · exact absurd hempty' hempty
  · exact absurd hhttp hnone
  · rw [h.crashed.mpr ⟨a, ha, hm⟩] at halive
    cases halive

/-- With a last answer that decides, a key no server has is not found. -/
theorem absent_of_decisive (h : ReadEnd render r s)
    (hd : ∀ a ∈ s.answers.getLast?, Decisive s.answers a) {earlier later : List Answer} {a : Answer}
    (hsplit : s.answers = earlier ++ a :: later) (hno : a.NoMatch)
    (hlater : ∀ b ∈ later, ∀ kv, ¬ b.FoundKv kv) : s.crashed = false ∧ s.status = .notFound := by
  have hmem : a ∈ s.answers := hsplit ▸ by simp
  obtain ⟨last, hlast⟩ : ∃ last, last ∈ s.answers.getLast? :=
    Option.isSome_iff_exists.mp (by simpa using List.ne_nil_of_mem hmem)
  have hlastmem : last ∈ a :: later := by
    refine List.mem_of_getLast? (?_ : (a :: later).getLast? = some last)
    rw [hsplit, List.getLast?_append_cons] at hlast
    exact hlast
  rcases hd last hlast with ⟨kv, hkv⟩ | hempty | ⟨hsilent, hnone⟩
  · -- the last answer finds no key
    rcases List.mem_cons.mp hlastmem with rfl | hl
    · exact absurd hno (not_or.mpr ⟨hkv.not_empty, hkv.not_omitted⟩)
    · exact absurd hkv (hlater last hl kv)
  · have halive := h.alive_of_last hlast fun hm => hm.not_match.2.1 hempty
    exact ⟨halive, (h.notFound halive).mpr ⟨last, hlast, hempty⟩⟩
  · -- an answer without `kvs` ends the loop
    have homitted : a.OmittedKvs := hno.resolve_left (hnone a hmem)
    rcases h.passed_or_last hmem with hpassed | ha
    · exact absurd homitted hpassed.1
    · cases Option.mem_unique hlast ha
      obtain ⟨body, rfl, -⟩ := id homitted
      rcases hsilent with hsilent | hm
      · exact absurd ⟨200, body, rfl⟩ hsilent
      · exact absurd homitted hm.not_match.2.2

/-- A loop that reports truthfully has a last answer that decides. -/
theorem decisive_of_truthful (h : ReadEnd render r s)
    (hfound : s.crashed = false → s.status = .ok → ∃ a ∈ s.answers, ∃ kv, a.FoundKv kv)
    (habsent : ∀ earlier a later, s.answers = earlier ++ a :: later → a.NoMatch →
      (∀ b ∈ later, ∀ kv, ¬ b.FoundKv kv) → s.crashed = false ∧ s.status = .notFound) :
    ∀ a ∈ s.answers.getLast?, Decisive s.answers a := by
  intro a ha
  by_cases hkv : ∃ kv, a.FoundKv kv
  · exact .inl hkv
  by_cases hempty : a.EmptyKvs
  · exact .inr (.inl hempty)
  have noFound := h.not_found ha hkv
  refine .inr (.inr ⟨?_, ?_⟩)
  · by_contra hsilent
    obtain ⟨hhttp, hwell⟩ := not_or.mp hsilent
    have halive := h.alive_of_last ha hwell
    obtain ⟨b, hb, kv, hkv'⟩ := hfound halive ((h.ok halive).mpr ⟨a, ha, not_not.mp hhttp, hempty⟩)
    exact noFound b hb kv hkv'
  · intro b hb hbempty
    obtain ⟨earlier, later, hsplit⟩ := List.append_of_mem hb
    obtain ⟨halive, hst⟩ := habsent earlier b later hsplit (.inl hbempty)
      fun b' hb' => noFound b' (hsplit ▸ by simp [hb'])
    obtain ⟨b', hb', hlast⟩ := (h.notFound halive).mp hst
    cases Option.mem_unique ha hb'
    exact hempty hlast

end ReadEnd

/-! ## A get -/

section Get

variable [NeZero n] (render : Json → CString) (env : Env) (errorTime : Int) (c : Client n)

/-- The answers a get receives. -/
def getAnswers (key : Option CString) (r : Response) : List Answer :=
  match key with
  | none => []
  | some key => (call (handleGet render) (env (keyRequest key)) c r).answers

/-- **A read is reported truthfully.** -/
structure ReadTruthful (key : Option CString) (r : Response) : Prop where
  found : ∀ r' c', etcdGet render env errorTime c key r = some (.ok, r', c') →
    ∃ a ∈ getAnswers render env c key r, ∃ kv, a.FoundKv kv ∧
      ∀ encoded, parseJsonString render kv "value" = some encoded →
        r'.value = some (base64Decode encoded)
  absent : ∀ earlier a later, getAnswers render env c key r = earlier ++ a :: later → a.NoMatch →
    (∀ b ∈ later, ∀ kv, ¬ b.FoundKv kv) →
    ∃ r' c', etcdGet render env errorTime c key r = some (.notFound, r', c')

/-- **A read is reported truthfully, exactly**: when the last answer decides it. -/
theorem get_truthful_iff (key : Option CString) (r : Response) :
    ReadTruthful render env errorTime c key r ↔
      ∀ a ∈ (getAnswers render env c key r).getLast?, Decisive (getAnswers render env c key r) a := by
  cases key with
  | none =>
    refine iff_of_true ⟨nofun, ?_⟩ nofun
    intro earlier a later h
    cases earlier <;> cases h
  | some key =>
    have hend := call_readEnd render (env (keyRequest key)) c r
    have hget : etcdGet render env errorTime c (some key) r = finish (· ≠ .ok) (some errorTime)
        (call (handleGet render) (env (keyRequest key)) c r) := rfl
    constructor
    · intro h
      refine hend.decisive_of_truthful ?_ ?_
      · intro halive hok
        obtain ⟨r', c', hfin⟩ := finish_of_not_crashed (· ≠ .ok) (some errorTime) halive
        rw [hok] at hfin
        obtain ⟨b, hb, kv, hkv, -⟩ := h.found r' c' (hget.trans hfin)
        exact ⟨b, hb, kv, hkv⟩
      · intro earlier a later hsplit hno hlater
        obtain ⟨r', c', hfin⟩ := h.absent earlier a later hsplit hno hlater
        exact finish_status (hget.symm.trans hfin)
    · intro h
      refine ⟨?_, ?_⟩
      · intro r' c' hfin
        obtain ⟨halive, hst⟩ := finish_status (hget.symm.trans hfin)
        obtain ⟨a, ha, kv, hkv, hresp⟩ := hend.found_of_decisive h halive hst
        refine ⟨a, ha, kv, hkv, fun encoded hval => ?_⟩
        rw [← finish_response (hget.symm.trans hfin), hresp]
        simp [readKv, hval]
      · intro earlier a later hsplit hno hlater
        obtain ⟨halive, hst⟩ := hend.absent_of_decisive h hsplit hno hlater
        obtain ⟨r', c', hfin⟩ := finish_of_not_crashed (· ≠ .ok) (some errorTime) halive
        exact ⟨r', c', hget.trans (hst ▸ hfin)⟩

end Get

/-- Every attempt is answered with one kv. -/
def oneKv : Env := fun _ _ =>
  ⟨0, .http 200 (.obj [("kvs", .arr [.obj [("value", .str ("dg==" : String))]])]), 0⟩

/-- A key that is there is found. -/
theorem get_truthful_iff_oneKv :
    ReadTruthful (fun _ => []) oneKv 0 (clientCreate 0) (some ("k" : String)) Response.zero := by
  refine (get_truthful_iff (fun _ => []) oneKv 0 (clientCreate 0) _ Response.zero).mpr ?_
  intro a ha
  cases ha
  exact .inl ⟨_, _, _, rfl, rfl⟩

/-- The server answers without keys. -/
def noSuchKey : Env := fun _ _ => ⟨0, .http 200 (.obj [("header", .obj [])]), 0⟩

/-- A key that is not there is found. -/
theorem missing_key_found :
    ¬ ReadTruthful (fun _ => []) noSuchKey 0 (clientCreate 0) (some ("k" : String)) Response.zero := by
  intro h
  obtain ⟨a, ha, kv, hkv, -⟩ := h.found _ _ rfl
  cases List.mem_singleton.mp ha
  exact hkv.not_omitted ⟨_, rfl, nofun, rfl⟩

end Sirah.Etcd
