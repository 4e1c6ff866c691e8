import ScmPlugins.Proofs.Response.Distinct
import ScmPlugins.Proofs.Response.Texts

namespace ScmPlugins.Response

def Members.Mistypes (ms : Members) (name : String) : Prop :=
  ∃ j, (name, j) ∈ ms ∧ j ≠ .null ∧ ∀ s, j ≠ .str s

structure Complains (ms : Members) (c : ValidationError) : Prop where
  distinct : ms.names.Nodup
  key : ("key", .str c.key) ∈ ms ∨ ms.Lacks "key" ∧ c.key = ""
  message : ("message", .str c.message) ∈ ms

def IsComplaint (j : Json) (c : ValidationError) : Prop := ∃ ms, j = .map ms ∧ Complains ms c

/-- An entry that is no complaint, with what is wrong about it. -/
inductive Faulty : Json → Error → Prop
  | notMap {j : Json} (h : ∀ ms, j ≠ .map ms) :
      Faulty j { payload := .validation, rule := .shape .listOfMaps }
  | repeated {front rest : Members} {name : String} {j : Json} (distinct : front.names.Nodup)
      (again : name ∈ front.names) :
      Faulty (.map (front ++ (name, j) :: rest))
        { payload := .validation, rule := .declaredOnce, key := name }
  | key {ms : Members} (distinct : ms.names.Nodup) (h : ms.Mistypes "key") :
      Faulty (.map ms) { payload := .validation, rule := .shape .string, field := "key" }
  | noMessage {ms : Members} (distinct : ms.names.Nodup) (key : ¬ms.Mistypes "key")
      (h : ms.Lacks "message") :
      Faulty (.map ms) { payload := .validation, rule := .required, field := "message" }
  | message {ms : Members} (distinct : ms.names.Nodup) (key : ¬ms.Mistypes "key")
      (h : ms.Mistypes "message") :
      Faulty (.map ms) { payload := .validation, rule := .shape .string, field := "message" }

structure Concludes (ms : Members) (r : CheckResult) : Prop where
  distinct : ms.names.Nodup
  status : ("status", .str r.status.name) ∈ ms
  messages : ("messages", .list (r.messages.map .str)) ∈ ms ∨
    ms.Lacks "messages" ∧ r.messages = []

section Entries

variable {ms : Members} {name : String} {payload : Payload} {j : Json} {c : ValidationError}
  {e : Error}

theorem Members.exists_tells (h : ¬ms.Mistypes name) : ∃ a, ms.Tells name a := by
  by_cases lacks : ms.Lacks name
  · exact ⟨none, lacks⟩
  · simp only [Members.Lacks, not_forall] at lacks
    obtain ⟨j, mem, null⟩ := lacks
    by_contra untold
    refine h ⟨j, mem, null, ?_⟩
    rintro s rfl
    exact untold ⟨some s, mem⟩

theorem Members.text?_of_mistypes (distinct : ms.names.Nodup) (h : ms.Mistypes name) :
    ms.text? payload name = .error { payload, rule := .shape .string, field := name } := by
  obtain ⟨j, mem, null, other⟩ := h
  have found := (given?_eq_some_iff distinct).2 ⟨mem, null⟩
  cases j with
  | str s => exact absurd rfl (other s)
  | _ => simp only [text?, found]

theorem validationError_of_complains (h : Complains ms c) : validationError (.map ms) = .ok c := by
  obtain ⟨distinct, key, message⟩ := h
  obtain ⟨k, tells, same⟩ : ∃ k, ms.Tells "key" k ∧ k.getD "" = c.key := by
    obtain written | ⟨lacks, empty⟩ := key
    · exact ⟨some c.key, written, rfl⟩
    · exact ⟨none, lacks, empty.symm⟩
  have told : ms.Tells "message" (some c.message) := message
  rw [validationError, named_eq_ok_iff.2 ⟨rfl, distinct⟩, Except.ok_bind,
    (Members.text?_eq_ok_iff distinct).2 tells, Except.ok_bind,
    (Members.text?_eq_ok_iff distinct).2 told, Except.ok_bind, same]
  rfl

theorem validationError_of_isComplaint (h : IsComplaint j c) : validationError j = .ok c := by
  obtain ⟨ms, rfl, complains⟩ := h
  exact validationError_of_complains complains

theorem validationError_of_faulty (h : Faulty j e) : validationError j = .error e := by
  cases h with
  | notMap notMap =>
    cases j with
    | map ms => exact absurd rfl (notMap ms)
    | _ => rfl
  | repeated distinct again =>
    rw [validationError, named_of_repeated distinct again]
    rfl
  | key distinct mistyped =>
    rw [validationError, named_eq_ok_iff.2 ⟨rfl, distinct⟩, Except.ok_bind,
      Members.text?_of_mistypes distinct mistyped]
    rfl
  | @noMessage ms distinct key lacks =>
    obtain ⟨k, tells⟩ := Members.exists_tells key
    have untold : ms.Tells "message" none := lacks
    rw [validationError, named_eq_ok_iff.2 ⟨rfl, distinct⟩, Except.ok_bind,
      (Members.text?_eq_ok_iff distinct).2 tells, Except.ok_bind,
      (Members.text?_eq_ok_iff distinct).2 untold]
    rfl
  | message distinct key mistyped =>
    obtain ⟨k, tells⟩ := Members.exists_tells key
    rw [validationError, named_eq_ok_iff.2 ⟨rfl, distinct⟩, Except.ok_bind,
      (Members.text?_eq_ok_iff distinct).2 tells, Except.ok_bind,
      Members.text?_of_mistypes distinct mistyped]
    rfl

theorem complains_or_faulty (ms : Members) :
    (∃ c, Complains ms c) ∨ ∃ e, Faulty (.map ms) e := by
  by_cases distinct : ms.names.Nodup
  case neg =>
    obtain ⟨front, name, j, rest, rfl, fresh, again⟩ := Members.exists_repeated distinct
    exact .inr ⟨_, .repeated fresh again⟩
  by_cases key : ms.Mistypes "key"
  case pos => exact .inr ⟨_, .key distinct key⟩
  by_cases message : ms.Mistypes "message"
  case pos => exact .inr ⟨_, .message distinct key message⟩
  obtain ⟨k, tells⟩ := Members.exists_tells key
  obtain ⟨m, told⟩ := Members.exists_tells message
  cases m with
  | none => exact .inr ⟨_, .noMessage distinct key told⟩
  | some m =>
    cases k with
    | none => exact .inl ⟨⟨"", m⟩, distinct, .inr ⟨tells, rfl⟩, told⟩
    | some k => exact .inl ⟨⟨k, m⟩, distinct, .inl tells, told⟩

theorem isComplaint_or_faulty (j : Json) : (∃ c, IsComplaint j c) ∨ ∃ e, Faulty j e := by
  cases j with
  | map ms => exact (complains_or_faulty ms).imp_left fun ⟨c, complains⟩ => ⟨c, ms, rfl, complains⟩
  | _ => exact .inr ⟨_, .notMap nofun⟩

theorem validationError_eq_ok_iff : validationError j = .ok c ↔ IsComplaint j c := by
  refine ⟨fun read => ?_, validationError_of_isComplaint⟩
  obtain ⟨c', complaint⟩ | ⟨e, faulty⟩ := isComplaint_or_faulty j
  · cases (validationError_of_isComplaint complaint).symm.trans read
    exact complaint
  · cases (validationError_of_faulty faulty).symm.trans read

theorem validationError_eq_error_iff : validationError j = .error e ↔ Faulty j e := by
  refine ⟨fun refused => ?_, validationError_of_faulty⟩
  obtain ⟨c, complaint⟩ | ⟨e', faulty⟩ := isComplaint_or_faulty j
  · cases (validationError_of_isComplaint complaint).symm.trans refused
  · cases (validationError_of_faulty faulty).symm.trans refused
    exact faulty

theorem exists_isComplaint_iff : (∃ c, IsComplaint j c) ↔ ∀ e, ¬Faulty j e := by
  constructor
  · rintro ⟨c, complaint⟩ e faulty
    cases (validationError_of_isComplaint complaint).symm.trans (validationError_of_faulty faulty)
  · intro sound
    exact (isComplaint_or_faulty j).resolve_right fun ⟨e, faulty⟩ => sound e faulty

end Entries

section Validations

variable {body : Option String} {s : String} {js : List Json} {v : Validation} {e : Error}

theorem validation_of_list (parsed : Json.parse s = .ok (.list js)) :
    validation (some s) = (js.mapM validationError).map Validation.mk := by
  rw [validation, document?_of_parse parsed (by rintro ⟨⟩), Except.ok_bind]
  change (js.mapM validationError >>= fun es => pure (Validation.mk es)) = _
  cases js.mapM validationError <;> rfl

theorem validation_eq_ok_iff :
    validation body = .ok v ↔ SaysNothing body ∧ v = .success ∨
      ∃ s js, body = some s ∧ Json.parse s = .ok (.list js) ∧
        List.Forall₂ IsComplaint js v.errors := by
  have listed {s : String} {js : List Json} (parsed : Json.parse s = .ok (.list js)) :
      validation (some s) = .ok v ↔ List.Forall₂ IsComplaint js v.errors := by
    simp only [validation_of_list parsed, Except.map_eq_ok_iff, Except.mapM_eq_ok_iff,
      validationError_eq_ok_iff]
    constructor
    · rintro ⟨_, complaints, rfl⟩
      exact complaints
    · exact fun complaints => ⟨v.errors, complaints, rfl⟩
  constructor
  · intro read
    obtain ⟨found, document, rest⟩ := Except.bind_eq_ok_iff.1 read
    cases found with
    | none =>
      cases rest
      exact .inl ⟨document?_eq_ok_none_iff.1 document, rfl⟩
    | some j =>
      obtain ⟨s, rfl, parsed, -⟩ := document?_eq_some_iff.1 document
      simp only [Except.bind_eq_ok_iff, items_eq_ok_iff] at rest
      obtain ⟨js, rfl, -⟩ := rest
      exact .inr ⟨s, js, rfl, parsed, (listed parsed).1 read⟩
  · rintro (⟨nothing, rfl⟩ | ⟨s, js, rfl, parsed, complaints⟩)
    · rw [validation, document?_eq_ok_none_iff.2 nothing]
      rfl
    · exact (listed parsed).2 complaints

theorem validation_eq_error_iff (parsed : Json.parse s = .ok (.list js)) :
    validation (some s) = .error e ↔ ∃ front j rest, js = front ++ j :: rest ∧
      (∀ i ∈ front, ∀ e', ¬Faulty i e') ∧ Faulty j e := by
  have refused : validation (some s) = .error e ↔ js.mapM validationError = .error e := by
    rw [validation_of_list parsed]
    cases js.mapM validationError <;> simp [Except.map]
  rw [refused, Except.mapM_eq_error_iff]
  simp only [validationError_eq_ok_iff, validationError_eq_error_iff, exists_isComplaint_iff]

theorem validation_of_mem_faulty (parsed : Json.parse s = .ok (.list js)) {j : Json} (mem : j ∈ js)
    (h : Faulty j e) : ∃ e', validation (some s) = .error e' := by
  cases read : validation (some s) with
  | error e' => exact ⟨e', rfl⟩
  | ok v =>
    rw [validation_of_list parsed, Except.map_eq_ok_iff] at read
    obtain ⟨cs, read, -⟩ := read
    have sound : ∀ i ∈ js, ∀ e', ¬Faulty i e' :=
      forall_mem_of_forall₂ (Except.mapM_eq_ok_iff.1 read).flip fun _ _ here =>
        exists_isComplaint_iff.1 ⟨_, validationError_eq_ok_iff.1 here⟩
    exact absurd h (sound j mem e)

theorem isSuccess_iff : v.isSuccess = true ↔ v.errors = [] := List.isEmpty_iff

theorem validation_success_iff :
    (∃ v, validation body = .ok v ∧ v.isSuccess = true) ↔
      SaysNothing body ∨ ∃ s, body = some s ∧ Json.parse s = .ok (.list []) := by
  simp only [validation_eq_ok_iff, isSuccess_iff]
  constructor
  · rintro ⟨v, ⟨nothing, -⟩ | ⟨s, js, rfl, parsed, complaints⟩, none⟩
    · exact .inl nothing
    · rw [none, List.forall₂_nil_right_iff] at complaints
      exact .inr ⟨s, rfl, complaints ▸ parsed⟩
  · rintro (nothing | ⟨s, rfl, parsed⟩)
    · exact ⟨.success, .inl ⟨nothing, rfl⟩, rfl⟩
    · exact ⟨.success, .inr ⟨s, [], rfl, parsed, .nil⟩, rfl⟩

end Validations

section Checks

variable {body : Option String} {ms : Members} {r : CheckResult}

theorem checkStatus_eq_some_iff {s : String} {status : CheckStatus} :
    CheckStatus.named? s = some status ↔ s = status.name := by
  constructor
  · intro h
    have same : status.name = s := by simpa using List.find?_some h
    exact same.symm
  · rintro rfl
    cases status <;> rfl

theorem status_eq_ok_iff (distinct : ms.names.Nodup) {found : CheckStatus} :
    status ms = .ok found ↔ ("status", .str found.name) ∈ ms := by
  rw [Members.mem_iff_given? (j := .str found.name) distinct nofun, status]
  cases ms.given? "status" with
  | none => simp
  | some j =>
    cases j with
    | str s =>
      simp only [Option.some.injEq, Json.str.injEq, ← checkStatus_eq_some_iff]
      cases CheckStatus.named? s <;> simp
    | _ => simp

theorem mapM_texts_eq_ok_iff {f : Json → Except Error String}
    (h : ∀ {j s}, f j = .ok s ↔ j = .str s) {js : List Json} {ss : List String} :
    js.mapM f = .ok ss ↔ js = ss.map .str := by
  simp only [Except.mapM_eq_ok_iff, h, forall₂_eq_map_iff]

theorem messages_eq_ok_iff (distinct : ms.names.Nodup) {found : List String} :
    messages ms = .ok found ↔
      ("messages", .list (found.map .str)) ∈ ms ∨ ms.Lacks "messages" ∧ found = [] := by
  rw [Members.mem_iff_given? (j := .list (found.map .str)) distinct nofun,
    ← Members.given?_eq_none_iff distinct, messages]
  cases ms.given? "messages" with
  | none => simp [eq_comm]
  | some j =>
    cases j with
    | list js =>
      simp only [Option.some.injEq, Json.list.injEq, reduceCtorEq, false_and, or_false]
      refine mapM_texts_eq_ok_iff fun {j s} => ?_
      cases j <;> simp
    | _ => simp

theorem checkResult_eq_ok_iff :
    checkResult body = .ok r ↔
      ∃ s ms, body = some s ∧ Json.parse s = .ok (.map ms) ∧ Concludes ms r := by
  simp only [checkResult, Except.bind_eq_ok_iff, Except.pure_eq_ok_iff, document_eq_ok_iff,
    named_eq_ok_iff]
  constructor
  · rintro ⟨_, ⟨s, rfl, parsed, -⟩, ms, ⟨rfl, distinct⟩, found, status, ss, messages, rfl⟩
    exact ⟨s, ms, rfl, parsed, distinct, (status_eq_ok_iff distinct).1 status,
      (messages_eq_ok_iff distinct).1 messages⟩
  · rintro ⟨s, ms, rfl, parsed, distinct, status, messages⟩
    exact ⟨_, ⟨s, rfl, parsed, by rintro ⟨⟩⟩, ms, ⟨rfl, distinct⟩, _,
      (status_eq_ok_iff distinct).2 status, _, (messages_eq_ok_iff distinct).2 messages, rfl⟩

theorem Concludes.isSuccess_iff (h : Concludes ms r) :
    r.isSuccess = true ↔ ("status", .str "success") ∈ ms := by
  have found := (Members.get?_eq_some_iff h.distinct).2 h.status
  rw [← Members.get?_eq_some_iff h.distinct, found, CheckResult.isSuccess]
  cases r.status <;> simp [CheckStatus.name]

end Checks

/-- A validation succeeds if the body says nothing or lists nothing. Otherwise every entry that is
listed is a complaint, and all of them are kept, or the first that is faulty is complained about.
A check concludes as its status says, with the messages that are listed. -/
theorem outcomes_as_reported (body : Option String) :
    ((∃ v, validation body = .ok v ∧ v.isSuccess = true) ↔
        SaysNothing body ∨ ∃ s, body = some s ∧ Json.parse s = .ok (.list [])) ∧
      (∀ v, validation body = .ok v ↔ SaysNothing body ∧ v = .success ∨
        ∃ s js, body = some s ∧ Json.parse s = .ok (.list js) ∧
          List.Forall₂ IsComplaint js v.errors) ∧
      (∀ s js, body = some s → Json.parse s = .ok (.list js) →
        (∀ j ∈ js, ∀ e, Faulty j e → ∃ e', validation body = .error e') ∧
          ∀ e, validation body = .error e ↔ ∃ front j rest, js = front ++ j :: rest ∧
            (∀ i ∈ front, ∀ e', ¬Faulty i e') ∧ Faulty j e) ∧
      (∀ r, checkResult body = .ok r ↔
        ∃ s ms, body = some s ∧ Json.parse s = .ok (.map ms) ∧ Concludes ms r) ∧
      ∀ r s ms, checkResult body = .ok r → body = some s → Json.parse s = .ok (.map ms) →
        (r.isSuccess = true ↔ ("status", .str "success") ∈ ms) := by
  refine ⟨validation_success_iff, fun v => validation_eq_ok_iff, ?_,
    fun r => checkResult_eq_ok_iff, ?_⟩
  · rintro s js rfl parsed
    exact ⟨fun j mem e => validation_of_mem_faulty parsed mem,
      fun e => validation_eq_error_iff parsed⟩
  · rintro r s ms accepted rfl parsed
    obtain ⟨_, ns, ⟨⟩, parsed', concludes⟩ := checkResult_eq_ok_iff.1 accepted
    cases parsed.symm.trans parsed'
    exact concludes.isSuccess_iff

theorem outcomes_as_reported_failure :
    let entries := "[\x7b\"key\":null,\"message\":\"m\"\x7d,\x7b\"key\":\"k\"\x7d]"
    let check := "\x7b\"status\":\"failure\",\"messages\":[\"m\"]\x7d"
    validation (some entries) =
        .error { payload := .validation, rule := .required, field := "message" } ∧
      checkResult (some check) = .ok ⟨.failure, ["m"]⟩ ∧
      (CheckResult.isSuccess ⟨.failure, ["m"]⟩ = true ↔ ("status", .str "success") ∈
        [("status", Json.str "failure"), ("messages", Json.list [.str "m"])]) := by
  intro entries check
  let sound : Members := [("key", .null), ("message", .str "m")]
  let unsaid : Members := [("key", .str "k")]
  have listed : Json.parse entries = .ok (.list [.map sound, .map unsaid]) := by decide +kernel
  have parsed : Json.parse check =
      .ok (.map [("status", .str "failure"), ("messages", .list [.str "m"])]) := by decide +kernel
  have complaint : IsComplaint (.map sound) ⟨"", "m"⟩ :=
    ⟨sound, rfl, by decide, .inr ⟨by simp [Members.Lacks, sound], rfl⟩, by simp [sound]⟩
  have faulty : Faulty (.map unsaid)
      { payload := .validation, rule := .required, field := "message" } := by
    refine .noMessage (by decide) ?_ (by simp [Members.Lacks, unsaid])
    rintro ⟨j, mem, -, other⟩
    cases List.mem_singleton.1 mem
    exact other "k" rfl
  obtain ⟨-, -, list, -, -⟩ := outcomes_as_reported (some entries)
  obtain ⟨-, -, -, -, status⟩ := outcomes_as_reported (some check)
  have accepted : checkResult (some check) = .ok ⟨.failure, ["m"]⟩ := by decide +kernel
  refine ⟨?_, accepted, status _ _ _ accepted rfl parsed⟩
  refine ((list entries _ rfl listed).2 _).2 ⟨[.map sound], .map unsaid, [], rfl, ?_, faulty⟩
  intro i mem
  rw [List.mem_singleton.1 mem]
  exact exists_isComplaint_iff.1 ⟨_, complaint⟩

def Unfit (j : Json) : Prop :=
  ∀ ms : Members, j = .map ms → ms.Lacks "message" ∨ ms.Mistypes "key" ∨ ms.Mistypes "message"

/-- An entry that repeats a name is complained about before a later one that is unfit, though it is
not unfit itself. -/
theorem repeated_name_before_unfit :
    let entry : Members := [("key", .str "a"), ("key", .str "b"), ("message", .str "m")]
    let unfit : Error := { payload := .validation, rule := .shape .listOfMaps }
    let s := "[\x7b\"key\":\"a\",\"key\":\"b\",\"message\":\"m\"\x7d,5]"
    Json.parse s = .ok (.list [.map entry, .int 5]) ∧
      (¬Unfit (.map entry) ∧ Unfit (.int 5) ∧ validationError (.int 5) = .error unfit) ∧
      validation (some s) ≠ .error unfit ∧
      validation (some s) =
        .error { payload := .validation, rule := .declaredOnce, key := "key" } := by
  intro entry unfit s
  have refused : validation (some s) =
      .error { payload := .validation, rule := .declaredOnce, key := "key" } := by decide +kernel
  refine ⟨by decide +kernel, ⟨fun h => ?_, nofun, rfl⟩, ?_, refused⟩
  · simpa [Members.Lacks, Members.Mistypes, entry] using h entry rfl
  · rw [refused]
    simp [unfit]

end ScmPlugins.Response
