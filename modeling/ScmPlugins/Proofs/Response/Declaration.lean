import ScmPlugins.Proofs.Response.Bodies

/-!
Declarations of a configuration: which bodies are read as one, as what, and what is complained about
in the others. The first entry that is wrong decides, and in it the first option in the order in
which options are read.
-/

namespace ScmPlugins.Response

def optionShapes : List (String × Shape) := [
  ("value", .string), ("default-value", .string), ("required", .boolean), ("secure", .boolean),
  ("part-of-identity", .boolean), ("display-name", .string), ("display-order", .integer)]

inductive Fits : Shape → Json → Prop
  | string (s : String) : Fits .string (.str s)
  | boolean (b : Bool) : Fits .boolean (.bool b)
  | integer {n : Int} (low : -0x80000000 ≤ n) (high : n < 0x80000000) : Fits .integer (.int n)

namespace Members

def Suits (os : Members) (name : String) (shape : Shape) : Prop :=
  ∀ j, (name, j) ∈ os → Fits shape j

def Says (os : Members) (name : String) (j : Json) (otherwise : Prop) : Prop :=
  (name, j) ∈ os ∨ name ∉ os.names ∧ otherwise

end Members

/-- Options of one property, under distinct names. Names of no option may hold anything. -/
structure WellFormed (os : Members) : Prop where
  distinct : os.names.Nodup
  suits : ∀ f ∈ optionShapes, os.Suits f.1 f.2

structure IsEntry (m : String × Json) : Prop where
  key : Text.isBlank m.1 = false
  options : ∃ os, m.2 = .map os ∧ WellFormed os

def IsDeclaration (j : Json) : Prop :=
  ∃ ms : Members, j = .map ms ∧ ms.names.Nodup ∧ ∀ m ∈ ms, IsEntry m

structure Describes (os : Members) (p : Property) : Prop where
  value : os.Says "value" (.str p.value) (os.Says "default-value" (.str p.value) (p.value = ""))
  required : os.Says "required" (.bool p.required) (p.required = false)
  secure : os.Says "secure" (.bool p.secure) (p.secure = false)
  partOfIdentity : os.Says "part-of-identity" (.bool p.partOfIdentity) (p.partOfIdentity = false)
  displayName : os.Says "display-name" (.str p.displayName) (p.displayName = "")
  displayOrder : os.Says "display-order" (.int p.displayOrder) (p.displayOrder = 0)

def Declares (m : String × Json) (e : String × Property) : Prop :=
  e.1 = m.1 ∧ ∃ os, m.2 = .map os ∧ Describes os e.2

inductive Malformed (key : String) : Json → Error → Prop
  | notMap {j : Json} (h : ∀ os, j ≠ .map os) :
      Malformed key j { payload := .configuration, rule := .shape .map, key }
  | repeated {front rest : Members} {name : String} {j : Json} (distinct : front.names.Nodup)
      (again : name ∈ front.names) :
      Malformed key (.map (front ++ (name, j) :: rest))
        { payload := .configuration, rule := .declaredOnce, key := name }
  | misshapen {os : Members} {before after : List (String × Shape)} {field : String} {shape : Shape}
      (distinct : os.names.Nodup) (order : optionShapes = before ++ (field, shape) :: after)
      (suits : ∀ f ∈ before, os.Suits f.1 f.2) (unfit : ¬os.Suits field shape) :
      Malformed key (.map os) { payload := .configuration, rule := .shape shape, key, field }

inductive Complaint (earlier : List String) (key : String) (j : Json) : Error → Prop
  | blank (h : Text.isBlank key = true) :
      Complaint earlier key j { payload := .configuration, rule := .keyPresent }
  | repeated (present : Text.isBlank key = false) (again : key ∈ earlier) :
      Complaint earlier key j { payload := .configuration, rule := .declaredOnce, key }
  | malformed {e : Error} (present : Text.isBlank key = false) (fresh : key ∉ earlier)
      (h : Malformed key j e) : Complaint earlier key j e

/-- What is wrong with a body as a whole, or with its first entry that is wrong. -/
inductive Refused : Json → Error → Prop
  | null : Refused .null { payload := .configuration, rule := .bodyPresent }
  | notMap {j : Json} (null : j ≠ .null) (h : ∀ ms, j ≠ .map ms) :
      Refused j { payload := .configuration, rule := .shape .map }
  | entry {front rest : Members} {key : String} {j : Json} {e : Error}
      (declaration : IsDeclaration (.map front)) (h : Complaint front.names key j e) :
      Refused (.map (front ++ (key, j) :: rest)) e

section Names

variable {seen front rest names : List String} {k : String}

theorem repeated?_append (h : repeated? seen front = none) (again : k ∈ seen ∨ k ∈ front) :
    repeated? seen (front ++ k :: rest) = some k := by
  induction front generalizing seen with
  | nil =>
    have again : k ∈ seen := by simpa using again
    rw [List.nil_append, repeated?, if_pos again]
  | cons l front ih =>
    have fresh : l ∉ seen := fun member => by simp [repeated?, member] at h
    rw [repeated?, if_neg fresh] at h
    rw [List.cons_append, repeated?, if_neg fresh]
    refine ih h ?_
    simpa [or_comm, or_assoc, or_left_comm] using again

theorem exists_append_of_repeated? (h : repeated? seen names = some k) :
    ∃ front rest, names = front ++ k :: rest ∧ repeated? seen front = none ∧
      (k ∈ seen ∨ k ∈ front) := by
  induction names generalizing seen with
  | nil => cases h
  | cons l names ih =>
    by_cases again : l ∈ seen
    · rw [repeated?, if_pos again] at h
      cases h
      exact ⟨[], names, rfl, rfl, .inl again⟩
    · rw [repeated?, if_neg again] at h
      obtain ⟨front, rest, rfl, first, earlier⟩ := ih h
      refine ⟨l :: front, rest, rfl, ?_, ?_⟩
      · rw [repeated?, if_neg again, first]
      · simpa [or_comm, or_assoc, or_left_comm] using earlier

theorem Members.exists_repeated {ms : Members} (h : ¬ms.names.Nodup) :
    ∃ (front : Members) (name : String) (j : Json) (rest : Members),
      ms = front ++ (name, j) :: rest ∧ front.names.Nodup ∧ name ∈ front.names := by
  cases found : repeated? [] ms.names with
  | none => exact absurd (repeated?_eq_none_iff.1 found).1 h
  | some name =>
    obtain ⟨front, rest, split, first, again⟩ := exists_append_of_repeated? found
    obtain ⟨front, rest, rfl, rfl, rest_eq⟩ := List.map_eq_append_iff.1 split
    obtain ⟨⟨name, j⟩, rest, rfl, rfl, rfl⟩ := List.map_eq_cons_iff.1 rest_eq
    exact ⟨front, name, j, rest, rfl, (repeated?_eq_none_iff.1 first).1, by simpa using again⟩

end Names

section Options

variable {os : Members} {key field name : String} {shape : Shape}

structure Converts {α : Type} (convert : Json → Option α) (write : α → Json) (shape : Shape) :
    Prop where
  write_of_eq_some : ∀ {j a}, convert j = some a → j = write a
  isSome_iff : ∀ {j}, (convert j).isSome ↔ Fits shape j

theorem converts_str? : Converts str? .str .string where
  write_of_eq_some {j a} h := by cases j <;> simp_all [str?]
  isSome_iff {j} := by
    constructor
    · intro h
      cases j <;> first | exact .string _ | cases h
    · rintro ⟨⟩
      rfl

theorem converts_bool? : Converts bool? .bool .boolean where
  write_of_eq_some {j a} h := by cases j <;> simp_all [bool?]
  isSome_iff {j} := by
    constructor
    · intro h
      cases j <;> first | exact .boolean _ | cases h
    · rintro ⟨⟩
      rfl

theorem converts_int32? : Converts int32? .int .integer where
  write_of_eq_some {j a} h := by cases j <;> simp_all [int32?]
  isSome_iff {j} := by
    constructor
    · intro h
      cases j with
      | int n =>
        have range : -0x80000000 ≤ n ∧ n < 0x80000000 := by
          by_contra out
          simp [int32?, out] at h
        exact .integer range.1 range.2
      | _ => cases h
    · rintro (_ | _ | ⟨low, high⟩)
      simp [int32?, low, high]

theorem suits_of_get?_eq_none (h : os.get? field = none) : os.Suits field shape := by
  intro j member
  rw [Members.get?_eq_none_iff] at h
  exact absurd (List.mem_map_of_mem (f := (·.1)) member) h

theorem suits_iff_of_get?_eq_some (distinct : os.names.Nodup) {j : Json}
    (h : os.get? field = some j) : os.Suits field shape ↔ Fits shape j := by
  constructor
  · intro suits
    exact suits j ((Members.get?_eq_some_iff distinct).1 h)
  · intro fits k member
    obtain rfl : j = k := by
      simpa [h] using (Members.get?_eq_some_iff distinct).2 member
    exact fits

theorem option_of_suits {α : Type} {convert : Json → Option α} {write : α → Json}
    (distinct : os.names.Nodup) (converts : Converts convert write shape)
    (suits : os.Suits field shape) :
    option os key field convert shape = .ok ((os.get? field).bind convert) := by
  unfold option
  cases found : os.get? field with
  | none => rfl
  | some j =>
    have fits := (suits_iff_of_get?_eq_some distinct found).1 suits
    obtain ⟨a, ha⟩ := Option.isSome_iff_exists.1 (converts.isSome_iff.2 fits)
    simp [ha]

theorem option_of_not_suits {α : Type} {convert : Json → Option α} {write : α → Json}
    (distinct : os.names.Nodup) (converts : Converts convert write shape)
    (unfit : ¬os.Suits field shape) :
    option os key field convert shape =
      .error { payload := .configuration, rule := .shape shape, key, field } := by
  unfold option
  cases found : os.get? field with
  | none => exact absurd (suits_of_get?_eq_none found) unfit
  | some j =>
    rw [suits_iff_of_get?_eq_some distinct found, ← converts.isSome_iff,
      Option.not_isSome_iff_eq_none] at unfit
    simp [unfit]

theorem absent_or_written {α : Type} {convert : Json → Option α} {write : α → Json}
    (distinct : os.names.Nodup) (converts : Converts convert write shape)
    (suits : os.Suits name shape) :
    name ∉ os.names ∧ (os.get? name).bind convert = none ∨
      ∃ a, (name, write a) ∈ os ∧ (os.get? name).bind convert = some a := by
  cases found : os.get? name with
  | none => exact .inl ⟨Members.get?_eq_none_iff.1 found, rfl⟩
  | some j =>
    have fits := (suits_iff_of_get?_eq_some distinct found).1 suits
    obtain ⟨a, ha⟩ := Option.isSome_iff_exists.1 (converts.isSome_iff.2 fits)
    obtain rfl := converts.write_of_eq_some ha
    exact .inr ⟨a, (Members.get?_eq_some_iff distinct).1 found, ha⟩

theorem says_getD {α : Type} {convert : Json → Option α} {write : α → Json} {a : α}
    (distinct : os.names.Nodup) (converts : Converts convert write shape)
    (suits : os.Suits name shape) :
    os.Says name (write (((os.get? name).bind convert).getD a))
      (((os.get? name).bind convert).getD a = a) := by
  obtain ⟨absent, read⟩ | ⟨b, written, read⟩ := absent_or_written distinct converts suits
  · rw [read]
    exact .inr ⟨absent, rfl⟩
  · rw [read]
    exact .inl written

def described (os : Members) : Property where
  value := ((os.get? "value").bind str? <|> (os.get? "default-value").bind str?).getD ""
  required := ((os.get? "required").bind bool?).getD false
  secure := ((os.get? "secure").bind bool?).getD false
  partOfIdentity := ((os.get? "part-of-identity").bind bool?).getD false
  displayName := ((os.get? "display-name").bind str?).getD ""
  displayOrder := ((os.get? "display-order").bind int32?).getD 0

theorem WellFormed.describes_described (h : WellFormed os) : Describes os (described os) where
  value := by
    have default := says_getD (a := "") h.distinct converts_str?
      (h.suits ("default-value", .string) (by decide))
    obtain ⟨absent, read⟩ | ⟨s, written, read⟩ :=
      absent_or_written h.distinct converts_str? (h.suits ("value", .string) (by decide))
    · simp only [described, read]
      exact .inr ⟨absent, default⟩
    · simp only [described, read]
      exact .inl written
  required := says_getD h.distinct converts_bool? (h.suits ("required", .boolean) (by decide))
  secure := says_getD h.distinct converts_bool? (h.suits ("secure", .boolean) (by decide))
  partOfIdentity :=
    says_getD h.distinct converts_bool? (h.suits ("part-of-identity", .boolean) (by decide))
  displayName := says_getD h.distinct converts_str? (h.suits ("display-name", .string) (by decide))
  displayOrder :=
    says_getD h.distinct converts_int32? (h.suits ("display-order", .integer) (by decide))

open scoped Classical in
noncomputable def settled (key : String) (os : Members) (p : Property)
    (fs : List (String × Shape)) : Except Error Property :=
  match fs.find? fun f => !decide (os.Suits f.1 f.2) with
  | none => .ok p
  | some (field, shape) => .error { payload := .configuration, rule := .shape shape, key, field }

theorem bind_option {α : Type} {convert : Json → Option α} {write : α → Json} {p : Property}
    {fs : List (String × Shape)} {next : Option α → Except Error Property}
    (distinct : os.names.Nodup) (converts : Converts convert write shape)
    (h : next ((os.get? field).bind convert) = settled key os p fs) :
    (option os key field convert shape >>= next) = settled key os p ((field, shape) :: fs) := by
  by_cases suits : os.Suits field shape
  · rw [option_of_suits distinct converts suits, Except.ok_bind, h]
    simp [settled, suits]
  · rw [option_of_not_suits distinct converts suits]
    simp [settled, suits, Except.error_bind]

theorem property_map (distinct : os.names.Nodup) :
    property key (.map os) = settled key os (described os) optionShapes := by
  have members : named .configuration .map (.map os) = .ok os := named_eq_ok_iff.2 ⟨rfl, distinct⟩
  rw [property, members, Except.ok_bind]
  -- One step for each of the options, in their order.
  refine bind_option distinct converts_str? ?_
  refine bind_option distinct converts_str? ?_
  refine bind_option distinct converts_bool? ?_
  refine bind_option distinct converts_bool? ?_
  refine bind_option distinct converts_bool? ?_
  refine bind_option distinct converts_str? ?_
  refine bind_option distinct converts_int32? ?_
  rfl

open scoped Classical in
theorem property_of_wellFormed (h : WellFormed os) :
    property key (.map os) = .ok (described os) := by
  have none : optionShapes.find? (fun f => !decide (os.Suits f.1 f.2)) = none := by
    rw [List.find?_eq_none]
    intro f hf
    simpa using h.suits f hf
  rw [property_map h.distinct, settled, none]

theorem named_of_repeated {payload : Payload} {expected : Shape} {front rest : Members} {j : Json}
    (distinct : front.names.Nodup) (again : name ∈ front.names) :
    named payload expected (.map (front ++ (name, j) :: rest)) =
      .error { payload, rule := .declaredOnce, key := name } := by
  have first : repeated? [] front.names = none := repeated?_eq_none_iff.2 ⟨distinct, by simp⟩
  have found : repeated? [] (front ++ (name, j) :: rest).names = some name := by
    rw [Members.names, List.map_append, List.map_cons]
    exact repeated?_append first (.inr again)
  simp only [named, checkNames, found, Except.map]

open scoped Classical in
theorem property_of_malformed {j : Json} {e : Error} (h : Malformed key j e) :
    property key j = .error e := by
  cases h with
  | notMap notMap =>
    cases j with
    | map os => exact absurd rfl (notMap os)
    | _ => rfl
  | repeated distinct again =>
    rw [property, named_of_repeated distinct again]
    rfl
  | @misshapen os before after field shape distinct order suits unfit =>
    have first :
        optionShapes.find? (fun f => !decide (os.Suits f.1 f.2)) = some (field, shape) := by
      rw [List.find?_eq_some_iff_append]
      exact ⟨by simpa using unfit, before, after, order, by simpa using suits⟩
    rw [property_map distinct, settled, first]

open scoped Classical in
theorem wellFormed_or_malformed (key : String) (os : Members) :
    WellFormed os ∨ ∃ e, Malformed key (.map os) e := by
  by_cases distinct : os.names.Nodup
  case neg =>
    obtain ⟨front, name, j, rest, rfl, first, again⟩ := Members.exists_repeated distinct
    exact .inr ⟨_, .repeated first again⟩
  case pos =>
    cases found : optionShapes.find? (fun f => !decide (os.Suits f.1 f.2)) with
    | none =>
      rw [List.find?_eq_none] at found
      exact .inl ⟨distinct, fun f hf => by simpa using found f hf⟩
    | some f =>
      obtain ⟨unfit, before, after, order, suits⟩ := List.find?_eq_some_iff_append.1 found
      exact .inr ⟨_, .misshapen distinct order (by simpa using suits) (by simpa using unfit)⟩

theorem property_eq_ok {j : Json} {p : Property} (h : property key j = .ok p) :
    ∃ os, j = .map os ∧ WellFormed os ∧ p = described os := by
  cases j with
  | map os =>
    obtain wellFormed | ⟨e, malformed⟩ := wellFormed_or_malformed key os
    · rw [property_of_wellFormed wellFormed] at h
      cases h
      exact ⟨os, rfl, wellFormed, rfl⟩
    · rw [property_of_malformed malformed] at h
      cases h
  | _ => cases h

theorem malformed_iff {j : Json} {e : Error} : Malformed key j e ↔ property key j = .error e := by
  refine ⟨property_of_malformed, fun h => ?_⟩
  cases j with
  | map os =>
    obtain wellFormed | ⟨e', malformed⟩ := wellFormed_or_malformed key os
    · rw [property_of_wellFormed wellFormed] at h
      cases h
    · obtain rfl : e' = e := by simpa [property_of_malformed malformed] using h
      exact malformed
  | _ =>
    cases h
    exact .notMap nofun

end Options

section Entries

variable {before : Configuration} {earlier : List String} {front rest : Members} {key : String}
  {j : Json} {os : Members} {p : Property} {e : Error}

theorem contains_eq_true_iff : before.contains key = true ↔ key ∈ before.keys :=
  OrderedMap.get?_isSome_iff

theorem keys_insert_of_fresh (fresh : key ∉ before.keys) :
    (before.insert key p).keys = before.keys ++ [key] := by
  rw [OrderedMap.keys_insert, if_neg fresh]

theorem entries_insert_of_fresh (fresh : key ∉ before.keys) :
    (before.insert key p).entries = before.entries ++ [(key, p)] := by
  refine OrderedMap.foldl_insert before [(key, p)] ?_
  have keys := (before.insert key p).nodup
  rw [List.map_append]
  exact keys_insert_of_fresh (p := p) fresh ▸ keys

theorem properties_of_complaint (h : Complaint before.keys key j e) :
    properties before ((key, j) :: rest) = .error e := by
  unfold properties
  cases h with
  | blank blank => rw [if_pos blank]
  | repeated present again =>
    rw [if_neg (by simp [present]), if_pos (contains_eq_true_iff.2 again)]
  | malformed present fresh malformed =>
    rw [if_neg (by simp [present]), if_neg (mt contains_eq_true_iff.1 fresh),
      property_of_malformed malformed]

theorem properties_of_entry (present : Text.isBlank key = false) (fresh : key ∉ before.keys)
    (wellFormed : WellFormed os) :
    properties before ((key, .map os) :: rest) =
      properties (before.insert key (described os)) rest := by
  rw [properties, if_neg (by simp [present]), if_neg (mt contains_eq_true_iff.1 fresh),
    property_of_wellFormed wellFormed]

theorem properties_append (before : Configuration)
    (distinct : (before.keys ++ front.names).Nodup)
    (entries : ∀ m ∈ front, IsEntry m) :
    ∃ after : Configuration, after.keys = before.keys ++ front.names ∧
      (∀ rest, properties before (front ++ rest) = properties after rest) ∧
      ∃ es, after.entries = before.entries ++ es ∧ List.Forall₂ Declares front es := by
  induction front generalizing before with
  | nil => exact ⟨before, by simp, fun rest => rfl, [], by simp, .nil⟩
  | cons m front ih =>
    obtain ⟨key, j⟩ := m
    obtain ⟨present, os, rfl, wellFormed⟩ := entries (key, j) List.mem_cons_self
    have fresh : key ∉ before.keys := by
      intro member
      exact (List.nodup_append.1 distinct).2.2 key member key List.mem_cons_self rfl
    have keys := keys_insert_of_fresh (p := described os) fresh
    obtain ⟨after, after_keys, go, es, after_entries, declares⟩ :=
      ih (before.insert key (described os)) (by simpa [keys] using distinct)
        fun m hm => entries m (List.mem_cons_of_mem _ hm)
    refine ⟨after, ?_, fun rest => ?_, (key, described os) :: es, ?_, ?_⟩
    · simpa [keys] using after_keys
    · rw [List.cons_append, properties_of_entry present fresh wellFormed, go]
    · simpa [entries_insert_of_fresh fresh] using after_entries
    · exact .cons ⟨rfl, os, rfl, wellFormed.describes_described⟩ declares

theorem complaint_or_isEntry (earlier : List String) (key : String) (j : Json) :
    (∃ e, Complaint earlier key j e) ∨ key ∉ earlier ∧ IsEntry (key, j) := by
  cases present : Text.isBlank key with
  | true => exact .inl ⟨_, .blank present⟩
  | false =>
    by_cases again : key ∈ earlier
    · exact .inl ⟨_, .repeated present again⟩
    cases read : property key j with
    | error e => exact .inl ⟨e, .malformed present again (malformed_iff.2 read)⟩
    | ok p =>
      obtain ⟨os, rfl, wellFormed, -⟩ := property_eq_ok read
      exact .inr ⟨again, present, os, rfl, wellFormed⟩

theorem all_entries_or_first_complaint (distinct : earlier.Nodup) (ms : Members) :
    ((earlier ++ ms.names).Nodup ∧ ∀ m ∈ ms, IsEntry m) ∨
      ∃ (front : Members) (key : String) (j : Json) (rest : Members) (e : Error),
        ms = front ++ (key, j) :: rest ∧ (earlier ++ front.names).Nodup ∧
        (∀ m ∈ front, IsEntry m) ∧ Complaint (earlier ++ front.names) key j e := by
  induction ms generalizing earlier with
  | nil => exact .inl ⟨by simpa using distinct, by simp⟩
  | cons m ms ih =>
    obtain ⟨key, j⟩ := m
    obtain ⟨e, complaint⟩ | ⟨fresh, entry⟩ := complaint_or_isEntry earlier key j
    · refine .inr ⟨[], key, j, ms, e, rfl, by simpa using distinct, nofun, ?_⟩
      simpa using complaint
    · have longer : (earlier ++ [key]).Nodup := by
        rw [List.nodup_append]
        exact ⟨distinct, by simp, by rintro a ha b hb rfl; simp_all⟩
      obtain ⟨all, entries⟩ | ⟨front, k, v, rest, e, rfl, all, entries, complaint⟩ := ih longer
      · exact .inl ⟨by simpa using all, List.forall_mem_cons.2 ⟨entry, entries⟩⟩
      · refine .inr ⟨(key, j) :: front, k, v, rest, e, rfl, by simpa using all, ?_, ?_⟩
        · exact List.forall_mem_cons.2 ⟨entry, entries⟩
        · simpa using complaint

theorem isDeclaration_or_refused (j : Json) : IsDeclaration j ∨ ∃ e, Refused j e := by
  cases j with
  | null => exact .inr ⟨_, .null⟩
  | map ms =>
    obtain ⟨distinct, entries⟩ | ⟨front, key, j, rest, e, rfl, distinct, entries, complaint⟩ :=
      all_entries_or_first_complaint List.nodup_nil ms
    · exact .inl ⟨ms, rfl, distinct, entries⟩
    · exact .inr ⟨e, .entry ⟨front, rfl, distinct, entries⟩ complaint⟩
  | _ => exact .inr ⟨_, .notMap nofun nofun⟩

theorem configurationOf_of_isDeclaration (payload : Payload) (expected : Shape)
    (h : IsDeclaration j) :
    ∃ ms c, j = .map ms ∧ configurationOf payload expected j = .ok c ∧
      List.Forall₂ Declares ms c.entries := by
  obtain ⟨ms, rfl, distinct, entries⟩ := h
  obtain ⟨c, -, go, es, found, declares⟩ := properties_append ∅ distinct entries
  have read := go []
  rw [List.append_nil] at read
  refine ⟨ms, c, rfl, read, ?_⟩
  rw [found]
  exact declares

theorem configurationOf_of_complaint (payload : Payload) (expected : Shape)
    (declaration : IsDeclaration (.map front)) (complaint : Complaint front.names key j e) :
    configurationOf payload expected (.map (front ++ (key, j) :: rest)) = .error e := by
  obtain ⟨front, ⟨⟩, distinct, entries⟩ := declaration
  obtain ⟨after, keys, go, -⟩ := properties_append ∅ distinct entries
  rw [configurationOf, go]
  refine properties_of_complaint ?_
  rw [keys]
  exact complaint

theorem isDeclaration_of_configurationOf {payload : Payload} {expected : Shape} {c : Configuration}
    (h : configurationOf payload expected j = .ok c) : IsDeclaration j := by
  obtain declaration | ⟨e, refused⟩ := isDeclaration_or_refused j
  · exact declaration
  cases refused with
  | null => cases h
  | notMap null notMap =>
    cases j with
    | map ms => exact absurd rfl (notMap ms)
    | _ => cases h
  | entry declaration complaint =>
    rw [configurationOf_of_complaint payload expected declaration complaint] at h
    cases h

theorem configuration_of_isDeclaration {s : String} (parsed : Json.parse s = .ok j)
    (h : IsDeclaration j) :
    ∃ ms c, j = .map ms ∧ configuration (some s) = .ok c ∧ List.Forall₂ Declares ms c.entries := by
  have null : j ≠ .null := by
    rintro rfl
    obtain ⟨ms, ⟨⟩, -⟩ := h
  rw [configuration, document_of_parse parsed null]
  exact configurationOf_of_isDeclaration .configuration .map h

theorem configuration_of_refused {s : String} (parsed : Json.parse s = .ok j) (h : Refused j e) :
    configuration (some s) = .error e := by
  cases h with
  | null => rw [configuration, document_of_parse_null parsed, Except.error_bind]
  | notMap null notMap =>
    rw [configuration, document_of_parse parsed null, Except.ok_bind]
    cases j with
    | map ms => exact absurd rfl (notMap ms)
    | _ => rfl
  | entry declaration complaint =>
    rw [configuration, document_of_parse parsed (by simp), Except.ok_bind]
    exact configurationOf_of_complaint .configuration .map declaration complaint

end Entries

/-- A configuration is read from exactly the declarations, as one property for each entry and in
their order. Everything else is refused for its first entry that is wrong. -/
theorem configuration_grammar {s : String} {j : Json} (h : Json.parse s = .ok j) :
    ((∃ c, configuration (some s) = .ok c) ↔ IsDeclaration j) ∧
      (∀ c, configuration (some s) = .ok c →
        ∃ ms, j = .map ms ∧ List.Forall₂ Declares ms c.entries) ∧
      ∀ e, configuration (some s) = .error e ↔ Refused j e := by
  have declared {c : Configuration} (read : configuration (some s) = .ok c) : IsDeclaration j := by
    refine (isDeclaration_or_refused j).resolve_right ?_
    rintro ⟨e, refused⟩
    rw [configuration_of_refused h refused] at read
    cases read
  refine ⟨⟨?_, ?_⟩, ?_, ?_⟩
  · rintro ⟨c, read⟩
    exact declared read
  · intro declaration
    obtain ⟨ms, c, -, read, -⟩ := configuration_of_isDeclaration h declaration
    exact ⟨c, read⟩
  · intro c read
    obtain ⟨ms, d, found, read', declares⟩ := configuration_of_isDeclaration h (declared read)
    obtain rfl := Except.ok.inj (read.symm.trans read')
    exact ⟨ms, found, declares⟩
  · refine fun e => ⟨fun read => ?_, configuration_of_refused h⟩
    obtain declaration | ⟨e', refused⟩ := isDeclaration_or_refused j
    · obtain ⟨ms, c, -, read', -⟩ := configuration_of_isDeclaration h declaration
      rw [read'] at read
      cases read
    · obtain rfl := Except.error.inj ((configuration_of_refused h refused).symm.trans read)
      exact refused

theorem configuration_grammar_repeated :
    let body := "\x7b\"url\":\x7b\"default-value\":\"d\",\"note\":null\x7d," ++
      "\"url\":\x7b\"value\":null\x7d,\" \":1\x7d"
    let first : String × Json := ("url", .map [("default-value", .str "d"), ("note", .null)])
    let tree := Json.map [first, ("url", .map [("value", .null)]), (" ", .int 1)]
    Json.parse body = .ok tree ∧ IsEntry first ∧
      configuration (some body) =
        .error { payload := .configuration, rule := .declaredOnce, key := "url" } := by
  intro body first tree
  have parsed : Json.parse body = .ok tree := by decide +kernel
  have entry : IsEntry first := by
    refine ⟨by decide, _, rfl, by decide, ?_⟩
    simp [optionShapes, Members.Suits, Fits.string]
  refine ⟨parsed, entry, ((configuration_grammar parsed).2.2 _).2 ?_⟩
  have declaration : IsDeclaration (.map [first]) := ⟨_, rfl, by decide, by simpa using entry⟩
  exact .entry declaration (.repeated (by decide) (by decide))

end ScmPlugins.Response
