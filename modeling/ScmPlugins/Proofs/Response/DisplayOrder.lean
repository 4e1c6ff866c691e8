import ScmPlugins.Proofs.Json.Range
import ScmPlugins.Proofs.Response.Declaration
import ScmPlugins.Proofs.Response.Texts

namespace ScmPlugins.Response

open Json (IsInteger IsMap IsNumber IsValue Overflows Wraps maxDepth minusZero value)

/-- A declaration but for the display order under one key: the entries and the options around it. -/
structure Frame (α : Type) where
  key : String
  front : List (String × α)
  rest : List (String × α)
  before : List (String × α)
  after : List (String × α)

namespace Frame

def Filled (f : Frame (List Char)) (v : List Char) (s : String) : Prop :=
  ∃ body entry, Wraps s.toList body ∧ IsMap body (f.front ++ (f.key, entry) :: f.rest) ∧
    IsMap entry (f.before ++ ("display-order", v) :: f.after)

def options (t : Frame Json) (j : Json) : Members := t.before ++ ("display-order", j) :: t.after

def entries (t : Frame Json) (j : Json) : Members :=
  t.front ++ (t.key, .map (t.options j)) :: t.rest

def ReadAt (depth : Nat) : List (String × List Char) → Members → Prop :=
  List.Forall₂ fun m a => m.1 = a.1 ∧ (value depth).run m.2 = .ok (a.2, [])

structure ReadsAs (f : Frame (List Char)) (t : Frame Json) : Prop where
  key : f.key = t.key
  front : ReadAt 126 f.front t.front
  rest : ReadAt 126 f.rest t.rest
  before : ReadAt 125 f.before t.before
  after : ReadAt 125 f.after t.after

section Texts

variable {f : Frame (List Char)} {t : Frame Json} {v : List Char} {s : String} {j : Json}

theorem Filled.parse_of_readsAs (h : f.Filled v s) (reads : f.ReadsAs t)
    (read : (value 125).run v = .ok (j, [])) : Json.parse s = .ok (.map (t.entries j)) := by
  obtain ⟨body, entry, wraps, outer, inner⟩ := h
  have options : (value 126).run entry = .ok (.map (t.options j), []) := by
    refine (Json.run_map_eq_ok_iff 125 inner).2 ⟨_, rfl, ?_⟩
    exact Json.forall₂_append_cons_iff.2 ⟨_, _, _, rfl, reads.before, ⟨rfl, read⟩, reads.after⟩
  have entries : (value 127).run body = .ok (.map (t.entries j), []) := by
    refine (Json.run_map_eq_ok_iff 126 outer).2 ⟨_, rfl, ?_⟩
    exact Json.forall₂_append_cons_iff.2
      ⟨_, _, _, rfl, reads.front, ⟨reads.key, options⟩, reads.rest⟩
  exact Json.parse_eq_ok_iff_wraps.2 ⟨body, wraps, entries⟩

theorem Filled.exists_readsAs (h : f.Filled v s) (parsed : Json.parse s = .ok j) :
    ∃ t k, f.ReadsAs t ∧ (value 125).run v = .ok (k, []) ∧ j = .map (t.entries k) := by
  obtain ⟨body, entry, wraps, outer, inner⟩ := h
  obtain ⟨body', wraps', read⟩ := Json.parse_eq_ok_iff_wraps.1 parsed
  obtain rfl := wraps.unique wraps'
  obtain ⟨_, rfl, entries⟩ := (Json.run_map_eq_ok_iff 126 outer).1 read
  obtain ⟨front, ⟨key, k⟩, rest, rfl, hfront, ⟨rfl, entry_read⟩, hrest⟩ :=
    Json.forall₂_append_cons_iff.1 entries
  obtain ⟨_, rfl, options⟩ := (Json.run_map_eq_ok_iff 125 inner).1 entry_read
  obtain ⟨before, ⟨name, j⟩, after, rfl, hbefore, ⟨rfl, found⟩, hafter⟩ :=
    Json.forall₂_append_cons_iff.1 options
  exact ⟨⟨f.key, front, rest, before, after⟩, j, ⟨rfl, hfront, hrest, hbefore, hafter⟩, found, rfl⟩

end Texts

def misread (key : String) : Error :=
  { payload := .configuration, rule := .shape .integer, key, field := "display-order" }

section Trees

variable {t : Frame Json} {j j' : Json} {n : Int}

theorem names_options (t : Frame Json) (j j' : Json) :
    (t.options j).names = (t.options j').names := by
  simp [options]

theorem mem_options_iff {name : String} (h : name ≠ "display-order") {k : Json} :
    (name, k) ∈ t.options j ↔ (name, k) ∈ t.before ∨ (name, k) ∈ t.after := by
  simp [options, h]

theorem eq_of_mem_options (distinct : (t.options j).names.Nodup)
    {k : Json} (h : ("display-order", k) ∈ t.options j) : k = j := by
  have here : ("display-order", j) ∈ t.options j := by simp [options]
  rw [← Members.get?_eq_some_iff distinct] at h here
  exact Option.some.inj (h.symm.trans here)

theorem suits_options (h : WellFormed (t.options j)) {f : String × Shape} (hf : f ∈ optionShapes)
    (other : f.1 ≠ "display-order") (j' : Json) : (t.options j').Suits f.1 f.2 := by
  intro k hk
  rw [mem_options_iff other] at hk
  exact h.suits f hf k ((mem_options_iff other).2 hk)

theorem suits_displayOrder_iff (distinct : (t.options j).names.Nodup) :
    (t.options j).Suits "display-order" .integer ↔ Fits .integer j := by
  constructor
  · intro suits
    exact suits j (by simp [options])
  · intro fits k hk
    rwa [eq_of_mem_options distinct hk]

theorem wellFormed_or_malformed (h : WellFormed (t.options j)) (j' : Json) :
    (Fits .integer j' → WellFormed (t.options j')) ∧
      (¬Fits .integer j' → Malformed t.key (.map (t.options j')) (misread t.key)) := by
  have distinct : (t.options j').names.Nodup := names_options t j j' ▸ h.distinct
  rw [← suits_displayOrder_iff distinct]
  constructor
  · intro suits
    refine ⟨distinct, fun f hf => ?_⟩
    by_cases other : f.1 = "display-order"
    · obtain rfl : f = ("display-order", .integer) := by
        simp only [optionShapes, List.mem_cons, List.not_mem_nil, or_false] at hf
        grind
      exact suits
    · exact suits_options h hf other j'
  · intro unfit
    have last : optionShapes = optionShapes.dropLast ++ [("display-order", .integer)] := rfl
    refine .misshapen distinct last ?_ unfit
    intro f hf
    refine suits_options h (List.dropLast_subset _ hf) ?_ j'
    simp only [optionShapes, List.dropLast, List.mem_cons, List.not_mem_nil, or_false] at hf
    grind

theorem isDeclaration_or_refused (h : IsDeclaration (.map (t.entries j))) (j' : Json) :
    (Fits .integer j' → IsDeclaration (.map (t.entries j'))) ∧
      (¬Fits .integer j' → Refused (.map (t.entries j')) (misread t.key)) := by
  obtain ⟨_, ⟨⟩, distinct, right⟩ := h
  have names : (t.entries j').names = (t.entries j).names := by simp [entries]
  have here : IsEntry (t.key, .map (t.options j)) := right _ (by simp [entries])
  obtain ⟨_, ⟨⟩, wellFormed⟩ := here.options
  obtain ⟨wellFormed', malformed⟩ := wellFormed_or_malformed wellFormed j'
  have others {m : String × Json} (hm : m ∈ t.front ∨ m ∈ t.rest) : IsEntry m := by
    refine right m ?_
    simp only [entries, List.mem_append, List.mem_cons]
    grind
  constructor
  · intro fits
    refine ⟨_, rfl, names ▸ distinct, fun m hm => ?_⟩
    simp only [entries, List.mem_append, List.mem_cons] at hm
    obtain front | rfl | rest := hm
    · exact others (.inl front)
    · exact ⟨here.key, _, rfl, wellFormed' fits⟩
    · exact others (.inr rest)
  · intro unfit
    simp only [entries, Members.names, List.map_append, List.map_cons] at distinct
    have fresh : t.key ∉ Members.names t.front := fun again =>
      (List.nodup_append.1 distinct).2.2 _ again _ List.mem_cons_self rfl
    refine .entry ⟨t.front, rfl, (List.nodup_append.1 distinct).1, fun m hm => others (.inl hm)⟩ ?_
    exact .malformed here.key fresh (malformed unfit)

theorem get?_options {name : String} (h : name ≠ "display-order") :
    (t.options j).get? name = (t.options j').get? name := by
  simp only [Members.get?, options]
  induction t.before with
  | nil => simp [OrderedMap.find, h.symm]
  | cons m before ih => simp only [List.cons_append, OrderedMap.find, ih]

theorem described_options (distinct : (t.options j).names.Nodup) (low : -0x80000000 ≤ n)
    (high : n < 0x80000000) :
    described (t.options (.int n)) = { described (t.options j) with displayOrder := n } := by
  have here : (t.options (.int n)).get? "display-order" = some (.int n) := by
    rw [Members.get?_eq_some_iff (names_options t j _ ▸ distinct)]
    simp [options]
  have others {name : String} (h : name ≠ "display-order") :
      (t.options (.int n)).get? name = (t.options j).get? name := get?_options h
  simp [described, here, others, int32?, low, high]

end Trees

end Frame

section Entries

variable {before c : Configuration} {ms : Members}

def IsReadAs (m : String × Json) (e : String × Property) : Prop :=
  m.1 = e.1 ∧ property m.1 m.2 = .ok e.2

theorem isReadAs_unique : Relator.RightUnique IsReadAs := by
  rintro ⟨key, j⟩ ⟨_, p⟩ ⟨_, q⟩ ⟨rfl, hp⟩ ⟨rfl, hq⟩
  obtain rfl : p = q := Except.ok.inj (hp.symm.trans hq)
  rfl

theorem entries_of_properties (h : properties before ms = .ok c) :
    ∃ es, c.entries = before.entries ++ es ∧ List.Forall₂ IsReadAs ms es := by
  induction ms generalizing before with
  | nil =>
    cases h
    exact ⟨[], by simp, .nil⟩
  | cons m ms ih =>
    obtain ⟨key, j⟩ := m
    unfold properties at h
    split at h
    · cases h
    · split at h
      · cases h
      · rename_i fresh
        split at h
        · cases h
        · rename_i p read
          obtain ⟨es, found, reads⟩ := ih h
          have added := entries_insert_of_fresh (p := p) (mt contains_eq_true_iff.2 fresh)
          refine ⟨(key, p) :: es, ?_, .cons ⟨rfl, read⟩ reads⟩
          simp [found, added]

theorem exists_of_configuration {s : String} (h : configuration (some s) = .ok c) :
    ∃ j, Json.parse s = .ok j ∧ configurationOf .configuration .map j = .ok c := by
  obtain ⟨j, found, read⟩ := Except.bind_eq_ok_iff.1 h
  obtain ⟨_, ⟨⟩, parsed, -⟩ := document_eq_ok_iff.1 found
  exact ⟨j, parsed, read⟩

theorem properties_of_configuration {s : String} (parsed : Json.parse s = .ok (.map ms))
    (h : configuration (some s) = .ok c) : properties ∅ ms = .ok c := by
  obtain ⟨j, parsed', read⟩ := exists_of_configuration h
  rw [parsed] at parsed'
  cases parsed'
  exact read

end Entries

section Numbers

variable {f : Frame (List Char)} {v : List Char} {s s₀ : String} {c₀ : Configuration} {n : Int}

/-- A whole number of 32 bits, and not a zero with a minus sign. -/
structure IsDisplayOrder (v : List Char) (n : Int) : Prop where
  integer : IsInteger v n
  notMinusZero : v ≠ minusZero
  low : -2147483648 ≤ n
  high : n ≤ 2147483647

theorem fits_integer_iff (number : IsNumber v) {depth : Nat} {j : Json}
    (read : (value depth).run v = .ok (j, [])) :
    Fits .integer j ↔ ∃ n, IsDisplayOrder v n ∧ j = .int n := by
  constructor
  · rintro (_ | _ | ⟨low, high⟩)
    obtain ⟨integer, -, notMinusZero⟩ := (Json.run_value_int_iff number).1 read
    exact ⟨_, ⟨integer, notMinusZero, low, by omega⟩, rfl⟩
  · rintro ⟨n, order, rfl⟩
    exact .integer order.low (by have := order.high; omega)

theorem IsDisplayOrder.run_value (order : IsDisplayOrder v n) (number : IsNumber v) (depth : Nat) :
    (value depth).run v = .ok (.int n, []) := by
  have low := order.low
  have high := order.high
  have whole : Json.IsWhole n := ⟨by omega, by omega⟩
  exact (Json.run_value_int_iff number).2 ⟨order.integer, whole, order.notMinusZero⟩

theorem Frame.Filled.exists_of_accepted (filled₀ : f.Filled ['0'] s₀)
    (accepted : configuration (some s₀) = .ok c₀) :
    ∃ t, f.ReadsAs t ∧ properties ∅ (t.entries (.int 0)) = .ok c₀ ∧
      IsDeclaration (.map (t.entries (.int 0))) := by
  obtain ⟨j, parsed, read⟩ := exists_of_configuration accepted
  obtain ⟨t, k, reads, zero, rfl⟩ := filled₀.exists_readsAs parsed
  have zero' : (value 125).run ['0'] = .ok (.int 0, []) := rfl
  obtain rfl : k = .int 0 := by
    rw [zero'] at zero
    cases zero
    rfl
  exact ⟨t, reads, read, isDeclaration_of_configurationOf read⟩

theorem Frame.exists_exchanged {t : Frame Json} {j : Json} {c : Configuration}
    (low : -0x80000000 ≤ n) (high : n < 0x80000000) (read₀ : properties ∅ (t.entries j) = .ok c₀)
    (read : properties ∅ (t.entries (.int n)) = .ok c) :
    ∃ front p rest, c₀.entries = front ++ (t.key, p) :: rest ∧
      c.entries = front ++ (t.key, { p with displayOrder := n }) :: rest := by
  obtain ⟨es₀, found₀, reads₀⟩ := entries_of_properties read₀
  obtain ⟨es, found, reads⟩ := entries_of_properties read
  obtain ⟨front, ⟨_, p₀⟩, rest, rfl, hfront₀, ⟨rfl, here₀⟩, hrest₀⟩ :=
    Json.forall₂_append_cons_iff.1 reads₀
  obtain ⟨front', ⟨_, p⟩, rest', rfl, hfront, ⟨rfl, here⟩, hrest⟩ :=
    Json.forall₂_append_cons_iff.1 reads
  obtain rfl := List.right_unique_forall₂' isReadAs_unique hfront₀ hfront
  obtain rfl := List.right_unique_forall₂' isReadAs_unique hrest₀ hrest
  obtain ⟨_, ⟨⟩, wellFormed, rfl⟩ := property_eq_ok here₀
  obtain ⟨_, ⟨⟩, -, rfl⟩ := property_eq_ok here
  refine ⟨front, _, rest, found₀, ?_⟩
  rw [found, described_options wellFormed.distinct low high]
  rfl

theorem Frame.Filled.taken (filled : f.Filled v s) (number : IsNumber v) {t : Frame Json}
    (reads : f.ReadsAs t) (read₀ : properties ∅ (t.entries (.int 0)) = .ok c₀)
    (declared : IsDeclaration (.map (t.entries (.int 0)))) (order : IsDisplayOrder v n) :
    ∃ front p rest c, c₀.entries = front ++ (f.key, p) :: rest ∧
      configuration (some s) = .ok c ∧
      c.entries = front ++ (f.key, { p with displayOrder := n }) :: rest := by
  have parsed := filled.parse_of_readsAs reads (order.run_value number 125)
  have fits : Fits .integer (.int n) :=
    (fits_integer_iff number (order.run_value number 125)).2 ⟨n, order, rfl⟩
  obtain ⟨-, c, -, read, -⟩ :=
    configuration_of_isDeclaration parsed ((t.isDeclaration_or_refused declared _).1 fits)
  obtain ⟨front, p, rest, found₀, found⟩ :=
    Frame.exists_exchanged (by have := order.low; omega) (by have := order.high; omega) read₀
      (properties_of_configuration parsed read)
  rw [← reads.key] at found₀ found
  exact ⟨front, p, rest, c, found₀, read, found⟩

theorem Frame.Filled.refused (filled : f.Filled v s) (number : IsNumber v) {t : Frame Json}
    (reads : f.ReadsAs t) (declared : IsDeclaration (.map (t.entries (.int 0))))
    (none : ∀ n, ¬IsDisplayOrder v n) (finite : ¬Overflows v) :
    configuration (some s) = .error (misread f.key) := by
  obtain ⟨j, read⟩ := Json.exists_run_value 125 number finite
  have unfit : ¬Fits .integer j := by
    rw [fits_integer_iff number read]
    rintro ⟨n, order, -⟩
    exact none n order
  have refused := (Frame.isDeclaration_or_refused declared j).2 unfit
  rw [← reads.key] at refused
  exact configuration_of_refused (filled.parse_of_readsAs reads read) refused

theorem Frame.Filled.overflowed (filled : f.Filled v s) (number : IsNumber v)
    (overflows : Overflows v) : ∃ detail, configuration (some s) =
      .error { payload := .configuration, rule := .validJson detail } := by
  obtain ⟨fault, failed⟩ := (Json.run_value_eq_error_iff 125 number).2 overflows
  have visible : Text.isBlank s = false := by
    obtain ⟨body, -, wraps, -⟩ := filled
    exact isBlank_of_wraps wraps
  cases parsed : Json.parse s with
  | ok j =>
    obtain ⟨-, k, -, read, -⟩ := filled.exists_readsAs parsed
    rw [failed] at read
    cases read
  | error fault =>
    refine ⟨fault.message, ?_⟩
    rw [configuration, document, document?_of_fault visible parsed]
    rfl

theorem isMap_single (k : String) (h : IsValue v) :
    IsMap ('\x7b' :: (Json.renderString k ++ ':' :: (v ++ ['\x7d']))) [(k, v)] := by
  obtain ⟨q, written, quoted⟩ := Json.exists_isQuoted_renderString k
  have spells := Json.spells_renderString k
  rw [written] at spells ⊢
  exact ⟨[('"' :: q, v)], ⟨_, rfl, .member (.first Json.spaces_nil) quoted Json.spaces_nil
    Json.spaces_nil h (.lastMember Json.spaces_nil)⟩, .cons ⟨spells, rfl⟩ .nil⟩

def alone (key : String) (v : List Char) : String :=
  .ofList ('\x7b' :: (Json.renderString key ++
    ':' :: ('\x7b' :: (Json.renderString "display-order" ++ ':' :: (v ++ ['\x7d'])) ++ ['\x7d'])))

theorem filled_alone (key : String) (h : IsNumber v) :
    Frame.Filled ⟨key, [], [], [], []⟩ v (alone key v) := by
  have inner := isMap_single "display-order" (.number h)
  have outer := isMap_single key inner.isValue
  refine ⟨_, _, ⟨[], [], ?_, Json.spaces_nil, Json.spaces_nil, outer.isValue⟩, outer, inner⟩
  simp [alone]

/-- A number in the place of a display order is taken for what it says or refused, in any body that
is accepted with a zero there. Only a size of about 1.8 * 10^308 or more makes it no JSON at all. -/
theorem display_order_exact (number : IsNumber v) (filled : f.Filled v s)
    (filled₀ : f.Filled ['0'] s₀) (accepted : configuration (some s₀) = .ok c₀) :
    (∀ n, IsDisplayOrder v n →
      ∃ front p rest c, c₀.entries = front ++ (f.key, p) :: rest ∧
        configuration (some s) = .ok c ∧
        c.entries = front ++ (f.key, { p with displayOrder := n }) :: rest) ∧
      ((∀ n, ¬IsDisplayOrder v n) → ¬Overflows v →
        configuration (some s) = .error
          { payload := .configuration, rule := .shape .integer, key := f.key,
            field := "display-order" }) ∧
      (Overflows v → ∃ detail, configuration (some s) =
        .error { payload := .configuration, rule := .validJson detail }) ∧
      ∀ l, Json.Literal.scan .invalidNumber v = .ok (l, []) →
        (l.size ≤ 17 * 10 ^ 307 → ¬Overflows v) ∧ (18 * 10 ^ 307 ≤ l.size → Overflows v) := by
  obtain ⟨t, reads, read₀, declared⟩ := filled₀.exists_of_accepted accepted
  refine ⟨fun n => filled.taken number reads read₀ declared,
    filled.refused number reads declared, filled.overflowed number, fun l scanned => ?_⟩
  exact ⟨Json.not_overflows_of_le scanned, Json.overflows_of_le scanned⟩

theorem display_order_exact_limit :
    (∃ p c, configuration (some "\x7b\"url\":\x7b\"display-order\":2147483647\x7d\x7d") = .ok c ∧
      c.entries = [("url", p)] ∧ p.displayOrder = 2147483647) ∧
      configuration (some "\x7b\"url\":\x7b\"display-order\":2147483648\x7d\x7d") = .error
        { payload := .configuration, rule := .shape .integer, key := some "url",
          field := some "display-order" } := by
  have integer {d : Char} {ds : List Char} (h : (d :: ds).all Char.isDigit ∧ d ≠ '0') :
      IsInteger (d :: ds) (Decimal.valueOf (d :: ds)) := by
    simp only [List.all_cons, Bool.and_eq_true, List.all_eq_true] at h
    exact .plain (.digits h.1.1 h.2 h.1.2)
  have greatest : IsInteger "2147483647".toList 2147483647 := integer (by decide)
  have next : IsInteger "2147483648".toList 2147483648 := integer (by decide)
  have read : (value 0).run "2147483648".toList = .ok (.int 2147483648, []) := by decide +kernel
  have accepted : configuration (some (alone "url" ['0'])) = .ok (.ofList [("url", {})]) := by
    decide +kernel
  have zero := filled_alone "url" (IsInteger.plain .zero).isNumber
  constructor
  · have order : IsDisplayOrder "2147483647".toList 2147483647 :=
      ⟨greatest, by decide, by decide, by decide⟩
    obtain ⟨front, p, rest, c, found₀, read, found⟩ :=
      (display_order_exact greatest.isNumber (filled_alone "url" greatest.isNumber) zero accepted).1
        _ order
    have length : 1 = (front ++ (_, p) :: rest).length := congrArg List.length found₀
    obtain ⟨rfl, rfl⟩ : front = [] ∧ rest = [] := by
      simp only [List.length_append, List.length_cons] at length
      exact ⟨List.eq_nil_of_length_eq_zero (by omega), List.eq_nil_of_length_eq_zero (by omega)⟩
    exact ⟨_, c, read, found, rfl⟩
  · have finite : ¬Overflows "2147483648".toList := by
      rw [← Json.run_value_eq_error_iff 0 next.isNumber, read]
      rintro ⟨f, ⟨⟩⟩
    have none (n : Int) : ¬IsDisplayOrder "2147483648".toList n := by
      rintro ⟨integer, -, -, high⟩
      obtain rfl : n = 2147483648 := integer.unique next
      omega
    exact (display_order_exact next.isNumber (filled_alone "url" next.isNumber) zero accepted).2.1
      none finite

/-- A zero with a minus sign is a whole number within the limits, and is refused all the same. -/
theorem minus_zero_refused :
    IsInteger ['-', '0'] 0 ∧
      configuration (some "\x7b\"url\":\x7b\"display-order\":-0\x7d\x7d") = .error
        { payload := .configuration, rule := .shape .integer, key := some "url",
          field := some "display-order" } :=
  ⟨.minus .zero, by decide +kernel⟩

end Numbers

end ScmPlugins.Response
