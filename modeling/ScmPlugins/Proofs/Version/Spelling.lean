import ScmPlugins.Proofs.Json.Grammar
import ScmPlugins.Proofs.Number.Decimal
import ScmPlugins.Proofs.Text.Trim
import ScmPlugins.Version.Json

namespace ScmPlugins

open Decimal (valueOf)
open Json (Digits)

inductive Numeral : List Char → Nat → Prop
  | digits {ds : List Char} (h : Digits ds) : Numeral ds (valueOf ds)
  | plus {ds : List Char} (h : Digits ds) : Numeral ('+' :: ds) (valueOf ds)

/-- A version as it may be spelt, where no number is too great for 16 bits. -/
inductive Version.Spells : List Char → Version → Prop
  | major {s : List Char} {m : UInt16} (major : Numeral s m.toNat) : Spells s ⟨m, 0⟩
  | both {s t : List Char} {m n : UInt16} (major : Numeral s m.toNat) (minor : Numeral t n.toNat) :
      Spells (s ++ '.' :: t) ⟨m, n⟩

section Numerals

variable {s : List Char} {n : Nat} {m : UInt16}

theorem Numeral.mem_digits {c : Char} (h : Numeral s n) (hc : c ∈ s) :
    c = '+' ∨ c.isDigit = true := by
  cases h with
  | digits h => exact .inr (h.2 c hc)
  | plus h => exact (List.mem_cons.1 hc).imp_right (h.2 c)

theorem Numeral.not_mem_point (h : Numeral s n) : '.' ∉ s := by
  intro point
  obtain plus | digit := h.mem_digits point
  · exact absurd plus (by decide)
  · exact absurd digit (by decide)

theorem isBlankChar_of_isDigit {c : Char} (h : c.isDigit = true) : Text.isBlankChar c = false := by
  have range := Decimal.toNat_of_isDigit h
  simp only [Text.isBlankChar, Bool.or_eq_false_iff, Bool.and_eq_false_iff, decide_eq_false_iff_not,
    beq_eq_false_iff_ne]
  omega

theorem Numeral.not_blank (h : Numeral s n) : ∀ c ∈ s, Text.isBlankChar c = false := by
  intro c hc
  obtain rfl | digit := h.mem_digits hc
  · decide
  · exact isBlankChar_of_isDigit digit

theorem not_digits_plus {r : List Char} : ¬Digits ('+' :: r) := fun h =>
  absurd (h.2 '+' List.mem_cons_self) (by decide)

theorem numeral_plus_iff : Numeral ('+' :: s) n ↔ Digits s ∧ valueOf s = n := by
  constructor
  · rintro (⟨h⟩ | ⟨h⟩)
    · exact absurd h not_digits_plus
    · exact ⟨h, rfl⟩
  · rintro ⟨h, rfl⟩
    exact .plus h

theorem numeral_iff_of_ne (plus : ∀ r, s ≠ '+' :: r) : Numeral s n ↔ Digits s ∧ valueOf s = n := by
  constructor
  · rintro (⟨h⟩ | ⟨h⟩)
    · exact ⟨h, rfl⟩
    · exact absurd rfl (plus _)
  · rintro ⟨h, rfl⟩
    exact .digits h

theorem numeral_zero : Numeral ['0'] 0 := .digits ⟨by simp, List.all_eq_true.1 rfl⟩

theorem ofNat_eq_some_iff :
    (if n < 65536 then some (UInt16.ofNat n) else none) = some m ↔ n = m.toNat := by
  constructor
  · intro h
    split at h
    · cases h
      rw [UInt16.toNat_ofNat_of_lt' ‹_›]
    · cases h
  · rintro rfl
    rw [if_pos m.toNat_lt, UInt16.ofNat_toNat]

theorem Version.part?_eq_some_iff : part? s = some m ↔ Numeral s m.toNat := by
  have read {ds : List Char} : (Decimal.digits? ds >>= fun n =>
      if n < 65536 then some (UInt16.ofNat n) else none) = some m ↔
      Digits ds ∧ valueOf ds = m.toNat := by
    simp only [Option.bind_eq_bind, Option.bind_eq_some_iff, Decimal.digits?_eq_some_iff,
      ofNat_eq_some_iff, Digits]
    simp
  unfold part?
  split
  · exact read.trans numeral_plus_iff.symm
  · exact read.trans (numeral_iff_of_ne ‹_›).symm

end Numerals

namespace Version

variable {s t : List Char} {v : Version}

theorem ne_point_of_not_mem (h : '.' ∉ s) : ∀ c ∈ s, (c != '.') = true := by
  intro c hc
  rw [bne_iff_ne]
  rintro rfl
  exact h hc

theorem exists_point (s : List Char) :
    '.' ∉ s ∨ ∃ front rest, s = front ++ '.' :: rest ∧ '.' ∉ front := by
  by_cases point : '.' ∈ s
  · obtain ⟨front, rest, rfl, first⟩ := List.eq_append_cons_of_mem point
    exact .inr ⟨front, rest, rfl, first⟩
  · exact .inl point

theorem ofChars?_of_not_mem (h : '.' ∉ s) :
    ofChars? s = some v ↔ part? s = some v.major ∧ v.minor = 0 := by
  have zero : part? ['0'] = some 0 := part?_eq_some_iff.2 numeral_zero
  have whole : s.takeWhile (· != '.') = s :=
    List.takeWhile_eq_self_iff.2 (ne_point_of_not_mem h)
  have rest : s.dropWhile (· != '.') = [] := List.dropWhile_eq_nil_iff.2 (ne_point_of_not_mem h)
  rw [ofChars?, whole, rest]
  obtain ⟨m, n⟩ := v
  cases part? s <;> simp [zero, eq_comm]

theorem ofChars?_append (h : '.' ∉ s) :
    ofChars? (s ++ '.' :: t) = some v ↔ part? s = some v.major ∧ part? t = some v.minor := by
  have before := ne_point_of_not_mem h
  have front : (s ++ '.' :: t).takeWhile (· != '.') = s := by
    rw [List.takeWhile_append_of_pos before, List.takeWhile_cons_of_neg (by simp), List.append_nil]
  have rest : (s ++ '.' :: t).dropWhile (· != '.') = '.' :: t := by
    rw [List.dropWhile_append_of_pos before, List.dropWhile_cons_of_neg (by simp)]
  rw [ofChars?, front, rest]
  obtain ⟨m, n⟩ := v
  cases part? s <;> cases part? t <;> simp

theorem ofChars?_eq_some_iff : ofChars? s = some v ↔ Spells s v := by
  constructor
  · intro h
    obtain point | ⟨front, rest, rfl, point⟩ := exists_point s
    · obtain ⟨major, minor⟩ := (ofChars?_of_not_mem point).1 h
      obtain ⟨m, n⟩ := v
      obtain rfl : n = 0 := minor
      exact .major (part?_eq_some_iff.1 major)
    · obtain ⟨major, minor⟩ := (ofChars?_append point).1 h
      exact .both (part?_eq_some_iff.1 major) (part?_eq_some_iff.1 minor)
  · rintro (⟨major⟩ | ⟨major, minor⟩)
    · exact (ofChars?_of_not_mem major.not_mem_point).2 ⟨part?_eq_some_iff.2 major, rfl⟩
    · exact (ofChars?_append major.not_mem_point).2
        ⟨part?_eq_some_iff.2 major, part?_eq_some_iff.2 minor⟩

theorem Spells.not_blank (h : Spells s v) : ∀ c ∈ s, Text.isBlankChar c = false := by
  cases h with
  | major major => exact major.not_blank
  | both major minor =>
    refine List.forall_mem_append.2 ⟨major.not_blank, List.forall_mem_cons.2 ⟨by decide, ?_⟩⟩
    exact minor.not_blank

theorem parse_eq_ok_iff {s : String} :
    parse s = .ok v ↔ ∃ t, Text.Trims s.toList t ∧ Spells t v := by
  simp only [parse, ← Text.trim_eq_iff, ← ofChars?_eq_some_iff, exists_eq_left']
  cases ofChars? (Text.trim s.toList) <;> simp

theorem parse_eq_error_iff {s : String} {e : Invalid} :
    parse s = .error e ↔ e = ⟨s⟩ ∧ ∀ t v, Text.Trims s.toList t → ¬Spells t v := by
  have trimmed : (∀ t v, Text.Trims s.toList t → ¬Spells t v) ↔
      ofChars? (Text.trim s.toList) = none := by
    simp only [← Text.trim_eq_iff, ← ofChars?_eq_some_iff, Option.eq_none_iff_forall_ne_some]
    grind
  rw [trimmed, parse]
  cases ofChars? (Text.trim s.toList) <;> simp [eq_comm]

theorem numeral_toDigits (n : Nat) : Numeral (Nat.toDigits 10 n) n := by
  have digits : Digits (Nat.toDigits 10 n) :=
    ⟨Nat.toDigits_ne_nil, fun _ => Json.Literal.isDigit_toDigits⟩
  have value : valueOf (Nat.toDigits 10 n) = n := by
    rw [← Decimal.foldl_eq_valueOf]
    exact Json.ofDigits_toDigits n
  simpa [value] using Numeral.digits digits

theorem spells_digits (v : Version) : Spells v.digits v :=
  .both (numeral_toDigits _) (numeral_toDigits _)

theorem parse_text (v : Version) : parse v.text = .ok v := by
  refine parse_eq_ok_iff.2 ⟨v.digits, ?_, spells_digits v⟩
  rw [text, String.toList_ofList, ← Text.trim_eq_iff, Text.trim_eq_self_iff]
  exact Text.trimmed_of_forall (spells_digits v).not_blank

theorem text_injective : Function.Injective text := by
  intro v u h
  have same : parse v.text = parse u.text := congrArg parse h
  simpa [parse_text] using same

theorem ofJson_text (v : Version) : ofJson v.json.text = .ok v := by
  obtain ⟨r, opened, read⟩ := Json.string_renderString v.text []
  rw [List.append_nil] at opened
  have run : Json.Reader.text.run v.json.render = .ok (v.text, []) := by
    rw [json, Json.render, opened]
    change Json.mapResult String.ofList (Json.liftFault (Json.string r)) = _
    rw [read]
    simp [Json.liftFault, Json.mapResult]
  have checked : reader.run v.json.render = .ok (v, []) := by
    change Json.Reader.runChecked _ _ _ = _
    rw [Json.Reader.runChecked, run]
    simp [parse_text, Except.mapError]
  rw [ofJson, Json.Reader.readAll, Json.toList_text, checked]
  rfl

/-- A text is read as the version that is spelt between the blanks around it, and refused as it was
given if none is. The text of a version and its text in JSON are read back, so no two versions have
the same. -/
theorem versions_spelt :
    (∀ s v, parse s = .ok v ↔ ∃ t, Text.Trims s.toList t ∧ Spells t v) ∧
      (∀ s e, parse s = .error e ↔ e = ⟨s⟩ ∧ ∀ t v, Text.Trims s.toList t → ¬Spells t v) ∧
      (∀ v : Version, parse v.text = .ok v ∧ ofJson v.json.text = .ok v) ∧
      Function.Injective text :=
  ⟨fun _ _ => parse_eq_ok_iff, fun _ _ => parse_eq_error_iff,
    fun v => ⟨parse_text v, ofJson_text v⟩, text_injective⟩

example : parse " +00065535\n" = .ok ⟨65535, 0⟩ ∧ parse "65536" = .error ⟨"65536"⟩ := by
  decide +kernel

end Version

end ScmPlugins
