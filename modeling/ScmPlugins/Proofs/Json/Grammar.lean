import ScmPlugins.Proofs.Json.Passing

/-!
The grammar of JSON texts, apart from any reader. Its values are what can be passed over, however
deep lists and maps stand in one another, whatever a number comes to and whether or not surrogates
come in pairs.
-/

namespace ScmPlugins.Json

def Spaces (w : List Char) : Prop := ∀ c ∈ w, isSpace c = true

def Digits (ds : List Char) : Prop := ds ≠ [] ∧ ∀ c ∈ ds, c.isDigit = true

inductive WholePart : List Char → Prop
  | zero : WholePart ['0']
  | digits {d : Char} {ds : List Char} (digit : d.isDigit = true) (nonzero : d ≠ '0')
      (rest : ∀ c ∈ ds, c.isDigit = true) : WholePart (d :: ds)

inductive FractionPart : List Char → Prop
  | none : FractionPart []
  | digits {ds : List Char} (h : Digits ds) : FractionPart ('.' :: ds)

inductive ExponentPart : List Char → Prop
  | none : ExponentPart []
  | digits {e : Char} {sign ds : List Char} (letter : e = 'e' ∨ e = 'E')
      (signed : sign ∈ [[], ['+'], ['-']]) (h : Digits ds) : ExponentPart (e :: (sign ++ ds))

inductive IsNumber : List Char → Prop
  | mk {minus ds fraction exponent : List Char} (signed : minus ∈ [[], ['-']])
      (whole : WholePart ds) (part : FractionPart fraction) (power : ExponentPart exponent) :
      IsNumber (minus ++ (ds ++ (fraction ++ exponent)))

inductive IsQuoted : List Char → Prop
  | close : IsQuoted ['"']
  | plain {c : Char} {q : List Char} (quote : c ≠ '"') (backslash : c ≠ '\\')
      (control : ¬c.toNat < 0x20) (rest : IsQuoted q) : IsQuoted (c :: q)
  | letter {c : Char} {q : List Char} (known : (escaped? c).isSome) (rest : IsQuoted q) :
      IsQuoted ('\\' :: c :: q)
  | unit {a b c d : Char} {q : List Char} (hex : ∀ x ∈ [a, b, c, d], (Text.hexDigit? x).isSome)
      (rest : IsQuoted q) : IsQuoted ('\\' :: 'u' :: a :: b :: c :: d :: q)

/-- What stands before an item or a member: spaces, and a comma between them unless it is the
first. -/
inductive Lead : (first : Bool) → List Char → Prop
  | first {w : List Char} (spaces : Spaces w) : Lead true w
  | comma {w x : List Char} (before : Spaces w) (behind : Spaces x) : Lead false (w ++ ',' :: x)

/-- A value, or what is left of a list or a map, with the items or members in it as they are
written. -/
inductive Phrase where
  | value
  | items (first : Bool) (items : List (List Char))
  | members (first : Bool) (members : List (List Char × List Char))

inductive Derives : Phrase → List Char → Prop
  | word {s : List Char}
      (h : s ∈ [['n', 'u', 'l', 'l'], ['t', 'r', 'u', 'e'], ['f', 'a', 'l', 's', 'e']]) :
      Derives .value s
  | number {s : List Char} (h : IsNumber s) : Derives .value s
  | string {q : List Char} (h : IsQuoted q) : Derives .value ('"' :: q)
  | list {vs : List (List Char)} {s : List Char} (h : Derives (.items true vs) s) :
      Derives .value ('[' :: s)
  | map {ms : List (List Char × List Char)} {s : List Char} (h : Derives (.members true ms) s) :
      Derives .value ('\x7b' :: s)
  | lastItem {first : Bool} {w : List Char} (spaces : Spaces w) :
      Derives (.items first []) (w ++ [']'])
  | item {first : Bool} {w v s : List Char} {vs : List (List Char)} (lead : Lead first w)
      (value : Derives .value v) (rest : Derives (.items false vs) s) :
      Derives (.items first (v :: vs)) (w ++ (v ++ s))
  | lastMember {first : Bool} {w : List Char} (spaces : Spaces w) :
      Derives (.members first []) (w ++ ['\x7d'])
  | member {first : Bool} {w q x y v s : List Char} {ms : List (List Char × List Char)}
      (lead : Lead first w) (name : IsQuoted q) (before : Spaces x) (behind : Spaces y)
      (value : Derives .value v) (rest : Derives (.members false ms) s) :
      Derives (.members first (('"' :: q, v) :: ms))
        (w ++ '"' :: (q ++ (x ++ ':' :: (y ++ (v ++ s)))))

abbrev IsValue : List Char → Prop := Derives .value

def IsList (s : List Char) (vs : List (List Char)) : Prop :=
  ∃ u, s = '[' :: u ∧ Derives (.items true vs) u

def IsObject (s : List Char) (raw : List (List Char × List Char)) : Prop :=
  ∃ u, s = '\x7b' :: u ∧ Derives (.members true raw) u

/-- The text is a value and spaces around it. -/
def Wraps (s v : List Char) : Prop :=
  ∃ w x, s = w ++ (v ++ x) ∧ Spaces w ∧ Spaces x ∧ IsValue v

section Spaces

variable {w x s r : List Char}

theorem spaces_nil : Spaces [] := nofun

theorem spaces_append_iff : Spaces (w ++ x) ↔ Spaces w ∧ Spaces x := List.forall_mem_append

theorem skipSpace_spaces (h : Spaces w) (s : List Char) : skipSpace (w ++ s) = skipSpace s :=
  List.dropWhile_append_of_pos h

theorem skipSpace_eq_nil_iff : skipSpace s = [] ↔ Spaces s := List.dropWhile_eq_nil_iff

theorem exists_spaces (s : List Char) : ∃ w, Spaces w ∧ s = w ++ skipSpace s :=
  ⟨s.takeWhile isSpace, fun _ => List.mem_takeWhile_imp, (List.takeWhile_append_dropWhile).symm⟩

theorem eq_of_isSpace {c : Char} (h : isSpace c = true) :
    c = ' ' ∨ c = '\n' ∨ c = '\r' ∨ c = '\t' := by
  simpa [isSpace, or_assoc] using h

theorem Spaces.endsNumber_append (h : Spaces w) (hs : EndsNumber s) : EndsNumber (w ++ s) := by
  cases w with
  | nil => exact hs
  | cons c w =>
    refine endsNumber_cons ?_ _
    obtain rfl | rfl | rfl | rfl := eq_of_isSpace (h c List.mem_cons_self) <;> decide

theorem Spaces.endsNumber (h : Spaces w) : EndsNumber w := by
  simpa using h.endsNumber_append endsNumber_nil

end Spaces

section Leads

variable {first : Bool} {w s r : List Char}

theorem Lead.nextItem (lead : Lead first w) (opens : Opens s) :
    nextItem first (w ++ s) = .ok (.more s) := by
  cases lead with
  | first spaces =>
    rw [Json.nextItem, skipSpace_spaces spaces, ← Json.nextItem]
    exact nextItem_true_of_opens opens
  | @comma w x before behind =>
    obtain ⟨c, t, rfl, space, bracket⟩ := opens
    have comma : skipSpace (w ++ ',' :: x ++ c :: t) = ',' :: (x ++ c :: t) := by
      rw [List.append_assoc, skipSpace_spaces before]
      rfl
    have item : skipSpace (x ++ c :: t) = c :: t := by
      rw [skipSpace_spaces behind, skipSpace_cons space]
    unfold Json.nextItem
    grind

theorem Lead.nextMember (lead : Lead first w) (s : List Char) :
    nextMember first (w ++ '"' :: s) = .ok (.more s) := by
  cases lead with
  | first spaces =>
    rw [Json.nextMember, skipSpace_spaces spaces]
    rfl
  | @comma w x before behind =>
    have comma : skipSpace (w ++ ',' :: x ++ '"' :: s) = ',' :: (x ++ '"' :: s) := by
      rw [List.append_assoc, skipSpace_spaces before]
      rfl
    have name : skipSpace (x ++ '"' :: s) = '"' :: s := by
      rw [skipSpace_spaces behind, skipSpace_cons (by decide)]
    unfold Json.nextMember
    grind

theorem Spaces.nextItem (h : Spaces w) (r : List Char) :
    nextItem first (w ++ ']' :: r) = .ok (.last r) := by
  rw [Json.nextItem, skipSpace_spaces h]
  rfl

theorem Spaces.nextMember (h : Spaces w) (r : List Char) :
    nextMember first (w ++ '\x7d' :: r) = .ok (.last r) := by
  rw [Json.nextMember, skipSpace_spaces h]
  rfl

theorem Spaces.colon (h : Spaces w) (r : List Char) : colon (w ++ ':' :: r) = .ok r := by
  rw [Json.colon, skipSpace_spaces h]
  rfl

theorem exists_spaces_of_colon (h : Json.colon s = .ok r) : ∃ w, Spaces w ∧ s = w ++ ':' :: r := by
  obtain ⟨w, spaces, split⟩ := exists_spaces s
  refine ⟨w, spaces, ?_⟩
  unfold Json.colon at h
  split at h
  · cases h
  · rename_i mark
    cases h
    rw [← mark]
    exact split
  · cases h

theorem Lead.endsNumber_append (lead : Lead false w) (s : List Char) : EndsNumber (w ++ s) := by
  cases lead with
  | comma before behind =>
    rw [List.append_assoc]
    exact before.endsNumber_append (endsNumber_cons (by decide) _)

end Leads

section Numbers

open Literal

variable {atEnd : Fault} {s t r ds : List Char}

theorem digits_of_eq_ok (h : digits atEnd s = .ok (ds, r)) : s = ds ++ r ∧ Digits ds := by
  unfold digits at h
  split at h
  · cases h
  · rename_i c u
    split at h
    · rename_i digit
      cases h
      refine ⟨by simp, by simp, List.forall_mem_cons.2 ⟨digit, fun _ => List.mem_takeWhile_imp⟩⟩
    · cases h

theorem WholePart.scanWhole (h : WholePart ds) (atEnd : Fault)
    (hr : ∀ c ∈ r.head?, c.isDigit = false) : scanWhole atEnd (ds ++ r) = .ok (ds, r) := by
  cases h with
  | zero =>
    cases r with
    | nil => rfl
    | cons c r => simp [Literal.scanWhole, hr c rfl]
  | @digits d ds digit nonzero rest =>
    rw [Literal.scanWhole]
    · exact digits_append atEnd (by simp) (List.forall_mem_cons.2 ⟨digit, rest⟩) hr
    · rintro c u front
      exact nonzero (List.cons.inj front).1

theorem wholePart_of_scanWhole (h : scanWhole atEnd s = .ok (ds, r)) :
    s = ds ++ r ∧ WholePart ds := by
  unfold scanWhole at h
  split at h
  · split at h
    · cases h
    · cases h
      exact ⟨rfl, .zero⟩
  · rename_i alone
    obtain ⟨rfl, nonempty, all⟩ := digits_of_eq_ok h
    refine ⟨rfl, ?_⟩
    match ds, nonempty with
    | d :: ds, _ =>
      obtain ⟨digit, rest⟩ := List.forall_mem_cons.1 all
      by_cases zero : d = '0'
      · subst zero
        match ds, r with
        | [], _ => exact .zero
        | e :: ds, r => exact absurd rfl (alone e (ds ++ r))
      · exact .digits digit zero rest

theorem ExponentPart.head (h : ExponentPart s) (ht : EndsNumber t) :
    ∀ c ∈ (s ++ t).head?, c.isDigit = false ∧ c ≠ '.' := by
  cases h with
  | none => exact fun c hc => ⟨(ht c hc).1, (ht c hc).2.1⟩
  | digits letter =>
    rintro c ⟨⟩
    obtain rfl | rfl := letter <;> decide

theorem FractionPart.head (h : FractionPart s) (hr : ∀ c ∈ r.head?, c.isDigit = false ∧ c ≠ '.') :
    ∀ c ∈ (s ++ r).head?, c.isDigit = false := by
  cases h with
  | none => exact fun c hc => (hr c hc).1
  | digits =>
    rintro c ⟨⟩
    decide

theorem FractionPart.scanFraction (h : FractionPart s) (atEnd : Fault)
    (hr : ∀ c ∈ r.head?, c.isDigit = false ∧ c ≠ '.') :
    ∃ o, scanFraction atEnd (s ++ r) = .ok (o, r) := by
  cases h with
  | none =>
    refine ⟨Option.none, ?_⟩
    rw [List.nil_append, Literal.scanFraction]
    rintro u rfl
    exact (hr '.' rfl).2 rfl
  | @digits ds h =>
    refine ⟨some ds, ?_⟩
    rw [List.cons_append, Literal.scanFraction,
      digits_append atEnd h.1 h.2 fun c hc => (hr c hc).1]
    rfl

theorem fractionPart_of_scanFraction {o : Option (List Char)}
    (h : scanFraction atEnd s = .ok (o, r)) : ∃ v, s = v ++ r ∧ FractionPart v := by
  unfold scanFraction at h
  split at h
  · obtain ⟨⟨ds, u⟩, read, ⟨⟩⟩ := Except.map_eq_ok_iff.1 h
    obtain ⟨rfl, ds⟩ := digits_of_eq_ok read
    exact ⟨_, rfl, .digits ds⟩
  · cases h
    exact ⟨[], rfl, .none⟩

theorem scanSign_signed {sign : List Char} (signed : sign ∈ [[], ['+'], ['-']]) (h : Digits ds)
    (t : List Char) : (scanSign (sign ++ (ds ++ t))).2 = ds ++ t := by
  obtain ⟨nonempty, all⟩ := h
  match ds, nonempty with
  | d :: ds, _ =>
    have digit := all d List.mem_cons_self
    simp only [List.mem_cons, List.not_mem_nil, or_false] at signed
    obtain rfl | rfl | rfl := signed
    · rw [List.nil_append, List.cons_append, scanSign]
      · rintro u front
        rw [(List.cons.inj front).1] at digit
        exact absurd digit (by decide)
      · rintro u front
        rw [(List.cons.inj front).1] at digit
        exact absurd digit (by decide)
    · rfl
    · rfl

theorem exists_sign (s : List Char) : ∃ sign ∈ [[], ['+'], ['-']], s = sign ++ (scanSign s).2 := by
  unfold scanSign
  split
  · exact ⟨['+'], by simp, rfl⟩
  · exact ⟨['-'], by simp, rfl⟩
  · exact ⟨[], by simp, rfl⟩

theorem ExponentPart.scanExponent (h : ExponentPart s) (atEnd : Fault) (ht : EndsNumber t) :
    ∃ o, scanExponent atEnd (s ++ t) = .ok (o, t) := by
  cases h with
  | none => exact ⟨Option.none, scanExponent_of_endsNumber atEnd ht⟩
  | @digits e sign ds letter signed h =>
    have read := digits_append atEnd h.1 h.2 fun c hc => (ht c hc).1
    have behind := scanSign_signed signed h t
    refine ⟨some ((scanSign (sign ++ (ds ++ t))).1, ds), ?_⟩
    obtain rfl | rfl := letter <;>
      simp [Literal.scanExponent, List.append_assoc, behind, read, Except.map]

theorem exponentPart_of_digits {e : Char} (letter : e = 'e' ∨ e = 'E') {u : List Char}
    {o : Option (Bool × List Char)}
    (h : (digits atEnd (scanSign u).2).map (fun (ds, t) => (some ((scanSign u).1, ds), t)) =
      .ok (o, r)) : ∃ v, e :: u = v ++ r ∧ ExponentPart v := by
  obtain ⟨⟨ds, v⟩, read, ⟨⟩⟩ := Except.map_eq_ok_iff.1 h
  obtain ⟨sign, signed, split⟩ := exists_sign u
  obtain ⟨rest, ds⟩ := digits_of_eq_ok read
  refine ⟨_, ?_, .digits letter signed ds⟩
  rw [split, rest, List.cons_append, List.append_assoc]

theorem exponentPart_of_scanExponent {o : Option (Bool × List Char)}
    (h : scanExponent atEnd s = .ok (o, r)) : ∃ v, s = v ++ r ∧ ExponentPart v := by
  unfold scanExponent at h
  split at h
  · exact exponentPart_of_digits (.inl rfl) h
  · exact exponentPart_of_digits (.inr rfl) h
  · cases h
    exact ⟨[], rfl, .none⟩

theorem WholePart.startsDigit (h : WholePart ds) : ∃ d u, ds = d :: u ∧ d.isDigit = true := by
  cases h with
  | zero => exact ⟨'0', [], rfl, rfl⟩
  | digits digit => exact ⟨_, _, rfl, digit⟩

theorem WholePart.forall_isDigit (h : WholePart ds) : ∀ c ∈ ds, c.isDigit = true := by
  cases h with
  | zero => simp
  | digits digit _ rest => exact List.forall_mem_cons.2 ⟨digit, rest⟩

theorem scanMinus_signed {minus : List Char} (signed : minus ∈ [[], ['-']]) (h : WholePart ds)
    (t : List Char) : (scanMinus (minus ++ (ds ++ t))).2 = ds ++ t := by
  obtain ⟨d, u, rfl, digit⟩ := h.startsDigit
  simp only [List.mem_cons, List.not_mem_nil, or_false] at signed
  obtain rfl | rfl := signed
  · rw [List.nil_append, List.cons_append, scanMinus]
    rintro v front
    rw [(List.cons.inj front).1] at digit
    exact absurd digit (by decide)
  · rfl

theorem exists_minus (s : List Char) : ∃ minus ∈ [[], ['-']], s = minus ++ (scanMinus s).2 := by
  unfold scanMinus
  split
  · exact ⟨['-'], by simp, rfl⟩
  · exact ⟨[], by simp, rfl⟩

theorem IsNumber.scan (h : IsNumber s) (atEnd : Fault) (ht : EndsNumber t) :
    ∃ l, scan atEnd (s ++ t) = .ok (l, t) := by
  obtain ⟨signed, whole, fraction, exponent⟩ := h
  obtain ⟨power, scanned⟩ := exponent.scanExponent atEnd ht
  obtain ⟨part, scanned'⟩ := fraction.scanFraction atEnd (exponent.head ht)
  have scanned'' := whole.scanWhole atEnd (fraction.head (exponent.head ht))
  simp only [List.append_assoc] at *
  simp only [Literal.scan, scanMinus_signed signed whole, scanned'', scanned', scanned]
  exact ⟨_, rfl⟩

theorem exists_isNumber_of_scan {l : Literal} (h : scan atEnd s = .ok (l, r)) :
    ∃ v, s = v ++ r ∧ IsNumber v := by
  obtain ⟨minus, signed, split⟩ := exists_minus s
  unfold scan at h
  split at h
  · cases h
  · rename_i scanned
    split at h
    · cases h
    · rename_i scanned'
      split at h
      · cases h
      · rename_i scanned''
        obtain ⟨-, rfl⟩ := Prod.mk.inj (Except.ok.inj h)
        obtain ⟨rest, whole⟩ := wholePart_of_scanWhole scanned
        obtain ⟨_, rfl, fraction⟩ := fractionPart_of_scanFraction scanned'
        obtain ⟨_, rfl, exponent⟩ := exponentPart_of_scanExponent scanned''
        refine ⟨_, ?_, .mk signed whole fraction exponent⟩
        rw [split, rest]
        simp only [List.append_assoc]

end Numbers

section Strings

variable {q s t r : List Char}

theorem hexUnit_of_isSome {a b c d : Char}
    (h : ∀ x ∈ [a, b, c, d], (Text.hexDigit? x).isSome) (r : List Char) :
    ∃ n, hexUnit (a :: b :: c :: d :: r) = .ok (n, r) := by
  simp only [List.forall_mem_cons, Option.isSome_iff_exists] at h
  obtain ⟨⟨i, hi⟩, ⟨j, hj⟩, ⟨k, hk⟩, ⟨l, hl⟩, -⟩ := h
  exact ⟨((i * 16 + j) * 16 + k) * 16 + l, by simp only [hexUnit, hi, hj, hk, hl]⟩

theorem exists_of_hexUnit {n : Nat} (h : hexUnit s = .ok (n, r)) :
    ∃ a b c d, s = a :: b :: c :: d :: r ∧ ∀ x ∈ [a, b, c, d], (Text.hexDigit? x).isSome := by
  unfold hexUnit at h
  split at h
  · rename_i a b c d u
    split at h
    · rename_i hi hj hk hl
      cases h
      exact ⟨a, b, c, d, rfl, by simp [hi, hj, hk, hl]⟩
    · cases h
  · cases h

theorem IsQuoted.skipString (h : IsQuoted q) (t : List Char) : skipString (q ++ t) = .ok t := by
  induction h with
  | close => rw [List.cons_append, Json.skipString, List.nil_append]
  | plain quote backslash control rest ih =>
    rw [List.cons_append, Json.skipString, if_neg control, ih]
    · exact quote
    · exact backslash
  | @letter c q known rest ih =>
    rw [List.cons_append, List.cons_append, skipString_escape (t := q ++ t), ih]
    rw [skipEscape, if_pos known]
    rintro rfl
    exact absurd known (by decide)
  | unit hex rest ih =>
    obtain ⟨n, unit⟩ := hexUnit_of_isSome hex (_ ++ t)
    exact (skipString_unit unit).trans ih

theorem exists_isQuoted_of_skipString (h : Json.skipString s = .ok r) :
    ∃ q, s = q ++ r ∧ IsQuoted q := by
  fun_induction Json.skipString s with
  | case1 | case3 | case5 => cases h
  | case2 =>
    cases h
    exact ⟨['"'], rfl, .close⟩
  | case4 u v escaped ih =>
    obtain ⟨q, rfl, quoted⟩ := ih h
    unfold skipEscape at escaped
    split at escaped
    · cases escaped
    · obtain ⟨⟨n, w⟩, unit, ⟨⟩⟩ := Except.map_eq_ok_iff.1 escaped
      obtain ⟨a, b, c, d, rfl, hex⟩ := exists_of_hexUnit unit
      exact ⟨_, rfl, .unit hex quoted⟩
    · split at escaped
      · rename_i known
        cases escaped
        exact ⟨_, rfl, .letter known quoted⟩
      · cases escaped
  | case6 c u quote backslash control ih =>
    obtain ⟨q, rfl, quoted⟩ := ih h
    exact ⟨c :: q, rfl, .plain (fun e => quote e) (fun e => backslash e) control quoted⟩

end Strings

section Values

variable {phrase : Phrase} {s t u v r : List Char} {frames : List Frame} {stage : Stage}

theorem IsNumber.exists_cons (h : IsNumber s) :
    ∃ c u, s = c :: u ∧ (c = '-' ∨ c.isDigit = true) := by
  obtain ⟨signed, whole, -, -⟩ := h
  obtain ⟨d, u, rfl, digit⟩ := whole.startsDigit
  simp only [List.mem_cons, List.not_mem_nil, or_false] at signed
  obtain rfl | rfl := signed
  · exact ⟨d, _, rfl, .inr digit⟩
  · exact ⟨'-', _, rfl, .inl rfl⟩

theorem IsNumber.starts {c : Char} (h : IsNumber (c :: s)) : c = '-' ∨ c.isDigit = true := by
  obtain ⟨_, _, ⟨⟩, starts⟩ := h.exists_cons
  exact starts

theorem isSpace_of_isDigit {c : Char} (h : c.isDigit = true) : isSpace c = false := by
  obtain ⟨_, _, ⟨⟩, space, -⟩ := opens_of_isDigit h []
  exact space

theorem IsNumber.head {c : Char} (h : IsNumber (c :: s)) :
    isSpace c = false ∧ c ≠ '[' ∧ c ≠ '\x7b' := by
  obtain rfl | digit := h.starts
  · decide
  · refine ⟨isSpace_of_isDigit digit, ?_, ?_⟩ <;> rintro rfl <;> exact absurd digit (by decide)

theorem IsValue.opens (h : IsValue v) (t : List Char) : Opens (v ++ t) := by
  cases h with
  | word h =>
    simp only [List.mem_cons, List.not_mem_nil, or_false] at h
    obtain rfl | rfl | rfl := h <;> exact ⟨_, _, rfl, by decide, by decide⟩
  | number h =>
    obtain ⟨c, u, rfl, rfl | digit⟩ := h.exists_cons
    · exact ⟨_, _, rfl, by decide, by decide⟩
    · exact opens_of_isDigit digit _
  | string => exact ⟨_, _, rfl, by decide, by decide⟩
  | list => exact ⟨_, _, rfl, by decide, by decide⟩
  | map => exact ⟨_, _, rfl, by decide, by decide⟩

theorem IsValue.exists_cons (h : IsValue v) : ∃ c u, v = c :: u := by
  obtain ⟨c, u, front, -⟩ := h.opens []
  exact ⟨c, u, (List.append_nil v).symm.trans front⟩

theorem IsValue.skipSpace (h : IsValue v) (t : List Char) : skipSpace (v ++ t) = v ++ t := by
  obtain ⟨c, u, front, space, -⟩ := h.opens t
  rw [front, skipSpace_cons space]

theorem Spaces.skipSpace_value {w : List Char} (spaces : Spaces w) (h : IsValue v)
    (t : List Char) : Json.skipSpace (w ++ (v ++ t)) = v ++ t := by
  rw [skipSpace_spaces spaces, h.skipSpace]

theorem endsNumber_of_items {vs : List (List Char)} (h : Derives (.items false vs) s)
    (t : List Char) : EndsNumber (s ++ t) := by
  cases h with
  | lastItem spaces =>
    rw [List.append_assoc]
    exact spaces.endsNumber_append (endsNumber_cons (by decide) _)
  | item lead =>
    rw [List.append_assoc]
    exact lead.endsNumber_append _

theorem endsNumber_of_members {ms : List (List Char × List Char)}
    (h : Derives (.members false ms) s) (t : List Char) : EndsNumber (s ++ t) := by
  cases h with
  | lastMember spaces =>
    rw [List.append_assoc]
    exact spaces.endsNumber_append (endsNumber_cons (by decide) _)
  | member lead =>
    rw [List.append_assoc]
    exact lead.endsNumber_append _

theorem skip_scalar {c : Char} (first : skipSpace s = c :: u) (bracket : c ≠ '[')
    (brace : c ≠ '\x7b') (h : skipScalar (c :: u) = .ok r) : skip s = .ok r := by
  have passed : skipValue [] s = .ok (.rest, [], r) := by
    simp only [skipValue, first]
    grind [Except.map]
  rw [skip, skipFrom_value, passed]
  exact skipFrom_nil r

theorem word_append_self (w t : List Char) : word w (w ++ t) = .ok t := by
  induction w with
  | nil => rfl
  | cons c w ih => rw [List.cons_append, word, if_pos rfl, ih]

theorem eq_append_of_word {w : List Char} (h : word w s = .ok r) : s = w ++ r := by
  fun_induction word w s with
  | case1 =>
    cases h
    rfl
  | case2 | case4 => cases h
  | case3 c w s ih => rw [ih h, List.cons_append]

theorem skipScalar_number {c : Char} (h : c = '-' ∨ c.isDigit = true) (u : List Char) :
    skipScalar (c :: u) = (Literal.scan .invalidNumber (c :: u)).map (·.2) := by
  have letter : c ≠ 'n' ∧ c ≠ 't' ∧ c ≠ 'f' ∧ c ≠ '"' := by
    refine ⟨?_, ?_, ?_, ?_⟩ <;> rintro rfl <;> revert h <;> decide
  simp only [skipScalar, letter, if_false, if_pos h]

def Phrase.Passed : Phrase → List Char → Prop
  | .value, v => ∀ t, EndsNumber t → skip (v ++ t) = .ok t
  | .items true _, s => ∀ t, skip ('[' :: (s ++ t)) = .ok t
  | .items false _, s =>
    ∀ frames t, skipFrom .rest (.list :: frames) (s ++ t) = skipFrom .rest frames t
  | .members true _, s => ∀ t, skip ('\x7b' :: (s ++ t)) = .ok t
  | .members false _, s =>
    ∀ frames t, skipFrom .rest (.map :: frames) (s ++ t) = skipFrom .rest frames t

theorem member_append (w q x y v s t : List Char) :
    (w ++ '"' :: (q ++ (x ++ ':' :: (y ++ (v ++ s))))) ++ t =
      w ++ '"' :: (q ++ (x ++ ':' :: (y ++ (v ++ (s ++ t))))) := by
  simp

theorem Derives.passed (h : Derives phrase s) : phrase.Passed s := by
  induction h with
  | word h =>
    intro t _
    simp only [List.mem_cons, List.not_mem_nil, or_false] at h
    obtain rfl | rfl | rfl := h
    · exact skip_scalar rfl (by decide) (by decide) (word_append_self ['u', 'l', 'l'] t)
    · exact skip_scalar rfl (by decide) (by decide) (word_append_self ['r', 'u', 'e'] t)
    · exact skip_scalar rfl (by decide) (by decide) (word_append_self ['a', 'l', 's', 'e'] t)
  | number h =>
    intro t ht
    obtain ⟨l, scanned⟩ := h.scan .invalidNumber ht
    have opens := IsValue.skipSpace (.number h) t
    obtain ⟨c, u, rfl, starts⟩ := h.exists_cons
    obtain ⟨-, bracket, brace⟩ := h.head
    refine skip_scalar opens bracket brace ?_
    rw [List.cons_append] at scanned
    rw [List.append_eq, skipScalar_number starts, scanned]
    rfl
  | string h =>
    intro t _
    exact skip_scalar rfl (by decide) (by decide) (h.skipString t)
  | list h ih => exact fun t _ => ih t
  | map h ih => exact fun t _ => ih t
  | @lastItem first w spaces =>
    cases first with
    | true =>
      intro t
      rw [List.append_assoc]
      exact skip_list_last rfl (spaces.nextItem t)
    | false =>
      intro frames t
      rw [List.append_assoc]
      exact skipFrom_list_last (spaces.nextItem t)
  | @item first w v s vs lead value rest here later =>
    have behind (t : List Char) := here _ (endsNumber_of_items rest t)
    have next (t : List Char) := lead.nextItem (IsValue.opens value (s ++ t))
    cases first with
    | true =>
      intro t
      rw [List.append_assoc, List.append_assoc, skip_list_more rfl (next t),
        skipFrom_of_skip (behind t), later, skipFrom_nil]
    | false =>
      intro frames t
      rw [List.append_assoc, List.append_assoc, skipFrom_list_more (next t),
        skipFrom_of_skip (behind t), later]
  | @lastMember first w spaces =>
    cases first with
    | true =>
      intro t
      rw [List.append_assoc]
      exact skip_map_last rfl (spaces.nextMember t)
    | false =>
      intro frames t
      rw [List.append_assoc]
      exact skipFrom_map_last (spaces.nextMember t)
  | @member first w q x y v s ms lead name before behind value rest here later =>
    have named (t : List Char) := name.skipString (x ++ ':' :: (y ++ (v ++ (s ++ t))))
    have colon (t : List Char) := before.colon (y ++ (v ++ (s ++ t)))
    have passed (frames : List Frame) (t : List Char) :
        skipFrom .value frames (y ++ (v ++ (s ++ t))) = skipFrom .rest frames (s ++ t) := by
      rw [← skipFrom_skipSpace, behind.skipSpace_value value,
        skipFrom_of_skip (here _ (endsNumber_of_members rest t))]
    cases first with
    | true =>
      intro t
      rw [member_append, skip_map_more rfl (lead.nextMember _) (named t) (colon t), passed, later,
        skipFrom_nil]
    | false =>
      intro frames t
      rw [member_append, skipFrom_map_more (lead.nextMember _) (named t) (colon t), passed, later]

theorem IsValue.skip (h : IsValue v) {t : List Char} (ht : EndsNumber t) :
    skip (v ++ t) = .ok t := Derives.passed h t ht

theorem IsValue.startsValue {c : Char} (h : IsValue (c :: s)) : StartsValue c := by
  generalize front : c :: s = v at h
  cases h with
  | word h =>
    subst front
    simp only [List.mem_cons, List.not_mem_nil, or_false] at h
    obtain h | h | h := h <;> cases h <;> exact .inl (by decide)
  | number h =>
    subst front
    obtain rfl | digit := h.starts
    · exact .inl (by decide)
    · exact .inr digit
  | string | list | map =>
    cases front
    exact .inl (by decide)

theorem IsValue.of_head {c : Char} (h : IsValue (c :: s)) :
    (c = '"' → IsQuoted s) ∧ (c = '[' → ∃ vs, Derives (.items true vs) s) ∧
      (c = '\x7b' → ∃ ms, Derives (.members true ms) s) ∧ (c = 'n' → s = ['u', 'l', 'l']) := by
  generalize front : c :: s = v at h
  cases h with
  | word h =>
    subst front
    simp only [List.mem_cons, List.not_mem_nil, or_false] at h
    obtain h | h | h := h <;> cases h <;> simp
  | number h =>
    subst front
    have starts := h.starts
    refine ⟨?_, ?_, ?_, ?_⟩ <;> rintro rfl <;> exact absurd starts (by decide)
  | string h =>
    cases front
    simp [h]
  | list h =>
    cases front
    exact ⟨nofun, fun _ => ⟨_, h⟩, nofun, nofun⟩
  | map h =>
    cases front
    exact ⟨nofun, nofun, fun _ => ⟨_, h⟩, nofun⟩

end Values

section Open

variable {stage : Stage} {frame : Frame} {frames left : List Frame} {s t r : List Char}

inductive Closes : List Frame → List Char → Prop
  | nil : Closes [] []
  | list {vs : List (List Char)} {s t : List Char} {frames : List Frame}
      (here : Derives (.items false vs) s) (rest : Closes frames t) :
      Closes (.list :: frames) (s ++ t)
  | map {ms : List (List Char × List Char)} {s t : List Char} {frames : List Frame}
      (here : Derives (.members false ms) s) (rest : Closes frames t) :
      Closes (.map :: frames) (s ++ t)

def Grammatical : Stage → List Frame → (s r : List Char) → Prop
  | .value, frames, s, r =>
    ∃ w v u, s = w ++ (v ++ (u ++ r)) ∧ Spaces w ∧ IsValue v ∧ Closes frames u
  | .rest, frames, s, r => ∃ u, s = u ++ r ∧ Closes frames u

theorem exists_of_skipScalar (h : skipScalar s = .ok r) : ∃ v, s = v ++ r ∧ IsValue v := by
  unfold skipScalar at h
  split at h
  · cases h
  · split at h
    · subst_vars
      exact ⟨['n', 'u', 'l', 'l'], congrArg _ (eq_append_of_word h), .word (by simp)⟩
    · split at h
      · subst_vars
        exact ⟨['t', 'r', 'u', 'e'], congrArg _ (eq_append_of_word h), .word (by simp)⟩
      · split at h
        · subst_vars
          exact ⟨['f', 'a', 'l', 's', 'e'], congrArg _ (eq_append_of_word h), .word (by simp)⟩
        · split at h
          · subst_vars
            obtain ⟨q, rfl, quoted⟩ := exists_isQuoted_of_skipString h
            exact ⟨_, rfl, .string quoted⟩
          · split at h
            · obtain ⟨⟨l, u⟩, scanned, ⟨⟩⟩ := Except.map_eq_ok_iff.1 h
              obtain ⟨v, split, number⟩ := exists_isNumber_of_scan scanned
              exact ⟨v, split, .number number⟩
            · cases h

theorem exists_of_skipKey (h : skipKey s = .ok r) :
    ∃ x q y, s = x ++ '"' :: (q ++ (y ++ ':' :: r)) ∧ Spaces x ∧ IsQuoted q ∧ Spaces y := by
  obtain ⟨x, spaces, split⟩ := exists_spaces s
  unfold skipKey at h
  split at h
  · cases h
  · rename_i quote
    split at h
    · cases h
    · rename_i passed
      obtain ⟨q, rfl, quoted⟩ := exists_isQuoted_of_skipString passed
      obtain ⟨y, behind, rfl⟩ := exists_spaces_of_colon h
      rw [quote] at split
      exact ⟨x, q, y, split, spaces, quoted, behind⟩
  · cases h

theorem grammatical_of_skipValue (h : skipValue frames s = .ok (stage, left, t))
    (rest : Grammatical stage left t r) : Grammatical .value frames s r := by
  obtain ⟨w, spaces, split⟩ := exists_spaces s
  unfold skipValue at h
  split at h
  · rename_i _ inside opened
    rw [opened] at split
    split at h
    · cases h
    · rename_i close
      cases h
      obtain ⟨x, inner, split'⟩ := exists_spaces inside
      obtain ⟨u, rfl, closes⟩ := rest
      refine ⟨w, _, u, ?_, spaces, .list (.lastItem inner), closes⟩
      rw [split, split', close]
      simp
    · cases h
      obtain ⟨x, inner, split'⟩ := exists_spaces inside
      obtain ⟨y, v, _, rest', between, value, closes⟩ := rest
      cases closes with
      | list here closes =>
        refine ⟨w, _, _, ?_, spaces,
          .list (.item (.first (spaces_append_iff.2 ⟨inner, between⟩)) value here), closes⟩
        rw [split, split', rest']
        simp
  · rename_i _ inside opened
    rw [opened] at split
    split at h
    · rename_i close
      cases h
      obtain ⟨x, inner, split'⟩ := exists_spaces inside
      obtain ⟨u, rfl, closes⟩ := rest
      refine ⟨w, _, u, ?_, spaces, .map (.lastMember inner), closes⟩
      rw [split, split', close]
      simp
    · obtain ⟨k, key, ⟨⟩⟩ := Except.map_eq_ok_iff.1 h
      obtain ⟨x, inner, split'⟩ := exists_spaces inside
      obtain ⟨x', q, y, key, inner', quoted, before⟩ := exists_of_skipKey key
      obtain ⟨z, v, _, rest', behind, value, closes⟩ := rest
      cases closes with
      | map here closes =>
        refine ⟨w, _, _, ?_, spaces, .map (.member
          (.first (spaces_append_iff.2 ⟨inner, inner'⟩)) quoted before behind value here), closes⟩
        rw [split, split', key, rest']
        simp
  · obtain ⟨u, passed, ⟨⟩⟩ := Except.map_eq_ok_iff.1 h
    obtain ⟨v, scalar, value⟩ := exists_of_skipScalar passed
    obtain ⟨u, rfl, closes⟩ := rest
    refine ⟨w, v, u, ?_, spaces, value, closes⟩
    rw [split, scalar]

theorem grammatical_of_skipRest (h : skipRest frame frames s = .ok (stage, left, t))
    (rest : Grammatical stage left t r) : Grammatical .rest (frame :: frames) s r := by
  obtain ⟨w, spaces, split⟩ := exists_spaces s
  unfold skipRest at h
  split at h
  case h_1 | h_4 | h_5 | h_8 => cases h
  case h_2 mark =>
    cases h
    obtain ⟨u, rfl, closes⟩ := rest
    refine ⟨_, ?_, .list (.lastItem spaces) closes⟩
    rw [split, mark]
    simp
  case h_3 mark =>
    cases h
    obtain ⟨x, v, _, rfl, behind, value, closes⟩ := rest
    cases closes with
    | list here closes =>
      refine ⟨_, ?_, .list (.item (.comma spaces behind) value here) closes⟩
      rw [split, mark]
      simp
  case h_6 mark =>
    cases h
    obtain ⟨u, rfl, closes⟩ := rest
    refine ⟨_, ?_, .map (.lastMember spaces) closes⟩
    rw [split, mark]
    simp
  case h_7 mark =>
    obtain ⟨k, key, ⟨⟩⟩ := Except.map_eq_ok_iff.1 h
    obtain ⟨x, q, y, rfl, inner, quoted, before⟩ := exists_of_skipKey key
    obtain ⟨z, v, _, rfl, behind, value, closes⟩ := rest
    cases closes with
    | map here closes =>
      refine ⟨_, ?_, .map (.member (.comma spaces inner) quoted before behind value here) closes⟩
      rw [split, mark]
      simp

theorem grammatical_of_skipFrom (h : skipFrom stage frames s = .ok r) :
    Grammatical stage frames s r := by
  fun_induction skipFrom stage frames s with
  | case1 | case4 => cases h
  | case2 s frames stage left t value ih => exact grammatical_of_skipValue value (ih h)
  | case3 s =>
    cases h
    exact ⟨[], rfl, .nil⟩
  | case5 s frame frames stage left t rest ih => exact grammatical_of_skipRest rest (ih h)

theorem exists_of_skip (h : skip s = .ok r) : ∃ w v, s = w ++ (v ++ r) ∧ Spaces w ∧ IsValue v := by
  obtain ⟨w, v, u, rfl, spaces, value, closes⟩ := grammatical_of_skipFrom h
  cases closes
  exact ⟨w, v, rfl, spaces, value⟩

end Open

section Texts

variable {phrase : Phrase} {s t v w x : List Char}

def Closed (s : List Char) : Prop := ∃ u c, s = u ++ [c] ∧ isSpace c = false

theorem Closed.append_left (h : Closed t) (s : List Char) : Closed (s ++ t) := by
  obtain ⟨u, c, rfl, space⟩ := h
  exact ⟨s ++ u, c, (List.append_assoc ..).symm, space⟩

theorem Closed.cons (h : Closed t) (c : Char) : Closed (c :: t) := h.append_left [c]

theorem closed_singleton {c : Char} (h : isSpace c = false) : Closed [c] := ⟨[], c, rfl, h⟩

theorem closed_of_digits {ds : List Char} (h : Digits ds) : Closed ds := by
  obtain ⟨nonempty, all⟩ := h
  exact ⟨_, _, (List.dropLast_append_getLast nonempty).symm,
    isSpace_of_isDigit (all _ (List.getLast_mem nonempty))⟩

theorem WholePart.closed (h : WholePart s) : Closed s := by
  have digits := h.forall_isDigit
  obtain ⟨d, u, rfl, -⟩ := h.startsDigit
  exact closed_of_digits ⟨by simp, digits⟩

theorem IsNumber.closed (h : IsNumber s) : Closed s := by
  obtain ⟨signed, whole, fraction, exponent⟩ := h
  refine Closed.append_left ?_ _
  cases exponent with
  | digits letter signed digits =>
    exact ((((closed_of_digits digits).append_left _).cons _).append_left _).append_left _
  | none =>
    rw [List.append_nil]
    cases fraction with
    | digits digits => exact ((closed_of_digits digits).cons _).append_left _
    | none =>
      rw [List.append_nil]
      exact whole.closed

theorem IsQuoted.closed (h : IsQuoted s) : Closed s := by
  induction h with
  | close => exact closed_singleton (by decide)
  | plain _ _ _ _ ih => exact ih.cons _
  | letter _ _ ih => exact (ih.cons _).cons _
  | unit _ _ ih => exact (((((ih.cons _).cons _).cons _).cons _).cons _).cons _

theorem Derives.closed (h : Derives phrase s) : Closed s := by
  induction h with
  | word h =>
    simp only [List.mem_cons, List.not_mem_nil, or_false] at h
    obtain rfl | rfl | rfl := h
    · exact ⟨['n', 'u', 'l'], 'l', rfl, by decide⟩
    · exact ⟨['t', 'r', 'u'], 'e', rfl, by decide⟩
    · exact ⟨['f', 'a', 'l', 's'], 'e', rfl, by decide⟩
  | number h => exact h.closed
  | string h => exact h.closed.cons _
  | list _ ih => exact ih.cons _
  | map _ ih => exact ih.cons _
  | lastItem => exact (closed_singleton (by decide)).append_left _
  | item _ _ _ _ ih => exact (ih.append_left _).append_left _
  | lastMember => exact (closed_singleton (by decide)).append_left _
  | member _ _ _ _ _ _ _ ih =>
    exact ((((((ih.append_left _).append_left _).cons _).append_left _).append_left _).cons
      _).append_left _

theorem eq_append_of_append_spaces (h : s ++ x = t ++ w) (ht : Closed t) (hx : Spaces x) :
    ∃ y, w = y ++ x := by
  obtain ⟨u, c, rfl, space⟩ := ht
  obtain ⟨y, front, rfl⟩ | ⟨y, -, rfl⟩ := List.append_eq_append_iff.1 h
  · cases y with
    | nil => exact ⟨[], rfl⟩
    | cons d y =>
      have last := congrArg List.getLast? front
      rw [List.getLast?_concat, List.getLast?_append_of_ne_nil _ (by simp)] at last
      rw [hx c (List.mem_append_left _ (List.mem_of_getLast? last.symm))] at space
      cases space
  · exact ⟨y, rfl⟩

theorem wraps_surrounded_iff (hw : Spaces w) (hx : Spaces x) :
    Wraps (w ++ (s ++ x)) v ↔ Wraps s v := by
  constructor
  · rintro ⟨w', x', split, hw', hx', value⟩
    have inside := congrArg skipSpace split
    rw [skipSpace_spaces hw, hw'.skipSpace_value value] at inside
    obtain ⟨w'', before, split'⟩ := exists_spaces (s ++ x)
    rw [inside, ← List.append_assoc] at split'
    obtain ⟨y, rfl⟩ := eq_append_of_append_spaces split' (value.closed.append_left _) hx
    rw [← List.append_assoc] at split'
    refine ⟨w'', y, ?_, before, (spaces_append_iff.1 hx').1, value⟩
    rw [List.append_cancel_right split', List.append_assoc]
  · rintro ⟨w', x', rfl, hw', hx', value⟩
    exact ⟨w ++ w', x' ++ x, by simp, spaces_append_iff.2 ⟨hw, hw'⟩, spaces_append_iff.2 ⟨hx', hx⟩,
      value⟩

theorem Wraps.unique {u : List Char} (h : Wraps s v) (h' : Wraps s u) : v = u := by
  obtain ⟨w, x, rfl, before, behind, value⟩ := h
  obtain ⟨w', x', split, before', behind', value'⟩ := h'
  have inside := congrArg skipSpace split
  rw [before.skipSpace_value value, before'.skipSpace_value value'] at inside
  have passed := value.skip behind.endsNumber
  rw [inside, value'.skip behind'.endsNumber] at passed
  cases passed
  exact List.append_cancel_right inside

end Texts

end ScmPlugins.Json
