import ScmPlugins.Host.Environment
import ScmPlugins.Proofs.Number.Decimal
import ScmPlugins.Proofs.Text.Trim
import ScmPlugins.Version

/-!
Values of variables. A value is kept as it stands unless there are blanks around it or it can be
read as something other than a plain text.
-/

namespace ScmPlugins.Host

namespace Written

def Bracket.opening : Bracket → Char
  | .square => '['
  | .curly => '\x7b'

variable {s t cs rest : List Char}

theorem untilQuote_length (h : untilQuote s = some (t, rest)) :
    t.length + rest.length < s.length := by
  fun_induction untilQuote s generalizing t with
  | case1 => cases h
  | case2 r =>
    cases h
    simp
  | case3 c r ih | case4 c r _ _ ih =>
    obtain ⟨⟨u, v⟩, found, same⟩ := Option.map_eq_some_iff.1 h
    cases same
    have := ih found
    simp only [List.length_cons]
    omega

theorem unescape_length (h : unescape s = some cs) : cs.length ≤ s.length := by
  fun_induction unescape s generalizing cs with
  | case1 =>
    cases h
    simp
  | case2 r ih | case3 r ih =>
    simp only [Option.bind_eq_bind, Option.bind_eq_some_iff] at h
    obtain ⟨c, -, ds, found, ⟨⟩⟩ := h
    have := ih found
    simp only [List.length_drop, List.length_cons] at this ⊢
    omega
  | case4 c r _ _ ih =>
    simp only [Option.bind_eq_bind, Option.bind_eq_some_iff] at h
    obtain ⟨d, -, ds, found, ⟨⟩⟩ := h
    have := ih found
    simp only [List.length_cons]
    omega
  | case5 => cases h
  | case6 c r _ _ _ _ ih =>
    obtain ⟨ds, found, rfl⟩ := Option.map_eq_some_iff.1 h
    have := ih found
    simp only [List.length_cons]
    omega

theorem content_length (h : content s = .ok cs) : cs.length ≤ s.length := by
  have split : (s.takeWhile (· != '\\')).length + (s.dropWhile (· != '\\')).length = s.length := by
    rw [← List.length_append, List.takeWhile_append_dropWhile]
  unfold content at h
  dsimp only at h
  split at h
  · cases h
  · split at h
    · cases h
      omega
    · split at h
      · cases h
      · cases h
      · rename_i kept behind ds front found
        cases h
        have escaped := unescape_length found
        have plain := congrArg List.length (Text.append_of_splitAtByte? front)
        simp only [List.length_append] at plain ⊢
        omega

theorem quoted_length (h : quoted s = .ok (cs, rest)) : cs.length + rest.length < s.length := by
  unfold quoted at h
  split at h
  · cases h
  · rename_i t r found
    cases inside : content t with
    | ok ds =>
      rw [inside] at h
      cases h
      have := content_length inside
      have := untilQuote_length found
      omega
    | error e =>
      rw [inside] at h
      cases h
    | stopped =>
      rw [inside] at h
      cases h

end Written

namespace Environment

def IsNumeral (s : List Char) : Prop :=
  if '.' ∈ s then (Decimal.real? s).isSome else Decimal.isWhole64 s = true

def opening : List Char := ['[', '\x7b', '"', '\'']

/-- A text that is nothing but a text: it is no list or map and is not quoted, be it that what its
first character begins is not carried through, and it is no truth value, number or bare list. -/
inductive Bland : List Char → Prop
  | brackets {b : Written.Bracket} {r : List Char}
      (h : Written.close [b] true r = .error .malformed) : Bland (b.opening :: r)
  | quote {r : List Char} (h : Written.quoted r = .error .malformed) : Bland ('"' :: r)
  | quotation {r cs rest : List Char} (h : Written.quoted r = .ok (cs, rest))
      (more : rest ≠ []) : Bland ('"' :: r)
  | apostrophe {r : List Char} (h : ∀ c, r ≠ [c, '\'']) : Bland ('\'' :: r)
  | word {s : List Char} (start : ∀ c ∈ s.head?, c ∉ opening) (bare : ',' ∉ s)
      (flag : isFlagWord s = false) (numeral : ¬IsNumeral s) : Bland s

structure Verbatim (s : List Char) : Prop where
  trimmed : Text.Trimmed s
  bland : Bland s

variable {ε : Type} {c : Char} {s r : List Char} {u : String} {e : Entry}

theorem word_eq_text_iff :
    word s = .text u ↔ u = String.ofList s ∧ isFlagWord s = false ∧ ¬IsNumeral s := by
  have kept : Entry.text (String.ofList s) = .text u ↔ u = String.ofList s := by
    rw [Entry.text.injEq, eq_comm]
  unfold word IsNumeral
  by_cases flag : isFlagWord s = true
  · simp [flag]
  by_cases point : '.' ∈ s
  · simp only [flag, List.contains_eq_mem, point, decide_true, if_true, Bool.false_eq_true,
      if_false]
    cases found : Decimal.real? s with
    | none => simp [kept]
    | some p =>
      obtain ⟨n, e⟩ := p
      cases finite : Decimal.isFinite n e <;> simp [finite]
  · by_cases whole : Decimal.isWhole64 s = true <;> simp [flag, point, whole, kept]

theorem isNumeral_point {ds es : List Char} (nonempty : ds ≠ []) (hds : ∀ c ∈ ds, c.isDigit = true)
    (hes : ∀ c ∈ es, c.isDigit = true) : IsNumeral (ds ++ '.' :: es) := by
  have point : '.' ∈ ds ++ '.' :: es := by simp
  have whole : (ds ++ '.' :: es).takeWhile Char.isDigit = ds := by
    rw [List.takeWhile_append_of_pos hds]
    simp
  have behind : (ds ++ '.' :: es).dropWhile Char.isDigit = '.' :: es := by
    rw [List.dropWhile_append_of_pos hds]
    simp
  have places : es.takeWhile Char.isDigit = es ∧ es.dropWhile Char.isDigit = [] :=
    ⟨List.takeWhile_eq_self_iff.2 hes, List.dropWhile_eq_nil_iff.2 hes⟩
  have unsigned : Decimal.unsigned (ds ++ '.' :: es) = ds ++ '.' :: es := by
    cases ds with
    | nil => exact absurd rfl nonempty
    | cons d ds =>
      have digit := hds d List.mem_cons_self
      unfold Decimal.unsigned
      split
      · rename_i sign
        rw [(List.cons.inj sign).1] at digit
        exact absurd digit (by decide)
      · rename_i sign
        rw [(List.cons.inj sign).1] at digit
        exact absurd digit (by decide)
      · rfl
  have value : Decimal.digits? (ds ++ es) = some (Decimal.valueOf (ds ++ es)) :=
    Decimal.digits?_eq_some_iff.2 ⟨⟨by simp [nonempty], List.forall_mem_append.2 ⟨hds, hes⟩⟩, rfl⟩
  rw [IsNumeral, if_pos point]
  simp [Decimal.real?, unsigned, whole, behind, places, value, Decimal.exponent?]

theorem isBareList_iff : isBareList s = true ↔ ',' ∈ s ∧ ∀ c ∈ s.head?, c ∉ opening := by
  unfold isBareList opening
  rw [Bool.and_eq_true, List.contains_iff_mem]
  refine and_congr_right fun _ => ?_
  cases s with
  | nil => simp
  | cons c s =>
    simp only [List.head?_cons, Option.mem_def, Option.some.injEq, forall_eq', List.mem_cons,
      List.not_mem_nil, or_false, not_or]
    grind

theorem read_of_start (start : ∀ c ∈ s.head?, c ∉ opening) :
    read (ε := ε) s = .ok (if ',' ∈ s then .unfit else word s) := by
  unfold read
  by_cases comma : ',' ∈ s
  · rw [if_pos (isBareList_iff.2 ⟨comma, start⟩), if_pos comma]
  · rw [if_neg (fun h => comma (isBareList_iff.1 h).1), if_neg comma]
    split
    · exact absurd (start _ rfl) (by decide)
    · exact absurd (start _ rfl) (by decide)
    · exact absurd (start _ rfl) (by decide)
    · exact absurd (start _ rfl) (by decide)
    · rfl

theorem word_apostrophe (r : List Char) : word ('\'' :: r) = .text (String.ofList ('\'' :: r)) := by
  have same : Char.toLower '\'' = '\'' := by decide
  have sign : Decimal.unsigned ('\'' :: r) = '\'' :: r := rfl
  have digit : Char.isDigit '\'' = false := by decide
  refine word_eq_text_iff.2 ⟨rfl, ?_, ?_⟩
  · simp [isFlagWord, same]
  · unfold IsNumeral
    split
    · simp [Decimal.real?, sign, digit, Decimal.digits?]
    · simp [Decimal.isWhole64, digit, Decimal.digits?]

theorem not_isBareList (h : c ∈ opening) : ¬isBareList (c :: r) = true :=
  fun bare => (isBareList_iff.1 bare).2 c rfl h

theorem read_brackets (b : Written.Bracket) (r : List Char) : read (ε := ε) (b.opening :: r) =
    match Written.close [b] true r with
    | .ok _ => .ok .unfit
    | .error _ => .ok (.text (String.ofList (b.opening :: r)))
    | .stopped => .stopped := by
  cases b with
  | square =>
    rw [Written.Bracket.opening, read, if_neg (not_isBareList (by decide))]
    cases Written.close [.square] true r <;> rfl
  | curly =>
    rw [Written.Bracket.opening, read, if_neg (not_isBareList (by decide))]
    cases Written.close [.curly] true r <;> rfl

theorem read_quote (r : List Char) : read (ε := ε) ('"' :: r) =
    match Written.quoted r with
    | .ok (cs, rest) => .ok (.text (String.ofList (if rest.isEmpty then cs else '"' :: r)))
    | .error _ => .ok (.text (String.ofList ('"' :: r)))
    | .stopped => .stopped := by
  rw [read, if_neg (not_isBareList (by decide))]
  cases Written.quoted r <;> rfl

theorem read_apostrophe (c : Char) :
    read (ε := ε) ['\'', c, '\''] = .ok (.text (String.ofList [c])) := by
  rw [read, if_neg (not_isBareList (by decide))]

theorem read_apostrophe_of_ne (h : ∀ c, r ≠ [c, '\'']) :
    read (ε := ε) ('\'' :: r) = .ok (.text (String.ofList ('\'' :: r))) := by
  rw [read, if_neg (not_isBareList (by decide)), word_apostrophe]
  all_goals
    intro other same
    cases same
  exact h _ rfl

theorem opening_cases (h : c ∈ opening) (r : List Char) :
    (∃ b : Written.Bracket, c = b.opening) ∨ c = '"' ∨
      c = '\'' ∧ ((∃ d, r = [d, '\'']) ∨ ∀ d, r ≠ [d, '\'']) := by
  simp only [opening, List.mem_cons, List.not_mem_nil, or_false] at h
  obtain rfl | rfl | rfl | rfl := h
  · exact .inl ⟨.square, rfl⟩
  · exact .inl ⟨.curly, rfl⟩
  · exact .inr (.inl rfl)
  · refine .inr (.inr ⟨rfl, ?_⟩)
    rw [← not_exists]
    exact em _

theorem bland_or_shorter (h : read (ε := ε) s = .ok (.text u)) :
    u = String.ofList s ∧ Bland s ∨ u.toList.length < s.length := by
  by_cases start : ∀ c ∈ s.head?, c ∉ opening
  case pos =>
    rw [read_of_start start] at h
    split at h
    · cases h
    · rename_i bare
      obtain ⟨same, flag, numeral⟩ := word_eq_text_iff.1 (Attempt.ok.inj h)
      exact .inl ⟨same, .word start bare flag numeral⟩
  case neg =>
    cases s with
    | nil => exact absurd nofun start
    | cons c r =>
      have opens : c ∈ opening := by simpa using start
      obtain ⟨b, rfl⟩ | rfl | ⟨rfl, ⟨d, rfl⟩ | other⟩ := opening_cases opens r
      · rw [read_brackets] at h
        split at h
        · cases h
        · rename_i failed
          cases h
          exact .inl ⟨rfl, .brackets failed⟩
        · cases h
      · rw [read_quote] at h
        split at h
        · rename_i cs rest found
          have length := Written.quoted_length found
          cases h
          split
          · right
            simp
            omega
          · rename_i more
            exact .inl ⟨rfl, .quotation found (by simpa using more)⟩
        · rename_i failed
          cases h
          exact .inl ⟨rfl, .quote failed⟩
        · cases h
      · rw [read_apostrophe] at h
        cases h
        right
        simp
      · rw [read_apostrophe_of_ne other] at h
        cases h
        exact .inl ⟨rfl, .apostrophe other⟩

theorem read_ok_or_stopped (s : List Char) :
    (∃ e, read (ε := ε) s = .ok e) ∨ read (ε := ε) s = .stopped := by
  by_cases start : ∀ c ∈ s.head?, c ∉ opening
  case pos => exact .inl ⟨_, read_of_start start⟩
  case neg =>
    cases s with
    | nil => exact absurd nofun start
    | cons c r =>
      have opens : c ∈ opening := by simpa using start
      obtain ⟨b, rfl⟩ | rfl | ⟨rfl, ⟨d, rfl⟩ | other⟩ := opening_cases opens r
      · rw [read_brackets]
        cases Written.close [b] true r <;> simp
      · rw [read_quote]
        cases Written.quoted r <;> simp
      · exact .inl ⟨_, read_apostrophe d⟩
      · exact .inl ⟨_, read_apostrophe_of_ne other⟩

theorem read_of_bland (h : Bland s) : read (ε := ε) s = .ok (.text (String.ofList s)) := by
  cases h with
  | brackets failed => rw [read_brackets, failed]
  | quote failed => rw [read_quote, failed]
  | quotation found more => simp [read_quote, found, more]
  | apostrophe other => exact read_apostrophe_of_ne other
  | word start bare flag numeral =>
    rw [read_of_start start, if_neg bare, word_eq_text_iff.2 ⟨rfl, flag, numeral⟩]

theorem not_bland_of_numeral (start : ∀ c ∈ s.head?, c ∉ opening) (numeral : IsNumeral s) :
    ¬Bland s := by
  intro bland
  cases bland with
  | word _ _ _ other => exact other numeral
  | @brackets b => exact start b.opening rfl (by cases b <;> decide)
  | quote => exact start _ rfl (by decide)
  | quotation => exact start _ rfl (by decide)
  | apostrophe => exact start _ rfl (by decide)

theorem not_bland_digits (v : Version) : ¬Bland v.digits := by
  have digit (n : Nat) : ∀ c ∈ Nat.toDigits 10 n, c.isDigit = true :=
    fun _ => Nat.isDigit_of_mem_toDigits (by decide) (by decide)
  have other : ∀ c ∈ opening, c.isDigit = false := by simp [opening, Char.isDigit]
  refine not_bland_of_numeral (fun c hc opens => ?_)
    (isNumeral_point Nat.toDigits_ne_nil (digit _) (digit _))
  have front : c ∈ Nat.toDigits 10 v.major.toNat := by
    cases major : Nat.toDigits 10 v.major.toNat with
    | nil => exact absurd major Nat.toDigits_ne_nil
    | cons d ds =>
      rw [Version.digits, major] at hc
      cases hc
      exact List.mem_cons_self
  have clash := other c opens
  rw [digit _ c front] at clash
  cases clash

theorem read_trim_iff {v : String} :
    read (ε := ε) (Text.trim v.toList) = .ok (.text v) ↔ Verbatim v.toList := by
  constructor
  · intro h
    obtain ⟨same, bland⟩ | shorter := bland_or_shorter h
    · have self := congrArg String.toList same
      rw [String.toList_ofList] at self
      rw [← self] at bland
      exact ⟨Text.trim_eq_self_iff.1 self.symm, bland⟩
    · obtain ⟨w, x, around, -⟩ := (Text.trims_trim v.toList).around
      have length := congrArg List.length around
      simp only [List.length_append] at length
      omega
  · rintro ⟨trimmed, bland⟩
    rw [Text.trim_eq_self_iff.2 trimmed, read_of_bland bland, String.ofList_toList]

end Environment

end ScmPlugins.Host
