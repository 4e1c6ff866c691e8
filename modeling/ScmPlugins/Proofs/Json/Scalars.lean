import ScmPlugins.Json.Reader
import ScmPlugins.Json.Writer

namespace ScmPlugins.Json

theorem hexDigit?_hexDigit {n : Nat} (h : n < 16) : Text.hexDigit? (hexDigit n) = some n := by
  have digit : ∀ n : Fin 16, Text.hexDigit? (hexDigit n) = some n.val := by decide
  exact digit ⟨n, h⟩

theorem escape_control {c : Char} (h : c.toNat < 0x20) (r : List Char) :
    escape ('u' :: '0' :: '0' :: hexDigit (c.toNat / 16) :: hexDigit (c.toNat % 16) :: r) =
      .ok (c, r) := by
  have high := hexDigit?_hexDigit (n := c.toNat / 16) (by omega)
  have low := hexDigit?_hexDigit (n := c.toNat % 16) (by omega)
  have zero : Text.hexDigit? '0' = some 0 := by decide
  have value : c.toNat / 16 * 16 + c.toNat % 16 = c.toNat := by omega
  simp only [escape, hexChar, hexUnit, zero, high, low, Nat.zero_mul, Nat.zero_add, value]
  rw [if_neg (by omega), if_neg (by omega), Char.ofNat_toNat]

theorem string_escape {s r : List Char} {c : Char} (h : escape s = .ok (c, r)) :
    string ('\\' :: s) = (string r).map fun (cs, t) => (c :: cs, t) := by
  rw [string]
  split
  · simp_all
  · simp_all

theorem string_plain {c : Char} (quote : c ≠ '"') (backslash : c ≠ '\\') (h : ¬c.toNat < 0x20)
    (r : List Char) : string (c :: r) = (string r).map fun (cs, t) => (c :: cs, t) := by
  rw [string, if_neg h]
  · exact quote
  · exact backslash

theorem string_escapeChar (c : Char) (r : List Char) :
    string (escapeChar c ++ r) = (string r).map fun (cs, t) => (c :: cs, t) := by
  unfold escapeChar
  -- Seven characters have an escape of one letter.
  iterate 7
    split
    · rename_i h
      subst h
      exact string_escape rfl
  split
  · exact string_escape (escape_control ‹_› r)
  · rename_i quote backslash _ _ _ _ _ control
    exact string_plain quote backslash control r

theorem string_flatMap_escapeChar (cs r : List Char) :
    string (cs.flatMap escapeChar ++ '"' :: r) = .ok (cs, r) := by
  induction cs with
  | nil => rw [List.flatMap_nil, List.nil_append, string]
  | cons c cs ih =>
    rw [List.flatMap_cons, List.append_assoc, string_escapeChar, ih]
    rfl

theorem string_renderString (s : String) (r : List Char) :
    ∃ t, renderString s ++ r = '"' :: t ∧ string t = .ok (s.toList, r) := by
  refine ⟨s.toList.flatMap escapeChar ++ '"' :: r, ?_, string_flatMap_escapeChar s.toList r⟩
  simp [renderString, renderChars]

theorem digit_digitChar {n : Nat} (h : n < 10) : Literal.digit n.digitChar = n := by
  have digit : ∀ n : Fin 10, Literal.digit n.val.digitChar = n.val := by decide
  exact digit ⟨n, h⟩

theorem ofDigits_toDigits (n : Nat) : Literal.ofDigits (Nat.toDigits 10 n) = n := by
  induction n using Nat.strongRecOn with
  | ind n ih =>
    rw [Nat.toDigits_eq_if (by decide)]
    split
    · simp [Literal.ofDigits, digit_digitChar ‹_›]
    · have front := ih (n / 10) (by omega)
      simp only [Literal.ofDigits, List.foldl_append, List.foldl_cons, List.foldl_nil] at front ⊢
      rw [front, digit_digitChar (by omega)]
      omega

def EndsNumber (r : List Char) : Prop :=
  ∀ c ∈ r.head?, c.isDigit = false ∧ c ≠ '.' ∧ c ≠ 'e' ∧ c ≠ 'E'

theorem endsNumber_nil : EndsNumber [] := nofun

theorem endsNumber_cons {c : Char} (h : c.isDigit = false ∧ c ≠ '.' ∧ c ≠ 'e' ∧ c ≠ 'E')
    (r : List Char) : EndsNumber (c :: r) := by
  rintro _ ⟨rfl⟩
  exact h

namespace Literal

theorem digits_append {ds r : List Char} (atEnd : Fault) (hne : ds ≠ [])
    (hds : ∀ c ∈ ds, c.isDigit = true) (hr : ∀ c ∈ r.head?, c.isDigit = false) :
    digits atEnd (ds ++ r) = .ok (ds, r) := by
  have stop : ∀ r : List Char, (∀ c ∈ r.head?, c.isDigit = false) →
      r.takeWhile Char.isDigit = [] ∧ r.dropWhile Char.isDigit = r
    | [], _ => ⟨rfl, rfl⟩
    | c :: r, hr => by simp [hr c rfl]
  cases ds with
  | nil => exact absurd rfl hne
  | cons d ds =>
    have hds' : ∀ c ∈ ds, c.isDigit = true := fun c hc => hds c (by simp [hc])
    simp only [List.cons_append, digits, hds d (by simp), if_true,
      List.takeWhile_append_of_pos hds', List.dropWhile_append_of_pos hds', stop r hr,
      List.append_nil]

theorem isDigit_toDigits {n : Nat} {c : Char} (h : c ∈ Nat.toDigits 10 n) : c.isDigit = true :=
  Nat.isDigit_of_mem_toDigits (by decide) (by decide) h

theorem toDigits_eq_cons (n : Nat) :
    ∃ d ds, Nat.toDigits 10 n = d :: ds ∧ d.isDigit = true ∧ (0 < n → d ≠ '0') := by
  induction n using Nat.strongRecOn with
  | ind n ih =>
    rw [Nat.toDigits_eq_if (by decide)]
    split
    · have digit : ∀ n : Fin 10, n.val.digitChar.isDigit = true ∧
          (0 < n.val → n.val.digitChar ≠ '0') := by decide
      exact ⟨_, _, rfl, digit ⟨n, ‹_›⟩⟩
    · obtain ⟨d, ds, front, isDigit, nonzero⟩ := ih (n / 10) (by omega)
      exact ⟨d, _, by rw [front, List.cons_append], isDigit, fun _ => nonzero (by omega)⟩

theorem scanWhole_toDigits (atEnd : Fault) (n : Nat) {r : List Char} (hr : EndsNumber r) :
    scanWhole atEnd (Nat.toDigits 10 n ++ r) = .ok (Nat.toDigits 10 n, r) := by
  have read := digits_append atEnd (Nat.toDigits_ne_nil (b := 10) (n := n))
    (fun _ => isDigit_toDigits) fun c hc => (hr c hc).1
  unfold scanWhole
  split
  · rename_i c t heq
    -- Only zero itself begins with a zero, and then nothing more of the number may follow.
    rcases Nat.eq_zero_or_pos n with rfl | hn
    · obtain rfl : r = c :: t := by simpa [Nat.toDigits_zero] using heq
      simp [(hr c rfl).1, Nat.toDigits_zero]
    · obtain ⟨d, ds, front, -, nonzero⟩ := toDigits_eq_cons n
      rw [front, List.cons_append] at heq
      exact absurd (List.cons.inj heq).1 (nonzero hn)
  · exact read

theorem scanFraction_of_endsNumber (atEnd : Fault) {r : List Char} (hr : EndsNumber r) :
    scanFraction atEnd r = .ok (none, r) := by
  unfold scanFraction
  split
  · exact absurd rfl (hr '.' rfl).2.1
  · rfl

theorem scanExponent_of_endsNumber (atEnd : Fault) {r : List Char} (hr : EndsNumber r) :
    scanExponent atEnd r = .ok (none, r) := by
  unfold scanExponent
  split
  · exact absurd rfl (hr 'e' rfl).2.2.1
  · exact absurd rfl (hr 'E' rfl).2.2.2
  · rfl

theorem scanMinus_toDigits (n : Nat) (r : List Char) :
    scanMinus (Nat.toDigits 10 n ++ r) = (false, Nat.toDigits 10 n ++ r) := by
  obtain ⟨d, ds, front, isDigit, -⟩ := toDigits_eq_cons n
  rw [front, List.cons_append]
  unfold scanMinus
  split
  · rename_i heq
    rw [(List.cons.inj heq).1] at isDigit
    exact absurd isDigit (by decide)
  · rfl

theorem scan_renderInt (atEnd : Fault) (n : Int) {r : List Char} (hr : EndsNumber r) :
    scan atEnd (renderInt n ++ r) =
      .ok (⟨decide (n < 0), Nat.toDigits 10 n.natAbs, none, none⟩, r) := by
  have minus : scanMinus (renderInt n ++ r) = (decide (n < 0), Nat.toDigits 10 n.natAbs ++ r) := by
    unfold renderInt
    split
    · simp [scanMinus, *]
    · simp [scanMinus_toDigits, *]
  simp only [scan, minus, scanWhole_toDigits atEnd n.natAbs hr,
    scanFraction_of_endsNumber atEnd hr, scanExponent_of_endsNumber atEnd hr]

end Literal

def IsWhole (n : Int) : Prop := -0x8000000000000000 ≤ n ∧ n < 0x10000000000000000

theorem number_renderInt {n : Int} (h : IsWhole n) {r : List Char} (hr : EndsNumber r) :
    number (renderInt n ++ r) = .ok (.int n, r) := by
  obtain ⟨low, high⟩ := h
  have whole : Literal.int? ⟨decide (n < 0), Nat.toDigits 10 n.natAbs, none, none⟩ = some n := by
    simp only [Literal.int?, ofDigits_toDigits, Option.isSome_none, Bool.or_self,
      Bool.false_eq_true, if_false, decide_eq_true_eq]
    split
    · rw [if_pos (by omega)]
      congr 1
      omega
    · rw [if_pos (by omega)]
      congr 1
      omega
  simp only [number, Literal.scan_renderInt _ n hr, Literal.value, whole]

theorem scalar_renderInt {n : Int} (h : IsWhole n) {r : List Char} (hr : EndsNumber r) :
    scalar (renderInt n ++ r) = .ok (.int n, r) := by
  have read := number_renderInt h hr
  have literal {c : Char} (hc : c = '-' ∨ c.isDigit = true) (t : List Char) :
      scalar (c :: t) = number (c :: t) := by
    have letter : c ≠ 'n' ∧ c ≠ 't' ∧ c ≠ 'f' ∧ c ≠ '"' := by
      refine ⟨?_, ?_, ?_, ?_⟩ <;> rintro rfl <;> revert hc <;> decide
    simp only [scalar, letter, if_false, if_pos hc]
  unfold renderInt at read ⊢
  split at read
  · rw [if_pos ‹_›, ← read]
    exact literal (.inl rfl) _
  · obtain ⟨d, ds, front, isDigit, -⟩ := Literal.toDigits_eq_cons n.natAbs
    rw [if_neg ‹_›, ← read, front]
    exact literal (.inr isDigit) _

end ScmPlugins.Json
