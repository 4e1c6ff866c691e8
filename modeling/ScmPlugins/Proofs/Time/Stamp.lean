import Mathlib.Algebra.Group.Nat.Defs
import Mathlib.Data.List.Induction
import ScmPlugins.Proofs.Number.Decimal
import ScmPlugins.Time.Stamp

namespace ScmPlugins

namespace Stamp

section Digits

theorem digit_mod (n : Nat) : digit (n % 10) = digit n := by
  rw [digit, Nat.mod_mod, digit]

@[simp] theorem isDigit_digit (n : Nat) : (digit n).isDigit = true := by
  have below : ∀ n : Fin 10, (digit n.val).isDigit = true := by decide
  rw [← digit_mod]
  exact below ⟨n % 10, Nat.mod_lt n (by decide)⟩

@[simp] theorem toNat_digit (n : Nat) : (digit n).toNat = 48 + n % 10 := by
  have below : ∀ n : Fin 10, (digit n.val).toNat = 48 + n.val := by decide
  rw [← digit_mod]
  exact below ⟨n % 10, Nat.mod_lt n (by decide)⟩

theorem digit_add {c : Char} (h : c.isDigit = true) (n : Nat) :
    digit (10 * n + (c.toNat - 48)) = c := by
  obtain ⟨low, high⟩ := Decimal.toNat_of_isDigit h
  have last : 48 + (10 * n + (c.toNat - 48)) % 10 = c.toNat := by omega
  rw [digit, last, Char.ofNat_toNat]

/-- The last digits of a number, with zeros in front where it has no more. -/
def padded : (width : Nat) → Nat → List Char
  | 0, _ => []
  | width + 1, n => padded width (n / 10) ++ [digit n]

theorem three_eq (n : Nat) : three n = padded 3 n := by
  simp [three, two, padded, Nat.div_div_eq_div_mul]

theorem four_eq (n : Nat) : four n = padded 4 n := by
  simp [four, three, two, padded, Nat.div_div_eq_div_mul]

@[simp] theorem length_padded (width n : Nat) : (padded width n).length = width := by
  induction width generalizing n with
  | zero => rfl
  | succ width ih => rw [padded, List.length_append, ih, List.length_singleton]

theorem isDigit_of_mem_padded {width n : Nat} {c : Char} (h : c ∈ padded width n) :
    c.isDigit = true := by
  induction width generalizing n with
  | zero => cases h
  | succ width ih =>
    rw [padded, List.mem_append, List.mem_singleton] at h
    rcases h with front | rfl
    · exact ih front
    · exact isDigit_digit n

theorem digitChar_of_lt {n : Nat} (h : n < 10) : Nat.digitChar n = digit n := by
  have below : ∀ n : Fin 10, Nat.digitChar n.val = digit n.val := by decide
  exact below ⟨n, h⟩

theorem padded_zero (width : Nat) : padded width 0 = List.replicate width '0' := by
  induction width with
  | zero => rfl
  | succ width ih =>
    rw [padded, Nat.zero_div, ih, List.replicate_succ']
    rfl

theorem padded_eq_leftpad {width n : Nat} (pos : 0 < width) (h : n < 10 ^ width) :
    padded width n = (Nat.toDigits 10 n).leftpad width '0' := by
  induction width generalizing n with
  | zero => cases pos
  | succ width ih =>
    rw [Nat.pow_succ] at h
    rw [padded, Nat.toDigits_eq_if (by decide)]
    split
    next low =>
      rw [Nat.div_eq_of_lt low, padded_zero, digitChar_of_lt low]
      rfl
    next high =>
      have wide : 0 < width := by
        refine Nat.pos_of_ne_zero ?_
        rintro rfl
        omega
      rw [ih wide (by omega), digitChar_of_lt (Nat.mod_lt n (by decide)), digit_mod]
      simp [List.leftpad]

def ofDigits (ds : List Char) : Nat := ds.foldl (fun n c => 10 * n + (c.toNat - 48)) 0

theorem ofDigits_append (ds : List Char) (c : Char) :
    ofDigits (ds ++ [c]) = 10 * ofDigits ds + (c.toNat - 48) := by
  rw [ofDigits, List.foldl_append, List.foldl_cons, List.foldl_nil, ofDigits]

theorem ofDigits_padded {width n : Nat} (h : n < 10 ^ width) : ofDigits (padded width n) = n := by
  induction width generalizing n with
  | zero =>
    rw [Nat.pow_zero, Nat.lt_one_iff] at h
    rw [h]
    rfl
  | succ width ih =>
    have front : n / 10 < 10 ^ width := by
      rw [Nat.pow_succ] at h
      omega
    rw [padded, ofDigits_append, ih front, toNat_digit]
    omega

theorem padded_ofDigits {ds : List Char} (h : ∀ c ∈ ds, c.isDigit = true) :
    padded ds.length (ofDigits ds) = ds ∧ ofDigits ds < 10 ^ ds.length := by
  induction ds using List.reverseRecOn with
  | nil => exact ⟨rfl, by decide⟩
  | append_singleton ds c ih =>
    obtain ⟨front, lt⟩ := ih fun d hd => h d (List.mem_append_left _ hd)
    have last : c.isDigit = true := h c (by simp)
    obtain ⟨low, high⟩ := Decimal.toNat_of_isDigit last
    have shift : (10 * ofDigits ds + (c.toNat - 48)) / 10 = ofDigits ds := by omega
    rw [List.length_append, List.length_singleton, ofDigits_append]
    refine ⟨by rw [padded, shift, front, digit_add last], ?_⟩
    rw [Nat.pow_succ]
    omega

theorem digits?_eq_some_iff {width n : Nat} {s r : List Char} :
    digits? width s = some (n, r) ↔ n < 10 ^ width ∧ s = padded width n ++ r := by
  constructor
  · intro h
    unfold digits? at h
    dsimp only at h
    split at h
    · rename_i read
      obtain ⟨rfl, rfl⟩ := Prod.mk.inj (Option.some.inj h)
      obtain ⟨same, lt⟩ := padded_ofDigits (List.all_eq_true.1 read.2)
      rw [read.1] at same lt
      refine ⟨lt, ?_⟩
      rw [ofDigits] at same
      rw [same, List.take_append_drop]
    · cases h
  · rintro ⟨lt, rfl⟩
    have front : (padded width n ++ r).take width = padded width n :=
      List.take_left' (length_padded width n)
    have rest : (padded width n ++ r).drop width = r := List.drop_left' (length_padded width n)
    have digits : (padded width n).all Char.isDigit = true :=
      List.all_eq_true.2 fun c hc => isDigit_of_mem_padded hc
    rw [digits?, front, rest, if_pos ⟨length_padded width n, digits⟩]
    exact congrArg some (Prod.ext (ofDigits_padded lt) rfl)

end Digits

theorem mark?_eq_some_iff {c : Char} {s r : List Char} : mark? c s = some r ↔ s = c :: r := by
  cases s with
  | nil => simp [mark?]
  | cons d s =>
    by_cases same : d = c <;> simp [mark?, same]

/-- A sign that may stand in front of a year as it is written, and is then passed over. -/
inductive IdleSign (y : Int) : List Char → Prop
  | none : IdleSign y []
  | plus (h : 0 ≤ y) : IdleSign y ['+']
  | minus (h : y = 0) : IdleSign y ['-']

section Years

variable {y : Int} {s r : List Char}

theorem year_of_nonneg (h : 0 ≤ y) : year y = padded 4 y.natAbs := by
  rw [year, if_neg (Int.not_lt.2 h), List.nil_append, four_eq]

theorem year_of_neg (h : y < 0) : year y = '-' :: padded 4 y.natAbs := by
  rw [year, if_pos h, four_eq]
  rfl

theorem padded_append_ne_cons {n : Nat} {u : List Char} {c : Char} (h : c.isDigit = false) :
    padded 4 n ++ r ≠ c :: u := by
  rw [← four_eq, four, List.cons_append]
  intro same
  obtain ⟨rfl, -⟩ := List.cons.inj same
  exact absurd h (by simp)

theorem year?_of_digits {n : Nat} (lt : n < 10 ^ 4) :
    year? (padded 4 n ++ r) = some (↑n, r) := by
  rw [year?.eq_3 _ (fun _ => padded_append_ne_cons (by decide))
    (fun _ => padded_append_ne_cons (by decide)), digits?_eq_some_iff.2 ⟨lt, rfl⟩]
  rfl

theorem year?_eq_some_iff :
    year? s = some (y, r) ↔
      y.natAbs < 10 ^ 4 ∧ ∃ sign, IdleSign y sign ∧ s = sign ++ year y ++ r := by
  constructor
  · intro h
    unfold year? at h
    -- What is left behind a minus, behind a plus, and without a sign.
    split at h <;> obtain ⟨⟨n, t⟩, read, eq⟩ := Option.map_eq_some_iff.1 h
      <;> obtain ⟨rfl, rfl⟩ := Prod.mk.inj eq <;> obtain ⟨lt, rfl⟩ := digits?_eq_some_iff.1 read
    · rcases Nat.eq_zero_or_pos n with rfl | pos
      · exact ⟨by decide, ['-'], .minus rfl, rfl⟩
      · refine ⟨by omega, [], .none, ?_⟩
        rw [year_of_neg (by omega), Int.natAbs_neg, Int.natAbs_natCast]
        rfl
    · refine ⟨by omega, ['+'], .plus (by omega), ?_⟩
      rw [year_of_nonneg (by omega), Int.natAbs_natCast]
      rfl
    · refine ⟨by omega, [], .none, ?_⟩
      rw [year_of_nonneg (by omega), Int.natAbs_natCast]
      rfl
  · rintro ⟨lt, sign, idle, rfl⟩
    cases idle with
    | none =>
      rcases Int.lt_or_le y 0 with neg | nonneg
      · rw [year_of_neg neg, List.nil_append, List.cons_append, year?,
          digits?_eq_some_iff.2 ⟨lt, rfl⟩]
        simp only [Option.map_some, Option.some.injEq, Prod.mk.injEq, and_true]
        omega
      · rw [year_of_nonneg nonneg, List.nil_append, year?_of_digits lt, Int.natAbs_of_nonneg nonneg]
    | plus nonneg =>
      rw [year_of_nonneg nonneg, List.append_assoc, List.cons_append, List.nil_append, year?,
        digits?_eq_some_iff.2 ⟨lt, rfl⟩]
      simp only [Option.map_some, Option.some.injEq, Prod.mk.injEq, and_true]
      omega
    | minus zero =>
      subst zero
      rfl

end Years

theorem monthLength_le (leap : Bool) {m : Nat} (h : m ≤ 12) : Date.monthLength leap m ≤ 31 := by
  have below : ∀ leap, ∀ m : Fin 13, Date.monthLength leap m.val ≤ 31 := by decide
  exact below leap ⟨m, by omega⟩

structure Told (t : DateTime) : Prop where
  valid : t.isValid = true
  year : t.date.year.natAbs < 10 ^ 4
  millis : t.nano / 1000000 * 1000000 = t.nano

section Times

variable {s : List Char} {t : DateTime}

theorem bind_year?_eq_some_iff {f : Int × List Char → Option DateTime} :
    (year? s >>= f) = some t ↔ ∃ y r, (y.natAbs < 10 ^ 4 ∧ ∃ sign, IdleSign y sign ∧
      s = sign ++ year y ++ r) ∧ f (y, r) = some t := by
  simp only [Option.bind_eq_bind, Option.bind_eq_some_iff, Prod.exists, year?_eq_some_iff]

theorem bind_mark?_eq_some_iff {c : Char} {f : List Char → Option DateTime} :
    (mark? c s >>= f) = some t ↔ ∃ r, s = c :: r ∧ f r = some t := by
  simp only [Option.bind_eq_bind, Option.bind_eq_some_iff, mark?_eq_some_iff]

theorem bind_digits?_eq_some_iff {width : Nat} {f : Nat × List Char → Option DateTime} :
    (digits? width s >>= f) = some t ↔
      ∃ n r, (n < 10 ^ width ∧ s = padded width n ++ r) ∧ f (n, r) = some t := by
  simp only [Option.bind_eq_bind, Option.bind_eq_some_iff, Prod.exists, digits?_eq_some_iff]

theorem ofChars?_eq_some_iff :
    ofChars? s = some t ↔ Told t ∧ ∃ sign, IdleSign t.date.year sign ∧ s = sign ++ chars t := by
  simp only [ofChars?, bind_year?_eq_some_iff, bind_mark?_eq_some_iff, bind_digits?_eq_some_iff]
  constructor
  · rintro ⟨y, _, ⟨year, sign, idle, rfl⟩, _, rfl, month, _, ⟨-, rfl⟩, _, rfl, day, _, ⟨-, rfl⟩, _,
      rfl, hour, _, ⟨-, rfl⟩, _, rfl, minute, _, ⟨-, rfl⟩, _, rfl, second, _, ⟨-, rfl⟩, _, rfl,
      milli, _, ⟨-, rfl⟩, rest, rfl, h⟩
    obtain ⟨⟨last, valid⟩, rfl⟩ := by simpa using h
    subst last
    have whole : milli * 1000000 / 1000000 = milli := Nat.mul_div_cancel milli (by decide)
    refine ⟨⟨valid, year, by rw [whole]⟩, sign, idle, ?_⟩
    rw [chars, whole, three_eq, List.append_assoc]
    rfl
  · rintro ⟨⟨valid, year, millis⟩, sign, idle, rfl⟩
    obtain ⟨date, hour, minute, second, nano⟩ := DateTime.isValid_iff.1 valid
    obtain ⟨-, month, -, day⟩ := Date.isValid_iff.1 date
    have length := monthLength_le (Date.isLeap t.date.year) month
    have milli : t.nano / 1000000 < 10 ^ 3 := by omega
    rw [chars, three_eq, ← List.append_assoc]
    refine ⟨t.date.year, _, ⟨year, sign, idle, rfl⟩, _, rfl, t.date.month, _, ⟨by omega, rfl⟩, _,
      rfl, t.date.day, _, ⟨by omega, rfl⟩, _, rfl, t.hour, _, ⟨by omega, rfl⟩, _, rfl, t.minute, _,
      ⟨by omega, rfl⟩, _, rfl, t.second, _, ⟨by omega, rfl⟩, _, rfl, t.nano / 1000000, _,
      ⟨milli, rfl⟩, [], rfl, ?_⟩
    rw [millis]
    exact if_pos (by simpa using valid)

end Times

end Stamp

namespace Instant

theorem millis_ofMillis (n : Int) : (ofMillis n).millis = n := by
  simp only [ofMillis, millis]
  omega

theorem utc?_instant {t : DateTime} (valid : t.isValid = true)
    (year : t.date.year.natAbs < 10000) : t.instant.utc? = some t := by
  rw [utc?, utc_instant valid, if_pos (by omega)]

theorem utc?_eq_some {x : Instant} {t : DateTime} (h : x.utc? = some t) :
    t = x.utc ∧ t.date.year.natAbs < 10000 := by
  unfold utc? at h
  split at h
  · obtain rfl := Option.some.inj h
    exact ⟨rfl, by omega⟩
  · cases h

theorem utc?_of_isSome {x : Instant} (h : x.utc?.isSome) :
    x.utc? = some x.utc ∧ x.utc.date.year.natAbs < 10000 := by
  obtain ⟨t, dated⟩ := Option.isSome_iff_exists.1 h
  obtain ⟨rfl, year⟩ := utc?_eq_some dated
  exact ⟨dated, year⟩

end Instant

namespace Stamp

variable {s : String} {x : Instant} {t : DateTime}

theorem chars_whole (t : DateTime) :
    chars { t with nano := t.nano / 1000000 * 1000000 } = chars t := by
  simp [chars]

theorem told_whole (valid : t.isValid = true) (year : t.date.year.natAbs < 10 ^ 4) :
    Told { t with nano := t.nano / 1000000 * 1000000 } := by
  obtain ⟨date, hour, minute, second, nano⟩ := DateTime.isValid_iff.1 valid
  refine ⟨DateTime.isValid_iff.2 ⟨date, hour, minute, second, by dsimp only; omega⟩, year, ?_⟩
  dsimp only
  omega

theorem instant_whole (x : Instant) :
    DateTime.instant { x.utc with nano := x.utc.nano / 1000000 * 1000000 } =
      .ofMillis x.millis := by
  have same := congrArg Instant.nanos x.instant_utc
  simp only [DateTime.instant, DateTime.seconds, Instant.ofMillis, Instant.millis,
    Instant.mk.injEq] at same ⊢
  omega

theorem instant_of_told (h : Told t) : t.instant = .ofMillis t.instant.millis := by
  have millis := h.millis
  simp only [DateTime.instant, Instant.ofMillis, Instant.millis, Instant.mk.injEq]
  omega

theorem parse_eq_some_iff :
    parse s = some x ↔ x = .ofMillis x.millis ∧
      ∃ t, x.utc? = some t ∧ ∃ sign, IdleSign t.date.year sign ∧ s.toList = sign ++ chars t := by
  simp only [parse, Option.map_eq_some_iff, ofChars?_eq_some_iff]
  constructor
  · rintro ⟨t, ⟨told, written⟩, rfl⟩
    exact ⟨instant_of_told told, t, Instant.utc?_instant told.valid told.year, written⟩
  · rintro ⟨whole, t, dated, written⟩
    obtain ⟨rfl, year⟩ := Instant.utc?_eq_some dated
    refine ⟨_, ⟨?_, written⟩, x.instant_utc⟩
    have told := told_whole x.isValid_utc year
    have same := congrArg Instant.utc (instant_whole x)
    rw [Instant.utc_instant told.valid, ← whole] at same
    exact same ▸ told

theorem parse_chars (h : x.utc?.isSome) :
    parse (String.ofList (chars x.utc)) = some (.ofMillis x.millis) := by
  obtain ⟨-, year⟩ := Instant.utc?_of_isSome h
  have told := told_whole x.isValid_utc year
  have read : ofChars? (chars x.utc) = some _ :=
    ofChars?_eq_some_iff.2 ⟨told, [], .none, (chars_whole x.utc).symm⟩
  rw [parse, String.toList_ofList, read, Option.map_some, instant_whole]

theorem chars_utc_congr {y : Instant} (h : x.millis = y.millis) : chars x.utc = chars y.utc := by
  simp only [Instant.millis] at h
  have seconds : x.seconds = y.seconds := by
    simp only [Instant.seconds]
    omega
  have milli : x.utc.nano / 1000000 = y.utc.nano / 1000000 := by
    simp only [Instant.utc]
    omega
  rw [chars, chars, milli]
  simp only [Instant.utc, seconds]

theorem parse_eq_some (h : parse s = some x) : x = .ofMillis x.millis ∧ x.utc?.isSome := by
  obtain ⟨whole, t, dated, -⟩ := parse_eq_some_iff.1 h
  exact ⟨whole, by rw [dated]; rfl⟩

end Stamp

end ScmPlugins
