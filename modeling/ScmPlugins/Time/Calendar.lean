namespace ScmPlugins

structure Date where
  year : Int
  month : Nat
  day : Nat
  deriving DecidableEq, Repr

namespace Date

def isLeap (year : Int) : Bool := year % 4 == 0 && (year % 100 != 0 || year % 400 == 0)

def firstDay (year : Int) : Int :=
  365 * year + (year + 3) / 4 - (year + 99) / 100 + (year + 399) / 400

/-- How many days of a year pass before a month, from 1 for January to 13 for its end. -/
def daysBefore (leap : Bool) (month : Nat) : Nat :=
  let extra := if leap then 1 else 0
  match month with
  | 0 | 1 => 0
  | 2 => 31
  | 3 => 59 + extra
  | 4 => 90 + extra
  | 5 => 120 + extra
  | 6 => 151 + extra
  | 7 => 181 + extra
  | 8 => 212 + extra
  | 9 => 243 + extra
  | 10 => 273 + extra
  | 11 => 304 + extra
  | 12 => 334 + extra
  | _ => 365 + extra

def monthLength (leap : Bool) (month : Nat) : Nat :=
  daysBefore leap (month + 1) - daysBefore leap month

def isValid (d : Date) : Bool :=
  1 ≤ d.month && d.month ≤ 12 && 1 ≤ d.day && d.day ≤ monthLength (isLeap d.year) d.month

def number (d : Date) : Int :=
  firstDay d.year + daysBefore (isLeap d.year) d.month + d.day - 1

/-- The year in which a day lies. The quotient is at most one year off. -/
def yearOf (n : Int) : Int :=
  let y := 400 * n / 146097
  if n < firstDay y then y - 1 else if firstDay (y + 1) ≤ n then y + 1 else y

def lastMonth (leap : Bool) (n : Nat) : (m : Nat) → Nat
  | 0 => 0
  | m + 1 => if daysBefore leap (m + 1) ≤ n then m + 1 else lastMonth leap n m

def monthOf (leap : Bool) (n : Nat) : Nat := lastMonth leap n 12

def ofNumber (n : Int) : Date :=
  let year := yearOf n
  let leap := isLeap year
  let rest := (n - firstDay year).toNat
  let month := monthOf leap rest
  ⟨year, month, rest - daysBefore leap month + 1⟩

theorem isValid_iff {d : Date} : d.isValid = true ↔
    1 ≤ d.month ∧ d.month ≤ 12 ∧ 1 ≤ d.day ∧ d.day ≤ monthLength (isLeap d.year) d.month := by
  simp [isValid, and_assoc]

theorem firstDay_succ (y : Int) :
    firstDay (y + 1) = firstDay y + 365 + (if isLeap y then 1 else 0) := by
  simp only [firstDay, isLeap, Bool.and_eq_true, Bool.or_eq_true, beq_iff_eq, bne_iff_ne]
  split <;> omega

theorem firstDay_lt {y z : Int} (h : y < z) : firstDay y < firstDay z := by
  simp only [firstDay]; omega

theorem firstDay_yearOf (n : Int) : firstDay (yearOf n) ≤ n ∧ n < firstDay (yearOf n + 1) := by
  unfold yearOf
  dsimp only
  split
  · rw [Int.sub_add_cancel]; simp only [firstDay] at *; omega
  · split <;> simp only [firstDay] at * <;> omega

theorem yearOf_eq {y n : Int} (h : firstDay y ≤ n) (h' : n < firstDay (y + 1)) : yearOf n = y := by
  obtain ⟨h₁, h₂⟩ := firstDay_yearOf n
  rcases Int.lt_trichotomy (yearOf n) y with hlt | heq | hgt
  · rcases Int.lt_or_eq_of_le (Int.add_one_le_iff.2 hlt) with h₃ | h₃
    · have := firstDay_lt h₃; omega
    · rw [h₃] at h₂; omega
  · exact heq
  · rcases Int.lt_or_eq_of_le (Int.add_one_le_iff.2 hgt) with h₃ | h₃
    · have := firstDay_lt h₃; omega
    · rw [h₃] at h'; omega

theorem daysBefore_succ (leap : Bool) {m : Nat} (h : 1 ≤ m) (h' : m ≤ 12) :
    daysBefore leap m < daysBefore leap (m + 1) := by
  have : ∀ m : Fin 13, 1 ≤ m.val → daysBefore leap m < daysBefore leap (m + 1) := by
    revert leap; decide
  exact this ⟨m, by omega⟩ h

theorem daysBefore_le (leap : Bool) {l m : Nat} (h₁ : 1 ≤ l) (h₂ : l ≤ m) (h₃ : m ≤ 13) :
    daysBefore leap l ≤ daysBefore leap m := by
  induction m with
  | zero => omega
  | succ m ih =>
    rcases Nat.lt_or_eq_of_le h₂ with h | h
    · exact Nat.le_trans (ih (by omega) (by omega))
        (Nat.le_of_lt (daysBefore_succ leap (by omega) (by omega)))
    · exact h ▸ Nat.le_refl _

theorem lastMonth_spec (leap : Bool) {m n : Nat} (h : n < daysBefore leap (m + 1)) :
    lastMonth leap n m ≤ m ∧ daysBefore leap (lastMonth leap n m) ≤ n ∧
      n < daysBefore leap (lastMonth leap n m + 1) := by
  induction m with
  | zero => simp [daysBefore] at h
  | succ m ih =>
    unfold lastMonth
    split
    · exact ⟨Nat.le_refl _, by assumption, h⟩
    · have := ih (by omega); omega

theorem monthOf_spec (leap : Bool) {n : Nat} (h : n < daysBefore leap 13) :
    1 ≤ monthOf leap n ∧ monthOf leap n ≤ 12 ∧ daysBefore leap (monthOf leap n) ≤ n ∧
      n < daysBefore leap (monthOf leap n + 1) := by
  obtain ⟨h₁, h₂, h₃⟩ := lastMonth_spec leap (m := 12) h
  refine ⟨?_, h₁, h₂, h₃⟩
  rcases Nat.eq_zero_or_pos (monthOf leap n) with h₀ | h₀
  · rw [show lastMonth leap n 12 = 0 from h₀] at h₃; simp [daysBefore] at h₃
  · exact h₀

theorem monthOf_eq (leap : Bool) {m n : Nat} (h₁ : 1 ≤ m) (h₂ : m ≤ 12)
    (h : daysBefore leap m ≤ n) (h' : n < daysBefore leap (m + 1)) : monthOf leap n = m := by
  have := daysBefore_le leap (l := m + 1) (m := 13) (by omega) (by omega) (by omega)
  obtain ⟨h₃, h₄, h₅, h₆⟩ := monthOf_spec leap (n := n) (by omega)
  rcases Nat.lt_trichotomy (monthOf leap n) m with hlt | heq | hgt
  · have := daysBefore_le leap (l := monthOf leap n + 1) (m := m) (by omega) hlt (by omega); omega
  · exact heq
  · have := daysBefore_le leap (l := m + 1) (m := monthOf leap n) (by omega) hgt (by omega); omega

theorem firstDay_succ_eq (y : Int) : firstDay (y + 1) = firstDay y + daysBefore (isLeap y) 13 := by
  rw [firstDay_succ]; cases isLeap y <;> grind [daysBefore]

theorem number_ofNumber (n : Int) : (ofNumber n).number = n := by
  obtain ⟨h₁, h₂⟩ := firstDay_yearOf n
  rw [firstDay_succ_eq] at h₂
  obtain ⟨_, _, h₃, _⟩ := monthOf_spec (isLeap (yearOf n)) (n := (n - firstDay (yearOf n)).toNat)
    (by omega)
  simp only [number, ofNumber]
  omega

theorem isValid_ofNumber (n : Int) : (ofNumber n).isValid = true := by
  obtain ⟨h₁, h₂⟩ := firstDay_yearOf n
  rw [firstDay_succ_eq] at h₂
  obtain ⟨h₃, h₄, h₅, h₆⟩ := monthOf_spec (isLeap (yearOf n))
    (n := (n - firstDay (yearOf n)).toNat) (by omega)
  rw [isValid_iff]
  simp only [ofNumber, monthLength]
  refine ⟨h₃, h₄, ?_, ?_⟩ <;> omega

theorem ofNumber_number {d : Date} (h : d.isValid = true) : ofNumber d.number = d := by
  obtain ⟨y, m, day⟩ := d
  rw [isValid_iff] at h
  simp only [monthLength] at h
  obtain ⟨h₁, h₂, h₃, h₄⟩ := h
  have mono := daysBefore_le (isLeap y) (l := m + 1) (m := 13) (by omega) (by omega) (by omega)
  have hy : yearOf (number ⟨y, m, day⟩) = y := by
    apply yearOf_eq
    · simp only [number]; omega
    · rw [firstDay_succ_eq]; simp only [number]; omega
  have hr : (number ⟨y, m, day⟩ - firstDay y).toNat = daysBefore (isLeap y) m + (day - 1) := by
    simp only [number]; omega
  have hm := monthOf_eq (isLeap y) (n := daysBefore (isLeap y) m + (day - 1)) h₁ h₂ (by omega)
    (by omega)
  simp only [ofNumber, hy, hr, hm, mk.injEq, true_and]
  omega

end Date

end ScmPlugins
