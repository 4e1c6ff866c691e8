import ScmPlugins.Proofs.Time.Stamp

namespace ScmPlugins

/-- Some time in UTC, in a year of the calendar, is at the instant. -/
def Instant.InCalendar (x : Instant) : Prop :=
  ∃ t : DateTime, t.isValid = true ∧ t.instant = x ∧ t.date.year.natAbs ≤ 9999

namespace Date

theorem year_le_iff {y n : Int} : yearOf n ≤ y ↔ n < firstDay (y + 1) := by
  obtain ⟨begun, ends⟩ := firstDay_yearOf n
  constructor
  · intro le
    rcases Int.lt_or_eq_of_le le with lt | rfl
    · have later := firstDay_lt (Int.add_lt_add_right lt 1)
      omega
    · exact ends
  · intro before
    by_contra after
    rcases Int.lt_or_eq_of_le (Int.add_one_le_iff.2 (Int.not_le.1 after)) with lt | eq
    · have later := firstDay_lt lt
      omega
    · rw [← eq] at begun
      omega

theorem le_year_iff {y n : Int} : y ≤ yearOf n ↔ firstDay y ≤ n := by
  rw [← Int.sub_one_lt_iff, ← Int.not_le, year_le_iff, Int.sub_add_cancel, Int.not_lt]

theorem number_eq_firstDay_add {d : Date} (h : d.isValid = true) :
    d.number = firstDay d.year + (daysBefore (isLeap d.year) d.month + (d.day - 1) : Nat) ∧
      daysBefore (isLeap d.year) d.month + (d.day - 1) <
        daysBefore (isLeap d.year) (d.month + 1) := by
  obtain ⟨-, -, first, last⟩ := isValid_iff.1 h
  rw [monthLength] at last
  rw [number]
  omega

theorem firstDay_le_number {d : Date} (h : d.isValid = true) : firstDay d.year ≤ d.number := by
  obtain ⟨eq, -⟩ := number_eq_firstDay_add h
  omega

theorem number_lt_firstDay {d : Date} (h : d.isValid = true) :
    d.number < firstDay (d.year + 1) := by
  obtain ⟨low, high, -, -⟩ := isValid_iff.1 h
  obtain ⟨eq, lt⟩ := number_eq_firstDay_add h
  have le := daysBefore_le (isLeap d.year) (l := d.month + 1) (m := 13) (by omega) (by omega)
    (by decide)
  rw [firstDay_succ_eq]
  omega

theorem firstDay_le {y z : Int} (h : y ≤ z) : firstDay y ≤ firstDay z := by
  rcases Int.lt_or_eq_of_le h with lt | rfl
  · exact Int.le_of_lt (firstDay_lt lt)
  · exact Int.le_refl _

theorem last_two_days {d : Date} {y : Int} (h : d.isValid = true) (year : d.year ≤ y)
    (late : firstDay (y + 1) - 2 ≤ d.number) : d.year = y ∧ d.month = 12 ∧ 30 ≤ d.day := by
  have before := number_lt_firstDay h
  have same : d.year = y := by
    by_contra other
    have le := firstDay_le (y := d.year + 1) (z := y) (by omega)
    have length := firstDay_succ y
    split at length <;> omega
  subst same
  obtain ⟨low, high, -, -⟩ := isValid_iff.1 h
  obtain ⟨eq, lt⟩ := number_eq_firstDay_add h
  rw [firstDay_succ_eq] at late
  have december : daysBefore (isLeap d.year) 12 + 31 = daysBefore (isLeap d.year) 13 := by
    cases isLeap d.year <;> rfl
  have month : d.month = 12 := by
    by_contra other
    have le := daysBefore_le (isLeap d.year) (l := d.month + 1) (m := 12) (by omega) (by omega)
      (by decide)
    omega
  rw [month] at eq
  exact ⟨rfl, month, by omega⟩

theorem first_two_days {d : Date} {y : Int} (h : d.isValid = true) (year : y ≤ d.year)
    (early : d.number < firstDay y + 2) : d.year = y ∧ d.month = 1 ∧ d.day ≤ 2 := by
  have begun := firstDay_le_number h
  have same : d.year = y := by
    by_contra other
    have le := firstDay_le (y := y + 1) (z := d.year) (by omega)
    have length := firstDay_succ y
    split at length <;> omega
  subst same
  obtain ⟨low, high, -, -⟩ := isValid_iff.1 h
  obtain ⟨eq, lt⟩ := number_eq_firstDay_add h
  have month : d.month = 1 := by
    by_contra other
    have le := daysBefore_le (isLeap d.year) (l := 2) (m := d.month) (by decide) (by omega)
      (by omega)
    have january : daysBefore (isLeap d.year) 2 = 31 := rfl
    omega
  exact ⟨rfl, month, by omega⟩

end Date

namespace Instant

theorem inCalendar_iff_isSome_utc? {x : Instant} : x.InCalendar ↔ x.utc?.isSome = true := by
  constructor
  · rintro ⟨t, valid, rfl, year⟩
    rw [utc?_instant valid (by omega)]
    rfl
  · intro dated
    obtain ⟨-, year⟩ := utc?_of_isSome dated
    exact ⟨x.utc, x.isValid_utc, x.instant_utc, by omega⟩

instance (x : Instant) : Decidable x.InCalendar :=
  decidable_of_iff _ inCalendar_iff_isSome_utc?.symm

theorem inCalendar_iff {x : Instant} :
    x.InCalendar ↔
      (Date.firstDay (-9999) - DateTime.epoch) * 86400 ≤ x.seconds ∧
        x.seconds < (Date.firstDay 10000 - DateTime.epoch) * 86400 := by
  have year : x.utc.date.year = Date.yearOf (x.seconds / 86400 + DateTime.epoch) := rfl
  have isSome : x.utc?.isSome = true ↔ -9999 ≤ x.utc.date.year ∧ x.utc.date.year ≤ 9999 := by
    unfold utc?
    split <;> simp_all
  rw [inCalendar_iff_isSome_utc?, isSome, year, Date.le_year_iff, Date.year_le_iff]
  show Date.firstDay (-9999) ≤ _ ∧ _ < Date.firstDay 10000 ↔ _
  omega

end Instant

namespace LocalTime

variable {t : LocalTime}

theorem seconds_instant (h : t.time.isValid = true) :
    t.instant.seconds = t.time.seconds - t.offset := by
  obtain ⟨-, -, -, -, nano⟩ := DateTime.isValid_iff.1 h
  simp only [instant, Instant.seconds]
  omega

/-- A time leaves the calendar only from its last two days if it is behind UTC, and from its first
two days if it is ahead. An offset is of less than 26 hours. -/
theorem near_ends_of_not_inCalendar (h : t.time.isValid = true)
    (year : t.time.date.year.natAbs ≤ 9999) (offset : t.offset.natAbs < 26 * 3600)
    (out : ¬t.instant.InCalendar) :
    t.offset < 0 ∧ t.time.date.year = 9999 ∧ t.time.date.month = 12 ∧ 30 ≤ t.time.date.day ∨
      0 < t.offset ∧ t.time.date.year = -9999 ∧ t.time.date.month = 1 ∧ t.time.date.day ≤ 2 := by
  obtain ⟨date, hour, minute, second, -⟩ := DateTime.isValid_iff.1 h
  have begun := Date.firstDay_le_number date
  have ends := Date.number_lt_firstDay date
  have first := Date.firstDay_le (y := -9999) (z := t.time.date.year) (by omega)
  have last := Date.firstDay_le (y := t.time.date.year + 1) (z := 10000) (by omega)
  rw [Instant.inCalendar_iff, seconds_instant h, Classical.not_and_iff_not_or_not, Int.not_le,
    Int.not_lt, DateTime.seconds] at out
  rcases out with early | late
  · exact .inr ⟨by omega, Date.first_two_days date (by omega) (by omega)⟩
  · have late : Date.firstDay (9999 + 1) - 2 ≤ t.time.date.number := by
      rw [show (9999 : Int) + 1 = 10000 from rfl]
      omega
    exact .inl ⟨by omega, Date.last_two_days date (by omega) late⟩

end LocalTime

end ScmPlugins
