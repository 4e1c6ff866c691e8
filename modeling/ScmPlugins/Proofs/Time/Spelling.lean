import ScmPlugins.Proofs.Request.Envelope
import ScmPlugins.Proofs.Time.Bounds

namespace ScmPlugins

namespace Instant

variable {x y : Instant}

/-- The instant at which the millisecond of another one begins. -/
structure Begins (x y : Instant) : Prop where
  whole : ∃ n, x = .ofMillis n
  le : x.nanos ≤ y.nanos
  lt : y.nanos < x.nanos + 1000000

theorem begins_ofMillis_millis (x : Instant) : Begins (.ofMillis x.millis) x where
  whole := ⟨x.millis, rfl⟩
  le := by
    simp only [ofMillis, millis]
    omega
  lt := by
    simp only [ofMillis, millis]
    omega

theorem ofMillis_millis_iff : x = .ofMillis x.millis ↔ ∃ n, x = .ofMillis n := by
  constructor
  · exact fun whole => ⟨_, whole⟩
  · rintro ⟨n, rfl⟩
    rw [millis_ofMillis]

end Instant

theorem LocalTime.exists_eq_ofMillis {t : LocalTime} (h : 1000000 ∣ t.time.nano) :
    ∃ n, t.instant = .ofMillis n := by
  obtain ⟨k, hk⟩ := h
  refine ⟨(t.time.seconds - t.offset) * 1000 + k, ?_⟩
  simp only [LocalTime.instant, Instant.ofMillis, Instant.mk.injEq]
  omega

namespace Stamp

open Request (stamp)

variable {s : String} {x y : Instant}

theorem parse_stamp (h : x.InCalendar) :
    ∃ c, stamp x = .ok c ∧ parse c = some (.ofMillis x.millis) := by
  have dated := Instant.inCalendar_iff_isSome_utc?.1 h
  exact ⟨_, Request.stamp_of_isSome dated, Request.parse_timestamp dated⟩

theorem stamp_eq_stamp_iff (hx : x.InCalendar) (hy : y.InCalendar) :
    stamp x = stamp y ↔ x.millis = y.millis := by
  have dated := Instant.inCalendar_iff_isSome_utc?.1 hx
  have dated' := Instant.inCalendar_iff_isSome_utc?.1 hy
  rw [Request.stamp_of_isSome dated, Request.stamp_of_isSome dated', Attempt.ok.injEq,
    Request.timestamp_eq_timestamp_iff dated dated']

/-- Every time that is in the calendar when it is moved to UTC has a stamp, and it is read as the
instant at which the millisecond of the time begins. So two times have one stamp exactly if they
fall in one millisecond, and a time of whole milliseconds is read back from its stamp. -/
theorem stamps_keep_milliseconds :
    (∀ t : LocalTime, t.instant.InCalendar →
      ∃ s x, stamp t.instant = .ok s ∧ parse s = some x ∧ x.Begins t.instant) ∧
    (∀ t u : LocalTime, t.instant.InCalendar → u.instant.InCalendar →
      (stamp t.instant = stamp u.instant ↔ t.instant.millis = u.instant.millis)) ∧
    ∀ t : LocalTime, t.instant.InCalendar → 1000000 ∣ t.time.nano →
      ∃ s, stamp t.instant = .ok s ∧ parse s = some t.instant := by
  refine ⟨?_, ?_, ?_⟩
  · intro t dated
    obtain ⟨s, written, read⟩ := parse_stamp dated
    exact ⟨s, _, written, read, t.instant.begins_ofMillis_millis⟩
  · intro t u dated dated'
    exact stamp_eq_stamp_iff dated dated'
  · intro t dated whole
    obtain ⟨s, written, read⟩ := parse_stamp dated
    rw [← Instant.ofMillis_millis_iff.2 (LocalTime.exists_eq_ofMillis whole)] at read
    exact ⟨s, written, read⟩

theorem stamps_keep_milliseconds_year_zero :
    let t : LocalTime := ⟨⟨⟨0, 1, 1⟩, 0, 0, 0, 1⟩, 3600⟩
    let u : LocalTime := ⟨⟨⟨-1, 12, 31⟩, 23, 0, 0, 0⟩, 0⟩
    t.instant.InCalendar ∧ u.instant.InCalendar ∧ 1000000 ∣ u.time.nano ∧
      stamp t.instant = stamp u.instant ∧
      ∃ s, stamp t.instant = .ok s ∧ parse s = some u.instant := by
  intro t u
  have ht : t.instant.InCalendar := by decide
  have hu : u.instant.InCalendar := by decide
  have whole : 1000000 ∣ u.time.nano := Nat.dvd_zero 1000000
  obtain ⟨-, same, back⟩ := stamps_keep_milliseconds
  have stamps : stamp t.instant = stamp u.instant := (same t u ht hu).2 (by decide)
  obtain ⟨s, written, read⟩ := back u hu whole
  exact ⟨ht, hu, whole, stamps, s, stamps.trans written, read⟩

/-- A text that begins with a sign which a stamp does not have. -/
def HasIdleSign (s : String) : Prop := ['+'] <+: s.toList ∨ ['-', '0', '0', '0', '0'] <+: s.toList

theorem parse_eq_some_iff_stamp :
    parse s = some x ↔ (∃ n, x = .ofMillis n) ∧
      ∃ c sign, stamp x = .ok c ∧ IdleSign x.utc.date.year sign ∧ s = String.ofList sign ++ c := by
  rw [parse_eq_some_iff, Instant.ofMillis_millis_iff]
  refine and_congr_right fun _ => ?_
  constructor
  · rintro ⟨t, dated, sign, idle, written⟩
    obtain ⟨rfl, -⟩ := Instant.utc?_eq_some dated
    refine ⟨String.ofList (chars x.utc), sign, by rw [Request.stamp_eq, dated], idle, ?_⟩
    apply String.toList_injective
    simp [written]
  · rintro ⟨c, sign, written, idle, rfl⟩
    cases dated : x.utc? with
    | none =>
      rw [Request.stamp_eq, dated] at written
      cases written
    | some t =>
      obtain ⟨rfl, -⟩ := Instant.utc?_eq_some dated
      rw [Request.stamp_eq, dated] at written
      cases written
      exact ⟨x.utc, rfl, sign, idle, by simp⟩

theorem exists_chars_of_stamp {c : String} (h : stamp x = .ok c) :
    ∃ u, x.utc? = some u ∧ c.toList = chars u := by
  rw [Request.stamp_eq] at h
  split at h
  · cases h
  · rename_i u dated
    cases h
    exact ⟨u, dated, String.toList_ofList⟩

theorem not_hasIdleSign_of_stamp {c : String} (h : stamp x = .ok c) : ¬HasIdleSign c := by
  obtain ⟨u, dated, written⟩ := exists_chars_of_stamp h
  obtain ⟨-, lt⟩ := Instant.utc?_eq_some dated
  rw [HasIdleSign, written, chars]
  rcases Int.lt_or_le u.date.year 0 with neg | nonneg
  · rw [year_of_neg neg, List.cons_append]
    simp only [List.cons_prefix_cons, List.nil_prefix, and_true, true_and]
    rintro (plus | zeros)
    · exact absurd plus (by decide)
    · have front : ['0', '0', '0', '0'] = padded 4 u.date.year.natAbs :=
        (List.prefix_iff_eq_take.1 zeros).trans (List.take_left' (length_padded 4 _))
      have zero := congrArg ofDigits front
      rw [ofDigits_padded lt, show ofDigits ['0', '0', '0', '0'] = 0 from rfl] at zero
      omega
  · rw [year_of_nonneg nonneg]
    rintro (⟨t, plus⟩ | ⟨t, minus⟩)
    · exact padded_append_ne_cons (by decide) plus.symm
    · exact padded_append_ne_cons (by decide) minus.symm

theorem hasIdleSign_of_idleSign {c : String} {sign : List Char} (h : stamp x = .ok c)
    (idle : IdleSign x.utc.date.year sign) : sign = [] ∨ HasIdleSign (String.ofList sign ++ c) := by
  obtain ⟨u, dated, written⟩ := exists_chars_of_stamp h
  obtain ⟨rfl, -⟩ := Instant.utc?_eq_some dated
  rw [HasIdleSign, String.toList_append, String.toList_ofList, written, chars]
  cases idle with
  | none => exact .inl rfl
  | plus nonneg => exact .inr (.inl (List.prefix_append _ _))
  | minus zero =>
    rw [zero, ← List.append_assoc]
    exact .inr (.inr (List.prefix_append _ _))

/-- The texts that are read as an instant are its stamp and, from year zero on, its stamp with a
plus in front, and in year zero also with a minus. So what is read is the stamp of the instant
exactly if it does not begin with such a sign. -/
theorem stamp_but_for_sign (s : String) (x : Instant) :
    (parse s = some x ↔ (∃ n, x = .ofMillis n) ∧
      ∃ c sign, stamp x = .ok c ∧ IdleSign x.utc.date.year sign ∧ s = String.ofList sign ++ c) ∧
    (parse s = some x → (stamp x = .ok s ↔ ¬HasIdleSign s)) := by
  refine ⟨parse_eq_some_iff_stamp, fun read => ⟨not_hasIdleSign_of_stamp, ?_⟩⟩
  intro plain
  obtain ⟨-, c, sign, written, idle, rfl⟩ := parse_eq_some_iff_stamp.1 read
  obtain rfl | signed := hasIdleSign_of_idleSign written idle
  · rwa [String.ofList_nil, String.empty_append]
  · exact absurd signed plain

theorem stamp_but_for_sign_leap_day :
    let x := DateTime.instant ⟨⟨-400, 2, 29⟩, 0, 0, 0, 7000000⟩
    parse "-0400-02-29T00:00:00.007Z" = some x ∧ stamp x = .ok "-0400-02-29T00:00:00.007Z" := by
  intro x
  have read : parse "-0400-02-29T00:00:00.007Z" = some x := by decide +kernel
  refine ⟨read, ((stamp_but_for_sign _ x).2 read).2 ?_⟩
  rw [HasIdleSign]
  decide

theorem plus_passed_over :
    ∃ x, parse "+2011-07-13T19:43:37.100Z" = some x ∧ stamp x = .ok "2011-07-13T19:43:37.100Z" ∧
      stamp x ≠ .ok "+2011-07-13T19:43:37.100Z" := by
  refine ⟨DateTime.instant ⟨⟨2011, 7, 13⟩, 19, 43, 37, 100000000⟩, ?_, ?_, ?_⟩ <;> decide +kernel

end Stamp

end ScmPlugins
