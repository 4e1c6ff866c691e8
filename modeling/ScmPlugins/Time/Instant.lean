import ScmPlugins.Time.Calendar

/-!
Points in time, and the times of day on a date that name them. An instant is a whole number of
nanoseconds from the start of 1970 in UTC.
-/

namespace ScmPlugins

structure Instant where
  nanos : Int
  deriving DecidableEq, Repr

structure DateTime where
  date : Date
  hour : Nat
  minute : Nat
  second : Nat
  nano : Nat
  deriving DecidableEq, Repr

/-- A local time, that many seconds ahead of UTC. -/
structure LocalTime where
  time : DateTime
  offset : Int
  deriving DecidableEq, Repr

namespace DateTime

def epoch : Int := 719528

def seconds (t : DateTime) : Int :=
  (t.date.number - epoch) * 86400 + t.hour * 3600 + t.minute * 60 + t.second

def isValid (t : DateTime) : Bool :=
  t.date.isValid && t.hour < 24 && t.minute < 60 && t.second < 60 && t.nano < 1000000000

theorem isValid_iff {t : DateTime} : t.isValid = true ↔
    t.date.isValid = true ∧ t.hour < 24 ∧ t.minute < 60 ∧ t.second < 60 ∧ t.nano < 1000000000 := by
  simp [isValid, and_assoc]

def instant (t : DateTime) : Instant := ⟨t.seconds * 1000000000 + t.nano⟩

end DateTime

def LocalTime.instant (t : LocalTime) : Instant :=
  ⟨(t.time.seconds - t.offset) * 1000000000 + t.time.nano⟩

namespace Instant

def millis (t : Instant) : Int := t.nanos / 1000000

def ofMillis (n : Int) : Instant := ⟨n * 1000000⟩

def seconds (t : Instant) : Int := t.nanos / 1000000000

def utc (t : Instant) : DateTime :=
  let s := (t.seconds % 86400).toNat
  { date := .ofNumber (t.seconds / 86400 + DateTime.epoch)
    hour := s / 3600
    minute := s / 60 % 60
    second := s % 60
    nano := (t.nanos % 1000000000).toNat }

def utc? (t : Instant) : Option DateTime :=
  if -9999 ≤ t.utc.date.year ∧ t.utc.date.year ≤ 9999 then some t.utc else none

@[simp] theorem instant_utc (t : Instant) : t.utc.instant = t := by
  obtain ⟨n⟩ := t
  simp only [utc, DateTime.instant, DateTime.seconds, Date.number_ofNumber, seconds,
    Instant.mk.injEq]
  omega

theorem isValid_utc (t : Instant) : t.utc.isValid = true := by
  rw [DateTime.isValid_iff]
  simp only [utc, Date.isValid_ofNumber, true_and]
  omega

theorem utc_instant {t : DateTime} (h : t.isValid = true) : t.instant.utc = t := by
  obtain ⟨d, hour, minute, second, nano⟩ := t
  rw [DateTime.isValid_iff] at h
  dsimp only at h
  have hs : (DateTime.instant ⟨d, hour, minute, second, nano⟩).seconds =
      DateTime.seconds ⟨d, hour, minute, second, nano⟩ := by
    simp only [seconds, DateTime.instant]; omega
  have hd : DateTime.seconds ⟨d, hour, minute, second, nano⟩ / 86400 + DateTime.epoch =
      d.number := by
    simp only [DateTime.seconds]; omega
  have hr : (DateTime.seconds ⟨d, hour, minute, second, nano⟩ % 86400).toNat =
      hour * 3600 + minute * 60 + second := by
    simp only [DateTime.seconds]; omega
  have hn :
      ((DateTime.instant ⟨d, hour, minute, second, nano⟩).nanos % 1000000000).toNat = nano := by
    simp only [DateTime.instant]; omega
  unfold utc
  simp only [hs, hd, hr, hn, Date.ofNumber_number h.1, DateTime.mk.injEq, true_and, and_true]
  omega

end Instant

end ScmPlugins
