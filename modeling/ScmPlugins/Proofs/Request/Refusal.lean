import ScmPlugins.Proofs.Request.Envelope
import ScmPlugins.Proofs.Time.Bounds

namespace ScmPlugins

namespace Request

/-- The first value that refers to a secret, configuration by configuration and property by
property, stands under the key. -/
def FirstSecret (cs : List Configuration) (key : String) : Prop :=
  ∃ front p back, cs.flatMap (·.entries) = front ++ (key, p) :: back ∧
    secretMark.toList <:+: p.value.toList ∧ ∀ e ∈ front, ¬secretMark.toList <:+: e.2.value.toList

theorem findSome?_unresolved?_eq (cs : List Configuration) :
    cs.findSome? unresolved? =
      ((cs.flatMap (·.entries)).find? fun e => holdsSecret e.2.value).map (·.1) := by
  induction cs with
  | nil => rfl
  | cons c cs ih =>
    rw [List.findSome?_cons, List.flatMap_cons, List.find?_append, unresolved?, ih]
    cases c.entries.find? fun e => holdsSecret e.2.value <;> rfl

theorem findSome?_unresolved?_eq_some_iff {cs : List Configuration} {key : String} :
    cs.findSome? unresolved? = some key ↔ FirstSecret cs key := by
  simp only [findSome?_unresolved?_eq, Option.map_eq_some_iff, List.find?_eq_some_iff_append,
    Bool.not_eq_true', ← Bool.not_eq_true, holdsSecret, Text.occurs_iff]
  constructor
  · rintro ⟨⟨_, p⟩, ⟨found, front, back, split, before⟩, rfl⟩
    exact ⟨front, p, back, split, found, before⟩
  · rintro ⟨front, p, back, split, found, before⟩
    exact ⟨(key, p), ⟨found, front, back, split, before⟩, rfl⟩

theorem not_secretFree_iff {c : Configuration} :
    ¬SecretFree c ↔ ∃ e ∈ c.entries, secretMark.toList <:+: e.2.value.toList := by
  simp only [SecretFree, Classical.not_forall, Configuration.pairs, List.mem_map, Classical.not_not]
  constructor
  · rintro ⟨_, ⟨e, he, rfl⟩, found⟩
    exact ⟨e, he, found⟩
  · rintro ⟨e, he, found⟩
    exact ⟨_, ⟨e, he, rfl⟩, found⟩

theorem exists_firstSecret_iff {cs : List Configuration} :
    (∃ key, FirstSecret cs key) ↔
      ∃ c ∈ cs, ∃ e ∈ c.entries, secretMark.toList <:+: e.2.value.toList := by
  have free := not_congr (@findSome?_unresolved?_eq_none_iff cs)
  simp only [← findSome?_unresolved?_eq_some_iff, ← Option.isSome_iff_exists,
    ← Option.ne_none_iff_isSome, free, Classical.not_forall, not_secretFree_iff, exists_prop]

theorem Draft.text_eq_error_iff {d : Draft} {e : Error} :
    text d.body = .error e ↔
      ∃ key, FirstSecret d.configurations key ∧ e = .unresolvedSecret key := by
  simp only [text, Draft.body_eq, ← findSome?_unresolved?_eq_some_iff]
  cases d.configurations.findSome? unresolved? with
  | some key => simp [eq_comm]
  | none => by_cases dated : d.Dated <;> simp [dated]

theorem Draft.text_eq_stopped_iff {d : Draft} :
    text d.body = .stopped ↔
      (∀ c ∈ d.configurations, SecretFree c) ∧ ∃ r ∈ d.revision?, ¬r.time.InCalendar := by
  have undated : ¬d.Dated ↔ ∃ r ∈ d.revision?, ¬r.time.InCalendar := by
    simp only [Draft.Dated, Classical.not_forall, exists_prop, Instant.inCalendar_iff_isSome_utc?]
  have body : text d.body = .stopped ↔ d.body = .stopped := by
    cases written : d.body <;> simp [text]
  rw [body, Draft.body_eq_stopped_iff, undated]

theorem Draft.exists_text_eq_ok_iff {d : Draft} :
    (∃ s, text d.body = .ok s) ↔
      (∀ c ∈ d.configurations, SecretFree c) ∧ ∀ r ∈ d.revision?, r.time.InCalendar := by
  have body : (∃ s, text d.body = .ok s) ↔ ∃ j, d.body = .ok j := by
    cases written : d.body <;> simp [text]
  simp only [body, Draft.body_eq_ok_iff, exists_and_left, exists_eq', and_true, complete_iff,
    Draft.Dated, Instant.inCalendar_iff_isSome_utc?]

/-- A request is refused exactly for its first secret, and without one it is written unless its
revision is of a time that leaves the calendar when it is moved to UTC: then it stops. That happens
only to times behind UTC in the last two days of the calendar and to times ahead of UTC in the first
two. -/
theorem writing_stops_only_at_ends (d : Draft) :
    (∀ e, text d.body = .error e ↔
      ∃ key, FirstSecret d.configurations key ∧ e = .unresolvedSecret key) ∧
    (text d.body = .stopped ↔
      (∀ c ∈ d.configurations, SecretFree c) ∧ ∃ r ∈ d.revision?, ¬r.time.InCalendar) ∧
    ((∃ s, text d.body = .ok s) ↔
      (∀ c ∈ d.configurations, SecretFree c) ∧ ∀ r ∈ d.revision?, r.time.InCalendar) ∧
    ∀ r ∈ d.revision?, ∀ t : LocalTime, r.time = t.instant → t.time.isValid = true →
      t.time.date.year.natAbs ≤ 9999 → t.offset.natAbs < 26 * 3600 → text d.body = .stopped →
        t.offset < 0 ∧ t.time.date.year = 9999 ∧ t.time.date.month = 12 ∧ 30 ≤ t.time.date.day ∨
        0 < t.offset ∧ t.time.date.year = -9999 ∧ t.time.date.month = 1 ∧ t.time.date.day ≤ 2 := by
  refine ⟨fun e => d.text_eq_error_iff, d.text_eq_stopped_iff, d.exists_text_eq_ok_iff, ?_⟩
  intro r asked t told valid year offset stopped
  obtain ⟨-, r', asked', out⟩ := d.text_eq_stopped_iff.1 stopped
  cases Option.mem_unique asked asked'
  exact LocalTime.near_ends_of_not_inCalendar valid year offset (told ▸ out)

theorem writing_stops_only_at_ends_ahead :
    let t : LocalTime := ⟨⟨⟨-9999, 1, 2⟩, 1, 59, 58, 999999999⟩, 93599⟩
    let d : Draft := .revisionsSince ∅ ∅ "/x" { id := "r", time := t.instant }
    t.time.isValid = true ∧ t.time.date.year.natAbs ≤ 9999 ∧ t.offset.natAbs < 26 * 3600 ∧
      text d.body = .stopped ∧ 0 < t.offset ∧ t.time.date.day ≤ 2 := by
  intro t d
  have valid : t.time.isValid = true := by decide
  have year : t.time.date.year.natAbs ≤ 9999 := by decide
  have offset : t.offset.natAbs < 26 * 3600 := by decide
  obtain ⟨-, stops, -, ends⟩ := writing_stops_only_at_ends d
  have stopped : text d.body = .stopped := stops.2 ⟨by decide, _, rfl, by decide⟩
  obtain ⟨-, late, -⟩ | ⟨ahead, -, -, early⟩ := ends _ rfl t rfl valid year offset stopped
  · exact absurd late (by decide)
  · exact ⟨valid, year, offset, stopped, ahead, early⟩

/-- The last hour of the calendar, one hour behind UTC: nothing is wrong with the configuration, and
yet there is neither a body nor an error. -/
theorem last_hour_stops :
    let t : LocalTime := ⟨⟨⟨9999, 12, 31⟩, 23, 0, 0, 0⟩, -3600⟩
    let r : Revision := { id := "r", time := t.instant }
    t.time.isValid = true ∧ text (checkout ∅ "/x" r) = .stopped ∧
      text (revisionsSince ∅ ∅ "/x" r) = .stopped := by
  decide

end Request

end ScmPlugins
