import Mathlib.Data.List.Induction
import ScmPlugins.Host.Telemetry

namespace ScmPlugins.Host

def Config.Accepted (c : Config) : Prop := ∃ f, LogFilter.parse c.logFilter = .ok f

namespace Telemetry

inductive Event where
  | call (c : Config)
  | foreign
  deriving DecidableEq, Repr

def happen (t : Telemetry) : Event → Telemetry
  | .call c => (t.initialise c).2
  | .foreign => t.installForeign

def after (es : List Event) : Telemetry := es.foldl happen {}

def Idle (es : List Event) : Prop := ∀ e ∈ es, ∃ c : Config, e = .call c ∧ ¬c.Accepted

/-- The call is the first whose filter is read, and before it no one has installed anything. -/
structure Installs (before : List Event) (c : Config) : Prop where
  idle : Idle before
  accepted : c.Accepted

def Settled (es : List Event) : Prop :=
  ∃ front c rest, es = front ++ .call c :: rest ∧ Installs front c

inductive Stands : List Event → Telemetry → Prop
  | vacant {es : List Event} (idle : Idle es) : Stands es {}
  | foreign {front : List Event} (idle : Idle front) (rest : List Event) :
      Stands (front ++ .foreign :: rest) ⟨some .foreign, false⟩
  | settled {front : List Event} {c : Config} (installs : Installs front c) (rest : List Event) :
      Stands (front ++ .call c :: rest) ⟨some (.configured c), true⟩

variable {es front rest : List Event} {t : Telemetry} {c d : Config} {e : TelemetryError}
  {cause : LogFilter.Error}

section Calls

theorem filter_eq_ok_iff : (∃ f, c.filter = .ok f) ↔ c.Accepted := by
  rw [Config.filter, Config.Accepted]
  cases LogFilter.parse c.logFilter <;> simp [Attempt.mapError]

theorem filter_eq_error_iff :
    c.filter = .error e ↔
      ∃ cause, LogFilter.parse c.logFilter = .error cause ∧ e = .filter c.logFilter cause := by
  rw [Config.filter]
  cases LogFilter.parse c.logFilter <;> simp [Attempt.mapError, eq_comm]

theorem filter_eq_stopped_iff : c.filter = .stopped ↔ LogFilter.parse c.logFilter = .stopped := by
  rw [Config.filter]
  cases LogFilter.parse c.logFilter <;> simp [Attempt.mapError]

theorem initialise_of_settled (h : t.settled = true) : t.initialise c = (.ok (), t) := by
  rw [initialise, if_pos h]

theorem initialise_of_not_accepted (settled : t.settled = false) (h : ¬c.Accepted) :
    (t.initialise c).2 = t ∧
      ((∃ cause, LogFilter.parse c.logFilter = .error cause ∧
          (t.initialise c).1 = .error (.filter c.logFilter cause)) ∨
        LogFilter.parse c.logFilter = .stopped ∧ (t.initialise c).1 = .stopped) := by
  rw [initialise, if_neg (by simp [settled])]
  cases read : c.filter with
  | ok f => exact absurd (filter_eq_ok_iff.1 ⟨f, read⟩) h
  | error e =>
    obtain ⟨cause, found, rfl⟩ := filter_eq_error_iff.1 read
    exact ⟨rfl, .inl ⟨cause, found, rfl⟩⟩
  | stopped => exact ⟨rfl, .inr ⟨filter_eq_stopped_iff.1 read, rfl⟩⟩

theorem initialise_of_accepted (h : c.Accepted) (settled : t.settled = false) :
    t.initialise c = match t.subscriber with
      | some _ => (.error .subscriber, t)
      | none => (.ok (), ⟨some (.configured c), true⟩) := by
  obtain ⟨f, read⟩ := filter_eq_ok_iff.2 h
  rw [initialise, if_neg (by simp [settled]), read]
  cases t.subscriber <;> rfl

end Calls

section Histories

theorem after_concat (es : List Event) (e : Event) : after (es ++ [e]) = (after es).happen e := by
  simp [after]

theorem split_unique {α : Type} {p : α → Prop} {front front' rest rest' : List α} {a a' : α}
    (h : front ++ a :: rest = front' ++ a' :: rest') (before : ∀ x ∈ front, p x)
    (before' : ∀ x ∈ front', p x) (ha : ¬p a) (ha' : ¬p a') :
    front = front' ∧ a = a' ∧ rest = rest' := by
  induction front generalizing front' with
  | nil =>
    cases front' with
    | nil =>
      cases h
      exact ⟨rfl, rfl, rfl⟩
    | cons x front' =>
      cases h
      exact absurd (before' a List.mem_cons_self) ha
  | cons x front ih =>
    cases front' with
    | nil =>
      cases h
      exact absurd (before a' List.mem_cons_self) ha'
    | cons y front' =>
      obtain ⟨rfl, later⟩ := List.cons.inj h
      obtain ⟨rfl, rfl, rfl⟩ := ih later (List.forall_mem_cons.1 before).2
        (List.forall_mem_cons.1 before').2
      exact ⟨rfl, rfl, rfl⟩

theorem foreign_not_idle : ¬∃ c : Config, Event.foreign = .call c ∧ ¬c.Accepted := by
  rintro ⟨c, same, -⟩
  cases same

theorem accepted_not_idle (h : d.Accepted) :
    ¬∃ c : Config, Event.call d = .call c ∧ ¬c.Accepted := by
  rintro ⟨c, same, unread⟩
  cases same
  exact unread h

theorem Stands.happen (h : Stands es t) (e : Event) : Stands (es ++ [e]) (t.happen e) := by
  cases h with
  | vacant idle =>
    cases e with
    | foreign => exact .foreign idle []
    | call c =>
      by_cases read : c.Accepted
      · rw [Telemetry.happen, initialise_of_accepted read rfl]
        exact .settled ⟨idle, read⟩ []
      · rw [Telemetry.happen, (initialise_of_not_accepted rfl read).1]
        exact .vacant (List.forall_mem_append.2 ⟨idle, by simpa using read⟩)
  | @foreign front idle rest =>
    -- The foreign subscriber stays, whatever comes.
    have same : (Telemetry.mk (some .foreign) false).happen e = ⟨some .foreign, false⟩ := by
      cases e with
      | foreign => rfl
      | call c =>
        by_cases read : c.Accepted
        · rw [Telemetry.happen, initialise_of_accepted read rfl]
        · exact (initialise_of_not_accepted rfl read).1
    rw [same, List.append_assoc]
    exact .foreign idle (rest ++ [e])
  | @settled front c installs rest =>
    have same : (Telemetry.mk (some (.configured c)) true).happen e =
        ⟨some (.configured c), true⟩ := by
      cases e with
      | foreign => rfl
      | call d => rw [Telemetry.happen, initialise_of_settled rfl]
    rw [same, List.append_assoc]
    exact .settled installs (rest ++ [e])

theorem stands_after (es : List Event) : Stands es (after es) := by
  induction es using List.reverseRecOn with
  | nil => exact .vacant nofun
  | append_singleton es e ih =>
    rw [after_concat]
    exact ih.happen e

theorem not_settled_of_idle (h : Idle es) : ¬Settled es := by
  rintro ⟨front, c, rest, rfl, installs⟩
  exact accepted_not_idle installs.accepted (h _ (by simp))

theorem not_settled_of_foreign (idle : Idle front) : ¬Settled (front ++ .foreign :: rest) := by
  rintro ⟨front', c, rest', split, installs⟩
  obtain ⟨-, same, -⟩ := split_unique split idle installs.idle foreign_not_idle
    (accepted_not_idle installs.accepted)
  cases same

theorem Stands.of_installs (installs : Installs front d)
    (h : Stands (front ++ .call d :: rest) t) : t = ⟨some (.configured d), true⟩ := by
  have settled : Settled (front ++ .call d :: rest) := ⟨front, d, rest, rfl, installs⟩
  generalize whole : front ++ .call d :: rest = es at h settled
  cases h with
  | vacant idle => exact absurd settled (not_settled_of_idle idle)
  | foreign idle rest => exact absurd settled (not_settled_of_foreign idle)
  | settled installs' rest' =>
    obtain ⟨-, same, -⟩ := split_unique whole installs.idle installs'.idle
      (accepted_not_idle installs.accepted) (accepted_not_idle installs'.accepted)
    cases same
    rfl

theorem Stands.of_idle (idle : Idle es) (h : Stands es t) : t = {} := by
  cases h with
  | vacant => rfl
  | foreign => exact absurd (idle _ (by simp)) foreign_not_idle
  | settled installs => exact absurd (idle _ (by simp)) (accepted_not_idle installs.accepted)

theorem Stands.of_not_settled (unsettled : ¬Settled es) (h : Stands es t) :
    Idle es ∧ t = {} ∨ .foreign ∈ es ∧ t = ⟨some .foreign, false⟩ := by
  cases h with
  | vacant idle => exact .inl ⟨idle, rfl⟩
  | foreign => exact .inr ⟨by simp, rfl⟩
  | settled installs => exact absurd ⟨_, _, _, rfl, installs⟩ unsettled

end Histories

section Replies

theorem initialise_of_installs (installs : Installs es c) :
    (after es).initialise c = (.ok (), ⟨some (.configured c), true⟩) := by
  rw [(stands_after es).of_idle installs.idle, initialise_of_accepted installs.accepted rfl]

theorem initialise_of_not_installs (h : ¬Installs es c) :
    ((after es).initialise c).2 = after es := by
  by_cases settled : Settled es
  · obtain ⟨front, d, rest, rfl, installs⟩ := settled
    rw [(stands_after _).of_installs installs, initialise_of_settled rfl]
  obtain ⟨idle, standing⟩ | ⟨-, standing⟩ := (stands_after es).of_not_settled settled
  · rw [standing]
    exact (initialise_of_not_accepted rfl fun accepted => h ⟨idle, accepted⟩).1
  · rw [standing]
    by_cases accepted : c.Accepted
    · rw [initialise_of_accepted accepted rfl]
    · exact (initialise_of_not_accepted rfl accepted).1

theorem installs_iff_of_not_settled (h : ¬Settled es) :
    Installs es c ↔ c.Accepted ∧ .foreign ∉ es := by
  constructor
  · intro installs
    exact ⟨installs.accepted, fun member => foreign_not_idle (installs.idle _ member)⟩
  · rintro ⟨accepted, alone⟩
    obtain ⟨idle, -⟩ | ⟨member, -⟩ := (stands_after es).of_not_settled h
    · exact ⟨idle, accepted⟩
    · exact absurd member alone

theorem reply_of_not_settled (h : ¬Settled es) :
    ((after es).initialise c).1 = match LogFilter.parse c.logFilter with
      | .error cause => .error (.filter c.logFilter cause)
      | .stopped => .stopped
      | .ok _ => if (after es).subscriber.isSome then .error .subscriber else .ok () := by
  have settled : (after es).settled = false := by
    obtain ⟨-, standing⟩ | ⟨-, standing⟩ := (stands_after es).of_not_settled h <;> rw [standing]
  rw [initialise, if_neg (by simp [settled]), Config.filter]
  cases LogFilter.parse c.logFilter with
  | ok f => cases (after es).subscriber <;> rfl
  | error cause => rfl
  | stopped => rfl

theorem isSome_subscriber_iff (h : ¬Settled es) :
    (after es).subscriber.isSome ↔ .foreign ∈ es := by
  obtain ⟨idle, standing⟩ | ⟨member, standing⟩ := (stands_after es).of_not_settled h
  · have alone : .foreign ∉ es := fun member => foreign_not_idle (idle _ member)
    simp [standing, alone]
  · simp [standing, member]

end Replies

/-- The first call whose filter is read installs its subscriber if no one else has installed any
before it, and no other call changes anything. From then on every call is told that all is well;
before it a call is told about its filter, or else about the foreign subscriber, and if its filter
stops the reader then so does the call. -/
theorem first_accepted_installs (es : List Event) (c : Config) :
    (Installs es c → (after es).initialise c = (.ok (), ⟨some (.configured c), true⟩)) ∧
      (¬Installs es c → ((after es).initialise c).2 = after es) ∧
      (∀ front d rest, es = front ++ .call d :: rest → Installs front d →
        after es = ⟨some (.configured d), true⟩ ∧ ¬Installs es c ∧
          ((after es).initialise c).1 = .ok ()) ∧
      (¬Settled es →
        (∀ expression cause, ((after es).initialise c).1 = .error (.filter expression cause) ↔
          expression = c.logFilter ∧ LogFilter.parse c.logFilter = .error cause) ∧
        (((after es).initialise c).1 = .error .subscriber ↔ c.Accepted ∧ .foreign ∈ es) ∧
        (((after es).initialise c).1 = .ok () ↔ Installs es c) ∧
        (((after es).initialise c).1 = .stopped ↔ LogFilter.parse c.logFilter = .stopped)) := by
  refine ⟨initialise_of_installs, initialise_of_not_installs, ?_, fun unsettled => ?_⟩
  · rintro front d rest rfl installs
    have standing : after (front ++ .call d :: rest) = _ := (stands_after _).of_installs installs
    refine ⟨standing, fun later => ?_, by rw [standing, initialise_of_settled rfl]⟩
    exact not_settled_of_idle later.idle ⟨front, d, rest, rfl, installs⟩
  · rw [reply_of_not_settled unsettled, installs_iff_of_not_settled unsettled,
      ← isSome_subscriber_iff unsettled, Config.Accepted]
    cases LogFilter.parse c.logFilter <;> cases (after es).subscriber <;> simp [eq_comm]

theorem first_accepted_installs_second :
    let unread : Config := { logFilter := "x=bad" }
    let read : Config := { logFilter := "x=debug" }
    ¬unread.Accepted ∧ Installs [.call unread] read ∧
      ((after []).initialise unread).1 = .error (.filter "x=bad" .level) ∧
      ((after [.call unread, .call read, .foreign]).initialise unread).1 = .ok () := by
  intro unread read
  have cause : LogFilter.parse unread.logFilter = .error .level := by decide +kernel
  have directives : LogFilter.parse read.logFilter =
      .ok [{ target := some "x", level := .debug }] := by decide +kernel
  have refused : ¬unread.Accepted := by simp [Config.Accepted, cause]
  have installs : Installs [.call unread] read := ⟨by simpa [Idle] using refused, _, directives⟩
  have start : ¬Settled [] := not_settled_of_idle nofun
  have first := ((first_accepted_installs [] unread).2.2.2 start).1 "x=bad" .level
  refine ⟨refused, installs, first.2 ⟨rfl, cause⟩, ?_⟩
  exact ((first_accepted_installs _ unread).2.2.1 _ _ _ rfl installs).2.2

/-- A wide blank before a target: the target would be cut off inside that character. No one else has
installed a subscriber and the filter is not read, but the call is not told so. -/
theorem wide_blank_stops :
    let c : Config := { logFilter := "\u3000a=info" }
    ¬c.Accepted ∧ (after []).initialise c = (.stopped, {}) ∧
      ∀ e, ((after []).initialise c).1 ≠ .error e := by
  intro c
  have stops : LogFilter.parse c.logFilter = .stopped := by decide +kernel
  have refused : ¬c.Accepted := by simp [Config.Accepted, stops]
  have called : (after []).initialise c = (.stopped, {}) := by decide +kernel
  exact ⟨refused, called, by simp [called]⟩

end Telemetry

end ScmPlugins.Host
