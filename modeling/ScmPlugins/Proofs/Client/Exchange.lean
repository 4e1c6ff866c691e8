import ScmPlugins.Client
import ScmPlugins.Proofs.Client.Yields
import ScmPlugins.Proofs.Version.Negotiation

namespace ScmPlugins.Client

structure Agrees (s : Settings) (declared : List Version) (e : Edition) : Prop where
  offered : e.version ∈ serverVersions s
  understood : e.version ∈ declared
  greatest : ∀ v ∈ serverVersions s, v ∈ declared → v ≤ e.version

theorem agrees_iff {s : Settings} {declared : List Version} {e : Edition} :
    Agrees s declared e ↔ Version.negotiate (serverVersions s) declared = some e.version := by
  rw [Version.negotiate_eq_some_iff]
  constructor
  · intro h
    exact ⟨h.offered, h.understood, h.greatest⟩
  · rintro ⟨offered, understood, greatest⟩
    exact ⟨offered, understood, greatest⟩

theorem supported_of_offered {s : Settings} {v : Version} (h : v ∈ serverVersions s) :
    v ∈ Version.supported := (List.mem_filter.1 h).1

theorem Agrees.unique {s : Settings} {declared : List Version} {e e' : Edition}
    (h : Agrees s declared e) (h' : Agrees s declared e') : e = e' := by
  have same : e.version = e'.version :=
    Option.some.inj ((agrees_iff.1 h).symm.trans (agrees_iff.1 h'))
  rw [← Option.some_inj, ← e.ofVersion?_version, same, e'.ofVersion?_version]

theorem exists_agrees_of_negotiate {s : Settings} {declared : List Version} {v : Version}
    (h : Version.negotiate (serverVersions s) declared = some v) :
    ∃ e : Edition, e.version = v ∧ Agrees s declared e := by
  have offered := (Version.negotiate_eq_some_iff.1 h).1
  have spoken := Edition.isSome_ofVersion?_iff.2 (supported_of_offered offered)
  obtain ⟨e, he⟩ := Option.isSome_iff_exists.1 spoken
  obtain rfl := Edition.ofVersion?_eq_some_iff.1 he
  exact ⟨e, rfl, agrees_iff.2 h⟩

theorem unshared_or_agrees (s : Settings) (declared : List Version) :
    (∀ v ∈ serverVersions s, v ∉ declared) ∨ ∃ e, Agrees s declared e := by
  cases h : Version.negotiate (serverVersions s) declared with
  | none => exact .inl (Version.negotiate_eq_none_iff.1 h)
  | some v =>
    obtain ⟨e, -, he⟩ := exists_agrees_of_negotiate h
    exact .inr ⟨e, he⟩

variable {σ α : Type} {w : World σ} {s : Settings} {plugin : String} {x : σ}

def Speaks (w : World σ) (s : Settings) (plugin : String) (x : σ) (e : Edition) : Prop :=
  ∃ declared, w.declared plugin x = some declared ∧ Agrees s declared e

theorem Speaks.unique {e e' : Edition} (h : Speaks w s plugin x e)
    (h' : Speaks w s plugin x e') : e = e' := by
  obtain ⟨declared, known, agrees⟩ := h
  obtain ⟨declared', known', agrees'⟩ := h'
  obtain rfl := Option.some.inj (known.symm.trans known')
  exact agrees.unique agrees'

theorem edition_unknown (h : w.declared plugin x = none) :
    (edition s plugin).Yields w x [] (.error (.pluginNotFound plugin)) x := by
  refine (Call.yields_declared w plugin x).bind ?_
  rw [h]
  apply Call.yields_fail

theorem edition_unshared {declared : List Version} (h : w.declared plugin x = some declared)
    (unshared : ∀ v ∈ serverVersions s, v ∉ declared) :
    (edition s plugin).Yields w x []
      (.error (.noCompatibleVersion plugin declared (serverVersions s))) x := by
  refine (Call.yields_declared w plugin x).bind ?_
  simp only [h, Version.negotiate_eq_none_iff.2 unshared]
  apply Call.yields_fail

theorem edition_agrees {declared : List Version} {e : Edition}
    (h : w.declared plugin x = some declared) (agrees : Agrees s declared e) :
    (edition s plugin).Yields w x [] (.ok e) (w.note (resolvedEvent plugin e.version) x) := by
  refine (Call.yields_declared w plugin x).bind ?_
  simp only [h, agrees_iff.1 agrees, Edition.ofVersion?_version]
  refine (Call.yields_note w _ x).bind ?_
  apply Call.yields_pure

theorem speaks_of_resolve {v : Version} (h : ((resolve s plugin).run w x).1 = .ok v) :
    ∃ e : Edition, e.version = v ∧ Speaks w s plugin x e := by
  have failed {f : Failure} (hf : (edition s plugin).Yields w x [] (.error f) x) : False := by
    have run : (resolve s plugin).run w x = (.error f, x) := hf.bind_error.run
    rw [run] at h
    cases h
  cases known : w.declared plugin x with
  | none => exact (failed (edition_unknown known)).elim
  | some declared =>
    obtain unshared | ⟨e, agrees⟩ := unshared_or_agrees s declared
    · exact (failed (edition_unshared known unshared)).elim
    · have settled : (resolve s plugin).Yields w x [] (.ok e.version)
          (w.note (resolvedEvent plugin e.version) x) :=
        (edition_agrees known agrees).bind (Call.yields_pure w _ _)
      rw [settled.run] at h
      exact ⟨e, Attempt.ok.inj h, declared, known, agrees⟩

theorem mem_operations_iff {e : Edition} {op : Operation} :
    op ∈ e.operations ↔ e = .v2 ∨ (op ≠ .capabilities ∧ op ≠ .shouldUpdate) := by
  cases e <;> cases op <;> decide

theorem nameOf?_of_mem {e : Edition} {op : Operation} (h : op ∈ e.operations) :
    e.nameOf? op = some op.name := by
  simp [Edition.nameOf?, h]

theorem nameOf?_of_not_mem {e : Edition} {op : Operation} (h : op ∉ e.operations) :
    e.nameOf? op = none := by
  simp [Edition.nameOf?, h]

/-- What an answer means to whoever asked; its headers mean nothing. -/
def outcome (plugin : String) (decode : Option String → Except Response.Error α) :
    Transport.Answer → Attempt Failure α
  | .error e => .error (.transport e)
  | .ok reply =>
    match decode reply.body with
    | .ok a => .ok a
    | .error e => .error (.malformedResponse plugin e)

section Exchange

variable {e : Edition} {op : Operation} {body : Option (Attempt Request.Error Json)}
  {decode : Option String → Except Response.Error α}

theorem exchange_withheld (h : op ∉ e.operations) :
    (exchange s plugin e op body decode).Yields w x []
      (.error (.unsupportedOperation plugin op e.version)) x := by
  rw [exchange, nameOf?_of_not_mem h]
  apply Call.yields_fail

theorem exchange_unwritten {f : Failure} (h : op ∈ e.operations)
    (hb : bodyText plugin body = .error f) :
    (exchange s plugin e op body decode).Yields w x [] (.error f) x := by
  rw [exchange, nameOf?_of_mem h, hb]
  exact (Call.yields_ofAttempt w _ x).bind_error

theorem exchange_stopped (h : op ∈ e.operations) (hb : bodyText plugin body = .stopped) :
    (exchange s plugin e op body decode).Yields w x [] .stopped x := by
  rw [exchange, nameOf?_of_mem h, hb]
  exact (Call.yields_ofAttempt w _ x).bind_stopped

theorem exchange_sent {text : Option String} {r : Transport.Request} {y : σ}
    (h : op ∈ e.operations) (hb : bodyText plugin body = .ok text)
    (hr : r = ⟨plugin, s.extension, e.version, op.name, text⟩)
    (hy : y = w.note (submittingEvent plugin op.name e.version) x) :
    (exchange s plugin e op body decode).Yields w x [r]
      (outcome plugin decode (w.submit r y).1) (w.submit r y).2 := by
  subst hr hy
  rw [exchange, nameOf?_of_mem h, hb]
  refine (Call.yields_ofAttempt w _ x).bind ((Call.yields_note w _ x).bind ?_)
  rcases answered : w.submit _ _ with ⟨answer, z⟩
  cases answer with
  | error err => exact (Call.yields_submit_error answered).bind_error
  | ok reply =>
    refine (Call.yields_submit_ok answered).bind ?_
    cases hd : decode reply.body with
    | ok a =>
      simp only [outcome, hd]
      apply Call.yields_pure
    | error err =>
      simp only [outcome, hd]
      apply Call.yields_fail

end Exchange

end ScmPlugins.Client
