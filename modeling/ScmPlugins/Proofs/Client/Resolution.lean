import ScmPlugins.Proofs.Client.Exchange
import ScmPlugins.Rehearsal

namespace ScmPlugins

def Settings.Allows (s : Settings) (v : Version) : Prop := ∀ c, s.ceiling = some c → v ≤ c

inductive Raised : Option Version → Option Version → Prop
  | removed (c : Option Version) : Raised c none
  | raised {c d : Version} (h : c ≤ d) : Raised (some c) (some d)

theorem Settings.Allows.of_raised {s s' : Settings} {v : Version} (allowed : s.Allows v)
    (raised : Raised s.ceiling s'.ceiling) : s'.Allows v := by
  intro d hd
  rw [hd] at raised
  cases hc : s.ceiling with
  | none =>
    rw [hc] at raised
    cases raised
  | some c =>
    rw [hc] at raised
    cases raised with
    | raised h => exact Version.le_trans (allowed c hc) h

namespace Client

structure Settles (s : Settings) (declared : List Version) (v : Version) : Prop where
  spoken : v ∈ Version.supported
  allowed : s.Allows v
  understood : v ∈ declared
  greatest : ∀ u ∈ Version.supported, s.Allows u → u ∈ declared → u ≤ v

inductive Unresolved (s : Settings) (plugin : String) : Option (List Version) → Failure → Prop
  | unknown : Unresolved s plugin none (.pluginNotFound plugin)
  | unshared {declared : List Version} (h : ∀ v, ¬Settles s declared v) :
      Unresolved s plugin (some declared)
        (.noCompatibleVersion plugin declared (serverVersions s))

variable {s s' : Settings} {declared : List Version} {u v : Version}

theorem mem_serverVersions_iff : v ∈ serverVersions s ↔ v ∈ Version.supported ∧ s.Allows v := by
  unfold serverVersions Settings.offered Settings.Allows
  rw [List.mem_filter]
  cases s.ceiling <;> simp

theorem settles_iff : Settles s declared v ↔
    Version.negotiate (serverVersions s) declared = some v := by
  rw [Version.negotiate_eq_some_iff, mem_serverVersions_iff]
  constructor
  · intro h
    refine ⟨⟨h.spoken, h.allowed⟩, h.understood, fun u offered => ?_⟩
    obtain ⟨spoken, allowed⟩ := mem_serverVersions_iff.1 offered
    exact h.greatest u spoken allowed
  · rintro ⟨⟨spoken, allowed⟩, understood, greatest⟩
    refine ⟨spoken, allowed, understood, fun u spoken allowed => ?_⟩
    exact greatest u (mem_serverVersions_iff.2 ⟨spoken, allowed⟩)

theorem exists_settles (offered : u ∈ serverVersions s) (understood : u ∈ declared) :
    ∃ v, Settles s declared v ∧ u ≤ v := by
  cases h : Version.negotiate (serverVersions s) declared with
  | none => exact absurd understood (Version.negotiate_eq_none_iff.1 h u offered)
  | some v =>
    exact ⟨v, settles_iff.2 h, (Version.negotiate_eq_some_iff.1 h).2.2 u offered understood⟩

theorem Settles.of_raised (h : Settles s declared v) (raised : Raised s.ceiling s'.ceiling) :
    ∃ v', Settles s' declared v' ∧ v ≤ v' :=
  exists_settles (mem_serverVersions_iff.2 ⟨h.spoken, h.allowed.of_raised raised⟩) h.understood

theorem Settles.spoken_in (h : Settles s declared v) :
    ∃ e, Edition.ofVersion? v = some e ∧ e.version = v ∧ Agrees s declared e := by
  obtain ⟨e, version, agrees⟩ := exists_agrees_of_negotiate (settles_iff.1 h)
  exact ⟨e, Edition.ofVersion?_eq_some_iff.2 version, version, agrees⟩

variable {σ : Type} {w : World σ} {plugin : String} {x : σ}

theorem resolve_of_settles (known : w.declared plugin x = some declared)
    (h : Settles s declared v) : ((resolve s plugin).run w x).1 = .ok v := by
  obtain ⟨e, -, rfl, agrees⟩ := h.spoken_in
  have settled : (resolve s plugin).Yields w x [] (.ok e.version) _ :=
    (edition_agrees known agrees).bind (Call.yields_pure w _ _)
  rw [settled.run]

theorem resolve_of_unresolved {f : Failure} (h : Unresolved s plugin (w.declared plugin x) f) :
    ((resolve s plugin).run w x).1 = .error f := by
  have failed {f : Failure} (hf : (edition s plugin).Yields w x [] (.error f) x) :
      ((resolve s plugin).run w x).1 = .error f := by
    have yields : (resolve s plugin).Yields w x [] (.error f) x := hf.bind_error
    rw [yields.run]
  cases known : w.declared plugin x with
  | none =>
    rw [known] at h
    cases h
    exact failed (edition_unknown known)
  | some declared =>
    rw [known] at h
    cases h with
    | unshared none =>
      refine failed (edition_unshared known fun v offered understood => ?_)
      obtain ⟨v', settles, -⟩ := exists_settles offered understood
      exact none v' settles

theorem settles_or_unresolved (w : World σ) (s : Settings) (plugin : String) (x : σ) :
    (∃ declared v, w.declared plugin x = some declared ∧ Settles s declared v) ∨
      ∃ f, Unresolved s plugin (w.declared plugin x) f := by
  cases known : w.declared plugin x with
  | none => exact .inr ⟨_, .unknown⟩
  | some declared =>
    by_cases h : ∃ v, Settles s declared v
    · obtain ⟨v, settles⟩ := h
      exact .inl ⟨declared, v, rfl, settles⟩
    · exact .inr ⟨_, .unshared fun v settles => h ⟨v, settles⟩⟩

theorem resolve_eq_ok_iff : ((resolve s plugin).run w x).1 = .ok v ↔
    ∃ declared, w.declared plugin x = some declared ∧ Settles s declared v := by
  refine ⟨fun resolved => ?_, fun ⟨declared, known, settles⟩ => resolve_of_settles known settles⟩
  obtain ⟨declared, v', known, settles⟩ | ⟨f, unresolved⟩ := settles_or_unresolved w s plugin x
  · obtain rfl : v' = v := Attempt.ok.inj ((resolve_of_settles known settles).symm.trans resolved)
    exact ⟨declared, known, settles⟩
  · rw [resolve_of_unresolved unresolved] at resolved
    cases resolved

theorem resolve_eq_error_iff {f : Failure} : ((resolve s plugin).run w x).1 = .error f ↔
    Unresolved s plugin (w.declared plugin x) f := by
  refine ⟨fun failed => ?_, resolve_of_unresolved⟩
  obtain ⟨declared, v, known, settles⟩ | ⟨f', unresolved⟩ := settles_or_unresolved w s plugin x
  · rw [resolve_of_settles known settles] at failed
    cases failed
  · obtain rfl : f' = f := Attempt.error.inj ((resolve_of_unresolved unresolved).symm.trans failed)
    exact unresolved

/-- A negotiation finds the greatest version in both lists, or none if there is none, whatever the
order and the repetitions in them and whichever comes first. So a resolution finds the greatest
shared version, which always is one that is spoken here, or says why there is none. With a higher
ceiling it finds as much or more. -/
theorem resolution_greatest_shared (w : World σ) :
    (∀ server plugin v, Version.negotiate server plugin = some v ↔
      v ∈ server ∧ v ∈ plugin ∧ ∀ u ∈ server, u ∈ plugin → u ≤ v) ∧
    (∀ server plugin, Version.negotiate server plugin = none ↔ ∀ v ∈ server, v ∉ plugin) ∧
    (∀ server plugin, Version.negotiate server plugin = Version.negotiate plugin server) ∧
    (∀ server server' plugin plugin' : List Version,
      (∀ v, v ∈ server ↔ v ∈ server') → (∀ v, v ∈ plugin ↔ v ∈ plugin') →
      Version.negotiate server plugin = Version.negotiate server' plugin') ∧
    (∀ s, (serverVersions s).Sublist Version.supported ∧
      ∀ v, v ∈ serverVersions s ↔ v ∈ Version.supported ∧ s.Allows v) ∧
    (∀ s plugin x v, ((resolve s plugin).run w x).1 = .ok v ↔
      ∃ declared, w.declared plugin x = some declared ∧ Settles s declared v) ∧
    (∀ s plugin x f, ((resolve s plugin).run w x).1 = .error f ↔
      Unresolved s plugin (w.declared plugin x) f) ∧
    (∀ s declared v, Version.negotiate (serverVersions s) declared = some v →
      ∃ e, Edition.ofVersion? v = some e ∧ e.version = v) ∧
    ∀ s s' plugin x v, Raised s.ceiling s'.ceiling → ((resolve s plugin).run w x).1 = .ok v →
      ∃ v', ((resolve s' plugin).run w x).1 = .ok v' ∧ v ≤ v' := by
  refine ⟨fun _ _ _ => Version.negotiate_eq_some_iff, fun _ _ => Version.negotiate_eq_none_iff,
    Version.negotiate_comm, ?_, fun s => ⟨List.filter_sublist, fun v => mem_serverVersions_iff⟩,
    fun _ _ _ _ => resolve_eq_ok_iff, fun _ _ _ _ => resolve_eq_error_iff, ?_, ?_⟩
  · intro server server' plugin plugin' same same'
    exact Version.negotiate_congr fun v => and_congr (same v) (same' v)
  · intro s declared v negotiated
    obtain ⟨e, spoken, version, -⟩ := (settles_iff.2 negotiated).spoken_in
    exact ⟨e, spoken, version⟩
  · intro s s' plugin x v raised resolved
    obtain ⟨declared, known, settles⟩ := resolve_eq_ok_iff.1 resolved
    obtain ⟨v', settles', le⟩ := settles.of_raised raised
    exact ⟨v', resolve_of_settles known settles', le⟩

theorem resolution_greatest_shared_between :
    let versions : List Version := [.v2_0, ⟨3, 0⟩, .v1_0, .v2_0]
    let git : Rehearsal :=
      { registry := ⟨.ofList [("git", { descriptor := ⟨"git", versions⟩ })]⟩ }
    let below (c : Version) : Settings := { ceiling := some c }
    Raised (below ⟨1, 5⟩).ceiling none ∧
      Version.negotiate (serverVersions (below ⟨1, 5⟩)) versions =
        Version.negotiate [.v1_0] [⟨3, 0⟩, .v2_0, .v1_0] ∧
      ((resolve (below ⟨1, 5⟩) "git").run Rehearsal.world git).1 = .ok .v1_0 ∧
      (∃ v, ((resolve {} "git").run Rehearsal.world git).1 = .ok v ∧ .v1_0 ≤ v) ∧
      ((resolve (below ⟨0, 9⟩) "git").run Rehearsal.world git).1 =
        .error (.noCompatibleVersion "git" versions []) ∧
      ((resolve {} "hg").run Rehearsal.world git).1 = .error (.pluginNotFound "hg") := by
  intro versions git below
  obtain ⟨-, -, -, congr, -, ok, error, spoken, raising⟩ :=
    resolution_greatest_shared Rehearsal.world
  have low : ((resolve (below ⟨1, 5⟩) "git").run Rehearsal.world git).1 = .ok .v1_0 := by
    refine (ok _ _ _ _).2 ⟨versions, rfl, settles_iff.2 ?_⟩
    decide
  refine ⟨.removed _, ?_, low, raising _ {} _ _ _ (.removed _) low, ?_, ?_⟩
  · have offered : serverVersions (below ⟨1, 5⟩) = [.v1_0] := by decide
    exact congr _ _ _ _ (by simp [offered]) (by grind)
  · refine (error _ _ _ _).2 (.unshared fun v settles => ?_)
    obtain ⟨offered, -⟩ := Version.negotiate_eq_some_iff.1 (settles_iff.1 settles)
    exact absurd offered (List.not_mem_nil)
  · exact (error _ _ _ _).2 .unknown

end Client

end ScmPlugins
