import Mathlib.Data.List.Forall2

namespace ScmPlugins.Except

variable {ε α β γ : Type}

theorem map_eq_ok_iff {x : Except ε α} {f : α → β} {b : β} :
    x.map f = .ok b ↔ ∃ a, x = .ok a ∧ f a = b := by
  cases x with
  | error e => simp [Except.map]
  | ok a => simp [Except.map]

theorem bind_eq_ok_iff {x : Except ε α} {f : α → Except ε β} {b : β} :
    (x >>= f) = .ok b ↔ ∃ a, x = .ok a ∧ f a = .ok b := by
  cases x with
  | error e => simp [bind, Except.bind]
  | ok a => simp [bind, Except.bind]

theorem ok_bind (a : α) (f : α → Except ε β) : (Except.ok a >>= f) = f a := rfl

theorem error_bind (e : ε) (f : α → Except ε β) : (Except.error e >>= f) = .error e := rfl

theorem pure_eq_ok_iff {a b : α} : (pure a : Except ε α) = .ok b ↔ a = b :=
  ⟨Except.ok.inj, congrArg Except.ok⟩

theorem mapM_eq_ok_iff {f : α → Except ε β} {as : List α} {bs : List β} :
    as.mapM f = .ok bs ↔ List.Forall₂ (fun a b => f a = .ok b) as bs := by
  induction as generalizing bs with
  | nil => rw [List.mapM_nil, pure_eq_ok_iff, List.forall₂_nil_left_iff, eq_comm]
  | cons a as ih =>
    simp only [List.mapM_cons, bind_eq_ok_iff, ih, pure_eq_ok_iff, List.forall₂_cons_left_iff]
    constructor
    · rintro ⟨b, hb, bs, hbs, rfl⟩
      exact ⟨b, bs, hb, hbs, rfl⟩
    · rintro ⟨b, bs, hb, hbs, rfl⟩
      exact ⟨b, hb, bs, hbs, rfl⟩

theorem mapM_eq_ok_map {f : α → Except ε β} {g : α → β} {as : List α}
    (h : ∀ a ∈ as, f a = .ok (g a)) : as.mapM f = .ok (as.map g) :=
  mapM_eq_ok_iff.2 (List.forall₂_map_right_iff.2 (List.forall₂_same.2 h))

theorem mapM_before_of_eq_ok {f : α → Except ε β} {front rest : List α} {a : α} {bs : List β}
    (h : (front ++ a :: rest).mapM f = .ok bs) :
    ∃ cs b, front.mapM f = .ok cs ∧ f a = .ok b := by
  simp only [List.mapM_append, List.mapM_cons, bind_eq_ok_iff] at h
  obtain ⟨cs, before, -, ⟨b, here, -⟩, -⟩ := h
  exact ⟨cs, b, before, here⟩

theorem mapM_eq_error {f : α → Except ε β} {front rest : List α} {a : α} {cs : List β} {e : ε}
    (before : front.mapM f = .ok cs) (here : f a = .error e) :
    (front ++ a :: rest).mapM f = .error e := by
  rw [List.mapM_append, before, ok_bind, List.mapM_cons, here]
  rfl

theorem exists_mapM_eq_ok {f : α → Except ε β} {as : List α} (h : ∀ a ∈ as, ∃ b, f a = .ok b) :
    ∃ bs, as.mapM f = .ok bs := by
  induction as with
  | nil => exact ⟨[], rfl⟩
  | cons a as ih =>
    obtain ⟨⟨b, here⟩, later⟩ := List.forall_mem_cons.1 h
    obtain ⟨bs, hbs⟩ := ih later
    exact ⟨b :: bs, mapM_eq_ok_iff.2 (.cons here (mapM_eq_ok_iff.1 hbs))⟩

theorem mapM_eq_error_iff {f : α → Except ε β} {as : List α} {e : ε} :
    as.mapM f = .error e ↔ ∃ front a rest, as = front ++ a :: rest ∧
      (∀ b ∈ front, ∃ c, f b = .ok c) ∧ f a = .error e := by
  constructor
  · intro h
    induction as with
    | nil => cases h
    | cons a as ih =>
      rw [List.mapM_cons] at h
      cases here : f a with
      | error e' =>
        rw [here, error_bind] at h
        cases h
        exact ⟨[], a, as, rfl, nofun, here⟩
      | ok c =>
        rw [here, ok_bind] at h
        cases later : as.mapM f with
        | ok cs =>
          rw [later] at h
          cases h
        | error e' =>
          rw [later, error_bind] at h
          cases h
          obtain ⟨front, b, rest, rfl, before, failed⟩ := ih later
          exact ⟨a :: front, b, rest, rfl, List.forall_mem_cons.2 ⟨⟨c, here⟩, before⟩, failed⟩
  · rintro ⟨front, a, rest, rfl, before, failed⟩
    obtain ⟨cs, hcs⟩ := exists_mapM_eq_ok before
    exact mapM_eq_error hcs failed

theorem mapM_eq_mapM_of_forall₂ {f : α → Except ε γ} {g : β → Except ε γ} {as : List α}
    {bs : List β} (h : List.Forall₂ (fun a b => f a = g b) as bs) : as.mapM f = bs.mapM g := by
  induction h with
  | nil => rfl
  | cons same _ ih => rw [List.mapM_cons, List.mapM_cons, same, ih]

end ScmPlugins.Except
