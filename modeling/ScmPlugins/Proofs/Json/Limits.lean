import ScmPlugins.Proofs.Json.Fields

namespace ScmPlugins.Json

/-- Lists and maps stand at most so deep, every number has a value, and no string holds half a
surrogate pair. -/
inductive Within : (depth : Nat) → List Char → Prop
  | word {depth : Nat} {v : List Char}
      (h : v ∈ [['n', 'u', 'l', 'l'], ['t', 'r', 'u', 'e'], ['f', 'a', 'l', 's', 'e']]) :
      Within depth v
  | number {depth : Nat} {v : List Char} {l : Literal} {j : Json}
      (literal : Literal.scan .invalidNumber v = .ok (l, [])) (value : l.value = .ok j) :
      Within depth v
  | string {depth : Nat} {v : List Char} {k : String} (h : Spells v k) : Within depth v
  | list {depth : Nat} {v : List Char} {vs : List (List Char)} (list : IsList v vs)
      (h : ∀ u ∈ vs, Within depth u) : Within (depth + 1) v
  | map {depth : Nat} {v : List Char} {ms : List (String × List Char)} (map : IsMap v ms)
      (h : ∀ m ∈ ms, Within depth m.2) : Within (depth + 1) v

section Reading

variable {depth : Nat} {v : List Char} {vs : List (List Char)} {ms : List (String × List Char)}

theorem exists_forall₂_iff {α β : Type} {R : α → β → Prop} {as : List α} :
    (∃ bs, List.Forall₂ R as bs) ↔ ∀ a ∈ as, ∃ b, R a b := by
  induction as with
  | nil => simp
  | cons a as ih =>
    simp only [List.forall₂_cons_left_iff, List.forall_mem_cons, ← ih]
    grind

theorem exists_run_list_iff (list : IsList v vs) :
    (∃ j, (value (depth + 1)).run v = .ok (j, [])) ↔
      ∀ u ∈ vs, ∃ j, (value depth).run u = .ok (j, []) := by
  rw [← exists_forall₂_iff]
  obtain ⟨s, rfl, items⟩ := list
  have read {js : List Json} : Json.items id (value depth) true (s ++ []) = .ok (js, []) ↔ _ :=
    (exact_value depth).items_iff items
  simp only [List.append_nil, true_and] at read
  simp only [run_value_list, Except.map_eq_ok_iff, ← read]
  constructor
  · rintro ⟨_, ⟨js, _⟩, found, ⟨⟩⟩
    exact ⟨js, found⟩
  · rintro ⟨js, found⟩
    exact ⟨.list js, (js, []), found, rfl⟩

theorem forall₂_spells_iff {α : Type} {R : List Char → α → Prop}
    {raw : List (List Char × List Char)} (named : Named raw ms) {as : List (String × α)} :
    List.Forall₂ (fun m a => Spells m.1 a.1 ∧ R m.2 a.2) raw as ↔
      List.Forall₂ (fun m a => m.1 = a.1 ∧ R m.2 a.2) ms as := by
  induction named generalizing as with
  | nil => simp
  | cons here _ ih =>
    obtain ⟨spells, rest⟩ := here
    simp only [List.forall₂_cons_left_iff, ih, rest]
    refine exists_congr fun a => exists_congr fun as => and_congr_left fun _ => and_congr_left ?_
    exact fun _ => ⟨fun spelt => spells.unique spelt, fun same => same ▸ spells⟩

theorem run_map_eq_ok_iff (depth : Nat) {j : Json} (map : IsMap v ms) :
    (value (depth + 1)).run v = .ok (j, []) ↔
      ∃ as, j = .map as ∧
        List.Forall₂ (fun m a => m.1 = a.1 ∧ (value depth).run m.2 = .ok (a.2, [])) ms as := by
  obtain ⟨raw, ⟨s, rfl, members⟩, named⟩ := map
  have read {as : List (String × Json)} : Json.members id (value depth) true s = .ok (as, []) ↔
      List.Forall₂ (fun m a => m.1 = a.1 ∧ (value depth).run m.2 = .ok (a.2, [])) ms as := by
    have each : Json.members id (value depth) true (s ++ []) = .ok (as, []) ↔ _ :=
      (exact_value depth).members_iff members
    simp only [List.append_nil, true_and] at each
    exact each.trans (forall₂_spells_iff (R := fun v j => (value depth).run v = .ok (j, [])) named)
  simp only [run_value_map, Except.map_eq_ok_iff, ← read]
  constructor
  · rintro ⟨⟨as, _⟩, found, ⟨⟩⟩
    exact ⟨as, rfl, found⟩
  · rintro ⟨as, rfl, found⟩
    exact ⟨(as, []), found, rfl⟩

theorem exists_run_map_iff (map : IsMap v ms) :
    (∃ j, (value (depth + 1)).run v = .ok (j, [])) ↔
      ∀ m ∈ ms, ∃ j, (value depth).run m.2 = .ok (j, []) := by
  have each : (∀ m ∈ ms, ∃ j, (value depth).run m.2 = .ok (j, [])) ↔
      ∀ m ∈ ms, ∃ a : String × Json, m.1 = a.1 ∧ (value depth).run m.2 = .ok (a.2, []) := by
    simp
  rw [each, ← exists_forall₂_iff]
  simp only [run_map_eq_ok_iff depth map]
  constructor
  · rintro ⟨_, as, rfl, read⟩
    exact ⟨as, read⟩
  · rintro ⟨as, read⟩
    exact ⟨.map as, as, rfl, read⟩

theorem exists_run_word
    (h : v ∈ [['n', 'u', 'l', 'l'], ['t', 'r', 'u', 'e'], ['f', 'a', 'l', 's', 'e']]) :
    ∃ j, (value depth).run v = .ok (j, []) := by
  simp only [List.mem_cons, List.not_mem_nil, or_false] at h
  obtain rfl | rfl | rfl := h
  · exact ⟨.null, run_value_of_scalar_read rfl (by decide) (by decide) rfl⟩
  · exact ⟨.bool true, run_value_of_scalar_read rfl (by decide) (by decide) rfl⟩
  · exact ⟨.bool false, run_value_of_scalar_read rfl (by decide) (by decide) rfl⟩

theorem exists_run_number_iff (h : IsNumber v) :
    (∃ j, (value depth).run v = .ok (j, [])) ↔
      ∃ l j, Literal.scan .invalidNumber v = .ok (l, []) ∧ l.value = .ok j := by
  obtain ⟨l, scanned⟩ := h.scan (.ended .value) endsNumber_nil
  rw [List.append_nil] at scanned
  obtain ⟨c, u, rfl, -⟩ := h.exists_cons
  obtain ⟨space, bracket, brace⟩ := h.head
  have alone := scalar_number h []
  rw [List.append_nil] at alone
  rw [run_value_of_scalar space bracket brace, alone, scan_atEnd scanned]
  simp only [number, scanned]
  cases found : l.value <;> simp [found]

theorem exists_run_string_iff {q : List Char} :
    (∃ j, (value depth).run ('"' :: q) = .ok (j, [])) ↔ ∃ k, Spells ('"' :: q) k := by
  rw [run_value_of_scalar (by decide) (by decide) (by decide), scalar_quotation]
  simp only [Except.map_eq_ok_iff, spells_iff]
  constructor
  · rintro ⟨_, ⟨cs, _⟩, found, ⟨⟩⟩
    exact ⟨String.ofList cs, by simpa using found⟩
  · rintro ⟨k, found⟩
    exact ⟨_, _, found, rfl⟩

theorem exists_isMap_of_run {s : List Char} {raw : List (List Char × List Char)} {j : Json}
    (members : Derives (.members true raw) s)
    (h : (value (depth + 1)).run ('\x7b' :: s) = .ok (j, [])) : ∃ ms, IsMap ('\x7b' :: s) ms := by
  rw [run_value_map, Except.map_eq_ok_iff] at h
  obtain ⟨⟨as, _⟩, found, ⟨⟩⟩ := h
  rw [← List.append_nil s, (exact_value depth).members_iff members] at found
  have names : ∀ m ∈ raw, ∃ m' : String × List Char, Spells m.1 m'.1 ∧ m.2 = m'.2 := by
    intro m hm
    obtain ⟨a, ha⟩ := exists_forall₂_iff.1 ⟨as, found.2⟩ m hm
    exact ⟨(a.1, m.2), ha.1, rfl⟩
  obtain ⟨ms, named⟩ := exists_forall₂_iff.2 names
  exact ⟨ms, raw, ⟨s, rfl, members⟩, named⟩

theorem within_of_run (h : IsValue v) {j : Json} (read : (value depth).run v = .ok (j, [])) :
    Within depth v := by
  induction depth using Nat.strongRecOn generalizing v j with
  | ind depth ih =>
    cases h with
    | word h => exact .word h
    | number h =>
      obtain ⟨l, j, literal, value⟩ := (exists_run_number_iff h).1 ⟨j, read⟩
      exact .number literal value
    | string =>
      obtain ⟨k, spells⟩ := exists_run_string_iff.1 ⟨j, read⟩
      exact .string spells
    | list h =>
      cases depth with
      | zero => simp [run_value_zero_list] at read
      | succ depth =>
        have list : IsList ('[' :: _) _ := ⟨_, rfl, h⟩
        refine .list list fun u hu => ?_
        obtain ⟨k, read'⟩ := (exists_run_list_iff list).1 ⟨j, read⟩ u hu
        exact ih depth (by omega) (list.values u hu) read'
    | map h =>
      cases depth with
      | zero => simp [run_value_zero_map] at read
      | succ depth =>
        obtain ⟨ms, map⟩ := exists_isMap_of_run h read
        refine .map map fun m hm => ?_
        obtain ⟨k, read'⟩ := (exists_run_map_iff map).1 ⟨j, read⟩ m hm
        exact ih depth (by omega) (map.values m hm) read'

theorem exists_run_of_within (h : Within depth v) : ∃ j, (value depth).run v = .ok (j, []) := by
  induction h with
  | word h => exact exists_run_word h
  | number literal value =>
    obtain ⟨v, rfl, number⟩ := exists_isNumber_of_scan literal
    rw [List.append_nil] at literal ⊢
    exact (exists_run_number_iff number).2 ⟨_, _, literal, value⟩
  | string h =>
    obtain ⟨q, rfl, -⟩ := id h
    exact exists_run_string_iff.2 ⟨_, h⟩
  | list list _ ih => exact (exists_run_list_iff list).2 ih
  | map map _ ih => exact (exists_run_map_iff map).2 ih

/-- A text is a document if it holds a value within the limits. -/
theorem exists_parse_iff {s : String} :
    (∃ j, parse s = .ok j) ↔ ∃ v, Wraps s.toList v ∧ Within maxDepth v := by
  simp only [parse_eq_ok_iff_wraps]
  constructor
  · rintro ⟨j, v, wraps, read⟩
    obtain ⟨w, x, -, -, -, value⟩ := id wraps
    exact ⟨v, wraps, within_of_run value read⟩
  · rintro ⟨v, wraps, within⟩
    obtain ⟨j, read⟩ := exists_run_of_within within
    exact ⟨j, v, wraps, read⟩

theorem eq_of_scalar_null {c : Char} {u r : List Char} (h : scalar (c :: u) = .ok (.null, r)) :
    c = 'n' := by
  have number_ne : number (c :: u) ≠ .ok (.null, r) := by
    unfold number Literal.value
    grind
  have mapped_ne {α : Type} {f : α → Json × List Char} {x : Except Fault α}
      (hf : ∀ a, (f a).1 ≠ .null) (h : x.map f = .ok (.null, r)) : False := by
    obtain ⟨a, -, same⟩ := Except.map_eq_ok_iff.1 h
    exact hf a (congrArg Prod.fst same)
  simp only [scalar] at h
  split at h
  · assumption
  · split at h
    · exact (mapped_ne (by simp) h).elim
    · split at h
      · exact (mapped_ne (by simp) h).elim
      · split at h
        · exact (mapped_ne (by simp) h).elim
        · split at h
          · exact absurd h number_ne
          · cases h

theorem eq_null_of_run (h : IsValue v) (read : (value depth).run v = .ok (.null, [])) :
    v = ['n', 'u', 'l', 'l'] := by
  have found : ∃ inner, ReadFrom inner v .null [] := by
    cases depth <;> exact ⟨_, node_eq_ok_iff.1 read⟩
  obtain ⟨inner, found⟩ := found
  cases found with
  | scalar first _ _ scalar =>
    have front := h.skipSpace []
    rw [List.append_nil, first] at front
    subst front
    obtain rfl := eq_of_scalar_null scalar
    rw [h.of_head.2.2.2 rfl]

theorem parse_eq_null_iff {s : String} :
    parse s = .ok .null ↔ Wraps s.toList ['n', 'u', 'l', 'l'] := by
  rw [parse_eq_ok_iff_wraps]
  constructor
  · rintro ⟨v, wraps, read⟩
    obtain ⟨w, x, -, -, -, value⟩ := id wraps
    exact eq_null_of_run value read ▸ wraps
  · intro wraps
    exact ⟨_, wraps, run_value_of_scalar_read rfl (by decide) (by decide) rfl⟩

end Reading

end ScmPlugins.Json
