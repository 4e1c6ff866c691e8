import ScmPlugins.Proofs.Json.Exact

namespace ScmPlugins.Json

variable {σ : Type}

theorem IsMap.isValue {v : List Char} {ms : List (String × List Char)} (h : IsMap v ms) :
    IsValue v := by
  obtain ⟨_, ⟨_, rfl, map⟩, -⟩ := h
  exact .map map

theorem IsList.isValue {v : List Char} {vs : List (List Char)} (h : IsList v vs) : IsValue v := by
  obtain ⟨_, rfl, list⟩ := h
  exact .list list

theorem IsMap.values {v : List Char} {ms : List (String × List Char)} (h : IsMap v ms) :
    ∀ m ∈ ms, IsValue m.2 := by
  obtain ⟨raw, ⟨u, -, map⟩, named⟩ := h
  generalize true = first at map
  induction named generalizing first u with
  | nil => exact nofun
  | cons here _ ih =>
    cases map with
    | member lead name before behind value rest =>
      exact List.forall_mem_cons.2 ⟨here.2 ▸ value, ih _ _ rest⟩

theorem IsList.values {v : List Char} {vs : List (List Char)} (h : IsList v vs) :
    ∀ u ∈ vs, IsValue u := by
  obtain ⟨u, -, list⟩ := h
  generalize true = first at list
  induction vs generalizing first u with
  | nil => exact nofun
  | cons v vs ih =>
    cases list with
    | item lead value rest => exact List.forall_mem_cons.2 ⟨value, ih _ _ rest⟩

theorem Reader.run_listOf_of_iff {α : Type} {item : Reader Misfit α} (exact : item.Exact)
    {Reads : List Char → α → Prop}
    (h : ∀ {v a}, IsValue v → (item.run v = .ok (a, []) ↔ Reads v a)) {v : List Char}
    (value : IsValue v) {as : List α} :
    (Reader.listOf item).run v = .ok (as, []) ↔ ∃ vs, IsList v vs ∧ List.Forall₂ Reads vs as := by
  have read : (Reader.listOf item).run (v ++ []) = .ok (as, []) ↔ _ :=
    Reader.run_listOf_iff exact value
  rw [List.append_nil] at read
  rw [read]
  refine exists_congr fun vs => and_congr_right fun list => ?_
  constructor
  · intro reads
    exact ((List.forall₂_and_left _ _).2 ⟨list.values, reads⟩).imp fun _ _ hr => (h hr.1).1 hr.2
  · intro reads
    exact ((List.forall₂_and_left _ _).2 ⟨list.values, reads⟩).imp fun _ _ hr => (h hr.1).2 hr.2

theorem Reader.run_listOf_of_isList {α : Type} {item : Reader Misfit α} (exact : item.Exact)
    {v : List Char} {vs : List (List Char)} (h : IsList v vs) {as : List α} :
    (Reader.listOf item).run v = .ok (as, []) ↔
      List.Forall₂ (fun v a => item.run v = .ok (a, [])) vs as := by
  obtain ⟨u, rfl, list⟩ := h
  have read : items .fault item true (u ++ []) = .ok (as, []) ↔ _ := exact.items_iff list
  rw [List.append_nil] at read
  exact read.trans (and_iff_right rfl)

section Slices

variable {s v : List Char} {vs vs' : List (List Char)} {ms ms' : List (String × List Char)}

def slice : Reader Fault (List Char) where
  run s := (skip s).map fun r => ((skipSpace s).take ((skipSpace s).length - r.length), r)
  shorter h := by
    obtain ⟨_, passed, ⟨⟩⟩ := Except.map_eq_ok_iff.1 h
    exact skip_shorter passed

theorem skip_skipSpace (s : List Char) : skip (skipSpace s) = skip s := skipFrom_skipSpace [] s

theorem run_slice_append {t : List Char} (value : IsValue v) (ends : EndsNumber t) :
    slice.run (v ++ t) = .ok (v, t) := by
  simp [slice, IsValue.skip value ends, IsValue.skipSpace value, Except.map]

theorem exact_slice : slice.Exact where
  passes h := by
    obtain ⟨_, passed, ⟨⟩⟩ := Except.map_eq_ok_iff.1 h
    exact passed
  spaces s := by simp only [slice, skip_skipSpace, skipSpace_skipSpace]
  before {v t a} value ends := by
    have alone := run_slice_append value endsNumber_nil
    rw [List.append_nil] at alone
    rw [run_slice_append value ends, alone]
    simp

theorem run_slice_iff (value : IsValue v) {u : List Char} : slice.run v = .ok (u, []) ↔ u = v := by
  have alone := run_slice_append value endsNumber_nil
  rw [List.append_nil] at alone
  rw [alone]
  simp [eq_comm]

theorem IsList.unique (h : IsList v vs) (h' : IsList v vs') : vs = vs' := by
  obtain ⟨u, rfl, list⟩ := id h
  obtain ⟨_, ⟨⟩, list'⟩ := id h'
  have read {ws : List (List Char)} (list : Derives (.items true ws) u)
      (values : ∀ w ∈ ws, IsValue w) : items id slice true u = .ok (ws, []) := by
    rw [← List.append_nil u, exact_slice.items_iff list]
    exact ⟨rfl, List.forall₂_same.2 fun w hw => (run_slice_iff (values w hw)).2 rfl⟩
  have same := read list h.values
  rw [read list' h'.values] at same
  exact (Prod.mk.inj (Except.ok.inj same)).1.symm

theorem IsMap.unique (h : IsMap v ms) (h' : IsMap v ms') : ms = ms' := by
  obtain ⟨raw, ⟨u, rfl, map⟩, named⟩ := id h
  obtain ⟨raw', ⟨_, ⟨⟩, map'⟩, named'⟩ := id h'
  have read {raw : List (List Char × List Char)} {ns : List (String × List Char)}
      (map : Derives (.members true raw) u) (named : Named raw ns)
      (values : ∀ n ∈ ns, IsValue n.2) : members id slice true u = .ok (ns, []) := by
    rw [← List.append_nil u, exact_slice.members_iff map]
    clear map
    refine ⟨rfl, ?_⟩
    induction named with
    | nil => exact .nil
    | cons here _ ih =>
      obtain ⟨value, values⟩ := List.forall_mem_cons.1 values
      exact .cons ⟨here.1, here.2 ▸ (run_slice_iff value).2 rfl⟩ (ih values)
  have same := read map named h.values
  rw [read map' named' h'.values] at same
  exact (Prod.mk.inj (Except.ok.inj same)).1.symm

end Slices

theorem forall₂_append_iff {α β : Type} {R : α → β → Prop} {as as' : List α} {bs : List β} :
    List.Forall₂ R (as ++ as') bs ↔
      ∃ cs cs', bs = cs ++ cs' ∧ List.Forall₂ R as cs ∧ List.Forall₂ R as' cs' := by
  induction as generalizing bs with
  | nil => simp
  | cons a as ih =>
    simp only [List.cons_append, List.forall₂_cons_left_iff, ih]
    constructor
    · rintro ⟨b, _, here, ⟨cs, cs', rfl, front, back⟩, rfl⟩
      exact ⟨b :: cs, cs', rfl, ⟨b, cs, here, front, rfl⟩, back⟩
    · rintro ⟨_, cs', rfl, ⟨b, cs, here, front, rfl⟩, back⟩
      exact ⟨b, cs ++ cs', here, ⟨cs, cs', rfl, front, back⟩, rfl⟩

theorem forall₂_append_cons_iff {α β : Type} {R : α → β → Prop} {a : α} {as as' : List α}
    {bs : List β} :
    List.Forall₂ R (as ++ a :: as') bs ↔
      ∃ cs b cs', bs = cs ++ b :: cs' ∧ List.Forall₂ R as cs ∧ R a b ∧ List.Forall₂ R as' cs' := by
  simp only [forall₂_append_iff, List.forall₂_cons_left_iff]
  grind

namespace Record

/-- The members of a map are taken for the fields they name, each field once at most. `seen` are
those met before, and no field that has to be given is left out in the end. -/
inductive Takes (form : Record σ) : List String → σ → List (String × List Char) → σ → Prop
  | done {seen : List String} {a : σ} (complete : form.missing? seen = none) :
      Takes form seen a [] a
  | pass {seen : List String} {acc a : σ} {k : String} {v : List Char}
      {ms : List (String × List Char)} (unknown : form.fields.find? (·.name == k) = none)
      (rest : Takes form seen acc ms a) : Takes form seen acc ((k, v) :: ms) a
  | take {seen : List String} {acc a : σ} {k : String} {v : List Char}
      {ms : List (String × List Char)} {f : Field σ} {put : σ → σ}
      (known : form.fields.find? (·.name == k) = some f) (fresh : f.name ∉ seen)
      (read : f.read.run v = .ok (put, [])) (rest : Takes form (f.name :: seen) (put acc) ms a) :
      Takes form seen acc ((k, v) :: ms) a

inductive Fills : List (Field σ) → σ → List (List Char) → σ → Prop
  | done {fields : List (Field σ)} {a : σ} (optional : ∀ f ∈ fields, f.presence = .optional) :
      Fills fields a [] a
  | take {f : Field σ} {fields : List (Field σ)} {acc a : σ} {put : σ → σ} {v : List Char}
      {vs : List (List Char)} (read : f.read.run v = .ok (put, []))
      (rest : Fills fields (put acc) vs a) : Fills (f :: fields) acc (v :: vs) a

variable {form : Record σ} {first : Bool} {seen : List String} {acc a : σ} {s t u v r : List Char}
  {raw : List (List Char × List Char)} {ms : List (String × List Char)}

theorem takes_nil_iff : form.Takes seen acc [] a ↔ form.missing? seen = none ∧ acc = a := by
  constructor
  · rintro ⟨complete⟩
    exact ⟨complete, rfl⟩
  · rintro ⟨complete, rfl⟩
    exact .done complete

theorem takes_cons_iff {k : String} {f : Field σ}
    (known : form.fields.find? (·.name == k) = some f) :
    form.Takes seen acc ((k, v) :: ms) a ↔
      f.name ∉ seen ∧ ∃ put, f.read.run v = .ok (put, []) ∧
        form.Takes (f.name :: seen) (put acc) ms a := by
  constructor
  · intro h
    cases h with
    | pass unknown =>
      rw [known] at unknown
      cases unknown
    | take known' fresh read rest =>
      rw [known] at known'
      cases known'
      exact ⟨fresh, _, read, rest⟩
  · rintro ⟨fresh, put, read, rest⟩
    exact .take known fresh read rest

theorem takes_cons_unknown_iff {k : String}
    (unknown : form.fields.find? (·.name == k) = none) :
    form.Takes seen acc ((k, v) :: ms) a ↔ form.Takes seen acc ms a := by
  constructor
  · intro h
    cases h with
    | pass _ rest => exact rest
    | take known =>
      rw [unknown] at known
      cases known
  · exact .pass unknown

theorem takes_append_cons_iff {k : String} {x : List Char}
    (unknown : form.fields.find? (·.name == k) = none) (front back : List (String × List Char)) :
    form.Takes seen acc (front ++ (k, x) :: back) a ↔ form.Takes seen acc (front ++ back) a := by
  induction front generalizing seen acc with
  | nil => exact takes_cons_unknown_iff unknown
  | cons m front ih =>
    obtain ⟨l, v⟩ := m
    rw [List.cons_append, List.cons_append]
    cases found : form.fields.find? (·.name == l) with
    | none => rw [takes_cons_unknown_iff found, takes_cons_unknown_iff found, ih]
    | some f => simp only [takes_cons_iff found, ih]

theorem takes_replaced_iff {k : String} {x x' : List Char}
    (same : ∀ f, form.fields.find? (·.name == k) = some f →
      ∀ put, f.read.run x' = .ok (put, []) ↔ f.read.run x = .ok (put, []))
    (front back : List (String × List Char)) :
    form.Takes seen acc (front ++ (k, x') :: back) a ↔
      form.Takes seen acc (front ++ (k, x) :: back) a := by
  induction front generalizing seen acc with
  | nil =>
    rw [List.nil_append, List.nil_append]
    cases found : form.fields.find? (·.name == k) with
    | none => rw [takes_cons_unknown_iff found, takes_cons_unknown_iff found]
    | some f => simp only [takes_cons_iff found, same f found]
  | cons m front ih =>
    obtain ⟨l, v⟩ := m
    rw [List.cons_append, List.cons_append]
    cases found : form.fields.find? (·.name == l) with
    | none => rw [takes_cons_unknown_iff found, takes_cons_unknown_iff found, ih]
    | some f => simp only [takes_cons_iff found, ih]

theorem fills_nil_iff {fields : List (Field σ)} :
    Fills fields acc [] a ↔ (∀ f ∈ fields, f.presence = .optional) ∧ acc = a := by
  constructor
  · rintro ⟨optional⟩
    exact ⟨optional, rfl⟩
  · rintro ⟨optional, rfl⟩
    exact .done optional

theorem fills_cons_iff {f : Field σ} {fields : List (Field σ)} {vs : List (List Char)} :
    Fills (f :: fields) acc (v :: vs) a ↔
      ∃ put, f.read.run v = .ok (put, []) ∧ Fills fields (put acc) vs a := by
  constructor
  · intro h
    cases h with
    | take read rest => exact ⟨_, read, rest⟩
  · rintro ⟨put, read, rest⟩
    exact .take read rest

theorem not_fills_nil_cons {vs : List (List Char)} : ¬Fills [] acc (v :: vs) a := nofun

theorem readMembers_last_iff (next : nextMember first s = .ok (.last t)) :
    form.readMembers first seen acc s = .ok (a, r) ↔
      form.missing? seen = none ∧ acc = a ∧ t = r := by
  rw [readMembers]
  grind

theorem readMembers_more_iff (next : nextMember first s = .ok (.more t)) :
    form.readMembers first seen acc s = .ok (a, r) ↔
      ∃ key u v, string t = .ok (key, u) ∧ colon u = .ok v ∧
        (form.fields.find? (·.name == String.ofList key) = none ∧
            (∃ w, skip v = .ok w ∧ form.readMembers false seen acc w = .ok (a, r)) ∨
          ∃ f put w, form.fields.find? (·.name == String.ofList key) = some f ∧ f.name ∉ seen ∧
            f.read.run v = .ok (put, w) ∧
            form.readMembers false (f.name :: seen) (put acc) w = .ok (a, r)) := by
  constructor
  · intro h
    rw [readMembers] at h
    split at h
    · cases h
    · rename_i last
      rw [next] at last
      cases last
    · rename_i more
      rw [next] at more
      cases more
      split at h
      · cases h
      · split at h
        · split at h
          · cases h
          · split at h
            · cases h
            · exact ⟨_, _, _, ‹_›, ‹_›, .inl ⟨‹_›, _, ‹_›, h⟩⟩
        · split at h
          · cases h
          · rename_i fresh
            split at h
            · cases h
            · split at h
              · cases h
              · exact ⟨_, _, _, ‹_›, ‹_›, .inr ⟨_, _, _, ‹_›, by simpa using fresh, ‹_›, h⟩⟩
  · rintro ⟨key, u, v, named, colon, ⟨unknown, w, passed, h⟩ | ⟨f, put, w, known, fresh, read, h⟩⟩
    · rw [readMembers]
      grind
    · rw [readMembers]
      grind

theorem find?_mem_exact {f : Field σ} {k : String} (exact : ∀ f ∈ form.fields, f.read.Exact)
    (known : form.fields.find? (·.name == k) = some f) : f.read.Exact :=
  exact f (List.mem_of_find?_eq_some known)

theorem readMembers_eq_ok_iff (exact : ∀ f ∈ form.fields, f.read.Exact)
    (map : Derives (.members first raw) s) :
    form.readMembers first seen acc (s ++ t) = .ok (a, r) ↔
      r = t ∧ ∃ ms, Named raw ms ∧ form.Takes seen acc ms a := by
  induction raw generalizing first seen acc s with
  | nil =>
    cases map with
    | lastMember spaces =>
      rw [List.append_assoc, List.singleton_append, readMembers_last_iff (spaces.nextMember t)]
      constructor
      · rintro ⟨complete, rfl, rfl⟩
        exact ⟨rfl, [], .nil, .done complete⟩
      · rintro ⟨rfl, _, ⟨⟩, ⟨complete⟩⟩
        exact ⟨complete, rfl, rfl⟩
  | cons m raw ih =>
    cases map with
    | @member _ w q x y v s raw lead name before behind value rest =>
      have ends := endsNumber_of_members rest t
      have colon := before.colon (y ++ (v ++ (s ++ t)))
      have passed : skip (y ++ (v ++ (s ++ t))) = .ok (s ++ t) := by
        have spaces : skip (y ++ (v ++ (s ++ t))) = skip (v ++ (s ++ t)) := by
          rw [skip, skip, ← skipFrom_skipSpace, behind.skipSpace_value value]
        rw [spaces, IsValue.skip value ends]
      rw [member_append, readMembers_more_iff (lead.nextMember _)]
      constructor
      · rintro ⟨key, _, _, named, colon', taken⟩
        obtain ⟨rfl, spelt⟩ := name.string_append_iff.1 named
        rw [colon] at colon'
        cases colon'
        have spells : Spells ('"' :: q) (String.ofList key) := spells_iff.2 (by simpa using spelt)
        obtain ⟨unknown, _, passed', h⟩ | ⟨f, put, _, known, fresh, read, h⟩ := taken
        · rw [passed] at passed'
          cases passed'
          obtain ⟨rfl, ms, names, takes⟩ := (ih rest).1 h
          exact ⟨rfl, _, .cons ⟨spells, rfl⟩ names, .pass unknown takes⟩
        · have whole := find?_mem_exact exact known
          rw [whole.run_spaces behind] at read
          obtain ⟨rfl, here⟩ := (whole.run_append_iff value ends).1 read
          obtain ⟨rfl, ms, names, takes⟩ := (ih rest).1 h
          exact ⟨rfl, _, .cons ⟨spells, rfl⟩ names, .take known fresh here takes⟩
      · rintro ⟨rfl, _, names, takes⟩
        cases names with
        | @cons _ m _ ms here names =>
          obtain ⟨k, v'⟩ := m
          obtain ⟨spells, rfl⟩ := here
          refine ⟨k.toList, _, _, name.string_append_iff.2 ⟨rfl, spells_iff.1 spells⟩, colon, ?_⟩
          rw [String.ofList_toList]
          cases takes with
          | pass unknown takes =>
            exact .inl ⟨unknown, _, passed, (ih rest).2 ⟨rfl, ms, names, takes⟩⟩
          | take known fresh read takes =>
            have whole := find?_mem_exact exact known
            refine .inr ⟨_, _, s ++ r, known, fresh, ?_, (ih rest).2 ⟨rfl, ms, names, takes⟩⟩
            rw [whole.run_spaces behind]
            exact (whole.run_append_iff value ends).2 ⟨rfl, read⟩

theorem closeList_of_nextItem (next : nextItem first s = .ok (.last r)) : closeList s = .ok r := by
  unfold nextItem at next
  unfold closeList
  grind

theorem closeList_ne_ok_of_nextItem (next : nextItem first s = .ok (.more t)) :
    closeList s ≠ .ok r := by
  unfold nextItem at next
  unfold closeList
  grind

theorem readItems_last_iff {index : Nat} {fields : List (Field σ)}
    (next : nextItem (index == 0) s = .ok (.last t)) :
    form.readItems index fields acc s = .ok (a, r) ↔
      (∀ f ∈ fields, f.presence = .optional) ∧ acc = a ∧ t = r := by
  cases fields with
  | nil => simp [readItems, closeList_of_nextItem next, liftFault, Except.map]
  | cons f fields =>
    have optional : (f :: fields).findIdx? (·.presence != .optional) = none ↔
        ∀ g ∈ f :: fields, g.presence = .optional := by simp
    rw [readItems, ← optional]
    simp only [next]
    cases (f :: fields).findIdx? (·.presence != .optional) <;> simp

theorem readItems_more_iff {index : Nat} {f : Field σ} {fields : List (Field σ)}
    (next : nextItem (index == 0) s = .ok (.more t)) :
    form.readItems index (f :: fields) acc s = .ok (a, r) ↔
      ∃ put u, f.read.run t = .ok (put, u) ∧
        form.readItems (index + 1) fields (put acc) u = .ok (a, r) := by
  rw [readItems]
  simp only [next]
  cases f.read.run t with
  | error e => simp
  | ok p => simp [Prod.ext_iff, and_assoc]

theorem readItems_eq_ok_iff {index : Nat} {fields : List (Field σ)} {vs : List (List Char)}
    (exact : ∀ f ∈ fields, f.read.Exact) (list : Derives (.items (index == 0) vs) s) :
    form.readItems index fields acc (s ++ t) = .ok (a, r) ↔ r = t ∧ Fills fields acc vs a := by
  induction vs generalizing index fields acc s with
  | nil =>
    cases list with
    | lastItem spaces =>
      rw [List.append_assoc, List.singleton_append, readItems_last_iff (spaces.nextItem t)]
      constructor
      · rintro ⟨optional, rfl, rfl⟩
        exact ⟨rfl, .done optional⟩
      · rintro ⟨rfl, ⟨optional⟩⟩
        exact ⟨optional, rfl, rfl⟩
  | cons v vs ih =>
    cases list with
    | @item _ w v s vs lead value rest =>
      have ends := endsNumber_of_items rest t
      have next := lead.nextItem (IsValue.opens value (s ++ t))
      rw [List.append_assoc, List.append_assoc]
      cases fields with
      | nil =>
        refine iff_of_false (fun h => ?_) (fun ⟨_, h⟩ => nomatch h)
        obtain ⟨u, closed, -⟩ := Except.map_eq_ok_iff.1 h
        exact closeList_ne_ok_of_nextItem next (liftFault_eq_ok.1 closed)
      | cons f fields =>
        obtain ⟨whole, others⟩ := List.forall_mem_cons.1 exact
        have behind : Derives (.items (index + 1 == 0) vs) s := rest
        rw [readItems_more_iff next]
        constructor
        · rintro ⟨put, _, read, h⟩
          obtain ⟨rfl, here⟩ := (whole.run_append_iff value ends).1 read
          obtain ⟨rfl, fills⟩ := (ih others behind).1 h
          exact ⟨rfl, .take here fills⟩
        · rintro ⟨rfl, fills⟩
          cases fills with
          | take here fills =>
            exact ⟨_, _, (whole.run_append_iff value ends).2 ⟨rfl, here⟩,
              (ih others behind).2 ⟨rfl, fills⟩⟩

section Run

variable (exact : ∀ f ∈ form.fields, f.read.Exact) {vs : List (List Char)}
include exact

theorem run_append_object_iff (h : IsObject v raw) :
    form.run (v ++ t) = .ok (a, r) ↔
      r = t ∧ ∃ ms, Named raw ms ∧ form.Takes [] form.start ms a := by
  obtain ⟨u, rfl, map⟩ := h
  change form.readMembers true [] form.start (u ++ t) = _ ↔ _
  exact readMembers_eq_ok_iff exact map

theorem run_append_list_iff (h : IsList v vs) :
    form.run (v ++ t) = .ok (a, r) ↔ r = t ∧ Fills form.fields form.start vs a := by
  obtain ⟨u, rfl, list⟩ := h
  change form.readItems 0 form.fields form.start (u ++ t) = _ ↔ _
  exact readItems_eq_ok_iff exact list

theorem run_append_iff (h : IsValue v) :
    form.run (v ++ t) = .ok (a, t) ↔
      (∃ ms, IsMap v ms ∧ form.Takes [] form.start ms a) ∨
        ∃ vs, IsList v vs ∧ Fills form.fields form.start vs a := by
  constructor
  · intro read
    obtain ⟨c, u, rfl⟩ := h.exists_cons
    have opened := h.skipSpace t
    unfold run at read
    rw [opened, List.cons_append] at read
    split at read
    · rename_i front
      cases front
      obtain ⟨vs, list⟩ := h.of_head.2.1 rfl
      exact .inr ⟨vs, ⟨u, rfl, list⟩, ((run_append_list_iff exact ⟨u, rfl, list⟩).1 read).2⟩
    · rename_i front
      cases front
      obtain ⟨raw, map⟩ := h.of_head.2.2.1 rfl
      obtain ⟨-, ms, named, takes⟩ := (readMembers_eq_ok_iff exact map).1 read
      exact .inl ⟨ms, ⟨raw, ⟨u, rfl, map⟩, named⟩, takes⟩
    · cases read
  · rintro (⟨ms, ⟨raw, object, named⟩, takes⟩ | ⟨vs, list, fills⟩)
    · exact (run_append_object_iff exact object).2 ⟨rfl, ms, named, takes⟩
    · exact (run_append_list_iff exact list).2 ⟨rfl, fills⟩

theorem exact_reader : form.reader.Exact :=
  Reader.exact_of_iff (passes_reader fun f hf => (exact f hf).passes) (run_skipSpace form)
    fun value _ => run_append_iff exact value

theorem run_object_iff (h : IsObject v raw) :
    form.reader.run v = .ok (a, []) ↔ ∃ ms, Named raw ms ∧ form.Takes [] form.start ms a := by
  have read := run_append_object_iff exact h (a := a) (t := []) (r := [])
  rw [List.append_nil] at read
  exact read.trans (and_iff_right rfl)

theorem run_list_iff (h : IsList v vs) :
    form.reader.run v = .ok (a, []) ↔ Fills form.fields form.start vs a := by
  have read := run_append_list_iff exact h (a := a) (t := []) (r := [])
  rw [List.append_nil] at read
  exact read.trans (and_iff_right rfl)

theorem run_added_iff {v' n x : List Char} {k : String} {front back : List (List Char × List Char)}
    (h : IsObject v (front ++ back)) (h' : IsObject v' (front ++ (n, x) :: back))
    (spells : Spells n k) (unknown : form.fields.find? (·.name == k) = none) :
    form.reader.run v' = .ok (a, []) ↔ form.reader.run v = .ok (a, []) := by
  rw [run_object_iff exact h, run_object_iff exact h']
  constructor
  · rintro ⟨ms, named, takes⟩
    obtain ⟨ms, ⟨l, x⟩, ms', rfl, front, ⟨spelt, rfl⟩, back⟩ := forall₂_append_cons_iff.1 named
    obtain rfl := spells.unique spelt
    exact ⟨ms ++ ms', forall₂_append_iff.2 ⟨ms, ms', rfl, front, back⟩,
      (takes_append_cons_iff unknown ms ms').1 takes⟩
  · rintro ⟨ms, named, takes⟩
    obtain ⟨ms, ms', rfl, front, back⟩ := forall₂_append_iff.1 named
    exact ⟨ms ++ (k, x) :: ms',
      forall₂_append_cons_iff.2 ⟨ms, (k, x), ms', rfl, front, ⟨spells, rfl⟩, back⟩,
      (takes_append_cons_iff unknown ms ms').2 takes⟩

theorem run_replaced_iff {v' n x x' : List Char} {k : String}
    {front back : List (List Char × List Char)} (h : IsObject v (front ++ (n, x) :: back))
    (h' : IsObject v' (front ++ (n, x') :: back)) (spells : Spells n k)
    (same : ∀ f, form.fields.find? (·.name == k) = some f →
      ∀ put, f.read.run x' = .ok (put, []) ↔ f.read.run x = .ok (put, [])) :
    form.reader.run v' = .ok (a, []) ↔ form.reader.run v = .ok (a, []) := by
  rw [run_object_iff exact h, run_object_iff exact h']
  constructor
  · rintro ⟨ms, named, takes⟩
    obtain ⟨ms, ⟨l, _⟩, ms', rfl, front, ⟨spelt, rfl⟩, back⟩ := forall₂_append_cons_iff.1 named
    obtain rfl := spells.unique spelt
    exact ⟨ms ++ (k, x) :: ms',
      forall₂_append_cons_iff.2 ⟨ms, (k, x), ms', rfl, front, ⟨spells, rfl⟩, back⟩,
      (takes_replaced_iff same ms ms').1 takes⟩
  · rintro ⟨ms, named, takes⟩
    obtain ⟨ms, ⟨l, _⟩, ms', rfl, front, ⟨spelt, rfl⟩, back⟩ := forall₂_append_cons_iff.1 named
    obtain rfl := spells.unique spelt
    exact ⟨ms ++ (k, x') :: ms',
      forall₂_append_cons_iff.2 ⟨ms, (k, x'), ms', rfl, front, ⟨spells, rfl⟩, back⟩,
      (takes_replaced_iff same ms ms').2 takes⟩

end Run

end Record

section Rendering

variable {n : List Char} {k : String} {js : List Json}

theorem Spells.isValue (h : Spells n k) : IsValue n := by
  obtain ⟨q, rfl, read⟩ := h
  obtain ⟨q, rfl, quoted⟩ := exists_isQuoted_of_skipString (skipString_of_string read)
  rw [List.append_nil]
  exact .string quoted

theorem spells_renderString (s : String) : Spells (renderString s) s := by
  obtain ⟨t, written, read⟩ := string_renderString s []
  rw [List.append_nil] at written
  exact ⟨t, written, read⟩

theorem derives_renderItems (h : ∀ j ∈ js, IsValue j.render) :
    Derives (.items false (js.map render)) (renderItems js) := by
  induction js with
  | nil => exact .lastItem spaces_nil
  | cons j js ih =>
    obtain ⟨value, values⟩ := List.forall_mem_cons.1 h
    exact .item (.comma spaces_nil spaces_nil) value (ih values)

theorem isList_render (h : ∀ j ∈ js, IsValue j.render) :
    IsList (Json.list js).render (js.map render) := by
  cases js with
  | nil => exact ⟨_, rfl, .lastItem spaces_nil⟩
  | cons j js =>
    obtain ⟨value, values⟩ := List.forall_mem_cons.1 h
    exact ⟨_, rfl, .item (.first spaces_nil) value (derives_renderItems values)⟩

theorem exists_isQuoted_renderString (s : String) :
    ∃ q, renderString s = '"' :: q ∧ IsQuoted q := by
  obtain ⟨q, written, read⟩ := spells_renderString s
  obtain ⟨q, rfl, quoted⟩ := exists_isQuoted_of_skipString (skipString_of_string read)
  rw [List.append_nil] at written
  exact ⟨q, written, quoted⟩

def rawMembers (ms : List (String × Json)) : List (List Char × List Char) :=
  ms.map fun m => (renderString m.1, m.2.render)

theorem derives_renderMembers {ms : List (String × Json)} (h : ∀ m ∈ ms, IsValue m.2.render) :
    Derives (.members false (rawMembers ms)) (renderMembers ms) := by
  induction ms with
  | nil => exact .lastMember spaces_nil
  | cons m ms ih =>
    obtain ⟨k, j⟩ := m
    obtain ⟨value, values⟩ := List.forall_mem_cons.1 h
    obtain ⟨q, written, quoted⟩ := exists_isQuoted_renderString k
    rw [rawMembers, List.map_cons, renderMembers, written]
    exact .member (.comma spaces_nil spaces_nil) quoted spaces_nil spaces_nil value (ih values)

theorem isObject_render {ms : List (String × Json)} (h : ∀ m ∈ ms, IsValue m.2.render) :
    IsObject (Json.map ms).render (rawMembers ms) := by
  cases ms with
  | nil => exact ⟨_, rfl, .lastMember spaces_nil⟩
  | cons m ms =>
    obtain ⟨k, j⟩ := m
    obtain ⟨value, values⟩ := List.forall_mem_cons.1 h
    obtain ⟨q, written, quoted⟩ := exists_isQuoted_renderString k
    refine ⟨_, rfl, ?_⟩
    rw [rawMembers, List.map_cons, written]
    exact .member (.first spaces_nil) quoted spaces_nil spaces_nil value
      (derives_renderMembers values)

theorem isMap_render {ms : List (String × Json)} (h : ∀ m ∈ ms, IsValue m.2.render) :
    IsMap (Json.map ms).render (ms.map fun m => (m.1, m.2.render)) :=
  ⟨rawMembers ms, isObject_render h, by simp [rawMembers, spells_renderString]⟩

theorem wraps_text {j : Json} (value : IsValue j.render) : Wraps j.text.toList j.render :=
  ⟨[], [], by simp, spaces_nil, spaces_nil, value⟩

end Rendering

end ScmPlugins.Json
