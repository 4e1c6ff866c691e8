import ScmPlugins.Proofs.Json.Limits

namespace ScmPlugins.Json

/-- So many lists and maps stand in one another, however the text writes them. -/
inductive Nests : Nat → List Char → Prop
  | list {v : List Char} {vs : List (List Char)} (h : IsList v vs) : Nests 1 v
  | object {v : List Char} {raw : List (List Char × List Char)} (h : IsObject v raw) : Nests 1 v
  | item {n : Nat} {v u : List Char} {vs : List (List Char)} (list : IsList v vs) (mem : u ∈ vs)
      (inner : Nests n u) : Nests (n + 1) v
  | member {n : Nat} {v : List Char} {raw : List (List Char × List Char)}
      {m : List Char × List Char} (object : IsObject v raw) (mem : m ∈ raw)
      (inner : Nests n m.2) : Nests (n + 1) v

section Steps

variable {ε α : Type} {lift : Fault → ε} {item : Reader ε α} {first : Bool} {s t u w : List Char}
  {e : ε}

theorem items_of_fault (h : nextItem first s = .ok (.more t)) (ha : item.run t = .error e) :
    items lift item first s = .error e := by
  rw [items]
  grind

theorem members_of_fault {key : List Char} (h : nextMember first s = .ok (.more t))
    (hk : string t = .ok (key, u)) (hc : colon u = .ok w) (ha : item.run w = .error e) :
    members lift item first s = .error e := by
  rw [members]
  grind

end Steps

section Renderings

variable {depth : Nat}

def TooDeep (depth : Nat) (j : Json) : Prop :=
  ∀ r, EndsNumber r → (value depth).run (j.render ++ r) = .error .tooDeep

theorem items_of_deep {first : Bool} {j : Json} {js : List Json} {s r : List Char}
    (plain : ∀ i ∈ j :: js, Plain i) (deep : depth < depthItems (j :: js))
    (refused : ∀ i ∈ j :: js, depth < i.depth → TooDeep depth i)
    (next : nextItem first s = .ok (.more (j.render ++ (renderItems js ++ r)))) :
    items id (value depth) first s = .error .tooDeep := by
  induction js generalizing first j s with
  | nil =>
    have here : depth < j.depth := by simpa [depthItems] using deep
    exact items_of_fault next (refused j (by simp) here _ (endsNumber_renderItems [] r))
  | cons i js ih =>
    by_cases here : depth < j.depth
    · exact items_of_fault next (refused j (by simp) here _ (endsNumber_renderItems (i :: js) r))
    · have read := (plain j (by simp)).readsBack (Nat.le_of_not_lt here) _
        (endsNumber_renderItems (i :: js) r)
      have later : depth < depthItems (i :: js) := by
        rw [depthItems] at deep
        omega
      obtain ⟨-, plain⟩ := List.forall_mem_cons.1 plain
      obtain ⟨-, refused⟩ := List.forall_mem_cons.1 refused
      have next' := nextItem_false_of_opens
        ((plain i (by simp)).opens_render (renderItems js ++ r))
      have rest : items id (value depth) false (renderItems (i :: js) ++ r) = .error .tooDeep := by
        rw [renderItems, List.cons_append, List.append_assoc]
        exact ih plain later refused next'
      rw [items_of_more next read, rest]
      rfl

theorem members_of_deep {first : Bool} {k : String} {j : Json} {ms : List (String × Json)}
    {s t r : List Char} (plain : ∀ m ∈ (k, j) :: ms, Plain m.2)
    (deep : depth < depthMembers ((k, j) :: ms))
    (refused : ∀ m ∈ (k, j) :: ms, depth < m.2.depth → TooDeep depth m.2)
    (next : nextMember first s = .ok (.more t))
    (name : string t = .ok (k.toList, ':' :: (j.render ++ (renderMembers ms ++ r)))) :
    members id (value depth) first s = .error .tooDeep := by
  induction ms generalizing first k j s t with
  | nil =>
    have here : depth < j.depth := by simpa [depthMembers] using deep
    exact members_of_fault next name rfl
      (refused (k, j) (by simp) here _ (endsNumber_renderMembers [] r))
  | cons m ms ih =>
    obtain ⟨l, i⟩ := m
    by_cases here : depth < j.depth
    · exact members_of_fault next name rfl
        (refused (k, j) (by simp) here _ (endsNumber_renderMembers ((l, i) :: ms) r))
    · have read := (plain (k, j) (by simp)).readsBack (Nat.le_of_not_lt here) _
        (endsNumber_renderMembers ((l, i) :: ms) r)
      have later : depth < depthMembers ((l, i) :: ms) := by
        rw [depthMembers] at deep
        omega
      obtain ⟨u, written, name'⟩ :=
        string_renderString l (':' :: (i.render ++ (renderMembers ms ++ r)))
      have rest : members id (value depth) false (renderMembers ((l, i) :: ms) ++ r) =
          .error .tooDeep := by
        simp only [renderMembers, List.cons_append, List.append_assoc]
        rw [written]
        exact ih (List.forall_mem_cons.1 plain).2 later (List.forall_mem_cons.1 refused).2 rfl name'
      rw [members_of_more next name rfl read, rest]
      rfl

theorem Plain.tooDeep {j : Json} (h : Plain j) (deep : depth < j.depth) : TooDeep depth j := by
  -- What stands inside is read with one level less, so the depth varies along the document.
  induction h generalizing depth with
  | null | bool | int | str => simp [Json.depth] at deep
  | @list items plain ih =>
    intro r _
    cases items with
    | nil =>
      obtain rfl : depth = 0 := by simpa [Json.depth, depthItems] using deep
      exact run_value_zero_list _
    | cons j js =>
      obtain _ | depth := depth
      · exact run_value_zero_list _
      have next := nextItem_true_of_opens ((plain j (by simp)).opens_render (renderItems js ++ r))
      rw [render, List.cons_append, List.append_assoc, run_value_list,
        items_of_deep plain (Nat.lt_of_succ_lt_succ deep) (fun i hi => ih i hi) next]
      rfl
  | @map members plain ih =>
    intro r _
    cases members with
    | nil =>
      obtain rfl : depth = 0 := by simpa [Json.depth, depthMembers] using deep
      exact run_value_zero_map _
    | cons m ms =>
      obtain ⟨key, j⟩ := m
      obtain _ | depth := depth
      · exact run_value_zero_map _
      obtain ⟨t, written, name⟩ :=
        string_renderString key (':' :: (j.render ++ (renderMembers ms ++ r)))
      simp only [render, List.cons_append, List.append_assoc]
      rw [written, run_value_map,
        members_of_deep plain (Nat.lt_of_succ_lt_succ deep) (fun m hm => ih m hm) rfl name]
      rfl

theorem parse_text_of_deep {j : Json} (h : Plain j) (deep : maxDepth < j.depth) :
    parse j.text = .error .tooDeep := by
  have refused := h.tooDeep deep [] endsNumber_nil
  rw [List.append_nil] at refused
  rw [parse, toList_text, parseChars, refused]

end Renderings

section Texts

variable {depth n : Nat} {v : List Char} {j : Json}

theorem Nests.not_run_value_zero (h : Nests n v) : (value 0).run v ≠ .ok (j, []) := by
  cases h with
  | list list | item list =>
    obtain ⟨u, rfl, -⟩ := list
    rw [run_value_zero_list]
    nofun
  | object object | member object =>
    obtain ⟨u, rfl, -⟩ := object
    rw [run_value_zero_map]
    nofun

theorem exists_run_of_mem_object {raw : List (List Char × List Char)} (h : IsObject v raw)
    (read : (value (depth + 1)).run v = .ok (j, [])) {m : List Char × List Char} (mem : m ∈ raw) :
    ∃ k, (value depth).run m.2 = .ok (k, []) := by
  obtain ⟨s, rfl, members⟩ := h
  rw [run_value_map, Except.map_eq_ok_iff] at read
  obtain ⟨⟨as, _⟩, found, ⟨⟩⟩ := read
  rw [← List.append_nil s, (exact_value depth).members_iff members] at found
  obtain ⟨a, -, here⟩ := exists_forall₂_iff.1 ⟨as, found.2⟩ m mem
  exact ⟨a.2, here⟩

theorem Nests.le_of_run (h : Nests n v) (read : (value depth).run v = .ok (j, [])) : n ≤ depth := by
  induction depth generalizing n v j with
  | zero => exact absurd read h.not_run_value_zero
  | succ depth ih =>
    cases h with
    | list | object => exact Nat.succ_pos depth
    | item list mem inner =>
      obtain ⟨k, read⟩ := (exists_run_list_iff list).1 ⟨j, read⟩ _ mem
      exact Nat.succ_le_succ (ih inner read)
    | member object mem inner =>
      obtain ⟨k, read⟩ := exists_run_of_mem_object object read mem
      exact Nat.succ_le_succ (ih inner read)

theorem Nests.not_parse {s : String} (h : Nests n v) (deep : maxDepth < n)
    (wraps : Wraps s.toList v) : parse s ≠ .ok j := by
  intro parsed
  obtain ⟨u, wraps', read⟩ := parse_eq_ok_iff_wraps.1 parsed
  obtain rfl := wraps.unique wraps'
  exact Nat.not_le_of_lt deep (h.le_of_run read)

end Texts

section Grammar

variable {j : Json}

theorem Plain.isValue_render (h : Plain j) : IsValue j.render := by
  induction h with
  | null => exact .word (by simp [render])
  | bool b => cases b <;> exact .word (by simp [render])
  | @int n =>
    obtain ⟨u, split, number⟩ :=
      exists_isNumber_of_scan (Literal.scan_renderInt .invalidNumber n endsNumber_nil)
    rw [List.append_nil, List.append_nil] at split
    rw [render, split]
    exact .number number
  | str s => exact (spells_renderString s).isValue
  | list _ ih => exact (isList_render ih).isValue
  | map _ ih => exact (isMap_render ih).isValue

theorem exists_depth_eq_depthItems {items : List Json} (h : 0 < depthItems items) :
    ∃ i ∈ items, i.depth = depthItems items := by
  have attained : ¬∀ i ∈ items, i.depth ≤ depthItems items - 1 := by
    rw [← depthItems_le_iff]
    omega
  simp only [not_forall] at attained
  obtain ⟨i, mem, least⟩ := attained
  have most := depthItems_le_iff.1 (Nat.le_refl (depthItems items)) i mem
  exact ⟨i, mem, by omega⟩

theorem depthMembers_eq (members : List (String × Json)) :
    depthMembers members = depthItems (members.map (·.2)) := by
  induction members with
  | nil => rfl
  | cons m ms ih => rw [depthMembers, ih, List.map_cons, depthItems]

theorem exists_depth_eq_depthMembers {members : List (String × Json)}
    (h : 0 < depthMembers members) : ∃ m ∈ members, m.2.depth = depthMembers members := by
  rw [depthMembers_eq] at h ⊢
  obtain ⟨_, value, most⟩ := exists_depth_eq_depthItems h
  obtain ⟨m, mem, rfl⟩ := List.mem_map.1 value
  exact ⟨m, mem, most⟩

theorem Plain.nests_render (h : Plain j) (deep : 0 < j.depth) : Nests j.depth j.render := by
  induction h with
  | null | bool | int | str => simp [depth] at deep
  | @list items plain ih =>
    have list := isList_render fun i hi => (plain i hi).isValue_render
    by_cases flat : depthItems items = 0
    · rw [depth, flat]
      exact .list list
    · obtain ⟨i, mem, most⟩ := exists_depth_eq_depthItems (Nat.pos_of_ne_zero flat)
      rw [depth, ← most]
      exact .item list (List.mem_map_of_mem mem) (ih i mem (by omega))
  | @map members plain ih =>
    have object := isObject_render fun m hm => (plain m hm).isValue_render
    by_cases flat : depthMembers members = 0
    · rw [depth, flat]
      exact .object object
    · obtain ⟨m, mem, most⟩ := exists_depth_eq_depthMembers (Nat.pos_of_ne_zero flat)
      rw [depth, ← most]
      exact .member object (List.mem_map_of_mem mem) (ih m mem (by omega))

end Grammar

end ScmPlugins.Json
