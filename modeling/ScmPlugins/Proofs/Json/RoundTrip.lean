import ScmPlugins.Proofs.Json.Scalars

namespace ScmPlugins.Json

section Steps

variable {ε α : Type} {lift : Fault → ε} {item : Reader ε α} {first : Bool} {s t u r : List Char}

theorem items_of_last (h : nextItem first s = .ok (.last r)) :
    items lift item first s = .ok ([], r) := by
  rw [items]
  grind

theorem items_of_more {a : α} (h : nextItem first s = .ok (.more t))
    (ha : item.run t = .ok (a, u)) :
    items lift item first s = (items lift item false u).map fun (as, r) => (a :: as, r) := by
  rw [items]
  grind [Except.map]

theorem members_of_last (h : nextMember first s = .ok (.last r)) :
    members lift item first s = .ok ([], r) := by
  rw [members]
  grind

theorem members_of_more {key : List Char} {v w : List Char} {a : α}
    (h : nextMember first s = .ok (.more t)) (hk : string t = .ok (key, u))
    (hc : colon u = .ok v) (ha : item.run v = .ok (a, w)) :
    members lift item first s =
      (members lift item false w).map fun (as, r) => ((String.ofList key, a) :: as, r) := by
  rw [members]
  grind [Except.map]

end Steps

/-- Documents whose text tells all about them: no real numbers, and whole ones of 64 bits. -/
inductive Plain : Json → Prop
  | null : Plain .null
  | bool (b : Bool) : Plain (.bool b)
  | int {n : Int} : IsWhole n → Plain (.int n)
  | str (s : String) : Plain (.str s)
  | list {items : List Json} : (∀ j ∈ items, Plain j) → Plain (.list items)
  | map {members : List (String × Json)} : (∀ m ∈ members, Plain m.2) → Plain (.map members)

theorem depthItems_le_iff {items : List Json} {n : Nat} :
    depthItems items ≤ n ↔ ∀ j ∈ items, j.depth ≤ n := by
  induction items with
  | nil => simp [depthItems]
  | cons a r ih => rw [depthItems, Nat.max_le, ih, List.forall_mem_cons]

theorem depthMembers_le_iff {members : List (String × Json)} {n : Nat} :
    depthMembers members ≤ n ↔ ∀ m ∈ members, m.2.depth ≤ n := by
  induction members with
  | nil => simp [depthMembers]
  | cons a r ih => rw [depthMembers, Nat.max_le, ih, List.forall_mem_cons]

@[simp] theorem depth_str (s : String) : (Json.str s).depth = 0 := rfl

theorem depth_list_le {items : List Json} {n : Nat} (h : ∀ j ∈ items, j.depth ≤ n) :
    (Json.list items).depth ≤ n + 1 := Nat.succ_le_succ (depthItems_le_iff.2 h)

theorem depth_map_le {members : List (String × Json)} {n : Nat} (h : ∀ m ∈ members, m.2.depth ≤ n) :
    (Json.map members).depth ≤ n + 1 := Nat.succ_le_succ (depthMembers_le_iff.2 h)

def Opens (s : List Char) : Prop := ∃ c t, s = c :: t ∧ isSpace c = false ∧ c ≠ ']'

theorem skipSpace_cons {c : Char} (h : isSpace c = false) (r : List Char) :
    skipSpace (c :: r) = c :: r := by
  simp [skipSpace, h]

theorem nextItem_true_of_opens {s : List Char} (h : Opens s) : nextItem true s = .ok (.more s) := by
  obtain ⟨c, t, rfl, space, bracket⟩ := h
  rw [nextItem, skipSpace_cons space]
  grind

theorem nextItem_false_of_opens {s : List Char} (h : Opens s) :
    nextItem false (',' :: s) = .ok (.more s) := by
  obtain ⟨c, t, rfl, space, bracket⟩ := h
  rw [nextItem, show skipSpace (',' :: c :: t) = ',' :: c :: t from rfl]
  grind [skipSpace_cons]

theorem opens_of_isDigit {c : Char} (h : c.isDigit = true) (r : List Char) : Opens (c :: r) := by
  refine ⟨c, r, rfl, ?_, ?_⟩
  · rw [Bool.eq_false_iff]
    intro space
    simp only [isSpace, Bool.or_eq_true, beq_iff_eq] at space
    rcases space with ((rfl | rfl) | rfl) | rfl <;> exact absurd h (by decide)
  · rintro rfl
    exact absurd h (by decide)

theorem Plain.opens_render {j : Json} (h : Plain j) (r : List Char) : Opens (j.render ++ r) := by
  cases h with
  | null => exact ⟨_, _, rfl, by decide, by decide⟩
  | bool b => cases b <;> exact ⟨_, _, rfl, by decide, by decide⟩
  | @int n =>
    rw [render, renderInt]
    split
    · exact ⟨_, _, rfl, by decide, by decide⟩
    · obtain ⟨d, ds, front, isDigit, -⟩ := Literal.toDigits_eq_cons n.natAbs
      rw [front]
      exact opens_of_isDigit isDigit _
  | str s => exact ⟨_, _, rfl, by decide, by decide⟩
  | @list items => cases items <;> exact ⟨_, _, rfl, by decide, by decide⟩
  | @map members => cases members <;> exact ⟨_, _, rfl, by decide, by decide⟩

theorem endsNumber_renderItems (js : List Json) (r : List Char) :
    EndsNumber (renderItems js ++ r) := by
  cases js <;> exact endsNumber_cons (by decide) _

theorem endsNumber_renderMembers (ms : List (String × Json)) (r : List Char) :
    EndsNumber (renderMembers ms ++ r) := by
  cases ms <;> exact endsNumber_cons (by decide) _

def ReadsBack (item : Reader Fault Json) (j : Json) : Prop :=
  ∀ r, EndsNumber r → item.run (j.render ++ r) = .ok (j, r)

theorem items_renderItems {item : Reader Fault Json} {js : List Json}
    (plain : ∀ j ∈ js, Plain j) (back : ∀ j ∈ js, ReadsBack item j) (r : List Char) :
    items id item false (renderItems js ++ r) = .ok (js, r) := by
  induction js with
  | nil => exact items_of_last rfl
  | cons j js ih =>
    have next := nextItem_false_of_opens ((plain j (by simp)).opens_render (renderItems js ++ r))
    have read := back j (by simp) _ (endsNumber_renderItems js r)
    simp only [renderItems, List.cons_append, List.append_assoc]
    rw [items_of_more next read, ih (fun j hj => plain j (by simp [hj]))
      fun j hj => back j (by simp [hj])]
    rfl

theorem members_renderMembers {item : Reader Fault Json} {ms : List (String × Json)}
    (back : ∀ m ∈ ms, ReadsBack item m.2) (r : List Char) :
    members id item false (renderMembers ms ++ r) = .ok (ms, r) := by
  induction ms with
  | nil => exact members_of_last rfl
  | cons m ms ih =>
    obtain ⟨key, j⟩ := m
    have read := back (key, j) (by simp) _ (endsNumber_renderMembers ms r)
    obtain ⟨t, written, name⟩ :=
      string_renderString key (':' :: (j.render ++ (renderMembers ms ++ r)))
    simp only [renderMembers, List.cons_append, List.append_assoc]
    rw [written, members_of_more rfl name rfl read, ih fun m hm => back m (by simp [hm]),
      String.ofList_toList]
    rfl

theorem run_value_of_scalar {c : Char} (space : isSpace c = false) (bracket : c ≠ '[')
    (brace : c ≠ '\x7b') (depth : Nat) (r : List Char) :
    (value depth).run (c :: r) = scalar (c :: r) := by
  cases depth <;> simp only [value, node, skipSpace_cons space] <;> grind

theorem run_value_zero_list (r : List Char) : (value 0).run ('[' :: r) = .error .tooDeep := by
  simp only [value, node, skipSpace_cons (c := '[') rfl]

theorem run_value_zero_map (r : List Char) : (value 0).run ('\x7b' :: r) = .error .tooDeep := by
  simp only [value, node, skipSpace_cons (c := '\x7b') rfl]

theorem run_value_list (depth : Nat) (r : List Char) :
    (value (depth + 1)).run ('[' :: r) =
      (items id (value depth) true r).map fun (js, t) => (.list js, t) := by
  simp only [value, node, skipSpace_cons (c := '[') rfl]
  cases items id (value depth) true r <;> rfl

theorem run_value_map (depth : Nat) (r : List Char) :
    (value (depth + 1)).run ('\x7b' :: r) =
      (members id (value depth) true r).map fun (ms, t) => (.map ms, t) := by
  simp only [value, node, skipSpace_cons (c := '\x7b') rfl]
  cases members id (value depth) true r <;> rfl

theorem value_renderInt {n : Int} (h : IsWhole n) (depth : Nat) :
    ReadsBack (value depth) (.int n) := by
  intro r hr
  rw [render, ← scalar_renderInt h hr]
  unfold renderInt
  split
  · exact run_value_of_scalar (by decide) (by decide) (by decide) depth _
  · obtain ⟨d, ds, front, isDigit, -⟩ := Literal.toDigits_eq_cons n.natAbs
    obtain ⟨c, t, heq, space, -⟩ := opens_of_isDigit isDigit ds
    obtain ⟨rfl, rfl⟩ := List.cons.inj heq
    rw [front]
    refine run_value_of_scalar space ?_ ?_ depth _ <;> rintro rfl <;> revert isDigit <;> decide

theorem value_renderString (s : String) (depth : Nat) : ReadsBack (value depth) (.str s) := by
  intro r _
  obtain ⟨t, written, read⟩ := string_renderString s r
  rw [render, written, run_value_of_scalar (by decide) (by decide) (by decide)]
  simp [scalar, read, Except.map]

theorem Plain.readsBack {j : Json} (h : Plain j) {depth : Nat} (hd : j.depth ≤ depth) :
    ReadsBack (value depth) j := by
  -- What stands inside is read with one level less, so the depth varies along the document.
  induction h generalizing depth with
  | null =>
    intro r _
    exact run_value_of_scalar (by decide) (by decide) (by decide) depth _
  | bool b =>
    intro r _
    cases b <;> exact run_value_of_scalar (by decide) (by decide) (by decide) depth _
  | int h => exact value_renderInt h depth
  | str s => exact value_renderString s depth
  | @list items plain ih =>
    obtain _ | depth := depth
    · simp [Json.depth] at hd
    have back : ∀ j ∈ items, ReadsBack (value depth) j := fun j hj =>
      ih j hj (depthItems_le_iff.1 (Nat.le_of_succ_le_succ hd) j hj)
    intro r hr
    cases items with
    | nil => rw [render, List.cons_append, run_value_list, items_of_last rfl]; rfl
    | cons j js =>
      have next := nextItem_true_of_opens ((plain j (by simp)).opens_render (renderItems js ++ r))
      have read := back j (by simp) _ (endsNumber_renderItems js r)
      rw [render, List.cons_append, List.append_assoc, run_value_list, items_of_more next read,
        items_renderItems (fun j hj => plain j (by simp [hj])) fun j hj => back j (by simp [hj])]
      rfl
  | @map members plain ih =>
    obtain _ | depth := depth
    · simp [Json.depth] at hd
    have back : ∀ m ∈ members, ReadsBack (value depth) m.2 := fun m hm =>
      ih m hm (depthMembers_le_iff.1 (Nat.le_of_succ_le_succ hd) m hm)
    intro r hr
    cases members with
    | nil => rw [render, List.cons_append, run_value_map, members_of_last rfl]; rfl
    | cons m ms =>
      obtain ⟨key, j⟩ := m
      have read := back (key, j) (by simp) _ (endsNumber_renderMembers ms r)
      obtain ⟨t, written, name⟩ :=
        string_renderString key (':' :: (j.render ++ (renderMembers ms ++ r)))
      simp only [render, List.cons_append, List.append_assoc]
      rw [written, run_value_map, members_of_more rfl name rfl read,
        members_renderMembers fun m hm => back m (by simp [hm]), String.ofList_toList]
      rfl

/-- The compact text of a plain document that is not too deep reads back as the document. -/
theorem parse_text {j : Json} (h : Plain j) (hd : j.depth ≤ maxDepth) : parse j.text = .ok j := by
  have read := h.readsBack hd [] endsNumber_nil
  rw [List.append_nil] at read
  rw [parse, toList_text, parseChars, read]
  rfl

theorem text_injective_of_plain {a b : Json} (ha : Plain a) (hb : Plain b)
    (hda : a.depth ≤ maxDepth) (hdb : b.depth ≤ maxDepth) (h : a.text = b.text) : a = b := by
  have read := parse_text ha hda
  rw [h, parse_text hb hdb] at read
  exact (Except.ok.inj read).symm

theorem render_list (js : List Json) :
    (Json.list js).render = '[' :: ([','].intercalate (js.map render) ++ [']']) := by
  have tail (j : Json) (js : List Json) :
      j.render ++ renderItems js = [','].intercalate ((j :: js).map render) ++ [']'] := by
    induction js generalizing j with
    | nil => simp [renderItems]
    | cons i js ih =>
      simp only [renderItems, ih, List.map_cons, List.intercalate_cons_cons, List.append_assoc]
      rfl
  cases js with
  | nil => rfl
  | cons j js => rw [render, tail]

def memberText (m : String × Json) : String := (Json.str m.1).text ++ ":" ++ m.2.text

theorem render_map (ms : List (String × Json)) :
    (Json.map ms).render =
      '\x7b' :: ([','].intercalate (ms.map fun m => (memberText m).toList) ++ ['\x7d']) := by
  have tail (m : String × Json) (ms : List (String × Json)) :
      (memberText m).toList ++ renderMembers ms =
        [','].intercalate ((m :: ms).map fun m => (memberText m).toList) ++ ['\x7d'] := by
    induction ms generalizing m with
    | nil => simp [renderMembers]
    | cons n ms ih =>
      have next := ih n
      simp only [List.map_cons, List.intercalate_cons_cons, List.append_assoc] at next ⊢
      rw [← next, renderMembers]
      simp [memberText, render]
  cases ms with
  | nil => rfl
  | cons m ms =>
    rw [← tail, render]
    simp [memberText, render]

theorem text_list (js : List Json) :
    (Json.list js).text = "[" ++ ",".intercalate (js.map text) ++ "]" := by
  apply String.toList_injective
  simp [render_list, String.toList_intercalate, Function.comp_def]

theorem text_map (ms : List (String × Json)) :
    (Json.map ms).text = "\x7b" ++ ",".intercalate (ms.map memberText) ++ "\x7d" := by
  apply String.toList_injective
  simp [render_map, String.toList_intercalate, Function.comp_def]

end ScmPlugins.Json
