import Mathlib.Data.List.DropRight
import ScmPlugins.Proofs.Except
import ScmPlugins.Proofs.Json.RoundTrip
import ScmPlugins.Text.Blank

namespace ScmPlugins.Json

section Scanners

variable {s r : List Char}

theorem skipSpace_append (h : skipSpace s ≠ []) (t : List Char) :
    skipSpace (s ++ t) = skipSpace s ++ t := by
  have some_left : (s.dropWhile isSpace).isEmpty = false := by simpa [skipSpace] using h
  rw [skipSpace, List.dropWhile_append, some_left]
  rfl

theorem skipSpace_append_of_eq {u : List Char} {c : Char} (h : skipSpace s = c :: u)
    (t : List Char) : skipSpace (s ++ t) = c :: (u ++ t) := by
  rw [skipSpace_append (by simp [h]), h, List.cons_append]

def Next.append (t : List Char) : Next → Next
  | .last r => .last (r ++ t)
  | .more r => .more (r ++ t)

theorem nextItem_append {first : Bool} {n : Next} (h : nextItem first s = .ok n) (t : List Char) :
    nextItem first (s ++ t) = .ok (n.append t) := by
  unfold nextItem at h
  split at h
  · cases h
  · rename_i hs
    cases h
    rw [nextItem, skipSpace_append_of_eq hs]
    rfl
  · rename_i c u bracket hs
    rw [nextItem, skipSpace_append_of_eq hs]
    split at h
    · cases h
      simp_all [Next.append]
    · split at h
      · cases hu : skipSpace u with
        | nil => simp [hu] at h
        | cons d v =>
          simp only [skipSpace_append_of_eq hu t]
          grind [Next.append]
      · cases h

theorem nextMember_append {first : Bool} {n : Next} (h : nextMember first s = .ok n)
    (t : List Char) : nextMember first (s ++ t) = .ok (n.append t) := by
  unfold nextMember at h
  split at h
  · cases h
  · rename_i hs
    cases h
    rw [nextMember, skipSpace_append_of_eq hs]
    rfl
  · rename_i c u brace hs
    rw [nextMember, skipSpace_append_of_eq hs]
    cases hu : skipSpace u with
    | nil => grind [Next.append]
    | cons d v =>
      simp only [skipSpace_append_of_eq hu t]
      grind [Next.append]

theorem colon_append (h : colon s = .ok r) (t : List Char) : colon (s ++ t) = .ok (r ++ t) := by
  unfold colon at h
  split at h
  · cases h
  · rename_i hs
    cases h
    rw [colon, skipSpace_append_of_eq hs]
    rfl
  · cases h

theorem hexUnit_append {n : Nat} (h : hexUnit s = .ok (n, r)) (t : List Char) :
    hexUnit (s ++ t) = .ok (n, r ++ t) := by
  unfold hexUnit at h
  split at h
  · split at h
    · cases h
      simp_all [hexUnit]
    · cases h
  · cases h

theorem lowSurrogate_append {n : Nat} (h : lowSurrogate s = .ok (n, r)) (t : List Char) :
    lowSurrogate (s ++ t) = .ok (n, r ++ t) := by
  unfold lowSurrogate at h
  split at h
  · cases h
  · cases h
  · split at h
    · cases h
    · rename_i hu
      simp only [List.cons_append, lowSurrogate, hexUnit_append hu t]
      split at h
      · cases h
        rw [if_pos ‹_›]
      · cases h
  · cases h

theorem hexChar_append {c : Char} (h : hexChar s = .ok (c, r)) (t : List Char) :
    hexChar (s ++ t) = .ok (c, r ++ t) := by
  unfold hexChar at h
  split at h
  · cases h
  · rename_i hu
    rw [hexChar, hexUnit_append hu t]
    dsimp only
    split at h
    · cases h
    · rw [if_neg ‹_›]
      split at h
      · rw [if_pos ‹_›]
        split at h
        · cases h
        · rename_i hl
          obtain ⟨rfl, rfl⟩ := Prod.mk.inj (Except.ok.inj h)
          rw [lowSurrogate_append hl t]
      · rw [if_neg ‹_›]
        obtain ⟨rfl, rfl⟩ := Prod.mk.inj (Except.ok.inj h)
        rfl

theorem escape_append {c : Char} (h : escape s = .ok (c, r)) (t : List Char) :
    escape (s ++ t) = .ok (c, r ++ t) := by
  unfold escape at h
  split at h
  · cases h
  · rw [List.cons_append, escape]
    exact hexChar_append h t
  · rename_i letter
    split at h
    · rename_i he
      cases h
      rw [List.cons_append, escape, he]
      exact letter
    · cases h

theorem string_append {cs : List Char} (h : string s = .ok (cs, r)) (t : List Char) :
    string (s ++ t) = .ok (cs, r ++ t) := by
  fun_induction string s generalizing cs with
  | case1 | case3 | case5 => cases h
  | case2 =>
    cases h
    rw [List.cons_append, string]
  | case4 u c v he ih =>
    obtain ⟨⟨ds, w⟩, hv, ⟨⟩⟩ := Except.map_eq_ok_iff.1 h
    rw [List.cons_append, string_escape (escape_append he t), ih hv]
    rfl
  | case6 c u quote backslash control ih =>
    obtain ⟨⟨ds, w⟩, hu, ⟨⟩⟩ := Except.map_eq_ok_iff.1 h
    rw [List.cons_append, string_plain quote backslash control, ih hu]
    rfl

theorem word_append {w : List Char} (h : word w s = .ok r) (t : List Char) :
    word w (s ++ t) = .ok (r ++ t) := by
  fun_induction word w s with
  | case1 => cases h; rfl
  | case2 | case4 => cases h
  | case3 c w s ih => rw [List.cons_append, word, if_pos rfl, ih h]

end Scanners

section Numbers

variable {s r t : List Char} {atEnd : Fault}

theorem EndsNumber.span_append (ht : EndsNumber t) (s : List Char) :
    (s ++ t).takeWhile Char.isDigit = s.takeWhile Char.isDigit ∧
      (s ++ t).dropWhile Char.isDigit = s.dropWhile Char.isDigit ++ t := by
  induction s with
  | nil =>
    cases t with
    | nil => exact ⟨rfl, rfl⟩
    | cons c t => simp [(ht c rfl).1]
  | cons c s ih => cases digit : c.isDigit <;> simp [digit, ih]

namespace Literal

theorem digits_before {ds : List Char} (h : digits atEnd s = .ok (ds, r)) (ht : EndsNumber t) :
    digits atEnd (s ++ t) = .ok (ds, r ++ t) := by
  cases s with
  | nil => cases h
  | cons c s =>
    simp only [digits, List.cons_append, ht.span_append] at h ⊢
    split at h
    · rename_i digit
      cases h
      rw [if_pos digit]
    · cases h

theorem scanWhole_before {ds : List Char} (h : scanWhole atEnd s = .ok (ds, r))
    (ht : EndsNumber t) : scanWhole atEnd (s ++ t) = .ok (ds, r ++ t) := by
  unfold scanWhole at h
  split at h
  · rename_i c u
    split at h
    · cases h
    · rename_i digit
      cases h
      exact if_neg digit
  · rename_i alone
    have read := digits_before h ht
    unfold scanWhole
    split
    · rename_i c v heq
      -- A zero that ends the first text stays alone, as no digit follows it.
      match s, heq with
      | [], heq =>
        cases h
      | [d], heq =>
        obtain ⟨rfl, rfl⟩ := List.cons.inj heq
        cases h
        rw [if_neg (by simp [(ht c rfl).1])]
        rfl
      | d :: e :: u, heq =>
        obtain ⟨rfl, -⟩ := List.cons.inj heq
        exact absurd rfl (alone e u)
    · exact read

theorem scanFraction_before {ds : Option (List Char)} (h : scanFraction atEnd s = .ok (ds, r))
    (ht : EndsNumber t) : scanFraction atEnd (s ++ t) = .ok (ds, r ++ t) := by
  unfold scanFraction at h
  split at h
  · obtain ⟨⟨es, v⟩, he, ⟨⟩⟩ := Except.map_eq_ok_iff.1 h
    rw [List.cons_append, scanFraction, digits_before he ht]
    rfl
  · rename_i point
    cases h
    cases s with
    | nil => exact scanFraction_of_endsNumber atEnd ht
    | cons c s =>
      rw [List.cons_append, scanFraction]
      rintro u ⟨⟩
      exact point s rfl

theorem scanSign_before {s : List Char} (h : s ≠ []) (t : List Char) :
    scanSign (s ++ t) = ((scanSign s).1, (scanSign s).2 ++ t) := by
  cases s with
  | nil => exact absurd rfl h
  | cons c s =>
    unfold scanSign
    grind

theorem scanExponent_before {e : Option (Bool × List Char)} (h : scanExponent atEnd s = .ok (e, r))
    (ht : EndsNumber t) : scanExponent atEnd (s ++ t) = .ok (e, r ++ t) := by
  unfold scanExponent at h
  split at h
  case h_3 small large =>
    cases h
    cases s with
    | nil => exact scanExponent_of_endsNumber atEnd ht
    | cons c s =>
      rw [List.cons_append, scanExponent]
      · rintro u ⟨⟩
        exact small s rfl
      · rintro u ⟨⟩
        exact large s rfl
  all_goals
    rename_i u
    obtain ⟨⟨es, v⟩, he, ⟨⟩⟩ := Except.map_eq_ok_iff.1 h
    have some_left : u ≠ [] := by
      rintro rfl
      cases he
    simp only [List.cons_append, scanExponent, scanSign_before some_left, digits_before he ht]
    rfl

theorem scanMinus_before {s : List Char} (h : s ≠ []) (t : List Char) :
    scanMinus (s ++ t) = ((scanMinus s).1, (scanMinus s).2 ++ t) := by
  cases s with
  | nil => exact absurd rfl h
  | cons c s =>
    unfold scanMinus
    grind

theorem scan_before {l : Literal} (h : scan atEnd s = .ok (l, r)) (ht : EndsNumber t) :
    scan atEnd (s ++ t) = .ok (l, r ++ t) := by
  have some_left : s ≠ [] := by
    rintro rfl
    cases h
  unfold scan at h
  split at h
  · cases h
  · rename_i whole
    split at h
    · cases h
    · rename_i fraction
      split at h
      · cases h
      · rename_i exponent
        obtain ⟨rfl, rfl⟩ := Prod.mk.inj (Except.ok.inj h)
        simp only [scan, scanMinus_before some_left, scanWhole_before whole ht,
          scanFraction_before fraction ht, scanExponent_before exponent ht]

end Literal

theorem number_before {j : Json} (h : number s = .ok (j, r)) (ht : EndsNumber t) :
    number (s ++ t) = .ok (j, r ++ t) := by
  unfold number at h
  split at h
  · cases h
  · rename_i hs
    rw [number, Literal.scan_before hs ht]
    dsimp only
    split at h
    · cases h
    · obtain ⟨rfl, rfl⟩ := Prod.mk.inj (Except.ok.inj h)
      rfl

theorem scalar_before {j : Json} (h : scalar s = .ok (j, r)) (ht : EndsNumber t) :
    scalar (s ++ t) = .ok (j, r ++ t) := by
  have read_word {w u : List Char} {j' : Json} (hw : (word w u).map (j', ·) = .ok (j, r)) :
      (word w (u ++ t)).map (j', ·) = .ok (j, r ++ t) := by
    obtain ⟨v, hv, ⟨⟩⟩ := Except.map_eq_ok_iff.1 hw
    rw [word_append hv]
    rfl
  cases s with
  | nil => cases h
  | cons c s =>
    simp only [List.cons_append, scalar] at h ⊢
    split at h
    · rw [if_pos ‹_›]
      exact read_word h
    rw [if_neg ‹_›]
    split at h
    · rw [if_pos ‹_›]
      exact read_word h
    rw [if_neg ‹_›]
    split at h
    · rw [if_pos ‹_›]
      exact read_word h
    rw [if_neg ‹_›]
    split at h
    · obtain ⟨⟨cs, v⟩, hs, ⟨⟩⟩ := Except.map_eq_ok_iff.1 h
      rw [if_pos ‹_›, string_append hs]
      rfl
    rw [if_neg ‹_›]
    split at h
    · rw [if_pos ‹_›]
      exact number_before h ht
    · cases h

end Numbers

section Values

variable {s r t : List Char}

def ReadsBefore {α : Type} (item : Reader Fault α) (t : List Char) : Prop :=
  ∀ s a r, item.run s = .ok (a, r) → item.run (s ++ t) = .ok (a, r ++ t)

theorem items_append {item : Reader Fault Json} (hi : ReadsBefore item t) {first : Bool}
    {js : List Json} (h : items id item first s = .ok (js, r)) :
    items id item first (s ++ t) = .ok (js, r ++ t) := by
  fun_induction items id item first s generalizing js with
  | case1 | case3 | case4 => cases h
  | case2 first s u hs =>
    cases h
    exact items_of_last (nextItem_append hs t)
  | case5 first s u hs a v ha js' w hr ih =>
    cases h
    rw [items_of_more (nextItem_append hs t) (hi u a v ha), ih hr]
    rfl

theorem members_append {item : Reader Fault Json} (hi : ReadsBefore item t) {first : Bool}
    {ms : List (String × Json)} (h : members id item first s = .ok (ms, r)) :
    members id item first (s ++ t) = .ok (ms, r ++ t) := by
  fun_induction members id item first s generalizing ms with
  | case1 | case3 | case4 | case5 | case6 => cases h
  | case2 first s u hs =>
    cases h
    exact members_of_last (nextMember_append hs t)
  | case7 first s u hs key v hk w hc a x ha ms' y hr ih =>
    cases h
    rw [members_of_more (nextMember_append hs t) (string_append hk t) (colon_append hc t)
      (hi w a x ha), ih hr]
    rfl

inductive ReadFrom (inner : Option (Reader Fault Json)) (s : List Char) : Json → List Char → Prop
  | list {item : Reader Fault Json} {u r : List Char} {js : List Json} (level : inner = some item)
      (opened : skipSpace s = '[' :: u) (read : items id item true u = .ok (js, r)) :
      ReadFrom inner s (.list js) r
  | map {item : Reader Fault Json} {u r : List Char} {ms : List (String × Json)}
      (level : inner = some item) (opened : skipSpace s = '\x7b' :: u)
      (read : members id item true u = .ok (ms, r)) : ReadFrom inner s (.map ms) r
  | scalar {c : Char} {u r : List Char} {j : Json} (first : skipSpace s = c :: u)
      (bracket : c ≠ '[') (brace : c ≠ '\x7b') (read : scalar (c :: u) = .ok (j, r)) :
      ReadFrom inner s j r

theorem node_eq_ok_iff {inner : Option (Reader Fault Json)} {j : Json} :
    node inner s = .ok (j, r) ↔ ReadFrom inner s j r := by
  constructor
  · intro h
    cases hs : skipSpace s with
    | nil =>
      simp only [node, hs] at h
      cases h
    | cons c u =>
      by_cases bracket : c = '['
      · subst bracket
        cases inner with
        | none => simp [node, hs] at h
        | some item =>
          simp only [node, hs] at h
          split at h
          · cases h
          · rename_i read
            cases h
            exact .list rfl hs read
      · by_cases brace : c = '\x7b'
        · subst brace
          cases inner with
          | none => simp [node, hs] at h
          | some item =>
            simp only [node, hs] at h
            split at h
            · cases h
            · rename_i read
              cases h
              exact .map rfl hs read
        · refine .scalar hs bracket brace ?_
          rw [← h]
          simp only [node, hs]
          grind
  · intro h
    cases h with
    | list level opened read => simp only [node, level, opened, read]
    | map level opened read => simp only [node, level, opened, read]
    | scalar first bracket brace read =>
      simp only [node, first]
      grind

theorem ReadFrom.append {inner : Option (Reader Fault Json)} {j : Json} (h : ReadFrom inner s j r)
    (hi : ∀ item ∈ inner, ReadsBefore item t) (ht : EndsNumber t) :
    ReadFrom inner (s ++ t) j (r ++ t) := by
  cases h with
  | list level opened read =>
    exact .list level (skipSpace_append_of_eq opened t) (items_append (hi _ level) read)
  | map level opened read =>
    exact .map level (skipSpace_append_of_eq opened t) (members_append (hi _ level) read)
  | scalar first bracket brace read =>
    exact .scalar (skipSpace_append_of_eq first t) bracket brace (scalar_before read ht)

theorem readsBefore_value (ht : EndsNumber t) (depth : Nat) : ReadsBefore (value depth) t := by
  induction depth with
  | zero =>
    intro s j r h
    exact node_eq_ok_iff.2 ((node_eq_ok_iff.1 h).append (by simp) ht)
  | succ depth ih =>
    intro s j r h
    refine node_eq_ok_iff.2 ((node_eq_ok_iff.1 h).append ?_ ht)
    simpa using ih

theorem items_of_forall {item item' : Reader Fault Json} {first : Bool} {js : List Json}
    (hi : ∀ j ∈ js, ∀ s r, item.run s = .ok (j, r) → item'.run s = .ok (j, r))
    (h : items id item first s = .ok (js, r)) : items id item' first s = .ok (js, r) := by
  fun_induction items id item first s generalizing js with
  | case1 | case3 | case4 => cases h
  | case2 first s u hs =>
    cases h
    exact items_of_last hs
  | case5 first s u hs j v hj js' w hr ih =>
    cases h
    rw [items_of_more hs (hi j (by simp) u v hj), ih (fun k hk => hi k (by simp [hk])) hr]
    rfl

theorem members_of_forall {item item' : Reader Fault Json} {first : Bool}
    {ms : List (String × Json)}
    (hi : ∀ m ∈ ms, ∀ s r, item.run s = .ok (m.2, r) → item'.run s = .ok (m.2, r))
    (h : members id item first s = .ok (ms, r)) : members id item' first s = .ok (ms, r) := by
  fun_induction members id item first s generalizing ms with
  | case1 | case3 | case4 | case5 | case6 => cases h
  | case2 first s u hs =>
    cases h
    exact members_of_last hs
  | case7 first s u hs key v hk w hc j x hj ms' y hr ih =>
    cases h
    rw [members_of_more hs hk hc (hi _ List.mem_cons_self w x hj),
      ih (fun m hm => hi m (List.mem_cons_of_mem _ hm)) hr]
    rfl

theorem run_value_of_scalar_read {depth : Nat} {c : Char} {u : List Char} {j : Json}
    (first : skipSpace s = c :: u) (bracket : c ≠ '[') (brace : c ≠ '\x7b')
    (read : scalar (c :: u) = .ok (j, r)) : (value depth).run s = .ok (j, r) := by
  cases depth <;> exact node_eq_ok_iff.2 (.scalar first bracket brace read)

theorem run_value_of_depth_le {depth depth' : Nat} {j : Json}
    (h : (value depth).run s = .ok (j, r)) (le : j.depth ≤ depth') :
    (value depth').run s = .ok (j, r) := by
  induction depth generalizing depth' s r j with
  | zero =>
    cases node_eq_ok_iff.1 h with
    | list level => cases level
    | map level => cases level
    | scalar first bracket brace read => exact run_value_of_scalar_read first bracket brace read
  | succ depth ih =>
    cases node_eq_ok_iff.1 h with
    | list level opened read =>
      cases level
      obtain _ | k := depth'
      · simp [Json.depth] at le
      refine node_eq_ok_iff.2 (.list rfl opened (items_of_forall ?_ read))
      intro j hj s r hr
      exact ih hr (depthItems_le_iff.1 (Nat.le_of_succ_le_succ le) j hj)
    | map level opened read =>
      cases level
      obtain _ | k := depth'
      · simp [Json.depth] at le
      refine node_eq_ok_iff.2 (.map rfl opened (members_of_forall ?_ read))
      intro m hm s r hr
      exact ih hr (depthMembers_le_iff.1 (Nat.le_of_succ_le_succ le) m hm)
    | scalar first bracket brace read => exact run_value_of_scalar_read first bracket brace read

def StartsValue (c : Char) : Prop :=
  c ∈ ['[', '\x7b', 'n', 't', 'f', '"', '-'] ∨ c.isDigit = true

theorem startsValue_of_scalar {c : Char} {u : List Char} {j : Json}
    (h : scalar (c :: u) = .ok (j, r)) : StartsValue c := by
  unfold StartsValue
  simp only [scalar] at h
  grind

theorem exists_startsValue {depth : Nat} {j : Json} (h : (value depth).run s = .ok (j, r)) :
    ∃ c u, skipSpace s = c :: u ∧ StartsValue c := by
  have read : ∃ inner, ReadFrom inner s j r := by
    cases depth <;> exact ⟨_, node_eq_ok_iff.1 h⟩
  obtain ⟨inner, read⟩ := read
  cases read with
  | list level opened read => exact ⟨_, _, opened, .inl (by decide)⟩
  | map level opened read => exact ⟨_, _, opened, .inl (by decide)⟩
  | scalar first bracket brace read => exact ⟨_, _, first, startsValue_of_scalar read⟩

theorem skipSpace_skipSpace (s : List Char) : skipSpace (skipSpace s) = skipSpace s :=
  List.dropWhile_idempotent isSpace s

theorem run_value_skipSpace (depth : Nat) (s : List Char) :
    (value depth).run (skipSpace s) = (value depth).run s := by
  cases depth <;> simp only [value, node, skipSpace_skipSpace]

end Values

section Documents

variable {v : String} {j : Json}

theorem parse_eq_ok_iff :
    parse v = .ok j ↔ ∃ r, (value maxDepth).run v.toList = .ok (j, r) ∧ skipSpace r = [] := by
  unfold parse parseChars finish
  cases (value maxDepth).run v.toList with
  | error f => simp
  | ok p =>
    obtain ⟨k, r⟩ := p
    by_cases h : skipSpace r = []
    · simp [h, Except.map]
    · simp [h, Except.map]

theorem skipSpace_append_of_nil {r : List Char} (h : skipSpace r = []) (t : List Char) :
    skipSpace (r ++ t) = skipSpace t := by
  have none_left : (r.dropWhile isSpace).isEmpty = true := by simpa [skipSpace] using h
  rw [skipSpace, List.dropWhile_append, none_left]
  rfl

theorem exists_run_value_of_parse (h : parse v = .ok j) {depth : Nat} (le : j.depth ≤ depth)
    {t : List Char} (ht : EndsNumber t) :
    ∃ r, (value depth).run (v.toList ++ t) = .ok (j, r) ∧ skipSpace r = skipSpace t := by
  obtain ⟨r, read, blank⟩ := parse_eq_ok_iff.1 h
  have shallow := run_value_of_depth_le read le
  exact ⟨r ++ t, readsBefore_value ht depth _ _ _ shallow, skipSpace_append_of_nil blank t⟩

theorem isBlankChar_of_startsValue {c : Char} (h : StartsValue c) : Text.isBlankChar c = false := by
  rcases h with mark | digit
  · simp only [List.mem_cons, List.not_mem_nil, or_false] at mark
    rcases mark with rfl | rfl | rfl | rfl | rfl | rfl | rfl <;> decide
  · simp only [Char.isDigit, Bool.and_eq_true, decide_eq_true_eq] at digit
    have low : 48 ≤ c.toNat := digit.1
    have high : c.toNat ≤ 57 := digit.2
    rw [Bool.eq_false_iff]
    simp only [Text.isBlankChar, ne_eq, Bool.or_eq_true, Bool.and_eq_true, decide_eq_true_eq,
      beq_iff_eq]
    omega

theorem exists_mem_of_parse (h : parse v = .ok j) : ∃ c ∈ v.toList, Text.isBlankChar c = false := by
  obtain ⟨r, read, -⟩ := parse_eq_ok_iff.1 h
  obtain ⟨c, u, first, starts⟩ := exists_startsValue read
  have mem : c ∈ skipSpace v.toList := by simp [first]
  exact ⟨c, (List.dropWhile_sublist _).subset mem, isBlankChar_of_startsValue starts⟩

theorem nextItem_true_of_run_value {depth : Nat} {s r : List Char}
    (h : (value depth).run s = .ok (j, r)) : nextItem true s = .ok (.more (skipSpace s)) := by
  obtain ⟨c, u, first, starts⟩ := exists_startsValue h
  rw [nextItem, first]
  split
  · contradiction
  · rename_i heq
    obtain ⟨rfl, -⟩ := List.cons.inj heq
    exact absurd starts (by unfold StartsValue; decide)
  · rw [if_pos rfl]
    simp_all

theorem nextItem_false_of_run_value {depth : Nat} {s u r : List Char}
    (comma : skipSpace s = ',' :: u)
    (h : (value depth).run u = .ok (j, r)) : nextItem false s = .ok (.more (skipSpace u)) := by
  obtain ⟨c, v, first, starts⟩ := exists_startsValue h
  have bracket : c ≠ ']' := by
    rintro rfl
    exact absurd starts (by unfold StartsValue; decide)
  rw [nextItem, comma]
  simp only [first]
  grind

theorem nextItem_false_of_bracket {s r : List Char} (bracket : skipSpace s = ']' :: r) :
    nextItem false s = .ok (.last r) := by
  simp only [nextItem, bracket]

def listTail (ts : List String) : List Char := ts.flatMap (fun t => ',' :: t.toList) ++ [']']

theorem listTail_cons (t : String) (ts : List String) :
    listTail (t :: ts) = ',' :: (t.toList ++ listTail ts) := by
  simp [listTail]

theorem endsNumber_listTail (ts : List String) : EndsNumber (listTail ts) := by
  cases ts <;> exact endsNumber_cons (by decide) _

theorem skipSpace_listTail (ts : List String) : skipSpace (listTail ts) = listTail ts := by
  cases ts <;> rfl

theorem toList_intercalate_cons (t : String) (ts : List String) :
    (",".intercalate (t :: ts)).toList ++ [']'] = t.toList ++ listTail ts := by
  induction ts generalizing t with
  | nil => simp [listTail]
  | cons u ts ih =>
    have comma : ",".toList = [','] := rfl
    rw [String.intercalate_cons_cons, String.toList_append, String.toList_append, List.append_assoc,
      ih, List.append_assoc, comma, listTail_cons]
    rfl

theorem items_listTail {depth : Nat} {ts : List String} {js : List Json} {s : List Char}
    (h : List.Forall₂ (fun t j => parse t = .ok j) ts js) (le : ∀ j ∈ js, j.depth ≤ depth)
    (hs : skipSpace s = listTail ts) : items id (value depth) false s = .ok (js, []) := by
  induction h generalizing s with
  | nil => exact items_of_last (nextItem_false_of_bracket hs)
  | @cons t j ts js parsed _ ih =>
    obtain ⟨here, later⟩ := List.forall_mem_cons.1 le
    obtain ⟨r, read, rest⟩ := exists_run_value_of_parse parsed here (endsNumber_listTail ts)
    have next := nextItem_false_of_run_value (hs.trans (listTail_cons t ts)) read
    rw [items_of_more next (by rw [run_value_skipSpace]; exact read),
      ih later (rest.trans (skipSpace_listTail ts))]
    rfl

theorem parse_list {ts : List String} {js : List Json}
    (h : List.Forall₂ (fun t j => parse t = .ok j) ts js) (le : ∀ j ∈ js, j.depth < maxDepth) :
    parse ("[" ++ ",".intercalate ts ++ "]") = .ok (.list js) := by
  refine parse_eq_ok_iff.2 ⟨[], ?_, rfl⟩
  cases h with
  | nil =>
    have text : ("[" ++ ",".intercalate [] ++ "]").toList = ['[', ']'] := by simp
    rw [text, maxDepth, run_value_list, items_of_last rfl]
    rfl
  | @cons t j ts js parsed h =>
    have inside : ∀ k ∈ j :: js, k.depth ≤ 126 := fun k hk => by
      have lt := le k hk
      unfold maxDepth at lt
      omega
    obtain ⟨here, later⟩ := List.forall_mem_cons.1 inside
    obtain ⟨r, read, rest⟩ := exists_run_value_of_parse parsed here (endsNumber_listTail ts)
    have text : ("[" ++ ",".intercalate (t :: ts) ++ "]").toList =
        '[' :: (t.toList ++ listTail ts) := by
      rw [← toList_intercalate_cons]
      simp
    rw [text, maxDepth, run_value_list,
      items_of_more (nextItem_true_of_run_value read) (by rw [run_value_skipSpace]; exact read),
      items_listTail h later (rest.trans (skipSpace_listTail ts))]
    rfl

theorem parse_list_one (h : parse v = .ok j) (le : j.depth < maxDepth) :
    parse ("[" ++ v ++ "]") = .ok (.list [j]) := by
  have read := parse_list (.cons h .nil) (by simpa using le)
  rwa [String.intercalate_singleton] at read

theorem parse_map_one (key : String) (h : parse v = .ok j) (le : j.depth < maxDepth) :
    parse ("\x7b" ++ (Json.str key).text ++ ":" ++ v ++ "\x7d") = .ok (.map [(key, j)]) := by
  have inside : j.depth ≤ 126 := by
    unfold maxDepth at le
    omega
  obtain ⟨r, read, rest⟩ := exists_run_value_of_parse h inside
    (endsNumber_cons (c := '\x7d') (by decide) [])
  obtain ⟨t, written, name⟩ := string_renderString key (':' :: (v.toList ++ ['\x7d']))
  refine parse_eq_ok_iff.2 ⟨[], ?_, rfl⟩
  have last : nextMember false r = .ok (.last []) := by
    rw [nextMember, rest]
    rfl
  have text : ("\x7b" ++ (Json.str key).text ++ ":" ++ v ++ "\x7d").toList =
      '\x7b' :: '"' :: t := by
    rw [← written]
    simp [render]
  rw [text, maxDepth, run_value_map, members_of_more rfl name rfl read, members_of_last last,
    String.ofList_toList]
  rfl

end Documents

theorem infix_intercalate {α : Type} {s x : List α} {xs : List (List α)} (h : x ∈ xs) :
    x <:+: s.intercalate xs := by
  induction xs with
  | nil => cases h
  | cons y ys ih =>
    cases ys with
    | nil =>
      obtain rfl : x = y := by simpa using h
      simp
    | cons z zs =>
      rw [List.intercalate_cons_cons, List.append_assoc]
      obtain rfl | later := List.mem_cons.1 h
      · exact (List.prefix_append x _).isInfix
      · refine (ih later).trans ?_
        rw [← List.append_assoc]
        exact (List.suffix_append _ _).isInfix

theorem infix_text_of_mem {ms : List (String × Json)} {k : String} {v : Json} (h : (k, v) ∈ ms) :
    v.text.toList <:+: (Json.map ms).text.toList := by
  have value : v.text.toList <:+: (memberText (k, v)).toList := by
    rw [memberText, String.toList_append]
    exact (List.suffix_append _ _).isInfix
  have member : (memberText (k, v)).toList <:+: [','].intercalate
      (ms.map fun m => (memberText m).toList) :=
    infix_intercalate (List.mem_map_of_mem (f := fun m => (memberText m).toList) h)
  rw [toList_text (.map ms), render_map]
  exact (value.trans member).trans
    ((List.prefix_append _ _).isInfix.trans (List.suffix_cons _ _).isInfix)

end ScmPlugins.Json
