import ScmPlugins.Proofs.Json.Grammar

namespace ScmPlugins.Json

section Strings

variable {s t r q n cs : List Char} {c : Char} {k l : String}

def Cuts {α : Type} (scan : List Char → Except Fault (α × List Char)) : Prop :=
  ∀ {s a r}, scan s = .ok (a, r) → ∃ p, s = p ++ r ∧ scan p = .ok (a, [])

theorem cuts_hexUnit : Cuts hexUnit := by
  intro s n r h
  unfold hexUnit at h
  split at h
  · rename_i a b c d u
    split at h
    · rename_i hi hj hk hl
      cases h
      exact ⟨[a, b, c, d], rfl, by simp only [hexUnit, hi, hj, hk, hl]⟩
    · cases h
  · cases h

theorem cuts_lowSurrogate : Cuts lowSurrogate := by
  intro s n r h
  obtain ⟨t, rfl, unit⟩ := hexUnit_of_lowSurrogate h
  obtain ⟨p, rfl, cut⟩ := cuts_hexUnit unit
  refine ⟨'\\' :: 'u' :: p, rfl, ?_⟩
  simp only [lowSurrogate, unit] at h
  simp only [lowSurrogate, cut]
  split at h
  · rename_i low
    rw [if_pos low]
  · cases h

theorem cuts_hexChar : Cuts hexChar := by
  intro s c r h
  unfold hexChar at h
  split at h
  · cases h
  · rename_i n u unit
    obtain ⟨p, rfl, cut⟩ := cuts_hexUnit unit
    split at h
    · cases h
    · rename_i low
      split at h
      · rename_i high
        split at h
        · cases h
        · rename_i second
          obtain ⟨rfl, rfl⟩ := Prod.mk.inj (Except.ok.inj h)
          obtain ⟨p', rfl, cut'⟩ := cuts_lowSurrogate second
          refine ⟨p ++ p', by rw [List.append_assoc], ?_⟩
          simp only [hexChar, hexUnit_append cut p', List.nil_append, if_neg low, if_pos high, cut']
      · rename_i high
        obtain ⟨rfl, rfl⟩ := Prod.mk.inj (Except.ok.inj h)
        refine ⟨p, rfl, ?_⟩
        simp only [hexChar, cut, if_neg low, if_neg high]

theorem cuts_escape : Cuts escape := by
  intro s c r h
  unfold escape at h
  split at h
  · cases h
  · obtain ⟨p, rfl, cut⟩ := cuts_hexChar h
    exact ⟨'u' :: p, rfl, cut⟩
  · rename_i letter
    split at h
    · rename_i known
      cases h
      refine ⟨[_], rfl, ?_⟩
      rw [escape, known]
      exact letter
    · cases h

theorem cuts_string : Cuts string := by
  intro s cs r h
  fun_induction string s generalizing cs with
  | case1 | case3 | case5 => cases h
  | case2 =>
    cases h
    exact ⟨['"'], rfl, by rw [string]⟩
  | case4 u c v escaped ih =>
    obtain ⟨⟨ds, w⟩, read, ⟨⟩⟩ := Except.map_eq_ok_iff.1 h
    obtain ⟨p, rfl, cut⟩ := ih read
    obtain ⟨p', rfl, cut'⟩ := cuts_escape escaped
    refine ⟨'\\' :: (p' ++ p), by simp, ?_⟩
    rw [string_escape (escape_append cut' p), List.nil_append, cut]
    rfl
  | case6 c u quote backslash control ih =>
    obtain ⟨⟨ds, w⟩, read, ⟨⟩⟩ := Except.map_eq_ok_iff.1 h
    obtain ⟨p, rfl, cut⟩ := ih read
    refine ⟨c :: p, rfl, ?_⟩
    rw [string_plain (fun e => quote e) (fun e => backslash e) control, cut]
    rfl

theorem IsQuoted.string_append_iff (h : IsQuoted q) :
    string (q ++ t) = .ok (cs, r) ↔ r = t ∧ string q = .ok (cs, []) := by
  constructor
  · intro read
    have passed := skipString_of_string read
    rw [h.skipString] at passed
    cases passed
    obtain ⟨p, split, cut⟩ := cuts_string read
    rw [List.append_cancel_right split]
    exact ⟨rfl, cut⟩
  · rintro ⟨rfl, read⟩
    exact string_append read r

def Spells (n : List Char) (k : String) : Prop := ∃ q, n = '"' :: q ∧ string q = .ok (k.toList, [])

theorem Spells.unique (hk : Spells n k) (hl : Spells n l) : k = l := by
  obtain ⟨q, rfl, readk⟩ := hk
  obtain ⟨_, ⟨⟩, readl⟩ := hl
  rw [readk] at readl
  exact String.toList_injective (Prod.mk.inj (Except.ok.inj readl)).1

abbrev Named (raw : List (List Char × List Char)) (ms : List (String × List Char)) : Prop :=
  List.Forall₂ (fun m m' => Spells m.1 m'.1 ∧ m.2 = m'.2) raw ms

def IsMap (s : List Char) (ms : List (String × List Char)) : Prop :=
  ∃ raw, IsObject s raw ∧ Named raw ms

theorem spells_iff : Spells ('"' :: q) k ↔ string q = .ok (k.toList, []) :=
  ⟨fun ⟨_, front, read⟩ => (List.cons.inj front).2 ▸ read, fun read => ⟨q, rfl, read⟩⟩

end Strings

/-- A reader that takes a value as a whole, whatever spaces are before it and whatever is behind
it. -/
structure Reader.Exact {ε α : Type} (item : Reader ε α) : Prop where
  passes : item.Passes
  spaces (s : List Char) : item.run (skipSpace s) = item.run s
  before {v t : List Char} {a : α} (value : IsValue v) (ends : EndsNumber t) :
    item.run (v ++ t) = .ok (a, t) ↔ item.run v = .ok (a, [])

section Readers

variable {ε α β : Type} {lift : Fault → ε} {item : Reader ε α} {first : Bool} {a : α}
  {as : List α} {w s t u v r : List Char}

theorem Reader.Exact.run_append_iff (h : item.Exact) (value : IsValue v) (ends : EndsNumber t) :
    item.run (v ++ t) = .ok (a, r) ↔ r = t ∧ item.run v = .ok (a, []) := by
  constructor
  · intro read
    have passed := h.passes read
    rw [value.skip ends] at passed
    cases passed
    exact ⟨rfl, (h.before value ends).1 read⟩
  · rintro ⟨rfl, read⟩
    exact (h.before value ends).2 read

theorem Reader.Exact.run_spaces (h : item.Exact) (spaces : Spaces w) (s : List Char) :
    item.run (w ++ s) = item.run s := by
  rw [← h.spaces, skipSpace_spaces spaces, h.spaces]

theorem items_more_iff (next : nextItem first s = .ok (.more t)) :
    items lift item first s = .ok (as, r) ↔
      ∃ a u as', item.run t = .ok (a, u) ∧ items lift item false u = .ok (as', r) ∧
        as = a :: as' := by
  rw [items]
  grind

theorem members_more_iff {as : List (String × α)} (next : nextMember first s = .ok (.more t)) :
    members lift item first s = .ok (as, r) ↔
      ∃ key u v a w as', string t = .ok (key, u) ∧ colon u = .ok v ∧ item.run v = .ok (a, w) ∧
        members lift item false w = .ok (as', r) ∧ as = (String.ofList key, a) :: as' := by
  constructor
  · intro h
    rw [members] at h
    split at h
    · cases h
    · rename_i last
      rw [next] at last
      cases last
    · rename_i more
      rw [next] at more
      cases more
      split at h
      · cases h
      · split at h
        · cases h
        · split at h
          · cases h
          · split at h
            · cases h
            · cases h
              exact ⟨_, _, _, _, _, _, ‹_›, ‹_›, ‹_›, ‹_›, rfl⟩
  · rintro ⟨key, u, v, a, w, as', named, colon, read, others, rfl⟩
    rw [members_of_more next named colon read, others]
    rfl

theorem Reader.Exact.items_iff (h : item.Exact) {vs : List (List Char)}
    (list : Derives (.items first vs) s) :
    items lift item first (s ++ t) = .ok (as, r) ↔
      r = t ∧ List.Forall₂ (fun v a => item.run v = .ok (a, [])) vs as := by
  induction vs generalizing first s as with
  | nil =>
    cases list with
    | lastItem spaces =>
      have last : items lift item first (_ ++ ']' :: t) = .ok ([], t) :=
        items_of_last (spaces.nextItem t)
      rw [List.append_assoc, List.singleton_append, last, List.forall₂_nil_left_iff]
      grind
  | cons v vs ih =>
    cases list with
    | @item _ w v s vs lead value rest =>
      have opens := IsValue.opens value (s ++ t)
      have ends := endsNumber_of_items rest t
      rw [List.append_assoc, List.append_assoc, items_more_iff (lead.nextItem opens),
        List.forall₂_cons_left_iff]
      constructor
      · rintro ⟨a, u, as', read, others, rfl⟩
        obtain ⟨rfl, here⟩ := (h.run_append_iff value ends).1 read
        obtain ⟨rfl, later⟩ := (ih rest).1 others
        exact ⟨rfl, a, as', here, later, rfl⟩
      · rintro ⟨rfl, a, as', read, others, rfl⟩
        exact ⟨a, s ++ r, as', (h.run_append_iff value ends).2 ⟨rfl, read⟩,
          (ih rest).2 ⟨rfl, others⟩, rfl⟩

theorem Reader.Exact.members_iff (h : item.Exact) {ms : List (List Char × List Char)}
    {as : List (String × α)} (map : Derives (.members first ms) s) :
    members lift item first (s ++ t) = .ok (as, r) ↔
      r = t ∧ List.Forall₂ (fun m a => Spells m.1 a.1 ∧ item.run m.2 = .ok (a.2, [])) ms as := by
  induction ms generalizing first s as with
  | nil =>
    cases map with
    | lastMember spaces =>
      have last : members lift item first (_ ++ '\x7d' :: t) = .ok ([], t) :=
        members_of_last (spaces.nextMember t)
      rw [List.append_assoc, List.singleton_append, last, List.forall₂_nil_left_iff]
      grind
  | cons m ms ih =>
    cases map with
    | @member _ w q x y v s ms lead name before behind value rest =>
      have ends := endsNumber_of_members rest t
      have colon := before.colon (y ++ (v ++ (s ++ t)))
      rw [member_append, members_more_iff (lead.nextMember _), List.forall₂_cons_left_iff]
      constructor
      · rintro ⟨key, _, _, a, _, as', named, colon', read, others, rfl⟩
        obtain ⟨rfl, spelt⟩ := name.string_append_iff.1 named
        rw [colon] at colon'
        cases colon'
        rw [h.run_spaces behind] at read
        obtain ⟨rfl, here⟩ := (h.run_append_iff value ends).1 read
        obtain ⟨rfl, later⟩ := (ih rest).1 others
        exact ⟨rfl, (String.ofList key, a), as', ⟨spells_iff.2 (by simpa using spelt), here⟩,
          later, rfl⟩
      · rintro ⟨rfl, ⟨k, a⟩, as', ⟨named, read⟩, others, rfl⟩
        refine ⟨k.toList, _, _, a, _, as', name.string_append_iff.2 ⟨rfl, spells_iff.1 named⟩,
          colon, ?_, (ih rest).2 ⟨rfl, others⟩, by simp⟩
        rw [h.run_spaces behind]
        exact (h.run_append_iff value ends).2 ⟨rfl, read⟩

theorem Reader.Exact.items_append_iff (h : item.Exact) {vs : List (List Char)}
    (list : Derives (.items first vs) s) :
    items lift item first (s ++ t) = .ok (as, t) ↔ items lift item first s = .ok (as, []) := by
  have alone : items lift item first (s ++ []) = .ok (as, []) ↔ _ := h.items_iff list
  rw [List.append_nil] at alone
  rw [h.items_iff list, alone]
  simp only [true_and]

theorem Reader.Exact.members_append_iff (h : item.Exact) {ms : List (List Char × List Char)}
    {as : List (String × α)} (map : Derives (.members first ms) s) :
    members lift item first (s ++ t) = .ok (as, t) ↔ members lift item first s = .ok (as, []) := by
  have alone : members lift item first (s ++ []) = .ok (as, []) ↔ _ := h.members_iff map
  rw [List.append_nil] at alone
  rw [h.members_iff map, alone]
  simp only [true_and]

end Readers

section Documents

variable {ε α : Type} {lift : Fault → ε} {item : Reader ε α} {first : Bool} {s t v r : List Char}
  {j : Json} {atEnd : Fault}

open Literal

theorem digits_atEnd {ds : List Char} (h : digits atEnd s = .ok (ds, r)) (other : Fault) :
    digits other s = .ok (ds, r) := by
  unfold digits at *
  split at h
  · cases h
  · exact h

theorem scanWhole_atEnd {ds : List Char} (h : scanWhole atEnd s = .ok (ds, r)) (other : Fault) :
    scanWhole other s = .ok (ds, r) := by
  unfold scanWhole at *
  split at h
  · exact h
  · exact digits_atEnd h other

theorem scanFraction_atEnd {o : Option (List Char)} (h : scanFraction atEnd s = .ok (o, r))
    (other : Fault) : scanFraction other s = .ok (o, r) := by
  unfold scanFraction at *
  split at h
  · obtain ⟨⟨ds, u⟩, read, ⟨⟩⟩ := Except.map_eq_ok_iff.1 h
    rw [digits_atEnd read other]
    rfl
  · exact h

theorem scanExponent_atEnd {o : Option (Bool × List Char)}
    (h : scanExponent atEnd s = .ok (o, r)) (other : Fault) :
    scanExponent other s = .ok (o, r) := by
  unfold scanExponent at *
  split at h
  case h_3 => exact h
  all_goals
    obtain ⟨⟨ds, u⟩, read, ⟨⟩⟩ := Except.map_eq_ok_iff.1 h
    rw [digits_atEnd read other]
    rfl

theorem scan_atEnd {l : Literal} (h : scan atEnd s = .ok (l, r)) (other : Fault) :
    scan other s = .ok (l, r) := by
  unfold scan at h
  split at h
  · cases h
  · rename_i whole
    split at h
    · cases h
    · rename_i fraction
      split at h
      · cases h
      · rename_i exponent
        rw [← h]
        simp only [scan, scanWhole_atEnd whole other, scanFraction_atEnd fraction other,
          scanExponent_atEnd exponent other]

theorem skipScalar_of_scalar (h : scalar s = .ok (j, r)) : skipScalar s = .ok r := by
  unfold scalar at h
  split at h
  · cases h
  · rename_i c u
    have read_word {w : List Char} {j' : Json} (hw : (word w u).map (j', ·) = .ok (j, r)) :
        word w u = .ok r := by
      obtain ⟨_, read, ⟨⟩⟩ := Except.map_eq_ok_iff.1 hw
      exact read
    split at h
    · subst_vars
      exact read_word h
    · split at h
      · subst_vars
        exact read_word h
      · split at h
        · subst_vars
          exact read_word h
        · split at h
          · subst_vars
            obtain ⟨_, read, ⟨⟩⟩ := Except.map_eq_ok_iff.1 h
            exact skipString_of_string read
          · split at h
            · rename_i starts
              obtain ⟨l, scanned⟩ : ∃ l, Literal.scan (.ended .value) (c :: u) = .ok (l, r) := by
                unfold number at h
                split at h
                · cases h
                · rename_i l _ scanned
                  split at h
                  · cases h
                  · obtain ⟨-, rfl⟩ := Prod.mk.inj (Except.ok.inj h)
                    exact ⟨l, scanned⟩
              rw [skipScalar_number starts, scan_atEnd scanned]
              rfl
            · cases h

theorem exists_members_written (passes : item.Passes) {as : List (String × α)}
    (h : members lift item first s = .ok (as, r)) :
    ∃ ms, members id written first s = .ok (ms, r) := by
  fun_induction members lift item first s generalizing as with
  | case1 | case3 | case4 | case5 | case6 => cases h
  | case2 first s t next =>
    cases h
    exact ⟨[], members_of_last next⟩
  | case7 first s u next key w named x colon a t read as' y others ih =>
    cases h
    obtain ⟨ms, found⟩ := ih others
    refine ⟨(String.ofList key, x) :: ms, ?_⟩
    rw [members_of_more next named colon (run_written_iff.2 ⟨rfl, passes read⟩), found]
    rfl

theorem ReadFrom.skip {inner : Option (Reader Fault Json)} (h : ReadFrom inner s j r)
    (hi : ∀ item ∈ inner, item.Passes) : skip s = .ok r := by
  cases h with
  | list level opened read =>
    obtain ⟨vs, found, -⟩ := exists_written_items (hi _ level) read
    exact skip_list opened found
  | map level opened read =>
    obtain ⟨ms, found⟩ := exists_members_written (hi _ level) read
    exact skip_map opened found
  | scalar first bracket brace read =>
    exact skip_scalar first bracket brace (skipScalar_of_scalar read)

theorem passes_value (depth : Nat) : (value depth).Passes := by
  induction depth with
  | zero =>
    intro s j r h
    exact (node_eq_ok_iff.1 h).skip (by simp)
  | succ depth ih =>
    intro s j r h
    refine (node_eq_ok_iff.1 h).skip ?_
    rintro _ ⟨⟩
    exact ih

theorem scalar_quotation (u : List Char) :
    scalar ('"' :: u) = (string u).map fun (cs, t) => (.str (String.ofList cs), t) :=
  rfl

theorem scalar_number {c : Char} {u : List Char} (h : IsNumber (c :: u)) (t : List Char) :
    scalar (c :: (u ++ t)) = number (c :: (u ++ t)) := by
  have starts := h.starts
  have letter : c ≠ 'n' ∧ c ≠ 't' ∧ c ≠ 'f' ∧ c ≠ '"' := by
    refine ⟨?_, ?_, ?_, ?_⟩ <;> rintro rfl <;> revert starts <;> decide
  simp only [scalar, letter, if_false, if_pos starts]

theorem map_append_iff {α : Type} {x y : Except Fault (α × List Char)} {f : α → Json}
    (h : ∀ {a}, x = .ok (a, t) ↔ y = .ok (a, [])) :
    (x.map fun (a, r) => (f a, r)) = .ok (j, t) ↔
      (y.map fun (a, r) => (f a, r)) = .ok (j, []) := by
  rw [Except.map_eq_ok_iff, Except.map_eq_ok_iff]
  constructor
  · rintro ⟨⟨a, _⟩, read, ⟨⟩⟩
    exact ⟨(a, []), h.1 read, rfl⟩
  · rintro ⟨⟨a, _⟩, read, ⟨⟩⟩
    exact ⟨(a, t), h.2 read, rfl⟩

theorem scalar_append_iff (h : IsValue v) (ends : EndsNumber t) :
    scalar (v ++ t) = .ok (j, t) ↔ scalar v = .ok (j, []) := by
  cases h with
  | word h =>
    simp only [List.mem_cons, List.not_mem_nil, or_false] at h
    obtain rfl | rfl | rfl := h <;> simp [scalar, word, Except.map]
  | number h =>
    obtain ⟨l, scanned⟩ := h.scan (.ended .value) endsNumber_nil
    rw [List.append_nil] at scanned
    have behind := scan_before scanned ends
    obtain ⟨c, u, rfl, -⟩ := h.exists_cons
    have alone := scalar_number h []
    rw [List.append_nil] at alone
    rw [List.nil_append, List.cons_append] at behind
    rw [List.cons_append, scalar_number h, alone]
    simp only [number, scanned, behind]
    cases l.value <;> simp
  | string h =>
    rw [List.cons_append, scalar_quotation, scalar_quotation]
    exact map_append_iff (f := fun cs => .str (String.ofList cs))
      (h.string_append_iff.trans (and_iff_right rfl))
  | list | map => simp [scalar]

theorem run_value_append_iff {depth : Nat} (inner : ∀ d < depth, (value d).Exact)
    (h : IsValue v) (ends : EndsNumber t) :
    (value depth).run (v ++ t) = .ok (j, t) ↔ (value depth).run v = .ok (j, []) := by
  have of_scalar {c : Char} {u : List Char} (front : v = c :: u) (space : isSpace c = false)
      (bracket : c ≠ '[') (brace : c ≠ '\x7b') :
      (value depth).run (v ++ t) = .ok (j, t) ↔ (value depth).run v = .ok (j, []) := by
    rw [front, List.cons_append, run_value_of_scalar space bracket brace,
      run_value_of_scalar space bracket brace, ← List.cons_append, ← front]
    exact scalar_append_iff h ends
  cases h with
  | word h =>
    simp only [List.mem_cons, List.not_mem_nil, or_false] at h
    obtain rfl | rfl | rfl := h <;> exact of_scalar rfl (by decide) (by decide) (by decide)
  | number h =>
    obtain ⟨c, u, rfl, -⟩ := h.exists_cons
    obtain ⟨space, bracket, brace⟩ := h.head
    exact of_scalar rfl space bracket brace
  | string h => exact of_scalar rfl (by decide) (by decide) (by decide)
  | list h =>
    rw [List.cons_append]
    cases depth with
    | zero => simp [run_value_zero_list]
    | succ depth =>
      rw [run_value_list, run_value_list]
      exact map_append_iff ((inner depth (by omega)).items_append_iff h)
  | map h =>
    rw [List.cons_append]
    cases depth with
    | zero => simp [run_value_zero_map]
    | succ depth =>
      rw [run_value_map, run_value_map]
      exact map_append_iff ((inner depth (by omega)).members_append_iff h)

theorem exact_value (depth : Nat) : (value depth).Exact := by
  induction depth using Nat.strongRecOn with
  | ind depth ih =>
    exact ⟨passes_value depth, run_value_skipSpace depth, run_value_append_iff ih⟩

end Documents

section Combinators

variable {α β : Type} {item : Reader Misfit α} {t v : List Char}

theorem Reader.run_text_iff (h : IsValue v) {k : String} :
    Reader.text.run (v ++ t) = .ok (k, t) ↔ Spells v k := by
  change runText (v ++ t) = _ ↔ _
  unfold runText
  rw [h.skipSpace]
  obtain ⟨c, q, rfl⟩ := h.exists_cons
  rw [List.cons_append]
  split
  · rename_i front
    cases front
    rw [spells_iff]
    constructor
    · intro read
      obtain ⟨cs, found, rfl⟩ := mapResult_eq_ok read
      simpa using ((h.of_head.1 rfl).string_append_iff.1 (liftFault_eq_ok.1 found)).2
    · intro read
      rw [(h.of_head.1 rfl).string_append_iff.2 ⟨rfl, read⟩]
      simp [liftFault, mapResult]
  · rename_i other
    refine iff_of_false (by rintro ⟨⟩) ?_
    rintro ⟨_, ⟨⟩, -⟩
    exact other _ rfl

theorem Reader.run_listOf_iff (h : item.Exact) (value : IsValue v) {as : List α} :
    (Reader.listOf item).run (v ++ t) = .ok (as, t) ↔
      ∃ vs, IsList v vs ∧ List.Forall₂ (fun v a => item.run v = .ok (a, [])) vs as := by
  change runListOf item (v ++ t) = _ ↔ _
  unfold runListOf
  rw [value.skipSpace]
  obtain ⟨c, u, rfl⟩ := value.exists_cons
  rw [List.cons_append]
  split
  · rename_i front
    cases front
    constructor
    · intro read
      obtain ⟨vs, list⟩ := value.of_head.2.1 rfl
      exact ⟨vs, ⟨u, rfl, list⟩, ((h.items_iff list).1 read).2⟩
    · rintro ⟨vs, ⟨_, ⟨⟩, list⟩, reads⟩
      exact (h.items_iff list).2 ⟨rfl, reads⟩
  · rename_i other
    refine iff_of_false (by rintro ⟨⟩) ?_
    rintro ⟨vs, ⟨_, ⟨⟩, -⟩, -⟩
    exact other _ rfl

theorem Reader.run_optional_iff (h : item.Exact) (value : IsValue v) (ends : EndsNumber t)
    {o : Option α} :
    item.optional.run (v ++ t) = .ok (o, t) ↔
      v = ['n', 'u', 'l', 'l'] ∧ o = none ∨
        v ≠ ['n', 'u', 'l', 'l'] ∧ ∃ a, o = some a ∧ item.run v = .ok (a, []) := by
  have same (a : α) := h.before (a := a) value ends
  change runOptional item (v ++ t) = _ ↔ _
  unfold runOptional
  rw [value.skipSpace]
  obtain ⟨c, u, rfl⟩ := value.exists_cons
  rw [List.cons_append] at *
  split
  · rename_i front
    cases front
    cases value.of_head.2.2.2 rfl
    have passed : runNull ('n' :: (['u', 'l', 'l'] ++ t)) = .ok ((), t) := by
      simp [runNull, skipSpace_cons (c := 'n') rfl, word, Except.map, liftFault, mapResult]
    rw [passed]
    simp [mapResult, eq_comm]
  · rename_i other
    have null : c :: u ≠ ['n', 'u', 'l', 'l'] := by
      rintro ⟨⟩
      exact other _ rfl
    constructor
    · intro read
      obtain ⟨a, found, rfl⟩ := mapResult_eq_ok read
      exact .inr ⟨null, a, rfl, (same a).1 found⟩
    · rintro (⟨null', -⟩ | ⟨-, a, rfl, read⟩)
      · exact absurd null' null
      · rw [(same a).2 read]
        rfl

theorem Reader.exact_of_iff {Reads : List Char → α → Prop} (passes : item.Passes)
    (spaces : ∀ s, item.run (skipSpace s) = item.run s)
    (h : ∀ {v t a}, IsValue v → EndsNumber t → (item.run (v ++ t) = .ok (a, t) ↔ Reads v a)) :
    item.Exact where
  passes := passes
  spaces := spaces
  before {v t a} value ends := by
    have alone := h (a := a) value endsNumber_nil
    rw [List.append_nil] at alone
    rw [h value ends, alone]

theorem Reader.exact_text : Reader.text.Exact := by
  refine exact_of_iff passes_text (fun s => ?_) fun value _ => run_text_iff value
  change runText (skipSpace s) = runText s
  simp only [runText, skipSpace_skipSpace]

theorem Reader.Exact.listOf (h : item.Exact) : (Reader.listOf item).Exact := by
  refine exact_of_iff (passes_listOf h.passes) (fun s => ?_) fun value _ => run_listOf_iff h value
  change runListOf item (skipSpace s) = runListOf item s
  simp only [runListOf, skipSpace_skipSpace]

theorem Reader.Exact.optional (h : item.Exact) : item.optional.Exact := by
  refine exact_of_iff ?_ (fun s => ?_) fun value ends => run_optional_iff h value ends
  · intro s o r read
    change runOptional item s = _ at read
    unfold runOptional at read
    split at read
    · rename_i u first
      obtain ⟨_, null, -⟩ := mapResult_eq_ok read
      rw [runNull, skipSpace_cons (by decide)] at null
      obtain ⟨_, null, -⟩ := mapResult_eq_ok null
      obtain ⟨_, spelt, ⟨⟩⟩ := Except.map_eq_ok_iff.1 (liftFault_eq_ok.1 null)
      exact skip_scalar first (by decide) (by decide) spelt
    · obtain ⟨a, found, -⟩ := mapResult_eq_ok read
      rw [h.spaces] at found
      exact h.passes found
  · change runOptional item (skipSpace s) = runOptional item s
    simp only [runOptional, skipSpace_skipSpace]

theorem Reader.run_map_iff {f : α → β} {s r : List Char} {b : β} :
    (item.map f).run s = .ok (b, r) ↔ ∃ a, item.run s = .ok (a, r) ∧ f a = b := by
  constructor
  · exact mapResult_eq_ok
  · rintro ⟨a, read, rfl⟩
    change mapResult f (item.run s) = _
    rw [read]
    rfl

theorem Reader.Exact.map (h : item.Exact) (f : α → β) : (item.map f).Exact where
  passes := passes_map h.passes f
  spaces s := congrArg (mapResult f) (h.spaces s)
  before value ends := by simp only [run_map_iff, h.before value ends]

end Combinators

section Texts

variable {ε α : Type} {a : α} {s : List Char}

theorem Reader.Exact.reads_iff {item : Reader ε α} (h : item.Exact) :
    (∃ r, item.run s = .ok (a, r) ∧ skipSpace r = []) ↔
      ∃ v, Wraps s v ∧ item.run v = .ok (a, []) := by
  constructor
  · rintro ⟨r, read, finished⟩
    have behind := skipSpace_eq_nil_iff.1 finished
    obtain ⟨w, v, rfl, before, value⟩ := exists_of_skip (h.passes read)
    rw [h.run_spaces before] at read
    exact ⟨v, ⟨w, r, rfl, before, behind, value⟩, (h.before value behind.endsNumber).1 read⟩
  · rintro ⟨v, ⟨w, x, rfl, before, behind, value⟩, read⟩
    refine ⟨x, ?_, skipSpace_eq_nil_iff.2 behind⟩
    rw [h.run_spaces before]
    exact (h.before value behind.endsNumber).2 read

theorem Reader.Exact.readAll_eq_ok_iff {item : Reader Misfit α} (h : item.Exact) {s : String} :
    item.readAll s = .ok a ↔ ∃ v, Wraps s.toList v ∧ item.run v = .ok (a, []) := by
  rw [← h.reads_iff]
  unfold Reader.readAll finish
  cases item.run s.toList with
  | error e => simp
  | ok p =>
    obtain ⟨b, r⟩ := p
    by_cases finished : skipSpace r = []
    · simp [finished, Except.map]
    · simp [finished, Except.map]

theorem parse_eq_ok_iff_wraps {s : String} {j : Json} :
    parse s = .ok j ↔ ∃ v, Wraps s.toList v ∧ (value maxDepth).run v = .ok (j, []) := by
  rw [parse_eq_ok_iff, (exact_value maxDepth).reads_iff]

end Texts

end ScmPlugins.Json
