import ScmPlugins.Json.Record
import ScmPlugins.Proofs.Json.Embedding

/-!
Passing over what is read. Whatever a reader accepts is passed over up to the same place, so a
record that is read from a map meets the members that stand there, and those that are its fields
only once.
-/

namespace ScmPlugins.Json

def Reader.Passes {ε α : Type} (item : Reader ε α) : Prop :=
  ∀ {s a r}, item.run s = .ok (a, r) → skip s = .ok r

def written : Reader Fault (List Char) where
  run s := (skip s).map (s, ·)
  shorter h := by
    obtain ⟨_, passed, ⟨⟩⟩ := Except.map_eq_ok_iff.1 h
    exact skip_shorter passed

/-- The members of the map that a text begins with. -/
def writtenMembers? (s : List Char) : Option (List (String × List Char)) :=
  match skipSpace s with
  | '\x7b' :: r => (members id written true r).toOption.map (·.1)
  | _ => none

def writtenItems? (s : List Char) : Option (List (List Char)) :=
  match skipSpace s with
  | '[' :: r => (items id written true r).toOption.map (·.1)
  | _ => none

section Strings

variable {s t r : List Char}

theorem skipString_escape (h : skipEscape s = .ok t) : skipString ('\\' :: s) = skipString t := by
  rw [skipString]
  split
  · simp_all
  · simp_all

theorem skipString_unit {n : Nat} (h : hexUnit s = .ok (n, r)) :
    skipString ('\\' :: 'u' :: s) = skipString r := by
  refine skipString_escape ?_
  simp only [skipEscape, h]
  rfl

theorem hexUnit_of_lowSurrogate {n : Nat} (h : lowSurrogate s = .ok (n, r)) :
    ∃ t, s = '\\' :: 'u' :: t ∧ hexUnit t = .ok (n, r) := by
  unfold lowSurrogate at h
  split at h
  · cases h
  · cases h
  · split at h
    · cases h
    · split at h
      · cases h
        exact ⟨_, rfl, ‹_›⟩
      · cases h
  · cases h

theorem skipString_hexChar {c : Char} (h : hexChar s = .ok (c, r)) :
    skipString ('\\' :: 'u' :: s) = skipString r := by
  unfold hexChar at h
  split at h
  · cases h
  · rename_i first
    rw [skipString_unit first]
    split at h
    · cases h
    · split at h
      · split at h
        · cases h
        · rename_i low
          obtain ⟨-, rfl⟩ := Prod.mk.inj (Except.ok.inj h)
          obtain ⟨t, rfl, second⟩ := hexUnit_of_lowSurrogate low
          exact skipString_unit second
      · obtain ⟨-, rfl⟩ := Prod.mk.inj (Except.ok.inj h)
        rfl

theorem skipString_of_escape {c : Char} (h : escape s = .ok (c, r)) :
    skipString ('\\' :: s) = skipString r := by
  unfold escape at h
  split at h
  · cases h
  · exact skipString_hexChar h
  · rename_i letter
    split at h
    · rename_i known
      cases h
      refine skipString_escape ?_
      rw [skipEscape, known]
      · rfl
      · exact letter
    · cases h

theorem skipString_of_string {cs : List Char} (h : string s = .ok (cs, r)) :
    skipString s = .ok r := by
  fun_induction string s generalizing cs with
  | case1 | case3 | case5 => cases h
  | case2 =>
    cases h
    rw [skipString]
  | case4 u c v escaped ih =>
    obtain ⟨⟨ds, w⟩, read, ⟨⟩⟩ := Except.map_eq_ok_iff.1 h
    rw [skipString_of_escape escaped, ih read]
  | case6 c u quote backslash control ih =>
    obtain ⟨⟨ds, w⟩, read, ⟨⟩⟩ := Except.map_eq_ok_iff.1 h
    rw [skipString, if_neg control, ih read]
    · exact quote
    · exact backslash

end Strings

section Frames

variable {stage : Stage} {frame : Frame} {frames : List Frame} {s t r : List Char}

theorem skipFrom_value (frames : List Frame) (s : List Char) :
    skipFrom .value frames s =
      skipValue frames s >>= fun (stage, left, t) => skipFrom stage left t := by
  rw [skipFrom]
  split <;> simp_all [bind, Except.bind]

theorem skipFrom_rest (frame : Frame) (frames : List Frame) (s : List Char) :
    skipFrom .rest (frame :: frames) s =
      skipRest frame frames s >>= fun (stage, left, t) => skipFrom stage left t := by
  rw [skipFrom]
  split <;> simp_all [bind, Except.bind]

@[simp] theorem skipFrom_nil (s : List Char) : skipFrom .rest [] s = .ok s := by
  rw [skipFrom]

def within (base : List Frame) : Stage × List Frame × List Char → Stage × List Frame × List Char
  | (stage, frames, s) => (stage, frames ++ base, s)

theorem skipValue_append (frames base : List Frame) (s : List Char) :
    skipValue (frames ++ base) s = (skipValue frames s).map (within base) := by
  unfold skipValue
  split
  · split <;> rfl
  · split
    · rfl
    · cases skipKey _ <;> rfl
  · cases skipScalar _ <;> rfl

theorem skipRest_append (frame : Frame) (frames base : List Frame) (s : List Char) :
    skipRest frame (frames ++ base) s = (skipRest frame frames s).map (within base) := by
  unfold skipRest
  split
  case h_7 => cases skipKey _ <;> rfl
  all_goals rfl

theorem skipFrom_append (h : skipFrom stage frames s = .ok r) (base : List Frame) :
    skipFrom stage (frames ++ base) s = skipFrom .rest base r := by
  fun_induction skipFrom stage frames s with
  | case1 | case4 => cases h
  | case2 s frames stage left t value ih =>
    rw [skipFrom_value, skipValue_append, value]
    exact ih h
  | case3 s =>
    cases h
    rfl
  | case5 s frame frames stage left t rest ih =>
    rw [List.cons_append, skipFrom_rest, skipRest_append, rest]
    exact ih h

theorem skipFrom_of_skip (h : skip s = .ok r) (frames : List Frame) :
    skipFrom .value frames s = skipFrom .rest frames r := by
  have passed : skipFrom .value [] s = .ok r := h
  exact skipFrom_append passed frames

theorem skipFrom_skipSpace (frames : List Frame) (s : List Char) :
    skipFrom .value frames (skipSpace s) = skipFrom .value frames s := by
  have same : skipValue frames (skipSpace s) = skipValue frames s := by
    unfold skipValue
    rw [skipSpace_skipSpace]
  rw [skipFrom_value, skipFrom_value, same]

end Frames

section Steps

variable {frames : List Frame} {s t u r v : List Char}

theorem skipKey_of_skipString (quote : skipSpace s = '"' :: t) (h : skipString t = .ok u)
    (hc : colon u = .ok v) : skipKey s = .ok v := by
  rw [skipKey, quote]
  simp only [h, hc]

theorem skip_list_last (opened : skipSpace s = '[' :: t) (h : nextItem true t = .ok (.last r)) :
    skip s = .ok r := by
  have empty : skipValue [] s = .ok (.rest, [], r) := by
    unfold nextItem at h
    simp only [skipValue, opened]
    grind
  rw [skip, skipFrom_value, empty]
  exact skipFrom_nil r

theorem skip_list_more (opened : skipSpace s = '[' :: t) (h : nextItem true t = .ok (.more u)) :
    skip s = skipFrom .value [.list] u := by
  have opens : skipValue [] s = .ok (.value, [.list], u) := by
    unfold nextItem at h
    simp only [skipValue, opened]
    grind
  rw [skip, skipFrom_value, opens]
  rfl

theorem skip_map_last (opened : skipSpace s = '\x7b' :: t)
    (h : nextMember true t = .ok (.last r)) : skip s = .ok r := by
  have empty : skipValue [] s = .ok (.rest, [], r) := by
    unfold nextMember at h
    simp only [skipValue, opened]
    grind
  rw [skip, skipFrom_value, empty]
  exact skipFrom_nil r

theorem skip_map_more {w : List Char} (opened : skipSpace s = '\x7b' :: t)
    (h : nextMember true t = .ok (.more u)) (hk : skipString u = .ok v) (hc : colon v = .ok w) :
    skip s = skipFrom .value [.map] w := by
  have quote : skipSpace t = '"' :: u := by
    unfold nextMember at h
    grind
  have key := skipKey_of_skipString (skipSpace_cons (by decide) u) hk hc
  have opens : skipValue [] s = .ok (.value, [.map], w) := by
    simp [skipValue, opened, quote, key, Except.map]
  rw [skip, skipFrom_value, opens]
  rfl

theorem skipFrom_list_last (h : nextItem false s = .ok (.last r)) :
    skipFrom .rest (.list :: frames) s = skipFrom .rest frames r := by
  have close : skipRest .list frames s = .ok (.rest, frames, r) := by
    unfold nextItem at h
    unfold skipRest
    grind
  rw [skipFrom_rest, close]
  rfl

theorem skipFrom_list_more (h : nextItem false s = .ok (.more t)) :
    skipFrom .rest (.list :: frames) s = skipFrom .value (.list :: frames) t := by
  obtain ⟨u, comma, rfl⟩ : ∃ u, skipSpace s = ',' :: u ∧ t = skipSpace u := by
    unfold nextItem at h
    grind
  have go_on : skipRest .list frames s = .ok (.value, .list :: frames, u) := by
    simp only [skipRest, comma]
  rw [skipFrom_rest, go_on, skipFrom_skipSpace]
  rfl

theorem skipFrom_map_last (h : nextMember false s = .ok (.last r)) :
    skipFrom .rest (.map :: frames) s = skipFrom .rest frames r := by
  have close : skipRest .map frames s = .ok (.rest, frames, r) := by
    unfold nextMember at h
    unfold skipRest
    grind
  rw [skipFrom_rest, close]
  rfl

theorem skipFrom_map_more (h : nextMember false s = .ok (.more t)) (hk : skipString t = .ok u)
    (hc : colon u = .ok v) :
    skipFrom .rest (.map :: frames) s = skipFrom .value (.map :: frames) v := by
  obtain ⟨w, comma, quote⟩ : ∃ w, skipSpace s = ',' :: w ∧ skipSpace w = '"' :: t := by
    unfold nextMember at h
    grind
  have go_on : skipRest .map frames s = .ok (.value, .map :: frames, v) := by
    simp only [skipRest, comma, skipKey_of_skipString quote hk hc]
    rfl
  rw [skipFrom_rest, go_on]
  rfl

end Steps

section Written

variable {ε α : Type} {lift : Fault → ε} {item : Reader ε α} {first : Bool} {s t v r : List Char}
  {as : List α} {vs : List (List Char)} {ms : List (String × List Char)}

theorem run_written_iff : written.run s = .ok (v, r) ↔ v = s ∧ skip s = .ok r := by
  rw [written, Except.map_eq_ok_iff]
  constructor
  · rintro ⟨_, passed, ⟨⟩⟩
    exact ⟨rfl, passed⟩
  · rintro ⟨rfl, passed⟩
    exact ⟨r, passed, rfl⟩

theorem writtenItems?_of_items (opened : skipSpace s = '[' :: t)
    (h : items id written true t = .ok (vs, r)) : writtenItems? s = some vs := by
  simp only [writtenItems?, opened, h]
  rfl

theorem writtenMembers?_of_members (opened : skipSpace s = '\x7b' :: t)
    (h : members id written true t = .ok (ms, r)) : writtenMembers? s = some ms := by
  simp only [writtenMembers?, opened, h]
  rfl

theorem opened_of_writtenItems? (h : writtenItems? s = some vs) : ∃ t, skipSpace s = '[' :: t := by
  unfold writtenItems? at h
  split at h
  · exact ⟨_, ‹_›⟩
  · cases h

theorem opened_of_writtenMembers? (h : writtenMembers? s = some ms) :
    ∃ t, skipSpace s = '\x7b' :: t := by
  unfold writtenMembers? at h
  split at h
  · exact ⟨_, ‹_›⟩
  · cases h

theorem exists_written_items (passes : item.Passes) (h : items lift item first s = .ok (as, r)) :
    ∃ vs, items id written first s = .ok (vs, r) ∧
      ∀ v ∈ vs, ∃ a t, item.run v = .ok (a, t) := by
  fun_induction items lift item first s generalizing as with
  | case1 | case3 | case4 => cases h
  | case2 first s t next =>
    cases h
    exact ⟨[], items_of_last next, by simp⟩
  | case5 first s u next a t read as' w others ih =>
    cases h
    obtain ⟨vs, found, reads⟩ := ih others
    refine ⟨u :: vs, ?_, List.forall_mem_cons.2 ⟨⟨a, t, read⟩, reads⟩⟩
    rw [items_of_more next (run_written_iff.2 ⟨rfl, passes read⟩), found]
    rfl

theorem skipFrom_items {frames : List Frame} (h : items id written false s = .ok (vs, r)) :
    skipFrom .rest (.list :: frames) s = skipFrom .rest frames r := by
  generalize begun : false = first at h
  fun_induction items id written first s generalizing vs with
  | case1 | case3 | case4 => cases h
  | case2 first s t next =>
    cases h
    subst begun
    exact skipFrom_list_last next
  | case5 first s u next a t read vs' w others ih =>
    cases h
    subst begun
    rw [skipFrom_list_more next, skipFrom_of_skip (run_written_iff.1 read).2, ih rfl others]

theorem skipFrom_members {frames : List Frame} (h : members id written false s = .ok (ms, r)) :
    skipFrom .rest (.map :: frames) s = skipFrom .rest frames r := by
  generalize begun : false = first at h
  fun_induction members id written first s generalizing ms with
  | case1 | case3 | case4 | case5 | case6 => cases h
  | case2 first s t next =>
    cases h
    subst begun
    exact skipFrom_map_last next
  | case7 first s u next key w named x colon a t read ms' y others ih =>
    cases h
    subst begun
    rw [skipFrom_map_more next (skipString_of_string named) colon,
      skipFrom_of_skip (run_written_iff.1 read).2, ih rfl others]

theorem skip_list (opened : skipSpace s = '[' :: t) (h : items id written true t = .ok (vs, r)) :
    skip s = .ok r := by
  rw [items] at h
  split at h
  · cases h
  · rename_i next
    cases h
    exact skip_list_last opened next
  · rename_i next
    split at h
    · cases h
    · rename_i read
      split at h
      · cases h
      · rename_i others
        cases h
        rw [skip_list_more opened next, skipFrom_of_skip (run_written_iff.1 read).2,
          skipFrom_items others, skipFrom_nil]

theorem skip_map (opened : skipSpace s = '\x7b' :: t)
    (h : members id written true t = .ok (ms, r)) : skip s = .ok r := by
  rw [members] at h
  split at h
  · cases h
  · rename_i next
    cases h
    exact skip_map_last opened next
  · rename_i next
    split at h
    · cases h
    · rename_i named
      split at h
      · cases h
      · rename_i colon
        split at h
        · cases h
        · rename_i read
          split at h
          · cases h
          · rename_i others
            cases h
            rw [skip_map_more opened next (skipString_of_string named) colon,
              skipFrom_of_skip (run_written_iff.1 read).2, skipFrom_members others, skipFrom_nil]

end Written

section Readers

variable {α β : Type} {s r : List Char}

theorem Reader.passes_map {item : Reader Misfit α} (h : item.Passes) (f : α → β) :
    (item.map f).Passes := by
  intro s b r read
  obtain ⟨a, read, -⟩ := mapResult_eq_ok read
  exact h read

theorem Reader.passes_text : Reader.text.Passes := by
  intro s a r read
  change runText s = _ at read
  unfold runText at read
  split at read
  · rename_i u quote
    obtain ⟨cs, found, -⟩ := mapResult_eq_ok read
    have scalar : skipScalar ('"' :: u) = .ok r := skipString_of_string (liftFault_eq_ok.1 found)
    have passed : skipValue [] s = .ok (.rest, [], r) := by
      simp [skipValue, quote, scalar, Except.map]
    rw [skip, skipFrom_value, passed]
    exact skipFrom_nil r
  · cases read

theorem Reader.passes_listOf {item : Reader Misfit α} (h : item.Passes) :
    (Reader.listOf item).Passes := by
  intro s as r read
  change runListOf item s = _ at read
  unfold runListOf at read
  split at read
  · rename_i opened
    obtain ⟨vs, found, -⟩ := exists_written_items h read
    exact skip_list opened found
  · cases read

end Readers

namespace Record

variable {σ : Type} {form : Record σ}

theorem exists_written_members (passes : ∀ f ∈ form.fields, f.read.Passes) {first : Bool}
    {seen : List String} {acc a : σ} {s r : List Char}
    (h : form.readMembers first seen acc s = .ok (a, r)) :
    ∃ ms, members id written first s = .ok (ms, r) ∧
      (∀ f ∈ form.fields, (ms.map (·.1)).count f.name ≤ if f.name ∈ seen then 0 else 1) ∧
      ∀ m ∈ ms, ∀ f, form.fields.find? (·.name == m.1) = some f →
        ∃ put t, f.read.run m.2 = .ok (put, t) := by
  fun_induction form.readMembers first seen acc s with
  | case1 | case2 | case4 | case5 | case6 | case8 | case9 | case10 => cases h
  | case3 first seen acc s t next =>
    cases h
    exact ⟨[], members_of_last next, by simp, by simp⟩
  | case7 first seen acc s u next key v named unknown w colon t passed ih =>
    obtain ⟨ms, found, once, reads⟩ := ih h
    refine ⟨(String.ofList key, w) :: ms, ?_, ?_, ?_⟩
    · rw [members_of_more next named colon (run_written_iff.2 ⟨rfl, passed⟩), found]
      rfl
    · intro f hf
      have other : String.ofList key ≠ f.name := by
        rintro same
        simpa [same] using List.find?_eq_none.1 unknown f hf
      simpa [List.count_cons, other] using once f hf
    · rintro m (_ | ⟨_, hm⟩) f hf
      · rw [unknown] at hf
        cases hf
      · exact reads m hm f hf
  | case11 first seen acc s u next key v named field known fresh w colon put t read ih =>
    obtain ⟨ms, found, once, reads⟩ := ih h
    have member := List.mem_of_find?_eq_some known
    have same : field.name = String.ofList key := by simpa using List.find?_some known
    refine ⟨(String.ofList key, w) :: ms, ?_, ?_, ?_⟩
    · rw [members_of_more next named colon (run_written_iff.2 ⟨rfl, passes field member read⟩),
        found]
      rfl
    · intro f hf
      have later := once f hf
      grind
    · rintro m (_ | ⟨_, hm⟩) f hf
      · rw [known] at hf
        cases hf
        exact ⟨put, t, read⟩
      · exact reads m hm f hf

theorem nextItem_of_closeList {s r : List Char} (h : closeList s = .ok r) (first : Bool) :
    nextItem first s = .ok (.last r) := by
  unfold closeList at h
  unfold nextItem
  grind

theorem exists_written_fields {index : Nat} {fields : List (Field σ)}
    (passes : ∀ f ∈ fields, f.read.Passes) {acc a : σ} {s r : List Char}
    (h : form.readItems index fields acc s = .ok (a, r)) :
    ∃ vs, items id written (index == 0) s = .ok (vs, r) ∧
      ∀ v f, (v, f) ∈ vs.zip fields → ∃ put t, f.read.run v = .ok (put, t) := by
  fun_induction form.readItems index fields acc s with
  | case1 index acc s =>
    obtain ⟨t, close, ⟨⟩⟩ := Except.map_eq_ok_iff.1 h
    exact ⟨[], items_of_last (nextItem_of_closeList (liftFault_eq_ok.1 close) _), by simp⟩
  | case2 | case3 | case5 => cases h
  | case4 index field fields acc s t next =>
    cases h
    exact ⟨[], items_of_last next, by simp⟩
  | case6 index field fields acc s u next put t read ih =>
    obtain ⟨passes_field, passes⟩ := List.forall_mem_cons.1 passes
    obtain ⟨vs, found, reads⟩ := ih passes h
    refine ⟨u :: vs, ?_, ?_⟩
    · rw [items_of_more next (run_written_iff.2 ⟨rfl, passes_field read⟩)]
      rw [show (index + 1 == 0) = false from rfl] at found
      rw [found]
      rfl
    · intro v f hv
      rw [List.zip_cons_cons, List.mem_cons] at hv
      obtain ⟨rfl, rfl⟩ | hv := hv
      · exact ⟨put, t, read⟩
      · exact reads v f hv

theorem run_skipSpace (form : Record σ) (s : List Char) : form.run (skipSpace s) = form.run s := by
  unfold run
  rw [skipSpace_skipSpace]

section Run

variable (passes : ∀ f ∈ form.fields, f.read.Passes) {a : σ} {s t r : List Char}
include passes

theorem passes_reader : form.reader.Passes := by
  intro s a r read
  change form.run s = _ at read
  unfold run at read
  split at read
  · rename_i opened
    obtain ⟨vs, found, -⟩ := exists_written_fields passes read
    exact skip_list opened found
  · rename_i opened
    obtain ⟨ms, found, -⟩ := exists_written_members passes read
    exact skip_map opened found
  · cases read

theorem members_of_run (h : form.run s = .ok (a, r)) (opened : skipSpace s = '\x7b' :: t) :
    ∃ ms, writtenMembers? s = some ms ∧
      (∀ f ∈ form.fields, (ms.map (·.1)).count f.name ≤ 1) ∧
      ∀ m ∈ ms, ∀ f, form.fields.find? (·.name == m.1) = some f →
        ∃ put t, f.read.run m.2 = .ok (put, t) := by
  simp only [run, opened] at h
  obtain ⟨ms, found, once, reads⟩ := exists_written_members passes h
  exact ⟨ms, writtenMembers?_of_members opened found, by simpa using once, reads⟩

theorem items_of_run (h : form.run s = .ok (a, r)) (opened : skipSpace s = '[' :: t) :
    ∃ vs, writtenItems? s = some vs ∧
      ∀ v f, (v, f) ∈ vs.zip form.fields → ∃ put t, f.read.run v = .ok (put, t) := by
  simp only [run, opened] at h
  obtain ⟨vs, found, reads⟩ := exists_written_fields passes h
  exact ⟨vs, writtenItems?_of_items opened found, reads⟩

end Run

end Record

theorem Reader.run_of_optional {α : Type} {item : Reader Misfit α} {o : Option α}
    {s u r : List Char} {b : Char} (h : item.optional.run s = .ok (o, r))
    (first : skipSpace s = b :: u) (null : b ≠ 'n') :
    ∃ a, item.run (skipSpace s) = .ok (a, r) := by
  change runOptional item s = _ at h
  unfold runOptional at h
  split at h
  · rename_i other
    rw [first] at other
    exact absurd (List.cons.inj other).1 null
  · obtain ⟨a, read, -⟩ := mapResult_eq_ok h
    exact ⟨a, read⟩

theorem Reader.items_of_listOf {α : Type} {item : Reader Misfit α} (passes : item.Passes)
    {as : List α} {s r : List Char} (h : (Reader.listOf item).run s = .ok (as, r)) :
    ∃ vs, writtenItems? s = some vs ∧ ∀ v ∈ vs, ∃ a t, item.run v = .ok (a, t) := by
  change runListOf item s = _ at h
  unfold runListOf at h
  split at h
  · rename_i opened
    obtain ⟨vs, found, reads⟩ := exists_written_items passes h
    exact ⟨vs, writtenItems?_of_items opened found, reads⟩
  · cases h

end ScmPlugins.Json
