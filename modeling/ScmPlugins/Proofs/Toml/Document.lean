import Mathlib.Tactic.ByContra
import ScmPlugins.OrderedMap
import ScmPlugins.Toml.Document

namespace ScmPlugins.Toml

namespace Table

abbrev names (t : Table) : List String := t.map (·.1)

section Names

variable {t t' : Table} {k : String} {v : Item} {made here : Origin} {path header : List String}
  {change : Origin → Table → Option Table}

theorem put_eq (k : String) (v : Item) (t : Table) : put k v t = OrderedMap.put k v t := by
  induction t with
  | nil => rfl
  | cons e t ih =>
    simp only [put, OrderedMap.put, ih]
    grind

theorem nodup_put (distinct : t.names.Nodup) : (put k v t).names.Nodup := by
  rw [put_eq]
  exact OrderedMap.nodup_put k v distinct

theorem lookup_isSome_iff : (t.lookup k).isSome ↔ k ∈ names t := by
  rw [List.lookup_isSome_iff, List.mem_map]
  exact exists_congr fun e => and_congr_right fun _ => beq_iff_eq.trans eq_comm

theorem put_of_fresh (fresh : k ∉ t.names) : put k v t = t ++ [(k, v)] := by
  induction t with
  | nil => rfl
  | cons e t ih =>
    simp only [names, List.map_cons, List.mem_cons, not_or] at fresh
    rw [put, if_neg (Ne.symm fresh.1), ih fresh.2, List.cons_append]

theorem assignIn_of_fresh (fresh : k ∉ t.names) : assignIn [] [] k v t = some (t ++ [(k, v)]) := by
  have unknown : (t.lookup k).isSome = false := by
    rw [← Bool.not_eq_true, lookup_isSome_iff]
    exact fresh
  simp [assignIn, assign, within, add, unknown, put_of_fresh fresh]

theorem nodup_within
    (step : ∀ o (u u' : Table), change o u = some u' → u.names.Nodup → u'.names.Nodup)
    (h : within made change here path t = some t') (distinct : t.names.Nodup) :
    t'.names.Nodup := by
  cases path with
  | nil => exact step here t t' h distinct
  | cons k ks =>
    rw [within] at h
    split at h
    · obtain ⟨u, -, rfl⟩ := Option.map_eq_some_iff.1 h
      exact nodup_put distinct
    · split at h
      · cases h
      · obtain ⟨u, -, rfl⟩ := Option.map_eq_some_iff.1 h
        exact nodup_put distinct
    · split at h
      · cases h
      · obtain ⟨u, -, rfl⟩ := Option.map_eq_some_iff.1 h
        exact nodup_put distinct
    · cases h

theorem nodup_add (h : add k v t = some t') (distinct : t.names.Nodup) : t'.names.Nodup := by
  unfold add at h
  split at h
  · cases h
  · cases h
    exact nodup_put distinct

theorem nodup_assign (h : assign path k v t = some t') (distinct : t.names.Nodup) :
    t'.names.Nodup := by
  refine nodup_within (fun o u u' changed => ?_) h distinct
  split at changed
  · exact nodup_add changed
  · cases changed

theorem nodup_assignIn (h : assignIn header path k v t = some t') (distinct : t.names.Nodup) :
    t'.names.Nodup :=
  nodup_within (fun _ _ _ => nodup_assign) h distinct

theorem nodup_openTable (h : openTable path k t = some t') (distinct : t.names.Nodup) :
    t'.names.Nodup := by
  refine nodup_within (fun o u u' changed => ?_) h distinct
  split at changed
  · cases changed
    exact nodup_put
  · cases changed
    exact nodup_put
  · cases changed

theorem nodup_openElement (h : openElement path k t = some t') (distinct : t.names.Nodup) :
    t'.names.Nodup := by
  refine nodup_within (fun o u u' changed => ?_) h distinct
  split at changed
  · cases changed
    exact nodup_put
  · cases changed
    exact nodup_put
  · cases changed

end Names

end Table

section Lines

variable {d d' : Reading} {s r : List Char} {t : Table}

theorem nodup_line (h : line d s = some (d', r)) (distinct : d.tables.names.Nodup) :
    d'.tables.names.Nodup := by
  unfold line at h
  split at h
  · split at h
    · simp only [Option.bind_eq_bind, Option.bind_eq_some_iff] at h
      obtain ⟨tables, opened, rest, -, ⟨⟩⟩ := h
      exact Table.nodup_openElement opened distinct
    · cases h
  · split at h
    · simp only [Option.bind_eq_bind, Option.bind_eq_some_iff] at h
      obtain ⟨tables, opened, rest, -, ⟨⟩⟩ := h
      exact Table.nodup_openTable opened distinct
    · cases h
  · split at h
    · cases h
      exact distinct
    · simp only [Option.bind_eq_bind, Option.bind_eq_some_iff] at h
      obtain ⟨⟨v, r⟩, -, tables, assigned, rest, -, ⟨⟩⟩ := h
      exact Table.nodup_assignIn assigned distinct
    · cases h

theorem nodup_lines (h : lines d s = some t) (distinct : d.tables.names.Nodup) :
    t.names.Nodup := by
  fun_induction lines d s with
  | case1 d s empty =>
    cases h
    exact distinct
  | case2 d s more d' r read shorter ih => exact ih h (nodup_line read distinct)
  | case3 => cases h
  | case4 => cases h

theorem nodup_parse {s : String} (h : parse s = some t) : t.names.Nodup := by
  unfold parse at h
  split at h
  · exact nodup_lines h List.nodup_nil
  · exact nodup_lines h List.nodup_nil

end Lines

def hexDigit (n : Nat) : Char := if n < 10 then Char.ofNat (48 + n) else Char.ofNat (87 + n)

def writeChar (c : Char) : List Char :=
  if isPlain c ∧ c ≠ '"' ∧ c ≠ '\\' then [c]
  else ['\\', 'u', '0', '0', hexDigit (c.toNat / 16), hexDigit (c.toNat % 16)]

def writeText (s : String) : List Char := '"' :: (s.toList.flatMap writeChar ++ ['"'])

def writeLine (e : String × String) : List Char :=
  e.1.toList ++ ' ' :: '=' :: ' ' :: (writeText e.2 ++ ['\n'])

def write (es : List (String × String)) : List Char := es.flatMap writeLine

def Bare (k : String) : Prop := k ≠ "" ∧ ∀ c ∈ k.toList, isBare c = true

section Writing

variable {c : Char} {cs r : List Char} {k s : String}

theorem codePoint?_hexDigit (h : c.toNat < 128) :
    codePoint? ['0', '0', hexDigit (c.toNat / 16), hexDigit (c.toNat % 16)] = some c := by
  have each : ∀ n : Fin 128,
      codePoint? ['0', '0', hexDigit (n.val / 16), hexDigit (n.val % 16)] =
        some (Char.ofNat n.val) := by decide +kernel
  simpa using each ⟨c.toNat, h⟩

theorem toNat_lt_of_not_plain (h : ¬(isPlain c = true ∧ c ≠ '"' ∧ c ≠ '\\')) : c.toNat < 128 := by
  by_contra large
  have plain : isPlain c = true := by
    simp only [isPlain, Bool.or_eq_true, Bool.and_eq_true, decide_eq_true_eq, bne_iff_ne]
    right
    constructor
    · omega
    · omega
  have other {d : Char} (hd : d.toNat < 128) : c ≠ d := by
    rintro rfl
    exact large hd
  exact h ⟨plain, other (by decide), other (by decide)⟩

theorem basic_writeChar (c : Char) (r : List Char) :
    basic (writeChar c ++ r) = (basic r).map (before c) := by
  unfold writeChar
  split
  · rename_i h
    obtain ⟨plain, quote, backslash⟩ := h
    rw [List.singleton_append, basic]
    · simp [plain, backslash]
    all_goals simp_all
  · rename_i h
    simp only [List.cons_append, List.nil_append]
    rw [basic, codePoint?_hexDigit (toNat_lt_of_not_plain h)]

theorem basic_flatMap_writeChar (cs r : List Char) :
    basic (cs.flatMap writeChar ++ '"' :: r) = some (cs, r) := by
  induction cs with
  | nil => rw [List.flatMap_nil, List.nil_append, basic]
  | cons c cs ih =>
    rw [List.flatMap_cons, List.append_assoc, basic_writeChar, ih]
    rfl

theorem exists_writeChar_cons (c : Char) : ∃ d t, writeChar c = d :: t ∧ d ≠ '"' := by
  unfold writeChar
  split
  · rename_i h
    exact ⟨c, [], rfl, h.2.1⟩
  · exact ⟨_, _, rfl, by decide⟩

theorem text_writeText (s : String) (h : r.head? ≠ some '"') :
    text (writeText s ++ r) = some (s.toList, r) := by
  have written : writeText s ++ r = '"' :: (s.toList.flatMap writeChar ++ '"' :: r) := by
    simp [writeText]
  rw [written, text, basic_flatMap_writeChar]
  -- A second quote is the closing one, and no third one follows it.
  intro t twice
  cases chars : s.toList with
  | nil =>
    rw [chars] at twice
    simp only [List.flatMap_nil, List.nil_append, List.cons.injEq, true_and] at twice
    exact h (by rw [twice]; rfl)
  | cons c cs =>
    obtain ⟨d, u, front, quote⟩ := exists_writeChar_cons c
    rw [chars, List.flatMap_cons, front] at twice
    exact quote (List.cons.inj twice).1

theorem value_writeText (depth : Nat) (s : String) (h : r.head? ≠ some '"') :
    value depth (writeText s ++ r) = some (.text s, r) := by
  have read : simple (writeText s ++ r) = some (.text s, r) := by
    simp [simple, text_writeText s h]
  cases depth with
  | zero => rw [value, read]
  | succ depth =>
    rw [← read]
    rfl

theorem not_isGap_of_isBare (h : isBare c = true) : isGap c = false := by
  rw [isGap, Bool.or_eq_false_iff]
  constructor
  · refine beq_false_of_ne ?_
    rintro rfl
    exact absurd h (by decide)
  · refine beq_false_of_ne ?_
    rintro rfl
    exact absurd h (by decide)

theorem Bare.exists_cons (h : Bare k) : ∃ c cs, k.toList = c :: cs ∧ isBare c = true := by
  obtain ⟨nonempty, bare⟩ := h
  cases chars : k.toList with
  | nil => exact absurd (String.toList_eq_nil_iff.1 chars) nonempty
  | cons c cs => exact ⟨c, cs, rfl, bare c (by simp [chars])⟩

theorem ne_of_isBare {d : Char} (h : isBare c = true) (hd : isBare d = false) : c ≠ d := by
  rintro rfl
  rw [h] at hd
  cases hd

theorem skipGap_of_isBare (h : isBare c = true) (r : List Char) : skipGap (c :: r) = c :: r := by
  rw [skipGap, List.dropWhile_cons_of_neg (by simp [not_isGap_of_isBare h])]

theorem part_bare (h : Bare k) (hr : ∀ c ∈ r.head?, isBare c = false) :
    part (k.toList ++ r) = some (k, r) := by
  have stop : r.takeWhile isBare = [] ∧ r.dropWhile isBare = r := by
    cases r with
    | nil => simp
    | cons c r => simp [hr c rfl]
  have name : (k.toList ++ r).takeWhile isBare = k.toList := by
    rw [List.takeWhile_append_of_pos h.2, stop.1, List.append_nil]
  have rest : (k.toList ++ r).dropWhile isBare = r := by
    rw [List.dropWhile_append_of_pos h.2, stop.2]
  obtain ⟨c, cs, chars, bare⟩ := h.exists_cons
  have nonempty : k.toList.isEmpty = false := by rw [chars, List.isEmpty_cons]
  unfold part
  split
  · rename_i quoted
    rw [chars] at quoted
    exact absurd (List.cons.inj quoted).1 (ne_of_isBare bare (by decide))
  · rename_i quoted
    rw [chars] at quoted
    exact absurd (List.cons.inj quoted).1 (ne_of_isBare bare (by decide))
  · simp [name, rest, nonempty]

theorem key_bare (h : Bare k) (r : List Char) :
    key (k.toList ++ ' ' :: '=' :: r) = some (([], k), '=' :: r) := by
  have read : part (k.toList ++ ' ' :: '=' :: r) = some (k, ' ' :: '=' :: r) :=
    part_bare h (by rintro _ ⟨⟩; decide)
  have start : skipGap (k.toList ++ ' ' :: '=' :: r) = k.toList ++ ' ' :: '=' :: r := by
    obtain ⟨c, cs, chars, bare⟩ := h.exists_cons
    rw [chars, List.cons_append, skipGap_of_isBare bare]
  have single : parts (k.toList ++ ' ' :: '=' :: r) = some ([k], '=' :: r) := by
    rw [parts, start, read]
    rfl
  rw [key, single]
  rfl

theorem line_writeLine {d : Reading} (header : d.header = []) (h : Bare k)
    (fresh : k ∉ d.tables.names) (r : List Char) :
    line d (writeLine (k, s) ++ r) = some (⟨d.tables ++ [(k, .text s)], []⟩, r) := by
  have written : writeLine (k, s) ++ r =
      k.toList ++ ' ' :: '=' :: ' ' :: (writeText s ++ '\n' :: r) := by
    simp [writeLine]
  have assigned : d.tables.assignIn [] [] k (.text s) = some (d.tables ++ [(k, .text s)]) :=
    Table.assignIn_of_fresh fresh
  have value : value (deepest - 1) (skipGap (' ' :: (writeText s ++ '\n' :: r))) =
      some (.text s, '\n' :: r) := value_writeText _ s (by simp)
  obtain ⟨c, cs, chars, bare⟩ := h.exists_cons
  have front : writeLine (k, s) ++ r =
      c :: (cs ++ ' ' :: '=' :: ' ' :: (writeText s ++ '\n' :: r)) := by
    rw [written, chars, List.cons_append]
  have start : skipGap (writeLine (k, s) ++ r) = writeLine (k, s) ++ r := by
    rw [front, skipGap_of_isBare bare]
  have other {d : Char} (hd : isBare d = false) : c ≠ d := ne_of_isBare bare hd
  have more : behindLine (writeLine (k, s) ++ r) = none := by
    unfold behindLine
    rw [start, front]
    have comment : c ≠ '#' := other (by decide)
    have newline : c ≠ '\n' := other (by decide)
    have return_ : c ≠ '\r' := other (by decide)
    simp [comment, newline, return_]
  unfold line
  rw [start]
  split
  · rename_i table
    rw [front] at table
    exact absurd (List.cons.inj table).1 (other (by decide))
  · rename_i table
    rw [front] at table
    exact absurd (List.cons.inj table).1 (other (by decide))
  · have finished : behindLine ('\n' :: r) = some r := rfl
    rw [more, written, key_bare h]
    simp only [value, header, assigned, finished, Option.bind_eq_bind, Option.bind_some]
    rfl

theorem lines_write {d : Reading} (header : d.header = []) {es : List (String × String)}
    (bare : ∀ e ∈ es, Bare e.1) (distinct : (d.tables.names ++ es.map (·.1)).Nodup) :
    lines d (write es) = some (d.tables ++ es.map fun e => (e.1, .text e.2)) := by
  induction es generalizing d with
  | nil => simp [write, lines]
  | cons e es ih =>
    obtain ⟨k, s⟩ := e
    obtain ⟨here, later⟩ := List.forall_mem_cons.1 bare
    have fresh : k ∉ d.tables.names := fun again =>
      (List.nodup_append.1 distinct).2.2 k again k List.mem_cons_self rfl
    have read := line_writeLine (s := s) header here fresh (write es)
    have nonempty : (writeLine (k, s) ++ write es).isEmpty = false := by simp [writeLine]
    have shorter : (write es).length < (writeLine (k, s) ++ write es).length := by
      simp [writeLine]
      omega
    rw [write, List.flatMap_cons, ← write, lines, nonempty, read]
    simp only [Bool.false_eq_true, if_false, shorter, if_true]
    rw [ih rfl later (by simpa using distinct)]
    simp

theorem parse_write {es : List (String × String)} (bare : ∀ e ∈ es, Bare e.1)
    (distinct : (es.map (·.1)).Nodup) :
    parse (.ofList (write es)) = some (es.map fun e => (e.1, .text e.2)) := by
  have read : lines {} (write es) = some (es.map fun e => (e.1, .text e.2)) :=
    lines_write rfl bare (by simpa using distinct)
  unfold parse
  rw [String.toList_ofList]
  split
  · rename_i r marked
    cases es with
    | nil => cases marked
    | cons e es =>
      obtain ⟨c, cs, chars, plain⟩ := (bare e List.mem_cons_self).exists_cons
      rw [write, List.flatMap_cons, writeLine, chars] at marked
      exact absurd (List.cons.inj marked).1 (ne_of_isBare plain (by decide))
  · exact read

end Writing

end ScmPlugins.Toml
