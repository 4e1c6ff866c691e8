import Mathlib.Data.List.Nodup
import ScmPlugins.Host.Sources
import ScmPlugins.Proofs.Except
import ScmPlugins.Proofs.Host.Values
import ScmPlugins.Proofs.Toml.Document

/-!
A configuration out of its layers: what each layer says of a field, and which of them decides.
-/

namespace ScmPlugins.Host

abbrev Assignment := Field → Option String

namespace Assignment

def nothing : Assignment := fun _ => none

def of (es : List (Field × String)) : Assignment := fun f => es.lookup f

def Formed (a : Assignment) : Prop :=
  ∀ v, a .logFormat = some v → ∃ f : LogFormat, v = f.name

def onto (upper lower : Assignment) : Assignment := fun f => (upper f).or (lower f)

theorem Formed.onto {upper lower : Assignment} (h : upper.Formed) (h' : lower.Formed) :
    (upper.onto lower).Formed := by
  intro v given
  rw [Assignment.onto] at given
  cases above : upper .logFormat with
  | none =>
    rw [above] at given
    exact h' v given
  | some w =>
    rw [above] at given
    exact h v (above.trans given)

theorem Formed.exists_format {a : Assignment} (h : a.Formed) :
    ∃ found : Option LogFormat, a .logFormat = found.map LogFormat.name := by
  cases given : a .logFormat with
  | none => exact ⟨none, rfl⟩
  | some v =>
    obtain ⟨f, rfl⟩ := h v given
    exact ⟨some f, rfl⟩

def pairs (a : Assignment) : List (Field × String) :=
  Field.all.filterMap fun f => (a f).map (f, ·)

section Pairs

variable {α β : Type} {name : Field → α} {a : Assignment} {f : Field}

theorem keys_pairs (a : Assignment) :
    a.pairs.map (·.1) = Field.all.filter fun f => (a f).isSome := by
  rw [pairs, List.map_filterMap, ← List.filterMap_eq_filter]
  refine List.filterMap_congr fun f _ => ?_
  cases given : a f <;> simp [Option.guard, given]

theorem nodup_pairs (injective : Function.Injective name) (a : Assignment) :
    (a.pairs.map fun p => name p.1).Nodup := by
  have keys : (a.pairs.map (·.1)).Nodup := by
    rw [keys_pairs]
    exact List.Nodup.filter _ (by decide)
  simpa [Function.comp_def] using keys.map injective

theorem lookup_pairs [BEq α] [LawfulBEq α] (injective : Function.Injective name)
    (value : String → β) (a : Assignment) (f : Field) :
    (a.pairs.map fun p => (name p.1, value p.2)).lookup (name f) = (a f).map value := by
  have among (fs : List Field) :
      ((fs.filterMap fun f => (a f).map (f, ·)).map fun p => (name p.1, value p.2)).lookup
          (name f) =
        if f ∈ fs then (a f).map value else none := by
    induction fs with
    | nil => rfl
    | cons g fs ih =>
      rw [List.filterMap_cons]
      cases given : a g with
      | none =>
        rw [Option.map_none]
        dsimp only
        rw [ih]
        by_cases same : f = g
        · simp [same, given]
        · simp [same]
      | some v =>
        rw [Option.map_some]
        dsimp only
        rw [List.map_cons, List.lookup_cons, ih]
        by_cases same : f = g
        · simp [same, given]
        · simp [same, beq_false_of_ne (mt (@injective f g) same)]
  have listed : f ∈ Field.all := by cases f <;> decide
  rw [pairs, among, if_pos listed]

end Pairs

end Assignment

/-! ## Files -/

def File.Says (f : File) (a : Assignment) : Prop :=
  ∃ t, Toml.parse f.text = some t ∧ t.lookup "extends" = none ∧
    ∀ g : Field, t.lookup g.name = (a g).map .text

section Files

variable {a : Assignment} {t : Toml.Table} {l : Layer} {f : Field} {k : String}

theorem Field.name_of_named? (h : Field.named? k = some f) : f.name = k := by
  simpa using List.find?_some h

theorem Field.name_injective {f g : Field} (h : f.name = g.name) : f = g := by
  simpa using congrArg Field.named? h

theorem Layer.setNamed_apply (l : Layer) (k : String) (e : Entry) (f : Field) :
    l.setNamed k e f = if k = f.name then some e else l f := by
  unfold Layer.setNamed
  cases named : Field.named? k with
  | none =>
    rw [if_neg]
    rintro rfl
    simp at named
  | some g =>
    obtain rfl := Field.name_of_named? named
    by_cases same : g.name = f.name
    · obtain rfl := Field.name_injective same
      simp
    · have other : f ≠ g := fun h => same (h ▸ rfl)
      simp [same, Layer.set_of_ne l other e]

theorem foldl_setNamed (distinct : (Toml.Table.names t).Nodup) :
    t.foldl (fun l (k, v) => l.setNamed k (File.entry v)) l f =
      ((t.lookup f.name).map File.entry).or (l f) := by
  induction t generalizing l with
  | nil => simp
  | cons e t ih =>
    obtain ⟨k, v⟩ := e
    obtain ⟨fresh, distinct⟩ := List.nodup_cons.1 distinct
    have first : (l.setNamed k (File.entry v)) f =
        if k = f.name then some (File.entry v) else l f :=
      l.setNamed_apply k (File.entry v) f
    rw [List.foldl_cons, ih distinct, List.lookup_cons]
    dsimp only
    rw [first]
    by_cases here : f.name = k
    · subst here
      have later : t.lookup f.name = none := by
        rw [← Option.not_isSome_iff_eq_none, Toml.Table.lookup_isSome_iff]
        exact fresh
      simp [later]
    · simp [Ne.symm here, beq_false_of_ne here]

theorem File.Says.layer {file : File} (h : file.Says a) :
    ∃ l, file.layer? = some l ∧ ∀ f, l f = (a f).map .text := by
  obtain ⟨t, parsed, alone, fields⟩ := h
  refine ⟨File.layerOf t, ?_, fun f => ?_⟩
  · simp [File.layer?, parsed, File.buildsOnAnother, alone]
  · rw [File.layerOf, foldl_setNamed (Toml.nodup_parse parsed), fields]
    cases a f <;> simp [File.entry]

def File.holding (name : String) (a : Assignment) : File :=
  ⟨name, .ofList (Toml.write (a.pairs.map fun p => (p.1.name, p.2)))⟩

theorem File.says_holding (name : String) (a : Assignment) : (File.holding name a).Says a := by
  have injective : Function.Injective Field.name := fun _ _ => Field.name_injective
  have names (f : Field) : Toml.Bare f.name ∧ ("extends" == f.name) = false := by
    cases f <;> exact ⟨⟨by decide, List.all_eq_true.1 (by decide)⟩, by decide⟩
  have bare : ∀ e ∈ a.pairs.map fun p => (p.1.name, p.2), Toml.Bare e.1 := by
    simp only [List.forall_mem_map]
    exact fun p _ => (names p.1).1
  have distinct : ((a.pairs.map fun p => (p.1.name, p.2)).map (·.1)).Nodup := by
    simpa [Function.comp_def] using Assignment.nodup_pairs injective a
  have parsed := Toml.parse_write bare distinct
  rw [List.map_map] at parsed
  refine ⟨_, parsed, ?_, Assignment.lookup_pairs injective Toml.Item.text a⟩
  rw [List.lookup_eq_none_iff, List.forall_mem_map]
  intro p _
  simpa using (names p.1).2

end Files

/-! ## Variables -/

namespace Environment

def nameOf (f : Field) : String := String.ofList ((mark ++ f.name.toList).map Char.toUpper)

structure Says (v : Environment) (a : Assignment) : Prop where
  fields : ∀ f, v.get? (nameOf f) = a f
  others : ∀ m ∈ v.entries, (∀ f, m.1 ≠ nameOf f) →
    ∀ p ps, path? m.1 = some (p :: ps) → Field.named? (String.ofList p) = none

/-- None of the variables that are read makes the reader stop. -/
def Answers (v : Environment) : Prop :=
  ∀ m ∈ v.entries, path? m.1 ≠ none → read (ε := LoadError) (Text.trim m.2.toList) ≠ .stopped

section Variables

variable {a : Assignment} {l : Layer} {f : Field} {name value : String} {v : Environment}
  {es : List (String × String)}

@[simp] theorem path?_nameOf (f : Field) : path? (nameOf f) = some [f.name.toList] := by
  cases f <;> decide +kernel

theorem nameOf_injective {f g : Field} (h : nameOf f = nameOf g) : f = g := by
  have path := congrArg path? h
  simp only [path?_nameOf, Option.some.injEq, List.cons.injEq, and_true] at path
  exact Field.name_injective (String.toList_injective path)

def reading? (value : String) : Option Entry :=
  match read (ε := LoadError) (Text.trim value.toList) with
  | .ok e => some e
  | _ => none

theorem exists_read (h : read (ε := LoadError) (Text.trim value.toList) ≠ .stopped) :
    ∃ e, read (ε := LoadError) (Text.trim value.toList) = .ok e ∧ reading? value = some e := by
  obtain ⟨e, read⟩ := (read_ok_or_stopped _).resolve_right h
  exact ⟨e, read, by rw [reading?, read]⟩

theorem set_eq_stopped (about : path? name ≠ none)
    (stopped : read (ε := LoadError) (Text.trim value.toList) = .stopped) :
    set (ε := LoadError) l name value = .stopped := by
  unfold set
  cases found : path? name with
  | none => exact absurd found about
  | some path =>
    rw [stopped]
    rfl

theorem exists_set
    (others : (∀ f, name ≠ nameOf f) →
      ∀ p ps, path? name = some (p :: ps) → Field.named? (String.ofList p) = none)
    (answers : path? name ≠ none → read (ε := LoadError) (Text.trim value.toList) ≠ .stopped) :
    ∃ l', set (ε := LoadError) l name value = .ok l' ∧
      ∀ f, l' f = if name = nameOf f then reading? value else l f := by
  unfold set
  cases about : path? name with
  | none =>
    have other (f : Field) : name ≠ nameOf f := by
      rintro rfl
      rw [path?_nameOf] at about
      cases about
    exact ⟨l, rfl, fun f => by rw [if_neg (other f)]⟩
  | some path =>
    obtain ⟨e, read, found⟩ := exists_read (answers (by rw [about]; nofun))
    rw [found, read]
    by_cases field : ∃ f, name = nameOf f
    · obtain ⟨f, rfl⟩ := field
      rw [path?_nameOf] at about
      cases about
      refine ⟨l.setNamed f.name e, by simp, fun g => ?_⟩
      rw [l.setNamed_apply]
      exact if_congr ⟨fun h => Field.name_injective h ▸ rfl, fun h => nameOf_injective h ▸ rfl⟩
        rfl rfl
    · rw [not_exists] at field
      refine ⟨l, ?_, fun f => by rw [if_neg (field f)]⟩
      have unknown := others field
      rw [about] at unknown
      match path with
      | [] => rfl
      | [p] => simp [Layer.setNamed, unknown p [] rfl]
      | p :: q :: ps => simp [Layer.setNamed, unknown p _ rfl]

theorem exists_foldlM_set (distinct : (es.map (·.1)).Nodup)
    (others : ∀ m ∈ es, (∀ f, m.1 ≠ nameOf f) →
      ∀ p ps, path? m.1 = some (p :: ps) → Field.named? (String.ofList p) = none)
    (answers : ∀ m ∈ es, path? m.1 ≠ none →
      read (ε := LoadError) (Text.trim m.2.toList) ≠ .stopped) :
    ∃ l', es.foldlM (fun l (name, value) => set (ε := LoadError) l name value) l = .ok l' ∧
      ∀ f, l' f = ((OrderedMap.find (nameOf f) es).bind reading?).or (l f) := by
  induction es generalizing l with
  | nil => exact ⟨l, rfl, fun f => by simp [OrderedMap.find]⟩
  | cons m es ih =>
    obtain ⟨name, value⟩ := m
    obtain ⟨fresh, distinct⟩ := List.nodup_cons.1 distinct
    obtain ⟨other, others⟩ := List.forall_mem_cons.1 others
    obtain ⟨answer, answers⟩ := List.forall_mem_cons.1 answers
    obtain ⟨l₁, first, set₁⟩ := exists_set (l := l) other answer
    obtain ⟨l', rest, set'⟩ := ih distinct others answers (l := l₁)
    refine ⟨l', by simp [first, rest], fun f => ?_⟩
    rw [set', set₁, OrderedMap.find]
    by_cases here : name = nameOf f
    · have later : OrderedMap.find (nameOf f) es = none := by
        rw [← Option.not_isSome_iff_eq_none, OrderedMap.find_isSome_iff, ← here]
        exact fresh
      have about : path? name ≠ none := by
        rw [here, path?_nameOf]
        exact Option.some_ne_none _
      obtain ⟨e, -, found⟩ := exists_read (answer about)
      simp [here, later, found]
    · simp [here]

theorem set_ok_or_stopped (l : Layer) (name value : String) :
    (∃ l', set (ε := LoadError) l name value = .ok l') ∨
      set (ε := LoadError) l name value = .stopped := by
  unfold set
  cases path? name with
  | none => exact .inl ⟨l, rfl⟩
  | some path =>
    obtain ⟨e, read⟩ | stopped := read_ok_or_stopped (ε := LoadError) (Text.trim value.toList)
    · rw [read]
      match path with
      | [] => exact .inl ⟨_, rfl⟩
      | [p] => exact .inl ⟨_, rfl⟩
      | p :: q :: ps => exact .inl ⟨_, rfl⟩
    · rw [stopped]
      exact .inr rfl

theorem foldlM_set_stopped {m : String × String} (hm : m ∈ es) (about : path? m.1 ≠ none)
    (stopped : read (ε := LoadError) (Text.trim m.2.toList) = .stopped) :
    es.foldlM (fun l (name, value) => set (ε := LoadError) l name value) l = .stopped := by
  induction es generalizing l with
  | nil => cases hm
  | cons n es ih =>
    obtain ⟨l', first⟩ | first := set_ok_or_stopped l n.1 n.2
    · obtain rfl | later := List.mem_cons.1 hm
      · rw [set_eq_stopped about stopped] at first
        cases first
      · simp [first, ih later]
    · simp [first]

theorem Says.exists_layer (h : v.Says a) (answers : v.Answers) :
    ∃ l, v.layer (ε := LoadError) = .ok l ∧ ∀ f, l f = (a f).bind reading? := by
  obtain ⟨l, read, fields⟩ := exists_foldlM_set v.nodup h.others answers (l := .empty)
  refine ⟨l, read, fun f => ?_⟩
  rw [fields, ← h.fields f, OrderedMap.get?]
  simp

theorem layer_stopped (h : ¬v.Answers) : v.layer (ε := LoadError) = .stopped := by
  simp only [Answers, not_forall, not_not] at h
  obtain ⟨m, hm, about, stopped⟩ := h
  exact foldlM_set_stopped hm about stopped

theorem find_eq_lookup {β : Type} (k : String) (es : List (String × β)) :
    OrderedMap.find k es = es.lookup k := by
  induction es with
  | nil => rfl
  | cons e es ih =>
    obtain ⟨l, w⟩ := e
    rw [OrderedMap.find, List.lookup_cons, ih]
    by_cases same : l = k
    · simp [same]
    · simp [same, beq_false_of_ne (Ne.symm same)]

def holding (a : Assignment) : Environment :=
  .ofList (a.pairs.map fun p => (nameOf p.1, p.2))

theorem entries_holding (a : Assignment) :
    (holding a).entries = a.pairs.map fun p => (nameOf p.1, p.2) := by
  have injective : Function.Injective nameOf := fun _ _ => nameOf_injective
  refine OrderedMap.entries_ofList ?_
  simpa [Function.comp_def] using Assignment.nodup_pairs injective a

theorem says_holding (a : Assignment) : (holding a).Says a where
  fields f := by
    have injective : Function.Injective nameOf := fun _ _ => nameOf_injective
    rw [OrderedMap.get?, entries_holding, find_eq_lookup]
    simpa using Assignment.lookup_pairs injective id a f
  others m hm other := by
    rw [entries_holding, List.mem_map] at hm
    obtain ⟨p, -, rfl⟩ := hm
    exact absurd rfl (other p.1)

end Variables

end Environment

/-! ## Flags -/

namespace Flags

def written (flags : Flags) : List String := flags.map fun (f, v) => "--" ++ f.name ++ "=" ++ v

def said (flags : Flags) : Assignment := fun f => flags.lookup (.field f)

structure Proper (flags : Flags) : Prop where
  once : (flags.map (·.1)).Nodup
  path : flags.lookup .configPath ≠ some ""
  formed : flags.said.Formed

/-- The flags give each field that has a default what it has anyway, and nothing else. -/
def Idle (flags : Flags) : Prop :=
  flags.lookup .configPath = none ∧ ∀ f, flags.said f = ({} : Config).text? f

section Flags

variable {flags : Flags} {f : Flag} {v : String}

theorem toList_written (f : Flag) (v : String) :
    ("--" ++ f.name ++ "=" ++ v).toList = '-' :: '-' :: (f.name.toList ++ '=' :: v.toList) := by
  simp

theorem ofArgument?_written (f : Flag) (v : String) :
    Flag.ofArgument? ("--" ++ f.name ++ "=" ++ v) = some (f, some v) := by
  have name : ∀ c ∈ f.name.toList, (c != '=') = true := by
    obtain (_ | _ | _ | _) | _ := f <;> exact List.all_eq_true.1 (by decide)
  have named : Flag.named? f.name.toList = some f := by
    obtain (_ | _ | _ | _) | _ := f <;> decide
  have front : (f.name.toList ++ '=' :: v.toList).takeWhile (· != '=') = f.name.toList := by
    rw [List.takeWhile_append_of_pos name]
    simp
  have behind : (f.name.toList ++ '=' :: v.toList).dropWhile (· != '=') = '=' :: v.toList := by
    rw [List.dropWhile_append_of_pos name]
    simp
  rw [Flag.ofArgument?, toList_written]
  simp only [front, behind, named, Option.map_some, String.ofList_toList]

theorem pairs?_written (flags : Flags) : pairs? flags.written = some flags := by
  induction flags with
  | nil => rfl
  | cons e flags ih =>
    obtain ⟨f, v⟩ := e
    have dashes : "--" ++ f.name ++ "=" ++ v ≠ "--" := by
      intro same
      have chars := congrArg String.toList same
      rw [toList_written] at chars
      simp at chars
    rw [written, List.map_cons, ← written]
    unfold pairs?
    simp only [dashes, if_false, ofArgument?_written, ih, Option.map_some]

theorem lookup_of_mem {es : List (Flag × String)} (once : (es.map (·.1)).Nodup)
    (h : (f, v) ∈ es) : es.lookup f = some v := by
  induction es with
  | nil => cases h
  | cons e es ih =>
    obtain ⟨fresh, once⟩ := List.nodup_cons.1 once
    rw [List.lookup_cons]
    obtain rfl | later := List.mem_cons.1 h
    · simp
    · have other : f ≠ e.1 := by
        rintro rfl
        exact fresh (List.mem_map_of_mem (f := (·.1)) later)
      rw [beq_false_of_ne other, ih once later]

theorem Proper.accept? (h : flags.Proper) (hf : (f, v) ∈ flags) : f.accept? v = some v := by
  have given := lookup_of_mem h.once hf
  cases f with
  | field g =>
    cases g with
    | logFormat =>
      obtain ⟨g, rfl⟩ := h.formed v given
      simp [Flag.accept?, Except.toOption]
    | _ => rfl
  | configPath =>
    have path : v ≠ "" := by
      rintro rfl
      exact h.path given
    simp [Flag.accept?, path]

theorem mapM_accept? {es : List (Flag × String)} (h : ∀ e ∈ es, e.1.accept? e.2 = some e.2) :
    es.mapM (fun (f, value) => (f.accept? value).map (f, ·)) = some es := by
  induction es with
  | nil => rfl
  | cons e es ih =>
    obtain ⟨here, later⟩ := List.forall_mem_cons.1 h
    simp [here, ih later]

theorem Proper.parse? (h : flags.Proper) : Flags.parse? flags.written = some flags := by
  simp only [Flags.parse?, pairs?_written, Option.bind_eq_bind, Option.bind_some, h.once, if_true]
  exact mapM_accept? fun e he => h.accept? he

theorem spellOutDefaults_iff : flags.spellOutDefaults = true ↔ flags.Idle := by
  simp only [spellOutDefaults, Idle, said, Bool.and_eq_true, Option.isNone_iff_eq_none,
    List.all_eq_true, beq_iff_eq]
  refine and_congr_right fun _ => ⟨fun h f => h f ?_, fun h f _ => h f⟩
  cases f <;> decide

def heard (flags : Flags) : Assignment := if flags.spellOutDefaults then .nothing else flags.said

theorem heard_of_idle (h : flags.Idle) : flags.heard = .nothing :=
  if_pos (spellOutDefaults_iff.2 h)

theorem heard_of_not_idle (h : ¬flags.Idle) : flags.heard = flags.said :=
  if_neg (mt spellOutDefaults_iff.1 h)

theorem layer_apply (flags : Flags) (g : Field) : flags.layer g = (flags.heard g).map .text := by
  cases spelt : flags.spellOutDefaults <;> simp [layer, heard, spelt, said, Assignment.nothing]

theorem Proper.heard_formed (h : flags.Proper) : flags.heard.Formed := by
  unfold heard
  split
  · exact nofun
  · exact h.formed

def holding (path : String) (a : Assignment) : Flags :=
  (.configPath, path) :: a.pairs.map fun p => (.field p.1, p.2)

theorem said_holding (path : String) (a : Assignment) : (holding path a).said = a := by
  funext f
  have injective : Function.Injective Flag.field := fun _ _ => Flag.field.inj
  have other : (Flag.field f == Flag.configPath) = false := by cases f <;> rfl
  simpa [said, holding, List.lookup_cons, other] using Assignment.lookup_pairs injective id a f

theorem proper_holding {path : String} (leads : path ≠ "") {a : Assignment} (formed : a.Formed) :
    (holding path a).Proper where
  once := by
    have injective : Function.Injective Flag.field := fun _ _ => Flag.field.inj
    simpa [holding, Function.comp_def] using Assignment.nodup_pairs injective a
  path := by simpa [holding, List.lookup_cons] using leads
  formed := by rwa [said_holding]

end Flags

end Flags

/-! ## Configurations -/

theorem LogFormat.name_of_named? {s : String} {g : LogFormat} (h : LogFormat.named? s = some g) :
    s = g.name := by
  simp only [LogFormat.named?, LogFormat.variants, LogFormat.all, List.map_cons, List.map_nil,
    List.lookup_cons] at h
  split at h
  · cases h
    exact eq_of_beq ‹_›
  · split at h
    · cases h
      exact eq_of_beq ‹_›
    · cases h

namespace Layer

variable {l : Layer} {a : Assignment} {f : Field} {v : String} {c : Config}

theorem text_eq_ok_iff {found : Option String} :
    l.text f = .ok found ↔ l f = found.map .text := by
  unfold text
  cases l f with
  | none => cases found <;> simp
  | some e => cases e <;> cases found <;> simp

theorem optionalText_eq_text (h : l f ≠ some .nothing) : l.optionalText f = l.text f := by
  unfold optionalText
  split
  · rename_i nothing
    exact absurd nothing h
  · rfl

theorem logFormat_of_text {found : Option LogFormat}
    (h : l .logFormat = (found.map LogFormat.name).map .text) : l.logFormat = .ok found := by
  have read : l.text .logFormat = .ok (found.map LogFormat.name) := text_eq_ok_iff.2 h
  cases found <;> simp_all [logFormat]

theorem text_of_logFormat {found : Option LogFormat} (h : l.logFormat = .ok found) :
    l .logFormat = (found.map LogFormat.name).map .text := by
  unfold logFormat at h
  split at h
  · cases h
  · rename_i read
    cases h
    exact text_eq_ok_iff.1 read
  · rename_i s read
    split at h
    · rename_i g named
      cases h
      rw [text_eq_ok_iff.1 read, LogFormat.name_of_named? named]
      rfl
    · cases h

theorem config_eq_ok_iff : l.config = .ok c ↔
    ∃ logFilter logFormat extensionName ceiling, l.text .logFilter = .ok logFilter ∧
      l.logFormat = .ok logFormat ∧ l.text .extensionName = .ok extensionName ∧
      l.optionalText .maxProtocolVersion = .ok ceiling ∧
      c = ⟨logFilter.getD "info", logFormat.getD .json, extensionName.getD "scm", ceiling⟩ := by
  simp only [config, Except.bind_eq_ok_iff, Except.pure_eq_ok_iff]
  constructor
  · rintro ⟨logFilter, h₁, logFormat, h₂, extensionName, h₃, ceiling, h₄, rfl⟩
    exact ⟨logFilter, logFormat, extensionName, ceiling, h₁, h₂, h₃, h₄, by simp⟩
  · rintro ⟨logFilter, logFormat, extensionName, ceiling, h₁, h₂, h₃, h₄, rfl⟩
    exact ⟨logFilter, h₁, logFormat, h₂, extensionName, h₃, ceiling, h₄, by simp⟩

theorem eq_text_of_getD {found wanted : Option String} {default : String}
    (read : l f = found.map .text) (same : l f = none ↔ wanted = none)
    (h : some (found.getD default) = wanted.or (some default)) : l f = wanted.map .text := by
  rw [read] at same ⊢
  cases found <;> cases wanted <;> simp_all

theorem text_of_config (read : l.config = .ok c) (same : ∀ f, l f = none ↔ a f = none)
    (texts : ∀ f, c.text? f = (a f).or (({} : Config).text? f)) (f : Field) :
    l f = (a f).map .text := by
  obtain ⟨logFilter, logFormat, extensionName, ceiling, h₁, h₂, h₃, h₄, rfl⟩ :=
    config_eq_ok_iff.1 read
  cases f with
  | logFilter => exact eq_text_of_getD (text_eq_ok_iff.1 h₁) (same _) (texts .logFilter)
  | logFormat =>
    have here : some ((logFormat.map LogFormat.name).getD "json") =
        (a .logFormat).or (some "json") := by
      refine Eq.trans ?_ (texts .logFormat)
      cases logFormat <;> rfl
    exact eq_text_of_getD (text_of_logFormat h₂) (same _) here
  | extensionName => exact eq_text_of_getD (text_eq_ok_iff.1 h₃) (same _) (texts .extensionName)
  | maxProtocolVersion =>
    have wanted : ceiling = a .maxProtocolVersion := by
      simpa [Config.text?] using texts .maxProtocolVersion
    have given : l .maxProtocolVersion ≠ some .nothing := by
      intro nothing
      simp only [optionalText, nothing, Except.ok.injEq] at h₄
      have absent := (same .maxProtocolVersion).2 (wanted ▸ h₄.symm)
      rw [nothing] at absent
      cases absent
    rw [optionalText_eq_text given, text_eq_ok_iff, wanted] at h₄
    exact h₄

theorem exists_config (formed : a.Formed) (texts : ∀ f, l f = (a f).map .text) :
    ∃ c, l.config = .ok c ∧ ∀ f, c.text? f = (a f).or (({} : Config).text? f) := by
  obtain ⟨found, format⟩ := formed.exists_format
  have ceiling : l .maxProtocolVersion ≠ some .nothing := by
    rw [texts]
    cases a .maxProtocolVersion <;> simp
  have given : l.optionalText .maxProtocolVersion = .ok (a .maxProtocolVersion) := by
    rw [optionalText_eq_text ceiling, text_eq_ok_iff, texts]
  refine ⟨_, config_eq_ok_iff.2 ⟨a .logFilter, found, a .extensionName, a .maxProtocolVersion,
    text_eq_ok_iff.2 (texts _), logFormat_of_text (format ▸ texts _),
    text_eq_ok_iff.2 (texts _), given, rfl⟩, fun f => ?_⟩
  cases f with
  | logFormat => rw [format]; cases found <;> rfl
  | maxProtocolVersion => simp [Config.text?]
  | logFilter => cases a .logFilter <;> rfl
  | extensionName => cases a .extensionName <;> rfl

theorem config_text?_iff (formed : a.Formed) (same : ∀ f, l f = none ↔ a f = none) :
    (∃ c, l.config = .ok c ∧ c.text? = a.onto ({} : Config).text?) ↔
      ∀ f, l f = (a f).map .text := by
  simp only [funext_iff, Assignment.onto]
  constructor
  · rintro ⟨c, read, texts⟩
    exact text_of_config read same texts
  · exact exists_config formed

end Layer

end ScmPlugins.Host
