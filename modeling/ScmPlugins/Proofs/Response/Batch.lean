import ScmPlugins.Proofs.Response.Bodies

namespace ScmPlugins.Response

def Lists (body : String) (ts : List String) : Prop :=
  ∃ js, Json.parse body = .ok (.list js) ∧
    List.Forall₂ (fun t j => Json.parse t = .ok j) ts js

def IsItem (t : String) : Prop := ∃ j, Json.parse t = .ok j ∧ j.depth < Json.maxDepth

/-- What an entry comes to: an object is read as a body of its own, and nothing else may stand in a
batch. -/
def entry (t : String) : Except Error Configuration :=
  match Json.parse t with
  | .ok (.map _) => configuration (some t)
  | _ => misshapen .shouldUpdate .listOfMaps

section Entries

variable {body t : String} {ts : List String} {j : Json} {c : Configuration}
  {cs : List Configuration} {e : Error}

theorem exists_forall₂_of_isItem (h : ∀ t ∈ ts, IsItem t) :
    ∃ js, List.Forall₂ (fun t j => Json.parse t = .ok j) ts js ∧
      ∀ j ∈ js, j.depth < Json.maxDepth := by
  induction ts with
  | nil => exact ⟨[], .nil, nofun⟩
  | cons t ts ih =>
    obtain ⟨⟨j, parsed, depth⟩, later⟩ := List.forall_mem_cons.1 h
    obtain ⟨js, all, depths⟩ := ih later
    exact ⟨j :: js, .cons parsed all, List.forall_mem_cons.2 ⟨depth, depths⟩⟩

theorem lists_intercalate (h : ∀ t ∈ ts, IsItem t) :
    Lists ("[" ++ ",".intercalate ts ++ "]") ts := by
  obtain ⟨js, all, depths⟩ := exists_forall₂_of_isItem h
  exact ⟨js, Json.parse_list all depths, all⟩

theorem entry_eq (parsed : Json.parse t = .ok j) :
    entry t = configurationOf .shouldUpdate .listOfMaps j := by
  cases j with
  | map ms =>
    simp only [entry, parsed, configuration, document_of_parse parsed (by simp)]
    rfl
  | _ =>
    simp only [entry, parsed]
    rfl

theorem configuration_eq_ok_iff_entry (parsed : Json.parse t = .ok j) :
    configuration (some t) = .ok c ↔ entry t = .ok c := by
  cases j with
  | map ms => simp only [entry, parsed]
  | null =>
    simp only [entry, parsed, misshapen, configuration, document_of_parse_null parsed,
      Except.error_bind, reduceCtorEq]
  | _ =>
    simp only [entry, parsed, misshapen, configuration, document_of_parse parsed (by simp),
      Except.ok_bind, configurationOf, reduceCtorEq]

theorem shouldUpdate_eq_mapM_entry (h : Lists body ts) :
    shouldUpdate (some body) = ts.mapM entry := by
  obtain ⟨js, parsed, all⟩ := h
  have entries : ts.mapM entry = js.mapM (configurationOf .shouldUpdate .listOfMaps) :=
    Except.mapM_eq_mapM_of_forall₂ (all.imp fun t j => entry_eq)
  rw [entries, shouldUpdate, document_of_parse parsed (by simp)]
  rfl

theorem Lists.exists_parse (h : Lists body ts) : ∀ t ∈ ts, ∃ j, Json.parse t = .ok j := by
  obtain ⟨js, -, all⟩ := h
  exact forall_mem_of_forall₂ all.flip fun j _ parsed => ⟨j, parsed⟩

theorem shouldUpdate_eq_ok_iff (h : Lists body ts) :
    shouldUpdate (some body) = .ok cs ↔
      List.Forall₂ (fun t c => configuration (some t) = .ok c) ts cs := by
  -- `entry` and `configuration` agree only on what parses, so that is kept beside the pairs.
  have among (R : String → Configuration → Prop) :
      List.Forall₂ R ts cs ↔
        List.Forall₂ (fun t c => (∃ j, Json.parse t = .ok j) ∧ R t c) ts cs := by
    rw [List.forall₂_and_left, and_iff_right h.exists_parse]
  have agree (t c) : ((∃ j, Json.parse t = .ok j) ∧ entry t = .ok c) ↔
      (∃ j, Json.parse t = .ok j) ∧ configuration (some t) = .ok c :=
    and_congr_right fun ⟨_, parsed⟩ => (configuration_eq_ok_iff_entry parsed).symm
  rw [shouldUpdate_eq_mapM_entry h, Except.mapM_eq_ok_iff, among]
  simp only [agree]
  exact (among _).symm

theorem shouldUpdate_eq_error_iff (h : Lists body ts) :
    shouldUpdate (some body) = .error e ↔
      ∃ front t rest, ts = front ++ t :: rest ∧
        (∀ s ∈ front, ∃ c, configuration (some s) = .ok c) ∧ entry t = .error e := by
  rw [shouldUpdate_eq_mapM_entry h, Except.mapM_eq_error_iff]
  refine exists₃_congr fun front t rest => and_congr_right fun split => and_congr_left' ?_
  refine forall₂_congr fun s hs => exists_congr fun c => ?_
  obtain ⟨j, parsed⟩ := h.exists_parse s (split ▸ List.mem_append_left _ hs)
  exact (configuration_eq_ok_iff_entry parsed).symm

end Entries

/-- Any values the parser has room for can be listed. A batch of them comes to the configurations
that the entries come to as bodies of their own, one by one, and is refused exactly if some entry
is, for the first one that is. -/
theorem batch_agrees_with_entries :
    (∀ ts, (∀ t ∈ ts, IsItem t) → Lists ("[" ++ ",".intercalate ts ++ "]") ts) ∧
    ∀ body ts, Lists body ts →
      (∀ cs, shouldUpdate (some body) = .ok cs ↔
        List.Forall₂ (fun t c => configuration (some t) = .ok c) ts cs) ∧
      (∀ e, shouldUpdate (some body) = .error e ↔
        ∃ front t rest, ts = front ++ t :: rest ∧
          (∀ s ∈ front, ∃ c, configuration (some s) = .ok c) ∧ entry t = .error e) :=
  ⟨fun _ => lists_intercalate, fun _ _ lists =>
    ⟨fun _ => shouldUpdate_eq_ok_iff lists, fun _ => shouldUpdate_eq_error_iff lists⟩⟩

theorem batch_agrees_with_entries_second :
    let sound := "\x7b\"url\":\x7b\"value\":\"u\"\x7d\x7d"
    let wrong := "\x7b\"url\":1\x7d"
    let complaint : Error := { payload := .configuration, rule := .shape .map, key := "url" }
    Lists ("[" ++ ",".intercalate [sound, wrong, "null"] ++ "]") [sound, wrong, "null"] ∧
      configuration (some wrong) = .error complaint ∧
      shouldUpdate (some ("[" ++ ",".intercalate [sound, wrong, "null"] ++ "]")) =
        .error complaint ∧
      shouldUpdate (some ("[" ++ ",".intercalate [sound, "null", wrong] ++ "]")) =
        .error { payload := .shouldUpdate, rule := .shape .listOfMaps } := by
  intro sound wrong complaint
  have items : ∀ t ∈ [sound, wrong, "null"], IsItem t := by
    simp only [List.forall_mem_cons, List.not_mem_nil, false_imp_iff, implies_true, and_true]
    refine ⟨⟨.map [("url", .map [("value", .str "u")])], ?_⟩, ⟨.map [("url", .int 1)], ?_⟩,
      ⟨.null, ?_⟩⟩ <;> decide +kernel
  have swapped : ∀ t ∈ [sound, "null", wrong], IsItem t := fun t ht => items t (by grind)
  have read : ∃ c, configuration (some sound) = .ok c :=
    ⟨.ofList [("url", { value := "u" })], by decide +kernel⟩
  have refused : configuration (some wrong) = .error complaint := by decide +kernel
  obtain ⟨listed, law⟩ := batch_agrees_with_entries
  refine ⟨listed _ items, refused, ((law _ _ (listed _ items)).2 _).2 ?_,
    ((law _ _ (listed _ swapped)).2 _).2 ?_⟩
  · exact ⟨[sound], wrong, ["null"], rfl, by simpa using read, by decide +kernel⟩
  · exact ⟨[sound], "null", [wrong], rfl, by simpa using read, by decide +kernel⟩

end ScmPlugins.Response
