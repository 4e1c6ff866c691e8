import ScmPlugins.Proofs.Json.Nesting
import ScmPlugins.Proofs.Response.Classes

namespace ScmPlugins.Response

open Json (Plain Wraps IsValue Nests)

theorem isBlank_text {j : Json} (h : Plain j) : Text.isBlank j.text = false :=
  isBlank_of_wraps (Json.wraps_text h.isValue_render)

theorem Document.read_text_of_deep {j : Json} (h : Plain j) (deep : Json.maxDepth < j.depth)
    (d : Document) :
    d.read (some j.text) =
      .error { payload := d.payload, rule := .validJson Json.Fault.tooDeep.message } :=
  d.read_of_fault (isBlank_text h) (Json.parse_text_of_deep h deep)

theorem hasFault_of_nests {s : String} {v : List Char} {n : Nat} (wraps : Wraps s.toList v)
    (h : Nests n v) (deep : Json.maxDepth < n) : HasFault (some s) := by
  refine .text (isBlank_of_wraps wraps) fun document => ?_
  obtain ⟨j, parsed⟩ := isDocument_iff.1 document
  exact h.not_parse deep wraps parsed

/-- The compact text of a tree without real numbers reads back as that tree if lists and maps stand
at most 127 deep in it, and is refused by every decoder for its depth if they stand deeper. However
a text is written, every decoder refuses it if they stand deeper in it. Where in the text the reader
gave up may follow in the detail. -/
theorem trees_kept_or_refused :
    (∀ j : Json, Plain j → j.depth ≤ 127 → Json.parse j.text = .ok j) ∧
      (∀ j : Json, Plain j → 128 ≤ j.depth →
        ∃ detail : String, "recursion limit exceeded".toList <+: detail.toList ∧ ∀ d : Document,
          d.read (some j.text) = .error { payload := d.payload, rule := .validJson detail }) ∧
      ∀ (s : String) (v : List Char) (n : Nat), Wraps s.toList v → Nests n v → 128 ≤ n →
        ∃ detail, ∀ d : Document,
          d.read (some s) = .error { payload := d.payload, rule := .validJson detail } := by
  refine ⟨fun j plain low => Json.parse_text plain low, ?_, ?_⟩
  · intro j plain deep
    exact ⟨_, List.prefix_rfl, fun d => d.read_text_of_deep plain deep⟩
  · intro s v n wraps nests deep
    exact (hasFault_of_nests wraps nests deep).exists_detail

theorem trees_kept_or_refused_nested :
    let j : Json := .map [("b", .int (-9223372036854775808)), ("", .int 18446744073709551615),
      ("b", .list [.str "\u0000\"é😀", .bool true, .map []]), ("", .null)]
    let nested (n : Nat) : Json := (fun j => .list [j])^[n] .null
    (Plain j ∧ j.depth ≤ 127 ∧ Json.parse j.text = .ok j) ∧
      (Plain (nested 127) ∧ (nested 127).depth ≤ 127 ∧
        Json.parse (nested 127).text = .ok (nested 127)) ∧
      (Plain (nested 128) ∧ 128 ≤ (nested 128).depth ∧
        ∃ detail : String, "recursion limit exceeded".toList <+: detail.toList ∧
          validation (some (nested 128).text) =
            .error { payload := .validation, rule := .validJson detail }) ∧
      ∃ v detail, Wraps (" " ++ (nested 128).text ++ "\n").toList v ∧ Nests 128 v ∧
        view (some (" " ++ (nested 128).text ++ "\n")) =
          .error { payload := .view, rule := .validJson detail } := by
  intro j nested
  have plain : Plain j := by
    refine .map ?_
    simp only [List.forall_mem_cons]
    refine ⟨.int (by simp [Json.IsWhole]), .int (by simp [Json.IsWhole]), .list ?_, .null, nofun⟩
    simp only [List.forall_mem_cons]
    exact ⟨.str _, .bool _, .map nofun, nofun⟩
  have both (n : Nat) : Plain (nested n) ∧ (nested n).depth = n := by
    induction n with
    | zero => exact ⟨.null, rfl⟩
    | succ n ih =>
      obtain ⟨plain, depth⟩ := ih
      have next : nested (n + 1) = .list [nested n] := Function.iterate_succ_apply' _ n _
      rw [next]
      exact ⟨.list (by simpa using plain), by simp [Json.depth, Json.depthItems, depth]⟩
  obtain ⟨kept, refused, spelt⟩ := trees_kept_or_refused
  have deepest : (nested 127).depth ≤ 127 := (both 127).2.le
  have deeper : 128 ≤ (nested 128).depth := (both 128).2.ge
  have wraps : Wraps (" " ++ (nested 128).text ++ "\n").toList (nested 128).render :=
    (wraps_surrounded_iff (by simp [Json.Spaces, Json.isSpace])
      (by simp [Json.Spaces, Json.isSpace])).2 (Json.wraps_text (both 128).1.isValue_render)
  have nests : Nests 128 (nested 128).render := by
    have found := (both 128).1.nests_render (Nat.lt_of_lt_of_le (by decide) deeper)
    rwa [(both 128).2] at found
  obtain ⟨limit, named, compact⟩ := refused _ (both 128).1 deeper
  obtain ⟨detail, everywhere⟩ := spelt _ _ 128 wraps nests (Nat.le_refl _)
  have low : j.depth ≤ 127 := by decide
  exact ⟨⟨plain, low, kept j plain low⟩, ⟨(both 127).1, deepest, kept _ (both 127).1 deepest⟩,
    ⟨(both 128).1, deeper, limit, named, compact .validation⟩,
    _, detail, wraps, nests, everywhere .view⟩

end ScmPlugins.Response
