import Mathlib.Data.List.TakeWhile
import ScmPlugins.Text.Blank

namespace ScmPlugins.Text

def Blanks (w : List Char) : Prop := ∀ c ∈ w, isBlankChar c = true

structure Trimmed (t : List Char) : Prop where
  first : ∀ c ∈ t.head?, isBlankChar c = false
  last : ∀ c ∈ t.getLast?, isBlankChar c = false

/-- The second text is what is left of the first without the blanks around it. -/
structure Trims (s t : List Char) : Prop where
  around : ∃ w x, s = w ++ (t ++ x) ∧ Blanks w ∧ Blanks x
  trimmed : Trimmed t

variable {s t w x : List Char}

theorem trimmed_of_forall (h : ∀ c ∈ t, isBlankChar c = false) : Trimmed t where
  first _ hc := h _ (List.mem_of_mem_head? hc)
  last _ hc := h _ (List.mem_of_mem_getLast? hc)

theorem trimStart_blanks_append (h : Blanks w) (s : List Char) :
    trimStart (w ++ s) = trimStart s :=
  List.dropWhile_append_of_pos h

theorem trimStart_of_head (h : ∀ c ∈ s.head?, isBlankChar c = false) : trimStart s = s := by
  cases s with
  | nil => rfl
  | cons c s => simp [trimStart, h c rfl]

theorem exists_blanks_trimStart (s : List Char) : ∃ w, Blanks w ∧ s = w ++ trimStart s :=
  ⟨s.takeWhile isBlankChar, fun _ => List.mem_takeWhile_imp, List.takeWhile_append_dropWhile.symm⟩

theorem head_trimStart : ∀ c ∈ (trimStart s).head?, isBlankChar c = false := by
  induction s with
  | nil => nofun
  | cons c s ih =>
    intro d hd
    by_cases blank : isBlankChar c = true
    · exact ih d (by simpa [trimStart, blank] using hd)
    · obtain rfl : c = d := by simpa [trimStart, blank] using hd
      simpa using blank

theorem Blanks.reverse (h : Blanks w) : Blanks w.reverse := fun c hc => h c (List.mem_reverse.1 hc)

theorem trim_append (hw : Blanks w) (hx : Blanks x) (h : Trimmed t) : trim (w ++ (t ++ x)) = t := by
  cases t with
  | nil =>
    have nothing : trimStart (w ++ ([] ++ x)) = [] :=
      trimStart_eq_nil_iff.2 (List.forall_mem_append.2 ⟨hw, hx⟩)
    rw [trim, nothing]
    rfl
  | cons c t =>
    have front : trimStart (w ++ (c :: t ++ x)) = c :: t ++ x := by
      rw [trimStart_blanks_append hw, trimStart_of_head]
      exact h.first
    have back : trimStart (c :: t ++ x).reverse = (c :: t).reverse := by
      rw [List.reverse_append, trimStart_blanks_append hx.reverse, trimStart_of_head]
      simpa only [List.head?_reverse] using h.last
    rw [trim, front, back, List.reverse_reverse]

theorem trims_trim (s : List Char) : Trims s (trim s) := by
  obtain ⟨w, hw, front⟩ := exists_blanks_trimStart s
  obtain ⟨x, hx, back⟩ := exists_blanks_trimStart (trimStart s).reverse
  have split : trimStart s = trim s ++ x.reverse := by
    rw [trim, ← List.reverse_append, ← back, List.reverse_reverse]
  refine ⟨⟨w, x.reverse, by rw [← split]; exact front, hw, hx.reverse⟩, ?_, ?_⟩
  · intro c hc
    refine head_trimStart (s := s) c ?_
    rw [split, List.head?_append, Option.mem_def.1 hc]
    rfl
  · rw [trim, List.getLast?_reverse]
    exact head_trimStart

theorem trim_eq_iff : trim s = t ↔ Trims s t := by
  constructor
  · rintro rfl
    exact trims_trim s
  · rintro ⟨⟨w, x, rfl, hw, hx⟩, trimmed⟩
    exact trim_append hw hx trimmed

theorem trim_eq_self_iff : trim s = s ↔ Trimmed s := by
  constructor
  · intro h
    exact (trim_eq_iff.1 h).trimmed
  · intro h
    exact trim_eq_iff.2 ⟨⟨[], [], by simp, nofun, nofun⟩, h⟩

end ScmPlugins.Text
