import ChartGrammar.Rendering.Mention
import Mathlib.Data.List.Basic

/-! Names and formulas. A plain name is read back from a formula that it is a side of; a name with a tilde in it, or
with blanks at its ends, is on no side of any formula. -/

namespace ChartGrammar

/-- The name has no tilde in it and no blanks at its ends. -/
def Text.Plain (s : String) : Prop :=
  '~' ∉ s.toList ∧ Text.strip s = s

instance (s : String) : Decidable (Text.Plain s) :=
  inferInstanceAs (Decidable (_ ∧ _))

theorem not_mem_of_mem_splitOn {α : Type} [BEq α] [LawfulBEq α] {a : α} {xs part : List α}
    (h : part ∈ xs.splitOn a) : a ∉ part := by
  induction xs generalizing part with
  | nil =>
      rw [List.splitOn_nil, List.mem_singleton] at h
      rw [h]
      exact List.not_mem_nil
  | cons x xs ih =>
      rw [List.splitOn_cons_eq_if_modifyHead] at h
      split at h
      · rcases List.mem_cons.mp h with rfl | h
        · exact List.not_mem_nil
        · exact ih h
      · next hne =>
          -- The element goes in front of the first part.
          cases hparts : xs.splitOn a with
          | nil => exact absurd hparts (List.splitOn_ne_nil a xs)
          | cons first rest =>
              rw [hparts] at h ih
              rcases List.mem_cons.mp h with rfl | h
              · rw [List.mem_cons, not_or]
                exact ⟨fun heq => hne (beq_iff_eq.mpr heq.symm), ih List.mem_cons_self⟩
              · exact ih (List.mem_cons_of_mem first h)

namespace Text

theorem mem_of_mem_dropEnds {p : Char → Bool} {s : List Char} {c : Char} (h : c ∈ dropEnds p s) : c ∈ s := by
  rw [dropEnds, List.mem_reverse] at h
  have hinner := List.mem_reverse.mp ((List.dropWhile_suffix p).subset h)
  exact (List.dropWhile_suffix p).subset hinner

theorem strip_blank_cons {c : Char} (hc : isBlank c = true) (s : List Char) :
    strip (String.ofList (c :: s)) = strip (String.ofList s) := by
  simp [strip, dropEnds, hc]

end Text

open Text

theorem plain_of_mem_formulaSides {s name : String} (h : name ∈ formulaSides s) : Plain name := by
  obtain ⟨part, hpart, rfl⟩ := List.mem_map.mp h
  refine ⟨fun htilde => not_mem_of_mem_splitOn hpart ?_, strip_strip _⟩
  rw [strip, String.toList_ofList, String.toList_ofList] at htilde
  exact mem_of_mem_dropEnds htilde

theorem mem_formulaSides_of_plain (y : String) {name : String} (h : Plain name) :
    name ∈ formulaSides (y ++ " ~ " ++ name) := by
  have htext : (y ++ " ~ " ++ name).toList = (y.toList ++ [' ']) ++ '~' :: (' ' :: name.toList) := by
    simp
  have hright : '~' ∉ ' ' :: name.toList := by
    rw [List.mem_cons, not_or]
    exact ⟨by decide, h.1⟩
  refine List.mem_map.mpr ⟨' ' :: name.toList, ?_, ?_⟩
  · rw [htext, List.splitOn_append_cons_self, List.splitOn_eq_singleton hright]
    exact List.mem_append_right _ List.mem_cons_self
  · rw [strip_blank_cons (by decide), String.ofList_toList, h.2]

/-- A formula tells of the name on its right exactly if the name is plain. -/
theorem textMentions_formula {y name : String} : textMentions (y ++ " ~ " ++ name) name = true ↔ Plain name := by
  have hlonger : y ++ " ~ " ++ name ≠ name := by
    intro heq
    have hlength := congrArg String.length heq
    simp only [String.length_append] at hlength
    have hmiddle : " ~ ".length = 3 := rfl
    omega
  rw [textMentions, beq_false_of_ne hlonger, Bool.false_or, List.contains_iff_mem]
  exact ⟨plain_of_mem_formulaSides, mem_formulaSides_of_plain y⟩

theorem textMentions_self (name : String) : textMentions name name = true := by
  rw [textMentions, beq_self_eq_true, Bool.true_or]

/-- A plain text tells of nothing but itself. -/
theorem textMentions_of_plain {s name : String} (h : Plain s) : textMentions s name = true ↔ s = name := by
  rw [textMentions, formulaSides, List.splitOn_eq_singleton h.1, List.map_singleton, String.ofList_toList, h.2]
  rw [List.contains_cons, List.contains_nil, Bool.or_false, Bool.or_eq_true, beq_iff_eq, beq_iff_eq,
    eq_comm (a := name), or_self]

end ChartGrammar
