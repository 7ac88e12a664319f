import Mathlib.Data.List.Basic

/-!
# Texts taken apart

A text that was put together with separators is taken apart at them. Main statement: lines that are
each ended by a line break, and hold none, are the pieces of their text between its line breaks.
-/
namespace HexConsole

/-- A list is split at the last place of a separator in one way. -/
theorem append_cons_inj_of_last {α : Type} {x : α} {s t v w : List α} (left : x ∉ v)
    (right : x ∉ w) : s ++ x :: v = t ++ x :: w ↔ s = t ∧ v = w := by
  constructor
  · intro same
    obtain ⟨between, rfl, rest⟩ | ⟨between, rfl, rest⟩ := List.append_eq_append_iff.mp same <;>
      obtain ⟨rfl, -⟩ | ⟨more, rfl, part⟩ := List.cons_eq_append_iff.mp rest
    · simpa using rest
    · simp [part] at left
    · simpa using rest.symm
    · simp [part] at right
  · rintro ⟨rfl, rfl⟩
    rfl

/-- So is a text. -/
theorem append_separator_inj {x : Char} {s t v w : String} (left : x ∉ v.toList)
    (right : x ∉ w.toList) :
    s ++ String.singleton x ++ v = t ++ String.singleton x ++ w ↔ s = t ∧ v = w := by
  have split := append_cons_inj_of_last (s := s.toList) (t := t.toList) left right
  simpa [← String.toList_inj] using split

theorem flatMap_terminated {α : Type} (sep : α) (lines : List (List α)) :
    (lines.flatMap fun l => l ++ [sep]) = [sep].intercalate (lines ++ [[]]) := by
  induction lines with
  | nil => rfl
  | cons line rest ih =>
    obtain ⟨next, more, split⟩ : ∃ next more, rest ++ [[]] = next :: more :=
      List.exists_cons_of_ne_nil (by simp)
    rw [List.flatMap_cons, ih, List.cons_append, split, List.intercalate_cons_cons]

/-- Lines between line breaks, with one more at the end, are lines that are each ended by one. -/
theorem intercalate_terminated {lines : List String} (some : lines ≠ []) :
    "\n".intercalate lines ++ "\n" = String.join (lines.map (· ++ "\n")) := by
  induction lines with
  | nil => exact absurd rfl some
  | cons line rest ih =>
    cases rest with
    | nil => simp
    | cons next more =>
      rw [String.intercalate_cons_cons, List.map_cons, String.join_cons, ← ih (by simp)]
      simp only [String.append_assoc]

/-- Lines that are each ended by a line break. Nothing is left after the last of them. -/
theorem splitOn_terminated {lines : List String} (plain : ∀ l ∈ lines, '\n' ∉ l.toList) :
    (String.join (lines.map (· ++ "\n"))).toList.splitOn '\n' =
      lines.map String.toList ++ [[]] := by
  have pieces : (String.join (lines.map (· ++ "\n"))).toList =
      ['\n'].intercalate (lines.map String.toList ++ [[]]) := by
    rw [← flatMap_terminated, String.toList_join, List.flatMap_map, List.flatMap_map]
    simp
  rw [pieces]
  apply List.splitOn_intercalate
  · intro piece member
    obtain line | last := List.mem_append.mp member
    · obtain ⟨l, inside, rfl⟩ := List.mem_map.mp line
      exact plain l inside
    · rw [List.mem_singleton.mp last]
      exact List.not_mem_nil
  · simp

/-- Texts of terminated lines are equal only if their lines are. -/
theorem join_terminated_inj {lines lines' : List String} (plain : ∀ l ∈ lines, '\n' ∉ l.toList)
    (plain' : ∀ l ∈ lines', '\n' ∉ l.toList) :
    String.join (lines.map (· ++ "\n")) = String.join (lines'.map (· ++ "\n")) ↔
      lines = lines' := by
  constructor
  · intro same
    have pieces := splitOn_terminated plain
    rw [same, splitOn_terminated plain', List.append_left_inj] at pieces
    exact (List.map_injective_iff.mpr fun _ _ => String.toList_injective) pieces.symm
  · rintro rfl
    rfl

end HexConsole
