import HexConsole.Fault.Description
import HexConsole.Proofs.Integers
import HexConsole.Proofs.Lines
import HexConsole.Proofs.Numerals

/-!
# What a message tells

Every message opens with words of its kind and ends with numbers, in front of which stands a blank.
The text of a target may look like any part of a message, so a message is taken apart from its end.
Main statement: faults that have the same message are the same.
-/
namespace HexConsole

/-! ## Numbers after a blank -/

theorem append_blank_inj {s t v w : String} (left : ' ' ∉ v.toList) (right : ' ' ∉ w.toList) :
    s ++ " " ++ v = t ++ " " ++ w ↔ s = t ∧ v = w := by
  rw [show " " = String.singleton ' ' from rfl]
  exact append_separator_inj left right

theorem blank_not_mem_word (n : Int) : ' ' ∉ (Hexadecimal.word n).toList := by
  intro member
  obtain sign | ⟨d, small, figure⟩ := Hexadecimal.mem_word member
  · exact absurd sign (by decide)
  · revert d
    decide

theorem append_word_inj {s t : String} {m n : Int} :
    s ++ " " ++ Hexadecimal.word m = t ++ " " ++ Hexadecimal.word n ↔ s = t ∧ m = n := by
  rw [append_blank_inj (blank_not_mem_word m) (blank_not_mem_word n), Hexadecimal.word_inj]

theorem blank_not_mem_decimal (n : Int) : ' ' ∉ (toString n).toList := by
  intro member
  obtain sign | digit := Integer.mem_toString member
  · exact absurd sign (by decide)
  · exact absurd digit (by decide)

theorem append_decimal_inj {s t : String} {m n : Int} :
    s ++ " " ++ toString m = t ++ " " ++ toString n ↔ s = t ∧ m = n := by
  rw [append_blank_inj (blank_not_mem_decimal m) (blank_not_mem_decimal n), Integer.toString_inj]

namespace Fault

theorem append_place_inj {s t : String} {a b c d : Int} :
    s ++ " " ++ place a b = t ++ " " ++ place c d ↔ s = t ∧ a = c ∧ b = d := by
  have apart (s : String) (a b : Int) : s ++ " " ++ place a b =
      s ++ " " ++ Hexadecimal.word a ++ " at PC" ++ " " ++ Hexadecimal.word b := by
    have blank : " at PC " = " at PC" ++ " " := rfl
    simp only [place, blank, String.append_assoc]
  rw [apart, apart, append_word_inj, String.append_left_inj, append_word_inj, and_assoc]

theorem place_inj {a b c d : Int} : place a b = place c d ↔ a = c ∧ b = d := by
  have split := append_place_inj (s := "") (t := "") (a := a) (b := b) (c := c) (d := d)
  simpa using split

theorem message_outOfBounds_inj {address operand counter address' operand' counter' : Int}
    {target target' : String} :
    (outOfBounds address operand counter target).message =
        (outOfBounds address' operand' counter' target').message ↔
      target = target' ∧ address = address' ∧ operand = operand' ∧ counter = counter' := by
  have apart (address operand counter : Int) (target : String) :
      (outOfBounds address operand counter target).message =
        "Out of bounds " ++ target ++ " access at" ++ " " ++ Hexadecimal.word address ++
          " (op-code:" ++ " " ++ place operand counter ++ ")" := by
    have first : " access at " = " access at" ++ " " := rfl
    have second : " (op-code: " = " (op-code:" ++ " " := rfl
    change "Out of bounds " ++ target ++ " access at " ++ Hexadecimal.word address ++
      " (op-code: " ++ place operand counter ++ ")" = _
    rw [first, second]
    simp only [String.append_assoc]
  -- From the end: the place, then the address, and what is left in front of it is the target.
  rw [apart, apart, String.append_left_inj, append_place_inj, String.append_left_inj,
    append_word_inj, String.append_left_inj, String.append_right_inj, and_assoc]

theorem sizeComplaint_inj {size available size' available' : Int} :
    sizeComplaint (toString size) (toString available) =
        sizeComplaint (toString size') (toString available') ↔
      size = size' ∧ available = available' := by
  have apart (size available : String) : sizeComplaint size available =
      "ROM is" ++ " " ++ size ++ " bytes, only" ++ " " ++ available ++
        " bytes of program memory available" := by
    have first : "ROM is " = "ROM is" ++ " " := rfl
    have second : " bytes, only " = " bytes, only" ++ " " := rfl
    rw [sizeComplaint, first, second]
    simp only [String.append_assoc]
  rw [apart, apart, String.append_left_inj, append_decimal_inj, String.append_left_inj,
    append_decimal_inj]
  simp only [true_and]

/-! ## Kinds -/

/-- The first seven characters of the messages of a kind. -/
def opening : FaultKind → String
  | .plain => ""
  | .unknownInstruction => "Unknown"
  | .outOfBounds => "Out of "
  | .stackOverflow => "Stack o"
  | .stackUnderflow => "Stack u"
  | .romTooLarge => "ROM is "

theorem opening_injective : Function.Injective opening := by
  intro k l
  cases k <;> cases l <;> decide

theorem message_opening (f : Fault) : ∃ rest, f.message = opening f.kind ++ rest := by
  cases f with
  | unknownInstruction operand counter =>
    refine ⟨" op-code: " ++ place operand counter, ?_⟩
    change "Unknown op-code: " ++ place operand counter = "Unknown" ++ _
    simp [← String.append_assoc]
  | outOfBounds address operand counter target =>
    refine ⟨"bounds " ++ target ++ " access at " ++ Hexadecimal.word address ++ " (op-code: " ++
      place operand counter ++ ")", ?_⟩
    change "Out of bounds " ++ target ++ " access at " ++ Hexadecimal.word address ++
      " (op-code: " ++ place operand counter ++ ")" = "Out of " ++ _
    simp [← String.append_assoc]
  | stackOverflow operand counter =>
    refine ⟨"verflow: " ++ place operand counter, ?_⟩
    change "Stack overflow: " ++ place operand counter = "Stack o" ++ _
    simp [← String.append_assoc]
  | stackUnderflow operand counter =>
    refine ⟨"nderflow: " ++ place operand counter, ?_⟩
    change "Stack underflow: " ++ place operand counter = "Stack u" ++ _
    simp [← String.append_assoc]
  | romTooLarge size available =>
    refine ⟨toString size ++ " bytes, only " ++ toString available ++
      " bytes of program memory available", ?_⟩
    change "ROM is " ++ toString size ++ " bytes, only " ++ toString available ++
      " bytes of program memory available" = "ROM is " ++ _
    simp only [← String.append_assoc]

/-- A message tells the kind of its fault. -/
theorem kind_eq_of_message_eq {f g : Fault} (same : f.message = g.message) : f.kind = g.kind := by
  obtain ⟨r, first⟩ := f.message_opening
  obtain ⟨s, second⟩ := g.message_opening
  have seven (f : Fault) : (opening f.kind).toList.length = 7 := by cases f <;> simp [kind, opening]
  rw [first, second, ← String.toList_inj, String.toList_append, String.toList_append] at same
  have openings := (List.append_inj same ((seven f).trans (seven g).symm)).1
  exact opening_injective (String.toList_inj.mp openings)

/-- A message tells its fault: two faults have the same message exactly if they are of the same kind
and have the same numbers and the same target. Numbers may be negative and of any size, and a target
may be any text. -/
theorem message_identifies (f g : Fault) : f.message = g.message ↔ f = g := by
  constructor
  · intro same
    have kinds := kind_eq_of_message_eq same
    cases f with
    | unknownInstruction operand counter =>
      cases g with
      | unknownInstruction operand' counter' =>
        obtain ⟨rfl, rfl⟩ := place_inj.mp ((String.append_right_inj "Unknown op-code: ").mp same)
        rfl
      | _ => cases kinds
    | outOfBounds address operand counter target =>
      cases g with
      | outOfBounds address' operand' counter' target' =>
        obtain ⟨rfl, rfl, rfl, rfl⟩ := message_outOfBounds_inj.mp same
        rfl
      | _ => cases kinds
    | stackOverflow operand counter =>
      cases g with
      | stackOverflow operand' counter' =>
        obtain ⟨rfl, rfl⟩ := place_inj.mp ((String.append_right_inj "Stack overflow: ").mp same)
        rfl
      | _ => cases kinds
    | stackUnderflow operand counter =>
      cases g with
      | stackUnderflow operand' counter' =>
        obtain ⟨rfl, rfl⟩ := place_inj.mp ((String.append_right_inj "Stack underflow: ").mp same)
        rfl
      | _ => cases kinds
    | romTooLarge size available =>
      cases g with
      | romTooLarge size' available' =>
        obtain ⟨rfl, rfl⟩ := sizeComplaint_inj.mp same
        rfl
      | _ => cases kinds
  · rintro rfl
    rfl

end Fault

end HexConsole
