import HexConsole.CommandLine.Word
import HexConsole.Proofs.Integers

/-!
# How words are sorted

A switch is known by its long name, alone or with a value after an equals sign, and by its letter.
Main statements: each of these is sorted as its switch, a text without a dash in front and a number
of either sign are sorted as plain, and a line is sorted word by word.
-/
namespace HexConsole.CommandLine

/-! ## Names and letters -/

namespace Switch

theorem mem_all (s : Switch) : s ∈ all := by
  cases s with
  | toggle t => cases t <;> decide
  | parameter p => cases p <;> decide

/-- A statement about all switches can be checked on each of them. -/
instance {P : Switch → Prop} [DecidablePred P] : Decidable (∀ s, P s) :=
  decidable_of_iff (∀ s ∈ all, P s) ⟨fun each s => each s (mem_all s), fun every s _ => every s⟩

theorem name_dashed (s : Switch) : ∃ rest, s.name.toList = '-' :: '-' :: rest := by
  have dashes : ∀ s : Switch, ['-', '-'] <+: s.name.toList := by decide
  obtain ⟨rest, same⟩ := dashes s
  exact ⟨rest, same.symm⟩

theorem equals_not_mem_name : ∀ s : Switch, '=' ∉ s.name.toList := by decide

theorem ofName?_eq_none {text : String} (other : ∀ s : Switch, s.name ≠ text) :
    ofName? text = none :=
  List.find?_eq_none.mpr fun s _ => by simpa using other s

theorem letter_not_isDigit (s : Switch) {c : Char} (known : s.letter? = some c) :
    c.isDigit = false := by
  have letters : ∀ s : Switch, s.letter?.any Char.isDigit = false := by decide
  simpa [known] using letters s

theorem ofLetter?_of_isDigit {c : Char} (digit : c.isDigit = true) : ofLetter? c = none := by
  refine List.find?_eq_none.mpr fun s _ known => ?_
  have letter := letter_not_isDigit s (beq_iff_eq.mp known)
  rw [digit] at letter
  cases letter

end Switch

namespace Word

open Switch

/-! ## Switches -/

theorem named?_name : ∀ s : Switch, named? s.name.toList = some (s, false) := by decide

theorem named?_letter {s : Switch} {c : Char} (known : s.letter? = some c) :
    named? ['-', c] = some (s, true) := by
  have letters : ∀ s : Switch, s.letter?.bind (fun c => named? ['-', c]) =
      s.letter?.map fun _ => (s, true) := by decide
  simpa [known] using letters s

theorem named?_eq_none {text : List Char} (letter : ∀ c, text = ['-', c] → ofLetter? c = none)
    (name : ∀ s : Switch, s.name.toList ≠ text) : named? text = none := by
  unfold named?
  split
  · next c => rw [letter c rfl, Option.map_none]
  · have unknown : ofName? (String.ofList text) = none := by
      refine ofName?_eq_none fun s same => name s ?_
      rw [same, String.toList_ofList]
    rw [unknown, Option.map_none]

theorem ofDashed_named {text : List Char} {s : Switch} {byLetter : Bool}
    (named : named? text = some (s, byLetter)) : ofDashed text = .ok (switch s byLetter none) := by
  rw [ofDashed, named]

theorem ofString_dashed {text : String} {c : Char} {rest : List Char}
    (dashed : text.toList = '-' :: c :: rest) : ofString text = ofDashed ('-' :: c :: rest) := by
  simp only [ofString, dashed]

theorem ofString_name (s : Switch) : ofString s.name = .ok (switch s false none) := by
  obtain ⟨rest, dashed⟩ := s.name_dashed
  rw [ofString_dashed dashed, ← dashed]
  exact ofDashed_named (named?_name s)

theorem ofString_letter {s : Switch} {c : Char} (known : s.letter? = some c) :
    ofString (String.ofList ['-', c]) = .ok (switch s true none) := by
  rw [ofString_dashed String.toList_ofList]
  exact ofDashed_named (named?_letter known)

theorem ne_equals {text : List Char} (unequal : '=' ∉ text) : ∀ c ∈ text, (c != '=') = true := by
  intro c member
  rw [bne_iff_ne]
  rintro rfl
  exact unequal member

theorem splitValue_joined {start : List Char} (unequal : '=' ∉ start) (value : List Char) :
    splitValue (start ++ '=' :: value) = (start, some (String.ofList value)) := by
  have before := ne_equals unequal
  simp [splitValue, List.dropWhile_append_of_pos before, List.takeWhile_append_of_pos before]

theorem splitValue_whole {text : List Char} (unequal : '=' ∉ text) :
    splitValue text = (text, none) := by
  rw [splitValue, List.dropWhile_eq_nil_iff.mpr (ne_equals unequal)]

theorem ofString_joined (s : Switch) (value : String) :
    ofString (s.name ++ "=" ++ value) = .ok (switch s false (some value)) := by
  have apart : (s.name ++ "=" ++ value).toList = s.name.toList ++ '=' :: value.toList := by
    simp
  obtain ⟨rest, dashed⟩ := s.name_dashed
  -- No name holds an equals sign, so the whole word is none, but what stands before the sign is.
  have unknown : named? (s.name.toList ++ '=' :: value.toList) = none := by
    apply named?_eq_none
    · intro c short
      have long := congrArg List.length short
      simp [dashed] at long
    · intro other same
      apply other.equals_not_mem_name
      rw [same]
      exact List.mem_append_right _ List.mem_cons_self
  have front : (s.name ++ "=" ++ value).toList = '-' :: '-' :: (rest ++ '=' :: value.toList) := by
    rw [apart, dashed]
    rfl
  have split := splitValue_joined s.equals_not_mem_name value.toList
  rw [ofString_dashed front, ← front, apart, ofDashed, unknown, split]
  simp only [named?_name, String.ofList_toList]

/-! ## Plain words -/

theorem ofString_undashed {text : String} (undashed : text.toList.head? ≠ some '-') :
    ofString text = .ok (plain text) := by
  unfold ofString
  split
  · next dashed => exact absurd (by rw [dashed]; rfl) undashed
  · rfl

theorem named?_signed {d : Char} (digit : d.isDigit = true) (rest : List Char) :
    named? ('-' :: d :: rest) = none := by
  apply named?_eq_none
  · rintro c same
    cases same
    exact ofLetter?_of_isDigit digit
  · intro s same
    obtain ⟨tail, dashed⟩ := s.name_dashed
    rw [dashed] at same
    cases same
    cases digit

/-- A dash in front of digits is a sign. -/
theorem ofString_signed {text : String} {d : Char} {rest : List Char}
    (signed : text.toList = '-' :: d :: rest) (digits : ∀ c ∈ d :: rest, c.isDigit = true) :
    ofString text = .ok (plain text) := by
  have digit : d.isDigit = true := digits d List.mem_cons_self
  have whole : splitValue ('-' :: d :: rest) = ('-' :: d :: rest, none) := by
    refine splitValue_whole fun member => ?_
    obtain sign | figure := List.mem_cons.mp member
    · cases sign
    · cases digits '=' figure
  -- No letter of a switch is a digit: that is why a negative number is not taken for one.
  have short : ofUnmatched ('-' :: d :: rest) = .ok (ofShort d ('-' :: d :: rest) rest) := by
    rw [ofUnmatched]
    rintro rfl
    cases digit
  have negative := Integer.looksNegative_of_digits digits (List.cons_ne_nil d rest)
  rw [ofString_dashed signed, ofDashed, named?_signed digit, whole]
  simp only [short, ofShort, ofLetter?_of_isDigit digit, other, negative, Bool.true_or, if_true]
  rw [← signed, String.ofList_toList]

theorem ofString_toString (n : Int) : ofString (toString n) = .ok (plain (toString n)) := by
  have figures := Integer.toList_toString n
  split_ifs at figures with negative
  · cases digits : Nat.toDigits 10 n.natAbs with
    | nil => exact absurd digits Nat.toDigits_ne_nil
    | cons d rest =>
      rw [digits] at figures
      refine ofString_signed figures fun c member => ?_
      rw [← digits] at member
      exact Integer.isDigit_of_mem member
  · refine ofString_undashed fun dash => ?_
    rw [figures] at dash
    cases Integer.isDigit_of_mem (List.mem_of_mem_head? dash)

/-! ## Lines -/

/-- The separator by itself abbreviates every name. -/
theorem ne_separator {text : String} {word : Word} (sorted : ofString text = .ok word) :
    text ≠ "--" := by
  rintro rfl
  cases sorted

theorem sort_cons {text : String} {word : Word} {rest : List String} {words : List Word}
    (first : ofString text = .ok word) (others : sort rest = .ok words) :
    sort (text :: rest) = .ok (word :: words) := by
  rw [sort, first, others]
  · rfl
  · exact ne_separator first

end Word

end HexConsole.CommandLine
