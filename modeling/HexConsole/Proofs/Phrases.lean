import HexConsole.CommandLine.Settings
import HexConsole.Proofs.Words

/-!
# Command lines read back

The same choices can be written in many ways: in any order and more than once, on both sides of the
cartridge, with a switch by its name or its letter, and with a value in the next word or joined to
the name. Main statement: however choices are written, their line is read as the settings in which a
parameter has the value that it was given last, and all settings can be written.
-/
namespace HexConsole.CommandLine

/-- An integer of at most 4300 digits. -/
structure Number where
  val : Int
  short : (Nat.toDigits 10 val.natAbs).length ≤ 4300

/-! ## Choices -/

/-- One thing that a command line asks for. -/
inductive Choice where
  | turnOn (t : Toggle) (runs : t ≠ .help)
  | give (p : Parameter) (n : Number)

namespace Choice

def turnsOn (t : Toggle) : Choice → Bool
  | turnOn u _ => u == t
  | give _ _ => false

def gives? (p : Parameter) : Choice → Option Int
  | turnOn _ _ => none
  | give q n => if q = p then some n.val else none

/-- The value that a parameter was given last. -/
def lastGiven? (p : Parameter) (choices : List Choice) : Option Int :=
  (choices.filterMap (gives? p)).getLast?

end Choice

open Choice

/-- The settings that some choices ask for. -/
def Settings.ofChoices (rom : String) (choices : List Choice) : Settings where
  rom := rom
  scale := .number ((lastGiven? .scale choices).getD 10)
  delay := .number ((lastGiven? .delay choices).getD 1)
  seed? := (lastGiven? .seed choices).map .number
  decoupleTimers := choices.any (turnsOn .decoupleTimers)
  headless := choices.any (turnsOn .headless)
  cycles := .number ((lastGiven? .cycles choices).getD 1000)
  verbose := choices.any (turnsOn .verbose)

/-! ## Choices in writing -/

/-- A way to refer to a switch. -/
inductive Spelling (s : Switch) where
  | name
  | letter (c : Char) (known : s.letter? = some c)

namespace Spelling

variable {s : Switch}

def text : Spelling s → String
  | name => s.name
  | letter c _ => String.ofList ['-', c]

def byLetter : Spelling s → Bool
  | name => false
  | letter _ _ => true

theorem ofString_text (spelling : Spelling s) :
    Word.ofString spelling.text = .ok (.switch s spelling.byLetter none) := by
  cases spelling with
  | name => exact Word.ofString_name s
  | letter c known => exact Word.ofString_letter known

end Spelling

/-- A choice as it is written on a command line. -/
inductive Phrase where
  | toggle (t : Toggle) (runs : t ≠ .help) (spelling : Spelling (.toggle t))
  /-- A value in a word of its own. -/
  | apart (p : Parameter) (spelling : Spelling (.parameter p)) (n : Number)
  /-- A value joined to the name by an equals sign. -/
  | joined (p : Parameter) (n : Number)

namespace Phrase

def choice : Phrase → Choice
  | toggle t runs _ => .turnOn t runs
  | apart p _ n => .give p n
  | joined p n => .give p n

def words : Phrase → List String
  | toggle _ _ spelling => [spelling.text]
  | apart _ spelling n => [spelling.text, toString n.val]
  | joined p n => [(Switch.parameter p).name ++ "=" ++ toString n.val]

/-- What the words of a phrase are sorted as. -/
def sorted : Phrase → List Word
  | toggle t _ spelling => [.switch (.toggle t) spelling.byLetter none]
  | apart p spelling n => [.switch (.parameter p) spelling.byLetter none, .plain (toString n.val)]
  | joined p n => [.switch (.parameter p) false (some (toString n.val))]

theorem sort_words (phrase : Phrase) {rest : List String} {others : List Word}
    (behind : Word.sort rest = .ok others) :
    Word.sort (phrase.words ++ rest) = .ok (phrase.sorted ++ others) := by
  cases phrase with
  | toggle t runs spelling => exact Word.sort_cons spelling.ofString_text behind
  | apart p spelling n =>
    have value := Word.sort_cons (Word.ofString_toString n.val) behind
    exact Word.sort_cons spelling.ofString_text value
  | joined p n => exact Word.sort_cons (Word.ofString_joined (.parameter p) _) behind

theorem sort_flatMap_words (phrases : List Phrase) {rest : List String} {others : List Word}
    (behind : Word.sort rest = .ok others) :
    Word.sort (phrases.flatMap words ++ rest) = .ok (phrases.flatMap sorted ++ others) := by
  induction phrases with
  | nil => exact behind
  | cons phrase phrases ih =>
    rw [List.flatMap_cons, List.flatMap_cons, List.append_assoc, List.append_assoc]
    exact sort_words phrase ih

theorem sort_line {rom : String} (undashed : rom.toList.head? ≠ some '-')
    (before after : List Phrase) :
    Word.sort (before.flatMap words ++ rom :: after.flatMap words) =
      .ok (before.flatMap sorted ++ .plain rom :: after.flatMap sorted) := by
  have nothing : Word.sort [] = .ok [] := rfl
  have behind := sort_flatMap_words after nothing
  rw [List.append_nil, List.append_nil] at behind
  exact sort_flatMap_words before (Word.sort_cons (Word.ofString_undashed undashed) behind)

/-- Every setting in writing, whether it is the standard one or not. -/
def all (scale delay cycles : Number) (seed? : Option Number)
    (decoupleTimers headless verbose : Bool) : List Phrase :=
  [joined .scale scale, joined .delay delay, joined .cycles cycles] ++
    seed?.toList.map (joined .seed) ++
    (if decoupleTimers then [toggle .decoupleTimers (by decide) .name] else []) ++
    (if headless then [toggle .headless (by decide) .name] else []) ++
    (if verbose then [toggle .verbose (by decide) .name] else [])

theorem ofChoices_all (rom : String) (scale delay cycles : Number) (seed? : Option Number)
    (decoupleTimers headless verbose : Bool) :
    Settings.ofChoices rom
        ((all scale delay cycles seed? decoupleTimers headless verbose).map choice) =
      { rom, scale := .number scale.val, delay := .number delay.val,
        seed? := seed?.map fun n => .number n.val, decoupleTimers, headless,
        cycles := .number cycles.val, verbose } := by
  cases seed? <;> cases decoupleTimers <;> cases headless <;> cases verbose <;> rfl

end Phrase

open Phrase

/-! ## Settings in the making -/

theorem Cluster.ofWord_parameter (p : Parameter) (byLetter : Bool) (text : String) :
    Cluster.ofWord (.parameter p) byLetter (some text) = .ok (.value [] p text) := by
  rw [Cluster.ofWord, Cluster.ofJoined, String.ofList_toList]

namespace Progress

/-- Some choices are read, no parameter waits, and no word is left over. -/
def reading (rom : String) (romGiven romLast : Bool) (choices : List Choice) : Progress :=
  ⟨.ofChoices rom choices, romGiven, romLast, none, []⟩

variable (rom : String) (romGiven romLast : Bool) (choices : List Choice)

theorem turnOn_reading (t : Toggle) (runs : t ≠ .help) :
    (reading rom romGiven romLast choices).turnOn t =
      .ok (reading rom romGiven romLast (choices ++ [.turnOn t runs])) := by
  cases t with
  | help => exact absurd rfl runs
  | decoupleTimers | headless | verbose =>
    simp [reading, turnOn, Settings.ofChoices, lastGiven?, turnsOn, gives?]

theorem set_reading (p : Parameter) (n : Number) :
    (reading rom romGiven romLast choices).set p (.number n.val) =
      reading rom romGiven romLast (choices ++ [.give p n]) := by
  cases p <;> simp [reading, set, Settings.ofChoices, lastGiven?, turnsOn, gives?]

theorem assign_reading (p : Parameter) (n : Number) :
    (reading rom romGiven romLast choices).assign p (toString n.val) =
      .ok (reading rom romGiven romLast (choices ++ [.give p n])) := by
  have single := Word.ne_separator (Word.ofString_toString n.val)
  rw [assign, if_neg single, Integer.read_toString n.short]
  exact congrArg Except.ok (set_reading rom romGiven romLast choices p n)

/-- A phrase adds its choice, and leaves nothing waiting. -/
theorem foldlM_sorted (phrase : Phrase) :
    phrase.sorted.foldlM step (reading rom romGiven romLast choices) =
      .ok (reading rom romGiven false (choices ++ [phrase.choice])) := by
  -- In each case the words end up as one call, whose text is that of the choice.
  cases phrase with
  | toggle t runs spelling =>
    show [t].foldlM turnOn (reading rom romGiven false choices) >>= pure = _
    rw [List.foldlM_cons, turnOn_reading rom romGiven false choices t runs]
    rfl
  | apart p spelling n =>
    show (reading rom romGiven false choices).assign p (toString n.val) >>= pure = _
    rw [assign_reading]
    rfl
  | joined p n =>
    show (Cluster.ofWord (.parameter p) false (some (toString n.val)) >>=
      (reading rom romGiven false choices).act) >>= pure = _
    rw [Cluster.ofWord_parameter]
    show (reading rom romGiven false choices).assign p (toString n.val) >>= pure = _
    rw [assign_reading]
    rfl

theorem foldlM_flatMap_sorted (phrases : List Phrase) :
    ∃ last, (phrases.flatMap sorted).foldlM step (reading rom romGiven romLast choices) =
      .ok (reading rom romGiven last (choices ++ phrases.map choice)) := by
  induction phrases generalizing romLast choices with
  | nil =>
    refine ⟨romLast, ?_⟩
    rw [List.map_nil, List.append_nil]
    rfl
  | cons phrase phrases ih =>
    obtain ⟨last, others⟩ := ih false (choices ++ [phrase.choice])
    refine ⟨last, ?_⟩
    rw [List.flatMap_cons, List.foldlM_append, foldlM_sorted]
    show (phrases.flatMap sorted).foldlM step _ = _
    rw [others, List.append_assoc]
    rfl

/-- The first plain word that no parameter takes is the cartridge. -/
theorem step_rom : step (reading "" false romLast choices) (.plain rom) =
    .ok (reading rom true true choices) := rfl

theorem foldlM_line (before after : List Phrase) :
    ∃ last, (before.flatMap sorted ++ .plain rom :: after.flatMap sorted).foldlM step .start =
      .ok (reading rom true last ((before ++ after).map choice)) := by
  have nothing : start = reading "" false false [] := rfl
  obtain ⟨last, front⟩ := foldlM_flatMap_sorted "" false false [] before
  obtain ⟨last', back⟩ := foldlM_flatMap_sorted rom true true (before.map choice) after
  refine ⟨last', ?_⟩
  rw [List.foldlM_append, nothing, front]
  show (Word.plain rom :: after.flatMap sorted).foldlM step
    (reading "" false last (before.map choice)) = _
  rw [List.foldlM_cons, step_rom]
  show (after.flatMap sorted).foldlM step (reading rom true true (before.map choice)) = _
  rw [back, List.map_append]

end Progress

/-! ## Whole lines -/

/-- A line of phrases in any order, with the cartridge before, between or after them, is read. The
settings have the cartridge as it is written, the value that each parameter was given last, and the
toggles that were named; what the line says nothing about has its standard value. There are such
phrases for all settings whose numbers are short enough to be read. -/
theorem parse_written {rom : String} (undashed : rom.toList.head? ≠ some '-') :
    (∀ before after : List Phrase,
      parse (before.flatMap words ++ rom :: after.flatMap words) =
        .ok (.ofChoices rom ((before ++ after).map choice))) ∧
    ∀ (scale delay cycles : Number) (seed? : Option Number)
      (decoupleTimers headless verbose : Bool),
      ∃ phrases : List Phrase, Settings.ofChoices rom (phrases.map choice) =
        { rom, scale := .number scale.val, delay := .number delay.val,
          seed? := seed?.map fun n => .number n.val, decoupleTimers, headless,
          cycles := .number cycles.val, verbose } := by
  constructor
  · intro before after
    obtain ⟨last, read⟩ := Progress.foldlM_line rom before after
    rw [parse, sort_line undashed]
    show (before.flatMap sorted ++ _).foldlM Progress.step .start >>= Progress.finish = _
    rw [read]
    rfl
  · intro scale delay cycles seed? decoupleTimers headless verbose
    exact ⟨_, ofChoices_all rom scale delay cycles seed? decoupleTimers headless verbose⟩

/-- A scale that is given twice, numbers of both signs, and a cartridge whose path looks like a
switch further on. -/
theorem parse_written_scattered :
    "no --verbose.ch8".toList.head? ≠ some '-' ∧
    parse ["--scale=-3", "-d", "5", "no --verbose.ch8", "--seed", "-7", "-s", "12", "-v"] =
      .ok { rom := "no --verbose.ch8", scale := .number 12, delay := .number 5,
            seed? := some (.number (-7)), decoupleTimers := false, headless := false,
            cycles := .number 1000, verbose := true } := by
  have undashed : "no --verbose.ch8".toList.head? ≠ some '-' := by decide
  have read := (parse_written undashed).1
    [.joined .scale ⟨-3, by decide⟩, .apart .delay (.letter 'd' rfl) ⟨5, by decide⟩]
    [.apart .seed .name ⟨-7, by decide⟩, .apart .scale (.letter 's' rfl) ⟨12, by decide⟩,
      .toggle .verbose (by decide) (.letter 'v' rfl)]
  refine ⟨undashed, Eq.trans (congrArg parse ?_) read⟩
  decide

end HexConsole.CommandLine
