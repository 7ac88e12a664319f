import HexConsole.Proofs.Fields
import HexConsole.Proofs.Footprint
import Mathlib.Tactic.IntervalCases

/-!
# Decoding

The instruction set as a list of patterns, each an operand of four hexadecimal digits some of
which may be any. Main statement: of all integers, a machine refuses those whose low sixteen
bits match no pattern, and those that differ from one of the two operands of the family 0 but
agree with it in these bits. What it accepts it obeys as it obeys the low sixteen bits, and
it only notes and reports the operand as it was given.
-/
namespace HexConsole

/-- The four digits of an operand. One that is left out may be any. -/
structure Pattern where
  family : Nat
  second : Option Nat
  third : Option Nat
  last : Option Nat

namespace Pattern

/-- Whether a sixteen-bit operand has the digits of a pattern. -/
def Matches (p : Pattern) (u : Nat) : Prop :=
  u / 4096 = p.family ∧ (∀ d ∈ p.second, u / 256 % 16 = d) ∧ (∀ d ∈ p.third, u / 16 % 16 = d) ∧
    ∀ d ∈ p.last, u % 16 = d

end Pattern

namespace Instruction

/-- The patterns of the family 0. -/
def exactPatterns : List Pattern :=
  [⟨0x0, some 0x0, some 0xE, some 0x0⟩, ⟨0x0, some 0x0, some 0xE, some 0xE⟩]

/-- The patterns of the other families. -/
def maskedPatterns : List Pattern :=
  [⟨0x1, none, none, none⟩, ⟨0x2, none, none, none⟩, ⟨0x3, none, none, none⟩,
    ⟨0x4, none, none, none⟩, ⟨0x5, none, none, some 0x0⟩, ⟨0x6, none, none, none⟩,
    ⟨0x7, none, none, none⟩, ⟨0x8, none, none, some 0x0⟩, ⟨0x8, none, none, some 0x1⟩,
    ⟨0x8, none, none, some 0x2⟩, ⟨0x8, none, none, some 0x3⟩, ⟨0x8, none, none, some 0x4⟩,
    ⟨0x8, none, none, some 0x5⟩, ⟨0x8, none, none, some 0x6⟩, ⟨0x8, none, none, some 0x7⟩,
    ⟨0x8, none, none, some 0xE⟩, ⟨0x9, none, none, some 0x0⟩, ⟨0xA, none, none, none⟩,
    ⟨0xB, none, none, none⟩, ⟨0xC, none, none, none⟩, ⟨0xD, none, none, none⟩,
    ⟨0xE, none, some 0x9, some 0xE⟩, ⟨0xE, none, some 0xA, some 0x1⟩,
    ⟨0xF, none, some 0x0, some 0x7⟩, ⟨0xF, none, some 0x0, some 0xA⟩,
    ⟨0xF, none, some 0x1, some 0x5⟩, ⟨0xF, none, some 0x1, some 0x8⟩,
    ⟨0xF, none, some 0x1, some 0xE⟩, ⟨0xF, none, some 0x2, some 0x9⟩,
    ⟨0xF, none, some 0x3, some 0x3⟩, ⟨0xF, none, some 0x5, some 0x5⟩,
    ⟨0xF, none, some 0x6, some 0x5⟩]

/-- The patterns of the instruction set. -/
def patterns : List Pattern := exactPatterns ++ maskedPatterns

example : patterns.length = 34 := by decide

theorem isSome_arithmetic?_iff (nibble : Nat) :
    (arithmetic? nibble).isSome = true ↔ nibble ≤ 7 ∨ nibble = 0xE := by
  unfold arithmetic?
  split <;> grind

theorem isSome_keyTest?_iff (x : Register) (byte : Nat) :
    (keyTest? x byte).isSome = true ↔ byte = 0x9E ∨ byte = 0xA1 := by
  unfold keyTest?
  split <;> grind

theorem isSome_service?_iff (x : Register) (byte : Nat) :
    (service? x byte).isSome = true ↔
      byte = 0x07 ∨ byte = 0x0A ∨ byte = 0x15 ∨ byte = 0x18 ∨ byte = 0x1E ∨ byte = 0x29 ∨
        byte = 0x33 ∨ byte = 0x55 ∨ byte = 0x65 := by
  unfold service?
  split <;> grind

/-- Outside the family 0 a word is an instruction exactly if a pattern says so. -/
theorem isSome_ofWord?_iff {u : Nat} (fits : u < 65536) :
    (ofWord? u).isSome = true ↔ ∃ p ∈ maskedPatterns, p.Matches u := by
  have family : u / 4096 < 16 := by omega
  -- Families E and F look at the low byte as a whole, patterns at its two digits.
  have byte (b : Nat) (low : b < 256) :
      u % 256 = b ↔ u / 16 % 16 = b / 16 ∧ u % 16 = b % 16 := by omega
  simp only [maskedPatterns, List.mem_cons, List.not_mem_nil, or_false, exists_eq_or_imp,
    exists_eq_left, Pattern.Matches, ofWord?, Option.mem_def, reduceCtorEq, Option.some_inj,
    forall_eq', false_implies, implies_true, true_and, and_true]
  generalize u / 4096 = k at family ⊢
  interval_cases k
  all_goals simp [Fin.ext_iff, isSome_arithmetic?_iff, isSome_keyTest?_iff, isSome_service?_iff,
    byte]
  omega

theorem matches_exact_iff {u : Nat} (fits : u < 65536) :
    (∃ p ∈ exactPatterns, p.Matches u) ↔ u = 0x00E0 ∨ u = 0x00EE := by
  simp only [exactPatterns, List.mem_cons, List.not_mem_nil, or_false, exists_eq_or_imp,
    exists_eq_left, Pattern.Matches, Option.mem_def, Option.some_inj, forall_eq']
  omega

/-- Whether an operand is none of the instruction set: its low sixteen bits match no pattern, or
they are one of the two operands of the family 0, which must be given exactly. -/
def Refused (operand : Int) : Prop :=
  (∀ p ∈ patterns, ¬p.Matches (operand % 65536).toNat) ∨
    ((operand % 65536 = 0x00E0 ∨ operand % 65536 = 0x00EE) ∧ operand ≠ operand % 65536)

theorem decode_eq_none_iff (operand : Int) : decode operand = none ↔ Refused operand := by
  have fits : (operand % 65536).toNat < 65536 := by omega
  have masked := isSome_ofWord?_iff fits
  have exact := matches_exact_iff fits
  have every : (∀ p ∈ patterns, ¬p.Matches (operand % 65536).toNat) ↔
      ¬(∃ p ∈ exactPatterns, p.Matches (operand % 65536).toNat) ∧
        ¬∃ p ∈ maskedPatterns, p.Matches (operand % 65536).toNat := by
    simp only [patterns, List.forall_mem_append, not_exists, not_and]
  rw [Refused, every, ← masked, exact, decode_eq]
  split_ifs with clear leave
  · subst clear
    simp
  · subst leave
    simp
  · rw [Bool.not_eq_true, Option.isSome_eq_false_iff, Option.isNone_iff_eq_none]
    constructor
    · intro unknown
      by_cases zero : operand % 65536 = 0x00E0 ∨ operand % 65536 = 0x00EE
      · exact .inr ⟨zero, by omega⟩
      · exact .inl ⟨by omega, unknown⟩
    · rintro (⟨-, unknown⟩ | ⟨zero | zero, -⟩)
      · exact unknown
      · rw [zero]
        rfl
      · rw [zero]
        rfl

/-- What is not refused is decoded as its low sixteen bits are. -/
theorem decode_emod {operand : Int} (accepted : ¬Refused operand) :
    decode (operand % 65536) = decode operand := by
  have zero : operand % 65536 = 0x00E0 ∨ operand % 65536 = 0x00EE → operand = operand % 65536 := by
    intro member
    by_contra other
    exact accepted (.inr ⟨member, other⟩)
  by_cases same : operand = operand % 65536
  · rw [← same]
  · rw [decode_eq, decode_eq, if_neg (by omega), if_neg (by omega), if_neg (by omega),
      if_neg (by omega), Int.emod_emod_of_dvd _ (dvd_refl _)]

end Instruction

/-- A fault with another operand to report. -/
def Fault.reporting (operand : Int) : Fault → Fault
  | unknownInstruction _ counter => .unknownInstruction operand counter
  | outOfBounds address _ counter target => .outOfBounds address operand counter target
  | stackOverflow _ counter => .stackOverflow operand counter
  | stackUnderflow _ counter => .stackUnderflow operand counter
  | romTooLarge size available => .romTooLarge size available

theorem Fault.reporting_reporting (f : Fault) (first second : Int) :
    (f.reporting first).reporting second = f.reporting second := by
  cases f <;> rfl

/-- A failure with another operand to report. -/
def Failure.reporting (operand : Int) : Failure → Failure
  | fault f => .fault (f.reporting operand)
  | e => e

namespace Machine

variable {m : Machine}

/-- The end of an instruction with another operand to note and to report. -/
def noting (operand : Int) : Except Fault Machine → Except Fault Machine
  | .ok n => .ok { n with operand }
  | .error f => .error (f.reporting operand)

theorem withinMemory_noting (operand : Int) (length : Nat) (n : Machine) :
    { m with operand }.withinMemory length { n with operand } =
      noting operand (m.withinMemory length n) := by
  unfold withinMemory
  split_ifs <;> rfl

theorem withKey_noting (operand : Int) (x : Register) (after : Machine → Bool → Machine)
    (frame : ∀ down, after { m with operand } down = { after m down with operand }) :
    { m with operand }.withKey x (after { m with operand }) =
      noting operand (m.withKey x (after m)) := by
  have value : { m with operand }.reg x = m.reg x := rfl
  unfold withKey
  rw [value]
  split_ifs
  · rfl
  · exact congrArg Except.ok (frame _)

theorem skippedIf_noting (operand : Int) (condition : Bool) :
    { m with operand }.skippedIf condition = { m.skippedIf condition with operand } := by
  cases condition <;> rfl

theorem saved_noting (operand : Int) (count : Nat) :
    { m with operand }.saved count = { m.saved count with operand } := by
  have memory : { m with operand }.savedMemory count = m.savedMemory count := by
    simp only [savedMemory, reg, byteAt]
  unfold saved
  rw [memory]

/-- What an instruction does depends on the operand only where it is noted and reported. -/
theorem effect_noting (operand byte : Int) (i : Instruction) :
    { m with operand }.effect byte i = noting operand (m.effect byte i) := by
  cases i with
  | leave | call =>
    simp only [effect]
    split_ifs <;> rfl
  | skipIfEquals | skipUnlessEquals | skipIfSame | skipUnlessSame =>
    exact congrArg Except.ok (skippedIf_noting operand _)
  | skipIfPressed x =>
    exact withKey_noting operand x (fun m down => m.skippedIf down)
      fun down => skippedIf_noting operand down
  | skipUnlessPressed x =>
    exact withKey_noting operand x (fun m down => m.skippedIf !down)
      fun down => skippedIf_noting operand !down
  | draw x y height => exact withinMemory_noting operand height.val (m.drawn x y height.val)
  | storeDecimal x => exact withinMemory_noting operand 3 (m.withDigits (m.reg x))
  | storeRegisters last =>
    simp only [effect]
    rw [saved_noting]
    exact withinMemory_noting operand (last.val + 1) (m.saved (last.val + 1))
  | loadRegisters last =>
    exact withinMemory_noting operand (last.val + 1) (m.restored (last.val + 1))
  | compute how x y => cases how <;> rfl
  | awaitKey x =>
    simp only [effect]
    cases m.keys.first? <;> rfl
  | _ => rfl

end Machine

/-- An outcome with another operand noted and reported. -/
def Outcome.noting {σ : Type} (operand : Int) (o : Outcome σ) : Outcome σ :=
  ⟨{ o.console with machine := { o.console.machine with operand } },
    o.failure?.map (Failure.reporting operand)⟩

namespace Console

open Machine

variable {σ : Type} [RandomSource σ]

theorem process_refused {c : Console σ} (h : c.machine.Nominal) {operand : Int}
    (refused : Instruction.Refused operand) :
    c.process operand = ⟨{ c with machine := { c.machine with operand } },
      some (.fault (.unknownInstruction operand c.machine.operandAddress))⟩ := by
  have undecoded := (Instruction.decode_eq_none_iff operand).mpr refused
  rw [process_eq h, attempt, obeyed, undecoded]

theorem process_emod {c : Console σ} (h : c.machine.Nominal) {operand : Int}
    (accepted : ¬Instruction.Refused operand) :
    c.process operand = (c.process (operand % 65536)).noting operand := by
  obtain ⟨i, decoded⟩ := Option.ne_none_iff_exists'.mp
    (mt (Instruction.decode_eq_none_iff operand).mp accepted)
  have low := (Instruction.decode_emod accepted).trans decoded
  have supplied : c.supply (operand % 65536) = c.supply operand := by
    simp only [supply, low, decoded]
  rw [process_eq h, process_eq h]
  simp only [attempt, obeyed, low, decoded, supplied, effect_noting]
  cases c.machine.effect (c.supply operand).1 i with
  | ok n => rfl
  | error f =>
    simp only [noting, Outcome.noting, Option.map_some, Failure.reporting,
      Fault.reporting_reporting]

/-- The faults of an operand that is accepted are not those of an unknown instruction. -/
theorem kind_of_process_accepted {c : Console σ} (h : c.machine.Nominal) {operand : Int}
    (accepted : ¬Instruction.Refused operand) {f : Fault}
    (failed : (c.process operand).failure? = some (.fault f)) : f.kind ≠ .unknownInstruction := by
  obtain ⟨i, decoded⟩ := Option.ne_none_iff_exists'.mp
    (mt (Instruction.decode_eq_none_iff operand).mp accepted)
  rw [process_eq h, attempt, obeyed, decoded] at failed
  cases raised : { c.machine with operand }.effect (c.supply operand).1 i with
  | ok n => simp [raised] at failed
  | error g =>
    simp only [raised, Option.some_inj, Failure.fault.injEq] at failed
    subst failed
    obtain ⟨-, -, rfl⟩ | ⟨target, -, -, rfl⟩ | kind := effect_error_cases raised
    · rintro ⟨⟩
    · rintro ⟨⟩
    · rw [kind]
      rintro ⟨⟩

/-- Exactly the operands of the instruction set are accepted, of all integers. Refusing one
changes nothing but the noted operand. An accepted one leads to the machine, or to the fault, that
its low sixteen bits lead to, but for the operand that is noted and reported. -/
theorem process_decoding {c : Console σ} (h : c.machine.Nominal) (operand : Int) :
    ((∃ f, (c.process operand).failure? = some (.fault f) ∧ f.kind = .unknownInstruction) ↔
      Instruction.Refused operand) ∧
    (Instruction.Refused operand →
      c.process operand = ⟨{ c with machine := { c.machine with operand } },
        some (.fault (.unknownInstruction operand c.machine.operandAddress))⟩) ∧
    (¬Instruction.Refused operand →
      c.process operand = (c.process (operand % 65536)).noting operand) := by
  refine ⟨⟨?_, ?_⟩, process_refused h, process_emod h⟩
  · rintro ⟨f, failed, kind⟩
    by_contra accepted
    exact kind_of_process_accepted h accepted failed kind
  · intro refused
    rw [process_refused h refused]
    exact ⟨_, rfl, rfl⟩

/-- An operand that is too wide to clear the screen, and a negative one that sets a register. -/
theorem process_decoding_reset :
    let c := (assemble ⟨true, true⟩ (Tape.repeating #[]) .debug).reset
    c.machine.Nominal ∧
      (c.process 0x100E0).failure? = some (.fault (.unknownInstruction 0x100E0 0x200)) ∧
      c.process (-0x9E01) = (c.process 0x61FF).noting (-0x9E01) := by
  intro c
  have nominal : c.machine.Nominal := (consistent_reset _).toNominal
  have refused : Instruction.Refused 0x100E0 := .inr ⟨.inl (by decide), by decide⟩
  have accepted : ¬Instruction.Refused (-0x9E01) :=
    mt (Instruction.decode_eq_none_iff _).mpr (by decide)
  obtain ⟨-, unknown, -⟩ := process_decoding nominal 0x100E0
  obtain ⟨-, -, obeyed⟩ := process_decoding nominal (-0x9E01)
  exact ⟨nominal, congrArg Outcome.failure? (unknown refused), obeyed accepted⟩

end Console

end HexConsole
