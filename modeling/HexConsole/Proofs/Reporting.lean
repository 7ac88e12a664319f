import HexConsole.Machine.Report
import HexConsole.Proofs.Lines
import HexConsole.Proofs.Numerals
import HexConsole.Proofs.Reachable
import Mathlib.Data.List.Forall2
import Mathlib.Data.List.OfFn

/-!
# Reports taken apart

A report is twenty lines, and no two values in a line can be confused, however many columns they
take. Main statement: two machines have the same report exactly if they agree on every value that
it shows, and the values of a machine that a host can reach all fit their columns, so that only the
line of the depth has a length that depends on the machine.
-/
namespace HexConsole

open Hexadecimal

theorem not_mem_column {c : Char} (blank : c ≠ ' ') (sign : c ≠ '-')
    (figure : ∀ d < 16, c ≠ digit d)
    (width : Nat) (n : Int) : c ∉ (column width n).toList := by
  intro member
  obtain rfl | rfl | ⟨d, small, rfl⟩ := mem_column member
  · exact blank rfl
  · exact sign rfl
  · exact figure d small rfl

theorem break_not_mem_column (width : Nat) (n : Int) : '\n' ∉ (column width n).toList :=
  not_mem_column (by decide) (by decide) (by decide) width n

namespace Readings

/-- What the lines of a report begin with. -/
def headings : List String :=
  ["PC: ", "V0: ", "V1: ", "V2: ", "V3: ", "V4: ", "V5: ", "V6: ", "V7: ", "V8: ", "V9: ", "VA: ",
   "VB: ", "VC: ", "VD: ", "VE: ", "VF: ", "I: ", "SP: ", "DT: "]

def firstLine (r : Readings) : String :=
  "PC: " ++ column 4 r.operandAddress ++ "  OP: " ++ column 4 r.operand

def registerLines (r : Readings) : List String :=
  r.registers.toList.zipIdx.map fun (value, name) => registerLine name value

def timerLine (r : Readings) : String :=
  "DT: " ++ column 2 r.delay ++ "  ST: " ++ column 2 r.sound

theorem lines_eq (r : Readings) : r.lines = r.firstLine :: (r.registerLines ++
    ["I: " ++ column 4 r.index, "SP: " ++ column 1 r.depth, r.timerLine]) := rfl

/-- The line of a register is found under its number. -/
theorem registerLines_eq (r : Readings) :
    r.registerLines = List.ofFn fun k : Fin 16 => registerLine k.val (r.registers.get k) := by
  apply List.ext_getElem
  · simp [registerLines]
  · intro k _ _
    simp only [registerLines, List.getElem_map, List.getElem_zipIdx, List.getElem_ofFn]
    simp [Vector.get]

theorem length_registerLines (r : Readings) : r.registerLines.length = 16 := by
  simp [registerLines]

theorem length_lines (r : Readings) : r.lines.length = 20 := by
  simp [lines_eq, length_registerLines]

/-! ## Lines -/

theorem break_not_mem_lines (r : Readings) : ∀ l ∈ r.lines, '\n' ∉ l.toList := by
  intro l member
  simp only [lines_eq, List.mem_cons, List.mem_append, List.not_mem_nil, or_false] at member
  obtain rfl | register | rfl | rfl | rfl := member
  · simp [firstLine, break_not_mem_column]
  · obtain ⟨⟨value, name⟩, -, rfl⟩ := List.mem_map.mp register
    simp [registerLine, break_not_mem_column]
  · simp [break_not_mem_column]
  · simp [break_not_mem_column]
  · simp [timerLine, break_not_mem_column]

theorem splitOn_text (r : Readings) :
    r.text.toList.splitOn '\n' = r.lines.map String.toList ++ [[]] :=
  splitOn_terminated r.break_not_mem_lines

theorem heading_registerLine {name : Nat} (small : name < 16) (value : Int) :
    ("V" ++ String.singleton (digit name) ++ ": ").toList <+: (registerLine name value).toList := by
  rw [registerLine, column_one small]
  simp only [String.toList_append]
  exact List.prefix_append _ _

/-- Every line begins as it should. -/
theorem headings_lines (r : Readings) :
    List.Forall₂ (fun heading line => heading.toList <+: line.toList) headings r.lines := by
  have names : headings = "PC: " :: ((List.ofFn fun k : Fin 16 =>
      "V" ++ String.singleton (digit k.val) ++ ": ") ++ ["I: ", "SP: ", "DT: "]) := by
    decide
  have registers : List.Forall₂ (fun heading line => heading.toList <+: line.toList)
      (List.ofFn fun k : Fin 16 => "V" ++ String.singleton (digit k.val) ++ ": ")
      r.registerLines := by
    rw [registerLines_eq, List.forall₂_iff_get]
    refine ⟨by simp, ?_⟩
    intro k first _
    have small : k < 16 := by simpa using first
    simp only [List.get_ofFn]
    exact heading_registerLine small _
  have others : List.Forall₂ (fun heading line => heading.toList <+: line.toList)
      ["I: ", "SP: ", "DT: "]
      ["I: " ++ column 4 r.index, "SP: " ++ column 1 r.depth, r.timerLine] := by
    simp [timerLine]
  rw [names, lines_eq]
  refine .cons ?_ (List.rel_append registers others)
  simp [firstLine]

/-! ## Values -/

theorem registerLine_inj {name : Nat} {m n : Int} :
    registerLine name m = registerLine name n ↔ m = n := by
  rw [registerLine, registerLine, String.append_right_inj, column_inj]

theorem firstLine_inj {r s : Readings} :
    r.firstLine = s.firstLine ↔ r.operandAddress = s.operandAddress ∧ r.operand = s.operand := by
  have apart (r : Readings) : r.firstLine = "PC: " ++ column 4 r.operandAddress ++ "  " ++
      String.singleton 'O' ++ ("P: " ++ column 4 r.operand) := by
    have split : "  OP: " = "  " ++ String.singleton 'O' ++ "P: " := rfl
    rw [firstLine, split]
    simp only [String.append_assoc]
  have once (n : Int) : 'O' ∉ ("P: " ++ column 4 n).toList := by
    simp [not_mem_column (c := 'O') (by decide) (by decide) (by decide)]
  rw [apart, apart, append_separator_inj (once _) (once _), String.append_left_inj,
    String.append_right_inj, String.append_right_inj, column_inj, column_inj]

theorem timerLine_inj {r s : Readings} :
    r.timerLine = s.timerLine ↔ r.delay = s.delay ∧ r.sound = s.sound := by
  have apart (r : Readings) : r.timerLine = "DT: " ++ column 2 r.delay ++ "  " ++
      String.singleton 'S' ++ ("T: " ++ column 2 r.sound) := by
    have split : "  ST: " = "  " ++ String.singleton 'S' ++ "T: " := rfl
    rw [timerLine, split]
    simp only [String.append_assoc]
  have once (n : Int) : 'S' ∉ ("T: " ++ column 2 n).toList := by
    simp [not_mem_column (c := 'S') (by decide) (by decide) (by decide)]
  rw [apart, apart, append_separator_inj (once _) (once _), String.append_left_inj,
    String.append_right_inj, String.append_right_inj, column_inj, column_inj]

theorem registerLines_inj {r s : Readings} :
    r.registerLines = s.registerLines ↔ r.registers = s.registers := by
  constructor
  · intro same
    rw [registerLines_eq, registerLines_eq] at same
    have each := List.ofFn_injective same
    apply Vector.ext
    intro k inside
    exact registerLine_inj.mp (congrFun each ⟨k, inside⟩)
  · intro same
    rw [registerLines, registerLines, same]

theorem lines_inj {r s : Readings} : r.lines = s.lines ↔ r = s := by
  constructor
  · intro same
    rw [lines_eq, lines_eq, List.cons.injEq] at same
    obtain ⟨first, same⟩ := same
    obtain ⟨registers, last⟩ :=
      List.append_inj same (r.length_registerLines.trans s.length_registerLines.symm)
    simp only [List.cons.injEq, String.append_right_inj, column_inj, and_true] at last
    obtain ⟨index, depth, timers⟩ := last
    obtain ⟨operandAddress, operand⟩ := firstLine_inj.mp first
    obtain ⟨delay, sound⟩ := timerLine_inj.mp timers
    have registers := registerLines_inj.mp registers
    cases r
    cases s
    simp only [mk.injEq]
    exact ⟨operandAddress, operand, registers, index, depth, delay, sound⟩
  · rintro rfl
    rfl

theorem text_inj {r s : Readings} : r.text = s.text ↔ r = s := by
  rw [text, text, join_terminated_inj r.break_not_mem_lines s.break_not_mem_lines, lines_inj]

end Readings

namespace Machine

variable {m n : Machine}

/-- The values that a machine with all its registers shows in a report. -/
def shown (m : Machine) : Readings where
  operandAddress := m.operandAddress
  operand := m.operand
  registers := Vector.ofFn m.reg
  index := m.index
  depth := m.depth
  delay := m.delay
  sound := m.sound

theorem report_eq (all : 16 ≤ m.registers.size) : m.report = .ok m.shown.text := by
  have registers : (⟨m.registers.take 16, by simp [all]⟩ : Vector Int 16) = .ofFn m.reg := by
    apply Vector.ext
    intro k inside
    have here : k < m.registers.size := by omega
    simp [reg, here]
  simp only [report, readings, dif_pos all, registers]
  rfl

theorem shown_inj : m.shown = n.shown ↔
    m.operandAddress = n.operandAddress ∧ m.operand = n.operand ∧
      (∀ x : Register, m.reg x = n.reg x) ∧ m.index = n.index ∧ m.depth = n.depth ∧
      m.delay = n.delay ∧ m.sound = n.sound := by
  have registers : Vector.ofFn m.reg = Vector.ofFn n.reg ↔ ∀ x : Register, m.reg x = n.reg x := by
    constructor
    · intro same x
      have cell := congrArg (fun v : Vector Int 16 => v[x.val]) same
      simpa using cell
    · intro same
      rw [funext same]
  simp only [shown, Readings.mk.injEq, registers]

theorem report_inj (hm : 16 ≤ m.registers.size) (hn : 16 ≤ n.registers.size) :
    m.report = n.report ↔ m.shown = n.shown := by
  rw [report_eq hm, report_eq hn, Except.ok.injEq, Readings.text_inj]

/-! ## Widths -/

theorem length_octet {v : Int} (h : Octet v) : (column 2 v).length = 2 :=
  length_column (by decide) h.1 (by have := h.2; omega)

theorem length_word {v : Int} (low : 0 ≤ v) (high : v ≤ 65535) : (column 4 v).length = 4 :=
  length_column (by decide) low (by omega)

theorem length_registerLine {name : Nat} (small : name < 16) {value : Int} (h : Octet value) :
    (Readings.registerLine name value).length = 6 := by
  rw [Readings.registerLine, column_one small, String.length_append, String.length_append,
    String.length_append, length_octet h, String.length_singleton]
  rfl

namespace Consistent

theorem length_registerLines (h : m.Consistent) :
    m.shown.registerLines.map String.length = List.replicate 16 6 := by
  rw [Readings.registerLines_eq, List.eq_replicate_iff]
  refine ⟨by simp, ?_⟩
  intro width member
  obtain ⟨line, inside, rfl⟩ := List.mem_map.mp member
  obtain ⟨k, rfl⟩ := List.mem_ofFn.mp inside
  have value : m.shown.registers.get k = m.reg k := Vector.getElem_ofFn k.isLt
  rw [value]
  exact length_registerLine k.isLt (h.octet_reg k)

theorem length_firstLine (h : m.Consistent) : m.shown.firstLine.length = 18 := by
  have address : (column 4 m.shown.operandAddress).length = 4 :=
    length_word h.operandAddress.1 (by have := h.operandAddress.2; simp [shown]; omega)
  have operand : (column 4 m.shown.operand).length = 4 :=
    length_word h.operand.1 h.operand.2
  rw [Readings.firstLine, String.length_append, String.length_append, String.length_append, address,
    operand]
  rfl

theorem length_timerLine (h : m.Consistent) : m.shown.timerLine.length = 14 := by
  have delay : (column 2 m.shown.delay).length = 2 := length_octet h.delay
  have sound : (column 2 m.shown.sound).length = 2 := length_octet h.sound
  rw [Readings.timerLine, String.length_append, String.length_append, String.length_append, delay,
    sound]
  rfl

/-- A depth has one digit, and two if the stack is full. -/
theorem length_depth (h : m.Consistent) :
    (column 1 m.depth).length = if m.depth < 16 then 1 else 2 := by
  obtain ⟨low, high⟩ := h.depth
  split_ifs with room
  · exact length_column (by decide) low (by omega)
  · obtain full : m.depth = 16 := by omega
    rw [full, column, String.length_ofList]
    simp [blankPadded, sign, digits]

/-- The widths of the lines of a machine that is in its ranges. -/
theorem length_lines (h : m.Consistent) : m.shown.lines.map String.length =
    18 :: (List.replicate 16 6 ++ [7, if m.depth < 16 then 5 else 6, 14]) := by
  have index : (column 4 m.shown.index).length = 4 := length_word h.index.1 h.index.2
  have depth : (column 1 m.shown.depth).length = if m.depth < 16 then 1 else 2 := h.length_depth
  rw [Readings.lines_eq, List.map_cons, List.map_append, h.length_firstLine,
    h.length_registerLines]
  simp only [List.map_cons, List.map_nil, String.length_append, index, depth, h.length_timerLine]
  have labels : "I: ".length = 3 ∧ "SP: ".length = 4 := ⟨rfl, rfl⟩
  rw [labels.1, labels.2]
  split_ifs <;> rfl

end Consistent

/-- A report of a machine with all its registers has twenty lines, each with a heading of its own
and ended by a line break. Whatever the values are, negative ones and ones that are too wide for
their column included, two machines have the same report exactly if they agree on everything that
it shows. On the machines that a host can reach every value fits its column, but for a full stack,
whose depth has two digits; all other lines have the same length on all of these machines. -/
theorem report_lossless (hm : 16 ≤ m.registers.size) (hn : 16 ≤ n.registers.size) :
    m.report = .ok m.shown.text ∧
    m.shown.text.toList.splitOn '\n' = m.shown.lines.map String.toList ++ [[]] ∧
    m.shown.lines.length = 20 ∧
    List.Forall₂ (fun heading line => heading.toList <+: line.toList) Readings.headings
      m.shown.lines ∧
    (m.report = n.report ↔
      m.operandAddress = n.operandAddress ∧ m.operand = n.operand ∧
        (∀ x : Register, m.reg x = n.reg x) ∧ m.index = n.index ∧ m.depth = n.depth ∧
        m.delay = n.delay ∧ m.sound = n.sound) ∧
    ∀ (σ : Type) [RandomSource σ] (c : Console σ), c.Reachable →
      c.machine.report = .ok c.machine.shown.text ∧
      c.machine.shown.lines.map String.length =
        18 :: (List.replicate 16 6 ++ [7, if c.machine.depth < 16 then 5 else 6, 14]) := by
  refine ⟨report_eq hm, m.shown.splitOn_text, m.shown.length_lines, m.shown.headings_lines, ?_, ?_⟩
  · rw [report_inj hm hn, shown_inj]
  · intro σ _ c reached
    have all : 16 ≤ c.machine.registers.size := reached.consistent.registers.ge
    exact ⟨report_eq all, reached.consistent.length_lines⟩

/-- An operand of minus one is not taken for one of sixteen bits, and a console that has been reset
has its lines at their widths. -/
theorem report_lossless_negative :
    let m := { poweredOff with operand := -1 }
    let n := { poweredOff with operand := 0xFFFF }
    let c := (Console.assemble ⟨true, true⟩ (Tape.repeating #[]) .debug).performAll [.reset]
    (16 ≤ m.registers.size ∧ 16 ≤ n.registers.size ∧ c.Reachable) ∧ m.report ≠ n.report ∧
      c.machine.shown.lines.map String.length = 18 :: (List.replicate 16 6 ++ [7, 5, 14]) := by
  intro m n c
  have hm : 16 ≤ m.registers.size := by simp [m, poweredOff]
  have hn : 16 ≤ n.registers.size := by simp [n, poweredOff]
  have reached : c.Reachable := (Console.Reachable.assembled _ _ _).performAll (by decide)
  obtain ⟨-, -, -, -, same, widths⟩ := report_lossless hm hn
  refine ⟨⟨hm, hn, reached⟩, ?_, (widths _ c reached).2⟩
  intro equal
  have operands := (same.mp equal).2.1
  exact absurd operands (by decide)

end Machine

end HexConsole
