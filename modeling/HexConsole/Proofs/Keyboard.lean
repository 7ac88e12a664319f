import HexConsole.Proofs.Latch
import HexConsole.Proofs.Loading
import HexConsole.Proofs.Trace

/-!
# Keys count where they are read

A host may hand over the keyboard before every cycle. Main statement: two runs that are given
different keys execute the same words and end with the same faults, and their machines differ in
the keys only, as long as the two keyboards agree where an instruction of the first run reads one:
on the key that a register names, or on the lowest key that is down.
-/
namespace HexConsole

theorem Keypad.size_toArray {states : List Bool} (count : states.length = 16) :
    states.toArray.size = 16 := by
  simpa using count

/-- The keypad after states for its keys have been handed over. They are refused unless there are
sixteen of them. -/
def Keypad.handed (keys : Keypad) (states : List Bool) : Keypad :=
  if h : states.length = 16 then ⟨states.toArray, Keypad.size_toArray h⟩ else keys

/-- What a host does that hands over the keyboard before each cycle. -/
def Operation.keyed (schedule : List (List Bool)) : List Operation :=
  schedule.flatMap fun states => [.setKeys states, .cycle]

namespace Machine

variable {m n : Machine}

/-- Whether an instruction would find the same on another keypad where it reads one. -/
def HearsSame (m : Machine) (other : Keypad) : Instruction → Prop
  | .skipIfPressed x => ∀ k : Fin 16, m.reg x = k.val → other.get k = m.keys.get k
  | .skipUnlessPressed x => ∀ k : Fin 16, m.reg x = k.val → other.get k = m.keys.get k
  | .awaitKey _ => other.first? = m.keys.first?
  | _ => True

theorem keyDown_eq_get {k : Fin 16} {number : Int} (named : number = k.val) :
    m.keyDown number = m.keys.get k := by
  subst named
  simp [keyDown]
  rfl

/-- The second of two machines that are alike up to their keys. -/
theorem Alike.eq_withKeys (h : Alike [.keypad] m n) : n = { m with keys := n.keys } := by
  obtain ⟨delay, sound, tone⟩ := h.clock (by simp)
  have redraw := h.redraw (by simp)
  rw [h.rest, delay, sound, tone, redraw]

theorem Alike.findsSame_of_hearsSame (h : Alike [.keypad] m n) (nominal : m.Nominal)
    {i : Instruction} (hears : m.HearsSame n.keys i) : FindsSame m n i := by
  have named (x : Register) (same : ∀ k : Fin 16, m.reg x = k.val → n.keys.get k = m.keys.get k) :
      m.reg x < 16 → n.keyDown (m.reg x) = m.keyDown (m.reg x) := by
    intro high
    have low := (nominal.octet_reg x).1
    obtain ⟨k, number⟩ : ∃ k : Fin 16, m.reg x = k.val :=
      ⟨⟨(m.reg x).toNat, by omega⟩, by simp; omega⟩
    rw [keyDown_eq_get number, keyDown_eq_get number]
    exact same k number
  cases i with
  | skipIfPressed x | skipUnlessPressed x => exact named x hears
  | awaitKey x => exact hears
  | readDelay x => exact (h.clock (by simp)).1
  | _ => trivial

theorem Nominal.withKeys (h : m.Nominal) (keys : Keypad) : { m with keys }.Nominal :=
  { h with }

end Machine

namespace Console

open Machine

variable {σ τ : Type}

theorem perform_setKeys_eq [RandomSource σ] (c : Console σ) (states : List Bool) :
    (c.perform (.setKeys states)).console =
      { c with machine := { c.machine with keys := c.machine.keys.handed states } } := by
  simp only [perform, update, setKeys, Keypad.handed]
  split_ifs <;> rfl

variable [RandomSource σ] [RandomSource τ] {c : Console σ} {d : Console τ}

/-! ## One cycle with its keys -/

/-- A console that has been handed states for its keys. -/
def handed (c : Console σ) (states : List Bool) : Console σ :=
  (c.perform (.setKeys states)).console

theorem Alike.handed (h : Alike [.keypad] c d) (states other : List Bool) :
    Alike [.keypad] (c.handed states) (d.handed other) := by
  simp only [Console.handed, perform_setKeys_eq]
  exact h.update (h.machine.withKeys (by simp))

theorem nominal_handed (h : c.machine.Nominal) (states : List Bool) :
    (c.handed states).machine.Nominal := by
  simp only [handed, perform_setKeys_eq]
  exact h.withKeys _

theorem performAll_keyed_cons (c : Console σ) (states : List Bool) (rest : List (List Bool)) :
    c.performAll (Operation.keyed (states :: rest)) =
      (c.handed states).cycle.console.performAll (Operation.keyed rest) := rfl

theorem trace_keyed_cons (c : Console σ) (states : List Bool) (rest : List (List Bool)) :
    c.trace (Operation.keyed (states :: rest)) =
      (c.handed states).sight :: (c.handed states).cycle.console.trace (Operation.keyed rest) := by
  have operations : Operation.keyed (states :: rest) =
      .setKeys states :: .cycle :: Operation.keyed rest := rfl
  rw [operations, trace_of_ne c (by simp), trace_cycle]
  rfl

theorem Alike.nominal (h : Alike [.keypad] c d) (hc : c.machine.Nominal) : d.machine.Nominal := by
  rw [h.machine.eq_withKeys]
  exact hc.withKeys _

/-- Which instruction comes next does not depend on the keys. -/
theorem executing_handed (nominal : c.machine.Nominal) (states : List Bool) :
    (c.handed states).executing = c.executing := by
  have alike : Alike [.keypad] c (c.handed states) := by
    simp only [handed, perform_setKeys_eq]
    exact ⟨(Machine.Alike.refl _ _).withKeys (by simp), fun _ => rfl, fun _ => rfl⟩
  rw [executing_eq_bind, executing_eq_bind, alike.fetching_eq nominal (nominal_handed nominal _)]

/-- Whether two consoles that are handed different keys before each cycle find the same keys down
wherever a cycle of the first one reads one. Each entry holds the keys of both for one cycle. -/
def HearSame (c : Console σ) (d : Console τ) (schedules : List (List Bool × List Bool)) : Prop :=
  ∀ before now after, schedules = before ++ now :: after →
    let first := (c.performAll (Operation.keyed (before.map (·.1)))).handed now.1
    let second := (d.performAll (Operation.keyed (before.map (·.2)))).handed now.2
    ∀ i, first.executing = some i → first.machine.HearsSame second.machine.keys i

theorem HearSame.head {now : List Bool × List Bool} {later : List (List Bool × List Bool)}
    (same : HearSame c d (now :: later)) {i : Instruction}
    (executing : (c.handed now.1).executing = some i) :
    (c.handed now.1).machine.HearsSame (d.handed now.2).machine.keys i :=
  same [] now later rfl i executing

theorem HearSame.tail {now : List Bool × List Bool} {later : List (List Bool × List Bool)}
    (same : HearSame c d (now :: later)) :
    HearSame (c.handed now.1).cycle.console (d.handed now.2).cycle.console later := by
  rintro before next after rfl
  exact same (now :: before) next after rfl

/-- A cycle shows the same with the keys of either console, and leaves them alike. -/
theorem cycle_handed (h : Alike [.keypad] c d) (nominal : c.machine.Nominal)
    {states other : List Bool}
    (same : ∀ i, (c.handed states).executing = some i →
      (c.handed states).machine.HearsSame (d.handed other).machine.keys i) :
    (d.handed other).sight = (c.handed states).sight ∧
      Alike [.keypad] (c.handed states).cycle.console (d.handed other).cycle.console := by
  have alike := h.handed states other
  have left := nominal_handed nominal states
  have right := alike.nominal left
  have finds i (executing : (c.handed states).executing = some i) :=
    alike.machine.findsSame_of_hearsSame left (same i executing)
  exact ⟨sight_alike alike left right finds, (cycle_alike alike left right finds).2⟩

/-! ## Runs -/

theorem trace_keyed (h : Alike [.keypad] c d) (nominal : c.machine.Nominal)
    {schedules : List (List Bool × List Bool)} (same : HearSame c d schedules) :
    d.trace (Operation.keyed (schedules.map (·.2))) =
      c.trace (Operation.keyed (schedules.map (·.1))) := by
  induction schedules generalizing c d with
  | nil => rfl
  | cons now later ih =>
    obtain ⟨sight, alike⟩ := cycle_handed h nominal fun _ executing => same.head executing
    have after := nominal_cycle (nominal_handed nominal now.1)
    rw [List.map_cons, List.map_cons, trace_keyed_cons, trace_keyed_cons, sight,
      ih alike after same.tail]

theorem alike_keyed (h : Alike [.keypad] c d) (nominal : c.machine.Nominal)
    {schedules : List (List Bool × List Bool)} (same : HearSame c d schedules) :
    Alike [.keypad] (c.performAll (Operation.keyed (schedules.map (·.1))))
      (d.performAll (Operation.keyed (schedules.map (·.2)))) := by
  induction schedules generalizing c d with
  | nil => exact h
  | cons now later ih =>
    obtain ⟨-, alike⟩ := cycle_handed h nominal fun _ executing => same.head executing
    have after := nominal_cycle (nominal_handed nominal now.1)
    rw [List.map_cons, List.map_cons, performAll_keyed_cons, performAll_keyed_cons]
    exact ih alike after same.tail

theorem HearSame.of_append {before after : List (List Bool × List Bool)}
    (same : HearSame c d (before ++ after)) : HearSame c d before := by
  rintro first now rest rfl
  exact same first now (rest ++ after) (by simp)

/-- Keys count only where an instruction reads one. Two runs from machines that differ in their keys
at most, and are handed keys of their own before every cycle, execute the same words at the same
addresses and end the same cycles with the same faults, as long as the keys that are read are the
same; whenever one compares the machines, they differ in their keys at most. The keys themselves
are moved by no cycle. -/
theorem keys_noticed_where_read (h : Alike [.keypad] c d) (nominal : c.machine.Nominal)
    {schedules : List (List Bool × List Bool)} (same : HearSame c d schedules) :
    d.trace (Operation.keyed (schedules.map (·.2))) =
        c.trace (Operation.keyed (schedules.map (·.1))) ∧
      (∀ before after, schedules = before ++ after →
        let m := (c.performAll (Operation.keyed (before.map (·.1)))).machine
        let n := (d.performAll (Operation.keyed (before.map (·.2)))).machine
        n = { m with keys := n.keys }) ∧
      ∀ e : Console σ, e.cycle.console.machine.keys = e.machine.keys := by
  refine ⟨trace_keyed h nominal same, ?_, keys_cycle⟩
  rintro before after rfl m n
  exact (alike_keyed h nominal same.of_append).machine.eq_withKeys

/-- A program that asks for key 0 runs the same while key 1 is down and while key 2 is, since key 0
is up either time. -/
theorem keys_noticed_other_keys :
    let c := ((assemble ⟨true, true⟩ (Tape.repeating #[7]) .debug).reset.load [0xE0, 0x9E]).console
    let only (k : Nat) := (List.range 16).map (· == k)
    let schedules := [(only 1, only 2)]
    (Alike [.keypad] c c ∧ c.machine.Nominal ∧ HearSame c c schedules) ∧
      (c.handed (only 1)).executing = some (.skipIfPressed 0) ∧
      c.trace (Operation.keyed [only 2]) = c.trace (Operation.keyed [only 1]) := by
  intro c only schedules
  have alike : Alike [.keypad] c c := ⟨.refl _ _, fun _ => rfl, fun _ => rfl⟩
  have nominal : c.machine.Nominal := (consistent_reset_load _ _).toNominal
  have machine : c.machine = initial.loaded [0xE0, 0x9E] := machine_reset_load _ (by decide)
  have executing : (c.handed (only 1)).executing = some (.skipIfPressed 0) := by
    rw [executing_handed nominal]
    exact executing_reset_load _ (by decide) (by decide) (by decide)
  have same : HearSame c c schedules := by
    intro before now after split first second i found
    obtain ⟨rfl, single⟩ | ⟨before, rfl, none⟩ := List.cons_eq_append_iff.mp split
    · cases single
      have known : some i = some (.skipIfPressed 0) := found.symm.trans executing
      cases known
      intro k number
      have zero : (c.handed (only 1)).machine.reg 0 = 0 := by
        simp only [handed, perform_setKeys_eq, machine]
        decide
      obtain rfl : k = 0 := Fin.ext (by simpa using number.symm.trans zero)
      simp only [first, second, performAll]
      decide
    · simp at none
  exact ⟨⟨alike, nominal, same⟩, executing, (keys_noticed_where_read alike nominal same).1⟩

end Console

end HexConsole
