import HexConsole.Proofs.Loading

/-!
# Open calls

A host can keep account of the calls that a program has opened by looking at the cycles that
are carried out: a call adds the address after it, and a return drops the latest one. Main
statement: after a reset the machine's own stack is always this account, so that a return
ends the latest open call, wherever the program has been in between.

Only the cycles of a machine that runs count. One that has halted repeats its fault, which
may be that of a call or of a return, and carries nothing out.
-/
namespace HexConsole

/-- The account of open calls after an instruction that was carried out, given the address
after it. -/
def Instruction.account (after : Int) (calls : List Int) : Instruction → List Int
  | call _ => calls ++ [after]
  | leave => calls.dropLast
  | _ => calls

namespace Machine

/-- The machine's stack holds the return addresses of some calls, the oldest first. What lies
above them is stale. -/
structure Holds (m : Machine) (calls : List Int) : Prop where
  depth : m.depth = calls.length
  stack : m.stack.toList.take calls.length = calls

variable {m n : Machine} {calls : List Int}

theorem holds_initial : initial.Holds [] := ⟨rfl, rfl⟩

namespace Holds

theorem congr (holds : m.Holds calls) (depth : n.depth = m.depth) (stack : n.stack = m.stack) :
    n.Holds calls where
  depth := depth.trans holds.depth
  stack := by rw [stack]; exact holds.stack

theorem nil_iff (holds : m.Holds calls) : m.depth = 0 ↔ calls = [] := by
  rw [holds.depth, ← List.length_eq_zero_iff]
  omega

/-- What the machine reads as the latest return address. -/
theorem getLast?_eq (holds : m.Holds calls) (opened : calls ≠ []) :
    calls.getLast? = some (m.returnAt (m.depth - 1)) := by
  have positive := List.length_pos_iff.mpr opened
  have level : (m.depth - 1).toNat = calls.length - 1 := by rw [holds.depth]; omega
  have inside : calls.length - 1 < calls.length := by omega
  have held : m.stack.toList[calls.length - 1]? = calls[calls.length - 1]? := by
    have shown := congrArg (·[calls.length - 1]?) holds.stack
    rwa [List.getElem?_take_of_lt inside] at shown
  rw [List.getLast?_eq_getElem?, returnAt, level, ← Vector.getElem?_toList, held,
    List.getElem?_eq_getElem inside, Option.getD_some]

theorem opened (holds : m.Holds calls) (room : calls.length < 16) (address : Int)
    (depth : n.depth = m.depth + 1)
    (stack : n.stack = m.stack.setIfInBounds m.depth.toNat address) :
    n.Holds (calls ++ [address]) where
  depth := by rw [depth, holds.depth]; simp
  stack := by
    have level : m.depth.toNat = calls.length := by rw [holds.depth]; omega
    rw [stack, level, Vector.toList_setIfInBounds, List.length_append, List.length_singleton,
      List.take_add_one, List.take_set_of_le (Nat.le_refl _), holds.stack]
    simp [room]

theorem closed (holds : m.Holds calls) (depth : n.depth = m.depth - 1)
    (opened : calls ≠ []) (stack : n.stack = m.stack) : n.Holds calls.dropLast where
  depth := by
    have positive := List.length_pos_iff.mpr opened
    rw [depth, holds.depth, List.length_dropLast]
    omega
  stack := by
    have shorter : min (calls.length - 1) calls.length = calls.length - 1 := by omega
    have shown := congrArg (List.take (calls.length - 1)) holds.stack
    rw [List.take_take, shorter] at shown
    rw [stack, List.length_dropLast, List.dropLast_eq_take, shown]

/-- An instruction does to the stack what it does to the account. -/
theorem effect (holds : m.Holds calls) (nominal : m.Nominal) {byte : Int} {i : Instruction}
    (done : m.effect byte i = .ok n) : n.Holds (i.account m.counter calls) := by
  have footprint := effect_footprint done
  cases i with
  | call target =>
    simp only [Machine.effect] at done
    split_ifs at done with full
    cases done
    have room : calls.length < 16 := by
      have deep := nominal.depth.2
      rw [holds.depth] at deep full
      unfold stackDepth at full
      omega
    exact holds.opened room m.counter rfl rfl
  | leave =>
    simp only [Machine.effect] at done
    split_ifs at done with empty
    cases done
    exact holds.closed rfl (fun none => empty (holds.nil_iff.mpr none)) rfl
  | _ =>
    obtain ⟨depth, stack⟩ := footprint.calls rfl
    exact holds.congr depth stack

end Holds

end Machine

namespace Console

open Machine

variable {σ : Type} [RandomSource σ]

/-- The open calls after an operation. -/
def callsAfter (c : Console σ) (calls : List Int) : Operation → List Int
  | .cycle =>
    match c.executed with
    | some i => i.account (c.machine.counter + 2) calls
    | none => calls
  | _ => calls

/-- The open calls after some operations. -/
def openCalls (c : Console σ) (calls : List Int) : List Operation → List Int
  | [] => calls
  | operation :: rest =>
    (c.perform operation).console.openCalls (c.callsAfter calls operation) rest

variable {c : Console σ} {calls : List Int}

/-! ## Single operations -/

theorem holds_perform (h : c.machine.Nominal) (holds : c.machine.Holds calls)
    {operation : Operation} (continues : operation.continues = true) :
    (c.perform operation).console.machine.Holds (c.callsAfter calls operation) := by
  by_cases between : operation = .cycle
  · subst between
    obtain ⟨nothing, f, -, ends⟩ | ⟨i, n, executed, -, done, ends⟩ := cycle_executed h
    · simp only [callsAfter, nothing, perform]
      rw [ends]
      exact holds.congr rfl rfl
    · obtain ⟨-, inside, -⟩ := (executing_eq_some_iff h).mp (executing_of_executed executed)
      have fetched : c.machine.fetched.Holds calls := holds.congr rfl rfl
      simp only [callsAfter, executed, perform]
      rw [ends]
      exact (fetched.effect (h.fetched inside) done).congr rfl rfl
  · have same : c.callsAfter calls operation = calls := by
      cases operation with
      | cycle => exact absurd rfl between
      | _ => rfl
    rw [same, (attends_perform c continues between).frozen]
    exact holds.congr rfl rfl

theorem holds_cycle (h : c.machine.Nominal) (holds : c.machine.Holds calls) {i : Instruction}
    (executed : c.executed = some i) :
    c.cycle.console.machine.Holds (i.account (c.machine.counter + 2) calls) := by
  have accounted : (c.perform .cycle).console.machine.Holds (c.callsAfter calls .cycle) :=
    holds_perform h holds rfl
  simp only [callsAfter, executed] at accounted
  exact accounted

/-- A return that is carried out ends the latest open call. -/
theorem cycle_leave (h : c.machine.Nominal) (holds : c.machine.Holds calls)
    (executing : c.executing = some .leave) (opened : calls ≠ []) :
    c.cycle.failure? = none ∧ calls.getLast? = some c.cycle.console.machine.counter := by
  have deep : c.machine.depth ≠ 0 := fun empty => opened (holds.nil_iff.mp empty)
  have done : c.result .leave = .ok { c.machine.fetched with
      depth := c.machine.depth - 1
      counter := c.machine.returnAt (c.machine.depth - 1) } := if_neg deep
  rw [cycle_of_ok h executing done, machine_settle]
  exact ⟨rfl, holds.getLast?_eq opened⟩

/-- A call that finds room is carried out. -/
theorem cycle_call (h : c.machine.Nominal) {target : Fin 4096}
    (executing : c.executing = some (.call target)) (room : c.machine.depth ≠ stackDepth) :
    c.executed = some (.call target) ∧ c.cycle.failure? = none ∧
      c.cycle.console.machine = { c.machine.fetched with
        stack := c.machine.stack.setIfInBounds c.machine.depth.toNat (c.machine.counter + 2)
        depth := c.machine.depth + 1
        counter := target.val
        delay := c.cycle.console.machine.delay
        sound := c.cycle.console.machine.sound
        tone := c.cycle.console.machine.tone } := by
  have done : c.result (.call target) = .ok { c.machine.fetched with
      stack := c.machine.stack.setIfInBounds c.machine.depth.toNat (c.machine.counter + 2)
      depth := c.machine.depth + 1
      counter := target.val } := if_neg room
  obtain ⟨executed, machine⟩ := executed_of_ok h executing done
  exact ⟨executed, success_of_executed executed, machine⟩

/-- Whether the next cycle ends with a fault of some kind, for the first time or again. -/
def Raises (c : Console σ) (kind : FaultKind) : Prop :=
  ∃ f, c.cycle.failure? = some (.fault f) ∧ f.kind = kind

theorem raises_halted {f : Fault} (halted : c.machine.fault = some f) (kind : FaultKind) :
    c.Raises kind ↔ f.kind = kind := by
  simp [Raises, cycle_halted halted]

theorem result_call (c : Console σ) (target : Fin 4096) (full : c.machine.depth = stackDepth) :
    c.result (.call target) = .error (.stackOverflow c.nextWord c.machine.counter) := if_pos full

theorem result_leave (c : Console σ) (empty : c.machine.depth = 0) :
    c.result .leave = .error (.stackUnderflow c.nextWord c.machine.counter) := if_pos empty

/-- Where the faults of calls and returns come from, on a machine that runs. -/
theorem executing_of_raises (h : c.machine.Nominal) (running : c.machine.fault = none)
    {kind : FaultKind} (raises : c.Raises kind) :
    (kind = .stackUnderflow → c.executing = some .leave ∧ c.machine.depth = 0) ∧
    (kind = .stackOverflow →
      ∃ target, c.executing = some (.call target) ∧ c.machine.depth = stackDepth) := by
  obtain ⟨f, failed, rfl⟩ := raises
  cases executing : c.executing with
  | none =>
    obtain ⟨g, halted, -⟩ | ⟨g, kinds, other, -⟩ := cycle_idle h executing
    · rw [running] at halted
      cases halted
    · rw [failed] at other
      cases other
      constructor <;> intro same <;> simp [same] at kinds
  | some i =>
    obtain ⟨g, raised, ends⟩ | ⟨n, -, ends⟩ := cycle_executing h executing
    · rw [ends] at failed
      cases failed
      obtain ⟨rfl, empty, rfl⟩ | ⟨target, rfl, full, rfl⟩ | kind := effect_error_cases raised
      · exact ⟨fun _ => ⟨rfl, empty⟩, nofun⟩
      · exact ⟨nofun, fun _ => ⟨target, rfl, full⟩⟩
      · constructor <;> intro other <;> rw [kind] at other <;> cases other
    · rw [ends] at failed
      cases failed

theorem raises_of_result {i : Instruction} (h : c.machine.Nominal)
    (executing : c.executing = some i) {f : Fault} (refused : c.result i = .error f) :
    c.Raises f.kind :=
  ⟨f, by rw [cycle_of_error h executing refused], rfl⟩

/-- Sixteen calls fill the stack, and the next one is a fault. -/
theorem raises_stackOverflow_iff (h : c.machine.Nominal) (holds : c.machine.Holds calls)
    (running : c.machine.fault = none) : c.Raises .stackOverflow ↔
      (∃ target, c.executing = some (.call target)) ∧ calls.length = 16 := by
  have depth : c.machine.depth = stackDepth ↔ calls.length = 16 := by
    rw [holds.depth]
    unfold stackDepth
    omega
  constructor
  · intro raises
    obtain ⟨target, executing, full⟩ := (executing_of_raises h running raises).2 rfl
    exact ⟨⟨target, executing⟩, depth.mp full⟩
  · rintro ⟨⟨target, executing⟩, full⟩
    exact raises_of_result h executing (result_call c target (depth.mpr full))

theorem raises_stackUnderflow_iff (h : c.machine.Nominal) (holds : c.machine.Holds calls)
    (running : c.machine.fault = none) : c.Raises .stackUnderflow ↔
      c.executing = some .leave ∧ calls = [] := by
  constructor
  · intro raises
    obtain ⟨executing, empty⟩ := (executing_of_raises h running raises).1 rfl
    exact ⟨executing, holds.nil_iff.mp empty⟩
  · rintro ⟨executing, empty⟩
    exact raises_of_result h executing (result_leave c (holds.nil_iff.mpr empty))

/-! ## Runs -/

theorem holds_performAll (h : c.machine.Consistent) (holds : c.machine.Holds calls)
    {operations : List Operation} (continues : ∀ o ∈ operations, o.continues = true) :
    (c.performAll operations).machine.Holds (c.openCalls calls operations) := by
  induction operations generalizing c calls with
  | nil => exact holds
  | cons operation rest ih =>
    obtain ⟨first, others⟩ := List.forall_mem_cons.mp continues
    exact ih (consistent_perform_continues h first) (holds_perform h.toNominal holds first) others

/-- An operation drops at most the latest call. -/
theorem prefix_callsAfter {kept : List Int} (c : Console σ) (operation : Operation)
    (before : kept <+: calls) (deep : kept.length ≤ (c.callsAfter calls operation).length) :
    kept <+: c.callsAfter calls operation := by
  have dropping (shown : kept.length ≤ calls.dropLast.length) : kept <+: calls.dropLast :=
    List.prefix_of_prefix_length_le before (List.dropLast_prefix calls) shown
  cases operation with
  | cycle =>
    simp only [callsAfter] at deep ⊢
    cases executed : c.executed with
    | none => exact before
    | some i =>
      rw [executed] at deep
      cases i with
      | call target => exact before.trans (List.prefix_append _ _)
      | leave => exact dropping deep
      | _ => exact before
  | _ => exact before

/-- Calls stay open as long as the machine does not come back below them. -/
theorem prefix_openCalls {kept : List Int} (h : c.machine.Consistent)
    (holds : c.machine.Holds calls) {operations : List Operation}
    (continues : ∀ o ∈ operations, o.continues = true) (before : kept <+: calls)
    (deep : ∀ done, done <+: operations → kept.length ≤ (c.performAll done).machine.depth) :
    kept <+: c.openCalls calls operations := by
  induction operations generalizing c calls with
  | nil => exact before
  | cons operation rest ih =>
    obtain ⟨first, others⟩ := List.forall_mem_cons.mp continues
    have accounted := holds_perform h.toNominal holds first
    have still : kept.length ≤ (c.callsAfter calls operation).length := by
      have now := deep [operation] (by simp)
      have same := accounted.depth
      change (kept.length : Int) ≤ (c.perform operation).console.machine.depth at now
      omega
    refine ih (consistent_perform_continues h first) accounted others
      (prefix_callsAfter c operation before still) ?_
    intro done within
    exact deep (operation :: done) (List.cons_prefix_cons.mpr ⟨rfl, within⟩)

/-! ## Ended calls -/

/-- Whether a call that the next cycle carries out comes to its end as it should: if the machine
stays deeper than now until a return brings it back, it goes on after the call and finds the
older part of its stack as it was. -/
def Returns (c : Console σ) : Prop :=
  ∀ (target : Fin 4096) (between : List Operation), (∀ o ∈ between, o.continues = true) →
    c.executed = some (.call target) →
    (∀ done, done <+: between →
      c.machine.depth + 1 ≤ (c.cycle.console.performAll done).machine.depth) →
    (c.cycle.console.performAll between).executed = some .leave →
    let after := (c.cycle.console.performAll between).cycle.console.machine
    after.depth = c.machine.depth →
      after.counter = c.machine.counter + 2 ∧
      after.stack.toList.take c.machine.depth.toNat =
        c.machine.stack.toList.take c.machine.depth.toNat

theorem returns (h : c.machine.Consistent) (holds : c.machine.Holds calls) : c.Returns := by
  intro target between continues called deep returned after back
  let inner := calls ++ [c.machine.counter + 2]
  have entered : c.cycle.console.machine.Holds inner :=
    holds_cycle h.toNominal holds called
  have consistent := consistent_cycle h
  let last := c.cycle.console.openCalls inner between
  have still : inner <+: last := by
    apply prefix_openCalls consistent entered continues (List.prefix_refl inner)
    intro done within
    have level := deep done within
    rw [holds.depth] at level
    simpa [inner] using level
  have arrived := holds_performAll consistent entered continues
  have nominal := (consistent_performAll_continues consistent continues).toNominal
  have left : after.Holds last.dropLast := holds_cycle nominal arrived returned
  -- The calls open inside begin what is open at the return, and the depth says there are no more.
  have whole : inner = last := by
    apply still.eq_of_length
    have longer := still.length_le
    have level := left.depth
    rw [back, holds.depth, List.length_dropLast] at level
    simp only [inner, List.length_append, List.length_singleton] at longer ⊢
    omega
  have opened : last ≠ [] := by rw [← whole]; simp [inner]
  have ends : last.getLast? = some after.counter :=
    (cycle_leave nominal arrived (executing_of_executed returned) opened).2
  rw [← whole] at ends left
  have level : c.machine.depth.toNat = calls.length := by rw [holds.depth]; omega
  refine ⟨by simpa [inner, eq_comm] using ends, ?_⟩
  rw [level, holds.stack]
  simpa [inner] using left.stack

theorem performAll_load_cycle (c : Console σ) (rom : List Byte) :
    c.performAll [.load rom, .cycle] = (c.load rom).console.cycle.console := rfl

theorem openCalls_load_cycle {rom : List Byte} {i : Instruction}
    (executed : (c.load rom).console.executed = some i) :
    c.openCalls calls [.load rom, .cycle] =
      i.account ((c.load rom).console.machine.counter + 2) calls := by
  simp only [openCalls, callsAfter, perform, executed]

/-- Whatever a host does between cycles, and whatever the program does in them, after a reset
the stack is the account of open calls: a return that finds an open call ends the latest one,
a running machine complains of a call or a return exactly if sixteen calls or none are open,
and every call that is ended is ended at the address after it. A machine that has halted
carries nothing out and repeats its fault. -/
theorem open_calls_account (c : Console σ) (operations : List Operation)
    (continues : ∀ o ∈ operations, o.continues = true) :
    let d := c.reset.performAll operations
    let calls := c.reset.openCalls [] operations
    d.machine.Holds calls ∧
    (d.executing = some .leave → calls ≠ [] →
      d.cycle.failure? = none ∧ calls.getLast? = some d.cycle.console.machine.counter) ∧
    (d.machine.fault = none →
      (d.Raises .stackOverflow ↔
        (∃ target, d.executing = some (.call target)) ∧ calls.length = 16) ∧
      (d.Raises .stackUnderflow ↔ d.executing = some .leave ∧ calls = [])) ∧
    (∀ f, d.machine.fault = some f → d.executing = none ∧ d.cycle = ⟨d, some (.fault f)⟩) ∧
    d.Returns := by
  intro d calls
  have fresh : c.reset.machine.Consistent := consistent_reset c
  have empty : c.reset.machine.Holds [] := by
    rw [machine_reset]
    exact holds_initial
  have holds : d.machine.Holds calls := holds_performAll fresh empty continues
  have consistent := consistent_performAll_continues fresh continues
  have nominal := consistent.toNominal
  exact ⟨holds, cycle_leave nominal holds,
    fun running => ⟨raises_stackOverflow_iff nominal holds running,
      raises_stackUnderflow_iff nominal holds running⟩,
    fun f halted => ⟨executing_halted halted, cycle_halted halted⟩,
    returns consistent holds⟩

/-- A return from a call to the third word of a program comes back to its second word. -/
theorem open_calls_account_one_call :
    let rom : List Byte := [0x22, 0x04, 0x00, 0x00, 0x00, 0xEE]
    let c := assemble ⟨true, true⟩ (Tape.repeating #[]) .debug
    let d := c.reset.performAll [.load rom, .cycle]
    (∀ o ∈ [Operation.load rom, .cycle], o.continues = true) ∧
    d.machine.Holds [0x202] ∧ d.executing = some .leave ∧
    d.cycle.failure? = none ∧ d.cycle.console.machine.counter = 0x202 := by
  intro rom c
  have continues : ∀ o ∈ [Operation.load rom, .cycle], o.continues = true := by decide
  have fits : rom.length ≤ programSpace := by decide
  have machine := machine_reset_load c fits
  have consistent := consistent_reset_load c rom
  have calling : (c.reset.load rom).console.executing = some (.call 0x204) :=
    executing_reset_load c fits (by decide) (by decide)
  have empty : (c.reset.load rom).console.machine.depth ≠ stackDepth := by
    rw [machine]
    decide
  obtain ⟨called, -, entered⟩ := cycle_call consistent.toNominal calling empty
  have account : c.reset.openCalls [] [.load rom, .cycle] = [0x202] := by
    rw [openCalls_load_cycle called, machine]
    rfl
  have leaving : (c.reset.load rom).console.cycle.console.executing = some .leave := by
    refine executing_loaded fits (consistent_cycle consistent).toNominal ?_ ?_ (k := 4) ?_
      (by decide) (by decide)
    · rw [entered, machine]
      rfl
    · rw [entered, machine]
      rfl
    · rw [entered]
      rfl
  have accounted := open_calls_account c [.load rom, .cycle] continues
  rw [account] at accounted
  rw [performAll_load_cycle] at accounted ⊢
  obtain ⟨holds, leaves, -⟩ := accounted
  obtain ⟨done, latest⟩ := leaves leaving (by decide)
  exact ⟨continues, holds, leaving, done, (Option.some.inj latest).symm⟩

/-- A machine that has halted on a return without a call raises the fault of that return with
every further cycle, although it carries out no return. -/
theorem raises_underflow_without_leave :
    let c := assemble ⟨true, true⟩ (Tape.repeating #[]) .debug
    let operations := [Operation.load [0x00, 0xEE], .cycle]
    let d := c.reset.performAll operations
    d.Raises .stackUnderflow ∧ d.executing = none ∧
    ¬(d.Raises .stackUnderflow ↔
      d.executing = some .leave ∧ c.reset.openCalls [] operations = []) := by
  intro c operations d
  let start := (c.reset.load [0x00, 0xEE]).console
  have leaving : start.executing = some .leave :=
    executing_reset_load c (by decide) (by decide) (by decide)
  have empty : start.machine.depth = 0 := by
    rw [machine_reset_load c (by decide)]
    rfl
  have nominal : start.machine.Nominal := (consistent_reset_load c _).toNominal
  have halted : d.machine.fault =
      some (.stackUnderflow start.nextWord start.machine.counter) := by
    have ended : d = start.cycle.console := performAll_load_cycle _ _
    rw [ended, cycle_of_error nominal leaving (result_leave start empty)]
    rfl
  have raises : d.Raises .stackUnderflow := (raises_halted halted _).mpr rfl
  have idle : d.executing = none := executing_halted halted
  refine ⟨raises, idle, fun same => ?_⟩
  have leave := (same.mp raises).1
  rw [idle] at leave
  cases leave

end Console

end HexConsole
