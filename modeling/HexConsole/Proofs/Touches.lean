import HexConsole.Proofs.Effect

/-!
# The cells that an instruction touches

A touch is proper if its cell exists and is named from the front, and if what it stores
fits. A step is safe on a machine if all its touches are proper. Main statement: on a
nominal machine every operand is safe, whether it is carried out or refused.
-/
namespace HexConsole.Machine

/-- A use of a cell that exists, named from the front. Memory and registers take octets. -/
def Touch.Proper (t : Touch) : Prop :=
  (0 ≤ t.index ∧ t.index < t.size) ∧
    (t.table = .memory ∨ t.table = .registers → ∀ v ∈ t.stored?, Octet v)

theorem Touch.proper_reading {table : Table} {index : Int} {size : Nat} (low : 0 ≤ index)
    (high : index < size) : (Touch.mk table index size none).Proper :=
  ⟨⟨low, high⟩, by simp⟩

theorem Touch.proper_storing {table : Table} {index value : Int} {size : Nat} (low : 0 ≤ index)
    (high : index < size) (fits : Octet value) : (Touch.mk table index size (some value)).Proper :=
  ⟨⟨low, high⟩, by simpa using fun _ => fits⟩

theorem proper_block {table : Table} {start : Int} {size : Nat} {values : List (Option Int)}
    (low : 0 ≤ start) (high : start + values.length ≤ size)
    (fits : ∀ v, some v ∈ values → Octet v) {t : Touch}
    (member : t ∈ Step.block table start size values) : t.Proper := by
  obtain ⟨⟨stored?, k⟩, place, rfl⟩ := List.mem_map.mp member
  have found : values[k]? = some stored? := List.mem_zipIdx_iff_getElem?.mp place
  obtain ⟨inside, -⟩ := List.getElem?_eq_some_iff.mp found
  refine ⟨⟨by simp only; omega, by simp only; omega⟩, ?_⟩
  intro _ v stored
  rw [show stored? = some v from stored] at found
  exact fits v (List.mem_of_getElem? found)

namespace Step

section Rules

variable {α β : Type} {m : Machine}

/-- Every cell that the step touches is touched properly. -/
def Safe (s : Step α) (m : Machine) : Prop := ∀ t ∈ s.touches m, t.Proper

@[simp] theorem safe_pure (a : α) : (pure a : Step α).Safe m := by simp [Safe]

@[simp] theorem safe_fail (e : Failure) : (fail e : Step α).Safe m := by simp [Safe]

@[simp] theorem safe_get : (get : Step Machine).Safe m := by simp [Safe]

@[simp] theorem safe_set (n : Machine) : (set n : Step Unit).Safe m := by simp [Safe]

@[simp] theorem safe_modify (f : Machine → Machine) : (modify f : Step Unit).Safe m := by
  simp [Safe]

@[simp] theorem safe_touch (t : Touch) (s : Step α) :
    (touch t s).Safe m ↔ t.Proper ∧ s.Safe m := by simp [Safe]

/-- What follows a step has to be safe only on the machine that the step leaves. -/
@[simp] theorem safe_bind (s : Step α) (f : α → Step β) :
    (s >>= f).Safe m ↔ s.Safe m ∧ ∀ a n, s.run m = .ok a n → (f a).Safe n := by
  unfold Safe
  rw [touches_bind, List.forall_mem_append]
  cases s.run m <;> simp

theorem Safe.bind {s : Step α} {f : α → Step β} {a : α} {n : Machine} (first : s.Safe m)
    (ends : s.run m = .ok a n) (second : (f a).Safe n) : (s >>= f).Safe m := by
  rw [safe_bind]
  refine ⟨first, ?_⟩
  intro b k same
  rw [ends] at same
  cases same
  exact second

@[simp] theorem safe_touchAll (ts : List Touch) :
    (touchAll ts).Safe m ↔ ∀ t ∈ ts, t.Proper := by
  induction ts with
  | nil => simp [touchAll]
  | cons t rest ih => simp [touchAll, ih]

end Rules

variable {m : Machine}

/-! ## Single accesses -/

theorem safe_register (h : m.registers.size = 16) (x : Register) : (register x).Safe m := by
  have inside : x.val < m.registers.size := by omega
  have proper : (Touch.mk .registers x.val m.registers.size none).Proper :=
    Touch.proper_reading (by omega) (by omega)
  simp [register, proper, inside]

theorem safe_setRegister (h : m.registers.size = 16) (x : Register) {value : Int}
    (fits : Octet value) : (setRegister x value).Safe m := by
  have inside : x.val < m.registers.size := by omega
  have proper : (Touch.mk .registers x.val m.registers.size (some value)).Proper :=
    Touch.proper_storing (by omega) (by omega) fits
  simp [setRegister, proper, inside]

theorem safe_setFlag (h : m.registers.size = 16) {value : Int} (fits : Octet value) :
    (setFlag value).Safe m := safe_setRegister h 15 fits

theorem safe_skipIf (condition : Bool) : (skipIf condition).Safe m := by
  cases condition <;> simp [skipIf, skip]

theorem safe_peek {address : Int} (low : 0 ≤ address) (high : address < m.memory.size) :
    (peek address).Safe m := by
  have proper : (Touch.mk .memory address m.memory.size none).Proper :=
    Touch.proper_reading low high
  simp [peek, proper, position?_of_bounds low high]

theorem safe_writeByte {address value : Int} (low : 0 ≤ address) (high : address < m.memory.size)
    (fits : Octet value) : (writeByte address value).Safe m := by
  have proper : (Touch.mk .memory address m.memory.size (some value)).Proper :=
    Touch.proper_storing low high fits
  simp only [writeByte, safe_bind, safe_get, safe_touch, true_and]
  rintro a n ⟨⟩
  refine ⟨proper, ?_⟩
  split_ifs
  · exact safe_fail _
  · exact safe_fail _
  · rw [position?_of_bounds low high]
    exact safe_set _

theorem safe_key {number : Int} (low : 0 ≤ number) (high : number < 16) :
    (key number).Safe m := by
  have proper : (Touch.mk .keys number m.keys.size none).Proper := Touch.proper_reading low high
  simp [key, proper, position?_of_bounds low high]

theorem safe_returnAddress {level : Int} (low : 0 ≤ level) (high : level < 16) :
    (returnAddress level).Safe m := by
  have proper : (Touch.mk .stack level m.stack.size none).Proper := Touch.proper_reading low high
  simp [returnAddress, proper, position?_of_bounds low high]

theorem safe_setReturnAddress {level address : Int} (low : 0 ≤ level) (high : level < 16) :
    (setReturnAddress level address).Safe m := by
  have proper : (Touch.mk .stack level m.stack.size (some address)).Proper :=
    ⟨⟨low, high⟩, by simp⟩
  simp [setReturnAddress, proper, position?_of_bounds low high]

theorem safe_invert {x y : Int} (on : m.frame.inBounds x y = true) : (invert x y).Safe m := by
  obtain ⟨low, high⟩ := Frame.offset_bounds on
  have proper (stored? : Option Int) :
      (Touch.mk .pixels (m.frame.offset x y) m.frame.cells.size stored?).Proper :=
    ⟨⟨low, high⟩, by simp⟩
  simp [invert, Frame.cell?_of_inBounds m.frame on]
  exact ⟨proper _, proper _⟩

/-! ## Ranges and blocks -/

theorem safe_requireRange (address : Int) (length : Nat) :
    (requireRange address length).Safe m := by
  refine safe_get.bind (run_get m) ?_
  split_ifs
  · exact safe_fail _
  · exact safe_pure ()

theorem safe_requireRange_bind {length : Nat} {next : Unit → Step Unit}
    (inside : length = 0 ∨ m.index + length ≤ memorySize → (next ()).Safe m) :
    (requireRange m.index length >>= next).Safe m := by
  rw [safe_bind]
  refine ⟨safe_requireRange _ _, ?_⟩
  intro _ n ends
  rw [run_requireRange] at ends
  unfold withinMemory at ends
  split_ifs at ends with fits <;> cases ends
  exact inside fits

theorem safe_saveRegisters (h : m.Nominal) {count : Nat} (few : count ≤ 16)
    (inside : m.index + count ≤ memorySize) : (saveRegisters m.index count).Safe m := by
  have registers := h.registers
  have memory := h.memory
  simp only [saveRegisters, safe_bind, safe_get, run_get, EStateM.Result.ok.injEq, and_imp,
    forall_apply_eq_imp_iff, forall_eq', forall_const, true_and, and_true, slice_registers h few,
    all_isByte_extract h, Bool.not_true, Bool.false_eq_true, if_false, safe_touchAll, run_touchAll,
    safe_set]
  constructor
  · intro t member
    exact proper_block (by omega) (by simp; omega) (by simp) member
  · intro t member
    refine proper_block h.index.1 (by simp; omega) ?_ member
    intro v stored
    obtain ⟨_, held, ⟨⟩⟩ := List.mem_map.mp stored
    exact octet_of_mem_extract h (Array.mem_toList_iff.mp held)

theorem safe_restoreRegisters (h : m.Nominal) {count : Nat} (few : count ≤ 16)
    (inside : m.index + count ≤ memorySize) : (restoreRegisters m.index count).Safe m := by
  have registers := h.registers
  have memory := h.memory
  have low := h.index.1
  simp only [restoreRegisters, safe_bind, safe_get, run_get, EStateM.Result.ok.injEq, and_imp,
    forall_apply_eq_imp_iff, forall_eq', forall_const, true_and, and_true,
    slice_memory h.memory h.index.1 inside, safe_touchAll, run_touchAll, safe_set]
  constructor
  · intro t member
    exact proper_block h.index.1 (by simp; omega) (by simp) member
  · intro t member
    refine proper_block (by omega) (by simp; omega) ?_ member
    intro v stored
    obtain ⟨_, loaded, ⟨⟩⟩ := List.mem_map.mp stored
    obtain ⟨b, -, rfl⟩ := Array.mem_map.mp (Array.mem_toList_iff.mp loaded)
    exact Octet.ofByte b

/-! ## Drawing -/

theorem safe_strike (h : m.registers.size = 16) (x y : Int) : (strike x y).Safe m := by
  cases on : m.frame.inBounds x y with
  | false => simp [strike, on]
  | true =>
    have flag (frame : Frame 64 32) : (setFlag 1).Safe { m with frame } :=
      safe_setFlag (m := { m with frame }) h (Octet.ofBool true)
    cases lit : m.frame.shows x y <;> simp [strike, on, lit, safe_invert, run_invert on, flag]

theorem safe_strikeAll (h : m.registers.size = 16) (points : List (Int × Int)) :
    (strikeAll points).Safe m := by
  induction points generalizing m with
  | nil => exact safe_pure ()
  | cons p rest ih =>
    obtain ⟨x, y⟩ := p
    have size : (m.struck (Stencil.point x y)).registers.size = 16 := by
      rw [struck_registers_size, h]
    exact (safe_strike h x y).bind (run_strike h x y) (ih size)

theorem safe_drawRows (hm : m.memory.size = memorySize) (hr : m.registers.size = 16)
    {address : Int} {rows : Nat} (x y : Int) (low : 0 ≤ address)
    (high : rows = 0 ∨ address + rows ≤ memorySize) : (drawRows x y address rows).Safe m := by
  induction rows generalizing m y address with
  | zero => exact safe_pure ()
  | succ rows ih =>
    have inside : address < m.memory.size := by rw [hm]; omega
    refine (safe_peek low inside).bind (run_peek low inside) ?_
    refine (safe_strikeAll hr _).bind (run_strikeAll hr (nodup_rowPoints _ _ _)) ?_
    exact ih (by rw [struck_memory, hm]) (by rw [struck_registers_size, hr]) (y + 1) (by omega)
      (by omega)

theorem safe_draw (h : m.Nominal) (x y : Register) (height : Nat) : (draw x y height).Safe m := by
  have size := h.registers
  refine (safe_register size x).bind (run_register size x) ?_
  refine (safe_register size y).bind (run_register size y) ?_
  refine safe_get.bind (run_get m) ?_
  apply safe_requireRange_bind
  intro inside
  refine (safe_setFlag size (Octet.ofBool false)).bind (run_setFlag size 0) ?_
  have memory : (m.setReg 15 0).memory.size = memorySize := h.memory
  have cleared : (m.setReg 15 0).registers.size = 16 := by simp [size]
  refine (safe_drawRows memory cleared _ _ h.index.1 inside).bind
    (run_drawRows memory cleared _ _ h.index.1 inside) ?_
  exact safe_modify _

/-! ## Instructions -/

theorem safe_keyOf (h : m.Nominal) (x : Register) : (keyOf x).Safe m := by
  have size := h.registers
  have low := (h.octet_reg x).1
  refine (safe_register size x).bind (run_register size x) ?_
  refine safe_get.bind (run_get m) ?_
  by_cases far : 16 ≤ m.reg x
  · simp [far]
  · simp [far, safe_key low (show m.reg x < 16 by omega)]

theorem safe_conclude (h : m.registers.size = 16) (x : Register) (result : Int) (flag : Bool) :
    (conclude x result flag).Safe m := by
  refine (safe_setRegister h x (Octet.emod result)).bind (run_setRegister h x _) ?_
  exact safe_setFlag (by simp [h]) (Octet.ofBool flag)

theorem safe_compute (h : m.Nominal) (x y : Register) (how : Arithmetic) :
    (compute x y how).Safe m := by
  have size := h.registers
  have hx := h.octet_reg x
  have hy := h.octet_reg y
  cases how with
  | copy => simp [compute, size, safe_register, safe_setRegister, hy]
  | or => simp [compute, size, safe_register, safe_setRegister, hx.or hy]
  | and => simp [compute, size, safe_register, safe_setRegister, hx.and (m.reg y)]
  | xor => simp [compute, size, safe_register, safe_setRegister, hx.xor hy]
  | add => simp [compute, size, safe_register, safe_conclude]
  | subtract => simp [compute, size, safe_register, safe_conclude]
  | subtractFrom => simp [compute, size, safe_register, safe_conclude]
  | shiftRight =>
    have bit := Octet.bit (m.reg x)
    have flagged : Octet ((m.setReg 15 (m.reg x % 2)).reg x) := by
      rw [reg_setReg size]
      split_ifs
      · exact bit
      · exact hx
    have half := flagged.ediv (show 0 < 2 by decide)
    simp [compute, size, safe_register, safe_setRegister, safe_setFlag, bit, half]
  | shiftLeft =>
    have bit := Octet.bit (m.reg x / 128)
    simp [compute, size, safe_register, safe_setRegister, safe_setFlag, bit, Octet.emod]

theorem safe_storeDecimal (h : m.Nominal) (x : Register) : (storeDecimal x).Safe m := by
  have size := h.registers
  have memory := h.memory
  have start := h.index.1
  refine safe_get.bind (run_get m) ?_
  apply safe_requireRange_bind
  intro inside
  have hundreds : Octet (m.reg x / 100) := (h.octet_reg x).ediv (by decide)
  have tens : Octet (m.reg x / 10 % 10) := Octet.digit _
  have ones : Octet (m.reg x % 10) := Octet.digit _
  refine (safe_register size x).bind (run_register size x) ?_
  refine (safe_writeByte start (by omega) hundreds).bind
    (run_writeByte memory start (by omega) hundreds) ?_
  have first : (m.setByte m.index (m.reg x / 100)).memory.size = memorySize := by simp [memory]
  refine (safe_writeByte (by omega) (by omega) tens).bind
    (run_writeByte first (by omega) (by omega) tens) ?_
  refine Safe.bind (safe_writeByte (by omega) (by simp [memory]; omega) ones)
    (run_writeByte (by simp [memory]) (by omega) (by omega) ones) ?_
  exact safe_pure ()

theorem safe_leave (h : m.Nominal) : leave.Safe m := by
  obtain ⟨low, high⟩ := h.depth
  by_cases empty : m.depth = 0
  · simp [leave, empty]
  · have below := safe_returnAddress (m := { m with depth := m.depth - 1 })
      (show 0 ≤ m.depth - 1 by omega) (by omega)
    simp [leave, empty, jump, below]

theorem safe_call (h : m.Nominal) (target : Int) : (call target).Safe m := by
  obtain ⟨low, high⟩ := h.depth
  by_cases full : m.depth = stackDepth
  · simp [call, full]
  · have room : m.depth < 16 := by simp only [stackDepth] at full; omega
    simp [call, full, jump, safe_setReturnAddress low room]

theorem safe_execute (h : m.Nominal) (byte : Int) (i : Instruction) :
    (execute byte i).Safe m := by
  have size := h.registers
  cases i with
  | leave => exact safe_leave h
  | call target => exact safe_call h target.val
  | compute how x y => exact safe_compute h x y how
  | draw x y height => exact safe_draw h x y height.val
  | skipIfPressed x => simp [execute, safe_keyOf h, safe_skipIf]
  | skipUnlessPressed x => simp [execute, safe_keyOf h, safe_skipIf]
  | storeDecimal x => exact safe_storeDecimal h x
  | storeRegisters last =>
    refine safe_get.bind (run_get m) (safe_requireRange_bind ?_)
    intro inside
    exact safe_saveRegisters h (by omega) (by omega)
  | loadRegisters last =>
    refine safe_get.bind (run_get m) (safe_requireRange_bind ?_)
    intro inside
    exact safe_restoreRegisters h (by omega) (by omega)
  | awaitKey x =>
    cases first : m.keys.first? with
    | none => simp [execute, awaitKey, first, skip]
    | some key =>
      have fits : Octet key := by
        have key_lt := Keypad.lt_of_first? first
        exact ⟨by omega, by omega⟩
      simp [execute, awaitKey, first, safe_setRegister size x fits]
  | skipIfEquals x constant => simp [execute, size, safe_register, safe_skipIf]
  | skipUnlessEquals x constant => simp [execute, size, safe_register, safe_skipIf]
  | skipIfSame x y => simp [execute, size, safe_register, safe_skipIf]
  | skipUnlessSame x y => simp [execute, size, safe_register, safe_skipIf]
  | setRegister x constant => exact safe_setRegister size x (Octet.ofConstant constant)
  | addConstant x constant =>
    simp [execute, size, safe_register, safe_setRegister, Octet.emod]
  | random x mask => exact safe_setRegister size x (Octet.and (Octet.ofConstant mask) byte)
  | readDelay x => simp [execute, safe_setRegister size x h.delay]
  | clearScreen | jump | setIndex => exact safe_modify _
  | jumpBeyond base => simp [execute, size, safe_register, jump]
  | setDelay x => simp [execute, size, safe_register]
  | setSound x => simp [execute, size, safe_register]
  | addIndex x => simp [execute, size, safe_register, setIndex]
  | pointAtGlyph x => simp [execute, size, safe_register, setIndex]

/-- A nominal machine carries out or refuses an operand without touching a cell that is
not there. -/
theorem safe_dispatch (h : m.Nominal) (byte operand : Int) : (dispatch byte operand).Safe m := by
  have noted : { m with operand }.Nominal := { h with }
  refine (safe_modify _).bind (run_modify m _) ?_
  cases decoded : Instruction.decode operand with
  | none => simp
  | some i => exact safe_execute noted byte i

theorem safe_fetch (h : m.Nominal) : fetch.Safe m := by
  have memory := h.memory
  obtain ⟨low, -⟩ := h.counter
  refine safe_get.bind (run_get m) ?_
  split_ifs with past
  · exact safe_fail _
  · unfold memorySize at memory past
    have first : 0 ≤ m.counter ∧ m.counter < m.memory.size := by omega
    have second : 0 ≤ m.counter + 1 ∧ m.counter + 1 < m.memory.size := by omega
    refine (safe_peek first.1 first.2).bind (run_peek first.1 first.2) ?_
    refine (safe_peek second.1 second.2).bind (run_peek second.1 second.2) ?_
    exact safe_pure _

end Step

end HexConsole.Machine
