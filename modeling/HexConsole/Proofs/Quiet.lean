import HexConsole.Proofs.Block

/-!
# What instructions leave to the host

Keys are moved by the host, the tone is set by a tick, and the address of an instruction and a
fault are recorded by the cycle around it. Main statement: no operand writes any of these, on
any machine whatever, not even one that is out of its ranges and an operand that fails halfway.
-/
namespace HexConsole.Machine

/-- The part of a machine that no instruction writes. -/
def surroundings (m : Machine) : Keypad × Bool × Int × Option Fault :=
  (m.keys, m.tone, m.operandAddress, m.fault)

namespace Step

section Rules

variable {α β : Type} {m : Machine}

/-- The step leaves the surroundings of a machine alone, whether it fails or not. -/
def Quiet (s : Step α) (m : Machine) : Prop := (m.after s).1.surroundings = m.surroundings

@[simp] theorem quiet_pure (a : α) : (pure a : Step α).Quiet m := rfl

@[simp] theorem quiet_fail (e : Failure) : (fail e : Step α).Quiet m := rfl

theorem quiet_set {n : Machine} (same : n.surroundings = m.surroundings) :
    (set n : Step Unit).Quiet m := same

theorem quiet_modify {f : Machine → Machine} (same : (f m).surroundings = m.surroundings) :
    (modify f : Step Unit).Quiet m := same

@[simp] theorem quiet_touch (t : Touch) (s : Step α) : (touch t s).Quiet m ↔ s.Quiet m := Iff.rfl

/-- What follows a look at the machine has to be quiet on this machine only. -/
@[simp] theorem quiet_get_bind (f : Machine → Step β) :
    (get >>= f).Quiet m ↔ (f m).Quiet m := Iff.rfl

theorem Quiet.bind {s : Step α} {f : α → Step β} (first : s.Quiet m)
    (second : ∀ a n, s.run m = .ok a n → (f a).Quiet n) : (s >>= f).Quiet m := by
  unfold Quiet after at *
  rw [run_bind]
  cases ends : s.run m with
  | ok a n =>
    rw [ends] at first
    exact (second a n ends).trans first
  | error e n =>
    rw [ends] at first
    exact first

theorem Quiet.andThen {s : Step α} {f : α → Step β} (first : s.Quiet m)
    (second : ∀ a n, (f a).Quiet n) : (s >>= f).Quiet m :=
  first.bind fun a n _ => second a n

end Rules

variable {m : Machine}

/-! ## Single accesses -/

theorem quiet_register (x : Register) : (register x).Quiet m := by
  simp only [register, quiet_get_bind, quiet_touch]
  split
  · exact quiet_pure _
  · exact quiet_fail _

theorem quiet_setRegister (x : Register) (value : Int) : (setRegister x value).Quiet m := by
  simp only [setRegister, quiet_get_bind, quiet_touch]
  split_ifs
  · exact quiet_set rfl
  · exact quiet_fail _

theorem quiet_setFlag (value : Int) : (setFlag value).Quiet m := quiet_setRegister 15 value

theorem quiet_jump (address : Int) : (jump address).Quiet m := quiet_modify rfl

theorem quiet_skip (distance : Int) : (skip distance).Quiet m := quiet_modify rfl

theorem quiet_skipIf (condition : Bool) : (skipIf condition).Quiet m := by
  unfold skipIf
  split_ifs
  · exact quiet_skip 2
  · exact quiet_pure ()

theorem quiet_setIndex (address : Int) : (setIndex address).Quiet m := quiet_modify rfl

theorem quiet_requireRange (address : Int) (length : Nat) :
    (requireRange address length).Quiet m := by
  simp only [requireRange, quiet_get_bind]
  split_ifs
  · exact quiet_fail _
  · exact quiet_pure ()

theorem quiet_peek (address : Int) : (peek address).Quiet m := by
  simp only [peek, quiet_get_bind, quiet_touch]
  split
  · exact quiet_fail _
  · exact quiet_pure _

theorem quiet_writeByte (address value : Int) : (writeByte address value).Quiet m := by
  simp only [writeByte, quiet_get_bind, quiet_touch]
  split_ifs
  · exact quiet_fail _
  · exact quiet_fail _
  · split
    · exact quiet_fail _
    · exact quiet_set rfl

theorem quiet_key (number : Int) : (key number).Quiet m := by
  simp only [key, quiet_get_bind, quiet_touch]
  split
  · exact quiet_fail _
  · exact quiet_pure _

theorem quiet_returnAddress (level : Int) : (returnAddress level).Quiet m := by
  simp only [returnAddress, quiet_get_bind, quiet_touch]
  split
  · exact quiet_fail _
  · exact quiet_pure _

theorem quiet_setReturnAddress (level address : Int) :
    (setReturnAddress level address).Quiet m := by
  simp only [setReturnAddress, quiet_get_bind, quiet_touch]
  split
  · exact quiet_fail _
  · exact quiet_set rfl

theorem quiet_invert (x y : Int) : (invert x y).Quiet m := by
  simp only [invert, quiet_get_bind, quiet_touch]
  split
  · exact quiet_fail _
  · exact Quiet.andThen (quiet_set rfl) fun _ _ => quiet_pure _

/-! ## Blocks and loops -/

theorem quiet_writeBytes (address : Int) (values : List Int) :
    (writeBytes address values).Quiet m := by
  induction values generalizing m address with
  | nil => exact quiet_pure ()
  | cons value rest ih => exact (quiet_writeByte address value).andThen fun _ _ => ih _

theorem quiet_touchAll_bind {β : Type} (ts : List Touch) {next : Unit → Step β}
    (rest : (next ()).Quiet m) : (touchAll ts >>= next).Quiet m := by
  have still : (touchAll ts).Quiet m := by
    unfold Quiet after
    rw [run_touchAll]
  refine still.bind ?_
  intro _ n ends
  rw [run_touchAll] at ends
  cases ends
  exact rest

theorem quiet_saveRegisters (address : Int) (count : Nat) :
    (saveRegisters address count).Quiet m := by
  simp only [saveRegisters, quiet_get_bind]
  apply quiet_touchAll_bind
  split_ifs
  · exact quiet_fail _
  · apply quiet_touchAll_bind
    exact quiet_set rfl

theorem quiet_restoreRegisters (address : Int) (count : Nat) :
    (restoreRegisters address count).Quiet m := by
  simp only [restoreRegisters, quiet_get_bind]
  apply quiet_touchAll_bind
  apply quiet_touchAll_bind
  exact quiet_set rfl

theorem quiet_strike (x y : Int) : (strike x y).Quiet m := by
  simp only [strike, quiet_get_bind]
  split_ifs
  · refine (quiet_invert x y).andThen fun lit n => ?_
    split_ifs
    · exact quiet_setFlag 1
    · exact quiet_pure ()
  · exact quiet_pure ()

theorem quiet_strikeAll (points : List (Int × Int)) : (strikeAll points).Quiet m := by
  induction points generalizing m with
  | nil => exact quiet_pure ()
  | cons p rest ih => exact (quiet_strike p.1 p.2).andThen fun _ _ => ih

theorem quiet_drawRows (x y address : Int) (rows : Nat) : (drawRows x y address rows).Quiet m := by
  induction rows generalizing m y address with
  | zero => exact quiet_pure ()
  | succ rows ih =>
    exact (quiet_peek address).andThen fun _ _ => (quiet_strikeAll _).andThen fun _ _ => ih _ _

/-! ## Instructions -/

theorem quiet_draw (x y : Register) (height : Nat) : (draw x y height).Quiet m := by
  refine (quiet_register x).andThen fun left _ => (quiet_register y).andThen fun top k => ?_
  rw [quiet_get_bind]
  refine (quiet_requireRange _ _).andThen fun _ _ => (quiet_setFlag 0).andThen fun _ _ => ?_
  exact (quiet_drawRows _ _ _ _).andThen fun _ _ => quiet_modify rfl

theorem quiet_keyOf (x : Register) : (keyOf x).Quiet m := by
  refine (quiet_register x).andThen fun number n => ?_
  rw [quiet_get_bind]
  split_ifs
  · exact quiet_fail _
  · exact quiet_key number

theorem quiet_conclude (x : Register) (result : Int) (flag : Bool) :
    (conclude x result flag).Quiet m :=
  (quiet_setRegister x _).andThen fun _ _ => quiet_setFlag _

theorem quiet_compute (x y : Register) (how : Arithmetic) : (compute x y how).Quiet m := by
  cases how with
  | copy => exact (quiet_register y).andThen fun _ _ => quiet_setRegister x _
  | or | and | xor =>
    exact (quiet_register x).andThen fun _ _ => (quiet_register y).andThen fun _ _ =>
      quiet_setRegister x _
  | add | subtract | subtractFrom =>
    exact (quiet_register x).andThen fun _ _ => (quiet_register y).andThen fun _ _ =>
      quiet_conclude x _ _
  | shiftRight | shiftLeft =>
    exact (quiet_register x).andThen fun _ _ => (quiet_setFlag _).andThen fun _ _ =>
      (quiet_register x).andThen fun _ _ => quiet_setRegister x _

theorem quiet_leave : leave.Quiet m := by
  simp only [leave, quiet_get_bind]
  split_ifs
  · exact quiet_fail _
  · exact Quiet.andThen (quiet_set rfl) fun _ _ =>
      (quiet_returnAddress _).andThen fun _ _ => quiet_jump _

theorem quiet_call (target : Int) : (call target).Quiet m := by
  simp only [call, quiet_get_bind]
  split_ifs
  · exact quiet_fail _
  · exact (quiet_setReturnAddress _ _).andThen fun _ _ =>
      Quiet.andThen (quiet_modify rfl) fun _ _ => quiet_jump target

theorem quiet_awaitKey (x : Register) : (awaitKey x).Quiet m := by
  simp only [awaitKey, quiet_get_bind]
  split
  · exact quiet_setRegister x _
  · exact quiet_skip (-2)

theorem quiet_storeDecimal (x : Register) : (storeDecimal x).Quiet m := by
  simp only [storeDecimal, quiet_get_bind]
  exact (quiet_requireRange _ _).andThen fun _ _ => (quiet_register x).andThen fun _ _ =>
    quiet_writeBytes _ _

theorem quiet_storeRegisters (last : Register) : (storeRegisters last).Quiet m := by
  simp only [storeRegisters, quiet_get_bind]
  exact (quiet_requireRange _ _).andThen fun _ _ => quiet_saveRegisters _ _

theorem quiet_loadRegisters (last : Register) : (loadRegisters last).Quiet m := by
  simp only [loadRegisters, quiet_get_bind]
  exact (quiet_requireRange _ _).andThen fun _ _ => quiet_restoreRegisters _ _

theorem quiet_execute (byte : Int) (i : Instruction) : (execute byte i).Quiet m := by
  cases i with
  | clearScreen => exact quiet_modify rfl
  | leave => exact quiet_leave
  | jump target => exact quiet_jump _
  | call target => exact quiet_call _
  | skipIfEquals x constant | skipUnlessEquals x constant =>
    exact (quiet_register x).andThen fun _ _ => quiet_skipIf _
  | skipIfSame x y | skipUnlessSame x y =>
    exact (quiet_register x).andThen fun _ _ => (quiet_register y).andThen fun _ _ =>
      quiet_skipIf _
  | setRegister x constant => exact quiet_setRegister x _
  | addConstant x constant => exact (quiet_register x).andThen fun _ _ => quiet_setRegister x _
  | compute how x y => exact quiet_compute x y how
  | setIndex address => exact quiet_setIndex _
  | jumpBeyond base => exact (quiet_register 0).andThen fun _ _ => quiet_jump _
  | random x mask => exact quiet_setRegister x _
  | draw x y height => exact quiet_draw x y _
  | skipIfPressed x | skipUnlessPressed x =>
    exact (quiet_keyOf x).andThen fun _ _ => quiet_skipIf _
  | readDelay x =>
    simp only [execute, quiet_get_bind]
    exact quiet_setRegister x _
  | awaitKey x => exact quiet_awaitKey x
  | setDelay x | setSound x => exact (quiet_register x).andThen fun _ _ => quiet_modify rfl
  | addIndex x =>
    refine (quiet_register x).andThen fun value n => ?_
    rw [quiet_get_bind]
    exact quiet_setIndex _
  | pointAtGlyph x => exact (quiet_register x).andThen fun _ _ => quiet_setIndex _
  | storeDecimal x => exact quiet_storeDecimal x
  | storeRegisters last => exact quiet_storeRegisters last
  | loadRegisters last => exact quiet_loadRegisters last

theorem quiet_dispatch (byte operand : Int) : (dispatch byte operand).Quiet m := by
  refine Quiet.andThen (quiet_modify rfl) fun _ n => ?_
  cases Instruction.decode operand with
  | none => exact (quiet_get_bind _).mpr (quiet_fail _)
  | some i => exact quiet_execute byte i

end Step

/-- Carrying out or refusing an operand leaves keys, tone, noted address and fault alone. -/
theorem surroundings_dispatch (m : Machine) (byte operand : Int) :
    (m.dispatch byte operand).1.surroundings = m.surroundings :=
  Step.quiet_dispatch byte operand

end HexConsole.Machine
