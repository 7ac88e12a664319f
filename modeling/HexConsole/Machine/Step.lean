import HexConsole.Machine

/-!
# Steps

A step acts on a machine and may fail. It is written down as what it does in turn:
it looks at the machine, changes it, and says which cell of a table it is about to
use. So the same step can be run, and it can be asked for the cells that it touches.
What it did before it failed stays done. Copying a block of cells touches each of
them.
-/
namespace HexConsole.Machine

/-- A use of one cell: the number by which it was named, the size that the table had,
and what was stored, if anything was. -/
structure Touch where
  table : Table
  index : Int
  size : Nat
  stored? : Option Int
  deriving DecidableEq, Repr

inductive Step (α : Type) where
  | done (value : α)
  | fail (e : Failure)
  | look (next : Machine → Step α)
  | change (f : Machine → Machine) (next : Step α)
  | touch (t : Touch) (next : Step α)

namespace Step

variable {α β : Type}

def andThen : Step α → (α → Step β) → Step β
  | done value, f => f value
  | fail e, _ => fail e
  | look next, f => look fun m => (next m).andThen f
  | change g next, f => change g (next.andThen f)
  | touch t next, f => touch t (next.andThen f)

instance : Monad Step where
  pure := done
  bind := andThen

instance : MonadStateOf Machine Step where
  get := look done
  set m := change (fun _ => m) (done ())
  modifyGet f := look fun m => change (fun _ => (f m).2) (done (f m).1)

def run : Step α → Machine → EStateM.Result Failure Machine α
  | done value, m => .ok value m
  | fail e, m => .error e m
  | look next, m => (next m).run m
  | change f next, m => next.run (f m)
  | touch _ next, m => next.run m

/-- The cells that a step touches when it is run, in order, up to where it ends. -/
def touches : Step α → Machine → List Touch
  | done _, _ => []
  | fail _, _ => []
  | look next, m => (next m).touches m
  | change f next, m => next.touches (f m)
  | touch t next, m => t :: next.touches m

end Step

/-- The machine after a step, with the failure if it failed. -/
def after {α : Type} (m : Machine) (s : Step α) : Machine × Option Failure :=
  match s.run m with
  | .ok _ m => (m, none)
  | .error e m => (m, some e)

namespace Step

section Running

variable {α β : Type} (m : Machine)

@[simp] theorem run_pure (a : α) : (pure a : Step α).run m = .ok a m := rfl

@[simp] theorem run_fail (e : Failure) : (fail e : Step α).run m = .error e m := rfl

@[simp] theorem run_get : (get : Step Machine).run m = .ok m m := rfl

@[simp] theorem run_set (n : Machine) : (set n : Step Unit).run m = .ok () n := rfl

@[simp] theorem run_modify (f : Machine → Machine) :
    (modify f : Step Unit).run m = .ok () (f m) := rfl

@[simp] theorem run_touch (t : Touch) (s : Step α) : (touch t s).run m = s.run m := rfl

@[simp] theorem run_bind (s : Step α) (f : α → Step β) :
    (s >>= f).run m = match s.run m with
      | .ok a n => (f a).run n
      | .error e n => .error e n := by
  change (s.andThen f).run m = _
  induction s generalizing m with
  | done value => rfl
  | fail e => rfl
  | look next ih => exact ih m m
  | change g next ih => exact ih (g m)
  | touch t next ih => exact ih m

@[simp] theorem touches_pure (a : α) : (pure a : Step α).touches m = [] := rfl

@[simp] theorem touches_fail (e : Failure) : (fail e : Step α).touches m = [] := rfl

@[simp] theorem touches_get : (get : Step Machine).touches m = [] := rfl

@[simp] theorem touches_set (n : Machine) : (set n : Step Unit).touches m = [] := rfl

@[simp] theorem touches_modify (f : Machine → Machine) :
    (modify f : Step Unit).touches m = [] := rfl

@[simp] theorem touches_touch (t : Touch) (s : Step α) :
    (touch t s).touches m = t :: s.touches m := rfl

/-- A step that fails hides what would have come after it. -/
@[simp] theorem touches_bind (s : Step α) (f : α → Step β) :
    (s >>= f).touches m = s.touches m ++ match s.run m with
      | .ok a n => (f a).touches n
      | .error _ _ => [] := by
  change (s.andThen f).touches m = _
  induction s generalizing m with
  | done value => rfl
  | fail e => rfl
  | look next ih => exact ih m m
  | change g next ih => exact ih (g m)
  | touch t next ih => exact congrArg (t :: ·) (ih m)

end Running

/-- What a register holds. -/
def register (x : Register) : Step Int := do
  let m ← get
  touch ⟨.registers, x.val, m.registers.size, none⟩ <|
    match m.registers[x.val]? with
    | some value => pure value
    | none => fail (.noCell .registers .reading x.val)

def setRegister (x : Register) (value : Int) : Step Unit := do
  let m ← get
  touch ⟨.registers, x.val, m.registers.size, some value⟩ <|
    if x.val < m.registers.size then
      set { m with registers := m.registers.setIfInBounds x.val value }
    else fail (.noCell .registers .writing x.val)

def setFlag (value : Int) : Step Unit := setRegister 15 value

def jump (address : Int) : Step Unit := modify fun m => { m with counter := address }

/-- Moves the counter over one more instruction, or back onto the last one. -/
def skip (distance : Int) : Step Unit := modify fun m => { m with counter := m.counter + distance }

def skipIf (condition : Bool) : Step Unit := if condition then skip 2 else pure ()

def setIndex (address : Int) : Step Unit := modify fun m => { m with index := address }

/-- Refuses a range of addresses that leaves memory, by its first address that
does. An empty range lies in memory wherever it starts. -/
def requireRange (address : Int) (length : Nat) : Step Unit := do
  let m ← get
  if 0 < length ∧ memorySize ≤ address + length - 1 then
    fail (.fault (.outOfBounds (max address memorySize) m.operand m.operandAddress "memory"))

/-- The byte at an address. A negative address counts from the end of memory. -/
def peek (address : Int) : Step Byte := do
  let m ← get
  touch ⟨.memory, address, m.memory.size, none⟩ <|
    match position? m.memory.size address with
    | none => fail (.noCell .memory .reading address)
    | some a => pure m.memory[a]

/-- The big-endian word at the counter, which is not advanced. -/
def fetch : Step Int := do
  let m ← get
  if memorySize - 2 < m.counter then
    fail (.fault (.outOfBounds m.counter m.operand m.counter "memory"))
  else do
    let high ← peek m.counter
    let low ← peek (m.counter + 1)
    return high.toNat * 256 + low.toNat

def isByte (value : Int) : Bool := decide (0 ≤ value) && decide (value < 256)

/-- Writes one byte. An address wider than a word is refused before the value is
looked at, and one outside memory after it. -/
def writeByte (address value : Int) : Step Unit := do
  let m ← get
  touch ⟨.memory, address, m.memory.size, some value⟩ <|
    if !fitsIndex address then fail (.noCell .memory .writing address)
    else if !isByte value then fail (.byteValue value)
    else match position? m.memory.size address with
      | none => fail (.noCell .memory .writing address)
      | some a => set { m with memory := m.memory.setIfInBounds a.val (BitVec.ofInt 8 value) }

def writeBytes (address : Int) : List Int → Step Unit
  | [] => pure ()
  | value :: rest => do
    writeByte address value
    writeBytes (address + 1) rest

def touchAll : List Touch → Step Unit
  | [] => pure ()
  | t :: rest => touch t (touchAll rest)

/-- The cells of a block of values, from some number on, each with its value. -/
def block (table : Table) (start : Int) (size : Nat) (values : List (Option Int)) : List Touch :=
  values.zipIdx.map fun (stored?, k) => ⟨table, start + k, size, stored?⟩

/-- Copies registers, from the first one on, to memory. All of them must be bytes. -/
def saveRegisters (address : Int) (count : Nat) : Step Unit := do
  let m ← get
  let values := slice m.registers 0 count
  touchAll (block .registers 0 m.registers.size (List.replicate count none))
  if !values.all isByte then fail (.byteValues values.toList)
  touchAll (block .memory address m.memory.size (values.toList.map some))
  let bytes := values.map (BitVec.ofInt 8)
  set { m with memory := splice m.memory address (address + count) bytes }

/-- Copies memory to registers, from the first one on. -/
def restoreRegisters (address : Int) (count : Nat) : Step Unit := do
  let m ← get
  let values := (slice m.memory address (address + count)).map fun b => (b.toNat : Int)
  touchAll (block .memory address m.memory.size (List.replicate count none))
  touchAll (block .registers 0 m.registers.size (values.toList.map some))
  set { m with registers := splice m.registers 0 count values }

/-- Whether a key is down. -/
def key (number : Int) : Step Bool := do
  let m ← get
  touch ⟨.keys, number, m.keys.size, none⟩ <|
    match position? 16 number with
    | none => fail (.noCell .keys .reading number)
    | some k => pure (m.keys.get k)

/-- The return address at a level of the stack. -/
def returnAddress (level : Int) : Step Int := do
  let m ← get
  touch ⟨.stack, level, m.stack.size, none⟩ <|
    match position? 16 level with
    | none => fail (.noCell .stack .reading level)
    | some slot => pure (m.stack.get slot)

def setReturnAddress (level address : Int) : Step Unit := do
  let m ← get
  touch ⟨.stack, level, m.stack.size, some address⟩ <|
    match position? 16 level with
    | none => fail (.noCell .stack .writing level)
    | some slot => set { m with stack := m.stack.setIfInBounds slot.val address }

/-- Inverts one pixel and tells whether it was lit before. -/
def invert (x y : Int) : Step Bool := do
  let m ← get
  let offset := m.frame.offset x y
  touch ⟨.pixels, offset, m.frame.cells.size, none⟩ <|
    match m.frame.cell? x y with
    | none => fail (.noCell .pixels .reading offset)
    | some k => do
      let lit := m.frame.lit k
      touch ⟨.pixels, offset, m.frame.cells.size, some (if lit then 0 else 1)⟩ <|
        set { m with frame := m.frame.flip k }
      return lit

end Step

/-- The word that the next cycle would execute, if it can be fetched. -/
def fetch (m : Machine) : Except Failure Int :=
  match Step.fetch.run m with
  | .ok word _ => .ok word
  | .error e _ => .error e

end HexConsole.Machine
