import HexConsole.Proofs.Drawing

/-!
# Sprites over one another

Drawing inverts pixels, so only the parity counts of how often a pixel is covered. Main statement:
draws whose places do not depend on the flag give the same frame in every order, a draw made twice
gives back the frame, and the two flags that it leaves tell whether a covered pixel was lit before,
and whether one was not.

The flag is not part of the overlay: it tells what the last draw has met, and that depends on
the order.
-/
namespace HexConsole

namespace Stencil

/-- The points that an odd number of stencils cut out. -/
def parity (stencils : List Stencil) : Stencil := fun u v =>
  decide (stencils.countP (fun p => p u v) % 2 = 1)

theorem parity_cons (p : Stencil) (stencils : List Stencil) (u v : Int) :
    parity (p :: stencils) u v = (p u v ^^ parity stencils u v) := by
  unfold parity
  cases cut : p u v with
  | false => simp [cut]
  | true =>
    simp only [List.countP_cons, cut, if_true, Bool.true_xor, ← decide_not]
    exact decide_eq_decide.mpr (by omega)

theorem parity_perm {first second : List Stencil} (same : first.Perm second) :
    parity first = parity second := by
  funext u v
  simp only [parity, same.countP_eq]

end Stencil

namespace Frame

variable {width height : Int}

theorem inBounds_inverted (f : Frame width height) (p : Stencil) (x y : Int) :
    (f.inverted p).inBounds x y = f.inBounds x y := by
  simp only [inBounds]

/-- A stencil that is laid on a frame twice has no effect. -/
theorem inverted_twice (f : Frame width height) (p : Stencil) :
    (f.inverted p).inverted p = f := by
  apply ext_lit
  simp

/-- Stencils that are laid on a frame one after the other invert it where an odd number of them
is cut out. -/
theorem foldl_inverted (f : Frame width height) (stencils : List Stencil) :
    stencils.foldl inverted f = f.inverted (.parity stencils) := by
  induction stencils generalizing f with
  | nil => exact (f.inverted_of_clear fun k => rfl).symm
  | cons p rest ih =>
    rw [List.foldl_cons, ih]
    apply ext_lit
    intro k
    simp only [lit_inverted, under, Stencil.parity_cons, Bool.xor_assoc]

end Frame

/-- An operand `Dxyn`. -/
structure Stroke where
  x : Register
  y : Register
  height : Fin 16
  deriving DecidableEq, Repr

namespace Stroke

def operand (s : Stroke) : Int := 0xD000 + 0x100 * s.x.val + 0x10 * s.y.val + s.height.val

/-- The points that a draw covers with a set bit, some of which may lie off the frame. -/
def stencil (s : Stroke) (m : Machine) : Stencil :=
  m.sprite (m.reg s.x) (m.reg s.y) m.index s.height.val

/-- A draw whose place does not depend on the flag and whose rows lie in memory. -/
structure Allowed (s : Stroke) (m : Machine) : Prop where
  column : s.x ≠ 15
  row : s.y ≠ 15
  inside : s.height.val = 0 ∨ m.index + s.height.val ≤ 4096

/-- Whether a draw covers a pixel of the frame that is lit, or one that is not. -/
def Hits (s : Stroke) (m : Machine) (lit : Bool) : Prop :=
  ∃ u v, m.frame.inBounds u v = true ∧ m.frame.shows u v = lit ∧ s.stencil m u v = true

end Stroke

namespace Machine

variable {m : Machine} {s t : Stroke} {strokes : List Stroke}

/-- The machine after a draw. -/
def stroked (m : Machine) (s : Stroke) : Machine :=
  { m.drawn s.x s.y s.height.val with operand := s.operand }

theorem frame_stroked (m : Machine) (s : Stroke) :
    (m.stroked s).frame = m.frame.inverted (s.stencil m) := rfl

theorem registers_stroked (m : Machine) (s : Stroke) :
    (m.stroked s).registers =
      (m.setReg 15 (if m.frame.meets (s.stencil m) then 1 else 0)).registers := rfl

theorem reg_stroked (size : m.registers.size = 16) (s : Stroke) (z : Register) :
    (m.stroked s).reg z =
      if 15 = z then if m.frame.meets (s.stencil m) then 1 else 0 else m.reg z := by
  rw [← reg_setReg size]
  simp only [reg, registers_stroked]

theorem Nominal.repainted (h : m.Nominal) (frame : Frame 64 32) (redraw : Bool) (operand : Int) :
    { m with frame, redraw, operand }.Nominal :=
  { h with }

theorem Nominal.stroked (h : m.Nominal) (s : Stroke) : (m.stroked s).Nominal := by
  -- Opened first, for comparing the machines as a whole would compute their frames.
  simp only [Machine.stroked, drawn]
  exact (h.setReg 15 (Octet.ofBool _)).repainted _ _ _

/-- What a draw covers is the same after another draw. -/
theorem stencil_stroked (h : m.Nominal) (allowed : t.Allowed m) :
    t.stencil (m.stroked s) = t.stencil m := by
  have column : (m.stroked s).reg t.x = m.reg t.x :=
    (reg_stroked h.registers s t.x).trans (if_neg allowed.column.symm)
  have row : (m.stroked s).reg t.y = m.reg t.y :=
    (reg_stroked h.registers s t.y).trans (if_neg allowed.row.symm)
  simp only [Stroke.stencil, column, row]
  rfl

theorem allowed_stroked (allowed : t.Allowed m) : t.Allowed (m.stroked s) :=
  { allowed with }

theorem frame_foldl_stroked (h : m.Nominal) (allowed : ∀ s ∈ strokes, s.Allowed m) :
    (strokes.foldl stroked m).frame =
      m.frame.inverted (.parity (strokes.map (·.stencil m))) := by
  rw [← Frame.foldl_inverted]
  induction strokes generalizing m with
  | nil => rfl
  | cons s rest ih =>
    obtain ⟨-, others⟩ := List.forall_mem_cons.mp allowed
    -- The places of the other draws are read off the machine after the first.
    have kept : rest.map (·.stencil (m.stroked s)) = rest.map (·.stencil m) :=
      List.map_congr_left fun t member => stencil_stroked h (others t member)
    have later := ih (h.stroked s) fun t member => allowed_stroked (others t member)
    rw [kept, frame_stroked] at later
    rw [List.foldl_cons, List.map_cons, List.foldl_cons, later]

/-- A draw that is made twice gives back the frame. -/
theorem frame_stroked_stroked (h : m.Nominal) (allowed : s.Allowed m) :
    ((m.stroked s).stroked s).frame = m.frame := by
  rw [frame_stroked, stencil_stroked h allowed, frame_stroked, Frame.inverted_twice]

/-- Whether the flag register holds the answer to a question. -/
def Tells (m : Machine) (answer : Prop) : Prop :=
  m.reg 15 = 1 ∧ answer ∨ m.reg 15 = 0 ∧ ¬answer

theorem tells_stroked (h : m.Nominal) (s : Stroke) : (m.stroked s).Tells (s.Hits m true) := by
  have flag := reg_stroked h.registers s 15
  rw [if_pos rfl] at flag
  unfold Tells Stroke.Hits
  rw [← Frame.meets_iff m.frame (by decide), flag]
  cases m.frame.meets (s.stencil m) <;> simp

/-- A draw meets a lit pixel the second time exactly if it met one that was not lit the first. -/
theorem hits_stroked (h : m.Nominal) (allowed : s.Allowed m) :
    s.Hits (m.stroked s) true ↔ s.Hits m false := by
  simp only [Stroke.Hits, stencil_stroked h allowed, frame_stroked, Frame.inBounds_inverted]
  refine exists_congr fun u => exists_congr fun v => and_congr_right fun on => ?_
  rw [Frame.shows_inverted m.frame _ on]
  cases s.stencil m u v <;> simp

end Machine

namespace Console

open Machine

variable {σ : Type} [RandomSource σ] {c : Console σ} {strokes : List Stroke}

theorem process_stroke (h : c.machine.Nominal) {s : Stroke} (allowed : s.Allowed c.machine) :
    c.process s.operand = ⟨{ c with machine := c.machine.stroked s }, none⟩ := by
  have decoded : Instruction.decode s.operand = some (.draw s.x s.y s.height) :=
    Instruction.decode_draw s.x s.y s.height
  exact process_of_ok h decoded rfl (withinMemory_eq_ok_iff.mpr ⟨allowed.inside, rfl⟩)

theorem machine_process_twice (h : c.machine.Nominal) {s : Stroke}
    (allowed : s.Allowed c.machine) :
    (c.process s.operand).console.machine = c.machine.stroked s ∧
      ((c.process s.operand).console.process s.operand).console.machine =
        (c.machine.stroked s).stroked s := by
  rw [process_stroke h allowed]
  have again := process_stroke (c := { c with machine := c.machine.stroked s }) (h.stroked s)
    (allowed_stroked allowed)
  exact ⟨rfl, congrArg (·.console.machine) again⟩

/-- The operations that make some draws. -/
def draws (strokes : List Stroke) : List Operation := strokes.map (.process ·.operand)

theorem performAll_draws_cons (h : c.machine.Nominal) {s : Stroke} (allowed : s.Allowed c.machine)
    (rest : List Stroke) :
    c.performAll (draws (s :: rest)) =
      { c with machine := c.machine.stroked s }.performAll (draws rest) := by
  have split : c.performAll (draws (s :: rest)) =
      (c.process s.operand).console.performAll (draws rest) := rfl
  rw [split, process_stroke h allowed]

theorem performAll_draws (h : c.machine.Nominal) (allowed : ∀ s ∈ strokes, s.Allowed c.machine) :
    c.performAll (draws strokes) = { c with machine := strokes.foldl stroked c.machine } := by
  induction strokes generalizing c with
  | nil => rfl
  | cons s rest ih =>
    obtain ⟨first, others⟩ := List.forall_mem_cons.mp allowed
    rw [performAll_draws_cons h first]
    exact ih (h.stroked s) fun t member => allowed_stroked (others t member)

theorem frame_performAll_draws (h : c.machine.Nominal)
    (allowed : ∀ s ∈ strokes, s.Allowed c.machine) :
    (c.performAll (draws strokes)).machine.frame =
      c.machine.frame.inverted (.parity (strokes.map (·.stencil c.machine))) := by
  rw [performAll_draws h allowed]
  exact frame_foldl_stroked h allowed

/-- A draw that is allowed before others is carried out after them. -/
theorem process_after_draws (h : c.machine.Nominal)
    (allowed : ∀ t ∈ strokes, t.Allowed c.machine) {s : Stroke} (last : s.Allowed c.machine) :
    ((c.performAll (draws strokes)).process s.operand).failure? = none := by
  induction strokes generalizing c with
  | nil => exact congrArg Outcome.failure? (process_stroke h last)
  | cons t rest ih =>
    obtain ⟨first, others⟩ := List.forall_mem_cons.mp allowed
    rw [performAll_draws_cons h first]
    exact ih (h.stroked t) (fun u member => allowed_stroked (others u member))
      (allowed_stroked last)

/-- Draws whose places do not depend on the flag, and whose rows lie in memory, are all carried
out. A pixel is inverted if an odd number of them covers it with a set bit, so their order does
not matter to the frame. A draw that is made twice gives back the frame: after the first the
flag tells whether a covered pixel was lit, and after the second whether one had not been lit
before the first. -/
theorem draws_overlay (h : c.machine.Nominal) :
    (∀ strokes : List Stroke, (∀ s ∈ strokes, s.Allowed c.machine) →
      let d := c.performAll (draws strokes)
      (∀ before s, before ++ [s] <+: strokes →
        ((c.performAll (draws before)).process s.operand).failure? = none) ∧
      (∀ u v, c.machine.frame.inBounds u v = true →
        d.machine.frame.shows u v = (c.machine.frame.shows u v ^^
          decide (strokes.countP (fun s => s.stencil c.machine u v) % 2 = 1))) ∧
      ∀ others : List Stroke, others.Perm strokes →
        (c.performAll (draws others)).machine.frame = d.machine.frame) ∧
    ∀ s : Stroke, s.Allowed c.machine →
      let d := (c.process s.operand).console
      let e := (d.process s.operand).console
      e.machine.frame = c.machine.frame ∧
      d.machine.Tells (s.Hits c.machine true) ∧ e.machine.Tells (s.Hits c.machine false) := by
  constructor
  · intro strokes allowed d
    have frame := frame_performAll_draws h allowed
    refine ⟨?_, ?_, ?_⟩
    · intro before s first
      have fine : ∀ t ∈ before ++ [s], t.Allowed c.machine := fun t member =>
        allowed t (first.subset member)
      exact process_after_draws h (fun t member => fine t (List.mem_append_left _ member))
        (fine s (by simp))
    · intro u v on
      have pixel := Frame.shows_inverted c.machine.frame
        (.parity (strokes.map (·.stencil c.machine))) on
      rw [← frame, Stencil.parity, List.countP_map] at pixel
      exact pixel
    · intro others same
      have fine : ∀ s ∈ others, s.Allowed c.machine := fun s member =>
        allowed s (same.mem_iff.mp member)
      rw [frame_performAll_draws h fine, Stencil.parity_perm (same.map _), ← frame]
  · intro s allowed d e
    obtain ⟨first, second⟩ : d.machine = c.machine.stroked s ∧
        e.machine = (c.machine.stroked s).stroked s := machine_process_twice h allowed
    rw [second, first, ← hits_stroked h allowed]
    exact ⟨frame_stroked_stroked h allowed, tells_stroked h s, tells_stroked (h.stroked s) s⟩

/-- Two shapes over one another in the top left corner, in either order, and the first of them
twice. -/
theorem draws_overlay_top_left :
    let c := (assemble ⟨true, true⟩ (Tape.repeating #[]) .debug).reset
    let whole : Stroke := ⟨0, 0, 5⟩
    let half : Stroke := ⟨0, 1, 3⟩
    c.machine.Nominal ∧ (∀ s ∈ [whole, half], s.Allowed c.machine) ∧
    (c.performAll (draws [half, whole])).machine.frame =
      (c.performAll (draws [whole, half])).machine.frame ∧
    (c.process whole.operand).console.machine.Tells (whole.Hits c.machine true) ∧
    ((c.process whole.operand).console.process whole.operand).console.machine.frame =
      c.machine.frame := by
  intro c whole half
  have nominal : c.machine.Nominal := (consistent_reset _).toNominal
  have first : whole.Allowed c.machine := ⟨by decide, by decide, .inr (by decide)⟩
  have second : half.Allowed c.machine := ⟨by decide, by decide, .inr (by decide)⟩
  have allowed : ∀ s ∈ [whole, half], s.Allowed c.machine :=
    List.forall_mem_cons.mpr ⟨first, by simpa using second⟩
  obtain ⟨several, twice⟩ := draws_overlay nominal
  obtain ⟨-, -, ordered⟩ := several [whole, half] allowed
  obtain ⟨restored, told, -⟩ := twice whole first
  exact ⟨nominal, allowed, ordered [half, whole] (.swap whole half []), told, restored⟩

end Console

end HexConsole
