import Mathlib.Algebra.GroupWithZero.Nat
import HexConsole.Program
import HexConsole.Proofs.Canvas
import HexConsole.Proofs.Loose
import HexConsole.Proofs.Turns

/-!
# What a host does to its machine

A play in a window is a run of the console: each turn ticks once for each event of the host's
timer, hands over the keyboard, runs one cycle, ticks once more if the timers are the cycle's, and
acknowledges the frame. Main statement: the turns are played in order up to the one in which the
user leaves or a cycle fails, and the machine at the end is the one that these operations, and no
others, leave.
-/
namespace HexConsole

namespace Turn

/-- What a turn does up to its cycle: the ticks that the host's timer asks for, and then the
keyboard. -/
def opening (t : Turn) : List Operation :=
  List.replicate (t.events.count .timer) .tick ++ [.setKeys t.keypad.toList]

/-- What a turn does after a cycle that has not failed, with the tick of the cycle if it is not the
host who ticks. -/
def closing (ticks : Bool) : List Operation := (if ticks then [.tick] else []) ++ [.clearRedraw]

/-- What a whole turn does. -/
def operations (ticks : Bool) (t : Turn) : List Operation :=
  t.opening ++ .cycle :: closing ticks

/-- What a play does: some whole turns, and a last one that stops short if its cycle fails. -/
def performed (ticks : Bool) (steady : List Turn) (t : Turn) (failed : Bool) : List Operation :=
  steady.flatMap (operations ticks) ++ t.opening ++ .cycle :: if failed then [] else closing ticks

theorem continues_opening (t : Turn) : ∀ o ∈ t.opening, o.continues = true := by
  intro o member
  simp only [opening, List.mem_append, List.mem_replicate, List.mem_singleton] at member
  obtain ⟨-, rfl⟩ | rfl := member <;> rfl

theorem continues_operations (ticks : Bool) (t : Turn) :
    ∀ o ∈ t.operations ticks, o.continues = true := by
  intro o member
  rw [operations, List.mem_append, List.mem_cons] at member
  obtain opened | rfl | closed := member
  · exact t.continues_opening o opened
  · rfl
  · cases ticks with
    | false =>
      rw [List.mem_singleton.mp closed]
      rfl
    | true =>
      obtain rfl | rest := List.mem_cons.mp closed
      · rfl
      · rw [List.mem_singleton.mp rest]
        rfl

theorem cycle_not_mem_opening (t : Turn) : .cycle ∉ t.opening := by
  simp [opening]

theorem count_tick_operations (ticks : Bool) (t : Turn) :
    (t.operations ticks).count .tick = t.events.count .timer + ticks.toNat := by
  cases ticks <;> simp [operations, opening, closing]

theorem count_tick_performed (ticks : Bool) (steady : List Turn) (t : Turn) (failed : Bool) :
    (performed ticks steady t failed).count .tick =
      ((steady ++ [t]).map fun u => u.events.count .timer).sum +
        (if ticks then steady.length + (!failed).toNat else 0) := by
  have whole : (steady.flatMap (operations ticks)).count .tick =
      (steady.map fun u => u.events.count .timer).sum + steady.length * ticks.toNat := by
    induction steady with
    | nil => simp
    | cons u rest ih =>
      rw [List.flatMap_cons, List.count_append, ih, count_tick_operations, List.map_cons,
        List.sum_cons, List.length_cons, Nat.add_one_mul]
      omega
  cases ticks <;> cases failed <;>
    simp [performed, opening, closing, whole] <;> omega

end Turn

namespace Console

variable {σ : Type} [RandomSource σ]

/-- The console at the moment when the cycle of a turn starts, after some whole turns. -/
def atCycle (ticks : Bool) (c : Console σ) (done : List Turn) (t : Turn) : Console σ :=
  c.performAll (done.flatMap (Turn.operations ticks) ++ t.opening)

theorem performAll_append (c : Console σ) (first second : List Operation) :
    c.performAll (first ++ second) = (c.performAll first).performAll second :=
  List.foldl_append

theorem atCycle_cons (ticks : Bool) (c : Console σ) (u : Turn) (done : List Turn) (t : Turn) :
    c.atCycle ticks (u :: done) t =
      ((c.performAll u.opening).cycle.console.performAll (Turn.closing ticks)).atCycle
        ticks done t := by
  have first : c.performAll (u.operations ticks) =
      (c.performAll u.opening).cycle.console.performAll (Turn.closing ticks) := by
    rw [Turn.operations, performAll_append]
    rfl
  rw [← first]
  unfold atCycle
  rw [List.flatMap_cons, List.append_assoc, performAll_append]

/-- A play ends with the cycle of its last turn, and what comes after it. -/
theorem performAll_performed (ticks : Bool) (c : Console σ) (steady : List Turn) (t : Turn)
    (failed : Bool) :
    c.performAll (Turn.performed ticks steady t failed) =
      (c.atCycle ticks steady t).cycle.console.performAll
        (if failed then [] else Turn.closing ticks) := by
  unfold Turn.performed atCycle
  rw [performAll_append]
  rfl

theorem keys_atCycle (ticks : Bool) (c : Console σ) (done : List Turn) (t : Turn) :
    (c.atCycle ticks done t).machine.keys = t.keypad := by
  unfold atCycle Turn.opening
  rw [← List.append_assoc, performAll_append]
  simp only [performAll, List.foldl_cons, List.foldl_nil, perform_setKeys]

/-- Up to its cycle a turn moves nothing but timers, tone and keys. -/
theorem machine_opening (c : Console σ) (t : Turn) :
    (c.performAll t.opening).machine = { c.machine with
      delay := (c.performAll t.opening).machine.delay
      sound := (c.performAll t.opening).machine.sound
      tone := (c.performAll t.opening).machine.tone
      keys := t.keypad } := by
  have ticked (c : Console σ) (n : Nat) : ∃ delay sound tone,
      (c.performAll (List.replicate n .tick)).machine = { c.machine with delay, sound, tone } := by
    induction n generalizing c with
    | zero => exact ⟨_, _, _, rfl⟩
    | succ n ih =>
      obtain ⟨delay, sound, tone, later⟩ := ih c.tick
      rw [machine_tick] at later
      exact ⟨delay, sound, tone, later⟩
  obtain ⟨delay, sound, tone, before⟩ := ticked c (t.events.count .timer)
  rw [Turn.opening, performAll_append]
  simp only [performAll, List.foldl_cons, List.foldl_nil, perform_setKeys]
  simp only [performAll] at before
  rw [before]

theorem consistent_atCycle (ticks : Bool) {c : Console σ} (h : c.machine.Consistent)
    (done : List Turn) (t : Turn) : (c.atCycle ticks done t).machine.Consistent := by
  apply consistent_performAll_continues h
  intro o member
  obtain earlier | now := List.mem_append.mp member
  · obtain ⟨u, -, within⟩ := List.mem_flatMap.mp earlier
    exact u.continues_operations ticks o within
  · exact t.continues_opening o now

end Console

namespace Host

variable {σ δ : Type} [RandomSource σ]

/-! ## Turns -/

theorem console_events (h : Host σ δ) (events : List Event) :
    (events.foldl handle h).console =
      h.console.performAll (List.replicate (events.count .timer) .tick) := by
  induction events generalizing h with
  | nil => rfl
  | cons e rest ih =>
    rw [List.foldl_cons, ih]
    cases e with
    | timer =>
      rw [List.count_cons_self, List.replicate_succ]
      rfl
    | quit | keyDown | keyUp => rw [List.count_cons_of_ne (by simp)]; rfl

theorem console_ready (delay : Amount) (h : Host σ δ) (t : Turn) :
    (h.ready delay t).console = h.console.performAll t.opening := by
  have ticked := console_events (h.see (.waited delay h.console.machine)) t.events
  rw [Turn.opening, Console.performAll_append]
  simp only [Console.performAll, List.foldl_cons, List.foldl_nil, Console.perform_setKeys]
  simp only [Console.performAll] at ticked
  simp only [ready, holding, ticked]
  rfl

variable [Display δ] [LawfulDisplay δ] {scale : Int} {delay : Amount}
  (waits : Display.Waits δ delay)
include waits

/-- What one turn does to its console, seen from a console whose timers are the host's. -/
theorem turn_account {h : Host σ δ} (fitted : h.window.Fitted scale 64 32) (t : Turn) :
    let o := (h.console.loose.performAll t.opening).cycle
    (h.turn delay t).2 = o.failure?.map .machine ∧
      (h.turn delay t).1.console.loose = o.console.performAll
        (if o.failure?.isSome then [] else Turn.closing h.console.wiring.ticksAfterCycle) ∧
      (h.turn delay t).1.console.wiring = h.console.wiring := by
  intro o
  have started : (h.ready delay t).console.loose = h.console.loose.performAll t.opening := by
    rw [console_ready, Console.loose_performAll _ t.continues_opening t.cycle_not_mem_opening]
  have wired : (h.ready delay t).console.wiring = h.console.wiring := by
    rw [console_ready, Console.wiring_performAll _ t.continues_opening]
  obtain ⟨failure, ended⟩ := Console.cycle_loose (h.ready delay t).console
  rw [started] at failure ended
  obtain ⟨played, final, -, -⟩ := turn_cycle waits fitted t
  rw [← failure] at ended played final
  have cycled := (Console.wiring_cycle (h.ready delay t).console).trans wired
  change _ = o.failure?.map _ at played
  change _ = if o.failure?.isSome then _ else _ at final
  change _ = if o.failure?.isNone && _ then o.console.tick else o.console at ended
  refine ⟨played, ?_, ?_⟩
  · rw [final]
    rw [wired] at ended
    cases failed : o.failure? with
    | some e =>
      rw [failed] at ended
      exact ended
    | none =>
      rw [failed] at ended
      have withdrawn (d : Console σ) : d.clearRedraw.loose = d.loose.clearRedraw := rfl
      simp only [Option.isSome_none, Bool.false_eq_true, if_false, withdrawn, ended]
      cases h.console.wiring.ticksAfterCycle <;> rfl
  · rw [final]
    cases o.failure? <;> exact cycled

omit waits

/-- How the turns of a script that are played lie in it: they come in order, only the last of them
may fail, and it has failed if the script goes on after it. -/
structure Account (ticks : Bool) (c : Console σ) (script steady : List Turn) (t : Turn)
    (rest : List Turn) : Prop where
  order : steady ++ t :: rest = script
  calm : ∀ done u others, steady = done ++ u :: others →
    (c.atCycle ticks done u).cycle.failure? = none
  whole : (c.atCycle ticks steady t).cycle.failure? = none → rest = []

theorem Account.first {ticks : Bool} {c : Console σ} {t : Turn} {rest : List Turn}
    (whole : (c.performAll t.opening).cycle.failure? = none → rest = []) :
    Account ticks c (t :: rest) [] t rest where
  order := rfl
  calm done u others split := by simp at split
  whole := whole

theorem Account.cons {ticks : Bool} {c : Console σ} {script steady rest : List Turn} {t u : Turn}
    (done : (c.performAll u.opening).cycle.failure? = none)
    (account : Account ticks
      ((c.performAll u.opening).cycle.console.performAll (Turn.closing ticks))
      script steady t rest) :
    Account ticks c (u :: script) (u :: steady) t rest where
  order := congrArg (u :: ·) account.order
  calm earlier v others split := by
    obtain ⟨rfl, first⟩ | ⟨earlier, rfl, later⟩ := List.cons_eq_append_iff.mp split
    · cases first
      exact done
    · rw [Console.atCycle_cons]
      exact account.calm earlier v others later
  whole ended := by
    rw [Console.atCycle_cons] at ended
    exact account.whole ended

theorem play_account (waits : Display.Waits δ delay) {h : Host σ δ}
    (fitted : h.window.Fitted scale 64 32) {before : List Turn}
    (stays : ∀ t ∈ before, t.leaves = false) {last : Turn} (leaves : last.leaves = true)
    (after : List Turn) :
    let ticks := h.console.wiring.ticksAfterCycle
    let c := h.console.loose
    let played := h.play delay (before ++ last :: after)
    ∃ steady t rest, Account ticks c (before ++ [last]) steady t rest ∧
      played.2 = (c.atCycle ticks steady t).cycle.failure?.map .machine ∧
      played.1.console.loose = c.performAll (Turn.performed ticks steady t played.2.isSome) ∧
      played.1.waits.length = h.waits.length + (steady.length + 1) := by
  induction before generalizing h with
  | nil =>
    intro ticks c played
    have alone : played = h.turn delay last := play_of_leaves leaves after
    obtain ⟨mishap, ends, -⟩ := turn_account waits fitted last
    obtain ⟨-, -, -, waited⟩ := turn_cycle waits fitted last
    rw [alone]
    refine ⟨[], last, [], .first fun _ => rfl, mishap, ?_, ?_⟩
    · rw [Console.performAll_performed, ends, mishap, Option.isSome_map]
      rfl
    · rw [waited, List.length_append]
      rfl
  | cons u before ih =>
    intro ticks c played
    obtain ⟨first, others⟩ := List.forall_mem_cons.mp stays
    obtain ⟨mishap, ends, wired⟩ := turn_account waits fitted u
    obtain ⟨-, -, still, waited⟩ := turn_cycle waits fitted u
    cases fails : (c.performAll u.opening).cycle.failure? with
    | some e =>
      have alone : played = h.turn delay u := play_of_failure (mishap.trans (by rw [fails]; rfl)) _
      rw [alone]
      refine ⟨[], u, before ++ [last], .first ?_, mishap, ?_, ?_⟩
      · intro ended
        exact absurd (fails.symm.trans ended) (by simp)
      · rw [Console.performAll_performed, ends, mishap, Option.isSome_map]
        rfl
      · rw [waited, List.length_append]
        rfl
    | none =>
      have goes : played = (h.turn delay u).1.play delay (before ++ last :: after) :=
        play_of_stays (mishap.trans (by rw [fails]; rfl)) first _
      rw [fails] at ends
      simp only [Option.isSome_none, Bool.false_eq_true, if_false] at ends
      obtain ⟨steady, t, rest, account, failed, final, counted⟩ := ih still others
      rw [wired, ends] at account failed final
      rw [goes]
      refine ⟨u :: steady, t, rest, account.cons fails, ?_, ?_, ?_⟩
      · rw [Console.atCycle_cons]
        exact failed
      · rw [final, Console.performAll_performed, Console.performAll_performed,
          Console.atCycle_cons]
      · rw [counted, waited, List.length_append, List.length_singleton, List.length_cons]
        omega

end Host

/-- The machines that the turns of a run have started with. -/
def Run.waits {δ : Type} (r : Run δ) : List Machine := r.scenes.filterMap Scene.waiting?

namespace Program

section Booting

variable {σ : Type}

/-- A program that fits is booted. -/
theorem boot_of_fits {settings : CommandLine.Settings}
    (named : settings.rom.contains '\x00' = false)
    {rom : List Byte} (fits : rom.length ≤ programSpace) (source : σ) :
    boot settings (.ok rom) source =
      (((assembled settings source).reset.load rom).console, none) := by
  simp only [boot, named, Bool.false_eq_true, if_false, Console.load_of_fits fits, Option.map_none]

/-- A boot depends neither on whether there is a window nor on the number of cycles. -/
theorem boot_mode (settings : CommandLine.Settings) (headless : Bool) (cycles : Amount)
    (cartridge : Except ReadFailure (List Byte)) (source : σ) :
    boot { settings with headless, cycles } cartridge source = boot settings cartridge source := rfl

end Booting

variable {σ δ : Type} [RandomSource σ] [Display δ]

/-- A run in a window is the play of its script. -/
theorem runWindowed_account {d : δ} {scale : Int} {window : Window δ}
    (opens : Window.opened d scale 64 32 = .ok window) (delay : Amount) (console : Console σ)
    (script : List Turn) :
    let played := (Host.launched window console).play delay script
    let run := runWindowed d scale delay console script
    run.ending = .ofTrouble? (played.2.map .ofMishap) ∧
      run.machine? = some played.1.console.machine ∧ run.waits = played.1.waits := by
  intro played run
  have presented := Host.present_eq (Host.opened_eq opens console) delay script
  simp only [run, runWindowed, presented]
  change _ ∧ some (if played.2.isSome then played.1 else played.1.see .closed).console.machine = _ ∧
    (if played.2.isSome then played.1 else played.1.see .closed).waits = _
  cases played.2 with
  | some e => exact ⟨rfl, rfl, rfl⟩
  | none => exact ⟨rfl, rfl, (Host.waits_see _ .closed).trans (List.append_nil _)⟩

/-- A run goes on with the console that has been booted, unless there was trouble. -/
theorem runCartridge_of_boot (d : δ) {settings : CommandLine.Settings}
    {cartridge : Except ReadFailure (List Byte)} {entropy seed : Int}
    (seeded : settings.seed?.getD (.number entropy) = .number seed) {console : Console Twister}
    {trouble? : Option Trouble}
    (booted : boot settings cartridge (Twister.ofSeed seed) = (console, trouble?))
    (headless : Bool) (cycles : Amount) (script : List Turn) :
    runCartridge d { settings with headless, cycles } cartridge script entropy =
      match trouble? with
      | some trouble => { Run.ofConsole console (some trouble) "" [] with machine? := none }
      | none => (runBooted d { settings with headless, cycles } console script).after
          (.ready console.machine) := by
  simp only [runCartridge, seeded, runWith, boot_mode, booted]
  cases trouble? <;> rfl

/-- A run of a program that fits is the run of a console that has been booted with it. -/
theorem runCartridge_of_fits (d : δ) {settings : CommandLine.Settings} {entropy seed : Int}
    (seeded : settings.seed?.getD (.number entropy) = .number seed)
    (named : settings.rom.contains '\x00' = false) {rom : List Byte}
    (fits : rom.length ≤ programSpace) (script : List Turn) :
    let console := ((assembled settings (Twister.ofSeed seed)).reset.load rom).console
    runCartridge d settings (.ok rom) script entropy =
      (runBooted d settings console script).after (.ready console.machine) := by
  exact runCartridge_of_boot d seeded (boot_of_fits named fits _) settings.headless settings.cycles
    script

theorem runCartridge_windowed (d : δ) {settings : CommandLine.Settings}
    (windowed : settings.headless = false) {scale : Int} (scaled : settings.scale = .number scale)
    {entropy seed : Int} (seeded : settings.seed?.getD (.number entropy) = .number seed)
    (named : settings.rom.contains '\x00' = false) {rom : List Byte}
    (fits : rom.length ≤ programSpace) (script : List Turn) :
    let console := ((assembled settings (Twister.ofSeed seed)).reset.load rom).console
    runCartridge d settings (.ok rom) script entropy =
      (runWindowed d scale settings.delay console script).after (.ready console.machine) := by
  have run := runCartridge_of_fits d seeded named fits script
  simp only [runBooted, windowed, scaled, Bool.false_eq_true, if_false] at run
  exact run

omit [Display δ] in
/-- A run that ends with a cycle tells by its exit code whether the cycle has failed. -/
theorem ending_of_cycle {c : Console σ} (h : c.machine.Nominal) :
    Ending.ofTrouble? (c.cycle.failure?.map Trouble.ofFailure) =
      .exited c.cycle.failure?.isSome.toNat := by
  obtain ⟨-, f, failed, -⟩ | ⟨-, -, -, done, -⟩ := Console.cycle_executed h
  · rw [failed]
    rfl
  · rw [done]
    rfl

variable [LawfulDisplay δ]

/-- A program that jumps on the spot. -/
def jumping : List Byte := [0x12, 0x00]

theorem jumping_fits : jumping.length ≤ programSpace := by decide

theorem decode_jumping :
    Instruction.decode ((jumping[0].toNat : Int) * 256 + (jumping[1].toNat : Int)) =
      some (.jump 0x200) := by
  decide

omit [Display δ] [LawfulDisplay δ] in
/-- A program that jumps on the spot does not fail in the first turn. -/
theorem failure_jumping (c : Console σ) (ticks : Bool) (t : Turn) :
    ((c.reset.load jumping).console.atCycle ticks [] t).cycle.failure? = none := by
  generalize booted : (c.reset.load jumping).console = start
  have consistent : start.machine.Consistent := by
    rw [← booted]
    exact Console.consistent_reset_load _ _
  have machine : start.machine = Machine.initial.loaded jumping := by
    rw [← booted]
    exact Console.machine_reset_load _ jumping_fits
  have opened : (start.atCycle ticks [] t).machine = _ := start.machine_opening t
  have nominal := (Console.consistent_atCycle ticks consistent [] t).toNominal
  have executing : (start.atCycle ticks [] t).executing = some (.jump 0x200) :=
    Console.executing_loaded jumping_fits nominal (by rw [opened, machine])
      (by rw [opened, machine]; rfl) (k := 0) (by rw [opened, machine]; rfl) (by decide)
      decode_jumping
  rw [Console.cycle_of_ok nominal executing rfl]

/-- What a run in a window does to the machine, on every display that opens the window and can
wait, and for every script in which the user leaves. The turns are played in order up to the one
in which the user leaves or a cycle fails, and the exit code tells which. In each turn the cycle
runs with the keys down that are held in this turn. The timers tick once for each event of the
host's timer in a turn that is played, and once after each cycle that has not failed if the timers
are the cycle's. -/
theorem run_account {d : δ} {settings : CommandLine.Settings}
    (windowed : settings.headless = false) {scale : Int} (scaled : settings.scale = .number scale)
    (positive : 1 ≤ scale) (grants : Display.Grants d (64 * scale) (32 * scale))
    (waits : Display.Waits δ settings.delay) {entropy seed : Int}
    (seeded : settings.seed?.getD (.number entropy) = .number seed)
    (named : settings.rom.contains '\x00' = false) {rom : List Byte}
    (fits : rom.length ≤ programSpace) {before : List Turn}
    (stays : ∀ t ∈ before, t.leaves = false) {last : Turn} (leaves : last.leaves = true)
    (after : List Turn) :
    let ticks := !settings.decoupleTimers
    let decoupled := assembled { settings with decoupleTimers := true } (Twister.ofSeed seed)
    let c := (decoupled.reset.load rom).console
    let run := runCartridge d settings (.ok rom) (before ++ last :: after) entropy
    (∀ done t (k : Fin 16), (c.atCycle ticks done t).machine.keys[k] =
      t.held.contains (Keypad.code k)) ∧
    ∃ steady t rest, Host.Account ticks c (before ++ [last]) steady t rest ∧
      let failed := (c.atCycle ticks steady t).cycle.failure?.isSome
      run.ending = .exited failed.toNat ∧
      run.waits.length = steady.length + 1 ∧
      run.machine? = some (c.performAll (Turn.performed ticks steady t failed)).machine ∧
      (Turn.performed ticks steady t failed).count .tick =
        ((steady ++ [t]).map fun u => u.events.count .timer).sum +
          (if ticks then steady.length + (!failed).toNat else 0) := by
  intro ticks decoupled c run
  constructor
  · intro done t k
    rw [Console.keys_atCycle]
    simp [Turn.keypad, Keypad.ofHost]
  · let console := ((assembled settings (Twister.ofSeed seed)).reset.load rom).console
    have loose : console.loose = c := Console.loose_boot _ _ _ _
    have whole : run = (runWindowed d scale settings.delay console
        (before ++ last :: after)).after (.ready console.machine) :=
      runCartridge_windowed d windowed scaled seeded named fits _
    have loads : (Operation.load rom).continues = true := rfl
    have wired : console.wiring = ⟨ticks, true⟩ :=
      Console.wiring_perform (assembled settings (Twister.ofSeed seed)).reset loads
    obtain ⟨window, opens, fitted, -⟩ := Window.opened_of_grants positive grants
    have launched : (Host.launched window console).window.Fitted scale 64 32 := by
      rw [Host.window_launched]
      exact fitted
    have played := Host.play_account waits launched stays leaves after
    rw [Host.console_launched, Host.waits_launched, loose, wired] at played
    obtain ⟨steady, t, rest, account, mishap, final, counted⟩ := played
    obtain ⟨ending, machine, waited⟩ := runWindowed_account opens settings.delay console
      (before ++ last :: after)
    rw [mishap, Option.map_map] at ending
    rw [mishap, Option.isSome_map] at final
    refine ⟨steady, t, rest, account, ?_, ?_, ?_, Turn.count_tick_performed _ _ _ _⟩
    · rw [whole]
      have consistent : c.machine.Consistent := Console.consistent_reset_load _ rom
      exact ending.trans
        (ending_of_cycle (Console.consistent_atCycle ticks consistent steady t).toNominal)
    · rw [whole]
      refine (congrArg List.length waited).trans (counted.trans ?_)
      rw [List.length_nil, Nat.zero_add]
    · rw [whole]
      refine machine.trans ?_
      rw [← final]
      rfl

/-- The user leaves in the first turn, and the host's timer fires after that. Both this tick and
the one after the cycle happen. -/
theorem run_account_leaving :
    let canvas := Canvas.idle ⟨800, 600, by decide, by decide⟩
    let settings : CommandLine.Settings :=
      { CommandLine.Settings.standard with rom := "game.ch8", seed? := some (.number 1) }
    let last : Turn := ⟨[.quit, .timer], [97]⟩
    let run := runCartridge canvas settings (.ok jumping) [last] 0
    (settings.headless = false ∧ settings.scale = .number 10 ∧
      Display.Grants canvas (64 * 10) (32 * 10) ∧ Display.Waits Canvas settings.delay ∧
      settings.rom.contains '\x00' = false ∧ last.leaves = true) ∧
    run.ending = .exited 0 ∧ run.waits.length = 1 ∧
      (Turn.performed true [] last false).count .tick = 2 := by
  intro canvas settings last run
  have windowed : settings.headless = false := rfl
  have scaled : settings.scale = .number 10 := rfl
  have grants : Display.Grants canvas (64 * 10) (32 * 10) :=
    canvas.grants ⟨by decide, by decide⟩ ⟨by decide, by decide⟩
  have waits : Display.Waits Canvas settings.delay := Canvas.waits _
  have seeded : settings.seed?.getD (.number 0) = .number 1 := rfl
  have named : settings.rom.contains '\x00' = false := by simp [settings]
  have stays : ∀ t ∈ ([] : List Turn), t.leaves = false := nofun
  have leaves : last.leaves = true := by decide
  refine ⟨⟨windowed, scaled, grants, waits, named, leaves⟩, ?_⟩
  obtain ⟨-, steady, t, rest, account, ending, waited, -, -⟩ :=
    run_account windowed scaled (by decide) grants waits seeded named jumping_fits stays leaves []
  obtain ⟨rfl, rfl, rfl⟩ : steady = [] ∧ t = last ∧ rest = [] := by
    simpa [List.append_eq_singleton_iff] using account.order
  rw [failure_jumping] at ending
  exact ⟨ending, waited, by decide⟩

end Program

end HexConsole
