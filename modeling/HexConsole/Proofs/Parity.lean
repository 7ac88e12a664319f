import HexConsole.Proofs.Accounting
import HexConsole.Proofs.Alike
import HexConsole.Proofs.Latch
import HexConsole.Proofs.Runs

/-!
# With and without a window

A play in which nobody touches the machine does what as many cycles without a window do. Main
statement: the two runs of a program have the same exit code, start their cycles with the same
machines and end with the same machine, but for the request for a redraw, which a window withdraws
each time that it has shown the frame.
-/
namespace HexConsole

/-- A machine that has all its registers can report them. -/
theorem Machine.Nominal.reports {m : Machine} (h : m.Nominal) :
    ∃ registers, m.report = .ok registers := by
  have sixteen : 16 ≤ m.registers.size := Nat.le_of_eq h.registers.symm
  simp only [report, readings, dif_pos sixteen]
  exact ⟨_, rfl⟩

/-- A machine whose last frame has been shown. -/
def Machine.acknowledged (m : Machine) : Machine := { m with redraw := false }

/-- The second of two machines that are alike up to the request for a redraw. -/
theorem Machine.Alike.eq_withRedraw {m n : Machine} (h : Alike [.redraw] m n) :
    n = { m with redraw := n.redraw } := by
  obtain ⟨delay, sound, tone⟩ := h.clock (by simp)
  have keys := h.keypad (by simp)
  rw [h.rest, delay, sound, tone, keys]

theorem Machine.Alike.acknowledged {m n : Machine} (h : Alike [.redraw] m n) :
    n.acknowledged = m.acknowledged := by
  rw [h.eq_withRedraw]
  rfl

/-- A turn in which nobody touches the machine: the host's timer does not fire, and no key is held
that the machine has. Any other event may come, and any other key may be held. -/
structure Turn.Calm (t : Turn) : Prop where
  timer : .timer ∉ t.events
  keys : ∀ k : Fin 16, t.held.contains (Keypad.code k) = false

namespace Host

variable {σ δ : Type} [RandomSource σ]

/-! ## Turns in which nobody touches the machine -/

theorem keypad_of_calm {t : Turn} (calm : t.Calm) : t.keypad = Keypad.released := by
  apply Vector.ext
  intro k inside
  simp only [Turn.keypad, Keypad.ofHost, Keypad.released, Vector.getElem_ofFn,
    Vector.getElem_replicate]
  exact calm.keys ⟨k, inside⟩

/-- A calm turn comes to its cycle with the machine that it has started with. -/
theorem ready_of_calm (delay : Amount) {h : Host σ δ}
    (released : h.console.machine.keys = Keypad.released) {t : Turn} (calm : t.Calm) :
    (h.ready delay t).console = h.console := by
  have count : t.events.count .timer = 0 := List.count_eq_zero.mpr calm.timer
  rw [console_ready, Turn.opening, count, keypad_of_calm calm, ← released]
  simp only [List.replicate_zero, List.nil_append, Console.performAll, List.foldl_cons,
    List.foldl_nil, Console.perform_setKeys]

variable [Display δ]

/-- A host and a console without one that are at the same point of the same run. -/
structure Follows (scale : Int) (c : Console σ) (h : Host σ δ) : Prop where
  alike : Console.Alike [.redraw] c h.console
  consistent : c.machine.Consistent
  released : c.machine.keys = Keypad.released
  fitted : h.window.Fitted scale 64 32

variable {scale : Int} {c : Console σ} {h : Host σ δ}

/-- The machine of the host, if it does not ask for a redraw. -/
theorem Follows.machine (follows : Follows scale c h)
    (settled : h.console.machine.redraw = false) :
    h.console.machine = c.machine.acknowledged := by
  rw [follows.alike.machine.eq_withRedraw, settled]
  rfl

variable [LawfulDisplay δ] {delay : Amount} (waits : Display.Waits δ delay)
include waits

/-- A calm turn follows a cycle, and has shown the frame unless the cycle has failed. -/
theorem Follows.turn (follows : Follows scale c h) {t : Turn} (calm : t.Calm) :
    (h.turn delay t).2 = c.cycle.failure?.map .machine ∧
      Follows scale c.cycle.console (h.turn delay t).1 ∧
      (c.cycle.failure? = none → (h.turn delay t).1.console.machine.redraw = false) := by
  have alike := follows.alike
  have consistent : h.console.machine.Consistent := by
    rw [alike.machine.eq_withRedraw]
    exact follows.consistent.withRedraw _
  have released : h.console.machine.keys = Keypad.released := by
    rw [alike.machine.eq_withRedraw]
    exact follows.released
  obtain ⟨failure, ended⟩ := Console.cycle_alike alike follows.consistent.toNominal
    consistent.toNominal fun i _ => alike.machine.findsSame (by simp) (by simp)
  obtain ⟨played, final, fitted, -⟩ := turn_cycle waits follows.fitted t
  rw [ready_of_calm delay released calm, failure] at played final
  have next : c.cycle.console.machine.Consistent := Console.consistent_cycle follows.consistent
  have still : c.cycle.console.machine.keys = Keypad.released :=
    (Console.keys_cycle c).trans follows.released
  refine ⟨played, ⟨?_, next, still, fitted⟩, ?_⟩
  · rw [final]
    cases c.cycle.failure? with
    | some e => exact ended
    | none => exact ⟨ended.machine.withRedraw_right (by simp) false, ended.bytes, ended.wiring⟩
  · intro done
    rw [final, done]
    rfl

/-- The first turn of a play, if the run of the console is its first cycle. -/
theorem Follows.once (follows : Follows scale c h) (settled : h.console.machine.redraw = false)
    {t : Turn} (calm : t.Calm) {n : Nat} (one : (c.run n).2 = c.cycle ∧ c.starts n = [c]) :
    (h.turn delay t).2 = (c.run n).2.failure?.map .machine ∧
      (c.run n).2.console.machine.Alike [.redraw] (h.turn delay t).1.console.machine ∧
      (h.turn delay t).1.waits = h.waits ++ (c.starts n).map fun d => d.machine.acknowledged := by
  obtain ⟨mishap, next, -⟩ := follows.turn waits calm
  obtain ⟨-, -, -, waited⟩ := turn_cycle waits follows.fitted t
  rw [one.1, one.2, waited, follows.machine settled]
  exact ⟨mishap, next.alike.machine, rfl⟩

/-- A play of calm turns, up to the one in which the user leaves, is a run of as many cycles. -/
theorem Follows.play (follows : Follows scale c h) (settled : h.console.machine.redraw = false)
    {before : List Turn} (stays : ∀ t ∈ before, t.leaves = false) {last : Turn}
    (leaves : last.leaves = true) (calm : ∀ t ∈ before ++ [last], t.Calm) (after : List Turn) :
    let played := h.play delay (before ++ last :: after)
    let o := (c.run (before.length + 1)).2
    played.2 = o.failure?.map .machine ∧
      o.console.machine.Alike [.redraw] played.1.console.machine ∧
      played.1.waits =
        h.waits ++ (c.starts (before.length + 1)).map fun d => d.machine.acknowledged := by
  induction before generalizing c h with
  | nil =>
    intro played o
    have ends : played = h.turn delay last := play_of_leaves leaves after
    rw [ends]
    exact follows.once waits settled (calm last (by simp)) c.run_one
  | cons u before ih =>
    intro played o
    obtain ⟨first, others⟩ := List.forall_mem_cons.mp stays
    obtain ⟨now, later⟩ := List.forall_mem_cons.mp calm
    obtain ⟨mishap, next, shown⟩ := follows.turn waits now
    cases fails : c.cycle.failure? with
    | some e =>
      have ends : played = h.turn delay u := play_of_failure (mishap.trans (by rw [fails]; rfl)) _
      rw [ends]
      exact follows.once waits settled now (Console.run_succ_of_failure fails _)
    | none =>
      have goes : played = (h.turn delay u).1.play delay (before ++ last :: after) :=
        play_of_stays (mishap.trans (by rw [fails]; rfl)) first _
      obtain ⟨outcome, starts⟩ := Console.run_succ_of_success fails (before.length + 1)
      obtain ⟨-, -, -, waited⟩ := turn_cycle waits follows.fitted u
      obtain ⟨ending, alike, seen⟩ := ih next (shown fails) others later
      have started : o = (c.cycle.console.run (before.length + 1)).2 := outcome
      rw [goes, started, List.length_cons, starts]
      refine ⟨ending, alike, ?_⟩
      rw [seen, waited, follows.machine settled, List.append_assoc]
      rfl

end Host

namespace Program

section Booting

variable {σ : Type}

/-- A console that has been booted has got a program in a reset machine. -/
theorem booted_cases {settings : CommandLine.Settings}
    {cartridge : Except ReadFailure (List Byte)} {source : σ} {console : Console σ}
    (booted : boot settings cartridge source = (console, none)) :
    ∃ rom, console = ((assembled settings source).reset.load rom).console := by
  unfold boot at booted
  generalize (assembled settings source).reset = fresh at booted ⊢
  simp only at booted
  split_ifs at booted
  · simp at booted
  · cases cartridge with
    | error e => simp at booted
    | ok rom => exact ⟨rom, (congrArg Prod.fst booted).symm⟩

theorem keys_reset_load (c : Console σ) (rom : List Byte) :
    (c.reset.load rom).console.machine.keys = Keypad.released := by
  simp only [Console.load, Machine.load]
  cases Machine.refusal? rom.length <;> rfl

end Booting

variable {σ δ : Type} [RandomSource σ]

/-- A run without a window ends as its cycles do. -/
theorem runHeadless_account {console : Console σ} (h : console.machine.Consistent) (n : Nat) :
    let o := (console.run n).2
    let run : Run δ := runHeadless n console
    run.ending = .ofTrouble? (o.failure?.map .ofFailure) ∧
      run.machine? = some o.console.machine := by
  intro o run
  obtain ⟨registers, reported⟩ : ∃ registers, o.console.machine.report = .ok registers :=
    (Console.consistent_run h n).toNominal.reports
  have outcome : (console.run (n : Int).toNat).2 = o := rfl
  simp only [run, runHeadless, outcome]
  cases o.failure? with
  | some e => exact ⟨rfl, rfl⟩
  | none =>
    simp only [reported]
    exact ⟨rfl, rfl⟩

variable [Display δ]

/-- A run whose seed is blank breaks down. -/
theorem runCartridge_of_blank (d : δ) {settings : CommandLine.Settings} {entropy : Int}
    (blank : settings.seed?.getD (.number entropy) = .blank) (headless : Bool) (cycles : Amount)
    (cartridge : Except ReadFailure (List Byte)) (script : List Turn) :
    runCartridge d { settings with headless, cycles } cartridge script entropy =
      .ofBreakdown .blankSeed := by
  simp only [runCartridge, blank]

/-- A run of one cycle ends well if the cycle does not fail. -/
theorem headless_once (d : δ) {settings : CommandLine.Settings}
    (headless : settings.headless = true) (cycles : settings.cycles = .number 1)
    {entropy seed : Int} (seeded : settings.seed?.getD (.number entropy) = .number seed)
    (named : settings.rom.contains '\x00' = false) {rom : List Byte}
    (fits : rom.length ≤ programSpace)
    (done : ((assembled settings (Twister.ofSeed seed)).reset.load
      rom).console.cycle.failure? = none) (script : List Turn) :
    (runCartridge d settings (.ok rom) script entropy).ending = .exited 0 := by
  have run := runCartridge_of_fits d seeded named fits script
  simp only [runBooted, headless, if_true, cycles] at run
  have consistent := Console.consistent_reset_load (assembled settings (Twister.ofSeed seed)) rom
  have ending := (runHeadless_account (δ := δ) consistent 1).1
  rw [(Console.run_one _).1, done] at ending
  rw [run]
  exact ending

variable [LawfulDisplay δ]

/-- With a console that has been booted. -/
theorem runWindowed_eq_runHeadless {d : δ} {console : Console σ} (c : Console σ)
    (rom : List Byte) (booted : console = (c.reset.load rom).console) {scale : Int}
    (positive : 1 ≤ scale) (grants : Display.Grants d (64 * scale) (32 * scale)) {delay : Amount}
    (waits : Display.Waits δ delay) {before : List Turn}
    (stays : ∀ t ∈ before, t.leaves = false) {last : Turn} (leaves : last.leaves = true)
    (calm : ∀ t ∈ before ++ [last], t.Calm) (after : List Turn) :
    let q := before.length + 1
    let windowed := runWindowed d scale delay console (before ++ last :: after)
    let headless : Run δ := runHeadless q console
    windowed.ending = headless.ending ∧
      windowed.machine?.map Machine.acknowledged = headless.machine?.map Machine.acknowledged ∧
      windowed.waits = (console.starts q).map (fun d => d.machine.acknowledged) ∧
      headless.machine? = (console.starts q).getLast?.map fun d => d.cycle.console.machine := by
  intro q windowed headless
  have consistent : console.machine.Consistent := by
    rw [booted]
    exact Console.consistent_reset_load c rom
  obtain ⟨window, opens, fitted, -⟩ := Window.opened_of_grants positive grants
  have follows : Host.Follows scale console (Host.launched window console) := by
    refine ⟨?_, consistent, ?_, ?_⟩
    · rw [Host.console_launched]
      exact ⟨.refl _ _, fun _ => rfl, fun _ => rfl⟩
    · rw [booted]
      exact keys_reset_load c rom
    · rw [Host.window_launched]
      exact fitted
  have settled : (Host.launched window console).console.machine.redraw = false := by
    rw [Host.console_launched, booted]
    exact (Console.screen_reset_load c rom).2
  obtain ⟨mishap, alike, waited⟩ := follows.play waits settled stays leaves calm after
  obtain ⟨ending, final, seen⟩ := runWindowed_account opens delay console (before ++ last :: after)
  obtain ⟨ended, machine⟩ := runHeadless_account (δ := δ) consistent q
  obtain ⟨start, member, outcome⟩ := console.run_eq_last before.length
  refine ⟨?_, ?_, ?_, ?_⟩
  · rw [ending, mishap, ended, Option.map_map]
    rfl
  · rw [final, machine]
    exact congrArg some alike.acknowledged
  · rw [seen, waited, Host.waits_launched]
    rfl
  · rw [machine, member, outcome]
    rfl

omit [Display δ] [LawfulDisplay δ] in
/-- A program that jumps on the spot does not fail in its first cycle. -/
theorem failure_reset_jumping (c : Console σ) :
    (c.reset.load jumping).console.cycle.failure? = none := by
  have consistent := Console.consistent_reset_load c jumping
  have executing : (c.reset.load jumping).console.executing = some (.jump 0x200) :=
    Console.executing_reset_load c jumping_fits (by decide) decode_jumping
  rw [Console.cycle_of_ok consistent.toNominal executing rfl]

/-- A run in a window in which nobody touches the machine ends like a run without one, of as many
cycles as there are turns up to the one in which the user leaves: with the same exit code, and with
the same machine but for the request for a redraw. The turns that are played start with the
machines that the cycles start with. The display is any one that opens the window and can wait. -/
theorem windowed_eq_headless {d : δ} (settings : CommandLine.Settings) {scale : Int}
    (scaled : settings.scale = .number scale) (positive : 1 ≤ scale)
    (grants : Display.Grants d (64 * scale) (32 * scale))
    (waits : Display.Waits δ settings.delay)
    (cartridge : Except ReadFailure (List Byte)) (entropy : Int) {before : List Turn}
    (stays : ∀ t ∈ before, t.leaves = false) {last : Turn} (leaves : last.leaves = true)
    (calm : ∀ t ∈ before ++ [last], t.Calm) (after other : List Turn) :
    let q := before.length + 1
    let windowed := runCartridge d { settings with headless := false } cartridge
      (before ++ last :: after) entropy
    let headless := runCartridge d { settings with headless := true, cycles := .number q } cartridge
      other entropy
    windowed.ending = headless.ending ∧
      windowed.machine?.map Machine.acknowledged = headless.machine?.map Machine.acknowledged ∧
      ∀ seed console, settings.seed?.getD (.number entropy) = .number seed →
        boot settings cartridge (Twister.ofSeed seed) = (console, none) →
        windowed.waits = (console.starts q).map (fun d => d.machine.acknowledged) ∧
          headless.machine? = (console.starts q).getLast?.map fun d => d.cycle.console.machine := by
  intro q windowed headless
  cases seeded : settings.seed?.getD (.number entropy) with
  | blank =>
    have first : windowed = _ := runCartridge_of_blank d seeded false settings.cycles cartridge _
    have second : headless = _ := runCartridge_of_blank d seeded true (.number q) cartridge other
    rw [first, second]
    refine ⟨rfl, rfl, ?_⟩
    intro seed console blank
    cases blank
  | number seed =>
    cases booted : boot settings cartridge (Twister.ofSeed seed) with
    | mk console trouble? =>
      have same {other : Int} {d : Console Twister} (seeds : Amount.number seed = .number other)
          (boots : boot settings cartridge (Twister.ofSeed other) = (d, none)) :
          trouble? = none ∧ d = console := by
        cases seeds
        rw [booted, Prod.mk.injEq] at boots
        exact ⟨boots.2, boots.1.symm⟩
      have first : windowed = _ := runCartridge_of_boot d seeded booted false settings.cycles _
      have second : headless = _ := runCartridge_of_boot d seeded booted true (.number q) other
      cases trouble? with
      | some trouble =>
        rw [first, second]
        refine ⟨rfl, rfl, ?_⟩
        intro other d seeds boots
        exact absurd (same seeds boots).1 (by simp)
      | none =>
        obtain ⟨rom, ready⟩ := booted_cases booted
        obtain ⟨ending, final, waited, starts⟩ := runWindowed_eq_runHeadless _ rom ready positive
          grants waits stays leaves calm after
        simp only [runBooted, scaled, Bool.false_eq_true, if_false] at first
        simp only [runBooted, if_true] at second
        rw [first, second]
        refine ⟨ending, final, ?_⟩
        intro other d seeds boots
        rw [(same seeds boots).2]
        exact ⟨waited, starts⟩

/-- A user who presses a key that the machine does not have, and then leaves. -/
theorem windowed_eq_headless_leaving :
    let canvas := Canvas.idle ⟨800, 600, by decide, by decide⟩
    let settings : CommandLine.Settings :=
      { CommandLine.Settings.standard with rom := "game.ch8", seed? := some (.number 1) }
    let last : Turn := ⟨[.keyDown 33, .quit], [33]⟩
    (settings.scale = .number 10 ∧ Display.Grants canvas (64 * 10) (32 * 10) ∧
      Display.Waits Canvas settings.delay ∧ last.leaves = true ∧ last.Calm) ∧
    (runCartridge canvas { settings with headless := false } (.ok jumping) [last] 0).ending =
      .exited 0 := by
  intro canvas settings last
  have scaled : settings.scale = .number 10 := rfl
  have grants : Display.Grants canvas (64 * 10) (32 * 10) :=
    canvas.grants ⟨by decide, by decide⟩ ⟨by decide, by decide⟩
  have waits : Display.Waits Canvas settings.delay := Canvas.waits _
  have seeded : settings.seed?.getD (.number 0) = .number 1 := rfl
  have named : settings.rom.contains '\x00' = false := by simp [settings]
  have stays : ∀ t ∈ ([] : List Turn), t.leaves = false := nofun
  have leaves : last.leaves = true := by decide
  have calm : last.Calm := ⟨by decide, by decide⟩
  have all : ∀ t ∈ [] ++ [last], t.Calm := by simpa using calm
  obtain ⟨ending, -⟩ :=
    windowed_eq_headless settings scaled (by decide) grants waits (.ok jumping) 0
    stays leaves all [] []
  let single : CommandLine.Settings := { settings with headless := true, cycles := .number 1 }
  have headless : single.headless = true := rfl
  have cycles : single.cycles = .number 1 := rfl
  have ended : (runCartridge canvas single (.ok jumping) [] 0).ending = .exited 0 :=
    headless_once canvas headless cycles seeded named jumping_fits (failure_reset_jumping _) []
  exact ⟨⟨scaled, grants, waits, leaves, calm⟩, ending.trans ended⟩

end Program

end HexConsole
