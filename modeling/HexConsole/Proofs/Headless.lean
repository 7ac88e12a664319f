import HexConsole.Proofs.Hushing
import HexConsole.Proofs.Parity
import HexConsole.Proofs.Reading
import HexConsole.Proofs.Reporting
import HexConsole.Proofs.Safety

/-!
# Runs without a window

Main statement: a run without a window ends well exactly if the program fits and none of its cycles
fails. It then prints the last frame and the registers. Else it prints nothing, and what it logs
last is the fault that has ended it, which the machine has logged before if a cycle has raised it.
-/
namespace HexConsole

/-- Whether a journal has no errors to tell of. -/
def Calm (journal : Array Note) : Prop := ∀ n ∈ journal, n.record.level ≠ .error

theorem Calm.push {journal : Array Note} (calm : Calm journal) {n : Note}
    (harmless : n.record.level ≠ .error) : Calm (journal.push n) := by
  intro k member
  obtain earlier | rfl := Array.mem_push.mp member
  · exact calm k earlier
  · exact harmless

namespace Console

open Machine

variable {σ : Type} {c : Console σ}

theorem calm_note (calm : Calm c.journal) {n : Note} (harmless : n.record.level ≠ .error) :
    Calm (c.note n).journal := by
  simp only [note]
  split_ifs
  · exact calm.push harmless
  · exact calm

theorem calm_tick (calm : Calm c.journal) : Calm c.tick.journal := by
  cases sounds : c.machine.tick.tone with
  | false =>
    rw [tick_of_silence sounds]
    exact calm
  | true =>
    have noted : Calm ({ c with machine := c.machine.tick }.note .beep).journal :=
      calm_note calm (by simp [Note.record])
    rw [tick_of_tone sounds]
    simp only
    split_ifs
    · exact calm_note noted (by simp [Note.record])
    · exact noted

theorem calm_settle (calm : Calm c.journal) : Calm c.settle.journal := by
  unfold settle
  split_ifs
  · exact calm_tick calm
  · exact calm

theorem calm_fetched (calm : Calm c.journal) : Calm c.fetched.journal :=
  calm_note calm (by simp [Note.record])

theorem calm_reset (calm : Calm c.journal) : Calm c.reset.journal := by
  unfold Console.reset
  refine calm_note ?_ (by simp [Note.record])
  exact calm

/-- A fault is told of at every threshold. -/
theorem journal_note_halted (c : Console σ) (f : Fault) :
    (c.note (.halted f)).journal = c.journal.push (.halted f) :=
  if_pos (Level.admits_error c.threshold)

variable [RandomSource σ]

theorem journal_supply (c : Console σ) (word : Int) : (c.supply word).2.journal = c.journal := by
  unfold supply
  split_ifs <;> rfl

/-- A cycle of a machine that runs logs an error exactly if it fails: the fault, at its end. -/
theorem calm_cycle (h : c.machine.Nominal) (running : c.machine.fault = none)
    (calm : Calm c.journal) :
    (c.cycle.failure? = none ∧ Calm c.cycle.console.journal) ∨
    (∃ f journal, c.cycle.failure? = some (.fault f) ∧
      c.cycle.console.journal = journal.push (.halted f) ∧ Calm journal) := by
  obtain ⟨-, ends⟩ | ⟨-, f, -, ends⟩ | ⟨-, n, -, ends⟩ := cycle_cases h running <;> rw [ends]
  · exact .inr ⟨c.endFault, c.journal, rfl, journal_note_halted _ _, calm⟩
  · exact .inr ⟨f, c.fetched.journal, rfl, journal_note_halted _ _, calm_fetched calm⟩
  · refine .inl ⟨rfl, calm_settle ?_⟩
    rw [journal_supply]
    exact calm_fetched calm

/-- A console whose machine is in its ranges and runs, and that has logged no errors. -/
structure Sound (c : Console σ) : Prop where
  consistent : c.machine.Consistent
  running : c.machine.fault = none
  calm : Calm c.journal

theorem sound_reset_load (calm : Calm c.journal) {rom : List Byte}
    (fits : rom.length ≤ programSpace) : Sound (c.reset.load rom).console where
  consistent := consistent_reset_load c rom
  running := by
    rw [machine_reset_load c fits]
    rfl
  calm := by
    rw [load_of_fits fits]
    have fresh := calm_reset calm
    generalize c.reset = d at fresh ⊢
    exact calm_note fresh (by simp [Note.record])

theorem Sound.cycle (h : Sound c) (done : c.cycle.failure? = none) : Sound c.cycle.console := by
  refine ⟨consistent_cycle h.consistent, fault_of_success done, ?_⟩
  obtain ⟨-, calm⟩ | ⟨f, journal, failed, -⟩ :=
    calm_cycle h.consistent.toNominal h.running h.calm
  · exact calm
  · rw [failed] at done
    cases done

theorem Sound.cycled {n : Nat} (h : Sound c) (all : c.Undisturbed n) : Sound (c.cycled n) := by
  induction n generalizing c with
  | zero => exact h
  | succ n ih =>
    obtain ⟨first, others⟩ := (undisturbed_succ c n).mp all
    exact ih (h.cycle first) others

end Console

/-- A run that got through: it prints the last frame and the registers, in lines of their own and
with a blank one at the end, and logs no error. -/
structure Run.Completed {δ : Type} (run : Run δ) (m : Machine) : Prop where
  ending : run.ending = .exited 0
  output : ∃ registers, m.report = .ok registers ∧
    run.output = m.frame.text ++ "\n" ++ registers ++ "\n"
  pieces : run.output.toList.splitOn '\n' =
    (m.frame.lines ++ m.shown.lines ++ [""]).map String.toList ++ [[]]
  log : ∀ r ∈ run.log, r.level ≠ .error

/-- A run that a fault has ended: it prints nothing, and the fault is what it logs last. The machine
has logged it right before, if a cycle has raised it. Nothing else that is logged is an error. -/
structure Run.StoppedBy {δ : Type} (run : Run δ) (f : Fault) (raised : Bool) : Prop where
  ending : run.ending = .exited 1
  output : run.output = ""
  log : ∃ calm, (∀ r ∈ calm, r.level ≠ .error) ∧ run.log =
    calm ++ (if raised then [⟨.error, .machine, "CPU halted: " ++ f.message⟩] else []) ++
      [⟨.error, .program, "Emulation stopped: " ++ f.message⟩]

theorem Calm.records {journal : Array Note} (calm : Calm journal) :
    ∀ r ∈ journal.toList.map Note.record, r.level ≠ .error := by
  intro r member
  obtain ⟨n, noted, rfl⟩ := List.mem_map.mp member
  exact calm n (Array.mem_toList_iff.mp noted)

theorem Frame.length_lines {width height : Int} (f : Frame width height) :
    f.lines.length = height.toNat := by
  simp [lines, rows]

/-- A frame and the registers, as they are printed. -/
theorem Machine.splitOn_printed (m : Machine) :
    (m.frame.text ++ "\n" ++ m.shown.text ++ "\n").toList.splitOn '\n' =
      (m.frame.lines ++ m.shown.lines ++ [""]).map String.toList ++ [[]] := by
  have frame : m.frame.text ++ "\n" = String.join (m.frame.lines.map (· ++ "\n")) :=
    m.frame.text_terminated (by decide)
  have whole : m.frame.text ++ "\n" ++ m.shown.text ++ "\n" =
      String.join ((m.frame.lines ++ m.shown.lines ++ [""]).map (· ++ "\n")) := by
    rw [frame, Readings.text, List.map_append, List.map_append]
    simp [← String.toList_inj, String.toList_join]
  rw [whole]
  apply splitOn_terminated
  intro line member
  obtain printed | blank := List.mem_append.mp member
  · obtain pixels | shown := List.mem_append.mp printed
    · exact m.frame.break_not_mem_lines line pixels
    · exact m.shown.break_not_mem_lines line shown
  · rw [List.mem_singleton.mp blank]
    exact List.not_mem_nil

section After

variable {δ : Type} {run : Run δ}

/-- A scene that has been seen before changes nothing of how a run is completed. -/
theorem Run.Completed.after {m : Machine} (h : run.Completed m) (s : Scene δ) :
    (run.after s).Completed m :=
  ⟨h.ending, h.output, h.pieces, h.log⟩

theorem Run.StoppedBy.after {f : Fault} {raised : Bool} (h : run.StoppedBy f raised)
    (s : Scene δ) : (run.after s).StoppedBy f raised :=
  ⟨h.ending, h.output, h.log⟩

end After

namespace Program

/-! ## Programs that do not fit -/

section Refused

variable {σ : Type} {c : Console σ}

/-- A program that does not fit is refused. -/
theorem boot_of_excess {settings : CommandLine.Settings}
    (named : settings.rom.contains '\x00' = false) {rom : List Byte}
    (excess : programSpace < rom.length) (source : σ) :
    boot settings (.ok rom) source =
      ((assembled settings source).reset,
        some (.stopped (.romTooLarge rom.length programSpace))) := by
  have refused : Machine.refusal? rom.length =
      some (.fault (.romTooLarge rom.length programSpace)) := if_pos excess
  simp only [boot, named, Bool.false_eq_true, if_false, Console.load, Machine.load, refused]
  rfl

theorem stoppedBy_refused {δ : Type} (calm : Calm c.journal) (f : Fault) :
    { Run.ofConsole (δ := δ) c (some (.stopped f)) "" [] with
      machine? := none }.StoppedBy f false where
  ending := rfl
  output := rfl
  log := by
    refine ⟨c.journal.toList.map Note.record, calm.records, ?_⟩
    simp [Run.ofConsole, Trouble.record?, Console.tells]

end Refused

/-! ## Cycles -/

variable {σ δ : Type} [RandomSource σ] {c : Console σ}

theorem completed_runHeadless (h : Console.Sound c) {n : Int} (all : c.Undisturbed n.toNat) :
    (runHeadless n c : Run δ).Completed (c.cycled n.toNat).machine := by
  have final := h.cycled all
  have reported := Machine.report_eq final.consistent.registers.ge
  simp only [runHeadless, Console.run_of_undisturbed all, reported]
  refine ⟨rfl, ⟨_, reported, rfl⟩, Machine.splitOn_printed _, ?_⟩
  intro r member
  simp only [Run.ofConsole, Option.bind_none, Option.filter_none, Option.toList_none,
    List.append_nil] at member
  exact final.calm.records r member

/-- A run ends with the first cycle that fails, whatever it was meant to do after it. -/
theorem runHeadless_of_disturbed {k : Nat} (before : c.Undisturbed k) {e : Failure}
    (failed : (c.cycled k).cycle.failure? = some e) {n : Int} (inside : k < n.toNat) :
    (runHeadless n c : Run δ) =
      .ofConsole (c.cycled k).cycle.console (some (.ofFailure e)) "" [] := by
  simp only [runHeadless, Console.run_of_disturbed before failed inside, failed]

theorem stoppedBy_runHeadless (h : Console.Sound c) {k : Nat} (before : c.Undisturbed k) {f : Fault}
    (failed : (c.cycled k).cycle.failure? = some (.fault f)) {n : Int} (inside : k < n.toNat) :
    (runHeadless n c : Run δ).StoppedBy f true := by
  have last := h.cycled before
  rw [runHeadless_of_disturbed before failed inside]
  refine ⟨rfl, rfl, ?_⟩
  obtain ⟨done, -⟩ | ⟨g, journal, raised, logged, calm⟩ :=
    Console.calm_cycle last.consistent.toNominal last.running last.calm
  · rw [failed] at done
    cases done
  · rw [failed] at raised
    cases raised
    refine ⟨journal.toList.map Note.record, calm.records, ?_⟩
    simp [Run.ofConsole, logged, Trouble.ofFailure, Trouble.record?, Console.tells, Note.record]

variable [Display δ]

/-- A run of a program that fits is the run of its console. -/
theorem runCartridge_headless (d : δ) {settings : CommandLine.Settings}
    (headless : settings.headless = true) {n : Int} (cycles : settings.cycles = .number n)
    {entropy seed : Int}
    (seeded : settings.seed?.getD (.number entropy) = .number seed)
    (named : settings.rom.contains '\x00' = false) {rom : List Byte}
    (fits : rom.length ≤ programSpace) (script : List Turn) :
    let console := ((assembled settings (Twister.ofSeed seed)).reset.load rom).console
    runCartridge d settings (.ok rom) script entropy =
      (runHeadless n console).after (.ready console.machine) := by
  have run := runCartridge_of_fits d seeded named fits script
  simp only [runBooted, headless, cycles, if_true] at run
  exact run

/-- The three ways in which a run without a window ends. -/
theorem headless_cases (d : δ) {settings : CommandLine.Settings}
    (headless : settings.headless = true)
    {n : Int} (cycles : settings.cycles = .number n) {entropy seed : Int}
    (seeded : settings.seed?.getD (.number entropy) = .number seed)
    (named : settings.rom.contains '\x00' = false) (rom : List Byte) (script : List Turn) :
    let c := ((assembled settings (Twister.ofSeed seed)).reset.load rom).console
    let run := runCartridge d settings (.ok rom) script entropy
    (rom.length ≤ programSpace ∧ c.Undisturbed n.toNat ∧
      run.Completed (c.cycled n.toNat).machine) ∨
    (programSpace < rom.length ∧
      run.StoppedBy (.romTooLarge rom.length programSpace) false) ∨
    (rom.length ≤ programSpace ∧ ∃ f, ∃ k < n.toNat, c.Undisturbed k ∧
      (c.cycled k).cycle.failure? = some (.fault f) ∧ run.StoppedBy f true) := by
  intro c run
  have silent : Calm (assembled settings (Twister.ofSeed seed)).journal := by
    intro n member
    simp [assembled, Console.assemble] at member
  by_cases fits : rom.length ≤ programSpace
  · have sound : c.Sound := Console.sound_reset_load silent fits
    have ends : run = (runHeadless n c).after (.ready c.machine) :=
      runCartridge_headless d headless cycles seeded named fits script
    obtain all | ⟨k, inside, before, e, failed⟩ := c.undisturbed_or_first n.toNat
    · left
      refine ⟨fits, all, ?_⟩
      rw [ends]
      exact (completed_runHeadless sound all).after _
    · right
      right
      obtain done | ⟨f, raised, -⟩ := Console.cycle_failure (sound.cycled before).consistent
      · rw [failed] at done
        cases done
      · refine ⟨fits, f, k, inside, before, raised, ?_⟩
        rw [ends]
        exact (stoppedBy_runHeadless sound before raised inside).after _
  · right
    left
    have excess : programSpace < rom.length := by omega
    refine ⟨excess, ?_⟩
    have ends : run = _ := runCartridge_of_boot d seeded (boot_of_excess named excess _)
      settings.headless settings.cycles script
    rw [ends]
    exact stoppedBy_refused (Console.calm_reset silent) _

/-- After a cycle that fails it makes no difference how many there were to come. -/
theorem headless_beyond (d : δ) {settings : CommandLine.Settings}
    (headless : settings.headless = true)
    {n : Int} (cycles : settings.cycles = .number n) {entropy seed : Int}
    (seeded : settings.seed?.getD (.number entropy) = .number seed)
    (named : settings.rom.contains '\x00' = false) (rom : List Byte) (script : List Turn) :
    let c := ((assembled settings (Twister.ofSeed seed)).reset.load rom).console
    ∀ k < n.toNat, c.Undisturbed k → (c.cycled k).cycle.failure? ≠ none →
      ∀ more : Int, k < more.toNat →
        runCartridge d { settings with cycles := .number more } (.ok rom) script entropy =
          runCartridge d settings (.ok rom) script entropy := by
  intro c k inside before failed more further
  by_cases fits : rom.length ≤ programSpace
  · obtain ⟨e, failed⟩ := Option.ne_none_iff_exists'.mp failed
    let longer : CommandLine.Settings := { settings with cycles := .number more }
    have hides : longer.headless = true := headless
    have budget : longer.cycles = .number more := rfl
    have first : runCartridge d longer (.ok rom) script entropy = (runHeadless more c).after _ :=
      runCartridge_headless d hides budget seeded named fits script
    have second : runCartridge d settings (.ok rom) script entropy = (runHeadless n c).after _ :=
      runCartridge_headless d headless cycles seeded named fits script
    rw [runHeadless_of_disturbed before failed further] at first
    rw [runHeadless_of_disturbed before failed inside] at second
    exact first.trans second.symm
  · have refused := boot_of_excess named (show programSpace < rom.length by omega)
      (Twister.ofSeed seed)
    exact (runCartridge_of_boot d seeded refused settings.headless (.number more) script).trans
      (runCartridge_of_boot d seeded refused settings.headless settings.cycles script).symm

/-- A program that returns without a call fails in its first cycle. -/
theorem failure_reset_returning (c : Console σ) :
    ∃ f, (c.reset.load [0x00, 0xEE]).console.cycle.failure? = some (.fault f) := by
  have fits : [0x00, 0xEE].length ≤ programSpace := by decide
  have nominal := (Console.consistent_reset_load c [0x00, 0xEE]).toNominal
  have executing : (c.reset.load [0x00, 0xEE]).console.executing = some .leave :=
    Console.executing_reset_load c fits (by decide) (by decide)
  have empty : (c.reset.load [0x00, 0xEE]).console.machine.fetched.depth = 0 := by
    rw [Console.machine_reset_load c fits]
    rfl
  obtain ⟨f, refused⟩ : ∃ f, (c.reset.load [0x00, 0xEE]).console.result .leave = .error f := by
    simp only [Console.result, Machine.effect, if_pos empty]
    exact ⟨_, rfl⟩
  exact ⟨f, by rw [Console.cycle_of_error nominal executing refused]⟩

/-- A run without a window has the exit code 0 exactly if the program fits and none of its cycles
fails. It then prints the last frame, in 32 lines, and the registers, in 20, and logs no error. Else
it has the exit code 1 and prints nothing, and it logs last the fault that has ended it: the size of
the program, or the fault of the first cycle that failed, which the machine has logged right before.
How many cycles there were to come makes no difference then. -/
theorem headless_account (d : δ) {settings : CommandLine.Settings}
    (headless : settings.headless = true)
    {n : Int} (cycles : settings.cycles = .number n) {entropy seed : Int}
    (seeded : settings.seed?.getD (.number entropy) = .number seed)
    (named : settings.rom.contains '\x00' = false) (rom : List Byte) (script : List Turn) :
    let c := ((assembled settings (Twister.ofSeed seed)).reset.load rom).console
    let run := runCartridge d settings (.ok rom) script entropy
    let final := (c.cycled n.toNat).machine
    (run.ending = .exited 0 ↔ rom.length ≤ programSpace ∧ c.Undisturbed n.toNat) ∧
    (run.ending = .exited 0 → run.Completed final ∧
      final.frame.lines.length = 32 ∧ final.shown.lines.length = 20) ∧
    (run.ending ≠ .exited 0 →
      (programSpace < rom.length ∧
        run.StoppedBy (.romTooLarge rom.length programSpace) false) ∨
      (rom.length ≤ programSpace ∧ ∃ f, ∃ k < n.toNat, c.Undisturbed k ∧
        (c.cycled k).cycle.failure? = some (.fault f) ∧
        run.StoppedBy f true)) ∧
    ∀ k < n.toNat, c.Undisturbed k → (c.cycled k).cycle.failure? ≠ none →
      ∀ more : Int, k < more.toNat →
        runCartridge d { settings with cycles := .number more } (.ok rom) script entropy = run := by
  intro c run final
  have ends := headless_cases d headless cycles seeded named rom script
  have unwell {f : Fault} {raised : Bool} (stopped : run.StoppedBy f raised) :
      run.ending ≠ .exited 0 := by
    rw [stopped.ending]
    decide
  refine ⟨⟨?_, ?_⟩, ?_, ?_, headless_beyond d headless cycles seeded named rom script⟩
  · intro well
    obtain ⟨fits, all, -⟩ | ⟨-, stopped⟩ | ⟨-, f, k, -, -, -, stopped⟩ := ends
    · exact ⟨fits, all⟩
    · exact absurd well (unwell stopped)
    · exact absurd well (unwell stopped)
  · rintro ⟨fits, all⟩
    obtain ⟨-, -, completed⟩ | ⟨excess, -⟩ | ⟨-, f, k, inside, -, failed, -⟩ := ends
    · exact completed.ending
    · omega
    · rw [all k inside] at failed
      cases failed
  · intro well
    obtain ⟨-, -, completed⟩ | ⟨-, stopped⟩ | ⟨-, f, k, -, -, -, stopped⟩ := ends
    · exact ⟨completed, Frame.length_lines final.frame, final.shown.length_lines⟩
    · exact absurd well (unwell stopped)
    · exact absurd well (unwell stopped)
  · intro unwell
    obtain ⟨-, -, completed⟩ | refused | failed := ends
    · exact absurd completed.ending unwell
    · exact .inl refused
    · exact .inr failed

/-- A program that returns without a call is stopped, with a budget of a thousand cycles, and one
that jumps on the spot gets through the single cycle that it is given. -/
theorem headless_account_returning :
    let canvas := Canvas.idle ⟨800, 600, by decide, by decide⟩
    let settings : CommandLine.Settings :=
      { CommandLine.Settings.standard with
        rom := "game.ch8"
        headless := true
        seed? := some (.number 1) }
    let single : CommandLine.Settings := { settings with cycles := .number 1 }
    let stopped := runCartridge canvas settings (.ok [0x00, 0xEE]) [] 0
    let ended := runCartridge canvas single (.ok jumping) [] 0
    (settings.headless = true ∧ settings.cycles = .number 1000 ∧ single.cycles = .number 1 ∧
      settings.rom.contains '\x00' = false) ∧
    (stopped.ending = .exited 1 ∧ stopped.output = "") ∧
    ended.ending = .exited 0 ∧ (ended.output.toList.splitOn '\n').length = 54 := by
  intro canvas settings single stopped ended
  have headless : settings.headless = true := rfl
  have cycles : settings.cycles = .number 1000 := rfl
  have alone : single.headless = true := rfl
  have once : single.cycles = .number 1 := rfl
  have seeded : settings.seed?.getD (.number 0) = .number 1 := rfl
  have named : settings.rom.contains '\x00' = false := by simp [settings]
  refine ⟨⟨headless, cycles, once, named⟩, ?_, ?_⟩
  · obtain ⟨well, -, unwell, -⟩ :=
      headless_account canvas headless cycles seeded named [0x00, 0xEE] []
    obtain ⟨f, failed⟩ := failure_reset_returning (assembled settings (Twister.ofSeed 1))
    have disturbed : stopped.ending ≠ .exited 0 := by
      intro good
      have first := (well.mp good).2 0 (by decide)
      rw [Console.cycled_zero, failed] at first
      cases first
    obtain ⟨-, breaks⟩ | ⟨-, g, k, -, -, -, breaks⟩ := unwell disturbed
    · exact ⟨breaks.ending, breaks.output⟩
    · exact ⟨breaks.ending, breaks.output⟩
  · obtain ⟨well, prints, -⟩ := headless_account canvas alone once seeded named jumping []
    have undisturbed : ((assembled single (Twister.ofSeed 1)).reset.load
        jumping).console.Undisturbed 1 := by
      intro k inside
      obtain rfl : k = 0 := by omega
      rw [Console.cycled_zero]
      exact failure_reset_jumping _
    have good : ended.ending = .exited 0 := well.mpr ⟨jumping_fits, undisturbed⟩
    obtain ⟨completed, frame, registers⟩ := prints good
    refine ⟨good, ?_⟩
    have pieces := congrArg List.length completed.pieces
    simp only [List.length_append, List.length_map, frame, registers] at pieces
    exact pieces

end Program

end HexConsole
