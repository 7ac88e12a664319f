import HexConsole.Proofs.Headless
import Mathlib.Data.List.Basic

/-!
# What a run tells of its cycles

A user who asks for more is told of every cycle. Main statement: asking for more changes nothing but
the debugging records. They tell of each word that was fetched, with its address, in order and once,
also of the word that ended the run, and of each tick that found the sound timer running: once for
the tick itself, and once for the listener that heard it.
-/
namespace HexConsole

/-- Counts what several lists hold together, of which each holds one at most. -/
theorem countP_flatMap_of_once {α β : Type} {p : β → Bool} {q : α → Bool} {f : α → List β}
    {l : List α} (once : ∀ a ∈ l, (f a).countP p = if q a then 1 else 0) :
    (l.flatMap f).countP p = l.countP q := by
  induction l with
  | nil => rfl
  | cons a rest ih =>
    obtain ⟨first, others⟩ := List.forall_mem_cons.mp once
    rw [List.flatMap_cons, List.countP_append, ih others, first, List.countP_cons, Nat.add_comm]

/-! ## Records told apart -/

/-- Whether the text of a record begins with some other text. -/
def Record.opens (opening : String) (r : Record) : Bool :=
  opening.toList.isPrefixOf r.text.toList

/-- Whether a note tells of a word that was fetched. -/
def Note.tellsWord : Note → Bool
  | executing _ _ => true
  | _ => false

namespace Note

theorem opens_record (n : Note) : n.record.opens "PC: " = n.tellsWord := by
  cases n <;> simp [record, Record.opens, tellsWord, List.isPrefixOf]

theorem text_record_beep (n : Note) : n.record.text = "BEEP!" ↔ n = beep := by
  cases n <;> simp [record, ← String.toList_inj]

theorem text_record_toneHeard (n : Note) : n.record.text = "Tone on" ↔ n = toneHeard := by
  cases n <;> simp [record, ← String.toList_inj]

end Note

namespace Console

open Machine

variable {σ : Type}

/-! ## Notes of one cycle -/

/-- What a tick notes that finds the sound timer running. -/
def toneNotes (w : Wiring) : List Note := .beep :: if w.toneListener then [.toneHeard] else []

/-- A console that tells everything takes every note. -/
theorem note_of_loud {c : Console σ} (loud : c.threshold = .debug) (n : Note) :
    c.note n = { c with journal := c.journal.push n } := by
  simp [note, tells, loud]

theorem journal_settle {c : Console σ} (loud : c.threshold = .debug) :
    c.settle.journal.toList = c.journal.toList ++
    if c.wiring.ticksAfterCycle && c.machine.sound != 0 then toneNotes c.wiring else [] := by
  cases ticks : c.wiring.ticksAfterCycle with
  | false => simp [settle, ticks]
  | true =>
    by_cases silent : c.machine.sound = 0
    · simp [settle, ticks, tick, Machine.tick, silent]
    · cases heard : c.wiring.toneListener <;>
        simp [settle, ticks, tick, Machine.tick, silent, heard, note_of_loud, loud, toneNotes]

/-- The note of the word that the next cycle fetches, if it finds one. -/
def wordNote? (c : Console σ) : Option Note :=
  c.machine.fetch.toOption.map (.executing c.machine.counter)

theorem wordNote?_eq {c : Console σ} (h : c.machine.Nominal) : c.wordNote? =
    if 4094 < c.machine.counter then none
    else some (.executing c.machine.counter c.nextWord) := by
  rw [wordNote?, fetch_eq h]
  split_ifs <;> rfl

variable [RandomSource σ]

/-- Whether the next cycle ticks, and its tick finds the sound timer running. -/
def sounds (c : Console σ) : Bool :=
  c.cycle.failure?.isNone && (c.wiring.ticksAfterCycle && c.advance.console.machine.sound != 0)

/-- What the next cycle notes, on a machine that runs: the word, and then either a tone or the fault
that halts the machine. -/
def notes (c : Console σ) : List Note :=
  c.wordNote?.toList ++ (if c.sounds then toneNotes c.wiring else []) ++
    (c.cycle.console.machine.fault.map Note.halted).toList

theorem advance_of_ok {c : Console σ} (h : c.machine.Nominal) (inside : c.machine.counter ≤ 4094)
    {n : Machine} (done : c.fetched.attempt c.nextWord = .ok n) :
    c.advance = ⟨{ (c.fetched.supply c.nextWord).2 with machine := n }, none⟩ := by
  rw [advance_eq h, if_neg (by omega), process_passed h inside, done]

/-- A tick finds the sound timer as the instruction before it has left it. -/
theorem sounds_of_ok {c : Console σ} (h : c.machine.Nominal) {i : Instruction}
    (executing : c.executing = some i) {n : Machine} (done : c.result i = .ok n) :
    c.sounds = (c.wiring.ticksAfterCycle && n.sound != 0) := by
  obtain ⟨-, inside, decoded⟩ := (executing_eq_some_iff h).mp executing
  have attempted : c.fetched.attempt c.nextWord = .ok n := by
    rw [attempt_fetched, obeyed, decoded]
    exact done
  simp [sounds, cycle_of_ok h executing done, advance_of_ok h inside attempted]

theorem notes_of_success {c : Console σ} (done : c.cycle.failure? = none) : c.notes =
    c.wordNote?.toList ++
      if c.wiring.ticksAfterCycle && c.advance.console.machine.sound != 0 then toneNotes c.wiring
      else [] := by
  simp [notes, sounds, done, fault_of_success done]

theorem notes_of_fault {c : Console σ} {f : Fault} (failed : c.cycle.failure? = some (.fault f)) :
    c.notes = c.wordNote?.toList ++ [.halted f] := by
  simp [notes, sounds, failed, (fault_cycle c f).mpr failed]

theorem journal_cycle {c : Console σ} (loud : c.threshold = .debug) (h : c.machine.Nominal)
    (running : c.machine.fault = none) :
    c.cycle.console.journal.toList = c.journal.toList ++ c.notes := by
  obtain ⟨past, ends⟩ | ⟨inside, f, -, ends⟩ | ⟨inside, n, done, ends⟩ := cycle_cases h running
  · have failed : c.cycle.failure? = some (.fault c.endFault) := by rw [ends]
    rw [notes_of_fault failed, wordNote?_eq h, if_pos past, ends]
    simp [halted, note_of_loud, loud, look]
  · have failed : c.cycle.failure? = some (.fault f) := by rw [ends]
    rw [notes_of_fault failed, wordNote?_eq h, if_neg (by omega), ends]
    simp [halted, note_of_loud, loud, fetched]
  · have success : c.cycle.failure? = none := by rw [ends]
    have supplied : (c.fetched.supply c.nextWord).2.threshold = .debug :=
      (threshold_supply c.fetched c.nextWord).trans loud
    rw [notes_of_success success, wordNote?_eq h, if_neg (by omega), advance_of_ok h inside done,
      ends, journal_settle (c := { (c.fetched.supply c.nextWord).2 with machine := n }) supplied]
    simp only [journal_supply, wiring_supply]
    simp [fetched, note_of_loud, loud]

/-- Of a word no more is noted than that the cycle fetches it. -/
theorem filter_notes (c : Console σ) : c.notes.filter Note.tellsWord = c.wordNote?.toList := by
  have words : c.wordNote?.toList.filter Note.tellsWord = c.wordNote?.toList := by
    unfold wordNote?
    cases c.machine.fetch <;> rfl
  have tones : (if c.sounds then toneNotes c.wiring else []).filter Note.tellsWord = [] := by
    unfold toneNotes
    split_ifs <;> rfl
  have faults : (c.cycle.console.machine.fault.map Note.halted).toList.filter Note.tellsWord =
      [] := by
    cases c.cycle.console.machine.fault <;> rfl
  simp only [notes, List.filter_append, words, tones, faults, List.append_nil]

/-- A cycle that sounds notes its tone once, and for the listener once more. No other cycle does. -/
theorem count_notes {c : Console σ} (listener : c.wiring.toneListener = true) {tone : Note}
    (made : tone = .beep ∨ tone = .toneHeard) :
    c.notes.count tone = if c.sounds then 1 else 0 := by
  have words : c.wordNote?.toList.count tone = 0 := by
    unfold wordNote?
    cases c.machine.fetch <;> obtain rfl | rfl := made <;> rfl
  have tones : (toneNotes c.wiring).count tone = 1 := by
    unfold toneNotes
    rw [if_pos listener]
    obtain rfl | rfl := made <;> rfl
  have faults : (c.cycle.console.machine.fault.map Note.halted).toList.count tone = 0 := by
    cases c.cycle.console.machine.fault <;> obtain rfl | rfl := made <;> rfl
  simp only [notes, List.count_append, words, faults, Nat.zero_add, Nat.add_zero]
  split_ifs
  · exact tones
  · rfl

/-! ## Notes of a run -/

/-- The cycles of a run start on machines that run, and that are wired alike. -/
theorem sound_of_mem_starts {c : Console σ} (h : Sound c) {n : Nat} {d : Console σ}
    (member : d ∈ c.starts n) : Sound d ∧ d.wiring = c.wiring := by
  induction n generalizing c with
  | zero => cases member
  | succ n ih =>
    cases failure : c.cycle.failure? with
    | some e =>
      rw [(run_succ_of_failure failure n).2, List.mem_singleton] at member
      rw [member]
      exact ⟨h, rfl⟩
    | none =>
      rw [(run_succ_of_success failure n).2] at member
      obtain rfl | later := List.mem_cons.mp member
      · exact ⟨h, rfl⟩
      · obtain ⟨sound, wiring⟩ := ih (h.cycle failure) later
        exact ⟨sound, wiring.trans (wiring_cycle c)⟩

/-- A run notes what its cycles note, one after the other. -/
theorem journal_run {c : Console σ} (loud : c.threshold = .debug) (h : Sound c) (n : Nat) :
    (c.run n).2.console.journal.toList = c.journal.toList ++ (c.starts n).flatMap notes := by
  induction n generalizing c with
  | zero => simp [run, runFrom, starts]
  | succ n ih =>
    have first := journal_cycle loud h.consistent.toNominal h.running
    cases failure : c.cycle.failure? with
    | some e =>
      obtain ⟨outcome, starts⟩ := run_succ_of_failure failure n
      rw [outcome, starts, first]
      simp
    | none =>
      obtain ⟨outcome, starts⟩ := run_succ_of_success failure n
      rw [outcome, starts, ih ((threshold_cycle c).trans loud) (h.cycle failure), first,
        List.flatMap_cons, List.append_assoc]

end Console

/-- Trouble is told of in other words than a cycle. -/
theorem Trouble.record?_plain {trouble : Trouble} {r : Record} (told : trouble.record? = some r) :
    r.opens "PC: " = false ∧ r.text ≠ "BEEP!" ∧ r.text ≠ "Tone on" := by
  cases trouble with
  | broken b => cases told
  | unreadable | stopped =>
    cases told
    simp [Record.opens, List.isPrefixOf, ← String.toList_inj]

namespace Program

open Console

section Loud

variable {σ δ : Type} [RandomSource σ] {c : Console σ} (loud : c.threshold = .debug) (h : Sound c)
  (n : Int)
include loud h

/-- A run without a window logs what its cycles note, and then its trouble. -/
theorem log_runHeadless : ∃ trouble? : Option Trouble,
    (runHeadless n c : Run δ).log =
      (c.journal.toList ++ (c.starts n.toNat).flatMap notes).map Note.record ++
        (trouble?.bind Trouble.record?).toList := by
  have told (trouble? : Option Trouble) : ((trouble?.bind Trouble.record?).filter fun r =>
      (c.run n.toNat).2.console.tells r.level) = trouble?.bind Trouble.record? := by
    cases trouble?.bind Trouble.record? <;> simp [tells, threshold_run, loud]
  rw [← journal_run loud h]
  unfold runHeadless
  dsimp only
  cases (c.run n.toNat).2.failure? with
  | some e => exact ⟨some (.ofFailure e), by rw [← told]; rfl⟩
  | none =>
    cases (c.run n.toNat).2.console.machine.report with
    | error e => exact ⟨some (.ofFailure e), by rw [← told]; rfl⟩
    | ok registers => exact ⟨none, rfl⟩

/-- The records of one kind in the log of a run. -/
theorem filter_log {p : Record → Bool} {q : Note → Bool} (tells : ∀ k : Note, p k.record = q k)
    (plain : ∀ {trouble : Trouble} {r : Record}, trouble.record? = some r → p r = false) :
    (runHeadless n c : Run δ).log.filter p =
      ((c.journal.toList ++ (c.starts n.toNat).flatMap notes).filter q).map Note.record := by
  obtain ⟨trouble?, log⟩ := log_runHeadless (δ := δ) loud h n
  have silent : (trouble?.bind Trouble.record?).toList.filter p = [] := by
    rw [List.filter_eq_nil_iff]
    intro r member
    obtain ⟨trouble, -, told⟩ := Option.bind_eq_some_iff.mp (Option.mem_toList.mp member)
    simp [plain told]
  have same : p ∘ Note.record = q := funext tells
  rw [log, List.filter_append, silent, List.append_nil, List.filter_map, same]

theorem words_log (silent : c.journal.toList.filter Note.tellsWord = []) :
    (runHeadless n c : Run δ).log.filter (·.opens "PC: ") =
      (c.starts n.toNat).filterMap fun d => d.wordNote?.map Note.record := by
  rw [filter_log loud h n Note.opens_record fun told => (Trouble.record?_plain told).1,
    List.filter_append, silent, List.nil_append, List.filter_flatMap]
  simp only [filter_notes, ← List.filterMap_eq_flatMap_toList, List.map_filterMap]

/-- The records of a tone count the cycles that sound. -/
theorem count_log (listener : c.wiring.toneListener = true) {tone : Note}
    (made : tone = .beep ∨ tone = .toneHeard) {text : String}
    (tells : ∀ k : Note, k.record.text = text ↔ k = tone)
    (plain : ∀ {trouble : Trouble} {r : Record}, trouble.record? = some r → r.text ≠ text)
    (silent : tone ∉ c.journal.toList) :
    (runHeadless n c : Run δ).log.countP (·.text = text) = (c.starts n.toNat).countP sounds := by
  have same : ∀ k : Note, decide (k.record.text = text) = (k == tone) :=
    fun k => decide_eq_decide.mpr (tells k)
  have unlike {trouble : Trouble} {r : Record} (told : trouble.record? = some r) :
      decide (r.text = text) = false := decide_eq_false (plain told)
  rw [List.countP_eq_length_filter, filter_log loud h n same unlike, List.length_map,
    ← List.countP_eq_length_filter, List.countP_append]
  change c.journal.toList.count tone + _ = _
  rw [List.count_eq_zero_of_not_mem silent, Nat.zero_add]
  refine countP_flatMap_of_once fun d member => ?_
  have wiring := (sound_of_mem_starts h member).2
  exact count_notes (wiring ▸ listener) made

end Loud

variable {σ δ : Type} [RandomSource σ] [Display δ]

/-- A user who does not ask for more is told of the same run, without the debugging records. -/
theorem runCartridge_hushed (d : δ) {settings : CommandLine.Settings}
    (headless : settings.headless = true) {n : Int} (cycles : settings.cycles = .number n)
    {seed : Int} (seeded : settings.seed? = some (.number seed))
    (named : settings.rom.contains '\x00' = false) {rom : List Byte}
    (fits : rom.length ≤ programSpace) (script script' : List Turn) (entropy entropy' : Int) :
    runCartridge d { settings with verbose := false } (.ok rom) script entropy =
      (runCartridge d { settings with verbose := true } (.ok rom) script' entropy').hushed
        .info := by
  let quiet := assembled { settings with verbose := false } (Twister.ofSeed seed)
  let loud := assembled { settings with verbose := true } (Twister.ofSeed seed)
  have given (entropy : Int) : settings.seed?.getD (.number entropy) = .number seed := by
    rw [seeded]
    rfl
  have told (verbose : Bool) (script : List Turn) (entropy : Int) :=
    have windowless : ({ settings with verbose } : CommandLine.Settings).headless = true := headless
    runCartridge_headless d windowless cycles (given entropy) named fits script
  have booted : (quiet.reset.load rom).console = (loud.reset.load rom).console.hushed .info := by
    have assembled : loud.hushed .info = quiet := hushed_assemble .info _ _
    rw [← assembled]
    exact hushed_performAll .info loud [.reset, .load rom]
  have first := told false script entropy
  have second := told true script' entropy'
  simp only at first second
  rw [first, second, show (assembled _ _).reset = quiet.reset from rfl, booted, hushed_runHeadless]
  rfl

/-- What is told of the first two cycles of a program that sets a register and then the sound timer
to three. -/
theorem starts_beeping {c : Console σ} (here : At [0x60, 0x03, 0xF0, 0x18] 0 c)
    (ticks : c.wiring.ticksAfterCycle = true) (silent : c.machine.sound = 0) :
    (c.starts 2).filterMap (fun d => d.wordNote?.map Note.record) =
      [⟨.debug, .machine, "PC: 0200  OP: 6003"⟩, ⟨.debug, .machine, "PC: 0202  OP: F018"⟩] ∧
    (c.starts 2).countP sounds = 1 := by
  have fits : [0x60, 0x03, 0xF0, (0x18 : Byte)].length ≤ programSpace := by decide
  have first : c.executing = some (.setRegister 0 3) := here.executing fits (by decide) (by decide)
  obtain ⟨executed, next, three⟩ := here.setRegister first
  have second : c.cycle.console.executing = some (.setSound 0) :=
    next.executing fits (by decide) (by decide)
  have starts : c.starts 2 = [c, c.cycle.console] := by
    rw [(run_succ_of_success (success_of_executed executed) 1).2, (run_one c.cycle.console).2]
  have mute : c.sounds = false := by
    rw [sounds_of_ok here.consistent.toNominal first rfl]
    simp [Machine.setReg, Machine.fetched, silent]
  have beeps : c.cycle.console.sounds = true := by
    rw [sounds_of_ok next.consistent.toNominal second rfl, wiring_cycle, ticks]
    change (c.cycle.console.machine.reg 0 != 0) = true
    rw [three]
    rfl
  have one : c.wordNote? = some (.executing 0x200 0x6003) := by
    rw [wordNote?, here.fetch fits (by decide), here.counter]
    decide
  have two : c.cycle.console.wordNote? = some (.executing 0x202 0xF018) := by
    rw [wordNote?, next.fetch fits (by decide), next.counter]
    decide
  have told : (Note.executing 0x200 0x6003).record =
      ⟨.debug, .machine, "PC: 0200  OP: 6003"⟩ := by
    simp [Note.record, Hexadecimal.word, Hexadecimal.zeroPadded, Hexadecimal.digits,
      Hexadecimal.digit, Hexadecimal.sign]
  have told' : (Note.executing 0x202 0xF018).record =
      ⟨.debug, .machine, "PC: 0202  OP: F018"⟩ := by
    simp [Note.record, Hexadecimal.word, Hexadecimal.zeroPadded, Hexadecimal.digits,
      Hexadecimal.digit, Hexadecimal.sign]
  rw [starts]
  simp [one, two, told, told', mute, beeps]

/-- A run without a window ends alike and prints the same whether or not the user asks to be told
more, and without the debugging records both logs are the same, record by record and as they are
read. With them the log has one record for each cycle that fetched a word, with the address and
the word, in the order of the cycles: the cycle that failed last is among them if it got as far as
its instruction, and is not if it had no word to fetch. A tick that finds the sound timer running
is told of twice, as a beep and as a tone that was heard. There are none if the cycles do not
tick. -/
theorem verbose_observes (d : δ) {settings : CommandLine.Settings}
    (headless : settings.headless = true) {n : Int} (cycles : settings.cycles = .number n)
    {seed : Int} (seeded : settings.seed? = some (.number seed))
    (named : settings.rom.contains '\x00' = false) {rom : List Byte}
    (fits : rom.length ≤ programSpace) (script script' : List Turn) (entropy entropy' : Int) :
    let brief : CommandLine.Settings := { settings with verbose := false }
    let full : CommandLine.Settings := { settings with verbose := true }
    let c := ((assembled full (Twister.ofSeed seed)).reset.load rom).console
    let quiet := runCartridge d brief (.ok rom) script entropy
    let loud := runCartridge d full (.ok rom) script' entropy'
    (loud.ending = quiet.ending ∧ loud.output = quiet.output ∧
      quiet.log = loud.log.filter (!·.isDebug) ∧
      ∀ name, quiet.logShown name = String.join ((loud.log.filter (!·.isDebug)).map fun r =>
        "[" ++ r.level.name ++ "] " ++ r.speaker.name name ++ ": " ++ r.text ++ "\n")) ∧
    loud.log.filter (·.opens "PC: ") =
      ((c.starts n.toNat).filterMap fun d => d.machine.fetch.toOption.map fun word =>
        ⟨.debug, .machine, "PC: " ++ Hexadecimal.word d.machine.counter ++ "  OP: " ++
          Hexadecimal.word word⟩) ∧
    loud.log.countP (·.text = "BEEP!") = (c.starts n.toNat).countP sounds ∧
    loud.log.countP (·.text = "Tone on") = (c.starts n.toNat).countP sounds ∧
    (settings.decoupleTimers = true → (c.starts n.toNat).countP sounds = 0) := by
  intro brief full c quiet loud
  have sound : c.Sound := sound_reset_load (by simp [Calm, assembled, assemble]) fits
  have given : full.seed?.getD (.number entropy') = .number seed := by
    change settings.seed?.getD _ = _
    rw [seeded]
    rfl
  have hides : full.headless = true := headless
  have budget : full.cycles = .number n := cycles
  have whole : loud = (runHeadless n c).after (.ready c.machine) :=
    runCartridge_headless d hides budget given named fits script'
  have log : loud.log = (runHeadless n c : Run δ).log := by
    rw [whole]
    rfl
  have hushed : quiet = loud.hushed .info :=
    runCartridge_hushed d headless cycles seeded named fits script script' entropy entropy'
  have records : quiet.log = loud.log.filter (!·.isDebug) := by
    rw [hushed]
    refine List.filter_congr fun r _ => ?_
    rw [Record.isDebug]
    cases r.level <;> rfl
  have booted : c.journal.toList = [.initialized, .loaded rom.length] := by
    simp only [c, load_of_fits fits]
    rfl
  have verbose : c.threshold = .debug := by
    simp only [c, load_of_fits fits]
    rfl
  have wiring : c.wiring = ⟨!settings.decoupleTimers, true⟩ := (wired_reset_load _ rom).2
  have listener : c.wiring.toneListener = true := by rw [wiring]
  refine ⟨⟨by rw [hushed]; rfl, by rw [hushed]; rfl, records, fun name => ?_⟩, ?_, ?_, ?_, ?_⟩
  · rw [Run.logShown, records]
    rfl
  · rw [log, words_log verbose sound n (by rw [booted]; rfl)]
    simp only [wordNote?, Option.map_map]
    rfl
  · rw [log]
    exact count_log verbose sound n listener (.inl rfl) Note.text_record_beep
      (fun told => (Trouble.record?_plain told).2.1) (by simp [booted])
  · rw [log]
    exact count_log verbose sound n listener (.inr rfl) Note.text_record_toneHeard
      (fun told => (Trouble.record?_plain told).2.2) (by simp [booted])
  · intro decoupled
    rw [List.countP_eq_zero]
    intro d member
    have loose : d.wiring = c.wiring := (sound_of_mem_starts sound member).2
    simp [sounds, loose, wiring, decoupled]

/-- A program sets a register and then the sound timer to three. In its two cycles it is told of two
words and of one beep. -/
theorem verbose_observes_one_beep :
    let canvas := Canvas.idle ⟨800, 600, by decide, by decide⟩
    let settings : CommandLine.Settings :=
      { CommandLine.Settings.standard with
        rom := "game.ch8"
        headless := true
        cycles := .number 2
        seed? := some (.number 1) }
    let rom : List Byte := [0x60, 0x03, 0xF0, 0x18]
    let quiet := runCartridge canvas { settings with verbose := false } (.ok rom) [] 0
    let loud := runCartridge canvas { settings with verbose := true } (.ok rom) [] 0
    (settings.headless = true ∧ settings.cycles = .number 2 ∧
      settings.seed? = some (.number 1) ∧ settings.rom.contains '\x00' = false ∧
      rom.length ≤ programSpace) ∧
    loud.ending = quiet.ending ∧
    loud.log.filter (·.opens "PC: ") =
      [⟨.debug, .machine, "PC: 0200  OP: 6003"⟩, ⟨.debug, .machine, "PC: 0202  OP: F018"⟩] ∧
    loud.log.countP (·.text = "BEEP!") = 1 := by
  intro canvas settings rom quiet loud
  have headless : settings.headless = true := rfl
  have cycles : settings.cycles = .number 2 := rfl
  have seeded : settings.seed? = some (.number 1) := rfl
  have named : settings.rom.contains '\x00' = false := by simp [settings]
  have fits : rom.length ≤ programSpace := by decide
  obtain ⟨⟨ending, -⟩, words, beeps, -, -⟩ :=
    verbose_observes canvas headless cycles seeded named fits [] [] 0 0
  let fresh := assembled { settings with verbose := true } (Twister.ofSeed 1)
  have here := at_reset_load fresh fits
  have ticks := congrArg Wiring.ticksAfterCycle (wired_reset_load fresh rom).2
  have silent : (fresh.reset.load rom).console.machine.sound = 0 := by
    rw [machine_reset_load _ fits]
    rfl
  have told := starts_beeping here ticks silent
  refine ⟨⟨headless, cycles, seeded, named, fits⟩, ending, ?_, beeps.trans told.2⟩
  rw [words, ← told.1]
  simp only [wordNote?, Option.map_map]
  rfl

end Program

end HexConsole
