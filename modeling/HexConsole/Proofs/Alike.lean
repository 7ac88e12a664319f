import HexConsole.Proofs.Footprint

/-!
# Machines that are alike

Two machines are alike up to some of the parts that a host moves: the timers, the keypad and the
request for a redraw. Main statement: two consoles that are alike and draw the same bytes stay
alike in a cycle, and fail in it with the same fault, if the instruction of the cycle finds the
same in both where it reads such a part.
-/
namespace HexConsole

/-- The parts of a machine that a host moves between cycles. The tone belongs to the timers. -/
inductive Facet where
  | clock
  | keypad
  | redraw
  deriving DecidableEq, Repr

/-- Two results are both the same fault, or both machines that are related. -/
inductive Matching (related : Machine → Machine → Prop) :
    Except Fault Machine → Except Fault Machine → Prop
  | error (f : Fault) : Matching related (.error f) (.error f)
  | ok {m n : Machine} (h : related m n) : Matching related (.ok m) (.ok n)

namespace Machine

variable {m n : Machine} {parts : List Facet}

/-- Two machines that differ at most in some of the parts that a host moves. -/
structure Alike (parts : List Facet) (m n : Machine) : Prop where
  rest : n = { m with
    delay := n.delay
    sound := n.sound
    tone := n.tone
    keys := n.keys
    redraw := n.redraw }
  clock : .clock ∉ parts → n.delay = m.delay ∧ n.sound = m.sound ∧ n.tone = m.tone
  keypad : .keypad ∉ parts → n.keys = m.keys
  redraw : .redraw ∉ parts → n.redraw = m.redraw

/-- Whether an instruction finds the same in two machines where it reads what a host moves. -/
def FindsSame (m n : Machine) : Instruction → Prop
  | .readDelay _ => n.delay = m.delay
  | .skipIfPressed x => m.reg x < 16 → n.keyDown (m.reg x) = m.keyDown (m.reg x)
  | .skipUnlessPressed x => m.reg x < 16 → n.keyDown (m.reg x) = m.keyDown (m.reg x)
  | .awaitKey _ => n.keys.first? = m.keys.first?
  | _ => True

/-- The parts of a machine that a host moves between cycles. -/
def hosted (m : Machine) : Int × Int × Bool × Keypad × Bool :=
  (m.delay, m.sound, m.tone, m.keys, m.redraw)

namespace Alike

theorem refl (parts : List Facet) (m : Machine) : Alike parts m m :=
  ⟨rfl, fun _ => ⟨rfl, rfl, rfl⟩, fun _ => rfl, fun _ => rfl⟩

/-- Only an instruction that reads the delay timer tells two machines apart that have the same
keys down. -/
theorem findsSame (h : Alike parts m n) (keypad : .keypad ∉ parts) {i : Instruction}
    (unread : .clock ∈ parts → ∀ x, i ≠ .readDelay x) : FindsSame m n i := by
  have keys := h.keypad keypad
  cases i with
  | readDelay x =>
    by_cases clock : Facet.clock ∈ parts
    · exact absurd rfl (unread clock x)
    · exact (h.clock clock).1
  | skipIfPressed x | skipUnlessPressed x =>
    intro _
    simp only [keyDown, keys]
  | awaitKey x => exact congrArg Keypad.first? keys
  | _ => trivial

/-- The second machine is the first one with other values in the parts that a host moves. -/
theorem eq_hosted (h : Alike parts m n) : ∃ delay sound tone keys redraw,
    n = { m with delay, sound, tone, keys, redraw } :=
  ⟨n.delay, n.sound, n.tone, n.keys, n.redraw, h.rest⟩

/-- Machines stay alike if nothing that a host moves is written in either, and the same is
written in both. -/
theorem congr (h : Alike parts m n) {result other : Machine}
    (rest : other = { result with
      delay := other.delay
      sound := other.sound
      tone := other.tone
      keys := other.keys
      redraw := other.redraw })
    (left : result.hosted = m.hosted) (right : other.hosted = n.hosted) :
    Alike parts result other := by
  simp only [Machine.hosted, Prod.mk.injEq] at left right
  obtain ⟨delay, sound, tone, keys, redraw⟩ := left
  obtain ⟨delay', sound', tone', keys', redraw'⟩ := right
  refine ⟨rest, ?_, ?_, ?_⟩
  · rw [delay, sound, tone, delay', sound', tone']
    exact h.clock
  · rw [keys, keys']
    exact h.keypad
  · rw [redraw, redraw']
    exact h.redraw

theorem withMemory (h : Alike parts m n) (memory : Array Byte) :
    Alike parts { m with memory } { n with memory } := by
  obtain ⟨delay, sound, tone, keys, redraw, rfl⟩ := h.eq_hosted
  exact h.congr rfl rfl rfl

theorem withRegisters (h : Alike parts m n) (registers : Array Int) :
    Alike parts { m with registers } { n with registers } := by
  obtain ⟨delay, sound, tone, keys, redraw, rfl⟩ := h.eq_hosted
  exact h.congr rfl rfl rfl

theorem withinMemory (h : Alike parts m n) (length : Nat) {result other : Machine}
    (alike : Alike parts result other) :
    Matching (Alike parts) (m.withinMemory length result) (n.withinMemory length other) := by
  unfold Machine.withinMemory
  rw [h.rest]
  by_cases fits : length = 0 ∨ m.index + length ≤ memorySize
  · simp only [if_pos fits]
    exact .ok alike
  · simp only [if_neg fits]
    exact .error _

theorem skippedIf (h : Alike parts m n) (condition : Bool) :
    Alike parts (m.skippedIf condition) (n.skippedIf condition) := by
  cases condition with
  | false => exact h
  | true =>
    obtain ⟨delay, sound, tone, keys, redraw, rfl⟩ := h.eq_hosted
    exact h.congr rfl rfl rfl

theorem withKey (h : Alike parts m n) {x : Register}
    (same : m.reg x < 16 → n.keyDown (m.reg x) = m.keyDown (m.reg x))
    {result other : Bool → Machine} (alike : ∀ down, Alike parts (result down) (other down)) :
    Matching (Alike parts) (m.withKey x result) (n.withKey x other) := by
  have register : n.reg x = m.reg x := by
    rw [h.rest]
    rfl
  have operand : n.operand = m.operand := by rw [h.rest]
  have address : n.operandAddress = m.operandAddress := by rw [h.rest]
  unfold Machine.withKey
  rw [register, operand, address]
  by_cases far : 16 ≤ m.reg x
  · simp only [if_pos far]
    exact .error _
  · simp only [if_neg far, same (by omega)]
    exact .ok (alike _)

end Alike

/-- An instruction that finds the same in two machines keeps them alike, or has the same fault
in both. -/
theorem effect_alike (h : Alike parts m n) (byte : Int) {i : Instruction}
    (same : FindsSame m n i) : Matching (Alike parts) (m.effect byte i) (n.effect byte i) := by
  obtain ⟨delay, sound, tone, keys, redraw, rfl⟩ := h.eq_hosted
  cases i with
  | clearScreen => exact .ok ⟨rfl, h.clock, h.keypad, fun _ => rfl⟩
  | draw x y height => exact h.withinMemory _ ⟨rfl, h.clock, h.keypad, fun _ => rfl⟩
  | leave =>
    by_cases empty : m.depth = 0
    · simp only [effect, if_pos empty]
      exact .error _
    · simp only [effect, if_neg empty]
      exact .ok (h.congr rfl rfl rfl)
  | call target =>
    by_cases full : m.depth = stackDepth
    · simp only [effect, if_pos full]
      exact .error _
    · simp only [effect, if_neg full]
      exact .ok (h.congr rfl rfl rfl)
  | skipIfEquals | skipUnlessEquals | skipIfSame | skipUnlessSame =>
    exact .ok (h.skippedIf _)
  | skipIfPressed x => exact h.withKey same fun down => h.skippedIf down
  | skipUnlessPressed x => exact h.withKey same fun down => h.skippedIf !down
  | compute how x y => cases how <;> exact .ok (h.congr rfl rfl rfl)
  | readDelay x =>
    simp only [FindsSame] at same
    subst same
    exact .ok (h.congr rfl rfl rfl)
  | awaitKey x =>
    simp only [FindsSame] at same
    simp only [effect, same]
    cases m.keys.first? with
    | none => exact .ok (h.congr rfl rfl rfl)
    | some key => exact .ok (h.congr rfl rfl rfl)
  | setDelay x => exact .ok ⟨rfl, fun clock => ⟨rfl, (h.clock clock).2⟩, h.keypad, h.redraw⟩
  | setSound x =>
    exact .ok ⟨rfl, fun clock => ⟨(h.clock clock).1, rfl, (h.clock clock).2.2⟩, h.keypad, h.redraw⟩
  | storeDecimal x => exact h.withinMemory _ (h.withMemory _)
  | storeRegisters last =>
    have memory : { m with delay, sound, tone, keys, redraw }.savedMemory (last.val + 1) =
        m.savedMemory (last.val + 1) := by
      simp only [savedMemory, reg, byteAt]
    apply h.withinMemory
    rw [saved, saved, memory]
    exact h.withMemory _
  | loadRegisters last =>
    have registers : { m with delay, sound, tone, keys, redraw }.restoredRegisters (last.val + 1) =
        m.restoredRegisters (last.val + 1) := by
      simp only [restoredRegisters, reg, byteAt]
    apply h.withinMemory
    rw [restored, restored, registers]
    exact h.withRegisters _
  | _ => exact .ok (h.congr rfl rfl rfl)

theorem obeyed_alike (h : Alike parts m n) (byte : Int) {operand : Int}
    (same : ∀ i, Instruction.decode operand = some i → FindsSame m n i) :
    Matching (Alike parts) (m.obeyed byte operand) (n.obeyed byte operand) := by
  unfold obeyed
  cases decoded : Instruction.decode operand with
  | none =>
    have address : n.operandAddress = m.operandAddress := by rw [h.rest]
    simp only [address]
    exact .error _
  | some i => exact effect_alike h byte (same i decoded)

namespace Alike

theorem fetched (h : Alike parts m n) : Alike parts m.fetched n.fetched := by
  obtain ⟨delay, sound, tone, keys, redraw, rfl⟩ := h.eq_hosted
  exact h.congr rfl rfl rfl

theorem withFault (h : Alike parts m n) (fault : Option Fault) :
    Alike parts { m with fault } { n with fault } := by
  obtain ⟨delay, sound, tone, keys, redraw, rfl⟩ := h.eq_hosted
  exact h.congr rfl rfl rfl

theorem looking (h : Alike parts m n) :
    Alike parts { m with operandAddress := m.counter } { n with operandAddress := n.counter } := by
  obtain ⟨delay, sound, tone, keys, redraw, rfl⟩ := h.eq_hosted
  exact h.congr rfl rfl rfl

theorem fetch (h : Alike parts m n) (hm : m.Nominal) (hn : n.Nominal) : n.fetch = m.fetch := by
  rw [fetch_eq hm, fetch_eq hn]
  obtain ⟨delay, sound, tone, keys, redraw, rfl⟩ := h.eq_hosted
  rfl

/-! ## What a host does -/

theorem tick (h : Alike parts m n) : Alike parts m.tick n.tick := by
  obtain ⟨delay, sound, tone, keys, redraw, rfl⟩ := h.eq_hosted
  refine ⟨rfl, ?_, h.keypad, h.redraw⟩
  intro clock
  obtain ⟨rfl, rfl, rfl⟩ := h.clock clock
  exact ⟨rfl, rfl, rfl⟩

theorem tick_left (h : Alike parts m n) (clock : .clock ∈ parts) : Alike parts m.tick n :=
  ⟨h.rest, fun absent => absurd clock absent, h.keypad, h.redraw⟩

theorem tick_right (h : Alike parts m n) (clock : .clock ∈ parts) : Alike parts m n.tick := by
  obtain ⟨delay, sound, tone, keys, redraw, rfl⟩ := h.eq_hosted
  exact ⟨rfl, fun absent => absurd clock absent, h.keypad, h.redraw⟩

theorem withRedraw (h : Alike parts m n) (redraw : Bool) :
    Alike parts { m with redraw } { n with redraw } := by
  obtain ⟨delay, sound, tone, keys, other, rfl⟩ := h.eq_hosted
  exact ⟨rfl, h.clock, h.keypad, fun _ => rfl⟩

theorem withRedraw_left (h : Alike parts m n) (listed : .redraw ∈ parts) (redraw : Bool) :
    Alike parts { m with redraw } n :=
  ⟨h.rest, h.clock, h.keypad, fun absent => absurd listed absent⟩

theorem withRedraw_right (h : Alike parts m n) (listed : .redraw ∈ parts) (redraw : Bool) :
    Alike parts m { n with redraw } := by
  obtain ⟨delay, sound, tone, keys, other, rfl⟩ := h.eq_hosted
  exact ⟨rfl, h.clock, h.keypad, fun absent => absurd listed absent⟩

theorem withKeys (h : Alike parts m n) {keys other : Keypad}
    (same : .keypad ∉ parts → other = keys) :
    Alike parts { m with keys } { n with keys := other } := by
  obtain ⟨delay, sound, tone, held, redraw, rfl⟩ := h.eq_hosted
  exact ⟨rfl, h.clock, same, h.redraw⟩

end Alike

end Machine

namespace RandomSource

variable {σ : Type} [RandomSource σ]

theorem after_draw (source : σ) (k : Nat) : after (draw source).2 k = after source (k + 1) := by
  induction k with
  | zero => rfl
  | succ k ih =>
    simp only [after]
    rw [ih]
    rfl

/-- What a source gives after a draw is what it gives from the second place on. -/
theorem stream_draw (source : σ) (k : Nat) : stream (draw source).2 k = stream source (k + 1) := by
  simp only [stream, after_draw]

end RandomSource

namespace Console

open Machine

variable {σ τ : Type} {c : Console σ} {d : Console τ}

/-- The address and the word that the next cycle executes. There is none if the machine is halted
or has no word to fetch. -/
def fetching (c : Console σ) : Option (Int × Int) :=
  match c.machine.fault, c.machine.fetch with
  | none, .ok word => some (c.machine.counter, word)
  | _, _ => none

theorem executing_eq_bind (c : Console σ) :
    c.executing = c.fetching.bind fun fetched => Instruction.decode fetched.2 := by
  unfold executing fetching
  cases c.machine.fault with
  | some f => rfl
  | none =>
    cases c.machine.fetch with
    | ok word => rfl
    | error e => rfl

variable [RandomSource σ] [RandomSource τ] {parts : List Facet}

theorem wiring_supply (c : Console σ) (word : Int) : (c.supply word).2.wiring = c.wiring := by
  unfold supply
  split_ifs <;> rfl

/-- Two sources that agree give the same byte and agree after it. -/
theorem supply_agrees
    (bytes : ∀ k, RandomSource.stream d.source k = RandomSource.stream c.source k) (word : Int) :
    (d.supply word).1 = (c.supply word).1 ∧ ∀ k,
      RandomSource.stream (d.supply word).2.source k =
        RandomSource.stream (c.supply word).2.source k := by
  by_cases draws : (Instruction.decode word).any Instruction.drawsByte = true
  · simp only [supply, if_pos draws, RandomSource.stream_draw]
    exact ⟨bytes 0, fun k => bytes (k + 1)⟩
  · unfold supply
    rw [if_neg draws, if_neg draws]
    exact ⟨rfl, bytes⟩

/-- Two consoles with machines that are alike, which draw the same bytes. They are wired alike if
the timers have to agree. -/
structure Alike (parts : List Facet) (c : Console σ) (d : Console τ) : Prop where
  machine : c.machine.Alike parts d.machine
  bytes : ∀ k, RandomSource.stream d.source k = RandomSource.stream c.source k
  wiring : .clock ∉ parts → d.wiring.ticksAfterCycle = c.wiring.ticksAfterCycle

namespace Alike

theorem update (h : Alike parts c d) {m n : Machine} (alike : m.Alike parts n) :
    Alike parts { c with machine := m } { d with machine := n } :=
  ⟨alike, h.bytes, h.wiring⟩

theorem note (h : Alike parts c d) (a b : Note) : Alike parts (c.note a) (d.note b) :=
  ⟨h.machine, h.bytes, h.wiring⟩

theorem counter_eq (h : Alike parts c d) : d.machine.counter = c.machine.counter := by
  rw [h.machine.rest]

theorem fault_eq (h : Alike parts c d) : d.machine.fault = c.machine.fault := by
  rw [h.machine.rest]

theorem nextWord_eq (h : Alike parts c d) : d.nextWord = c.nextWord := by
  unfold nextWord wordAt byteAt
  rw [h.machine.rest]

theorem endFault_eq (h : Alike parts c d) : d.endFault = c.endFault := by
  unfold endFault
  rw [h.machine.rest]

theorem fetching_eq (h : Alike parts c d) (hc : c.machine.Nominal) (hd : d.machine.Nominal) :
    d.fetching = c.fetching := by
  unfold fetching
  rw [h.machine.fetch hc hd, h.fault_eq, h.counter_eq]

theorem supply (h : Alike parts c d) (word : Int) :
    (d.supply word).1 = (c.supply word).1 ∧
      Alike parts (c.supply word).2 (d.supply word).2 := by
  obtain ⟨byte, later⟩ := supply_agrees h.bytes word
  refine ⟨byte, ?_, later, ?_⟩
  · rw [machine_supply, machine_supply]
    exact h.machine
  · rw [wiring_supply, wiring_supply]
    exact h.wiring

theorem tick (h : Alike parts c d) : Alike parts c.tick d.tick := by
  obtain ⟨source, wiring⟩ := tick_wired c
  obtain ⟨source', wiring'⟩ := tick_wired d
  refine ⟨?_, ?_, ?_⟩
  · rw [machine_tick, machine_tick]
    exact h.machine.tick
  · rw [source, source']
    exact h.bytes
  · rw [wiring, wiring']
    exact h.wiring

theorem tick_left (h : Alike parts c d) (clock : .clock ∈ parts) : Alike parts c.tick d := by
  obtain ⟨source, -⟩ := tick_wired c
  refine ⟨?_, ?_, fun absent => absurd clock absent⟩
  · rw [machine_tick]
    exact h.machine.tick_left clock
  · rw [source]
    exact h.bytes

theorem tick_right (h : Alike parts c d) (clock : .clock ∈ parts) : Alike parts c d.tick := by
  obtain ⟨source, -⟩ := tick_wired d
  refine ⟨?_, ?_, fun absent => absurd clock absent⟩
  · rw [machine_tick]
    exact h.machine.tick_right clock
  · rw [source]
    exact h.bytes

theorem settle (h : Alike parts c d) : Alike parts c.settle d.settle := by
  unfold Console.settle
  by_cases clock : Facet.clock ∈ parts
  · split_ifs
    · exact h.tick
    · exact h.tick_left clock
    · exact h.tick_right clock
    · exact h
  · rw [h.wiring clock]
    split_ifs
    · exact h.tick
    · exact h

theorem fetched (h : Alike parts c d) : Alike parts c.fetched d.fetched :=
  (h.update h.machine.fetched).note _ _

theorem halted (h : Alike parts c d) (f : Fault) : Alike parts (c.halted f) (d.halted f) :=
  (h.update (h.machine.withFault (some f))).note _ _

end Alike

/-- A cycle of a machine that runs, as one equation. -/
theorem cycle_running {c : Console σ} (h : c.machine.Nominal) (running : c.machine.fault = none) :
    c.cycle = if 4094 < c.machine.counter then
        ⟨c.look.halted c.endFault, some (.fault c.endFault)⟩
      else match c.fetched.attempt c.nextWord with
        | .ok n => ⟨{ (c.fetched.supply c.nextWord).2 with machine := n }.settle, none⟩
        | .error f => ⟨c.fetched.halted f, some (.fault f)⟩ := by
  obtain ⟨past, ends⟩ | ⟨inside, f, raised, ends⟩ | ⟨inside, n, done, ends⟩ := cycle_cases h running
  · rw [if_pos past, ends]
  · rw [if_neg (by omega), raised, ends]
  · rw [if_neg (by omega), done, ends]

/-- Consoles that are alike have the same failure in a cycle, and stay alike. -/
theorem cycle_alike (h : Alike parts c d) (hc : c.machine.Nominal) (hd : d.machine.Nominal)
    (same : ∀ i, c.executing = some i → FindsSame c.machine d.machine i) :
    d.cycle.failure? = c.cycle.failure? ∧ Alike parts c.cycle.console d.cycle.console := by
  cases halted : c.machine.fault with
  | some f =>
    rw [cycle_halted halted, cycle_halted (h.fault_eq.trans halted)]
    exact ⟨rfl, h⟩
  | none =>
    rw [cycle_running hc halted, cycle_running hd (h.fault_eq.trans halted), h.counter_eq]
    by_cases past : 4094 < c.machine.counter
    · rw [if_pos past, if_pos past, h.endFault_eq]
      exact ⟨rfl, Alike.halted (h.update h.machine.looking) _⟩
    · rw [if_neg past, if_neg past, h.nextWord_eq]
      obtain ⟨byte, supplied⟩ := h.fetched.supply c.nextWord
      have finds : ∀ i, Instruction.decode c.nextWord = some i →
          FindsSame c.machine.fetched d.machine.fetched i := by
        intro i decoded
        have found := same i ((executing_eq_some_iff hc).mpr ⟨halted, by omega, decoded⟩)
        cases i <;> exact found
      have theirs : d.fetched.attempt c.nextWord =
          d.machine.fetched.obeyed (c.fetched.supply c.nextWord).1 c.nextWord := by
        rw [← byte, ← h.nextWord_eq, attempt_fetched]
      have matching := obeyed_alike h.machine.fetched (c.fetched.supply c.nextWord).1 finds
      rw [← attempt_fetched, ← theirs] at matching
      generalize c.fetched.attempt c.nextWord = left at matching ⊢
      generalize d.fetched.attempt c.nextWord = right at matching ⊢
      cases matching with
      | error f => exact ⟨rfl, h.fetched.halted f⟩
      | ok alike => exact ⟨rfl, (supplied.update alike).settle⟩

/-- Consoles that are alike fail together in an operation that lets the machine go on, and stay
alike. -/
theorem perform_alike (h : Alike parts c d) (hc : c.machine.Nominal) (hd : d.machine.Nominal)
    {operation : Operation} (continues : operation.continues = true)
    (same : operation = .cycle → ∀ i, c.executing = some i → FindsSame c.machine d.machine i) :
    (d.perform operation).failure? = (c.perform operation).failure? ∧
      Alike parts (c.perform operation).console (d.perform operation).console := by
  cases operation with
  | reset | process => cases continues
  | cycle => exact cycle_alike h hc hd (same rfl)
  | tick => exact ⟨rfl, h.tick⟩
  | clearRedraw => exact ⟨rfl, h.update (h.machine.withRedraw false)⟩
  | load rom =>
    have memory : d.machine.memory = c.machine.memory := by rw [h.machine.rest]
    simp only [perform, load, Machine.load]
    cases refusal? rom.length with
    | some e => exact ⟨rfl, h⟩
    | none =>
      rw [memory]
      exact ⟨rfl, (h.update (h.machine.withMemory _)).note _ _⟩
  | setKeys states =>
    simp only [perform, setKeys]
    by_cases sixteen : states.length = 16
    · rw [dif_pos sixteen, dif_pos sixteen]
      exact ⟨rfl, h.update (h.machine.withKeys fun _ => rfl)⟩
    · rw [dif_neg sixteen, dif_neg sixteen]
      exact ⟨rfl, h⟩
  | press key | release key =>
    simp only [perform, setKey]
    cases position? 16 key with
    | none => exact ⟨rfl, h⟩
    | some k =>
      refine ⟨rfl, h.update (h.machine.withKeys ?_)⟩
      intro keypad
      rw [h.machine.keypad keypad]
  | fetch =>
    simp only [perform, h.machine.fetch hc hd]
    cases c.machine.fetch with
    | ok word => exact ⟨rfl, h⟩
    | error e => exact ⟨rfl, h⟩

end Console

end HexConsole
