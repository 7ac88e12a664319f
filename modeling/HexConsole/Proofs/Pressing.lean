import HexConsole.Proofs.Resetting
import HexConsole.Proofs.Waiting

/-!
# Keys hold what was written last

Keys are written all at once, or one at a time by a number that may count from the end. A call with
the wrong number of states, or with a number that names no key, is refused as a whole. Main
statement: whatever else goes on, a key holds what an accepted call wrote to it last, so that a
keypad shows nothing of the calls that it was set by.
-/
namespace HexConsole

namespace Operation

/-- The key that a number stands for, if there is one. -/
def fromFront (number : Int) : Int := if 0 ≤ number then number else number + 16

/-- What an operation writes to a key, if it is accepted and writes to the key at all. -/
def writes? (k : Fin 16) : Operation → Option Bool
  | setKeys states => if states.length = 16 then states[k.val]? else none
  | press number => if fromFront number = k then some true else none
  | release number => if fromFront number = k then some false else none
  | _ => none

/-- What some operations wrote to a key last. -/
def lastWritten? (operations : List Operation) (k : Fin 16) : Option Bool :=
  operations.reverse.findSome? (writes? k)

theorem fromFront_eq_iff {number : Int} {k : Fin 16} :
    fromFront number = k ↔ position? 16 number = some k := by
  rw [position?_eq_some_iff, fromFront]
  split_ifs <;> omega

theorem writes?_handOver (data : List Datum) (k : Fin 16) : (handOver data).writes? k =
    if data.length = 16 then data[k.val]?.map Datum.holds else none := by
  simp [handOver, writes?]

/-- A later operation comes before the earlier ones. -/
theorem lastWritten?_cons (operation : Operation) (rest : List Operation) (k : Fin 16) :
    lastWritten? (operation :: rest) k = (lastWritten? rest k).or (operation.writes? k) := by
  simp [lastWritten?, List.findSome?_append]

end Operation

namespace Console

open Machine Operation

variable {σ : Type}

/-! ## Single calls -/

/-- Pressing and releasing are refused alike. -/
theorem failure_setKey (c : Console σ) (number : Int) (down : Bool) :
    (c.update (c.machine.setKey number down)).failure? =
      if -16 ≤ number ∧ number ≤ 15 then none else some (.noCell .keys .writing number) := by
  simp only [update, Machine.setKey]
  cases named : position? 16 number with
  | none =>
    have outside := (position?_eq_none_iff 16 number).mp named
    rw [if_neg (by omega)]
  | some k =>
    have inside : -16 ≤ number ∧ number ≤ 15 := by
      have place := position?_eq_some_iff.mp named
      omega
    exact (if_pos inside).symm

theorem keys_setKey (c : Console σ) (number : Int) (down : Bool) (k : Fin 16) :
    (c.update (c.machine.setKey number down)).console.machine.keys.get k =
      if fromFront number = k then down else c.machine.keys.get k := by
  simp only [update, Machine.setKey]
  cases named : position? 16 number with
  | none =>
    have elsewhere : fromFront number ≠ k := by
      rw [Ne, fromFront_eq_iff, named]
      exact (Option.some_ne_none k).symm
    rw [if_neg elsewhere]
  | some j =>
    have here : fromFront number = k ↔ j.val = k.val := by
      rw [fromFront_eq_iff, named, Option.some_inj, Fin.ext_iff]
    simp only [here]
    exact Vector.getElem_set j.isLt k.isLt

/-- An update that fails leaves the console as it was. -/
theorem update_refused {c : Console σ} {result : Except Failure Machine}
    (failed : (c.update result).failure? ≠ none) : (c.update result).console = c := by
  cases result with
  | ok machine => exact absurd rfl failed
  | error e => rfl

variable [RandomSource σ]

theorem failure_setKeys (c : Console σ) (states : List Bool) :
    (c.perform (.setKeys states)).failure? =
      if states.length = 16 then none else some (.keyCount states.length) := by
  simp only [perform, update, Machine.setKeys]
  split_ifs <;> rfl

theorem movesKeys_refused {c : Console σ} {operation : Operation}
    (moves : operation.movesKeys = true) (failed : (c.perform operation).failure? ≠ none) :
    (c.perform operation).console = c := by
  cases operation with
  | setKeys | press | release => exact update_refused failed
  | _ => cases moves

/-! ## Runs of calls -/

theorem keys_setKeys (c : Console σ) (states : List Bool) (k : Fin 16) :
    (c.perform (.setKeys states)).console.machine.keys.get k =
      ((setKeys states).writes? k).getD (c.machine.keys.get k) := by
  simp only [perform, update, Machine.setKeys, writes?]
  by_cases count : states.length = 16
  · have inside : k.val < states.length := by omega
    simp only [dif_pos count, if_pos count, List.getElem?_eq_getElem inside]
    rfl
  · simp only [dif_neg count, if_neg count]
    rfl

/-- A key changes by what an operation writes to it, and by nothing else. -/
theorem keys_perform (c : Console σ) {operation : Operation} (kept : operation ≠ .reset)
    (k : Fin 16) : (c.perform operation).console.machine.keys.get k =
      (operation.writes? k).getD (c.machine.keys.get k) := by
  cases operation with
  | reset => exact absurd rfl kept
  | load rom =>
    simp only [perform, load, Machine.load]
    cases refusal? rom.length <;> rfl
  | setKeys states => exact keys_setKeys c states k
  | press number | release number =>
    refine (keys_setKey c number _ k).trans ?_
    simp only [writes?]
    split_ifs <;> rfl
  | clearRedraw => rfl
  | tick =>
    simp only [perform, machine_tick]
    rfl
  | fetch =>
    rw [perform_fetch]
    rfl
  | process operand =>
    have still : (c.process operand).console.machine.keys = c.machine.keys :=
      congrArg (·.1) (surroundings_process c operand)
    exact congrArg (·.get k) still
  | cycle => exact congrArg (·.get k) (keys_cycle c)

theorem keys_performAll (c : Console σ) {operations : List Operation}
    (kept : .reset ∉ operations) (k : Fin 16) :
    (c.performAll operations).machine.keys.get k =
      (lastWritten? operations k).getD (c.machine.keys.get k) := by
  induction operations generalizing c with
  | nil => rfl
  | cons operation rest ih =>
    rw [List.mem_cons, not_or] at kept
    have later := ih (c.perform operation).console kept.2
    rw [keys_perform c (Ne.symm kept.1)] at later
    rw [lastWritten?_cons]
    cases last : lastWritten? rest k with
    | none =>
      rw [last] at later
      exact later
    | some down =>
      rw [last] at later
      exact later

/-! ## Keypads that were set differently -/

/-- Calls that move keys change nothing else. -/
theorem performAll_movesKeys (c : Console σ) {moves : List Operation}
    (only : ∀ o ∈ moves, o.movesKeys = true) :
    c.performAll moves = { c with machine := { c.machine with
      keys := (c.performAll moves).machine.keys } } := by
  induction moves generalizing c with
  | nil => rfl
  | cons operation rest ih =>
    obtain ⟨first, others⟩ := List.forall_mem_cons.mp only
    obtain ⟨keys, moved⟩ : ∃ keys, (c.perform operation).console =
        { c with machine := { c.machine with keys } } := ⟨_, perform_movesKeys c first⟩
    have split : c.performAll (operation :: rest) =
        { c with machine := { c.machine with keys } }.performAll rest :=
      congrArg (·.performAll rest) moved
    rw [split]
    exact ih _ others

theorem reset_notMem_of_movesKeys {moves : List Operation}
    (only : ∀ o ∈ moves, o.movesKeys = true) : Operation.reset ∉ moves := by
  intro member
  cases only _ member

/-- Calls that write the same to every key leave the same console. -/
theorem performAll_congr_movesKeys {c : Console σ} {moves others : List Operation}
    (first : ∀ o ∈ moves, o.movesKeys = true) (second : ∀ o ∈ others, o.movesKeys = true)
    (same : ∀ k, (lastWritten? moves k).getD (c.machine.keys.get k) =
      (lastWritten? others k).getD (c.machine.keys.get k)) :
    c.performAll moves = c.performAll others := by
  have keys : (c.performAll moves).machine.keys = (c.performAll others).machine.keys := by
    apply Vector.ext
    intro k inside
    have left := keys_performAll c (reset_notMem_of_movesKeys first) ⟨k, inside⟩
    have right := keys_performAll c (reset_notMem_of_movesKeys second) ⟨k, inside⟩
    exact left.trans ((same _).trans right.symm)
  rw [performAll_movesKeys c first, performAll_movesKeys c second, keys]

/-- In a run without a reset there are always sixteen keys, and each of them holds what an accepted
call wrote to it last, or what it held at first. States are refused unless there are sixteen of
them, and a number unless it is between -16 and 15, and a refused call changes nothing. Where all
keys are up, any calls that write to each key what some data say leave the console that is left
when the data are handed over at once, whatever follows. -/
theorem keys_last_written (c : Console σ) {operations : List Operation}
    (kept : .reset ∉ operations) :
    let d := c.performAll operations
    d.machine.keys.toList.length = 16 ∧
    (∀ k, d.machine.keys.get k = (lastWritten? operations k).getD (c.machine.keys.get k)) ∧
    (∀ data k, (handOver data).writes? k =
      if data.length = 16 then data[k.val]?.map Datum.holds else none) ∧
    (∀ data, (d.perform (handOver data)).failure? =
      if data.length = 16 then none else some (.keyCount data.length)) ∧
    (∀ number, ∀ call ∈ [press number, release number], (d.perform call).failure? =
      if -16 ≤ number ∧ number ≤ 15 then none else some (.noCell .keys .writing number)) ∧
    (∀ call : Operation, call.movesKeys = true → (d.perform call).failure? ≠ none →
      (d.perform call).console = d) ∧
    (d.machine.keys = .released → ∀ (moves : List Operation) (data : List Datum),
      (∀ o ∈ moves, o.movesKeys = true) → data.length = 16 →
      (∀ k : Fin 16, data[k.val]?.map Datum.holds = some ((lastWritten? moves k).getD false)) →
      ∀ later, d.performAll (moves ++ later) = d.performAll (handOver data :: later) ∧
        (d.performAll moves).replies later =
          (d.performAll [handOver data]).replies later) := by
  intro d
  refine ⟨Vector.length_toList, keys_performAll c kept, writes?_handOver, ?_, ?_,
    fun _ => movesKeys_refused, ?_⟩
  · intro data
    have refused := failure_setKeys d (data.map Datum.holds)
    rwa [List.length_map] at refused
  · intro number call member
    obtain rfl | rfl : call = press number ∨ call = release number := by simpa using member
    · exact failure_setKey d number true
    · exact failure_setKey d number false
  · intro up moves data only count effect later
    have same : d.performAll moves = d.performAll [handOver data] := by
      refine performAll_congr_movesKeys only (by simp [handOver, movesKeys]) fun k => ?_
      have released : d.machine.keys.get k = false := by
        rw [up]
        exact Vector.getElem_replicate k.isLt
      have handed : lastWritten? [handOver data] k =
          some ((lastWritten? moves k).getD false) := by
        rw [← effect k]
        have whole := writes?_handOver data k
        rw [if_pos count] at whole
        rw [lastWritten?_cons, whole]
        rfl
      rw [handed, released]
      rfl
    refine ⟨?_, by rw [same]⟩
    have together : d.performAll (moves ++ later) = (d.performAll moves).performAll later :=
      List.foldl_append
    rw [together, same]
    rfl

/-- The last key is pressed by its number from the end, after a number too large has been refused.
That leaves what is left by handing over a text for the last key, and nothing for the others. -/
theorem keys_last_written_from_the_end :
    let c := (assemble ⟨true, true⟩ (Tape.repeating #[]) .debug).reset
    let operations : List Operation := [.press 3, .cycle, .release (-13)]
    let moves : List Operation := [.press 5, .press 16, .press (-1), .release 5]
    let data : List Datum := List.replicate 15 .absent ++ [.text "down"]
    let d := c.performAll operations
    (.reset ∉ operations ∧ d.machine.keys = .released ∧ (∀ o ∈ moves, o.movesKeys = true) ∧
      data.length = 16 ∧
      ∀ k : Fin 16, data[k.val]?.map Datum.holds = some ((lastWritten? moves k).getD false)) ∧
    (d.perform (.press 16)).failure? = some (.noCell .keys .writing 16) ∧
    d.performAll (moves ++ [.cycle]) = d.performAll [handOver data, .cycle] := by
  intro c operations moves data d
  have kept : Operation.reset ∉ operations := by decide
  have only : ∀ o ∈ moves, o.movesKeys = true := by decide
  have effect : ∀ k : Fin 16,
      data[k.val]?.map Datum.holds = some ((lastWritten? moves k).getD false) := by decide
  obtain ⟨-, keys, -, -, refused, -, alike⟩ := keys_last_written c kept
  have up : d.machine.keys = .released := by
    have last : ∀ k : Fin 16, (lastWritten? operations k).getD (Keypad.released.get k) =
        Keypad.released.get k := by decide
    apply Vector.ext
    intro k inside
    exact (keys ⟨k, inside⟩).trans (last ⟨k, inside⟩)
  exact ⟨⟨kept, up, only, rfl, effect⟩, refused 16 (.press 16) (by simp),
    (alike up moves data only rfl effect [.cycle]).1⟩

end Console

end HexConsole
