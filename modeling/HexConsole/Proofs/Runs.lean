import HexConsole.Proofs.Reachable

/-!
# Runs of cycles

A run is a number of cycles, up to the first that fails. It is taken apart from the front here:
its first cycle, and then the run from there. Main statement: a run gets through if none of as many
cycles would fail, and else ends with the first of them that does.
-/
namespace HexConsole

namespace Console

open Machine

variable {σ : Type} [RandomSource σ]

/-- The consoles that the cycles of a run start with, up to one that fails. -/
def starts (c : Console σ) : Nat → List (Console σ)
  | 0 => []
  | n + 1 => c :: match c.cycle.failure? with
    | some _ => []
    | none => c.cycle.console.starts n

/-- Where the count starts makes no difference to the run. -/
theorem runFrom_eq (finished : Nat) (c : Console σ) (n : Nat) :
    runFrom finished c n = (finished + (c.run n).1, (c.run n).2) := by
  have count (k : Nat) : runFrom k c n = (k + (runFrom 0 c n).1, (runFrom 0 c n).2) := by
    induction n generalizing c k with
    | zero => rfl
    | succ n ih =>
      simp only [runFrom]
      cases c.cycle.failure? with
      | some e => rfl
      | none =>
        simp only [ih _ (k + 1), ih _ (0 + 1), Prod.mk.injEq, and_true]
        omega
  exact count finished

theorem run_of_failure {c : Console σ} {e : Failure} (failed : c.cycle.failure? = some e)
    (n : Nat) : c.run (n + 1) = (0, c.cycle) := by
  simp only [run, runFrom, failed]

theorem run_of_success {c : Console σ} (done : c.cycle.failure? = none) (n : Nat) :
    c.run (n + 1) = ((c.cycle.console.run n).1 + 1, (c.cycle.console.run n).2) := by
  rw [run, runFrom, done]
  simp only [runFrom_eq, Nat.add_comm]

theorem run_succ_of_failure {c : Console σ} {e : Failure} (failed : c.cycle.failure? = some e)
    (n : Nat) : (c.run (n + 1)).2 = c.cycle ∧ c.starts (n + 1) = [c] := by
  simp only [run_of_failure failed, starts, failed, and_self]

theorem run_succ_of_success {c : Console σ} (done : c.cycle.failure? = none) (n : Nat) :
    (c.run (n + 1)).2 = (c.cycle.console.run n).2 ∧
      c.starts (n + 1) = c :: c.cycle.console.starts n := by
  simp only [run_of_success done, starts, done, and_self]

theorem run_one (c : Console σ) : (c.run 1).2 = c.cycle ∧ c.starts 1 = [c] := by
  cases failure : c.cycle.failure? with
  | some e => exact run_succ_of_failure failure 0
  | none =>
    obtain ⟨outcome, starts⟩ := run_succ_of_success failure 0
    have ends : c.cycle = ⟨c.cycle.console, none⟩ := by rw [← failure]
    exact ⟨outcome.trans ends.symm, starts⟩

/-- A run ends with the cycle that it has started last. -/
theorem run_eq_last (c : Console σ) (n : Nat) :
    ∃ last, (c.starts (n + 1)).getLast? = some last ∧ (c.run (n + 1)).2 = last.cycle := by
  induction n generalizing c with
  | zero =>
    obtain ⟨outcome, starts⟩ := c.run_one
    exact ⟨c, by rw [starts]; rfl, outcome⟩
  | succ n ih =>
    cases failure : c.cycle.failure? with
    | some e =>
      obtain ⟨outcome, starts⟩ := run_succ_of_failure failure (n + 1)
      exact ⟨c, by rw [starts]; rfl, outcome⟩
    | none =>
      obtain ⟨outcome, starts⟩ := run_succ_of_success failure (n + 1)
      obtain ⟨last, member, ends⟩ := ih c.cycle.console
      exact ⟨last, by rw [starts, List.getLast?_cons, member]; rfl, outcome.trans ends⟩

theorem consistent_run {c : Console σ} (h : c.machine.Consistent) (n : Nat) :
    (c.run n).2.console.machine.Consistent := by
  induction n generalizing c with
  | zero => exact h
  | succ n ih =>
    have next := consistent_cycle h
    cases failure : c.cycle.failure? with
    | some e =>
      rw [(run_succ_of_failure failure n).1]
      exact next
    | none =>
      rw [(run_succ_of_success failure n).1]
      exact ih next

/-! ## Where a run ends -/

/-- The console after a number of cycles, whether or not some of them fail. -/
def cycled (c : Console σ) (n : Nat) : Console σ := c.performAll (List.replicate n .cycle)

@[simp] theorem cycled_zero (c : Console σ) : c.cycled 0 = c := rfl

@[simp] theorem cycled_succ (c : Console σ) (n : Nat) :
    c.cycled (n + 1) = c.cycle.console.cycled n := rfl

/-- Whether none of so many cycles fails. -/
def Undisturbed (c : Console σ) (n : Nat) : Prop := ∀ k < n, (c.cycled k).cycle.failure? = none

theorem undisturbed_succ (c : Console σ) (n : Nat) :
    c.Undisturbed (n + 1) ↔ c.cycle.failure? = none ∧ c.cycle.console.Undisturbed n := by
  constructor
  · intro all
    exact ⟨all 0 (by omega), fun k inside => all (k + 1) (by omega)⟩
  · rintro ⟨first, others⟩ k inside
    cases k with
    | zero => exact first
    | succ k => exact others k (by omega)

theorem run_of_undisturbed {c : Console σ} {n : Nat} (all : c.Undisturbed n) :
    (c.run n).2 = ⟨c.cycled n, none⟩ := by
  induction n generalizing c with
  | zero => rfl
  | succ n ih =>
    obtain ⟨first, others⟩ := (undisturbed_succ c n).mp all
    rw [run_of_success first, cycled_succ]
    exact ih others

theorem run_of_disturbed {c : Console σ} {k n : Nat} (before : c.Undisturbed k)
    {e : Failure} (failed : (c.cycled k).cycle.failure? = some e) (inside : k < n) :
    (c.run n).2 = (c.cycled k).cycle := by
  obtain ⟨n, rfl⟩ : ∃ rest, n = rest + 1 := ⟨n - 1, by omega⟩
  induction k generalizing c n with
  | zero =>
    rw [cycled_zero] at failed ⊢
    rw [run_of_failure failed]
  | succ k ih =>
    obtain ⟨first, others⟩ := (undisturbed_succ c k).mp before
    obtain ⟨rest, rfl⟩ : ∃ rest, n = rest + 1 := ⟨n - 1, by omega⟩
    rw [run_of_success first]
    exact ih others failed rest (by omega)

/-- Of so many cycles none fails, or there is a first one that does. -/
theorem undisturbed_or_first (c : Console σ) (n : Nat) :
    c.Undisturbed n ∨ ∃ k < n, c.Undisturbed k ∧ ∃ e, (c.cycled k).cycle.failure? = some e := by
  induction n with
  | zero => exact .inl fun k inside => absurd inside (by omega)
  | succ n ih =>
    obtain all | ⟨k, inside, before, failed⟩ := ih
    · cases last : (c.cycled n).cycle.failure? with
      | some e => exact .inr ⟨n, by omega, all, e, last⟩
      | none =>
        left
        intro k inside
        obtain earlier | rfl := Nat.lt_succ_iff_lt_or_eq.mp inside
        · exact all k earlier
        · exact last
    · exact .inr ⟨k, by omega, before, failed⟩

end Console

end HexConsole
