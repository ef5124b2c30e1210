import Mathlib.Data.List.Basic
import Mathlib.Tactic.Common

/-! # Loops with a cursor

A loop whose body moves a cursor forward ends, and its errors are those of its body.
-/

namespace Pixaeron.Bytes

/-- What a turn of a loop comes to: one more turn, or the end. -/
inductive Turn (σ ρ : Type) where
  | again (state : σ)
  | done (result : ρ)

variable {ε σ ρ : Type} {cut : ε} {body : σ → Except ε (Turn σ ρ)} {cursor : σ → Nat}
  {limit n m : Nat} {s : σ}

/-- A loop that is cut off, with an error of its own, if it has not ended after some rounds. -/
def loop (cut : ε) (body : σ → Except ε (Turn σ ρ)) : Nat → σ → Except ε ρ
  | 0, _ => .error cut
  | rounds + 1, s =>
    match body s with
    | .error e => .error e
    | .ok (.done result) => .ok result
    | .ok (.again next) => loop cut body rounds next

/-- Every turn that is followed by another starts below the limit and moves the cursor forward. -/
def Advances (cursor : σ → Nat) (limit : Nat) (body : σ → Except ε (Turn σ ρ)) : Prop :=
  ∀ s next, body s = .ok (.again next) → cursor s < limit ∧ cursor s < cursor next

/-- A turn whose errors are among some, and which moves the cursor forward below the limit if it is
followed by another. -/
def Proper (I : ε → Prop) (cursor : σ → Nat) (limit : Nat) (s : σ) : Except ε (Turn σ ρ) → Prop
  | .error e => I e
  | .ok (.done _) => True
  | .ok (.again next) => cursor s < limit ∧ cursor s < cursor next

theorem Advances.of_proper {I : ε → Prop} (h : ∀ s, Proper I cursor limit s (body s)) :
    Advances cursor limit body := by
  intro s next hTurn
  have hMoves := h s
  rwa [hTurn] at hMoves

theorem error_of_proper {I : ε → Prop} (h : ∀ s, Proper I cursor limit s (body s)) {e : ε}
    (hError : body s = .error e) : I e := by
  have hMoves := h s
  rwa [hError] at hMoves

theorem loop_error {e : ε} (h : body s = .error e) : loop cut body (n + 1) s = .error e := by
  simp only [loop, h]

theorem loop_done {result : ρ} (h : body s = .ok (.done result)) :
    loop cut body (n + 1) s = .ok result := by
  simp only [loop, h]

theorem loop_again {next : σ} (h : body s = .ok (.again next)) :
    loop cut body (n + 1) s = loop cut body n next := by
  simp only [loop, h]

/-- As many rounds as there are places below the limit are enough: no error but one of the body. -/
theorem loop_error_of_proper {I : ε → Prop} (h : ∀ s, Proper I cursor limit s (body s))
    (hRounds : limit - cursor s < n) {e : ε} (hError : loop cut body n s = .error e) : I e := by
  induction n generalizing s with
  | zero => omega
  | succ n ih =>
    cases hTurn : body s with
    | error e' =>
      rw [loop_error hTurn, Except.error.injEq] at hError
      exact hError ▸ error_of_proper h hTurn
    | ok turn =>
      cases turn with
      | done result =>
        rw [loop_done hTurn] at hError
        cases hError
      | again next =>
        rw [loop_again hTurn] at hError
        obtain ⟨hBelow, hForward⟩ := Advances.of_proper h s next hTurn
        exact ih (by omega) hError

theorem exists_result (h : ∀ s, Proper (fun _ => False) cursor limit s (body s))
    (hRounds : limit - cursor s < n) :
    ∃ result, loop cut body n s = .ok result := by
  cases hResult : loop cut body n s with
  | error e => exact (loop_error_of_proper h hRounds hResult).elim
  | ok result => exact ⟨result, rfl⟩

theorem Advances.stable (h : Advances cursor limit body) (hRounds : limit - cursor s < n)
    (hOther : limit - cursor s < m) :
    loop cut body n s = loop cut body m s := by
  induction n generalizing s m with
  | zero => omega
  | succ n ih =>
    obtain ⟨m, rfl⟩ : ∃ k, m = k + 1 := ⟨m - 1, by omega⟩
    cases hTurn : body s with
    | error e => rw [loop_error hTurn, loop_error hTurn]
    | ok turn =>
      cases turn with
      | done result => rw [loop_done hTurn, loop_done hTurn]
      | again next =>
        obtain ⟨hBelow, hForward⟩ := h s next hTurn
        rw [loop_again hTurn, loop_again hTurn]
        exact ih (by omega) (by omega)

end Pixaeron.Bytes
