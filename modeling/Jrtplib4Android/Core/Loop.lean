import Mathlib.Logic.Relation
import Mathlib.Tactic.Common

/-!
# While loops

A loop body maps the variables at the loop head to a `Pass`: go round again
with new variables, or leave with a result. `loop` runs a body for a bounded
number of passes, so every loop stays executable; `loop_eq_some` is the total
correctness rule (an invariant and a decreasing variant give a result), and
`loop_post` the partial one (whatever the loop returns satisfies what every
leaving pass establishes). `Visits` are the states of the loop head in a run, with
`visits_invariant` for what holds in each of them.
-/

namespace CSem

variable {σ ρ : Type*}

/-- What one pass through a loop body leads to. -/
inductive Pass (σ ρ : Type*) where
  | again (s : σ)
  | leave (r : ρ)

/-- A body that can fail leaves the loop with its error. -/
def Pass.attempt {ε : Type*} : Except ε (Pass σ (Except ε ρ)) → Pass σ (Except ε ρ)
  | .error e => .leave (.error e)
  | .ok p => p

/-- Run a loop body for at most `fuel` passes. -/
def loop (body : σ → Pass σ ρ) : Nat → σ → Option ρ
  | 0, _ => none
  | fuel + 1, s =>
    match body s with
    | .again s' => loop body fuel s'
    | .leave r => some r

/-- A leaving pass ends the loop with its result. -/
theorem loop_leave {body : σ → Pass σ ρ} {s : σ} {r : ρ} (h : body s = .leave r)
    {fuel : Nat} (hf : 0 < fuel) : loop body fuel s = some r := by
  cases fuel with
  | zero => omega
  | succ fuel => simp only [loop, h]

/-- A continuing pass spends one unit of fuel. -/
theorem loop_again {body : σ → Pass σ ρ} {s s' : σ} (h : body s = .again s') (fuel : Nat) :
    loop body (fuel + 1) s = loop body fuel s' := by
  simp only [loop, h]

/-- Partial correctness: an invariant of the loop head that every leaving pass
turns into the postcondition gives the postcondition of the loop. -/
theorem loop_post {body : σ → Pass σ ρ} {I : σ → Prop} {Q : ρ → Prop}
    (hagain : ∀ s s', I s → body s = .again s' → I s')
    (hleave : ∀ s r, I s → body s = .leave r → Q r) :
    ∀ fuel s r, I s → loop body fuel s = some r → Q r := by
  intro fuel
  induction fuel with
  | zero => intro s r _ h; simp [loop] at h
  | succ fuel ih =>
    intro s r hs h
    cases hb : body s with
    | again s' =>
      rw [loop_again hb] at h
      exact ih s' r (hagain s s' hs hb) h
    | leave r' =>
      rw [loop_leave hb (Nat.succ_pos fuel)] at h
      cases h
      exact hleave s _ hs hb

/-- Total correctness: if moreover a variant decreases on every continuing pass,
then fuel above the variant suffices. -/
theorem loop_eq_some {body : σ → Pass σ ρ} {I : σ → Prop} {Q : ρ → Prop} {μ : σ → Nat}
    (hagain : ∀ s s', I s → body s = .again s' → I s' ∧ μ s' < μ s)
    (hleave : ∀ s r, I s → body s = .leave r → Q r) :
    ∀ fuel s, I s → μ s < fuel → ∃ r, loop body fuel s = some r ∧ Q r := by
  intro fuel
  induction fuel with
  | zero => intro s _ h; omega
  | succ fuel ih =>
    intro s hs hf
    cases hb : body s with
    | again s' =>
      obtain ⟨hs', hlt⟩ := hagain s s' hs hb
      rw [loop_again hb]
      exact ih s' hs' (by omega)
    | leave r =>
      exact ⟨r, loop_leave hb (Nat.succ_pos fuel), hleave s r hs hb⟩

/-- The states of the loop head that a loop started in `s` comes to. -/
def Visits (body : σ → Pass σ ρ) : σ → σ → Prop :=
  Relation.ReflTransGen fun s s' => body s = .again s'

/-- What holds at the start and is kept by every continuing pass holds at each loop head. -/
theorem visits_invariant {body : σ → Pass σ ρ} {I : σ → Prop} {s s' : σ} (hs : I s)
    (hagain : ∀ s s', I s → body s = .again s' → I s') (h : Visits body s s') : I s' := by
  induction h with
  | refl => exact hs
  | tail _ hpass ih => exact hagain _ _ ih hpass

/-- A body that is followed pass by pass is followed from loop head to loop head. -/
theorem Visits.map {τ ρ' : Type*} {body : σ → Pass σ ρ} {body' : τ → Pass τ ρ'} {f : σ → τ}
    (hagain : ∀ s s', body s = .again s' → body' (f s) = .again (f s')) {s s' : σ}
    (h : Visits body s s') : Visits body' (f s) (f s') :=
  Relation.ReflTransGen.lift f hagain _ _ h

end CSem
