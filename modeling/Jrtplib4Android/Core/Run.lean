import Mathlib.Tactic.Common

/-!
# Runs of a state machine

A machine is a step function on states and events. `after` is the state a list of
events leads to, and `trace` pairs every event with the state that it finds.
`after_invariant` is the induction over a run. `forall_trace_congr` is its exact form: two
laws of a step that agree wherever the good steps lead are kept by the same runs.
`forall_take_iff` is the case of an invariant: where each step keeps it if and only if it
is a good step, a run keeps it throughout if and only if all its steps are good.
`replies` are what a machine that can fail says to the events of a run, and `answers` those of
one that cannot.
-/

namespace CSem

variable {σ ε : Type*}

/-- The state that the events lead to. -/
def after (step : σ → ε → σ) (s : σ) (es : List ε) : σ := es.foldl step s

/-- The events of a run, each with the state that it finds. -/
def trace (step : σ → ε → σ) (s : σ) : List ε → List (σ × ε)
  | [] => []
  | e :: es => (s, e) :: trace step (step s e) es

variable {step : σ → ε → σ} {s : σ}

@[simp] theorem after_nil : after step s [] = s := rfl

@[simp] theorem after_cons (e : ε) (es : List ε) :
    after step s (e :: es) = after step (step s e) es := rfl

theorem forall_trace_nil {P : σ × ε → Prop} : (∀ p ∈ trace step s [], P p) ↔ True :=
  iff_of_true (fun _ hp => absurd hp List.not_mem_nil) trivial

theorem forall_trace_cons {P : σ × ε → Prop} {e : ε} {es : List ε} :
    (∀ p ∈ trace step s (e :: es), P p) ↔ P (s, e) ∧ ∀ p ∈ trace step (step s e) es, P p :=
  List.forall_mem_cons

theorem trace_append (es fs : List ε) :
    trace step s (es ++ fs) = trace step s es ++ trace step (after step s es) fs := by
  induction es generalizing s with
  | nil => rfl
  | cons e es ih => rw [List.cons_append, trace, ih, trace, List.cons_append, after_cons]

theorem after_append (es fs : List ε) :
    after step s (es ++ fs) = after step (after step s es) fs := List.foldl_append

theorem map_snd_trace (es : List ε) : (trace step s es).map Prod.snd = es := by
  induction es generalizing s with
  | nil => rfl
  | cons e es ih => rw [trace, List.map_cons, ih]

/-- A condition on the events alone. -/
theorem forall_trace_iff {P : ε → Prop} {es : List ε} :
    (∀ p ∈ trace step s es, P p.2) ↔ ∀ e ∈ es, P e := by
  induction es generalizing s with
  | nil => simp [trace]
  | cons e es ih => rw [forall_trace_cons, List.forall_mem_cons, ih]

/-- What holds at the start and is kept by every step holds in every state of a run. -/
theorem trace_invariant {I : σ → Prop} {es : List ε} (hs : I s)
    (hstep : ∀ s e, I s → I (step s e)) : ∀ p ∈ trace step s es, I p.1 := by
  induction es generalizing s with
  | nil => exact forall_trace_nil.mpr trivial
  | cons e es ih =>
    rw [forall_trace_cons]
    exact ⟨hs, ih (hstep s e hs)⟩

/-- What holds at the start and is kept by every step of the run holds at its end. -/
theorem after_invariant {I : σ → Prop} {es : List ε} (hs : I s)
    (hstep : ∀ p ∈ trace step s es, I p.1 → I (step p.1 p.2)) : I (after step s es) := by
  induction es generalizing s with
  | nil => exact hs
  | cons e es ih =>
    rw [forall_trace_cons] at hstep
    exact ih (hstep.1 hs) hstep.2

/-- What holds in every state of a run holds at its start and behind every step. -/
theorem forall_take_iff_trace {I : σ → Prop} {es : List ε} :
    (∀ n, I (after step s (es.take n))) ↔ I s ∧ ∀ p ∈ trace step s es, I (step p.1 p.2) := by
  induction es generalizing s with
  | nil => simp [trace]
  | cons e es ih =>
    rw [forall_trace_cons, ← ih]
    constructor
    · intro h
      exact ⟨h 0, fun n => h (n + 1)⟩
    · rintro ⟨hs, h⟩ n
      cases n with
      | zero => exact hs
      | succ n => exact h n

/-- A law of steps is kept throughout a run exactly if all its steps are good, where `J` is
what the good steps keep, and a step that starts inside `J` keeps the law exactly if it is
good. -/
theorem forall_trace_congr {J : σ → Prop} {A L G : σ → ε → Prop} {es : List ε} (hJ : J s)
    (hallowed : ∀ p ∈ trace step s es, A p.1 p.2)
    (hkeep : ∀ s e, J s → A s e → G s e → J (step s e))
    (hexact : ∀ s e, J s → A s e → (L s e ↔ G s e)) :
    (∀ p ∈ trace step s es, L p.1 p.2) ↔ ∀ p ∈ trace step s es, G p.1 p.2 := by
  induction es generalizing s with
  | nil => exact forall_trace_nil.trans forall_trace_nil.symm
  | cons e es ih =>
    rw [forall_trace_cons] at hallowed ⊢
    rw [forall_trace_cons, hexact s e hJ hallowed.1]
    exact and_congr_right fun hgood => ih (hkeep s e hJ hallowed.1 hgood) hallowed.2

/-- A run keeps an invariant throughout exactly if all its steps are good, where `J` is
what every allowed step keeps and a step that starts inside both keeps `I` exactly if it
is good. -/
theorem forall_take_iff {J I : σ → Prop} {A G : σ → ε → Prop} {es : List ε} (hJ : J s)
    (hI : I s) (hallowed : ∀ p ∈ trace step s es, A p.1 p.2)
    (hkeep : ∀ s e, J s → A s e → J (step s e))
    (hexact : ∀ s e, J s → I s → A s e → (I (step s e) ↔ G s e)) :
    (∀ n, I (after step s (es.take n))) ↔ ∀ p ∈ trace step s es, G p.1 p.2 := by
  rw [forall_take_iff_trace, and_iff_right hI]
  exact forall_trace_congr (J := fun s => J s ∧ I s) (L := fun s e => I (step s e)) ⟨hJ, hI⟩
    hallowed
    (fun s e h he hgood => ⟨hkeep s e h.1 he, (hexact s e h.1 h.2 he).mpr hgood⟩)
    fun s e h he => hexact s e h.1 h.2 he

section

variable {σ τ ε φ ρ : Type} {perform : σ → ε → Except φ (σ × ρ)}
  {perform' : τ → ε → Except φ (τ × ρ)}

/-- The replies of a machine that can fail. -/
def replies (perform : σ → ε → Except φ (σ × ρ)) (s : σ) : List ε → Except φ (List ρ)
  | [] => .ok []
  | e :: es => do
    let (s', r) ← perform s e
    (replies perform s' es).map (r :: ·)

/-- Two steps fail alike, or reply alike and lead to related states. -/
inductive Agree (R : σ → τ → Prop) : Except φ (σ × ρ) → Except φ (τ × ρ) → Prop where
  | error (f : φ) : Agree R (.error f) (.error f)
  | ok {s : σ} {t : τ} (r : ρ) (h : R s t) : Agree R (.ok (s, r)) (.ok (t, r))

/-- Machines whose steps agree from related states have the same replies in every run. -/
theorem replies_eq_of_agree {R : σ → τ → Prop}
    (hstep : ∀ s t e, R s t → Agree R (perform s e) (perform' t e)) {s : σ} {t : τ} (h : R s t)
    (es : List ε) : replies perform s es = replies perform' t es := by
  induction es generalizing s t with
  | nil => rfl
  | cons e es ih =>
    have hagree := hstep s t e h
    rw [replies, replies]
    generalize perform s e = x at hagree
    generalize perform' t e = y at hagree
    cases hagree with
    | error f => rfl
    | ok r hnext => exact congrArg (Except.map (r :: ·)) (ih hnext)

end

section

variable {σ τ ε ρ : Type*} {perform : σ → ε → σ × ρ} {perform' : τ → ε → τ × ρ}

/-- The answers of a machine that does not fail. -/
def answers (perform : σ → ε → σ × ρ) (s : σ) : List ε → List ρ
  | [] => []
  | e :: es => (perform s e).2 :: answers perform (perform s e).1 es

/-- Machines that answer alike from related states, and lead to related states, have the same
answers in every run whose steps the second one allows, and end in related states. -/
theorem answers_eq_of_simulation {R : σ → τ → Prop} {A : τ → ε → Prop}
    (hstep : ∀ s t e, R s t → A t e →
      (perform s e).2 = (perform' t e).2 ∧ R (perform s e).1 (perform' t e).1)
    {s : σ} {t : τ} (h : R s t) {es : List ε}
    (hallowed : ∀ p ∈ trace (fun t e => (perform' t e).1) t es, A p.1 p.2) :
    answers perform s es = answers perform' t es ∧
      R (after (fun s e => (perform s e).1) s es) (after (fun t e => (perform' t e).1) t es) := by
  induction es generalizing s t with
  | nil => exact ⟨rfl, h⟩
  | cons e es ih =>
    rw [forall_trace_cons] at hallowed
    obtain ⟨hanswer, hnext⟩ := hstep s t e h hallowed.1
    obtain ⟨hanswers, hafter⟩ := ih hnext hallowed.2
    rw [answers, answers, hanswer, hanswers]
    exact ⟨rfl, hafter⟩

end

end CSem
