import Jrtplib4Android.Core.Block

/-!
# Computations that log their accesses

A `Logged` computation carries the list of the accesses it has made, in order, next to its
result. A fault ends it, and the log with it. The log is erased by `result`, which turns a
logged computation into the plain one.
-/

namespace CSem

/-- A computation with the accesses that it has made. -/
structure Logged (ω α : Type) where
  log : List ω
  result : Except Fault α

namespace Logged

variable {ω α β : Type}

instance : Monad (Logged ω) where
  pure a := ⟨[], .ok a⟩
  bind x f :=
    match x.result with
    | .ok a => ⟨x.log ++ (f a).log, (f a).result⟩
    | .error e => ⟨x.log, .error e⟩

/-- A computation whose accesses are not of interest. -/
def lift (r : Except Fault α) : Logged ω α := ⟨[], r⟩

/-- One access. -/
def access (w : ω) (r : Except Fault α) : Logged ω α := ⟨[w], r⟩

@[simp] theorem log_pure (a : α) : (pure a : Logged ω α).log = [] := rfl

@[simp] theorem result_pure (a : α) : (pure a : Logged ω α).result = .ok a := rfl

@[simp] theorem log_lift (r : Except Fault α) : (lift r : Logged ω α).log = [] := rfl

@[simp] theorem result_lift (r : Except Fault α) : (lift r : Logged ω α).result = r := rfl

@[simp] theorem log_access (w : ω) (r : Except Fault α) : (access w r).log = [w] := rfl

@[simp] theorem result_access (w : ω) (r : Except Fault α) : (access w r).result = r := rfl

/-- The log does not influence the result. -/
@[simp] theorem result_bind (x : Logged ω α) (f : α → Logged ω β) :
    (x >>= f).result = x.result >>= fun a => (f a).result := by
  cases h : x.result <;> simp only [bind, h, Except.bind]

/-- Behind a result that is there the computation goes on. -/
theorem result_bind_ok {x : Logged ω α} {a : α} (h : x.result = .ok a) (f : α → Logged ω β) :
    (x >>= f).result = (f a).result := by
  rw [result_bind, h]
  rfl

/-- The accesses of the second part follow those of the first. -/
theorem log_bind_ok {x : Logged ω α} {a : α} (h : x.result = .ok a) (f : α → Logged ω β) :
    (x >>= f).log = x.log ++ (f a).log := by
  simp only [bind, h]

/-- After a fault nothing is accessed. -/
theorem log_bind_error {x : Logged ω α} {e : Fault} (h : x.result = .error e)
    (f : α → Logged ω β) : (x >>= f).log = x.log := by
  simp only [bind, h]

/-- A pure step at the end accesses nothing. -/
theorem mk_bind_pure (log : List ω) (a : α) (g : α → β) :
    ((⟨log, .ok a⟩ : Logged ω α) >>= fun a => pure (g a)) = ⟨log, .ok (g a)⟩ :=
  congrArg (fun l => (⟨l, .ok (g a)⟩ : Logged ω β)) (List.append_nil log)

@[simp] theorem result_ite (c : Prop) [Decidable c] (x y : Logged ω α) :
    (if c then x else y).result = if c then x.result else y.result := by
  split <;> rfl

end Logged

namespace Block

variable {ω : Type}

/-- `startsWith`, with an access for every byte that is looked at. -/
def startsWithLogged (test : Nat → ω) (b : Block) (i : Nat) : List UInt8 → Logged ω Bool
  | [] => pure true
  | v :: vs => do
    let x ← Logged.access (test i) (b.load i)
    if x = v then b.startsWithLogged test (i + 1) vs else pure false

/-- A comparison that is logged is the comparison. -/
@[simp] theorem result_startsWithLogged (test : Nat → ω) (b : Block) (i : Nat)
    (pat : List UInt8) : (b.startsWithLogged test i pat).result = b.startsWith i pat := by
  induction pat generalizing i with
  | nil => rfl
  | cons v vs ih =>
    simp only [startsWithLogged, startsWith, Logged.result_bind, Logged.result_access,
      Logged.result_ite, Logged.result_pure, ih]

/-- The byte behind `j` bytes of the pattern is looked at exactly if those `j` are there. -/
theorem mem_startsWithLogged (test : Nat → ω) {b : Block} {i : Nat} (hi : i ≤ b.size)
    (pat : List UInt8) (w : ω) : w ∈ (b.startsWithLogged test i pat).log ↔
      ∃ j, w = test (i + j) ∧ j < pat.length ∧ i + j ≤ b.size ∧ b.slice i j = pat.take j := by
  induction pat generalizing i with
  | nil => simp [startsWithLogged]
  | cons v vs ih =>
    -- the first byte is looked at in any case
    have hfirst : w = test i → ∃ j, w = test (i + j) ∧ j < (v :: vs).length ∧
        i + j ≤ b.size ∧ b.slice i j = (v :: vs).take j := by
      intro hw
      exact ⟨0, hw, Nat.succ_pos _, hi, rfl⟩
    have hbehind : ∀ j, b.slice i (j + 1) = (v :: vs).take (j + 1) ↔
        b.byte i = v ∧ b.slice (i + 1) j = vs.take j := by
      intro j
      rw [slice_succ, List.take_succ_cons, List.cons.injEq]
    by_cases hin : i < b.size
    · rw [startsWithLogged, Logged.log_bind_ok (a := b.byte i) (load_eq hin),
        Logged.log_access, List.singleton_append, List.mem_cons]
      constructor
      · rintro (hw | hw)
        · exact hfirst hw
        · split at hw
          · rename_i hv
            obtain ⟨j, hw, hj, hsize, hslice⟩ := (ih hin).mp hw
            refine ⟨j + 1, ?_, Nat.succ_lt_succ hj, ?_, (hbehind j).mpr ⟨hv, hslice⟩⟩
            · rw [hw, Nat.succ_add, Nat.add_succ]
            · omega
          · cases hw
      · rintro ⟨j, hw, hj, hsize, hslice⟩
        cases j with
        | zero => exact Or.inl hw
        | succ j =>
          obtain ⟨hv, hslice⟩ := (hbehind j).mp hslice
          right
          rw [if_pos hv]
          apply (ih hin).mpr
          refine ⟨j, ?_, Nat.lt_of_succ_lt_succ hj, ?_, hslice⟩
          · rw [hw, Nat.succ_add, Nat.add_succ]
          · omega
    · have hload : (Logged.access (test i) (b.load i)).result = .error .read := by
        simp only [Logged.result_access, load, hin, ite_false]
      rw [startsWithLogged, Logged.log_bind_error hload, Logged.log_access, List.mem_singleton]
      constructor
      · exact hfirst
      · rintro ⟨j, hw, -, hsize, -⟩
        have hj : j = 0 := by omega
        rw [hw, hj, Nat.add_zero]

end Block

end CSem
