import Mathlib.Data.List.DropRight
import Mathlib.Data.List.Infix

/-!
# Java text

Strings are lists of characters. `startsWith` and `contains` are `<+:` and `<:+:`;
the other library functions that a text protocol needs are defined here.
-/

namespace Text

/-- The lines that `readLine` returns. Between the two characters of a CRLF there is one
empty line more. -/
def lines (cs : List Char) : List (List Char) := cs.splitOnP fun c => c = '\n' ∨ c = '\r'

/-- A text without the characters that end a line. -/
def IsLine (cs : List Char) : Prop := ∀ c ∈ cs, ¬ (c = '\n' ∨ c = '\r')

instance (cs : List Char) : Decidable (IsLine cs) :=
  List.decidableBAll (fun c => ¬ (c = '\n' ∨ c = '\r')) cs

/-- Two texts without a line break have none together. -/
theorem isLine_append {xs ys : List Char} : IsLine (xs ++ ys) ↔ IsLine xs ∧ IsLine ys :=
  List.forall_mem_append

/-- The two characters that end a line. -/
def crlf : List Char := ['\r', '\n']

/-- A line in front of others. -/
theorem lines_crlf {line : List Char} (h : IsLine line) (rest : List Char) :
    lines (line ++ crlf ++ rest) = line :: [] :: lines rest := by
  rw [lines, List.append_assoc, crlf, List.cons_append, List.cons_append, List.nil_append,
    List.splitOnP_append_cons_of_forall_mem (fun c hc => decide_eq_false (h c hc)) '\r' rfl,
    List.splitOnP_cons_eq_if_modifyHead]
  rfl

/-- What is read as a line is one. -/
theorem isLine_of_mem_lines {cs line : List Char} (h : line ∈ lines cs) : IsLine line := by
  induction cs generalizing line with
  | nil =>
    rw [List.mem_singleton.mp h]
    exact fun c hc => absurd hc List.not_mem_nil
  | cons c cs ih =>
    rw [lines, List.splitOnP_cons_eq_if_modifyHead] at h
    split at h
    · rcases List.mem_cons.mp h with rfl | h
      · exact fun c hc => absurd hc List.not_mem_nil
      · exact ih h
    · next hc =>
      change line ∈ (lines cs).modifyHead (List.cons c) at h
      cases hlines : lines cs with
      | nil =>
        rw [hlines] at h
        cases h
      | cons first others =>
        rw [hlines, List.modifyHead_cons] at h
        rw [hlines] at ih
        rcases List.mem_cons.mp h with rfl | h
        · intro d hd
          rcases List.mem_cons.mp hd with rfl | hd
          · exact fun hend => hc (decide_eq_true hend)
          · exact ih List.mem_cons_self d hd
        · exact ih (List.mem_cons_of_mem _ h)

/-- The lines of a text in which CRLF alone ends a line; the last entry is what has no end. -/
def crlfLines : List Char → List (List Char)
  | [] => [[]]
  | '\r' :: '\n' :: cs => [] :: crlfLines cs
  | c :: cs => (crlfLines cs).modifyHead (c :: ·)

/-- A line that is ended is the first line. -/
theorem crlfLines_crlf {line : List Char} (h : IsLine line) (rest : List Char) :
    crlfLines (line ++ crlf ++ rest) = line :: crlfLines rest := by
  induction line with
  | nil => rfl
  | cons c cs ih =>
    have hc : c ≠ '\r' := fun hend => h c List.mem_cons_self (Or.inr hend)
    have hcs : IsLine cs := fun d hd => h d (List.mem_cons_of_mem c hd)
    rw [List.cons_append, List.cons_append, crlfLines, ih hcs, List.modifyHead_cons]
    rintro cs' rfl
    exact absurd rfl hc

/-- Lines with their ends in front of others. -/
theorem crlfLines_block {ls : List (List Char)} (h : ∀ line ∈ ls, IsLine line)
    (rest : List Char) :
    crlfLines (ls.flatMap (· ++ crlf) ++ rest) = ls ++ crlfLines rest := by
  induction ls with
  | nil => rfl
  | cons line ls ih =>
    rw [List.forall_mem_cons] at h
    rw [List.flatMap_cons, List.append_assoc, crlfLines_crlf h.1, ih h.2, List.cons_append]

/-- `trim`: characters up to the blank are removed at both ends. -/
def trim (cs : List Char) : List Char := (cs.dropWhile (· ≤ ' ')).rdropWhile (· ≤ ' ')

/-- `s.substring(s.indexOf(c) + 1)`; without such a character `indexOf` is `-1`. -/
def afterFirst (c : Char) (cs : List Char) : List Char :=
  if c ∈ cs then (cs.dropWhile (· ≠ c)).drop 1 else cs

/-- `s.substring(0, s.lastIndexOf(c))`; without such a character an exception. -/
def beforeLast (c : Char) (cs : List Char) : Option (List Char) :=
  if c ∈ cs then some (cs.rdropWhile (· ≠ c)).dropLast else none

/-- Something is left if one character is no blank. -/
theorem trim_ne_nil {cs : List Char} {c : Char} (hmem : c ∈ cs) (hc : ¬ c ≤ ' ') :
    trim cs ≠ [] := by
  intro hnil
  rw [trim, List.rdropWhile_eq_nil_iff] at hnil
  have hkept : cs.dropWhile (· ≤ ' ') = [] := by
    cases hdrop : cs.dropWhile (· ≤ ' ') with
    | nil => rfl
    | cons d ds =>
      have hfirst := List.head_dropWhile_not (fun c => decide (c ≤ ' ')) (by rw [hdrop]; simp)
      rw [hdrop] at hnil
      simp only [hdrop, List.head_cons] at hfirst
      rw [hnil d List.mem_cons_self] at hfirst
      cases hfirst
  rw [List.dropWhile_eq_nil_iff] at hkept
  exact hc (by simpa using hkept c hmem)

/-- Trimming adds nothing. -/
theorem trim_subset (cs : List Char) : trim cs ⊆ cs :=
  fun _ hc => (List.dropWhile_suffix _).subset ((List.rdropWhile_prefix _ _).subset hc)

/-- What is behind a character is an end of the text. -/
theorem afterFirst_suffix (c : Char) (cs : List Char) : afterFirst c cs <:+ cs := by
  unfold afterFirst
  split
  · exact (List.drop_suffix _ _).trans (List.dropWhile_suffix _)
  · exact List.suffix_refl cs

/-- What is in front of it is a part of the text. -/
theorem beforeLast_subset {c : Char} {cs base : List Char} (h : beforeLast c cs = some base) :
    base ⊆ cs := by
  unfold beforeLast at h
  split at h
  · cases h
    exact fun _ hd => (List.rdropWhile_prefix _ _).subset (List.dropLast_subset _ hd)
  · cases h

theorem IsLine.of_subset {xs ys : List Char} (h : IsLine ys) (hsub : xs ⊆ ys) : IsLine xs :=
  fun c hc => h c (hsub hc)

/-- What follows any occurrence also follows the first one. -/
theorem suffix_afterFirst (c : Char) (xs ys : List Char) :
    ys <:+ afterFirst c (xs ++ c :: ys) := by
  rw [afterFirst, if_pos (by simp)]
  induction xs with
  | nil => simp
  | cons x xs ih =>
    by_cases hx : x = c
    · subst hx
      simp only [List.cons_append, List.dropWhile_cons, ne_eq, not_true, decide_false,
        Bool.false_eq_true, ite_false, List.drop_succ_cons, List.drop_zero]
      exact (List.suffix_cons x ys).trans (List.suffix_append xs _)
    · simpa only [List.cons_append, List.dropWhile_cons, ne_eq, hx, not_false_eq_true, decide_true,
        ite_true] using ih

end Text
