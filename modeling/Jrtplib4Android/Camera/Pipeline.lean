import Mathlib.Data.List.Nodup
import Mathlib.Data.List.Perm.Subperm
import Mathlib.Data.Option.Basic
import Jrtplib4Android.Core.Run

/-!
# The camera frame pipeline

The capture task writes every frame into the one array `outData` and queues a reference
to it; the encoder callback copies what the array holds when it polls. A frame is
numbered by its capture, so that it can be told where the copied bytes come from.
-/

namespace Jrtplib4Android

open CSem

namespace CameraHelper

variable {α : Type}

/-- `queueSize`. -/
def queueSize : Nat := 3000

/-- A converted frame, and which capture it comes from. -/
structure CapturedFrame (α : Type) where
  number : Nat
  data : α
  deriving DecidableEq

/-- A queued reference to an array, and the frame that it was queued for. -/
structure Entry (α : Type) where
  array : Nat
  frame : CapturedFrame α

/-- The arrays that are allocated, each with the frame written into it last, if any; the
fields of `CameraHelper`; and what has been captured, dropped, polled and copied so far. -/
structure Pipeline (α : Type) where
  arrays : List (Option (CapturedFrame α))
  outData : Option Nat
  nv12Queue : List (Entry α)
  captured : List (CapturedFrame α)
  dropped : List (CapturedFrame α)
  polled : List (CapturedFrame α)
  copied : List (Option (CapturedFrame α))

namespace Pipeline

/-- A camera helper before its first frame. -/
def start : Pipeline α := ⟨[], none, [], [], [], [], []⟩

/-- `addDataToQueue`. -/
def addDataToQueue (s : Pipeline α) (e : Entry α) : Pipeline α :=
  match s.nv12Queue with
  | [] => { s with nv12Queue := [e] }
  | oldest :: rest =>
    if queueSize ≤ s.nv12Queue.length then
      { s with nv12Queue := rest ++ [e], dropped := s.dropped ++ [oldest.frame] }
    else { s with nv12Queue := s.nv12Queue ++ [e] }

/-- `addOsd` converts the frame into `outData`, which is allocated for the first one. -/
def addOsd (yuvHander : Int) (s : Pipeline α) (frame : CapturedFrame α) : Pipeline α :=
  let arrays := if s.outData = none then s.arrays ++ [none] else s.arrays
  let outData := s.outData.getD s.arrays.length
  { s with
    arrays := if yuvHander ≠ 0 then arrays.set outData (some frame) else arrays
    outData := some outData
    captured := s.captured ++ [frame] }

/-- The task that `onPreviewFrame` gives to the encode executor. -/
def onPreviewFrame (yuvHander : Int) (s : Pipeline α) (data : α) : Pipeline α :=
  let frame := ⟨s.captured.length, data⟩
  (s.addOsd yuvHander frame).addDataToQueue ⟨s.outData.getD s.arrays.length, frame⟩

/-- `onInputBufferAvailable`. -/
def onInputBufferAvailable (s : Pipeline α) : Pipeline α :=
  match s.nv12Queue with
  | [] => s
  | data :: rest =>
    { s with
      nv12Queue := rest
      polled := s.polled ++ [data.frame]
      copied := s.copied ++ [(s.arrays[data.array]?).join] }

end Pipeline

/-- A step of one of the two threads. -/
inductive CameraEvent (α : Type) where
  | previewFrame (data : α)
  | inputBufferAvailable

namespace Pipeline

def step (yuvHander : Int) (s : Pipeline α) : CameraEvent α → Pipeline α
  | .previewFrame data => s.onPreviewFrame yuvHander data
  | .inputBufferAvailable => s.onInputBufferAvailable

/-- The frames that are still queued. -/
def queued (s : Pipeline α) : List (CapturedFrame α) := s.nv12Queue.map Entry.frame

/-- What is copied are captured frames in order, none of them twice, and a captured frame
is missing only if it was dropped or is still queued. -/
structure Lossless (s : Pipeline α) : Prop where
  ordered : s.copied.Sublist (s.captured.map some)
  once : s.copied.Nodup
  complete : ∀ f ∈ s.captured, some f ∈ s.copied ∨ f ∈ s.dropped ∨ f ∈ s.queued

/-- A poll finds at most one entry, and one only if frames are converted. -/
def Good (yuvHander : Int) (s : Pipeline α) : CameraEvent α → Prop
  | .previewFrame _ => True
  | .inputBufferAvailable => s.nv12Queue.length ≤ 1 ∧ (yuvHander = 0 → s.nv12Queue = [])

/-- Every captured frame has gone from the queue or is queued, in this order, and each
frame that has gone was either polled or dropped. -/
structure Accounted (s : Pipeline α) (gone : List (CapturedFrame α)) : Prop where
  captured : gone ++ s.queued = s.captured
  polled : s.polled.Sublist gone
  covered : ∀ f ∈ gone, f ∈ s.dropped ∨ f ∈ s.polled
  dropped : ∀ f ∈ s.dropped, f ∈ gone ∧ f ∉ s.polled

/-- What holds in every state: the frames are numbered in order, the queued references are
all to `outData`, and that array holds the latest frame. -/
structure Consistent (yuvHander : Int) (s : Pipeline α) : Prop where
  ascending : s.captured.Pairwise fun f g => f.number < g.number
  below : ∀ f ∈ s.captured, f.number < s.captured.length
  accounted : ∃ gone, s.Accounted gone
  copied_length : s.copied.length = s.polled.length
  references : ∀ e ∈ s.nv12Queue, s.outData = some e.array
  latest : ∀ array, s.outData = some array →
    s.arrays[array]? = some (if yuvHander ≠ 0 then s.captured.getLast? else none)

variable {yuvHander : Int} {s : Pipeline α}

theorem Consistent.nodup (h : s.Consistent yuvHander) : s.captured.Nodup :=
  h.ascending.imp fun hlt heq => absurd (heq ▸ hlt) (Nat.lt_irrefl _)

/-- Two selections of captured frames with the same members are the same. -/
theorem Consistent.eq_of_perm (h : s.Consistent yuvHander) {xs ys : List (CapturedFrame α)}
    (hxs : xs.Sublist s.captured) (hys : ys.Sublist s.captured) (hperm : xs.Perm ys) : xs = ys :=
  hperm.eq_of_pairwise (fun _ _ _ _ hlt hgt => absurd hgt (Nat.lt_asymm hlt))
    (h.ascending.sublist hxs) (h.ascending.sublist hys)

/-- The pipeline is lossless as long as each poll has copied the frame it was for. -/
theorem Consistent.lossless_iff (h : s.Consistent yuvHander) :
    s.Lossless ↔ s.copied = s.polled.map some := by
  obtain ⟨gone, hgone⟩ := h.accounted
  have hgone_sub : gone.Sublist s.captured := hgone.captured ▸ List.sublist_append_left _ _
  have hpolled : s.polled.Sublist s.captured := hgone.polled.trans hgone_sub
  constructor
  · rintro ⟨hordered, -, hcomplete⟩
    obtain ⟨frames, hframes, heq⟩ := List.sublist_map_iff.mp hordered
    rw [heq]
    congr 1
    have hsubset : s.polled ⊆ frames := by
      intro f hf
      rcases hcomplete f (hpolled.subset hf) with hcopied | hdropped | hqueued
      · rw [heq] at hcopied
        exact (List.mem_map_of_injective (Option.some_injective _)).mp hcopied
      · exact absurd hf (hgone.dropped f hdropped).2
      · have hnodup := h.nodup
        rw [← hgone.captured] at hnodup
        exact (List.disjoint_of_nodup_append hnodup (hgone.polled.subset hf) hqueued).elim
    have hlength : frames.length ≤ s.polled.length := by
      have hcopied : s.copied.length = frames.length := by rw [heq, List.length_map]
      have := h.copied_length
      omega
    have hperm := ((h.nodup.sublist hpolled).subperm hsubset).perm_of_length_le hlength
    exact (h.eq_of_perm hpolled hframes hperm).symm
  · intro heq
    constructor
    · rw [heq]
      exact hpolled.map some
    · rw [heq]
      exact (h.nodup.sublist hpolled).map (Option.some_injective _)
    · intro f hf
      rw [← hgone.captured, List.mem_append] at hf
      rcases hf with hf | hf
      · rcases hgone.covered f hf with hdropped | hpolled
        · exact Or.inr (Or.inl hdropped)
        · exact Or.inl (heq ▸ List.mem_map_of_mem hpolled)
      · exact Or.inr (Or.inr hf)

/-- The frame that leaves the queue next has not gone before. -/
theorem notMem_of_nodup_split {gone queued : List (CapturedFrame α)} {frame : CapturedFrame α}
    (h : (gone ++ [frame] ++ queued).Nodup) : frame ∉ gone := by
  intro hmem
  exact List.disjoint_of_nodup_append h.of_append_left hmem (List.mem_singleton_self _)

/-- `addDataToQueue` leaves everything but the queue. -/
theorem addDataToQueue_eq (s : Pipeline α) (e : Entry α) : ∃ queue dropped,
    s.addDataToQueue e = { s with nv12Queue := queue, dropped := dropped } ∧
    ∀ x ∈ queue, x ∈ s.nv12Queue ∨ x = e := by
  unfold addDataToQueue
  split
  · exact ⟨[e], s.dropped, rfl, fun x hx => Or.inr (List.mem_singleton.mp hx)⟩
  rename_i oldest rest hqueue
  split
  · refine ⟨_, _, rfl, fun x hx => ?_⟩
    rw [hqueue]
    exact (List.mem_append.mp hx).imp (List.mem_cons_of_mem _) List.mem_singleton.mp
  · exact ⟨_, s.dropped, rfl, fun x hx =>
      (List.mem_append.mp hx).imp_right List.mem_singleton.mp⟩

/-- A capture changes the queue by its own entry. -/
theorem onPreviewFrame_eq (yuvHander : Int) (s : Pipeline α) (data : α) : ∃ queue dropped,
    s.onPreviewFrame yuvHander data =
      { s.addOsd yuvHander ⟨s.captured.length, data⟩ with
        nv12Queue := queue
        dropped := dropped } ∧
    ∀ e ∈ queue, e ∈ s.nv12Queue ∨
      e = ⟨s.outData.getD s.arrays.length, ⟨s.captured.length, data⟩⟩ :=
  addDataToQueue_eq (s.addOsd yuvHander ⟨s.captured.length, data⟩) _

/-- A new entry, with the oldest one dropped if need be. -/
theorem accounted_addDataToQueue {e : Entry α} (gone : List (CapturedFrame α))
    (hgone : gone ++ s.queued ++ [e.frame] = s.captured) (hnodup : s.captured.Nodup)
    (hpolled : s.polled.Sublist gone) (hcovered : ∀ f ∈ gone, f ∈ s.dropped ∨ f ∈ s.polled)
    (hdropped : ∀ f ∈ s.dropped, f ∈ gone ∧ f ∉ s.polled) :
    ∃ gone, (s.addDataToQueue e).Accounted gone := by
  unfold addDataToQueue
  split
  · rename_i hempty
    refine ⟨gone, ?_, hpolled, hcovered, hdropped⟩
    simpa [queued, hempty] using hgone
  rename_i oldest rest hqueue
  split
  · have hsplit : (gone ++ [oldest.frame]) ++ (rest.map Entry.frame ++ [e.frame]) =
        s.captured := by
      simpa [queued, hqueue] using hgone
    have hnew : oldest.frame ∉ gone := notMem_of_nodup_split (hsplit ▸ hnodup)
    refine ⟨gone ++ [oldest.frame], ?_, hpolled.trans (List.sublist_append_left _ _), ?_, ?_⟩
    · simpa [queued] using hsplit
    · intro f hf
      rcases List.mem_append.mp hf with hf | hf
      · exact (hcovered f hf).imp_left (List.mem_append_left _)
      · exact Or.inl (List.mem_append_right _ hf)
    · intro f hf
      rcases List.mem_append.mp hf with hf | hf
      · exact ⟨List.mem_append_left _ (hdropped f hf).1, (hdropped f hf).2⟩
      · refine ⟨List.mem_append_right _ hf, fun hmem => hnew ?_⟩
        exact hpolled.subset (List.mem_singleton.mp hf ▸ hmem)
  · refine ⟨gone, ?_, hpolled, hcovered, hdropped⟩
    simpa [queued] using hgone

/-- `outData` holds the frame that was converted last. -/
theorem addOsd_arrays (h : s.Consistent yuvHander) (frame : CapturedFrame α) :
    (s.addOsd yuvHander frame).arrays[s.outData.getD s.arrays.length]? =
      some (if yuvHander ≠ 0 then some frame else none) := by
  unfold addOsd
  cases hout : s.outData with
  | none =>
    by_cases hyuv : yuvHander = 0 <;> simp [hyuv]
  | some array =>
    have hlatest := h.latest array hout
    have hlt := (List.getElem?_eq_some_iff.mp hlatest).1
    by_cases hyuv : yuvHander = 0
    · simpa [hyuv] using hlatest
    · simp [hyuv, List.getElem?_set_self hlt]

/-- A captured frame is queued, and `outData` holds it. -/
theorem consistent_onPreviewFrame (h : s.Consistent yuvHander) (data : α) :
    (s.onPreviewFrame yuvHander data).Consistent yuvHander := by
  obtain ⟨gone, hgone⟩ := h.accounted
  have hascending : (s.captured ++ [CapturedFrame.mk s.captured.length data]).Pairwise
      fun f g => f.number < g.number := by
    refine List.pairwise_append.mpr ⟨h.ascending, List.pairwise_singleton _ _, ?_⟩
    intro f hf g hg
    rw [List.mem_singleton.mp hg]
    exact h.below f hf
  have haccounted : ∃ gone, (s.onPreviewFrame yuvHander data).Accounted gone := by
    refine accounted_addDataToQueue gone ?_ ?_ hgone.polled hgone.covered hgone.dropped
    · exact congrArg (· ++ _) hgone.captured
    · exact hascending.imp fun hlt heq => absurd (heq ▸ hlt) (Nat.lt_irrefl _)
  have harrays := addOsd_arrays h ⟨s.captured.length, data⟩
  obtain ⟨queue, dropped, heq, hqueue⟩ := onPreviewFrame_eq yuvHander s data
  rw [heq] at haccounted ⊢
  constructor
  · exact hascending
  · intro f hf
    simp only [addOsd, List.length_append, List.length_singleton] at hf ⊢
    rcases List.mem_append.mp hf with hf | hf
    · exact Nat.lt_succ_of_lt (h.below f hf)
    · rw [List.mem_singleton.mp hf]
      exact Nat.lt_succ_self _
  · exact haccounted
  · exact h.copied_length
  · intro e he
    rcases hqueue e he with he | rfl
    · simp only [addOsd, h.references e he, Option.getD_some]
    · rfl
  · intro array harray
    rw [← Option.some.inj harray, harrays]
    simp only [addOsd, List.getLast?_concat]

/-- A poll takes the oldest entry off. -/
theorem consistent_onInputBufferAvailable (h : s.Consistent yuvHander) :
    s.onInputBufferAvailable.Consistent yuvHander := by
  obtain ⟨gone, hgone⟩ := h.accounted
  unfold onInputBufferAvailable
  split
  · exact h
  rename_i data rest hqueue
  have hsplit : (gone ++ [data.frame]) ++ rest.map Entry.frame = s.captured := by
    rw [← hgone.captured, queued, hqueue]
    simp
  have hnew : data.frame ∉ gone := notMem_of_nodup_split (hsplit ▸ h.nodup)
  constructor
  · exact h.ascending
  · exact h.below
  · refine ⟨gone ++ [data.frame], hsplit, hgone.polled.append_right _, ?_, ?_⟩
    · intro f hf
      rcases List.mem_append.mp hf with hf | hf
      · exact (hgone.covered f hf).imp_right (List.mem_append_left _)
      · exact Or.inr (List.mem_append_right _ hf)
    · intro f hf
      obtain ⟨hf, hpolled⟩ := hgone.dropped f hf
      refine ⟨List.mem_append_left _ hf, fun hmem => ?_⟩
      rcases List.mem_append.mp hmem with hmem | hmem
      · exact hpolled hmem
      · exact hnew (List.mem_singleton.mp hmem ▸ hf)
  · simp only [List.length_append, List.length_singleton, h.copied_length]
  · exact fun e he => h.references e (hqueue ▸ List.mem_cons_of_mem _ he)
  · exact h.latest

theorem consistent_step (h : s.Consistent yuvHander) (e : CameraEvent α) :
    (s.step yuvHander e).Consistent yuvHander := by
  cases e with
  | previewFrame data => exact consistent_onPreviewFrame h data
  | inputBufferAvailable => exact consistent_onInputBufferAvailable h

/-- A capture copies nothing. -/
theorem lossless_onPreviewFrame (h : s.Consistent yuvHander) (hlossless : s.Lossless) (data : α) :
    (s.onPreviewFrame yuvHander data).Lossless := by
  rw [(consistent_onPreviewFrame h data).lossless_iff]
  obtain ⟨queue, dropped, heq, -⟩ := onPreviewFrame_eq yuvHander s data
  rw [heq]
  exact h.lossless_iff.mp hlossless

/-- A poll copies the latest frame, which is the one it is for exactly if that is queued
alone. -/
theorem lossless_onInputBufferAvailable_iff (h : s.Consistent yuvHander)
    (hlossless : s.Lossless) :
    s.onInputBufferAvailable.Lossless ↔
      s.nv12Queue.length ≤ 1 ∧ (yuvHander = 0 → s.nv12Queue = []) := by
  rw [(consistent_onInputBufferAvailable h).lossless_iff]
  have hcopied := h.lossless_iff.mp hlossless
  unfold onInputBufferAvailable
  split
  · rename_i hqueue
    exact iff_of_true hcopied (by simp [hqueue])
  rename_i data rest hqueue
  have hheld := h.latest data.array (h.references data (hqueue ▸ List.mem_cons_self ..))
  simp only [hcopied, hheld, Option.join_some, List.map_append, List.append_cancel_left_eq,
    List.map_cons, List.map_nil, List.cons.injEq, and_true, hqueue, List.length_cons]
  by_cases hyuv : yuvHander = 0
  · simp [hyuv]
  simp only [ne_eq, hyuv, not_false_eq_true, ite_true, false_imp_iff, and_true]
  obtain ⟨gone, hgone⟩ := h.accounted
  have hcaptured : s.captured = gone ++ data.frame :: rest.map Entry.frame := by
    rw [← hgone.captured, queued, hqueue, List.map_cons]
  cases rest with
  | nil => exact iff_of_true (by simp [hcaptured]) (Nat.le_refl _)
  | cons next rest =>
    -- the latest frame is another one, queued behind
    refine iff_of_false ?_ (by simp)
    intro hlast
    have hnodup := h.nodup
    rw [hcaptured, List.nodup_append] at hnodup
    have htail : ((next :: rest).map Entry.frame).getLast? = some data.frame := by
      rw [hcaptured, List.map_cons, List.getLast?_append_cons, List.getLast?_cons_cons] at hlast
      exact hlast
    have hmem := List.mem_of_getLast? htail
    exact (List.nodup_cons.mp hnodup.2.1).1 hmem

/-- A step keeps the pipeline lossless exactly if it is a capture or a good poll. -/
theorem lossless_step_iff (h : s.Consistent yuvHander) (hlossless : s.Lossless)
    (e : CameraEvent α) : (s.step yuvHander e).Lossless ↔ s.Good yuvHander e := by
  cases e with
  | previewFrame data => exact iff_of_true (lossless_onPreviewFrame h hlossless data) trivial
  | inputBufferAvailable => exact lossless_onInputBufferAvailable_iff h hlossless

theorem consistent_start : (start : Pipeline α).Consistent yuvHander where
  ascending := .nil
  below := by simp [start]
  accounted := ⟨[], rfl, .slnil, by simp, by simp [start]⟩
  copied_length := rfl
  references := by simp [start]
  latest := by simp [start]

/-- In every interleaving the pipeline is lossless throughout, exactly if no poll finds two
entries, and none at all where frames are not converted. -/
theorem lossless_run_iff (yuvHander : Int) (es : List (CameraEvent α)) :
    (∀ n, (after (step yuvHander) start (es.take n)).Lossless) ↔
      ∀ p ∈ trace (step yuvHander) start es, p.1.Good yuvHander p.2 :=
  have hstart : (start : Pipeline α).Consistent yuvHander := consistent_start
  forall_take_iff (J := Consistent yuvHander) (A := fun _ _ => True) (G := Good yuvHander)
    hstart (hstart.lossless_iff.mpr rfl) (fun _ _ => trivial) (fun _ e h _ => consistent_step h e)
    fun _ e h hl _ => lossless_step_iff h hl e

/-- Two captures before the first poll: the second frame is copied twice. -/
theorem not_lossless_twoCaptures :
    (after (step 1) start [.previewFrame 'a', .previewFrame 'b', .inputBufferAvailable,
      .inputBufferAvailable]).copied = [some ⟨1, 'b'⟩, some ⟨1, 'b'⟩] ∧
    ¬ (after (step 1) start [.previewFrame 'a', .previewFrame 'b', .inputBufferAvailable,
      .inputBufferAvailable]).Lossless := by
  refine ⟨by decide, fun h => ?_⟩
  exact absurd h.once (by decide)

end Pipeline

end CameraHelper

end Jrtplib4Android
