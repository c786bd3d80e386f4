import Jrtplib4Android.Core.Run
import Jrtplib4Android.Receiver.Sources

/-!
# Destinations

A source is added under the address it has when it comes, and deleted under the address
it has when it goes. The set of destinations is right as long as that is the same address
and no other source is listed under it.
-/

namespace Jrtplib4Android

open CSem

/-- A source in JRTPLIB's table, with the address it was added under, if any, and whether
it has said BYE. -/
structure Source where
  srcdat : RTPSourceData
  added : Option RTPIPv4Address
  departed : Bool

/-- The table of sources and the transmitter's destinations. -/
structure SourceTable where
  sources : UInt32 → Option Source
  destinations : Finset RTPIPv4Address

/-- What JRTPLIB does to the table. -/
inductive SourceEvent where
  | new (ssrc : UInt32) (srcdat : RTPSourceData)
  | setRtpAddress (ssrc : UInt32) (addr : RTPIPv4Address)
  | setRtcpAddress (ssrc : UInt32) (addr : RTPIPv4Address)
  | bye (ssrc : UInt32)
  | remove (ssrc : UInt32)

namespace SourceTable

def empty : SourceTable := ⟨fun _ => none, ∅⟩

def set (t : SourceTable) (ssrc : UInt32) (source : Option Source) : UInt32 → Option Source :=
  Function.update t.sources ssrc source

/-- An event, with the callback to `CRTPReceiver` that goes with it. -/
def step (j : JavaAccess) (t : SourceTable) : SourceEvent → SourceTable
  | .new ssrc srcdat =>
    ⟨t.set ssrc (some ⟨srcdat, srcdat.dest, false⟩), (onNewSource j t.destinations srcdat).1⟩
  | .setRtpAddress ssrc addr =>
    ⟨t.set ssrc ((t.sources ssrc).map fun s =>
      { s with srcdat := { s.srcdat with rtpAddress := some addr } }), t.destinations⟩
  | .setRtcpAddress ssrc addr =>
    ⟨t.set ssrc ((t.sources ssrc).map fun s =>
      { s with srcdat := { s.srcdat with rtcpAddress := some addr } }), t.destinations⟩
  | .bye ssrc =>
    match t.sources ssrc with
    | none => t
    | some s =>
      ⟨t.set ssrc (some { s with departed := true }), (onBYEPacket j t.destinations s.srcdat).1⟩
  | .remove ssrc =>
    match t.sources ssrc with
    | none => t
    | some s => ⟨t.set ssrc none, (onRemoveSource j t.destinations s.srcdat).1⟩

/-- A source is new once, an address is set once, and the rest is about known sources. -/
def Allowed (t : SourceTable) : SourceEvent → Prop
  | .new ssrc _ => t.sources ssrc = none
  | .setRtpAddress ssrc _ => ∃ s, t.sources ssrc = some s ∧ s.srcdat.rtpAddress = none
  | .setRtcpAddress ssrc _ => ∃ s, t.sources ssrc = some s ∧ s.srcdat.rtcpAddress = none
  | .bye ssrc => ∃ s, t.sources ssrc = some s
  | .remove ssrc => ∃ s, t.sources ssrc = some s

/-- A source that is present and has not departed was added under `addr`. -/
def Live (t : SourceTable) (ssrc : UInt32) (addr : RTPIPv4Address) : Prop :=
  ∃ s, t.sources ssrc = some s ∧ s.departed = false ∧ s.added = some addr

/-- The destinations are the addresses of the sources present and not departed. -/
def Exact (t : SourceTable) : Prop :=
  ∀ addr, addr ∈ t.destinations ↔ ∃ ssrc, t.Live ssrc addr

/-- The address that goes is the one the source was added under, or nothing is lost with
it, and no other source is left under it. -/
structure Sound (t : SourceTable) (ssrc : UInt32) (srcdat : RTPSourceData) : Prop where
  mine : ∀ addr, t.Live ssrc addr →
    srcdat.dest = some addr ∨ ∃ other, other ≠ ssrc ∧ t.Live other addr
  others : ∀ addr, srcdat.dest = some addr → ∀ other, other ≠ ssrc → ¬ t.Live other addr

/-- When a source departs or is removed, its address is its own. -/
def Good (t : SourceTable) : SourceEvent → Prop
  | .bye ssrc => ∀ s, t.sources ssrc = some s → t.Sound ssrc s.srcdat
  | .remove ssrc => ∀ s, t.sources ssrc = some s → t.Sound ssrc s.srcdat
  | _ => True

variable {t : SourceTable} {j : JavaAccess}

/-- A source that no longer counts leaves the others as they were. -/
theorem live_set_iff {ssrc : UInt32} {source : Option Source} {destinations : Finset RTPIPv4Address}
    (hgone : ∀ s, source = some s → s.departed = true) {other : UInt32} {addr : RTPIPv4Address} :
    (SourceTable.mk (t.set ssrc source) destinations).Live other addr ↔
      other ≠ ssrc ∧ t.Live other addr := by
  by_cases h : other = ssrc
  · subst h
    refine iff_of_false ?_ fun h => h.1 rfl
    rintro ⟨s, hs, hlive, -⟩
    simp only [set, Function.update_self] at hs
    rw [hgone s hs] at hlive
    cases hlive
  · simp only [Live, set, Function.update_of_ne h, ne_eq, h, not_false_eq_true, true_and]

/-- Deleting an address for a source that goes leaves the set exact if it is sound. -/
theorem exact_gone_iff (h : t.Exact) {ssrc : UInt32} {srcdat : RTPSourceData}
    {source : Option Source} (hgone : ∀ s, source = some s → s.departed = true) :
    (SourceTable.mk (t.set ssrc source) (onRemoveSource j t.destinations srcdat).1).Exact ↔
      t.Sound ssrc srcdat := by
  constructor
  · intro hexact
    constructor
    · intro addr hlive
      by_cases hdest : srcdat.dest = some addr
      · exact Or.inl hdest
      · have hmem := mem_onRemoveSource (j := j).mpr ⟨hdest, (h addr).mpr ⟨ssrc, hlive⟩⟩
        obtain ⟨other, hother⟩ := (hexact addr).mp hmem
        exact Or.inr ⟨other, (live_set_iff hgone).mp hother⟩
    · intro addr hdest other hne hlive
      have hmem := (hexact addr).mpr ⟨other, (live_set_iff hgone).mpr ⟨hne, hlive⟩⟩
      exact (mem_onRemoveSource.mp hmem).1 hdest
  · rintro ⟨hmine, hothers⟩ addr
    rw [mem_onRemoveSource, h addr]
    constructor
    · rintro ⟨hdest, other, hlive⟩
      by_cases hne : other = ssrc
      · subst hne
        obtain ⟨other', hother'⟩ := (hmine addr hlive).resolve_left hdest
        exact ⟨other', (live_set_iff hgone).mpr hother'⟩
      · exact ⟨other, (live_set_iff hgone).mpr ⟨hne, hlive⟩⟩
    · rintro ⟨other, hother⟩
      obtain ⟨hne, hlive⟩ := (live_set_iff hgone).mp hother
      exact ⟨fun hdest => hothers addr hdest other hne hlive, other, hlive⟩

/-- A new source adds its address. -/
theorem exact_new (h : t.Exact) {ssrc : UInt32} (srcdat : RTPSourceData)
    (hnew : t.sources ssrc = none) : (t.step j (.new ssrc srcdat)).Exact := by
  intro addr
  simp only [step]
  rw [mem_onNewSource, h addr]
  constructor
  · rintro (hdest | ⟨other, s, hs, hlive, hadded⟩)
    · exact ⟨ssrc, _, Function.update_self .., rfl, hdest⟩
    · have hne : other ≠ ssrc := fun heq => by
        rw [heq, hnew] at hs
        cases hs
      exact ⟨other, s, (Function.update_of_ne hne ..).trans hs, hlive, hadded⟩
  · rintro ⟨other, s, hs, hlive, hadded⟩
    by_cases hne : other = ssrc
    · subst hne
      simp only [set, Function.update_self] at hs
      cases hs
      exact Or.inl hadded
    · simp only [set, Function.update_of_ne hne] at hs
      exact Or.inr ⟨other, s, hs, hlive, hadded⟩

/-- Setting an address changes nothing that was added. -/
theorem exact_set (h : t.Exact) {ssrc : UInt32} (f : RTPSourceData → RTPSourceData) :
    (SourceTable.mk (t.set ssrc ((t.sources ssrc).map fun s => { s with srcdat := f s.srcdat }))
      t.destinations).Exact := by
  intro addr
  rw [h addr]
  refine exists_congr fun other => ?_
  by_cases hne : other = ssrc
  · subst hne
    simp [Live, set]
  · simp [Live, set, hne]

/-- An allowed event keeps the set exact exactly if it is good. -/
theorem exact_step_iff (h : t.Exact) {e : SourceEvent} (hallowed : t.Allowed e) :
    (t.step j e).Exact ↔ t.Good e := by
  cases e with
  | new ssrc srcdat => exact iff_of_true (exact_new h srcdat hallowed) trivial
  | setRtpAddress ssrc addr =>
    exact iff_of_true (exact_set h fun d => { d with rtpAddress := some addr }) trivial
  | setRtcpAddress ssrc addr =>
    exact iff_of_true (exact_set h fun d => { d with rtcpAddress := some addr }) trivial
  | bye ssrc =>
    obtain ⟨s, hs⟩ := hallowed
    simp only [step, Good, hs, Option.some.injEq, forall_eq']
    exact exact_gone_iff h (by rintro _ ⟨⟩; rfl)
  | remove ssrc =>
    obtain ⟨s, hs⟩ := hallowed
    simp only [step, Good, hs, Option.some.injEq, forall_eq']
    exact exact_gone_iff h (by rintro _ ⟨⟩)

theorem exact_empty : empty.Exact := fun addr => by
  refine iff_of_false (Finset.notMem_empty addr) ?_
  rintro ⟨_, s, hs, -⟩
  cases hs

/-- In a run from the empty table the destinations are exact throughout, exactly if every
source that says BYE or is removed then goes under an address of its own, the one it was
added under. -/
theorem exact_run_iff (j : JavaAccess) (es : List SourceEvent)
    (hallowed : ∀ p ∈ trace (step j) empty es, p.1.Allowed p.2) :
    (∀ n, (after (step j) empty (es.take n)).Exact) ↔
      ∀ p ∈ trace (step j) empty es, p.1.Good p.2 :=
  forall_take_iff (J := fun _ => True) (A := Allowed) (G := Good) trivial exact_empty hallowed
    (fun _ _ _ _ => trivial) fun _ _ _ ht he => exact_step_iff ht he

/-- The addresses of a camera that sends RTP from port 5004. -/
def camera : RTPSourceData := ⟨some ⟨0xc0a80002, 5004⟩, none⟩

/-- One source comes and says BYE. -/
theorem exact_run_iff_oneSource :
    (after (step ⟨true, true, true⟩) empty [.new 1 camera, .bye 1]).Exact := by
  refine (exact_run_iff ⟨true, true, true⟩ [.new 1 camera, .bye 1] ?_).mpr ?_ 2
  · simp [trace, Allowed, step, set, empty]
  · simp only [forall_trace_cons, forall_trace_nil, and_true]
    refine ⟨trivial, fun s hs => ?_⟩
    simp only [step, set, empty, Function.update_self] at hs
    cases hs
    refine ⟨?_, ?_⟩
    · rintro addr ⟨s, hs, -, hadded⟩
      simp only [step, set, empty, Function.update_self] at hs
      cases hs
      exact Or.inl hadded
    · rintro addr - other hne ⟨s, hs, -⟩
      simp only [step, set, empty, Function.update_of_ne hne] at hs
      cases hs

/-- Two sources at one address: the BYE of the first takes the destination of the second. -/
theorem not_exact_sharedAddress :
    (∀ p ∈ trace (step ⟨true, true, true⟩) empty [.new 1 camera, .new 2 camera, .bye 1],
      p.1.Allowed p.2) ∧
    ¬ (after (step ⟨true, true, true⟩) empty [.new 1 camera, .new 2 camera, .bye 1]).Exact := by
  refine ⟨by simp [trace, Allowed, step, set, empty], fun h => ?_⟩
  have hlive : (after (step ⟨true, true, true⟩) empty
      [.new 1 camera, .new 2 camera, .bye 1]).Live 2 ⟨0xc0a80002, 5004⟩ :=
    ⟨⟨camera, some ⟨0xc0a80002, 5004⟩, false⟩, rfl, rfl, rfl⟩
  exact absurd ((h _).mpr ⟨2, hlive⟩) (by decide)

end SourceTable

end Jrtplib4Android
