import Jrtplib4Android.Receiver.Destinations

/-!
# Departures

A source leaves when it says BYE or is removed from the table. JRTPLIB reports both, a BYE as
often as it comes, and `processSourceData` passes every report on to Java without keeping
what it has said about a source. `onceEach_run_iff` says when each departure is told once.
-/

namespace Jrtplib4Android

open CSem

/-- The table of sources, the `receiveBye` callbacks for each source since it came, and for
each removed source how many there were in all. -/
structure Departures where
  table : SourceTable
  byes : UInt32 → Nat
  gone : List Nat

namespace Departures

/-- A receiver that is initialised and attached. -/
def attached : JavaAccess := ⟨true, true, true⟩

def empty : Departures := ⟨.empty, fun _ => 0, []⟩

/-- The callback made for an event. -/
def callback (t : SourceTable) : SourceEvent → Option Callback
  | .new _ srcdat => (onNewSource attached t.destinations srcdat).2
  | .bye ssrc => (t.sources ssrc).bind fun s => (onBYEPacket attached t.destinations s.srcdat).2
  | .remove ssrc =>
    (t.sources ssrc).bind fun s => (onRemoveSource attached t.destinations s.srcdat).2
  | .setRtpAddress .. => none
  | .setRtcpAddress .. => none

/-- The number of `receiveBye` among at most one callback. -/
def byesIn : Option Callback → Nat
  | some (.receiveBye _) => 1
  | _ => 0

/-- An event, with the callbacks counted for its source. -/
def step (d : Departures) (e : SourceEvent) : Departures :=
  let made := byesIn (callback d.table e)
  match e with
  | .new ssrc _ => ⟨d.table.step attached e, Function.update d.byes ssrc made, d.gone⟩
  | .bye ssrc =>
    ⟨d.table.step attached e, Function.update d.byes ssrc (d.byes ssrc + made), d.gone⟩
  | .remove ssrc =>
    ⟨d.table.step attached e, Function.update d.byes ssrc 0,
      if (d.table.sources ssrc).isSome then (d.byes ssrc + made) :: d.gone else d.gone⟩
  | .setRtpAddress .. => { d with table := d.table.step attached e }
  | .setRtcpAddress .. => { d with table := d.table.step attached e }

/-- Every source that has left has caused one `receiveBye`, and no other source any. -/
structure OnceEach (d : Departures) : Prop where
  present : ∀ ssrc s, d.table.sources ssrc = some s → d.byes ssrc = if s.departed then 1 else 0
  gone : ∀ n ∈ d.gone, n = 1

/-- A source has an address when it is reported. -/
def Addressed (d : Departures) : Prop :=
  ∀ ssrc s, d.table.sources ssrc = some s → 0 < d.byes ssrc → s.srcdat.dest ≠ none

/-- The event is the first report of a departure, of a source with an address. -/
def FirstReport (d : Departures) : SourceEvent → Prop
  | .bye ssrc => ∀ s, d.table.sources ssrc = some s → s.departed = false ∧ s.srcdat.dest ≠ none
  | .remove ssrc => ∀ s, d.table.sources ssrc = some s → s.departed = false ∧ s.srcdat.dest ≠ none
  | _ => True

variable {d : Departures}

/-- A report is passed on exactly if the source has an address. -/
theorem byesIn_report (destinations : Finset RTPIPv4Address) (srcdat : RTPSourceData) :
    byesIn (processSourceData attached destinations srcdat false).2 =
      if srcdat.dest = none then 0 else 1 := by
  unfold processSourceData
  cases srcdat.dest with
  | none => rfl
  | some dest => rfl

theorem byesIn_new (destinations : Finset RTPIPv4Address) (srcdat : RTPSourceData) :
    byesIn (onNewSource attached destinations srcdat).2 = 0 := by
  unfold onNewSource processSourceData
  cases srcdat.dest with
  | none => rfl
  | some dest => rfl

/-- Counting one more report, a source is at one exactly if this is the first report of it. -/
theorem report_iff (h : d.OnceEach) (haddressed : d.Addressed) {ssrc : UInt32} {s : Source}
    (hs : d.table.sources ssrc = some s) :
    d.byes ssrc + byesIn (processSourceData attached d.table.destinations s.srcdat false).2 = 1 ↔
      s.departed = false ∧ s.srcdat.dest ≠ none := by
  have hbyes := h.present ssrc s hs
  have hdest := haddressed ssrc s hs
  rw [byesIn_report]
  cases hdeparted : s.departed with
  | false =>
    rw [hdeparted] at hbyes
    by_cases hnone : s.srcdat.dest = none
    · simp [hbyes, hnone]
    · simp [hbyes, hnone]
  | true =>
    simp only [hdeparted, ite_true] at hbyes
    have hsome := hdest (by omega)
    simp [hbyes, hsome]

/-- What is known of a source that is put in place of another. -/
theorem forall_update_iff (ssrc : UInt32) (source : Option Source) (n : Nat)
    {P : Source → Nat → Prop}
    (h : ∀ other s, d.table.sources other = some s → P s (d.byes other)) :
    (∀ other s, Function.update d.table.sources ssrc source other = some s →
        P s (Function.update d.byes ssrc n other)) ↔ ∀ s, source = some s → P s n := by
  constructor
  · intro hall s hs
    have hself := hall ssrc s
    rw [Function.update_self, Function.update_self] at hself
    exact hself hs
  · intro hnew other s hs
    by_cases hother : other = ssrc
    · subst hother
      rw [Function.update_self] at hs ⊢
      exact hnew s hs
    · rw [Function.update_of_ne hother] at hs ⊢
      exact h other s hs

/-- A source that has an address keeps one. -/
theorem dest_ne_none_of_rtp (srcdat : RTPSourceData) (addr : RTPIPv4Address) :
    ({ srcdat with rtpAddress := some addr } : RTPSourceData).dest ≠ none := by
  simp [RTPSourceData.dest]

theorem dest_ne_none_of_rtcp (srcdat : RTPSourceData) (addr : RTPIPv4Address) :
    ({ srcdat with rtcpAddress := some addr } : RTPSourceData).dest ≠ none := by
  unfold RTPSourceData.dest
  cases srcdat.rtpAddress <;> simp

/-- What is known of a source whose addresses change. -/
theorem forall_set {ssrc : UInt32} (f : Source → Source) {P : Source → Nat → Prop}
    (h : ∀ other s, d.table.sources other = some s → P s (d.byes other))
    (hf : ∀ s n, P s n → P (f s) n) :
    ∀ other s, Function.update d.table.sources ssrc ((d.table.sources ssrc).map f) other = some s →
      P s (d.byes other) := by
  have hall := (forall_update_iff ssrc ((d.table.sources ssrc).map f) (d.byes ssrc) h).mpr
  rw [Function.update_eq_self] at hall
  apply hall
  intro s hs
  obtain ⟨old, hold, rfl⟩ := Option.map_eq_some_iff.mp hs
  exact hf old _ (h ssrc old hold)

/-- Sources keep their addresses, so what is reported has one. -/
theorem addressed_step (h : d.Addressed) {e : SourceEvent} (hallowed : d.table.Allowed e) :
    (d.step e).Addressed := by
  cases e with
  | new ssrc srcdat =>
    apply (forall_update_iff _ _ _ (P := fun s n => 0 < n → s.srcdat.dest ≠ none) h).mpr
    rintro s - hpos
    rw [callback, byesIn_new] at hpos
    exact absurd hpos (Nat.lt_irrefl 0)
  | setRtpAddress ssrc addr =>
    exact forall_set (fun s => { s with srcdat := { s.srcdat with rtpAddress := some addr } })
      (P := fun s n => 0 < n → s.srcdat.dest ≠ none) h
      fun s _ _ _ => dest_ne_none_of_rtp s.srcdat addr
  | setRtcpAddress ssrc addr =>
    exact forall_set (fun s => { s with srcdat := { s.srcdat with rtcpAddress := some addr } })
      (P := fun s n => 0 < n → s.srcdat.dest ≠ none) h
      fun s _ _ _ => dest_ne_none_of_rtcp s.srcdat addr
  | bye ssrc =>
    obtain ⟨s, hs⟩ := hallowed
    simp only [Addressed, step, callback, SourceTable.step, hs, Option.bind_some]
    apply (forall_update_iff _ _ _ (P := fun s n => 0 < n → s.srcdat.dest ≠ none) h).mpr
    rintro _ ⟨⟩ hpos hnone
    rw [onBYEPacket, byesIn_report, if_pos hnone, Nat.add_zero] at hpos
    exact h ssrc s hs hpos hnone
  | remove ssrc =>
    obtain ⟨s, hs⟩ := hallowed
    simp only [Addressed, step, SourceTable.step, hs]
    apply (forall_update_iff _ _ _ (P := fun s n => 0 < n → s.srcdat.dest ≠ none) h).mpr
    rintro _ ⟨⟩

/-- A BYE keeps the departures told once exactly if its source has been told once by then. -/
theorem onceEach_bye_iff (h : d.OnceEach) {ssrc : UInt32} {s : Source}
    (hs : d.table.sources ssrc = some s) :
    (d.step (.bye ssrc)).OnceEach ↔
      d.byes ssrc + byesIn (onBYEPacket attached d.table.destinations s.srcdat).2 = 1 := by
  have hpresent := forall_update_iff ssrc (some { s with departed := true })
    (d.byes ssrc + byesIn (onBYEPacket attached d.table.destinations s.srcdat).2)
    (P := fun s n => n = if s.departed then 1 else 0) h.present
  have hstep : d.step (.bye ssrc) = ⟨d.table.step attached (.bye ssrc), Function.update d.byes
      ssrc (d.byes ssrc + byesIn (onBYEPacket attached d.table.destinations s.srcdat).2),
      d.gone⟩ := by
    simp only [step, callback, hs, Option.bind_some]
  rw [hstep, SourceTable.step, hs]
  constructor
  · rintro ⟨hnext, -⟩
    exact hpresent.mp hnext _ rfl
  · intro hone
    refine ⟨hpresent.mpr ?_, h.gone⟩
    rintro _ ⟨⟩
    exact hone

/-- A removal keeps the departures told once exactly if its source has been told once in all. -/
theorem onceEach_remove_iff (h : d.OnceEach) {ssrc : UInt32} {s : Source}
    (hs : d.table.sources ssrc = some s) :
    (d.step (.remove ssrc)).OnceEach ↔
      d.byes ssrc + byesIn (onRemoveSource attached d.table.destinations s.srcdat).2 = 1 := by
  have hstep : d.step (.remove ssrc) = ⟨d.table.step attached (.remove ssrc),
      Function.update d.byes ssrc 0, (d.byes ssrc +
        byesIn (onRemoveSource attached d.table.destinations s.srcdat).2) :: d.gone⟩ := by
    simp only [step, callback, hs, Option.bind_some, Option.isSome_some, ite_true]
  rw [hstep, SourceTable.step, hs]
  constructor
  · rintro ⟨-, hgone⟩
    exact hgone _ (List.mem_cons_self ..)
  · intro hone
    refine ⟨?_, List.forall_mem_cons.mpr ⟨hone, h.gone⟩⟩
    apply (forall_update_iff _ _ _ (P := fun s n => n = if s.departed then 1 else 0)
      h.present).mpr
    rintro _ ⟨⟩

/-- An allowed event keeps the departures told once exactly if it is the first report of one, of
a source with an address. -/
theorem onceEach_step_iff (h : d.OnceEach) (haddressed : d.Addressed) {e : SourceEvent}
    (hallowed : d.table.Allowed e) : (d.step e).OnceEach ↔ d.FirstReport e := by
  cases e with
  | new ssrc srcdat =>
    refine iff_of_true ⟨?_, h.gone⟩ trivial
    apply (forall_update_iff _ _ _ (P := fun s n => n = if s.departed then 1 else 0) h.present).mpr
    rintro _ ⟨⟩
    exact byesIn_new d.table.destinations srcdat
  | setRtpAddress ssrc addr =>
    refine iff_of_true ⟨?_, h.gone⟩ trivial
    exact forall_set (fun s => { s with srcdat := { s.srcdat with rtpAddress := some addr } })
      (P := fun s n => n = if s.departed then 1 else 0) h.present fun _ _ hs => hs
  | setRtcpAddress ssrc addr =>
    refine iff_of_true ⟨?_, h.gone⟩ trivial
    exact forall_set (fun s => { s with srcdat := { s.srcdat with rtcpAddress := some addr } })
      (P := fun s n => n = if s.departed then 1 else 0) h.present fun _ _ hs => hs
  | bye ssrc =>
    obtain ⟨s, hs⟩ := hallowed
    rw [onceEach_bye_iff h hs]
    simp only [FirstReport, hs, Option.some.injEq, forall_eq']
    exact report_iff h haddressed hs
  | remove ssrc =>
    obtain ⟨s, hs⟩ := hallowed
    rw [onceEach_remove_iff h hs]
    simp only [FirstReport, hs, Option.some.injEq, forall_eq']
    exact report_iff h haddressed hs

/-- In a run from the empty table each departure is told once, exactly if every BYE and every
removal is the first report of its source, and the source has an address by then. -/
theorem onceEach_run_iff (es : List SourceEvent)
    (hallowed : ∀ p ∈ trace step empty es, p.1.table.Allowed p.2) :
    (∀ n, (after step empty (es.take n)).OnceEach) ↔
      ∀ p ∈ trace step empty es, p.1.FirstReport p.2 := by
  refine forall_take_iff (J := Addressed) (I := OnceEach) (A := fun d e => d.table.Allowed e)
    (G := FirstReport) ?_ ?_ hallowed
      (fun _ _ haddressed he => addressed_step haddressed he) fun _ _ haddressed honce he =>
        onceEach_step_iff honce haddressed he
  · rintro ssrc s ⟨⟩
  · refine ⟨?_, fun n hn => absurd hn List.not_mem_nil⟩
    rintro ssrc s ⟨⟩

/-- A source that is removed without a BYE. -/
theorem onceEach_timeout :
    (after step empty [.new 1 SourceTable.camera, .remove 1]).OnceEach := by
  refine (onceEach_run_iff [.new 1 SourceTable.camera, .remove 1] ?_).mpr ?_ 2
  · simp only [forall_trace_cons, forall_trace_nil, and_true]
    exact ⟨rfl, _, rfl⟩
  · simp only [forall_trace_cons, forall_trace_nil, and_true]
    refine ⟨trivial, fun s hs => ?_⟩
    cases hs
    exact ⟨rfl, by decide⟩

/-- A source that says BYE and is removed after that is told twice. -/
theorem not_onceEach_bye :
    (∀ p ∈ trace step empty [.new 1 SourceTable.camera, .bye 1, .remove 1],
      p.1.table.Allowed p.2) ∧
    ¬ ∀ n, (after step empty
      ([.new 1 SourceTable.camera, .bye 1, .remove 1].take n)).OnceEach := by
  constructor
  · simp only [forall_trace_cons, forall_trace_nil, and_true]
    exact ⟨rfl, ⟨_, rfl⟩, _, rfl⟩
  · intro h
    have htwo : (after step empty
        [.new 1 SourceTable.camera, .bye 1, .remove 1]).gone = [2] := by
      decide +kernel
    have hone := (h 3).gone 2 (by rw [List.take_of_length_le (by decide), htwo]; decide)
    exact absurd hone (by decide)

end Departures

end Jrtplib4Android
