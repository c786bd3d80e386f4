import Jrtplib4Android.Ps.Safety
import Jrtplib4Android.Receiver.Reassembly

/-!
# Packets of several sources

The poll threads of all receiver objects hand their packets to
`processRtpPacket` one call at a time, in some order. A run records every call
together with the sources whose payloads make up `psBuf[0, psLen)` before it; the
program keeps no such record, and where the sources differ their packs are mixed.
-/

namespace Jrtplib4Android

open CSem

variable {ι σ : Type}

/-- A packet and the source it comes from. -/
structure Arrival (σ : Type) where
  source : σ
  packet : RTPPacket

/-- All receiver objects, the globals they share, and the sources of the pending bytes. -/
structure ReceiverState (ι σ : Type) where
  receivers : ι → CRTPReceiver
  globals : PsGlobals
  sources : List σ

/-- One call of a run. -/
structure ReceiveStep (ι σ : Type) where
  before : ReceiverState ι σ
  arrival : Arrival σ
  result : Except Fault Effect

/-- The sources of the pending bytes after a packet. -/
def Effect.sources (effect : Effect) (before : List σ) (source : σ) : List σ :=
  match effect with
  | .skipped => before
  | .overflow => []
  | .stored => before ++ [source]
  | .flushed _ => [source]

/-- A run: the packets in the order of the calls, each processed by the object that owns
its source, up to the first call that faults. -/
def receiverRun [DecidableEq ι] (owner : σ → ι) (st : ReceiverState ι σ) :
    List (Arrival σ) → List (ReceiveStep ι σ)
  | [] => []
  | a :: arrivals =>
    match processRtpPacket (st.receivers (owner a.source)) st.globals a.packet with
    | .error f => [⟨st, a, .error f⟩]
    | .ok (r, g, effect) =>
      ⟨st, a, .ok effect⟩ :: receiverRun owner
        ⟨fun i => if i = owner a.source then r else st.receivers i, g,
          effect.sources st.sources a.source⟩ arrivals

/-- The frame of a call, if bytes of `s` are in it. -/
def ReceiveStep.frameFrom [DecidableEq σ] (s : σ) (step : ReceiveStep ι σ) : Option Frame :=
  match step.result with
  | .error _ => none
  | .ok effect => if s ∈ step.before.sources then effect.frame else none

/-- The frames of a run that stem from `s`. -/
def framesFrom [DecidableEq σ] (s : σ) (steps : List (ReceiveStep ι σ)) : List Frame :=
  steps.filterMap (ReceiveStep.frameFrom s)

/-- The pending bytes. -/
def ReceiverState.pending (st : ReceiverState ι σ) : List UInt8 :=
  st.globals.psBuf.slice 0 st.globals.psLen

/-- A call that sees no bytes of another source: none are pending, and where the payload joins
pending bytes it tells by itself whether it starts a pack, and the demuxer stays inside the
pack that it flushes. -/
def Isolated (st : ReceiverState ι σ) (a : Arrival σ) : Prop :=
  a.packet.payload = [] ∨
    (∀ s ∈ st.sources, s = a.source) ∧
      (st.globals.psLen + a.packet.payload.length < psBufSize → st.pending ≠ [] →
        a.packet.Checkable ∧ (a.packet.StartsPack → PackSafe st.pending))

/-- The state represents `pending`, and sources are recorded exactly for pending bytes. -/
structure Represents (st : ReceiverState ι σ) (pending : List UInt8) : Prop where
  holds : Holds st.globals pending
  sources : st.sources = [] ↔ pending = []

/-- An isolated call does to the pending bytes what `absorb` does. -/
theorem absorb_of_isolated {st : ReceiverState ι σ} {pending : List UInt8} {a : Arrival σ}
    (hst : Represents st pending) (hisolated : Isolated st a) :
    ∃ pending' effect, absorb pending a.packet = some (pending', effect) ∧
      JoinsPlainly pending a.packet ∧
      ∀ sources : List σ, (sources = [] ↔ pending = []) →
        (effect.sources sources a.source = [] ↔ pending' = []) := by
  have hpending : st.pending = pending := by
    rw [ReceiverState.pending, hst.holds.length, hst.holds.bytes]
  unfold absorb
  by_cases hne : a.packet.payload = []
  · exact ⟨pending, .skipped, if_pos hne, fun _ _ => Or.inl hne, fun _ h => h⟩
  have hjoins := (hisolated.resolve_left hne).2
  rw [hst.holds.length, hpending] at hjoins
  rw [if_neg hne]
  by_cases hfit : pending.length + a.packet.payload.length < psBufSize
  swap
  · exact ⟨[], .overflow, if_pos hfit, fun h => absurd h hfit, by simp [Effect.sources]⟩
  have hplain : JoinsPlainly pending a.packet := fun _ h => Or.inr (hjoins hfit h).1
  rw [if_neg (not_not.mpr hfit)]
  by_cases hflush : a.packet.StartsPack ∧ pending ≠ []
  · rw [if_pos hflush]
    have hdemux : (demux pending).isSome := by
      rw [demux_isSome_iff]
      exact (hjoins hfit hflush.2).2 hflush.1
    obtain ⟨data, hdata⟩ := Option.isSome_iff_exists.mp hdemux
    rw [hdata]
    exact ⟨_, _, rfl, hplain, by simp [Effect.sources, hne]⟩
  · rw [if_neg hflush]
    exact ⟨_, _, rfl, hplain, by simp [Effect.sources, hne]⟩

/-- A packet of the source that all pending bytes are from is isolated if `absorb` takes it. -/
theorem isolated_of_absorb {st : ReceiverState ι σ} {pending : List UInt8} {s : σ}
    {p : RTPPacket} {result : List UInt8 × Effect} (hst : Represents st pending)
    (hown : ∀ t ∈ st.sources, t = s) (hp : p.Checkable)
    (habsorb : absorb pending p = some result) : Isolated st ⟨s, p⟩ := by
  by_cases hempty : p.payload = []
  · exact .inl hempty
  have hpending : st.pending = pending := by
    rw [ReceiverState.pending, hst.holds.length, hst.holds.bytes]
  refine .inr ⟨hown, fun hfit hne => ⟨hp, fun hstart => ?_⟩⟩
  rw [hst.holds.length] at hfit
  rw [hpending] at hne ⊢
  rw [absorb, if_neg hempty, if_neg (not_not.mpr hfit), if_pos ⟨hstart, hne⟩,
    Option.map_eq_some_iff] at habsorb
  obtain ⟨data, hdata, -⟩ := habsorb
  exact (demux_isSome_iff _).mp (Option.isSome_iff_exists.mpr ⟨data, hdata⟩)

/-- The sources after a packet are those before it, and its own. -/
theorem Effect.mem_sources {effect : Effect} {before : List σ} {s source : σ}
    (h : s ∈ effect.sources before source) : s ∈ before ∨ s = source := by
  cases effect with
  | skipped => exact Or.inl h
  | overflow => cases h
  | stored => exact (List.mem_append.mp h).imp_right List.mem_singleton.mp
  | flushed frame => exact Or.inr (List.mem_singleton.mp h)

/-- Where all pending bytes are from `s`, leaving out the other sources leaves all of them. -/
theorem Represents.own [DecidableEq σ] {st : ReceiverState ι σ} {pending : List UInt8} {s : σ}
    (hst : Represents st pending) (hown : ∀ t ∈ st.sources, t = s) :
    (if s ∈ st.sources then pending else []) = pending ∧
      (if s ∈ st.sources then st.sources else []) = st.sources := by
  by_cases hs : s ∈ st.sources
  · exact ⟨if_pos hs, if_pos hs⟩
  · have hnil : st.sources = [] :=
      List.eq_nil_iff_forall_not_mem.mpr fun t ht => hs (hown t ht ▸ ht)
    exact ⟨(if_neg hs).trans (hst.sources.mp hnil).symm, (if_neg hs).trans hnil.symm⟩

theorem framesFrom_cons [DecidableEq σ] (s : σ) (step : ReceiveStep ι σ)
    (steps : List (ReceiveStep ι σ)) :
    framesFrom s (step :: steps) = (step.frameFrom s).toList ++ framesFrom s steps := by
  unfold framesFrom
  rw [List.filterMap_cons]
  cases step.frameFrom s <;> rfl

/-- While bytes of `s` are pending both runs hold them, otherwise the second holds none. -/
structure Beside [DecidableEq σ] (s : σ) (st st' : ReceiverState ι σ) (pending : List UInt8) :
    Prop where
  whole : Represents st pending
  part : Represents st' (if s ∈ st.sources then pending else [])
  sources : st'.sources = if s ∈ st.sources then st.sources else []

section Beside

variable {s : σ} {st st' st₁ : ReceiverState ι σ} {pending pending' : List UInt8} {a : Arrival σ}
  {effect : Effect}

/-- Where all bytes are from the source of a packet, all are behind it. -/
theorem sources_own (hown : ∀ t ∈ st.sources, t = a.source)
    (hsources₁ : st₁.sources = effect.sources st.sources a.source) :
    ∀ t ∈ st₁.sources, t = a.source := by
  intro t ht
  rw [hsources₁] at ht
  exact (Effect.mem_sources ht).elim (hown t) id

/-- Without payload nothing happens. -/
theorem absorb_of_empty (hempty : a.packet.payload = [])
    (habsorb : absorb pending a.packet = some (pending', effect)) :
    pending' = pending ∧ effect = .skipped := by
  rw [absorb, if_pos hempty] at habsorb
  cases habsorb
  exact ⟨rfl, rfl⟩

variable [DecidableEq σ]

theorem Beside.mem_iff (h : Beside s st st' pending) : s ∈ st'.sources ↔ s ∈ st.sources := by
  rw [h.sources]
  split <;> simp_all

/-- A packet of another source takes part in the first run alone, and brings no frame of `s`. -/
theorem Beside.other (h : Beside s st st' pending) (hhead : Isolated st a) (ha : a.source ≠ s)
    (habsorb : absorb pending a.packet = some (pending', effect)) (hst₁ : Represents st₁ pending')
    (hsources₁ : st₁.sources = effect.sources st.sources a.source) :
    Beside s st₁ st' pending' ∧ (ReceiveStep.mk st a (.ok effect)).frameFrom s = none := by
  by_cases hempty : a.packet.payload = []
  · obtain ⟨rfl, rfl⟩ := absorb_of_empty hempty habsorb
    rw [Effect.sources] at hsources₁
    exact ⟨⟨hst₁, hsources₁ ▸ h.part, hsources₁ ▸ h.sources⟩, ite_self _⟩
  · -- nothing from `s` is pending, before or after
    have hown := (hhead.resolve_left hempty).1
    have hown₁ := sources_own hown hsources₁
    have hs : s ∉ st.sources := fun hin => ha (hown s hin).symm
    have hs₁ : s ∉ st₁.sources := fun hin => ha (hown₁ s hin).symm
    obtain ⟨-, hpart, hsources⟩ := h
    rw [if_neg hs] at hpart hsources
    exact ⟨⟨hst₁, by rwa [if_neg hs₁], by rw [if_neg hs₁, hsources]⟩, if_neg hs⟩

/-- A packet of `s` does the same in both runs. -/
theorem Beside.own (h : Beside s st st' pending) (hhead : Isolated st a) (ha : a.source = s)
    (habsorb : absorb pending a.packet = some (pending', effect))
    (hnil : ∀ sources : List σ, (sources = [] ↔ pending = []) →
      (effect.sources sources a.source = [] ↔ pending' = [])) :
    ∃ part', absorb (if s ∈ st.sources then pending else []) a.packet = some (part', effect) ∧
      (effect.sources st'.sources a.source = [] ↔ part' = []) ∧
      ∀ st₁ st₂ : ReceiverState ι σ, Represents st₁ pending' →
        st₁.sources = effect.sources st.sources a.source → Represents st₂ part' →
        st₂.sources = effect.sources st'.sources a.source → Beside s st₁ st₂ pending' := by
  by_cases hempty : a.packet.payload = []
  · obtain ⟨rfl, rfl⟩ := absorb_of_empty hempty habsorb
    refine ⟨_, if_pos hempty, h.part.sources, fun st₁ st₂ hst₁ hsources₁ hst₂ hsources₂ => ?_⟩
    rw [Effect.sources] at hsources₁ hsources₂
    rw [← hsources₁] at hst₂
    exact ⟨hst₁, hst₂, by rw [hsources₂, h.sources, hsources₁]⟩
  · -- what is pending is from `s`, so the other run holds the same
    subst ha
    have hown := (hhead.resolve_left hempty).1
    obtain ⟨hwhole, hpart, hsources⟩ := h
    rw [(hwhole.own hown).1] at hpart ⊢
    rw [(hwhole.own hown).2] at hsources
    refine ⟨pending', habsorb, hnil _ hpart.sources, ?_⟩
    intro st₁ st₂ hst₁ hsources₁ hst₂ hsources₂
    have hown₁ := sources_own hown hsources₁
    refine ⟨hst₁, by rwa [(hst₁.own hown₁).1], ?_⟩
    rw [(hst₁.own hown₁).2, hsources₂, hsources₁, hsources]

end Beside

section Runs

variable [DecidableEq ι] (owner : σ → ι)

/-- A run starts with the call on its first packet. -/
theorem receiverRun_head (st : ReceiverState ι σ) (a : Arrival σ) (arrivals : List (Arrival σ)) :
    ∃ result steps, receiverRun owner st (a :: arrivals) = ⟨st, a, result⟩ :: steps := by
  unfold receiverRun
  split <;> exact ⟨_, _, rfl⟩

/-- Where `absorb` has a result, the call succeeds with it and the run goes on. -/
theorem receiverRun_cons {st : ReceiverState ι σ} {pending pending' : List UInt8}
    {a : Arrival σ} {effect : Effect} (arrivals : List (Arrival σ)) (hst : Represents st pending)
    (hplain : JoinsPlainly pending a.packet)
    (habsorb : absorb pending a.packet = some (pending', effect))
    (hsources : effect.sources st.sources a.source = [] ↔ pending' = []) :
    ∃ st', receiverRun owner st (a :: arrivals) =
        ⟨st, a, .ok effect⟩ :: receiverRun owner st' arrivals ∧
      Represents st' pending' ∧ st'.sources = effect.sources st.sources a.source := by
  obtain ⟨r, g, hok, hg⟩ :=
    processRtpPacket_absorb (st.receivers (owner a.source)) hst.holds hplain habsorb
  exact ⟨_, by rw [receiverRun, hok], ⟨hg, hsources⟩, rfl⟩

/-- The packets of one source in a row are isolated where its bytes alone are pending. -/
theorem isolated_of_row {st : ReceiverState ι σ} {pending pending' : List UInt8} {s : σ}
    {ps : List RTPPacket} {frames : List Frame} (hst : Represents st pending)
    (hown : ∀ t ∈ st.sources, t = s) (hps : ∀ p ∈ ps, p.Checkable)
    (habsorb : absorbAll pending ps = some (pending', frames)) (rest : List (Arrival σ)) :
    ∃ st', Represents st' pending' ∧
      ((∀ step ∈ receiverRun owner st' rest, Isolated step.before step.arrival) →
        ∀ step ∈ receiverRun owner st (ps.map (Arrival.mk s) ++ rest),
          Isolated step.before step.arrival) := by
  induction ps generalizing st pending frames with
  | nil =>
    cases habsorb
    exact ⟨st, hst, id⟩
  | cons p ps ih =>
    obtain ⟨hp, hps⟩ := List.forall_mem_cons.mp hps
    simp only [absorbAll, Option.bind_eq_bind, Option.bind_eq_some_iff] at habsorb
    obtain ⟨⟨mid, effect⟩, hstep, ⟨last, later⟩, hrest, heq⟩ := habsorb
    cases heq
    have hhead := isolated_of_absorb hst hown hp hstep
    obtain ⟨mid', effect', hstep', hplain, hnil⟩ := absorb_of_isolated hst hhead
    rw [hstep] at hstep'
    cases hstep'
    obtain ⟨st₁, hrun, hst₁, hsources₁⟩ := receiverRun_cons owner
      (ps.map (Arrival.mk s) ++ rest) hst hplain hstep (hnil _ hst.sources)
    obtain ⟨st', hst', hisolated⟩ := ih hst₁ (sources_own hown hsources₁) hps hrest
    refine ⟨st', hst', fun hlater => ?_⟩
    rw [List.map_cons, List.cons_append, hrun]
    exact List.forall_mem_cons.mpr ⟨hhead, hisolated hlater⟩

/-- Sources that take turns, each of which leaves nothing pending, are isolated. -/
theorem isolated_of_turns {st : ReceiverState ι σ} (hst : Represents st [])
    (turns : List (σ × List RTPPacket))
    (hturns : ∀ turn ∈ turns, (∀ p ∈ turn.2, p.Checkable) ∧
      ∃ frames, absorbAll [] turn.2 = some ([], frames)) :
    ∀ step ∈ receiverRun owner st (turns.flatMap fun turn => turn.2.map (Arrival.mk turn.1)),
      Isolated step.before step.arrival := by
  induction turns generalizing st with
  | nil => exact fun step hstep => absurd hstep List.not_mem_nil
  | cons turn turns ih =>
    obtain ⟨⟨hps, frames, habsorb⟩, hturns⟩ := List.forall_mem_cons.mp hturns
    have hown : ∀ t ∈ st.sources, t = turn.1 := by
      rw [hst.sources.mpr rfl]
      exact fun t ht => absurd ht List.not_mem_nil
    obtain ⟨st', hst', hisolated⟩ := isolated_of_row owner hst hown hps habsorb
      (turns.flatMap fun turn => turn.2.map (Arrival.mk turn.1))
    rw [List.flatMap_cons]
    exact hisolated (ih hst' hturns)

variable [DecidableEq σ]

/-- A source none of whose packets arrive, and none of whose bytes are pending, has no
frames. -/
theorem framesFrom_eq_nil {s : σ} (st : ReceiverState ι σ) (arrivals : List (Arrival σ))
    (hst : s ∉ st.sources) (hs : ∀ a ∈ arrivals, a.source ≠ s) :
    framesFrom s (receiverRun owner st arrivals) = [] := by
  induction arrivals generalizing st with
  | nil => rfl
  | cons a arrivals ih =>
    obtain ⟨ha, hs⟩ := List.forall_mem_cons.mp hs
    unfold receiverRun
    split
    · rfl
    · next r g effect _ =>
      have hnext : s ∉ effect.sources st.sources a.source := by
        cases effect <;> simp [Effect.sources, hst, ha.symm]
      rw [framesFrom_cons, ih _ hnext hs]
      simp [ReceiveStep.frameFrom, hst]

/-- A run of isolated calls and the run of the packets of `s` alone deliver the same frames
from `s`. -/
theorem framesFrom_filter_of_isolated (s : σ) {st st' : ReceiverState ι σ}
    {pending : List UInt8} (arrivals : List (Arrival σ)) (h : Beside s st st' pending)
    (hisolated : ∀ step ∈ receiverRun owner st arrivals, Isolated step.before step.arrival) :
    framesFrom s (receiverRun owner st arrivals) =
      framesFrom s (receiverRun owner st' (arrivals.filter fun a => a.source = s)) := by
  induction arrivals generalizing st st' pending with
  | nil => rfl
  | cons a arrivals ih =>
    have hhead : Isolated st a := by
      obtain ⟨result, steps, hrun⟩ := receiverRun_head owner st a arrivals
      exact hisolated ⟨st, a, result⟩ (by rw [hrun]; exact List.mem_cons_self ..)
    obtain ⟨pending', effect, habsorb, hplain, hnil⟩ := absorb_of_isolated h.whole hhead
    obtain ⟨st₁, hrun, hst₁, hsources₁⟩ :=
      receiverRun_cons owner arrivals h.whole hplain habsorb (hnil _ h.whole.sources)
    rw [hrun] at hisolated ⊢
    have hlater := (List.forall_mem_cons.mp hisolated).2
    rw [framesFrom_cons]
    by_cases ha : a.source = s
    · obtain ⟨part', hpart, hpartNil, hbeside⟩ := h.own hhead ha habsorb hnil
      have hplain' : JoinsPlainly (if s ∈ st.sources then pending else []) a.packet := by
        split
        · exact hplain
        · exact fun _ hnone => absurd rfl hnone
      obtain ⟨st₂, hrun', hst₂, hsources₂⟩ := receiverRun_cons owner
        (arrivals.filter fun a => a.source = s) h.part hplain' hpart hpartNil
      have hframe : (ReceiveStep.mk st a (.ok effect)).frameFrom s =
          (ReceiveStep.mk st' a (.ok effect)).frameFrom s := by
        simp only [ReceiveStep.frameFrom, h.mem_iff]
      rw [List.filter_cons_of_pos (by simpa using ha), hrun', framesFrom_cons, hframe,
        ih (hbeside st₁ st₂ hst₁ hsources₁ hst₂ hsources₂) hlater]
    · obtain ⟨hbeside, hnone⟩ := h.other hhead ha habsorb hst₁ hsources₁
      rw [List.filter_cons_of_neg (by simpa using ha), hnone, Option.toList_none, List.nil_append]
      exact ih hbeside hlater

/-- From a start with nothing pending, in any order of the packets of any sources, the frames
that stem from a source are those its packets alone deliver, provided that only one
source sends or that no call sees bytes of another source. -/
theorem framesFrom_filter (st : ReceiverState ι σ) (hst : Holds st.globals [])
    (hsources : st.sources = []) (arrivals : List (Arrival σ))
    (hcalls : (∀ a ∈ arrivals, ∀ b ∈ arrivals, a.source = b.source) ∨
      ∀ step ∈ receiverRun owner st arrivals, Isolated step.before step.arrival) (s : σ) :
    framesFrom s (receiverRun owner st arrivals) =
      framesFrom s (receiverRun owner st (arrivals.filter fun a => a.source = s)) := by
  have hs : s ∉ st.sources := by simp [hsources]
  rcases hcalls with hone | hisolated
  · by_cases hex : ∃ a ∈ arrivals, a.source = s
    · obtain ⟨a, ha, rfl⟩ := hex
      have hall : arrivals.filter (fun b => b.source = a.source) = arrivals :=
        List.filter_eq_self.mpr fun b hb => decide_eq_true (hone b hb a ha)
      rw [hall]
    · have hne : ∀ a ∈ arrivals, a.source ≠ s := fun a ha h => hex ⟨a, ha, h⟩
      have hnone : arrivals.filter (fun a => a.source = s) = [] :=
        List.filter_eq_nil_iff.mpr fun a ha => by simpa using hne a ha
      rw [hnone, framesFrom_eq_nil owner st arrivals hs hne]
      rfl
  · have hst' : Represents st [] := ⟨hst, by simp [hsources]⟩
    have hbeside : Beside s st st [] := ⟨hst', by rwa [ite_self], by rw [if_neg hs, hsources]⟩
    exact framesFrom_filter_of_isolated owner s arrivals hbeside hisolated

end Runs

/-- Two receiver objects with one source each. -/
def twoReceivers : ReceiverState Bool Bool := ⟨fun _ => ⟨0, true, 0⟩, psGlobals₀, []⟩

/-- The first source sends a pack and the start of the next; between the two packets of the
pack the second source sends a packet. -/
def interrupted (between : RTPPacket) : List (Arrival Bool) :=
  [⟨false, twoPacketPack.first⟩, ⟨true, between⟩] ++
    twoPacketPack.rest.map (fun p => ⟨false, p⟩) ++ [⟨false, twoPacketPack.first⟩]

/-- A payload of zeros. -/
def filler : RTPPacket :=
  plainPacket (List.replicate 32760 0) (by rw [List.length_replicate]; decide)

theorem payload_filler : filler.payload = List.replicate 32760 0 := by
  rw [filler, RTPPacket.payload, plainPacket, List.drop_left' List.length_replicate]

theorem length_filler : filler.payload.length = 32760 := by
  rw [payload_filler, List.length_replicate]

theorem not_startsPack_filler : ¬ filler.StartsPack := by
  rw [RTPPacket.StartsPack, payload_filler]
  intro h
  have hthird := h.getElem (i := 2) (by decide)
  rw [List.getElem_replicate] at hthird
  cases hthird

/-- A pack sent twice, and then packets that belong to no pack until the buffer overflows. -/
def overflowing : List RTPPacket :=
  (twoPacketPack.packets ++ twoPacketPack.packets) ++ (List.replicate 128 filler ++ [filler])

/-- The overflow leaves nothing pending. -/
theorem absorbAll_overflowing :
    absorbAll [] overflowing = some ([], (frameOf twoPacketPack.video true).toList) := by
  have hbytes : twoPacketPack.bytes.length = 30 := by decide
  have hflood : ((List.replicate 128 filler).flatMap RTPPacket.payload).length = 128 * 32760 := by
    rw [List.length_flatMap, List.map_replicate, List.sum_replicate_nat, length_filler]
  have hfour : ∀ p ∈ List.replicate 128 filler, 4 ≤ p.payload.length := by
    intro p hp
    rw [List.eq_of_mem_replicate hp, length_filler]
    decide
  have hstart : ∀ p ∈ List.replicate 128 filler, ¬ p.StartsPack := by
    intro p hp
    rw [List.eq_of_mem_replicate hp]
    exact not_startsPack_filler
  have hfits : twoPacketPack.bytes.length +
      ((List.replicate 128 filler).flatMap RTPPacket.payload).length < psBufSize := by
    rw [hbytes, hflood]
    decide
  have hinside := absorbAll_inside hfour hstart hfits
  refine absorbAll_append (absorbAll_append (absorbAll_firstPack _ (by decide))
    (absorbAll_nextPack _ _ (by decide) (by decide))) (absorbAll_append hinside ?_)
  have hstep : absorb (twoPacketPack.bytes ++
      (List.replicate 128 filler).flatMap RTPPacket.payload) filler = some ([], .overflow) := by
    have hne : filler.payload ≠ [] := List.length_pos_iff.mp (by rw [length_filler]; decide)
    rw [absorb, if_neg hne, if_pos]
    rw [List.length_append, hbytes, hflood, length_filler]
    decide
  rw [absorbAll, hstep]
  rfl

/-- The two sources take turns, and the overflow of each comes between the packs of the other. -/
def takingTurns : List (Arrival Bool) :=
  [(false, overflowing), (true, overflowing), (false, overflowing)].flatMap fun turn =>
    turn.2.map (Arrival.mk turn.1)

/-- The frames of the first source are those of its packets alone. -/
theorem framesFrom_filter_takingTurns :
    framesFrom false (receiverRun id twoReceivers takingTurns) =
      framesFrom false (receiverRun id twoReceivers
        (takingTurns.filter fun a => a.source = false)) := by
  refine framesFrom_filter id twoReceivers holds_psGlobals₀ rfl _ (Or.inr ?_) false
  refine isolated_of_turns id ⟨holds_psGlobals₀, iff_of_true rfl rfl⟩ _ ?_
  have hcheck : ∀ p ∈ overflowing, p.Checkable := by
    have hfour : ∀ p ∈ twoPacketPack.packets, 4 ≤ p.payload.length := twoPacketPack.four_le
    intro p hp
    simp only [overflowing, List.mem_append, List.mem_replicate, List.mem_singleton] at hp
    rcases hp with (hp | hp) | ⟨-, rfl⟩ | rfl
    · exact .inl (hfour p hp)
    · exact .inl (hfour p hp)
    · exact .inl (by rw [length_filler]; decide)
    · exact .inl (by rw [length_filler]; decide)
  simp only [List.forall_mem_cons, List.not_mem_nil, false_imp_iff, implies_true, and_true]
  exact ⟨⟨hcheck, _, absorbAll_overflowing⟩, ⟨hcheck, _, absorbAll_overflowing⟩, hcheck, _,
    absorbAll_overflowing⟩

/-- A whole pack of the second source takes the place of the first source's: the frame that
has the first source's bytes in it is the second source's. -/
theorem not_framesFrom_interrupted :
    framesFrom false (receiverRun id twoReceivers
        (interrupted (plainPacket (muxed plainHeader [videoUnit [1, 2, 3] (by decide)])
          (by decide)))) ≠
      framesFrom false (receiverRun id twoReceivers
        ((interrupted (plainPacket (muxed plainHeader [videoUnit [1, 2, 3] (by decide)])
          (by decide))).filter fun a => a.source = false)) := by
  decide +kernel

end Jrtplib4Android
