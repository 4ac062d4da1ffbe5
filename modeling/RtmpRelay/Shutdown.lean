import RtmpRelay.Relay

/-!
# The end of the stream

When `av_read_frame` fails, `startProcess` returns and the destructors run. The
trailer is written, but the queue, which always keeps the last packet pushed, is
freed as it stands. So what has been written is what has been read only where
nothing was read.
-/

namespace RtmpRelay.Relay

open Machine Machine.Outcome Media

variable {δ : Decoder} {ω : Resampler} {η : Encoder} {fuel : ℕ}

theorem destroy_written (s : Relay δ ω η) : s.destroy.delayer.written = s.delayer.written := by
  have htrailer := s.delayer.outputCall_eq (c := .avWriteTrailer) rfl
  have hclose := (s.delayer.outputCall .avWriteTrailer).outputCall_eq (c := .avioClosep) rfl
  have hfree := ((s.delayer.outputCall .avWriteTrailer).outputCall .avioClosep).outputCall_eq
    (c := .avformatFreeContext) rfl
  exact hfree.trans (hclose.trans htrailer)

theorem run_written_queue {D : Int} {o : OutputContext} (ho : o.calls = []) {r : Replacer δ η}
    {url : String} {a : Asr δ ω} {audio video : Int} {as : List Action} {s : Relay δ ω η}
    (hrun : run fuel (init (Delayer.new D o r url) a audio video) as = .ok s)
    (hreturned : s.pending = none) :
    List.Forall₂ Carries ((init (Delayer.new D o r url) a audio video).selectedPackets as)
        (s.delayer.written ++ s.delayer.avPacket) ∧
      ((init (Delayer.new D o r url) a audio video).selectedPackets as ≠ [] →
        s.delayer.avPacket ≠ []) := by
  have hqueue := run_delayer hrun
  have hselected : Delayer.pushes
      ((init (Delayer.new D o r url) a audio video).delayerCalls fuel as) ++ s.unpushed =
        (init (Delayer.new D o r url) a audio video).selectedPackets as := run_selected hrun
  have hfree : s.unpushed = [] := by rw [unpushed, hreturned]; rfl
  rw [hfree, List.append_nil] at hselected
  rw [← hselected]
  exact ⟨Delayer.run_tracks ho hqueue, Delayer.run_queue_ne hqueue⟩

/-- Every packet of the selected streams has been written in the end if and
only if none was read. -/
theorem tail_lost_iff (fuel : ℕ) (D : Int) {o : OutputContext} (ho : o.calls = [])
    (r : Replacer δ η) (url : String) (a : Asr δ ω) (audio video : Int) {as : List Action}
    {s : Relay δ ω η} (hrun : run fuel (init (Delayer.new D o r url) a audio video) as = .ok s)
    (hreturned : s.pending = none) :
    List.Forall₂ Carries ((init (Delayer.new D o r url) a audio video).selectedPackets as)
        s.destroy.delayer.written ↔
      (init (Delayer.new D o r url) a audio video).selectedPackets as = [] := by
  obtain ⟨hall, hkept⟩ := run_written_queue ho hrun hreturned
  rw [destroy_written]
  constructor
  · intro hwritten
    by_contra hne
    have hlen := hwritten.length_eq
    rw [hall.length_eq, List.length_append] at hlen
    have hempty : s.delayer.avPacket = [] := List.length_eq_zero_iff.mp (by omega)
    exact hkept hne hempty
  · intro hnil
    rw [hnil] at hall ⊢
    have hlen := hall.length_eq
    rw [List.length_nil, List.length_append] at hlen
    have hempty : s.delayer.written = [] := List.length_eq_zero_iff.mp (by omega)
    rw [hempty]
    exact List.Forall₂.nil

/-! A stream that ends before the first second is over. -/

def sampleStream : List Action :=
  [.readFrame (samplePacket 0 0 40) (Asr.sampleSdk 0),
    .readFrame (samplePacket 1 0 40) (Asr.sampleSdk 2), .pushPending,
    .readFrame (samplePacket 2 0 40) (Asr.sampleSdk 0)]

theorem tail_lost_sample : ∃ s,
    run 4 (init Delayer.sampleDelayer Asr.sample 1 0) sampleStream = .ok s ∧
    s.delayer.avPacket.length = 2 ∧ ¬ List.Forall₂ Carries
      ((init Delayer.sampleDelayer Asr.sample 1 0).selectedPackets sampleStream)
      s.destroy.delayer.written := by
  have hrun : run 4 (init Delayer.sampleDelayer Asr.sample 1 0) sampleStream = .ok _ := rfl
  have hiff := tail_lost_iff 4 1 (o := Delayer.sampleOutput) rfl Delayer.sampleReplacer "out"
    Asr.sample 1 0 hrun rfl
  refine ⟨_, rfl, rfl, fun h => ?_⟩
  cases hiff.mp h

theorem tail_not_written :
    ¬ ∀ (δ : Decoder) (ω : Resampler) (η : Encoder) (fuel : ℕ) (D : Int) (o : OutputContext)
      (r : Replacer δ η) (url : String) (a : Asr δ ω) (audio video : Int) (as : List Action)
      (s : Relay δ ω η), 0 ≤ D → o.calls = [] →
      run fuel (init (Delayer.new D o r url) a audio video) as = .ok s → s.pending = none →
      List.Forall₂ Carries ((init (Delayer.new D o r url) a audio video).selectedPackets as)
        s.destroy.delayer.written := by
  intro h
  have hall := h pcmDecoder plainResampler pcmEncoder 4 1 Delayer.sampleOutput
    Delayer.sampleReplacer "out" Asr.sample 1 0 sampleStream _ (by decide) rfl rfl rfl
  have hlen := hall.length_eq
  cases hlen

end RtmpRelay.Relay
