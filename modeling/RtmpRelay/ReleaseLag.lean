import RtmpRelay.MuteDeadline

/-!
# The lag of a release

The flush compares the durations of both streams with `deleySec*1000*2`. For
two contiguous streams with end times at most `s` apart the durations behind a
packet are twice what its own stream has advanced past it, up to `2 * s`. A
written packet therefore lies more than `1000 * deleySec - s` behind the end of
its stream and a queued one at most `1000 * deleySec + s`.
-/

namespace RtmpRelay.Delayer

open Machine Machine.Outcome Media DelayLine

variable {δ : Decoder} {η : Encoder} {fuel : ℕ}

theorem Contiguous.of_append {x first : Int} {ps qs : List AVPacket}
    (h : Contiguous x first (ps ++ qs)) : Contiguous x first ps := by
  intro k hk hx
  have hlt : k < (ps ++ qs).length := by
    rw [List.length_append]
    omega
  have hget : (ps ++ qs).get ⟨k, hlt⟩ = ps.get ⟨k, hk⟩ := List.getElem_append_left hk
  have hpts := h k hlt (hget ▸ hx)
  rwa [hget, List.take_append_of_le_length hk.le] at hpts

namespace TwoStreams
variable {s a v a₀ v₀ : Int} {ps qs : List AVPacket}

theorem symm (h : TwoStreams s a v a₀ v₀ ps) : TwoStreams s v a v₀ a₀ ps where
  index_ne := h.index_ne.symm
  index_eq := fun p hp => (h.index_eq p hp).symm
  duration_nonneg := h.duration_nonneg
  audio_pts := h.video_pts
  video_pts := h.audio_pts
  skew := fun k hk hle => by
    have hskew := h.skew k hk hle
    omega

theorem of_append (h : TwoStreams s a v a₀ v₀ (ps ++ qs)) : TwoStreams s a v a₀ v₀ ps where
  index_ne := h.index_ne
  index_eq := fun p hp => h.index_eq p (List.mem_append_left qs hp)
  duration_nonneg := fun p hp => h.duration_nonneg p (List.mem_append_left qs hp)
  audio_pts := h.audio_pts.of_append
  video_pts := h.video_pts.of_append
  skew := fun k hk hle => by
    have hskew := h.skew k hk (by rw [List.length_append]; omega)
    rwa [List.take_append_of_le_length hle] at hskew

theorem skew_nonneg (h : TwoStreams s a v a₀ v₀ ps) (hne : ps ≠ []) : 0 ≤ s := by
  have hskew := h.skew ps.length (List.length_pos_iff.mpr hne) le_rfl
  omega

theorem packetEnd_eq (h : TwoStreams s a v a₀ v₀ ps) {i : ℕ} {p : AVPacket}
    (hp : ps[i]? = some p) (ha : p.streamIndex = a) :
    p.pts + p.duration = endTime a a₀ (ps.take (i + 1)) := by
  rw [endTime_take_succ hp ha, h.pts_eq hp ha]

end TwoStreams

/-- How far the end of stream `x` is past the end of `p`. -/
def lag (x first : Int) (ps : List AVPacket) (p : AVPacket) : Int :=
  endTime x first ps - (p.pts + p.duration)

theorem lag_concat_le {x first : Int} {ps : List AVPacket} {w : AVPacket} (hw : 0 ≤ w.duration)
    (p : AVPacket) : lag x first (ps ++ [w]) p ≤ lag x first ps p + w.duration := by
  have hlast : (durations (ofStream x [w])).sum ≤ w.duration := by
    by_cases hx : w.streamIndex = x
    · simp [ofStream, durations, hx]
    · simpa [ofStream, durations, hx] using hw
  rw [lag, lag, endTime_append]
  omega

theorem Scheduled.lag_bounds {s a v a₀ v₀ : Int} {ps : List AVPacket} {d : Delayer δ η}
    (hsch : Scheduled ps d) (h : TwoStreams s a v a₀ v₀ ps) {i : ℕ} {p : AVPacket}
    (hp : ps[i]? = some p) (ha : p.streamIndex = a) :
    (i < d.written.length → 1000 * d.deleySec - s < lag a a₀ ps p) ∧
      (d.written.length ≤ i → lag a a₀ ps p ≤ 1000 * d.deleySec + s) := by
  have hi : i < ps.length := (List.getElem?_eq_some_iff.mp hp).1
  have hbehind := h.sum_between (j := i + 1) (Nat.succ_pos i) hi le_rfl
  rw [List.take_length, ← h.packetEnd_eq hp ha] at hbehind
  have hreleased := lt_releaseCount_iff (T := 2000 * d.deleySec)
    (durations_nonneg h.duration_nonneg) i
  rw [← hsch.count_eq, ← durations_drop] at hreleased
  have hlen : i < (durations ps).length := by
    simpa [durations] using hi
  rw [lag]
  constructor
  · intro hwritten
    have hover := (hreleased.mp hwritten).2
    omega
  · intro hqueued
    have hunder : ¬ 2000 * d.deleySec < (durations (ps.drop (i + 1))).sum :=
      fun hover => absurd (hreleased.mpr ⟨hlen, hover⟩) (not_lt.mpr hqueued)
    omega

/-- At every push a packet is written only when its stream has come more than
`1000 * D - s` past it, and it was still queued before that push only while its
stream had come at most `1000 * D + s` past it. -/
theorem release_lag (fuel : ℕ) {D s a v a₀ v₀ : Int} (hD : 0 ≤ D) {o : OutputContext}
    (ho : o.calls = []) (r : Replacer δ η) (url : String) {ops : List Op} {op : Op}
    {w : AVPacket} {d d' : Delayer δ η} (hrun : run fuel (new D o r url) ops = .ok d)
    (hop : op.pushed = some w) (hpush : step fuel d op = .ok d')
    (hfit : ∀ t ∈ d'.totals, t ≤ intMax)
    (hstreams : TwoStreams s a v a₀ v₀ (pushes ops ++ [w])) :
    ∀ x first, (x = a ∧ first = a₀) ∨ (x = v ∧ first = v₀) →
      ∀ (i : ℕ) (p : AVPacket), (pushes ops ++ [w])[i]? = some p → p.streamIndex = x →
        (i < d'.written.length → 1000 * D - s < lag x first (pushes ops ++ [w]) p) ∧
        (d.written.length ≤ i → i < (pushes ops).length →
          lag x first (pushes ops) p ≤ 1000 * D + s) ∧
        (d.written.length ≤ i →
          lag x first (pushes ops ++ [w]) p ≤ 1000 * D + s + w.duration) := by
  intro x first hx i p hp hpx
  have hboth : TwoStreams s x (if x = a then v else a) first (if x = a then v₀ else a₀)
      (pushes ops ++ [w]) := by
    rcases hx with ⟨rfl, rfl⟩ | ⟨rfl, rfl⟩
    · simpa using hstreams
    · simpa [hstreams.index_ne.symm] using hstreams.symm
  have hrun' : run fuel (new D o r url) (ops ++ [op]) = .ok d' :=
    run_concat_ok.mpr ⟨d, hrun, hpush⟩
  have hnonneg := hboth.duration_nonneg
  have hw : 0 ≤ w.duration := hnonneg w (List.mem_append_right _ (List.mem_singleton_self w))
  rw [← pushes_concat hop] at hnonneg hboth hp ⊢
  have hafter : Scheduled (pushes (ops ++ [op])) d' := run_scheduled hD ho hrun' hnonneg hfit
  have hdelay : d'.deleySec = D := (run_fixed hrun').1
  rw [pushes_concat hop] at hafter hboth hp hnonneg ⊢
  have hbefore : Scheduled (pushes ops) d := by
    apply run_scheduled hD ho hrun (fun q hq => hnonneg q (List.mem_append_left _ hq))
    intro t ht
    rcases step_ok hpush with ⟨q, _, _, hpushed⟩ | ⟨start, stop, qs, r', rfl, _, _⟩
    · exact hfit t (hpushed.totals_sub (List.mem_append_left _ ht))
    · cases hop
  have hdelay' : d.deleySec = D := (run_fixed hrun).1
  have hqueued : d.written.length ≤ i → i < (pushes ops).length →
      lag x first (pushes ops) p ≤ 1000 * D + s := by
    intro hle hlt
    have hp' : (pushes ops)[i]? = some p := by
      rwa [List.getElem?_append_left hlt] at hp
    rw [← hdelay']
    exact (hbefore.lag_bounds hboth.of_append hp' hpx).2 hle
  refine ⟨?_, hqueued, ?_⟩
  · rw [← hdelay]
    exact (hafter.lag_bounds hboth hp hpx).1
  · intro hle
    by_cases hlt : i < (pushes ops).length
    · have hold := hqueued hle hlt
      have hgrow : lag x first (pushes ops ++ [w]) p ≤ lag x first (pushes ops) p + w.duration :=
        lag_concat_le hw p
      omega
    · have hlen := (List.getElem?_eq_some_iff.mp hp).1
      rw [List.length_append, List.length_singleton] at hlen
      -- the packet pushed last ends where its stream ends
      have hzero : lag x first (pushes ops ++ [w]) p = 0 := by
        have hend := hboth.packetEnd_eq hp hpx
        rw [List.take_of_length_le (by rw [List.length_append, List.length_singleton]; omega)]
          at hend
        rw [lag, hend]
        omega
      have hs := hboth.skew_nonneg (by simp)
      omega

theorem release_lag_sample :
    ∃ d d' : Delayer pcmDecoder pcmEncoder,
      run 4 sampleDelayer (sampleEarly ++ sampleLate.dropLast) = ok d ∧
      step 4 d (.pushAudioFrame (samplePacket 1 800 200)) = ok d' ∧
      d.written.length = 0 ∧ d'.written.length = 1 ∧
      400 < lag 1 0 (pushes (sampleEarly ++ sampleLate)) (samplePacket 1 0 100).val := by
  have hrun : run 4 sampleDelayer (sampleEarly ++ sampleLate.dropLast) = ok _ := rfl
  have hpush : step 4 (run 4 sampleDelayer (sampleEarly ++ sampleLate.dropLast)).state
    (.pushAudioFrame (samplePacket 1 800 200)) = ok _ := rfl
  have hlag := release_lag 4 (D := 1) (by decide) (o := sampleOutput) rfl sampleReplacer "out"
    hrun rfl hpush (by decide) sampleStreams 1 0 (Or.inl ⟨rfl, rfl⟩) 0 _ rfl rfl
  exact ⟨_, _, hrun, hpush, rfl, rfl, hlag.1 (by decide)⟩

end RtmpRelay.Delayer
