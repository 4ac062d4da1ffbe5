import RtmpRelay.ReleaseSchedule

/-!
# The mute deadline

One audio and one video stream, each contiguous, interleaved in any order with
a bounded skew between their end times. The packets that follow an audio packet
in the push order then carry at most twice the audio that follows it plus twice
the skew, so a packet less than `1000 * deleySec` less the skew behind the end
of the audio is still queued. A mute that comes this early misses no packet
meeting its interval.
-/

namespace RtmpRelay.Delayer

open Machine Machine.Outcome Media DelayLine

variable {δ : Decoder} {η : Encoder} {fuel : ℕ}

def ofStream (x : Int) (ps : List AVPacket) : List AVPacket :=
  ps.filter fun p => p.streamIndex = x

/-- The end time of stream `x`, whose first time stamp is `first`. -/
def endTime (x first : Int) (ps : List AVPacket) : Int :=
  first + (durations (ofStream x ps)).sum

def Contiguous (x first : Int) (ps : List AVPacket) : Prop :=
  ∀ k (hk : k < ps.length), (ps.get ⟨k, hk⟩).streamIndex = x →
    (ps.get ⟨k, hk⟩).pts = endTime x first (ps.take k)

instance (x first : Int) (ps : List AVPacket) : Decidable (Contiguous x first ps) :=
  inferInstanceAs (Decidable (∀ k (_ : k < ps.length), _))

structure TwoStreams (s a v a₀ v₀ : Int) (ps : List AVPacket) : Prop where
  index_ne : a ≠ v
  index_eq : ∀ p ∈ ps, p.streamIndex = a ∨ p.streamIndex = v
  duration_nonneg : ∀ p ∈ ps, 0 ≤ p.duration
  audio_pts : Contiguous a a₀ ps
  video_pts : Contiguous v v₀ ps
  skew : ∀ k, 0 < k → k ≤ ps.length →
    -s ≤ endTime a a₀ (ps.take k) - endTime v v₀ (ps.take k) ∧
      endTime a a₀ (ps.take k) - endTime v v₀ (ps.take k) ≤ s

theorem endTime_append (x first : Int) (ps qs : List AVPacket) :
    endTime x first (ps ++ qs) = endTime x first ps + (durations (ofStream x qs)).sum := by
  unfold endTime ofStream
  rw [List.filter_append, durations_append, List.sum_append]
  omega

theorem endTime_take_succ {x first : Int} {ps : List AVPacket} {k : ℕ} {p : AVPacket}
    (hp : ps[k]? = some p) (hx : p.streamIndex = x) :
    endTime x first (ps.take (k + 1)) = endTime x first (ps.take k) + p.duration := by
  rw [List.take_add_one, hp, endTime_append]
  simp [ofStream, durations, hx]

theorem ofStream_sum_nonneg {ps : List AVPacket} (h : ∀ p ∈ ps, 0 ≤ p.duration) (x : Int) :
    0 ≤ (durations (ofStream x ps)).sum :=
  List.sum_nonneg (durations_nonneg fun p hp => h p (List.mem_of_mem_filter hp))

theorem endTime_mono {ps : List AVPacket} (h : ∀ p ∈ ps, 0 ≤ p.duration) (x first : Int)
    {j k : ℕ} (hjk : j ≤ k) : endTime x first (ps.take j) ≤ endTime x first (ps.take k) := by
  have hsplit : ps.take k = ps.take j ++ (ps.drop j).take (k - j) := by
    rw [← List.take_add]
    congr 1
    omega
  have hnonneg : ∀ p ∈ (ps.drop j).take (k - j), 0 ≤ p.duration :=
    fun p hp => h p (List.mem_of_mem_drop (List.mem_of_mem_take hp))
  have hrest := ofStream_sum_nonneg hnonneg x
  rw [hsplit, endTime_append]
  omega

theorem durations_sum_eq {a v : Int} (hav : a ≠ v) {ps : List AVPacket}
    (h : ∀ p ∈ ps, p.streamIndex = a ∨ p.streamIndex = v) :
    (durations ps).sum = (durations (ofStream a ps)).sum + (durations (ofStream v ps)).sum := by
  induction ps with
  | nil => rfl
  | cons p ps ih =>
    have hrest := ih fun q hq => h q (List.mem_cons_of_mem p hq)
    have hcons : (durations (p :: ps)).sum = p.duration + (durations ps).sum := List.sum_cons
    rcases h p List.mem_cons_self with hp | hp
    · have hv : p.streamIndex ≠ v := hp ▸ hav
      have ha : ofStream a (p :: ps) = p :: ofStream a ps := by simp [ofStream, hp]
      have hv' : ofStream v (p :: ps) = ofStream v ps := by simp [ofStream, hv]
      rw [hcons, hrest, ha, hv']
      simp only [durations, List.map_cons, List.sum_cons]
      omega
    · have ha : p.streamIndex ≠ a := hp ▸ hav.symm
      have hv : ofStream v (p :: ps) = p :: ofStream v ps := by simp [ofStream, hp]
      have ha' : ofStream a (p :: ps) = ofStream a ps := by simp [ofStream, ha]
      rw [hcons, hrest, hv, ha']
      simp only [durations, List.map_cons, List.sum_cons]
      omega

namespace TwoStreams
variable {s a v a₀ v₀ : Int} {ps : List AVPacket}

theorem pts_eq (h : TwoStreams s a v a₀ v₀ ps) {k : ℕ} {p : AVPacket} (hp : ps[k]? = some p)
    (hx : p.streamIndex = a) : p.pts = endTime a a₀ (ps.take k) := by
  obtain ⟨hk, rfl⟩ := List.getElem?_eq_some_iff.mp hp
  exact h.audio_pts k hk hx

theorem sum_between (h : TwoStreams s a v a₀ v₀ ps) {j n : ℕ} (hj : 0 < j)
    (hjn : j ≤ n) (hn : n ≤ ps.length) :
    2 * (endTime a a₀ (ps.take n) - endTime a a₀ (ps.take j)) - 2 * s ≤
        (durations ((ps.take n).drop j)).sum ∧
      (durations ((ps.take n).drop j)).sum ≤
        2 * (endTime a a₀ (ps.take n) - endTime a a₀ (ps.take j)) + 2 * s := by
  have hsplit : ps.take n = ps.take j ++ (ps.take n).drop j := by
    conv_lhs => rw [← List.take_append_drop j (ps.take n)]
    rw [List.take_take, Nat.min_eq_left hjn]
  have hindex : ∀ p ∈ (ps.take n).drop j, p.streamIndex = a ∨ p.streamIndex = v :=
    fun p hp => h.index_eq p (List.mem_of_mem_take (List.mem_of_mem_drop hp))
  have hsum := durations_sum_eq h.index_ne hindex
  have haudio := congrArg (endTime a a₀) hsplit
  have hvideo := congrArg (endTime v v₀) hsplit
  rw [endTime_append] at haudio hvideo
  have hfirst := h.skew j hj (hjn.trans hn)
  have hlast := h.skew n (hj.trans_le hjn) hn
  constructor
  · omega
  · omega

end TwoStreams

def Meets (start stop : Int) (p : AVPacket) : Prop :=
  ∃ t, p.pts ≤ t ∧ t < p.pts + p.duration ∧ start ≤ t ∧ t ≤ stop

theorem meets_inWindow {a start stop : Int} {p : AVPacket} (hmeets : Meets start stop p)
    (hp : p.streamIndex = a) (hdur : p.duration ≤ 200) : InWindow a start stop p := by
  obtain ⟨t, hlo, hhi, hstart, hstop⟩ := hmeets
  exact ⟨hp, by omega, by omega⟩

theorem meets_lt {s a v a₀ v₀ start stop : Int} {ps : List AVPacket}
    (h : TwoStreams s a v a₀ v₀ ps) {n : ℕ} (hstop : stop < endTime a a₀ (ps.take n)) {i : ℕ}
    {p : AVPacket} (hp : ps[i]? = some p) (ha : p.streamIndex = a)
    (hmeets : Meets start stop p) : i < n := by
  by_contra hge
  obtain ⟨t, hlo, _, _, hle⟩ := hmeets
  have hmono := endTime_mono h.duration_nonneg a a₀ (not_lt.mp hge)
  have hpts := h.pts_eq hp ha
  omega

theorem meets_queued {s a v a₀ v₀ start stop : Int} {ps : List AVPacket}
    (h : TwoStreams s a v a₀ v₀ ps) {n : ℕ} (hn : n ≤ ps.length) {d : Delayer δ η}
    (hsch : Scheduled (ps.take n) d)
    (hstart : endTime a a₀ (ps.take n) ≤ start - 200 + 1000 * d.deleySec - s) {i : ℕ}
    (hi : i < n) {p : AVPacket} (hp : ps[i]? = some p) (ha : p.streamIndex = a)
    (hmeets : Meets start stop p) : d.written.length ≤ i := by
  have hnonneg : ∀ w ∈ durations (ps.take n), 0 ≤ w :=
    durations_nonneg fun q hq => h.duration_nonneg q (List.mem_of_mem_take hq)
  rw [hsch.count_eq]
  by_contra hlt
  have hreleased := ((lt_releaseCount_iff hnonneg i).mp (not_le.mp hlt)).2
  rw [← durations_drop] at hreleased
  have hbehind := (h.sum_between (j := i + 1) (Nat.succ_pos i) hi hn).2
  rw [endTime_take_succ hp ha, ← h.pts_eq hp ha] at hbehind
  obtain ⟨t, _, hhi, hlo, _⟩ := hmeets
  omega

/-- A mute that comes after the end of its interval and before the deadline
covers every audio packet meeting the interval, whatever is called afterwards. -/
theorem mute_before_deadline (fuel : ℕ) {D s v a₀ v₀ : Int} (hD : 0 ≤ D) {o : OutputContext}
    (ho : o.calls = []) (r : Replacer δ η) (url : String) {pre post : List Op}
    {start stop : Int} {m m' : Delayer δ η}
    (hpre : run fuel (new D o r url) pre = .ok m)
    (hmute : m.replaceAudioPacket fuel start stop = .ok m')
    (hsucc : Succeeds fuel m start stop) (hfit : ∀ t ∈ m.totals, t ≤ intMax)
    (hstreams : TwoStreams s r.getAudioIndex v a₀ v₀ (pushes pre ++ pushes post))
    (hdur : ∀ p ∈ pushes pre ++ pushes post,
      p.streamIndex = r.getAudioIndex → p.duration ≤ 200)
    (hstop : stop < endTime r.getAudioIndex a₀ (pushes pre))
    (hstart : endTime r.getAudioIndex a₀ (pushes pre) ≤ start - 200 + 1000 * D - s) :
    ∀ (i : ℕ) (p : AVPacket), (pushes pre ++ pushes post)[i]? = some p →
      p.streamIndex = r.getAudioIndex → Meets start stop p →
        m.written.length ≤ i ∧ i < (pushes pre).length ∧
        InWindow r.getAudioIndex start stop p ∧
        ∀ q, (run fuel (new D o r url)
            (pre ++ .replaceAudioPacket start stop :: post)).state.written[i]? = some q →
          q.data.isMuted = true := by
  intro i p hp ha hmeets
  have htake : (pushes pre ++ pushes post).take (pushes pre).length = pushes pre := List.take_left
  have hin : InWindow r.getAudioIndex start stop p :=
    meets_inWindow hmeets ha (hdur p (List.mem_of_getElem? hp) ha)
  have hi : i < (pushes pre).length := by
    apply meets_lt hstreams _ hp ha hmeets
    rwa [htake]
  have hsch : Scheduled (pushes pre) m :=
    run_scheduled hD ho hpre
      (fun q hq => hstreams.duration_nonneg q (List.mem_append_left _ hq)) hfit
  obtain ⟨hdelay, hkeep, _⟩ := run_fixed hpre
  have hindex : m.replacer.getAudioIndex = r.getAudioIndex := hkeep
  have hqueued : m.written.length ≤ i := by
    apply meets_queued hstreams (n := (pushes pre).length) _ _ _ hi hp ha hmeets
    · rw [List.length_append]
      omega
    · rwa [htake]
    · rw [htake, hdelay]
      exact hstart
  refine ⟨hqueued, hi, hin, ?_⟩
  -- the mute sets the flag of this packet, and no later call takes it back
  obtain ⟨qs, r', hloop, rfl⟩ := replaceAudioPacket_ok hmute
  have hp' : (pushes pre)[i]? = some p := by
    rwa [List.getElem?_append_left hi] at hp
  rw [← hindex] at hin
  have hset := (mutesAt_iff hloop hsucc hsch.tracks hp').mpr ⟨hqueued, hin⟩
  have hmuted : MutedAt i { m with avPacket := qs.map Prod.fst, replacer := r' } :=
    (replace_mutedAt hloop i).mpr (Or.inr hset)
  have hrun : run fuel (new D o r url) (pre ++ .replaceAudioPacket start stop :: post) =
      run fuel { m with avPacket := qs.map Prod.fst, replacer := r' } post := by
    rw [run, run_append, ← run, hpre, bind_ok, run_cons, step, hmute]
    rfl
  intro q hq
  rw [hrun] at hq
  obtain ⟨q', hq', hq'm⟩ := run_state_mutedAt hmuted post
  cases (written_getElem? hq).symm.trans hq'
  exact hq'm

/-! Two audio packets of 100 ms with a video packet between them, a mute of
the first one, and video until it is written. -/

def sampleEarly : List Op :=
  [.pushAudioFrame (samplePacket 1 0 100), .pushVideoFrame (samplePacket 0 0 200),
    .pushAudioFrame (samplePacket 1 100 100)]

def sampleLate : List Op :=
  [.pushVideoFrame (samplePacket 0 200 500), .pushAudioFrame (samplePacket 1 200 200),
    .pushAudioFrame (samplePacket 1 400 200), .pushVideoFrame (samplePacket 0 700 500),
    .pushAudioFrame (samplePacket 1 600 200), .pushAudioFrame (samplePacket 1 800 200)]

theorem sampleStreams : TwoStreams 600 1 0 0 0 (pushes sampleEarly ++ pushes sampleLate) where
  index_ne := by decide
  index_eq := by decide
  duration_nonneg := by decide
  audio_pts := by decide
  video_pts := by decide
  skew := fun k _ hk => (by decide : ∀ k ≤ 9,
    -600 ≤ endTime 1 0 ((pushes sampleEarly ++ pushes sampleLate).take k) -
        endTime 0 0 ((pushes sampleEarly ++ pushes sampleLate).take k) ∧
      endTime 1 0 ((pushes sampleEarly ++ pushes sampleLate).take k) -
        endTime 0 0 ((pushes sampleEarly ++ pushes sampleLate).take k) ≤ 600) k hk

theorem mute_before_deadline_sample :
    ∃ q, (run 4 sampleDelayer
        (sampleEarly ++ .replaceAudioPacket 50 90 :: sampleLate)).state.written[0]? = some q ∧
      q.data.isMuted = true := by
  have hpre : run 4 sampleDelayer sampleEarly = ok (run 4 sampleDelayer sampleEarly).state := rfl
  have hmute : (run 4 sampleDelayer sampleEarly).state.replaceAudioPacket 4 50 90 = ok _ := rfl
  have hall := mute_before_deadline 4 (D := 1) (by decide) (o := sampleOutput) rfl sampleReplacer
    "out" hpre hmute (by decide) (by decide) sampleStreams (by decide) (by decide) (by decide)
    0 _ rfl rfl ⟨50, by decide⟩
  exact ⟨_, rfl, hall.2.2.2 _ rfl⟩

end RtmpRelay.Delayer
