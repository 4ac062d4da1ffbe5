import RtmpRelay.Asr
import Mathlib.Algebra.Order.Round
import Mathlib.Data.Rat.Floor
import Mathlib.Tactic.FieldSimp
import Mathlib.Tactic.Linarith
import Mathlib.Tactic.NormNum

/-!
# The room given to the resampler

The resampler is a queue with an exact rational rate. Its delay is an integer,
so the rounding is a parameter that stays between the floor and the ceiling.
`pcmResample` computes the capacity from the rates in `m_pr_ctx`. These are
16000 from `pcmResampleInit` on, whatever rate the queue runs from, so the
capacity is one output sample for each input sample, and the rounded delay.
-/

namespace RtmpRelay

open Machine Media

structure SwrQueue where
  srcRate : Int
  dstRate : Int
  backlog : ℚ
  deriving DecidableEq

namespace SwrQueue

/-- Output samples for one input sample. -/
def ratio (c : SwrQueue) : ℚ := c.dstRate / c.srcRate

def available (c : SwrQueue) (n : Int) : ℚ := (c.backlog + n) * c.ratio

def emitted (c : SwrQueue) (capacity n : Int) : Int := min capacity ⌊c.available n⌋

def convert (c : SwrQueue) (capacity n : Int) : SwrQueue :=
  { c with backlog := c.backlog + n - c.emitted capacity n / c.ratio }

/-- The backlog in output samples. -/
def held (c : SwrQueue) : ℚ := c.backlog * c.ratio

theorem available_eq (c : SwrQueue) (n : Int) : c.available n = c.held + n * c.ratio := by
  simp only [available, held]
  ring

@[simp] theorem convert_ratio (c : SwrQueue) (capacity n : Int) :
    (c.convert capacity n).ratio = c.ratio := rfl

theorem convert_held {c : SwrQueue} (hc : c.ratio ≠ 0) (capacity n : Int) :
    (c.convert capacity n).held = c.available n - c.emitted capacity n := by
  simp only [held, convert_ratio, available]
  change (c.backlog + n - c.emitted capacity n / c.ratio) * c.ratio = _
  rw [sub_mul, div_mul_cancel₀ _ hc]

theorem convert_fract {c : SwrQueue} (hc : c.ratio ≠ 0) {capacity n : Int}
    (hroom : ⌊c.available n⌋ ≤ capacity) :
    (c.convert capacity n).held = Int.fract (c.available n) := by
  rw [convert_held hc, emitted, min_eq_right hroom, Int.self_sub_floor]

end SwrQueue

def swrQueue (rnd : ℚ → Int) (bytes : SwrQueue → Int → AVFrame → List UInt8) : Resampler where
  Ctx := SwrQueue
  swrAlloc := { srcRate := 0, dstRate := 0, backlog := 0 }
  swrInit _ src dst := { srcRate := src.sampleRate, dstRate := dst.sampleRate, backlog := 0 }
  swrGetDelay c base := rnd (c.backlog * base / c.srcRate)
  swrConvert c capacity frame :=
    (c.emitted capacity frame.nbSamples, bytes c capacity frame,
      c.convert capacity frame.nbSamples)

-- `av_samples_alloc` of one plane: the number of samples it makes room for
def avSamplesAlloc (nbChannels nbSamples bytesPerSample : Int) : Int :=
  if avSamplesGetBufferSize nbChannels nbSamples bytesPerSample < 0 then 0 else nbSamples

namespace PcmResampleContext
variable {ω : Resampler}

/-- The `nb_samples` of one call of `pcmResample`. -/
def capacity (c : PcmResampleContext ω) (frame : AVFrame) : Int :=
  narrowInt (avRescaleRndUp
    (ω.swrGetDelay c.swrCtx c.src.sampleRate + frame.nbSamples) c.dst.sampleRate c.src.sampleRate)

theorem pcmResample_spec (c : PcmResampleContext ω) (frame : AVFrame) :
    (c.pcmResample frame).2.src = c.src ∧ (c.pcmResample frame).2.dst = c.dst ∧
      (c.pcmResample frame).2.swrCtx = (ω.swrConvert c.swrCtx (c.capacity frame) frame).2.2 ∧
      (c.pcmResample frame).2.maxNbSamples = max (c.capacity frame) c.maxNbSamples := by
  have hcap : narrowInt (avRescaleRndUp (ω.swrGetDelay c.swrCtx c.src.sampleRate + frame.nbSamples)
      c.dst.sampleRate c.src.sampleRate) = c.capacity frame := rfl
  simp only [pcmResample, hcap]
  by_cases hmore : c.capacity frame > c.maxNbSamples
  · rw [if_pos hmore, max_eq_left hmore.le]
    split_ifs
    · exact ⟨rfl, rfl, rfl, rfl⟩
    · exact ⟨rfl, rfl, rfl, rfl⟩
  · rw [if_neg hmore, max_eq_right (not_lt.mp hmore)]
    split_ifs
    · exact ⟨rfl, rfl, rfl, rfl⟩
    · exact ⟨rfl, rfl, rfl, rfl⟩

end PcmResampleContext

/-! The context with the number of samples its buffer has room for. -/

structure Buffered (ω : Resampler) where
  ctx : PcmResampleContext ω
  allocated : Int

namespace Buffered

section
variable {ω : Resampler}

def start (src dst : PcmParams) : Buffered ω where
  ctx := PcmResampleContext.pcmResampleInit.pcmResampleSetParams src dst
  allocated := 0

def resample (s : Buffered ω) (frame : AVFrame) : Buffered ω where
  ctx := (s.ctx.pcmResample frame).2
  allocated :=
    if s.ctx.capacity frame > s.ctx.maxNbSamples then
      avSamplesAlloc s.ctx.dst.nbChannels (s.ctx.capacity frame) s.ctx.dst.bytesPerSample
    else s.allocated

end

variable {rnd : ℚ → Int} {bytes : SwrQueue → Int → AVFrame → List UInt8}

def queue (s : Buffered (swrQueue rnd bytes)) : SwrQueue := s.ctx.swrCtx

theorem resample_queue (s : Buffered (swrQueue rnd bytes)) (frame : AVFrame) :
    (s.resample frame).queue = s.queue.convert (s.ctx.capacity frame) frame.nbSamples :=
  (s.ctx.pcmResample_spec frame).2.2.1

/-- Every whole output sample has room, none is held back, and the buffer is as
large as the capacity says. -/
def Roomy (s : Buffered (swrQueue rnd bytes)) (frame : AVFrame) : Prop :=
  ⌊s.queue.available frame.nbSamples⌋ ≤ s.ctx.capacity frame ∧
    (s.resample frame).queue.held < 1 ∧ s.ctx.capacity frame ≤ (s.resample frame).allocated

/-! The part of an output sample that `N` input samples at rate `r` leave when
every whole one has been taken, and the room for `n` more. -/

def outputRate (r : Int) : ℚ := 16000 / r

def phase (r N : Int) : ℚ := Int.fract (N * outputRate r)

def RoomFor (rnd : ℚ → Int) (r N n : Int) : Prop :=
  phase r N + n * (outputRate r - 1) < 1 + rnd (phase r N) ∧ 2 * (rnd (phase r N) + n) ≤ intMax

/-- The rounding of `swr_get_delay`. -/
def Rounds (rnd : ℚ → Int) : Prop := ∀ x, ⌊x⌋ ≤ rnd x ∧ rnd x ≤ ⌈x⌉

def IsFrame (frame : AVFrame) : Prop := 0 ≤ frame.nbSamples ∧ frame.nbSamples ≤ intMax

theorem outputRate_pos {r : Int} (hr : 0 < r) : 0 < outputRate r := by
  have hr' : (0 : ℚ) < r := by exact_mod_cast hr
  exact div_pos (by norm_num) hr'

theorem phase_nonneg (r N : Int) : 0 ≤ phase r N := Int.fract_nonneg _

theorem phase_lt_one (r N : Int) : phase r N < 1 := Int.fract_lt_one _

theorem phase_add (r N n : Int) :
    Int.fract (phase r N + n * outputRate r) = phase r (N + n) := by
  rw [phase, phase, Int.fract_eq_fract]
  refine ⟨-⌊N * outputRate r⌋, ?_⟩
  have hsplit := Int.self_sub_floor (N * outputRate r)
  push_cast
  linarith

theorem rnd_phase (hrnd : Rounds rnd) (r N : Int) :
    0 ≤ rnd (phase r N) ∧ rnd (phase r N) ≤ 1 := by
  obtain ⟨hlo, hhi⟩ := hrnd (phase r N)
  constructor
  · exact (Int.floor_nonneg.mpr (phase_nonneg r N)).trans hlo
  · refine hhi.trans (Int.ceil_le.mpr ?_)
    exact_mod_cast (phase_lt_one r N).le

def initParams : PcmParams := { nbChannels := 1, sampleRate := 16000, bytesPerSample := 2 }

/-- The context when every call so far had room, after `N` input samples. -/
structure Aligned (r : Int) (s : Buffered (swrQueue rnd bytes)) (N : Int) : Prop where
  src_eq : s.ctx.src = initParams
  dst_eq : s.ctx.dst = initParams
  srcRate_eq : s.queue.srcRate = r
  dstRate_eq : s.queue.dstRate = 16000
  held_eq : s.queue.held = phase r N
  maxNbSamples_nonneg : 0 ≤ s.ctx.maxNbSamples
  maxNbSamples_le : s.ctx.maxNbSamples ≤ s.allocated
  bytes_fit : 2 * s.ctx.maxNbSamples ≤ intMax

section
variable {r N : Int} {s : Buffered (swrQueue rnd bytes)} {frame : AVFrame}

theorem Aligned.ratio_eq (h : Aligned r s N) : s.queue.ratio = outputRate r := by
  rw [SwrQueue.ratio, h.srcRate_eq, h.dstRate_eq, outputRate]
  norm_num

theorem Aligned.ratio_ne_zero (h : Aligned r s N) (hr : 0 < r) : s.queue.ratio ≠ 0 := by
  rw [h.ratio_eq]
  exact (outputRate_pos hr).ne'

theorem Aligned.available_eq (h : Aligned r s N) (n : Int) :
    s.queue.available n = phase r N + n * outputRate r := by
  rw [SwrQueue.available_eq, h.held_eq, h.ratio_eq]

theorem avRescaleRndUp_self (a : Int) : avRescaleRndUp a 16000 16000 = a := by
  rw [avRescaleRndUp]
  omega

theorem Aligned.delay_eq (h : Aligned r s N) :
    (swrQueue rnd bytes).swrGetDelay s.ctx.swrCtx s.ctx.src.sampleRate = rnd (phase r N) := by
  have hheld := h.held_eq
  rw [SwrQueue.held, SwrQueue.ratio, h.dstRate_eq] at hheld
  rw [h.src_eq, ← hheld]
  change rnd (s.queue.backlog * _ / _) = _
  rw [mul_div_assoc]
  rfl

theorem Aligned.capacity_eq (h : Aligned r s N) :
    s.ctx.capacity frame = narrowInt (rnd (phase r N) + frame.nbSamples) := by
  rw [PcmResampleContext.capacity, h.delay_eq, h.src_eq, h.dst_eq]
  exact congrArg narrowInt (avRescaleRndUp_self _)

theorem Aligned.capacity_fits (h : Aligned r s N) (hrnd : Rounds rnd) (hframe : IsFrame frame)
    (hfits : rnd (phase r N) + frame.nbSamples ≤ intMax) :
    s.ctx.capacity frame = rnd (phase r N) + frame.nbSamples := by
  rw [h.capacity_eq]
  apply narrowInt_eq
  have hzero := (rnd_phase hrnd r N).1
  obtain ⟨hn, _⟩ := hframe
  exact ⟨by unfold intMin; omega, hfits⟩

/-- The one value past the largest `int` narrows to the smallest. -/
theorem Aligned.capacity_neg (h : Aligned r s N) (hrnd : Rounds rnd) (hframe : IsFrame frame)
    (hover : intMax < rnd (phase r N) + frame.nbSamples) : s.ctx.capacity frame < 0 := by
  have hone := (rnd_phase hrnd r N).2
  obtain ⟨_, hmax⟩ := hframe
  have hsum : rnd (phase r N) + frame.nbSamples = 2147483648 := by
    unfold intMax at hover hmax
    omega
  rw [h.capacity_eq, hsum]
  decide

theorem Aligned.available_nonneg (h : Aligned r s N) (hr : 0 < r) {n : Int} (hn : 0 ≤ n) :
    0 ≤ s.queue.available n := by
  have hn' : (0 : ℚ) ≤ n := by exact_mod_cast hn
  rw [h.available_eq]
  exact add_nonneg (phase_nonneg r N) (mul_nonneg hn' (outputRate_pos hr).le)

theorem Aligned.floor_le_iff (h : Aligned r s N) (n : Int) :
    ⌊s.queue.available n⌋ ≤ rnd (phase r N) + n ↔
      phase r N + n * (outputRate r - 1) < 1 + rnd (phase r N) := by
  rw [← Int.lt_add_one_iff, Int.floor_lt, h.available_eq]
  push_cast
  constructor
  · intro hlt
    linarith
  · intro hlt
    linarith

theorem bufferSize_neg_iff {n : Int} (hn : 0 < n) :
    avSamplesGetBufferSize 1 n 2 < 0 ↔ intMax < 2 * n := by
  simp only [avSamplesGetBufferSize, AVERROR_EINVAL]
  split_ifs
  · omega
  · omega

theorem le_avSamplesAlloc {n : Int} (hn : 0 < n) :
    n ≤ avSamplesAlloc 1 n 2 ↔ 2 * n ≤ intMax := by
  have hsize := bufferSize_neg_iff hn
  rw [avSamplesAlloc]
  split_ifs with hneg
  · have hover := hsize.mp hneg
    omega
  · have hfits := mt hsize.mpr hneg
    omega

theorem Aligned.le_allocated_iff (h : Aligned r s N) (frame : AVFrame) :
    s.ctx.capacity frame ≤ (s.resample frame).allocated ↔ 2 * s.ctx.capacity frame ≤ intMax := by
  by_cases hmore : s.ctx.capacity frame > s.ctx.maxNbSamples
  · have hzero := h.maxNbSamples_nonneg
    simp only [resample, if_pos hmore, h.dst_eq]
    exact le_avSamplesAlloc (by omega)
  · have hmax := h.maxNbSamples_le
    have hfit := h.bytes_fit
    simp only [resample, if_neg hmore]
    constructor
    · intro _
      omega
    · intro _
      omega

theorem Aligned.roomy_iff (h : Aligned r s N) (hrnd : Rounds rnd) (hr : 0 < r)
    (hframe : IsFrame frame) : Roomy s frame ↔ RoomFor rnd r N frame.nbSamples := by
  have hratio := h.ratio_ne_zero hr
  have hmin := (rnd_phase hrnd r N).1
  constructor
  · intro hroomy
    obtain ⟨hwhole, _, halloc⟩ := hroomy
    have hcap := (Int.floor_nonneg.mpr (h.available_nonneg hr hframe.1)).trans hwhole
    have hfits : rnd (phase r N) + frame.nbSamples ≤ intMax := by
      by_contra hover
      have hneg := h.capacity_neg hrnd hframe (not_le.mp hover)
      omega
    rw [h.le_allocated_iff] at halloc
    rw [h.capacity_fits hrnd hframe hfits] at hwhole halloc
    exact ⟨(h.floor_le_iff _).mp hwhole, halloc⟩
  · intro hroom
    obtain ⟨hphase, hbytes⟩ := hroom
    have hcap := h.capacity_fits hrnd hframe (by obtain ⟨hn, _⟩ := hframe; omega)
    have hwhole : ⌊s.queue.available frame.nbSamples⌋ ≤ s.ctx.capacity frame := by
      rw [hcap]
      exact (h.floor_le_iff _).mpr hphase
    refine ⟨hwhole, ?_, ?_⟩
    · rw [resample_queue, SwrQueue.convert_fract hratio hwhole]
      exact Int.fract_lt_one _
    · rw [h.le_allocated_iff, hcap]
      exact hbytes

theorem Aligned.resample (h : Aligned r s N) (hr : 0 < r) (hroomy : Roomy s frame) :
    Aligned r (s.resample frame) (N + frame.nbSamples) := by
  obtain ⟨hwhole, _, halloc⟩ := hroomy
  obtain ⟨hsrc, hdst, _, hmax⟩ := s.ctx.pcmResample_spec frame
  have hratio := h.ratio_ne_zero hr
  have hbytes := (h.le_allocated_iff frame).mp halloc
  have hle := h.maxNbSamples_le
  have hfit := h.bytes_fit
  refine ⟨hsrc.trans h.src_eq, hdst.trans h.dst_eq, ?_, ?_, ?_, ?_, ?_, ?_⟩
  · rw [resample_queue]
    exact h.srcRate_eq
  · rw [resample_queue]
    exact h.dstRate_eq
  · rw [resample_queue, SwrQueue.convert_fract hratio hwhole, h.available_eq, phase_add]
  · change 0 ≤ (s.ctx.pcmResample frame).2.maxNbSamples
    rw [hmax]
    exact h.maxNbSamples_nonneg.trans (le_max_right _ _)
  · change (s.ctx.pcmResample frame).2.maxNbSamples ≤ _
    rw [hmax]
    by_cases hmore : s.ctx.capacity frame > s.ctx.maxNbSamples
    · rw [max_eq_left hmore.le]
      exact halloc
    · rw [max_eq_right (not_lt.mp hmore), Buffered.resample, if_neg hmore]
      exact hle
  · change 2 * (s.ctx.pcmResample frame).2.maxNbSamples ≤ intMax
    rw [hmax]
    omega

theorem start_aligned (src : PcmParams) {dst : PcmParams} (hdst : dst.sampleRate = 16000) :
    Aligned src.sampleRate (start src dst : Buffered (swrQueue rnd bytes)) 0 := by
  have hzero : 2 * (0 : Int) ≤ intMax := by decide
  refine ⟨rfl, rfl, rfl, hdst, ?_, le_rfl, le_rfl, hzero⟩
  simp [SwrQueue.held, queue, start, PcmResampleContext.pcmResampleSetParams, swrQueue, phase]

end

theorem resample_room_iff (hrnd : Rounds rnd) {src dst : PcmParams} (hr : 0 < src.sampleRate)
    (hdst : dst.sampleRate = 16000) {frames : List AVFrame}
    (hframes : ∀ frame ∈ frames, IsFrame frame) :
    Along Roomy Buffered.resample (start src dst : Buffered (swrQueue rnd bytes)) frames ↔
      Along (fun N frame => RoomFor rnd src.sampleRate N frame.nbSamples)
        (fun N frame => N + frame.nbSamples) 0 frames := by
  have hstart : Aligned src.sampleRate (start src dst : Buffered (swrQueue rnd bytes)) 0 :=
    start_aligned src hdst
  refine along_iff (R := fun s N => Aligned src.sampleRate s N) ?_ ?_ hstart hframes
  · intro s N frame hframe h
    exact h.roomy_iff hrnd hr hframe
  · intro s N frame hframe h hroom
    exact h.resample hr ((h.roomy_iff hrnd hr hframe).mpr hroom)

theorem rounds_round : Rounds round := by
  intro x
  rw [round_eq]
  constructor
  · exact Int.floor_mono (by linarith)
  · rw [← Int.lt_add_one_iff, Int.floor_lt]
    have hceil := Int.le_ceil x
    push_cast
    linarith

/-- A source at 16000 or above always has room. -/
theorem roomFor_of_le (hrnd : Rounds rnd) {r N n : Int} (hr : 16000 ≤ r) (hn : 0 ≤ n)
    (hfits : 2 * (n + 1) ≤ intMax) : RoomFor rnd r N n := by
  have hr' : (16000 : ℚ) ≤ r := by exact_mod_cast hr
  have hn' : (0 : ℚ) ≤ n := by exact_mod_cast hn
  have hrate : outputRate r ≤ 1 := by
    rw [outputRate, div_le_one (by linarith)]
    exact hr'
  obtain ⟨hmin, hmax⟩ := rnd_phase hrnd r N
  have hmin' : (0 : ℚ) ≤ rnd (phase r N) := by exact_mod_cast hmin
  constructor
  · have hlt := phase_lt_one r N
    have hloss : n * (outputRate r - 1) ≤ 0 := mul_nonpos_of_nonneg_of_nonpos hn' (by linarith)
    linarith
  · omega

/-- Below 16000 only short frames can have room. -/
theorem RoomFor.short (hrnd : Rounds rnd) {r N n : Int} (hr : 0 < r) (h : RoomFor rnd r N n) :
    n * (16000 - r) < 2 * r := by
  have hr' : (0 : ℚ) < r := by exact_mod_cast hr
  have hmax : (rnd (phase r N) : ℚ) ≤ 1 := by exact_mod_cast (rnd_phase hrnd r N).2
  have hzero := phase_nonneg r N
  have hgain : n * (outputRate r - 1) < 2 := by linarith [h.1]
  have hscaled : (n * (16000 - r) : ℚ) < 2 * r := by
    calc (n * (16000 - r) : ℚ) = n * (outputRate r - 1) * r := by
          rw [outputRate]
          field_simp
      _ < 2 * r := mul_lt_mul_of_pos_right hgain hr'
  exact_mod_cast hscaled

def sampleFrame : AVFrame := { nbSamples := 1024, data := [] }

def sampleParams (sampleRate : Int) : PcmParams :=
  { nbChannels := 1, sampleRate := sampleRate, bytesPerSample := 2 }

def sampleSource (sampleRate : Int) : Buffered (swrQueue round fun _ _ _ => []) :=
  start (sampleParams sampleRate) initParams

theorem resample_room_sample :
    Along Roomy Buffered.resample (sampleSource 48000) [sampleFrame, sampleFrame] := by
  refine (resample_room_iff rounds_round (by decide) rfl ?_).mpr ?_
  · simp [IsFrame, sampleFrame, intMax]
  · intro pre frame post heq
    have hmem : frame ∈ [sampleFrame, sampleFrame] := by simp [heq]
    have hframe : frame = sampleFrame := by simpa using hmem
    rw [hframe]
    exact roomFor_of_le rounds_round (by decide) (by decide) (by decide)

/-- At 8000 the first frame already leaves half of its output in the queue. -/
theorem resample_holds_back :
    (sampleSource 8000).ctx.capacity sampleFrame = 1024 ∧
      (sampleSource 8000).queue.available sampleFrame.nbSamples = 2048 ∧
      ((sampleSource 8000).resample sampleFrame).queue.held = 1024 ∧
      ¬ Along Roomy Buffered.resample (sampleSource 8000) [sampleFrame] := by
  have haligned : Aligned 8000 (sampleSource 8000) 0 := start_aligned (sampleParams 8000) rfl
  have hphase : phase 8000 0 = 0 := by simp [phase]
  have hrate : outputRate 8000 = 2 := by norm_num [outputRate]
  have hcap : (sampleSource 8000).ctx.capacity sampleFrame = 1024 := by
    rw [haligned.capacity_eq, hphase, round_zero]
    decide
  have havail : (sampleSource 8000).queue.available sampleFrame.nbSamples = 2048 := by
    rw [haligned.available_eq, hphase, hrate]
    norm_num [sampleFrame]
  have hratio := haligned.ratio_ne_zero (by decide)
  refine ⟨hcap, havail, ?_, ?_⟩
  · rw [resample_queue, SwrQueue.convert_held hratio, SwrQueue.emitted, hcap, havail]
    norm_num
  · intro hroom
    have hwhole := (hroom [] sampleFrame [] rfl).1
    rw [List.foldl_nil, hcap, havail] at hwhole
    norm_num at hwhole

end Buffered

end RtmpRelay
