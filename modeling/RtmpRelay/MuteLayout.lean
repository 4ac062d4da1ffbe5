import RtmpRelay.CodecLoops

/-!
# The zeroing loop and the layout of a frame

A planar frame has one plane of samples for each channel, a packed frame a
single plane with the channels interleaved, and the array `data` of a frame
holds eight pointers. The loop takes the plane by the channel and the offset by
the sample alone, which is right for planar frames of up to eight channels and
for packed ones of at most one.
-/

namespace RtmpRelay

open Machine Media

inductive AVSampleFormat
  | u8 | s16 | s32 | flt | dbl | s64
  | u8p | s16p | s32p | fltp | dblp | s64p
  deriving DecidableEq, Repr

namespace AVSampleFormat

def avGetBytesPerSample : AVSampleFormat → ℕ
  | u8 | u8p => 1
  | s16 | s16p => 2
  | s32 | s32p | flt | fltp => 4
  | dbl | dblp | s64 | s64p => 8

def isPlanar : AVSampleFormat → Bool
  | u8p | s16p | s32p | fltp | dblp | s64p => true
  | _ => false

def planeSizes (fmt : AVSampleFormat) (channels nbSamples : ℕ) : List ℕ :=
  if fmt.isPlanar then List.replicate channels (nbSamples * fmt.avGetBytesPerSample)
  else [nbSamples * channels * fmt.avGetBytesPerSample]

end AVSampleFormat

abbrev Planes := List (Option (List UInt8))

def numDataPointers : ℕ := 8

-- Planes beyond the array are reached through `extended_data` only.
def dataPointers (planes : List (List UInt8)) : Planes :=
  (planes.take numDataPointers).map some ++ List.replicate (numDataPointers - planes.length) none

structure LaidOut (fmt : AVSampleFormat) (channels : ℕ) (frame : AVFrame) : Prop where
  nbSamples_nonneg : 0 ≤ frame.nbSamples
  planes : ∃ planes : List (List UInt8), frame.data = dataPointers planes ∧
    planes.map List.length = fmt.planeSizes channels frame.nbSamples.toNat

def Silent (frame : AVFrame) : Prop := ∀ plane, some plane ∈ frame.data → ∀ b ∈ plane, b = 0

/-- `frame'` is `frame` with every byte of every plane zero. -/
structure Silenced (frame frame' : AVFrame) : Prop where
  nbSamples_eq : frame'.nbSamples = frame.nbSamples
  shape_eq : frame'.data.map (Option.map List.length) = frame.data.map (Option.map List.length)
  silent : Silent frame'

def LayoutCovered (fmt : AVSampleFormat) (channels : ℕ) (frame : AVFrame) : Prop :=
  frame.nbSamples = 0 ∨ (fmt.isPlanar = true ∧ channels ≤ numDataPointers) ∨
    (fmt.isPlanar = false ∧ channels ≤ 1)

def Present (planes : Planes) (ch : ℕ) : Prop := ∃ plane, planes[ch]? = some (some plane)

namespace Replacer
variable {planes planes' : Planes}

/-! A write that goes through. -/

theorem memsetZero_present {ch offset len : ℕ}
    (h : memsetZero planes ch offset len = some planes') :
    Present planes ch ∧ ∀ c, Present planes' c ↔ Present planes c := by
  simp only [memsetZero] at h
  split at h
  · next plane hplane =>
    split_ifs at h
    cases h
    refine ⟨⟨plane, hplane⟩, fun c => ?_⟩
    unfold Present
    rw [List.getElem?_set]
    split_ifs with hc hlt
    · subst hc
      simp [hplane]
    · subst hc
      have hlen := (List.getElem?_eq_some_iff.mp hplane).1
      exact absurd hlen hlt
    · exact Iff.rfl
  · cases h

theorem channels_present {offset len : ℕ} {chs : List ℕ}
    (h : chs.foldlM (fun planes ch => memsetZero planes ch offset len) planes = some planes') :
    ∀ ch ∈ chs, Present planes ch := by
  induction chs generalizing planes with
  | nil => simp
  | cons ch chs ih =>
    rw [List.foldlM_cons] at h
    obtain ⟨mid, hmid, hrest⟩ := Option.bind_eq_some_iff.mp h
    obtain ⟨hch, hkeep⟩ := memsetZero_present hmid
    intro c hc
    rcases List.mem_cons.mp hc with rfl | hc
    · exact hch
    · exact (hkeep c).mp (ih hrest c hc)

theorem zeroSamples_present {channels dataSize : ℕ} {frame frame' : AVFrame}
    (h : zeroSamples channels dataSize frame = some frame') (hpos : 0 < frame.nbSamples) :
    ∀ ch < channels, Present frame.data ch := by
  obtain ⟨planes, hplanes, -⟩ := Option.map_eq_some_iff.mp h
  obtain ⟨n, hn⟩ : ∃ n, frame.nbSamples.toNat = n + 1 := ⟨frame.nbSamples.toNat - 1, by omega⟩
  rw [hn, List.range_succ_eq_map, List.foldlM_cons] at hplanes
  obtain ⟨mid, hmid, -⟩ := Option.bind_eq_some_iff.mp hplanes
  intro ch hch
  exact channels_present hmid ch (List.mem_range.mpr hch)

/-! What the loop leaves, channel by channel and sample by sample. -/

/-- Plane `ch` with its first `k ch` bytes zeroed. -/
def zeroTo (k : ℕ → ℕ) (planes : Planes) : Planes :=
  planes.mapIdx fun ch p => p.map fun plane => List.replicate (k ch) 0 ++ plane.drop (k ch)

theorem zeroTo_zero (planes : Planes) : zeroTo (fun _ => 0) planes = planes := by
  rw [zeroTo, List.mapIdx_eq_iff]
  intro ch
  simp

theorem zeroTo_getElem? {k : ℕ → ℕ} {ch : ℕ} {plane : List UInt8}
    (h : planes[ch]? = some (some plane)) :
    (zeroTo k planes)[ch]? = some (some (List.replicate (k ch) 0 ++ plane.drop (k ch))) := by
  simp [zeroTo, h]

theorem zero_window (plane : List UInt8) (k len : ℕ) :
    (List.replicate k 0 ++ plane.drop k).take k ++ List.replicate len 0 ++
        (List.replicate k 0 ++ plane.drop k).drop (k + len) =
      List.replicate (k + len) 0 ++ plane.drop (k + len) := by
  rw [List.take_left' (List.length_replicate), List.drop_append, List.length_replicate,
    Nat.add_sub_cancel_left, List.drop_drop, List.drop_eq_nil_of_le (by simp),
    List.replicate_add, List.nil_append]

theorem memsetZero_zeroTo {k : ℕ → ℕ} {ch offset len : ℕ} {plane : List UInt8}
    (hk : k ch = offset) (h : planes[ch]? = some (some plane))
    (hle : offset + len ≤ plane.length) :
    memsetZero (zeroTo k planes) ch offset len =
      some (zeroTo (Function.update k ch (offset + len)) planes) := by
  have hat := zeroTo_getElem? (k := k) h
  rw [hk] at hat
  have hfit : offset + len ≤ (List.replicate offset (0 : UInt8) ++ plane.drop offset).length := by
    simp
    omega
  simp only [memsetZero, hat]
  rw [if_pos hfit]
  congr 1
  apply List.ext_getElem?
  intro c
  rw [List.getElem?_set]
  split_ifs with hc hlt
  · subst hc
    rw [zeroTo_getElem? h, Function.update_self, zero_window]
  · subst hc
    exact absurd (List.getElem?_eq_some_iff.mp hat).1 hlt
  · simp [zeroTo, Function.update_of_ne (Ne.symm hc)]

theorem channels_zeroTo {k : ℕ → ℕ} {offset len channels : ℕ}
    (hk : ∀ ch < channels, k ch = offset)
    (h : ∀ ch < channels, ∃ plane, planes[ch]? = some (some plane) ∧
      offset + len ≤ plane.length) :
    (List.range channels).foldlM (fun planes ch => memsetZero planes ch offset len)
        (zeroTo k planes) =
      some (zeroTo (fun ch => if ch < channels then offset + len else k ch) planes) := by
  induction channels with
  | zero => simp
  | succ c ih =>
    obtain ⟨plane, hplane, hle⟩ := h c (Nat.lt_succ_self c)
    have hprev := ih (fun ch hch => hk ch (Nat.lt_succ_of_lt hch))
      (fun ch hch => h ch (Nat.lt_succ_of_lt hch))
    have hc : (fun ch => if ch < c then offset + len else k ch) c = offset := by
      simp [hk c (Nat.lt_succ_self c)]
    have hwrite := memsetZero_zeroTo (k := fun ch => if ch < c then offset + len else k ch) hc
      hplane hle
    rw [List.range_succ, List.foldlM_append, hprev, Option.bind_eq_bind, Option.bind_some,
      List.foldlM_cons, hwrite]
    change some _ = some _
    congr 2
    funext ch
    rcases lt_trichotomy ch c with hlt | rfl | hgt
    · rw [Function.update_of_ne hlt.ne, if_pos hlt, if_pos (Nat.lt_succ_of_lt hlt)]
    · rw [Function.update_self, if_pos (Nat.lt_succ_self ch)]
    · rw [Function.update_of_ne hgt.ne', if_neg (by omega), if_neg (by omega)]

theorem samples_zeroTo {dataSize channels n : ℕ}
    (h : ∀ ch < channels, ∃ plane, planes[ch]? = some (some plane) ∧
      dataSize * n ≤ plane.length) :
    (List.range n).foldlM (fun planes i => (List.range channels).foldlM
        (fun planes ch => memsetZero planes ch (dataSize * i) dataSize) planes) planes =
      some (zeroTo (fun ch => if ch < channels then dataSize * n else 0) planes) := by
  induction n with
  | zero => simp [zeroTo_zero]
  | succ n ih =>
    have hprev := ih fun ch hch => by
      obtain ⟨plane, hplane, hle⟩ := h ch hch
      exact ⟨plane, hplane, (Nat.mul_le_mul_left dataSize (Nat.le_succ n)).trans hle⟩
    have hsample := channels_zeroTo (k := fun ch => if ch < channels then dataSize * n else 0)
      (fun ch hch => if_pos hch) h
    rw [List.range_succ, List.foldlM_append, hprev, Option.bind_eq_bind, Option.bind_some,
      List.foldlM_cons, hsample]
    change some _ = some _
    congr 2
    funext ch
    split_ifs
    · rfl
    · rfl

end Replacer

/-! The planes of a laid out frame. -/

section Layout
variable {fmt : AVSampleFormat} {channels : ℕ} {frame : AVFrame} {ch : ℕ} {plane : List UInt8}

theorem dataPointers_getElem? {planes : List (List UInt8)} :
    (dataPointers planes)[ch]? = some (some plane) ↔
      ch < numDataPointers ∧ planes[ch]? = some plane := by
  rw [dataPointers, List.getElem?_append]
  split_ifs with hlt
  · rw [List.length_map, List.length_take] at hlt
    rw [List.getElem?_map, List.getElem?_take_of_lt (by omega)]
    simp only [Option.map_eq_some_iff, Option.some.injEq, exists_eq_right]
    constructor
    · exact fun h => ⟨by omega, h⟩
    · exact fun h => h.2
  · rw [List.length_map, List.length_take] at hlt
    rw [List.getElem?_replicate]
    constructor
    · intro h
      split_ifs at h
      cases h
    · intro h
      have hlen := (List.getElem?_eq_some_iff.mp h.2).1
      omega

theorem LaidOut.data_length (h : LaidOut fmt channels frame)
    (hplane : frame.data[ch]? = some (some plane)) :
    (fmt.planeSizes channels frame.nbSamples.toNat)[ch]? = some plane.length := by
  obtain ⟨planes, hdata, hsizes⟩ := h.planes
  rw [hdata, dataPointers_getElem?] at hplane
  rw [← hsizes, List.getElem?_map, hplane.2]
  rfl

theorem LaidOut.present_iff (h : LaidOut fmt channels frame) :
    Present frame.data ch ↔ ch < numDataPointers ∧
      ch < (fmt.planeSizes channels frame.nbSamples.toNat).length := by
  obtain ⟨planes, hdata, hsizes⟩ := h.planes
  rw [← hsizes, List.length_map, Present, hdata]
  simp only [dataPointers_getElem?]
  constructor
  · intro hp
    obtain ⟨plane, hch, hplane⟩ := hp
    exact ⟨hch, (List.getElem?_eq_some_iff.mp hplane).1⟩
  · intro hp
    exact ⟨_, hp.1, List.getElem?_eq_getElem hp.2⟩

theorem LaidOut.covered_of_present (h : LaidOut fmt channels frame)
    (hall : 0 < frame.nbSamples → ∀ ch < channels, Present frame.data ch) :
    LayoutCovered fmt channels frame := by
  by_cases hzero : frame.nbSamples = 0
  · exact Or.inl hzero
  · have hpos : 0 < frame.nbSamples := lt_of_le_of_ne h.nbSamples_nonneg (Ne.symm hzero)
    have hlast : channels ≠ 0 → channels - 1 < numDataPointers ∧
        channels - 1 < (fmt.planeSizes channels frame.nbSamples.toNat).length :=
      fun hne => h.present_iff.mp (hall hpos (channels - 1) (by omega))
    unfold LayoutCovered AVSampleFormat.planeSizes at *
    cases hfmt : fmt.isPlanar with
    | true => exact Or.inr (Or.inl ⟨rfl, by omega⟩)
    | false =>
      simp only [hfmt, Bool.false_eq_true, if_false, List.length_singleton] at hlast
      exact Or.inr (Or.inr ⟨rfl, by omega⟩)

theorem LaidOut.present_of_covered (h : LaidOut fmt channels frame)
    (hcover : LayoutCovered fmt channels frame) (hpos : 0 < frame.nbSamples)
    (hch : ch < channels) : Present frame.data ch := by
  rw [h.present_iff, AVSampleFormat.planeSizes]
  rcases hcover with hzero | ⟨hfmt, hle⟩ | ⟨hfmt, hle⟩
  · omega
  · rw [if_pos hfmt, List.length_replicate]
    exact ⟨by omega, hch⟩
  · rw [if_neg (by simp [hfmt]), List.length_singleton]
    unfold numDataPointers
    omega

theorem LaidOut.length_of_covered (h : LaidOut fmt channels frame)
    (hcover : LayoutCovered fmt channels frame) (hplane : frame.data[ch]? = some (some plane)) :
    plane.length =
      if ch < channels then fmt.avGetBytesPerSample * frame.nbSamples.toNat else 0 := by
  have hsize := h.data_length hplane
  rw [AVSampleFormat.planeSizes] at hsize
  cases hfmt : fmt.isPlanar with
  | true =>
    rw [if_pos hfmt, List.getElem?_replicate] at hsize
    split_ifs at hsize with hch
    rw [if_pos hch, ← Option.some.inj hsize, Nat.mul_comm]
  | false =>
    rw [if_neg (by simp [hfmt]), List.getElem?_singleton] at hsize
    split_ifs at hsize with hch
    have hlen := Option.some.inj hsize
    rcases hcover with hzero | ⟨hplanar, _⟩ | ⟨_, hle⟩
    · rw [← hlen, hzero]
      simp
    · cases hfmt.symm.trans hplanar
    · rw [← hlen, hch]
      obtain rfl | rfl : channels = 0 ∨ channels = 1 := by omega
      · simp
      · simp [Nat.mul_comm]

/-- `frame` with its planes zeroed as far as the loop goes. -/
def zeroed (fmt : AVSampleFormat) (channels : ℕ) (frame : AVFrame) : AVFrame :=
  { frame with
    data := Replacer.zeroTo (fun ch => if ch < channels then
      fmt.avGetBytesPerSample * frame.nbSamples.toNat else 0) frame.data }

theorem LaidOut.zeroSamples_eq (h : LaidOut fmt channels frame)
    (hcover : LayoutCovered fmt channels frame) :
    Replacer.zeroSamples channels fmt.avGetBytesPerSample frame =
      some (zeroed fmt channels frame) := by
  have hloop : ∀ n, n = frame.nbSamples.toNat → (List.range n).foldlM (fun planes i =>
      (List.range channels).foldlM (fun planes ch =>
        memsetZero planes ch (fmt.avGetBytesPerSample * i) fmt.avGetBytesPerSample) planes)
        frame.data = some (Replacer.zeroTo (fun ch => if ch < channels then
          fmt.avGetBytesPerSample * n else 0) frame.data) := by
    intro n hn
    cases n with
    | zero => simp [Replacer.zeroTo_zero]
    | succ n =>
      apply Replacer.samples_zeroTo
      intro ch hch
      obtain ⟨plane, hplane⟩ := h.present_of_covered hcover (by omega) hch
      refine ⟨plane, hplane, ?_⟩
      rw [h.length_of_covered hcover hplane, if_pos hch, hn]
  rw [Replacer.zeroSamples, hloop _ rfl]
  rfl

theorem LaidOut.zeroed_getElem? (h : LaidOut fmt channels frame)
    (hcover : LayoutCovered fmt channels frame) (ch : ℕ) :
    (zeroed fmt channels frame).data[ch]? =
      frame.data[ch]?.map (Option.map fun plane => List.replicate plane.length 0) := by
  cases hch : frame.data[ch]? with
  | none => simp [zeroed, Replacer.zeroTo, hch]
  | some p =>
    cases p with
    | none => simp [zeroed, Replacer.zeroTo, hch]
    | some plane =>
      rw [zeroed, Replacer.zeroTo_getElem? hch, ← h.length_of_covered hcover hch,
        List.drop_length, List.append_nil]
      rfl

theorem LaidOut.silenced (h : LaidOut fmt channels frame)
    (hcover : LayoutCovered fmt channels frame) :
    Silenced frame (zeroed fmt channels frame) := by
  refine ⟨rfl, ?_, ?_⟩
  · apply List.ext_getElem?
    intro ch
    simp only [List.getElem?_map, h.zeroed_getElem? hcover, Option.map_map, Function.comp_def,
      List.length_replicate]
  · intro plane hmem
    obtain ⟨ch, hch⟩ := List.mem_iff_getElem?.mp hmem
    rw [h.zeroed_getElem? hcover] at hch
    obtain ⟨p, _, hp⟩ := Option.map_eq_some_iff.mp hch
    obtain ⟨old, _, rfl⟩ := Option.map_eq_some_iff.mp hp
    exact fun b hb => List.eq_of_mem_replicate hb

theorem LaidOut.covered_of_some (h : LaidOut fmt channels frame) {frame' : AVFrame}
    (hzero : Replacer.zeroSamples channels fmt.avGetBytesPerSample frame = some frame') :
    LayoutCovered fmt channels frame :=
  h.covered_of_present fun hpos => Replacer.zeroSamples_present hzero hpos

end Layout

/-! The frames an encoder is sent. -/

/-- `η` with every frame it is offered kept next to its state. -/
def recorded (η : Encoder) : Encoder where
  Ctx := η.Ctx × List AVFrame
  avcodecSendFrame s frame :=
    ((η.avcodecSendFrame s.1 frame).1, (η.avcodecSendFrame s.1 frame).2, s.2 ++ [frame])
  avcodecReceivePacket s :=
    ((η.avcodecReceivePacket s.1).1, (η.avcodecReceivePacket s.1).2.1,
      (η.avcodecReceivePacket s.1).2.2, s.2)

/-- Every frame that `δ` hands out is laid out for the format and the channels of its context. -/
structure LaysOut (δ : Decoder) (format : δ.Ctx → AVSampleFormat) : Prop where
  bytesPerSample_eq : ∀ ctx, δ.bytesPerSample ctx = (format ctx).avGetBytesPerSample
  laidOut : ∀ ctx ret frame ctx', δ.avcodecReceiveFrame ctx = (ret, frame, ctx') → 0 ≤ ret →
    LaidOut (format ctx') (δ.nbChannels ctx') frame

namespace Replacer
variable {δ : Decoder} {η : Encoder} {fuel : ℕ}

def sent (r : Replacer δ (recorded η)) : List AVFrame := r.audioEncoderCtx.2

def SilentSent (r : Replacer δ (recorded η)) : Prop := ∀ frame ∈ r.sent, Silent frame

theorem encodeMuted_silent {r r' : Replacer δ (recorded η)} {packet out : AVPacket}
    {frame : AVFrame} {x : MuteExit} (hr : r.SilentSent) (hframe : Silent frame)
    (h : r.encodeMuted fuel packet frame = .ok (out, x, r')) : r'.SilentSent := by
  have hsend : ∀ s : (recorded η).Ctx, (∀ f ∈ s.2, Silent f) →
      ∀ f ∈ ((recorded η).avcodecSendFrame s frame).2.2, Silent f := by
    intro s hs f hf
    rcases List.mem_append.mp hf with hold | hnew
    · exact hs f hold
    · rw [List.mem_singleton.mp hnew]
      exact hframe
  have hsent : ∀ {res : Except CallFailure Unit} {ctx : (recorded η).Ctx},
      (recorded η).sendFrameLoop frame fuel r.audioEncoderCtx = some (res, ctx) →
        ∀ f ∈ ctx.2, Silent f :=
    fun hloop => retry_invariant (P := fun s : (recorded η).Ctx => ∀ f ∈ s.2, Silent f) hsend
      (fun s hs => hs) hr hloop
  have hreceived : ∀ {res : Except CallFailure Unit} {ctx ctx' : (recorded η).Ctx}
      {held bytes : List UInt8}, (∀ f ∈ ctx.2, Silent f) →
      (recorded η).receivePacketLoop frame fuel (ctx, held) = some (res, ctx', bytes) →
        ∀ f ∈ ctx'.2, Silent f :=
    fun hctx hloop => retry_invariant
      (P := fun s : (recorded η).Ctx × List UInt8 => ∀ f ∈ s.1.2, Silent f)
      (fun s hs => hs) (fun s hs => hsend s.1 hs) hctx hloop
  simp only [encodeMuted] at h
  split at h
  · cases h
  · next f ctx hloop =>
    cases h
    exact hsent hloop
  · next ctx hloop =>
    split at h
    · cases h
    · next f ctx' bytes hreceive =>
      cases h
      exact hreceived (hsent hloop) hreceive
    · next ctx' bytes hreceive =>
      cases h
      exact hreceived (hsent hloop) hreceive

theorem replaceAudioToMute_silent {format : δ.Ctx → AVSampleFormat} (hδ : LaysOut δ format)
    {r r' : Replacer δ (recorded η)} {packet out : AVPacket} {x : MuteExit} (hr : r.SilentSent)
    (h : r.replaceAudioToMute fuel packet = .ok (out, x, r')) : r'.SilentSent := by
  simp only [replaceAudioToMute] at h
  split at h
  · cases h
  · cases h
    exact hr
  · split at h
    · cases h
    · cases h
      exact hr
    · next ctx frame hreceive =>
      obtain ⟨⟨last, held⟩, hlast⟩ := retry_done hreceive
      simp only [Prod.mk.injEq] at hlast
      obtain ⟨hret, hctx, hframe⟩ := hlast
      have hlaid : LaidOut (format ctx) (δ.nbChannels ctx) frame := by
        rw [← hctx, ← hframe]
        exact hδ.laidOut last _ _ _ rfl (replyOf_done.mp hret)
      split at h
      · cases h
      · next frame' hzero =>
        rw [hδ.bytesPerSample_eq] at hzero
        have hcover := hlaid.covered_of_some hzero
        rw [hlaid.zeroSamples_eq hcover] at hzero
        cases hzero
        exact encodeMuted_silent (r := { r with audioDecoderCtx := ctx }) hr
          (hlaid.silenced hcover).silent h

/-- Over any sequence of calls the encoder is sent silent frames only. -/
theorem muteRun_silent {format : δ.Ctx → AVSampleFormat} (hδ : LaysOut δ format)
    {r : Replacer δ (recorded η)} (hr : r.SilentSent) (packets : List AVPacket) :
    (muteRun fuel r packets).state.SilentSent := by
  refine run_state (P := SilentSent) ?_ hr
  intro r packet hr
  rw [muteStep]
  split
  · exact hr
  · next h => exact replaceAudioToMute_silent hδ hr h

/-- For which layouts the loop zeroes a decoded frame and writes to its planes
only, and that no other frame is ever sent. -/
theorem mute_layout_iff {format : δ.Ctx → AVSampleFormat} (hδ : LaysOut δ format) :
    (∀ ctx frame, LaidOut (format ctx) (δ.nbChannels ctx) frame →
      ((∃ frame', zeroSamples (δ.nbChannels ctx) (δ.bytesPerSample ctx) frame = some frame' ∧
          Silenced frame frame') ↔
        LayoutCovered (format ctx) (δ.nbChannels ctx) frame)) ∧
      ∀ (η : Encoder) (fuel : ℕ) (r : Replacer δ (recorded η)) (packets : List AVPacket),
        r.sent = [] → (muteRun fuel r packets).state.SilentSent := by
  refine ⟨?_, ?_⟩
  · intro ctx frame hlaid
    rw [hδ.bytesPerSample_eq]
    constructor
    · intro h
      obtain ⟨frame', hzero, -⟩ := h
      exact hlaid.covered_of_some hzero
    · intro hcover
      exact ⟨_, hlaid.zeroSamples_eq hcover, hlaid.silenced hcover⟩
  · intro η fuel r packets hnone
    refine muteRun_silent hδ ?_ packets
    rw [SilentSent, hnone]
    simp

/-! A decoder that answers every packet with the same frame. -/

def emptyFrame : AVFrame := { nbSamples := 0, data := dataPointers [] }

def frameDecoder (channels bytesPerSample : ℕ) (frame : AVFrame) : Decoder where
  Ctx := Bool
  avcodecSendPacket
    | false, _ => (0, true)
    | true, _ => (AVERROR_EAGAIN, true)
  avcodecReceiveFrame
    | true => (0, frame, false)
    | false => (AVERROR_EAGAIN, emptyFrame, false)
  nbChannels _ := channels
  bytesPerSample _ := bytesPerSample

theorem frameDecoder_laysOut {fmt : AVSampleFormat} {channels : ℕ} {frame : AVFrame}
    (h : LaidOut fmt channels frame) :
    LaysOut (frameDecoder channels fmt.avGetBytesPerSample frame) fun _ => fmt := by
  refine ⟨fun _ => rfl, ?_⟩
  intro ctx ret out ctx' hreceive hret
  cases ctx with
  | true =>
    cases hreceive
    exact h
  | false =>
    cases hreceive
    exact absurd hret (by decide)

def planarFrame : AVFrame := { nbSamples := 1, data := dataPointers [[1, 2], [3, 4]] }

theorem planarFrame_laidOut : LaidOut .s16p 2 planarFrame :=
  ⟨by decide, [[1, 2], [3, 4]], rfl, rfl⟩

theorem mute_layout_iff_planar :
    (∀ ctx frame, LaidOut .s16p ((frameDecoder 2 2 planarFrame).nbChannels ctx) frame →
      ((∃ frame', zeroSamples ((frameDecoder 2 2 planarFrame).nbChannels ctx)
          ((frameDecoder 2 2 planarFrame).bytesPerSample ctx) frame = some frame' ∧
          Silenced frame frame') ↔
        LayoutCovered .s16p ((frameDecoder 2 2 planarFrame).nbChannels ctx) frame)) ∧
      ∀ (η : Encoder) (fuel : ℕ) (r : Replacer (frameDecoder 2 2 planarFrame) (recorded η))
        (packets : List AVPacket), r.sent = [] → (muteRun fuel r packets).state.SilentSent :=
  mute_layout_iff (frameDecoder_laysOut planarFrame_laidOut)

def packedFrame : AVFrame := { nbSamples := 1, data := dataPointers [[1, 2, 3, 4]] }

/-- One sample of packed stereo: the second channel has no plane of its own. -/
theorem packed_stereo_unmuted :
    LaidOut .s16 2 packedFrame ∧ zeroSamples 2 AVSampleFormat.s16.avGetBytesPerSample
      packedFrame = none ∧
      ∀ r : Replacer (frameDecoder 2 2 packedFrame) pcmEncoder, r.audioDecoderCtx = false →
        r.replaceAudioToMute 1 (samplePacket 1 0 20).val = .error .planeWrite := by
  refine ⟨⟨by decide, [[1, 2, 3, 4]], rfl, rfl⟩, by decide, ?_⟩
  intro r hr
  obtain ⟨index, ctx, enc⟩ := r
  cases hr
  rfl

end Replacer

end RtmpRelay
