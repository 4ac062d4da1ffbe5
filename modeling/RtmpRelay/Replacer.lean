import RtmpRelay.Media

/-!
# The muting replacer

`replaceAudioToMute` decodes a packet, zeroes the samples of one frame, encodes
that frame and stamps the result with the timing of the packet it replaces. It
has eight error exits, two after each of the four codec loops, and each of them
returns the packet it was given. The caller sees only the packet; the exit
taken is recorded next to it.
-/

namespace RtmpRelay

open Machine Media

structure Replacer (δ : Decoder) (η : Encoder) where
  audioStreamIndex : Int
  audioDecoderCtx : δ.Ctx
  audioEncoderCtx : η.Ctx

/-- What the codec library answers while the replacer is set up. -/
structure ReplacerReplies (δ : Decoder) (η : Encoder) where
  audioStreamIndex : Int
  decoderCtx : Option δ.Ctx
  openDecoder : Int
  encoderFound : Bool
  encoderCtx : Option η.Ctx

inductive MuteExit
  | muted
  | sendPacket (f : CallFailure)
  | receiveFrame (f : CallFailure)
  | sendFrame (f : CallFailure)
  | receivePacket (f : CallFailure)
  deriving DecidableEq, Repr

namespace Replacer
variable {δ : Decoder} {η : Encoder}

def createAudioDecoder (q : ReplacerReplies δ η) : Option (Int × δ.Ctx) :=
  if q.audioStreamIndex < 0 then none
  else
    match q.decoderCtx with
    | none => none
    | some ctx => if q.openDecoder < 0 then none else some (q.audioStreamIndex, ctx)

-- What opening the encoder returns is dropped.
def createAudioEncoder (q : ReplacerReplies δ η) : Option η.Ctx :=
  if q.encoderFound then q.encoderCtx else none

def init (q : ReplacerReplies δ η) : Option (Replacer δ η) :=
  match createAudioDecoder q with
  | none => none
  | some (audioStreamIndex, decoderCtx) =>
    match createAudioEncoder q with
    | none => none
    | some encoderCtx =>
      some { audioStreamIndex := audioStreamIndex
             audioDecoderCtx := decoderCtx
             audioEncoderCtx := encoderCtx }

def getAudioIndex (r : Replacer δ η) : Int := r.audioStreamIndex

/-- The zeroing loop: sample by sample, and within a sample channel by channel. -/
def zeroSamples (channels dataSize : ℕ) (frame : AVFrame) : Option AVFrame :=
  let sample := fun planes i => (List.range channels).foldlM
    (fun planes ch => memsetZero planes ch (dataSize * i) dataSize) planes
  ((List.range frame.nbSamples.toNat).foldlM sample frame.data).map
    fun planes => { frame with data := planes }

-- `av_packet_alloc` gives the empty payload that `avcodec_receive_packet` fills.
def encodeMuted (fuel : ℕ) (r : Replacer δ η) (packet : AVPacket) (frame : AVFrame) :
    Except Halt (AVPacket × MuteExit × Replacer δ η) :=
  match η.sendFrameLoop frame fuel r.audioEncoderCtx with
  | none => .error .noReturn
  | some (.error f, ctx) => .ok (packet, .sendFrame f, { r with audioEncoderCtx := ctx })
  | some (.ok (), ctx) =>
    match η.receivePacketLoop frame fuel (ctx, []) with
    | none => .error .noReturn
    | some (.error f, ctx, _) =>
      .ok (packet, .receivePacket f, { r with audioEncoderCtx := ctx })
    | some (.ok (), ctx, bytes) =>
      let outPacket : AVPacket :=
        { streamIndex := r.audioStreamIndex
          pts := packet.pts
          dts := packet.dts
          duration := packet.duration
          data := .encoded bytes }
      .ok (outPacket, .muted, { r with audioEncoderCtx := ctx })

def replaceAudioToMute (fuel : ℕ) (r : Replacer δ η) (packet : AVPacket) :
    Except Halt (AVPacket × MuteExit × Replacer δ η) :=
  match δ.sendPacketLoop packet fuel r.audioDecoderCtx with
  | none => .error .noReturn
  | some (.error f, ctx) => .ok (packet, .sendPacket f, { r with audioDecoderCtx := ctx })
  | some (.ok (), ctx) =>
    match δ.receiveFrameLoop packet fuel (ctx, { nbSamples := 0, data := [] }) with
    | none => .error .noReturn
    | some (.error f, ctx, _) =>
      .ok (packet, .receiveFrame f, { r with audioDecoderCtx := ctx })
    | some (.ok (), ctx, frame) =>
      match zeroSamples (δ.nbChannels ctx) (δ.bytesPerSample ctx) frame with
      | none => .error .planeWrite
      | some frame => encodeMuted fuel { r with audioDecoderCtx := ctx } packet frame

def Returns (r : Replacer δ η) (packet out : AVPacket) (x : MuteExit)
    (r' : Replacer δ η) : Prop :=
  r'.audioStreamIndex = r.audioStreamIndex ∧
    ((x = .muted ∧ out.data.isMuted = true ∧
        out.timing = (r.audioStreamIndex, packet.pts, packet.dts, packet.duration)) ∨
      (x ≠ .muted ∧ out = packet))

theorem encodeMuted_returns {fuel : ℕ} {r r' : Replacer δ η} {packet out : AVPacket}
    {frame : AVFrame} {x : MuteExit} (h : r.encodeMuted fuel packet frame = .ok (out, x, r')) :
    r.Returns packet out x r' := by
  simp only [encodeMuted] at h
  split at h
  · simp at h
  · cases h
    exact ⟨rfl, Or.inr ⟨by simp, rfl⟩⟩
  · split at h
    · simp at h
    · cases h
      exact ⟨rfl, Or.inr ⟨by simp, rfl⟩⟩
    · cases h
      exact ⟨rfl, Or.inl ⟨rfl, rfl, rfl⟩⟩

theorem replaceAudioToMute_returns {fuel : ℕ} {r r' : Replacer δ η} {packet out : AVPacket}
    {x : MuteExit} (h : r.replaceAudioToMute fuel packet = .ok (out, x, r')) :
    r.Returns packet out x r' := by
  simp only [replaceAudioToMute] at h
  split at h
  · simp at h
  · cases h
    exact ⟨rfl, Or.inr ⟨by simp, rfl⟩⟩
  · split at h
    · simp at h
    · cases h
      exact ⟨rfl, Or.inr ⟨by simp, rfl⟩⟩
    · split at h
      · simp at h
      · have henc := encodeMuted_returns h
        exact ⟨henc.1, henc.2⟩

/-! A call that does not return is stuck in a codec loop or writes outside a plane. -/

theorem encodeMuted_error {fuel : ℕ} {r : Replacer δ η} {packet : AVPacket} {frame : AVFrame}
    {e : Halt} (h : r.encodeMuted fuel packet frame = .error e) : e = .noReturn := by
  simp only [encodeMuted] at h
  split at h
  · cases h
    rfl
  · simp at h
  · split at h <;> cases h
    rfl

theorem replaceAudioToMute_error {fuel : ℕ} {r : Replacer δ η} {packet : AVPacket} {e : Halt}
    (h : r.replaceAudioToMute fuel packet = .error e) : e = .noReturn ∨ e = .planeWrite := by
  simp only [replaceAudioToMute] at h
  split at h
  · cases h
    exact Or.inl rfl
  · simp at h
  · split at h
    · cases h
      exact Or.inl rfl
    · simp at h
    · split at h
      · cases h
        exact Or.inr rfl
      · exact Or.inl (encodeMuted_error h)

end Replacer

end RtmpRelay
