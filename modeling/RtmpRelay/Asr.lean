import RtmpRelay.Media

/-!
# The speech recogniser client

`sendAudio` decodes a packet, resamples one frame of it and hands the bytes to
the request in `m_request`; the time base is the `pts` of the first packet whose
audio the request counted as sent. The resampler is a parameter like the
codecs. What the clock, the token service and the request answer during a call
are arguments of it, and a request is the number of its session.
-/

namespace RtmpRelay

open Machine Media

structure PcmParams where
  nbChannels : Int
  sampleRate : Int
  bytesPerSample : Int
  deriving DecidableEq, Repr

structure Resampler where
  Ctx : Type
  swrAlloc : Ctx
  swrInit : Ctx → PcmParams → PcmParams → Ctx
  swrGetDelay : Ctx → Int → Int
  swrConvert : Ctx → Int → AVFrame → Int × List UInt8 × Ctx

structure PcmResampleContext (ω : Resampler) where
  swrCtx : ω.Ctx
  src : PcmParams
  dst : PcmParams
  data : List UInt8
  dataLen : Int
  maxNbSamples : Int

structure TokenReply where
  retCode : Int
  token : String
  expireTime : Int
  deriving DecidableEq, Repr

structure SdkReply where
  curTime : Int
  tokenReply : TokenReply
  sentByte : Int
  deriving DecidableEq, Repr

inductive SendExit
  | sendPacket (f : CallFailure)
  | receiveFrame (f : CallFailure)
  | resample (ret : Int)
  | sent (data : List UInt8) (dataLen sentByte : Int)
  deriving DecidableEq, Repr

/-- The audio reached the service: a negative count is a refusal. -/
def SendExit.accepted : SendExit → Bool
  | .sent _ _ sentByte => 0 ≤ sentByte
  | _ => false

def SendExit.positive : SendExit → Bool
  | .sent _ _ sentByte => 0 < sentByte
  | _ => false

theorem SendExit.accepted_of_positive {x : SendExit} (h : x.positive = true) :
    x.accepted = true := by
  cases x with
  | sent data dataLen sentByte =>
    simp only [positive, decide_eq_true_eq] at h
    simp only [accepted, decide_eq_true_eq]
    omega
  | sendPacket f => cases h
  | receiveFrame f => cases h
  | resample ret => cases h

structure Asr (δ : Decoder) (ω : Resampler) where
  token : String
  expireTime : Int
  request : Option ℕ
  prCtx : PcmResampleContext ω
  audioDecoderCtx : δ.Ctx
  firstAudioPts : Int
  maxSentenceSilenceMs : Int

def AVERROR_EINVAL : Int := -22

-- `av_rescale_rnd(a, b, c, AV_ROUND_UP)`
def avRescaleRndUp (a b c : Int) : Int := -(-(a * b) / c)

def avSamplesGetBufferSize (nbChannels nbSamples bytesPerSample : Int) : Int :=
  let size := nbSamples * nbChannels * bytesPerSample
  if nbSamples ≤ 0 ∨ nbChannels ≤ 0 ∨ bytesPerSample ≤ 0 ∨ intMax < size then AVERROR_EINVAL
  else size

def plainResampler : Resampler where
  Ctx := Unit
  swrAlloc := ()
  swrInit _ _ _ := ()
  swrGetDelay _ _ := 0
  swrConvert _ _ frame :=
    (frame.nbSamples, ((frame.data.head?.join).getD []).flatMap fun b => [0, b], ())

namespace PcmResampleContext
variable {ω : Resampler}

def pcmResampleInit : PcmResampleContext ω :=
  let pp : PcmParams := { nbChannels := 1, sampleRate := 16000, bytesPerSample := 2 }
  { swrCtx := ω.swrAlloc
    src := pp
    dst := pp
    data := []
    dataLen := 0
    maxNbSamples := 0 }

-- The parameters go to the resampler only; `src` and `dst` keep their initial values.
def pcmResampleSetParams (c : PcmResampleContext ω) (pcmSrc pcmDst : PcmParams) :
    PcmResampleContext ω :=
  { c with swrCtx := ω.swrInit c.swrCtx pcmSrc pcmDst }

def pcmResample (c : PcmResampleContext ω) (frame : AVFrame) : Int × PcmResampleContext ω :=
  let nbSamples := narrowInt (avRescaleRndUp
    (ω.swrGetDelay c.swrCtx c.src.sampleRate + frame.nbSamples) c.dst.sampleRate c.src.sampleRate)
  let c :=
    if nbSamples > c.maxNbSamples then { c with maxNbSamples := nbSamples, data := [] } else c
  match ω.swrConvert c.swrCtx nbSamples frame with
  | (ret, data, swrCtx) =>
    if ret < 0 then (ret, { c with swrCtx := swrCtx })
    else
      let dataLen := avSamplesGetBufferSize c.dst.nbChannels ret c.dst.bytesPerSample
      (0, { c with swrCtx := swrCtx, data := data, dataLen := dataLen })

end PcmResampleContext

namespace Asr
variable {δ : Decoder} {ω : Resampler}

/-- The constructor, which leaves `m_expireTime` unset, followed by the setters
and `createAudioDecoder` with the context it opens. -/
def new (expireTime : Int) (gapMs : Int) (ctx : δ.Ctx) (pcmSrc : PcmParams) : Asr δ ω :=
  let pcmDst : PcmParams := { nbChannels := 1, sampleRate := 16000, bytesPerSample := 2 }
  { token := ""
    expireTime := expireTime
    request := none
    prCtx := PcmResampleContext.pcmResampleInit.pcmResampleSetParams pcmSrc pcmDst
    audioDecoderCtx := ctx
    firstAudioPts := 0
    maxSentenceSilenceMs := gapMs }

def getTimeBase (a : Asr δ ω) : Int := a.firstAudioPts

def resetAsrTimeBase (a : Asr δ ω) : Asr δ ω := { a with firstAudioPts := 0 }

def generateToken (a : Asr δ ω) (t : TokenReply) : Int × Asr δ ω :=
  if t.retCode < 0 then (t.retCode, a)
  else (0, { a with token := t.token, expireTime := t.expireTime })

-- Both times are `long`, and the expiry is tested only while there is no token.
def checkToken (a : Asr δ ω) (curTime : Int) (t : TokenReply) : Int × Asr δ ω :=
  if a.token = "" then
    if narrowLong (a.expireTime - curTime) < 10 then
      match a.generateToken t with
      | (ret, a) =>
        if ret < 0 then (-1, a)
        else if a.token = "" ∨ a.expireTime < 0 then (-2, a)
        else (0, a)
    else (0, a)
  else (0, a)

/-- `created` is what `createTranscriberRequest` returns. The code that the
request's own `start` returns is printed and dropped. -/
def start (a : Asr δ ω) (t : TokenReply) (created : Option ℕ) : Int × Asr δ ω :=
  match created with
  | none => (-1, { (a.generateToken t).2 with request := none })
  | some id => (0, { (a.generateToken t).2 with request := some id })

-- The body of both restarting callbacks; `init` configures nothing but the SDK client.
def restart (a : Asr δ ω) (t : TokenReply) (created : Option ℕ) : Asr δ ω :=
  (a.resetAsrTimeBase.start t created).2

def onTaskFailed (a : Asr δ ω) (t : TokenReply) (created : Option ℕ) : Asr δ ω :=
  a.restart t created

def onChannelClosed (a : Asr δ ω) (t : TokenReply) (created : Option ℕ) : Asr δ ω :=
  a.restart t created

def requestEmpty : Int := 301

-- The branch of `sendAudio` that has a frame. Without a request the SDK refuses the audio.
def sendFrame (a : Asr δ ω) (pkt : AVPacket) (frame : AVFrame) (sentByte : Int) :
    Except Halt (Int × SendExit × Asr δ ω) :=
  match a.prCtx.pcmResample frame with
  | (ret, prCtx) =>
    if ret < 0 then .ok (0, .resample ret, { a with prCtx := prCtx })
    else
      let sentByte := if a.request = none then -requestEmpty else sentByte
      let base := if a.firstAudioPts = 0 ∧ sentByte > 0 then pkt.pts else a.firstAudioPts
      .ok (0, .sent prCtx.data prCtx.dataLen sentByte,
        { a with prCtx := prCtx, firstAudioPts := base })

def sendAudio (fuel : ℕ) (a : Asr δ ω) (pkt : AVPacket) (sdk : SdkReply) :
    Except Halt (Int × SendExit × Asr δ ω) :=
  let a := (a.checkToken sdk.curTime sdk.tokenReply).2
  match δ.sendPacketLoop pkt fuel a.audioDecoderCtx with
  | none => .error .noReturn
  | some (.error f, ctx) => .ok (-1, .sendPacket f, { a with audioDecoderCtx := ctx })
  | some (.ok (), ctx) =>
    match δ.receiveFrameLoop pkt fuel (ctx, { nbSamples := 0, data := [] }) with
    | none => .error .noReturn
    | some (.error f, ctx, _) => .ok (-1, .receiveFrame f, { a with audioDecoderCtx := ctx })
    | some (.ok (), ctx, frame) =>
      { a with audioDecoderCtx := ctx }.sendFrame pkt frame sdk.sentByte

def sampleToken : TokenReply := { retCode := 0, token := "t", expireTime := 90000 }

def sampleSdk (sentByte : Int) : SdkReply :=
  { curTime := 1000, tokenReply := sampleToken, sentByte := sentByte }

def sample : Asr pcmDecoder plainResampler :=
  ((new 0 200 none { nbChannels := 1, sampleRate := 16000, bytesPerSample := 1 }).start
    sampleToken (some 0)).2

/-! What the token functions and `sendAudio` can do to the session and its base. -/

theorem generateToken_keeps (a : Asr δ ω) (t : TokenReply) :
    (a.generateToken t).2.request = a.request ∧
      (a.generateToken t).2.firstAudioPts = a.firstAudioPts := by
  simp only [generateToken]
  split_ifs
  · exact ⟨rfl, rfl⟩
  · exact ⟨rfl, rfl⟩

theorem checkToken_keeps (a : Asr δ ω) (curTime : Int) (t : TokenReply) :
    (a.checkToken curTime t).2.request = a.request ∧
      (a.checkToken curTime t).2.firstAudioPts = a.firstAudioPts := by
  have hgen := a.generateToken_keeps t
  unfold checkToken
  split_ifs
  · dsimp only
    split_ifs
    · exact hgen
    · exact hgen
    · exact hgen
  · exact ⟨rfl, rfl⟩
  · exact ⟨rfl, rfl⟩

@[simp] theorem start_request (a : Asr δ ω) (t : TokenReply) (created : Option ℕ) :
    (a.start t created).2.request = created := by
  cases created with
  | none => rfl
  | some id => rfl

@[simp] theorem start_firstAudioPts (a : Asr δ ω) (t : TokenReply) (created : Option ℕ) :
    (a.start t created).2.firstAudioPts = a.firstAudioPts := by
  have hgen := (a.generateToken_keeps t).2
  cases created with
  | none => exact hgen
  | some id => exact hgen

@[simp] theorem restart_request (a : Asr δ ω) (t : TokenReply) (created : Option ℕ) :
    (a.restart t created).request = created :=
  a.resetAsrTimeBase.start_request t created

@[simp] theorem restart_firstAudioPts (a : Asr δ ω) (t : TokenReply) (created : Option ℕ) :
    (a.restart t created).firstAudioPts = 0 :=
  a.resetAsrTimeBase.start_firstAudioPts t created

def baseAfter (base pts : Int) (x : SendExit) : Int :=
  if base = 0 ∧ x.positive = true then pts else base

theorem baseAfter_of_not_positive (base pts : Int) {x : SendExit} (hx : x.positive = false) :
    baseAfter base pts x = base := by
  simp [baseAfter, hx]

theorem baseAfter_of_ne {base : Int} (hb : base ≠ 0) (pts : Int) (x : SendExit) :
    baseAfter base pts x = base := by
  simp [baseAfter, hb]

theorem answer_pos {request : Option ℕ} {sentByte : Int}
    (h : 0 < if request = none then -requestEmpty else sentByte) : ∃ id, request = some id := by
  apply Option.ne_none_iff_exists'.mp
  intro hnone
  rw [if_pos hnone] at h
  exact absurd h (by decide)

/-- Only a request can take audio, and the test of the base follows at once. -/
theorem sendFrame_ok {a a' : Asr δ ω} {pkt : AVPacket} {frame : AVFrame} {sentByte ret : Int}
    {x : SendExit} (h : a.sendFrame pkt frame sentByte = .ok (ret, x, a')) :
    a'.request = a.request ∧ a'.firstAudioPts = baseAfter a.firstAudioPts pkt.pts x ∧
      (x.positive = true → ∃ id, a.request = some id) := by
  unfold sendFrame at h
  dsimp only at h
  split at h
  · cases h
    exact ⟨rfl, (baseAfter_of_not_positive _ _ rfl).symm, fun hx => by cases hx⟩
  · cases h
    refine ⟨rfl, ?_, fun hx => answer_pos (of_decide_eq_true hx)⟩
    simp only [baseAfter, SendExit.positive, decide_eq_true_eq]

/-- A call either fails in a codec loop, or sends a frame with the session and
the base it started with. -/
theorem sendAudio_cases {fuel : ℕ} {a a' : Asr δ ω} {pkt : AVPacket} {sdk : SdkReply} {ret : Int}
    {x : SendExit} (h : a.sendAudio fuel pkt sdk = .ok (ret, x, a')) :
    (x.positive = false ∧ a'.request = a.request ∧ a'.firstAudioPts = a.firstAudioPts) ∨
      ∃ (m : Asr δ ω) (frame : AVFrame), m.request = a.request ∧
        m.firstAudioPts = a.firstAudioPts ∧
        m.sendFrame pkt frame sdk.sentByte = .ok (ret, x, a') := by
  obtain ⟨hreq, hbase⟩ := a.checkToken_keeps sdk.curTime sdk.tokenReply
  unfold sendAudio at h
  dsimp only at h
  split at h
  · simp at h
  · cases h
    exact Or.inl ⟨rfl, hreq, hbase⟩
  · split at h
    · simp at h
    · cases h
      exact Or.inl ⟨rfl, hreq, hbase⟩
    · refine Or.inr ⟨_, _, ?_, ?_, h⟩
      · exact hreq
      · exact hbase

theorem sendAudio_ok {fuel : ℕ} {a a' : Asr δ ω} {pkt : AVPacket} {sdk : SdkReply} {ret : Int}
    {x : SendExit} (h : a.sendAudio fuel pkt sdk = .ok (ret, x, a')) :
    a'.request = a.request ∧ a'.firstAudioPts = baseAfter a.firstAudioPts pkt.pts x := by
  rcases sendAudio_cases h with ⟨hneg, hreq, hbase⟩ | ⟨m, frame, hreq, hbase, hframe⟩
  · exact ⟨hreq, hbase.trans (baseAfter_of_not_positive _ _ hneg).symm⟩
  · obtain ⟨hreq', hbase', _⟩ := sendFrame_ok hframe
    rw [hbase] at hbase'
    exact ⟨hreq'.trans hreq, hbase'⟩

theorem sendAudio_request {fuel : ℕ} {a a' : Asr δ ω} {pkt : AVPacket} {sdk : SdkReply}
    {ret : Int} {x : SendExit} (h : a.sendAudio fuel pkt sdk = .ok (ret, x, a'))
    (hx : x.positive = true) : ∃ id, a.request = some id := by
  rcases sendAudio_cases h with ⟨hneg, _, _⟩ | ⟨m, frame, hreq, _, hframe⟩
  · simp [hx] at hneg
  · obtain ⟨id, hid⟩ := (sendFrame_ok hframe).2.2 hx
    exact ⟨id, hreq.symm.trans hid⟩

end Asr

end RtmpRelay
