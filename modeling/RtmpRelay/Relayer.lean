import RtmpRelay.Relay

/-!
# The whole program

`main` after the arguments are parsed: `Relayer::init`, the read loop, and the
destructor, which runs on every way out of `main` but not on an `exit`, a crash
or a hang. What the libraries answer to the calls of `init` is an argument. It
has nine failing exits, and each keeps only the output context created so far,
the one field the destructor's calls on the output depend on.
-/

namespace RtmpRelay

open Machine Machine.Outcome Media

structure Settings where
  outUrl : String
  delaySec : Int
  maxSentenceSilenceMs : Int
  deriving DecidableEq, Repr

structure Muxer where
  noFile : Bool
  avioOpenRet : Int
  writeHeaderRet : Int
  deriving DecidableEq, Repr

/-- Whether `avformat_new_stream` gave a stream, and what copying the parameters
of one input stream to it returned. -/
structure StreamReply where
  newStream : Bool
  parametersCopy : Int
  deriving DecidableEq, Repr

structure InitReplies (δ : Decoder) (η : Encoder) where
  openInput : Int
  findStreamInfo : Int
  outputContext : Option Muxer
  streams : List StreamReply
  audioStreamIndex : Int
  videoStreamIndex : Int
  replacer : ReplacerReplies δ η
  expireTime : Int
  asrDecoderCtx : δ.Ctx
  pcmSrc : PcmParams
  token : TokenReply
  request : Option ℕ

namespace Relayer
variable {δ : Decoder} {ω : Resampler} {η : Encoder} {fuel : ℕ}

def allocOutputContext (m : Muxer) : OutputContext :=
  { noFile := m.noFile
    avioOpenRet := m.avioOpenRet
    writeHeaderRet := m.writeHeaderRet
    calls := [] }

def copyStreams : List StreamReply → Bool
  | [] => true
  | q :: qs =>
    if q.newStream = false then false
    else if q.parametersCopy < 0 then false
    else copyStreams qs

-- `init` once the replacer `r` is set up; what `createAudioDecoder` returns is dropped.
def initAsr (c : Settings) (q : InitReplies δ η) (o : OutputContext) (r : Replacer δ η) :
    Except (Option OutputContext) (Relay δ ω η) :=
  let delayer := Delayer.new c.delaySec o r c.outUrl
  let asr := Asr.new q.expireTime c.maxSentenceSilenceMs q.asrDecoderCtx q.pcmSrc
  match asr.start q.token q.request with
  | (ret, asr) =>
    if ret < 0 then .error (some o)
    else .ok (Relay.init delayer asr q.audioStreamIndex q.videoStreamIndex)

-- `init` once the output context `o` is created.
def initStreams (c : Settings) (q : InitReplies δ η) (o : OutputContext) :
    Except (Option OutputContext) (Relay δ ω η) :=
  if copyStreams q.streams = false then .error (some o)
  else if q.audioStreamIndex < 0 then .error (some o)
  else if q.videoStreamIndex < 0 then .error (some o)
  else
    match Replacer.init q.replacer with
    | none => .error (some o)
    | some r => initAsr c q o r

/-- A failure leaves the output context as it is at that exit. -/
def init (c : Settings) (q : InitReplies δ η) : Except (Option OutputContext) (Relay δ ω η) :=
  if q.openInput < 0 then .error none
  else if q.findStreamInfo < 0 then .error none
  else
    match q.outputContext with
    | none => .error none
    | some m => initStreams c q (allocOutputContext m)

/-- The output context when the process ends, if there is one, and the calls
made without one. -/
structure Ending where
  output : Option OutputContext
  onNull : List OutputCall
  deriving DecidableEq, Repr

def destructorCalls : List OutputCall := [.avWriteTrailer, .avioClosep, .avformatFreeContext]

def destroy : Option OutputContext → Ending
  | none => { output := none, onNull := destructorCalls }
  | some o => { output := some (destructorCalls.foldl OutputContext.call o), onNull := [] }

/-- `as` is what happens from the end of `init` to the end of the input, or to
the step that stops the process. `none` is a list of actions that does not get
that far. -/
def main (ω : Resampler) (fuel : ℕ) (c : Settings) (q : InitReplies δ η) (as : List Action) :
    Option Ending :=
  match init (ω := ω) c q with
  | .error o => some (destroy o)
  | .ok s =>
    match Relay.run fuel s as with
    | .ok t =>
      if t.pending = none then some (destroy (some t.delayer.outputFormatContext)) else none
    | .halt (.halted _) t =>
      some { output := some t.delayer.outputFormatContext, onNull := [] }
    | .halt .notEnabled _ => none

theorem destroy_eq (s : Relay δ ω η) :
    (destroy (some s.delayer.outputFormatContext)).output =
      some s.destroy.delayer.outputFormatContext := rfl

/-! What `init` leaves. -/

structure Ready (c : Settings) (o : OutputContext) (s : Relay δ ω η) : Prop where
  delayer : ∃ r, s.delayer = Delayer.new c.delaySec o r c.outUrl
  pending : s.pending = none

theorem initAsr_error {c : Settings} {q : InitReplies δ η} {o : OutputContext}
    {r : Replacer δ η} {x : Option OutputContext}
    (h : initAsr (ω := ω) c q o r = .error x) : x = some o := by
  simp only [initAsr] at h
  split_ifs at h
  cases h
  rfl

theorem initAsr_ok {c : Settings} {q : InitReplies δ η} {o : OutputContext} {r : Replacer δ η}
    {s : Relay δ ω η} (h : initAsr c q o r = .ok s) : Ready c o s := by
  simp only [initAsr] at h
  split_ifs at h
  cases h
  exact ⟨⟨r, rfl⟩, rfl⟩

theorem initStreams_error {c : Settings} {q : InitReplies δ η} {o : OutputContext}
    {x : Option OutputContext} (h : initStreams (ω := ω) c q o = .error x) : x = some o := by
  rw [initStreams] at h
  split_ifs at h
  · exact (Except.error.inj h).symm
  · exact (Except.error.inj h).symm
  · exact (Except.error.inj h).symm
  · split at h
    · exact (Except.error.inj h).symm
    · exact initAsr_error h

theorem initStreams_ok {c : Settings} {q : InitReplies δ η} {o : OutputContext}
    {s : Relay δ ω η} (h : initStreams c q o = .ok s) : Ready c o s := by
  rw [initStreams] at h
  split_ifs at h
  split at h
  · simp at h
  · exact initAsr_ok h

theorem init_error {c : Settings} {q : InitReplies δ η} {o : OutputContext}
    (h : init (ω := ω) c q = .error (some o)) : o.calls = [] := by
  rw [init] at h
  split_ifs at h
  · cases h
  · cases h
  · split at h
    · cases h
    · cases initStreams_error h
      rfl

theorem init_ok {c : Settings} {q : InitReplies δ η} {s : Relay δ ω η} (h : init c q = .ok s) :
    ∃ o, o.calls = [] ∧ Ready c o s := by
  rw [init] at h
  split_ifs at h
  split at h
  · simp at h
  · exact ⟨_, rfl, initStreams_ok h⟩

end Relayer

end RtmpRelay
