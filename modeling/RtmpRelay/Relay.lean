import RtmpRelay.Asr
import RtmpRelay.HitDict
import RtmpRelay.Muting

/-!
# The relay

The read loop and the recogniser's callbacks run side by side. An iteration of
`startProcess` on an audio packet is two steps, `sendAudio` and
`pushAudioFrame`; `onSentenceEnd` is one step for each remote call, one for
each reading of the time base and one for each `replaceAudioPacket`, with any
number of other steps in between. The segments `hitDict` finds are an argument
of the event. Whatever the interleaving, a run of the relay is a run of the
delay queue, and the packets pushed are those read from the two streams.
-/

namespace RtmpRelay

open Machine Machine.Outcome Media

/-- What is left to do in a running `onSentenceEnd`. -/
inductive CallbackStep
  | sendSentence
  | hit (item : AudioSegement)
  | replaceAudioPacket (start stop : Int)
  | sendHitWord (item : AudioSegement)
  deriving DecidableEq, Repr

def onSentenceEnd (result : List AudioSegement) : List CallbackStep :=
  .sendSentence :: result.map .hit

/-- `pending` is the audio packet that has been sent and not yet pushed, with
what became of it; every list of `callbacks` belongs to one event. -/
structure Relay (δ : Decoder) (ω : Resampler) (η : Encoder) where
  delayer : Delayer δ η
  asr : Asr δ ω
  audioStreamIndex : Int
  videoStreamIndex : Int
  pending : Option (DemuxedPacket × SendExit)
  callbacks : List (List CallbackStep)

inductive Action
  | readFrame (p : DemuxedPacket) (sdk : SdkReply)
  | pushPending
  | sentenceEnd (result : List AudioSegement)
  | callback (k : ℕ)
  | restart (t : TokenReply) (created : Option ℕ)

namespace Relay
variable {δ : Decoder} {ω : Resampler} {η : Encoder} {fuel : ℕ}

def init (delayer : Delayer δ η) (asr : Asr δ ω) (audioStreamIndex videoStreamIndex : Int) :
    Relay δ ω η :=
  { delayer := delayer
    asr := asr
    audioStreamIndex := audioStreamIndex
    videoStreamIndex := videoStreamIndex
    pending := none
    callbacks := [] }

def call (fuel : ℕ) (s : Relay δ ω η) (op : Delayer.Op) : Outcome Stop (Relay δ ω η) :=
  match Delayer.step fuel s.delayer op with
  | .ok d => .ok { s with delayer := d }
  | .halt e d => .halt (.halted e) { s with delayer := d }

def setCallback (s : Relay δ ω η) (k : ℕ) (rest : List CallbackStep) : Relay δ ω η :=
  { s with callbacks := s.callbacks.set k rest }

-- An iteration of `startProcess`, up to the push of an audio packet.
def readFrame (fuel : ℕ) (s : Relay δ ω η) (p : DemuxedPacket) (sdk : SdkReply) :
    Outcome Stop (Relay δ ω η) :=
  if p.val.streamIndex = s.videoStreamIndex then s.call fuel (.pushVideoFrame p)
  else if p.val.streamIndex = s.audioStreamIndex then
    match s.asr.sendAudio fuel p.val sdk with
    | .error e => .halt (.halted e) s
    | .ok (_, x, asr) => .ok { s with asr := asr, pending := some (p, x) }
  else .ok s

def callbackStep (fuel : ℕ) (s : Relay δ ω η) (k : ℕ) (rest : List CallbackStep) :
    CallbackStep → Outcome Stop (Relay δ ω η)
  | .sendSentence => .ok (s.setCallback k rest)
  | .hit item =>
    let base := s.asr.getTimeBase
    .ok (s.setCallback k
      (.replaceAudioPacket (base + item.start) (base + item.stop) :: .sendHitWord item :: rest))
  | .replaceAudioPacket start stop =>
    (s.setCallback k rest).call fuel (.replaceAudioPacket start stop)
  | .sendHitWord _ => .ok (s.setCallback k rest)

def step (fuel : ℕ) (s : Relay δ ω η) : Action → Outcome Stop (Relay δ ω η)
  | .readFrame p sdk =>
    match s.pending with
    | none => s.readFrame fuel p sdk
    | some _ => .halt .notEnabled s
  | .pushPending =>
    match s.pending with
    | none => .halt .notEnabled s
    | some (p, _) => { s with pending := none }.call fuel (.pushAudioFrame p)
  | .sentenceEnd result => .ok { s with callbacks := s.callbacks ++ [onSentenceEnd result] }
  | .callback k =>
    match s.callbacks[k]? with
    | some (c :: rest) => s.callbackStep fuel k rest c
    | _ => .halt .notEnabled s
  | .restart t created => .ok { s with asr := s.asr.restart t created }

def run (fuel : ℕ) (s : Relay δ ω η) (as : List Action) : Outcome Stop (Relay δ ω η) :=
  Machine.run (step fuel) s as

/-- The destructors: `Relayer::~Relayer` first, then that of the queue, which
frees the packets still in it. -/
def destroy (s : Relay δ ω η) : Relay δ ω η :=
  let d := ((s.delayer.outputCall .avWriteTrailer).outputCall .avioClosep).outputCall
    .avformatFreeContext
  { s with delayer := { d with avPacket := [] } }

/-! The calls on the queue. -/

def delayerCall (s : Relay δ ω η) : Action → Option Delayer.Op
  | .readFrame p _ =>
    if p.val.streamIndex = s.videoStreamIndex then some (.pushVideoFrame p) else none
  | .pushPending => s.pending.map fun e => .pushAudioFrame e.1
  | .callback k =>
    match s.callbacks[k]? with
    | some (.replaceAudioPacket start stop :: _) => some (.replaceAudioPacket start stop)
    | _ => none
  | _ => none

def delayerCalls (fuel : ℕ) (s : Relay δ ω η) (as : List Action) : List Delayer.Op :=
  calls (step fuel) delayerCall s as

def unpushed (s : Relay δ ω η) : List AVPacket := (s.pending.map fun e => e.1.val).toList

def selected (video audio : Int) : Action → Option AVPacket
  | .readFrame p _ =>
    if p.val.streamIndex = video ∨ p.val.streamIndex = audio then some p.val else none
  | _ => none

/-- The packets of the selected streams that a run reads, in order. -/
def selectedPackets (s : Relay δ ω η) (as : List Action) : List AVPacket :=
  as.filterMap (selected s.videoStreamIndex s.audioStreamIndex)

/-- What a step can do to the queue, the read loop and the stream indices. -/
structure Stepped (fuel : ℕ) (s : Relay δ ω η) (a : Action) (t : Relay δ ω η) : Prop where
  delayer : (s.delayerCall a = none ∧ t.delayer = s.delayer) ∨
    ∃ op, s.delayerCall a = some op ∧ Delayer.step fuel s.delayer op = .ok t.delayer
  pushed : ((s.delayerCall a).bind Delayer.Op.pushed).toList ++ t.unpushed =
    s.unpushed ++ (selected s.videoStreamIndex s.audioStreamIndex a).toList
  video : t.videoStreamIndex = s.videoStreamIndex
  audio : t.audioStreamIndex = s.audioStreamIndex

theorem call_ok {s t : Relay δ ω η} {op : Delayer.Op} (h : s.call fuel op = .ok t) :
    Delayer.step fuel s.delayer op = .ok t.delayer ∧ t = { s with delayer := t.delayer } := by
  simp only [call] at h
  split at h
  · next d hd =>
    cases h
    exact ⟨hd, rfl⟩
  · simp at h

theorem step_readFrame {s t : Relay δ ω η} {p : DemuxedPacket} {sdk : SdkReply}
    (h : step fuel s (.readFrame p sdk) = .ok t) : Stepped fuel s (.readFrame p sdk) t := by
  rw [step] at h
  split at h
  · next hnone =>
    have hfree : s.unpushed = [] := by rw [unpushed, hnone]; rfl
    simp only [readFrame] at h
    split_ifs at h with hvideo haudio
    · obtain ⟨hd, heq⟩ := call_ok h
      have hcall : s.delayerCall (.readFrame p sdk) = some (.pushVideoFrame p) := if_pos hvideo
      have hsel : selected s.videoStreamIndex s.audioStreamIndex (.readFrame p sdk) =
        some p.val := if_pos (Or.inl hvideo)
      have hsame : t.unpushed = [] := by rw [heq]; exact hfree
      refine ⟨Or.inr ⟨.pushVideoFrame p, hcall, hd⟩, ?_, by rw [heq], by rw [heq]⟩
      rw [hcall, hsel, hfree, hsame]
      rfl
    · split at h
      · simp at h
      · next x asr hsend =>
        cases h
        have hcall : s.delayerCall (.readFrame p sdk) = none := if_neg hvideo
        have hsel : selected s.videoStreamIndex s.audioStreamIndex (.readFrame p sdk) =
          some p.val := if_pos (Or.inr haudio)
        refine ⟨Or.inl ⟨hcall, rfl⟩, ?_, rfl, rfl⟩
        rw [hcall, hsel, hfree]
        rfl
    · cases h
      have hcall : s.delayerCall (.readFrame p sdk) = none := if_neg hvideo
      have hsel : selected s.videoStreamIndex s.audioStreamIndex (.readFrame p sdk) = none :=
        if_neg (not_or.mpr ⟨hvideo, haudio⟩)
      refine ⟨Or.inl ⟨hcall, rfl⟩, ?_, rfl, rfl⟩
      rw [hcall, hsel, hfree]
      rfl
  · simp at h

theorem stepped_silent {s : Relay δ ω η} {k : ℕ} (hnone : s.delayerCall (.callback k) = none)
    (rest : List CallbackStep) : Stepped fuel s (.callback k) (s.setCallback k rest) := by
  refine ⟨Or.inl ⟨hnone, rfl⟩, ?_, rfl, rfl⟩
  rw [hnone]
  exact (List.append_nil s.unpushed).symm

theorem step_callback {s t : Relay δ ω η} {k : ℕ} (h : step fuel s (.callback k) = .ok t) :
    Stepped fuel s (.callback k) t := by
  rw [step] at h
  split at h
  · next c rest hk =>
    cases c with
    | sendSentence =>
      cases h
      exact stepped_silent (by simp [delayerCall, hk]) _
    | hit item =>
      cases h
      exact stepped_silent (by simp [delayerCall, hk]) _
    | sendHitWord item =>
      cases h
      exact stepped_silent (by simp [delayerCall, hk]) _
    | replaceAudioPacket start stop =>
      obtain ⟨hd, heq⟩ := call_ok h
      have hcall : s.delayerCall (.callback k) = some (.replaceAudioPacket start stop) := by
        simp [delayerCall, hk]
      have hsame : t.unpushed = s.unpushed := by rw [heq]; rfl
      refine ⟨Or.inr ⟨_, hcall, hd⟩, ?_, by rw [heq]; rfl, by rw [heq]; rfl⟩
      rw [hcall, hsame]
      exact (List.append_nil s.unpushed).symm
  · simp at h

theorem step_ok {s t : Relay δ ω η} {a : Action} (h : step fuel s a = .ok t) :
    Stepped fuel s a t := by
  cases a with
  | readFrame p sdk => exact step_readFrame h
  | pushPending =>
    rw [step] at h
    split at h
    · simp at h
    · next p x hpending =>
      obtain ⟨hd, heq⟩ := call_ok h
      have hcall : s.delayerCall .pushPending = some (.pushAudioFrame p) := by
        simp [delayerCall, hpending]
      have hfree : t.unpushed = [] := by rw [heq]; rfl
      have hheld : s.unpushed = [p.val] := by rw [unpushed, hpending]; rfl
      refine ⟨Or.inr ⟨.pushAudioFrame p, hcall, hd⟩, ?_, by rw [heq], by rw [heq]⟩
      rw [hcall, hfree, hheld]
      rfl
  | sentenceEnd result =>
    cases h
    exact ⟨Or.inl ⟨rfl, rfl⟩, by simp [delayerCall, selected, unpushed], rfl, rfl⟩
  | callback k => exact step_callback h
  | restart tok created =>
    cases h
    exact ⟨Or.inl ⟨rfl, rfl⟩, by simp [delayerCall, selected, unpushed], rfl, rfl⟩

theorem run_delayer {s t : Relay δ ω η} {as : List Action} (h : run fuel s as = .ok t) :
    Delayer.run fuel s.delayer (s.delayerCalls fuel as) = .ok t.delayer :=
  run_project (π := delayer) (fun _ _ _ hst => (step_ok hst).delayer) h

theorem delayerCalls_cons {s t : Relay δ ω η} {a : Action} (h : step fuel s a = .ok t)
    (as : List Action) :
    s.delayerCalls fuel (a :: as) = (s.delayerCall a).toList ++ t.delayerCalls fuel as := by
  rw [delayerCalls, calls, h]
  rfl

theorem run_selected {s t : Relay δ ω η} {as : List Action} (h : run fuel s as = .ok t) :
    Delayer.pushes (s.delayerCalls fuel as) ++ t.unpushed =
      s.unpushed ++ s.selectedPackets as := by
  induction as generalizing s with
  | nil =>
    cases h
    simp [delayerCalls, calls, Delayer.pushes, selectedPackets]
  | cons a as ih =>
    obtain ⟨m, hm, hrest⟩ := run_cons_ok.mp h
    have hstep := step_ok hm
    have hhead : Delayer.pushes (s.delayerCall a).toList =
        ((s.delayerCall a).bind Delayer.Op.pushed).toList := by
      cases hc : s.delayerCall a with
      | none => rfl
      | some op =>
        cases hp : op.pushed with
        | none => simp [Delayer.pushes, hp]
        | some p => simp [Delayer.pushes, hp]
    have htail : m.selectedPackets as = s.selectedPackets as := by
      rw [selectedPackets, selectedPackets, hstep.video, hstep.audio]
    have hcons : s.selectedPackets (a :: as) =
        (selected s.videoStreamIndex s.audioStreamIndex a).toList ++ s.selectedPackets as := by
      rw [selectedPackets, List.filterMap_cons]
      cases selected s.videoStreamIndex s.audioStreamIndex a with
      | none => rfl
      | some p => rfl
    rw [delayerCalls_cons hm, Delayer.pushes_append, hhead, List.append_assoc, ih hrest, htail,
      ← List.append_assoc, hstep.pushed, hcons, List.append_assoc]

end Relay

end RtmpRelay
