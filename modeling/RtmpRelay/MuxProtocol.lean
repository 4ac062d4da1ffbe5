import RtmpRelay.ReleaseSchedule
import RtmpRelay.Relayer

/-!
# The output protocol

A muxer is opened at most once, given its header once, then any number of
frames after a header it accepted, then one trailer; closing and freeing may
follow at any point. The queue opens the output and writes the header when the
first packet is due, but the destructor writes the trailer in any case. So a
run keeps the protocol exactly when `init` succeeds and either a packet became
due or the process ends without its destructor.
-/

namespace RtmpRelay

open Machine Machine.Outcome Media

/-- How far the calls on an output context have come. -/
inductive Stage
  | created
  | opened
  | refused
  | headed
  | trailed
  | closed
  | freed
  deriving DecidableEq, Repr

/-- The protocol; `accepts` is whether the muxer accepts the header. -/
def Stage.next (accepts : Bool) : Stage → OutputCall → Option Stage
  | .freed, _ => none
  | _, .avformatFreeContext => some .freed
  | _, .avioClosep => some .closed
  | .created, .avioOpen _ => some .opened
  | .created, .avformatWriteHeader => some (if accepts then .headed else .refused)
  | .opened, .avformatWriteHeader => some (if accepts then .headed else .refused)
  | .headed, .avInterleavedWriteFrame _ => some .headed
  | .headed, .avWriteTrailer => some .trailed
  | _, _ => none

/-- `none` once a call has broken the protocol. -/
def stageOf (o : OutputContext) : Option Stage :=
  o.calls.foldlM (Stage.next (0 ≤ o.writeHeaderRet)) .created

def Follows (o : OutputContext) : Prop := (stageOf o).isSome = true

instance (o : OutputContext) : Decidable (Follows o) :=
  inferInstanceAs (Decidable ((stageOf o).isSome = true))

theorem foldl_call (o : OutputContext) (cs : List OutputCall) :
    cs.foldl OutputContext.call o = { o with calls := o.calls ++ cs } := by
  induction cs generalizing o with
  | nil => simp
  | cons c cs ih => simp [ih, OutputContext.call]

theorem stageOf_calls {o : OutputContext} {s : Stage} (h : stageOf o = some s)
    (cs : List OutputCall) :
    stageOf (cs.foldl OutputContext.call o) = cs.foldlM (Stage.next (0 ≤ o.writeHeaderRet)) s := by
  rw [foldl_call, stageOf, List.foldlM_append]
  rw [stageOf] at h
  rw [h]
  rfl

theorem stageOf_call {o : OutputContext} {s : Stage} (h : stageOf o = some s) (c : OutputCall) :
    stageOf (o.call c) = Stage.next (0 ≤ o.writeHeaderRet) s c :=
  (stageOf_calls h [c]).trans (by simp only [List.foldlM_cons, List.foldlM_nil, bind_pure])

theorem stageOf_new {o : OutputContext} (ho : o.calls = []) : stageOf o = some .created := by
  rw [stageOf, ho]
  rfl

theorem follows_of_stage {o : OutputContext} {s : Stage} (h : stageOf o = some s) : Follows o := by
  rw [Follows, h]
  rfl

namespace Delayer
variable {δ : Decoder} {η : Encoder} {fuel : ℕ}

/-- The header has been accepted if the handshake is done; else nothing has
been called. -/
def AtStage (d : Delayer δ η) : Prop :=
  stageOf d.outputFormatContext = some (if d.handshakeDone then .headed else .created)

def StopsInProtocol (_ : Halt) (d : Delayer δ η) : Prop := Follows d.outputFormatContext

theorem atStage_new {D : Int} {o : OutputContext} (ho : o.calls = []) (r : Replacer δ η)
    (url : String) : (new D o r url).AtStage := stageOf_new ho

theorem AtStage.follows {d : Delayer δ η} (h : d.AtStage) : Follows d.outputFormatContext :=
  follows_of_stage h

theorem writeHeader_stage {d : Delayer δ η}
    (h : stageOf d.outputFormatContext = some .created ∨
      stageOf d.outputFormatContext = some .opened) :
    d.writeHeader.Sat (fun d' => d'.handshakeDone = true ∧ d'.AtStage) StopsInProtocol := by
  have hcall : stageOf (d.outputFormatContext.call .avformatWriteHeader) =
      some (if 0 ≤ d.outputFormatContext.writeHeaderRet then .headed else .refused) := by
    rcases h with h | h
    · rw [stageOf_call h]
      simp [Stage.next]
    · rw [stageOf_call h]
      simp [Stage.next]
  rw [writeHeader]
  split_ifs with hret
  · exact follows_of_stage hcall
  · rw [if_pos (by omega)] at hcall
    exact ⟨rfl, hcall⟩

theorem handshake_stage {d : Delayer δ η} (h : d.AtStage) :
    d.handshake.Sat (fun d' => d'.handshakeDone = true ∧ d'.AtStage) StopsInProtocol := by
  rw [handshake]
  split_ifs with hdone hfile hopen
  · exact ⟨hdone, h⟩
  · rw [AtStage, if_neg hdone] at h
    exact writeHeader_stage (Or.inl h)
  · rw [AtStage, if_neg hdone] at h
    exact follows_of_stage (stageOf_call h (.avioOpen d.outUrl))
  · rw [AtStage, if_neg hdone] at h
    exact writeHeader_stage (Or.inr (stageOf_call h (.avioOpen d.outUrl)))

theorem popFront_stage {d : Delayer δ η} (hdone : d.handshakeDone = true) (h : d.AtStage)
    (p : AVPacket) (rest : List AVPacket) : (d.popFront p rest).AtStage := by
  rw [AtStage, if_pos hdone] at h
  have hcall := stageOf_call h (.avInterleavedWriteFrame p)
  rw [AtStage]
  exact hcall.trans (by rw [popFront, setTotal, outputCall, if_pos hdone]; rfl)

theorem flushLoop_stage {limit : Int} {q : List AVPacket} {d : Delayer δ η} (h : d.AtStage) :
    (flushLoop limit q d).Sat AtStage StopsInProtocol := by
  induction q generalizing d with
  | nil => exact h.follows
  | cons p rest ih =>
    rw [flushLoop]
    split_ifs
    · refine (handshake_stage h).bind ?_ fun _ _ hstop => hstop
      intro m hm
      exact ih (popFront_stage hm.1 hm.2 p rest)
    · exact h

theorem step_stage (fuel : ℕ) {d : Delayer δ η} (h : d.AtStage) (op : Op) :
    (step fuel d op).Sat AtStage StopsInProtocol := by
  have hflush : ∀ p, (d.enqueue p).flush.Sat AtStage StopsInProtocol := by
    intro p
    rw [flush]
    split
    · exact h.follows
    · split_ifs
      · exact flushLoop_stage h
      · exact h
  cases op with
  | pushVideoFrame p => exact hflush p.val
  | pushAudioFrame p => exact hflush p.val
  | replaceAudioPacket start stop =>
    rw [step, replaceAudioPacket]
    split
    · exact h.follows
    · exact h

/-! When the first packet is due. -/

/-- The counter after `ps` have been pushed and none of them released. -/
def totalAfter (ps : List AVPacket) : Int :=
  ps.foldl (fun ms p => narrowInt (ms + p.duration)) 0

/-- The counter is over the threshold, with and without the first packet. -/
def DueAt (deleySec : Int) (ps : List AVPacket) : Prop :=
  ∃ p ∈ ps.head?, 2000 * deleySec < totalAfter ps ∧
    2000 * deleySec < totalAfter ps - p.duration

def ReleaseDue (deleySec : Int) (ps : List AVPacket) : Prop :=
  ∃ pre, pre <+: ps ∧ DueAt deleySec pre

instance (deleySec : Int) (ps : List AVPacket) : Decidable (DueAt deleySec ps) :=
  inferInstanceAs (Decidable (∃ p ∈ ps.head?, _ ∧ _))

instance (deleySec : Int) (ps : List AVPacket) : Decidable (ReleaseDue deleySec ps) :=
  decidable_of_iff (∃ pre ∈ ps.inits, DueAt deleySec pre) (by simp [ReleaseDue])

theorem not_releaseDue_nil (D : Int) : ¬ ReleaseDue D [] := by
  intro h
  obtain ⟨pre, hpre, p, hp, _⟩ := h
  rw [List.prefix_nil.mp hpre] at hp
  cases hp

theorem releaseDue_concat {D : Int} {ps : List AVPacket} {p : AVPacket} :
    ReleaseDue D (ps ++ [p]) ↔ ReleaseDue D ps ∨ DueAt D (ps ++ [p]) := by
  constructor
  · intro h
    obtain ⟨pre, hpre, hdue⟩ := h
    rcases List.prefix_concat_iff.mp hpre with rfl | hpre
    · exact Or.inr hdue
    · exact Or.inl ⟨pre, hpre, hdue⟩
  · intro h
    rcases h with ⟨pre, hpre, hdue⟩ | hdue
    · exact ⟨pre, hpre.trans (List.prefix_append ps [p]), hdue⟩
    · exact ⟨ps ++ [p], List.prefix_refl _, hdue⟩

theorem totalAfter_concat (ps : List AVPacket) (p : AVPacket) :
    totalAfter (ps ++ [p]) = narrowInt (totalAfter ps + p.duration) := by
  simp [totalAfter]

/-- The handshake is done exactly when a packet has become due. -/
inductive Released (D : Int) (ps : List AVPacket) (d : Delayer δ η) : Prop
  | waiting (hdone : d.handshakeDone = false) (htotal : d.totalDeleyMs = totalAfter ps)
      (hqueue : List.Forall₂ Carries ps d.avPacket) (hdue : ¬ ReleaseDue D ps)
  | releasing (hdone : d.handshakeDone = true) (hdue : ReleaseDue D ps)

theorem Released.iff {D : Int} {ps : List AVPacket} {d : Delayer δ η} (h : Released D ps d) :
    d.handshakeDone = true ↔ ReleaseDue D ps := by
  cases h with
  | waiting hdone _ _ hdue => exact iff_of_false (by simp [hdone]) hdue
  | releasing hdone hdue => exact iff_of_true hdone hdue

theorem released_new (D : Int) (o : OutputContext) (r : Replacer δ η) (url : String) :
    Released D [] (new D o r url) :=
  .waiting rfl rfl List.Forall₂.nil (not_releaseDue_nil D)

theorem handshake_done {d d' : Delayer δ η} (h : d.handshake = .ok d') :
    d'.handshakeDone = true := by
  rw [(handshake_ok h).2]

theorem flushLoop_done {limit : Int} {q : List AVPacket} {d d' : Delayer δ η}
    (h : flushLoop limit q d = .ok d') (hdone : d.handshakeDone = true) :
    d'.handshakeDone = true := by
  induction q generalizing d with
  | nil => cases h
  | cons p rest ih =>
    rw [flushLoop] at h
    split_ifs at h
    · obtain ⟨m, hm, hrest⟩ := bind_eq_ok.mp h
      have hset := handshake_done hm
      exact ih hrest hset
    · cases h
      exact hdone

theorem flush_done {d d' : Delayer δ η} (h : d.flush = .ok d')
    (hdone : d.handshakeDone = true) : d'.handshakeDone = true := by
  rw [flush] at h
  split at h
  · simp at h
  · split_ifs at h
    · exact flushLoop_done h hdone
    · cases h
      exact hdone

theorem flush_waiting {d d' : Delayer δ η} {front : AVPacket} {rest : List AVPacket}
    (hq : d.avPacket = front :: rest) (h : d.flush = .ok d') :
    (d'.handshakeDone = true ∧ 2000 * d.deleySec < d.totalDeleyMs ∧
        2000 * d.deleySec < d.totalDeleyMs - front.duration) ∨
      d' = d ∧ ¬ (2000 * d.deleySec < d.totalDeleyMs ∧
        2000 * d.deleySec < d.totalDeleyMs - front.duration) := by
  rw [flush] at h
  split at h
  · simp at h
  · next limit hlimit =>
    rw [delayLimit_eq_some hlimit, hq] at h
    split_ifs at h with hover
    · rw [flushLoop] at h
      split_ifs at h with hfront
      · obtain ⟨m, hm, hrest⟩ := bind_eq_ok.mp h
        have hset := handshake_done hm
        exact Or.inl ⟨flushLoop_done hrest hset, hover, hfront⟩
      · cases h
        exact Or.inr ⟨rfl, fun hdue => hfront hdue.2⟩
    · cases h
      exact Or.inr ⟨rfl, fun hdue => hover hdue.1⟩

theorem Released.push {ps : List AVPacket} {d d' : Delayer δ η} {p : AVPacket}
    (h : Released d.deleySec ps d) (hflush : (d.enqueue p).flush = .ok d') :
    Released d.deleySec (ps ++ [p]) d' := by
  cases h with
  | releasing hdone hdue =>
    exact .releasing (flush_done hflush hdone) (releaseDue_concat.mpr (Or.inl hdue))
  | waiting hdone htotal hqueue hdue =>
    have hall : List.Forall₂ Carries (ps ++ [p]) (d.enqueue p).avPacket :=
      List.rel_append hqueue (List.Forall₂.cons (Carries.refl p) List.Forall₂.nil)
    have hcount : (d.enqueue p).totalDeleyMs = totalAfter (ps ++ [p]) := by
      rw [totalAfter_concat, ← htotal]
      rfl
    obtain ⟨first, others, hps⟩ := List.exists_cons_of_ne_nil (List.concat_ne_nil p ps)
    rw [hps] at hall
    obtain ⟨front, rest, hfront, _, hcons⟩ := List.forall₂_cons_left_iff.mp hall
    have hdueAt : DueAt d.deleySec (ps ++ [p]) ↔
        2000 * d.deleySec < (d.enqueue p).totalDeleyMs ∧
          2000 * d.deleySec < (d.enqueue p).totalDeleyMs - front.duration := by
      rw [DueAt, hcount, hps, hfront.duration]
      simp
    rcases flush_waiting hcons hflush with ⟨hdone', hover⟩ | ⟨rfl, hunder⟩
    · exact .releasing hdone' (releaseDue_concat.mpr (Or.inr (hdueAt.mpr hover)))
    · refine .waiting hdone hcount (hps ▸ hall) ?_
      intro hnow
      rcases releaseDue_concat.mp hnow with hold | hnew
      · exact hdue hold
      · exact hunder (hdueAt.mp hnew)

theorem Released.replace {D : Int} {ps : List AVPacket} {d d' : Delayer δ η} {start stop : Int}
    (h : Released D ps d) (hstep : d.replaceAudioPacket fuel start stop = .ok d') :
    Released D ps d' := by
  obtain ⟨qs, r', hloop, rfl⟩ := replaceAudioPacket_ok hstep
  cases h with
  | releasing hdone hdue => exact .releasing hdone hdue
  | waiting hdone htotal hqueue hdue =>
    exact .waiting hdone htotal (Carries.trans_list hqueue (replaceLoop_carries hloop)) hdue

theorem run_released {D : Int} {o : OutputContext} {r : Replacer δ η} {url : String}
    {ops : List Op} {d : Delayer δ η} (hrun : run fuel (new D o r url) ops = .ok d) :
    Released D (pushes ops) d := by
  have hall := run_history (h := [])
    (P := fun h (u : Delayer δ η) => u.deleySec = D ∧ Released D (pushes h) u) ?_
    ⟨rfl, released_new D o r url⟩ hrun
  · exact hall.2
  · intro h u op v hu hstep
    obtain ⟨rfl, hrel⟩ := hu
    refine ⟨(step_fixed hstep).1, ?_⟩
    cases hop : op.pushed with
    | some p =>
      rw [step_push hop] at hstep
      rw [pushes_concat hop]
      exact hrel.push hstep
    | none =>
      cases op with
      | pushVideoFrame q => cases hop
      | pushAudioFrame q => cases hop
      | replaceAudioPacket start stop =>
        rw [pushes_concat_replace]
        exact hrel.replace hstep

end Delayer

namespace Relay
variable {δ : Decoder} {ω : Resampler} {η : Encoder} {fuel : ℕ}

def StopsInProtocol (_ : Stop) (s : Relay δ ω η) : Prop :=
  Follows s.delayer.outputFormatContext

theorem call_stage {s : Relay δ ω η} (h : s.delayer.AtStage) (op : Delayer.Op) :
    (s.call fuel op).Sat (fun t => t.delayer.AtStage) StopsInProtocol := by
  have hstep := Delayer.step_stage fuel h op
  rw [call]
  split
  · next d hd =>
    rw [hd] at hstep
    exact hstep
  · next e d hd =>
    rw [hd] at hstep
    exact hstep

theorem step_stage {s : Relay δ ω η} (h : s.delayer.AtStage) (a : Action) :
    (step fuel s a).Sat (fun t => t.delayer.AtStage) StopsInProtocol := by
  cases a with
  | readFrame p sdk =>
    rw [step]
    split
    · rw [readFrame]
      split_ifs
      · exact call_stage h _
      · split
        · exact h.follows
        · exact h
      · exact h
    · exact h.follows
  | pushPending =>
    rw [step]
    split
    · exact h.follows
    · exact call_stage (s := { s with pending := none }) h _
  | sentenceEnd result => exact h
  | callback k =>
    rw [step]
    split
    · next c rest _ =>
      cases c with
      | sendSentence => exact h
      | hit item => exact h
      | replaceAudioPacket start stop => exact call_stage (s := s.setCallback k rest) h _
      | sendHitWord item => exact h
    · exact h.follows
  | restart t created => exact h

/-- Every run from a fresh output context is in protocol when it stops. -/
theorem run_stage (fuel : ℕ) {s : Relay δ ω η} (h : s.delayer.AtStage) (as : List Action) :
    (run fuel s as).Sat (fun t => t.delayer.AtStage) StopsInProtocol :=
  run_sat_invariant (fun _ a hs => step_stage hs a) h as

/-- At the end of the input the header has been written exactly when a packet
had become due. -/
theorem run_released {D : Int} {o : OutputContext} {r : Replacer δ η} {url : String}
    {s t : Relay δ ω η} (hs : s.delayer = Delayer.new D o r url) (hfree : s.pending = none)
    {as : List Action} (hrun : run fuel s as = .ok t) (hpending : t.pending = none) :
    t.delayer.handshakeDone = true ↔ Delayer.ReleaseDue D (s.selectedPackets as) := by
  have hqueue := run_delayer hrun
  have hselected := run_selected hrun
  have hbefore : s.unpushed = [] := by rw [unpushed, hfree]; rfl
  have hafter : t.unpushed = [] := by rw [unpushed, hpending]; rfl
  rw [hbefore, hafter, List.append_nil, List.nil_append] at hselected
  rw [hs] at hqueue
  rw [← hselected]
  exact (Delayer.run_released hqueue).iff

end Relay

namespace Relayer
variable {δ : Decoder} {ω : Resampler} {η : Encoder} {fuel : ℕ}

/-- Every call is made on a created context and follows the protocol. -/
def Ending.InProtocol (e : Ending) : Prop :=
  e.onNull = [] ∧ ∀ o ∈ e.output, Follows o

instance (e : Ending) : Decidable e.InProtocol :=
  inferInstanceAs (Decidable (_ ∧ ∀ o ∈ e.output, Follows o))

theorem destroy_none : ¬ (destroy none).InProtocol := by
  intro h
  cases h.1

theorem destroy_some_iff {o : OutputContext} {s : Stage} (h : stageOf o = some s) :
    (destroy (some o)).InProtocol ↔ s = .headed := by
  have hcalls := stageOf_calls h destructorCalls
  constructor
  · intro hin
    have hfollows := hin.2 _ rfl
    rw [Follows, hcalls] at hfollows
    cases s <;> first | rfl | cases hfollows
  · rintro rfl
    refine ⟨rfl, ?_⟩
    intro o' ho'
    cases ho'
    exact follows_of_stage hcalls

def sampleSettings : Settings := { outUrl := "out", delaySec := 1, maxSentenceSilenceMs := 200 }

def sampleReplies (openInput : Int) : InitReplies pcmDecoder pcmEncoder :=
  { openInput := openInput
    findStreamInfo := 0
    outputContext := some { noFile := false, avioOpenRet := 0, writeHeaderRet := 0 }
    streams := List.replicate 2 { newStream := true, parametersCopy := 0 }
    audioStreamIndex := 1
    videoStreamIndex := 0
    replacer :=
      { audioStreamIndex := 1
        decoderCtx := some none
        openDecoder := 0
        encoderFound := true
        encoderCtx := some none }
    expireTime := 0
    asrDecoderCtx := none
    pcmSrc := { nbChannels := 1, sampleRate := 16000, bytesPerSample := 1 }
    token := Asr.sampleToken
    request := some 0 }

def sampleVideo (pts duration : Int) : Action :=
  .readFrame (samplePacket 0 pts duration) (Asr.sampleSdk 0)

def sampleLong : List Action :=
  [sampleVideo 0 1000, sampleVideo 1000 1000, sampleVideo 2000 1000, sampleVideo 3000 1000]

example : (main plainResampler 4 sampleSettings (sampleReplies 0) [sampleVideo 0 40]).map
    (fun e => decide e.InProtocol) = some false := by decide

end Relayer

end RtmpRelay
