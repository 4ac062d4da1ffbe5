import RtmpRelay.PacketHistory

/-!
# Muting leaves the timeline alone

Two delayers agree when they differ at most in payloads and codec contexts. A
replacement keeps a delayer in agreement with itself, whatever its codec calls
answer, and a push takes agreeing delayers to agreeing outcomes. So a run and
the same run without its replacements write packets with the same timing at the
same pushes.
-/

namespace RtmpRelay

open Machine Machine.Outcome Media

def Media.AVPacket.blank (p : AVPacket) : AVPacket := { p with data := .demuxed [] }

def Media.OutputCall.blank : OutputCall → OutputCall
  | .avInterleavedWriteFrame p => .avInterleavedWriteFrame p.blank
  | c => c

theorem Media.AVPacket.blank_eq {p q : AVPacket} (h : p.timing = q.timing) :
    p.blank = q.blank := by
  cases p
  cases q
  simp_all [AVPacket.timing, AVPacket.blank]

theorem Media.OutputCall.frame_blank (c : OutputCall) :
    c.blank.frame = c.frame.map AVPacket.blank := by
  cases c <;> rfl

def Media.OutputContext.blank (o : OutputContext) : OutputContext :=
  { o with calls := o.calls.map OutputCall.blank }

theorem Media.OutputContext.blank_call (o : OutputContext) (c : OutputCall) :
    (o.call c).blank = o.blank.call c.blank := by
  simp [OutputContext.blank, OutputContext.call]

theorem Media.OutputContext.written_blank (o : OutputContext) :
    o.blank.written = o.written.map AVPacket.blank := by
  simp only [OutputContext.written, OutputContext.blank, List.filterMap_map, List.map_filterMap]
  congr 1
  funext c
  exact OutputCall.frame_blank c

namespace Delayer
variable {δ : Decoder} {η : Encoder} {fuel : ℕ} {d d' : Delayer δ η}

structure Agree (d d' : Delayer δ η) : Prop where
  queue : d.avPacket.map AVPacket.timing = d'.avPacket.map AVPacket.timing
  output : d.outputFormatContext.blank = d'.outputFormatContext.blank
  deleySec : d.deleySec = d'.deleySec
  totalDeleyMs : d.totalDeleyMs = d'.totalDeleyMs
  handshakeDone : d.handshakeDone = d'.handshakeDone
  outUrl : d.outUrl = d'.outUrl

theorem Agree.refl (d : Delayer δ η) : Agree d d := ⟨rfl, rfl, rfl, rfl, rfl, rfl⟩

theorem Agree.noFile (h : Agree d d') :
    d.outputFormatContext.noFile = d'.outputFormatContext.noFile := by
  have hfield := congrArg OutputContext.noFile h.output
  exact hfield

theorem Agree.avioOpenRet (h : Agree d d') :
    d.outputFormatContext.avioOpenRet = d'.outputFormatContext.avioOpenRet := by
  have hfield := congrArg OutputContext.avioOpenRet h.output
  exact hfield

theorem Agree.writeHeaderRet (h : Agree d d') :
    d.outputFormatContext.writeHeaderRet = d'.outputFormatContext.writeHeaderRet := by
  have hfield := congrArg OutputContext.writeHeaderRet h.output
  exact hfield

theorem Agree.written (h : Agree d d') :
    d.written.map AVPacket.timing = d'.written.map AVPacket.timing := by
  have hblank := congrArg OutputContext.written h.output
  rw [OutputContext.written_blank, OutputContext.written_blank] at hblank
  have htiming := congrArg (List.map AVPacket.timing) hblank
  rw [List.map_map, List.map_map] at htiming
  exact htiming

theorem Agree.outputCall (h : Agree d d') {c c' : OutputCall} (hc : c.blank = c'.blank) :
    Agree (d.outputCall c) (d'.outputCall c') := by
  refine ⟨h.queue, ?_, h.deleySec, h.totalDeleyMs, h.handshakeDone, h.outUrl⟩
  change (d.outputFormatContext.call c).blank = (d'.outputFormatContext.call c').blank
  rw [OutputContext.blank_call, OutputContext.blank_call, h.output, hc]

theorem Agree.setTotal (h : Agree d d') (ms : Int) : Agree (d.setTotal ms) (d'.setTotal ms) :=
  ⟨h.queue, h.output, h.deleySec, rfl, h.handshakeDone, h.outUrl⟩

theorem Agree.writeHeader (h : Agree d d') : Rel Agree d.writeHeader d'.writeHeader := by
  have hcall : Agree (d.outputCall .avformatWriteHeader) (d'.outputCall .avformatWriteHeader) :=
    h.outputCall rfl
  simp only [Delayer.writeHeader]
  rw [h.writeHeaderRet]
  split_ifs
  · exact ⟨rfl, hcall⟩
  · exact ⟨hcall.queue, hcall.output, hcall.deleySec, hcall.totalDeleyMs, rfl, hcall.outUrl⟩

theorem Agree.handshake (h : Agree d d') : Rel Agree d.handshake d'.handshake := by
  have hopen : Agree (d.outputCall (.avioOpen d.outUrl)) (d'.outputCall (.avioOpen d'.outUrl)) :=
    h.outputCall (by rw [h.outUrl])
  simp only [Delayer.handshake]
  rw [h.handshakeDone, h.noFile, h.avioOpenRet]
  split_ifs
  · exact h
  · exact h.writeHeader
  · exact ⟨rfl, hopen⟩
  · exact hopen.writeHeader

theorem Agree.popFront (h : Agree d d') {p p' : AVPacket} {rest rest' : List AVPacket}
    (hp : p.timing = p'.timing)
    (hrest : rest.map AVPacket.timing = rest'.map AVPacket.timing) :
    Agree (d.popFront p rest) (d'.popFront p' rest') := by
  have hqueue : Agree { d with avPacket := rest } { d' with avPacket := rest' } :=
    ⟨hrest, h.output, h.deleySec, h.totalDeleyMs, h.handshakeDone, h.outUrl⟩
  have hdur : p.duration = p'.duration := congrArg (fun t => t.2.2.2) hp
  have hpop := hqueue.setTotal (d.totalDeleyMs - p.duration)
  simp only [Delayer.popFront]
  rw [← h.totalDeleyMs, ← hdur]
  exact hpop.outputCall (congrArg OutputCall.avInterleavedWriteFrame (AVPacket.blank_eq hp))

theorem Agree.flushLoop {limit : Int} {q q' : List AVPacket}
    (hq : q.map AVPacket.timing = q'.map AVPacket.timing) (h : Agree d d') :
    Rel Agree (flushLoop limit q d) (flushLoop limit q' d') := by
  induction q generalizing q' d d' with
  | nil =>
    cases q' with
    | nil => exact ⟨rfl, h⟩
    | cons p' rest' => simp at hq
  | cons p rest ih =>
    cases q' with
    | nil => simp at hq
    | cons p' rest' =>
      obtain ⟨hp, hrest⟩ := List.cons.inj hq
      have hdur : p.duration = p'.duration := congrArg (fun t => t.2.2.2) hp
      rw [Delayer.flushLoop, Delayer.flushLoop, h.totalDeleyMs, hdur]
      split_ifs
      · exact h.handshake.bind fun s t hst => ih hrest (hst.popFront hp hrest)
      · exact h

theorem Agree.flush (h : Agree d d') : Rel Agree d.flush d'.flush := by
  have hlim : d.delayLimit = d'.delayLimit := by
    simp only [delayLimit]
    rw [h.deleySec]
  simp only [Delayer.flush]
  rw [hlim, h.totalDeleyMs]
  split
  · exact ⟨rfl, h⟩
  · split_ifs
    · exact Agree.flushLoop h.queue h
    · exact h

theorem Agree.enqueue (h : Agree d d') (p : AVPacket) : Agree (d.enqueue p) (d'.enqueue p) := by
  have hqueue : Agree { d with avPacket := d.avPacket ++ [p] }
      { d' with avPacket := d'.avPacket ++ [p] } := by
    refine ⟨?_, h.output, h.deleySec, h.totalDeleyMs, h.handshakeDone, h.outUrl⟩
    rw [List.map_append, List.map_append, h.queue]
  simp only [Delayer.enqueue]
  rw [h.totalDeleyMs]
  exact hqueue.setTotal _

theorem Agree.step_push (h : Agree d d') {op : Op} (hop : op.isReplace = false) :
    Rel Agree (step fuel d op) (step fuel d' op) := by
  cases op with
  | pushVideoFrame p => exact (h.enqueue p.val).flush
  | pushAudioFrame p => exact (h.enqueue p.val).flush
  | replaceAudioPacket start stop => simp [Op.isReplace] at hop

theorem Agree.step_replace {s t s' : Delayer δ η} (h : Agree s t) {op : Op}
    (hop : op.isReplace = true) (hst : step fuel s op = .ok s') : Agree s' t := by
  rcases step_ok hst with ⟨_, _, hno, _⟩ | ⟨start, stop, qs, r', _, hloop, rfl⟩
  · rw [hop] at hno
    simp at hno
  · refine ⟨?_, h.output, h.deleySec, h.totalDeleyMs, h.handshakeDone, h.outUrl⟩
    rw [← h.queue]
    exact Carries.timing_list (replaceLoop_carries hloop)

def pushOnly (ops : List Op) : List Op := ops.filter fun op => !op.isReplace

theorem run_agree (d : Delayer δ η) (ops : List Op) :
    HaltsAt (step fuel) Op.isReplace d ops ∨
      Rel Agree (run fuel d ops) (run fuel d (pushOnly ops)) :=
  run_lockstep (fun _ _ _ _ hR hop hst => hR.step_replace hop hst)
    (fun _ _ _ hR hop => hR.step_push hop) (Agree.refl d) ops

/-- After every step of a run whose replacements all return, the run and its
pushes alone have written packets with the same timing, in the same order, and
have the same counter and header state; and they halt alike. -/
theorem muting_keeps_timeline (fuel : ℕ) (d : Delayer δ η) (ops : List Op)
    (hreturn : ¬ HaltsAt (step fuel) Op.isReplace d ops) {pre : List Op} (hpre : pre <+: ops) :
    Rel (fun s t => s.written.map AVPacket.timing = t.written.map AVPacket.timing ∧
        s.totalDeleyMs = t.totalDeleyMs ∧ s.handshakeDone = t.handshakeDone)
      (run fuel d pre) (run fuel d (pushOnly pre)) := by
  obtain ⟨post, rfl⟩ := hpre
  rcases run_agree d pre with hhalt | hrel
  · exact absurd (hhalt.append post) hreturn
  · exact hrel.imp fun s t hst => ⟨hst.written, hst.totalDeleyMs, hst.handshakeDone⟩

theorem muting_keeps_timeline_sample :
    ∃ s t, run 4 sampleDelayer [.pushAudioFrame (samplePacket 1 0 100), .replaceAudioPacket 0 50,
        .pushVideoFrame (samplePacket 0 0 3000)] = ok s ∧
      run 4 sampleDelayer [.pushAudioFrame (samplePacket 1 0 100),
        .pushVideoFrame (samplePacket 0 0 3000)] = ok t ∧
      s.written.map AVPacket.timing = t.written.map AVPacket.timing ∧ s.written ≠ t.written := by
  have hrel := muting_keeps_timeline 4 sampleDelayer
    [.pushAudioFrame (samplePacket 1 0 100), .replaceAudioPacket 0 50,
      .pushVideoFrame (samplePacket 0 0 3000)] (not_haltsAt_of_ok rfl) (List.prefix_refl _)
  exact ⟨_, _, rfl, rfl, hrel.1, by decide⟩

end Delayer

end RtmpRelay
