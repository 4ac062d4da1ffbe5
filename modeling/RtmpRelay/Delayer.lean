import RtmpRelay.DelayLine
import RtmpRelay.Replacer

/-!
# The delay queue

`pushVideoFrame` and `pushAudioFrame` append a packet, add its duration to
`totalDeleyMs` and flush; the flush pops the front packet while the counter
less the front's duration stays above `deleySec*1000*2`, opening the output
before the first packet. `replaceAudioPacket` replaces, in place, the queued
audio packets of a time window. Each of the three holds the mutex, so a run is
a sequence of whole calls.

`totals` records every value stored in `totalDeleyMs` before it is narrowed to
`int`. The three facts at the end of the module say once what a step can do;
everything about runs is derived from them.
-/

namespace RtmpRelay

open Machine Media

structure Delayer (δ : Decoder) (η : Encoder) where
  avPacket : List AVPacket
  deleySec : Int
  totalDeleyMs : Int
  outputFormatContext : OutputContext
  replacer : Replacer δ η
  handshakeDone : Bool
  outUrl : String
  totals : List Int

namespace Delayer
variable {δ : Decoder} {η : Encoder}

/-- The constructor followed by `setReplacer` and `setOutputUrl`. -/
def new (deleySec : Int) (o : OutputContext) (r : Replacer δ η) (outUrl : String) :
    Delayer δ η :=
  { avPacket := []
    deleySec := deleySec
    totalDeleyMs := 0
    outputFormatContext := o
    replacer := r
    handshakeDone := false
    outUrl := outUrl
    totals := [] }

/-! A delayer of one second on raw samples in stream 1, for concrete runs. -/

def sampleOutput : OutputContext :=
  { noFile := false, avioOpenRet := 0, writeHeaderRet := 0, calls := [] }

def sampleReplacer : Replacer pcmDecoder pcmEncoder :=
  { audioStreamIndex := 1, audioDecoderCtx := none, audioEncoderCtx := none }

def sampleDelayer : Delayer pcmDecoder pcmEncoder := new 1 sampleOutput sampleReplacer "out"

def written (d : Delayer δ η) : List AVPacket := d.outputFormatContext.written

def setTotal (d : Delayer δ η) (ms : Int) : Delayer δ η :=
  { d with totalDeleyMs := narrowInt ms, totals := d.totals ++ [ms] }

def outputCall (d : Delayer δ η) (c : OutputCall) : Delayer δ η :=
  { d with outputFormatContext := d.outputFormatContext.call c }

def writeHeader (d : Delayer δ η) : Outcome Halt (Delayer δ η) :=
  if d.outputFormatContext.writeHeaderRet < 0 then
    .halt .exit (d.outputCall .avformatWriteHeader)
  else .ok { d.outputCall .avformatWriteHeader with handshakeDone := true }

-- The block under `m_handshake_done == false`.
def handshake (d : Delayer δ η) : Outcome Halt (Delayer δ η) :=
  if d.handshakeDone then .ok d
  else if d.outputFormatContext.noFile then d.writeHeader
  else if d.outputFormatContext.avioOpenRet < 0 then
    .halt .exit (d.outputCall (.avioOpen d.outUrl))
  else (d.outputCall (.avioOpen d.outUrl)).writeHeader

def popFront (d : Delayer δ η) (p : AVPacket) (rest : List AVPacket) : Delayer δ η :=
  ({ d with avPacket := rest }.setTotal (d.totalDeleyMs - p.duration)).outputCall
    (.avInterleavedWriteFrame p)

-- `m_deley_sec*1000*2`, an `int` product.
def delayLimit (d : Delayer δ η) : Option Int := do
  let ms ← mulInt d.deleySec 1000
  mulInt ms 2

/-- The `while(true)` of `flush`, on the packets in the queue. It has no test
for an empty queue: with nothing left it takes `front()` of an empty list. -/
def flushLoop (limit : Int) : List AVPacket → Delayer δ η → Outcome Halt (Delayer δ η)
  | [], d => .halt .emptyFront d
  | p :: rest, d =>
    if d.totalDeleyMs - p.duration > limit then
      d.handshake.bind fun d => flushLoop limit rest (d.popFront p rest)
    else .ok d

def flush (d : Delayer δ η) : Outcome Halt (Delayer δ η) :=
  match d.delayLimit with
  | none => .halt .intOverflow d
  | some limit =>
    if d.totalDeleyMs > limit then flushLoop limit d.avPacket d else .ok d

def enqueue (d : Delayer δ η) (pkt : AVPacket) : Delayer δ η :=
  { d with avPacket := d.avPacket ++ [pkt] }.setTotal (d.totalDeleyMs + pkt.duration)

def pushVideoFrame (d : Delayer δ η) (pkt : AVPacket) : Outcome Halt (Delayer δ η) :=
  (d.enqueue pkt).flush

def pushAudioFrame (d : Delayer δ η) (pkt : AVPacket) : Outcome Halt (Delayer δ η) :=
  (d.enqueue pkt).flush

def InWindow (audioIndex start stop : Int) (p : AVPacket) : Prop :=
  p.streamIndex = audioIndex ∧ start - 200 ≤ p.pts ∧ p.pts ≤ stop

instance (audioIndex start stop : Int) (p : AVPacket) :
    Decidable (InWindow audioIndex start stop p) := inferInstanceAs (Decidable (_ ∧ _ ∧ _))

-- The range-for of `replaceAudioPacket`, each packet with the exit its replacement took.
def replaceLoop (fuel : ℕ) (start stop : Int) :
    List AVPacket → Replacer δ η → Except Halt (List (AVPacket × Option MuteExit) × Replacer δ η)
  | [], r => .ok ([], r)
  | p :: ps, r =>
    if InWindow r.getAudioIndex start stop p then
      match r.replaceAudioToMute fuel p with
      | .error e => .error e
      | .ok (out, x, r) =>
        match replaceLoop fuel start stop ps r with
        | .error e => .error e
        | .ok (qs, r) => .ok ((out, some x) :: qs, r)
    else
      match replaceLoop fuel start stop ps r with
      | .error e => .error e
      | .ok (qs, r) => .ok ((p, none) :: qs, r)

def replaceAudioPacket (fuel : ℕ) (d : Delayer δ η) (start stop : Int) :
    Outcome Halt (Delayer δ η) :=
  match replaceLoop fuel start stop d.avPacket d.replacer with
  | .error e => .halt e d
  | .ok (qs, r) => .ok { d with avPacket := qs.map Prod.fst, replacer := r }

/-- The exit each queued packet takes in a call of `replaceAudioPacket`. -/
def exits (fuel : ℕ) (d : Delayer δ η) (start stop : Int) : List (Option MuteExit) :=
  match replaceLoop fuel start stop d.avPacket d.replacer with
  | .error _ => []
  | .ok (qs, _) => qs.map Prod.snd

/-! A run is any sequence of the three locked calls. -/

inductive Op
  | pushVideoFrame (p : DemuxedPacket)
  | pushAudioFrame (p : DemuxedPacket)
  | replaceAudioPacket (start stop : Int)

def Op.isReplace : Op → Bool
  | .replaceAudioPacket _ _ => true
  | _ => false

def Op.pushed : Op → Option AVPacket
  | .pushVideoFrame p => some p.val
  | .pushAudioFrame p => some p.val
  | .replaceAudioPacket _ _ => none

def pushes (ops : List Op) : List AVPacket := ops.filterMap Op.pushed

def step (fuel : ℕ) (d : Delayer δ η) : Op → Outcome Halt (Delayer δ η)
  | .pushVideoFrame p => d.pushVideoFrame p
  | .pushAudioFrame p => d.pushAudioFrame p
  | .replaceAudioPacket start stop => d.replaceAudioPacket fuel start stop

theorem step_push {fuel : ℕ} {d : Delayer δ η} {op : Op} {p : AVPacket}
    (hop : op.pushed = some p) : step fuel d op = (d.enqueue p).flush := by
  cases op with
  | pushVideoFrame q => rw [← Option.some.inj hop, step, pushVideoFrame]
  | pushAudioFrame q => rw [← Option.some.inj hop, step, pushAudioFrame]
  | replaceAudioPacket start stop => cases hop

def run (fuel : ℕ) (d : Delayer δ η) (ops : List Op) : Outcome Halt (Delayer δ η) :=
  Machine.run (step fuel) d ops

def packets (d : Delayer δ η) : List AVPacket := d.written ++ d.avPacket

theorem packets_length (d : Delayer δ η) :
    d.packets.length = d.written.length + d.avPacket.length := List.length_append

theorem written_new {D : Int} {o : OutputContext} {r : Replacer δ η} {url : String}
    (ho : o.calls = []) : (new D o r url).written = [] := by
  change o.calls.filterMap OutputCall.frame = []
  rw [ho]
  rfl

theorem packets_new {D : Int} {o : OutputContext} {r : Replacer δ η} {url : String}
    (ho : o.calls = []) : (new D o r url).packets = [] := by
  rw [packets, written_new ho]
  rfl

/-! What a push can do. -/

theorem outputCall_eq (d : Delayer δ η) {c : OutputCall} (hc : c.frame = none) :
    (d.outputCall c).written = d.written :=
  d.outputFormatContext.written_other hc

theorem writeHeader_ok {d d' : Delayer δ η} (h : d.writeHeader = .ok d') :
    d'.written = d.written ∧
      d' = { d with outputFormatContext := d'.outputFormatContext, handshakeDone := true } := by
  simp only [writeHeader] at h
  split_ifs at h
  cases h
  exact ⟨d.outputCall_eq rfl, rfl⟩

theorem handshake_ok {d d' : Delayer δ η} (h : d.handshake = .ok d') :
    d'.written = d.written ∧
      d' = { d with outputFormatContext := d'.outputFormatContext, handshakeDone := true } := by
  simp only [handshake] at h
  split_ifs at h with hdone
  · cases h
    refine ⟨rfl, ?_⟩
    rw [← hdone]
  · exact writeHeader_ok h
  · obtain ⟨hw, heq⟩ := writeHeader_ok h
    exact ⟨hw.trans (d.outputCall_eq rfl), heq⟩

theorem popFront_written (d : Delayer δ η) (p : AVPacket) (rest : List AVPacket) :
    (d.popFront p rest).written = d.written ++ [p] :=
  d.outputFormatContext.written_frame p

theorem flushLoop_ok {limit : Int} {q : List AVPacket} {d d' : Delayer δ η}
    (hq : d.avPacket = q) (h : flushLoop limit q d = .ok d') :
    d'.packets = d.packets ∧ d.written.length ≤ d'.written.length ∧ d'.avPacket ≠ [] ∧
      d'.replacer = d.replacer ∧ d'.deleySec = d.deleySec ∧ d.totals ⊆ d'.totals := by
  induction q generalizing d with
  | nil => cases h
  | cons p rest ih =>
    rw [flushLoop] at h
    split_ifs at h
    · obtain ⟨m, hm, hrest⟩ := Outcome.bind_eq_ok.mp h
      obtain ⟨hw, heq⟩ := handshake_ok hm
      have hpop := popFront_written m p rest
      obtain ⟨hp, hlen, hne, hr, hd, ht⟩ := ih rfl hrest
      refine ⟨?_, ?_, hne, hr.trans ?_, hd.trans ?_, ?_⟩
      · rw [hp, packets, packets, hpop, hw, hq, List.append_assoc]
        rfl
      · rw [hpop, hw, List.length_append] at hlen
        omega
      · change m.replacer = d.replacer
        rw [heq]
      · change m.deleySec = d.deleySec
        rw [heq]
      · intro v hv
        apply ht
        change v ∈ m.totals ++ [m.totalDeleyMs - p.duration]
        rw [heq]
        exact List.mem_append_left _ hv
    · cases h
      exact ⟨rfl, le_rfl, by simp [hq], rfl, rfl, fun _ hv => hv⟩

/-- `d'` is `d` after a push of `p`: the packets taken grow by `p`, some of
them may have been written, and the queue is not empty. -/
structure Pushed (d : Delayer δ η) (p : AVPacket) (d' : Delayer δ η) : Prop where
  packets_eq : d'.packets = d.packets ++ [p]
  written_le : d.written.length ≤ d'.written.length
  queue_ne : d'.avPacket ≠ []
  replacer_eq : d'.replacer = d.replacer
  deleySec_eq : d'.deleySec = d.deleySec
  totals_sub : d.totals ++ [d.totalDeleyMs + p.duration] ⊆ d'.totals
  delayLimit_ne : d.delayLimit ≠ none

theorem enqueue_packets (d : Delayer δ η) (p : AVPacket) :
    (d.enqueue p).packets = d.packets ++ [p] :=
  (List.append_assoc d.written d.avPacket [p]).symm

theorem flush_pushed {d d' : Delayer δ η} {p : AVPacket} (h : (d.enqueue p).flush = .ok d') :
    Pushed d p d' := by
  simp only [flush] at h
  split at h
  · simp at h
  · next limit hlim =>
    have hsome : d.delayLimit ≠ none := by
      intro hnone
      cases hnone.symm.trans hlim
    split_ifs at h
    · obtain ⟨hp, hlen, hne, hr, hd, ht⟩ := flushLoop_ok rfl h
      exact ⟨hp.trans (enqueue_packets d p), hlen, hne, hr, hd, ht, hsome⟩
    · cases h
      exact ⟨enqueue_packets d p, le_rfl, by simp [enqueue, setTotal], rfl, rfl,
        fun _ hv => hv, hsome⟩

/-! What a replacement can do. -/

def Replaced (audioIndex start stop : Int) (p : AVPacket) (q : AVPacket × Option MuteExit) :
    Prop :=
  if InWindow audioIndex start stop p then
    (q.2 = some .muted ∧ q.1.data.isMuted = true ∧ q.1.timing = p.timing) ∨
      (∃ x, x ≠ MuteExit.muted ∧ q.2 = some x ∧ q.1 = p)
  else q.1 = p ∧ q.2 = none

/-- One turn of the loop of `replaceAudioPacket` that comes to an end. -/
inductive Turn (fuel : ℕ) (start stop : Int) (p : AVPacket) (r : Replacer δ η) :
    AVPacket × Option MuteExit → Replacer δ η → Prop
  | inside {out : AVPacket} {x : MuteExit} {r' : Replacer δ η}
      (hin : InWindow r.getAudioIndex start stop p)
      (hmute : r.replaceAudioToMute fuel p = .ok (out, x, r')) :
      Turn fuel start stop p r (out, some x) r'
  | outside (hout : ¬ InWindow r.getAudioIndex start stop p) :
      Turn fuel start stop p r (p, none) r

theorem Turn.loop {fuel : ℕ} {start stop : Int} {p : AVPacket} {r s : Replacer δ η}
    {q : AVPacket × Option MuteExit} (h : Turn fuel start stop p r q s) (ps : List AVPacket) :
    replaceLoop fuel start stop (p :: ps) r =
      (replaceLoop fuel start stop ps s).map fun y => (q :: y.1, y.2) := by
  rw [replaceLoop]
  cases h with
  | inside hin hmute =>
    rw [if_pos hin, hmute]
    dsimp only
    cases replaceLoop fuel start stop ps s with
    | error e => rfl
    | ok y => rfl
  | outside hout =>
    rw [if_neg hout]
    cases replaceLoop fuel start stop ps r with
    | error e => rfl
    | ok y => rfl

theorem turn_or_error (fuel : ℕ) (start stop : Int) (p : AVPacket) (r : Replacer δ η) :
    (∃ q s, Turn fuel start stop p r q s) ∨
      InWindow r.getAudioIndex start stop p ∧ ∃ e, r.replaceAudioToMute fuel p = .error e := by
  by_cases hin : InWindow r.getAudioIndex start stop p
  · cases hmute : r.replaceAudioToMute fuel p with
    | error e => exact Or.inr ⟨hin, e, rfl⟩
    | ok y => exact Or.inl ⟨_, _, .inside hin hmute⟩
  · exact Or.inl ⟨_, _, .outside hin⟩

theorem replaceLoop_cons_ok {fuel : ℕ} {start stop : Int} {p : AVPacket} {ps : List AVPacket}
    {r t : Replacer δ η} {qs : List (AVPacket × Option MuteExit)}
    (h : replaceLoop fuel start stop (p :: ps) r = .ok (qs, t)) :
    ∃ q s rest, Turn fuel start stop p r q s ∧
      replaceLoop fuel start stop ps s = .ok (rest, t) ∧ qs = q :: rest := by
  rcases turn_or_error fuel start stop p r with ⟨q, s, hturn⟩ | ⟨hin, e, hmute⟩
  · rw [hturn.loop] at h
    cases hloop : replaceLoop fuel start stop ps s with
    | error e =>
      rw [hloop] at h
      cases h
    | ok y =>
      rw [hloop] at h
      cases h
      exact ⟨q, s, y.1, hturn, hloop, rfl⟩
  · rw [replaceLoop, if_pos hin, hmute] at h
    cases h

theorem replaceLoop_cons_error {fuel : ℕ} {start stop : Int} {p : AVPacket}
    {ps : List AVPacket} {r : Replacer δ η} {e : Halt}
    (h : replaceLoop fuel start stop (p :: ps) r = .error e) :
    (∃ q s, Turn fuel start stop p r q s ∧ replaceLoop fuel start stop ps s = .error e) ∨
      InWindow r.getAudioIndex start stop p ∧ r.replaceAudioToMute fuel p = .error e := by
  rcases turn_or_error fuel start stop p r with ⟨q, s, hturn⟩ | ⟨hin, e', hmute⟩
  · rw [hturn.loop] at h
    cases hloop : replaceLoop fuel start stop ps s with
    | error e' =>
      rw [hloop] at h
      cases h
      exact Or.inl ⟨q, s, hturn, hloop⟩
    | ok y =>
      rw [hloop] at h
      cases h
  · rw [replaceLoop, if_pos hin, hmute] at h
    cases h
    exact Or.inr ⟨hin, hmute⟩

theorem Turn.replaced {fuel : ℕ} {start stop : Int} {p : AVPacket} {r s : Replacer δ η}
    {q : AVPacket × Option MuteExit} (h : Turn fuel start stop p r q s) :
    s.getAudioIndex = r.getAudioIndex ∧ Replaced r.getAudioIndex start stop p q := by
  cases h with
  | @inside out x s hin hmute =>
    obtain ⟨hidx, hout⟩ := Replacer.replaceAudioToMute_returns hmute
    refine ⟨hidx, ?_⟩
    rw [Replaced, if_pos hin]
    rcases hout with ⟨rfl, hmuted, htime⟩ | ⟨hx, rfl⟩
    · refine Or.inl ⟨rfl, hmuted, htime.trans ?_⟩
      rw [AVPacket.timing, hin.1]
      rfl
    · exact Or.inr ⟨x, hx, rfl, rfl⟩
  | outside hout =>
    rw [Replaced, if_neg hout]
    exact ⟨rfl, rfl, rfl⟩

theorem replaceLoop_ok {fuel : ℕ} {start stop : Int} {ps : List AVPacket}
    {r r' : Replacer δ η} {qs : List (AVPacket × Option MuteExit)}
    (h : replaceLoop fuel start stop ps r = .ok (qs, r')) :
    r'.getAudioIndex = r.getAudioIndex ∧
      List.Forall₂ (Replaced r.getAudioIndex start stop) ps qs := by
  induction ps generalizing r qs with
  | nil =>
    cases h
    exact ⟨rfl, List.Forall₂.nil⟩
  | cons p ps ih =>
    obtain ⟨q, s, rest, hturn, hrest, rfl⟩ := replaceLoop_cons_ok h
    obtain ⟨hidx, hq⟩ := hturn.replaced
    obtain ⟨hidx', hqs⟩ := ih hrest
    rw [hidx] at hidx' hqs
    exact ⟨hidx', List.Forall₂.cons hq hqs⟩

theorem replaceLoop_error {fuel : ℕ} {start stop : Int} {ps : List AVPacket}
    {r : Replacer δ η} {e : Halt} (h : replaceLoop fuel start stop ps r = .error e) :
    e = .noReturn ∨ e = .planeWrite := by
  induction ps generalizing r with
  | nil => cases h
  | cons p ps ih =>
    rcases replaceLoop_cons_error h with ⟨q, s, -, hrest⟩ | ⟨-, hmute⟩
    · exact ih hrest
    · exact Replacer.replaceAudioToMute_error hmute

theorem replaceAudioPacket_ok {fuel : ℕ} {d d' : Delayer δ η} {start stop : Int}
    (h : d.replaceAudioPacket fuel start stop = .ok d') :
    ∃ qs r', replaceLoop fuel start stop d.avPacket d.replacer = .ok (qs, r') ∧
      d' = { d with avPacket := qs.map Prod.fst, replacer := r' } := by
  simp only [replaceAudioPacket] at h
  split at h
  · simp at h
  · next qs r' hloop =>
    cases h
    exact ⟨qs, r', hloop, rfl⟩

theorem exits_eq {fuel : ℕ} {d : Delayer δ η} {start stop : Int}
    {qs : List (AVPacket × Option MuteExit)} {r' : Replacer δ η}
    (hloop : replaceLoop fuel start stop d.avPacket d.replacer = .ok (qs, r')) :
    d.exits fuel start stop = qs.map Prod.snd := by
  rw [exits, hloop]

theorem exits_length_le (fuel : ℕ) (d : Delayer δ η) (start stop : Int) :
    (d.exits fuel start stop).length ≤ d.avPacket.length := by
  simp only [exits]
  split
  · exact Nat.zero_le _
  · next hloop =>
    rw [List.length_map]
    exact (replaceLoop_ok hloop).2.length_eq.ge

end Delayer

end RtmpRelay
