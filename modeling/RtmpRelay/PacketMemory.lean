import RtmpRelay.OwnedHeap
import RtmpRelay.Relay

/-!
# Packets and frames as objects

The relay as the code has it: the queue holds addresses, and packets and
frames are allocated and freed. An access to an address that was freed, and a
second `free`, are crashes. `delayer` stands for the fields of the queue other
than the queue itself, and so does `relay` for those of the relay.
-/

namespace RtmpRelay.PacketMemory

open Machine Media OwnedHeap Delayer

inductive Object
  | packet (p : AVPacket)
  | frame (f : AVFrame)
  deriving DecidableEq, Repr

inductive Crash
  | badAccess
  | badFree
  | stopped (s : Stop)
  deriving DecidableEq, Repr

/-- `AV_NOPTS_VALUE` -/
def noPts : Int := -9223372036854775808

def blankPacket : AVPacket :=
  { streamIndex := 0, pts := noPts, dts := noPts, duration := 0, data := .demuxed [] }

def blankFrame : AVFrame := { nbSamples := 0, data := [] }

def readPacket (h : Heap Object) (a : ℕ) : Except Crash AVPacket :=
  match h.load a with
  | some (.packet p) => .ok p
  | _ => .error .badAccess

def readFrameData (h : Heap Object) (a : ℕ) : Except Crash AVFrame :=
  match h.load a with
  | some (.frame f) => .ok f
  | _ => .error .badAccess

def write (h : Heap Object) (a : ℕ) (x : Object) : Except Crash (Heap Object) :=
  match h.store a x with
  | some h => .ok h
  | none => .error .badAccess

def free (h : Heap Object) (a : ℕ) : Except Crash (Heap Object) :=
  match h.free a with
  | some h => .ok h
  | none => .error .badFree

def halted {α : Type*} (e : Halt) : Except Crash α := .error (.stopped (.halted e))

section replacer
variable {δ : Decoder} {η : Encoder}

def encodeMuted (fuel : ℕ) (h : Heap Object) (r : Replacer δ η) (packet frame : ℕ)
    (orig : AVPacket) : Except Crash (ℕ × Heap Object × Replacer δ η) := do
  let f ← readFrameData h frame
  match η.sendFrameLoop f fuel r.audioEncoderCtx with
  | none => halted .noReturn
  | some (.error _, ctx) =>
    let h ← free h frame
    .ok (packet, h, { r with audioEncoderCtx := ctx })
  | some (.ok (), ctx) =>
    let out := h.alloc (.packet blankPacket)
    match η.receivePacketLoop f fuel (ctx, []) with
    | none => halted .noReturn
    | some (.error _, ctx, _) =>
      let h ← free out.2 frame
      let h ← free h out.1
      .ok (packet, h, { r with audioEncoderCtx := ctx })
    | some (.ok (), ctx, bytes) =>
      let h ← write out.2 out.1 (.packet
        { streamIndex := r.audioStreamIndex
          pts := orig.pts
          dts := orig.dts
          duration := orig.duration
          data := .encoded bytes })
      let h ← free h frame
      let h ← free h packet
      .ok (out.1, h, { r with audioEncoderCtx := ctx })

def replaceAudioToMute (fuel : ℕ) (h : Heap Object) (r : Replacer δ η) (packet : ℕ) :
    Except Crash (ℕ × Heap Object × Replacer δ η) := do
  let orig ← readPacket h packet
  match δ.sendPacketLoop orig fuel r.audioDecoderCtx with
  | none => halted .noReturn
  | some (.error _, ctx) => .ok (packet, h, { r with audioDecoderCtx := ctx })
  | some (.ok (), ctx) =>
    let frame := h.alloc (.frame blankFrame)
    match δ.receiveFrameLoop orig fuel (ctx, blankFrame) with
    | none => halted .noReturn
    | some (.error _, ctx, _) =>
      let h ← free frame.2 frame.1
      .ok (packet, h, { r with audioDecoderCtx := ctx })
    | some (.ok (), ctx, decoded) =>
      match Replacer.zeroSamples (δ.nbChannels ctx) (δ.bytesPerSample ctx) decoded with
      | none => halted .planeWrite
      | some zeroed =>
        let h ← write frame.2 frame.1 (.frame zeroed)
        encodeMuted fuel h { r with audioDecoderCtx := ctx } packet frame.1 orig

end replacer

section queue
variable {δ : Decoder} {η : Encoder}

structure Queue (δ : Decoder) (η : Encoder) where
  heap : Heap Object
  avPacket : List ℕ
  delayer : Delayer δ η

def flushLoop (limit : Int) : List ℕ → Queue δ η → Except Crash (Queue δ η)
  | [], _ => halted .emptyFront
  | a :: rest, m => do
    let p ← readPacket m.heap a
    if m.delayer.totalDeleyMs - p.duration > limit then
      match m.delayer.handshake with
      | .halt e _ => halted e
      | .ok d =>
        let d := (d.setTotal (d.totalDeleyMs - p.duration)).outputCall (.avInterleavedWriteFrame p)
        let h ← free m.heap a
        flushLoop limit rest { heap := h, avPacket := rest, delayer := d }
    else .ok m

def flush (m : Queue δ η) : Except Crash (Queue δ η) :=
  match m.delayer.delayLimit with
  | none => halted .intOverflow
  | some limit =>
    if m.delayer.totalDeleyMs > limit then flushLoop limit m.avPacket m else .ok m

def push (m : Queue δ η) (pkt : ℕ) : Except Crash (Queue δ η) := do
  let p ← readPacket m.heap pkt
  flush { m with
    avPacket := m.avPacket ++ [pkt]
    delayer := m.delayer.setTotal (m.delayer.totalDeleyMs + p.duration) }

def replaceLoop (fuel : ℕ) (start stop : Int) :
    List ℕ → Heap Object → Replacer δ η → Except Crash (List ℕ × Heap Object × Replacer δ η)
  | [], h, r => .ok ([], h, r)
  | a :: as, h, r => do
    let p ← readPacket h a
    if InWindow r.getAudioIndex start stop p then
      let y ← replaceAudioToMute fuel h r a
      let z ← replaceLoop fuel start stop as y.2.1 y.2.2
      .ok (y.1 :: z.1, z.2)
    else
      let z ← replaceLoop fuel start stop as h r
      .ok (a :: z.1, z.2)

def replaceAudioPacket (fuel : ℕ) (m : Queue δ η) (start stop : Int) :
    Except Crash (Queue δ η) := do
  let y ← replaceLoop fuel start stop m.avPacket m.heap m.delayer.replacer
  .ok { heap := y.2.1, avPacket := y.1, delayer := { m.delayer with replacer := y.2.2 } }

def freeAll : List ℕ → Heap Object → Except Crash (Heap Object)
  | [], h => .ok h
  | a :: as, h => do
    let h ← free h a
    freeAll as h

end queue

section relay
variable {δ : Decoder} {ω : Resampler} {η : Encoder}

def sendAudio (fuel : ℕ) (h : Heap Object) (a : Asr δ ω) (pkt : ℕ) (sdk : SdkReply) :
    Except Crash (SendExit × Heap Object × Asr δ ω) := do
  let p ← readPacket h pkt
  let a := (a.checkToken sdk.curTime sdk.tokenReply).2
  match δ.sendPacketLoop p fuel a.audioDecoderCtx with
  | none => halted .noReturn
  | some (.error f, ctx) => .ok (.sendPacket f, h, { a with audioDecoderCtx := ctx })
  | some (.ok (), ctx) =>
    let frame := h.alloc (.frame blankFrame)
    match δ.receiveFrameLoop p fuel (ctx, blankFrame) with
    | none => halted .noReturn
    | some (.error f, ctx, _) =>
      let h ← free frame.2 frame.1
      .ok (.receiveFrame f, h, { a with audioDecoderCtx := ctx })
    | some (.ok (), ctx, decoded) =>
      let h ← write frame.2 frame.1 (.frame decoded)
      let f ← readFrameData h frame.1
      match { a with audioDecoderCtx := ctx }.sendFrame p f sdk.sentByte with
      | .error e => halted e
      | .ok (_, x, a) =>
        let h ← free h frame.1
        .ok (x, h, a)

/-- `pkt` is the packet of the iteration of `startProcess` under way. -/
structure Memory (δ : Decoder) (ω : Resampler) (η : Encoder) where
  heap : Heap Object
  avPacket : List ℕ
  pkt : Option (ℕ × SendExit)
  relay : Relay δ ω η

def Memory.queue (m : Memory δ ω η) : Queue δ η :=
  { heap := m.heap, avPacket := m.avPacket, delayer := m.relay.delayer }

def Memory.setQueue (m : Memory δ ω η) (q : Queue δ η) : Memory δ ω η :=
  { m with
    heap := q.heap
    avPacket := q.avPacket
    relay := { m.relay with delayer := q.delayer } }

def readFrame (fuel : ℕ) (m : Memory δ ω η) (p : DemuxedPacket) (sdk : SdkReply) :
    Except Crash (Memory δ ω η) := do
  let pkt := m.heap.alloc (.packet blankPacket)
  let h ← write pkt.2 pkt.1 (.packet p.val)
  let q ← readPacket h pkt.1
  if q.streamIndex = m.relay.videoStreamIndex then
    let y ← push { m.queue with heap := h } pkt.1
    .ok (m.setQueue y)
  else if q.streamIndex = m.relay.audioStreamIndex then
    let y ← sendAudio fuel h m.relay.asr pkt.1 sdk
    .ok { m with
      heap := y.2.1
      pkt := some (pkt.1, y.1)
      relay := { m.relay with asr := y.2.2 } }
  else
    let h ← free h pkt.1
    .ok { m with heap := h }

/-- A step that touches no packet. -/
def elsewhere (fuel : ℕ) (m : Memory δ ω η) (a : Action) : Except Crash (Memory δ ω η) :=
  match Relay.step fuel m.relay a with
  | .ok r => .ok { m with relay := r }
  | .halt e _ => .error (.stopped e)

def step (fuel : ℕ) (m : Memory δ ω η) : Action → Except Crash (Memory δ ω η)
  | .readFrame p sdk =>
    match m.pkt with
    | none => readFrame fuel m p sdk
    | some _ => .error (.stopped .notEnabled)
  | .pushPending =>
    match m.pkt with
    | none => .error (.stopped .notEnabled)
    | some (a, _) => do
      let q ← push m.queue a
      .ok ({ m with pkt := none }.setQueue q)
  | .callback k =>
    match m.relay.callbacks[k]? with
    | some (.replaceAudioPacket start stop :: rest) => do
      let q ← replaceAudioPacket fuel m.queue start stop
      .ok ({ m with relay := m.relay.setCallback k rest }.setQueue q)
    | _ => elsewhere fuel m (.callback k)
  | a => elsewhere fuel m a

def run (fuel : ℕ) (m : Memory δ ω η) : List Action → Except Crash (Memory δ ω η)
  | [] => .ok m
  | a :: as => do
    let m ← step fuel m a
    run fuel m as

/-- The read that fails, and the destructor of the queue. -/
def finish (m : Memory δ ω η) : Except Crash (Heap Object) := do
  let pkt := m.heap.alloc (.packet blankPacket)
  let h ← free pkt.2 pkt.1
  freeAll m.avPacket h

def init (relay : Relay δ ω η) : Memory δ ω η :=
  { heap := Heap.empty, avPacket := [], pkt := none, relay := relay }

end relay

end RtmpRelay.PacketMemory
