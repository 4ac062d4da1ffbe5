import RtmpRelay.Machine
import Mathlib.Data.List.Forall2

/-!
# Packets, frames, codecs and the output context

Time stamps and durations are `int64_t` milliseconds, kept as integers. The
one `int` that accumulates them narrows on every store, the one `int` product
overflows, and the difference of an unset `long` and the clock wraps, so their
width is explicit. FFmpeg is a parameter: a codec is a state with its send and
receive calls, each returning an `int` code. A payload remembers whether it was
read from the input or produced by the muting encoder; a plane pointer that is
absent from a frame is `none`. The output context records what its muxer
answers and every call made on it.
-/

namespace RtmpRelay.Media

open Machine

def intMin : Int := -2147483648
def intMax : Int := 2147483647

def InInt (x : Int) : Prop := intMin ≤ x ∧ x ≤ intMax

instance (x : Int) : Decidable (InInt x) := inferInstanceAs (Decidable (_ ∧ _))

def narrowInt (x : Int) : Int := x.bmod 4294967296

def narrowLong (x : Int) : Int := x.bmod 18446744073709551616

theorem narrowInt_eq {x : Int} (hx : InInt x) : narrowInt x = x := by
  obtain ⟨hlo, hhi⟩ := hx
  simp only [intMin] at hlo
  simp only [intMax] at hhi
  exact Int.bmod_eq_of_le (by omega) (by omega)

theorem narrowInt_add (x y : Int) : narrowInt (narrowInt x + y) = narrowInt (x + y) :=
  Int.bmod_add_bmod

theorem narrowInt_le {x : Int} (hx : 0 ≤ x) : narrowInt x ≤ x := by
  rw [narrowInt, Int.bmod_def]
  split_ifs
  · omega
  · omega

def mulInt (a b : Int) : Option Int :=
  if InInt (a * b) then some (a * b) else none

theorem mulInt_eq {a b : Int} (h : InInt (a * b)) : mulInt a b = some (a * b) := if_pos h

theorem mulInt_eq_some {a b c : Int} (h : mulInt a b = some c) : c = a * b := by
  simp only [mulInt] at h
  split_ifs at h
  exact (Option.some.inj h).symm

theorem mulInt_inInt {a b c : Int} (h : mulInt a b = some c) : InInt c := by
  simp only [mulInt] at h
  split_ifs at h with hin
  exact Option.some.inj h ▸ hin

/-- Why the process stops, or has no defined behaviour from here on. -/
inductive Halt
  | exit
  | emptyFront
  | intOverflow
  | planeWrite
  | noReturn
  deriving DecidableEq, Repr

/-- Why a run ends: its next action cannot occur, or a call does not return. -/
inductive Stop
  | notEnabled
  | halted (e : Halt)
  deriving DecidableEq, Repr

def AVERROR_EAGAIN : Int := -11
def AVERROR_EOF : Int := -541478725
def AVERROR_INVALIDDATA : Int := -1094995529

inductive CallFailure
  | eof
  | unknown
  deriving DecidableEq, Repr

def replyOf (ret : Int) : Reply CallFailure :=
  if ret ≥ 0 then .done
  else if ret = AVERROR_EAGAIN then .again
  else if ret = AVERROR_EOF then .fail .eof
  else .fail .unknown

theorem replyOf_done {ret : Int} : replyOf ret = .done ↔ 0 ≤ ret := by
  rw [replyOf]
  split_ifs
  · simpa
  · simp; omega
  · simp; omega
  · simp; omega

inductive Payload
  | demuxed (bytes : List UInt8)
  | encoded (bytes : List UInt8)
  deriving DecidableEq, Repr

def Payload.isMuted : Payload → Bool
  | .demuxed _ => false
  | .encoded _ => true

structure AVPacket where
  streamIndex : Int
  pts : Int
  dts : Int
  duration : Int
  data : Payload
  deriving DecidableEq, Repr

def AVPacket.timing (p : AVPacket) : Int × Int × Int × Int :=
  (p.streamIndex, p.pts, p.dts, p.duration)

theorem AVPacket.eq_of_timing {p q : AVPacket} (ht : q.timing = p.timing)
    (hd : q.data = p.data) : q = p := by
  cases p
  cases q
  simp_all [AVPacket.timing]

abbrev DemuxedPacket := { p : AVPacket // p.data.isMuted = false }

/-- `q` is `p` itself or a muted replacement of it. -/
def Carries (p q : AVPacket) : Prop :=
  q.timing = p.timing ∧ (q.data = p.data ∨ q.data.isMuted = true)

theorem Carries.refl (p : AVPacket) : Carries p p := ⟨rfl, Or.inl rfl⟩

theorem Carries.trans {p q r : AVPacket} (hpq : Carries p q) (hqr : Carries q r) :
    Carries p r := by
  refine ⟨hqr.1.trans hpq.1, ?_⟩
  rcases hqr.2 with hd | hm
  · rw [hd]
    exact hpq.2
  · exact Or.inr hm

theorem Carries.eq_of_not_muted {p q : AVPacket} (h : Carries p q)
    (hq : q.data.isMuted = false) : q = p := by
  rcases h.2 with hd | hm
  · exact AVPacket.eq_of_timing h.1 hd
  · simp [hq] at hm

theorem Carries.duration {p q : AVPacket} (h : Carries p q) : q.duration = p.duration :=
  congrArg (fun t => t.2.2.2) h.1

theorem Carries.pts {p q : AVPacket} (h : Carries p q) : q.pts = p.pts :=
  congrArg (fun t => t.2.1) h.1

theorem Carries.streamIndex {p q : AVPacket} (h : Carries p q) :
    q.streamIndex = p.streamIndex :=
  congrArg (fun t => t.1) h.1

theorem Carries.refl_list (ps : List AVPacket) : List.Forall₂ Carries ps ps :=
  List.forall₂_same.mpr fun p _ => Carries.refl p

theorem Carries.trans_list {ps qs rs : List AVPacket} (hpq : List.Forall₂ Carries ps qs)
    (hqr : List.Forall₂ Carries qs rs) : List.Forall₂ Carries ps rs := by
  induction hpq generalizing rs with
  | nil => exact hqr
  | cons h _ ih =>
    cases hqr with
    | cons h' hrest => exact List.Forall₂.cons (h.trans h') (ih hrest)

theorem Carries.timing_list {ps qs : List AVPacket} (h : List.Forall₂ Carries ps qs) :
    qs.map AVPacket.timing = ps.map AVPacket.timing := by
  induction h with
  | nil => rfl
  | cons hc _ ih => rw [List.map_cons, List.map_cons, ih, hc.1]

structure AVFrame where
  nbSamples : Int
  data : List (Option (List UInt8))
  deriving DecidableEq, Repr

/-- `memset(data[ch] + offset, 0, len)`, undefined on an absent plane and past
the end of a plane. -/
def memsetZero (planes : List (Option (List UInt8))) (ch offset len : ℕ) :
    Option (List (Option (List UInt8))) :=
  match planes[ch]? with
  | some (some plane) =>
    if offset + len ≤ plane.length then
      some (planes.set ch
        (some (plane.take offset ++ List.replicate len 0 ++ plane.drop (offset + len))))
    else none
  | _ => none

structure Decoder where
  Ctx : Type
  avcodecSendPacket : Ctx → AVPacket → Int × Ctx
  avcodecReceiveFrame : Ctx → Int × AVFrame × Ctx
  nbChannels : Ctx → ℕ
  bytesPerSample : Ctx → ℕ

structure Encoder where
  Ctx : Type
  avcodecSendFrame : Ctx → AVFrame → Int × Ctx
  avcodecReceivePacket : Ctx → Int × List UInt8 × Ctx

/-! The four codec loops. A refused packet or frame is offered again at once;
a receive that needs more input is given the same packet or frame again, and
the result of that second send is ignored. -/

namespace Decoder

def sendPacketLoop (δ : Decoder) (packet : AVPacket) :
    ℕ → δ.Ctx → Option (Except CallFailure Unit × δ.Ctx) :=
  retry (fun ctx => (replyOf (δ.avcodecSendPacket ctx packet).1,
    (δ.avcodecSendPacket ctx packet).2)) id

def receiveFrameLoop (δ : Decoder) (packet : AVPacket) :
    ℕ → δ.Ctx × AVFrame → Option (Except CallFailure Unit × δ.Ctx × AVFrame) :=
  retry (fun s => (replyOf (δ.avcodecReceiveFrame s.1).1,
      (δ.avcodecReceiveFrame s.1).2.2, (δ.avcodecReceiveFrame s.1).2.1))
    (fun s => ((δ.avcodecSendPacket s.1 packet).2, s.2))

end Decoder

namespace Encoder

def sendFrameLoop (η : Encoder) (frame : AVFrame) :
    ℕ → η.Ctx → Option (Except CallFailure Unit × η.Ctx) :=
  retry (fun ctx => (replyOf (η.avcodecSendFrame ctx frame).1,
    (η.avcodecSendFrame ctx frame).2)) id

def receivePacketLoop (η : Encoder) (frame : AVFrame) :
    ℕ → η.Ctx × List UInt8 → Option (Except CallFailure Unit × η.Ctx × List UInt8) :=
  retry (fun s => (replyOf (η.avcodecReceivePacket s.1).1,
      (η.avcodecReceivePacket s.1).2.2, (η.avcodecReceivePacket s.1).2.1))
    (fun s => ((η.avcodecSendFrame s.1 frame).2, s.2))

end Encoder

/-! Raw 8-bit mono samples, one frame for one packet: the simplest codec that
follows the send and receive protocol. -/

def pcmDecoder : Decoder where
  Ctx := Option (List UInt8)
  avcodecSendPacket
    | none, p => match p.data with
      | .demuxed bytes => (0, some bytes)
      | .encoded bytes => (0, some bytes)
    | some held, _ => (AVERROR_EAGAIN, some held)
  avcodecReceiveFrame
    | some held => (0, { nbSamples := held.length, data := [some held] }, none)
    | none => (AVERROR_EAGAIN, { nbSamples := 0, data := [] }, none)
  nbChannels _ := 1
  bytesPerSample _ := 1

def pcmEncoder : Encoder where
  Ctx := Option (List UInt8)
  avcodecSendFrame
    | none, frame => (0, some ((frame.data.map fun plane => plane.getD []).flatten))
    | some held, _ => (AVERROR_EAGAIN, some held)
  avcodecReceivePacket
    | some held => (0, held, none)
    | none => (AVERROR_EAGAIN, [], none)

def samplePacket (streamIndex pts duration : Int) : DemuxedPacket :=
  ⟨{ streamIndex := streamIndex
     pts := pts
     dts := pts
     duration := duration
     data := .demuxed [7] }, rfl⟩

def corruptDecoder : Decoder where
  Ctx := Unit
  avcodecSendPacket _ _ := (AVERROR_INVALIDDATA, ())
  avcodecReceiveFrame _ := (AVERROR_EAGAIN, { nbSamples := 0, data := [] }, ())
  nbChannels _ := 1
  bytesPerSample _ := 1

inductive OutputCall
  | avioOpen (url : String)
  | avformatWriteHeader
  | avInterleavedWriteFrame (p : AVPacket)
  | avWriteTrailer
  | avioClosep
  | avformatFreeContext
  deriving DecidableEq, Repr

def OutputCall.frame : OutputCall → Option AVPacket
  | .avInterleavedWriteFrame p => some p
  | _ => none

structure OutputContext where
  noFile : Bool
  avioOpenRet : Int
  writeHeaderRet : Int
  calls : List OutputCall
  deriving DecidableEq, Repr

def OutputContext.call (o : OutputContext) (c : OutputCall) : OutputContext :=
  { o with calls := o.calls ++ [c] }

def OutputContext.written (o : OutputContext) : List AVPacket :=
  o.calls.filterMap OutputCall.frame

@[simp] theorem OutputContext.written_frame (o : OutputContext) (p : AVPacket) :
    (o.call (.avInterleavedWriteFrame p)).written = o.written ++ [p] := by
  simp [OutputContext.call, OutputContext.written, OutputCall.frame]

theorem OutputContext.written_other (o : OutputContext) {c : OutputCall} (hc : c.frame = none) :
    (o.call c).written = o.written := by
  simp [OutputContext.call, OutputContext.written, hc]

end RtmpRelay.Media
