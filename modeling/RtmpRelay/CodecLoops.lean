import RtmpRelay.AsrClock
import RtmpRelay.Delayer
import RtmpRelay.Pump

/-!
# The codec loops

A decoder and an encoder are pumps, and the six codec loops are three rounds
through a pump: one in `sendAudio`, two in `replaceAudioToMute`, which mutes
with the delayer's mutex held. A call returns exactly when the decoder does not
ask for a frame to be taken first and finitely many copies of the packet give
it a frame, and the encoder is likewise ready for that frame with its samples
zeroed.
-/

namespace RtmpRelay

open Machine Machine.Outcome Media

namespace Media

def Decoder.pump (δ : Decoder) : Pump δ.Ctx AVPacket AVFrame CallFailure where
  send ctx packet :=
    (replyOf (δ.avcodecSendPacket ctx packet).1, (δ.avcodecSendPacket ctx packet).2)
  receive ctx := (replyOf (δ.avcodecReceiveFrame ctx).1, (δ.avcodecReceiveFrame ctx).2)

def Encoder.pump (η : Encoder) : Pump η.Ctx AVFrame (List UInt8) CallFailure where
  send ctx frame := (replyOf (η.avcodecSendFrame ctx frame).1, (η.avcodecSendFrame ctx frame).2)
  receive ctx := (replyOf (η.avcodecReceivePacket ctx).1, (η.avcodecReceivePacket ctx).2)

theorem Decoder.sendPacketLoop_eq (δ : Decoder) : δ.sendPacketLoop = δ.pump.sendLoop := rfl

theorem Decoder.receiveFrameLoop_eq (δ : Decoder) :
    δ.receiveFrameLoop = δ.pump.receiveLoop := rfl

theorem Encoder.sendFrameLoop_eq (η : Encoder) : η.sendFrameLoop = η.pump.sendLoop := rfl

theorem Encoder.receivePacketLoop_eq (η : Encoder) :
    η.receivePacketLoop = η.pump.receiveLoop := rfl

end Media

def Stuck (e : Halt) : Prop := e = .noReturn

namespace Asr
variable {δ : Decoder} {ω : Resampler}

theorem sendFrame_ne_noReturn (a : Asr δ ω) (pkt : AVPacket) (frame : AVFrame) (sentByte : Int) :
    a.sendFrame pkt frame sentByte ≠ .error .noReturn := by
  simp only [sendFrame]
  split_ifs <;> simp

theorem checkToken_audioDecoderCtx (a : Asr δ ω) (curTime : Int) (t : TokenReply) :
    (a.checkToken curTime t).2.audioDecoderCtx = a.audioDecoderCtx := by
  have hgen : (a.generateToken t).2.audioDecoderCtx = a.audioDecoderCtx := by
    simp only [generateToken]
    split_ifs
    · rfl
    · rfl
  simp only [checkToken]
  split_ifs
  · exact hgen
  · exact hgen
  · exact hgen
  · rfl
  · rfl

theorem sendAudio_eq_drive (fuel : ℕ) (a : Asr δ ω) (pkt : AVPacket) (sdk : SdkReply) :
    a.sendAudio fuel pkt sdk =
      δ.pump.drive pkt { nbSamples := 0, data := [] } (.error .noReturn)
        (fun f ctx => .ok (-1, .sendPacket f,
          { (a.checkToken sdk.curTime sdk.tokenReply).2 with audioDecoderCtx := ctx }))
        (fun f ctx => .ok (-1, .receiveFrame f,
          { (a.checkToken sdk.curTime sdk.tokenReply).2 with audioDecoderCtx := ctx }))
        (fun _ ctx frame => { (a.checkToken sdk.curTime sdk.tokenReply).2 with
          audioDecoderCtx := ctx }.sendFrame pkt frame sdk.sentByte)
        fuel a.audioDecoderCtx := by
  simp only [sendAudio, Pump.drive, checkToken_audioDecoderCtx, Decoder.sendPacketLoop_eq,
    Decoder.receiveFrameLoop_eq]
  rcases δ.pump.sendLoop pkt fuel a.audioDecoderCtx with _ | ⟨f | u, ctx⟩
  · rfl
  · rfl
  · dsimp only
    rcases δ.pump.receiveLoop pkt fuel (ctx, { nbSamples := 0, data := [] }) with
      _ | ⟨f | u, ctx, out⟩
    · rfl
    · rfl
    · rfl

theorem sendAudio_mono {fuel fuel' : ℕ} (hle : fuel ≤ fuel') {a : Asr δ ω} {pkt : AVPacket}
    {sdk : SdkReply} (h : a.sendAudio fuel pkt sdk ≠ .error .noReturn) :
    a.sendAudio fuel' pkt sdk = a.sendAudio fuel pkt sdk := by
  rw [sendAudio_eq_drive] at h ⊢
  rw [sendAudio_eq_drive]
  exact Pump.drive_mono (fun _ _ _ _ _ _ => rfl) hle h

theorem sendAudio_ends_iff (D : δ.pump.Contract) (a : Asr δ ω) (pkt : AVPacket) (sdk : SdkReply) :
    (∃ fuel, a.sendAudio fuel pkt sdk ≠ .error .noReturn) ↔ D.Ready a.audioDecoderCtx pkt := by
  simp only [sendAudio_eq_drive]
  rw [D.drive_ends_iff (by simp) (by simp) (fun _ _ _ _ _ _ => rfl)]
  constructor
  · intro h
    exact h.1
  · intro h
    exact ⟨h, fun c' o' _ => ⟨0, sendFrame_ne_noReturn _ _ _ _⟩⟩

end Asr

namespace AsrFeed
variable {δ : Decoder} {ω : Resampler}

theorem step_ended_iff {fuel : ℕ} {s : AsrFeed δ ω} {c : AVPacket × SdkReply} :
    Ended Stuck (step fuel s c) ↔ s.asr.sendAudio fuel c.1 c.2 ≠ .error .noReturn := by
  simp only [step]
  split
  · next e h => simp [Ended, Stuck, h]
  · next h => simp [Ended, h]

theorem step_mono : FuelMono Stuck (step (δ := δ) (ω := ω)) := by
  intro fuel fuel' s c hle h
  rw [step, step, Asr.sendAudio_mono hle (step_ended_iff.mp h)]

end AsrFeed

namespace Replacer
variable {δ : Decoder} {η : Encoder}

theorem encodeMuted_eq_drive (fuel : ℕ) (r : Replacer δ η) (packet : AVPacket)
    (frame : AVFrame) :
    r.encodeMuted fuel packet frame =
      η.pump.drive frame [] (.error .noReturn)
        (fun f ctx => .ok (packet, .sendFrame f, { r with audioEncoderCtx := ctx }))
        (fun f ctx => .ok (packet, .receivePacket f, { r with audioEncoderCtx := ctx }))
        (fun _ ctx bytes => .ok ({
            streamIndex := r.audioStreamIndex
            pts := packet.pts
            dts := packet.dts
            duration := packet.duration
            data := .encoded bytes }, .muted, { r with audioEncoderCtx := ctx }))
        fuel r.audioEncoderCtx := by
  simp only [encodeMuted, Pump.drive, Encoder.sendFrameLoop_eq, Encoder.receivePacketLoop_eq]
  rcases η.pump.sendLoop frame fuel r.audioEncoderCtx with _ | ⟨f | u, ctx⟩
  · rfl
  · rfl
  · dsimp only
    rcases η.pump.receiveLoop frame fuel (ctx, []) with _ | ⟨f | u, ctx, out⟩
    · rfl
    · rfl
    · rfl

/-- What is done with a decoded frame. -/
def muteFrame (r : Replacer δ η) (packet : AVPacket) (fuel : ℕ) (ctx : δ.Ctx) (frame : AVFrame) :
    Except Halt (AVPacket × MuteExit × Replacer δ η) :=
  match zeroSamples (δ.nbChannels ctx) (δ.bytesPerSample ctx) frame with
  | none => .error .planeWrite
  | some frame => encodeMuted fuel { r with audioDecoderCtx := ctx } packet frame

theorem replaceAudioToMute_eq_drive (fuel : ℕ) (r : Replacer δ η) (packet : AVPacket) :
    r.replaceAudioToMute fuel packet =
      δ.pump.drive packet { nbSamples := 0, data := [] } (.error .noReturn)
        (fun f ctx => .ok (packet, .sendPacket f, { r with audioDecoderCtx := ctx }))
        (fun f ctx => .ok (packet, .receiveFrame f, { r with audioDecoderCtx := ctx }))
        (r.muteFrame packet) fuel r.audioDecoderCtx := by
  simp only [replaceAudioToMute, Pump.drive, Decoder.sendPacketLoop_eq, Decoder.receiveFrameLoop_eq]
  rcases δ.pump.sendLoop packet fuel r.audioDecoderCtx with _ | ⟨f | u, ctx⟩
  · rfl
  · rfl
  · dsimp only
    rcases δ.pump.receiveLoop packet fuel (ctx, { nbSamples := 0, data := [] }) with
      _ | ⟨f | u, ctx, out⟩
    · rfl
    · rfl
    · rfl

theorem encodeMuted_mono {fuel fuel' : ℕ} (hle : fuel ≤ fuel') {r : Replacer δ η}
    {packet : AVPacket} {frame : AVFrame}
    (h : r.encodeMuted fuel packet frame ≠ .error .noReturn) :
    r.encodeMuted fuel' packet frame = r.encodeMuted fuel packet frame := by
  rw [encodeMuted_eq_drive] at h ⊢
  rw [encodeMuted_eq_drive]
  exact Pump.drive_mono (fun _ _ _ _ _ _ => rfl) hle h

theorem muteFrame_mono (r : Replacer δ η) (packet : AVPacket) (fuel fuel' : ℕ) (ctx : δ.Ctx)
    (frame : AVFrame) (hle : fuel ≤ fuel')
    (h : r.muteFrame packet fuel ctx frame ≠ .error .noReturn) :
    r.muteFrame packet fuel' ctx frame = r.muteFrame packet fuel ctx frame := by
  simp only [muteFrame] at h ⊢
  split at h
  · rfl
  · exact encodeMuted_mono hle h

theorem replaceAudioToMute_mono {fuel fuel' : ℕ} (hle : fuel ≤ fuel') {r : Replacer δ η}
    {packet : AVPacket} (h : r.replaceAudioToMute fuel packet ≠ .error .noReturn) :
    r.replaceAudioToMute fuel' packet = r.replaceAudioToMute fuel packet := by
  rw [replaceAudioToMute_eq_drive] at h ⊢
  rw [replaceAudioToMute_eq_drive]
  exact Pump.drive_mono (r.muteFrame_mono packet) hle h

theorem encodeMuted_ends_iff (E : η.pump.Contract) (r : Replacer δ η) (packet : AVPacket)
    (frame : AVFrame) :
    (∃ fuel, r.encodeMuted fuel packet frame ≠ .error .noReturn) ↔
      E.Ready r.audioEncoderCtx frame := by
  simp only [encodeMuted_eq_drive]
  rw [E.drive_ends_iff (by simp) (by simp) (fun _ _ _ _ _ _ => rfl)]
  constructor
  · intro h
    exact h.1
  · intro h
    exact ⟨h, fun c' o' _ => ⟨0, by simp⟩⟩

/-- The decoder is ready for the packet, and the encoder for the frame that
comes of it, with its samples zeroed. -/
def Ready (D : δ.pump.Contract) (E : η.pump.Contract) (r : Replacer δ η) (packet : AVPacket) :
    Prop :=
  D.Ready r.audioDecoderCtx packet ∧
    ∀ ctx frame zeroed, D.Yields r.audioDecoderCtx packet ctx frame →
      zeroSamples (δ.nbChannels ctx) (δ.bytesPerSample ctx) frame = some zeroed →
        E.Ready r.audioEncoderCtx zeroed

theorem replaceAudioToMute_ends_iff (D : δ.pump.Contract) (E : η.pump.Contract)
    (r : Replacer δ η) (packet : AVPacket) :
    (∃ fuel, r.replaceAudioToMute fuel packet ≠ .error .noReturn) ↔ r.Ready D E packet := by
  simp only [replaceAudioToMute_eq_drive]
  rw [D.drive_ends_iff (by simp) (by simp) (r.muteFrame_mono packet), Ready]
  apply and_congr_right
  intro _
  constructor
  · intro h ctx frame zeroed hyields hzero
    obtain ⟨fuel, hfuel⟩ := h ctx frame hyields
    rw [muteFrame, hzero] at hfuel
    exact (encodeMuted_ends_iff E { r with audioDecoderCtx := ctx } packet zeroed).mp
      ⟨fuel, hfuel⟩
  · intro h ctx frame hyields
    cases hzero : zeroSamples (δ.nbChannels ctx) (δ.bytesPerSample ctx) frame with
    | none => exact ⟨0, by simp [muteFrame, hzero]⟩
    | some zeroed =>
      obtain ⟨fuel, hfuel⟩ := (encodeMuted_ends_iff E { r with audioDecoderCtx := ctx } packet
        zeroed).mpr (h ctx frame zeroed hyields hzero)
      exact ⟨fuel, by simpa only [muteFrame, hzero] using hfuel⟩

/-- The four loops are done for the packet, and its samples can be zeroed. -/
def RunsThrough (fuel : ℕ) (r : Replacer δ η) (packet : AVPacket) : Prop :=
  ∃ sent received frame zeroed given bytes encoded,
    δ.sendPacketLoop packet fuel r.audioDecoderCtx = some (.ok (), sent) ∧
    δ.receiveFrameLoop packet fuel (sent, { nbSamples := 0, data := [] }) =
      some (.ok (), received, frame) ∧
    zeroSamples (δ.nbChannels received) (δ.bytesPerSample received) frame = some zeroed ∧
    η.sendFrameLoop zeroed fuel r.audioEncoderCtx = some (.ok (), given) ∧
    η.receivePacketLoop zeroed fuel (given, []) = some (.ok (), encoded, bytes)

theorem encodeMuted_muted {fuel : ℕ} {r r' : Replacer δ η} {packet out : AVPacket}
    {frame : AVFrame} (h : r.encodeMuted fuel packet frame = .ok (out, .muted, r')) :
    ∃ given bytes encoded, η.sendFrameLoop frame fuel r.audioEncoderCtx = some (.ok (), given) ∧
      η.receivePacketLoop frame fuel (given, []) = some (.ok (), encoded, bytes) := by
  simp only [encodeMuted] at h
  split at h
  · cases h
  · cases h
  · next u ctx hsend =>
    split at h
    · cases h
    · cases h
    · next u' ctx' bytes hreceive => exact ⟨ctx, bytes, ctx', hsend, hreceive⟩

theorem muted_iff {fuel : ℕ} {r : Replacer δ η} {packet : AVPacket} :
    (∃ out r', r.replaceAudioToMute fuel packet = .ok (out, .muted, r')) ↔
      r.RunsThrough fuel packet := by
  constructor
  · intro h
    obtain ⟨out, r', h⟩ := h
    simp only [replaceAudioToMute] at h
    split at h
    · cases h
    · cases h
    · next u ctx hsend =>
      split at h
      · cases h
      · cases h
      · next u' ctx' frame hreceive =>
        split at h
        · cases h
        · next zeroed hzero =>
          obtain ⟨given, bytes, encoded, hgiven, hencoded⟩ := encodeMuted_muted h
          exact ⟨ctx, ctx', frame, zeroed, given, bytes, encoded, hsend, hreceive, hzero, hgiven,
            hencoded⟩
  · intro h
    obtain ⟨sent, received, frame, zeroed, given, bytes, encoded, hsend, hreceive, hzero, hgiven,
      hencoded⟩ := h
    have hmuted : r.replaceAudioToMute fuel packet = .ok (
        { streamIndex := r.audioStreamIndex
          pts := packet.pts
          dts := packet.dts
          duration := packet.duration
          data := .encoded bytes }, .muted,
        { r with audioDecoderCtx := received, audioEncoderCtx := encoded }) := by
      simp only [replaceAudioToMute, hsend, hreceive, hzero, encodeMuted, hgiven, hencoded]
    exact ⟨_, _, hmuted⟩

/-! The replacer over a sequence of calls. -/

def muteStep (fuel : ℕ) (r : Replacer δ η) (packet : AVPacket) : Outcome Halt (Replacer δ η) :=
  match r.replaceAudioToMute fuel packet with
  | .error e => .halt e r
  | .ok (_, _, r) => .ok r

def muteRun (fuel : ℕ) (r : Replacer δ η) (packets : List AVPacket) :
    Outcome Halt (Replacer δ η) :=
  Machine.run (muteStep fuel) r packets

theorem muteStep_ended_iff {fuel : ℕ} {r : Replacer δ η} {packet : AVPacket} :
    Ended Stuck (muteStep fuel r packet) ↔
      r.replaceAudioToMute fuel packet ≠ .error .noReturn := by
  simp only [muteStep]
  split
  · next e h => simp [Ended, Stuck, h]
  · next h => simp [Ended, h]

theorem muteStep_mono : FuelMono Stuck (muteStep (δ := δ) (η := η)) := by
  intro fuel fuel' r packet hle h
  rw [muteStep, muteStep, replaceAudioToMute_mono hle (muteStep_ended_iff.mp h)]

theorem muteRun_ended_iff (D : δ.pump.Contract) (E : η.pump.Contract) (r : Replacer δ η)
    (packets : List AVPacket) :
    (∃ fuel, Ended Stuck (r.muteRun fuel packets)) ↔
      ∀ pre packet post fuel t, packets = pre ++ packet :: post →
        r.muteRun fuel pre = ok t → t.Ready D E packet := by
  simp only [← replaceAudioToMute_ends_iff, ← muteStep_ended_iff]
  exact run_ended_iff muteStep_mono

end Replacer

namespace Delayer
variable {δ : Decoder} {η : Encoder} {fuel : ℕ} {start stop : Int}

/-- The packets a call mutes. -/
def window (audioIndex start stop : Int) (ps : List AVPacket) : List AVPacket :=
  ps.filter fun p => InWindow audioIndex start stop p

/-- The loop of `replaceAudioPacket` is that of its replacer over the packets of the window. -/
theorem Turn.mutes {p : AVPacket} {r s : Replacer δ η} {q : AVPacket × Option MuteExit}
    (h : Turn fuel start stop p r q s) (ps : List AVPacket) :
    r.muteRun fuel (window r.getAudioIndex start stop (p :: ps)) =
      s.muteRun fuel (window s.getAudioIndex start stop ps) := by
  rw [h.replaced.1, window]
  cases h with
  | inside hin hmute =>
    rw [List.filter_cons_of_pos (by rwa [decide_eq_true_eq]), Replacer.muteRun, run_cons,
      Replacer.muteStep, hmute]
    rfl
  | outside hout =>
    rw [List.filter_cons_of_neg (by rwa [decide_eq_true_eq])]
    rfl

theorem replaceLoop_muteRun_error {ps : List AVPacket} {r : Replacer δ η} {e : Halt}
    (h : replaceLoop fuel start stop ps r = .error e) :
    ∃ t, r.muteRun fuel (window r.getAudioIndex start stop ps) = .halt e t := by
  induction ps generalizing r with
  | nil => cases h
  | cons p ps ih =>
    rcases replaceLoop_cons_error h with ⟨q, s, hturn, hrest⟩ | ⟨hin, hmute⟩
    · rw [hturn.mutes]
      exact ih hrest
    · rw [window, List.filter_cons_of_pos (by rwa [decide_eq_true_eq]), Replacer.muteRun,
        run_cons, Replacer.muteStep, hmute]
      exact ⟨r, rfl⟩

theorem replaceLoop_muteRun_ok {ps : List AVPacket} {r t : Replacer δ η}
    {qs : List (AVPacket × Option MuteExit)}
    (h : replaceLoop fuel start stop ps r = .ok (qs, t)) :
    r.muteRun fuel (window r.getAudioIndex start stop ps) = .ok t := by
  induction ps generalizing r qs with
  | nil =>
    cases h
    rfl
  | cons p ps ih =>
    obtain ⟨q, s, rest, hturn, hrest, rfl⟩ := replaceLoop_cons_ok h
    rw [hturn.mutes]
    exact ih hrest

theorem replaceLoop_ended (ps : List AVPacket) (r : Replacer δ η) :
    replaceLoop fuel start stop ps r ≠ .error .noReturn ↔
      Ended Stuck (r.muteRun fuel (window r.getAudioIndex start stop ps)) := by
  cases hloop : replaceLoop fuel start stop ps r with
  | error e =>
    obtain ⟨t, ht⟩ := replaceLoop_muteRun_error hloop
    rw [ht]
    exact not_congr ⟨Except.error.inj, congrArg Except.error⟩
  | ok z =>
    rw [replaceLoop_muteRun_ok hloop]
    exact ⟨fun _ => trivial, fun _ => nofun⟩

theorem replaceLoop_append {ps rest : List AVPacket} {r t : Replacer δ η}
    {qs : List (AVPacket × Option MuteExit)}
    (h : replaceLoop fuel start stop (ps ++ rest) r = .ok (qs, t)) :
    ∃ done m more, replaceLoop fuel start stop ps r = .ok (done, m) ∧
      replaceLoop fuel start stop rest m = .ok (more, t) ∧ qs = done ++ more := by
  induction ps generalizing r qs with
  | nil => exact ⟨[], r, qs, rfl, h, rfl⟩
  | cons p ps ih =>
    obtain ⟨q, s, qs', hturn, hloop, rfl⟩ := replaceLoop_cons_ok h
    obtain ⟨done, m, more, hdone, hmore, rfl⟩ := ih hloop
    exact ⟨q :: done, m, more, by rw [hturn.loop, hdone]; rfl, hmore, rfl⟩

theorem replaceLoop_first {p : AVPacket} {rest : List AVPacket} {r t : Replacer δ η}
    {qs : List (AVPacket × Option MuteExit)}
    (h : replaceLoop fuel start stop (p :: rest) r = .ok (qs, t)) :
    (qs.map Prod.snd)[0]? = some (some .muted) ↔
      InWindow r.getAudioIndex start stop p ∧ r.RunsThrough fuel p := by
  obtain ⟨q, s, qs', hturn, -, rfl⟩ := replaceLoop_cons_ok h
  rw [List.map_cons, List.getElem?_cons_zero, Option.some.injEq, ← Replacer.muted_iff]
  cases hturn with
  | @inside out x s hin hmute =>
    rw [hmute]
    constructor
    · intro hx
      cases hx
      exact ⟨hin, out, s, rfl⟩
    · intro hx
      obtain ⟨-, out', r', heq⟩ := hx
      cases heq
      rfl
  | outside hout => exact ⟨fun hx => (by cases hx), fun hx => absurd hx.1 hout⟩

end Delayer

/-- Every call of a run ends if and only if the codecs are ready for its packet
in the state the earlier calls have left. -/
theorem codec_loops_end_iff {δ δ' : Decoder} {η : Encoder} {ω : Resampler}
    (D : δ.pump.Contract) (E : η.pump.Contract) (D' : δ'.pump.Contract) (r : Replacer δ η)
    (packets : List AVPacket) (a : Asr δ' ω) (cs : List (AVPacket × SdkReply)) :
    ((∃ fuel, Ended Stuck (r.muteRun fuel packets)) ↔
      ∀ pre packet post fuel t, packets = pre ++ packet :: post →
        r.muteRun fuel pre = ok t → t.Ready D E packet) ∧
    ((∃ fuel, Ended Stuck (AsrFeed.run fuel (AsrFeed.new a) cs)) ↔
      ∀ pre c post fuel t, cs = pre ++ c :: post → AsrFeed.run fuel (AsrFeed.new a) pre = ok t →
        D'.Ready t.asr.audioDecoderCtx c.1) := by
  constructor
  · exact r.muteRun_ended_iff D E packets
  · have hready : ∀ (t : AsrFeed δ' ω) (c : AVPacket × SdkReply),
        (∃ fuel, Ended Stuck (AsrFeed.step fuel t c)) ↔ D'.Ready t.asr.audioDecoderCtx c.1 := by
      intro t c
      simp only [AsrFeed.step_ended_iff]
      exact t.asr.sendAudio_ends_iff D' c.1 c.2
    simp only [← hready]
    exact run_ended_iff AsrFeed.step_mono

/-! A decoder that gives two frames for a packet and takes no packet while it
holds two. The first two calls leave two frames behind, the third sends for
ever. -/

def twoFrameSend (ctx : Fin 4) : Int × Fin 4 :=
  if ctx < 2 then (0, ctx + 2) else (AVERROR_EAGAIN, ctx)

def twoFrameReceive (ctx : Fin 4) : Int × AVFrame × Fin 4 :=
  if ctx = 0 then (AVERROR_EAGAIN, { nbSamples := 0, data := [] }, ctx)
  else (0, { nbSamples := 1, data := [some [7]] }, ctx - 1)

def twoFrameDecoder : Decoder where
  Ctx := Fin 4
  avcodecSendPacket ctx _ := twoFrameSend ctx
  avcodecReceiveFrame := twoFrameReceive
  nbChannels _ := 1
  bytesPerSample _ := 1

def twoFrameContract : twoFrameDecoder.pump.Contract where
  pending := Fin.val
  capacity := 3
  mustReceive ctx := 2 ≤ Fin.val ctx
  pending_le := (by decide : ∀ ctx : Fin 4, ctx.val ≤ 3)
  pending_pos := (by decide : ∀ ctx : Fin 4, 2 ≤ ctx.val → 0 < ctx.val)
  send_again_iff ctx _ := (by decide : ∀ ctx : Fin 4,
    replyOf (twoFrameSend ctx).1 = .again ↔ 2 ≤ ctx.val) ctx
  send_again_keeps ctx _ := (by decide : ∀ ctx : Fin 4,
    2 ≤ ctx.val → (twoFrameSend ctx).2 = ctx) ctx
  send_done_le ctx _ := (by decide : ∀ ctx : Fin 4,
    replyOf (twoFrameSend ctx).1 = .done → ctx.val ≤ (twoFrameSend ctx).2.val) ctx
  receive_again_iff := (by decide : ∀ ctx : Fin 4,
    replyOf (twoFrameReceive ctx).1 = .again ↔ ctx.val = 0)
  receive_again_keeps := (by decide : ∀ ctx : Fin 4,
    ctx.val = 0 → (twoFrameReceive ctx).2.2 = ctx)
  receive_done_eq := (by decide : ∀ ctx : Fin 4,
    replyOf (twoFrameReceive ctx).1 = .done → (twoFrameReceive ctx).2.2.val + 1 = ctx.val)

def pcmEncoderContract : pcmEncoder.pump.Contract where
  pending ctx := (Option.toList ctx).length
  capacity := 1
  mustReceive ctx := Option.isSome ctx = true
  pending_le ctx := by cases ctx <;> simp
  pending_pos ctx := by cases ctx <;> simp
  send_again_iff ctx _ := by cases ctx <;> simp [Encoder.pump, pcmEncoder, replyOf, AVERROR_EAGAIN]
  send_again_keeps ctx _ := by cases ctx <;> simp [Encoder.pump, pcmEncoder]
  send_done_le ctx _ := by
    cases ctx <;> simp [Encoder.pump, pcmEncoder, replyOf, AVERROR_EAGAIN]
  receive_again_iff ctx := by
    cases ctx <;> simp [Encoder.pump, pcmEncoder, replyOf, AVERROR_EAGAIN]
  receive_again_keeps ctx := by cases ctx <;> simp [Encoder.pump, pcmEncoder]
  receive_done_eq ctx := by
    cases ctx <;> simp [Encoder.pump, pcmEncoder, replyOf, AVERROR_EAGAIN]

def sampleTwoFrame : Replacer twoFrameDecoder pcmEncoder :=
  { audioStreamIndex := 1, audioDecoderCtx := (0 : Fin 4), audioEncoderCtx := none }

def sampleTwoFrameAsr : Asr twoFrameDecoder plainResampler :=
  ((Asr.new 0 200 (0 : Fin 4) { nbChannels := 1, sampleRate := 16000, bytesPerSample := 1 }).start
    Asr.sampleToken (some 0)).2

theorem third_call_never_returns :
    (¬ ∀ (δ : Decoder) (η : Encoder) (_ : δ.pump.Contract) (_ : η.pump.Contract)
        (r : Replacer δ η) (packets : List AVPacket),
        ∃ fuel, Ended Stuck (r.muteRun fuel packets)) ∧
      ¬ ∀ (δ : Decoder) (ω : Resampler) (_ : δ.pump.Contract) (a : Asr δ ω)
        (cs : List (AVPacket × SdkReply)),
        ∃ fuel, Ended Stuck (AsrFeed.run fuel (AsrFeed.new a) cs) := by
  constructor
  · intro h
    have hends := run_ended_iff Replacer.muteStep_mono |>.mp
      (h twoFrameDecoder pcmEncoder twoFrameContract pcmEncoderContract sampleTwoFrame
        (List.replicate 3 (samplePacket 1 0 20).val))
      (List.replicate 2 (samplePacket 1 0 20).val) (samplePacket 1 0 20).val [] 2 _ rfl rfl
    simp only [Replacer.muteStep_ended_iff] at hends
    have hready := (Replacer.replaceAudioToMute_ends_iff twoFrameContract pcmEncoderContract _
      _).mp hends
    exact hready.1.1 (le_refl 2)
  · intro h
    have hends := run_ended_iff AsrFeed.step_mono |>.mp
      (h twoFrameDecoder plainResampler twoFrameContract sampleTwoFrameAsr
        (List.replicate 3 ((samplePacket 1 0 20).val, Asr.sampleSdk 2)))
      (List.replicate 2 ((samplePacket 1 0 20).val, Asr.sampleSdk 2))
      ((samplePacket 1 0 20).val, Asr.sampleSdk 2) [] 2 _ rfl rfl
    simp only [AsrFeed.step_ended_iff] at hends
    have hready := (Asr.sendAudio_ends_iff twoFrameContract _ _ _).mp hends
    exact hready.1 (le_refl 2)

end RtmpRelay
