import RtmpRelay.AudioUpload

/-!
# What the server reads

Every byte that was put in the audio buffer is on the socket or still in the
buffer, and the stop command joins it only when that buffer is empty. So what
the server reads is the queued audio, in order, and then the stop command,
however the socket splits the writes. The stop command gets one write: what
that write leaves is never sent.
-/

namespace RtmpRelay.AudioDelivery

open WebSocketTcp FrameFormat AudioUpload Chunked Media

variable {τ : Type*} {E : Env τ} {n : Node τ}

section send

/-- The front `k` bytes of a buffer go to the socket. -/
def moved (n : Node τ) (ch : Channel) (k s : ℕ) (p : Bool) : Node τ :=
  { n.setBuffer ((n.buffer ch).drop k) ch with
    sends := s, pending := p, socket := n.socket ++ (n.buffer ch).take k }

variable (ch : Channel) (k s : ℕ) (p : Bool)

@[simp] theorem moved_workStatus : (moved n ch k s p).workStatus = n.workStatus := by cases ch <;> rfl
@[simp] theorem moved_exitStatus : (moved n ch k s p).exitStatus = n.exitStatus := by cases ch <;> rfl
@[simp] theorem moved_isStop : (moved n ch k s p).isStop = n.isStop := by cases ch <;> rfl
@[simp] theorem moved_limitSize : (moved n ch k s p).limitSize = n.limitSize := by cases ch <;> rfl
@[simp] theorem moved_audioFrame : (moved n ch k s p).audioFrame = n.audioFrame := by cases ch <;> rfl
@[simp] theorem moved_encoder : (moved n ch k s p).encoder = n.encoder := by cases ch <;> rfl
@[simp] theorem moved_queued : (moved n ch k s p).queued = n.queued := by cases ch <;> rfl
@[simp] theorem moved_isFirst : (moved n ch k s p).isFirstAudioFrame = n.isFirstAudioFrame := by
  cases ch <;> rfl
@[simp] theorem moved_socketOpen : (moved n ch k s p).socketOpen = n.socketOpen := by cases ch <;> rfl
@[simp] theorem moved_writeEvent : (moved n ch k s p).writeEvent = n.writeEvent := by cases ch <;> rfl
@[simp] theorem moved_pending : (moved n ch k s p).pending = p := rfl
@[simp] theorem moved_sends : (moved n ch k s p).sends = s := rfl
@[simp] theorem moved_socket : (moved n ch k s p).socket = n.socket ++ (n.buffer ch).take k := rfl
@[simp] theorem moved_buffer : (moved n ch k s p).buffer ch = (n.buffer ch).drop k := by cases ch <;> rfl

@[simp] theorem moved_binary_cmd : (moved n .binary k s p).cmdEvBuffer = n.cmdEvBuffer := rfl
@[simp] theorem moved_cmd_binary : (moved n .cmd k s p).binaryEvBuffer = n.binaryEvBuffer := rfl
@[simp] theorem moved_binary_binary :
    (moved n .binary k s p).binaryEvBuffer = n.binaryEvBuffer.drop k := rfl
@[simp] theorem moved_cmd_cmd : (moved n .cmd k s p).cmdEvBuffer = n.cmdEvBuffer.drop k := rfl

theorem moved_arm (q : Bool) : { moved n ch k s p with pending := q } = moved n ch k s q := by
  cases ch <;> rfl

theorem moved_zero : moved n ch 0 s p = { n with sends := s, pending := p } := by
  cases ch <;> simp [moved, Node.setBuffer, Node.buffer]

variable {ch}

theorem nlsSend_some {size : ℕ} {n' : Node τ} (h : nlsSend E n ch size = some n') :
    ∃ k s, n' = moved n ch k s n.pending ∧ n.socketOpen = true := by
  rw [nlsSend] at h
  split at h
  · cases h
  · next k hk =>
    split at h
    · next hopen =>
      cases h
      refine ⟨min k size, n.sends + 1, ?_, hopen⟩
      cases ch with
      | binary => rfl
      | cmd => rfl
    · cases h

theorem narrowInt_eq_zero {m : ℕ} (h : m < 2 ^ 32) (h0 : narrowInt m = 0) : m = 0 := by
  rw [narrowInt, Int.bmod_def] at h0
  split at h0
  · omega
  · omega

/-- Bytes of one buffer move to the socket. What the call answers tells whether any are left,
and if so the write event is armed. -/
theorem nlsSendFrame_moved (ch : Channel) :
    ∃ k s p, (nlsSendFrame E n ch).1 = moved n ch k s p ∧
      ((nlsSendFrame E n ch).2 = 0 → (n.buffer ch).length < 2 ^ 32 → (n.buffer ch).drop k = []) ∧
      (0 < (nlsSendFrame E n ch).2 → (n.buffer ch).drop k ≠ []) ∧
      (0 ≤ (nlsSendFrame E n ch).2 → p = true ∨ p = n.pending ∧ (n.buffer ch).drop k = []) := by
  have hneg : ∀ e : NlsRetCode, ¬ 0 ≤ -e.code := fun e => Int.not_le.mpr e.neg_code_lt
  rw [nlsSendFrame]
  split
  · next h =>
    have hnil := List.eq_nil_of_length_eq_zero h
    exact ⟨0, n.sends, n.pending, (moved_zero ch _ _).symm, fun _ _ => hnil,
      fun h => absurd h (Int.lt_irrefl 0), fun _ => Or.inr ⟨rfl, hnil⟩⟩
  · split
    · refine ⟨0, n.sends + 1, n.pending, (moved_zero ch _ _).symm, fun h => ?_, fun h => ?_,
        fun h => ?_⟩
      · exact absurd (Int.le_of_eq h.symm) (hneg _)
      · exact absurd (Int.le_of_lt h) (hneg _)
      · exact absurd h (hneg _)
    · next n' hsome =>
      obtain ⟨k, s, rfl, -⟩ := nlsSend_some hsome
      have hle : ((n.buffer ch).drop k).length ≤ (n.buffer ch).length := by
        rw [List.length_drop]
        omega
      have hnil : narrowInt ((n.buffer ch).drop k).length = 0 → (n.buffer ch).length < 2 ^ 32 →
          (n.buffer ch).drop k = [] := fun h0 hlen =>
        List.eq_nil_of_length_eq_zero (narrowInt_eq_zero (lt_of_le_of_lt hle hlen) h0)
      have hcons : 0 < narrowInt ((n.buffer ch).drop k).length → (n.buffer ch).drop k ≠ [] := by
        intro h0 hempty
        rw [hempty] at h0
        exact absurd h0 (by decide)
      simp only [moved_buffer]
      split
      · split
        · refine ⟨k, s, n.pending, rfl, fun h => ?_, fun h => ?_, fun h => ?_⟩
          · exact absurd (Int.le_of_eq h.symm) (hneg _)
          · exact absurd (Int.le_of_lt h) (hneg _)
          · exact absurd h (hneg _)
        · refine ⟨k, s, true, moved_arm ch k s _ true, ?_, ?_, fun _ => Or.inl rfl⟩
          · simp only
            exact hnil
          · simp only
            exact hcons
      · next h0 =>
        refine ⟨k, s, n.pending, rfl, ?_, ?_, fun _ => Or.inr ⟨rfl, ?_⟩⟩
        · simp only
          exact hnil
        · simp only
          exact hcons
        · exact List.eq_nil_of_length_eq_zero (Nat.eq_zero_of_not_pos h0)

end send

section kept

/-- What sending leaves as it was. -/
structure Kept (n n' : Node τ) : Prop where
  workStatus : n'.workStatus = n.workStatus
  exitStatus : n'.exitStatus = n.exitStatus
  audioFrame : n'.audioFrame = n.audioFrame
  isFirst : n'.isFirstAudioFrame = n.isFirstAudioFrame
  limitSize : n'.limitSize = n.limitSize
  encoder : n'.encoder = n.encoder
  queued : n'.queued = n.queued
  socketOpen : n'.socketOpen = n.socketOpen
  writeEvent : n'.writeEvent = n.writeEvent

theorem Kept.refl (n : Node τ) : Kept n n := ⟨rfl, rfl, rfl, rfl, rfl, rfl, rfl, rfl, rfl⟩

theorem Kept.trans {n₁ n₂ n₃ : Node τ} (h : Kept n₁ n₂) (h' : Kept n₂ n₃) : Kept n₁ n₃ :=
  ⟨h'.workStatus.trans h.workStatus, h'.exitStatus.trans h.exitStatus,
    h'.audioFrame.trans h.audioFrame, h'.isFirst.trans h.isFirst, h'.limitSize.trans h.limitSize,
    h'.encoder.trans h.encoder, h'.queued.trans h.queued, h'.socketOpen.trans h.socketOpen,
    h'.writeEvent.trans h.writeEvent⟩

theorem kept_moved (ch : Channel) (k s : ℕ) (p : Bool) : Kept n (moved n ch k s p) := by
  cases ch with
  | binary => exact ⟨rfl, rfl, rfl, rfl, rfl, rfl, rfl, rfl, rfl⟩
  | cmd => exact ⟨rfl, rfl, rfl, rfl, rfl, rfl, rfl, rfl, rfl⟩

theorem kept_sendFrame (ch : Channel) : Kept n (nlsSendFrame E n ch).1 := by
  obtain ⟨k, s, p, hmoved, -⟩ := nlsSendFrame_moved (E := E) (n := n) ch
  rw [hmoved]
  exact kept_moved ch k s p

theorem kept_control : Kept n (sendControlDirective E n).1 := by
  rw [sendControlDirective]
  split
  · split
    · exact kept_sendFrame .cmd
    · exact Kept.refl n
  · split
    · have h := kept_sendFrame (E := E) (n := addStopCommand E n) .cmd
      exact ⟨h.workStatus, h.exitStatus, h.audioFrame, h.isFirst, h.limitSize, h.encoder, h.queued,
        h.socketOpen, h.writeEvent⟩
    · exact Kept.refl n

theorem kept_kick (length : ℕ) : Kept n (kick E n length).1 := by
  by_cases hc : length = 0 ∧ n.workStatus = .nodeStarted ∧ n.isStop = false
  · simp only [kick, if_pos hc]
    split
    · exact (kept_sendFrame .binary).trans kept_control
    · exact kept_sendFrame .binary
  · simp only [kick, if_neg hc, if_true]
    exact kept_control

end kept

section invariant

/-- The frames of the queued audio, one after the other. -/
def audio (n : Node τ) : List UInt8 := n.queued.flatMap (packed .binaryFrame)

structure Inv (E : Env τ) (n : Node τ) : Prop where
  limit : n.limitSize ≤ 32000
  bound : n.binaryEvBuffer.length < 2 ^ 31 + 32014
  running : n.isStop = false → n.cmdEvBuffer = [] ∧ n.socket ++ n.binaryEvBuffer = audio n
  stopped : n.isStop = true → n.exitStatus ≠ .exitInvalid ∧ n.binaryEvBuffer = [] ∧
    ∃ k, n.socket = audio n ++ (packed .textFrame E.stopCommand).take k ∧
      n.cmdEvBuffer = (packed .textFrame E.stopCommand).drop k
  unsliced : E.encoderType = .encoderNone → n.audioFrame = []
  payloads : ∀ p ∈ n.queued, p.length < 2 ^ 31

theorem Inv.not_stop (h : Inv E n) (hexit : n.exitStatus = .exitInvalid) : n.isStop = false := by
  cases hs : n.isStop with
  | false => rfl
  | true => exact absurd hexit (h.stopped hs).1

theorem inv_moved (h : Inv E n) (hs : n.isStop = false) (k s : ℕ) (p : Bool) :
    Inv E (moved n .binary k s p) := by
  obtain ⟨hcmd, hsock⟩ := h.running hs
  refine ⟨h.limit, ?_, fun _ => ⟨hcmd, ?_⟩, fun hstop => ?_, h.unsliced, h.payloads⟩
  · have hb := h.bound
    rw [moved_binary_binary, List.length_drop]
    omega
  · show n.socket ++ n.binaryEvBuffer.take k ++ n.binaryEvBuffer.drop k = audio n
    rw [List.append_assoc, List.take_append_drop, hsock]
  · rw [moved_isStop, hs] at hstop
    cases hstop

theorem inv_sendFrame (h : Inv E n) (hs : n.isStop = false) :
    Inv E (nlsSendFrame E n .binary).1 ∧
      ((nlsSendFrame E n .binary).2 = 0 → (nlsSendFrame E n .binary).1.binaryEvBuffer = []) := by
  obtain ⟨k, s, p, hmoved, hzero, -, -⟩ := nlsSendFrame_moved (E := E) (n := n) .binary
  rw [hmoved]
  refine ⟨inv_moved h hs k s p, fun h0 => ?_⟩
  have hb := h.bound
  exact hzero h0 (show n.binaryEvBuffer.length < 2 ^ 32 by omega)

theorem inv_control (h : Inv E n) (hb : n.exitStatus = .exitStopping → n.binaryEvBuffer = []) :
    Inv E (sendControlDirective E n).1 := by
  rw [sendControlDirective]
  split
  · next hst =>
    rw [(h.running (h.not_stop hst.2)).1, if_neg (by simp)]
    exact h
  · split
    · next hst =>
      obtain ⟨hexit, hs⟩ := hst
      obtain ⟨hcmd, hsock⟩ := h.running hs
      have hnil := hb hexit
      obtain ⟨k, s, p, hmoved, -, -⟩ := nlsSendFrame_moved (E := E) (n := addStopCommand E n) .cmd
      have hcmd' : (addStopCommand E n).buffer .cmd = packed .textFrame E.stopCommand := by
        show n.cmdEvBuffer ++ _ = _
        rw [hcmd, List.nil_append]
      rw [hnil, List.append_nil] at hsock
      simp only [hmoved]
      refine ⟨h.limit, h.bound, ?_, fun _ => ⟨?_, hnil, k, ?_, ?_⟩, h.unsliced, h.payloads⟩
      · intro hf
        cases hf
      · show n.exitStatus ≠ .exitInvalid
        rw [hexit]
        decide
      · show n.socket ++ ((addStopCommand E n).buffer .cmd).take k =
          audio n ++ (packed .textFrame E.stopCommand).take k
        rw [hcmd', hsock]
      · show ((addStopCommand E n).buffer .cmd).drop k = _
        rw [hcmd']
    · exact h

theorem inv_kick (h : Inv E n) (hexit : n.exitStatus = .exitInvalid) (length : ℕ) :
    Inv E (kick E n length).1 := by
  have hs := h.not_stop hexit
  obtain ⟨k, s, p, hmoved, -⟩ := nlsSendFrame_moved (E := E) (n := n) .binary
  have hsent := (inv_sendFrame h hs).1
  by_cases hc : length = 0 ∧ n.workStatus = .nodeStarted ∧ n.isStop = false
  · simp only [kick, if_pos hc]
    split
    · apply inv_control hsent
      intro hstop
      rw [hmoved, moved_exitStatus, hexit] at hstop
      cases hstop
    · exact hsent
  · simp only [kick, if_neg hc, if_true]
    apply inv_control h
    intro hstop
    rw [hexit] at hstop
    cases hstop

theorem headlen_le (length : ℕ) : headlen length ≤ 14 := by
  rw [headlen]
  split
  · split
    · omega
    · omega
  · split
    · omega
    · omega

theorem packed_length_le (op : OpCodeType) (payload : List UInt8) :
    (packed op payload).length ≤ payload.length + 14 := by
  have h := headlen_le payload.length
  rw [packed, List.length_append, header_length, xorFrom_length]
  omega

theorem inv_push (h : Inv E n) (hexit : n.exitStatus = .exitInvalid)
    (hlimit : n.binaryEvBuffer.length < n.limitSize) {payload : List UInt8}
    (hp : payload.length < 2 ^ 31) : Inv E (push n payload) := by
  have hs := h.not_stop hexit
  obtain ⟨hcmd, hsock⟩ := h.running hs
  refine ⟨h.limit, ?_, fun _ => ⟨hcmd, ?_⟩, fun hstop => ?_, h.unsliced, ?_⟩
  · have hl := h.limit
    have hle := packed_length_le .binaryFrame payload
    show (n.binaryEvBuffer ++ packed .binaryFrame payload).length < _
    rw [List.length_append]
    omega
  · show n.socket ++ (n.binaryEvBuffer ++ packed .binaryFrame payload) =
      (n.queued ++ [payload]).flatMap (packed .binaryFrame)
    rw [← List.append_assoc, hsock, List.flatMap_append, List.flatMap_singleton]
    rfl
  · have hf : n.isStop = true := hstop
    rw [hs] at hf
    cases hf
  · intro p hp'
    have hmem : p ∈ n.queued ++ [payload] := hp'
    rcases List.mem_append.mp hmem with hold | hnew
    · exact h.payloads p hold
    · rw [List.mem_singleton.mp hnew]
      exact hp

theorem encoding_lt {frame payload : List UInt8}
    (hframe : E.encoderType = .encoderNone → frame.length < 2 ^ 31)
    (h : (encoding E n frame).2 = .ok payload) : payload.length < 2 ^ 31 := by
  rw [encoding] at h
  split at h
  · next hnone =>
    cases h
    exact hframe hnone
  · exact E.nlsEncoding_lt _ _ _ h

theorem encoding_eq (n : Node τ) (frame : List UInt8) :
    ∃ c, (encoding E n frame).1 = { n with encoder := c } := by
  rw [encoding]
  split
  · exact ⟨n.encoder, rfl⟩
  · exact ⟨_, rfl⟩

/-- The outcomes of `addAudioDataBuffer`: the frame is refused, or its payload is pushed and the
connection then holds or is lost. -/
theorem add_cases (n : Node τ) (frame : List UInt8) :
    (∃ c, (addAudioDataBuffer E n frame).1 = { n with encoder := c } ∧
      (addAudioDataBuffer E n frame).2 < 0) ∨
    ∃ c payload, (encoding E n frame).2 = .ok payload ∧ n.binaryEvBuffer.length < n.limitSize ∧
      let r := kick E (push { n with encoder := c } payload) n.binaryEvBuffer.length
      0 ≤ r.2 ∧ addAudioDataBuffer E n frame =
          ({ r.1 with isFirstAudioFrame := false }, narrowInt frame.length) ∨
        (addAudioDataBuffer E n frame).2 < 0 ∧
          (addAudioDataBuffer E n frame).1 = handlerTaskFailedEvent (disconnectProcess r.1) := by
  obtain ⟨c, hc⟩ := encoding_eq (E := E) n frame
  rw [addAudioDataBuffer]
  split
  · exact Or.inl ⟨n.encoder, rfl, NlsRetCode.neg_code_lt _⟩
  · simp only [hc]
    split
    · exact Or.inl ⟨c, rfl, NlsRetCode.neg_code_lt _⟩
    · next payload hok =>
      split
      · exact Or.inl ⟨c, rfl, NlsRetCode.neg_code_lt _⟩
      · next hlimit =>
        refine Or.inr ⟨c, payload, hok, Nat.lt_of_not_le hlimit, ?_⟩
        split
        · next hneg => exact Or.inr ⟨hneg, rfl⟩
        · next hpos => exact Or.inl ⟨Int.not_lt.mp hpos, rfl⟩

theorem Inv.failed (h : Inv E n) : Inv E (handlerTaskFailedEvent (disconnectProcess n)) := by
  rw [handlerTaskFailedEvent]
  split
  · exact ⟨h.limit, h.bound, h.running, h.stopped, h.unsliced, h.payloads⟩
  · exact ⟨h.limit, h.bound, h.running, h.stopped, h.unsliced, h.payloads⟩

theorem inv_add (h : Inv E n) (hexit : n.exitStatus = .exitInvalid) {frame : List UInt8}
    (hframe : E.encoderType = .encoderNone → frame.length < 2 ^ 31) :
    Inv E (addAudioDataBuffer E n frame).1 := by
  rcases add_cases (E := E) n frame with ⟨c, heq, -⟩ | ⟨c, payload, hok, hlimit, hr⟩
  · rw [heq]
    exact ⟨h.limit, h.bound, h.running, h.stopped, h.unsliced, h.payloads⟩
  · have hpush := inv_push (n := { n with encoder := c })
      ⟨h.limit, h.bound, h.running, h.stopped, h.unsliced, h.payloads⟩ hexit hlimit (encoding_lt hframe hok)
    have hkick := inv_kick hpush hexit n.binaryEvBuffer.length
    rcases hr with ⟨-, heq⟩ | ⟨-, heq⟩
    · rw [heq]
      exact ⟨hkick.limit, hkick.bound, hkick.running, hkick.stopped, hkick.unsliced, hkick.payloads⟩
    · rw [heq]
      exact hkick.failed

theorem add_exitStatus (n : Node τ) (frame : List UInt8) :
    (addAudioDataBuffer E n frame).1.exitStatus = n.exitStatus := by
  rcases add_cases (E := E) n frame with ⟨c, heq, -⟩ | ⟨c, payload, -, -, hr⟩
  · rw [heq]
  · have hk := kept_kick (E := E) (n := push { n with encoder := c } payload)
      n.binaryEvBuffer.length
    rcases hr with ⟨-, heq⟩ | ⟨-, heq⟩
    · rw [heq]
      exact hk.exitStatus
    · rw [heq, handlerTaskFailedEvent]
      split
      · exact hk.exitStatus
      · exact hk.exitStatus

theorem failed_encoder (n : Node τ) :
    (handlerTaskFailedEvent (disconnectProcess n)).encoder = n.encoder ∧
      (handlerTaskFailedEvent (disconnectProcess n)).audioFrame = n.audioFrame := by
  rw [handlerTaskFailedEvent]
  split
  · exact ⟨rfl, rfl⟩
  · exact ⟨rfl, rfl⟩

theorem add_encoder (n : Node τ) {frame : List UInt8} (hne : frame ≠ []) :
    (addAudioDataBuffer E n frame).1.encoder = (encoding E n frame).1.encoder := by
  rw [addAudioDataBuffer, if_neg hne]
  dsimp only
  split
  · rfl
  · next payload hok =>
    have hk := kept_kick (E := E) (n := push (encoding E n frame).1 payload)
      (encoding E n frame).1.binaryEvBuffer.length
    split
    · rfl
    · split
      · rw [(failed_encoder _).1]
        exact hk.encoder
      · exact hk.encoder

theorem Inv.sliced (h : Inv E n) (hE : E.encoderType ≠ .encoderNone) (frame : List UInt8) :
    Inv E { n with audioFrame := frame } :=
  ⟨h.limit, h.bound, h.running, h.stopped, fun he => absurd he hE, h.payloads⟩

theorem inv_slice {max : ℕ} (hmax : 0 < max) (hE : E.encoderType ≠ .encoderNone) (h : Inv E n)
    (hexit : n.exitStatus = .exitInvalid) (frame : List UInt8) (filling_ret : ℤ) :
    Inv E (sliceLoop E hmax n frame filling_ret).1 := by
  have hadd : ∀ (m : Node τ) (slice : List UInt8), Inv E m → m.exitStatus = .exitInvalid →
      Inv E { (addAudioDataBuffer E m slice).1 with audioFrame := [] } := fun m slice hm hx =>
    (inv_add hm hx fun he => absurd he hE).sliced hE []
  fun_induction sliceLoop E hmax n frame filling_ret with
  | case1 n frame filling_ret used slice hfull r n' hneg => exact hadd n slice h hexit
  | case2 n frame filling_ret used rest slice hfull r n' hpos hrest => exact hadd n slice h hexit
  | case3 n frame filling_ret used rest slice hfull r n' hpos hrest ih =>
    exact ih (hadd n slice h hexit) ((add_exitStatus n slice).trans hexit)
  | case4 n frame filling_ret used slice hfull hpart r n' hneg => exact hadd n slice h hexit
  | case5 n frame filling_ret used slice hfull hpart r n' hpos => exact hadd n slice h hexit
  | case6 n frame filling_ret used slice hfull hpart => exact h.sliced hE _

theorem inv_sendAudio (h : Inv E n) {data : List UInt8} (type : EncoderType)
    (hdata : data.length < 2 ^ 31) : Inv E (AudioUpload.sendAudio E n data type).1 := by
  rw [AudioUpload.sendAudio]
  split
  · exact h
  · next hc =>
    have hexit : n.exitStatus = .exitInvalid := by
      by_contra hne
      exact hc (Or.inr hne)
    split
    · rw [addSlicedAudioDataBuffer]
      split
      · exact inv_add h hexit fun _ => hdata
      · next hE =>
        split
        · exact inv_slice _ hE h hexit data 0
        · exact h
    · exact inv_add h hexit fun _ => hdata

theorem inv_remain (h : Inv E n) (hexit : n.exitStatus = .exitInvalid) :
    Inv E (addRemainAudioData E n).1 ∧
      (addRemainAudioData E n).1.exitStatus = .exitInvalid := by
  rw [addRemainAudioData]
  split
  · next hpos =>
    have hE : E.encoderType ≠ .encoderNone := fun he => by
      rw [h.unsliced he] at hpos
      exact absurd hpos (Nat.lt_irrefl 0)
    exact ⟨(inv_add h hexit fun he => absurd he hE).sliced hE [],
      (add_exitStatus n n.audioFrame).trans hexit⟩
  · exact ⟨h, hexit⟩

theorem inv_cmdNotifyStop (h : Inv E n) (hexit : n.exitStatus = .exitInvalid) :
    Inv E (cmdNotifyStop E n).1 := by
  obtain ⟨hremain, hexit'⟩ := inv_remain h hexit
  have hs := hremain.not_stop hexit'
  have hstop : Inv E { (addRemainAudioData E n).1 with exitStatus := .exitStopping } := by
    refine ⟨hremain.limit, hremain.bound, hremain.running, fun hf => ?_, hremain.unsliced, hremain.payloads⟩
    have ht : (addRemainAudioData E n).1.isStop = true := hf
    rw [hs] at ht
    cases ht
  simp only [cmdNotifyStop]
  by_cases hc : (addRemainAudioData E n).1.workStatus = .nodeStarted ∧
      (addRemainAudioData E n).1.binaryEvBuffer.length = 0
  · rw [if_pos hc]
    have hcontrol := inv_control hstop fun _ => List.eq_nil_of_length_eq_zero hc.2
    split
    · exact hcontrol.failed
    · exact hcontrol
  · rw [if_neg hc, if_neg (Int.lt_irrefl 0)]
    exact hstop

theorem inv_stop (h : Inv E n) : Inv E (AudioUpload.stop E n).1 := by
  rw [AudioUpload.stop]
  split
  · exact h
  · next hc =>
    split
    · exact h
    · apply inv_cmdNotifyStop h
      cases hx : n.exitStatus with
      | exitInvalid => rfl
      | exitStopping => exact absurd (Or.inl hx) hc
      | exitCancel => exact absurd (Or.inr hx) hc

theorem inv_cancel (h : Inv E n) : Inv E (AudioUpload.cancel n).1 := by
  rw [AudioUpload.cancel]
  split
  · exact h
  · split
    · exact h
    · refine ⟨h.limit, h.bound, h.running, fun hs => ⟨?_, (h.stopped hs).2⟩, h.unsliced, h.payloads⟩
      intro hf
      cases hf

theorem Inv.closed (h : Inv E n) : Inv E (closeConnectNode n) :=
  ⟨h.limit, h.bound, h.running, h.stopped, fun _ => rfl, h.payloads⟩

theorem inv_sendStarted (h : Inv E n) : Inv E (sendStarted E n).1 := by
  have hsent : Inv E (nlsSendFrame E n .binary).1 ∧
      ((nlsSendFrame E n .binary).2 = 0 → (nlsSendFrame E n .binary).1.binaryEvBuffer = []) := by
    cases hs : n.isStop with
    | false => exact inv_sendFrame h hs
    | true =>
      obtain ⟨-, hnil, -⟩ := h.stopped hs
      have hlen : (n.buffer .binary).length = 0 := by
        show n.binaryEvBuffer.length = 0
        rw [hnil, List.length_nil]
      rw [nlsSendFrame, if_pos hlen]
      exact ⟨h, fun _ => hnil⟩
  rw [sendStarted]
  split
  · next h0 => exact inv_control hsent.1 fun _ => hsent.2 h0
  · exact hsent.1

theorem inv_requestProcess (h : Inv E n) : Inv E (nodeRequestProcess E n).1 := by
  have hr : Inv E (if n.workStatus = .nodeStarted then sendStarted E n
      else (n, -invalidWorkStatus)).1 := by
    split
    · exact inv_sendStarted h
    · exact h
  rw [nodeRequestProcess]
  generalize (if n.workStatus = .nodeStarted then sendStarted E n
    else (n, -invalidWorkStatus)) = r at hr
  split
  · rw [handlerTaskFailedEvent]
    split
    · exact hr.closed
    · exact ⟨hr.limit, hr.bound, hr.running, hr.stopped, fun _ => rfl, hr.payloads⟩
  · exact hr

theorem inv_writable (h : Inv E n) : Inv E (writeEventCallBack E n) := by
  rw [writeEventCallBack]
  split
  · split
    · exact h.closed
    · exact inv_requestProcess ⟨h.limit, h.bound, h.running, h.stopped, h.unsliced, h.payloads⟩
  · exact h

def Small : Event → Prop
  | .sendAudio data _ => data.length < 2 ^ 31
  | _ => True

instance (e : Event) : Decidable (Small e) :=
  match e with
  | .sendAudio data _ => inferInstanceAs (Decidable (data.length < 2 ^ 31))
  | .writable => isTrue trivial
  | .stop => isTrue trivial
  | .cancel => isTrue trivial
  | .closed _ => isTrue trivial

theorem inv_step (h : Inv E n) {e : Event} (he : Small e) : Inv E (step E n e) := by
  cases e with
  | sendAudio data type => exact inv_sendAudio h type he
  | writable => exact inv_writable h
  | stop => exact inv_stop h
  | cancel => exact inv_cancel h
  | closed status =>
    rw [step]
    split
    · exact ⟨h.limit, h.bound, h.running, h.stopped, fun _ => rfl, h.payloads⟩
    · exact h

theorem inv_run (h : Inv E n) {es : List Event} (hes : ∀ e ∈ es, Small e) : Inv E (run E n es) := by
  induction es generalizing n with
  | nil => exact h
  | cons e es ih =>
    exact ih (inv_step h (hes e List.mem_cons_self)) fun x hx => hes x (List.mem_cons_of_mem e hx)

theorem inv_started {limitSize : ℕ} (hlimit : limitSize ≤ 32000) (c : τ) :
    Inv E (started limitSize c) :=
  ⟨hlimit, Nat.zero_lt_succ _, fun _ => ⟨rfl, rfl⟩, nofun, fun _ => rfl, nofun⟩

end invariant

section server

/-- The messages on the way to the server. -/
def messages (E : Env τ) (n : Node τ) : List Message :=
  n.queued.map (fun p => ⟨true, .binaryFrame, p⟩) ++
    if n.isStop then [⟨true, .textFrame, E.stopCommand⟩] else []

theorem packed_eq (op : OpCodeType) (payload : List UInt8) :
    packed op payload = wire true WebSocketTcp.masKingKey ⟨true, op, payload⟩ := by
  rw [packed, header_eq, List.append_assoc]
  rfl

theorem audio_eq (n : Node τ) :
    audio n = (n.queued.map fun p => (⟨true, .binaryFrame, p⟩ : Message)).flatMap
      (wire true WebSocketTcp.masKingKey) := by
  rw [audio, List.flatMap_map]
  exact List.flatMap_congr fun p _ => packed_eq _ p

theorem Inv.stream (h : Inv E n) :
    n.socket ++ (n.binaryEvBuffer ++ n.cmdEvBuffer) =
      (messages E n).flatMap (wire true WebSocketTcp.masKingKey) := by
  rw [messages, List.flatMap_append, ← audio_eq]
  cases hs : n.isStop with
  | false =>
    obtain ⟨hcmd, hsock⟩ := h.running hs
    rw [hcmd, List.append_nil, hsock]
    exact (List.append_nil _).symm
  | true =>
    obtain ⟨-, hnil, k, hsock, hcmd⟩ := h.stopped hs
    rw [hnil, List.nil_append, hsock, hcmd, List.append_assoc, List.take_append_drop, packed_eq]
    exact congrArg _ (List.flatMap_singleton _ _).symm

theorem legal_binary : Legal .binaryFrame := by decide

theorem legal_text : Legal .textFrame := by decide

theorem Inv.legal (h : Inv E n) :
    ∀ f ∈ messages E n, Legal f.opCode ∧ f.payload.length < 2 ^ 64 := by
  intro f hf
  rcases List.mem_append.mp hf with hq | hs
  · obtain ⟨p, hp, rfl⟩ := List.mem_map.mp hq
    have hlt := h.payloads p hp
    exact ⟨legal_binary, lt_trans hlt (by decide)⟩
  · split at hs
    · rw [List.mem_singleton] at hs
      subst hs
      have hlt := E.stopCommand_lt
      exact ⟨legal_text, lt_trans hlt (by decide)⟩
    · cases hs

/-- The connection is lost, or the audio queued is that of the calls that were answered. -/
def Follows (n n' : Node τ) (data : List (List UInt8)) : Prop :=
  n'.socketOpen = true → n.socketOpen = true ∧ n'.queued = n.queued ++ data

theorem follows_nil {n' : Node τ} (hopen : n'.socketOpen = true → n.socketOpen = true)
    (hq : n'.queued = n.queued) : Follows n n' [] := fun h =>
  ⟨hopen h, by rw [hq, List.append_nil]⟩

theorem lost_follows {n' : Node τ} (h : n'.socketOpen = false) (data : List (List UInt8)) :
    Follows n n' data := fun ho => by
  rw [h] at ho
  cases ho

theorem failed_closed (n : Node τ) :
    (handlerTaskFailedEvent (disconnectProcess n)).socketOpen = false := by
  rw [handlerTaskFailedEvent]
  split
  · rfl
  · rfl

theorem add_follows (hE : E.encoderType = .encoderNone) {frame : List UInt8}
    (hframe : frame.length < 2 ^ 31) :
    Follows n (addAudioDataBuffer E n frame).1
      (if 0 ≤ (addAudioDataBuffer E n frame).2 then [frame] else []) := by
  rcases add_cases (E := E) n frame with ⟨c, heq, hneg⟩ | ⟨c, payload, hok, -, hr⟩
  · rw [if_neg (Int.not_le.mpr hneg), heq]
    exact follows_nil id rfl
  · have hk := kept_kick (E := E) (n := push { n with encoder := c } payload)
      n.binaryEvBuffer.length
    have hpayload : payload = frame := by
      rw [encoding, if_pos hE] at hok
      cases hok
      rfl
    rcases hr with ⟨-, heq⟩ | ⟨hneg, heq⟩
    · have hret : 0 ≤ narrowInt frame.length := by
        rw [narrowInt_eq]
        · exact Int.natCast_nonneg _
        · simp only [InInt, intMin, intMax]
          omega
      rw [heq, if_pos hret, ← hpayload]
      exact fun ho => ⟨hk.socketOpen ▸ ho, hk.queued⟩
    · rw [heq]
      exact lost_follows (failed_closed _) _

theorem sendAudio_follows (hE : E.encoderType = .encoderNone) {data : List UInt8}
    (type : EncoderType) (hdata : data.length < 2 ^ 31) :
    Follows n (AudioUpload.sendAudio E n data type).1
      (taken₁ E n (.sendAudio data type)) := by
  have hadd := add_follows (n := n) hE hdata
  rw [taken₁, AudioUpload.sendAudio]
  split
  · exact follows_nil id rfl
  · split
    · rw [addSlicedAudioDataBuffer, if_pos hE]
      exact hadd
    · exact hadd

theorem stop_follows (hE : E.encoderType = .encoderNone) (h : Inv E n) :
    Follows n (AudioUpload.stop E n).1 [] := by
  have hremain : (addRemainAudioData E n).1 = n := by
    rw [addRemainAudioData, h.unsliced hE]
    rfl
  rw [AudioUpload.stop]
  split
  · exact follows_nil id rfl
  · split
    · exact follows_nil id rfl
    · have hr : Follows n (if n.workStatus = .nodeStarted ∧ n.binaryEvBuffer.length = 0 then
          sendControlDirective E { n with exitStatus := .exitStopping }
          else ({ n with exitStatus := .exitStopping }, 0)).1 [] := by
        split
        · have hk := kept_control (E := E) (n := { n with exitStatus := .exitStopping })
          exact follows_nil (fun ho => hk.socketOpen ▸ ho) hk.queued
        · exact follows_nil id rfl
      simp only [cmdNotifyStop, hremain]
      generalize (if n.workStatus = .nodeStarted ∧ n.binaryEvBuffer.length = 0 then
        sendControlDirective E { n with exitStatus := .exitStopping }
        else ({ n with exitStatus := .exitStopping }, 0)) = r at hr
      split
      · exact lost_follows (failed_closed _) []
      · exact hr

theorem kept_sendStarted : Kept n (sendStarted E n).1 := by
  rw [sendStarted]
  split
  · exact (kept_sendFrame .binary).trans kept_control
  · exact kept_sendFrame .binary

theorem writable_follows : Follows n (writeEventCallBack E n) [] := by
  rw [writeEventCallBack]
  split
  · split
    · exact lost_follows rfl []
    · have hr : Follows n (if n.workStatus = .nodeStarted then
          sendStarted E { n with pending := false }
          else ({ n with pending := false }, -invalidWorkStatus)).1 [] := by
        split
        · have hk := kept_sendStarted (E := E) (n := { n with pending := false })
          exact follows_nil (fun ho => hk.socketOpen ▸ ho) hk.queued
        · exact follows_nil id rfl
      rw [nodeRequestProcess]
      generalize (if n.workStatus = .nodeStarted then sendStarted E { n with pending := false }
        else ({ n with pending := false }, -invalidWorkStatus)) = r at hr
      split
      · exact lost_follows rfl []
      · exact hr
  · exact follows_nil id rfl

theorem step_follows (hE : E.encoderType = .encoderNone) (h : Inv E n) {e : Event} (he : Small e) :
    Follows n (step E n e) (taken₁ E n e) := by
  cases e with
  | sendAudio data type => exact sendAudio_follows hE type he
  | writable => exact writable_follows
  | stop => exact stop_follows hE h
  | cancel =>
    rw [step, AudioUpload.cancel]
    split
    · exact follows_nil id rfl
    · split
      · exact follows_nil id rfl
      · exact follows_nil id rfl
  | closed status =>
    rw [step]
    split
    · exact lost_follows rfl _
    · exact follows_nil id rfl

theorem run_follows (hE : E.encoderType = .encoderNone) (h : Inv E n) {es : List Event}
    (hes : ∀ e ∈ es, Small e) : Follows n (run E n es) (taken E n es) := by
  induction es generalizing n with
  | nil => exact follows_nil id rfl
  | cons e es ih =>
    have he := hes e List.mem_cons_self
    have hstep := step_follows hE h he
    have htail := ih (inv_step h he) fun x hx => hes x (List.mem_cons_of_mem e hx)
    intro ho
    obtain ⟨ho', hq'⟩ := htail ho
    obtain ⟨ho'', hq''⟩ := hstep ho'
    refine ⟨ho'', ?_⟩
    rw [taken, ← List.append_assoc, ← hq'']
    exact hq'

/-- Whatever the socket takes of each write, the server reads the queued audio in order and
after it the stop command, up to the point the bytes have reached. -/
theorem server_reads_in_order {limitSize : ℕ} (hlimit : limitSize ≤ 32000) (c : τ)
    {es : List Event} (hes : ∀ e ∈ es, Small e) :
    let n := run E (started limitSize c) es
    (frames true).items n.socket <+: messages E n ∧
      (n.binaryEvBuffer = [] → n.cmdEvBuffer = [] →
        (frames true).items n.socket = messages E n) ∧
      (E.encoderType = .encoderNone → n.socketOpen = true →
        n.queued = taken E (started limitSize c) es) := by
  intro n
  have hinit := inv_started (E := E) hlimit c
  have hn : Inv E n := inv_run hinit hes
  have W := FrameFormat.writer true WebSocketTcp.masKingKey rfl
  refine ⟨W.items_prefix hn.legal ?_, fun hb hc => ?_, fun hE ho => ?_⟩
  · rw [← hn.stream]
    exact List.prefix_append _ _
  · have hs := hn.stream
    rw [hb, hc, List.append_nil, List.append_nil] at hs
    rw [hs, W.items_encoded hn.legal]
  · exact (run_follows hE hinit hes ho).2

/-- A socket that takes three bytes of every write, and no encoder. -/
def threes : Env Unit where
  write _ := .took 3
  stopCommand := [115]
  stopCommand_lt := by decide
  encoderType := .encoderNone
  getFrameSampleBytes := 0
  nlsEncoding c _ := (c, .error 0)
  nlsEncoding_lt := nofun

theorem server_reads_in_order_three :
    (frames true).items (run threes (started 32000 ()) [.sendAudio [1, 2] .encoderOpus, .stop]).socket
      <+: [⟨true, .binaryFrame, [1, 2]⟩] := by
  have hes : ∀ e ∈ [.sendAudio [1, 2] .encoderOpus, .stop], Small e := by decide
  have hlimit : 32000 ≤ 32000 := by decide
  exact (server_reads_in_order (E := threes) hlimit () hes).1

end server

end RtmpRelay.AudioDelivery
