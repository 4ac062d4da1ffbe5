import RtmpRelay.AudioDelivery

/-!
# The end of the audio

While the node runs and is not cancelled, audio that waits in the buffer has
the write event armed, so a socket that keeps taking bytes empties the buffer
and the stop command follows. It is written once: after that the node sends
nothing, whatever comes.
-/

namespace RtmpRelay.AudioProgress

open WebSocketTcp FrameFormat AudioUpload AudioDelivery Chunked Media

variable {τ : Type*} {E : Env τ} {n : Node τ}

section silence

/-- The node has written its stop command and is not started again. -/
structure Silent (n n' : Node τ) : Prop where
  isStop : n'.isStop = true
  exitStatus : n'.exitStatus ≠ .exitInvalid
  socket : n'.socket = n.socket
  binary : n'.binaryEvBuffer = []
  cmd : n'.cmdEvBuffer = n.cmdEvBuffer
  queued : n'.queued = n.queued

theorem silent_sendAudio {n₀ : Node τ} (h : Silent n₀ n) (data : List UInt8) (type : EncoderType) :
    (AudioUpload.sendAudio E n data type).1 = n := by
  rw [AudioUpload.sendAudio, if_pos (Or.inr h.exitStatus)]

theorem silent_control {n₀ : Node τ} (h : Silent n₀ n) : sendControlDirective E n = (n, 0) := by
  rw [sendControlDirective, if_neg fun hc => h.exitStatus hc.2, if_neg]
  intro hc
  rw [h.isStop] at hc
  cases hc.2

theorem silent_sendStarted {n₀ : Node τ} (h : Silent n₀ n) : sendStarted E n = (n, 0) := by
  have hlen : (n.buffer .binary).length = 0 := by
    show n.binaryEvBuffer.length = 0
    rw [h.binary, List.length_nil]
  have hsend : nlsSendFrame E n .binary = (n, 0) := by rw [nlsSendFrame, if_pos hlen]
  simp only [sendStarted, hsend, if_true]
  exact silent_control h

theorem Silent.closed {n₀ : Node τ} (h : Silent n₀ n) : Silent n₀ (closeConnectNode n) :=
  ⟨h.isStop, h.exitStatus, h.socket, h.binary, h.cmd, h.queued⟩

theorem silent_writable {n₀ : Node τ} (h : Silent n₀ n) : Silent n₀ (writeEventCallBack E n) := by
  have hp : Silent n₀ { n with pending := false } :=
    ⟨h.isStop, h.exitStatus, h.socket, h.binary, h.cmd, h.queued⟩
  have hr : Silent n₀ (if n.workStatus = .nodeStarted then sendStarted E { n with pending := false }
      else ({ n with pending := false }, -invalidWorkStatus)).1 := by
    split
    · rw [silent_sendStarted hp]
      exact hp
    · exact hp
  rw [writeEventCallBack]
  split
  · split
    · exact h.closed
    · rw [nodeRequestProcess]
      generalize (if n.workStatus = .nodeStarted then sendStarted E { n with pending := false }
        else ({ n with pending := false }, -invalidWorkStatus)) = r at hr
      split
      · rw [handlerTaskFailedEvent]
        split
        · exact hr.closed
        · exact ⟨hr.isStop, hr.exitStatus, hr.socket, hr.binary, hr.cmd, hr.queued⟩
      · exact hr
  · exact h

theorem silent_stop {n₀ : Node τ} (h : Silent n₀ n) : (AudioUpload.stop E n).1 = n := by
  rw [AudioUpload.stop, if_pos]
  cases hx : n.exitStatus with
  | exitInvalid => exact absurd hx h.exitStatus
  | exitStopping => exact Or.inl rfl
  | exitCancel => exact Or.inr rfl

theorem silent_step {n₀ : Node τ} (h : Silent n₀ n) (e : Event) : Silent n₀ (step E n e) := by
  cases e with
  | sendAudio data type =>
    rw [step, silent_sendAudio h]
    exact h
  | writable => exact silent_writable h
  | stop =>
    rw [step, silent_stop h]
    exact h
  | cancel =>
    rw [step, AudioUpload.cancel]
    split
    · exact h
    · split
      · exact h
      · exact ⟨h.isStop, ExitStatus.cancel_ne_invalid, h.socket, h.binary, h.cmd, h.queued⟩
  | closed status =>
    rw [step]
    split
    · exact ⟨h.isStop, h.exitStatus, h.socket, h.binary, h.cmd, h.queued⟩
    · exact h

theorem silent_run {n₀ : Node τ} (h : Silent n₀ n) (es : List Event) : Silent n₀ (run E n es) := by
  induction es generalizing n with
  | nil => exact h
  | cons e es ih => exact ih (silent_step h e)

theorem Inv.silent (h : Inv E n) (hs : n.isStop = true) : Silent n n := by
  obtain ⟨hexit, hnil, -⟩ := h.stopped hs
  exact ⟨hs, hexit, rfl, hnil, rfl, rfl⟩

theorem items_part {f : Message} (hf : Legal f.opCode ∧ f.payload.length < 2 ^ 64)
    {p t : List UInt8} (hp : p ++ t = wire true WebSocketTcp.masKingKey f) (ht : t ≠ []) :
    (frames true).items p = [] := by
  have W := FrameFormat.writer true WebSocketTcp.masKingKey rfl
  have hpre : p <+: [f].flatMap (wire true WebSocketTcp.masKingKey) := by
    rw [List.flatMap_singleton, ← hp]
    exact List.prefix_append p t
  have hall : ∀ x ∈ [f], Legal x.opCode ∧ x.payload.length < 2 ^ 64 :=
    fun x hx => List.mem_singleton.mp hx ▸ hf
  obtain ⟨k, hk, hsplit⟩ := W.split_prefix hall hpre
  cases k with
  | zero => exact hk
  | succ k =>
    rw [List.take_succ_cons, List.take_nil, List.flatMap_singleton, ← hp] at hsplit
    have hlen := congrArg List.length hsplit
    have htpos := List.length_pos_of_ne_nil ht
    rw [List.length_append, List.length_append] at hlen
    omega

/-- A stop command that its one write leaves incomplete stays so: whatever follows, the server
reads the queued audio and no stop. -/
theorem cut_stop_never_read {limitSize : ℕ} (hlimit : limitSize ≤ 32000) (c : τ)
    {es : List Event} (hes : ∀ e ∈ es, Small e)
    (hs : (run E (started limitSize c) es).isStop = true)
    (hcut : (run E (started limitSize c) es).cmdEvBuffer ≠ []) (es' : List Event) :
    let n := run E (run E (started limitSize c) es) es'
    n.cmdEvBuffer ≠ [] ∧
      (frames true).items n.socket = n.queued.map fun p => ⟨true, .binaryFrame, p⟩ := by
  intro n
  have hinv : Inv E (run E (started limitSize c) es) := inv_run (inv_started hlimit c) hes
  have hsilent : Silent _ n := silent_run (Inv.silent hinv hs) es'
  obtain ⟨-, -, k, hsock, hcmd⟩ := hinv.stopped hs
  have W := FrameFormat.writer true WebSocketTcp.masKingKey rfl
  have hlt := E.stopCommand_lt
  have hpart : (frames true).items ((packed .textFrame E.stopCommand).take k) = [] := by
    refine items_part (f := ⟨true, .textFrame, E.stopCommand⟩)
      ⟨legal_text, lt_trans hlt (by decide)⟩ ?_ hcut
    rw [hcmd, List.take_append_drop, packed_eq]
  have hlegal : ∀ f ∈ (run E (started limitSize c) es).queued.map
      fun p => (⟨true, .binaryFrame, p⟩ : Message), Legal f.opCode ∧ f.payload.length < 2 ^ 64 :=
    fun f hf => hinv.legal f (List.mem_append_left _ hf)
  rw [hsilent.cmd, hsilent.socket, hsilent.queued]
  refine ⟨hcut, ?_⟩
  rw [hsock, audio_eq, W.items_flatMap hlegal, hpart, List.append_nil]

theorem cut_stop_never_read_three :
    let n := run threes (run threes (started 32000 ()) [.stop]) [.writable, .writable, .stop]
    n.cmdEvBuffer ≠ [] ∧
      (frames true).items n.socket = n.queued.map fun p => ⟨true, .binaryFrame, p⟩ :=
  cut_stop_never_read (by decide) () (by decide) (by decide) (by decide)
    [.writable, .writable, .stop]

end silence

section progress

/-- While the node runs and is not cancelled, waiting audio has the write event armed and a stop
that was asked for waits for audio. -/
def Armed (n : Node τ) : Prop :=
  n.workStatus = .nodeStarted → n.exitStatus ≠ .exitCancel →
    n.writeEvent = true ∧ n.socketOpen = true ∧ (n.binaryEvBuffer ≠ [] → n.pending = true) ∧
      (n.exitStatus = .exitStopping → n.isStop = false → n.binaryEvBuffer ≠ [])

theorem armed_failed (hexit : n.exitStatus ≠ .exitCancel) :
    Armed (handlerTaskFailedEvent (disconnectProcess n)) := by
  have h : handlerTaskFailedEvent (disconnectProcess n) =
      { disconnectProcess n with workStatus := .nodeClosed } := if_neg hexit
  rw [h]
  intro hst
  cases hst

theorem control_idle (hexit : n.exitStatus = .exitInvalid) (hcmd : n.cmdEvBuffer = []) :
    sendControlDirective E n = (n, 0) := by
  have hlen : ¬ n.cmdEvBuffer.length ≠ 0 := by
    rw [hcmd]
    exact fun h => h rfl
  have hstop : ¬ (n.exitStatus = .exitStopping ∧ n.isStop = false) := by
    rw [hexit]
    intro h
    cases h.1
  rw [sendControlDirective, if_neg hlen, if_neg hstop]
  split
  · rfl
  · rfl

theorem armed_kick (h : Inv E n) (hexit : n.exitStatus = .exitInvalid) {length : ℕ}
    (hne : length ≠ 0 → n.workStatus = .nodeStarted → n.pending = true)
    (hup : n.workStatus = .nodeStarted → n.writeEvent = true ∧ n.socketOpen = true)
    (hret : 0 ≤ (kick E n length).2) : Armed (kick E n length).1 := by
  have hs := h.not_stop hexit
  obtain ⟨hcmd, -⟩ := h.running hs
  have hkept := kept_kick (E := E) (n := n) length
  intro hst _
  rw [hkept.workStatus] at hst
  obtain ⟨hw, ho⟩ := hup hst
  refine ⟨hkept.writeEvent.trans hw, hkept.socketOpen.trans ho, ?_, ?_⟩
  · by_cases hc : length = 0 ∧ n.workStatus = .nodeStarted ∧ n.isStop = false
    · obtain ⟨k, s, p, hmoved, hzero, -, hp⟩ := nlsSendFrame_moved (E := E) (n := n) .binary
      simp only [kick, if_pos hc, hmoved] at hret ⊢
      split at hret
      · next h0 =>
        rw [if_pos h0, control_idle (n := moved n .binary k s p) hexit hcmd]
        intro hbin
        have hb := h.bound
        exact absurd (hzero h0 (show n.binaryEvBuffer.length < 2 ^ 32 by omega)) hbin
      · next h0 =>
        rw [if_neg h0, hmoved]
        intro hbin
        rcases hp hret with hp | ⟨-, hnil⟩
        · exact hp
        · exact absurd hnil hbin
    · have hlen : length ≠ 0 := fun h0 => hc ⟨h0, hst, hs⟩
      simp only [kick, if_neg hc, if_true, control_idle hexit hcmd]
      exact fun _ => hne hlen hst
  · intro hstop
    rw [hkept.exitStatus, hexit] at hstop
    cases hstop

theorem armed_add (h : Inv E n) (ha : Armed n) (hexit : n.exitStatus = .exitInvalid)
    {frame : List UInt8} (hframe : E.encoderType = .encoderNone → frame.length < 2 ^ 31) :
    Armed (addAudioDataBuffer E n frame).1 := by
  have hcancel : n.exitStatus ≠ .exitCancel := by
    rw [hexit]
    decide
  rcases add_cases (E := E) n frame with ⟨c, heq, -⟩ | ⟨c, payload, hok, hlimit, hr⟩
  · rw [heq]
    exact ha
  · have hpush := inv_push (n := { n with encoder := c })
      ⟨h.limit, h.bound, h.running, h.stopped, h.unsliced, h.payloads⟩ hexit hlimit
      (encoding_lt hframe hok)
    rcases hr with ⟨hpos, heq⟩ | ⟨-, heq⟩
    · rw [heq]
      refine armed_kick hpush hexit (fun hlen hst => ?_) (fun hst => ?_) hpos
      · obtain ⟨-, -, hp, -⟩ := ha hst hcancel
        exact hp fun hnil => hlen (by rw [hnil, List.length_nil])
      · obtain ⟨hw, ho, -⟩ := ha hst hcancel
        exact ⟨hw, ho⟩
    · rw [heq]
      apply armed_failed
      have hk := kept_kick (E := E) (n := push { n with encoder := c } payload)
        n.binaryEvBuffer.length
      rw [hk.exitStatus]
      exact hcancel

theorem armed_slice {max : ℕ} (hmax : 0 < max) (hE : E.encoderType ≠ .encoderNone) (h : Inv E n)
    (ha : Armed n) (hexit : n.exitStatus = .exitInvalid) (frame : List UInt8) (filling_ret : ℤ) :
    Armed (sliceLoop E hmax n frame filling_ret).1 := by
  have hframe : ∀ slice : List UInt8, E.encoderType = .encoderNone → slice.length < 2 ^ 31 :=
    fun _ he => absurd he hE
  fun_induction sliceLoop E hmax n frame filling_ret with
  | case1 n frame filling_ret used slice hfull r n' hneg => exact armed_add h ha hexit (hframe _)
  | case2 n frame filling_ret used rest slice hfull r n' hpos hrest =>
    exact armed_add h ha hexit (hframe _)
  | case3 n frame filling_ret used rest slice hfull r n' hpos hrest ih =>
    exact ih ((inv_add h hexit (hframe _)).sliced hE []) (armed_add h ha hexit (hframe _))
      ((add_exitStatus n slice).trans hexit)
  | case4 n frame filling_ret used slice hfull hpart r n' hneg =>
    exact armed_add h ha hexit (hframe _)
  | case5 n frame filling_ret used slice hfull hpart r n' hpos =>
    exact armed_add h ha hexit (hframe _)
  | case6 n frame filling_ret used slice hfull hpart => exact ha

theorem armed_sendAudio (h : Inv E n) (ha : Armed n) {data : List UInt8} (type : EncoderType)
    (hdata : data.length < 2 ^ 31) : Armed (AudioUpload.sendAudio E n data type).1 := by
  rw [AudioUpload.sendAudio]
  split
  · exact ha
  · next hc =>
    have hexit : n.exitStatus = .exitInvalid := by
      by_contra hne
      exact hc (Or.inr hne)
    split
    · rw [addSlicedAudioDataBuffer]
      split
      · exact armed_add h ha hexit fun _ => hdata
      · next hE =>
        split
        · exact armed_slice _ hE h ha hexit data 0
        · exact ha
    · exact armed_add h ha hexit fun _ => hdata

theorem control_stops (hexit : n.exitStatus = .exitStopping) (hs : n.isStop = false) :
    (sendControlDirective E n).1.isStop = true := by
  have hno : ¬ (n.workStatus = .nodeStarted ∧ n.exitStatus = .exitInvalid) := by
    rw [hexit]
    intro hc
    cases hc.2
  rw [sendControlDirective, if_neg hno, if_pos ⟨hexit, hs⟩]

theorem armed_control (h : Inv E n) (hexit : n.exitStatus = .exitStopping)
    (hs : n.isStop = false) (hnil : n.binaryEvBuffer = [])
    (hup : n.workStatus = .nodeStarted → n.writeEvent = true ∧ n.socketOpen = true) :
    Armed (sendControlDirective E n).1 := by
  have hkept := kept_control (E := E) (n := n)
  have hstop := control_stops (E := E) hexit hs
  have hinv : Inv E (sendControlDirective E n).1 := inv_control h fun _ => hnil
  obtain ⟨-, hbin, -⟩ := hinv.stopped hstop
  intro hst _
  rw [hkept.workStatus] at hst
  obtain ⟨hw, ho⟩ := hup hst
  refine ⟨hkept.writeEvent.trans hw, hkept.socketOpen.trans ho, fun hne => absurd hbin hne, ?_⟩
  intro _ hf
  rw [hstop] at hf
  cases hf

theorem armed_stop (h : Inv E n) (ha : Armed n) : Armed (AudioUpload.stop E n).1 := by
  rw [AudioUpload.stop]
  split
  · exact ha
  · next hc =>
    split
    · exact ha
    · have hexit : n.exitStatus = .exitInvalid := by
        cases hx : n.exitStatus with
        | exitInvalid => rfl
        | exitStopping => exact absurd (Or.inl hx) hc
        | exitCancel => exact absurd (Or.inr hx) hc
      obtain ⟨hremain, hexit'⟩ := inv_remain h hexit
      have haremain : Armed (addRemainAudioData E n).1 := by
        rw [addRemainAudioData]
        split
        · next hpos =>
          have hE : E.encoderType ≠ .encoderNone := fun he => by
            rw [h.unsliced he] at hpos
            exact absurd hpos (Nat.lt_irrefl 0)
          exact armed_add h ha hexit fun he => absurd he hE
        · exact ha
      have hs := hremain.not_stop hexit'
      have hcancel : (addRemainAudioData E n).1.exitStatus ≠ .exitCancel := by
        rw [hexit']
        decide
      have hstopping : Inv E { (addRemainAudioData E n).1 with exitStatus := .exitStopping } := by
        refine ⟨hremain.limit, hremain.bound, hremain.running, fun hf => ?_, hremain.unsliced,
          hremain.payloads⟩
        have ht : (addRemainAudioData E n).1.isStop = true := hf
        rw [hs] at ht
        cases ht
      simp only [cmdNotifyStop]
      by_cases hb : (addRemainAudioData E n).1.workStatus = .nodeStarted ∧
          (addRemainAudioData E n).1.binaryEvBuffer.length = 0
      · rw [if_pos hb]
        split
        · have hk := kept_control (E := E)
            (n := { (addRemainAudioData E n).1 with exitStatus := .exitStopping })
          apply armed_failed
          rw [hk.exitStatus]
          exact ExitStatus.stopping_ne_cancel
        · refine armed_control hstopping rfl hs (List.eq_nil_of_length_eq_zero hb.2) fun hst => ?_
          obtain ⟨hw, ho, -⟩ := haremain hst hcancel
          exact ⟨hw, ho⟩
      · rw [if_neg hb, if_neg (Int.lt_irrefl 0)]
        intro hst _
        obtain ⟨hw, ho, hp, -⟩ := haremain hst hcancel
        refine ⟨hw, ho, hp, fun _ _ hnil => hb ⟨hst, ?_⟩⟩
        have hnil' : (addRemainAudioData E n).1.binaryEvBuffer = [] := hnil
        rw [hnil', List.length_nil]

theorem armed_sendStarted (h : Inv E n) (hw : n.writeEvent = true) (ho : n.socketOpen = true)
    (hexit : n.exitStatus ≠ .exitCancel) (hret : 0 ≤ (sendStarted E n).2) :
    Armed (sendStarted E n).1 := by
  cases hs : n.isStop with
  | true =>
    have hsil := silent_sendStarted (E := E) (Inv.silent h hs)
    obtain ⟨-, hnil, -⟩ := h.stopped hs
    rw [hsil]
    refine fun _ _ => ⟨hw, ho, fun hne => absurd hnil hne, fun _ hf => ?_⟩
    have hf' : n.isStop = false := hf
    rw [hs] at hf'
    cases hf'
  | false =>
    obtain ⟨hcmd, -⟩ := h.running hs
    obtain ⟨k, s, p, hmoved, hzero, hmore, hp⟩ := nlsSendFrame_moved (E := E) (n := n) .binary
    have hsent := (inv_sendFrame h hs).1
    rw [hmoved] at hsent
    simp only [sendStarted, hmoved] at hret ⊢
    by_cases h0 : (nlsSendFrame E n .binary).2 = 0
    · rw [if_pos h0]
      have hb := h.bound
      have hnil := hzero h0 (show n.binaryEvBuffer.length < 2 ^ 32 by omega)
      cases hx : n.exitStatus with
      | exitInvalid =>
        rw [control_idle (n := moved n .binary k s p) hx hcmd]
        refine fun _ _ => ⟨hw, ho, fun hne => absurd hnil hne, fun hf => ?_⟩
        rw [moved_exitStatus, hx] at hf
        cases hf
      | exitStopping => exact armed_control hsent hx hs hnil fun _ => ⟨hw, ho⟩
      | exitCancel => exact absurd hx hexit
    · rw [if_neg h0] at hret ⊢
      rw [hmoved]
      have hpos : 0 < (nlsSendFrame E n .binary).2 := by omega
      refine fun _ _ => ⟨hw, ho, fun hne => ?_, fun _ _ => hmore hpos⟩
      rcases hp hret with hp | ⟨-, hnil⟩
      · exact hp
      · exact absurd hnil hne

theorem armed_writable (h : Inv E n) (ha : Armed n) : Armed (writeEventCallBack E n) := by
  rw [writeEventCallBack]
  split
  · split
    · next hcancel =>
      exact fun _ hne => absurd hcancel hne
    · next hcancel =>
      have hinv : Inv E { n with pending := false } :=
        ⟨h.limit, h.bound, h.running, h.stopped, h.unsliced, h.payloads⟩
      have hr : (if n.workStatus = .nodeStarted then sendStarted E { n with pending := false }
          else ({ n with pending := false }, -invalidWorkStatus)).1.exitStatus = n.exitStatus := by
        split
        · exact (kept_sendStarted (E := E) (n := { n with pending := false })).exitStatus
        · rfl
      by_cases hst : n.workStatus = .nodeStarted
      · obtain ⟨hw, ho, -⟩ := ha hst hcancel
        have hs := armed_sendStarted hinv hw ho hcancel
        simp only [nodeRequestProcess, if_pos hst] at hr ⊢
        split
        · next hneg =>
          have hclosed : handlerTaskFailedEvent (sendStarted E { n with pending := false }).1 =
              { (sendStarted E { n with pending := false }).1 with workStatus := .nodeClosed } :=
            if_neg (by rw [hr]; exact hcancel)
          rw [hclosed]
          intro hf
          cases hf
        · next hpos => exact hs (Int.not_lt.mp hpos)
      · simp only [nodeRequestProcess, if_neg hst]
        rw [if_pos (by decide)]
        have hclosed : handlerTaskFailedEvent { n with pending := false } =
            { n with pending := false, workStatus := .nodeClosed } := if_neg hcancel
        rw [hclosed]
        intro hf
        cases hf
  · exact ha

theorem armed_step (h : Inv E n) (ha : Armed n) {e : Event} (he : Small e) : Armed (step E n e) := by
  cases e with
  | sendAudio data type => exact armed_sendAudio h ha type he
  | writable => exact armed_writable h ha
  | stop => exact armed_stop h ha
  | cancel =>
    rw [step, AudioUpload.cancel]
    split
    · exact ha
    · split
      · exact ha
      · exact fun _ hne => absurd rfl hne
  | closed status =>
    rw [step]
    split
    · next hge =>
      intro hst
      have hst' : status = .nodeStarted := hst
      rw [hst'] at hge
      exact absurd hge (by decide)
    · exact ha

theorem armed_run (h : Inv E n) (ha : Armed n) {es : List Event} (hes : ∀ e ∈ es, Small e) :
    Armed (run E n es) := by
  induction es generalizing n with
  | nil => exact ha
  | cons e es ih =>
    have he := hes e List.mem_cons_self
    exact ih (inv_step h he) (armed_step h ha he) fun x hx => hes x (List.mem_cons_of_mem e hx)

theorem armed_started (limitSize : ℕ) (c : τ) : Armed (started limitSize c) :=
  fun _ _ => ⟨rfl, rfl, fun h => absurd rfl h, fun h => absurd h ExitStatus.invalid_ne_stopping⟩

/-- The socket takes at least one byte of every write. -/
def Takes (E : Env τ) : Prop := ∀ i, ∃ k, 0 < k ∧ E.write i = .took k

theorem nlsSend_takes (hE : Takes E) (ho : n.socketOpen = true) (ch : Channel) {size : ℕ}
    (hsize : 0 < size) :
    ∃ k s, 0 < k ∧ nlsSend E n ch size = some (moved n ch k s n.pending) := by
  obtain ⟨k, hk, hwrite⟩ := hE n.sends
  refine ⟨min k size, n.sends + 1, lt_min hk hsize, ?_⟩
  rw [nlsSend, hwrite]
  simp only [ho, if_true]
  cases ch with
  | binary => rfl
  | cmd => rfl

theorem sendFrame_takes (hE : Takes E) (ho : n.socketOpen = true) (hw : n.writeEvent = true)
    (ch : Channel) (hne : n.buffer ch ≠ []) (hlt : (n.buffer ch).length < 2 ^ 31) :
    0 ≤ (nlsSendFrame E n ch).2 ∧
      ((nlsSendFrame E n ch).1.buffer ch).length < (n.buffer ch).length := by
  have hpos := List.length_pos_of_ne_nil hne
  have hsize : 0 < min (n.buffer ch).length nodeFrameSize := lt_min hpos (by decide)
  obtain ⟨k, s, hk, hsend⟩ := nlsSend_takes hE ho ch hsize
  have hshort : ((n.buffer ch).drop k).length < (n.buffer ch).length := by
    rw [List.length_drop]
    omega
  have hnarrow : 0 ≤ narrowInt ((n.buffer ch).drop k).length := by
    rw [narrowInt_eq]
    · exact Int.natCast_nonneg _
    · simp only [InInt, intMin, intMax]
      omega
  rw [nlsSendFrame, if_neg (Nat.ne_of_gt hpos), hsend]
  simp only [moved_buffer]
  split
  · rw [if_neg (by rw [moved_writeEvent, hw]; decide)]
    rw [moved_arm]
    simp only [moved_buffer]
    exact ⟨hnarrow, hshort⟩
  · simp only [moved_buffer]
    exact ⟨hnarrow, hshort⟩

/-- A node that still has audio to send before its stop command. -/
structure Draining (n : Node τ) : Prop where
  workStatus : n.workStatus = .nodeStarted
  exitStatus : n.exitStatus = .exitStopping
  isStop : n.isStop = false
  short : n.binaryEvBuffer.length < 2 ^ 31

theorem writable_drains (hE : Takes E) (h : Inv E n) (ha : Armed n) (hd : Draining n) :
    (writeEventCallBack E n).isStop = true ∨
      Draining (writeEventCallBack E n) ∧
        (writeEventCallBack E n).binaryEvBuffer.length < n.binaryEvBuffer.length := by
  have hcancel : n.exitStatus ≠ .exitCancel := by
    rw [hd.exitStatus]
    decide
  obtain ⟨hw, ho, hp, hstop⟩ := ha hd.workStatus hcancel
  have hne := hstop hd.exitStatus hd.isStop
  obtain ⟨hret, hless⟩ := sendFrame_takes (n := { n with pending := false })
    hE ho hw .binary hne hd.short
  have hinv : Inv E { n with pending := false } :=
    ⟨h.limit, h.bound, h.running, h.stopped, h.unsliced, h.payloads⟩
  have hkept := kept_sendFrame (E := E) (n := { n with pending := false }) .binary
  rw [writeEventCallBack, if_pos (hp hne), if_neg hcancel]
  simp only [nodeRequestProcess, if_pos hd.workStatus, sendStarted]
  by_cases h0 : (nlsSendFrame E { n with pending := false } .binary).2 = 0
  · left
    have hs : (nlsSendFrame E { n with pending := false } .binary).1.isStop = false := by
      obtain ⟨k, s, p, hmoved, -⟩ := nlsSendFrame_moved (E := E) (n := { n with pending := false })
        .binary
      rw [hmoved]
      exact hd.isStop
    have hstopped := control_stops (E := E) (hkept.exitStatus.trans hd.exitStatus) hs
    rw [if_pos h0]
    split
    · rw [handlerTaskFailedEvent]
      split
      · exact hstopped
      · exact hstopped
    · exact hstopped
  · right
    rw [if_neg h0, if_neg (Int.not_lt.mpr hret)]
    refine ⟨⟨hkept.workStatus.trans hd.workStatus, hkept.exitStatus.trans hd.exitStatus, ?_,
      lt_trans hless hd.short⟩, hless⟩
    obtain ⟨k, s, p, hmoved, -⟩ := nlsSendFrame_moved (E := E) (n := { n with pending := false })
      .binary
    rw [hmoved]
    exact hd.isStop

theorem drained (hE : Takes E) (h : Inv E n) (ha : Armed n) (hd : Draining n) {m : ℕ}
    (hm : n.binaryEvBuffer.length ≤ m) :
    (run E n (List.replicate m .writable)).isStop = true := by
  induction m generalizing n with
  | zero =>
    have hcancel : n.exitStatus ≠ .exitCancel := by
      rw [hd.exitStatus]
      decide
    obtain ⟨-, -, -, hstop⟩ := ha hd.workStatus hcancel
    exact absurd (List.eq_nil_of_length_eq_zero (Nat.le_zero.mp hm))
      (hstop hd.exitStatus hd.isStop)
  | succ m ih =>
    have hinv : Inv E (writeEventCallBack E n) := inv_writable h
    rcases writable_drains hE h ha hd with hs | ⟨hd', hless⟩
    · exact (silent_run (Inv.silent hinv hs) (List.replicate m .writable)).isStop
    · exact ih hinv (armed_writable h ha) hd' (Nat.le_of_lt_succ (Nat.lt_of_lt_of_le hless hm))

/-- Once stop was asked for, a socket that takes bytes gets every byte of the queued audio and
then the stop command. -/
theorem stop_follows_audio (hE : Takes E) {limitSize : ℕ} (hlimit : limitSize ≤ 32000) (c : τ)
    {es : List Event} (hes : ∀ e ∈ es, Small e)
    (hd : Draining (run E (started limitSize c) es)) {m : ℕ}
    (hm : (run E (started limitSize c) es).binaryEvBuffer.length ≤ m) :
    let n := run E (run E (started limitSize c) es) (List.replicate m .writable)
    n.isStop = true ∧
      (n.queued.map fun p => ⟨true, .binaryFrame, p⟩) <+: (frames true).items n.socket := by
  intro n
  have hinit := inv_started (E := E) hlimit c
  have hinv : Inv E (run E (started limitSize c) es) := inv_run hinit hes
  have harmed : Armed (run E (started limitSize c) es) :=
    armed_run hinit (armed_started limitSize c) hes
  have hstop : n.isStop = true := drained hE hinv harmed hd hm
  have hn : Inv E n := inv_run hinv fun e he => by
    rw [List.eq_of_mem_replicate he]
    trivial
  obtain ⟨-, -, k, hsock, -⟩ := hn.stopped hstop
  have W := FrameFormat.writer true WebSocketTcp.masKingKey rfl
  have hlegal : ∀ f ∈ n.queued.map fun p => (⟨true, .binaryFrame, p⟩ : Message),
      Legal f.opCode ∧ f.payload.length < 2 ^ 64 :=
    fun f hf => hn.legal f (List.mem_append_left _ hf)
  refine ⟨hstop, ?_⟩
  rw [hsock, audio_eq, W.items_flatMap hlegal]
  exact List.prefix_append _ _

theorem threes_takes : Takes threes := fun _ => ⟨3, by decide, rfl⟩

theorem stop_follows_audio_three :
    let n := run threes (run threes (started 32000 ()) [.sendAudio [1, 2] .encoderOpus, .stop])
      (List.replicate 5 .writable)
    n.isStop = true ∧
      (n.queued.map fun p => ⟨true, .binaryFrame, p⟩) <+: (frames true).items n.socket :=
  stop_follows_audio threes_takes (by decide) () (by decide)
    ⟨by decide, by decide, by decide, by decide⟩ (by decide)

end progress

end RtmpRelay.AudioProgress
