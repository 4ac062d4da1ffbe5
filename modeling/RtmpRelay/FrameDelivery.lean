import RtmpRelay.WebSocketResponse

/-!
# What the receive loop hands on

The frames a server may send the node are text, binary and continuation frames
that carry something, and pongs that carry nothing. Whatever the chunks they
arrive in, the loop hands them on once each and in order, and keeps less than
one frame. A ping is never drained: nothing behind it is handed on.
-/

namespace RtmpRelay.FrameDelivery

open WebSocketTcp FrameFormat WebSocketResponse Chunked Media

def Served (f : Message) : Prop :=
  Legal f.opCode ∧ f.payload.length + 14 < 2 ^ 31 ∧
    (f.opCode.IsData ∧ f.payload ≠ [] ∨ f.opCode = .pong ∧ f.payload = [])

instance (f : Message) : Decidable (Served f) := inferInstanceAs (Decidable (_ ∧ _ ∧ _))

def Ping (f : Message) : Prop :=
  Legal f.opCode ∧ f.payload.length + 14 < 2 ^ 31 ∧ f.opCode = .ping

instance (f : Message) : Decidable (Ping f) := inferInstanceAs (Decidable (_ ∧ _ ∧ _))

def head (f : Message) : ℕ := 2 + lengthSize (announced f.payload.length)

theorem serverFrame_length (f : Message) : (serverFrame f).length = head f + f.payload.length := by
  rw [serverFrame, List.length_append, lead_length, head]

theorem head_le (f : Message) : 2 ≤ head f ∧ head f ≤ 10 := by
  rw [head, lengthSize]
  split
  · omega
  · split
    · omega
    · omega

/-- The header as the node keeps it once its first two bytes were decoded. -/
structure HeadRead (f : Message) (ws : WebSocketHeaderType) : Prop where
  opCode : ws.opCode = f.opCode
  mask : ws.mask = false
  N0 : ws.N0 = announced f.payload.length
  headerSize : ws.headerSize = head f

/-- The stage the node stands at agrees with the frame at the front of its buffer. -/
def Reads (f : Message) (rStatus : WebSocketReceiveStatus) (ws : WebSocketHeaderType) : Prop :=
  match rStatus with
  | .wsHeadSize => True
  | .wsHeadBody => f.opCode ≠ .pong ∧ HeadRead f ws
  | .wsContentBody => f.opCode ≠ .pong ∧ HeadRead f ws ∧ ws.N = f.payload.length
  | .wsWsFailed => False

section decode
variable {f : Message} {p t tl : List UInt8} (stale : List UInt8) {ws : WebSocketHeaderType}
  (hp : p ++ t = serverFrame f ++ tl)

include hp in
theorem byteAt_front {i : ℕ} (hi : i < p.length) :
    byteAt (p ++ stale) i =
      byteAt (lead false f.fin f.opCode f.payload.length ++ (f.payload ++ tl)) i := by
  rw [← List.append_assoc, ← serverFrame, ← hp, byteAt_append hi, byteAt_append hi]

include hp in
theorem take_drop_front {a b : ℕ} (h : a + b ≤ p.length) :
    ((p ++ stale).drop a).take b = ((serverFrame f ++ tl).drop a).take b := by
  rw [← hp, take_drop_append h, take_drop_append h]

include hp in
theorem decodeHeaderSize_front (ws : WebSocketHeaderType) (hf : Legal f.opCode)
    (h2 : 2 ≤ p.length) :
    ∃ ws', decodeHeaderSizeWebSocketFrame (p ++ stale) p.length ws = .ok ws' ∧ HeadRead f ws' := by
  have h0 := byteAt_front stale hp (i := 0) (by omega)
  have h1 := byteAt_front stale hp (i := 1) (by omega)
  rw [byteAt_lead_zero] at h0
  rw [byteAt_lead_one] at h1
  refine ⟨_, if_neg (by omega), ?_, ?_, ?_, ?_⟩
  · rw [h0]
    exact firstByte_opCode f.fin hf
  · rw [h1]
    exact secondByte_mask false _
  · rw [h1]
    exact secondByte_short false _
  · have hmask := secondByte_mask false f.payload.length
    simp only [h1, secondByte_short, hmask, head, lengthSize]
    split
    · next h =>
      rw [h]
      rfl
    · rw [Nat.add_zero]
      rfl

include hp in
theorem decodeHeaderBody_front (hlen : f.payload.length < 2 ^ 64) (hws : HeadRead f ws)
    (h : head f < p.length) :
    ∃ ws', decodeHeaderBodyWebSocketFrame (p ++ stale) p.length ws = .ok ws' ∧
      HeadRead f ws' ∧ ws'.N = f.payload.length := by
  have hh := hws.headerSize
  have hN0 := hws.N0
  have hext := extended_length f.payload.length
  have htake : ((p ++ stale).drop 2).take (lengthSize (announced f.payload.length)) =
      extended f.payload.length := by
    rw [head] at h
    rw [take_drop_front stale hp (by omega), serverFrame, List.append_assoc, ← hext]
    exact List.take_left
  refine ⟨_, if_neg (by omega), ⟨hws.opCode, hws.mask, hws.N0, hws.headerSize⟩, ?_⟩
  simp only [hN0]
  by_cases hs : f.payload.length < 126
  · rw [announced, if_pos hs, if_pos hs]
  · have hbig : orBytes (((p ++ stale).drop 2).take (lengthSize (announced f.payload.length))) =
        f.payload.length := by
      rw [htake, orBytes_eq, bigEndian_extended (by omega) hlen]
    by_cases hm : f.payload.length < 65536
    · have ha : announced f.payload.length = 126 := by rw [announced, if_neg hs, if_pos hm]
      rw [ha] at hbig ⊢
      exact hbig
    · have ha : announced f.payload.length = 127 := by rw [announced, if_neg hs, if_neg hm]
      rw [ha] at hbig ⊢
      exact hbig

def dataFrame (f : Message) : WebSocketFrame := ⟨f.opCode, some (head f), f.payload.length, 0⟩

theorem decodeFrameBody_data (buffer : List UInt8) {length : ℕ} (hf : Served f)
    (hd : f.opCode.IsData) (hws : HeadRead f ws) (hN : ws.N = f.payload.length)
    (hlen : head f + f.payload.length ≤ length) :
    decodeFrameBodyWebSocketFrame buffer length ws WebSocketFrame.zero =
      .ok (buffer, dataFrame f) := by
  have hsmall := hf.2.1
  have hhead := head_le f
  have hpong : ws.opCode ≠ .pong := by
    rw [hws.opCode]
    exact hd.ne_pong
  have hmod : (ws.N + ws.headerSize) % 2 ^ 64 = head f + f.payload.length := by
    rw [hN, hws.headerSize]
    omega
  rw [decodeFrameBodyWebSocketFrame, if_neg hpong, hmod, if_neg (by omega), hws.opCode, if_pos hd,
    hws.mask, hws.headerSize, hN]
  rfl

theorem decodeFrameBody_pong (buffer : List UInt8) (length : ℕ) (hop : ws.opCode = .pong) :
    decodeFrameBodyWebSocketFrame buffer length ws WebSocketFrame.zero =
      .ok (buffer, WebSocketFrame.zero) := by
  rw [decodeFrameBodyWebSocketFrame, if_pos hop]

theorem decodeFrameBody_short (buffer : List UInt8) {length : ℕ}
    (hsmall : f.payload.length + 14 < 2 ^ 31) (hop : f.opCode ≠ .pong) (hws : HeadRead f ws)
    (hN : ws.N = f.payload.length) (hlen : length < head f + f.payload.length) :
    decodeFrameBodyWebSocketFrame buffer length ws WebSocketFrame.zero =
      .error (-NlsRetCode.invalidWsFrameBody.code) := by
  have hhead := head_le f
  have hmod : (ws.N + ws.headerSize) % 2 ^ 64 = head f + f.payload.length := by
    rw [hN, hws.headerSize]
    omega
  rw [decodeFrameBodyWebSocketFrame, hws.opCode, if_neg hop, hmod, if_pos hlen]

theorem decodeFrameBody_ping (buffer : List UInt8) (length : ℕ) (hop : f.opCode = .ping)
    (hws : HeadRead f ws) :
    decodeFrameBodyWebSocketFrame buffer length ws WebSocketFrame.zero =
      .error (-NlsRetCode.invalidWsFrameBody.code) := by
  rw [decodeFrameBodyWebSocketFrame, hws.opCode, hop, if_neg (by decide)]
  split
  · rfl
  · rw [if_neg (by decide), if_pos rfl]

def frameOf (f : Message) : WebSocketFrame :=
  if f.opCode = .pong then WebSocketFrame.zero else dataFrame f

theorem contentBody_waits (buffer : List UInt8) {length : ℕ}
    (hsmall : f.payload.length + 14 < 2 ^ 31) (hop : f.opCode ≠ .pong)
    (hws : HeadRead f ws) (hN : ws.N = f.payload.length)
    (hw : f.opCode = .ping ∨ length < (serverFrame f).length) :
    contentBody buffer length ws WebSocketFrame.zero =
      ⟨.wsContentBody, ws, buffer, WebSocketFrame.zero, -NlsRetCode.invalidWsFrameBody.code⟩ := by
  rw [contentBody]
  rcases hw with hping | hlen
  · rw [decodeFrameBody_ping buffer length hping hws]
  · rw [serverFrame_length] at hlen
    rw [decodeFrameBody_short buffer hsmall hop hws hN hlen]

theorem contentBody_whole (buffer : List UInt8) {length : ℕ} (hf : Served f) (hd : f.opCode.IsData)
    (hws : HeadRead f ws) (hN : ws.N = f.payload.length) (hlen : (serverFrame f).length ≤ length) :
    contentBody buffer length ws WebSocketFrame.zero =
      ⟨.wsHeadSize, ws, buffer, dataFrame f, success⟩ := by
  rw [serverFrame_length] at hlen
  rw [contentBody, decodeFrameBody_data buffer hf hd hws hN hlen]

include hp in
theorem headBody_waits (hsmall : f.payload.length + 14 < 2 ^ 31) (hop : f.opCode ≠ .pong)
    (hws : HeadRead f ws) (hw : f.opCode = .ping ∨ p.length < (serverFrame f).length) :
    (headBody (p ++ stale) p.length ws WebSocketFrame.zero).ret < 0 ∧
      Reads f (headBody (p ++ stale) p.length ws WebSocketFrame.zero).rStatus
        (headBody (p ++ stale) p.length ws WebSocketFrame.zero).wsType := by
  have hop' : ws.opCode ≠ .pong := by rwa [hws.opCode]
  rw [headBody]
  by_cases hh : head f < p.length
  · obtain ⟨ws', hdec, hws', hN⟩ := decodeHeaderBody_front stale hp (by omega) hws hh
    rw [hdec]
    simp only [contentBody_waits (p ++ stale) hsmall hop hws' hN hw]
    exact ⟨NlsRetCode.neg_code_lt _, hop, hws', hN⟩
  · have hle : p.length ≤ ws.headerSize := by
      rw [hws.headerSize]
      omega
    rw [decodeHeaderBodyWebSocketFrame, if_pos hle]
    simp only [if_neg hop']
    exact ⟨NlsRetCode.neg_code_lt _, hop, hws⟩

include hp in
theorem headBody_whole (hf : Served f) (hws : HeadRead f ws)
    (hlen : (serverFrame f).length ≤ p.length) :
    ∃ ws', headBody (p ++ stale) p.length ws WebSocketFrame.zero =
      ⟨.wsHeadSize, ws', p ++ stale, frameOf f, success⟩ ∧ HeadRead f ws' := by
  have hsmall := hf.2.1
  rw [headBody]
  rcases hf.2.2 with ⟨hd, hne⟩ | ⟨hpong, -⟩
  · have hop : f.opCode ≠ .pong := hd.ne_pong
    have hpos := List.length_pos_of_ne_nil hne
    have hh : head f < p.length := by
      rw [serverFrame_length] at hlen
      omega
    obtain ⟨ws', hdec, hws', hN⟩ := decodeHeaderBody_front stale hp (by omega) hws hh
    refine ⟨ws', ?_, hws'⟩
    rw [hdec]
    simp only [contentBody_whole (p ++ stale) hf hd hws' hN hlen, frameOf, if_neg hop]
  · have hop : ws.opCode = .pong := by rw [hws.opCode, hpong]
    have hcontent : ∀ ws' : WebSocketHeaderType, ws'.opCode = .pong →
        contentBody (p ++ stale) p.length ws' WebSocketFrame.zero =
          ⟨.wsHeadSize, ws', p ++ stale, frameOf f, success⟩ := by
      intro ws' hop'
      rw [contentBody, decodeFrameBody_pong _ _ hop', frameOf, if_pos hpong]
    by_cases hh : head f < p.length
    · obtain ⟨ws', hdec, hws', -⟩ := decodeHeaderBody_front stale hp (by omega) hws hh
      refine ⟨ws', ?_, hws'⟩
      rw [hdec]
      exact hcontent ws' (by rw [hws'.opCode, hpong])
    · have hle : p.length ≤ ws.headerSize := by
        rw [hws.headerSize]
        omega
      refine ⟨ws, ?_, hws⟩
      rw [decodeHeaderBodyWebSocketFrame, if_pos hle]
      simp only [if_pos hop]
      exact hcontent ws hop

include hp in
theorem receive_waits {rStatus : WebSocketReceiveStatus} (hf : Served f ∨ Ping f)
    (hr : Reads f rStatus ws) (hw : f.opCode = .ping ∨ p.length < (serverFrame f).length) :
    let r := receiveFullWebSocketFrame (p ++ stale) p.length rStatus ws WebSocketFrame.zero
    r.ret < 0 ∧ Reads f r.rStatus r.wsType := by
  have hlegal : Legal f.opCode := by
    rcases hf with hf | hf
    · exact hf.1
    · exact hf.1
  have hsmall : f.payload.length + 14 < 2 ^ 31 := by
    rcases hf with hf | hf
    · exact hf.2.1
    · exact hf.2.1
  cases rStatus with
  | wsHeadSize =>
    show (headSize _ _ _ _).ret < 0 ∧ Reads f (headSize _ _ _ _).rStatus (headSize _ _ _ _).wsType
    rw [headSize]
    by_cases h2 : 2 ≤ p.length
    · obtain ⟨ws', hdec, hws'⟩ := decodeHeaderSize_front stale hp ws hlegal h2
      have hop : f.opCode ≠ .pong := by
        intro hpong
        rcases hw with hping | hlen
        · rw [hpong] at hping
          cases hping
        · have hempty : f.payload = [] := by
            rcases hf with hf | hf
            · rcases hf.2.2 with ⟨hd, -⟩ | ⟨-, h⟩
              · exact absurd hpong hd.ne_pong
              · exact h
            · rw [hf.2.2] at hpong
              cases hpong
          rw [serverFrame_length, head, hempty] at hlen
          have h0 : lengthSize (announced ([] : List UInt8).length) = 0 := rfl
          rw [h0, List.length_nil] at hlen
          omega
      rw [hdec]
      exact headBody_waits stale hp hsmall hop hws' hw
    · rw [decodeHeaderSizeWebSocketFrame, if_pos (by omega)]
      exact ⟨NlsRetCode.neg_code_lt _, trivial⟩
  | wsHeadBody => exact headBody_waits stale hp hsmall hr.1 hr.2 hw
  | wsContentBody =>
    show (contentBody _ _ _ _).ret < 0 ∧
      Reads f (contentBody _ _ _ _).rStatus (contentBody _ _ _ _).wsType
    rw [contentBody_waits (p ++ stale) hsmall hr.1 hr.2.1 hr.2.2 hw]
    exact ⟨NlsRetCode.neg_code_lt _, hr⟩
  | wsWsFailed => exact hr.elim

include hp in
theorem receive_whole {rStatus : WebSocketReceiveStatus} (hf : Served f) (hr : Reads f rStatus ws)
    (hlen : (serverFrame f).length ≤ p.length) :
    ∃ ws', receiveFullWebSocketFrame (p ++ stale) p.length rStatus ws WebSocketFrame.zero =
      ⟨.wsHeadSize, ws', p ++ stale, frameOf f, success⟩ ∧ HeadRead f ws' := by
  have hhead := head_le f
  have hle := serverFrame_length f
  cases rStatus with
  | wsHeadSize =>
    obtain ⟨ws', hdec, hws'⟩ := decodeHeaderSize_front stale hp ws hf.1 (by omega)
    rw [receiveFullWebSocketFrame, headSize, hdec]
    exact headBody_whole stale hp hf hws' hlen
  | wsHeadBody => exact headBody_whole stale hp hf hr.2 hlen
  | wsContentBody =>
    obtain ⟨hop, hws, hN⟩ := hr
    have hd : f.opCode.IsData := by
      rcases hf.2.2 with ⟨hd, -⟩ | ⟨hpong, -⟩
      · exact hd
      · exact absurd hpong hop
    refine ⟨ws, ?_, hws⟩
    rw [receiveFullWebSocketFrame, contentBody_whole (p ++ stale) hf hd hws hN hlen, frameOf,
      if_neg hop]
  | wsWsFailed => exact hr.elim

end decode

section loop
variable {σ : Type*} {E : Env σ} {h : σ → OpCodeType → List UInt8 → σ} {P : σ → Prop}
  {Q : Message → Prop}

def bytes (frame : List UInt8) (wsFrame : WebSocketFrame) : List UInt8 :=
  match wsFrame.data with
  | none => []
  | some d => (frame.drop d).take wsFrame.length

/-- The node stays up and takes every frame, `h` being what a frame does to it. -/
structure Accepts (E : Env σ) (h : σ → OpCodeType → List UInt8 → σ) : Prop where
  parseFrame : ∀ s frame wsFrame,
    E.parseFrame s frame wsFrame = (h s wsFrame.type (bytes frame wsFrame), 0)
  releasingFlag : ∀ s, E.releasingFlag s = false
  instanceGone : ∀ s, E.instanceGone s = false
  checkNodeExist : ∀ s, E.checkNodeExist s = success
  realloc : ∀ n, E.realloc n = true

def deliver (h : σ → OpCodeType → List UInt8 → σ) (s : σ) (f : Message) : σ :=
  h s f.opCode f.payload

/-- While `P` holds the node stays up and takes the frames of `Q`. -/
structure Takes (E : Env σ) (h : σ → OpCodeType → List UInt8 → σ) (P : σ → Prop)
    (Q : Message → Prop) : Prop where
  parseFrame : ∀ {s f}, P s → Q f → ∀ frame wsFrame, wsFrame.type = f.opCode →
    bytes frame wsFrame = f.payload → E.parseFrame s frame wsFrame = (deliver h s f, 0)
  kept : ∀ {s f}, P s → Q f → P (deliver h s f)
  releasingFlag : ∀ {s}, P s → E.releasingFlag s = false
  instanceGone : ∀ {s}, P s → E.instanceGone s = false
  checkNodeExist : ∀ {s}, P s → E.checkNodeExist s = success
  realloc : ∀ n, E.realloc n = true

theorem Accepts.takes (hA : Accepts E h) : Takes E h (fun _ => True) fun _ => True where
  parseFrame _ _ frame wsFrame htype hbytes := by
    rw [hA.parseFrame, htype, hbytes, deliver]
  kept _ _ := trivial
  releasingFlag _ := hA.releasingFlag _
  instanceGone _ := hA.instanceGone _
  checkNodeExist _ := hA.checkNodeExist _
  realloc := hA.realloc

theorem Takes.delivered (hT : Takes E h P Q) {s : σ} (hs : P s) {fs : List Message}
    (hfs : ∀ f ∈ fs, Q f) : P (fs.foldl (deliver h) s) := by
  induction fs generalizing s with
  | nil => exact hs
  | cons f fs ih =>
    exact ih (hT.kept hs (hfs f List.mem_cons_self)) fun x hx => hfs x (List.mem_cons_of_mem f hx)

theorem turn_eq (hrealloc : ∀ n, E.realloc n = true) (n : Node σ) (frame : List UInt8) :
    ∃ stale, turn E n frame =
      let p := receiveFullWebSocketFrame (n.readEvBuffer ++ stale) n.readEvBuffer.length n.rStatus
        n.wsType WebSocketFrame.zero
      let n' := { n with rStatus := p.rStatus, wsType := p.wsType }
      if p.ret = success then decoded E n' n.readEvBuffer.length p.frame p.resultDate
      else ⟨n', p.frame, 0, false⟩ := by
  refine ⟨(if readBufferSize < n.readEvBuffer.length then
    resize E frame (n.readEvBuffer.length + 1) else frame).drop n.readEvBuffer.length, ?_⟩
  have hno : ¬ (readBufferSize < n.readEvBuffer.length ∧
      E.realloc (n.readEvBuffer.length + 1) = false) := by
    rw [hrealloc]
    intro hc
    cases hc.2
  rw [turn, if_neg hno]
  rfl

theorem frameOf_length {f : Message} (hf : Served f) :
    (frameOf f).length + head f = (serverFrame f).length := by
  rw [serverFrame_length, frameOf]
  rcases hf.2.2 with ⟨hd, -⟩ | ⟨hpong, hempty⟩
  · have hop : f.opCode ≠ .pong := hd.ne_pong
    rw [if_neg hop, Nat.add_comm]
    rfl
  · rw [if_pos hpong, hempty, Nat.add_comm]
    rfl

theorem handed_on {f : Message} {p t tl : List UInt8} (stale : List UInt8) {n : Node σ}
    (hf : Served f) (hp : p ++ t = serverFrame f ++ tl) (hlen : (serverFrame f).length ≤ p.length)
    (hop : n.wsType.opCode = f.opCode) :
    (typed n (frameOf f)).type = f.opCode ∧
      bytes (p ++ stale) (typed n (frameOf f)) = f.payload := by
  rw [typed, hop, frameOf]
  rcases hf.2.2 with ⟨hd, -⟩ | ⟨hpong, hempty⟩
  · have hne : f.opCode ≠ .pong := hd.ne_pong
    rw [if_neg hne, if_neg hne]
    refine ⟨rfl, ?_⟩
    rw [serverFrame_length] at hlen
    have hlead := lead_length false f.fin f.opCode f.payload.length
    show ((p ++ stale).drop (head f)).take f.payload.length = f.payload
    rw [take_drop_front stale hp hlen, serverFrame, head, ← hlead, List.append_assoc,
      List.drop_left, List.take_left]
  · rw [if_pos hpong, if_pos hpong]
    exact ⟨rfl, hempty.symm⟩

theorem turn_waits (hT : Takes E h P Q) {f : Message} {t tl : List UInt8} {n : Node σ}
    (frame : List UInt8) (hf : Served f ∨ Ping f) (hp : n.readEvBuffer ++ t = serverFrame f ++ tl)
    (hr : Reads f n.rStatus n.wsType)
    (hw : f.opCode = .ping ∨ n.readEvBuffer.length < (serverFrame f).length) :
    (turn E n frame).eLoop = false ∧ (turn E n frame).ret = 0 ∧
      (turn E n frame).node.readEvBuffer = n.readEvBuffer ∧
      (turn E n frame).node.user = n.user ∧
      Reads f (turn E n frame).node.rStatus (turn E n frame).node.wsType := by
  obtain ⟨stale, hturn⟩ := turn_eq hT.realloc n frame
  have hwaits := receive_waits stale hp hf hr hw
  simp only at hwaits
  generalize receiveFullWebSocketFrame (n.readEvBuffer ++ stale) n.readEvBuffer.length n.rStatus
    n.wsType WebSocketFrame.zero = r at hturn hwaits
  have hne : ¬ r.ret = success := Int.ne_of_lt hwaits.1
  rw [hturn]
  simp only [if_neg hne]
  exact ⟨trivial, trivial, trivial, trivial, hwaits.2⟩

theorem decoded_takes (hT : Takes E h P Q) {n : Node σ} {f : Message} (hn : P n.user) (hf : Q f)
    (frameSize : ℕ) {frame : List UInt8} {wsFrame : WebSocketFrame}
    (htype : (typed n wsFrame).type = f.opCode)
    (hbytes : bytes frame (typed n wsFrame) = f.payload) :
    decoded E n frameSize frame wsFrame =
      drained { n with user := deliver h n.user f } frameSize frame wsFrame.length := by
  have hparse := hT.parseFrame hn hf frame (typed n wsFrame) htype hbytes
  have hkept := hT.kept hn hf
  simp only [decoded, hT.releasingFlag hn, hparse, hT.instanceGone hkept,
    hT.checkNodeExist hkept, Bool.false_eq_true, if_false, ne_eq, not_true_eq_false]

theorem drained_whole {n : Node σ} {frameSize length size : ℕ} (frame : List UInt8)
    (hsize : length + n.wsType.headerSize = size) (hpos : 0 < size) (hsmall : size < 2 ^ 31)
    (hle : size ≤ frameSize) (hfits : frameSize < 2 ^ 64) :
    (drained n frameSize frame length).eLoop = decide (size < frameSize) ∧
      (drained n frameSize frame length).ret = size ∧
      (drained n frameSize frame length).node =
        { n with readEvBuffer := n.readEvBuffer.drop size } := by
  have hmod : size % 2 ^ 64 = size := by omega
  have hcur : ((frameSize : ℤ) - size) % 2 ^ 64 = frameSize - size := by omega
  have hnarrow : narrowInt size = size := by
    apply narrowInt_eq
    simp only [InInt, intMin, intMax]
    omega
  simp only [drained, hsize, hmod, hnarrow, hcur]
  refine ⟨?_, trivial, trivial⟩
  apply decide_eq_decide.mpr
  omega

theorem turn_whole (hT : Takes E h P Q) {f : Message} {t tl : List UInt8} {n : Node σ}
    (hn : P n.user) (frame : List UInt8) (hf : Served f) (hq : Q f)
    (hp : n.readEvBuffer ++ t = serverFrame f ++ tl)
    (hr : Reads f n.rStatus n.wsType) (hlen : (serverFrame f).length ≤ n.readEvBuffer.length)
    (hfits : n.readEvBuffer.length < 2 ^ 64) :
    (turn E n frame).eLoop = decide ((serverFrame f).length < n.readEvBuffer.length) ∧
      0 ≤ (turn E n frame).ret ∧
      (turn E n frame).node.readEvBuffer = n.readEvBuffer.drop (serverFrame f).length ∧
      (turn E n frame).node.user = deliver h n.user f ∧
      (turn E n frame).node.rStatus = .wsHeadSize := by
  obtain ⟨stale, hturn⟩ := turn_eq hT.realloc n frame
  obtain ⟨ws', hrecv, hws'⟩ := receive_whole stale hp hf hr hlen
  have hsmall := hf.2.1
  have hhead := head_le f
  have hsize := serverFrame_length f
  have htake : turn E n frame = decoded E { n with rStatus := .wsHeadSize, wsType := ws' }
      n.readEvBuffer.length (n.readEvBuffer ++ stale) (frameOf f) := by
    rw [hturn, hrecv]
    exact if_pos rfl
  obtain ⟨htype, hbytes⟩ := handed_on stale (n := { n with rStatus := .wsHeadSize, wsType := ws' })
    hf hp hlen hws'.opCode
  rw [htake, decoded_takes hT (n := { n with rStatus := .wsHeadSize, wsType := ws' }) hn hq _ htype
    hbytes]
  have hlength := frameOf_length hf
  rw [← hws'.headerSize] at hlength
  obtain ⟨hloop, hret, hnode⟩ := drained_whole
    (n := { n with rStatus := .wsHeadSize, wsType := ws', user := deliver h n.user f })
    (n.readEvBuffer ++ stale) hlength (by omega) (by omega) hlen hfits
  refine ⟨hloop, ?_, ?_, ?_, ?_⟩
  · rw [hret]
    omega
  · rw [hnode]
  · rw [hnode]
  · rw [hnode]

/-- The node stands at the front of the first frame to come, `g` being the one after `fs`. -/
def Sync (fs : List Message) (g : Message) (n : Node σ) : Prop :=
  Reads (fs.headD g) n.rStatus n.wsType

/-- What is left over after `k` of the frames `fs` were handed on. -/
structure Left (h : σ → OpCodeType → List UInt8 → σ) (fs : List Message) (g : Message) (k : ℕ)
    (n n' : Node σ) : Prop where
  le : k ≤ fs.length
  user : n'.user = (fs.take k).foldl (deliver h) n.user
  buffer : n.readEvBuffer = (fs.take k).flatMap serverFrame ++ n'.readEvBuffer
  sync : Sync (fs.drop k) g n'
  short : ∀ f ∈ (fs.drop k).head?, n'.readEvBuffer.length < (serverFrame f).length

theorem loop_left (hT : Takes E h P Q) {g : Message} {tl : List UInt8} (hg : Ping g)
    {fs : List Message} (hfs : ∀ f ∈ fs, Served f) (hqs : ∀ f ∈ fs, Q f) {n : Node σ}
    (hn : P n.user) (frame : List UInt8)
    (hp : n.readEvBuffer <+: fs.flatMap serverFrame ++ (serverFrame g ++ tl)) (hs : Sync fs g n)
    (hfits : fs ≠ [] → n.readEvBuffer.length < 2 ^ 64) :
    0 ≤ (responseLoop E n frame).2 ∧ ∃ k, Left h fs g k n (responseLoop E n frame).1 := by
  induction fs generalizing n frame with
  | nil =>
    by_cases hne : n.readEvBuffer = []
    · rw [responseLoop_empty E hne]
      exact ⟨Int.le_refl 0, 0, Nat.le_refl _, rfl, rfl, hs, fun f hf => by cases hf⟩
    · obtain ⟨t, ht⟩ := hp
      obtain ⟨hloop, hret, hbuf, huser, hreads⟩ :=
        turn_waits hT frame (Or.inr hg) ht hs (Or.inl hg.2.2)
      rw [responseLoop_stop E hne hloop]
      exact ⟨Int.le_of_eq hret.symm, 0, Nat.le_refl _, huser, hbuf.symm, hreads,
        fun f hf => by cases hf⟩
  | cons f fs ih =>
    have hf := hfs f List.mem_cons_self
    have hq := hqs f List.mem_cons_self
    by_cases hne : n.readEvBuffer = []
    · rw [responseLoop_empty E hne]
      refine ⟨Int.le_refl 0, 0, Nat.zero_le _, rfl, rfl, hs, ?_⟩
      intro f' hf'
      cases hf'
      rw [hne, serverFrame_length, List.length_nil]
      have hhead := head_le f
      omega
    · obtain ⟨t, ht⟩ := hp
      rw [List.flatMap_cons, List.append_assoc] at ht
      by_cases hlen : (serverFrame f).length ≤ n.readEvBuffer.length
      · obtain ⟨hloop, hret, hbuf, huser, hstatus⟩ :=
          turn_whole hT hn frame hf hq ht hs hlen (hfits (List.cons_ne_nil f fs))
        have hfront : serverFrame f <+: n.readEvBuffer :=
          List.prefix_of_prefix_length_le (List.prefix_append _ _) (ht ▸ List.prefix_append _ t)
            hlen
        obtain ⟨rest, hrest⟩ := hfront
        have hdrop : (turn E n frame).node.readEvBuffer = rest := by
          rw [hbuf, ← hrest, List.drop_left]
        have hrestp : rest <+: fs.flatMap serverFrame ++ (serverFrame g ++ tl) := by
          rw [← hrest, List.append_assoc] at ht
          exact ⟨t, List.append_cancel_left ht⟩
        have hreads : Sync fs g (turn E n frame).node := by
          rw [Sync, hstatus]
          trivial
        have hrlen : rest.length < n.readEvBuffer.length := by
          have hl := congrArg List.length hrest
          have hsize := serverFrame_length f
          have hhead := head_le f
          rw [List.length_append] at hl
          omega
        by_cases hmore : (serverFrame f).length < n.readEvBuffer.length
        · rw [responseLoop_again E hne (by rw [hloop, decide_eq_true hmore])]
          obtain ⟨hpos, k, hk⟩ := ih (fun x hx => hfs x (List.mem_cons_of_mem f hx))
            (fun x hx => hqs x (List.mem_cons_of_mem f hx)) (huser ▸ hT.kept hn hq)
            (turn E n frame).frame (hdrop ▸ hrestp) hreads
            (fun h => by
              rw [hdrop]
              have hlt := hfits (List.cons_ne_nil f fs)
              omega)
          refine ⟨hpos, k + 1, Nat.succ_le_succ hk.le, ?_, ?_, hk.sync, hk.short⟩
          · rw [hk.user, huser, List.take_succ_cons, List.foldl_cons]
          · rw [List.take_succ_cons, List.flatMap_cons, List.append_assoc, ← hk.buffer, hdrop,
              hrest]
        · have hempty : rest = [] := by
            have hl := congrArg List.length hrest
            rw [List.length_append] at hl
            exact List.eq_nil_of_length_eq_zero (by omega)
          rw [responseLoop_stop E hne (by rw [hloop, decide_eq_false hmore])]
          refine ⟨hret, 1, Nat.succ_le_succ (Nat.zero_le _), huser, ?_, hreads, ?_⟩
          · rw [List.take_succ_cons, List.take_zero, List.flatMap_singleton, hdrop, hrest]
          · intro f' _
            rw [hdrop, hempty, serverFrame_length, List.length_nil]
            have hhead := head_le f'
            omega
      · obtain ⟨hloop, hret, hbuf, huser, hreads⟩ :=
          turn_waits hT frame (Or.inl hf) ht hs (Or.inr (by omega))
        rw [responseLoop_stop E hne hloop]
        refine ⟨Int.le_of_eq hret.symm, 0, Nat.zero_le _, huser, hbuf.symm, hreads, ?_⟩
        intro f' hf'
        cases hf'
        rw [hbuf]
        omega

def receive (E : Env σ) (n : Node σ) (chunks : List (List UInt8)) : Node σ :=
  chunks.foldl (fun n c => (webSocketResponse E n (.bytes c)).1) n

theorem Left.trans {fs : List Message} {g : Message} {k l : ℕ} {n n₁ n₃ : Node σ}
    {chunk : List UInt8} (h₁ : Left h fs g k n n₁) (n₂ : Node σ) (hu : n₂.user = n₁.user)
    (hb : n₂.readEvBuffer = n₁.readEvBuffer ++ chunk) (h₂ : Left h (fs.drop k) g l n₂ n₃) :
    Left h fs g (k + l) { n with readEvBuffer := n.readEvBuffer ++ chunk } n₃ := by
  have htake : fs.take (k + l) = fs.take k ++ (fs.drop k).take l := List.take_add
  have hle := h₂.le
  rw [List.length_drop] at hle
  refine ⟨?_, ?_, ?_, ?_, ?_⟩
  · have hk := h₁.le
    omega
  · rw [h₂.user, hu, h₁.user, htake, List.foldl_append]
  · rw [htake, List.flatMap_append, List.append_assoc, ← h₂.buffer, hb, ← List.append_assoc,
      ← h₁.buffer]
  · have hs := h₂.sync
    rw [List.drop_drop] at hs
    exact hs
  · intro f hf
    apply h₂.short f
    rw [List.drop_drop]
    exact hf

theorem receive_nil (hT : Takes E h P Q) {n : Node σ} (hn : P n.user) :
    webSocketResponse E n (.bytes []) = (n, 0) := by
  rw [webSocketResponse, hT.releasingFlag hn]
  rfl

theorem receive_chunk (hT : Takes E h P Q) {n : Node σ} (hn : P n.user) {c : List UInt8}
    (hc : c ≠ []) :
    ∃ frame, webSocketResponse E n (.bytes c) =
      responseLoop E { n with readEvBuffer := n.readEvBuffer ++ c } frame := by
  cases c with
  | nil => exact absurd rfl hc
  | cons b c =>
    refine ⟨(b :: c) ++ List.replicate (readBufferSize - (b :: c).length) 0, ?_⟩
    rw [webSocketResponse, hT.releasingFlag hn]
    · rfl
    · exact hc

theorem Left.kept (hT : Takes E h P Q) {fs : List Message} {g : Message} {k : ℕ} {n n' : Node σ}
    (hk : Left h fs g k n n') (hqs : ∀ f ∈ fs, Q f) (hn : P n.user) : P n'.user := by
  rw [hk.user]
  exact hT.delivered hn fun f hf => hqs f (List.mem_of_mem_take hf)

theorem serverFrames_split (fs : List Message) (k : ℕ) :
    fs.flatMap serverFrame =
      (fs.take k).flatMap serverFrame ++ (fs.drop k).flatMap serverFrame := by
  rw [← List.flatMap_append, List.take_append_drop]

theorem kept_of_taken {fs : List Message} {k : ℕ} {content kept more tl : List UInt8}
    (hk : content = (fs.take k).flatMap serverFrame ++ kept)
    (hp : content ++ more <+: fs.flatMap serverFrame ++ tl) :
    kept ++ more <+: (fs.drop k).flatMap serverFrame ++ tl := by
  rw [hk, serverFrames_split fs k, List.append_assoc, List.append_assoc] at hp
  exact List.prefix_append_right_inj _ |>.mp hp

theorem Left.all {fs : List Message} {g : Message} {k : ℕ} {n n' : Node σ} {more : List UInt8}
    (hk : Left h fs g k n n') (hp : n.readEvBuffer = fs.flatMap serverFrame ++ more) :
    fs.take k = fs ∧ n'.readEvBuffer = more := by
  have hbuf := hk.buffer
  rw [hp, serverFrames_split fs k, List.append_assoc] at hbuf
  have hrest := List.append_cancel_left hbuf
  have hall : fs.drop k = [] := by
    cases hd : fs.drop k with
    | nil => rfl
    | cons f rest =>
      have hlt := hk.short f (by rw [hd]; rfl)
      rw [hd, List.flatMap_cons, List.append_assoc] at hrest
      rw [← hrest, List.length_append] at hlt
      omega
  have htake : fs.take k = fs := by
    have happ := List.take_append_drop k fs
    rw [hall, List.append_nil] at happ
    exact happ
  rw [hall] at hrest
  exact ⟨htake, hrest.symm⟩

theorem chunk_left (hT : Takes E h P Q) {g : Message} {tl : List UInt8} (hg : Ping g)
    {fs : List Message} (hfs : ∀ f ∈ fs, Served f) (hqs : ∀ f ∈ fs, Q f) {c : List UInt8}
    (hsize : c.length ≤ readBufferSize) {n : Node σ} (hn : P n.user)
    (hp : n.readEvBuffer ++ c <+: fs.flatMap serverFrame ++ (serverFrame g ++ tl))
    (hs : Sync fs g n) (hshort : ∀ f ∈ fs.head?, n.readEvBuffer.length < (serverFrame f).length) :
    0 ≤ (webSocketResponse E n (.bytes c)).2 ∧
      ∃ k, Left h fs g k { n with readEvBuffer := n.readEvBuffer ++ c }
        (webSocketResponse E n (.bytes c)).1 := by
  by_cases hc : c = []
  · rw [hc, receive_nil hT hn, List.append_nil]
    exact ⟨Int.le_refl 0, 0, Nat.zero_le _, rfl, rfl, hs, hshort⟩
  · obtain ⟨frame, hframe⟩ := receive_chunk hT hn hc
    have hfits : fs ≠ [] → (n.readEvBuffer ++ c).length < 2 ^ 64 := by
      intro hne
      cases fs with
      | nil => exact absurd rfl hne
      | cons f fs =>
        have hb := hshort f rfl
        have hsmall := (hfs f List.mem_cons_self).2.1
        have hhead := head_le f
        rw [serverFrame_length] at hb
        rw [List.length_append]
        rw [readBufferSize] at hsize
        omega
    rw [hframe]
    exact loop_left hT hg hfs hqs (n := { n with readEvBuffer := n.readEvBuffer ++ c }) hn frame hp
      hs hfits

theorem receive_left (hT : Takes E h P Q) {g : Message} {tl : List UInt8} (hg : Ping g)
    {fs : List Message} (hfs : ∀ f ∈ fs, Served f) (hqs : ∀ f ∈ fs, Q f)
    {chunks : List (List UInt8)} (hsize : ∀ c ∈ chunks, c.length ≤ readBufferSize) {n : Node σ}
    (hn : P n.user)
    (hp : n.readEvBuffer ++ chunks.flatten <+: fs.flatMap serverFrame ++ (serverFrame g ++ tl))
    (hs : Sync fs g n) (hshort : ∀ f ∈ fs.head?, n.readEvBuffer.length < (serverFrame f).length) :
    ∃ k, Left h fs g k { n with readEvBuffer := n.readEvBuffer ++ chunks.flatten }
      (receive E n chunks) := by
  induction chunks generalizing n fs with
  | nil =>
    refine ⟨0, Nat.zero_le _, rfl, ?_, hs, hshort⟩
    rw [List.flatten_nil, List.append_nil]
    rfl
  | cons c chunks ih =>
    have hsize' : ∀ c ∈ chunks, c.length ≤ readBufferSize :=
      fun x hx => hsize x (List.mem_cons_of_mem c hx)
    rw [List.flatten_cons, ← List.append_assoc] at hp
    obtain ⟨-, k, hk⟩ := chunk_left hT hg hfs hqs (hsize c List.mem_cons_self) hn
      ((List.prefix_append _ _).trans hp) hs hshort
    obtain ⟨l, hl⟩ := ih (fun f hf => hfs f (List.mem_of_mem_drop hf))
      (fun f hf => hqs f (List.mem_of_mem_drop hf)) hsize' (hk.kept hT hqs hn)
      (kept_of_taken hk.buffer hp) hk.sync hk.short
    refine ⟨k + l, ?_⟩
    have htrans := Left.trans hk { (webSocketResponse E n (.bytes c)).1 with
      readEvBuffer := (webSocketResponse E n (.bytes c)).1.readEvBuffer ++ chunks.flatten } rfl rfl
      hl
    rw [List.flatten_cons, ← List.append_assoc]
    exact htrans

def initial (ws : WebSocketHeaderType) (s : σ) : Node σ := ⟨[], .wsHeadSize, ws, s⟩

theorem initial_left (hA : Accepts E h) {g : Message} (tl : List UInt8) (hg : Ping g)
    {fs : List Message} (hfs : ∀ f ∈ fs, Served f) {chunks : List (List UInt8)}
    (hsize : ∀ c ∈ chunks, c.length ≤ readBufferSize) (ws : WebSocketHeaderType) (s : σ)
    (hp : chunks.flatten <+: fs.flatMap serverFrame ++ (serverFrame g ++ tl)) :
    ∃ k, Left h fs g k ⟨chunks.flatten, .wsHeadSize, ws, s⟩ (receive E (initial ws s) chunks) := by
  refine receive_left hA.takes hg hfs (fun _ _ => trivial) hsize (n := initial ws s) trivial hp
    trivial ?_
  intro f _
  have hhead := head_le f
  rw [initial, List.length_nil, serverFrame_length]
  omega

/-- Whatever the chunks, the frames that arrived whole were handed on, once each and in order,
and what is kept is less than a frame. -/
theorem frames_handed_on (hA : Accepts E h) {fs : List Message} (hfs : ∀ f ∈ fs, Served f)
    {chunks : List (List UInt8)} (hsize : ∀ c ∈ chunks, c.length ≤ readBufferSize)
    (hp : chunks.flatten <+: fs.flatMap serverFrame) (ws : WebSocketHeaderType) (s : σ) :
    ∃ k ≤ fs.length,
      (receive E (initial ws s) chunks).user = (fs.take k).foldl (deliver h) s ∧
      chunks.flatten = (fs.take k).flatMap serverFrame ++
        (receive E (initial ws s) chunks).readEvBuffer ∧
      ∀ f ∈ (fs.drop k).head?,
        (receive E (initial ws s) chunks).readEvBuffer.length < (serverFrame f).length := by
  have hg : Ping ⟨true, .ping, []⟩ := by decide
  obtain ⟨k, hk⟩ := initial_left hA [] hg hfs hsize ws s
    (hp.trans (List.prefix_append _ _))
  exact ⟨k, hk.le, hk.user, hk.buffer, hk.short⟩

def listening : Env (List (OpCodeType × List UInt8)) where
  parseFrame s frame wsFrame := (s ++ [(wsFrame.type, bytes frame wsFrame)], 0)
  releasingFlag _ := false
  instanceGone _ := false
  checkNodeExist _ := success
  realloc _ := true
  unwritten _ := 0

theorem listening_accepts : Accepts listening fun s op b => s ++ [(op, b)] :=
  ⟨fun _ _ _ => rfl, fun _ => rfl, fun _ => rfl, fun _ => rfl, fun _ => rfl⟩

def hello : Message := ⟨true, .textFrame, [104, 105]⟩

theorem frames_handed_on_hello :
    ∃ k ≤ 2, (receive listening (initial .zero []) [[0x81], [2, 104], [105, 0x8a]]).user =
      (([hello, ⟨true, .pong, []⟩] : List Message).take k).foldl
        (deliver fun s op b => s ++ [(op, b)]) [] := by
  have hp : [[0x81], [2, 104], [105, 0x8a]].flatten <+:
      [hello, ⟨true, .pong, []⟩].flatMap serverFrame := by decide
  obtain ⟨k, hk, huser, -⟩ :=
    frames_handed_on listening_accepts (by decide) (by decide) hp .zero []
  exact ⟨k, hk, huser⟩

/-- A ping stays in the buffer: the frames before it are handed on and nothing behind it is. -/
theorem ping_blocks (hA : Accepts E h) {fs : List Message} (hfs : ∀ f ∈ fs, Served f)
    {g : Message} (hg : Ping g) {tl : List UInt8} {chunks : List (List UInt8)}
    (hsize : ∀ c ∈ chunks, c.length ≤ readBufferSize)
    (hp : chunks.flatten = fs.flatMap serverFrame ++ (serverFrame g ++ tl))
    (ws : WebSocketHeaderType) (s : σ) :
    (receive E (initial ws s) chunks).user = fs.foldl (deliver h) s ∧
      (receive E (initial ws s) chunks).readEvBuffer = serverFrame g ++ tl := by
  have hpre : chunks.flatten <+: fs.flatMap serverFrame ++ (serverFrame g ++ tl) :=
    hp ▸ List.prefix_rfl
  obtain ⟨k, hk⟩ := initial_left hA tl hg hfs hsize ws s hpre
  obtain ⟨htake, hbuf⟩ := hk.all hp
  have huser := hk.user
  rw [htake] at huser
  exact ⟨huser, hbuf⟩

theorem ping_blocks_hello :
    (receive listening (initial .zero []) [[0x89, 0, 0x81], [2, 104, 105]]).user = [] ∧
      (receive listening (initial .zero []) [[0x89, 0, 0x81], [2, 104, 105]]).readEvBuffer =
        [0x89, 0, 0x81, 2, 104, 105] := by
  have hg : Ping ⟨true, .ping, []⟩ := by decide
  have hp : [[0x89, 0, 0x81], [2, 104, 105]].flatten =
      ([] : List Message).flatMap serverFrame ++
        (serverFrame ⟨true, .ping, []⟩ ++ serverFrame hello) := by decide
  have hfs : ∀ f ∈ ([] : List Message), Served f := List.forall_mem_nil _
  exact ping_blocks listening_accepts hfs hg (by decide) hp .zero []

end loop

end RtmpRelay.FrameDelivery
