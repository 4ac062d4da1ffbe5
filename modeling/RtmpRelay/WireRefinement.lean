import RtmpRelay.NodeWire

/-!
# The wire refines the session

Whatever the bytes and the chunks they come in, what a read event does to the
session is what some list of frames does to it, or some result of the gateway.
So every run of a node on the wire is a run of its session.
-/

namespace RtmpRelay.NodeWire

open WebSocketTcp WebSocketResponse Handshake Media Chunked
open NodeSession (nlsReceiveEmpty invalidWorkStatus invalidRequest)

section frames
variable {E : Env}

/-- The header of a frame and the buffer are as small as they are in a node of the relay. -/
structure Small (n : Node Hearing) (size : ℕ) : Prop where
  headerSize : n.wsType.headerSize ≤ 14
  buffer : n.readEvBuffer.length ≤ size

theorem decodeHeaderSize_small {buffer : List UInt8} {length : ℕ} {ws ws' : WebSocketHeaderType}
    (h : decodeHeaderSizeWebSocketFrame buffer length ws = .ok ws') : ws'.headerSize ≤ 14 := by
  rw [decodeHeaderSizeWebSocketFrame] at h
  split at h
  · cases h
  · cases h
    simp only
    split_ifs <;> omega

theorem decodeHeaderBody_headerSize {buffer : List UInt8} {length : ℕ}
    {ws ws' : WebSocketHeaderType}
    (h : decodeHeaderBodyWebSocketFrame buffer length ws = .ok ws') :
    ws'.headerSize = ws.headerSize := by
  rw [decodeHeaderBodyWebSocketFrame] at h
  split at h
  · cases h
  · cases h
    rfl

theorem zero_small {ws : WebSocketHeaderType} (hws : ws.headerSize ≤ 14) (length : ℕ) :
    (WebSocketFrame.zero.length + ws.headerSize) % 2 ^ 64 ≤ max length 14 := by
  have hlength : WebSocketFrame.zero.length = 0 := rfl
  omega

theorem decodeFrameBody_small {buffer buffer' : List UInt8} {length : ℕ} {ws : WebSocketHeaderType}
    {f : WebSocketFrame} (hws : ws.headerSize ≤ 14)
    (h : decodeFrameBodyWebSocketFrame buffer length ws WebSocketFrame.zero = .ok (buffer', f)) :
    (f.length + ws.headerSize) % 2 ^ 64 ≤ max length 14 := by
  have hzero := zero_small hws length
  rw [decodeFrameBodyWebSocketFrame] at h
  split at h
  · cases h
    exact hzero
  · split at h
    · cases h
    · rename_i hlen
      split at h
      · cases h
        simp only
        omega
      · split at h
        · cases h
        · split at h
          · cases h
            simp only
            omega
          · cases h
            exact hzero

structure Decoded (length : ℕ) (p : Parsed) : Prop where
  headerSize : p.wsType.headerSize ≤ 14
  size : p.ret = success → (p.resultDate.length + p.wsType.headerSize) % 2 ^ 64 ≤ max length 14

theorem contentBody_decoded {buffer : List UInt8} {length : ℕ} {ws : WebSocketHeaderType}
    (hws : ws.headerSize ≤ 14) :
    Decoded length (contentBody buffer length ws WebSocketFrame.zero) := by
  rw [contentBody]
  split
  · exact ⟨hws, fun _ => zero_small hws length⟩
  · next f he => exact ⟨hws, fun _ => decodeFrameBody_small hws he⟩

theorem headBody_decoded {buffer : List UInt8} {length : ℕ} {ws : WebSocketHeaderType}
    (hws : ws.headerSize ≤ 14) :
    Decoded length (headBody buffer length ws WebSocketFrame.zero) := by
  rw [headBody]
  split
  · next e he =>
    split
    · exact contentBody_decoded hws
    · exact ⟨hws, fun _ => zero_small hws length⟩
  · next ws' he =>
    apply contentBody_decoded
    rw [decodeHeaderBody_headerSize he]
    exact hws

theorem receive_decoded {buffer : List UInt8} {length : ℕ} {ws : WebSocketHeaderType}
    (rStatus : WebSocketReceiveStatus) (hws : ws.headerSize ≤ 14) :
    Decoded length (receiveFullWebSocketFrame buffer length rStatus ws WebSocketFrame.zero) := by
  cases rStatus with
  | wsHeadSize =>
    rw [receiveFullWebSocketFrame, headSize]
    split
    · exact ⟨hws, fun _ => zero_small hws length⟩
    · next ws' he => exact headBody_decoded (decodeHeaderSize_small he)
  | wsHeadBody => exact headBody_decoded hws
  | wsContentBody => exact contentBody_decoded hws
  | wsWsFailed => exact ⟨hws, fun _ => zero_small hws length⟩

/-- The frames `fs` were handed to the session, up to the first that failed. -/
structure Handed (E : Env) (n n' : Node Hearing) (fs : List NodeSession.Frame) (ret : ℤ) :
    Prop where
  session : n'.user.session = (NodeSession.parseFrames E.session n.user.session fs).1
  ret : (NodeSession.parseFrames E.session n.user.session fs).2 ≠ success ∧
      ret = (NodeSession.parseFrames E.session n.user.session fs).2 ∨
    (NodeSession.parseFrames E.session n.user.session fs).2 = success ∧ 0 ≤ ret

theorem Handed.nothing {n n' : Node Hearing} (hs : n'.user.session = n.user.session) {ret : ℤ}
    (hret : 0 ≤ ret) : Handed E n n' [] ret := ⟨hs, Or.inr ⟨rfl, hret⟩⟩

theorem parseFrames_cons (m : NodeSession.Node) (f : NodeSession.Frame)
    (fs : List NodeSession.Frame) :
    NodeSession.parseFrames E.session m (f :: fs) =
      if (NodeSession.parseFrame E.session m f).2 ≠ success then
        NodeSession.parseFrame E.session m f
      else NodeSession.parseFrames E.session (NodeSession.parseFrame E.session m f).1 fs := rfl

theorem Handed.cons {n n₁ n' : Node Hearing} {f : NodeSession.Frame} {fs : List NodeSession.Frame}
    {ret : ℤ} (h₁ : n₁.user.session = (NodeSession.parseFrame E.session n.user.session f).1)
    (hok : (NodeSession.parseFrame E.session n.user.session f).2 = success)
    (h : Handed E n₁ n' fs ret) : Handed E n n' (f :: fs) ret := by
  have heq : NodeSession.parseFrames E.session n.user.session (f :: fs) =
      NodeSession.parseFrames E.session n₁.user.session fs := by
    rw [parseFrames_cons, if_neg (not_not_intro hok), h₁]
  refine ⟨?_, ?_⟩
  · rw [heq]
    exact h.session
  · rw [heq]
    exact h.ret

theorem Handed.failed {n n' : Node Hearing} {f : NodeSession.Frame} {ret : ℤ}
    (hs : n'.user.session = (NodeSession.parseFrame E.session n.user.session f).1)
    (hret : (NodeSession.parseFrame E.session n.user.session f).2 = ret) (hne : ret ≠ success) :
    Handed E n n' [f] ret := by
  have heq : NodeSession.parseFrames E.session n.user.session [f] =
      NodeSession.parseFrame E.session n.user.session f := by
    rw [parseFrames_cons, if_pos (by rwa [hret])]
  refine ⟨?_, Or.inl ?_⟩
  · rw [heq]
    exact hs
  · rw [heq, hret]
    exact ⟨hne, rfl⟩

/-- What a turn of the loop does: it ends without a frame, or it hands one on. -/
inductive Turned (E : Env) (m : NodeSession.Node) (t : Turn Hearing) : Prop
  | nothing (session : t.node.user.session = m) (ret : t.ret = 0)
      (eLoop : t.eLoop = false)
  | failed (f : NodeSession.Frame)
      (session : t.node.user.session = (NodeSession.parseFrame E.session m f).1)
      (ret : (NodeSession.parseFrame E.session m f).2 = t.ret) (ne : t.ret ≠ success)
      (eLoop : t.eLoop = false)
  | taken (f : NodeSession.Frame)
      (session : t.node.user.session = (NodeSession.parseFrame E.session m f).1)
      (ok : (NodeSession.parseFrame E.session m f).2 = success) (ret : 0 ≤ t.ret)

theorem drained_small {n : Node Hearing} {size : ℕ} (h : Small n size) (hsize : size < 2 ^ 31)
    (frameSize : ℕ) (hframe : frameSize ≤ size) (frame : List UInt8) {length : ℕ}
    (hlen : (length + n.wsType.headerSize) % 2 ^ 64 ≤ max frameSize 14) :
    Small (drained n frameSize frame length).node size ∧
      0 ≤ (drained n frameSize frame length).ret := by
  have hnarrow : narrowInt ((length + n.wsType.headerSize) % 2 ^ 64 : ℕ) =
      ((length + n.wsType.headerSize) % 2 ^ 64 : ℕ) := by
    apply narrowInt_eq
    simp only [InInt, intMin, intMax]
    omega
  refine ⟨⟨h.headerSize, ?_⟩, ?_⟩
  · have hb := h.buffer
    simp only [drained, List.length_drop]
    omega
  · simp only [drained, hnarrow]
    exact Int.natCast_nonneg _

theorem decoded_turned {n : Node Hearing} {size : ℕ} (h : Small n size) (hsize : size < 2 ^ 31)
    {frameSize : ℕ} (hframe : frameSize ≤ size) (buffer : List UInt8) {wsFrame : WebSocketFrame}
    (hlen : (wsFrame.length + n.wsType.headerSize) % 2 ^ 64 ≤ max frameSize 14) :
    Small (decoded (wireEnv E) n frameSize buffer wsFrame).node size ∧
      Turned E n.user.session (decoded (wireEnv E) n frameSize buffer wsFrame) := by
  have hreleasing : (wireEnv E).releasingFlag n.user = false := rfl
  have hgone : ∀ s, (wireEnv E).instanceGone s = false := fun _ => rfl
  have hexists : ∀ s, (wireEnv E).checkNodeExist s = success := fun _ => rfl
  have hparse : (wireEnv E).parseFrame n.user buffer (typed n wsFrame) = parseFrame E n.user
    (typed n wsFrame).type (FrameDelivery.bytes buffer (typed n wsFrame))
    (typed n wsFrame).closeCode := rfl
  simp only [decoded, hreleasing, hgone, hexists, hparse, Bool.false_eq_true, if_false, ne_eq,
    not_true_eq_false]
  have hsession : (parseFrame E n.user (typed n wsFrame).type
      (FrameDelivery.bytes buffer (typed n wsFrame)) (typed n wsFrame).closeCode).1.session =
        (NodeSession.parseFrame E.session n.user.session
        (NodeWire.frame E (typed n wsFrame).type (FrameDelivery.bytes buffer (typed n wsFrame))
          (typed n wsFrame).closeCode)).1 := rfl
  have hresult : (NodeSession.parseFrame E.session n.user.session
      (NodeWire.frame E (typed n wsFrame).type (FrameDelivery.bytes buffer (typed n wsFrame))
        (typed n wsFrame).closeCode)).2 = (parseFrame E n.user (typed n wsFrame).type
      (FrameDelivery.bytes buffer (typed n wsFrame)) (typed n wsFrame).closeCode).2 := rfl
  generalize parseFrame E n.user (typed n wsFrame).type
    (FrameDelivery.bytes buffer (typed n wsFrame)) (typed n wsFrame).closeCode = s
    at hsession hresult ⊢
  by_cases hr : s.2 = 0
  · simp only [hr, not_true_eq_false, if_false]
    obtain ⟨hsmall, hret⟩ := drained_small (n := { n with user := s.1 })
      ⟨h.headerSize, h.buffer⟩ hsize frameSize hframe buffer hlen
    exact ⟨hsmall, .taken _ hsession (hresult.trans hr) hret⟩
  · simp only [hr, not_false_eq_true, if_true]
    exact ⟨⟨h.headerSize, h.buffer⟩, .failed _ hsession hresult hr rfl⟩

variable (hrealloc : ∀ n, E.realloc n = true)

include hrealloc in
theorem turn_turned {n : Node Hearing} {size : ℕ} (h : Small n size) (hsize : size < 2 ^ 31)
    (buffer : List UInt8) :
    Small (turn (wireEnv E) n buffer).node size ∧
      Turned E n.user.session (turn (wireEnv E) n buffer) := by
  have hno : ¬ (readBufferSize < n.readEvBuffer.length ∧
      (wireEnv E).realloc (n.readEvBuffer.length + 1) = false) := by
    intro hc
    have hr : E.realloc (n.readEvBuffer.length + 1) = false := hc.2
    rw [hrealloc] at hr
    cases hr
  rw [turn, if_neg hno]
  simp only
  generalize (if readBufferSize < n.readEvBuffer.length then
    resize (wireEnv E) buffer (n.readEvBuffer.length + 1) else buffer) = buffer'
  have hdec : Decoded n.readEvBuffer.length
      (receiveFullWebSocketFrame (copyout n.readEvBuffer buffer') n.readEvBuffer.length
        n.rStatus n.wsType WebSocketFrame.zero) := receive_decoded n.rStatus h.headerSize
  generalize receiveFullWebSocketFrame (copyout n.readEvBuffer buffer') n.readEvBuffer.length
    n.rStatus n.wsType WebSocketFrame.zero = p at hdec
  by_cases hp : p.ret = success
  · rw [if_pos hp]
    exact decoded_turned (n := { n with rStatus := p.rStatus, wsType := p.wsType })
      ⟨hdec.headerSize, h.buffer⟩ hsize h.buffer p.frame (hdec.size hp)
  · rw [if_neg hp]
    exact ⟨⟨hdec.headerSize, h.buffer⟩, .nothing rfl rfl rfl⟩

include hrealloc in
theorem loop_handed {n : Node Hearing} {size : ℕ} (h : Small n size) (hsize : size < 2 ^ 31)
    (buffer : List UInt8) :
    Small (responseLoop (wireEnv E) n buffer).1 size ∧
      ∃ fs, Handed E n (responseLoop (wireEnv E) n buffer).1 fs
        (responseLoop (wireEnv E) n buffer).2 := by
  induction hk : n.readEvBuffer.length using Nat.strong_induction_on generalizing n buffer with
  | _ k ih =>
    by_cases hne : n.readEvBuffer = []
    · rw [responseLoop_empty _ hne]
      exact ⟨h, [], Handed.nothing rfl le_rfl⟩
    · obtain ⟨hsmall, hturn⟩ := turn_turned hrealloc h hsize buffer
      cases hl : (turn (wireEnv E) n buffer).eLoop with
      | false =>
        rw [responseLoop_stop _ hne hl]
        refine ⟨hsmall, ?_⟩
        cases hturn with
        | nothing hs hret _ => exact ⟨[], Handed.nothing hs (hret ▸ le_rfl)⟩
        | failed f hs hret hbad _ => exact ⟨[f], Handed.failed hs hret hbad⟩
        | taken f hs hok hret => exact ⟨[f], Handed.cons hs hok (Handed.nothing rfl hret)⟩
      | true =>
        rw [responseLoop_again _ hne hl]
        have hlt := turn_eLoop (wireEnv E) hne hl
        obtain ⟨hsmall', fs, hfs⟩ := ih _ (hk ▸ hlt) hsmall (turn (wireEnv E) n buffer).frame rfl
        refine ⟨hsmall', ?_⟩
        cases hturn with
        | nothing _ _ hstop =>
          rw [hl] at hstop
          cases hstop
        | failed _ _ _ _ hstop =>
          rw [hl] at hstop
          cases hstop
        | taken f hs hok _ => exact ⟨f :: fs, Handed.cons hs hok hfs⟩

end frames

section wire
variable {E : Env}

def Alike (ret ret' : ℤ) : Prop := ret = ret' ∨ 0 ≤ ret ∧ 0 ≤ ret'

theorem Alike.lt {ret ret' : ℤ} (h : Alike ret ret') : ret < 0 ↔ ret' < 0 := by
  rcases h with rfl | ⟨h, h'⟩
  · exact Iff.rfl
  · omega

theorem Alike.eq {ret ret' : ℤ} (h : Alike ret ret') (hneg : ret < 0) : ret = ret' := by
  rcases h with h | ⟨h, -⟩
  · exact h
  · omega

theorem Handed.alike {n n' : Node Hearing} {fs : List NodeSession.Frame} {ret : ℤ}
    (h : Handed E n n' fs ret) :
    Alike ret (NodeSession.parseFrames E.session n.user.session fs).2 := by
  rcases h.ret with ⟨-, hret⟩ | ⟨hok, hret⟩
  · exact Or.inl hret
  · exact Or.inr ⟨hret, hok ▸ le_rfl⟩

def Read.length : Read → ℕ
  | .failed => 0
  | .bytes chunk => chunk.length

/-- What a read leaves of the wire besides the session. -/
structure Kept (w w' : Wire) (size : ℕ) : Prop where
  small : Small w'.node size
  readEvent : w'.readEvent = w.readEvent

theorem Small.mono {n : Node Hearing} {size size' : ℕ} (h : Small n size) (hle : size ≤ size') :
    Small n size' := ⟨h.headerSize, h.buffer.trans hle⟩

variable (hrealloc : ∀ n, E.realloc n = true)

include hrealloc in
theorem webSocketResponse_refines {w : Wire} {size : ℕ} (h : Small w.node size) (read : Read)
    (hsize : size + Read.length read < 2 ^ 31) :
    Kept w (webSocketResponse E w read).1 (size + Read.length read) ∧
      ∃ received, (webSocketResponse E w read).1.session =
          (NodeSession.webSocketResponse E.session w.session received).1 ∧
        Alike (webSocketResponse E w read).2
          (NodeSession.webSocketResponse E.session w.session received).2 := by
  have hreleasing : ¬ (wireEnv E).releasingFlag w.node.user = true := Bool.false_ne_true
  cases read with
  | failed =>
    refine ⟨⟨h, rfl⟩, .failed, rfl, Or.inl rfl⟩
  | bytes chunk =>
    cases chunk with
    | nil => exact ⟨⟨h, rfl⟩, .frames [], rfl, Or.inl rfl⟩
    | cons b chunk =>
      have hsmall : Small { w.node with readEvBuffer := w.node.readEvBuffer ++ (b :: chunk) }
          (size + (b :: chunk).length) := by
        refine ⟨h.headerSize, ?_⟩
        have hb := h.buffer
        rw [List.length_append]
        omega
      obtain ⟨hloop, fs, hfs⟩ := loop_handed hrealloc hsmall hsize
        ((b :: chunk) ++ List.replicate (readBufferSize - (b :: chunk).length) 0)
      exact ⟨⟨hloop, rfl⟩, .frames fs, hfs.session, hfs.alike⟩

theorem gatewayResponse_kept {w : Wire} {size : ℕ} (h : Small w.node size) (read : Read) :
    Kept w (gatewayResponse E w read).1 (size + Read.length read) ∧
      (gatewayResponse E w read).1.session = w.session := by
  have hle : w.node.readEvBuffer.length ≤ size + Read.length read :=
    h.buffer.trans (Nat.le_add_right _ _)
  rw [gatewayResponse]
  cases read with
  | failed => exact ⟨⟨⟨h.headerSize, hle⟩, rfl⟩, rfl⟩
  | bytes chunk =>
    cases chunk with
    | nil => exact ⟨⟨⟨h.headerSize, hle⟩, rfl⟩, rfl⟩
    | cons b chunk =>
      have hbuf : (w.node.readEvBuffer ++ (b :: chunk)).length ≤ size + (b :: chunk).length := by
        have hb := h.buffer
        rw [List.length_append]
        omega
      simp only [Handshake.gatewayResponse]
      split_ifs
      · exact ⟨⟨⟨h.headerSize, hbuf⟩, rfl⟩, rfl⟩
      · exact ⟨⟨⟨h.headerSize, Nat.zero_le _⟩, rfl⟩, rfl⟩
      · exact ⟨⟨⟨h.headerSize, hbuf⟩, rfl⟩, rfl⟩

include hrealloc in
theorem responded_refines {w : Wire} {size : ℕ} (h : Small w.node size) (r : Reading)
    (hsize : size + Read.length r.read < 2 ^ 31) :
    Kept w (responded E w r).1 (size + Read.length r.read) ∧
      ∃ gateway received,
        (responded E w r).1.session =
          (NodeSession.responded E.session w.session ⟨gateway, received, r.sent, r.code⟩).1 ∧
        Alike (responded E w r).2
          (NodeSession.responded E.session w.session ⟨gateway, received, r.sent, r.code⟩).2 := by
  have hkept : Kept w w (size + Read.length r.read) := ⟨h.mono (Nat.le_add_right _ _), rfl⟩
  obtain ⟨hgate, hgs⟩ := gatewayResponse_kept (E := E) h r.read
  obtain ⟨hframes, received, hs, hret⟩ := webSocketResponse_refines hrealloc h r.read hsize
  have hshaking : (w.session.workStatus = .nodeHandshaking ∨
      w.session.workStatus = .nodeHandshaked) →
      Kept w (responded E w r).1 (size + Read.length r.read) ∧
        (responded E w r).1.session = (NodeSession.responded E.session w.session
          ⟨(gatewayResponse E w r.read).2, received, r.sent, r.code⟩).1 ∧
        Alike (responded E w r).2 (NodeSession.responded E.session w.session
          ⟨(gatewayResponse E w r.read).2, received, r.sent, r.code⟩).2 := by
    intro hst
    have hses : NodeSession.responded E.session w.session
        ⟨(gatewayResponse E w r.read).2, received, r.sent, r.code⟩ =
        if (gatewayResponse E w r.read).2 = 0 then
          (NodeSession.nlsSendFrame { w.session with
            workStatus := .nodeStarting, state := .newReconnectionStarting } r.sent, r.sent)
        else if (gatewayResponse E w r.read).2 = -nlsReceiveEmpty then (w.session, success)
        else (w.session, (gatewayResponse E w r.read).2) := by
      rcases hst with hst | hst
      · rw [NodeSession.responded, hst]
      · rw [NodeSession.responded, hst]
    rw [responded_shaking hst, hses]
    split_ifs
    · refine ⟨⟨⟨hgate.small.headerSize, hgate.small.buffer⟩, hgate.readEvent⟩, ?_, Or.inl rfl⟩
      rw [Wire.withSession_session, hgs]
    · exact ⟨hgate, hgs, Or.inl rfl⟩
    · exact ⟨hgate, hgs, Or.inl rfl⟩
  have hstarting : (w.session.workStatus = .nodeStarting ∨
      w.session.workStatus = .nodeWakeWording) →
      Kept w (responded E w r).1 (size + Read.length r.read) ∧
        (responded E w r).1.session =
          (NodeSession.responded E.session w.session ⟨0, received, r.sent, r.code⟩).1 ∧
        Alike (responded E w r).2
          (NodeSession.responded E.session w.session ⟨0, received, r.sent, r.code⟩).2 := by
    intro hst
    have hses : NodeSession.responded E.session w.session ⟨0, received, r.sent, r.code⟩ =
        if (webSocketResponse E w r.read).1.session.workStatus = .nodeStarted ∨
            (webSocketResponse E w r.read).1.session.workStatus = .nodeWakeWording then
          (NodeSession.nlsSendFrame
            (NodeSession.webSocketResponse E.session w.session received).1 r.sent, r.sent)
        else NodeSession.webSocketResponse E.session w.session received := by
      rw [hs]
      rcases hst with hst | hst
      · rw [NodeSession.responded, hst]
      · rw [NodeSession.responded, hst]
    rw [responded_starting hst, hses]
    split_ifs
    · refine ⟨⟨⟨hframes.small.headerSize, hframes.small.buffer⟩, hframes.readEvent⟩, ?_,
        Or.inl rfl⟩
      rw [Wire.withSession_session, hs]
    · exact ⟨hframes, hs, hret⟩
  cases hst : w.session.workStatus with
  | nodeHandshaking => exact ⟨(hshaking (Or.inl hst)).1, _, received, (hshaking (Or.inl hst)).2⟩
  | nodeHandshaked => exact ⟨(hshaking (Or.inr hst)).1, _, received, (hshaking (Or.inr hst)).2⟩
  | nodeStarting => exact ⟨(hstarting (Or.inl hst)).1, 0, received, (hstarting (Or.inl hst)).2⟩
  | nodeWakeWording => exact ⟨(hstarting (Or.inr hst)).1, 0, received, (hstarting (Or.inr hst)).2⟩
  | nodeStarted =>
    rw [responded, hst]
    refine ⟨hframes, 0, received, ?_⟩
    rw [NodeSession.responded, hst]
    exact ⟨hs, hret⟩
  | nodeConnecting =>
    rw [responded, hst]
    by_cases hlong : E.session.isLongConnection = true
    · simp only [hlong, if_true]
      refine ⟨hframes, 0, received, ?_⟩
      rw [NodeSession.responded, hst]
      simp only [hlong, if_true]
      exact ⟨hs, hret⟩
    · simp only [hlong]
      refine ⟨hkept, 0, received, ?_⟩
      rw [NodeSession.responded, hst]
      simp only [hlong]
      exact ⟨rfl, Or.inl rfl⟩
  | _ =>
    rw [responded, hst]
    refine ⟨hkept, 0, received, ?_⟩
    rw [NodeSession.responded, hst]
    exact ⟨rfl, Or.inl rfl⟩

include hrealloc in
theorem nodeResponseProcess_refines {w : Wire} {size : ℕ} (h : Small w.node size) (r : Reading)
    (hsize : size + Read.length r.read < 2 ^ 31) :
    Kept w (nodeResponseProcess E w r) (size + Read.length r.read) ∧
      ∃ response, (nodeResponseProcess E w r).session =
        NodeSession.nodeResponseProcess E.session w.session response := by
  obtain ⟨hkept, gateway, received, hs, hret⟩ := responded_refines hrealloc h r hsize
  rw [nodeResponseProcess]
  by_cases hneg : (responded E w r).2 < 0
  · have heq := hret.eq hneg
    simp only [if_pos hneg]
    by_cases hclosed : (responded E w r).1.session.workStatus = .nodeClosed
    · rw [if_pos hclosed]
      refine ⟨hkept, ⟨gateway, received, r.sent, r.code⟩, ?_⟩
      rw [NodeSession.nodeResponseProcess, ← heq, if_pos hneg, ← hs, if_pos hclosed]
    · rw [if_neg hclosed]
      by_cases hinvalid : (responded E w r).2 = -invalidRequest
      · rw [if_pos hinvalid]
        refine ⟨hkept, ⟨gateway, received, r.sent, r.code⟩, ?_⟩
        rw [NodeSession.nodeResponseProcess, ← heq, if_pos hneg, ← hs, if_neg hclosed,
          if_pos hinvalid]
      · rw [if_neg hinvalid]
        refine ⟨⟨⟨hkept.small.headerSize, hkept.small.buffer⟩, hkept.readEvent⟩,
          ⟨gateway, received, r.sent, r.code⟩, ?_⟩
        rw [NodeSession.nodeResponseProcess, ← heq, if_pos hneg, ← hs, if_neg hclosed,
          if_neg hinvalid]
        rfl
  · have hpos := mt hret.lt.mpr hneg
    simp only [if_neg hneg]
    refine ⟨hkept, ⟨gateway, received, r.sent, r.code⟩, ?_⟩
    rw [NodeSession.nodeResponseProcess, if_neg hpos, hs]

def Event.length : Event → ℕ
  | .read r => Read.length r.read
  | .other _ => 0

def received (es : List Event) : ℕ := (es.map Event.length).sum

include hrealloc in
theorem step_refines {w : Wire} {size : ℕ} (h : Small w.node size) (e : Event)
    (hsize : size + e.length < 2 ^ 31) :
    Small (step E w e).node (size + e.length) ∧
      ((step E w e).session = w.session ∨
        ∃ e', (step E w e).session = NodeSession.step E.session w.session e') := by
  have hmono := h.mono (Nat.le_add_right size e.length)
  cases e with
  | read r =>
    rw [step]
    by_cases hr : w.readEvent = false
    · rw [if_pos hr]
      exact ⟨hmono, Or.inl rfl⟩
    · rw [if_neg hr]
      by_cases hl : w.session.launchEvent = true
      · rw [if_pos hl]
        exact ⟨hmono, Or.inl rfl⟩
      · rw [if_neg hl]
        by_cases hx : w.session.exitStatus = .exitCancel
        · rw [if_pos hx]
          exact ⟨hmono, Or.inl rfl⟩
        · rw [if_neg hx]
          obtain ⟨hkept, response, hs⟩ := nodeResponseProcess_refines hrealloc h r hsize
          refine ⟨hkept.small, Or.inr ⟨.response response, ?_⟩⟩
          rw [hs, NodeSession.step, NodeSession.socketEvent, if_neg hl, if_neg hx]
  | other e => exact ⟨⟨h.headerSize, h.buffer⟩, Or.inr ⟨e.val, rfl⟩⟩

include hrealloc in
theorem run_refines {w : Wire} {size : ℕ} (h : Small w.node size) {es : List Event}
    (hsize : size + received es < 2 ^ 31) :
    ∃ es', (run E w es).session = NodeSession.run E.session w.session es' := by
  induction es generalizing w size with
  | nil => exact ⟨[], rfl⟩
  | cons e es ih =>
    have hsum : received (e :: es) = e.length + received es := by
      rw [received, List.map_cons, List.sum_cons, received]
    rw [hsum] at hsize
    obtain ⟨hsmall, hstep⟩ := step_refines hrealloc h e (by omega)
    obtain ⟨es', hrun⟩ := ih hsmall (by omega)
    rw [run, List.foldl_cons]
    rcases hstep with hstep | ⟨e', hstep⟩
    · refine ⟨es', ?_⟩
      rw [← hstep]
      exact hrun
    · refine ⟨e' :: es', ?_⟩
      rw [NodeSession.run, List.foldl_cons, ← hstep]
      exact hrun

end wire

end RtmpRelay.NodeWire
