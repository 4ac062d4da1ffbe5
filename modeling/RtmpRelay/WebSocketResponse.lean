import RtmpRelay.FrameFormat
import RtmpRelay.Media

/-!
# The receive side of a node

A readable socket gives the node one chunk. The chunk joins what earlier ones
left in the read buffer, and the loop decodes a frame, hands it on and drains
it, for as long as a whole frame was there. The stage a frame stopped at and
its header stay in the node for the next chunk.
-/

namespace RtmpRelay.WebSocketResponse

open WebSocketTcp FrameFormat Chunked Media

def readBufferSize : ℕ := 20480

/-- What the loop asks of the rest of the node and of the allocator. -/
structure Env (σ : Type*) where
  parseFrame : σ → List UInt8 → WebSocketFrame → σ × ℤ
  releasingFlag : σ → Bool
  instanceGone : σ → Bool
  checkNodeExist : σ → ℤ
  realloc : ℕ → Bool
  unwritten : ℕ → UInt8

structure Node (σ : Type*) where
  readEvBuffer : List UInt8
  rStatus : WebSocketReceiveStatus
  wsType : WebSocketHeaderType
  user : σ

structure Turn (σ : Type*) where
  node : Node σ
  frame : List UInt8
  ret : ℤ
  eLoop : Bool

variable {σ : Type*} (E : Env σ)

def resize (frame : List UInt8) (size : ℕ) : List UInt8 :=
  (frame ++ (List.range' frame.length (size - frame.length)).map E.unwritten).take size

def copyout (buffer frame : List UInt8) : List UInt8 := buffer ++ frame.drop buffer.length

/-- `evbuffer_drain`, and whether the loop goes on. -/
def drained (n : Node σ) (frameSize : ℕ) (frame : List UInt8) (length : ℕ) : Turn σ :=
  let size : ℕ := (length + n.wsType.headerSize) % 2 ^ 64
  -- `size_t`: it wraps when the header is longer than what was received
  let cur_data_size : ℤ := ((frameSize : ℤ) - size) % 2 ^ 64
  ⟨{ n with readEvBuffer := n.readEvBuffer.drop size }, frame, narrowInt size,
    decide (0 < narrowInt size ∧ 0 < cur_data_size)⟩

def typed (n : Node σ) (wsFrame : WebSocketFrame) : WebSocketFrame :=
  if n.wsType.opCode = .pong then { wsFrame with type := n.wsType.opCode } else wsFrame

def decoded (n : Node σ) (frameSize : ℕ) (frame : List UInt8) (wsFrame : WebSocketFrame) : Turn σ :=
  if E.releasingFlag n.user then
    ⟨n, frame, -NlsRetCode.invalidStatusWhenReleasing.code, false⟩
  else
    let (user, result) := E.parseFrame n.user frame (typed n wsFrame)
    let n := { n with user := user }
    if result ≠ 0 then ⟨n, frame, result, false⟩
    else if E.instanceGone user then ⟨n, frame, -NlsRetCode.eventClientEmpty.code, false⟩
    else if E.checkNodeExist user ≠ success then ⟨n, frame, E.checkNodeExist user, false⟩
    else drained n frameSize frame wsFrame.length

/-- One turn of the loop, entered with a buffer that is not empty. -/
def turn (n : Node σ) (frame : List UInt8) : Turn σ :=
  let frameSize := n.readEvBuffer.length
  if readBufferSize < frameSize ∧ E.realloc (frameSize + 1) = false then
    ⟨n, frame, -NlsRetCode.reallocFailed.code, false⟩
  else
    let frame := if readBufferSize < frameSize then resize E frame (frameSize + 1) else frame
    let p := receiveFullWebSocketFrame (copyout n.readEvBuffer frame) frameSize n.rStatus n.wsType
      WebSocketFrame.zero
    let n := { n with rStatus := p.rStatus, wsType := p.wsType }
    if p.ret = success then decoded E n frameSize p.frame p.resultDate
    else ⟨n, p.frame, 0, false⟩

theorem drained_eLoop {n : Node σ} {frameSize : ℕ} {frame : List UInt8} {length : ℕ}
    (hne : n.readEvBuffer ≠ []) (h : (drained n frameSize frame length).eLoop = true) :
    (drained n frameSize frame length).node.readEvBuffer.length < n.readEvBuffer.length := by
  have hpos := List.length_pos_of_ne_nil hne
  simp only [drained, decide_eq_true_eq] at h ⊢
  obtain ⟨hret, -⟩ := h
  rw [List.length_drop]
  by_contra hle
  have hzero : (length + n.wsType.headerSize) % 2 ^ 64 = 0 := by omega
  rw [hzero] at hret
  exact absurd hret (by decide)

theorem decoded_eLoop {n : Node σ} {frameSize : ℕ} {frame : List UInt8} {wsFrame : WebSocketFrame}
    (hne : n.readEvBuffer ≠ []) (h : (decoded E n frameSize frame wsFrame).eLoop = true) :
    (decoded E n frameSize frame wsFrame).node.readEvBuffer.length < n.readEvBuffer.length := by
  simp only [decoded] at h ⊢
  split_ifs at h ⊢
  exact drained_eLoop (n := { n with user := _ }) hne h

theorem turn_eLoop {n : Node σ} {frame : List UInt8} (hne : n.readEvBuffer ≠ [])
    (h : (turn E n frame).eLoop = true) :
    (turn E n frame).node.readEvBuffer.length < n.readEvBuffer.length := by
  simp only [turn] at h ⊢
  split_ifs at h ⊢
  · exact decoded_eLoop E hne h
  · exact decoded_eLoop E hne h

def responseLoop (n : Node σ) (frame : List UInt8) : Node σ × ℤ :=
  if _hne : n.readEvBuffer = [] then (n, 0)
  else
    if _h : (turn E n frame).eLoop = true then
      responseLoop (turn E n frame).node (turn E n frame).frame
    else ((turn E n frame).node, (turn E n frame).ret)
termination_by n.readEvBuffer.length
decreasing_by exact turn_eLoop E _hne _h

theorem responseLoop_empty {n : Node σ} {frame : List UInt8} (h : n.readEvBuffer = []) :
    responseLoop E n frame = (n, 0) := by
  rw [responseLoop, dif_pos h]

theorem responseLoop_stop {n : Node σ} {frame : List UInt8} (hne : n.readEvBuffer ≠ [])
    (h : (turn E n frame).eLoop = false) :
    responseLoop E n frame = ((turn E n frame).node, (turn E n frame).ret) := by
  rw [responseLoop, dif_neg hne, dif_neg (by rw [h]; decide)]

theorem responseLoop_again {n : Node σ} {frame : List UInt8} (hne : n.readEvBuffer ≠ [])
    (h : (turn E n frame).eLoop = true) :
    responseLoop E n frame = responseLoop E (turn E n frame).node (turn E n frame).frame := by
  rw [responseLoop, dif_neg hne, dif_pos h]

inductive Read
  | failed
  | bytes (chunk : List UInt8)
  deriving DecidableEq, Repr

def webSocketResponse (n : Node σ) (read : Read) : Node σ × ℤ :=
  if E.releasingFlag n.user then (n, -NlsRetCode.invalidStatusWhenReleasing.code)
  else
    match read with
    | .failed => (n, -NlsRetCode.nlsReceiveFailed.code)
    | .bytes [] => (n, 0)
    | .bytes chunk =>
        responseLoop E { n with readEvBuffer := n.readEvBuffer ++ chunk }
          (chunk ++ List.replicate (readBufferSize - chunk.length) 0)

section user
variable {E}

theorem decoded_user {P : σ → Prop} (hP : ∀ s frame f, P s → P (E.parseFrame s frame f).1)
    {n : Node σ} (h : P n.user) (frameSize : ℕ) (frame : List UInt8) (f : WebSocketFrame) :
    P (decoded E n frameSize frame f).node.user := by
  have hparse := hP n.user frame (typed n f) h
  simp only [decoded]
  split_ifs
  · exact h
  · exact hparse
  · exact hparse
  · exact hparse
  · exact hparse

theorem turn_user {P : σ → Prop} (hP : ∀ s frame f, P s → P (E.parseFrame s frame f).1)
    {n : Node σ} (h : P n.user) (frame : List UInt8) : P (turn E n frame).node.user := by
  rw [turn]
  split
  · exact h
  · dsimp only
    generalize (if readBufferSize < n.readEvBuffer.length then
      resize E frame (n.readEvBuffer.length + 1) else frame) = frame'
    generalize receiveFullWebSocketFrame (copyout n.readEvBuffer frame')
      n.readEvBuffer.length n.rStatus n.wsType WebSocketFrame.zero = p
    split
    · exact decoded_user hP (n := { n with rStatus := p.rStatus, wsType := p.wsType }) h _ _ _
    · exact h

theorem responseLoop_user {P : σ → Prop} (hP : ∀ s frame f, P s → P (E.parseFrame s frame f).1)
    {n : Node σ} (h : P n.user) (frame : List UInt8) : P (responseLoop E n frame).1.user := by
  induction hk : n.readEvBuffer.length using Nat.strong_induction_on generalizing n frame with
  | _ k ih =>
    by_cases hne : n.readEvBuffer = []
    · rw [responseLoop_empty E hne]
      exact h
    · cases hl : (turn E n frame).eLoop with
      | false =>
        rw [responseLoop_stop E hne hl]
        exact turn_user hP h frame
      | true =>
        rw [responseLoop_again E hne hl]
        exact ih _ (hk ▸ turn_eLoop E hne hl) (turn_user hP h frame) _ rfl

theorem webSocketResponse_user {P : σ → Prop}
    (hP : ∀ s frame f, P s → P (E.parseFrame s frame f).1) {n : Node σ} (h : P n.user) (read : Read) :
    P (webSocketResponse E n read).1.user := by
  cases read with
  | failed =>
    simp only [webSocketResponse]
    split
    · exact h
    · exact h
  | bytes chunk =>
    cases chunk with
    | nil =>
      simp only [webSocketResponse]
      split
      · exact h
      · exact h
    | cons b chunk =>
      simp only [webSocketResponse]
      split
      · exact h
      · exact responseLoop_user hP
          (n := { n with readEvBuffer := n.readEvBuffer ++ (b :: chunk) }) h _

end user

end RtmpRelay.WebSocketResponse
