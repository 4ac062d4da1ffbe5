import RtmpRelay.FrameFormat
import RtmpRelay.Media

/-!
# The send side of a node

Audio is packed into frames and put in one buffer, commands in another, and
both go to the same socket, at most `nodeFrameSize` bytes at a call and as many
of them as the socket takes. What is left arms the write event. The stop
command is held back until the audio buffer is empty.
-/

namespace RtmpRelay.AudioUpload

open WebSocketTcp FrameFormat Media

inductive ExitStatus
  | exitInvalid
  | exitStopping
  | exitCancel
  deriving DecidableEq, Repr

theorem ExitStatus.stopping_ne_invalid : ExitStatus.exitStopping ≠ .exitInvalid := by decide

theorem ExitStatus.stopping_ne_cancel : ExitStatus.exitStopping ≠ .exitCancel := by decide

theorem ExitStatus.cancel_ne_invalid : ExitStatus.exitCancel ≠ .exitInvalid := by decide

theorem ExitStatus.invalid_ne_stopping : ExitStatus.exitInvalid ≠ .exitStopping := by decide

inductive ConnectStatus
  | nodeInvalid
  | nodeCreated
  | nodeInvoking
  | nodeInvoked
  | nodeConnecting
  | nodeConnected
  | nodeHandshaking
  | nodeHandshaked
  | nodeStarting
  | nodeStarted
  | nodeWakeWording
  | nodeFailed
  | nodeCompleted
  | nodeClosed
  | nodeReleased
  deriving DecidableEq, Repr

def ConnectStatus.value : ConnectStatus → ℕ
  | .nodeInvalid => 0
  | .nodeCreated => 1
  | .nodeInvoking => 2
  | .nodeInvoked => 3
  | .nodeConnecting => 4
  | .nodeConnected => 5
  | .nodeHandshaking => 6
  | .nodeHandshaked => 7
  | .nodeStarting => 8
  | .nodeStarted => 9
  | .nodeWakeWording => 10
  | .nodeFailed => 11
  | .nodeCompleted => 12
  | .nodeClosed => 13
  | .nodeReleased => 14

inductive EncoderType
  | encoderNone
  | encoderOpus
  | encoderOpu
  deriving DecidableEq, Repr

theorem EncoderType.opus_ne_none : EncoderType.encoderOpus ≠ .encoderNone := by decide

inductive Write
  | failed
  | took (bytes : ℕ)
  deriving DecidableEq, Repr

/-- `write i` answers the `i`-th call of `send`; the encoder keeps a state of its own and
returns the size of its output as an `int`. -/
structure Env (τ : Type*) where
  write : ℕ → Write
  stopCommand : List UInt8
  stopCommand_lt : stopCommand.length < 2 ^ 63
  encoderType : EncoderType
  getFrameSampleBytes : ℤ
  nlsEncoding : τ → List UInt8 → τ × Except ℤ (List UInt8)
  nlsEncoding_lt : ∀ c frame payload, (nlsEncoding c frame).2 = .ok payload →
    payload.length < 2 ^ 31

/-- `socket` keeps the bytes the socket took, `queued` the payloads put in the audio buffer. -/
structure Node (τ : Type*) where
  workStatus : ConnectStatus
  exitStatus : ExitStatus
  isStop : Bool
  isFirstAudioFrame : Bool
  limitSize : ℕ
  audioFrame : List UInt8
  encoder : τ
  binaryEvBuffer : List UInt8
  cmdEvBuffer : List UInt8
  writeEvent : Bool
  pending : Bool
  socketOpen : Bool
  sends : ℕ
  socket : List UInt8
  queued : List (List UInt8)

def nodeFrameSize : ℕ := 2048

def invokeSendAudioFailed : ℤ := 162
def invokeStopFailed : ℤ := 164
def invokeCancelFailed : ℤ := 165
def invalidWorkStatus : ℤ := 251
def invalidExitStatus : ℤ := 439

inductive Channel
  | binary
  | cmd
  deriving DecidableEq, Repr

variable {τ : Type*} (E : Env τ)

def Node.buffer (n : Node τ) : Channel → List UInt8
  | .binary => n.binaryEvBuffer
  | .cmd => n.cmdEvBuffer

def Node.setBuffer (n : Node τ) (b : List UInt8) : Channel → Node τ
  | .binary => { n with binaryEvBuffer := b }
  | .cmd => { n with cmdEvBuffer := b }

def packed (codeType : OpCodeType) (payload : List UInt8) : List UInt8 :=
  header codeType payload.length ++ xorFrom masKingKey 0 payload

def nlsSend (n : Node τ) (ch : Channel) (bufferSize : ℕ) : Option (Node τ) :=
  match E.write n.sends with
  | .failed => none
  | .took k =>
      if n.socketOpen then
        let sLen := min k bufferSize
        some { n.setBuffer ((n.buffer ch).drop sLen) ch with
          sends := n.sends + 1
          socket := n.socket ++ (n.buffer ch).take sLen }
      else none

def nlsSendFrame (n : Node τ) (ch : Channel) : Node τ × ℤ :=
  let length := (n.buffer ch).length
  if length = 0 then (n, 0)
  else
    match nlsSend E n ch (min length nodeFrameSize) with
    | none => ({ n with sends := n.sends + 1 }, -NlsRetCode.nlsSendFailed.code)
    | some n' =>
        let length := (n'.buffer ch).length
        if 0 < length then
          if n'.writeEvent = false then (n', -NlsRetCode.eventEmpty.code)
          else ({ n' with pending := true }, narrowInt length)
        else (n', narrowInt length)

/-- `addCmdDataBuffer(CmdStop)`. -/
def addStopCommand (n : Node τ) : Node τ :=
  { n with cmdEvBuffer := n.cmdEvBuffer ++ packed .textFrame E.stopCommand }

def sendControlDirective (n : Node τ) : Node τ × ℤ :=
  if n.workStatus = .nodeStarted ∧ n.exitStatus = .exitInvalid then
    if n.cmdEvBuffer.length ≠ 0 then nlsSendFrame E n .cmd else (n, 0)
  else if n.exitStatus = .exitStopping ∧ n.isStop = false then
    let r := nlsSendFrame E (addStopCommand E n) .cmd
    ({ r.1 with isStop := true }, r.2)
  else (n, 0)

def disconnectProcess (n : Node τ) : Node τ := { n with socketOpen := false }

def closeConnectNode (n : Node τ) : Node τ :=
  { n with socketOpen := false, writeEvent := false, pending := false, audioFrame := []
           isFirstAudioFrame := true }

def handlerTaskFailedEvent (n : Node τ) : Node τ :=
  if n.exitStatus = .exitCancel then n else { n with workStatus := .nodeClosed }

def encoding (n : Node τ) (frame : List UInt8) : Node τ × Except ℤ (List UInt8) :=
  if E.encoderType = .encoderNone then (n, .ok frame)
  else
    ({ n with encoder := (E.nlsEncoding n.encoder frame).1 }, (E.nlsEncoding n.encoder frame).2)

def push (n : Node τ) (payload : List UInt8) : Node τ :=
  { n with
    binaryEvBuffer := n.binaryEvBuffer ++ packed .binaryFrame payload
    queued := n.queued ++ [payload] }

/-- What follows the push, `length` being what the buffer held before. -/
def kick (n : Node τ) (length : ℕ) : Node τ × ℤ :=
  let r :=
    if length = 0 ∧ n.workStatus = .nodeStarted ∧ n.isStop = false then nlsSendFrame E n .binary
    else (n, 0)
  if r.2 = 0 then sendControlDirective E r.1 else r

def addAudioDataBuffer (n : Node τ) (frame : List UInt8) : Node τ × ℤ :=
  if frame = [] then (n, -NlsRetCode.nlsEncodingFailed.code)
  else
    let n' := (encoding E n frame).1
    match (encoding E n frame).2 with
    | .error _ => (n', -NlsRetCode.nlsEncodingFailed.code)
    | .ok payload =>
        let length := n'.binaryEvBuffer.length
        if n'.limitSize ≤ length then (n', -NlsRetCode.evbufferTooMuch.code)
        else
          let r := kick E (push n' payload) length
          if r.2 < 0 then (handlerTaskFailedEvent (disconnectProcess r.1), r.2)
          else ({ r.1 with isFirstAudioFrame := false }, narrowInt frame.length)

theorem slice_decreasing {max a d : ℕ} (hmax : 0 < max) (h : max ≤ a + min (max - a) d) :
    d - (max - a) < d + a := by omega

def sliceLoop {max : ℕ} (hmax : 0 < max) (n : Node τ) (frame : List UInt8) (filling_ret : ℤ) :
    Node τ × ℤ :=
  let used := frame.take (max - n.audioFrame.length)
  let rest := frame.drop (max - n.audioFrame.length)
  let slice := n.audioFrame ++ used
  if _h : max ≤ slice.length then
    let r := addAudioDataBuffer E n slice
    let n' := { r.1 with audioFrame := [] }
    if r.2 < 0 then (n', r.2)
    else if rest = [] then (n', filling_ret + max)
    else sliceLoop hmax n' rest (filling_ret + max)
  else if n.isFirstAudioFrame = false ∧ E.encoderType ≠ .encoderOpu then
    let r := addAudioDataBuffer E n slice
    let n' := { r.1 with audioFrame := [] }
    if r.2 < 0 then (n', r.2) else (n', filling_ret + slice.length)
  else ({ n with audioFrame := slice }, filling_ret)
termination_by frame.length + n.audioFrame.length
decreasing_by
  simp only [slice, used, List.length_append, List.length_take] at _h
  simp only [List.length_drop, List.length_nil]
  exact slice_decreasing hmax _h

def addSlicedAudioDataBuffer (n : Node τ) (frame : List UInt8) : Node τ × ℤ :=
  if E.encoderType = .encoderNone then addAudioDataBuffer E n frame
  else if h : 0 < E.getFrameSampleBytes.toNat then sliceLoop E h n frame 0
  else (n, E.getFrameSampleBytes)

def addRemainAudioData (n : Node τ) : Node τ × ℤ :=
  if 0 < n.audioFrame.length then
    let r := addAudioDataBuffer E n n.audioFrame
    ({ r.1 with audioFrame := [] }, r.2)
  else (n, 0)

/-- `NlsEventNetWork::sendAudio`, once the node is no longer starting. -/
def sendAudio (n : Node τ) (data : List UInt8) (type : EncoderType) : Node τ × ℤ :=
  if n.workStatus ≠ .nodeStarted ∨ n.exitStatus ≠ .exitInvalid then (n, -invokeSendAudioFailed)
  else if type ≠ .encoderNone then addSlicedAudioDataBuffer E n data
  else addAudioDataBuffer E n data

/-- `cmdNotify(CmdStop)`. -/
def cmdNotifyStop (n : Node τ) : Node τ × ℤ :=
  let n := { (addRemainAudioData E n).1 with exitStatus := .exitStopping }
  let r :=
    if n.workStatus = .nodeStarted ∧ n.binaryEvBuffer.length = 0 then sendControlDirective E n
    else (n, 0)
  if r.2 < 0 then (handlerTaskFailedEvent (disconnectProcess r.1), r.2) else r

def stop (n : Node τ) : Node τ × ℤ :=
  if n.exitStatus = .exitStopping ∨ n.exitStatus = .exitCancel then (n, 0)
  else if n.workStatus.value < ConnectStatus.nodeInvoking.value ∨
      ConnectStatus.nodeFailed.value ≤ n.workStatus.value then (n, -invokeStopFailed)
  else cmdNotifyStop E n

def cancel (n : Node τ) : Node τ × ℤ :=
  if n.exitStatus = .exitCancel then (n, 0)
  else if n.workStatus.value < ConnectStatus.nodeInvoking.value ∨
      ConnectStatus.nodeClosed.value ≤ n.workStatus.value then (n, -invokeCancelFailed)
  else ({ n with exitStatus := .exitCancel }, 0)

def sendStarted (n : Node τ) : Node τ × ℤ :=
  let r := nlsSendFrame E n .binary
  if r.2 = 0 then sendControlDirective E r.1 else r

/-- `nodeRequestProcess` of a node that was started. -/
def nodeRequestProcess (n : Node τ) : Node τ × ℤ :=
  let r := if n.workStatus = .nodeStarted then sendStarted E n else (n, -invalidWorkStatus)
  if r.2 < 0 then (closeConnectNode (handlerTaskFailedEvent r.1), r.2) else (r.1, 0)

def writeEventCallBack (n : Node τ) : Node τ :=
  if n.pending then
    if n.exitStatus = .exitCancel then closeConnectNode n
    else (nodeRequestProcess E { n with pending := false }).1
  else n

inductive Event
  | sendAudio (data : List UInt8) (type : EncoderType)
  | writable
  | stop
  | cancel
  | closed (status : ConnectStatus)
  deriving DecidableEq, Repr

/-- `closed` is the receive side that closes the node, leaving it in a status it ends in. -/
def step (n : Node τ) : Event → Node τ
  | .sendAudio data type => (AudioUpload.sendAudio E n data type).1
  | .writable => writeEventCallBack E n
  | .stop => (AudioUpload.stop E n).1
  | .cancel => (AudioUpload.cancel n).1
  | .closed status =>
      if ConnectStatus.nodeFailed.value ≤ status.value then
        { closeConnectNode n with workStatus := status }
      else n

def run (n : Node τ) (es : List Event) : Node τ := es.foldl (step E) n

/-- The data of the call, if the call answered that it was taken. -/
def taken₁ (n : Node τ) : Event → List (List UInt8)
  | .sendAudio data type => if 0 ≤ (AudioUpload.sendAudio E n data type).2 then [data] else []
  | _ => []

def taken : Node τ → List Event → List (List UInt8)
  | _, [] => []
  | n, e :: es => taken₁ E n e ++ taken (step E n e) es

def started (limitSize : ℕ) (encoder : τ) : Node τ where
  workStatus := .nodeStarted
  exitStatus := .exitInvalid
  isStop := false
  isFirstAudioFrame := true
  limitSize := limitSize
  audioFrame := []
  encoder := encoder
  binaryEvBuffer := []
  cmdEvBuffer := []
  writeEvent := true
  pending := false
  socketOpen := true
  sends := 0
  socket := []
  queued := []

end RtmpRelay.AudioUpload
