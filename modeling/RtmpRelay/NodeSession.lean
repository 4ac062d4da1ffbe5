import RtmpRelay.AudioUpload

/-!
# The session of a node

What a node hands to the user's callbacks from its launch on. A failure is
handed over as `TaskFailed` and then `Close`, unless the request reconnects:
then both are ignored and the reconnect event launches the node again. The
sockets are left to the events: a send or a receive says how it ended, and
`code` is the error code read off the message of a failure.
-/

namespace RtmpRelay.NodeSession

open WebSocketTcp
open AudioUpload (ConnectStatus ExitStatus)

inductive EventType
  | taskFailed
  | recognitionStarted
  | recognitionCompleted
  | recognitionResultChanged
  | wakeWordVerificationCompleted
  | transcriptionStarted
  | sentenceBegin
  | transcriptionResultChanged
  | sentenceEnd
  | sentenceSemantics
  | transcriptionCompleted
  | synthesisStarted
  | synthesisCompleted
  | binary
  | metaInfo
  | dialogResultGenerated
  | close
  | message
  | sentenceSynthesis
  deriving DecidableEq, Repr

inductive ReconnectionState
  | noReconnection
  | willReconnect
  | triggerReconnection
  | newReconnectionStarting
  deriving DecidableEq, Repr

def maxTryCount : ℕ := 4
def retryConnectCount : ℕ := 4

def defaultErrorCode : ℤ := 10000002
def sysErrorCode : ℤ := 10000003
def jsonStringParseFailed : ℤ := 10000007
def unknownWsHeadType : ℤ := 10000008
def httpConnectFailed : ℤ := 10000009
def sysConnectFailed : ℤ := 10000015
def utf8ConvertError : ℤ := 10000120
def closeCode : ℤ := 20000000
def clientError : ℤ := 40000000
def concurrencyExceed : ℤ := 43040001

def jsonParseFailed : ℤ := 11
def nlsEventEmpty : ℤ := 200
def nlsEventMsgEmpty : ℤ := 202
def invalidNlsEventMsgType : ℤ := 203
def invalidNlsEventMsgStatusCode : ℤ := 204
def invalidNlsEventMsgHeader : ℤ := 205
def invalidWorkStatus : ℤ := 251
def invalidRequest : ℤ := 302
def wsResponsePackageEmpty : ℤ := 353
def unknownWsFrameHeadType : ℤ := 355
def wsFrameBodyEmpty : ℤ := 359
def invaildNodeStatus : ℤ := 401
def nlsReceiveEmpty : ℤ := 431
def invalidExitStatus : ℤ := 439

/-- The codes of a failure after which the node reconnects. -/
def Retriable (code : ℤ) : Prop :=
  (50000000 ≤ code ∧ code < 60000000) ∨ code = defaultErrorCode ∨ code = sysErrorCode ∨
    code = unknownWsHeadType ∨ code = httpConnectFailed ∨ code = sysConnectFailed ∨
    code = clientError ∨ code = concurrencyExceed

instance (code : ℤ) : Decidable (Retriable code) := inferInstanceAs (Decidable (_ ∨ _))

/-- The parameters of the request; `eventAdd i` answers the `i`-th `event_add` of the reconnect
event. -/
structure Env where
  enableReconnect : Bool
  isLongConnection : Bool
  typeDialog : Bool
  speechWakeWordDialog : Bool
  eventAdd : ℕ → Bool

/-- What happens to an event that reaches the handler, and the launches that follow a failure. -/
inductive Happening
  | called (type : EventType)
  | ignored (type : EventType)
  | reconnecting
  | launched
  deriving DecidableEq, Repr

structure Node where
  workStatus : ConnectStatus
  exitStatus : ExitStatus
  isFirstBinaryFrame : Bool
  retryConnectCount : ℕ
  state : ReconnectionState
  reconnectedCount : ℕ
  adds : ℕ
  launchEvent : Bool
  reconnectEvent : Bool
  history : List Happening
  deriving DecidableEq, Repr

/-- What a text frame parses to; an error carries the code `parseJsonMsg` returns. -/
inductive JsonError
  | jsonParseFailed
  | nlsEventMsgEmpty
  | invalidNlsEventMsgType
  | invalidNlsEventMsgStatusCode
  | invalidNlsEventMsgHeader
  deriving DecidableEq, Repr

def JsonError.code : JsonError → ℤ
  | .jsonParseFailed => NodeSession.jsonParseFailed
  | .nlsEventMsgEmpty => NodeSession.nlsEventMsgEmpty
  | .invalidNlsEventMsgType => NodeSession.invalidNlsEventMsgType
  | .invalidNlsEventMsgStatusCode => NodeSession.invalidNlsEventMsgStatusCode
  | .invalidNlsEventMsgHeader => NodeSession.invalidNlsEventMsgHeader

inductive Text
  | empty
  | invalid (e : JsonError)
  | event (type : EventType) (code : ℤ)
  deriving DecidableEq, Repr

inductive Frame
  | close (closeCode : ℤ)
  | pong
  | binary (length : ℕ)
  | text (t : Text)
  | unknown
  deriving DecidableEq, Repr

section session
variable (E : Env)

def ignoreCallbackWhenReconnecting (n : Node) (type : EventType) (code : ℤ) : Node × Bool :=
  if E.enableReconnect then
    let n :=
      if type = .taskFailed ∧ Retriable code ∧
          (n.state = .noReconnection ∨ n.state = .newReconnectionStarting) then
        { n with reconnectedCount := n.reconnectedCount + 1, state := .willReconnect }
      else n
    if (n.state = .willReconnect ∨ n.state = .triggerReconnection) ∧
        (type = .taskFailed ∨ type = .close) then
      if n.reconnectedCount ≤ maxTryCount then (n, true)
      else ({ n with state := .noReconnection }, false)
    else (n, false)
  else (n, false)

def nodeReconnecting (n : Node) : Node :=
  if n.state = .willReconnect then
    if E.eventAdd n.adds then
      { n with
        adds := n.adds + 1
        reconnectEvent := true
        state := .triggerReconnection
        history := n.history ++ [.reconnecting] }
    else { n with adds := n.adds + 1 }
  else n

def called (n : Node) (type : EventType) (ignoreFlag : Bool) : Node :=
  { n with history := n.history ++ [if ignoreFlag then .ignored type else .called type] }

def handlerFrame (n : Node) (type : EventType) (code : ℤ) : Node × ℤ :=
  if n.workStatus = .nodeInvalid then (n, -invaildNodeStatus)
  else
    let r := ignoreCallbackWhenReconnecting E n type code
    let n := called r.1 type r.2
    if type = .close then
      let n := nodeReconnecting E n
      let n := if r.2 then n else { n with reconnectedCount := 0 }
      ({ n with retryConnectCount := 0 }, success)
    else (n, success)

def handlerEvent (n : Node) (type : EventType) (errorCode : ℤ) : Node :=
  if n.exitStatus = .exitCancel then n
  else if n.workStatus = .nodeClosed then n
  else
    let n := (handlerFrame E n type errorCode).1
    if type = .close then { n with workStatus := .nodeClosed } else n

def handlerClose (n : Node) : Node := handlerEvent E n .close closeCode

def handlerTaskFailedEvent (n : Node) (code : ℤ) : Node :=
  handlerClose E (handlerEvent E n .taskFailed code)

def convertResult (n : Node) : Frame → Node × Option (EventType × ℤ) × ℤ
  | .binary length =>
      if 0 < length then (n, some (.binary, success), success) else (n, none, -wsFrameBodyEmpty)
  | .text .empty =>
      (handlerEvent E n .taskFailed utf8ConvertError, none, -wsResponsePackageEmpty)
  | .text (.invalid e) => (handlerEvent E n .taskFailed jsonStringParseFailed, none, -e.code)
  | .text (.event type code) => (n, some (type, code), success)
  | _ => (handlerEvent E n .taskFailed unknownWsHeadType, none, -unknownWsFrameHeadType)

/-- The status an event leaves the node in, and whether it closes the session. -/
def workStatusOf (n : Node) : EventType → Node × Bool
  | .recognitionStarted | .transcriptionStarted | .synthesisStarted =>
      ({ n with
        workStatus := if E.speechWakeWordDialog then .nodeWakeWording else .nodeStarted
        state := .noReconnection }, false)
  | .close | .recognitionCompleted => ({ n with workStatus := .nodeCompleted }, !E.typeDialog)
  | .taskFailed => ({ n with workStatus := .nodeFailed }, true)
  | .transcriptionCompleted | .synthesisCompleted => ({ n with workStatus := .nodeCompleted }, true)
  | .dialogResultGenerated => (n, true)
  | .wakeWordVerificationCompleted => ({ n with workStatus := .nodeStarted }, false)
  | .binary =>
      if n.isFirstBinaryFrame then
        ({ n with isFirstBinaryFrame := false, workStatus := .nodeStarted }, false)
      else (n, false)
  | _ => (n, false)

def frameHandled (n : Node) (type : EventType) : Node :=
  let r := workStatusOf E n type
  if r.2 then handlerClose E r.1 else r.1

def frameEvent (n : Node) (event : Option (EventType × ℤ)) (result : ℤ) : Node × ℤ :=
  match event with
  | none =>
      if result = -wsFrameBodyEmpty then (n, success)
      else (if result ≠ success then handlerClose E n else n, -nlsEventEmpty)
  | some (type, code) =>
      if n.exitStatus = .exitCancel then (n, -invalidExitStatus)
      else
        let r := handlerFrame E n type code
        if r.2 ≠ success then r else (frameHandled E r.1 type, success)

def parseFrame (n : Node) : Frame → Node × ℤ
  | .close closeCode =>
      frameEvent E n (if n.workStatus ≠ .nodeClosed then some (.taskFailed, closeCode) else none)
        success
  | .pong => (n, success)
  | f =>
      let r := convertResult E n f
      frameEvent E r.1 r.2.1 r.2.2

def parseFrames (n : Node) : List Frame → Node × ℤ
  | [] => (n, success)
  | f :: fs =>
      let r := parseFrame E n f
      if r.2 ≠ success then r else parseFrames r.1 fs

/-- What a read of the socket brings: an error, or the frames that are whole by then. -/
inductive Received
  | failed
  | frames (fs : List Frame)
  deriving DecidableEq, Repr

def webSocketResponse (n : Node) : Received → Node × ℤ
  | .failed => (n, -NlsRetCode.nlsReceiveFailed.code)
  | .frames fs => parseFrames E n fs

def checkConnectCount (n : Node) : Node × Bool :=
  if n.retryConnectCount < NodeSession.retryConnectCount then
    ({ n with retryConnectCount := n.retryConnectCount + 1 }, true)
  else ({ n with retryConnectCount := 0 }, false)

/-- What a send leaves of the node, `ret` being what it returns. The first one sends the
handshake, so it never finds its buffer empty. -/
def nlsSendFrame (n : Node) (ret : ℤ) : Node :=
  if ret < 0 then n else { n with isFirstBinaryFrame := false }

def dnsProcess (n : Node) : Node :=
  if n.exitStatus = .exitCancel then n
  else
    let r := checkConnectCount n
    if r.2 then { r.1 with workStatus := .nodeConnecting }
    else handlerTaskFailedEvent E r.1 sysConnectFailed

def launchEventCallback (n : Node) : Node :=
  let n := { n with workStatus := .nodeInvoked, history := n.history ++ [.launched] }
  if n.exitStatus = .exitCancel ∨ n.exitStatus = .exitStopping then n else dnsProcess E n

/-- A read event: what `gatewayResponse` and the read return, how the send that may follow ends,
and the code of the failure. -/
structure Response where
  gateway : ℤ
  received : Received
  sent : ℤ
  code : ℤ
  deriving DecidableEq, Repr

def responded (n : Node) (r : Response) : Node × ℤ :=
  match n.workStatus with
  | .nodeHandshaking | .nodeHandshaked =>
      if r.gateway = 0 then
        (nlsSendFrame
          { n with workStatus := .nodeStarting, state := .newReconnectionStarting } r.sent, r.sent)
      else if r.gateway = -nlsReceiveEmpty then (n, success)
      else (n, r.gateway)
  | .nodeStarting | .nodeWakeWording =>
      let w := webSocketResponse E n r.received
      if w.1.workStatus = .nodeStarted ∨ w.1.workStatus = .nodeWakeWording then
        (nlsSendFrame w.1 r.sent, r.sent)
      else w
  | .nodeStarted => webSocketResponse E n r.received
  | .nodeConnecting =>
      if E.isLongConnection then webSocketResponse E n r.received else (n, -invalidWorkStatus)
  | .nodeInvalid => (n, -invalidRequest)
  | _ => (n, -invalidWorkStatus)

def nodeResponseProcess (n : Node) (r : Response) : Node :=
  let p := responded E n r
  if p.2 < 0 then
    if p.1.workStatus = .nodeClosed then p.1
    else if p.2 = -invalidRequest then p.1
    else handlerTaskFailedEvent E p.1 r.code
  else p.1

def nodeRequestProcess (n : Node) (sent code : ℤ) : Node :=
  let p : Node × ℤ :=
    match n.workStatus with
    | .nodeHandshaking => (nlsSendFrame { n with workStatus := .nodeHandshaked } sent, sent)
    | .nodeHandshaked | .nodeStarting | .nodeWakeWording | .nodeStarted =>
        (nlsSendFrame n sent, sent)
    | _ => (n, -invalidWorkStatus)
  if p.2 < 0 then handlerTaskFailedEvent E p.1 code else p.1

/-- A send from the API, with the code of its failure if it fails. Before the node is started
the audio only waits. -/
def sendEnded (n : Node) : Option ℤ → Node
  | none =>
      if n.workStatus = .nodeStarted ∨ n.workStatus = .nodeWakeWording then nlsSendFrame n success
      else n
  | some code => handlerTaskFailedEvent E n code

def sendAudio (n : Node) (failed : Option ℤ) : Node :=
  if n.workStatus ≠ .nodeStarted ∨ n.exitStatus ≠ .exitInvalid then n
  else sendEnded E n failed

/-- The audio kept is sent first, and then the stop directive if the node is started. -/
def stop (n : Node) (remain failed : Option ℤ) : Node :=
  if n.exitStatus = .exitStopping ∨ n.exitStatus = .exitCancel then n
  else if n.workStatus.value < ConnectStatus.nodeInvoking.value ∨
      ConnectStatus.nodeFailed.value ≤ n.workStatus.value then n
  else
    let n := if n.launchEvent then n else sendEnded E n remain
    let n := { n with exitStatus := .exitStopping }
    if n.workStatus = .nodeStarted then sendEnded E n failed else n

def cancel (n : Node) : Node :=
  if n.exitStatus = .exitCancel then n
  else if n.workStatus.value < ConnectStatus.nodeInvoking.value ∨
      ConnectStatus.nodeClosed.value ≤ n.workStatus.value then n
  else { n with exitStatus := .exitCancel }

inductive Event
  | launch
  | connectFailed
  | connected
  | handshaking
  | request (sent code : ℤ)
  | response (r : Response)
  | timeout (code : ℤ)
  | sendAudio (failed : Option ℤ)
  | stop (remain failed : Option ℤ)
  | cancel
  deriving DecidableEq, Repr

/-- An event of the socket finds a node that was launched, and none that was cancelled. -/
def socketEvent (n : Node) (handle : Node → Node) : Node :=
  if n.launchEvent then n else if n.exitStatus = .exitCancel then n else handle n

def step (n : Node) : Event → Node
  | .launch =>
      if n.launchEvent then launchEventCallback E { n with launchEvent := false }
      else if n.reconnectEvent then launchEventCallback E { n with reconnectEvent := false }
      else n
  | .connectFailed =>
      if n.workStatus = .nodeConnecting ∨ n.workStatus = .nodeConnected then
        dnsProcess E { n with workStatus := .nodeConnecting }
      else n
  | .connected =>
      if n.workStatus = .nodeConnecting then { n with workStatus := .nodeConnected } else n
  | .handshaking =>
      if n.workStatus = .nodeConnected ∧ n.exitStatus ≠ .exitCancel then
        { n with workStatus := .nodeHandshaking }
      else n
  | .request sent code => socketEvent n fun n => nodeRequestProcess E n sent code
  | .response r => socketEvent n fun n => nodeResponseProcess E n r
  | .timeout code => socketEvent n fun n => handlerTaskFailedEvent E n code
  | .sendAudio failed => NodeSession.sendAudio E n failed
  | .stop remain failed => NodeSession.stop E n remain failed
  | .cancel => NodeSession.cancel n

def run (n : Node) (es : List Event) : Node := es.foldl (step E) n

/-- A node whose request was started. -/
def invoked : Node where
  workStatus := .nodeInvoking
  exitStatus := .exitInvalid
  isFirstBinaryFrame := true
  retryConnectCount := 0
  state := .noReconnection
  reconnectedCount := 0
  adds := 0
  launchEvent := true
  reconnectEvent := false
  history := []

end session

end RtmpRelay.NodeSession
