import RtmpRelay.EventParsing
import RtmpRelay.Handshake
import RtmpRelay.SessionEnd

/-!
# A node on the wire

The session of a node together with its read buffer and its web socket: a read
event takes bytes off the socket, and while the node shakes hands they are the
answer of the gateway, afterwards frames. Each frame is handed to the session
as soon as it is whole. `heard` keeps the messages and the audio of the server
that reached the listener, with all they carry.
-/

namespace RtmpRelay.NodeWire

open WebSocketTcp WebSocketResponse Handshake
open NodeSession (EventType JsonError nlsReceiveEmpty invalidWorkStatus
  invalidRequest handlerTaskFailedEvent nlsSendFrame)
open AudioUpload (ConnectStatus ExitStatus)

/-- The parameters of the request, the task ids its launches draw, the JSON reader and the
conversion the output format asks for, what a fresh `wordInfo` holds, and the allocator. -/
structure Env where
  session : NodeSession.Env
  randomUuid : ℕ → Str
  reader : Str → Option Json
  convert : Str → Str
  startTime : ℤ
  endTime : ℤ
  realloc : ℕ → Bool
  unwritten : ℕ → UInt8

structure Hearing where
  session : NodeSession.Node
  taskId : Str
  heard : List NlsEvent

section frames
variable (E : Env)

def event (payload : List UInt8) : Except JsonError NlsEvent :=
  NlsEvent.parseJsonMsg false E.reader E.startTime E.endTime (E.convert payload)

def text (payload : List UInt8) : NodeSession.Text :=
  if E.convert payload = [] then .empty
  else
    match event E payload with
    | .ok e => .event e.msgType e.statusCode
    | .error x => .invalid x

def frame (type : OpCodeType) (payload : List UInt8) (closeCode : ℕ) : NodeSession.Frame :=
  if type = .close then .close closeCode
  else if type = .pong then .pong
  else if type = .binaryFrame then .binary payload.length
  else if type = .textFrame then .text (text E payload)
  else .unknown

def Reaches (n : NodeSession.Node) (e : NlsEvent) : Prop :=
  n.exitStatus ≠ .exitCancel ∧ n.workStatus ≠ .nodeInvalid ∧
    (NodeSession.ignoreCallbackWhenReconnecting E.session n e.msgType e.statusCode).2 = false

instance (n : NodeSession.Node) (e : NlsEvent) : Decidable (Reaches E n e) :=
  inferInstanceAs (Decidable (_ ∧ _ ∧ _))

/-- The event of the server in a frame: its audio, or its message if that parses. -/
def eventOf (taskId : Str) (type : OpCodeType) (payload : List UInt8) : List NlsEvent :=
  if type = .binaryFrame ∧ payload ≠ [] then [.ofData payload success .binary taskId]
  else if type = .textFrame ∧ E.convert payload ≠ [] then (event E payload).toOption.toList
  else []

def parseFrame (s : Hearing) (type : OpCodeType) (payload : List UInt8) (closeCode : ℕ) :
    Hearing × ℤ :=
  let r := NodeSession.parseFrame E.session s.session (frame E type payload closeCode)
  ({ s with
      session := r.1
      heard := s.heard ++
        (eventOf E s.taskId type payload).filter fun e => Reaches E s.session e }, r.2)

def wireEnv : WebSocketResponse.Env Hearing where
  parseFrame s frame wsFrame :=
    parseFrame E s wsFrame.type (FrameDelivery.bytes frame wsFrame) wsFrame.closeCode
  releasingFlag _ := false
  instanceGone _ := false
  checkNodeExist _ := success
  realloc := E.realloc
  unwritten := E.unwritten

end frames

/-- `readEvent` is whether the read event is pending: it is added when the handshake starts and
freed with the connection. -/
structure Wire extends Connection Hearing where
  readEvent : Bool

namespace Wire

def session (w : Wire) : NodeSession.Node := w.node.user.session

def heard (w : Wire) : List NlsEvent := w.node.user.heard

def withSession (w : Wire) (n : NodeSession.Node) : Wire :=
  { w with node := { w.node with user := { w.node.user with session := n } } }

def withTaskId (w : Wire) (taskId : Str) : Wire :=
  { w with node := { w.node with user := { w.node.user with taskId := taskId } } }

@[simp] theorem withSession_session (w : Wire) (n : NodeSession.Node) :
    (w.withSession n).session = n := rfl

@[simp] theorem withSession_heard (w : Wire) (n : NodeSession.Node) :
    (w.withSession n).heard = w.heard := rfl

@[simp] theorem withSession_http (w : Wire) (n : NodeSession.Node) :
    (w.withSession n).http = w.http := rfl

@[simp] theorem withTaskId_session (w : Wire) (taskId : Str) :
    (w.withTaskId taskId).session = w.session := rfl

@[simp] theorem withTaskId_heard (w : Wire) (taskId : Str) :
    (w.withTaskId taskId).heard = w.heard := rfl

@[simp] theorem withTaskId_http (w : Wire) (taskId : Str) :
    (w.withTaskId taskId).http = w.http := rfl

end Wire

section wire
variable (E : Env)

def gatewayResponse (w : Wire) (read : Read) : Wire × ℤ :=
  let r := Handshake.gatewayResponse (wireEnv E) w.toConnection read
  ({ w with toConnection := r.1 }, r.2)

def webSocketResponse (w : Wire) (read : Read) : Wire × ℤ :=
  let r := WebSocketResponse.webSocketResponse (wireEnv E) w.node read
  ({ w with node := r.1 }, r.2)

/-- The start command draws the task id of the launch. -/
def getStartCommand (w : Wire) : Wire :=
  w.withTaskId (E.randomUuid (w.session.history.count .launched))

/-- A read event: what the read brings, how the send that may follow ends, and the code of the
failure. -/
structure Reading where
  read : Read
  sent : ℤ
  code : ℤ

def responded (w : Wire) (r : Reading) : Wire × ℤ :=
  match w.session.workStatus with
  | .nodeHandshaking | .nodeHandshaked =>
      let g := gatewayResponse E w r.read
      if g.2 = 0 then
        ((getStartCommand E g.1).withSession (nlsSendFrame { g.1.session with
          workStatus := .nodeStarting, state := .newReconnectionStarting } r.sent), r.sent)
      else if g.2 = -nlsReceiveEmpty then (g.1, success)
      else g
  | .nodeStarting | .nodeWakeWording =>
      let g := webSocketResponse E w r.read
      if g.1.session.workStatus = .nodeStarted ∨ g.1.session.workStatus = .nodeWakeWording then
        (g.1.withSession (nlsSendFrame g.1.session r.sent), r.sent)
      else g
  | .nodeStarted => webSocketResponse E w r.read
  | .nodeConnecting =>
      if E.session.isLongConnection then webSocketResponse E w r.read else (w, -invalidWorkStatus)
  | .nodeInvalid => (w, -invalidRequest)
  | _ => (w, -invalidWorkStatus)

def nodeResponseProcess (w : Wire) (r : Reading) : Wire :=
  let p := responded E w r
  if p.2 < 0 then
    if p.1.session.workStatus = .nodeClosed then p.1
    else if p.2 = -invalidRequest then p.1
    else p.1.withSession (handlerTaskFailedEvent E.session p.1.session r.code)
  else p.1

def Other : Type := { e : NodeSession.Event // e.isResponse = false }

/-- A launch starts without a read event, and the request for the web socket adds it. -/
def readEventAfter (w : Wire) : NodeSession.Event → Bool
  | .launch => if w.session.launchEvent || w.session.reconnectEvent then false else w.readEvent
  | .handshaking =>
      if w.session.workStatus = .nodeConnected ∧ w.session.exitStatus ≠ .exitCancel then true
      else w.readEvent
  | _ => w.readEvent

inductive Event
  | read (r : Reading)
  | other (e : Other)

def step (w : Wire) : Event → Wire
  | .read r =>
      if w.readEvent = false then w
      else if w.session.launchEvent then w
      else if w.session.exitStatus = .exitCancel then w
      else nodeResponseProcess E w r
  | .other e =>
      { w.withSession (NodeSession.step E.session w.session e.val) with
        readEvent := readEventAfter w e.val }

def run (w : Wire) (es : List Event) : Wire := es.foldl (step E) w

def invoked : Wire where
  node := FrameDelivery.initial .zero ⟨NodeSession.invoked, [], []⟩
  http := Http.new
  readEvent := false

end wire

section cases
variable {E : Env}

/-- A frame with an event in it hands the session that event, and no other frame has one. -/
theorem eventOf_cases (taskId : Str) (type : OpCodeType) (payload : List UInt8) :
    eventOf E taskId type payload = [] ∨ ∃ e, eventOf E taskId type payload = [e] ∧
      ∀ n closeCode, NodeSession.parseFrame E.session n (frame E type payload closeCode) =
        NodeSession.frameEvent E.session n (some (e.msgType, e.statusCode)) success := by
  rw [eventOf]
  split
  · rename_i haudio
    refine Or.inr ⟨_, rfl, fun n closeCode => ?_⟩
    have hframe : frame E type payload closeCode = .binary payload.length := by
      rw [haudio.1]
      rfl
    have hconvert : NodeSession.convertResult E.session n (.binary payload.length) =
        (n, some (.binary, success), success) := if_pos (List.length_pos_of_ne_nil haudio.2)
    rw [hframe]
    show NodeSession.frameEvent E.session _ _ _ = _
    rw [hconvert]
    rfl
  · split
    · rename_i htext
      cases hev : event E payload with
      | error x => exact Or.inl rfl
      | ok e =>
        refine Or.inr ⟨e, rfl, fun n closeCode => ?_⟩
        have hframe : frame E type payload closeCode = .text (.event e.msgType e.statusCode) := by
          rw [htext.1, frame, text, if_neg htext.2, hev]
          rfl
        rw [hframe]
        rfl
    · exact Or.inl rfl

theorem gatewayResponse_left (w : Wire) (read : Read) :
    ∃ buffer http, (gatewayResponse E w read).1 =
      { w with node := { w.node with readEvBuffer := buffer }, http := http } := by
  rw [gatewayResponse]
  cases read with
  | failed => exact ⟨w.node.readEvBuffer, w.http, rfl⟩
  | bytes chunk =>
    cases chunk with
    | nil => exact ⟨w.node.readEvBuffer, w.http, rfl⟩
    | cons b chunk =>
      simp only [Handshake.gatewayResponse]
      split_ifs
      · exact ⟨_, _, rfl⟩
      · exact ⟨_, _, rfl⟩
      · exact ⟨_, _, rfl⟩

inductive Responded (E : Env) (w : Wire) (read : Read) (w' : Wire) : Prop
  | nothing (h : w' = w)
  | answer (hs : w.session.workStatus = .nodeHandshaking ∨ w.session.workStatus = .nodeHandshaked)
      (h : w' = (gatewayResponse E w read).1)
  | accepted
      (hs : w.session.workStatus = .nodeHandshaking ∨ w.session.workStatus = .nodeHandshaked)
      (hzero : (gatewayResponse E w read).2 = 0) (b : Bool)
      (h : w' = (getStartCommand E (gatewayResponse E w read).1).withSession
        { (gatewayResponse E w read).1.session with
          workStatus := .nodeStarting
          state := .newReconnectionStarting
          isFirstBinaryFrame := b })
  | frames
      (hs : w.session.workStatus = .nodeStarting ∨ w.session.workStatus = .nodeWakeWording ∨
        w.session.workStatus = .nodeStarted ∨ w.session.workStatus = .nodeConnecting)
      (b : Bool)
      (h : w' = (webSocketResponse E w read).1.withSession
        { (webSocketResponse E w read).1.session with isFirstBinaryFrame := b })

theorem responded_shaking {w : Wire}
    (hs : w.session.workStatus = .nodeHandshaking ∨ w.session.workStatus = .nodeHandshaked)
    (r : Reading) : responded E w r =
      if (gatewayResponse E w r.read).2 = 0 then
        ((getStartCommand E (gatewayResponse E w r.read).1).withSession (nlsSendFrame
          { (gatewayResponse E w r.read).1.session with
            workStatus := .nodeStarting, state := .newReconnectionStarting } r.sent), r.sent)
      else if (gatewayResponse E w r.read).2 = -nlsReceiveEmpty then
        ((gatewayResponse E w r.read).1, success)
      else gatewayResponse E w r.read := by
  rcases hs with hs | hs
  · rw [responded, hs]
  · rw [responded, hs]

theorem responded_starting {w : Wire}
    (hs : w.session.workStatus = .nodeStarting ∨ w.session.workStatus = .nodeWakeWording)
    (r : Reading) : responded E w r =
      if (webSocketResponse E w r.read).1.session.workStatus = .nodeStarted ∨
          (webSocketResponse E w r.read).1.session.workStatus = .nodeWakeWording then
        ((webSocketResponse E w r.read).1.withSession
          (nlsSendFrame (webSocketResponse E w r.read).1.session r.sent), r.sent)
      else webSocketResponse E w r.read := by
  rcases hs with hs | hs
  · rw [responded, hs]
  · rw [responded, hs]

theorem responded_frames (w : Wire) (r : Reading)
    (hs : w.session.workStatus = .nodeStarting ∨ w.session.workStatus = .nodeWakeWording ∨
      w.session.workStatus = .nodeStarted ∨ w.session.workStatus = .nodeConnecting) :
    Responded E w r.read (webSocketResponse E w r.read).1 ∧
      Responded E w r.read ((webSocketResponse E w r.read).1.withSession
        (nlsSendFrame (webSocketResponse E w r.read).1.session r.sent)) := by
  obtain ⟨b, hb⟩ :=
    NodeSession.nlsSendFrame_spec (webSocketResponse E w r.read).1.session r.sent
  exact ⟨.frames hs (webSocketResponse E w r.read).1.session.isFirstBinaryFrame rfl,
    .frames hs b (congrArg (webSocketResponse E w r.read).1.withSession hb)⟩

theorem responded_gateway (w : Wire) (r : Reading)
    (hs : w.session.workStatus = .nodeHandshaking ∨ w.session.workStatus = .nodeHandshaked) :
    Responded E w r.read (responded E w r).1 := by
  obtain ⟨b, hb⟩ := NodeSession.nlsSendFrame_spec
    { (gatewayResponse E w r.read).1.session with
      workStatus := .nodeStarting, state := .newReconnectionStarting } r.sent
  rw [responded_shaking hs]
  split
  · rename_i hzero
    exact .accepted hs hzero b
      (congrArg (getStartCommand E (gatewayResponse E w r.read).1).withSession hb)
  · split
    · exact .answer hs rfl
    · exact .answer hs rfl

theorem responded_started (w : Wire) (r : Reading)
    (hs : w.session.workStatus = .nodeStarting ∨ w.session.workStatus = .nodeWakeWording) :
    Responded E w r.read (responded E w r).1 := by
  have hframes := responded_frames (E := E) w r
    (hs.imp id fun hs => Or.inl hs)
  rw [responded_starting hs]
  split
  · exact hframes.2
  · exact hframes.1

theorem responded_cases (w : Wire) (r : Reading) : Responded E w r.read (responded E w r).1 := by
  cases hs : w.session.workStatus with
  | nodeHandshaking => exact responded_gateway w r (Or.inl hs)
  | nodeHandshaked => exact responded_gateway w r (Or.inr hs)
  | nodeStarting => exact responded_started w r (Or.inl hs)
  | nodeWakeWording => exact responded_started w r (Or.inr hs)
  | nodeStarted =>
    rw [responded, hs]
    exact (responded_frames w r (Or.inr (Or.inr (Or.inl hs)))).1
  | nodeConnecting =>
    rw [responded, hs]
    dsimp only
    split
    · exact (responded_frames w r (Or.inr (Or.inr (Or.inr hs)))).1
    · exact .nothing rfl
  | _ =>
    rw [responded, hs]
    exact .nothing rfl

theorem nodeResponseProcess_cases (w : Wire) (r : Reading) :
    nodeResponseProcess E w r = (responded E w r).1 ∨
      nodeResponseProcess E w r = (responded E w r).1.withSession
        (handlerTaskFailedEvent E.session (responded E w r).1.session r.code) := by
  rw [nodeResponseProcess]
  split
  · split
    · exact Or.inl rfl
    · split
      · exact Or.inl rfl
      · exact Or.inr rfl
  · exact Or.inl rfl

theorem step_read_cases (w : Wire) (r : Reading) :
    step E w (.read r) = w ∨
      w.readEvent = true ∧ w.session.launchEvent = false ∧
        step E w (.read r) = nodeResponseProcess E w r := by
  rw [step]
  split
  · exact Or.inl rfl
  · rename_i hr
    split
    · exact Or.inl rfl
    · rename_i hl
      split
      · exact Or.inl rfl
      · exact Or.inr ⟨Bool.eq_true_of_not_eq_false hr, Bool.eq_false_iff.mpr hl, rfl⟩

end cases

def transcriber : Env where
  session := NodeSession.transcriber
  randomUuid _ := []
  reader _ := some NlsEvent.sampleRoot
  convert := id
  startTime := 0
  endTime := 0
  realloc _ := true
  unwritten _ := 0

def other (e : NodeSession.Event) (he : e.isResponse = false) : Event := .other ⟨e, he⟩

def answered (answer : String) (code : ℤ) : List Event :=
  [other .launch rfl, other .connected rfl, other .handshaking rfl, other (.request 0 0) rfl,
    .read ⟨.bytes (Json.ascii answer), 0, code⟩]

def switching : List Event := answered "HTTP/1.1 101 Switching Protocols\r\n\r\n" 0

end RtmpRelay.NodeWire
