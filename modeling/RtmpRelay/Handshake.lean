import RtmpRelay.Arguments
import RtmpRelay.FrameDelivery
import RtmpRelay.HitDict
import RtmpRelay.NlsEvent

/-!
# The handshake of a connection

The gateway answers the request for the web socket with an HTTP header. What
has arrived so far is looked at as a C string until it holds a blank line; the
status found then is kept for the life of the node, so it also judges the
answers of every later connection. A whole answer empties the read buffer, with
whatever came behind it.
-/

namespace RtmpRelay.Handshake

open WebSocketTcp WebSocketResponse Chunked Media Occurrences
open Json (ascii)
open NodeSession (nlsReceiveEmpty)

def httpGotBadStatus : ℤ := 351
def wsResponsePackageFailed : ℤ := 352

def httpStatusCode : Str := ascii "HTTP/1.1 "
def httpStatusCodeEnd : Str := ascii " "
def httpHeaderEndString : Str := ascii "\r\n\r\n"
def httpContentLength : Str := ascii "Content-Length: "
def httpContentLengthEnd : Str := ascii "\r\n"

def cString (content : List UInt8) : Str := content.takeWhile fun b => b != 0

def atoi (s : Str) : ℤ := narrowInt (Arguments.strtol (s.map fun b => Char.ofNat b.toNat))

/-- `size_t`, so the position of what is not found and the lengths counted from it wrap. -/
def getTargetLen (line begin_ end_ : Str) : ℤ :=
  let seek : ℕ := ((findFrom line begin_ 0).getD (2 ^ 64 - 1) + begin_.length) % 2 ^ 64
  match findFrom line end_ seek with
  | none => 0
  | some position =>
    let count : ℕ := (((position : ℤ) - begin_.length) % 2 ^ 64).toNat
    atoi ((line.drop seek).take count)

structure Http where
  httpCode : ℕ
  httpLength : ℕ
  errorMsg : Str
  deriving DecidableEq, Repr

namespace Http

def new : Http := ⟨0, 0, []⟩

def toSize (n : ℤ) : ℕ := (n % 2 ^ 64).toNat

/-- The answer was refused: note its text, or what stands behind its header. -/
def refused (ws : Http) (line : Str) (length : ℕ) : Http :=
  let ws :=
    if ws.httpLength = 0 then
      { ws with httpLength := toSize (getTargetLen line httpContentLength httpContentLengthEnd) }
    else ws
  match findFrom line httpHeaderEndString 0 with
  | none => ws
  | some position =>
    let behind := position + httpHeaderEndString.length
    if ws.httpLength = 0 then { ws with errorMsg := line }
    else if ws.httpLength = toSize (length - behind) then { ws with errorMsg := line.drop behind }
    else ws

def responsePackage (ws : Http) (content : List UInt8) (length : ℕ) : Http × ℤ :=
  let line := cString content
  if findFrom line httpHeaderEndString 0 = none then (ws, length)
  else
    let ws :=
      if ws.httpCode = 0 then
        { ws with httpCode := toSize (getTargetLen line httpStatusCode httpStatusCodeEnd) }
      else ws
    if ws.httpCode = 0 then (ws, -httpGotBadStatus)
    else if ws.httpCode = 101 then (ws, 0)
    else (refused ws line length, -wsResponsePackageFailed)

end Http

structure Connection (σ : Type*) where
  node : Node σ
  http : Http

section answer
variable {σ : Type*} (E : Env σ)

/-- What the node looks at: the bytes so far, and behind them zeros or fresh memory. -/
def content (buffer chunk : List UInt8) : List UInt8 :=
  let frame := chunk ++ List.replicate (readBufferSize - chunk.length) 0
  copyout buffer
    (if readBufferSize < buffer.length then resize E frame (buffer.length + 1) else frame)

def gatewayResponse (n : Connection σ) : Read → Connection σ × ℤ
  | .failed => (n, -NlsRetCode.nlsReceiveFailed.code)
  | .bytes [] => (n, -nlsReceiveEmpty)
  | .bytes chunk =>
    let buffer := n.node.readEvBuffer ++ chunk
    let n := { n with node := { n.node with readEvBuffer := buffer } }
    if readBufferSize < buffer.length ∧ E.realloc (buffer.length + 1) = false then
      (n, -NlsRetCode.reallocFailed.code)
    else
      let r := n.http.responsePackage (content E buffer chunk) buffer.length
      if r.2 = 0 then ({ node := { n.node with readEvBuffer := [] }, http := r.1 }, 0)
      else ({ n with http := r.1 }, r.2)

end answer

end RtmpRelay.Handshake
