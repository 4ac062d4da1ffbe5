import RtmpRelay.NodeSession
import RtmpRelay.HitDict
import Mathlib.Data.Rat.Cast.Defs

/-!
# Events of the server

A text frame of the server is a JSON message. `parseJsonMsg` reads an event out
of it: the name, the status and the task from the header, the sentence and its
words from the payload. What the message does not give stays as it was, and one
`wordInfo` serves all the words, so a word that does not say its time has the
time of the word before it. The listener hands the user a copy of the event,
which leaves some of its fields behind.
-/

namespace RtmpRelay

open NodeSession (EventType JsonError)

/-- A value as the reader leaves it; a number is the double it reads as. -/
inductive Json
  | null
  | bool (b : Bool)
  | number (q : ℚ)
  | string (s : Str)
  | array (xs : List Json)
  | object (members : List (Str × Json))

namespace Json

def ascii (s : String) : Str := s.toList.map fun c => UInt8.ofNat c.toNat

/-- What `operator[]` and `isMember` look into; on the rest they throw. -/
def members? : Json → Option (List (Str × Json))
  | .null => some []
  | .object ms => some ms
  | _ => none

def member (ms : List (Str × Json)) (key : String) : Json := (ms.lookup (ascii key)).getD .null

def isNull : Json → Bool
  | .null => true
  | _ => false

-- A text ends at its first NUL when it is taken as a `const char*`.
def asCString : Json → Option Str
  | .string s => some (s.takeWhile fun b => b != 0)
  | _ => none

def asInt : Json → Option ℤ
  | .number q => if q.den = 1 ∧ -2 ^ 31 ≤ q.num ∧ q.num < 2 ^ 31 then some q.num else none
  | _ => none

def asDouble : Json → Option ℚ
  | .number q => some q
  | _ => none

def asBool : Json → Option Bool
  | .bool b => some b
  | _ => none

/-- A field the message may give: `old` if it does not, or gives another type. -/
def field {α : Type*} (as : Json → Option α) (ms : List (Str × Json)) (key : String)
    (old : α) : α :=
  (as (member ms key)).getD old

end Json

open Json

structure StashResult where
  sentenceId : ℤ
  beginTime : ℤ
  text : Str
  currentTime : ℤ
  deriving DecidableEq, Repr

structure WakeWord where
  accepted : Bool
  known : Bool
  userId : Str
  gender : ℤ
  deriving DecidableEq, Repr

structure NlsEvent where
  statusCode : ℤ
  msgType : EventType
  taskId : Str
  result : Str
  displayText : Str
  spokenText : Str
  sentenceTimeOutStatus : ℤ
  sentenceIndex : ℤ
  sentenceTime : ℤ
  sentenceBeginTime : ℤ
  sentenceConfidence : ℚ
  sentenceWordsList : List WordInfomation
  wakeWord : WakeWord
  binaryData : List UInt8
  stashResult : StashResult
  deriving DecidableEq

namespace NlsEvent

def noStash : StashResult := ⟨0, 0, [], 0⟩

def noWakeWord : WakeWord := ⟨false, false, [], 0⟩

def ofCode (code : ℤ) (type : EventType) (taskId : Str) : NlsEvent where
  statusCode := code
  msgType := type
  taskId := taskId
  result := []
  displayText := []
  spokenText := []
  sentenceTimeOutStatus := 0
  sentenceIndex := 0
  sentenceTime := 0
  sentenceBeginTime := 0
  sentenceConfidence := 0
  sentenceWordsList := []
  wakeWord := noWakeWord
  binaryData := []
  stashResult := noStash

def ofData (data : List UInt8) (code : ℤ) (type : EventType) (taskId : Str) : NlsEvent :=
  { ofCode code type taskId with binaryData := data }

def ofMsg : NlsEvent := ofCode WebSocketTcp.success .message []

/-- The copy constructor. -/
def copy (e : NlsEvent) : NlsEvent :=
  { e with displayText := [], spokenText := [], wakeWord := noWakeWord }

def msgTypes : List (Str × EventType) :=
  [(ascii "TaskFailed", .taskFailed),
    (ascii "RecognitionStarted", .recognitionStarted),
    (ascii "RecognitionCompleted", .recognitionCompleted),
    (ascii "RecognitionResultChanged", .recognitionResultChanged),
    (ascii "TranscriptionStarted", .transcriptionStarted),
    (ascii "SentenceBegin", .sentenceBegin),
    (ascii "TranscriptionResultChanged", .transcriptionResultChanged),
    (ascii "SentenceEnd", .sentenceEnd),
    (ascii "TranscriptionCompleted", .transcriptionCompleted),
    (ascii "SynthesisStarted", .synthesisStarted),
    (ascii "SynthesisCompleted", .synthesisCompleted),
    (ascii "DialogResultGenerated", .dialogResultGenerated),
    (ascii "WakeWordVerificationCompleted", .wakeWordVerificationCompleted),
    (ascii "SentenceSemantics", .sentenceSemantics),
    (ascii "MetaInfo", .metaInfo),
    (ascii "SentenceSynthesis", .sentenceSynthesis)]

def parseMsgType (name : Str) : Option EventType := msgTypes.lookup name

section parse
variable (ignore : Bool)

def parseName (head : List (Str × Json)) (e : NlsEvent) : Except JsonError NlsEvent :=
  match asCString (member head "name") with
  | none => .ok e
  | some name =>
    match parseMsgType name with
    | some type => .ok { e with msgType := type }
    | none => if ignore then .ok e else .error .invalidNlsEventMsgType

def parseStatus (head : List (Str × Json)) (e : NlsEvent) : Except JsonError NlsEvent :=
  match asInt (member head "status") with
  | some code => .ok { e with statusCode := code }
  | none => if ignore then .ok e else .error .invalidNlsEventMsgStatusCode

def parseTaskId (head : List (Str × Json)) (e : NlsEvent) : NlsEvent :=
  { e with taskId := field asCString head "task_id" e.taskId }

def parseHead (root : List (Str × Json)) (e : NlsEvent) : Except JsonError NlsEvent :=
  match member root "header" with
  | .object head => do
    let e ← parseName ignore head e
    let e ← parseStatus ignore head e
    return parseTaskId head e
  | _ =>
    if (member root "channelClosed").isNull = false then .ok { e with msgType := .close }
    else if (member root "TaskFailed").isNull = false then .ok { e with msgType := .taskFailed }
    else if ignore then .ok e
    else .error .invalidNlsEventMsgHeader

def parseWord (ms : List (Str × Json)) (wordInfo : WordInfomation) : WordInfomation where
  text := field asCString ms "text" wordInfo.text
  startTime := field asInt ms "startTime" wordInfo.startTime
  endTime := field asInt ms "endTime" wordInfo.endTime

/-- The loop over the word array; `none` is an element that is neither an object nor null. -/
def parseWords (wordInfo : WordInfomation) : List Json → Option (List WordInfomation)
  | [] => some []
  | word :: words =>
    match word.members? with
    | none => none
    | some ms =>
      (parseWords (parseWord ms wordInfo) words).map fun list => parseWord ms wordInfo :: list

def parseWakeWord (payload : List (Str × Json)) (w : WakeWord) : WakeWord where
  accepted := field asBool payload "accepted" w.accepted
  known := field asBool payload "known" w.known
  userId := field asCString payload "user_id" w.userId
  gender := field asInt payload "gender" w.gender

def parseStash (stash : List (Str × Json)) (s : StashResult) : StashResult where
  sentenceId := field asInt stash "sentenceId" s.sentenceId
  beginTime := field asInt stash "beginTime" s.beginTime
  text := field asCString stash "text" s.text
  currentTime := field asInt stash "currentTime" s.currentTime

def parseSentence (payload : List (Str × Json)) (e : NlsEvent) : NlsEvent :=
  { e with
    result := field asCString payload "result" e.result
    sentenceIndex := field asInt payload "index" e.sentenceIndex
    sentenceTime := field asInt payload "time" e.sentenceTime
    sentenceBeginTime := field asInt payload "begin_time" e.sentenceBeginTime
    sentenceConfidence := field asDouble payload "confidence" e.sentenceConfidence
    displayText := field asCString payload "display_text" e.displayText
    spokenText := field asCString payload "spoken_text" e.spokenText
    sentenceTimeOutStatus := field asInt payload "status" e.sentenceTimeOutStatus }

/-- `wordInfo` is the declared one: an empty text and two `int` that nothing has set yet. -/
def parseWordArray (wordInfo : WordInfomation) (payload : List (Str × Json)) (e : NlsEvent) :
    Except JsonError NlsEvent :=
  match member payload "words" with
  | .array words =>
    match parseWords wordInfo words with
    | none => .error .jsonParseFailed
    | some list => .ok { e with sentenceWordsList := e.sentenceWordsList ++ list }
  | _ => .ok e

def parseTyped (payload : List (Str × Json)) (e : NlsEvent) : NlsEvent :=
  if e.msgType = .wakeWordVerificationCompleted then
    { e with wakeWord := parseWakeWord payload e.wakeWord }
  else if e.msgType = .sentenceEnd then
    match member payload "stash_result" with
    | .object stash => { e with stashResult := parseStash stash e.stashResult }
    | _ => e
  else e

def parsePayload (wordInfo : WordInfomation) (root : List (Str × Json)) (e : NlsEvent) :
    Except JsonError NlsEvent :=
  if e.msgType ≠ .synthesisCompleted ∧ e.msgType ≠ .metaInfo then
    match member root "payload" with
    | .object payload => do
      let e ← parseWordArray wordInfo payload (parseSentence payload e)
      return parseTyped payload e
    | _ => .ok e
  else .ok e

/-- `startTime` and `endTime` are what the two `int` of a fresh `wordInfo` hold, and `reader` is
`Json::Reader`, `none` where it refuses or throws. -/
def parseJsonMsg (reader : Str → Option Json) (startTime endTime : ℤ) (msg : Str) :
    Except JsonError NlsEvent :=
  if msg = [] then .error .nlsEventMsgEmpty
  else
    match (reader msg).bind members? with
    | none => .error .jsonParseFailed
    | some root => do
      let e ← parseHead ignore root ofMsg
      parsePayload ⟨[], startTime, endTime⟩ root e

end parse

end NlsEvent

inductive SpeechTranscriberCallback
  | onTaskFailed
  | onTranscriptionStarted
  | onSentenceBegin
  | onTranscriptionResultChanged
  | onSentenceEnd
  | onTranscriptionCompleted
  | onChannelClosed
  | onSentenceSemantics
  | onMessage
  deriving DecidableEq, Repr

namespace SpeechTranscriberListener

def callback : EventType → SpeechTranscriberCallback
  | .transcriptionStarted => .onTranscriptionStarted
  | .sentenceBegin => .onSentenceBegin
  | .transcriptionResultChanged => .onTranscriptionResultChanged
  | .sentenceEnd => .onSentenceEnd
  | .sentenceSemantics => .onSentenceSemantics
  | .transcriptionCompleted => .onTranscriptionCompleted
  | .message => .onMessage
  | .close => .onChannelClosed
  | _ => .onTaskFailed

/-- The listener takes the event by value; `set` says which callbacks the user has given. -/
def handlerFrame (set : SpeechTranscriberCallback → Bool) (e : NlsEvent) :
    Option (SpeechTranscriberCallback × NlsEvent) :=
  if set (callback e.msgType) then some (callback e.msgType, e.copy) else none

end SpeechTranscriberListener

end RtmpRelay
