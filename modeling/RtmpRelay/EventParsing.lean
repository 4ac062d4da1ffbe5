import RtmpRelay.NlsEvent
import Mathlib.Data.List.TakeWhile

/-!
# What the parser makes of a message

Word by word the list of a sentence holds what was given last: a text and two
times that a word does not give are those of the nearest word before it that
gave them. Whatever the message, the event its members tell is the event that
is read, and the user's copy of it is the event itself exactly if it has no
display text, no spoken text and no wake word.
-/

namespace RtmpRelay.NlsEvent

open NodeSession (EventType JsonError)
open Json

section words
variable {wordInfo : WordInfomation}

def given {α : Type*} (as : Json → Option α) (key : String) (word : Json) : Option α :=
  as (member (word.members?.getD []) key)

def lastGiven {α : Type*} (as : Json → Option α) (key : String) (old : α) (words : List Json) : α :=
  (words.filterMap (given as key)).getLastD old

/-- The last text and the last times that the words give. -/
def carried (wordInfo : WordInfomation) (words : List Json) : WordInfomation where
  text := lastGiven asCString "text" wordInfo.text words
  startTime := lastGiven asInt "startTime" wordInfo.startTime words
  endTime := lastGiven asInt "endTime" wordInfo.endTime words

theorem lastGiven_cons {α : Type*} (as : Json → Option α) (key : String) (old : α) {word : Json}
    {ms : List (Str × Json)} (hms : word.members? = some ms) (words : List Json) :
    lastGiven as key old (word :: words) = lastGiven as key (field as ms key old) words := by
  have hgiven : given as key word = as (member ms key) := by rw [given, hms, Option.getD_some]
  rw [lastGiven, lastGiven, field, ← hgiven]
  cases hw : given as key word with
  | none => rw [List.filterMap_cons_none hw, Option.getD_none]
  | some a => rw [List.filterMap_cons_some hw, Option.getD_some, List.getLastD_cons]

theorem carried_cons {word : Json} {ms : List (Str × Json)} (hms : word.members? = some ms)
    (words : List Json) :
    carried wordInfo (word :: words) = carried (parseWord ms wordInfo) words := by
  rw [carried, lastGiven_cons asCString "text" wordInfo.text hms,
    lastGiven_cons asInt "startTime" wordInfo.startTime hms,
    lastGiven_cons asInt "endTime" wordInfo.endTime hms]
  rfl

theorem parseWords_eq_some {words : List Json} {list : List WordInfomation} :
    parseWords wordInfo words = some list ↔
      (∀ word ∈ words, word.members?.isSome) ∧
        list = (List.range words.length).map fun i => carried wordInfo (words.take (i + 1)) := by
  induction words generalizing wordInfo list with
  | nil =>
    rw [parseWords, Option.some.injEq]
    constructor
    · intro h
      exact ⟨List.forall_mem_nil _, h.symm⟩
    · intro h
      exact h.2.symm
  | cons word words ih =>
    rw [parseWords]
    cases hms : word.members? with
    | none =>
      constructor
      · intro h
        cases h
      · intro h
        have hword := h.1 word List.mem_cons_self
        rw [hms] at hword
        cases hword
    | some ms =>
      have hone : parseWord ms wordInfo = carried wordInfo [word] := (carried_cons hms []).symm
      have hlist : ((List.range (word :: words).length).map fun i =>
          carried wordInfo ((word :: words).take (i + 1))) =
          parseWord ms wordInfo :: (List.range words.length).map fun i =>
            carried (parseWord ms wordInfo) (words.take (i + 1)) := by
        rw [List.length_cons, List.range_succ_eq_map, List.map_cons, List.map_map, hone]
        congr 1
        apply List.map_congr_left
        intro i _
        rw [← hone]
        exact carried_cons hms _
      rw [hlist, List.forall_mem_cons, hms, Option.map_eq_some_iff]
      constructor
      · intro h
        obtain ⟨rest, hrest, rfl⟩ := h
        obtain ⟨hwords, hlist⟩ := ih.mp hrest
        exact ⟨⟨rfl, hwords⟩, by rw [hlist]⟩
      · intro h
        exact ⟨_, ih.mpr ⟨h.1.2, rfl⟩, h.2.symm⟩

end words

section message
variable {ignore : Bool} {reader : Str → Option Json} {startTime endTime : ℤ} {msg : Str}
  {e : NlsEvent}

def sentWords (root : Json) : List Json :=
  match member (root.members?.getD []) "payload" with
  | .object payload =>
    match member payload "words" with
    | .array words => words
    | _ => []
  | _ => []

theorem parseJsonMsg_ok (h : parseJsonMsg ignore reader startTime endTime msg = .ok e) :
    ∃ root ms e', msg ≠ [] ∧ reader msg = some root ∧ root.members? = some ms ∧
      parseHead ignore ms ofMsg = .ok e' ∧ parsePayload ⟨[], startTime, endTime⟩ ms e' = .ok e := by
  rw [parseJsonMsg] at h
  by_cases hmsg : msg = []
  · rw [if_pos hmsg] at h
    cases h
  · rw [if_neg hmsg] at h
    cases hr : (reader msg).bind members? with
    | none =>
      rw [hr] at h
      cases h
    | some ms =>
      rw [hr] at h
      obtain ⟨root, hroot, hms⟩ := Option.bind_eq_some_iff.mp hr
      cases hhead : parseHead ignore ms ofMsg with
      | error x =>
        simp only [hhead] at h
        cases h
      | ok e' =>
        simp only [hhead] at h
        exact ⟨root, ms, e', hmsg, hroot, hms, hhead, h⟩

theorem parseName_ok {head : List (Str × Json)} {e' : NlsEvent}
    (h : parseName ignore head e = .ok e') : ∃ type, e' = { e with msgType := type } := by
  rw [parseName] at h
  cases hname : asCString (member head "name") with
  | none =>
    rw [hname] at h
    cases h
    exact ⟨e.msgType, rfl⟩
  | some name =>
    simp only [hname] at h
    cases htype : parseMsgType name with
    | some type =>
      simp only [htype] at h
      cases h
      exact ⟨type, rfl⟩
    | none =>
      simp only [htype] at h
      split at h
      · cases h
        exact ⟨e.msgType, rfl⟩
      · cases h

theorem parseStatus_ok {head : List (Str × Json)} {e' : NlsEvent}
    (h : parseStatus ignore head e = .ok e') : ∃ code, e' = { e with statusCode := code } := by
  rw [parseStatus] at h
  cases hstatus : asInt (member head "status") with
  | some code =>
    simp only [hstatus] at h
    cases h
    exact ⟨code, rfl⟩
  | none =>
    simp only [hstatus] at h
    split at h
    · cases h
      exact ⟨e.statusCode, rfl⟩
    · cases h

theorem parseHead_ok {root : List (Str × Json)} (h : parseHead ignore root ofMsg = .ok e) :
    ∃ code type taskId, e = ofCode code type taskId := by
  rw [parseHead] at h
  split at h
  · rename_i head _
    cases hname : parseName ignore head ofMsg with
    | error x =>
      rw [hname] at h
      cases h
    | ok e₁ =>
      obtain ⟨type, rfl⟩ := parseName_ok hname
      rw [hname] at h
      cases hstatus : parseStatus ignore head { ofMsg with msgType := type } with
      | error x =>
        simp only [bind, Except.bind, hstatus] at h
        cases h
      | ok e₂ =>
        obtain ⟨code, rfl⟩ := parseStatus_ok hstatus
        simp only [bind, Except.bind, hstatus] at h
        cases h
        exact ⟨code, type, field asCString head "task_id" [], rfl⟩
  · split at h
    · cases h
      exact ⟨_, _, _, rfl⟩
    · split at h
      · cases h
        exact ⟨_, _, _, rfl⟩
      · split at h
        · cases h
          exact ⟨_, _, _, rfl⟩
        · cases h

@[simp] theorem parseTyped_words (payload : List (Str × Json)) :
    (parseTyped payload e).sentenceWordsList = e.sentenceWordsList := by
  rw [parseTyped]
  split
  · rfl
  · split
    · split
      · rfl
      · rfl
    · rfl

/-- Word by word, the list holds what the message gave last. -/
theorem words_of_message (h : parseJsonMsg ignore reader startTime endTime msg = .ok e)
    {root : Json} (hroot : reader msg = some root)
    (htype : e.msgType ≠ .synthesisCompleted ∧ e.msgType ≠ .metaInfo) :
    (∀ word ∈ sentWords root, word.members?.isSome) ∧
      e.sentenceWordsList = (List.range (sentWords root).length).map fun i =>
        carried ⟨[], startTime, endTime⟩ ((sentWords root).take (i + 1)) := by
  obtain ⟨root', ms, e', -, hroot', hms, hhead, hpayload⟩ := parseJsonMsg_ok h
  rw [hroot] at hroot'
  cases hroot'
  obtain ⟨code, type, taskId, rfl⟩ := parseHead_ok hhead
  rw [parsePayload] at hpayload
  rw [sentWords, hms, Option.getD_some]
  split at hpayload
  · cases hp : member ms "payload" with
    | object payload =>
      simp only [hp, parseWordArray] at hpayload ⊢
      cases hw : member payload "words" with
      | array words =>
        simp only [hw] at hpayload ⊢
        cases hlist : parseWords ⟨[], startTime, endTime⟩ words with
        | none =>
          simp only [hlist] at hpayload
          cases hpayload
        | some list =>
          simp only [hlist] at hpayload
          cases hpayload
          rw [parseTyped_words]
          exact parseWords_eq_some.mp hlist
      | _ =>
        simp only [hw] at hpayload ⊢
        cases hpayload
        rw [parseTyped_words]
        exact ⟨List.forall_mem_nil _, rfl⟩
    | _ =>
      simp only [hp] at hpayload ⊢
      cases hpayload
      exact ⟨List.forall_mem_nil _, rfl⟩
  · rename_i hno
    cases hpayload
    exact absurd htype hno

def sampleRoot : Json :=
  .object [
    (ascii "header", .object [(ascii "name", .string (ascii "SentenceEnd")),
      (ascii "status", .number 20000000)]),
    (ascii "payload", .object [(ascii "words", .array [
      .object [(ascii "text", .string (ascii "ab")), (ascii "startTime", .number 810),
        (ascii "endTime", .number 2460)],
      .object [(ascii "text", .string (ascii "c"))]])])]

def sampleEvent : NlsEvent :=
  { ofCode 20000000 .sentenceEnd [] with
    sentenceWordsList := [⟨ascii "ab", 810, 2460⟩, ⟨ascii "c", 810, 2460⟩] }

theorem words_of_message_sample :
    (∀ word ∈ sentWords sampleRoot, word.members?.isSome) ∧
      sampleEvent.sentenceWordsList = (List.range (sentWords sampleRoot).length).map fun i =>
        carried ⟨[], 7, 7⟩ ((sentWords sampleRoot).take (i + 1)) := by
  have hparse : parseJsonMsg false (fun _ => some sampleRoot) 7 7 [0] = .ok sampleEvent := rfl
  exact words_of_message hparse rfl (by decide)

end message

/-! What a message tells, member by member. -/

section tells

/-- A kind of value: how it stands in a message, and which values the parser keeps whole. -/
structure Kind (α : Type*) where
  json : α → Json
  Fits : α → Prop

namespace Kind

/-- A text without NUL. -/
def text : Kind Str := ⟨.string, fun s => 0 ∉ s⟩

def int : Kind ℤ := ⟨fun n => .number n, fun n => -2 ^ 31 ≤ n ∧ n < 2 ^ 31⟩

def double : Kind ℚ := ⟨.number, fun _ => True⟩

def bool : Kind Bool := ⟨.bool, fun _ => True⟩

structure Reads {α : Type*} (k : Kind α) (as : Json → Option α) : Prop where
  json : ∀ a, k.Fits a → as (k.json a) = some a
  other : ∀ j, (∀ a, j ≠ k.json a) → as j = none

theorem text_reads : text.Reads asCString where
  json s hs := by
    show some (s.takeWhile fun b => b != 0) = some s
    rw [List.takeWhile_eq_self_iff.mpr]
    intro b hb
    rw [bne_iff_ne]
    intro hzero
    exact hs (hzero ▸ hb)
  other j hj := by
    cases j with
    | string s => exact absurd rfl (hj s)
    | _ => rfl

theorem int_reads : int.Reads asInt where
  json n hn := by
    show asInt (.number n) = some n
    rw [asInt, Rat.den_intCast, Rat.num_intCast, if_pos ⟨rfl, hn⟩]
  other j hj := by
    cases j with
    | number q =>
      have hden : q.den ≠ 1 := by
        intro h
        exact hj q.num (congrArg Json.number (Rat.coe_int_num_of_den_eq_one h).symm)
      rw [asInt, if_neg fun h => hden h.1]
    | _ => rfl

theorem double_reads : double.Reads asDouble where
  json _ _ := rfl
  other j hj := by
    cases j with
    | number q => exact absurd rfl (hj q)
    | _ => rfl

theorem bool_reads : bool.Reads asBool where
  json _ _ := rfl
  other j hj := by
    cases j with
    | bool b => exact absurd rfl (hj b)
    | _ => rfl

end Kind

/-- The member gives the value, or it is left out or of another kind and `old` stays. -/
inductive Tells {α : Type*} (k : Kind α) (ms : List (Str × Json)) (key : String) (old : α) :
    α → Prop
  | given {a : α} (h : member ms key = k.json a) (fits : k.Fits a) : Tells k ms key old a
  | leftOut (h : ∀ a, member ms key ≠ k.json a) : Tells k ms key old old

structure TellsHeader (head : List (Str × Json)) (e : NlsEvent) : Prop where
  name : ∃ name, member head "name" = .string name ∧ (name, e.msgType) ∈ msgTypes
  status : member head "status" = Kind.int.json e.statusCode ∧ Kind.int.Fits e.statusCode
  taskId : Tells .text head "task_id" [] e.taskId

structure TellsWord (ms : List (Str × Json)) (before w : WordInfomation) : Prop where
  text : Tells .text ms "text" before.text w.text
  startTime : Tells .int ms "startTime" before.startTime w.startTime
  endTime : Tells .int ms "endTime" before.endTime w.endTime

inductive TellsWords : WordInfomation → List Json → List WordInfomation → Prop
  | nil {before : WordInfomation} : TellsWords before [] []
  | cons {before w : WordInfomation} {ms : List (Str × Json)} {words : List Json}
      {list : List WordInfomation} (h : TellsWord ms before w) (rest : TellsWords w words list) :
      TellsWords before (.object ms :: words) (w :: list)

structure TellsWakeWord (payload : List (Str × Json)) (w : WakeWord) : Prop where
  accepted : Tells .bool payload "accepted" false w.accepted
  known : Tells .bool payload "known" false w.known
  userId : Tells .text payload "user_id" [] w.userId
  gender : Tells .int payload "gender" 0 w.gender

structure TellsStash (stash : List (Str × Json)) (s : StashResult) : Prop where
  sentenceId : Tells .int stash "sentenceId" 0 s.sentenceId
  beginTime : Tells .int stash "beginTime" 0 s.beginTime
  text : Tells .text stash "text" [] s.text
  currentTime : Tells .int stash "currentTime" 0 s.currentTime

structure TellsSentence (payload : List (Str × Json)) (e : NlsEvent) : Prop where
  result : Tells .text payload "result" [] e.result
  index : Tells .int payload "index" 0 e.sentenceIndex
  time : Tells .int payload "time" 0 e.sentenceTime
  beginTime : Tells .int payload "begin_time" 0 e.sentenceBeginTime
  confidence : Tells .double payload "confidence" 0 e.sentenceConfidence
  displayText : Tells .text payload "display_text" [] e.displayText
  spokenText : Tells .text payload "spoken_text" [] e.spokenText
  timeOutStatus : Tells .int payload "status" 0 e.sentenceTimeOutStatus

/-- The fields of a payload. The wake word and the stash stand in the payload of one type of event
each, and no message carries audio. -/
structure TellsPayload (wordInfo : WordInfomation) (payload : List (Str × Json)) (e : NlsEvent) :
    Prop where
  sentence : TellsSentence payload e
  words : (∃ words, member payload "words" = .array words ∧
      TellsWords wordInfo words e.sentenceWordsList) ∨
    (∀ words, member payload "words" ≠ .array words) ∧ e.sentenceWordsList = []
  wakeWord : e.msgType = .wakeWordVerificationCompleted ∧ TellsWakeWord payload e.wakeWord ∨
    e.msgType ≠ .wakeWordVerificationCompleted ∧ e.wakeWord = noWakeWord
  stash : (e.msgType = .sentenceEnd ∧ ∃ stash, member payload "stash_result" = .object stash ∧
      TellsStash stash e.stashResult) ∨
    (e.msgType = .sentenceEnd → ∀ stash, member payload "stash_result" ≠ .object stash) ∧
      e.stashResult = noStash
  binaryData : e.binaryData = []

def Bare (e : NlsEvent) : Prop := e = ofCode e.statusCode e.msgType e.taskId

/-- Two types of event are their header whatever the payload, and so is an event without one. -/
inductive TellsBody (wordInfo : WordInfomation) (root : List (Str × Json)) (e : NlsEvent) : Prop
  | unread (htype : e.msgType = .synthesisCompleted ∨ e.msgType = .metaInfo) (bare : Bare e)
  | leftOut (h : ∀ payload, member root "payload" ≠ .object payload) (bare : Bare e)
  | payload (htype : e.msgType ≠ .synthesisCompleted ∧ e.msgType ≠ .metaInfo)
      (payload : List (Str × Json)) (h : member root "payload" = .object payload)
      (tells : TellsPayload wordInfo payload e)

/-- The message tells the event: its name, its status and its task, and the fields of its type. -/
structure TellsEvent (wordInfo : WordInfomation) (root : List (Str × Json)) (e : NlsEvent) :
    Prop where
  header : ∃ head, member root "header" = .object head ∧ TellsHeader head e
  body : TellsBody wordInfo root e

section fields
variable {α : Type*} {k : Kind α} {as : Json → Option α} {ms : List (Str × Json)} {key : String}
  {old a : α}

theorem Tells.field (h : Tells k ms key old a) (hk : k.Reads as) : field as ms key old = a := by
  cases h with
  | given h fits => rw [Json.field, h, hk.json a fits, Option.getD_some]
  | leftOut h => rw [Json.field, hk.other _ h, Option.getD_none]

end fields

theorem TellsWord.parseWord {ms : List (Str × Json)} {before w : WordInfomation}
    (h : TellsWord ms before w) : parseWord ms before = w := by
  rw [NlsEvent.parseWord, h.text.field Kind.text_reads, h.startTime.field Kind.int_reads,
    h.endTime.field Kind.int_reads]

theorem TellsWords.parseWords {before : WordInfomation} {words : List Json}
    {list : List WordInfomation} (h : TellsWords before words list) :
    parseWords before words = some list := by
  induction h with
  | nil => rfl
  | cons hw _ ih => simp only [NlsEvent.parseWords, members?, hw.parseWord, ih, Option.map_some]

theorem TellsWakeWord.parseWakeWord {payload : List (Str × Json)} {w : WakeWord}
    (h : TellsWakeWord payload w) : parseWakeWord payload noWakeWord = w := by
  show WakeWord.mk (field asBool payload "accepted" false) (field asBool payload "known" false)
    (field asCString payload "user_id" []) (field asInt payload "gender" 0) = w
  rw [h.accepted.field Kind.bool_reads, h.known.field Kind.bool_reads,
    h.userId.field Kind.text_reads, h.gender.field Kind.int_reads]

theorem TellsStash.parseStash {stash : List (Str × Json)} {s : StashResult}
    (h : TellsStash stash s) : parseStash stash noStash = s := by
  show StashResult.mk (field asInt stash "sentenceId" 0) (field asInt stash "beginTime" 0)
    (field asCString stash "text" []) (field asInt stash "currentTime" 0) = s
  rw [h.sentenceId.field Kind.int_reads, h.beginTime.field Kind.int_reads,
    h.text.field Kind.text_reads, h.currentTime.field Kind.int_reads]

theorem parseMsgType_of_mem {name : Str} {type : EventType} (h : (name, type) ∈ msgTypes) :
    parseMsgType name = some type ∧ 0 ∉ name := by
  have hall : ∀ p ∈ msgTypes, parseMsgType p.1 = some p.2 ∧ 0 ∉ p.1 := by decide
  exact hall (name, type) h

section event
variable {ignore : Bool} {wordInfo : WordInfomation} {root payload : List (Str × Json)}
  {e : NlsEvent}

theorem TellsHeader.parse {head : List (Str × Json)} (h : TellsHeader head e) :
    (do
      let e₁ ← parseName ignore head ofMsg
      let e₂ ← parseStatus ignore head e₁
      return parseTaskId head e₂) = .ok (ofCode e.statusCode e.msgType e.taskId) := by
  obtain ⟨name, hname, hmem⟩ := h.name
  obtain ⟨htype, htext⟩ := parseMsgType_of_mem hmem
  have hparseName : parseName ignore head ofMsg = .ok { ofMsg with msgType := e.msgType } := by
    have hread : asCString (member head "name") = some name :=
      hname ▸ Kind.text_reads.json name htext
    rw [parseName, hread]
    simp only [htype]
  have hparseStatus : parseStatus ignore head { ofMsg with msgType := e.msgType } =
      .ok { ofMsg with msgType := e.msgType, statusCode := e.statusCode } := by
    have hread : asInt (member head "status") = some e.statusCode :=
      h.status.1 ▸ Kind.int_reads.json e.statusCode h.status.2
    rw [parseStatus, hread]
  have htask : parseTaskId head { ofMsg with msgType := e.msgType, statusCode := e.statusCode } =
      ofCode e.statusCode e.msgType e.taskId := by
    rw [parseTaskId]
    show { ofCode e.statusCode e.msgType [] with taskId := field asCString head "task_id" [] } = _
    rw [h.taskId.field Kind.text_reads]
    rfl
  rw [hparseName]
  show (do
    let e₂ ← parseStatus ignore head { ofMsg with msgType := e.msgType }
    return parseTaskId head e₂) = _
  rw [hparseStatus]
  exact congrArg _ htask

theorem TellsPayload.parseSentence (h : TellsPayload wordInfo payload e) :
    parseSentence payload (ofCode e.statusCode e.msgType e.taskId) =
      { e with sentenceWordsList := [], wakeWord := noWakeWord, stashResult := noStash } := by
  have hs := h.sentence
  have hbinary : e.binaryData = (ofCode e.statusCode e.msgType e.taskId).binaryData := h.binaryData
  show NlsEvent.mk _ _ _ (field asCString payload "result" [])
    (field asCString payload "display_text" []) (field asCString payload "spoken_text" [])
    (field asInt payload "status" 0) (field asInt payload "index" 0) (field asInt payload "time" 0)
    (field asInt payload "begin_time" 0) (field asDouble payload "confidence" 0) _ _ _ _ = _
  rw [hs.result.field Kind.text_reads, hs.displayText.field Kind.text_reads,
    hs.spokenText.field Kind.text_reads, hs.timeOutStatus.field Kind.int_reads,
    hs.index.field Kind.int_reads, hs.time.field Kind.int_reads,
    hs.beginTime.field Kind.int_reads, hs.confidence.field Kind.double_reads, ← hbinary]
  rfl

theorem TellsPayload.parseWordArray (h : TellsPayload wordInfo payload e) (e' : NlsEvent)
    (hempty : e'.sentenceWordsList = []) :
    parseWordArray wordInfo payload e' =
      .ok { e' with sentenceWordsList := e.sentenceWordsList } := by
  rw [NlsEvent.parseWordArray]
  obtain ⟨words, hmember, hwords⟩ | ⟨hmember, hnone⟩ := h.words
  · rw [hmember]
    simp only [hwords.parseWords, hempty, List.nil_append]
  · split
    · rename_i words hwords
      exact absurd hwords (hmember words)
    · rw [hnone, ← hempty]

theorem TellsPayload.parseTyped (h : TellsPayload wordInfo payload e) :
    parseTyped payload { e with wakeWord := noWakeWord, stashResult := noStash } = e := by
  rw [NlsEvent.parseTyped]
  obtain ⟨hwake, htells⟩ | ⟨hwake, hnone⟩ := h.wakeWord
  · have hstash : e.stashResult = noStash := by
      obtain ⟨hend, -⟩ | ⟨-, hnone⟩ := h.stash
      · rw [hwake] at hend
        cases hend
      · exact hnone
    rw [if_pos hwake]
    simp only [htells.parseWakeWord, ← hstash]
  · rw [if_neg hwake, ← hnone]
    obtain ⟨hend, stash, hmember, htells⟩ | ⟨hleft, hnone⟩ := h.stash
    · rw [if_pos hend, hmember]
      simp only [htells.parseStash]
    · by_cases hend : e.msgType = .sentenceEnd
      · rw [if_pos hend, ← hnone]
        split
        · rename_i stash hstash
          exact absurd hstash (hleft hend stash)
        · rfl
      · rw [if_neg hend, ← hnone]

theorem TellsBody.parsePayload (h : TellsBody wordInfo root e) :
    parsePayload wordInfo root (ofCode e.statusCode e.msgType e.taskId) = .ok e := by
  rw [NlsEvent.parsePayload]
  cases h with
  | unread htype bare =>
    have hread : ¬ ((ofCode e.statusCode e.msgType e.taskId).msgType ≠ .synthesisCompleted ∧
        (ofCode e.statusCode e.msgType e.taskId).msgType ≠ .metaInfo) :=
      fun hn => htype.elim hn.1 hn.2
    rw [if_neg hread, ← bare]
  | leftOut hmember bare =>
    rw [← bare]
    split
    · split
      · rename_i payload hpayload
        exact absurd hpayload (hmember payload)
      · rfl
    · rfl
  | payload htype payload hmember tells =>
    have hread : (ofCode e.statusCode e.msgType e.taskId).msgType ≠ .synthesisCompleted ∧
        (ofCode e.statusCode e.msgType e.taskId).msgType ≠ .metaInfo := htype
    rw [if_pos hread, hmember]
    show (do
      let e₁ ← NlsEvent.parseWordArray wordInfo payload
        (NlsEvent.parseSentence payload (ofCode e.statusCode e.msgType e.taskId))
      return NlsEvent.parseTyped payload e₁) = _
    rw [tells.parseSentence, tells.parseWordArray _ rfl]
    exact congrArg _ tells.parseTyped

theorem TellsEvent.parse (h : TellsEvent wordInfo root e) :
    (do
      let e₁ ← parseHead ignore root ofMsg
      parsePayload wordInfo root e₁) = .ok e := by
  obtain ⟨head, hmember, hhead⟩ := h.header
  have hparse : parseHead ignore root ofMsg = .ok (ofCode e.statusCode e.msgType e.taskId) := by
    rw [parseHead, hmember]
    exact hhead.parse
  rw [hparse]
  exact h.body.parsePayload

theorem copy_eq_self :
    e.copy = e ↔ e.displayText = [] ∧ e.spokenText = [] ∧ e.wakeWord = noWakeWord := by
  cases e
  rw [copy, NlsEvent.mk.injEq]
  constructor
  · intro h
    obtain ⟨-, -, -, -, hdisplay, hspoken, -, -, -, -, -, -, hwake, -⟩ := h
    exact ⟨hdisplay.symm, hspoken.symm, hwake.symm⟩
  · intro h
    obtain ⟨hdisplay, hspoken, hwake⟩ := h
    exact ⟨rfl, rfl, rfl, rfl, hdisplay.symm, hspoken.symm, rfl, rfl, rfl, rfl, rfl, rfl,
      hwake.symm, rfl, rfl⟩

/-- A message that tells an event is read as that event, and the user gets a copy of it. -/
theorem event_read_back {reader : Str → Option Json} {startTime endTime : ℤ} {msg : Str}
    (hmsg : msg ≠ []) (hr : reader msg = some (.object root))
    (h : TellsEvent ⟨[], startTime, endTime⟩ root e) :
    parseJsonMsg ignore reader startTime endTime msg = .ok e ∧
      ∀ set : SpeechTranscriberCallback → Bool, ∀ r ∈ SpeechTranscriberListener.handlerFrame set e,
        r.2 = e ↔ e.displayText = [] ∧ e.spokenText = [] ∧ e.wakeWord = noWakeWord := by
  constructor
  · rw [parseJsonMsg, if_neg hmsg, hr]
    exact h.parse
  · intro set r hr
    rw [SpeechTranscriberListener.handlerFrame] at hr
    split at hr
    · rw [Option.mem_some_iff] at hr
      rw [← hr]
      exact copy_eq_self
    · cases hr

theorem sampleEvent_words : TellsWords ⟨[], 7, 7⟩ [
    .object [(ascii "text", .string (ascii "ab")), (ascii "startTime", .number 810),
      (ascii "endTime", .number 2460)],
    .object [(ascii "text", .string (ascii "c"))]] sampleEvent.sentenceWordsList := by
  refine .cons ⟨?_, ?_, ?_⟩ (.cons ⟨?_, ?_, ?_⟩ .nil)
  · exact .given rfl (by decide : (0 : UInt8) ∉ ascii "ab")
  · exact .given rfl ⟨by decide, by decide⟩
  · exact .given rfl ⟨by decide, by decide⟩
  · exact .given rfl (by decide : (0 : UInt8) ∉ ascii "c")
  · exact .leftOut nofun
  · exact .leftOut nofun

theorem event_read_back_sample :
    parseJsonMsg false (fun _ => some sampleRoot) 7 7 [0] = .ok sampleEvent ∧
      ∀ set : SpeechTranscriberCallback → Bool,
        ∀ r ∈ SpeechTranscriberListener.handlerFrame set sampleEvent, r.2 = sampleEvent ↔
          sampleEvent.displayText = [] ∧ sampleEvent.spokenText = [] ∧
            sampleEvent.wakeWord = noWakeWord := by
  refine event_read_back (by decide) rfl ⟨⟨_, rfl, ?_⟩, .payload (by decide) _ rfl ?_⟩
  · exact ⟨⟨_, rfl, by decide⟩, ⟨rfl, by decide, by decide⟩, .leftOut nofun⟩
  · refine ⟨?_, Or.inl ⟨_, rfl, sampleEvent_words⟩, Or.inr ⟨by decide, rfl⟩,
      Or.inr ⟨fun _ => nofun, rfl⟩, rfl⟩
    exact ⟨.leftOut nofun, .leftOut nofun, .leftOut nofun, .leftOut nofun, .leftOut nofun,
      .leftOut nofun, .leftOut nofun, .leftOut nofun⟩

end event

end tells

end RtmpRelay.NlsEvent
