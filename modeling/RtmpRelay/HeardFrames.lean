import RtmpRelay.FirstAnswer

/-!
# What is heard while a session runs

Once the web socket is there, the server talks in text and audio frames, with
pongs between them. Until a message ends the session, the callbacks are those
of the events in the frames that have arrived whole, once each and in order,
however the bytes were cut into reads and whatever calls and writes fall
between them.
-/

namespace RtmpRelay.NodeSession

open WebSocketTcp
open AudioUpload (ConnectStatus ExitStatus)

def Ending (type : EventType) : Prop :=
  type = .taskFailed ∨ type = .close ∨ type = .recognitionCompleted ∨
    type = .transcriptionCompleted ∨ type = .synthesisCompleted ∨ type = .dialogResultGenerated

instance (type : EventType) : Decidable (Ending type) :=
  inferInstanceAs (Decidable (_ ∨ _ ∨ _ ∨ _ ∨ _ ∨ _))

/-- The session runs, and nothing is under way that would start it anew. -/
structure Listening (n : Node) : Prop where
  begun : Begun n.workStatus
  exit : n.exitStatus ≠ .exitCancel
  launch : n.launchEvent = false
  reconnect : n.reconnectEvent = false

def Calm : Event → Prop
  | .request sent _ => 0 ≤ sent
  | .sendAudio failed => failed = none
  | .stop remain failed => remain = none ∧ failed = none
  | .timeout _ | .cancel | .response _ => False
  | _ => True

section listening
variable {E : Env} {n : Node}

theorem ignore_stays {type : EventType} (ht : ¬ Ending type) (n : Node) (code : ℤ) :
    ignoreCallbackWhenReconnecting E n type code = (n, false) := by
  have hfailed : type ≠ .taskFailed := fun h => ht (Or.inl h)
  have hclose : type ≠ .close := fun h => ht (Or.inr (Or.inl h))
  rw [ignoreCallbackWhenReconnecting]
  split
  · simp only [hfailed, hclose, false_and, or_self, and_false, if_false]
  · rfl

theorem handlerFrame_stays {type : EventType} (ht : ¬ Ending type)
    (hv : n.workStatus ≠ .nodeInvalid) (code : ℤ) :
    handlerFrame E n type code =
      ({ n with history := n.history ++ [.called type] }, success) := by
  have hclose : type ≠ .close := fun h => ht (Or.inr (Or.inl h))
  rw [handlerFrame, if_neg hv, ignore_stays ht]
  exact if_neg hclose

theorem Listening.history (h : Listening n) (history : List Happening) :
    Listening { n with history := history } :=
  ⟨h.begun, h.exit, h.launch, h.reconnect⟩

theorem Listening.flags (h : Listening n) (b : Bool) {x : ExitStatus} (hx : x ≠ .exitCancel) :
    Listening { n with isFirstBinaryFrame := b, exitStatus := x } :=
  ⟨h.begun, hx, h.launch, h.reconnect⟩

theorem workStatusOf_stays {type : EventType} (ht : ¬ Ending type) (h : Listening n) :
    Listening (workStatusOf E n type).1 ∧ (workStatusOf E n type).2 = false := by
  have hstarted : Listening { n with
      workStatus := if E.speechWakeWordDialog then .nodeWakeWording else .nodeStarted
      state := .noReconnection } := by
    refine ⟨?_, h.exit, h.launch, h.reconnect⟩
    show Begun (if E.speechWakeWordDialog then .nodeWakeWording else .nodeStarted)
    split
    · exact Or.inr (Or.inl rfl)
    · exact Or.inr (Or.inr rfl)
  cases type with
  | recognitionStarted => exact ⟨hstarted, rfl⟩
  | transcriptionStarted => exact ⟨hstarted, rfl⟩
  | synthesisStarted => exact ⟨hstarted, rfl⟩
  | wakeWordVerificationCompleted =>
    exact ⟨⟨Or.inr (Or.inr rfl), h.exit, h.launch, h.reconnect⟩, rfl⟩
  | binary =>
    rw [workStatusOf]
    split
    · exact ⟨⟨Or.inr (Or.inr rfl), h.exit, h.launch, h.reconnect⟩, rfl⟩
    · exact ⟨h, rfl⟩
  | taskFailed => exact absurd (Or.inl rfl) ht
  | close => exact absurd (Or.inr (Or.inl rfl)) ht
  | recognitionCompleted => exact absurd (by decide) ht
  | transcriptionCompleted => exact absurd (by decide) ht
  | synthesisCompleted => exact absurd (by decide) ht
  | dialogResultGenerated => exact absurd (by decide) ht
  | _ => exact ⟨h, rfl⟩

theorem frameEvent_stays {type : EventType} (ht : ¬ Ending type) (h : Listening n) (code : ℤ) :
    Listening (frameEvent E n (some (type, code)) success).1 ∧
      (frameEvent E n (some (type, code)) success).2 = success ∧
      calls (frameEvent E n (some (type, code)) success).1 = calls n ++ [type] := by
  have hframe := handlerFrame_stays (E := E) ht (h.begun.ne (by decide)) code
  obtain ⟨hstays, hopen⟩ := workStatusOf_stays (E := E) ht (h.history (n.history ++ [.called type]))
  have hhistory := workStatusOf_history (E := E)
    { n with history := n.history ++ [.called type] } type
  rw [frameEvent]
  simp only [if_neg h.exit, hframe, ne_eq, not_true_eq_false, if_false, frameHandled, hopen]
  exact ⟨hstays, trivial, calls_append hhistory⟩

theorem nodeRequestProcess_calm (h : Begun n.workStatus) {sent : ℤ} (hsent : 0 ≤ sent) (code : ℤ) :
    nodeRequestProcess E n sent code = nlsSendFrame n sent := by
  have hno : ¬ sent < 0 := by omega
  rw [nodeRequestProcess]
  rcases h with h | h | h
  · simp only [h, if_neg hno]
  · simp only [h, if_neg hno]
  · simp only [h, if_neg hno]

theorem stop_calm (h : Listening n) :
    ∃ b x, x ≠ .exitCancel ∧
      stop E n none none = { n with isFirstBinaryFrame := b, exitStatus := x } := by
  obtain ⟨b, hb⟩ := sendEnded_none (E := E) n
  obtain ⟨c, hc⟩ := sendEnded_none (E := E)
    { n with isFirstBinaryFrame := b, exitStatus := .exitStopping }
  have hlaunch : ¬ n.launchEvent = true := by rw [h.launch]; decide
  rw [stop]
  split
  · exact ⟨n.isFirstBinaryFrame, n.exitStatus, h.exit, rfl⟩
  · split
    · exact ⟨n.isFirstBinaryFrame, n.exitStatus, h.exit, rfl⟩
    · simp only [if_neg hlaunch, hb, hc]
      split
      · exact ⟨c, .exitStopping, by decide, rfl⟩
      · exact ⟨b, .exitStopping, by decide, rfl⟩

theorem step_calm (h : Listening n) {e : Event} (he : Calm e) :
    ∃ b x, x ≠ .exitCancel ∧
      step E n e = { n with isFirstBinaryFrame := b, exitStatus := x } := by
  have hsame : ∃ b x, x ≠ .exitCancel ∧
      n = { n with isFirstBinaryFrame := b, exitStatus := x } :=
    ⟨n.isFirstBinaryFrame, n.exitStatus, h.exit, rfl⟩
  have hconnecting : n.workStatus ≠ .nodeConnecting := h.begun.ne (by decide)
  have hconnected : n.workStatus ≠ .nodeConnected := h.begun.ne (by decide)
  cases e with
  | launch =>
    rw [step, if_neg (by rw [h.launch]; decide), if_neg (by rw [h.reconnect]; decide)]
    exact hsame
  | connectFailed =>
    rw [step, if_neg fun hs => hs.elim hconnecting hconnected]
    exact hsame
  | connected =>
    rw [step, if_neg hconnecting]
    exact hsame
  | handshaking =>
    rw [step, if_neg fun hs => hconnected hs.1]
    exact hsame
  | request sent code =>
    obtain ⟨b, hb⟩ := nlsSendFrame_spec n sent
    rw [step, socketEvent, if_neg (by rw [h.launch]; decide), if_neg h.exit,
      nodeRequestProcess_calm h.begun he]
    exact ⟨b, n.exitStatus, h.exit, hb⟩
  | sendAudio failed =>
    obtain ⟨b, hb⟩ := sendEnded_none (E := E) n
    rw [step, NodeSession.sendAudio, show failed = none from he]
    split
    · exact hsame
    · exact ⟨b, n.exitStatus, h.exit, hb⟩
  | stop remain failed =>
    rw [step, he.1, he.2]
    exact stop_calm h
  | timeout code => exact he.elim
  | cancel => exact he.elim
  | response r => exact he.elim

end listening

end RtmpRelay.NodeSession

namespace RtmpRelay.NodeWire

open WebSocketTcp WebSocketResponse FrameFormat
open FrameDelivery (Served Takes Left Ping Sync deliver chunk_left)
open AudioUpload (ExitStatus)
open NodeSession (Listening Ending Calm Begun calls)

section frames
variable {E : Env}

/-- A pong, a piece of audio, or a text that parses to an event which does not end the session. -/
def Spoken (E : Env) (f : Message) : Prop :=
  Served f ∧ (f.opCode = .pong ∨ f.opCode = .binaryFrame ∨
    f.opCode = .textFrame ∧ E.convert f.payload ≠ [] ∧
      ∃ e, event E f.payload = .ok e ∧ ¬ Ending e.msgType)

def taken (E : Env) (s : Hearing) (type : OpCodeType) (payload : List UInt8) : Hearing :=
  (parseFrame E s type payload 0).1

/-- The callbacks are those of the events `es`, and the session goes on. -/
structure Hears (es : List NlsEvent) (s s' : Hearing) : Prop where
  heard : s'.heard = s.heard ++ es
  calls : calls s'.session = calls s.session ++ es.map NlsEvent.msgType
  taskId : s'.taskId = s.taskId
  listening : Listening s'.session

theorem Hears.refl {s : Hearing} (hs : Listening s.session) : Hears [] s s :=
  ⟨(List.append_nil _).symm, (List.append_nil _).symm, rfl, hs⟩

theorem Hears.trans {es es' : List NlsEvent} {s s₁ s₂ : Hearing} (h₁ : Hears es s s₁)
    (h₂ : Hears es' s₁ s₂) : Hears (es ++ es') s s₂ := by
  refine ⟨?_, ?_, h₂.taskId.trans h₁.taskId, h₂.listening⟩
  · rw [h₂.heard, h₁.heard, List.append_assoc]
  · rw [h₂.calls, h₁.calls, List.map_append, List.append_assoc]

theorem Hears.flags {es : List NlsEvent} {s s' : Hearing} (h : Hears es s s') (b : Bool)
    {x : ExitStatus} (hx : x ≠ .exitCancel) :
    Hears es s { s' with session :=
      { s'.session with isFirstBinaryFrame := b, exitStatus := x } } :=
  ⟨h.heard, h.calls, h.taskId, h.listening.flags b hx⟩

theorem spoken_event {f : Message} (hf : Spoken E f) (hpong : f.opCode ≠ .pong) (taskId : Str) :
    ∃ e, eventOf E taskId f.opCode f.payload = [e] ∧ ¬ Ending e.msgType := by
  obtain ⟨hserved, hpong' | hbinary | ⟨htext, hne, e, hevent, he⟩⟩ := hf
  · exact absurd hpong' hpong
  · have hfull : f.payload ≠ [] := by
      rcases hserved.2.2 with ⟨-, h⟩ | ⟨h, -⟩
      · exact h
      · rw [hbinary] at h
        cases h
    exact ⟨_, if_pos ⟨hbinary, hfull⟩, (by decide : ¬ Ending .binary)⟩
  · refine ⟨e, ?_, he⟩
    rw [eventOf, if_neg fun h => (by rw [htext] at h; cases h.1), if_pos ⟨htext, hne⟩, hevent]
    rfl

theorem parseFrame_spoken {s : Hearing} (hs : Listening s.session) {f : Message} (hf : Spoken E f)
    (closeCode : ℕ) :
    parseFrame E s f.opCode f.payload closeCode = (deliver (taken E) s f, 0) ∧
      Hears (eventOf E s.taskId f.opCode f.payload) s (deliver (taken E) s f) := by
  rw [deliver, taken]
  by_cases hpong : f.opCode = .pong
  · have hnone : eventOf E s.taskId .pong f.payload = [] := rfl
    have hparse : ∀ code, parseFrame E s .pong f.payload code = (s, 0) := fun code => by
      rw [parseFrame, hnone, List.filter_nil, List.append_nil]
      rfl
    rw [hpong, hparse, hparse, hnone]
    exact ⟨rfl, Hears.refl hs⟩
  · obtain ⟨e, hof, he⟩ := spoken_event hf hpong s.taskId
    obtain hnone | ⟨e', hof', hframe⟩ := eventOf_cases (E := E) s.taskId f.opCode f.payload
    · rw [hof] at hnone
      cases hnone
    · rw [hof] at hof'
      cases hof'
      obtain ⟨hstays, hret, hcalls⟩ :=
        NodeSession.frameEvent_stays (E := E.session) he hs e.statusCode
      have hreaches : Reaches E s.session e :=
        ⟨hs.exit, hs.begun.ne (by decide), by rw [NodeSession.ignore_stays he]⟩
      rw [parseFrame, parseFrame]
      simp only [hframe, hof]
      refine ⟨Prod.ext rfl hret, ?_, hcalls, rfl, hstays⟩
      rw [List.filter_cons_of_pos (by rw [decide_eq_true hreaches]), List.filter_nil]

theorem wire_takes (hrealloc : ∀ n, E.realloc n = true) :
    Takes (wireEnv E) (taken E) (fun s => Listening s.session) (Spoken E) where
  parseFrame hs hf frame wsFrame htype hbytes := by
    rw [wireEnv]
    simp only [htype, hbytes]
    exact (parseFrame_spoken hs hf _).1
  kept hs hf := (parseFrame_spoken hs hf 0).2.listening
  releasingFlag _ := rfl
  instanceGone _ := rfl
  checkNodeExist _ := rfl
  realloc := hrealloc

/-- The events in frames that have been handed on. -/
def eventsOf (E : Env) (taskId : Str) (fs : List Message) : List NlsEvent :=
  fs.flatMap fun f => eventOf E taskId f.opCode f.payload

theorem delivered_heard {s : Hearing} (hs : Listening s.session) {fs : List Message}
    (hfs : ∀ f ∈ fs, Spoken E f) :
    Hears (eventsOf E s.taskId fs) s (fs.foldl (deliver (taken E)) s) := by
  induction fs generalizing s with
  | nil => exact Hears.refl hs
  | cons f fs ih =>
    have hfirst := (parseFrame_spoken hs (hfs f List.mem_cons_self) 0).2
    have hrest := ih hfirst.listening fun x hx => hfs x (List.mem_cons_of_mem f hx)
    rw [hfirst.taskId] at hrest
    rw [eventsOf, List.flatMap_cons]
    exact hfirst.trans hrest

end frames

section run
variable {E : Env}

def Event.chunk : Event → List UInt8
  | .read ⟨.bytes chunk, _, _⟩ => chunk
  | _ => []

/-- A read that succeeds and fits the buffer, or an event that leaves the session running. -/
def Smooth : Event → Prop
  | .read r => (∃ chunk, r.read = .bytes chunk ∧ chunk.length ≤ readBufferSize) ∧ 0 ≤ r.sent
  | .other e => Calm e.val

/-- The frames `fs` are on their way, of which `k` have been heard since `w`. -/
structure Told (E : Env) (fs : List Message) (g : Message) (k : ℕ) (chunk : List UInt8)
    (w w' : Wire) : Prop where
  le : k ≤ fs.length
  hears : Hears (eventsOf E w.node.user.taskId (fs.take k)) w.node.user w'.node.user
  buffer : w.node.readEvBuffer ++ chunk =
    (fs.take k).flatMap serverFrame ++ w'.node.readEvBuffer
  sync : Sync (fs.drop k) g w'.node
  short : ∀ f ∈ (fs.drop k).head?, w'.node.readEvBuffer.length < (serverFrame f).length
  readEvent : w'.readEvent = true

theorem Told.trans {fs : List Message} {g : Message} {k l : ℕ} {c d : List UInt8}
    {w w₁ w₂ : Wire} (h₁ : Told E fs g k c w w₁) (h₂ : Told E (fs.drop k) g l d w₁ w₂) :
    Told E fs g (k + l) (c ++ d) w w₂ := by
  have htake : fs.take (k + l) = fs.take k ++ (fs.drop k).take l := List.take_add
  have hdrop : (fs.drop k).drop l = fs.drop (k + l) := List.drop_drop
  have hle := h₂.le
  rw [List.length_drop] at hle
  refine ⟨?_, ?_, ?_, hdrop ▸ h₂.sync, hdrop ▸ h₂.short, h₂.readEvent⟩
  · have hk := h₁.le
    omega
  · have hrest := h₂.hears
    rw [h₁.hears.taskId] at hrest
    rw [htake, eventsOf, List.flatMap_append]
    exact h₁.hears.trans hrest
  · rw [htake, List.flatMap_append, List.append_assoc, ← h₂.buffer, ← List.append_assoc,
      h₁.buffer, List.append_assoc]

theorem Told.rest {fs : List Message} {g : Message} {k : ℕ} {c more tl : List UInt8}
    {w w' : Wire} (h : Told E fs g k c w w')
    (hp : w.node.readEvBuffer ++ (c ++ more) <+: fs.flatMap serverFrame ++ tl) :
    w'.node.readEvBuffer ++ more <+: (fs.drop k).flatMap serverFrame ++ tl := by
  rw [← List.append_assoc] at hp
  exact FrameDelivery.kept_of_taken h.buffer hp

theorem responded_spoken {w : Wire} {r : Reading} (hb : Begun w.session.workStatus)
    (hret : 0 ≤ (webSocketResponse E w r.read).2) (hsent : 0 ≤ r.sent) :
    (∃ b, (responded E w r).1 = (webSocketResponse E w r.read).1.withSession
      { (webSocketResponse E w r.read).1.session with isFirstBinaryFrame := b }) ∧
      0 ≤ (responded E w r).2 := by
  rcases or_assoc.mpr hb with hs | hs
  · obtain ⟨b, hflag⟩ :=
      NodeSession.nlsSendFrame_spec (webSocketResponse E w r.read).1.session r.sent
    rw [responded_starting hs]
    split
    · exact ⟨⟨b, congrArg (webSocketResponse E w r.read).1.withSession hflag⟩, hsent⟩
    · exact ⟨⟨_, rfl⟩, hret⟩
  · rw [responded, hs]
    exact ⟨⟨_, rfl⟩, hret⟩

theorem nodeResponseProcess_spoken {w : Wire} {r : Reading} (hb : Begun w.session.workStatus)
    (hret : 0 ≤ (webSocketResponse E w r.read).2) (hsent : 0 ≤ r.sent) :
    ∃ b, nodeResponseProcess E w r = (webSocketResponse E w r.read).1.withSession
      { (webSocketResponse E w r.read).1.session with isFirstBinaryFrame := b } := by
  obtain ⟨hframes, hpos⟩ := responded_spoken hb hret hsent
  have hno : ¬ (responded E w r).2 < 0 := by omega
  rw [nodeResponseProcess]
  simp only [if_neg hno]
  exact hframes

theorem read_chunk {r : Reading} {chunk : List UInt8} (h : r.read = .bytes chunk) :
    (Event.read r).chunk = chunk := by
  obtain ⟨read, sent, code⟩ := r
  simp only at h
  rw [h]
  rfl

theorem step_read {w : Wire} (hw : Listening w.session) (hr : w.readEvent = true) (r : Reading) :
    step E w (.read r) = nodeResponseProcess E w r := by
  rw [step, if_neg (by rw [hr]; decide), if_neg (by rw [hw.launch]; decide), if_neg hw.exit]

theorem step_other {w : Wire} (hw : Listening w.session) (hr : w.readEvent = true) {e : Other}
    (he : Calm e.val) :
    Hears [] w.node.user (step E w (.other e)).node.user ∧
      (step E w (.other e)).readEvent = true := by
  have hconnected : w.session.workStatus ≠ .nodeConnected := hw.begun.ne (by decide)
  have hready : readEventAfter w e.val = true := by
    rw [readEventAfter.eq_def]
    split
    · rw [hw.launch, hw.reconnect]
      exact hr
    · rw [if_neg fun h => hconnected h.1]
      exact hr
    · exact hr
  obtain ⟨b, x, hx, hstep⟩ := NodeSession.step_calm (E := E.session) hw he
  refine ⟨?_, hready⟩
  have huser : (step E w (.other e)).node.user =
      { w.node.user with
        session := { w.session with isFirstBinaryFrame := b, exitStatus := x } } :=
    congrArg (fun n => { w.node.user with session := n }) hstep
  rw [huser]
  exact (Hears.refl hw).flags b hx

theorem step_told (hrealloc : ∀ n, E.realloc n = true) {g : Message} {tl : List UInt8}
    (hg : Ping g) {fs : List Message} (hfs : ∀ f ∈ fs, Spoken E f) {w : Wire}
    (hw : Listening w.session) (hr : w.readEvent = true) {e : Event} (he : Smooth e)
    (hp : w.node.readEvBuffer ++ e.chunk <+: fs.flatMap serverFrame ++ (serverFrame g ++ tl))
    (hs : Sync fs g w.node)
    (hshort : ∀ f ∈ fs.head?, w.node.readEvBuffer.length < (serverFrame f).length) :
    ∃ k, Told E fs g k e.chunk w (step E w e) := by
  have hserved : ∀ f ∈ fs, Served f := fun f hf => (hfs f hf).1
  cases e with
  | read r =>
    obtain ⟨⟨chunk, hread, hsize⟩, hsent⟩ := he
    rw [read_chunk hread] at hp ⊢
    have htakes := wire_takes (E := E) hrealloc
    obtain ⟨hret, k, hk⟩ := chunk_left htakes hg hserved hfs hsize hw hp hs hshort
    obtain ⟨b, hstep⟩ : ∃ b, step E w (.read r) =
        (webSocketResponse E w (.bytes chunk)).1.withSession
          { (webSocketResponse E w (.bytes chunk)).1.session with isFirstBinaryFrame := b } := by
      rw [step_read hw hr, ← hread]
      rw [← hread] at hret
      exact nodeResponseProcess_spoken hw.begun hret hsent
    have hheard := delivered_heard hw fun f hf => hfs f (List.mem_of_mem_take (i := k) hf)
    have huser : (webSocketResponse E w (.bytes chunk)).1.node.user =
        (fs.take k).foldl (deliver (taken E)) w.node.user := hk.user
    rw [← huser] at hheard
    rw [hstep]
    exact ⟨k, hk.le, hheard.flags b hheard.listening.exit, hk.buffer, hk.sync, hk.short, hr⟩
  | other e =>
    obtain ⟨hears, hready⟩ := step_other (E := E) hw hr he
    exact ⟨0, Nat.zero_le _, hears, List.append_nil _, hs, hshort, hready⟩

theorem run_told (hrealloc : ∀ n, E.realloc n = true) {g : Message} {tl : List UInt8}
    (hg : Ping g) {es : List Event} (hes : ∀ e ∈ es, Smooth e) {fs : List Message}
    (hfs : ∀ f ∈ fs, Spoken E f) {w : Wire} (hw : Listening w.session) (hr : w.readEvent = true)
    (hp : w.node.readEvBuffer ++ es.flatMap Event.chunk <+:
      fs.flatMap serverFrame ++ (serverFrame g ++ tl)) (hs : Sync fs g w.node)
    (hshort : ∀ f ∈ fs.head?, w.node.readEvBuffer.length < (serverFrame f).length) :
    ∃ k, Told E fs g k (es.flatMap Event.chunk) w (run E w es) := by
  induction es generalizing w fs with
  | nil =>
    exact ⟨0, Nat.zero_le _, Hears.refl hw, List.append_nil _, hs, hshort, hr⟩
  | cons e es ih =>
    rw [List.flatMap_cons] at hp ⊢
    have hfront : w.node.readEvBuffer ++ e.chunk <+:
        fs.flatMap serverFrame ++ (serverFrame g ++ tl) := by
      rw [← List.append_assoc] at hp
      exact (List.prefix_append _ _).trans hp
    obtain ⟨k, hk⟩ := step_told hrealloc hg hfs hw hr (hes e List.mem_cons_self) hfront hs hshort
    obtain ⟨l, hl⟩ := ih (fun x hx => hes x (List.mem_cons_of_mem e hx))
      (fun f hf => hfs f (List.mem_of_mem_drop hf)) hk.hears.listening hk.readEvent (hk.rest hp)
      hk.sync hk.short
    exact ⟨k + l, hk.trans hl⟩

/-- While the session runs, the listener is called for the events of the frames that have arrived
whole, once each and in order, and for nothing else, whatever the reads and whatever happens
between them. -/
theorem frames_heard (hrealloc : ∀ n, E.realloc n = true) {w : Wire}
    (hw : Listening w.session) (hr : w.readEvent = true) (hbuf : w.node.readEvBuffer = [])
    (hstage : w.node.rStatus = .wsHeadSize) {fs : List Message} (hfs : ∀ f ∈ fs, Spoken E f)
    {es : List Event} (hes : ∀ e ∈ es, Smooth e)
    (hp : es.flatMap Event.chunk <+: fs.flatMap serverFrame) :
    ∃ k ≤ fs.length,
      (run E w es).heard = w.heard ++ eventsOf E w.node.user.taskId (fs.take k) ∧
      calls (run E w es).session = calls w.session ++
        (eventsOf E w.node.user.taskId (fs.take k)).map NlsEvent.msgType ∧
      es.flatMap Event.chunk =
        (fs.take k).flatMap serverFrame ++ (run E w es).node.readEvBuffer ∧
      (∀ f ∈ (fs.drop k).head?,
        (run E w es).node.readEvBuffer.length < (serverFrame f).length) ∧
      Listening (run E w es).session := by
  have hg : Ping ⟨true, .ping, []⟩ := by decide
  have hpre : w.node.readEvBuffer ++ es.flatMap Event.chunk <+:
      fs.flatMap serverFrame ++ (serverFrame ⟨true, .ping, []⟩ ++ []) := by
    rw [hbuf]
    exact hp.trans (List.prefix_append _ _)
  have hsync : Sync fs ⟨true, .ping, []⟩ w.node := by
    rw [Sync, hstage]
    trivial
  obtain ⟨k, hk⟩ := run_told hrealloc hg hes hfs hw hr hpre hsync fun f _ => by
    have hhead := FrameDelivery.head_le f
    rw [hbuf, FrameDelivery.serverFrame_length, List.length_nil]
    omega
  have hbuffer := hk.buffer
  rw [hbuf, List.nil_append] at hbuffer
  exact ⟨k, hk.le, hk.hears.heard, hk.hears.calls, hbuffer, hk.short, hk.hears.listening⟩

def speaking : List Event :=
  [.read ⟨.bytes [0x81], 0, 0⟩, other (.sendAudio none) rfl, other (.stop none none) rfl,
    .read ⟨.bytes [2, 0x7b, 0x7d, 0x8a], 0, 0⟩, .read ⟨.bytes [0, 0x82, 1, 7], 0, 0⟩]

def spokenFrames : List Message :=
  [⟨true, .textFrame, [0x7b, 0x7d]⟩, ⟨true, .pong, []⟩, ⟨true, .binaryFrame, [7]⟩]

theorem frames_heard_speaking :
    ∃ k ≤ 3, (run transcriber (run transcriber invoked switching) speaking).heard =
        (run transcriber invoked switching).heard ++ eventsOf transcriber
          (run transcriber invoked switching).node.user.taskId (spokenFrames.take k) ∧
      calls (run transcriber (run transcriber invoked switching) speaking).session =
        calls (run transcriber invoked switching).session ++ (eventsOf transcriber
          (run transcriber invoked switching).node.user.taskId (spokenFrames.take k)).map
            NlsEvent.msgType := by
  have hw : Listening (run transcriber invoked switching).session :=
    ⟨by decide +kernel, by decide +kernel, by decide +kernel, by decide +kernel⟩
  have hfs : ∀ f ∈ spokenFrames, Spoken transcriber f := by
    intro f hf
    simp only [spokenFrames, List.mem_cons, List.not_mem_nil, or_false] at hf
    rcases hf with rfl | rfl | rfl
    · exact ⟨by decide, Or.inr (Or.inr ⟨rfl, by decide, NlsEvent.sampleEvent, rfl, by decide⟩)⟩
    · exact ⟨by decide, Or.inl rfl⟩
    · exact ⟨by decide, Or.inr (Or.inl rfl)⟩
  have hes : ∀ e ∈ speaking, Smooth e := by
    intro e he
    simp only [speaking, List.mem_cons, List.not_mem_nil, or_false] at he
    rcases he with rfl | rfl | rfl | rfl | rfl
    · exact ⟨⟨_, rfl, by decide⟩, by decide⟩
    · exact rfl
    · exact ⟨rfl, rfl⟩
    · exact ⟨⟨_, rfl, by decide⟩, by decide⟩
    · exact ⟨⟨_, rfl, by decide⟩, by decide⟩
  obtain ⟨k, hk, hheard, hcalls, -⟩ := frames_heard (fun _ => rfl) hw (by decide +kernel)
    (by decide +kernel) (by decide +kernel) hfs hes (by decide)
  exact ⟨k, hk, hheard, hcalls⟩

end run

end RtmpRelay.NodeWire
