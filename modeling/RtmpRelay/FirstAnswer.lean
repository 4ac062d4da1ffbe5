import RtmpRelay.HeardEvents

/-!
# The first answer of the gateway

The status of the first whole answer is kept by the web socket of the node, and
no launch clears it. After a refusal every later answer is refused, whatever it
says, so a reconnection never starts the request; after an acceptance every
later answer is accepted.
-/

namespace RtmpRelay.Handshake

open WebSocketTcp WebSocketResponse Occurrences
open NodeSession (nlsReceiveEmpty)

section code
variable {ws : Http} {content : List UInt8} {length : ℕ}

def Whole (content : List UInt8) : Prop := findFrom (cString content) httpHeaderEndString 0 ≠ none

theorem refused_code (line : Str) : (ws.refused line length).httpCode = ws.httpCode := by
  have hset : (if ws.httpLength = 0 then
      { ws with
        httpLength := Http.toSize (getTargetLen line httpContentLength httpContentLengthEnd) }
    else ws : Http).httpCode = ws.httpCode := by
    split
    · rfl
    · rfl
  rw [Http.refused]
  dsimp only
  generalize (if ws.httpLength = 0 then _ else ws : Http) = ws' at hset ⊢
  split
  · exact hset
  · split
    · exact hset
    · split
      · exact hset
      · exact hset

theorem responsePackage_code (h : ws.httpCode ≠ 0) :
    (ws.responsePackage content length).1.httpCode = ws.httpCode := by
  simp only [Http.responsePackage, if_neg h]
  split_ifs
  · rfl
  · rfl
  · exact refused_code _

/-- An answer is accepted only with the status 101 kept. -/
theorem responsePackage_accepted (hpos : length ≠ 0)
    (h : (ws.responsePackage content length).2 = 0) :
    (ws.responsePackage content length).1.httpCode = 101 := by
  have hbad : ¬ (-httpGotBadStatus = 0) := by decide
  have hrefused : ¬ (-wsResponsePackageFailed = 0) := by decide
  simp only [Http.responsePackage] at h ⊢
  by_cases hw : findFrom (cString content) httpHeaderEndString 0 = none
  · rw [if_pos hw] at h
    exact absurd (Int.natCast_eq_zero.mp h) hpos
  · rw [if_neg hw] at h ⊢
    generalize (if ws.httpCode = 0 then _ else ws : Http) = ws' at h ⊢
    split_ifs at h ⊢ with h₁ h₂
    · exact absurd h hbad
    · exact h₂
    · exact absurd h hrefused

theorem responsePackage_whole (h : ws.httpCode = 101) (hw : Whole content) :
    ws.responsePackage content length = (ws, 0) := by
  have hne : ¬ (ws.httpCode = 0) := by
    rw [h]
    decide
  simp only [Http.responsePackage, if_neg hw, if_neg hne, if_pos h]

end code

section answer
variable {σ : Type*} {E : WebSocketResponse.Env σ} {n : Connection σ} {read : Read}

theorem gatewayResponse_code (h : n.http.httpCode ≠ 0) :
    (gatewayResponse E n read).1.http.httpCode = n.http.httpCode := by
  cases read with
  | failed => rfl
  | bytes chunk =>
    cases chunk with
    | nil => rfl
    | cons b chunk =>
      simp only [gatewayResponse]
      split_ifs
      · rfl
      · exact responsePackage_code h
      · exact responsePackage_code h

theorem gatewayResponse_accepted (h : (gatewayResponse E n read).2 = 0) :
    (gatewayResponse E n read).1.http.httpCode = 101 := by
  have hempty : ¬ (-nlsReceiveEmpty = 0) := by decide
  cases read with
  | failed => exact absurd h (Int.ne_of_lt (NlsRetCode.neg_code_lt _))
  | bytes chunk =>
    cases chunk with
    | nil => exact absurd h hempty
    | cons b chunk =>
      have hpos : (n.node.readEvBuffer ++ (b :: chunk)).length ≠ 0 := by
        rw [List.length_append, List.length_cons]
        omega
      simp only [gatewayResponse] at h ⊢
      split_ifs at h ⊢ with h₁ h₂
      · exact absurd h (Int.ne_of_lt (NlsRetCode.neg_code_lt _))
      · exact responsePackage_accepted hpos h₂
      · exact absurd h h₂

end answer

end RtmpRelay.Handshake

namespace RtmpRelay.NodeSession

open WebSocketTcp
open AudioUpload (ConnectStatus)

section status
variable {E : Env} {n : Node}

theorem nodeReconnecting_workStatus (n : Node) :
    (nodeReconnecting E n).workStatus = n.workStatus := by
  rw [nodeReconnecting]
  split
  · split
    · rfl
    · rfl
  · rfl

theorem handlerFrame_workStatus (n : Node) (type : EventType) (code : ℤ) :
    (handlerFrame E n type code).1.workStatus = n.workStatus := by
  obtain ⟨c, s, heq⟩ := ignore_spec (E := E) n type code
  have hcalled : (called (ignoreCallbackWhenReconnecting E n type code).1 type
      (ignoreCallbackWhenReconnecting E n type code).2).workStatus = n.workStatus := by
    rw [called, heq]
  rw [handlerFrame]
  split
  · rfl
  · dsimp only
    split
    · split
      · exact (nodeReconnecting_workStatus _).trans hcalled
      · exact (nodeReconnecting_workStatus _).trans hcalled
    · exact hcalled

theorem handlerEvent_workStatus (n : Node) (type : EventType) (code : ℤ) :
    (handlerEvent E n type code).workStatus = n.workStatus ∨
      (handlerEvent E n type code).workStatus = .nodeClosed := by
  have hframe := handlerFrame_workStatus (E := E) n type code
  rw [handlerEvent]
  split
  · exact Or.inl rfl
  · split
    · exact Or.inl rfl
    · dsimp only
      split
      · exact Or.inr rfl
      · exact Or.inl hframe

theorem taskFailed_workStatus (n : Node) (code : ℤ) :
    (handlerTaskFailedEvent E n code).workStatus = n.workStatus ∨
      (handlerTaskFailedEvent E n code).workStatus = .nodeClosed := by
  rw [handlerTaskFailedEvent, handlerClose]
  rcases handlerEvent_workStatus (E := E) (handlerEvent E n .taskFailed code) .close closeCode with
    hc | hc
  · rw [hc]
    exact handlerEvent_workStatus n .taskFailed code
  · exact Or.inr hc

theorem nlsSendFrame_workStatus (n : Node) (ret : ℤ) :
    (nlsSendFrame n ret).workStatus = n.workStatus := by
  obtain ⟨b, heq⟩ := nlsSendFrame_spec n ret
  rw [heq]

theorem sent_workStatus (n : Node) (ret code : ℤ) :
    (if ret < 0 then handlerTaskFailedEvent E (nlsSendFrame n ret) code
      else nlsSendFrame n ret).workStatus = n.workStatus ∨
    (if ret < 0 then handlerTaskFailedEvent E (nlsSendFrame n ret) code
      else nlsSendFrame n ret).workStatus = .nodeClosed := by
  split
  · rcases taskFailed_workStatus (E := E) (nlsSendFrame n ret) code with h | h
    · exact Or.inl (h.trans (nlsSendFrame_workStatus n ret))
    · exact Or.inr h
  · exact Or.inl (nlsSendFrame_workStatus n ret)

theorem sendEnded_workStatus (n : Node) (failed : Option ℤ) :
    (sendEnded E n failed).workStatus = n.workStatus ∨
      (sendEnded E n failed).workStatus = .nodeClosed := by
  cases failed with
  | none =>
    obtain ⟨b, heq⟩ := sendEnded_none (E := E) n
    rw [heq]
    exact Or.inl rfl
  | some code => exact taskFailed_workStatus n code

theorem dnsProcess_workStatus (n : Node) :
    (dnsProcess E n).workStatus = n.workStatus ∨ (dnsProcess E n).workStatus = .nodeClosed ∨
      (dnsProcess E n).workStatus = .nodeConnecting := by
  rw [dnsProcess, checkConnectCount]
  split
  · exact Or.inl rfl
  · split
    · exact Or.inr (Or.inr rfl)
    · rcases taskFailed_workStatus (E := E) { n with retryConnectCount := 0 } sysConnectFailed with
        hs | hs
      · exact Or.inl hs
      · exact Or.inr (Or.inl hs)

def Connecting (s : ConnectStatus) : Prop := s = .nodeConnecting ∨ s = .nodeConnected

instance (s : ConnectStatus) : Decidable (Connecting s) := inferInstanceAs (Decidable (_ ∨ _))

/-- The web socket is there: frames are read. -/
def Begun (s : ConnectStatus) : Prop := s = .nodeStarting ∨ s = .nodeWakeWording ∨ s = .nodeStarted

instance (s : ConnectStatus) : Decidable (Begun s) := inferInstanceAs (Decidable (_ ∨ _ ∨ _))

theorem Begun.ne {s t : ConnectStatus} (h : Begun s) (ht : ¬ Begun t) : s ≠ t := by
  intro he
  rw [he] at h
  exact ht h

theorem not_begun {s : ConnectStatus}
    (h : Connecting s ∨ s = .nodeHandshaking ∨ s = .nodeHandshaked) : ¬ Begun s := by
  intro hb
  rcases h with (h | h) | h | h
  · exact hb.ne (by decide) h
  · exact hb.ne (by decide) h
  · exact hb.ne (by decide) h
  · exact hb.ne (by decide) h

theorem dnsProcess_not_begun (hb : ¬ Begun n.workStatus) :
    ¬ Begun (dnsProcess E n).workStatus := by
  rcases dnsProcess_workStatus (E := E) n with h | h | h
  · rwa [h]
  · rw [h]
    decide
  · rw [h]
    decide

inductive Restatused (n : Node) (e : Event) (s : ConnectStatus) : Prop
  | same (h : s = n.workStatus)
  | apart (hc : ¬ Connecting s) (hb : ¬ Begun s)
  | launched (h : e = .launch) (due : n.launchEvent = true ∨ n.reconnectEvent = true)
      (hb : ¬ Begun s)
  | connecting (hn : Connecting n.workStatus) (h : e = .connectFailed ∨ e = .connected)
      (hb : ¬ Begun s)

theorem restatused_of_closed {e : Event} {s : ConnectStatus}
    (h : s = n.workStatus ∨ s = .nodeClosed) : Restatused n e s := by
  rcases h with h | h
  · exact .same h
  · rw [h]
    exact .apart (by decide) (by decide)

theorem launch_status (n : Node) : ¬ Begun (launchEventCallback E n).workStatus := by
  rw [launchEventCallback]
  dsimp only
  split
  · exact of_decide_eq_true rfl
  · exact dnsProcess_not_begun (of_decide_eq_true rfl)

theorem stop_workStatus (n : Node) (remain failed : Option ℤ) :
    (NodeSession.stop E n remain failed).workStatus = n.workStatus ∨
      (NodeSession.stop E n remain failed).workStatus = .nodeClosed := by
  rw [NodeSession.stop]
  split
  · exact Or.inl rfl
  · split
    · exact Or.inl rfl
    · have hm : (if n.launchEvent then n else sendEnded E n remain).workStatus = n.workStatus ∨
          (if n.launchEvent then n else sendEnded E n remain).workStatus = .nodeClosed := by
        split
        · exact Or.inl rfl
        · exact sendEnded_workStatus n remain
      dsimp only
      generalize (if n.launchEvent then n else sendEnded E n remain) = m at hm ⊢
      split
      · rcases sendEnded_workStatus (E := E) { m with exitStatus := .exitStopping } failed
          with h | h
        · rw [h]
          exact hm
        · exact Or.inr h
      · exact hm

theorem step_status {e : Event} (he : e.isResponse = false) :
    Restatused n e (step E n e).workStatus := by
  cases e with
  | launch =>
    rw [step]
    split
    · rename_i hl
      exact .launched rfl (Or.inl hl) (launch_status _)
    · split
      · rename_i hr
        exact .launched rfl (Or.inr hr) (launch_status _)
      · exact .same rfl
  | connectFailed =>
    rw [step]
    split
    · rename_i hc
      exact .connecting hc (Or.inl rfl) (dnsProcess_not_begun (of_decide_eq_true rfl))
    · exact .same rfl
  | connected =>
    rw [step]
    split
    · rename_i hc
      exact .connecting (Or.inl hc) (Or.inr rfl) (of_decide_eq_true rfl)
    · exact .same rfl
  | handshaking =>
    rw [step]
    split
    · exact .apart (of_decide_eq_true rfl) (of_decide_eq_true rfl)
    · exact .same rfl
  | request sent code =>
    rw [step, socketEvent]
    split
    · exact .same rfl
    · split
      · exact .same rfl
      · rw [nodeRequestProcess]
        cases hs : n.workStatus with
        | nodeHandshaking =>
          rcases sent_workStatus (E := E) { n with workStatus := .nodeHandshaked } sent code with
            h | h
          · rw [h]
            exact .apart (of_decide_eq_true rfl) (of_decide_eq_true rfl)
          · rw [h]
            exact .apart (of_decide_eq_true rfl) (of_decide_eq_true rfl)
        | nodeHandshaked => exact restatused_of_closed (sent_workStatus n sent code)
        | nodeStarting => exact restatused_of_closed (sent_workStatus n sent code)
        | nodeWakeWording => exact restatused_of_closed (sent_workStatus n sent code)
        | nodeStarted => exact restatused_of_closed (sent_workStatus n sent code)
        | _ =>
          dsimp only
          split
          · exact restatused_of_closed (taskFailed_workStatus n code)
          · exact .same rfl
  | response r => cases he
  | timeout code =>
    rw [step, socketEvent]
    split
    · exact .same rfl
    · split
      · exact .same rfl
      · exact restatused_of_closed (taskFailed_workStatus n code)
  | sendAudio failed =>
    rw [step, NodeSession.sendAudio]
    split
    · exact .same rfl
    · exact restatused_of_closed (sendEnded_workStatus n failed)
  | stop remain failed => exact restatused_of_closed (stop_workStatus n remain failed)
  | cancel =>
    rw [step, NodeSession.cancel]
    split
    · exact .same rfl
    · split
      · exact .same rfl
      · exact .same rfl

theorem not_connecting {m : Node} (hc : ¬ Connecting n.workStatus)
    (h : m.workStatus = n.workStatus ∨ m.workStatus = .nodeClosed) : ¬ Connecting m.workStatus := by
  rcases h with h | h
  · rwa [h]
  · rw [h]
    decide

theorem frameHandled_status (hc : ¬ Connecting n.workStatus) (type : EventType) :
    ¬ Connecting (frameHandled E n type).workStatus := by
  have hset : ¬ Connecting (workStatusOf E n type).1.workStatus := by
    cases type with
    | recognitionStarted =>
      simp only [workStatusOf]
      split
      · exact of_decide_eq_true rfl
      · exact of_decide_eq_true rfl
    | transcriptionStarted =>
      simp only [workStatusOf]
      split
      · exact of_decide_eq_true rfl
      · exact of_decide_eq_true rfl
    | synthesisStarted =>
      simp only [workStatusOf]
      split
      · exact of_decide_eq_true rfl
      · exact of_decide_eq_true rfl
    | binary =>
      rw [workStatusOf]
      split
      · exact of_decide_eq_true rfl
      · exact hc
    | _ => first | exact of_decide_eq_true rfl | exact hc
  rw [frameHandled]
  split
  · exact not_connecting hset (handlerEvent_workStatus _ _ _)
  · exact hset

theorem frameEvent_status (hc : ¬ Connecting n.workStatus) (event : Option (EventType × ℤ))
    (result : ℤ) : ¬ Connecting (frameEvent E n event result).1.workStatus := by
  cases event with
  | none =>
    rw [frameEvent]
    split
    · exact hc
    · dsimp only
      split
      · exact not_connecting hc (handlerEvent_workStatus _ _ _)
      · exact hc
  | some p =>
    have hframe : ¬ Connecting (handlerFrame E n p.1 p.2).1.workStatus := by
      rwa [handlerFrame_workStatus]
    rw [frameEvent]
    split
    · exact hc
    · dsimp only
      split
      · exact hframe
      · exact frameHandled_status hframe p.1

theorem convertResult_status (hc : ¬ Connecting n.workStatus) (f : Frame) :
    ¬ Connecting (convertResult E n f).1.workStatus := by
  have hevent : ∀ type code, ¬ Connecting (handlerEvent E n type code).workStatus :=
    fun type code => not_connecting hc (handlerEvent_workStatus n type code)
  cases f with
  | close code => exact hevent _ _
  | pong => exact hevent _ _
  | binary length =>
    rw [convertResult]
    split
    · exact hc
    · exact hc
  | text t =>
    cases t with
    | empty => exact hevent _ _
    | invalid e => exact hevent _ _
    | event type code => exact hc
  | unknown => exact hevent _ _

theorem parseFrame_status (hc : ¬ Connecting n.workStatus) (f : Frame) :
    ¬ Connecting (parseFrame E n f).1.workStatus := by
  cases f with
  | close code => exact frameEvent_status hc _ _
  | pong => exact hc
  | binary length => exact frameEvent_status (convertResult_status hc _) _ _
  | text t => exact frameEvent_status (convertResult_status hc _) _ _
  | unknown => exact frameEvent_status (convertResult_status hc _) _ _

end status

end RtmpRelay.NodeSession

namespace RtmpRelay.NodeWire

open WebSocketTcp (success)
open NodeSession (Begun Connecting nlsReceiveEmpty)
open WebSocketResponse (Read)

section first
variable {E : Env}

/-- Nothing is read off a connection whose answer was not accepted. -/
structure First (w : Wire) : Prop where
  begun : Begun w.session.workStatus → w.http.httpCode = 101
  readEvent : Connecting w.session.workStatus → w.readEvent = false
  heard : w.http.httpCode ≠ 101 → w.heard = []

theorem first_invoked : First invoked :=
  ⟨fun h => absurd h (by decide), fun h => absurd h (by decide), fun _ => rfl⟩

theorem First.other {w : Wire} (h : First w) (e : Other) : First (step E w (.other e)) := by
  have hstatus := NodeSession.step_status (E := E.session) (n := w.session) e.property
  refine ⟨fun hb => ?_, fun hc => ?_, h.heard⟩
  · cases hstatus with
    | same hs => exact h.begun (hs ▸ hb)
    | apart _ hnot => exact absurd hb hnot
    | launched _ _ hnot => exact absurd hb hnot
    | connecting _ _ hnot => exact absurd hb hnot
  · show readEventAfter w e.val = false
    obtain ⟨e, he⟩ := e
    cases e with
    | launch =>
      rw [readEventAfter]
      split
      · rfl
      · rename_i hdue
        cases hstatus with
        | same hs => exact h.readEvent (hs ▸ hc)
        | apart hnot => exact absurd hc hnot
        | launched _ due => exact absurd due (by rwa [Bool.or_eq_true] at hdue)
        | connecting _ hev =>
          rcases hev with hev | hev
          · cases hev
          · cases hev
    | handshaking =>
      have hstep : Connecting (NodeSession.step E.session w.session .handshaking).workStatus := hc
      rw [readEventAfter]
      rw [NodeSession.step] at hstep
      split
      · rename_i hready
        rw [if_pos hready] at hstep
        exact absurd hstep (of_decide_eq_true rfl)
      · rename_i hready
        rw [if_neg hready] at hstep
        exact h.readEvent hstep
    | response r => cases he
    | _ =>
      cases hstatus with
      | same hs => exact h.readEvent (hs ▸ hc)
      | apart hnot => exact absurd hc hnot
      | launched hev => cases hev
      | connecting hold => exact h.readEvent hold

theorem gatewayResponse_session (w : Wire) (read : Read) :
    (gatewayResponse E w read).1.session = w.session :=
  congrArg Hearing.session (gatewayResponse_user w read)

theorem gatewayResponse_heard (w : Wire) (read : Read) :
    (gatewayResponse E w read).1.heard = w.heard :=
  congrArg Hearing.heard (gatewayResponse_user w read)

theorem webSocketResponse_status {w : Wire} (hc : ¬ Connecting w.session.workStatus) (read : Read) :
    ¬ Connecting (webSocketResponse E w read).1.session.workStatus :=
  WebSocketResponse.webSocketResponse_user (E := wireEnv E)
    (P := fun s => ¬ Connecting s.session.workStatus)
    (fun _ _ _ hs => NodeSession.parseFrame_status hs _) hc read

theorem First.frames {w : Wire} (h : First w) (hb : Begun w.session.workStatus) (read : Read) :
    First (webSocketResponse E w read).1 := by
  have hcode := h.begun hb
  have hc : ¬ Connecting w.session.workStatus := fun hc => NodeSession.not_begun (Or.inl hc) hb
  exact ⟨fun _ => hcode, fun hc' => absurd hc' (webSocketResponse_status hc read),
    fun hne => absurd hcode hne⟩

theorem gatewayResponse_kept_code {w : Wire} (hcode : w.http.httpCode ≠ 0) (read : Read) :
    (gatewayResponse E w read).1.http.httpCode = w.http.httpCode :=
  Handshake.gatewayResponse_code hcode

theorem First.answer {w : Wire} (h : First w) (hc : ¬ Connecting w.session.workStatus)
    (hb : ¬ Begun w.session.workStatus) (read : Read) : First (gatewayResponse E w read).1 := by
  refine ⟨fun hb' => ?_, fun hc' => ?_, fun hne => ?_⟩
  · rw [gatewayResponse_session] at hb'
    exact absurd hb' hb
  · rw [gatewayResponse_session] at hc'
    exact absurd hc' hc
  · rw [gatewayResponse_heard]
    apply h.heard
    intro hold
    have hkept := gatewayResponse_kept_code (E := E) (w := w) (by rw [hold]; decide) read
    exact hne (hkept.trans hold)

theorem responded_first {w : Wire} (h : First w) (hr : w.readEvent = true) (r : Reading) :
    First (responded E w r).1 := by
  have hc : ¬ Connecting w.session.workStatus := by
    intro hc
    rw [h.readEvent hc] at hr
    cases hr
  cases responded_cases (E := E) w r with
  | nothing heq =>
    rw [heq]
    exact h
  | answer hs heq =>
    rw [heq]
    exact h.answer hc (NodeSession.not_begun (Or.inr hs)) r.read
  | accepted hs hzero _ heq =>
    have hcode : (gatewayResponse E w r.read).1.http.httpCode = 101 :=
      Handshake.gatewayResponse_accepted hzero
    rw [heq]
    exact ⟨fun _ => hcode, fun hc' => absurd hc' (of_decide_eq_true rfl),
      fun hne => absurd hcode hne⟩
  | frames hs _ heq =>
    have hb : Begun w.session.workStatus := by
      rcases hs with hs | hs | hs | hs
      · exact Or.inl hs
      · exact Or.inr (Or.inl hs)
      · exact Or.inr (Or.inr hs)
      · exact absurd (Or.inl hs) hc
    have hframes := h.frames (E := E) hb r.read
    rw [heq]
    exact ⟨hframes.begun, hframes.readEvent, hframes.heard⟩

theorem First.taskFailed {w : Wire} (h : First w) (code : ℤ) :
    First (w.withSession (NodeSession.handlerTaskFailedEvent E.session w.session code)) := by
  have hstatus := NodeSession.taskFailed_workStatus (E := E.session) w.session code
  refine ⟨fun hb => ?_, fun hc => ?_, h.heard⟩
  · rw [Wire.withSession_session] at hb
    rcases hstatus with hs | hs
    · exact h.begun (hs ▸ hb)
    · rw [hs] at hb
      exact absurd hb (by decide)
  · rw [Wire.withSession_session] at hc
    rcases hstatus with hs | hs
    · exact h.readEvent (hs ▸ hc)
    · rw [hs] at hc
      exact absurd hc (by decide)

theorem First.step {w : Wire} (h : First w) (e : Event) : First (step E w e) := by
  cases e with
  | read r =>
    rcases step_read_cases (E := E) w r with heq | ⟨hr, -, heq⟩
    · rw [heq]
      exact h
    · have hfirst := responded_first (E := E) h hr r
      rw [heq]
      rcases nodeResponseProcess_cases (E := E) w r with heq | heq
      · rw [heq]
        exact hfirst
      · rw [heq]
        exact hfirst.taskFailed r.code
  | other e => exact h.other e

theorem First.run {w : Wire} (h : First w) (es : List Event) : First (run E w es) := by
  induction es generalizing w with
  | nil => exact h
  | cons e es ih => exact ih (h.step e)

theorem responded_code {w : Wire} (hcode : w.http.httpCode ≠ 0) (r : Reading) :
    (responded E w r).1.http.httpCode = w.http.httpCode := by
  have hanswer := gatewayResponse_kept_code (E := E) hcode r.read
  cases responded_cases (E := E) w r with
  | nothing heq => rw [heq]
  | answer _ heq => rw [heq, hanswer]
  | accepted _ _ _ heq =>
    rw [heq]
    exact hanswer
  | frames _ _ heq =>
    rw [heq]
    rfl

theorem step_code {w : Wire} (hcode : w.http.httpCode ≠ 0) (e : Event) :
    (step E w e).http.httpCode = w.http.httpCode := by
  cases e with
  | read r =>
    have hresponded := responded_code (E := E) hcode r
    rcases step_read_cases (E := E) w r with heq | ⟨-, -, heq⟩
    · rw [heq]
    · rw [heq]
      rcases nodeResponseProcess_cases (E := E) w r with heq | heq
      · rw [heq, hresponded]
      · rw [heq]
        exact hresponded
  | other e => rfl

theorem run_code {w : Wire} (hcode : w.http.httpCode ≠ 0) (es : List Event) :
    (run E w es).http.httpCode = w.http.httpCode := by
  induction es generalizing w with
  | nil => rfl
  | cons e es ih =>
    have hstep := step_code (E := E) hcode e
    exact (ih (by rwa [hstep])).trans hstep

/-- A whole answer is accepted by a node that accepted one before, whatever its status line. -/
theorem responded_accepted {w : Wire} (hcode : w.http.httpCode = 101)
    (hs : w.session.workStatus = .nodeHandshaking ∨ w.session.workStatus = .nodeHandshaked)
    {b : UInt8} {chunk : List UInt8} (hrealloc : ∀ n, E.realloc n = true)
    (hwhole : Handshake.Whole
      (Handshake.content (wireEnv E) (w.node.readEvBuffer ++ (b :: chunk)) (b :: chunk)))
    (sent code : ℤ) :
    (responded E w ⟨.bytes (b :: chunk), sent, code⟩).1.session.workStatus = .nodeStarting ∧
      (responded E w ⟨.bytes (b :: chunk), sent, code⟩).2 = sent := by
  have hno : ¬ (WebSocketResponse.readBufferSize < (w.node.readEvBuffer ++ (b :: chunk)).length ∧
      (wireEnv E).realloc ((w.node.readEvBuffer ++ (b :: chunk)).length + 1) = false) := by
    intro hc
    have hr : E.realloc ((w.node.readEvBuffer ++ (b :: chunk)).length + 1) = false := hc.2
    rw [hrealloc] at hr
    cases hr
  have hzero : (gatewayResponse E w (.bytes (b :: chunk))).2 = 0 := by
    rw [gatewayResponse]
    simp only [Handshake.gatewayResponse, if_neg hno,
      Handshake.responsePackage_whole hcode hwhole, if_true]
  rw [responded_shaking hs, if_pos hzero, Wire.withSession_session,
    NodeSession.nlsSendFrame_workStatus]
  exact ⟨rfl, rfl⟩

/-- The status of the first whole answer decides over every later one: after a refusal nothing is
ever read off the web socket, and after an acceptance any header is accepted. -/
theorem first_status_decides (hrealloc : ∀ n, E.realloc n = true) {es : List Event}
    (hcode : (run E invoked es).http.httpCode ≠ 0) (es' : List Event) :
    (run E (run E invoked es) es').http.httpCode = (run E invoked es).http.httpCode ∧
      ((run E invoked es).http.httpCode ≠ 101 →
        (run E (run E invoked es) es').heard = [] ∧
          ¬ Begun (run E (run E invoked es) es').session.workStatus) ∧
      ((run E invoked es).http.httpCode = 101 →
        ((run E (run E invoked es) es').session.workStatus = .nodeHandshaking ∨
          (run E (run E invoked es) es').session.workStatus = .nodeHandshaked) →
        ∀ (b : UInt8) (chunk : List UInt8) (sent code : ℤ),
          Handshake.Whole (Handshake.content (wireEnv E)
            ((run E (run E invoked es) es').node.readEvBuffer ++ (b :: chunk)) (b :: chunk)) →
          (responded E (run E (run E invoked es) es')
              ⟨.bytes (b :: chunk), sent, code⟩).1.session.workStatus = .nodeStarting ∧
            (responded E (run E (run E invoked es) es') ⟨.bytes (b :: chunk), sent, code⟩).2 =
              sent) := by
  have hkept := run_code (E := E) hcode es'
  have hfirst := (first_invoked.run (E := E) es).run (E := E) es'
  refine ⟨hkept, fun hne => ⟨?_, fun hb => ?_⟩, fun h101 hs b chunk sent code hwhole => ?_⟩
  · exact hfirst.heard (by rwa [hkept])
  · exact hne (hkept.symm.trans (hfirst.begun hb))
  · exact responded_accepted (hkept.trans h101) hs hrealloc hwhole sent code

def badGateway : List Event :=
  answered "HTTP/1.1 502 Bad Gateway\r\n\r\n" NodeSession.defaultErrorCode

theorem badGateway_code : (run transcriber invoked badGateway).http.httpCode = 502 := by
  decide +kernel

theorem first_status_decides_gateway :
    (run transcriber (run transcriber invoked badGateway) switching).heard = [] ∧
      ¬ Begun (run transcriber (run transcriber invoked badGateway)
        switching).session.workStatus := by
  have hcode : (run transcriber invoked badGateway).http.httpCode ≠ 0 := by
    rw [badGateway_code]
    decide
  refine (first_status_decides (fun _ => rfl) hcode switching).2.1 ?_
  rw [badGateway_code]
  decide

end first

end RtmpRelay.NodeWire
