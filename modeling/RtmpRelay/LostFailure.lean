import RtmpRelay.SessionEnd

/-!
# Failures the user never hears of

A failure that is ignored ends the session in silence unless the reconnect
event launches the node again. It was not added when the reconnection under
way is the one that failed, nor when `event_add` failed; and after a stop its
launch does nothing.
-/

namespace RtmpRelay.NodeSession

open WebSocketTcp
open AudioUpload (ConnectStatus ExitStatus)

def Happening.heard : Happening → Option EventType
  | .called type => some type
  | _ => none

def calls (n : Node) : List EventType := n.history.filterMap Happening.heard

theorem calls_append {n n' : Node} {t : List Happening} (h : n'.history = n.history ++ t) :
    calls n' = calls n ++ t.filterMap Happening.heard := by
  rw [calls, h, List.filterMap_append]
  rfl

section silence
variable {E : Env} {n : Node}

structure Dead (n : Node) : Prop where
  workStatus : n.workStatus = .nodeClosed
  launchEvent : n.launchEvent = false
  reconnectEvent : n.reconnectEvent = false

theorem socketEvent_same {handle : Node → Node} (h : handle n = n) : socketEvent n handle = n := by
  rw [socketEvent]
  split
  · rfl
  · split
    · rfl
    · exact h

theorem sendAudio_same (h : n.workStatus ≠ .nodeStarted) (failed : Option ℤ) :
    NodeSession.sendAudio E n failed = n := if_pos (Or.inl h)

theorem request_refused (hs : n.workStatus = .nodeClosed ∨ n.workStatus = .nodeInvoked)
    (sent code : ℤ) : nodeRequestProcess E n sent code = handlerTaskFailedEvent E n code := by
  have hneg : -invalidWorkStatus < 0 := by decide
  rcases hs with hs | hs
  · rw [nodeRequestProcess, hs]
    exact if_pos hneg
  · rw [nodeRequestProcess, hs]
    exact if_pos hneg

theorem Dead.step (h : Dead n) (e : Event) : step E n e = n := by
  have hl : ¬ n.launchEvent = true := Bool.eq_false_iff.mp h.launchEvent
  have hr : ¬ n.reconnectEvent = true := Bool.eq_false_iff.mp h.reconnectEvent
  have hs := h.workStatus
  cases e with
  | launch => rw [NodeSession.step, if_neg hl, if_neg hr]
  | connectFailed =>
    rw [NodeSession.step, hs]
    exact if_neg (by decide)
  | connected =>
    rw [NodeSession.step, hs]
    exact if_neg (by decide)
  | handshaking =>
    rw [NodeSession.step, hs]
    exact if_neg fun hf => absurd hf.1 (by decide)
  | request sent code =>
    rw [NodeSession.step]
    refine socketEvent_same ?_
    rw [request_refused (Or.inl hs), taskFailed_closed hs]
  | response r =>
    rw [NodeSession.step]
    exact socketEvent_same (response_closed hs r)
  | timeout code =>
    rw [NodeSession.step]
    exact socketEvent_same (taskFailed_closed hs code)
  | sendAudio failed =>
    refine sendAudio_same ?_ failed
    rw [hs]
    decide
  | stop remain failed =>
    rw [NodeSession.step, NodeSession.stop, hs]
    split
    · rfl
    · exact if_pos (by decide)
  | cancel =>
    rw [NodeSession.step, NodeSession.cancel, hs]
    split
    · rfl
    · exact if_pos (by decide)

theorem Dead.run (h : Dead n) (es : List Event) : run E n es = n := by
  induction es with
  | nil => rfl
  | cons e es ih =>
    show NodeSession.run E (NodeSession.step E n e) es = n
    rw [h.step, ih]

/-- Stopped, with a reconnection under way. -/
structure Hushed (E : Env) (n : Node) : Prop where
  enabled : E.enableReconnect = true
  launchEvent : n.launchEvent = false
  state : n.state = .triggerReconnection
  count : n.reconnectedCount ≤ maxTryCount
  workStatus : n.workStatus = .nodeClosed ∨ n.workStatus = .nodeInvoked
  exitStatus : n.exitStatus = .exitStopping ∨ n.exitStatus = .exitCancel

theorem Hushed.failed (h : Hushed E n) (code : ℤ) :
    Hushed E (handlerTaskFailedEvent E n code) ∧
      calls (handlerTaskFailedEvent E n code) = calls n := by
  by_cases ho : Open n
  · have hk : Kept E n code := ⟨h.enabled, Or.inl ⟨Or.inr h.state, h.count⟩⟩
    have heq := kept_busy ho hk h.state
    have hcalls : calls (handlerTaskFailedEvent E n code) =
        calls n ++ [Happening.ignored .taskFailed, .ignored .close].filterMap Happening.heard :=
      calls_append (congrArg Node.history heq)
    have hnil : [Happening.ignored .taskFailed, .ignored .close].filterMap Happening.heard = [] :=
      rfl
    refine ⟨?_, by rw [hcalls, hnil, List.append_nil]⟩
    rw [heq]
    exact ⟨h.enabled, h.launchEvent, h.state, h.count, Or.inl rfl, h.exitStatus⟩
  · have hsame : handlerTaskFailedEvent E n code = n := by
      rcases h.workStatus with hs | hs
      · exact taskFailed_closed hs code
      · rcases h.exitStatus with hx | hx
        · refine absurd ⟨?_, ?_, ?_⟩ ho
          · rw [hs]
            decide
          · rw [hs]
            decide
          · rw [hx]
            decide
        · exact taskFailed_cancelled hx code
    rw [hsame]
    exact ⟨h, rfl⟩

theorem Hushed.ne {s : ConnectStatus} (h : Hushed E n) (hc : s ≠ .nodeClosed)
    (hi : s ≠ .nodeInvoked) : n.workStatus ≠ s := by
  rcases h.workStatus with hs | hs
  · exact fun hf => hc (hf.symm.trans hs)
  · exact fun hf => hi (hf.symm.trans hs)

theorem Hushed.socketEvent {handle : Node → Node} (h : Hushed E n)
    (hh : Hushed E (handle n) ∧ calls (handle n) = calls n) :
    Hushed E (socketEvent n handle) ∧ calls (socketEvent n handle) = calls n := by
  rw [NodeSession.socketEvent]
  split
  · exact ⟨h, rfl⟩
  · split
    · exact ⟨h, rfl⟩
    · exact hh

theorem Hushed.step (h : Hushed E n) (e : Event) :
    Hushed E (step E n e) ∧ calls (step E n e) = calls n := by
  have hl : ¬ n.launchEvent = true := Bool.eq_false_iff.mp h.launchEvent
  cases e with
  | launch =>
    rw [NodeSession.step, if_neg hl]
    split
    · rw [launchEventCallback, if_pos h.exitStatus.symm]
      refine ⟨⟨h.enabled, h.launchEvent, h.state, h.count, Or.inr rfl, h.exitStatus⟩, ?_⟩
      exact (calls_append rfl).trans (List.append_nil _)
    · exact ⟨h, rfl⟩
  | connectFailed =>
    have hs : ¬ (n.workStatus = .nodeConnecting ∨ n.workStatus = .nodeConnected) := fun hf =>
      hf.elim (h.ne (by decide) (by decide)) (h.ne (by decide) (by decide))
    rw [NodeSession.step, if_neg hs]
    exact ⟨h, rfl⟩
  | connected =>
    rw [NodeSession.step, if_neg (h.ne (by decide) (by decide))]
    exact ⟨h, rfl⟩
  | handshaking =>
    rw [NodeSession.step, if_neg fun hf => h.ne (by decide) (by decide) hf.1]
    exact ⟨h, rfl⟩
  | request sent code =>
    rw [NodeSession.step]
    refine h.socketEvent ?_
    rw [request_refused h.workStatus]
    exact h.failed code
  | response r =>
    rw [NodeSession.step]
    refine h.socketEvent ?_
    rcases h.workStatus with hs | hs
    · rw [response_closed hs]
      exact ⟨h, rfl⟩
    · have heq : nodeResponseProcess E n r = handlerTaskFailedEvent E n r.code := by
        have hneg : -invalidWorkStatus < 0 := by decide
        have hc : ¬ n.workStatus = .nodeClosed := by
          rw [hs]
          decide
        have hne : ¬ -invalidWorkStatus = -invalidRequest := by decide
        rw [nodeResponseProcess, responded, hs]
        dsimp only
        rw [if_pos hneg, if_neg hc, if_neg hne]
      rw [heq]
      exact h.failed r.code
  | timeout code =>
    rw [NodeSession.step]
    exact h.socketEvent (h.failed code)
  | sendAudio failed =>
    rw [NodeSession.step, sendAudio_same (h.ne (by decide) (by decide))]
    exact ⟨h, rfl⟩
  | stop remain failed =>
    rw [NodeSession.step, NodeSession.stop, if_pos h.exitStatus]
    exact ⟨h, rfl⟩
  | cancel =>
    rw [NodeSession.step, NodeSession.cancel]
    split
    · exact ⟨h, rfl⟩
    · split
      · exact ⟨h, rfl⟩
      · exact ⟨⟨h.enabled, h.launchEvent, h.state, h.count, h.workStatus, Or.inr rfl⟩, rfl⟩

theorem Hushed.run (h : Hushed E n) (es : List Event) : calls (run E n es) = calls n := by
  induction es generalizing n with
  | nil => rfl
  | cons e es ih => exact (ih (h.step e).1).trans (h.step e).2

end silence

section lost
variable {E : Env} {n : Node}

/-- A failure that is ignored, with no launch behind it that connects again. -/
def Lost (E : Env) (n : Node) (code : ℤ) : Prop :=
  E.enableReconnect = true ∧
    (n.state = .triggerReconnection ∨
      Retriable code ∧ n.reconnectedCount < maxTryCount ∧
        (n.exitStatus = .exitStopping ∨ E.eventAdd n.adds = false))

instance (code : ℤ) : Decidable (Lost E n code) := inferInstanceAs (Decidable (_ ∧ _))

theorem calls_ignored {n' : Node} {t : List Happening} (h : n'.history = n.history ++ t)
    (ht : t.filterMap Happening.heard = []) : calls n' = calls n := by
  rw [calls_append h, ht, List.append_nil]

theorem Live.lost (h : Live n) (hx : n.exitStatus ≠ .exitCancel) {code : ℤ} (hl : Lost E n code)
    (es : List Event) : calls (run E (handlerTaskFailedEvent E n code) es) = calls n := by
  obtain ⟨hE, hs⟩ := hl
  by_cases ht : n.state = .triggerReconnection
  · have hk : Kept E n code := ⟨hE, Or.inl ⟨Or.inr ht, h.count⟩⟩
    have heq := kept_busy (h.open hx) hk ht
    have hdead : Dead (handlerTaskFailedEvent E n code) := by
      rw [heq]
      exact ⟨rfl, h.launchEvent, h.reconnectEvent⟩
    rw [hdead.run]
    exact calls_ignored (congrArg Node.history heq) rfl
  · obtain ⟨hr, hc, hs⟩ := hs.resolve_left ht
    have hidle : n.state = .noReconnection ∨ n.state = .newReconnectionStarting :=
      n.state.idle_or_busy.resolve_right fun hb => hb.elim h.state ht
    have hk : Kept E n code := ⟨hE, Or.inr ⟨hidle, hr, hc⟩⟩
    cases ha : E.eventAdd n.adds with
    | true =>
      have heq := kept_added (h.open hx) hk hidle ha
      have hx' : n.exitStatus = .exitStopping :=
        hs.resolve_right fun hf => absurd (ha.symm.trans hf) (by decide)
      have hhushed : Hushed E (handlerTaskFailedEvent E n code) := by
        rw [heq]
        exact ⟨hE, h.launchEvent, rfl, hc, Or.inl rfl, Or.inl hx'⟩
      rw [hhushed.run]
      exact calls_ignored (congrArg Node.history heq) rfl
    | false =>
      have heq := kept_refused (h.open hx) hk hidle ha
      have hdead : Dead (handlerTaskFailedEvent E n code) := by
        rw [heq]
        exact ⟨rfl, h.launchEvent, h.reconnectEvent⟩
      rw [hdead.run]
      exact calls_ignored (congrArg Node.history heq) rfl

def reconnected : List Event :=
  [.launch, .connected, .handshaking, .response ⟨0, .failed, 0, 0⟩,
    .response ⟨0, .frames [.text (.event .transcriptionStarted 0)], 0, 0⟩]

theorem launch_connects (hl : n.launchEvent = false) (hr : n.reconnectEvent = true)
    (hx : n.exitStatus = .exitInvalid) (hk : n.retryConnectCount = 0) :
    step E n .launch =
      { n with
        workStatus := .nodeConnecting
        reconnectEvent := false
        retryConnectCount := 1
        history := n.history ++ [.launched] } := by
  have hl' : ¬ n.launchEvent = true := Bool.eq_false_iff.mp hl
  have hx₁ : ¬ (n.exitStatus = .exitCancel ∨ n.exitStatus = .exitStopping) := by
    rw [hx]
    decide
  have hx₂ : ¬ n.exitStatus = .exitCancel := fun hf => hx₁ (Or.inl hf)
  have hlt : 0 < NodeSession.retryConnectCount := by decide
  rw [step, if_neg hl', if_pos hr, launchEventCallback]
  dsimp only
  rw [if_neg hx₁, dnsProcess]
  dsimp only
  rw [if_neg hx₂, checkConnectCount, hk]
  dsimp only
  rw [if_pos hlt]
  rfl

def opened (E : Env) (n : Node) : Node :=
  { called n .transcriptionStarted false with
    workStatus := if E.speechWakeWordDialog then .nodeWakeWording else .nodeStarted
    state := .noReconnection }

theorem started_opened (hs : n.workStatus = .nodeStarting) (hx : n.exitStatus ≠ .exitCancel) :
    nodeResponseProcess E n ⟨0, .frames [.text (.event .transcriptionStarted 0)], 0, 0⟩ =
      nlsSendFrame (opened E n) 0 := by
  have hv : n.workStatus ≠ .nodeInvalid := by
    rw [hs]
    decide
  have ht : EventType.transcriptionStarted ≠ .taskFailed := by decide
  have hframe : parseFrame E n (.text (.event .transcriptionStarted 0)) =
      (opened E n, success) := by
    show frameEvent E n (some (.transcriptionStarted, 0)) success = _
    rw [frameEvent, if_neg hx, handlerFrame_called hv ht (by decide)]
    rfl
  have hopened : (opened E n).workStatus = .nodeStarted ∨
      (opened E n).workStatus = .nodeWakeWording := by
    rw [opened]
    dsimp only
    split
    · exact Or.inr rfl
    · exact Or.inl rfl
  have hweb : webSocketResponse E n (.frames [.text (.event .transcriptionStarted 0)]) =
      (opened E n, success) := by
    rw [webSocketResponse, parseFrames, hframe]
    rfl
  have hr : responded E n ⟨0, .frames [.text (.event .transcriptionStarted 0)], 0, 0⟩ =
      (nlsSendFrame (opened E n) 0, 0) := by
    rw [responded, hs]
    dsimp only
    rw [hweb]
    exact if_pos hopened
  have hnonneg : ¬ (0 : ℤ) < 0 := by decide
  rw [nodeResponseProcess, hr]
  exact if_neg hnonneg

theorem connected_calls (hs : n.workStatus = .nodeConnecting) (hl : n.launchEvent = false)
    (hx : n.exitStatus = .exitInvalid) :
    (run E n [.connected, .handshaking, .response ⟨0, .failed, 0, 0⟩,
      .response ⟨0, .frames [.text (.event .transcriptionStarted 0)], 0, 0⟩]).history =
        n.history ++ [.called .transcriptionStarted] := by
  have hx' : ¬ n.exitStatus = .exitCancel := by
    rw [hx]
    decide
  have hl' : ¬ n.launchEvent = true := Bool.eq_false_iff.mp hl
  have h₁ : step E n .connected = { n with workStatus := .nodeConnected } := if_pos hs
  have h₂ : step E { n with workStatus := .nodeConnected } .handshaking =
      { n with workStatus := .nodeHandshaking } := if_pos ⟨rfl, hx'⟩
  have h₃ : step E { n with workStatus := .nodeHandshaking } (.response ⟨0, .failed, 0, 0⟩) =
      { n with
        workStatus := .nodeStarting
        state := .newReconnectionStarting
        isFirstBinaryFrame := false } := by
    rw [step, socketEvent]
    dsimp only
    rw [if_neg hl', if_neg hx']
    rfl
  have h₄ : step E { n with
        workStatus := .nodeStarting
        state := .newReconnectionStarting
        isFirstBinaryFrame := false }
      (.response ⟨0, .frames [.text (.event .transcriptionStarted 0)], 0, 0⟩) =
        nlsSendFrame (opened E { n with
          workStatus := .nodeStarting
          state := .newReconnectionStarting
          isFirstBinaryFrame := false }) 0 := by
    rw [step, socketEvent]
    dsimp only
    rw [if_neg hl', if_neg hx']
    exact started_opened rfl hx'
  rw [run, List.foldl_cons, List.foldl_cons, List.foldl_cons, List.foldl_cons, List.foldl_nil, h₁,
    h₂, h₃, h₄]
  rfl

theorem reconnected_calls (hl : n.launchEvent = false) (hr : n.reconnectEvent = true)
    (hx : n.exitStatus = .exitInvalid) (hk : n.retryConnectCount = 0) :
    (run E n reconnected).history = n.history ++ [.launched, .called .transcriptionStarted] := by
  have hlaunch := launch_connects (E := E) hl hr hx hk
  have hcalled := connected_calls (E := E) (n := step E n .launch)
  rw [hlaunch] at hcalled
  show (run E (step E n .launch) _).history = _
  rw [hlaunch, hcalled rfl hl hx, List.append_assoc]
  rfl

/-- The user never hears of a failure if and only if it is lost. -/
theorem Live.lost_iff (h : Live n) (hx : n.exitStatus ≠ .exitCancel) (code : ℤ) :
    (∀ es, calls (run E (handlerTaskFailedEvent E n code) es) = calls n) ↔ Lost E n code := by
  refine ⟨fun hsilent => ?_, fun hl es => h.lost hx hl es⟩
  by_contra hnot
  by_cases hk : Kept E n code
  · have ht : n.state ≠ .triggerReconnection := fun ht => hnot ⟨hk.1, Or.inl ht⟩
    have hidle : n.state = .noReconnection ∨ n.state = .newReconnectionStarting :=
      n.state.idle_or_busy.resolve_right fun hb => hb.elim h.state ht
    obtain ⟨hr, hc⟩ : Retriable code ∧ n.reconnectedCount < maxTryCount := by
      rcases hk.2 with ⟨hb, -⟩ | ⟨-, hr, hc⟩
      · exact absurd hb (ReconnectionState.not_busy hidle)
      · exact ⟨hr, hc⟩
    have ha : E.eventAdd n.adds = true := by
      by_contra hf
      exact hnot ⟨hk.1, Or.inr ⟨hr, hc, Or.inr (Bool.eq_false_iff.mpr hf)⟩⟩
    have hstop : n.exitStatus ≠ .exitStopping := fun hf =>
      hnot ⟨hk.1, Or.inr ⟨hr, hc, Or.inl hf⟩⟩
    have hinv : n.exitStatus = .exitInvalid := by
      cases he : n.exitStatus with
      | exitInvalid => rfl
      | exitStopping => exact absurd he hstop
      | exitCancel => exact absurd he hx
    have heq := kept_added (h.open hx) hk hidle ha
    have hcalls := hsilent reconnected
    have hadd : calls (run E (handlerTaskFailedEvent E n code) reconnected) =
        calls n ++ [.transcriptionStarted] := by
      rw [heq]
      refine (calls_append (reconnected_calls ?_ ?_ ?_ ?_)).trans ?_
      · exact h.launchEvent
      · rfl
      · exact hinv
      · rfl
      · rw [calls_append (n := n) rfl, List.append_assoc]
        rfl
    have hself : calls n ++ [EventType.transcriptionStarted] = calls n := hadd.symm.trans hcalls
    exact absurd (List.append_right_eq_self.mp hself) (by decide)
  · obtain ⟨s, -, heq⟩ := taskFailed_reported (h.open hx) (fun hw => absurd hw h.state) hk
    have hcalls := hsilent []
    have hadd : calls (handlerTaskFailedEvent E n code) = calls n ++ [.taskFailed, .close] :=
      calls_append (congrArg Node.history heq)
    have hself : calls n ++ [EventType.taskFailed, .close] = calls n := hadd.symm.trans hcalls
    exact absurd (List.append_right_eq_self.mp hself) (by decide)

/-- From any state a tidy run reaches, a failure is never heard of if and only if it is lost. -/
theorem failure_lost_iff {es : List Event} (ht : TidyRun E invoked es)
    (hl : (run E invoked es).launchEvent = false)
    (hc : (run E invoked es).workStatus ≠ .nodeClosed)
    (hx : (run E invoked es).exitStatus ≠ .exitCancel) (code : ℤ) :
    (∀ es', calls (run E (handlerTaskFailedEvent E (run E invoked es) code) es') =
        calls (run E invoked es)) ↔ Lost E (run E invoked es) code :=
  ((phase_run ht).to_live hl hc).lost_iff hx code

theorem failure_lost_iff_transcriber :
    calls (run transcriber (handlerTaskFailedEvent transcriber
        (run transcriber invoked (connecting ++ [.timeout 10000002, .launch])) 10000003)
          [.launch, .connected]) = [.transcriptionStarted] := by
  have ht : TidyRun transcriber invoked (connecting ++ [.timeout 10000002, .launch]) :=
    tidyRun_connecting (by decide)
  have hc : (run transcriber invoked (connecting ++ [.timeout 10000002, .launch])).workStatus =
      .nodeConnecting := rfl
  have hl : Lost transcriber
      (run transcriber invoked (connecting ++ [.timeout 10000002, .launch])) 10000003 :=
    ⟨rfl, Or.inl rfl⟩
  have hcalls : calls (run transcriber invoked (connecting ++ [.timeout 10000002, .launch])) =
      [.transcriptionStarted] := rfl
  rw [← hcalls]
  refine (failure_lost_iff ht rfl ?_ ?_ 10000003).mpr hl [.launch, .connected]
  · rw [hc]
    decide
  · decide

end lost

end RtmpRelay.NodeSession
