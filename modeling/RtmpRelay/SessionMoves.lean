import Mathlib.Logic.Relation
import RtmpRelay.NodeSession

/-!
# What a step of a session can do

A failure is reported as two callbacks in a row, or ignored as a whole, with
the reconnect event added or not. Every step of a node is a sequence of moves:
a failure, the `Close` behind a result, a callback of another type, a launch,
or a change that no callback hears of.
-/

namespace RtmpRelay.NodeSession

open WebSocketTcp
open AudioUpload (ConnectStatus ExitStatus)

theorem ReconnectionState.idle_or_busy (s : ReconnectionState) :
    (s = .noReconnection ∨ s = .newReconnectionStarting) ∨
      (s = .willReconnect ∨ s = .triggerReconnection) := by
  cases s <;> decide

theorem ReconnectionState.not_busy {s : ReconnectionState}
    (h : s = .noReconnection ∨ s = .newReconnectionStarting) :
    ¬ (s = .willReconnect ∨ s = .triggerReconnection) := by
  rcases h with rfl | rfl
  · decide
  · decide

theorem ReconnectionState.not_idle {s : ReconnectionState}
    (h : s = .willReconnect ∨ s = .triggerReconnection) :
    ¬ (s = .noReconnection ∨ s = .newReconnectionStarting) := fun hi => not_busy hi h

theorem ReconnectionState.trigger_ne_will :
    ReconnectionState.triggerReconnection ≠ .willReconnect := by decide

theorem ReconnectionState.idle_ne_will {s : ReconnectionState}
    (h : s = .noReconnection ∨ s = .newReconnectionStarting) : s ≠ .willReconnect :=
  fun hw => not_busy h (Or.inl hw)

section failure
variable {E : Env} {n : Node}

/-- The node takes callbacks: it is neither closed nor cancelled. -/
structure Open (n : Node) : Prop where
  valid : n.workStatus ≠ .nodeInvalid
  notClosed : n.workStatus ≠ .nodeClosed
  exit : n.exitStatus ≠ .exitCancel

theorem handlerEvent_cancelled (hx : n.exitStatus = .exitCancel) (type : EventType) (code : ℤ) :
    handlerEvent E n type code = n := if_pos hx

theorem handlerEvent_closed (hc : n.workStatus = .nodeClosed) (type : EventType) (code : ℤ) :
    handlerEvent E n type code = n := by
  rw [handlerEvent, if_pos hc]
  exact ite_self n

theorem taskFailed_cancelled (hx : n.exitStatus = .exitCancel) (code : ℤ) :
    handlerTaskFailedEvent E n code = n := by
  rw [handlerTaskFailedEvent, handlerClose, handlerEvent_cancelled hx, handlerEvent_cancelled hx]

theorem taskFailed_closed (hc : n.workStatus = .nodeClosed) (code : ℤ) :
    handlerTaskFailedEvent E n code = n := by
  rw [handlerTaskFailedEvent, handlerClose, handlerEvent_closed hc, handlerEvent_closed hc]

theorem handlerEvent_open (h : Open n) (code : ℤ) :
    handlerEvent E n .taskFailed code = (handlerFrame E n .taskFailed code).1 := by
  rw [handlerEvent, if_neg h.exit, if_neg h.notClosed]
  exact if_neg (by decide)

theorem handlerClose_open (h : Open n) :
    handlerClose E n =
      { (handlerFrame E n .close closeCode).1 with workStatus := .nodeClosed } := by
  rw [handlerClose, handlerEvent, if_neg h.exit, if_neg h.notClosed]
  exact if_pos rfl

theorem handlerFrame_taskFailed (h : Open n) (code : ℤ) :
    handlerFrame E n .taskFailed code =
      (called (ignoreCallbackWhenReconnecting E n .taskFailed code).1 .taskFailed
        (ignoreCallbackWhenReconnecting E n .taskFailed code).2, success) := by
  rw [handlerFrame, if_neg h.valid]
  exact if_neg (by decide)

/-- Whether a failure finds the node with a reconnection under way or starts one. -/
def Kept (E : Env) (n : Node) (code : ℤ) : Prop :=
  E.enableReconnect = true ∧
    ((n.state = .willReconnect ∨ n.state = .triggerReconnection) ∧
        n.reconnectedCount ≤ maxTryCount ∨
      (n.state = .noReconnection ∨ n.state = .newReconnectionStarting) ∧ Retriable code ∧
        n.reconnectedCount < maxTryCount)

instance (code : ℤ) : Decidable (Kept E n code) := inferInstanceAs (Decidable (_ ∧ _))

def failing (n : Node) : Node :=
  if n.state = .noReconnection ∨ n.state = .newReconnectionStarting then
    { n with reconnectedCount := n.reconnectedCount + 1, state := .willReconnect }
  else n

theorem ignore_kept {code : ℤ} (h : Kept E n code) :
    ignoreCallbackWhenReconnecting E n .taskFailed code = (failing n, true) := by
  obtain ⟨hE, ⟨hs, hc⟩ | ⟨hs, hr, hc⟩⟩ := h
  · have hno := ReconnectionState.not_idle hs
    simp only [ignoreCallbackWhenReconnecting, hE, failing, hno, hs, hc, if_true, if_false,
      and_false, true_and, true_or]
  · have hc' : n.reconnectedCount + 1 ≤ maxTryCount := hc
    simp only [ignoreCallbackWhenReconnecting, hE, failing, hs, hr, hc', if_true, true_or, and_self]

theorem ignore_reported {code : ℤ} (h : ¬ Kept E n code) :
    ∃ c s, ignoreCallbackWhenReconnecting E n .taskFailed code =
        ({ n with reconnectedCount := c, state := s }, false) ∧
      (s = n.state ∨ s = .noReconnection) ∧
      (E.enableReconnect = true → s = .noReconnection ∨ s = .newReconnectionStarting) := by
  by_cases hE : E.enableReconnect = true
  · by_cases hs : n.state = .noReconnection ∨ n.state = .newReconnectionStarting
    · by_cases hr : Retriable code
      · have hc : ¬ n.reconnectedCount + 1 ≤ maxTryCount := fun hc => h ⟨hE, Or.inr ⟨hs, hr, hc⟩⟩
        refine ⟨n.reconnectedCount + 1, .noReconnection, ?_, Or.inr rfl, fun _ => Or.inl rfl⟩
        simp only [ignoreCallbackWhenReconnecting, hE, hs, hr, hc, if_true, if_false, true_or,
          and_self]
      · refine ⟨n.reconnectedCount, n.state, ?_, Or.inl rfl, fun _ => hs⟩
        have hno := ReconnectionState.not_busy hs
        simp only [ignoreCallbackWhenReconnecting, hE, hr, hno, if_true, if_false, false_and,
          and_false]
    · have hs' := n.state.idle_or_busy.resolve_left hs
      have hc : ¬ n.reconnectedCount ≤ maxTryCount := fun hc => h ⟨hE, Or.inl ⟨hs', hc⟩⟩
      refine ⟨n.reconnectedCount, .noReconnection, ?_, Or.inr rfl, fun _ => Or.inl rfl⟩
      simp only [ignoreCallbackWhenReconnecting, hE, hs, hs', hc, if_true, if_false, and_false,
        true_and, true_or]
  · refine ⟨n.reconnectedCount, n.state, ?_, Or.inl rfl, fun hE' => absurd hE' hE⟩
    exact if_neg hE

/-- A `Close` is ignored by a node whose reconnection is under way. -/
def Withheld (E : Env) (n : Node) : Prop :=
  E.enableReconnect = true ∧ (n.state = .willReconnect ∨ n.state = .triggerReconnection) ∧
    n.reconnectedCount ≤ maxTryCount

/-- The state a `Close` that is called finds or leaves. -/
def closeState (E : Env) (n : Node) : ReconnectionState :=
  if E.enableReconnect = true ∧
      (n.state = .willReconnect ∨ n.state = .triggerReconnection) then .noReconnection
  else n.state

theorem ignore_withheld (hw : Withheld E n) (code : ℤ) :
    ignoreCallbackWhenReconnecting E n .close code = (n, true) := by
  obtain ⟨hE, hs, hc⟩ := hw
  have hne : ¬ EventType.close = .taskFailed := by decide
  simp only [ignoreCallbackWhenReconnecting, hE, hne, hs, hc, if_true, if_false, false_and,
    true_and, or_true]

theorem ignore_called (hw : ¬ Withheld E n) (code : ℤ) :
    ignoreCallbackWhenReconnecting E n .close code =
      ({ n with state := closeState E n }, false) := by
  have hne : ¬ EventType.close = .taskFailed := by decide
  by_cases hE : E.enableReconnect = true
  · by_cases hs : n.state = .willReconnect ∨ n.state = .triggerReconnection
    · have hc : ¬ n.reconnectedCount ≤ maxTryCount := fun hc => hw ⟨hE, hs, hc⟩
      simp only [ignoreCallbackWhenReconnecting, closeState, hE, hne, hs, hc, if_true, if_false,
        false_and, true_and, or_true]
    · simp only [ignoreCallbackWhenReconnecting, closeState, hE, hne, hs, if_true, if_false,
        false_and, and_false]
  · simp only [ignoreCallbackWhenReconnecting, closeState, hE]
    rfl

theorem handlerFrame_withheld (hv : n.workStatus ≠ .nodeInvalid) (hw : Withheld E n) (code : ℤ) :
    handlerFrame E n .close code =
      ({ nodeReconnecting E (called n .close true) with retryConnectCount := 0 }, success) := by
  rw [handlerFrame, if_neg hv]
  simp only [ignore_withheld hw, if_true]

theorem handlerFrame_close (hv : n.workStatus ≠ .nodeInvalid) (hw : ¬ Withheld E n) (code : ℤ) :
    handlerFrame E n .close code =
      ({ nodeReconnecting E (called { n with state := closeState E n } .close false) with
          retryConnectCount := 0, reconnectedCount := 0 }, success) := by
  rw [handlerFrame, if_neg hv]
  simp only [ignore_called hw, if_true]
  rfl

theorem handlerClose_withheld (h : Open n) (hw : Withheld E n) :
    handlerClose E n =
      { nodeReconnecting E (called n .close true) with
        workStatus := .nodeClosed, retryConnectCount := 0 } := by
  rw [handlerClose_open h, handlerFrame_withheld h.valid hw]

theorem handlerClose_called (h : Open n) (hw : ¬ Withheld E n) :
    handlerClose E n =
      { nodeReconnecting E (called { n with state := closeState E n } .close false) with
        workStatus := .nodeClosed, retryConnectCount := 0, reconnectedCount := 0 } := by
  rw [handlerClose_open h, handlerFrame_close h.valid hw]

theorem nodeReconnecting_spec (n : Node) :
    (nodeReconnecting E n).launchEvent = n.launchEvent ∧
      ((nodeReconnecting E n).state = n.state ∨
        (nodeReconnecting E n).state = .triggerReconnection) ∧
      ((nodeReconnecting E n).history = n.history ∧
          (nodeReconnecting E n).reconnectEvent = n.reconnectEvent ∨
        (nodeReconnecting E n).history = n.history ++ [.reconnecting]) := by
  rw [nodeReconnecting]
  split
  · split
    · exact ⟨rfl, Or.inr rfl, Or.inr rfl⟩
    · exact ⟨rfl, Or.inl rfl, Or.inl ⟨rfl, rfl⟩⟩
  · exact ⟨rfl, Or.inl rfl, Or.inl ⟨rfl, rfl⟩⟩

theorem nodeReconnecting_idle (h : n.state ≠ .willReconnect) : nodeReconnecting E n = n := if_neg h

theorem closeState_ne_will (h : n.state = .willReconnect → E.enableReconnect = true) :
    closeState E n ≠ .willReconnect := by
  rw [closeState]
  split
  · decide
  · next hn => exact fun hw => hn ⟨h hw, Or.inl hw⟩

theorem taskFailed_kept (h : Open n) {code : ℤ} (hk : Kept E n code) :
    handlerTaskFailedEvent E n code =
      { nodeReconnecting E (called (called (failing n) .taskFailed true) .close true) with
        workStatus := .nodeClosed, retryConnectCount := 0 } := by
  have hw : Withheld E (called (failing n) .taskFailed true) := by
    obtain ⟨hE, ⟨hs, hc⟩ | ⟨hs, -, hc⟩⟩ := hk
    · rw [failing, if_neg (ReconnectionState.not_idle hs)]
      exact ⟨hE, hs, hc⟩
    · rw [failing, if_pos hs]
      exact ⟨hE, Or.inl rfl, hc⟩
  have ho : Open (called (failing n) .taskFailed true) := by
    rw [failing]
    split
    · exact ⟨h.valid, h.notClosed, h.exit⟩
    · exact ⟨h.valid, h.notClosed, h.exit⟩
  rw [handlerTaskFailedEvent, handlerEvent_open h, handlerFrame_taskFailed h, ignore_kept hk,
    handlerClose_withheld ho hw]

theorem taskFailed_reported (h : Open n)
    (hs : n.state = .willReconnect → E.enableReconnect = true) {code : ℤ} (hk : ¬ Kept E n code) :
    ∃ s, s ≠ .willReconnect ∧ handlerTaskFailedEvent E n code =
        { n with
          workStatus := .nodeClosed
          retryConnectCount := 0
          reconnectedCount := 0
          state := s
          history := n.history ++ [.called .taskFailed, .called .close] } := by
  obtain ⟨c, s, hi, hstate, hE⟩ := ignore_reported hk
  have ho : Open (called { n with reconnectedCount := c, state := s } .taskFailed false) :=
    ⟨h.valid, h.notClosed, h.exit⟩
  have hs' : s = .willReconnect → E.enableReconnect = true := fun hw => by
    rcases hstate with he | he
    · exact hs (he.symm.trans hw)
    · exact absurd (he.symm.trans hw) (by decide)
  have hw : ¬ Withheld E (called { n with reconnectedCount := c, state := s } .taskFailed false) :=
    fun hw => ReconnectionState.not_busy (hE hw.1) hw.2.1
  have hne : closeState E (called { n with reconnectedCount := c, state := s } .taskFailed false) ≠
      .willReconnect := closeState_ne_will hs'
  refine ⟨closeState E (called { n with reconnectedCount := c, state := s } .taskFailed false),
    hne, ?_⟩
  rw [handlerTaskFailedEvent, handlerEvent_open h, handlerFrame_taskFailed h, hi,
    handlerClose_called ho hw, nodeReconnecting_idle hne]
  simp only [called, if_false, Bool.false_eq_true, List.append_assoc, List.cons_append,
    List.nil_append]

theorem kept_busy (h : Open n) {code : ℤ} (hk : Kept E n code)
    (hs : n.state = .triggerReconnection) :
    handlerTaskFailedEvent E n code =
      { n with
        workStatus := .nodeClosed
        retryConnectCount := 0
        history := n.history ++ [.ignored .taskFailed, .ignored .close] } := by
  have hf : failing n = n := if_neg (ReconnectionState.not_idle (Or.inr hs))
  have hne : ¬ (called (called n .taskFailed true) .close true).state = .willReconnect := by
    show ¬ n.state = .willReconnect
    rw [hs]
    decide
  rw [taskFailed_kept h hk, hf, nodeReconnecting, if_neg hne]
  simp only [called, if_true, List.append_assoc, List.cons_append, List.nil_append]

theorem kept_added (h : Open n) {code : ℤ} (hk : Kept E n code)
    (hs : n.state = .noReconnection ∨ n.state = .newReconnectionStarting)
    (ha : E.eventAdd n.adds = true) :
    handlerTaskFailedEvent E n code =
      { n with
        workStatus := .nodeClosed
        retryConnectCount := 0
        reconnectedCount := n.reconnectedCount + 1
        adds := n.adds + 1
        reconnectEvent := true
        state := .triggerReconnection
        history := n.history ++ [.ignored .taskFailed, .ignored .close, .reconnecting] } := by
  rw [taskFailed_kept h hk, failing, if_pos hs]
  simp only [called, nodeReconnecting, ha, if_true, List.append_assoc, List.cons_append,
    List.nil_append]

theorem kept_refused (h : Open n) {code : ℤ} (hk : Kept E n code)
    (hs : n.state = .noReconnection ∨ n.state = .newReconnectionStarting)
    (ha : E.eventAdd n.adds = false) :
    handlerTaskFailedEvent E n code =
      { n with
        workStatus := .nodeClosed
        retryConnectCount := 0
        reconnectedCount := n.reconnectedCount + 1
        adds := n.adds + 1
        state := .willReconnect
        history := n.history ++ [.ignored .taskFailed, .ignored .close] } := by
  rw [taskFailed_kept h hk, failing, if_pos hs]
  simp only [called, nodeReconnecting, ha, if_true, Bool.false_eq_true, if_false, List.append_assoc,
    List.cons_append, List.nil_append]

theorem handlerFrame_called (hv : n.workStatus ≠ .nodeInvalid) {type : EventType}
    (ht : type ≠ .taskFailed) (hc : type ≠ .close) (code : ℤ) :
    handlerFrame E n type code = (called n type false, success) := by
  have hi : ignoreCallbackWhenReconnecting E n type code = (n, false) := by
    simp only [ignoreCallbackWhenReconnecting, ht, hc, false_and, or_self, and_false, if_false,
      ite_self]
  rw [handlerFrame, if_neg hv, hi]
  exact if_neg hc

end failure

section moves
variable {E : Env} {strict : Prop} {n n' : Node}

theorem frameEvent_taskFailed (hv : n.workStatus ≠ .nodeInvalid) (hx : n.exitStatus ≠ .exitCancel)
    (code : ℤ) :
    frameEvent E n (some (.taskFailed, code)) success =
      (handlerTaskFailedEvent E { n with workStatus := .nodeFailed } code, success) := by
  have ho : Open { n with workStatus := .nodeFailed } :=
    ⟨fun hf => (by cases hf), fun hf => (by cases hf), hx⟩
  have hi : ignoreCallbackWhenReconnecting E { n with workStatus := .nodeFailed } .taskFailed code =
      ({ (ignoreCallbackWhenReconnecting E n .taskFailed code).1 with workStatus := .nodeFailed },
        (ignoreCallbackWhenReconnecting E n .taskFailed code).2) := by
    simp only [ignoreCallbackWhenReconnecting]
    split_ifs <;> rfl
  have hne : ¬ EventType.taskFailed = .close := by decide
  rw [frameEvent, if_neg hx, handlerFrame, if_neg hv, if_neg hne, handlerTaskFailedEvent,
    handlerEvent_open ho, handlerFrame_taskFailed ho, hi]
  rfl

theorem convert_failed (n : Node) (errorCode : ℤ) {result : ℤ} (hb : result ≠ -wsFrameBodyEmpty)
    (hs : result ≠ success) :
    frameEvent E (handlerEvent E n .taskFailed errorCode) none result =
      (handlerTaskFailedEvent E n errorCode, -nlsEventEmpty) := by
  rw [frameEvent, if_neg hb, if_pos hs]
  rfl

theorem JsonError.code_spec (e : JsonError) : -e.code ≠ -wsFrameBodyEmpty ∧ -e.code ≠ success := by
  cases e <;> decide

theorem parseFrame_unread (n : Node) {f : Frame}
    (hf : f = .text .empty ∨ (∃ e, f = .text (.invalid e)) ∨ f = .unknown) :
    ∃ code, parseFrame E n f = (handlerTaskFailedEvent E n code, -nlsEventEmpty) := by
  rcases hf with rfl | ⟨e, rfl⟩ | rfl
  · have hb : -wsResponsePackageEmpty ≠ -wsFrameBodyEmpty := by decide
    exact ⟨utf8ConvertError, convert_failed n utf8ConvertError hb (by decide)⟩
  · exact ⟨jsonStringParseFailed,
      convert_failed n jsonStringParseFailed e.code_spec.1 e.code_spec.2⟩
  · have hb : -unknownWsFrameHeadType ≠ -wsFrameBodyEmpty := by decide
    exact ⟨unknownWsHeadType, convert_failed n unknownWsHeadType hb (by decide)⟩

/-- A status that is neither of the two in which nothing is handed over. -/
def Running (s : ConnectStatus) : Prop := s ≠ .nodeInvalid ∧ s ≠ .nodeClosed

instance (s : ConnectStatus) : Decidable (Running s) := inferInstanceAs (Decidable (_ ∧ _))

/-- A change of the node that no callback hears of. -/
structure Unheard (strict : Prop) (n n' : Node) : Prop where
  history : n'.history = n.history
  launchEvent : n'.launchEvent = n.launchEvent
  reconnectEvent : n'.reconnectEvent = n.reconnectEvent
  reconnectedCount : n'.reconnectedCount = n.reconnectedCount
  state : n'.state = n.state ∨ n'.state = .noReconnection ∨ n'.state = .newReconnectionStarting
  workStatus : n'.workStatus = n.workStatus ∨
    n.launchEvent = false ∧ Running n'.workStatus ∧ (strict → n.workStatus ≠ .nodeClosed)

def relaunched (n : Node) : Node :=
  { n with
    workStatus := .nodeInvoked
    launchEvent := false
    reconnectEvent := false
    history := n.history ++ [.launched] }

/-- `strict` keeps frames away from closed nodes. -/
inductive Move (E : Env) (strict : Prop) : Node → Node → Prop
  | unheard {n n' : Node} (h : Unheard strict n n') : Move E strict n n'
  | failed (n : Node) (code : ℤ) (hl : n.launchEvent = false) :
      Move E strict n (handlerTaskFailedEvent E n code)
  | close (n : Node) (hl : n.launchEvent = false) : Move E strict n (handlerClose E n)
  | called (n : Node) {type : EventType} (hl : n.launchEvent = false) (ht : type ≠ .taskFailed)
      (hc : type ≠ .close) (hs : strict → n.workStatus ≠ .nodeClosed) :
      Move E strict n (called n type false)
  | channelClosed (n : Node) (code : ℤ) (hl : n.launchEvent = false) (hs : ¬ strict) :
      Move E strict n (handlerFrame E n .close code).1
  | launch (n : Node) (h : n.launchEvent = true ∨ n.reconnectEvent = true) :
      Move E strict n (relaunched n)

def Moves (E : Env) (strict : Prop) : Node → Node → Prop := Relation.ReflTransGen (Move E strict)

theorem Move.single (h : Move E strict n n') : Moves E strict n n' := Relation.ReflTransGen.single h

theorem Moves.refl (n : Node) : Moves E strict n n := Relation.ReflTransGen.refl

theorem Moves.trans {n'' : Node} (h : Moves E strict n n') (h' : Moves E strict n' n'') :
    Moves E strict n n'' := Relation.ReflTransGen.trans h h'

theorem Unheard.refl (n : Node) : Unheard strict n n :=
  ⟨rfl, rfl, rfl, rfl, Or.inl rfl, Or.inl rfl⟩

theorem unheard_workStatus (hl : n.launchEvent = false) (hs : strict → n.workStatus ≠ .nodeClosed)
    {s : ConnectStatus} (hr : Running s) {st : ReconnectionState}
    (hst : st = n.state ∨ st = .noReconnection ∨ st = .newReconnectionStarting) (b : Bool) (k : ℕ) :
    Unheard strict n { n with
      workStatus := s, state := st, isFirstBinaryFrame := b, retryConnectCount := k } :=
  ⟨rfl, rfl, rfl, rfl, hst, Or.inr ⟨hl, hr, hs⟩⟩

theorem moves_workStatus (hl : n.launchEvent = false) (hs : strict → n.workStatus ≠ .nodeClosed)
    {s : ConnectStatus} (hr : Running s) : Moves E strict n { n with workStatus := s } :=
  Move.single (.unheard (unheard_workStatus hl hs hr (Or.inl rfl) _ _))

theorem nlsSendFrame_spec (n : Node) (ret : ℤ) :
    ∃ b, nlsSendFrame n ret = { n with isFirstBinaryFrame := b } := by
  rw [nlsSendFrame]
  split
  · exact ⟨n.isFirstBinaryFrame, rfl⟩
  · exact ⟨false, rfl⟩

theorem sendEnded_none (n : Node) :
    ∃ b, sendEnded E n none = { n with isFirstBinaryFrame := b } := by
  rw [sendEnded]
  split
  · exact nlsSendFrame_spec n success
  · exact ⟨n.isFirstBinaryFrame, rfl⟩

theorem moves_sendFrame (n : Node) (ret : ℤ) : Moves E strict n (nlsSendFrame n ret) := by
  obtain ⟨b, heq⟩ := nlsSendFrame_spec n ret
  rw [heq]
  exact Move.single (.unheard ⟨rfl, rfl, rfl, rfl, Or.inl rfl, Or.inl rfl⟩)

theorem moves_exitStatus (n : Node) (x : ExitStatus) :
    Moves E strict n { n with exitStatus := x } :=
  Move.single (.unheard ⟨rfl, rfl, rfl, rfl, Or.inl rfl, Or.inl rfl⟩)

theorem unheard_workStatusOf (hl : n.launchEvent = false)
    (hs : strict → n.workStatus ≠ .nodeClosed) (type : EventType) :
    Unheard strict n (workStatusOf E n type).1 := by
  have hset : ∀ s, Running s → Unheard strict n { n with workStatus := s } := fun s hr =>
    unheard_workStatus hl hs hr (Or.inl rfl) _ _
  have hopened : Unheard strict n { n with
      workStatus := if E.speechWakeWordDialog then .nodeWakeWording else .nodeStarted
      state := .noReconnection } := by
    refine unheard_workStatus hl hs ?_ (Or.inr (Or.inl rfl)) _ _
    split
    · decide
    · decide
  have hcompleted := hset .nodeCompleted (by decide)
  cases type with
  | recognitionStarted => exact hopened
  | transcriptionStarted => exact hopened
  | synthesisStarted => exact hopened
  | close => exact hcompleted
  | recognitionCompleted => exact hcompleted
  | transcriptionCompleted => exact hcompleted
  | synthesisCompleted => exact hcompleted
  | taskFailed => exact hset .nodeFailed (by decide)
  | wakeWordVerificationCompleted => exact hset .nodeStarted (by decide)
  | binary =>
    rw [workStatusOf]
    split
    · exact unheard_workStatus hl hs (by decide) (Or.inl rfl) _ _
    · exact Unheard.refl n
  | _ => exact Unheard.refl n

theorem moves_handled (hl : n.launchEvent = false) (hs : strict → n.workStatus ≠ .nodeClosed)
    (type : EventType) : Moves E strict n (frameHandled E n type) := by
  have hset := unheard_workStatusOf (E := E) hl hs type
  have hmove : Moves E strict n (workStatusOf E n type).1 := Move.single (.unheard hset)
  rw [frameHandled]
  split
  · exact hmove.trans (Move.single (.close _ (hset.launchEvent.trans hl)))
  · exact hmove

theorem ignore_spec (n : Node) (type : EventType) (code : ℤ) :
    ∃ c s, (ignoreCallbackWhenReconnecting E n type code).1 =
      { n with reconnectedCount := c, state := s } := by
  simp only [ignoreCallbackWhenReconnecting]
  split_ifs <;> exact ⟨_, _, rfl⟩

theorem handlerFrame_launchEvent (n : Node) (type : EventType) (code : ℤ) :
    (handlerFrame E n type code).1.launchEvent = n.launchEvent := by
  obtain ⟨c, s, heq⟩ := ignore_spec (E := E) n type code
  rw [handlerFrame]
  split
  · rfl
  · dsimp only
    split
    · have hspec := nodeReconnecting_spec (E := E)
        (called (ignoreCallbackWhenReconnecting E n type code).1 type
          (ignoreCallbackWhenReconnecting E n type code).2)
      split
      · exact hspec.1.trans (by rw [heq]; rfl)
      · exact hspec.1.trans (by rw [heq]; rfl)
    · rw [heq]
      rfl

theorem handlerEvent_launchEvent (n : Node) (type : EventType) (code : ℤ) :
    (handlerEvent E n type code).launchEvent = n.launchEvent := by
  have hframe := handlerFrame_launchEvent (E := E) n type code
  rw [handlerEvent]
  split
  · rfl
  · split
    · rfl
    · dsimp only
      split
      · exact hframe
      · exact hframe

/-- A frame other than the message `channelClosed`. -/
def Frame.plain : Frame → Bool
  | .text (.event .close _) => false
  | _ => true

theorem moves_frameEvent (hl : n.launchEvent = false) (hs : strict → n.workStatus ≠ .nodeClosed)
    {type : EventType} (hc : strict → type ≠ .close) (code : ℤ) :
    Moves E strict n (frameEvent E n (some (type, code)) success).1 := by
  by_cases hx : n.exitStatus = .exitCancel
  · rw [frameEvent, if_pos hx]
    exact Moves.refl n
  · by_cases hv : n.workStatus = .nodeInvalid
    · rw [frameEvent, if_neg hx, handlerFrame, if_pos hv]
      exact Moves.refl n
    · by_cases ht : type = .taskFailed
      · rw [ht, frameEvent_taskFailed hv hx]
        exact (moves_workStatus hl hs (by decide)).trans (Move.single (.failed _ code hl))
      · by_cases hcl : type = .close
        · have hns : ¬ strict := fun h => hc h hcl
          have hla := handlerFrame_launchEvent (E := E) n .close code
          have hret : (handlerFrame E n .close code).2 = success := by
            rw [handlerFrame, if_neg hv]
            rfl
          rw [hcl, frameEvent, if_neg hx]
          dsimp only
          rw [hret, if_neg (fun h => h rfl)]
          exact (Move.single (.channelClosed n code hl hns)).trans
            (moves_handled (hla.trans hl) (fun h => absurd h hns) .close)
        · rw [frameEvent, if_neg hx, handlerFrame_called hv ht hcl]
          have hhandled : Moves E strict (called n type false)
              (frameHandled E (called n type false) type) :=
            moves_handled (n := called n type false) hl hs type
          exact (Move.single (.called n hl ht hcl hs)).trans hhandled

theorem moves_parseFrame (hl : n.launchEvent = false) {f : Frame}
    (hs : strict → n.workStatus ≠ .nodeClosed ∧ f.plain = true) :
    Moves E strict n (parseFrame E n f).1 := by
  have hclosed : strict → n.workStatus ≠ .nodeClosed := fun h => (hs h).1
  have hunread : (f = .text .empty ∨ (∃ e, f = .text (.invalid e)) ∨ f = .unknown) →
      Moves E strict n (parseFrame E n f).1 := by
    intro hu
    obtain ⟨code, heq⟩ := parseFrame_unread (E := E) n hu
    rw [heq]
    exact Move.single (.failed n code hl)
  cases f with
  | close code =>
    rw [parseFrame]
    split
    · exact moves_frameEvent hl hclosed (fun _ => by decide) code
    · exact Moves.refl n
  | pong => exact Moves.refl n
  | binary length =>
    have heq : parseFrame E n (.binary length) =
        if 0 < length then frameEvent E n (some (.binary, success)) success else (n, success) := by
      show frameEvent E (convertResult E n (.binary length)).1
        (convertResult E n (.binary length)).2.1 (convertResult E n (.binary length)).2.2 = _
      rw [convertResult]
      split
      · rfl
      · rfl
    rw [heq]
    split
    · exact moves_frameEvent hl hclosed (fun _ => by decide) success
    · exact Moves.refl n
  | text t =>
    cases t with
    | empty => exact hunread (Or.inl rfl)
    | invalid e => exact hunread (Or.inr (Or.inl ⟨e, rfl⟩))
    | event type code =>
      refine moves_frameEvent hl hclosed (fun h hc => ?_) code
      have hplain := (hs h).2
      rw [hc] at hplain
      cases hplain
  | unknown => exact hunread (Or.inr (Or.inr rfl))

theorem Move.launchEvent (h : Move E strict n n') (hl : n.launchEvent = false) :
    n'.launchEvent = false := by
  cases h with
  | unheard h => exact h.launchEvent.trans hl
  | failed code hl =>
    exact (handlerEvent_launchEvent _ _ _).trans ((handlerEvent_launchEvent _ _ _).trans hl)
  | close hl => exact (handlerEvent_launchEvent _ _ _).trans hl
  | called hl ht hc hs => exact hl
  | channelClosed code hl hs => exact (handlerFrame_launchEvent _ _ _).trans hl
  | launch h => rfl

theorem Moves.launchEvent (h : Moves E strict n n') (hl : n.launchEvent = false) :
    n'.launchEvent = false := by
  induction h with
  | refl => exact hl
  | tail _ hmove ih => exact hmove.launchEvent ih

/-- The frames the loop parses, each with the node it finds. -/
def parsed (E : Env) : Node → List Frame → List (Node × Frame)
  | _, [] => []
  | n, f :: fs =>
      (n, f) :: if (parseFrame E n f).2 ≠ success then [] else parsed E (parseFrame E n f).1 fs

theorem moves_parseFrames (hl : n.launchEvent = false) {fs : List Frame}
    (hs : strict → ∀ p ∈ parsed E n fs, p.1.workStatus ≠ .nodeClosed ∧ p.2.plain = true) :
    Moves E strict n (parseFrames E n fs).1 := by
  induction fs generalizing n with
  | nil => exact Moves.refl n
  | cons f fs ih =>
    have hfirst : Moves E strict n (parseFrame E n f).1 := by
      refine moves_parseFrame hl fun h => hs h (n, f) ?_
      rw [parsed]
      exact List.mem_cons_self
    rw [parseFrames]
    by_cases hr : (parseFrame E n f).2 ≠ success
    · rw [if_pos hr]
      exact hfirst
    · rw [if_neg hr]
      refine hfirst.trans (ih (hfirst.launchEvent hl) fun h p hp => hs h p ?_)
      rw [parsed, if_neg hr]
      exact List.mem_cons_of_mem _ hp

/-- No frame is parsed on a closed node, and none is the message `channelClosed`. -/
def Tidy (E : Env) (n : Node) (e : Event) : Prop :=
  ∀ r fs, e = .response r → r.received = .frames fs → n.workStatus ≠ .nodeClosed →
    ∀ p ∈ parsed E n fs, p.1.workStatus ≠ .nodeClosed ∧ p.2.plain = true

def TidyRun (E : Env) : Node → List Event → Prop
  | _, [] => True
  | n, e :: es => Tidy E n e ∧ TidyRun E (step E n e) es

theorem moves_responded (hl : n.launchEvent = false) (hc : n.workStatus ≠ .nodeClosed)
    {r : Response} (ht : strict → Tidy E n (.response r)) :
    Moves E strict n (responded E n r).1 := by
  have hs : strict → n.workStatus ≠ .nodeClosed := fun _ => hc
  have hweb : Moves E strict n (webSocketResponse E n r.received).1 := by
    cases hrec : r.received with
    | failed => exact Moves.refl n
    | frames fs => exact moves_parseFrames hl fun h => ht h r fs rfl hrec hc
  have hgateway : Moves E strict n (if r.gateway = 0 then
      (nlsSendFrame { n with workStatus := .nodeStarting, state := .newReconnectionStarting } r.sent,
        r.sent)
      else if r.gateway = -nlsReceiveEmpty then (n, success) else (n, r.gateway)).1 := by
    split
    · have hstarting : Moves E strict n
          { n with workStatus := .nodeStarting, state := .newReconnectionStarting } :=
        Move.single (.unheard (unheard_workStatus hl hs (by decide) (Or.inr (Or.inr rfl)) _ _))
      exact hstarting.trans (moves_sendFrame _ r.sent)
    · split
      · exact Moves.refl n
      · exact Moves.refl n
  have hsent : Moves E strict n (if (webSocketResponse E n r.received).1.workStatus = .nodeStarted ∨
      (webSocketResponse E n r.received).1.workStatus = .nodeWakeWording then
      (nlsSendFrame (webSocketResponse E n r.received).1 r.sent, r.sent)
      else webSocketResponse E n r.received).1 := by
    split
    · exact hweb.trans (moves_sendFrame _ r.sent)
    · exact hweb
  rw [responded]
  split
  · exact hgateway
  · exact hgateway
  · exact hsent
  · exact hsent
  · exact hweb
  · split
    · exact hweb
    · exact Moves.refl n
  · exact Moves.refl n
  · exact Moves.refl n

theorem response_closed (hc : n.workStatus = .nodeClosed) (r : Response) :
    nodeResponseProcess E n r = n := by
  rw [nodeResponseProcess, responded, hc]
  exact if_pos hc

theorem moves_failed (h : Moves E strict n n') (hl : n.launchEvent = false) (code : ℤ) :
    Moves E strict n (handlerTaskFailedEvent E n' code) :=
  h.trans (Move.single (.failed n' code (h.launchEvent hl)))

theorem moves_response (hl : n.launchEvent = false) {r : Response}
    (ht : strict → Tidy E n (.response r)) : Moves E strict n (nodeResponseProcess E n r) := by
  by_cases hc : n.workStatus = .nodeClosed
  · rw [response_closed hc]
    exact Moves.refl n
  · have hr := moves_responded hl hc ht
    rw [nodeResponseProcess]
    split
    · split
      · exact hr
      · split
        · exact hr
        · exact moves_failed hr hl r.code
    · exact hr

theorem moves_request (hl : n.launchEvent = false) (sent code : ℤ) :
    Moves E strict n (nodeRequestProcess E n sent code) := by
  have hsent : ∀ m, Moves E strict n m → Moves E strict n (if sent < 0 then
      handlerTaskFailedEvent E (nlsSendFrame m sent) code else nlsSendFrame m sent) := by
    intro m hm
    have hframe := hm.trans (moves_sendFrame m sent)
    split
    · exact moves_failed hframe hl code
    · exact hframe
  rw [nodeRequestProcess]
  split
  · next hst =>
    refine hsent _ (moves_workStatus hl (fun _ hc => ?_) (by decide))
    exact absurd (hst.symm.trans hc) (by decide)
  · exact hsent n (Moves.refl n)
  · exact hsent n (Moves.refl n)
  · exact hsent n (Moves.refl n)
  · exact hsent n (Moves.refl n)
  · have hneg : -invalidWorkStatus < 0 := by decide
    rw [if_pos hneg]
    exact Move.single (.failed n code hl)

theorem moves_dnsProcess (hl : n.launchEvent = false) (hs : strict → n.workStatus ≠ .nodeClosed) :
    Moves E strict n (dnsProcess E n) := by
  rw [dnsProcess]
  split
  · exact Moves.refl n
  · rw [checkConnectCount]
    split
    · exact Move.single (.unheard (unheard_workStatus hl hs (by decide) (Or.inl rfl) _ _))
    · have hretry : Moves E strict n { n with retryConnectCount := 0 } :=
        Move.single (.unheard ⟨rfl, rfl, rfl, rfl, Or.inl rfl, Or.inl rfl⟩)
      exact moves_failed hretry hl sysConnectFailed

theorem moves_launch (h : n.launchEvent = true ∨ n.reconnectEvent = true) :
    Moves E strict n
      (launchEventCallback E { n with launchEvent := false, reconnectEvent := false }) := by
  have hmove : Moves E strict n (relaunched n) := Move.single (.launch n h)
  rw [launchEventCallback]
  split
  · exact hmove
  · exact hmove.trans (moves_dnsProcess rfl fun _ hc => by cases hc)

def Ready (n : Node) : Prop :=
  n.launchEvent = true → n.workStatus = .nodeInvoking ∧ n.reconnectEvent = false

theorem moves_sendEnded (hl : n.launchEvent = false) (failed : Option ℤ) :
    Moves E strict n (sendEnded E n failed) := by
  cases failed with
  | none =>
    rw [sendEnded]
    split
    · exact moves_sendFrame n success
    · exact Moves.refl n
  | some code => exact Move.single (.failed n code hl)

theorem moves_socketEvent {handle : Node → Node}
    (hh : n.launchEvent = false → Moves E strict n (handle n)) :
    Moves E strict n (socketEvent n handle) := by
  rw [socketEvent]
  by_cases hl : n.launchEvent = true
  · rw [if_pos hl]
    exact Moves.refl n
  · rw [if_neg hl]
    split
    · exact Moves.refl n
    · exact hh (Bool.eq_false_iff.mpr hl)

theorem moves_stop (hr : Ready n) (remain failed : Option ℤ) :
    Moves E strict n (NodeSession.stop E n remain failed) := by
  rw [NodeSession.stop]
  split
  · exact Moves.refl n
  · split
    · exact Moves.refl n
    · by_cases hl : n.launchEvent = true
      · have hs : ¬ n.workStatus = .nodeStarted := by
          rw [(hr hl).1]
          decide
        rw [if_pos hl]
        dsimp only
        rw [if_neg hs]
        exact moves_exitStatus n .exitStopping
      · have hlf := Bool.eq_false_iff.mpr hl
        have hexit : Moves E strict n { sendEnded E n remain with exitStatus := .exitStopping } :=
          (moves_sendEnded hlf remain).trans (moves_exitStatus _ _)
        rw [if_neg hl]
        dsimp only
        split
        · exact hexit.trans (moves_sendEnded (hexit.launchEvent hlf) failed)
        · exact hexit

/-- Every step is a sequence of moves. -/
theorem step_moves (hr : Ready n) {e : Event} (ht : strict → Tidy E n e) :
    Moves E strict n (step E n e) := by
  have hunlaunched : ∀ s, n.workStatus = s → s ≠ .nodeInvoking → n.launchEvent = false :=
    fun s hs hne => Bool.eq_false_iff.mpr fun hl => hne (hs.symm.trans (hr hl).1)
  cases e with
  | launch =>
    rw [step]
    by_cases hl : n.launchEvent = true
    · have heq : { n with launchEvent := false } =
          { n with launchEvent := false, reconnectEvent := false } := by
        rw [← (hr hl).2]
      rw [if_pos hl, heq]
      exact moves_launch (Or.inl hl)
    · rw [if_neg hl]
      split
      · next hre =>
        have heq : { n with reconnectEvent := false } =
            { n with launchEvent := false, reconnectEvent := false } := by
          rw [← Bool.eq_false_iff.mpr hl]
        rw [heq]
        exact moves_launch (Or.inr hre)
      · exact Moves.refl n
  | connectFailed =>
    rw [step]
    split
    · next hs =>
      have hl : n.launchEvent = false := by
        rcases hs with hs | hs
        · exact hunlaunched _ hs (by decide)
        · exact hunlaunched _ hs (by decide)
      have hc : n.workStatus ≠ .nodeClosed := by
        rcases hs with hs | hs
        · rw [hs]
          decide
        · rw [hs]
          decide
      exact (moves_workStatus hl (fun _ => hc) (by decide)).trans
        (moves_dnsProcess hl fun _ hf => by cases hf)
    · exact Moves.refl n
  | connected =>
    rw [step]
    split
    · next hs =>
      refine moves_workStatus (hunlaunched _ hs (by decide)) (fun _ hc => ?_) (by decide)
      exact absurd (hs.symm.trans hc) (by decide)
    · exact Moves.refl n
  | handshaking =>
    rw [step]
    split
    · next hs =>
      refine moves_workStatus (hunlaunched _ hs.1 (by decide)) (fun _ hc => ?_) (by decide)
      exact absurd (hs.1.symm.trans hc) (by decide)
    · exact Moves.refl n
  | request sent code =>
    rw [step]
    exact moves_socketEvent fun hl => moves_request hl sent code
  | response r =>
    rw [step]
    exact moves_socketEvent fun hl => moves_response hl ht
  | timeout code =>
    rw [step]
    exact moves_socketEvent fun hl => Move.single (.failed n code hl)
  | sendAudio failed =>
    rw [step, NodeSession.sendAudio]
    split
    · exact Moves.refl n
    · next hs =>
      have hs' : n.workStatus = .nodeStarted := not_not.mp fun hne => hs (Or.inl hne)
      exact moves_sendEnded (hunlaunched _ hs' (by decide)) failed
  | stop remain failed => exact moves_stop hr remain failed
  | cancel =>
    rw [step, NodeSession.cancel]
    split
    · exact Moves.refl n
    · split
      · exact Moves.refl n
      · exact moves_exitStatus n .exitCancel

theorem Move.ready (h : Move E strict n n') (hr : Ready n) : Ready n' := by
  intro hl'
  by_cases hl : n.launchEvent = true
  · cases h with
    | unheard h =>
      rcases h.workStatus with hs | ⟨hf, -⟩
      · exact ⟨hs.trans (hr hl).1, h.reconnectEvent.trans (hr hl).2⟩
      · exact absurd (hf.symm.trans hl) (by decide)
    | failed code hf => exact absurd (hf.symm.trans hl) (by decide)
    | close hf => exact absurd (hf.symm.trans hl) (by decide)
    | called hf => exact absurd (hf.symm.trans hl) (by decide)
    | channelClosed code hf => exact absurd (hf.symm.trans hl) (by decide)
    | launch => cases hl'
  · exact absurd ((h.launchEvent (Bool.eq_false_iff.mpr hl)).symm.trans hl') (by decide)

theorem Moves.ready (h : Moves E strict n n') (hr : Ready n) : Ready n' := by
  induction h with
  | refl => exact hr
  | tail _ hmove ih => exact hmove.ready ih

theorem run_moves (hr : Ready n) {es : List Event} (ht : strict → TidyRun E n es) :
    Moves E strict n (run E n es) := by
  induction es generalizing n with
  | nil => exact Moves.refl n
  | cons e es ih =>
    have hfirst : Moves E strict n (step E n e) := step_moves hr fun h => (ht h).1
    exact hfirst.trans (ih (hfirst.ready hr) fun h => (ht h).2)

theorem ready_invoked : Ready invoked := fun _ => ⟨rfl, rfl⟩

end moves

end RtmpRelay.NodeSession
