import RtmpRelay.LostFailure
import RtmpRelay.WireRefinement

/-!
# What the listener hears of the server

What every frame keeps the loop keeps, whatever the chunks. So over a run the
events of the server that the listener heard are callbacks of their types, in
the order in which they came; what else it was called for the node reported
by itself.
-/

namespace RtmpRelay.NodeSession

open WebSocketTcp

variable {E : Env} {n n' : Node}

theorem handlerFrame_history (hv : n.workStatus ≠ .nodeInvalid) (type : EventType) (code : ℤ) :
    ∃ t, (handlerFrame E n type code).1.history = n.history ++
      (if (ignoreCallbackWhenReconnecting E n type code).2 then .ignored type
        else .called type) :: t := by
  obtain ⟨c, s, heq⟩ := ignore_spec (E := E) n type code
  have hcalled : (called (ignoreCallbackWhenReconnecting E n type code).1 type
      (ignoreCallbackWhenReconnecting E n type code).2).history = n.history ++
      [if (ignoreCallbackWhenReconnecting E n type code).2 then .ignored type
        else .called type] := by
    rw [called, heq]
  rw [handlerFrame, if_neg hv]
  dsimp only
  generalize called (ignoreCallbackWhenReconnecting E n type code).1 type
    (ignoreCallbackWhenReconnecting E n type code).2 = m at hcalled
  generalize (if (ignoreCallbackWhenReconnecting E n type code).2 then Happening.ignored type
    else Happening.called type) = x at hcalled
  split
  · have hspec := (nodeReconnecting_spec (E := E) m).2.2
    rcases hspec with hsame | hadd
    · refine ⟨[], ?_⟩
      split
      · exact hsame.1.trans hcalled
      · exact hsame.1.trans hcalled
    · refine ⟨[.reconnecting], ?_⟩
      rw [hcalled, List.append_assoc] at hadd
      split
      · exact hadd
      · exact hadd
  · exact ⟨[], hcalled⟩

theorem handlerEvent_grows (n : Node) (type : EventType) (code : ℤ) :
    n.history <+: (handlerEvent E n type code).history := by
  rw [handlerEvent]
  split
  · exact List.prefix_rfl
  · split
    · exact List.prefix_rfl
    · have hframe : n.history <+: (handlerFrame E n type code).1.history := by
        by_cases hv : n.workStatus = .nodeInvalid
        · rw [handlerFrame, if_pos hv]
        · obtain ⟨t, ht⟩ := handlerFrame_history (E := E) hv type code
          exact ht ▸ List.prefix_append _ _
      dsimp only
      split
      · exact hframe
      · exact hframe

theorem workStatusOf_history (n : Node) (type : EventType) :
    (workStatusOf E n type).1.history = n.history := by
  cases type with
  | binary =>
    rw [workStatusOf]
    split
    · rfl
    · rfl
  | _ => rfl

theorem frameHandled_grows (n : Node) (type : EventType) :
    n.history <+: (frameHandled E n type).history := by
  have hset := workStatusOf_history (E := E) n type
  rw [frameHandled]
  split
  · exact hset ▸ handlerEvent_grows _ _ _
  · exact hset ▸ List.prefix_rfl

theorem frameEvent_calls {type : EventType} {code : ℤ} (hx : n.exitStatus ≠ .exitCancel)
    (hv : n.workStatus ≠ .nodeInvalid)
    (hflag : (ignoreCallbackWhenReconnecting E n type code).2 = false) :
    ∃ t, calls (frameEvent E n (some (type, code)) success).1 = calls n ++ type :: t := by
  obtain ⟨t, ht⟩ := handlerFrame_history (E := E) hv type code
  rw [hflag] at ht
  have hret : (handlerFrame E n type code).2 = success := by
    rw [handlerFrame, if_neg hv]
    dsimp only
    split
    · rfl
    · rfl
  have hhandled : frameEvent E n (some (type, code)) success =
      (frameHandled E (handlerFrame E n type code).1 type, success) := by
    rw [frameEvent, if_neg hx]
    dsimp only
    rw [hret, if_neg (not_not_intro rfl)]
  obtain ⟨u, hu⟩ := frameHandled_grows (E := E) (handlerFrame E n type code).1 type
  refine ⟨(t ++ u).filterMap Happening.heard, ?_⟩
  rw [hhandled]
  dsimp only
  rw [calls, ← hu, ht, List.append_assoc, List.filterMap_append, List.cons_append]
  rfl

theorem Moves.grows {strict : Prop} (h : Moves E strict n n')
    (hw : n.state = .willReconnect → E.enableReconnect = true) :
    n.history <+: n'.history ∧ (n'.state = .willReconnect → E.enableReconnect = true) := by
  induction h with
  | refl => exact ⟨List.prefix_rfl, hw⟩
  | tail _ hmove ih =>
    obtain ⟨t, ht⟩ := hmove.adds ih.2
    exact ⟨ih.1.trans (ht.history ▸ List.prefix_append _ _), fun hs => (ht.state hs).elim ih.2 id⟩

theorem calls_prefix (h : n.history <+: n'.history) : calls n <+: calls n' := by
  obtain ⟨t, ht⟩ := h
  exact ⟨t.filterMap Happening.heard, (calls_append ht.symm).symm⟩

end RtmpRelay.NodeSession

namespace RtmpRelay.NodeWire

open NodeSession (calls Moves JsonError)
open WebSocketResponse (Read)

section heard
variable {E : Env}

/-- The events that were heard, in the order in which the callbacks were called. -/
structure Heard (E : Env) (s : Hearing) : Prop where
  launched : s.session.launchEvent = false
  state : s.session.state = .willReconnect → E.session.enableReconnect = true
  calls : (s.heard.map NlsEvent.msgType).Sublist (calls s.session)

theorem parseFrame_heard {s : Hearing} (h : Heard E s) (type : WebSocketTcp.OpCodeType)
    (payload : List UInt8) (closeCode : ℕ) : Heard E (parseFrame E s type payload closeCode).1 := by
  have hmoves : Moves E.session False s.session
      (parseFrame E s type payload closeCode).1.session :=
    NodeSession.moves_parseFrame h.launched fun hf => hf.elim
  obtain ⟨hgrows, hstate⟩ := hmoves.grows h.state
  refine ⟨hmoves.launchEvent h.launched, hstate, ?_⟩
  have hkeep : ((s.heard ++ []).map NlsEvent.msgType).Sublist
      (calls (parseFrame E s type payload closeCode).1.session) := by
    rw [List.append_nil]
    exact h.calls.trans (NodeSession.calls_prefix hgrows).sublist
  show ((s.heard ++ (eventOf E s.taskId type payload).filter fun e =>
    Reaches E s.session e).map NlsEvent.msgType).Sublist _
  obtain hnone | ⟨e, hof, hparse⟩ := eventOf_cases (E := E) s.taskId type payload
  · rw [hnone, List.filter_nil]
    exact hkeep
  · rw [hof]
    by_cases hreach : Reaches E s.session e
    · obtain ⟨t, ht⟩ := NodeSession.frameEvent_calls hreach.1 hreach.2.1 hreach.2.2
      have hnew : calls (parseFrame E s type payload closeCode).1.session =
          calls s.session ++ e.msgType :: t := by
        rw [← ht, ← hparse s.session closeCode]
        rfl
      rw [List.filter_cons, if_pos (decide_eq_true hreach), List.filter_nil, hnew, List.map_append]
      exact h.calls.append (List.Sublist.cons_cons _ (List.nil_sublist t))
    · rw [List.filter_cons, if_neg (by rwa [decide_eq_true_eq]), List.filter_nil]
      exact hkeep

theorem webSocketResponse_heard {w : Wire} (h : Heard E w.node.user) (read : Read) :
    Heard E (webSocketResponse E w read).1.node.user :=
  WebSocketResponse.webSocketResponse_user (E := wireEnv E) (P := Heard E)
    (fun _ frame f hs => parseFrame_heard hs f.type (FrameDelivery.bytes frame f) f.closeCode)
    h read

theorem Heard.taskFailed {w : Wire} (h : Heard E w.node.user) (code : ℤ) :
    Heard E (w.withSession
      (NodeSession.handlerTaskFailedEvent E.session w.session code)).node.user := by
  have hmoves : Moves E.session False w.session
      (NodeSession.handlerTaskFailedEvent E.session w.session code) :=
    (NodeSession.Move.failed _ code h.launched).single
  obtain ⟨hgrows, hstate⟩ := hmoves.grows h.state
  exact ⟨hmoves.launchEvent h.launched, hstate,
    h.calls.trans (NodeSession.calls_prefix hgrows).sublist⟩

theorem gatewayResponse_user (w : Wire) (read : Read) :
    (gatewayResponse E w read).1.node.user = w.node.user := by
  obtain ⟨buffer, http, heq⟩ := gatewayResponse_left (E := E) w read
  rw [heq]

theorem responded_heard {w : Wire} (h : Heard E w.node.user) (r : Reading) :
    Heard E (responded E w r).1.node.user := by
  have hgate : Heard E (gatewayResponse E w r.read).1.node.user := by
    rw [gatewayResponse_user]
    exact h
  cases responded_cases (E := E) w r with
  | nothing heq =>
    rw [heq]
    exact h
  | answer _ heq =>
    rw [heq]
    exact hgate
  | accepted _ _ _ heq =>
    rw [heq]
    exact ⟨hgate.launched, fun hs => (by cases hs), hgate.calls⟩
  | frames _ _ heq =>
    have hframes := webSocketResponse_heard h r.read
    rw [heq]
    exact ⟨hframes.launched, hframes.state, hframes.calls⟩

theorem nodeResponseProcess_heard {w : Wire} (h : Heard E w.node.user) (r : Reading) :
    Heard E (nodeResponseProcess E w r).node.user := by
  have hresponded := responded_heard h r
  rcases nodeResponseProcess_cases (E := E) w r with heq | heq
  · rw [heq]
    exact hresponded
  · rw [heq]
    exact hresponded.taskFailed r.code

structure Sound (E : Env) (w : Wire) : Prop where
  ready : NodeSession.Ready w.session
  state : w.session.state = .willReconnect → E.session.enableReconnect = true
  calls : (w.heard.map NlsEvent.msgType).Sublist (calls w.session)

theorem step_sound {w : Wire} (h : Sound E w) (e : Event) : Sound E (step E w e) := by
  cases e with
  | read r =>
    rcases step_read_cases (E := E) w r with heq | ⟨-, hl, heq⟩
    · rw [heq]
      exact h
    · have hheard := nodeResponseProcess_heard ⟨hl, h.state, h.calls⟩ r
      rw [heq]
      refine ⟨fun hl' => ?_, hheard.state, hheard.calls⟩
      exact absurd (hl'.symm.trans hheard.launched) (by decide)
  | other e =>
    have hmoves : Moves E.session False w.session (NodeSession.step E.session w.session e.val) :=
      NodeSession.step_moves h.ready fun hf => hf.elim
    obtain ⟨hgrows, hstate⟩ := hmoves.grows h.state
    exact ⟨hmoves.ready h.ready, hstate,
      h.calls.trans (NodeSession.calls_prefix hgrows).sublist⟩

theorem run_sound {w : Wire} (h : Sound E w) (es : List Event) : Sound E (run E w es) := by
  induction es generalizing w with
  | nil => exact h
  | cons e es ih => exact ih (step_sound h e)

theorem sound_invoked : Sound E invoked :=
  ⟨NodeSession.ready_invoked, fun hs => (by cases hs), List.Sublist.slnil⟩

/-- Whatever arrives and in whatever pieces, a run of the node is a run of its session, and the
events of the server that were heard are callbacks of it, in their order. -/
theorem wire_refines_session (hrealloc : ∀ n, E.realloc n = true) {es : List Event}
    (hsize : received es < 2 ^ 31) :
    (∃ es', (run E invoked es).session = NodeSession.run E.session NodeSession.invoked es') ∧
      ((run E invoked es).heard.map NlsEvent.msgType).Sublist
        (calls (run E invoked es).session) := by
  have hsmall : Small invoked.node 0 := ⟨Nat.zero_le _, Nat.zero_le _⟩
  exact ⟨run_refines hrealloc hsmall (by omega), (run_sound sound_invoked es).calls⟩

def spoken : List Event :=
  switching ++ [.read ⟨.bytes [0x81], 0, 0⟩, .read ⟨.bytes [2, 0x7b, 0x7d], 0, 0⟩]

theorem wire_refines_session_spoken :
    (∃ es', (run transcriber invoked spoken).session =
        NodeSession.run transcriber.session NodeSession.invoked es') ∧
      ((run transcriber invoked spoken).heard.map NlsEvent.msgType).Sublist
        (calls (run transcriber invoked spoken).session) := by
  have hsize : received spoken < 2 ^ 31 := by decide +kernel
  exact wire_refines_session (fun _ => rfl) hsize

end heard

end RtmpRelay.NodeWire
