import RtmpRelay.SessionMoves

/-!
# How a session ends

A failure is handed over whole or ignored whole, and a request is launched
once for its start and once for each reconnection. Where no frame is parsed on
a closed node, the `Close` callback is the last thing that happens to a
request, and a request reconnects at most `maxTryCount` times.
-/

namespace RtmpRelay.NodeSession

open WebSocketTcp
open AudioUpload (ConnectStatus ExitStatus)

section phases
variable {E : Env} {n n' : Node}

/-- Started and not yet launched. -/
structure Fresh (n : Node) : Prop where
  launchEvent : n.launchEvent = true
  reconnectEvent : n.reconnectEvent = false
  state : n.state ≠ .willReconnect
  reconnectedCount : n.reconnectedCount = 0
  history : n.history = []

structure Live (n : Node) : Prop where
  valid : n.workStatus ≠ .nodeInvalid
  notClosed : n.workStatus ≠ .nodeClosed
  launchEvent : n.launchEvent = false
  reconnectEvent : n.reconnectEvent = false
  state : n.state ≠ .willReconnect
  unclosed : .called .close ∉ n.history
  count : n.reconnectedCount ≤ maxTryCount
  armed : n.history.count .reconnecting ≤ n.reconnectedCount

/-- Closed without the user knowing, for the reconnect event to launch it again if it was added. -/
structure Waiting (n : Node) : Prop where
  workStatus : n.workStatus = .nodeClosed
  launchEvent : n.launchEvent = false
  state : n.reconnectEvent = true → n.state ≠ .willReconnect
  unclosed : .called .close ∉ n.history
  count : n.reconnectedCount ≤ maxTryCount
  armed : n.history.count .reconnecting ≤ n.reconnectedCount

structure Ended (n : Node) : Prop where
  workStatus : n.workStatus = .nodeClosed
  launchEvent : n.launchEvent = false
  reconnectEvent : n.reconnectEvent = false
  last : ∃ h : List Happening, n.history = h ++ [.called .close] ∧ .called .close ∉ h ∧
    h.count .reconnecting ≤ maxTryCount

inductive Phase (n : Node) : Prop
  | fresh (h : Fresh n)
  | live (h : Live n)
  | waiting (h : Waiting n)
  | ended (h : Ended n)

theorem Live.open (h : Live n) (hx : n.exitStatus ≠ .exitCancel) : Open n :=
  ⟨h.valid, h.notClosed, hx⟩

theorem Phase.to_live (h : Phase n) (hl : n.launchEvent = false) (hc : n.workStatus ≠ .nodeClosed) :
    Live n := by
  cases h with
  | fresh h => exact absurd (h.launchEvent.symm.trans hl) (by decide)
  | live h => exact h
  | waiting h => exact absurd h.workStatus hc
  | ended h => exact absurd h.workStatus hc

theorem unclosed_append {h t : List Happening} (hh : Happening.called .close ∉ h)
    (ht : Happening.called .close ∉ t) : Happening.called .close ∉ h ++ t := by
  rw [List.mem_append]
  exact fun hmem => hmem.elim hh ht

theorem Live.called (h : Live n) {type : EventType} (hc : type ≠ .close) :
    Live (called n type false) := by
  refine ⟨h.valid, h.notClosed, h.launchEvent, h.reconnectEvent, h.state, ?_, h.count, ?_⟩
  · show Happening.called .close ∉ n.history ++ [.called type]
    refine unclosed_append h.unclosed fun hmem => ?_
    exact hc (Happening.called.inj (List.mem_singleton.mp hmem)).symm
  · show (n.history ++ [Happening.called type]).count Happening.reconnecting ≤ n.reconnectedCount
    rw [List.count_append, List.count_singleton]
    exact h.armed

theorem Live.failed (h : Live n) (hx : n.exitStatus ≠ .exitCancel) (code : ℤ) :
    Phase (handlerTaskFailedEvent E n code) := by
  by_cases hk : Kept E n code
  · by_cases hs : n.state = .triggerReconnection
    · rw [kept_busy (h.open hx) hk hs]
      refine .waiting ⟨rfl, h.launchEvent, fun _ => h.state,
        unclosed_append h.unclosed (by decide), h.count, ?_⟩
      rw [List.count_append]
      exact h.armed
    · have hidle : n.state = .noReconnection ∨ n.state = .newReconnectionStarting :=
        n.state.idle_or_busy.resolve_right fun hb => hb.elim h.state hs
      have hcount : n.reconnectedCount + 1 ≤ maxTryCount := by
        obtain ⟨-, ⟨hb, -⟩ | ⟨-, -, hc⟩⟩ := hk
        · exact absurd hb (ReconnectionState.not_busy hidle)
        · exact hc
      cases ha : E.eventAdd n.adds with
      | true =>
        rw [kept_added (h.open hx) hk hidle ha]
        refine .waiting ⟨rfl, h.launchEvent, fun _ => ReconnectionState.trigger_ne_will,
          unclosed_append h.unclosed (by decide), hcount, ?_⟩
        rw [List.count_append]
        exact Nat.succ_le_succ h.armed
      | false =>
        rw [kept_refused (h.open hx) hk hidle ha]
        refine .waiting ⟨rfl, h.launchEvent, fun hr => ?_,
          unclosed_append h.unclosed (by decide), hcount, ?_⟩
        · exact absurd (h.reconnectEvent.symm.trans hr) (by decide)
        · rw [List.count_append]
          exact Nat.le_succ_of_le h.armed
  · obtain ⟨s, -, heq⟩ :=
      taskFailed_reported (h.open hx) (fun hw => absurd hw h.state) hk
    rw [heq]
    refine .ended ⟨rfl, h.launchEvent, h.reconnectEvent, n.history ++ [.called .taskFailed],
      ?_, ?_, ?_⟩
    · exact (List.append_assoc n.history [_] [_]).symm
    · exact unclosed_append h.unclosed (by decide)
    · rw [List.count_append]
      exact h.armed.trans h.count

theorem Live.close (h : Live n) (hx : n.exitStatus ≠ .exitCancel) : Phase (handlerClose E n) := by
  by_cases hw : Withheld E n
  · have hne : (NodeSession.called n .close true).state ≠ .willReconnect := h.state
    rw [handlerClose_withheld (h.open hx) hw, nodeReconnecting, if_neg hne]
    refine .waiting ⟨rfl, h.launchEvent, fun _ => h.state, ?_, h.count, ?_⟩
    · exact unclosed_append h.unclosed (by decide)
    · show (n.history ++ [Happening.ignored .close]).count Happening.reconnecting ≤
        n.reconnectedCount
      rw [List.count_append]
      exact h.armed
  · have hne : (NodeSession.called { n with state := closeState E n } .close false).state ≠
        .willReconnect := closeState_ne_will fun hw => absurd hw h.state
    rw [handlerClose_called (h.open hx) hw, nodeReconnecting_idle hne]
    exact .ended ⟨rfl, h.launchEvent, h.reconnectEvent, n.history, rfl, h.unclosed,
      h.armed.trans h.count⟩

theorem Phase.failed (h : Phase n) (hl : n.launchEvent = false) (code : ℤ) :
    Phase (handlerTaskFailedEvent E n code) := by
  by_cases hx : n.exitStatus = .exitCancel
  · rw [taskFailed_cancelled hx]
    exact h
  · by_cases hc : n.workStatus = .nodeClosed
    · rw [taskFailed_closed hc]
      exact h
    · exact (h.to_live hl hc).failed hx code

theorem Phase.close (h : Phase n) (hl : n.launchEvent = false) : Phase (handlerClose E n) := by
  by_cases hx : n.exitStatus = .exitCancel
  · rw [handlerClose, handlerEvent_cancelled hx]
    exact h
  · by_cases hc : n.workStatus = .nodeClosed
    · rw [handlerClose, handlerEvent_closed hc]
      exact h
    · exact (h.to_live hl hc).close hx

theorem Unheard.state_ne_will {strict : Prop} (hu : Unheard strict n n')
    (h : n.state ≠ .willReconnect) : n'.state ≠ .willReconnect := by
  rcases hu.state with hs | hs
  · exact hs ▸ h
  · exact ReconnectionState.idle_ne_will hs

theorem Phase.unheard (h : Phase n) (hu : Unheard True n n') : Phase n' := by
  cases h with
  | fresh h =>
    exact .fresh ⟨hu.launchEvent.trans h.launchEvent, hu.reconnectEvent.trans h.reconnectEvent,
      hu.state_ne_will h.state, hu.reconnectedCount.trans h.reconnectedCount,
      hu.history.trans h.history⟩
  | live h =>
    have hrunning : Running n'.workStatus := by
      rcases hu.workStatus with hs | ⟨-, hr, -⟩
      · exact hs ▸ ⟨h.valid, h.notClosed⟩
      · exact hr
    exact .live ⟨hrunning.1, hrunning.2, hu.launchEvent.trans h.launchEvent,
      hu.reconnectEvent.trans h.reconnectEvent, hu.state_ne_will h.state, hu.history ▸ h.unclosed,
      hu.reconnectedCount ▸ h.count, hu.history ▸ hu.reconnectedCount ▸ h.armed⟩
  | waiting h =>
    have hs : n'.workStatus = n.workStatus :=
      hu.workStatus.resolve_right fun hr => hr.2.2 trivial h.workStatus
    exact .waiting ⟨hs.trans h.workStatus, hu.launchEvent.trans h.launchEvent,
      fun hr => hu.state_ne_will (h.state (hu.reconnectEvent.symm.trans hr)),
      hu.history ▸ h.unclosed, hu.reconnectedCount ▸ h.count,
      hu.history ▸ hu.reconnectedCount ▸ h.armed⟩
  | ended h =>
    have hs : n'.workStatus = n.workStatus :=
      hu.workStatus.resolve_right fun hr => hr.2.2 trivial h.workStatus
    exact .ended ⟨hs.trans h.workStatus, hu.launchEvent.trans h.launchEvent,
      hu.reconnectEvent.trans h.reconnectEvent, hu.history ▸ h.last⟩

theorem Phase.launch (h : Phase n) (hd : n.launchEvent = true ∨ n.reconnectEvent = true) :
    Phase (relaunched n) := by
  have hlive : n.state ≠ .willReconnect → .called .close ∉ n.history →
      n.reconnectedCount ≤ maxTryCount → n.history.count .reconnecting ≤ n.reconnectedCount →
      Phase (relaunched n) := by
    intro hs hu hc ha
    have hcount : (n.history ++ [Happening.launched]).count Happening.reconnecting ≤
        n.reconnectedCount := by
      rw [List.count_append]
      exact ha
    exact .live ⟨fun hf => (by cases hf), fun hf => (by cases hf), rfl, rfl, hs,
      unclosed_append hu (by decide), hc, hcount⟩
  cases h with
  | fresh h =>
    refine hlive h.state ?_ ?_ ?_
    · rw [h.history]
      exact List.not_mem_nil
    · rw [h.reconnectedCount]
      exact Nat.zero_le _
    · rw [h.history]
      exact Nat.zero_le _
  | live h =>
    rcases hd with hl | hr
    · exact absurd (h.launchEvent.symm.trans hl) (by decide)
    · exact absurd (h.reconnectEvent.symm.trans hr) (by decide)
  | waiting h =>
    rcases hd with hl | hr
    · exact absurd (h.launchEvent.symm.trans hl) (by decide)
    · exact hlive (h.state hr) h.unclosed h.count h.armed
  | ended h =>
    rcases hd with hl | hr
    · exact absurd (h.launchEvent.symm.trans hl) (by decide)
    · exact absurd (h.reconnectEvent.symm.trans hr) (by decide)

theorem Phase.move (h : Phase n) (hm : Move E True n n') : Phase n' := by
  cases hm with
  | unheard hu => exact h.unheard hu
  | failed code hl => exact h.failed hl code
  | close hl => exact h.close hl
  | called hl ht hc hs => exact .live ((h.to_live hl (hs trivial)).called hc)
  | channelClosed code hl hs => exact absurd trivial hs
  | launch hd => exact h.launch hd

theorem Phase.moves (h : Phase n) (hm : Moves E True n n') : Phase n' := by
  induction hm with
  | refl => exact h
  | tail _ hmove ih => exact ih.move hmove

theorem phase_run {es : List Event} (ht : TidyRun E invoked es) : Phase (run E invoked es) := by
  have hfresh : Phase invoked := .fresh ⟨rfl, rfl, by decide, rfl, rfl⟩
  exact hfresh.moves (run_moves ready_invoked fun _ => ht)

/-- Where no frame is parsed on a closed node, nothing happens after the `Close` callback, and
the request reconnects at most `maxTryCount` times. -/
theorem close_comes_last {es : List Event} (ht : TidyRun E invoked es) :
    (∀ pre post, (run E invoked es).history = pre ++ .called .close :: post → post = []) ∧
      (run E invoked es).history.count .reconnecting ≤ maxTryCount := by
  have hunclosed : ∀ n : Node, .called .close ∉ n.history →
      ∀ pre post, n.history = pre ++ .called .close :: post → post = [] := by
    intro n hn pre post heq
    rw [heq] at hn
    exact absurd (List.mem_append_right pre List.mem_cons_self) hn
  cases phase_run ht with
  | fresh h =>
    refine ⟨hunclosed _ ?_, ?_⟩
    · rw [h.history]
      exact List.not_mem_nil
    · rw [h.history]
      exact Nat.zero_le _
  | live h => exact ⟨hunclosed _ h.unclosed, h.armed.trans h.count⟩
  | waiting h => exact ⟨hunclosed _ h.unclosed, h.armed.trans h.count⟩
  | ended h =>
    obtain ⟨t, heq, hmem, hcount⟩ := h.last
    refine ⟨fun pre post hp => ?_, ?_⟩
    · rw [heq] at hp
      rcases List.eq_nil_or_concat post with hnil | ⟨post', x, rfl⟩
      · exact hnil
      · rw [List.concat_eq_append] at hp
        have happ : pre ++ Happening.called .close :: (post' ++ [x]) =
            (pre ++ Happening.called .close :: post') ++ [x] := by
          rw [List.append_assoc, List.cons_append]
        have ht' := List.append_inj_left' (hp.trans happ) rfl
        rw [ht'] at hmem
        exact absurd (List.mem_append_right pre List.mem_cons_self) hmem
    · rw [heq, List.count_append]
      exact hcount

def transcriber : Env where
  enableReconnect := true
  isLongConnection := true
  typeDialog := false
  speechWakeWordDialog := false
  eventAdd _ := true

def connecting : List Event :=
  [.launch, .connected, .handshaking, .request 0 0, .response ⟨0, .failed, 0, 0⟩,
    .response ⟨0, .frames [.text (.event .transcriptionStarted 20000000)], 0, 0⟩]

def Event.isResponse : Event → Bool
  | .response _ => true
  | _ => false

theorem tidyRun_unanswered {es : List Event} (h : ∀ e ∈ es, e.isResponse = false) :
    TidyRun E n es := by
  induction es generalizing n with
  | nil => trivial
  | cons e es ih =>
    refine ⟨fun r fs he => ?_, ih fun e' he' => h e' (List.mem_cons_of_mem _ he')⟩
    have hr := h e List.mem_cons_self
    rw [he] at hr
    cases hr

theorem tidyRun_connecting {es : List Event} (h : ∀ e ∈ es, e.isResponse = false) :
    TidyRun transcriber invoked (connecting ++ es) := by
  refine ⟨?_, ?_, ?_, ?_, ?_, ?_, tidyRun_unanswered h⟩
  all_goals
    intro r fs he hr hs
    cases he
  · cases hr
  · cases hr
    decide

theorem close_comes_last_transcriber :
    (run transcriber invoked (connecting ++ [.timeout 10000102])).history =
        [.launched, .called .transcriptionStarted, .called .taskFailed, .called .close] ∧
      ∀ pre post, (run transcriber invoked (connecting ++ [.timeout 10000102])).history =
        pre ++ .called .close :: post → post = [] :=
  ⟨by decide, (close_comes_last (tidyRun_connecting (by decide))).1⟩

theorem closed_again (h : Ended n) (hx : n.exitStatus ≠ .exitCancel)
    (hs : n.state ≠ .willReconnect) {code : ℤ} (hk : ¬ Kept E n code) :
    (parseFrame E n (.text (.event .taskFailed code))).1.history =
      n.history ++ [.called .taskFailed, .called .close] := by
  have hv : n.workStatus ≠ .nodeInvalid := fun hf => absurd (h.workStatus.symm.trans hf) (by decide)
  have ho : Open { n with workStatus := .nodeFailed } :=
    ⟨fun hf => (by cases hf), fun hf => (by cases hf), hx⟩
  have hk' : ¬ Kept E { n with workStatus := .nodeFailed } code := hk
  have hp : parseFrame E n (.text (.event .taskFailed code)) =
      frameEvent E n (some (.taskFailed, code)) success := rfl
  obtain ⟨s, -, heq⟩ := taskFailed_reported ho (fun hw => absurd hw hs) hk'
  rw [hp, frameEvent_taskFailed hv hx, heq]

end phases

section phrases
variable {E : Env} {strict : Prop} {n n' : Node}

/-- What one move adds to the history, if it adds anything. -/
inductive Phrase : List Happening → Prop
  | launched : Phrase [.launched]
  | called {type : EventType} (ht : type ≠ .taskFailed) (hc : type ≠ .close) :
      Phrase [.called type]
  | reported : Phrase [.called .taskFailed, .called .close]
  | ignored : Phrase [.ignored .taskFailed, .ignored .close]
  | retried : Phrase [.ignored .taskFailed, .ignored .close, .reconnecting]
  | closed : Phrase [.called .close]
  | closeIgnored : Phrase [.ignored .close]
  | closeRetried : Phrase [.ignored .close, .reconnecting]

/-- The launches that are due. -/
def due (n : Node) : ℕ := n.launchEvent.toNat + n.reconnectEvent.toNat

structure Adds (E : Env) (n n' : Node) (t : List Happening) : Prop where
  history : n'.history = n.history ++ t
  phrase : t = [] ∨ Phrase t
  due : t.count .launched + due n' ≤ due n + t.count .reconnecting
  state : n'.state = .willReconnect → n.state = .willReconnect ∨ E.enableReconnect = true

theorem Adds.nothing (hh : n'.history = n.history) (hd : NodeSession.due n' = NodeSession.due n)
    (hs : n'.state = .willReconnect → n.state = .willReconnect ∨ E.enableReconnect = true) :
    Adds E n n' [] := by
  refine ⟨hh.trans (List.append_nil _).symm, Or.inl rfl, ?_, hs⟩
  rw [hd]
  exact Nat.le_of_eq (Nat.zero_add _)

theorem nodeReconnecting_adds {m : Node} {t : List Happening} (hm : m.history = n.history ++ t)
    (hl : m.launchEvent = n.launchEvent) (hr : m.reconnectEvent = n.reconnectEvent)
    (hu : t.count .launched = 0) (hp : Phrase t) (hp' : Phrase (t ++ [.reconnecting]))
    (hE : E.enableReconnect = true)
    (hh : n'.history = (nodeReconnecting E m).history)
    (hl' : n'.launchEvent = (nodeReconnecting E m).launchEvent)
    (hr' : n'.reconnectEvent = (nodeReconnecting E m).reconnectEvent) :
    ∃ t, Adds E n n' t := by
  obtain ⟨hlaunch, -, ⟨hsame, hre⟩ | hadd⟩ := nodeReconnecting_spec (E := E) m
  · refine ⟨t, hh.trans (hsame.trans hm), Or.inr hp, ?_, fun _ => Or.inr hE⟩
    have hd : due n' = due n := by
      rw [due, due, hl', hr', hlaunch, hre, hl, hr]
    rw [hd, hu]
    omega
  · refine ⟨t ++ [.reconnecting], ?_, Or.inr hp', ?_, fun _ => Or.inr hE⟩
    · rw [hh, hadd, hm, List.append_assoc]
    · have hd : due n' ≤ due n + 1 := by
        rw [due, due, hl', hlaunch, hl]
        have hle := Bool.toNat_le n'.reconnectEvent
        omega
      rw [List.count_append, List.count_append, hu]
      have hone : [Happening.reconnecting].count .reconnecting = 1 := rfl
      have hzero : [Happening.reconnecting].count .launched = 0 := rfl
      omega

theorem failing_spec (n : Node) :
    (failing n).history = n.history ∧ (failing n).launchEvent = n.launchEvent ∧
      (failing n).reconnectEvent = n.reconnectEvent := by
  rw [failing]
  split
  · exact ⟨rfl, rfl, rfl⟩
  · exact ⟨rfl, rfl, rfl⟩

theorem Open.failed_adds (h : Open n) (hw : n.state = .willReconnect → E.enableReconnect = true)
    (code : ℤ) : ∃ t, Adds E n (handlerTaskFailedEvent E n code) t := by
  by_cases hk : Kept E n code
  · obtain ⟨hh, hl, hr⟩ := failing_spec n
    have hm : (called (called (failing n) .taskFailed true) .close true).history =
        n.history ++ [.ignored .taskFailed, .ignored .close] := by
      simp only [called, hh, if_true, List.append_assoc, List.cons_append, List.nil_append]
    rw [taskFailed_kept h hk]
    exact nodeReconnecting_adds hm hl hr rfl .ignored .retried hk.1 rfl rfl rfl
  · obtain ⟨s, hs, heq⟩ := taskFailed_reported h hw hk
    rw [heq]
    refine ⟨[.called .taskFailed, .called .close], rfl, Or.inr .reported, ?_,
      fun hf => absurd hf hs⟩
    exact Nat.le_of_eq (Nat.zero_add _)

theorem Open.close_adds (h : Open n) (hw : n.state = .willReconnect → E.enableReconnect = true) :
    ∃ t, Adds E n (handlerClose E n) t := by
  by_cases hk : Withheld E n
  · have hm : (called n .close true).history = n.history ++ [.ignored .close] := rfl
    rw [handlerClose_withheld h hk]
    exact nodeReconnecting_adds hm rfl rfl rfl .closeIgnored .closeRetried hk.1 rfl rfl rfl
  · have hne : (called { n with state := closeState E n } .close false).state ≠ .willReconnect :=
      closeState_ne_will hw
    rw [handlerClose_called h hk, nodeReconnecting_idle hne]
    exact ⟨[.called .close], rfl, Or.inr .closed, Nat.le_of_eq (Nat.zero_add _),
      fun hf => absurd hf hne⟩

theorem channelClosed_adds (hw : n.state = .willReconnect → E.enableReconnect = true) (code : ℤ) :
    ∃ t, Adds E n (handlerFrame E n .close code).1 t := by
  by_cases hv : n.workStatus = .nodeInvalid
  · rw [handlerFrame, if_pos hv]
    exact ⟨[], .nothing rfl rfl Or.inl⟩
  · by_cases hk : Withheld E n
    · have hm : (called n .close true).history = n.history ++ [.ignored .close] := rfl
      rw [handlerFrame_withheld hv hk]
      exact nodeReconnecting_adds hm rfl rfl rfl .closeIgnored .closeRetried hk.1 rfl rfl rfl
    · have hne : (called { n with state := closeState E n } .close false).state ≠ .willReconnect :=
        closeState_ne_will hw
      rw [handlerFrame_close hv hk, nodeReconnecting_idle hne]
      exact ⟨[.called .close], rfl, Or.inr .closed, Nat.le_of_eq (Nat.zero_add _),
        fun hf => absurd hf hne⟩

theorem unopened_spec (h : ¬ Open n) (code : ℤ) :
    (∃ s, handlerClose E n = { n with workStatus := s }) ∧
      ∃ s, handlerTaskFailedEvent E n code = { n with workStatus := s } := by
  by_cases hx : n.exitStatus = .exitCancel
  · exact ⟨⟨n.workStatus, handlerEvent_cancelled hx _ _⟩,
      ⟨n.workStatus, taskFailed_cancelled hx code⟩⟩
  · by_cases hc : n.workStatus = .nodeClosed
    · exact ⟨⟨n.workStatus, handlerEvent_closed hc _ _⟩, ⟨n.workStatus, taskFailed_closed hc code⟩⟩
    · have hv : n.workStatus = .nodeInvalid := not_not.mp fun hv => h ⟨hv, hc, hx⟩
      have hclose : handlerClose E n = { n with workStatus := .nodeClosed } := by
        rw [handlerClose, handlerEvent, if_neg hx, if_neg hc, handlerFrame, if_pos hv]
        rfl
      have hfailed : handlerEvent E n .taskFailed code = n := by
        rw [handlerEvent, if_neg hx, if_neg hc, handlerFrame, if_pos hv]
        rfl
      refine ⟨⟨.nodeClosed, hclose⟩, ⟨.nodeClosed, ?_⟩⟩
      rw [handlerTaskFailedEvent, hfailed, hclose]

theorem Move.adds (hm : Move E strict n n')
    (hw : n.state = .willReconnect → E.enableReconnect = true) :
    ∃ t, Adds E n n' t := by
  cases hm with
  | unheard hu =>
    refine ⟨[], .nothing hu.history ?_ fun hs => ?_⟩
    · rw [due, due, hu.launchEvent, hu.reconnectEvent]
    · rcases hu.state with he | he
      · exact Or.inl (he.symm.trans hs)
      · exact absurd hs (ReconnectionState.idle_ne_will he)
  | failed code hl =>
    by_cases ho : Open n
    · exact ho.failed_adds hw code
    · obtain ⟨s, heq⟩ := (unopened_spec (E := E) ho code).2
      rw [heq]
      exact ⟨[], .nothing rfl rfl Or.inl⟩
  | close hl =>
    by_cases ho : Open n
    · exact ho.close_adds hw
    · obtain ⟨s, heq⟩ := (unopened_spec (E := E) ho 0).1
      rw [heq]
      exact ⟨[], .nothing rfl rfl Or.inl⟩
  | called hl ht hc hs =>
    exact ⟨_, rfl, Or.inr (.called ht hc), Nat.le_of_eq (Nat.zero_add _), Or.inl⟩
  | channelClosed code hl hs => exact channelClosed_adds hw code
  | launch hd =>
    refine ⟨[.launched], rfl, Or.inr .launched, ?_, Or.inl⟩
    have hone : 1 ≤ due n := by
      rcases hd with hd | hd
      · rw [due, hd]
        exact Nat.le_add_right _ _
      · rw [due, hd]
        exact Nat.le_add_left _ _
    exact hone

structure Phrased (E : Env) (n : Node) : Prop where
  state : n.state = .willReconnect → E.enableReconnect = true
  phrases : ∃ ps : List (List Happening), n.history = ps.flatten ∧ ∀ t ∈ ps, Phrase t
  launches : n.history.count .launched + due n ≤ n.history.count .reconnecting + 1
  announced : ∀ pre, pre <+: n.history → pre.count .launched ≤ pre.count .reconnecting + 1

theorem Phrase.launches {t : List Happening} (h : Phrase t) :
    t = [.launched] ∨ .launched ∉ t := by
  cases h with
  | launched => exact Or.inl rfl
  | called ht hc => exact Or.inr fun hmem => by cases List.mem_singleton.mp hmem
  | _ => exact Or.inr (by decide)

theorem Phrased.move (h : Phrased E n) (hm : Move E strict n n') : Phrased E n' := by
  obtain ⟨t, ha⟩ := hm.adds h.state
  have hlaunches : n'.history.count .launched + due n' ≤ n'.history.count .reconnecting + 1 := by
    have hdue := ha.due
    have hold := h.launches
    rw [ha.history, List.count_append, List.count_append]
    omega
  refine ⟨fun hs => (ha.state hs).elim h.state id, ?_, hlaunches, ?_⟩
  · obtain ⟨ps, heq, hps⟩ := h.phrases
    rcases ha.phrase with rfl | hp
    · exact ⟨ps, by rw [ha.history, List.append_nil, heq], hps⟩
    · refine ⟨ps ++ [t], by rw [ha.history, heq, List.flatten_append, List.flatten_singleton], ?_⟩
      intro u hu
      rcases List.mem_append.mp hu with hu | hu
      · exact hps u hu
      · exact List.mem_singleton.mp hu ▸ hp
  · intro pre hpre
    have hh : n.history <+: n'.history := ha.history ▸ List.prefix_append _ _
    rcases List.prefix_or_prefix_of_prefix hpre hh with hold | ⟨p, rfl⟩
    · exact h.announced pre hold
    · have hp : p <+: t := by
        rw [ha.history] at hpre
        exact (List.prefix_append_right_inj _).mp hpre
      have hle : (n.history ++ p).count .launched ≤ n'.history.count .launched :=
        hpre.sublist.count_le _
      have hone : t = [.launched] ∨ .launched ∉ t := by
        rcases ha.phrase with rfl | ht
        · exact Or.inr List.not_mem_nil
        · exact ht.launches
      rw [List.count_append, List.count_append]
      rcases hone with rfl | hn
      · have hr : n'.history.count .reconnecting = n.history.count .reconnecting := by
          rw [ha.history, List.count_append]
          rfl
        rw [List.count_append] at hle
        omega
      · have hz : p.count .launched = 0 :=
          List.count_eq_zero_of_not_mem fun hmem => hn (hp.subset hmem)
        have hold := h.announced n.history List.prefix_rfl
        omega

theorem Phrased.moves (h : Phrased E n) (hm : Moves E strict n n') : Phrased E n' := by
  induction hm with
  | refl => exact h
  | tail _ hmove ih => exact ih.move hmove

theorem phrased_invoked : Phrased E invoked := by
  refine ⟨fun hf => absurd hf (by decide), ⟨[], rfl, fun t ht => absurd ht List.not_mem_nil⟩,
    by decide, fun pre hp => ?_⟩
  rw [List.prefix_nil.mp hp]
  decide

/-- In every run a failure is handed over as a `TaskFailed` and a `Close` in a row or ignored as
both, and each launch behind the first was announced by a reconnection of its own. -/
theorem failures_whole (es : List Event) :
    (∃ ps : List (List Happening),
        (run E invoked es).history = ps.flatten ∧ ∀ t ∈ ps, Phrase t) ∧
      ∀ pre, pre <+: (run E invoked es).history →
        pre.count .launched ≤ pre.count .reconnecting + 1 := by
  have hmoves : Moves E False invoked (run E invoked es) :=
    run_moves ready_invoked fun hf => hf.elim
  have hphrased := phrased_invoked.moves hmoves
  exact ⟨hphrased.phrases, hphrased.announced⟩

end phrases

end RtmpRelay.NodeSession
