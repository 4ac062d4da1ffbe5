import RtmpRelay.HeardFrames

/-!
# The first frame of the next connection

The stage of the decoder and the header it has read belong to the node, and
nothing sets them back when a connection is given up. If one is cut inside the
payload of a frame, the bytes of the next are taken for that frame: its opcode,
its length and the place of its payload are those of the old header.
-/

namespace RtmpRelay.FrameDelivery

open WebSocketTcp FrameFormat WebSocketResponse

section cut
variable {σ : Type*} {E : Env σ} {f : Message} {n : Node σ}

/-- The decoder stands inside the payload of `f`. -/
structure Cut (f : Message) (n : Node σ) : Prop where
  stage : n.rStatus = .wsContentBody
  header : HeadRead f n.wsType
  N : n.wsType.N = f.payload.length

/-- What the header of `f` makes of other bytes. -/
def misread (f : Message) (content : List UInt8) : Message :=
  { f with payload := (content.drop (head f)).take f.payload.length }

/-- Frames were handed on, which made `s'` of `s`. -/
def Grown (E : Env σ) (s s' : σ) : Prop :=
  ∃ fs : List (List UInt8 × WebSocketFrame),
    s' = fs.foldl (fun s f => (E.parseFrame s f.1 f.2).1) s

theorem Grown.next {s s' : σ} (h : Grown E s s') (frame : List UInt8) (f : WebSocketFrame) :
    Grown E s (E.parseFrame s' frame f).1 := by
  obtain ⟨fs, hfs⟩ := h
  refine ⟨fs ++ [(frame, f)], ?_⟩
  rw [List.foldl_append, ← hfs]
  rfl

theorem turn_cut_waits (hrealloc : ∀ n, E.realloc n = true) (hn : Cut f n) (hf : Served f)
    (hd : f.opCode.IsData) (frame : List UInt8)
    (hlt : n.readEvBuffer.length < (serverFrame f).length) :
    (turn E n frame).eLoop = false ∧ (turn E n frame).ret = 0 ∧ (turn E n frame).node = n := by
  obtain ⟨stale, hturn⟩ := turn_eq hrealloc n frame
  have hnode : ({ n with rStatus := .wsContentBody, wsType := n.wsType } : Node σ) = n := by
    rw [← hn.stage]
  have hwaits := contentBody_waits (n.readEvBuffer ++ stale) hf.2.1 hd.ne_pong hn.header hn.N
    (Or.inr hlt)
  have hno : ¬ -NlsRetCode.invalidWsFrameBody.code = success := by decide
  rw [hturn, hn.stage]
  simp only [receiveFullWebSocketFrame, hwaits, if_neg hno]
  exact ⟨trivial, trivial, hnode⟩

theorem turn_cut_whole (hrealloc : ∀ n, E.realloc n = true) (hn : Cut f n) (hf : Served f)
    (hd : f.opCode.IsData) (frame : List UInt8)
    (hle : (serverFrame f).length ≤ n.readEvBuffer.length) :
    ∃ buffer, turn E n frame = decoded E { n with rStatus := .wsHeadSize } n.readEvBuffer.length
        buffer (dataFrame f) ∧
      bytes buffer (dataFrame f) = (misread f n.readEvBuffer).payload := by
  obtain ⟨stale, hturn⟩ := turn_eq hrealloc n frame
  refine ⟨n.readEvBuffer ++ stale, ?_, ?_⟩
  · rw [hturn, hn.stage]
    simp only [receiveFullWebSocketFrame,
      contentBody_whole (n.readEvBuffer ++ stale) hf hd hn.header hn.N hle, if_true]
  · rw [serverFrame_length] at hle
    exact take_drop_append hle

theorem decoded_first (hr : E.releasingFlag n.user = false) (frameSize : ℕ)
    (frame : List UInt8) (wsFrame : WebSocketFrame) :
    (decoded E n frameSize frame wsFrame).node.user =
      (E.parseFrame n.user frame (typed n wsFrame)).1 := by
  simp only [decoded, hr, Bool.false_eq_true, if_false]
  split
  · rfl
  · split
    · rfl
    · split
      · rfl
      · rfl

theorem loop_cut (hrealloc : ∀ n, E.realloc n = true) (hr : E.releasingFlag n.user = false)
    (hn : Cut f n) (hf : Served f) (hd : f.opCode.IsData) (frame : List UInt8)
    (hle : (serverFrame f).length ≤ n.readEvBuffer.length) :
    ∃ buffer, bytes buffer (dataFrame f) = (misread f n.readEvBuffer).payload ∧
      Grown E (E.parseFrame n.user buffer (dataFrame f)).1 (responseLoop E n frame).1.user := by
  obtain ⟨buffer, hturn, hbytes⟩ := turn_cut_whole hrealloc hn hf hd frame hle
  refine ⟨buffer, hbytes, ?_⟩
  have htyped : typed { n with rStatus := .wsHeadSize } (dataFrame f) = dataFrame f := by
    rw [typed, hn.header.opCode, if_neg hd.ne_pong]
  have huser : (turn E n frame).node.user = (E.parseFrame n.user buffer (dataFrame f)).1 := by
    rw [hturn, decoded_first (n := { n with rStatus := .wsHeadSize }) hr, htyped]
  have hfirst : Grown E (E.parseFrame n.user buffer (dataFrame f)).1
      (turn E n frame).node.user := ⟨[], huser⟩
  have hne : n.readEvBuffer ≠ [] := by
    intro h
    have hhead := head_le f
    rw [h, serverFrame_length, List.length_nil] at hle
    omega
  cases hl : (turn E n frame).eLoop with
  | false =>
    rw [responseLoop_stop E hne hl]
    exact hfirst
  | true =>
    rw [responseLoop_again E hne hl]
    exact responseLoop_user (P := Grown E (E.parseFrame n.user buffer (dataFrame f)).1)
      (fun s frame f h => Grown.next h frame f) hfirst _

theorem chunk_cut_waits (hrealloc : ∀ n, E.realloc n = true)
    (hr : E.releasingFlag n.user = false) (hn : Cut f n) (hf : Served f) (hd : f.opCode.IsData)
    {c : List UInt8} (hlt : (n.readEvBuffer ++ c).length < (serverFrame f).length) :
    webSocketResponse E n (.bytes c) = ({ n with readEvBuffer := n.readEvBuffer ++ c }, 0) := by
  have hn' : Cut f { n with readEvBuffer := n.readEvBuffer ++ c } := ⟨hn.stage, hn.header, hn.N⟩
  cases c with
  | nil =>
    rw [webSocketResponse, hr, List.append_nil]
    rfl
  | cons b c =>
    obtain ⟨hloop, hret, hnode⟩ := turn_cut_waits hrealloc hn' hf hd
      ((b :: c) ++ List.replicate (readBufferSize - (b :: c).length) 0) hlt
    have hne : n.readEvBuffer ++ (b :: c) ≠ [] := by
      intro h
      cases (List.append_eq_nil_iff.mp h).2
    have hstop := responseLoop_stop E (n := { n with readEvBuffer := n.readEvBuffer ++ (b :: c) })
      hne hloop
    rw [hret, hnode] at hstop
    simp only [webSocketResponse, hr, Bool.false_eq_true, if_false]
    exact hstop

theorem chunk_cut (hrealloc : ∀ n, E.realloc n = true) (hr : E.releasingFlag n.user = false)
    (hn : Cut f n) (hf : Served f) (hd : f.opCode.IsData) {c : List UInt8} (hc : c ≠ [])
    (hle : (serverFrame f).length ≤ (n.readEvBuffer ++ c).length) :
    ∃ buffer, bytes buffer (dataFrame f) = (misread f (n.readEvBuffer ++ c)).payload ∧
      Grown E (E.parseFrame n.user buffer (dataFrame f)).1
        (webSocketResponse E n (.bytes c)).1.user := by
  have hn' : Cut f { n with readEvBuffer := n.readEvBuffer ++ c } := ⟨hn.stage, hn.header, hn.N⟩
  cases c with
  | nil => exact absurd rfl hc
  | cons b c =>
    simp only [webSocketResponse, hr, Bool.false_eq_true, if_false]
    exact loop_cut hrealloc (n := { n with readEvBuffer := n.readEvBuffer ++ (b :: c) }) hr hn' hf
      hd _ hle

end cut

end RtmpRelay.FrameDelivery

namespace RtmpRelay.NodeWire

open WebSocketTcp WebSocketResponse FrameFormat
open FrameDelivery (Served Cut Grown misread deliver)
open NodeSession (Listening Begun)

section next
variable {E : Env} {f : Message}

/-- No byte of a frame is read on the way. -/
def Apart (E : Env) : Wire → List Event → Prop
  | _, [] => True
  | w, e :: es => (Begun w.session.workStatus → e.chunk = []) ∧ Apart E (step E w e) es

def Stood (w w' : Wire) : Prop :=
  w'.node.rStatus = w.node.rStatus ∧ w'.node.wsType = w.node.wsType

theorem Stood.refl (w : Wire) : Stood w w := ⟨rfl, rfl⟩

theorem gatewayResponse_stood (w : Wire) (read : Read) : Stood w (gatewayResponse E w read).1 := by
  obtain ⟨buffer, http, heq⟩ := gatewayResponse_left (E := E) w read
  rw [heq]
  exact Stood.refl w

theorem webSocketResponse_stood (w : Wire) {r : Reading} (h : (Event.read r).chunk = []) :
    Stood w (webSocketResponse E w r.read).1 := by
  obtain ⟨read, sent, code⟩ := r
  rw [webSocketResponse]
  cases read with
  | failed => exact Stood.refl w
  | bytes chunk =>
    have hempty : chunk = [] := h
    rw [hempty]
    exact Stood.refl w

theorem responded_stood {w : Wire} (hfirst : First w) (hready : w.readEvent = true) {r : Reading}
    (h : Begun w.session.workStatus → (Event.read r).chunk = []) :
    Stood w (responded E w r).1 := by
  have hanswer := gatewayResponse_stood (E := E) w r.read
  cases responded_cases (E := E) w r with
  | nothing heq =>
    rw [heq]
    exact Stood.refl w
  | answer _ heq =>
    rw [heq]
    exact hanswer
  | accepted _ _ _ heq =>
    rw [heq]
    exact hanswer
  | frames hs _ heq =>
    rw [heq]
    rcases hs with hs | hs | hs | hs
    · exact webSocketResponse_stood w (h (Or.inl hs))
    · exact webSocketResponse_stood w (h (Or.inr (Or.inl hs)))
    · exact webSocketResponse_stood w (h (Or.inr (Or.inr hs)))
    · rw [hfirst.readEvent (Or.inl hs)] at hready
      cases hready

theorem step_stood {w : Wire} (hfirst : First w) {e : Event}
    (h : Begun w.session.workStatus → e.chunk = []) : Stood w (step E w e) := by
  cases e with
  | read r =>
    rcases step_read_cases (E := E) w r with heq | ⟨hr, -, heq⟩
    · rw [heq]
      exact Stood.refl w
    · have hstood := responded_stood (E := E) hfirst hr h
      rw [heq]
      rcases nodeResponseProcess_cases (E := E) w r with heq | heq
      · rw [heq]
        exact hstood
      · rw [heq]
        exact hstood
  | other e => exact Stood.refl w

theorem run_cut {w : Wire} (hfirst : First w) {es : List Event} (h : Apart E w es)
    (hcut : Cut f w.node) : Cut f (run E w es).node := by
  induction es generalizing w with
  | nil => exact hcut
  | cons e es ih =>
    obtain ⟨hstage, htype⟩ := step_stood (E := E) hfirst h.1
    refine ih (hfirst.step e) h.2 ⟨?_, ?_, ?_⟩
    · rw [hstage, hcut.stage]
    · rw [htype]
      exact hcut.header
    · rw [htype]
      exact hcut.N

structure Quiet (f : Message) (content : List UInt8) (w w' : Wire) : Prop where
  cut : Cut f w'.node
  buffer : w'.node.readEvBuffer = w.node.readEvBuffer ++ content
  heard : w'.heard = w.heard
  listening : Listening w'.session
  readEvent : w'.readEvent = true

theorem Quiet.trans {c d : List UInt8} {w w₁ w₂ : Wire} (h₁ : Quiet f c w w₁)
    (h₂ : Quiet f d w₁ w₂) : Quiet f (c ++ d) w w₂ := by
  refine ⟨h₂.cut, ?_, h₂.heard.trans h₁.heard, h₂.listening, h₂.readEvent⟩
  rw [h₂.buffer, h₁.buffer, List.append_assoc]

theorem step_quiet (hrealloc : ∀ n, E.realloc n = true) (hf : Served f) (hd : f.opCode.IsData)
    {w : Wire} (hcut : Cut f w.node) (hw : Listening w.session) (hr : w.readEvent = true)
    {e : Event} (he : Smooth e)
    (hlt : (w.node.readEvBuffer ++ e.chunk).length < (serverFrame f).length) :
    Quiet f e.chunk w (step E w e) := by
  cases e with
  | read r =>
    obtain ⟨⟨chunk, hread, -⟩, hsent⟩ := he
    rw [read_chunk hread] at hlt ⊢
    have hwaits := FrameDelivery.chunk_cut_waits (E := wireEnv E) hrealloc rfl hcut hf hd hlt
    have hresponse : webSocketResponse E w r.read = ({ w with
        node := { w.node with readEvBuffer := w.node.readEvBuffer ++ chunk } }, 0) := by
      rw [webSocketResponse, hread, hwaits]
    have hret : 0 ≤ (webSocketResponse E w r.read).2 := by
      rw [hresponse]
    obtain ⟨b, hspoken⟩ := nodeResponseProcess_spoken hw.begun hret hsent
    rw [step_read hw hr, hspoken, hresponse]
    exact ⟨⟨hcut.stage, hcut.header, hcut.N⟩, rfl, rfl, hw.flags b hw.exit, hr⟩
  | other e =>
    obtain ⟨hears, hready⟩ := step_other (E := E) hw hr he
    exact ⟨⟨hcut.stage, hcut.header, hcut.N⟩, (List.append_nil _).symm, rfl, hears.listening,
      hready⟩

theorem run_quiet (hrealloc : ∀ n, E.realloc n = true) (hf : Served f) (hd : f.opCode.IsData)
    {es : List Event} (hes : ∀ e ∈ es, Smooth e) {w : Wire} (hcut : Cut f w.node)
    (hw : Listening w.session) (hr : w.readEvent = true)
    (hlt : (w.node.readEvBuffer ++ es.flatMap Event.chunk).length < (serverFrame f).length) :
    Quiet f (es.flatMap Event.chunk) w (run E w es) := by
  induction es generalizing w with
  | nil => exact ⟨hcut, (List.append_nil _).symm, rfl, hw, hr⟩
  | cons e es ih =>
    rw [List.flatMap_cons, ← List.append_assoc, List.length_append] at hlt
    have hstep := step_quiet hrealloc hf hd hcut hw hr (hes e List.mem_cons_self)
      (Nat.lt_of_le_of_lt (Nat.le_add_right _ _) hlt)
    rw [← List.length_append, ← hstep.buffer] at hlt
    rw [List.flatMap_cons]
    exact hstep.trans (ih (fun x hx => hes x (List.mem_cons_of_mem e hx)) hstep.cut hstep.listening
      hstep.readEvent hlt)

/-- A connection is cut inside a data frame. When the node listens again, nothing is heard until as
many bytes have come as that frame had, and then they are handed on as that frame. -/
theorem header_outlives_connection (hrealloc : ∀ n, E.realloc n = true) {es₀ : List Event}
    (hf : Served f) (hd : f.opCode.IsData) (hcut : Cut f (run E invoked es₀).node)
    {es : List Event} (hes : Apart E (run E invoked es₀) es) {w : Wire}
    (hrun : run E (run E invoked es₀) es = w) (hw : Listening w.session)
    (hr : w.readEvent = true) (hbuf : w.node.readEvBuffer = []) {es' : List Event}
    (hes' : ∀ e ∈ es', Smooth e)
    (hlt : (es'.flatMap Event.chunk).length < (serverFrame f).length) {c : List UInt8}
    (hle : (serverFrame f).length ≤ (es'.flatMap Event.chunk ++ c).length) :
    (run E w es').heard = w.heard ∧
      Grown (wireEnv E)
        (deliver (taken E) (run E w es').node.user (misread f (es'.flatMap Event.chunk ++ c)))
        (webSocketResponse E (run E w es') (.bytes c)).1.node.user := by
  have hfirst : First (run E invoked es₀) := first_invoked.run es₀
  have hcut' : Cut f w.node := by
    rw [← hrun]
    exact run_cut hfirst hes hcut
  have hquiet : Quiet f (es'.flatMap Event.chunk) w (run E w es') := by
    refine run_quiet hrealloc hf hd hes' hcut' hw hr ?_
    rw [hbuf]
    exact hlt
  have hbuffer := hquiet.buffer
  rw [hbuf, List.nil_append] at hbuffer
  have hc : c ≠ [] := by
    intro h
    rw [h, List.append_nil] at hle
    omega
  obtain ⟨buffer, hbytes, hgrown⟩ := FrameDelivery.chunk_cut (E := wireEnv E) hrealloc rfl
    hquiet.cut hf hd hc (by rwa [hbuffer])
  rw [hbuffer] at hbytes
  have hfirstFrame : ((wireEnv E).parseFrame (run E w es').node.user buffer
      (FrameDelivery.dataFrame f)).1 = deliver (taken E) (run E w es').node.user
        (misread f (es'.flatMap Event.chunk ++ c)) := by
    rw [deliver, taken, ← hbytes]
    rfl
  rw [hfirstFrame] at hgrown
  exact ⟨hquiet.heard, hgrown⟩

def cutText : List Event := switching ++ [.read ⟨.bytes [0x81, 2, 0x7b], 0, 0⟩]

def again : List Event := .read ⟨.failed, 0, NodeSession.defaultErrorCode⟩ :: switching

theorem header_outlives_connection_again :
    (run transcriber (run transcriber (run transcriber invoked cutText) again)
        [.read ⟨.bytes [0x81], 0, 0⟩]).heard =
      (run transcriber (run transcriber invoked cutText) again).heard ∧
    Grown (wireEnv transcriber)
      (deliver (taken transcriber)
        (run transcriber (run transcriber (run transcriber invoked cutText) again)
          [.read ⟨.bytes [0x81], 0, 0⟩]).node.user
        ⟨true, .textFrame, [0x7b, 0x20]⟩)
      (webSocketResponse transcriber
        (run transcriber (run transcriber (run transcriber invoked cutText) again)
          [.read ⟨.bytes [0x81], 0, 0⟩]) (.bytes [3, 0x7b, 0x20, 0x7d])).1.node.user := by
  have hf : Served ⟨true, .textFrame, [0x7b, 0x7d]⟩ := by decide
  have hcut : Cut ⟨true, .textFrame, [0x7b, 0x7d]⟩ (run transcriber invoked cutText).node :=
    ⟨by decide +kernel,
      ⟨by decide +kernel, by decide +kernel, by decide +kernel, by decide +kernel⟩,
      by decide +kernel⟩
  have hapart : Apart transcriber (run transcriber invoked cutText) again :=
    ⟨fun _ => rfl, fun _ => rfl, fun _ => rfl, fun _ => rfl, fun _ => rfl,
      fun h => absurd h (by decide +kernel), trivial⟩
  have hw : Listening (run transcriber (run transcriber invoked cutText) again).session :=
    ⟨by decide +kernel, by decide +kernel, by decide +kernel, by decide +kernel⟩
  have hes' : ∀ e ∈ ([.read ⟨.bytes [0x81], 0, 0⟩] : List Event), Smooth e := by
    intro e he
    rw [List.mem_singleton.mp he]
    exact ⟨⟨_, rfl, by decide⟩, by decide⟩
  exact header_outlives_connection (fun _ => rfl) hf (by decide) hcut hapart rfl hw
    (by decide +kernel) (by decide +kernel) hes' (by decide) (c := [3, 0x7b, 0x20, 0x7d])
    (by decide)

end next

end RtmpRelay.NodeWire
