import RtmpRelay.Asr

/-!
# The sessions of the recogniser

Every `start` opens a session and stores its request in `m_request`. A session
that fails delivers `onTaskFailed` and then `onChannelClosed`; one that ends
cleanly delivers `onChannelClosed` alone. Both callbacks restart without
looking at the session they are called for, so a session that fails is
replaced twice. Sessions stay single in exactly the runs without a failure.
-/

namespace RtmpRelay

open Machine Machine.Outcome Media

inductive Phase
  | live
  | failing
  | closed
  deriving DecidableEq, Repr

inductive SessionEvent
  | taskFailed (id : ℕ) (t : TokenReply) (created : Bool)
  | channelClosed (id : ℕ) (t : TokenReply) (created : Bool)
  | other (id : ℕ)
  | sendAudio (pkt : AVPacket) (sdk : SdkReply)

def SessionEvent.isTaskFailed : SessionEvent → Bool
  | .taskFailed _ _ _ => true
  | _ => false

def SessionEvent.session : SessionEvent → Option ℕ
  | .taskFailed id _ _ => some id
  | .channelClosed id _ _ => some id
  | .other id => some id
  | .sendAudio _ _ => none

structure Sessions (δ : Decoder) (ω : Resampler) where
  asr : Asr δ ω
  phases : List Phase

namespace Sessions
variable {δ : Decoder} {ω : Resampler} {fuel : ℕ}

def init (a : Asr δ ω) (t : TokenReply) : Sessions δ ω :=
  { asr := (a.start t (some 0)).2
    phases := [.live] }

def fresh (s : Sessions δ ω) (created : Bool) : Option ℕ :=
  if created then some s.phases.length else none

/-- The phases after a callback of session `id` that has left it in `phase`. -/
def restarted (s : Sessions δ ω) (id : ℕ) (phase : Phase) (created : Bool) : List Phase :=
  s.phases.set id phase ++ if created then [.live] else []

def step (fuel : ℕ) (s : Sessions δ ω) : SessionEvent → Outcome Stop (Sessions δ ω)
  | .taskFailed id t created =>
    if s.phases[id]? = some .live then
      .ok { asr := s.asr.onTaskFailed t (s.fresh created)
            phases := s.restarted id .failing created }
    else .halt .notEnabled s
  | .channelClosed id t created =>
    if s.phases[id]? = some .live ∨ s.phases[id]? = some .failing then
      .ok { asr := s.asr.onChannelClosed t (s.fresh created)
            phases := s.restarted id .closed created }
    else .halt .notEnabled s
  | .other id =>
    if s.phases[id]? = some .live then .ok s else .halt .notEnabled s
  | .sendAudio pkt sdk =>
    match s.asr.sendAudio fuel pkt sdk with
    | .error e => .halt (.halted e) s
    | .ok (_, _, a) => .ok { s with asr := a }

def run (fuel : ℕ) (s : Sessions δ ω) (es : List SessionEvent) : Outcome Stop (Sessions δ ω) :=
  Machine.run (step fuel) s es

def Unclosed (s : Sessions δ ω) (id : ℕ) : Prop :=
  s.phases[id]? = some .live ∨ s.phases[id]? = some .failing

/-- At most one session is unclosed, and `m_request` is its request. -/
def Single (s : Sessions δ ω) : Prop :=
  (∀ i j, s.Unclosed i → s.Unclosed j → i = j) ∧ ∀ i, s.Unclosed i → s.asr.request = some i

/-- An event of a session other than the current one leaves the request and the
time base alone. -/
def Undisturbed (s : Sessions δ ω) (e : SessionEvent) (t : Sessions δ ω) : Prop :=
  ∀ id, e.session = some id → s.asr.request ≠ some id →
    t.asr.request = s.asr.request ∧ t.asr.firstAudioPts = s.asr.firstAudioPts

theorem single_of_request {s : Sessions δ ω}
    (h : ∀ i, s.Unclosed i → s.asr.request = some i) : s.Single := by
  refine ⟨?_, h⟩
  intro i j hi hj
  exact Option.some.inj ((h i hi).symm.trans (h j hj))

theorem Unclosed.lt_length {s : Sessions δ ω} {i : ℕ} (h : s.Unclosed i) :
    i < s.phases.length := by
  rcases h with h | h
  · exact (List.getElem?_eq_some_iff.mp h).1
  · exact (List.getElem?_eq_some_iff.mp h).1

theorem restarted_left (s : Sessions δ ω) (id : ℕ) (phase : Phase) (created : Bool) {i : ℕ}
    (hi : i < s.phases.length) :
    (s.restarted id phase created)[i]? = (s.phases.set id phase)[i]? := by
  rw [restarted, List.getElem?_append_left]
  rwa [List.length_set]

theorem closed_single {s : Sessions δ ω} (h : s.Single) {id : ℕ} (hid : s.Unclosed id)
    (a : Asr δ ω) (t : TokenReply) (created : Bool) :
    Single { asr := a.restart t (s.fresh created), phases := s.restarted id .closed created } := by
  apply single_of_request
  intro i hi
  rw [Asr.restart_request]
  have hlen : s.phases.length ≤ i := by
    by_contra hlt
    have hphase := s.restarted_left id .closed created (Nat.lt_of_not_le hlt)
    by_cases heq : id = i
    · subst heq
      rw [List.getElem?_set_self hid.lt_length] at hphase
      rcases hi with hi | hi <;> cases hphase.symm.trans hi
    · rw [List.getElem?_set_ne heq] at hphase
      have hold : s.Unclosed i := hi.imp hphase.symm.trans hphase.symm.trans
      exact heq (h.1 id i hid hold)
  cases created with
  | true =>
    have hlt : i < (s.restarted id .closed true).length := hi.lt_length
    have hall : (s.restarted id .closed true).length = s.phases.length + 1 := by simp [restarted]
    have heq : i = s.phases.length := by omega
    rw [heq]
    rfl
  | false =>
    have hlt : i < (s.restarted id .closed false).length := hi.lt_length
    have hall : (s.restarted id .closed false).length = s.phases.length := by simp [restarted]
    omega

theorem failed_not_single {s : Sessions δ ω} {id : ℕ} (hid : s.phases[id]? = some .live)
    (a : Asr δ ω) (t : TokenReply) (created : Bool) :
    ¬ Single { asr := a.restart t (s.fresh created),
               phases := s.restarted id .failing created } := by
  intro h
  have hlt : id < s.phases.length := (List.getElem?_eq_some_iff.mp hid).1
  have hphase := s.restarted_left id .failing created hlt
  rw [List.getElem?_set_self hlt] at hphase
  have hreq := h.2 id (Or.inr hphase)
  rw [Asr.restart_request, fresh] at hreq
  split_ifs at hreq
  have heq := Option.some.inj hreq
  omega

theorem step_single {s t : Sessions δ ω} {e : SessionEvent} (h : s.Single)
    (hstep : step fuel s e = .ok t) :
    (t.Single ↔ e.isTaskFailed = false) ∧ (e.isTaskFailed = false → Undisturbed s e t) := by
  cases e with
  | taskFailed id tok created =>
    rw [step] at hstep
    split_ifs at hstep with hid
    cases hstep
    exact ⟨iff_of_false (failed_not_single hid _ _ _) (by simp [SessionEvent.isTaskFailed]),
      by simp [SessionEvent.isTaskFailed]⟩
  | channelClosed id tok created =>
    rw [step] at hstep
    split_ifs at hstep with hid
    cases hstep
    refine ⟨iff_of_true (closed_single h hid _ _ _) rfl, fun _ => ?_⟩
    intro i hi hreq
    cases hi
    exact absurd (h.2 id hid) hreq
  | other id =>
    rw [step] at hstep
    split_ifs at hstep
    cases hstep
    exact ⟨iff_of_true h rfl, fun _ _ _ _ => ⟨rfl, rfl⟩⟩
  | sendAudio pkt sdk =>
    rw [step] at hstep
    split at hstep
    · simp at hstep
    · next hsend =>
      cases hstep
      refine ⟨iff_of_true (single_of_request fun i hi => ?_) rfl, fun _ i hi => by cases hi⟩
      rw [(Asr.sendAudio_ok hsend).1]
      exact h.2 i hi

theorem init_single (a : Asr δ ω) (t : TokenReply) : (init a t).Single := by
  apply single_of_request
  intro i hi
  have hlt : i < 1 := hi.lt_length
  have heq : i = 0 := by omega
  rw [heq]
  rfl

theorem run_single {s t : Sessions δ ω} {es : List SessionEvent} (h : s.Single)
    (hes : ∀ e ∈ es, e.isTaskFailed = false) (hrun : run fuel s es = .ok t) : t.Single := by
  refine run_guarded (P := Single) (G := fun _ e => e.isTaskFailed = false)
    (fun _ _ _ hs he hst => (step_single hs hst).1.mpr he) h hrun ?_
  intro pre e post m heq _
  exact hes e (heq ▸ List.mem_append_right pre List.mem_cons_self)

/-- Sessions stay single, and superseded sessions without effect, in every
state of a run if and only if no session fails in it. -/
theorem sessions_single_iff (fuel : ℕ) (a : Asr δ ω) (t : TokenReply) {es : List SessionEvent}
    {s : Sessions δ ω} (hrun : run fuel (init a t) es = .ok s) :
    ((∀ pre post m, es = pre ++ post → run fuel (init a t) pre = .ok m → m.Single) ∧
      ∀ pre e post m m', es = pre ++ e :: post → run fuel (init a t) pre = .ok m →
        step fuel m e = .ok m' → Undisturbed m e m') ↔
    ∀ e ∈ es, e.isTaskFailed = false := by
  constructor
  · intro h e he
    obtain ⟨pre, post, rfl⟩ := List.append_of_mem he
    obtain ⟨m, hm, hrest⟩ := run_append_ok.mp hrun
    obtain ⟨m', hm', _⟩ := run_cons_ok.mp hrest
    have hbefore := h.1 pre (e :: post) m rfl hm
    have hafter := h.1 (pre ++ [e]) post m' (by simp) (run_concat_ok.mpr ⟨m, hm, hm'⟩)
    exact (step_single hbefore hm').1.mp hafter
  · intro h
    have hsingle : ∀ pre post m, es = pre ++ post → run fuel (init a t) pre = .ok m →
        m.Single := by
      intro pre post m heq hm
      exact run_single (init_single a t)
        (fun e he => h e (heq ▸ List.mem_append_left post he)) hm
    refine ⟨hsingle, ?_⟩
    intro pre e post m m' heq hm hm'
    have hmem : e ∈ es := heq ▸ List.mem_append_right pre List.mem_cons_self
    exact (step_single (hsingle pre (e :: post) m heq hm) hm').2 (h e hmem)

/-! The first session fails, or closes. -/

theorem failure_doubles_session :
    ¬ ∀ (δ : Decoder) (ω : Resampler) (fuel : ℕ) (a : Asr δ ω) (t : TokenReply)
      (es : List SessionEvent) (s : Sessions δ ω), run fuel (init a t) es = .ok s →
      ∀ i j, s.Unclosed i → s.Unclosed j → i = j := by
  intro h
  have heq := h pcmDecoder plainResampler 1 Asr.sample Asr.sampleToken
    [.taskFailed 0 Asr.sampleToken true, .channelClosed 0 Asr.sampleToken true] _ rfl 1 2
    (Or.inl rfl) (Or.inl rfl)
  simp at heq

theorem sessions_single_sample :
    ∃ s, run 1 (init Asr.sample Asr.sampleToken)
        [.channelClosed 0 Asr.sampleToken true, .other 1,
          .channelClosed 1 Asr.sampleToken true] = .ok s ∧
      s.phases = [.closed, .closed, .live] ∧ s.Single := by
  have hrun : run 1 (init Asr.sample Asr.sampleToken)
      [.channelClosed 0 Asr.sampleToken true, .other 1, .channelClosed 1 Asr.sampleToken true] =
        .ok _ := rfl
  have hall := (sessions_single_iff 1 Asr.sample Asr.sampleToken hrun).mpr (by decide)
  exact ⟨_, hrun, rfl, hall.1 _ [] _ (by simp) hrun⟩

end Sessions

end RtmpRelay
