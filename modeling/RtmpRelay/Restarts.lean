import RtmpRelay.Asr
import Mathlib.Data.List.Infix

/-!
# The time base across restarts

A restart resets the base, creates a request into `m_request` and starts it; a
packet is sent to the request of the moment and only then tests and sets the
base. The steps interleave, and neither side looks at the session of the
other's. The base is the first packet of the current session at every sentence
of it exactly when no restart lies between its reset and its creation there and
the first packet has done its test, provided the base was never set for another
session or during a restart.
-/

namespace RtmpRelay

open Machine Machine.Outcome Media

/-- A packet sent to `request`, with its test of the base still to come. -/
structure Sending where
  request : Option ℕ
  pkt : AVPacket
  exit : SendExit
  deriving DecidableEq, Repr

structure Restarts (δ : Decoder) (ω : Resampler) where
  asr : Asr δ ω
  sessions : ℕ
  resetting : ℕ
  starting : ℕ
  inFlight : Option Sending
  taken : List Sending

inductive RestartStep
  | resetAsrTimeBase
  | create (t : TokenReply) (created : Bool)
  | start
  | sendAudio (pkt : AVPacket) (sdk : SdkReply)
  | testAndSet
  | sentenceEnd (id : ℕ)
  deriving DecidableEq, Repr

def RestartStep.hasPts : RestartStep → Bool
  | .sendAudio pkt _ => pkt.pts != 0
  | _ => true

def RestartStep.isSentenceEnd : RestartStep → Bool
  | .sentenceEnd _ => true
  | _ => false

namespace Restarts
variable {δ : Decoder} {ω : Resampler} {fuel : ℕ}

def init (a : Asr δ ω) (t : TokenReply) : Restarts δ ω :=
  { asr := (a.start t (some 0)).2
    sessions := 1
    resetting := 0
    starting := 0
    inFlight := none
    taken := [] }

def fresh (s : Restarts δ ω) (created : Bool) : Option ℕ :=
  if created then some s.sessions else none

-- `a` is what `sendAudio` leaves; its test of the base is taken back here.
def sent (s : Restarts δ ω) (pkt : AVPacket) (x : SendExit) (a : Asr δ ω) : Restarts δ ω :=
  { s with
    asr := { a with firstAudioPts := s.asr.firstAudioPts }
    inFlight := some ⟨s.asr.request, pkt, x⟩
    taken := if x.positive then s.taken ++ [⟨s.asr.request, pkt, x⟩] else s.taken }

def tested (s : Restarts δ ω) (m : Sending) : Restarts δ ω :=
  { s with
    asr := { s.asr with firstAudioPts := Asr.baseAfter s.asr.firstAudioPts m.pkt.pts m.exit }
    inFlight := none }

def replaced (s : Restarts δ ω) (t : TokenReply) (created : Bool) : Restarts δ ω :=
  { s with
    asr := (s.asr.start t (s.fresh created)).2
    sessions := s.sessions + 1
    resetting := s.resetting - 1
    starting := if created then s.starting + 1 else s.starting }

def step (fuel : ℕ) (s : Restarts δ ω) : RestartStep → Outcome Stop (Restarts δ ω)
  | .resetAsrTimeBase =>
    .ok { s with asr := s.asr.resetAsrTimeBase, resetting := s.resetting + 1 }
  | .create t created =>
    if s.resetting = 0 then .halt .notEnabled s else .ok (s.replaced t created)
  | .start =>
    if s.starting = 0 then .halt .notEnabled s else .ok { s with starting := s.starting - 1 }
  | .sendAudio pkt sdk =>
    match s.inFlight with
    | some _ => .halt .notEnabled s
    | none =>
      match s.asr.sendAudio fuel pkt sdk with
      | .error e => .halt (.halted e) s
      | .ok (_, x, a) => .ok (s.sent pkt x a)
  | .testAndSet =>
    match s.inFlight with
    | none => .halt .notEnabled s
    | some m => .ok (s.tested m)
  | .sentenceEnd id =>
    if s.asr.request = some id then .ok s else .halt .notEnabled s

def run (fuel : ℕ) (s : Restarts δ ω) (as : List RestartStep) : Outcome Stop (Restarts δ ω) :=
  Machine.run (step fuel) s as

/-- The packets the session in `m_request` has taken. -/
def accepted (s : Restarts δ ω) : List Sending :=
  s.taken.filter fun m => m.request = s.asr.request

/-- The one packet the session has taken has not tested the base yet. -/
def Pending (s : Restarts δ ω) : Prop := ∃ m ∈ s.inFlight, s.accepted = [m]

/-- A test that sets the base does so for the session in `m_request`, with no
restart between its reset and its creation. -/
def CleanTest (s : Restarts δ ω) : Prop :=
  ∀ m ∈ s.inFlight, m.exit.positive = true → s.asr.firstAudioPts = 0 →
    s.resetting = 0 ∧ m.request = s.asr.request

instance (s : Restarts δ ω) : Decidable s.Pending :=
  inferInstanceAs (Decidable (∃ m ∈ s.inFlight, s.accepted = [m]))

instance (s : Restarts δ ω) : Decidable s.CleanTest :=
  inferInstanceAs (Decidable (∀ m ∈ s.inFlight, m.exit.positive = true →
    s.asr.firstAudioPts = 0 → s.resetting = 0 ∧ m.request = s.asr.request))

/-- At every sentence of the session in `m_request` the base is the `pts` of the
first packet it has taken. -/
def BaseRight (fuel : ℕ) (s : Restarts δ ω) (as : List RestartStep) : Prop :=
  ∀ pre id post m f rest, as = pre ++ .sentenceEnd id :: post → run fuel s pre = ok m →
    m.asr.request = some id → m.accepted = f :: rest → m.asr.getTimeBase = f.pkt.pts

/-! One restart without a step between is the callback, and one packet without
a step between is `sendAudio`. -/

theorem restart_uninterrupted (s : Restarts δ ω) (t : TokenReply) :
    ∃ u, run fuel s [.resetAsrTimeBase, .create t true, .start] = ok u ∧
      u.asr = s.asr.restart t (s.fresh true) :=
  ⟨_, rfl, rfl⟩

theorem sendAudio_uninterrupted {s : Restarts δ ω} {pkt : AVPacket} {sdk : SdkReply} {ret : Int}
    {x : SendExit} {a : Asr δ ω} (hfree : s.inFlight = none)
    (h : s.asr.sendAudio fuel pkt sdk = .ok (ret, x, a)) :
    ∃ u, run fuel s [.sendAudio pkt sdk, .testAndSet] = ok u ∧ u.asr = a := by
  refine ⟨(s.sent pkt x a).tested ⟨s.asr.request, pkt, x⟩, ?_, ?_⟩
  · simp [run, step, hfree, h, sent]
  · simp [tested, sent, ← (Asr.sendAudio_ok h).2]

/-! What the steps preserve. -/

inductive BaseFits (s : Restarts δ ω) : Prop
  | resetting (hr : s.resetting ≠ 0) (hb : s.asr.firstAudioPts = 0)
  | untaken (hr : s.resetting = 0) (ht : s.accepted = []) (hb : s.asr.firstAudioPts = 0)
  | pending (hr : s.resetting = 0) (hp : s.Pending) (hb : s.asr.firstAudioPts = 0)
  | set (f : Sending) (rest : List Sending) (hr : s.resetting = 0) (ht : s.accepted = f :: rest)
      (hp : ¬ s.Pending) (hb : s.asr.firstAudioPts = f.pkt.pts)

structure Tracks (s : Restarts δ ω) : Prop where
  current : ∀ id, s.asr.request = some id → id < s.sessions
  taken : ∀ m ∈ s.taken, m.exit.positive = true ∧ m.pkt.pts ≠ 0 ∧
    ∃ id, m.request = some id ∧ id < s.sessions
  inFlight : ∀ m, s.inFlight = some m → m.exit.positive = true → m ∈ s.taken
  base : s.BaseFits

theorem accepted_of_fresh {s : Restarts δ ω} (h : s.Tracks) (created : Bool) :
    (s.taken.filter fun m => m.request = s.fresh created) = [] := by
  apply List.filter_eq_nil_iff.mpr
  intro m hm heq
  obtain ⟨_, _, id, hid, hlt⟩ := h.taken m hm
  have hreq : some id = s.fresh created := hid.symm.trans (of_decide_eq_true heq)
  rw [fresh] at hreq
  split_ifs at hreq
  have hsame := Option.some.inj hreq
  omega

theorem not_pending_of_landed {s : Restarts δ ω} (h : s.inFlight = none) : ¬ s.Pending := by
  intro hp
  obtain ⟨m, hm, _⟩ := hp
  cases h.symm.trans hm

theorem init_tracks {a : Asr δ ω} (ha : a.firstAudioPts = 0) (t : TokenReply) :
    (init a t).Tracks := by
  refine ⟨?_, ?_, ?_, ?_⟩
  · intro id hid
    cases hid
    exact Nat.zero_lt_one
  · intro m hm
    cases hm
  · intro m hm
    cases hm
  · exact .untaken rfl rfl ((a.start_firstAudioPts t _).trans ha)

theorem reset_tracks {s : Restarts δ ω} (h : s.Tracks) :
    Tracks { s with asr := s.asr.resetAsrTimeBase, resetting := s.resetting + 1 } :=
  ⟨h.current, h.taken, h.inFlight, .resetting (Nat.succ_ne_zero _) rfl⟩

theorem replaced_tracks {s : Restarts δ ω} (h : s.Tracks) (hr : s.resetting ≠ 0) (t : TokenReply)
    (created : Bool) : (s.replaced t created).Tracks := by
  have hbase : (s.replaced t created).asr.firstAudioPts = 0 := by
    cases h.base with
    | resetting _ hb => exact (s.asr.start_firstAudioPts t _).trans hb
    | untaken hr' _ _ => exact absurd hr' hr
    | pending hr' _ _ => exact absurd hr' hr
    | set _ _ hr' _ _ _ => exact absurd hr' hr
  have hreq : (s.replaced t created).asr.request = s.fresh created :=
    s.asr.start_request t _
  refine ⟨?_, ?_, h.inFlight, ?_⟩
  · intro id hid
    rw [hreq, fresh] at hid
    split_ifs at hid
    cases hid
    exact Nat.lt_succ_self _
  · intro m hm
    obtain ⟨hpos, hpts, id, hid, hlt⟩ := h.taken m hm
    exact ⟨hpos, hpts, id, hid, Nat.lt_succ_of_lt hlt⟩
  · by_cases hlast : s.resetting - 1 = 0
    · refine .untaken hlast ?_ hbase
      rw [accepted, hreq]
      exact accepted_of_fresh h created
    · exact .resetting hlast hbase

theorem sent_accepted {s : Restarts δ ω} (pkt : AVPacket) (x : SendExit) {a : Asr δ ω}
    (hreq : a.request = s.asr.request) :
    (s.sent pkt x a).accepted =
      s.accepted ++ if x.positive then [⟨s.asr.request, pkt, x⟩] else [] := by
  simp only [accepted, sent, hreq]
  split_ifs
  · simp [List.filter_append]
  · simp

theorem sent_taken {s : Restarts δ ω} {pkt : AVPacket} {x : SendExit} {a : Asr δ ω} {m : Sending}
    (hm : m ∈ (s.sent pkt x a).taken) :
    m ∈ s.taken ∨ m = ⟨s.asr.request, pkt, x⟩ ∧ x.positive = true := by
  simp only [sent] at hm
  split_ifs at hm with hpos
  · rcases List.mem_append.mp hm with hm | hm
    · exact Or.inl hm
    · exact Or.inr ⟨List.mem_singleton.mp hm, hpos⟩
  · exact Or.inl hm

theorem sent_base {s : Restarts δ ω} (h : s.Tracks) (hfree : s.inFlight = none)
    {pkt : AVPacket} {x : SendExit} {a : Asr δ ω} (hreq : a.request = s.asr.request) :
    (s.sent pkt x a).BaseFits := by
  have hacc := sent_accepted pkt x hreq
  cases h.base with
  | resetting hr hb => exact .resetting hr hb
  | pending _ hp _ => exact absurd hp (not_pending_of_landed hfree)
  | untaken hr ht hb =>
    rw [ht, List.nil_append] at hacc
    split_ifs at hacc
    · exact .pending hr ⟨_, rfl, hacc⟩ hb
    · exact .untaken hr hacc hb
  | set f rest hr ht _ hb =>
    rw [ht, List.cons_append] at hacc
    refine .set f _ hr hacc ?_ hb
    intro hp
    obtain ⟨m, hm, hone⟩ := hp
    obtain ⟨heq, hnil⟩ := List.cons.inj (hacc.symm.trans hone)
    split_ifs at hnil with hpos
    · simp at hnil
    · -- a packet the request refused is not one it has taken
      have hf : f ∈ s.accepted := ht ▸ List.mem_cons_self
      have hmem : m ∈ s.taken := heq ▸ (List.mem_filter.mp hf).1
      cases hm
      exact hpos (h.taken _ hmem).1

theorem sent_tracks {s : Restarts δ ω} (h : s.Tracks) (hfree : s.inFlight = none)
    {pkt : AVPacket} (hpts : pkt.pts ≠ 0) {sdk : SdkReply} {ret : Int} {x : SendExit}
    {a : Asr δ ω} (hsend : s.asr.sendAudio fuel pkt sdk = .ok (ret, x, a)) :
    (s.sent pkt x a).Tracks := by
  have hreq := (Asr.sendAudio_ok hsend).1
  refine ⟨?_, ?_, ?_, sent_base h hfree hreq⟩
  · intro id hid
    exact h.current id (hreq.symm.trans hid)
  · intro m hm
    rcases sent_taken hm with hm | ⟨rfl, hpos⟩
    · exact h.taken m hm
    · obtain ⟨id, hid⟩ := Asr.sendAudio_request hsend hpos
      exact ⟨hpos, hpts, id, hid, h.current id hid⟩
  · intro m hm hpos
    cases hm
    simp only [sent]
    rw [if_pos hpos]
    exact List.mem_append_right _ (List.mem_singleton.mpr rfl)

theorem tested_base {s : Restarts δ ω} (h : s.Tracks) {m : Sending} (hm : s.inFlight = some m)
    (hclean : s.CleanTest) : (s.tested m).BaseFits := by
  have hland : ¬ (s.tested m).Pending := not_pending_of_landed rfl
  by_cases hsets : s.asr.firstAudioPts = 0 ∧ m.exit.positive = true
  · obtain ⟨hr, hreq⟩ := hclean m hm hsets.2 hsets.1
    have hmem : m ∈ s.accepted :=
      List.mem_filter.mpr ⟨h.inFlight m hm hsets.2, decide_eq_true hreq⟩
    have hb : (s.tested m).asr.firstAudioPts = m.pkt.pts := if_pos hsets
    cases h.base with
    | resetting hr' _ => exact absurd hr hr'
    | untaken _ ht _ =>
      rw [ht] at hmem
      cases hmem
    | pending _ hp _ =>
      obtain ⟨m', hm', hone⟩ := hp
      cases hm.symm.trans hm'
      exact .set m [] hr hone hland hb
    | set f rest _ ht _ hbf =>
      have hf : f ∈ s.taken := (List.mem_filter.mp (ht ▸ List.mem_cons_self)).1
      exact absurd (hbf.symm.trans hsets.1) (h.taken f hf).2.1
  · have hb : (s.tested m).asr.firstAudioPts = s.asr.firstAudioPts := if_neg hsets
    cases h.base with
    | resetting hr hb' => exact .resetting hr (hb.trans hb')
    | untaken hr ht hb' => exact .untaken hr ht (hb.trans hb')
    | pending _ hp hb' =>
      obtain ⟨m', hm', hone⟩ := hp
      cases hm.symm.trans hm'
      have hmem : m ∈ s.taken :=
        (List.mem_filter.mp (hone ▸ List.mem_singleton.mpr rfl)).1
      exact absurd ⟨hb', (h.taken m hmem).1⟩ hsets
    | set f rest hr ht _ hb' => exact .set f rest hr ht hland (hb.trans hb')

theorem step_tracks {s t : Restarts δ ω} {e : RestartStep} (h : s.Tracks)
    (hpts : e.hasPts = true)
    (hclean : e = .testAndSet → s.CleanTest) (hstep : step fuel s e = .ok t) : t.Tracks := by
  cases e with
  | resetAsrTimeBase =>
    cases hstep
    exact reset_tracks h
  | create tok created =>
    rw [step] at hstep
    split_ifs at hstep with hr
    cases hstep
    exact replaced_tracks h hr tok created
  | start =>
    rw [step] at hstep
    split_ifs at hstep
    cases hstep
    refine ⟨h.current, h.taken, h.inFlight, ?_⟩
    cases h.base with
    | resetting hr hb => exact .resetting hr hb
    | untaken hr ht hb => exact .untaken hr ht hb
    | pending hr hp hb => exact .pending hr hp hb
    | set f rest hr ht hp hb => exact .set f rest hr ht hp hb
  | sendAudio pkt sdk =>
    rw [step] at hstep
    split at hstep
    · simp at hstep
    · next hfree =>
      split at hstep
      · simp at hstep
      · next hsend =>
        cases hstep
        exact sent_tracks h hfree (bne_iff_ne.mp hpts) hsend
  | testAndSet =>
    rw [step] at hstep
    split at hstep
    · simp at hstep
    · next m hm =>
      cases hstep
      refine ⟨h.current, h.taken, ?_, tested_base h hm (hclean rfl)⟩
      intro m' hm'
      cases hm'
  | sentenceEnd id =>
    rw [step] at hstep
    split_ifs at hstep
    cases hstep
    exact h

theorem run_tracks {a : Asr δ ω} (ha : a.firstAudioPts = 0) (t : TokenReply)
    {es : List RestartStep} {s : Restarts δ ω} (hrun : run fuel (init a t) es = ok s)
    (hpts : ∀ e ∈ es, e.hasPts = true)
    (hclean : ∀ pre post m, es = pre ++ .testAndSet :: post → run fuel (init a t) pre = ok m →
      m.CleanTest) : s.Tracks := by
  refine run_guarded (P := Tracks)
    (G := fun m e => e.hasPts = true ∧ (e = .testAndSet → m.CleanTest))
    (fun _ _ _ h hg hst => step_tracks h hg.1 hg.2 hst) (init_tracks ha t) hrun ?_
  intro pre e post m hes hm
  refine ⟨hpts e (hes ▸ List.mem_append_right pre List.mem_cons_self), ?_⟩
  rintro rfl
  exact hclean pre post m hes hm

theorem base_eq_iff {s : Restarts δ ω} (h : s.Tracks) {f : Sending} {rest : List Sending}
    (hf : s.accepted = f :: rest) :
    s.asr.getTimeBase = f.pkt.pts ↔ s.resetting = 0 ∧ ¬ s.Pending := by
  have hmem : f ∈ s.taken := (List.mem_filter.mp (hf ▸ List.mem_cons_self)).1
  have hne : f.pkt.pts ≠ 0 := (h.taken f hmem).2.1
  cases h.base with
  | resetting hr hb =>
    exact iff_of_false (fun heq => hne (heq.symm.trans hb)) (fun hc => hr hc.1)
  | untaken _ ht _ => cases ht.symm.trans hf
  | pending _ hp hb =>
    exact iff_of_false (fun heq => hne (heq.symm.trans hb)) (fun hc => hc.2 hp)
  | set g rest' hr ht hp hb =>
    obtain ⟨rfl, _⟩ := List.cons.inj (ht.symm.trans hf)
    exact iff_of_true hb ⟨hr, hp⟩

/-- Where every test of the base is clean, the base is right at every sentence
if and only if no sentence falls into a restart or before the test of the first
packet its session has taken. -/
theorem base_right_iff (fuel : ℕ) {a : Asr δ ω} (ha : a.firstAudioPts = 0) (t : TokenReply)
    (es : List RestartStep) (hpts : ∀ e ∈ es, e.hasPts = true)
    (hclean : ∀ pre post m, es = pre ++ .testAndSet :: post → run fuel (init a t) pre = ok m →
      m.CleanTest) :
    BaseRight fuel (init a t) es ↔
      ∀ pre id post m, es = pre ++ .sentenceEnd id :: post → run fuel (init a t) pre = ok m →
        m.asr.request = some id → m.accepted ≠ [] → m.resetting = 0 ∧ ¬ m.Pending := by
  have htracks : ∀ pre post m, es = pre ++ post → run fuel (init a t) pre = ok m →
      m.Tracks := by
    intro pre post m hes hm
    apply run_tracks ha t hm
    · intro e he
      apply hpts e
      rw [hes]
      exact List.mem_append_left post he
    · intro pre' post' u hpre hu
      exact hclean pre' (post' ++ post) u (by rw [hes, hpre]; simp) hu
  constructor
  · intro h pre id post m hes hm hreq hne
    obtain ⟨f, rest, hf⟩ := List.exists_cons_of_ne_nil hne
    exact (base_eq_iff (htracks pre _ m hes hm) hf).mp (h pre id post m f rest hes hm hreq hf)
  · intro h pre id post m f rest hes hm hreq hf
    have hcond := h pre id post m hes hm hreq (by simp [hf])
    exact (base_eq_iff (htracks pre _ m hes hm) hf).mpr hcond

/-! A packet of the closed session tests the base of the new one; without a
restart in between it does not. -/

def sampleSend (pts sentByte : Int) : RestartStep :=
  .sendAudio (samplePacket 1 pts 100).val (Asr.sampleSdk sentByte)

def sampleStale : List RestartStep :=
  [sampleSend 100 2, .resetAsrTimeBase, .create Asr.sampleToken true, .testAndSet, .start,
    sampleSend 200 2, .testAndSet]

def sampleOrdered : List RestartStep :=
  [sampleSend 100 2, .testAndSet, .resetAsrTimeBase, sampleSend 150 (-1), .testAndSet,
    .create Asr.sampleToken true, .start, sampleSend 200 2, .testAndSet, .sentenceEnd 1]

theorem stale_packet_sets_base :
    ¬ ∀ (δ : Decoder) (ω : Resampler) (fuel : ℕ) (a : Asr δ ω) (t : TokenReply)
      (es : List RestartStep), a.firstAudioPts = 0 → (∀ e ∈ es, e.hasPts = true) →
      BaseRight fuel (init a t) es := by
  intro h
  have hbase := h pcmDecoder plainResampler 4 Asr.sample Asr.sampleToken
    (sampleStale ++ [.sentenceEnd 1]) rfl (by decide) sampleStale 1 []
    (run 4 (init Asr.sample Asr.sampleToken) sampleStale).state _ [] rfl rfl rfl rfl
  exact absurd hbase (by decide)

theorem base_right_sample :
    BaseRight 4 (init Asr.sample Asr.sampleToken) sampleOrdered := by
  have hclean : ∀ pre ∈ sampleOrdered.inits,
      (run 4 (init Asr.sample Asr.sampleToken) pre).state.CleanTest := by decide
  have hafter : ∀ pre ∈ sampleOrdered.inits,
      (sampleOrdered[pre.length]?).any RestartStep.isSentenceEnd = true →
      (run 4 (init Asr.sample Asr.sampleToken) pre).state.resetting = 0 ∧
        ¬ (run 4 (init Asr.sample Asr.sampleToken) pre).state.Pending := by decide
  apply (base_right_iff 4 (a := Asr.sample) rfl Asr.sampleToken sampleOrdered (by decide) ?_).mpr
  · intro pre id post m hes hm _ _
    have hat : (sampleOrdered[pre.length]?).any RestartStep.isSentenceEnd = true := by
      rw [hes]
      simp [RestartStep.isSentenceEnd]
    have hend := hafter pre ((List.mem_inits pre _).mpr ⟨_, hes.symm⟩) hat
    rwa [hm] at hend
  · intro pre post m hes hm
    have htest := hclean pre ((List.mem_inits pre _).mpr ⟨_, hes.symm⟩)
    rwa [hm] at htest

end Restarts

end RtmpRelay
