import RtmpRelay.AsrClock
import Mathlib.Data.List.Infix

/-!
# The time base between resets

The base is zero until a packet with a non-zero `pts` is counted as sent. It is
the `pts` of the first packet the request kept, after every call and up to the
next reset, exactly when that packet was sent at once and has a non-zero `pts`,
or has `pts` zero and no packet with another `pts` is sent after it.
-/

namespace RtmpRelay

open Machine Machine.Outcome Media LossyClock

namespace AsrFeed
variable {δ : Decoder} {ω : Resampler} {fuel : ℕ}

inductive Call
  | sendAudio (pkt : AVPacket) (sdk : SdkReply)
  | resetAsrTimeBase

/-- The log of a session starts again at a reset. -/
def call (fuel : ℕ) (s : AsrFeed δ ω) : Call → Outcome Halt (AsrFeed δ ω)
  | .sendAudio pkt sdk => step fuel s (pkt, sdk)
  | .resetAsrTimeBase => .ok (new s.asr.resetAsrTimeBase)

def runCalls (fuel : ℕ) (s : AsrFeed δ ω) (cs : List Call) : Outcome Halt (AsrFeed δ ω) :=
  Machine.run (call fuel) s cs

def setsBase (e : AVPacket × SendExit) : Bool := e.2.positive && e.1.pts != 0

def baseOf (log : List (AVPacket × SendExit)) : Int :=
  ((log.find? setsBase).map fun e => e.1.pts).getD 0

theorem setsBase_iff {e : AVPacket × SendExit} :
    setsBase e = true ↔ e.2.positive = true ∧ e.1.pts ≠ 0 := by
  simp [setsBase]

theorem baseOf_eq_zero_iff {log : List (AVPacket × SendExit)} :
    baseOf log = 0 ↔ ∀ e ∈ log, e.2.positive = true → e.1.pts = 0 := by
  constructor
  · intro hzero e he hpos
    by_contra hne
    have hsome : (log.find? setsBase).isSome = true :=
      List.find?_isSome.mpr ⟨e, he, setsBase_iff.mpr ⟨hpos, hne⟩⟩
    obtain ⟨x, hx⟩ := Option.isSome_iff_exists.mp hsome
    rw [baseOf, hx] at hzero
    exact (setsBase_iff.mp (List.find?_some hx)).2 hzero
  · intro hall
    have hnone : log.find? setsBase = none := by
      apply List.find?_eq_none.mpr
      intro e he hsets
      obtain ⟨hpos, hne⟩ := setsBase_iff.mp hsets
      exact hne (hall e he hpos)
    rw [baseOf, hnone]
    rfl

theorem baseOf_concat (log : List (AVPacket × SendExit)) (p : AVPacket) (x : SendExit) :
    baseOf (log ++ [(p, x)]) = Asr.baseAfter (baseOf log) p.pts x := by
  by_cases hzero : baseOf log = 0
  · have hnone : log.find? setsBase = none := by
      apply List.find?_eq_none.mpr
      intro e he hsets
      obtain ⟨hpos, hne⟩ := setsBase_iff.mp hsets
      exact hne (baseOf_eq_zero_iff.mp hzero e he hpos)
    rw [hzero, baseOf, List.find?_append, hnone, Option.none_or, List.find?_singleton]
    by_cases hsets : setsBase (p, x) = true
    · simp [hsets, Asr.baseAfter, (setsBase_iff.mp hsets).1]
    · rw [if_neg hsets, Asr.baseAfter]
      split_ifs with hpos
      · by_contra hne
        exact hsets (setsBase_iff.mpr ⟨hpos.2, fun h => hne h.symm⟩)
      · rfl
  · rw [Asr.baseAfter_of_ne hzero, baseOf, List.find?_append]
    cases hfind : log.find? setsBase with
    | some e => simp [baseOf, hfind]
    | none => exact absurd (by rw [baseOf, hfind]; rfl) hzero

theorem call_ok {s t : AsrFeed δ ω} {c : Call} (h : call fuel s c = ok t) :
    (c = .resetAsrTimeBase ∧ t.log = [] ∧ t.asr.firstAudioPts = 0) ∨
      ∃ pkt sdk x, c = .sendAudio pkt sdk ∧ t.log = s.log ++ [(pkt, x)] ∧
        t.asr.firstAudioPts = Asr.baseAfter s.asr.firstAudioPts pkt.pts x := by
  cases c with
  | resetAsrTimeBase =>
    cases h
    exact Or.inl ⟨rfl, rfl, rfl⟩
  | sendAudio pkt sdk =>
    obtain ⟨x, hlog, hbase⟩ := step_ok h
    exact Or.inr ⟨pkt, sdk, x, rfl, hlog, hbase⟩

theorem runCalls_base {a : Asr δ ω} (ha : a.firstAudioPts = 0) {cs : List Call}
    {t : AsrFeed δ ω} (h : runCalls fuel (new a) cs = ok t) :
    t.asr.getTimeBase = baseOf t.log := by
  refine run_invariant (P := fun t => t.asr.firstAudioPts = baseOf t.log) ?_ ha h
  intro s c t hs hst
  rcases call_ok hst with ⟨_, hlog, hbase⟩ | ⟨pkt, sdk, x, _, hlog, hbase⟩
  · rw [hlog, hbase]
    rfl
  · rw [hlog, hbase, hs, baseOf_concat]

theorem runCalls_take {a : Asr δ ω} {cs : List Call} {t : AsrFeed δ ω}
    (h : runCalls fuel (new a) cs = ok t) (k : ℕ) :
    ∃ pre post u, cs = pre ++ post ∧ runCalls fuel (new a) pre = ok u ∧ u.log = t.log.take k := by
  have hall := run_history (P := fun cs t => runCalls fuel (new a) cs = ok t ∧ ∀ k,
    ∃ pre post u, cs = pre ++ post ∧ runCalls fuel (new a) pre = ok u ∧ u.log = t.log.take k)
    (h := []) ?_ ⟨rfl, fun k => ⟨[], [], new a, rfl, rfl, List.take_nil.symm⟩⟩ h
  · exact hall.2 k
  · intro cs s c t hs hst
    obtain ⟨hrun, htake⟩ := hs
    have hrun' : runCalls fuel (new a) (cs ++ [c]) = ok t := run_concat_ok.mpr ⟨s, hrun, hst⟩
    refine ⟨hrun', fun k => ?_⟩
    by_cases hlast : t.log.length ≤ k
    · exact ⟨cs ++ [c], [], t, by simp, hrun', (List.take_of_length_le hlast).symm⟩
    · rcases call_ok hst with ⟨_, hlog, _⟩ | ⟨pkt, sdk, x, _, hlog, _⟩
      · simp [hlog] at hlast
      · obtain ⟨pre, post, u, rfl, hu, hulog⟩ := htake k
        refine ⟨pre, post ++ [c], u, List.append_assoc _ _ _, hu, ?_⟩
        rw [hlog, List.length_append, List.length_singleton] at hlast
        rw [hulog, hlog, List.take_append_of_le_length (by omega)]

theorem FirstAccepted.append {log : List (AVPacket × SendExit)} {f : ℕ}
    {e : AVPacket × SendExit} (h : FirstAccepted log f e) (rest : List (AVPacket × SendExit)) :
    FirstAccepted (log ++ rest) f e := by
  have hlt : f < log.length := (List.getElem?_eq_some_iff.mp h.1).1
  refine ⟨?_, h.2.1, fun k hk hkept => ?_⟩
  · rw [List.getElem?_append_left hlt]
    exact h.1
  · exact h.2.2 k hk ((keptAt_append (hk.trans hlt)).mp hkept)

theorem runCalls_log_append {s t : AsrFeed δ ω} {cs : List Call}
    (hsend : ∀ c ∈ cs, c ≠ .resetAsrTimeBase) (h : runCalls fuel s cs = ok t) :
    ∃ rest, t.log = s.log ++ rest := by
  refine run_guarded (P := fun u => ∃ rest, u.log = s.log ++ rest)
    (G := fun _ c => c ≠ .resetAsrTimeBase) ?_ ⟨[], (List.append_nil _).symm⟩ h ?_
  · intro u c v hu hc hst
    obtain ⟨rest, hlog⟩ := hu
    rcases call_ok hst with ⟨hreset, _, _⟩ | ⟨pkt, sdk, x, _, hlog', _⟩
    · exact absurd hreset hc
    · refine ⟨rest ++ [(pkt, x)], ?_⟩
      rw [hlog', hlog, List.append_assoc]
  · intro pre c post m heq _
    exact hsend c (heq ▸ List.mem_append_right pre List.mem_cons_self)

/-- After every call of a run the base is the `pts` of the first packet kept
since the last reset, and it stays so until the next one. -/
def KeepsBase (fuel : ℕ) (a : Asr δ ω) (cs : List Call) : Prop :=
  (∀ pre post t, cs = pre ++ post → runCalls fuel (new a) pre = ok t →
    ∀ f e, FirstAccepted t.log f e → t.asr.getTimeBase = e.1.pts) ∧
  ∀ pre mid post t u, cs = pre ++ mid ++ post → runCalls fuel (new a) pre = ok t →
    runCalls fuel (new a) (pre ++ mid) = ok u → (∀ c ∈ mid, c ≠ .resetAsrTimeBase) →
    (∃ f e, FirstAccepted t.log f e) → u.asr.getTimeBase = t.asr.getTimeBase

/-- The first packet kept was sent with it and has a non-zero `pts`, or its
`pts` is zero like those of all packets sent since. -/
def Settled (log : List (AVPacket × SendExit)) : Prop :=
  ∀ f e, FirstAccepted log f e → (e.2.positive = true ∧ e.1.pts ≠ 0) ∨
    (e.1.pts = 0 ∧ ∀ x ∈ log, x.2.positive = true → x.1.pts = 0)

theorem positive_of_base {log : List (AVPacket × SendExit)} {f : ℕ} {e : AVPacket × SendExit}
    (h : FirstAccepted log f e) (hbase : baseOf (log.take (f + 1)) = e.1.pts)
    (hne : e.1.pts ≠ 0) : e.2.positive = true := by
  by_contra hneg
  have hzero : baseOf (log.take (f + 1)) = 0 := by
    apply baseOf_eq_zero_iff.mpr
    intro x hx hpos
    obtain ⟨k, hlt, rfl⟩ := List.mem_take_iff_getElem.mp hx
    have hk := List.getElem?_eq_getElem (show k < log.length by omega)
    have hle : f ≤ k := h.le hk (SendExit.accepted_of_positive hpos)
    have heq : k = f := by omega
    subst heq
    have he : log[k] = e := Option.some.inj (hk.symm.trans h.1)
    exact absurd (he ▸ hpos) hneg
  exact hne (hbase.symm.trans hzero)

theorem baseOf_first {log : List (AVPacket × SendExit)} {f : ℕ} {e : AVPacket × SendExit}
    (h : FirstAccepted log f e) (hpos : e.2.positive = true) (hne : e.1.pts ≠ 0) :
    baseOf log = e.1.pts := by
  have hsets : setsBase e = true := setsBase_iff.mpr ⟨hpos, hne⟩
  cases hfind : log.find? setsBase with
  | none => exact absurd hsets (List.find?_eq_none.mp hfind e (List.mem_of_getElem? h.1))
  | some x =>
    obtain ⟨hx, i, hi, hget, hbefore⟩ := List.find?_eq_some_iff_getElem.mp hfind
    have hxi : log[i]? = some x := by
      rw [List.getElem?_eq_getElem hi, hget]
    have hle : f ≤ i := h.le hxi (SendExit.accepted_of_positive (setsBase_iff.mp hx).1)
    have heq : i = f := by
      by_contra hlt
      have hnot := hbefore f (by omega)
      rw [(List.getElem?_eq_some_iff.mp h.1).2, hsets] at hnot
      simp at hnot
    subst heq
    cases hxi.symm.trans h.1
    rw [baseOf, hfind]
    rfl

theorem settled_of_all {log : List (AVPacket × SendExit)}
    (h : ∀ e ∈ log, e.2.positive = true ∧ e.1.pts ≠ 0) : Settled log :=
  fun _ e hfirst => Or.inl (h e (List.mem_of_getElem? hfirst.1))

/-- A run keeps the base if and only if the log is settled after every call. -/
theorem keepsBase_iff (fuel : ℕ) {a : Asr δ ω} (ha : a.firstAudioPts = 0) (cs : List Call) :
    KeepsBase fuel a cs ↔
      ∀ pre post t, cs = pre ++ post → runCalls fuel (new a) pre = ok t → Settled t.log := by
  constructor
  · intro h pre post t hcs hrun f e hfirst
    have hbase := h.1 pre post t hcs hrun f e hfirst
    rw [runCalls_base ha hrun] at hbase
    by_cases hzero : e.1.pts = 0
    · exact Or.inr ⟨hzero, baseOf_eq_zero_iff.mp (hbase.trans hzero)⟩
    · -- at the call that fed this packet nothing else can have set the base
      obtain ⟨pre', post', u, rfl, hu, hlog⟩ := runCalls_take hrun (f + 1)
      have hfirst' : FirstAccepted u.log f e := by
        rw [hlog]
        refine ⟨?_, hfirst.2.1, fun k hk hkept => ?_⟩
        · rw [List.getElem?_take_of_lt (Nat.lt_succ_self f)]
          exact hfirst.1
        · obtain ⟨x, hx, hacc⟩ := hkept
          rw [List.getElem?_take_of_lt (by omega)] at hx
          exact hfirst.2.2 k hk ⟨x, hx, hacc⟩
      have hbase' := h.1 pre' (post' ++ post) u (by rw [hcs, List.append_assoc]) hu f e hfirst'
      rw [runCalls_base ha hu, hlog] at hbase'
      exact Or.inl ⟨positive_of_base hfirst hbase' hzero, hzero⟩
  · intro h
    have hkeeps : ∀ pre post t, cs = pre ++ post → runCalls fuel (new a) pre = ok t →
        ∀ f e, FirstAccepted t.log f e → t.asr.getTimeBase = e.1.pts := by
      intro pre post t hcs hrun f e hfirst
      rw [runCalls_base ha hrun]
      rcases h pre post t hcs hrun f e hfirst with ⟨hpos, hne⟩ | ⟨hzero, hall⟩
      · exact baseOf_first hfirst hpos hne
      · rw [hzero]
        exact baseOf_eq_zero_iff.mpr hall
    refine ⟨hkeeps, ?_⟩
    intro pre mid post t u hcs hrun hrun' hsend hfirst
    obtain ⟨f, e, hfirst⟩ := hfirst
    obtain ⟨m, hm, hmid⟩ := run_append_ok.mp hrun'
    cases hrun.symm.trans hm
    obtain ⟨rest, hlog⟩ := runCalls_log_append hsend hmid
    have hafter : FirstAccepted u.log f e := hlog ▸ hfirst.append rest
    rw [hkeeps (pre ++ mid) post u hcs hrun' f e hafter,
      hkeeps pre (mid ++ post) t (by rw [hcs, List.append_assoc]) hrun f e hfirst]

/-! Two packets, with or without a reset between them; the request may keep
the first one to send it later. -/

def sampleReset : List Call :=
  [.sendAudio (samplePacket 1 100 100).val (Asr.sampleSdk 2), .resetAsrTimeBase,
    .sendAudio (samplePacket 1 200 100).val (Asr.sampleSdk 2)]

def sampleKept : List Call :=
  [.sendAudio (samplePacket 1 100 100).val (Asr.sampleSdk 0),
    .sendAudio (samplePacket 1 200 100).val (Asr.sampleSdk 2)]

theorem keepsBase_sample : KeepsBase 4 Asr.sample sampleReset := by
  have hall : ∀ pre ∈ sampleReset.inits, ∀ e ∈ (runCalls 4 (new Asr.sample) pre).state.log,
      e.2.positive = true ∧ e.1.pts ≠ 0 := by decide
  apply (keepsBase_iff 4 (a := Asr.sample) rfl sampleReset).mpr
  intro pre post t hcs hrun
  apply settled_of_all
  intro e he
  apply hall pre ((List.mem_inits pre sampleReset).mpr ⟨post, hcs.symm⟩)
  rw [hrun]
  exact he

theorem kept_packet_skipped :
    ¬ ∀ (δ : Decoder) (ω : Resampler) (fuel : ℕ) (a : Asr δ ω) (cs : List Call),
      a.firstAudioPts = 0 → KeepsBase fuel a cs := by
  intro h
  have hfirst : FirstAccepted (runCalls 4 (new Asr.sample) sampleKept).state.log 0 _ :=
    ⟨rfl, rfl, fun k hk => absurd hk (Nat.not_lt_zero k)⟩
  have hbase := (h pcmDecoder plainResampler 4 Asr.sample sampleKept rfl).1 sampleKept []
    (runCalls 4 (new Asr.sample) sampleKept).state (List.append_nil _).symm rfl 0 _ hfirst
  exact absurd hbase (by decide)

end AsrFeed

end RtmpRelay
