import RtmpRelay.Asr
import RtmpRelay.LossyClock
import Mathlib.Algebra.Order.Group.Int

/-!
# The clock of a recogniser session

The service counts the milliseconds it has accepted, and a hit at word time `t`
is muted at `base + t`. Over contiguous packets the count stays aligned with
the time stamps exactly when no audio of positive length is refused between two
accepted packets: `sendAudio` moves the base for nothing but the first packet
sent.
-/

namespace RtmpRelay

open Machine Machine.Outcome Media LossyClock

/-- A session: the client, and what became of every packet fed to it. -/
structure AsrFeed (δ : Decoder) (ω : Resampler) where
  asr : Asr δ ω
  log : List (AVPacket × SendExit)

namespace AsrFeed
variable {δ : Decoder} {ω : Resampler} {fuel : ℕ}

def new (a : Asr δ ω) : AsrFeed δ ω := { asr := a, log := [] }

def step (fuel : ℕ) (s : AsrFeed δ ω) (c : AVPacket × SdkReply) : Outcome Halt (AsrFeed δ ω) :=
  match s.asr.sendAudio fuel c.1 c.2 with
  | .error e => .halt e s
  | .ok (_, x, a) => .ok { asr := a, log := s.log ++ [(c.1, x)] }

def run (fuel : ℕ) (s : AsrFeed δ ω) (cs : List (AVPacket × SdkReply)) :
    Outcome Halt (AsrFeed δ ω) :=
  Machine.run (step fuel) s cs

def accepted (e : AVPacket × SendExit) : Bool := e.2.accepted

def ms (e : AVPacket × SendExit) : Int := e.1.duration

def acceptedMs (log : List (AVPacket × SendExit)) (j : ℕ) : Int :=
  counted accepted ms (log.take j)

def ContiguousPts (ps : List AVPacket) : Prop :=
  ∀ k p q, ps[k]? = some p → ps[k + 1]? = some q → q.pts = p.pts + p.duration

/-- The count between two accepted packets is the distance of their time stamps. -/
def Aligned (log : List (AVPacket × SendExit)) : Prop :=
  ∀ i j p q, i < j → log[i]? = some p → log[j]? = some q → accepted p = true →
    accepted q = true → acceptedMs log j - acceptedMs log i = q.1.pts - p.1.pts

theorem step_ok {s t : AsrFeed δ ω} {c : AVPacket × SdkReply} (h : step fuel s c = ok t) :
    ∃ x, t.log = s.log ++ [(c.1, x)] ∧
      t.asr.firstAudioPts = Asr.baseAfter s.asr.firstAudioPts c.1.pts x := by
  simp only [step] at h
  split at h
  · simp at h
  · next ret x a hsend =>
    cases h
    exact ⟨x, rfl, (Asr.sendAudio_ok hsend).2⟩

theorem run_log {a : Asr δ ω} {cs : List (AVPacket × SdkReply)} {s : AsrFeed δ ω}
    (h : run fuel (new a) cs = ok s) : s.log.map Prod.fst = cs.map Prod.fst := by
  have hall := run_history (P := fun h s => s.log.map Prod.fst = h.map Prod.fst) (h := []) ?_ rfl h
  · simpa using hall
  · intro h s c t hs hst
    obtain ⟨x, hlog, _⟩ := step_ok hst
    rw [hlog, List.map_append, List.map_append, hs]
    rfl

theorem stamped {a : Asr δ ω} {cs : List (AVPacket × SdkReply)} {s : AsrFeed δ ω}
    (h : run fuel (new a) cs = ok s) (hcont : ContiguousPts (cs.map Prod.fst)) :
    Stamped ms (fun e => e.1.pts) s.log := by
  intro k p q hp hq
  rw [← run_log h] at hcont
  apply hcont k p.1 q.1
  · rw [List.getElem?_map, hp]
    rfl
  · rw [List.getElem?_map, hq]
    rfl

theorem aligned_iff_noGap {log : List (AVPacket × SendExit)}
    (h : Stamped ms (fun e => e.1.pts) log) : Aligned log ↔ NoGap accepted ms log := by
  rw [← noGap_iff]
  constructor
  · intro hal i j hij hi hj
    obtain ⟨p, hp, hpa⟩ := hi
    obtain ⟨q, hq, hqa⟩ := hj
    exact (h.aligned_iff hij.le hp hq).mp (hal i j p q hij hp hq hpa hqa)
  · intro hgap i j p q hij hp hq hpa hqa
    exact (h.aligned_iff hij.le hp hq).mpr (hgap i j hij ⟨p, hp, hpa⟩ ⟨q, hq, hqa⟩)

/-! The base of a session. -/

def FirstAccepted (log : List (AVPacket × SendExit)) (f : ℕ) (e : AVPacket × SendExit) : Prop :=
  log[f]? = some e ∧ accepted e = true ∧ ∀ k < f, ¬ KeptAt accepted log k

theorem keptAt_append {xs ys : List (AVPacket × SendExit)} {k : ℕ} (hk : k < xs.length) :
    KeptAt accepted (xs ++ ys) k ↔ KeptAt accepted xs k := by
  rw [KeptAt, KeptAt, List.getElem?_append_left hk]

def BaseOf (log : List (AVPacket × SendExit)) (base : Int) : Prop :=
  ((∀ k, ¬ KeptAt accepted log k) → base = 0) ∧
    ∀ f e, FirstAccepted log f e → e.2.positive = true → e.1.pts ≠ 0 → base = e.1.pts

theorem BaseOf.concat {log : List (AVPacket × SendExit)} {base : Int} (h : BaseOf log base)
    (p : AVPacket) (x : SendExit) :
    BaseOf (log ++ [(p, x)]) (Asr.baseAfter base p.pts x) := by
  have hlast : (log ++ [(p, x)])[log.length]? = some (p, x) := by simp
  constructor
  · intro hnone
    have hx : x.positive = false := by
      cases hv : x.positive with
      | false => rfl
      | true => exact absurd ⟨(p, x), hlast, SendExit.accepted_of_positive hv⟩ (hnone log.length)
    rw [Asr.baseAfter_of_not_positive _ _ hx]
    apply h.1
    intro k hk
    exact hnone k ((keptAt_append hk.lt_length).mpr hk)
  · intro f e hfirst hpos hne
    obtain ⟨hf, hacc, hbefore⟩ := hfirst
    have hlen := (List.getElem?_eq_some_iff.mp hf).1
    rw [List.length_append, List.length_singleton] at hlen
    by_cases hlt : f < log.length
    · have hfirst : FirstAccepted log f e := by
        refine ⟨?_, hacc, fun k hk hkept => hbefore k hk ?_⟩
        · rwa [List.getElem?_append_left hlt] at hf
        · exact (keptAt_append (hk.trans hlt)).mpr hkept
      have hbase := h.2 f e hfirst hpos hne
      rw [Asr.baseAfter_of_ne (hbase ▸ hne), hbase]
    · have heq : f = log.length := by omega
      subst heq
      cases hlast.symm.trans hf
      have hzero : base = 0 :=
        h.1 fun k hk => hbefore k hk.lt_length ((keptAt_append hk.lt_length).mpr hk)
      exact if_pos ⟨hzero, hpos⟩

theorem run_baseOf {a : Asr δ ω} (ha : a.firstAudioPts = 0) {cs : List (AVPacket × SdkReply)}
    {s : AsrFeed δ ω} (h : run fuel (new a) cs = ok s) : BaseOf s.log s.asr.getTimeBase := by
  refine run_invariant (P := fun s => BaseOf s.log s.asr.firstAudioPts) ?_ ⟨fun _ => ha, ?_⟩ h
  · intro s c t hs hst
    obtain ⟨x, hlog, hbase⟩ := step_ok hst
    rw [hlog, hbase]
    exact hs.concat c.1 x
  · intro f e hfirst
    cases hfirst.1

theorem acceptedMs_first {log : List (AVPacket × SendExit)} {f : ℕ} {e : AVPacket × SendExit}
    (h : FirstAccepted log f e) : acceptedMs log f = 0 := by
  have hnone : (log.take f).filter accepted = [] := by
    apply List.filter_eq_nil_iff.mpr
    intro x hx hacc
    obtain ⟨k, hlt, rfl⟩ := List.mem_take_iff_getElem.mp hx
    exact h.2.2 k (by omega) ⟨_, List.getElem?_eq_getElem (by omega), hacc⟩
  rw [acceptedMs, counted, hnone]
  rfl

theorem FirstAccepted.le {log : List (AVPacket × SendExit)} {f j : ℕ}
    {e q : AVPacket × SendExit} (h : FirstAccepted log f e) (hq : log[j]? = some q)
    (hacc : accepted q = true) : f ≤ j := by
  by_contra hlt
  exact h.2.2 j (not_le.mp hlt) ⟨q, hq, hacc⟩

/-- The word time of every accepted packet, added to the base, is its time stamp. -/
def Designates (log : List (AVPacket × SendExit)) (base : Int) : Prop :=
  ∀ j q, log[j]? = some q → accepted q = true → base + acceptedMs log j = q.1.pts

theorem designates_iff_aligned {log : List (AVPacket × SendExit)} {base : Int} {f : ℕ}
    {e : AVPacket × SendExit} (hfirst : FirstAccepted log f e) (hbase : base = e.1.pts) :
    Designates log base ↔ Aligned log := by
  have hzero := acceptedMs_first hfirst
  constructor
  · intro h i j p q hij hp hq hpa hqa
    have hi := h i p hp hpa
    have hj := h j q hq hqa
    omega
  · intro h j q hq hqa
    rcases (hfirst.le hq hqa).lt_or_eq with hlt | heq
    · have hal := h f j e q hlt hfirst.1 hq hfirst.2.1 hqa
      omega
    · subst heq
      cases hfirst.1.symm.trans hq
      omega

/-- The count of a session stays aligned with the time stamps if and only if
nothing of positive length is refused between neighbouring accepted packets;
and then, where the first accepted packet has set the base, the base plus the
word time is the time stamp of the packet the word was spoken in. -/
theorem clock_aligned_iff (fuel : ℕ) {a : Asr δ ω} {cs : List (AVPacket × SdkReply)}
    {s : AsrFeed δ ω} (hrun : run fuel (new a) cs = ok s)
    (hcont : ContiguousPts (cs.map Prod.fst)) :
    (Aligned s.log ↔ NoGap accepted ms s.log) ∧
      ((∀ c ∈ cs, 0 < c.1.duration) → (Aligned s.log ↔ ∀ i k j, i < k → k < j →
        KeptAt accepted s.log i → KeptAt accepted s.log j → KeptAt accepted s.log k)) ∧
      (∀ f e, a.firstAudioPts = 0 → FirstAccepted s.log f e → e.2.positive = true →
        e.1.pts ≠ 0 → (Designates s.log s.asr.getTimeBase ↔ NoGap accepted ms s.log)) := by
  have hiff := aligned_iff_noGap (stamped hrun hcont)
  refine ⟨hiff, ?_, ?_⟩
  · intro hpos
    rw [hiff]
    apply noGap_iff_of_pos
    intro e he
    have hmem : e.1 ∈ cs.map Prod.fst := run_log hrun ▸ List.mem_map_of_mem he
    obtain ⟨c, hc, heq⟩ := List.mem_map.mp hmem
    exact lt_of_lt_of_eq (hpos c hc) (congrArg AVPacket.duration heq)
  · intro f e ha hfirst hpos hne
    rw [← hiff]
    exact designates_iff_aligned hfirst ((run_baseOf ha hrun).2 f e hfirst hpos hne)

/-! Three packets of 100 ms, the second of which may find the send buffer full. -/

def sampleFeed (sentByte : Int) : List (AVPacket × SdkReply) :=
  [((samplePacket 1 100 100).val, Asr.sampleSdk 2),
    ((samplePacket 1 200 100).val, Asr.sampleSdk sentByte),
    ((samplePacket 1 300 100).val, Asr.sampleSdk 2)]

theorem sampleFeed_contiguous (sentByte : Int) :
    ContiguousPts ((sampleFeed sentByte).map Prod.fst) := by
  intro k p q hp hq
  match k with
  | 0 =>
    cases hp
    cases hq
    rfl
  | 1 =>
    cases hp
    cases hq
    rfl
  | k + 2 => simp [sampleFeed] at hq

theorem clock_aligned_sample :
    ∃ s, run 4 (new Asr.sample) (sampleFeed 2) = ok s ∧ s.log.length = 3 ∧ Aligned s.log := by
  have hrun : run 4 (new Asr.sample) (sampleFeed 2) = ok _ := rfl
  have hpos : ∀ c ∈ sampleFeed 2, 0 < c.1.duration := by decide
  refine ⟨_, hrun, rfl, ((clock_aligned_iff 4 hrun (sampleFeed_contiguous 2)).2.1 hpos).mpr ?_⟩
  intro i k j _ hkj _ hj
  have hlt : j < 3 := hj.lt_length
  match k with
  | 0 => exact ⟨_, rfl, rfl⟩
  | 1 => exact ⟨_, rfl, rfl⟩
  | k + 2 => omega

theorem clock_shifted :
    ¬ ∀ (δ : Decoder) (ω : Resampler) (fuel : ℕ) (a : Asr δ ω)
      (cs : List (AVPacket × SdkReply)) (s : AsrFeed δ ω), run fuel (new a) cs = ok s →
      ContiguousPts (cs.map Prod.fst) → Aligned s.log := by
  intro h
  have hal := h pcmDecoder plainResampler 4 Asr.sample (sampleFeed (-1)) _ rfl
    (sampleFeed_contiguous (-1)) 0 2 _ _ (by decide) rfl rfl rfl rfl
  exact absurd hal (by decide)

end AsrFeed

end RtmpRelay
