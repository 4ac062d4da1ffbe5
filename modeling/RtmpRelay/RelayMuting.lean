import RtmpRelay.CodecLoops
import RtmpRelay.Relay
import RtmpRelay.ReleaseSchedule

/-!
# Muting against the clock

`sendAudio` runs before `pushAudioFrame`, so a sentence may be reported whose
last packet is not queued yet when `replaceAudioPacket` runs; nothing remembers
the window. And `onSentenceEnd` makes remote calls before and between its
mutes, while the read loop goes on releasing packets. In both cases a packet is
written muted exactly when some replacement reaches it in the queue.
-/

namespace RtmpRelay.Delayer

open Machine Media

variable {δ : Decoder} {η : Encoder} {fuel i : ℕ} {d : Delayer δ η} {start stop : Int}

/-- `replaceAudioPacket(start, stop)` finds the `i`-th packet in its window and in the queue, and
when its turn comes the codec loops run through for it. -/
structure Covers (fuel i : ℕ) (d : Delayer δ η) (start stop : Int) : Prop where
  queued : d.written.length ≤ i
  covered : ∃ p r, d.packets[i]? = some p ∧ InWindow d.replacer.getAudioIndex start stop p ∧
    d.replacer.muteRun fuel (window d.replacer.getAudioIndex start stop
      (d.avPacket.take (i - d.written.length))) = .ok r ∧ r.RunsThrough fuel p

theorem mutesAt_iff_covers {qs : List (AVPacket × Option MuteExit)} {r' : Replacer δ η}
    (hloop : replaceLoop fuel start stop d.avPacket d.replacer = .ok (qs, r')) :
    MutesAt fuel i d (.replaceAudioPacket start stop) ↔ Covers fuel i d start stop := by
  rw [MutesAt, exits_eq hloop]
  by_cases hi : d.written.length ≤ i
  · have hpacket : d.packets[i]? = d.avPacket[i - d.written.length]? :=
      List.getElem?_append_right hi
    generalize hj : i - d.written.length = j at hpacket
    cases hget : d.avPacket[j]? with
    | none =>
      have hlen : qs.length ≤ j := by
        rw [← (replaceLoop_ok hloop).2.length_eq]
        exact List.getElem?_eq_none_iff.mp hget
      rw [List.getElem?_eq_none (by rw [List.length_map]; exact hlen)]
      constructor
      · intro h
        cases h.2
      · intro h
        obtain ⟨p, r, hp, -⟩ := h.covered
        rw [hpacket, hget] at hp
        cases hp
    | some p =>
      obtain ⟨hlt, hp⟩ := List.getElem?_eq_some_iff.mp hget
      have hsplit : d.avPacket = d.avPacket.take j ++ p :: d.avPacket.drop (j + 1) := by
        rw [← hp, List.getElem_cons_drop, List.take_append_drop]
      rw [hsplit] at hloop
      obtain ⟨done, r, more, hdone, hmore, rfl⟩ := replaceLoop_append hloop
      have hrun := replaceLoop_muteRun_ok hdone
      have hdoneLen : done.length = j := by
        rw [← (replaceLoop_ok hdone).2.length_eq, List.length_take_of_le (Nat.le_of_lt hlt)]
      have hplace : ((done ++ more).map Prod.snd)[j]? = (more.map Prod.snd)[0]? := by
        rw [List.map_append, List.getElem?_append_right (by rw [List.length_map, hdoneLen]),
          List.length_map, hdoneLen, Nat.sub_self]
      have hidx : r.getAudioIndex = d.replacer.getAudioIndex := (replaceLoop_ok hdone).1
      rw [hplace, replaceLoop_first hmore, hidx]
      constructor
      · intro h
        exact ⟨hi, p, r, hpacket.trans hget, h.2.1, by rw [hj]; exact hrun, h.2.2⟩
      · intro h
        obtain ⟨p', r₁, hp', hin, hrun', hthrough⟩ := h.covered
        rw [hpacket, hget] at hp'
        cases hp'
        rw [hj, hrun] at hrun'
        cases hrun'
        exact ⟨hi, hin, hthrough⟩
  · exact ⟨fun h => absurd h.1 hi, fun h => absurd h.queued hi⟩

end RtmpRelay.Delayer

namespace RtmpRelay.Relay

open Machine Machine.Outcome Media

variable {δ : Decoder} {ω : Resampler} {η : Encoder} {fuel : ℕ}

theorem written_muted_iff {d : Delayer δ η} {i : ℕ} {q : AVPacket}
    (hq : d.written[i]? = some q) : q.data.isMuted = true ↔ Delayer.MutedAt i d := by
  rw [Delayer.MutedAt, Delayer.written_getElem? hq]
  simp

/-! Late pushes. -/

theorem unqueued_pending {d : Delayer δ η} (hd : d.packets = []) {a : Asr δ ω}
    {audio video : Int} {as : List Action} {s : Relay δ ω η}
    (hrun : run fuel (init d a audio video) as = .ok s) {i : ℕ} {p : AVPacket}
    (hp : ((init d a audio video).selectedPackets as)[i]? = some p)
    (hi : s.delayer.packets.length ≤ i) :
    i = s.delayer.packets.length ∧ s.unpushed = [p] := by
  have hselected : Delayer.pushes ((init d a audio video).delayerCalls fuel as) ++ s.unpushed =
      (init d a audio video).selectedPackets as := run_selected hrun
  have hlen := Delayer.run_packets_length (run_delayer hrun)
  have hzero : (init d a audio video).delayer.packets = [] := hd
  rw [hzero, List.length_nil, zero_add] at hlen
  rw [← hselected, List.getElem?_append_right (hlen ▸ hi), ← hlen] at hp
  rw [unpushed] at hp ⊢
  cases hpending : s.pending with
  | none =>
    rw [hpending] at hp
    simp at hp
  | some e =>
    rw [hpending] at hp
    have hlt := (List.getElem?_eq_some_iff.mp hp).1
    have hone : i - s.delayer.packets.length < 1 := hlt
    have heq : i = s.delayer.packets.length := by omega
    subst heq
    rw [Nat.sub_self] at hp
    cases hp
    exact ⟨rfl, rfl⟩

/-- The service has accepted `p`, and the callback of an event that comes then
executes `replaceAudioPacket(start, stop)`, which covers `p`, before `p` is
queued. -/
structure LatePush (fuel : ℕ) (s : Relay δ ω η) (result : List AudioSegement)
    (as : List Action) (m : Relay δ ω η) (p : DemuxedPacket) (start stop : Int) : Prop where
  accepted : ∃ x, s.pending = some (p, x) ∧ x.accepted = true
  reached : run fuel s (.sentenceEnd result :: as) = .ok m
  executes : m.delayerCall (.callback s.callbacks.length) = some (.replaceAudioPacket start stop)
  late : m.delayer.packets.length ≤ s.delayer.packets.length
  covered : Delayer.InWindow m.delayer.replacer.getAudioIndex start stop p.val

theorem pending_next {s t : Relay δ ω η} {as : List Action} (hrun : run fuel s as = .ok t)
    {p : DemuxedPacket} {x : SendExit} (hpending : s.pending = some (p, x)) {q : AVPacket}
    (hq : t.delayer.packets[s.delayer.packets.length]? = some q) : Carries p.val q := by
  have hqueue := run_delayer hrun
  have hselected := run_selected hrun
  have hheld : s.unpushed = [p.val] := by rw [unpushed, hpending]; rfl
  have htracks := (Delayer.Tracks.refl s.delayer).run hqueue
  have hlt := (List.getElem?_eq_some_iff.mp hq).1
  rw [Delayer.run_packets_length hqueue] at hlt
  cases hpushes : Delayer.pushes (s.delayerCalls fuel as) with
  | nil =>
    rw [hpushes, List.length_nil] at hlt
    omega
  | cons p' ps =>
    rw [hpushes, hheld] at hselected
    obtain ⟨rfl, _⟩ := List.cons.inj hselected
    rw [hpushes] at htracks
    apply htracks.getElem? _ hq
    rw [List.getElem?_append_right le_rfl]
    simp

/-- A packet queued too late for its mute is written muted if and only if a further replacement
covers it in the queue and the codec loops run through for it. -/
theorem late_push_muted_iff (fuel : ℕ) {s m t : Relay δ ω η} {result : List AudioSegement}
    {as bs : List Action} {p : DemuxedPacket} {start stop : Int}
    (hlate : LatePush fuel s result as m p start stop)
    (hrun : run fuel m (.callback s.callbacks.length :: bs) = .ok t) {q : AVPacket}
    (hq : t.delayer.written[s.delayer.packets.length]? = some q) :
    Carries p.val q ∧ (q.data.isMuted = true ↔ ∃ start' stop' pre post u,
      m.delayerCalls fuel (.callback s.callbacks.length :: bs) =
        pre ++ .replaceAudioPacket start' stop' :: post ∧
      Delayer.run fuel m.delayer pre = .ok u ∧
      u.Covers fuel s.delayer.packets.length start' stop') := by
  obtain ⟨x, hpending, _⟩ := hlate.accepted
  have hall : run fuel s (.sentenceEnd result :: as ++ .callback s.callbacks.length :: bs) =
      .ok t := run_append_ok.mpr ⟨m, hlate.reached, hrun⟩
  refine ⟨pending_next hall hpending (Delayer.written_getElem? hq), ?_⟩
  have hcalls := run_delayer hrun
  have hcovers : ∀ {pre post start stop u},
      m.delayerCalls fuel (.callback s.callbacks.length :: bs) =
        pre ++ .replaceAudioPacket start stop :: post →
      Delayer.run fuel m.delayer pre = .ok u →
      (Delayer.MutesAt fuel s.delayer.packets.length u (.replaceAudioPacket start stop) ↔
        u.Covers fuel s.delayer.packets.length start stop) := by
    intro pre post start stop u heq hu
    rw [heq] at hcalls
    obtain ⟨qs, r', hloop, -⟩ := Delayer.run_split hcalls hu
    exact Delayer.mutesAt_iff_covers hloop
  have hnot : ¬ Delayer.MutedAt s.delayer.packets.length m.delayer := by
    intro h
    obtain ⟨q', hq', _⟩ := h
    rw [List.getElem?_eq_none hlate.late] at hq'
    cases hq'
  rw [written_muted_iff hq, Delayer.run_mutedAt _ hcalls, or_iff_right hnot]
  constructor
  · intro h
    obtain ⟨pre, op, post, u, heq, hu, hmutes⟩ := h
    cases op with
    | pushVideoFrame q => exact hmutes.elim
    | pushAudioFrame q => exact hmutes.elim
    | replaceAudioPacket start' stop' =>
      exact ⟨start', stop', pre, post, u, heq, hu, (hcovers heq hu).mp hmutes⟩
  · intro h
    obtain ⟨start', stop', pre, post, u, heq, hu, hcovered⟩ := h
    exact ⟨pre, _, post, u, heq, hu, (hcovers heq hu).mpr hcovered⟩

/-! The only hit lies in the packet whose audio has just been sent. -/

def sample : Relay pcmDecoder plainResampler pcmEncoder := init Delayer.sampleDelayer Asr.sample 1 0

def sampleHit : List AudioSegement := [{ start := 0, stop := 50, text := [119] }]

def sampleSent : List Action := [.readFrame (samplePacket 1 100 100) (Asr.sampleSdk 2)]

theorem sampleLatePush : LatePush 4 (run 4 sample sampleSent).state sampleHit
    [.callback 0, .callback 0]
    (run 4 sample (sampleSent ++ [.sentenceEnd sampleHit, .callback 0, .callback 0])).state
    (samplePacket 1 100 100) 100 150 where
  accepted := ⟨_, rfl, rfl⟩
  reached := rfl
  executes := rfl
  late := by decide
  covered := by decide

theorem late_push_unmuted :
    ¬ ∀ (δ : Decoder) (ω : Resampler) (η : Encoder) (fuel : ℕ) (D : Int) (o : OutputContext)
      (r : Replacer δ η) (url : String) (a : Asr δ ω) (audio video : Int) (s m t : Relay δ ω η)
      (result : List AudioSegement) (as₀ as bs : List Action) (p : DemuxedPacket)
      (start stop : Int), 0 ≤ D → o.calls = [] →
      run fuel (init (Delayer.new D o r url) a audio video) as₀ = .ok s →
      LatePush fuel s result as m p start stop →
      run fuel m (.callback s.callbacks.length :: bs) = .ok t →
      ∀ q, t.delayer.written[s.delayer.packets.length]? = some q → q.data.isMuted = true := by
  intro h
  have hmuted := h pcmDecoder plainResampler pcmEncoder 4 1 Delayer.sampleOutput
    Delayer.sampleReplacer "out" Asr.sample 1 0 _ _ _ _ sampleSent _
    [.pushPending, .readFrame (samplePacket 0 0 3000) (Asr.sampleSdk 0)] _ _ _ (by decide) rfl rfl
    sampleLatePush rfl _ rfl
  cases hmuted

theorem late_push_muted_sample : ∃ t q,
    run 4 sample (sampleSent ++ [.sentenceEnd sampleHit, .callback 0, .callback 0, .callback 0,
      .pushPending, .sentenceEnd sampleHit, .callback 1, .callback 1, .callback 1,
      .readFrame (samplePacket 0 0 3000) (Asr.sampleSdk 0)]) = .ok t ∧
    t.delayer.written[0]? = some q ∧ q.data.isMuted = true := by
  have hrun : run 4 (run 4 sample (sampleSent ++ [.sentenceEnd sampleHit, .callback 0,
      .callback 0])).state (.callback 0 :: [.pushPending, .sentenceEnd sampleHit, .callback 1,
      .callback 1, .callback 1, .readFrame (samplePacket 0 0 3000) (Asr.sampleSdk 0)]) =
        .ok _ := rfl
  have hiff := (late_push_muted_iff 4 sampleLatePush hrun (q := _) rfl).2
  refine ⟨_, _, rfl, rfl, hiff.mpr ⟨100, 150, [.replaceAudioPacket 100 150,
    .pushAudioFrame (samplePacket 1 100 100)], _, _, rfl, rfl, ?_⟩⟩
  exact ⟨by decide, _, _, rfl, by decide, rfl, _, _, _, _, _, _, _, rfl, rfl, rfl, rfl, rfl⟩

/-! Slow reports. -/

structure QueuedHit (s : Relay δ ω η) (result : List AudioSegement) (i : ℕ) (p : AVPacket) :
    Prop where
  queued : s.delayer.written.length ≤ i
  packet : s.delayer.packets[i]? = some p
  covered : ∃ item ∈ result, Delayer.InWindow s.delayer.replacer.getAudioIndex
    (s.asr.getTimeBase + item.start) (s.asr.getTimeBase + item.stop) p

/-- A packet that is queued when the callback begins is written muted if and
only if it is muted already, or a request that covers it is executed before it
is released. -/
theorem queued_hit_muted_iff (fuel : ℕ) {s t : Relay δ ω η} {result : List AudioSegement}
    {as : List Action} (hrun : run fuel s (.sentenceEnd result :: as) = .ok t)
    (hsucc : Delayer.MutesSucceed fuel s.delayer
      (s.delayerCalls fuel (.sentenceEnd result :: as)))
    {i : ℕ} {p : AVPacket} (hhit : QueuedHit s result i p) {q : AVPacket}
    (hq : t.delayer.written[i]? = some q) :
    Carries p q ∧ (q.data.isMuted = true ↔ p.data.isMuted = true ∨
      ∃ start stop, Delayer.RequestedWhileQueued fuel i s.delayer
          (s.delayerCalls fuel (.sentenceEnd result :: as)) start stop ∧
        Delayer.InWindow s.delayer.replacer.getAudioIndex start stop p) := by
  have hqueue := run_delayer hrun
  have htracks := Delayer.Tracks.refl s.delayer
  have hlt : i < s.delayer.packets.length := (List.getElem?_eq_some_iff.mp hhit.packet).1
  have hp : (s.delayer.packets ++ Delayer.pushes
      (s.delayerCalls fuel (.sentenceEnd result :: as)))[i]? = some p := by
    rw [List.getElem?_append_left hlt, hhit.packet]
  refine ⟨(htracks.run hqueue).getElem? hp (Delayer.written_getElem? hq), ?_⟩
  rw [written_muted_iff hq, Delayer.mutedAt_iff_requested htracks hqueue hsucc hp]
  apply or_congr_left
  rw [Delayer.MutedAt, hhit.packet]
  simp

def sampleQueued : List Action := sampleSent ++ [.pushPending]

theorem sampleQueuedHit : QueuedHit (run 4 sample sampleQueued).state sampleHit 0
    (samplePacket 1 100 100).val where
  queued := by decide
  packet := rfl
  covered := ⟨_, List.mem_cons_self, by decide⟩

theorem queued_hit_released :
    ¬ ∀ (δ : Decoder) (ω : Resampler) (η : Encoder) (fuel : ℕ) (D : Int) (o : OutputContext)
      (r : Replacer δ η) (url : String) (a : Asr δ ω) (audio video : Int) (s t : Relay δ ω η)
      (result : List AudioSegement) (as₀ as : List Action) (i : ℕ) (p : AVPacket),
      0 ≤ D → o.calls = [] →
      run fuel (init (Delayer.new D o r url) a audio video) as₀ = .ok s →
      run fuel s (.sentenceEnd result :: as) = .ok t →
      Delayer.MutesSucceed fuel s.delayer
        (s.delayerCalls fuel (.sentenceEnd result :: as)) →
      QueuedHit s result i p →
      ∀ q, t.delayer.written[i]? = some q → q.data.isMuted = true := by
  intro h
  have hsucc : Delayer.MutesSucceed 4 (run 4 sample sampleQueued).state.delayer
      [.pushVideoFrame (samplePacket 0 0 3000), .replaceAudioPacket 100 150] := by
    refine Delayer.mutesSucceed_cons (by simp) fun d₁ h₁ => ?_
    cases h₁
    refine Delayer.mutesSucceed_cons ?_ fun d₂ _ => Delayer.mutesSucceed_nil d₂
    intro start stop heq
    cases heq
    decide
  have hmuted := h pcmDecoder plainResampler pcmEncoder 4 1 Delayer.sampleOutput
    Delayer.sampleReplacer "out" Asr.sample 1 0 _ _ sampleHit sampleQueued
    [.readFrame (samplePacket 0 0 3000) (Asr.sampleSdk 0), .callback 0, .callback 0, .callback 0]
    0 _ (by decide) rfl rfl rfl hsucc sampleQueuedHit _ rfl
  cases hmuted

theorem queued_hit_muted_sample : ∃ t q,
    run 4 sample (sampleQueued ++ [.sentenceEnd sampleHit, .callback 0, .callback 0, .callback 0,
      .readFrame (samplePacket 0 0 3000) (Asr.sampleSdk 0)]) = .ok t ∧
    t.delayer.written[0]? = some q ∧ q.data.isMuted = true := by
  have hrun : run 4 (run 4 sample sampleQueued).state (.sentenceEnd sampleHit :: [.callback 0,
      .callback 0, .callback 0, .readFrame (samplePacket 0 0 3000) (Asr.sampleSdk 0)]) =
        .ok _ := rfl
  have hsucc : Delayer.MutesSucceed 4 (run 4 sample sampleQueued).state.delayer
      [.replaceAudioPacket 100 150, .pushVideoFrame (samplePacket 0 0 3000)] := by
    refine Delayer.mutesSucceed_cons ?_ fun d₁ h₁ =>
      Delayer.mutesSucceed_cons (by simp) fun d₂ _ => Delayer.mutesSucceed_nil d₂
    intro start stop heq
    cases heq
    decide
  have hiff := (queued_hit_muted_iff 4 hrun hsucc sampleQueuedHit (q := _) rfl).2
  refine ⟨_, _, rfl, rfl, hiff.mpr (Or.inr ⟨100, 150, ?_, by decide⟩)⟩
  exact ⟨[], _, _, rfl, rfl, by decide, by decide⟩

/-- How long a mute may take: a packet is queued for as long as the packets
read after it last no more than twice the delay. -/
theorem still_queued_iff {D : Int} (hD : 0 ≤ D) {o : OutputContext} (ho : o.calls = [])
    {r : Replacer δ η} {url : String} {a : Asr δ ω} {audio video : Int} {as : List Action}
    {t : Relay δ ω η} (hrun : run fuel (init (Delayer.new D o r url) a audio video) as = .ok t)
    (hpos : ∀ p ∈ t.delayer.packets, 0 ≤ p.duration)
    (hfit : ∀ v ∈ t.delayer.totals, v ≤ intMax) {i : ℕ} (hi : i < t.delayer.packets.length) :
    t.delayer.written.length ≤ i ↔
      (Delayer.durations (t.delayer.packets.drop (i + 1))).sum ≤ 2000 * D := by
  have hqueue := run_delayer hrun
  have hcarries := Delayer.run_tracks ho hqueue
  have hsame := Delayer.durations_of_carries hcarries
  have hpushed : ∀ w ∈ Delayer.durations (Delayer.pushes (delayerCalls fuel
      (init (Delayer.new D o r url) a audio video) as)), 0 ≤ w := by
    rw [← hsame]
    exact Delayer.durations_nonneg hpos
  have hsch := Delayer.run_scheduled hD ho hqueue
    (fun p hp => hpushed p.duration (List.mem_map_of_mem hp)) hfit
  have hdelay : t.delayer.deleySec = D := (Delayer.run_fixed hqueue).1
  have hcount := hsch.count_eq
  rw [hdelay] at hcount
  have hrelease := DelayLine.lt_releaseCount_iff (T := 2000 * D) hpushed i
  rw [← hcount, ← hsame, ← Delayer.durations_drop] at hrelease
  have hlen : (Delayer.durations t.delayer.packets).length = t.delayer.packets.length := by
    simp [Delayer.durations]
  rw [hlen] at hrelease
  constructor
  · intro h
    by_contra hover
    exact absurd (hrelease.mpr ⟨hi, not_le.mp hover⟩) (not_lt.mpr h)
  · intro h
    by_contra hover
    exact absurd (hrelease.mp (not_le.mp hover)).2 (not_lt.mpr h)

end RtmpRelay.Relay
