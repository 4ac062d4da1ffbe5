import RtmpRelay.Lockstep

/-!
# What muting covers

`replaceAudioPacket` mutes or keeps: a packet of the window comes out muted
when the four codec loops run through for it, and comes out as it was when one
of them ends on an error. Over a run in which they always run through, a packet
is written muted exactly when a request covered it between its push and its
write, so the order and the repetition of requests between two pushes do not
matter.
-/

namespace RtmpRelay.Delayer

open Machine Machine.Outcome Media

variable {δ : Decoder} {η : Encoder} {fuel : ℕ}

/-- Outside the window nothing changes; inside it the packet keeps its timing,
and is muted or left in place according to the exit its codec calls took. -/
theorem replaceAudioPacket_mutes_or_keeps {d d' : Delayer δ η} {start stop : Int}
    (h : d.replaceAudioPacket fuel start stop = .ok d') :
    d'.avPacket.length = d.avPacket.length ∧
      ∀ (i : ℕ) (p q : AVPacket), d.avPacket[i]? = some p → d'.avPacket[i]? = some q →
        (¬ InWindow d.replacer.getAudioIndex start stop p →
          q = p ∧ (d.exits fuel start stop)[i]? = some none) ∧
        (InWindow d.replacer.getAudioIndex start stop p →
          q.timing = p.timing ∧
            (((d.exits fuel start stop)[i]? = some (some MuteExit.muted) ∧
                q.data.isMuted = true) ∨
              ∃ x, x ≠ MuteExit.muted ∧ (d.exits fuel start stop)[i]? = some (some x) ∧
                q = p)) := by
  obtain ⟨qs, r', hloop, rfl⟩ := replaceAudioPacket_ok h
  have hqs := (replaceLoop_ok hloop).2
  rw [exits_eq hloop]
  refine ⟨by simpa using hqs.length_eq.symm, ?_⟩
  intro i p q hp hq
  rcases forall₂_getElem? hqs i with ⟨hnone, _⟩ | ⟨p', out, hp', hout, hrep⟩
  · rw [hnone] at hp
    simp at hp
  · cases hp.symm.trans hp'
    rw [List.getElem?_map, hout] at hq
    cases hq
    simp only [List.getElem?_map, hout, Option.map_some, Option.some.injEq]
    simp only [Replaced] at hrep
    split_ifs at hrep with hin
    · refine ⟨fun hno => absurd hin hno, fun _ => ?_⟩
      rcases hrep with ⟨hx, hm, ht⟩ | ⟨x, hne, hx, hkeep⟩
      · exact ⟨ht, Or.inl ⟨hx, hm⟩⟩
      · exact ⟨by rw [hkeep], Or.inr ⟨x, hne, hx, hkeep⟩⟩
    · exact ⟨fun _ => hrep, fun hyes => absurd hyes hin⟩

def corruptDelayer : Delayer corruptDecoder pcmEncoder :=
  let r : Replacer corruptDecoder pcmEncoder :=
    { audioStreamIndex := 1, audioDecoderCtx := (), audioEncoderCtx := none }
  { new 1 sampleOutput r "out" with avPacket := [(samplePacket 1 0 100).val] }

theorem replaceAudioPacket_keeps_original :
    ¬ ∀ (δ : Decoder) (η : Encoder) (fuel : ℕ) (d d' : Delayer δ η) (start stop : Int),
      d.replaceAudioPacket fuel start stop = .ok d' →
      ∀ q ∈ d'.avPacket, InWindow d.replacer.getAudioIndex start stop q →
        q.data.isMuted = true := by
  intro h
  have hmuted := h corruptDecoder pcmEncoder 1 corruptDelayer _ 0 50 rfl
    (samplePacket 1 0 100).val (by decide) (by decide)
  cases hmuted

theorem replaceAudioPacket_mutes_sample :
    ∃ d' q, (sampleDelayer.enqueue (samplePacket 1 0 100).val).replaceAudioPacket 4 0 50 = .ok d' ∧
      d'.avPacket[0]? = some q ∧ q.timing = (1, 0, 0, 100) ∧ q.data.isMuted = true := by
  have hcall : (sampleDelayer.enqueue (samplePacket 1 0 100).val).replaceAudioPacket 4 0 50 =
      .ok _ := rfl
  have hkeep := (replaceAudioPacket_mutes_or_keeps hcall).2 0 _ _ rfl rfl
  obtain ⟨htiming, ⟨_, hmuted⟩ | ⟨x, hne, hexit, _⟩⟩ := hkeep.2 (by decide)
  · exact ⟨_, _, hcall, rfl, htiming, hmuted⟩
  · exact absurd (Option.some.inj (Option.some.inj hexit)).symm hne

/-! Runs whose replacements succeed. -/

def MutesSucceed (fuel : ℕ) (d : Delayer δ η) (ops : List Op) : Prop :=
  ∀ pre start stop post m, ops = pre ++ .replaceAudioPacket start stop :: post →
    run fuel d pre = .ok m → Succeeds fuel m start stop

theorem mutesSucceed_nil (d : Delayer δ η) : MutesSucceed fuel d [] := by
  intro pre start stop post m heq
  cases pre <;> cases heq

theorem mutesSucceed_cons {d : Delayer δ η} {op : Op} {ops : List Op}
    (hop : ∀ start stop, op = .replaceAudioPacket start stop → Succeeds fuel d start stop)
    (hops : ∀ d', step fuel d op = .ok d' → MutesSucceed fuel d' ops) :
    MutesSucceed fuel d (op :: ops) := by
  intro pre start stop post m heq hm
  cases pre with
  | nil =>
    obtain ⟨rfl, _⟩ := List.cons.inj heq
    cases hm
    exact hop start stop rfl
  | cons op' pre =>
    obtain ⟨rfl, rfl⟩ := List.cons.inj heq
    obtain ⟨d', hd', hm'⟩ := run_cons_ok.mp hm
    exact hops d' hd' pre start stop post m rfl hm'

/-- `replaceAudioPacket(start, stop)` is executed after the `i`-th packet was
pushed and before it was written. -/
def RequestedWhileQueued (fuel i : ℕ) (d : Delayer δ η) (ops : List Op) (start stop : Int) :
    Prop :=
  ∃ pre post m, ops = pre ++ .replaceAudioPacket start stop :: post ∧
    run fuel d pre = .ok m ∧ m.written.length ≤ i ∧ i < m.packets.length

theorem not_mutedAt_new {D : Int} {o : OutputContext} (ho : o.calls = []) {r : Replacer δ η}
    {url : String} (i : ℕ) : ¬ MutedAt i (new D o r url) := by
  intro h
  obtain ⟨q, hq, _⟩ := h
  rw [packets_new ho] at hq
  simp at hq

theorem run_split {d d' m : Delayer δ η} {pre post : List Op} {start stop : Int}
    (hrun : run fuel d (pre ++ .replaceAudioPacket start stop :: post) = .ok d')
    (hm : run fuel d pre = .ok m) :
    ∃ qs r', replaceLoop fuel start stop m.avPacket m.replacer = .ok (qs, r') ∧
      run fuel { m with avPacket := qs.map Prod.fst, replacer := r' } post = .ok d' := by
  obtain ⟨m', hm', hrest⟩ := run_append_ok.mp hrun
  cases hm.symm.trans hm'
  obtain ⟨t, ht, hpost⟩ := run_cons_ok.mp hrest
  obtain ⟨qs, r', hloop, rfl⟩ := replaceAudioPacket_ok ht
  exact ⟨qs, r', hloop, hpost⟩

theorem mutedAt_iff_requested {d d' : Delayer δ η} {ps : List AVPacket} (ht : Tracks ps d)
    {ops : List Op} (hrun : run fuel d ops = .ok d') (hsucc : MutesSucceed fuel d ops) {i : ℕ}
    {p : AVPacket} (hp : (ps ++ pushes ops)[i]? = some p) :
    MutedAt i d' ↔ MutedAt i d ∨ ∃ start stop, RequestedWhileQueued fuel i d ops start stop ∧
      InWindow d.replacer.getAudioIndex start stop p := by
  have hcover : ∀ {pre post : List Op} {start stop : Int} {m : Delayer δ η},
      ops = pre ++ .replaceAudioPacket start stop :: post → run fuel d pre = .ok m →
      i < m.packets.length →
      (MutesAt fuel i m (.replaceAudioPacket start stop) ↔
        m.written.length ≤ i ∧ InWindow d.replacer.getAudioIndex start stop p) := by
    intro pre post start stop m hops hm hi
    subst hops
    have htracks := ht.run hm
    rw [pushes_append, ← List.append_assoc,
      List.getElem?_append_left (htracks.length_eq ▸ hi)] at hp
    obtain ⟨qs, r', hloop, _⟩ := run_split hrun hm
    rw [mutesAt_iff hloop (hsucc pre start stop post m rfl hm) htracks hp, (run_fixed hm).2.1]
  rw [run_mutedAt i hrun]
  apply or_congr_right
  constructor
  · intro h
    obtain ⟨pre, op, post, m, hops, hm, hset⟩ := h
    cases op with
    | pushVideoFrame q => exact hset.elim
    | pushAudioFrame q => exact hset.elim
    | replaceAudioPacket start stop =>
      have hi := hset.lt_packets
      obtain ⟨hw, hin⟩ := (hcover hops hm hi).mp hset
      exact ⟨start, stop, ⟨pre, post, m, hops, hm, hw, hi⟩, hin⟩
  · intro h
    obtain ⟨start, stop, ⟨pre, post, m, hops, hm, hw, hi⟩, hin⟩ := h
    exact ⟨pre, _, post, m, hops, hm, (hcover hops hm hi).mpr ⟨hw, hin⟩⟩

theorem mutedAt_iff_requested_new {D : Int} {o : OutputContext} (ho : o.calls = [])
    {r : Replacer δ η} {url : String} {ops : List Op} {d : Delayer δ η}
    (hrun : run fuel (new D o r url) ops = .ok d)
    (hsucc : MutesSucceed fuel (new D o r url) ops) {i : ℕ} {p : AVPacket}
    (hp : (pushes ops)[i]? = some p) :
    MutedAt i d ↔ ∃ start stop, RequestedWhileQueued fuel i (new D o r url) ops start stop ∧
      InWindow r.getAudioIndex start stop p :=
  (mutedAt_iff_requested (tracks_new ho) hrun hsucc hp).trans
    (or_iff_right (not_mutedAt_new ho i))

/-! The requests made between two pushes, as a set. -/

def RequestedAfter (ops : List Op) (k : ℕ) (start stop : Int) : Prop :=
  ∃ pre post, ops = pre ++ .replaceAudioPacket start stop :: post ∧ (pushes pre).length = k

theorem pushOnly_append (as bs : List Op) :
    pushOnly (as ++ bs) = pushOnly as ++ pushOnly bs := List.filter_append as bs

theorem pushOnly_length (ops : List Op) : (pushOnly ops).length = (pushes ops).length := by
  induction ops with
  | nil => rfl
  | cons op ops ih =>
    cases op with
    | pushVideoFrame p => exact congrArg Nat.succ ih
    | pushAudioFrame p => exact congrArg Nat.succ ih
    | replaceAudioPacket start stop => exact ih

theorem pushes_pushOnly (ops : List Op) : pushes (pushOnly ops) = pushes ops := by
  induction ops with
  | nil => rfl
  | cons op ops ih =>
    cases op with
    | pushVideoFrame p => exact congrArg (List.cons p.val) ih
    | pushAudioFrame p => exact congrArg (List.cons p.val) ih
    | replaceAudioPacket start stop => exact ih

theorem pushOnly_take (pre post : List Op) :
    (pushOnly (pre ++ post)).take (pushes pre).length = pushOnly pre := by
  rw [pushOnly_append, ← pushOnly_length, List.take_left]

theorem run_pushOnly {d m : Delayer δ η} {ops : List Op} (h : run fuel d ops = .ok m) :
    ∃ t, run fuel d (pushOnly ops) = .ok t ∧ t.written.length = m.written.length := by
  rcases run_agree d ops with hhalt | hrel
  · exact absurd hhalt (not_haltsAt_of_ok h)
  · rw [h] at hrel
    obtain ⟨t, ht, hagree⟩ := hrel.ok_left
    have hlen := congrArg List.length hagree.written
    rw [List.length_map, List.length_map] at hlen
    exact ⟨t, ht, hlen.symm⟩

theorem requestedWhileQueued_iff {d d' : Delayer δ η} {ops : List Op}
    (hrun : run fuel d ops = .ok d') (i : ℕ) (start stop : Int) :
    RequestedWhileQueued fuel i d ops start stop ↔
      ∃ k, i < d.packets.length + k ∧ RequestedAfter ops k start stop ∧
        ∃ t, run fuel d ((pushOnly ops).take k) = .ok t ∧ t.written.length ≤ i := by
  constructor
  · intro h
    obtain ⟨pre, post, m, rfl, hm, hw, hi⟩ := h
    obtain ⟨t, ht, hlen⟩ := run_pushOnly hm
    rw [run_packets_length hm] at hi
    refine ⟨_, hi, ⟨pre, post, rfl, rfl⟩, t, ?_, hlen ▸ hw⟩
    rwa [pushOnly_take]
  · intro h
    obtain ⟨k, hi, ⟨pre, post, rfl, rfl⟩, t, ht, hw⟩ := h
    rw [pushOnly_take] at ht
    obtain ⟨m, hm, _⟩ := run_append_ok.mp hrun
    obtain ⟨t', ht', hlen⟩ := run_pushOnly hm
    cases ht.symm.trans ht'
    exact ⟨pre, post, m, rfl, hm, hlen ▸ hw, (run_packets_length hm).symm ▸ hi⟩

/-- A packet is written muted if and only if a request for its stream covered
its time stamp while it was queued; otherwise it is written as it was pushed.
The order and the repetition of the requests made between two pushes are
without effect. -/
theorem muting_covers_requests (fuel : ℕ) (D : Int) {o : OutputContext} (ho : o.calls = [])
    (r : Replacer δ η) (url : String) :
    (∀ (ops : List Op) (d : Delayer δ η), run fuel (new D o r url) ops = .ok d →
      MutesSucceed fuel (new D o r url) ops →
      ∀ (i : ℕ) (p q : AVPacket), (pushes ops)[i]? = some p → d.written[i]? = some q →
        (q.data.isMuted = true ↔ p.streamIndex = r.getAudioIndex ∧
          ∃ start stop, RequestedWhileQueued fuel i (new D o r url) ops start stop ∧
            start - 200 ≤ p.pts ∧ p.pts ≤ stop) ∧
        (q.data.isMuted = false → q = p)) ∧
    (∀ (ops₁ ops₂ : List Op) (d₁ d₂ : Delayer δ η), run fuel (new D o r url) ops₁ = .ok d₁ →
      run fuel (new D o r url) ops₂ = .ok d₂ → MutesSucceed fuel (new D o r url) ops₁ →
      MutesSucceed fuel (new D o r url) ops₂ → pushOnly ops₁ = pushOnly ops₂ →
      (∀ k start stop, RequestedAfter ops₁ k start stop ↔ RequestedAfter ops₂ k start stop) →
      d₁.written.length = d₂.written.length ∧ ∀ i, MutedAt i d₁ ↔ MutedAt i d₂) := by
  constructor
  · intro ops d hrun hsucc i p q hp hq
    have hcarries := (run_tracks ho hrun).getElem? hp (written_getElem? hq)
    refine ⟨?_, hcarries.eq_of_not_muted⟩
    have hmuted : q.data.isMuted = true ↔ MutedAt i d := by
      rw [MutedAt, written_getElem? hq]
      simp
    rw [hmuted, mutedAt_iff_requested_new ho hrun hsucc hp]
    constructor
    · intro h
      obtain ⟨start, stop, hreq, hidx, hlo, hhi⟩ := h
      exact ⟨hidx, start, stop, hreq, hlo, hhi⟩
    · intro h
      obtain ⟨hidx, start, stop, hreq, hlo, hhi⟩ := h
      exact ⟨start, stop, hreq, hidx, hlo, hhi⟩
  · intro ops₁ ops₂ d₁ d₂ hrun₁ hrun₂ hsucc₁ hsucc₂ hpush hreq
    have hpushes : pushes ops₁ = pushes ops₂ := by
      rw [← pushes_pushOnly ops₁, hpush, pushes_pushOnly]
    constructor
    · obtain ⟨t₁, ht₁, hlen₁⟩ := run_pushOnly hrun₁
      obtain ⟨t₂, ht₂, hlen₂⟩ := run_pushOnly hrun₂
      rw [hpush] at ht₁
      cases ht₁.symm.trans ht₂
      exact hlen₁.symm.trans hlen₂
    · intro i
      cases hp : (pushes ops₁)[i]? with
      | some p =>
        rw [mutedAt_iff_requested_new ho hrun₁ hsucc₁ hp,
          mutedAt_iff_requested_new ho hrun₂ hsucc₂ (hpushes ▸ hp)]
        simp only [requestedWhileQueued_iff hrun₁, requestedWhileQueued_iff hrun₂, hreq, hpush]
      | none =>
        have hnone : ∀ {ops : List Op} {d : Delayer δ η}, run fuel (new D o r url) ops = .ok d →
            (pushes ops)[i]? = none → ¬ MutedAt i d := by
          intro ops d hrun hnone h
          obtain ⟨q, hq, _⟩ := h
          rw [List.getElem?_eq_none_iff, (run_tracks ho hrun).length_eq] at hnone
          rw [List.getElem?_eq_none hnone] at hq
          simp at hq
        exact iff_of_false (hnone hrun₁ hp) (hnone hrun₂ (hpushes ▸ hp))

def sampleMute : List Op :=
  [.pushAudioFrame (samplePacket 1 0 100), .replaceAudioPacket 0 50,
    .pushVideoFrame (samplePacket 0 0 3000)]

theorem muting_covers_requests_sample :
    ∃ q, (run 4 sampleDelayer sampleMute).state.written[0]? = some q ∧ q.data.isMuted = true := by
  have hsucc : MutesSucceed 4 sampleDelayer sampleMute := by
    refine mutesSucceed_cons (by simp) fun d₁ h₁ => ?_
    cases h₁
    refine mutesSucceed_cons ?_ fun d₂ h₂ => mutesSucceed_cons (by simp) fun d₃ _ =>
      mutesSucceed_nil d₃
    intro start stop heq
    cases heq
    decide
  have hrun : run 4 sampleDelayer sampleMute = ok _ := rfl
  have hcover := (muting_covers_requests 4 1 (o := sampleOutput) rfl sampleReplacer "out").1
    sampleMute _ hrun hsucc 0 _ _ rfl rfl
  refine ⟨_, rfl, hcover.1.mpr ⟨rfl, 0, 50, ?_, by decide, by decide⟩⟩
  exact ⟨[.pushAudioFrame (samplePacket 1 0 100)], _, _, rfl, rfl, by decide, by decide⟩

end RtmpRelay.Delayer
