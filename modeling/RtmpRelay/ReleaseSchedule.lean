import RtmpRelay.PacketHistory

/-!
# The release schedule

The counter is the sum of the durations in the queue as long as it fits an
`int`, and then the flush is the delay line with threshold `2000 * deleySec`:
after every push the written packets are exactly those whose later durations
add up to more than the threshold. With durations in `[0, M]` the counter never
leaves `[0, 2000 * deleySec + 2 * M]`.
-/

namespace RtmpRelay.Delayer

open Machine Machine.Outcome Media DelayLine

variable {δ : Decoder} {η : Encoder} {fuel : ℕ}

def durations (ps : List AVPacket) : List Int := ps.map AVPacket.duration

theorem durations_append (ps qs : List AVPacket) :
    durations (ps ++ qs) = durations ps ++ durations qs := List.map_append

theorem durations_drop (ps : List AVPacket) (k : ℕ) :
    durations (ps.drop k) = (durations ps).drop k := List.map_drop

theorem durations_nonneg {ps : List AVPacket} (h : ∀ p ∈ ps, 0 ≤ p.duration) :
    ∀ w ∈ durations ps, 0 ≤ w := by
  intro w hw
  obtain ⟨p, hp, rfl⟩ := List.mem_map.mp hw
  exact h p hp

theorem durations_of_carries {ps qs : List AVPacket} (h : List.Forall₂ Carries ps qs) :
    durations qs = durations ps := by
  have htiming := congrArg (List.map fun t => t.2.2.2) (Carries.timing_list h)
  simpa [durations, AVPacket.timing, Function.comp_def] using htiming

/-- What a flush of `d` with threshold `limit` leaves. -/
structure Flushed (limit : Int) (d d' : Delayer δ η) : Prop where
  written_eq : d'.written = d.written ++ d.avPacket.take (releaseCount limit (durations d.avPacket))
  queue_eq : d'.avPacket = d.avPacket.drop (releaseCount limit (durations d.avPacket))
  total_eq : d'.totalDeleyMs = (durations d'.avPacket).sum
  deleySec_eq : d'.deleySec = d.deleySec
  totals_le : ∀ v ∈ d'.totals, v ∈ d.totals ∨ 0 ≤ v ∧ v ≤ (durations d.avPacket).sum

def Exited (d : Delayer δ η) (e : Halt) (d' : Delayer δ η) : Prop :=
  e = .exit ∧ ∀ v ∈ d'.totals, v ∈ d.totals ∨ 0 ≤ v ∧ v ≤ (durations d.avPacket).sum

theorem handshake_sat (d : Delayer δ η) :
    d.handshake.Sat (fun d' => d'.written = d.written ∧
      d' = { d with outputFormatContext := d'.outputFormatContext, handshakeDone := true })
      (fun e d' => e = .exit ∧ d'.totals = d.totals) := by
  cases h : d.handshake with
  | ok d' => exact handshake_ok h
  | halt e d' =>
    unfold handshake writeHeader at h
    split_ifs at h <;> cases h <;> exact ⟨rfl, rfl⟩

theorem durations_cons (p : AVPacket) (ps : List AVPacket) :
    (durations (p :: ps)).sum = p.duration + (durations ps).sum := by
  simp [durations]

theorem popFront_stores {d m : Delayer δ η} {p : AVPacket} {rest : List AVPacket} {v : Int}
    (heq : m = { d with outputFormatContext := m.outputFormatContext, handshakeDone := true })
    (hv : d.totalDeleyMs - p.duration = v) (hfit : InInt v) :
    (m.popFront p rest).totalDeleyMs = v ∧ (m.popFront p rest).totals = d.totals ++ [v] ∧
      (m.popFront p rest).deleySec = d.deleySec := by
  rw [heq]
  refine ⟨?_, ?_, rfl⟩
  · change narrowInt (d.totalDeleyMs - p.duration) = v
    rw [hv, narrowInt_eq hfit]
  · change d.totals ++ [d.totalDeleyMs - p.duration] = d.totals ++ [v]
    rw [hv]

/-- The values stored while the rest is flushed stay below those of the whole queue. -/
theorem totals_grow {old new : List Int} {v top : Int} (hv : 0 ≤ v) (htop : v ≤ top)
    (h : ∀ w ∈ new, w ∈ old ++ [v] ∨ 0 ≤ w ∧ w ≤ v) :
    ∀ w ∈ new, w ∈ old ∨ 0 ≤ w ∧ w ≤ top := by
  intro w hw
  rcases h w hw with hmem | ⟨hlo, hhi⟩
  · rcases List.mem_append.mp hmem with hold | hnew
    · exact Or.inl hold
    · rw [List.mem_singleton.mp hnew]
      exact Or.inr ⟨hv, htop⟩
  · exact Or.inr ⟨hlo, hhi.trans htop⟩

theorem flushLoop_sat {limit : Int} (hl : 0 ≤ limit) {q : List AVPacket} {d : Delayer δ η}
    (hq : d.avPacket = q) (hne : q ≠ []) (hpos : ∀ p ∈ q, 0 ≤ p.duration)
    (hsum : d.totalDeleyMs = (durations q).sum) (hmax : (durations q).sum ≤ intMax) :
    (flushLoop limit q d).Sat (Flushed limit d) (Exited d) := by
  induction q generalizing d with
  | nil => exact absurd rfl hne
  | cons p rest ih =>
    have hrest : ∀ p ∈ rest, 0 ≤ p.duration := fun q hq => hpos q (List.mem_cons_of_mem p hq)
    have hp : 0 ≤ p.duration := hpos p List.mem_cons_self
    have hnonneg : 0 ≤ (durations rest).sum := List.sum_nonneg (durations_nonneg hrest)
    have hcons := durations_cons p rest
    have hless : d.totalDeleyMs - p.duration = (durations rest).sum := by
      rw [hsum, hcons]
      omega
    rw [flushLoop, hless]
    split_ifs with hover
    · refine (handshake_sat d).bind ?_ ?_
      · intro m hm
        obtain ⟨hw, heq⟩ := hm
        have hnext : (durations rest).sum ≤ intMax := by omega
        have hfit : InInt (durations rest).sum := ⟨by unfold intMin; omega, hnext⟩
        obtain ⟨hpop, htotals, hdelay⟩ := popFront_stores heq hless hfit
        have hne' : rest ≠ [] := by
          intro hnil
          rw [hnil] at hover
          simp only [durations, List.map_nil, List.sum_nil] at hover
          omega
        have hcount : releaseCount limit (durations d.avPacket) =
            releaseCount limit (durations rest) + 1 := by
          rw [hq]
          exact if_pos hover
        have htop : (durations rest).sum ≤ (durations d.avPacket).sum := by
          rw [hq, hcons]
          omega
        refine (ih rfl hne' hrest hpop hnext).imp ?_ ?_
        · intro d' hd'
          have hgrow := hd'.totals_le
          rw [htotals] at hgrow
          refine ⟨?_, ?_, hd'.total_eq, hd'.deleySec_eq.trans hdelay,
            totals_grow hnonneg htop hgrow⟩
          · rw [hd'.written_eq, popFront_written, hw, hcount, hq, List.append_assoc]
            rfl
          · rw [hd'.queue_eq, hcount, hq]
            rfl
        · intro e d' hd'
          have hgrow := hd'.2
          rw [htotals] at hgrow
          exact ⟨hd'.1, totals_grow hnonneg htop hgrow⟩
      · intro e d' hd'
        refine ⟨hd'.1, ?_⟩
        rw [hd'.2]
        exact fun v hv => Or.inl hv
    · have hzero : releaseCount limit (durations d.avPacket) = 0 := by
        rw [hq]
        exact if_neg hover
      refine ⟨?_, ?_, hq ▸ hsum, rfl, fun v hv => Or.inl hv⟩
      · simp [hzero]
      · simp [hzero]

theorem delayLimit_eq {d : Delayer δ η} (hD : InInt (2000 * d.deleySec)) :
    d.delayLimit = some (2000 * d.deleySec) := by
  unfold InInt intMin intMax at hD
  have hfirst : InInt (d.deleySec * 1000) := by
    unfold InInt intMin intMax
    omega
  have hprod : d.deleySec * 1000 * 2 = 2000 * d.deleySec := by omega
  have hsecond : InInt (d.deleySec * 1000 * 2) := by
    unfold InInt intMin intMax
    omega
  rw [delayLimit, mulInt_eq hfirst]
  change mulInt (d.deleySec * 1000) 2 = _
  rw [mulInt_eq hsecond, hprod]

theorem delayLimit_eq_some {d : Delayer δ η} {limit : Int} (h : d.delayLimit = some limit) :
    limit = 2000 * d.deleySec := by
  simp only [delayLimit] at h
  obtain ⟨ms, hms, hlimit⟩ := Option.bind_eq_some_iff.mp h
  rw [mulInt_eq_some hlimit, mulInt_eq_some hms]
  omega

theorem flush_sat {d : Delayer δ η} (hlim : d.delayLimit = some (2000 * d.deleySec))
    (hD : 0 ≤ d.deleySec) (hne : d.avPacket ≠ [])
    (hpos : ∀ p ∈ d.avPacket, 0 ≤ p.duration)
    (hsum : d.totalDeleyMs = (durations d.avPacket).sum)
    (hmax : (durations d.avPacket).sum ≤ intMax) :
    d.flush.Sat (Flushed (2000 * d.deleySec) d) (Exited d) := by
  rw [flush, hlim]
  dsimp only
  split_ifs with hover
  · exact flushLoop_sat (by omega) rfl hne hpos hsum hmax
  · have hzero : releaseCount (2000 * d.deleySec) (durations d.avPacket) = 0 :=
      releaseCount_eq_zero (durations_nonneg hpos) (by omega)
    refine ⟨?_, ?_, hsum, rfl, fun v hv => Or.inl hv⟩
    · simp [hzero]
    · simp [hzero]

/-! The schedule as an invariant of runs. -/

structure Scheduled (ps : List AVPacket) (d : Delayer δ η) : Prop where
  tracks : Tracks ps d
  count_eq : d.written.length = releaseCount (2000 * d.deleySec) (durations ps)
  total_eq : d.totalDeleyMs = (durations d.avPacket).sum

theorem Tracks.durations_queue {ps : List AVPacket} {d : Delayer δ η} (h : Tracks ps d) :
    durations d.avPacket = (durations ps).drop d.written.length := by
  rw [← durations_of_carries h, packets, durations_append, List.drop_append_of_le_length]
  · simp [durations]
  · simp [durations]

theorem enqueue_durations (d : Delayer δ η) (p : AVPacket) :
    durations (d.enqueue p).avPacket = durations d.avPacket ++ [p.duration] :=
  durations_append d.avPacket [p]

theorem enqueue_total {d : Delayer δ η} {p : AVPacket}
    (hsum : d.totalDeleyMs = (durations d.avPacket).sum)
    (hfit : InInt (d.totalDeleyMs + p.duration)) :
    (d.enqueue p).totalDeleyMs = d.totalDeleyMs + p.duration ∧
      (durations (d.enqueue p).avPacket).sum = d.totalDeleyMs + p.duration := by
  refine ⟨narrowInt_eq hfit, ?_⟩
  rw [enqueue_durations, List.sum_append, ← hsum, List.sum_singleton]

def Stored (d : Delayer δ η) (p : AVPacket) (d' : Delayer δ η) : Prop :=
  ∀ v ∈ d'.totals, v ∈ d.totals ∨ 0 ≤ v ∧ v ≤ d.totalDeleyMs + p.duration

theorem stored_of_flush {d d' : Delayer δ η} {p : AVPacket}
    (hpos : 0 ≤ d.totalDeleyMs + p.duration)
    (hsum : (durations (d.enqueue p).avPacket).sum = d.totalDeleyMs + p.duration)
    (h : ∀ v ∈ d'.totals, v ∈ (d.enqueue p).totals ∨
      0 ≤ v ∧ v ≤ (durations (d.enqueue p).avPacket).sum) : Stored d p d' := by
  rw [hsum] at h
  exact totals_grow hpos le_rfl h

theorem Scheduled.push {ps : List AVPacket} {d : Delayer δ η} (h : Scheduled ps d)
    {p : AVPacket} (hD : 0 ≤ d.deleySec) (hlim : d.delayLimit = some (2000 * d.deleySec))
    (hpos : ∀ q ∈ ps ++ [p], 0 ≤ q.duration)
    (hmax : d.totalDeleyMs + p.duration ≤ intMax) :
    (d.enqueue p).flush.Sat
      (fun d' => Scheduled (ps ++ [p]) d' ∧ d'.deleySec = d.deleySec ∧ Stored d p d')
      (fun e d' => e = .exit ∧ Stored d p d') := by
  have hps : ∀ w ∈ durations ps ++ [p.duration], 0 ≤ w := by
    have hall := durations_nonneg hpos
    rwa [durations_append] at hall
  have henq : durations (d.enqueue p).avPacket =
      (durations ps).drop d.written.length ++ [p.duration] := by
    rw [enqueue_durations, h.tracks.durations_queue]
  have hall : ∀ w ∈ durations (d.enqueue p).avPacket, 0 ≤ w := by
    intro w hw
    rw [henq] at hw
    rcases List.mem_append.mp hw with hold | hnew
    · exact hps w (List.mem_append_left _ (List.mem_of_mem_drop hold))
    · exact hps w (List.mem_append_right _ hnew)
  have hnonneg : 0 ≤ d.totalDeleyMs + p.duration := by
    have hsum := List.sum_nonneg hall
    rwa [enqueue_durations, List.sum_append, ← h.total_eq, List.sum_singleton] at hsum
  obtain ⟨htotal, hsum⟩ := enqueue_total h.total_eq
    (⟨by unfold intMin; omega, hmax⟩ : InInt (d.totalDeleyMs + p.duration))
  have hflush : (d.enqueue p).flush.Sat (Flushed (2000 * d.deleySec) (d.enqueue p))
      (Exited (d.enqueue p)) :=
    flush_sat (d := d.enqueue p) hlim hD (by simp [enqueue, setTotal])
      (fun q hq => hall q.duration (List.mem_map_of_mem hq)) (htotal.trans hsum.symm)
      (by rw [hsum]; exact hmax)
  refine hflush.imp ?_ ?_
  · intro d' hd'
    have hpackets : d'.packets = d.packets ++ [p] := by
      rw [← enqueue_packets, packets, packets, hd'.written_eq, hd'.queue_eq, List.append_assoc,
        List.take_append_drop]
    refine ⟨⟨?_, ?_, hd'.total_eq⟩, hd'.deleySec_eq, stored_of_flush hnonneg hsum hd'.totals_le⟩
    · rw [Tracks, hpackets]
      exact List.rel_append h.tracks (Carries.refl_list [p])
    · have hcount : releaseCount (2000 * d.deleySec) (durations (d.enqueue p).avPacket) ≤
          (d.enqueue p).avPacket.length := by
        have hle := releaseCount_le_length (2000 * d.deleySec) (durations (d.enqueue p).avPacket)
        simpa [durations] using hle
      have hlen : (d.enqueue p).written.length = d.written.length := rfl
      have hpush : durations (ps ++ [p]) = durations ps ++ [p.duration] := durations_append ps [p]
      have hdelay : d'.deleySec = d.deleySec := hd'.deleySec_eq
      rw [hdelay, hd'.written_eq, List.length_append, List.length_take,
        Nat.min_eq_left hcount, hlen, hpush, releaseCount_concat hps, ← h.count_eq, ← henq]
  · intro e d' hd'
    exact ⟨hd'.1, stored_of_flush hnonneg hsum hd'.2⟩

theorem Scheduled.replace {ops : List Op} {d : Delayer δ η} (h : Scheduled (pushes ops) d)
    {start stop : Int} {qs : List (AVPacket × Option MuteExit)} {r' : Replacer δ η}
    (hloop : replaceLoop fuel start stop d.avPacket d.replacer = .ok (qs, r')) :
    Scheduled (pushes ops) { d with avPacket := qs.map Prod.fst, replacer := r' } := by
  have hqueue := replaceLoop_carries hloop
  refine ⟨?_, h.count_eq, ?_⟩
  · exact Carries.trans_list h.tracks (List.rel_append (Carries.refl_list d.written) hqueue)
  · exact h.total_eq.trans (congrArg List.sum (durations_of_carries hqueue).symm)

theorem scheduled_new {D : Int} {o : OutputContext} {r : Replacer δ η} {url : String}
    (ho : o.calls = []) : Scheduled [] (new D o r url) := by
  refine ⟨tracks_new ho, ?_, rfl⟩
  rw [written_new ho]
  rfl

def Bounded (D M : Int) (ops : List Op) (d : Delayer δ η) : Prop :=
  Scheduled (pushes ops) d ∧ d.deleySec = D ∧
    (∀ p ∈ pushes ops, 0 ≤ p.duration ∧ p.duration ≤ M) ∧
    ∀ v ∈ d.totals, 0 ≤ v ∧ v ≤ 2000 * D + 2 * M

/-- A halted run has exited on an output error or is stuck inside a replacement. -/
def NoOverflow (D M : Int) (e : Halt) (d : Delayer δ η) : Prop :=
  e ≠ .intOverflow ∧ e ≠ .emptyFront ∧ ∀ v ∈ d.totals, 0 ≤ v ∧ v ≤ 2000 * D + 2 * M

theorem Bounded.push {D M : Int} (hD : 0 ≤ D) (hDM : 2000 * D + 2 * M ≤ intMax)
    {ops : List Op} {d : Delayer δ η} (h : Bounded D M ops d) {op : Op} {p : AVPacket}
    (hop : op.pushed = some p) (hp : 0 ≤ p.duration ∧ p.duration ≤ M) :
    (d.enqueue p).flush.Sat (Bounded D M (ops ++ [op])) (NoOverflow D M) := by
  obtain ⟨hsch, rfl, hall, htot⟩ := h
  have hM : 0 ≤ M := hp.1.trans hp.2
  have hheld : d.totalDeleyMs ≤ M + 2000 * d.deleySec := by
    rw [hsch.total_eq, hsch.tracks.durations_queue, hsch.count_eq]
    apply sum_held_le (by omega) hM
    intro w hw
    obtain ⟨q, hq, rfl⟩ := List.mem_map.mp hw
    exact (hall q hq).2
  have hmem : ∀ q ∈ pushes (ops ++ [op]), 0 ≤ q.duration ∧ q.duration ≤ M := by
    intro q hq
    rw [pushes_concat hop] at hq
    rcases List.mem_append.mp hq with hold | hnew
    · exact hall q hold
    · rw [List.mem_singleton.mp hnew]
      exact hp
  have hfit : InInt (2000 * d.deleySec) := ⟨by unfold intMin; omega, by omega⟩
  have hlim := delayLimit_eq hfit
  have hbound : ∀ d' : Delayer δ η, Stored d p d' →
      ∀ v ∈ d'.totals, 0 ≤ v ∧ v ≤ 2000 * d.deleySec + 2 * M := by
    intro d' hd' v hv
    rcases hd' v hv with hold | ⟨hlo, hhi⟩
    · exact htot v hold
    · exact ⟨hlo, by omega⟩
  refine (hsch.push hD hlim ?_ (by omega)).imp ?_ ?_
  · intro q hq
    rw [← pushes_concat hop] at hq
    exact (hmem q hq).1
  · intro d' hd'
    rw [← pushes_concat hop] at hd'
    exact ⟨hd'.1, hd'.2.1, hmem, hbound d' hd'.2.2⟩
  · intro e d' hd'
    rw [hd'.1]
    exact ⟨by simp, by simp, hbound d' hd'.2⟩

theorem step_bounded {D M : Int} (hD : 0 ≤ D) (hDM : 2000 * D + 2 * M ≤ intMax)
    (ops : List Op) (d : Delayer δ η) (op : Op)
    (hop : ∀ p, op.pushed = some p → 0 ≤ p.duration ∧ p.duration ≤ M)
    (h : Bounded D M ops d) :
    (step fuel d op).Sat (Bounded D M (ops ++ [op])) (NoOverflow D M) := by
  cases op with
  | pushVideoFrame p => exact h.push hD hDM rfl (hop p rfl)
  | pushAudioFrame p => exact h.push hD hDM rfl (hop p rfl)
  | replaceAudioPacket start stop =>
    obtain ⟨hsch, hdelay, hall, htot⟩ := h
    rw [step, replaceAudioPacket]
    cases hloop : replaceLoop fuel start stop d.avPacket d.replacer with
    | ok res =>
      obtain ⟨qs, r'⟩ := res
      have hnext := hsch.replace hloop
      rw [← pushes_concat_replace ops start stop] at hnext hall
      exact ⟨hnext, hdelay, hall, htot⟩
    | error e =>
      rcases replaceLoop_error hloop with rfl | rfl
      · exact ⟨by simp, by simp, htot⟩
      · exact ⟨by simp, by simp, htot⟩

theorem run_bounded {D M : Int} (hD : 0 ≤ D) (hDM : 2000 * D + 2 * M ≤ intMax)
    {o : OutputContext} (ho : o.calls = []) (r : Replacer δ η) (url : String) (ops : List Op)
    (hops : ∀ p ∈ pushes ops, 0 ≤ p.duration ∧ p.duration ≤ M) :
    (run fuel (new D o r url) ops).Sat (Bounded D M ops) (NoOverflow D M) := by
  have hgood : ∀ op ∈ ops, ∀ p, op.pushed = some p → 0 ≤ p.duration ∧ p.duration ≤ M :=
    fun op hop p hp => hops p (List.mem_filterMap.mpr ⟨op, hop, hp⟩)
  have hinit : Bounded D M [] (new D o r url) := by
    refine ⟨scheduled_new ho, rfl, ?_, ?_⟩
    · simp [pushes]
    · simp [new]
  have hall : (Machine.run (step fuel) (new D o r url) ops).Sat (Bounded D M ([] ++ ops))
      (NoOverflow D M) :=
    run_sat (fun h d op hop hd => step_bounded hD hDM h d op hop hd) hgood hinit
  exact hall

theorem run_scheduled {D : Int} (hD : 0 ≤ D) {o : OutputContext} (ho : o.calls = [])
    {r : Replacer δ η} {url : String} {ops : List Op} {d : Delayer δ η}
    (hrun : run fuel (new D o r url) ops = .ok d)
    (hpos : ∀ p ∈ pushes ops, 0 ≤ p.duration) (hfit : ∀ v ∈ d.totals, v ≤ intMax) :
    Scheduled (pushes ops) d := by
  have hall := run_history (P := fun h s => s.deleySec = D ∧
    ((∀ p ∈ pushes h, 0 ≤ p.duration) → (∀ v ∈ s.totals, v ≤ intMax) →
      Scheduled (pushes h) s)) (h := []) ?_ ⟨rfl, fun _ _ => scheduled_new ho⟩ hrun
  · simpa using hall.2 (by simpa using hpos) hfit
  · intro h s op t hs hst
    obtain ⟨rfl, hsch⟩ := hs
    refine ⟨(step_fixed hst).1, ?_⟩
    intro hp ht
    rcases step_ok hst with ⟨p, hop, hno, hpush⟩ | ⟨start, stop, qs, r', rfl, hloop, rfl⟩
    · have hflush : (s.enqueue p.val).flush = .ok t := (step_push hop).symm.trans hst
      rw [pushes_concat hop] at hp ⊢
      have hold := hsch (fun q hq => hp q (List.mem_append_left _ hq))
        (fun v hv => ht v (hpush.totals_sub (List.mem_append_left _ hv)))
      have hmax : s.totalDeleyMs + p.val.duration ≤ intMax :=
        ht _ (hpush.totals_sub (List.mem_append_right _ (List.mem_singleton_self _)))
      obtain ⟨limit, hlim⟩ := Option.ne_none_iff_exists'.mp hpush.delayLimit_ne
      rw [delayLimit_eq_some hlim] at hlim
      exact ((hold.push hD hlim hp hmax).of_ok hflush).1
    · rw [pushes_concat_replace] at hp ⊢
      exact (hsch hp ht).replace hloop

/-- After the last push the written packets are exactly those whose later
durations exceed the threshold, and the counter has never left its range. -/
theorem release_schedule (fuel : ℕ) {D M : Int} (hD : 0 ≤ D)
    (hDM : 2000 * D + 2 * M ≤ 2 ^ 31 - 1) {o : OutputContext} (ho : o.calls = [])
    (r : Replacer δ η) (url : String) (ops : List Op)
    (hops : ∀ p ∈ pushes ops, 0 ≤ p.duration ∧ p.duration ≤ M) :
    (run fuel (new D o r url) ops).Sat
      (fun d =>
        (∀ i, i < d.written.length ↔ i < (pushes ops).length ∧
          2000 * D < (durations ((pushes ops).drop (i + 1))).sum) ∧
        List.Forall₂ Carries ((pushes ops).take d.written.length) d.written ∧
        List.Forall₂ Carries ((pushes ops).drop d.written.length) d.avPacket ∧
        d.totalDeleyMs = (durations d.avPacket).sum ∧
        ∀ v ∈ d.totals, 0 ≤ v ∧ v ≤ 2000 * D + 2 * M)
      (NoOverflow D M) := by
  refine (run_bounded hD (by unfold intMax; omega) ho r url ops hops).imp ?_ fun _ _ h => h
  intro d hd
  obtain ⟨hsch, rfl, _, htot⟩ := hd
  refine ⟨?_, List.forall₂_take_append _ _ _ hsch.tracks,
    List.forall₂_drop_append _ _ _ hsch.tracks, hsch.total_eq, htot⟩
  intro i
  have hnonneg : ∀ w ∈ durations (pushes ops), 0 ≤ w :=
    durations_nonneg fun p hp => (hops p hp).1
  rw [hsch.count_eq, lt_releaseCount_iff hnonneg, durations_drop]
  simp [durations]

theorem release_schedule_sample :
    ∃ d, run 4 sampleDelayer [.pushAudioFrame (samplePacket 1 0 900),
        .pushVideoFrame (samplePacket 0 0 900), .replaceAudioPacket 0 50,
        .pushAudioFrame (samplePacket 1 900 900), .pushVideoFrame (samplePacket 0 900 900)] = ok d ∧
      d.written.length = 1 ∧ d.totalDeleyMs = (durations d.avPacket).sum := by
  have hsat := release_schedule 4 (D := 1) (M := 900) (by decide) (by decide) (o := sampleOutput)
    rfl sampleReplacer "out" [.pushAudioFrame (samplePacket 1 0 900),
      .pushVideoFrame (samplePacket 0 0 900), .replaceAudioPacket 0 50,
      .pushAudioFrame (samplePacket 1 900 900), .pushVideoFrame (samplePacket 0 900 900)]
    (by decide)
  exact ⟨_, rfl, rfl, (hsat.of_ok rfl).2.2.2.1⟩

end RtmpRelay.Delayer
