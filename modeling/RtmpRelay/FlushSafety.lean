import RtmpRelay.Arguments
import RtmpRelay.ReleaseSchedule

/-!
# The delays for which `flush` is safe

`flush` compares the counter with an `int` product of the command line's value
and takes `front()` of the queue without a test for an empty queue. The counter
is the sum of the queued durations modulo the width of `int`. With one packet
left it is at most that packet's duration, so a threshold that is not negative
ends the loop there, wrapped counter or not; under a negative threshold the
first packet is popped and the loop goes on with an empty queue.
-/

namespace RtmpRelay.Delayer

open Machine Machine.Outcome Media Arguments

variable {δ : Decoder} {η : Encoder} {fuel : ℕ} {D : Int} {d : Delayer δ η}

/-- The product is an `int` and `front()` is never taken of an empty queue. -/
def NoFault (e : Halt) : Prop := e ≠ .intOverflow ∧ e ≠ .emptyFront

def FlushSafe (x : Outcome Halt (Delayer δ η)) : Prop := x.Sat (fun _ => True) fun e _ => NoFault e

def Opens (o : OutputContext) : Prop :=
  (o.noFile = true ∨ 0 ≤ o.avioOpenRet) ∧ 0 ≤ o.writeHeaderRet

def SafeDelay (D : Int) (o : OutputContext) : Prop :=
  InInt (2000 * D) ∧ (0 ≤ D ∨ ¬ Opens o)

def Timed (p : AVPacket) : Prop := 0 ≤ p.duration ∧ p.duration ≤ 1000000

instance (p : AVPacket) : Decidable (Timed p) := inferInstanceAs (Decidable (_ ∧ _))

/-! The counter, wrapped or not. -/

structure Counted (D : Int) (d : Delayer δ η) : Prop where
  deleySec_eq : d.deleySec = D
  total_eq : d.totalDeleyMs = narrowInt (durations d.avPacket).sum
  durations_nonneg : ∀ p ∈ d.avPacket, 0 ≤ p.duration

theorem Counted.enqueue (h : Counted D d) {p : AVPacket} (hp : 0 ≤ p.duration) :
    Counted D (d.enqueue p) := by
  refine ⟨h.deleySec_eq, ?_, ?_⟩
  · change narrowInt (d.totalDeleyMs + p.duration) = narrowInt (durations (d.avPacket ++ [p])).sum
    rw [h.total_eq, narrowInt_add, durations_append, List.sum_append]
    simp [durations]
  · intro q hq
    rcases List.mem_append.mp hq with hold | hnew
    · exact h.durations_nonneg q hold
    · rw [List.mem_singleton.mp hnew]
      exact hp

theorem Counted.popFront {p : AVPacket} {rest : List AVPacket} (h : Counted D d)
    (hq : d.avPacket = p :: rest) : Counted D (d.popFront p rest) := by
  refine ⟨h.deleySec_eq, ?_, ?_⟩
  · change narrowInt (d.totalDeleyMs - p.duration) = narrowInt (durations rest).sum
    have hsum : (durations d.avPacket).sum + -p.duration = (durations rest).sum := by
      simp [hq, durations]
    rw [h.total_eq, Int.sub_eq_add_neg, narrowInt_add, hsum]
  · intro q hmem
    apply h.durations_nonneg q
    rw [hq]
    exact List.mem_cons_of_mem p hmem

theorem Counted.handshake {m : Delayer δ η} (h : Counted D d)
    (heq : m = { d with outputFormatContext := m.outputFormatContext, handshakeDone := true }) :
    Counted D m ∧ m.avPacket = d.avPacket := by
  rw [heq]
  exact ⟨⟨h.deleySec_eq, h.total_eq, h.durations_nonneg⟩, rfl⟩

theorem Counted.last_le {p : AVPacket} (h : Counted D d) (hq : d.avPacket = [p]) :
    d.totalDeleyMs ≤ p.duration := by
  have hp : 0 ≤ p.duration := by
    apply h.durations_nonneg
    rw [hq]
    exact List.mem_singleton_self p
  rw [h.total_eq, hq]
  simpa [durations] using narrowInt_le hp

theorem flushLoop_counted {limit : Int} (hl : 0 ≤ limit) {q : List AVPacket}
    (hq : d.avPacket = q) (hne : q ≠ []) (h : Counted D d) :
    (flushLoop limit q d).Sat (Counted D) fun e _ => NoFault e := by
  induction q generalizing d with
  | nil => exact absurd rfl hne
  | cons p rest ih =>
    rw [flushLoop]
    by_cases hover : d.totalDeleyMs - p.duration > limit
    · rw [if_pos hover]
      have hne' : rest ≠ [] := by
        intro hnil
        have hle := h.last_le (hnil ▸ hq)
        omega
      refine (handshake_sat d).bind ?_ ?_
      · intro m hm
        obtain ⟨hcounted, hsame⟩ := h.handshake hm.2
        exact ih rfl hne' (hcounted.popFront (hsame.trans hq))
      · intro e _ he
        rw [he.1]
        exact ⟨by simp, by simp⟩
    · rw [if_neg hover]
      exact h

theorem Counted.push (h : Counted D d) (hD : 0 ≤ D) (hfit : InInt (2000 * D)) {p : AVPacket}
    (hp : 0 ≤ p.duration) : (d.enqueue p).flush.Sat (Counted D) fun e _ => NoFault e := by
  have hnext := h.enqueue hp
  rw [flush, delayLimit_eq (d := d.enqueue p) (hnext.deleySec_eq ▸ hfit)]
  change Sat _ _ (if _ then _ else _)
  split_ifs
  · refine flushLoop_counted ?_ rfl ?_ hnext
    · rw [hnext.deleySec_eq]
      omega
    · exact List.append_ne_nil_of_right_ne_nil d.avPacket (List.cons_ne_nil p [])
  · exact hnext

theorem Counted.replace (h : Counted D d) (start stop : Int) :
    (d.replaceAudioPacket fuel start stop).Sat (Counted D) fun e _ => NoFault e := by
  rw [replaceAudioPacket]
  cases hloop : replaceLoop fuel start stop d.avPacket d.replacer with
  | ok res =>
    obtain ⟨qs, r⟩ := res
    have hsame := durations_of_carries (replaceLoop_carries hloop)
    refine ⟨h.deleySec_eq, ?_, ?_⟩
    · exact h.total_eq.trans (congrArg (fun ds => narrowInt ds.sum) hsame.symm)
    · intro q hq
      have hmem : q.duration ∈ durations d.avPacket := by
        rw [← hsame]
        exact List.mem_map_of_mem hq
      obtain ⟨p, hp, heq⟩ := List.mem_map.mp hmem
      exact heq ▸ h.durations_nonneg p hp
  | error e =>
    rcases replaceLoop_error hloop with rfl | rfl
    · exact ⟨by simp, by simp⟩
    · exact ⟨by simp, by simp⟩

theorem step_counted (hD : 0 ≤ D) (hfit : InInt (2000 * D)) (op : Op)
    (hop : ∀ p, op.pushed = some p → 0 ≤ p.duration) (h : Counted D d) :
    (step fuel d op).Sat (Counted D) fun e _ => NoFault e := by
  cases op with
  | pushVideoFrame p => exact h.push hD hfit (hop p rfl)
  | pushAudioFrame p => exact h.push hD hfit (hop p rfl)
  | replaceAudioPacket start stop => exact h.replace start stop

/-! The first push of a run. -/

theorem replace_empty (hd : d.avPacket = []) (start stop : Int) :
    d.replaceAudioPacket fuel start stop = .ok d := by
  rw [replaceAudioPacket, hd, replaceLoop]
  change ok { d with avPacket := [], replacer := d.replacer } = _
  rw [← hd]

theorem run_first_push (fuel : ℕ) (hd : d.avPacket = []) (ops : List Op) :
    (pushes ops = [] ∧ run fuel d ops = .ok d) ∨
      ∃ p ∈ pushes ops, ∃ post,
        run fuel d ops = (d.enqueue p).flush.bind fun d => run fuel d post := by
  induction ops with
  | nil => exact Or.inl ⟨rfl, rfl⟩
  | cons op ops ih =>
    cases hop : op.pushed with
    | some p =>
      refine Or.inr ⟨p, ?_, ops, ?_⟩
      · exact List.mem_filterMap.mpr ⟨op, List.mem_cons_self, hop⟩
      · change (step fuel d op).bind _ = _
        rw [step_push hop]
        rfl
    | none =>
      obtain ⟨start, stop, rfl⟩ : ∃ start stop, op = .replaceAudioPacket start stop := by
        cases op with
        | pushVideoFrame p => cases hop
        | pushAudioFrame p => cases hop
        | replaceAudioPacket start stop => exact ⟨start, stop, rfl⟩
      have hrun : run fuel d (.replaceAudioPacket start stop :: ops) = run fuel d ops := by
        change (d.replaceAudioPacket fuel start stop).bind _ = _
        rw [replace_empty hd]
        rfl
      rw [hrun]
      exact ih

theorem handshake_opens (hdone : d.handshakeDone = false) :
    (∃ m, d.handshake = .ok m ∧ Opens d.outputFormatContext) ∨
      ∃ m, d.handshake = .halt .exit m ∧ ¬ Opens d.outputFormatContext := by
  have hcall : ∀ c, (d.outputCall c).outputFormatContext.writeHeaderRet =
      d.outputFormatContext.writeHeaderRet := fun _ => rfl
  rw [handshake, if_neg (by simp [hdone])]
  unfold Opens writeHeader
  split_ifs with hfile hret hopen hret
  · exact Or.inr ⟨_, rfl, by omega⟩
  · exact Or.inl ⟨_, rfl, Or.inl hfile, by omega⟩
  · exact Or.inr ⟨_, rfl, by simp [hfile]; omega⟩
  · rw [hcall] at hret
    exact Or.inr ⟨_, rfl, by omega⟩
  · rw [hcall] at hret
    exact Or.inl ⟨_, rfl, Or.inr (by omega), by omega⟩

theorem flush_overflow {p : AVPacket} (hD : ¬ InInt (2000 * d.deleySec)) :
    ∃ m, (d.enqueue p).flush = .halt .intOverflow m := by
  have hnone : (d.enqueue p).delayLimit = none := by
    cases hlim : (d.enqueue p).delayLimit with
    | none => rfl
    | some limit =>
      exfalso
      apply hD
      obtain ⟨ms, _, hmul⟩ := Option.bind_eq_some_iff.mp hlim
      have hin : InInt limit := mulInt_inInt hmul
      rw [delayLimit_eq_some hlim] at hin
      exact hin
  exact ⟨_, by rw [flush, hnone]⟩

/-- Under a negative threshold the first packet is popped at once, if the
output can be opened for it. -/
theorem flush_negative (o : OutputContext) (r : Replacer δ η) (url : String) {p : AVPacket}
    (hD : D < 0) (hfit : InInt (2000 * D)) (hp : Timed p) :
    ∃ e m, ((new D o r url).enqueue p).flush = .halt e m ∧
      (Opens o ∧ e = .emptyFront ∨ ¬ Opens o ∧ e = .exit) := by
  obtain ⟨hlo, hhi⟩ := hp
  have hwide : InInt p.duration := by
    unfold InInt intMin intMax
    omega
  have htotal : ((new D o r url).enqueue p).totalDeleyMs = p.duration := by
    change narrowInt (0 + p.duration) = p.duration
    rw [Int.zero_add, narrowInt_eq hwide]
  have hlimit : ((new D o r url).enqueue p).delayLimit = some (2000 * D) :=
    delayLimit_eq (d := (new D o r url).enqueue p) hfit
  have hflush : ((new D o r url).enqueue p).flush =
      ((new D o r url).enqueue p).handshake.bind fun d =>
        .halt .emptyFront (d.popFront p []) := by
    rw [flush, hlimit]
    dsimp only
    rw [htotal, if_pos (by omega)]
    change flushLoop (2000 * D) [p] _ = _
    rw [flushLoop, htotal, if_pos (by omega)]
    rfl
  rcases handshake_opens (d := (new D o r url).enqueue p) rfl with
    ⟨m, hm, hopens⟩ | ⟨m, hm, hfails⟩
  · rw [hm] at hflush
    exact ⟨_, _, hflush, Or.inl ⟨hopens, rfl⟩⟩
  · rw [hm] at hflush
    exact ⟨_, _, hflush, Or.inr ⟨hfails, rfl⟩⟩

theorem run_counted (hD : 0 ≤ D) (hfit : InInt (2000 * D)) (o : OutputContext)
    (r : Replacer δ η) (url : String) {ops : List Op} (hops : ∀ p ∈ pushes ops, Timed p) :
    FlushSafe (run fuel (new D o r url) ops) := by
  have hgood : ∀ op ∈ ops, ∀ p, op.pushed = some p → 0 ≤ p.duration :=
    fun op hop p hp => (hops p (List.mem_filterMap.mpr ⟨op, hop, hp⟩)).1
  have hinit : Counted D (new D o r url) := ⟨rfl, rfl, by simp [new]⟩
  have hall : (Machine.run (step fuel) (new D o r url) ops).Sat (Counted D) fun e _ => NoFault e :=
    run_sat (P := fun _ => Counted D) (h := [])
      (fun _ d op hop hd => step_counted hD hfit op hop hd) hgood hinit
  exact hall.imp (fun _ _ => trivial) fun _ _ he => he

/-- For which delays a run computes every threshold within `int` and never
takes the front of an empty queue. -/
theorem flush_safe_iff (fuel : ℕ) (D : Int) (o : OutputContext) (r : Replacer δ η)
    (url : String) {ops : List Op} (hops : ∀ p ∈ pushes ops, Timed p) :
    FlushSafe (run fuel (new D o r url) ops) ↔ pushes ops = [] ∨ SafeDelay D o := by
  rcases run_first_push fuel (d := new D o r url) rfl ops with
    ⟨hnone, hrun⟩ | ⟨p, hp, post, hrun⟩
  · rw [hrun]
    exact ⟨fun _ => Or.inl hnone, fun _ => trivial⟩
  · have hsome : pushes ops ≠ [] := List.ne_nil_of_mem hp
    by_cases hfit : InInt (2000 * D)
    · by_cases hD : 0 ≤ D
      · exact ⟨fun _ => Or.inr ⟨hfit, Or.inl hD⟩, fun _ => run_counted hD hfit o r url hops⟩
      · obtain ⟨e, m, hflush, hcases⟩ :=
          flush_negative o r url (by omega) hfit (hops p hp)
        rw [hflush] at hrun
        rw [hrun]
        rcases hcases with ⟨hopens, rfl⟩ | ⟨hfails, rfl⟩
        · constructor
          · intro hsafe
            exact absurd rfl hsafe.2
          · intro hsafe
            rcases hsafe with hnil | ⟨_, hle | hnot⟩
            · exact absurd hnil hsome
            · exact absurd hle hD
            · exact absurd hopens hnot
        · exact ⟨fun _ => Or.inr ⟨hfit, Or.inr hfails⟩, fun _ => ⟨by simp, by simp⟩⟩
    · obtain ⟨m, hflush⟩ := flush_overflow (d := new D o r url) (p := p) hfit
      rw [hflush] at hrun
      rw [hrun]
      constructor
      · intro hsafe
        exact absurd rfl hsafe.1
      · intro hsafe
        rcases hsafe with hnil | hdelay
        · exact absurd hnil hsome
        · exact absurd hdelay.1 hfit

theorem flush_safe_iff_sample :
    FlushSafe (run 0 (new 15 sampleOutput sampleReplacer "b")
      [.pushAudioFrame (samplePacket 1 0 23)]) ↔
      pushes [.pushAudioFrame (samplePacket 1 0 23)] = [] ∨ SafeDelay 15 sampleOutput :=
  flush_safe_iff 0 15 sampleOutput sampleReplacer "b" (by decide)

theorem flush_unsafe_delays :
    (∃ g m, parseArgv ["--in", "a", "--out", "b", "--delay", "-1"] = some g ∧
      run 0 (new (settings g).delaySec sampleOutput sampleReplacer g.outUrl)
        [.pushAudioFrame (samplePacket 1 0 23)] = .halt .emptyFront m) ∧
      ∃ g m, parseArgv ["--in", "a", "--out", "b", "--delay", "1073742"] = some g ∧
        run 0 (new (settings g).delaySec sampleOutput sampleReplacer g.outUrl)
          [.pushAudioFrame (samplePacket 1 0 23)] = .halt .intOverflow m :=
  ⟨⟨_, _, rfl, rfl⟩, _, _, rfl, rfl⟩

end RtmpRelay.Delayer
