import RtmpRelay.Delayer

/-!
# The history of a packet

A run keeps the packets it was given, in push order: the written ones followed
by the queue are the pushed packets, each as it was pushed or replaced by a
muted packet with the same timing. A packet is muted at the end of a run
exactly when some replacement of the run reached it in the queue and ran
through; no call ever takes the muting back.
-/

namespace RtmpRelay

open Machine Media

theorem forall₂_getElem? {α β : Type*} {R : α → β → Prop} {l : List α} {l' : List β}
    (h : List.Forall₂ R l l') (i : ℕ) :
    (l[i]? = none ∧ l'[i]? = none) ∨ ∃ a b, l[i]? = some a ∧ l'[i]? = some b ∧ R a b := by
  by_cases hi : i < l.length
  · have hi' : i < l'.length := h.length_eq ▸ hi
    exact Or.inr ⟨l[i], l'[i], List.getElem?_eq_getElem hi, List.getElem?_eq_getElem hi',
      h.get hi hi'⟩
  · have hi' : ¬ i < l'.length := h.length_eq ▸ hi
    exact Or.inl ⟨List.getElem?_eq_none (not_lt.mp hi), List.getElem?_eq_none (not_lt.mp hi')⟩

namespace Delayer
variable {δ : Decoder} {η : Encoder} {fuel : ℕ} {d d' : Delayer δ η}

theorem step_ok {op : Op} (h : step fuel d op = .ok d') :
    (∃ p : DemuxedPacket, op.pushed = some p.val ∧ op.isReplace = false ∧ Pushed d p.val d') ∨
      ∃ start stop qs r', op = .replaceAudioPacket start stop ∧
        replaceLoop fuel start stop d.avPacket d.replacer = .ok (qs, r') ∧
        d' = { d with avPacket := qs.map Prod.fst, replacer := r' } := by
  cases op with
  | pushVideoFrame p => exact Or.inl ⟨p, rfl, rfl, flush_pushed h⟩
  | pushAudioFrame p => exact Or.inl ⟨p, rfl, rfl, flush_pushed h⟩
  | replaceAudioPacket start stop =>
    obtain ⟨qs, r', hloop, heq⟩ := replaceAudioPacket_ok h
    exact Or.inr ⟨start, stop, qs, r', rfl, hloop, heq⟩

theorem pushes_append (as bs : List Op) : pushes (as ++ bs) = pushes as ++ pushes bs :=
  List.filterMap_append

theorem pushes_snoc (ops : List Op) (op : Op) :
    pushes (ops ++ [op]) = pushes ops ++ op.pushed.toList := by
  rw [pushes_append]
  cases hop : op.pushed with
  | none => simp [pushes, hop]
  | some p => simp [pushes, hop]

theorem pushes_concat {ops : List Op} {op : Op} {p : AVPacket} (hp : op.pushed = some p) :
    pushes (ops ++ [op]) = pushes ops ++ [p] := by
  rw [pushes_snoc, hp]
  rfl

theorem pushes_concat_replace (ops : List Op) (start stop : Int) :
    pushes (ops ++ [.replaceAudioPacket start stop]) = pushes ops := by
  rw [pushes_snoc]
  exact List.append_nil (pushes ops)

/-! Nothing but the codec contexts, the queue, the counter and the output changes. -/

theorem step_fixed {op : Op} (h : step fuel d op = .ok d') :
    d'.deleySec = d.deleySec ∧ d'.replacer.getAudioIndex = d.replacer.getAudioIndex ∧
      d.written.length ≤ d'.written.length := by
  rcases step_ok h with ⟨p, _, _, hpush⟩ | ⟨start, stop, qs, r', _, hloop, rfl⟩
  · exact ⟨hpush.deleySec_eq, by rw [hpush.replacer_eq], hpush.written_le⟩
  · exact ⟨rfl, (replaceLoop_ok hloop).1, le_rfl⟩

theorem run_fixed {ops : List Op} (h : run fuel d ops = .ok d') :
    d'.deleySec = d.deleySec ∧ d'.replacer.getAudioIndex = d.replacer.getAudioIndex ∧
      d.written.length ≤ d'.written.length := by
  refine run_invariant (P := fun t => t.deleySec = d.deleySec ∧
    t.replacer.getAudioIndex = d.replacer.getAudioIndex ∧
    d.written.length ≤ t.written.length) ?_ ⟨rfl, rfl, le_rfl⟩ h
  intro s op t hs hst
  obtain ⟨hd, ha, hw⟩ := step_fixed hst
  exact ⟨hd.trans hs.1, ha.trans hs.2.1, hs.2.2.trans hw⟩

/-! Every pushed packet is kept, in order. -/

def Tracks (ps : List AVPacket) (d : Delayer δ η) : Prop := List.Forall₂ Carries ps d.packets

theorem Replaced.carries {a start stop : Int} {p : AVPacket} {q : AVPacket × Option MuteExit}
    (h : Replaced a start stop p q) : Carries p q.1 := by
  simp only [Replaced] at h
  split_ifs at h
  · rcases h with ⟨_, hm, ht⟩ | ⟨_, _, _, hq⟩
    · exact ⟨ht, Or.inr hm⟩
    · rw [hq]
      exact Carries.refl p
  · rw [h.1]
    exact Carries.refl p

theorem replaceLoop_carries {start stop : Int} {ps : List AVPacket} {r r' : Replacer δ η}
    {qs : List (AVPacket × Option MuteExit)}
    (h : replaceLoop fuel start stop ps r = .ok (qs, r')) :
    List.Forall₂ Carries ps (qs.map Prod.fst) := by
  rw [List.forall₂_map_right_iff]
  exact (replaceLoop_ok h).2.imp fun _ _ => Replaced.carries

theorem Tracks.refl (d : Delayer δ η) : Tracks d.packets d := Carries.refl_list d.packets

theorem Tracks.step {ps : List AVPacket} (ht : Tracks ps d) {op : Op}
    (h : step fuel d op = .ok d') : Tracks (ps ++ op.pushed.toList) d' := by
  rcases step_ok h with ⟨p, hp, _, hpush⟩ | ⟨start, stop, qs, r', rfl, hloop, rfl⟩
  · rw [Tracks, hp, hpush.packets_eq]
    exact List.rel_append ht (Carries.refl_list [p.val])
  · have hqueue := replaceLoop_carries hloop
    have hstay := List.rel_append (Carries.refl_list d.written) hqueue
    have hall := Carries.trans_list ht hstay
    rwa [← List.append_nil ps] at hall

theorem tracks_new {D : Int} {o : OutputContext} {r : Replacer δ η} {url : String}
    (ho : o.calls = []) : Tracks [] (new D o r url) := by
  rw [Tracks, packets_new ho]
  exact List.Forall₂.nil

theorem Tracks.run {ps : List AVPacket} (ht : Tracks ps d) {ops : List Op}
    (h : run fuel d ops = .ok d') : Tracks (ps ++ pushes ops) d' := by
  have hzero : Tracks (ps ++ pushes []) d := by simpa [pushes] using ht
  have hall := run_history (P := fun ops t => Tracks (ps ++ pushes ops) t) (h := []) ?_ hzero h
  · simpa using hall
  · intro ops s op t hs hst
    rw [pushes_snoc, ← List.append_assoc]
    exact hs.step hst

theorem run_tracks {D : Int} {o : OutputContext} {r : Replacer δ η} {url : String}
    (ho : o.calls = []) {ops : List Op} (h : run fuel (new D o r url) ops = .ok d) :
    Tracks (pushes ops) d :=
  (tracks_new ho).run h

theorem run_packets_length {ops : List Op} (h : run fuel d ops = .ok d') :
    d'.packets.length = d.packets.length + (pushes ops).length := by
  rw [← ((Tracks.refl d).run h).length_eq, List.length_append]

theorem run_queue_ne {ops : List Op} (h : run fuel d ops = .ok d') (hne : pushes ops ≠ []) :
    d'.avPacket ≠ [] := by
  have hall := run_history (P := fun ops t => pushes ops ≠ [] → t.avPacket ≠ []) (h := []) ?_
    (fun hnil => absurd rfl hnil) h
  · exact hall hne
  · intro ops s op t hs hst
    rcases step_ok hst with ⟨p, _, _, hpush⟩ | ⟨start, stop, qs, r', rfl, hloop, rfl⟩
    · exact fun _ => hpush.queue_ne
    · rw [pushes_concat_replace]
      intro hpushed hnil
      have hlen := (replaceLoop_ok hloop).2.length_eq
      have hqs : qs = [] := List.map_eq_nil_iff.mp hnil
      rw [hqs, List.length_nil] at hlen
      exact hs hpushed (List.length_eq_zero_iff.mp hlen)

/-! What a run does to one payload. -/

def MutedAt (i : ℕ) (d : Delayer δ η) : Prop :=
  ∃ q, d.packets[i]? = some q ∧ q.data.isMuted = true

/-- A replacement reaches the `i`-th packet in the queue and runs through. -/
def MutesAt (fuel i : ℕ) (d : Delayer δ η) : Op → Prop
  | .replaceAudioPacket start stop => d.written.length ≤ i ∧
      (d.exits fuel start stop)[i - d.written.length]? = some (some .muted)
  | _ => False

theorem MutesAt.lt_packets {start stop : Int} {i : ℕ}
    (h : MutesAt fuel i d (.replaceAudioPacket start stop)) : i < d.packets.length := by
  obtain ⟨hi, hx⟩ := h
  have hlt := (List.getElem?_eq_some_iff.mp hx).1
  have hle := exits_length_le fuel d start stop
  rw [packets_length]
  omega

theorem Pushed.mutedAt {p : DemuxedPacket} (h : Pushed d p.val d') (i : ℕ) :
    MutedAt i d' ↔ MutedAt i d := by
  simp only [MutedAt]
  rw [h.packets_eq]
  rcases lt_trichotomy i d.packets.length with hi | rfl | hi
  · rw [List.getElem?_append_left hi]
  · simp [p.property]
  · have hnone : (d.packets ++ [p.val])[i]? = none := by
      rw [List.getElem?_eq_none_iff, List.length_append, List.length_singleton]
      omega
    rw [hnone, List.getElem?_eq_none (by omega)]

theorem replace_mutedAt {start stop : Int} {qs : List (AVPacket × Option MuteExit)}
    {r' : Replacer δ η}
    (hloop : replaceLoop fuel start stop d.avPacket d.replacer = .ok (qs, r')) (i : ℕ) :
    MutedAt i { d with avPacket := qs.map Prod.fst, replacer := r' } ↔
      MutedAt i d ∨ MutesAt fuel i d (.replaceAudioPacket start stop) := by
  rw [MutesAt, exits_eq hloop]
  change (∃ q, (d.written ++ qs.map Prod.fst)[i]? = some q ∧ q.data.isMuted = true) ↔
    (∃ q, (d.written ++ d.avPacket)[i]? = some q ∧ q.data.isMuted = true) ∨ _
  by_cases hi : i < d.written.length
  · have hni : ¬ d.written.length ≤ i := not_le.mpr hi
    rw [List.getElem?_append_left hi, List.getElem?_append_left hi]
    simp [hni]
  · have hle : d.written.length ≤ i := not_lt.mp hi
    rw [List.getElem?_append_right hle, List.getElem?_append_right hle, List.getElem?_map,
      List.getElem?_map]
    rcases forall₂_getElem? (replaceLoop_ok hloop).2 (i - d.written.length) with
      ⟨hp, hq⟩ | ⟨p, q, hp, hq, hrep⟩
    · simp [hp, hq]
    · simp only [Replaced] at hrep
      split_ifs at hrep
      · rcases hrep with ⟨hx, hm, _⟩ | ⟨x, hne, hx, hout⟩
        · simp [hp, hq, hx, hm, hle]
        · simp [hp, hq, hx, hout, hne]
      · simp [hp, hq, hrep.1, hrep.2]

theorem step_mutedAt (i : ℕ) {op : Op} (h : step fuel d op = .ok d') :
    MutedAt i d' ↔ MutedAt i d ∨ MutesAt fuel i d op := by
  rcases step_ok h with ⟨p, hp, hno, hpush⟩ | ⟨start, stop, qs, r', rfl, hloop, rfl⟩
  · have hmutes : ¬ MutesAt fuel i d op := by
      cases op with
      | pushVideoFrame q => exact id
      | pushAudioFrame q => exact id
      | replaceAudioPacket start stop => simp [Op.isReplace] at hno
    simp [hpush.mutedAt i, hmutes]
  · exact replace_mutedAt hloop i

/-! A halted call has taken no packet away either. -/

theorem outputCall_packets (d : Delayer δ η) {c : OutputCall} (hc : c.frame = none) :
    (d.outputCall c).packets = d.packets :=
  congrArg (· ++ d.avPacket) (d.outputCall_eq hc)

theorem handshake_state (d : Delayer δ η) : d.handshake.state.packets = d.packets := by
  have hheader : ∀ d : Delayer δ η, d.writeHeader.state.packets = d.packets := by
    intro d
    simp only [writeHeader]
    split_ifs
    · exact d.outputCall_packets rfl
    · exact d.outputCall_packets rfl
  simp only [handshake]
  split_ifs
  · rfl
  · exact hheader d
  · exact d.outputCall_packets rfl
  · exact (hheader _).trans (d.outputCall_packets rfl)

theorem flushLoop_state {limit : Int} {q : List AVPacket} {d : Delayer δ η}
    (hq : d.avPacket = q) : (flushLoop limit q d).state.packets = d.packets := by
  induction q generalizing d with
  | nil => rfl
  | cons p rest ih =>
    rw [flushLoop]
    split_ifs
    · have hhand := handshake_state d
      cases hm : d.handshake with
      | halt e m => rwa [hm] at hhand
      | ok m =>
        obtain ⟨hw, _⟩ := handshake_ok hm
        rw [Outcome.bind_ok, ih rfl, packets, popFront_written, hw, packets, hq, List.append_assoc]
        rfl
    · rfl

theorem flush_state (d : Delayer δ η) : d.flush.state.packets = d.packets := by
  simp only [flush]
  split
  · rfl
  · split_ifs
    · exact flushLoop_state rfl
    · rfl

theorem step_state_mutedAt {i : ℕ} (h : MutedAt i d) (op : Op) :
    MutedAt i (step fuel d op).state := by
  cases hst : step fuel d op with
  | ok t => exact (step_mutedAt i hst).mpr (Or.inl h)
  | halt e t =>
    obtain ⟨q, hq, hmuted⟩ := h
    have hlt : i < d.packets.length := (List.getElem?_eq_some_iff.mp hq).1
    cases hop : op.pushed with
    | some p =>
      have hkeep := flush_state (d.enqueue p)
      rw [← step_push hop, hst, enqueue_packets] at hkeep
      refine ⟨q, ?_, hmuted⟩
      rw [hkeep, List.getElem?_append_left hlt, hq]
    | none =>
      cases op with
      | replaceAudioPacket start stop =>
        rw [step, replaceAudioPacket] at hst
        split at hst <;> cases hst
        exact ⟨q, hq, hmuted⟩
      | pushVideoFrame p => cases hop
      | pushAudioFrame p => cases hop

theorem run_state_mutedAt {i : ℕ} (h : MutedAt i d) (ops : List Op) :
    MutedAt i (run fuel d ops).state :=
  run_state (P := MutedAt i) (fun _ op hs => step_state_mutedAt hs op) h

theorem run_mutedAt (i : ℕ) {ops : List Op} (h : run fuel d ops = .ok d') :
    MutedAt i d' ↔ MutedAt i d ∨ ∃ pre op post m,
      ops = pre ++ op :: post ∧ run fuel d pre = .ok m ∧ MutesAt fuel i m op :=
  run_latch (fun _ _ _ hst => step_mutedAt i hst) h

/-- Every codec call made by `replaceAudioPacket` succeeds. -/
def Succeeds (fuel : ℕ) (d : Delayer δ η) (start stop : Int) : Prop :=
  ∀ x, some x ∈ d.exits fuel start stop → x = .muted

instance (fuel : ℕ) (d : Delayer δ η) (start stop : Int) :
    Decidable (Succeeds fuel d start stop) :=
  decidable_of_iff (∀ y ∈ d.exits fuel start stop, ∀ x ∈ y, x = MuteExit.muted)
    ⟨fun h x hx => h (some x) hx x rfl, fun h _ hy x hx => h x (Option.mem_def.mp hx ▸ hy)⟩

theorem mutesAt_iff {start stop : Int} {qs : List (AVPacket × Option MuteExit)}
    {r' : Replacer δ η}
    (hloop : replaceLoop fuel start stop d.avPacket d.replacer = .ok (qs, r'))
    (hsucc : Succeeds fuel d start stop) {ps : List AVPacket} (htracks : Tracks ps d) {i : ℕ}
    {p : AVPacket} (hp : ps[i]? = some p) :
    MutesAt fuel i d (.replaceAudioPacket start stop) ↔
      d.written.length ≤ i ∧ InWindow d.replacer.getAudioIndex start stop p := by
  rw [MutesAt]
  apply and_congr_right
  intro hi
  rw [Succeeds, exits_eq hloop] at hsucc
  rw [exits_eq hloop, List.getElem?_map]
  rcases forall₂_getElem? htracks i with ⟨hnone, _⟩ | ⟨p', q, hp', hq, hc⟩
  · rw [hnone] at hp
    simp at hp
  · cases hp.symm.trans hp'
    rw [packets, List.getElem?_append_right hi] at hq
    have hwin : InWindow d.replacer.getAudioIndex start stop q ↔
        InWindow d.replacer.getAudioIndex start stop p := by
      rw [InWindow, InWindow, hc.streamIndex, hc.pts]
    rw [← hwin]
    rcases forall₂_getElem? (replaceLoop_ok hloop).2 (i - d.written.length) with
      ⟨hnone, _⟩ | ⟨q', out, hq', hout, hrep⟩
    · rw [hnone] at hq
      simp at hq
    · cases hq.symm.trans hq'
      rw [hout, Option.map_some, Option.some.injEq]
      simp only [Replaced] at hrep
      split_ifs at hrep with hin
      · rcases hrep with ⟨hx, _, _⟩ | ⟨x, hne, hx, _⟩
        · simp [hx, hin]
        · exact absurd (hsucc x (hx ▸ List.mem_map_of_mem (List.mem_of_getElem? hout))) hne
      · simp [hrep.2, hin]

theorem written_getElem? {i : ℕ} {q : AVPacket} (h : d.written[i]? = some q) :
    d.packets[i]? = some q := by
  have hi : i < d.written.length := (List.getElem?_eq_some_iff.mp h).1
  rw [packets, List.getElem?_append_left hi]
  exact h

theorem Tracks.getElem? {ps : List AVPacket} (h : Tracks ps d) {i : ℕ} {p q : AVPacket}
    (hp : ps[i]? = some p) (hq : d.packets[i]? = some q) : Carries p q := by
  rcases forall₂_getElem? h i with ⟨hnone, _⟩ | ⟨p', q', hp', hq', hc⟩
  · rw [hnone] at hp
    simp at hp
  · cases hp.symm.trans hp'
    cases hq.symm.trans hq'
    exact hc

end Delayer

end RtmpRelay
