import RtmpRelay.CodecLoops
import RtmpRelay.CriticalSections
import RtmpRelay.PacketHistory

/-!
# The delay queue under its mutex

The read loop pushes while the callback threads mute. Here the three locked
calls are cut into their accesses to the queue, the counter, the output and
the replacer, and any thread may run between two accesses. The calls come out
as if each had been made whole, so that the runs of the other modules are all
there are. A push always gives the mutex back, and a mute does so exactly if
the codecs are ready for every packet it still has to mute.
-/

namespace RtmpRelay

open Machine Media

namespace Delayer
variable {δ : Decoder} {η : Encoder}

inductive Place
  | pushBack (pkt : AVPacket)
  | addDuration (pkt : AVPacket)
  | flush
  | front (limit : Int)
  | avioOpen (limit : Int) (p : AVPacket)
  | writeHeader (limit : Int) (p : AVPacket)
  | handshakeDone (limit : Int) (p : AVPacket)
  | popFront (limit : Int) (p : AVPacket)
  | subDuration (limit : Int) (p : AVPacket)
  | writeFrame (limit : Int) (p : AVPacket)
  | replace (start stop : Int) (i : ℕ)

def Place.enter : Op → Place
  | .pushVideoFrame p => .pushBack p.val
  | .pushAudioFrame p => .pushBack p.val
  | .replaceAudioPacket start stop => .replace start stop 0

def access (fuel : ℕ) (k : Place) (d : Delayer δ η) :
    CriticalSections.Access Halt (Delayer δ η) Place :=
  match k with
  | .pushBack pkt => .next { d with avPacket := d.avPacket ++ [pkt] } (.addDuration pkt)
  | .addDuration pkt => .next (d.setTotal (d.totalDeleyMs + pkt.duration)) .flush
  | .flush =>
    match d.delayLimit with
    | none => .halt .intOverflow d
    | some limit => if d.totalDeleyMs > limit then .next d (.front limit) else .leave d
  | .front limit =>
    match d.avPacket with
    | [] => .halt .emptyFront d
    | p :: _ =>
      if d.totalDeleyMs - p.duration > limit then .next d (.avioOpen limit p) else .leave d
  | .avioOpen limit p =>
    if d.handshakeDone then .next d (.popFront limit p)
    else if d.outputFormatContext.noFile then .next d (.writeHeader limit p)
    else if d.outputFormatContext.avioOpenRet < 0 then
      .halt .exit (d.outputCall (.avioOpen d.outUrl))
    else .next (d.outputCall (.avioOpen d.outUrl)) (.writeHeader limit p)
  | .writeHeader limit p =>
    if d.outputFormatContext.writeHeaderRet < 0 then .halt .exit (d.outputCall .avformatWriteHeader)
    else .next (d.outputCall .avformatWriteHeader) (.handshakeDone limit p)
  | .handshakeDone limit p => .next { d with handshakeDone := true } (.popFront limit p)
  | .popFront limit p => .next { d with avPacket := d.avPacket.tail } (.subDuration limit p)
  | .subDuration limit p => .next (d.setTotal (d.totalDeleyMs - p.duration)) (.writeFrame limit p)
  | .writeFrame limit p => .next (d.outputCall (.avInterleavedWriteFrame p)) (.front limit)
  | .replace start stop i =>
    match d.avPacket[i]? with
    | none => .leave d
    | some p =>
      if InWindow d.replacer.getAudioIndex start stop p then
        match d.replacer.replaceAudioToMute fuel p with
        | .error e => .halt e d
        | .ok (out, _, r) =>
          .next { d with avPacket := d.avPacket.set i out, replacer := r }
            (.replace start stop (i + 1))
      else .next d (.replace start stop (i + 1))

def code (fuel : ℕ) : CriticalSections.Code Halt (Delayer δ η) Op Place where
  enter := Place.enter
  access := access fuel

section ends
variable {fuel : ℕ} {d : Delayer δ η}

open CriticalSections

theorem header_ends {limit : Int} {p : AVPacket} {f : Delayer δ η → Outcome Halt (Delayer δ η)}
    (h : ∀ d', d'.avPacket = d.avPacket → Ends (code fuel) (.popFront limit p) d' (f d')) :
    Ends (code fuel) (.writeHeader limit p) d (d.writeHeader.bind f) := by
  by_cases hr : d.outputFormatContext.writeHeaderRet < 0
  · rw [Delayer.writeHeader, if_pos hr]
    exact .halt (if_pos hr)
  · rw [Delayer.writeHeader, if_neg hr]
    exact .next (if_neg hr) (.next rfl (h _ rfl))

theorem handshake_ends {limit : Int} {p : AVPacket} {f : Delayer δ η → Outcome Halt (Delayer δ η)}
    (h : ∀ d', d'.avPacket = d.avPacket → Ends (code fuel) (.popFront limit p) d' (f d')) :
    Ends (code fuel) (.avioOpen limit p) d (d.handshake.bind f) := by
  by_cases hdone : d.handshakeDone = true
  · rw [handshake, if_pos hdone]
    exact .next (if_pos hdone) (h d rfl)
  · rw [handshake, if_neg hdone]
    by_cases hfile : d.outputFormatContext.noFile = true
    · have ha : (code fuel).access (.avioOpen limit p) d = .next d (.writeHeader limit p) :=
        (if_neg hdone).trans (if_pos hfile)
      rw [if_pos hfile]
      exact .next ha (header_ends h)
    · rw [if_neg hfile]
      by_cases ho : d.outputFormatContext.avioOpenRet < 0
      · have ha : (code fuel).access (.avioOpen limit p) d =
            .halt .exit (d.outputCall (.avioOpen d.outUrl)) :=
          (if_neg hdone).trans ((if_neg hfile).trans (if_pos ho))
        rw [if_pos ho]
        exact .halt ha
      · have ha : (code fuel).access (.avioOpen limit p) d =
            .next (d.outputCall (.avioOpen d.outUrl)) (.writeHeader limit p) :=
          (if_neg hdone).trans ((if_neg hfile).trans (if_neg ho))
        rw [if_neg ho]
        exact .next ha (header_ends h)

theorem flushLoop_ends {limit : Int} {q : List AVPacket} (hq : d.avPacket = q) :
    Ends (code fuel) (.front limit) d (flushLoop limit q d) := by
  induction q generalizing d with
  | nil =>
    have ha : (code fuel).access (.front limit) d = .halt .emptyFront d := by
      show access fuel (.front limit) d = _
      rw [access, hq]
    exact .halt ha
  | cons p rest ih =>
    have ha : (code fuel).access (.front limit) d =
        if d.totalDeleyMs - p.duration > limit then .next d (.avioOpen limit p) else .leave d := by
      show access fuel (.front limit) d = _
      rw [access, hq]
    rw [flushLoop]
    by_cases ht : d.totalDeleyMs - p.duration > limit
    · rw [if_pos ht] at ha ⊢
      refine .next ha (handshake_ends fun d' hd' => ?_)
      have htail : { d' with avPacket := d'.avPacket.tail } = { d' with avPacket := rest } := by
        rw [hd', hq]
        rfl
      have hpop : (code fuel).access (.popFront limit p) d' =
          .next { d' with avPacket := rest } (.subDuration limit p) :=
        congrArg (fun m => Access.next m (Place.subDuration limit p)) htail
      exact .next hpop (.next rfl (.next rfl (ih rfl)))
    · rw [if_neg ht] at ha ⊢
      exact .leave ha

theorem flush_ends : Ends (code fuel) .flush d d.flush := by
  rw [flush]
  cases hlim : d.delayLimit with
  | none =>
    have ha : (code fuel).access .flush d = .halt .intOverflow d := by
      show access fuel .flush d = _
      rw [access, hlim]
    exact .halt ha
  | some limit =>
    have ha : (code fuel).access .flush d =
        if d.totalDeleyMs > limit then .next d (.front limit) else .leave d := by
      show access fuel .flush d = _
      rw [access, hlim]
    dsimp only
    by_cases ht : d.totalDeleyMs > limit
    · rw [if_pos ht] at ha ⊢
      exact .next ha (flushLoop_ends rfl)
    · rw [if_neg ht] at ha ⊢
      exact .leave ha

theorem push_ends (d : Delayer δ η) (p : AVPacket) :
    Ends (code fuel) (.pushBack p) d (d.enqueue p).flush :=
  .next rfl (.next rfl flush_ends)

/-- What the loop of `replaceAudioPacket` comes to from a packet on. -/
structure Looped (fuel : ℕ) (start stop : Int) (done rest : List AVPacket) (d : Delayer δ η)
    (o : Outcome Halt (Delayer δ η)) : Prop where
  error : ∀ e, replaceLoop fuel start stop rest d.replacer = .error e →
    ∃ d', o = .halt e d' ∧ d'.outputFormatContext = d.outputFormatContext
  ok : ∀ qs r, replaceLoop fuel start stop rest d.replacer = .ok (qs, r) →
    o = .ok { d with avPacket := done ++ qs.map Prod.fst, replacer := r }

theorem Looped.cons {start stop : Int} {done rest : List AVPacket} {p : AVPacket}
    {q : AVPacket × Option MuteExit} {queue : List AVPacket} {r : Replacer δ η}
    {o : Outcome Halt (Delayer δ η)} (hturn : Turn fuel start stop p d.replacer q r)
    (h : Looped fuel start stop (done ++ [q.1]) rest
      { d with avPacket := queue, replacer := r } o) :
    Looped fuel start stop done (p :: rest) d o := by
  refine ⟨fun e he => ?_, fun qs r' hok => ?_⟩
  · rw [hturn.loop] at he
    cases hrest : replaceLoop fuel start stop rest r with
    | error e' =>
      rw [hrest] at he
      cases he
      exact h.error e hrest
    | ok y =>
      rw [hrest] at he
      cases he
  · rw [hturn.loop] at hok
    cases hrest : replaceLoop fuel start stop rest r with
    | error e' =>
      rw [hrest] at hok
      cases hok
    | ok y =>
      rw [hrest] at hok
      cases hok
      rw [h.ok y.1 y.2 hrest, List.append_assoc]
      rfl

theorem replace_ends {start stop : Int} {done rest : List AVPacket} {i : ℕ}
    (hq : d.avPacket = done ++ rest) (hi : i = done.length) :
    ∃ o, Ends (code fuel) (.replace start stop i) d o ∧ Looped fuel start stop done rest d o := by
  induction rest generalizing d done i with
  | nil =>
    have hget : d.avPacket[i]? = none := by
      rw [hq, List.append_nil, hi, List.getElem?_eq_none le_rfl]
    have ha : (code fuel).access (.replace start stop i) d = .leave d := by
      show access fuel (.replace start stop i) d = _
      rw [access, hget]
    refine ⟨.ok d, .leave ha, fun e he => (by cases he), fun qs r hok => ?_⟩
    cases hok
    rw [List.map_nil, ← hq]
  | cons p rest ih =>
    have hget : d.avPacket[i]? = some p := by
      rw [hq, hi, List.getElem?_append_right le_rfl, Nat.sub_self]
      rfl
    have hnext : (done ++ [p]).length = i + 1 := by
      rw [List.length_append, hi]
      rfl
    by_cases hin : InWindow d.replacer.getAudioIndex start stop p
    · cases hm : d.replacer.replaceAudioToMute fuel p with
      | error e =>
        have ha : (code fuel).access (.replace start stop i) d = .halt e d := by
          show access fuel (.replace start stop i) d = _
          rw [access, hget]
          dsimp only
          rw [if_pos hin, hm]
        have hloop : replaceLoop fuel start stop (p :: rest) d.replacer = .error e := by
          rw [replaceLoop, if_pos hin, hm]
        refine ⟨.halt e d, .halt ha, fun e' he => ?_, fun qs r hok => ?_⟩
        · cases hloop.symm.trans he
          exact ⟨d, rfl, rfl⟩
        · cases hloop.symm.trans hok
      | ok y =>
        have ha : (code fuel).access (.replace start stop i) d =
            .next { d with avPacket := d.avPacket.set i y.1, replacer := y.2.2 }
              (.replace start stop (i + 1)) := by
          show access fuel (.replace start stop i) d = _
          rw [access, hget]
          dsimp only
          rw [if_pos hin, hm]
        have hset : d.avPacket.set i y.1 = (done ++ [y.1]) ++ rest := by
          rw [hq, hi, List.set_append_right _ _ le_rfl, Nat.sub_self, List.append_assoc]
          rfl
        have hlen : (done ++ [y.1]).length = i + 1 := by
          rw [List.length_append, hi]
          rfl
        obtain ⟨o, hends, hlooped⟩ := ih
          (d := { d with avPacket := d.avPacket.set i y.1, replacer := y.2.2 }) hset hlen.symm
        exact ⟨o, .next ha hends, hlooped.cons (.inside hin hm)⟩
    · have ha : (code fuel).access (.replace start stop i) d =
          .next d (.replace start stop (i + 1)) := by
        show access fuel (.replace start stop i) d = _
        rw [access, hget]
        exact if_neg hin
      have hq' : d.avPacket = (done ++ [p]) ++ rest := by
        rw [hq, List.append_assoc]
        rfl
      obtain ⟨o, hends, hlooped⟩ := ih hq' hnext.symm
      exact ⟨o, .next ha hends, Looped.cons (.outside hin) hlooped⟩

/-- The accesses of a call made alone are the call, up to the queue it leaves when it halts. -/
theorem code_carries : Carries (code fuel) (outputFormatContext (δ := δ) (η := η)) (step fuel) := by
  intro op d
  cases op with
  | pushVideoFrame p => exact ⟨_, push_ends d p.val, Same.refl _ _⟩
  | pushAudioFrame p => exact ⟨_, push_ends d p.val, Same.refl _ _⟩
  | replaceAudioPacket start stop =>
    obtain ⟨o, hends, hlooped⟩ : ∃ o, Ends (code fuel) (.replace start stop 0) d o ∧
        Looped fuel start stop [] d.avPacket d o := replace_ends rfl rfl
    refine ⟨o, hends, ?_⟩
    show Same _ o (d.replaceAudioPacket fuel start stop)
    rw [replaceAudioPacket]
    cases hloop : replaceLoop fuel start stop d.avPacket d.replacer with
    | error e =>
      obtain ⟨d', rfl, hd'⟩ := hlooped.error e hloop
      exact ⟨rfl, hd'⟩
    | ok y =>
      rw [hlooped.ok y.1 y.2 hloop]
      exact rfl

/-! Which calls come to an end. -/

def Place.IsReplace : Place → Prop
  | .replace _ _ _ => True
  | _ => False

def Plain : Access Halt (Delayer δ η) Place → Prop
  | .next _ k => ¬ k.IsReplace
  | .leave _ => True
  | .halt e _ => ¬ Stuck e

theorem access_plain {k : Place} (hk : ¬ k.IsReplace) (d : Delayer δ η) :
    Plain (access fuel k d) := by
  cases k with
  | pushBack pkt => exact id
  | addDuration pkt => exact id
  | flush =>
    rw [access]
    split
    · exact nofun
    · split
      · exact id
      · trivial
  | front limit =>
    rw [access]
    split
    · exact nofun
    · split
      · exact id
      · trivial
  | avioOpen limit p =>
    rw [access]
    split
    · exact id
    · split
      · exact id
      · split
        · exact nofun
        · exact id
  | writeHeader limit p =>
    rw [access]
    split
    · exact nofun
    · exact id
  | handshakeDone limit p => exact id
  | popFront limit p => exact id
  | subDuration limit p => exact id
  | writeFrame limit p => exact id
  | replace start stop i => exact absurd trivial hk

theorem ends_plain {k : Place} {o : Outcome Halt (Delayer δ η)} (h : Ends (code fuel) k d o)
    (hk : ¬ k.IsReplace) : Ended Stuck o := by
  induction h with
  | @next k k' s s' o ha _ ih =>
    have hplain : Plain (access fuel _ s) := access_plain hk s
    rw [show access fuel k s = _ from ha] at hplain
    exact ih hplain
  | leave => trivial
  | @halt k s s' e ha =>
    have hplain : Plain (access fuel _ s) := access_plain hk s
    rw [show access fuel k s = _ from ha] at hplain
    exact hplain

theorem plain_ends {k : Place} (hk : ¬ k.IsReplace) (d : Delayer δ η) :
    ∃ o, Ends (code fuel) k d o := by
  have hwrite : ∀ limit p (d : Delayer δ η), ∃ o, Ends (code fuel) (.writeFrame limit p) d o :=
    fun _ _ _ => ⟨_, .next rfl (flushLoop_ends rfl)⟩
  have hpop : ∀ limit p (d : Delayer δ η), ∃ o, Ends (code fuel) (.popFront limit p) d o :=
    fun limit p d => by
      obtain ⟨o, ho⟩ := hwrite limit p
        (({ d with avPacket := d.avPacket.tail } : Delayer δ η).setTotal
          (d.totalDeleyMs - p.duration))
      exact ⟨o, .next rfl (.next rfl ho)⟩
  cases k with
  | pushBack pkt => exact ⟨_, push_ends d pkt⟩
  | addDuration pkt => exact ⟨_, .next rfl flush_ends⟩
  | flush => exact ⟨_, flush_ends⟩
  | front limit => exact ⟨_, flushLoop_ends rfl⟩
  | avioOpen limit p =>
    choose f hf using hpop limit p
    exact ⟨_, handshake_ends fun d' _ => hf d'⟩
  | writeHeader limit p =>
    choose f hf using hpop limit p
    exact ⟨_, header_ends fun d' _ => hf d'⟩
  | handshakeDone limit p =>
    obtain ⟨o, ho⟩ := hpop limit p { d with handshakeDone := true }
    exact ⟨o, .next rfl ho⟩
  | popFront limit p => exact hpop limit p d
  | subDuration limit p =>
    obtain ⟨o, ho⟩ := hwrite limit p (d.setTotal (d.totalDeleyMs - p.duration))
    exact ⟨o, .next rfl ho⟩
  | writeFrame limit p => exact hwrite limit p d
  | replace start stop i => exact absurd trivial hk

theorem Looped.ended_iff {start stop : Int} {done rest : List AVPacket}
    {o : Outcome Halt (Delayer δ η)} (h : Looped fuel start stop done rest d o) :
    Ended Stuck o ↔ replaceLoop fuel start stop rest d.replacer ≠ .error .noReturn := by
  cases hloop : replaceLoop fuel start stop rest d.replacer with
  | error e =>
    obtain ⟨d', rfl, -⟩ := h.error e hloop
    constructor
    · intro hne herr
      exact hne (Except.error.inj herr)
    · intro hne hstuck
      exact hne (congrArg Except.error hstuck)
  | ok y =>
    rw [h.ok y.1 y.2 hloop]
    exact ⟨fun _ => nofun, fun _ => trivial⟩

/-- The codecs are ready for every packet that the call still has to mute. -/
def Place.Ready (D : δ.pump.Contract) (E : η.pump.Contract) (d : Delayer δ η) : Place → Prop
  | .replace start stop i => ∀ pre p post fuel r,
      window d.replacer.getAudioIndex start stop (d.avPacket.drop i) = pre ++ p :: post →
      d.replacer.muteRun fuel pre = .ok r → r.Ready D E p
  | _ => True

theorem replace_ended {start stop : Int} {i : ℕ} (d : Delayer δ η) :
    (∃ o, Ends (code fuel) (.replace start stop i) d o ∧ Ended Stuck o) ↔
      Ended Stuck (d.replacer.muteRun fuel
        (window d.replacer.getAudioIndex start stop (d.avPacket.drop i))) := by
  by_cases hi : i ≤ d.avPacket.length
  · obtain ⟨o, hends, hlooped⟩ :
        ∃ o, Ends (code fuel) (.replace start stop i) d o ∧
          Looped fuel start stop (d.avPacket.take i) (d.avPacket.drop i) d o :=
      replace_ends (List.take_append_drop i d.avPacket).symm (List.length_take_of_le hi).symm
    rw [← replaceLoop_ended, ← hlooped.ended_iff]
    constructor
    · intro h
      obtain ⟨o', hends', hended⟩ := h
      rwa [hends.unique hends']
    · intro h
      exact ⟨o, hends, h⟩
  · have hget : d.avPacket[i]? = none := List.getElem?_eq_none (Nat.le_of_not_le hi)
    have ha : (code fuel).access (.replace start stop i) d = .leave d := by
      show access fuel (.replace start stop i) d = _
      rw [access, hget]
    rw [List.drop_eq_nil_of_le (Nat.le_of_not_le hi)]
    exact ⟨fun _ => trivial, fun _ => ⟨.ok d, .leave ha, trivial⟩⟩

theorem Place.ready_iff (D : δ.pump.Contract) (E : η.pump.Contract) (k : Place)
    (d : Delayer δ η) :
    (∃ fuel o, Ends (code fuel) k d o ∧ Ended Stuck o) ↔ k.Ready D E d := by
  by_cases hk : k.IsReplace
  · cases k with
    | replace start stop i =>
      simp only [replace_ended]
      exact d.replacer.muteRun_ended_iff D E _
    | _ => exact hk.elim
  · obtain ⟨o, ho⟩ : ∃ o, Ends (code 0) k d o := plain_ends hk d
    have hready : k.Ready D E d := by
      cases k with
      | replace start stop i => exact absurd trivial hk
      | _ => trivial
    exact ⟨fun _ => hready, fun _ => ⟨0, o, ho, ends_plain ho hk⟩⟩

theorem code_fuelled : Fuelled Stuck (code (δ := δ) (η := η)) where
  enter _ _ _ := rfl
  access f f' k d hle hne := by
    cases k with
    | replace start stop i =>
      show access f' (.replace start stop i) d = access f (.replace start stop i) d
      replace hne : ∀ e d', access f (.replace start stop i) d = .halt e d' → ¬ Stuck e := hne
      rw [access] at hne ⊢
      rw [access]
      cases hget : d.avPacket[i]? with
      | none => rfl
      | some p =>
        rw [hget] at hne
        dsimp only at hne ⊢
        by_cases hin : InWindow d.replacer.getAudioIndex start stop p
        · rw [if_pos hin] at hne ⊢
          rw [if_pos hin]
          have hends : d.replacer.replaceAudioToMute f p ≠ .error .noReturn := by
            intro hstuck
            rw [hstuck] at hne
            exact hne .noReturn d rfl rfl
          rw [Replacer.replaceAudioToMute_mono hle hends]
        · rw [if_neg hin, if_neg hin]
    | _ => rfl

end ends

section interleavings
variable {T : Type*} [DecidableEq T]

open CriticalSections

theorem code_grows (fuel : ℕ) :
    Grows (code fuel) (outputFormatContext (δ := δ) (η := η)) fun o o' => o.calls <+: o'.calls := by
  intro k d
  have hcall : ∀ c, d.outputFormatContext.calls <+: (d.outputCall c).outputFormatContext.calls :=
    fun c => List.prefix_append _ _
  show d.outputFormatContext.calls <+: (access fuel k d).memory.outputFormatContext.calls
  cases k with
  | pushBack pkt => exact List.prefix_rfl
  | addDuration pkt => exact List.prefix_rfl
  | flush =>
    rw [access]
    split
    · exact List.prefix_rfl
    · split
      · exact List.prefix_rfl
      · exact List.prefix_rfl
  | front limit =>
    rw [access]
    split
    · exact List.prefix_rfl
    · split
      · exact List.prefix_rfl
      · exact List.prefix_rfl
  | avioOpen limit p =>
    rw [access]
    split
    · exact List.prefix_rfl
    · split
      · exact List.prefix_rfl
      · split
        · exact hcall _
        · exact hcall _
  | writeHeader limit p =>
    rw [access]
    split
    · exact hcall _
    · exact hcall _
  | handshakeDone limit p => exact List.prefix_rfl
  | popFront limit p => exact List.prefix_rfl
  | subDuration limit p => exact List.prefix_rfl
  | writeFrame limit p => exact hcall _
  | replace start stop i =>
    rw [access]
    split
    · exact List.prefix_rfl
    · split
      · split
        · exact List.prefix_rfl
        · exact List.prefix_rfl
      · exact List.prefix_rfl

/-- The accesses of any threads, in any order the mutex allows, are serial: at most one thread is
inside a call, each thread's calls take the mutex in its own order, the output has seen a
beginning of what the calls in that order write, and when the mutex is free the delayer is
theirs. -/
theorem locked_calls_serial (fuel : ℕ) (d : Delayer δ η) (calls : T → List Op)
    {c : Config Halt (Delayer δ η) Op Place T} (h : Steps (code fuel) (start d calls) c) :
    (∀ t u, c.inside t ≠ none → c.inside u ≠ none → t = u) ∧
      (∀ t, callsOf t c.log ++ c.todo t = calls t) ∧
      (c.memory.outputFormatContext.calls <+:
        (run fuel d (c.log.map Prod.snd)).state.outputFormatContext.calls) ∧
      (c.halted = none → c.lock = none → run fuel d (c.log.map Prod.snd) = .ok c.memory) ∧
      ∀ e, c.halted = some e → ∃ d', run fuel d (c.log.map Prod.snd) = .halt e d' ∧
        d'.outputFormatContext = c.memory.outputFormatContext := by
  have hserial := serial code_carries h
  refine ⟨fun t u ht hu => ?_, hserial.order, ?_, hserial.free, fun e he => ?_⟩
  · obtain ⟨j, hj⟩ := Option.ne_none_iff_exists'.mp ht
    obtain ⟨k, hk⟩ := Option.ne_none_iff_exists'.mp hu
    exact Option.some.inj ((hserial.alone t j hj).symm.trans (hserial.alone u k hk))
  · exact hserial.behind (code_grows fuel) (fun _ => List.prefix_rfl)
      fun _ _ _ => List.IsPrefix.trans
  · have hsame := hserial.stopped e he
    show ∃ d', Machine.run (step fuel) d _ = _ ∧ _
    cases hrun : Machine.run (step fuel) d (c.log.map Prod.snd) with
    | ok s =>
      rw [hrun] at hsame
      exact hsame.elim
    | halt e' s =>
      rw [hrun] at hsame
      obtain ⟨rfl, hview⟩ := hsame
      exact ⟨s, rfl, hview.symm⟩

def sampleCalls : Bool → List Op
  | true => [.pushAudioFrame (samplePacket 1 0 100)]
  | false => [.replaceAudioPacket 0 50]

theorem locked_calls_serial_sample : ∃ c, Steps (code 4) (start sampleDelayer sampleCalls) c ∧
    c.memory.avPacket = [(samplePacket 1 0 100).val] ∧ c.lock = some true ∧
      callsOf false c.log ++ c.todo false = sampleCalls false := by
  have hentered : Steps (code 4) (start sampleDelayer sampleCalls) _ :=
    .single (.acquire _ (t := true) rfl rfl rfl rfl)
  have hpushed := hentered.tail
    (.next _ (t := true) (k := .pushBack (samplePacket 1 0 100).val) rfl rfl rfl)
  exact ⟨_, hpushed, rfl, rfl, (locked_calls_serial 4 sampleDelayer sampleCalls hpushed).2.1 false⟩

/-- The mutex comes free, or the process ends, exactly if the codecs are ready for every packet the
call that holds it still has to mute; and when it is free every packet that any thread has pushed
is written or queued once, in the order of the pushes, as it was pushed or muted. -/
theorem pushed_once (D : δ.pump.Contract) (E : η.pump.Contract) (fuel : ℕ) {deleySec : Int}
    {o : OutputContext} (ho : o.calls = []) {r : Replacer δ η} {url : String} (calls : T → List Op)
    {c : Config Halt (Delayer δ η) Op Place T}
    (h : Steps (code fuel) (start (new deleySec o r url) calls) c) (hr : c.halted = none) :
    (∀ t k, c.inside t = some k → k.Ready D E c.memory) ↔
      ∃ fuel' c', fuel ≤ fuel' ∧ Steps (code fuel') c c' ∧ c'.log = c.log ∧
        (c'.halted = none ∧ c'.lock = none ∧
            List.Forall₂ Carries (pushes (c.log.map Prod.snd))
              (c'.memory.written ++ c'.memory.avPacket) ∨
          ∃ e, c'.halted = some e ∧ e ≠ .noReturn) := by
  simp only [← Place.ready_iff]
  rw [← freed_iff (fun _ => code_carries) code_fuelled h hr]
  constructor
  · intro hfreed
    obtain ⟨fuel', c', hle, hs, hlog, ⟨hnone, hl⟩ | hended⟩ := hfreed
    · have hall := (code_fuelled.steps hle h fun e he => by cases hr.symm.trans he).trans hs
      have hrun := (serial code_carries hall).free hnone hl
      rw [hlog] at hrun
      exact ⟨fuel', c', hle, hs, hlog, Or.inl ⟨hnone, hl, run_tracks ho hrun⟩⟩
    · exact ⟨fuel', c', hle, hs, hlog, Or.inr hended⟩
  · intro hfree
    obtain ⟨fuel', c', hle, hs, hlog, ⟨hnone, hl, -⟩ | hended⟩ := hfree
    · exact ⟨fuel', c', hle, hs, hlog, Or.inl ⟨hnone, hl⟩⟩
    · exact ⟨fuel', c', hle, hs, hlog, Or.inr hended⟩

theorem pushed_once_sample : ∃ c fuel' c',
    Steps (code 0) (start (new 1 sampleOutput sampleTwoFrame "out") sampleCalls) c ∧
      c.lock = some true ∧ Steps (code fuel') c c' ∧
      (c'.halted = none ∧ c'.lock = none ∧
          List.Forall₂ Carries [(samplePacket 1 0 100).val]
            (c'.memory.written ++ c'.memory.avPacket) ∨
        ∃ e, c'.halted = some e ∧ e ≠ .noReturn) := by
  have hfirst : Step (code 0) (start (new 1 sampleOutput sampleTwoFrame "out") sampleCalls) _ :=
    .acquire _ (t := true) rfl rfl rfl rfl
  have hiff := pushed_once twoFrameContract pcmEncoderContract 0 rfl sampleCalls (.single hfirst)
    rfl
  obtain ⟨fuel', c', -, hs, -, hend⟩ := hiff.mp fun t k hk => by
    cases t with
    | true =>
      cases hk
      trivial
    | false => cases hk
  exact ⟨_, fuel', c', .single hfirst, rfl, hs, hend⟩

end interleavings

end Delayer

end RtmpRelay
