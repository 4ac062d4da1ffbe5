import RtmpRelay.PacketMemory

/-!
# The relay on addresses is the relay

Every run on addresses does what the run on values does and never crashes on
its own: the addresses owned are those in the queue and that of the packet the
read loop holds, each once. In the end all is freed.
-/

namespace RtmpRelay.PacketMemory

open Machine Media OwnedHeap Delayer

@[simp] theorem ok_bind {α β : Type} (x : α) (f : α → Except Crash β) :
    (Except.ok x >>= f) = f x := rfl

section accesses
variable {h : Heap Object} {ps : List (ℕ × Object)} {a : ℕ} {x : Object}

theorem readPacket_owned {p : AVPacket} (ho : Owned h ps) (hm : (a, .packet p) ∈ ps) :
    readPacket h a = .ok p := by
  rw [readPacket, ho.load hm]

theorem readFrameData_owned {f : AVFrame} (ho : Owned h ps) (hm : (a, .frame f) ∈ ps) :
    readFrameData h a = .ok f := by
  rw [readFrameData, ho.load hm]

theorem write_owned (ho : Owned h ((a, x) :: ps)) (y : Object) :
    ∃ h', write h a y = .ok h' ∧ Owned h' ((a, y) :: ps) := by
  obtain ⟨h', hs, ho'⟩ := ho.store y
  exact ⟨h', by rw [write, hs], ho'⟩

theorem free_owned (ho : Owned h ((a, x) :: ps)) : ∃ h', free h a = .ok h' ∧ Owned h' ps := by
  obtain ⟨h', hf, ho'⟩ := ho.free
  exact ⟨h', by rw [free, hf], ho'⟩

theorem freeAll_owned {as : List ℕ} (hm : ps.map Prod.fst = as) (ho : Owned h ps) :
    ∃ h', freeAll as h = .ok h' ∧ Owned h' [] := by
  induction ps generalizing as h with
  | nil =>
    cases hm
    exact ⟨h, rfl, ho⟩
  | cons p ps ih =>
    cases hm
    obtain ⟨h₁, hf, ho₁⟩ := free_owned ho
    obtain ⟨h₂, hall, ho₂⟩ := ih rfl ho₁
    refine ⟨h₂, ?_, ho₂⟩
    rw [List.map_cons, freeAll, hf]
    exact hall

end accesses

section replacer
variable {δ : Decoder} {η : Encoder} {fuel : ℕ} {h : Heap Object} {ps : List (ℕ × Object)}

/-- The call on addresses gives back one packet for the one it was given, the same as the call on
values, and nothing else stays allocated. -/
structure Mutes (ps : List (ℕ × Object)) (value : Except Halt (AVPacket × MuteExit × Replacer δ η))
    (call : Except Crash (ℕ × Heap Object × Replacer δ η)) : Prop where
  error : ∀ e, value = .error e → call = halted e
  ok : ∀ out x r, value = .ok (out, x, r) →
    ∃ a h, call = .ok (a, h, r) ∧ Owned h ((a, .packet out) :: ps)

theorem Mutes.halted (e : Halt) :
    Mutes ps (.error e : Except Halt (AVPacket × MuteExit × Replacer δ η)) (halted e) :=
  ⟨fun e' he => by cases he; rfl, fun out x r hok => by cases hok⟩

theorem Mutes.returned {a : ℕ} {out : AVPacket} (ho : Owned h ((a, .packet out) :: ps))
    (x : MuteExit) (r : Replacer δ η) : Mutes ps (.ok (out, x, r)) (.ok (a, h, r)) :=
  ⟨fun e he => (by cases he), fun out' x' r' hok => by cases hok; exact ⟨a, h, rfl, ho⟩⟩

theorem encodeMuted_mutes {r : Replacer δ η} {packet frame : ℕ} {orig : AVPacket} {f : AVFrame}
    (ho : Owned h ((frame, .frame f) :: (packet, .packet orig) :: ps)) :
    Mutes ps (r.encodeMuted fuel orig f) (encodeMuted fuel h r packet frame orig) := by
  have hf : readFrameData h frame = .ok f := readFrameData_owned ho List.mem_cons_self
  cases hsend : η.sendFrameLoop f fuel r.audioEncoderCtx with
  | none =>
    simp only [encodeMuted, Replacer.encodeMuted, hf, ok_bind, hsend]
    exact .halted .noReturn
  | some y =>
    obtain ⟨res, ctx⟩ := y
    cases res with
    | error e =>
      obtain ⟨h₁, hfree, ho₁⟩ := free_owned ho
      simp only [encodeMuted, Replacer.encodeMuted, hf, ok_bind, hsend, hfree]
      exact .returned ho₁ _ _
    | ok u =>
      have hout := ho.alloc (.packet blankPacket)
      cases hreceive : η.receivePacketLoop f fuel (ctx, []) with
      | none =>
        simp only [encodeMuted, Replacer.encodeMuted, hf, ok_bind, hsend, hreceive]
        exact .halted .noReturn
      | some z =>
        obtain ⟨res', ctx', bytes⟩ := z
        cases res' with
        | error e =>
          obtain ⟨h₁, hfree₁, ho₁⟩ := free_owned (hout.perm (.swap ..))
          obtain ⟨h₂, hfree₂, ho₂⟩ := free_owned ho₁
          simp only [encodeMuted, Replacer.encodeMuted, hf, ok_bind, hsend, hreceive, hfree₁,
            hfree₂]
          exact .returned ho₂ _ _
        | ok u' =>
          obtain ⟨h₁, hwrite, ho₁⟩ := write_owned hout (.packet
            { streamIndex := r.audioStreamIndex
              pts := orig.pts
              dts := orig.dts
              duration := orig.duration
              data := .encoded bytes })
          obtain ⟨h₂, hfree₂, ho₂⟩ := free_owned (ho₁.perm (.swap ..))
          obtain ⟨h₃, hfree₃, ho₃⟩ := free_owned (ho₂.perm (.swap ..))
          simp only [encodeMuted, Replacer.encodeMuted, hf, ok_bind, hsend, hreceive, hwrite,
            hfree₂, hfree₃]
          exact .returned ho₃ _ _

theorem replaceAudioToMute_mutes {r : Replacer δ η} {packet : ℕ} {orig : AVPacket}
    (ho : Owned h ((packet, .packet orig) :: ps)) :
    Mutes ps (r.replaceAudioToMute fuel orig) (replaceAudioToMute fuel h r packet) := by
  have hp : readPacket h packet = .ok orig := readPacket_owned ho List.mem_cons_self
  cases hsend : δ.sendPacketLoop orig fuel r.audioDecoderCtx with
  | none =>
    simp only [replaceAudioToMute, Replacer.replaceAudioToMute, hp, ok_bind, hsend]
    exact .halted .noReturn
  | some y =>
    obtain ⟨res, ctx⟩ := y
    cases res with
    | error e =>
      simp only [replaceAudioToMute, Replacer.replaceAudioToMute, hp, ok_bind, hsend]
      exact .returned ho _ _
    | ok u =>
      have hframe := ho.alloc (.frame blankFrame)
      cases hreceive : δ.receiveFrameLoop orig fuel (ctx, { nbSamples := 0, data := [] }) with
      | none =>
        simp only [replaceAudioToMute, Replacer.replaceAudioToMute, hp, ok_bind, hsend, blankFrame,
          hreceive]
        exact .halted .noReturn
      | some z =>
        obtain ⟨res', ctx', decoded⟩ := z
        cases res' with
        | error e =>
          obtain ⟨h₁, hfree, ho₁⟩ := free_owned hframe
          rw [blankFrame] at hfree
          simp only [replaceAudioToMute, Replacer.replaceAudioToMute, hp, ok_bind, hsend,
            blankFrame, hreceive, hfree]
          exact .returned ho₁ _ _
        | ok u' =>
          cases hzero :
              Replacer.zeroSamples (δ.nbChannels ctx') (δ.bytesPerSample ctx') decoded with
          | none =>
            simp only [replaceAudioToMute, Replacer.replaceAudioToMute, hp, ok_bind, hsend,
              blankFrame, hreceive, hzero]
            exact .halted .planeWrite
          | some zeroed =>
            obtain ⟨h₁, hwrite, ho₁⟩ := write_owned hframe (.frame zeroed)
            rw [blankFrame] at hwrite
            simp only [replaceAudioToMute, Replacer.replaceAudioToMute, hp, ok_bind, hsend,
              blankFrame, hreceive, hzero, hwrite]
            exact encodeMuted_mutes ho₁

end replacer

section queue
variable {δ : Decoder} {η : Encoder} {fuel : ℕ} {ps : List (ℕ × Object)}

def objects (qs : List (ℕ × AVPacket)) : List (ℕ × Object) := qs.map fun q => (q.1, .packet q.2)

/-- The queue on addresses holds the packets of `d`, and `ps` is allocated besides. -/
structure Represents (ps : List (ℕ × Object)) (m : Queue δ η) (d : Delayer δ η) : Prop where
  delayer : m.delayer = { d with avPacket := [] }
  owned : ∃ qs, m.avPacket = qs.map Prod.fst ∧ d.avPacket = qs.map Prod.snd ∧
    Owned m.heap (objects qs ++ ps)

/-- The call on addresses comes to what the call on values comes to. -/
structure Follows {μ β : Type} (R : μ → β → Prop) (value : Outcome Halt β) (call : Except Crash μ) :
    Prop where
  halt : ∀ e d, value = .halt e d → call = halted e
  ok : ∀ d, value = .ok d → ∃ m, call = .ok m ∧ R m d

theorem Follows.halted {μ β : Type} {R : μ → β → Prop} (e : Halt) (d : β) :
    Follows R (.halt e d) (halted e) :=
  ⟨fun e' d' he => by cases he; rfl, fun d' hok => by cases hok⟩

theorem Follows.returned {μ β : Type} {R : μ → β → Prop} {m : μ} {d : β} (h : R m d) :
    Follows R (.ok d) (.ok m) :=
  ⟨fun e d' he => (by cases he), fun d' hok => by cases hok; exact ⟨m, rfl, h⟩⟩

theorem writeHeader_queue (d : Delayer δ η) (q : List AVPacket) :
    (∀ d', d.writeHeader = .ok d' →
        ({ d with avPacket := q } : Delayer δ η).writeHeader = .ok { d' with avPacket := q }) ∧
      ∀ e d', d.writeHeader = .halt e d' →
        ({ d with avPacket := q } : Delayer δ η).writeHeader =
          .halt e { d' with avPacket := q } := by
  simp only [writeHeader]
  split_ifs with hr
  · refine ⟨fun d' he => (by cases he), fun e d' he => ?_⟩
    cases he
    rfl
  · refine ⟨fun d' he => ?_, fun e d' he => (by cases he)⟩
    cases he
    rfl

theorem handshake_queue (d : Delayer δ η) (q : List AVPacket) :
    (∀ d', d.handshake = .ok d' →
        ({ d with avPacket := q } : Delayer δ η).handshake = .ok { d' with avPacket := q }) ∧
      ∀ e d', d.handshake = .halt e d' →
        ({ d with avPacket := q } : Delayer δ η).handshake = .halt e { d' with avPacket := q } := by
  simp only [handshake]
  split_ifs with hdone hfile ho
  · refine ⟨fun d' he => ?_, fun e d' he => (by cases he)⟩
    cases he
    rfl
  · exact writeHeader_queue d q
  · refine ⟨fun d' he => (by cases he), fun e d' he => ?_⟩
    cases he
    rfl
  · exact writeHeader_queue (d.outputCall (.avioOpen d.outUrl)) q

theorem flushLoop_follows {limit : Int} {qs : List (ℕ × AVPacket)} {m : Queue δ η}
    {d : Delayer δ η} (hm : m.avPacket = qs.map Prod.fst) (hd : d.avPacket = qs.map Prod.snd)
    (hb : m.delayer = { d with avPacket := [] }) (ho : Owned m.heap (objects qs ++ ps)) :
    Follows (Represents ps) (Delayer.flushLoop limit (qs.map Prod.snd) d)
      (flushLoop limit (qs.map Prod.fst) m) := by
  induction qs generalizing m d with
  | nil => exact .halted .emptyFront d
  | cons q qs ih =>
    have hp : readPacket m.heap q.1 = .ok q.2 := readPacket_owned ho List.mem_cons_self
    rw [List.map_cons, List.map_cons, Delayer.flushLoop, flushLoop, hp, ok_bind, hb]
    by_cases ht : d.totalDeleyMs - q.2.duration > limit
    · rw [if_pos ht, if_pos ht]
      cases hh : d.handshake with
      | halt e d' =>
        rw [(handshake_queue d []).2 e d' hh]
        exact .halted e d'
      | ok d' =>
        obtain ⟨h₁, hfree, ho₁⟩ := free_owned ho
        rw [(handshake_queue d []).1 d' hh]
        simp only [hfree, ok_bind]
        exact ih rfl rfl rfl ho₁
    · rw [if_neg ht, if_neg ht]
      exact .returned ⟨hb, q :: qs, hm, hd, ho⟩

theorem flush_follows {m : Queue δ η} {d : Delayer δ η} (h : Represents ps m d) :
    Follows (Represents ps) d.flush (flush m) := by
  obtain ⟨hb, qs, hm, hd, ho⟩ := h
  have hlimit : m.delayer.delayLimit = d.delayLimit := by
    rw [hb]
    rfl
  have htotal : m.delayer.totalDeleyMs = d.totalDeleyMs := by rw [hb]
  rw [Delayer.flush, flush, hlimit, htotal]
  cases d.delayLimit with
  | none => exact .halted .intOverflow d
  | some limit =>
    dsimp only
    split
    · rw [hm, hd]
      exact flushLoop_follows hm hd hb ho
    · exact .returned ⟨hb, qs, hm, hd, ho⟩

theorem push_follows {m : Queue δ η} {d : Delayer δ η} {a : ℕ} {p : AVPacket}
    (h : Represents ((a, .packet p) :: ps) m d) :
    Follows (Represents ps) (d.enqueue p).flush (push m a) := by
  obtain ⟨hb, qs, hm, hd, ho⟩ := h
  have hp : readPacket m.heap a = .ok p :=
    readPacket_owned ho (List.mem_append_right _ List.mem_cons_self)
  have htotal : m.delayer.totalDeleyMs = d.totalDeleyMs := by rw [hb]
  rw [push, hp, ok_bind, htotal]
  refine flush_follows ⟨?_, qs ++ [(a, p)], ?_, ?_, ?_⟩
  · dsimp only
    rw [hb]
    rfl
  · dsimp only
    rw [hm, List.map_append]
    rfl
  · show d.avPacket ++ [p] = _
    rw [hd, List.map_append]
    rfl
  · have heq : objects (qs ++ [(a, p)]) ++ ps = objects qs ++ (a, .packet p) :: ps := by
      rw [objects, List.map_append, List.append_assoc]
      rfl
    rw [heq]
    exact ho

/-- What the loop of `replaceAudioPacket` comes to on addresses. -/
structure Replaces (ps : List (ℕ × Object))
    (value : Except Halt (List (AVPacket × Option MuteExit) × Replacer δ η))
    (call : Except Crash (List ℕ × Heap Object × Replacer δ η)) : Prop where
  error : ∀ e, value = .error e → call = PacketMemory.halted e
  ok : ∀ outs r, value = .ok (outs, r) → ∃ qs h, call = .ok (qs.map Prod.fst, h, r) ∧
    outs.map Prod.fst = qs.map Prod.snd ∧ Owned h (objects qs ++ ps)

theorem Replaces.cons {out : AVPacket} {x : Option MuteExit} {b : ℕ}
    {value : Except Halt (List (AVPacket × Option MuteExit) × Replacer δ η)}
    {call : Except Crash (List ℕ × Heap Object × Replacer δ η)}
    (h : Replaces ((b, .packet out) :: ps) value call) :
    Replaces ps (value.map fun y => ((out, x) :: y.1, y.2))
      (call >>= fun z => .ok (b :: z.1, z.2)) := by
  refine ⟨fun e he => ?_, fun outs r hok => ?_⟩
  · cases hv : value with
    | error e' =>
      rw [hv] at he
      cases he
      rw [h.error e hv]
      rfl
    | ok y =>
      rw [hv] at he
      cases he
  · cases hv : value with
    | error e' =>
      rw [hv] at hok
      cases hok
    | ok y =>
      rw [hv] at hok
      cases hok
      obtain ⟨qs, h', hcall, houts, ho⟩ := h.ok y.1 y.2 hv
      refine ⟨(b, out) :: qs, h', by rw [hcall]; rfl, ?_, ho.perm List.perm_middle⟩
      rw [List.map_cons, List.map_cons, houts]

theorem replaceLoop_follows {start stop : Int} {qs : List (ℕ × AVPacket)} {h : Heap Object}
    {r : Replacer δ η} (ho : Owned h (objects qs ++ ps)) :
    Replaces ps (Delayer.replaceLoop fuel start stop (qs.map Prod.snd) r)
      (replaceLoop fuel start stop (qs.map Prod.fst) h r) := by
  induction qs generalizing h r ps with
  | nil =>
    refine ⟨fun e he => (by cases he), fun outs r' hok => ?_⟩
    cases hok
    exact ⟨[], h, rfl, rfl, ho⟩
  | cons q qs ih =>
    have hp : readPacket h q.1 = .ok q.2 := readPacket_owned ho List.mem_cons_self
    have hmutes : Mutes (objects qs ++ ps) (r.replaceAudioToMute fuel q.2)
        (replaceAudioToMute fuel h r q.1) := replaceAudioToMute_mutes ho
    rw [List.map_cons, List.map_cons, replaceLoop, hp, ok_bind]
    rcases turn_or_error fuel start stop q.2 r with ⟨out, s, hturn⟩ | ⟨hin, e, hmute⟩
    · rw [hturn.loop]
      cases hturn with
      | inside hin hmute =>
        obtain ⟨b, h', hcall, ho'⟩ := hmutes.ok _ _ _ hmute
        rw [if_pos hin, hcall, ok_bind]
        exact (ih (ho'.perm List.perm_middle.symm)).cons
      | outside hout =>
        rw [if_neg hout]
        exact (ih (ho.perm List.perm_middle.symm)).cons
    · rw [Delayer.replaceLoop, if_pos hin, if_pos hin, hmute, hmutes.error e hmute]
      exact ⟨fun e' he => by cases he; rfl, fun outs r' hok => by cases hok⟩

theorem replaceAudioPacket_follows {m : Queue δ η} {d : Delayer δ η} (h : Represents ps m d)
    (start stop : Int) :
    Follows (Represents ps) (d.replaceAudioPacket fuel start stop)
      (replaceAudioPacket fuel m start stop) := by
  obtain ⟨hb, qs, hm, hd, ho⟩ := h
  have hloop : Replaces ps (Delayer.replaceLoop fuel start stop d.avPacket d.replacer)
      (replaceLoop fuel start stop m.avPacket m.heap m.delayer.replacer) := by
    rw [hm, hd, hb]
    exact replaceLoop_follows ho
  rw [Delayer.replaceAudioPacket, replaceAudioPacket]
  cases hv : Delayer.replaceLoop fuel start stop d.avPacket d.replacer with
  | error e =>
    rw [hloop.error e hv]
    exact .halted e d
  | ok y =>
    obtain ⟨qs', h', hcall, houts, ho'⟩ := hloop.ok y.1 y.2 hv
    rw [hcall, ok_bind]
    refine .returned ⟨?_, qs', rfl, houts, ho'⟩
    dsimp only
    rw [hb]

end queue

section relay
variable {δ : Decoder} {ω : Resampler} {η : Encoder} {fuel : ℕ}

/-- Whatever becomes of the audio, the frame is freed and the packet is not. -/
structure Sends (ps : List (ℕ × Object)) (value : Except Halt (Int × SendExit × Asr δ ω))
    (call : Except Crash (SendExit × Heap Object × Asr δ ω)) : Prop where
  error : ∀ e, value = .error e → call = halted e
  ok : ∀ ret x a, value = .ok (ret, x, a) → ∃ h, call = .ok (x, h, a) ∧ Owned h ps

theorem Sends.halted {ps : List (ℕ × Object)} (e : Halt) :
    Sends ps (.error e : Except Halt (Int × SendExit × Asr δ ω)) (halted e) :=
  ⟨fun e' he => by cases he; rfl, fun ret x a hok => by cases hok⟩

theorem Sends.returned {ps : List (ℕ × Object)} {h : Heap Object} (ho : Owned h ps) (ret : Int)
    (x : SendExit) (a : Asr δ ω) : Sends ps (.ok (ret, x, a)) (.ok (x, h, a)) :=
  ⟨fun e he => (by cases he), fun ret' x' a' hok => by cases hok; exact ⟨h, rfl, ho⟩⟩

theorem sendAudio_sends {ps : List (ℕ × Object)} {h : Heap Object} {a : Asr δ ω} {pkt : ℕ}
    {p : AVPacket} (ho : Owned h ps) (hm : (pkt, .packet p) ∈ ps) (sdk : SdkReply) :
    Sends ps (a.sendAudio fuel p sdk) (sendAudio fuel h a pkt sdk) := by
  have hp : readPacket h pkt = .ok p := readPacket_owned ho hm
  cases hsend : δ.sendPacketLoop p fuel
      (a.checkToken sdk.curTime sdk.tokenReply).2.audioDecoderCtx with
  | none =>
    simp only [sendAudio, Asr.sendAudio, hp, ok_bind, hsend]
    exact .halted .noReturn
  | some y =>
    obtain ⟨res, ctx⟩ := y
    cases res with
    | error f =>
      simp only [sendAudio, Asr.sendAudio, hp, ok_bind, hsend]
      exact .returned ho _ _ _
    | ok u =>
      have hframe := ho.alloc (.frame blankFrame)
      cases hreceive : δ.receiveFrameLoop p fuel (ctx, { nbSamples := 0, data := [] }) with
      | none =>
        simp only [sendAudio, Asr.sendAudio, hp, ok_bind, hsend, blankFrame, hreceive]
        exact .halted .noReturn
      | some z =>
        obtain ⟨res', ctx', decoded⟩ := z
        cases res' with
        | error f =>
          obtain ⟨h₁, hfree, ho₁⟩ := free_owned hframe
          rw [blankFrame] at hfree
          simp only [sendAudio, Asr.sendAudio, hp, ok_bind, hsend, blankFrame, hreceive, hfree]
          exact .returned ho₁ _ _ _
        | ok u' =>
          obtain ⟨h₁, hwrite, ho₁⟩ := write_owned hframe (.frame decoded)
          obtain ⟨h₂, hfree, ho₂⟩ := free_owned ho₁
          have hf := readFrameData_owned ho₁ List.mem_cons_self
          rw [blankFrame] at hwrite hfree hf
          simp only [sendAudio, Asr.sendAudio, hp, ok_bind, hsend, blankFrame, hreceive, hwrite, hf]
          cases hs : ({ (a.checkToken sdk.curTime sdk.tokenReply).2 with
              audioDecoderCtx := ctx' } : Asr δ ω).sendFrame p decoded sdk.sentByte with
          | error e => exact .halted e
          | ok y =>
            dsimp only
            rw [hfree, ok_bind]
            exact .returned ho₂ _ _ _

def unpacked (s : Relay δ ω η) : Relay δ ω η :=
  { s with delayer := { s.delayer with avPacket := [] }, pending := none }

/-- The memory holds the packets of `s` and no other object. -/
structure Holds (m : Memory δ ω η) (s : Relay δ ω η) : Prop where
  relay : m.relay = unpacked s
  packets : (m.pkt = none ∧ s.pending = none ∧ Represents [] m.queue s.delayer) ∨
    ∃ a p x, m.pkt = some (a, x) ∧ s.pending = some (p, x) ∧
      Represents [(a, .packet p.val)] m.queue s.delayer

structure Keeps (value : Outcome Stop (Relay δ ω η)) (call : Except Crash (Memory δ ω η)) :
    Prop where
  halt : ∀ e s, value = .halt e s → call = .error (.stopped e)
  ok : ∀ s, value = .ok s → ∃ m, call = .ok m ∧ Holds m s

theorem Keeps.stopped (e : Stop) (s : Relay δ ω η) : Keeps (.halt e s) (.error (.stopped e)) :=
  ⟨fun e' s' he => by cases he; rfl, fun s' hok => by cases hok⟩

theorem Keeps.returned {m : Memory δ ω η} {s : Relay δ ω η} (h : Holds m s) :
    Keeps (.ok s) (.ok m) :=
  ⟨fun e s' he => (by cases he), fun s' hok => by cases hok; exact ⟨m, rfl, h⟩⟩

theorem call_keeps {ps : List (ℕ × Object)} {s : Relay δ ω η} (op : Op)
    {call : Except Crash (Queue δ η)} {k : Queue δ η → Memory δ ω η}
    (h : Follows (Represents ps) (Delayer.step fuel s.delayer op) call)
    (hk : ∀ q d, Represents ps q d → Holds (k q) { s with delayer := d }) :
    Keeps (s.call fuel op) (call >>= fun q => .ok (k q)) := by
  rw [Relay.call]
  cases hv : Delayer.step fuel s.delayer op with
  | halt e d =>
    rw [h.halt e d hv]
    exact .stopped _ _
  | ok d =>
    obtain ⟨q, hcall, hq⟩ := h.ok d hv
    rw [hcall, ok_bind]
    exact .returned (hk q d hq)

theorem holds_setQueue {m : Memory δ ω η} {s : Relay δ ω η} {q : Queue δ η} {d : Delayer δ η}
    (hr : m.relay = unpacked s) (hm : m.pkt = none) (hs : s.pending = none)
    (hq : Represents [] q d) : Holds (m.setQueue q) { s with delayer := d } := by
  refine ⟨?_, Or.inl ⟨hm, hs, hq⟩⟩
  rw [Memory.setQueue, hr, hq.delayer]
  rfl

theorem readFrame_keeps {m : Memory δ ω η} {s : Relay δ ω η} (hr : m.relay = unpacked s)
    (hm : m.pkt = none) (hs : s.pending = none) (h : Represents [] m.queue s.delayer)
    (p : DemuxedPacket) (sdk : SdkReply) :
    Keeps (s.readFrame fuel p sdk) (readFrame fuel m p sdk) := by
  obtain ⟨hb, qs, hq, hd, ho⟩ := h
  have hblank := ho.alloc (.packet blankPacket)
  obtain ⟨h₁, hwrite, hfilled⟩ := write_owned hblank (.packet p.val)
  have hp := readPacket_owned hfilled List.mem_cons_self
  have hpkt : Owned h₁ (objects qs ++ [((m.heap.alloc (.packet blankPacket)).1, .packet p.val)]) :=
    hfilled.perm List.perm_middle.symm
  have hvideo : m.relay.videoStreamIndex = s.videoStreamIndex := by rw [hr]; rfl
  have haudio : m.relay.audioStreamIndex = s.audioStreamIndex := by rw [hr]; rfl
  have hasr : m.relay.asr = s.asr := by rw [hr]; rfl
  have hheap : m.queue.heap = m.heap := rfl
  rw [hheap] at hwrite
  rw [Relay.readFrame, readFrame]
  simp only [hwrite, ok_bind]
  rw [hheap] at hp
  rw [hp, ok_bind, hvideo, haudio, hasr]
  by_cases hv : p.val.streamIndex = s.videoStreamIndex
  · rw [if_pos hv, if_pos hv]
    have hrep : Represents [((m.heap.alloc (.packet blankPacket)).1, .packet p.val)]
        { m.queue with heap := h₁ } s.delayer := ⟨hb, qs, hq, hd, hpkt⟩
    exact call_keeps (.pushVideoFrame p) (push_follows hrep) fun q d hq =>
      holds_setQueue hr hm hs hq
  · rw [if_neg hv, if_neg hv]
    by_cases ha : p.val.streamIndex = s.audioStreamIndex
    · rw [if_pos ha, if_pos ha]
      have hsends : Sends (objects qs ++ [((m.heap.alloc (.packet blankPacket)).1, .packet p.val)])
          (s.asr.sendAudio fuel p.val sdk)
          (sendAudio fuel h₁ s.asr (m.heap.alloc (.packet blankPacket)).1 sdk) :=
        sendAudio_sends hpkt (List.mem_append_right _ List.mem_cons_self) sdk
      cases hsent : s.asr.sendAudio fuel p.val sdk with
      | error e =>
        rw [hsends.error e hsent]
        exact .stopped _ _
      | ok y =>
        obtain ⟨h₂, hcall, ho₂⟩ := hsends.ok y.1 y.2.1 y.2.2 hsent
        rw [hcall, ok_bind]
        refine .returned ⟨?_, Or.inr ⟨_, p, y.2.1, rfl, rfl, hb, qs, hq, hd, ho₂⟩⟩
        dsimp only
        rw [hr]
        rfl
    · rw [if_neg ha, if_neg ha]
      obtain ⟨h₂, hfree, ho₂⟩ := free_owned hfilled
      rw [hheap] at hfree
      rw [hfree, ok_bind]
      exact .returned ⟨hr, Or.inl ⟨hm, hs, hb, qs, hq, hd, ho₂⟩⟩

theorem elsewhere_keeps {m : Memory δ ω η} {s s' : Relay δ ω η} (h : Holds m s) {a : Action}
    (hv : Relay.step fuel s a = .ok s') (hd : s'.delayer = s.delayer) (hp : s'.pending = s.pending)
    (hu : Relay.step fuel (unpacked s) a = .ok (unpacked s')) :
    Keeps (Relay.step fuel s a) (elsewhere fuel m a) := by
  have hm : (⟨m.heap, m.avPacket, m.pkt, unpacked s'⟩ : Memory δ ω η).queue = m.queue := by
    rw [Memory.queue, Memory.queue, h.relay]
    show _ = Queue.mk _ _ { s.delayer with avPacket := [] }
    rw [← hd]
    rfl
  rw [hv, elsewhere, h.relay, hu]
  refine .returned ⟨rfl, ?_⟩
  rw [hm, hd, hp]
  exact h.packets

theorem callback_keeps {m : Memory δ ω η} {s : Relay δ ω η} (h : Holds m s) (k : ℕ) :
    Keeps (Relay.step fuel s (.callback k)) (step fuel m (.callback k)) := by
  have hc : m.relay.callbacks = s.callbacks := by rw [h.relay]; rfl
  rw [step, hc]
  cases hk : s.callbacks[k]? with
  | none =>
    have hstep : ∀ r : Relay δ ω η, r.callbacks = s.callbacks →
        Relay.step fuel r (.callback k) = .halt .notEnabled r := by
      intro r hr
      rw [Relay.step, hr, hk]
    dsimp only
    rw [hstep s rfl, elsewhere, h.relay, hstep (unpacked s) rfl]
    exact .stopped _ _
  | some cs =>
    cases cs with
    | nil =>
      have hstep : ∀ r : Relay δ ω η, r.callbacks = s.callbacks →
          Relay.step fuel r (.callback k) = .halt .notEnabled r := by
        intro r hr
        rw [Relay.step, hr, hk]
      dsimp only
      rw [hstep s rfl, elsewhere, h.relay, hstep (unpacked s) rfl]
      exact .stopped _ _
    | cons c rest =>
      have hstep : ∀ r : Relay δ ω η, r.callbacks = s.callbacks →
          Relay.step fuel r (.callback k) = r.callbackStep fuel k rest c := by
        intro r hr
        rw [Relay.step, hr, hk]
      cases c with
      | sendSentence => exact elsewhere_keeps h (hstep s rfl) rfl rfl (hstep (unpacked s) rfl)
      | hit item => exact elsewhere_keeps h (hstep s rfl) rfl rfl (hstep (unpacked s) rfl)
      | sendHitWord item => exact elsewhere_keeps h (hstep s rfl) rfl rfl (hstep (unpacked s) rfl)
      | replaceAudioPacket start stop =>
        rw [hstep s rfl]
        have hrelay : ∀ (q : Queue δ η) (d : Delayer δ η), q.delayer = { d with avPacket := [] } →
            ({ m with relay := m.relay.setCallback k rest }.setQueue q).relay =
              unpacked { s.setCallback k rest with delayer := d } := by
          intro q d hq
          rw [Memory.setQueue, h.relay, hq]
          rfl
        rcases h.packets with ⟨hm, hs, hrep⟩ | ⟨a, p, x, hm, hs, hrep⟩
        · exact call_keeps (s := s.setCallback k rest) (.replaceAudioPacket start stop)
            (replaceAudioPacket_follows hrep start stop) fun q d hq =>
              ⟨hrelay q d hq.delayer, Or.inl ⟨hm, hs, hq⟩⟩
        · exact call_keeps (s := s.setCallback k rest) (.replaceAudioPacket start stop)
            (replaceAudioPacket_follows hrep start stop) fun q d hq =>
              ⟨hrelay q d hq.delayer, Or.inr ⟨a, p, x, hm, hs, hq⟩⟩

theorem step_keeps {m : Memory δ ω η} {s : Relay δ ω η} (h : Holds m s) (a : Action) :
    Keeps (Relay.step fuel s a) (step fuel m a) := by
  cases a with
  | readFrame p sdk =>
    rw [Relay.step, step]
    rcases h.packets with ⟨hm, hs, hrep⟩ | ⟨a, q, x, hm, hs, hrep⟩
    · rw [hm, hs]
      exact readFrame_keeps h.relay hm hs hrep p sdk
    · rw [hm, hs]
      exact .stopped _ _
  | pushPending =>
    rw [Relay.step, step]
    rcases h.packets with ⟨hm, hs, hrep⟩ | ⟨a, p, x, hm, hs, hrep⟩
    · rw [hm, hs]
      exact .stopped _ _
    · rw [hm, hs]
      have hrelay : m.relay = unpacked { s with pending := none } := h.relay
      exact call_keeps (s := { s with pending := none }) (.pushAudioFrame p)
        (push_follows hrep) fun q d hq =>
          holds_setQueue (m := { m with pkt := none }) hrelay rfl rfl hq
  | sentenceEnd result => exact elsewhere_keeps h rfl rfl rfl rfl
  | callback k => exact callback_keeps h k
  | restart t created => exact elsewhere_keeps h rfl rfl rfl rfl

theorem run_keeps {m : Memory δ ω η} {s : Relay δ ω η} (h : Holds m s) (as : List Action) :
    Keeps (Relay.run fuel s as) (run fuel m as) := by
  induction as generalizing m s with
  | nil => exact .returned h
  | cons a as ih =>
    have hstep : Keeps (Relay.step fuel s a) (step fuel m a) := step_keeps h a
    rw [Relay.run, run_cons, run]
    cases hv : Relay.step fuel s a with
    | halt e s' =>
      rw [hstep.halt e s' hv]
      exact .stopped _ _
    | ok s' =>
      obtain ⟨m', hcall, hm'⟩ := hstep.ok s' hv
      rw [hcall, ok_bind]
      exact ih hm'

theorem holds_init (D : Int) (o : OutputContext) (r : Replacer δ η) (url : String) (a : Asr δ ω)
    (audio video : Int) :
    Holds (init (Relay.init (Delayer.new D o r url) a audio video))
      (Relay.init (Delayer.new D o r url) a audio video) :=
  ⟨rfl, Or.inl ⟨rfl, rfl, rfl, [], rfl, rfl, owned_empty⟩⟩

theorem map_load_objects {h : Heap Object} {qs : List (ℕ × AVPacket)} {ps : List (ℕ × Object)}
    (ho : Owned h (objects qs ++ ps)) :
    (qs.map Prod.fst).map h.load = (qs.map Prod.snd).map fun p => some (Object.packet p) := by
  rw [List.map_map, List.map_map]
  refine List.map_congr_left fun q hq => ?_
  exact ho.load (List.mem_append_left _ (List.mem_map.mpr ⟨q, hq, rfl⟩))

theorem nodup_objects {h : Heap Object} {qs : List (ℕ × AVPacket)} {ps : List (ℕ × Object)}
    (ho : Owned h (objects qs ++ ps)) : (qs.map Prod.fst).Nodup := by
  have hall := ho.nodup
  rw [List.map_append, objects, List.map_map] at hall
  exact (List.nodup_append.mp hall).1

theorem Holds.finish {m : Memory δ ω η} {s : Relay δ ω η} (h : Holds m s) (hs : s.pending = none) :
    ∃ h', finish m = .ok h' ∧ ∀ a, h'.load a = none := by
  rcases h.packets with ⟨hm, -, -, qs, hq, -, ho⟩ | ⟨a, p, x, -, hp, -⟩
  · have hq' : m.avPacket = qs.map Prod.fst := hq
    rw [List.append_nil] at ho
    obtain ⟨h₁, hfree, ho₁⟩ := free_owned (ho.alloc (.packet blankPacket))
    have haddresses : (objects qs).map Prod.fst = m.avPacket := by
      rw [hq', objects, List.map_map]
      rfl
    obtain ⟨h₂, hall, ho₂⟩ := freeAll_owned haddresses ho₁
    refine ⟨h₂, ?_, ho₂.nothing⟩
    rw [PacketMemory.finish]
    have hheap : m.queue.heap = m.heap := rfl
    rw [hheap] at hfree
    simp only [hfree, ok_bind]
    exact hall
  · cases hs.symm.trans hp

/-- Every run of the relay on addresses is the run on values: it makes no bad access and no
double free, the queue holds each address once with the packet it stands for, and a run that
has returned leaves nothing allocated. -/
theorem packets_freed_once (fuel : ℕ) (D : Int) (o : OutputContext) (r : Replacer δ η)
    (url : String) (a : Asr δ ω) (audio video : Int) (as : List Action) :
    (∀ s, Relay.run fuel (Relay.init (Delayer.new D o r url) a audio video) as = .ok s →
      ∃ m, run fuel (init (Relay.init (Delayer.new D o r url) a audio video)) as = .ok m ∧
        m.avPacket.Nodup ∧
        m.avPacket.map m.heap.load = s.delayer.avPacket.map (fun p => some (.packet p)) ∧
        m.relay.delayer.written = s.delayer.written ∧
        (s.pending = none → ∃ h, finish m = .ok h ∧ ∀ a, h.load a = none)) ∧
      ∀ e s, Relay.run fuel (Relay.init (Delayer.new D o r url) a audio video) as = .halt e s →
        run fuel (init (Relay.init (Delayer.new D o r url) a audio video)) as =
          .error (.stopped e) := by
  have hkeeps : Keeps (Relay.run fuel (Relay.init (Delayer.new D o r url) a audio video) as)
      (run fuel (init (Relay.init (Delayer.new D o r url) a audio video)) as) :=
    run_keeps (holds_init D o r url a audio video) as
  refine ⟨fun s hs => ?_, hkeeps.halt⟩
  obtain ⟨m, hcall, hm⟩ := hkeeps.ok s hs
  obtain ⟨ps, hb, qs, hq, hd, ho⟩ : ∃ ps, Represents ps m.queue s.delayer := by
    rcases hm.packets with ⟨-, -, hrep⟩ | ⟨a, p, x, -, -, hrep⟩
    · exact ⟨_, hrep⟩
    · exact ⟨_, hrep⟩
  have hq' : m.avPacket = qs.map Prod.fst := hq
  refine ⟨m, hcall, ?_, ?_, ?_, hm.finish⟩
  · rw [hq']
    exact nodup_objects ho
  · rw [hq', hd]
    exact map_load_objects ho
  · rw [hm.relay]
    rfl

end relay

end RtmpRelay.PacketMemory
