import RtmpRelay.CodecLoops
import Mathlib.Data.List.Infix
import Mathlib.Data.List.Nodup

/-!
# The frames of a packet

A decoder takes packets in order and gives the frames of the packet in each
place, at once or when a fixed number of packets has followed it. `sendAudio`
sends a packet, sends it again as long as no frame is available, and takes one
frame. Every place a copy was put in is a place of its own, so the frames
handed on are those of the packets, each once, exactly when no copy has given
one of them.
-/

namespace RtmpRelay

open Machine Machine.Outcome Media

section Lists
variable {α : Type*}

theorem take_prefix_filter_iff {p : α → Bool} {xs : List α} {n : ℕ} :
    xs.take n <+: xs.filter p ↔ ∀ x ∈ xs.take n, p x = true := by
  constructor
  · intro h x hx
    exact (List.mem_filter.mp (h.subset hx)).2
  · intro h
    have hsplit : xs.filter p = (xs.take n).filter p ++ (xs.drop n).filter p := by
      rw [← List.filter_append, List.take_append_drop]
    rw [hsplit, List.filter_eq_self.mpr h]
    exact List.prefix_append _ _

theorem flagged_eq_nil_iff {hs : List (α × Bool)} :
    (hs.filter Prod.snd).map Prod.fst = [] ↔ ∀ c ∈ hs, c.2 = false := by
  rw [List.map_eq_nil_iff, List.filter_eq_nil_iff]
  simp only [Bool.not_eq_true]

/-- The flagged entries start a list that starts with all of them if and only
if no flagged entry follows one without flag. -/
theorem flagged_prefix_iff {hs : List (α × Bool)} {own : List α}
    (hnodup : (hs.map Prod.fst).Nodup) (h : hs.map Prod.fst <+: own) :
    (hs.filter Prod.snd).map Prod.fst <+: own ↔
      hs.Pairwise fun a b => a.2 = false → b.2 = false := by
  induction hs generalizing own with
  | nil => simp
  | cons a hs ih =>
    obtain ⟨x, b⟩ := a
    obtain ⟨hx, hnodup⟩ := List.nodup_cons.mp hnodup
    cases own with
    | nil => simp at h
    | cons y own =>
      obtain ⟨rfl, hrest⟩ := List.cons_prefix_cons.mp h
      rw [List.pairwise_cons, ← ih hnodup hrest]
      cases b with
      | true => simp
      | false =>
        -- a later flagged entry would have to be `x` again
        have hnil : (hs.filter Prod.snd).map Prod.fst <+: x :: own ↔ ∀ c ∈ hs, c.2 = false := by
          rw [← flagged_eq_nil_iff]
          constructor
          · intro hpre
            cases hsent : (hs.filter Prod.snd).map Prod.fst with
            | nil => rfl
            | cons z rest =>
              rw [hsent] at hpre
              obtain ⟨rfl, _⟩ := List.cons_prefix_cons.mp hpre
              have hmem : z ∈ (hs.filter Prod.snd).map Prod.fst := by simp [hsent]
              obtain ⟨c, hc, rfl⟩ := List.mem_map.mp hmem
              exact absurd (List.mem_map_of_mem (List.mem_of_mem_filter hc)) hx
          · intro hnone
            rw [hnone]
            exact List.nil_prefix
        have hfilter : ((x, false) :: hs).filter Prod.snd = hs.filter Prod.snd := by simp
        rw [hfilter, hnil]
        constructor
        · intro hall
          refine ⟨fun c hc _ => hall c hc, ?_⟩
          rw [flagged_eq_nil_iff.mpr hall]
          exact List.nil_prefix
        · intro hboth c hc
          exact hboth.1 c hc rfl

end Lists

/-- A frame with its place: the `index`-th one of the packet accepted as number `entry`. -/
structure Slot where
  entry : ℕ
  index : ℕ
  frame : AVFrame
  deriving DecidableEq, Repr

structure DelayedDecoder where
  frames : ℕ → AVPacket → List AVFrame
  delay : ℕ

namespace DelayedDecoder
variable (D : DelayedDecoder)

def slotsOf (entry : ℕ) (packet : AVPacket) : List Slot :=
  (D.frames entry packet).mapIdx fun index frame => { entry, index, frame }

def slotsFrom : ℕ → List AVPacket → List Slot
  | _, [] => []
  | entry, p :: ps => D.slotsOf entry p ++ slotsFrom (entry + 1) ps

def slots (accepted : List AVPacket) : List Slot := D.slotsFrom 0 accepted

def available (accepted : List AVPacket) : List Slot :=
  D.slots (accepted.take (accepted.length - D.delay))

/-- The context is the packets accepted and the number of frames taken. -/
def decoder : Decoder where
  Ctx := List AVPacket × ℕ
  avcodecSendPacket ctx p := (0, ctx.1 ++ [p], ctx.2)
  avcodecReceiveFrame ctx :=
    match (D.available ctx.1)[ctx.2]? with
    | some s => (0, s.frame, ctx.1, ctx.2 + 1)
    | none => (AVERROR_EAGAIN, { nbSamples := 0, data := [] }, ctx)
  nbChannels _ := 1
  bytesPerSample _ := 1

theorem slotsFrom_append (j : ℕ) (ps qs : List AVPacket) :
    D.slotsFrom j (ps ++ qs) = D.slotsFrom j ps ++ D.slotsFrom (j + ps.length) qs := by
  induction ps generalizing j with
  | nil => rfl
  | cons p ps ih =>
    rw [List.cons_append, slotsFrom, slotsFrom, ih, List.append_assoc, List.length_cons]
    congr 3
    omega

theorem slots_append (ps qs : List AVPacket) :
    D.slots (ps ++ qs) = D.slots ps ++ D.slotsFrom ps.length qs := by
  rw [slots, slotsFrom_append, Nat.zero_add]
  rfl

theorem available_prefix (ps : List AVPacket) : D.available ps <+: D.slots ps := by
  have happend := D.slots_append (ps.take (ps.length - D.delay)) (ps.drop (ps.length - D.delay))
  rw [List.take_append_drop] at happend
  exact ⟨_, happend.symm⟩

theorem entry_of_mem_slotsOf {j : ℕ} {p : AVPacket} {s : Slot} (h : s ∈ D.slotsOf j p) :
    s.entry = j := by
  obtain ⟨i, hi, rfl⟩ := List.mem_mapIdx.mp h
  rfl

theorem entry_of_mem {j : ℕ} {ps : List AVPacket} {s : Slot} (h : s ∈ D.slotsFrom j ps) :
    j ≤ s.entry ∧ s.entry < j + ps.length := by
  induction ps generalizing j with
  | nil => simp [slotsFrom] at h
  | cons p ps ih =>
    rw [slotsFrom, List.mem_append] at h
    rw [List.length_cons]
    rcases h with h | h
    · have hentry := D.entry_of_mem_slotsOf h
      omega
    · have hrest := ih h
      omega

theorem slotsFrom_nodup (j : ℕ) (ps : List AVPacket) : (D.slotsFrom j ps).Nodup := by
  induction ps generalizing j with
  | nil => exact List.nodup_nil
  | cons p ps ih =>
    rw [slotsFrom, List.nodup_append]
    refine ⟨?_, ih (j + 1), ?_⟩
    · rw [slotsOf, List.nodup_iff_getElem?_ne_getElem?]
      intro i k hik hk heq
      rw [List.getElem?_mapIdx, List.getElem?_mapIdx] at heq
      rw [List.length_mapIdx] at hk
      rw [List.getElem?_eq_getElem (hik.trans hk), List.getElem?_eq_getElem hk] at heq
      simp only [Option.map_some, Option.some.injEq, Slot.mk.injEq] at heq
      omega
    · intro s hs t ht heq
      have hfirst := D.entry_of_mem_slotsOf hs
      have hrest := D.entry_of_mem ht
      rw [heq] at hfirst
      omega

theorem slots_split {ps : List AVPacket} {j : ℕ} {p : AVPacket} (hp : ps[j]? = some p) :
    D.slots ps =
      D.slots (ps.take j) ++ (D.slotsOf j p ++ D.slotsFrom (j + 1) (ps.drop (j + 1))) := by
  obtain ⟨hj, rfl⟩ := List.getElem?_eq_some_iff.mp hp
  have hsplit : ps = ps.take j ++ ps[j] :: ps.drop (j + 1) := by
    rw [← List.drop_eq_getElem_cons hj, List.take_append_drop]
  have hlen : (ps.take j).length = j := by
    rw [List.length_take]
    omega
  conv_lhs => rw [hsplit, slots_append, hlen]
  rfl

theorem exists_mem_take_iff {ps : List AVPacket} {j n : ℕ} {p : AVPacket}
    (hp : ps[j]? = some p) :
    (∃ s ∈ (D.slots ps).take n, s.entry = j) ↔
      D.frames j p ≠ [] ∧ (D.slots (ps.take j)).length < n := by
  have hj : j < ps.length := (List.getElem?_eq_some_iff.mp hp).1
  rw [D.slots_split hp]
  constructor
  · intro h
    obtain ⟨s, hs, hentry⟩ := h
    have hbefore : s ∉ D.slots (ps.take j) := by
      intro hmem
      have hrange := D.entry_of_mem hmem
      rw [List.length_take] at hrange
      omega
    have hlt : (D.slots (ps.take j)).length < n := by
      by_contra hge
      rw [List.take_append_of_le_length (not_lt.mp hge)] at hs
      exact hbefore (List.mem_of_mem_take hs)
    refine ⟨?_, hlt⟩
    intro hnil
    have hnone : D.slotsOf j p = [] := by simp [slotsOf, hnil]
    rw [hnone, List.nil_append] at hs
    rcases List.mem_append.mp (List.mem_of_mem_take hs) with hmem | hmem
    · exact hbefore hmem
    · have hrange := D.entry_of_mem hmem
      omega
  · intro h
    obtain ⟨hne, hlt⟩ := h
    obtain ⟨f, fs, hframes⟩ := List.exists_cons_of_ne_nil hne
    refine ⟨{ entry := j, index := 0, frame := f }, ?_, rfl⟩
    have hfirst : D.slotsOf j p ≠ [] := by simp [slotsOf, hframes]
    apply List.mem_of_getElem? (i := (D.slots (ps.take j)).length)
    rw [List.getElem?_take_of_lt hlt, List.getElem?_append_right le_rfl, Nat.sub_self]
    simp [slotsOf, hframes]

/-! What a call of `sendAudio` does to the context. -/

def accepted (ctx : D.decoder.Ctx) : List AVPacket := Prod.fst (α := List AVPacket) (β := ℕ) ctx

def taken (ctx : D.decoder.Ctx) : ℕ := Prod.snd (α := List AVPacket) (β := ℕ) ctx

variable {D}

theorem receive_again_iff (ctx : D.decoder.Ctx) :
    replyOf (D.decoder.avcodecReceiveFrame ctx).1 = .again ↔
      (D.available (D.accepted ctx)).length ≤ D.taken ctx := by
  rw [← List.getElem?_eq_none_iff, taken, accepted]
  cases hs : (D.available (Prod.fst ctx))[Prod.snd ctx]? with
  | some s => simp [decoder, hs, replyOf]
  | none => simp [decoder, hs, replyOf, AVERROR_EAGAIN]

/-- With `n` frames taken, `copies` copies go in behind the packet: receive answers EAGAIN until
the last of them is in. -/
structure PutIn (D : DelayedDecoder) (before : List AVPacket) (n : ℕ) (p : AVPacket)
    (copies : ℕ) : Prop where
  enough : n < (D.available (before ++ List.replicate (copies + 1) p)).length
  again : ∀ c < copies, (D.available (before ++ List.replicate (c + 1) p)).length ≤ n

theorem PutIn.unique {before : List AVPacket} {n copies copies' : ℕ} {p : AVPacket}
    (h : D.PutIn before n p copies) (h' : D.PutIn before n p copies') : copies = copies' := by
  rcases lt_trichotomy copies copies' with hlt | heq | hlt
  · exact absurd (h'.again copies hlt) (not_le.mpr h.enough)
  · exact heq
  · exact absurd (h.again copies' hlt) (not_le.mpr h'.enough)

theorem sendPacketLoop_some {pkt : AVPacket} {fuel : ℕ} {ctx : D.decoder.Ctx}
    {res : Except CallFailure Unit × D.decoder.Ctx}
    (h : D.decoder.sendPacketLoop pkt fuel ctx = some res) :
    res = (.ok (), (D.accepted ctx ++ [pkt], D.taken ctx)) := by
  cases fuel with
  | zero => simp [Decoder.sendPacketLoop, retry] at h
  | succ fuel => exact (Option.some.inj h).symm

theorem copies_succ (before : List AVPacket) (p : AVPacket) (copies : ℕ) :
    before ++ List.replicate (copies + 1) p = before ++ [p] ++ List.replicate copies p := by
  rw [List.replicate_succ, List.append_cons]

theorem receiveFrameLoop_some {pkt : AVPacket} {fuel n : ℕ} {ps : List AVPacket} {o : AVFrame}
    {res : Except CallFailure Unit × D.decoder.Ctx × AVFrame}
    (h : D.decoder.receiveFrameLoop pkt fuel ((ps, n), o) = some res) :
    ∃ copies s, (D.available (ps ++ List.replicate copies pkt))[n]? = some s ∧
      (∀ c < copies, (D.available (ps ++ List.replicate c pkt)).length ≤ n) ∧
      res = (.ok (), (ps ++ List.replicate copies pkt, n + 1), s.frame) := by
  induction fuel generalizing ps o with
  | zero => simp [Decoder.receiveFrameLoop, retry] at h
  | succ fuel ih =>
    cases hs : (D.available ps)[n]? with
    | some s =>
      refine ⟨0, s, by simpa using hs, fun c hc => absurd hc (Nat.not_lt_zero c), ?_⟩
      have hcall : D.decoder.avcodecReceiveFrame (ps, n) = (0, s.frame, ps, n + 1) := by
        simp only [decoder, hs]
      rw [Decoder.receiveFrameLoop, retry_of_ne (by rw [hcall]; simp [replyOf]), hcall] at h
      rw [List.replicate_zero, List.append_nil]
      exact (Option.some.inj h).symm
    | none =>
      have hcall : D.decoder.avcodecReceiveFrame (ps, n) =
          (AVERROR_EAGAIN, { nbSamples := 0, data := [] }, ps, n) := by
        simp only [decoder, hs]
      have hle : (D.available ps).length ≤ n := List.getElem?_eq_none_iff.mp hs
      rw [Decoder.receiveFrameLoop, retry_of_again ((receive_again_iff (ps, n)).mpr hle),
        hcall] at h
      obtain ⟨copies, s, hslot, hagain, hres⟩ := ih h
      rw [← copies_succ] at hslot hres
      refine ⟨copies + 1, s, hslot, fun c hc => ?_, hres⟩
      cases c with
      | zero =>
        rw [List.replicate_zero, List.append_nil]
        exact hle
      | succ c =>
        rw [copies_succ]
        exact hagain c (Nat.lt_of_succ_lt_succ hc)

end DelayedDecoder

def SendExit.handed : SendExit → Option Bool
  | .sent _ _ _ => some true
  | .resample _ => some false
  | _ => none

/-- A session on a delayed decoder: `firsts` are the places of the packets
themselves, the places between them hold the copies; `handed` are the frames
given to `pcmResample`, with whether they went on to the request. -/
structure FrameFeed (D : DelayedDecoder) (ω : Resampler) where
  asr : Asr D.decoder ω
  firsts : List ℕ
  handed : List (Slot × Bool)

namespace FrameFeed
variable {D : DelayedDecoder} {ω : Resampler} {fuel : ℕ}

def new (a : Asr D.decoder ω) : FrameFeed D ω := { asr := a, firsts := [], handed := [] }

def accepted (s : FrameFeed D ω) : List AVPacket := D.accepted s.asr.audioDecoderCtx

def taken (s : FrameFeed D ω) : ℕ := D.taken s.asr.audioDecoderCtx

def handedBy (s : FrameFeed D ω) (x : SendExit) (a : Asr D.decoder ω) : Option (Slot × Bool) := do
  let onward ← x.handed
  let slot ← (D.slots (D.accepted a.audioDecoderCtx))[s.taken]?
  return (slot, onward)

def step (fuel : ℕ) (s : FrameFeed D ω) (c : AVPacket × SdkReply) :
    Outcome Halt (FrameFeed D ω) :=
  match s.asr.sendAudio fuel c.1 c.2 with
  | .error e => .halt e s
  | .ok (_, x, a) => .ok {
      asr := a
      firsts := s.firsts ++ [s.accepted.length]
      handed := s.handed ++ (s.handedBy x a).toList }

def run (fuel : ℕ) (s : FrameFeed D ω) (cs : List (AVPacket × SdkReply)) :
    Outcome Halt (FrameFeed D ω) :=
  Machine.run (step fuel) s cs

def own (s : FrameFeed D ω) : List Slot :=
  (D.slots s.accepted).filter fun slot => slot.entry ∈ s.firsts

def toResample (s : FrameFeed D ω) : List Slot := s.handed.map Prod.fst

def toRequest (s : FrameFeed D ω) : List Slot := (s.handed.filter Prod.snd).map Prod.fst

theorem sendFrame_handed {a a' : Asr D.decoder ω} {pkt : AVPacket} {frame : AVFrame}
    {sentByte ret : Int} {x : SendExit} (h : a.sendFrame pkt frame sentByte = .ok (ret, x, a')) :
    a'.audioDecoderCtx = a.audioDecoderCtx ∧ ∃ onward, x.handed = some onward := by
  simp only [Asr.sendFrame] at h
  split at h
  · cases h
    exact ⟨rfl, false, rfl⟩
  · cases h
    exact ⟨rfl, true, rfl⟩

theorem sendAudio_hands {a a' : Asr D.decoder ω} {pkt : AVPacket} {sdk : SdkReply} {ret : Int}
    {x : SendExit} (h : a.sendAudio fuel pkt sdk = .ok (ret, x, a')) :
    ∃ copies slot onward b,
      D.PutIn (D.accepted a.audioDecoderCtx) (D.taken a.audioDecoderCtx) pkt copies ∧
      D.accepted a'.audioDecoderCtx =
        D.accepted a.audioDecoderCtx ++ List.replicate (copies + 1) pkt ∧
      D.taken a'.audioDecoderCtx = D.taken a.audioDecoderCtx + 1 ∧
      (D.slots (D.accepted a'.audioDecoderCtx))[D.taken a.audioDecoderCtx]? = some slot ∧
      x.handed = some onward ∧
      Asr.sendFrame b pkt slot.frame sdk.sentByte = .ok (ret, x, a') := by
  have hctx := a.checkToken_audioDecoderCtx sdk.curTime sdk.tokenReply
  simp only [Asr.sendAudio] at h
  split at h
  · simp at h
  · next f ctx hsend =>
    have hok := DelayedDecoder.sendPacketLoop_some hsend
    cases (Prod.mk.inj hok).1
  · next ctx hsend =>
    have hok := DelayedDecoder.sendPacketLoop_some hsend
    obtain ⟨-, rfl⟩ := Prod.mk.inj hok
    split at h
    · simp at h
    · next f ctx frame hreceive =>
      obtain ⟨copies, slot, _, _, hres⟩ := DelayedDecoder.receiveFrameLoop_some hreceive
      cases (Prod.mk.inj hres).1
    · next ctx frame hreceive =>
      obtain ⟨copies, slot, hslot, hagain, hres⟩ := DelayedDecoder.receiveFrameLoop_some hreceive
      obtain ⟨-, hres⟩ := Prod.mk.inj hres
      obtain ⟨rfl, rfl⟩ := Prod.mk.inj hres
      obtain ⟨hkeep, onward, honward⟩ := sendFrame_handed h
      rw [hctx] at hkeep hslot hagain
      refine ⟨copies, slot, onward, _, ⟨?_, fun c hc => ?_⟩, ?_, ?_, ?_, honward, h⟩
      · rw [DelayedDecoder.copies_succ]
        exact (List.getElem?_eq_some_iff.mp hslot).1
      · rw [DelayedDecoder.copies_succ]
        exact hagain c hc
      · rw [hkeep, DelayedDecoder.copies_succ]
        rfl
      · rw [hkeep]
        rfl
      · rw [hkeep]
        obtain ⟨rest, hrest⟩ := D.available_prefix
          (D.accepted a.audioDecoderCtx ++ [pkt] ++ List.replicate copies pkt)
        change (D.slots (D.accepted a.audioDecoderCtx ++ [pkt] ++
          List.replicate copies pkt))[D.taken a.audioDecoderCtx]? = some slot
        rw [← hrest, List.getElem?_append_left (List.getElem?_eq_some_iff.mp hslot).1]
        exact hslot

theorem step_ok {s t : FrameFeed D ω} {c : AVPacket × SdkReply} (h : step fuel s c = ok t) :
    ∃ copies slot onward, D.PutIn s.accepted s.taken c.1 copies ∧
      t.accepted = s.accepted ++ List.replicate (copies + 1) c.1 ∧
      t.firsts = s.firsts ++ [s.accepted.length] ∧ t.taken = s.taken + 1 ∧
      (D.slots t.accepted)[s.taken]? = some slot ∧ t.handed = s.handed ++ [(slot, onward)] := by
  simp only [step] at h
  split at h
  · simp at h
  · next ret x a hsend =>
    cases h
    obtain ⟨copies, slot, onward, _, hput, haccepted, htaken, hslot, honward, _⟩ :=
      sendAudio_hands hsend
    refine ⟨copies, slot, onward, hput, haccepted, rfl, htaken, hslot, ?_⟩
    have hby : handedBy s x a = some (slot, onward) := by
      simp only [handedBy, taken]
      rw [honward, hslot]
      rfl
    change s.handed ++ (handedBy s x a).toList = _
    rw [hby]
    rfl

structure InOrder (cs : List (AVPacket × SdkReply)) (s : FrameFeed D ω) : Prop where
  taken_eq : s.taken = cs.length
  le_slots : cs.length ≤ (D.slots s.accepted).length
  handed_eq : s.toResample = (D.slots s.accepted).take cs.length

theorem InOrder.step {cs : List (AVPacket × SdkReply)} {s t : FrameFeed D ω}
    {c : AVPacket × SdkReply} (h : InOrder cs s) (hst : step fuel s c = ok t) :
    InOrder (cs ++ [c]) t := by
  obtain ⟨copies, slot, onward, -, haccepted, -, htaken, hslot, hhanded⟩ := step_ok hst
  obtain ⟨hlt, hget⟩ := List.getElem?_eq_some_iff.mp hslot
  rw [h.taken_eq] at htaken hlt
  refine ⟨by simpa using htaken, ?_, ?_⟩
  · rw [List.length_append, List.length_singleton]
    omega
  have hkeep : (D.slots t.accepted).take cs.length = (D.slots s.accepted).take cs.length := by
    rw [haccepted, D.slots_append, List.take_append_of_le_length h.le_slots]
  rw [List.length_append, List.length_singleton, List.take_add_one, hkeep, ← h.handed_eq,
    ← h.taken_eq, hslot, toResample, hhanded, List.map_append]
  rfl

theorem run_inOrder {a : Asr D.decoder ω} (ha : a.audioDecoderCtx = ([], 0))
    {cs : List (AVPacket × SdkReply)} {s : FrameFeed D ω} (h : run fuel (new a) cs = ok s) :
    InOrder cs s := by
  have hstart : InOrder [] (new a) := by
    refine ⟨?_, Nat.zero_le _, rfl⟩
    rw [taken, new, ha]
    rfl
  have hall := run_history (P := InOrder) (fun _ _ _ _ hs hst => hs.step hst) hstart h
  simpa using hall

/-- The places of a run, from the decoder and the packets alone: each packet first, then its
copies. -/
inductive Fed (D : DelayedDecoder) : List AVPacket → List AVPacket → List ℕ → Prop
  | nil : Fed D [] [] []
  | snoc {ps accepted : List AVPacket} {firsts : List ℕ} {p : AVPacket} {copies : ℕ}
      (h : Fed D ps accepted firsts) (put : D.PutIn accepted ps.length p copies) :
      Fed D (ps ++ [p]) (accepted ++ List.replicate (copies + 1) p) (firsts ++ [accepted.length])

theorem Fed.unique {ps accepted accepted' : List AVPacket} {firsts firsts' : List ℕ}
    (h : Fed D ps accepted firsts) (h' : Fed D ps accepted' firsts') :
    accepted = accepted' ∧ firsts = firsts' := by
  induction h generalizing accepted' firsts' with
  | nil =>
    generalize hnil : ([] : List AVPacket) = ps at h'
    cases h' with
    | nil => exact ⟨rfl, rfl⟩
    | snoc => simp at hnil
  | @snoc ps accepted firsts p copies _ put ih =>
    generalize hsnoc : ps ++ [p] = qs at h'
    cases h' with
    | nil => simp at hsnoc
    | snoc h' put' =>
      obtain ⟨rfl, hlast⟩ := List.append_inj' hsnoc rfl
      obtain rfl := List.singleton_inj.mp hlast
      obtain ⟨rfl, rfl⟩ := ih h'
      rw [put.unique put']
      exact ⟨rfl, rfl⟩

/-- Which places a run fills, and with which copies, is decided by the packets and by how many
frames the decoder has for each. -/
theorem run_fed {a : Asr D.decoder ω} (ha : a.audioDecoderCtx = ([], 0))
    {cs : List (AVPacket × SdkReply)} {s : FrameFeed D ω} (h : run fuel (new a) cs = ok s) :
    Fed D (cs.map Prod.fst) s.accepted s.firsts := by
  have hstart : ([] : List (AVPacket × SdkReply)).length = (new a).taken ∧
      Fed D (([] : List (AVPacket × SdkReply)).map Prod.fst) (new a).accepted (new a).firsts := by
    rw [taken, accepted, new, ha]
    exact ⟨rfl, .nil⟩
  have hall := run_history (P := fun cs s => cs.length = s.taken ∧
    Fed D (cs.map Prod.fst) s.accepted s.firsts) ?_ hstart h
  · simpa using hall.2
  · intro cs s c t hs hst
    obtain ⟨copies, slot, onward, hput, haccepted, hfirsts, htaken, -⟩ := step_ok hst
    refine ⟨by rw [List.length_append, htaken, hs.1]; rfl, ?_⟩
    rw [List.map_append, haccepted, hfirsts]
    refine hs.2.snoc ?_
    rw [List.length_map, hs.1]
    exact hput

/-- The frames handed to the resampler and to the request are those of the
packets, in order and each once, if and only if every copy put in gives no
frame or comes after as many frames as there are calls, and no frame goes on
to the request after one that did not. -/
theorem frames_once_iff (fuel : ℕ) {a : Asr D.decoder ω} (ha : a.audioDecoderCtx = ([], 0))
    {cs : List (AVPacket × SdkReply)} {s : FrameFeed D ω} (hrun : run fuel (new a) cs = ok s) :
    (s.toResample <+: s.own ∧ s.toRequest <+: s.own) ↔
      (∀ j p, s.accepted[j]? = some p → j ∉ s.firsts →
        D.frames j p = [] ∨ cs.length ≤ (D.slots (s.accepted.take j)).length) ∧
      s.handed.Pairwise fun h h' => h.2 = false → h'.2 = false := by
  obtain ⟨_, hle, hhanded⟩ := run_inOrder ha hrun
  have hnodup : (s.handed.map Prod.fst).Nodup := by
    change s.toResample.Nodup
    rw [hhanded]
    exact (D.slotsFrom_nodup 0 s.accepted).sublist (List.take_sublist _ _)
  have hcopies : s.toResample <+: s.own ↔ ∀ j p, s.accepted[j]? = some p → j ∉ s.firsts →
      D.frames j p = [] ∨ cs.length ≤ (D.slots (s.accepted.take j)).length := by
    rw [hhanded, own, take_prefix_filter_iff]
    simp only [decide_eq_true_eq]
    constructor
    · intro h j p hp hj
      by_contra hnot
      rw [not_or, not_le] at hnot
      obtain ⟨slot, hslot, rfl⟩ := (D.exists_mem_take_iff hp).mpr hnot
      exact hj (h slot hslot)
    · intro h slot hslot
      by_contra hj
      have hrange := D.entry_of_mem (List.mem_of_mem_take hslot)
      rw [Nat.zero_add] at hrange
      have hp : s.accepted[slot.entry]? = some s.accepted[slot.entry] :=
        List.getElem?_eq_getElem hrange.2
      have hgives := (D.exists_mem_take_iff hp).mp ⟨slot, hslot, rfl⟩
      rcases h slot.entry _ hp hj with hnil | hlate
      · exact hgives.1 hnil
      · exact absurd hgives.2 (not_lt.mpr hlate)
  rw [hcopies]
  apply and_congr_right
  intro hclean
  exact flagged_prefix_iff hnodup (hcopies.mpr hclean)

/-! One frame for each packet, at once or one packet later. -/

def sampleDecoder (delay : ℕ) : DelayedDecoder where
  frames _ p := match p.data with
    | .demuxed bytes => [{ nbSamples := bytes.length, data := [some bytes] }]
    | .encoded _ => []
  delay := delay

def sample (delay : ℕ) : Asr (sampleDecoder delay).decoder plainResampler :=
  ((Asr.new 0 200 ([], 0) { nbChannels := 1, sampleRate := 16000, bytesPerSample := 1 }).start
    Asr.sampleToken (some 0)).2

def sampleCalls : List (AVPacket × SdkReply) :=
  [((samplePacket 1 0 20).val, Asr.sampleSdk 2), ((samplePacket 1 20 20).val, Asr.sampleSdk 2)]

theorem frames_once_sample :
    ∃ s, run 4 (new (sample 0)) sampleCalls = ok s ∧ s.toResample.length = 2 ∧
      s.toResample <+: s.own ∧ s.toRequest <+: s.own := by
  have hrun : run 4 (new (sample 0)) sampleCalls =
      ok (run 4 (new (sample 0)) sampleCalls).state := rfl
  have hfirsts : (run 4 (new (sample 0)) sampleCalls).state.firsts = [0, 1] := rfl
  have haccepted : (run 4 (new (sample 0)) sampleCalls).state.accepted.length = 2 := rfl
  have hflags : (run 4 (new (sample 0)) sampleCalls).state.handed.map Prod.snd = [true, true] := by
    decide +kernel
  refine ⟨_, hrun, by decide +kernel, (frames_once_iff 4 (a := sample 0) rfl hrun).mpr ⟨?_, ?_⟩⟩
  · intro j p hp hj
    have hlt := (List.getElem?_eq_some_iff.mp hp).1
    rw [haccepted] at hlt
    rw [hfirsts] at hj
    have hmem : j ∈ [0, 1] := by
      rw [List.mem_pair]
      omega
    exact absurd hmem hj
  · have hsorted : ((run 4 (new (sample 0)) sampleCalls).state.handed.map Prod.snd).Pairwise
        fun b c => b = false → c = false := by
      rw [hflags]
      decide
    exact List.pairwise_map.mp hsorted

theorem copy_handed_on :
    ¬ ∀ (D : DelayedDecoder) (ω : Resampler) (fuel : ℕ) (a : Asr D.decoder ω)
      (cs : List (AVPacket × SdkReply)) (s : FrameFeed D ω), a.audioDecoderCtx = ([], 0) →
      run fuel (new a) cs = ok s → s.toResample <+: s.own ∧ s.toRequest <+: s.own := by
  intro h
  have hboth := h (sampleDecoder 1) plainResampler 4 (sample 1) sampleCalls
    (run 4 (new (sample 1)) sampleCalls).state rfl rfl
  exact absurd hboth.1 (by decide +kernel)

end FrameFeed

end RtmpRelay
