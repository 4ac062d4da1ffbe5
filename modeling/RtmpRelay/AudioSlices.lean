import RtmpRelay.AudioDelivery

/-!
# Slicing the audio for an encoder

With an encoder the audio of a call goes to it in slices of a fixed length,
what is left over waiting for the next call. The slices and the rest that waits
are the audio of the calls, in order, except what a refused slice takes with it:
the end of that call's audio.
-/

namespace RtmpRelay.AudioSlices

open AudioUpload AudioDelivery Media

variable {τ : Type*} {E : Env τ}

def logging (E : Env τ) : Env (τ × List (List UInt8)) where
  write := E.write
  stopCommand := E.stopCommand
  stopCommand_lt := E.stopCommand_lt
  encoderType := E.encoderType
  getFrameSampleBytes := E.getFrameSampleBytes
  nlsEncoding c frame :=
    (((E.nlsEncoding c.1 frame).1, c.2 ++ [frame]), (E.nlsEncoding c.1 frame).2)
  nlsEncoding_lt c frame payload h := E.nlsEncoding_lt c.1 frame payload h

variable {n : Node (τ × List (List UInt8))}

def heard (n : Node (τ × List (List UInt8))) : List UInt8 := n.encoder.2.flatten ++ n.audioFrame

theorem add_log (hE : E.encoderType ≠ .encoderNone) (n : Node (τ × List (List UInt8)))
    (slice : List UInt8) :
    (addAudioDataBuffer (logging E) n slice).1.encoder.2 =
      n.encoder.2 ++ if slice = [] then [] else [slice] := by
  have hE' : (logging E).encoderType ≠ .encoderNone := hE
  by_cases hnil : slice = []
  · rw [addAudioDataBuffer, if_pos hnil, if_pos hnil, List.append_nil]
  · rw [add_encoder n hnil, encoding, if_neg hE', if_neg hnil]
    rfl

theorem slice_flatten (slice : List UInt8) :
    (if slice = [] then [] else [slice] : List (List UInt8)).flatten = slice := by
  split
  · next h =>
    rw [h]
    rfl
  · rw [List.flatten_singleton]

theorem add_heard (hE : E.encoderType ≠ .encoderNone) (n : Node (τ × List (List UInt8)))
    (slice : List UInt8) :
    heard { (addAudioDataBuffer (logging E) n slice).1 with audioFrame := [] } =
      n.encoder.2.flatten ++ slice := by
  rw [heard, add_log hE, List.flatten_append, slice_flatten, List.append_nil]

/-- The slices given to the encoder: none longer than a frame, and for one encoder none shorter. -/
def Sliced (E : Env τ) (max : ℕ) (slices : List (List UInt8)) : Prop :=
  ∀ s ∈ slices, s.length ≤ max ∧ (E.encoderType = .encoderOpu → s.length = max)

/-- The call's audio reaches the encoder or waits, except an end that is lost with a refusal. -/
structure Slices (E : Env τ) (max : ℕ) (n n' : Node (τ × List (List UInt8))) (frame : List UInt8)
    (ret : ℤ) : Prop where
  heard : ∃ used, used <+: frame ∧ (0 ≤ ret → used = frame) ∧
    AudioSlices.heard n' = AudioSlices.heard n ++ used
  slices : ∃ new, n'.encoder.2 = n.encoder.2 ++ new ∧ Sliced E max new
  short : n'.audioFrame.length < max

theorem sliced_one {max : ℕ} {slice : List UInt8} (hle : slice.length ≤ max)
    (hopu : E.encoderType = .encoderOpu → slice.length = max) :
    Sliced E max (if slice = [] then [] else [slice]) := by
  intro s hs
  split at hs
  · cases hs
  · rw [List.mem_singleton.mp hs]
    exact ⟨hle, hopu⟩

theorem added_heard (hE : E.encoderType ≠ .encoderNone) (n : Node (τ × List (List UInt8)))
    (used : List UInt8) :
    heard { (addAudioDataBuffer (logging E) n (n.audioFrame ++ used)).1 with audioFrame := [] } =
      heard n ++ used := by
  rw [add_heard hE, heard, List.append_assoc]

theorem take_of_not_full {max : ℕ} {a frame : List UInt8} (ha : a.length < max)
    (h : ¬ max ≤ (a ++ frame.take (max - a.length)).length) :
    frame.take (max - a.length) = frame := by
  apply List.take_of_length_le
  rw [List.length_append, List.length_take] at h
  omega

theorem full_length {max : ℕ} {a frame : List UInt8} (ha : a.length < max)
    (h : max ≤ (a ++ frame.take (max - a.length)).length) :
    (a ++ frame.take (max - a.length)).length = max := by
  rw [List.length_append, List.length_take] at h ⊢
  omega

theorem sliceLoop_slices {max : ℕ} (hmax : 0 < max) (hE : E.encoderType ≠ .encoderNone)
    (n : Node (τ × List (List UInt8))) (frame : List UInt8) (filling_ret : ℤ)
    (hshort : n.audioFrame.length < max) :
    Slices E max n (sliceLoop (logging E) hmax n frame filling_ret).1 frame
      (sliceLoop (logging E) hmax n frame filling_ret).2 := by
  fun_induction sliceLoop (logging E) hmax n frame filling_ret with
  | case1 n frame filling_ret used slice hfull r n' hneg =>
    have hlen := full_length hshort hfull
    exact ⟨⟨used, List.take_prefix _ _, fun h => absurd hneg (Int.not_lt.mpr h),
      added_heard hE n used⟩, ⟨_, add_log hE n slice, sliced_one (Nat.le_of_eq hlen) fun _ => hlen⟩,
      hmax⟩
  | case2 n frame filling_ret used rest slice hfull r n' hpos hrest =>
    have hlen := full_length hshort hfull
    have hall : used = frame := by
      have happ : used ++ rest = frame := List.take_append_drop _ _
      rw [hrest, List.append_nil] at happ
      exact happ
    exact ⟨⟨used, List.take_prefix _ _, fun _ => hall, added_heard hE n used⟩,
      ⟨_, add_log hE n slice, sliced_one (Nat.le_of_eq hlen) fun _ => hlen⟩, hmax⟩
  | case3 n frame filling_ret used rest slice hfull r n' hpos hrest ih =>
    have hlen := full_length hshort hfull
    obtain ⟨⟨used', hpre, hall, hheard⟩, ⟨new, hnew, hsliced⟩, hless⟩ := ih hmax
    have hsplit : used ++ rest = frame := List.take_append_drop _ _
    refine ⟨⟨used ++ used', ?_, fun h => ?_, ?_⟩,
      ⟨(if slice = [] then [] else [slice]) ++ new, ?_, ?_⟩, hless⟩
    · rw [← hsplit]
      exact List.prefix_append_right_inj used |>.mpr hpre
    · rw [hall h, hsplit]
    · rw [hheard, added_heard hE n used, List.append_assoc]
    · rw [hnew, ← List.append_assoc]
      exact congrArg (· ++ new) (add_log hE n slice)
    · intro s hs
      rcases List.mem_append.mp hs with h | h
      · exact sliced_one (Nat.le_of_eq hlen) (fun _ => hlen) s h
      · exact hsliced s h
  | case4 n frame filling_ret used slice hfull hpart r n' hneg =>
    exact ⟨⟨used, List.take_prefix _ _, fun h => absurd hneg (Int.not_lt.mpr h),
      added_heard hE n used⟩, ⟨_, add_log hE n slice,
      sliced_one (Nat.le_of_not_le hfull) fun h => absurd h hpart.2⟩, hmax⟩
  | case5 n frame filling_ret used slice hfull hpart r n' hpos =>
    exact ⟨⟨used, List.take_prefix _ _, fun _ => take_of_not_full hshort hfull,
      added_heard hE n used⟩, ⟨_, add_log hE n slice,
      sliced_one (Nat.le_of_not_le hfull) fun h => absurd h hpart.2⟩, hmax⟩
  | case6 n frame filling_ret used slice hfull hpart =>
    refine ⟨⟨used, List.take_prefix _ _, fun _ => take_of_not_full hshort hfull, ?_⟩,
      ⟨[], (List.append_nil _).symm, List.forall_mem_nil _⟩, Nat.lt_of_not_le hfull⟩
    exact (List.append_assoc _ _ _).symm

section run

def call (E : Env τ) (n : Node τ) : Event → List (List UInt8 × ℤ)
  | .sendAudio data type => [(data, (AudioUpload.sendAudio E n data type).2)]
  | _ => []

def calls (E : Env τ) : Node τ → List Event → List (List UInt8 × ℤ)
  | _, [] => []
  | n, e :: es => call E n e ++ calls E (step E n e) es

/-- What was heard of a call: a front part of its audio, all of it if the call was answered. -/
def Part (call : List UInt8 × ℤ) (p : List UInt8) : Prop :=
  p <+: call.1 ∧ (0 ≤ call.2 → p = call.1)

def Encoded : Event → Prop
  | .sendAudio _ type => type ≠ .encoderNone
  | _ => True

structure Quiet (n n' : Node (τ × List (List UInt8))) : Prop where
  audioFrame : n'.audioFrame = n.audioFrame ∨ n'.audioFrame = [] ∧ n'.socketOpen = false
  encoder : n'.encoder = n.encoder
  exitStatus : n'.exitStatus = .exitInvalid → n.exitStatus = .exitInvalid

theorem Quiet.refl (n : Node (τ × List (List UInt8))) : Quiet n n := ⟨Or.inl rfl, rfl, id⟩

theorem quiet_writable (n : Node (τ × List (List UInt8))) :
    Quiet n (writeEventCallBack (logging E) n) := by
  have hr : Quiet n (if n.workStatus = .nodeStarted then
      sendStarted (logging E) { n with pending := false }
      else ({ n with pending := false }, -invalidWorkStatus)).1 := by
    split
    · have hk := kept_sendStarted (E := logging E) (n := { n with pending := false })
      exact ⟨Or.inl hk.audioFrame, hk.encoder, fun hx => hk.exitStatus ▸ hx⟩
    · exact ⟨Or.inl rfl, rfl, id⟩
  rw [writeEventCallBack]
  split
  · split
    · exact ⟨Or.inr ⟨rfl, rfl⟩, rfl, id⟩
    · rw [nodeRequestProcess]
      generalize (if n.workStatus = .nodeStarted then
        sendStarted (logging E) { n with pending := false }
        else ({ n with pending := false }, -invalidWorkStatus)) = r at hr
      split
      · rw [handlerTaskFailedEvent]
        split
        · exact ⟨Or.inr ⟨rfl, rfl⟩, hr.encoder, hr.exitStatus⟩
        · exact ⟨Or.inr ⟨rfl, rfl⟩, hr.encoder, hr.exitStatus⟩
      · exact hr
  · exact Quiet.refl n

theorem add_open {σ : Type*} {F : Env σ} {n : Node σ} {frame : List UInt8}
    (h : (addAudioDataBuffer F n frame).1.socketOpen = true) : n.socketOpen = true := by
  rcases add_cases (E := F) n frame with ⟨c, heq, -⟩ | ⟨c, payload, -, -, hr⟩
  · rw [heq] at h
    exact h
  · have hk := kept_kick (E := F) (n := push { n with encoder := c } payload)
      n.binaryEvBuffer.length
    rcases hr with ⟨-, heq⟩ | ⟨-, heq⟩
    · rw [heq] at h
      exact hk.socketOpen ▸ h
    · rw [heq, failed_closed] at h
      cases h

theorem slice_open {σ : Type*} {F : Env σ} {max : ℕ} (hmax : 0 < max) (n : Node σ)
    (frame : List UInt8) (filling_ret : ℤ)
    (h : (sliceLoop F hmax n frame filling_ret).1.socketOpen = true) : n.socketOpen = true := by
  fun_induction sliceLoop F hmax n frame filling_ret with
  | case1 n frame filling_ret used slice hfull r n' hneg => exact add_open h
  | case2 n frame filling_ret used rest slice hfull r n' hpos hrest => exact add_open h
  | case3 n frame filling_ret used rest slice hfull r n' hpos hrest ih => exact add_open (ih h)
  | case4 n frame filling_ret used slice hfull hpart r n' hneg => exact add_open h
  | case5 n frame filling_ret used slice hfull hpart r n' hpos => exact add_open h
  | case6 n frame filling_ret used slice hfull hpart => exact h

/-- The slices so far: none longer than a frame, and while the node was not asked to stop the
encoder that needs full frames got full ones. -/
structure Full (E : Env τ) (max : ℕ) (n : Node (τ × List (List UInt8))) : Prop where
  short : n.audioFrame.length < max
  le : ∀ s ∈ n.encoder.2, s.length ≤ max
  full : n.exitStatus = .exitInvalid → E.encoderType = .encoderOpu →
    ∀ s ∈ n.encoder.2, s.length = max

theorem Quiet.full {max : ℕ} {n n' : Node (τ × List (List UInt8))} (hmax : 0 < max)
    (hq : Quiet n n') (h : Full E max n) : Full E max n' := by
  refine ⟨?_, ?_, ?_⟩
  · rcases hq.audioFrame with he | ⟨he, -⟩
    · rw [he]
      exact h.short
    · rw [he]
      exact hmax
  · rw [hq.encoder]
    exact h.le
  · rw [hq.encoder]
    exact fun hexit => h.full (hq.exitStatus hexit)

theorem Quiet.heard {n n' : Node (τ × List (List UInt8))} (hq : Quiet n n')
    (ho : n'.socketOpen = true) : AudioSlices.heard n' = AudioSlices.heard n := by
  rcases hq.audioFrame with he | ⟨-, hc⟩
  · rw [AudioSlices.heard, AudioSlices.heard, hq.encoder, he]
  · rw [hc] at ho
    cases ho

theorem slices_full {max : ℕ} {n n' : Node (τ × List (List UInt8))} {frame : List UInt8} {ret : ℤ}
    (hs : Slices E max n n' frame ret) (hx : n'.exitStatus = .exitInvalid → n.exitStatus = .exitInvalid)
    (h : Full E max n) : Full E max n' := by
  obtain ⟨new, hnew, hsliced⟩ := hs.slices
  refine ⟨hs.short, ?_, ?_⟩
  · intro s hmem
    rw [hnew] at hmem
    rcases List.mem_append.mp hmem with hold | hnew'
    · exact h.le s hold
    · exact (hsliced s hnew').1
  · intro hexit hopu s hmem
    rw [hnew] at hmem
    rcases List.mem_append.mp hmem with hold | hnew'
    · exact h.full (hx hexit) hopu s hold
    · exact (hsliced s hnew').2 hopu

theorem slice_exitStatus {σ : Type*} {F : Env σ} {max : ℕ} (hmax : 0 < max) (n : Node σ)
    (frame : List UInt8) (filling_ret : ℤ) :
    (sliceLoop F hmax n frame filling_ret).1.exitStatus = n.exitStatus := by
  fun_induction sliceLoop F hmax n frame filling_ret with
  | case1 n frame filling_ret used slice hfull r n' hneg => exact add_exitStatus n slice
  | case2 n frame filling_ret used rest slice hfull r n' hpos hrest => exact add_exitStatus n slice
  | case3 n frame filling_ret used rest slice hfull r n' hpos hrest ih =>
    exact ih.trans (add_exitStatus n slice)
  | case4 n frame filling_ret used slice hfull hpart r n' hneg => exact add_exitStatus n slice
  | case5 n frame filling_ret used slice hfull hpart r n' hpos => exact add_exitStatus n slice
  | case6 n frame filling_ret used slice hfull hpart => rfl

theorem sendAudio_slices (hE : E.encoderType ≠ .encoderNone) (hmax : 0 < E.getFrameSampleBytes.toNat)
    {n : Node (τ × List (List UInt8))} (data : List UInt8) {type : EncoderType}
    (htype : type ≠ .encoderNone) (h : Full E E.getFrameSampleBytes.toNat n) :
    let r := AudioUpload.sendAudio (logging E) n data type
    Slices E E.getFrameSampleBytes.toNat n r.1 data r.2 ∧ r.1.exitStatus = n.exitStatus ∧
      (r.1.socketOpen = true → n.socketOpen = true) := by
  have hE' : (logging E).encoderType ≠ .encoderNone := hE
  have hmax' : 0 < (logging E).getFrameSampleBytes.toNat := hmax
  simp only [AudioUpload.sendAudio]
  split
  · have hneg : ¬ 0 ≤ -invokeSendAudioFailed := by decide
    exact ⟨⟨⟨[], List.nil_prefix, fun hle => absurd hle hneg, (List.append_nil _).symm⟩,
      ⟨[], (List.append_nil _).symm, List.forall_mem_nil _⟩, h.short⟩, rfl, id⟩
  · rw [addSlicedAudioDataBuffer, if_neg hE', dif_pos hmax']
    exact ⟨sliceLoop_slices hmax hE n data 0 h.short, slice_exitStatus hmax' n data 0,
      slice_open hmax' n data 0⟩

theorem remain_heard (hE : E.encoderType ≠ .encoderNone) (n : Node (τ × List (List UInt8))) :
    AudioSlices.heard (addRemainAudioData (logging E) n).1 = AudioSlices.heard n ∧
      (addRemainAudioData (logging E) n).1.audioFrame = [] ∧
      (∀ s ∈ (addRemainAudioData (logging E) n).1.encoder.2,
        s ∈ n.encoder.2 ∨ s = n.audioFrame) ∧
      ((addRemainAudioData (logging E) n).1.socketOpen = true → n.socketOpen = true) := by
  rw [addRemainAudioData]
  split
  · refine ⟨add_heard hE n n.audioFrame, rfl, fun s hs => ?_, add_open⟩
    have hlog := add_log hE n n.audioFrame
    have hs' : s ∈ (addAudioDataBuffer (logging E) n n.audioFrame).1.encoder.2 := hs
    rw [hlog] at hs'
    rcases List.mem_append.mp hs' with hold | hnew
    · exact Or.inl hold
    · split at hnew
      · cases hnew
      · exact Or.inr (List.mem_singleton.mp hnew)
  · next h =>
    exact ⟨rfl, List.eq_nil_of_length_eq_zero (Nat.eq_zero_of_not_pos h), fun s hs => Or.inl hs, id⟩

theorem stop_heard (hE : E.encoderType ≠ .encoderNone) {max : ℕ} (hmax : 0 < max)
    {n : Node (τ × List (List UInt8))} (h : Full E max n) :
    let n' := (AudioUpload.stop (logging E) n).1
    AudioSlices.heard n' = AudioSlices.heard n ∧ Full E max n' ∧
      (n'.socketOpen = true → n.socketOpen = true) := by
  simp only [AudioUpload.stop]
  split
  · exact ⟨rfl, h, id⟩
  · split
    · exact ⟨rfl, h, id⟩
    · obtain ⟨hheard, hempty, hlog, hopen⟩ := remain_heard hE n
      have hle : ∀ s ∈ (addRemainAudioData (logging E) n).1.encoder.2, s.length ≤ max := by
        intro s hs
        rcases hlog s hs with hold | hnew
        · exact h.le s hold
        · rw [hnew]
          exact Nat.le_of_lt h.short
      have hr : ∀ m : Node (τ × List (List UInt8)),
          m.encoder = (addRemainAudioData (logging E) n).1.encoder →
          m.audioFrame = (addRemainAudioData (logging E) n).1.audioFrame →
          m.exitStatus ≠ .exitInvalid →
          AudioSlices.heard m = AudioSlices.heard n ∧ Full E max m := by
        intro m henc haf hx
        refine ⟨?_, ⟨?_, ?_, fun hexit => absurd hexit hx⟩⟩
        · rw [AudioSlices.heard, henc, haf]
          exact hheard
        · rw [haf, hempty]
          exact hmax
        · rw [henc]
          exact hle
      simp only [cmdNotifyStop]
      by_cases hc : (addRemainAudioData (logging E) n).1.workStatus = .nodeStarted ∧
          (addRemainAudioData (logging E) n).1.binaryEvBuffer.length = 0
      · rw [if_pos hc]
        have hk := kept_control (E := logging E)
          (n := { (addRemainAudioData (logging E) n).1 with exitStatus := .exitStopping })
        have hx : (sendControlDirective (logging E)
            { (addRemainAudioData (logging E) n).1 with exitStatus := .exitStopping }).1.exitStatus ≠
            .exitInvalid := by
          rw [hk.exitStatus]
          exact ExitStatus.stopping_ne_invalid
        split
        · have hf := failed_encoder (sendControlDirective (logging E)
            { (addRemainAudioData (logging E) n).1 with exitStatus := .exitStopping }).1
          obtain ⟨h₁, h₂⟩ := hr _ (hf.1.trans hk.encoder) (hf.2.trans hk.audioFrame) (by
            rw [handlerTaskFailedEvent]
            split
            · exact hx
            · exact hx)
          refine ⟨h₁, h₂, fun ho => ?_⟩
          rw [failed_closed] at ho
          cases ho
        · obtain ⟨h₁, h₂⟩ := hr _ hk.encoder hk.audioFrame hx
          exact ⟨h₁, h₂, fun ho => hopen (hk.socketOpen ▸ ho)⟩
      · rw [if_neg hc, if_neg (Int.lt_irrefl 0)]
        obtain ⟨h₁, h₂⟩ := hr { (addRemainAudioData (logging E) n).1 with exitStatus := .exitStopping }
          rfl rfl ExitStatus.stopping_ne_invalid
        exact ⟨h₁, h₂, hopen⟩

def Heard (cs : List (List UInt8 × ℤ)) (ps : List (List UInt8)) : Prop :=
  List.Forall₂ Part cs ps

theorem step_slices (hE : E.encoderType ≠ .encoderNone) (hmax : 0 < E.getFrameSampleBytes.toNat)
    {n : Node (τ × List (List UInt8))} (h : Full E E.getFrameSampleBytes.toNat n) {e : Event}
    (he : Encoded e) :
    Full E E.getFrameSampleBytes.toNat (step (logging E) n e) ∧
      ((step (logging E) n e).socketOpen = true → n.socketOpen = true ∧
        ∃ ps, Heard (calls (logging E) n [e]) ps ∧
          AudioSlices.heard (step (logging E) n e) = AudioSlices.heard n ++ ps.flatten) := by
  have hquiet : ∀ n' : Node (τ × List (List UInt8)), Quiet n n' →
      (n'.socketOpen = true → n.socketOpen = true) → n'.socketOpen = true →
      n.socketOpen = true ∧ ∃ ps, Heard [] ps ∧
        AudioSlices.heard n' = AudioSlices.heard n ++ ps.flatten := fun n' hq hopen ho =>
    ⟨hopen ho, [], .nil, by rw [hq.heard ho, List.flatten_nil, List.append_nil]⟩
  cases e with
  | sendAudio data type =>
    obtain ⟨hs, hx, hopen⟩ := sendAudio_slices hE hmax data he h
    refine ⟨slices_full hs (fun hexit => hx ▸ hexit) h, fun ho => ⟨hopen ho, ?_⟩⟩
    obtain ⟨used, hpre, hall, hheard⟩ := hs.heard
    exact ⟨[used], .cons ⟨hpre, hall⟩ .nil, by rw [List.flatten_singleton]; exact hheard⟩
  | writable =>
    have hq := quiet_writable (E := E) n
    exact ⟨hq.full hmax h, hquiet _ hq fun ho => (writable_follows ho).1⟩
  | stop =>
    obtain ⟨hheard, hfull, hopen⟩ := stop_heard hE hmax h
    exact ⟨hfull, fun ho => ⟨hopen ho, [], .nil, by
      rw [List.flatten_nil, List.append_nil]
      exact hheard⟩⟩
  | cancel =>
    rw [step, AudioUpload.cancel]
    split
    · exact ⟨h, hquiet n (Quiet.refl n) id⟩
    · split
      · exact ⟨h, hquiet n (Quiet.refl n) id⟩
      · have hq : Quiet n { n with exitStatus := .exitCancel } :=
          ⟨Or.inl rfl, rfl, fun hf => by cases hf⟩
        exact ⟨hq.full hmax h, hquiet _ hq id⟩
  | closed status =>
    rw [step]
    split
    · have hq : Quiet n { closeConnectNode n with workStatus := status } :=
        ⟨Or.inr ⟨rfl, rfl⟩, rfl, id⟩
      exact ⟨hq.full hmax h, hquiet _ hq fun hf => by cases hf⟩
    · exact ⟨h, hquiet n (Quiet.refl n) id⟩

theorem run_slices (hE : E.encoderType ≠ .encoderNone) (hmax : 0 < E.getFrameSampleBytes.toNat)
    {n : Node (τ × List (List UInt8))} (h : Full E E.getFrameSampleBytes.toNat n)
    {es : List Event} (hes : ∀ e ∈ es, Encoded e) :
    Full E E.getFrameSampleBytes.toNat (run (logging E) n es) ∧
      ((run (logging E) n es).socketOpen = true → n.socketOpen = true ∧
        ∃ ps, Heard (calls (logging E) n es) ps ∧
          AudioSlices.heard (run (logging E) n es) = AudioSlices.heard n ++ ps.flatten) := by
  induction es generalizing n with
  | nil => exact ⟨h, fun ho => ⟨ho, [], .nil, (List.append_nil _).symm⟩⟩
  | cons e es ih =>
    obtain ⟨hfull, hstep⟩ := step_slices hE hmax h (hes e List.mem_cons_self)
    obtain ⟨hfull', hrun⟩ := ih hfull fun x hx => hes x (List.mem_cons_of_mem e hx)
    refine ⟨hfull', fun ho => ?_⟩
    obtain ⟨ho', qs, hqs, hheard'⟩ := hrun ho
    obtain ⟨ho'', ps, hps, hheard⟩ := hstep ho'
    refine ⟨ho'', ps ++ qs, ?_, ?_⟩
    · rw [calls, calls, List.append_nil] at hps
      rw [calls]
      exact List.rel_append hps hqs
    · rw [List.flatten_append, ← List.append_assoc, ← hheard]
      exact hheard'

/-- As long as the connection holds and no call names `ENCODER_NONE`, the encoder is given the
audio of the calls in order, in slices no longer than a frame, and what it was not given yet
waits. -/
theorem encoder_hears_calls (hE : E.encoderType ≠ .encoderNone)
    (hmax : 0 < E.getFrameSampleBytes.toNat) (limitSize : ℕ) (c : τ) {es : List Event}
    (hes : ∀ e ∈ es, Encoded e) :
    let n := run (logging E) (started limitSize (c, [])) es
    (∀ s ∈ n.encoder.2, s.length ≤ E.getFrameSampleBytes.toNat) ∧
      (E.encoderType = .encoderOpu → n.exitStatus = .exitInvalid →
        ∀ s ∈ n.encoder.2, s.length = E.getFrameSampleBytes.toNat) ∧
      (n.socketOpen = true → ∃ ps, Heard (calls (logging E) (started limitSize (c, [])) es) ps ∧
        n.encoder.2.flatten ++ n.audioFrame = ps.flatten) := by
  intro n
  have hinit : Full E E.getFrameSampleBytes.toNat (started limitSize (c, [])) :=
    ⟨hmax, List.forall_mem_nil _, fun _ _ => List.forall_mem_nil _⟩
  obtain ⟨hfull, hrun⟩ := run_slices hE hmax hinit hes
  refine ⟨hfull.le, fun hopu hexit => hfull.full hexit hopu, fun ho => ?_⟩
  obtain ⟨-, ps, hps, hheard⟩ := hrun ho
  exact ⟨ps, hps, hheard⟩

def fours : Env Unit where
  write _ := .took 100
  stopCommand := []
  stopCommand_lt := by decide
  encoderType := .encoderOpu
  getFrameSampleBytes := 4
  nlsEncoding c _ := (c, .ok [])
  nlsEncoding_lt c frame payload h := by
    cases h
    decide

theorem encoder_hears_calls_four :
    let n := run (logging fours) (started 32000 ((), []))
      [.sendAudio [1, 2, 3] .encoderOpus, .sendAudio [4, 5] .encoderOpus]
    ∀ s ∈ n.encoder.2, s.length ≤ 4 := by
  have hes : ∀ e ∈ [.sendAudio [1, 2, 3] .encoderOpus, .sendAudio [4, 5] .encoderOpus],
      Encoded e := by
    intro e he
    rcases List.mem_pair.mp he with rfl | rfl
    · exact EncoderType.opus_ne_none
    · exact EncoderType.opus_ne_none
  exact (encoder_hears_calls (E := fours) (by decide) (by decide) 32000 () hes).1

end run

end RtmpRelay.AudioSlices
