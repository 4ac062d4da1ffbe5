import RtmpRelay.Relay

/-!
# Two dictionaries with the same lines

`onSentenceEnd` searches the sentence for every key of the dictionary, in the
order in which the map is iterated, and for each segment found mutes the queue
and reports the hit. What a sequence of mute calls leaves depends only on the
set of their windows, and the segments of two dictionaries with the same keys
are permutations of each other. A blank line is a key too, for which the search
never ends. The report of the sentence itself, which comes first, does not
depend on the dictionary and is left out.
-/

namespace RtmpRelay

open Machine Machine.Outcome Media HitDict

variable {δ : Decoder} {ω : Resampler} {η : Encoder} {fuel : ℕ}

structure HitWordRequest where
  word : Str
  startTime : Int
  endTime : Int
  sentence : Str
  deriving DecidableEq, Repr

def sendHitWord (client : Bool) (sentence : Str) (item : AudioSegement) : List HitWordRequest :=
  if client then
    [{ word := item.text
       startTime := narrowInt item.start
       endTime := narrowInt item.stop
       sentence := sentence }]
  else []

structure SentenceEnd where
  result : Str
  wordList : List WordInfomation

structure Handled (δ : Decoder) (η : Encoder) where
  delayer : Delayer δ η
  reports : List HitWordRequest

namespace SentenceEnd

def handleItem (fuel : ℕ) (client : Bool) (base : Int) (sentence : Str) (s : Handled δ η)
    (item : AudioSegement) : Outcome Halt (Handled δ η) :=
  match s.delayer.replaceAudioPacket fuel (base + item.start) (base + item.stop) with
  | .halt e d => .halt e { s with delayer := d }
  | .ok d => .ok { delayer := d, reports := s.reports ++ sendHitWord client sentence item }

/-- `onSentenceEnd` with no other step in between, `base` the time base and
`dict` the keys in the order of the map. `none` is a search that has not ended. -/
def handle (search fuel : ℕ) (client : Bool) (base : Int) (dict : List Str) (e : SentenceEnd)
    (d : Delayer δ η) : Option (Outcome Halt (Handled δ η)) :=
  (hitDict search dict e.result e.wordList).map fun items =>
    Machine.run (handleItem fuel client base e.result) { delayer := d, reports := [] } items

def windows (base : Int) (items : List AudioSegement) : List (Int × Int) :=
  items.map fun item => (base + item.start, base + item.stop)

def requests (ws : List (Int × Int)) : List Delayer.Op :=
  ws.map fun w => .replaceAudioPacket w.1 w.2

theorem handleItem_ok {client : Bool} {base : Int} {sentence : Str} {s t : Handled δ η}
    {item : AudioSegement} :
    handleItem fuel client base sentence s item = .ok t ↔
      s.delayer.replaceAudioPacket fuel (base + item.start) (base + item.stop) =
          .ok t.delayer ∧
        t.reports = s.reports ++ sendHitWord client sentence item := by
  obtain ⟨d, reports⟩ := t
  rw [handleItem]
  cases s.delayer.replaceAudioPacket fuel (base + item.start) (base + item.stop) with
  | halt e d => simp
  | ok d => simp [eq_comm]

theorem handleItems_ok {client : Bool} {base : Int} {sentence : Str} {s t : Handled δ η}
    {items : List AudioSegement} :
    Machine.run (handleItem fuel client base sentence) s items = .ok t ↔
      Delayer.run fuel s.delayer (requests (windows base items)) = .ok t.delayer ∧
        t.reports = s.reports ++ items.flatMap (sendHitWord client sentence) := by
  induction items generalizing s with
  | nil =>
    obtain ⟨d, reports⟩ := s
    obtain ⟨d', reports'⟩ := t
    simp [requests, windows, Delayer.run, eq_comm]
  | cons item items ih =>
    have hcons : requests (windows base (item :: items)) =
        .replaceAudioPacket (base + item.start) (base + item.stop) ::
          requests (windows base items) := rfl
    rw [hcons, Delayer.run, run_cons_ok, run_cons_ok, List.flatMap_cons, ← List.append_assoc]
    constructor
    · intro h
      obtain ⟨m, hm, hrest⟩ := h
      obtain ⟨hd, hreports⟩ := handleItem_ok.mp hm
      obtain ⟨hrun, hall⟩ := ih.mp hrest
      rw [hreports] at hall
      exact ⟨⟨m.delayer, hd, hrun⟩, hall⟩
    · intro h
      obtain ⟨⟨d, hd, hrun⟩, hreports⟩ := h
      exact ⟨{ delayer := d, reports := s.reports ++ sendHitWord client sentence item },
        handleItem_ok.mpr ⟨hd, rfl⟩, ih.mpr ⟨hrun, hreports⟩⟩

/-! The handler is a run of the relay in which only its callback moves. -/

theorem callback_item {s : Relay δ ω η} {k : ℕ} {item : AudioSegement}
    {rest : List CallbackStep} (hk : s.callbacks[k]? = some (.hit item :: rest))
    {d : Delayer δ η} (hd : s.delayer.replaceAudioPacket fuel (s.asr.getTimeBase + item.start)
      (s.asr.getTimeBase + item.stop) = .ok d) :
    ∃ t, Relay.run fuel s (List.replicate 3 (.callback k)) = .ok t ∧ t.delayer = d ∧
      t.asr = s.asr ∧ t.callbacks[k]? = some rest := by
  have hlt : k < s.callbacks.length := (List.getElem?_eq_some_iff.mp hk).1
  have hset : ∀ (u : Relay δ ω η) (steps : List CallbackStep), k < u.callbacks.length →
      (u.setCallback k steps).callbacks[k]? = some steps :=
    fun u steps h => List.getElem?_set_self h
  have hkeep : ∀ (u : Relay δ ω η) (steps : List CallbackStep),
      (u.setCallback k steps).callbacks.length = u.callbacks.length :=
    fun u steps => List.length_set
  let s₁ := s.setCallback k (.replaceAudioPacket (s.asr.getTimeBase + item.start)
    (s.asr.getTimeBase + item.stop) :: .sendHitWord item :: rest)
  let s₂ : Relay δ ω η := { s₁.setCallback k (.sendHitWord item :: rest) with delayer := d }
  have hlt₁ : k < s₁.callbacks.length := (hkeep s _).symm ▸ hlt
  have hlt₂ : k < s₂.callbacks.length := (hkeep s₁ _).symm ▸ hlt₁
  have hfirst : Relay.step fuel s (.callback k) = .ok s₁ := by
    rw [Relay.step, hk]
    rfl
  have hsecond : Relay.step fuel s₁ (.callback k) = .ok s₂ := by
    rw [Relay.step, hset s _ hlt]
    change (s₁.setCallback k _).call fuel _ = _
    have hd₁ : Delayer.step fuel (s₁.setCallback k (.sendHitWord item :: rest)).delayer
        (.replaceAudioPacket (s.asr.getTimeBase + item.start) (s.asr.getTimeBase + item.stop)) =
          .ok d := hd
    rw [Relay.call, hd₁]
  have hthird : Relay.step fuel s₂ (.callback k) = .ok (s₂.setCallback k rest) := by
    have hk₂ : s₂.callbacks[k]? = some (.sendHitWord item :: rest) := hset s₁ _ hlt₁
    rw [Relay.step, hk₂]
    rfl
  refine ⟨s₂.setCallback k rest, ?_, rfl, rfl, hset s₂ rest hlt₂⟩
  exact run_cons_ok.mpr ⟨s₁, hfirst, run_cons_ok.mpr ⟨s₂, hsecond,
    run_cons_ok.mpr ⟨_, hthird, rfl⟩⟩⟩

theorem callback_items {s : Relay δ ω η} {k : ℕ} {items : List AudioSegement}
    (hk : s.callbacks[k]? = some (items.map .hit)) {d : Delayer δ η}
    (hd : Delayer.run fuel s.delayer (requests (windows s.asr.getTimeBase items)) = .ok d) :
    ∃ t, Relay.run fuel s (List.replicate (3 * items.length) (.callback k)) = .ok t ∧
      t.delayer = d := by
  induction items generalizing s with
  | nil =>
    cases hd
    exact ⟨s, rfl, rfl⟩
  | cons item items ih =>
    obtain ⟨m, hm, hrest⟩ := run_cons_ok.mp hd
    obtain ⟨u, hu, hdelayer, hasr, hcallbacks⟩ := callback_item hk hm
    rw [← hasr, ← hdelayer] at hrest
    obtain ⟨t, ht, heq⟩ := ih hcallbacks hrest
    refine ⟨t, ?_, heq⟩
    rw [List.length_cons, Nat.mul_succ, Nat.add_comm, List.replicate_add]
    exact run_append_ok.mpr ⟨u, hu, ht⟩

/-- What the handler leaves in the queue is what the relay leaves in it when
the event and the steps of its callback come one after the other. -/
theorem relay_run_handle (s : Relay δ ω η) {client : Bool} {sentence : Str}
    {items : List AudioSegement} {t : Handled δ η}
    (h : Machine.run (handleItem fuel client s.asr.getTimeBase sentence)
      { delayer := s.delayer, reports := [] } items = .ok t) :
    ∃ s', Relay.run fuel s (.sentenceEnd items ::
        List.replicate (3 * items.length + 1) (.callback s.callbacks.length)) = .ok s' ∧
      s'.delayer = t.delayer := by
  let s₁ : Relay δ ω η := { s with callbacks := s.callbacks ++ [onSentenceEnd items] }
  let s₂ := s₁.setCallback s.callbacks.length (items.map .hit)
  have hnew : s₁.callbacks[s.callbacks.length]? = some (onSentenceEnd items) :=
    List.getElem?_concat_length
  have hsecond : Relay.step fuel s₁ (.callback s.callbacks.length) = .ok s₂ := by
    rw [Relay.step, hnew]
    rfl
  have hk : s₂.callbacks[s.callbacks.length]? = some (items.map .hit) := by
    apply List.getElem?_set_self
    exact (List.getElem?_eq_some_iff.mp hnew).1
  obtain ⟨s', hs', hdelayer⟩ := callback_items hk (handleItems_ok.mp h).1
  exact ⟨s', run_cons_ok.mpr ⟨s₁, rfl, run_cons_ok.mpr ⟨s₂, hsecond, hs'⟩⟩, hdelayer⟩

/-! What a sequence of mute calls leaves. -/

def CodecSucceeds (fuel : ℕ) (d : Delayer δ η) (ws : List (Int × Int)) : Prop :=
  ∀ pre w post m, ws = pre ++ w :: post → Delayer.run fuel d (requests pre) = .ok m →
    ∃ qs r, Delayer.replaceLoop fuel w.1 w.2 m.avPacket m.replacer = .ok (qs, r) ∧
      ∀ q ∈ qs, ∀ x, q.2 = some x → x = .muted

/-- `q` is `p`, muted if it was or if one of the windows holds it. -/
def MutedBy (audioIndex : Int) (ws : List (Int × Int)) (p q : AVPacket) : Prop :=
  Carries p q ∧ (q.data.isMuted = true ↔
    p.data.isMuted = true ∨ ∃ w ∈ ws, Delayer.InWindow audioIndex w.1 w.2 p)

theorem inWindow_congr {audioIndex start stop : Int} {p q : AVPacket} (h : Carries p q) :
    Delayer.InWindow audioIndex start stop q ↔ Delayer.InWindow audioIndex start stop p := by
  rw [Delayer.InWindow, Delayer.InWindow, h.streamIndex, h.pts]

theorem mutedBy_of_replaced {audioIndex start stop : Int} {p : AVPacket}
    {q : AVPacket × Option MuteExit} (h : Delayer.Replaced audioIndex start stop p q)
    (hq : ∀ x, q.2 = some x → x = .muted) : MutedBy audioIndex [(start, stop)] p q.1 := by
  refine ⟨h.carries, ?_⟩
  simp only [List.mem_singleton, exists_eq_left]
  rw [Delayer.Replaced] at h
  split_ifs at h with hin
  · rcases h with ⟨_, hmuted, _⟩ | ⟨x, hne, hx, _⟩
    · exact iff_of_true hmuted (Or.inr hin)
    · exact absurd (hq x hx) hne
  · rw [h.1]
    simp [hin]

theorem MutedBy.trans {audioIndex : Int} {ws ws' : List (Int × Int)} {p q r : AVPacket}
    (h : MutedBy audioIndex ws p q) (h' : MutedBy audioIndex ws' q r) :
    MutedBy audioIndex (ws ++ ws') p r := by
  refine ⟨h.1.trans h'.1, ?_⟩
  rw [h'.2, h.2]
  simp only [inWindow_congr h.1, List.mem_append, or_and_right, exists_or, or_assoc]

theorem forall₂_mutedBy_trans {audioIndex : Int} {ws ws' : List (Int × Int)}
    {ps qs rs : List AVPacket} (h : List.Forall₂ (MutedBy audioIndex ws) ps qs)
    (h' : List.Forall₂ (MutedBy audioIndex ws') qs rs) :
    List.Forall₂ (MutedBy audioIndex (ws ++ ws')) ps rs := by
  induction h generalizing rs with
  | nil =>
    cases h'
    exact List.Forall₂.nil
  | cons hpq _ ih =>
    cases h' with
    | cons hqr hrest => exact List.Forall₂.cons (hpq.trans hqr) (ih hrest)

theorem CodecSucceeds.tail {d m : Delayer δ η} {w : Int × Int} {ws : List (Int × Int)}
    (h : CodecSucceeds fuel d (w :: ws))
    (hm : d.replaceAudioPacket fuel w.1 w.2 = .ok m) : CodecSucceeds fuel m ws := by
  intro pre v post t hws ht
  refine h (w :: pre) v post t (by rw [hws]; rfl) ?_
  exact run_cons_ok.mpr ⟨m, hm, ht⟩

theorem run_requests {d : Delayer δ η} {ws : List (Int × Int)} (h : CodecSucceeds fuel d ws) :
    ∃ t, Delayer.run fuel d (requests ws) = .ok t ∧ t.written = d.written ∧
      List.Forall₂ (MutedBy d.replacer.getAudioIndex ws) d.avPacket t.avPacket := by
  induction ws generalizing d with
  | nil =>
    refine ⟨d, rfl, rfl, List.forall₂_same.mpr fun p _ => ⟨Carries.refl p, ?_⟩⟩
    simp
  | cons w ws ih =>
    obtain ⟨qs, r, hloop, hmuted⟩ := h [] w ws d rfl rfl
    have hcall : d.replaceAudioPacket fuel w.1 w.2 =
        .ok { d with avPacket := qs.map Prod.fst, replacer := r } := by
      rw [Delayer.replaceAudioPacket, hloop]
    obtain ⟨hindex, hqs⟩ := Delayer.replaceLoop_ok hloop
    have hfirst : List.Forall₂ (MutedBy d.replacer.getAudioIndex [w]) d.avPacket
        (qs.map Prod.fst) := by
      rw [List.forall₂_map_right_iff]
      have hboth := (List.forall₂_and_left qs d.avPacket).mpr ⟨hmuted, hqs.flip⟩
      exact hboth.flip.imp fun p q hpq => mutedBy_of_replaced hpq.2 hpq.1
    obtain ⟨t, ht, hwritten, hrest⟩ := ih (h.tail hcall)
    refine ⟨t, run_cons_ok.mpr ⟨_, hcall, ht⟩, hwritten, ?_⟩
    rw [hindex] at hrest
    exact forall₂_mutedBy_trans hfirst hrest

/-! Two dictionaries. -/

/-- Two ends of the handler started on the same queue: the packets stand where
they stood, the same ones are muted, and the reports are the same up to order. -/
structure Agree (d : Delayer δ η) (t₁ t₂ : Handled δ η) : Prop where
  written₁ : t₁.delayer.written = d.written
  written₂ : t₂.delayer.written = d.written
  carries₁ : List.Forall₂ Carries d.avPacket t₁.delayer.avPacket
  carries₂ : List.Forall₂ Carries d.avPacket t₂.delayer.avPacket
  muted : t₁.delayer.avPacket.map (fun p => p.data.isMuted) =
    t₂.delayer.avPacket.map fun p => p.data.isMuted
  reports : t₁.reports.Perm t₂.reports

theorem muted_eq_of_windows {audioIndex : Int} {ws₁ ws₂ : List (Int × Int)}
    (hws : ∀ w, w ∈ ws₁ ↔ w ∈ ws₂) {ps qs₁ qs₂ : List AVPacket}
    (h₁ : List.Forall₂ (MutedBy audioIndex ws₁) ps qs₁)
    (h₂ : List.Forall₂ (MutedBy audioIndex ws₂) ps qs₂) :
    qs₁.map (fun p => p.data.isMuted) = qs₂.map fun p => p.data.isMuted := by
  induction h₁ generalizing qs₂ with
  | nil =>
    cases h₂
    rfl
  | cons hpq _ ih =>
    cases h₂ with
    | cons hpr hrest =>
      rw [List.map_cons, List.map_cons, ih hrest]
      congr 1
      rw [Bool.eq_iff_iff, hpq.2, hpr.2]
      simp only [hws]

theorem agree_of_perm (client : Bool) (base : Int) (sentence : Str) {d : Delayer δ η}
    {items₁ items₂ : List AudioSegement} (hperm : items₁.Perm items₂)
    (h₁ : CodecSucceeds fuel d (windows base items₁))
    (h₂ : CodecSucceeds fuel d (windows base items₂)) :
    ∃ t₁ t₂, Machine.run (handleItem fuel client base sentence)
        { delayer := d, reports := [] } items₁ = .ok t₁ ∧
      Machine.run (handleItem fuel client base sentence)
        { delayer := d, reports := [] } items₂ = .ok t₂ ∧ Agree d t₁ t₂ := by
  obtain ⟨d₁, hrun₁, hw₁, hq₁⟩ := run_requests h₁
  obtain ⟨d₂, hrun₂, hw₂, hq₂⟩ := run_requests h₂
  refine ⟨{ delayer := d₁, reports := items₁.flatMap (sendHitWord client sentence) },
    { delayer := d₂, reports := items₂.flatMap (sendHitWord client sentence) },
    handleItems_ok.mpr ⟨hrun₁, rfl⟩, handleItems_ok.mpr ⟨hrun₂, rfl⟩, ?_⟩
  refine ⟨hw₁, hw₂, hq₁.imp fun _ _ h => h.1, hq₂.imp fun _ _ h => h.1, ?_, ?_⟩
  · exact muted_eq_of_windows (fun w => (hperm.map _).mem_iff) hq₁ hq₂
  · exact hperm.flatMap_right _

theorem keys_perm {f₁ f₂ : Str} (hsame : ∀ line, line ≠ [] →
    (line ∈ getlines f₁ ↔ line ∈ getlines f₂)) {dict₁ dict₂ : List Str}
    (hdict₁ : dict₁.Perm (Dictionary.init (some f₁)).keys)
    (hdict₂ : dict₂.Perm (Dictionary.init (some f₂)).keys) (hne₁ : [] ∉ getlines f₁)
    (hne₂ : [] ∉ getlines f₂) : dict₁.Perm dict₂ := by
  have hnodup₁ := hdict₁.nodup_iff.mpr (Dictionary.init (some f₁)).nodup
  have hnodup₂ := hdict₂.nodup_iff.mpr (Dictionary.init (some f₂)).nodup
  rw [List.perm_ext_iff_of_nodup hnodup₁ hnodup₂]
  intro key
  rw [hdict₁.mem_iff, hdict₂.mem_iff, Dictionary.mem_init_some, Dictionary.mem_init_some]
  by_cases hkey : key = []
  · subst hkey
    exact iff_of_false hne₁ hne₂
  · exact hsame key hkey

theorem handle_ends {search : ℕ} {client : Bool} {base : Int} {file : Str} {dict : List Str}
    (hdict : dict.Perm (Dictionary.init (some file)).keys) {e : SentenceEnd} {d : Delayer δ η}
    {x : Outcome Halt (Handled δ η)} (h : handle search fuel client base dict e d = some x) :
    [] ∉ getlines file := by
  obtain ⟨items, hitems, _⟩ := Option.map_eq_some_iff.mp h
  rw [← hitDict_ends_iff file hdict e.result e.wordList]
  exact ⟨search, by rw [hitems]; exact Option.some_ne_none items⟩

/-- For two files with the same lines, blank ones apart, the handler ends with
the same packets muted and the same hits reported if and only if neither file
has a blank line. -/
theorem dictionary_order_iff (fuel : ℕ) {f₁ f₂ : Str}
    (hsame : ∀ line, line ≠ [] → (line ∈ getlines f₁ ↔ line ∈ getlines f₂))
    {dict₁ dict₂ : List Str} (hdict₁ : dict₁.Perm (Dictionary.init (some f₁)).keys)
    (hdict₂ : dict₂.Perm (Dictionary.init (some f₂)).keys) (client : Bool) (base : Int)
    (e : SentenceEnd) (d : Delayer δ η)
    (hcodec : ∀ search items, hitDict search dict₁ e.result e.wordList = some items ∨
      hitDict search dict₂ e.result e.wordList = some items →
        CodecSucceeds fuel d (windows base items)) :
    (∃ search t₁ t₂, handle search fuel client base dict₁ e d = some (.ok t₁) ∧
      handle search fuel client base dict₂ e d = some (.ok t₂) ∧ Agree d t₁ t₂) ↔
      [] ∉ getlines f₁ ∧ [] ∉ getlines f₂ := by
  constructor
  · intro h
    obtain ⟨search, t₁, t₂, ht₁, ht₂, _⟩ := h
    exact ⟨handle_ends hdict₁ ht₁, handle_ends hdict₂ ht₂⟩
  · intro h
    have hkeys := keys_perm hsame hdict₁ hdict₂ h.1 h.2
    have hne₂ : ∀ key ∈ dict₂, key ≠ [] := by
      rintro key hkey rfl
      exact h.2 (Dictionary.mem_init_some.mp (hdict₂.mem_iff.mp hkey))
    have hne₁ : ∀ key ∈ dict₁, key ≠ [] := fun key hkey => hne₂ key (hkeys.mem_iff.mp hkey)
    have hlen := Nat.lt_succ_self (removeSpaces e.result).length
    have hit₁ := hitDict_eq hne₁ hlen e.wordList
    have hit₂ := hitDict_eq hne₂ hlen e.wordList
    obtain ⟨t₁, t₂, ht₁, ht₂, hagree⟩ := agree_of_perm client base e.result
      (hkeys.flatMap_right _) (hcodec _ _ (Or.inl hit₁)) (hcodec _ _ (Or.inr hit₂))
    exact ⟨_, t₁, t₂, by rw [handle, hit₁, Option.map_some, ht₁],
      by rw [handle, hit₂, Option.map_some, ht₂], hagree⟩

/-! Codecs that always succeed, for concrete queues. -/

def instantDecoder : Decoder where
  Ctx := Unit
  avcodecSendPacket _ _ := (0, ())
  avcodecReceiveFrame _ := (0, { nbSamples := 0, data := [] }, ())
  nbChannels _ := 1
  bytesPerSample _ := 2

def instantEncoder : Encoder where
  Ctx := Unit
  avcodecSendFrame _ _ := (0, ())
  avcodecReceivePacket _ := (0, [], ())

theorem instant_replaceLoop (start stop : Int) (ps : List AVPacket)
    (r : Replacer instantDecoder instantEncoder) :
    ∃ qs, Delayer.replaceLoop 1 start stop ps r = .ok (qs, r) ∧
      ∀ q ∈ qs, ∀ x, q.2 = some x → x = .muted := by
  induction ps with
  | nil => exact ⟨[], rfl, by simp⟩
  | cons p ps ih =>
    obtain ⟨qs, hqs, hmuted⟩ := ih
    rw [Delayer.replaceLoop]
    split_ifs
    · have hmute : r.replaceAudioToMute 1 p = .ok (_, .muted, r) := rfl
      rw [hmute]
      dsimp only
      rw [hqs]
      refine ⟨_, rfl, ?_⟩
      intro q hq x hx
      rcases List.mem_cons.mp hq with rfl | hq
      · exact (Option.some.inj hx).symm
      · exact hmuted q hq x hx
    · rw [hqs]
      refine ⟨_, rfl, ?_⟩
      intro q hq x hx
      rcases List.mem_cons.mp hq with rfl | hq
      · cases hx
      · exact hmuted q hq x hx

theorem instant_succeeds (d : Delayer instantDecoder instantEncoder) (ws : List (Int × Int)) :
    CodecSucceeds 1 d ws := by
  intro pre w post m _ _
  obtain ⟨qs, hqs, hmuted⟩ := instant_replaceLoop w.1 w.2 m.avPacket m.replacer
  exact ⟨qs, m.replacer, hqs, hmuted⟩

def sampleQueue : Delayer instantDecoder instantEncoder :=
  { Delayer.new 1 Delayer.sampleOutput
      { audioStreamIndex := 1, audioDecoderCtx := (), audioEncoderCtx := () } "out" with
    avPacket := [(samplePacket 1 100 23).val, (samplePacket 0 100 40).val] }

-- "ab", spoken from 100 to 150
def sampleEvent : SentenceEnd :=
  { result := [97, 98], wordList := [{ text := [97, 98], startTime := 100, endTime := 150 }] }

theorem dictionary_order_iff_sample :
    (∃ search t₁ t₂,
        handle search 1 true 0 [[97, 98], [99]] sampleEvent sampleQueue = some (.ok t₁) ∧
        handle search 1 true 0 [[99], [97, 98]] sampleEvent sampleQueue = some (.ok t₂) ∧
        Agree sampleQueue t₁ t₂) ↔
      [] ∉ getlines [97, 98, 10, 99, 10] ∧ [] ∉ getlines [99, 10, 97, 98, 10, 97, 98, 10] := by
  refine dictionary_order_iff 1 ?_ (by decide) (by decide) true 0 sampleEvent sampleQueue
    fun _ _ _ => instant_succeeds _ _
  intro line _
  have h₁ : getlines [97, 98, 10, 99, 10] = [[97, 98], [99]] := by decide
  have h₂ : getlines [99, 10, 97, 98, 10, 97, 98, 10] = [[99], [97, 98], [97, 98]] := by decide
  rw [h₁, h₂]
  simp only [List.mem_cons, List.not_mem_nil, or_false, or_self]
  exact or_comm

theorem blank_line_handler_hangs :
    (∀ line, line ≠ [] → (line ∈ getlines [97, 98, 10] ↔ line ∈ getlines [97, 98, 10, 10])) ∧
      (∃ t, handle 3 1 true 0 (Dictionary.init (some [97, 98, 10])).keys sampleEvent
        sampleQueue = some (.ok t)) ∧
      ∀ search, handle search 1 true 0 (Dictionary.init (some [97, 98, 10, 10])).keys
        sampleEvent sampleQueue = none := by
  refine ⟨?_, ⟨_, rfl⟩, ?_⟩
  · intro line hline
    have h₁ : getlines [97, 98, 10] = [[97, 98]] := by decide
    have h₂ : getlines [97, 98, 10, 10] = [[97, 98], []] := by decide
    rw [h₁, h₂]
    simp [hline]
  · intro search
    rw [handle, hitDict_eq_none (by decide)]
    rfl

end SentenceEnd

end RtmpRelay
