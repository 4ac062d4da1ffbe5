import RtmpRelay.Sessions

/-!
# The token over a history of refreshes

`m_token` and `m_expireTime` are set together, by a `generateToken` that
succeeds: the one in `start`, or the one in `checkToken`, which is reached only
without a token and near the expiry. The machine beside the client holds the
token that a caller would, who takes every answer while there is no token. The
sessions of the recogniser make these calls and no others.
-/

namespace RtmpRelay.Asr

open Machine Media

variable {δ : Decoder} {ω : Resampler} {a : Asr δ ω} {t : TokenReply} {curTime : Int}

inductive TokenCall
  | generateToken (t : TokenReply)
  | checkToken (curTime : Int) (t : TokenReply)
  deriving DecidableEq, Repr

def TokenCall.apply (a : Asr δ ω) : TokenCall → Asr δ ω
  | .generateToken t => (a.generateToken t).2
  | .checkToken curTime t => (a.checkToken curTime t).2

def TokenCall.clock : TokenCall → Option Int
  | .generateToken _ => none
  | .checkToken curTime _ => some curTime

structure Held where
  token : String
  expireTime : Int
  deriving DecidableEq, Repr

def held (a : Asr δ ω) : Held := ⟨a.token, a.expireTime⟩

def granted (t : TokenReply) : Held := ⟨t.token, t.expireTime⟩

def Near (h : Held) (curTime : Int) : Prop := narrowLong (h.expireTime - curTime) < 10

instance (h : Held) (curTime : Int) : Decidable (Near h curTime) :=
  inferInstanceAs (Decidable (_ < _))

/-- An answer that `checkToken` returns 0 on. -/
def Accepted (t : TokenReply) : Prop := 0 ≤ t.retCode ∧ t.token ≠ "" ∧ 0 ≤ t.expireTime

def Lasting (h : Held) (curTime : Int) : Prop := h.token ≠ "" ∧ curTime + 10 ≤ h.expireTime

/-- A check that returns 0 leaves a token with ten seconds to go, and a
`generateToken` that fails, in a check or not, leaves the token as it was. -/
def Guaranteed (a : Asr δ ω) : TokenCall → Prop
  | .generateToken t => (a.generateToken t).1 < 0 → (a.generateToken t).2.held = a.held
  | .checkToken curTime t =>
    ((a.checkToken curTime t).1 = 0 → Lasting (a.checkToken curTime t).2.held curTime) ∧
      ((a.generateToken t).1 < 0 → (a.checkToken curTime t).2.held = a.held)

namespace Held

def next (h : Held) : TokenCall → Held
  | .generateToken t => if t.retCode < 0 then h else granted t
  | .checkToken _ t => if h.token = "" ∧ 0 ≤ t.retCode then granted t else h

/-- What `checkToken` does not test: the expiry of a token it has, the token of
an expiry it trusts, and the expiry of the token it is given. -/
def Safe (h : Held) : TokenCall → Prop
  | .generateToken _ => True
  | .checkToken curTime t =>
    (h.token ≠ "" → curTime + 10 ≤ h.expireTime) ∧ (h.token = "" → Near h curTime) ∧
      (h.token = "" → Accepted t → curTime + 10 ≤ t.expireTime)

end Held

/-! What one call does to the token. -/

theorem generateToken_failed (h : t.retCode < 0) : a.generateToken t = (t.retCode, a) := if_pos h

theorem generateToken_granted (h : 0 ≤ t.retCode) :
    (a.generateToken t).1 = 0 ∧ (a.generateToken t).2.held = granted t := by
  rw [generateToken, if_neg (Int.not_lt.mpr h)]
  exact ⟨rfl, rfl⟩

theorem generateToken_neg_iff : (a.generateToken t).1 < 0 ↔ t.retCode < 0 := by
  by_cases hneg : t.retCode < 0
  · rw [generateToken_failed hneg]
  · rw [(generateToken_granted (Int.not_lt.mp hneg)).1]
    simpa using hneg

theorem checkToken_of_token (h : a.token ≠ "") : a.checkToken curTime t = (0, a) := if_neg h

theorem checkToken_of_not_near (h : a.token = "") (hfar : ¬ Near a.held curTime) :
    a.checkToken curTime t = (0, a) := by
  rw [checkToken, if_pos h]
  exact if_neg hfar

theorem checkToken_failed (h : a.token = "") (hnear : Near a.held curTime)
    (hneg : t.retCode < 0) : a.checkToken curTime t = (-1, a) := by
  have hnear' : narrowLong (a.expireTime - curTime) < 10 := hnear
  rw [checkToken, if_pos h, if_pos hnear', generateToken_failed hneg]
  exact if_pos hneg

theorem checkToken_granted (h : a.token = "") (hnear : Near a.held curTime)
    (hpos : 0 ≤ t.retCode) :
    (a.checkToken curTime t).2 = (a.generateToken t).2 ∧
      ((a.checkToken curTime t).1 = 0 ↔ Accepted t) := by
  have hnear' : narrowLong (a.expireTime - curTime) < 10 := hnear
  have hneg : ¬ t.retCode < 0 := Int.not_lt.mpr hpos
  rw [checkToken, if_pos h, if_pos hnear']
  simp only [generateToken, if_neg hneg, Accepted]
  split_ifs with hzero hempty
  · exact absurd hzero (by decide)
  · refine ⟨rfl, ?_, ?_⟩
    · intro hcode
      have hcode' : (-2 : Int) = 0 := hcode
      omega
    · rintro ⟨_, htoken, htime⟩
      rcases hempty with h' | h'
      · exact absurd h' htoken
      · exact absurd htime (Int.not_le.mpr h')
  · refine ⟨rfl, fun _ => ⟨hpos, ?_, ?_⟩, fun _ => rfl⟩
    · exact fun h' => hempty (Or.inl h')
    · exact Int.not_lt.mp fun h' => hempty (Or.inr h')

theorem checkToken_frozen (h : a.token ≠ "") (checks : List (Int × TokenReply)) :
    checks.foldl (fun a c => (a.checkToken c.1 c.2).2) a = a := by
  induction checks with
  | nil => rfl
  | cons c checks ih =>
    rw [List.foldl_cons, checkToken_of_token h]
    exact ih

/-- So it is accepted at every later time, however many checks come between. -/
theorem checkToken_outlived (h : a.token ≠ "") (hlate : a.expireTime < curTime + 10)
    {m : Asr δ ω} {checks : List (Int × TokenReply)}
    (hm : m = checks.foldl (fun a c => (a.checkToken c.1 c.2).2) a) :
    (m.checkToken curTime t).1 = 0 ∧ ¬ Lasting (m.checkToken curTime t).2.held curTime := by
  rw [checkToken_frozen h] at hm
  rw [hm, checkToken_of_token h]
  refine ⟨rfl, ?_⟩
  intro hlasting
  exact absurd hlasting.2 (Int.not_le.mpr hlate)

/-! One call next to the token that a caller would hold. -/

theorem guaranteed_checkToken_iff (a : Asr δ ω) (curTime : Int) (t : TokenReply) :
    Guaranteed a (.checkToken curTime t) ↔ a.held.Safe (.checkToken curTime t) := by
  by_cases htoken : a.token = ""
  · have hheld : a.held.token = "" := htoken
    by_cases hnear : Near a.held curTime
    · rw [Guaranteed, generateToken_neg_iff]
      by_cases hneg : t.retCode < 0
      · have hno : ¬ Accepted t := fun h => absurd h.1 (Int.not_le.mpr hneg)
        simp [checkToken_failed htoken hnear hneg, Held.Safe, hheld, hnear, hno]
      · have hpos := Int.not_lt.mp hneg
        obtain ⟨hstate, hzero⟩ := checkToken_granted htoken hnear hpos
        have hgrant := (generateToken_granted (a := a) hpos).2
        rw [hzero, hstate, hgrant]
        simp only [hneg, false_imp_iff, and_true, Held.Safe, hheld, hnear, Lasting, granted]
        constructor
        · intro h
          exact ⟨by simp, by simp, fun _ hyes => (h hyes).2⟩
        · intro h hyes
          exact ⟨hyes.2.1, h.2.2 trivial hyes⟩
    · simp [Guaranteed, Held.Safe, checkToken_of_not_near htoken hnear, Lasting, hheld, hnear]
  · have hheld : a.held.token ≠ "" := htoken
    simp [Guaranteed, Held.Safe, checkToken_of_token htoken, Lasting, hheld]

theorem guaranteed_iff (a : Asr δ ω) (c : TokenCall) : Guaranteed a c ↔ a.held.Safe c := by
  cases c with
  | generateToken t =>
    simp only [Held.Safe, iff_true]
    intro hneg
    rw [generateToken_failed (generateToken_neg_iff.mp hneg)]
  | checkToken curTime t => exact guaranteed_checkToken_iff a curTime t

/-- The caller takes the same answers, as long as the calls are safe. -/
theorem held_apply {c : TokenCall} (hsafe : a.held.Safe c) : (c.apply a).held = a.held.next c := by
  cases c with
  | generateToken t =>
    by_cases hneg : t.retCode < 0
    · rw [TokenCall.apply, generateToken_failed hneg, Held.next, if_pos hneg]
    · rw [TokenCall.apply, (generateToken_granted (Int.not_lt.mp hneg)).2, Held.next, if_neg hneg]
  | checkToken curTime t =>
    by_cases htoken : a.token = ""
    · have hnear := hsafe.2.1 htoken
      rw [TokenCall.apply, Held.next]
      by_cases hneg : t.retCode < 0
      · rw [checkToken_failed htoken hnear hneg, if_neg]
        exact fun h => absurd h.2 (Int.not_le.mpr hneg)
      · have hpos := Int.not_lt.mp hneg
        rw [(checkToken_granted htoken hnear hpos).1, (generateToken_granted hpos).2]
        exact (if_pos ⟨htoken, hpos⟩).symm
    · rw [TokenCall.apply, checkToken_of_token htoken, Held.next, if_neg (fun h => htoken h.1)]

theorem check_token_iff (expireTime gapMs : Int) (ctx : δ.Ctx) (pcmSrc : PcmParams)
    (calls : List TokenCall) :
    Along Guaranteed TokenCall.apply (new expireTime gapMs ctx pcmSrc : Asr δ ω) calls ↔
      Along Held.Safe Held.next ⟨"", expireTime⟩ calls := by
  have hall : ∀ c ∈ calls, (fun _ : TokenCall => True) c := fun _ _ => trivial
  refine along_iff (R := fun a h => a.held = h) ?_ ?_ rfl hall
  · rintro a h c _ rfl
    exact guaranteed_iff a c
  · rintro a h c _ rfl hsafe
    exact held_apply hsafe

def sampleCalls : List TokenCall :=
  [.generateToken sampleToken, .checkToken 1000 sampleToken, .checkToken 90000 sampleToken]

theorem check_token_expired :
    (sampleCalls.filterMap TokenCall.clock).Pairwise (· ≤ ·) ∧
      (sample.checkToken 90000 sampleToken).1 = 0 ∧
      (sample.checkToken 90000 sampleToken).2.expireTime = 90000 ∧
      ¬ Along Guaranteed TokenCall.apply
        (new 0 200 none { nbChannels := 1, sampleRate := 16000, bytesPerSample := 1 } :
          Asr pcmDecoder plainResampler) sampleCalls := by
  refine ⟨by decide, rfl, rfl, ?_⟩
  intro hall
  have hlast := (hall (sampleCalls.take 2) (.checkToken 90000 sampleToken) [] rfl).1 rfl
  exact absurd hlast.2 (by decide)

/-! The calls that the sessions make. -/

theorem apply_held_congr {b : Asr δ ω} (h : a.held = b.held) (c : TokenCall) :
    (c.apply a).held = (c.apply b).held := by
  have htoken : a.token = b.token := congrArg Held.token h
  cases c with
  | generateToken t =>
    by_cases hneg : t.retCode < 0
    · simpa [TokenCall.apply, generateToken_failed hneg] using h
    · have hpos := Int.not_lt.mp hneg
      exact (generateToken_granted hpos).2.trans (generateToken_granted hpos).2.symm
  | checkToken curTime t =>
    simp only [TokenCall.apply]
    by_cases hempty : a.token = ""
    · have hempty' : b.token = "" := htoken.symm.trans hempty
      by_cases hnear : Near a.held curTime
      · have hnear' : Near b.held curTime := h ▸ hnear
        by_cases hneg : t.retCode < 0
        · rwa [checkToken_failed hempty hnear hneg, checkToken_failed hempty' hnear' hneg]
        · have hpos := Int.not_lt.mp hneg
          rw [(checkToken_granted hempty hnear hpos).1, (checkToken_granted hempty' hnear' hpos).1]
          exact (generateToken_granted hpos).2.trans (generateToken_granted hpos).2.symm
      · have hfar : ¬ Near b.held curTime := h ▸ hnear
        rwa [checkToken_of_not_near hempty hnear, checkToken_of_not_near hempty' hfar]
    · have hsome : b.token ≠ "" := htoken ▸ hempty
      rwa [checkToken_of_token hempty, checkToken_of_token hsome]

theorem restart_held (a : Asr δ ω) (t : TokenReply) (created : Option ℕ) :
    (a.restart t created).held = (a.generateToken t).2.held := by
  have hreset : a.resetAsrTimeBase.held = a.held := rfl
  have hgen := apply_held_congr hreset (.generateToken t)
  cases created with
  | none => exact hgen
  | some id => exact hgen

theorem sendFrame_held {a' : Asr δ ω} {pkt : AVPacket} {frame : AVFrame} {sentByte ret : Int}
    {x : SendExit} (h : a.sendFrame pkt frame sentByte = .ok (ret, x, a')) : a'.held = a.held := by
  simp only [sendFrame] at h
  split at h
  · cases h
    rfl
  · cases h
    rfl

theorem sendAudio_held {fuel : ℕ} {a' : Asr δ ω} {pkt : AVPacket} {sdk : SdkReply} {ret : Int}
    {x : SendExit} (h : a.sendAudio fuel pkt sdk = .ok (ret, x, a')) :
    a'.held = (a.checkToken sdk.curTime sdk.tokenReply).2.held := by
  simp only [sendAudio] at h
  split at h
  · cases h
  · cases h
    rfl
  · split at h
    · cases h
    · cases h
      rfl
    · exact (sendFrame_held h).trans rfl

def tokenCall : SessionEvent → Option TokenCall
  | .taskFailed _ t _ => some (.generateToken t)
  | .channelClosed _ t _ => some (.generateToken t)
  | .other _ => none
  | .sendAudio _ sdk => some (.checkToken sdk.curTime sdk.tokenReply)

theorem step_held {fuel : ℕ} {s s' : Sessions δ ω} {e : SessionEvent}
    (h : Sessions.step fuel s e = .ok s') :
    s'.asr.held = (((tokenCall e).toList).foldl TokenCall.apply s.asr).held := by
  cases e with
  | taskFailed id t created =>
    simp only [Sessions.step] at h
    split_ifs at h
    cases h
    exact restart_held s.asr t _
  | channelClosed id t created =>
    simp only [Sessions.step] at h
    split_ifs at h
    cases h
    exact restart_held s.asr t _
  | other id =>
    simp only [Sessions.step] at h
    split_ifs at h
    cases h
    rfl
  | sendAudio pkt sdk =>
    simp only [Sessions.step] at h
    split at h
    · cases h
    · next hsend =>
      cases h
      exact sendAudio_held hsend

/-- The token after a run of the sessions is the one its calls leave. -/
theorem run_held {fuel : ℕ} {s s' : Sessions δ ω} {es : List SessionEvent}
    (h : Sessions.run fuel s es = .ok s') (ha : a.held = s.asr.held) :
    s'.asr.held = ((es.filterMap tokenCall).foldl TokenCall.apply a).held := by
  induction es generalizing s a with
  | nil =>
    cases h
    exact ha.symm
  | cons e es ih =>
    obtain ⟨m, hm, hrest⟩ := run_cons_ok.mp h
    have hstep := step_held hm
    cases hcall : tokenCall e with
    | none =>
      rw [hcall] at hstep
      rw [List.filterMap_cons_none hcall]
      exact ih hrest (ha.trans hstep.symm)
    | some c =>
      rw [hcall] at hstep
      rw [List.filterMap_cons_some hcall, List.foldl_cons]
      exact ih hrest ((apply_held_congr ha c).trans hstep.symm)

end RtmpRelay.Asr
