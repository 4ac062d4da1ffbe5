import Mathlib.Logic.Function.Basic
import Mathlib.Logic.Relation
import RtmpRelay.Pump

/-!
# Sections under one mutex

Threads call operations on one shared memory. A call waits for the mutex,
makes its accesses one by one and releases the mutex. Whatever the order of
the accesses, the memory is that of the calls carried out whole in the order in
which they took the mutex, and each thread's calls take it in the order of its
program. `view` is what remains to be seen of the memory after a halt. A call
gives the mutex back, or halts, exactly if its own accesses come to an end, and
where these take fuel, exactly if some fuel is enough.
-/

namespace RtmpRelay.CriticalSections

open Machine Function

variable {ε σ ω κ ν T : Type*}

inductive Access (ε σ κ : Type*)
  | next (s : σ) (k : κ)
  | leave (s : σ)
  | halt (e : ε) (s : σ)

def Access.memory : Access ε σ κ → σ
  | .next s _ => s
  | .leave s => s
  | .halt _ s => s

structure Code (ε σ ω κ : Type*) where
  enter : ω → κ
  access : κ → σ → Access ε σ κ

/-- The rest of a call, carried out alone. -/
inductive Ends (C : Code ε σ ω κ) : κ → σ → Outcome ε σ → Prop
  | next {k k' : κ} {s s' : σ} {o : Outcome ε σ} (ha : C.access k s = .next s' k')
      (h : Ends C k' s' o) : Ends C k s o
  | leave {k : κ} {s s' : σ} (ha : C.access k s = .leave s') : Ends C k s (.ok s')
  | halt {k : κ} {s s' : σ} {e : ε} (ha : C.access k s = .halt e s') : Ends C k s (.halt e s')

theorem Ends.unique {C : Code ε σ ω κ} {k : κ} {s : σ} {o o' : Outcome ε σ} (h : Ends C k s o)
    (h' : Ends C k s o') : o = o' := by
  induction h with
  | next ha _ ih =>
    cases h' with
    | next ha' hrest =>
      cases ha.symm.trans ha'
      exact ih hrest
    | leave ha' => cases ha.symm.trans ha'
    | halt ha' => cases ha.symm.trans ha'
  | leave ha =>
    cases h' with
    | next ha' => cases ha.symm.trans ha'
    | leave ha' =>
      cases ha.symm.trans ha'
      rfl
    | halt ha' => cases ha.symm.trans ha'
  | halt ha =>
    cases h' with
    | next ha' => cases ha.symm.trans ha'
    | leave ha' => cases ha.symm.trans ha'
    | halt ha' =>
      cases ha.symm.trans ha'
      rfl

/-- The same outcome, where a halt is told by its reason and the view. -/
def Same (view : σ → ν) : Outcome ε σ → Outcome ε σ → Prop
  | .ok s, .ok t => s = t
  | .halt e s, .halt e' t => e = e' ∧ view s = view t
  | _, _ => False

theorem Same.refl (view : σ → ν) (o : Outcome ε σ) : Same view o o := by
  cases o with
  | ok s => exact rfl
  | halt e s => exact ⟨rfl, rfl⟩

def Carries (C : Code ε σ ω κ) (view : σ → ν) (step : σ → ω → Outcome ε σ) : Prop :=
  ∀ op s, ∃ o, Ends C (C.enter op) s o ∧ Same view o (step s op)

structure Config (ε σ ω κ T : Type*) where
  memory : σ
  halted : Option ε
  lock : Option T
  inside : T → Option κ
  todo : T → List ω
  log : List (T × ω)

def start (s : σ) (calls : T → List ω) : Config ε σ ω κ T where
  memory := s
  halted := none
  lock := none
  inside _ := none
  todo := calls
  log := []

section threads
variable [DecidableEq T] {C : Code ε σ ω κ}

/-- A halt ends the process, with all its threads. -/
inductive Step (C : Code ε σ ω κ) : Config ε σ ω κ T → Config ε σ ω κ T → Prop
  | acquire (c : Config ε σ ω κ T) {t : T} {op : ω} {ops : List ω} (hr : c.halted = none)
      (hl : c.lock = none) (hi : c.inside t = none) (ht : c.todo t = op :: ops) :
      Step C c { c with
        lock := some t
        inside := update c.inside t (some (C.enter op))
        todo := update c.todo t ops
        log := c.log ++ [(t, op)] }
  | next (c : Config ε σ ω κ T) {t : T} {k k' : κ} {s : σ} (hr : c.halted = none)
      (hi : c.inside t = some k) (ha : C.access k c.memory = .next s k') :
      Step C c { c with memory := s, inside := update c.inside t (some k') }
  | leave (c : Config ε σ ω κ T) {t : T} {k : κ} {s : σ} (hr : c.halted = none)
      (hi : c.inside t = some k) (ha : C.access k c.memory = .leave s) :
      Step C c { c with memory := s, lock := none, inside := update c.inside t none }
  | halt (c : Config ε σ ω κ T) {t : T} {k : κ} {e : ε} {s : σ} (hr : c.halted = none)
      (hi : c.inside t = some k) (ha : C.access k c.memory = .halt e s) :
      Step C c { c with memory := s, halted := some e }

def Steps (C : Code ε σ ω κ) : Config ε σ ω κ T → Config ε σ ω κ T → Prop :=
  Relation.ReflTransGen (Step C)

def callsOf (t : T) (log : List (T × ω)) : List ω := (log.filter fun p => p.1 = t).map Prod.snd

theorem callsOf_concat (t u : T) (log : List (T × ω)) (op : ω) :
    callsOf t (log ++ [(u, op)]) = callsOf t log ++ if u = t then [op] else [] := by
  rw [callsOf, callsOf, List.filter_append, List.map_append]
  by_cases h : u = t
  · simp [h]
  · simp [h]

structure Holding (C : Code ε σ ω κ) (view : σ → ν) (step : σ → ω → Outcome ε σ) (s₀ : σ)
    (c : Config ε σ ω κ T) (t : T) : Prop where
  begun : ∃ k pre op s o, c.inside t = some k ∧ c.log = pre ++ [(t, op)] ∧
    run step s₀ (pre.map Prod.snd) = .ok s ∧ Ends C k c.memory o ∧ Same view o (step s op)

structure Serial (C : Code ε σ ω κ) (view : σ → ν) (step : σ → ω → Outcome ε σ) (s₀ : σ)
    (calls : T → List ω) (c : Config ε σ ω κ T) : Prop where
  order : ∀ t, callsOf t c.log ++ c.todo t = calls t
  alone : ∀ t k, c.inside t = some k → c.lock = some t
  free : c.halted = none → c.lock = none → run step s₀ (c.log.map Prod.snd) = .ok c.memory
  held : ∀ t, c.halted = none → c.lock = some t → Holding C view step s₀ c t
  stopped : ∀ e, c.halted = some e →
    Same view (.halt e c.memory) (run step s₀ (c.log.map Prod.snd))

variable {view : σ → ν} {step : σ → ω → Outcome ε σ} {s₀ : σ} {calls : T → List ω}
  {c c' : Config ε σ ω κ T}

theorem serial_start : Serial C view step s₀ calls (start s₀ calls : Config ε σ ω κ T) where
  order _ := rfl
  alone _ _ h := by cases h
  free _ _ := rfl
  held _ _ h := by cases h
  stopped _ h := by cases h

theorem Serial.inside_other (h : Serial C view step s₀ calls c) {t u : T}
    (hl : c.lock = some t) (hne : u ≠ t) : c.inside u = none := by
  cases hu : c.inside u with
  | none => rfl
  | some k => exact absurd (Option.some.inj ((h.alone u k hu).symm.trans hl)) hne

theorem Serial.acquire (hC : Carries C view step) (h : Serial C view step s₀ calls c) {t : T}
    {op : ω} {ops : List ω} (hr : c.halted = none) (hl : c.lock = none)
    (ht : c.todo t = op :: ops) :
    Serial C view step s₀ calls { c with
      lock := some t
      inside := update c.inside t (some (C.enter op))
      todo := update c.todo t ops
      log := c.log ++ [(t, op)] } where
  order u := by
    dsimp only
    rw [callsOf_concat]
    by_cases hu : t = u
    · rw [if_pos hu, ← hu, update_self, List.append_assoc, List.singleton_append, ← ht]
      exact h.order t
    · rw [if_neg hu, List.append_nil, update_of_ne (Ne.symm hu)]
      exact h.order u
  alone u k hi := by
    by_cases hu : u = t
    · rw [hu]
    · have hu' : c.inside u = some k := (update_of_ne hu _ _).symm.trans hi
      exact absurd ((h.alone u k hu').symm.trans hl) (Option.some_ne_none u)
  free _ hf := by cases hf
  held u _ hu := by
    obtain ⟨o, hends, hsame⟩ := hC op c.memory
    obtain rfl := Option.some.inj hu
    exact ⟨⟨C.enter op, c.log, op, c.memory, o, update_self .., rfl, h.free hr hl, hends, hsame⟩⟩
  stopped e he := by
    rw [hr] at he
    cases he

omit [DecidableEq T] in
theorem Holding.run_log {t : T} {o : Outcome ε σ} {pre : List (T × ω)} {op : ω} {s : σ}
    (hlog : c.log = pre ++ [(t, op)]) (hrun : run step s₀ (pre.map Prod.snd) = .ok s)
    (hsame : Same view o (step s op)) : Same view o (run step s₀ (c.log.map Prod.snd)) := by
  have hmap : c.log.map Prod.snd = pre.map Prod.snd ++ [op] := by
    rw [hlog, List.map_append]
    rfl
  have hlast : run step s₀ (c.log.map Prod.snd) = step s op := by
    rw [hmap, run_append, hrun, Outcome.bind_ok, run_cons]
    cases step s op with
    | ok s' => rfl
    | halt e s' => rfl
  rw [hlast]
  exact hsame

theorem Serial.next (h : Serial C view step s₀ calls c) {t : T} {k k' : κ} {s : σ}
    (hr : c.halted = none) (hi : c.inside t = some k) (ha : C.access k c.memory = .next s k') :
    Serial C view step s₀ calls { c with memory := s, inside := update c.inside t (some k') } := by
  have hl := h.alone t k hi
  refine ⟨h.order, fun u j hu => ?_, fun _ hf => ?_, fun u _ hu => ?_, fun e he => ?_⟩
  · by_cases hut : u = t
    · rw [hut]
      exact hl
    · exact h.alone u j ((update_of_ne hut _ _).symm.trans hu)
  · rw [hl] at hf
    cases hf
  · obtain rfl := Option.some.inj (hl.symm.trans hu)
    obtain ⟨j, pre, op, s', o, hj, hlog, hrun, hends, hsame⟩ := (h.held t hr hl).begun
    obtain rfl := Option.some.inj (hi.symm.trans hj)
    refine ⟨⟨k', pre, op, s', o, update_self .., hlog, hrun, ?_, hsame⟩⟩
    cases hends with
    | next ha' hend =>
      cases ha.symm.trans ha'
      exact hend
    | leave ha' => cases ha.symm.trans ha'
    | halt ha' => cases ha.symm.trans ha'
  · rw [hr] at he
    cases he

theorem Serial.leave (h : Serial C view step s₀ calls c) {t : T} {k : κ} {s : σ}
    (hr : c.halted = none) (hi : c.inside t = some k) (ha : C.access k c.memory = .leave s) :
    Serial C view step s₀ calls
      { c with memory := s, lock := none, inside := update c.inside t none } := by
  have hl := h.alone t k hi
  refine ⟨h.order, fun u j hu => ?_, fun _ _ => ?_, fun u _ hu => (by cases hu), fun e he => ?_⟩
  · by_cases hut : u = t
    · rw [hut] at hu
      cases (update_self ..).symm.trans hu
    · cases (h.inside_other hl hut).symm.trans ((update_of_ne hut _ _).symm.trans hu)
  · obtain ⟨j, pre, op, s', o, hj, hlog, hrun, hends, hsame⟩ := (h.held t hr hl).begun
    obtain rfl := Option.some.inj (hi.symm.trans hj)
    have ho : o = .ok s := by
      cases hends with
      | next ha' => cases ha.symm.trans ha'
      | leave ha' =>
        cases ha.symm.trans ha'
        rfl
      | halt ha' => cases ha.symm.trans ha'
    have hall := Holding.run_log hlog hrun hsame
    rw [ho] at hall
    cases hlast : run step s₀ (c.log.map Prod.snd) with
    | ok s'' =>
      rw [hlast] at hall
      exact congrArg Outcome.ok hall.symm
    | halt e s'' =>
      rw [hlast] at hall
      exact hall.elim
  · rw [hr] at he
    cases he

theorem Serial.halt (h : Serial C view step s₀ calls c) {t : T} {k : κ} {e : ε} {s : σ}
    (hr : c.halted = none) (hi : c.inside t = some k) (ha : C.access k c.memory = .halt e s) :
    Serial C view step s₀ calls { c with memory := s, halted := some e } := by
  have hl := h.alone t k hi
  refine ⟨h.order, h.alone, fun hf => (by cases hf), fun u hf => (by cases hf), fun e' he => ?_⟩
  obtain rfl := Option.some.inj he
  obtain ⟨j, pre, op, s', o, hj, hlog, hrun, hends, hsame⟩ := (h.held t hr hl).begun
  obtain rfl := Option.some.inj (hi.symm.trans hj)
  have ho : o = .halt e s := by
    cases hends with
    | next ha' => cases ha.symm.trans ha'
    | leave ha' => cases ha.symm.trans ha'
    | halt ha' =>
      cases ha.symm.trans ha'
      rfl
  rw [ho] at hsame
  exact Holding.run_log hlog hrun hsame

theorem Serial.stepped (hC : Carries C view step) (h : Serial C view step s₀ calls c)
    (hs : Step C c c') : Serial C view step s₀ calls c' := by
  cases hs with
  | acquire hr hl hi ht => exact h.acquire hC hr hl ht
  | next hr hi ha => exact h.next hr hi ha
  | leave hr hi ha => exact h.leave hr hi ha
  | halt hr hi ha => exact h.halt hr hi ha

/-- Every interleaving is serial, in the order in which the calls took the mutex. -/
theorem serial (hC : Carries C view step) (h : Steps C (start s₀ calls) c) :
    Serial C view step s₀ calls c := by
  induction h with
  | refl => exact serial_start
  | tail _ hs ih => exact ih.stepped hC hs

def Grows (C : Code ε σ ω κ) (view : σ → ν) (R : ν → ν → Prop) : Prop :=
  ∀ k s, R (view s) (view (C.access k s).memory)

theorem Grows.ends {R : ν → ν → Prop} (hR : Grows C view R)
    (htrans : ∀ u v w, R u v → R v w → R u w) {k : κ} {s : σ} {o : Outcome ε σ}
    (h : Ends C k s o) : R (view s) (view o.state) := by
  induction h with
  | @next k k' s s' o ha _ ih =>
    have hfirst := hR k s
    rw [ha] at hfirst
    exact htrans _ _ _ hfirst ih
  | @leave k s s' ha =>
    have hfirst := hR k s
    rw [ha] at hfirst
    exact hfirst
  | @halt k s s' e ha =>
    have hfirst := hR k s
    rw [ha] at hfirst
    exact hfirst

theorem Same.view_eq {o o' : Outcome ε σ} (h : Same view o o') : view o.state = view o'.state := by
  cases o with
  | ok s =>
    cases o' with
    | ok s' => exact congrArg view h
    | halt e s' => exact h.elim
  | halt e s =>
    cases o' with
    | ok s' => exact h.elim
    | halt e' s' => exact h.2

theorem Serial.behind {R : ν → ν → Prop} (hR : Grows C view R) (hrefl : ∀ v, R v v)
    (htrans : ∀ u v w, R u v → R v w → R u w) (h : Serial C view step s₀ calls c) :
    R (view c.memory) (view (run step s₀ (c.log.map Prod.snd)).state) := by
  cases hr : c.halted with
  | some e =>
    rw [← (h.stopped e hr).view_eq]
    exact hrefl _
  | none =>
    cases hl : c.lock with
    | none =>
      rw [h.free hr hl]
      exact hrefl _
    | some t =>
      obtain ⟨k, pre, op, s, o, -, hlog, hrun, hends, hsame⟩ := (h.held t hr hl).begun
      rw [← (Holding.run_log hlog hrun hsame).view_eq]
      exact hR.ends htrans hends

/-! How the call that holds the mutex goes on. -/

def After (c : Config ε σ ω κ T) : Outcome ε σ → Prop
  | .ok s => c.halted = none ∧ c.lock = none ∧ c.memory = s
  | .halt e s => c.halted = some e ∧ c.memory = s

theorem ends_after {k : κ} {s : σ} {o : Outcome ε σ} (h : Ends C k s o) {t : T}
    (hm : c.memory = s) (hr : c.halted = none) (hi : c.inside t = some k) :
    ∃ c', Steps C c c' ∧ c'.log = c.log ∧ After c' o := by
  induction h generalizing c with
  | @next k k' s s' o ha _ ih =>
    rw [← hm] at ha
    obtain ⟨c', hs, hlog, hafter⟩ := ih (c := { c with
      memory := s', inside := update c.inside t (some k') }) rfl hr (update_self ..)
    exact ⟨c', .head (.next c hr hi ha) hs, hlog, hafter⟩
  | leave ha =>
    rw [← hm] at ha
    exact ⟨_, .single (.leave c hr hi ha), rfl, hr, rfl, rfl⟩
  | halt ha =>
    rw [← hm] at ha
    exact ⟨_, .single (.halt c hr hi ha), rfl, rfl, rfl⟩

theorem Steps.log_le (h : Steps C c c') : c.log.length ≤ c'.log.length := by
  induction h with
  | refl => exact le_rfl
  | tail _ hs ih =>
    cases hs with
    | acquire =>
      rw [List.length_append]
      exact Nat.le_add_right_of_le ih
    | next => exact ih
    | leave => exact ih
    | halt => exact ih

theorem Steps.idle (h : Steps C c c') (hidle : c.halted ≠ none ∨ ∀ t, c.inside t = none)
    (hlog : c'.log = c.log) : c' = c := by
  have hout : ∀ t k, c.halted = none → c.inside t = some k → False := fun t k hr hi =>
    hidle.elim (fun hne => hne hr) fun hnone => by cases (hnone t).symm.trans hi
  cases h.cases_head with
  | inl heq => exact heq.symm
  | inr h =>
    obtain ⟨c₁, hstep, hrest⟩ := h
    have hle := Steps.log_le hrest
    cases hstep with
    | acquire =>
      rw [hlog, List.length_append, List.length_singleton] at hle
      exact absurd hle (Nat.not_succ_le_self _)
    | next hr hi => exact (hout _ _ hr hi).elim
    | leave hr hi => exact (hout _ _ hr hi).elim
    | halt hr hi => exact (hout _ _ hr hi).elim

theorem after_ends {t : T} {k : κ} (hs : Steps C c c') (hlog : c'.log = c.log)
    (hend : c'.lock = none ∨ c'.halted ≠ none) (hr : c.halted = none) (hl : c.lock = some t)
    (hi : c.inside t = some k) (hout : ∀ u, u ≠ t → c.inside u = none) :
    ∃ o, Ends C k c.memory o ∧ After c' o := by
  have hown : ∀ {c : Config ε σ ω κ T} {u j}, (∀ u, u ≠ t → c.inside u = none) →
      c.inside u = some j → u = t := fun hout hu => by
    by_contra hne
    cases (hout _ hne).symm.trans hu
  induction hs using Relation.ReflTransGen.head_induction_on generalizing k with
  | refl =>
    rcases hend with hf | hne
    · cases hl.symm.trans hf
    · exact absurd hr hne
  | @head c c₁ hstep hrest ih =>
    cases hstep with
    | acquire _ hf => cases hl.symm.trans hf
    | next _ hu ha =>
      obtain rfl := hown hout hu
      cases hi.symm.trans hu
      obtain ⟨o, hends, hafter⟩ := ih hlog hr hl (update_self ..) fun u hne =>
        (update_of_ne hne _ _).trans (hout u hne)
      exact ⟨o, .next ha hends, hafter⟩
    | @leave u j s _ hu ha =>
      obtain rfl := hown hout hu
      cases hi.symm.trans hu
      have hnone : ∀ v, update c.inside u none v = none := fun v => by
        by_cases hv : v = u
        · rw [hv, update_self]
        · rw [update_of_ne hv, hout v hv]
      have heq := Steps.idle hrest (Or.inr hnone) hlog
      rw [heq]
      exact ⟨.ok s, .leave ha, hr, rfl, rfl⟩
    | @halt u j e s _ hu ha =>
      obtain rfl := hown hout hu
      cases hi.symm.trans hu
      have heq := Steps.idle hrest (Or.inl (Option.some_ne_none e)) hlog
      rw [heq]
      exact ⟨.halt e s, .halt ha, rfl, rfl⟩

/-! Accesses that take fuel. -/

section fuel
variable {C : ℕ → Code ε σ ω κ} {step : ℕ → σ → ω → Outcome ε σ} {stuck : ε → Prop} {f f' : ℕ}

/-- More fuel changes nothing but the accesses that were stuck. -/
structure Fuelled (stuck : ε → Prop) (C : ℕ → Code ε σ ω κ) : Prop where
  enter : ∀ f f' op, (C f').enter op = (C f).enter op
  access : ∀ f f' k s, f ≤ f' → (∀ e s', (C f).access k s = .halt e s' → ¬ stuck e) →
    (C f').access k s = (C f).access k s

omit [DecidableEq T] in
theorem Fuelled.ends (hF : Fuelled stuck C) (hle : f ≤ f') {k : κ} {s : σ} {o : Outcome ε σ}
    (h : Ends (C f) k s o) (ho : Ended stuck o) : Ends (C f') k s o := by
  induction h with
  | @next k k' s s' o ha _ ih =>
    have hkeep := hF.access f f' k s hle fun e s' he => by cases ha.symm.trans he
    exact .next (hkeep.trans ha) (ih ho)
  | @leave k s s' ha =>
    have hkeep := hF.access f f' k s hle fun e s' he => by cases ha.symm.trans he
    exact .leave (hkeep.trans ha)
  | @halt k s s' e ha =>
    have hkeep := hF.access f f' k s hle fun e s' he => by
      cases ha.symm.trans he
      exact ho
    exact .halt (hkeep.trans ha)

theorem Fuelled.steps (hF : Fuelled stuck C) (hle : f ≤ f') (h : Steps (C f) c c')
    (hc : ∀ e, c'.halted = some e → ¬ stuck e) : Steps (C f') c c' := by
  induction h with
  | refl => exact .refl
  | @tail c₁ c₂ _ hs ih =>
    have hkeep : ∀ {k s}, (∀ e s', (C f).access k s = .halt e s' → ¬ stuck e) →
        (C f').access k s = (C f).access k s := fun {k s} => hF.access f f' k s hle
    cases hs with
    | @acquire t op ops hr hl hi ht =>
      rw [← hF.enter f f' op]
      exact (ih fun e he => by cases hr.symm.trans he).tail (.acquire c₁ hr hl hi ht)
    | next hr hi ha =>
      refine (ih fun e he => by cases hr.symm.trans he).tail (.next c₁ hr hi ?_)
      exact (hkeep fun e s' he => by cases ha.symm.trans he).trans ha
    | leave hr hi ha =>
      refine (ih fun e he => by cases hr.symm.trans he).tail (.leave c₁ hr hi ?_)
      exact (hkeep fun e s' he => by cases ha.symm.trans he).trans ha
    | halt hr hi ha =>
      refine (ih fun e he => by cases hr.symm.trans he).tail (.halt c₁ hr hi ?_)
      refine (hkeep fun e s' he => ?_).trans ha
      cases ha.symm.trans he
      exact hc _ rfl

/-- The mutex is free, or the process has halted and not by a call that spins. -/
def Freed (stuck : ε → Prop) (c : Config ε σ ω κ T) : Prop :=
  c.halted = none ∧ c.lock = none ∨ ∃ e, c.halted = some e ∧ ¬ stuck e

/-- The mutex comes free, or the process ends, exactly if the call that holds it comes to an
end. -/
theorem freed_iff (hC : ∀ f, Carries (C f) view (step f)) (hF : Fuelled stuck C)
    (h : Steps (C f) (start s₀ calls) c) (hr : c.halted = none) :
    (∃ f' c', f ≤ f' ∧ Steps (C f') c c' ∧ c'.log = c.log ∧ Freed stuck c') ↔
      ∀ t k, c.inside t = some k → ∃ f' o, Ends (C f') k c.memory o ∧ Ended stuck o := by
  have hserial := serial (hC f) h
  constructor
  · intro hfreed t k hi
    obtain ⟨f', c', -, hs, hlog, hfreed⟩ := hfreed
    have hl := hserial.alone t k hi
    have hend : c'.lock = none ∨ c'.halted ≠ none := by
      obtain ⟨-, hfree⟩ | ⟨e, he, -⟩ := hfreed
      · exact Or.inl hfree
      · exact Or.inr (by rw [he]; exact Option.some_ne_none e)
    obtain ⟨o, hends, hafter⟩ := after_ends hs hlog hend hr hl hi fun u => hserial.inside_other hl
    refine ⟨f', o, hends, ?_⟩
    cases o with
    | ok s => trivial
    | halt e s =>
      obtain ⟨hnone, -⟩ | ⟨e', he', hstuck⟩ := hfreed
      · cases hnone.symm.trans hafter.1
      · cases he'.symm.trans hafter.1
        exact hstuck
  · intro hready
    cases hl : c.lock with
    | none => exact ⟨f, c, le_rfl, .refl, rfl, Or.inl ⟨hr, hl⟩⟩
    | some t =>
      obtain ⟨k, -, -, -, -, hk, -⟩ := (hserial.held t hr hl).begun
      obtain ⟨f₁, o, hends, hended⟩ := hready t k hk
      have hmore := hF.ends (le_max_right f f₁) hends hended
      obtain ⟨c', hs, hlog, hafter⟩ := ends_after hmore rfl hr hk
      refine ⟨max f f₁, c', le_max_left f f₁, hs, hlog, ?_⟩
      cases o with
      | ok s => exact Or.inl ⟨hafter.1, hafter.2.1⟩
      | halt e s => exact Or.inr ⟨e, hafter.1, hended⟩

end fuel

end threads

end RtmpRelay.CriticalSections
