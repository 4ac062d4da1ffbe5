import Mathlib.Data.List.Basic
import Mathlib.Tactic.Common

/-!
# Streams that arrive in chunks

A reader takes one item off the front of a buffer, or finds that the buffer
does not hold a whole item yet; what it takes it would also take with more
letters behind. A writer puts down items that a reader takes again, so every
prefix of what it wrote holds the items written whole, in order, and a rest
that is not yet an item.
-/

namespace RtmpRelay.Chunked

variable {α β : Type*}

structure Reader (α β : Type*) where
  read : List α → Option (β × ℕ)
  pos : ∀ {l b n}, read l = some (b, n) → 0 < n
  le_length : ∀ {l b n}, read l = some (b, n) → n ≤ l.length
  stable : ∀ {l b n} (m), read l = some (b, n) → read (l ++ m) = some (b, n)

namespace Reader
variable (R : Reader α β)

def drain (l : List α) : List β × List α :=
  match _h : R.read l with
  | none => ([], l)
  | some (b, n) => (b :: (drain (l.drop n)).1, (drain (l.drop n)).2)
termination_by l.length
decreasing_by
  all_goals
    have hn := R.pos _h
    have hl := R.le_length _h
    rw [List.length_drop]
    omega

def items (l : List α) : List β := (R.drain l).1

def rest (l : List α) : List α := (R.drain l).2

variable {R}

theorem read_nil : R.read [] = none := by
  cases h : R.read [] with
  | none => rfl
  | some p =>
    obtain ⟨b, n⟩ := p
    have hn := R.pos h
    have hl := R.le_length h
    rw [List.length_nil] at hl
    omega

theorem items_none {l : List α} (h : R.read l = none) : R.items l = [] := by
  rw [items, drain]
  split
  · rfl
  · rename_i b n hb
    rw [h] at hb
    cases hb

theorem rest_none {l : List α} (h : R.read l = none) : R.rest l = l := by
  rw [rest, drain]
  split
  · rfl
  · rename_i b n hb
    rw [h] at hb
    cases hb

theorem items_some {l : List α} {b : β} {n : ℕ} (h : R.read l = some (b, n)) :
    R.items l = b :: R.items (l.drop n) := by
  rw [items, drain]
  split
  · rename_i hb
    rw [h] at hb
    cases hb
  · rename_i b' n' hb
    rw [h] at hb
    cases hb
    rfl

theorem rest_some {l : List α} {b : β} {n : ℕ} (h : R.read l = some (b, n)) :
    R.rest l = R.rest (l.drop n) := by
  rw [rest, drain]
  split
  · rename_i hb
    rw [h] at hb
    cases hb
  · rename_i b' n' hb
    rw [h] at hb
    cases hb
    rfl

end Reader

/-- Items for which `P` holds are read back from what `enc` writes for them. -/
structure Writer (R : Reader α β) (P : β → Prop) (enc : β → List α) : Prop where
  read_enc : ∀ {b} (m), P b → R.read (enc b ++ m) = some (b, (enc b).length)

namespace Writer
variable {R : Reader α β} {P : β → Prop} {enc : β → List α}

theorem items_flatMap (W : Writer R P enc) {bs : List β} (hbs : ∀ b ∈ bs, P b) (m : List α) :
    R.items (bs.flatMap enc ++ m) = bs ++ R.items m := by
  induction bs with
  | nil => rfl
  | cons b bs ih =>
    have hb := W.read_enc (bs.flatMap enc ++ m) (hbs b List.mem_cons_self)
    have htl := ih fun x hx => hbs x (List.mem_cons_of_mem b hx)
    rw [List.flatMap_cons, List.append_assoc, Reader.items_some hb, List.drop_left, htl,
      List.cons_append]

theorem items_encoded (W : Writer R P enc) {bs : List β} (hbs : ∀ b ∈ bs, P b) :
    R.items (bs.flatMap enc) = bs := by
  have h := W.items_flatMap hbs []
  rw [List.append_nil, Reader.items_none Reader.read_nil, List.append_nil] at h
  exact h

/-- A prefix of a written stream holds whole items and a rest shorter than an item. -/
theorem split_prefix (W : Writer R P enc) {bs : List β} (hbs : ∀ b ∈ bs, P b) {p : List α}
    (hp : p <+: bs.flatMap enc) :
    ∃ k, R.items p = bs.take k ∧ p = (bs.take k).flatMap enc ++ R.rest p := by
  induction bs generalizing p with
  | nil =>
    obtain rfl := List.prefix_nil.mp hp
    refine ⟨0, Reader.items_none Reader.read_nil, ?_⟩
    rw [Reader.rest_none Reader.read_nil]
    rfl
  | cons b bs ih =>
    cases hr : R.read p with
    | none =>
      refine ⟨0, Reader.items_none hr, ?_⟩
      rw [Reader.rest_none hr]
      rfl
    | some q =>
      obtain ⟨b', n⟩ := q
      obtain ⟨t, ht⟩ := hp
      have hb := W.read_enc (bs.flatMap enc) (hbs b List.mem_cons_self)
      have hs := R.stable t hr
      rw [ht, List.flatMap_cons, hb] at hs
      cases hs
      have hlen := R.le_length hr
      rw [List.flatMap_cons] at ht
      have hpre : enc b <+: p :=
        List.prefix_of_prefix_length_le (ht ▸ List.prefix_append _ _) (List.prefix_append p t) hlen
      obtain ⟨p', rfl⟩ := hpre
      rw [List.append_assoc] at ht
      have hp' : p' <+: bs.flatMap enc := ⟨t, List.append_cancel_left ht⟩
      obtain ⟨k, hk, hrest⟩ := ih (fun x hx => hbs x (List.mem_cons_of_mem _ hx)) hp'
      refine ⟨k + 1, ?_, ?_⟩
      · rw [Reader.items_some hr, List.drop_left, hk, List.take_succ_cons]
      · rw [Reader.rest_some hr, List.drop_left, List.take_succ_cons, List.flatMap_cons,
          List.append_assoc, ← hrest]

theorem items_prefix (W : Writer R P enc) {bs : List β} (hbs : ∀ b ∈ bs, P b) {p : List α}
    (hp : p <+: bs.flatMap enc) : R.items p <+: bs := by
  obtain ⟨k, hk, -⟩ := W.split_prefix hbs hp
  rw [hk]
  exact List.take_prefix k bs

end Writer

end RtmpRelay.Chunked
