import RtmpRelay.HitDict
import Mathlib.Data.List.Chain

/-!
# What the segments cover

With ordered word times the segment of an occurrence covers every word that has
a byte in it. The search for a key goes on behind the last match, so an
occurrence that overlaps the one before it gets no segment of its own: the
words are covered up to the end of the occurrence it starts in, and those
behind that may be missed.
-/

namespace RtmpRelay

open Occurrences HitDict

/-- `startTime ≤ endTime ≤` the next `startTime`. -/
structure Timed (wordList : List WordInfomation) : Prop where
  le : ∀ item ∈ wordList, item.startTime ≤ item.endTime
  next_le : wordList.IsChain fun a b => a.endTime ≤ b.startTime

namespace Timed
variable {wordList : List WordInfomation}

theorem tail {item : WordInfomation} (h : Timed (item :: wordList)) : Timed wordList where
  le := fun a ha => h.le a (List.mem_cons_of_mem item ha)
  next_le := h.next_le.tail

theorem endTime_le {item b : WordInfomation} (h : Timed (item :: wordList)) (hb : b ∈ wordList) :
    item.endTime ≤ b.startTime := by
  induction wordList generalizing item with
  | nil => simp at hb
  | cons a items ih =>
    have hnext : item.endTime ≤ a.startTime := (List.isChain_cons_cons.mp h.next_le).1
    rcases List.mem_cons.mp hb with rfl | hmem
    · exact hnext
    · have ha := h.le a (List.mem_cons_of_mem item List.mem_cons_self)
      have hrest := ih h.tail hmem
      omega

theorem wordAt_mono (h : Timed wordList) {p q : ℕ} (hpq : p ≤ q) {a b : WordInfomation}
    (ha : wordAt wordList p = some a) (hb : wordAt wordList q = some b) :
    a.startTime ≤ b.startTime ∧ a.endTime ≤ b.endTime := by
  induction wordList generalizing p q with
  | nil => simp [wordAt] at ha
  | cons item items ih =>
    rw [wordAt] at ha hb
    split_ifs at ha hb with hp hq hq
    · cases ha.symm.trans hb
      exact ⟨Int.le_refl _, Int.le_refl _⟩
    · cases ha
      obtain ⟨before, after, heq, _, _⟩ := wordAt_eq_some_iff.mp hb
      have hmem : b ∈ items := by
        rw [heq]
        exact List.mem_append_right before List.mem_cons_self
      have hstart := h.endTime_le hmem
      have hfirst := h.le a List.mem_cons_self
      have hlast := h.le b (List.mem_cons_of_mem a hmem)
      constructor
      · omega
      · omega
    · omega
    · exact ih h.tail (by omega) ha hb

end Timed

/-- Every word with a byte from `start` up to `stop` lies inside a segment. -/
def Covered (wordList : List WordInfomation) (out : List AudioSegement) (start stop : ℕ) : Prop :=
  ∀ k item, start ≤ k → k < stop → wordAt wordList k = some item →
    ∃ segment ∈ out, segment.start ≤ item.startTime ∧ item.endTime ≤ segment.stop

theorem Covered.mono {wordList : List WordInfomation} {out : List AudioSegement}
    {start stop start' : ℕ} (h : Covered wordList out start stop) (hle : start ≤ start') :
    Covered wordList out start' stop :=
  fun k item hk => h k item (hle.trans hk)

theorem HitDict.Located.covers {wordList : List WordInfomation} (htimed : Timed wordList)
    {key : Str} {pos k : ℕ} {segment : AudioSegement} (h : Located wordList (key, pos) segment)
    (hlo : pos ≤ k) (hhi : k < pos + key.length) {item : WordInfomation}
    (hitem : wordAt wordList k = some item) :
    segment.start ≤ item.startTime ∧ item.endTime ≤ segment.stop := by
  obtain ⟨_, first, last, hfirst, hlast, hstart, hstop⟩ := h
  rw [hstart, hstop]
  exact ⟨(htimed.wordAt_mono hlo hfirst hitem).1,
    (htimed.wordAt_mono (Nat.le_sub_one_of_lt hhi) hitem hlast).2⟩

theorem covered_of_mem {wordList : List WordInfomation} (htimed : Timed wordList)
    {dict : List Str} {key : Str} (hkey : key ∈ dict) (hne : key ≠ []) {pos : ℕ}
    (hpos : pos ∈ occurrences key (texts wordList)) :
    Covered wordList (dict.flatMap fun key =>
      (occurrences key (texts wordList)).map (segmentAt wordList key)) pos (pos + key.length) := by
  intro k item hlo hhi hitem
  refine ⟨segmentAt wordList key pos, ?_, ?_⟩
  · exact List.mem_flatMap.mpr ⟨key, hkey, List.mem_map_of_mem hpos⟩
  · exact (segmentAt_located hne (occurrences_occursAt hpos)).covers htimed hlo hhi hitem

/-- The words of every occurrence that the search takes are covered. Any other
occurrence starts inside one that is taken, and its words are covered as far as
that one reaches. -/
theorem hitDict_covers {d : Dictionary} (hne : ∀ key ∈ d.keys, key ≠ []) {dict : List Str}
    (hdict : dict.Perm d.keys) {sentence : Str} {wordList : List WordInfomation}
    (hwords : texts wordList = removeSpaces sentence) (htimed : Timed wordList) :
    ∃ out, (∀ fuel, (removeSpaces sentence).length < fuel →
        hitDict fuel dict sentence wordList = some out) ∧
      ∀ key ∈ d.keys,
        (∀ q ∈ occurrences key (removeSpaces sentence),
          Covered wordList out q (q + key.length)) ∧
        ∀ q, OccursAt key (removeSpaces sentence) q → q ∉ occurrences key (removeSpaces sentence) →
          ∃ p ∈ occurrences key (removeSpaces sentence), p < q ∧ q < p + key.length ∧
            Covered wordList out q (p + key.length) := by
  have hkeys : ∀ key ∈ dict, key ≠ [] := fun key hkey => hne key (hdict.mem_iff.mp hkey)
  refine ⟨_, fun fuel hfuel => hitDict_eq hkeys hfuel wordList, ?_⟩
  rw [← hwords]
  intro key hkey
  have hmem : key ∈ dict := hdict.mem_iff.mpr hkey
  constructor
  · intro q hq
    exact covered_of_mem htimed hmem (hne key hkey) hq
  · intro q hocc hq
    rcases occurrences_cover (hne key hkey) hocc with htaken | ⟨p, hp, hlo, hhi⟩
    · exact absurd htaken hq
    · exact ⟨p, hp, hlo, hhi, (covered_of_mem htimed hmem (hne key hkey) hp).mono hlo.le⟩

/-! Five words of one byte, "a", "b", "a", "b", "a", and the key "aba". -/

def sampleSyllables : List WordInfomation :=
  [{ text := [97], startTime := 0, endTime := 100 },
    { text := [98], startTime := 100, endTime := 200 },
    { text := [97], startTime := 200, endTime := 300 },
    { text := [98], startTime := 300, endTime := 400 },
    { text := [97], startTime := 400, endTime := 500 }]

theorem sampleSyllables_timed : Timed sampleSyllables where
  le := by decide
  next_le := by decide

theorem hitDict_covers_sample :
    ∃ out, hitDict 6 [[97, 98, 97]] [97, 98, 97, 98, 97] sampleSyllables = some out ∧
      Covered sampleSyllables out 0 3 := by
  obtain ⟨out, hout, hall⟩ := hitDict_covers (d := Dictionary.init (some [97, 98, 97]))
    (by decide) (List.Perm.refl [[97, 98, 97]])
    (show texts sampleSyllables = removeSpaces [97, 98, 97, 98, 97] by decide)
    sampleSyllables_timed
  exact ⟨out, hout 6 (by decide), (hall [97, 98, 97] (by decide)).1 0 (by decide)⟩

theorem overlap_not_covered :
    ¬ ∀ (d : Dictionary) (dict : List Str) (sentence : Str) (wordList : List WordInfomation)
      (fuel : ℕ) (out : List AudioSegement), (∀ key ∈ d.keys, key ≠ [] ∧ removeSpaces key = key) →
      dict.Perm d.keys → texts wordList = removeSpaces sentence → Timed wordList →
      hitDict fuel dict sentence wordList = some out →
      ∀ key ∈ d.keys, ∀ q, OccursAt key (removeSpaces sentence) q →
        Covered wordList out q (q + key.length) := by
  intro h
  have hcovered := h (Dictionary.init (some [97, 98, 97])) [[97, 98, 97]] [97, 98, 97, 98, 97]
    sampleSyllables 6 _ (by decide) (List.Perm.refl _) (by decide) sampleSyllables_timed rfl
    [97, 98, 97] (by decide) 2 (by decide) 3 _ (by decide) (by decide) rfl
  exact absurd hcovered (by decide)

end RtmpRelay
