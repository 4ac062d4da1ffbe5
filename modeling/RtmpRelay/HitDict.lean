import RtmpRelay.Dictionary
import RtmpRelay.Occurrences
import Mathlib.Data.List.Forall2
import Mathlib.Data.List.Perm.Basic

/-!
# The dictionary hits of a sentence

For every key of the dictionary `hitDict` searches the stripped sentence from
the end of the last match, and one counter over the bytes of the word list finds
the word the match starts in and the word it ends in. With an empty key the
search never moves, and that is the only way it does not end. Otherwise there
is one segment for each leftmost non-overlapping occurrence of each key, with
the times of the words that hold its first and its last byte.
-/

namespace RtmpRelay

open Occurrences

structure AudioSegement where
  start : Int
  stop : Int
  text : Str
  deriving DecidableEq, Repr

structure WordInfomation where
  text : Str
  startTime : Int
  endTime : Int
  deriving DecidableEq, Repr

namespace HitDict

/-- The loop over the word list, with `start`, `prev_end` and `cnt`. -/
def wordLoop (pos endPos : ℕ) : Int → Int → ℕ → List WordInfomation → Int × Int
  | start, prevEnd, _, [] => (start, prevEnd)
  | start, prevEnd, cnt, item :: items =>
    if cnt ≤ pos then wordLoop pos endPos item.startTime item.endTime (cnt + item.text.length) items
    else if cnt ≥ endPos then (start, prevEnd)
    else wordLoop pos endPos start item.endTime (cnt + item.text.length) items

/-- The `while` over the matches of one key; `none` has not ended by then. -/
def searchLoop (tmp : Str) (wordList : List WordInfomation) (key : Str) :
    ℕ → ℕ → List AudioSegement → Option (List AudioSegement)
  | 0, _, _ => none
  | fuel + 1, endPos, out =>
    match findFrom tmp key endPos with
    | none => some out
    | some pos =>
      let endPos := pos + key.length
      let times := wordLoop pos endPos 0 0 0 wordList
      searchLoop tmp wordList key fuel endPos
        (out ++ [{ start := times.1, stop := times.2, text := key }])

end HitDict

open HitDict

/-- `dict` is the keys in the order in which the map is iterated. -/
def hitDict (fuel : ℕ) (dict : List Str) (sentence : Str) (wordList : List WordInfomation) :
    Option (List AudioSegement) :=
  dict.foldlM (fun out key => searchLoop (removeSpaces sentence) wordList key fuel 0 out) []

namespace HitDict
variable {tmp key : Str} {wordList : List WordInfomation}

/-! When the search ends. -/

theorem searchLoop_nil (fuel : ℕ) {endPos : ℕ} (h : endPos ≤ tmp.length)
    (out : List AudioSegement) : searchLoop tmp wordList [] fuel endPos out = none := by
  induction fuel generalizing out with
  | zero => rfl
  | succ fuel ih =>
    rw [searchLoop, findFrom_nil h]
    exact ih _

def segmentAt (wordList : List WordInfomation) (key : Str) (pos : ℕ) : AudioSegement :=
  { start := (wordLoop pos (pos + key.length) 0 0 0 wordList).1
    stop := (wordLoop pos (pos + key.length) 0 0 0 wordList).2
    text := key }

theorem searchLoop_eq (hkey : key ≠ []) {fuel endPos : ℕ} (hfuel : tmp.length < endPos + fuel)
    (hend : endPos ≤ tmp.length) (out : List AudioSegement) :
    searchLoop tmp wordList key fuel endPos out =
      some (out ++ (scan key endPos 0 (tmp.drop endPos)).map (segmentAt wordList key)) := by
  have hpos : 0 < key.length := List.length_pos_iff.mpr hkey
  induction fuel generalizing endPos out with
  | zero => omega
  | succ fuel ih =>
    rw [searchLoop]
    cases hfind : findFrom tmp key endPos with
    | none =>
      rw [scan_of_find_none hfind]
      simp
    | some pos =>
      obtain ⟨hle, hocc, _⟩ := findFrom_eq_some.mp hfind
      have hlast := hocc.add_le
      rw [scan_of_find_some hkey hfind, List.map_cons]
      dsimp only
      rw [ih (by omega) hlast, List.append_assoc]
      rfl

theorem searchLoop_occurrences (hkey : key ≠ []) {fuel : ℕ} (hfuel : tmp.length < fuel)
    (out : List AudioSegement) :
    searchLoop tmp wordList key fuel 0 out =
      some (out ++ (occurrences key tmp).map (segmentAt wordList key)) := by
  rw [searchLoop_eq hkey (by omega) (Nat.zero_le _), List.drop_zero]
  rfl

end HitDict

theorem hitDict_eq {dict : List Str} (hdict : ∀ key ∈ dict, key ≠ []) {fuel : ℕ} {sentence : Str}
    (hfuel : (removeSpaces sentence).length < fuel) (wordList : List WordInfomation) :
    hitDict fuel dict sentence wordList = some (dict.flatMap fun key =>
      (occurrences key (removeSpaces sentence)).map (segmentAt wordList key)) := by
  have hfold : ∀ out : List AudioSegement,
      dict.foldlM (fun out key => searchLoop (removeSpaces sentence) wordList key fuel 0 out) out =
        some (out ++ dict.flatMap fun key =>
          (occurrences key (removeSpaces sentence)).map (segmentAt wordList key)) := by
    induction dict with
    | nil => simp
    | cons key dict ih =>
      intro out
      rw [List.foldlM_cons, searchLoop_occurrences (hdict key List.mem_cons_self) hfuel]
      change dict.foldlM _ _ = _
      rw [ih fun k hk => hdict k (List.mem_cons_of_mem key hk), List.flatMap_cons,
        List.append_assoc]
  exact hfold []

theorem hitDict_eq_none {dict : List Str} (h : [] ∈ dict) (fuel : ℕ) (sentence : Str)
    (wordList : List WordInfomation) : hitDict fuel dict sentence wordList = none := by
  have hfold : ∀ out : List AudioSegement, dict.foldlM
      (fun out key => searchLoop (removeSpaces sentence) wordList key fuel 0 out) out = none := by
    induction dict with
    | nil => simp at h
    | cons key dict ih =>
      intro out
      rw [List.foldlM_cons]
      by_cases hkey : key = []
      · rw [hkey, searchLoop_nil fuel (Nat.zero_le _)]
        rfl
      · have hrest : [] ∈ dict := (List.mem_cons.mp h).resolve_left fun heq => hkey heq.symm
        cases searchLoop (removeSpaces sentence) wordList key fuel 0 out with
        | none => rfl
        | some out' => exact ih hrest out'
  exact hfold []

/-- `hitDict` ends if and only if the dictionary file has no empty line. -/
theorem hitDict_ends_iff (file : Str) {dict : List Str}
    (hdict : dict.Perm (Dictionary.init (some file)).keys) (sentence : Str)
    (wordList : List WordInfomation) :
    (∃ fuel, hitDict fuel dict sentence wordList ≠ none) ↔ [] ∉ getlines file := by
  rw [← Dictionary.mem_init_some, ← hdict.mem_iff]
  constructor
  · intro hends hempty
    obtain ⟨fuel, hfuel⟩ := hends
    exact hfuel (hitDict_eq_none hempty fuel sentence wordList)
  · intro hempty
    have hne : ∀ key ∈ dict, key ≠ [] := by
      rintro key hkey rfl
      exact hempty hkey
    refine ⟨(removeSpaces sentence).length + 1, ?_⟩
    rw [hitDict_eq hne (Nat.lt_succ_self _)]
    exact Option.some_ne_none _

theorem hitDict_ends_sample :
    ∃ fuel, hitDict fuel [[97, 98]] [97, 32, 98] [] ≠ none :=
  (hitDict_ends_iff [97, 98, 10] (List.Perm.refl _) [97, 32, 98] []).mpr (by decide)

theorem blank_line_never_ends :
    ¬ ∀ (file : Str) (dict : List Str), dict.Perm (Dictionary.init (some file)).keys →
      ∀ (sentence : Str) (wordList : List WordInfomation),
        ∃ fuel, hitDict fuel dict sentence wordList ≠ none := by
  intro h
  obtain ⟨fuel, hfuel⟩ := h [97, 98, 10, 10] _ (List.Perm.refl _) [99] []
  exact hfuel (hitDict_eq_none (by decide) fuel [99] [])

/-! Where a match lies in the word list. -/

def wordAt : List WordInfomation → ℕ → Option WordInfomation
  | [], _ => none
  | item :: items, pos =>
    if pos < item.text.length then some item else wordAt items (pos - item.text.length)

def texts (wordList : List WordInfomation) : Str := wordList.flatMap WordInfomation.text

theorem texts_cons_length (item : WordInfomation) (items : List WordInfomation) :
    (texts (item :: items)).length = item.text.length + (texts items).length :=
  List.length_append

theorem wordAt_eq_some_iff {wordList : List WordInfomation} {pos : ℕ} {item : WordInfomation} :
    wordAt wordList pos = some item ↔ ∃ before after, wordList = before ++ item :: after ∧
      (texts before).length ≤ pos ∧ pos < (texts before).length + item.text.length := by
  induction wordList generalizing pos with
  | nil => simp [wordAt]
  | cons first items ih =>
    rw [wordAt]
    split_ifs with hlt
    · constructor
      · intro h
        cases h
        exact ⟨[], items, rfl, Nat.zero_le pos, by simpa [texts] using hlt⟩
      · intro h
        obtain ⟨before, after, heq, hle, _⟩ := h
        cases before with
        | nil =>
          obtain ⟨rfl, _⟩ := List.cons.inj heq
          rfl
        | cons b before =>
          obtain ⟨rfl, _⟩ := List.cons.inj heq
          rw [texts_cons_length] at hle
          omega
    · rw [ih]
      constructor
      · intro h
        obtain ⟨before, after, heq, hle, hpos⟩ := h
        refine ⟨first :: before, after, by rw [heq]; rfl, ?_, ?_⟩
        · rw [texts_cons_length]
          omega
        · rw [texts_cons_length]
          omega
      · intro h
        obtain ⟨before, after, heq, hle, hpos⟩ := h
        cases before with
        | nil =>
          obtain ⟨rfl, _⟩ := List.cons.inj heq
          exact absurd (by simpa [texts] using hpos) hlt
        | cons b before =>
          obtain ⟨rfl, hrest⟩ := List.cons.inj heq
          rw [texts_cons_length] at hle hpos
          exact ⟨before, after, hrest, by omega, by omega⟩

namespace HitDict

/-! The counter of the word loop. While it is not past `pos` every word may be
the one the match starts in; from then on every word may be the one it ends in. -/

theorem wordLoop_done {pos endPos cnt : ℕ} (hpos : pos < cnt) (hend : endPos ≤ cnt)
    (start prevEnd : Int) (items : List WordInfomation) :
    wordLoop pos endPos start prevEnd cnt items = (start, prevEnd) := by
  cases items with
  | nil => rfl
  | cons item items => rw [wordLoop, if_neg (not_le.mpr hpos), if_pos hend]

theorem wordLoop_last {pos endPos cnt : ℕ} (hpos : pos < cnt) (hend : cnt < endPos)
    {items : List WordInfomation} (hlen : endPos ≤ cnt + (texts items).length)
    (start prevEnd : Int) :
    ∃ last, wordAt items (endPos - 1 - cnt) = some last ∧
      wordLoop pos endPos start prevEnd cnt items = (start, last.endTime) := by
  induction items generalizing cnt prevEnd with
  | nil =>
    simp only [texts, List.flatMap_nil, List.length_nil] at hlen
    omega
  | cons item items ih =>
    rw [texts_cons_length] at hlen
    rw [wordLoop, if_neg (not_le.mpr hpos), if_neg (not_le.mpr hend), wordAt]
    by_cases hin : endPos ≤ cnt + item.text.length
    · rw [if_pos (by omega), wordLoop_done (by omega) hin]
      exact ⟨item, rfl, rfl⟩
    · have hshift : endPos - 1 - cnt - item.text.length =
          endPos - 1 - (cnt + item.text.length) := by omega
      rw [if_neg (by omega), hshift]
      exact ih (by omega) (by omega) (by omega) item.endTime

theorem wordLoop_eq {pos endPos cnt : ℕ} (hpos : cnt ≤ pos) (hend : pos < endPos)
    {items : List WordInfomation} (hlen : endPos ≤ cnt + (texts items).length)
    (start prevEnd : Int) :
    ∃ first last, wordAt items (pos - cnt) = some first ∧
      wordAt items (endPos - 1 - cnt) = some last ∧
      wordLoop pos endPos start prevEnd cnt items = (first.startTime, last.endTime) := by
  induction items generalizing cnt start prevEnd with
  | nil =>
    simp only [texts, List.flatMap_nil, List.length_nil] at hlen
    omega
  | cons item items ih =>
    rw [texts_cons_length] at hlen
    rw [wordLoop, if_pos hpos, wordAt, wordAt]
    have hshift : ∀ n, n - cnt - item.text.length = n - (cnt + item.text.length) := by
      intro n
      omega
    by_cases hfirst : pos < cnt + item.text.length
    · rw [if_pos (by omega)]
      by_cases hin : endPos ≤ cnt + item.text.length
      · rw [if_pos (by omega), wordLoop_done hfirst hin]
        exact ⟨item, item, rfl, rfl, rfl⟩
      · have hrest : endPos ≤ cnt + item.text.length + (texts items).length := by omega
        obtain ⟨last, hlast, hloop⟩ := wordLoop_last hfirst (not_le.mp hin) hrest
          item.startTime item.endTime
        rw [if_neg (by omega), hshift, hloop]
        exact ⟨item, last, rfl, hlast, rfl⟩
    · rw [if_neg (by omega), if_neg (by omega), hshift, hshift]
      exact ih (not_lt.mp hfirst) (by omega) item.startTime item.endTime

def Located (wordList : List WordInfomation) (hit : Str × ℕ) (segment : AudioSegement) : Prop :=
  segment.text = hit.1 ∧ ∃ first last, wordAt wordList hit.2 = some first ∧
    wordAt wordList (hit.2 + hit.1.length - 1) = some last ∧
    segment.start = first.startTime ∧ segment.stop = last.endTime

theorem segmentAt_located {wordList : List WordInfomation} {key : Str} (hkey : key ≠ []) {pos : ℕ}
    (hocc : OccursAt key (texts wordList) pos) :
    Located wordList (key, pos) (segmentAt wordList key pos) := by
  have hpos : 0 < key.length := List.length_pos_iff.mpr hkey
  have hend : pos + key.length ≤ 0 + (texts wordList).length := by
    rw [Nat.zero_add]
    exact hocc.add_le
  obtain ⟨first, last, hfirst, hlast, hloop⟩ := wordLoop_eq (Nat.zero_le pos)
    (Nat.lt_add_of_pos_right hpos) hend 0 0
  refine ⟨rfl, first, last, hfirst, hlast, ?_, ?_⟩
  · rw [segmentAt, hloop]
  · rw [segmentAt, hloop]

def hits (keys : List Str) (tmp : Str) : List (Str × ℕ) :=
  keys.flatMap fun key => (occurrences key tmp).map (Prod.mk key)

end HitDict

/-- With non-empty keys and words that make up the stripped sentence there is,
for each key and each of its leftmost non-overlapping occurrences, one segment,
from the start of the word with its first byte to the end of that with its last. -/
theorem hitDict_segments {d : Dictionary} (hne : ∀ key ∈ d.keys, key ≠ []) {dict : List Str}
    (hdict : dict.Perm d.keys) {sentence : Str} {wordList : List WordInfomation}
    (hwords : texts wordList = removeSpaces sentence) :
    ∃ out segments,
      (∀ fuel, (removeSpaces sentence).length < fuel →
        hitDict fuel dict sentence wordList = some out) ∧
      out.Perm segments ∧
      List.Forall₂ (Located wordList) (hits d.keys (removeSpaces sentence)) segments := by
  have hkeys : ∀ key ∈ dict, key ≠ [] := fun key hkey => hne key (hdict.mem_iff.mp hkey)
  refine ⟨_, (hits d.keys (removeSpaces sentence)).map fun hit => segmentAt wordList hit.1 hit.2,
    fun fuel hfuel => hitDict_eq hkeys hfuel wordList, ?_, ?_⟩
  · have hmap : (hits d.keys (removeSpaces sentence)).map
          (fun hit => segmentAt wordList hit.1 hit.2) =
        d.keys.flatMap fun key =>
          (occurrences key (removeSpaces sentence)).map (segmentAt wordList key) := by
      rw [hits, List.map_flatMap]
      simp only [List.map_map, Function.comp_def]
    rw [hmap]
    exact hdict.flatMap_right _
  · rw [List.forall₂_map_right_iff, List.forall₂_same]
    intro hit hhit
    obtain ⟨key, hkey, hmem⟩ := List.mem_flatMap.mp hhit
    obtain ⟨pos, hpos, rfl⟩ := List.mem_map.mp hmem
    apply segmentAt_located (hne key hkey)
    rw [hwords]
    exact occurrences_occursAt hpos

/-! The sentence "a b" as three words, one of them empty, and the key "ab". -/

def sampleWords : List WordInfomation :=
  [{ text := [97], startTime := 100, endTime := 200 },
    { text := [], startTime := 200, endTime := 210 },
    { text := [98], startTime := 210, endTime := 300 }]

example : hitDict 4 [[97, 98]] [97, 32, 98] sampleWords =
    some [{ start := 100, stop := 300, text := [97, 98] }] := by decide

theorem hitDict_segments_sample :
    ∃ out segments,
      (∀ fuel, 2 < fuel → hitDict fuel [[97, 98]] [97, 32, 98] sampleWords = some out) ∧
      out.Perm segments ∧ List.Forall₂ (Located sampleWords) [([97, 98], 0)] segments :=
  hitDict_segments (d := Dictionary.init (some [97, 98, 10])) (by decide) (List.Perm.refl _)
    (show texts sampleWords = removeSpaces [97, 32, 98] by decide)

end RtmpRelay
