import RtmpRelay.Codewords
import RtmpRelay.HitDict

/-!
# Hits in UTF-8 text

A valid text is the bytes of a `String`, the encoding of its characters. UTF-8
synchronises itself: only the first byte of a character is a leading byte, and
no character is a prefix of another. White space is one byte, which occurs in
no longer character, so removing it byte by byte removes characters, and the
search of `hitDict` over bytes stops where a search over characters does.
-/

namespace RtmpRelay

open Occurrences Codewords HitDict

def utf8 : Code Char UInt8 where
  enc := String.utf8EncodeChar
  lead b := b.IsUTF8FirstByte
  shape c := by
    obtain ⟨b, bs, hc⟩ := List.exists_cons_of_ne_nil (String.utf8EncodeChar_ne_nil (c := c))
    have hlead : ∀ i (hi : i < (String.utf8EncodeChar c).length),
        (String.utf8EncodeChar c)[i].IsUTF8FirstByte ↔ i = 0 := fun i hi =>
      UInt8.isUTF8FirstByte_getElem_utf8EncodeChar
    refine ⟨b, bs, hc, ?_, ?_⟩
    · have hzero := (hlead 0 (by simp [hc])).mpr rfl
      simpa [hc] using hzero
    · intro x hx
      obtain ⟨i, hi, rfl⟩ := List.getElem_of_mem hx
      have hsucc := hlead (i + 1) (by simpa [hc] using hi)
      simp only [hc, List.getElem_cons_succ] at hsucc
      rw [hsucc]
      exact Nat.succ_ne_zero i
  prefix_free a b h := by
    obtain ⟨t, ht⟩ := h
    have ha := ByteArray.utf8DecodeChar?_utf8EncodeChar_append (b := t.toByteArray) (c := a)
    have hb := ByteArray.utf8DecodeChar?_utf8EncodeChar_append (b := ByteArray.empty) (c := b)
    rw [← List.toByteArray_append, ht] at ha
    rw [ByteArray.append_empty] at hb
    exact Option.some.inj (ha.symm.trans hb)

def bytes (s : String) : Str := s.toByteArray.data.toList

theorem bytes_eq (s : String) : bytes s = utf8.encode s.toList := by
  rw [bytes, ← String.utf8Encode_toList, List.utf8Encode, List.toList_data_toByteArray]
  rfl

theorem bytes_ofList (cs : List Char) : bytes (String.ofList cs) = utf8.encode cs := by
  rw [bytes_eq, String.toList_ofList]

theorem bytes_length (s : String) : (bytes s).length = s.utf8ByteSize := by
  rw [bytes, String.utf8ByteSize]
  rfl

/-- The texts are the valid byte sequences. -/
theorem exists_bytes_eq_iff {b : Str} : (∃ s, bytes s = b) ↔ b.toByteArray.IsValidUTF8 := by
  constructor
  · intro h
    obtain ⟨s, rfl⟩ := h
    rw [bytes_eq]
    exact ⟨s.toList, rfl⟩
  · intro h
    obtain ⟨cs, hcs⟩ := h
    refine ⟨String.ofList cs, ?_⟩
    rw [bytes_ofList]
    exact (List.toByteArray_inj.mp hcs).symm

/-! White space. -/

def isSpaceChar (c : Char) : Bool := c = ' ' || (9 ≤ c.toNat && c.toNat ≤ 13)

def stripSpaces (s : String) : String := String.ofList (s.toList.filter fun c => !isSpaceChar c)

theorem isspace_eq (b : UInt8) : isspace b = (b.toNat = 32 || (9 ≤ b.toNat && b.toNat ≤ 13)) := by
  simp [isspace, UInt8.le_iff_toNat_le, ← UInt8.toNat_inj]

theorem isSpaceChar_eq (c : Char) :
    isSpaceChar c = (c.toNat = 32 || (9 ≤ c.toNat && c.toNat ≤ 13)) := by
  have hspace : c = ' ' ↔ c.toNat = 32 := ⟨fun h => h ▸ rfl, fun h => Char.toNat_inj.mp h⟩
  simp [isSpaceChar, hspace]

theorem ofNat_high {n : ℕ} (hlo : 128 ≤ n) (hhi : n < 256) : 128 ≤ (UInt8.ofNat n).toNat := by
  rw [UInt8.toNat_ofNat', Nat.mod_eq_of_lt hhi]
  exact hlo

theorem utf8EncodeChar_high {c : Char} (hc : ¬ c.toNat ≤ 127) {b : UInt8}
    (hb : b ∈ String.utf8EncodeChar c) : 128 ≤ b.toNat := by
  rw [String.utf8EncodeChar] at hb
  change b ∈ (if c.toNat ≤ 127 then _ else _) at hb
  rw [if_neg hc] at hb
  split_ifs at hb
  · simp only [List.mem_cons, List.not_mem_nil, or_false] at hb
    rcases hb with rfl | rfl
    · exact ofNat_high (by omega) (by omega)
    · exact ofNat_high (by omega) (by omega)
  · simp only [List.mem_cons, List.not_mem_nil, or_false] at hb
    rcases hb with rfl | rfl | rfl
    · exact ofNat_high (by omega) (by omega)
    · exact ofNat_high (by omega) (by omega)
    · exact ofNat_high (by omega) (by omega)
  · simp only [List.mem_cons, List.not_mem_nil, or_false] at hb
    rcases hb with rfl | rfl | rfl | rfl
    · exact ofNat_high (by omega) (by omega)
    · exact ofNat_high (by omega) (by omega)
    · exact ofNat_high (by omega) (by omega)
    · exact ofNat_high (by omega) (by omega)

theorem isspace_utf8EncodeChar (c : Char) : ∀ b ∈ utf8.enc c, (!isspace b) = !isSpaceChar c := by
  intro b hb
  rw [isspace_eq, isSpaceChar_eq]
  change b ∈ String.utf8EncodeChar c at hb
  by_cases hascii : c.toNat ≤ 127
  · have hone : String.utf8EncodeChar c = [UInt8.ofNat c.toNat] := if_pos hascii
    rw [hone] at hb
    have hval : b.toNat = c.toNat := by
      rw [List.mem_singleton.mp hb, UInt8.toNat_ofNat']
      omega
    rw [hval]
  · have hhigh := utf8EncodeChar_high hascii hb
    have hb : b.toNat ≠ 32 ∧ ¬ b.toNat ≤ 13 := by omega
    have hc : c.toNat ≠ 32 ∧ ¬ c.toNat ≤ 13 := by omega
    simp [hb, hc]

theorem removeSpaces_bytes (s : String) : removeSpaces (bytes s) = bytes (stripSpaces s) := by
  rw [bytes_eq, stripSpaces, bytes_ofList]
  exact utf8.filter_encode isspace_utf8EncodeChar s.toList

/-! The positions that the search visits. -/

namespace HitDict

def findLoop (tmp key : Str) : ℕ → ℕ → Option (List ℕ)
  | 0, _ => none
  | fuel + 1, endPos =>
    match findFrom tmp key endPos with
    | none => some []
    | some pos => (findLoop tmp key fuel (pos + key.length)).map fun ps => pos :: ps

theorem searchLoop_findLoop {tmp key : Str} {wordList : List WordInfomation} (fuel endPos : ℕ)
    (out : List AudioSegement) :
    searchLoop tmp wordList key fuel endPos out =
      (findLoop tmp key fuel endPos).map fun ps => out ++ ps.map (segmentAt wordList key) := by
  induction fuel generalizing endPos out with
  | zero => rfl
  | succ fuel ih =>
    rw [searchLoop, findLoop]
    cases findFrom tmp key endPos with
    | none => simp
    | some pos =>
      dsimp only
      rw [ih, Option.map_map]
      congr 1
      funext ps
      simp [segmentAt]

theorem findLoop_eq {tmp key : Str} (hkey : key ≠ []) {fuel endPos : ℕ}
    (hfuel : tmp.length < endPos + fuel) (hend : endPos ≤ tmp.length) :
    findLoop tmp key fuel endPos = some (scan key endPos 0 (tmp.drop endPos)) := by
  have hpos : 0 < key.length := List.length_pos_iff.mpr hkey
  induction fuel generalizing endPos with
  | zero => omega
  | succ fuel ih =>
    rw [findLoop]
    cases hfind : findFrom tmp key endPos with
    | none => rw [scan_of_find_none hfind]
    | some pos =>
      obtain ⟨hle, hocc, _⟩ := findFrom_eq_some.mp hfind
      have hlast := hocc.add_le
      dsimp only
      rw [ih (by omega) hlast, scan_of_find_some hkey hfind, Option.map_some]

end HitDict

def byteOffset (s : String) (i : ℕ) : ℕ := (String.ofList (s.toList.take i)).utf8ByteSize

theorem offset_eq (s : String) (i : ℕ) : utf8.offset s.toList i = byteOffset s i := by
  rw [Code.offset, byteOffset, ← bytes_length, bytes_ofList]

theorem isValid_byteOffset (s : String) (i : ℕ) : (⟨byteOffset s i⟩ : String.Pos.Raw).IsValid s :=
  String.Pos.Raw.isValid_iff_exists_take_toList.mpr ⟨i, rfl⟩

theorem bytes_ne_nil {s : String} (hs : s ≠ "") : bytes s ≠ [] := by
  rw [bytes_eq]
  apply utf8.encode_ne_nil
  rwa [Ne, String.toList_eq_nil_iff]

theorem occurrences_bytes {s key : String} (hkey : key ≠ "") :
    occurrences (bytes key) (bytes s) = (occurrences key.toList s.toList).map (byteOffset s) := by
  have hchars : key.toList ≠ [] := by rwa [Ne, String.toList_eq_nil_iff]
  rw [bytes_eq, bytes_eq, utf8.occurrences_encode hchars]
  exact List.map_congr_left fun i _ => offset_eq s i

theorem findLoop_bytes {s key : String} (hkey : key ≠ "") {fuel : ℕ}
    (hfuel : (bytes s).length < fuel) :
    findLoop (bytes s) (bytes key) fuel 0 =
      some ((occurrences key.toList s.toList).map (byteOffset s)) := by
  rw [findLoop_eq (bytes_ne_nil hkey) (by omega) (Nat.zero_le _), List.drop_zero]
  exact congrArg some (occurrences_bytes hkey)

theorem boundary_of_mem {s key : String} {i : ℕ} (hi : i ∈ occurrences key.toList s.toList) :
    (⟨byteOffset s i⟩ : String.Pos.Raw).IsValid s ∧
      (⟨byteOffset s i + (bytes key).length⟩ : String.Pos.Raw).IsValid s := by
  refine ⟨isValid_byteOffset s i, ?_⟩
  have hlast := utf8.offset_add_of_occursAt (occurrences_occursAt hi)
  rw [offset_eq, offset_eq, ← bytes_eq] at hlast
  rw [hlast]
  exact isValid_byteOffset s _

/-- The character positions at which `key` is found, as byte positions of the stripped sentence. -/
def hitPositions (sentence key : String) : List ℕ :=
  (occurrences key.toList (stripSpaces sentence).toList).map (byteOffset (stripSpaces sentence))

/-- The search over bytes is the search over characters, and every hit starts
and ends between characters. -/
theorem hitDict_utf8 (sentence : String) {dict : List String} (hdict : "" ∉ dict) {fuel : ℕ}
    (hfuel : (bytes sentence).length < fuel) (wordList : List WordInfomation) :
    (removeSpaces (bytes sentence)).toByteArray.IsValidUTF8 ∧
      removeSpaces (bytes sentence) = bytes (stripSpaces sentence) ∧
      (∀ key ∈ dict, findLoop (removeSpaces (bytes sentence)) (bytes key) fuel 0 =
          some (hitPositions sentence key) ∧
        ∀ p ∈ hitPositions sentence key,
          (⟨p⟩ : String.Pos.Raw).IsValid (stripSpaces sentence) ∧
            (⟨p + (bytes key).length⟩ : String.Pos.Raw).IsValid (stripSpaces sentence)) ∧
      hitDict fuel (dict.map bytes) (bytes sentence) wordList =
        some (dict.flatMap fun key =>
          (hitPositions sentence key).map (segmentAt wordList (bytes key))) := by
  have hstrip := removeSpaces_bytes sentence
  have hle : (bytes (stripSpaces sentence)).length < fuel := by
    rw [← hstrip]
    exact (List.length_filter_le _ _).trans_lt hfuel
  have hne : ∀ key ∈ dict, key ≠ "" := by
    rintro key hkey rfl
    exact hdict hkey
  refine ⟨?_, hstrip, ?_, ?_⟩
  · exact exists_bytes_eq_iff.mp ⟨stripSpaces sentence, hstrip.symm⟩
  · intro key hkey
    rw [hstrip]
    refine ⟨findLoop_bytes (hne key hkey) hle, ?_⟩
    intro p hp
    obtain ⟨i, hi, rfl⟩ := List.mem_map.mp hp
    exact boundary_of_mem hi
  · rw [hitDict_eq ?_ (by rw [hstrip]; exact hle), List.flatMap_map]
    · refine congrArg some (List.flatMap_congr ?_)
      intro key hkey
      rw [hstrip, occurrences_bytes (hne key hkey)]
      rfl
    · intro key hkey
      obtain ⟨k, hk, rfl⟩ := List.mem_map.mp hkey
      exact bytes_ne_nil (hne k hk)

theorem hitDict_utf8_sample :
    findLoop (removeSpaces (bytes "é 中é中")) (bytes "é中") 13 0 =
      some (hitPositions "é 中é中" "é中") := by
  have hfuel : (bytes "é 中é中").length < 13 := by decide
  have h := hitDict_utf8 "é 中é中" (by decide : "" ∉ ["é中"]) hfuel []
  exact (h.2.2.1 "é中" List.mem_cons_self).1

example : hitPositions "é 中é中" "é中" = [0, 5] := by decide

end RtmpRelay
