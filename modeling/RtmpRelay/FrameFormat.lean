import RtmpRelay.WebSocketTcp

/-!
# The frame format

A frame as the protocol defines it, read without the code: two bytes with the
final bit, the opcode, the mask bit and a length of seven bits, a longer length
where those announce one, the key where the mask bit is set, and the payload.
The client's frames carry a key and the server's do not.
-/

namespace RtmpRelay.FrameFormat

open Chunked WebSocketTcp

structure Message where
  fin : Bool
  opCode : OpCodeType
  payload : List UInt8
  deriving DecidableEq, Repr

def lengthSize (n0 : ℕ) : ℕ := if n0 = 126 then 2 else if n0 = 127 then 8 else 0

def shortLength (l : List UInt8) : ℕ := (byteAt l 1 &&& 0x7f).toNat

def payloadLength (l : List UInt8) : ℕ :=
  if shortLength l < 126 then shortLength l
  else bigEndian ((l.drop 2).take (lengthSize (shortLength l)))

def headLength (masked : Bool) (l : List UInt8) : ℕ :=
  2 + lengthSize (shortLength l) + (if masked then 4 else 0)

def payload (masked : Bool) (l : List UInt8) : List UInt8 :=
  let body := (l.drop (headLength masked l)).take (payloadLength l)
  if masked then xorFrom ((l.drop (2 + lengthSize (shortLength l))).take 4) 0 body else body

def message (masked : Bool) (l : List UInt8) : Message :=
  ⟨decide (byteAt l 0 &&& 0x80 = 0x80), OpCodeType.ofCode (byteAt l 0 &&& 0x0f), payload masked l⟩

/-- The buffer holds a whole frame of the given kind. -/
def Whole (masked : Bool) (l : List UInt8) : Prop :=
  2 ≤ l.length ∧ decide (byteAt l 1 &&& 0x80 = 0x80) = masked ∧
    headLength masked l + payloadLength l ≤ l.length

instance (masked : Bool) (l : List UInt8) : Decidable (Whole masked l) :=
  inferInstanceAs (Decidable (_ ∧ _ ∧ _))

section reader
variable {masked : Bool} {l m : List UInt8}

theorem byteAt_append {i : ℕ} (hi : i < l.length) : byteAt (l ++ m) i = byteAt l i :=
  List.getD_append l m 0 i hi

theorem take_drop_append {a b : ℕ} (h : a + b ≤ l.length) :
    ((l ++ m).drop a).take b = (l.drop a).take b := by
  rw [List.drop_append_of_le_length (by omega), List.take_append_of_le_length]
  rw [List.length_drop]
  omega

theorem shortLength_append (h : 2 ≤ l.length) : shortLength (l ++ m) = shortLength l := by
  rw [shortLength, shortLength, byteAt_append (by omega)]

theorem headLength_append (masked : Bool) (h : 2 ≤ l.length) :
    headLength masked (l ++ m) = headLength masked l := by
  rw [headLength, headLength, shortLength_append h]

theorem payloadLength_append (masked : Bool) (h : 2 ≤ l.length)
    (hh : headLength masked l ≤ l.length) : payloadLength (l ++ m) = payloadLength l := by
  have hn := shortLength_append (m := m) h
  rw [headLength] at hh
  rw [payloadLength, payloadLength, hn, take_drop_append (by omega)]

theorem payload_append (h : Whole masked l) : payload masked (l ++ m) = payload masked l := by
  obtain ⟨h2, -, hw⟩ := h
  have hn := shortLength_append (m := m) h2
  have hh := headLength_append masked (m := m) h2
  have hp := payloadLength_append masked (m := m) h2 (by omega)
  have hbody := take_drop_append (m := m) hw
  rw [payload, payload, hn, hh, hp, hbody]
  cases masked with
  | false => rfl
  | true =>
    have hk : 2 + lengthSize (shortLength l) + 4 ≤ l.length := by
      rw [headLength, if_pos rfl] at hw
      omega
    rw [take_drop_append hk]

theorem whole_append (h : Whole masked l) : Whole masked (l ++ m) := by
  obtain ⟨h2, hmask, hw⟩ := h
  refine ⟨?_, ?_, ?_⟩
  · rw [List.length_append]
    omega
  · rw [byteAt_append (by omega), hmask]
  · rw [headLength_append masked h2, payloadLength_append masked h2 (by omega),
      List.length_append]
    omega

theorem message_append (h : Whole masked l) : message masked (l ++ m) = message masked l := by
  have h2 := h.1
  rw [message, message, payload_append h, byteAt_append (by omega)]

def readFrame (masked : Bool) (l : List UInt8) : Option (Message × ℕ) :=
  if Whole masked l then some (message masked l, headLength masked l + payloadLength l) else none

theorem readFrame_whole (h : Whole masked l) :
    readFrame masked l = some (message masked l, headLength masked l + payloadLength l) :=
  if_pos h

theorem readFrame_some {f : Message} {n : ℕ} (h : readFrame masked l = some (f, n)) :
    Whole masked l ∧ f = message masked l ∧ n = headLength masked l + payloadLength l := by
  rw [readFrame] at h
  split at h
  · next hw =>
    cases h
    exact ⟨hw, rfl, rfl⟩
  · cases h

end reader

def frames (masked : Bool) : Reader UInt8 Message where
  read := readFrame masked
  pos h := by
    obtain ⟨-, -, rfl⟩ := readFrame_some h
    rw [headLength]
    omega
  le_length h := by
    obtain ⟨hw, -, rfl⟩ := readFrame_some h
    exact hw.2.2
  stable m h := by
    obtain ⟨hw, rfl, rfl⟩ := readFrame_some h
    rw [readFrame_whole (whole_append hw), message_append hw, headLength_append masked hw.1,
      payloadLength_append masked hw.1 (le_trans (Nat.le_add_right _ _) hw.2.2)]

section writer

theorem and_or_distrib (x y z : UInt8) : (x ||| y) &&& z = x &&& z ||| y &&& z := by
  apply UInt8.toNat_inj.mp
  rw [UInt8.toNat_and, UInt8.toNat_or, UInt8.toNat_or, UInt8.toNat_and, UInt8.toNat_and,
    Nat.and_or_distrib_right]

/-- The opcode fits the four bits it is sent in. -/
def Legal (op : OpCodeType) : Prop := op.code &&& 0x0f = op.code ∧ OpCodeType.ofCode op.code = op

instance (op : OpCodeType) : Decidable (Legal op) := inferInstanceAs (Decidable (_ ∧ _))

/-- The seven bits that give the length or announce the bytes that give it. -/
def announced (length : ℕ) : ℕ :=
  if length < 126 then length else if length < 65536 then 126 else 127

def extended (length : ℕ) : List UInt8 :=
  if length < 126 then []
  else if length < 65536 then lengthBytes length [8, 0]
  else lengthBytes length [56, 48, 40, 32, 24, 16, 8, 0]

def firstByte (fin : Bool) (op : OpCodeType) : UInt8 := if fin then 0x80 ||| op.code else op.code

def secondByte (masked : Bool) (length : ℕ) : UInt8 :=
  UInt8.ofNat (announced length) ||| if masked then 0x80 else 0

/-- What stands before the key and the payload, the length in its shortest form. -/
def lead (masked fin : Bool) (op : OpCodeType) (length : ℕ) : List UInt8 :=
  firstByte fin op :: secondByte masked length :: extended length

/-- A frame without a key, as a server sends it. -/
def serverFrame (f : Message) : List UInt8 :=
  lead false f.fin f.opCode f.payload.length ++ f.payload

theorem header_eq (op : OpCodeType) (length : ℕ) :
    header op length = lead true true op length ++ masKingKey := by
  rw [header, lead, secondByte, announced, extended]
  split
  · rfl
  · split
    · rfl
    · rfl

theorem legal_high {op : OpCodeType} (h : Legal op) : op.code &&& 0x80 = 0 := by
  rw [← h.1, UInt8.and_assoc]
  exact UInt8.and_zero

theorem firstByte_opCode {op : OpCodeType} (fin : Bool) (h : Legal op) :
    OpCodeType.ofCode (firstByte fin op &&& 0x0f) = op := by
  have hlow : firstByte fin op &&& 0x0f = op.code := by
    rw [firstByte]
    split
    · rw [and_or_distrib, h.1]
      exact UInt8.zero_or
    · exact h.1
  rw [hlow, h.2]

theorem firstByte_fin {op : OpCodeType} (fin : Bool) (h : Legal op) :
    decide (firstByte fin op &&& 0x80 = 0x80) = fin := by
  rw [firstByte]
  cases fin with
  | false =>
    rw [if_neg (by decide), legal_high h]
    rfl
  | true =>
    rw [if_pos rfl, and_or_distrib, legal_high h]
    rfl

theorem announced_lt (length : ℕ) : announced length < 128 := by
  rw [announced]
  split
  · omega
  · split
    · omega
    · omega

theorem toNat_announced (length : ℕ) : (UInt8.ofNat (announced length)).toNat = announced length := by
  have h := announced_lt length
  rw [UInt8.toNat_ofNat']
  omega

theorem secondByte_short (masked : Bool) (length : ℕ) :
    (secondByte masked length &&& 0x7f).toNat = announced length := by
  have h := announced_lt length
  have hlow : (if masked then 0x80 else 0 : UInt8) &&& 0x7f = 0 := by
    cases masked with
    | false => rfl
    | true => rfl
  rw [secondByte, and_or_distrib, hlow, UInt8.or_zero, UInt8.toNat_and, toNat_announced]
  exact Nat.and_two_pow_sub_one_of_lt_two_pow (n := 7) h

theorem secondByte_mask (masked : Bool) (length : ℕ) :
    decide (secondByte masked length &&& 0x80 = 0x80) = masked := by
  have h := announced_lt length
  have hhigh : UInt8.ofNat (announced length) &&& 0x80 = 0 := by
    apply UInt8.toNat_inj.mp
    rw [UInt8.toNat_and, toNat_announced, ← Nat.and_two_pow_sub_one_of_lt_two_pow (n := 7) h,
      Nat.and_assoc]
    exact Nat.and_zero _
  rw [secondByte, and_or_distrib, hhigh]
  cases masked with
  | false => rfl
  | true => rfl

theorem extended_length (length : ℕ) :
    (extended length).length = lengthSize (announced length) := by
  rw [extended, announced, lengthSize]
  split
  · rw [if_neg (by omega), if_neg (by omega)]
    rfl
  · split
    · rfl
    · rfl

theorem bigEndian_extended {length : ℕ} (h : 126 ≤ length) (hlt : length < 2 ^ 64) :
    bigEndian (extended length) = length := by
  rw [extended, if_neg (by omega)]
  split
  · simp only [lengthBytes, List.map_cons, List.map_nil, bigEndian, List.length_cons,
      List.length_nil, UInt8.toNat_ofNat', Nat.shiftRight_eq_div_pow]
    omega
  · simp only [lengthBytes, List.map_cons, List.map_nil, bigEndian, List.length_cons,
      List.length_nil, UInt8.toNat_ofNat', Nat.shiftRight_eq_div_pow]
    omega

theorem lead_length (masked fin : Bool) (op : OpCodeType) (length : ℕ) :
    (lead masked fin op length).length = 2 + lengthSize (announced length) := by
  rw [lead, List.length_cons, List.length_cons, extended_length]
  omega

section read
variable {masked fin : Bool} {op : OpCodeType} {length : ℕ} (m : List UInt8)

@[simp] theorem byteAt_lead_zero : byteAt (lead masked fin op length ++ m) 0 = firstByte fin op := rfl

@[simp] theorem byteAt_lead_one :
    byteAt (lead masked fin op length ++ m) 1 = secondByte masked length := rfl

theorem shortLength_lead : shortLength (lead masked fin op length ++ m) = announced length :=
  secondByte_short masked length

theorem headLength_lead : headLength masked (lead masked fin op length ++ m) =
    (lead masked fin op length).length + if masked then 4 else 0 := by
  rw [headLength, shortLength_lead, lead_length]

theorem payloadLength_lead (hlt : length < 2 ^ 64) :
    payloadLength (lead masked fin op length ++ m) = length := by
  rw [payloadLength, shortLength_lead]
  by_cases h : length < 126
  · rw [announced, if_pos h, if_pos h]
  · have hge : ¬ announced length < 126 := by
      rw [announced, if_neg h]
      split
      · omega
      · omega
    have hdrop : (lead masked fin op length ++ m).drop 2 = extended length ++ m := rfl
    rw [if_neg hge, hdrop, ← extended_length, List.take_left, bigEndian_extended (by omega) hlt]

end read

/-- A frame as it goes over the wire. -/
def wire (masked : Bool) (key : List UInt8) (f : Message) : List UInt8 :=
  lead masked f.fin f.opCode f.payload.length ++
    if masked then key ++ xorFrom key 0 f.payload else f.payload

theorem wire_length (masked : Bool) {key : List UInt8} (hkey : key.length = 4) (f : Message) :
    (wire masked key f).length =
      (lead masked f.fin f.opCode f.payload.length).length + (if masked then 4 else 0) +
        f.payload.length := by
  rw [wire, List.length_append]
  cases masked with
  | false => rfl
  | true =>
    rw [if_pos rfl, if_pos rfl, List.length_append, hkey, xorFrom_length]
    omega

theorem payload_wire (masked : Bool) {key : List UInt8} (hkey : key.length = 4) (f : Message)
    (hlen : f.payload.length < 2 ^ 64) (m : List UInt8) :
    payload masked (wire masked key f ++ m) = f.payload := by
  have hn := lead_length masked f.fin f.opCode f.payload.length
  rw [payload, wire, List.append_assoc, shortLength_lead, headLength_lead, payloadLength_lead _ hlen,
    ← hn]
  cases masked with
  | false =>
    rw [if_neg (by decide), if_neg (by decide), if_neg (by decide), Nat.add_zero, List.drop_left,
      List.take_left]
  | true =>
    rw [if_pos rfl, if_pos rfl, if_pos rfl, List.drop_left, List.append_assoc, ← hkey,
      List.take_left, List.drop_length_add_append, List.drop_left]
    have hx := xorFrom_length key 0 f.payload
    rw [← hx, List.take_left, xorFrom_xorFrom]

theorem read_wire {masked : Bool} {key : List UInt8} (hkey : key.length = 4) {f : Message}
    (m : List UInt8) (hop : Legal f.opCode) (hlen : f.payload.length < 2 ^ 64) :
    readFrame masked (wire masked key f ++ m) = some (f, (wire masked key f).length) := by
  have hw := wire_length masked hkey f
  have hp := payload_wire masked hkey f hlen m
  have hlead := lead_length masked f.fin f.opCode f.payload.length
  have hhead : headLength masked (wire masked key f ++ m) =
      (lead masked f.fin f.opCode f.payload.length).length + if masked then 4 else 0 := by
    rw [wire, List.append_assoc, headLength_lead]
  have hbody : payloadLength (wire masked key f ++ m) = f.payload.length := by
    rw [wire, List.append_assoc, payloadLength_lead _ hlen]
  have hwhole : Whole masked (wire masked key f ++ m) := by
    refine ⟨?_, secondByte_mask masked f.payload.length, ?_⟩
    · rw [List.length_append]
      omega
    · rw [hhead, hbody, List.length_append]
      omega
  rw [readFrame_whole hwhole, message, hp, hhead, hbody, hw]
  have hfin : decide (byteAt (wire masked key f ++ m) 0 &&& 0x80 = 0x80) = f.fin :=
    firstByte_fin f.fin hop
  have hcode : OpCodeType.ofCode (byteAt (wire masked key f ++ m) 0 &&& 0x0f) = f.opCode :=
    firstByte_opCode f.fin hop
  rw [hfin, hcode]

theorem writer (masked : Bool) (key : List UInt8) (hkey : key.length = 4) :
    Writer (frames masked) (fun f => Legal f.opCode ∧ f.payload.length < 2 ^ 64)
      (wire masked key) where
  read_enc m hf := read_wire hkey m hf.1 hf.2

end writer

end RtmpRelay.FrameFormat
