/-
Frames on the serial link to the router (`lib/zenoh-pico`: `utils/encoding.c`,
`utils/checksum.c`, `protocol/codec/serial.c`, `link/transport/upper/serial_protocol.c`).

A payload is framed by a header, its length and its checksum, stuffed, and ended by a zero.
The receiver reads up to the next zero.  Buffers are memories, `SIZE_MAX` is `none`, and the
port comes as the bytes that `_z_serial_read` will return.

* `cobsEncode_output`, `cobsDecode_encode` — the encoder's loop is `Cobs.encode`, and the
  decoder's loop undoes it;
* `buffers_kept` — neither loop writes outside its buffer, whatever is framed or arrives;
* `frames_received` — every frame that fits the receiver's buffer is received, in order, and
  the others are lost alone; noise costs at most the frame it runs into;
* `link_carries` — the payloads that are received, and those that never are.
-/
import Base101.ByteMemory
import Base101.Cobs

namespace SerialFrame

/-! ### Stuffing -/

structure CobsEncoder where
  output : ByteMemory
  pos : ℕ
  codep : ℕ
  code : UInt8

/-- One byte of the input, with how many are left, this one included. -/
def cobsEncodeByte (s : CobsEncoder) (byte : UInt8) (len : ℕ) : CobsEncoder :=
  let s :=
    if byte ≠ 0 then
      { s with
        output := Function.update s.output s.pos byte, pos := s.pos + 1, code := s.code + 1 }
    else s
  if byte = 0 ∨ s.code = 0xFF then
    { output := Function.update s.output s.codep s.code
      code := 1
      codep := s.pos
      pos := if byte = 0 ∨ len ≠ 0 then s.pos + 1 else s.pos }
  else s

def cobsEncodeLoop (s : CobsEncoder) : List UInt8 → CobsEncoder
  | [] => s
  | byte :: input => cobsEncodeLoop (cobsEncodeByte s byte (input.length + 1)) input

/-- `_z_cobs_encode`: the length, and what is in the output. -/
def cobsEncode (input : List UInt8) (output : ByteMemory) : ℕ × ByteMemory :=
  let s := cobsEncodeLoop { output, pos := 1, codep := 0, code := 1 } input
  (s.pos, Function.update s.output s.codep s.code)

structure CobsDecoder where
  output : ByteMemory
  pos : ℕ
  code : UInt8
  block : UInt8

/-- A zero ends the loop one place back, and before the first place that is `SIZE_MAX`. -/
def cobsDecodeLoop (s : CobsDecoder) : List UInt8 → Option ℕ × ByteMemory
  | [] => (some s.pos, s.output)
  | byte :: input =>
    if s.block ≠ 0 then
      cobsDecodeLoop
        { s with
          output := Function.update s.output s.pos byte, pos := s.pos + 1, block := s.block - 1 }
        input
    else
      let s :=
        if s.code ≠ 0xFF then
          { s with output := Function.update s.output s.pos 0, pos := s.pos + 1 }
        else s
      if byte = 0 then (if s.pos = 0 then none else some (s.pos - 1), s.output)
      else cobsDecodeLoop { s with code := byte, block := byte - 1 } input

/-- `_z_cobs_decode`. -/
def cobsDecode (input : List UInt8) (output : ByteMemory) : Option ℕ × ByteMemory :=
  cobsDecodeLoop { output, pos := 0, code := 0xFF, block := 0 } input

/-! ### Checksum -/

def crcPolynomial : UInt32 := 0x04C11DB7

/-- One bit of `_z_crc32`. -/
def crcShift (crc : UInt32) : UInt32 := (crc >>> 1) ^^^ (crcPolynomial &&& -(crc &&& 1))

def crcByte (crc : UInt32) (byte : UInt8) : UInt32 := crcShift^[8] (crc ^^^ byte.toUInt32)

/-- `_z_crc32`. -/
def crc32 (message : List UInt8) : UInt32 := ~~~message.foldl crcByte 0xFFFFFFFF

/-! ### Frames -/

def kindFieldLen : ℕ := 1

def lenFieldLen : ℕ := 2

def crc32Len : ℕ := 4

/-- `_Z_SERIAL_MFS_SIZE`. -/
def serialMfsSize : ℕ := 1500 + 1 + 2 + 4

/-- `_Z_SERIAL_MAX_COBS_BUF_SIZE`. -/
def serialMaxCobsBufSize : ℕ := 1516

def crcBytes (crc : UInt32) : List UInt8 :=
  [(crc &&& 0xFF).toUInt8, ((crc >>> 8) &&& 0xFF).toUInt8, ((crc >>> 16) &&& 0xFF).toUInt8,
    ((crc >>> 24) &&& 0xFF).toUInt8]

def sizeBytes (wireSize : UInt16) : List UInt8 :=
  [(wireSize &&& 0xFF).toUInt8, ((wireSize >>> 8) &&& 0xFF).toUInt8]

/-- What is stuffed: header, length, payload and checksum. -/
def frame (header : UInt8) (src : List UInt8) : List UInt8 :=
  header :: sizeBytes (UInt16.ofNat src.length) ++ src ++ crcBytes (crc32 src)

/-- `_z_serial_msg_serialize`: the bytes of `dest` up to the length returned. -/
def serialMsgSerialize (dest : ByteMemory) (destLen : ℕ) (src : List UInt8) (header : UInt8)
    (tmpBufLen : ℕ) : Option (List UInt8) :=
  let expectedSize := src.length + kindFieldLen + lenFieldLen + crc32Len
  if tmpBufLen < expectedSize then none
  else
    let (ret, dest) := cobsEncode (frame header src) dest
    if destLen < ret + 1 then none
    else some (ByteMemory.load (Function.update dest ret 0) 0 (ret + 1))

/-- `_z_serial_msg_deserialize`: the header and the payload. -/
def serialMsgDeserialize (src : List UInt8) (dstLen : ℕ) (tmpBuf : ByteMemory) (tmpBufLen : ℕ) :
    Option (UInt8 × List UInt8) :=
  if tmpBufLen < src.length then none
  else
    match cobsDecode src tmpBuf with
    | (none, _) => none
    | (some decodedSize, tmp) =>
      if decodedSize < kindFieldLen + lenFieldLen + crc32Len then none
      else
        let wireSize := ((tmp 1).toUInt16 ||| (tmp 2).toUInt16 <<< 8).toNat
        if wireSize + kindFieldLen + lenFieldLen + crc32Len ≠ decodedSize then none
        else if dstLen < wireSize then none
        else
          let dst := ByteMemory.load tmp 3 wireSize
          let at' := 3 + wireSize
          let receivedCrc := (tmp at').toUInt32 ||| (tmp (at' + 1)).toUInt32 <<< 8 |||
            (tmp (at' + 2)).toUInt32 <<< 16 ||| (tmp (at' + 3)).toUInt32 <<< 24
          if receivedCrc ≠ crc32 dst then none else some (tmp 0, dst)

/-! ### The port -/

/-- The reading loop of `_z_read_serial_internal`, with room for some more bytes: what it has
read, unless a read fails, and what it leaves. -/
def readRaw : (room : ℕ) → List UInt8 → Option (List UInt8) × List UInt8
  | 0, input => (some [], input)
  | _ + 1, [] => (none, [])
  | room + 1, byte :: input =>
    if byte = 0 then (some [byte], input)
    else
      let (raw, rest) := readRaw room input
      (raw.map (byte :: ·), rest)

/-- `_z_read_serial_internal`. -/
def readSerialInternal (tmpBuf : ByteMemory) (len : ℕ) (input : List UInt8) :
    Option (UInt8 × List UInt8) × List UInt8 :=
  match readRaw serialMaxCobsBufSize input with
  | (none, rest) => (none, rest)
  | (some raw, rest) => (serialMsgDeserialize raw len tmpBuf serialMfsSize, rest)

/-- What `_z_send_serial_internal` hands to `_z_serial_write_all`. -/
def sendSerialInternal (rawBuf : ByteMemory) (header : UInt8) (payload : List UInt8) :
    Option (List UInt8) :=
  serialMsgSerialize rawBuf serialMaxCobsBufSize payload header serialMfsSize

/-- Reads in a row, each into a buffer of the length given. -/
def readAll (tmpBuf : ByteMemory) : List ℕ → List UInt8 →
    List (Option (UInt8 × List UInt8)) × List UInt8
  | [], input => ([], input)
  | len :: lens, input =>
    let (received, input) := readSerialInternal tmpBuf len input
    let (others, input) := readAll tmpBuf lens input
    (received :: others, input)

/-! ### The encoder -/

/-- The code of a block that is not full. -/
theorem code_ne_ff {n : ℕ} (hn : n < 254) : UInt8.ofNat (n + 1) ≠ 0xFF := by
  rw [Ne, ← UInt8.toNat_inj, UInt8.toNat_ofNat']
  have hff : (0xFF : UInt8).toNat = 255 := rfl
  omega

section Encoder

variable {s : CobsEncoder} {begun : List UInt8}

/-- A block has begun at `codep`. -/
structure CobsEncoder.Begun (s : CobsEncoder) (begun : List UInt8) : Prop where
  length : begun.length < 254
  code : s.code = UInt8.ofNat (begun.length + 1)
  pos : s.pos = s.codep + 1 + begun.length
  bytes : s.output.load (s.codep + 1) begun.length = begun

/-- The block is closed. -/
theorem load_closed {output : ByteMemory} {codep : ℕ} {code : UInt8}
    (hcode : code = UInt8.ofNat (begun.length + 1))
    (hbytes : output.load (codep + 1) begun.length = begun) :
    ByteMemory.load (Function.update output codep code) 0 (codep + 1 + begun.length) =
      output.load 0 codep ++ Cobs.block begun := by
  have hrest : ByteMemory.load (Function.update output codep code) (codep + 1) begun.length =
      begun := by
    rw [← hbytes, ByteMemory.length_load]
    exact ByteMemory.load_congr fun i hi _ => Function.update_of_ne (by omega) _ _
  rw [ByteMemory.load_append, ByteMemory.load_concat, Nat.zero_add, Nat.zero_add,
    Function.update_self, hrest, ByteMemory.load_update_of_le (by omega), hcode, Cobs.block,
    List.append_assoc, List.singleton_append]

theorem begun_next {output : ByteMemory} {codep : ℕ} :
    CobsEncoder.Begun ⟨output, codep + 1, codep, 1⟩ [] where
  length := by simp
  code := rfl
  pos := rfl
  bytes := rfl

namespace CobsEncoder.Begun

/-- A byte at the end of the block. -/
theorem load_concat (h : s.Begun begun) (byte : UInt8) :
    ByteMemory.load (Function.update s.output s.pos byte) (s.codep + 1)
      (begun ++ [byte]).length = begun ++ [byte] := by
  have hpos := h.pos
  rw [List.length_append, List.length_singleton, ByteMemory.load_concat,
    ByteMemory.load_update_of_le (by omega), h.bytes, ← hpos, Function.update_self]

theorem code_concat (h : s.Begun begun) (byte : UInt8) :
    s.code + 1 = UInt8.ofNat ((begun ++ [byte]).length + 1) := by
  rw [h.code, List.length_append, List.length_singleton, UInt8.ofNat_add (begun.length + 1)]
  rfl

theorem pos_concat (h : s.Begun begun) (byte : UInt8) :
    s.pos + 1 = s.codep + 1 + (begun ++ [byte]).length := by
  rw [h.pos, List.length_append, List.length_singleton]
  omega

/-- The block with one more byte, while there is room in it. -/
theorem push (h : s.Begun begun) (byte : UInt8) (hroom : begun.length + 1 ≠ 254) :
    CobsEncoder.Begun ⟨Function.update s.output s.pos byte, s.pos + 1, s.codep, s.code + 1⟩
      (begun ++ [byte]) := by
  have hlength := h.length
  refine ⟨?_, h.code_concat byte, h.pos_concat byte, h.load_concat byte⟩
  rw [List.length_append, List.length_singleton]
  omega

end CobsEncoder.Begun

/-- What one byte does: it closes a block, or is one more of it. -/
theorem cobsEncodeByte_begun (h : s.Begun begun) (byte : UInt8) (len : ℕ) :
    cobsEncodeByte s byte (len + 1) =
      if byte = 0 then ⟨Function.update s.output s.codep s.code, s.pos + 1, s.pos, 1⟩
      else if begun.length + 1 = 254 then
        ⟨Function.update (Function.update s.output s.pos byte) s.codep (s.code + 1),
          s.pos + 1 + 1, s.pos + 1, 1⟩
      else ⟨Function.update s.output s.pos byte, s.pos + 1, s.codep, s.code + 1⟩ := by
  have hcode : s.code + 1 = 0xFF ↔ begun.length + 1 = 254 := by
    have hlength := h.length
    rw [h.code, ← UInt8.toNat_inj, UInt8.toNat_add, UInt8.toNat_ofNat', UInt8.toNat_one]
    have hff : (0xFF : UInt8).toNat = 255 := rfl
    omega
  by_cases hbyte : byte = 0
  · simp [cobsEncodeByte, hbyte]
  · by_cases hfull : begun.length + 1 = 254
    · simp [cobsEncodeByte, hbyte, hcode, hfull]
    · simp [cobsEncodeByte, hbyte, hcode, hfull]

/-- The loop writes the blocks, and nothing after them. -/
theorem cobsEncodeLoop_output (h : s.Begun begun) (input : List UInt8) :
    let last := cobsEncodeLoop s input
    last.pos = s.codep + (Cobs.encodeFrom begun input).length ∧
      ByteMemory.load (Function.update last.output last.codep last.code) 0 last.pos =
        s.output.load 0 s.codep ++ Cobs.encodeFrom begun input ∧
      last.codep < last.pos ∧ ∀ i, last.pos ≤ i → last.output i = s.output i := by
  induction input generalizing s begun with
  | nil =>
    refine ⟨?_, ?_, ?_, fun _ _ => rfl⟩
    · rw [cobsEncodeLoop, Cobs.encodeFrom, Cobs.length_block, h.pos]
      omega
    · rw [cobsEncodeLoop, Cobs.encodeFrom, h.pos]
      exact load_closed h.code h.bytes
    · rw [cobsEncodeLoop, h.pos]
      omega
  | cons byte input ih =>
    have hstep := cobsEncodeByte_begun h byte input.length
    have hpos := h.pos
    dsimp only
    rw [cobsEncodeLoop, hstep, Cobs.encodeFrom]
    by_cases hbyte : byte = 0
    · rw [if_pos hbyte, if_pos hbyte]
      obtain ⟨hlast, hload, hcodep, hkept⟩ := ih begun_next
      dsimp only at hlast hload hkept
      refine ⟨?_, ?_, hcodep, ?_⟩
      · rw [hlast, List.length_append, Cobs.length_block, hpos]
        omega
      · rw [hload, hpos, load_closed h.code h.bytes, List.append_assoc]
      · intro i hi
        rw [hkept i hi, Function.update_of_ne (by omega)]
    · rw [if_neg hbyte, if_neg hbyte]
      by_cases hfull : begun.length + 1 = 254
      · rw [if_pos hfull, if_pos hfull]
        obtain ⟨hlast, hload, hcodep, hkept⟩ := ih begun_next
        dsimp only at hlast hload hkept
        have hpos' := h.pos_concat byte
        refine ⟨?_, ?_, hcodep, ?_⟩
        · rw [hlast, List.length_append, Cobs.length_block]
          omega
        · rw [hload, hpos', load_closed (h.code_concat byte) (h.load_concat byte),
            List.append_assoc, ByteMemory.load_update_of_le (by omega)]
        · intro i hi
          rw [hkept i hi, Function.update_of_ne (by omega), Function.update_of_ne (by omega)]
      · rw [if_neg hfull, if_neg hfull]
        obtain ⟨hlast, hload, hcodep, hkept⟩ := ih (h.push byte hfull)
        dsimp only at hlast hload hkept
        have hlonger := Cobs.lt_length_encodeFrom (begun ++ [byte]) input
        rw [List.length_append, List.length_singleton] at hlonger
        refine ⟨hlast, ?_, hcodep, ?_⟩
        · rw [hload, ByteMemory.load_update_of_le (by omega)]
        · intro i hi
          rw [hkept i hi, Function.update_of_ne (by omega)]

end Encoder

/-- The encoder writes the blocks, and nothing after them. -/
theorem cobsEncode_output (input : List UInt8) (output : ByteMemory) :
    (cobsEncode input output).1 = (Cobs.encode input).length ∧
      (cobsEncode input output).2.load 0 (Cobs.encode input).length = Cobs.encode input ∧
      ∀ i, (Cobs.encode input).length ≤ i → (cobsEncode input output).2 i = output i := by
  obtain ⟨hlast, hload, hcodep, hkept⟩ := cobsEncodeLoop_output (@begun_next output 0) input
  have hsize : (cobsEncode input output).1 = (Cobs.encode input).length :=
    hlast.trans (Nat.zero_add _)
  refine ⟨hsize, ?_, fun i hi => ?_⟩
  · rw [← hsize]
    exact hload
  · have hi' : (cobsEncodeLoop ⟨output, 0 + 1, 0, 1⟩ input).pos ≤ i := hsize.le.trans hi
    have hne : i ≠ (cobsEncodeLoop ⟨output, 0 + 1, 0, 1⟩ input).codep := by omega
    exact (Function.update_of_ne hne _ _).trans (hkept i hi')

/-! ### The decoder -/

section Decoder

variable {s : CobsDecoder}

/-- What a block writes before its bytes. -/
def separator (code : UInt8) : List UInt8 := if code ≠ 0xFF then [0] else []

theorem cobsDecodeLoop_bytes (bytes input : List UInt8) (hlength : bytes.length < 256)
    (hblock : s.block = UInt8.ofNat bytes.length) :
    cobsDecodeLoop s (bytes ++ input) =
      cobsDecodeLoop ⟨s.output.store s.pos bytes, s.pos + bytes.length, s.code, 0⟩ input := by
  induction bytes generalizing s with
  | nil =>
    have hs : (⟨s.output, s.pos, s.code, 0⟩ : CobsDecoder) = s := by
      have hzero : s.block = 0 := hblock
      rw [← hzero]
    rw [List.nil_append, ByteMemory.store, List.length_nil, Nat.add_zero, hs]
  | cons byte bytes ih =>
    rw [List.length_cons] at hlength hblock
    have hpositive : s.block ≠ 0 := by
      rw [hblock, Ne, ← UInt8.toNat_inj, UInt8.toNat_ofNat', UInt8.toNat_zero]
      omega
    have hnext : s.block - 1 = UInt8.ofNat bytes.length := by
      rw [hblock, UInt8.ofNat_add]
      exact add_sub_cancel_right _ _
    rw [List.cons_append, cobsDecodeLoop, if_pos hpositive]
    refine (ih (s := ⟨_, _, _, _⟩) (by omega) hnext).trans ?_
    rw [ByteMemory.store, List.length_cons, Nat.add_assoc, Nat.add_comm 1]

theorem cobsDecodeLoop_block (bytes input : List UInt8) (hlength : bytes.length ≤ 254)
    (hblock : s.block = 0) :
    cobsDecodeLoop s (Cobs.block bytes ++ input) =
      cobsDecodeLoop ⟨s.output.store s.pos (separator s.code ++ bytes),
        s.pos + (separator s.code ++ bytes).length, UInt8.ofNat (bytes.length + 1), 0⟩ input := by
  have hcode : UInt8.ofNat (bytes.length + 1) ≠ 0 := by
    rw [Ne, ← UInt8.toNat_inj, UInt8.toNat_ofNat', UInt8.toNat_zero]
    omega
  have hrest : UInt8.ofNat (bytes.length + 1) - 1 = UInt8.ofNat bytes.length := by
    rw [UInt8.ofNat_add]
    exact add_sub_cancel_right _ _
  rw [Cobs.block, List.cons_append, cobsDecodeLoop, if_neg (not_not.mpr hblock)]
  dsimp only
  rw [if_neg hcode, cobsDecodeLoop_bytes bytes input (by omega) hrest, separator]
  by_cases hfull : s.code ≠ 0xFF
  · rw [if_pos hfull, if_pos hfull]
    dsimp only
    rw [List.singleton_append, ByteMemory.store, List.length_cons, Nat.add_assoc, Nat.add_comm 1]
  · rw [if_neg hfull, if_neg hfull]
    rfl

theorem load_store_after (m : ByteMemory) (address : ℕ) (bytes : List UInt8) :
    (m.store address bytes).load 0 (address + bytes.length) = m.load 0 address ++ bytes := by
  rw [ByteMemory.load_append, Nat.zero_add, ByteMemory.load_store,
    ByteMemory.load_store_of_le (by omega)]

/-- From this state on, the input decodes to some bytes after those there are. -/
def CobsDecoder.Decodes (s : CobsDecoder) (input bytes : List UInt8) : Prop :=
  ∃ output, cobsDecodeLoop s input = (some (s.pos + bytes.length), output) ∧
    output.load 0 (s.pos + bytes.length) = s.output.load 0 s.pos ++ bytes

/-- A block decodes to its bytes, with a zero before them after a block that was not full. -/
theorem CobsDecoder.Decodes.block {block input bytes : List UInt8} (hlength : block.length ≤ 254)
    (hblock : s.block = 0)
    (h : CobsDecoder.Decodes ⟨s.output.store s.pos (separator s.code ++ block),
      s.pos + (separator s.code ++ block).length, UInt8.ofNat (block.length + 1), 0⟩ input bytes) :
    s.Decodes (Cobs.block block ++ input) (separator s.code ++ block ++ bytes) := by
  obtain ⟨output, hrun, hload⟩ := h
  have hsum : s.pos + (separator s.code ++ block ++ bytes).length =
      s.pos + (separator s.code ++ block).length + bytes.length := by
    rw [List.length_append, Nat.add_assoc]
  refine ⟨output, ?_, ?_⟩
  · rw [cobsDecodeLoop_block block input hlength hblock, hrun, hsum]
  · rw [hsum, hload, load_store_after, List.append_assoc]

/-- After a block that was not full there is a zero to take back. -/
theorem CobsDecoder.decodes_end (hcode : s.code ≠ 0xFF) (hblock : s.block = 0) :
    s.Decodes [0] [] := by
  rw [Decodes, cobsDecodeLoop, if_neg (not_not.mpr hblock), if_pos hcode, if_pos rfl]
  dsimp only
  rw [if_neg (by omega), Nat.add_sub_cancel]
  refine ⟨_, rfl, ?_⟩
  rw [List.length_nil, Nat.add_zero, ByteMemory.load_update_of_le (by omega), List.append_nil]

/-- The blocks and the zero after them. -/
theorem cobsDecodeLoop_encodeFrom (begun bytes : List UInt8) (hlength : begun.length < 254)
    (hblock : s.block = 0) :
    s.Decodes (Cobs.encodeFrom begun bytes ++ [0]) (separator s.code ++ begun ++ bytes) := by
  induction bytes generalizing s begun with
  | nil =>
    rw [Cobs.encodeFrom]
    exact .block hlength.le hblock (CobsDecoder.decodes_end (code_ne_ff hlength) rfl)
  | cons byte bytes ih =>
    have hsplit : separator s.code ++ begun ++ byte :: bytes =
        separator s.code ++ (begun ++ [byte]) ++ bytes := by simp
    rw [Cobs.encodeFrom]
    by_cases hbyte : byte = 0
    · -- the next block is the one that puts the zero
      have hseparator : separator (UInt8.ofNat (begun.length + 1)) = [0] :=
        if_pos (code_ne_ff hlength)
      have hnext := ih (s := ⟨s.output.store s.pos (separator s.code ++ begun),
        s.pos + (separator s.code ++ begun).length, UInt8.ofNat (begun.length + 1), 0⟩)
        [] (by simp) rfl
      rw [hseparator] at hnext
      rw [if_pos hbyte, List.append_assoc, hbyte]
      exact .block hlength.le hblock hnext
    · rw [if_neg hbyte, hsplit]
      by_cases hfull : begun.length + 1 = 254
      · have hcode : UInt8.ofNat ((begun ++ [byte]).length + 1) = 0xFF := by
          rw [List.length_append, List.length_singleton, hfull]
          rfl
        have hnext := ih (s := ⟨s.output.store s.pos (separator s.code ++ (begun ++ [byte])),
          s.pos + (separator s.code ++ (begun ++ [byte])).length,
          UInt8.ofNat ((begun ++ [byte]).length + 1), 0⟩) [] (by simp) rfl
        rw [hcode] at hnext
        rw [if_pos hfull, List.append_assoc]
        exact .block (by simp [hfull]) hblock (hcode ▸ hnext)
      · rw [if_neg hfull]
        refine ih (begun ++ [byte]) ?_ hblock
        rw [List.length_append, List.length_singleton]
        omega

/-- The decoder undoes the encoder. -/
theorem cobsDecode_encode (bytes : List UInt8) (output : ByteMemory) :
    ∃ memory, cobsDecode (Cobs.encode bytes ++ [0]) output = (some bytes.length, memory) ∧
      memory.load 0 bytes.length = bytes := by
  obtain ⟨memory, hrun, hload⟩ := cobsDecodeLoop_encodeFrom (s := ⟨output, 0, 0xFF, 0⟩) [] bytes
    (by simp) rfl
  have hnone : separator 0xFF = [] := by decide
  rw [hnone, List.append_nil, List.nil_append] at hrun hload
  dsimp only at hrun hload
  rw [Nat.zero_add] at hrun hload
  exact ⟨memory, hrun, hload⟩

end Decoder

/-! ### One frame -/

theorem lor_shiftLeft {a k : ℕ} (b : ℕ) (h : a < 2 ^ k) : a ||| b <<< k = a + b * 2 ^ k := by
  rw [Nat.lor_comm, ← Nat.shiftLeft_add_eq_or_of_lt h, Nat.shiftLeft_eq, Nat.add_comm]

theorem land_ff (n : ℕ) : n &&& 255 = n % 256 := Nat.and_two_pow_sub_one_eq_mod n 8

/-- The length from its two bytes. -/
theorem wireSize_sizeBytes (w : UInt16) :
    (w &&& 0xFF).toUInt8.toUInt16 ||| ((w >>> 8) &&& 0xFF).toUInt8.toUInt16 <<< 8 = w := by
  have hw := w.toNat_lt
  apply UInt16.toNat_inj.mp
  simp only [UInt16.toNat_or, UInt16.toNat_shiftLeft, UInt8.toNat_toUInt16, UInt16.toNat_toUInt8,
    UInt16.toNat_and, UInt16.toNat_shiftRight, UInt16.reduceToNat, land_ff]
  norm_num
  rw [Nat.shiftRight_eq_div_pow, Nat.mod_eq_of_lt (a := _ <<< 8), lor_shiftLeft _ (by omega)]
  · omega
  · rw [Nat.shiftLeft_eq]
    omega

/-- The checksum from its four bytes. -/
theorem receivedCrc_crcBytes (w : UInt32) :
    (w &&& 0xFF).toUInt8.toUInt32 ||| ((w >>> 8) &&& 0xFF).toUInt8.toUInt32 <<< 8 |||
      ((w >>> 16) &&& 0xFF).toUInt8.toUInt32 <<< 16 |||
      ((w >>> 24) &&& 0xFF).toUInt8.toUInt32 <<< 24 = w := by
  have hw := w.toNat_lt
  have hfits (n k : ℕ) (hk : k ≤ 24) : (n % 256) <<< k % 4294967296 = (n % 256) <<< k := by
    have hpow : 2 ^ k ≤ 2 ^ 24 := Nat.pow_le_pow_right (by norm_num) hk
    refine Nat.mod_eq_of_lt ?_
    rw [Nat.shiftLeft_eq]
    calc n % 256 * 2 ^ k ≤ 255 * 2 ^ 24 := Nat.mul_le_mul (by omega) hpow
      _ < 4294967296 := by norm_num
  apply UInt32.toNat_inj.mp
  simp only [UInt32.toNat_or, UInt32.toNat_shiftLeft, UInt8.toNat_toUInt32, UInt32.toNat_toUInt8,
    UInt32.toNat_and, UInt32.toNat_shiftRight, UInt32.reduceToNat, land_ff]
  norm_num
  simp only [Nat.shiftRight_eq_div_pow]
  rw [hfits _ 8 (by norm_num), hfits _ 16 (by norm_num), hfits _ 24 (by norm_num),
    lor_shiftLeft (w.toNat / 2 ^ 8 % 256) (by omega),
    lor_shiftLeft (w.toNat / 2 ^ 16 % 256) (by omega),
    lor_shiftLeft (w.toNat / 2 ^ 24 % 256) (by omega)]
  omega

variable {header : UInt8} {payload : List UInt8}

theorem length_frame (header : UInt8) (payload : List UInt8) :
    (frame header payload).length = payload.length + 7 := by
  simp [frame, sizeBytes, crcBytes]

/-- What the deserializer finds in a frame. -/
theorem frame_parts {m : ByteMemory}
    (h : m.load 0 (payload.length + 7) = frame header payload) (hlength : payload.length < 65536) :
    m 0 = header ∧
      ((m 1).toUInt16 ||| (m 2).toUInt16 <<< 8).toNat = payload.length ∧
      m.load 3 payload.length = payload ∧
      (m (3 + payload.length)).toUInt32 ||| (m (3 + payload.length + 1)).toUInt32 <<< 8 |||
        (m (3 + payload.length + 2)).toUInt32 <<< 16 |||
        (m (3 + payload.length + 3)).toUInt32 <<< 24 = crc32 payload := by
  have hhead : payload.length + 7 = [header, (UInt16.ofNat payload.length &&& 0xFF).toUInt8,
      ((UInt16.ofNat payload.length >>> 8) &&& 0xFF).toUInt8].length + (payload.length + 4) := by
    simp
    omega
  rw [hhead] at h
  obtain ⟨hfirst, hrest⟩ := ByteMemory.load_eq_append (h.trans (List.append_assoc
    (header :: sizeBytes (UInt16.ofNat payload.length)) payload (crcBytes (crc32 payload))))
  obtain ⟨hpayload, hcrc⟩ := ByteMemory.load_eq_append hrest
  simp only [ByteMemory.load, List.cons.injEq, and_true, List.length_cons, List.length_nil]
    at hfirst hcrc
  obtain ⟨hheader, hlow, hhigh⟩ := hfirst
  simp only [crcBytes, List.cons.injEq, and_true] at hcrc
  obtain ⟨h0, h1, h2, h3⟩ := hcrc
  refine ⟨hheader, ?_, hpayload, ?_⟩
  · have hsize : (m 1).toUInt16 ||| (m 2).toUInt16 <<< 8 = UInt16.ofNat payload.length := by
      rw [show m 1 = _ from hlow, show m 2 = _ from hhigh]
      exact wireSize_sizeBytes _
    rw [hsize, UInt16.toNat_ofNat', Nat.mod_eq_of_lt hlength]
  · rw [show m (3 + payload.length) = _ from h0, show m (3 + payload.length + 1) = _ from h1,
      show m (3 + payload.length + 2) = _ from h2, show m (3 + payload.length + 3) = _ from h3]
    exact receivedCrc_crcBytes _

/-- A frame is received if it fits the buffers. -/
theorem serialMsgDeserialize_frame (header : UInt8) (payload : List UInt8) (dstLen : ℕ)
    (tmpBuf : ByteMemory) (tmpBufLen : ℕ) (hlength : payload.length < 65536) :
    serialMsgDeserialize (Cobs.encode (frame header payload) ++ [0]) dstLen tmpBuf tmpBufLen =
      if (Cobs.encode (frame header payload) ++ [0]).length ≤ tmpBufLen ∧
        payload.length ≤ dstLen then some (header, payload) else none := by
  obtain ⟨tmp, hdecode, hload⟩ := cobsDecode_encode (frame header payload) tmpBuf
  rw [length_frame] at hdecode hload
  obtain ⟨hheader, hsize, hpayload, hcrc⟩ := frame_parts hload hlength
  rw [serialMsgDeserialize, hdecode]
  by_cases hroom : (Cobs.encode (frame header payload) ++ [0]).length ≤ tmpBufLen
  · have hlong : ¬payload.length + 7 < kindFieldLen + lenFieldLen + crc32Len := by
      simp [kindFieldLen, lenFieldLen, crc32Len]
    have hmatches : ¬payload.length + kindFieldLen + lenFieldLen + crc32Len ≠
        payload.length + 7 := by
      simp [kindFieldLen, lenFieldLen, crc32Len]
    rw [if_neg (by omega)]
    dsimp only
    rw [if_neg hlong, hsize, if_neg hmatches]
    by_cases hdst : payload.length ≤ dstLen
    · rw [if_neg (by omega), hpayload, hcrc, if_neg (not_not.mpr rfl), hheader,
        if_pos ⟨hroom, hdst⟩]
    · rw [if_pos (by omega), if_neg fun h => hdst h.2]
  · rw [if_pos (by omega), if_neg fun h => hroom h.1]

/-- A payload that is not too long is sent as a frame and a zero. -/
theorem sendSerialInternal_eq (rawBuf : ByteMemory) (header : UInt8) (payload : List UInt8) :
    sendSerialInternal rawBuf header payload =
      if payload.length ≤ 1500 then some (Cobs.encode (frame header payload) ++ [0]) else none := by
  obtain ⟨hsize, hload, -⟩ := cobsEncode_output (frame header payload) rawBuf
  have hlength := Cobs.length_encode_le (frame header payload)
  rw [length_frame] at hlength
  rw [sendSerialInternal, serialMsgSerialize]
  dsimp only
  by_cases hshort : payload.length ≤ 1500
  · have hfits : ¬serialMfsSize < payload.length + kindFieldLen + lenFieldLen + crc32Len := by
      simp only [serialMfsSize, kindFieldLen, lenFieldLen, crc32Len]
      omega
    have hroom : ¬serialMaxCobsBufSize < (cobsEncode (frame header payload) rawBuf).1 + 1 := by
      rw [hsize, serialMaxCobsBufSize]
      omega
    rw [if_neg hfits, if_neg hroom, if_pos hshort, hsize, ByteMemory.load_concat, Nat.zero_add,
      Function.update_self, ByteMemory.load_update_of_le (by omega), hload]
  · have hlong : serialMfsSize < payload.length + kindFieldLen + lenFieldLen + crc32Len := by
      simp only [serialMfsSize, kindFieldLen, lenFieldLen, crc32Len]
      omega
    rw [if_pos hlong, if_neg hshort]

/-! ### Buffers -/

/-- The decoder writes at most one byte for each one it reads. -/
theorem cobsDecodeLoop_kept (s : CobsDecoder) (input : List UInt8) {i : ℕ}
    (hi : s.pos + input.length ≤ i) : (cobsDecodeLoop s input).2 i = s.output i := by
  induction input generalizing s with
  | nil => rfl
  | cons byte input ih =>
    rw [List.length_cons] at hi
    rw [cobsDecodeLoop]
    by_cases hblock : s.block ≠ 0
    · rw [if_pos hblock, ih _ (by dsimp only; omega)]
      exact Function.update_of_ne (by omega) _ _
    · rw [if_neg hblock]
      by_cases hfull : s.code ≠ 0xFF
      · rw [if_pos hfull]
        have hkept : Function.update s.output s.pos 0 i = s.output i :=
          Function.update_of_ne (by omega) _ _
        dsimp only
        split
        · exact hkept
        · rw [ih _ (by dsimp only; omega)]
          exact hkept
      · rw [if_neg hfull]
        dsimp only
        split
        · rfl
        · rw [ih _ (by dsimp only; omega)]

/-- **No byte is written outside the buffers.**  The encoder stays within the buffer that the
sender gives it for every payload that passes its check, and the decoder within the
receiver's for every input that passes its own, frame or not. -/
theorem buffers_kept (header : UInt8) (payload src : List UInt8) (rawBuf tmpBuf : ByteMemory) :
    (payload.length + kindFieldLen + lenFieldLen + crc32Len ≤ serialMfsSize →
        ∀ i, serialMaxCobsBufSize ≤ i → (cobsEncode (frame header payload) rawBuf).2 i = rawBuf i) ∧
      (src.length ≤ serialMfsSize →
        ∀ i, serialMfsSize ≤ i → (cobsDecode src tmpBuf).2 i = tmpBuf i) := by
  constructor
  · intro hpayload i hi
    have hlength := Cobs.length_encode_le (frame header payload)
    rw [length_frame] at hlength
    refine (cobsEncode_output (frame header payload) rawBuf).2.2 i ?_
    simp only [serialMfsSize, serialMaxCobsBufSize, kindFieldLen, lenFieldLen, crc32Len]
      at hpayload hi
    omega
  · intro hsrc i hi
    refine cobsDecodeLoop_kept ⟨tmpBuf, 0, 0xFF, 0⟩ src ?_
    dsimp only
    omega

/-! ### Frames and noise -/

/-- What one read takes: noise with a zero of its own, as much of longer noise as it has room
for, a frame, or a frame that noise without a zero has run into. -/
inductive Segment
  | noise (bytes : List UInt8)
  | flood (bytes : List UInt8)
  | sent (header : UInt8) (payload : List UInt8)
  | hit (bytes : List UInt8) (header : UInt8) (payload : List UInt8)

/-- The bytes of a segment, a frame as it is sent. -/
def Segment.wire (rawBuf : ByteMemory) : Segment → List UInt8
  | .noise bytes => bytes ++ [0]
  | .flood bytes => bytes
  | .sent header payload => (sendSerialInternal rawBuf header payload).getD []
  | .hit bytes header payload => bytes ++ (sendSerialInternal rawBuf header payload).getD []

/-- Noise that has no other zero and ends when the receiver's buffer does, if not before, and
payloads that can be sent. -/
def Segment.Fair (rawBuf : ByteMemory) : Segment → Prop
  | .noise bytes => 0 ∉ bytes ∧ bytes.length < serialMaxCobsBufSize
  | .flood bytes => 0 ∉ bytes ∧ bytes.length = serialMaxCobsBufSize
  | .sent _ payload => payload.length ≤ 1500
  | .hit bytes header payload => 0 ∉ bytes ∧ payload.length ≤ 1500 ∧
    ((Segment.hit bytes header payload).wire rawBuf).length ≤ serialMaxCobsBufSize

instance (rawBuf : ByteMemory) : (segment : Segment) → Decidable (segment.Fair rawBuf)
  | .noise bytes =>
    inferInstanceAs (Decidable (0 ∉ bytes ∧ bytes.length < serialMaxCobsBufSize))
  | .flood bytes =>
    inferInstanceAs (Decidable (0 ∉ bytes ∧ bytes.length = serialMaxCobsBufSize))
  | .sent _ payload => inferInstanceAs (Decidable (payload.length ≤ 1500))
  | .hit bytes header payload =>
    inferInstanceAs (Decidable (0 ∉ bytes ∧ payload.length ≤ 1500 ∧
      ((Segment.hit bytes header payload).wire rawBuf).length ≤ serialMaxCobsBufSize))

/-- What a read into a buffer of some length makes of a segment: it takes a frame that fits. -/
def Segment.received (rawBuf tmpBuf : ByteMemory) (len : ℕ) :
    Segment → Option (UInt8 × List UInt8)
  | .noise bytes => serialMsgDeserialize (bytes ++ [0]) len tmpBuf serialMfsSize
  | .flood _ => none
  | .sent header payload =>
    if ((Segment.sent header payload).wire rawBuf).length ≤ serialMfsSize ∧
      payload.length ≤ len then some (header, payload) else none
  | .hit bytes header payload =>
    serialMsgDeserialize ((Segment.hit bytes header payload).wire rawBuf) len tmpBuf serialMfsSize

/-- The reading loop stops at the zero. -/
theorem readRaw_segment {room : ℕ} {bytes : List UInt8} (hzero : 0 ∉ bytes)
    (hroom : bytes.length < room) (rest : List UInt8) :
    readRaw room (bytes ++ 0 :: rest) = (some (bytes ++ [0]), rest) := by
  induction bytes generalizing room with
  | nil =>
    obtain ⟨room, rfl⟩ : ∃ n, room = n + 1 := Nat.exists_eq_add_one.mpr hroom
    rw [List.nil_append, readRaw, if_pos rfl]
    rfl
  | cons byte bytes ih =>
    rw [List.mem_cons, not_or] at hzero
    rw [List.length_cons] at hroom
    obtain ⟨room, rfl⟩ : ∃ n, room = n + 1 := Nat.exists_eq_add_one.mpr (by omega)
    rw [List.cons_append, readRaw, if_neg (Ne.symm hzero.1), ih hzero.2 (by omega)]
    rfl

/-- Or where it has no more room. -/
theorem readRaw_flood {bytes : List UInt8} (hzero : 0 ∉ bytes) (rest : List UInt8) :
    readRaw bytes.length (bytes ++ rest) = (some bytes, rest) := by
  induction bytes with
  | nil => rfl
  | cons byte bytes ih =>
    rw [List.mem_cons, not_or] at hzero
    rw [List.length_cons, List.cons_append, readRaw, if_neg (Ne.symm hzero.1), ih hzero.2]
    rfl

theorem Segment.wire_sent (rawBuf : ByteMemory) (h : payload.length ≤ 1500) :
    (Segment.sent header payload).wire rawBuf = Cobs.encode (frame header payload) ++ [0] := by
  rw [wire, sendSerialInternal_eq, if_pos h]
  rfl

/-- A segment is what one read takes. -/
theorem Segment.Fair.readRaw_wire {rawBuf : ByteMemory} {segment : Segment}
    (h : segment.Fair rawBuf) (rest : List UInt8) :
    readRaw serialMaxCobsBufSize (segment.wire rawBuf ++ rest) =
      (some (segment.wire rawBuf), rest) := by
  have hended {bytes : List UInt8} (hzero : 0 ∉ bytes)
      (hroom : bytes.length < serialMaxCobsBufSize) :
      readRaw serialMaxCobsBufSize ((bytes ++ [0]) ++ rest) = (some (bytes ++ [0]), rest) := by
    rw [List.append_assoc, List.singleton_append]
    exact readRaw_segment hzero hroom rest
  cases segment with
  | noise bytes => exact hended h.1 h.2
  | flood bytes =>
    have hfull : bytes.length = serialMaxCobsBufSize := h.2
    rw [← hfull]
    exact readRaw_flood h.1 rest
  | sent header payload =>
    have hsent : payload.length ≤ 1500 := h
    have hlength := Cobs.length_encode_le (frame header payload)
    rw [length_frame] at hlength
    rw [wire_sent rawBuf hsent]
    refine hended (Cobs.zero_notMem_encode _) ?_
    rw [serialMaxCobsBufSize]
    omega
  | hit bytes header payload =>
    obtain ⟨hzero, hsent, hroom⟩ := h
    have hwire : (Segment.hit bytes header payload).wire rawBuf =
        (bytes ++ Cobs.encode (frame header payload)) ++ [0] := by
      rw [List.append_assoc, ← wire_sent rawBuf hsent]
      rfl
    rw [hwire] at hroom ⊢
    refine hended ?_ ?_
    · rw [List.mem_append, not_or]
      exact ⟨hzero, Cobs.zero_notMem_encode _⟩
    · rw [List.length_append, List.length_singleton] at hroom
      exact hroom

theorem Segment.Fair.deserialize {rawBuf : ByteMemory} {segment : Segment}
    (h : segment.Fair rawBuf) (tmpBuf : ByteMemory) (len : ℕ) :
    serialMsgDeserialize (segment.wire rawBuf) len tmpBuf serialMfsSize =
      segment.received rawBuf tmpBuf len := by
  cases segment with
  | noise bytes => rfl
  | flood bytes =>
    have hfull : bytes.length = serialMaxCobsBufSize := h.2
    refine if_pos ?_
    show serialMfsSize < bytes.length
    rw [hfull]
    decide
  | sent header payload =>
    have hsent : payload.length ≤ 1500 := h
    rw [received, wire_sent rawBuf hsent]
    exact serialMsgDeserialize_frame header payload len tmpBuf serialMfsSize (by omega)
  | hit bytes header payload => rfl

/-- One read takes one segment. -/
theorem Segment.Fair.read {rawBuf : ByteMemory} {segment : Segment} (h : segment.Fair rawBuf)
    (tmpBuf : ByteMemory) (len : ℕ) (rest : List UInt8) :
    readSerialInternal tmpBuf len (segment.wire rawBuf ++ rest) =
      (segment.received rawBuf tmpBuf len, rest) := by
  rw [readSerialInternal, h.readRaw_wire rest, ← h.deserialize tmpBuf len]

/-- **Frames are received one by one.**  Each read takes what is on the wire up to the next
zero, or as much as it has room for: of a frame that fits the receiver's buffers it returns
the header and the payload, and one that does not fit is lost without any other.  Noise may
end in a zero of its own, or go on for more than a read; if it runs into a frame, only that
frame is read with it. -/
theorem frames_received (rawBuf tmpBuf : ByteMemory) (segments : List (Segment × ℕ))
    (rest : List UInt8) (hfair : ∀ p ∈ segments, p.1.Fair rawBuf) :
    readAll tmpBuf (segments.map Prod.snd)
        (segments.flatMap (fun p => p.1.wire rawBuf) ++ rest) =
      (segments.map fun p => p.1.received rawBuf tmpBuf p.2, rest) := by
  induction segments with
  | nil => rfl
  | cons p segments ih =>
    have hothers := ih fun q hq => hfair q (List.mem_cons_of_mem _ hq)
    rw [List.map_cons, readAll, List.flatMap_cons, List.append_assoc,
      (hfair p List.mem_cons_self).read]
    dsimp only
    rw [hothers]
    rfl

def noBytes : ByteMemory := fun _ => 0

/-- Noise with a zero, a frame, another one that noise has run into, and a third. -/
theorem frames_received_noise :
    readAll noBytes [8, 8, 8, 8]
        (([7, 7, 0] ++ ((sendSerialInternal noBytes 1 [0, 5, 0]).getD [] ++
          ((7 :: (sendSerialInternal noBytes 1 [6]).getD []) ++
            ((sendSerialInternal noBytes 1 []).getD [] ++ [])))) ++ [9]) =
      ([none, some (1, [0, 5, 0]), none, some (1, [])], [9]) :=
  (frames_received noBytes noBytes
    [(.noise [7, 7], 8), (.sent 1 [0, 5, 0], 8), (.hit [7] 1 [6], 8), (.sent 1 [], 8)] [9]
    (by decide +kernel)).trans (by decide +kernel)

/-- **What the link carries.**  A payload of up to 1493 bytes is always received, one of more
than 1500 is never sent, and one of 1499 or 1500, which the declared unit allows, is sent but
never received: its frame is longer than the receiver's second buffer. -/
theorem link_carries (rawBuf tmpBuf : ByteMemory) (header : UInt8) (payload : List UInt8)
    (rest : List UInt8) :
    (payload.length ≤ 1493 → ∃ wire, sendSerialInternal rawBuf header payload = some wire ∧
        readSerialInternal tmpBuf payload.length (wire ++ rest) =
          (some (header, payload), rest)) ∧
      (1499 ≤ payload.length → payload.length ≤ 1500 →
        ∃ wire, sendSerialInternal rawBuf header payload = some wire ∧
          ∀ len, readSerialInternal tmpBuf len (wire ++ rest) = (none, rest)) ∧
      (1500 < payload.length → sendSerialInternal rawBuf header payload = none) := by
  have hlength := Cobs.length_encode_le (frame header payload)
  have hlonger := Cobs.lt_length_encode (frame header payload)
  rw [length_frame] at hlength hlonger
  have hsend := sendSerialInternal_eq rawBuf header payload
  have hread := fun (h : payload.length ≤ 1500) (len : ℕ) =>
    (show (Segment.sent header payload).Fair rawBuf from h).read tmpBuf len rest
  refine ⟨?_, ?_, ?_⟩
  · intro hshort
    have hsent : payload.length ≤ 1500 := by omega
    have hfits : (Cobs.encode (frame header payload) ++ [0]).length ≤ serialMfsSize := by
      rw [List.length_append, List.length_singleton, serialMfsSize]
      omega
    have hreceived := hread hsent payload.length
    rw [Segment.received, Segment.wire_sent rawBuf hsent, if_pos ⟨hfits, le_rfl⟩] at hreceived
    rw [if_pos hsent] at hsend
    exact ⟨_, hsend, hreceived⟩
  · intro hlong hsent
    have hunfit : ¬(Cobs.encode (frame header payload) ++ [0]).length ≤ serialMfsSize := by
      rw [List.length_append, List.length_singleton, serialMfsSize]
      omega
    rw [if_pos hsent] at hsend
    refine ⟨_, hsend, fun len => ?_⟩
    have hreceived := hread hsent len
    rwa [Segment.received, Segment.wire_sent rawBuf hsent, if_neg fun h => hunfit h.1] at hreceived
  · intro hlong
    rw [hsend, if_neg (by omega)]

end SerialFrame
