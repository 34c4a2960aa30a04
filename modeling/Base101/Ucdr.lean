/-
The buffer in which messages are serialized (`lib/microcdr`: `common.c`, `types/basic.c`,
`types/array.c`).

A number of 2, 4 or 8 bytes starts at a multiple of its size.  The library does not look at
the position when what it wrote last had at least that size.  The buffers here have no
callback for when they are full, and the byte order of the machine, which is little endian.

* `bufferAlignment_eq` — the short cut gives the padding that the position asks for;
* `serializeNumber_fits`, `deserializeNumber_fits` — a number, where there is room;
* `serializeArray_fits`, `deserializeArray_fits` — bytes in a row;
* `Contained` — where there is no room, nothing past the buffer is written.
-/
import Base101.ByteMemory

/-- `ucdrBuffer`; addresses count from `init`. -/
structure UcdrBuffer where
  memory : ByteMemory
  final : ℕ
  iterator : ℕ
  offset : ℕ
  lastDataSize : ℕ
  error : Bool

namespace Ucdr

/-! ### The buffer -/

/-- `ucdr_init_buffer`. -/
def initBuffer (memory : ByteMemory) (size : ℕ) : UcdrBuffer where
  memory
  final := size
  iterator := 0
  offset := 0
  lastDataSize := 0
  error := false

/-- `ucdr_buffer_alignment`. -/
def bufferAlignment (b : UcdrBuffer) (dataSize : ℕ) : ℕ :=
  if b.lastDataSize < dataSize then (dataSize - b.offset % dataSize) &&& (dataSize - 1) else 0

/-- `ucdr_check_buffer_available_for`. -/
def checkBufferAvailableFor (b : UcdrBuffer) (bytes : ℕ) : Bool :=
  !b.error && b.iterator + bytes ≤ b.final

/-- `ucdr_check_final_buffer_behavior`, which sets the error and returns its opposite. -/
def checkFinalBufferBehavior (b : UcdrBuffer) : UcdrBuffer :=
  if !b.error && b.final ≤ b.iterator then { b with error := true } else b

/-- `ucdr_check_final_buffer_behavior_array`: how many bytes come next. -/
def checkFinalBufferBehaviorArray (b : UcdrBuffer) (bytes : ℕ) : ℕ × UcdrBuffer :=
  let b :=
    if !b.error && b.final ≤ b.iterator && 0 < bytes then { b with error := true } else b
  (if b.error then 0 else if bytes ≤ b.final - b.iterator then bytes else b.final - b.iterator, b)

def advance (b : UcdrBuffer) (size : ℕ) : UcdrBuffer :=
  { b with iterator := b.iterator + size, offset := b.offset + size }

/-- The loop of `ucdr_advance_buffer`; a round takes at least one byte. -/
def advanceLoop : (rounds : ℕ) → UcdrBuffer → (remainingSize : ℕ) → UcdrBuffer
  | 0, b, _ => b
  | rounds + 1, b, remainingSize =>
    let (serializationSize, b) := checkFinalBufferBehaviorArray b remainingSize
    if serializationSize = 0 then b
    else advanceLoop rounds (advance b serializationSize) (remainingSize - serializationSize)

/-- `ucdr_advance_buffer`. -/
def advanceBuffer (b : UcdrBuffer) (size : ℕ) : UcdrBuffer :=
  let b :=
    if checkBufferAvailableFor b size then advance b size else advanceLoop (size + 1) b size
  { b with lastDataSize := 1 }

/-- `memcpy` at the iterator, and past it. -/
def copyIn (b : UcdrBuffer) (bytes : List UInt8) : UcdrBuffer :=
  advance { b with memory := b.memory.store b.iterator bytes } bytes.length

/-! ### Numbers -/

/-- `UCDR_SERIALIZE_BYTE_1`. -/
def serializeByte (b : UcdrBuffer) (value : UInt8) : UcdrBuffer :=
  let b := checkFinalBufferBehavior b
  if b.error then b else { copyIn b [value] with lastDataSize := 1 }

/-- `UCDR_SERIALIZE_BYTE_N`, of the bytes of a number. -/
def serializeBytes (b : UcdrBuffer) (value : List UInt8) : UcdrBuffer :=
  let alignment := bufferAlignment b value.length
  let lastDataSize := b.lastDataSize
  let b := advanceBuffer b alignment
  if checkBufferAvailableFor b value.length then
    { copyIn b value with lastDataSize := value.length }
  else if b.iterator < b.final then
    let firstSlot := b.iterator
    let firstSlotSize := b.final - b.iterator
    let b := checkFinalBufferBehavior (advance b firstSlotSize)
    if b.error then
      { b with
        iterator := b.iterator - firstSlotSize, offset := b.offset - firstSlotSize, lastDataSize }
    else
      let b := { b with memory := b.memory.store firstSlot (value.take firstSlotSize) }
      { copyIn b (value.drop firstSlotSize) with lastDataSize := value.length }
  else
    let b := checkFinalBufferBehavior b
    if b.error then b else { copyIn b value with lastDataSize := value.length }

/-- `ucdr_serialize` of a number with a size. -/
def serializeNumber (b : UcdrBuffer) (size value : ℕ) : Bool × UcdrBuffer :=
  let b :=
    if size = 1 then serializeByte b (UInt8.ofNat value)
    else serializeBytes b (ByteMemory.littleEndian size value)
  (!b.error, b)

/-- `UCDR_DESERIALIZE_BYTE_1`; without a value where it is not set. -/
def deserializeByte (b : UcdrBuffer) : Option UInt8 × UcdrBuffer :=
  let b := checkFinalBufferBehavior b
  if b.error then (none, b)
  else (some (b.memory b.iterator), { advance b 1 with lastDataSize := 1 })

/-- `UCDR_DESERIALIZE_BYTE_N`. -/
def deserializeBytes (b : UcdrBuffer) (size : ℕ) : Option (List UInt8) × UcdrBuffer :=
  let alignment := bufferAlignment b size
  let lastDataSize := b.lastDataSize
  let b := advanceBuffer b alignment
  if checkBufferAvailableFor b size then
    (some (b.memory.load b.iterator size), { advance b size with lastDataSize := size })
  else if b.iterator < b.final then
    let firstSlot := b.iterator
    let firstSlotSize := b.final - b.iterator
    let b := checkFinalBufferBehavior (advance b firstSlotSize)
    if b.error then
      (none,
        { b with
          iterator := b.iterator - firstSlotSize, offset := b.offset - firstSlotSize
          lastDataSize })
    else
      (some (b.memory.load firstSlot firstSlotSize ++
          b.memory.load b.iterator (size - firstSlotSize)),
        { advance b (size - firstSlotSize) with lastDataSize := size })
  else
    let b := checkFinalBufferBehavior b
    if b.error then (none, b)
    else (some (b.memory.load b.iterator size), { advance b size with lastDataSize := size })

/-- `ucdr_deserialize` of a number with a size. -/
def deserializeNumber (b : UcdrBuffer) (size : ℕ) : Option ℕ × UcdrBuffer :=
  if size = 1 then
    let (value, b) := deserializeByte b
    (value.map UInt8.toNat, b)
  else
    let (value, b) := deserializeBytes b size
    (value.map ByteMemory.ofLittleEndian, b)

/-! ### Arrays -/

/-- The loop of `ucdr_array_to_buffer`. -/
def arrayToBufferLoop : (rounds : ℕ) → UcdrBuffer → List UInt8 → UcdrBuffer
  | 0, b, _ => b
  | rounds + 1, b, array =>
    let (serializationSize, b) := checkFinalBufferBehaviorArray b array.length
    if serializationSize = 0 then b
    else
      arrayToBufferLoop rounds (copyIn b (array.take serializationSize))
        (array.drop serializationSize)

/-- `ucdr_array_to_buffer`. -/
def arrayToBuffer (b : UcdrBuffer) (array : List UInt8) (dataSize : ℕ) : UcdrBuffer :=
  let b :=
    if checkBufferAvailableFor b array.length then copyIn b array
    else arrayToBufferLoop (array.length + 1) b array
  { b with lastDataSize := dataSize }

/-- The loop of `ucdr_buffer_to_array`. -/
def bufferToArrayLoop : (rounds : ℕ) → UcdrBuffer → (remainingSize : ℕ) →
    List UInt8 × UcdrBuffer
  | 0, b, _ => ([], b)
  | rounds + 1, b, remainingSize =>
    let (deserializationSize, b) := checkFinalBufferBehaviorArray b remainingSize
    if deserializationSize = 0 then ([], b)
    else
      let (array, b') := bufferToArrayLoop rounds (advance b deserializationSize)
        (remainingSize - deserializationSize)
      (b.memory.load b.iterator deserializationSize ++ array, b')

/-- `ucdr_buffer_to_array`: as much of the array as is set. -/
def bufferToArray (b : UcdrBuffer) (size dataSize : ℕ) : List UInt8 × UcdrBuffer :=
  let (array, b) :=
    if checkBufferAvailableFor b size then (b.memory.load b.iterator size, advance b size)
    else bufferToArrayLoop (size + 1) b size
  (array, { b with lastDataSize := dataSize })

/-- The padding before an array, after which the last size is the one before it. -/
def alignArray (b : UcdrBuffer) (dataSize : ℕ) : UcdrBuffer :=
  if dataSize = 1 then b
  else
    { advanceBuffer b (bufferAlignment b dataSize) with lastDataSize := b.lastDataSize }

/-- `ucdr_serialize_array`, of the bytes of numbers with a size. -/
def serializeArray (b : UcdrBuffer) (dataSize : ℕ) (array : List UInt8) : Bool × UcdrBuffer :=
  let b := arrayToBuffer (alignArray b dataSize) array dataSize
  (!b.error, b)

/-- `ucdr_deserialize_array`, of some numbers with a size. -/
def deserializeArray (b : UcdrBuffer) (dataSize number : ℕ) :
    Bool × List UInt8 × UcdrBuffer :=
  let (array, b) := bufferToArray (alignArray b dataSize) (number * dataSize) dataSize
  (!b.error, array, b)

/-! ### Where there is room -/

/-- The padding before a number at a position. -/
def padding (size position : ℕ) : ℕ := (size - position % size) % size

/-- Where a number at a position starts. -/
def aligned (size position : ℕ) : ℕ := position + padding size position

/-- The sizes of the numbers. -/
def NumberSize (size : ℕ) : Prop := size = 1 ∨ size = 2 ∨ size = 4 ∨ size = 8

instance (size : ℕ) : Decidable (NumberSize size) := inferInstanceAs (Decidable (_ ∨ _ ∨ _ ∨ _))

/-- No error, and the position is a multiple of the last size. -/
structure Ready (b : UcdrBuffer) : Prop where
  error : b.error = false
  offset : b.offset = b.iterator
  last : b.lastDataSize = 0 ∨ NumberSize b.lastDataSize ∧ b.lastDataSize ∣ b.iterator

variable {b : UcdrBuffer} {size : ℕ}

theorem ready_initBuffer (memory : ByteMemory) (size : ℕ) : Ready (initBuffer memory size) :=
  ⟨rfl, rfl, .inl rfl⟩

theorem padding_one (position : ℕ) : padding 1 position = 0 := Nat.mod_one _

theorem NumberSize.pos (h : NumberSize size) : 0 < size := by
  rcases h with rfl | rfl | rfl | rfl <;> norm_num

theorem dvd_aligned (h : NumberSize size) (position : ℕ) : size ∣ aligned size position := by
  rw [aligned, padding]
  rcases h with rfl | rfl | rfl | rfl <;> omega

/-- The mask is a remainder. -/
theorem land_pred (h : NumberSize size) (n : ℕ) : n &&& (size - 1) = n % size := by
  rcases h with rfl | rfl | rfl | rfl
  · exact Nat.and_two_pow_sub_one_eq_mod n 0
  · exact Nat.and_two_pow_sub_one_eq_mod n 1
  · exact Nat.and_two_pow_sub_one_eq_mod n 2
  · exact Nat.and_two_pow_sub_one_eq_mod n 3

/-- The short cut through the last size does not change the padding. -/
theorem bufferAlignment_eq (h : Ready b) (hsize : NumberSize size) :
    bufferAlignment b size = padding size b.iterator := by
  rw [bufferAlignment, padding]
  by_cases hlast : b.lastDataSize < size
  · rw [if_pos hlast, land_pred hsize, h.offset]
  · rw [if_neg hlast]
    -- the last size is a multiple of this one, and divides the position
    have hmultiple : size ∣ b.iterator := by
      rcases h.last with hzero | ⟨hnumber, hdvd⟩
      · have hpos := hsize.pos
        omega
      · refine dvd_trans ?_ hdvd
        generalize b.lastDataSize = last at hlast hnumber
        rcases hsize with rfl | rfl | rfl | rfl <;>
          rcases hnumber with rfl | rfl | rfl | rfl <;> omega
    rw [Nat.mod_eq_zero_of_dvd hmultiple, Nat.sub_zero, Nat.mod_self]

/-- A buffer without error after a value. -/
def past (b : UcdrBuffer) (memory : ByteMemory) (position dataSize : ℕ) : UcdrBuffer where
  memory
  final := b.final
  iterator := position
  offset := position
  lastDataSize := dataSize
  error := false

theorem ready_past {memory : ByteMemory} {position : ℕ} (hsize : NumberSize size)
    (h : size ∣ position) : Ready (past b memory position size) :=
  ⟨rfl, rfl, .inr ⟨hsize, h⟩⟩

theorem Ready.eq_past (h : Ready b) : b = past b b.memory b.iterator b.lastDataSize := by
  obtain ⟨memory, final, iterator, offset, last, error⟩ := b
  have herror : error = false := h.error
  have hoffset : offset = iterator := h.offset
  subst herror hoffset
  rfl

theorem available_iff (h : Ready b) {bytes : ℕ} :
    checkBufferAvailableFor b bytes = true ↔ b.iterator + bytes ≤ b.final := by
  rw [checkBufferAvailableFor, h.error]
  simp

theorem advanceBuffer_fits (h : Ready b) (hfits : b.iterator + size ≤ b.final) :
    advanceBuffer b size = past b b.memory (b.iterator + size) 1 := by
  rw [advanceBuffer, if_pos ((available_iff h).mpr hfits), advance, h.offset, h.error]
  rfl

theorem ready_past_one {memory : ByteMemory} {position : ℕ} :
    Ready (past b memory position 1) :=
  ready_past (.inl rfl) (one_dvd position)

theorem copyIn_past {memory : ByteMemory} {position last : ℕ} (bytes : List UInt8) :
    copyIn (past b memory position last) bytes =
      past b (memory.store position bytes) (position + bytes.length) last := rfl

theorem advance_past {memory : ByteMemory} {position last : ℕ} :
    advance (past b memory position last) size = past b memory (position + size) last := rfl

theorem checkFinal_fits (hfits : b.iterator + 1 ≤ b.final) :
    checkFinalBufferBehavior b = b := by
  rw [checkFinalBufferBehavior, if_neg]
  simp
  omega

/-- A number is written at the next multiple of its size. -/
theorem serializeNumber_fits (h : Ready b) (hsize : NumberSize size) (value : ℕ)
    (hfits : aligned size b.iterator + size ≤ b.final) :
    serializeNumber b size value =
      (true, past b (b.memory.store (aligned size b.iterator) (ByteMemory.littleEndian size value))
        (aligned size b.iterator + size) size) := by
  rw [serializeNumber]
  by_cases hone : size = 1
  · rw [hone, aligned, padding_one] at hfits
    rw [hone, if_pos rfl, aligned, padding_one, serializeByte, checkFinal_fits hfits]
    dsimp only
    rw [h.error, if_neg (by simp), h.eq_past]
    rfl
  · have hpadding : b.iterator + padding size b.iterator ≤ b.final := by
      rw [aligned] at hfits
      omega
    have hready : Ready (past b b.memory (aligned size b.iterator) 1) := ready_past_one
    rw [if_neg hone, serializeBytes]
    dsimp only
    rw [ByteMemory.length_littleEndian, bufferAlignment_eq h hsize, advanceBuffer_fits h hpadding,
      ← aligned, if_pos ((available_iff hready).mpr hfits), copyIn_past,
      ByteMemory.length_littleEndian]
    rfl

/-- A number is read where it would have been written. -/
theorem deserializeNumber_fits (h : Ready b) (hsize : NumberSize size)
    (hfits : aligned size b.iterator + size ≤ b.final) :
    deserializeNumber b size =
      (some (ByteMemory.ofLittleEndian (b.memory.load (aligned size b.iterator) size)),
        past b b.memory (aligned size b.iterator + size) size) := by
  rw [deserializeNumber]
  by_cases hone : size = 1
  · rw [hone, aligned, padding_one] at hfits
    rw [hone, if_pos rfl, aligned, padding_one, deserializeByte, checkFinal_fits hfits]
    dsimp only
    rw [h.error, if_neg (by simp), h.eq_past]
    rfl
  · have hpadding : b.iterator + padding size b.iterator ≤ b.final := by
      rw [aligned] at hfits
      omega
    have hready : Ready (past b b.memory (aligned size b.iterator) 1) := ready_past_one
    rw [if_neg hone, deserializeBytes]
    dsimp only
    rw [bufferAlignment_eq h hsize, advanceBuffer_fits h hpadding, ← aligned,
      if_pos ((available_iff hready).mpr hfits), advance_past]
    rfl

theorem alignArray_fits (h : Ready b) (hsize : NumberSize size)
    (hfits : aligned size b.iterator ≤ b.final) :
    alignArray b size = past b b.memory (aligned size b.iterator) b.lastDataSize := by
  rw [alignArray]
  by_cases hone : size = 1
  · rw [if_pos hone, hone, aligned, padding_one]
    exact h.eq_past
  · rw [if_neg hone, bufferAlignment_eq h hsize, advanceBuffer_fits h hfits]
    rfl

theorem available_past {memory : ByteMemory} {position last bytes : ℕ}
    (hfits : position + bytes ≤ b.final) :
    checkBufferAvailableFor (past b memory position last) bytes = true := by
  rw [checkBufferAvailableFor, past]
  simpa using hfits

/-- Numbers in a row are written from the next multiple of their size on. -/
theorem serializeArray_fits (h : Ready b) (hsize : NumberSize size) (array : List UInt8)
    (hfits : aligned size b.iterator + array.length ≤ b.final) :
    serializeArray b size array =
      (true, past b (b.memory.store (aligned size b.iterator) array)
        (aligned size b.iterator + array.length) size) := by
  rw [serializeArray, alignArray_fits h hsize (by omega), arrayToBuffer,
    if_pos (available_past hfits), copyIn_past]
  rfl

theorem deserializeArray_fits (h : Ready b) (hsize : NumberSize size) (number : ℕ)
    (hfits : aligned size b.iterator + number * size ≤ b.final) :
    deserializeArray b size number =
      (true, b.memory.load (aligned size b.iterator) (number * size),
        past b b.memory (aligned size b.iterator + number * size) size) := by
  rw [deserializeArray, alignArray_fits h hsize (by omega), bufferToArray,
    if_pos (available_past hfits), advance_past]
  rfl

/-! ### Where there is none -/

/-- What an operation that writes may do: it stays within the buffer, and keeps an error. -/
structure Contained (b b' : UcdrBuffer) : Prop where
  final : b'.final = b.final
  memory : ∀ i, b.final ≤ i → b'.memory i = b.memory i
  iterator : b.iterator ≤ b.final → b'.iterator ≤ b.final
  error : b.error = true → b'.error = true

theorem Contained.refl (b : UcdrBuffer) : Contained b b := ⟨rfl, fun _ _ => rfl, id, id⟩

theorem Contained.trans {b b' b'' : UcdrBuffer} (h : Contained b b') (h' : Contained b' b'') :
    Contained b b'' where
  final := h'.final.trans h.final
  memory := fun i hi => (h'.memory i (h.final ▸ hi)).trans (h.memory i hi)
  iterator := fun hi => by
    have hmoved := h'.iterator (by rw [h.final]; exact h.iterator hi)
    rwa [h.final] at hmoved
  error := fun herror => h'.error (h.error herror)

/-- The last size does not matter. -/
theorem Contained.last {b b' : UcdrBuffer} (h : Contained b b') (last : ℕ) :
    Contained b { b' with lastDataSize := last } :=
  ⟨h.final, h.memory, h.iterator, h.error⟩

theorem advance_contained (h : b.iterator + size ≤ b.final) : Contained b (advance b size) :=
  ⟨rfl, fun _ _ => rfl, fun _ => h, id⟩

theorem checkFinal_contained (b : UcdrBuffer) : Contained b (checkFinalBufferBehavior b) := by
  rw [checkFinalBufferBehavior]
  split
  · exact ⟨rfl, fun _ _ => rfl, id, fun _ => rfl⟩
  · exact .refl b

theorem checkFinal_cases (b : UcdrBuffer) (h : (checkFinalBufferBehavior b).error = false) :
    checkFinalBufferBehavior b = b ∧ b.iterator < b.final := by
  rw [checkFinalBufferBehavior] at h ⊢
  by_cases hfull : (!b.error && decide (b.final ≤ b.iterator)) = true
  · rw [if_pos hfull] at h
    cases h
  · rw [if_neg hfull] at h ⊢
    rw [h] at hfull
    exact ⟨rfl, by simpa using hfull⟩

theorem checkArray_contained (b : UcdrBuffer) (bytes : ℕ) :
    Contained b (checkFinalBufferBehaviorArray b bytes).2 := by
  rw [checkFinalBufferBehaviorArray]
  dsimp only
  split
  · exact ⟨rfl, fun _ _ => rfl, id, fun _ => rfl⟩
  · exact .refl b

/-- It offers no more than there is room for. -/
theorem checkArray_le (b : UcdrBuffer) (bytes : ℕ)
    (h : (checkFinalBufferBehaviorArray b bytes).1 ≠ 0) :
    (checkFinalBufferBehaviorArray b bytes).1 + b.iterator ≤ b.final ∧
      (checkFinalBufferBehaviorArray b bytes).2.iterator = b.iterator := by
  rw [checkFinalBufferBehaviorArray] at h ⊢
  dsimp only at h ⊢
  by_cases hfull : (!b.error && decide (b.final ≤ b.iterator) && decide (0 < bytes)) = true
  · rw [if_pos hfull] at h
    exact absurd rfl h
  · rw [if_neg hfull] at h ⊢
    refine ⟨?_, rfl⟩
    cases herror : b.error with
    | true =>
      rw [herror, if_pos rfl] at h
      exact absurd rfl h
    | false =>
      rw [herror, if_neg (by simp)] at h
      rw [herror] at hfull
      have hroom : bytes = 0 ∨ b.iterator < b.final := by
        simp at hfull
        omega
      rw [if_neg (by simp)]
      split at h <;> rename_i hbytes
      · rw [if_pos hbytes]
        omega
      · rw [if_neg hbytes]
        omega

theorem copyIn_contained {bytes : List UInt8} (h : b.iterator + bytes.length ≤ b.final) :
    Contained b (copyIn b bytes) where
  final := rfl
  memory := fun _ hi => ByteMemory.store_of_ge (h.trans hi)
  iterator := fun _ => h
  error := id

theorem available_le {bytes : ℕ} (h : checkBufferAvailableFor b bytes = true) :
    b.iterator + bytes ≤ b.final := by
  rw [checkBufferAvailableFor] at h
  simp at h
  exact h.2

theorem advanceLoop_contained (rounds : ℕ) (b : UcdrBuffer) (size : ℕ) :
    Contained b (advanceLoop rounds b size) := by
  induction rounds generalizing b size with
  | zero => exact .refl b
  | succ rounds ih =>
    have hcheck := checkArray_contained b size
    rw [advanceLoop]
    dsimp only
    split
    · exact hcheck
    next hsome =>
      obtain ⟨hroom, hiterator⟩ := checkArray_le b size hsome
      refine (hcheck.trans (advance_contained ?_)).trans (ih _ _)
      rw [hiterator, hcheck.final]
      omega

theorem advanceBuffer_contained (b : UcdrBuffer) (size : ℕ) :
    Contained b (advanceBuffer b size) := by
  have hmoved : Contained b
      (if checkBufferAvailableFor b size then advance b size
      else advanceLoop (size + 1) b size) := by
    split
    next hroom => exact advance_contained (available_le hroom)
    next => exact advanceLoop_contained _ _ _
  exact hmoved.last 1

theorem serializeByte_contained (b : UcdrBuffer) (value : UInt8) :
    Contained b (serializeByte b value) := by
  have hcheck := checkFinal_contained b
  rw [serializeByte]
  dsimp only
  split
  · exact hcheck
  next hok =>
    obtain ⟨hsame, hroom⟩ := checkFinal_cases b (by simpa using hok)
    rw [hsame]
    have hcopied : Contained b (copyIn b [value]) := copyIn_contained hroom
    exact hcopied.last 1

theorem serializeBytes_contained (b : UcdrBuffer) (value : List UInt8) :
    Contained b (serializeBytes b value) := by
  have hpadded := advanceBuffer_contained b (bufferAlignment b value.length)
  rw [serializeBytes]
  dsimp only
  generalize advanceBuffer b (bufferAlignment b value.length) = padded at hpadded
  refine hpadded.trans ?_
  split
  next hroom => exact (copyIn_contained (available_le hroom)).last _
  next =>
    split
    next hsome =>
      have hadvanced : Contained padded (advance padded (padded.final - padded.iterator)) :=
        advance_contained (by omega)
      have hmoved := hadvanced.trans
        (checkFinal_contained (advance padded (padded.final - padded.iterator)))
      split
      · -- the iterator goes back to where it was
        refine ⟨hmoved.final, hmoved.memory, fun hi => ?_, hmoved.error⟩
        exact (Nat.sub_le _ _).trans (hmoved.iterator hi)
      next hok =>
        -- without a callback, a full buffer is an error
        obtain ⟨-, hroom⟩ := checkFinal_cases _ (by simpa using hok)
        have hfull : padded.iterator + (padded.final - padded.iterator) < padded.final := hroom
        omega
    next hnone =>
      have hcheck := checkFinal_contained padded
      split
      · exact hcheck
      next hok =>
        obtain ⟨-, hroom⟩ := checkFinal_cases _ (by simpa using hok)
        omega

theorem serializeNumber_contained (b : UcdrBuffer) (size value : ℕ) :
    Contained b (serializeNumber b size value).2 := by
  rw [serializeNumber]
  dsimp only
  split
  · exact serializeByte_contained b _
  · exact serializeBytes_contained b _

theorem arrayToBufferLoop_contained (rounds : ℕ) (b : UcdrBuffer) (array : List UInt8) :
    Contained b (arrayToBufferLoop rounds b array) := by
  induction rounds generalizing b array with
  | zero => exact .refl b
  | succ rounds ih =>
    have hcheck := checkArray_contained b array.length
    rw [arrayToBufferLoop]
    dsimp only
    split
    · exact hcheck
    next hsome =>
      obtain ⟨hroom, hiterator⟩ := checkArray_le b array.length hsome
      refine (hcheck.trans (copyIn_contained ?_)).trans (ih _ _)
      rw [hiterator, hcheck.final, List.length_take]
      omega

theorem serializeArray_contained (b : UcdrBuffer) (dataSize : ℕ) (array : List UInt8) :
    Contained b (serializeArray b dataSize array).2 := by
  have halign : Contained b (alignArray b dataSize) := by
    rw [alignArray]
    split
    · exact .refl b
    · exact (advanceBuffer_contained b _).last _
  rw [serializeArray]
  refine halign.trans ?_
  rw [arrayToBuffer]
  dsimp only
  split
  next hroom => exact (copyIn_contained (available_le hroom)).last _
  next => exact (arrayToBufferLoop_contained _ _ _).last _

end Ucdr
