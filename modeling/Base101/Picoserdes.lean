/-
Messages in a buffer (`lib/picoros/picoserdes.c`, `picoserdes.h`, and the strings and
sequences of `lib/microcdr`).

The macros make a writer and a reader of every type of message out of the writers and
readers of its fields.  Here the types are data, and so there is one writer and one reader.
What is read of a string is its address in the buffer.

* `psSer`, `psDes` — the writer and the reader of a type;
* `layout` — what a buffer holds when it has a message;
* `psSer_writes`, `psDes_finds` — the writer makes it so, and the reader finds it;
* `message_round_trip` — a message of any type is received as it was sent;
* `writer_contained` — the writer never writes past a buffer that holds the header.
-/
import Base101.MessageLayout

namespace Picoserdes

open Ucdr ByteMemory

/-! ### Types of messages -/

/-- `BASE_TYPES_LIST`, without strings. -/
inductive BaseType
  | bool | char | int8 | uint8 | int16 | uint16 | int32 | uint32 | int64 | uint64 | float | double
deriving DecidableEq

namespace BaseType

def size : BaseType → ℕ
  | bool | char | int8 | uint8 => 1
  | int16 | uint16 => 2
  | int32 | uint32 | float => 4
  | int64 | uint64 | double => 8

/-- How many values a type has. -/
def values (t : BaseType) : ℕ := if t = bool then 2 else 256 ^ t.size

/-- A value by the number that its bytes make. -/
abbrev Value (t : BaseType) : Type := Fin t.values

theorem values_pos (t : BaseType) : 0 < t.values := by
  rw [values]
  split
  · norm_num
  · exact Nat.pow_pos (by norm_num)

/-- The value with a number; for a truth value, whether it is not zero. -/
def ofNumber (t : BaseType) (n : ℕ) : t.Value :=
  ⟨(if t = bool then min n 1 else n) % t.values, Nat.mod_lt _ t.values_pos⟩

end BaseType

/-- A type of messages: the fields of a `CTYPE` are a chain that ends with `done`. -/
inductive MsgType
  | base (t : BaseType)
  | rstring
  | array (t : BaseType) (number : ℕ)
  | stringArray (number : ℕ)
  | sequence (t : BaseType)
  | stringSequence
  | done
  | fields (first rest : MsgType)
  | sequenceOf (t : MsgType)

/-- `rstring`, without its final zero. -/
abbrev Rstring : Type := {bytes : List UInt8 // 0 ∉ bytes}

namespace MsgType

/-- The messages of a type, with some representation of strings; a string field may be null. -/
def Value (S : Type) : MsgType → Type
  | base t => t.Value
  | rstring => Option S
  | array t number => {l : List t.Value // l.length = number}
  | stringArray _ => List S
  | sequence t => List t.Value
  | stringSequence => List S
  | done => Unit
  | fields first rest => first.Value S × rest.Value S
  | sequenceOf t => List (t.Value S)

/-- The room for the sequences of a message, `n_elements`, in the message to be filled. -/
def Room : MsgType → Type
  | sequence _ | stringSequence => ℕ
  | fields first rest => first.Room × rest.Room
  | sequenceOf t => List t.Room
  | base _ | rstring | array _ _ | stringArray _ | done => Unit

end MsgType

/-! ### Writing -/

/-- The bytes of numbers in a row. -/
def arrayBytes (t : BaseType) (l : List t.Value) : List UInt8 :=
  l.flatMap fun v => littleEndian t.size v.1

/-- `ucdr_serialize_sequence_char`, of a string and its zero. -/
def serializeString (b : UcdrBuffer) (s : Rstring) : Bool × UcdrBuffer :=
  let (_, b) := serializeNumber b 4 (s.1.length + 1)
  serializeArray b 1 (s.1 ++ [0])

/-- `ucdr_serialize_rstring`. -/
def serializeRstring (b : UcdrBuffer) : Option Rstring → Bool × UcdrBuffer
  | none => serializeNumber b 4 0
  | some s => serializeString b s

/-- One after the other, up to the first that fails. -/
def serializeAll {α : Type} (ser : α → UcdrBuffer → Bool × UcdrBuffer) :
    List α → UcdrBuffer → Bool × UcdrBuffer
  | [], b => (true, b)
  | v :: vs, b =>
    let (ok, b) := ser v b
    if ok then serializeAll ser vs b else (false, b)

/-- `ucdr_serialize_array_rstring`. -/
def serializeStrings (b : UcdrBuffer) (strings : List Rstring) : Bool × UcdrBuffer :=
  let (_, b) := serializeNumber b 4 strings.length
  serializeAll (fun s b => serializeString b s) strings b

/-- `ucdr_serialize_sequence` of numbers. -/
def serializeSequence (b : UcdrBuffer) (t : BaseType) (l : List t.Value) : Bool × UcdrBuffer :=
  let (_, b) := serializeNumber b 4 l.length
  if l.length = 0 then (true, b) else serializeArray b t.size (arrayBytes t l)

/-- `ps_ser` of a type. -/
def psSer : (t : MsgType) → t.Value Rstring → UcdrBuffer → Bool × UcdrBuffer
  | .base t, v, b => serializeNumber b t.size v.1
  | .rstring, v, b => serializeRstring b v
  | .array t _, v, b => serializeArray b t.size (arrayBytes t v.1)
  | .stringArray _, v, b => serializeStrings b v
  | .sequence t, v, b => serializeSequence b t v
  | .stringSequence, v, b => serializeStrings b v
  | .done, _, b => (true, b)
  | .fields first rest, (v, w), b =>
    let (ok, b) := psSer first v b
    if ok then psSer rest w b else (false, b)
  | .sequenceOf t, v, b =>
    let (_, b) := serializeNumber b 4 (List.length v)
    serializeAll (psSer t) v b

/-- The memory after the header, `pBUF + sizeof(uint32_t)`. -/
def pastHeader (memory : ByteMemory) : ByteMemory := fun i => memory (i + 4)

/-- `ps_serialize`: the size that is reported, and the memory from `pBUF` on.  The header is
stored whatever the size of the buffer, which has to hold it. -/
def psSerialize (t : MsgType) (v : t.Value Rstring) (memory : ByteMemory) (max : ℕ) :
    ℕ × ByteMemory :=
  let memory := memory.store 0 (littleEndian 4 0x0100)
  let (_, writer) := psSer t v (initBuffer (pastHeader memory) (max - 4))
  (writer.iterator + 4, fun i => if i < 4 then memory i else writer.memory (i - 4))

/-! ### Reading -/

/-- `ucdr_deserialize_rstring`: the address of the string. -/
def deserializeRstring (b : UcdrBuffer) : Option ℕ × UcdrBuffer :=
  match deserializeNumber b 4 with
  | (none, b) => (none, b)
  | (some len, b) => (some b.iterator, { advance b len with lastDataSize := 1 })

/-- Numbers in a row from their bytes. -/
def arrayOfBytes (t : BaseType) : ℕ → List UInt8 → List t.Value
  | 0, _ => []
  | n + 1, bytes =>
    t.ofNumber (ofLittleEndian (bytes.take t.size)) :: arrayOfBytes t n (bytes.drop t.size)

theorem length_arrayOfBytes (t : BaseType) (n : ℕ) (bytes : List UInt8) :
    (arrayOfBytes t n bytes).length = n := by
  induction n generalizing bytes with
  | zero => rfl
  | succ n ih => rw [arrayOfBytes, List.length_cons, ih]

/-- One for each place to be filled, up to the first that fails. -/
def deserializeInto {ρ α : Type} (des : ρ → UcdrBuffer → Option α × UcdrBuffer) :
    ℕ → List ρ → UcdrBuffer → Option (List α) × UcdrBuffer
  | 0, _, b => (some [], b)
  | _ + 1, [], b => (none, b)
  | n + 1, room :: rooms, b =>
    match des room b with
    | (none, b) => (none, b)
    | (some v, b) =>
      let (vs, b) := deserializeInto des n rooms b
      (vs.map (v :: ·), b)

/-- `ucdr_deserialize_sequence_rstring`. -/
def deserializeStrings (b : UcdrBuffer) (maxNumber : ℕ) : Option (List ℕ) × UcdrBuffer :=
  let (number, b) := deserializeNumber b 4
  if number.getD 0 ≤ maxNumber then
    deserializeInto (fun _ => deserializeRstring) (number.getD 0) (List.replicate maxNumber ()) b
  else (none, b)

/-- `ucdr_deserialize_sequence_header`.  A length that cannot be read counts as zero. -/
def deserializeSequenceHeader (b : UcdrBuffer) (capacity : ℕ) : ℕ × UcdrBuffer :=
  let (length, b) := deserializeNumber b 4
  (length.getD 0, if capacity < length.getD 0 then { b with error := true } else b)

/-- `ucdr_deserialize_sequence` of numbers. -/
def deserializeSequence (b : UcdrBuffer) (t : BaseType) (capacity : ℕ) :
    Option (List t.Value) × UcdrBuffer :=
  let (length, b) := deserializeSequenceHeader b capacity
  if length = 0 then (some [], b)
  else
    let (ok, bytes, b) := deserializeArray b t.size length
    (if ok then some (arrayOfBytes t length bytes) else none, b)

/-- `ps_des` of a type: without a message where it fails. -/
def psDes : (t : MsgType) → t.Room → UcdrBuffer → Option (t.Value ℕ) × UcdrBuffer
  | .base t, _, b =>
    let (n, b) := deserializeNumber b t.size
    (n.map t.ofNumber, b)
  | .rstring, _, b =>
    let (address, b) := deserializeRstring b
    (address.map some, b)
  | .array t number, _, b =>
    let (ok, bytes, b) := deserializeArray b t.size number
    (if ok then some ⟨arrayOfBytes t number bytes, length_arrayOfBytes t number bytes⟩ else none, b)
  | .stringArray number, _, b => deserializeStrings b number
  | .sequence t, room, b => deserializeSequence b t room
  | .stringSequence, room, b => deserializeStrings b room
  | .done, _, b => (some (), b)
  | .fields first rest, room, b =>
    match psDes first room.1 b with
    | (none, b) => (none, b)
    | (some v, b) =>
      let (w, b) := psDes rest room.2 b
      (w.map (v, ·), b)
  | .sequenceOf t, room, b =>
    let (elements, b) := deserializeNumber b 4
    if List.length room < elements.getD 0 then (none, b)
    else deserializeInto (psDes t) (elements.getD 0) room b

/-- `ps_deserialize`. -/
def psDeserialize (t : MsgType) (room : t.Room) (memory : ByteMemory) (max : ℕ) :
    Option (t.Value ℕ) × UcdrBuffer :=
  psDes t room (initBuffer (pastHeader memory) (max - 4))

/-! ### Layouts of messages -/

def stringLayout (s : Rstring) : Layout :=
  (Layout.number 4 (s.1.length + 1)).seq (.bytes 1 (s.1 ++ [0]))

def stringsLayout (strings : List Rstring) : Layout :=
  (Layout.number 4 strings.length).seq (.all (strings.map stringLayout))

def sequenceLayout (t : BaseType) (l : List t.Value) : Layout :=
  (Layout.number 4 l.length).seq
    (if l.length = 0 then .empty else .bytes t.size (arrayBytes t l))

/-- What a buffer holds when it has a message. -/
def layout : (t : MsgType) → t.Value Rstring → Layout
  | .base t, v => .number t.size v.1
  | .rstring, none => .number 4 0
  | .rstring, some s => stringLayout s
  | .array t _, v => .bytes t.size (arrayBytes t v.1)
  | .stringArray _, v => stringsLayout v
  | .sequence t, v => sequenceLayout t v
  | .stringSequence, v => stringsLayout v
  | .done, _ => .empty
  | .fields first rest, (v, w) => (layout first v).seq (layout rest w)
  | .sequenceOf t, v => (Layout.number 4 (List.length v)).seq (.all (List.map (layout t) v))

/-- The size of a message with its header. -/
def messageSize (t : MsgType) (v : t.Value Rstring) : ℕ := (layout t v).stop 0 + 4

theorem BaseType.numberSize (t : BaseType) : NumberSize t.size := by
  cases t <;> decide

theorem BaseType.values_le (t : BaseType) : t.values ≤ 256 ^ t.size := by
  rw [BaseType.values]
  split
  next hbool =>
    subst hbool
    norm_num [BaseType.size]
  next => exact le_rfl

theorem BaseType.ofNumber_val (t : BaseType) (v : t.Value) : t.ofNumber v.1 = v := by
  apply Fin.ext
  have hv := v.2
  rw [BaseType.ofNumber]
  dsimp only
  by_cases hbool : t = bool
  · have htwo : t.values = 2 := by rw [BaseType.values, if_pos hbool]
    rw [if_pos hbool, Nat.min_eq_left (by omega), Nat.mod_eq_of_lt hv]
  · rw [if_neg hbool, Nat.mod_eq_of_lt hv]

theorem length_arrayBytes (t : BaseType) (l : List t.Value) :
    (arrayBytes t l).length = l.length * t.size := by
  induction l with
  | nil => simp [arrayBytes]
  | cons v l ih =>
    rw [arrayBytes] at ih ⊢
    rw [List.flatMap_cons, List.length_append, ih, length_littleEndian, List.length_cons]
    ring

/-- Numbers are found again in their bytes. -/
theorem arrayOfBytes_arrayBytes (t : BaseType) (l : List t.Value) :
    arrayOfBytes t l.length (arrayBytes t l) = l := by
  induction l with
  | nil => rfl
  | cons v l ih =>
    have hlength : (littleEndian t.size v.1).length = t.size := length_littleEndian _ _
    have hcons : arrayBytes t (v :: l) = littleEndian t.size v.1 ++ arrayBytes t l := rfl
    rw [List.length_cons, arrayOfBytes, hcons, List.take_left' hlength, List.drop_left' hlength,
      ih, ofLittleEndian_littleEndian (v.2.trans_le t.values_le), t.ofNumber_val]

theorem numberSize_one : NumberSize 1 := .inl rfl

theorem numberSize_four : NumberSize 4 := .inr (.inr (.inl rfl))

/-! ### The writer -/

theorem serializeString_writes (s : Rstring) :
    Writes (fun b => serializeString b s) (stringLayout s) := by
  intro b hready hroom
  obtain ⟨b', b'', hlength, hbytes, hwrote⟩ :=
    (writes_number numberSize_four _).seq (writes_array numberSize_one (one_dvd _)) hready hroom
  refine ⟨b'', ?_, hwrote⟩
  dsimp only at hlength hbytes ⊢
  rw [serializeString, hlength]
  exact hbytes

/-- A loop of writers writes one layout after the other. -/
theorem serializeAll_writes {α : Type} {ser : α → UcdrBuffer → Bool × UcdrBuffer}
    {layout : α → Layout} (vs : List α) (h : ∀ v ∈ vs, Writes (ser v) (layout v)) :
    Writes (serializeAll ser vs) (.all (vs.map layout)) := by
  induction vs with
  | nil => exact fun b hready _ => ⟨b, rfl, .empty hready⟩
  | cons v vs ih =>
    intro b hready hroom
    obtain ⟨b', b'', hfirst, hrest, hwrote⟩ :=
      (h v List.mem_cons_self).seq (ih fun w hw => h w (List.mem_cons_of_mem v hw)) hready hroom
    refine ⟨b'', ?_, hwrote⟩
    rw [serializeAll, hfirst]
    exact hrest

theorem serializeStrings_writes (strings : List Rstring) :
    Writes (fun b => serializeStrings b strings) (stringsLayout strings) := by
  intro b hready hroom
  obtain ⟨b', b'', hlength, hall, hwrote⟩ :=
    (writes_number numberSize_four _).seq
      (serializeAll_writes strings fun s _ => serializeString_writes s) hready hroom
  refine ⟨b'', ?_, hwrote⟩
  dsimp only at hlength ⊢
  rw [serializeStrings, hlength]
  exact hall

theorem serializeSequence_writes (t : BaseType) (l : List t.Value) :
    Writes (fun b => serializeSequence b t l) (sequenceLayout t l) := by
  intro b hready hroom
  rw [sequenceLayout] at hroom ⊢
  by_cases hempty : l.length = 0
  · rw [if_pos hempty] at hroom ⊢
    obtain ⟨b', hlength, hwrote⟩ := writes_number numberSize_four l.length b hready hroom
    refine ⟨b', ?_, hwrote.seq (.empty hwrote.ready)⟩
    dsimp only at hlength ⊢
    rw [serializeSequence, hlength]
    exact if_pos hempty
  · rw [if_neg hempty] at hroom ⊢
    obtain ⟨b', b'', hlength, harray, hwrote⟩ :=
      (writes_number numberSize_four _).seq
        (writes_array t.numberSize (length_arrayBytes t l ▸ Dvd.intro_left _ rfl)) hready hroom
    refine ⟨b'', ?_, hwrote⟩
    dsimp only at hlength harray ⊢
    rw [serializeSequence, hlength]
    exact (if_neg hempty).trans harray

/-- Where there is room, a message is written. -/
theorem psSer_writes (t : MsgType) (v : t.Value Rstring) : Writes (psSer t v) (layout t v) := by
  induction t with
  | base t => exact writes_number t.numberSize _
  | rstring =>
    cases v with
    | none => exact writes_number numberSize_four 0
    | some s => exact serializeString_writes s
  | array t number =>
    exact writes_array t.numberSize (length_arrayBytes t v.1 ▸ Dvd.intro_left _ rfl)
  | stringArray number => exact serializeStrings_writes v
  | sequence t => exact serializeSequence_writes t v
  | stringSequence => exact serializeStrings_writes v
  | done => exact fun b hready _ => ⟨b, rfl, .empty hready⟩
  | fields first rest ihfirst ihrest =>
    obtain ⟨v, w⟩ := v
    intro b hready hroom
    obtain ⟨b', b'', hfirst, hrest, hwrote⟩ := (ihfirst v).seq (ihrest w) hready hroom
    refine ⟨b'', ?_, hwrote⟩
    rw [psSer, hfirst]
    exact hrest
  | sequenceOf t ih =>
    intro b hready hroom
    obtain ⟨b', b'', hlength, hall, hwrote⟩ :=
      (writes_number numberSize_four _).seq (serializeAll_writes v fun w _ => ih w) hready hroom
    refine ⟨b'', ?_, hwrote⟩
    rw [psSer, hlength]
    exact hall

/-! ### The reader -/

/-- The string at an address, up to its zero. -/
def StringAt (m : ByteMemory) (address : ℕ) (s : Rstring) : Prop :=
  m.load address (s.1.length + 1) = s.1 ++ [0]

/-- Strings that there are enough pointers for. -/
def StringsFit (strings : List Rstring) (maxNumber : ℕ) : Prop :=
  strings.length ≤ maxNumber ∧ strings.length < 2 ^ 32 ∧ ∀ s ∈ strings, s.1.length + 1 < 2 ^ 32

/-- A message that there is room for where it is received.  A null string is sent as no bytes at
all, so that its reader is left with whatever comes next. -/
def Receivable : (t : MsgType) → t.Room → t.Value Rstring → Prop
  | .base _, _, _ => True
  | .rstring, _, v => ∃ s : Rstring, v = some s ∧ s.1.length + 1 < 2 ^ 32
  | .array _ _, _, _ => True
  | .stringArray number, _, v => StringsFit v number
  | .sequence _, room, v => List.length v ≤ room ∧ List.length v < 2 ^ 32
  | .stringSequence, room, v => StringsFit v room
  | .done, _, _ => True
  | .fields first rest, room, v => Receivable first room.1 v.1 ∧ Receivable rest room.2 v.2
  | .sequenceOf t, rooms, v =>
    List.length v ≤ List.length rooms ∧ List.length v < 2 ^ 32 ∧
      ∀ p ∈ List.zip rooms v, Receivable t p.1 p.2

/-- The message that was read is the one that was sent, its strings by their addresses. -/
def Received (m : ByteMemory) : (t : MsgType) → t.Value ℕ → t.Value Rstring → Prop
  | .base _, w, v => w = v
  | .rstring, w, v => ∃ address s, w = some address ∧ v = some s ∧ StringAt m address s
  | .array _ _, w, v => w = v
  | .stringArray _, w, v => List.Forall₂ (StringAt m) w v
  | .sequence _, w, v => w = v
  | .stringSequence, w, v => List.Forall₂ (StringAt m) w v
  | .done, _, _ => True
  | .fields first rest, w, v => Received m first w.1 v.1 ∧ Received m rest w.2 v.2
  | .sequenceOf t, w, v => List.Forall₂ (Received m t) w v

theorem lt_number_four {n : ℕ} (h : n < 2 ^ 32) : n < 256 ^ 4 := by
  norm_num at h ⊢
  exact h

/-- A length is read where a sequence starts. -/
theorem length_found {length : ℕ} {l : Layout} {b : UcdrBuffer} (hlength : length < 2 ^ 32)
    (hready : Ready b) (hroom : ((Layout.number 4 length).seq l).stop b.iterator ≤ b.final)
    (hholds : ((Layout.number 4 length).seq l).Holds b.memory b.iterator) :
    ∃ b', deserializeNumber b 4 = (some length, b') ∧ Passed b (.number 4 length) b' ∧
      l.stop b'.iterator ≤ b'.final ∧ l.Holds b'.memory b'.iterator := by
  obtain ⟨n, b', hdes, hpassed, rfl⟩ :=
    finds_number numberSize_four (lt_number_four hlength) b hready ((l.le_stop _).trans hroom)
      hholds.1
  exact ⟨b', hdes, hpassed, hpassed.next hroom hholds⟩

theorem deserializeRstring_finds {s : Rstring} (hs : s.1.length + 1 < 2 ^ 32) :
    Finds deserializeRstring (stringLayout s) fun m address => StringAt m address s := by
  intro b hready hroom hholds
  obtain ⟨b', hdes, hpassed, hroom', hholds'⟩ := length_found hs hready hroom hholds
  have hlength : (s.1 ++ [0]).length = s.1.length + 1 := by simp
  have haligned : aligned 1 b'.iterator = b'.iterator := by rw [aligned, padding_one]; rfl
  -- the reader only moves past the bytes
  have hmoved : Passed b' (.bytes 1 (s.1 ++ [0]))
      { advance b' (s.1.length + 1) with lastDataSize := 1 } :=
    { ready := ⟨hpassed.ready.error, by simp [advance, hpassed.ready.offset],
        .inr ⟨numberSize_one, one_dvd _⟩⟩
      final := rfl
      iterator := by
        show b'.iterator + (s.1.length + 1) = aligned 1 b'.iterator + (s.1 ++ [0]).length
        rw [haligned, hlength]
      memory := rfl }
  refine ⟨b'.iterator, _, ?_, hpassed.seq hmoved, ?_⟩
  · rw [deserializeRstring, hdes]
  · have hload : b'.memory.load (aligned 1 b'.iterator) (s.1 ++ [0]).length = s.1 ++ [0] :=
      hholds'
    rw [haligned, hlength, hpassed.memory] at hload
    exact hload

/-- A loop of readers finds one layout after the other. -/
theorem deserializeInto_finds {ρ α β : Type} {des : ρ → UcdrBuffer → Option α × UcdrBuffer}
    {layout : β → Layout} {Found : ByteMemory → α → β → Prop} (rooms : List ρ) (vs : List β)
    (hrooms : vs.length ≤ rooms.length)
    (h : ∀ p ∈ rooms.zip vs, Finds (des p.1) (layout p.2) fun m w => Found m w p.2) :
    Finds (deserializeInto des vs.length rooms) (.all (vs.map layout))
      fun m ws => List.Forall₂ (Found m) ws vs := by
  induction vs generalizing rooms with
  | nil => exact fun b hready _ _ => ⟨[], b, by rw [List.length_nil, deserializeInto],
      .empty hready, .nil⟩
  | cons v vs ih =>
    cases rooms with
    | nil => simp at hrooms
    | cons room rooms =>
      intro b hready hroom hholds
      have hrest := ih rooms (by simpa using hrooms) fun p hp => h p (List.mem_cons_of_mem _ hp)
      have hfirst : Finds (des room) (layout v) fun m w => Found m w v :=
        h (room, v) List.mem_cons_self
      obtain ⟨w, ws, b', b'', hdes, hdes', hpassed, hw, hws⟩ :=
        hfirst.seq hrest hready hroom hholds
      refine ⟨w :: ws, b'', ?_, hpassed, .cons hw hws⟩
      rw [List.length_cons, deserializeInto, hdes]
      dsimp only
      rw [hdes']
      rfl

theorem deserializeStrings_finds {strings : List Rstring} {maxNumber : ℕ}
    (h : StringsFit strings maxNumber) :
    Finds (fun b => deserializeStrings b maxNumber) (stringsLayout strings)
      fun m ws => List.Forall₂ (StringAt m) ws strings := by
  obtain ⟨hmax, hcount, hstrings⟩ := h
  intro b hready hroom hholds
  obtain ⟨b', hdes, hpassed, hroom', hholds'⟩ := length_found hcount hready hroom hholds
  have hall : Finds (deserializeInto (fun _ => deserializeRstring) strings.length
      (List.replicate maxNumber ())) (.all (strings.map stringLayout))
      fun m ws => List.Forall₂ (StringAt m) ws strings :=
    deserializeInto_finds _ strings (by simpa using hmax)
      fun p hp => deserializeRstring_finds (hstrings p.2 (List.of_mem_zip hp).2)
  obtain ⟨ws, b'', hdes', hpassed', hws⟩ := hall b' hpassed.ready hroom' hholds'
  refine ⟨ws, b'', ?_, hpassed.seq hpassed', hpassed.memory ▸ hws⟩
  dsimp only
  rw [deserializeStrings, hdes]
  exact (if_pos hmax).trans hdes'

theorem deserializeSequence_finds {t : BaseType} {l : List t.Value} {capacity : ℕ}
    (hcapacity : l.length ≤ capacity) (hlength : l.length < 2 ^ 32) :
    Finds (fun b => deserializeSequence b t capacity) (sequenceLayout t l) fun _ w => w = l := by
  intro b hready hroom hholds
  rw [sequenceLayout] at hroom hholds ⊢
  obtain ⟨b', hdes, hpassed, hroom', hholds'⟩ := length_found hlength hready hroom hholds
  have hheader : deserializeSequenceHeader b capacity = (l.length, b') := by
    rw [deserializeSequenceHeader, hdes]
    exact congrArg (l.length, ·) (if_neg (not_lt.mpr hcapacity))
  by_cases hempty : l.length = 0
  · rw [if_pos hempty]
    refine ⟨[], b', ?_, hpassed.seq (.empty hpassed.ready), ?_⟩
    · dsimp only
      rw [deserializeSequence, hheader]
      exact if_pos hempty
    · exact (List.length_eq_zero_iff.mp hempty).symm
  · rw [if_neg hempty] at hroom' hholds' ⊢
    obtain ⟨b'', hdes', hpassed'⟩ :=
      array_found t.numberSize (length_arrayBytes t l) hpassed.ready hroom' hholds'
    refine ⟨l, b'', ?_, hpassed.seq hpassed', rfl⟩
    dsimp only
    rw [deserializeSequence, hheader]
    dsimp only
    rw [if_neg hempty, hdes']
    dsimp only
    rw [if_pos rfl, arrayOfBytes_arrayBytes]

/-- Where a message stands, the reader finds it. -/
theorem psDes_finds (t : MsgType) (room : t.Room) (v : t.Value Rstring)
    (h : Receivable t room v) :
    Finds (psDes t room) (layout t v) fun m w => Received m t w v := by
  induction t with
  | base t =>
    intro b hready hroom hholds
    obtain ⟨n, b', hdes, hpassed, rfl⟩ :=
      finds_number t.numberSize (v.2.trans_le t.values_le) b hready hroom hholds
    refine ⟨v, b', ?_, hpassed, rfl⟩
    dsimp only at hdes
    rw [psDes, hdes]
    exact congrArg (fun w => (some w, b')) (t.ofNumber_val v)
  | rstring =>
    obtain ⟨s, rfl, hs⟩ := h
    intro b hready hroom hholds
    obtain ⟨address, b', hdes, hpassed, hat⟩ :=
      deserializeRstring_finds hs b hready hroom hholds
    refine ⟨some address, b', ?_, hpassed, address, s, rfl, rfl, hat⟩
    rw [psDes, hdes]
    rfl
  | array t number =>
    intro b hready hroom hholds
    have hnumber : v.1.length = number := v.2
    obtain ⟨b', hdes, hpassed⟩ :=
      array_found t.numberSize (hnumber ▸ length_arrayBytes t v.1) hready hroom hholds
    refine ⟨v, b', ?_, hpassed, rfl⟩
    rw [psDes, hdes]
    have hvalue : arrayOfBytes t number (arrayBytes t v.1) = v.1 := by
      have h := arrayOfBytes_arrayBytes t v.1
      rwa [hnumber] at h
    dsimp only
    rw [if_pos rfl]
    exact congrArg (fun w => (some w, b')) (Subtype.ext hvalue)
  | stringArray number => exact deserializeStrings_finds h
  | sequence t => exact deserializeSequence_finds h.1 h.2
  | stringSequence => exact deserializeStrings_finds h
  | done => exact fun b hready _ _ => ⟨(), b, rfl, .empty hready, trivial⟩
  | fields first rest ihfirst ihrest =>
    intro b hready hroom hholds
    obtain ⟨w, w', b', b'', hdes, hdes', hpassed, hw, hw'⟩ :=
      (ihfirst room.1 v.1 h.1).seq (ihrest room.2 v.2 h.2) hready hroom hholds
    refine ⟨(w, w'), b'', ?_, hpassed, hw, hw'⟩
    rw [psDes, hdes]
    dsimp only
    rw [hdes']
    rfl
  | sequenceOf t ih =>
    intro b hready hroom hholds
    obtain ⟨hcapacity, hlength, hvs⟩ := h
    obtain ⟨b', hdes, hpassed, hroom', hholds'⟩ := length_found hlength hready hroom hholds
    have hall : Finds (deserializeInto (psDes t) (List.length v) room)
        (.all (List.map (layout t) v)) fun m ws => List.Forall₂ (Received m t) ws v :=
      deserializeInto_finds room v hcapacity fun p hp => ih p.1 p.2 (hvs p hp)
    obtain ⟨ws, b'', hdes', hpassed', hws⟩ := hall b' hpassed.ready hroom' hholds'
    refine ⟨ws, b'', ?_, hpassed.seq hpassed', hpassed.memory ▸ hws⟩
    rw [psDes, hdes]
    exact (if_neg (not_lt.mpr hcapacity)).trans hdes'

/-! ### The exchange of a message -/

theorem psSerialize_fits {t : MsgType} {v : t.Value Rstring} {max : ℕ} (memory : ByteMemory)
    (hroom : messageSize t v ≤ max) :
    (psSerialize t v memory max).1 = messageSize t v ∧
      (layout t v).Holds (pastHeader (psSerialize t v memory max).2) 0 := by
  have hfits : (layout t v).stop 0 ≤ max - 4 := by
    rw [messageSize] at hroom
    omega
  obtain ⟨b', hser, hwrote⟩ :=
    psSer_writes t v (initBuffer (pastHeader (memory.store 0 (littleEndian 4 0x0100))) (max - 4))
      (ready_initBuffer _ _) hfits
  have hsize : b'.iterator = (layout t v).stop 0 := hwrote.iterator
  rw [psSerialize, hser]
  dsimp only
  rw [hsize]
  exact ⟨rfl, hwrote.holds⟩

/-- A message of any type, of whatever fields and sequences it is made, is received as it was
sent, when there was room for it and its bytes are the same.  Its strings are found by their
addresses after the header. -/
theorem message_round_trip {t : MsgType} {room : t.Room} {v : t.Value Rstring}
    {memory received : ByteMemory} {max : ℕ} (hreceivable : Receivable t room v)
    (hroom : messageSize t v ≤ max)
    (hbytes : ∀ i, i < messageSize t v → received i = (psSerialize t v memory max).2 i) :
    (psSerialize t v memory max).1 = messageSize t v ∧
      ∃ w b, psDeserialize t room received (messageSize t v) = (some w, b) ∧
        b.iterator + 4 = messageSize t v ∧ Received (pastHeader received) t w v := by
  obtain ⟨hsize, hholds⟩ := psSerialize_fits memory hroom
  refine ⟨hsize, ?_⟩
  have hreceived : (layout t v).Holds (pastHeader received) 0 := by
    refine (layout t v).congr (fun i _ hi => ?_) hholds
    exact (hbytes (i + 4) (by rw [messageSize]; omega)).symm
  have hfits : (layout t v).stop 0 ≤ messageSize t v - 4 := by
    rw [messageSize]
    omega
  obtain ⟨w, b, hdes, hpassed, hw⟩ :=
    psDes_finds t room v hreceivable (initBuffer (pastHeader received) (messageSize t v - 4))
      (ready_initBuffer _ _) hfits hreceived
  have hend : b.iterator = (layout t v).stop 0 := hpassed.iterator
  exact ⟨w, b, hdes, by rw [hend, messageSize], hw⟩

/-- A truth value, a name, readings with their times, and some counts. -/
def readings : MsgType :=
  .fields (.base .bool) (.fields .rstring
    (.fields (.sequenceOf (.fields (.base .uint32) (.fields (.base .double) .done)))
      (.fields (.sequence .int16) .done)))

def twoReadings : readings.Value Rstring :=
  (BaseType.bool.ofNumber 1, some ⟨[105, 109, 117], by decide⟩,
    [(BaseType.uint32.ofNumber 9, BaseType.double.ofNumber 5, ()),
      (BaseType.uint32.ofNumber 10, BaseType.double.ofNumber 6, ())],
    [BaseType.int16.ofNumber 3, BaseType.int16.ofNumber 4], ())

def roomForReadings : readings.Room := ((), (), [((), (), ()), ((), (), ())], (2 : ℕ), ())

theorem two_readings_round_trip :
    messageSize readings twoReadings = 60 ∧
      (psSerialize readings twoReadings (fun _ => 0) 64).1 = 60 ∧
      ∃ w b, psDeserialize readings roomForReadings
          (psSerialize readings twoReadings (fun _ => 0) 64).2 60 = (some w, b) ∧
        b.iterator + 4 = 60 ∧
        Received (pastHeader (psSerialize readings twoReadings (fun _ => 0) 64).2) readings w
          twoReadings := by
  have hsize : messageSize readings twoReadings = 60 := by decide
  have hreceivable : Receivable readings roomForReadings twoReadings := by
    refine ⟨trivial, ⟨_, rfl, by decide⟩, ⟨by decide, by decide, ?_⟩, ⟨le_refl 2, by decide⟩,
      trivial⟩
    intro p _
    exact ⟨trivial, trivial, trivial⟩
  refine ⟨hsize, ?_⟩
  rw [← hsize]
  exact message_round_trip hreceivable (by rw [hsize]; norm_num) fun _ _ => rfl

/-! ### A message that does not fit -/

theorem serializeString_contained (s : Rstring) (b : UcdrBuffer) :
    Contained b (serializeString b s).2 :=
  (serializeNumber_contained b 4 _).trans (serializeArray_contained _ 1 _)

theorem serializeAll_contained {α : Type} {ser : α → UcdrBuffer → Bool × UcdrBuffer}
    (h : ∀ v b, Contained b (ser v b).2) (vs : List α) (b : UcdrBuffer) :
    Contained b (serializeAll ser vs b).2 := by
  induction vs generalizing b with
  | nil => exact .refl b
  | cons v vs ih =>
    rw [serializeAll]
    dsimp only
    split
    · exact (h v b).trans (ih _)
    · exact h v b

theorem serializeStrings_contained (strings : List Rstring) (b : UcdrBuffer) :
    Contained b (serializeStrings b strings).2 :=
  (serializeNumber_contained b 4 _).trans
    (serializeAll_contained (fun s b => serializeString_contained s b) strings _)

theorem serializeSequence_contained {t : BaseType} (l : List t.Value) (b : UcdrBuffer) :
    Contained b (serializeSequence b t l).2 := by
  have hlength := serializeNumber_contained b 4 l.length
  rw [serializeSequence]
  dsimp only
  split
  · exact hlength
  · exact hlength.trans (serializeArray_contained _ _ _)

theorem psSer_contained (t : MsgType) (v : t.Value Rstring) (b : UcdrBuffer) :
    Contained b (psSer t v b).2 := by
  induction t generalizing b with
  | base t => exact serializeNumber_contained b _ _
  | rstring =>
    cases v with
    | none => exact serializeNumber_contained b 4 0
    | some s => exact serializeString_contained s b
  | array t number => exact serializeArray_contained b _ _
  | stringArray number => exact serializeStrings_contained v b
  | sequence t => exact serializeSequence_contained v b
  | stringSequence => exact serializeStrings_contained v b
  | done => exact .refl b
  | fields first rest ihfirst ihrest =>
    obtain ⟨v, w⟩ := v
    rw [psSer]
    dsimp only
    split
    · exact (ihfirst v b).trans (ihrest w _)
    · exact ihfirst v b
  | sequenceOf t ih =>
    exact (serializeNumber_contained b 4 _).trans (serializeAll_contained ih v _)

/-- Whatever the message and however small the buffer, of at least the four bytes of the header:
nothing past it is written, and the size that is reported lies within it. -/
theorem writer_contained (t : MsgType) (v : t.Value Rstring) (memory : ByteMemory) (room : ℕ) :
    (∀ i, room + 4 ≤ i → (psSerialize t v memory (room + 4)).2 i = memory i) ∧
      (psSerialize t v memory (room + 4)).1 ≤ room + 4 := by
  have hcontained := psSer_contained t v
    (initBuffer (pastHeader (memory.store 0 (littleEndian 4 0x0100))) (room + 4 - 4))
  refine ⟨?_, Nat.add_le_add_right (hcontained.iterator (Nat.zero_le _)) 4⟩
  intro i hi
  have hbody := hcontained.memory (i - 4) (by show room + 4 - 4 ≤ i - 4; omega)
  have hheader : memory.store 0 (littleEndian 4 0x0100) i = memory i :=
    store_of_ge (by rw [length_littleEndian]; omega)
  refine (if_neg (by omega)).trans (hbody.trans ?_)
  show memory.store 0 (littleEndian 4 0x0100) (i - 4 + 4) = memory i
  rw [Nat.sub_add_cancel (by omega), hheader]

end Picoserdes
