/-
What a buffer holds, as data: a layout says where a value ends and which bytes stand there.

* `Layout` — the end and the bytes, which nothing past the end can change;
* `Layout.number`, `Layout.bytes`, `Layout.seq`, `Layout.all` — how layouts are put together;
* `Wrote`, `Passed` — an operation has written a layout, or gone over it;
* `Writes.seq`, `Finds.seq` — a writer after another, and a reader after another.
-/
import Base101.Ucdr

namespace Ucdr

open ByteMemory

/-- Where a value that starts at a position ends, and whether it stands there. -/
structure Layout where
  stop : ℕ → ℕ
  Holds : ByteMemory → ℕ → Prop
  le_stop : ∀ o, o ≤ stop o
  congr : ∀ {m m' : ByteMemory} {o : ℕ},
    (∀ i, o ≤ i → i < stop o → m i = m' i) → Holds m o → Holds m' o

namespace Layout

theorem le_aligned (size o : ℕ) : o ≤ aligned size o := Nat.le_add_right _ _

/-- Bytes from the next multiple of a size on. -/
def bytes (size : ℕ) (array : List UInt8) : Layout where
  stop o := aligned size o + array.length
  Holds m o := m.load (aligned size o) array.length = array
  le_stop o := (le_aligned size o).trans (Nat.le_add_right _ _)
  congr := by
    intro m m' o h hholds
    rw [← hholds, length_load]
    exact (load_congr fun i hi hi' => h i ((le_aligned size o).trans hi) hi').symm

/-- A number. -/
def number (size value : ℕ) : Layout := bytes size (littleEndian size value)

/-- Nothing. -/
def empty : Layout where
  stop o := o
  Holds _ _ := True
  le_stop _ := le_rfl
  congr _ h := h

/-- One after the other. -/
def seq (l l' : Layout) : Layout where
  stop o := l'.stop (l.stop o)
  Holds m o := l.Holds m o ∧ l'.Holds m (l.stop o)
  le_stop o := (l.le_stop o).trans (l'.le_stop _)
  congr := by
    intro m m' o h hholds
    have hstop := l'.le_stop (l.stop o)
    have hstart := l.le_stop o
    exact ⟨l.congr (fun i hi hi' => h i hi (by omega)) hholds.1,
      l'.congr (fun i hi hi' => h i (by omega) hi') hholds.2⟩

def all : List Layout → Layout
  | [] => empty
  | l :: ls => l.seq (all ls)

end Layout

/-! ### Writing -/

/-- The layout has been written where the buffer was, and what is below it is unchanged. -/
structure Wrote (b : UcdrBuffer) (l : Layout) (b' : UcdrBuffer) : Prop where
  ready : Ready b'
  final : b'.final = b.final
  iterator : b'.iterator = l.stop b.iterator
  below : ∀ i, i < b.iterator → b'.memory i = b.memory i
  holds : l.Holds b'.memory b.iterator

/-- Where there is room, the writer succeeds and has written the layout. -/
def Writes (ser : UcdrBuffer → Bool × UcdrBuffer) (l : Layout) : Prop :=
  ∀ b, Ready b → l.stop b.iterator ≤ b.final → ∃ b', ser b = (true, b') ∧ Wrote b l b'

theorem Wrote.empty {b : UcdrBuffer} (h : Ready b) : Wrote b .empty b :=
  ⟨h, rfl, rfl, fun _ _ => rfl, trivial⟩

/-- What is written next leaves what has been written. -/
theorem Wrote.seq {b b' b'' : UcdrBuffer} {l l' : Layout} (h : Wrote b l b')
    (h' : Wrote b' l' b'') : Wrote b (l.seq l') b'' where
  ready := h'.ready
  final := h'.final.trans h.final
  iterator := by
    rw [h'.iterator, h.iterator]
    rfl
  below := by
    intro i hi
    have hstart := l.le_stop b.iterator
    rw [h'.below i (by rw [h.iterator]; omega), h.below i hi]
  holds := by
    refine ⟨l.congr (fun i _ hi => (h'.below i (by rw [h.iterator]; exact hi)).symm) h.holds, ?_⟩
    have hholds := h'.holds
    rw [h.iterator] at hholds
    exact hholds

/-- Bytes that were copied to where they belong. -/
theorem Wrote.store {b : UcdrBuffer} {size : ℕ} {array : List UInt8} (hsize : NumberSize size)
    (hdvd : size ∣ array.length) :
    Wrote b (.bytes size array)
      (past b (b.memory.store (aligned size b.iterator) array)
        (aligned size b.iterator + array.length) size) where
  ready := ready_past hsize (dvd_add (dvd_aligned hsize _) hdvd)
  final := rfl
  iterator := rfl
  below := fun _ hi => store_of_lt (hi.trans_le (Layout.le_aligned _ _))
  holds := load_store _ _ _

theorem writes_number {size : ℕ} (hsize : NumberSize size) (value : ℕ) :
    Writes (fun b => serializeNumber b size value) (.number size value) := by
  intro b hready hroom
  have hlength : (littleEndian size value).length = size := length_littleEndian size value
  have hfits : aligned size b.iterator + size ≤ b.final := by
    have hstop : aligned size b.iterator + (littleEndian size value).length ≤ b.final := hroom
    omega
  have hwrote : Wrote b (.number size value) _ := .store hsize (by rw [hlength])
  rw [hlength] at hwrote
  exact ⟨_, serializeNumber_fits hready hsize value hfits, hwrote⟩

theorem writes_array {size : ℕ} (hsize : NumberSize size) {array : List UInt8}
    (hdvd : size ∣ array.length) :
    Writes (fun b => serializeArray b size array) (.bytes size array) :=
  fun _ hready hroom => ⟨_, serializeArray_fits hready hsize array hroom, .store hsize hdvd⟩

/-- A writer after another. -/
theorem Writes.seq {ser ser' : UcdrBuffer → Bool × UcdrBuffer} {l l' : Layout}
    (h : Writes ser l) (h' : Writes ser' l') {b : UcdrBuffer} (hready : Ready b)
    (hroom : (l.seq l').stop b.iterator ≤ b.final) :
    ∃ b' b'', ser b = (true, b') ∧ ser' b' = (true, b'') ∧ Wrote b (l.seq l') b'' := by
  obtain ⟨b', hser, hwrote⟩ := h b hready ((l'.le_stop _).trans hroom)
  have hroom' : l'.stop b'.iterator ≤ b'.final := by
    rw [hwrote.iterator, hwrote.final]
    exact hroom
  obtain ⟨b'', hser', hwrote'⟩ := h' b' hwrote.ready hroom'
  exact ⟨b', b'', hser, hser', hwrote.seq hwrote'⟩

/-! ### Reading -/

/-- The buffer has gone over the layout. -/
structure Passed (b : UcdrBuffer) (l : Layout) (b' : UcdrBuffer) : Prop where
  ready : Ready b'
  final : b'.final = b.final
  iterator : b'.iterator = l.stop b.iterator
  memory : b'.memory = b.memory

/-- Where the layout stands, the reader goes over it and finds a value. -/
def Finds {α : Type} (des : UcdrBuffer → Option α × UcdrBuffer) (l : Layout)
    (Found : ByteMemory → α → Prop) : Prop :=
  ∀ b, Ready b → l.stop b.iterator ≤ b.final → l.Holds b.memory b.iterator →
    ∃ v b', des b = (some v, b') ∧ Passed b l b' ∧ Found b.memory v

theorem Passed.empty {b : UcdrBuffer} (h : Ready b) : Passed b .empty b := ⟨h, rfl, rfl, rfl⟩

theorem Passed.seq {b b' b'' : UcdrBuffer} {l l' : Layout} (h : Passed b l b')
    (h' : Passed b' l' b'') : Passed b (l.seq l') b'' where
  ready := h'.ready
  final := h'.final.trans h.final
  iterator := by
    rw [h'.iterator, h.iterator]
    rfl
  memory := h'.memory.trans h.memory

theorem Passed.past {b : UcdrBuffer} {size : ℕ} {array : List UInt8} (hsize : NumberSize size)
    (hdvd : size ∣ array.length) :
    Passed b (.bytes size array)
      (past b b.memory (aligned size b.iterator + array.length) size) where
  ready := ready_past hsize (dvd_add (dvd_aligned hsize _) hdvd)
  final := rfl
  iterator := rfl
  memory := rfl

theorem finds_number {size : ℕ} (hsize : NumberSize size) {value : ℕ}
    (hvalue : value < 256 ^ size) :
    Finds (fun b => deserializeNumber b size) (.number size value) fun _ n => n = value := by
  intro b hready hroom hholds
  have hlength : (littleEndian size value).length = size := length_littleEndian size value
  have hload : b.memory.load (aligned size b.iterator) (littleEndian size value).length =
      littleEndian size value := hholds
  have hfits : aligned size b.iterator + size ≤ b.final := by
    have hstop : aligned size b.iterator + (littleEndian size value).length ≤ b.final := hroom
    omega
  have hpassed : Passed b (.number size value) _ := .past hsize (by rw [hlength])
  rw [hlength] at hload hpassed
  refine ⟨_, _, deserializeNumber_fits hready hsize hfits, hpassed, ?_⟩
  rw [hload, ofLittleEndian_littleEndian hvalue]

theorem array_found {size number : ℕ} (hsize : NumberSize size) {array : List UInt8}
    (hlength : array.length = number * size) {b : UcdrBuffer} (hready : Ready b)
    (hroom : (Layout.bytes size array).stop b.iterator ≤ b.final)
    (hholds : (Layout.bytes size array).Holds b.memory b.iterator) :
    ∃ b', deserializeArray b size number = (true, array, b') ∧
      Passed b (.bytes size array) b' := by
  have hload : b.memory.load (aligned size b.iterator) array.length = array := hholds
  have hfits : aligned size b.iterator + array.length ≤ b.final := hroom
  have hpassed : Passed b (.bytes size array) _ :=
    .past hsize (hlength ▸ Dvd.intro_left number rfl)
  rw [hlength] at hload hfits hpassed
  refine ⟨_, ?_, hpassed⟩
  rw [deserializeArray_fits hready hsize number hfits, hload]

/-- What the second reader needs after the first. -/
theorem Passed.next {b b' : UcdrBuffer} {l l' : Layout} (h : Passed b l b')
    (hroom : (l.seq l').stop b.iterator ≤ b.final)
    (hholds : (l.seq l').Holds b.memory b.iterator) :
    l'.stop b'.iterator ≤ b'.final ∧ l'.Holds b'.memory b'.iterator := by
  rw [h.iterator, h.final, h.memory]
  exact ⟨hroom, hholds.2⟩

/-- A reader after another. -/
theorem Finds.seq {α β : Type} {des : UcdrBuffer → Option α × UcdrBuffer}
    {des' : UcdrBuffer → Option β × UcdrBuffer} {l l' : Layout}
    {Found : ByteMemory → α → Prop} {Found' : ByteMemory → β → Prop} (h : Finds des l Found)
    (h' : Finds des' l' Found') {b : UcdrBuffer} (hready : Ready b)
    (hroom : (l.seq l').stop b.iterator ≤ b.final)
    (hholds : (l.seq l').Holds b.memory b.iterator) :
    ∃ v w b' b'', des b = (some v, b') ∧ des' b' = (some w, b'') ∧ Passed b (l.seq l') b'' ∧
      Found b.memory v ∧ Found' b.memory w := by
  obtain ⟨v, b', hdes, hpassed, hv⟩ := h b hready ((l'.le_stop _).trans hroom) hholds.1
  obtain ⟨hroom', hholds'⟩ := hpassed.next hroom hholds
  obtain ⟨w, b'', hdes', hpassed', hw⟩ := h' b' hpassed.ready hroom' hholds'
  rw [hpassed.memory] at hw
  exact ⟨v, w, b', b'', hdes, hdes', hpassed.seq hpassed', hv, hw⟩

end Ucdr
