/-!
# Banks of bytes

Registers, memory and ports are each a bank: a fixed number of bytes with an address for each.
Reading outside a bank gives zero and writing there changes nothing, so both operations are total;
the lemmas below say that inside a bank a read sees the last write.
-/

namespace ByteBasic

/-- A fixed number of addressable bytes. -/
structure Bank (n : Nat) where
  cells : Vector UInt8 n
  deriving DecidableEq

namespace Bank

variable {n : Nat}

def zero (n : Nat) : Bank n :=
  ⟨Vector.replicate n 0⟩

/-- The byte at an address, and zero outside the bank. -/
def read (bank : Bank n) (address : Nat) : UInt8 :=
  bank.cells[address]?.getD 0

/-- Replaces the byte at an address; outside the bank nothing changes. -/
def write (bank : Bank n) (address : Nat) (value : UInt8) : Bank n :=
  ⟨bank.cells.setIfInBounds address value⟩

/-- Writes the bytes one after the other from an address on. -/
def writeAll (bank : Bank n) (address : Nat) : List UInt8 → Bank n
  | [] => bank
  | value :: values => (bank.write address value).writeAll (address + 1) values

/-- The bytes in ascending order of their addresses. -/
def toList (bank : Bank n) : List UInt8 :=
  bank.cells.toList

theorem read_zero (address : Nat) : (zero n).read address = 0 := by
  by_cases h : address < n <;> simp [read, zero, h]

theorem read_write_self (bank : Bank n) {address : Nat} (h : address < n) (value : UInt8) :
    (bank.write address value).read address = value := by
  simp [read, write, h]

theorem read_write_of_ne (bank : Bank n) {address other : Nat} (h : address ≠ other)
    (value : UInt8) : (bank.write address value).read other = bank.read other := by
  simp [read, write, h]

theorem ext_read {a b : Bank n} (h : ∀ i, i < n → a.read i = b.read i) : a = b := by
  obtain ⟨a⟩ := a
  obtain ⟨b⟩ := b
  congr 1
  apply Vector.ext
  intro i hi
  have := h i hi
  simpa [read, hi] using this

theorem write_read (bank : Bank n) (address : Nat) :
    bank.write address (bank.read address) = bank := by
  apply ext_read
  intro i hi
  by_cases h : address = i
  · subst h
    rw [read_write_self _ hi]
  · rw [read_write_of_ne _ h]

theorem write_write (bank : Bank n) (address : Nat) (first second : UInt8) :
    (bank.write address first).write address second = bank.write address second := by
  apply ext_read
  intro i hi
  by_cases h : address = i
  · subst h
    rw [read_write_self _ hi, read_write_self _ hi]
  · rw [read_write_of_ne _ h, read_write_of_ne _ h, read_write_of_ne _ h]

end Bank

end ByteBasic
