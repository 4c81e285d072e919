/-!
# Devices

A device is attached to one port. Around every instruction it is handed the value of that port
twice, first before the instruction and then after it, and gives back the value that the port then
has. It never sees anything else of the machine.

* `Console` zeroes its port first and then collects what the instruction wrote there, so a byte is
  seen once, in the step that wrote it.
* `Feeder` presents its data one byte at a time and keeps what it sees.
-/

namespace ByteBasic

/-- What a device does with its port. -/
class Device (δ : Type) where
  /-- The device and its port before an instruction. -/
  beforeStep : δ → UInt8 → δ × UInt8
  /-- The device and its port after an instruction. -/
  afterStep : δ → UInt8 → δ × UInt8
  /-- The device with what it has gathered forgotten. -/
  clear : δ → δ

/-- A device at the address of its port. -/
structure Slot (δ : Type) where
  address : UInt8
  device : δ
  deriving DecidableEq

/-- Collects every nonzero byte written to its port as the character with that number. -/
structure Console where
  text : String
  deriving DecidableEq

namespace Console

def empty : Console :=
  ⟨""⟩

/-- The character with the number of a byte. -/
def character (byte : UInt8) : Char :=
  Char.ofNat byte.toNat

/-- The console after its port held `byte`; zero is not a character. -/
def receive (console : Console) (byte : UInt8) : Console :=
  if byte = 0 then console else ⟨console.text.push (character byte)⟩

instance : Device Console where
  beforeStep console _ := (console, 0)
  afterStep console port := (console.receive port, port)
  clear _ := empty

end Console

/-- Presents the bytes of its data one to an instruction, then zeros, and records what its port
holds after each. -/
structure Feeder where
  data : List UInt8
  /-- What of the data is still to come. -/
  pending : List UInt8
  /-- What the port held after each instruction, the newest first. -/
  record : List UInt8
  deriving DecidableEq

namespace Feeder

def new (data : List UInt8) : Feeder :=
  ⟨data, data, []⟩

/-- What the port held after each instruction, in order. -/
def seen (feeder : Feeder) : List UInt8 :=
  feeder.record.reverse

instance : Device Feeder where
  beforeStep feeder _ := ({ feeder with pending := feeder.pending.tail }, feeder.pending.headD 0)
  afterStep feeder port := ({ feeder with record := port :: feeder.record }, port)
  clear feeder := new feeder.data

end Feeder

/-- The devices that can be attached side by side. -/
inductive Peripheral
  | console (console : Console)
  | feeder (feeder : Feeder)
  deriving DecidableEq

namespace Peripheral

instance : Device Peripheral where
  beforeStep
    | .console c, port => let (c, port) := Device.beforeStep c port; (.console c, port)
    | .feeder f, port => let (f, port) := Device.beforeStep f port; (.feeder f, port)
  afterStep
    | .console c, port => let (c, port) := Device.afterStep c port; (.console c, port)
    | .feeder f, port => let (f, port) := Device.afterStep f port; (.feeder f, port)
  clear
    | .console c => .console (Device.clear c)
    | .feeder f => .feeder (Device.clear f)

def console? : Peripheral → Option Console
  | .console c => some c
  | .feeder _ => none

def feeder? : Peripheral → Option Feeder
  | .console _ => none
  | .feeder f => some f

end Peripheral

end ByteBasic
