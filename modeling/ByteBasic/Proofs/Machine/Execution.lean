import ByteBasic.Machine.Core
import ByteBasic.Storage.Basic

/-!
# Straight-line execution

`Core.executeAll` is the effect of instructions that are executed one after the other, without a
program counter between them. It is what code put out by the storage means, and what the lemmas on
coherence are about.

The rest of the module says how the reads and writes of a core meet: a read sees the last write to
its own cell, and no other.
-/

namespace ByteBasic

namespace Core

/-! ## Reads after writes -/

@[simp] theorem reg_setReg_self (core : Core) (r : Register) (v : UInt8) :
    (core.setReg r.byte v).reg r.byte = v :=
  Bank.read_write_self core.registers (by rw [r.toNat_byte]; exact r.isLt) v

theorem reg_setReg_of_ne (core : Core) {r s : Register} (h : r ≠ s) (v : UInt8) :
    (core.setReg r.byte v).reg s.byte = core.reg s.byte :=
  Bank.read_write_of_ne core.registers
    (by rw [r.toNat_byte, s.toNat_byte]; exact fun e => h (Fin.ext e)) v

@[simp] theorem mem_setMem_self (core : Core) (a v : UInt8) : (core.setMem a v).mem a = v :=
  Bank.read_write_self core.memory a.toNat_lt v

theorem mem_setMem_of_ne (core : Core) {a b : UInt8} (h : a ≠ b) (v : UInt8) :
    (core.setMem a v).mem b = core.mem b :=
  Bank.read_write_of_ne core.memory (fun e => h (UInt8.toNat_inj.1 e)) v

@[simp] theorem mem_setReg (core : Core) (r v a : UInt8) : (core.setReg r v).mem a = core.mem a :=
  rfl

@[simp] theorem reg_setMem (core : Core) (a v r : UInt8) : (core.setMem a v).reg r = core.reg r :=
  rfl

theorem setReg_reg (core : Core) (r : Register) :
    core.setReg r.byte (core.reg r.byte) = core := by
  unfold setReg reg
  rw [Bank.write_read]

theorem setReg_setReg (core : Core) (r : Register) (v w : UInt8) :
    (core.setReg r.byte v).setReg r.byte w = core.setReg r.byte w := by
  unfold setReg
  rw [Bank.write_write]

/-! ## Instructions in a row -/

/-- The core after the instructions, executed one after the other. -/
def executeAll (mode : RotateMode) : List Instruction → Core → Core
  | [], core => core
  | instruction :: rest, core => executeAll mode rest (execute mode instruction core).1

@[simp] theorem executeAll_nil (mode : RotateMode) (core : Core) :
    executeAll mode [] core = core := rfl

@[simp] theorem executeAll_cons (mode : RotateMode) (instruction : Instruction)
    (rest : List Instruction) (core : Core) :
    executeAll mode (instruction :: rest) core =
      executeAll mode rest (execute mode instruction core).1 := rfl

theorem executeAll_append (mode : RotateMode) (xs ys : List Instruction) (core : Core) :
    executeAll mode (xs ++ ys) core = executeAll mode ys (executeAll mode xs core) := by
  induction xs generalizing core with
  | nil => rfl
  | cons x xs ih => exact ih (execute mode x core).1

/-! ## Writing to the console -/

/-- The bytes that an instruction writes to port zero. -/
def spoken : Instruction → Core → List UInt8
  | .storePort r 0, core => [core.reg r]
  | _, _ => []

/-- The core after instructions, executed one after the other, and the bytes that they write to port
zero. What the ports hold in between is left out. -/
def speak (mode : RotateMode) : List Instruction → Core → Core × List UInt8
  | [], core => (core, [])
  | instruction :: rest, core =>
    let (last, bytes) :=
      speak mode rest { (execute mode instruction core).1 with ports := core.ports }
    (last, spoken instruction core ++ bytes)

theorem speak_append (mode : RotateMode) (xs ys : List Instruction) (core : Core) :
    speak mode (xs ++ ys) core =
      ((speak mode ys (speak mode xs core).1).1,
        (speak mode xs core).2 ++ (speak mode ys (speak mode xs core).1).2) := by
  induction xs generalizing core with
  | nil => rfl
  | cons x xs ih => simp only [List.cons_append, speak, ih, List.append_assoc]

end Core

end ByteBasic
