import ByteBasic.Proofs.Machine.Execution
import ByteBasic.Proofs.Machine.Running

/-!
# A processor with a console

With a console at port zero and no other device, a cycle can be told without the ports: the console
clears its port before an instruction and looks at it after, so it receives exactly the byte that the
instruction stores there (`Processor.Shows.during`). What the ports hold between cycles is no
concern of the code.
-/

namespace ByteBasic

/-- The console after it received bytes, one after the other. -/
def Console.receiveAll (console : Console) (bytes : List UInt8) : Console :=
  bytes.foldl receive console

namespace Console

@[simp] theorem receive_zero (console : Console) : console.receive 0 = console := rfl

@[simp] theorem receiveAll_nil (console : Console) : console.receiveAll [] = console := rfl

theorem receiveAll_append (console : Console) (xs ys : List UInt8) :
    console.receiveAll (xs ++ ys) = (console.receiveAll xs).receiveAll ys :=
  List.foldl_append

/-- What a console shows: the bytes that are not zero, as characters. -/
theorem receiveAll_text (console : Console) (bytes : List UInt8) :
    (console.receiveAll bytes).text =
      console.text ++ String.ofList ((bytes.filter (· ≠ 0)).map character) := by
  induction bytes generalizing console with
  | nil => simp
  | cons byte bytes ih =>
    rw [show console.receiveAll (byte :: bytes) = (console.receive byte).receiveAll bytes from rfl, ih]
    by_cases hzero : byte = 0
    · subst hzero
      simp
    · have hreceive : (console.receive byte).text = console.text.push (character byte) := by
        rw [receive, if_neg hzero]
      have hfilter : (byte :: bytes).filter (· ≠ 0) = byte :: bytes.filter (· ≠ 0) := by
        simp [hzero]
      rw [hreceive, hfilter, List.map_cons]
      apply String.toList_injective
      simp

theorem receiveAll_empty (bytes : List UInt8) :
    empty.receiveAll bytes = ⟨String.ofList ((bytes.filter (· ≠ 0)).map character)⟩ := by
  have htext := receiveAll_text empty bytes
  rw [show empty.text = "" from rfl, String.empty_append] at htext
  rw [← htext]

end Console

namespace Processor

/-- A processor that is ready, turns by single bits, has a console at port zero as its only device,
and has this core but for the ports. -/
structure Shows (core : Core) (console : Console) (processor : Processor Console) : Prop where
  status : processor.status = .ready
  mode : processor.config.rotate = .singleBit
  slots : processor.slots = [⟨0, console⟩]
  core : ∃ ports, processor.core = { core with ports := ports }

variable {core core' : Core} {console : Console} {processor : Processor Console}
variable {effect : Core → Core × Option StopReason} {byte : UInt8} {reason : Option StopReason}

/-- One cycle: the console receives what it finds at its port. -/
theorem slots_during (h : Shows core console processor)
    (heffect : ∀ ports : Bank 256, ports.read 0 = 0 → ∃ ports' : Bank 256, ports'.read 0 = byte ∧
      effect { core with ports := ports } = ({ core' with ports := ports' }, reason)) :
    (processor.during effect).status = statusAfter reason ∧
      (processor.during effect).slots = [⟨0, console.receive byte⟩] ∧
      ∃ ports, (processor.during effect).core = { core' with ports := ports } := by
  obtain ⟨ports, hcore⟩ := h.core
  have hcleared : (ports.write 0 0).read 0 = 0 := Bank.read_write_self ports (by decide) 0
  obtain ⟨ports', hread, heffect⟩ := heffect _ hcleared
  have hbefore : strobe Device.beforeStep processor.slots processor.core.ports =
      ([⟨0, console⟩], ports.write 0 0) := by
    rw [h.slots, hcore]
    rfl
  have hexecuted : effect { processor.core with ports := ports.write 0 0 } =
      ({ core' with ports := ports' }, reason) := by
    rw [hcore]
    exact heffect
  have hafter : strobe Device.afterStep [⟨0, console⟩] ports' =
      ([⟨0, console.receive byte⟩], ports'.write 0 byte) := by
    rw [← hread]
    rfl
  simp only [Processor.during, hbefore, hexecuted, hafter]
  exact ⟨trivial, trivial, _, rfl⟩

theorem Shows.during (h : Shows core console processor)
    (heffect : ∀ ports : Bank 256, ports.read 0 = 0 → ∃ ports' : Bank 256, ports'.read 0 = byte ∧
      effect { core with ports := ports } = ({ core' with ports := ports' }, none)) :
    Shows core' (console.receive byte) (processor.during effect) := by
  obtain ⟨hstatus, hslots, hcore⟩ := slots_during h heffect
  exact ⟨hstatus, h.mode, hslots, hcore⟩

theorem Shows.quiet (h : Shows core console processor)
    (heffect : ∀ ports, effect { core with ports := ports } = ({ core' with ports := ports }, none)) :
    Shows core' console (processor.during effect) :=
  h.during fun ports hports => ⟨ports, hports, heffect ports⟩

theorem Shows.idle (h : Shows core console processor) (count : Nat) :
    Shows core console (processor.idle count) := by
  induction count generalizing processor with
  | zero => exact h
  | succ count ih => exact ih (h.quiet fun _ => rfl)

theorem Shows.reg (h : Shows core console processor) (r : UInt8) :
    processor.core.reg r = core.reg r := by
  obtain ⟨ports, hcore⟩ := h.core
  rw [hcore]
  rfl

theorem Shows.stack (h : Shows core console processor) : processor.core.stack = core.stack := by
  obtain ⟨ports, hcore⟩ := h.core
  rw [hcore]

end Processor

end ByteBasic
