import ByteBasic.Proofs.Machine.Checking

/-!
# Requests to a machine

What can be asked of a processor from outside, one request after the other: to attach a device, to load
an image, to step, to run, and to be cleared. The same can be asked of a checked machine.

**Theorem (`serveAll?_checked`).** The checked machine does not fail at any request, and is then in the
state of the processor that was asked the same.
-/

namespace ByteBasic

variable {δ : Type}

namespace Processor

/-- What can be asked of a processor. -/
inductive Request (δ : Type)
  | attach (address : UInt8) (device : δ)
  | loadBytes (bytes : List UInt8)
  | loadWords (words : List UInt16)
  | loadImage (image : Image)
  | step
  | run
  | clear
  | reset

theorem config_loadBytes (processor : Processor δ) (bytes : List UInt8) :
    ((processor.loadBytes bytes).toOption.getD processor).config = processor.config := by
  unfold loadBytes
  split <;> rfl

variable [Device δ]

/-- A request carried out. An image that is refused changes nothing. -/
def serve (processor : Processor δ) : Request δ → Processor δ
  | .attach address device => processor.attach address device
  | .loadBytes bytes => (processor.loadBytes bytes).toOption.getD processor
  | .loadWords words => (processor.loadImage (.ofWords words)).toOption.getD processor
  | .loadImage image => (processor.loadImage image).toOption.getD processor
  | .step => processor.step
  | .run => processor.run.2
  | .clear => processor.clear
  | .reset => processor.reset

def serveAll (processor : Processor δ) (requests : List (Request δ)) : Processor δ :=
  requests.foldl serve processor

/-- A run is a number of steps. -/
theorem exists_run (processor : Processor δ) :
    ∃ count, processor.run.2 = steps count processor := by
  induction processor using run.induct with
  | case1 processor reason hstatus =>
    rw [run_of_halted hstatus]
    exact ⟨0, rfl⟩
  | case2 processor hstatus _ ih =>
    obtain ⟨count, hsteps⟩ := ih
    rw [run_of_ready hstatus, hsteps]
    exact ⟨count + 1, rfl⟩

/-- A run gives the reason that it leaves on record. -/
theorem stopReason?_run (processor : Processor δ) :
    processor.run.2.stopReason? = some processor.run.1 := by
  induction processor using run.induct with
  | case1 processor reason hstatus =>
    rw [run_of_halted hstatus]
    exact stopReason?_eq_some.2 hstatus
  | case2 processor hstatus _ ih =>
    rw [run_of_ready hstatus]
    exact ih

theorem config_serve (processor : Processor δ) (request : Request δ) :
    (processor.serve request).config = processor.config := by
  cases request with
  | attach | clear | reset => rfl
  | loadBytes bytes => exact processor.config_loadBytes bytes
  | loadWords words => exact processor.config_loadBytes _
  | loadImage image => exact processor.config_loadBytes _
  | step => exact config_steps 1 processor
  | run =>
    obtain ⟨count, hsteps⟩ := processor.exists_run
    rw [serve, hsteps, config_steps]

theorem config_serveAll (processor : Processor δ) (requests : List (Request δ)) :
    (processor.serveAll requests).config = processor.config := by
  induction requests generalizing processor with
  | nil => rfl
  | cons request requests ih => exact (ih _).trans (config_serve processor request)

end Processor

namespace Checked

open Processor (Request)

def loadBytes (machine : Checked δ) (bytes : List UInt8) : Checked δ :=
  if bytes.length > memorySize then machine
  else { machine with
    core := { machine.core with memory := machine.core.memory.writeAll 0 bytes } }

variable [Device δ]

/-- Puts everything but memory back to rest, both records of a stop included. -/
def clear (machine : Checked δ) : Checked δ where
  core := { Core.initial with memory := machine.core.memory }
  cycles := 0
  halted := false
  reason := none
  config := machine.config
  slots := machine.slots.map fun slot => { slot with device := Device.clear slot.device }

/-- A request carried out, if all accesses are in bounds and a run ends. -/
def serve? (machine : Checked δ) : Request δ → Option (Checked δ)
  | .attach address device => some { machine with slots := machine.slots ++ [⟨address, device⟩] }
  | .loadBytes bytes => some (machine.loadBytes bytes)
  | .loadWords words => some (machine.loadBytes (Image.ofWords words).bytes)
  | .loadImage image => some (machine.loadBytes image.bytes)
  | .step => machine.step?.map Prod.snd
  | .run => (machine.run? (machine.config.maxCycles + 2)).map Prod.snd
  | .clear => some machine.clear
  | .reset => some { machine.clear with core := .initial }

def serveAll? (machine : Checked δ) (requests : List (Request δ)) : Option (Checked δ) :=
  requests.foldlM serve? machine

end Checked

namespace Processor

theorem loadBytes_checked (processor : Processor δ) (bytes : List UInt8) :
    processor.checked.loadBytes bytes =
      ((processor.loadBytes bytes).toOption.getD processor).checked := by
  unfold Checked.loadBytes loadBytes
  split <;> rfl

variable [Device δ] {processor : Processor δ}

theorem serve?_checked (h : processor.config.maxCycles < UInt64.size) (request : Request δ) :
    processor.checked.serve? request = some (processor.serve request).checked := by
  cases request with
  | attach | clear | reset => rfl
  | loadBytes bytes => exact congrArg some (processor.loadBytes_checked bytes)
  | loadWords words => exact congrArg some (processor.loadBytes_checked _)
  | loadImage image => exact congrArg some (processor.loadBytes_checked _)
  | step =>
    rw [Checked.serve?, step?_checked h]
    rfl
  | run =>
    have hlimit : processor.remaining ≤ processor.config.maxCycles + 2 := by
      unfold remaining
      split <;> omega
    rw [Checked.serve?, show processor.checked.config = processor.config from rfl,
      run?_checked h hlimit (Nat.succ_pos _)]
    rfl

theorem serveAll?_checked (h : processor.config.maxCycles < UInt64.size)
    (requests : List (Request δ)) :
    processor.checked.serveAll? requests = some (processor.serveAll requests).checked := by
  induction requests generalizing processor with
  | nil => rfl
  | cons request requests ih =>
    have hnext : (processor.serve request).config.maxCycles < UInt64.size := by
      rw [config_serve]
      exact h
    rw [Checked.serveAll?, List.foldlM_cons, serve?_checked h]
    exact ih hnext

end Processor

end ByteBasic
