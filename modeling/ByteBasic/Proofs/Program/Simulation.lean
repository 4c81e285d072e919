import ByteBasic.Proofs.Program.Calling

/-!
# Runs of programs

Compiled code follows a program line by line (`Trace.meets_step`), and so it follows whole runs
(`Trace.ends_runFor`): where the program comes to its end, the code halts with the same exit code, and
the console has received what the program wrote.
-/

namespace ByteBasic

open Source (Program Outline State)

namespace Trace

variable {program : Program} {trace : Trace program} {size : Nat}
variable {source next : State} {view : View} {name : String}

/-! ## Steps -/

/-- Compiled code can go on to where the program is, or halts where it has come to its end. -/
def Meets (trace : Trace program) (size : Nat) (view : View) (source : State) : Prop :=
  match source.exitCode with
  | none => trace.Reaches size view source
  | some code => view.Ends trace.items size code (Console.empty.receiveAll source.output)

theorem Reaches.meets (h : trace.Reaches size view source) : trace.Meets size view source := by
  have hrunning : source.exitCode = none := by
    obtain ⟨_, -, hfollows⟩ := h
    exact hfollows.carries.running
  unfold Meets
  rw [hrunning]
  exact h

theorem meets_halt (h : trace.Follows source view)
    (hsaid : program[source.line]? = some (some .halt)) :
    trace.Meets size view (source.halt 0) := by
  obtain ⟨core, console, rfl, hcarries, -⟩ := h.start hsaid (by simp)
  obtain ⟨after, items, hcomes, -, -, hitems⟩ := trace.comes hsaid
  have hputs : trace.Puts source.line [.halt] := hcomes.puts hitems
  have hends : View.Ends trace.items size ⟨trace.entry source.line, core, console⟩ _ _ :=
    View.ends_halt (hputs.stands hcomes.lt).head
  rw [hcarries.exitCode] at hends
  rw [hcarries.console] at hends ⊢
  exact hends

theorem meets_exit (h : trace.Follows source view) {code : UInt8}
    (hsaid : program[source.line]? = some (some (.exit code))) :
    trace.Meets size view (source.halt code) := by
  obtain ⟨core, console, rfl, hcarries, -⟩ := h.start hsaid (by simp)
  obtain ⟨after, items, hcomes, -, -, hitems⟩ := trace.comes hsaid
  have hputs := hcomes.puts_straight [.halt] hitems
  have hends : View.Ends trace.items size ⟨trace.entry source.line, core, console⟩ code console :=
    View.ends_exit (hputs.stands hcomes.lt)
  rw [hcarries.console] at hends ⊢
  exact hends

theorem reaches_called (loaded : trace.Loaded size) (h : trace.Follows source view)
    {arguments : List Operand} (hsaid : program[source.line]? = some (some (.call name arguments)))
    (hcall : (program.outline source.line).call source name arguments = some next) :
    trace.Reaches size view next := by
  unfold Outline.call at hcall
  split at hcall
  next operand hname =>
    obtain ⟨bytes, hwritten, rfl⟩ := Option.map_eq_some_iff.1 hcall
    exact reaches_write loaded h hsaid hname hwritten
  next target amount hname =>
    obtain ⟨id, hlookup, rfl⟩ := Option.map_eq_some_iff.1 hcall
    exact reaches_rotate loaded h hsaid hname hlookup
  next hname =>
    obtain ⟨⟨known, start⟩, hfind, henter⟩ := Option.bind_eq_some_iff.1 hcall
    exact reaches_call loaded h hsaid hname hfind henter
  next => cases hcall

theorem meets_step (loaded : trace.Loaded size) (h : trace.Follows source view)
    (hstep : program.step source = some next) : trace.Meets size view next := by
  unfold Program.step at hstep
  rw [h.carries.running] at hstep
  cases hsaid : program[source.line]? with
  | none =>
    rw [hsaid] at hstep
    cases hstep
  | some said =>
    rw [hsaid] at hstep
    cases said with
    | none =>
      cases hstep
      exact (reaches_blank h hsaid).meets
    | some statement =>
      -- One case for each sort of statement, all of which but two go on.
      have hperform : program.perform source statement = some next := hstep
      cases statement with
      | declare name value => exact (reaches_declare loaded h hsaid hperform).meets
      | assign name update => exact (reaches_assign loaded h hsaid hperform).meets
      | ifGoto condition name => exact (reaches_ifGoto loaded h hsaid hperform).meets
      | ifBlock condition => exact (reaches_ifBlock loaded h hsaid hperform).meets
      | loop condition => exact (reaches_loop loaded h hsaid hperform).meets
      | otherwise => exact (reaches_otherwise loaded h hsaid hperform).meets
      | close => exact (reaches_close loaded h hsaid hperform).meets
      | function name => exact (reaches_function loaded h hsaid hperform).meets
      | ret => exact (reaches_ret loaded h hsaid hperform).meets
      | goto name =>
        obtain ⟨target, htarget, hnext⟩ := Option.bind_eq_some_iff.1 hperform
        cases hnext
        exact (reaches_goto loaded h hsaid htarget).meets
      | label name =>
        cases hperform
        exact (reaches_label loaded h hsaid).meets
      | halt =>
        cases hperform
        exact meets_halt h hsaid
      | exit code =>
        cases hperform
        exact meets_exit h hsaid
      | call name arguments => exact (reaches_called loaded h hsaid hperform).meets

/-! ## Runs -/

/-- Where a run of the program comes to an end, the code halts. -/
theorem ends_runFor (loaded : trace.Loaded size) {count : Nat} {last : State} {code : UInt8}
    (h : trace.Follows source view) (hrun : program.runFor count source = some last)
    (hexit : last.exitCode = some code) :
    view.Ends trace.items size code (Console.empty.receiveAll last.output) := by
  induction count generalizing source view with
  | zero =>
    cases hrun
    rw [h.carries.running] at hexit
    cases hexit
  | succ count ih =>
    obtain ⟨next, hstep, hrun⟩ := Option.bind_eq_some_iff.1 hrun
    have hmeets := meets_step loaded h hstep
    unfold Meets at hmeets
    split at hmeets
    next hrunning =>
      obtain ⟨after, hleads, hfollows⟩ := hmeets
      exact hleads.ends (ih hfollows hrun)
    next other hended =>
      -- The program has come to its end, so this was its last line.
      cases count with
      | zero =>
        cases hrun
        rw [hexit] at hended
        cases hended
        exact hmeets
      | succ count =>
        obtain ⟨_, hmore, -⟩ := Option.bind_eq_some_iff.1 hrun
        simp [Program.step, hended] at hmore

end Trace

end ByteBasic
