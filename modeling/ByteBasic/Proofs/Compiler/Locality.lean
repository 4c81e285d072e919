import ByteBasic.Proofs.Compiler.Parts
import ByteBasic.Proofs.Compiler.Statements

/-!
# Code goes to the open stream

`Build.Local` says of a step that all it puts out goes to the stream that is open, and that the stream
stays open. All parts of a statement are local, so all statements are but those that open and close
the body of a function.

**Theorem (`local_statement`).** Whatever its operands are, and also if it is refused, a statement other
than `function` and `end` puts out items for the open stream only.
-/

namespace ByteBasic.Build

variable {α β : Type}

/-- All that a step puts out goes to the open stream, which stays open. -/
def Local (action : Build α) : Prop :=
  ∀ state, (action.run state).state.current = state.current ∧
    ∀ entry ∈ streamed (action.run state).output, entry.1 = state.current

/-! ## Steps -/

theorem Local.bind {action : Build α} {next : α → Build β} (h : Local action)
    (hnext : ∀ a, Local (next a)) : Local (action >>= next) := by
  intro state
  obtain ⟨hcurrent, hout⟩ := h state
  rw [Action.run_bind]
  rcases hrun : action.run state with ⟨_ | a, middle, output⟩
  · rw [hrun] at hcurrent hout
    exact ⟨hcurrent, hout⟩
  · rw [hrun] at hcurrent hout
    obtain ⟨hcurrent', hout'⟩ := hnext a middle
    rw [hcurrent] at hcurrent' hout'
    rw [Outcome.andThen_ok]
    refine ⟨hcurrent', fun entry hentry => ?_⟩
    rw [streamed_append] at hentry
    exact (List.mem_append.1 hentry).elim (hout entry) (hout' entry)

theorem Local.get {next : BuildState → Build β} (h : ∀ state, Local (next state)) :
    Local (Action.get >>= next) := by
  intro state
  rw [Action.run_bind, Action.run_get, Outcome.andThen_ok_nil]
  exact h state state

theorem Local.pure (a : α) : Local (pure a) :=
  fun _ => ⟨rfl, fun _ h => (by cases h)⟩

theorem Local.fail (error : CompileError) : Local (Action.fail error : Build α) :=
  fun _ => ⟨rfl, fun _ h => (by cases h)⟩

theorem Local.ofExcept (result : Except CompileError α) : Local (Action.ofExcept result) :=
  fun _ => ⟨rfl, fun _ h => (by cases h)⟩

theorem Local.modify {change : BuildState → BuildState}
    (h : ∀ state, (change state).current = state.current) : Local (Action.modify change) :=
  fun state => ⟨h state, fun _ h => (by cases h)⟩

theorem local_emit (item : Item) : Local (emit item) := by
  refine fun state => ⟨rfl, fun entry hentry => ?_⟩
  rw [show entry = (state.current, item) from List.mem_singleton.1 hentry]

theorem local_storing (operation : StorageM α) : Local (storing operation) := by
  intro state
  refine ⟨rfl, fun entry hentry => ?_⟩
  have hstraight : entry ∈ straight state.current (Storage.code (operation.run state.storage).output) := by
    rw [← streamed_ofStorage]
    exact hentry
  obtain ⟨i, -, rfl⟩ := List.mem_map.1 hstraight
  rfl

/-! ## Statements -/

theorem thorough_local : Thorough Local where
  pure := .pure
  fail error _ := .fail error
  bind := .bind
  storing := local_storing
  instruct _ := local_emit _
  referent _ := .get fun _ => .ofExcept _
  registerOf _ := .get fun _ => .pure _
  get := .get
  emit := local_emit
  modify hcurrent _ := .modify hcurrent

/-- Statements put out items for the open stream, unless they open or close a function. -/
theorem local_statement {statement : Statement} (hfunction : ∀ name, statement ≠ .function name)
    (hclose : statement ≠ .close) (line : Nat) : Local (Build.statement statement line) := by
  by_cases hdeclare : ∃ name value, statement = .declare name value
  · obtain ⟨name, value, rfl⟩ := hdeclare
    exact thorough_local.declare (fun hcurrent _ => .modify hcurrent) name value line
  · exact thorough_local.statement line (fun name value h => hdeclare ⟨name, value, h⟩) hfunction
      hclose

end ByteBasic.Build
