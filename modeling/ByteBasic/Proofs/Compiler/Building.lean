import ByteBasic.Compiler.Line
import ByteBasic.Proofs.Code.Assembly
import ByteBasic.Proofs.Storage.Serving

/-!
# Steps of compiling

`Build.Yields` is what a step of compiling comes to: everything it puts out is in range, and it
either succeeds with a result, a state and items of which something holds, or refuses the program
for a reason that is the source's fault. It never fails for want of a register, and it never
contradicts itself. The rule for one step after another is `Build.Yields.bind`.

`Build.Gives` says besides that the step succeeds; it composes in the same way.

`BuildState.Ranged` is what holds of every state on the way: every number of a variable, a label or a
function that the state holds is that of one which exists.
-/

namespace ByteBasic

/-! ## Numbers in range -/

/-- The labels that a block owns. -/
def Block.labels (block : Block) : List LabelId :=
  match block.kind with
  | .branch otherwise _ => [otherwise, block.main, block.after]
  | .loop check => [check, block.main, block.after]
  | .function _ => [block.main, block.after]

/-- The labels, the function and the line of an open block exist. -/
structure Block.InRange (block : Block) (state : BuildState) (number : Nat) : Prop where
  labels : ∀ label ∈ block.labels, label < state.labels.size
  function : ∀ id, block.kind = .function id → id < state.functions.length
  line : 1 ≤ block.line ∧ block.line ≤ number

/-- Every number that the state holds at the line with the given number is in range. -/
structure BuildState.Ranged (number : Nat) (state : BuildState) : Prop where
  tidy : state.storage.Tidy
  forward : ∀ id ∈ state.forwardDeclared, id < state.storage.vars.length
  current : ∀ id, state.current = .function id → id < state.functions.length
  mains : ∀ function ∈ state.functions, function.main < state.labels.size
  blocks : ∀ block ∈ state.blocks, block.InRange state number
  declared : state.storage.vars ≠ [] →
    ∃ line, state.lastDeclaration = some line ∧ 1 ≤ line ∧ line ≤ number

/-- What holds of every item put out at the line with the given number. -/
structure Emission.InRange (number : Nat) (emission : Emission) : Prop where
  state : emission.state.Ranged number
  fits : emission.item.Fits
  plain : ∀ i, emission.item = .instruction i → i.Plain
  labels : ∀ label ∈ emission.item.labels, label < emission.state.labels.size
  lines : ∀ line ∈ emission.item.lines, line = number

/-- The source is at fault, and not a lack of registers or the compiler itself. -/
def CompileError.Refused (error : CompileError) : Prop :=
  error.kind = .parse ∨ error.kind = .value ∨ error.kind = .jump ∨ error.kind = .compile

/-- The items among what compiling puts out, each with its stream. -/
def streamed (events : List BuildEvent) : List (Scope × Item) :=
  (events.filterMap BuildEvent.emission?).map fun emission => (emission.stream, emission.item)

@[simp] theorem streamed_nil : streamed [] = [] := rfl

@[simp] theorem streamed_append (xs ys : List BuildEvent) :
    streamed (xs ++ ys) = streamed xs ++ streamed ys := by
  simp [streamed]

/-! ## Outcomes of a step -/

namespace Build

variable {α β : Type}

/-- A step, whether it succeeds or not, adds labels only and puts out what is in range. -/
structure Proper (number : Nat) (before : BuildState)
    (outcome : Outcome CompileError BuildState BuildEvent α) : Prop where
  grows : before.labels.size ≤ outcome.state.labels.size
  emissions : ∀ emission, .code emission ∈ outcome.output →
    emission.InRange number ∧ emission.state.labels.size ≤ outcome.state.labels.size

theorem Proper.silent {number : Nat} {before : BuildState} {result : Except CompileError α}
    {after : BuildState} (h : before.labels.size ≤ after.labels.size) :
    Proper number before ⟨result, after, []⟩ :=
  ⟨h, fun _ hmem => (by cases hmem)⟩

theorem Proper.andThen {number : Nat} {before middle : BuildState} {a : α}
    {output : List BuildEvent} {next : α → Build β}
    (h₁ : Proper number before (⟨.ok a, middle, output⟩ : Outcome CompileError _ _ α))
    (h₂ : Proper number middle ((next a).run middle)) :
    Proper number before (Outcome.andThen ⟨.ok a, middle, output⟩ next) := by
  rw [Outcome.andThen_ok]
  refine ⟨Nat.le_trans h₁.grows h₂.grows, fun emission hmem => ?_⟩
  rcases List.mem_append.1 hmem with hmem | hmem
  · obtain ⟨hrange, hle⟩ := h₁.emissions emission hmem
    exact ⟨hrange, Nat.le_trans hle h₂.grows⟩
  · exact h₂.emissions emission hmem

/-- A step is proper, and ends with `ok` of its result, the state reached and the items put out, or by
refusing the program. -/
def Yields (number : Nat) (action : Build α) (state : BuildState)
    (ok : α → BuildState → List (Scope × Item) → Prop) : Prop :=
  Proper number state (action.run state) ∧
    match (action.run state).result with
    | .ok a => ok a (action.run state).state (streamed (action.run state).output)
    | .error error => error.Refused

variable {number : Nat} {state : BuildState}

theorem Yields.bind {action : Build α} {next : α → Build β}
    {mid : α → BuildState → List (Scope × Item) → Prop}
    {ok : β → BuildState → List (Scope × Item) → Prop}
    (h : Yields number action state mid)
    (hnext : ∀ a s items, mid a s items →
      Yields number (next a) s fun b s' items' => ok b s' (items ++ items')) :
    Yields number (action >>= next) state ok := by
  obtain ⟨hproper, hresult⟩ := h
  unfold Yields
  rw [Action.run_bind]
  rcases hrun : action.run state with ⟨_ | a, s, output⟩
  · rw [hrun] at hproper hresult
    exact ⟨⟨hproper.grows, hproper.emissions⟩, hresult⟩
  · rw [hrun] at hproper hresult
    obtain ⟨hproper', hresult'⟩ := hnext a s _ hresult
    refine ⟨hproper.andThen hproper', ?_⟩
    rw [Outcome.andThen_ok]
    simp only [streamed_append]
    exact hresult'

theorem Yields.imp {action : Build α} {ok ok' : α → BuildState → List (Scope × Item) → Prop}
    (h : Yields number action state ok) (himp : ∀ a s items, ok a s items → ok' a s items) :
    Yields number action state ok' := by
  obtain ⟨hproper, hresult⟩ := h
  refine ⟨hproper, ?_⟩
  generalize (action.run state).result = result at hresult ⊢
  cases result with
  | ok a => exact himp _ _ _ hresult
  | error error => exact hresult

theorem Yields.pure {ok : α → BuildState → List (Scope × Item) → Prop} {a : α}
    (h : ok a state []) : Yields number (Pure.pure a) state ok := by
  unfold Yields
  rw [Action.run_pure]
  exact ⟨.silent (Nat.le_refl _), h⟩

theorem Yields.fail {ok : α → BuildState → List (Scope × Item) → Prop} {error : CompileError}
    (h : error.Refused) : Yields number (Action.fail error) state ok := by
  unfold Yields
  rw [Action.run_fail]
  exact ⟨.silent (Nat.le_refl _), h⟩

theorem Yields.ofExcept {ok : α → BuildState → List (Scope × Item) → Prop}
    {result : Except CompileError α} (herror : ∀ error, result = .error error → error.Refused)
    (hok : ∀ a, result = .ok a → ok a state []) :
    Yields number (Action.ofExcept result) state ok := by
  unfold Yields
  rw [Action.run_ofExcept]
  refine ⟨.silent (Nat.le_refl _), ?_⟩
  cases result with
  | ok a => exact hok a rfl
  | error error => exact herror error rfl

theorem Yields.get {next : BuildState → Build α}
    {ok : α → BuildState → List (Scope × Item) → Prop} (h : Yields number (next state) state ok) :
    Yields number (Action.get >>= next) state ok := by
  unfold Yields at h ⊢
  rw [Action.run_bind, Action.run_get, Outcome.andThen_ok_nil]
  exact h

theorem Yields.modify_last {f : BuildState → BuildState}
    {ok : Unit → BuildState → List (Scope × Item) → Prop}
    (hgrows : state.labels.size ≤ (f state).labels.size) (h : ok () (f state) []) :
    Yields number (Action.modify f) state ok := by
  unfold Yields
  rw [Action.run_modify]
  exact ⟨.silent hgrows, h⟩

theorem Yields.modify {f : BuildState → BuildState} {next : Unit → Build α}
    {ok : α → BuildState → List (Scope × Item) → Prop}
    (hgrows : state.labels.size ≤ (f state).labels.size)
    (h : Yields number (next ()) (f state) ok) :
    Yields number (Action.modify f >>= next) state ok := by
  have hmodify : Yields number (Action.modify f) state fun _ s items => s = f state ∧ items = [] :=
    .modify_last hgrows ⟨rfl, rfl⟩
  refine hmodify.bind fun _ s items hs => ?_
  obtain ⟨rfl, rfl⟩ := hs
  exact h

/-! ### Steps that succeed -/

/-- A step that is not refused. -/
def Gives (number : Nat) (action : Build α) (state : BuildState)
    (ok : α → BuildState → List (Scope × Item) → Prop) : Prop :=
  Yields number action state ok ∧ ∃ a, (action.run state).result = .ok a

theorem Gives.exists_result {action : Build α} {ok : α → BuildState → List (Scope × Item) → Prop}
    (h : Gives number action state ok) : ∃ a, (action.run state).result = .ok a ∧
      ok a (action.run state).state (streamed (action.run state).output) := by
  obtain ⟨⟨-, hresult⟩, a, ha⟩ := h
  rw [ha] at hresult
  exact ⟨a, ha, hresult⟩

theorem Gives.exists_run {action : Build α} {ok : α → BuildState → List (Scope × Item) → Prop}
    (h : Gives number action state ok) : ∃ a after output,
      action.run state = ⟨.ok a, after, output⟩ ∧ ok a after (streamed output) := by
  obtain ⟨a, ha, hok⟩ := h.exists_result
  exact ⟨a, _, _, by rw [← ha], hok⟩

theorem Gives.bind {action : Build α} {next : α → Build β}
    {mid : α → BuildState → List (Scope × Item) → Prop}
    {ok : β → BuildState → List (Scope × Item) → Prop}
    (h : Gives number action state mid)
    (hnext : ∀ a s items, mid a s items →
      Gives number (next a) s fun b s' items' => ok b s' (items ++ items')) :
    Gives number (action >>= next) state ok := by
  refine ⟨h.1.bind fun a s items hmid => (hnext a s items hmid).1, ?_⟩
  obtain ⟨a, s, output, hrun, hmid⟩ := h.exists_run
  obtain ⟨b, hb⟩ := (hnext a s _ hmid).2
  exact ⟨b, by rw [Action.run_bind, hrun, Outcome.andThen_ok, hb]⟩

theorem Gives.imp {action : Build α} {ok ok' : α → BuildState → List (Scope × Item) → Prop}
    (h : Gives number action state ok) (himp : ∀ a s items, ok a s items → ok' a s items) :
    Gives number action state ok' :=
  ⟨h.1.imp himp, h.2⟩

theorem Gives.pure {ok : α → BuildState → List (Scope × Item) → Prop} {a : α}
    (h : ok a state []) : Gives number (Pure.pure a) state ok :=
  ⟨.pure h, a, rfl⟩

/-! ## Putting out items -/

/-- A state that differs only in the storage and the size of the code. -/
def Alike (before after : BuildState) : Prop :=
  after = { before with storage := after.storage, codeSize := after.codeSize }

theorem Alike.refl (state : BuildState) : Alike state state := rfl

theorem Alike.trans {a b c : BuildState} (hab : Alike a b) (hbc : Alike b c) : Alike a c := by
  unfold Alike at *
  rw [hbc, hab]

theorem Alike.current {before after : BuildState} (h : Alike before after) :
    after.current = before.current := by
  rw [h]

theorem Alike.labels {before after : BuildState} (h : Alike before after) :
    after.labels = before.labels := by
  rw [h]

end Build

/-- What is in range stays so when the storage changes for the sake of a statement. -/
theorem BuildState.Ranged.of_alike {number : Nat} {before after : BuildState} (h : before.Ranged number)
    (alike : Build.Alike before after) (tidy : after.storage.Tidy)
    (same : before.storage.SameVars after.storage) : after.Ranged number := by
  unfold Build.Alike at alike
  have hlength := same.length_eq
  generalize after.storage = storage at *
  generalize after.codeSize = size at *
  subst alike
  exact {
    tidy := tidy
    forward := fun id hid => by
      rw [hlength]
      exact h.forward id hid
    current := h.current
    mains := h.mains
    blocks := fun block hblock =>
      ⟨(h.blocks block hblock).labels, (h.blocks block hblock).function,
        (h.blocks block hblock).line⟩
    declared := fun hvars => h.declared fun hnil => hvars <| by
      simpa [hnil] using hlength }

namespace Build

variable {α : Type} {number : Nat} {state : BuildState}

/-- Instructions of one stream. -/
def straight (scope : Scope) (code : List Instruction) : List (Scope × Item) :=
  code.map fun i => (scope, .instruction i)

@[simp] theorem straight_nil (scope : Scope) : straight scope [] = [] := rfl

@[simp] theorem straight_append (scope : Scope) (xs ys : List Instruction) :
    straight scope (xs ++ ys) = straight scope xs ++ straight scope ys :=
  List.map_append

theorem yields_emit (hstate : state.Ranged number) {item : Item} (fits : item.Fits)
    (plain : ∀ i, item = .instruction i → i.Plain)
    (labels : ∀ label ∈ item.labels, label < state.labels.size)
    (lines : ∀ line ∈ item.lines, line = number) :
    Yields number (emit item) state fun _ after items =>
      Alike state after ∧ after.storage = state.storage ∧ items = [(state.current, item)] := by
  refine ⟨⟨Nat.le_refl _, fun emission hmem => ?_⟩, rfl, rfl, rfl⟩
  have hcode : BuildEvent.code emission ∈ [BuildEvent.code ⟨state, item, .statement⟩] := hmem
  obtain rfl : emission = ⟨state, item, .statement⟩ := by simpa using hcode
  exact ⟨⟨hstate, fits, plain, labels, lines⟩, Nat.le_refl _⟩

theorem yields_instruct (hstate : state.Ranged number) {i : Instruction} (fits : i.Fits)
    (plain : i.Plain) :
    Yields number (instruct i) state fun _ after items =>
      Alike state after ∧ after.storage = state.storage ∧ items = straight state.current [i] := by
  refine yields_emit hstate fits (fun j hj => ?_) (fun _ h => ?_) fun _ h => ?_
  · cases hj
    exact plain
  · cases h
  · cases h

theorem gives_instruct (hstate : state.Ranged number) {i : Instruction} (fits : i.Fits)
    (plain : i.Plain) :
    Gives number (instruct i) state fun _ after items =>
      Alike state after ∧ after.storage = state.storage ∧ items = straight state.current [i] :=
  ⟨yields_instruct hstate fits plain, (), rfl⟩

theorem streamed_ofStorage (state : BuildState) (events : List StorageEvent) :
    streamed (events.map (ofStorageEvent state)) =
      straight state.current (Storage.code events) := by
  induction events with
  | nil => rfl
  | cons event events ih =>
    cases event with
    | code i =>
      have hstep : streamed ((StorageEvent.code i :: events).map (ofStorageEvent state)) =
        (state.current, .instruction i) :: streamed (events.map (ofStorageEvent state)) := rfl
      rw [hstep, ih]
      rfl
    | note n => exact ih

/-- What an operation on the storage comes to, as a step of compiling. -/
theorem run_storing {operation : StorageM α} {result : Except StorageError α} {after : Storage}
    {events : List StorageEvent} (h : operation.run state.storage = ⟨result, after, events⟩) :
    (storing operation).run state = ⟨result.mapError .storage,
      { state with storage := after, codeSize := state.codeSize + storageSize events },
      events.map (ofStorageEvent state)⟩ := by
  simp only [storing, Action.run]
  rw [show operation state.storage = ⟨result, after, events⟩ from h]

theorem yields_storing {operation : StorageM α} {a : α} {after : Storage}
    {events : List StorageEvent} (hstate : state.Ranged number)
    (hrun : operation.run state.storage = ⟨.ok a, after, events⟩)
    (fits : ∀ i ∈ Storage.code events, i.Fits ∧ i.Plain) :
    Yields number (storing operation) state fun result s items =>
      result = a ∧ Alike state s ∧ s.storage = after ∧
        items = straight state.current (Storage.code events) := by
  unfold Yields
  rw [run_storing hrun]
  refine ⟨⟨Nat.le_refl _, fun emission hmem => ?_⟩, rfl, rfl, rfl,
    streamed_ofStorage state events⟩
  obtain ⟨event, hevent, heq⟩ := List.mem_map.1 hmem
  cases event with
  | note n => cases heq
  | code i =>
    cases heq
    have hcode : i ∈ Storage.code events := List.mem_filterMap.2 ⟨.code i, hevent, rfl⟩
    refine ⟨⟨hstate, (fits i hcode).1, fun j hj => ?_, fun _ h => ?_, fun _ h => ?_⟩, Nat.le_refl _⟩
    · cases hj
      exact (fits i hcode).2
    · cases h
    · cases h

end Build

end ByteBasic
