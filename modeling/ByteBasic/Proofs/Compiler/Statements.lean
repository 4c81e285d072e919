import ByteBasic.Proofs.Compiler.Calls
import ByteBasic.Proofs.Storage.Ownership

/-!
# Statements

`Build.Compiled` says of each sort of statement what the compiler makes of it: the items that it puts
out, what they do, and what changes in the compiler's state. Where operands are not variables or
numbers it says less about what the items do, but always where they go and what they mention.

**Theorem (`yields_line`).** Every line of a source, compiled in a state that is in range with nothing
pinned, is refused for a fault of its own or compiled in that sense, and leaves a state that is in
range.
-/

namespace ByteBasic

namespace Build

open Storage (Pins Serves Calm Assigns Flushes Declares)

variable {number : Nat} {state before after : BuildState}

theorem yields_storing_error {α : Type} {operation : StorageM α} {error : StorageError}
    (hrun : operation.run state.storage = ⟨.error error, state.storage, []⟩)
    (h : (CompileError.storage error).Refused) :
    Yields number (storing operation) state fun _ _ _ => False := by
  unfold Yields
  rw [run_storing hrun]
  exact ⟨.silent (Nat.le_refl _), h⟩

/-- What a declaration comes to. -/
def Declared (name : String) (value : Option Operand) (state after : BuildState)
    (items : List (Scope × Item)) : Prop :=
  ∃ storage id, Declares name state.current state.storage storage id ∧
    Continues { state with storage := storage } after ∧
    match value with
    | none => items = [] ∧ after.storage = storage
    | some value =>
      Assigned (.variable id) (.set value) state.current storage after.storage items

theorem ranged_extended (hstate : state.Ranged number) (hnumber : 1 ≤ number) (name : String)
    (scope : Scope) (room : state.storage.vars.length < 255) {forward : List VarId}
    (hforward : ∀ id ∈ forward, id < state.storage.vars.length + 1) (codeSize : Nat) :
    BuildState.Ranged number { state with
      storage := state.storage.extended name scope
      codeSize := codeSize
      forwardDeclared := forward
      lastDeclaration := some number } where
  tidy := Storage.tidy_extended hstate.tidy room
  forward := by
    rw [Storage.length_extended]
    exact hforward
  current := hstate.current
  mains := hstate.mains
  blocks block hblock := ⟨(hstate.blocks block hblock).labels, (hstate.blocks block hblock).function,
    (hstate.blocks block hblock).line⟩
  declared _ := ⟨number, rfl, hnumber, Nat.le_refl _⟩

/-- The value of a declaration is assigned once the variable is there. -/
theorem yields_initialize {declared : BuildState} (hranged : declared.Ranged number)
    (unpinned : declared.storage.Unpinned) {name : String} {id : VarId}
    (hdeclares : Declares name state.current state.storage declared.storage id)
    (hin : Referent.InRange declared.storage (.variable id))
    (hcontinues : Continues { state with storage := declared.storage } declared) (value : Operand) :
    Yields number (assign (.variable id) (.set value)) declared fun _ after items =>
      after.Ranged number ∧ Declared name (some value) state after items := by
  refine (yields_assign hranged unpinned hin (.set value)).imp fun _ after items h => ?_
  obtain ⟨hstays, hassigned⟩ := h
  refine ⟨hstays.ranged hranged, declared.storage, id, hdeclares,
    hcontinues.trans hstays.continues, ?_⟩
  have hcurrent : declared.current = state.current := hcontinues.current
  rwa [hcurrent] at hassigned

theorem yields_declare (hstate : state.Ranged number) (unpinned : state.storage.Unpinned)
    (hnumber : 1 ≤ number) (name : String) (value : Option Operand) :
    Yields number (declare name value number) state fun _ after items =>
      after.Ranged number ∧ Declared name value state after items := by
  refine .get ?_
  cases hfind : state.storage.find? name state.current with
  | none =>
    rcases Storage.run_declare hfind with ⟨note, hroom, hrun⟩ | hrun
    · refine (yields_storing hstate hrun fun i hi => (by cases hi)).bind fun id s items h => ?_
      obtain ⟨rfl, halike, hstorage, rfl⟩ := h
      -- A new name: its variable is added before a value is assigned to it.
      have hdeclares : Declares name state.current state.storage
          (state.storage.extended name state.current) state.storage.vars.length :=
        .inr ⟨hfind, rfl, rfl⟩
      unfold Alike at halike
      rw [hstorage] at halike
      generalize s.codeSize = size at halike
      subst halike
      refine .modify (Nat.le_refl _) ?_
      cases value with
      | some value =>
        have hranged := ranged_extended hstate hnumber name state.current hroom
          (fun id hid => Nat.lt_succ_of_lt (hstate.forward id hid)) size
        have hin : Referent.InRange (state.storage.extended name state.current)
            (.variable state.storage.vars.length) :=
          Nat.lt_of_lt_of_eq (Nat.lt_succ_self _) (Storage.length_extended _ _ _).symm
        exact yields_initialize hranged (Storage.unpinned_extended unpinned hstate.tidy.agrees)
          hdeclares hin ⟨.refl _, rfl, rfl, rfl, .refl _⟩ value
      | none =>
        refine .modify_last (Nat.le_refl _) ⟨ranged_extended hstate hnumber name state.current hroom
          (fun id hid => ?_) size, _, _, hdeclares, ⟨.refl _, rfl, rfl, rfl, .refl _⟩, rfl, rfl⟩
        rcases List.mem_cons.1 hid with rfl | hid
        · exact Nat.lt_succ_self _
        · exact Nat.lt_succ_of_lt (hstate.forward id hid)
    · exact (yields_storing_error hrun (.inr (.inr (.inr rfl)))).bind fun _ _ _ h => h.elim
  | some id =>
    cases value with
    | none => exact .fail (.inr (.inr (.inr rfl)))
    | some value =>
      simp only
      split
      · -- The variable has been declared without a value, and gets its first one here.
        refine .modify (Nat.le_refl _) ?_
        have hranged : BuildState.Ranged number
            { state with forwardDeclared := state.forwardDeclared.erase id } :=
          ⟨hstate.tidy, fun j hj => hstate.forward j (List.mem_of_mem_erase hj), hstate.current,
            hstate.mains, fun block hblock => ⟨(hstate.blocks block hblock).labels,
              (hstate.blocks block hblock).function, (hstate.blocks block hblock).line⟩,
            hstate.declared⟩
        exact yields_initialize hranged unpinned (.inl ⟨hfind, rfl⟩) (Referent.lt_of_find? hfind)
          ⟨.refl _, rfl, rfl, rfl, .refl _⟩ value
      · exact .fail (.inr (.inr (.inr rfl)))

/-! ## All statements -/

/-- What the compiler makes of a statement. -/
def Compiled (number : Nat) (state after : BuildState) (items : List (Scope × Item)) :
    Statement → Prop
  | .declare name value => Declared name value state after items
  | .assign dest update => Continues state after ∧
      ∀ target, Referent.ofOperand state.storage state.current (.word dest) = .ok target →
        Assigned target update state.current state.storage after.storage items
  | .ifGoto condition label => Continues state after ∧
      ∃ id code flushed items', after.labels.find? label = some id ∧
        Flushes state.storage code flushed ∧
        Compared condition (.label id) .next number state.current flushed after.storage items' ∧
        items = straight state.current code ++ items'
  | .ifBlock condition => OpensBranch condition number state after items
  | .loop condition => OpensLoop condition number state after items
  | .otherwise => OpensElse number state after items
  | .close => Closes number state after items
  | .function name => Defines name number state after items
  | .ret => Continues state after ∧ ∃ code, Flushes state.storage code after.storage ∧
      items = straight state.current code ++ [(state.current, .ret)]
  | .goto label => Continues state after ∧ ∃ id code, after.labels.find? label = some id ∧
      Flushes state.storage code after.storage ∧
      items = straight state.current code ++ [(state.current, .goto id number)]
  | .label label => Continues state after ∧ ∃ id code, after.labels.find? label = some id ∧
      Flushes state.storage code after.storage ∧
      items = straight state.current code ++ [(state.current, .label id number)]
  | .halt => Continues state after ∧ after.storage = state.storage ∧
      items = [(state.current, .halt)]
  | .exit code => Continues state after ∧ after.storage = state.storage ∧
      items = straight state.current
        [.load 0 code, .move (.general 0) (.special .exitCode)] ++ [(state.current, .halt)]
  | .call name arguments => Continues state after ∧ Called name arguments number state after items

theorem yields_flushEmit (hstate : state.Ranged number) (unpinned : state.storage.Unpinned)
    {item : Item} (fits : item.Fits) (hinstruction : ∀ i, item ≠ .instruction i)
    (labels : item.labels = []) (lines : item.lines = []) :
    Yields number (do flush; emit item) state fun _ after items =>
      Stays state after ∧ ∃ code, Flushes state.storage code after.storage ∧
        items = straight state.current code ++ [(state.current, item)] := by
  refine (yields_flush hstate unpinned).bind fun _ flushed items h => ?_
  obtain ⟨code, rfl, hstays, hflushes⟩ := h
  refine (yields_emitItem (hstays.ranged hstate) fits hinstruction (by simp [labels])
    (by simp [lines])).imp fun _ after items h => ?_
  obtain ⟨hstays', hstorage, rfl⟩ := h
  refine ⟨hstays.trans hstays', code, ?_, ?_⟩
  · rw [hstorage]
    exact hflushes
  · rw [hstays.alike.current]

theorem yields_flushNamed (hstate : state.Ranged number) (unpinned : state.storage.Unpinned)
    (name : String) {next : LabelId → Build Unit}
    (ok : LabelId → BuildState → BuildState → List (Scope × Item) → Prop)
    (hnext : ∀ id named, named.Ranged number → named.storage.Vacant → id < named.labels.size →
      Yields number (next id) named fun _ after items =>
        after.Ranged number ∧ Continues named after ∧ ok id named after items) :
    Yields number (do flush; let id ← namedLabel name; next id) state fun _ after items =>
      after.Ranged number ∧ Continues state after ∧
        ∃ id named code items', after.labels.find? name = some id ∧
          Flushes state.storage code named.storage ∧ named.current = state.current ∧
          ok id named after items' ∧ items = straight state.current code ++ items' := by
  refine (yields_flush hstate unpinned).bind fun _ flushed items h => ?_
  obtain ⟨code, rfl, hstays, hflushes⟩ := h
  refine (yields_namedLabel name).bind fun id named items h => ?_
  obtain ⟨rfl, labels, rfl, hgrows, hlt, hfind⟩ := h
  refine (hnext id _ ((hstays.ranged hstate).grow hgrows) hflushes.vacant hlt).imp
    fun _ after items h => ?_
  obtain ⟨hafter, hcontinues, hok⟩ := h
  have hnamed : Continues flushed { flushed with labels := labels } :=
    ⟨hgrows, rfl, rfl, rfl, .refl _⟩
  exact ⟨hafter, (hstays.continues.trans hnamed).trans hcontinues, id,
    { flushed with labels := labels }, code, items,
    hcontinues.labels.find? hfind, hflushes, hstays.alike.current, hok, by simp⟩

theorem yields_flushNamedEmit (hstate : state.Ranged number) (unpinned : state.storage.Unpinned)
    (name : String) {item : LabelId → Item}
    (hemit : ∀ id named, named.Ranged number → id < named.labels.size →
      Yields number (emit (item id)) named fun _ after items =>
        Stays named after ∧ after.storage = named.storage ∧ items = [(named.current, item id)]) :
    Yields number (do flush; let id ← namedLabel name; emit (item id)) state fun _ after items =>
      after.Ranged number ∧ Continues state after ∧
        ∃ id code, after.labels.find? name = some id ∧
          Flushes state.storage code after.storage ∧
          items = straight state.current code ++ [(state.current, item id)] := by
  refine (yields_flushNamed hstate unpinned name (fun id named after items =>
    after.storage = named.storage ∧ items = [(named.current, item id)])
    fun id named hnamed _ hlt => ?_).imp fun _ after items h => ?_
  · exact (hemit id named hnamed hlt).imp
      fun _ after items h => ⟨h.1.ranged hnamed, h.1.continues, h.2⟩
  · obtain ⟨hafter, hcontinues, id, named, code, items', hfind, hflushes, hcurrent,
      ⟨hstorage, rfl⟩, rfl⟩ := h
    rw [← hstorage] at hflushes
    rw [hcurrent]
    exact ⟨hafter, hcontinues, id, code, hfind, hflushes, rfl⟩

theorem yields_exit (hstate : state.Ranged number) (code : UInt8) :
    Yields number (do
        instruct (.load 0 code)
        instruct (.move (.general 0) (.special .exitCode))
        emit .halt) state fun _ after items =>
      Stays state after ∧ after.storage = state.storage ∧
        items = straight state.current
          [.load 0 code, .move (.general 0) (.special .exitCode)] ++ [(state.current, .halt)] := by
  have hmove : (Instruction.move (.general 0) (.special .exitCode)).Fits ∧
      (Instruction.move (.general 0) (.special .exitCode)).Plain := by decide
  refine (yields_instruct hstate (Storage.fits_load 0 code) trivial).bind fun _ s₁ items₁ h => ?_
  obtain ⟨halike₁, hstorage₁, rfl⟩ := h
  have h₁ := Stays.of_alike hstate halike₁ hstorage₁
  refine (yields_instruct (h₁.ranged hstate) hmove.1 hmove.2).bind fun _ s₂ items₂ h => ?_
  obtain ⟨halike₂, hstorage₂, rfl⟩ := h
  have h₂ := h₁.trans (.of_alike (h₁.ranged hstate) halike₂ hstorage₂)
  refine (yields_emitItem (h₂.ranged hstate) (show Item.halt.Fits from trivial) (fun i => by simp)
    (fun l hl => (by cases hl)) fun l hl => (by cases hl)).imp fun _ after items h => ?_
  obtain ⟨h₃, hstorage₃, rfl⟩ := h
  refine ⟨h₂.trans h₃, (hstorage₃.trans hstorage₂).trans hstorage₁, ?_⟩
  rw [h₂.alike.current, h₁.alike.current]
  rfl

/-- Every statement is refused for a fault of its own or compiled. -/
theorem yields_statement (hstate : state.Ranged number) (unpinned : state.storage.Unpinned)
    (hnumber : 1 ≤ number) (statement : Statement) :
    Yields number (Build.statement statement number) state fun _ after items =>
      after.Ranged number ∧ Compiled number state after items statement := by
  cases statement with
  | declare name value => exact yields_declare hstate unpinned hnumber name value
  | assign dest update =>
    refine (yields_referent (.word dest)).bind fun referent _ _ h => ?_
    obtain ⟨rfl, rfl, hin, hof⟩ := h
    refine (yields_assign hstate unpinned hin update).imp fun _ after items h => ?_
    obtain ⟨hstays, hassigned⟩ := h
    refine ⟨hstays.ranged hstate, hstays.continues, fun target htarget => ?_⟩
    -- The destination was looked up before, so what is assigned to is what the line names.
    rw [hof] at htarget
    cases htarget
    exact hassigned
  | ifGoto condition label =>
    refine (yields_flushNamed hstate unpinned label (fun id named after items => Compared condition
      (.label id) .next number named.current named.storage after.storage items)
      fun id named hnamed hvacant hlt => ?_).imp fun _ after items h => ?_
    · refine (yields_compare hnamed hvacant condition fun l hl => ?_).imp
        fun _ after items h => ⟨h.1.ranged hnamed, h.1.continues, h.2⟩
      simp only [Target.labels, List.append_nil, List.mem_singleton] at hl
      rw [hl]
      exact hlt
    · obtain ⟨hafter, hcontinues, id, named, code, items', hfind, hflushes, hcurrent, hcompared,
        rfl⟩ := h
      rw [hcurrent] at hcompared
      exact ⟨hafter, hcontinues, id, code, named.storage, items', hfind, hflushes, hcompared, rfl⟩
  | ifBlock condition => exact yields_openBranch hstate unpinned hnumber condition
  | loop condition => exact yields_openLoop hstate unpinned hnumber condition
  | otherwise => exact yields_openElse hstate unpinned
  | close => exact yields_closeBlock hstate unpinned
  | function name => exact yields_defineFunction hstate unpinned hnumber name
  | ret =>
    refine .get ?_
    split
    · exact .fail (.inr (.inr (.inr rfl)))
    · exact (yields_flushEmit hstate unpinned (show Item.ret.Fits from trivial) (fun i => by simp)
        rfl rfl).imp fun _ _ _ h => ⟨h.1.ranged hstate, h.1.continues, h.2⟩
  | goto label =>
    exact yields_flushNamedEmit hstate unpinned label fun _ _ hnamed hlt => yields_emitGoto hnamed hlt
  | label label =>
    exact yields_flushNamedEmit hstate unpinned label
      fun _ _ hnamed hlt => yields_emitLabel hnamed hlt
  | halt =>
    exact (yields_emitItem hstate (show Item.halt.Fits from trivial) (fun i => by simp)
      (fun l hl => (by cases hl)) fun l hl => (by cases hl)).imp
        fun _ _ _ h => ⟨h.1.ranged hstate, h.1.continues, h.2⟩
  | exit code =>
    exact (yields_exit hstate code).imp fun _ _ _ h => ⟨h.1.ranged hstate, h.1.continues, h.2⟩
  | call name arguments =>
    exact (yields_call hstate unpinned name arguments).imp
      fun _ _ _ h => ⟨h.1.ranged hstate, h.1.continues, h.2⟩

/-- A line that is no statement is the source's fault. -/
theorem refused_malformed (error : Source.SyntaxError) :
    (CompileError.malformed error).Refused := by
  cases error with
  | unknownEscape _ | missingEscape | wideCharacter _ | exitNotNumber | exitTooLarge _ =>
    exact .inr (.inl rfl)
  | assignmentInCondition => exact .inr (.inr (.inr rfl))
  | _ => exact .inl rfl

/-- Every line is refused for a fault of its own or compiled. -/
theorem yields_line (hstate : state.Ranged number) (unpinned : state.storage.Unpinned)
    (hnumber : 1 ≤ number) (text : String) :
    Yields number (line text number) state fun _ after items =>
      after.Ranged number ∧ ∃ parsed, Statement.parse text.toList = .ok parsed ∧
        match parsed with
        | none => after = state ∧ items = []
        | some statement => Compiled number state after items statement := by
  unfold line
  split
  · exact .fail (refused_malformed _)
  · next hparse => exact .pure ⟨hstate, none, hparse, rfl, rfl⟩
  · next statement hparse =>
    exact (yields_statement hstate unpinned hnumber statement).imp
      fun _ _ _ h => ⟨h.1, some statement, hparse, h.2⟩

end Build

end ByteBasic
