import Mathlib.Control.Monad.Basic
import ByteBasic.Proofs.Compiler.Isolation
import ByteBasic.Proofs.Program.Outlining

/-!
# What is declared once, and what twice

A name can be declared in a scope with a value or without one, and in the latter case once more to
give it a value. The compiler keeps a list of the variables that still await one: a declaration
without a value enters its variable there, a second declaration strikes it out, and no other line
touches the list (`Build.keepsForward_line`). So the list says how far each name has come
(`Session.Reached.registered`).

**Theorem (`names_are_declared_in_turn`).** A source is compiled only if its declarations of each name
in each scope are one of those three sequences, and a declaration that goes beyond them is refused on
its line. Every name that is declared in a scope has one variable there, whose slot never changes, and
a word means that variable exactly where it should.
-/

namespace ByteBasic

open Source (Outline scopeAt sayings)

/-! ## Declarations of a name -/

/-- The declaration of a name that a statement is: its value, if it has one. -/
def Statement.declaration? (name : String) : Statement → Option (Option Operand)
  | .declare other value => if other = name then some value else none
  | _ => none

namespace Source

/-- The declarations of a name in a scope by the first lines, in order. -/
def declarations (lines : List String) (count : Nat) (scope : Scope) (name : String) :
    List (Option Operand) :=
  (List.range count).filterMap fun index =>
    if scopeAt lines index = scope then
      ((sayings lines)[index]?).join.bind (Statement.declaration? name)
    else none

/-- How a name can be declared in a scope: without a value, with one, or first without and then
with one. -/
inductive InTurn : List (Option Operand) → Prop
  | bare : InTurn [none]
  | given (value : Operand) : InTurn [some value]
  | both (value : Operand) : InTurn [none, some value]

theorem declarations_succ (lines : List String) (count : Nat) (scope : Scope) (name : String) :
    declarations lines (count + 1) scope name = declarations lines count scope name ++
      (if scopeAt lines count = scope then
        ((sayings lines)[count]?).join.bind (Statement.declaration? name) else none).toList := by
  unfold declarations
  rw [List.range_succ, List.filterMap_append]
  rfl

end Source

open Source (declarations InTurn)

/-- How far a name has come in a scope: the declarations of the name there, the variable found for it
and whether the variable awaits a value. -/
inductive Standing (forward : List VarId) : List (Option Operand) → Option VarId → Prop
  | undeclared : Standing forward [] none
  | awaiting {id : VarId} (listed : id ∈ forward) : Standing forward [none] (some id)
  | given {id : VarId} {value : Operand} (struck : id ∉ forward) :
      Standing forward [some value] (some id)
  | completed {id : VarId} {value : Operand} (struck : id ∉ forward) :
      Standing forward [none, some value] (some id)

namespace Standing

variable {forward after : List VarId} {declared : List (Option Operand)} {found : Option VarId}

theorem mono (h : Standing forward declared found)
    (hafter : ∀ id, found = some id → (id ∈ after ↔ id ∈ forward)) :
    Standing after declared found := by
  cases h with
  | undeclared => exact .undeclared
  | awaiting listed => exact .awaiting ((hafter _ rfl).2 listed)
  | given struck => exact .given (mt (hafter _ rfl).1 struck)
  | completed struck => exact .completed (mt (hafter _ rfl).1 struck)

theorem inTurn (h : Standing forward declared found) : declared = [] ∨ InTurn declared := by
  cases h with
  | undeclared => exact .inl rfl
  | awaiting _ => exact .inr .bare
  | given _ => exact .inr (.given _)
  | completed _ => exact .inr (.both _)

theorem eq_nil_iff (h : Standing forward declared found) : declared = [] ↔ found = none := by
  cases h <;> simp

/-- A declaration that goes beyond the sequences finds a variable, and has no value to give or comes
too late. -/
theorem of_not_inTurn (h : Standing forward declared found) {value : Option Operand}
    (hvalue : ¬ InTurn (declared ++ [value])) :
    ∃ id, found = some id ∧ (value = none ∨ id ∉ forward) := by
  cases h with
  | undeclared =>
    cases value with
    | none => exact absurd .bare hvalue
    | some value => exact absurd (.given value) hvalue
  | @awaiting id listed =>
    cases value with
    | none => exact ⟨id, rfl, .inl rfl⟩
    | some value => exact absurd (.both value) hvalue
  | @given id _ struck => exact ⟨id, rfl, .inr struck⟩
  | @completed id _ struck => exact ⟨id, rfl, .inr struck⟩

end Standing

/-! ## The variables that await a value -/

namespace Build

variable {α β : Type} {state : BuildState} {name : String} {id : VarId}

/-- A step that leaves the list of variables that await a value. -/
def KeepsForward (action : Build α) : Prop :=
  ∀ state, (action.run state).state.forwardDeclared = state.forwardDeclared

theorem KeepsForward.bind {action : Build α} {next : α → Build β} (h : KeepsForward action)
    (hnext : ∀ a, KeepsForward (next a)) : KeepsForward (action >>= next) := by
  intro state
  rw [Action.run_bind, ← h state]
  rcases action.run state with ⟨_ | a, middle, output⟩
  · rfl
  · exact hnext a middle

theorem thorough_keepsForward : Thorough KeepsForward where
  pure _ _ := rfl
  fail _ _ _ := rfl
  bind := .bind
  storing _ _ := rfl
  instruct _ _ := rfl
  referent _ _ := rfl
  registerOf _ _ := rfl
  get hnext state := hnext state state
  emit _ _ := rfl
  modify _ hforward := hforward

/-- Only declarations touch the list. -/
theorem keepsForward_statement {statement : Statement}
    (hdeclare : ∀ name value, statement ≠ .declare name value) (line : Nat) :
    KeepsForward (Build.statement statement line) := by
  cases statement with
  | declare name value => exact absurd rfl (hdeclare name value)
  | close => exact thorough_keepsForward.closeBlock id line
  | function name => exact thorough_keepsForward.defineFunction id name line
  | _ => exact thorough_keepsForward.statement line (by simp) (by simp) (by simp)

theorem keepsForward_line {text : String} {said : Option Statement}
    (hparse : Statement.parse text.toList = .ok said)
    (hsaid : ∀ name value, said ≠ some (.declare name value)) (number : Nat) :
    KeepsForward (line text number) := by
  unfold line
  rw [hparse]
  cases said with
  | none => exact thorough_keepsForward.pure ()
  | some statement =>
    exact keepsForward_statement (fun name value heq => hsaid name value (congrArg some heq)) number

/-- What the first declaration of a name adds to the list. -/
def newlyForward (id : VarId) : Option Operand → List VarId
  | none => [id]
  | some _ => []

/-- A first declaration without a value enters its variable. -/
theorem forward_declare_new (hfind : state.storage.find? name state.current = none)
    (value : Option Operand) (line : Nat)
    (hok : ((declare name value line).run state).result = .ok ()) :
    ((declare name value line).run state).state.forwardDeclared =
      newlyForward state.storage.vars.length value ++ state.forwardDeclared := by
  unfold declare at hok ⊢
  rw [Action.run_bind, Action.run_get, Outcome.andThen_ok_nil] at hok ⊢
  simp only [hfind] at hok ⊢
  rw [Action.run_bind] at hok ⊢
  rcases @Storage.run_declare _ _ _ state.codeSize hfind with ⟨note, -, hrun⟩ | hrun
  · rw [run_storing hrun]
    cases value with
    | none => rfl
    | some value => exact thorough_keepsForward.assign _ _ _
  · rw [run_storing hrun] at hok
    cases hok

/-- A second declaration strikes out the variable that it gives a value. -/
theorem forward_declare_again (hfind : state.storage.find? name state.current = some id)
    (hlisted : id ∈ state.forwardDeclared) (value : Operand) (line : Nat) :
    ((declare name (some value) line).run state).state.forwardDeclared =
      state.forwardDeclared.erase id := by
  unfold declare
  rw [Action.run_bind, Action.run_get, Outcome.andThen_ok_nil]
  simp only [hfind, if_pos hlisted]
  exact thorough_keepsForward.assign _ _ _

/-- A second declaration without a value is refused, and so is one of a variable that awaits none. -/
theorem refused_declare (hfind : state.storage.find? name state.current = some id)
    {value : Option Operand} (hvalue : value = none ∨ id ∉ state.forwardDeclared) (line : Nat) :
    (declare name value line).run state = ⟨.error (.storage (.duplicate name)), state, []⟩ := by
  unfold declare
  rw [Action.run_bind, Action.run_get, Outcome.andThen_ok_nil]
  cases value with
  | none =>
    simp only [hfind]
    rfl
  | some value =>
    have hstruck : id ∉ state.forwardDeclared := hvalue.resolve_left fun hno => by cases hno
    simp only [hfind, if_neg hstruck]
    rfl

end Build

/-! ## Names found at a line -/

namespace Source.Outline

variable {outline : Outline} {name other : String} {place : Scope} {id : VarId}

theorem find?_of_names {after : Outline} (h : after.names = outline.names) (name : String)
    (place : Scope) : after.find? name place = outline.find? name place := by
  unfold find?
  rw [h]

theorem names_advance {said : Option Statement}
    (hsaid : ∀ name value, said ≠ some (.declare name value)) (outline : Outline) (line : Nat) :
    (outline.advance line said).names = outline.names := by
  unfold advance
  split
  · next name value => exact absurd rfl (hsaid name value)
  · rfl
  · rfl
  · rfl
  · unfold pop
    split <;> rfl
  · rfl

theorem find?_inj {scope : Scope} (h : outline.find? name place = some id)
    (h' : outline.find? other scope = some id) : (name, place) = (other, scope) := by
  obtain ⟨hid, hfirst, -⟩ := List.findIdx?_eq_some_iff_getElem.1 h
  obtain ⟨_, hsecond, -⟩ := List.findIdx?_eq_some_iff_getElem.1 h'
  simp only [Bool.and_eq_true, beq_iff_eq] at hfirst hsecond
  exact Prod.ext (hfirst.2.symm.trans hsecond.2) (hfirst.1.symm.trans hsecond.1)

theorem lt_of_find? (h : outline.find? name place = some id) : id < outline.names.length :=
  (List.findIdx?_eq_some_iff_getElem.1 h).1

theorem declare_of_some (h : outline.find? name outline.scope = some id) :
    outline.declare name = outline := by
  simp only [declare, h]

theorem length_declare_new (h : outline.find? name outline.scope = none) :
    (outline.declare name).names.length = outline.names.length + 1 := by
  simp only [declare, h, List.length_append, List.length_singleton]

theorem find?_declare_new (h : outline.find? name outline.scope = none) (other : String)
    (place : Scope) : (outline.declare name).find? other place =
      if (other, place) = (name, outline.scope) then some outline.names.length
      else outline.find? other place := by
  have hnames : (outline.declare name).names = outline.names ++ [(name, outline.scope)] := by
    simp only [declare, h]
  unfold find? at h ⊢
  rw [hnames, List.findIdx?_append]
  split
  · next heq =>
    cases heq
    rw [h]
    simp
  · next hne =>
    have hnone : (outline.scope == place && name == other) = false := by
      refine Bool.eq_false_iff.2 fun hboth => hne ?_
      simp only [Bool.and_eq_true, beq_iff_eq] at hboth
      exact Prod.ext hboth.2.symm hboth.1.symm
    simp [List.findIdx?_cons, hnone]

end Source.Outline

theorem Storage.Extends.find? {before after : Storage} {name : String} {scope : Scope} {id : VarId}
    (h : before.Extends after) (hfind : before.find? name scope = some id) :
    after.find? name scope = some id := by
  have hidentity : ∀ storage : Storage, storage.find? name scope =
      (storage.vars.map Variable.identity).findIdx? fun entry =>
        entry.2.1 == scope && entry.1 == name := by
    intro storage
    rw [List.findIdx?_map]
    rfl
  rw [hidentity] at hfind ⊢
  exact h.vars.findIdx?_eq_some hfind

theorem Storage.name_of_find? {storage : Storage} {name : String} {scope : Scope} {id : VarId}
    (h : storage.find? name scope = some id) : (storage.get id).name = name := by
  obtain ⟨hlt, hfound, -⟩ := List.findIdx?_eq_some_iff_getElem.1 h
  rw [Storage.get_eq_getElem hlt]
  simp only [Bool.and_eq_true, beq_iff_eq] at hfound
  exact hfound.2

/-! ## Line after line -/

/-- What is known of all names at a line from the list of variables that await a value. -/
structure Registered (lines : List String) (count : Nat) (forward : List VarId) : Prop where
  standing : ∀ scope name, Standing forward (declarations lines count scope name)
    (((sayings lines).outline count).find? name scope)
  nodup : forward.Nodup
  known : ∀ id ∈ forward, id < ((sayings lines).outline count).names.length

namespace Registered

variable {lines : List String} {count : Nat} {forward : List VarId} {name : String} {id : VarId}
  {value : Option Operand}

theorem new (lines : List String) : Registered lines 0 [] where
  standing _ _ := .undeclared
  nodup := .nil
  known _ hno := by cases hno

theorem outline_succ (lines : List String) (count : Nat) : (sayings lines).outline (count + 1) =
    ((sayings lines).outline count).advance count ((sayings lines)[count]?).join := rfl

/-- A line that declares nothing. -/
theorem other (h : Registered lines count forward)
    (hsaid : ∀ name value, ((sayings lines)[count]?).join ≠ some (.declare name value)) :
    Registered lines (count + 1) forward := by
  have hnames : ((sayings lines).outline (count + 1)).names =
      ((sayings lines).outline count).names :=
    Outline.names_advance hsaid _ count
  have hnone : ∀ name, ((sayings lines)[count]?).join.bind (Statement.declaration? name) = none := by
    intro name
    cases hstatement : ((sayings lines)[count]?).join with
    | none => rfl
    | some statement =>
      cases statement with
      | declare other value => exact absurd hstatement (hsaid other value)
      | _ => rfl
  refine ⟨fun scope name => ?_, h.nodup, ?_⟩
  · rw [Outline.find?_of_names hnames, Source.declarations_succ, hnone, ite_self, Option.toList_none,
      List.append_nil]
    exact h.standing scope name
  · rw [hnames]
    exact h.known

/-- What a line declares, it declares in its scope. -/
theorem declarations_declare (hsaid : ((sayings lines)[count]?).join = some (.declare name value))
    (scope : Scope) (other : String) : declarations lines (count + 1) scope other =
      declarations lines count scope other ++
        if (other, scope) = (name, scopeAt lines count) then [value] else [] := by
  rw [Source.declarations_succ, hsaid]
  congr 1
  by_cases hscope : scopeAt lines count = scope
  · subst hscope
    by_cases hname : name = other <;> simp [hname, Statement.declaration?, eq_comm]
  · simp [hscope, Ne.symm hscope]

/-- The first declaration of a name. -/
theorem first (h : Registered lines count forward)
    (hsaid : ((sayings lines)[count]?).join = some (.declare name value))
    (hfind : ((sayings lines).outline count).find? name (scopeAt lines count) = none) :
    Registered lines (count + 1)
      (Build.newlyForward ((sayings lines).outline count).names.length value ++ forward) := by
  have houtline : (sayings lines).outline (count + 1) =
      ((sayings lines).outline count).declare name := by
    rw [outline_succ, hsaid]
    rfl
  have hfresh : ((sayings lines).outline count).names.length ∉ forward := fun hno =>
    Nat.lt_irrefl _ (h.known _ hno)
  refine ⟨fun scope other => ?_, ?_, ?_⟩
  · rw [declarations_declare hsaid, houtline, Outline.find?_declare_new hfind,
      show ((sayings lines).outline count).scope = scopeAt lines count from rfl]
    by_cases heq : (other, scope) = (name, scopeAt lines count)
    · cases heq
      rw [if_pos rfl, if_pos rfl, (h.standing _ name).eq_nil_iff.2 hfind]
      cases value with
      | none => exact .awaiting (List.mem_cons_self ..)
      | some value => exact .given hfresh
    · -- The new variable has none of the numbers that are known.
      rw [if_neg heq, if_neg heq, List.append_nil]
      refine (h.standing scope other).mono fun id hid => ?_
      have hne := Nat.ne_of_lt (Outline.lt_of_find? hid)
      cases value <;> simp [Build.newlyForward, hne]
  · -- The new variable's number is larger than all that are listed.
    cases value with
    | none => exact List.nodup_cons.2 ⟨hfresh, h.nodup⟩
    | some value => exact h.nodup
  · have hlength : ((sayings lines).outline (count + 1)).names.length =
        ((sayings lines).outline count).names.length + 1 := by
      rw [houtline, Outline.length_declare_new hfind]
    rw [hlength]
    intro id hid
    rcases List.mem_append.1 hid with hid | hid
    · cases value with
      | none =>
        rw [List.mem_singleton.1 hid]
        exact Nat.lt_succ_self _
      | some value => cases hid
    · exact Nat.lt_succ_of_lt (h.known id hid)

/-- The declaration that gives a variable the value that it awaits. -/
theorem second (h : Registered lines count forward) {operand : Operand}
    (hsaid : ((sayings lines)[count]?).join = some (.declare name (some operand)))
    (hfind : ((sayings lines).outline count).find? name (scopeAt lines count) = some id)
    (hlisted : id ∈ forward) : Registered lines (count + 1) (forward.erase id) := by
  have houtline : (sayings lines).outline (count + 1) = (sayings lines).outline count := by
    rw [outline_succ, hsaid]
    exact Outline.declare_of_some hfind
  refine ⟨fun scope other => ?_, h.nodup.erase id, ?_⟩
  · rw [declarations_declare hsaid, houtline]
    by_cases heq : (other, scope) = (name, scopeAt lines count)
    · cases heq
      have hstanding := h.standing (scopeAt lines count) name
      rw [hfind] at hstanding ⊢
      generalize declarations lines count (scopeAt lines count) name = declared at hstanding ⊢
      rw [if_pos rfl]
      cases hstanding with
      | awaiting _ => exact .completed h.nodup.not_mem_erase
      | given struck => exact absurd hlisted struck
      | completed struck => exact absurd hlisted struck
    · rw [if_neg heq, List.append_nil]
      refine (h.standing scope other).mono fun found hfound => List.mem_erase_of_ne ?_
      refine fun hsame => heq ?_
      rw [hsame] at hfound
      exact Outline.find?_inj hfound hfind
  · rw [houtline]
    exact fun other hother => h.known other (List.mem_of_mem_erase hother)

end Registered

namespace Session

variable {lines : List String} {count : Nat} {session : Session} {name : String} {scope : Scope}
  {id : VarId}

/-- The compiler finds in the open scope what is declared there. -/
theorem Reached.find?_scopeAt (h : Reached lines count session) (name : String) :
    ((sayings lines).outline count).find? name (scopeAt lines count) =
      session.state.storage.find? name session.state.current := by
  rw [h.tracks.find?, show scopeAt lines count = session.state.current from h.tracks.scope]

theorem Reached.registered_declare (h : Reached lines count session)
    (hregistered : Registered lines count session.state.forwardDeclared) {value : Option Operand}
    (hsaid : ((sayings lines)[count]?).join = some (.declare name value)) (number : Nat)
    (hok : ((Build.declare name value number).run session.state).result = .ok ()) :
    Registered lines (count + 1)
      ((Build.declare name value number).run session.state).state.forwardDeclared := by
  have hknown := h.find?_scopeAt name
  cases hfind : session.state.storage.find? name session.state.current with
  | none =>
    have hlength : ((sayings lines).outline count).names.length =
        session.state.storage.vars.length := by
      rw [h.tracks.names, List.length_map]
    rw [Build.forward_declare_new hfind value number hok, ← hlength]
    exact hregistered.first hsaid (hknown.trans hfind)
  | some id =>
    by_cases hvalue : value = none ∨ id ∉ session.state.forwardDeclared
    · rw [Build.refused_declare hfind hvalue] at hok
      cases hok
    · obtain ⟨hsome, hlisted⟩ := not_or.1 hvalue
      obtain ⟨operand, rfl⟩ := Option.ne_none_iff_exists'.1 hsome
      rw [Build.forward_declare_again hfind (not_not.1 hlisted)]
      exact hregistered.second hsaid (hknown.trans hfind) (not_not.1 hlisted)

/-- The compiler knows how far each name has come. -/
theorem Reached.registered (h : Reached lines count session) :
    Registered lines count session.state.forwardDeclared := by
  induction h with
  | new => exact .new lines
  | @line count before after text hbefore htext hline ih =>
    obtain ⟨hresult, hstate, -⟩ := run_of_line hline
    obtain ⟨said, hparse, -⟩ := hbefore.steered hline
    have hsaid := Source.join_sayings htext hparse
    obtain ⟨storage, -, hend⟩ := after.endStatement_eq
    rw [hend]
    simp only [← hstate]
    by_cases hdeclare : ∃ name value, said = some (.declare name value)
    · obtain ⟨name, value, rfl⟩ := hdeclare
      have hrun : Build.line text (count + 1) = Build.declare name value (count + 1) := by
        simp only [Build.line, hparse]
        rfl
      rw [hrun] at hresult ⊢
      exact hbefore.registered_declare ih hsaid _ hresult
    · rw [Build.keepsForward_line hparse (fun name value heq => hdeclare ⟨name, value, heq⟩)]
      refine ih.other fun name value heq => hdeclare ⟨name, value, ?_⟩
      rw [← hsaid, heq]

/-- A declaration that goes beyond what is allowed is refused. -/
theorem Reached.refused_declare (h : Reached lines count session) {text : String}
    {value : Option Operand}
    (hparse : Statement.parse text.toList = .ok (some (.declare name value)))
    (hvalue : ¬ InTurn (declarations lines count (scopeAt lines count) name ++ [value])) :
    ∃ after, session.line text (count + 1) = (.error (.storage (.duplicate name)), after) := by
  obtain ⟨id, hknown, hbeyond⟩ :=
    (h.registered.standing (scopeAt lines count) name).of_not_inTurn hvalue
  rw [h.find?_scopeAt] at hknown
  have hrun : (Build.line text (count + 1)).run session.state =
      ⟨.error (.storage (.duplicate name)), session.state, []⟩ := by
    rw [← Build.refused_declare hknown hbeyond (count + 1)]
    simp only [Build.line, hparse]
    rfl
  exact ⟨_, by rw [Session.line, hrun]⟩

/-- A source is refused on the first line that is. -/
theorem Reached.compile_eq {source text : String} {error : CompileError} {after : Session}
    (h : Reached (Text.lines source) count session) (htext : (Text.lines source)[count]? = some text)
    (hline : session.line text (count + 1) = (.error error, after))
    (hkind : Cause.kind error ≠ .internal) :
    compile source = .error ⟨error, some ⟨count + 1, text⟩⟩ := by
  have htake := linesFrom_succ h.linesFrom_eq.2 htext
  rw [linesFrom_cons_error hline] at htake
  have hall := linesFrom_append_error ((Text.lines source).drop (count + 1)) htake
  rw [List.take_append_drop] at hall
  have hsource : sourceLine (Text.lines source) (count + 1) = ⟨count + 1, text⟩ := by
    simp [sourceLine, htext]
  rw [compile_eq_error hall, blame, Report.orLine_ofCause hkind, hsource]

/-! ## One variable for each name -/

/-- Two sessions that were reached behind the same lines are the same. -/
theorem Reached.eq {other : Session} (h : Reached lines count session)
    (hother : Reached lines count other) : session = other := by
  have hsame := h.linesFrom_eq.2
  rw [hother.linesFrom_eq.2] at hsame
  exact ((Prod.mk.inj hsame).2).symm

/-- The variables at a line are still there at every later one. -/
theorem Reached.extends {later : Nat} {last : Session} (hlast : Reached lines later last)
    (h : Reached lines count session) (hle : count ≤ later) :
    session.state.storage.Extends last.state.storage := by
  induction hlast with
  | new =>
    obtain rfl := Nat.le_zero.1 hle
    rw [h.eq .new]
    exact .refl _
  | @line later before after text hbefore htext hline ih =>
    rcases Nat.le_succ_iff.1 hle with hlt | rfl
    · have hextends := hbefore.extends_line text
      rw [hline] at hextends
      exact (ih hlt).trans (hextends.trans (hbefore.extends_endStatement hline))
    · rw [h.eq (.line hbefore htext hline)]
      exact .refl _

/-- A word means a variable where the variable's name is not hidden by a local one. -/
theorem Reached.ofWord_iff (h : Reached lines count session)
    (hfind : session.state.storage.find? name scope = some id) (place : Scope) (word : String) :
    Referent.ofWord session.state.storage place word = .ok (.variable id) ↔
      word = name ∧ (place = scope ∨
        scope = .global ∧ declarations lines count place word = []) := by
  have hundeclared : declarations lines count place word = [] ↔
      session.state.storage.find? word place = none := by
    rw [← h.tracks.find?]
    exact (h.registered.standing place word).eq_nil_iff
  -- A variable has one name and one scope, so only these lead to it.
  have hinj : ∀ {word place}, session.state.storage.find? word place = some id →
      (word, place) = (name, scope) := by
    intro word place hword
    rw [← h.tracks.find?] at hword hfind
    exact Outline.find?_inj hword hfind
  rw [hundeclared]
  unfold Referent.ofWord Storage.lookup?
  constructor
  · intro hword
    cases hlocal : session.state.storage.find? word place with
    | some found =>
      rw [hlocal] at hword
      cases hword
      cases hinj hlocal
      exact ⟨rfl, .inl rfl⟩
    | none =>
      simp only [hlocal] at hword
      cases hglobal : session.state.storage.find? word .global with
      | some found =>
        rw [hglobal] at hword
        cases hword
        cases hinj hglobal
        exact ⟨rfl, .inr ⟨rfl, rfl⟩⟩
      | none =>
        rw [hglobal] at hword
        -- A word that no variable goes by spells none either.
        exact absurd hword Referent.not_variable_ofSpelling
  · rintro ⟨rfl, rfl | ⟨rfl, hnone⟩⟩
    · simp only [hfind]
    · simp only [hnone, hfind]

/-- A name that is declared in a scope has one variable there. -/
theorem Reached.unique_variable (h : Reached lines count session)
    (hfind : session.state.storage.find? name scope = some id) :
    ∀ other < session.state.storage.vars.length,
      (session.state.storage.get other).name = name ∧
        (session.state.storage.get other).scope = scope ↔ other = id := by
  have hname := Storage.name_of_find? hfind
  have hscope := Storage.scope_of_find? hfind
  intro other hother
  constructor
  · rintro ⟨hname', hscope'⟩
    exact h.housed.orderly.name_inj hother (Referent.lt_of_find? hfind) (hname'.trans hname.symm)
      (hscope'.trans hscope.symm)
  · rintro rfl
    exact ⟨hname, hscope⟩

end Session

/-- **Names are declared in turn.** In a source that is compiled, each name is declared in a scope
without a value, with one, or first without and then with one, if it is declared there at all. A
declaration that goes beyond that is refused on its line when the lines above are compiled. Each name
that is declared in a scope has one variable there, which has one slot from its first declaration on,
and from then on a word means this variable exactly if it is the name and used in the scope, or
elsewhere if the scope is the global one and the name is not declared in the other. -/
theorem names_are_declared_in_turn (source : String) :
    let lines := Text.lines source
    (∀ image, compile source = .ok image → ∀ scope name,
      declarations lines lines.length scope name = [] ∨
        InTurn (declarations lines lines.length scope name)) ∧
    (∀ index text before name value, lines[index]? = some text →
      Session.linesFrom lines (lines.take index) 1 .new = (.ok (), before) →
      Statement.parse text.toList = .ok (some (.declare name value)) →
      ¬ InTurn (declarations lines index (scopeAt lines index) name ++ [value]) →
      ∃ report, compile source = .error report ∧ report.kind = .compile ∧
        report.cause = .storage (.duplicate name) ∧ report.line = some ⟨index + 1, text⟩) ∧
    ∀ image, compile source = .ok image →
      ∃ last, Session.linesFrom lines lines 1 .new = (.ok (), last) ∧
        ∀ scope name, declarations lines lines.length scope name ≠ [] →
          ∃ id < last.state.storage.vars.length,
            (∀ other < last.state.storage.vars.length,
              (last.state.storage.get other).name = name ∧
                (last.state.storage.get other).scope = scope ↔ other = id) ∧
            ∀ count session, Session.linesFrom lines (lines.take count) 1 .new = (.ok (), session) →
              count ≤ lines.length → declarations lines count scope name ≠ [] →
              (session.state.storage.get id).address = (last.state.storage.get id).address ∧
                ∀ place word, Referent.ofWord session.state.storage place word =
                    .ok (.variable id) ↔
                  word = name ∧ (place = scope ∨
                    scope = .global ∧ declarations lines count place word = []) := by
  intro lines
  refine ⟨fun image himage scope name => ?_, ?_, fun image himage => ?_⟩
  · obtain ⟨session, hall, -⟩ := compile_eq_ok himage
    exact ((Session.reached_all hall).registered.standing scope name).inTurn
  · intro index text before name value htext hbefore hparse hvalue
    have hindex : index ≤ lines.length := Nat.le_of_lt (List.getElem?_eq_some_iff.1 htext).1
    have hreached := Session.reached_of_linesFrom hindex hbefore
    obtain ⟨after, hline⟩ := hreached.refused_declare hparse hvalue
    exact ⟨_, hreached.compile_eq htext hline (fun hno => by cases hno), rfl, rfl, rfl⟩
  · obtain ⟨last, hall, -⟩ := compile_eq_ok himage
    have hlast := Session.reached_all hall
    -- A name that lines declare is found in the scope where they declare it.
    have hfound : ∀ {count session scope name}, Session.Reached lines count session →
        declarations lines count scope name ≠ [] →
        ∃ id, session.state.storage.find? name scope = some id := by
      intro count session scope name hreached hdeclared
      refine Option.ne_none_iff_exists'.1 fun hnone => hdeclared ?_
      rw [← hreached.tracks.find?] at hnone
      exact (hreached.registered.standing scope name).eq_nil_iff.2 hnone
    refine ⟨last, hall, fun scope name hdeclared => ?_⟩
    obtain ⟨id, hfind⟩ := hfound hlast hdeclared
    refine ⟨id, Referent.lt_of_find? hfind, hlast.unique_variable hfind, ?_⟩
    intro count session hsession hcount hdeclared
    have hreached := Session.reached_of_linesFrom hcount hsession
    obtain ⟨early, hearly⟩ := hfound hreached hdeclared
    have hextends := hlast.extends hreached hcount
    -- What an earlier line finds is the variable that is found in the end.
    obtain rfl : early = id := Option.some.inj ((hextends.find? hearly).symm.trans hfind)
    refine ⟨?_, hreached.ofWord_iff hearly⟩
    exact congrArg (fun identity => identity.2.2)
      (hextends.identity_eq (Referent.lt_of_find? hearly)).2.symm

/-- A global name gets its value behind a function that declares the same name. In another source it
gets a second value. -/
theorem names_are_declared_in_turn_forward :
    let source := "var x\nfunction f()\nvar x = 2\nend\nvar x = 1\nx += 1"
    let lines := Text.lines source
    let again := "var x\nvar x = 1\nvar x = 2"
    InTurn (declarations lines lines.length .global "x") ∧
    (∃ last, Session.linesFrom lines lines 1 .new = (.ok (), last) ∧
      ∃ id < last.state.storage.vars.length, (last.state.storage.get id).name = "x" ∧
        (last.state.storage.get id).scope = .function 0 ∧
        Referent.ofWord last.state.storage (.function 0) "x" = .ok (.variable id)) ∧
    ∃ report, compile again = .error report ∧ report.kind = .compile ∧
      report.cause = .storage (.duplicate "x") ∧ report.line = some ⟨3, "var x = 2"⟩ := by
  intro source lines again
  have hcompiled : (compile source).toOption.isSome = true := by decide +kernel
  have hglobal : declarations lines lines.length .global "x" ≠ [] := by decide +kernel
  have hlocal : declarations lines lines.length (.function 0) "x" ≠ [] := by decide +kernel
  have hagain : declarations (Text.lines again) 2 (scopeAt (Text.lines again) 2) "x" =
      [none, some (.word "1")] := by decide +kernel
  have hparse : Statement.parse "var x = 2".toList =
      .ok (some (.declare "x" (some (.word "2")))) := by decide +kernel
  have hopen : (Session.linesFrom (Text.lines again) ((Text.lines again).take 2) 1 .new).1.toOption =
      some () := by decide +kernel
  cases himage : compile source with
  | error report =>
    rw [himage] at hcompiled
    cases hcompiled
  | ok image =>
    refine ⟨?_, ?_, ?_⟩
    · exact ((names_are_declared_in_turn source).1 image himage .global "x").resolve_left hglobal
    · obtain ⟨last, hall, hvariables⟩ := (names_are_declared_in_turn source).2.2 image himage
      obtain ⟨id, hid, hunique, hmeans⟩ := hvariables (.function 0) "x" hlocal
      obtain ⟨hname, hscope⟩ := (hunique id hid).2 rfl
      have hword := (hmeans lines.length last (by rw [List.take_length]; exact hall) (Nat.le_refl _)
        hlocal).2 (.function 0) "x"
      exact ⟨last, hall, id, hid, hname, hscope, hword.2 ⟨rfl, .inl rfl⟩⟩
    · -- In the other source, `x` has its value already when it is declared a third time.
      rcases hbefore : Session.linesFrom (Text.lines again) ((Text.lines again).take 2) 1 .new with
        ⟨report | _, before⟩
      · rw [hbefore] at hopen
        cases hopen
      · refine (names_are_declared_in_turn again).2.1 2 "var x = 2" before "x" _ (by decide +kernel)
          hbefore hparse ?_
        rw [hagain]
        exact fun hno => by cases hno

end ByteBasic
