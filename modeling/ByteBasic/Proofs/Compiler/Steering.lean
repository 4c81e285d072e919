import ByteBasic.Proofs.Compiler.Blocks
import ByteBasic.Proofs.Compiler.Passing
import ByteBasic.Proofs.Compiler.Turning

/-!
# What a line does to control

Labels, functions, blocks and the open stream decide where control can go, together with the items
where control turns. `Build.Steered` says for every statement what becomes of the one and which of
the other are put out, down to the numbers of the labels: it is all that a line can do to control.

`Build.Steers` is a step of compiling with the turning items that it puts out if it succeeds. The
rule for one step after another is `Build.Steers.bind`, and steps that control passes through are
`Build.Passes`.

**Theorem (`conducts_line`).** A line is either refused, for another reason than a jump, and leaves
the open blocks and the open stream as they are; or it does to control what its statement says. In
both cases what it puts out goes to the stream that was open or to the one that is open now, and
touches memory only for variables that can be seen there and at addresses that the line names.
-/

namespace ByteBasic

/-! ## Turning items -/

instance : DecidablePred Item.Turns
  | .instruction _ => inferInstanceAs (Decidable False)
  | .halt => inferInstanceAs (Decidable False)
  | .label _ _ => inferInstanceAs (Decidable True)
  | .jump _ _ _ _ => inferInstanceAs (Decidable True)
  | .goto _ _ => inferInstanceAs (Decidable True)
  | .compare _ _ _ _ _ => inferInstanceAs (Decidable True)
  | .call _ _ => inferInstanceAs (Decidable True)
  | .ret => inferInstanceAs (Decidable True)

/-- The items where control turns among what is put out, each with its stream. -/
def turning (events : List BuildEvent) : List (Scope × Item) :=
  (streamed events).filter fun entry => entry.2.Turns

@[simp] theorem turning_nil : turning [] = [] := rfl

@[simp] theorem turning_append (xs ys : List BuildEvent) :
    turning (xs ++ ys) = turning xs ++ turning ys := by
  simp [turning]

theorem turning_eq_nil {events : List BuildEvent}
    (h : ∀ emission, .code emission ∈ events → ¬ emission.item.Turns) : turning events = [] := by
  refine List.filter_eq_nil_iff.2 fun entry hentry => ?_
  obtain ⟨emission, hemission, rfl⟩ := List.mem_map.1 hentry
  obtain ⟨event, hevent, heq⟩ := List.mem_filterMap.1 hemission
  cases event with
  | note n => cases heq
  | code e =>
    cases heq
    simpa using h emission hevent

/-! ## Variables are only ever added -/

/-- The slots run down from the top of memory in the order of the variables. -/
def Storage.Slotted (storage : Storage) : Prop :=
  storage.vars.length ≤ 255 ∧
    ∀ id < storage.vars.length, (storage.get id).address = UInt8.ofNat (255 - id)

/-- No two variables have one slot. -/
theorem Storage.Slotted.eq_of_address {storage : Storage} (h : storage.Slotted) {id other : Nat}
    (hid : id < storage.vars.length) (hother : other < storage.vars.length)
    (haddress : (storage.get id).address = (storage.get other).address) : id = other := by
  obtain ⟨hlength, hslots⟩ := h
  rw [hslots id hid, hslots other hother] at haddress
  have hnat : 255 - id = 255 - other := by
    have hmod := congrArg UInt8.toNat haddress
    rwa [UInt8.toNat_ofNat', UInt8.toNat_ofNat', Nat.mod_eq_of_lt (by omega),
      Nat.mod_eq_of_lt (by omega)] at hmod
  omega

theorem Storage.Orderly.slotted {storage : Storage} (h : storage.Orderly) : storage.Slotted :=
  ⟨h.length_le, h.address⟩

/-- The variables so far keep their names, scopes and slots, and new ones get slots of their own. -/
structure Storage.Extends (before after : Storage) : Prop where
  vars : before.vars.map Variable.identity <+: after.vars.map Variable.identity
  slots : before.Slotted → after.Slotted

namespace Storage.Extends

variable {before middle after : Storage}

theorem refl (storage : Storage) : storage.Extends storage :=
  ⟨List.prefix_rfl, id⟩

theorem trans (h₁ : before.Extends middle) (h₂ : middle.Extends after) : before.Extends after :=
  ⟨h₁.vars.trans h₂.vars, h₂.slots ∘ h₁.slots⟩

theorem of_same (h : before.SameVars after) : before.Extends after := by
  refine ⟨?_, fun ⟨hlength, hslots⟩ => ⟨?_, fun id hid => ?_⟩⟩
  · exact ⟨[], by rw [List.append_nil, h]⟩
  · rw [h.length_eq]
    exact hlength
  · rw [h.length_eq] at hid
    rw [← hslots id hid]
    exact congrArg (fun identity => identity.2.2) (h.identity_eq id)

theorem extended {storage : Storage} (h : storage.vars.length < 255) (name : String)
    (scope : Scope) : storage.Extends (storage.extended name scope) := by
  refine ⟨?_, fun ⟨_, hslots⟩ => ⟨?_, fun id hid => ?_⟩⟩
  · unfold Storage.extended
    rw [List.map_append]
    exact List.prefix_append ..
  · rw [length_extended]
    exact h
  · rw [length_extended] at hid
    rcases Nat.lt_succ_iff_lt_or_eq.1 hid with hlt | rfl
    · rw [get_extended_of_lt hlt]
      exact hslots id hlt
    · rw [get_extended_self]
      rfl

theorem identity_eq (h : before.Extends after) {id : VarId} (hid : id < before.vars.length) :
    id < after.vars.length ∧ (after.get id).identity = (before.get id).identity := by
  have hlength := h.vars.length_le
  rw [List.length_map, List.length_map] at hlength
  have hid' := Nat.lt_of_lt_of_le hid hlength
  refine ⟨hid', ?_⟩
  have hget := h.vars.getElem (show id < (before.vars.map Variable.identity).length by simpa using hid)
  rw [List.getElem_map, List.getElem_map] at hget
  rw [get_eq_getElem hid, get_eq_getElem hid', hget]

end Storage.Extends

/-! ## What a statement does to control -/

/-- The operands that a statement has, its destination among them. -/
def Statement.operands : Statement → List Operand
  | .declare _ value => value.toList
  | .assign dest update => .word dest :: update.operands
  | .ifBlock condition => [condition.left, condition.right]
  | .ifGoto condition _ => [condition.left, condition.right]
  | .loop condition => [condition.left, condition.right]
  | .call _ arguments => arguments
  | _ => []

namespace Build

/-- What a statement does to control and which turning items it puts out. -/
def Steered (number : Nat) (before after : Control) (items : List (Scope × Item)) : Statement → Prop
  | .declare _ _ => after = before ∧ items = []
  | .assign _ _ => after = before ∧ items = []
  | .halt => after = before ∧ items = []
  | .exit _ => after = before ∧ items = []
  | .goto name =>
    after = { before with labels := (before.labels.named name).2 } ∧
      items = [(before.current, .goto (before.labels.named name).1 number)]
  | .label name =>
    after = { before with labels := (before.labels.named name).2 } ∧
      items = [(before.current, .label (before.labels.named name).1 number)]
  | .ifGoto _ name =>
    after = { before with labels := (before.labels.named name).2 } ∧
      ∃ comparison register, items = [(before.current,
        .compare comparison register (.label (before.labels.named name).1) .next number)]
  | .ifBlock _ => ∃ name block labels, Block.newBranch before.labels name number = (block, labels) ∧
      after = { before with labels := labels, blocks := block :: before.blocks } ∧
      ∃ comparison register, items = [
        (before.current, .compare comparison register .next (.label block.rejectLabel) number),
        (before.current, .label block.main number)]
  | .loop _ => ∃ name block check labels,
      Block.newLoop before.labels name number = (block, check, labels) ∧
      after = { before with labels := labels, blocks := block :: before.blocks } ∧
      ∃ comparison register, items = [
        (before.current, .label check number),
        (before.current, .compare comparison register .next (.label block.after) number),
        (before.current, .label block.main number)]
  | .otherwise => ∃ block outer opened chunk, before.blocks = block :: outer ∧
      block.openElse number = .ok (opened, chunk) ∧
      after = { before with blocks := opened :: outer } ∧
      items = chunk.map fun item => (before.current, item)
  | .close => ∃ block outer, before.blocks = block :: outer ∧
      after = { before with blocks := outer, current := streamBehind block before.current } ∧
      items = (block.close number).map fun item => (before.current, item)
  | .function name => before.current = .global ∧ ∃ block labels,
      Block.newFunction before.labels name before.functions.length number = (block, labels) ∧
      after = ⟨labels, before.functions ++ [⟨name, block.main⟩],
        .function before.functions.length, block :: before.blocks⟩ ∧
      items = [(.function before.functions.length, .label block.main number)]
  | .ret => before.current ≠ .global ∧ after = before ∧ items = [(before.current, .ret)]
  | .call _ _ => after = before ∧ (items = [] ∨
      ∃ function ∈ before.functions, items = [(before.current, .call function.main number)])

/-! ## Steps -/

variable {α β : Type} {named : List Operand} {streams : Scope → Prop} {frame : Control → Prop}
  {base state : BuildState}

/-- A step of a line. What it puts out is isolated and goes to the given streams; if it succeeds,
`ok` holds of its result, the state reached and its turning items, and if it fails, `frame` holds of
what decides where control can go. -/
structure Steers (named : List Operand) (streams : Scope → Prop) (frame : Control → Prop)
    (action : Build α) (state : BuildState)
    (ok : α → BuildState → List (Scope × Item) → Prop) : Prop where
  grows : state.storage.Extends (action.run state).state.storage
  emissions : ∀ emission, .code emission ∈ (action.run state).output →
    emission.Isolated named ∧ streams emission.stream ∧
      emission.state.storage.Extends (action.run state).state.storage
  failed : ∀ error, (action.run state).result = .error error →
    error.kind ≠ .jump ∧ frame (action.run state).state.control
  ok : ∀ a, (action.run state).result = .ok a →
    ok a (action.run state).state (turning (action.run state).output)

namespace Steers

theorem bind {action : Build α} {next : α → Build β}
    {mid : α → BuildState → List (Scope × Item) → Prop}
    {ok : β → BuildState → List (Scope × Item) → Prop}
    (h : Steers named streams frame action state mid)
    (hnext : ∀ a s items, mid a s items →
      Steers named streams frame (next a) s fun b s' items' => ok b s' (items ++ items')) :
    Steers named streams frame (action >>= next) state ok := by
  obtain ⟨hgrows, hout, hfailed, hmid⟩ := h
  rcases hrun : action.run state with ⟨error | a, s, output⟩
  · -- The first part fails, and nothing follows.
    have hall : (action >>= next).run state = ⟨.error error, s, output⟩ := by
      rw [Action.run_bind, hrun, Outcome.andThen_error]
    rw [hrun] at hgrows hout hfailed
    refine ⟨?_, ?_, ?_, fun b hb => ?_⟩
    · rw [hall]
      exact hgrows
    · rw [hall]
      exact hout
    · rw [hall]
      exact fun other heq => hfailed other (by cases heq; rfl)
    · rw [hall] at hb
      cases hb
  · rw [hrun] at hgrows hout hmid
    obtain ⟨hgrows', hout', hfailed', hok⟩ := hnext a s _ (hmid a rfl)
    -- Both parts are carried out, and what they put out stands side by side.
    have hall : (action >>= next).run state = ⟨((next a).run s).result, ((next a).run s).state,
        output ++ ((next a).run s).output⟩ := by
      rw [Action.run_bind, hrun, Outcome.andThen_ok]
    refine ⟨?_, fun emission hmem => ?_, ?_, fun b hb => ?_⟩
    · rw [hall]
      exact hgrows.trans hgrows'
    · rw [hall] at hmem ⊢
      rcases List.mem_append.1 hmem with hmem | hmem
      · obtain ⟨hisolated, hstream, hextends⟩ := hout emission hmem
        exact ⟨hisolated, hstream, hextends.trans hgrows'⟩
      · exact hout' emission hmem
    · rw [hall]
      exact hfailed'
    · rw [hall] at hb ⊢
      rw [turning_append]
      exact hok b hb

theorem imp {action : Build α} {ok ok' : α → BuildState → List (Scope × Item) → Prop}
    (h : Steers named streams frame action state ok)
    (himp : ∀ a s items, ok a s items → ok' a s items) :
    Steers named streams frame action state ok' :=
  ⟨h.grows, h.emissions, h.failed, fun a ha => himp _ _ _ (h.ok a ha)⟩

theorem pure {ok : α → BuildState → List (Scope × Item) → Prop} {a : α} (h : ok a state []) :
    Steers named streams frame (Pure.pure a) state ok := by
  refine ⟨.refl _, fun _ hmem => (by cases hmem), fun _ heq => (by cases heq), fun b hb => ?_⟩
  cases hb
  exact h

theorem fail {ok : α → BuildState → List (Scope × Item) → Prop} {error : CompileError}
    (hframe : frame state.control) (h : error.kind ≠ .jump) :
    Steers named streams frame (Action.fail error) state ok := by
  refine ⟨.refl _, fun _ hmem => (by cases hmem), fun _ heq => ?_, fun b hb => (by cases hb)⟩
  cases heq
  exact ⟨h, hframe⟩

theorem get {next : BuildState → Build α} {ok : α → BuildState → List (Scope × Item) → Prop}
    (h : Steers named streams frame (next state) state ok) :
    Steers named streams frame (Action.get >>= next) state ok := by
  have hall : (Action.get >>= next).run state = (next state).run state := by
    rw [Action.run_bind, Action.run_get, Outcome.andThen_ok_nil]
  refine ⟨?_, ?_, ?_, ?_⟩
  · rw [hall]
    exact h.grows
  · rw [hall]
    exact h.emissions
  · rw [hall]
    exact h.failed
  · rw [hall]
    exact h.ok

theorem modify_last {change : BuildState → BuildState}
    {ok : Unit → BuildState → List (Scope × Item) → Prop}
    (hstorage : (change state).storage = state.storage) (h : ok () (change state) []) :
    Steers named streams frame (Action.modify change) state ok := by
  refine ⟨?_, fun _ hmem => (by cases hmem), fun _ heq => (by cases heq), fun _ _ => h⟩
  rw [Action.run_modify, hstorage]
  exact .refl _

theorem modify {change : BuildState → BuildState} {next : Build α}
    {ok : α → BuildState → List (Scope × Item) → Prop}
    (hstorage : (change state).storage = state.storage)
    (h : Steers named streams frame next (change state) ok) :
    Steers named streams frame (Action.modify change >>= fun _ => next) state ok := by
  have hmodify : Steers named streams frame (Action.modify change) state
      fun _ s items => s = change state ∧ items = [] := .modify_last hstorage ⟨rfl, rfl⟩
  refine hmodify.bind fun _ s items hs => ?_
  obtain ⟨rfl, rfl⟩ := hs
  exact h

end Steers

/-- A step that control passes through, seen as a step of a line. -/
theorem Passes.steers {action : Build α} {ok : α → Prop} (h : Passes base named action ok)
    (hwithin : base.Within state) (hstreams : streams base.current) (hframe : frame base.control) :
    Steers named streams frame action state fun a s items =>
      base.Within s ∧ ok a ∧ items = [] := by
  obtain ⟨hstate, hout, herror, hok⟩ := h state hwithin
  refine ⟨.of_same (Eq.trans hstate.same hwithin.same.symm), fun emission hmem => ?_,
    fun error heq => ⟨herror error heq, ?_⟩, fun a ha => ⟨hstate, hok a ha, ?_⟩⟩
  · obtain ⟨hemission, -, hisolated⟩ := hout emission hmem
    refine ⟨hisolated, ?_, .of_same (Eq.trans hstate.same hemission.same.symm)⟩
    rw [Emission.stream, hemission.current]
    exact hstreams
  · rw [hstate.control]
    exact hframe
  · exact turning_eq_nil fun emission hmem => (hout emission hmem).2.1

theorem steers_emit (item : Item) (hturns : item.Turns) (hstreams : streams state.current) :
    Steers named streams frame (emit item) state fun _ s items =>
      s.storage = state.storage ∧ s.control = state.control ∧ items = [(state.current, item)] := by
  refine ⟨.refl _, fun emission hmem => ?_, fun _ heq => (by cases heq), fun _ _ => ⟨rfl, rfl, ?_⟩⟩
  · have hcode : BuildEvent.code emission ∈ [BuildEvent.code ⟨state, item, .statement⟩] := hmem
    obtain rfl : emission = ⟨state, item, .statement⟩ := by simpa using hcode
    refine ⟨fun i hi => ?_, hstreams, .refl _⟩
    subst hi
    exact hturns.elim
  · have hout : turning [.code ⟨state, item, .statement⟩] = [(state.current, item)] := by
      simp [turning, streamed, BuildEvent.emission?, Emission.stream, hturns]
    exact hout

theorem steers_emitAll {chunk : List Item} (hturns : ∀ item ∈ chunk, item.Turns)
    (hstreams : streams state.current) :
    Steers named streams frame (emitAll chunk) state fun _ s items =>
      s.storage = state.storage ∧ s.control = state.control ∧
        items = chunk.map fun item => (state.current, item) := by
  induction chunk generalizing state with
  | nil => exact .pure ⟨rfl, rfl, rfl⟩
  | cons item chunk ih =>
    obtain ⟨hitem, hchunk⟩ := List.forall_mem_cons.1 hturns
    refine (steers_emit item hitem hstreams).bind fun _ s items hs => ?_
    obtain ⟨hstorage, hcontrol, rfl⟩ := hs
    have hcurrent : s.current = state.current := congrArg Control.current hcontrol
    rw [← hcurrent] at hstreams
    refine (ih hchunk hstreams).imp fun _ s' items hs' => ?_
    obtain ⟨hstorage', hcontrol', rfl⟩ := hs'
    exact ⟨hstorage'.trans hstorage, hcontrol'.trans hcontrol, by simp [hcurrent]⟩

theorem steers_flush (h : state.storage.Housed) (hconfined : state.Confined)
    (hstreams : streams state.current) :
    Steers named streams frame flush state fun _ s items =>
      state.Within s ∧ s.storage.Unbound ∧ items = [] := by
  have hpasses : Passes state named flush fun _ => True := passes_flush
  have hsteers : Steers named streams (fun _ => True) flush state _ :=
    hpasses.steers hconfined.within hstreams trivial
  obtain ⟨hgrows, hout, -, hok⟩ := hsteers
  obtain ⟨after, events, hrun, hmoves, hloose, -⟩ := Storage.moves_flush h
  have hresult : (flush.run state).result = .ok () :=
    congrArg (fun outcome => outcome.result.mapError CompileError.storage) hrun
  refine ⟨hgrows, hout, fun error herror => ?_, fun a ha => ?_⟩
  · rw [hresult] at herror
    cases herror
  · obtain ⟨hwithin, -, hitems⟩ := hok a ha
    refine ⟨hwithin, ?_, hitems⟩
    rw [show (flush.run state).state.storage = after from congrArg Outcome.state hrun]
    exact hmoves.housed.unbound hloose

theorem steers_namedLabel (name : String) :
    Steers named streams frame (namedLabel name) state fun id s items =>
      id = (state.labels.named name).1 ∧ s.storage = state.storage ∧
        s.control = { state.control with labels := (state.labels.named name).2 } ∧ items = [] :=
  .get (.modify rfl (.pure ⟨rfl, rfl, rfl, rfl⟩))

theorem steers_blockName (keyword : String) :
    Steers named streams frame (blockName keyword) state fun _ s items =>
      s.storage = state.storage ∧ s.control = state.control ∧ items = [] :=
  .get (.modify rfl (.pure ⟨rfl, rfl, rfl⟩))

theorem confined_of_unbound (h : state.storage.Unbound) : state.Confined :=
  fun id hid => absurd (h id) hid

/-! ## Conditions and blocks -/

theorem steers_compare {condition : Condition} (hconfined : state.Confined)
    (hleft : condition.left ∈ named) (hright : condition.right ∈ named)
    (hstreams : streams state.current) (hframe : frame state.control) (accept reject : Target)
    (line : Nat) :
    Steers named streams frame (compare condition accept reject line) state fun _ s items =>
      s.Confined ∧ s.control = state.control ∧ ∃ comparison register,
        items = [(state.current, .compare comparison register accept reject line)] := by
  have hbase := hconfined.within
  refine ((passes_referent hleft).steers hbase hstreams hframe).bind fun left s _ hs => ?_
  obtain ⟨hs, hknownLeft, rfl⟩ := hs
  refine ((passes_referent hright).steers hs hstreams hframe).bind fun right s₁ _ hs₁ => ?_
  obtain ⟨hs₁, hknownRight, rfl⟩ := hs₁
  split
  · exact .fail (by rw [hs₁.control]; exact hframe) fun hno => by cases hno
  refine ((passes_reserveAll _).steers hs₁ hstreams hframe).bind fun _ s₂ _ hs₂ => ?_
  obtain ⟨hs₂, -, rfl⟩ := hs₂
  refine ((passes_leftRegister hknownLeft right).steers hs₂ hstreams hframe).bind
    fun first s₃ _ hs₃ => ?_
  obtain ⟨hs₃, -, rfl⟩ := hs₃
  refine ((passes_rightRegister first hknownRight).steers hs₃ hstreams hframe).bind
    fun second s₄ _ hs₄ => ?_
  obtain ⟨hs₄, -, rfl⟩ := hs₄
  -- However the sides were brought into registers, one comparison is put out at the end.
  have htest : ∀ s comparison register, state.Within s → Steers named streams frame
      (emit (.compare comparison register accept reject line)) s fun _ s' items =>
        s'.Confined ∧ s'.control = state.control ∧ ∃ comparison register,
          items = [(state.current, .compare comparison register accept reject line)] := by
    intro s comparison register hs
    rw [← hs.current] at hstreams
    refine (steers_emit (.compare comparison register accept reject line) trivial hstreams).imp
      fun _ s' items hs' => ?_
    obtain ⟨hstorage, hcontrol, rfl⟩ := hs'
    have hwithin : state.Within s' := by
      refine ⟨?_, hcontrol.trans hs.control, ?_⟩
      · rw [hstorage]
        exact hs.same
      · rw [hstorage]
        exact hs.confined
    exact ⟨hwithin.confined', hwithin.control, comparison, register, by rw [hs.current]⟩
  split
  · exact htest s₄ _ _ hs₄
  split
  · exact htest s₄ _ _ hs₄
  refine ((passes_instruct rfl).steers hs₄ hstreams hframe).bind fun _ s₅ _ hs₅ => ?_
  obtain ⟨hs₅, -, rfl⟩ := hs₅
  exact htest s₅ _ _ hs₅

theorem steers_openBlock (block : Block) (line : Nat) (hstreams : streams state.current) :
    Steers named streams frame (openBlock block line) state fun _ s items =>
      s.storage = state.storage ∧
        s.control = { state.control with blocks := block :: state.blocks } ∧
        items = [(state.current, .label block.main line)] := by
  refine (steers_emit (.label block.main line) trivial hstreams).bind fun _ s items hs => ?_
  obtain ⟨hstorage, hcontrol, rfl⟩ := hs
  refine .modify_last rfl ⟨hstorage, ?_, rfl⟩
  simp only [BuildState.control, Control.mk.injEq] at hcontrol ⊢
  obtain ⟨hlabels, hfunctions, hcurrent, hblocks⟩ := hcontrol
  exact ⟨hlabels, hfunctions, hcurrent, by rw [hblocks]⟩

theorem steers_entry {condition : Condition} (hconfined : state.Confined)
    (hleft : condition.left ∈ named) (hright : condition.right ∈ named)
    (hstreams : streams state.current) (hframe : frame state.control) (reject : LabelId)
    (block : Block) (line : Nat) :
    Steers named streams frame (do
        compare condition .next (.label reject) line
        openBlock block line) state fun _ s items =>
      s.Confined ∧ s.control = { state.control with blocks := block :: state.blocks } ∧
        ∃ comparison register, items = [
          (state.current, .compare comparison register .next (.label reject) line),
          (state.current, .label block.main line)] := by
  refine (steers_compare hconfined hleft hright hstreams hframe .next (.label reject) line).bind
    fun _ s items hs => ?_
  obtain ⟨hs, hcontrol, comparison, register, rfl⟩ := hs
  have hcurrent : s.current = state.current := congrArg Control.current hcontrol
  have hblocks : s.blocks = state.blocks := congrArg Control.blocks hcontrol
  rw [← hcurrent] at hstreams
  refine (steers_openBlock block line hstreams).imp fun _ s' items hs' => ?_
  obtain ⟨hstorage, hcontrol', rfl⟩ := hs'
  rw [hcontrol, hblocks] at hcontrol'
  have hcurrent' : s'.current = s.current := by
    rw [hcurrent]
    exact congrArg Control.current hcontrol'
  exact ⟨hs.of_storage hstorage hcurrent', hcontrol', comparison, register, by rw [hcurrent]; rfl⟩

/-! ## Statements -/

/-- A statement leaves the open blocks and the open stream as they are. -/
def Kept (before after : Control) : Prop :=
  after.current = before.current ∧ after.blocks = before.blocks

variable {number : Nat}

/-- A statement that control passes through. -/
theorem steers_passing {action : Build Unit} (hconfined : state.Confined)
    (h : Passes state named action fun _ => True) :
    Steers named (· = state.current) (Kept state.control) action state fun _ s items =>
      s.Confined ∧ s.control = state.control ∧ items = [] :=
  Steers.imp (h.steers hconfined.within rfl ⟨rfl, rfl⟩) fun _ _ _ hs =>
    ⟨hs.1.confined', hs.1.control, hs.2.2⟩

theorem steers_flushEmit (h : state.storage.Housed) (hconfined : state.Confined) (item : Item)
    (hturns : item.Turns) :
    Steers named (· = state.current) (Kept state.control) (do flush; emit item) state
      fun _ s items => s.Confined ∧ s.control = state.control ∧ items = [(state.current, item)] := by
  refine Steers.bind (steers_flush h hconfined rfl) fun _ s items hs => ?_
  obtain ⟨hwithin, hunbound, rfl⟩ := hs
  refine Steers.imp (steers_emit item hturns hwithin.current) fun _ s' items hs' => ?_
  obtain ⟨hstorage, hcontrol, rfl⟩ := hs'
  rw [← hstorage] at hunbound
  exact ⟨confined_of_unbound hunbound, hcontrol.trans hwithin.control, by rw [hwithin.current]; rfl⟩

theorem steers_flushNamed (h : state.storage.Housed) (hconfined : state.Confined) (name : String)
    {next : LabelId → Build Unit} {ok : BuildState → List (Scope × Item) → Prop}
    (hnext : ∀ s, s.storage.Unbound →
      s.control = { state.control with labels := (state.labels.named name).2 } →
      Steers named (· = state.current) (Kept state.control) (next (state.labels.named name).1) s
        fun _ s' items => ok s' items) :
    Steers named (· = state.current) (Kept state.control)
      (do flush; let id ← namedLabel name; next id) state fun _ s items => ok s items := by
  refine Steers.bind (steers_flush h hconfined rfl) fun _ s items hs => ?_
  obtain ⟨hwithin, hunbound, rfl⟩ := hs
  refine (steers_namedLabel name).bind fun id s₁ items hs₁ => ?_
  obtain ⟨rfl, hstorage, hcontrol, rfl⟩ := hs₁
  rw [← hstorage] at hunbound
  rw [hwithin.control, hwithin.labels] at hcontrol
  rw [hwithin.labels]
  exact hnext s₁ hunbound hcontrol

theorem steers_flushNamedEmit (h : state.storage.Housed) (hconfined : state.Confined)
    (name : String) (item : LabelId → Item) (hturns : ∀ id, (item id).Turns) :
    Steers named (· = state.current) (Kept state.control)
      (do flush; let id ← namedLabel name; emit (item id)) state fun _ s items =>
        s.Confined ∧
          s.control = { state.control with labels := (state.labels.named name).2 } ∧
          items = [(state.current, item (state.labels.named name).1)] := by
  refine steers_flushNamed h hconfined name fun s hunbound hcontrol => ?_
  have hcurrent : s.current = state.current := congrArg Control.current hcontrol
  refine Steers.imp (steers_emit (item _) (hturns _) hcurrent) fun _ s' items hs' => ?_
  obtain ⟨hstorage, hcontrol', rfl⟩ := hs'
  rw [← hstorage] at hunbound
  exact ⟨confined_of_unbound hunbound, hcontrol'.trans hcontrol, by rw [hcurrent]⟩

theorem steers_ifGoto (h : state.storage.Housed) (hconfined : state.Confined)
    (condition : Condition) (name : String) :
    Steers [condition.left, condition.right] (· = state.current) (Kept state.control)
      (Build.statement (.ifGoto condition name) number) state fun _ s items =>
        s.Confined ∧ Steered number state.control s.control items (.ifGoto condition name) := by
  refine steers_flushNamed h hconfined name fun s hunbound hcontrol => ?_
  have hcurrent : s.current = state.current := congrArg Control.current hcontrol
  refine Steers.imp (steers_compare (confined_of_unbound hunbound) (by simp) (by simp) hcurrent
    (by rw [hcontrol]; exact ⟨rfl, rfl⟩) _ .next number) fun _ s' items hs' => ?_
  obtain ⟨hs', hcontrol', comparison, register, rfl⟩ := hs'
  exact ⟨hs', hcontrol'.trans hcontrol, comparison, register, by rw [hcurrent]; rfl⟩

theorem steers_flushBlock (h : state.storage.Housed) (hconfined : state.Confined) (keyword : String)
    {next : String → BuildState → Build Unit} {ok : BuildState → List (Scope × Item) → Prop}
    (hnext : ∀ name s, s.storage.Unbound → s.control = state.control →
      Steers named (· = state.current) (Kept state.control) (next name s) s
        fun _ s' items => ok s' items) :
    Steers named (· = state.current) (Kept state.control)
      (do flush; let name ← blockName keyword; let s ← Action.get; next name s) state
        fun _ s items => ok s items := by
  refine Steers.bind (steers_flush h hconfined rfl) fun _ s items hs => ?_
  obtain ⟨hwithin, hunbound, rfl⟩ := hs
  refine (steers_blockName keyword).bind fun name s₁ items hs₁ => ?_
  obtain ⟨hstorage, hcontrol, rfl⟩ := hs₁
  rw [← hstorage] at hunbound
  exact .get (hnext name s₁ hunbound (hcontrol.trans hwithin.control))

theorem relabelled {s : BuildState} (hunbound : s.storage.Unbound)
    (hcontrol : s.control = state.control) (labels : Labels) :
    ({ s with labels := labels } : BuildState).storage.Unbound ∧
      ({ s with labels := labels } : BuildState).control =
        { state.control with labels := labels } :=
  ⟨hunbound, congrArg (fun control : Control => { control with labels := labels }) hcontrol⟩

theorem steers_openBranch (h : state.storage.Housed) (hconfined : state.Confined)
    (condition : Condition) :
    Steers [condition.left, condition.right] (· = state.current) (Kept state.control)
      (openBranch condition number) state fun _ s items =>
        s.Confined ∧ Steered number state.control s.control items (.ifBlock condition) := by
  refine steers_flushBlock h hconfined "if" fun name s hunbound hcontrol => ?_
  rw [show s.labels = state.labels from congrArg Control.labels hcontrol]
  rcases hnew : Block.newBranch state.labels name number with ⟨block, labels⟩
  refine .modify rfl ?_
  obtain ⟨hunbound, hcontrol⟩ := relabelled hunbound hcontrol labels
  generalize ({ s with labels := labels } : BuildState) = opened at hunbound hcontrol ⊢
  have hcurrent : opened.current = state.current := congrArg Control.current hcontrol
  have hblocks : opened.blocks = state.blocks := congrArg Control.blocks hcontrol
  refine Steers.imp (steers_entry (confined_of_unbound hunbound) (by simp) (by simp) hcurrent
    ⟨hcurrent, hblocks⟩ block.rejectLabel block number) fun _ s' items hs' => ?_
  obtain ⟨hs', hcontrol', comparison, register, rfl⟩ := hs'
  rw [hcontrol, hblocks] at hcontrol'
  exact ⟨hs', name, block, labels, hnew, hcontrol', comparison, register, by rw [hcurrent]; rfl⟩

theorem steers_openLoop (h : state.storage.Housed) (hconfined : state.Confined)
    (condition : Condition) :
    Steers [condition.left, condition.right] (· = state.current) (Kept state.control)
      (openLoop condition number) state fun _ s items =>
        s.Confined ∧ Steered number state.control s.control items (.loop condition) := by
  refine steers_flushBlock h hconfined "while" fun name s hunbound hcontrol => ?_
  rw [show s.labels = state.labels from congrArg Control.labels hcontrol]
  rcases hnew : Block.newLoop state.labels name number with ⟨block, check, labels⟩
  refine .modify rfl ?_
  obtain ⟨hunbound, hcontrol⟩ := relabelled hunbound hcontrol labels
  generalize ({ s with labels := labels } : BuildState) = opened at hunbound hcontrol ⊢
  have hcurrent : opened.current = state.current := congrArg Control.current hcontrol
  refine Steers.bind (steers_emit (.label check number) trivial hcurrent) fun _ s₁ items hs₁ => ?_
  obtain ⟨hstorage, hcontrol₁, rfl⟩ := hs₁
  rw [← hstorage] at hunbound
  rw [hcontrol] at hcontrol₁
  have hcurrent₁ : s₁.current = state.current := congrArg Control.current hcontrol₁
  have hblocks₁ : s₁.blocks = state.blocks := congrArg Control.blocks hcontrol₁
  refine Steers.imp (steers_entry (confined_of_unbound hunbound) (by simp) (by simp) hcurrent₁
    ⟨hcurrent₁, hblocks₁⟩ block.after block number) fun _ s' items hs' => ?_
  obtain ⟨hs', hcontrol', comparison, register, rfl⟩ := hs'
  rw [hcontrol₁, hblocks₁] at hcontrol'
  refine ⟨hs', name, block, check, labels, hnew, hcontrol', comparison, register, ?_⟩
  rw [hcurrent, hcurrent₁]
  rfl

theorem turns_openElse {block opened : Block} {chunk : List Item}
    (h : block.openElse number = .ok (opened, chunk)) : ∀ item ∈ chunk, item.Turns := by
  unfold Block.openElse at h
  split at h
  · cases h
    simp [Item.Turns]
  · cases h
  · cases h

theorem steers_openElse (h : state.storage.Housed) (hconfined : state.Confined) :
    Steers named (· = state.current) (Kept state.control) (openElse number) state fun _ s items =>
      s.Confined ∧ Steered number state.control s.control items .otherwise := by
  refine Steers.bind (steers_flush h hconfined rfl) fun _ s items hs => .get ?_
  obtain ⟨hwithin, hunbound, rfl⟩ := hs
  have hframe : Kept state.control s.control := ⟨hwithin.current, hwithin.blocks⟩
  split
  · exact .fail hframe fun hno => by cases hno
  · next block outer hblocks =>
    split
    · next error _ => exact .fail hframe (by cases error <;> exact fun hno => by cases hno)
    · next opened chunk hopen =>
      refine .modify rfl ?_
      refine Steers.imp (steers_emitAll (turns_openElse hopen) hwithin.current)
        fun _ s' items hs' => ?_
      obtain ⟨hstorage, hcontrol, rfl⟩ := hs'
      rw [← hstorage] at hunbound
      rw [hwithin.blocks] at hblocks
      refine ⟨confined_of_unbound hunbound, block, outer, opened, chunk, hblocks, hopen, ?_, ?_⟩
      · rw [hcontrol]
        exact congrArg (fun control : Control => { control with blocks := opened :: outer })
          hwithin.control
      · rw [List.nil_append]
        exact congrArg (fun current => chunk.map fun item => (current, item)) hwithin.current

theorem steers_closeBlock (h : state.storage.Housed) (hconfined : state.Confined) :
    Steers named (· = state.current) (Kept state.control) (closeBlock number) state fun _ s items =>
      s.Confined ∧ Steered number state.control s.control items .close := by
  refine Steers.bind (steers_flush h hconfined rfl) fun _ s items hs => .get ?_
  obtain ⟨hwithin, hunbound, rfl⟩ := hs
  split
  · exact .fail ⟨hwithin.current, hwithin.blocks⟩ fun hno => by cases hno
  · next block outer hblocks =>
    rw [hwithin.blocks] at hblocks
    refine .modify rfl ?_
    refine Steers.bind (steers_emitAll (turns_close block number) hwithin.current)
      fun _ s₁ items hs₁ => ?_
    obtain ⟨hstorage, hcontrol, rfl⟩ := hs₁
    rw [← hstorage] at hunbound
    -- The block is gone, and its items are put out in the stream that is still open.
    have hclosed : s₁.control = { state.control with blocks := outer } := by
      rw [hcontrol]
      exact congrArg (fun control : Control => { control with blocks := outer }) hwithin.control
    have hitems : (block.close number).map (fun item => (s.current, item)) =
        (block.close number).map fun item => (state.control.current, item) :=
      congrArg (fun current => (block.close number).map fun item => (current, item)) hwithin.current
    split
    · next hfunction =>
      refine .modify_last rfl ⟨confined_of_unbound hunbound, block, outer, hblocks, ?_, ?_⟩
      · rw [streamBehind, if_pos hfunction]
        exact congrArg (fun control : Control => { control with current := .global }) hclosed
      · simpa using hitems
    · next hother =>
      refine .pure ⟨confined_of_unbound hunbound, block, outer, hblocks, ?_, ?_⟩
      · rw [streamBehind, if_neg hother]
        exact hclosed
      · simpa using hitems

theorem steers_callFunction (h : state.storage.Housed) (hconfined : state.Confined) (name : String)
    (arguments : List Operand) :
    Steers named (· = state.current) (Kept state.control) (callFunction name arguments number) state
      fun _ s items => s.Confined ∧ s.control = state.control ∧
        ∃ function ∈ state.functions, items = [(state.current, .call function.main number)] := by
  refine .get ?_
  split
  · exact .fail ⟨rfl, rfl⟩ fun hno => by cases hno
  · next function hfound =>
    split
    · refine Steers.imp (steers_flushEmit h hconfined (.call function.main number) trivial)
        fun _ s items hs => ⟨hs.1, hs.2.1, function, List.mem_of_find?_eq_some hfound, hs.2.2⟩
    · exact .fail ⟨rfl, rfl⟩ fun hno => by cases hno

theorem steers_call (h : state.storage.Housed) (hconfined : state.Confined) (name : String)
    (arguments : List Operand) :
    Steers arguments (· = state.current) (Kept state.control) (call name arguments number) state
      fun _ s items =>
        s.Confined ∧ Steered number state.control s.control items (.call name arguments) := by
  unfold call
  split
  · next builtin _ =>
    exact (steers_passing hconfined (passes_callBuiltin builtin fun _ h => h)).imp
      fun _ s items hs => ⟨hs.1, hs.2.1, .inl hs.2.2⟩
  · exact (steers_callFunction h hconfined name arguments).imp
      fun _ s items hs => ⟨hs.1, hs.2.1, .inr hs.2.2⟩

/-- With one more variable of the open stream, that variable can be seen, too. -/
theorem confined_extended (hconfined : state.Confined) (name : String) {opened : BuildState}
    (hstorage : opened.storage = state.storage.extended name state.current)
    (hcurrent : opened.current = state.current) :
    opened.Confined ∧ opened.Sees state.storage.vars.length := by
  constructor
  · intro id hid
    rw [hstorage, Storage.register_extended] at hid
    obtain ⟨hlt, hscope⟩ := hconfined id hid
    unfold BuildState.Sees
    rw [hstorage, hcurrent, Storage.length_extended, Storage.get_extended_of_lt hlt]
    exact ⟨Nat.lt_succ_of_lt hlt, hscope⟩
  · unfold BuildState.Sees
    rw [hstorage, hcurrent, Storage.length_extended, Storage.get_extended_self]
    exact ⟨Nat.lt_succ_self _, .inr rfl⟩

theorem steers_storingDeclare (name : String)
    (hnew : state.storage.find? name state.current = none) :
    Steers named streams (Kept state.control)
      (storing (Storage.declare name state.current state.codeSize)) state fun id s items =>
        id = state.storage.vars.length ∧ s.control = state.control ∧
          s.storage = state.storage.extended name state.current ∧ items = [] := by
  rcases Storage.run_declare hnew with ⟨note, hroom, hrun⟩ | hrun
  · have hout := run_storing hrun
    refine ⟨?_, fun emission hmem => ?_, fun error herror => ?_, fun id hid => ?_⟩
    · rw [hout]
      exact .extended hroom ..
    · rw [hout] at hmem
      simp [ofStorageEvent] at hmem
    · rw [hout] at herror
      cases herror
    · rw [hout] at hid ⊢
      cases hid
      exact ⟨rfl, rfl, rfl, rfl⟩
  · have hout := run_storing hrun
    refine ⟨?_, fun emission hmem => ?_, fun error herror => ?_, fun id hid => ?_⟩
    · rw [hout]
      exact .refl _
    · rw [hout] at hmem
      cases hmem
    · rw [hout] at herror ⊢
      cases herror
      exact ⟨fun hno => (by cases hno), rfl, rfl⟩
    · rw [hout] at hid
      cases hid

theorem steers_declare (hconfined : state.Confined) (name : String) (value : Option Operand) :
    Steers value.toList (· = state.current) (Kept state.control) (declare name value number) state
      fun _ s items =>
        s.Confined ∧ Steered number state.control s.control items (.declare name value) := by
  -- The value is assigned like any other, and control stays where it is.
  have hassign : ∀ s id operand, s.Confined → s.Sees id → s.control = state.control →
      Steers [operand] (· = state.current) (Kept state.control)
        (assign (.variable id) (.set operand)) s fun _ s' items =>
          s'.Confined ∧ s'.control = state.control ∧ items = [] := by
    intro s id operand hs hid hcontrol
    have hcurrent : s.current = state.current := congrArg Control.current hcontrol
    have hpasses : Passes s [operand] (assign (.variable id) (.set operand)) fun _ => True :=
      passes_assign hid fun _ hmem => hmem
    refine Steers.imp (hpasses.steers hs.within hcurrent (by rw [hcontrol]; exact ⟨rfl, rfl⟩))
      fun _ s' items hs' => ?_
    exact ⟨hs'.1.confined', hs'.1.control.trans hcontrol, hs'.2.2⟩
  refine .get ?_
  split
  · next hfind =>
    refine (steers_storingDeclare name hfind).bind fun id s items hs => ?_
    obtain ⟨rfl, hcontrol, hstorage, rfl⟩ := hs
    refine .modify rfl ?_
    obtain ⟨hopened, hsees⟩ := confined_extended hconfined name hstorage
      (congrArg Control.current hcontrol)
    split
    · exact hassign _ _ _ hopened hsees hcontrol
    · exact .modify_last rfl ⟨hopened, hcontrol, rfl⟩
  · exact .fail ⟨rfl, rfl⟩ fun hno => by cases hno
  · next id operand hfind =>
    split
    · refine .modify rfl (hassign _ id operand hconfined ?_ rfl)
      exact ⟨Referent.lt_of_find? hfind, .inr (Storage.scope_of_find? hfind)⟩
    · exact .fail ⟨rfl, rfl⟩ fun hno => by cases hno

/-- The body of a function starts in a stream of its own. Where the definition is allowed, nothing
can fail any more. -/
theorem steers_openFunction (h : state.storage.Housed) (hconfined : state.Confined) (name : String)
    (hglobal : state.current = .global) :
    Steers named
      (fun stream => stream = state.current ∨ stream = .function state.functions.length)
      (fun _ => False) (do
        flush
        let state ← Action.get
        let id := state.functions.length
        let (block, labels) := Block.newFunction state.labels name id number
        Action.modify fun state =>
          { state with
            labels := labels
            functions := state.functions ++ [⟨name, block.main⟩]
            current := .function id }
        openBlock block number) state fun _ s items =>
      s.Confined ∧ Steered number state.control s.control items (.function name) := by
  refine Steers.bind (steers_flush h hconfined (.inl rfl)) fun _ s items hs => .get ?_
  obtain ⟨hwithin, hunbound, rfl⟩ := hs
  rw [hwithin.labels, hwithin.functions]
  refine .modify rfl ?_
  refine Steers.imp (steers_openBlock _ number (Or.inr rfl)) fun _ s' items hs' => ?_
  obtain ⟨hstorage, hcontrol, rfl⟩ := hs'
  rw [← hstorage] at hunbound
  refine ⟨confined_of_unbound hunbound, hglobal, _, _, rfl, ?_, rfl⟩
  rw [hcontrol]
  simp only [BuildState.control, hwithin.functions, hwithin.blocks]

/-- What a line does to control and which turning items it puts out; a blank one does nothing. -/
def SteeredLine (number : Nat) (before after : Control) (items : List (Scope × Item)) :
    Option Statement → Prop
  | none => after = before ∧ items = []
  | some statement => Steered number before after items statement

/-- What compiling a line does, whether it is refused or not. -/
structure Conducts (number : Nat) (said : Option Statement) (before : BuildState)
    (outcome : Outcome CompileError BuildState BuildEvent Unit) : Prop where
  grows : before.storage.Extends outcome.state.storage
  emissions : ∀ emission, .code emission ∈ outcome.output →
    emission.Isolated (said.elim [] Statement.operands) ∧
      (emission.stream = before.current ∨
        (∃ name, said = some (.function name)) ∧ emission.stream = outcome.state.current) ∧
      emission.state.storage.Extends outcome.state.storage
  failed : ∀ error, outcome.result = .error error →
    error.kind ≠ .jump ∧ Kept before.control outcome.state.control
  ok : outcome.result = .ok () → outcome.state.Confined ∧
    SteeredLine number before.control outcome.state.control (turning outcome.output) said

/-- A statement that puts out items for the open stream only. -/
theorem Steers.conducts {action : Build Unit} {statement : Statement}
    (h : Steers statement.operands (· = state.current) (Kept state.control) action state
      fun _ s items => s.Confined ∧ Steered number state.control s.control items statement) :
    Conducts number (some statement) state (action.run state) where
  grows := h.grows
  emissions emission hmem := by
    obtain ⟨hisolated, hstream, hextends⟩ := h.emissions emission hmem
    exact ⟨hisolated, .inl hstream, hextends⟩
  failed := h.failed
  ok hok := h.ok () hok

theorem conducts_defineFunction (h : state.storage.Housed) (hconfined : state.Confined)
    (name : String) :
    Conducts number (some (.function name)) state ((defineFunction name number).run state) := by
  have hfail : ∀ error : CompileError, error.kind ≠ .jump →
      Conducts number (some (.function name)) state ((Action.fail error : Build Unit).run state) :=
    fun error herror => Steers.conducts (.fail ⟨rfl, rfl⟩ herror)
  unfold defineFunction
  rw [Action.run_bind, Action.run_get, Outcome.andThen_ok_nil]
  split
  · exact hfail _ fun hno => by cases hno
  split
  · exact hfail _ fun hno => by cases hno
  split
  · exact hfail _ fun hno => by cases hno
  next hglobal _ _ =>
    -- All three checks are passed, and the body can be opened.
    have hopen : Steers [] _ (fun _ => False) _ state fun _ s items => s.Confined ∧
        Steered number state.control s.control items (.function name) :=
      steers_openFunction h hconfined name (by simpa using hglobal)
    obtain ⟨hgrows, hout, hfailed, hok⟩ := hopen
    refine ⟨hgrows, fun emission hmem => ?_, fun error herror => (hfailed error herror).2.elim,
      fun hresult => hok () hresult⟩
    obtain ⟨hisolated, hstream, hextends⟩ := hout emission hmem
    refine ⟨hisolated, hstream.imp_right fun hs => ⟨⟨name, rfl⟩, ?_⟩, hextends⟩
    cases hresult : (Action.run _ state).result with
    | error error => exact (hfailed error hresult).2.elim
    | ok _ =>
      obtain ⟨-, -, block, labels, -, hcontrol, -⟩ := hok () hresult
      rw [hs]
      exact (congrArg Control.current hcontrol).symm

/-- Every statement is refused or does to control what it says. -/
theorem conducts_statement (h : state.storage.Housed) (hconfined : state.Confined)
    (statement : Statement) :
    Conducts number (some statement) state ((Build.statement statement number).run state) := by
  cases statement with
  | declare name value => exact Steers.conducts (steers_declare hconfined name value)
  | assign dest update =>
    refine Steers.conducts (steers_passing hconfined ?_)
    exact (passes_referent (by simp [Statement.operands])).bind fun r hr =>
      passes_assign hr fun operand hmem => by simp [Statement.operands, hmem]
  | ifGoto condition name => exact Steers.conducts (steers_ifGoto h hconfined condition name)
  | ifBlock condition => exact Steers.conducts (steers_openBranch h hconfined condition)
  | loop condition => exact Steers.conducts (steers_openLoop h hconfined condition)
  | otherwise => exact Steers.conducts (steers_openElse h hconfined)
  | close => exact Steers.conducts (steers_closeBlock h hconfined)
  | function name => exact conducts_defineFunction h hconfined name
  | ret =>
    refine Steers.conducts (.get ?_)
    split
    · exact .fail ⟨rfl, rfl⟩ fun hno => by cases hno
    · next hfunction =>
      exact (steers_flushEmit h hconfined .ret trivial).imp
        fun _ s items hs => ⟨hs.1, hfunction, hs.2⟩
  | goto name =>
    exact Steers.conducts
      (steers_flushNamedEmit h hconfined name (.goto · number) fun _ => trivial)
  | label name =>
    exact Steers.conducts
      (steers_flushNamedEmit h hconfined name (.label · number) fun _ => trivial)
  | halt =>
    refine Steers.conducts (steers_passing hconfined ?_)
    exact passes_emit (fun hturns => hturns) fun _ hi => by cases hi
  | exit code =>
    refine Steers.conducts (steers_passing hconfined ?_)
    exact (passes_instruct rfl).bind fun _ _ => (passes_instruct rfl).bind fun _ _ =>
      passes_emit (fun hturns => hturns) fun _ hi => by cases hi
  | call name arguments => exact Steers.conducts (steers_call h hconfined name arguments)

/-- Every line is refused or does to control what it says. -/
theorem conducts_line (h : state.storage.Housed) (hconfined : state.Confined) (text : String) :
    (∃ error, (line text number).run state = ⟨.error (.malformed error), state, []⟩ ∧
      Statement.parse text.toList = .error error) ∨
    ∃ said, Statement.parse text.toList = .ok said ∧
      Conducts number said state ((line text number).run state) := by
  unfold line
  split
  · next error hparse => exact .inl ⟨error, rfl, hparse⟩
  · next hparse =>
    exact .inr ⟨none, hparse, .refl _, fun _ hmem => (by cases hmem), fun _ heq => (by cases heq),
      fun _ => ⟨hconfined, rfl, rfl⟩⟩
  · next statement hparse => exact .inr ⟨_, hparse, conducts_statement h hconfined statement⟩

end Build

end ByteBasic
