import ByteBasic.Proofs.Compiler.Guarding
import ByteBasic.Proofs.Compiler.Locality
import ByteBasic.Proofs.Compiler.Sessions

/-!
# Nothing is held where control turns

While a variable is held in a register, its slot may be out of date. Code that is entered from
elsewhere cannot know of it, so everything has to be in its slot at every label, jump, call and return,
and when code begins to go to another stream.

**Theorem (`settled_at_every_turn`).** Whatever the source is, and also if it is refused, the storage is
settled whenever an item is put out where control turns. A line after which code goes to another stream
leaves it settled, and puts all that was modified back within the stream that was open before.

The first part is `guards_line` from line to line (`Session.Guarded`). For the second, all that such a
line does after it has given up the registers is `Quiet`.
-/

namespace ByteBasic

open Storage (Housed Settled)

/-! ## Changing streams -/

namespace Build

variable {α β : Type} {state : BuildState}

/-- A step leaves the storage alone and puts out only items where control turns. -/
def Quiet (action : Build α) : Prop :=
  ∀ state, (action.run state).state.storage = state.storage ∧
    ∀ emission, .code emission ∈ (action.run state).output →
      emission.item.Turns ∧ emission.state.storage = state.storage

theorem Quiet.bind {action : Build α} {next : α → Build β} (h : Quiet action)
    (hnext : ∀ a, Quiet (next a)) : Quiet (action >>= next) := by
  intro state
  obtain ⟨hstorage, hout⟩ := h state
  rw [Action.run_bind]
  rcases hrun : action.run state with ⟨_ | a, middle, output⟩
  · rw [hrun] at hstorage hout
    exact ⟨hstorage, hout⟩
  · rw [hrun] at hstorage hout
    obtain ⟨hstorage', hout'⟩ := hnext a middle
    rw [hstorage] at hstorage' hout'
    rw [Outcome.andThen_ok]
    refine ⟨hstorage', fun emission hmem => ?_⟩
    exact (List.mem_append.1 hmem).elim (hout emission) (hout' emission)

theorem Quiet.get {next : BuildState → Build β} (h : ∀ state, Quiet (next state)) :
    Quiet (Action.get >>= next) := by
  intro state
  rw [Action.run_bind, Action.run_get, Outcome.andThen_ok_nil]
  exact h state state

theorem Quiet.pure (a : α) : Quiet (pure a) :=
  fun _ => ⟨rfl, fun _ h => (by cases h)⟩

theorem Quiet.fail (error : CompileError) : Quiet (Action.fail error : Build α) :=
  fun _ => ⟨rfl, fun _ h => (by cases h)⟩

theorem Quiet.modify_last {change : BuildState → BuildState}
    (h : ∀ state, (change state).storage = state.storage) : Quiet (Action.modify change) :=
  fun state => ⟨h state, fun _ h => (by cases h)⟩

theorem Quiet.modify {change : BuildState → BuildState} {next : Build β}
    (h : ∀ state, (change state).storage = state.storage) (hnext : Quiet next) :
    Quiet (Action.modify change >>= fun _ => next) :=
  (Quiet.modify_last h).bind fun _ => hnext

theorem quiet_emit {item : Item} (h : item.Turns) : Quiet (emit item) := by
  refine fun state => ⟨rfl, fun emission hmem => ?_⟩
  have hcode : BuildEvent.code emission ∈ [BuildEvent.code ⟨state, item, .statement⟩] := hmem
  obtain rfl : emission = ⟨state, item, .statement⟩ := by simpa using hcode
  exact ⟨h, rfl⟩

theorem quiet_emitAll {items : List Item} (h : ∀ item ∈ items, item.Turns) :
    Quiet (emitAll items) := by
  induction items with
  | nil => exact .pure _
  | cons item items ih =>
    exact (quiet_emit (h item (List.mem_cons_self ..))).bind fun _ =>
      ih fun other hother => h other (List.mem_cons_of_mem _ hother)

theorem quiet_openBlock (block : Block) (line : Nat) : Quiet (openBlock block line) :=
  (quiet_emit (show (Item.label block.main line).Turns from trivial)).bind fun _ =>
    .modify_last fun _ => rfl

theorem turns_close (block : Block) (line : Nat) : ∀ item ∈ block.close line, item.Turns := by
  unfold Block.close
  split <;> simp [Item.Turns]

/-- Nothing is held any more: all that was modified has been stored in the stream that was open, and
what else was put out found the storage as it is now. -/
structure HandsOver (before : BuildState) (outcome : Outcome CompileError BuildState BuildEvent α) :
    Prop where
  settled : outcome.state.storage.Settled
  stored : ∀ id r, (before.storage.get id).register = some r →
    (before.storage.get id).modified = true →
    .code ⟨before, .instruction (.store r.byte (before.storage.get id).address), .variable⟩ ∈
      outcome.output
  rest : ∀ emission, .code emission ∈ outcome.output →
    emission.state = before ∨
      emission.item.Turns ∧ emission.state.storage = outcome.state.storage

/-- Giving up the registers and then nothing but quiet steps. -/
theorem handsOver_flush (h : state.storage.Housed) {next : Unit → Build α}
    (hnext : ∀ a, Quiet (next a)) : HandsOver state ((flush >>= next).run state) := by
  obtain ⟨after, events, hrun, hmoves, hloose, hstored⟩ := Storage.moves_flush h
  have hflush : flush.run state = ⟨.ok (),
      { state with storage := after, codeSize := state.codeSize + storageSize events },
      events.map (ofStorageEvent state)⟩ := by
    simp only [flush, storing, Action.run]
    rw [show Storage.flush state.storage = ⟨.ok (), after, events⟩ from hrun]
    rfl
  rw [Action.run_bind, hflush, Outcome.andThen_ok]
  obtain ⟨hstorage, hout⟩ := hnext ()
    { state with storage := after, codeSize := state.codeSize + storageSize events }
  refine ⟨?_, fun id r hr hm => ?_, fun emission hmem => ?_⟩
  · rw [hstorage]
    exact hmoves.housed.settled hloose
  · -- A modified variable is stored by one of the instructions put out here.
    obtain ⟨event, hevent, heq⟩ := List.mem_filterMap.1 (hstored id r hr hm)
    cases event with
    | note n => cases heq
    | code i =>
      cases heq
      exact List.mem_append_left _ (List.mem_map.2 ⟨_, hevent, rfl⟩)
  · rcases List.mem_append.1 hmem with hmem | hmem
    · obtain ⟨event, -, heq⟩ := List.mem_map.1 hmem
      cases event with
      | note n => cases heq
      | code i =>
        cases heq
        exact .inl rfl
    · rw [hstorage]
      exact .inr (hout emission hmem)

theorem handsOver_defineFunction (h : state.storage.Housed) (name : String) (line : Nat)
    (hswitch : ((defineFunction name line).run state).state.current ≠ state.current) :
    HandsOver state ((defineFunction name line).run state) := by
  unfold defineFunction at hswitch ⊢
  rw [Action.run_bind, Action.run_get, Outcome.andThen_ok_nil] at hswitch ⊢
  split at hswitch
  · exact absurd rfl hswitch
  split at hswitch
  · exact absurd rfl hswitch
  split at hswitch
  · exact absurd rfl hswitch
  next hglobal hbuiltin hfunction =>
    rw [if_neg hglobal, if_neg hbuiltin, if_neg hfunction]
    exact handsOver_flush h fun _ => .get fun _ => .modify (fun _ => rfl) (quiet_openBlock _ _)

theorem handsOver_closeBlock (h : state.storage.Housed) (line : Nat) :
    HandsOver state ((closeBlock line).run state) := by
  refine handsOver_flush h fun _ => .get fun closing => ?_
  split
  · exact .fail _
  · refine .modify (fun _ => rfl) ((quiet_emitAll (turns_close _ line)).bind fun _ => ?_)
    split
    · exact .modify_last fun _ => rfl
    · exact .pure _

/-- Only a function that opens and a block that ends change the stream. -/
theorem handsOver_line (h : state.storage.Housed) (text : String) (number : Nat)
    (hswitch : ((line text number).run state).state.current ≠ state.current) :
    HandsOver state ((line text number).run state) := by
  unfold line at hswitch ⊢
  split at hswitch
  · exact absurd rfl hswitch
  · exact absurd rfl hswitch
  · next statement hparse =>
    cases statement with
    | function name => exact handsOver_defineFunction h name number hswitch
    | close => exact handsOver_closeBlock h number
    | _ => exact absurd (local_statement (fun _ heq => by cases heq) (fun heq => by cases heq)
        number state).1 hswitch

end Build

/-! ## From line to line -/

namespace Session

variable {all lines : List String} {session middle : Session} {count number : Nat}

theorem linesFrom_append {xs : List String} (ys : List String)
    (h : linesFrom all xs number session = (.ok (), middle)) :
    linesFrom all (xs ++ ys) number session = linesFrom all ys (number + xs.length) middle := by
  induction xs generalizing number session with
  | nil =>
    cases h
    rfl
  | cons text rest ih =>
    rcases hline : session.line text number with ⟨error | _, after⟩
    · rw [linesFrom_cons_error hline] at h
      cases h
    · rw [linesFrom_cons_ok hline] at h
      rw [List.cons_append, linesFrom_cons_ok hline, ih h, List.length_cons,
        Nat.add_right_comm, Nat.add_assoc]

theorem linesFrom_append_error {xs : List String} (ys : List String) {report : Report CompileError}
    (h : linesFrom all xs number session = (.error report, middle)) :
    linesFrom all (xs ++ ys) number session = (.error report, middle) := by
  induction xs generalizing number session with
  | nil => cases h
  | cons text rest ih =>
    rw [List.cons_append]
    rcases hline : session.line text number with ⟨error | _, after⟩
    · rw [linesFrom_cons_error hline] at h ⊢
      exact h
    · rw [linesFrom_cons_ok hline] at h ⊢
      exact ih h

/-- One of the first lines, when its turn comes, assigns to a memory cell that it names. -/
def AssignsCell (lines : List String) (count : Nat) (address : UInt8) : Prop :=
  ∃ index < count, ∃ text before, lines[index]? = some text ∧
    linesFrom lines (lines.take index) 1 .new = (.ok (), before) ∧
    Build.AssignsCell before.state text address

/-- What holds of a session after a number of lines, none of which was refused. -/
structure Guarded (lines : List String) (count : Nat) (session : Session) : Prop where
  housed : session.state.storage.Housed
  unplaced : session.state.labels.Unplaced
  emissions : ∀ emission ∈ session.emissions,
    emission.Guarded (AssignsCell lines count) ∧ emission.state.Later session.state

theorem guarded_new (lines : List String) : Guarded lines 0 .new where
  housed := Storage.housed_empty
  unplaced _ := rfl
  emissions _ h := by cases h

theorem Guarded.emissions_guarded (h : Guarded lines count session) :
    ∀ emission ∈ session.emissions, emission.Guarded (AssignsCell lines count) :=
  fun emission hmem => (h.emissions emission hmem).1

/-- What a line puts out is guarded, whether it is refused or not. -/
theorem Guarded.line_emissions (h : Guarded lines count session) {text : String}
    (hsession : linesFrom lines (lines.take count) 1 .new = (.ok (), session))
    (htext : lines[count]? = some text) :
    ∀ emission ∈ (session.line text (count + 1)).2.emissions,
      emission.Guarded (AssignsCell lines (count + 1)) ∧
        emission.state.Later (session.line text (count + 1)).2.state := by
  have hline := Build.guards_line h.housed text (count + 1)
  intro emission hmem
  rcases mem_emissions_append.1 hmem with hmem | hmem
  · obtain ⟨hguarded, hlater⟩ := h.emissions emission hmem
    refine ⟨hguarded.mono ?_, hlater.trans hline.later⟩
    rintro address ⟨index, hlt, hassigns⟩
    exact ⟨index, Nat.lt_succ_of_lt hlt, hassigns⟩
  · obtain ⟨hguarded, hlater⟩ := hline.emissions emission hmem
    refine ⟨hguarded.mono fun address hcell => ?_, hlater⟩
    exact ⟨count, Nat.lt_succ_self count, text, session, htext, hsession, hcell⟩

theorem Guarded.line (h : Guarded lines count session) {text : String} {after : Session}
    (hsession : linesFrom lines (lines.take count) 1 .new = (.ok (), session))
    (htext : lines[count]? = some text)
    (hline : session.line text (count + 1) = (.ok (), after)) :
    Guarded lines (count + 1) after.endStatement := by
  have hguards := Build.guards_line h.housed text (count + 1)
  have hemissions := h.line_emissions hsession htext
  have hok : ((Build.line text (count + 1)).run session.state).result = .ok () :=
    congrArg Prod.fst hline
  have hafter : (session.line text (count + 1)).2 = after := congrArg Prod.snd hline
  have hstate : ((Build.line text (count + 1)).run session.state).state = after.state :=
    congrArg Session.state hafter
  have hhoused := hguards.ok () hok
  have hlater := hguards.later
  rw [hafter] at hemissions
  rw [hstate] at hhoused hlater
  obtain ⟨storage, hstorage, hend⟩ := after.endStatement_eq
  rw [hend]
  have hended : storage.Housed := by
    rw [hstorage]
    exact hhoused.endStatement
  refine ⟨hended, hlater.labels h.unplaced, fun emission hmem => ?_⟩
  obtain ⟨hguarded, hlater'⟩ := hemissions emission hmem
  refine ⟨hguarded, ?_, hlater'.functions, hlater'.labels⟩
  rw [show storage.vars.length = after.state.storage.vars.length by
    rw [hstorage]
    exact (Storage.keeps_endStatement hhoused.coherent).same.length_eq]
  exact hlater'.vars

/-- All lines in turn. -/
theorem guarded_take (lines : List String) (count : Nat) (hcount : count ≤ lines.length) :
    (∀ emission ∈ (linesFrom lines (lines.take count) 1 .new).2.emissions,
      emission.Guarded (AssignsCell lines count)) ∧
    ∀ session, linesFrom lines (lines.take count) 1 .new = (.ok (), session) →
      Guarded lines count session := by
  induction count with
  | zero =>
    have hzero : linesFrom lines (lines.take 0) 1 .new = (.ok (), .new) := rfl
    rw [hzero]
    refine ⟨(guarded_new lines).emissions_guarded, fun session hsession => ?_⟩
    cases hsession
    exact guarded_new lines
  | succ count ih =>
    obtain ⟨hall, hguarded⟩ := ih (Nat.le_of_lt hcount)
    have htext : lines[count]? = some lines[count] := List.getElem?_eq_getElem hcount
    rw [List.take_succ_eq_append_getElem hcount]
    rcases hbefore : linesFrom lines (lines.take count) 1 .new with ⟨report | _, before⟩
    · rw [hbefore] at hall
      -- A line before was refused, so this one is not compiled.
      rw [linesFrom_append_error _ hbefore]
      refine ⟨fun emission hmem => (hall emission hmem).mono ?_, fun session hsession => ?_⟩
      · rintro address ⟨index, hlt, hassigns⟩
        exact ⟨index, Nat.lt_succ_of_lt hlt, hassigns⟩
      · cases hsession
    · have hnow := hguarded before hbefore
      have hemissions := hnow.line_emissions hbefore htext
      have hlength : (lines.take count).length = count :=
        List.length_take_of_le (Nat.le_of_lt hcount)
      rw [linesFrom_append _ hbefore, hlength, Nat.add_comm 1 count]
      rcases hline : before.line lines[count] (count + 1) with ⟨error | _, after⟩
      · rw [hline] at hemissions
        -- This line is refused; what it put out before that is guarded all the same.
        rw [linesFrom_cons_error hline]
        exact ⟨fun emission hmem => (hemissions emission hmem).1, fun _ hsession => by cases hsession⟩
      · have hafter := hnow.line hbefore htext hline
        rw [linesFrom_cons_ok hline, linesFrom]
        refine ⟨hafter.emissions_guarded, fun session hsession => ?_⟩
        rw [← (Prod.mk.inj hsession).2]
        exact hafter

end Session

/-- **Nothing is held where control turns.** Whatever a source is, and whether it is compiled or
refused: whenever a label, a jump, a comparison, a call or a return is put out, no register is a
variable's and no variable is modified. The same holds after every line that changes the stream, and
the line has put out, within the stream that was open before, a store for every variable that was
modified; all else that it puts out finds nothing held. -/
theorem settled_at_every_turn (source : String) :
    let lines := Text.lines source
    (∀ emission ∈ (Session.linesFrom lines lines 1 .new).2.emissions, emission.item.Turns →
      emission.state.storage.Settled) ∧
    ∀ count text before, lines[count]? = some text →
      Session.linesFrom lines (lines.take count) 1 .new = (.ok (), before) →
      let after := (before.line text (count + 1)).2
      after.state.current ≠ before.state.current →
        after.state.storage.Settled ∧ ∃ out, after.emissions = before.emissions ++ out ∧
          (∀ id r, (before.state.storage.get id).register = some r →
            (before.state.storage.get id).modified = true →
            ⟨before.state, .instruction (.store r.byte (before.state.storage.get id).address),
              .variable⟩ ∈ out) ∧
          ∀ emission ∈ out, emission.stream = before.state.current ∨
            emission.item.Turns ∧ emission.state.storage = after.state.storage := by
  intro lines
  constructor
  · intro emission hmem hturns
    have hall := (Session.guarded_take lines lines.length (Nat.le_refl _)).1
    rw [List.take_length] at hall
    exact (hall emission hmem).turns hturns
  · intro count text before htext hbefore after hswitch
    have hcount : count ≤ lines.length := Nat.le_of_lt (List.getElem?_eq_some_iff.1 htext).1
    have hguarded := (Session.guarded_take lines count hcount).2 before hbefore
    have hhands := Build.handsOver_line hguarded.housed text (count + 1) hswitch
    refine ⟨hhands.settled, _, List.filterMap_append, fun id r hr hm => ?_, fun emission hmem => ?_⟩
    · exact List.mem_filterMap.2 ⟨_, hhands.stored id r hr hm, rfl⟩
    · obtain ⟨event, hevent, heq⟩ := List.mem_filterMap.1 hmem
      cases event with
      | note n => cases heq
      | code e =>
        cases heq
        exact (hhands.rest _ hevent).imp_left (congrArg BuildState.current)

/-- A function that opens while a variable has a new value in its register. -/
theorem settled_at_every_turn_function :
    let lines := Text.lines "var n\nn = 1\nfunction f()\nend"
    let before := (Session.linesFrom lines (lines.take 2) 1 .new).2
    let after := (before.line "function f()" 3).2
    before.state.current = .global ∧ after.state.current = .function 0 ∧
      (before.state.storage.get 0).modified = true ∧ after.state.storage.Settled ∧
      ∃ emission ∈ after.emissions, emission.stream = .global ∧
        emission.item = .instruction (.store 1 255) := by
  intro lines before after
  have hresult : (Session.linesFrom lines (lines.take 2) 1 .new).1.toOption = some () := by
    decide +kernel
  have hbefore : Session.linesFrom lines (lines.take 2) 1 .new = (.ok (), before) := by
    refine Prod.ext ?_ rfl
    revert hresult
    cases (Session.linesFrom lines (lines.take 2) 1 .new).1 with
    | error report => exact fun h => by cases h
    | ok _ => exact fun _ => rfl
  have hglobal : before.state.current = .global := by decide +kernel
  have hfunction : after.state.current = .function 0 := by decide +kernel
  have hmodified : (before.state.storage.get 0).modified = true := by decide +kernel
  have hregister : (before.state.storage.get 0).register = some 1 := by decide +kernel
  have haddress : (before.state.storage.get 0).address = 255 := by decide +kernel
  have hswitch : after.state.current ≠ before.state.current := by
    rw [hglobal, hfunction]
    exact fun h => by cases h
  obtain ⟨hsettled, out, hout, hstored, -⟩ :=
    (settled_at_every_turn _).2 2 "function f()" before (by decide +kernel) hbefore hswitch
  have hstore := hstored 0 1 hregister hmodified
  rw [haddress] at hstore
  have hmem := List.mem_append_right before.emissions hstore
  rw [← hout] at hmem
  exact ⟨hglobal, hfunction, hmodified, hsettled, _, hmem, hglobal, rfl⟩

end ByteBasic
