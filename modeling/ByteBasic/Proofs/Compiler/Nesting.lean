import ByteBasic.Proofs.Compiler.Sequencing
import ByteBasic.Proofs.Compiler.Standing
import ByteBasic.Proofs.Source.Meaning

/-!
# Blocks are nested

What the lines of a program say is enough to tell whether its blocks are nested properly
(`Source.Program.nesting`): an `end` closes the innermost block, an `else` belongs to the innermost
block if that is an `if` without one, and only one function can be open at a time. The compiler
keeps a stack of blocks and, apart from it, the stream that is open. It never asks the one about the
other, so that the two agree has to be shown (`Session.Layered`).

**Theorem (`blocks_are_nested`).** A source that is compiled has its blocks nested and closed. Between
any two lines of any source, a function's stream is open exactly while a block of that function is,
which is never more than one; within a line this holds wherever an item is put out, if the block that
the line opens or closes counts as open. The items of an `else` and an `end` go to the stream that
those of the opening line went to. A source whose lines are all compiled but leave blocks open is
refused for the innermost of them.
-/

namespace ByteBasic

/-! ## What is nested -/

namespace Source

def Opener.keyword : Opener → String
  | .branch => "if"
  | .loop => "while"
  | .function => "function"

/-- An open block. -/
structure Frame where
  opener : Opener
  /-- The number of the line that opened the block. -/
  line : Nat
  /-- Whether the block has come to its `else`. -/
  hasElse : Bool
  deriving DecidableEq

def inFunction (frames : List Frame) : Bool :=
  frames.any fun frame => frame.opener = .function

/-- The blocks that are open behind a line, the innermost first, unless the line must not stand
there. -/
def nest (number : Nat) (frames : List Frame) : Option Statement → Option (List Frame)
  | some (.ifBlock _) => some (⟨.branch, number, false⟩ :: frames)
  | some (.loop _) => some (⟨.loop, number, false⟩ :: frames)
  | some (.function _) =>
    if inFunction frames then none else some (⟨.function, number, false⟩ :: frames)
  | some .otherwise =>
    match frames with
    | ⟨.branch, line, false⟩ :: outer => some (⟨.branch, line, true⟩ :: outer)
    | _ => none
  | some .close =>
    match frames with
    | _ :: outer => some outer
    | [] => none
  | some .ret => if inFunction frames then some frames else none
  | _ => some frames

/-- The blocks that are open behind the last line, if everything before stands where it may. -/
def Program.nesting (program : Program) : Option (List Frame) :=
  (program.zipIdx 1).foldlM (fun frames (said, number) => nest number frames said) []

theorem Program.nesting_concat (program : Program) (said : Option Statement) :
    Program.nesting (program ++ [said]) =
      (Program.nesting program).bind fun frames => nest (program.length + 1) frames said := by
  unfold Program.nesting
  rw [List.zipIdx_append, List.foldlM_append]
  simp [Nat.add_comm]

/-- A further line is read after all lines before it. -/
theorem program_concat {lines : List String} {program : Program} {text : String}
    {said : Option Statement} (h : Source.program lines = .ok program)
    (htext : Statement.parse text.toList = .ok said) :
    Source.program (lines ++ [text]) = .ok (program ++ [said]) := by
  unfold Source.program at h ⊢
  rw [List.mapM_append, h, List.mapM_cons, htext, List.mapM_nil]
  rfl

end Source

open Source (Frame inFunction nest)

/-- What the source shows of a block. -/
def Block.frame (block : Block) : Frame :=
  match block.kind with
  | .branch _ hasElse => ⟨.branch, block.line, hasElse⟩
  | .loop _ => ⟨.loop, block.line, false⟩
  | .function _ => ⟨.function, block.line, false⟩

theorem Block.keyword_frame (block : Block) : block.frame.opener.keyword = block.keyword := by
  unfold Block.frame Block.keyword
  cases block.kind <;> rfl

theorem Block.line_frame (block : Block) : block.frame.line = block.line := by
  unfold Block.frame
  cases block.kind <;> rfl

theorem Block.opener_frame (block : Block) :
    block.frame.opener = .function ↔ ∃ id, block.kind = .function id := by
  unfold Block.frame
  cases block.kind <;> simp

theorem inFunction_frames {blocks : List Block} :
    inFunction (blocks.map Block.frame) = true ↔
      ∃ block ∈ blocks, ∃ id, block.kind = .function id := by
  simp [inFunction, Block.opener_frame]

/-! ## Streams -/

namespace Session

variable {lines : List String} {count number : Nat} {session before after : Session} {text : String}
  {block : Block} {blocks outer : List Block} {stream : Scope}

/-- A line opened the block, and put the items of the block into this stream. -/
def OpenedIn (lines : List String) (stream : Scope) (block : Block) : Prop :=
  ∃ index before text, Reached lines index before ∧ lines[index]? = some text ∧
    block.line = index + 1 ∧
    let items := turning ((Build.line text (index + 1)).run before.state).output
    (stream, .label block.main (index + 1)) ∈ items ∧ ∀ entry ∈ items, entry.1 = stream

/-- The stream that is open agrees with the open blocks: each block is in the stream that was open
when it was the innermost one. -/
def Layered (lines : List String) : List Block → Scope → Prop
  | [], stream => stream = .global
  | block :: outer, stream => OpenedIn lines stream block ∧
      (∀ id, block.kind = .function id → stream = .function id) ∧
      Layered lines outer (Build.streamBehind block stream)

theorem streamBehind_function {id : FunctionId} (h : block.kind = .function id) :
    Build.streamBehind block stream = .global := by
  simp [Build.streamBehind, Build.isFunctionBlock, h]

theorem streamBehind_other (h : ∀ id, block.kind ≠ .function id) :
    Build.streamBehind block stream = stream := by
  unfold Build.streamBehind Build.isFunctionBlock
  cases hkind : block.kind with
  | function id => exact absurd hkind (h id)
  | branch _ _ => rfl
  | loop _ => rfl

/-- While code goes to the global stream, no function is open. -/
theorem Layered.global (h : Layered lines blocks .global) :
    ∀ block ∈ blocks, ∀ id, block.kind ≠ .function id := by
  induction blocks with
  | nil => exact fun _ hmem => by cases hmem
  | cons first outer ih =>
    obtain ⟨-, hfunction, houter⟩ := h
    have hfirst : ∀ id, first.kind ≠ .function id := fun id hid => by cases hfunction id hid
    rw [streamBehind_other hfirst] at houter
    exact List.forall_mem_cons.2 ⟨hfirst, ih houter⟩

/-- The stream of a function is open exactly while a block of the function is. -/
theorem Layered.function_iff (h : Layered lines blocks stream) (id : FunctionId) :
    stream = .function id ↔ ∃ block ∈ blocks, block.kind = .function id := by
  induction blocks generalizing stream with
  | nil =>
    obtain rfl : stream = .global := h
    simp
  | cons first outer ih =>
    obtain ⟨-, hfunction, houter⟩ := h
    by_cases hfirst : ∃ own, first.kind = .function own
    · obtain ⟨own, hown⟩ := hfirst
      -- Outside a function everything is global, so it is the only one that is open.
      rw [streamBehind_function hown] at houter
      rw [hfunction own hown]
      constructor
      · rintro ⟨⟩
        exact ⟨first, List.mem_cons_self, hown⟩
      · rintro ⟨block, hmem, hkind⟩
        rcases List.mem_cons.1 hmem with rfl | hmem
        · rw [hown] at hkind
          cases hkind
          rfl
        · exact absurd hkind (houter.global block hmem id)
    · have hother : ∀ own, first.kind ≠ .function own := fun own hown => hfirst ⟨own, hown⟩
      -- Any other block is in the stream that was open before it.
      rw [streamBehind_other hother] at houter
      rw [ih houter]
      constructor
      · rintro ⟨block, hmem, hkind⟩
        exact ⟨block, List.mem_cons_of_mem _ hmem, hkind⟩
      · rintro ⟨block, hmem, hkind⟩
        rcases List.mem_cons.1 hmem with rfl | hmem
        · exact absurd hkind (hother id)
        · exact ⟨block, hmem, hkind⟩

theorem Layered.functions_le_one (h : Layered lines blocks stream) :
    (blocks.filter Build.isFunctionBlock).length ≤ 1 := by
  induction blocks generalizing stream with
  | nil => exact Nat.zero_le _
  | cons first outer ih =>
    obtain ⟨-, -, houter⟩ := h
    rw [List.filter_cons]
    split
    · next hfunction =>
      rw [Build.streamBehind, if_pos hfunction] at houter
      have hnone : outer.filter Build.isFunctionBlock = [] := by
        refine List.filter_eq_nil_iff.2 fun block hmem hblock => ?_
        unfold Build.isFunctionBlock at hblock
        split at hblock
        · next id hkind => exact houter.global block hmem id hkind
        · cases hblock
      rw [hnone]
      exact Nat.le_refl 1
    · exact ih houter

theorem Layered.tallies (h : Layered lines blocks stream) : Tallies stream blocks :=
  ⟨h.function_iff, h.functions_le_one⟩

/-! ## One line -/

variable {start finish : Control} {items : List (Scope × Item)} {statement : Statement}

/-- What a line does to the open blocks is what the source says. -/
theorem Layered.nest (h : Layered lines start.blocks start.current)
    (hsteered : Build.Steered number start finish items statement) :
    Source.nest number (start.blocks.map Block.frame) (some statement) =
      some (finish.blocks.map Block.frame) := by
  cases statement with
  | ifBlock condition =>
    obtain ⟨name, block, labels, hnew, rfl, -⟩ := hsteered
    cases hnew
    rfl
  | loop condition =>
    obtain ⟨name, block, check, labels, hnew, rfl, -⟩ := hsteered
    cases hnew
    rfl
  | function name =>
    obtain ⟨hglobal, block, labels, hnew, rfl, -⟩ := hsteered
    cases hnew
    rw [hglobal] at h
    -- Code goes to the global stream, so no frame is a function's.
    have hnone : inFunction (start.blocks.map Block.frame) = false := by
      rw [← Bool.not_eq_true, inFunction_frames]
      rintro ⟨block, hmem, id, hkind⟩
      exact h.global block hmem id hkind
    simp only [Source.nest, hnone]
    rfl
  | ret =>
    obtain ⟨hlocal, rfl, -⟩ := hsteered
    -- Code goes to the stream of a function, which is among the frames.
    have hsome : inFunction (finish.blocks.map Block.frame) = true := by
      rw [inFunction_frames]
      cases hcurrent : finish.current with
      | global => exact absurd hcurrent hlocal
      | function id =>
        obtain ⟨block, hmem, hkind⟩ := (h.function_iff id).1 hcurrent
        exact ⟨block, hmem, id, hkind⟩
    simp only [Source.nest, hsome]
    rfl
  | otherwise =>
    obtain ⟨block, outer, opened, chunk, hblocks, hopen, rfl, -⟩ := hsteered
    obtain ⟨otherwise, hkind, rfl, -⟩ := Block.openElse_eq_ok hopen
    -- An `else` is accepted by a branch without one, which is what its frame shows.
    rw [hblocks, List.map_cons, List.map_cons]
    simp only [Block.frame, hkind]
    rfl
  | close =>
    obtain ⟨block, outer, hblocks, rfl, -⟩ := hsteered
    rw [hblocks]
    rfl
  | goto name => rw [hsteered.1]; rfl
  | label name => rw [hsteered.1]; rfl
  | ifGoto condition name => rw [hsteered.1]; rfl
  | declare name value => rw [hsteered.1]; rfl
  | assign dest update => rw [hsteered.1]; rfl
  | halt => rw [hsteered.1]; rfl
  | exit code => rw [hsteered.1]; rfl
  | call name arguments => rw [hsteered.1]; rfl

/-- A line keeps the open stream and the open blocks in agreement. -/
theorem Layered.steered (h : Layered lines start.blocks start.current)
    (hsteered : Build.Steered number start finish items statement)
    (hopened : ∀ stream block, block.line = number → (stream, .label block.main number) ∈ items →
      (∀ entry ∈ items, entry.1 = stream) → OpenedIn lines stream block) :
    Layered lines finish.blocks finish.current := by
  cases statement with
  | ifBlock condition =>
    obtain ⟨name, block, labels, hnew, rfl, comparison, register, rfl⟩ := hsteered
    cases hnew
    exact ⟨hopened _ _ rfl (by simp) (by simp), fun _ hkind => (by cases hkind), h⟩
  | loop condition =>
    obtain ⟨name, block, check, labels, hnew, rfl, comparison, register, rfl⟩ := hsteered
    cases hnew
    exact ⟨hopened _ _ rfl (by simp) (by simp), fun _ hkind => (by cases hkind), h⟩
  | function name =>
    obtain ⟨hglobal, block, labels, hnew, rfl, rfl⟩ := hsteered
    cases hnew
    rw [hglobal] at h
    exact ⟨hopened _ _ rfl (by simp) (by simp), fun _ hkind => (by cases hkind; rfl), h⟩
  | otherwise =>
    obtain ⟨block, outer, opened, chunk, hblocks, hopen, rfl, -⟩ := hsteered
    obtain ⟨otherwise, hkind, rfl, -⟩ := Block.openElse_eq_ok hopen
    rw [hblocks] at h
    -- The branch keeps its main label, so the line that opened it is the same.
    obtain ⟨hin, -, houter⟩ := h
    rw [streamBehind_other fun id hid => by rw [hkind] at hid; cases hid] at houter
    exact ⟨hin, fun _ hkind => (by cases hkind), houter⟩
  | close =>
    obtain ⟨block, outer, hblocks, rfl, -⟩ := hsteered
    rw [hblocks] at h
    exact h.2.2
  | goto name => rw [hsteered.1]; exact h
  | label name => rw [hsteered.1]; exact h
  | ifGoto condition name => rw [hsteered.1]; exact h
  | ret => rw [hsteered.2.1]; exact h
  | declare name value => rw [hsteered.1]; exact h
  | assign dest update => rw [hsteered.1]; exact h
  | halt => rw [hsteered.1]; exact h
  | exit code => rw [hsteered.1]; exact h
  | call name arguments => rw [hsteered.1]; exact h

/-! ## All lines -/

/-- What holds of the open blocks between two lines. -/
structure Nests (lines : List String) (count : Nat) (session : Session) : Prop where
  layered : Layered lines session.state.blocks session.state.current
  nesting : ∃ program, Source.program (lines.take count) = .ok program ∧ program.length = count ∧
    Source.Program.nesting program = some (session.state.blocks.map Block.frame)

/-- One more line. -/
theorem Nests.line (h : Nests lines count before) (hreached : Reached lines count before)
    (htext : lines[count]? = some text) (hline : before.line text (count + 1) = (.ok (), after)) :
    Nests lines (count + 1) after.endStatement := by
  obtain ⟨said, hparse, hsteered, -⟩ := hreached.steered hline
  generalize after.endStatement = later at hsteered ⊢
  -- The source's own account of its blocks goes on by this one line.
  obtain ⟨program, hprogram, hlength, hnesting⟩ := h.nesting
  have hread : Source.program (lines.take (count + 1)) = .ok (program ++ [said]) := by
    rw [List.take_add_one, htext]
    exact Source.program_concat hprogram hparse
  have hnext : Source.Program.nesting (program ++ [said]) =
      Source.nest (count + 1) (before.state.blocks.map Block.frame) said := by
    rw [Source.Program.nesting_concat, hnesting, hlength]
    rfl
  have hlengths : (program ++ [said]).length = count + 1 := by
    rw [List.length_append, hlength]
    rfl
  -- The stack follows it: a blank line leaves both as they are, a statement changes both alike.
  cases said with
  | none =>
    obtain ⟨hsame, -⟩ := hsteered
    have hblocks : later.state.blocks = before.state.blocks := congrArg Control.blocks hsame
    have hcurrent : later.state.current = before.state.current := congrArg Control.current hsame
    refine ⟨?_, _, hread, hlengths, ?_⟩
    · rw [hblocks, hcurrent]
      exact h.layered
    · rw [hnext, hblocks]
      rfl
  | some statement =>
    refine ⟨h.layered.steered hsteered fun stream block hblock hmain hall => ?_, _, hread, hlengths,
      ?_⟩
    · exact ⟨count, before, text, hreached, htext, hblock, hmain, hall⟩
    · rw [hnext]
      exact h.layered.nest hsteered

theorem Reached.nests (h : Reached lines count session) : Nests lines count session := by
  induction h with
  | new => exact ⟨rfl, [], rfl, rfl, rfl⟩
  | line hbefore htext hline ih => exact ih.line hbefore htext hline

/-- Whatever lines are compiled or refused, the open stream agrees with the open blocks. -/
theorem layered_take (lines : List String) (count : Nat) :
    let state := (linesFrom lines (lines.take count) 1 .new).2.state
    Layered lines state.blocks state.current := by
  have hcount : lines.take (min count lines.length) = lines.take count := by
    rw [List.take_eq_take_iff]
    omega
  rcases take_cases lines _ (Nat.min_le_right count lines.length) with
    ⟨session, hall, hreached⟩ | ⟨index, before, text, error, after, -, hreached, -, hline, hall⟩
  · rw [hcount] at hall
    rw [hall]
    exact hreached.nests.layered
  · obtain ⟨-, hcurrent, hblocks⟩ := hreached.refused hline
    have hblocks' : after.state.blocks = before.state.blocks := hblocks
    have hcurrent' : after.state.current = before.state.current := hcurrent
    rw [hcount] at hall
    rw [hall]
    intro state
    rw [show state.blocks = before.state.blocks from hblocks',
      show state.current = before.state.current from hcurrent']
    exact hreached.nests.layered

theorem Reached.nesting (h : Reached lines lines.length session) :
    ∃ program, Source.program lines = .ok program ∧
      Source.Program.nesting program = some (session.state.blocks.map Block.frame) := by
  obtain ⟨program, hprogram, -, hnesting⟩ := h.nests.nesting
  rw [List.take_length] at hprogram
  exact ⟨program, hprogram, hnesting⟩

/-- Only a new function changes the stream on the way through a line. -/
theorem Reached.stream_eq (h : Reached lines count session) {statement : Statement}
    (hparse : Statement.parse text.toList = .ok (some statement))
    (hother : ∀ name, statement ≠ .function name) {emission : Emission}
    (hmem : .code emission ∈ ((Build.line text (count + 1)).run session.state).output) :
    emission.stream = session.state.current := by
  rcases h.conducts text with ⟨error, -, hno⟩ | ⟨said, hsaid, hconducts⟩
  · rw [hparse] at hno
    cases hno
  · rw [hparse] at hsaid
    cases hsaid
    rcases (hconducts.emissions emission hmem).2.1 with hstream | ⟨⟨name, hname⟩, -⟩
    · exact hstream
    · cases hname
      exact absurd rfl (hother name)

theorem finish_of_open (h : session.state.blocks = block :: outer)
    (hline : IsLine lines block.line) :
    ∃ index, ∃ h : index < lines.length, block.line = index + 1 ∧
      session.finish lines =
        .error ⟨.unterminated block.keyword, some ⟨index + 1, lines[index]⟩⟩ := by
  obtain ⟨index, hlt, hsource⟩ := sourceLine_of_isLine hline
  refine ⟨index, hlt, congrArg SourceLine.number hsource, ?_⟩
  unfold finish
  rw [h]
  simp only [blame]
  rw [Report.orLine_ofCause (fun hno => by cases hno), hsource]

end Session

/-- **Blocks are nested.** A source that is compiled has its blocks nested, and all are closed.
Whatever a source is, between lines, that is after any number of them, also if the last is refused: a
function's stream is open exactly while a block of that function is open, and at most one such block
is. In the middle of a line the stream and the stack of blocks are changed one after the other: where
a `function` puts out its label, the stream is already its own but its block is not on the stack yet,
and where the `end` of a function puts out its items, the block is no longer there. With that block
counted in, the same holds wherever an item is put out. What an `else` or `end` puts out goes to the
stream that the innermost block's opening line put its labels and its test into. If all lines are
compiled and leave blocks open, the source is refused for the innermost of them, by its word and its
line. -/
theorem blocks_are_nested (source : String) :
    let lines := Text.lines source
    (∀ image, compile source = .ok image →
      ∃ program, Source.program lines = .ok program ∧ Source.Program.nesting program = some []) ∧
    (∀ count,
      let state := (Session.linesFrom lines (lines.take count) 1 .new).2.state
      (∀ id, state.current = .function id ↔ ∃ block ∈ state.blocks, block.kind = .function id) ∧
      (state.blocks.filter Build.isFunctionBlock).length ≤ 1) ∧
    (∀ count text before emission, lines[count]? = some text →
      Session.linesFrom lines (lines.take count) 1 .new = (.ok (), before) →
      .code emission ∈ ((Build.line text (count + 1)).run before.state).output →
      ∃ statement pending, Statement.parse text.toList = .ok (some statement) ∧
        Pending (count + 1) statement before.state.blocks pending ∧
        Tallies emission.stream (pending ++ emission.state.blocks)) ∧
    (∀ count text before block outer, lines[count]? = some text →
      Session.linesFrom lines (lines.take count) 1 .new = (.ok (), before) →
      before.state.blocks = block :: outer →
      Statement.parse text.toList = .ok (some .otherwise) ∨
        Statement.parse text.toList = .ok (some .close) →
      (∀ emission, .code emission ∈ ((Build.line text (count + 1)).run before.state).output →
        emission.stream = before.state.current) ∧
      ∃ index opening begun, lines[index]? = some opening ∧
        Session.linesFrom lines (lines.take index) 1 .new = (.ok (), begun) ∧
        block.line = index + 1 ∧
        let items := turning ((Build.line opening (index + 1)).run begun.state).output
        (before.state.current, .label block.main (index + 1)) ∈ items ∧
          ∀ entry ∈ items, entry.1 = before.state.current) ∧
    (∀ session, Session.linesFrom lines lines 1 .new = (.ok (), session) →
      ∃ program frames, Source.program lines = .ok program ∧
        Source.Program.nesting program = some frames ∧
        ∀ frame outer, frames = frame :: outer →
          ∃ index, ∃ h : index < lines.length, frame.line = index + 1 ∧ compile source =
            .error ⟨.unterminated frame.opener.keyword, some ⟨index + 1, lines[index]⟩⟩) := by
  intro lines
  refine ⟨fun image himage => ?_, fun count => ?_, ?_, ?_, fun session hall => ?_⟩
  · -- A source that is compiled leaves no block open.
    obtain ⟨session, hall, hfinish⟩ := compile_eq_ok himage
    obtain ⟨program, hprogram, hnesting⟩ := (Session.reached_all hall).nesting
    rw [Session.blocks_of_finish hfinish] at hnesting
    exact ⟨program, hprogram, hnesting⟩
  · have hlayered := Session.layered_take lines count
    exact ⟨hlayered.function_iff, hlayered.functions_le_one⟩
  · -- Inside a line, blocks and stream may be out of step for the items of that line.
    intro count text before emission htext hbefore hmem
    have hcount : count ≤ lines.length := Nat.le_of_lt (List.getElem?_eq_some_iff.1 htext).1
    have hreached := Session.reached_of_linesFrom hcount hbefore
    exact Build.shown_line hreached.nests.layered.tallies text emission hmem
  · -- An `else` and an `end` find their block's stream open, and stay in it.
    intro count text before block outer htext hbefore hblocks hparse
    have hcount : count ≤ lines.length := Nat.le_of_lt (List.getElem?_eq_some_iff.1 htext).1
    have hreached := Session.reached_of_linesFrom hcount hbefore
    constructor
    · intro emission hmem
      rcases hparse with hparse | hparse
      · exact hreached.stream_eq hparse (fun name hno => by cases hno) hmem
      · exact hreached.stream_eq hparse (fun name hno => by cases hno) hmem
    · have hlayered := hreached.nests.layered
      rw [hblocks] at hlayered
      obtain ⟨index, begun, opening, hbegun, hopening, hline, hitems⟩ := hlayered.1
      exact ⟨index, opening, begun, hopening, hbegun.linesFrom_eq.2, hline, hitems⟩
  · -- The frames left open are those of the stack, so the innermost block is the one blamed.
    have hreached := Session.reached_all hall
    obtain ⟨program, hprogram, hnesting⟩ := hreached.nesting
    refine ⟨program, _, hprogram, hnesting, fun frame outer hframes => ?_⟩
    obtain ⟨block, blocks, hblocks, rfl, -⟩ := List.map_eq_cons_iff.1 hframes
    obtain ⟨index, hlt, hline, hfinish⟩ := Session.finish_of_open hblocks
      (hreached.inRange.state.blocks block (by simp [hblocks])).line
    refine ⟨index, hlt, ?_, ?_⟩
    · rw [block.line_frame, hline]
    · rw [compile_eq_finish hall, hfinish, block.keyword_frame]

/-- A function inside an `if` that has an `else`: the branch that follows the function is global
code again. Without what comes after the function's first line, the function is what is left
open. -/
theorem blocks_are_nested_function :
    let source := "var a\nif a == 0\nfunction f()\nreturn\nend\nelse\nend"
    let lines := Text.lines source
    let before := (Session.linesFrom lines (lines.take 5) 1 .new).2
    let start := "var a\nif a == 0\nfunction f()"
    (∃ program, Source.program lines = .ok program ∧ Source.Program.nesting program = some []) ∧
    (∃ emission, .code emission ∈ ((Build.line "else" 6).run before.state).output ∧
      emission.stream = .global) ∧
    ∃ line, line.number = 3 ∧ compile start = .error ⟨.unterminated "function", some line⟩ := by
  intro source lines before start
  have hcompiled : (compile source).toOption.isSome = true := by decide +kernel
  have hresult : (Session.linesFrom lines (lines.take 5) 1 .new).1.toOption = some () := by
    decide +kernel
  have hopen : before.state.blocks ≠ [] := by decide +kernel
  have helse : (Statement.parse "else".toList).toOption = some (some .otherwise) := by
    decide +kernel
  have hout : ∃ event ∈ ((Build.line "else" 6).run before.state).output,
      event.emission?.isSome = true := by decide +kernel
  have hstart : (Session.linesFrom (Text.lines start) (Text.lines start) 1 .new).1.toOption =
      some () := by decide +kernel
  have hframes : (Source.program (Text.lines start)).toOption.bind Source.Program.nesting =
      some [⟨.function, 3, false⟩, ⟨.branch, 2, false⟩] := by decide +kernel
  have hpassed : ∀ {α β γ : Type} {outcome : Except α β × γ} {b : β}, outcome.1.toOption = some b →
      outcome = (.ok b, outcome.2) := by
    rintro α β γ ⟨error | b, c⟩ b' h <;> cases h
    rfl
  refine ⟨?_, ?_, ?_⟩
  · cases himage : compile source with
    | error report =>
      rw [himage] at hcompiled
      cases hcompiled
    | ok image => exact (blocks_are_nested source).1 image himage
  · -- The `else` comes behind the function, where the branch is the innermost block again.
    obtain ⟨block, outer, hblocks⟩ := List.exists_cons_of_ne_nil hopen
    obtain ⟨event, hmem, hcode⟩ := hout
    have hparse : Statement.parse "else".toList = .ok (some .otherwise) := by
      cases hsaid : Statement.parse "else".toList with
      | error fault =>
        rw [hsaid] at helse
        cases helse
      | ok said =>
        rw [hsaid] at helse
        cases helse
        rfl
    obtain ⟨hstreams, -⟩ := (blocks_are_nested source).2.2.2.1 5 "else" before block outer
      (by decide +kernel) (hpassed hresult) hblocks (.inl hparse)
    cases event with
    | note n => cases hcode
    | code emission =>
      exact ⟨emission, hmem, (hstreams emission hmem).trans (by decide +kernel)⟩
  · -- Two blocks are left open; the function is the inner one.
    obtain ⟨program, frames, hprogram, hnesting, hrefused⟩ :=
      (blocks_are_nested start).2.2.2.2 _ (hpassed hstart)
    rw [hprogram] at hframes
    obtain rfl : frames = _ := Option.some.inj (hnesting.symm.trans hframes)
    obtain ⟨index, hlt, hline, hcompile⟩ := hrefused _ _ rfl
    exact ⟨_, hline.symm, hcompile⟩

end ByteBasic
