import ByteBasic.Proofs.Compiler.Sequencing
import ByteBasic.Proofs.Program.Tracking

/-!
# What is known at a line of any source

Where a line stands in a source, and so which scope its names belong to, can be read off the lines
above it also if the source is refused further down, or there for what it says. A line that cannot be
read is the last that is looked at, so it may as well be blank (`Source.sayings`).

**Theorem (`Session.Reached.tracks`).** A compiler that has come to a line knows what can be read off
the lines above.

Functions are numbered in the order of their definition: lines in the body of one stand above lines in
the body of the next (`Source.Program.lt_of_scope`).
-/

namespace ByteBasic

namespace Source

/-- What each line of a source says, if a line that cannot be read says nothing. -/
def sayings (lines : List String) : Program :=
  lines.map fun text => (Statement.parse text.toList).toOption.join

/-- The scope that the names of a line belong to. -/
def scopeAt (lines : List String) (index : Nat) : Scope :=
  ((sayings lines).outline index).scope

theorem join_sayings {lines : List String} {index : Nat} {text : String} {said : Option Statement}
    (htext : lines[index]? = some text) (hparse : Statement.parse text.toList = .ok said) :
    ((sayings lines)[index]?).join = said := by
  simp [sayings, htext, hparse, Except.toOption]

/-! ## Functions in the order of their definition -/

namespace Outline

variable {outline : Outline}

/-- The open function is the newest one. -/
def Newest (outline : Outline) : Prop :=
  ∀ id, outline.scope = .function id → id + 1 = outline.functions.length

theorem Newest.of_eq {other : Outline} (h : outline.Newest) (hscope : other.scope = outline.scope)
    (hfunctions : other.functions = outline.functions) : other.Newest := by
  unfold Newest
  rw [hscope, hfunctions]
  exact h

theorem declare_eq (outline : Outline) (name : String) :
    (outline.declare name).scope = outline.scope ∧
      (outline.declare name).functions = outline.functions := by
  unfold declare
  split <;> exact ⟨rfl, rfl⟩

theorem functions_pop (outline : Outline) : outline.pop.functions = outline.functions := by
  unfold pop
  split <;> rfl

theorem scope_pop (outline : Outline) :
    outline.pop.scope = outline.scope ∨ outline.pop.scope = .global := by
  unfold pop
  split
  · exact .inl rfl
  · split
    · exact .inr rfl
    · exact .inl rfl

theorem Newest.advance (h : outline.Newest) (line : Nat) (said : Option Statement) :
    (outline.advance line said).Newest := by
  unfold Outline.advance
  split
  · exact h.of_eq (declare_eq _ _).1 (declare_eq _ _).2
  · exact h
  · exact h
  · intro id hid
    cases hid
    simp [push]
  · rcases outline.scope_pop with hscope | hscope
    · exact h.of_eq hscope outline.functions_pop
    · intro id hid
      rw [hscope] at hid
      cases hid
  · exact h

theorem functions_advance (outline : Outline) (line : Nat) (said : Option Statement) :
    outline.functions.length ≤ (outline.advance line said).functions.length := by
  unfold advance
  split
  · exact Nat.le_of_eq (congrArg List.length (declare_eq _ _).2).symm
  · exact Nat.le_refl _
  · exact Nat.le_refl _
  · exact (List.sublist_append_left _ _).length_le
  · exact Nat.le_of_eq (congrArg List.length outline.functions_pop).symm
  · exact Nat.le_refl _

end Outline

namespace Program

variable (program : Program) {line later : Nat}

theorem newest (line : Nat) : (program.outline line).Newest := by
  induction line with
  | zero => exact fun id hid => by cases hid
  | succ line ih => exact ih.advance line _

theorem functions_le (hle : line ≤ later) :
    (program.outline line).functions.length ≤ (program.outline later).functions.length := by
  induction hle with
  | refl => exact Nat.le_refl _
  | step _ ih => exact Nat.le_trans ih (Outline.functions_advance _ _ _)

/-- Lines of one function stand above lines of a later one. -/
theorem lt_of_scope {first second : FunctionId} (h : first < second)
    (hline : (program.outline line).scope = .function first)
    (hlater : (program.outline later).scope = .function second) : line < later := by
  have hfirst := program.newest line first hline
  have hsecond := program.newest later second hlater
  refine Nat.lt_of_not_le fun hle => ?_
  have hfunctions := program.functions_le hle
  rw [← hfirst, ← hsecond] at hfunctions
  exact absurd h (Nat.not_lt_of_le (Nat.le_of_succ_le_succ hfunctions))

end Program

end Source

/-! ## Sessions -/

namespace Session

variable {lines : List String} {count : Nat} {session : Session}

/-- What is known from the lines above is known to the compiler. -/
theorem Reached.tracks (h : Reached lines count session) :
    Tracks ((Source.sayings lines).outline count) session.state := by
  induction h with
  | new => exact ⟨rfl, rfl, rfl, rfl⟩
  | line hbefore htext hline ih =>
    obtain ⟨said, hparse, hreads⟩ := hbefore.inRange.reads hline
    obtain ⟨begun, hbegins, hc⟩ := hreads.begins
    rw [Source.Program.outline, Source.join_sayings htext hparse]
    exact (hbegins.tracks ih).continues hc

end Session

end ByteBasic
