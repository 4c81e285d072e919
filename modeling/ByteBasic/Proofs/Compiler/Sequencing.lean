import ByteBasic.Proofs.Compiler.Steering

/-!
# Line after line

`Session.Reached lines count session` says that the first lines of a source are compiled and leave
this session. What holds of every such session is proved by induction on it, with one line as the
step. Compiling any number of lines gets through all of them, or stops at a line that is refused in
a session that was reached (`take_cases`), so what is said of whole sources follows from what holds
of a line.

**Theorem (`Reached.conducts`).** In every session that is reached, only variables that can be seen
are held in registers, so the next line is refused or does to control what it says.
-/

namespace ByteBasic

namespace Session

variable {lines : List String} {count : Nat} {session before after : Session} {text : String}

/-! ## Reached sessions -/

/-- The first lines of a source are compiled and leave this session. -/
inductive Reached (lines : List String) : Nat → Session → Prop
  | new : Reached lines 0 .new
  | line {count : Nat} {before after : Session} {text : String} :
      Reached lines count before → lines[count]? = some text →
      before.line text (count + 1) = (.ok (), after) →
      Reached lines (count + 1) after.endStatement

theorem linesFrom_succ (hbefore : linesFrom lines (lines.take count) 1 .new = (.ok (), before))
    (htext : lines[count]? = some text) :
    linesFrom lines (lines.take (count + 1)) 1 .new =
      linesFrom lines [text] (count + 1) before := by
  obtain ⟨hcount, rfl⟩ := List.getElem?_eq_some_iff.1 htext
  rw [List.take_succ_eq_append_getElem hcount, linesFrom_append _ hbefore,
    List.length_take_of_le (Nat.le_of_lt hcount), Nat.add_comm 1 count]

theorem Reached.linesFrom_eq (h : Reached lines count session) :
    count ≤ lines.length ∧ linesFrom lines (lines.take count) 1 .new = (.ok (), session) := by
  induction h with
  | new => exact ⟨Nat.zero_le _, rfl⟩
  | line _ htext hline ih =>
    refine ⟨(List.getElem?_eq_some_iff.1 htext).1, ?_⟩
    rw [linesFrom_succ ih.2 htext, linesFrom_cons_ok hline]
    rfl

/-- Compiling some of the lines gets through all of them or stops at one that is refused. -/
theorem take_cases (lines : List String) (count : Nat) (hcount : count ≤ lines.length) :
    (∃ session, linesFrom lines (lines.take count) 1 .new = (.ok (), session) ∧
      Reached lines count session) ∨
    ∃ index before text error after, index < count ∧ Reached lines index before ∧
      lines[index]? = some text ∧ before.line text (index + 1) = (.error error, after) ∧
      linesFrom lines (lines.take count) 1 .new =
        (.error (blame lines (index + 1) error), after) := by
  induction count with
  | zero => exact .inl ⟨.new, rfl, .new⟩
  | succ count ih =>
    have htext : lines[count]? = some lines[count] := List.getElem?_eq_getElem hcount
    rcases ih (Nat.le_of_lt hcount) with ⟨before, hbefore, hreached⟩ | hrefused
    · rw [linesFrom_succ hbefore htext]
      rcases hline : before.line lines[count] (count + 1) with ⟨error | _, after⟩
      · rw [linesFrom_cons_error hline]
        exact .inr ⟨count, before, _, error, after, Nat.lt_succ_self count, hreached, htext, hline,
          rfl⟩
      · rw [linesFrom_cons_ok hline]
        exact .inl ⟨_, rfl, .line hreached htext hline⟩
    · obtain ⟨index, before, text, error, after, hlt, hreached, hindex, hline, htake⟩ := hrefused
      refine .inr ⟨index, before, text, error, after, Nat.lt_succ_of_lt hlt, hreached, hindex,
        hline, ?_⟩
      rw [List.take_succ_eq_append_getElem hcount]
      exact linesFrom_append_error _ htake

theorem reached_of_linesFrom (hcount : count ≤ lines.length)
    (h : linesFrom lines (lines.take count) 1 .new = (.ok (), session)) :
    Reached lines count session := by
  rcases take_cases lines count hcount with ⟨other, hother, hreached⟩ | hrefused
  · rw [h] at hother
    cases hother
    exact hreached
  · obtain ⟨_, _, _, _, _, _, _, _, _, htake⟩ := hrefused
    rw [h] at htake
    cases htake

/-- A session that has got through all lines was reached. -/
theorem reached_all (h : linesFrom lines lines 1 .new = (.ok (), session)) :
    Reached lines lines.length session := by
  refine reached_of_linesFrom (Nat.le_refl _) ?_
  rwa [List.take_length]

theorem Reached.guarded (h : Reached lines count session) : session.Guarded lines count := by
  obtain ⟨hcount, hsession⟩ := h.linesFrom_eq
  exact (guarded_take lines count hcount).2 session hsession

theorem Reached.housed (h : Reached lines count session) : session.state.storage.Housed :=
  h.guarded.housed

theorem Reached.inRange (h : Reached lines count session) : session.InRange count := by
  obtain ⟨hcount, hsession⟩ := h.linesFrom_eq
  have hruns := runs_new (List.length_take_le' count lines)
  rw [hsession, List.length_take_of_le hcount] at hruns
  exact hruns.ok rfl

/-! ## Between two lines -/

theorem run_of_line {number : Nat} (h : before.line text number = (.ok (), after)) :
    ((Build.line text number).run before.state).result = .ok () ∧
      ((Build.line text number).run before.state).state = after.state ∧
      after.events = before.events ++ ((Build.line text number).run before.state).output :=
  ⟨congrArg Prod.fst h, congrArg (fun p => p.2.state) h, congrArg (fun p => p.2.events) h.symm⟩

theorem Reached.housed_line (h : Reached lines count before)
    (hline : before.line text (count + 1) = (.ok (), after)) : after.state.storage.Housed := by
  obtain ⟨hresult, hstate, -⟩ := run_of_line hline
  rw [← hstate]
  exact (Build.guards_line h.housed text (count + 1)).ok () hresult

theorem control_endStatement (session : Session) :
    session.endStatement.state.control = session.state.control := by
  obtain ⟨storage, -, hend⟩ := session.endStatement_eq
  rw [hend]
  rfl

theorem events_endStatement (session : Session) : session.endStatement.events = session.events := by
  obtain ⟨storage, -, hend⟩ := session.endStatement_eq
  rw [hend]

theorem within_endStatement (h : session.state.storage.Housed)
    (hconfined : session.state.Confined) : session.state.Within session.endStatement.state := by
  have hsame := (Storage.keeps_endStatement h.coherent).same
  have hregister := Storage.register_endStatement session.state.storage
  obtain ⟨storage, hstorage, hend⟩ := session.endStatement_eq
  rw [← hstorage] at hsame hregister
  rw [hend]
  refine ⟨hsame, rfl, fun id hid => hconfined id ?_⟩
  rw [← hregister id]
  exact hid

/-- Between two lines, only variables that can be seen are held in registers. -/
theorem Reached.confined (h : Reached lines count session) : session.state.Confined := by
  induction h with
  | new => exact fun id hid => absurd rfl hid
  | line hbefore htext hline ih =>
    obtain ⟨hresult, hstate, -⟩ := run_of_line hline
    rcases Build.conducts_line hbefore.housed ih _ with ⟨error, hrun, -⟩ | ⟨said, -, hconducts⟩
    · rw [hrun] at hresult
      cases hresult
    · have hconfined := (hconducts.ok hresult).1
      rw [hstate] at hconfined
      exact (within_endStatement (hbefore.housed_line hline) hconfined).confined'

/-- In a session that was reached, the next line is refused or does to control what it says. -/
theorem Reached.conducts (h : Reached lines count session) (text : String) :
    (∃ error, (Build.line text (count + 1)).run session.state =
        ⟨.error (.malformed error), session.state, []⟩ ∧
      Statement.parse text.toList = .error error) ∨
    ∃ said, Statement.parse text.toList = .ok said ∧
      Build.Conducts (count + 1) said session.state
        ((Build.line text (count + 1)).run session.state) :=
  Build.conducts_line h.housed h.confined text

/-- A line that is compiled does to control what it says. -/
theorem Reached.steered (h : Reached lines count before)
    (hline : before.line text (count + 1) = (.ok (), after)) :
    ∃ said, Statement.parse text.toList = .ok said ∧
      Build.SteeredLine (count + 1) before.state.control after.endStatement.state.control
        (turning ((Build.line text (count + 1)).run before.state).output) said ∧
      turning after.endStatement.events = turning before.events ++
        turning ((Build.line text (count + 1)).run before.state).output := by
  obtain ⟨hresult, hstate, hevents⟩ := run_of_line hline
  rw [control_endStatement, events_endStatement, hevents, turning_append]
  rcases h.conducts text with ⟨error, hrun, -⟩ | ⟨said, hparse, hconducts⟩
  · rw [hrun] at hresult
    cases hresult
  have hsteered := (hconducts.ok hresult).2
  rw [hstate] at hsteered
  exact ⟨said, hparse, hsteered, rfl⟩

/-- A line that is refused, for another reason than a jump, leaves the open blocks and the open
stream. -/
theorem Reached.refused (h : Reached lines count before) {error : CompileError}
    (hline : before.line text (count + 1) = (.error error, after)) :
    error.kind ≠ .jump ∧ Build.Kept before.state.control after.state.control := by
  have hresult : ((Build.line text (count + 1)).run before.state).result = .error error :=
    congrArg Prod.fst hline
  have hstate : ((Build.line text (count + 1)).run before.state).state = after.state :=
    congrArg (fun p => p.2.state) hline
  rw [← hstate]
  rcases h.conducts text with ⟨fault, hrun, -⟩ | ⟨said, -, hconducts⟩
  · rw [hrun] at hresult ⊢
    cases hresult
    refine ⟨?_, rfl, rfl⟩
    cases fault <;> exact fun hno => by cases hno
  · exact hconducts.failed error hresult

theorem Reached.extends_line (h : Reached lines count session) (text : String) :
    session.state.storage.Extends (session.line text (count + 1)).2.state.storage := by
  unfold Session.line
  rcases h.conducts text with ⟨error, hrun, -⟩ | ⟨said, -, hconducts⟩
  · rw [hrun]
    exact .refl _
  · exact hconducts.grows

end Session

end ByteBasic
