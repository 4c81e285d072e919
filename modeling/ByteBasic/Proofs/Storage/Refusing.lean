import Mathlib.Control.Monad.Basic
import ByteBasic.Proofs.Storage.Ownership

/-!
# Refused requests

A load writes the variable back, loads it and binds it; picking a register may evict a variable. If
either failed after its first effect, code would be put out for a value that is nowhere expected. It
does not come to that: `load`, `pick`, `scratch` and `declare` look for what is in their way before
they do anything, and what comes after cannot fail (`Traceless`).

**Theorem (`refusals_leave_no_trace`).** Whatever was asked of a storage before, a request that is
refused puts nothing out and changes nothing; only a refused binding leaves its variable where it may
not be evicted. A load is refused exactly if somebody else has the register, and a register can be had
exactly if one of those asked for is not pinned.
-/

namespace ByteBasic.Storage

variable {α : Type} {storage : Storage} {id : VarId} {register : Register}

def Refused (action : StorageM α) (storage : Storage) : Prop :=
  ∃ error, (action.run storage).result = .error error

/-- If the request fails, it has put nothing out and changed nothing. -/
def Traceless (action : StorageM α) (storage : Storage) : Prop :=
  ∀ error, (action.run storage).result = .error error →
    action.run storage = ⟨.error error, storage, []⟩

section Outcomes

variable {action : StorageM α} {a : α} {error : StorageError} {after : Storage}
  {output : List StorageEvent}

theorem not_refused (h : action.run storage = ⟨.ok a, after, output⟩) : ¬ Refused action storage := by
  rintro ⟨error, herror⟩
  rw [h] at herror
  cases herror

theorem refused (h : action.run storage = ⟨.error error, after, output⟩) : Refused action storage :=
  ⟨error, by rw [h]⟩

theorem traceless_of_ok (h : action.run storage = ⟨.ok a, after, output⟩) :
    Traceless action storage :=
  fun error herror => absurd ⟨error, herror⟩ (not_refused h)

theorem traceless_of_error (h : action.run storage = ⟨.error error, storage, []⟩) :
    Traceless action storage := by
  intro other hother
  rw [h] at hother
  cases hother
  exact h

/-- What follows a request that leaves no trace and cannot fail itself leaves none either. -/
theorem Traceless.bind {β : Type} {next : α → StorageM β} (h : Traceless action storage)
    (hnext : ∀ a s, ¬ Refused (next a) s) :
    Traceless (action >>= next) storage ∧
      (Refused (action >>= next) storage ↔ Refused action storage) := by
  rcases hrun : action.run storage with ⟨error | a, after, output⟩
  · have hfirst := h error (by rw [hrun])
    have hall : (action >>= next).run storage = ⟨.error error, storage, []⟩ := by
      rw [Action.run_bind, hfirst, Outcome.andThen_error]
    exact ⟨traceless_of_error hall, fun _ => refused hfirst, fun _ => refused hall⟩
  · have hnot : ¬ Refused (action >>= next) storage := by
      rintro ⟨error, herror⟩
      rw [Action.run_bind, hrun, Outcome.andThen_ok] at herror
      exact hnext a after ⟨error, herror⟩
    exact ⟨fun error herror => absurd ⟨error, herror⟩ hnot,
      fun hrefused => absurd hrefused hnot, fun hrefused => absurd hrefused (not_refused hrun)⟩

end Outcomes

/-! ## The requests -/

theorem traceless_declare (storage : Storage) (name : String) (scope : Scope) (codeSize : Nat) :
    Traceless (declare name scope codeSize) storage := by
  cases hfind : storage.find? name scope with
  | some id =>
    have hrun : (declare name scope codeSize).run storage =
        ⟨.error (.duplicate name), storage, []⟩ := by
      simp [declare, hfind]
    exact traceless_of_error hrun
  | none =>
    rcases @run_declare _ _ _ codeSize hfind with ⟨note, -, hrun⟩ | hrun
    · exact traceless_of_ok hrun
    · exact traceless_of_error hrun

/-- A load is granted if the register is free or the variable's own, and is refused before it does
anything if it is not. -/
theorem load_cases (ha : storage.Agrees) (id : VarId) (register : Register) (keep : Bool) :
    Traceless (load id register keep) storage ∧
      (Refused (load id register keep) storage ↔
        ∃ owner, storage.owner register = some owner ∧ owner ≠ .variable id) := by
  rcases register_cases ha id register with hr | ⟨hne, free⟩ | ⟨hne, owner, howner, hother⟩
  · have hrun := run_load_here hr keep
    refine ⟨traceless_of_ok hrun, fun hrefused => absurd hrefused (not_refused hrun), ?_⟩
    rintro ⟨owner, howner, hother⟩
    rw [(ha id register).1 hr] at howner
    exact absurd (Option.some.inj howner).symm hother
  · have hnone : ¬ ∃ owner, storage.owner register = some owner ∧ owner ≠ .variable id := by
      rintro ⟨owner, howner, -⟩
      rw [free] at howner
      cases howner
    cases keep with
    | false =>
      have hrun := run_load_copy hne free
      exact ⟨traceless_of_ok hrun, fun h => absurd h (not_refused hrun), fun h => absurd h hnone⟩
    | true =>
      have hrun := run_load_keep hne free
      exact ⟨traceless_of_ok hrun, fun h => absurd h (not_refused hrun), fun h => absurd h hnone⟩
  · have hrun := run_load_held hne howner hother keep
    exact ⟨traceless_of_error hrun, fun _ => ⟨owner, howner, hother⟩, fun _ => refused hrun⟩

theorem pick_cases (ha : storage.Agrees) (start : Nat) :
    Traceless (pick start) storage ∧ (Refused (pick start) storage ↔
      ∀ register : Register, start ≤ register.val → storage.Pinned register) := by
  have hpicked := picked ha start
  generalize hrun : (pick start).run storage = outcome at hpicked
  cases hpicked with
  | free register hstart hfree =>
    refine ⟨traceless_of_ok hrun, fun h => absurd h (not_refused hrun), fun hall => ?_⟩
    exact absurd (hall register hstart) (not_pinned_of_free hfree)
  | evicted register id note hstart howner hclear =>
    refine ⟨traceless_of_ok hrun, fun h => absurd h (not_refused hrun), fun hall => ?_⟩
    exact absurd (hall register hstart) (not_pinned_of_clearable howner hclear)
  | exhausted hheld =>
    refine ⟨traceless_of_error hrun, fun _ register hstart => ?_, fun _ => refused hrun⟩
    obtain ⟨howned, hkept⟩ := hheld register hstart
    exact pinned_of_kept howned hkept

theorem scratch_cases (ha : storage.Agrees) :
    Traceless scratch storage ∧ (Refused scratch storage ↔
      ∀ register : Register, 1 ≤ register.val → storage.Pinned register) := by
  obtain ⟨htraceless, hrefused⟩ := pick_cases ha 1
  have hhold : ∀ (register : Register) s, ¬ Refused (do hold register; pure register) s :=
    fun _ _ => not_refused rfl
  obtain ⟨hscratch, hiff⟩ := htraceless.bind hhold
  exact ⟨hscratch, hiff.trans hrefused⟩

/-- A binding that is refused leaves its variable where it may not be evicted, and nothing else. -/
theorem run_bind_refused (ha : storage.Agrees) {overwrite : Bool} {error : StorageError}
    (h : ((Storage.bind id register overwrite).run storage).result = .error error) :
    (Storage.bind id register overwrite).run storage = ⟨.error error, storage.fixed id, []⟩ := by
  rcases register_cases ha id register with hr | ⟨hne, free⟩ | ⟨hne, owner, howner, hother⟩
  · rw [run_bind_here hr] at h
    cases h
  · cases hr : (storage.get id).register with
    | none =>
      rw [run_bind_new hr free] at h
      cases h
    | some previous =>
      cases overwrite with
      | true =>
        rw [run_bind_free hne free] at h
        cases h
      | false =>
        have hrun := run_bind_kept hr (fun e => hne (by rw [hr, e])) free
        rw [hrun] at h ⊢
        cases h
        rfl
  · have hrun := run_bind_held hne howner hother overwrite
    rw [hrun] at h ⊢
    cases h
    rfl

/-- **Refusals leave no trace.** Whatever was asked of an empty storage, with whatever success: a
declaration, a load, a pick of a register and one for a value put nothing out and change nothing if
they are refused, and a refused binding puts nothing out and changes nothing but that its variable
may not be evicted. A load is refused exactly if the register is held by a value or another variable;
a register is refused exactly if all those that are asked for are held by values or by variables that
may not be evicted. -/
theorem refusals_leave_no_trace (requests : List Request) (h : AllInRange requests empty) :
    let storage := (serve requests empty).1
    (∀ name scope codeSize, Traceless (declare name scope codeSize) storage) ∧
    (∀ id register keep, Traceless (load id register keep) storage ∧
      (Refused (load id register keep) storage ↔
        ∃ owner, storage.owner register = some owner ∧ owner ≠ .variable id)) ∧
    (∀ start, Traceless (pick start) storage ∧ (Refused (pick start) storage ↔
      ∀ register : Register, start ≤ register.val → storage.Pinned register)) ∧
    (Traceless scratch storage ∧ (Refused scratch storage ↔
      ∀ register : Register, 1 ≤ register.val → storage.Pinned register)) ∧
    ∀ id register overwrite error,
      ((Storage.bind id register overwrite).run storage).result = .error error →
      (Storage.bind id register overwrite).run storage = ⟨.error error, storage.fixed id, []⟩ := by
  intro storage
  have hagrees : storage.Agrees := (orderly_empty.serve requests h).1.agrees
  exact ⟨traceless_declare storage, load_cases hagrees, pick_cases hagrees, scratch_cases hagrees,
    fun _ _ _ _ => run_bind_refused hagrees⟩

/-- All registers but `r0` are pinned, one of them by a modified variable: none can be had, but `r0`
is still free for a load. -/
theorem refusals_leave_no_trace_pinned :
    let requests : List Request := [.declare "x" .global 10, .declare "y" .global 10, .bind 0 1 true,
      .markModified 0, .move (.allowEviction 0)] ++
        ((List.finRange 16).drop 2).map fun register => .move (.reserve register)
    let storage := (serve (requests ++ [.bind 0 2 true]) empty).1
    AllInRange (requests ++ [.bind 0 2 true]) empty ∧
      scratch.run storage = ⟨.error .exhausted, storage, []⟩ ∧ Refused (load 1 1 true) storage ∧
      ¬ Refused (load 0 0 true) storage ∧ ¬ Refused (pick 0) storage ∧
      (Storage.bind 0 15 true).run storage =
        ⟨.error (.conflict 15 .temporary), storage.fixed 0, []⟩ := by
  intro requests storage
  have hin : AllInRange (requests ++ [.bind 0 2 true]) empty := by decide +kernel
  obtain ⟨-, hload, hpick, hscratch, hbind⟩ :=
    refusals_leave_no_trace (requests ++ [.bind 0 2 true]) hin
  have hfree : storage.owner 0 = none := by decide +kernel
  refine ⟨hin, hscratch.1 _ (by decide +kernel), (hload 1 1 true).2.2 ⟨.variable 0, ?_, ?_⟩, ?_, ?_,
    hbind 0 15 true _ (by decide +kernel)⟩
  · decide +kernel
  · decide
  · rw [(hload 0 0 true).2]
    rintro ⟨owner, howner, -⟩
    rw [hfree] at howner
    cases howner
  · rw [(hpick 0).2]
    exact fun hall => not_pinned_of_free hfree (hall 0 (Nat.zero_le _))

end ByteBasic.Storage
