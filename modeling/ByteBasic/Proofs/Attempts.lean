import ByteBasic.Action

/-!
# Actions that may find nothing

Looking something up by its number gives an answer whatever the number is, so an action has an
outcome from every state. An `Attempt` takes no number for granted: at the first one that leads
nowhere it ends without any outcome, which is neither a result nor a failure.

`Attempt.Follows` says that this does not happen: from a state, an attempt has an outcome, and it is
that of an action. What holds after the action is carried along, since it is what keeps the next
number in range; the rule for one step after another is `Follows.bind`.
-/

namespace ByteBasic

/-- A computation like an action that may find nothing. -/
def Attempt (ε σ ω α : Type) : Type :=
  σ → Option (Outcome ε σ ω α)

namespace Attempt

variable {ε σ ω α β : Type}

def run (attempt : Attempt ε σ ω α) (state : σ) : Option (Outcome ε σ ω α) :=
  attempt state

def ofAction (action : Action ε σ ω α) : Attempt ε σ ω α :=
  fun state => some (action.run state)

/-- One attempt after another; nothing follows a failure. -/
protected def bind (first : Attempt ε σ ω α) (next : α → Attempt ε σ ω β) : Attempt ε σ ω β :=
  fun state => do
    match ← first.run state with
    | ⟨.error e, state, output⟩ => return ⟨.error e, state, output⟩
    | ⟨.ok a, state, output⟩ =>
      let later ← (next a).run state
      return ⟨later.result, later.state, output ++ later.output⟩

instance : Monad (Attempt ε σ ω) where
  pure a := ofAction (pure a)
  bind := Attempt.bind

instance : MonadLift (Action ε σ ω) (Attempt ε σ ω) :=
  ⟨ofAction⟩

def modify (f : σ → σ) : Attempt ε σ ω Unit :=
  ofAction (Action.modify f)

def put (items : List ω) : Attempt ε σ ω Unit :=
  ofAction (Action.put items)

def fail (e : ε) : Attempt ε σ ω α :=
  ofAction (Action.fail e)

/-- What is looked up in the state, if it is found. -/
def look (find? : σ → Option α) : Attempt ε σ ω α :=
  fun state => do return ⟨.ok (← find? state), state, []⟩

def get : Attempt ε σ ω σ :=
  look some

/-! ## Following an action -/

/-- From a state, an attempt has an outcome, which is that of an action; after a success, `ok` holds
of the result and the state reached. -/
structure Follows (attempt : Attempt ε σ ω α) (action : Action ε σ ω α) (state : σ)
    (ok : α → σ → Prop) : Prop where
  run_eq : attempt.run state = some (action.run state)
  ok : ∀ a, (action.run state).result = .ok a → ok a (action.run state).state

namespace Follows

variable {attempt : Attempt ε σ ω α} {action : Action ε σ ω α} {state : σ}
  {ok ok' : α → σ → Prop}

theorem bind {next? : α → Attempt ε σ ω β} {next : α → Action ε σ ω β} {mid : α → σ → Prop}
    {ok : β → σ → Prop} (h : Follows attempt action state mid)
    (hnext : ∀ a s, mid a s → Follows (next? a) (next a) s ok) :
    Follows (attempt >>= next?) (action >>= next) state ok := by
  have hrun : (attempt >>= next?).run state = do
      match ← attempt.run state with
      | ⟨.error e, state, output⟩ => return ⟨.error e, state, output⟩
      | ⟨.ok a, state, output⟩ =>
        let later ← (next? a).run state
        return ⟨later.result, later.state, output ++ later.output⟩ := rfl
  obtain ⟨hfirst, hmid⟩ := h
  rw [hfirst] at hrun
  rcases haction : action.run state with ⟨e | a, s, output⟩
  · rw [haction] at hrun
    have hall : (action >>= next).run state = ⟨.error e, s, output⟩ := by
      rw [Action.run_bind, haction, Outcome.andThen_error]
    refine ⟨by rw [hrun, hall]; rfl, fun b hb => ?_⟩
    rw [hall] at hb
    cases hb
  · rw [haction] at hrun hmid
    obtain ⟨hlater, hok⟩ := hnext a s (hmid a rfl)
    have hall : (action >>= next).run state = ⟨((next a).run s).result, ((next a).run s).state,
        output ++ ((next a).run s).output⟩ := by
      rw [Action.run_bind, haction, Outcome.andThen_ok]
    refine ⟨?_, fun b hb => ?_⟩
    · rw [hrun, hall]
      simp only [Option.bind_eq_bind, Option.bind_some, hlater, Option.pure_def]
    · rw [hall] at hb ⊢
      exact hok b hb

theorem imp (h : Follows attempt action state ok) (himp : ∀ a s, ok a s → ok' a s) :
    Follows attempt action state ok' :=
  ⟨h.run_eq, fun a ha => himp _ _ (h.ok a ha)⟩

theorem of_run_eq {other : Action ε σ ω α} (h : Follows attempt action state ok)
    (heq : action.run state = other.run state) : Follows attempt other state ok := by
  obtain ⟨hrun, hok⟩ := h
  rw [heq] at hrun hok
  exact ⟨hrun, hok⟩

theorem ofAction (h : ∀ a, (action.run state).result = .ok a → ok a (action.run state).state) :
    Follows (Attempt.ofAction action) action state ok :=
  ⟨rfl, h⟩

theorem pure {a : α} (h : ok a state) :
    Follows (Pure.pure a : Attempt ε σ ω α) (Pure.pure a) state ok := by
  refine ⟨rfl, fun b hb => ?_⟩
  cases hb
  exact h

theorem fail (e : ε) : Follows (Attempt.fail e : Attempt ε σ ω α) (Action.fail e) state ok :=
  ⟨rfl, fun _ hb => (by cases hb)⟩

theorem fail_bind (e : ε) {next? : β → Attempt ε σ ω α} {next : β → Action ε σ ω α} :
    Follows (Attempt.fail e >>= next?) (Action.fail e >>= next) state ok :=
  ⟨rfl, fun _ hb => (by cases hb)⟩

theorem modify {change : σ → σ} {ok : Unit → σ → Prop} (h : ok () (change state)) :
    Follows (Attempt.modify change : Attempt ε σ ω Unit) (Action.modify change) state ok :=
  ⟨rfl, fun _ _ => h⟩

theorem put {items : List ω} {ok : Unit → σ → Prop} (h : ok () state) :
    Follows (Attempt.put items : Attempt ε σ ω Unit) (Action.put items) state ok :=
  ⟨rfl, fun _ _ => h⟩

/-- An action that only reads the state has what the attempt reads step by step. -/
theorem reads {next : σ → Action ε σ ω α} (h : Follows attempt (next state) state ok) :
    Follows attempt (Action.get >>= next) state ok := by
  have hrun : (Action.get >>= next).run state = (next state).run state := by
    rw [Action.run_bind, Action.run_get, Outcome.andThen_ok_nil]
  refine ⟨by rw [hrun]; exact h.run_eq, ?_⟩
  rw [hrun]
  exact h.ok

/-- What is found is handed on, and the action has it already. -/
theorem look {find? : σ → Option β} {b : β} {next? : β → Attempt ε σ ω α}
    (hfind : find? state = some b) (h : Follows (next? b) action state ok) :
    Follows (Attempt.look find? >>= next?) action state ok := by
  have hlook : (Attempt.look find? : Attempt ε σ ω β).run state = some ⟨.ok b, state, []⟩ := by
    change (find? state).bind _ = _
    rw [hfind]
    rfl
  have hrun : (Attempt.look find? >>= next?).run state = (next? b).run state := by
    change ((Attempt.look find?).run state).bind _ = _
    rw [hlook]
    change ((next? b).run state).bind _ = _
    cases (next? b).run state <;> rfl
  exact ⟨hrun.trans h.run_eq, h.ok⟩

/-- Something more is looked up in the end, of which the action knows nothing. -/
theorem look_last {attempt : Attempt ε σ ω Unit} {action : Action ε σ ω Unit} {ok : Unit → σ → Prop}
    {find? : σ → Option β} (h : Follows attempt action state ok)
    (hfind : ∀ s, ok () s → ∃ b, find? s = some b) :
    Follows (do attempt; let _ ← Attempt.look find?; Pure.pure ()) action state ok := by
  have hlast : Follows (do attempt; let _ ← Attempt.look find?; Pure.pure ())
      (action >>= fun _ => Pure.pure ()) state ok := by
    refine h.bind fun _ s hs => ?_
    obtain ⟨b, hb⟩ := hfind s hs
    exact .look hb (.pure hs)
  exact hlast.of_run_eq (by rw [bind_pure_unit])

theorem get {next? : σ → Attempt ε σ ω α} {next : σ → Action ε σ ω α}
    (h : Follows (next? state) (next state) state ok) :
    Follows (Attempt.get >>= next?) (Action.get >>= next) state ok :=
  .reads (.look rfl h)

theorem ite {condition : Prop} [Decidable condition] {yes? no? : Attempt ε σ ω α}
    {yes no : Action ε σ ω α} (hyes : condition → Follows yes? yes state ok)
    (hno : ¬ condition → Follows no? no state ok) :
    Follows (if condition then yes? else no?) (if condition then yes else no) state ok := by
  split
  · next h => exact hyes h
  · next h => exact hno h

theorem forM {items : List β} {step? : β → Attempt ε σ ω PUnit} {step : β → Action ε σ ω PUnit}
    (kept : σ → Prop) (hstate : kept state)
    (h : ∀ item s, kept s → Follows (step? item) (step item) s fun _ s' => kept s') :
    Follows (items.forM step?) (items.forM step) state fun _ s => kept s := by
  induction items generalizing state with
  | nil => exact .pure hstate
  | cons item items ih => exact (h item state hstate).bind fun _ s hs => ih hs

end Follows

end Attempt

end ByteBasic
