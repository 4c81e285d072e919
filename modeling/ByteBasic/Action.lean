/-!
# Actions

Much of the compiler changes a state, puts out code as it goes and may fail half way. `Action` is a
computation of that sort. What matters is what a failure leaves: the state reached and everything
put out before it stay, so that "a failure leaves no trace" is a statement about the two, and not
true by construction.

`Action.run_bind` says how actions compose: the second starts from the state that the first reached,
outputs are concatenated in order, and nothing follows a failure (`Outcome.andThen`).
-/

namespace ByteBasic

/-- What an action leaves: its result, the state reached and what it put out, in order. -/
structure Outcome (ε σ ω α : Type) where
  result : Except ε α
  state : σ
  output : List ω

/-- A computation on a state `σ` that puts out `ω`s and may fail with an `ε`. -/
def Action (ε σ ω α : Type) : Type :=
  σ → Outcome ε σ ω α

variable {ε σ ω α β γ : Type}

def Action.run (action : Action ε σ ω α) (state : σ) : Outcome ε σ ω α :=
  action state

namespace Outcome

/-- Goes on with another action after a success, and with nothing after a failure. -/
def andThen (outcome : Outcome ε σ ω α) (next : α → Action ε σ ω β) : Outcome ε σ ω β :=
  match outcome with
  | ⟨.error e, state, output⟩ => ⟨.error e, state, output⟩
  | ⟨.ok a, state, output⟩ =>
    let later := (next a).run state
    ⟨later.result, later.state, output ++ later.output⟩

@[simp] theorem andThen_error (e : ε) (state : σ) (output : List ω) (next : α → Action ε σ ω β) :
    andThen ⟨.error e, state, output⟩ next = ⟨.error e, state, output⟩ := rfl

theorem andThen_ok (a : α) (state : σ) (output : List ω) (next : α → Action ε σ ω β) :
    andThen ⟨.ok a, state, output⟩ next =
      ⟨((next a).run state).result, ((next a).run state).state,
        output ++ ((next a).run state).output⟩ := rfl

/-- After a success that put out nothing, the outcome is that of the next action. -/
@[simp] theorem andThen_ok_nil (a : α) (state : σ) (next : α → Action ε σ ω β) :
    andThen ⟨.ok a, state, []⟩ next = (next a).run state := by
  simp [andThen]

end Outcome

namespace Action

protected def pure (a : α) : Action ε σ ω α :=
  fun state => ⟨.ok a, state, []⟩

/-- One action after another; nothing follows a failure. -/
protected def bind (first : Action ε σ ω α) (next : α → Action ε σ ω β) : Action ε σ ω β :=
  fun state => (first.run state).andThen next

instance : Monad (Action ε σ ω) where
  pure := Action.pure
  bind := Action.bind

def fail (e : ε) : Action ε σ ω α :=
  fun state => ⟨.error e, state, []⟩

def get : Action ε σ ω σ :=
  fun state => ⟨.ok state, state, []⟩

def modify (f : σ → σ) : Action ε σ ω Unit :=
  fun state => ⟨.ok (), f state, []⟩

/-- Puts out the given items. -/
def put (items : List ω) : Action ε σ ω Unit :=
  fun state => ⟨.ok (), state, items⟩

/-- The action that fails or succeeds as a given result does. -/
def ofExcept (result : Except ε α) : Action ε σ ω α :=
  fun state => ⟨result, state, []⟩

/-! ## Running actions -/

@[simp] theorem run_pure (a : α) (state : σ) :
    (pure a : Action ε σ ω α).run state = ⟨.ok a, state, []⟩ := rfl

@[simp] theorem run_bind (first : Action ε σ ω α) (next : α → Action ε σ ω β) (state : σ) :
    (first >>= next).run state = (first.run state).andThen next := rfl

@[simp] theorem run_fail (e : ε) (state : σ) :
    (fail e : Action ε σ ω α).run state = ⟨.error e, state, []⟩ := rfl

@[simp] theorem run_get (state : σ) :
    (get : Action ε σ ω σ).run state = ⟨.ok state, state, []⟩ := rfl

@[simp] theorem run_modify (f : σ → σ) (state : σ) :
    (modify f : Action ε σ ω Unit).run state = ⟨.ok (), f state, []⟩ := rfl

@[simp] theorem run_put (items : List ω) (state : σ) :
    (put items : Action ε σ ω Unit).run state = ⟨.ok (), state, items⟩ := rfl

@[simp] theorem run_ofExcept (result : Except ε α) (state : σ) :
    (ofExcept result : Action ε σ ω α).run state = ⟨result, state, []⟩ := rfl

theorem ext_run {x y : Action ε σ ω α} (h : ∀ state, x.run state = y.run state) : x = y :=
  funext h

/-! ## The laws of composition -/

theorem bind_pure_self (x : Action ε σ ω α) : Action.bind x Action.pure = x := by
  apply ext_run
  intro state
  change (x.run state).andThen Action.pure = x.run state
  rcases x.run state with ⟨_ | a, s, out⟩
  · rfl
  · simp [Outcome.andThen, Action.pure, run]

theorem pure_bind_self (a : α) (f : α → Action ε σ ω β) :
    Action.bind (Action.pure a) f = f a := by
  apply ext_run
  intro state
  exact Outcome.andThen_ok_nil a state f

theorem bind_assoc_self (x : Action ε σ ω α) (f : α → Action ε σ ω β) (g : β → Action ε σ ω γ) :
    Action.bind (Action.bind x f) g = Action.bind x fun a => Action.bind (f a) g := by
  apply ext_run
  intro state
  change ((x.run state).andThen f).andThen g = (x.run state).andThen fun a => Action.bind (f a) g
  rcases x.run state with ⟨_ | a, s, out⟩
  · rfl
  · change
      Outcome.andThen
        ⟨((f a).run s).result, ((f a).run s).state, out ++ ((f a).run s).output⟩ g =
      ⟨(((f a).run s).andThen g).result, (((f a).run s).andThen g).state,
        out ++ (((f a).run s).andThen g).output⟩
    rcases (f a).run s with ⟨_ | b, t, later⟩
    · rfl
    · simp [Outcome.andThen, List.append_assoc]

instance : LawfulMonad (Action ε σ ω) :=
  LawfulMonad.mk' _ bind_pure_self pure_bind_self bind_assoc_self

end Action

end ByteBasic
