import MaterialNet.Event
import MaterialNet.Fault

namespace MaterialNet

/-!
# Actions — steps that may fail half-way

An action works on a state, notes events, and answers or fails.  What it has done to the state and
noted before it fails is kept.

* `Outcome` — the result, the state and the events of an action
* `Action` — a monad; `lift`, `getState`, `setState`, `modifyState` and `note` are its primitive
  actions
-/

/-- What an action leaves behind. -/
structure Outcome (σ α : Type) where
  result : Except Fault α
  state : σ
  events : List Event

/-- A step on a state of type `σ` that answers with an `α` or fails. -/
def Action (σ α : Type) : Type := σ → Outcome σ α

namespace Action

variable {σ α β γ : Type}

/-- Runs an action on a state. -/
def run (x : Action σ α) (s : σ) : Outcome σ α := x s

/-- Answers without doing anything. -/
def answer (a : α) : Action σ α := fun s => ⟨.ok a, s, []⟩

/-- Does one action after another; the second is left out if the first fails. -/
def andThen (x : Action σ α) (f : α → Action σ β) : Action σ β := fun s =>
  match x s with
  | ⟨.error fault, s', events⟩ => ⟨.error fault, s', events⟩
  | ⟨.ok a, s', events⟩ =>
    match f a s' with
    | ⟨result, s'', more⟩ => ⟨result, s'', events ++ more⟩

instance : Monad (Action σ) where
  pure := answer
  bind := andThen

/-- Answers or fails as given. -/
def lift (r : Except Fault α) : Action σ α := fun s => ⟨r, s, []⟩

/-- Answers with the state. -/
def getState : Action σ σ := fun s => ⟨.ok s, s, []⟩

/-- Replaces the state. -/
def setState (s : σ) : Action σ Unit := fun _ => ⟨.ok (), s, []⟩

/-- Changes the state. -/
def modifyState (f : σ → σ) : Action σ Unit := fun s => ⟨.ok (), f s, []⟩

/-- Notes events in the log. -/
def note (events : List Event) : Action σ Unit := fun s => ⟨.ok (), s, events⟩

/-! ### What running an action gives -/

/-- Lifting touches neither the state nor the log. -/
@[simp] theorem run_lift (r : Except Fault α) (s : σ) : (lift r).run s = ⟨r, s, []⟩ := rfl

@[simp] theorem run_getState (s : σ) : getState.run s = ⟨.ok s, s, []⟩ := rfl

@[simp] theorem run_setState (s s' : σ) : (setState s).run s' = ⟨.ok (), s, []⟩ := rfl

@[simp] theorem run_modifyState (f : σ → σ) (s : σ) :
    (modifyState f).run s = ⟨.ok (), f s, []⟩ := rfl

@[simp] theorem run_note (events : List Event) (s : σ) :
    (note events).run s = ⟨.ok (), s, events⟩ := rfl

@[simp] theorem run_pure (a : α) (s : σ) : (pure a : Action σ α).run s = ⟨.ok a, s, []⟩ := rfl

/-- A sequence stops at the first failure and keeps the state and the events up to there. -/
theorem run_bind (x : Action σ α) (f : α → Action σ β) (s : σ) :
    (x >>= f).run s =
      match x.run s with
      | ⟨.error fault, s', events⟩ => ⟨.error fault, s', events⟩
      | ⟨.ok a, s', events⟩ =>
        match (f a).run s' with
        | ⟨result, s'', more⟩ => ⟨result, s'', events ++ more⟩ := rfl

/-! ### The monad laws -/

/-- Changing no answer changes nothing. -/
private theorem id_map_action (x : Action σ α) : id <$> x = x := by
  funext s
  show andThen x (fun a => answer (id a)) s = x s
  rcases h : x s with ⟨_ | _, s', events⟩ <;> simp [andThen, answer, h]

/-- An answer that is given at once is handed on as it is. -/
private theorem pure_bind_action (a : α) (f : α → Action σ β) : pure a >>= f = f a := by
  funext s
  show andThen (answer a) f s = f a s
  simp [andThen, answer]

/-- How a sequence of three is grouped does not show. -/
private theorem bind_assoc_action (x : Action σ α) (f : α → Action σ β) (g : β → Action σ γ) :
    x >>= f >>= g = x >>= fun a => f a >>= g := by
  funext s
  show andThen (andThen x f) g s = andThen x (fun a => andThen (f a) g) s
  -- Whichever action fails first, both sides stop there with the same state and events.
  rcases h : x s with ⟨_ | a, s₁, events⟩
  · simp [andThen, h]
  · rcases h₁ : f a s₁ with ⟨_ | b, s₂, more⟩
    · simp [andThen, h, h₁]
    · rcases h₂ : g b s₂ with ⟨_ | c, s₃, rest⟩ <;> simp [andThen, h, h₁, h₂]

instance : LawfulMonad (Action σ) :=
  LawfulMonad.mk' (Action σ) id_map_action pure_bind_action bind_assoc_action

end Action

end MaterialNet
