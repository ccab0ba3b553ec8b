import MaterialNet.Proofs.Action

namespace MaterialNet.Action

/-!
# Runs that stay abreast

An action is run from two states that agree only in part.  The runs stay abreast if both answer
alike, or both fail with one fault; beyond that, the first run may fail with a fault that is
excused.  What actions are built from keeps runs abreast.

* `Action.Abreast` — two runs that end alike
* `Abreast.bind` — one step after the other
* `Abreast.result_eq` — the results, apart from excused faults
* `Abreast.left_state` — the states, where no fault is excused
* `Abreast.both` — a single run, seen as two
-/

variable {σ α β : Type} {excused : Fault → Prop} {left R R' : σ → σ → Prop} {x y : Action σ α}
  {s t : σ}

/-- `x` from `s` and `y` from `t` both answer alike, with states related by `R`, or both fail with
    one fault, with states related by `left`, or `x` fails with a fault that is excused. -/
def Abreast (excused : Fault → Prop) (left R : σ → σ → Prop) (x y : Action σ α) (s t : σ) : Prop :=
  (∃ a s' t', x.Gives s a s' ∧ y.Gives t a t' ∧ R s' t')
    ∨ (∃ fault s' t', x.Fails s fault s' ∧ y.Fails t fault t' ∧ left s' t')
    ∨ ∃ fault s', x.Fails s fault s' ∧ excused fault

/-- Runs that come abreast to where the second step starts stay abreast if the second step does. -/
theorem Abreast.bind {f g : α → Action σ β} (h : Abreast excused left R x y s t)
    (hf : ∀ a s' t', R s' t' → Abreast excused left R' (f a) (g a) s' t') :
    Abreast excused left R' (x >>= f) (y >>= g) s t := by
  -- If the first step fails in both runs, or with an excused fault in the first, so does the
  -- sequence; otherwise the second step decides.
  rcases h with ⟨a, s₁, t₁, hx, hy, hr⟩ | ⟨fault, s₁, t₁, hx, hy, hl⟩ | ⟨fault, s₁, hx, he⟩
  · rcases hf a s₁ t₁ hr with
      ⟨b, s₂, t₂, hx', hy', hr'⟩ | ⟨fault, s₂, t₂, hx', hy', hl⟩ | ⟨fault, s₂, hx', he⟩
    · exact .inl ⟨b, s₂, t₂, gives_bind.2 ⟨a, s₁, hx, hx'⟩, gives_bind.2 ⟨a, t₁, hy, hy'⟩, hr'⟩
    · exact .inr (.inl ⟨fault, s₂, t₂, fails_bind.2 (.inr ⟨a, s₁, hx, hx'⟩),
        fails_bind.2 (.inr ⟨a, t₁, hy, hy'⟩), hl⟩)
    · exact .inr (.inr ⟨fault, s₂, fails_bind.2 (.inr ⟨a, s₁, hx, hx'⟩), he⟩)
  · exact .inr (.inl ⟨fault, s₁, t₁, fails_bind.2 (.inl hx), fails_bind.2 (.inl hy), hl⟩)
  · exact .inr (.inr ⟨fault, s₁, fails_bind.2 (.inl hx), he⟩)

/-! ### Single steps -/

/-- An answer that is given at once is given in both runs. -/
theorem Abreast.pure (a : α) (h : R s t) :
    Abreast excused left R (Pure.pure a) (Pure.pure a) s t :=
  .inl ⟨a, s, t, gives_pure.2 ⟨rfl, rfl⟩, gives_pure.2 ⟨rfl, rfl⟩, h⟩

/-- A check without a state ends in both runs in the same way. -/
theorem Abreast.lift (r : Except Fault α) (h : R s t) (hl : left s t) :
    Abreast excused left R (Action.lift r) (Action.lift r) s t := by
  cases r with
  | ok a => exact .inl ⟨a, s, t, gives_lift.2 ⟨rfl, rfl⟩, gives_lift.2 ⟨rfl, rfl⟩, h⟩
  | error fault =>
    exact .inr (.inl ⟨fault, s, t, fails_lift.2 ⟨rfl, rfl⟩, fails_lift.2 ⟨rfl, rfl⟩, hl⟩)

/-- After a check, only the runs that pass it have to be followed. -/
theorem Abreast.lift_bind {r : Except Fault α} {f g : α → Action σ β} (hl : left s t)
    (h : ∀ a, r = .ok a → Abreast excused left R (f a) (g a) s t) :
    Abreast excused left R (Action.lift r >>= f) (Action.lift r >>= g) s t := by
  -- A lifted result does not depend on the state, so both runs take the same case.
  cases r with
  | ok a => simpa only [Abreast, gives_lift_bind, fails_lift_bind, Except.ok.injEq, reduceCtorEq,
      false_and, false_or, exists_eq_left'] using h a rfl
  | error fault =>
    exact .inr (.inl ⟨fault, s, t, fails_lift_bind.2 (.inl ⟨rfl, rfl⟩),
      fails_lift_bind.2 (.inl ⟨rfl, rfl⟩), hl⟩)

/-- Both runs may look at their states, and go on from what they see. -/
theorem Abreast.getState_bind {f g : σ → Action σ β}
    (h : Abreast excused left R (f s) (g t) s t) :
    Abreast excused left R (getState >>= f) (getState >>= g) s t := by
  simpa only [Abreast, gives_getState_bind, fails_getState_bind] using h

/-- Both states may be replaced by related ones. -/
theorem Abreast.setState {s₁ t₁ : σ} (h : R s₁ t₁) :
    Abreast excused left R (setState s₁) (setState t₁) s t :=
  .inl ⟨(), s₁, t₁, gives_setState.2 rfl, gives_setState.2 rfl, h⟩

/-- Both states may be changed if the relation is kept. -/
theorem Abreast.modifyState {f : σ → σ} (h : R (f s) (f t)) :
    Abreast excused left R (modifyState f) (modifyState f) s t :=
  .inl ⟨(), f s, f t, gives_modifyState.2 rfl, gives_modifyState.2 rfl, h⟩

/-- The noted events do not matter. -/
theorem Abreast.note (events events' : List Event) (h : R s t) :
    Abreast excused left R (note events) (note events') s t :=
  .inl ⟨(), s, t, gives_note.2 rfl, gives_note.2 rfl, h⟩

/-! ### What abreast runs show -/

/-- Every action has an outcome. -/
theorem gives_or_fails (x : Action σ α) (s : σ) :
    (∃ a s', x.Gives s a s') ∨ ∃ fault s', x.Fails s fault s' := by
  cases h : (x.run s).result with
  | ok a => exact .inl ⟨a, _, h, rfl⟩
  | error fault => exact .inr ⟨fault, _, h, rfl⟩

/-- Apart from excused faults, the results are one result, and where there is an answer, the states
    are related. -/
theorem Abreast.result_eq (h : Abreast excused left R x y s t) :
    (x.run s).result = (y.run t).result
        ∧ (∀ a, (y.run t).result = .ok a → R (x.run s).state (y.run t).state)
      ∨ ∃ fault, (x.run s).result = .error fault ∧ excused fault := by
  rcases h with ⟨a, s', t', hx, hy, hr⟩ | ⟨fault, s', t', hx, hy, -⟩ | ⟨fault, s', hx, he⟩
  · refine .inl ⟨by rw [hx.1, hy.1], fun _ _ => ?_⟩
    rw [hx.2, hy.2]
    exact hr
  · refine .inl ⟨by rw [hx.1, hy.1], fun a ha => ?_⟩
    rw [hy.1] at ha
    cases ha
  · exact .inr ⟨fault, hx.1, he⟩

/-- Where no fault is excused, the states are related in any case. -/
theorem Abreast.left_state (h : Abreast excused left R x y s t) (he : ∀ fault, ¬ excused fault)
    (hr : ∀ s t, R s t → left s t) : left (x.run s).state (y.run t).state := by
  rcases h with ⟨a, s', t', hx, hy, hst⟩ | ⟨fault, s', t', hx, hy, hst⟩ | ⟨fault, s', -, hf⟩
  · rw [hx.2, hy.2]
    exact hr _ _ hst
  · rw [hx.2, hy.2]
    exact hst
  · exact absurd hf (he fault)

/-- A property that a single run leaves behind in any case, as a relation between two runs that are
    this one. -/
theorem Abreast.both {P : σ → Prop} (h : P (x.run s).state)
    (hl : ∀ s, P s → left s s) (hr : ∀ s, P s → R s s) : Abreast excused left R x x s s := by
  rcases gives_or_fails x s with ⟨a, s', hx⟩ | ⟨fault, s', hx⟩
  · exact .inl ⟨a, s', s', hx, hx, hr s' (hx.2 ▸ h)⟩
  · exact .inr (.inl ⟨fault, s', s', hx, hx, hl s' (hx.2 ▸ h)⟩)

end MaterialNet.Action
