import MaterialNet.Proofs.Action

namespace MaterialNet.Action

/-!
# Actions that do the same

Two actions do the same on related states if both answer, with related answers and states, or both
fail with one fault.  What actions are built from keeps this, so that it is shown for a long action
one step after the other.

* `Action.Alike` — the relation between actions
* `Alike.bind` — one step after the other
* `Alike.result_eq` — related actions have one result
-/

variable {σ α α' β β' : Type} {R : σ → σ → Prop} {S : α → α' → Prop} {T : β → β' → Prop}

/-- From states related by `R`, both actions answer, with answers related by `S` and states related
    by `R` again, or both fail with one fault. -/
def Alike (R : σ → σ → Prop) (S : α → α' → Prop) (x : Action σ α) (y : Action σ α') : Prop :=
  ∀ s t, R s t →
    (∃ a b s' t', x.Gives s a s' ∧ y.Gives t b t' ∧ S a b ∧ R s' t')
      ∨ ∃ fault s' t', x.Fails s fault s' ∧ y.Fails t fault t'

/-- Two steps do the same if their first halves do, and their second halves on related answers. -/
theorem Alike.bind {x : Action σ α} {y : Action σ α'} {f : α → Action σ β} {g : α' → Action σ β'}
    (h : Alike R S x y) (hf : ∀ a b, S a b → Alike R T (f a) (g b)) :
    Alike R T (x >>= f) (y >>= g) := by
  intro s t hst
  rcases h s t hst with ⟨a, b, s', t', hx, hy, hab, hst'⟩ | ⟨fault, s', t', hx, hy⟩
  · -- The second halves start from answers and states that are related again.
    rcases hf a b hab s' t' hst' with
      ⟨a', b', s'', t'', hx', hy', hab', hst''⟩ | ⟨fault, s'', t'', hx', hy'⟩
    · exact .inl ⟨a', b', s'', t'', gives_bind.2 ⟨a, s', hx, hx'⟩, gives_bind.2 ⟨b, t', hy, hy'⟩,
        hab', hst''⟩
    · exact .inr ⟨fault, s'', t'', fails_bind.2 (.inr ⟨a, s', hx, hx'⟩),
        fails_bind.2 (.inr ⟨b, t', hy, hy'⟩)⟩
  · exact .inr ⟨fault, s', t', fails_bind.2 (.inl hx), fails_bind.2 (.inl hy)⟩

/-- Actions that do the same on related states have one result there. -/
theorem Alike.result_eq {x y : Action σ α} (h : Alike R Eq x y) {s t : σ} (hst : R s t) :
    (x.run s).result = (y.run t).result := by
  rcases h s t hst with ⟨a, b, s', t', hx, hy, rfl, -⟩ | ⟨fault, s', t', hx, hy⟩
  · rw [hx.1, hy.1]
  · rw [hx.1, hy.1]

/-- The answers may be related more loosely. -/
theorem Alike.mono {S' : α → α' → Prop} {x : Action σ α} {y : Action σ α'} (h : Alike R S x y)
    (hS : ∀ a b, S a b → S' a b) : Alike R S' x y := by
  intro s t hst
  rcases h s t hst with ⟨a, b, s', t', hx, hy, hab, hst'⟩ | hf
  · exact .inl ⟨a, b, s', t', hx, hy, hS a b hab, hst'⟩
  · exact .inr hf

/-- An action does the same as itself. -/
theorem Alike.refl (x : Action σ α) : Alike Eq Eq x x := by
  rintro s _ rfl
  cases hx : (x.run s).result with
  | ok a => exact .inl ⟨a, a, _, _, ⟨hx, rfl⟩, ⟨hx, rfl⟩, rfl, rfl⟩
  | error fault => exact .inr ⟨fault, _, _, ⟨hx, rfl⟩, ⟨hx, rfl⟩⟩

/-! ### Single steps -/

theorem Alike.pure {a : α} {b : α'} (h : S a b) :
    Alike R S (Pure.pure a : Action σ α) (Pure.pure b) :=
  fun s t hst => .inl ⟨a, b, s, t, gives_pure.2 ⟨rfl, rfl⟩, gives_pure.2 ⟨rfl, rfl⟩, h, hst⟩

theorem Alike.lift_ok {r : Except Fault α} {q : Except Fault α'} {a : α} {b : α'}
    (hr : r = .ok a) (hq : q = .ok b) (h : S a b) : Alike R S (lift r) (lift q) :=
  fun s t hst => .inl ⟨a, b, s, t, gives_lift.2 ⟨hr, rfl⟩, gives_lift.2 ⟨hq, rfl⟩, h, hst⟩

theorem Alike.lift_error (fault : Fault) :
    Alike R S (lift (.error fault)) (lift (.error fault)) :=
  fun s t _ => .inr ⟨fault, s, t, fails_lift.2 ⟨rfl, rfl⟩, fails_lift.2 ⟨rfl, rfl⟩⟩

theorem Alike.lift (r : Except Fault α) : Alike R Eq (lift r) (Action.lift r) := by
  cases r with
  | ok a => exact .lift_ok rfl rfl rfl
  | error fault => exact .lift_error fault

theorem Alike.getState : Alike R R getState getState :=
  fun s t hst => .inl ⟨s, t, s, t, gives_getState.2 ⟨rfl, rfl⟩, gives_getState.2 ⟨rfl, rfl⟩,
    hst, hst⟩

theorem Alike.setState {s t : σ} (h : R s t) : Alike R Eq (setState s) (setState t) :=
  fun _ _ _ => .inl ⟨(), (), s, t, gives_setState.2 rfl, gives_setState.2 rfl, rfl, h⟩

theorem Alike.modifyState {f g : σ → σ} (h : ∀ s t, R s t → R (f s) (g t)) :
    Alike R Eq (modifyState f) (modifyState g) :=
  fun s t hst => .inl ⟨(), (), f s, g t, gives_modifyState.2 rfl, gives_modifyState.2 rfl, rfl,
    h s t hst⟩

/-- The noted events do not matter. -/
theorem Alike.note (events events' : List Event) :
    Alike R Eq (note events) (note events' : Action σ Unit) :=
  fun s t hst => .inl ⟨(), (), s, t, gives_note.2 rfl, gives_note.2 rfl, rfl, hst⟩

end MaterialNet.Action
