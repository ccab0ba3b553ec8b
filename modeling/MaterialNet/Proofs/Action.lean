import Mathlib.Data.List.Forall2
import MaterialNet.Action

namespace MaterialNet

/-!
# What an action gives

An action either gives an answer or fails, and leaves a state in both cases.  The two relations
below leave the noted events aside; a sequence is taken apart by `gives_bind` and `fails_bind`, or
by their forms for a sequence that begins with a single step, and no proof about an action unfolds
the monad.

* `Action.Gives`, `Action.Fails` — the two outcomes
* `bind_ok_iff`, `bind_error_iff` — the same for faults without a state
-/

/-! ### Faults without a state -/

section Except

variable {ε α β : Type}

/-- A sequence succeeds if both of its parts do. -/
theorem bind_ok_iff {x : Except ε α} {f : α → Except ε β} {b : β} :
    (x >>= f) = .ok b ↔ ∃ a, x = .ok a ∧ f a = .ok b := by
  cases x <;> simp [bind, Except.bind]

/-- A sequence fails where the first of its parts that fails does. -/
theorem bind_error_iff {x : Except ε α} {f : α → Except ε β} {e : ε} :
    (x >>= f) = .error e ↔ x = .error e ∨ ∃ a, x = .ok a ∧ f a = .error e := by
  cases x <;> simp [bind, Except.bind]

/-- What is only changed succeeds if it did before. -/
theorem map_ok_iff {x : Except ε α} {f : α → β} {b : β} :
    (f <$> x) = .ok b ↔ ∃ a, x = .ok a ∧ f a = b := by
  cases x <;> simp [Functor.map, Except.map]

/-- What is only changed fails as it did before. -/
theorem map_error_iff {x : Except ε α} {f : α → β} {e : ε} :
    (f <$> x) = .error e ↔ x = .error e := by
  cases x <;> simp [Functor.map, Except.map]

/-- Steps over a list succeed together if each of them does. -/
theorem mapM_eq_ok {f : α → Except ε β} {l : List α} {out : List β} (h : l.mapM f = .ok out) :
    List.Forall₂ (fun a b => f a = .ok b) l out := by
  -- By induction on the list: the first step succeeds, and so do the others.
  induction l generalizing out with
  | nil =>
    cases h
    exact .nil
  | cons a rest ih =>
    rw [List.mapM_cons] at h
    obtain ⟨b, hb, h⟩ := bind_ok_iff.1 h
    obtain ⟨bs, hbs, h⟩ := bind_ok_iff.1 h
    cases h
    exact .cons hb (ih hbs)

/-- Steps over a list fail where one of them does. -/
theorem mapM_eq_error {f : α → Except ε β} {l : List α} {e : ε} (h : l.mapM f = .error e) :
    ∃ a ∈ l, f a = .error e := by
  -- By induction on the list: the first step fails, or one of the others does.
  induction l with
  | nil => cases h
  | cons a rest ih =>
    rw [List.mapM_cons] at h
    rcases bind_error_iff.1 h with ha | ⟨b, -, h⟩
    · exact ⟨a, List.mem_cons_self, ha⟩
    · rcases bind_error_iff.1 h with hrest | ⟨bs, -, h⟩
      · obtain ⟨x, hx, hf⟩ := ih hrest
        exact ⟨x, List.mem_cons_of_mem _ hx, hf⟩
      · cases h

end Except

namespace Action

variable {σ α β : Type} {x : Action σ α} {s s' s'' : σ} {a : α} {b : β} {fault : Fault}

/-- From the state `s` the action answers `a` and leaves the state `s'`. -/
def Gives (x : Action σ α) (s : σ) (a : α) (s' : σ) : Prop :=
  (x.run s).result = .ok a ∧ (x.run s).state = s'

/-- From the state `s` the action fails and leaves the state `s'`. -/
def Fails (x : Action σ α) (s : σ) (fault : Fault) (s' : σ) : Prop :=
  (x.run s).result = .error fault ∧ (x.run s).state = s'

/-- An action has one outcome. -/
theorem Gives.not_fails (h : x.Gives s a s') : ¬ x.Fails s fault s'' := by
  intro hf
  rw [Fails, h.1] at hf
  cases hf.1

/-- There is one answer, and one state that is left behind. -/
theorem Gives.unique {a' : α} (h : x.Gives s a s') (h' : x.Gives s a' s'') : a = a' ∧ s' = s'' :=
  ⟨Except.ok.inj (h.1.symm.trans h'.1), h.2.symm.trans h'.2⟩

/-! ### Sequences -/

/-- A sequence answers if both actions do, the second from the state that the first leaves. -/
theorem gives_bind {f : α → Action σ β} :
    (x >>= f).Gives s b s'' ↔ ∃ a s', x.Gives s a s' ∧ (f a).Gives s' b s'' := by
  simp only [Gives, run_bind]
  -- The first action either failed, so that neither side holds, or answered.
  rcases x.run s with ⟨_ | a, t, events⟩
  · simp
  · constructor
    · exact fun h => ⟨a, t, ⟨rfl, rfl⟩, h⟩
    · rintro ⟨_, _, ⟨ha, rfl⟩, h⟩
      cases ha
      exact h

/-- A sequence fails in the first action, or in the second from the state that the first leaves. -/
theorem fails_bind {f : α → Action σ β} :
    (x >>= f).Fails s fault s'' ↔
      x.Fails s fault s'' ∨ ∃ a s', x.Gives s a s' ∧ (f a).Fails s' fault s'' := by
  simp only [Fails, Gives, run_bind]
  rcases x.run s with ⟨_ | a, t, events⟩
  · simp
  · constructor
    · exact fun h => .inr ⟨a, t, ⟨rfl, rfl⟩, h⟩
    · rintro (⟨h, -⟩ | ⟨_, _, ⟨ha, rfl⟩, h⟩)
      · cases h
      · cases ha
        exact h

/-! ### Single steps -/

/-- An answer that is given at once leaves the state as it is. -/
@[simp] theorem gives_pure {a' : α} : (pure a : Action σ α).Gives s a' s' ↔ a = a' ∧ s = s' := by
  simp [Gives]

@[simp] theorem not_fails_pure : ¬ (pure a : Action σ α).Fails s fault s' := by
  simp [Fails]

/-- What is lifted answers as it did without a state. -/
@[simp] theorem gives_lift {r : Except Fault α} :
    (lift r : Action σ α).Gives s a s' ↔ r = .ok a ∧ s = s' := by
  simp [Gives]

/-- What is lifted fails as it did without a state. -/
@[simp] theorem fails_lift {r : Except Fault α} :
    (lift r : Action σ α).Fails s fault s' ↔ r = .error fault ∧ s = s' := by
  simp [Fails]

@[simp] theorem gives_getState {t : σ} : (getState : Action σ σ).Gives s t s' ↔ s = t ∧ s = s' := by
  simp [Gives]

@[simp] theorem gives_setState {t : σ} {u : Unit} : (setState t).Gives s u s' ↔ t = s' := by
  simp [Gives]

@[simp] theorem not_fails_setState {t : σ} : ¬ (setState t).Fails s fault s' := by
  simp [Fails]

@[simp] theorem gives_modifyState {f : σ → σ} {u : Unit} :
    (modifyState f).Gives s u s' ↔ f s = s' := by
  simp [Gives]

@[simp] theorem not_fails_modifyState {f : σ → σ} : ¬ (modifyState f).Fails s fault s' := by
  simp [Fails]

@[simp] theorem gives_note {events : List Event} {u : Unit} :
    (note events : Action σ Unit).Gives s u s' ↔ s = s' := by
  simp [Gives]

/-! ### Sequences that begin with a single step -/

section Bind

variable {f : α → Action σ β} {g : σ → Action σ β} {k : Unit → Action σ β} {t : σ}

/-- A check that passes leaves the rest of the sequence to answer. -/
theorem gives_lift_bind {r : Except Fault α} :
    (lift r >>= f).Gives s b s'' ↔ ∃ a, r = .ok a ∧ (f a).Gives s b s'' := by
  simp [gives_bind]

/-- A check that fails leaves the state alone; otherwise the rest of the sequence fails. -/
theorem fails_lift_bind {r : Except Fault α} :
    (lift r >>= f).Fails s fault s''
      ↔ r = .error fault ∧ s = s'' ∨ ∃ a, r = .ok a ∧ (f a).Fails s fault s'' := by
  simp [fails_bind]

/-- Looking at the state hands it to the rest of the sequence. -/
theorem gives_getState_bind : (getState >>= g).Gives s b s'' ↔ (g s).Gives s b s'' := by
  simp [Gives, run_bind]

/-- Looking at the state does not fail. -/
theorem fails_getState_bind : (getState >>= g).Fails s fault s'' ↔ (g s).Fails s fault s'' := by
  simp [Fails, run_bind]

/-- The rest of the sequence starts from the new state. -/
theorem gives_setState_bind : (setState t >>= k).Gives s b s'' ↔ (k ()).Gives t b s'' := by
  simp [Gives, run_bind]

/-- A new state stays even if the rest of the sequence fails. -/
theorem fails_setState_bind : (setState t >>= k).Fails s fault s'' ↔ (k ()).Fails t fault s'' := by
  simp [Fails, run_bind]

/-- The rest of the sequence starts from the changed state. -/
theorem gives_modifyState_bind {change : σ → σ} :
    (modifyState change >>= k).Gives s b s'' ↔ (k ()).Gives (change s) b s'' := by
  simp [Gives, run_bind]

/-- A change of the state stays even if the rest of the sequence fails. -/
theorem fails_modifyState_bind {change : σ → σ} :
    (modifyState change >>= k).Fails s fault s'' ↔ (k ()).Fails (change s) fault s'' := by
  simp [Fails, run_bind]

/-- Noting events does not show in the answer or the state. -/
theorem gives_note_bind {events : List Event} :
    (note events >>= k).Gives s b s'' ↔ (k ()).Gives s b s'' := by
  simp [Gives, run_bind]

/-- Noting events does not fail. -/
theorem fails_note_bind {events : List Event} :
    (note events >>= k).Fails s fault s'' ↔ (k ()).Fails s fault s'' := by
  simp [Fails, run_bind]

/-- An action whose answer is only changed fails where it failed before. -/
theorem fails_bind_pure {change : α → β} :
    (x >>= fun a => pure (change a)).Fails s fault s' ↔ x.Fails s fault s' :=
  fails_bind.trans (by simp)

/-- An action whose answer is only changed answers where it answered before. -/
theorem gives_bind_pure {change : α → β} :
    (x >>= fun a => pure (change a)).Gives s b s' ↔ ∃ a, x.Gives s a s' ∧ change a = b := by
  simp only [gives_bind, gives_pure]
  constructor
  · rintro ⟨a, _, hx, ha, rfl⟩
    exact ⟨a, hx, ha⟩
  · rintro ⟨a, hx, ha⟩
    exact ⟨a, s', hx, ha, rfl⟩

/-- An action whose answer is only changed leaves what it left before. -/
theorem state_bind_pure {change : α → β} :
    ((x >>= fun a => pure (change a)).run s).state = (x.run s).state := by
  rw [run_bind]
  rcases x.run s with ⟨_ | a, t, events⟩ <;> rfl

/-- What may fail before anything is done leaves the state as it is. -/
theorem state_lift_bind {r : Except Fault α} (h : ∀ a, ((f a).run s).state = s) :
    ((lift r >>= f).run s).state = s := by
  rw [run_bind]
  cases r with
  | error fault => rfl
  | ok a => exact h a

end Bind

end Action

end MaterialNet
