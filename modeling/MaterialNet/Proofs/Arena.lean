import Mathlib.Data.List.Nodup
import MaterialNet.Arena

namespace MaterialNet.Arena

/-!
# What an arena's handles name

Each change of an arena is described by what its handles name afterwards.

* `WellFormed` — the places on the free list exist, are empty and are listed once
* `get?_insert`, `get?_of_remove?`, `get?_modify`, `get?_mapValues` — what a handle names after
  each change
* `wellFormed_insert`, … — every change keeps an arena well formed
-/

variable {α : Type}

/-! ### Cells -/

/-- A place and a version make a handle. -/
theorem handle_eq {h h' : Handle} (hp : h.place = h'.place) (hv : h.version = h'.version) :
    h = h' := by
  cases h; cases h'; simp_all

/-- A handle names a value exactly if its place holds the value with the handle's version. -/
theorem get?_eq_some {a : Arena α} {h : Handle} {x : α} :
    a.get? h = some x ↔ a.cell? h.place = some ⟨h.version, some x⟩ := by
  unfold get?
  cases hc : a.cell? h.place with
  | none => simp
  | some c =>
    obtain ⟨version, content⟩ := c
    by_cases hv : version = h.version <;> simp [hv]

/-- What a place holds does not depend on the free list. -/
theorem get?_congr {a b : Arena α} {h : Handle} (hc : a.cell? h.place = b.cell? h.place) :
    a.get? h = b.get? h := by
  simp only [get?, hc]

/-- Setting the cell of an existing place changes that place only. -/
theorem cell?_setCell {a : Arena α} {place : Nat} {c old : Cell α}
    (hp : a.cell? place = some old) (q : Nat) :
    (a.setCell place c).cell? q = if q = place then some c else a.cell? q := by
  have hne : place ≠ 0 := by rintro rfl; simp [cell?] at hp
  have hlt : place - 1 < a.cells.size := by
    simp only [cell?, hne, if_false] at hp
    exact (Array.getElem?_eq_some_iff.1 hp).1
  by_cases hq : q = 0
  · subst hq
    simp [cell?, Ne.symm hne]
  · by_cases hqp : q = place
    · subst hqp
      simp [cell?, setCell, hne, hlt]
    · have : place - 1 ≠ q - 1 := by omega
      simp [cell?, setCell, hq, hqp, Array.getElem?_setIfInBounds_ne this]

/-- A new place comes after all others. -/
theorem cell?_push (a : Arena α) (c : Cell α) (q : Nat) :
    ({ a with cells := a.cells.push c } : Arena α).cell? q
      = if q = a.cells.size + 1 then some c else a.cell? q := by
  by_cases hq : q = 0
  · simp [cell?, hq]
  · by_cases hs : q = a.cells.size + 1
    · simp [cell?, hs]
    · have : q - 1 ≠ a.cells.size := by omega
      simp [cell?, hq, hs, Array.getElem?_push, this]

/-- The place after the last one holds nothing. -/
theorem cell?_size_succ (a : Arena α) : a.cell? (a.cells.size + 1) = none := by
  simp [cell?]

/-! ### Well-formed arenas -/

/-- The free list names existing places that are empty, each of them once. -/
structure WellFormed (a : Arena α) : Prop where
  free_nodup : a.free.Nodup
  free_empty : ∀ place ∈ a.free, ∃ version, a.cell? place = some ⟨version, none⟩

/-- An arena without places has nothing on its free list. -/
theorem wellFormed_empty : (empty : Arena α).WellFormed :=
  ⟨List.nodup_nil, by simp [empty]⟩

/-! ### Storing a value -/

section Insert

variable {a : Arena α} {x : α}

/-- An insertion fills a place that no live handle points at, and touches nothing else. -/
theorem insert_spec (ha : a.WellFormed) (x : α) :
    ∃ version, (∀ v y, a.cell? (a.insert x).2.place ≠ some ⟨v, some y⟩)
      ∧ (a.insert x).2.version = version
      ∧ (∀ q, (a.insert x).1.cell? q
          = if q = (a.insert x).2.place then some ⟨version, some x⟩ else a.cell? q)
      ∧ (a.insert x).1.free = a.free.drop 1 := by
  unfold insert
  -- Without free places a new one is made; otherwise the first of the list is filled.
  cases hf : a.free with
  | nil =>
    refine ⟨1, fun v y => ?_, rfl, fun q => ?_, by simp⟩
    · simp [cell?_size_succ]
    · exact cell?_push a _ q
  | cons place rest =>
    obtain ⟨version, hc⟩ := ha.free_empty place (by simp [hf])
    refine ⟨version ||| 1, fun v y => ?_, ?_, fun q => ?_, ?_⟩
    · simp [hc]
    · simp [hc]
    · simp only [hc]
      exact cell?_setCell hc q
    · simp [hc]

/-- The handle of a new value named nothing before. -/
theorem get?_insert_handle (ha : a.WellFormed) : a.get? (a.insert x).2 = none := by
  obtain ⟨_, hempty, -, -, -⟩ := insert_spec ha x
  cases hg : a.get? (a.insert x).2 with
  | none => rfl
  | some y => exact absurd (get?_eq_some.1 hg) (hempty _ _)

/-- After an insertion its handle names the new value, and all other handles name what they named
    before. -/
theorem get?_insert (ha : a.WellFormed) (h : Handle) :
    (a.insert x).1.get? h = if h = (a.insert x).2 then some x else a.get? h := by
  obtain ⟨version, hempty, hversion, hcell, -⟩ := insert_spec ha x
  by_cases hh : h = (a.insert x).2
  · rw [if_pos hh, get?_eq_some, hh, hcell, if_pos rfl, hversion]
  · rw [if_neg hh]
    by_cases hp : h.place = (a.insert x).2.place
    · -- The place of the new value is shared: the versions differ, and the place was empty.
      have hv : version ≠ h.version := by
        rintro hv
        exact hh (handle_eq hp (hv.symm.trans hversion.symm))
      have hnew : (a.insert x).1.get? h = none := by
        simp only [get?, hcell, hp, if_true, hv, if_false]
      have hold : a.get? h = none := by
        cases hg : a.get? h with
        | none => rfl
        | some y => exact absurd (hp ▸ get?_eq_some.1 hg) (hempty _ _)
      rw [hnew, hold]
    · exact get?_congr (by rw [hcell, if_neg hp])

/-- A place leaves the free list when it is filled. -/
theorem wellFormed_insert (ha : a.WellFormed) : (a.insert x).1.WellFormed := by
  obtain ⟨_, hempty, -, hcell, hfree⟩ := insert_spec ha x
  refine ⟨?_, fun place hp => ?_⟩
  · rw [hfree]
    exact ha.free_nodup.sublist (List.drop_sublist _ _)
  · rw [hfree] at hp
    obtain ⟨version, hc⟩ := ha.free_empty place (List.mem_of_mem_drop hp)
    refine ⟨version, ?_⟩
    -- The place that was filled stood in front of the list, and it stood there once.
    have hne : place ≠ (a.insert x).2.place := by
      rintro rfl
      unfold insert at hp hc
      cases hf : a.free with
      | nil => simp [hf] at hp
      | cons q rest =>
        obtain ⟨_, hq⟩ := ha.free_empty q (by simp [hf])
        have := ha.free_nodup
        simp_all
    rw [hcell, if_neg hne, hc]

end Insert

/-! ### Removing a value -/

section Remove

variable {a b : Arena α} {h : Handle} {x : α}

/-- A removal empties the place, raises its version and puts it in front of the free list. -/
theorem remove?_eq_some (hr : a.remove? h = some (b, x)) :
    a.get? h = some x
      ∧ b = { a.setCell h.place ⟨h.version + 1, none⟩ with free := h.place :: a.free } := by
  obtain ⟨y, hy, he⟩ := Option.map_eq_some_iff.1 hr
  cases he
  exact ⟨hy, rfl⟩

/-- After a removal its handle names nothing, and all other handles name what they named
    before. -/
theorem get?_of_remove? (hr : a.remove? h = some (b, x)) (h' : Handle) :
    b.get? h' = if h' = h then none else a.get? h' := by
  obtain ⟨hg, rfl⟩ := remove?_eq_some hr
  have hc := get?_eq_some.1 hg
  have hset : ({ a.setCell h.place ⟨h.version + 1, none⟩ with free := h.place :: a.free }
      : Arena α).get? h' = (a.setCell h.place ⟨h.version + 1, none⟩).get? h' := rfl
  rw [hset]
  -- In the place of the removed value every handle is stale, as the others were before.
  by_cases hp : h'.place = h.place
  · have hnew : (a.setCell h.place ⟨h.version + 1, none⟩).get? h' = none := by
      simp [get?, cell?_setCell hc, hp]
    rw [hnew]
    by_cases hh : h' = h
    · rw [if_pos hh]
    · rw [if_neg hh]
      have hv : h.version ≠ h'.version := by
        intro hv
        exact hh (handle_eq hp hv.symm)
      simp [get?, hp, hc, hv]
  · rw [if_neg (by rintro rfl; exact hp rfl)]
    exact get?_congr (by rw [cell?_setCell hc, if_neg hp])

/-- A place enters the free list when it is emptied, and was not on it before. -/
theorem wellFormed_of_remove? (ha : a.WellFormed) (hr : a.remove? h = some (b, x)) :
    b.WellFormed := by
  obtain ⟨hg, rfl⟩ := remove?_eq_some hr
  have hc := get?_eq_some.1 hg
  have hcell (q : Nat) : ({ a.setCell h.place ⟨h.version + 1, none⟩ with
      free := h.place :: a.free } : Arena α).cell? q
      = if q = h.place then some ⟨h.version + 1, none⟩ else a.cell? q := cell?_setCell hc q
  refine ⟨List.nodup_cons.2 ⟨fun hm => ?_, ha.free_nodup⟩, fun place hp => ?_⟩
  · -- A place on the free list is empty, but the handle's place was in use.
    obtain ⟨_, he⟩ := ha.free_empty _ hm
    simp [hc] at he
  · rcases List.mem_cons.1 hp with rfl | hp
    · exact ⟨_, by rw [hcell, if_pos rfl]⟩
    · obtain ⟨version, he⟩ := ha.free_empty place hp
      have hne : place ≠ h.place := by
        rintro rfl
        simp [hc] at he
      exact ⟨version, by rw [hcell, if_neg hne, he]⟩

end Remove

/-! ### Changing values in place -/

section Modify

variable {a : Arena α} {h : Handle} {f : α → α}

/-- After a modification its handle names the changed value, and all other handles name what they
    named before. -/
theorem get?_modify (a : Arena α) (h : Handle) (f : α → α) (h' : Handle) :
    (a.modify h f).get? h' = if h' = h then (a.get? h).map f else a.get? h' := by
  unfold modify
  cases hg : a.get? h with
  | none =>
    by_cases hh : h' = h
    · simp [hh, hg]
    · simp [hh]
  | some x =>
    have hc := get?_eq_some.1 hg
    by_cases hh : h' = h
    · rw [if_pos hh, hh]
      exact get?_eq_some.2 (by rw [cell?_setCell hc, if_pos rfl])
    · rw [if_neg hh]
      -- Another handle with this place has an older version, before and after.
      by_cases hp : h'.place = h.place
      · have hv : h.version ≠ h'.version := by
          intro hv
          exact hh (handle_eq hp hv.symm)
        simp [get?, cell?_setCell hc, hp, hc, hv]
      · exact get?_congr (by rw [cell?_setCell hc, if_neg hp])

/-- The free list does not change when a value does. -/
theorem free_modify : (a.modify h f).free = a.free := by
  unfold modify
  split <;> rfl

/-- A place that was empty stays so when a value is modified. -/
theorem cell?_modify_of_empty {place : Nat} {version : UInt32}
    (he : a.cell? place = some ⟨version, none⟩) :
    (a.modify h f).cell? place = some ⟨version, none⟩ := by
  unfold modify
  cases hg : a.get? h with
  | none => exact he
  | some x =>
    have hc := get?_eq_some.1 hg
    have hne : place ≠ h.place := by
      rintro rfl
      simp [hc] at he
    simp only
    rw [cell?_setCell hc, if_neg hne, he]

/-- A value is changed where it is, so the free places stay free. -/
theorem wellFormed_modify (ha : a.WellFormed) : (a.modify h f).WellFormed := by
  refine ⟨by rw [free_modify]; exact ha.free_nodup, fun place hp => ?_⟩
  rw [free_modify] at hp
  obtain ⟨version, he⟩ := ha.free_empty place hp
  exact ⟨version, cell?_modify_of_empty he⟩

/-- Changing every value leaves places and versions as they are. -/
theorem cell?_mapValues (a : Arena α) (f : α → α) (place : Nat) :
    (a.mapValues f).cell? place
      = (a.cell? place).map fun c => { c with content := c.content.map f } := by
  unfold cell? mapValues
  split <;> simp

/-- Changing every value changes what each handle names. -/
theorem get?_mapValues (a : Arena α) (f : α → α) (h : Handle) :
    (a.mapValues f).get? h = (a.get? h).map f := by
  simp only [get?, cell?_mapValues]
  cases a.cell? h.place with
  | none => rfl
  | some c =>
    by_cases hv : c.version = h.version <;> simp [hv]

/-- Changing every value fills no place. -/
theorem wellFormed_mapValues (ha : a.WellFormed) : (a.mapValues f).WellFormed := by
  refine ⟨ha.free_nodup, fun place hp => ?_⟩
  obtain ⟨version, he⟩ := ha.free_empty place hp
  exact ⟨version, by rw [cell?_mapValues, he]; rfl⟩

end Modify

end MaterialNet.Arena
