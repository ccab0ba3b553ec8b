namespace MaterialNet

/-!
# Arenas — storage with handles that go stale

An arena keeps values in numbered places.  A place that has been emptied is used again for a later
value, the most recently emptied one first, and each use has a version of its own, so a handle to
a removed value never reaches the value that took its place.

* `Handle` — a place together with the version of its use
* `Arena` — with `get?`, `insert`, `remove`, `modify` and `mapValues`
-/

/-! ### Handles -/

/-- Names a value of an arena. Places are numbered from 1; the null handle has place 0. -/
structure Handle where
  place : Nat
  version : UInt32
deriving DecidableEq, Repr

namespace Handle

/-- The handle that names nothing in any arena. -/
def null : Handle := ⟨0, 1⟩

/-- The text of a handle in answers and messages. -/
def text (h : Handle) : String :=
  if h.place = 0 then "NodeHandle(null)"
  else "NodeHandle(" ++ toString h.place ++ "v" ++ toString h.version.toNat ++ ")"

/-- Handles are ordered by place, then by version. -/
instance : Ord Handle where
  compare := compareLex (compareOn Handle.place) (compareOn Handle.version)

instance : Std.TransOrd Handle :=
  inferInstanceAs (Std.TransCmp (compareLex (compareOn Handle.place) (compareOn Handle.version)))

instance : Std.LawfulEqOrd Handle where
  eq_of_compare {a b} h := by
    have h' : compareLex (compareOn Handle.place) (compareOn Handle.version) a b = .eq := h
    simp only [compareLex, compareOn, Ordering.then_eq_eq, Std.compare_eq_iff_eq] at h'
    cases a; cases b; simp_all

end Handle

/-! ### Arenas -/

/-- A place of an arena: the version of its current or last use, and the value that it holds. -/
structure Arena.Cell (α : Type) where
  version : UInt32
  content : Option α
deriving Repr

/-- An arena. `free` lists the emptied places, the most recently emptied first. -/
structure Arena (α : Type) where
  cells : Array (Arena.Cell α)
  free : List Nat
deriving Repr

namespace Arena

variable {α : Type}

/-- The arena without places. -/
def empty : Arena α := ⟨#[], []⟩

/-- The cell of a place. -/
def cell? (a : Arena α) (place : Nat) : Option (Cell α) :=
  if place = 0 then none else a.cells[place - 1]?

/-- The value that a handle names: there is one if the place is in use with the handle's
    version. -/
def get? (a : Arena α) (h : Handle) : Option α :=
  match a.cell? h.place with
  | some c => if c.version = h.version then c.content else none
  | none => none

/-- Whether a handle names a value. -/
def contains (a : Arena α) (h : Handle) : Bool := (a.get? h).isSome

/-- The handle of the value in the cell with index `i`, counted from 0. -/
def handleAt? (a : Arena α) (i : Nat) : Option Handle :=
  match a.cells[i]? with
  | some c => if c.content.isSome then some ⟨i + 1, c.version⟩ else none
  | none => none

/-- The handles of all values, by place. -/
def handles (a : Arena α) : List Handle :=
  (List.range a.cells.size).filterMap a.handleAt?

/-- Sets the cell of an existing place. -/
def setCell (a : Arena α) (place : Nat) (c : Cell α) : Arena α :=
  { a with cells := a.cells.setIfInBounds (place - 1) c }

/-- Stores a value in the most recently emptied place, or in a new one if none is empty.  The
    versions of a place in use are odd: the first is 1, and reuse makes an even version odd. -/
def insert (a : Arena α) (x : α) : Arena α × Handle :=
  let fresh : Arena α × Handle :=
    ({ a with cells := a.cells.push ⟨1, some x⟩ }, ⟨a.cells.size + 1, 1⟩)
  match a.free with
  | [] => fresh
  | place :: rest =>
    match a.cell? place with
    -- The free list names cells that exist; a place beyond them is passed over.
    | none => fresh
    | some c =>
      let version := c.version ||| 1
      ({ a.setCell place ⟨version, some x⟩ with free := rest }, ⟨place, version⟩)

/-- Removes the value that a handle names and gives it back.  The version of the place goes up,
    so the handle names nothing from now on. -/
def remove? (a : Arena α) (h : Handle) : Option (Arena α × α) :=
  (a.get? h).map fun x =>
    ({ a.setCell h.place ⟨h.version + 1, none⟩ with free := h.place :: a.free }, x)

/-- Changes the value that a handle names, if it names one. -/
def modify (a : Arena α) (h : Handle) (f : α → α) : Arena α :=
  match a.get? h with
  | some x => a.setCell h.place ⟨h.version, some (f x)⟩
  | none => a

/-- Changes every value. -/
def mapValues (a : Arena α) (f : α → α) : Arena α :=
  { a with cells := a.cells.map fun c => { c with content := c.content.map f } }

/-- All values, by place. -/
def values (a : Arena α) : List α := a.cells.toList.filterMap Cell.content

/-! ### Small facts -/

theorem cell?_empty (place : Nat) : (empty : Arena α).cell? place = none := by
  simp [cell?, empty]

theorem get?_empty (h : Handle) : (empty : Arena α).get? h = none := by
  simp [get?, cell?_empty]

/-- The listed handles are the ones that name a value. -/
theorem mem_handles (a : Arena α) (h : Handle) : h ∈ a.handles ↔ (a.get? h).isSome := by
  obtain ⟨place, version⟩ := h
  simp only [handles, List.mem_filterMap, List.mem_range, handleAt?]
  constructor
  · -- A listed handle has the version of its cell, and the cell is in use.
    rintro ⟨i, _, hm⟩
    cases hc : a.cells[i]? with
    | none => simp [hc] at hm
    | some c =>
      simp only [hc] at hm
      split at hm
      · rename_i hs
        obtain ⟨rfl, rfl⟩ := Handle.mk.inj (Option.some.inj hm)
        simpa [get?, cell?, hc] using hs
      · cases hm
  · -- A handle with a value points at a cell with its version, which the list goes through.
    intro hs
    cases place with
    | zero => simp [get?, cell?] at hs
    | succ i =>
      cases hc : a.cells[i]? with
      | none => simp [get?, cell?, hc] at hs
      | some c =>
        by_cases hv : c.version = version
        · simp only [get?, cell?, Nat.add_one_ne_zero, if_false, Nat.add_sub_cancel, hc, hv,
            if_true] at hs
          exact ⟨i, (Array.getElem?_eq_some_iff.1 hc).1, by simp [hc, hs, hv]⟩
        · simp [get?, cell?, hc, hv] at hs

end Arena

end MaterialNet
