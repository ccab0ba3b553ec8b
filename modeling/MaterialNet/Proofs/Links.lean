import Mathlib.Data.List.Nodup
import MaterialNet.Node

namespace MaterialNet.Node

/-!
# The links of a node

What the changes to a node's links leave behind.  All of them keep the node's name, storage and
kind, and with these its inputs and facets.

* `LinksSound` — no input is fed twice
* `linksSound_setLink`, `linksSound_dropLink`, `linksSound_scrub` — every change keeps that
* `mem_links_setLink`, … — which links there are after a change
-/

variable {n : Node} {l l' : Link} {input : Nat} {producer : Handle}

/-! ### What the links do not matter for -/

/-- Two nodes that differ in their links only. -/
def SameFace (n m : Node) : Prop := n.id = m.id ∧ n.storage = m.storage ∧ n.kind = m.kind

/-- What a node is checked for does not involve its links. -/
theorem SameFace.check {n m : Node} (h : SameFace n m) : n.check = m.check := by
  obtain ⟨hi, hs, hk⟩ := h
  simp [Node.check, Node.flaw?, hi, hs, hk]

/-- The number of inputs does not involve the links. -/
theorem SameFace.inputCount {n m : Node} (h : SameFace n m) : n.inputCount = m.inputCount := by
  obtain ⟨_, _, hk⟩ := h
  simp [Node.inputCount, hk]

/-- The types of a node's facets do not involve its links. -/
theorem SameFace.facetType {n m : Node} (h : SameFace n m) (facet : Facet) :
    n.facetType facet = m.facetType facet := by
  obtain ⟨hi, _, hk⟩ := h
  simp [Node.facetType, Node.type?, hi, hk]

theorem SameFace.isSink {n m : Node} (h : SameFace n m) : n.isSink = m.isSink := by
  simp [Node.isSink, h.2.2]

/-- Feeding an input changes the links only. -/
theorem sameFace_setLink (n : Node) (l : Link) : SameFace (n.setLink l) n := by
  unfold setLink
  split <;> exact ⟨rfl, rfl, rfl⟩

/-- Taking a link away changes the links only. -/
theorem sameFace_dropLink (n : Node) (input : Nat) : SameFace (n.dropLink input) n :=
  ⟨rfl, rfl, rfl⟩

/-- Scrubbing a producer changes the links only. -/
theorem sameFace_scrub (n : Node) (producer : Handle) : SameFace (n.scrub producer) n :=
  ⟨rfl, rfl, rfl⟩

/-! ### Finding a link -/

/-- The link of an input is one of the node's links, and it feeds this input. -/
theorem link?_eq_some (h : n.link? input = some l) : l ∈ n.links ∧ l.input = input :=
  ⟨List.mem_of_find?_eq_some h, by simpa using List.find?_some h⟩

/-- An input without a link is fed by none of the node's links. -/
theorem link?_eq_none : n.link? input = none ↔ ∀ l ∈ n.links, l.input ≠ input := by
  simp [link?]

/-- No input is fed twice. -/
def LinksSound (n : Node) : Prop := (n.links.map Link.input).Nodup

/-- Where no input is fed twice, the link of an input is the one that feeds it. -/
theorem LinksSound.link?_eq_some_iff (hn : n.LinksSound) :
    n.link? input = some l ↔ l ∈ n.links ∧ l.input = input := by
  refine ⟨Node.link?_eq_some, fun ⟨hl, hi⟩ => ?_⟩
  cases hf : n.link? input with
  | none => exact absurd hi (link?_eq_none.1 hf l hl)
  | some l' =>
    obtain ⟨hl', hi'⟩ := Node.link?_eq_some hf
    rw [List.inj_on_of_nodup_map hn hl' hl (hi'.trans hi.symm)]

/-! ### Feeding an input -/

/-- Replacing a link leaves the inputs that are fed in their order. -/
theorem map_input_replaceLink (l : Link) (ls : List Link) :
    (replaceLink l ls).map Link.input = ls.map Link.input := by
  induction ls with
  | nil => rfl
  | cons k rest ih =>
    simp only [replaceLink]
    by_cases hk : k.input = l.input
    · simp [hk]
    · simp [hk, ih]

/-- What is in the list after replacing is the new link or was there before. -/
theorem mem_replaceLink {ls : List Link} (h : l' ∈ replaceLink l ls) : l' = l ∨ l' ∈ ls := by
  induction ls with
  | nil => exact absurd h List.not_mem_nil
  | cons k rest ih =>
    simp only [replaceLink] at h
    split at h
    · rcases List.mem_cons.1 h with rfl | h
      · exact .inl rfl
      · exact .inr (List.mem_cons_of_mem _ h)
    · rcases List.mem_cons.1 h with rfl | h
      · exact .inr List.mem_cons_self
      · exact (ih h).imp_right (List.mem_cons_of_mem _)

/-- After feeding an input there is no link but the new one and those from before. -/
theorem mem_links_setLink (h : l' ∈ (n.setLink l).links) : l' = l ∨ l' ∈ n.links := by
  unfold setLink at h
  split at h
  · exact mem_replaceLink h
  · rcases List.mem_append.1 h with h | h
    · exact .inr h
    · exact .inl (List.mem_singleton.1 h)

/-- Where an input was fed, replacing its link leads there to the new one, and nowhere else. -/
theorem find?_replaceLink {ls : List Link} (h : ∃ k ∈ ls, k.input = l.input) (input : Nat) :
    (replaceLink l ls).find? (fun k => k.input == input)
      = if input = l.input then some l else ls.find? fun k => k.input == input := by
  -- By induction down to the first link of the input, which is the one that is replaced.
  induction ls with
  | nil => simp at h
  | cons k rest ih =>
    by_cases hk : k.input = l.input
    · by_cases hi : input = l.input <;> simp [replaceLink, hk, hi, eq_comm (a := l.input)]
    · have hrest : ∃ k ∈ rest, k.input = l.input := by simpa [hk] using h
      by_cases hi : k.input = input
      · simp [replaceLink, hi, hi ▸ hk]
      · simp [replaceLink, hk, hi, ih hrest]

/-- The link that feeds an input after one has been fed. -/
theorem link?_setLink (n : Node) (l : Link) (input : Nat) :
    (n.setLink l).link? input = if input = l.input then some l else n.link? input := by
  unfold setLink
  -- A fed input has its link replaced; for an open one the link is added at the end.
  cases hl : n.link? l.input with
  | some old => exact find?_replaceLink ⟨old, Node.link?_eq_some hl⟩ input
  | none =>
    simp only [link?] at hl ⊢
    by_cases hi : input = l.input
    · simp [hi, hl]
    · simp [hi, eq_comm (a := l.input)]

/-- Feeding an input replaces its link, so no input is fed twice. -/
theorem linksSound_setLink (hn : n.LinksSound) : (n.setLink l).LinksSound := by
  unfold setLink LinksSound
  cases hl : n.link? l.input with
  | some old =>
    simp only
    rw [map_input_replaceLink]
    exact hn
  | none =>
    simp only [List.map_append, List.map_cons, List.map_nil]
    -- The input was open, so the new link is the first to feed it.
    refine List.nodup_append.2 ⟨hn, List.nodup_singleton _, fun i hi j hj => ?_⟩
    obtain ⟨k, hk, rfl⟩ := List.mem_map.1 hi
    rw [List.mem_singleton.1 hj]
    exact link?_eq_none.1 hl k hk

/-! ### Taking links away -/

/-- Taking a link away adds none. -/
theorem mem_links_dropLink (h : l ∈ (n.dropLink input).links) : l ∈ n.links :=
  List.mem_of_mem_eraseP h

/-- Taking a link away feeds no input twice. -/
theorem linksSound_dropLink (hn : n.LinksSound) : (n.dropLink input).LinksSound :=
  hn.sublist (List.eraseP_sublist.map _)

/-- The input whose link is taken away is fed once less, and no other input is touched. -/
theorem map_input_dropLink (n : Node) (input : Nat) :
    (n.dropLink input).links.map Link.input = (n.links.map Link.input).erase input := by
  rw [List.erase_eq_eraseP', List.eraseP_map]
  rfl

/-- The link that feeds an input after one has been taken away. -/
theorem link?_dropLink (hn : n.LinksSound) (i : Nat) :
    (n.dropLink input).link? i = if i = input then none else n.link? i := by
  by_cases hi : i = input
  · -- The input is not fed twice.
    rw [if_pos hi, link?_eq_none]
    rintro l hl rfl
    have hmem := List.mem_map_of_mem (f := Link.input) hl
    rw [map_input_dropLink, hi] at hmem
    exact hn.not_mem_erase hmem
  · ext l
    rw [if_neg hi, (linksSound_dropLink hn).link?_eq_some_iff, hn.link?_eq_some_iff]
    refine and_congr_left fun hl => List.mem_eraseP_of_neg ?_
    simpa [hl] using hi

/-- Scrubbing a producer leaves the links to all other producers. -/
theorem mem_links_scrub : l ∈ (n.scrub producer).links ↔ l ∈ n.links ∧ l.producer ≠ producer := by
  simp [scrub]

/-- Scrubbing a producer feeds no input twice. -/
theorem linksSound_scrub (hn : n.LinksSound) : (n.scrub producer).LinksSound :=
  hn.sublist (List.filter_sublist.map _)

/-- The link that feeds an input after a producer has been scrubbed. -/
theorem link?_scrub (hn : n.LinksSound) (producer : Handle) (input : Nat) :
    (n.scrub producer).link? input = (n.link? input).filter fun l => l.producer ≠ producer := by
  ext l
  rw [(linksSound_scrub hn).link?_eq_some_iff, mem_links_scrub, Option.filter_eq_some_iff,
    hn.link?_eq_some_iff, decide_eq_true_iff]
  exact and_right_comm

end MaterialNet.Node
