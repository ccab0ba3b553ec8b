import Mathlib.Algebra.Ring.Nat
import MaterialNet.Proofs.Editing

namespace MaterialNet

/-!
# Handles are never revived

The version of a place goes up whenever its value is removed and whenever the place is used again.
Versions have 32 bits, so a place can be used again `2 ^ 31` times before they come around, and in
all runs that are shorter the handle of a removed node stays dead, whatever is added in its place
or under its name.

* `Arena.Odd`, `Arena.Spent` — what versions say about live handles and about removed ones
* `Network.after_cases` — what an edit does to a network
* `Network.reuses`, `Network.added` — how often a run uses a place again, and the handles it gives
* `Network.Dead` — what becomes of the edits that name a handle
* `Network.Arises.lasting` — handles in a run of edits
-/

namespace Arena

variable {α : Type} {a b : Arena α} {h g : Handle} {x : α} {k : Nat}

/-! ### The versions of places in use -/

/-- Handles that name values have odd versions. -/
def Odd (a : Arena α) : Prop := ∀ h, (a.get? h).isSome → h.version.toNat % 2 = 1

/-- An arena without places has no even version. -/
theorem odd_empty : (empty : Arena α).Odd := by
  intro h hlive
  simp [get?_empty] at hlive

/-- A handle is new either because its place is, or because the version of its place has moved to
    the next odd number. -/
theorem version_insert (ha : a.WellFormed) (x : α) :
    (a.insert x).2.version.toNat % 2 = 1
      ∧ ∀ c, a.cell? (a.insert x).2.place = some c →
        (a.insert x).2.version = c.version ||| 1 := by
  unfold insert
  cases hf : a.free with
  | nil => exact ⟨rfl, fun c hc => by simp [cell?_size_succ] at hc⟩
  | cons place rest =>
    obtain ⟨version, hc⟩ := ha.free_empty place (by simp [hf])
    simp [hc, Nat.or_mod_two_eq_one]

/-- A place that is filled gets an odd version. -/
theorem odd_insert (ha : a.WellFormed) (hodd : a.Odd) : (a.insert x).1.Odd := by
  intro h hlive
  rw [get?_insert ha] at hlive
  split at hlive
  · rename_i hh
    rw [hh]
    exact (version_insert ha x).1
  · exact hodd h hlive

/-- A place that is emptied is not in use. -/
theorem odd_of_remove? (hodd : a.Odd) (hr : a.remove? h = some (b, x)) : b.Odd := by
  intro g hlive
  rw [get?_of_remove? hr] at hlive
  split at hlive
  · cases hlive
  · exact hodd g hlive

/-- A changed value keeps its version. -/
theorem odd_modify (hodd : a.Odd) {f : α → α} : (a.modify h f).Odd := by
  intro g hlive
  rw [get?_modify] at hlive
  split at hlive
  · rename_i hg
    rw [Option.isSome_map] at hlive
    exact hg ▸ hodd h hlive
  · exact hodd g hlive

/-- Changing every value keeps all versions. -/
theorem odd_mapValues (hodd : a.Odd) {f : α → α} : (a.mapValues f).Odd := by
  intro g hlive
  rw [get?_mapValues, Option.isSome_map] at hlive
  exact hodd g hlive

/-! ### The versions of places that are used again -/

/-- The value of the handle has been removed, and its place has been used `k` times since then:
    the version is `2 * k` ahead if the place is in use, and one more if it is empty. -/
def Spent (a : Arena α) (h : Handle) (k : Nat) : Prop :=
  ∃ c, a.cell? h.place = some c
    ∧ (c.content.isSome ∧ 0 < k ∧ c.version.toNat = (h.version.toNat + 2 * k) % UInt32.size
      ∨ c.content = none ∧ c.version.toNat = (h.version.toNat + 2 * k + 1) % UInt32.size)

/-- Versions do not come around before a place has been used `2 ^ 31` times. -/
theorem Spent.get?_eq_none (hs : a.Spent h k) (hk : k < 2 ^ 31) : a.get? h = none := by
  obtain ⟨c, hc, ⟨-, hpos, hversion⟩ | ⟨hempty, -⟩⟩ := hs
  · have hlt := h.version.toNat_lt
    have hne : c.version ≠ h.version := by
      intro he
      rw [he, UInt32.size] at hversion
      omega
    simp [get?, hc, hne]
  · simp [get?, hc, hempty]

/-- A removal spends the handle. -/
theorem spent_of_remove? (hr : a.remove? h = some (b, x)) : b.Spent h 0 := by
  obtain ⟨hg, rfl⟩ := remove?_eq_some hr
  have hcell := cell?_setCell (c := ⟨h.version + 1, none⟩) (get?_eq_some.1 hg) h.place
  rw [if_pos rfl] at hcell
  exact ⟨_, hcell, .inr ⟨rfl, by simp [UInt32.size]⟩⟩

/-- A new value counts as one more use of its place. -/
theorem Spent.insert (hs : a.Spent h k) (ha : a.WellFormed) (hodd : h.version.toNat % 2 = 1) :
    (a.insert x).1.Spent h (if (a.insert x).2.place = h.place then k + 1 else k) := by
  obtain ⟨version, hfree, hversion, hcell, -⟩ := insert_spec ha x
  obtain ⟨c, hc, huse⟩ := hs
  by_cases hp : (a.insert x).2.place = h.place
  · rw [if_pos hp]
    rcases huse with ⟨hlive, -⟩ | ⟨-, hc'⟩
    · -- The place of a new value is not in use.
      obtain ⟨y, hy⟩ := Option.isSome_iff_exists.1 hlive
      refine absurd ?_ (hfree c.version y)
      rw [hp, hc, ← hy]
    · refine ⟨_, by rw [hcell, if_pos hp.symm], .inl ⟨rfl, by omega, ?_⟩⟩
      have hnext := (version_insert ha x).2 c (hp ▸ hc)
      have heven : c.version.toNat = 2 ^ 1 * (c.version.toNat / 2) := by
        rw [UInt32.size] at hc'
        omega
      have hor : c.version.toNat ||| 1 = c.version.toNat + 1 := by
        rw [heven, ← Nat.two_pow_add_eq_or_of_lt (by decide)]
      rw [← hversion, hnext, UInt32.toNat_or, show (1 : UInt32).toNat = 1 from rfl, hor]
      rw [UInt32.size] at hc' ⊢
      omega
  · rw [if_neg hp]
    exact ⟨c, by rw [hcell, if_neg (Ne.symm hp)]; exact hc, huse⟩

/-- Other removals leave a spent handle as far behind as it was. -/
theorem Spent.of_remove? (hs : a.Spent h k) (hr : a.remove? g = some (b, x)) : b.Spent h k := by
  obtain ⟨hg, rfl⟩ := remove?_eq_some hr
  obtain ⟨c, hc, huse⟩ := hs
  have hcell := cell?_setCell (c := ⟨g.version + 1, none⟩) (get?_eq_some.1 hg) h.place
  by_cases hp : h.place = g.place
  · -- The value that is removed is the latest one of the place.
    have hlive := get?_eq_some.1 hg
    rw [← hp, hc, Option.some.injEq] at hlive
    rw [if_pos hp] at hcell
    obtain ⟨-, -, hversion⟩ | ⟨hempty, -⟩ := huse
    · refine ⟨_, hcell, .inr ⟨rfl, ?_⟩⟩
      rw [hlive] at hversion
      rw [UInt32.toNat_add, hversion, show (1 : UInt32).toNat = 1 from rfl]
      exact Nat.mod_add_mod _ _ _
    · rw [hlive] at hempty
      cases hempty
  · rw [if_neg hp] at hcell
    exact ⟨c, hcell.trans hc, huse⟩

/-- A changed value leaves a spent handle as far behind as it was. -/
theorem Spent.modify (hs : a.Spent h k) {f : α → α} : (a.modify g f).Spent h k := by
  obtain ⟨c, hc, huse⟩ := hs
  unfold Arena.modify
  cases hg : a.get? g with
  | none => exact ⟨c, hc, huse⟩
  | some y =>
    have hcell := cell?_setCell (c := ⟨g.version, some (f y)⟩) (get?_eq_some.1 hg) h.place
    -- The value that is changed may be the latest one of the place; it keeps its version.
    by_cases hp : h.place = g.place
    · have hlive := get?_eq_some.1 hg
      rw [← hp, hc, Option.some.injEq] at hlive
      rw [if_pos hp] at hcell
      subst hlive
      exact ⟨_, hcell, by simpa using huse⟩
    · rw [if_neg hp] at hcell
      exact ⟨c, hcell.trans hc, huse⟩

/-- So does changing every value. -/
theorem Spent.mapValues (hs : a.Spent h k) {f : α → α} : (a.mapValues f).Spent h k := by
  obtain ⟨c, hc, huse⟩ := hs
  refine ⟨{ c with content := c.content.map f }, by rw [cell?_mapValues, hc]; rfl, ?_⟩
  simpa using huse

end Arena

/-- The call edits a network and does not build another one in its place. -/
def Call.isEdit : Call → Bool
  | .load _ => false
  | _ => true

namespace Network

variable {net net' : Network} {c : Call} {calls calls' : List Call} {h : Handle} {n : Node}

/-! ### What an edit does -/

/-- The handle that a call answers with, if it adds a node. -/
def added? (net : Network) : Call → Option Handle
  | .add node =>
    match net.add node with
    | .ok e => some e.answer
    | .error _ => none
  | _ => none

/-- An edit is made or refused. -/
theorem afterEdit_cases {α : Type} (net : Network) (r : Except Fault (Edit α)) :
    (∃ e, r = .ok e ∧ net.afterEdit r = e.network)
      ∨ (∃ fault, r = .error fault) ∧ net.afterEdit r = net.withSettings net.settings := by
  cases r with
  | ok e => exact .inl ⟨e, rfl, rfl⟩
  | error fault => exact .inr ⟨⟨fault, rfl⟩, rfl⟩

/-- Adding a node that is accepted leads to the network of the edit. -/
theorem after_of_add {e : Edit Handle} (he : net.add n = .ok e) :
    net.after (.add n) = e.network := by
  rw [Network.after, he]
  rfl

/-- Removing a node that may go leads to the network of the edit. -/
theorem after_of_remove {e : Edit Node} (he : net.remove h = .ok e) :
    net.after (.remove h) = e.network := by
  rw [Network.after, he]
  rfl

/-- An edit adds a node, removes one, or changes no more than the links of one, or the
    settings. -/
theorem after_cases (net : Network) (hc : c.isEdit = true) :
    (∃ node e, c = .add node ∧ net.add node = .ok e ∧ net.after c = e.network)
      ∨ (∃ r e, c = .remove r ∧ net.remove r = .ok e ∧ net.after c = e.network)
      ∨ (∃ consumer f, net.added? c = none ∧ (∀ n, Node.SameFace (f n) n)
        ∧ net.after c = { net with arena := net.arena.modify consumer f })
      ∨ ∃ settings, net.added? c = none ∧ net.after c = net.withSettings settings := by
  -- Making a connection changes the links of one node, or nothing if it is refused.
  have hconnect (consumer : Handle) (link : Link) (hadded : net.added? c = none)
      (hc : net.after c = net.afterEdit (net.connect consumer link)) :
      (∃ consumer f, net.added? c = none ∧ (∀ n, Node.SameFace (f n) n)
        ∧ net.after c = { net with arena := net.arena.modify consumer f })
      ∨ ∃ settings, net.added? c = none ∧ net.after c = net.withSettings settings := by
    rcases net.afterEdit_cases (net.connect consumer link) with ⟨e, he, hafter⟩ | ⟨-, hrefused⟩
    · refine .inl ⟨consumer, _, hadded, fun n => n.sameFace_setLink link, ?_⟩
      exact hc.trans (hafter.trans (connect_eq_ok he).2.2)
    · exact .inr ⟨_, hadded, hc.trans hrefused⟩
  cases c with
  | add node =>
    rcases net.afterEdit_cases (net.add node) with ⟨e, he, hafter⟩ | ⟨⟨fault, hf⟩, hrefused⟩
    · exact .inl ⟨node, e, rfl, he, hafter⟩
    · exact .inr (.inr (.inr ⟨_, by simp [added?, hf], hrefused⟩))
  | remove r =>
    rcases net.afterEdit_cases (net.remove r) with ⟨e, he, hafter⟩ | ⟨-, hrefused⟩
    · exact .inr (.inl ⟨r, e, rfl, he, hafter⟩)
    · exact .inr (.inr (.inr ⟨_, rfl, hrefused⟩))
  | connect consumer link => exact .inr (.inr (hconnect consumer link rfl rfl))
  | connectSlot slot producer facet =>
    exact .inr (.inr (hconnect net.sink ⟨producer, facet, slot.index⟩ rfl rfl))
  | disconnect consumer input =>
    rcases net.afterEdit_cases (net.disconnect consumer input) with ⟨e, he, hafter⟩ | ⟨-, hrefused⟩
    · obtain ⟨node, -, -, hnet⟩ := disconnect_eq_ok he
      exact .inr (.inr (.inl ⟨consumer, _, rfl, fun n => n.sameFace_dropLink input,
        hafter.trans hnet⟩))
    · exact .inr (.inr (.inr ⟨_, rfl, hrefused⟩))
  | configure settings => exact .inr (.inr (.inr ⟨settings, rfl, rfl⟩))
  | load d => cases hc

/-- No edit changes which node is the sink. -/
theorem sink_after (net : Network) (hc : c.isEdit = true) : (net.after c).sink = net.sink := by
  rcases net.after_cases hc with ⟨node, e, -, he, ha⟩ | ⟨r, e, -, he, ha⟩ | ⟨_, _, -, -, ha⟩
    | ⟨_, -, ha⟩
  · rw [ha, sink_of_add he]
  · rw [ha, sink_of_remove he]
  · rw [ha]
  · rw [ha]
    rfl

/-- A live node is there after an edit with the same face, unless it has been removed. -/
theorem node?_after (hw : net.WellFormed) (hc : c.isEdit = true) (hn : net.node? h = some n)
    (hkept : h = net.sink ∨ c ≠ .remove h) :
    ∃ n', (net.after c).node? h = some n' ∧ n'.SameFace n := by
  -- A live handle survives every kind of change but its own removal.
  rcases net.after_cases hc with ⟨node, e, -, he, ha⟩ | ⟨r, e, hr, he, ha⟩ | ⟨k, f, -, hf, ha⟩
    | ⟨_, -, ha⟩
  · rw [ha]
    exact ⟨n, node?_of_add_of_live hw he hn, rfl, rfl, rfl⟩
  · rw [ha, node?_of_remove he, if_neg, hn]
    · exact ⟨_, rfl, n.sameFace_scrub r⟩
    · rintro rfl
      exact hkept.elim (remove_eq_ok he).1 fun hne => hne hr
  · rw [ha]
    show ∃ n', (net.arena.modify k f).get? h = some n' ∧ n'.SameFace n
    rw [Arena.get?_modify]
    split
    · rename_i hh
      rw [← hh, show net.arena.get? h = some n from hn]
      exact ⟨f n, rfl, hf n⟩
    · exact ⟨n, hn, rfl, rfl, rfl⟩
  · rw [ha]
    exact ⟨n, hn, rfl, rfl, rfl⟩

/-- Every edit keeps the versions in use odd. -/
theorem odd_after (hw : net.WellFormed) (hc : c.isEdit = true) (hodd : net.arena.Odd) :
    (net.after c).arena.Odd := by
  rcases net.after_cases hc with ⟨node, e, -, he, ha⟩ | ⟨r, e, -, he, ha⟩ | ⟨k, f, -, -, ha⟩
    | ⟨_, -, ha⟩
  · rw [ha, (add_eq_ok he).2.2.2]
    exact Arena.odd_insert hw.arena hodd
  · obtain ⟨-, -, arena, hr, hn⟩ := remove_eq_ok he
    rw [ha, hn]
    exact Arena.odd_mapValues (Arena.odd_of_remove? hodd hr)
  · rw [ha]
    exact Arena.odd_modify hodd
  · rw [ha]
    exact hodd

/-! ### Places that are used again -/

/-- The handles that calls answer with, in order. -/
def added (net : Network) : List Call → List Handle
  | [] => []
  | c :: rest => (net.added? c).toList ++ (net.after c).added rest

/-- How often calls use a place again: a node is added, and its place has been there before. -/
def reuses (net : Network) (place : Nat) : List Call → Nat
  | [] => 0
  | c :: rest =>
    (if (net.added? c).any fun h => h.place = place && (net.arena.cell? place).isSome then 1 else 0)
      + (net.after c).reuses place rest

/-- A bound for the reuses of all calls is one for those of the later calls. -/
theorem reuses_after_lt {c : Call} {rest : List Call} {bound : Nat}
    (h : ∀ place, net.reuses place (c :: rest) < bound) (place : Nat) :
    (net.after c).reuses place rest < bound :=
  Nat.lt_of_le_of_lt (Nat.le_add_left _ _) (h place)

/-- Every place is used again at most once a call. -/
theorem reuses_le_length (net : Network) (place : Nat) (calls : List Call) :
    net.reuses place calls ≤ calls.length := by
  induction calls generalizing net with
  | nil => exact Nat.le_refl 0
  | cons c rest ih =>
    have := ih (net.after c)
    simp only [reuses, List.length_cons]
    split <;> omega

/-- Calls are made one after the other. -/
theorem run_append (net : Network) (calls calls' : List Call) :
    net.run (calls ++ calls') = (net.run calls).run calls' :=
  List.foldl_append

/-- The reuses of a place add up. -/
theorem reuses_append (net : Network) (place : Nat) (calls calls' : List Call) :
    net.reuses place (calls ++ calls')
      = net.reuses place calls + (net.run calls).reuses place calls' := by
  induction calls generalizing net with
  | nil => simp [reuses, run]
  | cons c rest ih =>
    rw [List.cons_append, reuses, reuses, ih, Nat.add_assoc]
    rfl

/-- The handles that calls have given out stand in the order of the calls. -/
theorem added_append (net : Network) (calls calls' : List Call) :
    net.added (calls ++ calls') = net.added calls ++ (net.run calls).added calls' := by
  induction calls generalizing net with
  | nil => rfl
  | cons c rest ih =>
    rw [List.cons_append, added, added, ih, List.append_assoc]
    rfl

/-- A removed value stays spent; an edit counts for its place if it uses the place again. -/
theorem spent_after (hw : net.WellFormed) (hc : c.isEdit = true) (hodd : h.version.toNat % 2 = 1)
    {k : Nat} (hs : net.arena.Spent h k) :
    (net.after c).arena.Spent h (k + net.reuses h.place [c]) := by
  have hcell : (net.arena.cell? h.place).isSome := by
    obtain ⟨cell, hcell, -⟩ := hs
    simp [hcell]
  -- Only adding a node uses a place again.
  have hnone (hadded : net.added? c = none) : k + net.reuses h.place [c] = k := by
    simp [reuses, hadded]
  rcases net.after_cases hc with ⟨node, e, rfl, he, ha⟩ | ⟨r, e, rfl, he, ha⟩
    | ⟨q, f, hadded, -, ha⟩ | ⟨_, hadded, ha⟩
  · obtain ⟨-, -, hanswer, hnet⟩ := add_eq_ok he
    have hreuses : k + net.reuses h.place [.add node]
        = if e.answer.place = h.place then k + 1 else k := by
      simp only [reuses, added?, he, Option.any_some, hcell, Bool.and_true, decide_eq_true_eq]
      split <;> rfl
    rw [ha, hnet, hreuses, hanswer]
    exact hs.insert hw.arena hodd
  · obtain ⟨-, -, arena, hr, hnet⟩ := remove_eq_ok he
    rw [ha, hnet, hnone rfl]
    exact (hs.of_remove? hr).mapValues
  · rw [ha, hnone hadded]
    exact hs.modify
  · rw [ha, hnone hadded]
    exact hs

/-! ### Runs of edits -/

/-- Any calls keep a network well formed. -/
theorem WellFormed.run (hw : net.WellFormed) (calls : List Call) : (net.run calls).WellFormed := by
  induction calls generalizing net with
  | nil => exact hw
  | cons c rest ih => exact ih (hw.after c)

/-- Any edits keep the versions in use odd. -/
theorem odd_run (hw : net.WellFormed) (hcalls : ∀ c ∈ calls, c.isEdit = true)
    (hodd : net.arena.Odd) : (net.run calls).arena.Odd := by
  induction calls generalizing net with
  | nil => exact hodd
  | cons c rest ih =>
    obtain ⟨hc, hrest⟩ := List.forall_mem_cons.1 hcalls
    exact ih (hw.after c) hrest (odd_after hw hc hodd)

/-- No edits change which node is the sink. -/
theorem sink_run (hcalls : ∀ c ∈ calls, c.isEdit = true) : (net.run calls).sink = net.sink := by
  induction calls generalizing net with
  | nil => rfl
  | cons c rest ih =>
    obtain ⟨hc, hrest⟩ := List.forall_mem_cons.1 hcalls
    exact (ih hrest).trans (net.sink_after hc)

/-- A live node is there after a run with the same face, unless the run tries to remove it. -/
theorem node?_run (hw : net.WellFormed) (hcalls : ∀ c ∈ calls, c.isEdit = true)
    (hn : net.node? h = some n) (hkept : h = net.sink ∨ .remove h ∉ calls) :
    ∃ n', (net.run calls).node? h = some n' ∧ n'.SameFace n := by
  -- Call by call; the node may lose links on the way, but keeps its face.
  induction calls generalizing net n with
  | nil => exact ⟨n, hn, rfl, rfl, rfl⟩
  | cons c rest ih =>
    obtain ⟨hc, hrest⟩ := List.forall_mem_cons.1 hcalls
    obtain ⟨n', hn', hface⟩ := node?_after hw hc hn
      (hkept.imp_right fun hne he => hne (he ▸ List.mem_cons_self))
    obtain ⟨n'', hn'', hface'⟩ := ih (hw.after c) hrest hn'
      (hkept.imp (fun he => he.trans (net.sink_after hc).symm)
        fun hne hmem => hne (List.mem_cons_of_mem _ hmem))
    exact ⟨n'', hn'', hface'.1.trans hface.1, hface'.2.1.trans hface.2.1,
      hface'.2.2.trans hface.2.2⟩

/-- What is spent stays spent in a run. -/
theorem spent_run (hw : net.WellFormed) (hcalls : ∀ c ∈ calls, c.isEdit = true)
    (hodd : h.version.toNat % 2 = 1) {k : Nat} (hs : net.arena.Spent h k) :
    (net.run calls).arena.Spent h (k + net.reuses h.place calls) := by
  induction calls generalizing net k with
  | nil => exact hs
  | cons c rest ih =>
    obtain ⟨hc, hrest⟩ := List.forall_mem_cons.1 hcalls
    have hrun := ih (hw.after c) hrest (spent_after hw hc hodd hs)
    rw [Nat.add_assoc] at hrun
    rwa [← List.singleton_append, reuses_append]

/-- The handle of a node that has been removed stays dead in a run that does not use its place too
    often. -/
theorem node?_run_of_remove (hw : net.WellFormed) (hodd : net.arena.Odd)
    (hcalls : ∀ c ∈ calls, c.isEdit = true) {e : Edit Node} (he : net.remove h = .ok e)
    (hreuses : e.network.reuses h.place calls < 2 ^ 31) : (e.network.run calls).node? h = none := by
  obtain ⟨-, hlive, arena, hr, hnet⟩ := remove_eq_ok he
  -- The version of the place is one ahead of the handle's, and it only goes up from there.
  have hspent : e.network.arena.Spent h 0 := by
    rw [hnet]
    exact (Arena.spent_of_remove? hr).mapValues
  have hversion := hodd h (by rw [show net.arena.get? h = _ from hlive]; rfl)
  refine (spent_run (hw.remove he) hcalls hversion hspent).get?_eq_none ?_
  omega

/-- Only adding a node gives a handle out. -/
theorem added?_eq_some (hadded : net.added? c = some h) :
    ∃ node e, c = .add node ∧ net.add node = .ok e ∧ e.answer = h := by
  cases c with
  | add node =>
    simp only [added?] at hadded
    split at hadded
    · rename_i e he
      exact ⟨node, e, rfl, he, Option.some.inj hadded⟩
    · cases hadded
  | _ => cases hadded

/-- The handle that a call answers with named nothing before it. -/
theorem node?_eq_none_of_added (hw : net.WellFormed) (hadded : net.added? c = some h) :
    net.node? h = none := by
  obtain ⟨node, e, -, he, rfl⟩ := added?_eq_some hadded
  exact node?_answer_of_add hw he

/-- The handle that a call answers with names a node after it. -/
theorem node?_of_added (hw : net.WellFormed) (hadded : net.added? c = some h) :
    ∃ n, (net.after c).node? h = some n := by
  obtain ⟨node, e, rfl, he, rfl⟩ := added?_eq_some hadded
  exact ⟨{ node with links := [] }, by rw [after_of_add he, node?_of_add hw he, if_pos rfl]⟩

/-- A handle that a run answers with names a node at some point of the run. -/
theorem exists_live_of_mem_added (hw : net.WellFormed) (hmem : h ∈ net.added calls) :
    ∃ before after, calls = before ++ after ∧ ∃ n, (net.run before).node? h = some n := by
  induction calls generalizing net with
  | nil => cases hmem
  | cons c rest ih =>
    rcases List.mem_append.1 hmem with hc | hrest
    · exact ⟨[c], rest, rfl, node?_of_added hw (Option.mem_toList.1 hc)⟩
    · obtain ⟨before, after, rfl, hlive⟩ := ih (hw.after c) hrest
      exact ⟨c :: before, after, rfl, hlive⟩

/-- The handle of a node that has been removed is not answered with later. -/
theorem not_mem_added_of_remove (hw : net.WellFormed) (hodd : net.arena.Odd)
    (hcalls : ∀ c ∈ calls, c.isEdit = true) {e : Edit Node} (he : net.remove h = .ok e)
    (hreuses : ∀ place, e.network.reuses place calls < 2 ^ 31) : h ∉ e.network.added calls := by
  intro hmem
  obtain ⟨before, after, rfl, n, hn⟩ := exists_live_of_mem_added (hw.remove he) hmem
  have hbefore := hreuses h.place
  rw [reuses_append] at hbefore
  have hnone := node?_run_of_remove hw hodd (List.forall_mem_append.1 hcalls).1 he (by omega)
  rw [hnone] at hn
  cases hn

/-- The handle of a node that is there is not answered with later. -/
theorem not_mem_added_of_node? (hw : net.WellFormed) (hodd : net.arena.Odd)
    (hcalls : ∀ c ∈ calls, c.isEdit = true) (hreuses : ∀ place, net.reuses place calls < 2 ^ 31)
    (hn : net.node? h = some n) : h ∉ net.added calls := by
  induction calls generalizing net n with
  | nil => exact List.not_mem_nil
  | cons c rest ih =>
    obtain ⟨hc, hrest⟩ := List.forall_mem_cons.1 hcalls
    have hlater := reuses_after_lt hreuses
    intro hmem
    rcases List.mem_append.1 hmem with hfirst | hmem
    · rw [node?_eq_none_of_added hw (Option.mem_toList.1 hfirst)] at hn
      cases hn
    · have hstays {n' : Node} (hn' : (net.after c).node? h = some n') : False :=
        ih (hw.after c) (odd_after hw hc hodd) hrest hlater hn' hmem
      -- The first call leaves the node where it is, or it removes the node.
      by_cases hremove : c = .remove h
      · subst hremove
        rcases net.afterEdit_cases (net.remove h) with ⟨e, he, -⟩ | ⟨-, hrefused⟩
        · rw [after_of_remove he] at hmem hlater
          exact not_mem_added_of_remove hw hodd hrest he hlater hmem
        · have hafter : net.after (.remove h) = net := hrefused
          exact hstays (hafter ▸ hn)
      · obtain ⟨n', hn', -⟩ := node?_after hw hc hn (.inr hremove)
        exact hstays hn'

/-- A run answers with different handles. -/
theorem nodup_added (hw : net.WellFormed) (hodd : net.arena.Odd)
    (hcalls : ∀ c ∈ calls, c.isEdit = true) (hreuses : ∀ place, net.reuses place calls < 2 ^ 31) :
    (net.added calls).Nodup := by
  -- A handle that has been given out is live, so no later call gives it out again.
  induction calls generalizing net with
  | nil => exact List.nodup_nil
  | cons c rest ih =>
    obtain ⟨hc, hrest⟩ := List.forall_mem_cons.1 hcalls
    have hlater := reuses_after_lt hreuses
    have hodd' := odd_after hw hc hodd
    refine List.nodup_append.2 ⟨?_, ih (hw.after c) hodd' hrest hlater, ?_⟩
    · cases net.added? c <;> simp
    · rintro h hh _ hh' rfl
      obtain ⟨n, hn⟩ := node?_of_added hw (Option.mem_toList.1 hh)
      exact not_mem_added_of_node? (hw.after c) hodd' hrest hlater hn hh'

/-! ### Versions in the networks that arise -/

/-- Loading nodes is adding them one by one. -/
theorem exists_run_of_addEntries {es : List NodeEntry} (hg : (addEntries es).Gives net () net') :
    ∃ calls, (∀ c ∈ calls, c.isEdit = true) ∧ net' = net.run calls := by
  induction es generalizing net with
  | nil =>
    obtain ⟨-, rfl⟩ := Action.gives_pure.1 hg
    exact ⟨[], nofun, rfl⟩
  | cons entry rest ih =>
    obtain ⟨_, net₁, hadd, hrest⟩ := Action.gives_bind.1 hg
    obtain ⟨e, he, -, rfl⟩ := gives_apply.1 hadd
    obtain ⟨calls, hcalls, rfl⟩ := ih hrest
    refine ⟨.add ⟨entry.id, entry.storage, entry.kind, []⟩ :: calls,
      List.forall_mem_cons.2 ⟨rfl, hcalls⟩, ?_⟩
    simp [run, Network.after, afterEdit, he]

/-- Loading connections is making them one by one. -/
theorem exists_run_of_addConnections {cs : List Connection}
    (hg : (addConnections cs).Gives net () net') :
    ∃ calls, (∀ c ∈ calls, c.isEdit = true) ∧ net' = net.run calls := by
  induction cs generalizing net with
  | nil =>
    obtain ⟨-, rfl⟩ := Action.gives_pure.1 hg
    exact ⟨[], nofun, rfl⟩
  | cons c rest ih =>
    obtain ⟨_, net₁, hconnect, hrest⟩ := Action.gives_bind.1 hg
    obtain ⟨e, he, -, rfl⟩ := gives_apply.1 hconnect
    obtain ⟨calls, hcalls, rfl⟩ := ih hrest
    unfold connectByName at he
    obtain ⟨producer, -, he⟩ := bind_ok_iff.1 he
    obtain ⟨consumer, -, he⟩ := bind_ok_iff.1 he
    refine ⟨.connect consumer ⟨producer, c.facet, c.input.toNat⟩ :: calls,
      List.forall_mem_cons.2 ⟨rfl, hcalls⟩, ?_⟩
    simp [run, Network.after, afterEdit, he]

/-- A network is built by edits of a new one. -/
theorem exists_run_of_build {d : Description} (hb : (build d).result = .ok ()) :
    ∃ calls, (∀ c ∈ calls, c.isEdit = true) ∧ (build d).state = (new d.settings).run calls := by
  have hg : (addAll d).Gives (new d.settings) () (build d).state := ⟨hb, rfl⟩
  unfold addAll at hg
  obtain ⟨_, net₁, hentries, hg⟩ := Action.gives_bind.1 hg
  obtain ⟨_, net₂, hconnections, hg⟩ := Action.gives_bind.1 hg
  obtain ⟨calls, hcalls, rfl⟩ := exists_run_of_addEntries hentries
  obtain ⟨calls', hcalls', rfl⟩ := exists_run_of_addConnections hconnections
  exact ⟨calls ++ calls', List.forall_mem_append.2 ⟨hcalls, hcalls'⟩,
    (Action.gives_note.1 hg).symm.trans (run_append _ _ _).symm⟩

/-- The first place of a new network has the version one. -/
theorem odd_new (settings : Settings) : (new settings).arena.Odd :=
  Arena.odd_insert Arena.wellFormed_empty Arena.odd_empty

/-- In a network that arises by calls, live handles have odd versions. -/
theorem Arises.odd (h : net.Arises) : net.arena.Odd := by
  induction h with
  | new settings => exact odd_new settings
  | @call net c harises hfits ih =>
    cases c with
    | load d =>
      simp only [Network.after]
      split
      · rename_i hb
        obtain ⟨calls, hcalls, hrun⟩ := exists_run_of_build hb
        rw [hrun]
        exact odd_run (wellFormed_new _) hcalls (odd_new _)
      · exact ih
    | _ => exact odd_after harises.wellFormed rfl ih

/-! ### Handles in a run -/

/-- The handle names no node: every edit that needs its node is refused, and changes nothing. -/
structure Dead (net : Network) (h : Handle) : Prop where
  node?_eq : net.node? h = none
  get_eq : net.get h = .error (.staleHandle h)
  remove_eq : net.remove h = .error (.staleHandle h)
  disconnect_eq : ∀ input, net.disconnect h input = .error (.staleHandle h)
  /-- It feeds no input. -/
  connect_from : ∀ consumer facet input,
    net.connect consumer ⟨h, facet, input⟩ = .error (.staleHandle h)
  connectSlot_from : ∀ slot facet, net.connectSlot slot h facet = .error (.staleHandle h)
  /-- It has no input that anything feeds, and that is the fault if the producer can be read. -/
  connect_to : ∀ link, (∃ fault, net.connect h link = .error fault)
    ∧ ∀ producer type, net.node? link.producer = some producer →
      producer.facetType link.facet = .ok type → net.connect h link = .error (.staleHandle h)
  /-- Whatever names it leaves the network as it is. -/
  after_eq : net.after (.remove h) = net ∧ (∀ input, net.after (.disconnect h input) = net)
    ∧ (∀ slot facet, net.after (.connectSlot slot h facet) = net)
    ∧ ∀ consumer link, consumer = h ∨ link.producer = h → net.after (.connect consumer link) = net

/-- A handle that names nothing is dead, unless it is the sink's. -/
theorem dead_of_node?_eq_none (hnone : net.node? h = none) (hne : h ≠ net.sink) : net.Dead h := by
  -- Every call that looks the handle up is refused where it does so.
  have hget : net.get h = .error (.staleHandle h) := get_eq_error.2 ⟨hnone, rfl⟩
  have hremove : net.remove h = .error (.staleHandle h) := by
    have hr : net.arena.remove? h = none := by
      rw [Arena.remove?, show net.arena.get? h = none from hnone]
      rfl
    simp [Network.remove, hne, hr]
  have hdisconnect (input : Nat) : net.disconnect h input = .error (.staleHandle h) :=
    bind_error_iff.2 (.inl hget)
  have hfrom (consumer : Handle) (facet : Facet) (input : Nat) :
      net.connect consumer ⟨h, facet, input⟩ = .error (.staleHandle h) :=
    bind_error_iff.2 (.inl hget)
  have hto (link : Link) : ∃ fault, net.connect h link = .error fault := by
    cases hr : net.connect h link with
    | error fault => exact ⟨fault, rfl⟩
    | ok e =>
      obtain ⟨-, ⟨node, hn, -⟩, -⟩ := connect_eq_ok hr
      rw [hnone] at hn
      cases hn
  have hrefused {α : Type} {r : Except Fault (Edit α)} {fault : Fault} (hr : r = .error fault) :
      net.afterEdit r = net := by
    rw [hr]
    rfl
  exact {
    node?_eq := hnone
    get_eq := hget
    remove_eq := hremove
    disconnect_eq := hdisconnect
    connect_from := hfrom
    connectSlot_from := fun slot facet => hfrom net.sink facet slot.index
    connect_to := fun link => ⟨hto link, fun producer type hp ht =>
      bind_error_iff.2 (.inr ⟨producer, get_eq_ok.2 hp,
        bind_error_iff.2 (.inr ⟨type, ht, bind_error_iff.2 (.inl hget)⟩)⟩)⟩
    after_eq := ⟨hrefused hremove, fun input => hrefused (hdisconnect input),
      fun slot facet => hrefused (hfrom net.sink facet slot.index), by
        rintro consumer link (rfl | rfl)
        · exact hrefused (hto link).choose_spec
        · exact hrefused (hfrom consumer link.facet link.input)⟩ }

/-- The handle of the sink names a node. -/
theorem WellFormed.node?_sink_ne_none (hw : net.WellFormed) : net.node? net.sink ≠ none := by
  obtain ⟨sink, hsink, -⟩ := hw.sink_live
  simp [hsink]

/-- The handle of a node that has been removed is dead after any further edits. -/
theorem dead_of_remove (hw : net.WellFormed) (hodd : net.arena.Odd)
    (hcalls : ∀ c ∈ calls, c.isEdit = true) {e : Edit Node} (he : net.remove h = .ok e)
    (hreuses : e.network.reuses h.place calls < 2 ^ 31) : (e.network.run calls).Dead h := by
  have hnone := node?_run_of_remove hw hodd hcalls he hreuses
  refine dead_of_node?_eq_none hnone fun hsink => ?_
  exact ((hw.remove he).run calls).node?_sink_ne_none (hsink ▸ hnone)

/-- What holds of the handles in a run of calls. -/
structure Lasting (net : Network) (calls : List Call) : Prop where
  /-- A node that is added gets a handle of its own: not the sink's, not that of a node that was
      there before the run, and not one that the run has given to another node. -/
  fresh : (net.added calls).Nodup ∧ ∀ h ∈ net.added calls, h ≠ net.sink ∧ net.node? h = none
  /-- From then on the handle names the node. -/
  named : ∀ before node after e, calls = before ++ .add node :: after →
    (net.run before).add node = .ok e → e.answer ∈ net.added calls
      ∧ (net.run (before ++ [.add node])).node? e.answer = some { node with links := [] }
  /-- A handle goes on naming a node with the same name, storage and kind until the node is
      removed. -/
  kept : ∀ before middle after h n, calls = before ++ middle ++ after →
    (net.run before).node? h = some n → h = net.sink ∨ .remove h ∉ middle →
      ∃ n', (net.run (before ++ middle)).node? h = some n' ∧ n'.SameFace n
  /-- The handle of a node that has been removed is dead for the rest of the run. -/
  dead : ∀ before h middle after e, calls = before ++ .remove h :: middle ++ after →
    (net.run before).remove h = .ok e → (net.run (before ++ .remove h :: middle)).Dead h

/-- No run of edits revives the handle of a node that has been removed, as long as it does not use
    one place again `2 ^ 31` times. -/
theorem Arises.lasting (h : net.Arises) (hcalls : ∀ c ∈ calls, c.isEdit = true)
    (hreuses : ∀ place, net.reuses place calls < 2 ^ 31) : net.Lasting calls := by
  have hw := h.wellFormed
  have hnew {x : Handle} (hx : x ∈ net.added calls) : net.node? x = none :=
    Option.eq_none_iff_forall_ne_some.2 fun n hn =>
      not_mem_added_of_node? hw h.odd hcalls hreuses hn hx
  refine
    { fresh := ⟨nodup_added hw h.odd hcalls hreuses, fun x hx =>
        ⟨fun hsink => hw.node?_sink_ne_none (hsink ▸ hnew hx), hnew hx⟩⟩
      named := fun before node after e heq he => ?_
      kept := fun before middle after x n heq hn hkept => ?_
      dead := fun before x middle after e heq he => ?_ }
  · subst heq
    have hadded : (net.run before).added? (.add node) = some e.answer := by simp [added?, he]
    have hrun : (net.run before).run [.add node] = e.network := after_of_add he
    rw [added_append, run_append, hrun, node?_of_add (hw.run before) he, if_pos rfl]
    exact ⟨List.mem_append_right _ (List.mem_append_left _ (by simp [hadded])), rfl⟩
  · subst heq
    rw [List.append_assoc, List.forall_mem_append] at hcalls
    rw [run_append]
    refine node?_run (hw.run before) (List.forall_mem_append.1 hcalls.2).1 hn ?_
    rwa [sink_run hcalls.1]
  · subst heq
    have hbound := hreuses x.place
    rw [List.append_assoc, List.forall_mem_append] at hcalls
    rw [List.append_assoc, List.cons_append, reuses_append, reuses, reuses_append,
      after_of_remove he] at hbound
    obtain ⟨-, hlater⟩ := List.forall_mem_cons.1 hcalls.2
    have hrun : net.run (before ++ .remove x :: middle) = e.network.run middle := by
      rw [run_append, ← after_of_remove he]
      rfl
    rw [hrun]
    exact dead_of_remove (hw.run before) (odd_run hw hcalls.1 h.odd)
      (List.forall_mem_append.1 hlater).1 he (by omega)

/-- A constant is removed, its place is used again under its name, and the handle of the second
    constant is dead as well after its removal, while the first one stays dead. -/
def recycling : List Call :=
  [.add ⟨"glow", .inMain, .constant (.float .one), []⟩,
    .connectSlot .metallic ⟨2, 1⟩ .value,
    .remove ⟨2, 1⟩,
    .add ⟨"glow", .inMain, .constant (.float .two), []⟩,
    .connectSlot .metallic ⟨2, 1⟩ .value,
    .remove ⟨2, 3⟩,
    .add ⟨"glow", .uniform, .constant (.float .zero), []⟩,
    .disconnect ⟨2, 3⟩ 0,
    .remove ⟨2, 1⟩]

/-- Handles last where one place is used three times. -/
theorem lasting_recycling : (new {}).Arises ∧ (∀ c ∈ recycling, c.isEdit = true)
    ∧ (∀ place, (new {}).reuses place recycling < 2 ^ 31) ∧ (new {}).Lasting recycling := by
  have hcalls : ∀ c ∈ recycling, c.isEdit = true := by decide
  have hreuses (place : Nat) : (new {}).reuses place recycling < 2 ^ 31 :=
    Nat.lt_of_le_of_lt (reuses_le_length _ _ _) (by decide)
  exact ⟨.new {}, hcalls, hreuses, (Arises.new {}).lasting hcalls hreuses⟩

end Network

end MaterialNet
