import Mathlib.Data.Set.Insert
import MaterialNet.Network.Walk
import MaterialNet.Proofs.Dependence

namespace MaterialNet

/-!
# Depth-first visits

The walk over a network keeps a stack of its own.  `Visits` says recursively what it does: a node
seen before is passed over, and a new one is listed after everything that it depends on and that
has not been seen.  What a walk lists is then shown by induction over the visit.

* `Network.Visits` — the recursive visit of several nodes
* `Network.visits_of_postOrder` — the walk lists what the visit lists
* `Visits.nodup`, `Visits.covers`, `Visits.sound`, `Visits.ordered` — each node once, everything
  that is needed, nothing else, producers first
* `Network.exists_postOrder` — from a live node the walk comes to its end
-/

open Relation

/-- The nodes of a set. -/
def Visited.members (visited : Visited) : Set Handle := {h | visited.contains h = true}

theorem Visited.mem_members {visited : Visited} {h : Handle} :
    h ∈ visited.members ↔ visited.contains h = true := Iff.rfl

@[simp] theorem Visited.members_empty : Visited.members .empty = ∅ := by
  ext h
  simp only [Visited.mem_members, Set.mem_empty_iff_false, iff_false, Bool.not_eq_true]
  exact Std.TreeSet.contains_emptyc

@[simp] theorem Visited.members_insert (visited : Visited) (h : Handle) :
    Visited.members (visited.insert h) = insert h visited.members := by
  ext x
  simp only [Visited.mem_members, Std.TreeSet.contains_insert, Bool.or_eq_true, beq_iff_eq,
    Std.compare_eq_iff_eq, Set.mem_insert_iff, eq_comm (a := h)]

namespace Network

variable {net : Network} {seen : Set Handle} {pending out : List Handle}

theorem union_cons (seen : Set Handle) (h : Handle) (rest : List Handle) :
    seen ∪ {x | x ∈ h :: rest} = insert h seen ∪ {x | x ∈ rest} := by
  ext x
  simp only [Set.mem_union, Set.mem_ofPred_eq, List.mem_cons, Set.mem_insert_iff, or_assoc,
    or_left_comm]

/-! ### Visits -/

/-- Visiting the nodes `pending` in order, when those in `seen` have been seen before, lists the
    nodes `out`.  A node counts as seen from the moment it is entered. -/
inductive Visits (net : Network) : Set Handle → List Handle → List Handle → Prop where
  | nil {seen : Set Handle} : Visits net seen [] []
  | skip {seen : Set Handle} {p : Handle} {rest out : List Handle} (hp : p ∈ seen)
      (hrest : Visits net seen rest out) : Visits net seen (p :: rest) out
  | enter {seen : Set Handle} {p : Handle} {node : Node} {rest below out : List Handle}
      (hp : p ∉ seen) (hn : net.node? p = some node)
      (hbelow : Visits net (insert p seen) node.producers below)
      (hrest : Visits net (insert p seen ∪ {x | x ∈ below}) rest out) :
      Visits net seen (p :: rest) (below ++ p :: out)

namespace Visits

/-- A visit lists no node twice, and none that was seen before. -/
theorem nodup (h : Visits net seen pending out) : out.Nodup ∧ ∀ x ∈ out, x ∉ seen := by
  induction h with
  | nil => simp
  | skip _ _ ih => exact ih
  | @enter seen p node rest below out hp hn _ _ ihb ihr =>
    -- What is listed below `p` is not `p`, which was seen by then; what comes later is neither.
    constructor
    · refine List.nodup_append.2 ⟨ihb.1, List.nodup_cons.2 ⟨fun hm => ?_, ihr.1⟩, ?_⟩
      · exact ihr.2 p hm (.inl (Set.mem_insert _ _))
      · intro a ha b hb hab
        rcases List.mem_cons.1 hb with rfl | hb
        · exact ihb.2 a ha (hab ▸ Set.mem_insert _ _)
        · exact ihr.2 b hb (.inr (hab ▸ ha))
    · intro x hx hs
      rcases List.mem_append.1 hx with hx | hx
      · exact ihb.2 x hx (Set.mem_insert_of_mem _ hs)
      · rcases List.mem_cons.1 hx with rfl | hx
        · exact hp hs
        · exact ihr.2 x hx (.inl (Set.mem_insert_of_mem _ hs))

/-- A visit does not list what has been seen. -/
theorem ne_of_seen (h : Visits net seen pending out) {p : Handle} (hp : p ∈ seen) :
    ∀ x ∈ out, x ≠ p := by
  rintro x hx rfl
  exact h.nodup.2 x hx hp

/-- Everything that was to be visited has been seen or is listed. -/
theorem covers (h : Visits net seen pending out) : ∀ p ∈ pending, p ∈ seen ∨ p ∈ out := by
  induction h with
  | nil => simp
  | skip hp _ ih =>
    intro q hq
    rcases List.mem_cons.1 hq with rfl | hq
    · exact .inl hp
    · exact ih q hq
  | @enter seen p node rest below out hp hn _ _ _ ihr =>
    intro q hq
    rcases List.mem_cons.1 hq with rfl | hq
    · simp
    · -- It was seen before, or listed below the first node, or with the others.
      rcases ihr q hq with (hs | hb) | ho
      · rcases hs with rfl | hs
        · simp
        · exact .inl hs
      · exact .inr (List.mem_append_left _ hb)
      · exact .inr (List.mem_append_right _ (List.mem_cons_of_mem _ ho))

/-- Every producer of a listed node has been seen or is listed. -/
theorem closed (h : Visits net seen pending out) :
    ∀ x ∈ out, ∀ node, net.node? x = some node → ∀ q ∈ node.producers, q ∈ seen ∨ q ∈ out := by
  induction h with
  | nil => simp
  | skip _ _ ih => exact ih
  | @enter seen p node rest below out hp hn hbelow _ ihb ihr =>
    -- A producer that was seen when `p` had been entered was seen before or is `p`.
    have widen {q : Handle} (hq : q ∈ insert p seen ∨ q ∈ below) :
        q ∈ seen ∨ q ∈ below ++ p :: out := by
      rcases hq with (rfl | hq) | hq
      · simp
      · exact .inl hq
      · exact .inr (List.mem_append_left _ hq)
    intro x hx m hm q hq
    rcases List.mem_append.1 hx with hx | hx
    · exact widen (ihb x hx m hm q hq)
    · rcases List.mem_cons.1 hx with rfl | hx
      · obtain rfl := Option.some.inj (hn.symm.trans hm)
        exact widen (hbelow.covers q hq)
      · rcases ihr x hx m hm q hq with hs | ho
        · exact widen hs
        · exact .inr (List.mem_append_right _ (List.mem_cons_of_mem _ ho))

/-- Every listed node is one that was to be visited, or one of those depends on it. -/
theorem sound (hw : net.WellFormed) (h : Visits net seen pending out) :
    ∀ x ∈ out, ∃ p ∈ pending, net.DependsOn p x := by
  induction h with
  | nil => simp
  | skip _ _ ih =>
    intro x hx
    obtain ⟨p, hp, hd⟩ := ih x hx
    exact ⟨p, List.mem_cons_of_mem _ hp, hd⟩
  | @enter seen p node rest below out hp hn _ _ ihb ihr =>
    intro x hx
    rcases List.mem_append.1 hx with hx | hx
    · -- What is listed below a node feeds one of its producers.
      obtain ⟨q, hq, hd⟩ := ihb x hx
      exact ⟨p, List.mem_cons_self, .head ((hw.reads_iff hn).2 hq) hd⟩
    · rcases List.mem_cons.1 hx with rfl | hx
      · exact ⟨x, List.mem_cons_self, .refl⟩
      · obtain ⟨q, hq, hd⟩ := ihr x hx
        exact ⟨q, List.mem_cons_of_mem _ hq, hd⟩

/-- A visit that starts at nodes other than the sink lists such nodes only. -/
theorem mem_order (hw : net.WellFormed) (h : Visits net seen pending out)
    (hp : ∀ p ∈ pending, p ∈ net.order.toList) : ∀ x ∈ out, x ∈ net.order.toList := by
  intro x hx
  obtain ⟨p, hpend, hd⟩ := h.sound hw x hx
  exact hw.mem_order_of_dependsOn (hp p hpend) hd

/-- Where the seen nodes are closed under dependence, a visit lists exactly what the nodes to be
    visited depend on and what has not been seen. -/
theorem mem_iff (hw : net.WellFormed) (h : Visits net seen pending out)
    (hseen : ∀ x ∈ seen, ∀ q, net.Reads x q → q ∈ seen) {x : Handle} :
    x ∈ seen ∨ x ∈ out ↔ x ∈ seen ∨ ∃ p ∈ pending, net.DependsOn p x := by
  constructor
  · exact Or.imp_right (h.sound hw x)
  · rintro (hs | ⟨p, hp, hd⟩)
    · exact .inl hs
    · -- Along the path everything has been seen or is listed.
      induction hd with
      | refl => exact h.covers p hp
      | tail _ hr ih =>
        rcases ih with hs | ho
        · exact .inl (hseen _ hs _ hr)
        · obtain ⟨node, hn, -⟩ := id hr
          exact h.closed _ ho node hn _ ((hw.reads_iff hn).1 hr)

/-- Without cycles, every producer of a listed node has been seen before or is listed earlier. -/
theorem ordered (hw : net.WellFormed) (hacyclic : net.Acyclic) (h : Visits net seen pending out) :
    ∀ before x after, out = before ++ x :: after → ∀ q, net.Reads x q → q ∈ seen ∨ q ∈ before := by
  induction h with
  | nil =>
    intro before x after ho
    simp at ho
  | skip _ _ ih => exact ih
  | @enter seen p node rest below out hp hn hbelow hrest ihb ihr =>
    intro before x after ho q hq
    -- The node stands among those below `p`, is `p`, or comes after it.
    rcases List.append_eq_append_iff.1 ho with ⟨mid, rfl, hmid⟩ | ⟨mid, rfl, hmid⟩
    · cases mid with
      | nil =>
        obtain ⟨rfl, rfl⟩ := List.cons.inj hmid
        rcases hbelow.covers q ((hw.reads_iff hn).1 hq) with (rfl | hs) | hb
        · exact absurd (TransGen.single hq) (hacyclic q)
        · exact .inl hs
        · exact .inr (List.mem_append_left _ hb)
      | cons y mid =>
        obtain ⟨rfl, hout⟩ := List.cons.inj (hmid.trans (List.cons_append ..))
        rcases ihr mid x after hout q hq with ((rfl | hs) | hb) | hm
        · exact .inr (by simp)
        · exact .inl hs
        · exact .inr (List.mem_append_left _ hb)
        · exact .inr (by simp [hm])
    · cases mid with
      | nil =>
        obtain ⟨rfl, rfl⟩ := List.cons.inj hmid
        rw [List.append_nil] at *
        rcases hbelow.covers q ((hw.reads_iff hn).1 hq) with (rfl | hs) | hb
        · exact absurd (TransGen.single hq) (hacyclic q)
        · exact .inl hs
        · exact .inr hb
      | cons y mid =>
        obtain ⟨rfl, hmid⟩ := List.cons.inj hmid
        rcases ihb before x mid rfl q hq with (rfl | hs) | hb
        · -- A node below `p` that reads `p` would close a cycle.
          obtain ⟨r, hr, hd⟩ := hbelow.sound hw x (by simp)
          exact absurd (TransGen.head' ((hw.reads_iff hn).2 hr) (hd.tail hq)) (hacyclic q)
        · exact .inl hs
        · exact .inr hb

/-- A visit is determined by what it starts from. -/
theorem unique {out' : List Handle} (h : Visits net seen pending out)
    (h' : Visits net seen pending out') : out = out' := by
  induction h generalizing out' with
  | nil =>
    cases h'
    rfl
  | skip hp _ ih =>
    -- Whether the first node has been seen decides how a visit goes on.
    cases h' with
    | skip _ hrest => exact ih hrest
    | enter hp' => exact absurd hp hp'
  | enter hp hn _ _ ihb ihr =>
    cases h' with
    | skip hp' => exact absurd hp' hp
    | enter _ hn' hbelow hrest =>
      obtain rfl := Option.some.inj (hn.symm.trans hn')
      obtain rfl := ihb hbelow
      obtain rfl := ihr hrest
      rfl

/-- For a visit only those seen nodes matter that it could come to. -/
theorem congr (hw : net.WellFormed) {seen' : Set Handle} (h : Visits net seen pending out)
    (hseen : ∀ p ∈ pending, ∀ x, net.DependsOn p x → (x ∈ seen ↔ x ∈ seen')) :
    Visits net seen' pending out := by
  induction h generalizing seen' with
  | nil => exact .nil
  | skip hp _ ih =>
    have hp' := (hseen _ List.mem_cons_self _ .refl).1 hp
    exact .skip hp' (ih fun q hq => hseen q (List.mem_cons_of_mem _ hq))
  | @enter seen p node rest below out hp hn _ _ ihb ihr =>
    have hp' := fun hm => hp ((hseen p List.mem_cons_self p .refl).2 hm)
    -- The two sets still agree on what matters when both have grown by the same nodes.
    refine .enter hp' hn (ihb fun q hq x hx => ?_) (ihr fun q hq x hx => ?_)
    · have hiff := hseen p List.mem_cons_self x (.head ((hw.reads_iff hn).2 hq) hx)
      simp only [Set.mem_insert_iff, hiff]
    · have hiff := hseen q (List.mem_cons_of_mem _ hq) x hx
      simp only [Set.mem_union, Set.mem_insert_iff, hiff]

/-- What has been seen after a node has been entered, in the order in which it is listed or in the
    order in which it is marked. -/
theorem seen_enter (seen : Set Handle) (p : Handle) (below out : List Handle) :
    seen ∪ {x | x ∈ below ++ p :: out} = insert p seen ∪ {x | x ∈ below} ∪ {x | x ∈ out} := by
  ext x
  simp only [List.mem_append, List.mem_cons, Set.mem_union, Set.mem_ofPred_eq, Set.mem_insert_iff,
    or_assoc, or_left_comm]

/-- Visits one after the other make one visit. -/
theorem append {first second out' : List Handle} (h : Visits net seen first out)
    (h' : Visits net (seen ∪ {x | x ∈ out}) second out') :
    Visits net seen (first ++ second) (out ++ out') := by
  induction h with
  | nil => simpa using h'
  | skip hp _ ih => exact .skip hp (ih h')
  | @enter seen p node rest below out hp hn hbelow _ _ ihr =>
    rw [seen_enter] at h'
    rw [List.append_assoc, List.cons_append]
    exact .enter hp hn hbelow (ihr h')

end Visits

/-! ### The walk makes a visit -/

/-- What a walk still lists for the frames of its stack: below each node the visit of what is
    pending, then the node itself. -/
inductive Finishes (net : Network) : Set Handle → List Frame → List Handle → Prop where
  | nil {seen : Set Handle} : Finishes net seen [] []
  | frame {seen : Set Handle} {f : Frame} {rest : List Frame} {below out : List Handle}
      (hbelow : Visits net seen f.pending below)
      (hrest : Finishes net (seen ∪ {x | x ∈ below}) rest out) :
      Finishes net seen (f :: rest) (below ++ f.handle :: out)

/-- A walk that comes to its end has listed what its stack had to finish, and has marked that as
    seen. -/
theorem finishes_of_walk {stack : List Frame} {visited visited' : Visited}
    {finished finished' : Array Handle}
    (h : net.walk stack visited finished = .ok (finished', visited'))
    (hstack : ∀ f ∈ stack, f.handle ∈ visited.members) :
    ∃ out, finished'.toList = finished.toList ++ out ∧ Finishes net visited.members stack out
      ∧ visited'.members = visited.members ∪ {x | x ∈ out} := by
  fun_induction Network.walk net stack visited finished with
  | case1 visited finished =>
    cases h
    exact ⟨[], by simp, .nil, by simp⟩
  | case2 visited finished h' rest ih =>
    -- Nothing is pending for the top node, so it is listed next.
    obtain ⟨out, hout, hf, hv⟩ := ih h fun f hf => hstack f (List.mem_cons_of_mem _ hf)
    have hmem := hstack _ List.mem_cons_self
    refine ⟨h' :: out, by simp [hout], ?_, ?_⟩
    · have hrest : Finishes net (visited.members ∪ {x | x ∈ []}) rest out := by simpa using hf
      exact .frame (f := ⟨h', []⟩) .nil hrest
    · have hset := Visits.seen_enter visited.members h' [] out
      rw [List.nil_append, Set.insert_eq_of_mem hmem] at hset
      rw [hv, hset]
      simp
  | case3 visited finished h' p pending rest hp ih =>
    obtain ⟨out, hout, hf, hv⟩ := ih h fun f hf => by
      rcases List.mem_cons.1 hf with rfl | hf
      · exact hstack ⟨h', p :: pending⟩ List.mem_cons_self
      · exact hstack f (List.mem_cons_of_mem _ hf)
    refine ⟨out, hout, ?_, hv⟩
    cases hf with
    | frame hbelow hrest => exact .frame (f := ⟨h', p :: pending⟩) (.skip hp hbelow) hrest
  | case4 => cases h
  | case5 visited finished h' p pending rest hp node hn ih =>
    -- What the new top frame lists is the visit below `p`; the frame under it goes on after that.
    obtain ⟨out, hout, hf, hv⟩ := ih h fun f hf => by
      rw [Visited.members_insert]
      rcases List.mem_cons.1 hf with rfl | hf
      · exact Set.mem_insert _ _
      · rcases List.mem_cons.1 hf with rfl | hf
        · exact Set.mem_insert_of_mem _ (hstack ⟨h', p :: pending⟩ List.mem_cons_self)
        · exact Set.mem_insert_of_mem _ (hstack f (List.mem_cons_of_mem _ hf))
    rw [Visited.members_insert] at hf hv
    cases hf with
    | frame hbelow hrest =>
      cases hrest with
      | @frame _ _ _ below₂ out₂ hpending hrest =>
        rename_i below
        refine ⟨below ++ p :: below₂ ++ h' :: out₂, by simpa using hout, ?_, ?_⟩
        · refine .frame (f := ⟨h', p :: pending⟩)
            (.enter (fun hm => hp hm) (get_eq_ok.1 hn) hbelow hpending) ?_
          rw [Visits.seen_enter]
          exact hrest
        · rw [hv, List.append_assoc, List.cons_append, Set.insert_union, Set.insert_eq_of_mem]
          exact .inr (by simp)

/-- A walk from `root` lists what a visit of `root` lists, and marks that as seen. -/
theorem visits_of_postOrder {root : Handle} {visited visited' : Visited} {found : Array Handle}
    (h : net.postOrder root visited = .ok (found, visited')) :
    Visits net visited.members [root] found.toList
      ∧ visited'.members = visited.members ∪ {x | x ∈ found.toList} := by
  unfold postOrder at h
  split at h
  · rename_i hroot
    cases h
    exact ⟨.skip hroot .nil, by simp⟩
  · rename_i hroot
    obtain ⟨node, hn, h⟩ := bind_ok_iff.1 h
    -- The walk starts with one frame, so what it lists is one visit.
    obtain ⟨out, hout, hf, hv⟩ := finishes_of_walk h fun f hf => by
      rw [List.mem_singleton.1 hf, Visited.members_insert]
      exact Set.mem_insert _ _
    rw [Visited.members_insert] at hf hv
    cases hf with
    | frame hbelow hrest =>
      cases hrest
      rw [show found.toList = _ from hout, List.nil_append] at *
      refine ⟨.enter (fun hm => hroot hm) (get_eq_ok.1 hn) hbelow .nil, ?_⟩
      rw [hv, Visits.seen_enter, Visits.seen_enter, Set.insert_idem]

/-! ### The walk comes to its end -/

/-- A walk fails only at a handle that names nothing, and a well-formed network has no links to
    such handles. -/
theorem exists_walk (hw : net.WellFormed) {stack : List Frame} {visited : Visited}
    {finished : Array Handle} (hstack : ∀ f ∈ stack, ∀ p ∈ f.pending, (net.node? p).isSome) :
    ∃ r, net.walk stack visited finished = .ok r := by
  fun_induction Network.walk net stack visited finished with
  | case1 visited finished => exact ⟨_, rfl⟩
  | case2 visited finished h' rest ih =>
    exact ih fun f hf => hstack f (List.mem_cons_of_mem _ hf)
  | case3 visited finished h' p pending rest hp ih =>
    refine ih fun f hf q hq => ?_
    rcases List.mem_cons.1 hf with rfl | hf
    · exact hstack _ List.mem_cons_self q (List.mem_cons_of_mem _ hq)
    · exact hstack f (List.mem_cons_of_mem _ hf) q hq
  | case4 visited finished h' p pending rest hp fault hn =>
    have hlive := hstack _ List.mem_cons_self p List.mem_cons_self
    rw [(get_eq_error.1 hn).1] at hlive
    cases hlive
  | case5 visited finished h' p pending rest hp node hn ih =>
    refine ih fun f hf q hq => ?_
    rcases List.mem_cons.1 hf with rfl | hf
    · exact hw.isSome_of_reads ((hw.reads_iff (get_eq_ok.1 hn)).2 hq)
    · rcases List.mem_cons.1 hf with rfl | hf
      · exact hstack _ List.mem_cons_self q (List.mem_cons_of_mem _ hq)
      · exact hstack f (List.mem_cons_of_mem _ hf) q hq

/-- From a live node the walk comes to its end. -/
theorem exists_postOrder (hw : net.WellFormed) {root : Handle} (hroot : (net.node? root).isSome)
    (visited : Visited) : ∃ found visited', net.postOrder root visited = .ok (found, visited') := by
  unfold postOrder
  split
  · exact ⟨_, _, rfl⟩
  · obtain ⟨node, hn⟩ := Option.isSome_iff_exists.1 hroot
    have hwalk : ∃ r, net.walk [⟨root, node.producers⟩] (visited.insert root) #[] = .ok r := by
      refine exists_walk hw fun f hf p hp => ?_
      rw [List.mem_singleton.1 hf] at hp
      exact hw.isSome_of_reads ((hw.reads_iff hn).2 hp)
    obtain ⟨⟨found, visited'⟩, hr⟩ := hwalk
    exact ⟨found, visited', by rw [get_eq_ok.2 hn]; exact hr⟩

/-- There is a visit of any live nodes. -/
theorem exists_visits (hw : net.WellFormed) {roots : List Handle}
    (hroots : ∀ p ∈ roots, (net.node? p).isSome) (visited : Visited) :
    ∃ out, Visits net visited.members roots out := by
  induction roots generalizing visited with
  | nil => exact ⟨[], .nil⟩
  | cons p rest ih =>
    obtain ⟨found, visited', hp⟩ := exists_postOrder hw (hroots p List.mem_cons_self) visited
    obtain ⟨hvisits, hmembers⟩ := visits_of_postOrder hp
    obtain ⟨out, hout⟩ := ih (fun q hq => hroots q (List.mem_cons_of_mem _ hq)) visited'
    rw [hmembers] at hout
    exact ⟨found.toList ++ out, hvisits.append hout⟩

end Network

end MaterialNet
