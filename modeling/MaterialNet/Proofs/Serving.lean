import MaterialNet.Proofs.Compiling
import MaterialNet.Proofs.Listing
import MaterialNet.Proofs.Staging
import MaterialNet.Session.Request

namespace MaterialNet

/-!
# Sessions in use

A session may assemble stages and compute nodes in any order, and may be asked again after a call
that failed.  Whatever it has been asked, it is right about the network when it counts it as free of
cycles, and its manifest lists uniforms of the network in good order.

* `Session.Served` — the sessions that calls lead to
* `Session.paced_same` — a property of what is kept, as a relation between two sessions that are one
* `Served.trustsAcyclic`, `Served.lists` — what holds of every session
* `Session.served_after` — requests lead to such sessions
-/

namespace Session

open Network

variable {net : Network} {P : Kept → Prop} {s t : Session}

/-! ### Properties of what is kept -/

/-- Both have kept the same, and this has a property. -/
def Same (P : Kept → Prop) (k l : Kept) : Prop := k = l ∧ P k

theorem InStage.same (h : P s.kept) : InStage (Same P) s s := ⟨rfl, rfl, rfl, rfl, rfl, rfl, h⟩

/-- Sessions that agree on the stage and have kept the same are one. -/
theorem InStage.eq_of_same (h : InStage (Same P) s t) : s = t := by
  obtain ⟨hstage, hevaluated, hdeclared, howners, hdeclarations, hkept, -⟩ := h
  obtain ⟨hacyclic, hmanifest, hbound⟩ := Kept.mk.inj hkept
  cases s
  cases t
  simp_all

/-- For a property of what is kept, only listing a uniform and a search for cycles matter. -/
theorem paced_same (htrusts : ∀ k, P k → k.acyclic = true → net.Acyclic)
    (hsearch : ∀ k, P k → net.Acyclic → P { k with acyclic := true })
    (hlist : ∀ h n s, net.node? h = some n → n.type?.isSome → n.storage = .uniform → P s.kept →
      P ((listUniform net n).run s).state.kept) :
    Paced net (fun _ => False) (Same P) where
  trusts k l h := by
    obtain ⟨rfl, hk⟩ := h
    exact ⟨htrusts k hk, htrusts k hk⟩
  search k l h hacyclic := by
    obtain ⟨rfl, hk⟩ := h
    exact ⟨rfl, hsearch k hk hacyclic⟩
  list h n hn htype hu s t hst := by
    obtain rfl := hst.eq_of_same
    exact .both (P := fun s => P s.kept) (hlist h n s hn htype hu hst.kept.2)
      (fun _ hs => ⟨rfl, hs⟩) fun _ hs => .same hs

/-! ### Sessions that calls lead to -/

/-- A session of a network, whatever it has been asked before and whether or not this failed. -/
inductive Served (net : Network) : Session → Prop where
  | fresh : Served net .fresh
  | check {s : Session} (h : Served net s) : Served net ((ensureAcyclic net).run s).state
  | evaluate {s : Session} (x : Handle) (h : Served net s) :
      Served net ((Session.evaluate net x).run s).state
  | assemble {s : Session} (stage : Stage) (h : Served net s) :
      Served net ((Session.assemble net stage).run s).state

section Served

variable (hw : net.WellFormed)
include hw

/-! ### What a call keeps -/

section Keeps

variable (hp : Paced net (fun _ => False) (Same P)) (hs : P s.kept)
include hp hs

/-- A property that paces a session holds after a search for cycles. -/
theorem Paced.keeps_ensureAcyclic : P ((Session.ensureAcyclic net).run s).state.kept := by
  have hrun := hp.ensureAcyclic hw (R := Behind (Same P)) (s := s) ⟨rfl, hs⟩
    fun ha => hp.search _ _ ⟨rfl, hs⟩ ha
  exact (hrun.left_state (fun _ => id) fun _ _ => id).2

theorem Paced.keeps_evaluate (x : Handle) : P ((Session.evaluate net x).run s).state.kept :=
  ((hp.evaluate hw x _ _ (.same hs)).left_state (fun _ => id) fun _ _ => InStage.kept).2

theorem Paced.keeps_assemble (stage : Stage) :
    P ((Session.assemble net stage).run s).state.kept := by
  have hrun := hp.assemble hw stage (s := s) ⟨rfl, hs⟩
  exact (hrun.left_state (fun _ => id) fun _ _ => InStage.kept).2

end Keeps

/-- What holds of a new session and is kept holds of every session. -/
theorem Served.keeps (hp : Paced net (fun _ => False) (Same P)) (hfresh : P (kept .fresh))
    (h : Served net s) : P s.kept := by
  induction h with
  | fresh => exact hfresh
  | check _ ih => exact hp.keeps_ensureAcyclic hw ih
  | evaluate x _ ih => exact hp.keeps_evaluate hw ih x
  | assemble stage _ ih => exact hp.keeps_assemble hw ih stage

omit hw in
/-- Listing a uniform says nothing about cycles. -/
theorem acyclic_listUniform (n : Node) :
    ((listUniform net n).run s).state.acyclic = s.acyclic := by
  unfold listUniform
  rw [Action.run_bind, Action.run_getState]
  dsimp only
  split
  · rfl
  · split
    · rfl
    · split <;> rfl
    · rfl
    · rfl

/-- A session is right about cycles. -/
theorem Served.trustsAcyclic (h : Served net s) : TrustsAcyclic net s := by
  refine h.keeps (P := fun k => k.acyclic = true → net.Acyclic) hw ?_ nofun
  refine paced_same (fun _ => id) (fun _ _ hacyclic _ => hacyclic) fun _ n s _ _ _ hs ha => ?_
  exact hs ((acyclic_listUniform n).symm.trans ha)

/-- What a session has kept is right about cycles, and its manifest lists uniforms of the network,
    each once, with consecutive units for the textures. -/
def Orderly (net : Network) (k : Kept) : Prop :=
  (k.acyclic = true → net.Acyclic) ∧ ∃ listed, net.Lists listed k.manifest k.boundTextures

/-- Good order paces a session. -/
theorem paced_orderly (hfits : net.Fits) : Paced net (fun _ => False) (Same (Orderly net)) := by
  refine paced_same (fun k hk => hk.1) (fun k hk hacyclic => ⟨fun _ => hacyclic, hk.2⟩) ?_
  intro x n s hn htype hu hs
  obtain ⟨htrusts, listed, hl⟩ := hs
  -- Listing a uniform does not change whether there are cycles.
  refine ⟨fun ha => htrusts ?_, ?_⟩
  · exact (acyclic_listUniform n).symm.trans ha
  · rcases listUniform_cases hw hfits hl hn htype hu with
      ⟨-, hg⟩ | ⟨-, -, -, hf⟩ | ⟨-, manifest, boundTextures, hg, hl'⟩
    · rw [hg.2]
      exact ⟨listed, hl⟩
    · rw [hf.2]
      exact ⟨listed, hl⟩
    · rw [hg.2]
      exact ⟨_, hl'⟩

/-- The manifest of a session lists uniforms of the network. -/
theorem Served.lists (hfits : net.Fits) (h : Served net s) :
    ∃ listed, net.Lists listed s.manifest s.boundTextures :=
  (h.keeps hw (paced_orderly hw hfits) ⟨nofun, [], lists_nil⟩).2

end Served

/-! ### Requests -/

/-- A session that has been reset is new. -/
theorem reset_eq_fresh (s : Session) : s.reset = fresh := rfl

/-- Requests are answered in turn, the later ones by the session that the earlier ones leave. -/
theorem serveAll_append (requests later : List Request) (s : Session) :
    serveAll net (requests ++ later) s
      = ((serveAll net requests s).1 ++ (serveAll net later (serveAll net requests s).2).1,
        (serveAll net later (serveAll net requests s).2).2) := by
  induction requests generalizing s with
  | nil => rfl
  | cons r rest ih => simp only [List.cons_append, serveAll, ih]

/-- A session stays in use, whatever it is asked next. -/
theorem Served.serve (h : Served net s) (r : Request) :
    Served net ((Session.serve net r).run s).state := by
  cases r with
  | check =>
    rw [Session.serve, Action.state_bind_pure]
    exact h.check
  | assemble stage =>
    rw [Session.serve, Action.state_bind_pure]
    exact h.assemble stage
  | evaluate x =>
    rw [Session.serve, Action.state_bind_pure]
    exact h.evaluate x
  | reset => exact .fresh
  | facetExpr | facetType =>
    -- Reading a facet leaves the session as it is.
    rw [Session.serve, Action.state_lift_bind]
    · exact h
    · exact fun _ => Action.state_lift_bind fun _ => rfl
  | stage | declarations | manifest => exact h

/-- Whatever a session is asked, it is one of those. -/
theorem served_after (net : Network) (requests : List Request) :
    Served net (after net requests) := by
  suffices h : ∀ s, Served net s → Served net (serveAll net requests s).2 from h _ .fresh
  induction requests with
  | nil => exact fun s h => h
  | cons r rest ih => exact fun s h => ih _ (h.serve r)

end Session

end MaterialNet
