import MaterialNet.Proofs.Serving

namespace MaterialNet

/-!
# What a session has been asked before

A session that has been asked before has listed more uniforms than a new one, and may have run out
of texture units.  Apart from that, it assembles a stage as a new session does.

* `Session.Ahead` — one session has listed more than another
* `Session.paced_ahead` — it stays ahead, unless it runs out of texture units
* `Network.Arises.historyFree` — what has been asked before does not show in a program
-/

namespace Network

variable {net : Network} {listed listed' : List Handle} {m m' : Manifest} {bound bound' : UInt32}
  {h : Handle}

/-- Where a texture has a unit in one manifest, there is one left for it in any manifest that lists
    less. -/
theorem Lists.lt_size_of_subset (hl : net.Lists listed m bound) (hl' : net.Lists listed' m' bound')
    (hsub : listed' ⊆ listed) (hh : h ∈ listed) (hh' : h ∉ listed')
    (ht : net.isTexture h = true) :
    net.settings.textureUnitBase.toNat + bound'.toNat < UInt32.size := by
  -- The texture counts in the longer list and not in the shorter one.
  have hinsert : net.textures (insert h listed'.toFinset)
      = net.textures listed'.toFinset + 1 := by
    rw [textures_insert fun hm => hh' (List.mem_toFinset.1 hm), if_pos ht]
  have hle : net.textures (insert h listed'.toFinset) ≤ net.textures listed.toFinset := by
    refine textures_mono (Finset.insert_subset (List.mem_toFinset.2 hh) fun x hx => ?_)
    exact List.mem_toFinset.2 (hsub (List.mem_toFinset.1 hx))
  have hunits := hl.units
  rw [hl.bound_eq] at hunits
  rw [hl'.bound_eq]
  omega

end Network

namespace Session

open Network
open MaterialNet.Action (Abreast)

variable {net : Network} {s s' : Session} {fault : Fault}

/-! ### A session that is ahead of another -/

/-- There is no texture unit left. -/
def OutOfUnits (fault : Fault) : Prop := ∃ name, fault = .noTextureUnit name

/-- Both sessions are right about cycles, and whatever the second has listed, the first has listed,
    too. -/
def Ahead (net : Network) (k l : Kept) : Prop :=
  (k.acyclic = true → net.Acyclic) ∧ (l.acyclic = true → net.Acyclic)
    ∧ ∃ listed listed', net.Lists listed k.manifest k.boundTextures
      ∧ net.Lists listed' l.manifest l.boundTextures ∧ listed' ⊆ listed

section Served

variable (hw : net.WellFormed) (hfits : net.Fits)
include hw hfits

/-- The session that is ahead stays so, unless it has no texture unit left. -/
theorem paced_ahead : Paced net OutOfUnits (Ahead net) where
  trusts k l h := ⟨h.1, h.2.1⟩
  search k l h hacyclic := ⟨fun _ => hacyclic, fun _ => hacyclic, h.2.2⟩
  list h n hn htype hu s t hst := by
    obtain ⟨htrusts, htrusts', listed, listed', hl, hl', hsub⟩ := hst.kept
    have hcases := listUniform_cases hw hfits hl hn htype hu
    have hcases' := listUniform_cases hw hfits hl' hn htype hu
    -- The first session has listed the node, runs out of units, or lists it now; in the first and
    -- the last case the other session finds a unit, too.
    rcases hcases with ⟨hh, hg⟩ | ⟨hh, ht, -, hf⟩ | ⟨hh, m, bound, hg, hlists⟩
    · rcases hcases' with ⟨-, hg'⟩ | ⟨hh', ht, hfull, -⟩ | ⟨hh', m', bound', hg', hlists'⟩
      · exact .inl ⟨(), s, t, hg, hg', hst⟩
      · exact absurd hfull (hl.lt_size_of_subset hl' hsub hh hh' ht).ne
      · -- The first session has listed the node before, the second lists it now.
        have hsub' : listed' ++ [h] ⊆ listed := by
          refine List.append_subset.2 ⟨hsub, ?_⟩
          simpa using hh
        exact .inl ⟨(), _, _, hg, hg', { hst with
          kept := ⟨htrusts, htrusts', listed, _, hl, hlists', hsub'⟩ }⟩
    · exact .inr (.inr ⟨_, s, hf, n.id, rfl⟩)
    · have hh' : h ∉ listed' := fun hm => hh (hsub hm)
      rcases hcases' with ⟨hm, -⟩ | ⟨-, ht, hfull, -⟩ | ⟨-, m', bound', hg', hlists'⟩
      · exact absurd hm hh'
      · have hlt := hlists.lt_size_of_subset hl' (List.subset_append_of_subset_left _ hsub)
          (by simp) hh' ht
        exact absurd hfull hlt.ne
      · have hsub' : listed' ++ [h] ⊆ listed ++ [h] :=
          List.append_subset.2 ⟨List.subset_append_of_subset_left _ hsub,
            List.subset_append_right _ _⟩
        exact .inl ⟨(), _, _, hg, hg', { hst with
          kept := ⟨htrusts, htrusts', _, _, hlists, hlists', hsub'⟩ }⟩

/-- Every session is ahead of a new one. -/
theorem Served.ahead_fresh (h : Served net s) : Ahead net s.kept (kept .fresh) := by
  obtain ⟨listed, hl⟩ := h.lists hw hfits
  exact ⟨h.trustsAcyclic hw, nofun, listed, [], hl, lists_nil, List.nil_subset _⟩

/-- A session assembles a stage as a new session does, unless there is no texture unit left. -/
theorem Served.assemble_eq (h : Served net s) (stage : Stage) :
    ((Session.assemble net stage).run s).result = (net.assemble stage).result
        ∧ (∀ text, (net.assemble stage).result = .ok text →
          ((Session.assemble net stage).run s).state.declarations
            = (net.assemble stage).state.declarations)
      ∨ ∃ name, ((Session.assemble net stage).run s).result = .error (.noTextureUnit name) := by
  have hrun := (paced_ahead hw hfits).assemble hw stage (h.ahead_fresh hw hfits)
  rcases hrun.result_eq with ⟨heq, hr⟩ | ⟨_, herror, name, rfl⟩
  · exact .inl ⟨heq, fun text ht => (hr text ht).declarations⟩
  · exact .inr ⟨name, herror⟩

end Served

end Session

namespace Network

open Session

variable {net : Network}

/-- What a session has been asked before does not show in the programs of a network, as long as
    there are texture units. -/
structure HistoryFree (net : Network) : Prop where
  /-- After any requests, a stage is assembled as by a new session, with the same declarations or
      the same fault, unless there is no texture unit left. -/
  assemble : ∀ requests stage,
    ((Session.assemble net stage).run (Session.after net requests)).result
        = (net.assemble stage).result
        ∧ (∀ text, (net.assemble stage).result = .ok text →
          ((Session.assemble net stage).run (Session.after net requests)).state.declarations
            = (net.assemble stage).state.declarations)
      ∨ ∃ name, ((Session.assemble net stage).run (Session.after net requests)).result
        = .error (.noTextureUnit name)
  /-- After a reset, everything is answered as by a new session. -/
  reset : ∀ requests later,
    (serveAll net later (Session.after net (requests ++ [.reset]))).1
      = (serveAll net later .fresh).1
  /-- A compiled program has the texts of its stages on their own. -/
  texts : ∀ program, net.compile.result = .ok program →
    (net.assemble .vertex).result = .ok program.vertex
      ∧ (net.assemble .fragment).result = .ok program.fragment
  /-- Two stages that can be assembled on their own are refused together only for want of texture
      units. -/
  refusal : ∀ vertex fragment fault, (net.assemble .vertex).result = .ok vertex →
    (net.assemble .fragment).result = .ok fragment → net.compile.result = .error fault →
      ∃ name, fault = .noTextureUnit name

/-- The programs of a network do not depend on what a session has been asked before. -/
theorem Arises.historyFree (h : net.Arises) : net.HistoryFree := by
  have hw := h.wellFormed
  have hfits := h.fits
  -- Where a session has assembled a stage, a new one would have.
  have hsame {s s' : Session} (hs : Served net s) {stage : Stage} {text : String}
      (hg : (Session.assemble net stage).Gives s text s') :
      (net.assemble stage).result = .ok text := by
    rcases hs.assemble_eq hw hfits stage with ⟨heq, -⟩ | ⟨name, herror⟩
    · rw [← heq]
      exact hg.1
    · rw [hg.1] at herror
      cases herror
  -- Where it has failed and a new one would not have, there is no unit left.
  have hunit {s s' : Session} (hs : Served net s) {stage : Stage} {text : String} {fault : Fault}
      (ht : (net.assemble stage).result = .ok text)
      (hf : (Session.assemble net stage).Fails s fault s') :
      ∃ name, fault = .noTextureUnit name := by
    rcases hs.assemble_eq hw hfits stage with ⟨heq, -⟩ | ⟨name, herror⟩
    · rw [ht, hf.1] at heq
      cases heq
    · rw [hf.1] at herror
      exact ⟨name, Except.error.inj herror⟩
  refine ⟨fun requests => ?_, fun requests later => ?_, fun program hprogram => ?_, ?_⟩
  · exact (served_after net requests).assemble_eq hw hfits
  · have hfresh : (serveAll net [.reset] (Session.after net requests)).2 = .fresh :=
      reset_eq_fresh _
    rw [Session.after, serveAll_append]
    exact congrArg (fun s => (serveAll net later s).1) hfresh
  · have hg : (Session.compile net).Gives .fresh program net.compile.state := ⟨hprogram, rfl⟩
    obtain ⟨s₁, s₂, hensure, hvertex, hfragment, -⟩ := compile_gives hg
    have hs₁ : Served net s₁ := hensure.2 ▸ .check .fresh
    have hs₂ : Served net s₂ := hvertex.2 ▸ .assemble _ hs₁
    exact ⟨hsame hs₁ hvertex, hsame hs₂ hfragment⟩
  · intro vertex fragment fault hvertex hfragment hfault
    have hf : (Session.compile net).Fails .fresh fault net.compile.state := ⟨hfault, rfl⟩
    rcases compile_fails hf with hensure | ⟨s₁, hensure, hf⟩
    · have hc := (decided_assemble hw hfits .vertex).ok_iff.1 ⟨vertex, hvertex⟩
      exact absurd hensure (ensureAcyclic_gives_of_acyclic hw hc.acyclic).not_fails
    have hs₁ : Served net s₁ := hensure.2 ▸ .check .fresh
    rcases hf with hf | ⟨_, s₂, hg, hf⟩
    · exact hunit hs₁ hvertex hf
    · exact hunit (hg.2 ▸ .assemble _ hs₁) hfragment hf

/-- Two textures, one for each stage, where there is one texture unit. -/
def scarceUnits : Network :=
  (new { textureUnitBase := 4294967295 }).run
    [.add ⟨"grain", .uniform, .texture, []⟩,
      .add ⟨"wood", .uniform, .texture, []⟩,
      .connectSlot .vertexOffset ⟨2, 1⟩ .rgb,
      .connectSlot .albedo ⟨3, 1⟩ .rgb]

/-- The history of a session does not show, also where units run out because of it. -/
theorem historyFree_scarceUnits : scarceUnits.Arises ∧ scarceUnits.HistoryFree := by
  have h : scarceUnits.Arises :=
    (Arises.new { textureUnitBase := 4294967295 }).run (by decide +kernel)
  exact ⟨h, h.historyFree⟩

end Network

end MaterialNet
