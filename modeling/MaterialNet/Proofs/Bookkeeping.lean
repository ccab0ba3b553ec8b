import MaterialNet.Proofs.Uniforms

namespace MaterialNet

/-!
# The books of a session

The manifest and the texture units of a session are in step after any requests, also where one of
them has failed half-way.  As long as the session is not reset, entries are added at the end of the
manifest only.

* `Network.Books` — the manifest and the texture units are in step
* `Session.Continues` — a manifest goes on from an earlier one
* `Paced.keeps_serve`, `Paced.keeps_serveAll` — what one request keeps, and several in order
* `Network.Arises.registers` — the books of a session are in order throughout
-/

/-! ### Manifests that go on -/

namespace Manifest

variable {m m' : Manifest} {u : Uniform} {name : String}

/-- Registering adds at the end only. -/
theorem prefix_register (m : Manifest) (u : Uniform) :
    m.entries.toList <+: (m.register u).entries.toList := by
  unfold register
  split
  · exact List.prefix_rfl
  · rw [Array.toList_push]
    exact List.prefix_append _ _

/-- The entry of a name is the first one that has it. -/
theorem get?_eq_find? (m : Manifest) (name : String) :
    m.get? name = m.entries.toList.find? fun u => u.name == name := by
  rw [get?, Array.find?_toList]

/-- What a manifest says of a name, those that go on from it say, too. -/
theorem get?_of_prefix (h : m.entries.toList <+: m'.entries.toList) (hu : m.get? name = some u) :
    m'.get? name = some u := by
  obtain ⟨added, hadded⟩ := h
  rw [get?_eq_find?] at hu ⊢
  rw [← hadded, List.find?_append, hu, Option.some_or]

end Manifest

namespace Network

variable {net : Network} {listed : List Handle} {s : Session}

/-- The manifest and the texture units of a session of the network are in step. -/
structure Books (net : Network) (s : Session) : Prop where
  names : (s.manifest.entries.toList.map Uniform.name).Nodup
  /-- Every entry stands for a uniform node of the network. -/
  entries : ∀ u ∈ s.manifest.entries.toList, ∃ h, net.Enters h u
  /-- The counter says how many samplers there are. -/
  counter : s.boundTextures.toNat = s.manifest.textures.length
  /-- The i-th sampler is bound to the i-th unit and has no default. -/
  samplers : ∀ i u, s.manifest.textures[i]? = some u → u.default = none
    ∧ ∃ unit, u.binding = some unit ∧ unit.toNat = net.settings.textureUnitBase.toNat + i
  /-- The counter can count one more. -/
  room : (s.boundTextures + 1).toNat = s.boundTextures.toNat + 1

/-- Entries that stand for the listed uniforms one by one are in order. -/
theorem Lists.books (hl : net.Lists listed s.manifest s.boundTextures) (hw : net.WellFormed)
    (hfits : net.Fits) : net.Books s where
  names := hl.nodup_names hw
  entries u hu := by
    obtain ⟨h, -, he⟩ := exists_of_forall₂_right hl.entries hu
    exact ⟨h, he⟩
  counter := by
    have hlength := congrArg List.length hl.bindings
    rw [List.length_map, List.length_map, List.length_range] at hlength
    exact hlength.symm
  samplers i u := hl.textures_getElem
  room := by
    rw [UInt32.toNat_add, UInt32.toNat_one, Nat.mod_eq_of_lt (hl.bound_lt hw hfits)]

end Network

namespace Session

open Network

variable {net : Network} {P : Kept → Prop} {s : Session} {past : List Uniform}

/-! ### What requests keep -/

section Keeps

variable (hw : net.WellFormed) (hp : Paced net (fun _ => False) (Same P)) (hs : P s.kept)
include hw hp hs

/-- What listing a uniform and a search for cycles keep, every request keeps but a reset. -/
theorem Paced.keeps_serve {r : Request} (hr : r ≠ .reset) :
    P ((serve net r).run s).state.kept := by
  -- A request only wraps the action that answers it, or looks at the session.
  cases r with
  | check =>
    rw [serve, Action.state_bind_pure]
    exact hp.keeps_ensureAcyclic hw hs
  | assemble stage =>
    rw [serve, Action.state_bind_pure]
    exact hp.keeps_assemble hw hs stage
  | evaluate x =>
    rw [serve, Action.state_bind_pure]
    exact hp.keeps_evaluate hw hs x
  | reset => exact absurd rfl hr
  | facetExpr | facetType =>
    rw [serve, Action.state_lift_bind]
    · exact hs
    · exact fun _ => Action.state_lift_bind fun _ => rfl
  | stage | declarations | manifest => exact hs

/-- So do several requests without a reset among them. -/
theorem Paced.keeps_serveAll {requests : List Request} (hreset : .reset ∉ requests) :
    P (serveAll net requests s).2.kept := by
  -- Request by request, each from what the one before has kept.
  induction requests generalizing s with
  | nil => exact hs
  | cons r rest ih =>
    obtain ⟨hr, hrest⟩ := not_or.1 (mt List.mem_cons.2 hreset)
    exact ih (hp.keeps_serve hw hs (Ne.symm hr)) hrest

omit hw in
/-- Declaring some nodes, which may fail at one of them, is within such a request. -/
theorem Paced.keeps_declareNodes (found : List Handle) :
    P ((Session.declareNodes net found).run s).state.kept := by
  have hrun := hp.declareNodes found s s (.same hs)
  exact (hrun.left_state (fun _ => id) fun _ _ => InStage.kept).2

end Keeps

/-! ### Manifests of one session -/

/-- The manifest goes on from the given entries. -/
def Continues (net : Network) (past : List Uniform) (k : Kept) : Prop :=
  (k.acyclic = true → net.Acyclic) ∧ past <+: k.manifest.entries.toList

/-- Listing a uniform adds at the end of the manifest only. -/
theorem prefix_listUniform (n : Node) :
    s.manifest.entries.toList
      <+: ((listUniform net n).run s).state.manifest.entries.toList := by
  unfold listUniform
  rw [Action.run_bind, Action.run_getState]
  dsimp only
  -- A name that is listed, a kind without a value and a missing unit leave the manifest alone.
  split
  · exact List.prefix_rfl
  · split
    · exact List.prefix_rfl
    · split
      · exact List.prefix_rfl
      · exact s.manifest.prefix_register _
    · exact s.manifest.prefix_register _
    · exact s.manifest.prefix_register _

/-- A manifest that goes on from given entries does so after every request but a reset. -/
theorem paced_continues (past : List Uniform) :
    Paced net (fun _ => False) (Same (Continues net past)) := by
  refine paced_same (fun _ hk => hk.1) (fun _ hk hacyclic => ⟨fun _ => hacyclic, hk.2⟩) ?_
  intro x n s hn htype hu ⟨htrusts, hpast⟩
  refine ⟨fun ha => htrusts ?_, hpast.trans (prefix_listUniform n)⟩
  exact (acyclic_listUniform n).symm.trans ha

/-- A manifest goes on from its own entries. -/
theorem Served.continues (hw : net.WellFormed) (h : Served net s) :
    Continues net s.manifest.entries.toList s.kept :=
  ⟨h.trustsAcyclic hw, List.prefix_rfl⟩

end Session

namespace Network

open Session

variable {net : Network}

/-- The sessions of a network keep their books in order, whatever they are asked and whether or not
    it fails. -/
structure Registers (net : Network) : Prop where
  /-- The manifest and the texture units are in step after any requests. -/
  books : ∀ requests, net.Books (Session.after net requests)
  /-- They are in step within the next request, too, after it has declared some nodes or has failed
      at one of them. -/
  midway : ∀ requests s found, s.kept = (Session.after net requests).kept →
    net.Books ((declareNodes net found).run s).state
      ∧ (Session.after net requests).manifest.entries.toList
        <+: ((declareNodes net found).run s).state.manifest.entries.toList
  /-- Until the next reset, entries are added at the end only. -/
  growth : ∀ requests later, .reset ∉ later →
    (Session.after net requests).manifest.entries.toList
      <+: (Session.after net (requests ++ later)).manifest.entries.toList
  /-- Until the next reset, an entry stays as it is. -/
  stays : ∀ requests later name u, .reset ∉ later →
    (Session.after net requests).manifest.get? name = some u →
      (Session.after net (requests ++ later)).manifest.get? name = some u
  /-- A reset empties the manifest and gives all texture units back. -/
  reset : ∀ requests, (Session.after net (requests ++ [.reset])).manifest = .empty
    ∧ (Session.after net (requests ++ [.reset])).boundTextures = 0

/-- The books of the sessions of a network are in order throughout. -/
theorem Arises.registers (h : net.Arises) : net.Registers := by
  have hw := h.wellFormed
  have hfits := h.fits
  have hserved := served_after net
  -- What has been kept decides about the books.
  have hbooks {s : Session} (hs : Orderly net s.kept) : net.Books s := by
    obtain ⟨-, listed, hl⟩ := hs
    exact hl.books hw hfits
  have hextends : ∀ requests later, .reset ∉ later →
      (Session.after net requests).manifest.entries.toList
        <+: (Session.after net (requests ++ later)).manifest.entries.toList := by
    intro requests later hreset
    rw [Session.after, Session.after, serveAll_append]
    exact ((paced_continues _).keeps_serveAll hw ((hserved requests).continues hw) hreset).2
  refine ⟨fun requests => ?_, fun requests s found hkept => ⟨?_, ?_⟩, hextends, ?_, ?_⟩
  · exact ((hserved requests).lists hw hfits).elim fun _ hl => hl.books hw hfits
  · have horderly : Orderly net s.kept := by
      rw [hkept]
      exact ⟨(hserved requests).trustsAcyclic hw, (hserved requests).lists hw hfits⟩
    exact hbooks ((paced_orderly hw hfits).keeps_declareNodes horderly found)
  · have hcontinues :
        Continues net (Session.after net requests).manifest.entries.toList s.kept := by
      rw [hkept]
      exact (hserved requests).continues hw
    exact ((paced_continues _).keeps_declareNodes hcontinues found).2
  · exact fun requests later name u hreset hu =>
      Manifest.get?_of_prefix (hextends requests later hreset) hu
  · intro requests
    rw [Session.after, serveAll_append]
    exact ⟨rfl, rfl⟩

/-- The books are in order also where the texture units run out half-way. -/
theorem registers_scarceUnits : scarceUnits.Arises ∧ scarceUnits.Registers := by
  have h : scarceUnits.Arises :=
    (Arises.new { textureUnitBase := 4294967295 }).run (by decide +kernel)
  exact ⟨h, h.registers⟩

end Network

end MaterialNet
