import Mathlib.Data.Finset.Card
import MaterialNet.Proofs.Editing
import MaterialNet.Proofs.Visits
import MaterialNet.Session.Declare

namespace MaterialNet

/-!
# Declaring what a stage needs

Declaring a node takes its names for the stage and, for a uniform, lists it in the session's
manifest.  Names are forgotten when a stage is entered; the manifest and the texture units are
kept for the whole session.

* `Network.Owned`, `Network.Listed` — what the taken names and the manifest say about the nodes
  declared so far
* `Network.NamesApart` — no variable of a stage is needed for two nodes
* `Session.declareNodes_gives`, `declareNodes_fails` — the two outcomes of declaring several nodes
* `Session.declareSlots_gives`, `declareSlots_fails` — the same for what feeds the slots of a stage
-/

/-! ### Names -/

/-- The names that a node takes: its own, and that of the variable that holds what it computes. -/
def Node.Takes (n : Node) (name : String) : Prop := n.id = name ∨ n.variableName = name

/-- The variable of a texture holds its sample. -/
theorem Node.variableName_of_texture {n : Node} (h : n.kind = .texture) :
    n.variableName = n.id ++ "_sample" := by
  simp [variableName, h]

/-- The variable of any other node has the node's own name. -/
theorem Node.variableName_of_ne_texture {n : Node} (h : n.kind ≠ .texture) :
    n.variableName = n.id := by
  unfold variableName
  split
  · exact absurd ‹_› h
  · rfl

/-- A sound texture is a uniform. -/
theorem Node.storage_of_check {n : Node} (h : n.check = .ok ()) (hk : n.kind = .texture) :
    n.storage = .uniform := by
  obtain ⟨-, -, h⟩ := bind_ok_iff.1 h
  by_contra hs
  simp [flaw?, hk, hs] at h

/-- Only the sink has no value. -/
theorem Node.isSome_type? {n : Node} (h : n.isSink = false) : n.type?.isSome := by
  unfold type?
  split <;> simp_all [isSink]

namespace Network

variable {net : Network} {here : Set Handle} {done : Finset Handle}

/-- No node of the set has the name of the variable that holds the sample of another. -/
def NamesApart (net : Network) (here : Set Handle) : Prop :=
  ∀ h ∈ here, ∀ h' ∈ here, h ≠ h' → ∀ n n', net.node? h = some n → net.node? h' = some n' →
    n.kind = .texture → n'.id ≠ n.id ++ "_sample"

/-- Among fewer nodes, names stay apart. -/
theorem NamesApart.mono {here' : Set Handle} (h : net.NamesApart here') (hle : here ⊆ here') :
    net.NamesApart here :=
  fun x hx y hy => h x (hle hx) y (hle hy)

/-- Two nodes that take one name are a texture and a node with the name of its sample. -/
theorem not_namesApart (hw : net.WellFormed) {h h' : Handle} (hh : h ∈ here) (hh' : h' ∈ here)
    (hne : h ≠ h') {n n' : Node} (hn : net.node? h = some n) (hn' : net.node? h' = some n')
    {name : String} (ht : n.Takes name) (ht' : n'.Takes name) : ¬ net.NamesApart here := by
  intro hapart
  have hid : n.id ≠ n'.id := fun hid => hne (hw.handle_unique hn hn' hid)
  -- Each node takes its name, and a texture that of its sample, too: four cases, of which those
  -- with equal names are excluded by the index.
  by_cases hk : n.kind = .texture <;> by_cases hk' : n'.kind = .texture
  · have h₁ := hapart h hh h' hh' hne n n' hn hn' hk
    have h₂ := hapart h' hh' h hh hne.symm n' n hn' hn hk'
    simp only [Node.Takes, Node.variableName_of_texture hk,
      Node.variableName_of_texture hk'] at ht ht'
    rcases ht with rfl | rfl <;> rcases ht' with ht' | ht'
    · exact hid ht'.symm
    · exact h₂ ht'.symm
    · exact h₁ ht'
    · exact hid (String.append_left_inj _ |>.1 ht'.symm)
  · have h₁ := hapart h hh h' hh' hne n n' hn hn' hk
    simp only [Node.Takes, Node.variableName_of_texture hk, Node.variableName_of_ne_texture hk',
      or_self] at ht ht'
    rcases ht with rfl | rfl
    · exact hid ht'.symm
    · exact h₁ ht'
  · have h₂ := hapart h' hh' h hh hne.symm n' n hn' hn hk'
    simp only [Node.Takes, Node.variableName_of_texture hk', Node.variableName_of_ne_texture hk,
      or_self] at ht ht'
    rcases ht' with rfl | rfl
    · exact hid ht
    · exact h₂ ht
  · simp only [Node.Takes, Node.variableName_of_ne_texture hk, Node.variableName_of_ne_texture hk',
      or_self] at ht ht'
    exact hid (ht.trans ht'.symm)

/-- Where a node has the name of a node's variable, it is this node, and no texture. -/
theorem NamesApart.eq_of_id_eq (hapart : net.NamesApart here) (hw : net.WellFormed) {h h' : Handle}
    (hh : h ∈ here) (hh' : h' ∈ here) {n n' : Node} (hn : net.node? h = some n)
    (hn' : net.node? h' = some n') (hid : n.id = n'.variableName) :
    h = h' ∧ n'.kind ≠ .texture := by
  by_cases he : h = h'
  · subst he
    obtain rfl := Option.some.inj (hn.symm.trans hn')
    refine ⟨rfl, fun hk => ?_⟩
    -- The variable of a texture has a longer name than the texture.
    rw [Node.variableName_of_texture hk] at hid
    have hlength := congrArg String.length hid
    simp at hlength
  · exact absurd hapart (not_namesApart hw hh hh' he hn hn' (.inl hid) (.inr rfl))

/-- The owners of names are the nodes of the set, each of the names that it takes. -/
def Owned (net : Network) (here : Set Handle) (owners : Std.TreeMap String Handle) : Prop :=
  ∀ name h, owners[name]? = some h ↔ h ∈ here ∧ ∃ n, net.node? h = some n ∧ n.Takes name

/-- At first no name has an owner. -/
theorem owned_empty : net.Owned ∅ .empty := by
  intro name h
  show (∅ : Std.TreeMap String Handle)[name]? = some h ↔ _
  simp

/-- Since a name has one owner, the names of the nodes are apart. -/
theorem Owned.namesApart {owners : Std.TreeMap String Handle} (h : net.Owned here owners) :
    net.NamesApart here := by
  intro x hx y hy hne n n' hn hn' hk hid
  have h₁ := (h n'.id x).2 ⟨hx, n, hn, .inr (by rw [Node.variableName_of_texture hk, hid])⟩
  have h₂ := (h n'.id y).2 ⟨hy, n', hn', .inl rfl⟩
  rw [h₁] at h₂
  exact hne (Option.some.inj h₂)

/-! ### Texture units -/

/-- The handle names a texture. -/
def isTexture (net : Network) (h : Handle) : Bool :=
  match net.node? h with
  | some n => n.kind = .texture
  | none => false

theorem isTexture_iff {h : Handle} {n : Node} (hn : net.node? h = some n) :
    net.isTexture h = true ↔ n.kind = .texture := by
  simp [isTexture, hn]

/-- The number of textures in a set of nodes. -/
def textures (net : Network) (done : Finset Handle) : Nat :=
  (done.filter fun h => net.isTexture h = true).card

/-- More nodes have no fewer textures. -/
theorem textures_mono {done' : Finset Handle} (h : done ⊆ done') :
    net.textures done ≤ net.textures done' :=
  Finset.card_le_card (Finset.filter_subset_filter _ h)

/-- A new node counts if it is a texture. -/
theorem textures_insert {h : Handle} (hh : h ∉ done) :
    net.textures (insert h done) = net.textures done + if net.isTexture h then 1 else 0 := by
  unfold textures
  rw [Finset.filter_insert]
  split
  · rw [Finset.card_insert_of_notMem fun hm => hh (Finset.mem_filter.1 hm).1]
  · rfl

/-- What a manifest and a number of bound textures say about the nodes declared in a session. -/
structure Listed (net : Network) (done : Finset Handle) (m : Manifest) (bound : UInt32) : Prop where
  /-- The declared nodes are nodes of the network. -/
  mem_order : ∀ h ∈ done, h ∈ net.order.toList
  /-- The manifest lists the uniforms among them. -/
  contains_iff : ∀ name, m.contains name = true ↔
    ∃ h ∈ done, ∃ n, net.node? h = some n ∧ n.storage = .uniform ∧ n.id = name
  /-- The textures among them are bound. -/
  bound_eq : bound.toNat = net.textures done
  /-- There is a unit for each of them. -/
  units : net.settings.textureUnitBase.toNat + bound.toNat ≤ UInt32.size

/-- At first nothing is listed, and there is room for no textures at least. -/
theorem listed_empty : net.Listed ∅ .empty 0 where
  mem_order := by simp
  contains_iff name := by simp [Manifest.contains, Manifest.get?, Manifest.empty]
  bound_eq := rfl
  units := by
    have hbase := net.settings.textureUnitBase.toNat_lt
    show net.settings.textureUnitBase.toNat + 0 ≤ 2 ^ 32
    omega

/-- There are fewer nodes than texture units can be numbered. -/
theorem Listed.card_lt {m : Manifest} {bound : UInt32} (hl : net.Listed done m bound)
    (hfits : net.Fits) : net.textures done + 1 < UInt32.size := by
  have h₁ : net.textures done ≤ done.card := Finset.card_filter_le _ _
  have h₂ : done ⊆ net.order.toList.toFinset := fun h hh => List.mem_toFinset.2 (hl.mem_order h hh)
  have h₃ := (Finset.card_le_card h₂).trans (List.toFinset_card_le _)
  have h₄ : net.order.toList.length + 1 ≤ UInt32.size - 2 := hfits
  omega

end Network

/-! ### Manifests -/

/-- A registered name is in the manifest, whether or not it was before. -/
theorem Manifest.contains_register (m : Manifest) (u : Uniform) (name : String) :
    (m.register u).contains name = true ↔ m.contains name = true ∨ u.name = name := by
  unfold register
  split
  · rename_i hm
    constructor
    · exact .inl
    · rintro (h | rfl)
      · exact h
      · exact hm
  · simp [contains, get?, Array.find?_push]

namespace Session

variable {net : Network} {here : Set Handle} {done : Finset Handle} {s s' : Session}
  {name : String} {owner h : Handle} {n : Node} {fault : Fault}

/-! ### Taking names -/

/-- Declaring changes nothing of a session but names, declarations, manifest and units. -/
def Recorded (s s' : Session) : Prop :=
  s' = { s with
    owners := s'.owners
    declarations := s'.declarations
    manifest := s'.manifest
    boundTextures := s'.boundTextures }

/-- What changes nothing else in two steps changes nothing else. -/
theorem Recorded.trans {s'' : Session} (h : Recorded s s') (h' : Recorded s' s'') :
    Recorded s s'' := by
  unfold Recorded at *
  rw [h'] at *
  rw [h]

/-- A taken name has its owner; nothing else is changed. -/
theorem takeName_gives (h : (takeName name owner).Gives s () s') :
    s' = { s with owners := s'.owners }
      ∧ ∀ x k, s'.owners[x]? = some k ↔ s.owners[x]? = some k ∨ x = name ∧ k = owner := by
  unfold takeName at h
  replace h := Action.gives_getState_bind.1 h
  -- The name may have an owner already, who can only be the node itself.
  cases ho : s.owners[name]? with
  | some other =>
    simp only [ho] at h
    split at h
    · rename_i heq
      obtain ⟨-, rfl⟩ := Action.gives_pure.1 h
      refine ⟨rfl, fun x k => ⟨.inl, ?_⟩⟩
      rintro (hx | ⟨rfl, rfl⟩)
      · exact hx
      · rw [ho, heq]
    · cases (Action.gives_lift.1 h).1
  | none =>
    simp only [ho] at h
    have hs := Action.gives_setState.1 h
    subst hs
    refine ⟨rfl, fun x k => ?_⟩
    simp only [Std.TreeMap.getElem?_insert, Std.compare_eq_iff_eq]
    split
    · rename_i hx
      subst hx
      simp [ho, eq_comm]
    · rename_i hx
      simp [Ne.symm hx]

/-- A name is refused when another node owns it. -/
theorem takeName_fails (h : (takeName name owner).Fails s fault s') :
    fault = .duplicateName name ∧ ∃ other, s.owners[name]? = some other ∧ other ≠ owner := by
  unfold takeName at h
  replace h := Action.fails_getState_bind.1 h
  cases ho : s.owners[name]? with
  | some other =>
    simp only [ho] at h
    split at h
    · exact absurd h Action.not_fails_pure
    · rename_i hne
      obtain ⟨hf, -⟩ := Action.fails_lift.1 h
      cases hf
      exact ⟨rfl, other, rfl, hne⟩
  | none =>
    simp only [ho] at h
    exact absurd h Action.not_fails_setState

/-! ### Listing uniforms -/

/-- A listed uniform is in the manifest; a texture that was not there before is bound to a unit,
    for which there was room. -/
theorem listUniform_gives (hn : n.type?.isSome) (h : (listUniform net n).Gives s () s') :
    s' = { s with manifest := s'.manifest, boundTextures := s'.boundTextures }
      ∧ (∀ x, s'.manifest.contains x = true ↔ s.manifest.contains x = true ∨ n.id = x)
      ∧ ((s.manifest.contains n.id = true ∨ n.kind ≠ .texture)
            ∧ s'.boundTextures = s.boundTextures
          ∨ s.manifest.contains n.id = false ∧ n.kind = .texture
            ∧ s'.boundTextures = s.boundTextures + 1
            ∧ net.settings.textureUnitBase.toNat + s.boundTextures.toNat < UInt32.size) := by
  unfold listUniform at h
  replace h := Action.gives_getState_bind.1 h
  split at h
  · rename_i hm
    obtain ⟨-, rfl⟩ := Action.gives_pure.1 h
    refine ⟨rfl, fun x => ⟨.inl, ?_⟩, .inl ⟨.inl hm, rfl⟩⟩
    rintro (hx | rfl)
    · exact hx
    · exact hm
  · rename_i hm
    rw [Bool.not_eq_true] at hm
    split at h
    · rename_i htype
      rw [htype] at hn
      cases hn
    · rename_i type hkind _
      simp only [nextUnit?] at h
      split at h
      · cases (Action.gives_lift.1 h).1
      · rename_i unit hunit
        have hs := Action.gives_setState.1 h
        subst hs
        refine ⟨rfl, Manifest.contains_register _ _, .inr ⟨hm, hkind, rfl, ?_⟩⟩
        by_contra hlt
        rw [if_neg hlt] at hunit
        cases hunit
    · rename_i value type hkind _
      have hs := Action.gives_setState.1 h
      subst hs
      exact ⟨rfl, Manifest.contains_register _ _, .inl ⟨.inr (by simp [hkind]), rfl⟩⟩
    · rename_i hne _
      have hs := Action.gives_setState.1 h
      subst hs
      exact ⟨rfl, Manifest.contains_register _ _, .inl ⟨.inr hne, rfl⟩⟩

/-- A uniform is refused when it is a texture for which no unit is left. -/
theorem listUniform_fails (h : (listUniform net n).Fails s fault s') :
    fault = .noTextureUnit n.id ∧ s.manifest.contains n.id = false ∧ n.kind = .texture
      ∧ UInt32.size ≤ net.settings.textureUnitBase.toNat + s.boundTextures.toNat := by
  unfold listUniform at h
  replace h := Action.fails_getState_bind.1 h
  split at h
  · exact absurd h Action.not_fails_pure
  · rename_i hm
    rw [Bool.not_eq_true] at hm
    split at h
    · exact absurd h Action.not_fails_pure
    · rename_i type hkind _
      simp only [nextUnit?] at h
      split at h
      · rename_i hunit
        obtain ⟨hf, -⟩ := Action.fails_lift.1 h
        cases hf
        refine ⟨rfl, hm, hkind, ?_⟩
        by_contra hlt
        rw [if_pos (Nat.not_le.1 hlt)] at hunit
        cases hunit
      · exact absurd h Action.not_fails_setState
    · exact absurd h Action.not_fails_setState
    · exact absurd h Action.not_fails_setState

/-! ### Declaring one node -/

/-- A node whose names were free, or its own, owns them. -/
theorem takeNames_gives (h' : (takeNames n h).Gives s () s') :
    s' = { s with owners := s'.owners }
      ∧ ∀ x k, s'.owners[x]? = some k ↔ s.owners[x]? = some k ∨ n.Takes x ∧ k = h := by
  unfold takeNames at h'
  obtain ⟨_, t, h₁, h₂⟩ := Action.gives_bind.1 h'
  obtain ⟨ht, ho⟩ := takeName_gives h₁
  -- A node that is no texture has one name only.
  split at h₂
  · rename_i heq
    obtain ⟨-, rfl⟩ := Action.gives_pure.1 h₂
    refine ⟨ht, fun x k => ?_⟩
    rw [ho, Node.Takes, heq, or_self, eq_comm (a := x)]
  · obtain ⟨ht', ho'⟩ := takeName_gives h₂
    refine ⟨?_, fun x k => ?_⟩
    · rw [ht', ht]
    · rw [ho', ho, Node.Takes, or_and_right, or_assoc, eq_comm (a := x),
        eq_comm (a := x)]

/-- The names of a node are refused when another node owns one of them. -/
theorem takeNames_fails (h' : (takeNames n h).Fails s fault s') :
    ∃ name, fault = .duplicateName name ∧ n.Takes name
      ∧ ∃ other, s.owners[name]? = some other ∧ other ≠ h := by
  unfold takeNames at h'
  rcases Action.fails_bind.1 h' with h₁ | ⟨_, t, h₁, h₂⟩
  · obtain ⟨hf, other, ho, hne⟩ := takeName_fails h₁
    exact ⟨_, hf, .inl rfl, other, ho, hne⟩
  · split at h₂
    · exact absurd h₂ Action.not_fails_pure
    · obtain ⟨hf, other, ho, hne⟩ := takeName_fails h₂
      -- The second name may be owned since before, but not since the first was taken.
      rcases ((takeName_gives h₁).2 _ _).1 ho with ho | ⟨-, rfl⟩
      · exact ⟨_, hf, .inr rfl, other, ho, hne⟩
      · exact absurd rfl hne

/-- The declaration of a node, if it has one, comes to the end. -/
theorem collect_gives (h : (collect n).Gives s () s') :
    s' = { s with declarations := s.declarations ++ n.declaration?.toArray } := by
  unfold collect at h
  split at h
  · rename_i d hd
    rw [← Action.gives_modifyState.1 h, hd]
    rfl
  · rename_i hd
    obtain ⟨-, rfl⟩ := Action.gives_pure.1 h
    rw [hd]
    simp

/-- Collecting does not fail. -/
theorem not_fails_collect : ¬ (collect n).Fails s fault s' := by
  unfold collect
  split
  · exact Action.not_fails_modifyState
  · exact Action.not_fails_pure

end Session

namespace Network

variable {net : Network} {here : Set Handle} {done : Finset Handle} {m m' : Manifest}
  {bound bound' : UInt32} {h : Handle} {n : Node}

/-- A node that has taken its names is an owner. -/
theorem Owned.insert {owners owners' : Std.TreeMap String Handle} (ho : net.Owned here owners)
    (hn : net.node? h = some n)
    (h' : ∀ x k, owners'[x]? = some k ↔ owners[x]? = some k ∨ n.Takes x ∧ k = h) :
    net.Owned (insert h here) owners' := by
  intro x k
  rw [h', ho x k, Set.mem_insert_iff]
  constructor
  · rintro (⟨hk, hx⟩ | ⟨hx, rfl⟩)
    · exact ⟨.inr hk, hx⟩
    · exact ⟨.inl rfl, n, hn, hx⟩
  · rintro ⟨rfl | hk, hx⟩
    · obtain ⟨n', hn', hx⟩ := hx
      obtain rfl := Option.some.inj (hn.symm.trans hn')
      exact .inr ⟨hx, rfl⟩
    · exact .inl ⟨hk, hx⟩

/-- A node that is no uniform is not listed. -/
theorem Listed.insert_local (hl : net.Listed done m bound) (hw : net.WellFormed)
    (hn : net.node? h = some n) (hmem : h ∈ net.order.toList) (hs : n.storage ≠ .uniform) :
    net.Listed (insert h done) m bound where
  mem_order := Finset.forall_mem_insert _ _ _ |>.2 ⟨hmem, hl.mem_order⟩
  contains_iff name := by
    rw [hl.contains_iff]
    constructor
    · rintro ⟨k, hk, hx⟩
      exact ⟨k, Finset.mem_insert_of_mem hk, hx⟩
    · rintro ⟨k, hk, n', hn', hs', hx⟩
      rcases Finset.mem_insert.1 hk with rfl | hk
      · obtain rfl := Option.some.inj (hn.symm.trans hn')
        exact absurd hs' hs
      · exact ⟨k, hk, n', hn', hs', hx⟩
  bound_eq := by
    rw [hl.bound_eq]
    by_cases hh : h ∈ done
    · rw [Finset.insert_eq_of_mem hh]
    · -- Textures are uniforms.
      have hk : ¬ net.isTexture h = true := by
        rw [isTexture_iff hn]
        intro hk
        exact hs (Node.storage_of_check (hw.check h n hn ((hw.mem_order h).1 hmem).1) hk)
      rw [textures_insert hh, if_neg hk, Nat.add_zero]
  units := hl.units

/-- A uniform is listed; a texture that was not listed before is bound to a unit. -/
theorem Listed.insert_uniform (hl : net.Listed done m bound) (hw : net.WellFormed)
    (hfits : net.Fits) (hn : net.node? h = some n) (hmem : h ∈ net.order.toList)
    (hs : n.storage = .uniform)
    (hm : ∀ x, m'.contains x = true ↔ m.contains x = true ∨ n.id = x)
    (hb : (m.contains n.id = true ∨ n.kind ≠ .texture) ∧ bound' = bound
      ∨ m.contains n.id = false ∧ n.kind = .texture ∧ bound' = bound + 1
        ∧ net.settings.textureUnitBase.toNat + bound.toNat < UInt32.size) :
    net.Listed (insert h done) m' bound' := by
  -- The manifest holds the node's name exactly if the node itself has been declared before.
  have hdone : m.contains n.id = true ↔ h ∈ done := by
    rw [hl.contains_iff]
    constructor
    · rintro ⟨k, hk, n', hn', -, hid⟩
      rwa [hw.handle_unique hn hn' hid.symm]
    · exact fun hh => ⟨h, hh, n, hn, hs, rfl⟩
  have hcontains name : m'.contains name = true ↔
      ∃ k ∈ insert h done, ∃ n', net.node? k = some n' ∧ n'.storage = .uniform ∧ n'.id = name := by
    rw [hm, hl.contains_iff]
    constructor
    · rintro (⟨k, hk, hx⟩ | rfl)
      · exact ⟨k, Finset.mem_insert_of_mem hk, hx⟩
      · exact ⟨h, Finset.mem_insert_self _ _, n, hn, hs, rfl⟩
    · rintro ⟨k, hk, n', hn', hs', rfl⟩
      rcases Finset.mem_insert.1 hk with rfl | hk
      · obtain rfl := Option.some.inj (hn.symm.trans hn')
        exact .inr rfl
      · exact .inl ⟨k, hk, n', hn', hs', rfl⟩
  have hmem' := (Finset.forall_mem_insert h done (· ∈ net.order.toList)).2 ⟨hmem, hl.mem_order⟩
  rcases hb with ⟨hold, rfl⟩ | ⟨hnew, hk, rfl, hunit⟩
  · refine ⟨hmem', hcontains, ?_, hl.units⟩
    rw [hl.bound_eq]
    by_cases hh : h ∈ done
    · rw [Finset.insert_eq_of_mem hh]
    · have hk : ¬ net.isTexture h = true := by
        rw [isTexture_iff hn]
        exact hold.resolve_left fun hc => hh (hdone.1 hc)
      rw [textures_insert hh, if_neg hk, Nat.add_zero]
  · have hh : h ∉ done := fun hh => by
      rw [hdone.2 hh] at hnew
      cases hnew
    have hlt := hl.card_lt hfits
    have hadd : (bound + 1).toNat = bound.toNat + 1 := by
      rw [UInt32.toNat_add, UInt32.toNat_one, Nat.mod_eq_of_lt]
      rw [hl.bound_eq]
      exact hlt
    refine ⟨hmem', hcontains, ?_, ?_⟩
    · rw [hadd, textures_insert hh, if_pos ((isTexture_iff hn).2 hk), hl.bound_eq]
    · rw [hadd]
      exact hunit

end Network

namespace Session

open Network

variable {net : Network} {here : Set Handle} {done : Finset Handle} {s s' : Session}
  {h : Handle} {n : Node} {fault : Fault} {out : List Handle}

/-- What a session has recorded: the nodes `here` own their names in the current stage, and the
    nodes `done` are listed. -/
structure Ledger (net : Network) (here : Set Handle) (done : Finset Handle) (s : Session) :
    Prop where
  owned : net.Owned here s.owners
  listed : net.Listed done s.manifest s.boundTextures

/-- Why declaring the nodes `here` in a stage, and `done` in all stages, is refused. -/
def Refusal (net : Network) (here : Set Handle) (done : Finset Handle) (fault : Fault) : Prop :=
  (∃ name, fault = .duplicateName name) ∧ ¬ net.NamesApart here
    ∨ (∃ name, fault = .noTextureUnit name)
      ∧ UInt32.size < net.settings.textureUnitBase.toNat + net.textures done

/-- What refuses some nodes refuses more of them. -/
theorem Refusal.mono {here' : Set Handle} {done' : Finset Handle}
    (h : Refusal net here done fault) (hh : here ⊆ here') (hd : done ⊆ done') :
    Refusal net here' done' fault := by
  rcases h with ⟨hx, hc⟩ | ⟨hx, hu⟩
  · exact .inl ⟨hx, fun hapart => hc (hapart.mono hh)⟩
  · exact .inr ⟨hx, hu.trans_le (Nat.add_le_add_left (textures_mono hd) _)⟩

section Declaring

variable (hw : net.WellFormed) (hfits : net.Fits)
include hw hfits

/-- A declared node owns its names and is listed, next to whatever was listed before. -/
theorem declareNode_gives (ho : net.Owned here s.owners) (hmem : h ∈ net.order.toList)
    (hg : (declareNode net h).Gives s () s') :
    Recorded s s' ∧ net.Owned (insert h here) s'.owners
      ∧ ∀ done, net.Listed done s.manifest s.boundTextures →
        net.Listed (insert h done) s'.manifest s'.boundTextures := by
  unfold declareNode at hg
  obtain ⟨n, hn, hg⟩ := Action.gives_lift_bind.1 hg
  obtain ⟨_, s₁, h₁, hg⟩ := Action.gives_bind.1 hg
  obtain ⟨_, s₂, h₂, h₃⟩ := Action.gives_bind.1 hg
  rw [get_eq_ok] at hn
  obtain ⟨hs₁, howner⟩ := takeNames_gives h₁
  have hs₂ := collect_gives h₂
  have howned := ho.insert hn howner
  split at h₃
  · rename_i hs
    have hsink : n.isSink = false := hw.isSink_eq_false hn ((hw.mem_order h).1 hmem).1
    obtain ⟨hs₃, hm, hb⟩ := listUniform_gives (Node.isSome_type? hsink) h₃
    rw [hs₂, hs₁] at hm hb
    refine ⟨?_, ?_, fun done hl => hl.insert_uniform hw hfits hn hmem hs hm hb⟩
    · unfold Recorded
      rw [hs₃, hs₂, hs₁]
    · rw [hs₃, hs₂]
      exact howned
  · rename_i hs
    obtain ⟨-, rfl⟩ := Action.gives_pure.1 h₃
    rw [hs₂, hs₁]
    exact ⟨rfl, howned, fun done hl => hl.insert_local hw hn hmem hs⟩

omit hfits in
/-- A node is refused when another node of the stage owns one of its names, or when it is a
    texture for which no unit is left. -/
theorem declareNode_fails (hl : Ledger net here done s) (hmem : h ∈ net.order.toList)
    (hf : (declareNode net h).Fails s fault s') :
    Refusal net (insert h here) (insert h done) fault := by
  have hlive := ((hw.mem_order h).1 hmem).2
  unfold declareNode at hf
  rcases Action.fails_lift_bind.1 hf with ⟨hget, -⟩ | ⟨n, hn, hf⟩
  · rw [(get_eq_error.1 hget).1] at hlive
    cases hlive
  rw [get_eq_ok] at hn
  rcases Action.fails_bind.1 hf with h₁ | ⟨_, s₁, h₁, hf⟩
  · obtain ⟨name, rfl, ht, other, ho, hne⟩ := takeNames_fails h₁
    obtain ⟨hother, n', hn', ht'⟩ := (hl.owned name other).1 ho
    exact .inl ⟨⟨name, rfl⟩, not_namesApart hw (Set.mem_insert_of_mem _ hother)
      (Set.mem_insert _ _) hne hn' hn ht' ht⟩
  rcases Action.fails_bind.1 hf with h₂ | ⟨_, s₂, h₂, h₃⟩
  · exact absurd h₂ not_fails_collect
  split at h₃
  · rename_i hs
    obtain ⟨rfl, hnew, hk, hunit⟩ := listUniform_fails h₃
    rw [collect_gives h₂, (takeNames_gives h₁).1] at hnew hunit
    have hh : h ∉ done := fun hh => by
      rw [(hl.listed.contains_iff n.id).2 ⟨h, hh, n, hn, hs, rfl⟩] at hnew
      cases hnew
    refine .inr ⟨⟨_, rfl⟩, ?_⟩
    rw [textures_insert hh, if_pos ((isTexture_iff hn).2 hk), ← hl.listed.bound_eq]
    exact Nat.lt_succ_of_le hunit
  · exact absurd h₃ Action.not_fails_pure

/-! ### Declaring several nodes -/

/-- Several declared nodes own their names and are listed. -/
theorem declareNodes_gives (ho : net.Owned here s.owners) (hmem : ∀ h ∈ out, h ∈ net.order.toList)
    (hg : (declareNodes net out).Gives s () s') :
    Recorded s s' ∧ net.Owned (here ∪ {x | x ∈ out}) s'.owners
      ∧ ∀ done, net.Listed done s.manifest s.boundTextures →
        net.Listed (done ∪ out.toFinset) s'.manifest s'.boundTextures := by
  -- Node by node; what owns its names so far is `here`, and grows.
  induction out generalizing s here with
  | nil =>
    obtain ⟨-, rfl⟩ := Action.gives_pure.1 hg
    exact ⟨rfl, by simpa using ho, by simp⟩
  | cons h rest ih =>
    obtain ⟨_, s₁, h₁, h₂⟩ := Action.gives_bind.1 hg
    obtain ⟨hr₁, ho₁, hl₁⟩ := declareNode_gives hw hfits ho (hmem h List.mem_cons_self) h₁
    obtain ⟨hr₂, ho₂, hl₂⟩ := ih ho₁ (fun x hx => hmem x (List.mem_cons_of_mem _ hx)) h₂
    refine ⟨hr₁.trans hr₂, ?_, fun done hl => ?_⟩
    · rw [union_cons]
      exact ho₂
    · rw [List.toFinset_cons, Finset.union_insert, ← Finset.insert_union]
      exact hl₂ _ (hl₁ done hl)

/-- Several nodes are refused for what refuses one of them. -/
theorem declareNodes_fails (hl : Ledger net here done s) (hmem : ∀ h ∈ out, h ∈ net.order.toList)
    (hf : (declareNodes net out).Fails s fault s') :
    Refusal net (here ∪ {x | x ∈ out}) (done ∪ out.toFinset) fault := by
  induction out generalizing s here done with
  | nil => exact absurd hf Action.not_fails_pure
  | cons h rest ih =>
    rw [union_cons, List.toFinset_cons, Finset.union_insert, ← Finset.insert_union]
    -- The first node is refused, or one of the others after it.
    rcases Action.fails_bind.1 hf with h₁ | ⟨_, s₁, h₁, h₂⟩
    · have hr := declareNode_fails hw hl (hmem h List.mem_cons_self) h₁
      exact hr.mono Set.subset_union_left Finset.subset_union_left
    · obtain ⟨-, ho₁, hl₁⟩ := declareNode_gives hw hfits hl.owned (hmem h List.mem_cons_self) h₁
      exact ih ⟨ho₁, hl₁ done hl.listed⟩ (fun x hx => hmem x (List.mem_cons_of_mem _ hx)) h₂

/-! ### Declaring what nodes depend on -/

omit hw hfits in
/-- The nodes of two lists are those of the first and those of the second. -/
theorem union_append (here : Set Handle) (first second : List Handle) :
    here ∪ {x | x ∈ first ++ second} = here ∪ {x | x ∈ first} ∪ {x | x ∈ second} := by
  rw [Set.union_assoc]
  simp [Set.union_def]

omit hw hfits in
/-- The nodes that a visit of `roots` lists have been declared on the way from `s` to `s'`: they own
    their names, and they are listed next to whatever was listed before. -/
structure Declares (net : Network) (here : Set Handle) (s : Session) (roots out : List Handle)
    (s' : Session) : Prop where
  visits : Visits net s.declared.members roots out
  members : s'.declared.members = s.declared.members ∪ {x | x ∈ out}
  recorded : Recorded { s with declared := s'.declared } s'
  owned : net.Owned (here ∪ {x | x ∈ out}) s'.owners
  listed : ∀ done, net.Listed done s.manifest s.boundTextures →
    net.Listed (done ∪ out.toFinset) s'.manifest s'.boundTextures

omit hw hfits in
theorem Declares.nil (ho : net.Owned here s.owners) : Declares net here s [] [] s where
  visits := .nil
  members := by simp
  recorded := rfl
  owned := by simpa using ho
  listed := by simp

omit hw hfits in
/-- What two ways have declared is declared on the way through both. -/
theorem Declares.append {s₁ s₂ : Session} {roots₁ roots₂ out₁ out₂ : List Handle}
    (h₁ : Declares net here s roots₁ out₁ s₁)
    (h₂ : Declares net (here ∪ {x | x ∈ out₁}) s₁ roots₂ out₂ s₂) :
    Declares net here s (roots₁ ++ roots₂) (out₁ ++ out₂) s₂ := by
  have hvisits := h₂.visits
  rw [h₁.members] at hvisits
  refine ⟨h₁.visits.append hvisits, ?_, ?_, ?_, fun done hl => ?_⟩
  · rw [h₂.members, h₁.members, union_append]
  · have hr₁ := h₁.recorded
    have hr₂ := h₂.recorded
    unfold Recorded at *
    rw [hr₂, hr₁]
  · rw [union_append]
    exact h₂.owned
  · rw [List.toFinset_append, ← Finset.union_assoc]
    exact h₂.listed _ (h₁.listed done hl)

omit hw hfits in
/-- What has been declared is recorded. -/
theorem Declares.ledger {roots : List Handle} (h : Declares net here s roots out s')
    (hl : Ledger net here done s) : Ledger net (here ∪ {x | x ∈ out}) (done ∪ out.toFinset) s' :=
  ⟨h.owned, h.listed done hl.listed⟩

/-- Declaring a root declares what a walk from it lists. -/
theorem declare_gives {root : Handle} (ho : net.Owned here s.owners)
    (hroot : root ∈ net.order.toList) (hg : (declare net root).Gives s () s') :
    ∃ out, Declares net here s [root] out s' := by
  unfold declare at hg
  replace hg := Action.gives_getState_bind.1 hg
  obtain ⟨⟨found, declared⟩, hwalk, hg⟩ := Action.gives_lift_bind.1 hg
  replace hg := Action.gives_setState_bind.1 hg
  obtain ⟨hvisits, hmembers⟩ := visits_of_postOrder hwalk
  have ho' : net.Owned here { s with declared }.owners := ho
  obtain ⟨hr, ho'', hl⟩ := declareNodes_gives hw hfits ho'
    (hvisits.mem_order hw (by simpa using hroot)) hg
  have hdeclared : s'.declared = declared := by rw [hr]
  refine ⟨_, hvisits, ?_, ?_, ho'', hl⟩
  · rw [hdeclared, hmembers]
  · rw [hdeclared]
    exact hr

/-- A root is refused for what the walk lists, all of which counts as declared by then. -/
theorem declare_fails {root : Handle} (hl : Ledger net here done s)
    (hroot : root ∈ net.order.toList) (hf : (declare net root).Fails s fault s') :
    ∃ out declared, Visits net s.declared.members [root] out
      ∧ Visited.members declared = s.declared.members ∪ {x | x ∈ out}
      ∧ Refusal net (here ∪ {x | x ∈ out}) (done ∪ out.toFinset) fault := by
  unfold declare at hf
  replace hf := Action.fails_getState_bind.1 hf
  -- A walk from a live root does not fail.
  rcases Action.fails_lift_bind.1 hf with ⟨hwalk, -⟩ | ⟨⟨found, declared⟩, hwalk, hf⟩
  · obtain ⟨found, declared, hp⟩ := exists_postOrder hw ((hw.mem_order root).1 hroot).2 s.declared
    rw [hp] at hwalk
    cases hwalk
  replace hf := Action.fails_setState_bind.1 hf
  obtain ⟨hvisits, hmembers⟩ := visits_of_postOrder hwalk
  have hl' : Ledger net here done { s with declared } := ⟨hl.owned, hl.listed⟩
  exact ⟨_, declared, hvisits, hmembers, declareNodes_fails hw hfits hl'
    (hvisits.mem_order hw (by simpa using hroot)) hf⟩

/-! ### Declaring what feeds the slots -/

section Slots

variable {sink : Node} (hsink : net.node? net.sink = some sink) {slot : Slot} {slots : List Slot}
include hsink

/-- A slot declares what its producer depends on, or nothing. -/
theorem declareSlot_gives (ho : net.Owned here s.owners)
    (hg : (declareSlot net sink slot).Gives s () s') :
    ∃ out, Declares net here s (slotProducers sink [slot]) out s' := by
  have hmem : ∀ p ∈ slotProducers sink [slot], p ∈ net.order.toList :=
    hw.mem_order_of_slotProducers hsink
  unfold declareSlot at hg
  cases hlink : sink.link? slot.index with
  | none =>
    simp only [hlink] at hg
    obtain ⟨-, rfl⟩ := Action.gives_pure.1 hg
    rw [slotProducers_of_unfed hlink]
    exact ⟨[], .nil ho⟩
  | some link =>
    simp only [hlink] at hg
    rw [slotProducers_of_fed hlink] at hmem ⊢
    exact declare_gives hw hfits ho (hmem _ List.mem_cons_self) hg

/-- Several slots declare what a visit from all of their producers lists. -/
theorem declareSlots_gives (ho : net.Owned here s.owners)
    (hg : (declareSlots net sink slots).Gives s () s') :
    ∃ out, Declares net here s (slotProducers sink slots) out s' := by
  induction slots generalizing s here with
  | nil =>
    obtain ⟨-, rfl⟩ := Action.gives_pure.1 hg
    exact ⟨[], .nil ho⟩
  | cons slot rest ih =>
    obtain ⟨_, s₁, h₁, h₂⟩ := Action.gives_bind.1 hg
    obtain ⟨out₁, hd₁⟩ := declareSlot_gives hw hfits hsink ho h₁
    obtain ⟨out₂, hd₂⟩ := ih hd₁.owned h₂
    rw [slotProducers_cons]
    exact ⟨out₁ ++ out₂, hd₁.append hd₂⟩

/-- A slot is refused for what its producer depends on. -/
theorem declareSlot_fails (hl : Ledger net here done s)
    (hf : (declareSlot net sink slot).Fails s fault s') :
    ∃ out declared, Visits net s.declared.members (slotProducers sink [slot]) out
      ∧ Visited.members declared = s.declared.members ∪ {x | x ∈ out}
      ∧ Refusal net (here ∪ {x | x ∈ out}) (done ∪ out.toFinset) fault := by
  have hmem : ∀ p ∈ slotProducers sink [slot], p ∈ net.order.toList :=
    hw.mem_order_of_slotProducers hsink
  unfold declareSlot at hf
  cases hlink : sink.link? slot.index with
  | none =>
    simp only [hlink] at hf
    exact absurd hf Action.not_fails_pure
  | some link =>
    simp only [hlink] at hf
    rw [slotProducers_of_fed hlink] at hmem ⊢
    exact declare_fails hw hfits hl (hmem _ List.mem_cons_self) hf

/-- Several slots are refused for what a visit from all of them would list. -/
theorem declareSlots_fails (hl : Ledger net here done s)
    (hf : (declareSlots net sink slots).Fails s fault s') :
    ∃ out, Visits net s.declared.members (slotProducers sink slots) out
      ∧ Refusal net (here ∪ {x | x ∈ out}) (done ∪ out.toFinset) fault := by
  induction slots generalizing s here done with
  | nil => exact absurd hf Action.not_fails_pure
  | cons slot rest ih =>
    rw [slotProducers_cons]
    rcases Action.fails_bind.1 hf with h₁ | ⟨_, s₁, h₁, h₂⟩
    · obtain ⟨out₁, declared, hv₁, hm₁, hr⟩ := declareSlot_fails hw hfits hsink hl h₁
      -- The slots that are left would have been visited next.
      have hlive : ∀ p ∈ slotProducers sink rest, (net.node? p).isSome := fun p hp =>
        ((hw.mem_order p).1 (hw.mem_order_of_slotProducers hsink p hp)).2
      obtain ⟨out₂, hv₂⟩ := exists_visits hw hlive declared
      rw [hm₁] at hv₂
      refine ⟨out₁ ++ out₂, hv₁.append hv₂, ?_⟩
      rw [union_append, List.toFinset_append, ← Finset.union_assoc]
      exact hr.mono Set.subset_union_left Finset.subset_union_left
    · obtain ⟨out₁, hd₁⟩ := declareSlot_gives hw hfits hsink hl.owned h₁
      obtain ⟨out₂, hv₂, hr⟩ := ih (hd₁.ledger hl) h₂
      rw [hd₁.members] at hv₂
      refine ⟨out₁ ++ out₂, hd₁.visits.append hv₂, ?_⟩
      rw [union_append, List.toFinset_append, ← Finset.union_assoc]
      exact hr

end Slots

end Declaring

end Session

end MaterialNet
