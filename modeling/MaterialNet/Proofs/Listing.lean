import MaterialNet.Proofs.Declaring

namespace MaterialNet

/-!
# What a manifest lists

A session lists each uniform node once, at the time of its first declaration, and binds the textures
among them to consecutive units.

* `Network.Enters` — an entry stands for a node
* `Network.Lists` — the entries of a manifest stand for the given nodes, in order
* `Session.listUniform_cases` — listing one more node
-/

/-! ### Lists related item by item -/

/-- What is on the left has a partner on the right. -/
theorem exists_of_forall₂_left {α β : Type} {R : α → β → Prop} {as : List α} {bs : List β}
    (h : List.Forall₂ R as bs) {a : α} (ha : a ∈ as) : ∃ b ∈ bs, R a b := by
  induction h with
  | nil => cases ha
  | cons hr _ ih =>
    rcases List.mem_cons.1 ha with rfl | ha
    · exact ⟨_, List.mem_cons_self, hr⟩
    · obtain ⟨b, hb, hab⟩ := ih ha
      exact ⟨b, List.mem_cons_of_mem _ hb, hab⟩

/-- What is on the right has a partner on the left. -/
theorem exists_of_forall₂_right {α β : Type} {R : α → β → Prop} {as : List α} {bs : List β}
    (h : List.Forall₂ R as bs) {b : β} (hb : b ∈ bs) : ∃ a ∈ as, R a b :=
  exists_of_forall₂_left h.flip hb

/-! ### Manifests -/

namespace Manifest

variable {m : Manifest} {u : Uniform} {name : String}

/-- A name is in the manifest if one of the entries has it. -/
theorem contains_iff : m.contains name = true ↔ ∃ u ∈ m.entries.toList, u.name = name := by
  simp [contains, get?, Array.find?_isSome]

/-- A new entry comes to the end. -/
theorem toList_register (h : m.contains u.name = false) :
    (m.register u).entries.toList = m.entries.toList ++ [u] := by
  simp [register, h]

/-- A new sampler comes after the others. -/
theorem textures_register (h : m.contains u.name = false) :
    (m.register u).textures = m.textures ++ if u.type = .texture then [u] else [] := by
  rw [textures, toList_register h, List.filter_append, textures]
  split <;> simp [*]

end Manifest

namespace Network

variable {net : Network} {listed out : List Handle} {m : Manifest} {bound bound' : UInt32}
  {h : Handle} {n : Node} {u : Uniform}

/-- The handle names a uniform node. -/
def isUniform (net : Network) (h : Handle) : Bool :=
  match net.node? h with
  | some n => n.storage = .uniform
  | none => false

/-- The test of a live node looks at its storage. -/
theorem isUniform_iff (hn : net.node? h = some n) :
    net.isUniform h = true ↔ n.storage = .uniform := by
  simp [isUniform, hn]

/-- The entry has the name and the type of the uniform node `h`; that of a texture has no default,
    and that of a constant has the value as its default and no unit. -/
def Enters (net : Network) (h : Handle) (u : Uniform) : Prop :=
  ∃ n, net.node? h = some n ∧ n.storage = .uniform ∧ u.name = n.id ∧ n.type? = some u.type
    ∧ (n.kind = .texture ∧ u.default = none
      ∨ ∃ value, n.kind = .constant value ∧ u.binding = none ∧ u.default = some value)

/-- The sampler entries are those of textures. -/
theorem Enters.texture_iff (he : net.Enters h u) :
    u.type = .texture ↔ net.isTexture h = true := by
  obtain ⟨n, hn, -, -, htype, hkind⟩ := he
  rw [isTexture_iff hn]
  rcases hkind with ⟨hk, -⟩ | ⟨value, hk, -⟩
  · simp only [Node.type?, hk, Option.some.injEq] at htype
    simp [hk, ← htype]
  · simp only [Node.type?, hk, Option.some.injEq] at htype
    cases value <;> simp [hk, ← htype, Constant.type]

/-- The entries of a manifest stand for the given nodes, in order, and its textures, of which there
    are `bound`, are bound to consecutive units. -/
structure Lists (net : Network) (listed : List Handle) (m : Manifest) (bound : UInt32) : Prop where
  nodup : listed.Nodup
  entries : List.Forall₂ net.Enters listed m.entries.toList
  bindings : m.textures.map Uniform.binding = (List.range bound.toNat).map fun i =>
    some (UInt32.ofNat (net.settings.textureUnitBase.toNat + i))
  units : net.settings.textureUnitBase.toNat + bound.toNat ≤ UInt32.size

/-- An empty manifest lists nothing, and no unit is bound. -/
theorem lists_nil : net.Lists [] .empty 0 where
  nodup := .nil
  entries := .nil
  bindings := rfl
  units := by
    have hbase := net.settings.textureUnitBase.toNat_lt
    show net.settings.textureUnitBase.toNat + 0 ≤ 2 ^ 32
    omega

namespace Lists

variable (hl : net.Lists listed m bound)
include hl

/-- As many textures are bound as there are among the listed nodes. -/
theorem bound_eq : bound.toNat = net.textures listed.toFinset := by
  -- Entry by entry, the samplers are those of the textures.
  have hcount : ∀ {nodes : List Handle} {us : List Uniform}, List.Forall₂ net.Enters nodes us →
      (us.filter fun u => u.type = .texture).length
        = (nodes.filter fun h => net.isTexture h = true).length := by
    intro nodes us hf
    induction hf with
    | nil => rfl
    | @cons h u _ _ he _ ih =>
      have hiff := he.texture_iff
      by_cases hu : u.type = .texture
      · simp [hu, hiff.1 hu, ih]
      · have hh : ¬ net.isTexture h = true := fun hh => hu (hiff.2 hh)
        simp [hu, hh, ih]
  have hlength := congrArg List.length hl.bindings
  rw [List.length_map, List.length_map, List.length_range] at hlength
  rw [← hlength, Manifest.textures, hcount hl.entries, textures,
    ← List.toFinset_card_of_nodup (hl.nodup.filter _), List.toFinset_filter]
  simp only [decide_eq_true_eq]

/-- A name is in the manifest if it is that of a listed node. -/
theorem contains_iff {name : String} :
    m.contains name = true ↔ ∃ h ∈ listed, ∃ n, net.node? h = some n ∧ n.id = name := by
  rw [Manifest.contains_iff]
  constructor
  · rintro ⟨u, hu, rfl⟩
    obtain ⟨h, hh, n, hn, -, hname, -⟩ := exists_of_forall₂_right hl.entries hu
    exact ⟨h, hh, n, hn, hname.symm⟩
  · rintro ⟨h, hh, n, hn, rfl⟩
    obtain ⟨u, hu, n', hn', -, hname, -⟩ := exists_of_forall₂_left hl.entries hh
    obtain rfl := Option.some.inj (hn.symm.trans hn')
    exact ⟨u, hu, hname⟩

/-- The listed nodes are nodes of the network other than the sink. -/
theorem mem_order (hw : net.WellFormed) : ∀ h ∈ listed, h ∈ net.order.toList := by
  intro h hh
  obtain ⟨u, -, n, hn, -, -, htype, -⟩ := exists_of_forall₂_left hl.entries hh
  refine (hw.mem_order h).2 ⟨?_, Option.isSome_iff_exists.2 ⟨n, hn⟩⟩
  rintro rfl
  have hkind : n.kind = .sink := of_decide_eq_true ((hw.isSink_iff hn).2 rfl)
  simp [Node.type?, hkind] at htype

/-- There are fewer nodes than texture units can be numbered. -/
theorem bound_lt (hw : net.WellFormed) (hfits : net.Fits) : bound.toNat + 1 < UInt32.size := by
  have h₁ : net.textures listed.toFinset ≤ listed.toFinset.card := Finset.card_filter_le _ _
  have h₂ : listed.toFinset ⊆ net.order.toList.toFinset := fun h hh =>
    List.mem_toFinset.2 (hl.mem_order hw h (List.mem_toFinset.1 hh))
  have h₃ := (Finset.card_le_card h₂).trans (List.toFinset_card_le _)
  have h₄ : net.order.toList.length + 1 ≤ UInt32.size - 2 := hfits
  rw [hl.bound_eq]
  omega

/-- A node with an entry is in the manifest if it is listed. -/
theorem contains_id (hw : net.WellFormed) (hn : net.node? h = some n) :
    m.contains n.id = true ↔ h ∈ listed := by
  rw [hl.contains_iff]
  constructor
  · rintro ⟨h', hh', n', hn', hid⟩
    rwa [hw.handle_unique hn hn' hid.symm]
  · exact fun hh => ⟨h, hh, n, hn, rfl⟩

/-- A uniform that is not listed yet is listed at the end; a texture is bound to the next unit. -/
theorem append (hh : h ∉ listed) (he : net.Enters h u) (hu : m.contains u.name = false)
    (hb : u.type ≠ .texture ∧ bound' = bound
      ∨ u.type = .texture ∧ bound'.toNat = bound.toNat + 1
        ∧ u.binding
          = some (UInt32.ofNat (net.settings.textureUnitBase.toNat + bound.toNat))
        ∧ net.settings.textureUnitBase.toNat + bound.toNat < UInt32.size) :
    net.Lists (listed ++ [h]) (m.register u) bound' where
  nodup := List.nodup_append.2 ⟨hl.nodup, List.nodup_singleton _, by
    rintro a ha _ hb rfl
    exact hh (List.mem_singleton.1 hb ▸ ha)⟩
  -- The new entry and the new node come to the end of their lists together.
  entries := by
    rw [Manifest.toList_register hu]
    exact List.rel_append hl.entries (.cons he .nil)
  bindings := by
    rw [Manifest.textures_register hu, List.map_append, hl.bindings]
    rcases hb with ⟨htype, rfl⟩ | ⟨htype, hbound, hbinding, -⟩
    · simp [htype]
    · simp [htype, hbound, hbinding, List.range_succ]
  units := by
    rcases hb with ⟨-, rfl⟩ | ⟨-, hbound, -, hunit⟩
    · exact hl.units
    · omega

end Lists

end Network

namespace Session

open Network

variable {net : Network} {listed : List Handle} {s : Session} {h : Handle} {n : Node}

/-! ### Listing one more node -/

/-- A uniform that is listed already is passed over, a texture without a unit is refused, and
    anything else is listed at the end. -/
theorem listUniform_cases (hw : net.WellFormed) (hfits : net.Fits)
    (hl : net.Lists listed s.manifest s.boundTextures) (hn : net.node? h = some n)
    (htype : n.type?.isSome) (hu : n.storage = .uniform) :
    h ∈ listed ∧ (listUniform net n).Gives s () s
      ∨ h ∉ listed ∧ net.isTexture h = true
        ∧ net.settings.textureUnitBase.toNat + s.boundTextures.toNat = UInt32.size
        ∧ (listUniform net n).Fails s (.noTextureUnit n.id) s
      ∨ h ∉ listed ∧ ∃ manifest boundTextures,
        (listUniform net n).Gives s () { s with manifest, boundTextures }
          ∧ net.Lists (listed ++ [h]) manifest boundTextures := by
  obtain ⟨type, htype⟩ := Option.isSome_iff_exists.1 htype
  have hcontains := hl.contains_id hw hn
  by_cases hh : h ∈ listed
  · refine .inl ⟨hh, Action.gives_getState_bind.2 ?_⟩
    rw [if_pos (hcontains.2 hh)]
    exact Action.gives_pure.2 ⟨rfl, rfl⟩
  have hnew : s.manifest.contains n.id = false := Bool.eq_false_iff.2 fun hm => hh (hcontains.1 hm)
  have hnode : h ≠ net.sink := by
    rintro rfl
    have hkind : n.kind = .sink := of_decide_eq_true ((hw.isSink_iff hn).2 rfl)
    simp [Node.type?, hkind] at htype
  obtain ⟨-, -, hflaw⟩ := bind_ok_iff.1 (hw.check h n hn hnode)
  -- Only constants and textures are uniforms.
  cases hk : n.kind with
  | constant value =>
    have he : net.Enters h ⟨n.id, type, none, some value⟩ :=
      ⟨n, hn, hu, rfl, htype, .inr ⟨value, hk, rfl, rfl⟩⟩
    have hne : type ≠ .texture := by
      intro ht
      have hi := (isTexture_iff hn).1 (he.texture_iff.1 ht)
      simp [hk] at hi
    refine .inr (.inr ⟨hh, _, _, Action.gives_getState_bind.2 ?_, hl.append hh he hnew
      (.inl ⟨hne, rfl⟩)⟩)
    rw [hnew, hk, htype]
    exact Action.gives_setState.2 rfl
  | texture =>
    have ht : net.isTexture h = true := (isTexture_iff hn).2 hk
    by_cases hunit : net.settings.textureUnitBase.toNat + s.boundTextures.toNat < UInt32.size
    · have he : net.Enters h ⟨n.id, type, some (UInt32.ofNat
          (net.settings.textureUnitBase.toNat + s.boundTextures.toNat)), none⟩ :=
        ⟨n, hn, hu, rfl, htype, .inl ⟨hk, rfl⟩⟩
      have hadd : (s.boundTextures + 1).toNat = s.boundTextures.toNat + 1 := by
        rw [UInt32.toNat_add, UInt32.toNat_one, Nat.mod_eq_of_lt (hl.bound_lt hw hfits)]
      refine .inr (.inr ⟨hh, _, _, Action.gives_getState_bind.2 ?_, hl.append hh he hnew
        (.inr ⟨he.texture_iff.2 ht, hadd, rfl, hunit⟩)⟩)
      simp only [hnew, hk, htype, nextUnit?, if_pos hunit]
      exact Action.gives_setState.2 rfl
    · refine .inr (.inl ⟨hh, ht, Nat.le_antisymm hl.units (Nat.not_lt.1 hunit),
        Action.fails_getState_bind.2 ?_⟩)
      simp only [hnew, hk, htype, nextUnit?, if_neg hunit]
      exact Action.fails_lift.2 ⟨rfl, rfl⟩
  | _ => simp_all [Node.flaw?]

end Session

end MaterialNet
