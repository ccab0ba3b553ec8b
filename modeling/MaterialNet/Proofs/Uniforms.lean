import MaterialNet.Proofs.Collecting
import MaterialNet.Proofs.History

namespace MaterialNet

/-!
# The uniforms of a program

The manifest of a compiled network lists the uniforms that its two programs declare, those of the
vertex stage first, and binds the textures among them to consecutive units.

* `Declaration.text_injective` — a declaration can be told from its text
* `Network.Manifests` — what a manifest says about the nodes of two stages
* `Network.Arises.manifests` — the manifest of a compiled network
-/

/-! ### The text of a declaration -/

theorem ValueType.keyword_injective : Function.Injective ValueType.keyword := by
  intro type type' h
  cases type <;> cases type' <;> first | rfl | exact absurd h (by decide)

theorem ValueType.space_not_mem_keyword (type : ValueType) : ' ' ∉ type.keyword.toList := by
  cases type <;> decide

/-- A text begins with one word only. -/
theorem eq_of_word_append {word word' rest rest' : List Char} (hw : ' ' ∉ word) (hw' : ' ' ∉ word')
    (h : word ++ ' ' :: rest = word' ++ ' ' :: rest') : word = word' ∧ rest = rest' := by
  have htake {word : List Char} (hw : ' ' ∉ word) (rest : List Char) :
      (word ++ ' ' :: rest).takeWhile (· ≠ ' ') = word := by
    have hp : ∀ c ∈ word, decide (c ≠ ' ') = true := fun c hc =>
      decide_eq_true fun hs => hw (hs ▸ hc)
    rw [List.takeWhile_append_of_pos hp]
    simp
  have hword : word = word' := by rw [← htake hw rest, h, htake hw' rest']
  subst hword
  exact ⟨rfl, (List.cons.inj (List.append_cancel_left h)).2⟩

/-- The words of a declaration. -/
theorem Declaration.toList_text (d : Declaration) :
    d.text.toList = (match d.storage with
      | .uniform => "uniform".toList ++ [' ']
      | .inMain => []) ++ d.type.keyword.toList ++ ' ' :: (d.name.toList ++ [';']) := by
  unfold Declaration.text
  cases d.storage <;> simp

/-- Declarations with one text are one declaration. -/
theorem Declaration.text_injective : Function.Injective Declaration.text := by
  rintro ⟨storage, type, name⟩ ⟨storage', type', name'⟩ h
  have hspace := ValueType.space_not_mem_keyword
  have hrest {type type' : ValueType} {name name' : String}
      (h : type.keyword.toList ++ ' ' :: (name.toList ++ [';'])
        = type'.keyword.toList ++ ' ' :: (name'.toList ++ [';'])) :
      type = type' ∧ name = name' := by
    obtain ⟨hkeyword, h⟩ := eq_of_word_append (hspace type) (hspace type') h
    exact ⟨ValueType.keyword_injective (String.toList_inj.1 hkeyword),
      String.toList_inj.1 (List.append_cancel_right h)⟩
  -- No type has the keyword that marks a uniform.
  have huniform : ∀ type : ValueType, type.keyword.toList ≠ "uniform".toList := by
    intro type
    cases type <;> decide
  have hword : ' ' ∉ "uniform".toList := by decide
  replace h := congrArg String.toList h
  rw [toList_text, toList_text] at h
  cases storage with
  | uniform =>
    cases storage' with
    | uniform =>
      simp only [List.append_assoc, List.singleton_append] at h
      obtain ⟨rfl, rfl⟩ := hrest (eq_of_word_append hword hword h).2
      rfl
    | inMain =>
      simp only [List.append_assoc, List.singleton_append, List.nil_append] at h
      exact absurd (eq_of_word_append hword (hspace type') h).1.symm (huniform type')
  | inMain =>
    cases storage' with
    | uniform =>
      simp only [List.append_assoc, List.singleton_append, List.nil_append] at h
      exact absurd (eq_of_word_append (hspace type) hword h).1 (huniform type)
    | inMain =>
      simp only [List.nil_append] at h
      obtain ⟨rfl, rfl⟩ := hrest h
      rfl

namespace Network

variable {net : Network} {listed : List Handle} {m : Manifest} {bound : UInt32}

/-! ### What a manifest lists -/

namespace Lists

variable (hl : net.Lists listed m bound)
include hl

/-- No name is listed twice. -/
theorem nodup_names (hw : net.WellFormed) : (m.entries.toList.map Uniform.name).Nodup := by
  have hnodup : ∀ {nodes : List Handle} {us : List Uniform}, List.Forall₂ net.Enters nodes us →
      nodes.Nodup → (us.map Uniform.name).Nodup := by
    intro nodes us hf
    induction hf with
    | nil => exact fun _ => .nil
    | @cons h u nodes us he hrest ih =>
      intro hd
      obtain ⟨hh, hd⟩ := List.nodup_cons.1 hd
      refine List.nodup_cons.2 ⟨fun hm => ?_, ih hd⟩
      obtain ⟨u', hu', hname⟩ := List.mem_map.1 hm
      obtain ⟨h', hh', n', hn', -, hname', -⟩ := exists_of_forall₂_right hrest hu'
      obtain ⟨n, hn, -, hname₀, -⟩ := he
      rw [hname', hname₀] at hname
      exact hh (hw.handle_unique hn' hn hname ▸ hh')
  exact hnodup hl.entries hl.nodup

/-- The i-th sampler is bound to the i-th unit and has no default. -/
theorem textures_getElem {i : Nat} {u : Uniform} (hu : m.textures[i]? = some u) :
    u.default = none ∧ ∃ unit, u.binding = some unit
      ∧ unit.toNat = net.settings.textureUnitBase.toNat + i := by
  obtain ⟨hentry, htype⟩ := List.mem_filter.1 (List.mem_of_getElem? hu)
  obtain ⟨h, -, he⟩ := exists_of_forall₂_right hl.entries hentry
  have htexture := he.texture_iff.1 (of_decide_eq_true htype)
  obtain ⟨n, hn, -, -, -, hkind⟩ := he
  -- Only a texture has an entry without a default.
  rcases hkind with ⟨-, hdefault⟩ | ⟨value, hk, -⟩
  · refine ⟨hdefault, ?_⟩
    have hbinding : (m.textures.map Uniform.binding)[i]? = some u.binding := by simp [hu]
    rw [hl.bindings] at hbinding
    obtain ⟨hi, hbinding⟩ := List.getElem?_eq_some_iff.1 hbinding
    rw [List.length_map, List.length_range] at hi
    simp only [List.getElem_map, List.getElem_range] at hbinding
    refine ⟨_, hbinding.symm, ?_⟩
    have hunits := hl.units
    rw [UInt32.toNat_ofNat_of_lt' (by omega)]
  · rw [isTexture_iff hn, hk] at htexture
    cases htexture

/-- No unit is given twice. -/
theorem nodup_bindings : (m.textures.map Uniform.binding).Nodup := by
  rw [hl.bindings]
  refine List.Nodup.map_on (fun i hi j hj hij => ?_) List.nodup_range
  rw [List.mem_range] at hi hj
  have hunits := hl.units
  have heq := congrArg UInt32.toNat (Option.some.inj hij)
  rw [UInt32.toNat_ofNat_of_lt' (by omega), UInt32.toNat_ofNat_of_lt' (by omega)] at heq
  omega

end Lists

/-! ### The manifest of two stages -/

/-- What a manifest says about the nodes of two stages, whose declarations have the given texts. -/
structure Manifests (net : Network) (vertex fragment : List Handle) (declared : List String)
    (m : Manifest) : Prop where
  /-- The entries stand for the uniforms of the vertex stage and then for those of the fragment
      stage that are not among them. -/
  entries : List.Forall₂ net.Enters
    (vertex.filter net.isUniform ++ fragment.filter fun h => net.isUniform h ∧ h ∉ vertex)
    m.entries.toList
  /-- The i-th sampler is bound to the i-th unit and has no default. -/
  samplers : ∀ i u, m.textures[i]? = some u → u.default = none ∧ ∃ unit, u.binding = some unit
    ∧ unit.toNat = net.settings.textureUnitBase.toNat + i
  names : (m.entries.toList.map Uniform.name).Nodup
  bindings : (m.textures.map Uniform.binding).Nodup
  /-- The listed names are those of the uniforms that are declared. -/
  contains_iff : ∀ name, m.contains name = true ↔
    ∃ type : ValueType, "uniform " ++ type.keyword ++ " " ++ name ++ ";" ∈ declared

/-- The text of a uniform's declaration stands among those of some nodes if it is that of one of
    them. -/
theorem mem_text_iff {out : List Handle} {ds : List Declaration}
    (h : List.Forall₂ net.Declared out ds) {name : String} :
    (∃ type : ValueType, "uniform " ++ type.keyword ++ " " ++ name ++ ";" ∈ ds.map Declaration.text)
      ↔ ∃ x ∈ out, net.isUniform x = true ∧ ∃ n, net.node? x = some n ∧ n.id = name := by
  constructor
  · rintro ⟨type, ht⟩
    obtain ⟨d, hd, ht⟩ := List.mem_map.1 ht
    obtain rfl : d = ⟨.uniform, type, name⟩ := Declaration.text_injective ht
    obtain ⟨x, hx, n, hn, hdecl⟩ := exists_of_forall₂_right h hd
    obtain ⟨type', -, hdecl⟩ := Option.map_eq_some_iff.1 hdecl
    obtain ⟨hs, -, hid⟩ := Declaration.mk.inj hdecl
    exact ⟨x, hx, (isUniform_iff hn).2 hs, n, hn, hid⟩
  · rintro ⟨x, hx, hu, n, hn, rfl⟩
    obtain ⟨d, hd, n', hn', hdecl⟩ := exists_of_forall₂_left h hx
    obtain rfl := Option.some.inj (hn.symm.trans hn')
    obtain ⟨type, -, rfl⟩ := Option.map_eq_some_iff.1 hdecl
    refine ⟨type, List.mem_map.2 ⟨_, hd, ?_⟩⟩
    rw [(isUniform_iff hn).1 hu]
    rfl

/-- A compiled network has the uniforms of its two stages in its manifest, each once and in the
    order of their first declaration. -/
theorem Arises.manifests (h : net.Arises) {program : Program}
    (hc : net.compile.result = .ok program) :
    ∃ vertex fragment s₁ s₂ s₃,
      net.reachable .vertex = .ok vertex ∧ net.reachable .fragment = .ok fragment
        ∧ (Session.ensureAcyclic net).Gives .fresh () s₁
        ∧ (Session.assemble net .vertex).Gives s₁ program.vertex s₂
        ∧ (Session.assemble net .fragment).Gives s₂ program.fragment s₃
        ∧ net.Manifests vertex fragment
          ((s₂.declarations.toList ++ s₃.declarations.toList).map Declaration.text)
          program.manifest := by
  have hw := h.wellFormed
  have hacyclic := ((decided_compile hw h.fits).ok_iff.1 ⟨program, hc⟩).acyclic
  obtain ⟨s₁, s₂, hensure, hvertex, hfragment, hm⟩ := Session.compile_gives ⟨hc, rfl⟩
  obtain ⟨body, hwrite, -⟩ := Session.assemble_gives hvertex
  obtain ⟨body', hwrite', -⟩ := Session.assemble_gives hfragment
  obtain ⟨sink, vertex, hsink, hvisits, hdeclared, hlists⟩ :=
    Session.writeStage_collects hw h.fits hwrite
  obtain ⟨sink', fragment, hsink', hvisits', hdeclared', hlists'⟩ :=
    Session.writeStage_collects hw h.fits hwrite'
  have hv := (hw.reachable_eq_ok_iff hsink).2 ⟨hacyclic, hvisits⟩
  have hf := (hw.reachable_eq_ok_iff hsink').2 ⟨hacyclic, hvisits'⟩
  refine ⟨vertex, fragment, s₁, s₂, _, hv, hf, hensure, hvertex, hfragment, ?_⟩
  -- The search for cycles lists nothing, and each stage lists its uniforms after what it finds.
  have hlists₁ : net.Lists [] s₁.manifest s₁.boundTextures := by
    rw [(Session.ensureAcyclic_gives hensure).1]
    exact lists_nil
  have hl := hlists' _ (hlists _ hlists₁)
  have hlisted : net.enlist (net.enlist [] vertex) fragment
      = vertex.filter net.isUniform
        ++ fragment.filter fun h => net.isUniform h ∧ h ∉ vertex := by
    have hempty : net.enlist [] vertex = vertex.filter net.isUniform := by
      rw [enlist_eq hvisits.nodup.1]
      simp
    rw [hempty, enlist_eq hvisits'.nodup.1]
    refine congrArg _ (List.filter_congr fun x _ => ?_)
    by_cases hu : net.isUniform x = true <;> simp [hu]
  rw [hlisted, ← hm] at hl
  refine ⟨hl.entries, fun i u => hl.textures_getElem, hl.nodup_names hw, hl.nodup_bindings, ?_⟩
  intro name
  rw [hl.contains_iff, List.map_append]
  simp only [List.mem_append, exists_or, mem_text_iff hdeclared, mem_text_iff hdeclared']
  constructor
  · rintro ⟨x, hx | hx, hn⟩
    · obtain ⟨hx, hu⟩ := List.mem_filter.1 hx
      exact .inl ⟨x, hx, hu, hn⟩
    · obtain ⟨hx, hu⟩ := List.mem_filter.1 hx
      exact .inr ⟨x, hx, (of_decide_eq_true hu).1, hn⟩
  · rintro (⟨x, hx, hu, hn⟩ | ⟨x, hx, hu, hn⟩)
    · exact ⟨x, .inl (List.mem_filter.2 ⟨hx, hu⟩), hn⟩
    · -- What the vertex stage has declared, too, stands among its uniforms.
      by_cases hv : x ∈ vertex
      · exact ⟨x, .inl (List.mem_filter.2 ⟨hv, hu⟩), hn⟩
      · exact ⟨x, .inr (List.mem_filter.2 ⟨hx, decide_eq_true ⟨hu, hv⟩⟩), hn⟩

/-- A texture that both stages sample, a second one, and a constant that is supplied from
    outside. -/
def bothStages : Network :=
  (new { textureUnitBase := 4 }).run
    [.add ⟨"grain", .uniform, .texture, []⟩,
      .add ⟨"wood", .uniform, .texture, []⟩,
      .add ⟨"shine", .uniform, .constant (.float .one), []⟩,
      .connectSlot .vertexOffset ⟨3, 1⟩ .rgb,
      .connectSlot .albedo ⟨3, 1⟩ .rgb,
      .connectSlot .emissive ⟨2, 1⟩ .rgb,
      .connectSlot .metallic ⟨4, 1⟩ .value]

/-- A network whose stages share a texture. -/
theorem manifests_bothStages : bothStages.Arises
    ∧ ∃ program, bothStages.compile.result = .ok program
      ∧ ∃ vertex fragment s₁ s₂ s₃,
        bothStages.reachable .vertex = .ok vertex ∧ bothStages.reachable .fragment = .ok fragment
          ∧ (Session.ensureAcyclic bothStages).Gives .fresh () s₁
          ∧ (Session.assemble bothStages .vertex).Gives s₁ program.vertex s₂
          ∧ (Session.assemble bothStages .fragment).Gives s₂ program.fragment s₃
          ∧ bothStages.Manifests vertex fragment
            ((s₂.declarations.toList ++ s₃.declarations.toList).map Declaration.text)
            program.manifest := by
  have h : bothStages.Arises := (Arises.new { textureUnitBase := 4 }).run (by decide +kernel)
  have hranked : bothStages.ranked (fun x => if x.place = 1 then 1 else 0) = true := by
    decide +kernel
  have hcompilable := h.wellFormed.compilable (acyclic_of_ranked hranked) (by decide +kernel)
    [.vertex, .fragment]
  obtain ⟨program, hc⟩ := (decided_compile h.wellFormed h.fits).ok_iff.2 hcompilable
  exact ⟨h, program, hc, h.manifests hc⟩

end Network

end MaterialNet
