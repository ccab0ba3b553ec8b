import Mathlib.Data.List.Nodup
import Mathlib.Logic.Relation
import MaterialNet.Proofs.Decoding
import MaterialNet.Proofs.Showing

namespace MaterialNet

/-!
# Reading a description does not depend on its layout

In a record that is written as an object the members may stand in any order, members that the
record does not know may stand among them, and a member may be left out if it says what its absence
would say.  An edit changes the members of one object in one of these ways, or changes a record
inside it; the record is read as before after any number of edits at any depth.

* `Json.Key` — a key of a record, with what its member may be left out for and how it is relaid
* `Json.Edit`, `Json.Relaid` — one edit of the members of an object, and all edits of a value
* `Settings.keys`, `NodeKind.keys`, `NodeEntry.keys`, `Connection.keys`, `Description.keys` — the
  keys of each record
* `Description.LayoutFree`, `Description.layoutFree` — the texts that are read alike
-/

open Relation

namespace Json

/-! ### Edits of objects -/

/-- A key that a record knows. -/
structure Key where
  name : String
  /-- The values that say the same as no member. -/
  Spare : Json → Prop
  /-- The values that may stand in each other's place. -/
  Relaid : Json → Json → Prop

/-- A key whose member has to be there. -/
def Key.required (name : String) (relaid : Json → Json → Prop) : Key :=
  ⟨name, fun _ => False, relaid⟩

/-- Keys whose members have to be there, and stay as they are. -/
def Key.requiredAll (names : List String) : List Key := names.map fun name => .required name Eq

/-- A key whose member is spare if it is read as the value that is usual without it. -/
def Key.optional {α : Type} (name : String) (usual : α) (read : Json → Option α)
    (relaid : Json → Json → Prop) : Key :=
  ⟨name, fun value => read value = some usual, relaid⟩

@[simp] theorem Key.name_required (name : String) (relaid : Json → Json → Prop) :
    (required name relaid).name = name := rfl

@[simp] theorem Key.name_optional {α : Type} (name : String) (usual : α) (read : Json → Option α)
    (relaid : Json → Json → Prop) : (optional name usual read relaid).name = name := rfl

/-- Null, a boolean, or a string that stands for a text. -/
def isPlain : Json → Bool
  | .null | .bool _ => true
  | .string s => s.isSome
  | _ => false

/-- One edit of the members of an object of a record with the given keys. -/
inductive Edit (keys : List Key) : List (Literal × Json) → List (Literal × Json) → Prop where
  | permute {members members' : List (Literal × Json)} (h : members.Perm members') :
    Edit keys members members'
  | add {members : List (Literal × Json)} {name : String} {value : Json}
    (hname : name ∉ keys.map Key.name) (hvalue : value.isPlain = true) :
    Edit keys members ((some name, value) :: members)
  | drop {members : List (Literal × Json)} {key : Key} {value : Json} (hkey : key ∈ keys)
    (hvalue : key.Spare value) : Edit keys ((some key.name, value) :: members) members
  | inside {members : List (Literal × Json)} {key : Key} {value value' : Json} (hkey : key ∈ keys)
    (hvalue : key.Relaid value value') :
    Edit keys ((some key.name, value) :: members) ((some key.name, value') :: members)

/-- The value is the same, or both are objects and edits lead from one to the other. -/
inductive Relaid (keys : List Key) : Json → Json → Prop where
  | same (j : Json) : Relaid keys j j
  | edits {members members' : List (Literal × Json)}
    (h : ReflTransGen (Edit keys) members members') :
    Relaid keys (.object members) (.object members')

/-- Arrays whose items are relaid one by one. -/
inductive RelaidItems (relaid : Json → Json → Prop) : Json → Json → Prop where
  | array {items items' : List Json} (h : List.Forall₂ relaid items items') :
    RelaidItems relaid (.array items) (.array items')

/-- What one edit keeps is kept by all of them. -/
theorem Relaid.keeps {keys : List Key} {P : Json → Prop}
    (hstep : ∀ {members members'}, Edit keys members members' → P (.object members) →
      P (.object members'))
    {j j' : Json} (h : Relaid keys j j') (hj : P j) : P j' := by
  cases h with
  | same => exact hj
  | edits h =>
    induction h with
    | refl => exact hj
    | tail _ hedit ih => exact hstep hedit ih

/-! ### The fields of an object -/

variable {members members' : List (Literal × Json)} {name : String} {value : Json}

theorem valuesOf_cons_self :
    valuesOf name ((some name, value) :: members) = value :: valuesOf name members := by
  simp [valuesOf]

theorem valuesOf_cons_of_ne {other : String} (h : other ≠ name) :
    valuesOf name ((some other, value) :: members) = valuesOf name members := by
  simp [valuesOf, h]

theorem field?_cons_of_ne {other : String} (h : other ≠ name) :
    field? ((some other, value) :: members) name = field? members name := by
  rw [field?, valuesOf_cons_of_ne h, field?]

/-- A member is the field of its key if no other member has this key. -/
theorem field?_cons_self {f : Option Json} :
    field? ((some name, value) :: members) name = some f
      ↔ f = some value ∧ field? members name = some none := by
  rw [field?, valuesOf_cons_self, field?]
  cases valuesOf name members with
  | nil => simp [eq_comm]
  | cons v rest => cases rest <;> simp

/-- The order of the members does not matter to a field. -/
theorem field?_perm (h : members.Perm members') (name : String) :
    field? members name = field? members' name := by
  have hvalues : (valuesOf name members).Perm (valuesOf name members') := (h.filter _).map _
  rw [field?, field?]
  generalize valuesOf name members = l at hvalues
  generalize valuesOf name members' = l' at hvalues
  rcases l with _ | ⟨v, _ | ⟨w, rest⟩⟩
  · rw [List.nil_perm.1 hvalues]
  · rw [List.singleton_perm.1 hvalues]
  · -- Of several values none is the field, whichever comes first.
    have hlength := hvalues.length_eq
    rcases l' with _ | ⟨v', _ | ⟨w', rest'⟩⟩
    · simp at hlength
    · simp at hlength
    · rfl

/-- Every key of an object is a text, and the given names occur once at most, with the given
    values. -/
structure HasFields (names : List String) (members : List (Literal × Json))
    (f : String → Option Json) : Prop where
  keys : ∀ m ∈ members, m.1.isSome = true
  field : ∀ name ∈ names, field? members name = some (f name)

/-- The fields of an object are found by their names. -/
theorem fields?_eq_some_iff {names : List String} {fs : List (Option Json)} :
    fields? names (.object members) = some fs
      ↔ ∃ f, HasFields names members f ∧ fs = names.map f := by
  rw [fields?]
  constructor
  · intro h
    split at h
    · rename_i hkeys
      -- Fields beyond the names do not matter; here they are nothing.
      let f name := (field? members name).getD none
      have hall : List.Forall₂ (fun name g => field? members name = some (f name) ∧ f name = g)
          names fs :=
        (mapM_eq_some_iff.1 h).imp fun name g hg => by simp [f, hg]
      obtain ⟨hfield, hfs⟩ := (List.forall₂_and_left _ _).1 hall
      rw [← List.forall₂_map_left_iff, List.forall₂_eq_eq_eq] at hfs
      exact ⟨f, ⟨List.all_eq_true.1 hkeys, hfield⟩, hfs.symm⟩
    · cases h
  · rintro ⟨f, hf, rfl⟩
    rw [if_pos (List.all_eq_true.2 hf.keys)]
    refine (mapM_eq_ite (p := fun _ => true) hf.field).trans ?_
    simp

/-- The field that takes the place of another one after an edit. -/
inductive Key.Replaced (key : Key) : Option Json → Option Json → Prop where
  | same (f : Option Json) : key.Replaced f f
  | dropped {value : Json} (h : key.Spare value) : key.Replaced (some value) none
  | relaid {value value' : Json} (h : key.Relaid value value') :
    key.Replaced (some value) (some value')

/-- One field is replaced by another one. -/
theorem HasFields.replace {keys : List Key} (hnodup : (keys.map Key.name).Nodup)
    {f : String → Option Json} (hf : HasFields (keys.map Key.name) members f) {key : Key}
    (hkey : key ∈ keys) {g : Option Json} (hkeys : ∀ m ∈ members', m.1.isSome = true)
    (hself : field? members' key.name = some g)
    (hother : ∀ name, key.name ≠ name → field? members' name = field? members name)
    (hg : key.Replaced (f key.name) g) :
    ∃ f', HasFields (keys.map Key.name) members' f'
      ∧ ∀ key ∈ keys, key.Replaced (f key.name) (f' key.name) := by
  refine ⟨Function.update f key.name g, ⟨hkeys, fun name hname => ?_⟩, fun key' hkey' => ?_⟩
  · -- Only one field is another one now.
    by_cases heq : name = key.name
    · rw [heq, Function.update_self, hself]
    · rw [Function.update_of_ne heq, hother name (Ne.symm heq), hf.field name hname]
  · by_cases heq : key'.name = key.name
    · obtain rfl := List.inj_on_of_nodup_map hnodup hkey' hkey heq
      rwa [Function.update_self]
    · rw [Function.update_of_ne heq]
      exact .same _

/-- An edit replaces one field at most. -/
theorem Edit.fields {keys : List Key} (hnodup : (keys.map Key.name).Nodup)
    (h : Edit keys members members') {f : String → Option Json}
    (hf : HasFields (keys.map Key.name) members f) :
    ∃ f', HasFields (keys.map Key.name) members' f'
      ∧ ∀ key ∈ keys, key.Replaced (f key.name) (f' key.name) := by
  -- An edit moves members, adds one that no key reads, or drops or changes one that a key reads.
  cases h with
  | permute h =>
    refine ⟨f, ⟨fun m hm => hf.keys m (h.mem_iff.2 hm), fun name hname => ?_⟩, fun _ _ => .same _⟩
    rw [← field?_perm h, hf.field name hname]
  | @add _ other value hother hvalue =>
    refine ⟨f, ⟨List.forall_mem_cons.2 ⟨rfl, hf.keys⟩, fun name hname => ?_⟩, fun _ _ => .same _⟩
    have hne : other ≠ name := fun heq => hother (heq ▸ hname)
    rw [field?_cons_of_ne hne, hf.field name hname]
  | @drop _ key value hkey hvalue =>
    obtain ⟨-, hkeys⟩ := List.forall_mem_cons.1 hf.keys
    obtain ⟨hfield, hnone⟩ := field?_cons_self.1 (hf.field _ (List.mem_map_of_mem hkey))
    refine hf.replace hnodup hkey hkeys hnone (fun name hne => (field?_cons_of_ne hne).symm) ?_
    rw [hfield]
    exact .dropped hvalue
  | @inside members key value value' hkey hvalue =>
    obtain ⟨-, hkeys⟩ := List.forall_mem_cons.1 hf.keys
    obtain ⟨hfield, hnone⟩ := field?_cons_self.1 (hf.field _ (List.mem_map_of_mem hkey))
    refine hf.replace hnodup hkey (List.forall_mem_cons.2 ⟨rfl, hkeys⟩)
      (field?_cons_self.2 ⟨rfl, hnone⟩) (fun name hne => ?_) ?_
    · rw [field?_cons_of_ne hne, field?_cons_of_ne hne]
    · rw [hfield]
      exact .relaid hvalue

/-! ### Records -/

section Records

variable {α : Type}

/-- What is read of a value is read of every value that may stand in its place. -/
def Respects (relaid : Json → Json → Prop) (read : Json → Option α) : Prop :=
  ∀ ⦃j j' x⦄, relaid j j' → read j = some x → read j' = some x

theorem respects_eq {read : Json → Option α} : Respects Eq read :=
  fun _ _ _ h hj => h ▸ hj

/-- A needed field that has to stay as it is stays. -/
theorem Key.Replaced.eq {f f' : Option Json} (h : (Key.required name Eq).Replaced f f') :
    f' = f := by
  cases h with
  | same => rfl
  | dropped h => exact absurd h id
  | relaid h => exact congrArg some (Eq.symm h)

/-- A needed field is read as before. -/
theorem Key.Replaced.bind {relaid : Json → Json → Prop} {read : Json → Option α}
    (hread : Respects relaid read) {f f' : Option Json}
    (h : (Key.required name relaid).Replaced f f') {x : α} (hf : f.bind read = some x) :
    f'.bind read = some x := by
  cases h with
  | same => exact hf
  | dropped h => exact absurd h id
  | relaid h => exact hread h hf

/-- A field that may be left out is read as before. -/
theorem Key.Replaced.orDefault {usual : α} {relaid : Json → Json → Prop} {read : Json → Option α}
    (hread : Respects relaid read) {f f' : Option Json}
    (h : (Key.optional name usual read relaid).Replaced f f') {x : α}
    (hf : orDefault usual read f = some x) : orDefault usual read f' = some x := by
  cases h with
  | same => exact hf
  | dropped h => exact h.symm.trans hf
  | relaid h => exact hread h hf

/-- A list whose items are relaid is read as before. -/
theorem Respects.items {relaid : Json → Json → Prop} {read : Json → Option α}
    (hread : Respects relaid read) : Respects (RelaidItems relaid) (list? read) := by
  rintro _ _ xs ⟨h⟩ hj
  rw [list?, items?, Option.bind_some, mapM_eq_some_iff] at hj ⊢
  induction h generalizing xs with
  | nil => exact hj
  | cons ha _ ih =>
    cases hj with
    | cons hx hxs => exact .cons (hread ha hx) (ih hxs)

/-- A record that is read from its fields is read as before if it is from replaced ones. -/
theorem respects_relaid {keys : List Key} (hnodup : (keys.map Key.name).Nodup)
    {read : Json → Option α} {build : List (Option Json) → Option α}
    (hread : ∀ members, read (.object members)
      = ((Json.object members).fields? (keys.map Key.name)).bind build)
    (hbuild : ∀ {f f' : String → Option Json} {x},
      (∀ key ∈ keys, key.Replaced (f key.name) (f' key.name)) →
        build ((keys.map Key.name).map f) = some x → build ((keys.map Key.name).map f') = some x) :
    Respects (Relaid keys) read := by
  intro j j' x h hj
  refine h.keeps (P := fun j => read j = some x) (fun {members members'} hedit hmembers => ?_) hj
  rw [hread] at hmembers ⊢
  obtain ⟨_, hfields, hx⟩ := Option.bind_eq_some_iff.1 hmembers
  -- What is read are the fields, and each edit keeps them or replaces one of them.
  obtain ⟨f, hf, rfl⟩ := fields?_eq_some_iff.1 hfields
  obtain ⟨f', hf', hreplaced⟩ := hedit.fields hnodup hf
  exact Option.bind_eq_some_iff.2
    ⟨_, fields?_eq_some_iff.2 ⟨f', hf', rfl⟩, hbuild hreplaced hx⟩

end Records

/-! ### Objects whose members all have to stay -/

section Needed

variable {names : List String}

theorem Key.not_spare {key : Key} (h : key ∈ Key.requiredAll names) : ¬ key.Spare value := by
  obtain ⟨_, _, rfl⟩ := List.mem_map.1 h
  exact id

/-- A member that has to stay as it is does. -/
theorem Key.eq_of_relaid {key : Key} (h : key ∈ Key.requiredAll names) {value' : Json}
    (hvalue : key.Relaid value value') : value = value' := by
  obtain ⟨_, _, rfl⟩ := List.mem_map.1 h
  exact hvalue

/-- An edit that replaces no field. -/
theorem Edit.field?_eq (h : Edit (Key.requiredAll names) members members') (hname : name ∈ names) :
    field? members' name = field? members name := by
  cases h with
  | permute h => exact (field?_perm h name).symm
  | @add _ other value hother _ =>
    refine field?_cons_of_ne fun heq => hother ?_
    rw [heq]
    exact List.mem_map.2 ⟨_, List.mem_map_of_mem hname, rfl⟩
  | drop hkey hvalue => exact absurd hvalue (Key.not_spare hkey)
  | inside hkey hvalue => rw [Key.eq_of_relaid hkey hvalue]

/-- Plain values hold no others, so they are sound at any depth. -/
theorem isSound_of_isPlain (h : value.isPlain = true) (depth : Nat) :
    value.isSound depth = true := by
  cases value with
  | null | bool => rfl
  | string s => exact h
  | _ => cases h

/-- What is added is sound, and all else is as before. -/
theorem Edit.isSound (h : Edit (Key.requiredAll names) members members') {depth : Nat}
    (hs : (Json.object members).isSound depth = true) :
    (Json.object members').isSound depth = true := by
  obtain ⟨inner, rfl, hall⟩ := isSound_object_iff.1 hs
  refine isSound_object_iff.2 ⟨inner, rfl, ?_⟩
  cases h with
  | permute h => exact fun m hm => hall m (h.mem_iff.2 hm)
  | add _ hvalue => exact List.forall_mem_cons.2 ⟨⟨rfl, isSound_of_isPlain hvalue inner⟩, hall⟩
  | drop hkey hvalue => exact (List.forall_mem_cons.1 hall).2
  | inside hkey hvalue => exact Key.eq_of_relaid hkey hvalue ▸ hall

/-- Objects with the same fields have the same ones by name. -/
theorem fields?_congr (hkeys : ∀ m ∈ members, m.1.isSome = true)
    (hkeys' : ∀ m ∈ members', m.1.isSome = true)
    (h : ∀ name ∈ names, field? members' name = field? members name) :
    (Json.object members').fields? names = (Json.object members).fields? names := by
  have hiff (f : String → Option Json) : HasFields names members' f ↔ HasFields names members f :=
    ⟨fun hf => ⟨hkeys, fun name hname => (h name hname).symm.trans (hf.field name hname)⟩,
      fun hf => ⟨hkeys', fun name hname => (h name hname).trans (hf.field name hname)⟩⟩
  refine Option.ext fun fs => ?_
  simp only [fields?_eq_some_iff, hiff]

/-- The fields of an object without the members with another key. -/
theorem field?_filter {other : String} (h : name ≠ other) :
    field? (members.filter fun m => m.1 != some other) name = field? members name := by
  have hvalues : valuesOf name (members.filter fun m => m.1 != some other)
      = valuesOf name members := by
    rw [valuesOf, List.filter_filter, valuesOf]
    congr 1
    refine List.filter_congr fun m _ => ?_
    by_cases heq : m.1 = some name
    · simp [heq, h]
    · simp [heq]
  rw [field?, hvalues, field?]

end Needed

end Json

/-! ### Settings and connections -/

namespace Settings

/-- The keys of settings; each member may be left out. -/
def keys : List Json.Key :=
  [.optional "glsl_version" (version {}) word32? Eq,
    .optional "texture_unit_base" (textureUnitBase {}) word32? Eq,
    .optional "annotate_slots" (annotateSlots {}) Json.flag? Eq]

/-- Relaid settings are read as before. -/
theorem respects : Json.Respects (Json.Relaid keys) ofJson? := by
  refine Json.respects_relaid (by decide) (fun _ => rfl) fun {f f' s} hreplaced hs => ?_
  simp only [keys, List.forall_mem_cons, Json.Key.name_optional] at hreplaced
  obtain ⟨hversion, hbase, hannotate, -⟩ := hreplaced
  simp only [keys, List.map_cons, List.map_nil, bind, Option.bind_eq_some_iff] at hs ⊢
  obtain ⟨v, hv, b, hb, a, ha, hs⟩ := hs
  exact ⟨v, hversion.orDefault Json.respects_eq hv, b, hbase.orDefault Json.respects_eq hb, a,
    hannotate.orDefault Json.respects_eq ha, hs⟩

end Settings

namespace Connection

/-- The keys of a connection; its facet may be left out. -/
def keys : List Json.Key :=
  [.required "from" Eq, .optional "from_port" Facet.value (Json.choice? Json.isNull) Eq,
    .required "to" Eq, .required "to_port" Eq]

/-- A relaid connection is read as before. -/
theorem respects : Json.Respects (Json.Relaid keys) ofJson? := by
  refine Json.respects_relaid (by decide) (fun _ => rfl) fun {f f' c} hreplaced hc => ?_
  simp only [keys, List.forall_mem_cons, Json.Key.name_required, Json.Key.name_optional]
    at hreplaced
  obtain ⟨hsource, hfacet, htarget, hinput, -⟩ := hreplaced
  simp only [keys, List.map_cons, List.map_nil, Json.Key.name_required, Json.Key.name_optional]
    at hc ⊢
  rw [hsource.eq, htarget.eq, hinput.eq]
  split at hc
  · rename_i source facet target input hfields
    simp only [List.cons.injEq, and_true] at hfields
    obtain ⟨hsource, rfl, htarget, hinput⟩ := hfields
    simp only [bind, Option.bind_eq_some_iff] at hc
    obtain ⟨s, hs, facet, hf, t, ht, i, hi, hc⟩ := hc
    simp only [hsource, htarget, hinput, hs, hfacet.orDefault Json.respects_eq hf, ht, hi, hc,
      bind, Option.bind_some]
  · cases hc

end Connection

/-! ### Kinds -/

namespace NodeKind

/-- The keys of the fields of the kind with the given name. -/
def fieldNames : String → List String
  | "Constant" => ["value"]
  | "TextureSample" | "Sink" => []
  | "Panner" => ["speed"]
  | "Unary" | "Binary" => ["op", "arity"]
  | _ => []

/-- The name of a kind that is written as an object. -/
def name? : Json → Option String
  | .object members => (Json.field? members "type").bind fun f => f.bind Json.text?
  | _ => none

/-- The keys of a kind: that of its name, and those of its fields. -/
def keys (j : Json) : List Json.Key :=
  Json.Key.requiredAll ("type" :: ((name? j).map fieldNames).getD [])

/-- A kind is made of its fields. -/
theorem ofData?_congr {data data' : Json} {name : String}
    (h : data.fields? (fieldNames name) = data'.fields? (fieldNames name)) :
    ofData? data name = ofData? data' name := by
  unfold ofData?
  split
  case h_7 => rfl
  all_goals
    simp only [fieldNames] at h
    simp only [fields?, h]

/-- A kind is written as an object whose member `type` names it. -/
theorem ofJson?_object {outside : Nat} {members : List (Json.Literal × Json)} {kind : NodeKind} :
    ofJson? outside (.object members) = some kind
      ↔ (Json.object members).isSound (bracketLimit - outside) = true
        ∧ ∃ name, name? (.object members) = some name
          ∧ ofData? (.object (members.filter fun m => m.1 != some "type")) name = some kind := by
  rw [ofJson?]
  simp only [bind, name?]
  split
  · rename_i hsound
    simp only [hsound, true_and]
    cases Json.field? members "type" with
    | none => simp
    | some f =>
      cases f with
      | none => simp
      | some value => simp [Option.bind_eq_some_iff]
  · rename_i hsound
    simp [hsound]

/-- The fields of a kind stand beside its name. -/
theorem type_notMem_fieldNames (name : String) : "type" ∉ fieldNames name := by
  unfold fieldNames
  split <;> decide

section Edit

variable {outside : Nat} {members members' : List (Json.Literal × Json)} {name : String}
  {kind : NodeKind}

/-- The fields of a kind are read from an object whose keys are all texts. -/
theorem isSome_of_isSound {depth : Nat} (h : (Json.object members).isSound depth = true) :
    ∀ m ∈ members.filter fun m => m.1 != some "type", m.1.isSome = true := by
  obtain ⟨_, _, hall⟩ := Json.isSound_object_iff.1 h
  exact fun m hm => (hall m (List.mem_of_mem_filter hm)).1

/-- A kind whose object is edited has the same name, and is read as before. -/
theorem ofJson?_edit
    (h : Json.Edit (Json.Key.requiredAll ("type" :: fieldNames name)) members members')
    (hname : name? (.object members) = some name)
    (hkind : ofJson? outside (.object members) = some kind) :
    name? (.object members') = some name ∧ ofJson? outside (.object members') = some kind := by
  have hname' : name? (.object members') = some name := by
    rw [name?, h.field?_eq List.mem_cons_self]
    exact hname
  obtain ⟨hsound, _, hread, hdata⟩ := ofJson?_object.1 hkind
  obtain rfl := Option.some.inj (hname.symm.trans hread)
  have hsound' := h.isSound hsound
  -- The kind is read from the other members, the name of the kind left out.
  have hfields : ∀ field ∈ fieldNames name,
      Json.field? (members'.filter fun m => m.1 != some "type") field
        = Json.field? (members.filter fun m => m.1 != some "type") field := by
    intro field hfield
    have hne : field ≠ "type" := fun heq => type_notMem_fieldNames name (heq ▸ hfield)
    rw [Json.field?_filter hne, Json.field?_filter hne,
      h.field?_eq (List.mem_cons_of_mem _ hfield)]
  have hsame := Json.fields?_congr (isSome_of_isSound hsound) (isSome_of_isSound hsound') hfields
  exact ⟨hname', ofJson?_object.2 ⟨hsound', name, hname', (ofData?_congr hsame).trans hdata⟩⟩

end Edit

/-- A relaid kind is read as before. -/
theorem respects {outside : Nat} :
    Json.Respects (fun j j' => Json.Relaid (keys j) j j') (ofJson? outside) := by
  intro j j' kind h hj
  cases h with
  | same => exact hj
  | @edits members members' hedits =>
    obtain ⟨-, name, hname, -⟩ := ofJson?_object.1 hj
    -- The keys are those of the kind that is named before the edits, and no edit changes the name.
    have hkeys : keys (.object members) = Json.Key.requiredAll ("type" :: fieldNames name) := by
      rw [keys, hname]
      rfl
    rw [hkeys] at hedits
    have hkept := (Json.Relaid.edits hedits).keeps
      (P := fun j => name? j = some name ∧ ofJson? outside j = some kind)
      (fun hedit hmembers => ofJson?_edit hedit hmembers.1 hmembers.2) ⟨hname, hj⟩
    exact hkept.2

end NodeKind

/-! ### Nodes and descriptions -/

/-- The keys of a node; its storage may be left out, and its kind may be relaid. -/
def NodeEntry.keys : List Json.Key :=
  [.required "id" Eq, .optional "storage" Storage.inMain (Json.choice? Json.isNull) Eq,
    .required "kind" fun j j' => Json.Relaid (NodeKind.keys j) j j']

/-- A relaid node is read as before. -/
theorem NodeEntry.respects {outside : Nat} :
    Json.Respects (Json.Relaid keys) (ofJson? outside) := by
  refine Json.respects_relaid (by decide) (fun _ => rfl) fun {f f' e} hreplaced he => ?_
  simp only [keys, List.forall_mem_cons, Json.Key.name_required, Json.Key.name_optional]
    at hreplaced
  obtain ⟨hid, hstorage, hkind, -⟩ := hreplaced
  simp only [keys, List.map_cons, List.map_nil, Json.Key.name_required, Json.Key.name_optional]
    at he ⊢
  rw [hid.eq]
  split at he
  · rename_i id storage kind hfields
    simp only [List.cons.injEq, and_true] at hfields
    obtain ⟨hid, rfl, hfkind⟩ := hfields
    simp only [bind, Option.bind_eq_some_iff] at he
    obtain ⟨i, hi, s, hs, k, hk, he⟩ := he
    have hread : (f "kind").bind (NodeKind.ofJson? (outside + 1)) = some k := by
      rw [hfkind]
      exact hk
    obtain ⟨kind', hfkind', hk'⟩ :=
      Option.bind_eq_some_iff.1 (hkind.bind NodeKind.respects hread)
    simp only [hid, hfkind', hi, hstorage.orDefault Json.respects_eq hs, hk', he, bind,
      Option.bind_some]
  · cases he

namespace Description

/-- The keys of a description; each member may be left out, and the records in it may be relaid. -/
def keys : List Json.Key :=
  [.optional "settings" {} Settings.ofJson? (Json.Relaid Settings.keys),
    .optional "nodes" [] (Json.list? (NodeEntry.ofJson? 2))
      (Json.RelaidItems (Json.Relaid NodeEntry.keys)),
    .optional "connections" [] (Json.list? Connection.ofJson?)
      (Json.RelaidItems (Json.Relaid Connection.keys))]

/-- A relaid description is read as before. -/
theorem respects : Json.Respects (Json.Relaid keys) ofJson? := by
  refine Json.respects_relaid (by decide) (fun _ => rfl) fun {f f' d} hreplaced hd => ?_
  simp only [keys, List.forall_mem_cons, Json.Key.name_optional] at hreplaced
  obtain ⟨hsettings, hnodes, hconnections, -⟩ := hreplaced
  simp only [keys, List.map_cons, List.map_nil, bind, Option.bind_eq_some_iff] at hd ⊢
  obtain ⟨s, hs, ns, hns, cs, hcs, hd⟩ := hd
  exact ⟨s, hsettings.orDefault Settings.respects hs,
    ns, hnodes.orDefault NodeEntry.respects.items hns,
    cs, hconnections.orDefault Connection.respects.items hcs, hd⟩

/-- The layout of a text that is read as a description does not matter. -/
structure LayoutFree (s : String) (d : Description) : Prop where
  /-- The text shows exactly one value. -/
  shows : ∃! j : Json, j.ShownBy s
  /-- Any text of a relaid value is read as the same description. -/
  relaid : ∀ {j j' : Json} {s' : String}, j.ShownBy s → Json.Relaid keys j j' → j'.ShownBy s' →
    parse s' = .ok d

/-- A text that is read is read alike in every layout. -/
theorem layoutFree {s : String} {d : Description} (h : parse s = .ok d) : LayoutFree s d := by
  have hvalue : ∃ j, Json.parse? s = some j ∧ ofJson? j = some d := by
    unfold parse at h
    split at h
    · rename_i d' hd
      obtain rfl := Except.ok.inj h
      exact Option.bind_eq_some_iff.1 hd
    · cases h
  obtain ⟨j, hj, hd⟩ := hvalue
  have hshown := Json.parse?_eq_some_iff.1 hj
  refine ⟨⟨j, hshown, fun k hk => hk.unique hshown⟩, fun {k j' s'} hk hrelaid hj' => ?_⟩
  obtain rfl := hk.unique hshown
  rw [parse, Json.parse?_eq_some_iff.2 hj', Option.bind_some, respects hrelaid hd]

/-- A kind, a node with it, and a description with the node. -/
def sampleKind : Json :=
  .ofMembers [("type", .ofText "Unary"), ("op", .ofText "Sin"), ("arity", .ofText "Float")]

def sampleNode : Json :=
  .ofMembers [("id", .ofText "a"), ("storage", .ofText "Local"), ("kind", sampleKind)]

def sample : Json := .ofMembers [("connections", .array []), ("nodes", .array [sampleNode])]

/-- The same in another order, with a member more in the kind and in the description, and without
    the members that say what is usual. -/
def relaidKind : Json :=
  .ofMembers [("note", .null), ("arity", .ofText "Float"), ("op", .ofText "Sin"),
    ("type", .ofText "Unary")]

def relaidNode : Json := .ofMembers [("kind", relaidKind), ("id", .ofText "a")]

def relaidSample : Json := .ofMembers [("draft", .bool true), ("nodes", .array [relaidNode])]

/-- What both stand for. -/
def sampleDescription : Description := ⟨{}, [⟨"a", .inMain, .unary .sin .float⟩], []⟩

/-- A description and the same one with its members in another order and some left out. -/
theorem layoutFree_sample : parse sample.compact = .ok sampleDescription
    ∧ parse relaidSample.pretty = .ok sampleDescription := by
  have hshown : sample.ShownBy sample.compact := Json.shownBy_of_tokens? (by decide +kernel)
  have hread : parse sample.compact = .ok sampleDescription := by
    rw [parse, Json.parse?_eq_some_iff.2 hshown]
    rfl
  -- The kind gets its members in another order and one more.
  have hkind : Json.Relaid (NodeKind.keys sampleKind) sampleKind relaidKind :=
    .edits ((ReflTransGen.single (.permute (List.reverse_perm _).symm)).tail
      (.add (by decide) rfl))
  -- The node loses the storage that it would have anyway.
  have hnode : Json.Relaid NodeEntry.keys sampleNode relaidNode := by
    have hstorage : Json.Edit NodeEntry.keys
        [(some "storage", .ofText "Local"), (some "kind", sampleKind), (some "id", .ofText "a")]
        [(some "kind", sampleKind), (some "id", .ofText "a")] :=
      .drop (List.mem_cons_of_mem _ List.mem_cons_self) rfl
    have hinside : Json.Edit NodeEntry.keys
        [(some "kind", sampleKind), (some "id", .ofText "a")]
        [(some "kind", relaidKind), (some "id", .ofText "a")] :=
      .inside (List.mem_cons_of_mem _ (List.mem_cons_of_mem _ List.mem_cons_self)) hkind
    have hpermute := List.perm_append_singleton (some "id", Json.ofText "a")
      [(some "storage", Json.ofText "Local"), (some "kind", sampleKind)]
    exact .edits (.head (.permute hpermute.symm) (.head hstorage (.single hinside)))
  have hrelaid : Json.Relaid keys sample relaidSample := by
    have hconnections : Json.Edit keys
        [(some "connections", .array []), (some "nodes", .array [sampleNode])]
        [(some "nodes", .array [sampleNode])] :=
      .drop (List.mem_cons_of_mem _ (List.mem_cons_of_mem _ List.mem_cons_self)) rfl
    have hinside : Json.Edit keys [(some "nodes", .array [sampleNode])]
        [(some "nodes", .array [relaidNode])] :=
      .inside (List.mem_cons_of_mem _ List.mem_cons_self) (.array (.cons hnode .nil))
    have hadd : Json.Edit keys [(some "nodes", .array [relaidNode])]
        [(some "draft", .bool true), (some "nodes", .array [relaidNode])] :=
      .add (by decide) rfl
    exact .edits (.head hconnections (.head hinside (.single hadd)))
  have hwrittenKind : relaidKind.Written := Json.written_ofMembers <| by
    simp [Json.ofText, Json.Written.null, Json.Written.string]
  have hwrittenNode : relaidNode.Written := Json.written_ofMembers <| by
    simp [Json.ofText, hwrittenKind, Json.Written.string]
  have hwritten : relaidSample.Written := Json.written_ofMembers <| by
    simp [hwrittenNode, Json.Written.array, Json.Written.bool]
  exact ⟨hread, (layoutFree hread).relaid hshown hrelaid hwritten.shownBy_pretty⟩

end Description

end MaterialNet
