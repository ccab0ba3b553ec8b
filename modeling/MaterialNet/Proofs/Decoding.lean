import Mathlib.Data.List.Forall2
import MaterialNet.Description.Json
import MaterialNet.Proofs.Printing

namespace MaterialNet

/-!
# Descriptions that are written and read back

The text of a description is read back as the description, with every float replaced by the float
that its number is read as.  A float without a numeral is written as null, which no float is read
from, so a description with such a float has a text that is refused.

* `Binary32.reread` — the float that the number of a float is read as
* `Description.floats`, `Description.mapFloats` — the floats of a description, and their replacement
* `Description.ofJson?_toJson` — decoding what has been encoded
* `Description.rereads` — reading the text of a description
-/

/-! ### Lists that are read -/

/-- A list is read if each of its items is. -/
theorem mapM_eq_some_iff {α β : Type} {f : α → Option β} {l : List α} {out : List β} :
    l.mapM f = some out ↔ List.Forall₂ (fun a b => f a = some b) l out := by
  -- Item by item, as the list is read.
  induction l generalizing out with
  | nil => simp [eq_comm]
  | cons a l ih =>
    simp only [List.mapM_cons, bind, Option.bind_eq_some_iff, ih, List.forall₂_cons_left_iff]
    constructor
    · rintro ⟨b, hb, bs, hbs, hout⟩
      exact ⟨b, bs, hb, hbs, (Option.some.inj hout).symm⟩
    · rintro ⟨b, bs, hb, hbs, rfl⟩
      exact ⟨b, hb, bs, hbs, rfl⟩

/-- A list whose items are read or refused one by one. -/
theorem mapM_eq_ite {α β : Type} {f : α → Option β} {p : α → Bool} {g : α → β} {l : List α}
    (h : ∀ a ∈ l, f a = if p a then some (g a) else none) :
    l.mapM f = if l.all p then some (l.map g) else none := by
  induction l with
  | nil => rfl
  | cons a l ih =>
    obtain ⟨ha, hl⟩ := List.forall_mem_cons.1 h
    rw [List.mapM_cons, ha, ih hl, List.all_cons, List.map_cons]
    cases p a <;> cases l.all p <;> rfl

namespace Json

/-- An array of items that are read or refused one by one. -/
theorem list?_array {α β : Type} {write : α → Json} {read : Json → Option β} {p : α → Bool}
    {g : α → β} {l : List α}
    (h : ∀ a ∈ l, read (write a) = if p a then some (g a) else none) :
    list? read (.array (l.map write)) = if l.all p then some (l.map g) else none := by
  rw [list?, items?, Option.bind_some, List.mapM_map]
  exact mapM_eq_ite h

/-! ### Records -/

section Records

variable {l : List (String × Json)}

/-- Where keys differ, a key has one value. -/
theorem field?_ofMembers (h : (l.map Prod.fst).Nodup) {m : String × Json}
    (hm : m ∈ l) :
    field? (l.map fun m => (some m.1, m.2)) m.1 = some (some m.2) := by
  -- A later member with the same key would be a second value of it.
  have hvalues : valuesOf m.1 (l.map fun m => (some m.1, m.2)) = [m.2] := by
    induction l with
    | nil => cases hm
    | cons b rest ih =>
      obtain ⟨hb, hrest⟩ := List.nodup_cons.1 h
      rcases List.mem_cons.1 hm with rfl | hm
      · have hother (a : String) (b : Json) (hab : (a, b) ∈ rest) : a ≠ m.1 := fun heq =>
          hb (heq ▸ List.mem_map_of_mem hab)
        simpa [valuesOf, List.filter_map, Function.comp_def] using hother
      · have hne : b.1 ≠ m.1 := fun heq => hb (heq ▸ List.mem_map_of_mem hm)
        simpa [valuesOf, List.filter_map, Function.comp_def, hne] using ih hrest hm
  rw [field?, hvalues]

/-- The fields of an object that has exactly the given keys. -/
theorem fields?_ofMembers (h : (l.map Prod.fst).Nodup) :
    fields? (l.map Prod.fst) (ofMembers l)
      = some (l.map fun m => some m.2) := by
  have hall : (l.map fun m => ((some m.1, m.2) : Literal × Json)).all
      (fun m => m.1.isSome) = true := by
    simp
  rw [ofMembers, fields?, if_pos hall, List.mapM_map]
  refine (mapM_eq_ite (p := fun _ => true) fun m hm => field?_ofMembers h hm).trans ?_
  simp

end Records

/-! ### Values -/

/-- An integer within bounds is read back. -/
theorem reading?_ofInt {n : Int} (hlow : -0x8000000000000000 ≤ n) (hhigh : n ≤ significandLimit) :
    (ofInt n).reading? = some (.integer n) :=
  Numeral.read?_ofInt hlow hhigh

/-- An integer within the bounds of its type is read back as one of this type. -/
theorem integer?_ofInt {low high n : Int} (hlow : low ≤ n) (hhigh : n ≤ high)
    (hleast : -0x8000000000000000 ≤ low) (hgreatest : high ≤ significandLimit) :
    (ofInt n).integer? low high = some n := by
  rw [integer?, reading?_ofInt (Int.le_trans hleast hlow) (Int.le_trans hhigh hgreatest),
    Option.bind_some, Reading.toInt?, if_pos ⟨hlow, hhigh⟩]

/-- An integer is written with digits only. -/
theorem written_ofInt (n : Int) : (ofInt n).Written := .number (Numeral.wellWritten_ofInt n)

/-- A record is written well if its members are. -/
theorem written_ofMembers {members : List (String × Json)} (h : ∀ m ∈ members, m.2.Written) :
    (ofMembers members).Written := by
  refine .object (List.forall_mem_map.2 fun m _ => rfl) (List.forall_mem_map.2 fun m hm => ?_)
  exact h m hm

/-- A list is written well if its items are. -/
theorem written_map {α : Type} {f : α → Json} {l : List α} (h : ∀ a ∈ l, (f a).Written) :
    (Json.array (l.map f)).Written :=
  .array (List.forall_mem_map.2 h)

/-- A list stands one level above its items. -/
theorem isSound_map {α : Type} {f : α → Json} {l : List α} {depth : Nat}
    (h : ∀ a ∈ l, (f a).isSound depth = true) :
    (Json.array (l.map f)).isSound (depth + 1) = true := by
  rw [isSound]
  induction l with
  | nil => rfl
  | cons a l ih =>
    obtain ⟨ha, hl⟩ := List.forall_mem_cons.1 h
    rw [List.map_cons, areSound, ha, ih hl]
    rfl

/-- An object is sound within one bracket more than its values. -/
theorem isSound_object_iff {members : List (Literal × Json)} {depth : Nat} :
    (Json.object members).isSound depth = true
      ↔ ∃ inner, depth = inner + 1 ∧ ∀ m ∈ members, m.1.isSome ∧ m.2.isSound inner = true := by
  have hall (inner : Nat) : areSoundMembers inner members = true
      ↔ ∀ m ∈ members, m.1.isSome ∧ m.2.isSound inner = true := by
    induction members with
    | nil => simp [areSoundMembers]
    | cons m rest ih =>
      obtain ⟨key, value⟩ := m
      rw [areSoundMembers, Bool.and_eq_true, ih, List.forall_mem_cons, isSoundMember,
        Bool.and_eq_true]
  cases depth with
  | zero => simp [isSound]
  | succ inner => simp [isSound, hall]

/-- A record stands one level above its members. -/
theorem isSound_ofMembers {members : List (String × Json)} {depth : Nat}
    (h : ∀ m ∈ members, m.2.isSound depth = true) :
    (ofMembers members).isSound (depth + 1) = true :=
  isSound_object_iff.2 ⟨depth, rfl, List.forall_mem_map.2 fun m hm => ⟨rfl, h m hm⟩⟩

theorem choice?_ofChoice {α : Type} [Named α] (a : α) (isUnit : Json → Bool) :
    (ofChoice a).choice? isUnit = (Named.ofName? (Named.name a) : Option α) := rfl

end Json

/-- A number of 32 bits is read back. -/
theorem word32?_ofInt (n : UInt32) : word32? (.ofInt n.toNat) = some n := by
  have hlt := n.toNat_lt
  rw [word32?, Json.integer?_ofInt (by omega) (by omega) (by decide) (by decide)]
  simp

/-- A number of 64 bits is read back. -/
theorem word64?_ofInt (n : UInt64) : word64? (.ofInt n.toNat) = some n := by
  have hlt := n.toNat_lt
  rw [word64?, Json.integer?_ofInt (by omega) (by omega) (by decide) (by decide)]
  simp

/-! ### Floats -/

namespace Binary32

/-- The float that the number of a finite float is read as. -/
def reread (x : Binary32) : Binary32 :=
  (((Layout.json.numeral x).read?).map Reading.toBinary32).getD x

/-- A finite float is read back as what its numeral is read as; no other float has a numeral. -/
theorem ofJson?_toJson (x : Binary32) :
    ofJson? x.toJson = if x.isFinite then some x.reread else none := by
  unfold toJson
  split
  · rename_i hx
    obtain ⟨reading, hreading⟩ := Option.isSome_iff_exists.1 (Layout.isSome_read?_numeral hx)
    simp [ofJson?, Json.reading?, hreading, reread]
  · rfl

/-- A float is written as its shortest numeral, or as `null`. -/
theorem written_toJson (x : Binary32) : x.toJson.Written := by
  unfold toJson
  split
  · exact .number (Layout.wellWritten_numeral ‹_› _)
  · exact .null

/-- A float stands at any level. -/
theorem isSound_toJson (x : Binary32) (depth : Nat) : x.toJson.isSound depth = true := by
  unfold toJson
  split
  · exact Layout.isSome_read?_numeral ‹_›
  · rfl

/-- The text of the number of a finite float is read as this float. -/
theorem parse?_numeral {x : Binary32} (hx : x.isFinite = true) :
    (Json.parse? (Layout.json.numeral x).text).bind ofJson? = some x.reread := by
  have htoJson : x.toJson = .number (Layout.json.numeral x) := if_pos hx
  have hwritten := (written_toJson x).parse?_pretty
  have hread := ofJson?_toJson x
  rw [if_pos hx] at hread
  rw [htoJson] at hwritten hread
  have htext : (Json.number (Layout.json.numeral x)).pretty = (Layout.json.numeral x).text := by
    rw [Json.pretty, Json.chunks, List.map_singleton, String.join_cons]
    exact String.append_empty
  rw [← htext, hwritten, Option.bind_some, hread]

end Binary32

/-! ### Constants -/

namespace Constant

/-- The constant with its floats replaced. -/
def mapFloats (f : Binary32 → Binary32) : Constant → Constant
  | .float x => .float (f x)
  | .vec2 x y => .vec2 (f x) (f y)
  | .vec3 x y z => .vec3 (f x) (f y) (f z)
  | .vec4 x y z w => .vec4 (f x) (f y) (f z) (f w)
  | .integer n => .integer n
  | .mat4 columns => .mat4 (columns.map f)

/-- The components of a constant are read back together. -/
theorem list?_components (c : Constant) :
    Json.list? Binary32.ofJson? (.array (c.components.map Binary32.toJson))
      = if c.isFinite then some (c.components.map Binary32.reread) else none :=
  Json.list?_array fun x _ => x.ofJson?_toJson

/-- A constant is read back if all its floats are finite. -/
theorem ofJson?_toJson (c : Constant) :
    ofJson? c.toJson = if c.isFinite then some (c.mapFloats Binary32.reread) else none := by
  have hdata : ofJson? c.toJson = ofData? c.data c.type := by
    rw [ofJson?, toJson]
    simp [Json.ofMembers, Json.variant?, ValueType.ofName?_name]
  rw [hdata]
  cases c with
  | float x =>
    simp only [data, type, ofData?, x.ofJson?_toJson, isFinite, components, List.all_cons,
      List.all_nil, Bool.and_true]
    cases x.isFinite <;> rfl
  | vec2 x y =>
    simp only [data, type, ofData?, list?_components]
    cases (vec2 x y).isFinite <;> rfl
  | vec3 x y z =>
    simp only [data, type, ofData?, list?_components]
    cases (vec3 x y z).isFinite <;> rfl
  | vec4 x y z w =>
    simp only [data, type, ofData?, list?_components]
    cases (vec4 x y z w).isFinite <;> rfl
  | integer n =>
    have hlow : -0x80000000 ≤ n.toInt := n.minValue_le_toInt
    have hhigh := n.toInt_lt
    -- An integer of 32 bits lies within those that are read as integers.
    rw [data, type, ofData?, Json.integer?_ofInt hlow (by omega) (by decide) (by decide)]
    simp [mapFloats, isFinite, components]
  | mat4 columns =>
    simp only [data, type, ofData?, list?_components]
    cases (mat4 columns).isFinite with
    | false => rfl
    | true =>
      have hcolumns : (columns.toList.map Binary32.reread).toArray
          = columns.toArray.map Binary32.reread := by
        rw [← List.map_toArray]
        rfl
      simp [components, mapFloats, hcolumns]

/-- A constant is written as a record of its type and its components. -/
theorem written_toJson (c : Constant) : c.toJson.Written := by
  refine Json.written_ofMembers (List.forall_mem_singleton.2 ?_)
  cases c with
  | float x => exact x.written_toJson
  | integer n => exact Json.written_ofInt _
  | _ => exact Json.written_map fun x _ => x.written_toJson

/-- A constant takes two levels: a record, and the list of its components. -/
theorem isSound_toJson (c : Constant) (depth : Nat) : c.toJson.isSound (depth + 2) = true := by
  refine Json.isSound_ofMembers (List.forall_mem_singleton.2 ?_)
  -- An integer of 32 bits is among the integers that are read exactly.
  cases c with
  | float x => exact x.isSound_toJson _
  | integer n =>
    have hlow : -0x80000000 ≤ n.toInt := n.minValue_le_toInt
    have hhigh := n.toInt_lt
    have hread := Numeral.read?_ofInt (n := n.toInt) (by omega) (by rw [significandLimit]; omega)
    exact Option.isSome_iff_exists.2 ⟨_, hread⟩
  | _ => exact Json.isSound_map fun x _ => x.isSound_toJson _

end Constant

/-! ### Kinds -/

namespace NodeKind

/-- The floats of a kind. -/
def floats : NodeKind → List Binary32
  | .constant value => value.components
  | .panner speedX speedY => [speedX, speedY]
  | .texture | .unary _ _ | .binary _ _ | .sink => []

/-- The kind with its floats replaced. -/
def mapFloats (f : Binary32 → Binary32) : NodeKind → NodeKind
  | .constant value => .constant (value.mapFloats f)
  | .panner speedX speedY => .panner (f speedX) (f speedY)
  | .texture => .texture
  | .unary fn type => .unary fn type
  | .binary fn type => .binary fn type
  | .sink => .sink

/-- A kind is written with its name first, and its fields after it. -/
theorem ofJson?_ofMembers {outside : Nat} (name : String) {fields : List (String × Json)}
    (hkeys : ("type" :: fields.map Prod.fst).Nodup)
    (hsound : (Json.ofMembers (("type", .ofText name) :: fields)).isSound (bracketLimit - outside)
      = true) :
    ofJson? outside (.ofMembers (("type", .ofText name) :: fields))
      = ofData? (.ofMembers fields) name := by
  have hnodup : ((("type", Json.ofText name) :: fields).map Prod.fst).Nodup := hkeys
  have hfield := Json.field?_ofMembers hnodup List.mem_cons_self
  have hother : (fields.map fun m => ((some m.1, m.2) : Json.Literal × Json)).filter
      (fun m => m.1 != some "type") = fields.map fun m => (some m.1, m.2) := by
    refine List.filter_eq_self.2 (List.forall_mem_map.2 fun m hm => ?_)
    have hne : m.1 ≠ "type" := fun heq =>
      (List.nodup_cons.1 hkeys).1 (heq ▸ List.mem_map_of_mem hm)
    simpa using hne
  unfold ofJson?
  rw [if_pos hsound]
  simp only [List.map_cons] at hfield
  simp only [Json.ofMembers, List.map_cons, hfield, bind, Option.bind_some, List.filter_cons,
    bne_self_eq_false, Bool.false_eq_true, if_false, hother]
  rfl

theorem fields?_ofMembers {l : List (String × Json)} (h : (l.map Prod.fst).Nodup) :
    fields? (l.map Prod.fst) (.ofMembers l) = some (l.map Prod.snd) := by
  rw [fields?, Json.fields?_ofMembers h, Option.bind_some, List.mapM_map]
  refine (mapM_eq_ite (p := fun _ => true) fun m _ => rfl).trans ?_
  simp

/-- A kind takes no more levels than there are. -/
theorem isSound_toJson (k : NodeKind) : k.toJson.isSound 124 = true := by
  cases k with
  | constant value =>
    refine Json.isSound_ofMembers (List.forall_mem_cons.2 ⟨rfl, List.forall_mem_singleton.2 ?_⟩)
    exact value.isSound_toJson 121
  | panner x y =>
    refine Json.isSound_ofMembers (List.forall_mem_cons.2 ⟨rfl, List.forall_mem_singleton.2 ?_⟩)
    exact Json.isSound_map (l := [x, y]) fun x _ => x.isSound_toJson 122
  | _ => rfl

/-- A kind is read back if all its floats are finite. -/
theorem ofJson?_toJson (k : NodeKind) : ofJson? 3 k.toJson
    = if k.floats.all Binary32.isFinite then some (k.mapFloats Binary32.reread) else none := by
  have hsound := k.isSound_toJson
  -- Each kind has its own name, and the fields that this name asks for.
  cases k with
  | constant value =>
    refine (ofJson?_ofMembers "Constant" (by simp) hsound).trans ?_
    have hfields := fields?_ofMembers (l := [("value", value.toJson)]) (by simp)
    rw [List.map_singleton, List.map_singleton] at hfields
    rw [ofData?, hfields, floats, ← Constant.isFinite]
    simp only [bind, Option.bind_some, value.ofJson?_toJson]
    cases value.isFinite <;> rfl
  | texture =>
    refine (ofJson?_ofMembers "TextureSample" (by simp) hsound).trans ?_
    rfl
  | panner x y =>
    refine (ofJson?_ofMembers "Panner" (by simp) hsound).trans ?_
    have hfields := fields?_ofMembers
      (l := [("speed", .array [x.toJson, y.toJson])]) (by simp)
    have hspeed := Json.list?_array (l := [x, y]) fun x _ => x.ofJson?_toJson
    simp only [List.map_cons, List.map_nil] at hfields hspeed
    rw [ofData?, hfields, floats]
    simp only [bind, Option.bind_some, hspeed]
    cases [x, y].all Binary32.isFinite <;> rfl
  | unary fn type =>
    refine (ofJson?_ofMembers "Unary" (by simp) hsound).trans ?_
    have hfields := fields?_ofMembers
      (l := [("op", .ofChoice fn), ("arity", .ofChoice type)]) (by simp)
    simp only [List.map_cons, List.map_nil] at hfields
    rw [ofData?, hfields]
    simp only [bind, Option.bind_some, Json.choice?_ofChoice, UnaryFn.ofName?_name,
      ValueType.ofName?_name]
    rfl
  | binary fn type =>
    refine (ofJson?_ofMembers "Binary" (by simp) hsound).trans ?_
    have hfields := fields?_ofMembers
      (l := [("op", .ofChoice fn), ("arity", .ofChoice type)]) (by simp)
    simp only [List.map_cons, List.map_nil] at hfields
    rw [ofData?, hfields]
    simp only [bind, Option.bind_some, Json.choice?_ofChoice, BinaryFn.ofName?_name,
      ValueType.ofName?_name]
    rfl
  | sink =>
    refine (ofJson?_ofMembers "Sink" (by simp) hsound).trans ?_
    rfl

/-- A kind is written as a choice with its data. -/
theorem written_toJson (k : NodeKind) : k.toJson.Written := by
  have hname (name : String) : (Json.ofText name).Written := .string name
  cases k with
  | constant value =>
    refine Json.written_ofMembers (List.forall_mem_cons.2 ⟨hname _, List.forall_mem_singleton.2 ?_⟩)
    exact value.written_toJson
  | panner x y =>
    refine Json.written_ofMembers (List.forall_mem_cons.2 ⟨hname _, List.forall_mem_singleton.2 ?_⟩)
    exact Json.written_map (l := [x, y]) fun x _ => x.written_toJson
  | texture | sink => exact Json.written_ofMembers (List.forall_mem_singleton.2 (hname _))
  | unary | binary =>
    refine Json.written_ofMembers (List.forall_mem_cons.2 ⟨hname _, ?_⟩)
    exact List.forall_mem_cons.2 ⟨hname _, List.forall_mem_singleton.2 (hname _)⟩

end NodeKind

/-! ### Settings, nodes and connections -/

/-- Settings are read back as they are. -/
theorem Settings.ofJson?_toJson (s : Settings) : ofJson? s.toJson = some s := by
  have hfields := Json.fields?_ofMembers
    (l := [("glsl_version", .ofInt s.version.toNat),
      ("texture_unit_base", .ofInt s.textureUnitBase.toNat),
      ("annotate_slots", .bool s.annotateSlots)]) (by simp)
  simp only [List.map_cons, List.map_nil] at hfields
  rw [ofJson?, toJson, hfields]
  simp only [bind, Option.bind_some, Json.orDefault, word32?_ofInt, Json.flag?]

/-- Settings are written as a record. -/
theorem Settings.written_toJson (s : Settings) : s.toJson.Written := by
  refine Json.written_ofMembers ?_
  simp [Json.written_ofInt, Json.Written.bool]

/-- The node with its floats replaced. -/
def NodeEntry.mapFloats (f : Binary32 → Binary32) (e : NodeEntry) : NodeEntry :=
  { e with kind := e.kind.mapFloats f }

/-- A node is read back if all its floats are finite. -/
theorem NodeEntry.ofJson?_toJson (e : NodeEntry) : ofJson? 2 e.toJson
    = if e.kind.floats.all Binary32.isFinite then some (e.mapFloats Binary32.reread) else none := by
  have hfields := Json.fields?_ofMembers
    (l := [("id", .ofText e.id), ("storage", .ofChoice e.storage),
      ("kind", e.kind.toJson)]) (by simp)
  simp only [List.map_cons, List.map_nil] at hfields
  rw [ofJson?, toJson, hfields]
  simp only [bind, Option.bind_some, Json.orDefault, Json.choice?_ofChoice, Storage.ofName?_name,
    Json.ofText, Json.text?, e.kind.ofJson?_toJson]
  cases e.kind.floats.all Binary32.isFinite <;> rfl

/-- A node is written as a record. -/
theorem NodeEntry.written_toJson (e : NodeEntry) : e.toJson.Written := by
  refine Json.written_ofMembers ?_
  simp [Json.Written.string, Json.ofText, Json.ofChoice, e.kind.written_toJson]

/-- A connection is read back as it is, since there is no float in it. -/
theorem Connection.ofJson?_toJson (c : Connection) : ofJson? c.toJson = some c := by
  have hfields := Json.fields?_ofMembers
    (l := [("from", .ofText c.source), ("from_port", .ofChoice c.facet),
      ("to", .ofText c.target), ("to_port", .ofInt c.input.toNat)]) (by simp)
  simp only [List.map_cons, List.map_nil] at hfields
  rw [ofJson?, toJson, hfields]
  simp only [bind, Option.bind_some, Json.orDefault, Json.choice?_ofChoice, Facet.ofName?_name,
    Json.ofText, Json.text?, word64?_ofInt]

/-- A connection is written as a record. -/
theorem Connection.written_toJson (c : Connection) : c.toJson.Written := by
  refine Json.written_ofMembers ?_
  simp [Json.Written.string, Json.ofText, Json.ofChoice, Json.written_ofInt]

/-! ### Descriptions -/

namespace Description

/-- The floats of a description. -/
def floats (d : Description) : List Binary32 := d.nodes.flatMap fun e => e.kind.floats

/-- The description with its floats replaced, and all else as it is. -/
def mapFloats (f : Binary32 → Binary32) (d : Description) : Description :=
  { d with nodes := d.nodes.map (NodeEntry.mapFloats f) }

/-- A description is read back from its value if all its floats are finite. -/
theorem ofJson?_toJson (d : Description) : ofJson? d.toJson
    = if d.floats.all Binary32.isFinite then some (d.mapFloats Binary32.reread) else none := by
  have hfields := Json.fields?_ofMembers
    (l := [("settings", d.settings.toJson),
      ("nodes", .array (d.nodes.map NodeEntry.toJson)),
      ("connections", .array (d.connections.map Connection.toJson))]) (by simp)
  have hnodes := Json.list?_array (l := d.nodes) fun e _ => e.ofJson?_toJson
  have hconnections := Json.list?_array (p := fun _ => true) (g := id) (l := d.connections)
    fun c _ => c.ofJson?_toJson
  simp only [List.map_cons, List.map_nil] at hfields
  have hfloats : d.floats.all Binary32.isFinite
      = d.nodes.all fun e => e.kind.floats.all Binary32.isFinite := List.all_flatMap
  rw [ofJson?, toJson, hfields, hfloats]
  simp only [bind, Option.bind_some, Json.orDefault, d.settings.ofJson?_toJson, hnodes,
    hconnections]
  cases d.nodes.all fun e => e.kind.floats.all Binary32.isFinite with
  | false => rfl
  | true => simp [mapFloats]

/-- A description is written as a record of lists. -/
theorem written_toJson (d : Description) : d.toJson.Written := by
  refine Json.written_ofMembers ?_
  have hnodes := Json.written_map (l := d.nodes) fun e _ => e.written_toJson
  have hconnections := Json.written_map (l := d.connections) fun c _ => c.written_toJson
  simp [d.settings.written_toJson, hnodes, hconnections]

/-- What reading the text of a description gives. -/
structure Rereads (d : Description) : Prop where
  ok_iff : (∃ d', parse d.text = .ok d') ↔ ∀ x ∈ d.floats, x.isFinite = true
  ok : (∀ x ∈ d.floats, x.isFinite = true) → parse d.text = .ok (d.mapFloats Binary32.reread)
  error : (∃ x ∈ d.floats, x.isFinite = false) → parse d.text = .error .unreadable
  /-- The replacement of a float is read from the number that is printed for it. -/
  reread : ∀ x ∈ d.floats, x.isFinite = true →
    (Json.parse? (Layout.json.numeral x).text).bind Binary32.ofJson? = some x.reread

/-- The text of a description is read back, floats being replaced, exactly if every float is
    finite. -/
theorem rereads (d : Description) : d.Rereads := by
  -- The text is always that of a value; only decoding the value can fail.
  have hparse : parse d.text = if d.floats.all Binary32.isFinite
      then .ok (d.mapFloats Binary32.reread) else .error .unreadable := by
    rw [parse, text, d.written_toJson.parse?_pretty, Option.bind_some, ofJson?_toJson]
    cases d.floats.all Binary32.isFinite <;> rfl
  have hok (hfinite : ∀ x ∈ d.floats, x.isFinite = true) :
      parse d.text = .ok (d.mapFloats Binary32.reread) :=
    hparse.trans (if_pos (List.all_eq_true.2 hfinite))
  have herror (hinfinite : ¬ ∀ x ∈ d.floats, x.isFinite = true) :
      parse d.text = .error .unreadable :=
    hparse.trans (if_neg fun hall => hinfinite (List.all_eq_true.1 hall))
  refine ⟨⟨?_, fun hfinite => ⟨_, hok hfinite⟩⟩, hok, ?_, fun x _ hx => Binary32.parse?_numeral hx⟩
  · rintro ⟨d', hd'⟩
    refine Decidable.byContradiction fun hinfinite => ?_
    rw [herror hinfinite] at hd'
    cases hd'
  · rintro ⟨x, hx, hno⟩
    exact herror fun hfinite => absurd (hfinite x hx) (by simp [hno])

end Description

end MaterialNet
