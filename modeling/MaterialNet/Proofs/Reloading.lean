import MaterialNet.Proofs.Rebuilding
import MaterialNet.Proofs.Rereading
import MaterialNet.Proofs.Spelling

namespace MaterialNet

/-!
# Networks that are saved and loaded again

Since every finite float is read back as it is, the text of a description is read as the very same
description.  What is loaded from the text of a network therefore answers every question as the
network does: the literals of its programs and the defaults of its manifest among them.

* `Constant.mapFloats_eq`, …, `Description.mapFloats_eq` — replacing floats by themselves
* `Network.finite_floats` — networks have no other floats than finite ones
* `Description.roundTrips` — a description is kept by its text, and so is a network that has it
-/

/-! ### Floats that are replaced by themselves -/

section

variable {f : Binary32 → Binary32}

/-- A constant stays if none of its floats changes. -/
theorem Constant.mapFloats_eq {c : Constant} (h : ∀ x ∈ c.components, f x = x) :
    c.mapFloats f = c := by
  cases c with
  | integer n => rfl
  | mat4 columns =>
    have hcolumns : columns.map f = columns := by
      refine Vector.ext fun i hi => ?_
      rw [Vector.getElem_map]
      exact h _ (Vector.mem_toList_iff.2 (Vector.getElem_mem hi))
    rw [mapFloats, hcolumns]
  | _ =>
    simp only [components, List.forall_mem_cons] at h
    simp only [mapFloats, h]

theorem NodeKind.mapFloats_eq {k : NodeKind} (h : ∀ x ∈ k.floats, f x = x) :
    k.mapFloats f = k := by
  cases k with
  | constant value => rw [mapFloats, value.mapFloats_eq h]
  | panner speedX speedY =>
    simp only [floats, List.forall_mem_cons] at h
    rw [mapFloats, h.1, h.2.1]
  | _ => rfl

theorem Description.mapFloats_eq {d : Description} (h : ∀ x ∈ d.floats, f x = x) :
    d.mapFloats f = d := by
  have hnodes : d.nodes.map (NodeEntry.mapFloats f) = d.nodes := by
    refine (List.map_congr_left fun e he => ?_).trans (List.map_id d.nodes)
    rw [NodeEntry.mapFloats, e.kind.mapFloats_eq fun x hx => h x (List.mem_flatMap.2 ⟨e, he, hx⟩)]
    rfl
  rw [mapFloats, hnodes]

end

/-! ### The floats of a network -/

/-- A node that passes its check has no floats but finite ones. -/
theorem Node.finite_of_check {n : Node} (h : n.check = .ok ()) :
    ∀ x ∈ n.kind.floats, x.isFinite = true := by
  have hflaw := (Node.spelled_of_check h).2
  unfold flaw? at hflaw
  -- Constants and panners have floats, and those are checked.
  cases hk : n.kind with
  | constant value =>
    simp only [hk] at hflaw
    split at hflaw
    · exact List.all_eq_true.1 ‹_›
    · cases hflaw
  | panner speedX speedY =>
    simp only [hk] at hflaw
    have hspeeds := (inMain_of_flaw hflaw).2
    simpa [NodeKind.floats] using hspeeds
  | _ => simp [NodeKind.floats]

/-- A network describes finite floats only. -/
theorem Network.WellFormed.finite_floats {net : Network} (hw : net.WellFormed) :
    ∀ x ∈ net.describe.floats, x.isFinite = true := by
  intro x hx
  obtain ⟨entry, hentry, hx⟩ := List.mem_flatMap.1 hx
  obtain ⟨h, hh, he⟩ := List.mem_filterMap.1 hentry
  obtain ⟨n, hn, rfl⟩ := Option.map_eq_some_iff.1 he
  exact Node.finite_of_check (hw.check h n hn ((hw.mem_order h).1 hh).1) x hx

/-! ### Texts -/

namespace Description

variable {d : Description}

/-- A description whose floats are finite is read back from its text. -/
theorem parse_text (h : ∀ x ∈ d.floats, x.isFinite = true) : parse d.text = .ok d := by
  have hread := d.ofJson?_toJson
  have hsame := d.mapFloats_eq fun x hx => Binary32.reread_eq (h x hx)
  rw [if_pos (List.all_eq_true.2 h), hsame] at hread
  rw [parse, text, d.written_toJson.parse?_pretty, Option.bind_some, hread]

/-- What is kept by the text of a description. -/
structure Kept (d : Description) : Prop where
  /-- The number of a finite float is read as the float. -/
  number : ∀ x ∈ d.floats, x.isFinite = true →
    (Json.parse? (Layout.json.numeral x).text).bind Binary32.ofJson? = some x
  /-- The text is read as the description, if all of its floats are finite. -/
  text : (∀ x ∈ d.floats, x.isFinite = true) → parse d.text = .ok d
  /-- The floats of a network are finite, and what is loaded from the text of its description
      answers all questions as the network does. -/
  network : ∀ net : Network, net.Arises → net.describe = d →
    (∀ x ∈ d.floats, x.isFinite = true)
      ∧ ∃ loaded, Network.buildText d.text = .ok loaded ∧ loaded.result = .ok ()
        ∧ loaded.state.describe = d ∧ net.SameAnswers loaded.state

/-- Saving and loading changes nothing: a description is read back float by float, with the sign of
    each zero, and a network that is loaded from its text is not told from the one that was saved. -/
theorem roundTrips (d : Description) : d.Kept where
  number x _ hx := by rw [Binary32.parse?_numeral hx, Binary32.reread_eq hx]
  text := parse_text
  network net hnet := by
    rintro rfl
    have hw := hnet.wellFormed
    have hfinite := hw.finite_floats
    obtain ⟨hbuilt, hdescribe⟩ := hw.build_describe
    refine ⟨hfinite, Network.build net.describe, ?_, hbuilt, hdescribe, ?_⟩
    · rw [Network.buildText, parse_text hfinite]
      rfl
    · exact Network.sameAnswers_of_describe_eq hw (Network.wellFormed_build hbuilt) hdescribe.symm

end Description

namespace Network

/-- A uniform whose components are the negative zero, the least float, the greatest one and one
    whose decimal lies next to a middle, and a panner. -/
def extremeFloats : Network :=
  (new {}).run
    [.add ⟨"tint", .uniform, .constant (.vec4 ⟨0x80000000⟩ ⟨1⟩ ⟨0x7f7fffff⟩ ⟨0x15ae43fd⟩), []⟩,
      .add ⟨"flow", .inMain, .panner ⟨0x3dcccccd⟩ ⟨0xbdcccccd⟩, []⟩,
      .connectSlot .emissive ⟨2, 1⟩ .value]

/-- The smallest, the greatest and some inconvenient floats are read back. -/
theorem roundTrips_extremeFloats : extremeFloats.Arises
    ∧ extremeFloats.describe.floats
      = [⟨0x80000000⟩, ⟨1⟩, ⟨0x7f7fffff⟩, ⟨0x15ae43fd⟩, ⟨0x3dcccccd⟩, ⟨0xbdcccccd⟩]
    ∧ ∃ loaded, buildText extremeFloats.describe.text = .ok loaded ∧ loaded.result = .ok ()
      ∧ loaded.state.describe = extremeFloats.describe ∧ extremeFloats.SameAnswers loaded.state := by
  have h : extremeFloats.Arises := (Arises.new {}).run (by decide +kernel)
  exact ⟨h, by decide +kernel, (extremeFloats.describe.roundTrips.network _ h rfl).2⟩

end Network

end MaterialNet
