import MaterialNet.Proofs.Configuring
import MaterialNet.Proofs.Printable

namespace MaterialNet

/-!
# How settings show in programs

What a network adds to its programs does not depend on the settings.  The version shows in the first
line of a program, the choice to announce slots in a comment before the lines of each slot, and the
first texture unit only in the manifest.

* `textLines`, `withoutSlotComments` — the lines of a text, and a text without some of them
* `Draft`, `Network.exists_draft` — what a stage adds to its template under all settings
* `Announces` — a text with its slots announced
* `Network.Lists.moved` — what a first texture unit is to a manifest
* `Network.Arises.presented` — how two settings differ
-/

/-! ### The lines of a text -/

/-- The lines of a text.  After a newline at its end there is an empty line. -/
def textLines (text : String) : List String := (text.toList.splitOn '\n').map String.ofList

/-- Lines that all end with a newline are parted by newlines, with nothing after the last. -/
theorem toList_unlines_eq_intercalate (lines : List String) :
    (unlines lines).toList = ['\n'].intercalate (lines.map String.toList ++ [[]]) := by
  rw [toList_unlines]
  induction lines with
  | nil => rfl
  | cons line rest ih =>
    obtain ⟨cs, more, hmore⟩ := List.exists_cons_of_ne_nil
      (List.append_ne_nil_of_right_ne_nil (rest.map String.toList) (List.cons_ne_nil [] []))
    rw [List.map_cons, List.cons_append, hmore, List.intercalate_cons_cons, ← hmore, ← ih]
    rfl

/-- Lines without control characters are the lines of their text. -/
theorem textLines_unlines {lines : List String} (h : ∀ line ∈ lines, Printable line) :
    textLines (unlines lines) = lines ++ [""] := by
  have hlines : ∀ cs ∈ lines.map String.toList ++ [[]], '\n' ∉ cs := by
    rw [List.forall_mem_append, List.forall_mem_map]
    exact ⟨fun line hline => (h line hline).newline_not_mem, by simp⟩
  rw [textLines, toList_unlines_eq_intercalate, List.splitOn_intercalate _ hlines (by simp)]
  simp

/-- One text of a program. -/
def Program.text (p : Program) : Stage → String
  | .vertex => p.vertex
  | .fragment => p.fragment

/-! ### Slot comments -/

/-- The line that announces a slot in a program. -/
def slotComment (slot : Slot) : String := "    // " ++ slot.label

/-- The line announces a slot. -/
def isSlotComment (line : String) : Bool := (Slot.all.map slotComment).contains line

/-- The text without the lines that announce slots. -/
def withoutSlotComments (text : String) : String :=
  "\n".intercalate ((textLines text).filter fun line => !isSlotComment line)

/-- The line that announces a slot is told by the test. -/
theorem isSlotComment_slotComment (slot : Slot) : isSlotComment (slotComment slot) = true := by
  cases slot <;> decide +kernel

/-- A slot comment is indented. -/
theorem isSlotComment_append {s t : String} {c : Char} (h : s.toList.head? = some c)
    (hc : c ≠ ' ') : isSlotComment (s ++ t) = false := by
  have hindent : ∀ slot ∈ Slot.all, (slotComment slot).toList.head? = some ' ' := by decide +kernel
  rw [Bool.eq_false_iff]
  intro hcomment
  obtain ⟨slot, hslot, heq⟩ := List.mem_map.1 (List.contains_iff_mem.1 hcomment)
  have hhead := hindent slot hslot
  rw [heq, String.toList_append, List.head?_append, h] at hhead
  exact hc (Option.some.inj hhead)

/-- Lines of a text that do not announce slots stay. -/
theorem withoutSlotComments_unlines {lines : List String} (h : ∀ line ∈ lines, Printable line) :
    withoutSlotComments (unlines lines)
      = unlines (lines.filter fun line => !isSlotComment line) := by
  have hempty : isSlotComment "" = false := by decide +kernel
  rw [← String.toList_inj, withoutSlotComments, textLines_unlines h, String.toList_intercalate,
    toList_unlines_eq_intercalate, List.filter_append, List.map_append]
  simp [hempty]

/-- Only a comment announces a slot. -/
theorem isSlotComment_line {l : Line} (h : l.Legible) (hl : l.statement? ≠ none ∨ l = .noInput) :
    isSlotComment ("    " ++ l.text) = false := by
  rcases hl with hl | rfl
  · rw [Bool.eq_false_iff]
    intro hcomment
    obtain ⟨slot, -, heq⟩ := List.mem_map.1 (List.contains_iff_mem.1 hcomment)
    have htext : (Line.label slot).text = l.text := by
      have hlist := congrArg String.toList heq
      rw [← String.toList_inj]
      simpa [slotComment, Line.text] using hlist
    -- The text of a label says nothing, and that of the line does.
    have hlabel := (Line.legible_label slot).reads
    rw [htext] at hlabel
    exact hl (h.reads.unique hlabel)
  · decide +kernel

theorem isSlotComment_declaration (d : Declaration) : isSlotComment d.text = false := by
  have hkeyword : ∃ c, d.type.keyword.toList.head? = some c ∧ c ≠ ' ' := by
    cases d.type <;> exact ⟨_, rfl, by decide⟩
  obtain ⟨c, hhead, hc⟩ := hkeyword
  unfold Declaration.text
  cases d.storage with
  | uniform =>
    simp only [String.append_assoc]
    exact isSlotComment_append (c := 'u') (by decide +kernel) (by decide)
  | inMain =>
    simp only [String.append_assoc, String.empty_append]
    exact isSlotComment_append hhead hc

theorem isSlotComment_version (version : UInt32) :
    isSlotComment ("#version " ++ toString version.toNat ++ " core") = false := by
  rw [String.append_assoc]
  exact isSlotComment_append (c := '#') (by decide +kernel) (by decide)

/-- No fixed line of a template is taken for a slot comment. -/
theorem isSlotComment_of_mem (stage : Stage) {cs : List Char}
    (h : cs ∈ stage.opening ++ stage.middle ++ stage.closing) :
    isSlotComment (String.ofList cs) = false := by
  have hlines : ∀ cs ∈ stage.opening ++ stage.middle ++ stage.closing,
      ∀ slot ∈ Slot.all, (slotComment slot).toList ≠ cs := by
    cases stage <;> decide +kernel
  rw [Bool.eq_false_iff]
  intro hcomment
  obtain ⟨slot, hslot, heq⟩ := List.mem_map.1 (List.contains_iff_mem.1 hcomment)
  exact hlines cs h slot hslot (by rw [heq, String.toList_ofList])

namespace Network

/-! ### What a stage adds to its template -/

/-- The lines of a block in a program. -/
def Block.texts (annotate : Bool) (b : Block) : List String :=
  (b.written annotate).map fun l => "    " ++ l.text

/-- The declarations of a stage and the blocks of its plan. -/
structure Draft where
  declarations : List Declaration
  blocks : List Block

namespace Draft

/-- The lines of a program up to those of the slots. -/
def above (d : Draft) (stage : Stage) (version : UInt32) : List String :=
  ("#version " ++ toString version.toNat ++ " core") :: stage.opening.map String.ofList
    ++ d.declarations.map Declaration.text ++ stage.middle.map String.ofList

/-- The lines of a program. -/
def lines (d : Draft) (stage : Stage) (σ : Settings) : List String :=
  d.above stage σ.version ++ d.blocks.flatMap (Block.texts σ.annotateSlots)
    ++ stage.closing.map String.ofList

/-- A template makes these lines of a draft. -/
theorem program_eq (d : Draft) (stage : Stage) (σ : Settings) :
    stage.program σ.version (d.declarations.map Declaration.text)
      ((d.blocks.flatMap (Block.written σ.annotateSlots)).map Line.text) = d.lines stage σ := by
  have hblocks : ((d.blocks.flatMap (Block.written σ.annotateSlots)).map Line.text).map
      ("    " ++ ·) = d.blocks.flatMap (Block.texts σ.annotateSlots) := by
    rw [List.map_map, List.map_flatMap]
    rfl
  rw [lines, ← hblocks]
  rfl

end Draft

variable {net : Network} {σ : Settings} {stage : Stage} {s s' t t' : Session}

/-- The draft is that of the stage: it declares what the stage needs, and its blocks are those of
    the plan. -/
structure Drafts (net : Network) (stage : Stage) (d : Draft) : Prop where
  steps : d.blocks.map Block.step = plan stage
  fills : ∃ sink, net.node? net.sink = some sink ∧ ∀ b ∈ d.blocks, net.Fills sink b
  declared : ∃ out, (∀ x ∈ out, x ≠ net.sink) ∧ net.reachable stage = .ok out
    ∧ List.Forall₂ net.Declared out d.declarations

/-- A node has one declaration. -/
theorem rightUnique_declared : Relator.RightUnique net.Declared := by
  rintro h d d' ⟨n, hn, hd⟩ ⟨n', hn', hd'⟩
  obtain rfl := Option.some.inj (hn.symm.trans hn')
  exact Option.some.inj (hd.symm.trans hd')

/-- Whatever two sessions have been asked before, and whatever their settings, a stage that both
    assemble is assembled from one draft. -/
theorem exists_draft (hw : net.WellFormed) (hfits : net.Fits) {text text' : String}
    (hs : Session.Served net s) (ht : Session.Served (net.withSettings σ) t)
    (hg : (Session.assemble net stage).Gives s text s')
    (hg' : (Session.assemble (net.withSettings σ) stage).Gives t text' t') :
    ∃ d, net.Drafts stage d ∧ text = unlines (d.lines stage net.settings)
      ∧ text' = unlines (d.lines stage σ) := by
  have hw' := hw.withSettings σ
  obtain ⟨body, hwrite, hrender⟩ := Session.assemble_gives hg
  obtain ⟨body', hwrite', hrender'⟩ := Session.assemble_gives hg'
  obtain ⟨sink, out, hsink, -, hreachable, hvisits, hdeclared, -, -, hwritten⟩ :=
    walks_agree hw hfits (hs.trustsAcyclic hw) hwrite
  obtain ⟨sink', out', hsink', -, -, hvisits', hdeclared', -, -, hwritten'⟩ :=
    walks_agree hw' hfits (ht.trustsAcyclic hw') hwrite'
  obtain rfl := Option.some.inj (hsink.symm.trans hsink')
  obtain rfl := (hvisits.withSettings σ).unique hvisits'
  have hds : s'.declarations.toList = t'.declarations.toList :=
    rightUnique_declared.forall₂ hdeclared hdeclared'
  -- Both texts come of one plan, so that their blocks are the same.
  obtain ⟨blocks, hsteps, hfills, rfl, rfl⟩ := hwritten.blocks hwritten' rfl
  have hne := hw.ne_sink_of_mem_visits hsink hvisits
  rw [renderStage_eq] at hrender hrender'
  rw [← hds] at hrender'
  refine ⟨⟨s'.declarations.toList, blocks⟩, ⟨hsteps, ⟨sink, hsink, hfills⟩, out, hne, hreachable,
    hdeclared⟩, ?_, ?_⟩
  · rw [← Draft.program_eq]
    exact (Except.ok.inj hrender).symm
  · rw [← Draft.program_eq]
    exact (Except.ok.inj hrender').symm

/-! ### Where slots are announced -/

/-- The lines of a block are legible, and they say something or stand where a slot has no input. -/
theorem Fills.legible (hw : net.WellFormed) {sink : Node} (hsink : net.node? net.sink = some sink)
    {b : Block} (h : net.Fills sink b) :
    ∀ l ∈ b.lines, l.Legible ∧ (l.statement? ≠ none ∨ l = .noInput) := by
  cases h with
  | composite => exact List.forall_mem_singleton.2 ⟨legible_compositeLine, .inl nofun⟩
  | unfed => exact List.forall_mem_singleton.2 ⟨Line.legible_noInput, .inr rfl⟩
  | @fed slot link out body value hl hne hbody hvalue =>
    have hassign := Line.legible_assign slot.spelled_target.1 slot.spelled_target.2
      (legible_readLink hw hsink hl hvalue).of_part
    -- A fed slot has the lines of its producers, the assignment, and those that decode a normal.
    refine List.forall_mem_append.2 ⟨fun l hl => ?_, List.forall_mem_cons.2
      ⟨⟨hassign, .inl nofun⟩, fun l hl => ?_⟩⟩
    · refine ⟨hbody.legible hw hne l hl, .inl ?_⟩
      obtain ⟨x, hx, events, hs⟩ := hbody.exists_of_mem l hl
      obtain ⟨n, -, htarget, -⟩ := reads_of_statementOf hw (hne x hx) hs
      cases l <;> simp_all [Line.statement?, Line.target?]
    · unfold decoding at hl
      split at hl
      · refine ⟨legible_normalDecode l hl, .inl ?_⟩
        simp only [normalDecode, List.mem_cons, List.not_mem_nil, or_false] at hl
        rcases hl with rfl | rfl <;> simp [Line.statement?]
      · cases hl

/-- A block is announced by one comment, without which its lines stay as they are. -/
theorem filter_texts {b : Block} (h : ∀ l ∈ b.lines, isSlotComment ("    " ++ l.text) = false)
    (annotate : Bool) :
    (b.texts annotate).filter (fun line => !isSlotComment line) = b.texts false
      ∧ (b.texts true).filter isSlotComment = b.step.slot?.toList.map slotComment := by
  have hkeep : (b.lines.map fun l => "    " ++ l.text).filter (fun line => !isSlotComment line)
      = b.lines.map fun l => "    " ++ l.text := by
    rw [List.filter_eq_self, List.forall_mem_map]
    exact fun l hl => by rw [h l hl]; rfl
  have hdrop : (b.lines.map fun l => "    " ++ l.text).filter isSlotComment = [] := by
    rw [List.filter_eq_nil_iff, List.forall_mem_map]
    exact fun l hl => by rw [h l hl]; nofun
  obtain ⟨step, lines⟩ := b
  -- Only a slot is announced.
  cases step with
  | composite => exact ⟨hkeep, hdrop⟩
  | slot slot =>
    have hlabel : "    " ++ (Line.label slot).text = slotComment slot :=
      String.append_assoc.symm
    have hcomment := isSlotComment_slotComment slot
    have htrue : Block.texts true ⟨.slot slot, lines⟩
        = slotComment slot :: Block.texts false ⟨.slot slot, lines⟩ :=
      congrArg (· :: Block.texts false ⟨.slot slot, lines⟩) hlabel
    refine ⟨?_, ?_⟩
    · cases annotate with
      | false => exact hkeep
      | true =>
        rw [htrue, List.filter_cons_of_neg (by simp [hcomment])]
        exact hkeep
    · rw [htrue, List.filter_cons_of_pos hcomment]
      exact congrArg _ hdrop

/-- Around the lines of the slots there is no slot comment. -/
theorem isSlotComment_around (d : Draft) (stage : Stage) (version : UInt32) :
    (∀ line ∈ d.above stage version, isSlotComment line = false)
      ∧ ∀ line ∈ stage.closing.map String.ofList, isSlotComment line = false := by
  have hparts {cs : List Char} (h : cs ∈ stage.opening ++ stage.middle ++ stage.closing) :=
    isSlotComment_of_mem stage h
  simp only [Draft.above, List.forall_mem_append, List.forall_mem_cons, List.forall_mem_map]
  refine ⟨⟨⟨⟨isSlotComment_version version, ?_⟩, fun x _ => isSlotComment_declaration x⟩, ?_⟩, ?_⟩
  · exact fun cs hcs => hparts (by simp [hcs])
  · exact fun cs hcs => hparts (by simp [hcs])
  · exact fun cs hcs => hparts (by simp [hcs])

namespace Drafts

variable {d : Draft} (h : net.Drafts stage d) (hw : net.WellFormed)
include h hw

/-- The lines of a program are printable. -/
theorem printable (σ : Settings) : ∀ line ∈ d.lines stage σ, Printable line := by
  obtain ⟨sink, hsink, hfills⟩ := h.fills
  obtain ⟨out, hne, -, hdeclared⟩ := h.declared
  rw [← Draft.program_eq]
  refine Stage.printable_program (List.forall_mem_map.2 fun x hx => ?_)
    (List.forall_mem_map.2 fun l hl => ?_)
  · exact Declaration.printable (free_of_declared hw hdeclared hne x hx).word
  · obtain ⟨b, hb, hl⟩ := List.mem_flatMap.1 hl
    rcases b.mem_written hl with hl | ⟨slot, rfl⟩
    · exact ((hfills b hb).legible hw hsink l hl).1.printable
    · exact (Line.legible_label slot).printable

/-- Without its slot comments a program is as it would be without announcements. -/
theorem filter_lines (σ : Settings) :
    (d.lines stage σ).filter (fun line => !isSlotComment line)
        = d.lines stage { σ with annotateSlots := false }
      ∧ (d.lines stage { σ with annotateSlots := true }).filter isSlotComment
        = stage.slots.map slotComment := by
  obtain ⟨sink, hsink, hfills⟩ := h.fills
  have htexts {b : Block} (hb : b ∈ d.blocks) := filter_texts (b := b)
    (fun l hl => ((hfills b hb).legible hw hsink l hl).elim isSlotComment_line) σ.annotateSlots
  obtain ⟨habove, hbelow⟩ := isSlotComment_around d stage σ.version
  have hkeep {lines : List String} (h : ∀ line ∈ lines, isSlotComment line = false) :
      lines.filter (fun line => !isSlotComment line) = lines
        ∧ lines.filter isSlotComment = [] :=
    ⟨List.filter_eq_self.2 fun line hline => by rw [h line hline]; rfl,
      List.filter_eq_nil_iff.2 fun line hline => by rw [h line hline]; nofun⟩
  simp only [Draft.lines, List.filter_append, List.filter_flatMap, hkeep habove, hkeep hbelow]
  refine ⟨?_, ?_⟩
  · congr 2
    exact List.flatMap_congr fun b hb => (htexts hb).1
  · have hslots : stage.slots = d.blocks.flatMap fun b => b.step.slot?.toList := by
      rw [Stage.slots, ← h.steps, List.filterMap_map, List.filterMap_eq_flatMap_toList]
      rfl
    rw [hslots, List.map_flatMap, List.nil_append, List.append_nil]
    exact List.flatMap_congr fun b hb => (htexts hb).2

end Drafts

/-! ### What settings change -/

/-- One text has its slots announced and the other has not: the comments stand right before the
    lines of each slot of the stage, and they are all that is added. -/
structure Announces (net : Network) (stage : Stage) (plain announced : String) : Prop where
  deleted : withoutSlotComments announced = plain
  comments : (textLines announced).filter isSlotComment = stage.slots.map slotComment
  /-- Each step of the plan has a block of lines, which is the same but for the comment. -/
  blocks : ∃ above below sink, ∃ blocks : List Block, net.node? net.sink = some sink
    ∧ blocks.map Block.step = plan stage ∧ (∀ b ∈ blocks, net.Fills sink b)
    ∧ plain = unlines (above ++ blocks.flatMap (Block.texts false) ++ below)
    ∧ announced = unlines (above ++ blocks.flatMap (Block.texts true) ++ below)

/-- With slots announced, a draft gives the text without them and the comments. -/
theorem Drafts.announces {d : Draft} (h : net.Drafts stage d) (hw : net.WellFormed)
    {σ σ' : Settings} (hversion : σ.version = σ'.version) (hplain : σ.annotateSlots = false)
    (hannounced : σ'.annotateSlots = true) :
    net.Announces stage (unlines (d.lines stage σ)) (unlines (d.lines stage σ')) := by
  obtain ⟨hfilter, hcomments⟩ := h.filter_lines hw σ'
  have hprintable := h.printable hw σ'
  have hlines : d.lines stage { σ' with annotateSlots := false } = d.lines stage σ := by
    simp only [Draft.lines, hversion, hplain]
  have hlines' : d.lines stage { σ' with annotateSlots := true } = d.lines stage σ' := by
    simp only [Draft.lines, hannounced]
  refine ⟨?_, ?_, ?_⟩
  · rw [withoutSlotComments_unlines hprintable, hfilter, hlines]
  · have hempty : isSlotComment "" = false := by decide +kernel
    rw [textLines_unlines hprintable, List.filter_append, ← hlines', hcomments]
    simp [hempty]
  · obtain ⟨sink, hsink, hfills⟩ := h.fills
    refine ⟨d.above stage σ'.version, stage.closing.map String.ofList, sink, d.blocks, hsink,
      h.steps, hfills, ?_, ?_⟩
    · rw [Draft.lines, hversion, hplain]
    · rw [Draft.lines, hannounced]

/-- The line of the version. -/
def versionLine (σ : Settings) : String := "#version " ++ toString σ.version.toNat ++ " core"

/-- The texts differ in the line of the version only, which is the first one. -/
def Reheaded (σ σ' : Settings) (text text' : String) : Prop :=
  ∃ rest, text = versionLine σ ++ "\n" ++ rest ∧ text' = versionLine σ' ++ "\n" ++ rest

/-- Another version gives another first line of the text of a draft. -/
theorem Draft.reheaded (d : Draft) (stage : Stage) {σ σ' : Settings}
    (h : σ.annotateSlots = σ'.annotateSlots) :
    Reheaded σ σ' (unlines (d.lines stage σ)) (unlines (d.lines stage σ')) := by
  refine ⟨unlines (stage.opening.map String.ofList ++ d.declarations.map Declaration.text
    ++ stage.middle.map String.ofList ++ d.blocks.flatMap (Block.texts σ.annotateSlots)
    ++ stage.closing.map String.ofList), ?_, ?_⟩
  · rw [← unlines_cons]
    rfl
  · rw [← unlines_cons, h]
    rfl

/-- An entry of a manifest with its unit, if it has one, moved along with the first unit. -/
structure Moved (base base' : UInt32) (u u' : Uniform) : Prop where
  name : u.name = u'.name
  type : u.type = u'.type
  default : u.default = u'.default
  binding : u.binding = none ∧ u'.binding = none
    ∨ ∃ unit unit', u.binding = some unit ∧ u'.binding = some unit'
      ∧ unit.toNat + base'.toNat = unit'.toNat + base.toNat

/-- Entries for one node differ in their units only, and only if the node is a texture. -/
theorem Enters.moved {base base' : UInt32} {x : Handle} {u u' : Uniform} (hu : net.Enters x u)
    (hu' : net.Enters x u')
    (hunits : u.type = .texture → ∃ unit unit', u.binding = some unit ∧ u'.binding = some unit'
      ∧ unit.toNat + base'.toNat = unit'.toNat + base.toNat) : Moved base base' u u' := by
  have htexture := hu.texture_iff
  obtain ⟨n, hn, -, hname, htype, hkind⟩ := hu
  obtain ⟨n', hn', -, hname', htype', hkind'⟩ := hu'
  obtain rfl := Option.some.inj (hn.symm.trans hn')
  refine ⟨hname.trans hname'.symm, Option.some.inj (htype.symm.trans htype'), ?_, ?_⟩
  · rcases hkind with ⟨hk, hd⟩ | ⟨value, hk, -, hd⟩ <;>
      rcases hkind' with ⟨hk', hd'⟩ | ⟨value', hk', -, hd'⟩
    · rw [hd, hd']
    · cases hk.symm.trans hk'
    · cases hk.symm.trans hk'
    · obtain rfl := NodeKind.constant.inj (hk.symm.trans hk')
      rw [hd, hd']
  · rcases hkind with ⟨hk, -⟩ | ⟨value, hk, hb, -⟩
    · exact .inr (hunits (htexture.2 ((isTexture_iff hn).2 hk)))
    · rcases hkind' with ⟨hk', -⟩ | ⟨value', -, hb', -⟩
      · cases hk.symm.trans hk'
      · exact .inl ⟨hb, hb'⟩

/-- Entries for the same nodes, the textures among them bound to consecutive units. -/
theorem forall₂_moved {base base' : UInt32} {nodes : List Handle} {us us' : List Uniform}
    (he : List.Forall₂ net.Enters nodes us) (he' : List.Forall₂ net.Enters nodes us') {c k : Nat}
    (hb : ∀ i u, (us.filter fun u => u.type = .texture)[i]? = some u →
      ∃ unit, u.binding = some unit ∧ unit.toNat = c + i)
    (hb' : ∀ i u, (us'.filter fun u => u.type = .texture)[i]? = some u →
      ∃ unit, u.binding = some unit ∧ unit.toNat = k + i)
    (hc : c + base'.toNat = k + base.toNat) :
    List.Forall₂ (Moved base base') us us' := by
  induction he generalizing us' c k with
  | nil =>
    cases he'
    exact .nil
  | @cons x u nodes us hu hrest ih =>
    obtain _ | @⟨_, u', _, us', hu', hrest'⟩ := he'
    have htype : u.type = .texture ↔ u'.type = .texture := hu.texture_iff.trans hu'.texture_iff.symm
    by_cases ht : u.type = .texture
    · -- The first texture takes the first unit, and the others go on with the next one.
      have ht' := htype.1 ht
      simp only [List.filter_cons, ht, ht', decide_true, if_true] at hb hb'
      obtain ⟨unit, hunit, hvalue⟩ := hb 0 u rfl
      obtain ⟨unit', hunit', hvalue'⟩ := hb' 0 u' rfl
      refine .cons (hu.moved hu' fun _ => ⟨unit, unit', hunit, hunit', by omega⟩) ?_
      refine ih (c := c + 1) (k := k + 1) hrest' (fun i v hv => ?_) (fun i v hv => ?_) (by omega)
      · obtain ⟨unit, hunit, hvalue⟩ := hb (i + 1) v hv
        exact ⟨unit, hunit, by omega⟩
      · obtain ⟨unit, hunit, hvalue⟩ := hb' (i + 1) v hv
        exact ⟨unit, hunit, by omega⟩
    · have ht' := mt htype.2 ht
      simp only [List.filter_cons, ht, ht', decide_false, Bool.false_eq_true, if_false] at hb hb'
      exact .cons (hu.moved hu' fun h => absurd h ht) (ih hrest' hb hb' hc)

/-- Another first unit moves every entry of the manifest along. -/
theorem Lists.moved {listed : List Handle} {m m' : Manifest} {bound bound' : UInt32}
    (hl : net.Lists listed m bound) (hl' : (net.withSettings σ).Lists listed m' bound') :
    List.Forall₂ (Moved net.settings.textureUnitBase σ.textureUnitBase) m.entries.toList
      m'.entries.toList :=
  forall₂_moved hl.entries hl'.entries (fun _ _ hu => (hl.textures_getElem hu).2)
    (fun _ _ hu => (hl'.textures_getElem hu).2) (Nat.add_comm _ _)

/-! ### Two settings -/

/-- Both fail with one fault, or both answer, with related answers. -/
def Agree {α β : Type} (R : α → β → Prop) (r : Except Fault α) (r' : Except Fault β) : Prop :=
  (∃ fault, r = .error fault ∧ r' = .error fault) ∨ ∃ a b, r = .ok a ∧ r' = .ok b ∧ R a b

section Both

variable (hw : net.WellFormed) (hfits : net.Fits)
include hw hfits

/-- The manifest of a program lists the uniforms that the vertex stage declares, and then those of
    the fragment stage. -/
theorem compile_lists {p : Program} (hp : net.compile.result = .ok p) :
    ∃ sink vertex fragment bound, net.node? net.sink = some sink
      ∧ Visits net ∅ (slotProducers sink Stage.vertex.slots) vertex
      ∧ Visits net ∅ (slotProducers sink Stage.fragment.slots) fragment
      ∧ net.Lists (net.enlist (net.enlist [] vertex) fragment) p.manifest bound := by
  obtain ⟨s₁, s₂, hensure, hvertex, hfragment, hm⟩ := Session.compile_gives ⟨hp, rfl⟩
  obtain ⟨_, hwrite, -⟩ := Session.assemble_gives hvertex
  obtain ⟨_, hwrite', -⟩ := Session.assemble_gives hfragment
  obtain ⟨sink, vertex, hsink, hvisits, -, hlists⟩ := Session.writeStage_collects hw hfits hwrite
  obtain ⟨sink', fragment, hsink', hvisits', -, hlists'⟩ :=
    Session.writeStage_collects hw hfits hwrite'
  obtain rfl := Option.some.inj (hsink.symm.trans hsink')
  have hlists₁ : net.Lists [] s₁.manifest s₁.boundTextures := by
    rw [(Session.ensureAcyclic_gives hensure).1]
    exact lists_nil
  rw [hm]
  exact ⟨sink, vertex, fragment, _, hsink, hvisits, hvisits', hlists' _ (hlists _ hlists₁)⟩

/-- The programs of a network under two settings come from the same drafts, and their manifests are
    those of the same nodes. -/
theorem compile_drafts {p p' : Program} (hp : net.compile.result = .ok p)
    (hp' : (net.withSettings σ).compile.result = .ok p') :
    (∀ stage, ∃ d, net.Drafts stage d ∧ p.text stage = unlines (d.lines stage net.settings)
      ∧ p'.text stage = unlines (d.lines stage σ))
    ∧ List.Forall₂ (Moved net.settings.textureUnitBase σ.textureUnitBase)
      p.manifest.entries.toList p'.manifest.entries.toList := by
  obtain ⟨s₁, s₂, hensure, hvertex, hfragment, -⟩ := Session.compile_gives ⟨hp, rfl⟩
  obtain ⟨t₁, t₂, hensure', hvertex', hfragment', -⟩ := Session.compile_gives ⟨hp', rfl⟩
  have hs₁ : Session.Served net s₁ := hensure.2 ▸ .check .fresh
  have ht₁ : Session.Served (net.withSettings σ) t₁ := hensure'.2 ▸ .check .fresh
  refine ⟨fun stage => ?_, ?_⟩
  · cases stage with
    | vertex => exact exists_draft hw hfits hs₁ ht₁ hvertex hvertex'
    | fragment =>
      exact exists_draft hw hfits (hvertex.2 ▸ .assemble _ hs₁) (hvertex'.2 ▸ .assemble _ ht₁)
        hfragment hfragment'
  · obtain ⟨sink, vertex, fragment, _, hsink, hvisits, hvisits₂, hlists⟩ :=
      compile_lists hw hfits hp
    obtain ⟨sink', vertex', fragment', _, hsink', hvisits', hvisits₂', hlists'⟩ :=
      compile_lists (hw.withSettings σ) hfits hp'
    obtain rfl := Option.some.inj (hsink.symm.trans hsink')
    obtain rfl := (hvisits.withSettings σ).unique hvisits'
    obtain rfl := (hvisits₂.withSettings σ).unique hvisits₂'
    exact hlists.moved hlists'

variable (hbase : net.settings.textureUnitBase = σ.textureUnitBase)
include hbase

/-- With one first texture unit a stage is refused under both settings or under none, and otherwise
    it has one draft. -/
theorem assemble_agree (stage : Stage) {R : String → String → Prop}
    (hR : ∀ d, net.Drafts stage d →
      R (unlines (d.lines stage net.settings)) (unlines (d.lines stage σ))) :
    Agree R (net.assemble stage).result ((net.withSettings σ).assemble stage).result := by
  rcases Session.assemble_parallel hbase.symm stage .fresh .fresh rfl with
    ⟨text, text', s', t', hg, hg', -⟩ | ⟨fault, s', t', hf, hf'⟩
  · obtain ⟨d, hd, rfl, rfl⟩ := exists_draft hw hfits .fresh .fresh hg hg'
    exact .inr ⟨_, _, hg.1, hg'.1, hR d hd⟩
  · exact .inl ⟨fault, hf.1, hf'.1⟩

/-- If the texts of every draft are related, then so are programs, with one manifest. -/
theorem compile_agree {R : Stage → String → String → Prop}
    (hR : ∀ stage d, net.Drafts stage d →
      R stage (unlines (d.lines stage net.settings)) (unlines (d.lines stage σ))) :
    Agree (fun p p' => p.manifest = p'.manifest ∧ ∀ stage, R stage (p.text stage) (p'.text stage))
      net.compile.result (net.withSettings σ).compile.result := by
  rcases Session.compile_parallel hbase.symm .fresh .fresh rfl with
    ⟨p, p', s', t', hg, hg', hm, -⟩ | ⟨fault, s', t', hf, hf'⟩
  · refine .inr ⟨p, p', hg.1, hg'.1, hm, fun stage => ?_⟩
    obtain ⟨d, hd, htext, htext'⟩ := (compile_drafts hw hfits hg.1 hg'.1).1 stage
    rw [htext, htext']
    exact hR stage d hd
  · exact .inl ⟨fault, hf.1, hf'.1⟩

end Both

/-- What two settings make of a network. -/
structure Presented (net : Network) (σ σ' : Settings) : Prop where
  /-- Another version shows in the first line of each text and nowhere else. -/
  version : σ.textureUnitBase = σ'.textureUnitBase → σ.annotateSlots = σ'.annotateSlots →
    (∀ stage, Agree (Reheaded σ σ') ((net.withSettings σ).assemble stage).result
      ((net.withSettings σ').assemble stage).result)
    ∧ Agree (fun p p' => p.manifest = p'.manifest
        ∧ ∀ stage, Reheaded σ σ' (p.text stage) (p'.text stage))
      (net.withSettings σ).compile.result (net.withSettings σ').compile.result
  /-- Announcing slots adds a comment before the lines of each slot and changes nothing else. -/
  annotation : σ.version = σ'.version → σ.textureUnitBase = σ'.textureUnitBase →
    σ.annotateSlots = false → σ'.annotateSlots = true →
    (∀ stage, Agree ((net.withSettings σ).Announces stage)
      ((net.withSettings σ).assemble stage).result ((net.withSettings σ').assemble stage).result)
    ∧ Agree (fun p p' => p.manifest = p'.manifest
        ∧ ∀ stage, (net.withSettings σ).Announces stage (p.text stage) (p'.text stage))
      (net.withSettings σ).compile.result (net.withSettings σ').compile.result
  /-- Another first texture unit moves all bindings along, if there are enough units. -/
  units : σ.version = σ'.version → σ.annotateSlots = σ'.annotateSlots →
    ∀ p p', (net.withSettings σ).compile.result = .ok p →
      (net.withSettings σ').compile.result = .ok p' →
      p.vertex = p'.vertex ∧ p.fragment = p'.fragment
        ∧ List.Forall₂ (Moved σ.textureUnitBase σ'.textureUnitBase) p.manifest.entries.toList
          p'.manifest.entries.toList

/-- Settings shape the text of programs and the units of textures, and nothing else. -/
theorem Arises.presented (h : net.Arises) (σ σ' : Settings) : net.Presented σ σ' := by
  have hw := h.wellFormed.withSettings σ
  have hfits : (net.withSettings σ).Fits := h.fits
  refine ⟨fun hbase hannotate => ?_, fun hversion hbase hplain hannounced => ?_,
    fun hversion hannotate p p' hp hp' => ?_⟩
  · exact ⟨fun stage => assemble_agree hw hfits hbase stage fun d _ => d.reheaded stage hannotate,
      compile_agree hw hfits hbase fun stage d _ => d.reheaded stage hannotate⟩
  · exact ⟨fun stage => assemble_agree hw hfits hbase stage fun d hd =>
        hd.announces hw hversion hplain hannounced,
      compile_agree hw hfits hbase fun stage d hd =>
        hd.announces hw hversion hplain hannounced⟩
  · obtain ⟨htexts, hmoved⟩ := compile_drafts hw hfits hp hp'
    have hlines (d : Draft) (stage : Stage) : d.lines stage σ = d.lines stage σ' := by
      rw [Draft.lines, Draft.lines, hversion, hannotate]
    have htext (stage : Stage) : p.text stage = p'.text stage := by
      obtain ⟨d, -, ht, ht'⟩ := htexts stage
      rw [ht, ht']
      exact congrArg unlines (hlines d stage)
    exact ⟨htext .vertex, htext .fragment, hmoved⟩

/-- Two versions of a network that both stages read. -/
theorem presented_bothStages : bothStages.Arises
    ∧ bothStages.Presented { version := 330 } { version := 450 }
    ∧ bothStages.Presented {} { annotateSlots := true }
    ∧ bothStages.Presented {} { textureUnitBase := 7 } := by
  have h : bothStages.Arises := (Arises.new { textureUnitBase := 4 }).run (by decide +kernel)
  exact ⟨h, h.presented _ _, h.presented _ _, h.presented _ _⟩

end Network

end MaterialNet
