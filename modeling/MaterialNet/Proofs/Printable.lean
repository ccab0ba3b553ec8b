import MaterialNet.Proofs.Hygiene
import MaterialNet.Proofs.Uniforms

namespace MaterialNet

/-!
# Printable programs

The lines that a session writes have no control characters, so newlines stand only between them,
and there is no zero byte in a text.  The zero byte between the two texts of a program therefore
separates them.

* `Printable` — a text without control characters
* `Stage.printable_program`, `Network.printable_evaluate` — the lines that are written
* `zero_mem_toUTF8` — what a zero byte in a text stands for
* `Network.Arises.unambiguous` — the texts of a program can be told from its bytes
-/

/-! ### Texts without control characters -/

/-- There is no control character in the text. -/
def Printable (s : String) : Prop := ∀ c ∈ s.toList, ' ' ≤ c

instance (s : String) : Decidable (Printable s) :=
  List.decidableBAll (fun c => ' ' ≤ c) s.toList

theorem Printable.append {s t : String} (hs : Printable s) (ht : Printable t) :
    Printable (s ++ t) := by
  intro c hc
  rw [String.toList_append] at hc
  exact (List.mem_append.1 hc).elim (hs c) (ht c)

theorem Printable.newline_not_mem {s : String} (h : Printable s) : '\n' ∉ s.toList := fun hm =>
  absurd (h _ hm) (by decide)

/-- Words are made of letters, digits and underscores. -/
theorem printable_of_isWord {w : String} (h : isWord w = true) : Printable w :=
  (spells_of_isWord h).1.printable nofun

/-- An expression that can be read as GLSL has no control character. -/
theorem Expr.Legible.printable {phrase : Phrase} {e : Expr} (h : e.Legible phrase) :
    Printable e.text := by
  obtain ⟨ts, last, hspells, -, hends, -⟩ := h.reads
  -- A comment would not end where something else follows the expression.
  refine hspells.printable fun hlast => ?_
  have hspace := hends ' ' (by decide)
  rw [hlast] at hspace
  cases hspace

theorem Declaration.printable {d : Declaration} (h : isWord d.name = true) :
    Printable d.text := by
  have hkeyword : Printable d.type.keyword := by cases d.type <;> decide +kernel
  have hafter := ((hkeyword.append (t := " ") (by decide +kernel)).append
    (printable_of_isWord h)).append (t := ";") (by decide +kernel)
  cases hstorage : d.storage with
  | uniform =>
    have hqualifier : Printable "uniform " := by decide +kernel
    have hall := hqualifier.append hafter
    simpa [text, hstorage, String.append_assoc] using hall
  | inMain => simpa [text, hstorage] using hafter

/-! ### The lines of a program -/

theorem printable_version (version : UInt32) :
    Printable ("#version " ++ toString version.toNat ++ " core") := by
  have hdigits : Printable (toString version.toNat) := by
    intro c hc
    have hdigit : c.isDigit = true := by
      refine Nat.isDigit_of_mem_toDigits (b := 10) (by decide) (by decide) (n := version.toNat) ?_
      simpa using hc
    refine Char.not_lt.1 fun hlt => ?_
    have hword := Lexeme.isIdentifierChar_control hlt
    simp [isIdentifierChar, Char.isAlphanum, hdigit] at hword
  exact (Printable.append (by decide +kernel) hdigits).append (by decide +kernel)

/-- The lines of a template. -/
theorem Stage.printable_of_mem (stage : Stage) {cs : List Char}
    (h : cs ∈ stage.opening ++ stage.middle ++ stage.closing) : Printable (String.ofList cs) := by
  have hlines : ∀ cs ∈ stage.opening ++ stage.middle ++ stage.closing,
      (cs.all fun c => ' ' ≤ c) = true := by
    cases stage <;> decide +kernel
  intro c hc
  rw [String.toList_ofList] at hc
  exact printable_of_all (hlines cs h) c hc

/-- The lines of a program, if those of the material are printable. -/
theorem Stage.printable_program {stage : Stage} {version : UInt32} {ds body : List String}
    (hds : ∀ d ∈ ds, Printable d) (hbody : ∀ l ∈ body, Printable l) :
    ∀ line ∈ stage.program version ds body, Printable line := by
  have hparts {cs : List Char} (h : cs ∈ stage.opening ++ stage.middle ++ stage.closing) :=
    stage.printable_of_mem h
  have hindent : Printable "    " := by decide +kernel
  simp only [program, List.forall_mem_append, List.forall_mem_cons, List.forall_mem_map]
  refine ⟨⟨⟨⟨⟨printable_version version, ?_⟩, hds⟩, ?_⟩, ?_⟩, ?_⟩
  · exact fun cs hcs => hparts (by simp [hcs])
  · exact fun cs hcs => hparts (by simp [hcs])
  · exact fun l hl => hindent.append (hbody l hl)
  · exact fun cs hcs => hparts (by simp [hcs])

/-! ### Zero bytes -/

/-- The text of printable lines has newlines besides their characters, and nothing else. -/
theorem mem_unlines {lines : List String} (h : ∀ line ∈ lines, Printable line) :
    ∀ c ∈ (unlines lines).toList, c = '\n' ∨ ' ' ≤ c := by
  intro c hc
  rw [toList_unlines, endAll, List.flatMap_map] at hc
  obtain ⟨line, hline, hc⟩ := List.mem_flatMap.1 hc
  rcases List.mem_append.1 hc with hc | hc
  · exact .inr (h line hline c hc)
  · exact .inl (List.mem_singleton.1 hc)

/-- No other character than the first of all has a zero byte. -/
theorem eq_of_zero_mem_utf8EncodeChar {c : Char} (h : 0 ∈ String.utf8EncodeChar c) :
    c = '\x00' := by
  have hzero {n : Nat} (hn : n < 256) (h : (0 : UInt8) = UInt8.ofNat n) : n = 0 := by
    have heq := congrArg UInt8.toNat h
    rw [UInt8.toNat_ofNat_of_lt' hn] at heq
    exact heq.symm
  unfold String.utf8EncodeChar at h
  dsimp only at h
  split_ifs at h
  · have hval : c.val.toNat = 0 := hzero (by omega) (List.mem_singleton.1 h)
    exact Char.ext (UInt32.toNat_inj.1 hval)
  -- Where there are several bytes, each of them is 128 or more.
  · simp only [List.mem_cons, List.not_mem_nil, or_false] at h
    rcases h with h | h <;> exact absurd (hzero (by omega) h) (by omega)
  · simp only [List.mem_cons, List.not_mem_nil, or_false] at h
    rcases h with h | h | h <;> exact absurd (hzero (by omega) h) (by omega)
  · simp only [List.mem_cons, List.not_mem_nil, or_false] at h
    rcases h with h | h | h | h <;> exact absurd (hzero (by omega) h) (by omega)

/-- A zero byte stands for the first of all characters. -/
theorem zero_mem_toUTF8 {s : String} (h : 0 ∈ s.toUTF8.data.toList) : '\x00' ∈ s.toList := by
  have hbytes : s.toUTF8.data.toList = s.toList.flatMap String.utf8EncodeChar := by
    rw [String.toUTF8, ← String.utf8Encode_toList, List.utf8Encode, List.toList_data_toByteArray]
  rw [hbytes] at h
  obtain ⟨c, hc, h⟩ := List.mem_flatMap.1 h
  exact eq_of_zero_mem_utf8EncodeChar h ▸ hc

/-- There is no zero byte in the text. -/
def ZeroFree (s : String) : Prop := 0 ∉ s.toUTF8.data.toList

theorem Printable.zeroFree {s : String} (h : Printable s) : ZeroFree s := fun hm =>
  absurd (h _ (zero_mem_toUTF8 hm)) (by decide)

theorem zeroFree_unlines {lines : List String} (h : ∀ line ∈ lines, Printable line) :
    ZeroFree (unlines lines) := fun hm =>
  (mem_unlines h _ (zero_mem_toUTF8 hm)).elim (by decide) (by decide)

/-- A zero byte separates two texts without zero bytes. -/
theorem Program.bytes_eq_iff {p p' : Program} (hvertex : ZeroFree p'.vertex)
    (hfragment : ZeroFree p'.fragment) :
    p.bytes = p'.bytes ↔ p.vertex = p'.vertex ∧ p.fragment = p'.fragment := by
  have htoUTF8 {s t : String} (h : s.toUTF8.data.toList = t.toUTF8.data.toList) : s = t :=
    String.toByteArray_inj.1 (ByteArray.ext (Array.toList_inj.1 h))
  constructor
  · intro h
    obtain ⟨hv, -, hf⟩ := (List.append_cons_inj_of_notMem hvertex hfragment).1 h.symm
    exact ⟨htoUTF8 hv.symm, htoUTF8 hf.symm⟩
  · rintro ⟨hv, hf⟩
    rw [bytes, bytes, hv, hf]

/-! ### What a session writes -/

/-- The texts that a session has written for an answer. -/
def Reply.texts : Reply → List String
  | .text s => [s]
  | .expr e => [e.text]
  | _ => []

namespace Network

open Session

variable {net : Network} {s s' : Session}

section Written

variable (hw : net.WellFormed)
include hw

/-- Whatever is computed is written in legible lines. -/
theorem legible_evaluate {x : Handle} {lines : List Line}
    (h : (evaluate net x).Gives s lines s') : ∀ l ∈ lines, l.Legible := by
  unfold evaluate at h
  obtain ⟨_, t, -, h⟩ := Action.gives_bind.1 h
  obtain ⟨node, hget, h⟩ := Action.gives_lift_bind.1 h
  have hnode := get_eq_ok.1 hget
  split at h
  · rename_i hsink
    obtain rfl := (hw.isSink_iff hnode).1 hsink
    replace h := Action.gives_getState_bind.1 h
    split at h
    · obtain ⟨rfl, -⟩ := Action.gives_pure.1 h
      exact nofun
    · obtain ⟨hwritten, -⟩ := planLines_gives (Action.gives_setState_bind.1 h)
      -- The sink counts as computed before its plan is carried out.
      exact hwritten.legible hw hnode (by simp)
  · rename_i hsink
    obtain ⟨out, -, -, hvisits, -, hcomputes⟩ := visit_gives h
    have hx : x ∈ net.order.toList :=
      (hw.mem_order x).2 ⟨fun heq => hsink ((hw.isSink_iff hnode).2 heq), by simp [hnode]⟩
    have horder := hvisits.mem_order hw (List.forall_mem_singleton.2 hx)
    exact hcomputes.legible hw fun y hy => ((hw.mem_order y).1 (horder y hy)).1

/-- What a facet is written as has no control character. -/
theorem printable_facetExpr {x : Handle} {node : Node} {facet : Facet} {e : Expr}
    (hn : net.node? x = some node) (he : node.facetExpr facet = .ok e) : Printable e.text := by
  refine (Node.accessible_facetExpr (hw.check x node hn ?_) he).part.printable
  rintro rfl
  have hkind : node.kind = .sink := of_decide_eq_true ((hw.isSink_iff hn).2 rfl)
  simp [Node.facetExpr, hkind] at he

/-- A stage is assembled from printable lines. -/
theorem printable_assemble (hfits : net.Fits) {stage : Stage} {text : String} (hs : Served net s)
    (h : (Session.assemble net stage).Gives s text s') :
    ∃ ds body, text = unlines (stage.program net.settings.version ds body)
      ∧ ∀ line ∈ stage.program net.settings.version ds body, Printable line := by
  obtain ⟨body, hwrite, hrender⟩ := Session.assemble_gives h
  obtain ⟨sink, out, hsink, -, -, hvisits, hdeclared, -, -, hwritten⟩ :=
    walks_agree hw hfits (hs.trustsAcyclic hw) hwrite
  rw [renderStage_eq] at hrender
  refine ⟨_, _, (Except.ok.inj hrender).symm, Stage.printable_program ?_ ?_⟩
  · have hfree := free_of_declared hw hdeclared (hw.ne_sink_of_mem_visits hsink hvisits)
    exact List.forall_mem_map.2 fun d hd => Declaration.printable (hfree d hd).word
  · exact List.forall_mem_map.2 fun l hl => (hwritten.legible hw hsink rfl l hl).printable

/-- A session that has been served answers without zero bytes. -/
theorem zeroFree_serve (hfits : net.Fits) (hs : Served net s) {r : Request} {reply : Reply}
    (h : (serve net r).Gives s reply s') : ∀ text ∈ reply.texts, ZeroFree text := by
  -- Two requests are answered with lines and one with an expression; the others have no text.
  cases r with
  | assemble stage =>
    obtain ⟨text, hassemble, rfl⟩ := Action.gives_bind_pure.1 h
    obtain ⟨_, _, rfl, hlines⟩ := printable_assemble hw hfits hs hassemble
    exact List.forall_mem_singleton.2 (zeroFree_unlines hlines)
  | evaluate x =>
    obtain ⟨lines, hevaluate, rfl⟩ := Action.gives_bind_pure.1 h
    have hlines : ∀ line ∈ lines.map Line.text, Printable line :=
      List.forall_mem_map.2 fun l hl => (legible_evaluate hw hevaluate l hl).printable
    have htext : linesText lines = unlines (lines.map Line.text) := by
      simp [linesText, unlines, Function.comp_def]
    exact List.forall_mem_singleton.2 (htext ▸ zeroFree_unlines hlines)
  | facetExpr x facet =>
    obtain ⟨node, hget, h⟩ := Action.gives_lift_bind.1 h
    obtain ⟨e, he, h⟩ := Action.gives_lift_bind.1 h
    obtain ⟨rfl, -⟩ := Action.gives_pure.1 h
    exact List.forall_mem_singleton.2 (printable_facetExpr hw (get_eq_ok.1 hget) he).zeroFree
  | facetType x facet =>
    obtain ⟨node, -, h⟩ := Action.gives_lift_bind.1 h
    obtain ⟨type, -, h⟩ := Action.gives_lift_bind.1 h
    obtain ⟨rfl, -⟩ := Action.gives_pure.1 h
    exact List.forall_mem_nil _
  | check | reset | stage | declarations | manifest =>
    obtain ⟨_, -, rfl⟩ := Action.gives_bind_pure.1 h
    exact List.forall_mem_nil _

/-- Neither of the texts of a program has a zero byte. -/
theorem zeroFree_compile (hfits : net.Fits) {p : Program}
    (h : net.compile.result = .ok p) : ZeroFree p.vertex ∧ ZeroFree p.fragment := by
  obtain ⟨s₁, s₂, hensure, hvertex, hfragment, -⟩ := Session.compile_gives ⟨h, rfl⟩
  have hs₁ : Served net s₁ := hensure.2 ▸ .check .fresh
  have hs₂ : Served net s₂ := hvertex.2 ▸ .assemble _ hs₁
  obtain ⟨_, _, htext, hlines⟩ := printable_assemble hw hfits hs₁ hvertex
  obtain ⟨_, _, htext', hlines'⟩ := printable_assemble hw hfits hs₂ hfragment
  rw [htext, htext']
  exact ⟨zeroFree_unlines hlines, zeroFree_unlines hlines'⟩

end Written

/-- The texts of a network have no zero bytes, and the bytes of a program stand for its two texts
    and for nothing else. -/
structure Unambiguous (net : Network) : Prop where
  /-- No text that a session answers with has a zero byte, whatever it has been asked before. -/
  answers : ∀ requests r reply,
    ((serve net r).run (Session.after net requests)).result = .ok reply →
      ∀ text ∈ reply.texts, ZeroFree text
  /-- Neither text of a program has one. -/
  programs : ∀ p, net.compile.result = .ok p → ZeroFree p.vertex ∧ ZeroFree p.fragment
  /-- Two programs, also those of different networks, have the same bytes if they have the same
      texts. -/
  bytes_eq_iff : ∀ p, net.compile.result = .ok p → ∀ other : Network, other.Arises →
    ∀ p', other.compile.result = .ok p' →
      (p.bytes = p'.bytes ↔ p.vertex = p'.vertex ∧ p.fragment = p'.fragment)

/-- The bytes of programs can be told apart wherever their texts can. -/
theorem Arises.unambiguous (h : net.Arises) : net.Unambiguous := by
  have hw := h.wellFormed
  have hfits := h.fits
  refine ⟨fun requests r reply hr => ?_, fun p hp => zeroFree_compile hw hfits hp,
    fun p _ other hother p' hp' => ?_⟩
  · exact zeroFree_serve hw hfits (served_after net requests) ⟨hr, rfl⟩
  · obtain ⟨hvertex, hfragment⟩ := zeroFree_compile hother.wellFormed hother.fits hp'
    exact Program.bytes_eq_iff hvertex hfragment

/-- A network that both stages read. -/
theorem unambiguous_bothStages : bothStages.Arises ∧ bothStages.Unambiguous := by
  have h : bothStages.Arises := (Arises.new { textureUnitBase := 4 }).run (by decide +kernel)
  exact ⟨h, h.unambiguous⟩

end Network

end MaterialNet
