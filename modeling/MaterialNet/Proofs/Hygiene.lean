import MaterialNet.Proofs.Emission
import MaterialNet.Proofs.Vocabulary

namespace MaterialNet

/-!
# Name hygiene

The names that a material brings into a program are distinct from each other, and the program uses
none of them for anything else: not for a variable of its own, and not for a function that any of
its lines calls.  No word that is taken can be the name of a node or of a sample, so it is enough
that whatever a program calls is taken.

* `Node.introduces`, `Network.introduced` — the names that a material brings in
* `Tame` — tokens that call only words that are taken
* `Network.Arises.hygienic` — the names are apart from each other and from the program's own
-/

/-! ### Names that are brought in -/

/-- The names that a node brings into a program: its own, and for a texture that of its sample. -/
def Node.introduces (n : Node) : List String :=
  n.id :: if n.kind = .texture then [n.id ++ "_sample"] else []

/-- A node introduces the names that it takes. -/
theorem Node.mem_introduces {n : Node} {x : String} : x ∈ n.introduces ↔ n.Takes x := by
  by_cases hk : n.kind = .texture
  · simp [introduces, Takes, hk, variableName_of_texture hk, eq_comm]
  · simp [introduces, Takes, hk, variableName_of_ne_texture hk, eq_comm]

/-- A node introduces no name twice. -/
theorem Node.nodup_introduces (n : Node) : n.introduces.Nodup := by
  unfold introduces
  split
  · have hne : n.id ≠ n.id ++ "_sample" := fun h => by
      have hlength := congrArg String.length h
      simp at hlength
    simpa using hne
  · exact List.nodup_singleton _

/-! ### What a program calls -/

/-- Tokens that call only words that are taken, and that do not begin with a bracket, so that
    nothing that stands before them is called. -/
structure Tame (ts : List Token) : Prop where
  head : ts.head? ≠ some (.sign '(')
  callees : ∀ w ∈ callees ts, isTaken w = true

namespace Tame

variable {ts ts' : List Token}

theorem nil : Tame [] := ⟨nofun, nofun⟩

/-- A program that is tame in two parts is tame, since a call needs two tokens of one part. -/
theorem append (h : Tame ts) (h' : Tame ts') : Tame (ts ++ ts') where
  head := by
    cases ts with
    | nil => exact h'.head
    | cons => exact h.head
  callees := by
    rw [callees_append h'.head]
    exact List.forall_mem_append.2 ⟨h.callees, h'.callees⟩

/-- A program is tame if all of its parts are. -/
theorem flatMap {α : Type} {f : α → List Token} {l : List α} (h : ∀ a ∈ l, Tame (f a)) :
    Tame (l.flatMap f) := by
  induction l with
  | nil => exact nil
  | cons a l ih =>
    obtain ⟨ha, hl⟩ := List.forall_mem_cons.1 h
    exact ha.append (ih hl)

/-- Without a bracket nothing is called. -/
theorem of_not_mem (h : .sign '(' ∉ ts) : Tame ts where
  head hhead := h (List.mem_of_head? hhead)
  callees _ hw := absurd (mem_of_mem_callees hw) h

end Tame

/-- What can be called is a taken name. -/
theorem isTaken_of_isCallable {w : String} (h : isCallable w = true) : isTaken w = true := by
  have hkeywords : ∀ w ∈ constructorNames, w ∈ keywords := by decide +kernel
  simp only [isCallable, isTaken, Bool.or_eq_true, List.contains_iff_mem] at h ⊢
  exact h.elim .inr fun hw => .inl (.inr (hkeywords w hw))

/-- What a legible line calls is taken. -/
theorem Line.Legible.tame {l : Line} (h : l.Legible) : Tame (programTokens l.text) := by
  have htokens {ts : List Token} (hts : tokens? l.text = some ts) : programTokens l.text = ts :=
    tokensOf_of_tokens? hts h.oneLine
  -- A legible line is a comment, without tokens, or a statement of the grammar.
  cases hs : l.statement? with
  | none =>
    have hreads := hs ▸ h.reads
    cases hreads with
    | comment hts => exact htokens hts ▸ .nil
  | some s =>
    have hreads := hs ▸ h.reads
    cases hreads with
    | statement hts hstatement =>
      rw [htokens hts]
      refine ⟨?_, fun w hw => isTaken_of_isCallable (isCallable_of_statementReads hstatement w hw)⟩
      cases hstatement <;> simp

/-- The functions that the templates call, and the words that stand before a bracket otherwise. -/
def templateCallees : List String := ["layout", "main", "normalize", "mat3", "vec3", "vec4"]

/-- What the lines of a template call is taken. -/
theorem Stage.tame_of_mem (stage : Stage) {cs : List Char}
    (h : cs ∈ stage.opening ++ stage.middle ++ stage.closing) : Tame (tokensOf cs) := by
  have htaken : ∀ w ∈ templateCallees, isTaken w = true := by decide +kernel
  -- The lines of a template are fixed, so what they call is listed.
  have hlines : ((stage.opening ++ stage.middle ++ stage.closing).all fun cs =>
      (tokensOf cs).head? ≠ some (.sign '(')
        ∧ (callees (tokensOf cs)).all templateCallees.contains) = true := by
    cases stage <;> decide +kernel
  obtain ⟨hhead, hcallees⟩ := of_decide_eq_true (List.all_eq_true.1 hlines cs h)
  refine ⟨hhead, fun w hw => htaken w ?_⟩
  exact List.contains_iff_mem.1 (List.all_eq_true.1 hcallees w hw)

/-- No bracket is part of a word. -/
theorem bracket_not_mem_of_isWord {w : String} (h : isWord w = true) : '(' ∉ w.toList := by
  unfold isWord at h
  split at h
  · cases h
  · rename_i c cs hw
    rw [hw]
    rw [Bool.and_eq_true, List.all_eq_true] at h
    rintro (_ | ⟨_, hmem⟩)
    · exact absurd h.1 (by decide)
    · exact absurd (h.2 _ hmem) (by decide)

/-- A declaration calls nothing. -/
theorem Declaration.tame {d : Declaration} (h : isWord d.name = true) :
    Tame (programTokens d.text) := by
  have hkeyword : '(' ∉ d.type.keyword.toList := by cases d.type <;> decide +kernel
  have hname := bracket_not_mem_of_isWord h
  refine .of_not_mem (sign_not_mem_tokensOf ?_)
  unfold text
  cases d.storage <;> simp [hkeyword, hname]

/-- The first line calls nothing. -/
theorem tame_version (version : UInt32) :
    Tame (programTokens ("#version " ++ toString version.toNat ++ " core")) := by
  have hdigits : '(' ∉ Nat.toDigits 10 version.toNat := fun h => by
    have hdigit : ('(' : Char).isDigit = true :=
      Nat.isDigit_of_mem_toDigits (by decide) (by decide) h
    exact absurd hdigit (by decide)
  refine .of_not_mem (sign_not_mem_tokensOf ?_)
  simp [hdigits]

namespace Network

variable {net : Network} {stage : Stage} {out : List Handle}

/-- The names that some nodes bring into a program. -/
def introduced (net : Network) (out : List Handle) : List String :=
  (out.filterMap net.node?).flatMap Node.introduces

/-- The names that a stage introduces are those that its nodes take. -/
theorem mem_introduced {x : String} :
    x ∈ net.introduced out ↔ ∃ h ∈ out, ∃ n, net.node? h = some n ∧ n.Takes x := by
  simp only [introduced, List.mem_flatMap, List.mem_filterMap, Node.mem_introduces]
  constructor
  · rintro ⟨n, ⟨h, hh, hn⟩, hx⟩
    exact ⟨h, hh, n, hn, hx⟩
  · rintro ⟨h, hh, n, hn, hx⟩
    exact ⟨n, ⟨h, hh, hn⟩, hx⟩

/-- Nodes whose names are apart bring in different names. -/
theorem nodup_introduced (hw : net.WellFormed) (hapart : net.NamesApart {x | x ∈ out})
    (hout : out.Nodup) : (net.introduced out).Nodup := by
  refine List.nodup_flatMap.2 ⟨fun n _ => n.nodup_introduces, ?_⟩
  rw [List.pairwise_filterMap]
  refine hout.imp_of_mem fun {h h'} hh hh' hne n hn n' hn' x hx hx' => ?_
  exact not_namesApart hw hh hh' hne hn hn' (Node.mem_introduces.1 hx) (Node.mem_introduces.1 hx')
    hapart

/-- The names that some nodes bring into a program are distinct, and neither the language nor the
    program uses them for anything else. -/
structure Hygienic (net : Network) (out : List Handle) (text : String) : Prop where
  nodup : (net.introduced out).Nodup
  not_declared : ∀ x ∈ net.introduced out, ∀ stage : Stage, x ∉ stage.declaredNames
  not_target : ∀ x ∈ net.introduced out, ∀ slot : Slot, x ≠ slot.target
  not_keyword : ∀ x ∈ net.introduced out, x ∉ keywords
  not_called : ∀ x ∈ net.introduced out, x ∉ callees (programTokens text)

section Program

variable (hw : net.WellFormed) (hne : ∀ x ∈ out, x ≠ net.sink)
include hw hne

/-- What is brought into a program is a name of its own. -/
theorem free_of_mem_introduced {x : String} (hx : x ∈ net.introduced out) : Free x := by
  obtain ⟨h, hh, n, hn, hx⟩ := mem_introduced.1 hx
  have hcheck := hw.check h n hn (hne h hh)
  rcases hx with rfl | rfl
  · exact (Node.spelled_of_check hcheck).1
  · exact Node.free_variableName hcheck

/-- All that a program calls is taken. -/
theorem tame_program {ds : List Declaration} {body : List Line}
    (hd : List.Forall₂ net.Declared out ds) (hbody : ∀ l ∈ body, l.Legible) (version : UInt32) :
    Tame (programTokens
      (unlines (stage.program version (ds.map Declaration.text) (body.map Line.text)))) := by
  have hparts : ∀ cs ∈ stage.opening ++ stage.middle ++ stage.closing,
      Tame (programTokens (String.ofList cs)) := by
    intro cs hcs
    rw [programTokens, String.toList_ofList]
    exact stage.tame_of_mem hcs
  rw [programTokens_unlines]
  refine .flatMap fun line hline => ?_
  simp only [Stage.program, List.cons_append, List.mem_cons, List.mem_append, List.mem_map,
    exists_exists_and_eq_and, or_assoc] at hline
  -- A line of the program is the first one, one of the template, a declaration or a line of the
  -- body.
  rcases hline with rfl | ⟨cs, hcs, rfl⟩ | ⟨d, hmem, rfl⟩ | ⟨cs, hcs, rfl⟩ | ⟨l, hl, rfl⟩
    | ⟨cs, hcs, rfl⟩
  · exact tame_version version
  · exact hparts cs (by simp [hcs])
  · exact Declaration.tame (free_of_declared hw hd hne d hmem).word
  · exact hparts cs (by simp [hcs])
  · rw [tokensOf_indent]
    exact (hbody l hl).tame
  · exact hparts cs (by simp [hcs])

end Program

/-- The names that the nodes of a stage bring into its program are apart from each other, from the
    names and functions of the program, and from the words of the language. -/
theorem Arises.hygienic (h : net.Arises) (requests : List Request) {text : String} {s' : Session}
    (hg : (Session.assemble net stage).Gives (Session.after net requests) text s') :
    ∃ out, net.reachable stage = .ok out ∧ net.Hygienic out text := by
  have hw := h.wellFormed
  obtain ⟨body, hwrite, hrender⟩ := Session.assemble_gives hg
  obtain ⟨sink, out, hsink, -, hreachable, hvisits, hdeclared, -, hapart, hwritten⟩ :=
    walks_agree hw h.fits ((Session.served_after net requests).trustsAcyclic hw) hwrite
  have hne := hw.ne_sink_of_mem_visits hsink hvisits
  have hfree {x : String} (hx : x ∈ net.introduced out) := free_of_mem_introduced hw hne hx
  rw [renderStage_eq] at hrender
  obtain rfl := Except.ok.inj hrender
  refine ⟨out, hreachable, ?_⟩
  exact {
    nodup := nodup_introduced hw hapart hvisits.nodup.1
    not_declared := fun x hx stage hmem =>
      (hfree hx).not_mem_programNames (declaredNames_subset stage x hmem)
    not_target := fun x hx slot heq =>
      (hfree hx).not_mem_programNames (outputNames_subset x (heq ▸ target_mem_outputNames slot))
    not_keyword := fun x hx => (hfree hx).not_mem_keywords
    not_called := fun x hx hcalled => by
      have htaken := (tame_program hw hne hdeclared
        (hwritten.legible hw hsink rfl) net.settings.version).callees x hcalled
      rw [(hfree hx).notTaken] at htaken
      cases htaken }

/-- The program samples one texture, and the constant with the name of the sample is not in it. -/
theorem hygienic_unusedSample : unusedSample.Arises
    ∧ ∃ text s, (Session.assemble unusedSample .fragment).Gives
        (Session.after unusedSample []) text s
      ∧ ∃ out, unusedSample.reachable .fragment = .ok out ∧ unusedSample.Hygienic out text := by
  obtain ⟨h, text, s, hg⟩ := assemble_unusedSample
  exact ⟨h, text, s, hg, h.hygienic [] hg⟩

end Network

end MaterialNet
