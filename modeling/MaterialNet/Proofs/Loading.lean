import MaterialNet.Proofs.Rebuilding

namespace MaterialNet

/-!
# Loading a description

A description is loaded item by item, nodes before connections.  Each item is refused or not by what
the description lists before it, so the first item that is refused is known from the description
alone.  A description that is accepted is brought into a normal form: of the connections that feed
one input the last one is kept, and those that are kept stand in the order of what they feed.

* `NodeEntry.refusal?`, `Connection.refusal?` — why an item is refused
* `Accepted`, `FirstRefused` — lists of which all items are accepted, or one is refused first
* `Description.Sound`, `Description.NormalForm` — what is accepted, and what becomes of it
* `Network.Judged` — steps over a list that are refused as the items before say
* `Network.loads` — loading decides soundness and gives the normal form
-/

/-! ### Items that are refused -/

/-- Why a node is refused after the given ones. -/
def NodeEntry.refusal? (before : List NodeEntry) (e : NodeEntry) : Option Fault :=
  match e.node.check with
  | .error fault => some fault
  | .ok () =>
    if e.id ∈ before.map NodeEntry.id ∨ e.id = sinkName then some (.duplicateName e.id) else none

/-- Why a connection between some nodes is refused. -/
def Connection.refusal? (entries : List NodeEntry) (c : Connection) : Option Fault :=
  match entries.find? (·.id = c.source), entries.find? (·.id = c.target) with
  | none, _ => some (.unknownName c.source)
  | some _, none => some (.unknownName c.target)
  | some producer, some consumer =>
    match producer.node.facetType c.facet with
    | .error fault => some fault
    | .ok _ =>
      if consumer.node.inputCount ≤ c.input.toNat then
        some (.noInput consumer.id c.input.toNat consumer.node.inputCount)
      else none

section Lists

variable {α : Type} (refusal? : List α → α → Option Fault)

/-- No item of a list is refused after those before it. -/
def Accepted (items : List α) : Prop :=
  ∀ before x after, items = before ++ x :: after → refusal? before x = none

/-- The first item of a list that is refused is refused with this fault. -/
def FirstRefused (items : List α) (fault : Fault) : Prop :=
  ∃ before x after, items = before ++ x :: after ∧ Accepted refusal? before
    ∧ refusal? before x = some fault

variable {refusal?} {x : α} {rest : List α} {fault : Fault}

/-- Nothing is refused among no items. -/
theorem accepted_nil : Accepted refusal? [] := by
  intro before x after h
  simp at h

/-- No item is the first to be refused among none. -/
theorem not_firstRefused_nil : ¬ FirstRefused refusal? [] fault := by
  rintro ⟨before, x, after, h, -⟩
  simp at h

/-- Items are accepted if the first one is, and the others after it. -/
theorem accepted_cons : Accepted refusal? (x :: rest)
    ↔ refusal? [] x = none ∧ Accepted (fun before => refusal? (x :: before)) rest := by
  constructor
  · intro h
    exact ⟨h [] x rest rfl, fun before y after heq => h (x :: before) y after (by rw [heq]; rfl)⟩
  · rintro ⟨hx, hrest⟩ before y after heq
    cases before with
    | nil =>
      obtain ⟨rfl, -⟩ := List.cons.inj heq
      exact hx
    | cons z before =>
      obtain ⟨rfl, hsplit⟩ := List.cons.inj heq
      exact hrest before y after hsplit

/-- Items are accepted if all but the last are, and the last after them. -/
theorem accepted_concat :
    Accepted refusal? (rest ++ [x]) ↔ Accepted refusal? rest ∧ refusal? rest x = none := by
  constructor
  · intro h
    refine ⟨fun before y after heq => h before y (after ++ [x]) ?_, h rest x [] rfl⟩
    rw [heq, List.append_assoc, List.cons_append]
  · rintro ⟨hrest, hx⟩ before y after heq
    rcases after.eq_nil_or_concat with rfl | ⟨after, z, rfl⟩
    · obtain ⟨rfl, hy⟩ := List.append_inj' heq rfl
      obtain ⟨rfl, -⟩ := List.cons.inj hy
      exact hx
    · rw [List.concat_eq_append, ← List.cons_append, ← List.append_assoc] at heq
      exact hrest before y after (List.append_inj' heq rfl).1

/-- The first item to be refused is the first one, or it stands among the others. -/
theorem firstRefused_cons : FirstRefused refusal? (x :: rest) fault
    ↔ refusal? [] x = some fault
      ∨ refusal? [] x = none ∧ FirstRefused (fun before => refusal? (x :: before)) rest fault := by
  constructor
  · rintro ⟨before, y, after, heq, hbefore, hy⟩
    cases before with
    | nil =>
      obtain ⟨rfl, -⟩ := List.cons.inj heq
      exact .inl hy
    | cons z before =>
      obtain ⟨rfl, hsplit⟩ := List.cons.inj heq
      obtain ⟨hx, hbefore⟩ := accepted_cons.1 hbefore
      exact .inr ⟨hx, before, y, after, hsplit, hbefore, hy⟩
  · rintro (hx | ⟨hx, before, y, after, rfl, hbefore, hy⟩)
    · exact ⟨[], x, rest, rfl, accepted_nil, hx⟩
    · exact ⟨x :: before, y, after, rfl, accepted_cons.2 ⟨hx, hbefore⟩, hy⟩

end Lists

/-! ### Sound descriptions and their normal forms -/

/-- All nodes of the description are sound on their own and have names of their own, and all
    connections, also those that are replaced later, join nodes. -/
structure Description.Sound (d : Description) : Prop where
  checked : ∀ e ∈ d.nodes, e.node.check = .ok ()
  names_nodup : (d.nodes.map NodeEntry.id).Nodup
  ne_sinkName : ∀ e ∈ d.nodes, e.id ≠ sinkName
  joins : ∀ c ∈ d.connections, d.Joins c

/-- No connection that is listed later feeds the same input. -/
def LastListed (cs : List Connection) (c : Connection) : Prop :=
  ∃ before after, cs = before ++ c :: after ∧ ∀ c' ∈ after, ¬ c'.Feeds c.target c.input.toNat

/-- The second description has the settings and the nodes of the first one, and of the connections
    that feed one input the last one, in the order of what they feed. -/
structure Description.NormalForm (d d' : Description) : Prop where
  settings : d'.settings = d.settings
  nodes : d'.nodes = d.nodes
  mem_iff : ∀ c, c ∈ d'.connections ↔ LastListed d.connections c
  one_each : ∀ c ∈ d.connections, ∃! c', c' ∈ d'.connections ∧ c'.Feeds c.target c.input.toNat
  ordered : d'.connections.Pairwise d.Before

/-- Two connections feed one input or do not, from whichever side this is seen. -/
theorem Connection.Feeds.symm {c c' : Connection} (h : c.Feeds c'.target c'.input.toNat) :
    c'.Feeds c.target c.input.toNat :=
  ⟨h.1.symm, h.2.symm⟩

/-- The last connection of an input is the very last one, or it feeds another input. -/
theorem lastListed_concat {cs : List Connection} {b c : Connection} :
    LastListed (cs ++ [b]) c ↔ c = b ∨ LastListed cs c ∧ ¬ c.Feeds b.target b.input.toNat := by
  constructor
  · rintro ⟨before, after, heq, hafter⟩
    -- The connection stands at the very end, or something comes after it.
    rcases after.eq_nil_or_concat with rfl | ⟨after, b', rfl⟩
    · exact .inl (List.append_inj_right' heq rfl |> List.cons.inj |>.1.symm)
    · rw [List.concat_eq_append, ← List.cons_append, ← List.append_assoc] at heq
      obtain ⟨rfl, hb⟩ := List.append_inj' heq rfl
      obtain ⟨rfl, -⟩ := List.cons.inj hb
      refine .inr ⟨⟨before, after, rfl, fun c' hc' => hafter c' (by simp [hc'])⟩, fun h => ?_⟩
      exact hafter b (by simp) h.symm
  · rintro (rfl | ⟨⟨before, after, rfl, hafter⟩, hb⟩)
    · exact ⟨cs, [], rfl, nofun⟩
    · refine ⟨before, after ++ [b], by simp, fun c' hc' => ?_⟩
      rcases List.mem_append.1 hc' with hc' | hc'
      · exact hafter c' hc'
      · obtain rfl := List.mem_singleton.1 hc'
        exact fun h => hb h.symm

/-- Of the connections that feed one input, one is the last. -/
theorem exists_lastListed {cs : List Connection} {c : Connection} (hc : c ∈ cs) :
    ∃ c', LastListed cs c' ∧ c'.Feeds c.target c.input.toNat := by
  induction cs using List.reverseRecOn with
  | nil => cases hc
  | append_singleton cs b ih =>
    -- The last connection feeds the input, or the search goes on before it.
    by_cases hb : b.Feeds c.target c.input.toNat
    · exact ⟨b, lastListed_concat.2 (.inl rfl), hb⟩
    · rcases List.mem_append.1 hc with hc | hc
      · obtain ⟨c', hlast, hfeeds⟩ := ih hc
        refine ⟨c', lastListed_concat.2 (.inr ⟨hlast, fun h => hb ?_⟩), hfeeds⟩
        exact ⟨h.1.symm.trans hfeeds.1, h.2.symm.trans hfeeds.2⟩
      · obtain rfl := List.mem_singleton.1 hc
        exact absurd ⟨rfl, rfl⟩ hb

namespace Description

variable {d : Description} {cs : List Connection}

/-- The description with its connections put in place one after the other. -/
def normalized (d : Description) : Description :=
  d.connections.foldl put { d with connections := [] }

/-- Putting connections in changes no settings. -/
theorem settings_foldl_put (d : Description) (cs : List Connection) :
    (cs.foldl put d).settings = d.settings := by
  induction cs generalizing d with
  | nil => rfl
  | cons c cs ih => exact ih _

/-- Putting connections in changes no nodes. -/
theorem nodes_foldl_put (d : Description) (cs : List Connection) :
    (cs.foldl put d).nodes = d.nodes := by
  induction cs generalizing d with
  | nil => rfl
  | cons c cs ih => exact ih _

/-- The order of connections depends on the nodes, which stay. -/
theorem before_foldl_put (d : Description) (cs : List Connection) :
    (cs.foldl put d).Before = d.Before := by
  unfold Before names
  rw [nodes_foldl_put]

/-- The connections that have been put in place are those that are listed last for their inputs, and
    they stand in order. -/
theorem connections_foldl_put (hd : d.connections = []) (hcs : ∀ c ∈ cs, c.target ∈ d.names) :
    (cs.foldl put d).connections.Pairwise d.Before
      ∧ ∀ c, c ∈ (cs.foldl put d).connections ↔ LastListed cs c := by
  -- Induction from the end of the list, as the last connection replaces those before it.
  induction cs using List.reverseRecOn with
  | nil => simp [hd, LastListed]
  | append_singleton cs b ih =>
    obtain ⟨hordered, hmem⟩ := ih fun c hc => hcs c (List.mem_append_left _ hc)
    have hb : b.target ∈ (cs.foldl put d).names := by
      rw [names, nodes_foldl_put]
      exact hcs b (by simp)
    rw [← before_foldl_put d cs] at hordered
    rw [List.foldl_append, List.foldl_cons, List.foldl_nil]
    constructor
    · rw [← before_foldl_put d cs]
      exact pairwise_insertConnection hb hordered
    · intro c
      rw [lastListed_concat, ← hmem]
      exact mem_insertConnection hb hordered

/-- What a connection joins are nodes of the description or the sink. -/
theorem Joins.target_mem {c : Connection} (h : d.Joins c) : c.target ∈ d.names := by
  obtain ⟨-, -, consumer, hconsumer, -, -, hid, -⟩ := h
  rw [← hid, names]
  simp only [entries, List.mem_append, List.mem_singleton] at hconsumer ⊢
  rcases hconsumer with h | rfl
  · exact .inl (List.mem_map_of_mem h)
  · exact .inr rfl

/-- Putting connections in place brings a sound description into its normal form. -/
theorem Sound.normalForm (h : d.Sound) : d.NormalForm d.normalized := by
  -- The nodes stay as they are, so putting connections in keeps one order.
  have hbefore : d.normalized.Before = d.Before := before_foldl_put _ d.connections
  have hnone : { d with connections := [] }.connections = [] := rfl
  obtain ⟨hordered, hmem⟩ := connections_foldl_put hnone fun c hc => (h.joins c hc).target_mem
  have hnormal : d.normalized.Ordered := by
    rw [Ordered, hbefore]
    exact hordered
  exact {
    settings := settings_foldl_put _ _
    nodes := nodes_foldl_put _ _
    mem_iff := hmem
    one_each := fun c hc => by
      obtain ⟨c', hlast, hfeeds⟩ := exists_lastListed hc
      have hc' := hnormal.connection?_eq_some_iff.2 ⟨(hmem c').2 hlast, hfeeds⟩
      refine ⟨c', ⟨(hmem c').2 hlast, hfeeds⟩, fun c'' hc'' => ?_⟩
      exact Option.some.inj ((hnormal.connection?_eq_some_iff.2 hc'').symm.trans hc')
    ordered := hordered }

/-! ### What is refused is not sound -/

/-- Nodes and sink have names apart where the names of a description are. -/
theorem nodup_entries (hnames : d.names.Nodup) : (d.entries.map NodeEntry.id).Nodup := by
  rw [entries, List.map_append]
  exact hnames

/-- The names of a description are apart if no node is named twice or like the sink. -/
theorem nodup_names (hnodup : (d.nodes.map NodeEntry.id).Nodup)
    (hsink : ∀ e ∈ d.nodes, e.id ≠ sinkName) : d.names.Nodup := by
  refine List.nodup_append.2 ⟨hnodup, List.nodup_singleton _, ?_⟩
  rintro x hx y hy rfl
  obtain ⟨e, he, rfl⟩ := List.mem_map.1 hx
  exact hsink e he (List.mem_singleton.1 hy)

end Description

/-- A node is accepted if it is sound and its name is new. -/
theorem NodeEntry.refusal?_eq_none_iff {before : List NodeEntry} {e : NodeEntry} :
    e.refusal? before = none
      ↔ e.node.check = .ok () ∧ e.id ∉ before.map NodeEntry.id ∧ e.id ≠ sinkName := by
  unfold refusal?
  rcases e.node.check with fault | ⟨⟩ <;> simp

/-- Nodes are accepted one after the other if they are sound and have names of their own. -/
theorem accepted_nodes_iff {es : List NodeEntry} :
    Accepted NodeEntry.refusal? es
      ↔ (∀ e ∈ es, e.node.check = .ok ()) ∧ (es.map NodeEntry.id).Nodup
        ∧ ∀ e ∈ es, e.id ≠ sinkName := by
  induction es using List.reverseRecOn with
  | nil => simp [accepted_nil]
  | append_singleton es e ih =>
    rw [accepted_concat, ih, NodeEntry.refusal?_eq_none_iff, List.forall_mem_append,
      List.forall_mem_append, List.forall_mem_singleton, List.forall_mem_singleton, List.map_append,
      List.map_singleton, List.nodup_append_comm, List.singleton_append, List.nodup_cons]
    tauto

/-- Where what came before does not matter, items are accepted if each of them is. -/
theorem accepted_iff_forall {α : Type} {refusal? : α → Option Fault} {items : List α} :
    Accepted (fun _ => refusal?) items ↔ ∀ x ∈ items, refusal? x = none := by
  induction items with
  | nil => simp [accepted_nil]
  | cons x rest ih => rw [accepted_cons, ih, List.forall_mem_cons]

/-- Where names are apart, the node with a name is the one that is found. -/
theorem find?_id_eq_some_iff {entries : List NodeEntry}
    (hnames : (entries.map NodeEntry.id).Nodup) {id : String} {e : NodeEntry} :
    entries.find? (·.id = id) = some e ↔ e ∈ entries ∧ e.id = id := by
  constructor
  · intro h
    exact ⟨List.mem_of_find?_eq_some h, by simpa using List.find?_some h⟩
  · rintro ⟨he, rfl⟩
    cases hfind : entries.find? (·.id = e.id) with
    | none => exact absurd (decide_eq_true rfl) (List.find?_eq_none.1 hfind e he)
    | some e' =>
      have hid : e'.id = e.id := by simpa using List.find?_some hfind
      rw [List.inj_on_of_nodup_map hnames (List.mem_of_find?_eq_some hfind) he hid]

/-- A connection is refused unless it joins nodes of the description. -/
theorem Connection.refusal?_eq_none_iff {d : Description}
    (hnames : d.names.Nodup) {c : Connection} : c.refusal? d.entries = none ↔ d.Joins c := by
  have hnames := Description.nodup_entries hnames
  constructor
  · intro h
    unfold refusal? at h
    split at h
    · cases h
    · cases h
    · rename_i producer consumer hsource htarget
      obtain ⟨hproducer, hsource⟩ := (find?_id_eq_some_iff hnames).1 hsource
      obtain ⟨hconsumer, htarget⟩ := (find?_id_eq_some_iff hnames).1 htarget
      split at h
      · cases h
      · rename_i type htype
        split at h
        · cases h
        · rename_i hinput
          exact ⟨producer, hproducer, consumer, hconsumer, type, hsource, htarget, htype,
            Nat.lt_of_not_le hinput⟩
  · rintro ⟨producer, hproducer, consumer, hconsumer, type, hsource, htarget, htype, hinput⟩
    have hsource := (find?_id_eq_some_iff hnames).2 ⟨hproducer, hsource⟩
    have htarget := (find?_id_eq_some_iff hnames).2 ⟨hconsumer, htarget⟩
    simp only [refusal?, hsource, htarget, htype, if_neg (Nat.not_le.2 hinput)]

/-- A description is sound if no node and no connection of it is refused. -/
theorem Description.sound_iff {d : Description} : d.Sound
    ↔ Accepted NodeEntry.refusal? d.nodes
      ∧ Accepted (fun _ => Connection.refusal? d.entries) d.connections := by
  rw [accepted_nodes_iff, accepted_iff_forall]
  constructor
  · rintro ⟨hchecked, hnodup, hsink, hjoins⟩
    exact ⟨⟨hchecked, hnodup, hsink⟩, fun c hc =>
      (Connection.refusal?_eq_none_iff (nodup_names hnodup hsink)).2 (hjoins c hc)⟩
  · rintro ⟨⟨hchecked, hnodup, hsink⟩, hjoins⟩
    exact ⟨hchecked, hnodup, hsink, fun c hc =>
      (Connection.refusal?_eq_none_iff (nodup_names hnodup hsink)).1 (hjoins c hc)⟩

namespace Network

/-! ### Loading item by item -/

/-- An edit within an action fails as the edit does, and leaves the network. -/
theorem fails_apply {α : Type} {edit : Network → Except Fault (Edit α)} {net net' : Network}
    {fault : Fault} : (apply edit).Fails net fault net' ↔ edit net = .error fault ∧ net = net' := by
  unfold apply
  rw [Action.fails_getState_bind, Action.fails_lift_bind]
  refine or_iff_left ?_
  rintro ⟨e, -, hf⟩
  rw [Action.fails_setState_bind, Action.fails_note_bind] at hf
  exact Action.not_fails_pure hf

/-- Steps over a list whose outcome is known from the items before: `kept` relates a network to the
    items that have led to it. -/
structure Judged {α β : Type} (step : α → Network → Except Fault (Edit β))
    (refusal? : List α → α → Option Fault) (kept : List α → Network → Prop) : Prop where
  refuses : ∀ before net x, kept before net → ∀ fault,
    step x net = .error fault ↔ refusal? before x = some fault
  keeps : ∀ before net x e, kept before net → step x net = .ok e → kept (before ++ [x]) e.network

namespace Judged

variable {α β : Type} {step : α → Network → Except Fault (Edit β)}
  {refusal? : List α → α → Option Fault} {kept : List α → Network → Prop}
  {load : List α → Action Network Unit} {before todo : List α} {net net' : Network}

/-- An accepted item is a step. -/
theorem exists_iff (h : Judged step refusal? kept) (hnet : kept before net) {x : α} :
    (∃ e, step x net = .ok e) ↔ refusal? before x = none := by
  have hrefuses := h.refuses before net x hnet
  cases hstep : step x net with
  | error fault => simp [(hrefuses fault).1 hstep]
  | ok e =>
    refine iff_of_true ⟨e, rfl⟩ (Option.eq_none_iff_forall_ne_some.2 fun fault hfault => ?_)
    rw [(hrefuses fault).2 hfault] at hstep
    cases hstep

section Load

variable (h : Judged step refusal? kept) (hnil : load [] = pure ())
  (hcons : ∀ x rest, load (x :: rest) = apply (step x) >>= fun _ => load rest)
include h hnil hcons

/-- What has been loaded is kept. -/
theorem kept_of_gives (hnet : kept before net) (hg : (load todo).Gives net () net') :
    kept (before ++ todo) net' := by
  -- Item by item, what has been loaded so far stands before.
  induction todo generalizing before net with
  | nil =>
    rw [hnil] at hg
    obtain ⟨-, rfl⟩ := Action.gives_pure.1 hg
    rwa [List.append_nil]
  | cons x rest ih =>
    rw [hcons] at hg
    obtain ⟨_, _, hx, hrest⟩ := Action.gives_bind.1 hg
    obtain ⟨e, he, -, rfl⟩ := gives_apply.1 hx
    rw [List.append_cons]
    exact ih (h.keeps before net x e hnet he) hrest

/-- All items are loaded if each of them is accepted after those before it. -/
theorem exists_gives_iff (hnet : kept before net) :
    (∃ net', (load todo).Gives net () net')
      ↔ Accepted (fun items => refusal? (before ++ items)) todo := by
  induction todo generalizing before net with
  | nil => simp [hnil, accepted_nil]
  | cons x rest ih =>
    have hassoc : (fun items => refusal? (before ++ x :: items))
        = fun items => refusal? ((before ++ [x]) ++ items) := by simp
    rw [accepted_cons, List.append_nil, ← h.exists_iff hnet, hassoc, hcons]
    simp only [Action.gives_bind, gives_apply]
    constructor
    · rintro ⟨net', _, _, ⟨e, he, -, rfl⟩, hg⟩
      exact ⟨⟨e, he⟩, (ih (h.keeps before net x e hnet he)).1 ⟨net', hg⟩⟩
    · rintro ⟨⟨e, he⟩, hrest⟩
      obtain ⟨net', hg⟩ := (ih (h.keeps before net x e hnet he)).2 hrest
      exact ⟨net', _, _, ⟨e, he, rfl, rfl⟩, hg⟩

/-- Loading fails with the fault of the first item that is refused. -/
theorem exists_fails_iff (hnet : kept before net) {fault : Fault} :
    (∃ net', (load todo).Fails net fault net')
      ↔ FirstRefused (fun items => refusal? (before ++ items)) todo fault := by
  -- The first item is refused, or the others are loaded after it.
  induction todo generalizing before net with
  | nil => simp [hnil, not_firstRefused_nil]
  | cons x rest ih =>
    have hassoc : (fun items => refusal? (before ++ x :: items))
        = fun items => refusal? ((before ++ [x]) ++ items) := by simp
    rw [firstRefused_cons, List.append_nil, ← h.exists_iff hnet, hassoc, hcons,
      ← h.refuses before net x hnet]
    simp only [Action.fails_bind, fails_apply, gives_apply]
    constructor
    · rintro ⟨net', ⟨hfault, -⟩ | ⟨_, _, ⟨e, he, -, rfl⟩, hf⟩⟩
      · exact .inl hfault
      · exact .inr ⟨⟨e, he⟩, (ih (h.keeps before net x e hnet he)).1 ⟨net', hf⟩⟩
    · rintro (hfault | ⟨⟨e, he⟩, hrest⟩)
      · exact ⟨net, .inl ⟨hfault, rfl⟩⟩
      · obtain ⟨net', hf⟩ := (ih (h.keeps before net x e hnet he)).2 hrest
        exact ⟨net', .inr ⟨_, _, ⟨e, he, rfl, rfl⟩, hf⟩⟩

end Load

end Judged

/-! ### Nodes and connections -/

/-- A node is refused if it is not sound, or else if its name is in use. -/
theorem WellFormed.add_eq_error_iff {net : Network} (hw : net.WellFormed) {node : Node}
    {fault : Fault} : net.add node = .error fault
      ↔ node.check = .error fault
        ∨ node.check = .ok () ∧ node.id ∈ net.describe.names
          ∧ fault = .duplicateName node.id := by
  have hcontains : net.index.contains node.id = true ↔ node.id ∈ net.describe.names := by
    rw [Std.TreeMap.contains_eq_isSome_getElem?, hw.mem_names, Option.isSome_iff_exists]
    exact exists_congr fun h => hw.find?_iff node.id h
  unfold Network.add
  rw [bind_error_iff, ← hcontains]
  refine or_congr_right ⟨?_, ?_⟩
  · rintro ⟨⟨⟩, hcheck, h⟩
    split at h
    · exact ⟨hcheck, ‹_›, (Except.error.inj h).symm⟩
    · cases h
  · rintro ⟨hcheck, htaken, rfl⟩
    exact ⟨(), hcheck, if_pos htaken⟩

/-- A name is resolved by the index. -/
theorem resolve_eq_ok {net : Network} {id : String} {h : Handle} :
    net.resolve id = .ok h ↔ net.find? id = some h := by
  unfold resolve
  cases net.find? id <;> simp

/-- A name in the description of a network is looked up alike in both. -/
theorem WellFormed.find?_cases {net : Network} (hw : net.WellFormed) (id : String) :
    net.find? id = none ∧ net.describe.entries.find? (·.id = id) = none
      ∨ ∃ h n, net.find? id = some h ∧ net.node? h = some n ∧ n.id = id
        ∧ net.describe.entries.find? (·.id = id) = some n.entry := by
  -- The index and the entries of the description know the same names.
  cases hfind : net.find? id with
  | none =>
    refine .inl ⟨rfl, List.find?_eq_none.2 fun e he hid => ?_⟩
    obtain ⟨h, n, hn, rfl⟩ := hw.mem_entries.1 he
    rw [(hw.find?_iff _ _).2 ⟨n, hn, of_decide_eq_true hid⟩] at hfind
    cases hfind
  | some h =>
    obtain ⟨n, hn, hid⟩ := (hw.find?_iff _ _).1 hfind
    refine .inr ⟨h, n, rfl, hn, hid, (find?_id_eq_some_iff ?_).2 ⟨?_, hid⟩⟩
    · exact Description.nodup_entries hw.names_nodup
    · exact hw.mem_entries.2 ⟨h, n, hn, rfl⟩

/-- The network has the given nodes, and no connections. -/
def Stocks (settings : Settings) (es : List NodeEntry) (net : Network) : Prop :=
  net.WellFormed ∧ net.describe = ⟨settings, es, []⟩

/-- The network has the nodes of a description, and the given connections in their places. -/
def Wires (d : Description) (cs : List Connection) (net : Network) : Prop :=
  net.WellFormed ∧ net.describe = cs.foldl Description.put { d with connections := [] }

/-- A new network holds no nodes but the sink. -/
theorem stocks_new (settings : Settings) : Stocks settings [] (new settings) :=
  ⟨wellFormed_new settings, describe_new settings⟩

/-- Nodes are added one after the other, and each is described. -/
theorem judged_nodes (settings : Settings) :
    Judged (fun (e : NodeEntry) net => net.add e.node) NodeEntry.refusal? (Stocks settings) where
  refuses before net e := by
    rintro ⟨hw, hnet⟩ fault
    rw [hw.add_eq_error_iff, hnet, NodeEntry.refusal?, Description.names, List.mem_append,
      List.mem_singleton]
    rcases e.node.check with fault' | ⟨⟩
    · simp
    · simp [NodeEntry.node, eq_comm]
  keeps before net e edit := by
    rintro ⟨hw, hnet⟩ he
    refine ⟨hw.add he, ?_⟩
    rw [describe_of_add hw he, hnet]
    rfl

/-- Connections are made one after the other, and each is put in its place. -/
theorem judged_connections (d : Description) :
    Judged (fun (c : Connection) net => net.connectByName c)
      (fun _ => Connection.refusal? d.entries) (Wires d) where
  refuses before net c := by
    rintro ⟨hw, hnet⟩ fault
    have hentries : d.entries = net.describe.entries := by
      rw [hnet, Description.entries, Description.entries, Description.nodes_foldl_put]
    rw [hentries]
    -- Names are looked up alike in the network and in its description, the producer's first.
    rcases hw.find?_cases c.source with ⟨hnone, hsource⟩ | ⟨h, n, hfind, hn, -, hsource⟩
    · simp [connectByName, resolve, hnone, Connection.refusal?, hsource, bind, Except.bind]
    rcases hw.find?_cases c.target with ⟨hnone, htarget⟩ | ⟨k, m, hfind', hm, -, htarget⟩
    · simp [connectByName, resolve, hfind, hnone, Connection.refusal?, hsource, htarget, bind,
        Except.bind]
    have hfacet : n.entry.node.facetType c.facet = n.facetType c.facet := rfl
    have hcount : m.entry.node.inputCount = m.inputCount := rfl
    simp only [connectByName, resolve, hfind, hfind', connect, get_eq_ok.2 hn, get_eq_ok.2 hm,
      Connection.refusal?, hsource, htarget, hfacet, hcount, bind, Except.bind]
    rcases n.facetType c.facet with fault' | type
    · simp
    · simp only
      split
      · simp [Node.entry]
      · simp
  keeps before net c e := by
    rintro ⟨hw, hnet⟩ he
    unfold connectByName at he
    obtain ⟨producer, hp, he⟩ := bind_ok_iff.1 he
    obtain ⟨consumer, hq, he⟩ := bind_ok_iff.1 he
    obtain ⟨n, hn, hnid⟩ := (hw.find?_iff _ _).1 (resolve_eq_ok.1 hp)
    obtain ⟨m, hm, hmid⟩ := (hw.find?_iff _ _).1 (resolve_eq_ok.1 hq)
    refine ⟨hw.connect he, ?_⟩
    rw [describe_of_connect hw he hn hm, hnid, hmid, UInt64.ofNat_toNat, hnet, List.foldl_append]
    rfl

/-! ### Loading -/

/-- Building succeeds if loading nodes and connections does. -/
theorem build_ok_iff {d : Description} :
    (build d).result = .ok () ↔ ∃ net', (addAll d).Gives (new d.settings) () net' :=
  ⟨fun h => ⟨_, h, rfl⟩, fun ⟨_, h, _⟩ => h⟩

/-- Building fails as loading does. -/
theorem build_error_iff {d : Description} {fault : Fault} :
    (build d).result = .error fault ↔ ∃ net', (addAll d).Fails (new d.settings) fault net' :=
  ⟨fun h => ⟨_, h, rfl⟩, fun ⟨_, h, _⟩ => h⟩

/-- What loading a description gives: whether it is accepted, which item is refused otherwise, and
    how the network is described. -/
structure Loads (d : Description) : Prop where
  ok_iff : (build d).result = .ok () ↔ d.Sound
  error_iff : ∀ fault, (build d).result = .error fault ↔
    FirstRefused NodeEntry.refusal? d.nodes fault
      ∨ Accepted NodeEntry.refusal? d.nodes
        ∧ FirstRefused (fun _ => Connection.refusal? d.entries) d.connections fault
  normalForm : (build d).result = .ok () → d.NormalForm (build d).state.describe
  again : (build d).result = .ok () → (build (build d).state.describe).result = .ok ()
    ∧ (build (build d).state.describe).state.describe = (build d).state.describe

section Load

variable {d : Description} {net net' : Network} {fault : Fault}

/-- The nodes of a description are loaded if they are accepted one after the other. -/
theorem exists_addEntries_iff :
    (∃ net, (addEntries d.nodes).Gives (new d.settings) () net)
      ↔ Accepted NodeEntry.refusal? d.nodes :=
  (judged_nodes d.settings).exists_gives_iff rfl (fun _ _ => rfl) (stocks_new d.settings)

/-- Loading nodes fails with the fault of the first node that is refused. -/
theorem exists_addEntries_fails_iff :
    (∃ net, (addEntries d.nodes).Fails (new d.settings) fault net)
      ↔ FirstRefused NodeEntry.refusal? d.nodes fault :=
  (judged_nodes d.settings).exists_fails_iff rfl (fun _ _ => rfl) (stocks_new d.settings)

/-- The nodes have been added, and no connections have been made. -/
theorem wires_of_addEntries (hg : (addEntries d.nodes).Gives (new d.settings) () net) :
    Wires d [] net :=
  (judged_nodes d.settings).kept_of_gives rfl (fun _ _ => rfl) (stocks_new d.settings) hg

section Connections

variable (hnet : Wires d [] net)
include hnet

/-- The connections are loaded if each of them is accepted. -/
theorem exists_addConnections_iff :
    (∃ net', (addConnections d.connections).Gives net () net')
      ↔ Accepted (fun _ => Connection.refusal? d.entries) d.connections :=
  (judged_connections d).exists_gives_iff rfl (fun _ _ => rfl) hnet

/-- Loading connections fails with the fault of the first one that is refused. -/
theorem exists_addConnections_fails_iff :
    (∃ net', (addConnections d.connections).Fails net fault net')
      ↔ FirstRefused (fun _ => Connection.refusal? d.entries) d.connections fault :=
  (judged_connections d).exists_fails_iff rfl (fun _ _ => rfl) hnet

/-- What has been loaded is described by the normal form. -/
theorem describe_of_addConnections (hg : (addConnections d.connections).Gives net () net') :
    net'.describe = d.normalized :=
  ((judged_connections d).kept_of_gives rfl (fun _ _ => rfl) hnet hg).2

end Connections

/-- A sound description is accepted, and no other. -/
theorem build_ok_iff_sound : (build d).result = .ok () ↔ d.Sound := by
  rw [build_ok_iff, Description.sound_iff, addAll]
  simp only [Action.gives_bind, Action.gives_note]
  constructor
  · rintro ⟨_, _, net, hentries, _, _, hconnections, rfl⟩
    have hnet := wires_of_addEntries hentries
    exact ⟨exists_addEntries_iff.1 ⟨net, hentries⟩,
      (exists_addConnections_iff hnet).1 ⟨_, hconnections⟩⟩
  · rintro ⟨hnodes, hconnections⟩
    obtain ⟨net, hentries⟩ := exists_addEntries_iff.2 hnodes
    obtain ⟨net', hconnections⟩ :=
      (exists_addConnections_iff (wires_of_addEntries hentries)).2 hconnections
    exact ⟨net', (), net, hentries, (), net', hconnections, rfl⟩

/-- The fault of a description that is not accepted is that of the first item that is refused. -/
theorem build_error_iff_firstRefused : (build d).result = .error fault ↔
    FirstRefused NodeEntry.refusal? d.nodes fault
      ∨ Accepted NodeEntry.refusal? d.nodes
        ∧ FirstRefused (fun _ => Connection.refusal? d.entries) d.connections fault := by
  have hnote {events : List Event} {net net' : Network} :
      ¬ (Action.note events : Action Network Unit).Fails net fault net' := nofun
  rw [build_error_iff, addAll, ← exists_addEntries_fails_iff, ← exists_addEntries_iff]
  simp only [Action.fails_bind, hnote, and_false, exists_false, or_false]
  constructor
  · rintro ⟨net', hfails | ⟨_, net, hentries, hfails⟩⟩
    · exact .inl ⟨net', hfails⟩
    · have hnet := wires_of_addEntries hentries
      exact .inr ⟨⟨net, hentries⟩, (exists_addConnections_fails_iff hnet).1 ⟨net', hfails⟩⟩
  · rintro (⟨net, hfails⟩ | ⟨⟨net, hentries⟩, hrefused⟩)
    · exact ⟨net, .inl hfails⟩
    · have hnet := wires_of_addEntries hentries
      obtain ⟨net', hfails⟩ := (exists_addConnections_fails_iff hnet).2 hrefused
      exact ⟨net', .inr ⟨(), net, hentries, hfails⟩⟩

/-- The network that is built is described by the normal form. -/
theorem describe_build (h : (build d).result = .ok ()) :
    (build d).state.describe = d.normalized := by
  have hg : (addAll d).Gives (new d.settings) () (build d).state := ⟨h, rfl⟩
  unfold addAll at hg
  obtain ⟨_, net, hentries, hg⟩ := Action.gives_bind.1 hg
  obtain ⟨_, net', hconnections, hg⟩ := Action.gives_bind.1 hg
  obtain rfl := Action.gives_note.1 hg
  exact describe_of_addConnections (wires_of_addEntries hentries) hconnections

end Load

/-- A description is loaded exactly if it is sound; the network is then described by the normal
    form, which is loaded as it is. -/
theorem loads (d : Description) : Loads d where
  ok_iff := build_ok_iff_sound
  error_iff fault := build_error_iff_firstRefused
  normalForm h := by
    rw [describe_build h]
    exact (build_ok_iff_sound.1 h).normalForm
  again h := (wellFormed_build h).build_describe

end Network

end MaterialNet
