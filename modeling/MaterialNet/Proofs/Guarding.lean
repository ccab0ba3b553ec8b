import MaterialNet.Proofs.History
import MaterialNet.Proofs.Reaching

namespace MaterialNet

/-!
# Networks with a cycle

A network with a cycle anywhere, also where no slot reads it, is refused by every request for its
programs or for a part of them, always with the same fault, and a session is left as it was.

* `Session.assemble_fails_of_ensureAcyclic` and its like — what begins with a search for cycles
* `Network.Arises.guarded` — the networks with a cycle are those that are refused, and no session
  writes anything for them
-/

open Relation

namespace Session

variable {net : Network} {s : Session} {fault : Fault}

/-! ### What begins with a search for cycles -/

/-- A request for text begins with the search for cycles. -/
theorem evaluate_fails_of_ensureAcyclic (h : (ensureAcyclic net).Fails s fault s) (x : Handle) :
    (evaluate net x).Fails s fault s :=
  Action.fails_bind.2 (.inl h)

/-- So does a request for a program. -/
theorem assemble_fails_of_ensureAcyclic (h : (ensureAcyclic net).Fails s fault s) (stage : Stage) :
    (assemble net stage).Fails s fault s :=
  Action.fails_bind.2 (.inl (Action.fails_bind.2 (.inl h)))

/-- So does compiling. -/
theorem compile_fails_of_ensureAcyclic (h : (ensureAcyclic net).Fails s fault s) :
    (compile net).Fails s fault s :=
  Action.fails_bind.2 (.inl h)

/-- A network with a cycle is refused by every session, whatever it has been asked before. -/
theorem Served.ensureAcyclic_fails (hw : net.WellFormed) (h : Served net s)
    (hcheck : net.checkAcyclic = .error fault) : (ensureAcyclic net).Fails s fault s := by
  obtain ⟨p, -, -, -, hp⟩ := Network.checkAcyclic_eq_error hw hcheck
  refine ensureAcyclic_fails_of_error hcheck (Bool.eq_false_iff.2 fun hs => ?_)
  exact h.trustsAcyclic hw hs p hp

end Session

namespace Network

open Session

variable {net : Network}

/-- A network is refused as a whole exactly if it has a cycle. -/
structure Guarded (net : Network) : Prop where
  /-- There is a fault exactly if some live node depends on itself through one or more links. -/
  cyclic_iff : (∃ fault, net.checkAcyclic = .error fault)
    ↔ ∃ h, (net.node? h).isSome ∧ TransGen net.Reads h h
  /-- The fault names a node on a cycle. -/
  named : ∀ fault, net.checkAcyclic = .error fault →
    ∃ h n, net.node? h = some n ∧ TransGen net.Reads h h ∧ fault = .cyclic n.id
  /-- Everything is refused with this fault. -/
  refused : ∀ fault, net.checkAcyclic = .error fault →
    (∀ stage, net.reachable stage = .error fault ∧ (net.assemble stage).result = .error fault)
      ∧ net.compile.result = .error fault
  /-- In no session does anything change, also where a handle names no node. -/
  unchanged : ∀ fault, net.checkAcyclic = .error fault → ∀ requests,
    (ensureAcyclic net).Fails (Session.after net requests) fault (Session.after net requests)
      ∧ (∀ stage, (Session.assemble net stage).Fails (Session.after net requests) fault
        (Session.after net requests))
      ∧ ∀ h, (evaluate net h).Fails (Session.after net requests) fault (Session.after net requests)

/-- The search for cycles is exact, and it stands before everything that writes text. -/
theorem Arises.guarded (h : net.Arises) : net.Guarded := by
  have hw := h.wellFormed
  have hnamed {fault : Fault} (hf : net.checkAcyclic = .error fault) :
      ∃ h n, net.node? h = some n ∧ TransGen net.Reads h h ∧ fault = .cyclic n.id := by
    obtain ⟨p, n, hn, hfault, hp⟩ := checkAcyclic_eq_error hw hf
    exact ⟨p, n, hn, hp, hfault⟩
  -- The search is exact; what is left is that every request searches first and changes nothing
  -- before.
  refine ⟨⟨?_, ?_⟩, fun fault hf => hnamed hf, fun fault hf => ?_, fun fault hf requests => ?_⟩
  · rintro ⟨fault, hf⟩
    obtain ⟨p, n, hn, hp, -⟩ := hnamed hf
    exact ⟨p, Option.isSome_iff_exists.2 ⟨n, hn⟩, hp⟩
  · rintro ⟨p, -, hp⟩
    cases hc : net.checkAcyclic with
    | ok u => exact absurd hp (hw.checkAcyclic_eq_ok_iff.1 hc p)
    | error fault => exact ⟨fault, rfl⟩
  · have hfresh := Served.fresh.ensureAcyclic_fails hw hf
    exact ⟨fun stage => ⟨reachable_eq_error hf, (assemble_fails_of_ensureAcyclic hfresh stage).1⟩,
      (compile_fails_of_ensureAcyclic hfresh).1⟩
  · have hs := (served_after net requests).ensureAcyclic_fails hw hf
    exact ⟨hs, assemble_fails_of_ensureAcyclic hs, evaluate_fails_of_ensureAcyclic hs⟩

/-- Two functions that read each other, and a constant that feeds a slot without them. -/
def sideLoop : Network :=
  (new {}).run
    [.add ⟨"ebb", .inMain, .unary .oneMinus .float, []⟩,
      .add ⟨"flow", .inMain, .unary .oneMinus .float, []⟩,
      .add ⟨"shine", .inMain, .constant (.float .one), []⟩,
      .connect ⟨2, 1⟩ ⟨⟨3, 1⟩, .value, 0⟩,
      .connect ⟨3, 1⟩ ⟨⟨2, 1⟩, .value, 0⟩,
      .connectSlot .metallic ⟨4, 1⟩ .value]

/-- A cycle beside the way to the sink is refused as well. -/
theorem guarded_sideLoop : sideLoop.Arises ∧ sideLoop.Guarded
    ∧ ∃ fault, sideLoop.checkAcyclic = .error fault := by
  have h : sideLoop.Arises := (Arises.new {}).run (by decide +kernel)
  have hreads {x p : Handle} (hx : ((sideLoop.node? x).any fun n =>
      n.links.any fun l => l.producer = p) = true) : sideLoop.Reads x p := by
    obtain ⟨n, hn, hl⟩ := (Option.any_eq_true _ _).1 hx
    obtain ⟨l, hl, hp⟩ := List.any_eq_true.1 hl
    exact ⟨n, hn, l, hl, of_decide_eq_true hp⟩
  -- The two nodes read each other.
  have hebb : sideLoop.Reads ⟨2, 1⟩ ⟨3, 1⟩ := hreads (by decide +kernel)
  have hflow : sideLoop.Reads ⟨3, 1⟩ ⟨2, 1⟩ := hreads (by decide +kernel)
  have hlive : (sideLoop.node? ⟨2, 1⟩).isSome := by decide +kernel
  exact ⟨h, h.guarded, h.guarded.cyclic_iff.2 ⟨⟨2, 1⟩, hlive, .head hebb (.single hflow)⟩⟩

end Network

end MaterialNet
