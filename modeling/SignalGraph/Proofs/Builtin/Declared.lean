import SignalGraph.Proofs.Builtin.Hosted

/-!
In a reachable graph every node with a behavior of the library has the spots of that behavior's type,
in their order. This is about the nodes' own declarations; which type key a node bears is up to the
host.
-/

namespace SignalGraph

open Builtin

variable {β : Type} {wrap : Builtin → β}

def Node.Suits (wrap : Builtin → β) (n : Node) (c : β) : Prop :=
  ∀ b, c = wrap b → n.spots.map (·.toSpotDecl) = b.spots

theorem Node.suits_of_foreign {n : Node} {c : β} (foreign : Foreign wrap c) : n.Suits wrap c :=
  fun b same => absurd same (foreign b)

theorem Builtin.wrapped_or_foreign (wrap : Builtin → β) (c : β) :
    (∃ b, c = wrap b) ∨ Foreign wrap c := by
  by_cases wrapped : ∃ b, c = wrap b
  · exact .inl wrapped
  · exact .inr fun b same => wrapped ⟨b, same⟩

theorem Node.mapSpots_decls {n : Node} {f : Nat → Spot → Spot}
    (same : ∀ j s, (f j s).toSpotDecl = s.toSpotDecl) :
    (n.mapSpots f).spots.map (·.toSpotDecl) = n.spots.map (·.toSpotDecl) := by
  apply List.ext_getElem?
  intro j
  rw [List.getElem?_map, mapSpots_getElem?, List.getElem?_map, Option.map_map]
  congr 1
  funext s
  exact same j s

namespace Builtin.Hosted

variable [Behavior β]

theorem suits_of_loaded (hosted : Hosted wrap) {n : Node} {c d : β} {g : Graph β} {key : NodeKey}
    (suits : n.Suits wrap c) (loaded : Behavior.loaded c g key = .ok d) : n.Suits wrap d := by
  obtain ⟨b, rfl⟩ | foreign := wrapped_or_foreign wrap c
  · rw [hosted.loaded] at loaded
    cases loaded
    exact suits
  · exact Node.suits_of_foreign (hosted.foreign_loaded c d g key foreign loaded)

theorem suits_of_restore (hosted : Hosted wrap) {n : Node} {c d : β} {bytes : List UInt8}
    (suits : n.Suits wrap c) (restored : Behavior.restore c bytes = (.ok (), d)) :
    n.Suits wrap d := by
  obtain ⟨b, rfl⟩ | foreign := wrapped_or_foreign wrap c
  · rw [hosted.restore] at restored
    rcases taken : b.restore bytes with ⟨answer, e⟩
    rw [taken] at restored
    cases restored
    intro e' same
    rw [← hosted.injective same, restore_spots taken]
    exact suits b rfl
  · exact Node.suits_of_foreign (hosted.foreign_restore c d bytes foreign restored)

theorem suits_of_same_spots (hosted : Hosted wrap) {n : Node} {b : Builtin}
    (suits : n.Suits wrap (wrap b)) (c : Builtin) (same : c.spots = b.spots) :
    n.Suits wrap (wrap c) := by
  intro d wrapped
  rw [← hosted.injective wrapped, same]
  exact suits b rfl

theorem onBegin_suits (hosted : Hosted wrap) {n : Node} {c : β} (suits : n.Suits wrap c) :
    (Behavior.onBegin c).Becomes (n.Suits wrap) := by
  obtain ⟨b, rfl⟩ | foreign := wrapped_or_foreign wrap c
  · rw [hosted.onBegin]
    exact onBegin_becomes wrap b (hosted.suits_of_same_spots suits)
  · exact (hosted.foreign_onBegin c foreign).mono fun _ => Node.suits_of_foreign

theorem onSignal_suits (hosted : Hosted wrap) {n : Node} {c : β} (suits : n.Suits wrap c)
    (spot : Nat) (args : List Value) : (Behavior.onSignal c spot args).Becomes (n.Suits wrap) := by
  obtain ⟨b, rfl⟩ | foreign := wrapped_or_foreign wrap c
  · rw [hosted.onSignal]
    exact onSignal_becomes wrap b args (hosted.suits_of_same_spots suits)
  · exact (hosted.foreign_onSignal c spot args foreign).mono fun _ => Node.suits_of_foreign

end Builtin.Hosted

namespace Graph

open LinkArena

/-- Every node with a behavior of the library has the spots of its type. -/
def Declared (wrap : Builtin → β) (g : Graph β) : Prop :=
  ∀ key s, g.slot? key = some s → s.node.Suits wrap s.behavior

theorem declared_empty (name : String) : (empty name).Declared wrap := by
  intro key s found
  simp [empty, slot?] at found

theorem Declared.wire {g : Graph β} (declared : g.Declared wrap) (links : List (Option Link)) :
    (g.wire links).Declared wrap := by
  intro key s found b same
  rw [slot?_wire] at found
  obtain ⟨t, at_key, rfl⟩ := Option.map_eq_some_iff.mp found
  have decls := Node.mapSpots_decls (n := t.node) (f := fun j => relist links ⟨key, j⟩)
    fun _ _ => rfl
  exact decls.trans (declared key t at_key b same)

theorem Declared.link {g : Graph β} (sound : g.Sound) (declared : g.Declared wrap)
    (a b : SpotRef) : (g.link a b).2.Declared wrap := by
  cases checked : g.checkLink a b with
  | error cause => rwa [link_eq_of_refused checked]
  | ok u =>
      rw [link_eq_of_checkLink sound.wired checked]
      exact declared.wire _

theorem Declared.disposeLink {g : Graph β} (sound : g.Sound) (declared : g.Declared wrap)
    (id : LinkId) : (g.disposeLink id).2.Declared wrap := by
  cases found : g.link? id with
  | none => rwa [disposeLink_eq_of_dead found]
  | some l =>
      rw [disposeLink_eq sound found]
      exact declared.wire _

theorem Declared.removeNode {g : Graph β} (sound : g.Sound) (declared : g.Declared wrap)
    (key : NodeKey) : (g.removeNode key).2.Declared wrap := by
  cases found : g.node? key with
  | none => rwa [removeNode_eq_of_dead found]
  | some n =>
      rw [removeNode_eq sound found]
      intro k s at_k
      rw [slot?_dropNode] at at_k
      split at at_k
      · cases at_k
      · exact declared.wire _ k s at_k

theorem Declared.setBehavior {g : Graph β} (declared : g.Declared wrap) {key : NodeKey} {c : β}
    (suits : ∀ n, g.node? key = some n → n.Suits wrap c) :
    (g.setBehavior key c).Declared wrap := by
  intro k s found
  rw [slot?_setBehavior] at found
  obtain ⟨t, at_k, rfl⟩ := Option.map_eq_some_iff.mp found
  split
  · next same =>
      subst same
      exact suits t.node (by rw [node?, at_k]; rfl)
  · exact declared k t at_k

variable [Behavior β]

theorem Declared.addNode (hosted : Hosted wrap) {g : Graph β} (declared : g.Declared wrap)
    (id tag : String) (type : TypeKey) (c : β) : (g.addNode id tag type c).2.1.Declared wrap := by
  obtain ⟨cause, events, same⟩ | ⟨s, _, _, _, ran, added⟩ := addNode_cases g id tag type c
  · rwa [same]
  rw [added]
  intro k t at_k
  rw [slot?_pushNode] at at_k
  split at at_k
  · cases at_k
    obtain ⟨b, rfl⟩ | foreign := wrapped_or_foreign wrap c
    · rw [hosted.setup, setup_run wrap b rfl] at ran
      obtain ⟨ready, node⟩ := Prod.mk.inj ran
      intro b' same
      rw [same] at ready
      rw [← hosted.injective (Except.ok.inj ready), ← node, List.map_map]
      exact List.map_id _
    · exact Node.suits_of_foreign (hosted.foreign_setup c _ _ _ foreign ran)
  · exact declared k t at_k

end Graph

theorem Wave.invariant_declared [Behavior β] (hosted : Hosted wrap) (g : Graph β) :
    Invariant (fun w : Wave β => w.graph.shape = g.shape ∧ w.graph.Declared wrap)
      (fun key c => ∀ n, g.node? key = some n → n.Suits wrap c) := by
  have suits {w : Wave β} {key : NodeKey} {c : β} (same : w.graph.shape = g.shape)
      (declared : w.graph.Declared wrap) (found : w.graph.behavior? key = some c) (n : Node)
      (at_key : g.node? key = some n) : n.Suits wrap c := by
    obtain ⟨s, at_slot, rfl⟩ := Option.map_eq_some_iff.mp found
    rw [← Graph.node?_eq_of_shape same, Graph.node?, at_slot] at at_key
    cases at_key
    exact declared key s at_slot
  constructor
  case push => exact fun _ _ _ h => h
  case setState => exact fun _ _ h => h
  case become =>
    intro w self c kind h
    refine ⟨(Graph.shape_setBehavior _ _ _).trans h.1, h.2.setBehavior ?_⟩
    simpa only [Graph.node?_eq_of_shape h.1] using kind
  case begin =>
    intro w key c h found
    cases at_key : g.node? key with
    | none => exact Reaction.becomes_of_forall (fun _ n none => by cases none) _
    | some n =>
        refine (hosted.onBegin_suits (suits h.1 h.2 found n at_key)).mono ?_
        intro d suits m same
        cases same
        exact suits
  case lost =>
    intro w v id l source target h _ _ crossed _
    rw [eq_of_cross crossed]
    exact h
  case call =>
    intro w v id l source target args c h _ _ crossed found
    refine ⟨by rw [eq_of_cross crossed]; exact h, ?_⟩
    cases at_key : g.node? target.node with
    | none => exact Reaction.becomes_of_forall (fun _ n none => by cases none) _
    | some n =>
        refine (hosted.onSignal_suits (suits h.1 h.2 found n at_key) _ _).mono ?_
        intro d suits m same
        cases same
        exact suits

namespace Instance

variable [Behavior β]

theorem declared_begin (hosted : Hosted wrap) (depth : Nat) (i : Instance β)
    (declared : i.graph.Declared wrap) : (i.begin depth).2.1.graph.Declared wrap := by
  simp only [begin]
  split
  · exact declared
  · exact ((Wave.invariant_declared hosted i.graph).beginning depth i.entry _
      ⟨rfl, declared⟩).2

theorem declared_signal (hosted : Hosted wrap) (depth : Nat) (spot : SpotRef) (args : List Value)
    (i : Instance β) (declared : i.graph.Declared wrap) :
    (i.signal depth spot args).2.1.graph.Declared wrap :=
  ((Wave.invariant_declared hosted i.graph).propagate depth spot args i.wave ⟨rfl, declared⟩).2

theorem declared_fire (hosted : Hosted wrap) (depth : Nat) (keys : List NodeKey) (i : Instance β)
    (declared : i.graph.Declared wrap) : (i.fire depth keys).2.1.graph.Declared wrap := by
  induction keys generalizing i with
  | nil => exact declared
  | cons key keys ih =>
      have first : (i.conclude (i.wave.begin depth key)).2.1.graph.Declared wrap :=
        ((Wave.invariant_declared hosted i.graph).beginning depth key _ ⟨rfl, declared⟩).2
      simp only [fire, andThen]
      split
      · next j events fired =>
          rw [fired] at first
          exact ih j first
      · exact first

theorem declared_tick (hosted : Hosted wrap) (depth : Nat) (delta : Binary32) (i : Instance β)
    (declared : i.graph.Declared wrap) : (i.tick depth delta).2.1.graph.Declared wrap := by
  simp only [tick]
  split
  · exact declared_fire hosted depth _ _ declared
  · exact declared

end Instance

namespace Graph

variable [Behavior β]

theorem Reachable.declared (hosted : Hosted wrap) {g : Graph β} (reach : g.Reachable) :
    g.Declared wrap := by
  induction reach with
  | empty name => exact declared_empty name
  | load loaded =>
      have become (g : Graph β) (key : NodeKey) (b c : β) (h : g.Sound ∧ g.Declared wrap)
          (found : g.behavior? key = some b)
          (suits : ∀ n : Node, n.Suits wrap b → n.Suits wrap c) :
          (g.setBehavior key c).Sound ∧ (g.setBehavior key c).Declared wrap := by
        refine ⟨h.1.of_shape (g.shape_setBehavior key c), h.2.setBehavior ?_⟩
        intro n at_key
        obtain ⟨s, at_slot, rfl⟩ := Option.map_eq_some_iff.mp found
        rw [node?, at_slot] at at_key
        cases at_key
        exact suits s.node (h.2 key s at_slot)
      exact (load_keeps (P := fun g => g.Sound ∧ g.Declared wrap)
        (fun name => ⟨sound_empty name, declared_empty name⟩)
        (fun g id tag type b h => ⟨h.1.addNode id tag type b, h.2.addNode hosted id tag type b⟩)
        (fun g a b h => ⟨h.1.link a b, h.2.link h.1 a b⟩)
        (fun g key b c h found loaded =>
          become g key b c h found fun _ suits => hosted.suits_of_loaded suits loaded)
        (fun g key b c bytes h found restored =>
          become g key b c h found fun _ suits => hosted.suits_of_restore suits restored)
        loaded).2
  | change before step ih =>
      have sound := before.sound
      cases step with
      | addNode id tag type b => exact ih.addNode hosted id tag type b
      | removeNode key => exact ih.removeNode sound key
      | link a b => exact ih.link sound a b
      | disposeLink id => exact ih.disposeLink sound id
      | begin i holds depth => exact i.declared_begin hosted depth (holds ▸ ih)
      | tick i holds depth delta => exact i.declared_tick hosted depth delta (holds ▸ ih)
      | signal i holds depth spot args =>
          exact i.declared_signal hosted depth spot args (holds ▸ ih)

/-- Every node carries the library's behavior of its type key: `own` says in what state. -/
def Carries (wrap : Builtin → β) (own : NodeKey → Builtin) (g : Graph β) : Prop :=
  ∀ key s, g.slot? key = some s → s.behavior = wrap (own key) ∧ s.node.type = (own key).type

omit [Behavior β] in
theorem Carries.decls {own : NodeKey → Builtin} {g : Graph β} (carries : g.Carries wrap own)
    (declared : g.Declared wrap) {key : NodeKey} {n : Node} (found : g.node? key = some n) :
    n.spots.map (·.toSpotDecl) = (own key).spots := by
  obtain ⟨s, at_key, rfl⟩ := Option.map_eq_some_iff.mp found
  exact declared key s at_key (own key) (carries key s at_key).1

def ownBehavior (g : Graph Builtin) (key : NodeKey) : Builtin := (g.behavior? key).getD .update

theorem carries_ownBehavior {g : Graph Builtin}
    (typed : ∀ s ∈ g.slots.filterMap id, s.node.type = s.behavior.type) :
    g.Carries id g.ownBehavior := by
  intro key s found
  have own : g.ownBehavior key = s.behavior := by
    rw [ownBehavior, behavior?, found]
    rfl
  rw [own]
  refine ⟨rfl, typed s (List.mem_filterMap.mpr ⟨some s, ?_, rfl⟩)⟩
  exact List.mem_of_getElem? (Option.join_eq_some_iff.mp found)

end Graph
end SignalGraph
