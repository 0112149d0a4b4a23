import SignalGraph.Proofs.Graph.Membership
import SignalGraph.Proofs.Wave.Invariant

/-!
Running a graph leaves its shape alone: the name, the nodes with their spots, the links and the index
of IDs. Only behaviors change, each in its place. This holds of cut-off and of failed waves as well.
-/

namespace SignalGraph

variable {β : Type}

namespace Graph

def shape (g : Graph β) : Graph Unit :=
  { name := g.name
    slots := g.slots.map (Option.map fun s => ⟨s.node, ()⟩)
    links := g.links
    ids := g.ids }

@[simp]
theorem node?_shape (g : Graph β) (key : NodeKey) : g.shape.node? key = g.node? key := by
  simp only [node?, slot?, shape, List.getElem?_map]
  obtain _ | _ | s := g.slots[key.index]? <;> rfl

@[simp]
theorem spot?_shape (g : Graph β) (ref : SpotRef) : g.shape.spot? ref = g.spot? ref := by
  simp [spot?]

theorem shape_setBehavior (g : Graph β) (key : NodeKey) (b : β) :
    (g.setBehavior key b).shape = g.shape := by
  refine eq_of_views rfl (by simp [shape, setBehavior]) ?_ rfl rfl
  intro k
  have slot?_shape (h : Graph β) : h.shape.slot? k = (h.slot? k).map fun s => ⟨s.node, ()⟩ := by
    simp only [slot?, shape, List.getElem?_map]
    obtain _ | _ | s := h.slots[k.index]? <;> rfl
  rw [slot?_shape, slot?_shape, slot?_setBehavior, Option.map_map]
  congr 1
  funext s
  by_cases same : k = key <;> simp [same]

theorem node?_eq_of_shape {g : Graph β} {γ : Type} {h : Graph γ} (same : g.shape = h.shape)
    (key : NodeKey) : g.node? key = h.node? key := by
  rw [← node?_shape, same, node?_shape]

theorem spot?_eq_of_shape {g : Graph β} {γ : Type} {h : Graph γ} (same : g.shape = h.shape)
    (ref : SpotRef) : g.spot? ref = h.spot? ref := by
  rw [← spot?_shape, same, spot?_shape]

theorem links_eq_of_shape {g : Graph β} {γ : Type} {h : Graph γ} (same : g.shape = h.shape) :
    g.links = h.links :=
  congrArg Graph.links same

theorem length_slots_of_shape {g : Graph β} {γ : Type} {h : Graph γ} (same : g.shape = h.shape) :
    g.slots.length = h.slots.length := by
  have sizes : g.shape.slots.length = h.shape.slots.length := by rw [same]
  simpa [shape] using sizes

theorem ids_eq_of_shape {g : Graph β} {γ : Type} {h : Graph γ} (same : g.shape = h.shape) :
    g.ids = h.ids :=
  congrArg Graph.ids same

theorem Sound.of_shape {g h : Graph β} (sound : g.Sound) (same : h.shape = g.shape) : h.Sound := by
  have nodes := node?_eq_of_shape same
  have spots := spot?_eq_of_shape same
  have links := links_eq_of_shape same
  have ids := ids_eq_of_shape same
  constructor
  · simpa only [ids, nodes] using sound.mem_ids
  · simpa only [ids] using sound.ids_nodup
  · simpa only [keys, ids] using sound.keys_sorted
  · simpa only [nodes] using sound.key_eq
  · simpa only [nodes] using sound.spotIds_nodup
  · simpa only [spots] using sound.owner_eq
  · simpa only [links] using sound.numbered
  · simpa only [link?, links, spots] using sound.ends
  · simpa only [Wired, links, spots] using sound.wired

end Graph

namespace Wave

variable [Behavior β]

theorem invariant_shape (shape : Graph Unit) :
    Invariant (fun w : Wave β => w.graph.shape = shape) (fun _ _ => True) where
  push _ _ _ h := h
  setState _ _ h := h
  become w self b _ h := by rw [Graph.shape_setBehavior, h]
  begin _ _ _ _ _ := Reaction.becomes_of_forall (fun _ => trivial) _
  lost w v id l source target h _ _ crossed _ := by rw [eq_of_cross crossed, h]
  call w v id l source target args b h _ _ crossed _ :=
    ⟨by rw [eq_of_cross crossed]; exact h, Reaction.becomes_of_forall (fun _ => trivial) _⟩

theorem shape_propagate (depth : Nat) (source : SpotRef) (args : List Value) (w : Wave β) :
    (propagate depth source args w).2.graph.shape = w.graph.shape :=
  (invariant_shape w.graph.shape).propagate depth source args w rfl

theorem shape_begin (depth : Nat) (key : NodeKey) (w : Wave β) :
    (w.begin depth key).2.graph.shape = w.graph.shape :=
  (invariant_shape w.graph.shape).beginning depth key w rfl

end Wave

namespace Instance

variable {i j k : Instance β}

/-- From one moment of an instance to a later one graph and state may change, but not the shape of the
graph. -/
structure Settles (i j : Instance β) : Prop where
  same : j = { i with graph := j.graph, state := j.state }
  shape : j.graph.shape = i.graph.shape

theorem Settles.refl (i : Instance β) : Settles i i := ⟨rfl, rfl⟩

theorem Settles.trans (first : Settles i j) (second : Settles j k) : Settles i k where
  same := by rw [second.same, first.same]
  shape := second.shape.trans first.shape

theorem Settles.guard (settles : Settles i j) : j.cycleGuard = i.cycleGuard :=
  congrArg (·.cycleGuard) settles.same

theorem settles_conclude {p : Progress β} (shape : p.2.graph.shape = i.graph.shape) :
    Settles i (i.conclude p).2.1 :=
  ⟨rfl, shape⟩

theorem settles_andThen {c : Call β} {next : Instance β → Call β} (first : Settles i c.2.1)
    (goes : ∀ j, Settles j (next j).2.1) : Settles i (andThen c next).2.1 := by
  simp only [andThen]
  split
  · exact first.trans (goes _)
  · exact first

variable [Behavior β]

theorem settles_begin (depth : Nat) (i : Instance β) :
    Settles { i with started := true } (i.begin depth).2.1 := by
  simp only [begin]
  split
  · next started =>
      have same : ({ i with started := true } : Instance β) = i := by rw [← started]
      exact same ▸ .refl i
  · exact settles_conclude (Wave.shape_begin depth i.entry _)

theorem settles_fire (depth : Nat) (keys : List NodeKey) (i : Instance β) :
    Settles i (i.fire depth keys).2.1 := by
  induction keys generalizing i with
  | nil => exact .refl i
  | cons key keys ih =>
      exact settles_andThen (settles_conclude (Wave.shape_begin depth key i.wave)) ih

theorem settles_tick (depth : Nat) (delta : Binary32) (i : Instance β) :
    Settles i (i.tick depth delta).2.1 := by
  simp only [tick]
  split
  · obtain ⟨same, shape⟩ := settles_fire depth (i.graph.keysOfType .update)
      { i with state := i.state.advance delta }
    exact ⟨same, shape⟩
  · exact .refl i

theorem settles_ticks (depth : Nat) (delta : Binary32) (count : Nat) (i : Instance β) :
    Settles i (i.ticks depth delta count).2.1 := by
  induction count generalizing i with
  | zero => exact .refl i
  | succ count ih => exact settles_andThen (settles_tick depth delta i) ih

theorem shape_begin (depth : Nat) (i : Instance β) :
    (i.begin depth).2.1.graph.shape = i.graph.shape :=
  (settles_begin depth i).shape

theorem shape_signal (depth : Nat) (spot : SpotRef) (args : List Value) (i : Instance β) :
    (i.signal depth spot args).2.1.graph.shape = i.graph.shape :=
  Wave.shape_propagate depth spot args i.wave

theorem shape_tick (depth : Nat) (delta : Binary32) (i : Instance β) :
    (i.tick depth delta).2.1.graph.shape = i.graph.shape :=
  (settles_tick depth delta i).shape

end Instance
end SignalGraph
