import SignalGraph.Proofs.Builtin.DepthFirst
import SignalGraph.Proofs.Document.Snapshot
import SignalGraph.Proofs.Wave.Stopping

/-!
What a run can change of a graph. Whatever behaviors do, and however deep their signals nest, they reach the
graph only by taking on new behaviors in their own places; so nothing changes but the behaviors of nodes
that were called. Failing calls and calls that are cut off are covered. What the changes are is not said.
-/

namespace SignalGraph

variable {β : Type}

def Event.called? : Event → Option NodeKey
  | .begin key | .signal key .. => some key
  | _ => none

def Called (events : List Event) (key : NodeKey) : Prop := ∃ e ∈ events, e.called? = some key

instance (events : List Event) (key : NodeKey) : Decidable (Called events key) :=
  inferInstanceAs (Decidable (∃ e ∈ events, e.called? = some key))

theorem called_append_iff {events later : List Event} {key : NodeKey} :
    Called (events ++ later) key ↔ Called events key ∨ Called later key := by
  simp only [Called, List.mem_append, or_and_right, exists_or]

/-! ### Waves -/

namespace Wave

/-- From one moment of a wave to a later one, behaviors change at nodes only that were called meanwhile
or that were running already. -/
def Confined (running : NodeKey → Prop) (w v : Wave β) : Prop :=
  ∃ later, v.record.toList = w.record.toList ++ later ∧ ∀ key, ¬ running key →
    ¬ Called later key → v.graph.behavior? key = w.graph.behavior? key

namespace Confined

variable {running : NodeKey → Prop} {u v w : Wave β}

theorem of_graph_eq (later : List Event) (graph : v.graph = w.graph)
    (grown : v.record.toList = w.record.toList ++ later) : Confined running w v :=
  ⟨later, grown, fun _ _ _ => by rw [graph]⟩

theorem refl (running : NodeKey → Prop) (w : Wave β) : Confined running w w :=
  of_graph_eq [] rfl (by simp)

theorem push (running : NodeKey → Prop) (w : Wave β) (e : Event) :
    Confined running w (w.push e) :=
  of_graph_eq [e] rfl (by simp [Wave.push])

theorem trans (first : Confined running u v) (second : Confined running v w) :
    Confined running u w := by
  obtain ⟨early, grown, same⟩ := first
  obtain ⟨late, grown', same'⟩ := second
  refine ⟨early ++ late, by rw [grown', grown, List.append_assoc], ?_⟩
  intro key idle quiet
  rw [called_append_iff, not_or] at quiet
  exact (same' key idle quiet.2).trans (same key idle quiet.1)

theorem mono {more : NodeKey → Prop} (confined : Confined running w v)
    (sub : ∀ key, running key → more key) : Confined more w v := by
  obtain ⟨later, grown, same⟩ := confined
  exact ⟨later, grown, fun key idle => same key fun runs => idle (sub key runs)⟩

theorem become (self : NodeKey) (w : Wave β) (b : β) :
    Confined (· = self) w { w with graph := w.graph.setBehavior self b } := by
  refine ⟨[], by simp, ?_⟩
  intro key idle _
  rw [Graph.behavior?_setBehavior, if_neg idle]

/-- What a called node does is confined to it and to the nodes called after it, so once its own call is
counted, to nodes that were called. -/
theorem of_call {self : NodeKey} {e : Event} (call : e.called? = some self)
    (confined : Confined (· = self) (w.push e) v) : Confined (fun _ => False) w v := by
  obtain ⟨later, grown, same⟩ := confined
  refine ⟨[e] ++ later, by simp [grown, Wave.push], ?_⟩
  intro key _ quiet
  have idle : key ≠ self := by
    rintro rfl
    exact quiet (called_append_iff.mpr (.inl ⟨e, by simp, call⟩))
  exact same key idle fun called => quiet (called_append_iff.mpr (.inr called))

end Confined

def Confines (send : Send β) : Prop :=
  ∀ source args w, Confined (fun _ => False) w (send source args w).2

theorem run_confined {send : Send β} (confines : Confines send) (self : NodeKey)
    (source : Option SpotRef) (r : Reaction β) (w : Wave β) :
    Confined (· = self) w (r.run send self source w).2 := by
  induction r generalizing w with
  | done result => exact .refl _ w
  | look next ih => exact ih _ w
  | become b next ih => exact (Confined.become self w b).trans (ih _)
  | setState state next ih => exact ih { w with state }
  | log level text next ih => exact (Confined.push _ w _).trans (ih _)
  | note text next ih => exact (Confined.push _ w _).trans (ih _)
  | signal spot args next ih =>
      have sent : Confined (· = self) w
          (send ⟨self, spot⟩ args (w.push (.send ⟨self, spot⟩ args))).2 :=
        (Confined.push _ w _).trans ((confines ⟨self, spot⟩ args _).mono fun _ none => none.elim)
      simp only [Reaction.run]
      rcases ran : send ⟨self, spot⟩ args (w.push (.send ⟨self, spot⟩ args)) with
        ⟨_ | result, v⟩ <;> rw [ran] at sent
      · exact sent
      · exact sent.trans (ih result v)

variable [Behavior β]

theorem deliver_confined {send : Send β} (confines : Confines send) (source : SpotRef)
    (args : List Value) (id : LinkId) (w : Wave β) :
    Confined (fun _ => False) w (deliver send source args id w).2 := by
  simp only [deliver]
  split
  · exact .refl _ w
  split
  · exact .refl _ w
  next target _ =>
  split
  · exact .refl _ w
  next v crossed =>
  have start : Confined (fun _ => False) w v := by
    rw [eq_of_cross crossed]
    exact .of_graph_eq [] rfl (by simp)
  split
  · exact start
  · exact start.trans (.of_call rfl (run_confined confines target.node (some source) _ _))

theorem deliverAll_confined {send : Send β} (confines : Confines send) (source : SpotRef)
    (args : List Value) (ids : List LinkId) (w : Wave β) :
    Confined (fun _ => False) w (deliverAll send source args ids w).2 := by
  induction ids generalizing w with
  | nil => exact .refl _ w
  | cons id ids ih =>
      have first := deliver_confined confines source args id w
      simp only [deliverAll]
      split
      · next v delivered =>
          rw [delivered] at first
          exact first.trans (ih v)
      · exact first

theorem propagate_confines (depth : Nat) : Confines (propagate (β := β) depth) := by
  induction depth with
  | zero => exact fun _ _ w => .refl _ w
  | succ depth ih =>
      intro source args w
      simp only [propagate]
      split
      · exact .refl _ w
      · exact deliverAll_confined ih source args _ w

theorem begin_confined (depth : Nat) (key : NodeKey) (w : Wave β) :
    Confined (fun _ => False) w (w.begin depth key).2 := by
  simp only [begin]
  split
  · exact .refl _ w
  · exact .of_call rfl (run_confined (propagate_confines depth) key none _ _)

end Wave

/-! ### Calls -/

namespace Instance

variable [Behavior β]

theorem shape_respond (depth : Nat) (s : Stimulus) (i : Instance β) :
    (i.respond depth s).2.1.graph.shape = i.graph.shape := by
  cases s with
  | begin => exact shape_begin depth i
  | tick delta => exact shape_tick depth delta i
  | signal spot args => exact shape_signal depth spot args i

theorem change_respond (depth : Nat) (s : Stimulus) (i : Instance β) :
    i.graph.Change (i.respond depth s).2.1.graph := by
  cases s with
  | begin => exact .begin i rfl depth
  | tick delta => exact .tick i rfl depth delta
  | signal spot args => exact .signal i rfl depth spot args

def Contains (i : Instance β) (c : Call β) : Prop :=
  ∀ key, ¬ Called c.2.2 key → c.2.1.graph.behavior? key = i.graph.behavior? key

omit [Behavior β] in
theorem contains_conclude {i : Instance β} {p : Progress β}
    (confined : Wave.Confined (fun _ => False) i.wave p.2) : i.Contains (i.conclude p) := by
  obtain ⟨later, grown, same⟩ := confined
  intro key quiet
  refine same key not_false ?_
  have record : p.2.record.toList = later := by simpa [wave] using grown
  rwa [← record]

theorem contains_fire (depth : Nat) (keys : List NodeKey) (i : Instance β) :
    i.Contains (i.fire depth keys) := by
  induction keys generalizing i with
  | nil => exact fun _ _ => rfl
  | cons key keys ih =>
      have first := contains_conclude (Wave.begin_confined depth key i.wave)
      simp only [fire, andThen]
      split
      · next j events began =>
          rw [began] at first
          intro k quiet
          rw [called_append_iff, not_or] at quiet
          exact (ih j k quiet.2).trans (first k quiet.1)
      · exact first

theorem contains_respond (depth : Nat) (s : Stimulus) (i : Instance β) :
    i.Contains (i.respond depth s) := by
  cases s with
  | begin =>
      simp only [respond, begin]
      split
      · exact fun _ _ => rfl
      · exact contains_conclude (Wave.begin_confined depth i.entry _)
  | tick delta =>
      simp only [respond, tick]
      split
      · exact contains_fire depth _ { i with state := i.state.advance delta }
      · exact fun _ _ => rfl
  | signal spot args => exact contains_conclude (Wave.propagate_confines depth spot args _)

end Instance

/-- After some events, a graph is the same but for behaviors of the nodes that were called. -/
structure Graph.SameStructure [Behavior β] (g h : Graph β) (events : List Event) : Prop where
  name : h.name = g.name
  ids : h.ids = g.ids
  node : ∀ key, h.node? key = g.node? key
  links : h.links = g.links
  behaves : ∀ key, (g.node? key).isSome → (h.behavior? key).isSome
  uncalled : ∀ key, ¬ Called events key → h.behavior? key = g.behavior? key
  documents : ∀ d d', g.snapshot.1 = .ok d → h.snapshot.1 = .ok d' →
    d.SameBut (fun id => ∃ key, g.find? id = some key ∧ Called events key) d'
  /-- If there was a snapshot, there still is one, unless a called node cannot be stored any more. -/
  storable : ∀ d, g.snapshot.1 = .ok d →
    (∀ key b, Called events key → h.behavior? key = some b → ∃ bytes, Behavior.save b = .ok bytes) →
    ∃ d', h.snapshot.1 = .ok d'

/-- Running leaves the structure of a graph as it is, whatever its behaviors are, and whether the run
succeeds, fails or is cut off. -/
theorem Instance.runs_keep_structure [Behavior β] {i : Instance β} (reach : i.graph.Reachable)
    (depth : Nat) (s : Stimulus) :
    i.graph.SameStructure (i.respond depth s).2.1.graph (i.respond depth s).2.2 := by
  have shape := i.shape_respond depth s
  have contains := i.contains_respond depth s
  constructor
  case name =>
    have same : (i.respond depth s).2.1.graph.shape.name = i.graph.shape.name := by rw [shape]
    exact same
  case ids => exact Graph.ids_eq_of_shape shape
  case node => exact Graph.node?_eq_of_shape shape
  case links => exact Graph.links_eq_of_shape shape
  case behaves =>
    intro key live
    rwa [Graph.behavior?_isSome_iff, Graph.node?_eq_of_shape shape]
  case uncalled => exact contains
  case documents => exact fun d d' => Graph.sameBut_of_shape reach.sound shape contains
  case storable =>
    exact fun d before saves => Graph.exists_snapshot_of_shape reach.sound shape contains saves before

def Graph.feedback : Graph Builtin := (Instance.forked.link ⟨⟨2⟩, 1⟩ ⟨⟨2⟩, 0⟩).2

theorem Graph.reachable_feedback : feedback.Reachable :=
  Instance.reachable_forked.change (.link ⟨⟨2⟩, 1⟩ ⟨⟨2⟩, 0⟩)

/-- The counter is signalled again while it runs, and then the guard ends the call; the entry, which was
not called, is as before, and so is all structure. -/
theorem Instance.feedback_keeps_structure :
    let i : Instance Builtin := ⟨⟨0⟩, .feedback, .initial, .collector, ⟨0⟩, false, true⟩
    let c := i.respond 8 (.signal ⟨⟨1⟩, 1⟩ [])
    Graph.feedback.Reachable ∧ c.1 = some (.error (.cycle ⟨3⟩ "show")) ∧
      c.2.1.graph.behavior? ⟨2⟩ = some (.counter ⟨9, 2⟩) ∧ ¬ Called c.2.2 ⟨0⟩ ∧
      Graph.feedback.SameStructure c.2.1.graph c.2.2 := by
  intro i c
  exact ⟨Graph.reachable_feedback, by decide +kernel, by decide +kernel, by decide +kernel,
    runs_keep_structure (i := i) Graph.reachable_feedback 8 (.signal ⟨⟨1⟩, 1⟩ [])⟩

end SignalGraph
