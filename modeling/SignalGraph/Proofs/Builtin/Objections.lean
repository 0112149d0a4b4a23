import SignalGraph.Proofs.Builtin.Declared
import SignalGraph.Proofs.Graph.Atomic

/-!
What a wave can meet with where all nodes are the library's. A node can object to a signal, and the guard to
a cycle; besides that the wave finds all that it looks for, down to its innermost signals, so no look-up
fails and no link is passed over. It is assumed that the spot or node it starts from is there. How far a wave
gets is not said, nor that it comes to an end.
-/

namespace SignalGraph

open Builtin

variable {β : Type}

/-! ### What a wave looks for -/

abbrev Finding (β : Type) := SpotRef → List Value → Wave β → Prop

/-- While a reaction is carried out, all is there that its signals look for. `found` says so of one
signal. -/
def Reaction.Finds (send : Send β) (found : Finding β) (self : NodeKey) (source : Option SpotRef) :
    Reaction β → Wave β → Prop
  | done _, _ => True
  | look next, w => (next (w.view self source)).Finds send found self source w
  | become behavior next, w =>
    next.Finds send found self source { w with graph := w.graph.setBehavior self behavior }
  | setState state next, w => next.Finds send found self source { w with state }
  | log level text next, w =>
    next.Finds send found self source (w.push (.log level (w.tagOf self) text))
  | note text next, w => next.Finds send found self source (w.push (.note text))
  | signal spot args next, w =>
    found ⟨self, spot⟩ args (w.push (.send ⟨self, spot⟩ args)) ∧
      match send ⟨self, spot⟩ args (w.push (.send ⟨self, spot⟩ args)) with
      | (none, _) => True
      | (some result, w) => (next result).Finds send found self source w

namespace Wave

variable [Behavior β]

def DeliverFinds (send : Send β) (found : Finding β) (source : SpotRef) (args : List Value)
    (id : LinkId) (w : Wave β) : Prop :=
  ∃ l target, w.graph.link? id = some l ∧ l.farEnd source = .ok target ∧
    match w.cross id source target with
    | .error _ => True
    | .ok w => ∃ b, w.graph.behavior target.node = .ok b ∧
      (Behavior.onSignal b target.index args).Finds send found target.node (some source)
        (w.push (.signal target.node target.index source args))

def DeliverAllFinds (send : Send β) (found : Finding β) (source : SpotRef) (args : List Value) :
    List LinkId → Wave β → Prop
  | [], _ => True
  | id :: rest, w =>
    DeliverFinds send found source args id w ∧
      match deliver send source args id w with
      | (some (.ok ()), w) => DeliverAllFinds send found source args rest w
      | _ => True

def PropagateFinds : (depth : Nat) → Finding β
  | 0, _, _, _ => True
  | depth + 1, source, args, w => ∃ s, w.graph.spot source = .ok s ∧
    DeliverAllFinds (propagate depth) (PropagateFinds depth) source args s.links w

def BeginFinds (depth : Nat) (key : NodeKey) (w : Wave β) : Prop :=
  ∃ b, w.graph.behavior key = .ok b ∧
    (Behavior.onBegin b).Finds (propagate depth) (PropagateFinds depth) key none (w.push (.begin key))

end Wave

/-! ### What nodes object to -/

namespace Builtin

/-- What a library node objects to a signal. -/
inductive Objects : Builtin → List Value → (message : String) → Prop
  | overflow {s : CounterState} {args : List Value} (full : checkedAdd s.count s.step = none) :
      Objects (.counter s) args "counter overflow"
  | unnamed {args : List Value} : Objects (.setVariable "") args "variable name is not set"
  | noValue {name : String} (named : name ≠ "") :
      Objects (.setVariable name) [] "signal carries no value to store"

theorem spots_of_type {b c : Builtin} (same : b.type = c.type) : b.spots = c.spots := by
  cases b <;> cases c <;> first | rfl | exact absurd same (by simp only [type]; decide)

theorem work_cases (wrap : Builtin → β) (b : Builtin) (self : NodeKey) (args : List Value)
    (w : Wave β) :
    (∃ message, b.Objects args message ∧
      b.work wrap self args w = .error (.nodeFailed (w.graph.label self) message)) ∨
    ∃ v out, b.work wrap self args w = .ok (v, out) ∧ v.crossed = w.crossed ∧
      (∀ e ∈ w.record.toList, e ∈ v.record.toList) ∧
      (v.graph = w.graph ∨
        ∃ c : Builtin, c.type = b.type ∧ v.graph = w.graph.setBehavior self (wrap c)) ∧
      (out.isSome → b.spots = [inDecl, outDecl]) := by
  cases b with
  | entry _ | update =>
      exact .inr ⟨w, none, rfl, rfl, fun _ old => old, .inl rfl, fun sends => by cases sends⟩
  | deltaTime => exact .inr ⟨w, _, rfl, rfl, fun _ old => old, .inl rfl, fun _ => rfl⟩
  | console =>
      exact .inr ⟨_, args, rfl, rfl, fun e old => by simp [Wave.push, old], .inl rfl, fun _ => rfl⟩
  | counter s =>
      cases sum : checkedAdd s.count s.step with
      | none => exact .inl ⟨_, .overflow sum, by simp only [work, sum]⟩
      | some count =>
          let next := counter { s with count }
          exact .inr ⟨{ w with graph := w.graph.setBehavior self (wrap next) }, _,
            by simp only [work, sum]; rfl, rfl, fun _ old => old, .inr ⟨next, rfl, rfl⟩, fun _ => rfl⟩
  | setVariable name =>
      by_cases unset : name.isEmpty
      · obtain rfl : name = "" := String.isEmpty_iff.mp unset
        exact .inl ⟨_, .unnamed, rfl⟩
      cases last : args.getLast? with
      | none =>
          obtain rfl : args = [] := List.getLast?_eq_none_iff.mp last
          refine .inl ⟨_, .noValue ?_, by simp only [work, if_neg unset]; rfl⟩
          exact fun empty => unset (String.isEmpty_iff.mpr empty)
      | some value =>
          exact .inr ⟨{ w with state := w.state.setVariable name value }, _,
            by simp only [work, if_neg unset, last]; rfl, rfl, fun _ old => old, .inl rfl, fun _ => rfl⟩

theorem finds_forward (spot : Nat) (args : List Value) {send : Send β} {found : Finding β}
    {self : NodeKey} {source : Option SpotRef} {w : Wave β}
    (finds : found ⟨self, spot⟩ args (w.push (.send ⟨self, spot⟩ args))) :
    (Reaction.forward spot args).Finds send found self source w := by
  simp only [Reaction.forward, Reaction.Finds]
  refine ⟨finds, ?_⟩
  split <;> trivial

theorem finds_onSignal (wrap : Builtin → β) (b : Builtin) (args : List Value) {send : Send β}
    {found : Finding β} {self : NodeKey} {source : Option SpotRef} {w : Wave β}
    (finds : ∀ v out, b.work wrap self args w = .ok (v, some out) →
      found ⟨self, 1⟩ out (v.push (.send ⟨self, 1⟩ out))) :
    (b.onSignal wrap args).Finds send found self source w := by
  cases b with
  | entry _ | update => trivial
  | deltaTime => exact finds_forward 1 _ (finds w _ rfl)
  | console => exact finds_forward 1 args (finds _ args rfl)
  | counter s =>
      cases sum : checkedAdd s.count s.step with
      | none =>
          simp only [onSignal, sum]
          trivial
      | some count =>
          simp only [onSignal, sum]
          exact finds_forward 1 _ (finds _ _ (by simp only [work, sum]))
  | setVariable name =>
      by_cases unset : name.isEmpty
      · simp only [onSignal, if_pos unset]
        trivial
      cases last : args.getLast? with
      | none =>
          simp only [onSignal, if_neg unset, last]
          trivial
      | some value =>
          simp only [onSignal, if_neg unset, last]
          exact finds_forward 1 args (finds _ args (by simp only [work, if_neg unset, last]; rfl))

end Builtin

/-- An error with the reason for it, which is still to be seen in the graph and the record that the call
left: the last call was to a node that objected to it, or a signal was to go again from where the guard had
seen one go before. -/
inductive Objection (wrap : Builtin → β) (guarded : Bool) (g : Graph β) (events : List Event) :
    RunError → Prop
  | node {key : NodeKey} {n : Node} {b : Builtin} {spot : Nat} {source : SpotRef} {args : List Value}
      {message : String} (live : g.node? key = some n) (behaves : g.behavior? key = some (wrap b))
      (typed : n.type = b.type) (called : events.getLast? = some (.signal key spot source args))
      (objects : b.Objects args message) :
      Objection wrap guarded g events (.nodeFailed n.id message)
  | cycle {id : LinkId} {l : Link} {source target : SpotRef} {n : Node} {args : List Value}
      (on : guarded = true) (live : g.link? id = some l) (far : l.farEnd source = .ok target)
      (there : g.node? target.node = some n)
      (before : .signal target.node target.index source args ∈ events) :
      Objection wrap guarded g events (.cycle id n.id)

theorem Objection.append {wrap : Builtin → β} {guarded : Bool} {g : Graph β} {later : List Event}
    {cause : RunError} (objection : Objection wrap guarded g later cause) (events : List Event) :
    Objection wrap guarded g (events ++ later) cause := by
  cases objection with
  | node live behaves typed called objects =>
      exact .node live behaves typed (by rw [List.getLast?_append, called]; rfl) objects
  | cycle on live far there before =>
      exact .cycle on live far there (List.mem_append_right events before)

/-! ### Waves -/

namespace Graph

structure Stocked (g : Graph β) : Prop where
  sound : g.Sound
  decls : ∀ key n (b : Builtin), g.node? key = some n → b.type = n.type →
    n.spots.map (·.toSpotDecl) = b.spots

structure Furnished (wrap : Builtin → β) (g h : Graph β) : Prop where
  shape : h.shape = g.shape
  behavior : ∀ key n, g.node? key = some n →
    ∃ b : Builtin, h.behavior? key = some (wrap b) ∧ b.type = n.type

variable {wrap : Builtin → β} {g h : Graph β}

theorem Stocked.isSome_spot? (stocked : g.Stocked) {key : NodeKey} {n : Node} {b : Builtin}
    (found : g.node? key = some n) (typed : b.type = n.type) (index : Nat)
    (bound : index < b.spots.length) : (g.spot? ⟨key, index⟩).isSome := by
  have size : n.spots.length = b.spots.length := by
    rw [← stocked.decls key n b found typed, List.length_map]
  rw [← size] at bound
  exact Option.isSome_iff_exists.mpr
    ⟨n.spots[index], spot?_eq_some_iff.mpr ⟨n, found, List.getElem?_eq_getElem bound⟩⟩

theorem Furnished.setBehavior (furnished : g.Furnished wrap h) {key : NodeKey} {n : Node} {b : Builtin}
    (found : g.node? key = some n) (typed : b.type = n.type) :
    g.Furnished wrap (h.setBehavior key (wrap b)) where
  shape := (h.shape_setBehavior key (wrap b)).trans furnished.shape
  behavior k m at_k := by
    obtain ⟨c, behaves, same⟩ := furnished.behavior k m at_k
    by_cases here : k = key
    · subst here
      cases found.symm.trans at_k
      exact ⟨b, by rw [behavior?_setBehavior, if_pos rfl, behaves]; rfl, typed⟩
    · exact ⟨c, by rw [behavior?_setBehavior, if_neg here, behaves], same⟩

end Graph

/-- The guard is on or off, and every crossing that it remembers led to one of the calls so far. -/
structure Wave.Guards (guarded : Bool) (g : Graph β) (w : Wave β) : Prop where
  on_iff : w.crossed.isSome = guarded
  called : ∀ crossed, w.crossed = some crossed → ∀ id source, (id, source) ∈ crossed →
    ∃ l target args, g.link? id = some l ∧ l.farEnd source = .ok target ∧
      .signal target.node target.index source args ∈ w.record.toList

namespace Wave.Guards

variable {guarded : Bool} {g : Graph β} {v w : Wave β}

theorem grow (guards : w.Guards guarded g) (same : v.crossed = w.crossed)
    (grown : ∀ e ∈ w.record.toList, e ∈ v.record.toList) : v.Guards guarded g where
  on_iff := by rw [same, guards.on_iff]
  called crossed on id source mem := by
    obtain ⟨l, target, args, live, far, call⟩ := guards.called crossed (same ▸ on) id source mem
    exact ⟨l, target, args, live, far, grown _ call⟩

theorem push (guards : w.Guards guarded g) (e : Event) : (w.push e).Guards guarded g :=
  guards.grow rfl fun _ old => by simp [Wave.push, old]

theorem cross (guards : w.Guards guarded g) {id : LinkId} {l : Link} {source target : SpotRef}
    (live : g.link? id = some l) (far : l.farEnd source = .ok target)
    (crossed : w.cross id source target = .ok v) (args : List Value) :
    (v.push (.signal target.node target.index source args)).Guards guarded g := by
  have after := crossed_of_cross crossed
  have record : v.record = w.record := by rw [eq_of_cross crossed]
  constructor
  case on_iff => rw [Wave.push, after, Option.isSome_map, guards.on_iff]
  case called =>
    intro crossings on id' source' mem
    obtain ⟨old, remembered, rfl⟩ := Option.map_eq_some_iff.mp (after.symm.trans on)
    obtain new | known := List.mem_cons.mp mem
    · cases new
      exact ⟨l, target, args, live, far, by simp [Wave.push]⟩
    · obtain ⟨m, target', args', live', far', call⟩ := guards.called old remembered id' source' known
      exact ⟨m, target', args', live', far', by simp [Wave.push, record, call]⟩

end Wave.Guards

/-- What a part of a wave on the graph `g` comes to: all was there that it looked for, the wave can go
on, and if it fails then for one of the reasons. -/
structure Answers (wrap : Builtin → β) (guarded : Bool) (g : Graph β) (p : Progress β)
    (finds : Prop) : Prop where
  finds : finds
  furnished : g.Furnished wrap p.2.graph
  guards : p.2.Guards guarded g
  objects : ∀ cause, p.1 = some (.error cause) →
    Objection wrap guarded p.2.graph p.2.record.toList cause

def Serves (wrap : Builtin → β) (guarded : Bool) (g : Graph β) (send : Send β) (found : Finding β) :
    Prop :=
  ∀ source args w, (g.spot? source).isSome → g.Furnished wrap w.graph → w.Guards guarded g →
    Answers wrap guarded g (send source args w) (found source args w)

section Waves

variable {wrap : Builtin → β} {guarded : Bool} {g : Graph β} {send : Send β} {found : Finding β}
  {w : Wave β}

theorem Answers.of_ok {finds : Prop} (all : finds) (furnished : g.Furnished wrap w.graph)
    (guards : w.Guards guarded g) : Answers wrap guarded g (some (.ok ()), w) finds :=
  ⟨all, furnished, guards, fun _ failed => by cases failed⟩

theorem Answers.imp {p : Progress β} {finds more : Prop} (answers : Answers wrap guarded g p finds)
    (sub : finds → more) : Answers wrap guarded g p more :=
  ⟨sub answers.finds, answers.furnished, answers.guards, answers.objects⟩

theorem onSignal_answers (stocked : g.Stocked) (serves : Serves wrap guarded g send found)
    (furnished : g.Furnished wrap w.graph) (guards : w.Guards guarded g) {self : NodeKey}
    {n : Node} {b : Builtin} (live : g.node? self = some n)
    (behaves : w.graph.behavior? self = some (wrap b)) (typed : b.type = n.type) {spot : Nat}
    {source : SpotRef} {args : List Value}
    (called : w.record.toList.getLast? = some (.signal self spot source args)) :
    Answers wrap guarded g ((b.onSignal wrap args).run send self (some source) w)
      ((b.onSignal wrap args).Finds send found self (some source) w) := by
  have at_self : w.graph.node? self = some n := by rw [Graph.node?_eq_of_shape furnished.shape, live]
  rw [run_onSignal]
  obtain ⟨message, objects, worked⟩ | ⟨v, out, worked, crossed, grown, graph, sends⟩ :=
    work_cases wrap b self args w
  · simp only [worked]
    refine ⟨finds_onSignal wrap b args (by simp [worked]), furnished, guards, ?_⟩
    intro cause failed
    cases failed
    rw [Graph.label_eq at_self]
    exact .node at_self behaves typed.symm called objects
  have after : g.Furnished wrap v.graph := by
    obtain same | ⟨c, kind, same⟩ := graph
    · rwa [same]
    · rw [same]
      exact furnished.setBehavior live (kind.trans typed)
  have guards' : v.Guards guarded g := guards.grow crossed grown
  cases out with
  | none =>
      simp only [worked]
      exact .of_ok (finds_onSignal wrap b args (by simp [worked])) after guards'
  | some out =>
      have there := stocked.isSome_spot? live typed 1 (by rw [sends rfl]; decide)
      simp only [worked]
      have sent := serves ⟨self, 1⟩ out (v.push (.send ⟨self, 1⟩ out)) there after
        (guards'.push _)
      refine sent.imp fun finds => finds_onSignal wrap b args fun u out' same => ?_
      cases worked.symm.trans same
      exact finds

theorem onBegin_answers (stocked : g.Stocked) (serves : Serves wrap guarded g send found)
    (furnished : g.Furnished wrap w.graph) (guards : w.Guards guarded g) {self : NodeKey}
    {n : Node} {b : Builtin} (live : g.node? self = some n) (typed : b.type = n.type) :
    Answers wrap guarded g ((b.onBegin wrap).run send self none w)
      ((b.onBegin wrap).Finds send found self none w) := by
  cases b with
  | entry begunBy =>
      have there := stocked.isSome_spot? live typed 0 Nat.zero_lt_one
      let begun : Wave β :=
        { w with graph := w.graph.setBehavior self (wrap (entry (some w.instanceId))) }
      have furnished' : g.Furnished wrap begun.graph := furnished.setBehavior live typed
      let args : List Value := [.instanceRef w.instanceId]
      rw [run_onBegin_entry]
      have guards' : begun.Guards guarded g := guards.grow rfl fun _ old => old
      exact (serves ⟨self, 0⟩ args (begun.push (.send ⟨self, 0⟩ args)) there furnished'
        (guards'.push _)).imp (finds_forward 0 args)
  | update =>
      have there := stocked.isSome_spot? live typed 0 Nat.zero_lt_one
      let args : List Value := [.instanceRef w.instanceId, .float w.state.deltaTime]
      have ran : (update.onBegin wrap).run send self none w =
          send ⟨self, 0⟩ args (w.push (.send ⟨self, 0⟩ args)) := run_forward 0 args send self none w
      rw [ran]
      exact (serves ⟨self, 0⟩ args (w.push (.send ⟨self, 0⟩ args)) there furnished
        (guards.push _)).imp (finds_forward 0 args)
  | deltaTime | console | counter _ | setVariable _ => exact .of_ok trivial furnished guards

variable [Behavior β]

namespace Wave

theorem deliver_answers (hosted : Hosted wrap) (stocked : g.Stocked)
    (serves : Serves wrap guarded g send found) (furnished : g.Furnished wrap w.graph)
    (guards : w.Guards guarded g) (source : SpotRef) (args : List Value) {id : LinkId} {l : Link}
    (live : g.link? id = some l) (touches : l.touches source) :
    Answers wrap guarded g (deliver send source args id w)
      (DeliverFinds send found source args id w) := by
  have still : w.graph.link? id = some l := by
    rwa [Graph.link?, Graph.links_eq_of_shape furnished.shape]
  obtain ⟨target, far⟩ := Link.farEnd_of_touches touches
  obtain ⟨n, there⟩ := Option.isSome_iff_exists.mp (stocked.sound.isSome_node?_of_farEnd live far)
  obtain ⟨b, behaves, typed⟩ := furnished.behavior target.node n there
  cases crossed : w.cross id source target with
  | error cause =>
      -- The guard remembers an earlier call over this link, and a link has one far end.
      obtain ⟨crossings, remembered, again, cycle⟩ := cross_eq_error_iff.mp crossed
      obtain ⟨m, target', args', live', far', before⟩ :=
        guards.called crossings remembered id source again
      cases live.symm.trans live'
      cases far.symm.trans far'
      have on : guarded = true := by rw [← guards.on_iff, remembered, Option.isSome_some]
      have at_target : w.graph.node? target.node = some n := by
        rw [Graph.node?_eq_of_shape furnished.shape, there]
      simp only [deliver, DeliverFinds, still, far, crossed]
      refine ⟨⟨l, target, rfl, far, by simp only [crossed]⟩, furnished, guards, ?_⟩
      intro cause' failed
      cases failed
      rw [cycle, Graph.label_eq at_target]
      exact .cycle on still far at_target before
  | ok v =>
      have same : v.graph = w.graph := by rw [eq_of_cross crossed]
      rw [← same] at furnished behaves
      let call := Event.signal target.node target.index source args
      have last : (v.push call).record.toList.getLast? = some call := by simp [push]
      have found := Graph.behavior_eq_ok_iff.mpr behaves
      simp only [deliver, still, far, crossed, found, hosted.onSignal]
      refine (onSignal_answers (w := v.push call) stocked serves furnished
        (guards.cross live far crossed args) there behaves typed last).imp fun finds => ?_
      refine ⟨l, target, still, far, ?_⟩
      simp only [crossed]
      exact ⟨wrap b, found, by rw [hosted.onSignal]; exact finds⟩

theorem deliverAll_answers (hosted : Hosted wrap) (stocked : g.Stocked)
    (serves : Serves wrap guarded g send found) (source : SpotRef) (args : List Value)
    (ids : List LinkId) (near : ∀ id ∈ ids, ∃ l, g.link? id = some l ∧ l.touches source)
    (furnished : g.Furnished wrap w.graph) (guards : w.Guards guarded g) :
    Answers wrap guarded g (deliverAll send source args ids w)
      (DeliverAllFinds send found source args ids w) := by
  induction ids generalizing w with
  | nil => exact .of_ok trivial furnished guards
  | cons id ids ih =>
      obtain ⟨l, live, touches⟩ := near id (by simp)
      have first := deliver_answers hosted stocked serves furnished guards source args live touches
      simp only [deliverAll, DeliverAllFinds]
      rcases delivered : deliver send source args id w with ⟨_ | cause | u, v⟩ <;>
        rw [delivered] at first
      · exact first.imp fun finds => ⟨finds, trivial⟩
      · exact first.imp fun finds => ⟨finds, trivial⟩
      · have rest := ih (fun id mem => near id (by simp [mem])) first.furnished first.guards
        exact rest.imp fun finds => ⟨first.finds, finds⟩

theorem propagate_serves (hosted : Hosted wrap) (stocked : g.Stocked) (depth : Nat) :
    Serves wrap guarded g (propagate depth) (PropagateFinds depth) := by
  induction depth with
  | zero =>
      intro source args w _ furnished guards
      exact ⟨trivial, furnished, guards, fun _ failed => by cases failed⟩
  | succ depth ih =>
      intro source args w there furnished guards
      obtain ⟨s, at_source⟩ := Option.isSome_iff_exists.mp there
      have found : w.graph.spot source = .ok s := by
        rw [Graph.spot_eq_ok_iff, Graph.spot?_eq_of_shape furnished.shape, at_source]
      simp only [propagate, PropagateFinds, found]
      -- The list is followed as it is now, and the links on it stay live: no part of a wave edits.
      have near : ∀ id ∈ s.links, ∃ l, g.link? id = some l ∧ l.touches source :=
        fun id listed => stocked.sound.live_of_listed (Graph.spot_eq_ok_iff.mpr at_source) listed
      exact (deliverAll_answers hosted stocked ih source args s.links near furnished guards).imp
        fun finds => ⟨s, rfl, finds⟩

theorem begin_answers (hosted : Hosted wrap) (stocked : g.Stocked) (depth : Nat) {key : NodeKey}
    {n : Node} (live : g.node? key = some n) (furnished : g.Furnished wrap w.graph)
    (guards : w.Guards guarded g) :
    Answers wrap guarded g (w.begin depth key) (w.BeginFinds depth key) := by
  obtain ⟨b, behaves, typed⟩ := furnished.behavior key n live
  have found := Graph.behavior_eq_ok_iff.mpr behaves
  simp only [begin, found, hosted.onBegin]
  refine (onBegin_answers (w := w.push (.begin key)) stocked (propagate_serves hosted stocked depth)
    furnished (guards.push _) live typed).imp fun finds => ?_
  exact ⟨wrap b, found, by rw [hosted.onBegin]; exact finds⟩

end Wave
end Waves

end SignalGraph
