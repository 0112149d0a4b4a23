import SignalGraph.Proofs.Graph.Renaming

/-!
Waves on graphs that are alike run in step: at every depth they end together, with the same result and the
same record up to the renaming of handles. The links that the cycle guard remembers are live, so renaming
confuses no two of them. Graphs of other behaviors than the library's are not considered.
-/

namespace SignalGraph

open Builtin

variable {β : Type} {wrap : Builtin → β} {r : Renaming} {g : Graph β}

/-- The second wave is the first with renamed handles. The first one runs on the nodes and links
of `g`. -/
structure Wave.Mirrors (r : Renaming) (wrap : Builtin → β) (g : Graph β) (w v : Wave β) : Prop where
  shape : w.graph.shape = g.shape
  graph : Graph.Alike r wrap w.graph v.graph
  state : v.state = w.state
  crossed : v.crossed = w.crossed.map (·.map fun x => (r.link x.1, r.spotRef x.2))
  known : ∀ crossed, w.crossed = some crossed → ∀ x ∈ crossed,
    (g.link? x.1).isSome ∧ (g.node? x.2.node).isSome
  record : v.record.toList = w.record.toList.map r.event

def Progress.Mirrors (r : Renaming) (wrap : Builtin → β) (g : Graph β) (p q : Progress β) : Prop :=
  q.1 = r.result p.1 ∧ p.2.Mirrors r wrap g q.2

/-- A way to send that runs in step on both sides. -/
def Send.Mirrors (r : Renaming) (wrap : Builtin → β) (g : Graph β) (send : Send β) : Prop :=
  ∀ source args w v, (g.node? source.node).isSome → Wave.Mirrors r wrap g w v →
    Progress.Mirrors r wrap g (send source args w) (send (r.spotRef source) args v)

namespace Wave.Mirrors

variable {w v : Wave β}

theorem node? (mirrors : Mirrors r wrap g w v) (key : NodeKey) :
    w.graph.node? key = g.node? key :=
  Graph.node?_eq_of_shape mirrors.shape key

theorem link? (mirrors : Mirrors r wrap g w v) (id : LinkId) :
    w.graph.link? id = g.link? id := by
  rw [Graph.link?, Graph.links_eq_of_shape mirrors.shape, Graph.link?]

theorem push (mirrors : Mirrors r wrap g w v) (e : Event) :
    Mirrors r wrap g (w.push e) (v.push (r.event e)) where
  shape := mirrors.shape
  graph := mirrors.graph
  state := mirrors.state
  crossed := mirrors.crossed
  known := mirrors.known
  record := by simp [Wave.push, mirrors.record]

theorem setState (mirrors : Mirrors r wrap g w v) (state : InstanceState) :
    Mirrors r wrap g { w with state } { v with state } :=
  ⟨mirrors.shape, mirrors.graph, rfl, mirrors.crossed, mirrors.known, mirrors.record⟩

theorem setBehavior (mirrors : Mirrors r wrap g w v) {key : NodeKey}
    (live : (g.node? key).isSome) {b b' : Builtin} (twin : b'.stored = b.stored) :
    Mirrors r wrap g { w with graph := w.graph.setBehavior key (wrap b) }
      { v with graph := v.graph.setBehavior (r.node key) (wrap b') } := by
  have live' : (w.graph.node? key).isSome := by rwa [mirrors.node?]
  exact ⟨(w.graph.shape_setBehavior key (wrap b)).trans mirrors.shape,
    mirrors.graph.setBehavior live' twin, mirrors.state, mirrors.crossed, mirrors.known,
    mirrors.record⟩

theorem label (mirrors : Mirrors r wrap g w v) {key : NodeKey} (live : (g.node? key).isSome) :
    v.graph.label (r.node key) = w.graph.label key :=
  mirrors.graph.label (by rwa [mirrors.node?])

theorem tagOf (mirrors : Mirrors r wrap g w v) {key : NodeKey} (live : (g.node? key).isSome) :
    v.tagOf (r.node key) = w.tagOf key := by
  obtain ⟨n, found⟩ := Option.isSome_iff_exists.mp live
  rw [← mirrors.node?] at found
  simp only [Wave.tagOf, mirrors.graph.node key n found, found]
  rfl

theorem cross (mirrors : Mirrors r wrap g w v) {id : LinkId} {source target : SpotRef}
    (live : (g.link? id).isSome) (from_live : (g.node? source.node).isSome)
    (to_live : (g.node? target.node).isSome) :
    (∃ w' v', w.cross id source target = .ok w' ∧
      v.cross (r.link id) (r.spotRef source) (r.spotRef target) = .ok v' ∧
      Mirrors r wrap g w' v') ∨
    ∃ cause, w.cross id source target = .error cause ∧
      v.cross (r.link id) (r.spotRef source) (r.spotRef target) = .error (r.error cause) := by
  cases guard : w.crossed with
  | none =>
      have guard' : v.crossed = none := by rw [mirrors.crossed, guard]; rfl
      exact .inl ⟨w, v, by simp only [Wave.cross, guard], by simp only [Wave.cross, guard'],
        mirrors⟩
  | some crossed =>
      have guard' : v.crossed = some (crossed.map fun x => (r.link x.1, r.spotRef x.2)) := by
        rw [mirrors.crossed, guard]
        rfl
      have renamed : (r.link id, r.spotRef source) ∈
          crossed.map (fun x => (r.link x.1, r.spotRef x.2)) ↔ (id, source) ∈ crossed := by
        constructor
        · intro mem
          obtain ⟨⟨id', source'⟩, old, same⟩ := List.mem_map.mp mem
          obtain ⟨live', from_live'⟩ := mirrors.known crossed guard _ old
          obtain ⟨links, spots⟩ := Prod.mk.inj same
          have id_eq := mirrors.graph.link_inj id' id (by rwa [mirrors.link?])
            (by rwa [mirrors.link?]) links
          have source_eq : source' = source := mirrors.graph.spotRef_inj (by rwa [mirrors.node?])
            (by rwa [mirrors.node?]) spots
          rwa [id_eq, source_eq] at old
        · intro mem
          exact List.mem_map_of_mem mem
      have label : v.graph.label (r.spotRef target).node = w.graph.label target.node :=
        mirrors.label to_live
      by_cases again : (id, source) ∈ crossed
      · refine .inr ⟨.cycle id (w.graph.label target.node), ?_, ?_⟩
        · simp only [Wave.cross, guard, if_pos again]
        · simp only [Wave.cross, guard', if_pos (renamed.mpr again), label]
          rfl
      · let links := crossed.map fun x => (r.link x.1, r.spotRef x.2)
        refine .inl ⟨{ w with crossed := some ((id, source) :: crossed) },
          { v with crossed := some ((r.link id, r.spotRef source) :: links) },
          by simp only [Wave.cross, guard, if_neg again],
          by simp only [Wave.cross, guard', if_neg (mt renamed.mp again), links], ?_⟩
        refine ⟨mirrors.shape, mirrors.graph, mirrors.state, rfl, ?_, mirrors.record⟩
        intro more same x mem
        cases same
        obtain rfl | old := List.mem_cons.mp mem
        · exact ⟨live, from_live⟩
        · exact mirrors.known crossed guard x old

theorem work (mirrors : Mirrors r wrap g w v) {self : NodeKey} (live : (g.node? self).isSome)
    (args : List Value) (b : Builtin) :
    (∃ w' v' out, b.work wrap self args w = .ok (w', out) ∧
      b.work wrap (r.node self) args v = .ok (v', out) ∧ Mirrors r wrap g w' v') ∨
    ∃ cause, b.work wrap self args w = .error cause ∧
      b.work wrap (r.node self) args v = .error (r.error cause) := by
  cases b with
  | entry _ | update => exact .inl ⟨w, v, none, rfl, rfl, mirrors⟩
  | deltaTime =>
      refine .inl ⟨w, v, some (args ++ [.float w.state.deltaTime]), rfl, ?_, mirrors⟩
      simp only [Builtin.work, mirrors.state]
  | console =>
      have pushed := mirrors.push (.log .info (w.tagOf self) (Value.listText args))
      refine .inl ⟨_, _, some args, rfl, ?_, pushed⟩
      simp only [Builtin.work, mirrors.tagOf live]
      rfl
  | counter s =>
      cases sum : checkedAdd s.count s.step with
      | none =>
          refine .inr ⟨.nodeFailed (w.graph.label self) "counter overflow", ?_, ?_⟩
          · simp only [Builtin.work, sum]
          · simp only [Builtin.work, sum, mirrors.label live]
            rfl
      | some count =>
          have after := mirrors.setBehavior (b := counter { s with count }) live rfl
          refine .inl ⟨_, _, some (args ++ [.int count]), ?_, ?_, after⟩ <;>
            simp only [Builtin.work, sum]
  | setVariable name =>
      by_cases unset : name.isEmpty
      · refine .inr ⟨.nodeFailed (w.graph.label self) "variable name is not set", ?_, ?_⟩
        · simp only [Builtin.work, if_pos unset]
        · simp only [Builtin.work, if_pos unset, mirrors.label live]
          rfl
      cases last : args.getLast? with
      | none =>
          refine .inr ⟨.nodeFailed (w.graph.label self) "signal carries no value to store", ?_, ?_⟩
          · simp only [Builtin.work, if_neg unset, last]
          · simp only [Builtin.work, if_neg unset, last, mirrors.label live]
            rfl
      | some value =>
          have after := mirrors.setState (w.state.setVariable name value)
          refine .inl ⟨_, _, some args, ?_, ?_, after⟩
          · simp only [Builtin.work, if_neg unset, last]
          · simp only [Builtin.work, if_neg unset, last, mirrors.state]

end Wave.Mirrors

/-! ### Whole waves -/

section Waves

variable [Behavior β]

open Wave

theorem Send.Mirrors.deliver (hosted : Hosted wrap) (sound : g.Sound) {send : Send β}
    (same : send.Mirrors r wrap g) {w v : Wave β} (mirrors : w.Mirrors r wrap g v) {id : LinkId}
    {l : Link} (live : g.link? id = some l) {source : SpotRef} (touches : l.touches source)
    (from_live : (g.node? source.node).isSome) (args : List Value) :
    Progress.Mirrors r wrap g (deliver send source args id w)
      (deliver send (r.spotRef source) args (r.link id) v) := by
  obtain ⟨target, far⟩ := Link.farEnd_of_touches touches
  have to_live : (g.node? target.node).isSome := sound.isSome_node?_of_farEnd live far
  have sound' : w.graph.Sound := sound.of_shape mirrors.shape
  have live_w : w.graph.link? id = some l := by rw [mirrors.link?, live]
  have live_v := mirrors.graph.link id l live_w
  have far_v := mirrors.graph.farEnd sound' live_w far
  simp only [Wave.deliver, live_w, far, live_v, far_v]
  have link_live : (g.link? id).isSome := by
    rw [live]
    rfl
  obtain ⟨w', v', crossed, crossed', mirrors'⟩ | ⟨cause, again, again'⟩ :=
    mirrors.cross link_live from_live to_live
  · rw [crossed, crossed']
    obtain ⟨c, found⟩ : ∃ c, w'.graph.behavior? target.node = some c := by
      rwa [← Option.isSome_iff_exists, Graph.behavior?_isSome_iff, mirrors'.node?]
    obtain ⟨b, b', rfl, found', twin⟩ := mirrors'.graph.behavior target.node c found
    have behaves := Graph.behavior_eq_ok_iff.mpr found
    have behaves' : v'.graph.behavior (r.spotRef target).node = .ok (wrap b') :=
      Graph.behavior_eq_ok_iff.mpr found'
    simp only [behaves, behaves', hosted.onSignal, run_onSignal]
    rw [← work_stored (b := b'), twin, work_stored]
    obtain ⟨w'', v'', out, worked, worked', mirrors''⟩ | ⟨cause, failed, failed'⟩ :=
      (mirrors'.push (.signal target.node target.index source args)).work to_live args b
    · simp only [Renaming.event, Renaming.spotRef] at worked'
      simp only [Renaming.spotRef, worked, worked']
      cases out with
      | none => exact ⟨rfl, mirrors''⟩
      | some out =>
          exact same ⟨target.node, 1⟩ out _ _ to_live (mirrors''.push (.send ⟨target.node, 1⟩ out))
    · simp only [Renaming.event, Renaming.spotRef] at failed'
      simp only [Renaming.spotRef, failed, failed']
      exact ⟨rfl, mirrors'.push (.signal target.node target.index source args)⟩
  · rw [again, again']
    exact ⟨rfl, mirrors⟩

theorem Send.Mirrors.deliverAll (hosted : Hosted wrap) (sound : g.Sound) {send : Send β}
    (same : send.Mirrors r wrap g) {source : SpotRef} (from_live : (g.node? source.node).isSome)
    (args : List Value) (ids : List LinkId)
    (at_source : ∀ id ∈ ids, ∃ l, g.link? id = some l ∧ l.touches source) {w v : Wave β}
    (mirrors : w.Mirrors r wrap g v) :
    Progress.Mirrors r wrap g (deliverAll send source args ids w)
      (deliverAll send (r.spotRef source) args (ids.map r.link) v) := by
  induction ids generalizing w v with
  | nil => exact ⟨rfl, mirrors⟩
  | cons id ids ih =>
      obtain ⟨l, live, touches⟩ := at_source id (by simp)
      have first := same.deliver hosted sound mirrors live touches from_live args
      simp only [List.map_cons, Wave.deliverAll]
      revert first
      obtain ⟨answer, w'⟩ := Wave.deliver send source args id w
      obtain ⟨answer', v'⟩ := Wave.deliver send (r.spotRef source) args (r.link id) v
      intro first
      obtain ⟨rfl, mirrors'⟩ : answer' = r.result answer ∧ w'.Mirrors r wrap g v' := first
      cases answer with
      | none => exact ⟨rfl, mirrors'⟩
      | some outcome =>
          cases outcome with
          | error cause => exact ⟨rfl, mirrors'⟩
          | ok _ => exact ih (fun id mem => at_source id (by simp [mem])) mirrors'

theorem Wave.propagate_mirrors (hosted : Hosted wrap) (sound : g.Sound) (depth : Nat) :
    Send.Mirrors r wrap g (propagate depth) := by
  induction depth with
  | zero => exact fun _ _ _ _ _ mirrors => ⟨rfl, mirrors⟩
  | succ depth ih =>
      intro source args w v live mirrors
      have live_w : (w.graph.node? source.node).isSome := by rwa [mirrors.node?]
      have spot := mirrors.graph.spot live_w
      simp only [propagate, spot]
      cases found : w.graph.spot source with
      | error cause => exact ⟨rfl, mirrors⟩
      | ok s =>
          refine Send.Mirrors.deliverAll hosted sound ih live args s.links ?_ mirrors
          intro id mem
          have sound' : w.graph.Sound := sound.of_shape mirrors.shape
          rw [sound'.wired source s (Graph.spot_eq_ok_iff.mp found),
            LinkArena.mem_touching_iff sound'.numbered] at mem
          obtain ⟨l, at_id, touches⟩ := mem
          refine ⟨l, ?_, touches⟩
          rw [← mirrors.link?]
          exact Graph.link?_eq_some_iff.mpr at_id

end Waves
end SignalGraph
