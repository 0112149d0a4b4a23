import SignalGraph.Instance
import SignalGraph.Proofs.Builtin.Assigning

/-!
What a wave adds to its record. Nothing in a wave reads the record, so what was recorded before is of no
consequence; and of all its calls only the first can be a begin.
-/

namespace SignalGraph

variable {β : Type}

namespace Wave

def behind (earlier : Array Event) (w : Wave β) : Wave β := { w with record := earlier ++ w.record }

theorem push_behind (earlier : Array Event) (w : Wave β) (e : Event) :
    (w.behind earlier).push e = (w.push e).behind earlier := by
  simp [behind, push]

def begun (w : Wave β) : List NodeKey := w.record.toList.filterMap Event.begun?

theorem begun_push (w : Wave β) (e : Event) : (w.push e).begun = w.begun ++ e.begun?.toList := by
  cases found : e.begun? <;> simp [begun, push, found]

end Wave

def Progress.behind (earlier : Array Event) (p : Progress β) : Progress β := (p.1, p.2.behind earlier)

/-- A way to send to which the record is of no consequence, and that lets no node begin. -/
structure Send.Records (send : Send β) : Prop where
  behind : ∀ earlier source args w,
    send source args (w.behind earlier) = (send source args w).behind earlier
  begun : ∀ source args w, (send source args w).2.begun = w.begun

theorem Reaction.run_behind {send : Send β} (records : send.Records) (earlier : Array Event)
    (self : NodeKey) (source : Option SpotRef) (r : Reaction β) (w : Wave β) :
    r.run send self source (w.behind earlier) = (r.run send self source w).behind earlier := by
  induction r generalizing w with
  | done _ => rfl
  | look next ih => exact ih _ w
  | become b next ih => exact ih { w with graph := w.graph.setBehavior self b }
  | setState state next ih => exact ih { w with state }
  | log level text next ih =>
      simp only [run, Wave.push_behind]
      exact ih _
  | note text next ih =>
      simp only [run, Wave.push_behind]
      exact ih _
  | signal spot args next ih =>
      simp only [run, Wave.push_behind, records.behind]
      rcases send ⟨self, spot⟩ args (w.push (.send ⟨self, spot⟩ args)) with ⟨_ | result, v⟩
      · rfl
      · exact ih result v

theorem Reaction.begun_run {send : Send β} (records : send.Records) (self : NodeKey)
    (source : Option SpotRef) (r : Reaction β) (w : Wave β) :
    (r.run send self source w).2.begun = w.begun := by
  induction r generalizing w with
  | done _ => rfl
  | look next ih => exact ih _ w
  | become b next ih => exact ih { w with graph := w.graph.setBehavior self b }
  | setState state next ih => exact ih { w with state }
  | log level text next ih =>
      rw [run, ih, Wave.begun_push]
      exact List.append_nil _
  | note text next ih =>
      rw [run, ih, Wave.begun_push]
      exact List.append_nil _
  | signal spot args next ih =>
      have sent := records.begun ⟨self, spot⟩ args (w.push (.send ⟨self, spot⟩ args))
      rw [Wave.begun_push] at sent
      simp only [run]
      rcases ran : send ⟨self, spot⟩ args (w.push (.send ⟨self, spot⟩ args)) with ⟨_ | result, v⟩ <;>
        rw [ran] at sent
      · exact sent.trans (List.append_nil _)
      · exact (ih result v).trans (sent.trans (List.append_nil _))

namespace Wave

variable [Behavior β]

omit [Behavior β] in
theorem cross_behind (earlier : Array Event) (w : Wave β) (id : LinkId) (source target : SpotRef) :
    (w.behind earlier).cross id source target = (w.cross id source target).map (behind earlier) := by
  unfold cross behind
  cases guard : w.crossed with
  | none => simp [Except.map, guard]
  | some crossed => by_cases again : (id, source) ∈ crossed <;> simp [again, Except.map]

theorem deliver_behind {send : Send β} (records : send.Records) (earlier : Array Event) (source : SpotRef)
    (args : List Value) (id : LinkId) (w : Wave β) :
    deliver send source args id (w.behind earlier) = (deliver send source args id w).behind earlier := by
  have same (w : Wave β) : (w.behind earlier).graph = w.graph := rfl
  cases live : w.graph.link? id with
  | none =>
      simp only [deliver, same, live]
      rfl
  | some l =>
  cases far : l.farEnd source with
  | error cause =>
      simp only [deliver, same, live, far]
      rfl
  | ok target =>
  cases crossed : w.cross id source target with
  | error cause =>
      simp only [deliver, same, live, far, cross_behind, crossed, Except.map]
      rfl
  | ok v =>
  cases found : v.graph.behavior target.node with
  | error cause =>
      simp only [deliver, same, live, far, cross_behind, crossed, Except.map, found]
      rfl
  | ok b =>
      simp only [deliver, same, live, far, cross_behind, crossed, Except.map, found, push_behind]
      exact Reaction.run_behind records earlier target.node (some source) _ _

theorem begun_deliver {send : Send β} (records : send.Records) (source : SpotRef) (args : List Value)
    (id : LinkId) (w : Wave β) : (deliver send source args id w).2.begun = w.begun := by
  simp only [deliver]
  split
  · rfl
  split
  · rfl
  next target _ =>
  split
  · rfl
  next v crossed =>
  have same : v.begun = w.begun := by rw [eq_of_cross crossed]; rfl
  split
  · exact same
  · rw [Reaction.begun_run records, begun_push, same]
    exact List.append_nil _

theorem deliverAll_behind {send : Send β} (records : send.Records) (earlier : Array Event)
    (source : SpotRef) (args : List Value) (ids : List LinkId) (w : Wave β) :
    deliverAll send source args ids (w.behind earlier) =
      (deliverAll send source args ids w).behind earlier := by
  induction ids generalizing w with
  | nil => rfl
  | cons id ids ih =>
      simp only [deliverAll, deliver_behind records]
      rcases deliver send source args id w with ⟨_ | cause | u, v⟩
      · rfl
      · rfl
      · exact ih v

theorem begun_deliverAll {send : Send β} (records : send.Records) (source : SpotRef) (args : List Value)
    (ids : List LinkId) (w : Wave β) : (deliverAll send source args ids w).2.begun = w.begun := by
  induction ids generalizing w with
  | nil => rfl
  | cons id ids ih =>
      have first := begun_deliver records source args id w
      simp only [deliverAll]
      split
      · next v delivered =>
          rw [delivered] at first
          exact (ih v).trans first
      · exact first

theorem propagate_records (depth : Nat) : Send.Records (propagate (β := β) depth) := by
  induction depth with
  | zero => exact ⟨fun _ _ _ _ => rfl, fun _ _ _ => rfl⟩
  | succ depth ih =>
      refine ⟨fun earlier source args w => ?_, fun source args w => ?_⟩
      · have same : (w.behind earlier).graph = w.graph := rfl
        simp only [propagate, same]
        cases w.graph.spot source with
        | error cause => rfl
        | ok s => exact deliverAll_behind ih earlier source args s.links w
      · simp only [propagate]
        split
        · rfl
        · exact begun_deliverAll ih source args _ w

theorem begun_begin (depth : Nat) {key : NodeKey} {w : Wave β} (live : w.graph.node? key ≠ none) :
    (w.begin depth key).2.begun = w.begun ++ [key] := by
  obtain ⟨b, found⟩ : ∃ b, w.graph.behavior? key = some b := by
    rwa [← Option.isSome_iff_exists, Graph.behavior?_isSome_iff, Option.isSome_iff_ne_none]
  simp only [begin, Graph.behavior_eq_ok_iff.mpr found, Reaction.begun_run (propagate_records depth), begun_push]
  rfl

end Wave
end SignalGraph
