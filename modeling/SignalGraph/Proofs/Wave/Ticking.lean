import SignalGraph.Proofs.Graph.Cascade
import SignalGraph.Proofs.Graph.Compaction
import SignalGraph.Proofs.Wave.Crossings
import SignalGraph.Proofs.Wave.Recording

/-!
A tick as a sequence of waves, one for each update node in the order of addition, up to the first that does not
succeed. The waves share the graph, its behaviors and the state, but nothing of what the cycle guard remembers.
What a single wave does is left open.
-/

namespace SignalGraph

variable {β : Type}

namespace Wave

variable [Behavior β]

end Wave

namespace Instance

variable {i j k : Instance β} {depth : Nat} {key : NodeKey} {keys : List NodeKey} {events : List Event}

section

variable [Behavior β]

/-- One node after the other begins, each with a wave of its own, and all waves succeed. -/
inductive Waves (depth : Nat) : Instance β → List NodeKey → Instance β → List Event → Prop
  | nil (i : Instance β) : Waves depth i [] i []
  | cons {i j : Instance β} {key : NodeKey} {keys : List NodeKey} {w : Wave β} {later : List Event}
      (began : i.wave.begin depth key = (some (.ok ()), w)) (others : Waves depth (i.settle w) keys j later) :
      Waves depth i (key :: keys) j (w.record.toList ++ later)

/-- What comes of letting nodes begin with waves of their own: all succeed, or one fails or is cut off, and
those behind it do not begin. -/
inductive Fires (depth : Nat) (i : Instance β) (keys : List NodeKey) : Call β → Prop
  | all {j : Instance β} {events : List Event} (waves : Waves depth i keys j events) :
      Fires depth i keys (some (.ok ()), j, events)
  | stopped {before after : List NodeKey} {key : NodeKey} {j : Instance β} {events : List Event}
      {result : Option (Except RunError Unit)} {w : Wave β} (split : keys = before ++ key :: after)
      (waves : Waves depth i before j events) (began : j.wave.begin depth key = (result, w))
      (fails : result ≠ some (.ok ())) : Fires depth i keys (result, j.settle w, events ++ w.record.toList)

theorem settles_of_begin {result : Option (Except RunError Unit)} {w : Wave β}
    (began : i.wave.begin depth key = (result, w)) : Settles i (i.settle w) := by
  have shape := Wave.shape_begin depth key i.wave
  rw [began] at shape
  exact ⟨rfl, shape⟩

theorem Waves.settles (waves : Waves depth i keys j events) : Settles i j := by
  induction waves with
  | nil i => exact .refl i
  | cons began _ ih => exact (settles_of_begin began).trans ih

omit [Behavior β] in
theorem Settles.node? (settles : Settles i j) (key : NodeKey) : j.graph.node? key = i.graph.node? key :=
  Graph.node?_eq_of_shape settles.shape key

theorem Waves.begun (waves : Waves depth i keys j events)
    (live : ∀ key ∈ keys, i.graph.node? key ≠ none) : events.filterMap Event.begun? = keys := by
  induction waves with
  | nil i => rfl
  | @cons i j key keys w later began _ ih =>
      have first := Wave.begun_begin depth (w := i.wave) (live key (List.mem_cons_self ..))
      rw [began] at first
      have others := ih fun key mem => by
        rw [(settles_of_begin began).node?]
        exact live key (List.mem_cons_of_mem _ mem)
      rw [List.filterMap_append, others]
      exact congrArg (· ++ keys) first

theorem Fires.begun {c : Call β} (fires : Fires depth i keys c)
    (live : ∀ key ∈ keys, i.graph.node? key ≠ none) :
    c.2.2.filterMap Event.begun? <+: keys ∧
      (c.1 = some (.ok ()) → c.2.2.filterMap Event.begun? = keys) := by
  cases fires with
  | all waves =>
      have begun := waves.begun live
      exact ⟨begun ▸ List.prefix_refl _, fun _ => begun⟩
  | stopped split waves began fails =>
      rename_i before after key j events result w
      subst split
      have front := waves.begun fun key mem => live key (List.mem_append_left _ mem)
      have here : j.graph.node? key ≠ none := by
        rw [waves.settles.node?]
        exact live key (by simp)
      have last := Wave.begun_begin depth (w := j.wave) here
      rw [began] at last
      refine ⟨⟨after, ?_⟩, fun succeeded => absurd succeeded fails⟩
      rw [List.filterMap_append, front]
      have own : w.record.toList.filterMap Event.begun? = [key] := last
      simp [own]

end

/-! ### Edits between ticks -/

end Instance
end SignalGraph
