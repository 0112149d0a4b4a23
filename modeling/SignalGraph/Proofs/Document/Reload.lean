import SignalGraph.Proofs.Builtin.Declared
import SignalGraph.Proofs.Document.Regrowth

/-!
Storing a graph of library nodes and loading it again. Both succeed, and the loaded graph is alike: the
live parts have the numbers that the compaction gives them, and every node is in the state that it was
stored in. The texts in their states must be of a size that eight bytes can hold.
-/

namespace SignalGraph.Graph

open Builtin

variable {β : Type} [Behavior β] {wrap : Builtin → β} {g : Graph β} {own : NodeKey → Builtin}

theorem saves_of_wrapped (hosted : Hosted wrap) (sound : g.Sound)
    (wrapped : ∀ key s, g.slot? key = some s → s.behavior = wrap (own key)) :
    g.Saves fun key => (own key).save := by
  intro n mem
  obtain ⟨s, at_key, _⟩ := Option.map_eq_some_iff.mp (node?_of_mem_nodes sound mem)
  refine ⟨wrap (own n.key), ?_, hosted.save _⟩
  rw [behavior?, at_key, Option.map_some, wrapped n.key s at_key]

theorem yields_recordOf (hosted : Hosted wrap) (sound : g.Sound) (carries : g.Carries wrap own)
    (declared : g.Declared wrap) {n : Node} (mem : n ∈ g.nodes) :
    (recordOf (fun key => (own key).save) n).Yields (wrap (own n.key).initial)
      ⟨g.compaction.bare n, wrap (own n.key).initial⟩ := by
  have decls := carries.decls declared (node?_of_mem_nodes sound mem)
  rw [NodeRecord.Yields, hosted.setup, setup_run wrap _ rfl, spots_initial, ← decls, List.map_map]
  rfl

theorem restore_of_hosted (hosted : Hosted wrap) {b : Builtin}
    (small : b.textSize < 2 ^ 64) :
    if b.save = [] then wrap b.stored = wrap b.initial
    else Behavior.restore (wrap b.initial) b.save = (.ok (), wrap b.stored) := by
  have restored := restore_save small
  simp only [List.isEmpty_iff] at restored
  split at restored
  · next bare => rw [if_pos bare, restored]
  · next holds =>
      rw [if_neg holds, hosted.restore, restored]
      rfl

theorem gives_stored (hosted : Hosted wrap) (sound : g.Sound) {n : Node}
    (small : (own n.key).textSize < 2 ^ 64) (mem : n ∈ g.nodes) :
    (g.restage (fun key => wrap (own key).initial) g.liveLinks).Gives
      (recordOf (fun key => (own key).save) n) (g.compaction.node n.key) (wrap (own n.key).stored) :=
  ⟨_, restage_behavior? sound g.liveLinks mem, restore_of_hosted hosted small⟩

theorem regrows_of_carries (hosted : Hosted wrap) (sound : g.Sound) (declared : g.Declared wrap)
    (carries : g.Carries wrap own) (sized : ∀ key, (own key).textSize < 2 ^ 64) :
    g.Regrows (registry wrap) (fun key => (own key).save) (fun key => wrap (own key).initial)
      (fun key => wrap (own key).initial)
      (g.restage (fun key => wrap (own key).initial) g.liveLinks) where
  saves := saves_of_wrapped hosted sound fun key s found => (carries key s found).1
  created i n at_i := by
    obtain ⟨s, at_key, rfl⟩ :=
      Option.map_eq_some_iff.mp (node?_of_mem_nodes sound (List.mem_of_getElem? at_i))
    rw [(carries _ s at_key).2, create_registry]
  yields _ mem := yields_recordOf hosted sound carries declared mem
  told := by
    refine told_self fun key _ s found => ?_
    obtain ⟨n, _, _, same⟩ := exists_node_of_restage sound found
    rw [same, hosted.loaded]
  restored n mem := ⟨_, gives_stored hosted sound (sized n.key) mem⟩

/-- A graph of library nodes can be stored and loaded again, and the loaded graph is alike. -/
theorem exists_load_snapshot (hosted : Hosted wrap) (sound : g.Sound) (legal : g.Legal)
    (fits : g.Fits) (declared : g.Declared wrap) (carries : g.Carries wrap own)
    (sized : ∀ key, (own key).textSize < 2 ^ 64) :
    ∃ d saves h calls, g.snapshot = (.ok d, saves) ∧
      load d (registry wrap) = (.ok h, calls) ∧ Alike g.compaction wrap g h := by
  obtain ⟨d, saves, h, calls, stored, loaded, shape, states⟩ :=
    exists_load sound legal fits (regrows_of_carries hosted sound declared carries sized)
  refine ⟨d, saves, h, calls, stored, loaded, renamed_of_restage sound shape, ?_⟩
  intro key c found
  obtain ⟨s, at_key, rfl⟩ := Option.map_eq_some_iff.mp found
  have node : g.node? key = some s.node := by rw [node?, at_key]; rfl
  have mem := List.mem_of_getElem? (nodes_at_compaction sound node)
  have state := states s.node mem _ (gives_stored hosted sound (sized _) mem)
  rw [sound.key_eq key _ node] at state
  exact ⟨own key, (own key).stored, (carries key s at_key).1, state, stored_stored _⟩

end SignalGraph.Graph
