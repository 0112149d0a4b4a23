import Mathlib.Data.List.Perm.Subperm
import SignalGraph.Proofs.Graph.Reachable

/-!
Handles are given out from two arenas of bounded size. An edit that would need one more is refused, so no
reachable graph has outgrown them, and a graph that is built again from its live parts needs no more than
the first. Graphs that were not built by edits may be larger; nothing is said of those.
-/

namespace SignalGraph.Graph

variable {β : Type} {g h : Graph β}

/-- All handles that were given out are among those that there are. -/
structure Fits (g : Graph β) : Prop where
  slots : g.slots.length ≤ capacity
  links : g.links.length ≤ capacity

theorem fits_empty (name : String) : (empty (β := β) name).Fits :=
  ⟨Nat.zero_le _, Nat.zero_le _⟩

theorem Fits.of_shape (fits : g.Fits) (same : h.shape = g.shape) : h.Fits where
  slots := length_slots_of_shape same ▸ fits.slots
  links := links_eq_of_shape same ▸ fits.links

theorem Fits.link (sound : g.Sound) (fits : g.Fits) (a b : SpotRef) : (g.link a b).2.Fits := by
  cases checked : g.checkLink a b with
  | error cause => rwa [link_eq_of_refused checked]
  | ok u =>
      obtain ⟨_, _, _, _, _, _, room⟩ := checkLink_eq_ok_iff.mp checked
      rw [link_eq_of_checkLink sound.wired checked]
      refine ⟨by simpa using fits.slots, ?_⟩
      rw [links_wire, List.length_append, List.length_singleton]
      exact room

theorem Fits.disposeLink (sound : g.Sound) (fits : g.Fits) (id : LinkId) :
    (g.disposeLink id).2.Fits := by
  cases found : g.link? id with
  | none => rwa [disposeLink_eq_of_dead found]
  | some l =>
      rw [disposeLink_eq sound found]
      exact ⟨by simpa using fits.slots, by simpa [LinkArena.keep] using fits.links⟩

theorem Fits.removeNode (sound : g.Sound) (fits : g.Fits) (key : NodeKey) :
    (g.removeNode key).2.Fits := by
  cases found : g.node? key with
  | none => rwa [removeNode_eq_of_dead found]
  | some n =>
      rw [removeNode_eq sound found]
      exact ⟨by simpa [dropNode, cutOff] using fits.slots,
        by simpa [dropNode, cutOff, LinkArena.keep] using fits.links⟩

/-! ### How many live parts there are -/

theorem nodeCount_le (sound : g.Sound) : g.nodeCount ≤ g.slots.length := by
  have nodup : (g.keys.map (·.index)).Nodup := by
    rw [List.nodup_iff_pairwise_ne, List.pairwise_map]
    exact sound.keys_sorted.imp Nat.ne_of_lt
  have within : g.keys.map (·.index) ⊆ List.range g.slots.length := by
    intro index mem
    obtain ⟨key, listed, rfl⟩ := List.mem_map.mp mem
    obtain ⟨entry, stored, rfl⟩ := List.mem_map.mp listed
    obtain ⟨n, found, _⟩ := (sound.mem_ids entry.1 entry.2).mp stored
    exact List.mem_range.mpr (lt_length_of_node? found)
  simpa [keys, nodeCount] using (nodup.subperm within).length_le

theorem linkCount_le (g : Graph β) : g.linkCount ≤ g.links.length :=
  List.length_filterMap_le id g.links

variable [Behavior β]

theorem lt_capacity_of_addNode {id tag : String} {type : TypeKey} {b : β} {key : NodeKey}
    (added : (g.addNode id tag type b).1 = .ok key) : g.slots.length < capacity := by
  by_contra full
  rw [addNode, if_pos (Nat.le_of_not_lt full)] at added
  split at added <;> cases added

theorem Fits.addNode (fits : g.Fits) (id tag : String) (type : TypeKey) (b : β) :
    (g.addNode id tag type b).2.1.Fits := by
  obtain ⟨cause, events, same⟩ | ⟨s, _, _, _, _, added⟩ := addNode_cases g id tag type b
  · rwa [same]
  · have room := lt_capacity_of_addNode (congrArg Prod.fst added)
    rw [added]
    refine ⟨?_, fits.links⟩
    rw [pushNode, List.length_append, List.length_singleton]
    exact room

/-- Every reachable graph has room for the handles that it has given out. -/
theorem Reachable.fits (reach : g.Reachable) : g.Fits := by
  induction reach with
  | empty name => exact fits_empty name
  | load loaded =>
      exact (load_keeps (P := fun g => g.Sound ∧ g.Fits)
        (fun name => ⟨sound_empty name, fits_empty name⟩)
        (fun g id tag type b h => ⟨h.1.addNode id tag type b, h.2.addNode id tag type b⟩)
        (fun g a b h => ⟨h.1.link a b, h.2.link h.1 a b⟩)
        (fun g key b c h _ _ =>
          ⟨h.1.of_shape (g.shape_setBehavior key c), h.2.of_shape (g.shape_setBehavior key c)⟩)
        (fun g key b c bytes h _ _ =>
          ⟨h.1.of_shape (g.shape_setBehavior key c), h.2.of_shape (g.shape_setBehavior key c)⟩)
        loaded).2
  | change before step ih =>
      have sound := before.sound
      cases step with
      | addNode id tag type b => exact ih.addNode id tag type b
      | removeNode key => exact ih.removeNode sound key
      | link a b => exact ih.link sound a b
      | disposeLink id => exact ih.disposeLink sound id
      | begin i holds depth => exact ih.of_shape (holds ▸ i.shape_begin depth)
      | tick i holds depth delta => exact ih.of_shape (holds ▸ i.shape_tick depth delta)
      | signal i holds depth spot args =>
          exact ih.of_shape (holds ▸ i.shape_signal depth spot args)

end SignalGraph.Graph
