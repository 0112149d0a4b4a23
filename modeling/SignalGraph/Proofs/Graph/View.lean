import SignalGraph.Graph.Edit

/-!
What a graph shows at a handle: a node, a behavior, a spot, a link. A graph is determined by these
views together with its name, its index of IDs and the sizes of its arenas. Edits of single spots are
cases of `mapSpots`, which changes all spots at once.
-/

namespace SignalGraph

theorem bind_eq_ok_iff {ε α γ : Type} {x : Except ε α} {f : α → Except ε γ} {c : γ} :
    x >>= f = .ok c ↔ ∃ a, x = .ok a ∧ f a = .ok c := by
  cases x <;> simp [bind, Except.bind]

namespace Node

def mapSpots (n : Node) (f : Nat → Spot → Spot) : Node := { n with spots := n.spots.mapIdx f }

@[simp]
theorem mapSpots_getElem? (n : Node) (f : Nat → Spot → Spot) (j : Nat) :
    (n.mapSpots f).spots[j]? = (n.spots[j]?).map (f j) := by
  simp [mapSpots]

theorem mapSpots_congr {n : Node} {f h : Nat → Spot → Spot}
    (same : ∀ j s, n.spots[j]? = some s → f j s = h j s) : n.mapSpots f = n.mapSpots h := by
  have : n.spots.mapIdx f = n.spots.mapIdx h := by
    apply List.ext_getElem?
    intro j
    rw [List.getElem?_mapIdx, List.getElem?_mapIdx]
    cases at_j : n.spots[j]? with
    | none => rfl
    | some s => simp [same j s at_j]
  rw [mapSpots, mapSpots, this]

theorem mapSpots_self {n : Node} {f : Nat → Spot → Spot}
    (same : ∀ j s, n.spots[j]? = some s → f j s = s) : n.mapSpots f = n := by
  have fixed : n.mapSpots (fun _ s => s) = n := by
    have whole : n.spots.mapIdx (fun _ s => s) = n.spots := by
      apply List.ext_getElem?
      simp
    rw [mapSpots, whole]
  exact (mapSpots_congr same).trans fixed

@[simp]
theorem mapSpots_mapSpots (n : Node) (f h : Nat → Spot → Spot) :
    (n.mapSpots f).mapSpots h = n.mapSpots fun j s => h j (f j s) := by
  simp [mapSpots, List.mapIdx_mapIdx, Function.comp_def]

theorem modifySpot_eq_mapSpots (n : Node) (index : Nat) (f : Spot → Spot) :
    n.modifySpot index f = n.mapSpots fun j s => if j = index then f s else s := by
  simp only [modifySpot, mapSpots, Node.mk.injEq, true_and]
  apply List.ext_getElem?
  intro j
  simp only [List.getElem?_modify, List.getElem?_mapIdx]
  cases n.spots[j]? <;> simp [eq_comm]

end Node

namespace Graph

variable {β : Type}

def spot? (g : Graph β) (ref : SpotRef) : Option Spot :=
  (g.node? ref.node).bind fun n => n.spots[ref.index]?

theorem slots_eq_of_slot? {g h : Graph β} (size : g.slots.length = h.slots.length)
    (slot : ∀ key, g.slot? key = h.slot? key) : g.slots = h.slots := by
  apply List.ext_getElem size
  intro i hg hh
  have := slot ⟨i⟩
  simpa only [slot?, List.getElem?_eq_getElem hg, List.getElem?_eq_getElem hh,
    Option.join_some] using this

theorem eq_of_views {g h : Graph β} (name : g.name = h.name)
    (size : g.slots.length = h.slots.length) (slot : ∀ key, g.slot? key = h.slot? key)
    (links : g.links = h.links) (ids : g.ids = h.ids) : g = h := by
  obtain ⟨gName, gSlots, gLinks, gIds⟩ := g
  obtain ⟨hName, hSlots, hLinks, hIds⟩ := h
  have slots := slots_eq_of_slot? size slot
  simp_all

theorem lt_length_of_slot? {g : Graph β} {key : NodeKey} {s : Slot β}
    (h : g.slot? key = some s) : key.index < g.slots.length := by
  rw [slot?, Option.join_eq_some_iff, List.getElem?_eq_some_iff] at h
  exact h.1

theorem lt_length_of_node? {g : Graph β} {key : NodeKey} {n : Node}
    (h : g.node? key = some n) : key.index < g.slots.length := by
  obtain ⟨s, hs, _⟩ := Option.map_eq_some_iff.mp h
  exact lt_length_of_slot? hs

theorem spot?_eq_some_iff {g : Graph β} {ref : SpotRef} {s : Spot} :
    g.spot? ref = some s ↔ ∃ n, g.node? ref.node = some n ∧ n.spots[ref.index]? = some s := by
  simp [spot?, Option.bind_eq_some_iff]

theorem isSome_node?_of_spot? {g : Graph β} {ref : SpotRef} (found : (g.spot? ref).isSome) :
    (g.node? ref.node).isSome := by
  obtain ⟨s, at_ref⟩ := Option.isSome_iff_exists.mp found
  obtain ⟨n, at_key, _⟩ := spot?_eq_some_iff.mp at_ref
  rw [at_key]
  rfl

theorem behavior?_isSome_iff {g : Graph β} {key : NodeKey} :
    (g.behavior? key).isSome ↔ (g.node? key).isSome := by
  simp [behavior?, node?]

/-! ### The views that answer with an objection -/

theorem node_eq_ok_iff {g : Graph β} {key : NodeKey} {n : Node} :
    g.node key = .ok n ↔ g.node? key = some n := by
  simp only [node]
  split <;> simp_all

theorem behavior_eq_ok_iff {g : Graph β} {key : NodeKey} {b : β} :
    g.behavior key = .ok b ↔ g.behavior? key = some b := by
  simp only [behavior]
  split <;> simp_all

theorem spotAt_eq_ok_iff {n : Node} {index : Nat} {s : Spot} :
    n.spotAt index = .ok s ↔ n.spots[index]? = some s := by
  simp only [Node.spotAt]
  split <;> simp_all

theorem spot_eq_ok_iff {g : Graph β} {ref : SpotRef} {s : Spot} :
    g.spot ref = .ok s ↔ g.spot? ref = some s := by
  simp only [spot, bind_eq_ok_iff, node_eq_ok_iff, spotAt_eq_ok_iff, spot?_eq_some_iff]

theorem spot_eq_error_iff {g : Graph β} {ref : SpotRef} {cause : GraphError} :
    g.spot ref = .error cause ↔ g.node? ref.node = none ∧ cause = .deadNode ref.node ∨
      ∃ n, g.node? ref.node = some n ∧ n.spots.length ≤ ref.index ∧
        cause = .spotIndexOutOfRange ref.index n.spots.length := by
  cases found : g.node? ref.node with
  | none =>
      have : g.spot ref = .error (.deadNode ref.node) := by
        simp only [spot, node, found]
        rfl
      simp [this, eq_comm]
  | some n =>
      have : g.spot ref = n.spotAt ref.index := by
        simp only [spot, node, found]
        rfl
      rw [this, Node.spotAt]
      by_cases bound : ref.index < n.spots.length
      · simp [bound, Nat.not_le_of_lt bound]
      · simp [Nat.le_of_not_lt bound, eq_comm]

theorem label_eq {g : Graph β} {key : NodeKey} {n : Node} (found : g.node? key = some n) :
    g.label key = n.id := by
  simp only [label, found]

/-! ### Changing all spots -/

def mapSpots (g : Graph β) (f : SpotRef → Spot → Spot) : Graph β :=
  { g with slots := g.slots.mapIdx fun i => Option.map fun s =>
      { s with node := s.node.mapSpots fun j => f ⟨⟨i⟩, j⟩ } }

@[simp]
theorem slot?_mapSpots (g : Graph β) (f : SpotRef → Spot → Spot) (key : NodeKey) :
    (g.mapSpots f).slot? key =
      (g.slot? key).map fun s => { s with node := s.node.mapSpots fun j => f ⟨key, j⟩ } := by
  simp only [slot?, mapSpots, List.getElem?_mapIdx]
  cases g.slots[key.index]? <;> rfl

@[simp]
theorem node?_mapSpots (g : Graph β) (f : SpotRef → Spot → Spot) (key : NodeKey) :
    (g.mapSpots f).node? key = (g.node? key).map (·.mapSpots fun j => f ⟨key, j⟩) := by
  simp [node?, Function.comp_def]

@[simp]
theorem behavior?_mapSpots (g : Graph β) (f : SpotRef → Spot → Spot) (key : NodeKey) :
    (g.mapSpots f).behavior? key = g.behavior? key := by
  simp [behavior?, Function.comp_def]

@[simp]
theorem spot?_mapSpots (g : Graph β) (f : SpotRef → Spot → Spot) (ref : SpotRef) :
    (g.mapSpots f).spot? ref = (g.spot? ref).map (f ref) := by
  simp only [spot?, node?_mapSpots]
  cases g.node? ref.node <;> simp

@[simp]
theorem name_mapSpots (g : Graph β) (f : SpotRef → Spot → Spot) :
    (g.mapSpots f).name = g.name := rfl

@[simp]
theorem links_mapSpots (g : Graph β) (f : SpotRef → Spot → Spot) :
    (g.mapSpots f).links = g.links := rfl

@[simp]
theorem ids_mapSpots (g : Graph β) (f : SpotRef → Spot → Spot) :
    (g.mapSpots f).ids = g.ids := rfl

@[simp]
theorem length_slots_mapSpots (g : Graph β) (f : SpotRef → Spot → Spot) :
    (g.mapSpots f).slots.length = g.slots.length := by
  simp [mapSpots]

theorem spot?_of_slot? {g : Graph β} {key : NodeKey} {s : Slot β} (h : g.slot? key = some s)
    (j : Nat) : g.spot? ⟨key, j⟩ = s.node.spots[j]? := by
  simp [spot?, node?, h]

theorem mapSpots_congr {g : Graph β} {f h : SpotRef → Spot → Spot}
    (same : ∀ ref s, g.spot? ref = some s → f ref s = h ref s) :
    g.mapSpots f = g.mapSpots h := by
  refine eq_of_views rfl (by simp) ?_ rfl rfl
  intro key
  rw [slot?_mapSpots, slot?_mapSpots]
  cases at_key : g.slot? key with
  | none => rfl
  | some s =>
      have : s.node.mapSpots (fun j => f ⟨key, j⟩) = s.node.mapSpots fun j => h ⟨key, j⟩ :=
        Node.mapSpots_congr fun j t at_j =>
          same ⟨key, j⟩ t (by rw [spot?_of_slot? at_key, at_j])
      simp [this]

theorem mapSpots_self {g : Graph β} {f : SpotRef → Spot → Spot}
    (same : ∀ ref s, g.spot? ref = some s → f ref s = s) : g.mapSpots f = g := by
  refine eq_of_views rfl (by simp) ?_ rfl rfl
  intro key
  rw [slot?_mapSpots]
  cases at_key : g.slot? key with
  | none => rfl
  | some s =>
      have : s.node.mapSpots (fun j => f ⟨key, j⟩) = s.node :=
        Node.mapSpots_self fun j t at_j => same ⟨key, j⟩ t (by rw [spot?_of_slot? at_key, at_j])
      simp [this]

theorem mapSpots_mapSpots (g : Graph β) (f h : SpotRef → Spot → Spot) :
    (g.mapSpots f).mapSpots h = g.mapSpots fun ref s => h ref (f ref s) := by
  refine eq_of_views rfl (by simp) ?_ rfl rfl
  intro key
  cases at_key : g.slot? key <;> simp [at_key]

/-! ### Edits of one part -/

@[simp]
theorem slot?_modifyNode (g : Graph β) (key : NodeKey) (f : Node → Node) (k : NodeKey) :
    (g.modifyNode key f).slot? k =
      (g.slot? k).map fun s => if k = key then { s with node := f s.node } else s := by
  simp only [slot?, modifyNode, List.getElem?_modify]
  by_cases same : k = key
  · subst same
    cases g.slots[k.index]? <;> simp
  · have : key.index ≠ k.index := fun h => same (by cases k; cases key; simp_all)
    cases g.slots[k.index]? <;> simp [same, this]

@[simp]
theorem slot?_setBehavior (g : Graph β) (key : NodeKey) (b : β) (k : NodeKey) :
    (g.setBehavior key b).slot? k =
      (g.slot? k).map fun s => if k = key then { s with behavior := b } else s := by
  simp only [slot?, setBehavior, List.getElem?_modify]
  by_cases same : k = key
  · subst same
    cases g.slots[k.index]? <;> simp
  · have : key.index ≠ k.index := fun h => same (by cases k; cases key; simp_all)
    cases g.slots[k.index]? <;> simp [same, this]

theorem behavior?_setBehavior (g : Graph β) (key : NodeKey) (b : β) (k : NodeKey) :
    (g.setBehavior key b).behavior? k =
      if k = key then (g.behavior? k).map fun _ => b else g.behavior? k := by
  rw [behavior?, slot?_setBehavior, behavior?, Option.map_map]
  by_cases same : k = key
  · simp [same, Function.comp_def]
  · simp [same, Function.comp_def]

theorem setBehavior_self {g : Graph β} {key : NodeKey} {s : Slot β} (found : g.slot? key = some s) :
    g.setBehavior key s.behavior = g := by
  refine eq_of_views rfl (by simp [setBehavior]) ?_ rfl rfl
  intro k
  rw [slot?_setBehavior]
  by_cases same : k = key
  · subst same
    simp [found]
  · simp [same]

/-- A change of one spot, as a change of all. -/
def onlyAt (ref : SpotRef) (f : Spot → Spot) (r : SpotRef) (s : Spot) : Spot :=
  if r = ref then f s else s

theorem modifySpot_eq {g : Graph β} {ref : SpotRef} {s : Spot} (f : Spot → Spot)
    (found : g.spot? ref = some s) : g.modifySpot ref f = .ok (g.mapSpots (onlyAt ref f)) := by
  simp only [modifySpot]
  rw [spot_eq_ok_iff.mpr found]
  change Except.ok _ = Except.ok _
  congr 1
  refine eq_of_views rfl (by simp [modifyNode]) ?_ rfl rfl
  intro key
  rw [slot?_modifyNode, slot?_mapSpots]
  congr 1
  funext slot
  split
  · next same =>
      obtain ⟨node, index⟩ := ref
      subst same
      have : slot.node.modifySpot index f =
          slot.node.mapSpots fun j => onlyAt ⟨key, index⟩ f ⟨key, j⟩ := by
        rw [Node.modifySpot_eq_mapSpots]
        exact Node.mapSpots_congr fun j t _ => by simp [onlyAt]
      simp [this]
  · next other =>
      rw [Node.mapSpots_self]
      intro j t _
      rw [onlyAt, if_neg]
      intro same
      subst same
      exact other rfl

end Graph
end SignalGraph
