import SignalGraph.Proofs.Graph.Compaction
import SignalGraph.Proofs.Graph.Removal

/-!
Removing one node. Its links go with it, each disposed once, although one between two of its own spots is
listed twice; all other parts of the graph stay, and the ID becomes free. That removals can be taken in any
order is said elsewhere.
-/

namespace SignalGraph.Graph

open LinkArena

variable {β : Type} {g : Graph β} {key : NodeKey} {n : Node}

/-! ### The links of a node -/

/-- The live links with an end on a node, the oldest first. -/
def linkIdsOn (g : Graph β) (key : NodeKey) : List LinkId :=
  (g.liveLinks.filter (·.touchesNode key)).map (·.id)

theorem mem_linkIdsOn_iff (sound : g.Sound) {id : LinkId} :
    id ∈ g.linkIdsOn key ↔ ∃ l, g.link? id = some l ∧ l.touchesNode key := by
  simp only [linkIdsOn, List.mem_map, List.mem_filter]
  constructor
  · rintro ⟨l, ⟨mem, near⟩, rfl⟩
    exact ⟨l, link?_eq_some_iff.mpr ((mem_live_iff sound.numbered).mp mem), near⟩
  · rintro ⟨l, live, near⟩
    exact ⟨l, ⟨mem_live_of_link? live, near⟩, sound.numbered _ l (link?_eq_some_iff.mp live)⟩

theorem linkIdsOn_nodup (sound : g.Sound) (key : NodeKey) : (g.linkIdsOn key).Nodup :=
  (linkIds_nodup sound).sublist (List.filter_sublist.map _)

theorem remains_node_iff (sound : g.Sound) {id : LinkId} (live : (g.link? id).isSome) :
    g.remains [.node key] id ↔ id ∉ g.linkIdsOn key := by
  obtain ⟨l, found⟩ := Option.isSome_iff_exists.mp live
  rw [mem_linkIdsOn_iff sound]
  simp [remains, found, Link.outlasts, Link.touchesNode]

/-- Disposes of some links one after the other, and objects to the first that is dead. -/
def disposeEach (g : Graph β) : List LinkId → Except GraphError (List Link) × Graph β
  | [] => (.ok [], g)
  | id :: rest =>
    match g.disposeLink id with
    | (.error cause, g) => (.error cause, g)
    | (.ok l, g) =>
      match g.disposeEach rest with
      | (.error cause, g) => (.error cause, g)
      | (.ok ls, g) => (.ok (l :: ls), g)

theorem exists_disposeEach (sound : g.Sound) (ids : List LinkId) : ∃ once ls,
    once.Nodup ∧ (∀ id, id ∈ once ↔ id ∈ ids ∧ (g.link? id).isSome) ∧
      g.disposeEach once = (.ok ls, (g.disposeLive ids).2) := by
  induction ids generalizing g with
  | nil => exact ⟨[], [], List.nodup_nil, by simp, rfl⟩
  | cons id ids ih =>
      cases found : g.link? id with
      | none =>
          -- So it is with a link between two spots of the node, when it is listed again.
          obtain ⟨once, ls, nodup, mem, disposed⟩ := ih sound
          refine ⟨once, ls, nodup, ?_, by rw [disposed]; simp only [disposeLive, found]⟩
          intro other
          rw [mem other, List.mem_cons]
          constructor
          · exact fun h => ⟨.inr h.1, h.2⟩
          · rintro ⟨rfl | later, live⟩
            · rw [found] at live
              cases live
            · exact ⟨later, live⟩
      | some l =>
          have one := disposeLink_eq sound found
          have after : (g.disposeLink id).2.Sound := sound.disposeLink id
          have left (other : LinkId) : ((g.disposeLink id).2.link? other).isSome ↔
              (g.link? other).isSome ∧ other ≠ id := by
            change ((g.takeOut (.link id)).link? other).isSome ↔ _
            rw [takeOut_eq sound, link?_without]
            cases at_other : g.link? other with
            | none => simp
            | some m =>
                have own : m.id = other := sound.numbered _ m (link?_eq_some_iff.mp at_other)
                simp [Option.filter_some, Link.outlasts, own, apply_ite Option.isSome]
          obtain ⟨once, ls, nodup, mem, disposed⟩ := ih after
          refine ⟨id :: once, l :: ls, List.nodup_cons.mpr ⟨?_, nodup⟩, ?_, ?_⟩
          · intro again
            exact ((left id).mp ((mem id).mp again).2).2 rfl
          · intro other
            rw [List.mem_cons, List.mem_cons, mem other, left other]
            by_cases same : other = id <;> simp [same, found]
          · rw [one] at disposed
            simp only [disposeEach, disposeLive, found, one, disposed]

/-! ### The other nodes -/

theorem node?_without_node (sound : g.Sound) (k : NodeKey) :
    (g.without [.node key]).node? k =
      if k = key then none else (g.node? k).map (·.keepLinks (· ∉ g.linkIdsOn key)) := by
  rw [node?_without]
  simp only [List.mem_singleton, Part.node.injEq]
  split
  · rfl
  refine Option.map_congr fun m at_k => ?_
  apply Node.mapSpots_congr
  intro j s at_j
  have here : g.spot ⟨k, j⟩ = .ok s := spot_eq_ok_iff.mpr (spot?_eq_some_iff.mpr ⟨m, at_k, at_j⟩)
  have same : s.links.filter (g.remains [.node key]) = s.links.filter (· ∉ g.linkIdsOn key) := by
    refine List.filter_congr fun id listed => ?_
    obtain ⟨l, live, _⟩ := sound.live_of_listed here listed
    rw [Bool.eq_iff_iff, remains_node_iff sound (by rw [live]; rfl), decide_eq_true_iff]
  rw [same]

theorem behavior?_without_node (k : NodeKey) :
    (g.without [.node key]).behavior? k = if k = key then none else g.behavior? k := by
  rw [behavior?, slot?_without]
  simp only [List.mem_singleton, Part.node.injEq]
  split
  · rfl
  · simp [behavior?, Function.comp_def]

theorem link?_without_node (sound : g.Sound) (id : LinkId) :
    (g.without [.node key]).link? id = if id ∈ g.linkIdsOn key then none else g.link? id := by
  rw [link?_without]
  cases found : g.link? id with
  | none => simp
  | some l =>
      have stays : g.remains [.node key] id ↔ id ∉ g.linkIdsOn key :=
        remains_node_iff sound (by rw [found]; rfl)
      rw [remains, found, Option.any_some] at stays
      by_cases gone : id ∈ g.linkIdsOn key
      · have cut : l.outlasts [.node key] = false := by simpa [gone] using stays
        simp [gone, Option.filter_some, cut]
      · simp [gone, Option.filter_some, stays.mpr gone]

theorem ids_without_node : (g.without [.node key]).ids = g.ids.filter (·.2 ≠ key) := by
  simp [without]

theorem nodes_without_node (sound : g.Sound) : (g.without [.node key]).nodes =
    (g.nodes.filter (·.key ≠ key)).map (·.keepLinks (· ∉ g.linkIdsOn key)) := by
  have keys : (g.without [.node key]).keys = g.keys.filter (· ≠ key) := by
    rw [Graph.keys, ids_without_node, Graph.keys, List.filter_map]
    rfl
  rw [nodes, keys, List.filterMap_filter, nodes, List.filter_filterMap, List.map_filterMap]
  refine List.filterMap_congr fun k _ => ?_
  rw [node?_without_node sound]
  cases found : g.node? k with
  | none => simp
  | some m =>
      have own : m.key = k := sound.key_eq k m found
      by_cases same : k = key <;> simp [Option.filter_some, same, own]

/-! ### A new node with the free ID -/

theorem addNode_eq_pushNode [Behavior β] {id tag : String} {type : TypeKey} {b c : β} {m : Node}
    (new : id ∉ g.ids.map (·.1)) (room : g.slots.length < capacity)
    (ran : (Behavior.setup b (g.blank id tag type)).run (g.blank id tag type) = (.ok c, m)) :
    g.addNode id tag type b =
      (.ok ⟨g.slots.length⟩, g.pushNode ⟨m, c⟩, [.setup ⟨g.slots.length⟩]) := by
  obtain ⟨cause, events, refused⟩ | ⟨s, _, _, _, ran', added⟩ := addNode_cases g id tag type b
  · have free : ¬ g.ids.any (·.1 = id) := by simpa using new
    have start : (⟨id, tag, type, ⟨g.slots.length⟩, []⟩ : Node) = g.blank id tag type := rfl
    rw [addNode, if_neg free, if_neg (Nat.not_le_of_lt room)] at refused
    simp only [start, ran] at refused
    cases refused
  · cases ran.symm.trans ran'
    exact added

theorem addNode_eq_full [Behavior β] {id : String} (new : id ∉ g.ids.map (·.1))
    (full : capacity ≤ g.slots.length) (tag : String) (type : TypeKey) (b : β) :
    g.addNode id tag type b = (.error .nodesFull, g, []) := by
  have free : ¬ g.ids.any (·.1 = id) := by simpa using new
  rw [addNode, if_neg free, if_pos full]

theorem nodes_pushNode (sound : g.Sound) (s : Slot β) : (g.pushNode s).nodes = g.nodes ++ [s.node] := by
  have keys : (g.pushNode s).keys = g.keys ++ [⟨g.slots.length⟩] := by simp [Graph.keys, pushNode]
  have old : g.keys.filterMap (g.pushNode s).node? = g.keys.filterMap g.node? := by
    refine List.filterMap_congr fun k mem => ?_
    obtain ⟨m, found⟩ := Option.isSome_iff_exists.mp ((mem_keys_iff sound).mp mem)
    have bound := lt_length_of_node? found
    rw [node?_pushNode, if_neg]
    rintro rfl
    exact Nat.lt_irrefl _ bound
  rw [nodes, keys, List.filterMap_append, old]
  simp [node?_pushNode, nodes]

/-! ### The whole effect -/

/-- What it comes to that a live node is removed. -/
structure RemovesExactly [Behavior β] (g : Graph β) (key : NodeKey) (n : Node) (h : Graph β) :
    Prop where
  answer : g.removeNode key = (.ok (n.mapSpots fun _ s => { s with links := [] }), h)
  /-- The cascade disposes of every link with an end on the node, and of none twice. -/
  disposed : ∃ ids ls k, ids.Perm (g.linkIdsOn key) ∧ g.disposeEach ids = (.ok ls, k) ∧
    g.disposeLive n.links = (.ok (), k)
  link : ∀ id, h.link? id = if id ∈ g.linkIdsOn key then none else g.link? id
  node : ∀ k, h.node? k =
    if k = key then none else (g.node? k).map (·.keepLinks (· ∉ g.linkIdsOn key))
  behavior : ∀ k, h.behavior? k = if k = key then none else g.behavior? k
  nodes : h.nodes = (g.nodes.filter (·.key ≠ key)).map (·.keepLinks (· ∉ g.linkIdsOn key))
  ids : h.ids = g.ids.filter (·.2 ≠ key)
  name : h.name = g.name
  sizes : h.slots.length = g.slots.length ∧ h.links.length = g.links.length
  /-- A new node may have the same ID, and comes last. -/
  again : h.slots.length < capacity → ∀ tag type (b c : β) m,
    (Behavior.setup b (h.blank n.id tag type)).run (h.blank n.id tag type) = (.ok c, m) →
    ∃ k, h.addNode n.id tag type b = (.ok ⟨h.slots.length⟩, k, [.setup ⟨h.slots.length⟩]) ∧
      k.nodes = h.nodes ++ [m] ∧ m.id = n.id ∧ m.key = ⟨h.slots.length⟩
  /-- The key of the removed node is not given out again, so it makes no room for a new one. -/
  full : capacity ≤ h.slots.length → ∀ tag type (b : β),
    h.addNode n.id tag type b = (.error .nodesFull, h, [])

/-- A live node is removed with all its links and nothing else. -/
theorem removes_exactly [Behavior β] (reach : g.Reachable) (found : g.node? key = some n) :
    ∃ h, g.RemovesExactly key n h := by
  have sound := reach.sound
  have removed : (g.removeNode key).2 = g.without [.node key] := takeOut_eq sound (.node key)
  have left : (g.without [.node key]).Sound := removed ▸ sound.removeNode key
  have answer : g.removeNode key =
      (.ok (n.mapSpots fun _ s => { s with links := [] }), g.without [.node key]) := by
    rw [← removed, removeNode_eq sound found]
  have free : n.id ∉ (g.without [.node key]).ids.map (·.1) := by
    rw [ids_without_node]
    intro taken
    obtain ⟨⟨id, k⟩, listed, rfl⟩ := List.mem_map.mp taken
    rw [List.mem_filter, sound.mem_ids, decide_eq_true_iff] at listed
    obtain ⟨⟨m, at_k, named⟩, other⟩ := listed
    exact other (unique_key sound at_k found named)
  refine ⟨g.without [.node key], ?_⟩
  constructor
  case answer => exact answer
  case disposed =>
    obtain ⟨ids, ls, nodup, mem, each⟩ := exists_disposeEach sound n.links
    refine ⟨ids, ls, (g.disposeLive n.links).2, ?_, each, by rw [disposeLive_eq sound]⟩
    rw [List.perm_ext_iff_of_nodup nodup (linkIdsOn_nodup sound key)]
    intro id
    rw [mem id, mem_linkIdsOn_iff sound]
    constructor
    · rintro ⟨listed, live⟩
      obtain ⟨l, at_id⟩ := Option.isSome_iff_exists.mp live
      have own : l.id = id := sound.numbered _ l (link?_eq_some_iff.mp at_id)
      exact ⟨l, at_id, (mem_links_iff_touchesNode sound found (mem_live_of_link? at_id)).mp
        (own ▸ listed)⟩
    · rintro ⟨l, at_id, near⟩
      have own : l.id = id := sound.numbered _ l (link?_eq_some_iff.mp at_id)
      exact ⟨own ▸ (mem_links_iff_touchesNode sound found (mem_live_of_link? at_id)).mpr near,
        by rw [at_id]; rfl⟩
  case link => exact link?_without_node sound
  case node => exact node?_without_node sound
  case behavior => exact behavior?_without_node
  case nodes => exact nodes_without_node sound
  case ids => exact ids_without_node
  case name => rfl
  case sizes => simp [without]
  case again =>
    intro room tag type b c m ran
    have head := ((Behavior.setup b ((g.without [.node key]).blank n.id tag type)).run_fresh
      (blank_fresh (g.without [.node key]) n.id tag type)).2
    rw [ran] at head
    exact ⟨_, addNode_eq_pushNode free room ran, nodes_pushNode left _, head.id, head.key⟩
  case full => exact fun full => addNode_eq_full free full

/-- The first console goes with its loop and with the link to it; the second one keeps its link. -/
theorem removes_exactly_knotted :
    let n : Node := ⟨"loop", "Loop", .console, ⟨1⟩,
      [⟨⟨"in", "In", .input, .any, .unbounded⟩, ⟨1⟩, [⟨1⟩, ⟨2⟩]⟩,
        ⟨⟨"out", "Out", .output, .any, .unbounded⟩, ⟨1⟩, [⟨1⟩]⟩]⟩
    knotted.node? ⟨1⟩ = some n ∧ n.links = [⟨1⟩, ⟨2⟩, ⟨1⟩] ∧ knotted.linkIdsOn ⟨1⟩ = [⟨1⟩, ⟨2⟩] ∧
      ∃ h, knotted.RemovesExactly ⟨1⟩ n h := by
  intro n
  have found : knotted.node? ⟨1⟩ = some n := by decide
  exact ⟨found, by decide, by decide, removes_exactly reachable_knotted found⟩

end SignalGraph.Graph
