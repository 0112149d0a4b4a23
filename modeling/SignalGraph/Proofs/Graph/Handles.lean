import SignalGraph.Proofs.Graph.Removal
import SignalGraph.Proofs.Wave.Confinement

/-!
Handles over the whole life of a graph. Both arenas only grow, so every handle is handed out once, and one
that is dead stays dead, whatever is edited and run later: also an instance that was bound to an entry finds
nothing in its place when that is gone. That the arenas could ever be full is left out.
-/

namespace SignalGraph

variable {β : Type}

inductive Action (β : Type) where
  | addNode (id tag : String) (type : TypeKey) (behavior : β)
  | removeNode (key : NodeKey)
  | link (a b : SpotRef)
  | disposeLink (id : LinkId)
  /-- A begin, a tick or a signal of an instance that holds the graph. -/
  | run (i : Instance β) (depth : Nat) (s : Instance.Stimulus)

namespace Graph

variable [Behavior β] {g h : Graph β}

/-- The graph that an action leaves, whether or not the action succeeds. -/
def act (g : Graph β) : Action β → Graph β
  | .addNode id tag type b => (g.addNode id tag type b).2.1
  | .removeNode key => (g.removeNode key).2
  | .link a b => (g.link a b).2
  | .disposeLink id => (g.disposeLink id).2
  | .run i depth s => (({ i with graph := g } : Instance β).respond depth s).2.1.graph

def after (g : Graph β) (as : List (Action β)) : Graph β := as.foldl act g

def newKey? (g : Graph β) : Action β → Option NodeKey
  | .addNode id tag type b => (g.addNode id tag type b).1.toOption
  | _ => none

def newLink? (g : Graph β) : Action β → Option LinkId
  | .link a b => (g.link a b).1.toOption
  | _ => none

/-- What some actions hand out, in order. -/
def handed {α : Type} (new? : Graph β → Action β → Option α) (g : Graph β) :
    List (Action β) → List α
  | [] => []
  | a :: as => (new? g a).toList ++ handed new? (g.act a) as

theorem change_act (g : Graph β) (a : Action β) : Change g (g.act a) := by
  cases a with
  | addNode id tag type b => exact .addNode id tag type b
  | removeNode key => exact .removeNode key
  | link a b => exact .link a b
  | disposeLink id => exact .disposeLink id
  | run i depth s => exact Instance.change_respond depth s { i with graph := g }

theorem Reachable.after (reach : g.Reachable) (as : List (Action β)) : (g.after as).Reachable := by
  induction as generalizing g with
  | nil => exact reach
  | cons a as ih => exact ih (reach.change (change_act g a))

theorem after_append (g : Graph β) (as more : List (Action β)) :
    g.after (as ++ more) = (g.after as).after more := List.foldl_append

/-! ### Arenas only grow -/

/-- What a graph has in common with what it was before: no arena got smaller, and what was dead is. -/
structure Older (g h : Graph β) : Prop where
  slots_le : g.slots.length ≤ h.slots.length
  links_le : g.links.length ≤ h.links.length
  node_dead : ∀ key, key.index < g.slots.length → g.node? key = none → h.node? key = none
  link_dead : ∀ id, id.index < g.links.length → g.link? id = none → h.link? id = none

omit [Behavior β] in
theorem Older.refl (g : Graph β) : g.Older g :=
  ⟨Nat.le_refl _, Nat.le_refl _, fun _ _ dead => dead, fun _ _ dead => dead⟩

omit [Behavior β] in
theorem Older.trans {k : Graph β} (first : g.Older h) (second : h.Older k) : g.Older k where
  slots_le := Nat.le_trans first.slots_le second.slots_le
  links_le := Nat.le_trans first.links_le second.links_le
  node_dead key bound dead :=
    second.node_dead key (Nat.lt_of_lt_of_le bound first.slots_le) (first.node_dead key bound dead)
  link_dead id bound dead :=
    second.link_dead id (Nat.lt_of_lt_of_le bound first.links_le) (first.link_dead id bound dead)

omit [Behavior β] in
theorem older_of_shape (same : h.shape = g.shape) : g.Older h where
  slots_le := Nat.le_of_eq (length_slots_of_shape same).symm
  links_le := Nat.le_of_eq (congrArg List.length (links_eq_of_shape same)).symm
  node_dead key _ dead := by rwa [node?_eq_of_shape same]
  link_dead id _ dead := by rwa [link?, links_eq_of_shape same]

omit [Behavior β] in
theorem older_pushNode (g : Graph β) (s : Slot β) : g.Older (g.pushNode s) where
  slots_le := by simp [pushNode]
  links_le := Nat.le_refl _
  node_dead key bound dead := by
    rw [node?_pushNode, if_neg, dead]
    rintro rfl
    exact Nat.lt_irrefl _ bound
  link_dead _ _ dead := dead

omit [Behavior β] in
theorem older_without (g : Graph β) (parts : List Part) : g.Older (g.without parts) where
  slots_le := by simp [without]
  links_le := by simp [without]
  node_dead key _ dead := by simp [node?_without, dead]
  link_dead id _ dead := by simp [link?_without, dead]

omit [Behavior β] in
theorem older_wire_append (g : Graph β) (l : Link) : g.Older (g.wire (g.links ++ [some l])) where
  slots_le := by simp
  links_le := by simp
  node_dead key _ dead := by simp [dead]
  link_dead id bound dead := by
    rw [link?] at dead ⊢
    rwa [links_wire, List.getElem?_append_left bound]

theorem older_act (sound : g.Sound) (a : Action β) : g.Older (g.act a) := by
  cases a with
  | addNode id tag type b =>
      obtain ⟨_, _, refused⟩ | ⟨s, _, _, _, _, added⟩ := addNode_cases g id tag type b
      · rw [act, refused]
        exact .refl g
      · rw [act, added]
        exact g.older_pushNode s
  | removeNode key =>
      change g.Older (g.takeOut (.node key))
      rw [takeOut_eq sound]
      exact g.older_without [.node key]
  | disposeLink id =>
      change g.Older (g.takeOut (.link id))
      rw [takeOut_eq sound]
      exact g.older_without [.link id]
  | link a b =>
      obtain ⟨_, refused⟩ | linked := link_cases sound a b
      · rw [act, refused]
        exact .refl g
      · rw [act, linked]
        exact g.older_wire_append _
  | run i depth s => exact older_of_shape (Instance.shape_respond depth s { i with graph := g })

theorem older_after (reach : g.Reachable) (as : List (Action β)) : g.Older (g.after as) := by
  induction as generalizing g with
  | nil => exact .refl g
  | cons a as ih => exact (older_act reach.sound a).trans (ih (reach.change (change_act g a)))

/-! ### Handles are handed out once -/

structure Numbers {α : Type} (new? : Graph β → Action β → Option α) (place : α → Nat)
    (size : Graph β → Nat) : Prop where
  grows : ∀ {g h : Graph β}, g.Older h → size g ≤ size h
  next : ∀ {g : Graph β}, g.Sound → ∀ a x, new? g a = some x →
    place x = size g ∧ size g < size (g.act a)

theorem numbers_keys :
    Numbers (β := β) newKey? (·.index) fun g => g.slots.length where
  grows older := older.slots_le
  next {g} sound a key made := by
    cases a with
    | addNode id tag type b =>
        obtain ⟨_, _, refused⟩ | ⟨s, _, _, _, _, added⟩ := addNode_cases g id tag type b
        · rw [newKey?, refused] at made
          cases made
        · rw [newKey?, added] at made
          cases made
          simp [act, added, pushNode]
    | removeNode _ | link _ _ | disposeLink _ | run _ _ _ => cases made

theorem numbers_links :
    Numbers (β := β) newLink? (·.index) fun g => g.links.length where
  grows older := older.links_le
  next {g} sound a id made := by
    cases a with
    | link a b =>
        obtain ⟨_, refused⟩ | linked := link_cases sound a b
        · rw [newLink?, refused] at made
          cases made
        · rw [newLink?, linked] at made
          cases made
          simp [act, linked]
    | addNode _ _ _ _ | removeNode _ | disposeLink _ | run _ _ _ => cases made

namespace Numbers

variable {α : Type} {new? : Graph β → Action β → Option α} {place : α → Nat}
  {size : Graph β → Nat}

theorem handed_sorted (numbers : Numbers new? place size) (reach : g.Reachable)
    (as : List (Action β)) :
    (∀ x ∈ g.handed new? as, size g ≤ place x ∧ place x < size (g.after as)) ∧
      (g.handed new? as).Pairwise (place · < place ·) := by
  induction as generalizing g with
  | nil => simp [handed]
  | cons a as ih =>
      have reach' := reach.change (change_act g a)
      obtain ⟨bounds, sorted⟩ := ih reach'
      -- The head is handed the place at which the arena ends; the others come behind it.
      have first := numbers.grows (older_act reach.sound a)
      have rest := numbers.grows (older_after reach' as)
      have later : ∀ x ∈ (g.act a).handed new? as,
          size g ≤ place x ∧ place x < size (g.after (a :: as)) := by
        intro x mem
        exact ⟨Nat.le_trans first (bounds x mem).1, (bounds x mem).2⟩
      cases made : new? g a with
      | none => simpa [handed, made] using ⟨later, sorted⟩
      | some x =>
          obtain ⟨here, grown⟩ := numbers.next reach.sound a x made
          simp only [handed, made, Option.toList_some, List.singleton_append, List.forall_mem_cons,
            List.pairwise_cons]
          refine ⟨⟨⟨Nat.le_of_eq here.symm, ?_⟩, later⟩, ?_, sorted⟩
          · exact here ▸ Nat.lt_of_lt_of_le grown rest
          · exact fun y mem => here ▸ Nat.lt_of_lt_of_le grown (bounds y mem).1

theorem nodup_handed (numbers : Numbers new? place size) (reach : g.Reachable)
    (as : List (Action β)) {old : List α} (sorted : old.Pairwise (place · < place ·))
    (bound : ∀ x ∈ old, place x < size g) : (old ++ g.handed new? as).Nodup := by
  obtain ⟨bounds, later⟩ := numbers.handed_sorted reach as
  refine nodup_of_sorted (List.pairwise_append.mpr ⟨sorted, later, ?_⟩)
  exact fun x before y after => Nat.lt_of_lt_of_le (bound x before) (bounds y after).1

theorem place_lt (numbers : Numbers new? place size) (reach : g.Reachable) (as : List (Action β))
    {old : List α} (bound : ∀ x ∈ old, place x < size g) {x : α}
    (mem : x ∈ old ++ g.handed new? as) : place x < size (g.after as) := by
  obtain before | after := List.mem_append.mp mem
  · exact Nat.lt_of_lt_of_le (bound x before) (numbers.grows (older_after reach as))
  · exact ((numbers.handed_sorted reach as).1 x after).2

end Numbers

omit [Behavior β] in
theorem Sound.key_lt (sound : g.Sound) {key : NodeKey} (mem : key ∈ g.keys) :
    key.index < g.slots.length := by
  obtain ⟨entry, listed, rfl⟩ := List.mem_map.mp mem
  obtain ⟨n, found, _⟩ := (sound.mem_ids entry.1 entry.2).mp listed
  exact lt_length_of_node? found

omit [Behavior β] in
theorem Sound.linkId_lt (sound : g.Sound) {id : LinkId} (mem : id ∈ g.liveLinks.map (·.id)) :
    id.index < g.links.length := by
  obtain ⟨l, live, rfl⟩ := List.mem_map.mp mem
  exact (List.getElem?_eq_some_iff.mp ((LinkArena.mem_live_iff sound.numbered).mp live)).1

/-! ### Dead handles -/

end Graph

theorem Instance.signal_of_missing [Behavior β] {i : Instance β} {spot : SpotRef} {cause : GraphError}
    (missing : i.graph.spot spot = .error cause) (depth : Nat) (args : List Value) :
    i.signal (depth + 1) spot args = (some (.error (.graph cause)), i, []) := by
  have first : i.wave.graph.spot spot = .error cause := missing
  simp only [signal, Wave.propagate, first]
  rfl

namespace Graph

variable [Behavior β] {g : Graph β}

/-- A key of no node: whatever is asked of it, or done with it, fails for this reason alone and leaves
everything as it is. -/
structure NodeGone (g : Graph β) (key : NodeKey) : Prop where
  unlisted : key ∉ g.keys
  node : g.node key = .error (.deadNode key)
  behavior : g.behavior key = .error (.deadNode key)
  spot : ∀ index, g.spot ⟨key, index⟩ = .error (.deadNode key)
  linksOf : ∀ index, g.linksOf ⟨key, index⟩ = .error (.deadNode key)
  removeNode : g.removeNode key = (.error (.deadNode key), g)
  linkFrom : ∀ index b, g.link ⟨key, index⟩ b = (.error (.deadNode key), g)
  /-- Only that the other spot is wrong is found first. -/
  linkTo : ∀ a index, g.link a ⟨key, index⟩ =
    (.error (match g.spot a with | .ok _ => .deadNode key | .error cause => cause), g)
  signal : ∀ (i : Instance β), i.graph = g → ∀ depth index args,
    i.signal (depth + 1) ⟨key, index⟩ args = (some (.error (.graph (.deadNode key))), i, [])

structure LinkGone (g : Graph β) (id : LinkId) : Prop where
  unlisted : ∀ ref s, g.spot ref = .ok s → id ∉ s.links
  link : g.link? id = none
  disposeLink : g.disposeLink id = (.error (.deadLink id), g)

theorem nodeGone_of_dead (sound : g.Sound) {key : NodeKey} (dead : g.node? key = none) :
    g.NodeGone key := by
  have node : g.node key = .error (.deadNode key) := by rw [Graph.node, dead]
  have spot (index : Nat) : g.spot ⟨key, index⟩ = .error (.deadNode key) :=
    spot_eq_error_iff.mpr (.inl ⟨dead, rfl⟩)
  constructor
  case unlisted =>
    intro listed
    obtain ⟨entry, mem, rfl⟩ := List.mem_map.mp listed
    obtain ⟨n, found, _⟩ := (sound.mem_ids entry.1 entry.2).mp mem
    cases dead.symm.trans found
  case node => exact node
  case behavior =>
    have : g.behavior? key = none := by
      rw [← Option.not_isSome_iff_eq_none, behavior?_isSome_iff, dead]
      exact Bool.false_ne_true
    rw [Graph.behavior, this]
  case spot => exact spot
  case linksOf =>
    intro index
    simp only [Graph.linksOf, spot index]
    rfl
  case removeNode => rw [Graph.removeNode, node]
  case linkFrom =>
    intro index b
    refine link_eq_of_refused ?_
    simp only [checkLink, spot index]
    rfl
  case linkTo =>
    intro a index
    refine link_eq_of_refused ?_
    simp only [checkLink, spot index]
    cases g.spot a <;> rfl
  case signal =>
    intro i holds depth index args
    subst holds
    exact Instance.signal_of_missing (spot index) depth args

omit [Behavior β] in
theorem linkGone_of_dead (sound : g.Sound) {id : LinkId} (dead : g.link? id = none) :
    g.LinkGone id := by
  refine ⟨?_, dead, disposeLink_eq_of_dead dead⟩
  intro ref s found listed
  obtain ⟨l, live, _⟩ := sound.live_of_listed found listed
  cases dead.symm.trans live

theorem node?_act_removeNode (sound : g.Sound) (key : NodeKey) :
    (g.act (.removeNode key)).node? key = none := by
  change (g.takeOut (.node key)).node? key = none
  rw [takeOut_eq sound, node?_without, if_pos (by simp)]

theorem nodeGone_after (reach : g.Reachable) {key : NodeKey} (bound : key.index < g.slots.length)
    (dead : g.node? key = none) (more : List (Action β)) : (g.after more).NodeGone key :=
  nodeGone_of_dead (reach.after more).sound ((older_after reach more).node_dead key bound dead)

end Graph

namespace Instance

theorem entry_live_of_new {g : Graph β} (sound : g.Sound) {id : InstanceId} {sink : LogSink}
    {i : Instance β} (made : new id g sink = .ok i) : (g.node? i.entry).isSome := by
  suffices i.entry ∈ g.keysOfType .entry by
    obtain ⟨n, found, _⟩ := (Graph.mem_keysOfType_iff sound).mp this
    rw [found]
    rfl
  rw [new] at made
  split at made
  · cases made
  · next entry only =>
      cases made
      simp [only]
  · cases made

variable [Behavior β]

theorem begin_of_nodeGone {i : Instance β} (fresh : i.started = false)
    (gone : i.graph.NodeGone i.entry) (depth : Nat) : i.begin depth =
      (some (.error (.graph (.deadNode i.entry))), { i with started := true }, []) := by
  have first : ({ i with started := true } : Instance β).wave.graph.behavior i.entry =
      .error (.deadNode i.entry) := gone.behavior
  rw [begin, fresh, if_neg Bool.false_ne_true]
  simp only [Wave.begin, first]
  rfl

end Instance

namespace Graph

variable [Behavior β]

structure HandlesOnce (g : Graph β) : Prop where
  keys : ∀ as, (g.keys ++ g.handed newKey? as).Nodup
  links : ∀ as, (g.liveLinks.map (·.id) ++ g.handed newLink? as).Nodup
  nodeGone : ∀ as key, key ∈ g.keys ++ g.handed newKey? as → (g.after as).node? key = none →
    ∀ more, (g.after (as ++ more)).NodeGone key
  linkGone : ∀ as id, id ∈ g.liveLinks.map (·.id) ++ g.handed newLink? as →
    (g.after as).link? id = none → ∀ more, (g.after (as ++ more)).LinkGone id
  /-- Nothing takes the place of an entry that is removed before the instance begins. -/
  begin : ∀ as id sink i, Instance.new id (g.after as) sink = .ok i → ∀ edits more (j : Instance β),
    j.graph = g.after (as ++ edits ++ .removeNode i.entry :: more) → j.entry = i.entry →
    j.started = false → ∀ depth, j.begin depth =
      (some (.error (.graph (.deadNode i.entry))), { j with started := true }, [])

/-- No handle of a reachable graph is ever reused, whatever is edited and run in between, and whether that
succeeds or not. -/
theorem handles_once {g : Graph β} (reach : g.Reachable) : g.HandlesOnce := by
  have sound := reach.sound
  constructor
  case keys =>
    intro as
    exact numbers_keys.nodup_handed reach as sound.keys_sorted fun _ => sound.key_lt
  case links =>
    intro as
    have sorted : (g.liveLinks.map (·.id)).Pairwise (·.index < ·.index) :=
      List.pairwise_map.mpr (LinkArena.live_sorted sound.numbered)
    exact numbers_links.nodup_handed reach as sorted fun _ => sound.linkId_lt
  case nodeGone =>
    intro as key known dead more
    rw [after_append]
    have bound := numbers_keys.place_lt reach as (fun _ => sound.key_lt) known
    exact nodeGone_after (reach.after as) bound dead more
  case linkGone =>
    intro as id known dead more
    rw [after_append]
    have bound := numbers_links.place_lt reach as (fun _ => sound.linkId_lt) known
    exact linkGone_of_dead ((reach.after as).after more).sound
      ((older_after (reach.after as) more).link_dead id bound dead)
  case begin =>
    intro as id sink i made edits more j holds entry fresh depth
    rw [← entry] at holds ⊢
    refine Instance.begin_of_nodeGone fresh ?_ depth
    have here := reach.after (as ++ edits)
    -- The entry was live when the instance was made, so its slot exists and can only be emptied.
    have bound : j.entry.index < (g.after (as ++ edits)).slots.length := by
      have live := Instance.entry_live_of_new (reach.after as).sound made
      obtain ⟨n, found⟩ := Option.isSome_iff_exists.mp live
      rw [entry, after_append]
      exact Nat.lt_of_lt_of_le (lt_length_of_node? found)
        (older_after (reach.after as) edits).slots_le
    have step := here.change (change_act _ (.removeNode j.entry))
    have older := older_act here.sound (.removeNode j.entry)
    rw [holds, after_append]
    exact nodeGone_after step (Nat.lt_of_lt_of_le bound older.slots_le)
      (node?_act_removeNode here.sound j.entry) more

/-- A new entry with the ID of the removed one does not take its place, nor does any other. -/
theorem handles_of_knotted :
    let i : Instance Builtin := ⟨⟨0⟩, knotted, .initial, .collector, ⟨0⟩, false, false⟩
    let more : List (Action Builtin) := [.addNode "start" "Start" .entry (.entry none),
      .link ⟨⟨3⟩, 0⟩ ⟨⟨1⟩, 0⟩, .run i 2 .begin, .addNode "other" "Other" .entry (.entry none)]
    let j := { i with graph := knotted.after (.removeNode ⟨0⟩ :: more) }
    knotted.Reachable ∧ Instance.new ⟨0⟩ knotted .collector = .ok i ∧
      knotted.handed newKey? (.removeNode ⟨0⟩ :: more) = [⟨3⟩, ⟨4⟩] ∧
      knotted.handed newLink? (.removeNode ⟨0⟩ :: more) = [⟨3⟩] ∧
      j.graph.find? "start" = some ⟨3⟩ ∧ j.graph.NodeGone ⟨0⟩ ∧
      j.begin 2 = (some (.error (.graph (.deadNode ⟨0⟩))), { j with started := true }, []) := by
  intro i more j
  have made : Instance.new ⟨0⟩ knotted .collector = .ok i := by decide
  have once := handles_once reachable_knotted
  exact ⟨reachable_knotted, made, by decide +kernel, by decide +kernel, by decide +kernel,
    once.nodeGone [.removeNode ⟨0⟩] ⟨0⟩ (by decide +kernel) (by decide +kernel) more,
    once.begin [] ⟨0⟩ .collector i made [] more j rfl rfl rfl 2⟩

end Graph
end SignalGraph
