import SignalGraph.Builtin
import SignalGraph.Document.Load
import SignalGraph.Proofs.Wave.Frame

/-!
The graphs that a host can come to: an empty or a loaded one, changed by any edits and runs, whether
they succeed or not. A load is itself made of additions, links and changes of behaviors, so a property
that these keep holds of every loaded graph. Main result: every reachable graph has its index, its arenas
and the link lists of its spots in agreement.
-/

namespace SignalGraph.Graph

variable {β : Type} [Behavior β]

/-- One call of a host that can change a graph. Runs are made by any instance that holds it. -/
inductive Change (g : Graph β) : Graph β → Prop
  | addNode (id tag : String) (type : TypeKey) (b : β) : Change g (g.addNode id tag type b).2.1
  | removeNode (key : NodeKey) : Change g (g.removeNode key).2
  | link (a b : SpotRef) : Change g (g.link a b).2
  | disposeLink (id : LinkId) : Change g (g.disposeLink id).2
  | begin (i : Instance β) (holds : i.graph = g) (depth : Nat) :
      Change g (i.begin depth).2.1.graph
  | tick (i : Instance β) (holds : i.graph = g) (depth : Nat) (delta : Binary32) :
      Change g (i.tick depth delta).2.1.graph
  | signal (i : Instance β) (holds : i.graph = g) (depth : Nat) (spot : SpotRef)
      (args : List Value) : Change g (i.signal depth spot args).2.1.graph

/-- The graphs that any finite sequence of calls leads to. -/
inductive Reachable : Graph β → Prop
  | empty (name : String) : Reachable (empty name)
  | load {d : Document} {types : Registry β} {g : Graph β} {events : List Event}
      (loaded : load d types = (.ok g, events)) : Reachable g
  | change {g h : Graph β} (before : Reachable g) (step : Change g h) : Reachable h

/-! ### Loading, step by step -/

section Load

variable {P : Graph β → Prop}

theorem addRecords_keeps
    (addNode : ∀ g id tag type b, P g → P (g.addNode id tag type b).2.1)
    (records : List (NodeRecord × β)) {g h : Graph β} {keys : List NodeKey} {events : List Event}
    (start : P g) (added : g.addRecords records = (.ok (h, keys), events)) : P h := by
  induction records generalizing g keys events with
  | nil =>
      cases added
      exact start
  | cons r records ih =>
      obtain ⟨r, b⟩ := r
      have first := addNode g r.id r.tag r.type b start
      simp only [addRecords] at added
      split at added
      · cases added
      · next key g' events' one =>
          rw [one] at first
          split at added
          · cases added
          · next h' keys' later rest =>
              cases added
              exact ih first rest

omit [Behavior β] in
theorem linkRecord_eq_ok_iff {g h : Graph β} {r : LinkRecord} :
    g.linkRecord r = .ok h ↔ ∃ a b id, g.resolve r.a.node r.a.spot = .ok a ∧
      g.resolve r.b.node r.b.spot = .ok b ∧ g.link a b = (.ok id, h) := by
  simp only [linkRecord, bind_eq_ok_iff]
  constructor
  · intro made
    obtain ⟨a, at_a, b, at_b, linked⟩ := made
    split at linked
    · next id h' same =>
        cases linked
        exact ⟨a, b, id, at_a, at_b, same⟩
    · cases linked
  · intro made
    obtain ⟨a, b, id, at_a, at_b, linked⟩ := made
    exact ⟨a, at_a, b, at_b, by rw [linked]⟩

omit [Behavior β] in
theorem linkRecords_keeps (link : ∀ g a b, P g → P (g.link a b).2) (records : List LinkRecord)
    {g h : Graph β} (start : P g) (linked : records.foldlM linkRecord g = .ok h) : P h := by
  induction records generalizing g with
  | nil =>
      cases linked
      exact start
  | cons r records ih =>
      rw [List.foldlM_cons, bind_eq_ok_iff] at linked
      obtain ⟨g', first, rest⟩ := linked
      obtain ⟨a, b, id, _, _, made⟩ := linkRecord_eq_ok_iff.mp first
      have := link g a b start
      rw [made] at this
      exact ih this rest

theorem announce_keeps
    (loaded : ∀ g key b c, P g → g.behavior? key = some b →
      Behavior.loaded b g key = .ok c → P (g.setBehavior key c))
    (keys : List NodeKey) {g h : Graph β} {events : List Event}
    (start : P g) (told : g.announce keys = (.ok h, events)) : P h := by
  induction keys generalizing g events with
  | nil =>
      cases told
      exact start
  | cons key keys ih =>
      simp only [announce] at told
      split at told
      · exact ih start told
      next s found =>
      split at told
      · cases told
      next c content =>
      rcases rest : (g.setBehavior key c).announce keys with ⟨result, later⟩
      rw [rest] at told
      cases told
      have behaves : g.behavior? key = some s.behavior := by rw [behavior?, found, Option.map_some]
      exact ih (loaded g key s.behavior c start behaves content) rest

theorem restoreStates_keeps
    (restore : ∀ g key b c bytes, P g → g.behavior? key = some b →
      Behavior.restore b bytes = (.ok (), c) → P (g.setBehavior key c))
    (records : List (NodeRecord × NodeKey)) {g h : Graph β} {events : List Event}
    (start : P g) (restored : g.restoreStates records = (.ok h, events)) : P h := by
  induction records generalizing g events with
  | nil =>
      cases restored
      exact start
  | cons r records ih =>
      obtain ⟨r, key⟩ := r
      simp only [restoreStates] at restored
      split at restored
      · exact ih start restored
      split at restored
      · cases restored
      next b found =>
      split at restored
      · cases restored
      next c taken =>
      rcases rest : (g.setBehavior key c).restoreStates records with ⟨result, later⟩
      rw [rest] at restored
      cases restored
      exact ih (restore g key b c r.state start (behavior_eq_ok_iff.mp found) taken) rest

/-- What additions, links, announcements and restored states keep, every loaded graph has. -/
theorem load_keeps (empty : ∀ name, P (empty name))
    (addNode : ∀ g id tag type b, P g → P (g.addNode id tag type b).2.1)
    (link : ∀ g a b, P g → P (g.link a b).2)
    (told : ∀ g key b c, P g → g.behavior? key = some b →
      Behavior.loaded b g key = .ok c → P (g.setBehavior key c))
    (restore : ∀ g key b c bytes, P g → g.behavior? key = some b →
      Behavior.restore b bytes = (.ok (), c) → P (g.setBehavior key c))
    {d : Document} {types : Registry β} {g : Graph β} {events : List Event}
    (loaded : load d types = (.ok g, events)) : P g := by
  simp only [load] at loaded
  split at loaded
  · cases loaded
  split at loaded
  · cases loaded
  split at loaded
  · cases loaded
  next g₀ keys setups added =>
  split at loaded
  · cases loaded
  next g' linked =>
  split at loaded
  · cases loaded
  next h calls announced =>
  have nodes := addRecords_keeps addNode _ (empty d.name) added
  have links := linkRecords_keeps link _ nodes linked
  have ready := announce_keeps told _ links announced
  rcases restored : h.restoreStates (d.nodes.zip keys) with ⟨result, restores⟩
  rw [restored] at loaded
  cases loaded
  exact restoreStates_keeps restore _ ready restored

end Load

theorem Sound.change {g h : Graph β} (sound : g.Sound) (step : Change g h) : h.Sound := by
  cases step with
  | addNode id tag type b => exact sound.addNode id tag type b
  | removeNode key => exact sound.removeNode key
  | link a b => exact sound.link a b
  | disposeLink id => exact sound.disposeLink id
  | begin i holds depth => exact sound.of_shape (holds ▸ i.shape_begin depth)
  | tick i holds depth delta => exact sound.of_shape (holds ▸ i.shape_tick depth delta)
  | signal i holds depth spot args =>
      exact sound.of_shape (holds ▸ i.shape_signal depth spot args)

theorem Reachable.sound {g : Graph β} (reach : g.Reachable) : g.Sound := by
  induction reach with
  | empty name => exact sound_empty name
  | load loaded =>
      exact load_keeps sound_empty (fun g id tag type b h => h.addNode id tag type b)
        (fun g a b h => h.link a b)
        (fun g key b c h _ _ => h.of_shape (g.shape_setBehavior key c))
        (fun g key b c bytes h _ _ => h.of_shape (g.shape_setBehavior key c)) loaded
  | change before step ih => exact ih.change step

/-! ### Referential integrity -/

/-- The index, both arenas and the link lists store one relation. -/
structure Integrity (g : Graph β) : Prop where
  mem_ids : ∀ id key, (id, key) ∈ g.ids ↔ ∃ n, g.node? key = some n ∧ n.id = id
  ids_nodup : (g.ids.map (·.1)).Nodup
  keys_nodup : g.keys.Nodup
  keys_sorted : g.keys.Pairwise (·.index < ·.index)
  key_eq : ∀ key n, g.node? key = some n → n.key = key
  spotIds_nodup : ∀ key n, g.node? key = some n → (n.spots.map (·.id)).Nodup
  owner_eq : ∀ key n, g.node? key = some n → ∀ s ∈ n.spots, s.owner = key
  linkId_eq : ∀ id l, g.link? id = some l → l.id = id
  ends : ∀ id l, g.link? id = some l → ∃ s t, g.spot l.a = .ok s ∧ g.spot l.b = .ok t
  listed : ∀ ref s, g.spot ref = .ok s → ∀ id,
    id ∈ s.links ↔ ∃ l, g.link? id = some l ∧ l.touches ref
  listed_once : ∀ ref s, g.spot ref = .ok s → ∀ id ∈ s.links, s.links.count id = 1
  links_sorted : ∀ ref s, g.spot ref = .ok s → s.links.Pairwise (·.index < ·.index)

/-- Edits and runs in any order keep the index, the arenas and the link lists in agreement. -/
theorem integrity_of_reachable {g : Graph β} (reach : g.Reachable) : g.Integrity := by
  have sound := reach.sound
  have list (ref : SpotRef) (s : Spot) (found : g.spot ref = .ok s) :
      s.links = LinkArena.touching g.links ref :=
    sound.wired ref s (spot_eq_ok_iff.mp found)
  have sorted (ref : SpotRef) (s : Spot) (found : g.spot ref = .ok s) :
      s.links.Pairwise (·.index < ·.index) := by
    rw [list ref s found]
    exact LinkArena.touching_sorted sound.numbered ref
  refine ⟨sound.mem_ids, sound.ids_nodup, nodup_of_sorted sound.keys_sorted, sound.keys_sorted,
    sound.key_eq, sound.spotIds_nodup, ?_, ?_, ?_, ?_, ?_, sorted⟩
  · intro key n found s mem
    obtain ⟨j, at_j⟩ := List.mem_iff_getElem?.mp mem
    exact sound.owner_eq ⟨key, j⟩ s (spot?_eq_some_iff.mpr ⟨n, found, at_j⟩)
  · intro id l found
    exact sound.numbered _ l (link?_eq_some_iff.mp found)
  · intro id l found
    obtain ⟨first, second⟩ := sound.ends id l found
    obtain ⟨s, at_a⟩ := Option.isSome_iff_exists.mp first
    obtain ⟨t, at_b⟩ := Option.isSome_iff_exists.mp second
    exact ⟨s, t, spot_eq_ok_iff.mpr at_a, spot_eq_ok_iff.mpr at_b⟩
  · intro ref s found id
    rw [list ref s found, LinkArena.mem_touching_iff sound.numbered]
    simp only [link?_eq_some_iff]
  · intro ref s found id mem
    exact List.count_eq_one_of_mem (nodup_of_sorted (sorted ref s found)) mem

/-- An entry that leads to two consoles, the first of them linked to itself as well. -/
def knotted : Graph Builtin :=
  let nodes := (((empty "knotted").addNode "start" "Start" .entry (.entry none)).2.1.addNode
    "loop" "Loop" .console .console).2.1.addNode "spare" "Spare" .console .console
  (((nodes.2.1.link ⟨⟨0⟩, 0⟩ ⟨⟨2⟩, 0⟩).2.link ⟨⟨1⟩, 0⟩ ⟨⟨1⟩, 1⟩).2.link ⟨⟨0⟩, 0⟩ ⟨⟨1⟩, 0⟩).2

theorem reachable_knotted : knotted.Reachable := by
  have nodes := (((Reachable.empty "knotted").change
    (.addNode "start" "Start" .entry (Builtin.entry none))).change
    (.addNode "loop" "Loop" .console .console)).change (.addNode "spare" "Spare" .console .console)
  exact ((nodes.change (.link ⟨⟨0⟩, 0⟩ ⟨⟨2⟩, 0⟩)).change (.link ⟨⟨1⟩, 0⟩ ⟨⟨1⟩, 1⟩)).change
    (.link ⟨⟨0⟩, 0⟩ ⟨⟨1⟩, 0⟩)

theorem integrity_after_removal :
    (knotted.removeNode ⟨2⟩).2.linkCount = 2 ∧ (knotted.removeNode ⟨2⟩).2.Integrity :=
  ⟨by decide, integrity_of_reachable (reachable_knotted.change (.removeNode ⟨2⟩))⟩

end SignalGraph.Graph
