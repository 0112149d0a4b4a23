import SignalGraph.Proofs.Document.Phases
import SignalGraph.Proofs.Document.Reload
import SignalGraph.Proofs.Document.Snapshot
import SignalGraph.Proofs.Wire.Consumed

/-!
What a load of library nodes makes of a document. Stored again, the graph gives the document back, of the
current version and with every state as the library writes it; that form is reached at once. What the
behaviors are while the graph runs is left out.
-/

namespace SignalGraph

variable {β : Type}

/-- The state that a library node with this record stores: what it needs of the bytes, or the state of a new
node if there are none. -/
def NodeRecord.canonicalState (r : NodeRecord) : List UInt8 :=
  if r.type = .counter then
    if r.state = [] then [0, 0, 0, 0, 0, 0, 0, 0, 1, 0, 0, 0, 0, 0, 0, 0] else r.state.take 16
  else if r.type = .setVariable then
    if r.state = [] then [0, 0, 0, 0, 0, 0, 0, 0]
    else r.state.take (8 + Wire.ofLittleEndian (r.state.take 8))
  else []

def Document.canonical (d : Document) : Document :=
  { d with
    version := currentVersion
    nodes := d.nodes.map fun r => { r with state := r.canonicalState } }

/-! ### States -/

theorem NodeRecord.canonicalState_idem (r : NodeRecord) :
    { r with state := r.canonicalState : NodeRecord }.canonicalState = r.canonicalState := by
  have apart : TypeKey.setVariable ≠ .counter := by decide
  by_cases counter : r.type = .counter
  · by_cases bare : r.state = []
    · simp [canonicalState, counter, bare]
    · simp [canonicalState, counter, bare, List.take_take]
  by_cases setVariable : r.type = .setVariable
  · by_cases bare : r.state = []
    · simp [canonicalState, setVariable, apart, bare, Wire.ofLittleEndian]
    · have front : (r.state.take (8 + Wire.ofLittleEndian (r.state.take 8))).take 8 =
          r.state.take 8 := by
        rw [List.take_take, Nat.min_eq_left (Nat.le_add_right 8 _)]
      simp [canonicalState, setVariable, apart, bare, front, List.take_take]
  · simp [canonicalState, counter, setVariable]

theorem Document.canonical_idem (d : Document) : d.canonical.canonical = d.canonical := by
  simp [canonical, Function.comp_def, NodeRecord.canonicalState_idem]

namespace Builtin

theorem type_ofType {type : TypeKey} (known : type ∈ types) : (ofType type).type = type := by
  have all : ∀ t ∈ types, (ofType t).type = t := by decide
  exact all type known

theorem save_eq_canonicalState {r : NodeRecord} (known : r.type ∈ types) {c : Builtin}
    (taken : if r.state = [] then c = ofType r.type
      else (ofType r.type).restore r.state = (.ok (), c)) :
    c.type = r.type ∧ c.textSize < 2 ^ 64 ∧ c.save = r.canonicalState := by
  by_cases bare : r.state = []
  · rw [if_pos bare] at taken
    subst taken
    have all : ∀ t ∈ types, (ofType t).textSize = 0 ∧
        (ofType t).save = NodeRecord.canonicalState ⟨"", "", t, []⟩ := by decide +kernel
    obtain ⟨size, saved⟩ := all r.type known
    refine ⟨type_ofType known, by rw [size]; decide, ?_⟩
    rw [saved]
    simp [NodeRecord.canonicalState, bare]
  · rw [if_neg bare] at taken
    obtain ⟨type, small, rest, whole⟩ := eq_of_restore taken
    rw [type_ofType known] at type
    refine ⟨type, small, ?_⟩
    have stateless : ∀ t ∈ [TypeKey.entry, .update, .deltaTime, .console],
        t ≠ .counter ∧ t ≠ .setVariable := by decide
    cases c with
    | entry _ | update | deltaTime | console =>
        obtain ⟨counter, setVariable⟩ := stateless r.type (by rw [← type]; simp [Builtin.type])
        rw [NodeRecord.canonicalState, if_neg counter, if_neg setVariable]
        rfl
    | counter s =>
        have counter : r.type = .counter := type.symm
        rw [NodeRecord.canonicalState, if_pos counter, if_neg bare, whole]
        exact (List.take_left' (length_saveCounter s)).symm
    | setVariable name =>
        have setVariable : r.type = .setVariable := type.symm
        have counter : r.type ≠ .counter := by rw [setVariable]; decide
        rw [NodeRecord.canonicalState, if_neg counter, if_pos setVariable, if_neg bare, whole]
        exact Wire.putString_eq_take small rest

theorem exists_of_taken [Behavior β] {wrap : Builtin → β} (hosted : Hosted wrap) {b : Builtin}
    {bytes : List UInt8} {c : β}
    (taken : if bytes = [] then c = wrap b else Behavior.restore (wrap b) bytes = (.ok (), c)) :
    ∃ c', c = wrap c' ∧ if bytes = [] then c' = b else b.restore bytes = (.ok (), c') := by
  by_cases bare : bytes = []
  · exact ⟨b, by simpa [bare] using taken, by simp [bare]⟩
  · rw [if_neg bare, hosted.restore] at taken
    obtain ⟨fine, rfl⟩ := Prod.mk.inj taken
    exact ⟨(b.restore bytes).2, rfl, by rw [if_neg bare]; exact Prod.ext fine rfl⟩

end Builtin

/-! ### The loaded graph -/

namespace Graph

variable {g h : Graph β} {d : Document}

theorem Follows.of_shape (follows : g.Follows d) (same : h.shape = g.shape) : h.Follows d := by
  have ids := ids_eq_of_shape same
  have nodes := node?_eq_of_shape same
  have links := links_eq_of_shape same
  have addresses (ref : SpotRef) : h.address ref = g.address ref := by
    simp only [address, Graph.node, nodes]
  constructor
  case name => exact (congrArg Graph.name same).trans follows.name
  case keys => simpa only [Graph.keys, ids] using follows.keys
  case slots => exact (length_slots_of_shape same).trans follows.slots
  case node => simpa only [nodes] using follows.node
  case links => simpa only [links] using follows.links
  case link => simpa only [link?, links, saveLink_eq_of_shape same] using follows.link
  case listed => simpa only [spot?_eq_of_shape same, addresses] using follows.listed
  case nodeCount => simpa only [Graph.nodeCount, ids] using follows.nodeCount
  case linkCount => simpa only [Graph.linkCount, liveLinks_eq_of_shape same] using follows.linkCount
  case ownLinks => simpa only [nodes] using follows.ownLinks

theorem Follows.records_eq (follows : g.Follows d) {records : List LinkRecord}
    (saved : List.Forall₂ (fun l record => g.saveLink l = .ok record) g.liveLinks records) :
    records = d.links := by
  have size : g.liveLinks.length = d.links.length := follows.linkCount
  have all (o : Option Link) (mem : o ∈ g.links) : (id o).isSome := by
    obtain ⟨j, inside, rfl⟩ := List.mem_iff_getElem.mp mem
    obtain ⟨l, live, _⟩ := follows.link j _ (List.getElem?_eq_getElem (follows.links ▸ inside))
    rw [link?_eq_some_iff, List.getElem?_eq_getElem inside] at live
    simp [Option.some.inj live]
  apply List.ext_getElem (by rw [← saved.length_eq, size])
  intro j inside within
  obtain ⟨l, live, _, stored⟩ := follows.link j _ (List.getElem?_eq_getElem within)
  have at_j : g.liveLinks[j]? = some l := by
    rw [liveLinks, getElem?_filterMap_of_isSome all, link?_eq_some_iff.mp live]
    rfl
  obtain ⟨bound, same⟩ := List.getElem?_eq_some_iff.mp at_j
  have first := saved.get bound inside
  simp only [List.get_eq_getElem, same] at first
  exact Except.ok.inj (first.symm.trans stored)

theorem Follows.map_recordOf (follows : g.Follows d) (sound : g.Sound)
    {bytes : NodeKey → List UInt8} {state : NodeRecord → List UInt8}
    (stored : ∀ (i : Nat) (r : NodeRecord), d.nodes[i]? = some r → bytes ⟨i⟩ = state r) :
    g.nodes.map (recordOf bytes) = d.nodes.map fun r => { r with state := state r } := by
  apply List.ext_getElem?
  intro i
  rw [List.getElem?_map, List.getElem?_map, nodes_getElem? sound, follows.keys, List.getElem?_mapIdx]
  cases at_i : d.nodes[i]? with
  | none => rfl
  | some r =>
      obtain ⟨n, found, key, id, tag, type⟩ := follows.node i r at_i
      simp [found, recordOf, key, id, tag, type, stored i r at_i]

end Graph

namespace Document

variable [Behavior β] {wrap : Builtin → β} {d : Document} {g : Graph β} {calls : List Event}

theorem extend_eq_draft (hosted : Builtin.Hosted wrap) {slots : List (Slot β)}
    (added : Added (Builtin.registry wrap) d.nodes slots) :
    (Graph.empty d.name).extend slots = d.draft wrap := by
  have each : slots = d.nodes.mapIdx fun i r => r.slot wrap ⟨i⟩ := by
    apply List.ext_getElem
    · simp [added.length_eq]
    · intro i inside _
      have within : i < d.nodes.length := added.length_eq ▸ inside
      obtain ⟨b, created, yields⟩ := added.yields.get (by simpa using within) inside
      obtain ⟨_, rfl⟩ := Builtin.create_eq_ok_iff.mp created
      have key : slots[i].node.key = ⟨i⟩ := added.keys i _ (List.getElem?_eq_getElem inside)
      simp only [List.get_eq_getElem, List.getElem_zipIdx, NodeRecord.Yields, hosted.setup,
        key] at yields
      rw [Builtin.setup_run wrap _ rfl] at yields
      rw [List.getElem_mapIdx]
      obtain ⟨behavior, node⟩ := Prod.mk.inj yields
      exact congrArg₂ Slot.mk node.symm (Except.ok.inj behavior).symm
  rw [each, draft]

/-- A loaded library node is of the type of its record, and in the state that the record comes to. -/
theorem exists_own_of_load (hosted : Builtin.Hosted wrap)
    (loaded : Graph.load d (Builtin.registry wrap) = (.ok g, calls)) :
    g.Follows d ∧ ∃ own, g.Carries wrap own ∧ (∀ key, (own key).textSize < 2 ^ 64) ∧
      ∀ (i : Nat) (r : NodeRecord), d.nodes[i]? = some r → (own ⟨i⟩).save = r.canonicalState := by
  have ends := load_ends d (Builtin.registry wrap)
  rw [loaded] at ends
  cases ends with
  | @success base t _ complete told given shape =>
  have follows := complete.follows.of_shape shape
  refine ⟨follows, ?_⟩
  obtain ⟨slots, added, linked⟩ := complete.built
  rw [extend_eq_draft hosted added] at linked
  have room : d.nodes.length ≤ Graph.capacity := by
    have fits := (Graph.Reachable.load loaded).fits.slots
    rwa [follows.slots] at fits
  obtain ⟨arena, rfl⟩ := Graph.wire_of_linkRecords (sound_draft hosted added.ids room) linked
  obtain rfl := told.det (told_draft hosted arena _)
  have own_at (key : NodeKey) : ∃ c : Builtin, c.textSize < 2 ^ 64 ∧
      ∀ r, d.nodes[key.index]? = some r → g.behavior? key = some (wrap c) ∧ c.type = r.type ∧
        c.save = r.canonicalState := by
    cases at_key : d.nodes[key.index]? with
    | none => exact ⟨.update, by decide, by simp⟩
    | some r =>
        obtain ⟨b, created⟩ : ∃ b, (Builtin.registry wrap).create r.type key.index = .ok b :=
          Registry.exists_create_iff.mpr
            (complete.admitted.types r (List.mem_of_getElem? at_key))
        obtain ⟨known, rfl⟩ := Builtin.create_eq_ok_iff.mp created
        obtain ⟨_, ⟨b, before, taken⟩, found⟩ := given (r, key) (mem_numbered_iff.mpr at_key)
        rw [Graph.behavior?_wire, behavior?_draft, at_key] at before
        cases before
        obtain ⟨c, rfl, takes⟩ := Builtin.exists_of_taken hosted taken
        obtain ⟨type, small, saved⟩ := Builtin.save_eq_canonicalState known takes
        exact ⟨c, small, by simpa using ⟨found, type, saved⟩⟩
  choose own small is_own using own_at
  refine ⟨own, ?_, small, fun i r at_i => (is_own ⟨i⟩ r at_i).2.2⟩
  intro key s found
  have inside : key.index < d.nodes.length := follows.slots ▸ Graph.lt_length_of_slot? found
  have at_key := List.getElem?_eq_getElem inside
  obtain ⟨behaves, type, _⟩ := is_own key _ at_key
  obtain ⟨n, node, _, _, _, typed⟩ := follows.node key.index _ at_key
  rw [Graph.behavior?, found] at behaves
  rw [Graph.node?, found] at node
  cases node
  exact ⟨Option.some.inj behaves, typed.trans type.symm⟩

structure Normalises (wrap : Builtin → β) (d : Document) (g : Graph β) : Prop where
  follows : g.Follows d
  snapshot : g.snapshot.1 = .ok d.canonical
  again : ∃ h calls, Graph.load d.canonical (Builtin.registry wrap) = (.ok h, calls) ∧
    h.snapshot.1 = .ok d.canonical

theorem snapshot_of_load (hosted : Builtin.Hosted wrap)
    (loaded : Graph.load d (Builtin.registry wrap) = (.ok g, calls)) :
    g.snapshot.1 = .ok d.canonical := by
  have sound : g.Sound := (Graph.Reachable.load loaded).sound
  obtain ⟨follows, own, carries, _, states⟩ := exists_own_of_load hosted loaded
  obtain ⟨records, events, stored, saved⟩ := Graph.exists_snapshot sound
    (Graph.saves_of_wrapped hosted sound fun key s found => (carries key s found).1)
  have nodes : g.nodes.map (Graph.recordOf fun key => (own key).save) = d.canonical.nodes :=
    follows.map_recordOf sound states
  rw [stored, follows.records_eq saved, nodes, follows.name]
  rfl

/-- A loaded document is normalised, and nothing else happens to it. -/
theorem load_normalises (hosted : Builtin.Hosted wrap)
    (loaded : Graph.load d (Builtin.registry wrap) = (.ok g, calls)) : d.Normalises wrap g := by
  have reach := Graph.Reachable.load loaded
  obtain ⟨follows, own, carries, small, _⟩ := exists_own_of_load hosted loaded
  have taken := snapshot_of_load hosted loaded
  refine ⟨follows, taken, ?_⟩
  obtain ⟨d', _, h, calls', stored, again, _⟩ := Graph.exists_load_snapshot hosted reach.sound
    reach.legal reach.fits (reach.declared hosted) carries small
  rw [stored] at taken
  cases taken
  exact ⟨h, calls', again, canonical_idem d ▸ snapshot_of_load hosted again⟩

/-- An older document with a counter that has too many bytes, one that has none, and a variable named "x". -/
def untidy : Document where
  name := "untidy"
  version := 0
  nodes :=
    [⟨"count", "Count", .counter, List.replicate 17 1⟩, ⟨"start", "Start", .entry, []⟩,
      ⟨"again", "Count", .counter, []⟩, ⟨"keep", "Keep", .setVariable, [1, 0, 0, 0, 0, 0, 0, 0, 120, 9]⟩]
  links := [⟨⟨"count", "in"⟩, ⟨"start", "out"⟩⟩, ⟨⟨"count", "out"⟩, ⟨"keep", "in"⟩⟩]

theorem untidy_normalised : Builtin.Hosted (id : Builtin → Builtin) ∧
    (∃ g calls, Graph.load untidy (Builtin.registry id) = (.ok g, calls) ∧ untidy.Normalises id g) ∧
    untidy.canonical.nodes.map (·.state) = [List.replicate 16 1, [],
      [0, 0, 0, 0, 0, 0, 0, 0, 1, 0, 0, 0, 0, 0, 0, 0], [1, 0, 0, 0, 0, 0, 0, 0, 120]] := by
  have loads : (Graph.load untidy (Builtin.registry id)).1.isOk := by decide +kernel
  refine ⟨Builtin.hosted_id, ?_, by decide +kernel⟩
  rcases loaded : Graph.load untidy (Builtin.registry id) with ⟨_ | g, calls⟩
  · rw [loaded] at loads
    cases loads
  · exact ⟨g, calls, rfl, load_normalises Builtin.hosted_id loaded⟩

end Document
end SignalGraph
