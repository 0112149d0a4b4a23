import SignalGraph.Proofs.Document.Linking
import SignalGraph.Proofs.Document.Regrowth
import SignalGraph.Proofs.Graph.Reachable
import SignalGraph.Proofs.Wire.Decoding

/-!
Which documents can be loaded with the library's node types, told from the document alone. Each phase of a
load succeeds or not by itself: the graph that the nodes come to is known before any link is made, the links
need only that, and the states do not see the links. Which error a load ends with is left open.
-/

namespace SignalGraph

variable {β : Type}

/-! ### The phases of a load -/

theorem Graph.exists_load_iff [Behavior β] {d : Document} {types : Registry β} :
    (∃ g calls, load d types = (.ok g, calls)) ↔ d.checkVersion = .ok () ∧
      ∃ bs, d.nodes.zipIdx.mapM (fun p => types.create p.1.type p.2) = .ok bs ∧
      ∃ g keys setups, (empty d.name).addRecords (d.nodes.zip bs) = (.ok (g, keys), setups) ∧
      ∃ h, d.links.foldlM linkRecord g = .ok h ∧ ∃ t, h.Told h.keys t ∧
      ∃ k, (t.restoreStates (d.nodes.zip keys)).1 = .ok k := by
  constructor
  · intro loaded
    obtain ⟨k, calls, loaded⟩ := loaded
    simp only [load] at loaded
    split at loaded
    · cases loaded
    next version =>
    split at loaded
    · cases loaded
    next bs created =>
    split at loaded
    · cases loaded
    next g keys setups added =>
    split at loaded
    · cases loaded
    next h linked =>
    split at loaded
    · cases loaded
    next t told announced =>
    exact ⟨version, bs, created, g, keys, setups, added, h, linked, t,
      announce_eq_ok_iff.mp (by rw [announced]), k, congrArg Prod.fst loaded⟩
  · intro phases
    obtain ⟨version, bs, created, g, keys, setups, added, h, linked, t, told, k, restored⟩ := phases
    obtain ⟨calls, announced⟩ : ∃ calls, h.announce h.keys = (.ok t, calls) :=
      ⟨_, Prod.ext (announce_eq_ok_iff.mpr told) rfl⟩
    refine ⟨k, setups ++ calls ++ (t.restoreStates (d.nodes.zip keys)).2, ?_⟩
    simp only [load, version, created, added, linked, announced]
    exact Prod.ext restored rfl

/-! ### New library nodes -/

namespace Builtin

variable {wrap : Builtin → β}

def types : List TypeKey :=
  [.entry, .update, .deltaTime, .console, .counter, .setVariable]

def ofType (type : TypeKey) : Builtin :=
  ([entry none, update, deltaTime, console, counter ⟨0, 1⟩, setVariable ""].find?
    (·.type = type)).getD update

theorem create_eq_ok_iff {type : TypeKey} {call : Nat} {c : β} :
    (registry wrap).create type call = .ok c ↔ type ∈ types ∧ c = wrap (ofType type) := by
  by_cases known : type ∈ types
  · have created : (registry wrap).create type call = .ok (wrap (ofType type)) := by
      simp only [types, List.mem_cons, List.not_mem_nil, or_false] at known
      obtain rfl | rfl | rfl | rfl | rfl | rfl := known <;> rfl
    simp [created, known, eq_comm]
  · have absent : (registry wrap).get? type = none := by
      rw [Registry.get?, List.find?_eq_none]
      intro t mem
      have listed : t.key ∈ (registry wrap).types.map (·.key) := List.mem_map_of_mem mem
      simp only [decide_eq_true_eq]
      rintro rfl
      exact known listed
    simp [Registry.create, absent, known]

theorem plain_of_mem_spots (b : Builtin) :
    ∀ d ∈ b.spots, d.category = .any ∧ d.arity = .unbounded := by
  have one : ∀ d ∈ [outDecl], d.category = .any ∧ d.arity = .unbounded := by decide
  have two : ∀ d ∈ [inDecl, outDecl], d.category = .any ∧ d.arity = .unbounded := by decide
  cases b with
  | entry _ | update => exact one
  | deltaTime | console | counter _ | setVariable _ => exact two

theorem mem_spots_ofType_iff {type : TypeKey} (known : type ∈ types) {d : SpotDecl} :
    d ∈ (ofType type).spots ↔
      d = outDecl ∨ d = inDecl ∧ type ≠ .entry ∧ type ≠ .update := by
  have source : ∀ t ∈ types, (ofType t).spots =
      if t ≠ .entry ∧ t ≠ .update then [inDecl, outDecl] else [outDecl] := by decide
  rw [source type known]
  split
  · next pipe => simp [pipe, or_comm]
  · next pipe => simp [pipe]

theorem takes_ofType_iff {type : TypeKey} (known : type ∈ types) {bytes : List UInt8}
    (holds : bytes ≠ []) : (ofType type).Takes bytes ↔ type = .counter ∧ 16 ≤ bytes.length ∨
      type = .setVariable ∧ Wire.StartsWithText bytes := by
  have others (counter : type ≠ .counter) (setVariable : type ≠ .setVariable) :
      (ofType type).Takes bytes ↔ bytes = [] := by
    simp only [types, List.mem_cons, List.not_mem_nil, or_false] at known
    obtain rfl | rfl | rfl | rfl | rfl | rfl := known
    · exact Iff.rfl
    · exact Iff.rfl
    · exact Iff.rfl
    · exact Iff.rfl
    · exact absurd rfl counter
    · exact absurd rfl setVariable
  have apart : TypeKey.setVariable ≠ .counter := by decide
  by_cases counter : type = .counter
  · subst counter
    have takes : (ofType .counter).Takes bytes ↔ 16 ≤ bytes.length := Iff.rfl
    simp [takes, apart.symm]
  by_cases setVariable : type = .setVariable
  · subst setVariable
    have takes : (ofType .setVariable).Takes bytes ↔ Wire.StartsWithText bytes := Iff.rfl
    simp [takes, apart]
  · simp [others counter setVariable, holds, counter, setVariable]

end Builtin

def NodeRecord.slot (wrap : Builtin → β) (r : NodeRecord) (key : NodeKey) : Slot β :=
  ⟨{ r.blank key with spots := (Builtin.ofType r.type).spots.map fun d => Spot.declare d key },
    wrap (Builtin.ofType r.type)⟩

namespace Document

variable {wrap : Builtin → β} {d : Document}

def HasOut (d : Document) (place : SpotAddress) : Prop :=
  place.spot = "out" ∧ ∃ r ∈ d.nodes, r.id = place.node

def HasIn (d : Document) (place : SpotAddress) : Prop :=
  place.spot = "in" ∧ ∃ r ∈ d.nodes, r.id = place.node ∧ r.type ≠ .entry ∧ r.type ≠ .update

/-- What a document must be like to be loaded with the library's node types. -/
structure Loadable (d : Document) : Prop where
  version : d.version ≤ currentVersion
  types : ∀ r ∈ d.nodes, r.type ∈ Builtin.types
  ids : (d.nodes.map (·.id)).Nodup
  links : ∀ l ∈ d.links, d.HasOut l.a ∧ d.HasIn l.b ∨ d.HasIn l.a ∧ d.HasOut l.b
  apart : d.links.Pairwise fun l m => ¬ l.SameSpots m
  states : ∀ r ∈ d.nodes, r.state ≠ [] →
    r.type = .counter ∧ 16 ≤ r.state.length ∨
      r.type = .setVariable ∧ Wire.StartsWithText r.state
  room : d.nodes.length ≤ Graph.capacity ∧ d.links.length ≤ Graph.capacity

theorem checkVersion_eq_ok_iff : d.checkVersion = .ok () ↔ d.version ≤ currentVersion := by
  rw [checkVersion, ← UInt32.not_lt]
  split
  · next newer => simp [newer]
  · next older => simp [older]

/-! ### The nodes -/

/-- The graph that the nodes come to, before any link is made. -/
def draft (wrap : Builtin → β) (d : Document) : Graph β :=
  (Graph.empty d.name).extend (d.nodes.mapIdx fun i r => r.slot wrap ⟨i⟩)

theorem slot?_draft (key : NodeKey) :
    (d.draft wrap).slot? key = (d.nodes[key.index]?).map fun r => r.slot wrap key := by
  simp only [Graph.slot?, draft, Graph.extend, Graph.empty, List.nil_append, List.getElem?_map,
    List.getElem?_mapIdx, Option.map_map]
  cases d.nodes[key.index]? <;> rfl

theorem node?_draft (key : NodeKey) :
    (d.draft wrap).node? key = (d.nodes[key.index]?).map fun r => (r.slot wrap key).node := by
  rw [Graph.node?, slot?_draft, Option.map_map]
  rfl

theorem behavior?_draft (key : NodeKey) : (d.draft wrap).behavior? key =
    (d.nodes[key.index]?).map fun r => wrap (Builtin.ofType r.type) := by
  rw [Graph.behavior?, slot?_draft, Option.map_map]
  rfl

theorem addRecords_draft [Behavior β] (hosted : Builtin.Hosted wrap)
    (nodup : (d.nodes.map (·.id)).Nodup) (room : d.nodes.length ≤ Graph.capacity) :
    ∃ events, (Graph.empty d.name).addRecords
        (d.nodes.map fun r => (r, wrap (Builtin.ofType r.type))) =
      (.ok (d.draft wrap, d.nodes.mapIdx fun i _ => ⟨i⟩), events) := by
  have yields : List.Forall₂ (fun r s => r.1.Yields r.2 s)
      (d.nodes.map fun r => (r, wrap (Builtin.ofType r.type)))
      (d.nodes.mapIdx fun i r => r.slot wrap ⟨i⟩) := by
    refine List.forall₂_iff_get.mpr ⟨by simp, ?_⟩
    intro i bound bound'
    simp only [List.get_eq_getElem, List.getElem_map, List.getElem_mapIdx, NodeRecord.Yields,
      hosted.setup]
    exact Builtin.setup_run wrap _ rfl
  have keys (i : Nat) (s : Slot β) (at_i : (d.nodes.mapIdx fun i r => r.slot wrap ⟨i⟩)[i]? = some s) :
      s.node.key = ⟨(Graph.empty (β := β) d.name).slots.length + i⟩ := by
    rw [List.getElem?_mapIdx, Option.map_eq_some_iff] at at_i
    obtain ⟨r, _, rfl⟩ := at_i
    simp [NodeRecord.slot, NodeRecord.blank, Graph.empty]
  have ids : ((Graph.empty (β := β) d.name).ids.map (·.1) ++
      (d.nodes.map fun r => (r, wrap (Builtin.ofType r.type))).map (·.1.id)).Nodup := by
    simpa [Graph.empty, Function.comp_def] using nodup
  have handles : (d.nodes.mapIdx fun i r => r.slot wrap ⟨i⟩).map (·.node.key) =
      d.nodes.mapIdx fun i _ => ⟨i⟩ := by
    apply List.ext_getElem?
    intro i
    simp only [List.getElem?_map, List.getElem?_mapIdx, Option.map_map]
    rfl
  have fits : (Graph.empty (β := β) d.name).slots.length +
      (d.nodes.map fun r => (r, wrap (Builtin.ofType r.type))).length ≤ Graph.capacity := by
    simpa [Graph.empty] using room
  exact ⟨_, by rw [Graph.addRecords_eq_extend ⟨yields, keys, ids, fits⟩, handles]; rfl⟩

theorem sound_draft [Behavior β] (hosted : Builtin.Hosted wrap)
    (nodup : (d.nodes.map (·.id)).Nodup) (room : d.nodes.length ≤ Graph.capacity) :
    (d.draft wrap).Sound := by
  obtain ⟨events, added⟩ := addRecords_draft hosted nodup room
  exact Graph.addRecords_keeps (fun g id tag type b sound => sound.addNode id tag type b) _
    (Graph.sound_empty d.name) added

/-! ### The links -/

theorem open_draft : (d.draft wrap).Open := by
  intro ref s found
  obtain ⟨n, at_key, at_index⟩ := Graph.spot?_eq_some_iff.mp found
  rw [node?_draft] at at_key
  obtain ⟨r, _, rfl⟩ := Option.map_eq_some_iff.mp at_key
  obtain ⟨e, mem, rfl⟩ := List.mem_map.mp (List.mem_of_getElem? at_index)
  exact (Builtin.ofType r.type).plain_of_mem_spots e mem

theorem declaresAt_draft_iff {place : SpotAddress} {e : SpotDecl} :
    (d.draft wrap).DeclaresAt place e ↔
      ∃ r ∈ d.nodes, r.id = place.node ∧ e ∈ (Builtin.ofType r.type).spots ∧ e.id = place.spot := by
  simp only [Graph.DeclaresAt, Graph.address_eq_ok_iff, Graph.spot?_eq_some_iff, node?_draft,
    Option.map_eq_some_iff]
  constructor
  · intro declared
    obtain ⟨ref, s, ⟨_, t, ⟨r, at_r, rfl⟩, at_t, rfl⟩, ⟨_, ⟨r', at_r', rfl⟩, at_s⟩, rfl⟩ := declared
    cases at_r.symm.trans at_r'
    cases at_t.symm.trans at_s
    obtain ⟨e, mem, rfl⟩ := List.mem_map.mp (List.mem_of_getElem? at_s)
    exact ⟨r, List.mem_of_getElem? at_r, rfl, mem, rfl⟩
  · intro listed
    obtain ⟨r, mem, id, declared, named⟩ := listed
    obtain ⟨i, at_i⟩ := List.mem_iff_getElem?.mp mem
    obtain ⟨j, at_j⟩ := List.mem_iff_getElem?.mp declared
    have spot : (r.slot wrap ⟨i⟩).node.spots[j]? = some (Spot.declare e ⟨i⟩) := by
      simp [NodeRecord.slot, at_j]
    refine ⟨⟨⟨i⟩, j⟩, Spot.declare e ⟨i⟩, ⟨_, _, ⟨r, at_i, rfl⟩, spot, ?_⟩, ⟨_, ⟨r, at_i, rfl⟩, spot⟩, rfl⟩
    cases place
    simp_all [NodeRecord.slot, NodeRecord.blank, Spot.declare]

theorem declaresAt_draft_iff_of_types (known : ∀ r ∈ d.nodes, r.type ∈ Builtin.types)
    {place : SpotAddress} {e : SpotDecl} : (d.draft wrap).DeclaresAt place e ↔
      e = Builtin.outDecl ∧ d.HasOut place ∨ e = Builtin.inDecl ∧ d.HasIn place := by
  rw [declaresAt_draft_iff]
  constructor
  · intro declared
    obtain ⟨r, mem, id, listed, named⟩ := declared
    obtain rfl | ⟨rfl, pipe⟩ := (Builtin.mem_spots_ofType_iff (known r mem)).mp listed
    · exact .inl ⟨rfl, named.symm, r, mem, id⟩
    · exact .inr ⟨rfl, named.symm, r, mem, id, pipe⟩
  · intro ends
    obtain ⟨rfl, named, r, mem, id⟩ | ⟨rfl, named, r, mem, id, pipe⟩ := ends
    · exact ⟨r, mem, id, (Builtin.mem_spots_ofType_iff (known r mem)).mpr (.inl rfl), named.symm⟩
    · exact ⟨r, mem, id, (Builtin.mem_spots_ofType_iff (known r mem)).mpr (.inr ⟨rfl, pipe⟩),
        named.symm⟩

theorem joins_draft_iff (known : ∀ r ∈ d.nodes, r.type ∈ Builtin.types) {l : LinkRecord} :
    (d.draft wrap).Joins l ↔ d.HasOut l.a ∧ d.HasIn l.b ∨ d.HasIn l.a ∧ d.HasOut l.b := by
  simp only [Graph.Joins, declaresAt_draft_iff_of_types known]
  constructor
  · intro joins
    obtain ⟨e, f, ⟨rfl, a⟩ | ⟨rfl, a⟩, ⟨rfl, b⟩ | ⟨rfl, b⟩, differ⟩ := joins
    · exact absurd rfl differ
    · exact .inl ⟨a, b⟩
    · exact .inr ⟨a, b⟩
    · exact absurd rfl differ
  · intro ends
    obtain ⟨a, b⟩ | ⟨a, b⟩ := ends
    · exact ⟨_, _, .inl ⟨rfl, a⟩, .inr ⟨rfl, b⟩, by decide⟩
    · exact ⟨_, _, .inr ⟨rfl, a⟩, .inl ⟨rfl, b⟩, by decide⟩

theorem exists_linkRecords_draft_iff [Behavior β] (hosted : Builtin.Hosted wrap)
    (nodup : (d.nodes.map (·.id)).Nodup) (room : d.nodes.length ≤ Graph.capacity)
    (known : ∀ r ∈ d.nodes, r.type ∈ Builtin.types) :
    (∃ h, d.links.foldlM Graph.linkRecord (d.draft wrap) = .ok h) ↔
      (∀ l ∈ d.links, d.HasOut l.a ∧ d.HasIn l.b ∨ d.HasIn l.a ∧ d.HasOut l.b) ∧
      d.links.Pairwise (fun l m => ¬ l.SameSpots m) ∧ d.links.length ≤ Graph.capacity := by
  have bare : ∀ old, ¬ (d.draft wrap).Stores old := by
    intro old stored
    obtain ⟨l, mem, _⟩ := stored
    cases mem
  have none_yet : (d.draft wrap).links.length = 0 := rfl
  rw [Graph.exists_linkRecords_iff (sound_draft hosted nodup room) open_draft d.links
    (none_yet ▸ Nat.zero_le _)]
  simp only [joins_draft_iff known, bare, false_implies, implies_true, true_and, none_yet,
    Nat.zero_add]

/-! ### The states -/

theorem nodup_zip_keys (records : List NodeRecord) :
    ((records.zip (records.mapIdx fun i _ => (⟨i⟩ : NodeKey))).map (·.2)).Nodup := by
  rw [List.map_snd_zip (by simp), List.nodup_iff_pairwise_ne, List.pairwise_iff_getElem]
  intro i j hi hj less
  simp
  omega

theorem mem_zip_keys_iff {records : List NodeRecord} {p : NodeRecord × NodeKey} :
    p ∈ records.zip (records.mapIdx fun i _ => (⟨i⟩ : NodeKey)) ↔
      records[p.2.index]? = some p.1 := by
  rw [List.mem_iff_getElem?]
  simp only [List.getElem?_zip_eq_some, List.getElem?_mapIdx, Option.map_eq_some_iff]
  constructor
  · intro place
    obtain ⟨i, at_i, _, _, same⟩ := place
    rw [← same]
    exact at_i
  · intro at_i
    exact ⟨p.2.index, at_i, p.1, at_i, rfl⟩

theorem exists_gives_draft_iff [Behavior β] (hosted : Builtin.Hosted wrap)
    (links : List (Option Link)) {key : NodeKey} {r : NodeRecord}
    (at_key : d.nodes[key.index]? = some r) :
    (∃ c, ((d.draft wrap).wire links).Gives r key c) ↔
      (r.state ≠ [] → (Builtin.ofType r.type).Takes r.state) := by
  simp only [Graph.Gives, Graph.behavior?_wire, behavior?_draft, at_key, Option.map_some,
    Option.some.injEq, exists_eq_left']
  by_cases bare : r.state = []
  · simp [bare]
  · rw [← Builtin.exists_restore_iff, hosted.restore]
    rcases (Builtin.ofType r.type).restore r.state with ⟨cause | u, c⟩ <;> simp [bare]

theorem exists_restoreStates_draft_iff [Behavior β] (hosted : Builtin.Hosted wrap)
    (known : ∀ r ∈ d.nodes, r.type ∈ Builtin.types) (links : List (Option Link)) :
    (∃ k, (((d.draft wrap).wire links).restoreStates
      (d.nodes.zip (d.nodes.mapIdx fun i _ => ⟨i⟩))).1 = .ok k) ↔
      ∀ r ∈ d.nodes, r.state ≠ [] → r.type = .counter ∧ 16 ≤ r.state.length ∨
        r.type = .setVariable ∧ Wire.StartsWithText r.state := by
  have live (p : NodeRecord × NodeKey)
      (mem : p ∈ d.nodes.zip (d.nodes.mapIdx fun i _ => (⟨i⟩ : NodeKey))) :
      (((d.draft wrap).wire links).behavior? p.2).isSome := by
    rw [Graph.behavior?_wire, behavior?_draft, mem_zip_keys_iff.mp mem]
    rfl
  rw [Graph.exists_restoreStates_iff (nodup_zip_keys d.nodes) live]
  constructor
  · intro all r mem holds
    obtain ⟨i, at_i⟩ := List.mem_iff_getElem?.mp mem
    have given := all (r, ⟨i⟩) (mem_zip_keys_iff.mpr at_i)
    have takes := (exists_gives_draft_iff hosted links at_i).mp given holds
    exact (Builtin.takes_ofType_iff (known r mem) holds).mp takes
  · intro all p mem
    have at_key := mem_zip_keys_iff.mp mem
    have listed := List.mem_of_getElem? at_key
    exact (exists_gives_draft_iff hosted links at_key).mpr fun holds =>
      (Builtin.takes_ofType_iff (known p.1 listed) holds).mpr (all p.1 listed holds)

/-! ### The whole load -/

theorem mapM_create_eq_ok_iff {bs : List β} :
    (d.nodes.zipIdx.mapM fun p => (Builtin.registry wrap).create p.1.type p.2) = .ok bs ↔
      (∀ r ∈ d.nodes, r.type ∈ Builtin.types) ∧
        bs = d.nodes.map fun r => wrap (Builtin.ofType r.type) := by
  rw [mapM_eq_ok_iff]
  simp only [Builtin.create_eq_ok_iff]
  rw [← List.forall₂_map_left_iff (f := Prod.fst)
    (R := fun (r : NodeRecord) c => r.type ∈ Builtin.types ∧ c = wrap (Builtin.ofType r.type)),
    List.zipIdx_map_fst]
  induction d.nodes generalizing bs with
  | nil => simp
  | cons r rs ih =>
      simp only [List.forall₂_cons_left_iff, ih, List.forall_mem_cons, List.map_cons]
      constructor
      · intro created
        obtain ⟨_, _, ⟨known, rfl⟩, ⟨others, rfl⟩, rfl⟩ := created
        exact ⟨⟨known, others⟩, rfl⟩
      · intro created
        obtain ⟨⟨known, others⟩, rfl⟩ := created
        exact ⟨_, _, ⟨known, rfl⟩, ⟨others, rfl⟩, rfl⟩

theorem zip_map_nodes (f : NodeRecord → β) : d.nodes.zip (d.nodes.map f) =
    d.nodes.map fun r => (r, f r) := by
  conv_lhs => rw [← List.map_id d.nodes]
  rw [List.map_id, ← List.map_prod_left_eq_zip]

theorem told_draft [Behavior β] (hosted : Builtin.Hosted wrap) (links : List (Option Link))
    (keys : List NodeKey) :
    ((d.draft wrap).wire links).Told keys ((d.draft wrap).wire links) := by
  refine Graph.told_self fun key _ s found => ?_
  rw [Graph.slot?_wire, slot?_draft, Option.map_map] at found
  obtain ⟨r, _, rfl⟩ := Option.map_eq_some_iff.mp found
  exact hosted.loaded _ _ _

/-- A document can be loaded with the library's node types just if it is loadable. -/
theorem load_succeeds_iff [Behavior β] (hosted : Builtin.Hosted wrap) (d : Document) :
    (∃ g calls, Graph.load d (Builtin.registry wrap) = (.ok g, calls)) ↔ d.Loadable := by
  rw [Graph.exists_load_iff, checkVersion_eq_ok_iff]
  constructor
  · intro phases
    obtain ⟨version, bs, created, g, keys, setups, added, h, linked, t, told, restored⟩ := phases
    obtain ⟨known, rfl⟩ := mapM_create_eq_ok_iff.mp created
    rw [zip_map_nodes] at added
    have sound : g.Sound := Graph.addRecords_keeps
      (fun g id tag type b sound => sound.addNode id tag type b) _ (Graph.sound_empty d.name) added
    have fits : g.Fits := Graph.addRecords_keeps
      (fun g id tag type b fits => fits.addNode id tag type b) _ (Graph.fits_empty d.name) added
    have ids : g.ids.map (·.1) = d.nodes.map (·.id) := by
      simpa [Graph.empty, Function.comp_def] using Graph.ids_of_addRecords added
    have nodup : (d.nodes.map (·.id)).Nodup := ids ▸ sound.ids_nodup
    have room : d.nodes.length ≤ Graph.capacity := by
      have count : g.nodeCount = d.nodes.length := by
        simpa [Graph.nodeCount] using congrArg List.length ids
      exact count ▸ Nat.le_trans (Graph.nodeCount_le sound) fits.slots
    obtain ⟨events, draft⟩ := addRecords_draft hosted nodup room
    cases added.symm.trans draft
    obtain ⟨links, apart, rooms⟩ :=
      (exists_linkRecords_draft_iff hosted nodup room known).mp ⟨h, linked⟩
    obtain ⟨arena, rfl⟩ := Graph.wire_of_linkRecords sound linked
    cases told.det (told_draft hosted arena _)
    have states := (exists_restoreStates_draft_iff hosted known arena).mp restored
    exact ⟨version, known, nodup, links, apart, states, room, rooms⟩
  · intro loadable
    obtain ⟨version, known, nodup, links, apart, states, room, rooms⟩ := loadable
    obtain ⟨events, draft⟩ := addRecords_draft hosted nodup room
    obtain ⟨h, linked⟩ :=
      (exists_linkRecords_draft_iff hosted nodup room known).mpr ⟨links, apart, rooms⟩
    obtain ⟨arena, rfl⟩ := Graph.wire_of_linkRecords (sound_draft hosted nodup room) linked
    refine ⟨version, _, mapM_create_eq_ok_iff.mpr ⟨known, rfl⟩, _, _, events, ?_, _, linked, _,
      told_draft hosted arena _, (exists_restoreStates_draft_iff hosted known arena).mpr states⟩
    rw [zip_map_nodes, draft]

/-- A counter that is linked to itself, the input first, with more bytes of state than it needs. -/
def looped : Document :=
  { empty "looped" with
    nodes := [⟨"start", "Start", .entry, []⟩, ⟨"count", "Count", .counter, List.replicate 17 1⟩]
    links := [⟨⟨"count", "in"⟩, ⟨"start", "out"⟩⟩, ⟨⟨"count", "in"⟩, ⟨"count", "out"⟩⟩] }

theorem loadable_looped :
    let again : LinkRecord := ⟨⟨"start", "out"⟩, ⟨"count", "in"⟩⟩
    Builtin.Hosted (id : Builtin → Builtin) ∧ looped.Loadable ∧
      ¬ { looped with links := looped.links ++ [again] }.Loadable := by
  intro again
  have loads : (Graph.load looped (Builtin.registry id)).1.isOk := by decide +kernel
  have fails : ¬ (Graph.load { looped with links := looped.links ++ [again] }
      (Builtin.registry id)).1.isOk := by decide +kernel
  refine ⟨Builtin.hosted_id, (load_succeeds_iff Builtin.hosted_id _).mp ?_, ?_⟩
  · rcases loaded : Graph.load looped (Builtin.registry id) with ⟨_ | g, calls⟩
    · rw [loaded] at loads
      cases loads
    · exact ⟨g, calls, rfl⟩
  · intro loadable
    obtain ⟨g, calls, loaded⟩ := (load_succeeds_iff Builtin.hosted_id _).mpr loadable
    exact fails (by rw [loaded]; rfl)

end Document
end SignalGraph
