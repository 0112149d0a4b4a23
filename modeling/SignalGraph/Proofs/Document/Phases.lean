import SignalGraph.Proofs.Document.Acceptance
import SignalGraph.Proofs.Document.Numbering

/-!
The calls that a load makes, whatever the document, the registered types and their behaviors are, which may
object to every call. A phase begins once the phase before it is over for all nodes, and the first objection
is the last thing that happens. Which behaviors object to what is up to them.
-/

namespace SignalGraph

variable {β : Type}

inductive Phase where
  | setup
  | loaded
  | restore
deriving DecidableEq

def Event.phase? : Event → Option (Phase × NodeKey)
  | .setup key => some (.setup, key)
  | .loaded key _ _ _ => some (.loaded, key)
  | .restore key _ => some (.restore, key)
  | _ => none

namespace Document

/-- The first nodes of a document, with the handles that a load gives them. -/
def numbered (records : List NodeRecord) : List (NodeRecord × NodeKey) :=
  records.mapIdx fun i r => (r, ⟨i⟩)

def setups (records : List NodeRecord) : List Event :=
  (numbered records).map fun p => .setup p.2

def announcements (d : Document) (records : List NodeRecord) : List Event :=
  (numbered records).map fun p => .loaded p.2 (d.linkEnds p.1.id) d.nodes.length d.links.length

/-- The calls that give nodes their states; a record without state is passed over. -/
def restores (pairs : List (NodeRecord × NodeKey)) : List Event :=
  (pairs.filter (·.1.state ≠ [])).map fun p => .restore p.2 p.1.state

def calls (d : Document) : List Event :=
  setups d.nodes ++ d.announcements d.nodes ++ restores (numbered d.nodes)

end Document

/-! ### How a load may end -/

section Ends

variable [Behavior β]

/-- What some records come to: their IDs are distinct, and the behavior that a new node of the type starts
with is set up under the next key. -/
structure Added (types : Registry β) (records : List NodeRecord) (slots : List (Slot β)) : Prop where
  yields : List.Forall₂ (fun p s => ∃ b, types.create p.1.type p.2 = .ok b ∧ p.1.Yields b s)
    records.zipIdx slots
  keys : ∀ (i : Nat) (s : Slot β), slots[i]? = some s → s.node.key = ⟨i⟩
  ids : (records.map (·.id)).Nodup

namespace Document

structure Admitted (d : Document) (types : Registry β) : Prop where
  version : d.version ≤ currentVersion
  types : ∀ r ∈ d.nodes, (types.get? r.type).isSome

/-- The graph of a document with all nodes and links, before anyone is told of it. -/
structure Completes (d : Document) (types : Registry β) (g : Graph β) : Prop where
  admitted : d.Admitted types
  built : ∃ slots, Added types d.nodes slots ∧
    d.links.foldlM Graph.linkRecord ((Graph.empty d.name).extend slots) = .ok g
  follows : g.Follows d

/-- The results that a load can have, each with the calls made until then. Nothing before the first
objection failed. -/
inductive LoadEnds (d : Document) (types : Registry β) :
    Except RunError (Graph β) → List Event → Prop
  | version {cause : PersistError} (newer : d.checkVersion = .error cause) :
      LoadEnds d types (.error (.persist cause)) []
  | type {done : List NodeRecord} {r : NodeRecord} {rest : List NodeRecord}
      (version : d.version ≤ currentVersion) (nodes : d.nodes = done ++ r :: rest)
      (known : ∀ q ∈ done, (types.get? q.type).isSome) (unknown : types.get? r.type = none) :
      LoadEnds d types (.error (.graph (.unknownType r.type))) []
  | id {done : List NodeRecord} {r : NodeRecord} {rest : List NodeRecord} {slots : List (Slot β)}
      (admitted : d.Admitted types) (nodes : d.nodes = done ++ r :: rest)
      (added : Added types done slots) (taken : r.id ∈ done.map (·.id)) :
      LoadEnds d types (.error (.graph (.nodeIdTaken r.id))) (setups done)
  | nodesFull {done : List NodeRecord} {r : NodeRecord} {rest : List NodeRecord}
      {slots : List (Slot β)}
      (admitted : d.Admitted types) (nodes : d.nodes = done ++ r :: rest)
      (added : Added types done slots) (new : r.id ∉ done.map (·.id))
      (full : Graph.capacity ≤ done.length) :
      LoadEnds d types (.error (.graph .nodesFull)) (setups done)
  | setup {done : List NodeRecord} {r : NodeRecord} {rest : List NodeRecord} {slots : List (Slot β)}
      {b : β} {cause : GraphError}
      (admitted : d.Admitted types) (nodes : d.nodes = done ++ r :: rest)
      (added : Added types done slots) (new : r.id ∉ done.map (·.id))
      (room : done.length < Graph.capacity)
      (created : types.create r.type done.length = .ok b)
      (refuses : r.Refuses b ⟨done.length⟩ cause) :
      LoadEnds d types (.error (.graph cause)) (setups (done ++ [r]))
  | link {slots : List (Slot β)} {made : List LinkRecord} {l : LinkRecord} {rest : List LinkRecord}
      {g : Graph β} {cause : GraphError}
      (admitted : d.Admitted types) (added : Added types d.nodes slots)
      (links : d.links = made ++ l :: rest)
      (linked : made.foldlM Graph.linkRecord ((Graph.empty d.name).extend slots) = .ok g)
      (refused : g.linkRecord l = .error cause) :
      LoadEnds d types (.error (.graph cause)) (setups d.nodes)
  | loaded {g t : Graph β} {done : List NodeRecord} {r : NodeRecord} {rest : List NodeRecord}
      {s : Slot β} {cause : GraphError}
      (complete : d.Completes types g) (nodes : d.nodes = done ++ r :: rest)
      (told : g.Told ((numbered done).map (·.2)) t) (found : t.slot? ⟨done.length⟩ = some s)
      (objects : Behavior.loaded s.behavior t ⟨done.length⟩ = .error cause) :
      LoadEnds d types (.error (.graph cause)) (setups d.nodes ++ d.announcements (done ++ [r]))
  | restore {g t : Graph β} {done : List NodeRecord} {r : NodeRecord} {rest : List NodeRecord}
      {b : β} {cause : PersistError}
      (complete : d.Completes types g) (told : g.Told ((numbered d.nodes).map (·.2)) t)
      (nodes : d.nodes = done ++ r :: rest) (given : ∀ p ∈ numbered done, ∃ c, t.Gives p.1 p.2 c)
      (holds : r.state ≠ []) (found : t.behavior? ⟨done.length⟩ = some b)
      (refuses : (Behavior.restore b r.state).1 = .error cause) :
      LoadEnds d types (.error (.persist cause))
        (setups d.nodes ++ d.announcements d.nodes ++ restores (numbered (done ++ [r])))
  | success {g t h : Graph β}
      (complete : d.Completes types g) (told : g.Told ((numbered d.nodes).map (·.2)) t)
      (given : ∀ p ∈ numbered d.nodes, ∃ c, t.Gives p.1 p.2 c ∧ h.behavior? p.2 = some c)
      (shape : h.shape = g.shape) :
      LoadEnds d types (.ok h) d.calls

end Document
end Ends

/-! ### The phases one by one -/

namespace Document

theorem map_fst_numbered (records : List NodeRecord) : (numbered records).map (·.1) = records :=
  List.ext_getElem (by simp [numbered]) (by simp [numbered])

theorem map_snd_numbered (records : List NodeRecord) :
    (numbered records).map (·.2) = records.mapIdx fun i _ => ⟨i⟩ :=
  List.ext_getElem (by simp [numbered]) (by simp [numbered])

theorem zip_numbered (records : List NodeRecord) :
    records.zip ((numbered records).map (·.2)) = numbered records :=
  List.ext_getElem (by simp [numbered]) (by simp [numbered])

theorem numbered_append_cons (done : List NodeRecord) (r : NodeRecord) (rest : List NodeRecord) :
    ∃ more, numbered (done ++ r :: rest) = numbered done ++ (r, ⟨done.length⟩) :: more := by
  refine ⟨rest.mapIdx fun i q => (q, ⟨i + 1 + done.length⟩), ?_⟩
  simp [numbered, List.mapIdx_append, List.mapIdx_cons]

theorem numbered_append_singleton (done : List NodeRecord) (r : NodeRecord) :
    numbered (done ++ [r]) = numbered done ++ [(r, ⟨done.length⟩)] := by
  simp [numbered, List.mapIdx_append]

theorem exists_of_numbered_eq {records : List NodeRecord} {done : List (NodeRecord × NodeKey)}
    {p : NodeRecord × NodeKey} {rest : List (NodeRecord × NodeKey)}
    (split : numbered records = done ++ p :: rest) : ∃ first later, records = first ++ p.1 :: later ∧
      done = numbered first ∧ p = (p.1, ⟨first.length⟩) := by
  have records_eq : records = done.map (·.1) ++ p.1 :: rest.map (·.1) := by
    conv_lhs => rw [← map_fst_numbered records, split]
    simp
  refine ⟨done.map (·.1), rest.map (·.1), records_eq, ?_⟩
  obtain ⟨more, again⟩ := numbered_append_cons (done.map (·.1)) p.1 (rest.map (·.1))
  rw [← records_eq, split] at again
  obtain ⟨same, tail⟩ := List.append_inj again (by simp [numbered])
  exact ⟨same, (List.cons.inj tail).1⟩

theorem setups_append_singleton (done : List NodeRecord) (r : NodeRecord) :
    setups (done ++ [r]) = setups done ++ [.setup ⟨done.length⟩] := by
  simp [setups, numbered_append_singleton]

theorem restores_append (first more : List (NodeRecord × NodeKey)) :
    restores (first ++ more) = restores first ++ restores more := by
  simp [restores]

end Document

namespace Graph

open Document

variable [Behavior β]

theorem restoreStates_cons {g h : Graph β} {p : NodeRecord × NodeKey}
    (ran : g.restoreOne p = .ok h) (pairs : List (NodeRecord × NodeKey)) :
    g.restoreStates (p :: pairs) =
      ((h.restoreStates pairs).1, restores [p] ++ (h.restoreStates pairs).2) := by
  simp only [restoreOne] at ran
  simp only [restoreStates]
  by_cases bare : p.1.state.isEmpty
  · rw [if_pos bare] at ran ⊢
    obtain rfl : g = h := Except.ok.inj ran
    simp [restores, List.isEmpty_iff.mp bare]
  · rw [if_neg bare] at ran ⊢
    have some_state : p.1.state ≠ [] := fun none_left => bare (by simp [none_left])
    cases found : g.behavior p.2 with
    | error cause => simp [found] at ran
    | ok b =>
        rcases restored : Behavior.restore b p.1.state with ⟨cause | u, c⟩
        · simp [found, restored] at ran
        · obtain rfl : g.setBehavior p.2 c = h := by simpa [found, restored] using ran
          simp [restored, restores, some_state]

theorem restoreStates_answers {g : Graph β} {pairs : List (NodeRecord × NodeKey)}
    (nodup : (pairs.map (·.2)).Nodup) (live : ∀ p ∈ pairs, (g.behavior? p.2).isSome) :
    (∃ h, g.restoreStates pairs = (.ok h, restores pairs)) ∨
    ∃ done p rest b cause, pairs = done ++ p :: rest ∧ (∀ q ∈ done, ∃ c, g.Gives q.1 q.2 c) ∧
      p.1.state ≠ [] ∧ g.behavior? p.2 = some b ∧ (Behavior.restore b p.1.state).1 = .error cause ∧
      g.restoreStates pairs = (.error (.persist cause), restores (done ++ [p])) := by
  induction pairs generalizing g with
  | nil => exact .inl ⟨g, rfl⟩
  | cons p pairs ih =>
      rw [List.map_cons, List.nodup_cons] at nodup
      obtain ⟨alive, lives⟩ := List.forall_mem_cons.mp live
      obtain ⟨b, found⟩ := Option.isSome_iff_exists.mp alive
      by_cases gives : ∃ c, g.Gives p.1 p.2 c
      · obtain ⟨g', ran⟩ := (exists_restoreOne_iff alive).mpr gives
        obtain ⟨shape, _, others⟩ := restoreOne_spec ran
        have other (q : NodeRecord × NodeKey) (mem : q ∈ pairs) :
            g'.behavior? q.2 = g.behavior? q.2 :=
          others q.2 fun same => nodup.1 (same ▸ List.mem_map_of_mem mem)
        obtain ⟨h, all⟩ | ⟨done, q, rest, c, cause, rfl, given, holds, at_q, refuses, stopped⟩ :=
          ih nodup.2 fun q mem => (isSome_behavior?_of_shape shape).mpr (lives q mem)
        · refine .inl ⟨h, ?_⟩
          rw [restoreStates_cons ran, all, ← restores_append, List.singleton_append]
        · refine .inr ⟨p :: done, q, rest, c, cause, rfl, List.forall_mem_cons.mpr ⟨gives, ?_⟩, holds,
            (other q (by simp)) ▸ at_q, refuses, ?_⟩
          · intro q' mem
            simpa only [gives_congr (other q' (by simp [mem]))] using given q' mem
          · rw [restoreStates_cons ran, stopped, ← restores_append, List.singleton_append,
              List.cons_append]
      · have holds : p.1.state ≠ [] := by
          intro bare
          exact gives ⟨b, b, found, by rw [if_pos bare]⟩
        rcases restored : Behavior.restore b p.1.state with ⟨cause | u, c⟩
        · refine .inr ⟨[], p, pairs, b, cause, rfl, by simp, holds, found, by rw [restored], ?_⟩
          simp [restoreStates, holds, behavior_eq_ok_iff.mpr found, restored, restores]
        · exact absurd ⟨c, b, found, by rw [if_neg holds, restored]⟩ gives

theorem Places.added {types : Registry β} {name : String} {pairs : List (NodeRecord × β)}
    {slots : List (Slot β)} (places : (empty name).Places pairs slots)
    (created : ∀ i p, pairs[i]? = some p → types.create p.1.type i = .ok p.2) :
    Added types (pairs.map (·.1)) slots where
  yields := by
    rw [List.forall₂_iff_get]
    refine ⟨by simpa using places.yields.length_eq, ?_⟩
    intro i within inside
    have bound : i < pairs.length := by simpa using within
    have fresh := created i _ (List.getElem?_eq_getElem bound)
    exact ⟨pairs[i].2, by simpa using fresh, by simpa using places.yields.get bound inside⟩
  keys i s at_i := by simpa [empty] using places.keys i s at_i
  ids := by simpa [empty, Function.comp_def] using places.nodup

end Graph

namespace Added

open Document

variable [Behavior β] {types : Registry β} {records : List NodeRecord} {slots : List (Slot β)}

theorem length_eq (added : Added types records slots) : slots.length = records.length := by
  simpa using added.yields.length_eq.symm

theorem keys_eq (added : Added types records slots) :
    slots.map (·.node.key) = (numbered records).map (·.2) := by
  rw [map_snd_numbered]
  apply List.ext_getElem
  · simp [added.length_eq]
  · intro i inside _
    rw [List.length_map] at inside
    simpa using added.keys i _ (List.getElem?_eq_getElem inside)

theorem setups_eq (added : Added types records slots) :
    (slots.map fun s => Event.setup s.node.key) = setups records := by
  have both := congrArg (List.map Event.setup) added.keys_eq
  rwa [List.map_map, List.map_map] at both

theorem ids_eq (added : Added types records slots) (name : String) :
    ((Graph.empty (β := β) name).extend slots).ids.map (·.1) = records.map (·.id) := by
  have yields := added.yields
  conv_rhs => rw [← List.zipIdx_map_fst 0 records]
  generalize records.zipIdx = pairs at yields ⊢
  simp only [Graph.extend, Graph.empty, List.nil_append, List.map_map]
  clear added
  induction yields with
  | nil => rfl
  | cons first _ ih =>
      obtain ⟨b, _, yields⟩ := first
      rw [List.map_cons, List.map_cons, ih, Function.comp_apply, yields.id_eq]
      rfl

end Added

/-! ### The whole load -/

theorem Registry.unknown_of_create {types : Registry β} {key : TypeKey} {call : Nat}
    {cause : GraphError} (failed : types.create key call = .error cause) :
    types.get? key = none ∧ cause = .unknownType key := by
  simp only [Registry.create] at failed
  split at failed
  · cases failed
  next absent =>
  cases failed
  exact ⟨absent, rfl⟩

theorem Registry.exists_create_iff {types : Registry β} {key : TypeKey} {call : Nat} :
    (∃ b, types.create key call = .ok b) ↔ (types.get? key).isSome := by
  cases found : types.get? key <;> simp [Registry.create, found]

namespace Document

theorem nodup_snd_numbered (records : List NodeRecord) : ((numbered records).map (·.2)).Nodup := by
  rw [map_snd_numbered, List.nodup_iff_pairwise_ne, List.pairwise_iff_getElem]
  intro i j _ _ less
  simp
  omega

theorem mem_numbered_iff {records : List NodeRecord} {p : NodeRecord × NodeKey} :
    p ∈ numbered records ↔ records[p.2.index]? = some p.1 := by
  rw [numbered, List.mem_iff_getElem?]
  simp only [List.getElem?_mapIdx, Option.map_eq_some_iff]
  constructor
  · intro place
    obtain ⟨i, r, at_i, rfl⟩ := place
    exact at_i
  · intro at_key
    exact ⟨p.2.index, p.1, at_key, rfl⟩

variable [Behavior β] {d : Document} {types : Registry β} {g : Graph β}

theorem announce_ends (complete : d.Completes types g) :
    (∃ t, g.Told ((numbered d.nodes).map (·.2)) t ∧
      g.announce g.keys = (.ok t, d.announcements d.nodes)) ∨
    ∃ done r rest t s cause, d.nodes = done ++ r :: rest ∧
      g.Told ((numbered done).map (·.2)) t ∧ t.slot? ⟨done.length⟩ = some s ∧
      Behavior.loaded s.behavior t ⟨done.length⟩ = .error cause ∧
      g.announce g.keys = (.error cause, d.announcements (done ++ [r])) := by
  have follows := complete.follows
  have live (p : NodeRecord × NodeKey) (mem : p ∈ numbered d.nodes) : ∃ n, g.node? p.2 = some n ∧
      Event.loaded p.2 (d.linkEnds p.1.id) d.nodes.length d.links.length =
        .loaded p.2 n.linkCount g.nodeCount g.linkCount := by
    obtain ⟨n, found, _⟩ := follows.node p.2.index p.1 (mem_numbered_iff.mp mem)
    refine ⟨n, found, ?_⟩
    rw [follows.ownLinks _ p.1 n (mem_numbered_iff.mp mem) found, follows.nodeCount,
      follows.linkCount]
  have keys : g.keys = (numbered d.nodes).map (·.2) := by rw [map_snd_numbered, follows.keys]
  rw [keys]
  obtain told | ⟨done, p, rest, t, s, cause, split, told, found, objects, stopped⟩ :=
    Graph.announce_answers live
  · exact .inl told
  obtain ⟨first, later, nodes, rfl, here⟩ := exists_of_numbered_eq split
  rw [here] at found objects stopped
  refine .inr ⟨first, p.1, later, t, s, cause, nodes, told, found, objects, ?_⟩
  rw [stopped, announcements, numbered_append_singleton]

theorem restoreStates_ends (complete : d.Completes types g) {t : Graph β}
    (same : t.shape = g.shape) :
    (∃ h, t.restoreStates (numbered d.nodes) = (.ok h, restores (numbered d.nodes)) ∧
      h.shape = g.shape ∧
      ∀ p ∈ numbered d.nodes, ∃ c, t.Gives p.1 p.2 c ∧ h.behavior? p.2 = some c) ∨
    ∃ done r rest b cause, d.nodes = done ++ r :: rest ∧
      (∀ p ∈ numbered done, ∃ c, t.Gives p.1 p.2 c) ∧ r.state ≠ [] ∧
      t.behavior? ⟨done.length⟩ = some b ∧ (Behavior.restore b r.state).1 = .error cause ∧
      t.restoreStates (numbered d.nodes) =
        (.error (.persist cause), restores (numbered (done ++ [r]))) := by
  have nodup := nodup_snd_numbered d.nodes
  have live (p : NodeRecord × NodeKey) (mem : p ∈ numbered d.nodes) : (t.behavior? p.2).isSome := by
    obtain ⟨n, found, _⟩ := complete.follows.node p.2.index p.1 (mem_numbered_iff.mp mem)
    rw [Graph.behavior?_isSome_iff, Graph.node?_eq_of_shape same, found]
    rfl
  obtain ⟨h, all⟩ | ⟨done, p, rest, b, cause, split, given, holds, found, refuses, stopped⟩ :=
    Graph.restoreStates_answers nodup live
  · obtain ⟨shape, own, _⟩ := Graph.restoreStates_spec nodup (congrArg Prod.fst all)
    refine .inl ⟨h, all, shape.trans same, ?_⟩
    intro p mem
    obtain ⟨c, gives⟩ :=
      (Graph.exists_restoreStates_iff nodup live).mp ⟨h, congrArg Prod.fst all⟩ p mem
    exact ⟨c, gives, own p mem c gives⟩
  obtain ⟨first, later, nodes, rfl, here⟩ := exists_of_numbered_eq split
  rw [here] at found stopped
  refine .inr ⟨first, p.1, later, b, cause, nodes, given, holds, found, refuses, ?_⟩
  rw [stopped, numbered_append_singleton]

omit [Behavior β] in
theorem create_zip {bs : List β}
    (created : d.nodes.zipIdx.mapM (fun p => types.create p.1.type p.2) = .ok bs) :
    (d.nodes.zip bs).map (·.1) = d.nodes ∧
      ∀ (i : Nat) (p : NodeRecord × β), (d.nodes.zip bs)[i]? = some p →
        types.create p.1.type i = .ok p.2 := by
  have each := mapM_eq_ok_iff.mp created
  have length : d.nodes.length = bs.length := by simpa using each.length_eq
  refine ⟨List.map_fst_zip (Nat.le_of_eq length), ?_⟩
  intro i p at_i
  obtain ⟨at_record, at_behavior⟩ := List.getElem?_zip_eq_some.mp at_i
  obtain ⟨within, record⟩ := List.getElem?_eq_some_iff.mp at_record
  obtain ⟨inside, behavior⟩ := List.getElem?_eq_some_iff.mp at_behavior
  have here := each.get (by simpa using within) inside
  simpa [record, behavior] using here

omit [Behavior β] in
theorem admitted_of_create {bs : List β} (version : d.version ≤ currentVersion)
    (created : d.nodes.zipIdx.mapM (fun p => types.create p.1.type p.2) = .ok bs) :
    d.Admitted types := by
  obtain ⟨records, fresh⟩ := create_zip created
  refine ⟨version, fun r mem => ?_⟩
  rw [← records] at mem
  obtain ⟨p, listed, rfl⟩ := List.mem_map.mp mem
  obtain ⟨i, at_i⟩ := List.mem_iff_getElem?.mp listed
  exact Registry.exists_create_iff.mp ⟨p.2, fresh i p at_i⟩

/-- The nodes are added under their numbers, or the load ends with the first that is not. -/
theorem addRecords_ends {bs : List β} (version : d.version ≤ currentVersion)
    (created : d.nodes.zipIdx.mapM (fun p => types.create p.1.type p.2) = .ok bs) :
    (∃ slots, (Graph.empty d.name).Places (d.nodes.zip bs) slots ∧ Added types d.nodes slots) ∨
    ∃ cause calls, LoadEnds d types (.error (.graph cause)) calls ∧
      (Graph.empty d.name).addRecords (d.nodes.zip bs) = (.error cause, calls) := by
  have admitted := admitted_of_create version created
  obtain ⟨records, fresh⟩ := create_zip created
  obtain ⟨slots, places⟩ | ⟨done, r, b, rest, slots, cause, events, split, places, stops, stopped⟩ :=
    (Graph.empty (β := β) d.name).addRecords_answers (d.nodes.zip bs) (by simp [Graph.empty])
      (Nat.zero_le _)
  · exact .inl ⟨slots, places, records ▸ places.added fresh⟩
  refine .inr ⟨cause, _, ?_, stopped⟩
  have before (i : Nat) (p : NodeRecord × β) (at_i : done[i]? = some p) :
      types.create p.1.type i = .ok p.2 := by
    refine fresh i p ?_
    rw [split, List.getElem?_append_left (List.getElem?_eq_some_iff.mp at_i).1, at_i]
  have added := places.added before
  have nodes : d.nodes = done.map (·.1) ++ r :: rest.map (·.1) := by
    rw [← records, split]
    simp
  have size : ((Graph.empty (β := β) d.name).extend slots).slots.length =
      (done.map (·.1)).length := by simp [Graph.extend, Graph.empty, added.length_eq]
  rw [added.setups_eq]
  cases stops with
  | taken taken =>
      rw [added.ids_eq] at taken
      rw [List.append_nil]
      exact .id admitted nodes added taken
  | full new full =>
      rw [added.ids_eq] at new
      rw [size] at full
      rw [List.append_nil]
      exact .nodesFull admitted nodes added new full
  | refuses new room refuses =>
      rw [added.ids_eq] at new
      rw [size] at room refuses ⊢
      rw [← setups_append_singleton]
      have created : types.create r.type (done.map (·.1)).length = .ok b :=
        fresh _ (r, b) (by rw [split, List.length_map]; simp)
      exact .setup admitted nodes added new room created refuses

theorem load_ends (d : Document) (types : Registry β) :
    LoadEnds d types (Graph.load d types).1 (Graph.load d types).2 := by
  simp only [Graph.load]
  split
  · next cause newer => exact .version newer
  next version =>
  have version := checkVersion_eq_ok_iff.mp version
  split
  · next cause failed =>
      obtain ⟨done, p, rest, split, fine, unknown⟩ := exists_of_mapM_eq_error failed
      obtain ⟨absent, rfl⟩ := Registry.unknown_of_create unknown
      have nodes : d.nodes = done.map (·.1) ++ p.1 :: rest.map (·.1) := by
        rw [← List.zipIdx_map_fst 0 d.nodes, split, List.map_append, List.map_cons]
      refine .type version nodes (fun q mem => ?_) absent
      obtain ⟨q, listed, rfl⟩ := List.mem_map.mp mem
      exact Registry.exists_create_iff.mp (fine q listed)
  next bs created =>
  obtain ⟨slots, places, added⟩ | ⟨cause, calls, ends, stopped⟩ := addRecords_ends version created
  case inr =>
    rw [stopped]
    exact ends
  have admitted := admitted_of_create version created
  rw [Graph.addRecords_eq_extend places]
  simp only [added.setups_eq]
  split
  · next cause failed =>
      obtain ⟨made, l, rest, g, links, linked, refused⟩ := exists_of_foldlM_eq_error failed
      exact .link admitted added links linked refused
  next g linked =>
  have follows := (Graph.follows_of_places places (create_zip created).1 linked).1
  have complete : d.Completes types g := ⟨admitted, ⟨slots, added, linked⟩, follows⟩
  rw [added.keys_eq, zip_numbered]
  obtain ⟨t, told, all⟩ | ⟨done, r, rest, t, s, cause, nodes, told, found, objects, stopped⟩ :=
    announce_ends complete
  case inr =>
    rw [stopped]
    exact .loaded complete nodes told found objects
  obtain ⟨h, restored, shape, given⟩ | ⟨done, r, rest, b, cause, nodes, given, holds, found,
    refuses, stopped⟩ := restoreStates_ends complete told.shape
  · simp only [all, restored]
    exact .success complete told given shape
  · simp only [all, stopped]
    exact .restore complete told nodes given holds found refuses

/-! ### What the calls tell -/

theorem prefix_numbered {done more : List NodeRecord} (pre : done <+: more) :
    numbered done <+: numbered more := by
  obtain ⟨rest, rfl⟩ := pre
  rw [numbered, numbered, List.mapIdx_append]
  exact List.prefix_append _ _

theorem append_singleton_prefix (done : List NodeRecord) (r : NodeRecord) (rest : List NodeRecord) :
    done ++ [r] <+: done ++ r :: rest :=
  ⟨rest, by simp⟩

theorem LoadEnds.calls_prefix {result : Except RunError (Graph β)} {calls : List Event}
    (ends : LoadEnds d types result calls) : calls <+: d.calls := by
  have setups_le {done : List NodeRecord} (pre : done <+: d.nodes) : setups done <+: d.calls := by
    rw [Document.calls, List.append_assoc]
    exact ((prefix_numbered pre).map _).trans (List.prefix_append _ _)
  cases ends with
  | version _ | type _ _ _ _ => exact List.nil_prefix
  | id _ nodes | nodesFull _ nodes => exact setups_le ⟨_, nodes.symm⟩
  | setup _ nodes => exact setups_le (nodes ▸ append_singleton_prefix _ _ _)
  | link => exact setups_le List.prefix_rfl
  | loaded _ nodes =>
      rw [Document.calls, List.append_assoc, List.prefix_append_right_inj]
      refine ((prefix_numbered ?_).map _).trans (List.prefix_append _ _)
      exact nodes ▸ append_singleton_prefix _ _ _
  | restore _ _ nodes =>
      rw [Document.calls, List.prefix_append_right_inj]
      exact ((prefix_numbered (nodes ▸ append_singleton_prefix _ _ _)).filter _).map _
  | success => exact List.prefix_rfl

omit [Behavior β] in
theorem filterMap_phase?_calls (d : Document) : d.calls.filterMap Event.phase? =
    (numbered d.nodes).map (fun p => (Phase.setup, p.2)) ++
      (numbered d.nodes).map (fun p => (Phase.loaded, p.2)) ++
      ((numbered d.nodes).filter (·.1.state ≠ [])).map fun p => (Phase.restore, p.2) := by
  simp only [calls, setups, announcements, restores, List.filterMap_append, List.filterMap_map]
  simp only [Function.comp_def, Event.phase?, List.filterMap_eq_map']

omit [Behavior β] in
theorem nodup_phases (d : Document) : (d.calls.filterMap Event.phase?).Nodup := by
  have apart (phase : Phase) {pairs : List (NodeRecord × NodeKey)}
      (sub : pairs.Sublist (numbered d.nodes)) : (pairs.map fun p => (phase, p.2)).Nodup := by
    have nodup := (nodup_snd_numbered d.nodes).sublist (sub.map _)
    rw [show (pairs.map fun p => (phase, p.2)) = (pairs.map (·.2)).map (Prod.mk phase) by simp]
    exact nodup.map fun _ _ same => congrArg Prod.snd same
  rw [filterMap_phase?_calls, List.nodup_append, List.nodup_append]
  refine ⟨⟨apart _ (.refl _), apart _ (.refl _), ?_⟩, apart _ List.filter_sublist, ?_⟩
  · intro _ first _ second same
    obtain ⟨_, _, rfl⟩ := List.mem_map.mp first
    obtain ⟨_, _, rfl⟩ := List.mem_map.mp second
    cases same
  · intro _ before _ last same
    obtain ⟨_, _, rfl⟩ := List.mem_map.mp last
    obtain first | second := List.mem_append.mp before
    · obtain ⟨_, _, rfl⟩ := List.mem_map.mp first
      cases same
    · obtain ⟨_, _, rfl⟩ := List.mem_map.mp second
      cases same

structure LoadsInPhases (d : Document) (types : Registry β) (result : Except RunError (Graph β))
    (calls : List Event) : Prop where
  /-- The first objection is the result, and the last call is the one that it was raised in. -/
  ends : LoadEnds d types result calls
  order : calls <+: d.calls
  /-- No other calls are made, and none twice. -/
  phases : ∀ e ∈ calls, e.phase?.isSome
  once : (calls.filterMap Event.phase?).Nodup
  setup : ∀ key, .setup key ∈ calls → d.Admitted types
  /-- Who is told finds all nodes, all links and all its own links. -/
  loaded : ∀ key own nodes links, .loaded key own nodes links ∈ calls →
    (∃ g, d.Completes types g) ∧ nodes = d.nodes.length ∧ links = d.links.length ∧
      ∃ r, d.nodes[key.index]? = some r ∧ own = d.linkEnds r.id
  /-- Whoever is given a state, it is that of its record, and all have been told. -/
  restore : ∀ key state, .restore key state ∈ calls →
    (∃ g t, d.Completes types g ∧ g.Told ((numbered d.nodes).map (·.2)) t) ∧ state ≠ [] ∧
      ∃ r, d.nodes[key.index]? = some r ∧ state = r.state
  success : ∀ g, result = .ok g → calls = d.calls

/-- A load goes through its phases one after the other, up to the first objection. -/
theorem load_in_phases (d : Document) (types : Registry β) :
    d.LoadsInPhases types (Graph.load d types).1 (Graph.load d types).2 := by
  have ends := load_ends d types
  generalize (Graph.load d types).1 = result, (Graph.load d types).2 = calls at ends
  have order := ends.calls_prefix
  constructor
  case ends => exact ends
  case order => exact order
  case phases =>
    intro e mem
    have mem := order.subset mem
    simp only [Document.calls, setups, announcements, restores, List.mem_append, List.mem_map] at mem
    obtain (⟨p, _, rfl⟩ | ⟨p, _, rfl⟩) | ⟨p, _, rfl⟩ := mem <;> rfl
  case once => exact d.nodup_phases.sublist (order.sublist.filterMap _)
  case setup =>
    intro key mem
    cases ends with
    | version | type => cases mem
    | id admitted | nodesFull admitted | setup admitted | link admitted => exact admitted
    | loaded complete | restore complete | success complete => exact complete.admitted
  case loaded =>
    intro key own nodes links mem
    constructor
    · cases ends with
      | version | type => cases mem
      | id | nodesFull | setup | link => simp [setups] at mem
      | loaded complete | restore complete | success complete => exact ⟨_, complete⟩
    · have mem := order.subset mem
      simp only [Document.calls, setups, announcements, restores, List.mem_append, List.mem_map] at mem
      obtain (⟨_, _, same⟩ | ⟨p, at_key, same⟩) | ⟨_, _, same⟩ := mem <;> cases same
      exact ⟨rfl, rfl, p.1, mem_numbered_iff.mp at_key, rfl⟩
  case restore =>
    intro key state mem
    constructor
    · cases ends with
      | version | type => cases mem
      | id | nodesFull | setup | link | loaded => simp [setups, announcements] at mem
      | restore complete told | success complete told => exact ⟨_, _, complete, told⟩
    · have mem := order.subset mem
      simp only [Document.calls, setups, announcements, restores, List.mem_append, List.mem_map,
        List.mem_filter] at mem
      obtain (⟨_, _, same⟩ | ⟨_, _, same⟩) | ⟨p, ⟨at_key, holds⟩, same⟩ := mem <;> cases same
      exact ⟨of_decide_eq_true holds, p.1, mem_numbered_iff.mp at_key, rfl⟩
  case success =>
    intro g loaded
    cases ends with
    | success => rfl
    | version | type | id | nodesFull | setup | link | loaded | restore => cases loaded

/-- The link from the counter to itself counts twice there. -/
example : (Graph.load looped (Builtin.registry id)).2 =
    [.setup ⟨0⟩, .setup ⟨1⟩, .loaded ⟨0⟩ 1 2 2, .loaded ⟨1⟩ 3 2 2,
      .restore ⟨1⟩ (List.replicate 17 1)] := by
  decide +kernel

end Document
end SignalGraph
