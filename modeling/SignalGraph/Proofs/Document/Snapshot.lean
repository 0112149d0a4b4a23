import SignalGraph.Proofs.Document.Assembly
import SignalGraph.Proofs.Graph.Compaction

/-!
What a snapshot holds, and when there is one. Every part of the document says where in the graph it comes
from, so two graphs of one shape have documents that can differ in the states of nodes only. The calls that
are made on the way, and the objection if there is no snapshot, are left out.
-/

namespace SignalGraph

theorem forall₂_of_common {α γ δ : Type} {R : α → γ → Prop} {S : α → δ → Prop} {T : γ → δ → Prop}
    {l : List α} {cs : List γ} {ds : List δ} (first : List.Forall₂ R l cs)
    (second : List.Forall₂ S l ds) (both : ∀ a ∈ l, ∀ c d, R a c → S a d → T c d) :
    List.Forall₂ T cs ds := by
  induction first generalizing ds with
  | nil =>
      cases second
      exact .nil
  | @cons a c l cs here _ ih =>
      cases second with
      | cons here' rest =>
          exact .cons (both a (by simp) c _ here here') (ih rest fun a mem => both a (by simp [mem]))

variable {β : Type} [Behavior β]

/-- The second document is the first but for the states of some nodes. -/
structure Document.SameBut (changed : String → Prop) (d d' : Document) : Prop where
  name : d'.name = d.name
  version : d'.version = d.version
  nodes : List.Forall₂ (fun r r' => r' = { r with state := r'.state } ∧ (¬ changed r.id → r' = r))
    d.nodes d'.nodes
  links : d'.links = d.links

namespace Graph

def SavesAs (g : Graph β) (n : Node) (r : NodeRecord) : Prop :=
  ∃ b bytes, g.behavior? n.key = some b ∧ Behavior.save b = .ok bytes ∧
    r = ⟨n.id, n.tag, n.type, bytes⟩

theorem SavesAs.id_eq {g : Graph β} {n : Node} {r : NodeRecord} (stores : g.SavesAs n r) :
    r.id = n.id := by
  obtain ⟨_, _, _, _, rfl⟩ := stores
  rfl

theorem saveNodes_eq_ok_iff {g : Graph β} {ns : List Node} {records : List NodeRecord} :
    (g.saveNodes ns).1 = .ok records ↔ List.Forall₂ g.SavesAs ns records := by
  induction ns generalizing records with
  | nil =>
      rw [List.forall₂_nil_left_iff]
      exact ⟨fun saved => (Except.ok.inj saved).symm, fun none => none ▸ rfl⟩
  | cons n ns ih =>
      rw [List.forall₂_cons_left_iff]
      simp only [saveNodes]
      constructor
      · intro saved
        split at saved
        · cases saved
        next b behaves =>
        split at saved
        · cases saved
        next state stored =>
        split at saved
        · cases saved
        next rest later others =>
        cases saved
        exact ⟨_, rest, ⟨b, state, behaves, stored, rfl⟩, ih.mp (by rw [others]), rfl⟩
      · intro parts
        obtain ⟨_, rest, ⟨b, state, behaves, stored, rfl⟩, others, rfl⟩ := parts
        have saved := ih.mpr others
        simp only [behaves, stored]
        split
        · next later failed =>
            rw [failed] at saved
            cases saved
        · next rest' later done =>
            rw [done] at saved
            cases saved
            rfl

theorem snapshot_eq_ok_iff {g : Graph β} {d : Document} :
    g.snapshot.1 = .ok d ↔ d.name = g.name ∧ d.version = Document.currentVersion ∧
      List.Forall₂ g.SavesAs g.nodes d.nodes ∧ g.liveLinks.mapM g.saveLink = .ok d.links := by
  rw [← saveNodes_eq_ok_iff]
  simp only [snapshot]
  constructor
  · intro taken
    split at taken
    · cases taken
    next nodes calls saved =>
    split at taken
    · cases taken
    next links stored =>
    cases taken
    exact ⟨rfl, rfl, by rw [saved], stored⟩
  · intro parts
    obtain ⟨name, version, saved, stored⟩ := parts
    split
    · next cause calls failed =>
        rw [failed] at saved
        cases saved
    · next nodes calls done =>
        rw [done] at saved
        cases saved
        rw [stored]
        obtain ⟨_, _, _, _⟩ := d
        cases name
        cases version
        rfl

/-! ### Two graphs of one shape -/

variable {g h : Graph β} {changed : NodeKey → Prop}

omit [Behavior β] in
theorem saveLink_eq_of_shape (same : h.shape = g.shape) (l : Link) : h.saveLink l = g.saveLink l := by
  simp only [saveLink, address, node, node?_eq_of_shape same]

omit [Behavior β] in
theorem nodes_eq_of_shape (same : h.shape = g.shape) : h.nodes = g.nodes := by
  simp only [nodes, keys, ids_eq_of_shape same, funext (node?_eq_of_shape same)]

omit [Behavior β] in
theorem liveLinks_eq_of_shape (same : h.shape = g.shape) : h.liveLinks = g.liveLinks := by
  rw [liveLinks, links_eq_of_shape same, liveLinks]

theorem SavesAs.compare {n : Node} {r r' : NodeRecord} (stores : g.SavesAs n r)
    (stores' : h.SavesAs n r') (idle : ¬ changed n.key → h.behavior? n.key = g.behavior? n.key) :
    r' = { r with state := r'.state } ∧ (¬ changed n.key → r' = r) := by
  obtain ⟨b, bytes, behaves, saved, rfl⟩ := stores
  obtain ⟨b', bytes', behaves', saved', rfl⟩ := stores'
  refine ⟨rfl, fun quiet => ?_⟩
  rw [idle quiet, behaves] at behaves'
  cases behaves'
  rw [saved] at saved'
  cases saved'
  rfl

theorem sameBut_of_shape (sound : g.Sound) (same : h.shape = g.shape)
    (idle : ∀ key, ¬ changed key → h.behavior? key = g.behavior? key) {d d' : Document}
    (before : g.snapshot.1 = .ok d) (later : h.snapshot.1 = .ok d') :
    d.SameBut (fun id => ∃ key, g.find? id = some key ∧ changed key) d' := by
  obtain ⟨name, version, nodes, links⟩ := snapshot_eq_ok_iff.mp before
  obtain ⟨name', version', nodes', links'⟩ := snapshot_eq_ok_iff.mp later
  rw [nodes_eq_of_shape same] at nodes'
  rw [liveLinks_eq_of_shape same, funext (saveLink_eq_of_shape same), links] at links'
  refine ⟨?_, version'.trans version.symm, ?_, (Except.ok.inj links').symm⟩
  · have sameName : h.shape.name = g.shape.name := by rw [same]
    exact (name'.trans sameName).trans name.symm
  · refine forall₂_of_common nodes nodes' fun n mem r r' stores stores' => ?_
    have found : g.find? n.id = some n.key :=
      (find?_eq_some_iff sound).mpr ⟨n, node?_of_mem_nodes sound mem, rfl⟩
    obtain ⟨heads, state⟩ := stores.compare stores' (idle n.key)
    refine ⟨heads, fun quiet => state fun moved => quiet ⟨n.key, ?_, moved⟩⟩
    rw [stores.id_eq, found]

/-- If a graph has a snapshot, one of its shape has one too, as far as changed behaviors can be stored. -/
theorem exists_snapshot_of_shape (sound : g.Sound) (same : h.shape = g.shape)
    (idle : ∀ key, ¬ changed key → h.behavior? key = g.behavior? key)
    (saves : ∀ key b, changed key → h.behavior? key = some b → ∃ bytes, Behavior.save b = .ok bytes)
    {d : Document} (before : g.snapshot.1 = .ok d) : ∃ d', h.snapshot.1 = .ok d' := by
  obtain ⟨_, _, nodes, links⟩ := snapshot_eq_ok_iff.mp before
  have stores (n : Node) (mem : n ∈ g.nodes) : ∃ r, h.SavesAs n r := by
    by_cases moved : changed n.key
    · obtain ⟨b, behaves⟩ : ∃ b, h.behavior? n.key = some b := by
        rw [← Option.isSome_iff_exists, behavior?_isSome_iff, node?_eq_of_shape same,
          node?_of_mem_nodes sound mem]
        rfl
      obtain ⟨bytes, saved⟩ := saves n.key b moved behaves
      exact ⟨_, b, bytes, behaves, saved, rfl⟩
    · obtain ⟨i, inside, rfl⟩ := List.mem_iff_getElem.mp mem
      obtain ⟨b, bytes, behaves, saved, _⟩ := nodes.get inside (nodes.length_eq ▸ inside)
      exact ⟨_, b, bytes, (idle _ moved).trans behaves, saved, rfl⟩
  obtain ⟨records, each⟩ := exists_forall₂_of_forall_mem stores
  refine ⟨{ Document.empty h.name with nodes := records, links := d.links },
    snapshot_eq_ok_iff.mpr ⟨rfl, rfl, ?_, ?_⟩⟩
  · rwa [nodes_eq_of_shape same]
  · rwa [liveLinks_eq_of_shape same, funext (saveLink_eq_of_shape same)]

end Graph
end SignalGraph
