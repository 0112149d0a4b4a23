import SignalGraph.Document.Load
import SignalGraph.Proofs.Graph.Sound

/-!
Addresses of spots. In a sound graph every spot has one address, made of two IDs, and an address is
resolved to the spot that has it. An address that no spot has is refused; in which words is left open.
-/

namespace SignalGraph

theorem lookup_of_mem_nodup {α γ : Type} [BEq α] [LawfulBEq α] {l : List (α × γ)}
    (nodup : (l.map (·.1)).Nodup) {a : α} {c : γ} (mem : (a, c) ∈ l) : l.lookup a = some c := by
  induction l with
  | nil => cases mem
  | cons entry l ih =>
      obtain ⟨b, d⟩ := entry
      rw [List.map_cons, List.nodup_cons] at nodup
      obtain same | later := List.mem_cons.mp mem
      · cases same
        simp
      · have other : a ≠ b := by
          intro same
          exact nodup.1 (same ▸ List.mem_map_of_mem (f := (·.1)) later)
        have differ : (a == b) = false := by simpa using other
        rw [List.lookup_cons, differ]
        exact ih nodup.2 later

theorem Node.spotIndex?_eq_some {n : Node} (nodup : (n.spots.map (·.id)).Nodup) {j : Nat} {s : Spot}
    (at_j : n.spots[j]? = some s) : n.spotIndex? s.id = some j := by
  obtain ⟨bound, rfl⟩ := List.getElem?_eq_some_iff.mp at_j
  rw [spotIndex?, List.findIdx?_eq_some_iff_getElem]
  refine ⟨bound, by simp, ?_⟩
  intro i less
  have apart := List.pairwise_iff_getElem.mp nodup i j (by simp; omega) (by simpa using bound) less
  simpa using apart

theorem Node.exists_of_spotIndex? {n : Node} {id : String} {j : Nat}
    (found : n.spotIndex? id = some j) : ∃ s, n.spots[j]? = some s ∧ s.id = id := by
  obtain ⟨bound, named, _⟩ := List.findIdx?_eq_some_iff_getElem.mp found
  exact ⟨n.spots[j], List.getElem?_eq_getElem bound, by simpa using named⟩

namespace Graph

variable {β : Type} {g : Graph β}

theorem address_eq_ok_iff {ref : SpotRef} {place : SpotAddress} :
    g.address ref = .ok place ↔ ∃ n s, g.node? ref.node = some n ∧
      n.spots[ref.index]? = some s ∧ place = ⟨n.id, s.id⟩ := by
  simp only [address, bind_eq_ok_iff, node_eq_ok_iff, spotAt_eq_ok_iff]
  constructor
  · intro found
    obtain ⟨n, at_key, s, at_index, same⟩ := found
    cases same
    exact ⟨n, s, at_key, at_index, rfl⟩
  · intro found
    obtain ⟨n, s, at_key, at_index, rfl⟩ := found
    exact ⟨n, at_key, s, at_index, rfl⟩

theorem find?_eq_some_iff (sound : g.Sound) {id : String} {key : NodeKey} :
    g.find? id = some key ↔ ∃ n, g.node? key = some n ∧ n.id = id := by
  rw [← sound.mem_ids]
  constructor
  · intro found
    obtain ⟨before, after, split, _⟩ := List.lookup_eq_some_iff.mp found
    rw [split]
    simp
  · exact lookup_of_mem_nodup sound.ids_nodup

theorem resolve_eq_ok_iff (sound : g.Sound) {node spot : String} {ref : SpotRef} :
    g.resolve node spot = .ok ref ↔ g.address ref = .ok ⟨node, spot⟩ := by
  rw [address_eq_ok_iff]
  constructor
  · intro resolved
    simp only [resolve] at resolved
    split at resolved
    · cases resolved
    next key at_id =>
    obtain ⟨n, found, named⟩ := (find?_eq_some_iff sound).mp at_id
    obtain ⟨m, at_key, resolved⟩ := bind_eq_ok_iff.mp resolved
    cases found.symm.trans (node_eq_ok_iff.mp at_key)
    split at resolved
    · cases resolved
    next index at_spot =>
    cases resolved
    obtain ⟨s, at_index, rfl⟩ := Node.exists_of_spotIndex? at_spot
    exact ⟨n, s, found, at_index, by rw [named]⟩
  · intro found
    obtain ⟨n, s, at_key, at_index, same⟩ := found
    cases same
    have at_id : g.find? n.id = some ref.node := (find?_eq_some_iff sound).mpr ⟨n, at_key, rfl⟩
    have at_spot := Node.spotIndex?_eq_some (sound.spotIds_nodup _ n at_key) at_index
    simp only [resolve, at_id, node_eq_ok_iff.mpr at_key, bind, Except.bind, at_spot]

theorem address_inj (sound : g.Sound) {ref ref' : SpotRef} {place : SpotAddress}
    (first : g.address ref = .ok place) (second : g.address ref' = .ok place) : ref = ref' := by
  have resolved := (resolve_eq_ok_iff sound).mpr first
  rw [(resolve_eq_ok_iff sound).mpr second] at resolved
  exact (Except.ok.inj resolved).symm

theorem saveLink_eq_ok_iff {l : Link} {record : LinkRecord} :
    g.saveLink l = .ok record ↔ g.address l.a = .ok record.a ∧ g.address l.b = .ok record.b := by
  simp only [saveLink, bind_eq_ok_iff]
  constructor
  · intro saved
    obtain ⟨a, at_a, b, at_b, same⟩ := saved
    cases same
    exact ⟨at_a, at_b⟩
  · intro ends
    exact ⟨record.a, ends.1, record.b, ends.2, rfl⟩

theorem exists_saveLink (sound : g.Sound) {l : Link} (mem : l ∈ g.liveLinks) :
    ∃ record, g.saveLink l = .ok record := by
  have address {ref : SpotRef} (exist : (g.spot? ref).isSome) : ∃ place, g.address ref = .ok place := by
    obtain ⟨s, found⟩ := Option.isSome_iff_exists.mp exist
    obtain ⟨n, at_key, at_index⟩ := spot?_eq_some_iff.mp found
    exact ⟨_, address_eq_ok_iff.mpr ⟨n, s, at_key, at_index, rfl⟩⟩
  obtain ⟨first, second⟩ := sound.ends_of_mem_live mem
  obtain ⟨a, at_a⟩ := address first
  obtain ⟨b, at_b⟩ := address second
  exact ⟨⟨a, b⟩, saveLink_eq_ok_iff.mpr ⟨at_a, at_b⟩⟩

end Graph
end SignalGraph
