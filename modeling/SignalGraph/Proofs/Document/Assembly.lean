import Mathlib.Data.List.Forall2
import SignalGraph.Document.Load
import SignalGraph.Proofs.Graph.Membership

/-!
Adding the nodes of a document. They come to stand behind each other in the order of their records, under
successive keys, if their IDs are new and distinct and every behavior agrees to be set up. What the nodes
are linked to is not part of this.
-/

namespace SignalGraph

variable {β : Type}

/-- What `mapM` fails with is the objection to the first part that has one. -/
theorem exists_of_mapM_eq_error {ε α γ : Type} {f : α → Except ε γ} {l : List α} {cause : ε}
    (failed : l.mapM f = .error cause) : ∃ done a rest, l = done ++ a :: rest ∧
      (∀ b ∈ done, ∃ c, f b = .ok c) ∧ f a = .error cause := by
  induction l with
  | nil => cases failed
  | cons a l ih =>
      rw [List.mapM_cons] at failed
      cases first : f a with
      | error cause' =>
          rw [first] at failed
          cases failed
          exact ⟨[], a, l, rfl, by simp, first⟩
      | ok c =>
          rw [first] at failed
          cases others : l.mapM f with
          | ok cs =>
              rw [others] at failed
              cases failed
          | error cause' =>
              rw [others] at failed
              cases failed
              obtain ⟨done, b, rest, rfl, fine, here⟩ := ih others
              exact ⟨a :: done, b, rest, rfl, List.forall_mem_cons.mpr ⟨⟨c, first⟩, fine⟩, here⟩

theorem exists_of_foldlM_eq_error {ε α σ : Type} {f : σ → α → Except ε σ} {l : List α} {s : σ}
    {cause : ε} (failed : l.foldlM f s = .error cause) : ∃ done a rest t, l = done ++ a :: rest ∧
      done.foldlM f s = .ok t ∧ f t a = .error cause := by
  induction l generalizing s with
  | nil => cases failed
  | cons a l ih =>
      rw [List.foldlM_cons] at failed
      cases first : f s a with
      | error cause' =>
          rw [first] at failed
          cases failed
          exact ⟨[], a, l, s, rfl, rfl, first⟩
      | ok s' =>
          rw [first] at failed
          obtain ⟨done, b, rest, t, rfl, before, here⟩ := ih failed
          exact ⟨a :: done, b, rest, t, rfl, by rw [List.foldlM_cons, first]; exact before, here⟩

theorem mapM_eq_ok_iff {ε α γ : Type} {f : α → Except ε γ} {l : List α} {cs : List γ} :
    l.mapM f = .ok cs ↔ List.Forall₂ (fun a c => f a = .ok c) l cs := by
  induction l generalizing cs with
  | nil =>
      rw [List.mapM_nil, List.forall₂_nil_left_iff]
      exact ⟨fun same => (Except.ok.inj same).symm, fun same => same ▸ rfl⟩
  | cons a l ih =>
      simp only [List.mapM_cons, bind_eq_ok_iff, ih, List.forall₂_cons_left_iff]
      constructor
      · intro mapped
        obtain ⟨c, first, cs', rest, same⟩ := mapped
        exact ⟨c, cs', first, rest, (Except.ok.inj same).symm⟩
      · intro parts
        obtain ⟨c, cs', first, rest, rfl⟩ := parts
        exact ⟨c, first, cs', rest, rfl⟩

theorem exists_forall₂_of_forall_mem {α γ : Type} {R : α → γ → Prop} {l : List α}
    (all : ∀ a ∈ l, ∃ c, R a c) : ∃ cs, List.Forall₂ R l cs := by
  induction l with
  | nil => exact ⟨[], .nil⟩
  | cons a l ih =>
      obtain ⟨c, first⟩ := all a (by simp)
      obtain ⟨cs, rest⟩ := ih fun b mem => all b (by simp [mem])
      exact ⟨c :: cs, .cons first rest⟩

def NodeRecord.blank (r : NodeRecord) (key : NodeKey) : Node := ⟨r.id, r.tag, r.type, key, []⟩

section SettingUp

variable [Behavior β]

/-- A record comes to a node and a behavior, if the one it is given is set up under that node's key. -/
def NodeRecord.Yields (r : NodeRecord) (b : β) (s : Slot β) : Prop :=
  (Behavior.setup b (r.blank s.node.key)).run (r.blank s.node.key) = (.ok s.behavior, s.node)

theorem NodeRecord.Yields.sameHead {r : NodeRecord} {b : β} {s : Slot β} (yields : r.Yields b s) :
    s.node.SameHead (r.blank s.node.key) := by
  have fresh : (r.blank s.node.key).Fresh := ⟨by simp [blank], by simp [blank], by simp [blank]⟩
  have keeps := (Behavior.setup b (r.blank s.node.key)).run_fresh fresh
  rw [Yields] at yields
  rw [yields] at keeps
  exact keeps.2

theorem NodeRecord.Yields.id_eq {r : NodeRecord} {b : β} {s : Slot β} (yields : r.Yields b s) :
    s.node.id = r.id :=
  yields.sameHead.id

def NodeRecord.Refuses (r : NodeRecord) (b : β) (key : NodeKey) (cause : GraphError) : Prop :=
  ((Behavior.setup b (r.blank key)).run (r.blank key)).1 = .error cause

end SettingUp

namespace Graph

variable {g : Graph β}

/-- The graph with more nodes behind the others, whose links are not made yet. -/
def extend (g : Graph β) (slots : List (Slot β)) : Graph β :=
  { g with
    slots := g.slots ++ slots.map some
    ids := g.ids ++ slots.map fun s => (s.node.id, s.node.key) }

theorem extend_nil (g : Graph β) : g.extend [] = g := by
  simp [extend]

theorem extend_extend (g : Graph β) (first more : List (Slot β)) :
    (g.extend first).extend more = g.extend (first ++ more) := by
  simp [extend]

variable [Behavior β]

theorem addNode_eq_extend {r : NodeRecord} {b : β} {s : Slot β} (yields : r.Yields b s)
    (key : s.node.key = ⟨g.slots.length⟩) (new : r.id ∉ g.ids.map (·.1))
    (room : g.slots.length < capacity) :
    g.addNode r.id r.tag r.type b = (.ok s.node.key, g.extend [s], [.setup s.node.key]) := by
  have free : ¬ g.ids.any (·.1 = r.id) := by simpa using new
  rw [addNode, if_neg free, if_neg (Nat.not_le_of_lt room)]
  have ran : (Behavior.setup b ⟨r.id, r.tag, r.type, s.node.key, []⟩).run
      ⟨r.id, r.tag, r.type, s.node.key, []⟩ = (.ok s.behavior, s.node) := yields
  simp only [← key, ran]
  simp [extend, yields.id_eq]

inductive Stops (g : Graph β) (r : NodeRecord) (b : β) : GraphError → List Event → Prop
  | taken (taken : r.id ∈ g.ids.map (·.1)) : Stops g r b (.nodeIdTaken r.id) []
  | full (new : r.id ∉ g.ids.map (·.1)) (full : capacity ≤ g.slots.length) :
      Stops g r b .nodesFull []
  | refuses {cause : GraphError} (new : r.id ∉ g.ids.map (·.1)) (room : g.slots.length < capacity)
      (refuses : r.Refuses b ⟨g.slots.length⟩ cause) :
      Stops g r b cause [.setup ⟨g.slots.length⟩]

theorem addNode_answers (g : Graph β) (r : NodeRecord) (b : β) :
    (∃ cause events, g.Stops r b cause events ∧
      g.addNode r.id r.tag r.type b = (.error cause, g, events)) ∨
    r.id ∉ g.ids.map (·.1) ∧ g.slots.length < capacity ∧
      ∃ s : Slot β, s.node.key = ⟨g.slots.length⟩ ∧ r.Yields b s := by
  by_cases taken : g.ids.any (·.1 = r.id)
  · exact .inl ⟨_, _, .taken (by simpa using taken), by rw [addNode, if_pos taken]⟩
  have new : r.id ∉ g.ids.map (·.1) := by simpa using taken
  by_cases full : capacity ≤ g.slots.length
  · exact .inl ⟨_, _, .full new full, by rw [addNode, if_neg taken, if_pos full]⟩
  have room := Nat.lt_of_not_le full
  have keeps := ((Behavior.setup b (r.blank ⟨g.slots.length⟩)).run_fresh
    (n := r.blank ⟨g.slots.length⟩) ⟨by simp [NodeRecord.blank], by simp [NodeRecord.blank],
      by simp [NodeRecord.blank]⟩).2
  rcases ran : (Behavior.setup b (r.blank ⟨g.slots.length⟩)).run (r.blank ⟨g.slots.length⟩) with
    ⟨cause | c, n⟩
  · refine .inl ⟨cause, _, .refuses new room (congrArg Prod.fst ran), ?_⟩
    have ran' : (Behavior.setup b ⟨r.id, r.tag, r.type, ⟨g.slots.length⟩, []⟩).run
        ⟨r.id, r.tag, r.type, ⟨g.slots.length⟩, []⟩ = (.error cause, n) := ran
    simp only [addNode, if_neg taken, if_neg full, ran']
  · rw [ran] at keeps
    have key : n.key = ⟨g.slots.length⟩ := keeps.key
    exact .inr ⟨new, room, ⟨n, c⟩, key, by rw [NodeRecord.Yields, key, ran]⟩

/-- What some records come to behind the nodes of a graph, each under the next key. -/
structure Places (g : Graph β) (records : List (NodeRecord × β)) (slots : List (Slot β)) : Prop where
  yields : List.Forall₂ (fun r s => r.1.Yields r.2 s) records slots
  keys : ∀ (i : Nat) (s : Slot β), slots[i]? = some s → s.node.key = ⟨g.slots.length + i⟩
  nodup : (g.ids.map (·.1) ++ records.map (·.1.id)).Nodup
  room : g.slots.length + records.length ≤ capacity

namespace Places

theorem tail {r : NodeRecord × β} {records : List (NodeRecord × β)} {s : Slot β}
    {slots : List (Slot β)} (places : g.Places (r :: records) (s :: slots)) :
    (g.extend [s]).Places records slots := by
  obtain ⟨yields, keys, nodup, room⟩ := places
  cases yields with
  | cons first rest =>
      refine ⟨rest, ?_, by simpa [extend, first.id_eq] using nodup,
        by simpa [extend, Nat.add_assoc, Nat.add_comm 1] using room⟩
      intro i t at_i
      rw [keys (i + 1) t (by simpa using at_i)]
      simp [extend, Nat.add_assoc, Nat.add_comm 1]

theorem cons {r : NodeRecord × β} {records : List (NodeRecord × β)} {s : Slot β}
    {slots : List (Slot β)} (first : r.1.Yields r.2 s) (key : s.node.key = ⟨g.slots.length⟩)
    (places : (g.extend [s]).Places records slots) : g.Places (r :: records) (s :: slots) where
  yields := .cons first places.yields
  keys i t at_i := by
    cases i with
    | zero =>
        cases at_i
        exact key
    | succ i =>
        rw [places.keys i t (by simpa using at_i)]
        simp [extend, Nat.add_assoc, Nat.add_comm 1]
  nodup := by simpa [extend, first.id_eq] using places.nodup
  room := by simpa [extend, Nat.add_assoc, Nat.add_comm 1] using places.room

end Places

theorem addRecords_eq_extend {records : List (NodeRecord × β)} {slots : List (Slot β)}
    (places : g.Places records slots) :
    g.addRecords records = (.ok (g.extend slots, slots.map (·.node.key)),
      slots.map fun s => .setup s.node.key) := by
  induction slots generalizing g records with
  | nil =>
      obtain rfl := List.forall₂_nil_right_iff.mp places.yields
      rw [extend_nil]
      rfl
  | cons s slots ih =>
      obtain ⟨r, records, first, _, rfl⟩ := List.forall₂_cons_right_iff.mp places.yields
      have new : r.1.id ∉ g.ids.map (·.1) := by
        intro taken
        exact (List.nodup_append.mp places.nodup).2.2 _ taken r.1.id (by simp) rfl
      have room : g.slots.length < capacity := by
        have := places.room
        rw [List.length_cons] at this
        omega
      simp only [addRecords, addNode_eq_extend first (places.keys 0 s rfl) new room, ih places.tail,
        extend_extend, List.singleton_append, List.map_cons]

theorem addRecords_answers (records : List (NodeRecord × β)) (nodup : (g.ids.map (·.1)).Nodup)
    (fits : g.slots.length ≤ capacity) :
    (∃ slots, g.Places records slots) ∨
    ∃ done r b rest slots cause events, records = done ++ (r, b) :: rest ∧ g.Places done slots ∧
      (g.extend slots).Stops r b cause events ∧
      g.addRecords records = (.error cause, (slots.map fun s => .setup s.node.key) ++ events) := by
  induction records generalizing g with
  | nil => exact .inl ⟨[], .nil, by simp, by simpa using nodup, fits⟩
  | cons p records ih =>
      obtain ⟨r, b⟩ := p
      obtain ⟨cause, events, stops, refused⟩ | ⟨new, room, s, key, yields⟩ := g.addNode_answers r b
      · refine .inr ⟨[], r, b, records, [], cause, events, rfl,
          ⟨.nil, by simp, by simpa using nodup, fits⟩, ?_, by simp [addRecords, refused]⟩
        rwa [extend_nil]
      · have added := addNode_eq_extend yields key new room
        have apart : ((g.extend [s]).ids.map (·.1)).Nodup := by
          simp only [extend, List.map_append, List.map_cons, List.map_nil, yields.id_eq]
          refine List.nodup_append.mpr ⟨nodup, by simp, ?_⟩
          intro id mem id' last same
          obtain rfl := List.mem_singleton.mp last
          exact new (same ▸ mem)
        have still : (g.extend [s]).slots.length ≤ capacity := by
          simpa [extend] using Nat.succ_le_of_lt room
        obtain ⟨slots, places⟩ | ⟨done, q, c, rest, slots, cause, events, rfl, places, stops,
          stopped⟩ := ih apart still
        · exact .inl ⟨s :: slots, places.cons (r := (r, b)) yields key⟩
        · refine .inr ⟨(r, b) :: done, q, c, rest, s :: slots, cause, events, rfl,
            places.cons (r := (r, b)) yields key, ?_, by simp [addRecords, added, stopped]⟩
          rwa [extend_extend, List.singleton_append] at stops

theorem ids_of_addRecords {records : List (NodeRecord × β)} {h : Graph β} {keys : List NodeKey}
    {events : List Event} (added : g.addRecords records = (.ok (h, keys), events)) :
    h.ids.map (·.1) = g.ids.map (·.1) ++ records.map (·.1.id) := by
  induction records generalizing g keys events with
  | nil =>
      cases added
      simp
  | cons r records ih =>
      obtain ⟨r, b⟩ := r
      simp only [addRecords] at added
      obtain ⟨cause, events, refused⟩ | ⟨s, _, head, _, _, one⟩ := addNode_cases g r.id r.tag r.type b
      · rw [refused] at added
        cases added
      · rw [one] at added
        simp only at added
        split at added
        · cases added
        · next rest =>
            cases added
            rw [ih rest]
            simp [pushNode, head.id, blank]

end Graph
end SignalGraph
