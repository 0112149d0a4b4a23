import SignalGraph.Document.Text
import SignalGraph.Proofs.Ron.Tall

/-!
Documents that are written and read again. Every record is read back from what its parts are read back
from, whatever their texts hold.
-/

namespace SignalGraph

open Ron

theorem TypeKey.restores (k : TypeKey) : Restores TypeKey.reader k.term k := by
  have fills : Fills TypeKey.fields ([], ⟨none, none⟩)
      [("name", .string k.name), ("category", .string k.category)]
      (["category", "name"], ⟨some k.name, some k.category⟩) :=
    .cons rfl (by decide) (by decide) (restores_string k.name)
      (.cons rfl (by decide) (by decide) (restores_string k.category) (.nil _))
  exact restores_record (by decide) fills rfl

theorem SpotAddress.restores (a : SpotAddress) : Restores SpotAddress.reader a.term a := by
  have fills : Fills SpotAddress.fields ([], ⟨none, none⟩)
      [("node", .string a.node), ("spot", .string a.spot)]
      (["spot", "node"], ⟨some a.node, some a.spot⟩) :=
    .cons rfl (by decide) (by decide) (restores_string a.node)
      (.cons rfl (by decide) (by decide) (restores_string a.spot) (.nil _))
  exact restores_record (by decide) fills rfl

theorem LinkRecord.restores (l : LinkRecord) : Restores LinkRecord.reader l.term l := by
  have fills : Fills LinkRecord.fields ([], ⟨none, none⟩) [("a", l.a.term), ("b", l.b.term)]
      (["b", "a"], ⟨some l.a, some l.b⟩) :=
    .cons rfl (by decide) (by decide) l.a.restores
      (.cons rfl (by decide) (by decide) l.b.restores (.nil _))
  exact restores_record (by decide) fills rfl

namespace NodeRecord

theorem restores_byte (b : UInt8) : Restores byte (.nat b.toNat) b := by
  have holds : IntType.u8.holds b.toNat := by
    have := b.toNat_lt
    simp [IntType.holds, IntType.u8]
    omega
  have same : UInt8.ofNat (b.toNat : Int).toNat = b := by simp
  have restores := (restores_nat holds).map fun i => UInt8.ofNat i.toNat
  rwa [same] at restores

/-- No state is read back from its absence. -/
theorem restores (r : NodeRecord) : Restores NodeRecord.reader r.term r := by
  have state : ∃ seen, Fills NodeRecord.fields
      (["type_key", "tag", "id"], ⟨some r.id, some r.tag, some r.type, []⟩)
      (if r.state.isEmpty then [] else [("state", .list (r.state.map fun b => .nat b.toNat))])
      (seen, ⟨some r.id, some r.tag, some r.type, r.state⟩) := by
    by_cases none : r.state = []
    · rw [none]
      exact ⟨_, .nil _⟩
    · rw [if_neg (by simpa using none)]
      exact ⟨_, .cons rfl (by decide) (by decide) (restores_list restores_byte r.state) (.nil _)⟩
  obtain ⟨seen, state⟩ := state
  have fills : Fills NodeRecord.fields ([], ⟨none, none, none, []⟩)
      ([("id", .string r.id), ("tag", .string r.tag), ("type_key", r.type.term)] ++
        if r.state.isEmpty then [] else [("state", .list (r.state.map fun b => .nat b.toNat))])
      (seen, ⟨some r.id, some r.tag, some r.type, r.state⟩) :=
    .cons rfl (by decide) (by decide) (restores_string r.id)
      (.cons rfl (by decide) (by decide) (restores_string r.tag)
        (.cons rfl (by decide) (by decide) r.type.restores state))
  exact restores_record (by decide) fills rfl

end NodeRecord

theorem Ron.restores_word (n : UInt32) : Restores word (.nat n.toNat) n := by
  have holds : IntType.u32.holds n.toNat := by
    have := n.toNat_lt
    simp [IntType.holds, IntType.u32]
    omega
  have same : UInt32.ofNat (n.toNat : Int).toNat = n := by simp
  have restores := (restores_nat holds).map fun i => UInt32.ofNat i.toNat
  rwa [same] at restores

namespace Document

theorem ron_read_write (d : Document) : Ron.read reader d.write = .ok d := by
  have fills : Fills fields ([], ⟨none, currentVersion, [], []⟩)
      [("name", .string d.name), ("version", .nat d.version.toNat),
        ("nodes", .list (d.nodes.map (·.term))), ("links", .list (d.links.map (·.term)))]
      (["links", "nodes", "version", "name"], ⟨some d.name, d.version, d.nodes, d.links⟩) :=
    .cons rfl (by decide) (by decide) (restores_string d.name)
      (.cons rfl (by decide) (by decide) (restores_word d.version)
        (.cons rfl (by decide) (by decide) (restores_list NodeRecord.restores d.nodes)
          (.cons rfl (by decide) (by decide) (restores_list LinkRecord.restores d.links) (.nil _))))
  exact read_record (by decide) fills rfl

/-- What is written is read back if its version is known, and else it is the version that is objected
to. -/
theorem read_write (d : Document) :
    read d.write = if d.version ≤ currentVersion then .ok d
      else .error (.unsupportedVersion d.version currentVersion) := by
  simp only [read, ron_read_write, checkVersion]
  by_cases known : d.version ≤ currentVersion
  · rw [if_pos known, if_neg (UInt32.not_lt.mpr known)]
  · rw [if_neg known, if_pos (UInt32.not_le.mp known)]

end Document
end SignalGraph
