import Mathlib.Logic.Function.Basic
import SignalGraph.Proofs.Graph.Legal

/-!
The library's nodes beside those of a host. `Hosted` says that wrapped behaviors answer as the
library's own do and that no other behavior turns into a wrapped one; of those others nothing else is
assumed. What a library node does about a signal is one step of work and at most one signal sent on.
-/

namespace SignalGraph

variable {β : Type}

namespace Builtin

theorem spotIds_nodup (b : Builtin) : (b.spots.map (·.id)).Nodup := by
  have one : ([outDecl].map (·.id)).Nodup := by decide
  have two : ([inDecl, outDecl].map (·.id)).Nodup := by decide
  cases b with
  | entry _ | update => exact one
  | deltaTime | console | counter _ | setVariable _ => exact two

def Foreign (wrap : Builtin → β) (c : β) : Prop := ∀ b, c ≠ wrap b

/-- A type of behaviors that includes the library's. -/
structure Hosted [Behavior β] (wrap : Builtin → β) : Prop where
  injective : Function.Injective wrap
  setup : ∀ b n, Behavior.setup (wrap b) n = b.setup wrap
  loaded : ∀ b g key, Behavior.loaded (wrap b) g key = .ok (wrap b)
  save : ∀ b, Behavior.save (wrap b) = .ok b.save
  restore : ∀ b bytes, Behavior.restore (wrap b) bytes = (b.restore bytes).map id wrap
  onBegin : ∀ b, Behavior.onBegin (wrap b) = b.onBegin wrap
  onSignal : ∀ b spot args, Behavior.onSignal (wrap b) spot args = b.onSignal wrap args
  foreign_setup : ∀ c d n m, Foreign wrap c → (Behavior.setup c n).run n = (.ok d, m) →
    Foreign wrap d
  foreign_loaded : ∀ c d g key, Foreign wrap c → Behavior.loaded c g key = .ok d → Foreign wrap d
  foreign_restore : ∀ c d bytes, Foreign wrap c → Behavior.restore c bytes = (.ok (), d) →
    Foreign wrap d
  foreign_onBegin : ∀ c, Foreign wrap c → (Behavior.onBegin c).Becomes (Foreign wrap)
  foreign_onSignal : ∀ c spot args, Foreign wrap c →
    (Behavior.onSignal c spot args).Becomes (Foreign wrap)

theorem hosted_id : Hosted (id : Builtin → Builtin) where
  injective := Function.injective_id
  setup _ _ := rfl
  loaded _ _ _ := rfl
  save _ := rfl
  restore _ _ := rfl
  onBegin _ := rfl
  onSignal _ _ _ := rfl
  foreign_setup c _ _ _ foreign := absurd rfl (foreign c)
  foreign_loaded c _ _ _ foreign := absurd rfl (foreign c)
  foreign_restore c _ _ foreign := absurd rfl (foreign c)
  foreign_onBegin c foreign := absurd rfl (foreign c)
  foreign_onSignal c _ _ foreign := absurd rfl (foreign c)

/-! ### Setting up and restoring -/

theorem declareAll_run {ds : List SpotDecl} {last : Setup β} {n : Node}
    (nodup : (n.spots.map (·.id) ++ ds.map (·.id)).Nodup) :
    (Setup.declareAll ds last).run n =
      last.run { n with spots := n.spots ++ ds.map fun d => Spot.declare d n.key } := by
  induction ds generalizing n with
  | nil => simp [Setup.declareAll]
  | cons d ds ih =>
      have new : ¬ n.spots.any (·.id = d.id) := by
        intro taken
        obtain ⟨s, mem, same⟩ := List.any_eq_true.mp taken
        refine (List.nodup_append.mp nodup).2.2 s.id (List.mem_map_of_mem mem) d.id (by simp) ?_
        simpa using same
      have declared : n.declare d =
          .ok (n.spots.length, { n with spots := n.spots ++ [Spot.declare d n.key] }) := by
        rw [Node.declare, if_neg new]
      simp only [Setup.declareAll, Setup.run, declared]
      rw [ih (by simpa [Spot.declare] using nodup)]
      simp

theorem setup_run (wrap : Builtin → β) (b : Builtin) {n : Node} (bare : n.spots = []) :
    (b.setup wrap).run n =
      (.ok (wrap b), { n with spots := b.spots.map fun d => Spot.declare d n.key }) := by
  rw [setup, declareAll_run (by simpa [bare] using b.spotIds_nodup), bare]
  rfl

theorem restore_spots {b c : Builtin} {bytes : List UInt8}
    (restored : b.restore bytes = (.ok (), c)) : c.spots = b.spots := by
  cases b with
  | counter s | setVariable name =>
      simp only [restore] at restored
      split at restored <;> cases restored
      rfl
  | entry _ | update | deltaTime | console =>
      obtain rfl := congrArg Prod.snd restored
      rfl

theorem onBegin_becomes (wrap : Builtin → β) (b : Builtin) {kind : β → Prop}
    (same : ∀ c : Builtin, c.spots = b.spots → kind (wrap c)) : (b.onBegin wrap).Becomes kind := by
  cases b with
  | entry begunBy => exact fun v => ⟨same (.entry (some v.instanceId)) rfl, fun _ => trivial⟩
  | update => exact fun v _ => trivial
  | deltaTime | console | counter s | setVariable name => trivial

theorem onSignal_becomes (wrap : Builtin → β) (b : Builtin) (args : List Value) {kind : β → Prop}
    (same : ∀ c : Builtin, c.spots = b.spots → kind (wrap c)) :
    (b.onSignal wrap args).Becomes kind := by
  cases b with
  | entry begunBy | update => trivial
  | deltaTime => exact fun v _ => trivial
  | console => exact fun _ => trivial
  | counter s =>
      simp only [onSignal]
      split
      · exact fun _ => trivial
      · exact ⟨same _ rfl, fun _ => trivial⟩
  | setVariable name =>
      simp only [onSignal]
      split
      · exact fun _ => trivial
      split
      · exact fun _ => trivial
      · exact fun v _ => trivial

/-! ### What a signal sets off -/

/-- The work of a library node on a signal: the wave after it and the arguments to send on, if it
sends on. -/
def work (wrap : Builtin → β) (self : NodeKey) (args : List Value) (w : Wave β) :
    Builtin → Except RunError (Wave β × Option (List Value))
  | entry _ | update => .ok (w, none)
  | deltaTime => .ok (w, some (args ++ [.float w.state.deltaTime]))
  | console => .ok (w.push (.log .info (w.tagOf self) (Value.listText args)), some args)
  | counter s =>
    match checkedAdd s.count s.step with
    | none => .error (.nodeFailed (w.graph.label self) "counter overflow")
    | some count =>
      .ok ({ w with graph := w.graph.setBehavior self (wrap (counter { s with count })) },
        some (args ++ [.int count]))
  | setVariable name =>
    if name.isEmpty then .error (.nodeFailed (w.graph.label self) "variable name is not set")
    else
      match args.getLast? with
      | none => .error (.nodeFailed (w.graph.label self) "signal carries no value to store")
      | some value => .ok ({ w with state := w.state.setVariable name value }, some args)

theorem run_forward (spot : Nat) (args : List Value) (send : Send β) (self : NodeKey)
    (source : Option SpotRef) (w : Wave β) :
    (Reaction.forward spot args).run send self source w =
      send ⟨self, spot⟩ args (w.push (.send ⟨self, spot⟩ args)) := by
  simp only [Reaction.forward, Reaction.run]
  split
  · next v sent => exact sent.symm
  · next result v sent => exact sent.symm

theorem run_onSignal (wrap : Builtin → β) (b : Builtin) (args : List Value) (send : Send β)
    (self : NodeKey) (source : Option SpotRef) (w : Wave β) :
    (b.onSignal wrap args).run send self source w =
      match b.work wrap self args w with
      | .error cause => (some (.error cause), w)
      | .ok (v, none) => (some (.ok ()), v)
      | .ok (v, some args) => send ⟨self, 1⟩ args (v.push (.send ⟨self, 1⟩ args)) := by
  cases b with
  | entry _ | update => rfl
  | deltaTime => exact run_forward ..
  | console => exact run_forward ..
  | counter s =>
      cases sum : checkedAdd s.count s.step with
      | none =>
          simp only [onSignal, work, sum]
          rfl
      | some count =>
          simp only [onSignal, work, sum]
          exact run_forward ..
  | setVariable name =>
      by_cases unset : name.isEmpty
      · simp only [onSignal, work, if_pos unset]
        rfl
      cases last : args.getLast? with
      | none =>
          simp only [onSignal, work, if_neg unset, last]
          rfl
      | some value =>
          simp only [onSignal, work, if_neg unset, last]
          exact run_forward ..

theorem run_onBegin_entry (wrap : Builtin → β) (begunBy : Option InstanceId) (send : Send β)
    (self : NodeKey) (source : Option SpotRef) (w : Wave β) :
    ((entry begunBy).onBegin wrap).run send self source w =
      send ⟨self, 0⟩ [.instanceRef w.instanceId]
        (({ w with graph := w.graph.setBehavior self (wrap (entry (some w.instanceId))) } : Wave β).push
          (.send ⟨self, 0⟩ [.instanceRef w.instanceId])) := by
  exact run_forward 0 _ send self source _

end Builtin
end SignalGraph
