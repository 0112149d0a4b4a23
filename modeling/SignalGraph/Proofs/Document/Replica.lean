import SignalGraph.Proofs.Builtin.DepthFirst
import SignalGraph.Proofs.Document.Reload
import SignalGraph.Proofs.Wave.Simulation

/-!
A graph and what is loaded from its document behave alike. The host of an instance addresses spots by ID,
and sees the results of its calls, the messages to its log and the shared state. None of that tells the two
graphs apart but the handle in the error of the cycle guard; begins and ticks are not considered.
-/

namespace SignalGraph

open Builtin

variable {β : Type} {wrap : Builtin → β} {r : Renaming}

def Event.message? : Event → Option (LogLevel × String × String)
  | .log level tag text => some (level, tag, text)
  | _ => none

structure HostSignal where
  spot : SpotAddress
  args : List Value

/-- What a host sees of a call. -/
structure HostAnswer where
  result : Option (Except RunError Unit)
  messages : List (LogLevel × String × String)
deriving DecidableEq

def Renaming.answer (r : Renaming) (a : HostAnswer) : HostAnswer :=
  { a with result := r.result a.result }

theorem filterMap_message?_event (events : List Event) :
    (events.map r.event).filterMap Event.message? = events.filterMap Event.message? := by
  rw [List.filterMap_map]
  apply List.filterMap_congr
  intro e _
  cases e <;> rfl

namespace Graph.Alike

variable {g h : Graph β}

theorem keysOfType (alike : Alike r wrap g h) (sound : g.Sound) (type : TypeKey) :
    h.keysOfType type = (g.keysOfType type).map r.node := by
  simp only [Graph.keysOfType, alike.nodes sound, List.filter_map, List.map_map]
  rfl

theorem isSome_node?_of_resolve (sound : g.Sound) {node spot : String} {ref : SpotRef}
    (resolved : g.resolve node spot = .ok ref) : (g.node? ref.node).isSome := by
  simp only [Graph.resolve] at resolved
  split at resolved
  · cases resolved
  · next key found =>
      have live := isSome_node?_of_find? sound found
      obtain ⟨n, _, rest⟩ := bind_eq_ok_iff.mp resolved
      split at rest
      · cases rest
      · cases rest
        exact live

end Graph.Alike

namespace Instance

variable [Behavior β]

/-- One call of the host. An address that does not resolve is an error, too. -/
def call (depth : Nat) (s : HostSignal) (i : Instance β) : HostAnswer × Instance β :=
  match i.graph.resolve s.spot.node s.spot.spot with
  | .error cause => (⟨some (.error (.graph cause)), []⟩, i)
  | .ok ref =>
    let (result, j, events) := i.signal depth ref s.args
    (⟨result, events.filterMap Event.message?⟩, j)

def play (depth : Nat) : List HostSignal → Instance β → List HostAnswer × Instance β
  | [], i => ([], i)
  | s :: rest, i =>
    let (answer, j) := i.call depth s
    let (answers, k) := play depth rest j
    (answer :: answers, k)

/-- Two instances whose graphs are alike; the first runs on the nodes and links of `g`. -/
structure Mirrors (r : Renaming) (wrap : Builtin → β) (g : Graph β) (i i' : Instance β) : Prop where
  shape : i.graph.shape = g.shape
  graph : Graph.Alike r wrap i.graph i'.graph
  state : i'.state = i.state
  guard : i'.cycleGuard = i.cycleGuard

namespace Mirrors

variable {g : Graph β} {i i' : Instance β}

omit [Behavior β] in
theorem wave (mirrors : Mirrors r wrap g i i') : i.wave.Mirrors r wrap g i'.wave where
  shape := mirrors.shape
  graph := mirrors.graph
  state := mirrors.state
  crossed := by
    simp only [Instance.wave, mirrors.guard]
    split <;> rfl
  known crossed same x mem := by
    simp only [Instance.wave] at same
    split at same <;> cases same
    cases mem
  record := rfl

theorem call (hosted : Hosted wrap) (sound : g.Sound) (mirrors : Mirrors r wrap g i i')
    (depth : Nat) (s : HostSignal) :
    (i'.call depth s).1 = r.answer (i.call depth s).1 ∧
      Mirrors r wrap g (i.call depth s).2 (i'.call depth s).2 := by
  have sound' : i.graph.Sound := sound.of_shape mirrors.shape
  have renamed := mirrors.graph.resolve sound' s.spot.node s.spot.spot
  simp only [Instance.call, renamed]
  cases resolved : i.graph.resolve s.spot.node s.spot.spot with
  | error cause => exact ⟨rfl, mirrors⟩
  | ok ref =>
      have live : (g.node? ref.node).isSome := by
        rw [← Graph.node?_eq_of_shape mirrors.shape]
        exact Graph.Alike.isSome_node?_of_resolve sound' resolved
      obtain ⟨result, after⟩ :=
        Wave.propagate_mirrors hosted sound depth ref s.args i.wave i'.wave live mirrors.wave
      simp only [Except.map, Instance.signal, conclude, result, after.record,
        filterMap_message?_event]
      exact ⟨rfl, after.shape, after.graph, after.state, mirrors.guard⟩

theorem play (hosted : Hosted wrap) (sound : g.Sound) (mirrors : Mirrors r wrap g i i')
    (depth : Nat) (signals : List HostSignal) :
    (i'.play depth signals).1 = (i.play depth signals).1.map r.answer ∧
      Mirrors r wrap g (i.play depth signals).2 (i'.play depth signals).2 := by
  induction signals generalizing i i' with
  | nil => exact ⟨rfl, mirrors⟩
  | cons s signals ih =>
      obtain ⟨first, next⟩ := mirrors.call hosted sound depth s
      obtain ⟨others, last⟩ := ih next
      simp only [Instance.play, first, others]
      exact ⟨rfl, last⟩

theorem exists_snapshot (hosted : Hosted wrap) (sound : g.Sound)
    (mirrors : Mirrors r wrap g i i') :
    ∃ d, i.graph.snapshot.1 = .ok d ∧ i'.graph.snapshot.1 = .ok d := by
  have sound' : i.graph.Sound := sound.of_shape mirrors.shape
  have wrapped (key : NodeKey) : ∃ b, ∀ s, i.graph.slot? key = some s → s.behavior = wrap b := by
    cases found : i.graph.slot? key with
    | none => exact ⟨.update, fun _ absent => by cases absent⟩
    | some s =>
        have behaves : i.graph.behavior? key = some s.behavior := by
          rw [Graph.behavior?, found]
          rfl
        obtain ⟨b, _, same, _⟩ := mirrors.graph.behavior key s.behavior behaves
        refine ⟨b, ?_⟩
        intro t at_key
        cases at_key
        exact same
  choose own owned using wrapped
  obtain ⟨records, events, stored, _⟩ :=
    Graph.exists_snapshot sound' (Graph.saves_of_wrapped hosted sound' owned)
  have equal := mirrors.graph.snapshot hosted sound'
  rw [stored] at equal
  exact ⟨_, by rw [stored], equal⟩

end Mirrors
end Instance

namespace Graph

variable [Behavior β] {g : Graph β} {own : NodeKey → Builtin}

omit [Behavior β] in
theorem textSize_ownBehavior {g : Graph Builtin} {bound : Nat} (positive : 0 < bound)
    (sized : ∀ s ∈ g.slots.filterMap id, s.behavior.textSize < bound) (key : NodeKey) :
    (g.ownBehavior key).textSize < bound := by
  simp only [ownBehavior, behavior?]
  cases found : g.slot? key with
  | none => exact positive
  | some s =>
      exact sized s (List.mem_filterMap.mpr
        ⟨some s, List.mem_of_getElem? (Option.join_eq_some_iff.mp found), rfl⟩)

/-- A reachable graph of library nodes with one entry can be stored and loaded again. Whatever a host
sends to the two, it gets the same answers and the same messages, up to the order-preserving renaming of
the live handles, and both come to the same state and the same document. A call that is cut off on one
side is cut off on the other. Texts are stored with their size in eight bytes, which bounds the sizes. -/
theorem reload_behaves_alike (hosted : Hosted wrap) (reach : g.Reachable)
    (carries : g.Carries wrap own) {entry : NodeKey} (single : g.keysOfType .entry = [entry])
    (sized : ∀ key, (own key).textSize < 2 ^ 64) :
    g.compaction.KeepsOrder g ∧ ∃ d saves h calls,
      g.snapshot = (.ok d, saves) ∧ load d (registry wrap) = (.ok h, calls) ∧
      h.liveLinks = g.liveLinks.map g.compaction.linkOf ∧
      h.keysOfType .entry = [g.compaction.node entry] ∧
      ∀ i i' : Instance β, i.graph = g → i'.graph = h → i'.state = i.state →
        i'.cycleGuard = i.cycleGuard → ∀ depth signals,
          (i'.play depth signals).1 = (i.play depth signals).1.map g.compaction.answer ∧
          (i'.play depth signals).2.state = (i.play depth signals).2.state ∧
          ∃ final, (i.play depth signals).2.graph.snapshot.1 = .ok final ∧
            (i'.play depth signals).2.graph.snapshot.1 = .ok final := by
  have sound := reach.sound
  obtain ⟨d, saves, h, calls, stored, loaded, alike⟩ := exists_load_snapshot hosted sound
    reach.legal reach.fits (reach.declared hosted) carries sized
  refine ⟨keepsOrder_compaction sound, d, saves, h, calls, stored, loaded, alike.liveLinks, ?_, ?_⟩
  · rw [alike.keysOfType sound, single]
    rfl
  · intro i i' around around' state guard depth signals
    subst around around'
    have mirrors : Instance.Mirrors i.graph.compaction wrap i.graph i i' :=
      ⟨rfl, alike, state, guard⟩
    obtain ⟨answers, after⟩ := mirrors.play hosted sound depth signals
    exact ⟨answers, after.state, after.exists_snapshot hosted sound⟩

def pruned : Graph Builtin :=
  ((Instance.forked.link ⟨⟨2⟩, 1⟩ ⟨⟨2⟩, 0⟩).2.removeNode ⟨1⟩).2

theorem pruned_reload_behaves_alike :
    ∃ d saves h calls, pruned.snapshot = (.ok d, saves) ∧ load d (registry id) = (.ok h, calls) ∧
      ∀ i' : Instance Builtin, i'.graph = h → i'.state = .initial → i'.cycleGuard = true →
        (i'.play 8 [⟨⟨"start", "out"⟩, []⟩, ⟨⟨"delta", "out"⟩, []⟩]).1 =
          [⟨some (.error (.cycle ⟨1⟩ "show")), [(.info, "Show", "7")]⟩,
            ⟨some (.error (.graph (.noSuchNode "delta"))), []⟩] := by
  have reach : pruned.Reachable := (Instance.reachable_forked.change
    (.link ⟨⟨2⟩, 1⟩ ⟨⟨2⟩, 0⟩)).change (.removeNode ⟨1⟩)
  have sized (key : NodeKey) : (pruned.ownBehavior key).textSize < 2 ^ 64 :=
    textSize_ownBehavior (by decide) (by decide) key
  have single : pruned.keysOfType .entry = [⟨0⟩] := by decide
  obtain ⟨_, d, saves, h, calls, stored, loaded, _, _, alike⟩ := reload_behaves_alike hosted_id reach
    (carries_ownBehavior (by decide)) single sized
  refine ⟨d, saves, h, calls, stored, loaded, ?_⟩
  intro i' around state guard
  let i : Instance Builtin := ⟨⟨0⟩, pruned, .initial, .collector, ⟨0⟩, false, true⟩
  rw [(alike i i' rfl around state guard 8 _).1]
  decide +kernel

end Graph
end SignalGraph
