import SignalGraph.Proofs.Wave.Invariant

/-!
The depth that a wave may reach is only a budget. A result that is found within one depth is found
within every larger depth, with the same wave, so a wave that ends has one result. Being cut off is not
a result, and nothing here says that some depth is enough.
-/

namespace SignalGraph

variable {β : Type}

/-- Whatever one way to send finishes, the other finishes in the same way. -/
def Send.Extends (send more : Send β) : Prop :=
  ∀ source args w result v, send source args w = (some result, v) →
    more source args w = (some result, v)

theorem Reaction.run_extends {send more : Send β} (ext : send.Extends more) (self : NodeKey)
    (source : Option SpotRef) (r : Reaction β) {w v : Wave β} {result : Except RunError Unit}
    (ran : r.run send self source w = (some result, v)) :
    r.run more self source w = (some result, v) := by
  induction r generalizing w with
  | done _ => exact ran
  | look _ ih => exact ih _ ran
  | become _ _ ih | setState _ _ ih | log _ _ _ ih | note _ _ ih => exact ih ran
  | signal spot args next ih =>
      simp only [run] at ran ⊢
      rcases sent : send ⟨self, spot⟩ args (w.push (.send ⟨self, spot⟩ args)) with ⟨_ | answer, u⟩
      · rw [sent] at ran
        cases ran
      · rw [sent] at ran
        rw [ext _ _ _ _ _ sent]
        exact ih answer ran

namespace Wave

variable [Behavior β]

theorem deliver_extends {send more : Send β} (ext : send.Extends more) {source : SpotRef}
    {args : List Value} {id : LinkId} {w v : Wave β} {result : Except RunError Unit}
    (delivered : deliver send source args id w = (some result, v)) :
    deliver more source args id w = (some result, v) := by
  simp only [deliver] at delivered ⊢
  split <;> simp_all only
  split <;> simp_all only
  split <;> simp_all only
  split <;> simp_all only
  exact Reaction.run_extends ext _ _ _ delivered

theorem deliverAll_extends {send more : Send β} (ext : send.Extends more) {source : SpotRef}
    {args : List Value} {ids : List LinkId} {w v : Wave β} {result : Except RunError Unit}
    (delivered : deliverAll send source args ids w = (some result, v)) :
    deliverAll more source args ids w = (some result, v) := by
  induction ids generalizing w with
  | nil => exact delivered
  | cons id ids ih =>
      simp only [deliverAll] at delivered ⊢
      rcases first : deliver send source args id w with ⟨_ | answer, u⟩
      · rw [first] at delivered
        cases delivered
      · rw [first] at delivered
        rw [deliver_extends ext first]
        cases answer with
        | error cause => exact delivered
        | ok _ => exact ih delivered

theorem propagate_extends {depth more : Nat} (le : depth ≤ more) :
    (propagate (β := β) depth).Extends (propagate more) := by
  induction depth generalizing more with
  | zero =>
      intro source args w result v ran
      cases ran
  | succ depth ih =>
      obtain ⟨more, rfl⟩ : ∃ m, more = m + 1 := ⟨more - 1, by omega⟩
      intro source args w result v ran
      simp only [propagate] at ran ⊢
      split
      · next cause missing =>
          rw [missing] at ran
          exact ran
      · next s found =>
          rw [found] at ran
          exact deliverAll_extends (ih (by omega)) ran

theorem begin_extends {depth more : Nat} (le : depth ≤ more) {key : NodeKey} {w v : Wave β}
    {result : Except RunError Unit} (ran : w.begin depth key = (some result, v)) :
    w.begin more key = (some result, v) := by
  simp only [begin] at ran ⊢
  split
  · next cause missing =>
      rw [missing] at ran
      exact ran
  · next b found =>
      rw [found] at ran
      exact Reaction.run_extends (propagate_extends le) _ _ _ ran

end Wave
end SignalGraph
