/-
Why a text is refused that is no JSON.

There are two reasons: it is malformed, or it is nested to more levels than the reader was
told to go into.  Nothing else can go wrong, whatever the text.
-/
import GestureStore.Json.Reader

namespace GestureStore
namespace Json

/-- If reading fails, it does for one of the two reasons. -/
def Refuses (outcome : Except Fault α) : Prop :=
  ∀ e, outcome = .error e → e = malformed ∨ e = .tooDeep

theorem refuses_ok (a : α) : Refuses (.ok a) := by
  intro e h
  cases h

theorem refuses_malformed : Refuses (.error malformed : Except Fault α) := by
  intro e h
  cases h
  exact .inl rfl

theorem refuses_tooDeep : Refuses (.error .tooDeep : Except Fault α) := by
  intro e h
  cases h
  exact .inr rfl

theorem Refuses.bind {outcome : Except Fault α} {next : α → Except Fault β} (h : Refuses outcome)
    (hnext : ∀ a, Refuses (next a)) : Refuses (outcome >>= next) := by
  cases outcome with
  | ok a => exact hnext a
  | error e =>
      intro e' h'
      cases h'
      exact h e rfl

theorem refuses_fieldName (t : Text) : Refuses (fieldName t) := by
  unfold fieldName
  split
  · exact refuses_malformed
  · split
    · exact refuses_malformed
    · split
      · exact refuses_malformed
      · split
        · exact refuses_malformed
        · split
          · exact refuses_ok _
          · exact refuses_malformed

/-- The reader in all its parts, which call each other with less fuel. -/
structure RefusesWith (fuel : Nat) : Prop where
  value : ∀ depth t, Refuses (value fuel depth t)
  nested : ∀ depth isList t, Refuses (nested fuel depth isList t)
  itemsFrom : ∀ depth sofar t, Refuses (itemsFrom fuel depth sofar t)
  fieldsFrom : ∀ depth sofar t, Refuses (fieldsFrom fuel depth sofar t)

theorem refusesWith (fuel : Nat) : RefusesWith fuel := by
  induction fuel with
  | zero =>
      constructor <;> intros
      · unfold Json.value
        exact refuses_malformed
      · unfold Json.nested
        exact refuses_malformed
      · unfold Json.itemsFrom
        exact refuses_malformed
      · unfold Json.fieldsFrom
        exact refuses_malformed
  | succ fuel ih =>
      constructor
      case value =>
        intro depth t
        unfold Json.value
        split
        · exact refuses_malformed
        · split
          · split
            · exact refuses_ok _
            · exact refuses_malformed
          · split
            · split
              · exact refuses_tooDeep
              · exact ih.nested _ _ _
            · split
              · exact refuses_ok _
              · exact refuses_malformed
      case nested =>
        intro depth isList t
        unfold Json.nested
        split
        · exact refuses_malformed
        · split
          · exact refuses_ok _
          · exact ih.itemsFrom _ _ _
        · split
          · exact refuses_ok _
          · exact ih.fieldsFrom _ _ _
      case itemsFrom =>
        intro depth sofar t
        unfold Json.itemsFrom
        refine (ih.value depth t).bind fun found => ?_
        dsimp only
        split
        · exact refuses_malformed
        · split
          · exact refuses_ok _
          · split
            · exact ih.itemsFrom _ _ _
            · exact refuses_malformed
      case fieldsFrom =>
        intro depth sofar t
        unfold Json.fieldsFrom
        refine (refuses_fieldName t).bind fun named => (ih.value depth named.2).bind fun found => ?_
        dsimp only
        split
        · exact refuses_malformed
        · split
          · exact refuses_ok _
          · split
            · exact ih.fieldsFrom _ _ _
            · exact refuses_malformed

/-- **A text that is not read is malformed or too deep.** -/
theorem read_eq_error {depth : Nat} {t : Text} {e : Fault} (h : read depth t = .error e) :
    e = malformed ∨ e = .tooDeep := by
  refine Refuses.bind ((refusesWith _).value depth _) (fun found => ?_) e h
  dsimp only
  split
  · exact refuses_ok _
  · exact refuses_malformed

end Json
end GestureStore
