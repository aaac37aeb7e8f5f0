/-
What a learner holds.

Instances go by the identifier of their gesture, and by nothing else: adding one puts it
last if its gesture is new, whatever its label, so instances with different identifiers
are kept as they come.  Only those with a label are ever measured.
-/
import GestureStore.Learner
import Mathlib.Data.List.Nodup

namespace GestureStore
namespace Learner

theorem contains_eq_false_iff {l : Learner β} {id : Int} :
    l.contains id = false ↔ ∀ i ∈ l.instances, i.id ≠ id := by
  simp [contains, List.any_eq_false]

/-- An instance of a new gesture comes last. -/
theorem instances_add {l : Learner β} {i : Instance β} (h : l.contains i.id = false) :
    (l.add i).instances = l.instances ++ [i] := by
  have hput : ∀ js : List (Instance β), (∀ j ∈ js, j.id ≠ i.id) → put i js = js ++ [i] := by
    intro js
    induction js with
    | nil => intro _; rfl
    | cons j rest ih =>
        intro hjs
        have hne : ¬ (j.id == i.id) = true := by simpa using hjs j (by simp)
        rw [put, if_neg hne, ih fun k hk => hjs k (by simp [hk]), List.cons_append]
  exact hput l.instances (contains_eq_false_iff.mp h)

/-- Instances with different identifiers stay so when a new one is added. -/
theorem keyed_add {l : Learner β} {i : Instance β} (hkeyed : (l.instances.map Instance.id).Nodup)
    (hnew : l.contains i.id = false) : ((l.add i).instances.map Instance.id).Nodup := by
  rw [instances_add hnew, List.map_append, List.nodup_append]
  refine ⟨hkeyed, List.nodup_singleton _, ?_⟩
  intro a ha b hb hab
  obtain ⟨j, hj, rfl⟩ := List.mem_map.mp ha
  rw [List.mem_singleton.mp hb] at hab
  exact contains_eq_false_iff.mp hnew j hj hab

/-- Instances of different gestures are kept as they come. -/
theorem instances_addAll {is : List (Instance β)} :
    ∀ {l : Learner β}, ((l.instances ++ is).map Instance.id).Nodup →
      (l.addAll is).instances = l.instances ++ is := by
  induction is with
  | nil => intro l _; simp [addAll]
  | cons i rest ih =>
      intro l h
      have hnew : l.contains i.id = false := by
        rw [contains_eq_false_iff]
        intro j hj hid
        rw [List.map_append, List.nodup_append] at h
        exact h.2.2 j.id (List.mem_map_of_mem hj) i.id (by simp) hid
      have hstep : l.addAll (i :: rest) = (l.add i).addAll rest := rfl
      rw [hstep, ih, instances_add hnew, List.append_assoc, List.singleton_append]
      rw [instances_add hnew, List.append_assoc, List.singleton_append]
      exact h

theorem mem_labelled {l : Learner β} {e : Text × Instance β} :
    e ∈ l.labelled ↔ e.2 ∈ l.instances ∧ e.2.label = some e.1 := by
  obtain ⟨name, i⟩ := e
  rw [labelled, List.mem_filterMap]
  refine ⟨fun h => ?_, fun h => ⟨i, h.1, by rw [h.2]; rfl⟩⟩
  obtain ⟨j, hj, hmap⟩ := h
  obtain ⟨label, hlabel, hpair⟩ := Option.map_eq_some_iff.mp hmap
  obtain ⟨rfl, rfl⟩ := Prod.mk.inj hpair
  exact ⟨hj, hlabel⟩

end Learner
end GestureStore
