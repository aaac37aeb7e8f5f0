/-
Entries and learner in step.

Every stored gesture has one instance in the learner and the learner has no others.
The two are kept apart: entries go by name and then by identifier, the learner goes by
identifier alone, or by label when an entry is dropped.  That each route comes to the
same gestures rests on identifiers being distinct across all entries and on labels
being the names of the entries, so both are part of what is kept (`InStep`).

Under which policy an instance was extracted is not stored for every policy, since
rotation plays no part in rasters; `since` says it for each identifier.
-/
import GestureStore.Proofs.Learner
import GestureStore.Proofs.Library.Entries
import GestureStore.Wire.Writer
import Mathlib.Logic.Function.Basic

namespace GestureStore

/-! ### Extracting one gesture -/

namespace Instance

variable [Scalar α] [Stored β α]

/-- What is extracted carries the identifier, the label and the policy. -/
theorem extract_eq_ok {policy : Policy} {label : Option Text} {g : Gesture} {i : Instance β}
    (h : extract policy label g = .ok i) :
    i.id = g.id ∧ i.label = label ∧ i.sequence = policy.sequence := by
  unfold extract at h
  cases hstrokes : g.strokes with
  | nil => simp [hstrokes] at h
  | cons s rest =>
      cases hseq : policy.sequence with
      | invariant =>
          simp only [hstrokes, hseq] at h
          rw [← Except.ok.inj h]
          exact ⟨rfl, rfl, rfl⟩
      | sensitive =>
          cases rest with
          | nil =>
              simp only [hstrokes, hseq] at h
              rw [← Except.ok.inj h]
              exact ⟨rfl, rfl, rfl⟩
          | cons s' rest => simp [hstrokes, hseq] at h

/-- **What can be extracted: any strokes, or a single one where their order counts.** -/
theorem exists_extract_iff {policy : Policy} {label : Option Text} {g : Gesture} :
    (∃ i : Instance β, extract policy label g = .ok i) ↔
      g.strokes ≠ [] ∧ (policy.sequence = .sensitive → g.strokes.length = 1) := by
  unfold extract
  cases hstrokes : g.strokes with
  | nil => simp
  | cons s rest =>
      cases hseq : policy.sequence with
      | invariant => simp
      | sensitive =>
          cases rest with
          | nil => simp
          | cons s' rest => simp

end Instance

/-! ### The invariant -/

section
variable [Scalar α] [Stored β α]

/-- The instance of a gesture under its name and a policy. -/
def Extracted (policy : Policy) (p : Text × Gesture) (i : Instance β) : Prop :=
  Instance.extract policy (some p.1) p.2 = .ok i

theorem Extracted.id_eq {policy : Policy} {p : Text × Gesture} {i : Instance β}
    (h : Extracted policy p i) : i.id = p.2.id := (Instance.extract_eq_ok h).1

theorem Extracted.new {policy : Policy} {p : Text × Gesture} {i : Instance β} {l : Learner β}
    (h : Extracted policy p i) (hnew : l.contains p.2.id = false) : l.contains i.id = false := by
  rw [h.id_eq]
  exact hnew

theorem Extracted.label_eq {policy : Policy} {p : Text × Gesture} {i : Instance β}
    (h : Extracted policy p i) : i.label = some p.1 := (Instance.extract_eq_ok h).2.1

/-- Entries and instances that go together, each gesture extracted under the policy that
`since` has for it. -/
structure InStep (since : Int → Policy) (es : Entries) (l : Learner β) : Prop where
  /-- Names are distinct and entries not empty. -/
  tidy : es.Tidy
  /-- Every name can be written. -/
  writable : ∀ p ∈ es.pairs, ∃ f, Writer.utf p.1 = .ok f
  /-- Gestures have distinct identifiers, also in different entries. -/
  distinct : (es.pairs.map fun p => p.2.id).Nodup
  /-- So have instances. -/
  keyed : (l.instances.map Instance.id).Nodup
  /-- Every gesture has an instance. -/
  learned : ∀ p ∈ es.pairs, ∃ i ∈ l.instances, Extracted (since p.2.id) p i
  /-- Every instance belongs to a gesture. -/
  owned : ∀ i ∈ l.instances, ∃ p ∈ es.pairs, Extracted (since p.2.id) p i

variable {since : Int → Policy} {es : Entries} {l : Learner β}

theorem inStep_empty (since : Int → Policy) : InStep since [] (Learner.empty : Learner β) where
  tidy := Entries.tidy_nil
  writable := by simp [Entries.pairs]
  distinct := by simp [Entries.pairs]
  keyed := by simp [Learner.empty]
  learned := by simp [Entries.pairs]
  owned := by simp [Learner.empty]

/-- Identifiers that the learner does not have, no stored gesture has. -/
theorem InStep.id_ne (h : InStep since es l) {id : Int} (hnew : l.contains id = false) :
    ∀ p ∈ es.pairs, p.2.id ≠ id := by
  intro p hp hid
  obtain ⟨i, hi, hext⟩ := h.learned p hp
  exact Learner.contains_eq_false_iff.mp hnew i hi (hext.id_eq.trans hid)

/-- There are as many gestures as instances. -/
theorem InStep.size_eq (h : InStep since es l) : es.size = l.instances.length := by
  have hperm : (es.pairs.map fun p => p.2.id).Perm (l.instances.map Instance.id) := by
    rw [List.perm_ext_iff_of_nodup h.distinct h.keyed]
    intro id
    rw [List.mem_map, List.mem_map]
    refine ⟨fun hp => ?_, fun hi => ?_⟩
    · obtain ⟨p, hp, rfl⟩ := hp
      obtain ⟨i, hi, hext⟩ := h.learned p hp
      exact ⟨i, hi, hext.id_eq⟩
    · obtain ⟨i, hi, rfl⟩ := hi
      obtain ⟨p, hp, hext⟩ := h.owned i hi
      exact ⟨p, hp, hext.id_eq.symm⟩
  have hlen := hperm.length_eq
  rw [List.length_map, List.length_map] at hlen
  rw [Entries.size, Entries.gestures_eq, List.length_map, hlen]

/-- Adding a gesture to both keeps them in step. -/
theorem InStep.attach (h : InStep since es l) {policy : Policy} {name : Text} {g : Gesture}
    {i : Instance β} {f : Bytes} (hnew : l.contains g.id = false)
    (hname : Writer.utf name = .ok f) (hext : Extracted policy (name, g) i) :
    InStep (Function.update since g.id policy) (es.add name g) (l.add i) := by
  have hinstances := Learner.instances_add (hext.new hnew)
  have hold : ∀ p ∈ es.pairs, Function.update since g.id policy p.2.id = since p.2.id :=
    fun p hp => Function.update_of_ne (h.id_ne hnew p hp) _ _
  refine ⟨h.tidy.add name g, ?_, ?_, ?_, ?_, ?_⟩
  · intro p hp
    rcases Entries.mem_pairs_add.mp hp with rfl | hp
    · exact ⟨f, hname⟩
    · exact h.writable p hp
  · obtain ⟨before, after, hbefore, hafter⟩ := Entries.pairs_add name g es
    have hids := h.distinct
    have hother := h.id_ne hnew
    rw [hbefore] at hids hother
    rw [hafter, List.map_append, List.map_cons, List.nodup_middle, List.nodup_cons]
    refine ⟨?_, by rw [← List.map_append]; exact hids⟩
    intro hmem
    rw [← List.map_append] at hmem
    obtain ⟨p, hp, hpid⟩ := List.mem_map.mp hmem
    exact hother p hp hpid
  · exact Learner.keyed_add h.keyed (hext.new hnew)
  · intro p hp
    rw [hinstances]
    rcases Entries.mem_pairs_add.mp hp with rfl | hp
    · exact ⟨i, by simp, by rw [Function.update_self]; exact hext⟩
    · obtain ⟨j, hj, hjext⟩ := h.learned p hp
      exact ⟨j, by simp [hj], by rw [hold p hp]; exact hjext⟩
  · intro j hj
    rw [hinstances] at hj
    rcases List.mem_append.mp hj with hj | hj
    · obtain ⟨p, hp, hjext⟩ := h.owned j hj
      exact ⟨p, Entries.mem_pairs_add.mpr (Or.inr hp), by rw [hold p hp]; exact hjext⟩
    · obtain rfl := List.mem_singleton.mp hj
      exact ⟨(name, g), Entries.mem_pairs_add.mpr (Or.inl rfl),
        by rw [Function.update_self]; exact hext⟩

/-- Removing the same gestures from both keeps them in step. -/
theorem InStep.discard (h : InStep since es l) {es' : Entries} {l' : Learner β}
    {keep : Instance β → Bool} (htidy : es'.Tidy) (hsub : es'.pairs.Sublist es.pairs)
    (hlearner : l'.instances = l.instances.filter keep)
    (hkeep : ∀ p ∈ es.pairs, ∀ i : Instance β, Extracted (since p.2.id) p i →
      (p ∈ es'.pairs ↔ keep i = true)) : InStep since es' l' := by
  refine ⟨htidy, fun p hp => h.writable p (hsub.subset hp),
    h.distinct.sublist (hsub.map _), ?_, ?_, ?_⟩
  · rw [hlearner]
    exact h.keyed.sublist (List.filter_sublist.map _)
  · intro p hp
    obtain ⟨i, hi, hext⟩ := h.learned p (hsub.subset hp)
    rw [hlearner]
    exact ⟨i, List.mem_filter.mpr ⟨hi, (hkeep p (hsub.subset hp) i hext).mp hp⟩, hext⟩
  · intro i hi
    rw [hlearner] at hi
    obtain ⟨hi, hkept⟩ := List.mem_filter.mp hi
    obtain ⟨p, hp, hext⟩ := h.owned i hi
    exact ⟨p, (hkeep p hp i hext).mpr hkept, hext⟩

/-- A gesture taken out of its entry goes by its identifier in the learner. -/
theorem InStep.detach (h : InStep since es l) {name : Text} {gs : List Gesture} {id : Int}
    (hfind : es.find? name = some gs) (hany : (gs.any fun g => g.id == id) = true) :
    InStep since (es.replace name (gs.eraseP fun g => g.id == id)) (l.remove id) := by
  obtain ⟨htidy, before, g, after, hid, hbefore, hafter⟩ := h.tidy.eraseP hfind hany
  refine h.discard htidy ?_ rfl ?_
  · rw [hbefore, hafter]
    exact List.Sublist.append_left (List.sublist_cons_self _ _) _
  · -- As identifiers are distinct, the pair taken out is the only one with this one.
    intro p hp i hext
    have hids := h.distinct
    rw [hbefore, List.map_append, List.map_cons, List.nodup_middle, List.nodup_cons] at hids
    rw [hafter, hext.id_eq]
    simp only [Bool.not_eq_true', beq_eq_false_iff_ne]
    rw [hbefore, List.mem_append, List.mem_cons] at hp
    refine ⟨fun hmem hpid => hids.1 ?_, fun hpid => ?_⟩
    · rw [← List.map_append, hid, ← hpid]
      exact List.mem_map_of_mem hmem
    · rw [List.mem_append]
      rcases hp with hp | rfl | hp
      · exact Or.inl hp
      · exact absurd hid hpid
      · exact Or.inr hp

/-- An entry goes by its name in the learner. -/
theorem InStep.drop (h : InStep since es l) (name : Text) :
    InStep since (es.erase name) (l.removeLabel (some name)) := by
  refine h.discard (h.tidy.erase name) ?_ rfl ?_
  · rw [Entries.erase_pairs]
    exact List.filter_sublist
  · intro p hp i hext
    rw [Entries.erase_pairs, List.mem_filter, hext.label_eq]
    simp [hp]

theorem forall₂_left {as : List (Text × Gesture)} {is : List (Instance β)}
    {policy : Policy} (h : List.Forall₂ (Extracted policy) as is) :
    ∀ p ∈ as, ∃ i ∈ is, Extracted policy p i := by
  induction h with
  | nil => simp
  | cons hext _ ih =>
      intro p hp
      rcases List.mem_cons.mp hp with rfl | hp
      · exact ⟨_, by simp, hext⟩
      · obtain ⟨i, hi, hiext⟩ := ih p hp
        exact ⟨i, by simp [hi], hiext⟩

theorem forall₂_right {as : List (Text × Gesture)} {is : List (Instance β)}
    {policy : Policy} (h : List.Forall₂ (Extracted policy) as is) :
    ∀ i ∈ is, ∃ p ∈ as, Extracted policy p i := by
  induction h with
  | nil => simp
  | cons hext _ ih =>
      intro i hi
      rcases List.mem_cons.mp hi with rfl | hi
      · exact ⟨_, by simp, hext⟩
      · obtain ⟨p, hp, hpext⟩ := ih i hi
        exact ⟨p, by simp [hp], hpext⟩

/-- Instances of gestures in order have their identifiers in order. -/
theorem forall₂_ids {as : List (Text × Gesture)} {is : List (Instance β)}
    {policy : Policy} (h : List.Forall₂ (Extracted policy) as is) :
    is.map Instance.id = as.map fun p => p.2.id := by
  induction h with
  | nil => rfl
  | cons hext _ ih => rw [List.map_cons, List.map_cons, hext.id_eq, ih]

/-- Instances extracted anew, one for each gesture in order, are in step. -/
theorem InStep.renew (h : InStep since es l) {policy : Policy} {is : List (Instance β)}
    (his : List.Forall₂ (Extracted policy) es.pairs is) :
    InStep (fun _ => policy) es (Learner.empty.addAll is) := by
  have hids := forall₂_ids his
  have hinstances : (Learner.empty.addAll is).instances = is := by
    rw [Learner.instances_addAll]
    · rfl
    · show (is.map Instance.id).Nodup
      rw [hids]
      exact h.distinct
  refine ⟨h.tidy, h.writable, h.distinct, by rw [hinstances, hids]; exact h.distinct, ?_, ?_⟩
  · intro p hp
    rw [hinstances]
    exact forall₂_left his p hp
  · intro i hi
    rw [hinstances] at hi
    exact forall₂_right his i hi

end

end GestureStore
