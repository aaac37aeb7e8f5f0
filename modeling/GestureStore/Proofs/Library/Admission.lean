/-
Which gestures are let in when a file is read.

Gestures are taken in one after the other, and one that is not let in keeps out all of
them.  What matters is that identifiers are distinct and that each gesture can be
extracted, so a policy admits sections or not as a whole (`Entries.Admitted`), and it
leaves no choice: the instances are those of the gestures, in order, and the entries
are the gestures under their names.
-/
import GestureStore.Proofs.Library.Operations

namespace GestureStore

/-- Sections that a policy lets in. -/
structure Entries.Admitted (policy : Policy) (sections : Entries) : Prop where
  /-- No identifier comes twice. -/
  distinct : (sections.gestures.map Gesture.id).Nodup
  /-- Every gesture has strokes. -/
  drawn : ∀ g ∈ sections.gestures, g.strokes ≠ []
  /-- It has a single one where the order of strokes counts. -/
  single : policy.sequence = .sensitive → ∀ g ∈ sections.gestures, g.strokes.length = 1

theorem Entries.Admitted.distinct_pairs {policy : Policy} {sections : Entries}
    (h : sections.Admitted policy) : (sections.pairs.map fun p => p.2.id).Nodup := by
  rw [← map_id_gestures]
  exact h.distinct

/-- Gestures that some policy lets in are let in by another as their numbers of strokes say. -/
theorem Entries.admitted_iff {policy : Policy} {es : Entries}
    (hids : (es.gestures.map Gesture.id).Nodup) (hstrokes : ∀ g ∈ es.gestures, g.strokes ≠ []) :
    es.Admitted policy ↔
      policy.sequence = .invariant ∨ ∀ g ∈ es.gestures, g.strokes.length = 1 := by
  refine ⟨fun h => ?_, fun h => ⟨hids, hstrokes, fun hsensitive => ?_⟩⟩
  · cases hsequence : policy.sequence with
    | invariant => exact Or.inl rfl
    | sensitive => exact Or.inr (h.single hsequence)
  · rcases h with hinvariant | hsingle
    · rw [hinvariant] at hsensitive
      simp at hsensitive
    · exact hsingle

/-- **A policy lets in what has identifiers of its own and can be extracted.** -/
theorem Entries.admitted_iff_extracted [Scalar α] [Stored β α] {policy : Policy} {es : Entries} :
    es.Admitted policy ↔ (es.pairs.map fun p => p.2.id).Nodup ∧
      ∀ p ∈ es.pairs, ∃ i : Instance β, Extracted policy p i := by
  refine ⟨fun h => ⟨h.distinct_pairs, fun p hp => ?_⟩, fun h => ?_⟩
  · have hg := mem_gestures_of_pair hp
    exact Instance.exists_extract_iff.mpr ⟨h.drawn _ hg, fun hsequence => h.single hsequence _ hg⟩
  · obtain ⟨hdistinct, hext⟩ := h
    have hdrawn : ∀ g ∈ es.gestures,
        g.strokes ≠ [] ∧ (policy.sequence = .sensitive → g.strokes.length = 1) := by
      intro g hg
      obtain ⟨p, hp, rfl⟩ := mem_gestures.mp hg
      exact Instance.exists_extract_iff.mp (hext p hp)
    refine ⟨?_, fun g hg => (hdrawn g hg).1, fun hsequence g hg => (hdrawn g hg).2 hsequence⟩
    rw [map_id_gestures]
    exact hdistinct

/-- What is in step with instances of one policy is what that policy lets in. -/
theorem InStep.admitted [Scalar α] [Stored β α] {policy : Policy} {es : Entries} {l : Learner β}
    (h : InStep (fun _ => policy) es l) : es.Admitted policy := by
  refine (Entries.admitted_iff_extracted (β := β)).mpr ⟨h.distinct, fun p hp => ?_⟩
  obtain ⟨i, -, hext⟩ := h.learned p hp
  exact ⟨i, hext⟩

namespace Library

variable [Scalar α] [Stored β α]

/-! ### Gestures -/

/-- Instances come in the order of the gestures, behind those that were there. -/
theorem Taken.exists_instances {policy : Policy} {items : List (Text × Gesture)} {s s' : Staged β}
    (h : Taken policy s items s') :
    ∃ is, List.Forall₂ (Extracted policy) items is ∧
      s'.learner.instances = s.learner.instances ++ is := by
  induction h with
  | nil => exact ⟨[], .nil, (List.append_nil _).symm⟩
  | cons new ext _ ih =>
      obtain ⟨is, his, hinstances⟩ := ih
      refine ⟨_ :: is, .cons ext his, ?_⟩
      rw [hinstances, Learner.instances_add (ext.new new), List.append_assoc, List.singleton_append]

/-- Instances with different identifiers stay so. -/
theorem Taken.keyed {policy : Policy} {items : List (Text × Gesture)} {s s' : Staged β}
    (h : Taken policy s items s') (hkeyed : (s.learner.instances.map Instance.id).Nodup) :
    (s'.learner.instances.map Instance.id).Nodup := by
  induction h with
  | nil => exact hkeyed
  | cons new ext _ ih => exact ih (Learner.keyed_add hkeyed (ext.new new))

theorem extracted_unique {policy : Policy} {items : List (Text × Gesture)}
    {is js : List (Instance β)} (his : List.Forall₂ (Extracted policy) items is)
    (hjs : List.Forall₂ (Extracted policy) items js) : is = js :=
  Relator.RightUnique.forall₂ (fun _ _ _ hi hj => Except.ok.inj (hi.symm.trans hj)) his hjs

/-- Gestures with identifiers of their own are all taken in if each can be extracted. -/
theorem exists_taken {policy : Policy} {items : List (Text × Gesture)} :
    ∀ {s : Staged β}, (∀ p ∈ items, ∃ i : Instance β, Extracted policy p i) →
      (items.map fun p => p.2.id).Nodup → (∀ p ∈ items, s.learner.contains p.2.id = false) →
      ∃ s', Taken policy s items s' := by
  induction items with
  | nil => intro s _ _ _; exact ⟨s, .nil s⟩
  | cons p rest ih =>
      intro s hext hids hnew
      obtain ⟨i, hi⟩ := hext p (by simp)
      rw [List.map_cons, List.nodup_cons] at hids
      have hp := hnew p (by simp)
      have hinstances := Learner.instances_add (hi.new hp)
      have hlater : ∀ q ∈ rest, (s.learner.add i).contains q.2.id = false := by
        intro q hq
        rw [Learner.contains_eq_false_iff, hinstances]
        intro j hj hid
        rcases List.mem_append.mp hj with hj | hj
        · exact Learner.contains_eq_false_iff.mp (hnew q (by simp [hq])) j hj hid
        · obtain rfl := List.mem_singleton.mp hj
          refine hids.1 (List.mem_map.mpr ⟨q, hq, ?_⟩)
          rw [← hid, hi.id_eq]
      obtain ⟨s', hs'⟩ := ih (s := ⟨s.entries.add p.1 p.2, s.learner.add i⟩)
        (fun q hq => hext q (by simp [hq])) hids.2 hlater
      exact ⟨s', .cons hp hi hs'⟩

/-- **What becomes of gestures that are all taken in.** -/
theorem taken_empty_iff {policy : Policy} {items : List (Text × Gesture)} {s : Staged β} :
    Taken policy ⟨[], Learner.empty⟩ items s ↔
      (items.map fun p => p.2.id).Nodup ∧
        List.Forall₂ (Extracted policy) items s.learner.instances ∧
        s.entries = Entries.ofPairs items := by
  have hforward : ∀ s : Staged β, Taken policy ⟨[], Learner.empty⟩ items s →
      (items.map fun p => p.2.id).Nodup ∧
        List.Forall₂ (Extracted policy) items s.learner.instances ∧
        s.entries = Entries.ofPairs items := by
    intro s h
    obtain ⟨is, his, hinstances⟩ := h.exists_instances
    have hkeyed := h.keyed List.nodup_nil
    rw [show s.learner.instances = is from hinstances] at hkeyed ⊢
    rw [forall₂_ids his] at hkeyed
    exact ⟨hkeyed, his, h.entries_eq⟩
  refine ⟨hforward s, fun h => ?_⟩
  obtain ⟨hids, his, hentries⟩ := h
  have hext : ∀ p ∈ items, ∃ i : Instance β, Extracted policy p i :=
    fun p hp => (forall₂_left his p hp).imp fun _ hi => hi.2
  obtain ⟨s', hs'⟩ := exists_taken (s := ⟨[], Learner.empty⟩) hext hids fun _ _ => rfl
  obtain ⟨-, his', hentries'⟩ := hforward s' hs'
  have hsame : s' = s := by
    obtain ⟨es, ⟨is⟩⟩ := s
    obtain ⟨es', ⟨is'⟩⟩ := s'
    simp only at his his' hentries hentries'
    rw [hentries, hentries', extracted_unique his his']
  rw [← hsame]
  exact hs'

/-- **Sections can be taken in exactly if the policy admits them.** -/
theorem exists_taken_iff {policy : Policy} {sections : Entries} :
    (∃ s : Staged β, Taken policy ⟨[], Learner.empty⟩ sections.pairs s) ↔
      sections.Admitted policy := by
  rw [Entries.admitted_iff_extracted (β := β)]
  refine ⟨fun h => ?_, fun h => exists_taken h.2 h.1 fun _ _ => rfl⟩
  obtain ⟨s, hs⟩ := h
  obtain ⟨hids, his, -⟩ := taken_empty_iff.mp hs
  exact ⟨hids, fun p hp => (forall₂_left his p hp).imp fun _ hi => hi.2⟩

/-! ### Files -/

/-- Bytes are loaded if they can be taken in, and then the library holds what they say. -/
theorem loadBytes_eq_true_iff (l : Library β) (bytes : Bytes) :
    (l.loadBytes bytes).1 = true ↔ ∃ s : Staged β, Loads l.policy bytes s := by
  rcases l.loadBytes_cases bytes with ⟨hanswer, -, hnone⟩ | ⟨s, hs, hanswer, -⟩
  · rw [hanswer]
    refine ⟨fun h => by simp at h, fun h => ?_⟩
    obtain ⟨s, hs⟩ := h
    exact absurd hs (hnone s)
  · exact ⟨fun _ => ⟨s, hs⟩, fun _ => hanswer⟩

/-- A file that is there is loaded from its bytes. -/
theorem load_eq_loadBytes {l : Library β} {d : Disk} {bytes : Bytes}
    (h : d.contents? l.location = .ok (some bytes)) :
    l.load d = (.ok (l.loadBytes bytes).1, (l.loadBytes bytes).2.1, (l.loadBytes bytes).2.2) := by
  rw [load, h]

/-- Nothing is told about a file of the known version that is loaded. -/
theorem loadBytes_notices {l : Library β} {bytes : Bytes} {run : Reader.Run (Text × Gesture)}
    (hread : StoreFile.read bytes = .ok (.known run)) (h : (l.loadBytes bytes).1 = true) :
    (l.loadBytes bytes).2.1 = [] := by
  unfold loadBytes at h ⊢
  rw [hread] at h ⊢
  dsimp only at h ⊢
  split at h
  · simp at h
  · rfl

end Library

theorem Workspace.perform_load [Scalar α] [Stored β α] {w : Workspace β} {answer : Bool}
    {notices : List Notice} {l : Library β}
    (h : w.library.load w.disk = (.ok answer, notices, l)) :
    (w.perform .load).1.outcome = .ok (.flag answer) ∧ (w.perform .load).2.library = l := by
  rw [perform, h]
  exact ⟨rfl, rfl⟩

end GestureStore
