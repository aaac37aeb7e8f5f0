/-
Recognition does not depend on how a library came to be.

What is stored differs with the history: identifiers, the order of entries and of
instances, how often the same drawing is kept under a name.  None of it shows in a
ranking, as long as every instance is what its gesture gives under the policy in
force (`Library.Current`).  Then each instance stands for a name and a drawing, and
equal drawings weigh the same; so which weights a label has, and with them the
ranking, follows from the names and drawings alone (`Entries.drawings`).

Instances of another policy would be measured as they are, or refused; with them
libraries that hold the same may well rank differently.
-/
import GestureStore.Proofs.Feature.Instance
import GestureStore.Proofs.Library.Runs
import GestureStore.Proofs.Ranking

namespace GestureStore

/-- The drawings that are stored, each with the name it is stored under. -/
def Entries.drawings (es : Entries) : List (Text × List (List (Single × Single))) :=
  es.pairs.map fun p => (p.1, p.2.geometry)

theorem Entries.mem_drawings {es : Entries} {d : Text × List (List (Single × Single))} :
    d ∈ es.drawings ↔ ∃ g, (d.1, g) ∈ es.pairs ∧ g.geometry = d.2 := by
  rw [drawings, List.mem_map]
  refine ⟨fun h => ?_, fun h => ?_⟩
  · obtain ⟨p, hp, rfl⟩ := h
    exact ⟨p.2, hp, rfl⟩
  · obtain ⟨g, hg, hd⟩ := h
    exact ⟨(d.1, g), hg, Prod.ext rfl hd⟩

variable [Scalar α] [Stored β α]

/-- Every stored gesture has an instance that was extracted under the policy in force. -/
def Library.Current (l : Library β) : Prop :=
  ∀ p ∈ l.entries.pairs, ∃ i ∈ l.learner.instances, Extracted l.policy p i

theorem InStep.current {since : Int → Policy} {l : Library β}
    (h : InStep since l.entries l.learner)
    (hsince : ∀ g ∈ l.entries.gestures, since g.id = l.policy) : l.Current := by
  intro p hp
  obtain ⟨i, hi, hext⟩ := h.learned p hp
  rw [hsince p.2 (Entries.mem_gestures_of_pair hp)] at hext
  exact ⟨i, hi, hext⟩

/-- There are no instances but those of stored gestures under the policy in force. -/
theorem InStep.owned_current {since : Int → Policy} {l : Library β}
    (h : InStep since l.entries l.learner) (hcurrent : l.Current) :
    ∀ i ∈ l.learner.instances, ∃ p ∈ l.entries.pairs, Extracted l.policy p i := by
  intro i hi
  obtain ⟨p, hp, hext⟩ := h.owned i hi
  obtain ⟨j, hj, hnow⟩ := hcurrent p hp
  have hij : j = i :=
    List.inj_on_of_nodup_map h.keyed hj hi (hnow.id_eq.trans hext.id_eq.symm)
  rw [hij] at hnow
  exact ⟨p, hp, hnow⟩

namespace Library

/-- Recognizing extracts the gesture and ranks the labels for it. -/
theorem recognize_fst (l : Library β) (g : Gesture) :
    (l.recognize g).1 = (Instance.extract l.policy none g).bind fun i : Instance β =>
      l.learner.classify ⟨i.sequence, i.vector.map Stored.fetch, i.orientation⟩ := by
  unfold recognize
  split
  · rename_i e watch hext
    rw [extract_eq hext]
    rfl
  · rename_i i watch hext
    rw [extract_eq hext]
    exact Watch.stage_fst watch classificationStage _

/-- A query can be measured against every instance. -/
theorem mismatch?_labelled {since : Int → Policy} {l : Library β}
    (h : InStep since l.entries l.learner) (hcurrent : l.Current) {g : Gesture} {i : Instance β}
    (hext : Instance.extract l.policy none g = .ok i) :
    ∀ e ∈ l.learner.labelled,
      Learner.mismatch? (⟨i.sequence, i.vector.map Stored.fetch, i.orientation⟩ : Query α) e.2
        = none := by
  intro e he
  obtain ⟨p, -, hp⟩ := h.owned_current hcurrent e.2 (Learner.mem_labelled.mp he).1
  exact Learner.mismatch?_eq_none hext hp

/-- A label has no weights that it does not have in a library with the same drawings. -/
theorem weights_subset {since : Int → Policy} {l l' : Library β}
    (h : InStep since l.entries l.learner) (hcurrent : l.Current) (hcurrent' : l'.Current)
    (hpolicy : l.policy = l'.policy) (hdrawings : ∀ d ∈ l.entries.drawings, d ∈ l'.entries.drawings)
    (q : Query α) :
    ∀ w ∈ l.learner.labelled.map (fun e => (e.1, Learner.weightOf q e.2)),
      w ∈ l'.learner.labelled.map fun e => (e.1, Learner.weightOf q e.2) := by
  intro w hw
  obtain ⟨⟨name, i⟩, he, rfl⟩ := List.mem_map.mp hw
  obtain ⟨hi, hlabel⟩ := Learner.mem_labelled.mp he
  obtain ⟨p, hp, hext⟩ := h.owned_current hcurrent i hi
  have hname : p.1 = name := Option.some.inj (hext.label_eq.symm.trans hlabel)
  have hd : (p.1, p.2.geometry) ∈ l.entries.drawings := Entries.mem_drawings.mpr ⟨p.2, hp, rfl⟩
  obtain ⟨g, hg, hgeometry⟩ := Entries.mem_drawings.mp (hdrawings _ hd)
  obtain ⟨j, hj, hjext⟩ := hcurrent' _ hg
  -- Both instances come from the same drawing, so they have the same vector.
  have hsame := Instance.extract_geometry hext hgeometry.symm (some p.1)
  rw [hpolicy] at hsame
  obtain rfl : { i with label := some p.1, id := g.id } = j :=
    Except.ok.inj (hsame.symm.trans hjext)
  rw [List.mem_map]
  exact ⟨(p.1, _), Learner.mem_labelled.mpr ⟨hj, rfl⟩, Prod.ext hname rfl⟩

/-- What can be extracted is recognized. -/
theorem exists_recognize {since : Int → Policy} {l : Library β}
    (h : InStep since l.entries l.learner) (hcurrent : l.Current) {g : Gesture} {i : Instance β}
    (hext : Instance.extract l.policy none g = .ok i) : ∃ ps, (l.recognize g).1 = .ok ps := by
  rw [recognize_fst, hext]
  exact ⟨_, Learner.classify_eq_ok (mismatch?_labelled h hcurrent hext)⟩

variable [Scalar.Ordered α]

/-- Libraries in step that hold the same drawings under the same policy recognize the same. -/
theorem recognize_eq {since since' : Int → Policy} {l l' : Library β}
    (h : InStep since l.entries l.learner) (h' : InStep since' l'.entries l'.learner)
    (hcurrent : l.Current) (hcurrent' : l'.Current) (hpolicy : l.policy = l'.policy)
    (hdrawings : ∀ d, d ∈ l.entries.drawings ↔ d ∈ l'.entries.drawings) (g : Gesture) :
    (l.recognize g).1 = (l'.recognize g).1 := by
  rw [recognize_fst, recognize_fst, ← hpolicy]
  cases hext : (Instance.extract l.policy none g : Except Fault (Instance β)) with
  | error e => rfl
  | ok i =>
      have hext' := hext
      rw [hpolicy] at hext'
      refine Learner.classify_eq (mismatch?_labelled h hcurrent hext)
        (mismatch?_labelled h' hcurrent' hext') fun w => ⟨?_, ?_⟩
      · exact weights_subset h hcurrent hcurrent' hpolicy (fun d => (hdrawings d).mp) _ w
      · exact weights_subset h' hcurrent' hcurrent hpolicy.symm (fun d => (hdrawings d).mpr) _ w

end Library

/--
**Recognition does not depend on how a library came to be.**

Take any two runs that lead to the same policy, with every instance extracted under
it, and to the same drawings under the same names.  Whatever is to be recognized, both
libraries answer the same: the same names with the same scores in the same order.
They do answer, unless the gesture itself cannot be extracted.
-/
theorem recognition_forgets_history [Scalar.Ordered α] (location location' : Location)
    (policy policy' : Policy) (profiler profiler' : Option (Profiler Float)) (disk disk' : Disk)
    (events events' : List Event) :
    let w : Workspace β := (Workspace.start location policy profiler disk).play events
    let w' : Workspace β := (Workspace.start location' policy' profiler' disk').play events'
    w.library.policy = w'.library.policy → w.library.Current → w'.library.Current →
    (∀ d, d ∈ w.library.entries.drawings ↔ d ∈ w'.library.entries.drawings) →
    ∀ g : Gesture,
      (w.perform (.recognize g)).1.outcome = (w'.perform (.recognize g)).1.outcome ∧
        (g.strokes ≠ [] → (w.library.policy.sequence = .sensitive → g.strokes.length = 1) →
          ∃ ps, (w.perform (.recognize g)).1.outcome = .ok (.predictions ps)) := by
  intro w w' hpolicy hcurrent hcurrent' hdrawings g
  have h := Workspace.play_inStep (β := β) location policy profiler disk events
  have h' := Workspace.play_inStep (β := β) location' policy' profiler' disk' events'
  refine ⟨?_, fun hstrokes hsingle => ?_⟩
  · have hsame := Library.recognize_eq h h' hcurrent hcurrent' hpolicy hdrawings g
    exact congrArg (Except.map Answer.predictions) hsame
  · obtain ⟨i, hext⟩ := Instance.exists_extract_iff (β := β).mpr ⟨hstrokes, hsingle⟩
    obtain ⟨ps, hps⟩ := Library.exists_recognize h hcurrent hext
    exact ⟨ps, congrArg (Except.map Answer.predictions) hps⟩

/-- Adding a gesture of a single point under a name. -/
def Event.draws (name : String) (id : Int) : Event :=
  .operate (.add (.text (Text.of name)) (.dot id))

/-- A dot kept twice, and the same dot kept once after another entry has come and gone. -/
theorem dots_rank_alike :
    let start : Workspace Single := .start ⟨1, [Text.of "s"]⟩ ⟨.invariant, none⟩ none .blank
    let w := start.play [.draws "a" 1, .draws "a" 2]
    let w' := start.play
      [.draws "b" 1, .draws "a" 5, .operate (.removeEntry (.text (Text.of "b")))]
    ∃ ps, (w.perform (.recognize (.dot 9))).1.outcome = .ok (.predictions ps) ∧
      (w'.perform (.recognize (.dot 9))).1.outcome = .ok (.predictions ps) := by
  intro start w w'
  have hpolicy : w.library.policy = ⟨.invariant, none⟩ := rfl
  have hpolicy' : w'.library.policy = ⟨.invariant, none⟩ := rfl
  have hcurrent : w.library.Current := by
    refine (Workspace.play_inStep _ _ _ _ _).current fun g hg => ?_
    have hgestures : w.library.entries.gestures = [.dot 1, .dot 2] := rfl
    have hg : g ∈ [Gesture.dot 1, Gesture.dot 2] := hgestures ▸ hg
    rw [List.mem_cons, List.mem_singleton] at hg
    rcases hg with rfl | rfl <;> rfl
  have hcurrent' : w'.library.Current := by
    refine (Workspace.play_inStep _ _ _ _ _).current fun g hg => ?_
    have hgestures : w'.library.entries.gestures = [.dot 5] := rfl
    obtain rfl := List.mem_singleton.mp (hgestures ▸ hg)
    rfl
  have hdrawings : ∀ d, d ∈ w.library.entries.drawings ↔ d ∈ w'.library.entries.drawings := by
    have hw : w.library.entries.drawings
      = [(Text.of "a", [[(⟨0⟩, ⟨0⟩)]]), (Text.of "a", [[(⟨0⟩, ⟨0⟩)]])] := rfl
    have hw' : w'.library.entries.drawings = [(Text.of "a", [[(⟨0⟩, ⟨0⟩)]])] := rfl
    intro d
    rw [hw, hw', List.mem_cons, List.mem_singleton, or_self]
  have h := recognition_forgets_history (β := Single) ⟨1, [Text.of "s"]⟩ ⟨1, [Text.of "s"]⟩
    ⟨.invariant, none⟩ ⟨.invariant, none⟩ none none .blank .blank [.draws "a" 1, .draws "a" 2]
    [.draws "b" 1, .draws "a" 5, .operate (.removeEntry (.text (Text.of "b")))]
    (hpolicy.trans hpolicy'.symm) hcurrent hcurrent' hdrawings (.dot 9)
  have hanswered := h.2 (List.cons_ne_nil _ _) fun _ => rfl
  dsimp only [w, w', start]
  exact hanswered.imp fun ps hps => ⟨hps, h.1.symm.trans hps⟩

end GestureStore
