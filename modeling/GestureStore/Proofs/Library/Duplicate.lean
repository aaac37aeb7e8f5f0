/-
Recognizing what is stored.

A gesture that is drawn like a stored one gets the vector of the stored one, so it is
compared with an instance that is the same (`Library.exists_query`).  Rasters that are
the same are at no distance, and so are shapes, if they have been scaled; nothing weighs
more than what is at no distance, so of all that stands before the label of the stored
gesture there is an exact match, too.

Where strokes count in order there are gestures without a shape: taps, and paths that
hardly leave one place.  They are as far from themselves as from anything else.
-/
import GestureStore.Proofs.Feature.Angle
import GestureStore.Proofs.Library.Recognition

namespace GestureStore

/-! ### The greatest weight there is -/

/-- **What weighs most stands first, behind nothing but what weighs as much.** -/
theorem Learner.most_first {ws : List (Text × ℝ)} {name : Text} {most : ℝ} (hpos : 0 < most)
    (hmem : (name, most) ∈ ws) (hle : ∀ w ∈ ws, w.2 ≤ most) :
    ∃ before after, (best ws).mergeSort ranks = before ++ ⟨name, most⟩ :: after ∧
      ∀ p ∈ before, p.score = most ∧ (p.name, p.score) ∈ ws := by
  have hscores := scores_best ws
  have hgreatest : Greatest ws ⟨name, most⟩ :=
    ⟨hmem, Scalar.lt_iff.mpr (by rw [Scalar.zero_eq]; exact hpos),
      fun w hw _ => Scalar.lt_eq_false_iff.mpr (hle w hw)⟩
  have hbest : ⟨name, most⟩ ∈ (best ws).mergeSort ranks :=
    List.mem_mergeSort.mpr (mem_best_iff.mpr hgreatest)
  obtain ⟨before, after, hsplit⟩ := List.append_of_mem hbest
  refine ⟨before, after, hsplit, ?_⟩
  intro p hp
  have hranked : p ∈ (best ws).mergeSort ranks := by
    rw [hsplit]
    exact List.mem_append_left _ hp
  have hweighed := hscores.weighed p (List.mem_mergeSort.mp hranked)
  have hsorted := pairwise_mergeSort_ranks hscores.positive
  rw [hsplit, List.pairwise_append] at hsorted
  have hranks := hsorted.2.2 p hp _ (List.mem_cons_self)
  refine ⟨le_antisymm (hle _ hweighed) ?_, hweighed⟩
  by_contra hlt
  rw [ranks, if_neg, if_pos] at hranks
  · cases hranks
  · exact Scalar.lt_iff.mpr (not_le.mp hlt)
  · rw [Scalar.lt_iff]
    exact fun h => hlt h.le

/-- Two labels with the same weight stand in the order of the alphabet. -/
theorem Learner.mergeSort_best_tied {m n : Text} (hle : Text.le m n = true)
    (hne : (m == n) = false) {score : ℝ} (hpos : 0 < score) :
    (best [(m, score), (n, score)]).mergeSort ranks = [⟨m, score⟩, ⟨n, score⟩] := by
  have hlt : Scalar.lt Scalar.zero score = true :=
    Scalar.lt_iff.mpr (by rw [Scalar.zero_eq]; exact hpos)
  have hsame : Scalar.lt score score = false := Scalar.Ordered.irrefl score
  simp [best, raise, hlt, hne, List.mergeSort, List.MergeSort.Internal.splitInTwo, ranks, hsame, hle]

/-! ### Gestures with and without a shape -/

/-- Where strokes count in order, their samples extend far enough to be scaled. -/
def Gesture.Shaped (g : Gesture) (policy : Policy) : Prop :=
  policy.sequence = .sensitive → ∀ s ∈ g.strokes, 1e-12 < s.extent

section
variable {policy : Policy} {label label' : Option Text} {g g' : Gesture} {i j : Instance ℝ}

/-- What has a shape is at no distance from itself. -/
theorem Instance.distance_self (hext : extract policy label g = .ok i) (hshaped : g.Shaped policy) :
    Learner.distance i.sequence i.vector i.vector = 0 := by
  rcases extract_cases hext with ⟨-, -, rfl⟩ | ⟨hseq, s, hs, rfl⟩
  · exact Learner.straightDistance_self _
  · have hlong := hshaped hseq s (by rw [hs]; exact List.mem_singleton_self s)
    dsimp only [Learner.distance]
    rw [Stored.map_store]
    exact Learner.angle_self (Stroke.dot_shape hlong policy.orientation)

/-- What has no shape is far from everything. -/
theorem Instance.one_lt_distance (hext : extract policy label g = .ok i)
    (hext' : extract policy label' g' = .ok j) (hshapeless : ¬ g.Shaped policy) :
    1 < Learner.distance i.sequence i.vector j.vector := by
  rw [Gesture.Shaped, Classical.not_imp] at hshapeless
  obtain ⟨hseq, hshort⟩ := hshapeless
  push Not at hshort
  obtain ⟨s, hs, hle⟩ := hshort
  rcases extract_cases hext with ⟨hinvariant, -, -⟩ | ⟨-, t, ht, rfl⟩
  · rw [hseq] at hinvariant
    cases hinvariant
  rcases extract_cases hext' with ⟨hinvariant, -, -⟩ | ⟨-, u, -, rfl⟩
  · rw [hseq] at hinvariant
    cases hinvariant
  rw [ht, List.mem_singleton] at hs
  obtain rfl := hs
  dsimp only [Learner.distance]
  rw [Stored.map_store, Stored.map_store]
  exact Learner.one_lt_angle_shape hle policy.orientation

end

/-! ### Libraries -/

namespace Library

/-- A stored instance of a label is too near to a gesture to be told apart from it. -/
def Matches (l : Library ℝ) (q : Gesture) (name : Text) : Prop :=
  ∃ i j : Instance ℝ, Instance.extract l.policy none q = .ok i ∧ j ∈ l.learner.instances ∧
    j.label = some name ∧ Learner.distance i.sequence i.vector j.vector ≤ 1e-6

variable {since : Int → Policy} {l : Library ℝ}

/-- What a library answers: the weights of its labels, ranked. -/
theorem recognize_eq_ranked (h : InStep since l.entries l.learner) (hcurrent : l.Current)
    {q : Gesture} {i : Instance ℝ} (hext : Instance.extract l.policy none q = .ok i) :
    (l.recognize q).1 = .ok ((Learner.best (l.learner.labelled.map fun e =>
      (e.1, Learner.weight (Learner.distance i.sequence i.vector e.2.vector)))).mergeSort
        Learner.ranks) := by
  rw [recognize_fst, hext]
  refine (Learner.classify_eq_ok (mismatch?_labelled h hcurrent hext)).trans ?_
  simp only [Learner.weightOf, Stored.map_fetch]

/-- **What is drawn like a stored gesture is compared with an instance that is the same.** -/
theorem exists_query (hcurrent : l.Current) {name : Text} {g q : Gesture}
    (hg : (name, g) ∈ l.entries.pairs) (hdrawn : q.geometry = g.geometry) :
    ∃ i j : Instance ℝ, Instance.extract l.policy none q = .ok i ∧ j ∈ l.learner.instances ∧
      j.label = some name ∧ j.vector = i.vector := by
  obtain ⟨j, hj, hext⟩ := hcurrent _ hg
  exact ⟨_, j, Instance.extract_geometry hext hdrawn.symm none, hj, hext.label_eq, rfl⟩

/-- Where the query has a shape, the label of what it is drawn like comes first. -/
theorem recognize_shaped (h : InStep since l.entries l.learner) (hcurrent : l.Current)
    {name : Text} {g q : Gesture} (hg : (name, g) ∈ l.entries.pairs)
    (hdrawn : q.geometry = g.geometry) (hshaped : q.Shaped l.policy) :
    ∃ before after, (l.recognize q).1 = .ok (before ++ ⟨name, 10 ^ 6⟩ :: after) ∧
      ∀ p ∈ before, p.score = 10 ^ 6 ∧ l.Matches q p.name := by
  obtain ⟨i, j, hext, hj, hlabel, hsame⟩ := exists_query hcurrent hg hdrawn
  rw [recognize_eq_ranked h hcurrent hext]
  have hmem : (name, (10 ^ 6 : ℝ)) ∈ l.learner.labelled.map fun e =>
      (e.1, Learner.weight (Learner.distance i.sequence i.vector e.2.vector)) := by
    refine List.mem_map.mpr ⟨(name, j), Learner.mem_labelled.mpr ⟨hj, hlabel⟩, ?_⟩
    have hzero := Instance.distance_self hext hshaped
    rw [hsame, hzero, Learner.weight_eq_most_iff.mpr (by norm_num)]
  have hle : ∀ w ∈ l.learner.labelled.map (fun e =>
      (e.1, Learner.weight (Learner.distance i.sequence i.vector e.2.vector))), w.2 ≤ 10 ^ 6 := by
    intro w hw
    obtain ⟨e, -, rfl⟩ := List.mem_map.mp hw
    exact Learner.weight_le _
  obtain ⟨before, after, hsplit, hbefore⟩ := Learner.most_first (by norm_num) hmem hle
  refine ⟨before, after, congrArg Except.ok hsplit, ?_⟩
  intro p hp
  obtain ⟨hscore, hweighed⟩ := hbefore p hp
  obtain ⟨e, he, hpair⟩ := List.mem_map.mp hweighed
  obtain ⟨hname, hweight⟩ := Prod.mk.inj hpair
  obtain ⟨hinstance, hlabelled⟩ := Learner.mem_labelled.mp he
  rw [hscore, Learner.weight_eq_most_iff] at hweight
  exact ⟨hscore, i, e.2, hext, hinstance, by rw [hlabelled, hname], hweight⟩

/-- Where the query has none, nothing matches it. -/
theorem recognize_shapeless (h : InStep since l.entries l.learner) (hcurrent : l.Current)
    {q : Gesture} {i : Instance ℝ} (hext : Instance.extract l.policy none q = .ok i)
    (hshapeless : ¬ q.Shaped l.policy) :
    (∀ ps, (l.recognize q).1 = .ok ps → ∀ p ∈ ps, p.score < 1) ∧ ∀ name, ¬ l.Matches q name := by
  have hfar : ∀ j ∈ l.learner.instances, 1 < Learner.distance i.sequence i.vector j.vector := by
    intro j hj
    obtain ⟨p, -, hp⟩ := h.owned_current hcurrent j hj
    exact Instance.one_lt_distance hext hp hshapeless
  refine ⟨?_, ?_⟩
  · intro ps hps p hp
    rw [recognize_eq_ranked h hcurrent hext] at hps
    obtain rfl := Except.ok.inj hps
    have hweighed := (Learner.scores_best _).weighed p (List.mem_mergeSort.mp hp)
    obtain ⟨e, he, hpair⟩ := List.mem_map.mp hweighed
    rw [← (Prod.mk.inj hpair).2]
    exact Learner.weight_lt_one (hfar e.2 (Learner.mem_labelled.mp he).1)
  · intro name hmatches
    obtain ⟨i', j, hext', hj, -, hnear⟩ := hmatches
    obtain rfl := Except.ok.inj (hext.symm.trans hext')
    have := hfar j hj
    norm_num at hnear
    linarith

end Library

/-- Two dots that are stored under two names are learned under any policy. -/
theorem Workspace.two_dots_current (policy : Policy) :
    let w : Workspace ℝ := (Workspace.start ⟨1, [Text.of "s"]⟩ policy none .blank).play
      [.draws "a" 1, .draws "b" 2]
    w.library.Current ∧
      w.library.entries.pairs = [(Text.of "a", .dot 1), (Text.of "b", .dot 2)] := by
  intro w
  have hinStep := Workspace.play_inStep (β := ℝ) ⟨1, [Text.of "s"]⟩ policy none .blank
    [.draws "a" 1, .draws "b" 2]
  -- Whether strokes count in order decides which feature a dot has.
  obtain ⟨_ | _, orientation⟩ := policy
  all_goals
    refine ⟨hinStep.current ?_, rfl⟩
    rw [show w.library.entries.gestures = [.dot 1, .dot 2] from rfl]
    exact List.forall_mem_cons.mpr ⟨rfl, List.forall_mem_singleton.mpr rfl⟩

/--
**What is stored recognizes itself, if it has a shape.**

Take any run that leads to a library in which every instance was extracted under the
policy in force, and anything drawn like a stored gesture.  It is recognized.  If it has a
shape, the name of the stored gesture has the greatest score there is, and every name
before it has it as well, from an instance at no distance that counts.  If it has none, no
instance is that near to it, and no score reaches one.
-/
theorem stored_gesture_recognizes_itself (location : Location) (policy : Policy)
    (profiler : Option (Profiler Float)) (disk : Disk) (events : List Event) :
    let w : Workspace ℝ := (Workspace.start location policy profiler disk).play events
    w.library.Current → ∀ (name : Text) (g q : Gesture), (name, g) ∈ w.library.entries.pairs →
    q.geometry = g.geometry →
    ∃ ps, (w.perform (.recognize q)).1.outcome = .ok (.predictions ps) ∧
      (q.Shaped w.library.policy → ∃ before after, ps = before ++ ⟨name, 10 ^ 6⟩ :: after ∧
        ∀ p ∈ before, p.score = 10 ^ 6 ∧ w.library.Matches q p.name) ∧
      (¬ q.Shaped w.library.policy →
        (∀ p ∈ ps, p.score < 1) ∧ ∀ label, ¬ w.library.Matches q label) := by
  intro w hcurrent name g q hg hdrawn
  have h := Workspace.play_inStep (β := ℝ) location policy profiler disk events
  obtain ⟨i, j, hext, -⟩ := Library.exists_query hcurrent hg hdrawn
  obtain ⟨ps, hps⟩ := Library.exists_recognize h hcurrent hext
  refine ⟨ps, congrArg (Except.map Answer.predictions) hps, ?_, ?_⟩
  · intro hshaped
    obtain ⟨before, after, hranked, hbefore⟩ :=
      Library.recognize_shaped h hcurrent hg hdrawn hshaped
    exact ⟨before, after, Except.ok.inj (hps.symm.trans hranked), hbefore⟩
  · intro hshapeless
    obtain ⟨hscores, hnone⟩ := Library.recognize_shapeless h hcurrent hext hshapeless
    exact ⟨hscores ps hps, hnone⟩

/-- A dot that is stored under two names is recognized as both. -/
theorem stored_dot_recognizes_itself :
    let w : Workspace ℝ :=
      (Workspace.start ⟨1, [Text.of "s"]⟩ ⟨.invariant, none⟩ none .blank).play
        [.draws "a" 1, .draws "b" 2]
    ∃ ps before after, (w.perform (.recognize (.dot 9))).1.outcome = .ok (.predictions ps) ∧
      ps = before ++ ⟨Text.of "b", 10 ^ 6⟩ :: after ∧
      ∀ p ∈ before, p.score = 10 ^ 6 ∧ w.library.Matches (.dot 9) p.name := by
  intro w
  obtain ⟨hcurrent, hpairs⟩ := Workspace.two_dots_current ⟨.invariant, none⟩
  have hstored : (Text.of "b", Gesture.dot 2) ∈ w.library.entries.pairs := by
    rw [hpairs]
    simp
  obtain ⟨ps, hps, hshaped, -⟩ := stored_gesture_recognizes_itself ⟨1, [Text.of "s"]⟩
    ⟨.invariant, none⟩ none .blank [.draws "a" 1, .draws "b" 2] hcurrent _ _ (.dot 9) hstored rfl
  have hpolicy : w.library.policy = ⟨.invariant, none⟩ := rfl
  obtain ⟨before, after, hsplit, hbefore⟩ := hshaped fun hseq => by rw [hpolicy] at hseq; cases hseq
  dsimp only [w]
  exact ⟨ps, before, after, hps, hsplit, hbefore⟩

/--
Where strokes count in order, a dot that is stored under two names is an exact match for
neither; the names share a low score, and the order of the alphabet decides.
-/
theorem stored_tap_is_not_recognized :
    let w : Workspace ℝ :=
      (Workspace.start ⟨1, [Text.of "s"]⟩ ⟨.sensitive, some .sensitive⟩ none .blank).play
        [.draws "a" 1, .draws "b" 2]
    w.library.Current ∧ (Text.of "b", Gesture.dot 2) ∈ w.library.entries.pairs ∧
      (Gesture.dot 9).geometry = (Gesture.dot 2).geometry ∧
      (∃ score < 1, (w.perform (.recognize (.dot 9))).1.outcome
        = .ok (.predictions [⟨Text.of "a", score⟩, ⟨Text.of "b", score⟩])) ∧
      ∀ label, ¬ w.library.Matches (.dot 9) label := by
  intro w
  have hinStep := Workspace.play_inStep (β := ℝ) ⟨1, [Text.of "s"]⟩
    ⟨.sensitive, some .sensitive⟩ none .blank [.draws "a" 1, .draws "b" 2]
  obtain ⟨hcurrent, hpairs⟩ := Workspace.two_dots_current ⟨.sensitive, some .sensitive⟩
  have hshapeless : ¬ (Gesture.dot 9).Shaped w.library.policy := by
    intro hshaped
    have hlong := hshaped rfl _ (List.mem_singleton_self _)
    rw [Stroke.extent_of_single rfl] at hlong
    norm_num at hlong
  obtain ⟨i, hext⟩ : ∃ i : Instance ℝ, Instance.extract w.library.policy none (.dot 9) = .ok i :=
    ⟨_, rfl⟩
  have hranked := Library.recognize_eq_ranked hinStep hcurrent hext
  -- Both dots have the vector of the query, so they weigh the same.
  have hweights : w.library.learner.labelled.map (fun e =>
      (e.1, Learner.weight (Learner.distance i.sequence i.vector e.2.vector)))
      = [(Text.of "a", Learner.weight (Learner.distance i.sequence i.vector i.vector)),
        (Text.of "b", Learner.weight (Learner.distance i.sequence i.vector i.vector))] := by
    obtain rfl := Except.ok.inj hext
    rfl
  obtain ⟨hlow, hnone⟩ := Library.recognize_shapeless hinStep hcurrent hext hshapeless
  rw [hweights] at hranked
  generalize hscore : Learner.weight (Learner.distance i.sequence i.vector i.vector) = score
    at hranked
  have hpositive : 0 < score := by
    rw [← hscore, Learner.weight_eq]
    exact one_div_pos.mpr (lt_max_of_lt_right (by norm_num))
  rw [Learner.mergeSort_best_tied (by decide) (by decide) hpositive] at hranked
  refine ⟨hcurrent, by rw [hpairs]; simp, rfl, ⟨score, ?_, ?_⟩, hnone⟩
  · exact hlow _ hranked ⟨Text.of "a", score⟩ (List.mem_cons_self)
  · exact congrArg (Except.map Answer.predictions) hranked

end GestureStore
