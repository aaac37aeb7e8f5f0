/-
What classifying answers, for every learner and every query.

The answer rests on the weights that count: for each label, those above zero that its
instances have (`Weighs`).  What a weight is, and how far two vectors are apart (`Apart`),
is written out there and not taken from what computes it.  What has to stand in a ranking
for given weights is said by `Answers`, without the fold that keeps the best and without
the sort, and it leaves no choice (`Answers.unique`).  So classifying refuses exactly if
some labelled instance was extracted in another way than the query, and gives the one
ranking that answers if not (`classify_eq_ok_iff`).

Whatever the weights do not show cannot show in the ranking either: the order of the
instances, how often a weight comes, and everything about instances without a label.
Distances that are infinite or no number need no case of their own.  They come to a
weight of zero, or to one that nothing compares with, and neither is above zero.
-/
import GestureStore.Proofs.Learner
import GestureStore.Proofs.Ranking

namespace GestureStore

/-- The order of texts is that of lists of code points. -/
theorem Text.le_iff_lt_or_eq {t u : Text} : Text.le t u = true ↔ t < u ∨ t = u := by
  induction t generalizing u with
  | nil => cases u <;> simp [Text.le]
  | cons a t ih =>
      cases u with
      | nil => simp [Text.le]
      | cons b u =>
          rw [Text.cons_le_cons_iff, List.cons_lt_cons_iff, List.cons.injEq, ih]
          tauto

/-! ### What is refused -/

/-- The instance was extracted in the way that the query was, as far as the query says. -/
structure Query.Suits (q : Query α) (i : Instance β) : Prop where
  sequence : i.sequence = q.sequence
  length : i.vector.length = q.vector.length
  orientation : ∀ o, q.orientation = some o → i.orientation = some o

namespace Learner

theorem mismatch?_eq_none_iff {q : Query α} {i : Instance β} :
    mismatch? q i = none ↔ q.Suits i := by
  unfold mismatch?
  constructor
  · intro h
    by_cases hsequence : i.sequence = q.sequence
    · rw [if_neg (not_not.mpr hsequence)] at h
      by_cases hlength : i.vector.length = q.vector.length
      · rw [if_neg (not_not.mpr hlength)] at h
        refine ⟨hsequence, hlength, ?_⟩
        intro o ho
        by_cases horientation : i.orientation = some o
        · exact horientation
        · simp [ho, horientation] at h
      · simp [hlength] at h
    · simp [hsequence] at h
  · intro h
    rw [if_neg (not_not.mpr h.sequence), if_neg (not_not.mpr h.length)]
    cases ho : q.orientation with
    | none => rfl
    | some o => exact if_neg (not_not.mpr (h.orientation o ho))

/-- All labelled instances suit a query exactly if none of them is found not to. -/
theorem findSome?_mismatch?_eq_none_iff {l : Learner β} {q : Query α} :
    (l.labelled.findSome? fun e => mismatch? q e.2) = none ↔
      ∀ i ∈ l.instances, i.label ≠ none → q.Suits i := by
  simp only [List.findSome?_eq_none_iff, mismatch?_eq_none_iff]
  constructor
  · intro h i hi hlabel
    obtain ⟨name, hname⟩ := Option.ne_none_iff_exists'.mp hlabel
    exact h (name, i) (mem_labelled.mpr ⟨hi, hname⟩)
  · intro h e he
    obtain ⟨hi, hlabel⟩ := mem_labelled.mp he
    exact h e.2 hi (by simp [hlabel])

end Learner

/-! ### What an answer has to be -/

section
variable [Scalar α] [Stored β α]

/-- A prediction stands before another for its score, and at equal scores for its label. -/
def Prediction.Before (p r : Prediction α) : Prop :=
  Scalar.lt r.score p.score = true ∨ p.score = r.score ∧ p.name < r.name

namespace Learner

/-- How far two vectors are apart that were extracted under one sequence policy. -/
inductive Apart : Sequence → List α → List α → α → Prop where
  /-- Rasters: the square root of the sum of the squared differences. -/
  | rasters {v w : List α} {squares : α}
      (hsquares : squares = Scalar.sum (List.zipWith (fun x y => (x - y) * (x - y)) v w)) :
      Apart .invariant v w (Scalar.sqrt squares)
  /-- Shapes: the angle that has the sum of the products for its cosine, which is taken for one
  unless it is below one, and for minus one unless it is above that. -/
  | shapes {v w : List α} {cosine capped : α}
      (hcosine : cosine = Scalar.sum (List.zipWith (fun x y => x * y) v w))
      (hcapped : capped = if Scalar.lt cosine Scalar.one then cosine else Scalar.one) :
      Apart .sensitive v w
        (Scalar.acos (if Scalar.lt (-Scalar.one) capped then capped else -Scalar.one))

/-- An instance with the label has the weight, and the weight is above zero: it is one over the
distance from the query, or over a millionth where the distance is less. -/
def Weighs (l : Learner β) (q : Query α) (name : Text) (w : α) : Prop :=
  Scalar.lt Scalar.zero w = true ∧ ∃ i ∈ l.instances, i.label = some name ∧
    ∃ d, Apart q.sequence q.vector (i.vector.map Stored.fetch) d ∧
      w = Scalar.one / (if Scalar.lt d (Scalar.ofDecimal 1 6) then Scalar.ofDecimal 1 6 else d)

/-- What has to stand in a ranking. -/
structure Answers (l : Learner β) (q : Query α) (ps : List (Prediction α)) : Prop where
  /-- The labels that have a weight are predicted, and no others. -/
  labels : ∀ name, (∃ p ∈ ps, p.name = name) ↔ ∃ w, l.Weighs q name w
  /-- No label is predicted twice. -/
  once : (ps.map Prediction.name).Nodup
  /-- A score is a weight of its label. -/
  weighed : ∀ p ∈ ps, l.Weighs q p.name p.score
  /-- And it is the greatest of them. -/
  greatest : ∀ p ∈ ps, ∀ w, l.Weighs q p.name w → w = p.score ∨ Scalar.lt w p.score = true
  /-- High scores come first, and at equal scores early labels. -/
  ordered : ps.Pairwise Prediction.Before

omit [Stored β α] in
/-- Distances are measured as they should be. -/
theorem apart_iff {s : Sequence} {v w : List α} {d : α} : Apart s v w d ↔ d = distance s v w := by
  constructor
  · intro h
    cases h with
    | rasters hsquares =>
        rw [hsquares, distance, straightDistance, Shape.norm, List.map_zipWith]
    | shapes hcosine hcapped =>
        rw [hcapped, hcosine]
        rfl
  · intro h
    rw [h]
    cases s with
    | invariant =>
        rw [distance, straightDistance, Shape.norm, List.map_zipWith]
        exact .rasters rfl
    | sensitive => exact .shapes rfl rfl

/-- So are the weights. -/
theorem weighs_iff_exists {l : Learner β} {q : Query α} {name : Text} {w : α} :
    l.Weighs q name w ↔ Scalar.lt Scalar.zero w = true ∧
      ∃ i ∈ l.instances, i.label = some name ∧ weightOf q i = w := by
  unfold Weighs weightOf weight Scalar.greater leastDistance
  simp only [apart_iff, exists_eq_left, eq_comm]

theorem weighs_iff {l : Learner β} {q : Query α} {name : Text} {w : α} :
    l.Weighs q name w ↔ Scalar.lt Scalar.zero w = true ∧
      (name, w) ∈ l.labelled.map fun e => (e.1, weightOf q e.2) := by
  rw [weighs_iff_exists]
  refine and_congr_right fun _ => ?_
  rw [List.mem_map]
  constructor
  · intro h
    obtain ⟨i, hi, hlabel, hw⟩ := h
    exact ⟨(name, i), mem_labelled.mpr ⟨hi, hlabel⟩, Prod.ext rfl hw⟩
  · intro h
    obtain ⟨e, he, heq⟩ := h
    obtain ⟨hi, hlabel⟩ := mem_labelled.mp he
    obtain ⟨hname, hw⟩ := Prod.mk.inj heq
    exact ⟨e.2, hi, by rw [hlabel, hname], hw⟩

/-- Learners with the same weights have the same to answer. -/
theorem Answers.congr {l l' : Learner β} {q : Query α} {ps : List (Prediction α)}
    (h : l.Answers q ps) (hweighs : ∀ name w, l.Weighs q name w ↔ l'.Weighs q name w) :
    l'.Answers q ps where
  labels name := by
    rw [h.labels]
    exact exists_congr (hweighs name)
  once := h.once
  weighed p hp := (hweighs _ _).mp (h.weighed p hp)
  greatest p hp w hw := h.greatest p hp w ((hweighs _ _).mpr hw)
  ordered := h.ordered

end Learner

variable [Scalar.Ordered α]

theorem Prediction.Before.asymm {p r : Prediction α} (hpr : p.Before r) : ¬ r.Before p := by
  intro hrp
  rcases hpr with hlt | ⟨hscore, hname⟩
  · rcases hrp with hgt | ⟨hscore, -⟩
    · exact Scalar.Ordered.asymm hlt hgt
    · rw [hscore, Scalar.Ordered.irrefl] at hlt
      simp at hlt
  · rcases hrp with hgt | ⟨-, hname'⟩
    · rw [hscore, Scalar.Ordered.irrefl] at hgt
      simp at hgt
    · exact lt_asymm hname hname'

theorem Prediction.before_of_ranks {p r : Prediction α}
    (hp : Scalar.lt Scalar.zero p.score = true) (hr : Scalar.lt Scalar.zero r.score = true)
    (hname : p.name ≠ r.name) (h : Learner.ranks p r = true) : p.Before r := by
  rcases (Learner.ranks_eq_true_iff (p := ⟨p, hp⟩) (q := ⟨r, hr⟩)).mp h with hlt | ⟨hscore, hle⟩
  · exact Or.inl hlt
  · exact Or.inr ⟨hscore, (Text.le_iff_lt_or_eq.mp hle).resolve_right hname⟩

namespace Learner

/-- What is predicted is the greatest weight of a label, for every label that has one. -/
theorem Answers.mem_iff {l : Learner β} {q : Query α} {ps : List (Prediction α)}
    (h : l.Answers q ps) {p : Prediction α} :
    p ∈ ps ↔ l.Weighs q p.name p.score ∧
      ∀ w, l.Weighs q p.name w → w = p.score ∨ Scalar.lt w p.score = true := by
  refine ⟨fun hp => ⟨h.weighed p hp, h.greatest p hp⟩, ?_⟩
  intro hgreatest
  obtain ⟨hweighs, hgreatest⟩ := hgreatest
  obtain ⟨r, hr, hname⟩ := (h.labels p.name).mpr ⟨p.score, hweighs⟩
  obtain ⟨name, score⟩ := p
  obtain ⟨name', score'⟩ := r
  obtain rfl : name' = name := hname
  -- Neither of two greatest weights is less than the other.
  rcases hgreatest score' (h.weighed _ hr) with rfl | hlt
  · exact hr
  · rcases h.greatest _ hr score hweighs with rfl | hgt
    · exact hr
    · exact absurd hgt (Scalar.Ordered.asymm hlt)

/-- **There is one answer at most.** -/
theorem Answers.unique {l : Learner β} {q : Query α} {ps ps' : List (Prediction α)}
    (h : l.Answers q ps) (h' : l.Answers q ps') : ps = ps' := by
  refine List.Perm.eq_of_pairwise ?_ h.ordered h'.ordered ?_
  · intro p r _ _ hpr hrp
    exact absurd hrp hpr.asymm
  · rw [List.perm_ext_iff_of_nodup (List.Nodup.of_map _ h.once) (List.Nodup.of_map _ h'.once)]
    intro p
    rw [h.mem_iff, h'.mem_iff]

/-! ### What is answered -/

/-- **Scores that were kept while the weights came are the answer once they are sorted.** -/
theorem Scores.answers {l : Learner β} {q : Query α} {ps : List (Prediction α)}
    (h : Scores (l.labelled.map fun e => (e.1, weightOf q e.2)) ps) :
    l.Answers q (ps.mergeSort ranks) := by
  have hperm := List.mergeSort_perm ps ranks
  have honce : ((ps.mergeSort ranks).map Prediction.name).Nodup :=
    (hperm.map _).nodup_iff.mpr h.names
  have hweighed : ∀ p ∈ ps.mergeSort ranks, l.Weighs q p.name p.score := by
    intro p hp
    have hp := hperm.mem_iff.mp hp
    exact weighs_iff.mpr ⟨h.positive p hp, h.weighed p hp⟩
  refine ⟨?_, honce, hweighed, ?_, ?_⟩
  · intro name
    constructor
    · intro hname
      obtain ⟨p, hp, rfl⟩ := hname
      exact ⟨p.score, hweighed p hp⟩
    · intro hw
      obtain ⟨w, hw⟩ := hw
      obtain ⟨hpositive, hmem⟩ := weighs_iff.mp hw
      obtain ⟨p, hp, hname, -⟩ := h.bound _ hmem hpositive
      exact ⟨p, hperm.mem_iff.mpr hp, hname⟩
  · intro p hp w hw
    obtain ⟨hpositive, hmem⟩ := weighs_iff.mp hw
    have hgreatest := h.mem_iff.mp (hperm.mem_iff.mp hp)
    by_cases hlt : Scalar.lt w p.score = true
    · exact Or.inr hlt
    · exact Or.inl (Scalar.Ordered.trichotomy hpositive hgreatest.positive
        (Bool.eq_false_iff.mpr hlt) (hgreatest.bound _ hmem rfl))
  · have hnames : (ps.mergeSort ranks).Pairwise fun p r => p.name ≠ r.name :=
      List.pairwise_map.mp honce
    refine ((pairwise_mergeSort_ranks h.positive).and hnames).imp_of_mem ?_
    intro p r hp hr hpr
    exact Prediction.before_of_ranks (hweighed p hp).1 (hweighed r hr).1 hpr.2 hpr.1

/-- **A ranking is given exactly if all labelled instances suit, and it is the answer.** -/
theorem classify_eq_ok_iff {l : Learner β} {q : Query α} {ps : List (Prediction α)} :
    l.classify q = .ok ps ↔
      (∀ i ∈ l.instances, i.label ≠ none → q.Suits i) ∧ l.Answers q ps := by
  have hanswers := (scores_best (l.labelled.map fun e => (e.1, weightOf q e.2))).answers
  rw [← findSome?_mismatch?_eq_none_iff]
  unfold classify
  cases l.labelled.findSome? fun e => mismatch? q e.2 with
  | some fault => simp
  | none =>
      simp only [Except.ok.injEq, true_and]
      constructor
      · intro h
        rw [← h]
        exact hanswers
      · exact hanswers.unique

/-- The scores that are kept are the answer in any order that they may stand in. -/
theorem answers_of_best {l : Learner β} {q : Query α} {scores ps : List (Prediction α)}
    (hbest : best (l.labelled.map fun e => (e.1, weightOf q e.2)) = scores)
    (hperm : scores.Perm ps) (hranks : ps.Pairwise fun p r => ranks p r = true) :
    l.Answers q ps := by
  have hscores := scores_best (l.labelled.map fun e => (e.1, weightOf q e.2))
  have hanswers := hscores.answers
  rw [mergeSort_ranks_eq hscores.positive (hbest ▸ hperm),
    List.mergeSort_of_pairwise hranks] at hanswers
  exact hanswers

omit [Scalar.Ordered α] in
theorem classify_eq_error {l : Learner β} {q : Query α} {e : Fault}
    (h : l.classify q = .error e) :
    ∃ fault, e = .policy fault ∧ ∃ p ∈ l.labelled, mismatch? q p.2 = some fault := by
  unfold classify at h
  split at h
  · rename_i fault hfound
    cases h
    exact ⟨fault, rfl, List.exists_of_findSome?_eq_some hfound⟩
  · cases h

omit [Scalar.Ordered α] in
theorem classify_refused_iff {l : Learner β} {q : Query α} :
    (∃ fault, l.classify q = .error (.policy fault)) ↔
      ∃ p ∈ l.labelled, mismatch? q p.2 ≠ none := by
  constructor
  · intro h
    obtain ⟨fault, hfault⟩ := h
    obtain ⟨_, -, p, hp, hsome⟩ := classify_eq_error hfault
    exact ⟨p, hp, by simp [hsome]⟩
  · intro h
    obtain ⟨p, hp, hne⟩ := h
    cases hclass : l.classify q with
    | error e =>
        obtain ⟨fault, rfl, -⟩ := classify_eq_error hclass
        exact ⟨fault, rfl⟩
    | ok ps =>
        unfold classify at hclass
        split at hclass
        · cases hclass
        · rename_i hnone
          exact absurd (List.findSome?_eq_none_iff.mp hnone p hp) hne

omit [Scalar.Ordered α] in
theorem exists_classify_eq_error_iff {l : Learner β} {q : Query α} :
    (∃ fault, l.classify q = .error (.policy fault)) ↔
      ∃ i ∈ l.instances, i.label ≠ none ∧ ¬ q.Suits i := by
  rw [classify_refused_iff]
  simp only [ne_eq, mismatch?_eq_none_iff]
  constructor
  · intro h
    obtain ⟨e, he, hnot⟩ := h
    obtain ⟨hi, hlabel⟩ := mem_labelled.mp he
    exact ⟨e.2, hi, by simp [hlabel], hnot⟩
  · intro h
    obtain ⟨i, hi, hlabel, hnot⟩ := h
    obtain ⟨name, hname⟩ := Option.ne_none_iff_exists'.mp hlabel
    exact ⟨(name, i), mem_labelled.mpr ⟨hi, hname⟩, hnot⟩

/-! ### Another learner -/

omit [Scalar.Ordered α] in
/-- Instances without a label have no weight, and where an instance stands has none either. -/
theorem weighs_congr {l l' : Learner β} {q : Query α}
    (h : ∀ i : Instance β, i.label ≠ none → (i ∈ l.instances ↔ i ∈ l'.instances))
    (name : Text) (w : α) : l.Weighs q name w ↔ l'.Weighs q name w := by
  unfold Weighs
  refine and_congr_right fun _ => exists_congr fun i => ?_
  by_cases hlabel : i.label = some name
  · rw [h i (by simp [hlabel])]
  · simp [hlabel]

omit [Scalar.Ordered α] in
theorem weighs_add {l : Learner β} {q : Query α} {i : Instance β}
    (hnew : l.contains i.id = false) {name : Text} {w : α} :
    (l.add i).Weighs q name w ↔ l.Weighs q name w ∨
      Scalar.lt Scalar.zero w = true ∧ i.label = some name ∧ weightOf q i = w := by
  rw [weighs_iff_exists, weighs_iff_exists, instances_add hnew]
  simp only [List.mem_append, List.mem_singleton, or_and_right, exists_or, exists_eq_left,
    and_or_left]

omit [Scalar.Ordered α] in
/-- More weights do not lower a score. -/
theorem Answers.le_of_weighs {l l' : Learner β} {q : Query α} {ps ps' : List (Prediction α)}
    (h : l.Answers q ps) (h' : l'.Answers q ps')
    (hweighs : ∀ name w, l.Weighs q name w → l'.Weighs q name w) :
    ∀ p ∈ ps, ∃ p' ∈ ps', p'.name = p.name ∧
      (p.score = p'.score ∨ Scalar.lt p.score p'.score = true) := by
  intro p hp
  have hweighed := hweighs _ _ (h.weighed p hp)
  obtain ⟨p', hp', hname⟩ := (h'.labels p.name).mpr ⟨p.score, hweighed⟩
  rw [← hname] at hweighed
  exact ⟨p', hp', hname, h'.greatest p' hp' _ hweighed⟩

/-- A label with the same weights has the same score. -/
theorem Answers.mem_iff_mem {l l' : Learner β} {q : Query α} {ps ps' : List (Prediction α)}
    (h : l.Answers q ps) (h' : l'.Answers q ps') {p : Prediction α}
    (hweighs : ∀ w, l.Weighs q p.name w ↔ l'.Weighs q p.name w) : p ∈ ps ↔ p ∈ ps' := by
  rw [h.mem_iff, h'.mem_iff]
  simp only [hweighs]

/--
**Labels are ranked by their greatest weights.**

Nothing is predicted where nothing has a label.  A query is refused exactly if a labelled
instance has another sequence policy, a vector of another length, or another orientation
than the query asks for.  Every other query is answered: one prediction for each label
that has a weight above zero, its score the greatest of them, in strict order.  A weight
is one over the distance of an instance, or over a millionth if that is more.

So the ranking does not depend on the order of the instances or on those without a
label.  An instance that suits, of a gesture that is new, does not lower the score of its
label and changes no other score.
-/
theorem labels_are_ranked_by_greatest_weight (l : Learner β) (q : Query α) :
    ((∀ i ∈ l.instances, i.label = none) → l.classify q = .ok []) ∧
      ((∃ fault, l.classify q = .error (.policy fault)) ↔
        ∃ i ∈ l.instances, i.label ≠ none ∧ ¬ q.Suits i) ∧
      ((∀ i ∈ l.instances, i.label ≠ none → q.Suits i) →
        ∃ ps, l.classify q = .ok ps ∧ l.Answers q ps) ∧
      (∀ l' : Learner β,
        (∀ i : Instance β, i.label ≠ none → (i ∈ l.instances ↔ i ∈ l'.instances)) →
        ∀ ps, l.classify q = .ok ps ↔ l'.classify q = .ok ps) ∧
      ∀ (i : Instance β) (name : Text) (ps : List (Prediction α)), l.contains i.id = false →
        i.label = some name → q.Suits i → l.classify q = .ok ps →
        ∃ ps', (l.add i).classify q = .ok ps' ∧
          (∀ p ∈ ps, ∃ p' ∈ ps', p'.name = p.name ∧
            (p.score = p'.score ∨ Scalar.lt p.score p'.score = true)) ∧
          ∀ p : Prediction α, p.name ≠ name → (p ∈ ps ↔ p ∈ ps') := by
  have hanswered : ∀ m : Learner β, (∀ i ∈ m.instances, i.label ≠ none → q.Suits i) →
      ∃ ps, m.classify q = .ok ps ∧ m.Answers q ps := by
    intro m hsuits
    have hanswers := (scores_best (m.labelled.map fun e => (e.1, weightOf q e.2))).answers
    exact ⟨_, classify_eq_ok_iff.mpr ⟨hsuits, hanswers⟩, hanswers⟩
  refine ⟨?_, exists_classify_eq_error_iff, hanswered l, ?_, ?_⟩
  · intro hlabels
    obtain ⟨ps, hps, hanswers⟩ := hanswered l fun i hi hlabel => absurd (hlabels i hi) hlabel
    have hnil : ps = [] := by
      refine List.eq_nil_iff_forall_not_mem.mpr fun p hp => ?_
      obtain ⟨-, i, hi, hlabel, -⟩ := hanswers.weighed p hp
      rw [hlabels i hi] at hlabel
      simp at hlabel
    rw [hps, hnil]
  · intro l' hsame ps
    have hsuits : (∀ i ∈ l.instances, i.label ≠ none → q.Suits i) ↔
        ∀ i ∈ l'.instances, i.label ≠ none → q.Suits i :=
      ⟨fun h i hi hlabel => h i ((hsame i hlabel).mpr hi) hlabel,
        fun h i hi hlabel => h i ((hsame i hlabel).mp hi) hlabel⟩
    have hweighs := weighs_congr (q := q) hsame
    rw [classify_eq_ok_iff, classify_eq_ok_iff, hsuits]
    exact and_congr_right fun _ =>
      ⟨fun h => h.congr hweighs, fun h => h.congr fun name w => (hweighs name w).symm⟩
  · intro i name ps hnew hlabel hsuits hps
    obtain ⟨hall, hanswers⟩ := classify_eq_ok_iff.mp hps
    have hall' : ∀ j ∈ (l.add i).instances, j.label ≠ none → q.Suits j := by
      intro j hj hjlabel
      rw [instances_add hnew, List.mem_append, List.mem_singleton] at hj
      rcases hj with hj | rfl
      · exact hall j hj hjlabel
      · exact hsuits
    obtain ⟨ps', hps', hanswers'⟩ := hanswered (l.add i) hall'
    refine ⟨ps', hps', ?_, ?_⟩
    · exact hanswers.le_of_weighs hanswers' fun _ _ hw => (weighs_add hnew).mpr (Or.inl hw)
    · intro p hname
      refine hanswers.mem_iff_mem hanswers' fun w => ?_
      have hother : ¬ i.label = some p.name := by
        rw [hlabel, Option.some.injEq]
        exact Ne.symm hname
      simp [weighs_add hnew, hother]

end Learner
end

/-- A raster of one cell. -/
def Instance.lone (cell : Single) (name : Text) (id : Int) : Instance Single :=
  ⟨[cell], some name, id, .invariant, none⟩

/-- Labels at the distances 1 and 4 from a query are ranked by the weights 1 and 1/4, whatever
the order of the instances; one at no distance that is a number is not ranked, and an instance
without a label does not matter.  An instance at the distance 1/2 doubles the first score. -/
theorem Learner.unmeasurable_label_is_not_ranked :
    let near := Instance.lone ⟨0x3F800000⟩ (Text.of "a") 1
    let far := Instance.lone ⟨0x40800000⟩ (Text.of "c") 2
    let nowhere := Instance.lone ⟨0x7FC00000⟩ (Text.of "b") 3
    let unnamed : Instance Single := ⟨[], none, 4, .sensitive, none⟩
    let nearer := Instance.lone ⟨0x3F000000⟩ (Text.of "a") 5
    let l : Learner Single := ⟨[nowhere, far, unnamed, near]⟩
    let q : Query Float := ⟨.invariant, [0], none⟩
    l.classify q = .ok [⟨Text.of "a", 1⟩, ⟨Text.of "c", 0.25⟩] ∧
      (⟨[near, far, nowhere]⟩ : Learner Single).classify q
        = .ok [⟨Text.of "a", 1⟩, ⟨Text.of "c", 0.25⟩] ∧
      (l.add nearer).classify q = .ok [⟨Text.of "a", 2⟩, ⟨Text.of "c", 0.25⟩] := by
  intro near far nowhere unnamed nearer l q
  obtain ⟨-, -, hanswered, hreordered, hadded⟩ := labels_are_ranked_by_greatest_weight l q
  have hsuits : ∀ i ∈ l.instances, i.label ≠ none → q.Suits i := by
    simp only [l, List.forall_mem_cons]
    exact ⟨fun _ => ⟨rfl, rfl, nofun⟩, fun _ => ⟨rfl, rfl, nofun⟩, fun h => absurd rfl h,
      fun _ => ⟨rfl, rfl, nofun⟩, nofun⟩
  obtain ⟨ps, hps, hanswers⟩ := hanswered hsuits
  obtain rfl : ps = [⟨Text.of "a", 1⟩, ⟨Text.of "c", 0.25⟩] := by
    refine hanswers.unique (answers_of_best ?_ (.swap _ _ _) ?_)
    · decide +kernel
    · decide +kernel
  have hsame : ∀ i : Instance Single, i.label ≠ none →
      (i ∈ l.instances ↔ i ∈ [near, far, nowhere]) := by
    intro i hlabel
    have hi : i ≠ unnamed := by
      rintro rfl
      exact hlabel rfl
    simp only [l, List.mem_cons, List.not_mem_nil, or_false, hi, false_or]
    tauto
  obtain ⟨ps', hps', -⟩ := hadded nearer (Text.of "a") _ (by decide) rfl ⟨rfl, rfl, nofun⟩ hps
  obtain rfl : ps' = [⟨Text.of "a", 2⟩, ⟨Text.of "c", 0.25⟩] := by
    refine (classify_eq_ok_iff.mp hps').2.unique (answers_of_best ?_ (.swap _ _ _) ?_)
    · decide +kernel
    · decide +kernel
  exact ⟨hps, (hreordered _ hsame _).mp hps, hps'⟩

end GestureStore
