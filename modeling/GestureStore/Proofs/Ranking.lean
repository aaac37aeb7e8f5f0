/-
What a ranking depends on.

Weights come in the order of the instances, and the same weight may come more than
once.  The scores that are kept while they come (`Scores`) do not show either: what
stands in the end is, for each label, its greatest weight above zero
(`mem_best_iff`), so it depends on which weights came and on nothing else.  Sorting
then leaves no choice, as labels are distinct and decide between equal scores.

Weights that are no number never stand: nothing compares with them.
-/
import GestureStore.Learner
import GestureStore.Proofs.Number.Order
import Mathlib.Data.List.Nodup

namespace GestureStore

/-! ### Texts in order -/

namespace Text

theorem cons_le_cons_iff {a b : CodePoint} {t u : Text} :
    le (a :: t) (b :: u) = true ↔ a < b ∨ a = b ∧ le t u = true := by
  rw [le, Bool.or_eq_true, Bool.and_eq_true, decide_eq_true_iff, beq_iff_eq, Fin.lt_def,
    Fin.ext_iff]

theorem le_total : ∀ t u : Text, le t u = true ∨ le u t = true := by
  intro t
  induction t with
  | nil => exact fun u => Or.inl rfl
  | cons a t ih =>
      intro u
      cases u with
      | nil => exact Or.inr rfl
      | cons b u =>
          rw [cons_le_cons_iff, cons_le_cons_iff]
          rcases Nat.lt_trichotomy a b with hlt | heq | hgt
          · exact Or.inl (Or.inl hlt)
          · obtain rfl : a = b := Fin.ext heq
            exact (ih u).imp (fun h => Or.inr ⟨rfl, h⟩) fun h => Or.inr ⟨rfl, h⟩
          · exact Or.inr (Or.inl hgt)

theorem le_trans : ∀ {t u v : Text}, le t u = true → le u v = true → le t v = true := by
  intro t
  induction t with
  | nil => exact fun _ _ => rfl
  | cons a t ih =>
      intro u v htu huv
      cases u with
      | nil => cases htu
      | cons b u =>
          cases v with
          | nil => cases huv
          | cons c v =>
              rw [cons_le_cons_iff] at htu huv ⊢
              rcases htu with hab | ⟨rfl, htu⟩
              · rcases huv with hbc | ⟨rfl, -⟩
                · exact Or.inl (Nat.lt_trans hab hbc)
                · exact Or.inl hab
              · exact huv.imp_right fun huv => ⟨huv.1, ih htu huv.2⟩

theorem le_antisymm : ∀ {t u : Text}, le t u = true → le u t = true → t = u := by
  intro t
  induction t with
  | nil =>
      intro u _ hut
      cases u with
      | nil => rfl
      | cons b u => cases hut
  | cons a t ih =>
      intro u htu hut
      cases u with
      | nil => cases htu
      | cons b u =>
          rw [cons_le_cons_iff] at htu hut
          rcases htu with hab | ⟨rfl, htu⟩
          · rcases hut with hba | ⟨rfl, -⟩
            · exact absurd hab (Nat.lt_asymm hba)
            · exact absurd hab (Nat.lt_irrefl _)
          · rw [ih htu (hut.resolve_left (Nat.lt_irrefl _)).2]

end Text

namespace Learner

variable [Scalar α]

/-! ### The greatest weights -/

/-- A prediction with the greatest weight of its label, and that above zero. -/
structure Greatest (ws : List (Text × α)) (p : Prediction α) : Prop where
  /-- It is a weight of the label. -/
  weighed : (p.name, p.score) ∈ ws
  /-- It is above zero. -/
  positive : Scalar.lt Scalar.zero p.score = true
  /-- No weight of the label is greater. -/
  bound : ∀ w ∈ ws, w.1 = p.name → Scalar.lt p.score w.2 = false

/-- Scores that were kept while weights came. -/
structure Scores (ws : List (Text × α)) (ps : List (Prediction α)) : Prop where
  /-- No label has two scores. -/
  names : (ps.map Prediction.name).Nodup
  /-- Scores are weights of their labels. -/
  weighed : ∀ p ∈ ps, (p.name, p.score) ∈ ws
  /-- Scores are above zero. -/
  positive : ∀ p ∈ ps, Scalar.lt Scalar.zero p.score = true
  /-- The label of a weight above zero has a score, and the weight is no greater. -/
  bound : ∀ w ∈ ws, Scalar.lt Scalar.zero w.2 = true →
    ∃ p ∈ ps, p.name = w.1 ∧ Scalar.lt p.score w.2 = false

theorem scores_nil : Scores ([] : List (Text × α)) [] where
  names := List.nodup_nil
  weighed := by simp
  positive := by simp
  bound := by simp

/-- A label without a score gets one last, if the weight is above zero. -/
theorem raise_of_notMem {name : Text} {w : α} {ps : List (Prediction α)}
    (h : name ∉ ps.map Prediction.name) :
    raise name w ps = if Scalar.lt Scalar.zero w then ps ++ [⟨name, w⟩] else ps := by
  induction ps with
  | nil => rfl
  | cons p rest ih =>
      rw [List.map_cons, List.mem_cons, not_or] at h
      have hne : ¬ (p.name == name) = true := by simpa using Ne.symm h.1
      rw [raise, if_neg hne, ih h.2]
      split <;> rfl

/-- A label with a score has the weight for it, if that is greater. -/
theorem raise_middle {w : α} {before : List (Prediction α)} {p : Prediction α}
    (h : p.name ∉ before.map Prediction.name) (after : List (Prediction α)) :
    raise p.name w (before ++ p :: after)
      = before ++ (if Scalar.lt p.score w then ⟨p.name, w⟩ else p) :: after := by
  induction before with
  | nil =>
      rw [List.nil_append, raise, if_pos (beq_self_eq_true p.name)]
      split <;> rfl
  | cons q rest ih =>
      rw [List.map_cons, List.mem_cons, not_or] at h
      have hne : ¬ (q.name == p.name) = true := by simpa using Ne.symm h.1
      rw [List.cons_append, raise, if_neg hne, ih h.2, List.cons_append]

/-- A weight that its label has a score against changes nothing. -/
theorem Scores.skip {ws : List (Text × α)} {ps : List (Prediction α)} (h : Scores ws ps)
    {w : Text × α} (hbound : Scalar.lt Scalar.zero w.2 = true →
      ∃ p ∈ ps, p.name = w.1 ∧ Scalar.lt p.score w.2 = false) : Scores (ws ++ [w]) ps where
  names := h.names
  weighed p hp := List.mem_append_left _ (h.weighed p hp)
  positive := h.positive
  bound := by
    intro v hv hpos
    rw [List.mem_append, List.mem_singleton] at hv
    rcases hv with hv | rfl
    · exact h.bound v hv hpos
    · exact hbound hpos

variable [Scalar.Ordered α]

/-- The first weight of a label becomes its score. -/
theorem Scores.append {ws : List (Text × α)} {ps : List (Prediction α)} (h : Scores ws ps)
    {w : Text × α} (hmem : w.1 ∉ ps.map Prediction.name)
    (hpositive : Scalar.lt Scalar.zero w.2 = true) :
    Scores (ws ++ [w]) (ps ++ [⟨w.1, w.2⟩]) where
  names := by
    rw [List.map_append, List.map_singleton, List.nodup_append]
    refine ⟨h.names, List.nodup_singleton _, ?_⟩
    intro a ha b hb hab
    rw [List.mem_singleton.mp hb] at hab
    rw [hab] at ha
    exact hmem ha
  weighed := by
    intro q hq
    rw [List.mem_append, List.mem_singleton] at hq ⊢
    rcases hq with hq | rfl
    · exact Or.inl (h.weighed q hq)
    · exact Or.inr rfl
  positive := by
    intro q hq
    rw [List.mem_append, List.mem_singleton] at hq
    rcases hq with hq | rfl
    · exact h.positive q hq
    · exact hpositive
  bound := by
    intro v hv hpos
    rw [List.mem_append, List.mem_singleton] at hv
    rcases hv with hv | rfl
    · obtain ⟨q, hq, hbound⟩ := h.bound v hv hpos
      exact ⟨q, List.mem_append_left _ hq, hbound⟩
    · exact ⟨⟨v.1, v.2⟩, by simp, rfl, Scalar.Ordered.irrefl v.2⟩

/-- A weight greater than the score of its label takes its place. -/
theorem Scores.replace {ws : List (Text × α)} {before after : List (Prediction α)}
    {p : Prediction α} (h : Scores ws (before ++ p :: after)) {w : α}
    (hlt : Scalar.lt p.score w = true) :
    Scores (ws ++ [(p.name, w)]) (before ++ ⟨p.name, w⟩ :: after) where
  names := by
    have hnames := h.names
    rw [List.map_append, List.map_cons] at hnames ⊢
    exact hnames
  weighed := by
    intro q hq
    rw [List.mem_append, List.mem_cons] at hq
    rw [List.mem_append, List.mem_singleton]
    rcases hq with hq | rfl | hq
    · exact Or.inl (h.weighed q (by simp [hq]))
    · exact Or.inr rfl
    · exact Or.inl (h.weighed q (by simp [hq]))
  positive := by
    intro q hq
    rw [List.mem_append, List.mem_cons] at hq
    rcases hq with hq | rfl | hq
    · exact h.positive q (by simp [hq])
    · exact Scalar.Ordered.trans (h.positive p (by simp)) hlt
    · exact h.positive q (by simp [hq])
  bound := by
    intro v hv hpos
    rw [List.mem_append, List.mem_singleton] at hv
    rcases hv with hv | rfl
    · obtain ⟨q, hq, hname, hbound⟩ := h.bound v hv hpos
      rw [List.mem_append, List.mem_cons] at hq
      rcases hq with hq | rfl | hq
      · exact ⟨q, by simp [hq], hname, hbound⟩
      · -- What the old score was no less than, the new one is no less than either.
        refine ⟨⟨q.name, w⟩, by simp, hname, ?_⟩
        rw [Bool.eq_false_iff] at hbound ⊢
        exact fun hwv => hbound (Scalar.Ordered.trans hlt hwv)
      · exact ⟨q, by simp [hq], hname, hbound⟩
    · exact ⟨⟨p.name, w⟩, by simp, rfl, Scalar.Ordered.irrefl w⟩

theorem Scores.raise {ws : List (Text × α)} {ps : List (Prediction α)} (h : Scores ws ps)
    (w : Text × α) : Scores (ws ++ [w]) (raise w.1 w.2 ps) := by
  obtain ⟨name, w⟩ := w
  by_cases hmem : name ∈ ps.map Prediction.name
  · obtain ⟨p, hp, rfl⟩ := List.mem_map.mp hmem
    obtain ⟨before, after, rfl⟩ := List.append_of_mem hp
    have hnames := h.names
    rw [List.map_append, List.map_cons, List.nodup_middle, List.nodup_cons, List.mem_append,
      not_or] at hnames
    rw [raise_middle hnames.1.1]
    by_cases hlt : Scalar.lt p.score w = true
    · rw [if_pos hlt]
      exact h.replace hlt
    · rw [if_neg hlt]
      exact h.skip fun _ => ⟨p, hp, rfl, Bool.eq_false_iff.mpr hlt⟩
  · rw [raise_of_notMem hmem]
    by_cases hpositive : Scalar.lt Scalar.zero w = true
    · rw [if_pos hpositive]
      exact h.append hmem hpositive
    · rw [if_neg hpositive]
      exact h.skip fun hpos => absurd hpos hpositive

theorem scores_best (ws : List (Text × α)) : Scores ws (best ws) := by
  have hfold : ∀ (later earlier : List (Text × α)) (ps : List (Prediction α)),
      Scores earlier ps →
      Scores (earlier ++ later)
        (later.foldl (fun scores w => Learner.raise w.1 w.2 scores) ps) := by
    intro later
    induction later with
    | nil =>
        intro earlier ps h
        rw [List.append_nil]
        exact h
    | cons w rest ih =>
        intro earlier ps h
        have hrest := ih _ _ (h.raise w)
        rw [List.append_assoc, List.singleton_append] at hrest
        exact hrest
  exact hfold ws [] [] scores_nil

theorem Scores.mem_iff {ws : List (Text × α)} {ps : List (Prediction α)} (h : Scores ws ps)
    {p : Prediction α} : p ∈ ps ↔ Greatest ws p := by
  refine ⟨fun hp => ⟨h.weighed p hp, h.positive p hp, ?_⟩, fun hp => ?_⟩
  · intro w hw hname
    rw [Bool.eq_false_iff]
    intro hlt
    obtain ⟨q, hq, hqname, hbound⟩ :=
      h.bound w hw (Scalar.Ordered.trans (h.positive p hp) hlt)
    have hqp : q = p := List.inj_on_of_nodup_map h.names hq hp (hqname.trans hname)
    rw [hqp, hlt] at hbound
    simp at hbound
  · obtain ⟨q, hq, hname, hbound⟩ := h.bound _ hp.weighed hp.positive
    have hle := hp.bound _ (h.weighed q hq) hname
    have hscore : q.score = p.score :=
      Scalar.Ordered.trichotomy (h.positive q hq) hp.positive hbound hle
    obtain ⟨name, score⟩ := p
    obtain ⟨name', score'⟩ := q
    simp only at hname hscore
    rw [← hname, ← hscore]
    exact hq

/-- **What stands in the end is the greatest weight of each label.** -/
theorem mem_best_iff {ws : List (Text × α)} {p : Prediction α} :
    p ∈ best ws ↔ Greatest ws p := (scores_best ws).mem_iff

/-- Which weights come is all that counts, not in what order or how often. -/
theorem best_perm {ws ws' : List (Text × α)} (h : ∀ w, w ∈ ws ↔ w ∈ ws') :
    (best ws).Perm (best ws') := by
  have hnodup : (best ws).Nodup := List.Nodup.of_map _ (scores_best ws).names
  have hnodup' : (best ws').Nodup := List.Nodup.of_map _ (scores_best ws').names
  rw [List.perm_ext_iff_of_nodup hnodup hnodup']
  intro p
  rw [mem_best_iff, mem_best_iff]
  refine ⟨fun hp => ?_, fun hp => ?_⟩
  · exact ⟨(h _).mp hp.weighed, hp.positive, fun w hw => hp.bound w ((h w).mpr hw)⟩
  · exact ⟨(h _).mpr hp.weighed, hp.positive, fun w hw => hp.bound w ((h w).mp hw)⟩

/-! ### The order of ranks -/

/-- Predictions whose scores are above zero. -/
abbrev Standing (α : Type) [Scalar α] : Type :=
  { p : Prediction α // Scalar.lt Scalar.zero p.score = true }

theorem ranks_eq_true_iff {p q : Standing α} :
    ranks p.1 q.1 = true ↔
      Scalar.lt q.1.score p.1.score = true ∨
        p.1.score = q.1.score ∧ Text.le p.1.name q.1.name = true := by
  unfold ranks
  by_cases hqp : Scalar.lt q.1.score p.1.score = true
  · simp [hqp]
  · by_cases hpq : Scalar.lt p.1.score q.1.score = true
    · have hne : p.1.score ≠ q.1.score := by
        intro heq
        rw [heq, Scalar.Ordered.irrefl] at hpq
        simp at hpq
      simp [hqp, hpq, hne]
    · have heq : p.1.score = q.1.score :=
        Scalar.Ordered.trichotomy p.2 q.2 (Bool.eq_false_iff.mpr hpq) (Bool.eq_false_iff.mpr hqp)
      simp [heq, Scalar.Ordered.irrefl]

theorem ranks_total (p q : Standing α) : (ranks p.1 q.1 || ranks q.1 p.1) = true := by
  rw [Bool.or_eq_true, ranks_eq_true_iff, ranks_eq_true_iff]
  by_cases hqp : Scalar.lt q.1.score p.1.score = true
  · exact Or.inl (Or.inl hqp)
  · by_cases hpq : Scalar.lt p.1.score q.1.score = true
    · exact Or.inr (Or.inl hpq)
    · have heq : p.1.score = q.1.score :=
        Scalar.Ordered.trichotomy p.2 q.2 (Bool.eq_false_iff.mpr hpq) (Bool.eq_false_iff.mpr hqp)
      rcases Text.le_total p.1.name q.1.name with hle | hle
      · exact Or.inl (Or.inr ⟨heq, hle⟩)
      · exact Or.inr (Or.inr ⟨heq.symm, hle⟩)

theorem ranks_trans (p q r : Standing α) (hpq : ranks p.1 q.1 = true)
    (hqr : ranks q.1 r.1 = true) : ranks p.1 r.1 = true := by
  rw [ranks_eq_true_iff] at hpq hqr ⊢
  rcases hpq with hpq | ⟨hpq, hnames⟩
  · rcases hqr with hqr | ⟨hqr, -⟩
    · exact Or.inl (Scalar.Ordered.trans hqr hpq)
    · exact Or.inl (hqr ▸ hpq)
  · rcases hqr with hqr | ⟨hqr, hnames'⟩
    · exact Or.inl (hpq ▸ hqr)
    · exact Or.inr ⟨hpq.trans hqr, Text.le_trans hnames hnames'⟩

theorem ranks_antisymm {p q : Standing α} (hpq : ranks p.1 q.1 = true)
    (hqp : ranks q.1 p.1 = true) : p = q := by
  rw [ranks_eq_true_iff] at hpq hqp
  rcases hpq with hpq | ⟨hscore, hname⟩
  · rcases hqp with hqp | ⟨hscore, -⟩
    · exact absurd hqp (Scalar.Ordered.asymm hpq)
    · rw [hscore, Scalar.Ordered.irrefl] at hpq
      simp at hpq
  · rcases hqp with hqp | ⟨-, hname'⟩
    · rw [hscore, Scalar.Ordered.irrefl] at hqp
      simp at hqp
    · obtain ⟨⟨n, s⟩, hp⟩ := p
      obtain ⟨⟨n', s'⟩, hq⟩ := q
      obtain rfl : n = n' := Text.le_antisymm hname hname'
      obtain rfl : s = s' := hscore
      rfl

omit [Scalar.Ordered α] in
/-- Predictions are sorted in the same way with what is known of their scores and without it. -/
theorem map_val_mergeSort {ps : List (Prediction α)}
    (h : ∀ p ∈ ps, Scalar.lt Scalar.zero p.score = true) :
    ((ps.pmap Subtype.mk h : List (Standing α)).mergeSort fun p q => ranks p.1 q.1).map Subtype.val
      = ps.mergeSort ranks := by
  rw [List.map_mergeSort (s := ranks) fun _ _ _ _ => rfl, List.map_pmap, List.pmap_eq_map,
    List.map_id']

/-- Of predictions above zero, none stands before one that it may not stand before. -/
theorem pairwise_mergeSort_ranks {ps : List (Prediction α)}
    (h : ∀ p ∈ ps, Scalar.lt Scalar.zero p.score = true) :
    (ps.mergeSort ranks).Pairwise fun p q => ranks p q = true := by
  rw [← map_val_mergeSort h, List.pairwise_map]
  exact List.pairwise_mergeSort ranks_trans ranks_total _

/-- Predictions above zero are sorted in one way only. -/
theorem mergeSort_ranks_eq {ps qs : List (Prediction α)}
    (hpositive : ∀ p ∈ ps, Scalar.lt Scalar.zero p.score = true) (hperm : ps.Perm qs) :
    ps.mergeSort ranks = qs.mergeSort ranks := by
  have hsorted : ∀ xs ys : List (Standing α), xs.Perm ys →
      xs.mergeSort (fun p q => ranks p.1 q.1) = ys.mergeSort (fun p q => ranks p.1 q.1) := by
    intro xs ys hxy
    refine List.Perm.eq_of_pairwise (fun a b _ _ => ranks_antisymm)
      (List.pairwise_mergeSort ranks_trans ranks_total xs)
      (List.pairwise_mergeSort ranks_trans ranks_total ys) ?_
    exact (List.mergeSort_perm xs _).trans (hxy.trans (List.mergeSort_perm ys _).symm)
  have hpositive' : ∀ q ∈ qs, Scalar.lt Scalar.zero q.score = true :=
    fun q hq => hpositive q (hperm.mem_iff.mpr hq)
  rw [← map_val_mergeSort hpositive, ← map_val_mergeSort hpositive',
    hsorted _ _ (hperm.pmap Subtype.mk)]

end Learner

/-! ### Classifying -/

namespace Learner

variable [Scalar α] [Stored β α]

theorem classify_eq_ok {l : Learner β} {q : Query α}
    (h : ∀ e ∈ l.labelled, mismatch? q e.2 = none) :
    l.classify q
      = .ok ((best (l.labelled.map fun e => (e.1, weightOf q e.2))).mergeSort ranks) := by
  unfold classify
  rw [List.findSome?_eq_none_iff.mpr h]

/-- **Learners with the same weights for the same labels rank alike.** -/
theorem classify_eq [Scalar.Ordered α] {l l' : Learner β} {q : Query α}
    (hl : ∀ e ∈ l.labelled, mismatch? q e.2 = none)
    (hl' : ∀ e ∈ l'.labelled, mismatch? q e.2 = none)
    (h : ∀ w, w ∈ l.labelled.map (fun e => (e.1, weightOf q e.2)) ↔
      w ∈ l'.labelled.map fun e => (e.1, weightOf q e.2)) :
    l.classify q = l'.classify q := by
  rw [classify_eq_ok hl, classify_eq_ok hl']
  exact congrArg Except.ok (mergeSort_ranks_eq (scores_best _).positive (best_perm h))

end Learner
end GestureStore
