/-
A raster shows what is drawn, over exact numbers.

Paths that have the same points and the same segments, in whichever direction they are
drawn, are sampled in the same places: where the points are, and evenly on each segment
(`mem_laid_iff`).  So they fill the same cells.  A segment that leads from a point to itself
adds nothing to the point.

The measure that decides how densely a segment is sampled has to be the same from either
end.  Nothing else is asked of it.  It measures segments on the grid and not where they
were drawn, but the grid is laid out by the points alone, so it is the same one.
-/
import GestureStore.Proofs.Feature.Raster
import Mathlib.Data.Sym.Sym2

namespace GestureStore

/-! ### Drawings -/

namespace Path

/-- The segments of a path, without their direction; those that lead nowhere are left out. -/
def links (path : List V) : Set (Sym2 V) :=
  { s | ¬ s.IsDiag ∧ ∃ a b, [a, b] <:+: path ∧ s = s(a, b) }

theorem mem_links_iff {path : List V} {a b : V} :
    s(a, b) ∈ links path ↔ a ≠ b ∧ ([a, b] <:+: path ∨ [b, a] <:+: path) := by
  unfold links
  constructor
  · rintro ⟨hne, c, d, hcd, heq⟩
    refine ⟨by simpa using hne, ?_⟩
    rcases Sym2.eq_iff.mp heq with ⟨rfl, rfl⟩ | ⟨rfl, rfl⟩
    · exact Or.inl hcd
    · exact Or.inr hcd
  · rintro ⟨hne, h | h⟩
    · exact ⟨by simpa using hne, a, b, h, rfl⟩
    · exact ⟨by simpa using hne, b, a, h, Sym2.eq_swap⟩

theorem links_reverse (path : List V) : links path.reverse = links path := by
  have hswap : ∀ a b : V, [a, b] <:+: path.reverse ↔ [b, a] <:+: path := by
    intro a b
    rw [← List.reverse_infix, List.reverse_reverse]
    rfl
  ext s
  induction s with
  | _ a b => rw [mem_links_iff, mem_links_iff, hswap, hswap, or_comm]

/-- Two points in a row stand on one side of any point between the others, that point included. -/
theorem pair_infix_divided {a b : V} (xs : List V) (p : V) (ys : List V) :
    [a, b] <:+: xs ++ p :: ys ↔ [a, b] <:+: xs ++ [p] ∨ [a, b] <:+: p :: ys := by
  induction xs with
  | nil =>
      refine ⟨Or.inr, ?_⟩
      rintro (h | h)
      · have hlength := h.length_le
        simp at hlength
      · exact h
  | cons x xs ih =>
      have hnext : [b] <+: xs ++ p :: ys ↔ [b] <+: xs ++ [p] := by
        cases xs <;> simp
      rw [List.cons_append, List.cons_append, List.infix_cons_iff, List.infix_cons_iff,
        List.cons_prefix_cons, List.cons_prefix_cons, hnext, ih, or_assoc]

/-- A path that is cut in two at a point keeps its segments. -/
theorem links_divided (xs : List V) (p : V) (ys : List V) :
    links (xs ++ p :: ys) = links (xs ++ [p]) ∪ links (p :: ys) := by
  ext s
  induction s with
  | _ a b =>
      rw [Set.mem_union, mem_links_iff, mem_links_iff, mem_links_iff,
        pair_infix_divided xs p ys, pair_infix_divided xs p ys]
      tauto

theorem links_paused (p : V) (ys : List V) : links (p :: p :: ys) = links (p :: ys) := by
  ext s
  induction s with
  | _ a b =>
      rw [mem_links_iff, mem_links_iff]
      refine and_congr_right fun hne => ?_
      have hpair : ∀ c d : V, c ≠ d → ([c, d] <:+: p :: p :: ys ↔ [c, d] <:+: p :: ys) := by
        intro c d hcd
        rw [List.infix_cons_iff, List.cons_prefix_cons, List.cons_prefix_cons]
        refine or_iff_right ?_
        rintro ⟨rfl, rfl, -⟩
        exact hcd rfl
      rw [hpair a b hne, hpair b a hne.symm]

theorem links_subset_of_infix {path path' : List V} (h : path <:+: path') :
    links path ⊆ links path' := by
  rintro s ⟨hdiag, a, b, hab, rfl⟩
  exact ⟨hdiag, a, b, hab.trans h, rfl⟩

end Path

/-- The points of paths. -/
def drawnPoints (paths : List (List V)) : Set V := { p | ∃ path ∈ paths, p ∈ path }

/-- The segments of paths, without their direction. -/
def drawnSegments (paths : List (List V)) : Set (Sym2 V) :=
  { s | ∃ path ∈ paths, s ∈ Path.links path }

/-- Paths that look the same once they are drawn. -/
structure Alike (P Q : List (List V)) : Prop where
  /-- They have the same points. -/
  points : drawnPoints P = drawnPoints Q
  /-- They have the same segments. -/
  segments : drawnSegments P = drawnSegments Q

theorem Alike.symm {P Q : List (List V)} (h : Alike P Q) : Alike Q P :=
  ⟨h.points.symm, h.segments.symm⟩

theorem Alike.trans {P Q R : List (List V)} (h : Alike P Q) (h' : Alike Q R) : Alike P R :=
  ⟨h.points.trans h'.points, h.segments.trans h'.segments⟩

theorem drawnPoints_cons (path : List V) (P : List (List V)) :
    drawnPoints (path :: P) = { p | p ∈ path } ∪ drawnPoints P := by
  ext p
  simp [drawnPoints]

theorem drawnSegments_cons (path : List V) (P : List (List V)) :
    drawnSegments (path :: P) = Path.links path ∪ drawnSegments P := by
  ext s
  simp [drawnSegments]

/-! ### Ways to draw the same again -/

/-- Paths drawn in another way. -/
inductive Redrawn : List (List V) → List (List V) → Prop where
  /-- In another order. -/
  | permuted {P Q : List (List V)} (h : P.Perm Q) : Redrawn P Q
  /-- One of them backwards. -/
  | reversed (path : List V) (P : List (List V)) : Redrawn (path :: P) (path.reverse :: P)
  /-- One of them in two parts, the second beginning where the first ends. -/
  | divided (xs : List V) (p : V) (ys : List V) (P : List (List V)) :
      Redrawn ((xs ++ p :: ys) :: P) ((xs ++ [p]) :: (p :: ys) :: P)
  /-- One of them, or a part of it, a second time. -/
  | repeated {part path : List V} (h : part <:+: path) (P : List (List V)) :
      Redrawn (path :: P) (part :: path :: P)
  /-- One of them with a rest at one of its points. -/
  | paused (xs : List V) (p : V) (ys : List V) (P : List (List V)) :
      Redrawn ((xs ++ p :: ys) :: P) ((xs ++ p :: p :: ys) :: P)
  /-- What was drawn in another way may have been drawn so before. -/
  | symm {P Q : List (List V)} (h : Redrawn P Q) : Redrawn Q P
  /-- In one way after another. -/
  | trans {P Q R : List (List V)} (h : Redrawn P Q) (h' : Redrawn Q R) : Redrawn P R

/-- **What is drawn in another way looks the same.** -/
theorem Redrawn.alike {P Q : List (List V)} (h : Redrawn P Q) : Alike P Q := by
  induction h with
  | permuted h =>
      refine ⟨?_, ?_⟩
      · ext p
        simp only [drawnPoints, h.mem_iff]
      · ext s
        simp only [drawnSegments, h.mem_iff]
  | reversed path P =>
      refine ⟨?_, ?_⟩
      · rw [drawnPoints_cons, drawnPoints_cons]
        simp only [List.mem_reverse]
      · rw [drawnSegments_cons, drawnSegments_cons, Path.links_reverse]
  | divided xs p ys P =>
      refine ⟨?_, ?_⟩
      · rw [drawnPoints_cons, drawnPoints_cons, drawnPoints_cons]
        ext q
        simp
        tauto
      · rw [drawnSegments_cons, drawnSegments_cons, drawnSegments_cons, Path.links_divided,
          Set.union_assoc]
  | @repeated part path h P =>
      refine ⟨?_, ?_⟩
      · rw [drawnPoints_cons, drawnPoints_cons part, drawnPoints_cons path, ← Set.union_assoc]
        have hpoints : { p | p ∈ part } ⊆ { p | p ∈ path } := h.subset
        rw [Set.union_eq_self_of_subset_left hpoints]
      · rw [drawnSegments_cons, drawnSegments_cons part, drawnSegments_cons path,
          ← Set.union_assoc, Set.union_eq_self_of_subset_left (Path.links_subset_of_infix h)]
  | paused xs p ys P =>
      refine ⟨?_, ?_⟩
      · rw [drawnPoints_cons, drawnPoints_cons]
        simp
      · rw [drawnSegments_cons, drawnSegments_cons, Path.links_divided, Path.links_divided xs p (p :: ys),
          Path.links_paused]
  | symm _ ih => exact ih.symm
  | trans _ _ ih ih' => exact ih.trans ih'

/-! ### Samples of a drawing -/

namespace Raster

theorem mem_flatten_iff {paths : List (List V)} {p : V} :
    p ∈ paths.flatten ↔ p ∈ drawnPoints paths := by
  simp [drawnPoints]

/-- The samples on a grid, given its frame: the points, and what lies between those that are linked. -/
theorem mem_placed_iff {measure : Vec ℝ → Vec ℝ → ℝ} (hsymm : ∀ a b, measure a b = measure b a)
    (f : Frame ℝ) {paths : List (List (Vec ℝ))} {p : Vec ℝ} :
    (∃ path ∈ paths, p ∈ samples measure (path.map f.place)) ↔
      (∃ q ∈ drawnPoints paths, p = f.place q) ∨
        ∃ a b, s(a, b) ∈ drawnSegments paths ∧
          p ∈ segmentSamples measure (f.place a) (f.place b) := by
  constructor
  · rintro ⟨path, hpath, h⟩
    rcases mem_samples_iff.mp h with h | ⟨a', b', hab, hne, h⟩
    · obtain ⟨q, hq, rfl⟩ := List.mem_map.mp h
      exact Or.inl ⟨q, ⟨path, hpath, hq⟩, rfl⟩
    · obtain ⟨pair, hpair, heq⟩ := List.infix_map_iff.mp hab
      obtain ⟨a, b, rfl⟩ : ∃ a b, pair = [a, b] := by
        apply List.length_eq_two.mp
        rw [← List.length_map f.place, ← heq]
        rfl
      simp only [List.map_cons, List.map_nil, List.cons.injEq, and_true] at heq
      obtain ⟨rfl, rfl⟩ := heq
      have hlink : a ≠ b := fun hsame => hne (congrArg f.place hsame)
      exact Or.inr ⟨a, b, ⟨path, hpath, Path.mem_links_iff.mpr ⟨hlink, Or.inl hpair⟩⟩, h⟩
  · rintro (⟨q, ⟨path, hpath, hq⟩, rfl⟩ | ⟨a, b, ⟨path, hpath, hab⟩, h⟩)
    · exact ⟨path, hpath, mem_samples_iff.mpr (Or.inl (List.mem_map_of_mem hq))⟩
    · refine ⟨path, hpath, ?_⟩
      -- Wherever two points are linked, the first of them and what is between them is sampled.
      have hdrawn : ∀ {c d q}, [c, d] <:+: path →
          q = f.place c ∨ q ∈ segmentSamples measure (f.place c) (f.place d) →
          q ∈ samples measure (path.map f.place) := by
        intro c d q hcd hq
        have hstart : f.place c ∈ path.map f.place := List.mem_map_of_mem (hcd.subset (by simp))
        rcases hq with rfl | hq
        · exact mem_samples_iff.mpr (Or.inl hstart)
        · by_cases hne : f.place c = f.place d
          · rw [← hne] at hq
            rw [eq_of_mem_segmentSamples_self hq]
            exact mem_samples_iff.mpr (Or.inl hstart)
          · exact mem_samples_iff.mpr (Or.inr ⟨_, _, hcd.map f.place, hne, hq⟩)
      rcases (Path.mem_links_iff.mp hab).2 with hab | hba
      · exact hdrawn hab (Or.inr h)
      · exact hdrawn hba (mem_segmentSamples_swap hsymm h)

/-- **What looks the same is sampled in the same places.** -/
theorem mem_laid_congr {measure : Vec ℝ → Vec ℝ → ℝ} (hsymm : ∀ a b, measure a b = measure b a)
    {P Q : List (List (Vec ℝ))} (h : Alike P Q) (size : Nat) (p : Vec ℝ) :
    p ∈ laid measure size P ↔ p ∈ laid measure size Q := by
  have hpoints : ∀ q, q ∈ P.flatten ↔ q ∈ Q.flatten := by
    intro q
    rw [mem_flatten_iff, mem_flatten_iff, h.points]
  cases hP : P.flatten with
  | nil =>
      have hQ : Q.flatten = [] := by
        refine List.eq_nil_iff_forall_not_mem.mpr fun q hq => ?_
        rw [← hpoints, hP] at hq
        cases hq
      unfold laid
      rw [hP, hQ]
  | cons first rest =>
      cases hQ : Q.flatten with
      | nil =>
          have hfirst := (hpoints first).mp (by rw [hP]; exact List.mem_cons_self ..)
          rw [hQ] at hfirst
          cases hfirst
      | cons first' rest' =>
          rw [hP, hQ] at hpoints
          rw [laid_eq hP, laid_eq hQ, List.mem_flatMap, List.mem_flatMap,
            Frame.around_congr hpoints size, mem_placed_iff hsymm, mem_placed_iff hsymm, h.points,
            h.segments]

theorem straight_comm (a b : Vec ℝ) : straight a b = straight b a := by
  show √((b.x - a.x) * (b.x - a.x) + (b.y - a.y) * (b.y - a.y))
    = √((a.x - b.x) * (a.x - b.x) + (a.y - b.y) * (a.y - b.y))
  congr 1
  ring

end Raster

/-- Without sequence the vector of a gesture is its raster. -/
theorem Instance.extract_raster {g : Gesture} (hstrokes : g.strokes ≠ []) {policy : Policy}
    (hsequence : policy.sequence = .invariant) (label : Option Text) :
    ∃ i : Instance ℝ, extract policy label g = .ok i ∧
      i.vector = Raster.features rasterSize g.paths := by
  obtain ⟨s, rest, hs⟩ := List.exists_cons_of_ne_nil hstrokes
  refine ⟨⟨_, label, g.id, .invariant, none⟩, ?_, Stored.map_store _⟩
  rw [extract, hs, hsequence]

open Raster in
/--
**The features of paths depend only on what is drawn.**

Let segments be measured alike from both ends.  Paths with the same points and the same
segments fill a grid of any size alike; so do paths that are drawn in another order,
backwards, in more or fewer parts, in part a second time, or with rests on the way.  Two
gestures that look the same have the same raster, and without sequence the same features.
-/
theorem raster_shows_what_is_drawn {measure : Vec ℝ → Vec ℝ → ℝ}
    (hsymm : ∀ a b, measure a b = measure b a) :
    (∀ (P Q : List (List (Vec ℝ))) (size : Nat), Alike P Q ∨ Redrawn P Q →
      cells measure size P = cells measure size Q) ∧
    ∀ g h : Gesture, g.strokes ≠ [] → h.strokes ≠ [] → Alike (g.paths (α := ℝ)) h.paths →
      (∀ size : Nat, 2 ≤ size → ∃ v : List ℝ,
        rasterized (some size) g.paths = .ok v ∧ rasterized (some size) h.paths = .ok v) ∧
      ∀ (policy : Policy) (label label' : Option Text), policy.sequence = .invariant →
        ∃ i j : Instance ℝ, Instance.extract policy label g = .ok i ∧
          Instance.extract policy label' h = .ok j ∧ i.vector = j.vector := by
  have hcells : ∀ {m : Vec ℝ → Vec ℝ → ℝ}, (∀ a b, m a b = m b a) →
      ∀ {P Q : List (List (Vec ℝ))}, Alike P Q → ∀ size, cells m size P = cells m size Q := by
    intro m hm P Q h size
    rw [cells_eq, cells_eq, filled_congr (mem_laid_congr hm h size)]
  constructor
  · rintro P Q size (h | h)
    · exact hcells hsymm h size
    · exact hcells hsymm h.alike size
  · intro g h hg hh halike
    have hfeatures : ∀ size, features size (g.paths (α := ℝ)) = features size h.paths :=
      hcells straight_comm halike
    constructor
    · intro size hsize
      refine ⟨features size g.paths, rasterized_eq (by simpa [Gesture.paths] using hg) (by omega), ?_⟩
      rw [hfeatures]
      exact rasterized_eq (by simpa [Gesture.paths] using hh) (by omega)
    · intro policy label label' hsequence
      obtain ⟨i, hi, hvector⟩ := Instance.extract_raster hg hsequence label
      obtain ⟨j, hj, hvector'⟩ := Instance.extract_raster hh hsequence label'
      exact ⟨i, j, hi, hj, by rw [hvector, hvector', hfeatures]⟩

open Raster in
/-- Two strokes that meet look like one that goes the whole way back; two taps look like one. -/
theorem angle_is_drawn_backwards :
    let start : Vec ℝ := ⟨0, 0⟩
    let corner : Vec ℝ := ⟨3, 4⟩
    let finish : Vec ℝ := ⟨3, 0⟩
    let there := [[start, corner], [corner, finish]]
    let back := [[finish, corner, start]]
    let tap : Stroke := ⟨[⟨⟨0⟩, ⟨0⟩, 0⟩], by simp, by decide⟩
    (∀ a b : Vec ℝ, straight a b = straight b a) ∧ Redrawn there back ∧
      cells straight 16 there = cells straight 16 back ∧
      Alike ((⟨1, [tap, tap]⟩ : Gesture).paths (α := ℝ)) (⟨2, [tap]⟩ : Gesture).paths ∧
      ∃ v : List ℝ, rasterized (some 16) (⟨1, [tap, tap]⟩ : Gesture).paths = .ok v ∧
        rasterized (some 16) (⟨2, [tap]⟩ : Gesture).paths = .ok v := by
  intro start corner finish there back tap
  have hredrawn : Redrawn there back :=
    (Redrawn.divided [start] corner [finish] []).symm.trans
      (.reversed [start, corner, finish] [])
  have halike : Alike ((⟨1, [tap, tap]⟩ : Gesture).paths (α := ℝ)) (⟨2, [tap]⟩ : Gesture).paths :=
    (Redrawn.repeated List.infix_rfl []).symm.alike
  obtain ⟨hpaths, hgestures⟩ := raster_shows_what_is_drawn straight_comm
  exact ⟨straight_comm, hredrawn, hpaths there back 16 (Or.inr hredrawn), halike,
    (hgestures ⟨1, [tap, tap]⟩ ⟨2, [tap]⟩ (by simp) (by simp) halike).1 16 (by norm_num)⟩

end GestureStore
