/-
Running totals are totals.

Over exact durations the running totals of a stage are what their names say.  They start
from zeros and from no shortest duration at all, so the longest is right only because no
duration is below zero, which is where it matters that clocks do not go back.

Exact durations are rational numbers.  What a tick of the clock is worth is left open, so
clocks of any resolution are covered.
-/
import GestureStore.Proofs.Timing.Session
import Mathlib.Algebra.Order.BigOperators.Group.List
import Mathlib.Algebra.Order.Field.Rat
import Mathlib.Data.List.Induction
import Mathlib.Tactic.Linarith

namespace GestureStore

/-- Durations without rounding; each tick of the clock is worth `tick`. -/
@[reducible] def Duration.exact (tick : ℚ) : Duration ℚ where
  zero := 0
  add x y := x + y
  shorter x y := decide (x < y)
  bounded _ := true
  share x n := x / n
  elapsed start stop := ((stop - start : Int) : ℚ) * tick

/-! ### Totals over exact durations -/

/-- Totals that are what their names say. -/
structure Timing.TotalOf (ds : List ℚ) (t : Timing ℚ) : Prop where
  /-- Durations are counted. -/
  calls : t.calls = ds.length
  /-- They are added up. -/
  total : t.total = ds.sum
  /-- The latest is the last. -/
  last : ds.getLast? = some t.last
  /-- The shortest is the least. -/
  shortest : t.shortest = ds.min?
  /-- The longest is the greatest. -/
  longest : ds.max? = some t.longest

namespace Timing

theorem min?_concat (ds : List ℚ) (d : ℚ) :
    (ds ++ [d]).min? = some (ds.min?.elim d (min · d)) := by
  cases ds with
  | nil => rfl
  | cons x rest =>
      rw [List.cons_append, List.min?_cons', List.min?_cons', List.foldl_append]
      rfl

theorem max?_concat (ds : List ℚ) (d : ℚ) :
    (ds ++ [d]).max? = some (ds.max?.elim d (max · d)) := by
  cases ds with
  | nil => rfl
  | cons x rest =>
      rw [List.cons_append, List.max?_cons', List.max?_cons', List.foldl_append]
      rfl

variable (tick : ℚ)

/-- The first duration is all there is; what was there before it does not show. -/
theorem totalOf_first {d : ℚ} (hd : 0 ≤ d) :
    letI := Duration.exact tick
    TotalOf [d] (record empty d) where
  calls := rfl
  total := by
    show 0 + d = [d].sum
    simp
  last := rfl
  shortest := rfl
  longest := by
    show some d = some (if decide ((0 : ℚ) < d) then d else 0)
    by_cases h : 0 < d
    · simp [h]
    · simp [le_antisymm (not_lt.mp h) hd]

/-- Another duration makes the totals those with it. -/
theorem TotalOf.record {ds : List ℚ} {t : Timing ℚ} (h : TotalOf ds t) (d : ℚ) :
    letI := Duration.exact tick
    TotalOf (ds ++ [d]) (t.record d) where
  calls := by
    rw [List.length_append, ← h.calls]
    rfl
  total := by
    rw [List.sum_append, List.sum_singleton, ← h.total]
    rfl
  last := List.getLast?_concat
  shortest := by
    rw [min?_concat, ← h.shortest]
    cases hshortest : t.shortest with
    | none => simp only [Timing.record, shorterOf, hshortest]; rfl
    | some s =>
        simp only [Timing.record, shorterOf, hshortest, Option.elim_some, Option.some.injEq]
        show (if decide (d < s) then d else s) = min s d
        by_cases hlt : d < s
        · simp [hlt, hlt.le]
        · simp [hlt, not_lt.mp hlt]
  longest := by
    rw [max?_concat, h.longest, Option.elim_some, Option.some.injEq]
    show max t.longest d = if decide (t.longest < d) then d else t.longest
    by_cases hlt : t.longest < d
    · simp [hlt, hlt.le]
    · simp [hlt, not_lt.mp hlt]

/-- **Running totals over durations that are not negative are their totals.** -/
theorem over?_cases {ds : List ℚ} (hds : ∀ d ∈ ds, 0 ≤ d) :
    letI := Duration.exact tick
    (ds = [] ∧ over? ds = none) ∨ ∃ t, over? ds = some t ∧ TotalOf ds t := by
  let _ := Duration.exact tick
  induction ds using List.reverseRecOn with
  | nil => exact Or.inl ⟨rfl, rfl⟩
  | append_singleton ds d ih =>
      refine Or.inr ⟨_, over?_concat ds d, ?_⟩
      rcases ih fun x hx => hds x (by simp [hx]) with ⟨rfl, hnone⟩ | ⟨t, hsome, htotal⟩
      · rw [hnone]
        exact totalOf_first tick (hds d (by simp))
      · rw [hsome]
        exact htotal.record tick d

/-- The mean lies between the shortest and the longest. -/
theorem TotalOf.average_between {ds : List ℚ} {t : Timing ℚ} (h : TotalOf ds t) :
    letI := Duration.exact tick
    ∃ least, t.shortest = some least ∧ least ≤ t.average ∧ t.average ≤ t.longest := by
  let _ := Duration.exact tick
  obtain ⟨hmem, hmax⟩ := List.max?_eq_some_iff.mp h.longest
  have hpos : 0 < t.calls := by
    rw [h.calls]
    exact List.length_pos_of_mem hmem
  obtain ⟨least, hleast⟩ : ∃ least, ds.min? = some least := by
    rw [← Option.isSome_iff_exists, List.isSome_min?_iff]
    exact List.ne_nil_of_mem hmem
  obtain ⟨-, hmin⟩ := List.min?_eq_some_iff.mp hleast
  have haverage : t.average = ds.sum / ds.length := by
    rw [average, if_neg hpos.ne', h.calls, h.total]
    rfl
  have hlength : (0 : ℚ) < ds.length := by
    rw [← h.calls]
    exact_mod_cast hpos
  have hlow := List.card_nsmul_le_sum ds least hmin
  have hhigh := List.sum_le_card_nsmul ds t.longest hmax
  rw [nsmul_eq_mul] at hlow hhigh
  refine ⟨least, h.shortest.trans hleast, ?_, ?_⟩
  · rw [haverage, le_div_iff₀ hlength]
    linarith
  · rw [haverage, div_le_iff₀ hlength]
    linarith

end Timing

namespace Session

/-! ### Clocks that do not go back -/

theorem clockAfter_append_le {since : List Step} (hclock : ∀ k, .tick k ∈ since → 0 ≤ k)
    (before : List Step) : clockAfter before ≤ clockAfter (since ++ before) := by
  induction since with
  | nil => exact le_rfl
  | cons x since ih =>
      have hle := ih fun k hk => hclock k (by simp [hk])
      cases x with
      | tick ticks =>
          have hticks := hclock ticks (by simp)
          show clockAfter before ≤ clockAfter (since ++ before) + ticks
          omega
      | _ => exact hle

/-- No stage is completed before it was entered. -/
theorem completed_le (on : Bool) (name : Text) {past : List Step}
    (hclock : ∀ k, .tick k ∈ past → 0 ≤ k) :
    ∀ s ∈ completed on name past, s.1 ≤ s.2 := by
  induction past with
  | nil => simp [completed]
  | cons x past ih =>
      have hlater := ih fun k hk => hclock k (by simp [hk])
      cases x with
      | reset => simp [completed]
      | exit =>
          intro s hs
          rcases List.mem_append.mp hs with hs | hs
          · exact hlater s hs
          · obtain ⟨entered, hentered, rfl⟩ := List.mem_map.mp hs
            rw [Option.mem_toList, entered?] at hentered
            split at hentered
            · rename_i stage before hopened
              obtain ⟨since, -, rfl⟩ := opened_eq_some_iff.mp hopened
              obtain ⟨-, hvalue⟩ := Option.ite_none_right_eq_some.mp hentered
              rw [← Option.some.inj hvalue]
              have hbefore : clockAfter (.enter stage :: before) = clockAfter before := rfl
              rw [← hbefore]
              exact clockAfter_append_le (fun k hk => hclock k (by simp [hk])) _
            · simp at hentered
      | _ => exact hlater

/--
**The totals of a name are those over its completed stages, whatever else went on.**

A step that completes a stage completes the one that was entered last and not closed
since.  It counts for the name it was entered under, with the time since then, if timing
was on when it was entered; switching timing on or off later, or forgetting the totals in
between, makes no difference.  As long as nothing has been counted since the last reset
there are no totals.
-/
theorem totals_are_of_completed_stages (tick : ℚ) (htick : 0 ≤ tick) (on : Bool)
    (steps : List Step) (hclock : ∀ k, .tick k ∈ steps → 0 ≤ k) (name : Text) :
    letI := Duration.exact tick
    let p := ((start on : Session ℚ).run steps).profiler
    let ds := (completed on name steps.reverse).map fun s => ((s.2 - s.1 : Int) : ℚ) * tick
    (∀ past stage before, opened 0 past = some (stage, before) ↔
      ∃ since, Leaves 0 since ∧ past = since ++ .enter stage :: before) ∧
    (p.timing? name = none ↔ ds = []) ∧
    ∀ t, p.timing? name = some t → Timing.TotalOf ds t ∧
      ∃ least, t.shortest = some least ∧ least ≤ t.average ∧ t.average ≤ t.longest := by
  let _ := Duration.exact tick
  intro p ds
  have htiming : p.timing? name = Timing.over? ds := by
    have hlooking := timing?_eq (δ := ℚ) on steps.reverse name
    rw [List.reverse_reverse] at hlooking
    exact hlooking
  have hnonneg : ∀ d ∈ ds, 0 ≤ d := by
    intro d hd
    obtain ⟨s, hs, rfl⟩ := List.mem_map.mp hd
    have hle := completed_le on name (fun k hk => hclock k (List.mem_reverse.mp hk)) s hs
    have hcast : (0 : ℚ) ≤ ((s.2 - s.1 : Int) : ℚ) := by exact_mod_cast Int.sub_nonneg_of_le hle
    exact mul_nonneg hcast htick
  refine ⟨fun past stage before => opened_eq_some_iff, ?_⟩
  rcases Timing.over?_cases tick hnonneg with ⟨hempty, hnone⟩ | ⟨t, hsome, htotal⟩
  · rw [htiming, hnone]
    exact ⟨iff_of_true rfl hempty, fun t ht => by simp at ht⟩
  · have hfilled : ds ≠ [] := by
      intro hempty
      have hlast := htotal.last
      rw [hempty] at hlast
      simp at hlast
    rw [htiming, hsome]
    refine ⟨iff_of_false (by simp) hfilled, fun u hu => ?_⟩
    obtain rfl := Option.some.inj hu
    exact ⟨htotal, htotal.average_between tick⟩

/-- Of four stages of one name, one within another and open across a reset, one not timed and
one that failed, two are counted. -/
theorem two_of_four_are_counted :
    letI := Duration.exact 1
    let a := Text.of "a"
    let steps : List Step := [.enter a, .tick 1, .enter a, .tick 2, .reset, .exit, .enable false,
      .enter a, .tick 4, .enable true, .exit, .enter a, .fail, .exit]
    ∃ t, ((start true : Session ℚ).run steps).profiler.timing? a = some t ∧
      Timing.TotalOf [2, 7] t := by
  let _ := Duration.exact 1
  intro a steps
  have hclock : ∀ k, .tick k ∈ steps → 0 ≤ k := by
    intro k hk
    simp only [steps, List.mem_cons, Step.tick.injEq, List.not_mem_nil, reduceCtorEq, false_or,
      or_false] at hk
    omega
  have hcompleted : completed true a steps.reverse = [(1, 3), (0, 7)] := by decide
  obtain ⟨-, hnone, htotal⟩ := totals_are_of_completed_stages 1 zero_le_one true steps hclock a
  rw [hcompleted] at hnone htotal
  obtain ⟨t, ht⟩ := Option.ne_none_iff_exists'.mp (mt hnone.mp (by simp))
  refine ⟨t, ht, ?_⟩
  have hds := (htotal t ht).1
  norm_num at hds
  exact hds

end Session
end GestureStore
