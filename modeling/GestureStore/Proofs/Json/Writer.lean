/-
JSON is written in ASCII alone.

Whatever a value holds, surrogates in its texts included, its rendering can be
encoded.
-/
import GestureStore.Json.Writer
import GestureStore.Proofs.Text.Plain

namespace GestureStore

open Text

/-! ### Numbers -/

namespace Double

@[simp] theorem plain_signText (negative : Bool) : Plain (signText negative) := by
  cases negative <;> simp [signText]

@[simp] theorem plain_exponentText (e : Int) : Plain (exponentText e) := by
  simp [exponentText]

theorem plain_nonFinite (d : Double) : Plain d.nonFinite := by
  cases d with
  | nan => simp [nonFinite]
  | infinity negative => cases negative <;> simp [nonFinite]
  | finite negative m q => simp [nonFinite]

theorem plain_shortestText (d : Double) : Plain d.shortestText := by
  cases d with
  | nan => exact plain_nonFinite .nan
  | infinity negative => exact plain_nonFinite (.infinity negative)
  | finite negative m q =>
      rw [shortestText]
      by_cases hzero : m = 0
      · simp [hzero]
      · have hdigits : Plain (stripZeros (natural (shortest m q).1)).1 := by
          refine (plain_natural (shortest m q).1).subset fun p hp => ?_
          rw [stripZeros, List.mem_reverse] at hp
          exact List.mem_reverse.mp (List.dropWhile_subset _ hp)
        have hpart : ∀ s : Text, s ⊆ (stripZeros (natural (shortest m q).1)).1 → Plain s :=
          fun s hs => hdigits.subset hs
        have htake := fun n => hpart _ (List.take_subset n _)
        have hdrop := fun n => hpart _ (List.drop_subset n _)
        simp only [hzero, if_false]
        split_ifs <;>
          simp only [plain_append, plain_of, plain_signText, plain_replicate, plain_exponentText,
            plain_nil, hdigits, htake, hdrop, and_self]

end Double

/-! ### Values -/

namespace Json

theorem plain_number (x : Float) : Plain (number x) := by
  rw [number]
  split <;> simp [Double.plain_shortestText]

theorem plain_escaped (p : CodePoint) : Plain (escaped p) := by
  have hunit : ∀ n, Plain (unitEscape n) := by simp [unitEscape]
  rw [escaped]
  -- Seven code points have an escape of their own.
  iterate 7 refine plain_ite (fun _ => plain_of _) fun _ => ?_
  refine plain_ite (fun hascii => plain_cons.mpr ⟨?_, plain_nil⟩) fun _ => ?_
  · rw [CodePoint.isSurrogate_eq_false_iff]
    omega
  · exact plain_ite (fun _ => hunit _) fun _ => plain_append.mpr ⟨hunit _, hunit _⟩

@[simp] theorem plain_string (t : Text) : Plain (string t) := by
  simp [string, plain_flatMap fun p _ => plain_escaped p]

theorem plain_lineBreak (l : Layout) : Plain l.lineBreak := by
  cases l <;> simp [Layout.lineBreak]

theorem plain_bracketed (l : Layout) (opening closing : String) {parts : List Text}
    (h : ∀ t ∈ parts, Plain t) : Plain (l.bracketed opening closing parts) := by
  have hcomma : ∀ l : Layout, Plain l.comma := by
    intro l
    cases l <;> simp [Layout.comma, plain_lineBreak]
  rw [Layout.bracketed]
  split_ifs
  · simp
  · simp [plain_lineBreak, plain_joinWith (hcomma l.deeper) h]

mutual

/-- **A rendering can be encoded, whatever is rendered.** -/
theorem plain_render (l : Layout) : ∀ v : Value, Plain (render l v)
  | .null => by simp [render]
  | .bool true => by simp [render]
  | .bool false => by simp [render]
  | .int i => by simp [render]
  | .float x => by simp [render, plain_number]
  | .text t => by simp [render]
  | .moment m => by simp [render]
  | .list items => by
    rw [render]
    exact plain_bracketed l _ _ (plain_renderItems l.deeper items)
  | .object fields => by
    rw [render]
    exact plain_bracketed l _ _ (plain_renderFields l.deeper fields)

theorem plain_renderItems (l : Layout) : ∀ vs : List Value, ∀ t ∈ renderItems l vs, Plain t
  | [] => by simp [renderItems]
  | v :: rest => by
    rw [renderItems, List.forall_mem_cons]
    exact ⟨plain_render l v, plain_renderItems l rest⟩

theorem plain_renderFields (l : Layout) :
    ∀ fields : List (Text × Value), ∀ t ∈ renderFields l fields, Plain t
  | [] => by simp [renderFields]
  | (name, v) :: rest => by
    rw [renderFields, List.forall_mem_cons]
    refine ⟨?_, plain_renderFields l rest⟩
    simp [plain_render l v]

end

end Json
end GestureStore
