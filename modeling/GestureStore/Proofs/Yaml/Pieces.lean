/-
The pieces of a text.

A text is written piece by piece: words, runs of blanks and runs of breaks.  Together
the pieces are the text again, and where no blank stands beside a break, words and
gaps take turns.  Both ways of writing without escapes rest on that.
-/
import GestureStore.Proofs.Yaml.Line
import Mathlib.Data.List.Chain

namespace GestureStore
namespace Yaml

open CodePoint (ofChar)

namespace Piece

/-- What a piece stands for. -/
def text : Piece → Text
  | word t => t
  | blanks n => List.replicate n (ofChar ' ')
  | breaks n => List.replicate n (ofChar '\n')

/-- The piece stands between words. -/
def isGap : Piece → Bool
  | word _ => false
  | blanks _ => true
  | breaks _ => true

/-- A piece is not empty, and there is no gap in a word. -/
def Whole : Piece → Prop
  | word t => t ≠ [] ∧ ∀ p ∈ t, isGapPoint p = false
  | blanks n => 0 < n
  | breaks n => 0 < n

/-- What a piece begins with is of the kind that it is. -/
theorem exists_text_eq_cons {piece : Piece} (h : piece.Whole) :
    ∃ p t, piece.text = p :: t ∧ isGapPoint p = piece.isGap := by
  cases piece with
  | word w =>
      obtain ⟨p, w, rfl⟩ := List.exists_cons_of_ne_nil h.1
      exact ⟨p, w, rfl, h.2 p (by simp)⟩
  | blanks n =>
      obtain ⟨n, rfl⟩ := Nat.exists_eq_add_one.mpr h
      exact ⟨ofChar ' ', List.replicate n (ofChar ' '), rfl, rfl⟩
  | breaks n =>
      obtain ⟨n, rfl⟩ := Nat.exists_eq_add_one.mpr h
      exact ⟨ofChar '\n', List.replicate n (ofChar '\n'), rfl, rfl⟩

/-- A code point in front of pieces stands for itself. -/
theorem text_before {p : CodePoint} (hp : isPrinted p = true) (ps : List Piece) :
    (before p ps).flatMap text = p :: ps.flatMap text := by
  by_cases hblank : p.is ' ' = true
  · obtain rfl := CodePoint.is_iff.mp hblank
    rcases ps with _ | ⟨_ | _ | _, rest⟩ <;> rfl
  · by_cases hbreak : p.is '\n' = true
    · obtain rfl := CodePoint.is_iff.mp hbreak
      rcases ps with _ | ⟨_ | _ | _, rest⟩ <;> rfl
    · rw [← isBreak_of_printed hp] at hbreak
      rcases ps with _ | ⟨_ | _ | _, rest⟩ <;> simp [before, text, hblank, hbreak]

theorem whole_before {p : CodePoint} {ps : List Piece} (h : ∀ piece ∈ ps, piece.Whole) :
    ∀ piece ∈ before p ps, piece.Whole := by
  by_cases hblank : p.is ' ' = true
  · rcases ps with _ | ⟨_ | _ | _, rest⟩ <;> simp_all [before, Whole]
  · by_cases hbreak : isBreak p = true
    · rcases ps with _ | ⟨_ | _ | _, rest⟩ <;> simp_all [before, Whole]
    · have hgap : isGapPoint p = false := by simp [isGapPoint, hblank, hbreak]
      rcases ps with _ | ⟨_ | _ | _, rest⟩ <;> simp_all [before, Whole]

/-- One of two pieces is a word, and the other one is a gap. -/
def TakeTurns (a b : Piece) : Prop := a.isGap ≠ b.isGap

/-- Turns are kept by a code point that does not set a gap beside another one. -/
theorem isChain_before {p : CodePoint} {ps : List Piece} (h : ps.IsChain TakeTurns)
    (hblank : p.is ' ' = true → ∀ n, breaks n ∉ ps.head?)
    (hbreak : isBreak p = true → ∀ n, blanks n ∉ ps.head?) : (before p ps).IsChain TakeTurns := by
  by_cases hp : p.is ' ' = true
  · rcases ps with _ | ⟨_ | _ | _, rest⟩ <;> simp_all [before, List.isChain_cons, TakeTurns, isGap]
  · by_cases hq : isBreak p = true
    · rcases ps with _ | ⟨_ | _ | _, rest⟩ <;> simp_all [before, List.isChain_cons, TakeTurns, isGap]
    · rcases ps with _ | ⟨_ | _ | _, rest⟩ <;> simp_all [before, List.isChain_cons, TakeTurns, isGap]

end Piece

/-- The pieces of a text are that text. -/
theorem flatMap_pieces {t : Text} (h : Printed t) : (pieces t).flatMap Piece.text = t := by
  induction t with
  | nil => rfl
  | cons p t ih =>
      obtain ⟨hp, ht⟩ := printed_cons.mp h
      show (Piece.before p (pieces t)).flatMap Piece.text = _
      rw [Piece.text_before hp, ih ht]

theorem whole_pieces (t : Text) : ∀ piece ∈ pieces t, piece.Whole := by
  induction t with
  | nil => exact fun _ h => absurd h List.not_mem_nil
  | cons p t ih => exact Piece.whole_before ih

/-! ### Words and gaps -/

/-- A break does not follow a blank, nor a blank a break. -/
def Apart (t : Text) : Prop :=
  hasPair (·.is ' ') isBreak t = false ∧ hasPair isBreak (·.is ' ') t = false

theorem apart_cons {p : CodePoint} {t : Text} (h : Apart (p :: t)) :
    Apart t ∧ (p.is ' ' = true → t.head?.any isBreak = false) ∧
      (isBreak p = true → t.head?.any (·.is ' ') = false) := by
  cases t with
  | nil => exact ⟨⟨rfl, rfl⟩, fun _ => rfl, fun _ => rfl⟩
  | cons q t =>
      simp only [Apart, hasPair, Bool.or_eq_false_iff, Bool.and_eq_false_imp] at h
      exact ⟨⟨h.1.2, h.2.2⟩, h.1.1, h.2.1⟩

/-- Without breaks nothing stands beside one. -/
theorem apart_of_unbroken {t : Text} (h : t.any isBreak = false) : Apart t := by
  induction t with
  | nil => exact ⟨rfl, rfl⟩
  | cons p t ih =>
      rw [List.any_cons, Bool.or_eq_false_iff] at h
      obtain ⟨hp, ht⟩ := h
      cases t with
      | nil => exact ⟨rfl, rfl⟩
      | cons q t =>
          obtain ⟨hblank, hbreak⟩ := ih ht
          have hq : isBreak q = false := List.any_eq_false.mp ht q (by simp) |> Bool.eq_false_iff.mpr
          simp [Apart, hasPair, hp, hq, hblank, hbreak]

/-- The first piece begins with the first code point. -/
theorem head?_pieces {t : Text} (h : Printed t) {piece : Piece} (hpiece : piece ∈ (pieces t).head?) :
    t.head? = piece.text.head? := by
  obtain ⟨rest, hrest⟩ := List.head?_eq_some_iff.mp hpiece
  obtain ⟨p, u, hpiece, -⟩ := Piece.exists_text_eq_cons (whole_pieces t piece (by simp [hrest]))
  have htext := flatMap_pieces h
  rw [hrest, List.flatMap_cons, hpiece] at htext
  rw [← htext, hpiece]
  rfl

/-- **Words and gaps take turns.** -/
theorem isChain_pieces {t : Text} (h : Printed t) (hapart : Apart t) :
    (pieces t).IsChain Piece.TakeTurns := by
  induction t with
  | nil => exact .nil
  | cons p t ih =>
      obtain ⟨-, ht⟩ := printed_cons.mp h
      obtain ⟨hrest, hblank, hbreak⟩ := apart_cons hapart
      refine Piece.isChain_before (ih ht hrest) ?_ ?_
      · intro hp n hn
        have hhead := hblank hp
        have hwhole : 0 < n := whole_pieces t _ (List.mem_of_mem_head? hn)
        rw [head?_pieces ht hn, Piece.text, List.head?_replicate, if_neg (Nat.ne_of_gt hwhole)] at hhead
        exact absurd hhead (by decide)
      · intro hp n hn
        have hhead := hbreak hp
        have hwhole : 0 < n := whole_pieces t _ (List.mem_of_mem_head? hn)
        rw [head?_pieces ht hn, Piece.text, List.head?_replicate, if_neg (Nat.ne_of_gt hwhole)] at hhead
        exact absurd hhead (by decide)

/-! ### Writing pieces -/

/-- A piece as it is written. -/
def writtenPiece (quote mayBreak : Bool) (column : Nat) : Piece → Text
  | .word t => if quote then doubledQuotes t else t
  | .blanks n => writtenBlanks mayBreak column n
  | .breaks n => List.replicate (n + 1) (ofChar '\n') ++ margin

/-- Pieces are written one after the other. -/
theorem writtenPieces_cons (quote inner : Bool) (column : Nat) (piece : Piece) (rest : List Piece) :
    writtenPieces quote inner column (piece :: rest) =
      writtenPiece quote (inner && !rest.isEmpty) column piece ++
        writtenPieces quote true (Cursor.columnAfter column
          (writtenPiece quote (inner && !rest.isEmpty) column piece)) rest := by
  cases piece <;> rfl

theorem printed_doubledQuotes {w : Text} (h : Printed w) : Printed (doubledQuotes w) := by
  intro q hq
  obtain ⟨p, hp, hpq⟩ := List.mem_flatMap.mp hq
  have hqp : q = p := by
    by_cases hquote : p.is '\'' = true
    · simpa [hquote] using hpq
    · simpa [hquote] using hpq
  rw [hqp]
  exact h p hp

/-- Writing pieces sets nothing between them but blanks and line feeds. -/
theorem printed_writtenPieces {ps : List Piece} (h : Printed (ps.flatMap Piece.text)) {quote inner : Bool}
    {column : Nat} : Printed (writtenPieces quote inner column ps) := by
  induction ps generalizing inner column with
  | nil => exact printed_nil
  | cons piece ps ih =>
      rw [List.flatMap_cons, printed_append] at h
      rw [writtenPieces_cons, printed_append]
      refine ⟨?_, ih h.2⟩
      cases piece with
      | word w =>
          rw [writtenPiece]
          split
          · exact printed_doubledQuotes h.1
          · exact h.1
      | blanks n =>
          rw [writtenPiece, writtenBlanks]
          split
          · decide
          · exact printed_replicate rfl
      | breaks n => exact printed_append.mpr ⟨printed_replicate rfl, by decide⟩

/-- Every piece takes room. -/
theorem length_le_writtenPieces {ps : List Piece} (hwhole : ∀ piece ∈ ps, piece.Whole) {inner : Bool}
    {column : Nat} : ps.length ≤ (writtenPieces false inner column ps).length := by
  induction ps generalizing inner column with
  | nil => exact Nat.le_refl _
  | cons piece ps ih =>
      have hpiece : piece.Whole := hwhole piece (by simp)
      have hroom : 0 < (writtenPiece false (inner && !ps.isEmpty) column piece).length := by
        cases piece with
        | word w => exact List.length_pos_iff.mpr hpiece.1
        | blanks n =>
            rw [writtenPiece, writtenBlanks]
            split
            · exact (by decide : 0 < 3)
            · rw [List.length_replicate]
              exact hpiece
        | breaks n =>
            rw [writtenPiece, List.length_append, List.length_replicate]
            omega
      rw [writtenPieces_cons, List.length_append, List.length_cons]
      have hrest := @ih (fun other h => hwhole other (by simp [h])) true (Cursor.columnAfter column
        (writtenPiece false (inner && !ps.isEmpty) column piece))
      omega

end Yaml
end GestureStore
