/-
Lines as a document is written.

What is written is printable ASCII and line feeds, and a field begins with a letter at
the beginning of a line.  So a line that goes on is never taken for a separator, and
whatever is read up to the end of a field leaves the cursor at the next one.
-/
import GestureStore.Proofs.Text.Plain
import GestureStore.Yaml.Writer

namespace GestureStore

namespace CodePoint

theorem is_iff {p : CodePoint} {c : Char} : p.is c = true ↔ p = ofChar c := by
  rw [is, beq_iff_eq, Fin.ext_iff]
  rfl

/-- What is told apart from a character is not that character. -/
theorem is_eq_false {f : CodePoint → Bool} {p : CodePoint} (h : f p = true) (c : Char)
    (hc : f (ofChar c) = false) : p.is c = false := by
  rw [Bool.eq_false_iff]
  intro hp
  rw [is_iff.mp hp, hc] at h
  exact Bool.false_ne_true h

theorem isOneOf_eq_false {f : CodePoint → Bool} {p : CodePoint} (h : f p = true) (cs : List Char)
    (hcs : (cs.any fun c => f (ofChar c)) = false) : p.isOneOf cs = false := by
  rw [isOneOf, List.any_eq_false]
  intro c hc
  rw [is_eq_false h c (Bool.eq_false_iff.mpr (List.any_eq_false.mp hcs c hc))]
  exact Bool.false_ne_true

@[simp] theorem is_ofChar (a b : Char) : (ofChar a).is b = (a == b) := by
  rw [Bool.eq_iff_iff, is, beq_iff_eq, beq_iff_eq]
  exact ⟨fun h => Char.toNat_inj.mp h, fun h => congrArg Char.toNat h⟩

end CodePoint

namespace Yaml

/-! ### What is written -/

/-- Printable ASCII and line feeds. -/
def isPrinted (p : CodePoint) : Bool := p.is '\n' || isPrintableAscii p

/-- There is only printable ASCII in the text, and line feeds. -/
def Printed (t : Text) : Prop := ∀ p ∈ t, isPrinted p = true

instance (t : Text) : Decidable (Printed t) := decidable_of_iff (t.all isPrinted = true) List.all_eq_true

@[simp] theorem printed_nil : Printed [] := by simp [Printed]

@[simp] theorem printed_cons {p : CodePoint} {t : Text} :
    Printed (p :: t) ↔ isPrinted p = true ∧ Printed t := List.forall_mem_cons

@[simp] theorem printed_append {s t : Text} : Printed (s ++ t) ↔ Printed s ∧ Printed t :=
  List.forall_mem_append

theorem printed_replicate {n : Nat} {p : CodePoint} (h : isPrinted p = true) :
    Printed (List.replicate n p) := by
  intro q hq
  rw [List.eq_of_mem_replicate hq]
  exact h

theorem isPrinted_iff {p : CodePoint} :
    isPrinted p = true ↔ p.val = 0xA ∨ 0x20 ≤ p.val ∧ p.val ≤ 0x7E := by
  simp [isPrinted, CodePoint.is, isPrintableAscii]

/-- The only break in what is written is the line feed. -/
theorem isBreak_of_printed {p : CodePoint} (h : isPrinted p = true) : isBreak p = p.is '\n' := by
  rw [isPrinted_iff] at h
  rw [Bool.eq_iff_iff]
  simp only [isBreak, CodePoint.is, Bool.or_eq_true, beq_iff_eq, Char.reduceToNat]
  omega

theorem Printed.plain {t : Text} (h : Printed t) : t.Plain := by
  intro p hp
  have hprinted := isPrinted_iff.mp (h p hp)
  rw [CodePoint.isSurrogate_eq_false_iff]
  omega

/-! ### Where a field begins -/

/-- The letters that names are made of. -/
def isLetter (p : CodePoint) : Bool := (0x61 ≤ p.val && p.val ≤ 0x7A) || p.is '_'

theorem isLetter_iff {p : CodePoint} :
    isLetter p = true ↔ 0x61 ≤ p.val ∧ p.val ≤ 0x7A ∨ p.val = 0x5F := by
  simp [isLetter, CodePoint.is]

theorem isPrinted_of_isLetter {p : CodePoint} (h : isLetter p = true) : isPrinted p = true := by
  rw [isLetter_iff] at h
  rw [isPrinted_iff]
  omega

theorem isBreak_of_isLetter {p : CodePoint} (h : isLetter p = true) : isBreak p = false := by
  rw [isBreak_of_printed (isPrinted_of_isLetter h)]
  rw [isLetter_iff] at h
  simp only [CodePoint.is, beq_eq_false_iff_ne, Char.reduceToNat]
  omega

/-- Nothing follows, or a field does. -/
def BeginsField (t : Text) : Prop := ∀ p ∈ t.head?, isLetter p = true

theorem beginsField_nil : BeginsField [] := by simp [BeginsField]

theorem BeginsField.atSeparator {t : Text} (h : BeginsField t) : atSeparator t = false := by
  match t with
  | [] => rfl
  | [_] => rfl
  | [_, _] => rfl
  | a :: b :: c :: rest =>
      have ha : isLetter a = true := h a rfl
      simp [Yaml.atSeparator, CodePoint.is_eq_false ha '-' rfl, CodePoint.is_eq_false ha '.' rfl]

/-- A line that goes on is no separator. -/
@[simp] theorem atSeparator_blank (t : Text) : atSeparator (CodePoint.ofChar ' ' :: t) = false := by
  match t with
  | [] => rfl
  | [_] => rfl
  | _ :: _ :: _ => simp [atSeparator]

@[simp] theorem atSeparator_break (t : Text) : atSeparator (CodePoint.ofChar '\n' :: t) = false := by
  match t with
  | [] => rfl
  | [_] => rfl
  | _ :: _ :: _ => simp [atSeparator]

/-! ### Cursors -/

namespace Cursor

theorem columnAfter_append (k : Nat) (s t : Text) :
    columnAfter k (s ++ t) = columnAfter (columnAfter k s) t := List.foldl_append

theorem columnAfter_blanks (k n : Nat) :
    columnAfter k (List.replicate n (CodePoint.ofChar ' ')) = k + n := by
  induction n generalizing k with
  | zero => rfl
  | succ n ih =>
      rw [List.replicate_succ]
      show columnAfter (k + 1) _ = _
      rw [ih]
      omega

/-- The cursor behind a token. -/
theorem after_append (s t : Text) (k : Nat) (fresh : Bool) :
    (Cursor.mk (s ++ t) k fresh).after t = ⟨t, columnAfter k s, false⟩ := by
  simp [after]

/-- Nothing is skipped where a field begins. -/
theorem skip_field {t : Text} (h : BeginsField t) (k : Nat) (fresh : Bool) :
    (Cursor.mk t k fresh).skip = ⟨t, k, fresh⟩ := by
  cases t with
  | nil => rfl
  | cons p rest =>
      have hp : isLetter p = true := h p rfl
      simp [skip, skipFrom, isBreak_of_isLetter hp, CodePoint.is_eq_false hp ' ' rfl,
        CodePoint.is_eq_false hp '#' rfl]

/-- The end of a line is skipped up to the next field. -/
theorem skip_lineEnd {t : Text} (h : BeginsField t) (k : Nat) (fresh : Bool) :
    (Cursor.mk (CodePoint.ofChar '\n' :: t) k fresh).skip = ⟨t, 0, true⟩ :=
  skip_field h 0 true

end Cursor

end Yaml
end GestureStore
