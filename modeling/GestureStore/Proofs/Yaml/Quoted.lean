/-
Texts in quotes.

In double quotes everything but printable ASCII is an escape, and a line goes on
behind a backslash; what has to be kept track of is whether the blanks that come next
count (`Reading.Meets`).  In single quotes a gap is written as it counts, with a break
more where it is made of breaks, and a single blank may become a break; what has to be
kept track of there is that a gap always comes behind a character.

Both readers are followed character by character, in the states in which the next one
is read by itself (`Reading.Ready`).
-/
import GestureStore.Proofs.Yaml.Pieces
import Mathlib.Algebra.Group.Nat.Defs

namespace GestureStore
namespace Yaml

open CodePoint (ofChar)

variable {double : Bool} {r : Reading} {sofar rest : Text} {p : CodePoint}

/-! ### One character -/

/-- What comes next is read by itself, and not as a part of an escape or behind a quote. -/
def Reading.Ready : Reading → Prop
  | text => True
  | blanks _ => True
  | breaks _ _ => True
  | joined _ => True
  | escape => False
  | digits _ _ => False
  | quote => False

theorem Reading.ready_text : Reading.text.Ready := trivial

theorem Reading.ready_blanks (run : Text) : (blanks run).Ready := trivial

theorem Reading.ready_breaks (first : CodePoint) (more : Text) : (breaks first more).Ready := trivial

theorem Reading.ready_joined (more : Text) : (joined more).Ready := trivial

/-- What is neither a gap nor a mark is added to the text. -/
theorem quotedFrom_character (hr : r.Ready) (hp : isPrinted p = true) (hbreak : p.is '\n' = false)
    (hblank : p.is ' ' = false) :
    quotedFrom double r sofar (p :: rest) =
      if double && p.is '"' then .ok ((r.settled sofar).reverse, rest)
      else if !double && p.is '\'' then quotedFrom double .quote (r.settled sofar) rest
      else if double && p.is '\\' then quotedFrom double .escape (r.settled sofar) rest
      else quotedFrom double .text (p :: r.settled sofar) rest := by
  have htab : p.is '\t' = false := CodePoint.is_eq_false hp '\t' rfl
  cases r with
  | text => simp [quotedFrom, isBreak_of_printed hp, hbreak, hblank, htab]
  | blanks run => simp [quotedFrom, isBreak_of_printed hp, hbreak, hblank, htab]
  | breaks first more => simp [quotedFrom, isBreak_of_printed hp, hbreak, hblank, htab]
  | joined more => simp [quotedFrom, isBreak_of_printed hp, hbreak, hblank, htab]
  | escape => exact hr.elim
  | digits due value => exact hr.elim
  | quote => exact hr.elim

theorem quotedFrom_blank (hr : r.Ready) :
    quotedFrom double r sofar (ofChar ' ' :: rest) =
      quotedFrom double (r.blank (ofChar ' ')) sofar rest := by
  cases r with
  | text => rfl
  | blanks run => rfl
  | breaks first more => rfl
  | joined more => rfl
  | escape => exact hr.elim
  | digits due value => exact hr.elim
  | quote => exact hr.elim

theorem quotedFrom_break (hr : r.Ready) (h : atSeparator rest = false) :
    quotedFrom double r sofar (ofChar '\n' :: rest) =
      quotedFrom double (r.lineBreak (ofChar '\n')) sofar rest := by
  have hbreak : isBreak (ofChar '\n') = true := rfl
  cases r with
  | text => simp [quotedFrom, hbreak, h]
  | blanks run => simp [quotedFrom, hbreak, h]
  | breaks first more => simp [quotedFrom, hbreak, h]
  | joined more => simp [quotedFrom, hbreak, h]
  | escape => exact hr.elim
  | digits due value => exact hr.elim
  | quote => exact hr.elim

/-! ### Escapes -/

/-- A backslash. -/
theorem quotedFrom_backslash (hr : r.Ready) :
    quotedFrom true r sofar (ofChar '\\' :: rest) = quotedFrom true .escape (r.settled sofar) rest := by
  rw [quotedFrom_character hr rfl (by decide) (by decide)]
  rfl

theorem codePoint_val (p : CodePoint) : codePoint p.val = .ok p := dif_pos p.isLt

/-- A capital digit denotes what it is the digit of. -/
theorem hexDigit?_upper {n : Nat} (h : n < 16) :
    (ofChar ("0123456789ABCDEF".toList.getD n '0')).hexDigit? = some n := by
  have hall : ∀ n < 16, (ofChar ("0123456789ABCDEF".toList.getD n '0')).hexDigit? = some n := by decide
  exact hall n h

/-- Reading the first digits of an escape. -/
theorem quotedFrom_upperHex {width due : Nat} (n : Nat) (h : width < due) :
    quotedFrom double (.digits due 0) sofar (Text.upperHex width n ++ rest) =
      quotedFrom double (.digits (due - width) (n % 16 ^ width)) sofar rest := by
  induction width generalizing n rest with
  | zero => simp [Text.upperHex, Text.hex, Nat.mod_one]
  | succ width ih =>
      have hdigits : Text.upperHex (width + 1) n =
          Text.upperHex width (n / 16) ++ [ofChar ("0123456789ABCDEF".toList.getD (n % 16) '0')] := rfl
      have hvalue : n / 16 % 16 ^ width * 16 + n % 16 = n % 16 ^ (width + 1) := by
        rw [Nat.pow_succ', Nat.mod_mul]
        omega
      rw [hdigits, List.append_assoc, ih _ (by omega), List.singleton_append, quotedFrom]
      rw [hexDigit?_upper (Nat.mod_lt _ (by decide))]
      simp only [hvalue]
      rw [if_pos (by omega), Nat.sub_sub]

/-- An escape with digits gives the code point it was made from. -/
theorem quotedFrom_digits {width : Nat} (p : CodePoint) (h : p.val < 16 ^ (width + 1)) :
    quotedFrom double (.digits (width + 1) 0) sofar (Text.upperHex (width + 1) p.val ++ rest) =
      quotedFrom double .text (p :: sofar) rest := by
  have hdigits : Text.upperHex (width + 1) p.val =
      Text.upperHex width (p.val / 16) ++
        [ofChar ("0123456789ABCDEF".toList.getD (p.val % 16) '0')] := rfl
  have hfirst : p.val / 16 % 16 ^ width = p.val / 16 := by
    apply Nat.mod_eq_of_lt
    rw [Nat.pow_succ] at h
    omega
  rw [hdigits, List.append_assoc, quotedFrom_upperHex _ (by omega), hfirst]
  rw [List.singleton_append, quotedFrom, hexDigit?_upper (Nat.mod_lt _ (by decide))]
  simp only [Nat.div_add_mod' p.val 16, codePoint_val]
  rw [if_neg (by omega)]

/-- Every one-letter escape is known. -/
theorem entry?_shortEscapes {e : Char × Nat} (h : e ∈ shortEscapes) :
    entry? shortEscapes (ofChar e.1) = some e.2 := by
  have hall : ∀ e ∈ shortEscapes, entry? shortEscapes (ofChar e.1) = some e.2 := by decide
  exact hall e h

/-- A backslash, a letter and digits. -/
theorem quotedFrom_long (hr : r.Ready) {letter : Char} {width : Nat} (p : CodePoint)
    (hshort : entry? shortEscapes (ofChar letter) = none)
    (hlong : entry? longEscapes (ofChar letter) = some (width + 1)) (h : p.val < 16 ^ (width + 1)) :
    quotedFrom true r sofar (ofChar '\\' :: ofChar letter :: (Text.upperHex (width + 1) p.val ++ rest)) =
      quotedFrom true .text (p :: r.settled sofar) rest := by
  rw [quotedFrom_backslash hr, quotedFrom]
  simp only [hshort, hlong]
  exact quotedFrom_digits p h

/-- **An escape gives the code point it was made from.** -/
theorem quotedFrom_escape (hr : r.Ready) (p : CodePoint) :
    quotedFrom true r sofar (escape p ++ rest) = quotedFrom true .text (p :: r.settled sofar) rest := by
  rw [escape]
  cases hfind : shortEscapes.find? fun e => p.val == e.2 && !(e.1 == '\t' || e.1 == ' ' || e.1 == '/') with
  | some e =>
      have hvalue : p.val = e.2 := by
        have hsome := List.find?_some hfind
        rw [Bool.and_eq_true, beq_iff_eq] at hsome
        exact hsome.1
      rw [List.cons_append, List.singleton_append, quotedFrom_backslash hr, quotedFrom]
      simp only [entry?_shortEscapes (List.mem_of_find?_eq_some hfind), ← hvalue, codePoint_val]
  | none =>
      by_cases hbyte : p.val < 0x100
      · simp only [if_pos hbyte]
        exact quotedFrom_long hr p (by decide) (by decide) hbyte
      · by_cases hpair : p.val < 0x10000
        · simp only [if_neg hbyte, if_pos hpair]
          exact quotedFrom_long hr p (by decide) (by decide) hpair
        · simp only [if_neg hbyte, if_neg hpair]
          have hlimit : p.val < 16 ^ (7 + 1) := Nat.lt_trans p.isLt (by decide)
          exact quotedFrom_long hr p (by decide) (by decide) hlimit

theorem printed_upperHex (width n : Nat) : Printed (Text.upperHex width n) := by
  induction width generalizing n with
  | zero => exact printed_nil
  | succ width ih =>
      have hall : ∀ n < 16, isPrinted (ofChar ("0123456789ABCDEF".toList.getD n '0')) = true := by decide
      refine printed_append.mpr ⟨ih (n / 16), ?_⟩
      exact printed_cons.mpr ⟨hall _ (Nat.mod_lt _ (by decide)), printed_nil⟩

/-- An escape is written in printable ASCII. -/
theorem printed_escape (p : CodePoint) : Printed (escape p) := by
  rw [escape]
  split
  next e he =>
    have hall : ∀ e ∈ shortEscapes, (e.1 == '\t') = false → isPrinted (ofChar e.1) = true := by decide
    have hletter := List.find?_some he
    simp only [Bool.and_eq_true, Bool.not_eq_true', Bool.or_eq_false_iff] at hletter
    rw [printed_cons, printed_cons]
    exact ⟨rfl, hall e (List.mem_of_find?_eq_some he) hletter.2.1.1, printed_nil⟩
  next =>
    split
    · exact printed_append.mpr ⟨by decide, printed_upperHex _ _⟩
    · split
      · exact printed_append.mpr ⟨by decide, printed_upperHex _ _⟩
      · exact printed_append.mpr ⟨by decide, printed_upperHex _ _⟩

/-! ### Lines that go on -/

/-- Where the reader stands at the beginning of a line that goes on with a text. -/
def Reading.onNextLine (t : Text) : Reading := if t.head?.any (·.is ' ') then .escape else .joined []

@[simp] theorem Reading.settled_text : Reading.text.settled sofar = sofar := rfl

@[simp] theorem Reading.settled_onNextLine (t : Text) : (Reading.onNextLine t).settled sofar = sofar := by
  rw [onNextLine]
  split <;> rfl

/-- A line that goes on gives nothing. -/
theorem quotedFrom_continued (hr : r.Ready) (t : Text) :
    quotedFrom true r sofar (continued t ++ rest) =
      quotedFrom true (.onNextLine t) (r.settled sofar) rest := by
  have hshort : entry? shortEscapes (ofChar '\n') = none := by decide
  have hlong : entry? longEscapes (ofChar '\n') = none := by decide
  have hlead : continued t ++ rest = ofChar '\\' :: ofChar '\n' :: ofChar ' ' :: ofChar ' ' ::
      ((if t.head?.any (·.is ' ') then Text.of "\\" else []) ++ rest) := by
    rw [continued, nextLine, margin, List.append_assoc, List.append_assoc]
    rfl
  rw [hlead, quotedFrom_backslash hr, quotedFrom]
  simp only [hshort, hlong, atSeparator_blank, Bool.not_false, Bool.and_true]
  have hjoined := Reading.ready_joined []
  rw [if_pos (by decide), quotedFrom_blank hjoined]
  rw [Reading.blank, quotedFrom_blank hjoined, Reading.blank]
  by_cases h : t.head?.any (·.is ' ')
  · simp only [if_pos h, Reading.onNextLine]
    exact quotedFrom_backslash hjoined
  · simp only [if_neg h, Reading.onNextLine]
    rfl

/-- A line that goes on begins near the margin. -/
theorem columnAfter_continued (k : Nat) (s t : Text) :
    Cursor.columnAfter k (s ++ continued t) ≤ lineWidth := by
  rw [Cursor.columnAfter_append, continued]
  split
  · exact Nat.le_trans (Nat.le_of_eq rfl) (by decide : 3 ≤ lineWidth)
  · exact Nat.le_trans (Nat.le_of_eq rfl) (by decide : 2 ≤ lineWidth)

/-! ### Texts in double quotes -/

/--
Where the reader can stand before a text that is written at a column.

Behind the backslash of a line that goes on with a blank, no other line can begin
before that blank is read.
-/
inductive Reading.Meets (column : Nat) (t : Text) : Reading → Prop
  | text : Meets column t .text
  | blanks (run : Text) : Meets column t (.blanks run)
  | joined (h : t.head?.any (·.is ' ') = false) : Meets column t (.joined [])
  | escape (h : t.head?.any (·.is ' ') = true) (hcolumn : column ≤ lineWidth) : Meets column t .escape

theorem Reading.onNextLine_meets {column : Nat} (hcolumn : column ≤ lineWidth) (t : Text) :
    (Reading.onNextLine t).Meets column t := by
  rw [onNextLine]
  by_cases h : t.head?.any (·.is ' ')
  · rw [if_pos h]
    exact .escape h hcolumn
  · rw [if_neg h]
    exact .joined (Bool.eq_false_iff.mpr h)

/-- Only a blank can come behind the backslash of a line that goes on. -/
theorem Reading.Meets.ready {column : Nat} {t : Text} (h : r.Meets column t)
    (ht : t.head?.any (·.is ' ') = false ∨ lineWidth < column) : r.Ready := by
  cases h with
  | text => trivial
  | blanks run => trivial
  | joined h => trivial
  | escape h hcolumn =>
      rw [h] at ht
      rcases ht with ht | ht
      · exact absurd ht Bool.true_eq_false.mp
      · omega

/-- A character that needs no escape is read as it is. -/
theorem quotedFrom_safe {column : Nat} (h : r.Meets column (p :: rest)) (hp : isSafe p = true) (u : Text) :
    ∃ r' sofar', (∀ column t, r'.Meets column t) ∧ r'.settled sofar' = p :: r.settled sofar ∧
      quotedFrom true r sofar (p :: u) = quotedFrom true r' sofar' u := by
  simp only [isSafe, Bool.and_eq_true, Bool.not_eq_true'] at hp
  obtain ⟨⟨hascii, hquote⟩, hbackslash⟩ := hp
  by_cases hblank : p.is ' ' = true
  · have hp : p = ofChar ' ' := CodePoint.is_iff.mp hblank
    subst hp
    cases h with
    | text =>
        exact ⟨.blanks [ofChar ' '], sofar, fun _ _ => .blanks _, rfl, quotedFrom_blank trivial⟩
    | blanks run =>
        exact ⟨.blanks (ofChar ' ' :: run), sofar, fun _ _ => .blanks _, rfl, quotedFrom_blank trivial⟩
    | joined h => exact absurd h (by simp)
    | escape h hcolumn =>
        refine ⟨.text, ofChar ' ' :: sofar, fun _ _ => .text, rfl, ?_⟩
        have hshort : entry? shortEscapes (ofChar ' ') = some (ofChar ' ').val := by decide
        rw [quotedFrom]
        simp only [hshort, codePoint_val]
  · rw [Bool.not_eq_true] at hblank
    have hr : r.Ready := h.ready (.inl hblank)
    refine ⟨.text, p :: r.settled sofar, fun _ _ => .text, rfl, ?_⟩
    have hprinted : isPrinted p = true := by simp [isPrinted, hascii]
    have hbreak : p.is '\n' = false := CodePoint.is_eq_false hascii '\n' rfl
    rw [quotedFrom_character hr hprinted hbreak hblank]
    simp [hquote, hbackslash]

/--
**A text in double quotes reads back as itself**, wherever its lines were broken.

The induction is on the text; what carries it is that the reader never stands behind a
break while characters of the text are still to be counted as blanks.
-/
theorem quotedFrom_writtenDouble (t : Text) {column : Nat} {inner escaped : Bool} {after : Text}
    (h : r.Meets column t) :
    quotedFrom true r sofar (writtenDouble inner escaped column t ++ ofChar '"' :: after) =
      .ok ((r.settled sofar).reverse ++ t, after) := by
  induction t generalizing r sofar column inner escaped with
  | nil =>
      rw [writtenDouble, List.nil_append]
      rw [quotedFrom_character (h.ready (.inl rfl)) rfl (by decide) (by decide)]
      simp
  | cons p t ih =>
      rw [writtenDouble]
      by_cases hsafe : isSafe p = true
      · rw [if_pos hsafe]
        split
        next hwide =>
          -- The line goes on with the character, and joins again in front of it.
          simp only [Bool.and_eq_true, decide_eq_true_eq] at hwide
          have hr : r.Ready := h.ready (.inr hwide.2)
          rw [List.append_assoc, quotedFrom_continued hr]
          have hmeets := Reading.onNextLine_meets (Nat.zero_le lineWidth) (p :: t)
          obtain ⟨r', sofar', hr', hsettled, hread⟩ := quotedFrom_safe hmeets hsafe
            (writtenDouble true false
              (Cursor.columnAfter column (continued (p :: t)) + 1) t ++ ofChar '"' :: after)
          rw [List.cons_append, hread, ih (hr' _ _), hsettled]
          simp
        next =>
          obtain ⟨r', sofar', hr', hsettled, hread⟩ := quotedFrom_safe h hsafe
            (writtenDouble true false (column + 1) t ++ ofChar '"' :: after)
          rw [List.cons_append, hread, ih (hr' _ _), hsettled]
          simp
      · have hblank : p.is ' ' = false := by
          rw [Bool.eq_false_iff]
          intro hp
          rw [CodePoint.is_iff.mp hp] at hsafe
          exact hsafe (by decide)
        have hr : r.Ready := h.ready (.inl hblank)
        rw [if_neg hsafe]
        dsimp only
        split
        next hwide =>
          -- The line ends behind the escape; the next may begin with a blank of the text.
          rw [List.append_assoc, List.append_assoc, quotedFrom_escape hr]
          rw [quotedFrom_continued Reading.ready_text]
          rw [ih (Reading.onNextLine_meets (columnAfter_continued _ _ _) _)]
          simp
        next =>
          rw [List.append_assoc, quotedFrom_escape hr, ih .text]
          simp

theorem printed_continued (t : Text) : Printed (continued t) := by
  rw [continued, printed_append]
  refine ⟨by decide, ?_⟩
  split <;> decide

/-- Whatever is in a text, in double quotes it is written in printable ASCII. -/
theorem printed_writtenDouble (t : Text) {column : Nat} {inner escaped : Bool} :
    Printed (writtenDouble inner escaped column t) := by
  induction t generalizing column inner escaped with
  | nil => exact printed_nil
  | cons p t ih =>
      rw [writtenDouble]
      by_cases hsafe : isSafe p = true
      · have hp : isPrinted p = true := by
          simp only [isSafe, Bool.and_eq_true] at hsafe
          simp [isPrinted, hsafe.1.1]
        rw [if_pos hsafe]
        split
        · exact printed_append.mpr ⟨printed_continued _, printed_cons.mpr ⟨hp, ih⟩⟩
        · exact printed_cons.mpr ⟨hp, ih⟩
      · rw [if_neg hsafe]
        dsimp only
        split
        · exact printed_append.mpr ⟨printed_append.mpr ⟨printed_escape p, printed_continued _⟩, ih⟩
        · exact printed_append.mpr ⟨printed_escape p, ih⟩

/-- The whole of a text in double quotes. -/
theorem quoted_writtenDouble (t : Text) {inner escaped : Bool} {column : Nat} {after : Text} :
    quoted true (writtenDouble inner escaped column t ++ ofChar '"' :: after) = .ok (t, after) :=
  quotedFrom_writtenDouble t .text

/-! ### Texts in single quotes -/

/-- A character of a word, a quote being written twice. -/
theorem quotedFrom_doubledQuotes_cons (hr : r.Ready) (hp : isPrinted p = true)
    (hgap : isGapPoint p = false) (t : Text) :
    quotedFrom false r sofar (doubledQuotes (p :: t) ++ rest) =
      quotedFrom false .text (p :: r.settled sofar) (doubledQuotes t ++ rest) := by
  rw [isGapPoint, Bool.or_eq_false_iff, isBreak_of_printed hp] at hgap
  rw [doubledQuotes, List.flatMap_cons, List.append_assoc]
  by_cases hquote : p.is '\'' = true
  · rw [if_pos hquote, List.cons_append, List.singleton_append]
    rw [quotedFrom_character hr hp hgap.2 hgap.1]
    simp [quotedFrom, hquote, doubledQuotes]
  · rw [if_neg hquote, List.singleton_append, quotedFrom_character hr hp hgap.2 hgap.1]
    simp [hquote, doubledQuotes]

/-- The characters of a word. -/
theorem quotedFrom_doubledQuotes {w : Text} (hprinted : Printed w)
    (hgap : ∀ p ∈ w, isGapPoint p = false) :
    quotedFrom false .text sofar (doubledQuotes w ++ rest) =
      quotedFrom false .text (w.reverse ++ sofar) rest := by
  induction w generalizing sofar with
  | nil => rfl
  | cons p w ih =>
      obtain ⟨hp, hw⟩ := printed_cons.mp hprinted
      rw [quotedFrom_doubledQuotes_cons Reading.ready_text hp (hgap p (by simp))]
      rw [ih hw fun q hq => hgap q (by simp [hq])]
      simp

/-- A run of blanks. -/
theorem quotedFrom_blanks (n : Nat) :
    quotedFrom double .text sofar (List.replicate (n + 1) (ofChar ' ') ++ rest) =
      quotedFrom double (.blanks (List.replicate (n + 1) (ofChar ' '))) sofar rest := by
  induction n generalizing rest with
  | zero => exact quotedFrom_blank Reading.ready_text
  | succ n ih =>
      rw [List.replicate_succ', List.append_assoc, ih, List.singleton_append]
      rw [quotedFrom_blank (Reading.ready_blanks _), Reading.blank, ← List.replicate_succ]
      rw [← List.replicate_succ']

/-- A run of breaks. -/
theorem quotedFrom_breaks (n : Nat) (h : atSeparator rest = false) :
    quotedFrom double .text sofar (List.replicate (n + 1) (ofChar '\n') ++ rest) =
      quotedFrom double (.breaks (ofChar '\n') (List.replicate n (ofChar '\n'))) sofar rest := by
  induction n generalizing rest with
  | zero => exact quotedFrom_break Reading.ready_text h
  | succ n ih =>
      rw [List.replicate_succ', List.append_assoc, List.singleton_append, ih (atSeparator_break rest)]
      rw [quotedFrom_break (Reading.ready_breaks _ _) h]
      rfl

/-- A run of breaks, with the margin of the line behind it. -/
theorem quotedFrom_breaks_margin (n : Nat) :
    quotedFrom double .text sofar (List.replicate (n + 1) (ofChar '\n') ++ margin ++ rest) =
      quotedFrom double (.breaks (ofChar '\n') (List.replicate n (ofChar '\n'))) sofar rest := by
  have hbreaks := Reading.ready_breaks (ofChar '\n') (List.replicate n (ofChar '\n'))
  have hmargin : margin ++ rest = ofChar ' ' :: ofChar ' ' :: rest := rfl
  rw [List.append_assoc, hmargin, quotedFrom_breaks n (atSeparator_blank _)]
  rw [quotedFrom_blank hbreaks, Reading.blank, quotedFrom_blank hbreaks, Reading.blank]

/--
A piece is read as what it stands for.

A gap has to come behind a character, or else it would be counted together with what
is there already; behind a word there is one.
-/
theorem quotedFrom_piece {piece : Piece} (hr : r.Ready) (hgap : piece.isGap = true → r = .text)
    (hwhole : piece.Whole) (hprinted : Printed piece.text) (mayBreak : Bool) (column : Nat) (rest : Text) :
    ∃ r' sofar', r'.Ready ∧ (piece.isGap = false → r' = .text) ∧
      r'.settled sofar' = piece.text.reverse ++ r.settled sofar ∧
      quotedFrom false r sofar (writtenPiece true mayBreak column piece ++ rest) =
        quotedFrom false r' sofar' rest := by
  cases piece with
  | word w =>
      obtain ⟨p, w, rfl⟩ := List.exists_cons_of_ne_nil hwhole.1
      obtain ⟨hp, hw⟩ := printed_cons.mp hprinted
      refine ⟨.text, w.reverse ++ p :: r.settled sofar, Reading.ready_text, fun _ => rfl, ?_, ?_⟩
      · simp [Piece.text]
      · rw [writtenPiece, if_pos rfl, quotedFrom_doubledQuotes_cons hr hp (hwhole.2 p (by simp))]
        exact quotedFrom_doubledQuotes hw fun q hq => hwhole.2 q (by simp [hq])
  | blanks n =>
      obtain rfl := hgap rfl
      obtain ⟨n, rfl⟩ := Nat.exists_eq_add_one.mpr hwhole
      rw [writtenPiece, writtenBlanks]
      split
      next h =>
        simp only [Bool.and_eq_true, decide_eq_true_eq] at h
        obtain rfl : n = 0 := Nat.succ.inj h.1.1
        exact ⟨.breaks (ofChar '\n') [], sofar, Reading.ready_breaks _ _, Bool.noConfusion, rfl,
          quotedFrom_breaks_margin 0⟩
      next =>
        refine ⟨.blanks (List.replicate (n + 1) (ofChar ' ')), sofar, Reading.ready_blanks _,
          Bool.noConfusion, ?_, quotedFrom_blanks n⟩
        rw [Reading.settled, Piece.text, List.reverse_replicate, Reading.settled_text]
  | breaks n =>
      obtain rfl := hgap rfl
      obtain ⟨n, rfl⟩ := Nat.exists_eq_add_one.mpr hwhole
      refine ⟨.breaks (ofChar '\n') (List.replicate (n + 1) (ofChar '\n')), sofar,
        Reading.ready_breaks _ _, Bool.noConfusion, ?_, quotedFrom_breaks_margin (n + 1)⟩
      rw [Piece.text, List.reverse_replicate]
      rfl

/--
**Pieces in single quotes read back as the text they are of.**

The induction is on the pieces; since words and gaps take turns, the reader is behind a
character whenever a gap comes.
-/
theorem quotedFrom_writtenPieces (ps : List Piece) {inner : Bool} {column : Nat} {after : Text}
    (hwhole : ∀ piece ∈ ps, piece.Whole) (hturns : ps.IsChain Piece.TakeTurns)
    (hprinted : Printed (ps.flatMap Piece.text)) (hr : r.Ready)
    (hgap : ∀ piece ∈ ps.head?, piece.isGap = true → r = .text)
    (hafter : after.head?.any (·.is '\'') = false) :
    quotedFrom false r sofar (writtenPieces true inner column ps ++ ofChar '\'' :: after) =
      .ok ((r.settled sofar).reverse ++ ps.flatMap Piece.text, after) := by
  induction ps generalizing r sofar inner column with
  | nil =>
      rw [writtenPieces, List.nil_append, quotedFrom_character hr rfl (by decide) (by decide)]
      cases after with
      | nil => simp [quotedFrom]
      | cons q after =>
          have hq : q.is '\'' = false := hafter
          simp [quotedFrom, hq]
  | cons piece ps ih =>
      obtain ⟨hturn, hturns⟩ := List.isChain_cons.mp hturns
      rw [List.flatMap_cons, printed_append] at hprinted
      rw [writtenPieces_cons, List.append_assoc, List.flatMap_cons]
      obtain ⟨r', sofar', hr', htext, hsettled, hread⟩ := quotedFrom_piece hr (hgap piece (by simp))
        (hwhole piece (by simp)) hprinted.1 (inner && !ps.isEmpty) column (writtenPieces true true
          (Cursor.columnAfter column (writtenPiece true (inner && !ps.isEmpty) column piece)) ps ++
            ofChar '\'' :: after)
      have hnext : ∀ next ∈ ps.head?, next.isGap = true → r' = .text := by
        intro next hnext hkind
        apply htext
        have hother := hturn next hnext
        rw [Piece.TakeTurns, hkind] at hother
        exact Bool.eq_false_iff.mpr hother
      rw [hread, ih (fun other h => hwhole other (by simp [h])) hturns hprinted.2 hr' hnext, hsettled]
      simp

/-- **A text in single quotes reads back as itself**, if no blank in it stands beside a break. -/
theorem quoted_writtenPieces {t : Text} (h : Printed t) (hapart : Apart t) {inner : Bool} {column : Nat}
    {after : Text} (hafter : after.head?.any (·.is '\'') = false) :
    quoted false (writtenPieces true inner column (pieces t) ++ ofChar '\'' :: after) = .ok (t, after) := by
  have htext := flatMap_pieces h
  rw [quoted, quotedFrom_writtenPieces (pieces t) (whole_pieces t) (isChain_pieces h hapart) _
    Reading.ready_text (fun _ _ _ => rfl) hafter, htext]
  · rfl
  · rwa [htext]

end Yaml
end GestureStore
