/-
Texts without quotes.

A text stands without quotes if it is made of words with blanks between them, and
nothing in it would be taken for a mark: no word begins with a hash or ends in a
colon.  Such a text is read word by word, whether its blanks are still blanks or one
of them has become the end of a line.
-/
import GestureStore.Proofs.Yaml.Pieces
import GestureStore.Yaml.Reader

namespace GestureStore
namespace Yaml

open CodePoint (ofChar)

/-! ### Words with blanks between them -/

/-- A word that is not taken for anything else. -/
structure IsWord (w : Text) : Prop where
  /-- There is something in it. -/
  ne : w ≠ []
  /-- There is nothing in it that would need an escape. -/
  printed : Printed w
  /-- There is no gap in it. -/
  solid : ∀ p ∈ w, isGapPoint p = false
  /-- It does not begin as a comment does. -/
  hash : ∀ p ∈ w.head?, p.is '#' = false
  /-- It does not end as a key does. -/
  colon : ∀ p ∈ w.getLast?, p.is ':' = false

/-- Words with blanks between them. -/
inductive Words : List Piece → Prop
  | last {w : Text} (hw : IsWord w) : Words [.word w]
  | cons {w : Text} {n : Nat} {ps : List Piece} (hw : IsWord w) (hn : 0 < n) (hps : Words ps) :
    Words (.word w :: .blanks n :: ps)

/-! ### Reading a word -/

variable {w rest : Text}

theorem atGap_cons {p : CodePoint} (hp : isPrinted p = true) (t : Text) :
    atGap (p :: t) = isGapPoint p := by
  have htab : p.is '\t' = false := CodePoint.is_eq_false hp '\t' rfl
  simp [atGap, isGapPoint, htab]

theorem word_of_atGap (h : atGap rest = true) : word false rest = ([], rest) := by
  cases rest with
  | nil => rfl
  | cons p rest => simp [word, h]

/-- A word is read up to where the scalar is over or a gap comes. -/
theorem word_append (hprinted : Printed w) (hsolid : ∀ p ∈ w, isGapPoint p = false)
    (hcolon : ∀ p ∈ w.getLast?, p.is ':' = false) (hrest : word false rest = ([], rest)) :
    word false (w ++ rest) = (w, rest) := by
  induction w with
  | nil => exact hrest
  | cons p w ih =>
      obtain ⟨hp, hw⟩ := printed_cons.mp hprinted
      have hgap : atGap (p :: (w ++ rest)) = false := (atGap_cons hp _).trans (hsolid p (by simp))
      have hends : (p.is ':' && colonEnds false (w ++ rest)) = false := by
        cases w with
        | nil =>
            have hlast : p.is ':' = false := hcolon p rfl
            simp [hlast]
        | cons q w =>
            have hq : atGap (q :: (w ++ rest)) = false :=
              (atGap_cons (printed_cons.mp hw).1 _).trans (hsolid q (by simp))
            simp [colonEnds, hq]
      have hlast : ∀ q ∈ w.getLast?, q.is ':' = false := by
        intro q hq
        apply hcolon
        cases w with
        | nil => exact absurd hq (by simp)
        | cons r w => simpa using hq
      rw [List.cons_append, word, hgap, hends]
      simp [ih hw (fun q hq => hsolid q (by simp [hq])) hlast]

/-! ### Reading a gap -/

theorem breaksFrom_of_solid {sofar : Text} {p : CodePoint} {t : Text} (hp : isGapPoint p = false) :
    breaksFrom sofar (p :: t) = (some sofar, p :: t) := by
  rw [isGapPoint, Bool.or_eq_false_iff] at hp
  simp [breaksFrom, hp.1, hp.2]

theorem gap_blanks {n : Nat} {p : CodePoint} {t : Text} (hn : 0 < n) (hp : isGapPoint p = false) :
    gap (List.replicate n (ofChar ' ') ++ p :: t) = (some (List.replicate n (ofChar ' ')), p :: t) := by
  rw [isGapPoint, Bool.or_eq_false_iff] at hp
  have hblank : ∀ q ∈ List.replicate n (ofChar ' '), q.is ' ' = true := by
    intro q hq
    rw [List.eq_of_mem_replicate hq]
    rfl
  rw [gap, List.takeWhile_append_of_pos hblank, List.dropWhile_append_of_pos hblank]
  simp [hp.1, hp.2, Nat.ne_of_gt hn]

theorem gap_nextLine {p : CodePoint} {t : Text} (hp : isGapPoint p = false) :
    gap (nextLine ++ p :: t) = (some [ofChar ' '], p :: t) := by
  have hline : nextLine ++ p :: t = ofChar '\n' :: ofChar ' ' :: ofChar ' ' :: p :: t := rfl
  have hmore : breaksFrom [] (ofChar ' ' :: ofChar ' ' :: p :: t) = (some [], p :: t) :=
    breaksFrom_of_solid hp
  rw [hline, gap]
  simp [hmore, isBreak, normalBreak]

/-- Blanks count as they are, whether the last line ends with them or not. -/
theorem gap_writtenBlanks {n : Nat} {p : CodePoint} {t : Text} (hn : 0 < n) (hp : isGapPoint p = false)
    (mayBreak : Bool) (column : Nat) :
    gap (writtenBlanks mayBreak column n ++ p :: t) = (some (List.replicate n (ofChar ' ')), p :: t) := by
  rw [writtenBlanks]
  split
  next h =>
    simp only [Bool.and_eq_true, decide_eq_true_eq] at h
    rw [h.1.1]
    exact gap_nextLine hp
  next => exact gap_blanks hn hp

theorem atGap_writtenBlanks {n : Nat} (hn : 0 < n) (mayBreak : Bool) (column : Nat) (t : Text) :
    atGap (writtenBlanks mayBreak column n ++ t) = true := by
  obtain ⟨n, rfl⟩ := Nat.exists_eq_add_one.mpr hn
  rw [writtenBlanks]
  split <;> rfl

/-- A gap inside a scalar leads to no first column. -/
theorem columnAfter_writtenBlanks {n : Nat} (hn : 0 < n) (mayBreak : Bool) (column k : Nat) :
    1 ≤ Cursor.columnAfter k (writtenBlanks mayBreak column n) := by
  rw [writtenBlanks]
  split
  · exact (by decide : 1 ≤ 2)
  · rw [Cursor.columnAfter_blanks]
    omega

/-- The end of a field. -/
theorem gap_lineEnd {after : Text} (h : BeginsField after) :
    gap (ofChar '\n' :: after) = (some [ofChar ' '], after) := by
  have hmore : breaksFrom [] after = (some [], after) := by
    cases after with
    | nil => rfl
    | cons p after =>
        have hp : isLetter p = true := h p rfl
        refine breaksFrom_of_solid ?_
        rw [isGapPoint, CodePoint.is_eq_false hp ' ' rfl, isBreak_of_isLetter hp]
        rfl
  rw [gap]
  simp [hmore, isBreak, normalBreak, h.atSeparator]

/-! ### Reading words -/

variable {fuel least column k : Nat} {sofar before between u g after : Text} {fresh inner : Bool}

/-- A word and the gap behind it. -/
theorem plainFrom_word (hw : IsWord w) (hgap : gap (g ++ u) = (some between, u))
    (hg : atGap (g ++ u) = true) :
    plainFrom (fuel + 1) false least sofar before ⟨w ++ (g ++ u), k, fresh⟩ =
      let next := ⟨u, Cursor.columnAfter (Cursor.columnAfter k w) g, g.any isBreak⟩
      if next.column < least then (sofar ++ before ++ w, next)
      else plainFrom fuel false least (sofar ++ before ++ w) between next := by
  obtain ⟨p, t, rfl⟩ := List.exists_cons_of_ne_nil hw.ne
  have hhash : p.is '#' = false := hw.hash p rfl
  have hword := word_append hw.printed hw.solid hw.colon (word_of_atGap hg)
  have hbehind : (Cursor.mk (p :: (t ++ (g ++ u))) k fresh).after (g ++ u) =
      ⟨g ++ u, Cursor.columnAfter k (p :: t), false⟩ := Cursor.after_append (p :: t) (g ++ u) k fresh
  rw [List.cons_append] at hword ⊢
  rw [plainFrom]
  simp only [hhash, Bool.false_eq_true, if_false, hword, hbehind, hgap, Cursor.after_append]
  simp

/-- No gap and no comment comes where words begin. -/
theorem Words.head {ps : List Piece} (h : Words ps) (inner : Bool) (column : Nat) (rest : Text) :
    ∃ p t, writtenPieces false inner column ps ++ rest = p :: t ∧ isGapPoint p = false ∧
      p.is '#' = false := by
  cases h with
  | last hw =>
      obtain ⟨p, t, rfl⟩ := List.exists_cons_of_ne_nil hw.ne
      exact ⟨p, _, rfl, hw.solid p (by simp), hw.hash p rfl⟩
  | cons hw hn hps =>
      obtain ⟨p, t, rfl⟩ := List.exists_cons_of_ne_nil hw.ne
      exact ⟨p, _, rfl, hw.solid p (by simp), hw.hash p rfl⟩

/--
**Words are read with the blanks that were between them.**

A gap inside leads to a column behind the margin, so the scalar goes on; the end of
the field leads to the first column, where it ends.
-/
theorem plainFrom_writtenPieces {ps : List Piece} (h : Words ps) (hfuel : ps.length < fuel)
    (hafter : BeginsField after) :
    plainFrom fuel false 1 sofar before
        ⟨writtenPieces false inner column ps ++ ofChar '\n' :: after, k, fresh⟩ =
      (sofar ++ before ++ ps.flatMap Piece.text, ⟨after, 0, true⟩) := by
  induction h generalizing fuel sofar before inner column k fresh with
  | last hw =>
      obtain ⟨fuel, rfl⟩ := Nat.exists_eq_add_one.mpr (Nat.zero_lt_of_lt hfuel)
      rw [writtenPieces_cons, writtenPieces, List.append_nil]
      refine (plainFrom_word (g := [ofChar '\n']) hw (gap_lineEnd hafter) rfl).trans ?_
      simp [Cursor.columnAfter, isBreak, Piece.text]
  | @cons w n ps hw hn hps ih =>
      obtain ⟨fuel, rfl⟩ := Nat.exists_eq_add_one.mpr (Nat.zero_lt_of_lt hfuel)
      rw [writtenPieces_cons, writtenPieces_cons, List.append_assoc, List.append_assoc]
      simp only [writtenPiece, Bool.false_eq_true, if_false]
      generalize Cursor.columnAfter column w = behind
      generalize (true && !ps.isEmpty) = mayBreak
      generalize Cursor.columnAfter behind (writtenBlanks mayBreak behind n) = next
      obtain ⟨p, t, hhead, hp, -⟩ := hps.head true next (ofChar '\n' :: after)
      have hgap : gap (writtenBlanks mayBreak behind n ++
          (writtenPieces false true next ps ++ ofChar '\n' :: after)) =
            (some (List.replicate n (ofChar ' ')),
              writtenPieces false true next ps ++ ofChar '\n' :: after) := by
        rw [hhead]
        exact gap_writtenBlanks hn hp _ _
      -- Whether the line has ended or not, the next word stands behind the first column.
      rw [plainFrom_word hw hgap (atGap_writtenBlanks hn _ _ _)]
      dsimp only
      rw [if_neg (Nat.not_lt.mpr (columnAfter_writtenBlanks hn _ _ _)), ih (by simp at hfuel; omega)]
      simp [Piece.text]

/-! ### Texts that can stand without quotes -/

/-- A text in which nothing is taken for a mark, nor for the end of it. -/
structure Bare (t : Text) : Prop where
  /-- There is something in it. -/
  ne : t ≠ []
  /-- There is nothing in it that would need an escape. -/
  printed : Printed t
  /-- There is no break in it. -/
  unbroken : t.any isBreak = false
  /-- It does not begin with a gap. -/
  first : t.head?.any isGapPoint = false
  /-- It does not end with one. -/
  final : t.getLast?.any isGapPoint = false
  /-- It does not begin with a mark. -/
  outer : hasOuterMark t = false
  /-- There is no mark inside. -/
  inner : hasInnerMark t = false

/-- A mark inside is found wherever it stands. -/
theorem not_innerMark {t : Text} (h : hasInnerMark t = false) {p q : CodePoint} {rest : Text}
    (hs : p :: q :: rest <:+ t) :
    (q.is ':' = true → atGap rest = false) ∧ (p.is ' ' = true → q.is '#' = false) := by
  induction t with
  | nil => exact absurd hs (by simp)
  | cons r t ih =>
      cases t with
      | nil => exact absurd hs.length_le (by simp)
      | cons r' t =>
          simp only [hasInnerMark, Bool.or_eq_false_iff] at h
          rcases List.suffix_cons_iff.mp hs with heq | hs
          · simp only [List.cons.injEq] at heq
            obtain ⟨rfl, rfl, rfl⟩ := heq
            obtain ⟨⟨hcolon, hhash⟩, -⟩ := h
            refine ⟨fun hq => ?_, fun hp => ?_⟩
            · simpa [hq] using hcolon
            · simpa [hp] using hhash
          · exact ih h.2 hs

/-- What a text without quotes cannot begin with. -/
theorem not_outerMark {p : CodePoint} {t : Text} (h : hasOuterMark (p :: t) = false) :
    p.isOneOf ['#', '"', '\'', '[', '\x7b'] = false ∧
      (p.isOneOf indicators = true → p.isOneOf ['?', ':', '-'] = true ∧ atGap t = false) := by
  simp only [hasOuterMark, Bool.or_eq_false_iff, Bool.and_eq_false_imp] at h
  obtain ⟨⟨-, hmark⟩, hgap⟩ := h
  constructor
  · simp only [CodePoint.isOneOf, List.any_cons, List.any_nil, Bool.or_eq_false_iff] at hmark ⊢
    tauto
  · intro hp
    have hthree : p.isOneOf ['?', ':', '-'] = true := by
      simp only [CodePoint.isOneOf, List.any_cons, List.any_nil, Bool.or_eq_false_iff, indicators,
        Bool.or_eq_true] at hmark hp ⊢
      grind
    exact ⟨hthree, (hgap hthree).1⟩

namespace Bare

variable {t : Text}

/-- No colon stands before a gap. -/
theorem colon (h : Bare t) (hs : ofChar ':' :: rest <:+ t) : atGap rest = false := by
  obtain ⟨s, rfl⟩ := hs
  rcases List.eq_nil_or_concat s with rfl | ⟨s, p, rfl⟩
  · exact ((not_outerMark h.outer).2 (by decide)).2
  · have hinside : p :: ofChar ':' :: rest <:+ s.concat p ++ ofChar ':' :: rest := ⟨s, by simp⟩
    exact (not_innerMark h.inner hinside).1 rfl

theorem printed_suffix (h : Bare t) {s : Text} (hs : s <:+ t) : Printed s :=
  fun p hp => h.printed p (hs.subset hp)

/-- A word of the text, with what stands behind it. -/
theorem isWord (h : Bare t) (hw : (Piece.word w).Whole) (hs : w ++ rest <:+ t)
    (hrest : atGap rest = true) (hhash : ∀ p ∈ (w ++ rest).head?, p.is '#' = false) : IsWord w where
  ne := hw.1
  printed := (printed_append.mp (h.printed_suffix hs)).1
  solid := hw.2
  hash p hp := hhash p (by rw [List.head?_append_of_ne_nil _ hw.1]; exact hp)
  colon p hp := by
    rw [Bool.eq_false_iff]
    intro hcolon
    obtain rfl := CodePoint.is_iff.mp hcolon
    obtain ⟨u, rfl⟩ := List.getLast?_eq_some_iff.mp hp
    have hsuffix : ofChar ':' :: rest <:+ t := List.IsSuffix.trans ⟨u, by simp⟩ hs
    have hgap := h.colon hsuffix
    rw [hrest] at hgap
    exact Bool.noConfusion hgap

/-- The pieces of the text, from a word on, are words with blanks between them. -/
theorem words_of_suffix (h : Bare t) : ∀ ps : List Piece, (∀ piece ∈ ps, piece.Whole) →
    ps.IsChain Piece.TakeTurns → ps.flatMap Piece.text <:+ t →
    (∀ p ∈ (ps.flatMap Piece.text).head?, p.is '#' = false) → ps.head?.any Piece.isGap = false →
    ps ≠ [] → Words ps
  | [], _, _, _, _, _, hne => absurd rfl hne
  | [.word w], hwhole, _, hs, hhash, _, _ => by
      rw [List.flatMap_cons] at hs hhash
      exact .last (h.isWord (hwhole _ (by simp)) hs rfl hhash)
  | .word w :: .blanks n :: ps, hwhole, hturns, hs, hhash, _, _ => by
      have hn : 0 < n := hwhole (.blanks n) (by simp)
      obtain ⟨m, rfl⟩ := Nat.exists_eq_add_one.mpr hn
      obtain ⟨-, hturns⟩ := List.isChain_cons.mp hturns
      obtain ⟨hturn, hturns⟩ := List.isChain_cons.mp hturns
      rw [List.flatMap_cons, List.flatMap_cons] at hs hhash
      have hrest : ps.flatMap Piece.text <:+ t :=
        List.IsSuffix.trans ⟨w ++ List.replicate (m + 1) (ofChar ' '), by simp [Piece.text]⟩ hs
      -- There is a word behind the blanks, since the text does not end with them.
      have hne : ps ≠ [] := by
        rintro rfl
        obtain ⟨s, rfl⟩ := hs
        have hfinal := h.final
        simp [Piece.text, List.getLast?_append, List.replicate_succ', isGapPoint] at hfinal
      have hcomment : ∀ p ∈ (ps.flatMap Piece.text).head?, p.is '#' = false := by
        intro p hp
        obtain ⟨u, hu⟩ := List.head?_eq_some_iff.mp hp
        have hinside : ofChar ' ' :: p :: u <:+ t :=
          List.IsSuffix.trans ⟨w ++ List.replicate m (ofChar ' '),
            by simp [Piece.text, hu, List.replicate_succ']⟩ hs
        exact (not_innerMark h.inner hinside).2 rfl
      have hword : ps.head?.any Piece.isGap = false := by
        cases ps with
        | nil => rfl
        | cons piece ps => exact Bool.eq_false_iff.mpr (hturn piece rfl).symm
      exact .cons (h.isWord (hwhole _ (by simp)) hs rfl hhash) hn
        (h.words_of_suffix ps (fun piece hp => hwhole piece (by simp [hp])) hturns hrest hcomment hword hne)
  | .word w :: .breaks n :: ps, hwhole, _, hs, _, _, _ => by
      have hn : 0 < n := hwhole (.breaks n) (by simp)
      obtain ⟨m, rfl⟩ := Nat.exists_eq_add_one.mpr hn
      have hmem : ofChar '\n' ∈ t := hs.subset (by simp [Piece.text])
      have hbreak := List.any_eq_false.mp h.unbroken _ hmem
      exact absurd rfl hbreak
  | .word w :: .word w' :: ps, _, hturns, _, _, _, _ => by
      exact absurd rfl (List.isChain_cons_cons.mp hturns).1
  | .blanks n :: ps, _, _, _, _, hgap, _ => Bool.noConfusion hgap
  | .breaks n :: ps, _, _, _, _, hgap, _ => Bool.noConfusion hgap

/-- **The pieces of the text are words with blanks between them.** -/
theorem words (h : Bare t) : Words (pieces t) := by
  have htext := flatMap_pieces h.printed
  have hturns := isChain_pieces h.printed (apart_of_unbroken h.unbroken)
  refine h.words_of_suffix (pieces t) (whole_pieces t) hturns ⟨[], htext⟩ ?_ ?_ ?_
  · rw [htext]
    intro p hp
    obtain ⟨u, rfl⟩ := List.head?_eq_some_iff.mp hp
    have hbegins := (not_outerMark h.outer).1
    simp only [CodePoint.isOneOf, List.any_cons, Bool.or_eq_false_iff] at hbegins
    exact hbegins.1
  · cases hpieces : pieces t with
    | nil => rfl
    | cons piece ps =>
        have hpiece : piece ∈ (pieces t).head? := by simp [hpieces]
        obtain ⟨p, u, hp, hkind⟩ :=
          Piece.exists_text_eq_cons (whole_pieces t piece (List.mem_of_mem_head? hpiece))
        have hfirst := h.first
        rw [head?_pieces h.printed hpiece, hp] at hfirst
        exact hkind.symm.trans hfirst
  · intro hnil
    rw [hnil] at htext
    exact h.ne htext.symm

end Bare

/-- Where words begin, a scalar does. -/
theorem beginsPlain_words {p : CodePoint} {w t u : Text} (hw : IsWord (p :: w))
    (houter : hasOuterMark (p :: (w ++ t)) = false) (ht : atGap t = true) :
    beginsPlain false (p :: (w ++ u)) = true := by
  have hgap : atGap (p :: (w ++ u)) = false :=
    (atGap_cons (printed_cons.mp hw.printed).1 _).trans (hw.solid p (by simp))
  rw [beginsPlain, hgap]
  by_cases hp : p.isOneOf indicators = true
  · obtain ⟨hthree, hinside⟩ := (not_outerMark houter).2 hp
    have hnext : atGap (w ++ u) = false := by
      cases w with
      | nil =>
          rw [List.nil_append, ht] at hinside
          exact Bool.noConfusion hinside
      | cons q w =>
          obtain ⟨-, hq⟩ := printed_cons.mp hw.printed
          exact (atGap_cons (printed_cons.mp hq).1 _).trans (hw.solid q (by simp))
    simp only [CodePoint.isOneOf, List.any_cons, List.any_nil, Bool.or_false] at hthree ⊢
    simp only [hnext]
    grind
  · simp [hp]

/-- What stands behind the first word of a text is a gap, or nothing. -/
theorem Words.exists_word {ps : List Piece} (h : Words ps) :
    ∃ w qs, ps = .word w :: qs ∧ IsWord w ∧ atGap (qs.flatMap Piece.text) = true := by
  cases h with
  | last hw => exact ⟨_, _, rfl, hw, rfl⟩
  | cons hw hn hps =>
      obtain ⟨n, rfl⟩ := Nat.exists_eq_add_one.mpr hn
      exact ⟨_, _, rfl, hw, rfl⟩

/-- A node that begins like a scalar without quotes is one. -/
theorem inlineNode_of_beginsPlain {c : Cursor} {p : CodePoint} {t : Text} (hc : c.rest = p :: t)
    (hmarks : p.isOneOf ['#', '"', '\'', '[', '\x7b'] = false) (h : beginsPlain false (p :: t) = true)
    (depth : Nat) :
    inlineNode fuel depth least c =
      .ok (.scalar (plainAt false least c).1 false, (plainAt false least c).2) := by
  simp only [CodePoint.isOneOf, List.any_cons, List.any_nil, Bool.or_eq_false_iff] at hmarks
  obtain ⟨-, hdouble, hsingle, hbracket, hbrace, -⟩ := hmarks
  simp [inlineNode, scalarAt, atOneOf, CodePoint.isOneOf, hc, hdouble, hsingle, hbracket, hbrace, h]

/-- **A text without quotes reads back as itself.** -/
theorem inlineNode_bare {t : Text} (h : Bare t) (hafter : BeginsField after) (depth : Nat) :
    inlineNode fuel depth 1
        ⟨writtenPieces false false column (pieces t) ++ ofChar '\n' :: after, k, fresh⟩ =
      .ok (.scalar t false, ⟨after, 0, true⟩) := by
  have hwords := h.words
  have htext := flatMap_pieces h.printed
  have hlength := @length_le_writtenPieces _ (whole_pieces t) false column
  have hread : plainAt false 1
        ⟨writtenPieces false false column (pieces t) ++ ofChar '\n' :: after, k, fresh⟩ =
      (t, ⟨after, 0, true⟩) := by
    rw [plainAt, plainFrom_writtenPieces hwords _ hafter, htext]
    · rfl
    · rw [List.length_append]
      omega
  obtain ⟨w, ps, hpieces, hw, hps⟩ := hwords.exists_word
  obtain ⟨p, w, rfl⟩ := List.exists_cons_of_ne_nil hw.ne
  have houter := h.outer
  rw [← htext, hpieces, List.flatMap_cons] at houter
  have hwritten : writtenPieces false false column (pieces t) ++ ofChar '\n' :: after =
      p :: (w ++ (writtenPieces false true (Cursor.columnAfter column (p :: w)) ps ++
        ofChar '\n' :: after)) := by
    rw [hpieces, writtenPieces_cons, List.append_assoc]
    rfl
  rw [inlineNode_of_beginsPlain hwritten (not_outerMark houter).1 (beginsPlain_words hw houter hps) depth]
  rw [hread]

/-! ### Names -/

/-- A name of a field. -/
structure IsName (name : Text) : Prop where
  /-- There is something in it. -/
  ne : name ≠ []
  /-- It is made of letters. -/
  letters : ∀ p ∈ name, isLetter p = true
  /-- It is not too long for a key. -/
  short : name.length ≤ maxKeyLength
  /-- It means a text. -/
  text : plain name = .text

theorem isWord_of_letters {w : Text} (hne : w ≠ []) (h : ∀ p ∈ w, isLetter p = true) : IsWord w where
  ne := hne
  printed p hp := isPrinted_of_isLetter (h p hp)
  solid p hp := by
    rw [isGapPoint, CodePoint.is_eq_false (h p hp) ' ' rfl, isBreak_of_isLetter (h p hp)]
    rfl
  hash p hp := CodePoint.is_eq_false (h p (List.mem_of_mem_head? hp)) '#' rfl
  colon p hp := CodePoint.is_eq_false (h p (List.mem_of_mem_getLast? hp)) ':' rfl

/-- A name is read up to its colon. -/
theorem plainAt_name {name : Text} (h : IsName name) :
    plainAt false least ⟨name ++ ofChar ':' :: ofChar ' ' :: u, k, fresh⟩ =
      (name, ⟨ofChar ':' :: ofChar ' ' :: u, Cursor.columnAfter k name, false⟩) := by
  have hname := isWord_of_letters h.ne h.letters
  have hword := @word_append _ (ofChar ':' :: ofChar ' ' :: u) hname.printed hname.solid hname.colon rfl
  have hgap : gap (ofChar ':' :: ofChar ' ' :: u) = (none, ofChar ':' :: ofChar ' ' :: u) := rfl
  have hbehind := Cursor.after_append name (ofChar ':' :: ofChar ' ' :: u) k fresh
  obtain ⟨p, t, rfl⟩ := List.exists_cons_of_ne_nil h.ne
  have hhash : p.is '#' = false := hname.hash p rfl
  rw [List.cons_append] at hword hbehind ⊢
  rw [plainAt, plainFrom]
  simp only [hhash, Bool.false_eq_true, if_false, hword, hbehind, hgap]
  simp [Cursor.after, Cursor.columnAfter]

/-- **A name is read as a scalar, up to its colon.** -/
theorem inlineNode_name {name : Text} (h : IsName name) (depth : Nat) :
    inlineNode fuel depth least ⟨name ++ ofChar ':' :: ofChar ' ' :: u, k, fresh⟩ =
      .ok (.scalar name false, ⟨ofChar ':' :: ofChar ' ' :: u, Cursor.columnAfter k name, false⟩) := by
  obtain ⟨p, t, hpt⟩ := List.exists_cons_of_ne_nil h.ne
  have hp : isLetter p = true := h.letters p (by simp [hpt])
  have hsolid : isGapPoint p = false := (isWord_of_letters h.ne h.letters).solid p (by simp [hpt])
  have hmarks := CodePoint.isOneOf_eq_false hp ['#', '"', '\'', '[', '\x7b'] rfl
  have hbegins : beginsPlain false (p :: (t ++ ofChar ':' :: ofChar ' ' :: u)) = true := by
    rw [beginsPlain, CodePoint.isOneOf_eq_false hp indicators rfl]
    rw [atGap_cons (isPrinted_of_isLetter hp), hsolid]
    rfl
  have hrest : name ++ ofChar ':' :: ofChar ' ' :: u = p :: (t ++ ofChar ':' :: ofChar ' ' :: u) := by
    rw [hpt]
    rfl
  rw [inlineNode_of_beginsPlain hrest hmarks hbegins depth, plainAt_name h]

end Yaml
end GestureStore
