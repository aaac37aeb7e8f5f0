/-
Documents of settings.

What is written is one mapping, and each of its keys begins a line.  A text is written
in one of three styles, and in each of them it reads back as itself; then the reader
stands where the next key begins.  So field after field is read, up to the end.
-/
import GestureStore.Proofs.Yaml.Quoted
import GestureStore.Proofs.Yaml.Unquoted

namespace GestureStore
namespace Yaml

open CodePoint (ofChar)

/-! ### The style of a text -/

theorem printed_of_features {t : Text} (h : (features t).special = false) : Printed t := by
  intro p hp
  have hall := List.any_eq_false.mp h p hp
  rw [Bool.not_eq_true, Bool.not_eq_false'] at hall
  exact hall

/-- A text without quotes has nothing in it that would be taken for something else. -/
theorem styleFor_plain {t : Text} (h : styleFor t = .plain) :
    Bare t ∧ meansText t = true := by
  rw [styleFor] at h
  split at h
  next => exact Style.noConfusion h
  next hescapes =>
    split at h
    next hplain =>
      simp only [Bool.or_eq_true, not_or, Bool.not_eq_true] at hescapes
      simp only [Bool.and_eq_true, Bool.not_eq_true'] at hplain
      obtain ⟨⟨⟨⟨⟨hmeans, hne⟩, hgap⟩, -⟩, hbroken⟩, hmarked⟩ := hplain
      have hgap := Bool.or_eq_false_iff.mp hgap
      have hmarked := Bool.or_eq_false_iff.mp hmarked
      have hprinted := printed_of_features hescapes.1
      refine ⟨⟨?_, hprinted, hbroken, hgap.1, hgap.2, hmarked.1, hmarked.2⟩, hmeans⟩
      rintro rfl
      exact Bool.noConfusion hne
    next =>
      split at h
      next => exact Style.noConfusion h
      next => exact Style.noConfusion h

/-- A text in single quotes needs no escape, and its gaps stay apart. -/
theorem styleFor_single {t : Text} (h : styleFor t = .single) : Printed t ∧ Apart t := by
  rw [styleFor] at h
  split at h
  next => exact Style.noConfusion h
  next hescapes =>
    simp only [Bool.or_eq_true, not_or, Bool.not_eq_true] at hescapes
    split at h
    next => exact Style.noConfusion h
    next =>
      split at h
      next => exact Style.noConfusion h
      next hindented =>
        exact ⟨printed_of_features hescapes.1, hescapes.2, Bool.eq_false_iff.mpr hindented⟩

/-! ### One field -/

/-- What stands behind the name of a field. -/
def Entry.body (column : Nat) : Entry → Text
  | text t => writtenText column t
  | bool b => Text.of (if b then "true" else "false")

/-- The node that a value of a field is read as. -/
def Entry.node : Entry → Node
  | text t => .scalar t (styleFor t != .plain)
  | bool b => .scalar (Text.of (if b then "true" else "false")) false

/-- The value of a field. -/
def Entry.value : Entry → Value
  | text t => .text t
  | bool b => .bool b

theorem writtenField_append (name rest : Text) (entry : Entry) :
    writtenField name entry ++ rest =
      name ++ ofChar ':' :: ofChar ' ' :: (entry.body (name.length + 2) ++ ofChar '\n' :: rest) := by
  cases entry with
  | text t => simp [writtenField, Entry.body, Text.of]
  | bool b => simp [writtenField, Entry.body, Text.of]

variable {fuel depth k column : Nat} {fresh required : Bool} {least : Nat} {after rest : Text}

/-- The words for truth values are bare texts. -/
theorem bare_bool (b : Bool) : Bare (Text.of (if b then "true" else "false")) := by
  cases b with
  | true => exact ⟨by decide, by decide, by decide, by decide, by decide, by decide, by decide⟩
  | false => exact ⟨by decide, by decide, by decide, by decide, by decide, by decide, by decide⟩

theorem body_bool (b : Bool) : (Entry.bool b).body column =
    writtenPieces false false column (pieces (Text.of (if b then "true" else "false"))) := by
  cases b <;> rfl

/-- What stands behind a colon is neither a gap nor a comment. -/
theorem Entry.exists_body_eq_cons (entry : Entry) (column : Nat) (rest : Text) :
    ∃ p t, entry.body column ++ rest = p :: t ∧ isGapPoint p = false ∧ p.is '#' = false := by
  cases entry with
  | bool b =>
      rw [body_bool]
      exact (bare_bool b).words.head _ _ _
  | text t =>
      rw [body, writtenText]
      cases hstyle : styleFor t with
      | plain =>
          obtain ⟨hbare, -⟩ := styleFor_plain hstyle
          exact hbare.words.head _ _ _
      | single => exact ⟨ofChar '\'', _, rfl, rfl, rfl⟩
      | double => exact ⟨ofChar '"', _, rfl, rfl, rfl⟩

/-- Where a quoted scalar has been read, what follows it is next. -/
theorem inlineNode_quoted {double : Bool} {t u : Text} (hafter : BeginsField after)
    (h : quoted double u = .ok (t, ofChar '\n' :: after)) :
    ∃ d, inlineNode fuel depth least ⟨ofChar (if double then '"' else '\'') :: u, k, fresh⟩ =
      .ok (.scalar t true, d) ∧ d.skip = ⟨after, 0, true⟩ := by
  cases double with
  | true =>
      refine ⟨(Cursor.mk (ofChar '"' :: u) k fresh).after (ofChar '\n' :: after), ?_,
        Cursor.skip_lineEnd hafter _ _⟩
      simp [inlineNode, scalarAt, atOneOf, CodePoint.isOneOf, quotedAt, h]
  | false =>
      refine ⟨(Cursor.mk (ofChar '\'' :: u) k fresh).after (ofChar '\n' :: after), ?_,
        Cursor.skip_lineEnd hafter _ _⟩
      simp [inlineNode, scalarAt, atOneOf, CodePoint.isOneOf, quotedAt, h]

/-- **What was written for a value is read as its node**, up to the end of the line. -/
theorem inlineNode_body (entry : Entry) (hafter : BeginsField after) :
    ∃ d, inlineNode fuel depth 1 ⟨entry.body column ++ ofChar '\n' :: after, k, fresh⟩ =
      .ok (entry.node, d) ∧ d.skip = ⟨after, 0, true⟩ := by
  cases entry with
  | bool b =>
      rw [body_bool, inlineNode_bare (bare_bool b) hafter]
      exact ⟨_, rfl, Cursor.skip_field hafter 0 true⟩
  | text t =>
      rw [Entry.body, writtenText, Entry.node]
      cases hstyle : styleFor t with
      | plain =>
          obtain ⟨hbare, -⟩ := styleFor_plain hstyle
          dsimp only
          rw [inlineNode_bare hbare hafter]
          exact ⟨_, rfl, Cursor.skip_field hafter 0 true⟩
      | single =>
          obtain ⟨hprinted, hapart⟩ := styleFor_single hstyle
          have hread :=
            @quoted_writtenPieces _ hprinted hapart false (column + 1) (ofChar '\n' :: after) rfl
          have hopen : Text.of "'" ++ writtenPieces true false (column + 1) (pieces t) ++ Text.of "'" ++
              ofChar '\n' :: after = ofChar '\'' ::
                (writtenPieces true false (column + 1) (pieces t) ++ ofChar '\'' :: ofChar '\n' :: after) := by
            simp [Text.of]
          dsimp only
          rw [hopen]
          exact inlineNode_quoted hafter hread
      | double =>
          have hread := @quoted_writtenDouble t false false (column + 1) (ofChar '\n' :: after)
          have hopen : Text.of "\"" ++ writtenDouble false false (column + 1) t ++ Text.of "\"" ++
              ofChar '\n' :: after = ofChar '"' ::
                (writtenDouble false false (column + 1) t ++ ofChar '"' :: ofChar '\n' :: after) := by
            simp [Text.of]
          dsimp only
          rw [hopen]
          exact inlineNode_quoted hafter hread

/-- The value behind a colon. -/
theorem blockValue_body (entry : Entry) (hafter : BeginsField after) :
    ∃ d, blockValue (fuel + 1) depth 0
        ⟨ofChar ' ' :: (entry.body column ++ ofChar '\n' :: after), k, false⟩ =
      .ok (entry.node, d) ∧ d.skip = ⟨after, 0, true⟩ := by
  obtain ⟨p, t, hbody, hgap, hhash⟩ := entry.exists_body_eq_cons column (ofChar '\n' :: after)
  obtain ⟨d, hread, hskip⟩ := @inlineNode_body fuel depth (k + 1) column false after entry hafter
  rw [isGapPoint, Bool.or_eq_false_iff] at hgap
  have hblank : (Cursor.mk (ofChar ' ' :: (entry.body column ++ ofChar '\n' :: after)) k false).skip =
      ⟨entry.body column ++ ofChar '\n' :: after, k + 1, false⟩ := by
    rw [hbody]
    show Cursor.skipFrom false false (k + 1) (p :: t) = _
    simp [Cursor.skipFrom, hgap.1, hgap.2, hhash]
  have hmore : (entry.body column ++ ofChar '\n' :: after).isEmpty = false := by
    rw [hbody]
    rfl
  refine ⟨d, ?_, hskip⟩
  rw [blockValue.eq_def]
  dsimp only
  rw [hblank]
  simp only [Cursor.atEnd, hmore, Bool.false_eq_true, if_false, valueOnLine, hread]
  simp [bind, Except.bind, hskip, pure, Except.pure]

/-- A name and its colon. -/
theorem keyAt_name {name : Text} (h : IsName name) (u : Text) :
    ∃ k', keyAt fuel depth least required ⟨name ++ ofChar ':' :: ofChar ' ' :: u, k, fresh⟩ =
      .ok (.key (.scalar name false) ⟨ofChar ' ' :: u, k', false⟩) := by
  obtain ⟨p, t, hpt⟩ := List.exists_cons_of_ne_nil h.ne
  have hp : isLetter p = true := h.letters p (by simp [hpt])
  have hcheck : checkKey required ⟨name ++ ofChar ':' :: ofChar ' ' :: u, k, fresh⟩ = .ok () := by
    rw [checkKey, hpt]
    simp [atOneOf, CodePoint.isOneOf_eq_false hp ['[', '\x7b'] rfl]
  have hline : name.any isBreak = false := by
    rw [List.any_eq_false]
    intro q hq
    rw [isBreak_of_isLetter (h.letters q hq)]
    exact Bool.false_ne_true
  have hkey (k' : Nat) : isKey ⟨name ++ ofChar ':' :: ofChar ' ' :: u, k, fresh⟩
      ⟨ofChar ':' :: ofChar ' ' :: u, k', false⟩ = true := by
    simp [isKey, h.short, hline]
  have hskip (k' : Nat) : (Cursor.mk (ofChar ':' :: ofChar ' ' :: u) k' false).skip =
      ⟨ofChar ':' :: ofChar ' ' :: u, k', false⟩ := rfl
  refine ⟨Cursor.columnAfter (Cursor.columnAfter k name) [ofChar ':'], ?_⟩
  rw [keyAt, hcheck, inlineNode_name h]
  simp only [bind, Except.bind, hskip, hkey]
  simp [atMark, atGap, Cursor.next, Cursor.after, pure, Except.pure]

/-! ### All fields -/

/-- Fields whose keys are names. -/
def Named (fields : List (Text × Entry)) : Prop := ∀ f ∈ fields, IsName f.1

theorem named_cons {f : Text × Entry} {fields : List (Text × Entry)} :
    Named (f :: fields) ↔ IsName f.1 ∧ Named fields := List.forall_mem_cons

theorem written_cons (f : Text × Entry) (fields : List (Text × Entry)) :
    written (f :: fields) =
      f.1 ++ ofChar ':' :: ofChar ' ' :: (f.2.body (f.1.length + 2) ++ ofChar '\n' :: written fields) := by
  rw [written, List.flatMap_cons]
  exact writtenField_append f.1 (written fields) f.2

/-- A field begins where fields are written. -/
theorem Named.beginsField {fields : List (Text × Entry)} (h : Named fields) :
    BeginsField (written fields) := by
  cases fields with
  | nil => exact beginsField_nil
  | cons f fields =>
      obtain ⟨hf, -⟩ := named_cons.mp h
      rw [written_cons]
      intro p hp
      rw [List.head?_append_of_ne_nil _ hf.ne] at hp
      exact hf.letters p (List.mem_of_mem_head? hp)

theorem not_atDocumentEnd {t : Text} (hne : t ≠ []) (h : BeginsField t) (fresh : Bool) :
    atDocumentEnd ⟨t, k, fresh⟩ = false := by
  simp [atDocumentEnd, Cursor.atEnd, Cursor.onSeparator, h.atSeparator, hne]

/-- The pair of nodes that a field is read as. -/
def pair (f : Text × Entry) : Node × Node := (.scalar f.1 false, f.2.node)

/--
**Field after field is read**, from behind the first colon on.

Every value leaves the cursor at the beginning of a line, so the next name is a key of
the same mapping, and nothing is left over behind the last one.
-/
theorem blockFields_written {fields : List (Text × Entry)} (h : Named fields) {sofar : List (Node × Node)}
    {name : Node} {entry : Entry} (hfuel : fields.length + 1 < fuel) :
    blockFields fuel depth 0 sofar name
        ⟨ofChar ' ' :: (entry.body column ++ ofChar '\n' :: written fields), k, false⟩ =
      .ok (.mapping (sofar.reverse ++ (name, entry.node) :: fields.map pair), ⟨[], 0, true⟩) := by
  induction fields generalizing fuel sofar name entry column k with
  | nil =>
      obtain ⟨fuel, rfl⟩ : ∃ n, fuel = n + 2 := ⟨fuel - 2, by omega⟩
      obtain ⟨d, hread, hskip⟩ := @blockValue_body fuel depth k column (written []) entry h.beginsField
      rw [blockFields.eq_def]
      simp only [hread, bind, Except.bind, hskip]
      simp [written, atDocumentEnd, Cursor.atEnd, pure, Except.pure]
  | cons f fields ih =>
      obtain ⟨hf, hfields⟩ := named_cons.mp h
      rw [List.length_cons] at hfuel
      obtain ⟨fuel, rfl⟩ : ∃ n, fuel = n + 2 := ⟨fuel - 2, by omega⟩
      obtain ⟨d, hread, hskip⟩ :=
        @blockValue_body fuel depth k column (written (f :: fields)) entry h.beginsField
      have hmore : atDocumentEnd ⟨written (f :: fields), 0, true⟩ = false := by
        refine not_atDocumentEnd ?_ h.beginsField true
        rw [written_cons]
        simp
      obtain ⟨k', hkey⟩ := @keyAt_name (fuel + 1) depth 0 true true 1 f.1 hf
        (f.2.body (f.1.length + 2) ++ ofChar '\n' :: written fields)
      rw [← written_cons] at hkey
      rw [blockFields.eq_def]
      simp only [hread, bind, Except.bind, hskip, hmore, hkey]
      simp only [Bool.not_true, Bool.false_or, Nat.lt_irrefl, decide_false, Bool.false_eq_true, if_false]
      rw [ih hfields (by omega)]
      simp [pair]

/-! ### The whole document -/

theorem printed_body (entry : Entry) : Printed (entry.body column) := by
  cases entry with
  | bool b =>
      rw [Entry.body]
      exact (bare_bool b).printed
  | text t =>
      rw [Entry.body, writtenText]
      cases hstyle : styleFor t with
      | plain =>
          have hprinted := (styleFor_plain hstyle).1.printed
          exact printed_writtenPieces (by rwa [flatMap_pieces hprinted])
      | single =>
          have hprinted := (styleFor_single hstyle).1
          have hpieces : Printed ((pieces t).flatMap Piece.text) := by rwa [flatMap_pieces hprinted]
          exact printed_append.mpr
            ⟨printed_append.mpr ⟨by decide, printed_writtenPieces hpieces⟩, by decide⟩
      | double =>
          exact printed_append.mpr ⟨printed_append.mpr ⟨by decide, printed_writtenDouble t⟩, by decide⟩

/-- Whatever the values are, a document is written in printable ASCII. -/
theorem Named.printed {fields : List (Text × Entry)} (h : Named fields) : Printed (written fields) := by
  induction fields with
  | nil => exact printed_nil
  | cons f fields ih =>
      obtain ⟨hf, hfields⟩ := named_cons.mp h
      have hname : Printed f.1 := fun p hp => isPrinted_of_isLetter (hf.letters p hp)
      rw [written_cons, printed_append, printed_cons, printed_cons, printed_append, printed_cons]
      exact ⟨hname, rfl, rfl, printed_body f.2, rfl, ih hfields⟩

theorem length_le_written (fields : List (Text × Entry)) : fields.length ≤ (written fields).length := by
  induction fields with
  | nil => exact Nat.le_refl _
  | cons f fields ih =>
      rw [written_cons, List.length_append, List.length_cons, List.length_cons, List.length_cons,
        List.length_append, List.length_cons]
      omega

theorem isPlainCharacter_of_printed {p : CodePoint} (h : isPrinted p = true) :
    isPlainCharacter p = true := by
  rw [isPrinted_iff] at h
  simp only [isPlainCharacter, Bool.or_eq_true, Bool.and_eq_true, beq_iff_eq, decide_eq_true_eq]
  omega

/-- The document is a block, and the block is the mapping. -/
theorem blockNode_written {f : Text × Entry} {fields : List (Text × Entry)} (h : Named (f :: fields))
    (hfuel : fields.length + 2 < fuel) :
    blockNode fuel (depth + 1) 0 ⟨written (f :: fields), 0, true⟩ =
      .ok (.mapping ((f :: fields).map pair), ⟨[], 0, true⟩) := by
  obtain ⟨hf, hfields⟩ := named_cons.mp h
  obtain ⟨fuel, rfl⟩ : ∃ n, fuel = n + 1 := ⟨fuel - 1, by omega⟩
  have hmore : atDocumentEnd ⟨written (f :: fields), 0, true⟩ = false := by
    refine not_atDocumentEnd ?_ h.beginsField true
    rw [written_cons]
    simp
  have hmark : atMark '-' (written (f :: fields)) = false := by
    cases hwritten : written (f :: fields) with
    | nil => rfl
    | cons p t =>
        have hp : isLetter p = true := h.beginsField p (by simp [hwritten])
        simp [atMark, CodePoint.is_eq_false hp '-' rfl]
  obtain ⟨k', hkey⟩ := @keyAt_name fuel (depth + 1) 0 true false 0 f.1 hf
    (f.2.body (f.1.length + 2) ++ ofChar '\n' :: written fields)
  rw [← written_cons] at hkey
  rw [blockNode.eq_def]
  simp only [hmore, Nat.lt_irrefl, decide_false, Bool.or_false, Bool.false_eq_true, if_false, hmark, hkey,
    bind, Except.bind]
  rw [blockFields_written hfields (by omega)]
  rfl

/-- A document that is read to its end is the node that was found. -/
theorem nodeOf_of_documentNode {t : Text} {n : Node} (ht : Printed t) (hfield : BeginsField t)
    (h : documentNode (4 * t.length + 8) ⟨t, 0, true⟩ = .ok (n, ⟨[], 0, true⟩)) : nodeOf t = .ok n := by
  have hall : t.all isPlainCharacter = true :=
    List.all_eq_true.mpr fun p hp => isPlainCharacter_of_printed (ht p hp)
  have hskip := Cursor.skip_field hfield 0 true
  cases t with
  | nil =>
      simp only [nodeOf, hall, hskip, h, bind, Except.bind]
      rfl
  | cons p t =>
      -- What is printed is no mark of byte order, so nothing is cut off in front.
      have hp := isPrinted_iff.mp (ht p (by simp))
      have hmark : Cursor.isMark p = false := by
        rw [Cursor.isMark, beq_eq_false_iff_ne]
        omega
      simp only [nodeOf, hall, hmark, Bool.not_true, Bool.false_eq_true, if_false, hskip, h, bind,
        Except.bind]
      rfl

/-- **A written document is read as the mapping that was written.** -/
theorem nodeOf_written {fields : List (Text × Entry)} (h : Named fields) (hne : fields ≠ []) :
    nodeOf (written fields) = .ok (.mapping (fields.map pair)) := by
  obtain ⟨f, fields, rfl⟩ := List.exists_cons_of_ne_nil hne
  have hseparator : (Cursor.mk (written (f :: fields)) 0 true).onSeparator = false := by
    rw [Cursor.onSeparator, h.beginsField.atSeparator, Bool.and_false]
  have hlength := length_le_written (f :: fields)
  rw [List.length_cons] at hlength
  apply nodeOf_of_documentNode h.printed h.beginsField
  rw [documentNode, atStart, atStop, hseparator]
  exact blockNode_written h (by omega)

/-! ### Values -/

theorem valueOfPlain_of_text {t : Text} (h : plain t = .text) : valueOfPlain t = .ok (.text t) := by
  rw [valueOfPlain, h]

/-- A name is no other word. -/
theorem isWord_name {name : Text} (h : IsName name) {p : CodePoint} {w : Text} (hp : isLetter p = false) :
    (name == p :: w) = false := by
  rw [beq_eq_false_iff_ne]
  rintro rfl
  rw [h.letters p (by simp)] at hp
  exact Bool.noConfusion hp

/-- A name asks for no other mapping. -/
theorem takesIn_name {name : Text} (h : IsName name) : Node.takesIn (.scalar name false) = false :=
  isWord_name h (p := ofChar '<') (by decide)

/-- A name stands for itself. -/
theorem name_name {name : Text} (h : IsName name) : (Node.scalar name false).name = .ok (some name) := by
  have hkey : Node.isWord "=" (.scalar name false) = false := isWord_name h (p := ofChar '=') (by decide)
  rw [Node.name, hkey, valueOfPlain_of_text h.text]
  rfl

/-- A value is read as what it was written for. -/
theorem value_node (entry : Entry) : entry.node.value = .ok entry.value := by
  cases entry with
  | bool b => cases b <;> rfl
  | text t =>
      rw [Entry.node, Entry.value]
      cases hstyle : styleFor t with
      | plain =>
          have hmeans := (styleFor_plain hstyle).2
          have htext : plain t = .text := by
            rw [meansText] at hmeans
            split at hmeans
            next h => exact h
            next => exact Bool.noConfusion hmeans
          exact valueOfPlain_of_text htext
      | single => rfl
      | double => rfl

theorem canTake_pairs {fields : List (Text × Entry)} (h : Named fields) :
    Node.canTake (fields.map pair) = true := by
  induction fields with
  | nil => rfl
  | cons f fields ih =>
      obtain ⟨hf, hfields⟩ := named_cons.mp h
      rw [List.map_cons, pair, Node.canTake, takesIn_name hf, ih hfields]
      rfl

/-- The fields are all there is in the mapping, in their order. -/
theorem entries_pairs {fields : List (Text × Entry)} (h : Named fields) :
    Node.entries (fields.map pair) = .ok ([], fields.map fun f => (some f.1, f.2.value)) := by
  induction fields with
  | nil => rfl
  | cons f fields ih =>
      obtain ⟨hf, hfields⟩ := named_cons.mp h
      rw [List.map_cons, pair, Node.entries, takesIn_name hf, name_name hf, value_node, ih hfields]
      rfl

theorem assign_of_notMem {name : Text} {v : Value} {fields : List (Text × Value)}
    (h : name ∉ fields.map Prod.fst) : Value.assign name v fields = fields ++ [(name, v)] := by
  induction fields with
  | nil => rfl
  | cons f fields ih =>
      rw [List.map_cons, List.mem_cons, not_or] at h
      have hf : (f.1 == name) = false := beq_eq_false_iff_ne.mpr (Ne.symm h.1)
      rw [Value.assign, hf, ih h.2]
      rfl

/-- Names that are all different are all kept. -/
theorem foldl_setEntry {sofar : List (Text × Value)} {fields : List (Text × Entry)}
    (h : (sofar.map Prod.fst ++ fields.map Prod.fst).Nodup) :
    (fields.map fun f => (some f.1, f.2.value)).foldl Node.setEntry sofar =
      sofar ++ fields.map fun f => (f.1, f.2.value) := by
  induction fields generalizing sofar with
  | nil => simp
  | cons f fields ih =>
      have hnew : f.1 ∉ sofar.map Prod.fst := by
        intro hmem
        exact (List.nodup_append.mp h).2.2 _ hmem _ (by simp) rfl
      have hset : Node.setEntry sofar (some f.1, f.2.value) = sofar ++ [(f.1, f.2.value)] :=
        assign_of_notMem hnew
      rw [List.map_cons, List.foldl_cons, hset, ih]
      · simp
      · simpa using h

/-- **A written document is read as the values that were written.** -/
theorem read_written {fields : List (Text × Entry)} (h : Named fields) (hne : fields ≠ [])
    (hnodup : (fields.map Prod.fst).Nodup) :
    read (written fields) = .ok (.object (fields.map fun f => (f.1, f.2.value))) := by
  have hfold := @foldl_setEntry [] fields (by simpa using hnodup)
  rw [read, nodeOf_written h hne]
  simp only [bind, Except.bind]
  rw [Node.value, canTake_pairs h, entries_pairs h]
  simp [bind, Except.bind, pure, Except.pure, hfold]

end Yaml
end GestureStore
