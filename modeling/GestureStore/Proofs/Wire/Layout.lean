/-
The layout of a store file, without its reader and its writer.

Which bytes are a file is said here field by field: what length a field has and what
number or text it denotes, and how fields follow one another.  What is written is laid
out so (`writes_parts_iff`), and with that, what is read.  Fields have bounds, so there is
not room for everything in a file; `exists_layout_iff` says for what there is.

Strokes have a first point and finite coordinates by their type, so bytes that denote
anything else are laid out as no stroke.
-/
import GestureStore.Proofs.Wire.Store

namespace GestureStore

/-! ### Fields -/

/-- The bytes of an integer, in `k` bytes with a sign. -/
def Bytes.Signed (k : Nat) (i : Int) (f : Bytes) : Prop := f.length = k ∧ Bytes.toInt f = i

/-- The bytes of a number, in `k` bytes. -/
def Bytes.Unsigned (k n : Nat) (f : Bytes) : Prop := f.length = k ∧ Bytes.toNat f = n

/-- A text: the number of its bytes, and its form in UTF-8. -/
def Text.Layout (t : Text) (f : Bytes) : Prop :=
  ∃ length bytes, Bytes.Unsigned 2 bytes.length length ∧ Utf8.encode t = .ok bytes ∧
    f = length ++ bytes

/-- A point: the bits of its coordinates, and its time. -/
def Point.Layout (p : Point) (f : Bytes) : Prop :=
  ∃ x y t, Bytes.Unsigned 4 p.x.bits.toNat x ∧ Bytes.Unsigned 4 p.y.bits.toNat y ∧
    Bytes.Signed 8 p.t.toInt t ∧ f = x ++ y ++ t

/-! ### Counted lists -/

/-- Things in a row, with their number before them. -/
def Counted (layout : α → Bytes → Prop) (as : List α) (f : Bytes) : Prop :=
  ∃ count body, Bytes.Signed 4 as.length count ∧ Joined layout as body ∧ f = count ++ body

theorem Counted.length_eq {layout : α → Bytes → Prop} {size : α → Nat}
    (h : ∀ a f, layout a f → f.length = size a) {as : List α} {f : Bytes}
    (hf : Counted layout as f) : f.length = 4 + (as.map size).sum := by
  obtain ⟨count, body, hcount, hbody, rfl⟩ := hf
  rw [List.length_append, hcount.1, hbody.length_eq h]

/-- A stroke: its points. -/
def Stroke.Layout (s : Stroke) (f : Bytes) : Prop := Counted Point.Layout s.points f

/-- A gesture: its identifier and its strokes. -/
def Gesture.Layout (g : Gesture) (f : Bytes) : Prop :=
  ∃ id strokes, Bytes.Signed 8 g.id id ∧ Counted Stroke.Layout g.strokes strokes ∧
    f = id ++ strokes

namespace StoreFile

/-- A section: its name and its gestures, if it has any. -/
def SectionLayout (e : Text × List Gesture) (f : Bytes) : Prop :=
  ∃ name gestures, e.1.Layout name ∧ Counted Gesture.Layout e.2 gestures ∧ f = name ++ gestures

/-- A file: its version and its sections. -/
def Layout (sections : Entries) (f : Bytes) : Prop :=
  ∃ v body, Bytes.Signed 2 version v ∧ Counted SectionLayout sections body ∧ f = v ++ body

end StoreFile

/-! ### What is written is laid out so -/

open Writer

theorem Text.utf_eq_ok_iff {t : Text} {f : Bytes} : utf t = .ok f ↔ t.Layout f := by
  rw [utf, Text.Layout]
  cases hencode : Utf8.encode t with
  | error e => simp
  | ok bytes =>
      simp only [Except.ok.injEq]
      refine ⟨fun h => ?_, fun h => ?_⟩
      · split at h
        · simp at h
        · rename_i hsize
          have hlt : bytes.length < 256 ^ 2 := by
            simp only [maxTextBytes] at hsize
            omega
          exact ⟨_, bytes, (Bytes.ofNat_eq_iff hlt).mp rfl, rfl, (Except.ok.inj h).symm⟩
      · obtain ⟨length, _, ⟨hlen, hsize⟩, rfl, rfl⟩ := h
        have hlt := Bytes.toNat_lt length
        rw [hlen] at hlt
        have hform := (Bytes.ofNat_eq_iff (by omega)).mpr ⟨hlen, hsize⟩
        rw [if_neg (by simp only [maxTextBytes]; omega), hform]

theorem Single.bytes_eq_iff {s : Single} {f : Bytes} :
    single s = f ↔ Bytes.Unsigned 4 s.bits.toNat f := Bytes.ofNat_eq_iff s.bits.toNat_lt

theorem Point.bytes_eq_iff {p : Point} {f : Bytes} : point p = f ↔ p.Layout f := by
  have htime : Bytes.Signed 8 p.t.toInt (Bytes.ofInt 8 p.t.toInt) := by
    refine Bytes.ofInt_eq_iff.mp ⟨?_, rfl⟩
    rw [Bytes.fits_iff]
    have hlow := p.t.le_toInt
    have hhigh := p.t.toInt_lt
    refine ⟨?_, ?_⟩ <;> omega
  refine ⟨fun h => ?_, fun h => ?_⟩
  · exact ⟨_, _, _, Single.bytes_eq_iff.mp rfl, Single.bytes_eq_iff.mp rfl, htime, h.symm⟩
  · obtain ⟨x, y, t, hx, hy, ht, rfl⟩ := h
    rw [point, Single.bytes_eq_iff.mpr hx, Single.bytes_eq_iff.mpr hy,
      (Bytes.ofInt_eq_iff.mpr ht).2]

theorem points_eq_iff_joined {ps : List Point} :
    ∀ {f : Bytes}, points ps = f ↔ Joined Point.Layout ps f := by
  induction ps with
  | nil => intro f; exact eq_comm
  | cons p rest ih =>
      intro f
      have hsplit : points (p :: rest) = point p ++ points rest := rfl
      rw [hsplit, Joined]
      refine ⟨fun h => ⟨_, _, Point.bytes_eq_iff.mp rfl, ih.mp rfl, h.symm⟩, fun h => ?_⟩
      obtain ⟨g, h, hg, hh, rfl⟩ := h
      rw [Point.bytes_eq_iff.mpr hg, ih.mpr hh]

/-- A count with things behind it is laid out as a counted list if the things are laid out. -/
theorem writes_counted_iff {parts : α → List (Except Fault Bytes)} {layout : α → Bytes → Prop}
    (h : ∀ a f, Writes (parts a) f ↔ layout a f) {as : List α} {f : Bytes} :
    Writes (int as.length :: as.flatMap parts) f ↔ Counted layout as f := by
  have hparts : (fun a => Writes (parts a)) = layout := funext₂ fun a f => propext (h a f)
  rw [writes_cons]
  simp only [writes_flatMap, hparts, int, integer_eq_ok_iff]
  rfl

theorem Stroke.writes_parts_iff {s : Stroke} {f : Bytes} : Writes s.parts f ↔ s.Layout f := by
  rw [writes_parts_split]
  simp only [int, integer_eq_ok_iff]
  refine ⟨fun h => ?_, fun h => ?_⟩
  · obtain ⟨c, hc, rfl⟩ := h
    exact ⟨c, _, hc, points_eq_iff_joined.mp rfl, rfl⟩
  · obtain ⟨c, body, hc, hbody, rfl⟩ := h
    exact ⟨c, hc, by rw [points_eq_iff_joined.mpr hbody]⟩

theorem Gesture.writes_parts_iff {g : Gesture} {f : Bytes} : Writes g.parts f ↔ g.Layout f := by
  rw [Gesture.parts, writes_cons]
  simp only [writes_counted_iff fun s f => Stroke.writes_parts_iff, long, integer_eq_ok_iff]
  rfl

theorem StoreFile.writes_entryParts_iff {e : Text × List Gesture} {f : Bytes} :
    Writes (entryParts e) f ↔ SectionLayout e f := by
  rw [entryParts, writes_cons]
  simp only [writes_counted_iff fun g f => Gesture.writes_parts_iff, Text.utf_eq_ok_iff]
  rfl

/-- **A file is written for sections exactly if it is laid out as they are.** -/
theorem StoreFile.writes_parts_iff {sections : Entries} {f : Bytes} :
    Writes (parts sections) f ↔ Layout sections f := by
  rw [parts, writes_cons]
  simp only [writes_counted_iff fun e f => writes_entryParts_iff, short, integer_eq_ok_iff]
  rfl

/-! ### What is read is laid out so -/

/-- A file of another version: nothing is known of it but that. -/
def StoreFile.Foreign (bytes : Bytes) : Prop :=
  ∃ v f rest, Bytes.Signed 2 v f ∧ v ≠ version ∧ bytes = f ++ rest

theorem StoreFile.exists_read_unknown_iff {bytes : Bytes} :
    (∃ v, read bytes = .ok (.unknown v)) ↔ Foreign bytes := by
  refine ⟨fun h => ?_, fun h => ?_⟩
  · obtain ⟨v, h⟩ := h
    rw [read] at h
    split at h
    · simp at h
    · rename_i v' rest hversion
      obtain ⟨f, hf, rfl⟩ := (Reader.takes_short _ _ _ _).mp hversion
      by_cases hv : v' = version
      · simp [hv] at h
      · exact ⟨v', f, rest, integer_eq_ok_iff.mp hf, hv, rfl⟩
  · obtain ⟨v, f, rest, hf, hv, rfl⟩ := h
    refine ⟨v, ?_⟩
    rw [read, (Reader.takes_short _).read (integer_eq_ok_iff.mpr hf)]
    simp only [if_neg hv]

/-- **The gestures that are read from a file are those of the sections it is laid out as.** -/
theorem StoreFile.read_eq_iff_layout {bytes rest : Bytes} {items : List (Text × Gesture)} :
    read bytes = .ok (.known ⟨items, none, rest⟩) ↔
      ∃ sections f, Layout sections f ∧ bytes = f ++ rest ∧ items = sections.pairs := by
  rw [read_eq_known_iff]
  simp only [writes_parts_iff]

/-! ### What there is room for -/

/-- Identifiers and counts fit the fields that they are written to. -/
structure Entries.Fits (es : Entries) : Prop where
  /-- There are not too many entries. -/
  entries : es.length < 2 ^ 31
  /-- No entry has too many gestures. -/
  gestures : ∀ e ∈ es, e.2.length < 2 ^ 31
  /-- Identifiers have 64 bits. -/
  ids : ∀ g ∈ es.gestures, -2 ^ 63 ≤ g.id ∧ g.id < 2 ^ 63
  /-- No gesture has too many strokes. -/
  strokes : ∀ g ∈ es.gestures, g.strokes.length < 2 ^ 31
  /-- No stroke has too many points. -/
  points : ∀ g ∈ es.gestures, ∀ s ∈ g.strokes, s.points.length < 2 ^ 31

private theorem exists_append_iff {p q : Bytes → Prop} :
    (∃ f g h, p g ∧ q h ∧ f = g ++ h) ↔ (∃ g, p g) ∧ ∃ h, q h := by
  refine ⟨fun h => ?_, fun h => ?_⟩
  · obtain ⟨_, g, h, hg, hh, -⟩ := h
    exact ⟨⟨g, hg⟩, ⟨h, hh⟩⟩
  · obtain ⟨⟨g, hg⟩, ⟨h, hh⟩⟩ := h
    exact ⟨g ++ h, g, h, hg, hh, rfl⟩

theorem Bytes.exists_signed_iff {k : Nat} {i : Int} :
    (∃ f, Signed k i f) ↔ -(256 ^ k : Int) ≤ 2 * i ∧ 2 * i < (256 ^ k : Int) := by
  rw [← fits_iff]
  refine ⟨fun h => ?_, fun h => ⟨_, ofInt_eq_iff.mp ⟨h, rfl⟩⟩⟩
  obtain ⟨f, hf⟩ := h
  exact (ofInt_eq_iff.mpr hf).1

theorem Joined.exists_iff {layout : α → Bytes → Prop} {as : List α} :
    (∃ f, Joined layout as f) ↔ ∀ a ∈ as, ∃ g, layout a g := by
  induction as with
  | nil => simp [Joined]
  | cons a rest ih => rw [List.forall_mem_cons, ← ih, ← exists_append_iff]; rfl

/-- There is room for as many things as can be counted, if there is for each of them. -/
theorem Counted.exists_iff {layout : α → Bytes → Prop} {as : List α} :
    (∃ f, Counted layout as f) ↔ as.length < 2 ^ 31 ∧ ∀ a ∈ as, ∃ g, layout a g := by
  have hcount : (∃ f, Bytes.Signed 4 as.length f) ↔ as.length < 2 ^ 31 := by
    rw [Bytes.exists_signed_iff]
    omega
  rw [← hcount, ← Joined.exists_iff, ← exists_append_iff]
  rfl

theorem Stroke.exists_layout_iff {s : Stroke} :
    (∃ f, s.Layout f) ↔ s.points.length < 2 ^ 31 := by
  have hpoints : ∀ p ∈ s.points, ∃ f, p.Layout f := fun p _ => ⟨_, Point.bytes_eq_iff.mp rfl⟩
  exact Counted.exists_iff.trans (and_iff_left hpoints)

theorem Gesture.exists_layout_iff {g : Gesture} :
    (∃ f, g.Layout f) ↔ (-2 ^ 63 ≤ g.id ∧ g.id < 2 ^ 63) ∧ g.strokes.length < 2 ^ 31 ∧
      ∀ s ∈ g.strokes, s.points.length < 2 ^ 31 := by
  have hid : (∃ f, Bytes.Signed 8 g.id f) ↔ -2 ^ 63 ≤ g.id ∧ g.id < 2 ^ 63 := by
    rw [Bytes.exists_signed_iff]
    omega
  have hstrokes : (∃ f, Counted Stroke.Layout g.strokes f) ↔ g.strokes.length < 2 ^ 31 ∧
      ∀ s ∈ g.strokes, s.points.length < 2 ^ 31 := by
    rw [Counted.exists_iff]
    simp only [Stroke.exists_layout_iff]
  rw [← hid, ← hstrokes, ← exists_append_iff]
  rfl

namespace StoreFile

/-- **There is room for entries if they fit the fields of a file and have names to be written.** -/
theorem exists_layout_iff {es : Entries} :
    (∃ f, Layout es f) ↔ es.Fits ∧ ∀ e ∈ es, ∃ f, e.1.Layout f := by
  have hversion : ∃ f, Bytes.Signed 2 version f := by
    rw [Bytes.exists_signed_iff]
    decide
  have hsection : ∀ e, (∃ f, SectionLayout e f) ↔
      (∃ f, e.1.Layout f) ∧ e.2.length < 2 ^ 31 ∧ ∀ g ∈ e.2, ∃ f, g.Layout f := by
    intro e
    rw [← Counted.exists_iff, ← exists_append_iff]
    rfl
  have hfile : (∃ f, Layout es f) ↔
      (∃ f, Bytes.Signed 2 version f) ∧ ∃ f, Counted SectionLayout es f := exists_append_iff
  rw [hfile, and_iff_right hversion, Counted.exists_iff]
  simp only [hsection, Gesture.exists_layout_iff]
  refine ⟨fun h => ?_, fun h => ⟨h.1.entries, fun e he => ?_⟩⟩
  · obtain ⟨hentries, h⟩ := h
    have hgestures : ∀ g ∈ es.gestures, (-2 ^ 63 ≤ g.id ∧ g.id < 2 ^ 63) ∧
        g.strokes.length < 2 ^ 31 ∧ ∀ s ∈ g.strokes, s.points.length < 2 ^ 31 := by
      intro g hg
      obtain ⟨e, he, hmem⟩ := List.mem_flatMap.mp hg
      exact (h e he).2.2 g hmem
    exact ⟨⟨hentries, fun e he => (h e he).2.1, fun g hg => (hgestures g hg).1,
      fun g hg => (hgestures g hg).2.1, fun g hg => (hgestures g hg).2.2⟩, fun e he => (h e he).1⟩
  · obtain ⟨hfits, hnames⟩ := h
    refine ⟨hnames e he, hfits.gestures e he, fun g hg => ?_⟩
    have hmem : g ∈ es.gestures := List.mem_flatMap.mpr ⟨e, he, hg⟩
    exact ⟨hfits.ids g hmem, hfits.strokes g hmem, hfits.points g hmem⟩

theorem layout_of_fault {es : Entries} (h : (write es).fault = none) :
    Layout es (write es).bytes :=
  writes_parts_iff.mp (writes_of_fault h)

theorem Layout.write_eq {es : Entries} {f : Bytes} (h : Layout es f) : write es = ⟨f, none⟩ :=
  writes_parts_iff.mpr h

/-- **Entries whose names can be written are written if they fit, and only then.** -/
theorem fault_eq_none_iff {es : Entries} (hnames : ∀ e ∈ es, ∃ f, Writer.utf e.1 = .ok f) :
    (write es).fault = none ↔ es.Fits := by
  simp only [Text.utf_eq_ok_iff] at hnames
  refine ⟨fun h => (exists_layout_iff.mp ⟨_, layout_of_fault h⟩).1, fun h => ?_⟩
  obtain ⟨f, hf⟩ := exists_layout_iff.mpr ⟨h, hnames⟩
  rw [hf.write_eq]

end StoreFile

theorem Entries.Fits.fault_eq_none {es : Entries} (hfits : es.Fits)
    (hnames : ∀ e ∈ es, ∃ f, Writer.utf e.1 = .ok f) : (StoreFile.write es).fault = none :=
  (StoreFile.fault_eq_none_iff hnames).mpr hfits

end GestureStore
