/-
Writing again what was loaded.

A file may say the same in several ways: a name in several sections, sections without
gestures, anything behind the last of them.  What is written after loading it is the
one way in which a library puts it.  That is never longer, as merging drops names and
keeps gestures, and it is the bytes that were read exactly if the sections were tidy;
so nothing else about a file is free, neither a number nor a name nor a bit of a point.

Loading both gives the same entries, and the same instances.  Their order may differ,
though: instances come in the order of the file, and merging has moved gestures of one
name together.
-/
import GestureStore.Proofs.Library.Loading
import GestureStore.Proofs.Library.Writable
import Mathlib.Algebra.Order.BigOperators.Group.List

namespace GestureStore

/-! ### How long a file is -/

namespace StoreFile

/-- The number of bytes of a stored name, with the number of gestures behind it. -/
def headerSize (name : Text) : Nat := (Writer.all [Writer.utf name]).bytes.length + 4

/-- The number of bytes of a stored gesture. -/
def gestureSize (g : Gesture) : Nat := g.write.bytes.length

/-- The number of bytes of a file. -/
def size (es : Entries) : Nat :=
  6 + ((es.map fun e => headerSize e.1).sum + (es.pairs.map fun p => gestureSize p.2).sum)

theorem gesture_length_eq (g : Gesture) (f : Bytes) (h : g.Layout f) :
    f.length = gestureSize g := by
  have hwrite : g.write = ⟨f, none⟩ := Gesture.writes_parts_iff.mpr h
  rw [gestureSize, hwrite]

theorem section_length_eq (e : Text × List Gesture) (f : Bytes) (h : SectionLayout e f) :
    f.length = headerSize e.1 + (e.2.map gestureSize).sum := by
  obtain ⟨name, gestures, hname, hgestures, rfl⟩ := h
  have hheader : Writer.all [Writer.utf e.1] = ⟨name ++ [], none⟩ := by
    rw [Text.utf_eq_ok_iff.mpr hname]
    rfl
  rw [List.length_append, hgestures.length_eq gesture_length_eq, headerSize, hheader,
    List.append_nil, Nat.add_assoc]

theorem Layout.length_eq {es : Entries} {f : Bytes} (h : Layout es f) : f.length = size es := by
  obtain ⟨v, body, hv, hbody, rfl⟩ := h
  have hpairs : ∀ es : Entries, (es.pairs.map fun p => gestureSize p.2).sum
      = (es.map fun e => (e.2.map gestureSize).sum).sum := by
    intro es
    induction es with
    | nil => rfl
    | cons e rest ih =>
        rw [Entries.pairs_cons, List.map_append, List.sum_append, ih, List.map_map, List.map_cons,
          List.sum_cons]
        rfl
  rw [List.length_append, hv.1, hbody.length_eq section_length_eq, List.sum_map_add,
    ← hpairs, ← Nat.add_assoc]
  rfl

/-- Sections take no more bytes when they are merged. -/
theorem size_merged_le (es : Entries) : size es.merged ≤ size es := by
  have hheaders : (es.merged.map fun e => headerSize e.1).sum
      ≤ (es.map fun e => headerSize e.1).sum := by
    have hsub := es.names_sublist.map headerSize
    rw [← Entries.map_fst_merged, List.map_map, List.map_map] at hsub
    exact hsub.sum_le_sum fun _ _ => Nat.zero_le _
  have hgestures := (es.pairs_merged_perm.map fun p => gestureSize p.2).sum_eq
  rw [size, size, hgestures]
  omega

/-- Bytes tell how many sections they are laid out as. -/
theorem Layout.length_unique {es es' : Entries} {f : Bytes} (h : Layout es f) (h' : Layout es' f) :
    es.length = es'.length := by
  obtain ⟨v, _, hv, ⟨n, body, hn, -, rfl⟩, rfl⟩ := h
  obtain ⟨v', _, hv', ⟨n', body', hn', -, rfl⟩, hf⟩ := h'
  obtain ⟨-, hrest⟩ := List.append_inj hf (hv.1.trans hv'.1.symm)
  obtain ⟨rfl, -⟩ := List.append_inj hrest (hn.1.trans hn'.1.symm)
  have hcounts := hn.2.symm.trans hn'.2
  omega

/-- **Sections are written as they were read exactly if they were tidy.** -/
theorem Layout.write_merged_eq_iff {es : Entries} {f : Bytes} (h : Layout es f)
    (hwritten : (write es.merged).fault = none) : (write es.merged).bytes = f ↔ es.Tidy := by
  refine ⟨fun heq => ?_, fun htidy => ?_⟩
  · have hmerged := layout_of_fault hwritten
    rw [heq] at hmerged
    exact Entries.tidy_of_length_merged (hmerged.length_unique h)
  · rw [Entries.merged_of_tidy htidy, h.write_eq]

/-- Merged sections can be written unless too many gestures have come together. -/
theorem Layout.fault_merged_iff {es : Entries} {f : Bytes} (h : Layout es f) :
    (write es.merged).fault = none ↔ ∀ e ∈ es.merged, e.2.length < 2 ^ 31 := by
  obtain ⟨hfits, hlayouts⟩ := exists_layout_iff.mp ⟨f, h⟩
  have hnames : ∀ e ∈ es.merged, ∃ f, Writer.utf e.1 = .ok f := by
    intro e he
    have hname : e.1 ∈ es.map Prod.fst :=
      es.names_sublist.subset (es.map_fst_merged ▸ List.mem_map_of_mem he)
    obtain ⟨e', he', heq⟩ := List.mem_map.mp hname
    obtain ⟨name, hlayout⟩ := hlayouts e' he'
    exact ⟨name, Text.utf_eq_ok_iff.mpr (heq ▸ hlayout)⟩
  have hmem : ∀ g ∈ es.merged.gestures, g ∈ es.gestures := by
    intro g hg
    obtain ⟨p, hp, rfl⟩ := Entries.mem_gestures.mp hg
    exact Entries.mem_gestures_of_pair (es.pairs_merged_perm.mem_iff.mp hp)
  have hlength : es.merged.length ≤ es.length := by
    have hle := es.names_sublist.length_le
    rw [← Entries.map_fst_merged, List.length_map, List.length_map] at hle
    exact hle
  rw [fault_eq_none_iff hnames]
  refine ⟨fun hmerged => hmerged.gestures, fun hgestures => ?_⟩
  exact ⟨lt_of_le_of_lt hlength hfits.entries, hgestures, fun g hg => hfits.ids g (hmem g hg),
    fun g hg => hfits.strokes g (hmem g hg), fun g hg => hfits.points g (hmem g hg)⟩

end StoreFile

/-! ### What is loaded from it -/

theorem Entries.Admitted.merged {policy : Policy} {sections : Entries}
    (h : sections.Admitted policy) : sections.merged.Admitted policy := by
  have hperm : sections.merged.gestures.Perm sections.gestures := by
    rw [gestures_eq, gestures_eq]
    exact sections.pairs_merged_perm.map _
  exact ⟨(hperm.map _).nodup_iff.mpr h.distinct, fun g hg => h.drawn g (hperm.mem_iff.mp hg),
    fun hseq g hg => h.single hseq g (hperm.mem_iff.mp hg)⟩

namespace Library

variable [Scalar α] [Stored β α]

/-- The same gestures in another order have the same instances in another order. -/
theorem instances_perm {policy : Policy} {items items' : List (Text × Gesture)}
    {is is' : List (Instance β)} (hperm : items'.Perm items)
    (his : List.Forall₂ (Extracted policy) items is)
    (his' : List.Forall₂ (Extracted policy) items' is') : is'.Perm is := by
  obtain ⟨js, hjs, hjis⟩ := List.perm_comp_forall₂ hperm his
  rw [extracted_unique his' hjs]
  exact hjis

/-- Gestures with identifiers of their own can be told from their instances. -/
theorem items_eq_of_instances {policy : Policy} {items items' : List (Text × Gesture)}
    {is : List (Instance β)} (hperm : items'.Perm items) (hids : (items.map fun p => p.2.id).Nodup)
    (his : List.Forall₂ (Extracted policy) items is)
    (his' : List.Forall₂ (Extracted policy) items' is) : items' = items := by
  have hown : Relator.LeftUnique fun p (i : Instance β) => p ∈ items ∧ Extracted policy p i := by
    intro p i q hp hq
    exact List.inj_on_of_nodup_map hids hp.1 hq.1 (hp.2.id_eq.symm.trans hq.2.id_eq)
  have hboth := (List.forall₂_and_left items is).mpr ⟨fun p hp => hp, his⟩
  have hboth' := (List.forall₂_and_left items' is).mpr ⟨fun p hp => hperm.mem_iff.mp hp, his'⟩
  exact hown.forall₂ hboth' hboth

/-- A file of the known version that is loaded begins with sections. -/
theorem exists_sections_of_load {l loaded : Library β} {d : Disk} {bytes : Bytes}
    {notices : List Notice} (hfile : d.contents? l.location = .ok (some bytes))
    (hload : l.load d = (.ok true, notices, loaded)) (hversion : ¬ StoreFile.Foreign bytes) :
    ∃ sections f rest, StoreFile.Layout sections f ∧ bytes = f ++ rest := by
  rw [load_eq_loadBytes hfile, Prod.mk.injEq, Except.ok.injEq] at hload
  rcases exists_loads_iff.mp ((loadBytes_eq_true_iff l bytes).mp hload.1) with
    hforeign | ⟨sections, f, rest, hlayout, hbytes, -⟩
  · exact absurd hforeign hversion
  · exact ⟨sections, f, rest, hlayout, hbytes⟩

end Library

/--
**What is written after loading is the canonical form of what was read.**

Let a library load a file of the known version.  Then the file begins with the bytes
`f` of some sections, and those are all that is read of it.  What the library holds can
be written, unless `2 ^ 31` gestures or more of one name have come together.  Written,
it is no longer than `f`, and it is `f` exactly if no section was empty and no name
came twice.  The library loads that, too.  It holds the same entries then, and the same
instances; they are in the same order exactly if the gestures are in the same order in
the entries and in the file.
-/
theorem reencoding_is_canonical [Scalar α] [Stored β α] {l loaded : Library β} {d : Disk}
    {bytes : Bytes} {notices : List Notice} (hfile : d.contents? l.location = .ok (some bytes))
    (hload : l.load d = (.ok true, notices, loaded)) (hversion : ¬ StoreFile.Foreign bytes) :
    (∃ sections f rest, StoreFile.Layout sections f ∧ bytes = f ++ rest) ∧
    ∀ sections f rest, StoreFile.Layout sections f → bytes = f ++ rest →
      StoreFile.read bytes = .ok (.known ⟨sections.pairs, none, rest⟩) ∧
      ((StoreFile.write loaded.entries).fault = none ↔
        ∀ e ∈ loaded.entries, e.2.length < 2 ^ 31) ∧
      ((StoreFile.write loaded.entries).fault = none →
        (StoreFile.write loaded.entries).bytes.length ≤ f.length ∧
        ((StoreFile.write loaded.entries).bytes = f ↔
          (∀ e ∈ sections, e.2 ≠ []) ∧ (sections.map Prod.fst).Nodup) ∧
        ∀ d' : Disk,
          d'.contents? l.location = .ok (some (StoreFile.write loaded.entries).bytes) →
          ∃ notices' reloaded, l.load d' = (.ok true, notices', reloaded) ∧
            reloaded.entries = loaded.entries ∧
            reloaded.learner.instances.Perm loaded.learner.instances ∧
            (reloaded.learner.instances = loaded.learner.instances ↔
              loaded.entries.pairs = sections.pairs)) := by
  refine ⟨Library.exists_sections_of_load hfile hload hversion, ?_⟩
  intro sections f rest hlayout hbytes
  subst hbytes
  obtain ⟨hadmitted, hentries, his⟩ := Library.holds_of_load hlayout hfile hload
  refine ⟨StoreFile.read_eq_iff_layout.mpr ⟨sections, f, hlayout, rfl, rfl⟩, ?_⟩
  rw [hentries]
  refine ⟨hlayout.fault_merged_iff, fun hwritten => ⟨?_, ?_, fun d' hfile' => ?_⟩⟩
  · rw [(StoreFile.layout_of_fault hwritten).length_eq, hlayout.length_eq]
    exact StoreFile.size_merged_le sections
  · rw [hlayout.write_merged_eq_iff hwritten]
    exact ⟨fun h => ⟨h.occupied, h.names⟩, fun h => ⟨h.2, h.1⟩⟩
  · have hlayout' := StoreFile.layout_of_fault hwritten
    rw [← List.append_nil (StoreFile.write sections.merged).bytes] at hfile'
    obtain ⟨notices', reloaded, hload', hentries', his'⟩ :=
      Library.load_layout hlayout' hadmitted.merged hfile'
    rw [Entries.merged_of_tidy sections.tidy_merged] at hentries'
    have hperm := sections.pairs_merged_perm
    refine ⟨notices', reloaded, hload', hentries', Library.instances_perm hperm his his', ?_⟩
    refine ⟨fun heq => ?_, fun heq => ?_⟩
    · rw [heq] at his'
      exact Library.items_eq_of_instances hperm hadmitted.distinct_pairs his his'
    · rw [heq] at his'
      exact Library.extracted_unique his' his

/-! ### A file with a name that comes twice -/

theorem StoreFile.Layout.not_foreign {sections : Entries} {f : Bytes} (h : Layout sections f)
    (rest : Bytes) : ¬ Foreign (f ++ rest) := by
  intro hforeign
  obtain ⟨v, g, rest', hg, hv, hbytes⟩ := hforeign
  obtain ⟨f₁, f₂, hf₁, -, rfl⟩ := h
  rw [List.append_assoc] at hbytes
  obtain ⟨rfl, -⟩ := List.append_inj hbytes (hf₁.1.trans hg.1.symm)
  exact hv (hg.2.symm.trans hf₁.2)

theorem StoreFile.merged_interleaved :
    interleaved.merged = [(Text.of "a", [.dot 1, .dot 3]), (Text.of "b", [.dot 2])] := by decide

/-- Writing a file with a name that comes twice again leaves out one of its headers. -/
theorem interleaved_file_is_shortened :
    let l : Library Single := .new ⟨1, [Text.of "s"]⟩ ⟨.invariant, none⟩ none
    let f := (StoreFile.write StoreFile.interleaved).bytes
    ∃ notices loaded,
      l.load (.holding (Text.of "s") (f ++ [255])) = (.ok true, notices, loaded) ∧
        (StoreFile.write loaded.entries).fault = none ∧
        (StoreFile.write loaded.entries).bytes.length ≤ f.length := by
  intro l f
  have hlayout := StoreFile.layout_interleaved
  have hfile : (Disk.holding (Text.of "s") (f ++ [255])).contents? l.location
      = .ok (some (f ++ [255])) := Disk.contents?_holding _
  obtain ⟨notices, loaded, hload, hentries, -⟩ :=
    Library.load_layout hlayout (StoreFile.interleaved_admitted l.policy) hfile
  have hcounts : ∀ e ∈ loaded.entries, e.2.length < 2 ^ 31 := by
    rw [hentries, StoreFile.merged_interleaved]
    decide
  obtain ⟨-, hfault, hwritten⟩ :=
    (reencoding_is_canonical hfile hload (hlayout.not_foreign [255])).2 _ f [255] hlayout rfl
  have hwrites := hfault.mpr hcounts
  exact ⟨notices, loaded, hload, hwrites, (hwritten hwrites).1⟩

/-- Instances are in another order once a file with a name that comes twice was written again. -/
theorem interleaved_file_is_reordered :
    let l : Library Single := .new ⟨1, [Text.of "s"]⟩ ⟨.invariant, none⟩ none
    ∃ notices notices' loaded reloaded,
      l.load (.holding (Text.of "s") ((StoreFile.write StoreFile.interleaved).bytes ++ [255]))
        = (.ok true, notices, loaded) ∧
      (StoreFile.write loaded.entries).fault = none ∧
      l.load (.holding (Text.of "s") (StoreFile.write loaded.entries).bytes)
        = (.ok true, notices', reloaded) ∧
      loaded.learner.instances.map Instance.id = [1, 2, 3] ∧
      reloaded.learner.instances.map Instance.id = [1, 3, 2] := by
  intro l
  have hadmitted := StoreFile.interleaved_admitted l.policy
  obtain ⟨notices, loaded, hload, hentries, his⟩ :=
    Library.load_layout StoreFile.layout_interleaved hadmitted (Disk.contents?_holding _)
  have hwritten : (StoreFile.write StoreFile.interleaved.merged).fault = none := by
    rw [StoreFile.merged_interleaved]
    decide
  have hfile' := Disk.contents?_holding ((StoreFile.write StoreFile.interleaved.merged).bytes ++ [])
  obtain ⟨notices', reloaded, hload', -, his'⟩ :=
    Library.load_layout (StoreFile.layout_of_fault hwritten) hadmitted.merged hfile'
  rw [List.append_nil, ← hentries] at hload'
  rw [← hentries] at hwritten
  refine ⟨notices, notices', loaded, reloaded, hload, hwritten, hload', ?_, ?_⟩
  · rw [forall₂_ids his]
    decide
  · rw [forall₂_ids his', StoreFile.merged_interleaved]
    decide

/-! ### A name with too many gestures -/

/-- As many dots, numbered from zero on. -/
def Gesture.dots (m : Nat) : List Gesture := (List.range m).map fun k : Nat => .dot (k : Int)

theorem Gesture.length_dots (m : Nat) : (dots m).length = m := by
  rw [dots, List.length_map, List.length_range]

theorem Gesture.mem_dots {m : Nat} {g : Gesture} (h : g ∈ dots m) :
    ∃ k : Nat, k < m ∧ g = .dot k := by
  obtain ⟨k, hk, rfl⟩ := List.mem_map.mp h
  exact ⟨k, List.mem_range.mp hk, rfl⟩

namespace StoreFile

/-- Dots in two sections of one name, half of them in each. -/
def crowded (m : Nat) : Entries :=
  [(Text.of "a", (Gesture.dots m).take (m / 2)), (Text.of "a", (Gesture.dots m).drop (m / 2))]

theorem gestures_crowded (m : Nat) : (crowded m).gestures = Gesture.dots m := by
  have h : (crowded m).gestures
      = (Gesture.dots m).take (m / 2) ++ ((Gesture.dots m).drop (m / 2) ++ []) := rfl
  rw [h, List.append_nil, List.take_append_drop]

theorem under_crowded (m : Nat) : (crowded m).under (Text.of "a") = Gesture.dots m := by
  have h : (crowded m).under (Text.of "a")
      = (Gesture.dots m).take (m / 2) ++ ((Gesture.dots m).drop (m / 2) ++ []) := rfl
  rw [h, List.append_nil, List.take_append_drop]

theorem crowded_admitted (m : Nat) (policy : Policy) : (crowded m).Admitted policy := by
  refine ⟨?_, fun g hg => ?_, fun _ g hg => ?_⟩
  · rw [gestures_crowded, Gesture.dots, List.map_map]
    exact List.nodup_range.map fun j k hjk => Int.ofNat.inj hjk
  · rw [gestures_crowded] at hg
    obtain ⟨k, -, rfl⟩ := Gesture.mem_dots hg
    exact List.cons_ne_nil _ _
  · rw [gestures_crowded] at hg
    obtain ⟨k, -, rfl⟩ := Gesture.mem_dots hg
    rfl

theorem crowded_fits {m : Nat} (h : m ≤ 2 ^ 31) : (crowded m).Fits := by
  have hentries : (crowded m).length = 2 := rfl
  refine ⟨by omega, fun e he => ?_, fun g hg => ?_, fun g hg => ?_, fun g hg s hs => ?_⟩
  · rw [crowded, List.mem_cons, List.mem_singleton] at he
    rcases he with rfl | rfl
    · rw [List.length_take, Gesture.length_dots]
      omega
    · rw [List.length_drop, Gesture.length_dots]
      omega
  · rw [gestures_crowded] at hg
    obtain ⟨k, hk, rfl⟩ := Gesture.mem_dots hg
    have hid : (Gesture.dot k).id = k := rfl
    rw [hid]
    omega
  · rw [gestures_crowded] at hg
    obtain ⟨k, -, rfl⟩ := Gesture.mem_dots hg
    have hstrokes : (Gesture.dot k).strokes.length = 1 := rfl
    omega
  · rw [gestures_crowded] at hg
    obtain ⟨k, -, rfl⟩ := Gesture.mem_dots hg
    obtain rfl := List.mem_singleton.mp hs
    show 1 < 2 ^ 31
    decide

/-- **Two sections of one name may together have more gestures than a section can count.** -/
theorem exists_crowded (policy : Policy) :
    ∃ sections f, Layout sections f ∧ sections.Admitted policy ∧
      (write sections.merged).fault ≠ none := by
  obtain ⟨m, hm⟩ : ∃ m : Nat, m = 2 ^ 31 := ⟨_, rfl⟩
  have hnames : ∀ e ∈ crowded m, ∃ f, Writer.utf e.1 = .ok f := by
    intro e he
    rw [crowded, List.mem_cons, List.mem_singleton] at he
    rcases he with rfl | rfl <;> exact ⟨_, rfl⟩
  have hlayout := layout_of_fault ((fault_eq_none_iff hnames).mpr (crowded_fits hm.le))
  refine ⟨crowded m, _, hlayout, crowded_admitted m policy, fun hwritten => ?_⟩
  have hname : Text.of "a" ∈ (crowded m).names := by
    refine Entries.mem_names.mpr ⟨_, List.mem_cons_self, ?_, rfl⟩
    rw [← List.length_pos_iff_ne_nil, List.length_take, Gesture.length_dots]
    omega
  have hentry : (Text.of "a", Gesture.dots m) ∈ (crowded m).merged := by
    rw [← under_crowded]
    exact List.mem_map_of_mem hname
  have hlt := hlayout.fault_merged_iff.mp hwritten _ hentry
  rw [Gesture.length_dots] at hlt
  omega

end StoreFile

/-- Loading and writing may change the order of the instances, and need not even succeed. -/
theorem reencoding_may_reorder_or_overflow :
    let l : Library Single := .new ⟨1, [Text.of "s"]⟩ ⟨.invariant, none⟩ none
    (∃ bytes notices notices' loaded reloaded, ¬ StoreFile.Foreign bytes ∧
      l.load (.holding (Text.of "s") bytes) = (.ok true, notices, loaded) ∧
      (StoreFile.write loaded.entries).fault = none ∧
      l.load (.holding (Text.of "s") (StoreFile.write loaded.entries).bytes)
        = (.ok true, notices', reloaded) ∧
      reloaded.learner.instances ≠ loaded.learner.instances) ∧
    ∃ bytes notices loaded, ¬ StoreFile.Foreign bytes ∧
      l.load (.holding (Text.of "s") bytes) = (.ok true, notices, loaded) ∧
        (StoreFile.write loaded.entries).fault ≠ none := by
  intro l
  constructor
  · obtain ⟨notices, notices', loaded, reloaded, hload, hwritten, hload', hids, hids'⟩ :=
      interleaved_file_is_reordered
    have hversion := StoreFile.layout_interleaved.not_foreign [255]
    refine ⟨_, notices, notices', loaded, reloaded, hversion, hload, hwritten, hload', ?_⟩
    intro heq
    rw [heq, hids] at hids'
    exact absurd hids' (by decide)
  · obtain ⟨sections, f, hlayout, hadmitted, hfault⟩ := StoreFile.exists_crowded l.policy
    obtain ⟨notices, loaded, hload, hentries, -⟩ :=
      Library.load_layout hlayout hadmitted (Disk.contents?_holding (f ++ []))
    exact ⟨f ++ [], notices, loaded, hlayout.not_foreign [], hload, hentries ▸ hfault⟩

end GestureStore
