/-
Store files are read exactly from what they are written as.

A file of the known version is a list of sections, each a name with some gestures.
Sections may be empty and names may come twice, so a file says more than the entries
it stands for; what reading keeps of it are the gestures with their names, in order.
`read_eq_known_iff` says which bytes are such a file, down to where it ends.

`parse` is what a file means apart from any library: no policy is asked whether its
gestures can be extracted, and no identifier is looked at.
-/
import GestureStore.Proofs.Library.Entries
import GestureStore.Proofs.Wire.Gesture
import GestureStore.Wire.Store

namespace GestureStore
namespace StoreFile

open Writer Reader

/-! ### Sections -/

theorem takes_entryHeader :
    entryHeader.Takes fun e f => Writes [Writer.utf e.1, Writer.int e.2] f := by
  have hcounted : ∀ name : Text, Takes
      (do
        let n ← Reader.count (Text.of "gesture count")
        return ((name, n) : Text × Nat))
      fun e g => e.1 = name ∧ Writer.int e.2 = .ok g := by
    intro name
    refine ((takes_count _).map (Prod.mk name)).congr fun e g => ⟨?_, ?_⟩
    · intro h
      obtain ⟨n, hn, rfl⟩ := h
      exact ⟨rfl, hn⟩
    · intro h
      obtain ⟨rfl, hn⟩ := h
      exact ⟨e.2, hn, rfl⟩
  refine ((takes_utf _).bind hcounted).congr fun e f => ?_
  simp only [writes_cons, writes_nil]
  refine ⟨?_, ?_⟩
  · intro h
    obtain ⟨name, f₁, f₂, hname, ⟨rfl, hn⟩, rfl⟩ := h
    exact ⟨f₁, _, hname, ⟨f₂, [], hn, rfl, rfl⟩, by rw [List.append_nil]⟩
  · intro h
    obtain ⟨f₁, _, hname, ⟨f₂, _, hn, rfl, rfl⟩, rfl⟩ := h
    exact ⟨e.1, f₁, f₂, hname, ⟨rfl, hn⟩, by rw [List.append_nil]⟩

theorem writes_entryParts {name : Text} {gs : List Gesture} {f : Bytes} :
    Writes (entryParts (name, gs)) f ↔
      ∃ g h, Writes [Writer.utf name, Writer.int gs.length] g ∧
        Joined (fun g => Writes g.parts) gs h ∧ f = g ++ h := by
  have hparts : entryParts (name, gs)
      = [Writer.utf name, Writer.int gs.length] ++ gs.flatMap Gesture.parts := rfl
  rw [hparts, writes_append]
  simp only [writes_flatMap]

/-- **Reading sections takes what sections are written as, and keeps their gestures.** -/
theorem entriesFrom_eq_iff {n : Nat} {b : Bytes} {items : List (Text × Gesture)} {rest : Bytes} :
    entriesFrom n b = ⟨items, none, rest⟩ ↔
      ∃ (es : Entries) (f : Bytes), es.length = n ∧ Writes (es.flatMap entryParts) f ∧
        b = f ++ rest ∧ items = es.pairs := by
  induction n generalizing b items with
  | zero =>
      rw [entriesFrom]
      refine ⟨?_, ?_⟩
      · intro h
        obtain ⟨hitems, -, hrest⟩ := Run.mk.inj h
        exact ⟨[], [], rfl, writes_nil.mpr rfl, hrest, hitems.symm⟩
      · intro h
        obtain ⟨es, f, hlen, hf, rfl, rfl⟩ := h
        obtain rfl := List.length_eq_zero_iff.mp hlen
        rw [writes_nil.mp hf]
        rfl
  | succ n ih =>
      rw [entriesFrom]
      refine ⟨?_, ?_⟩
      · intro h
        split at h
        · simp at h
        · rename_i name k middle hheader
          dsimp only at h
          split at h
          · simp at h
          · rename_i hown
            obtain ⟨hitems, hfault, hrest⟩ := Run.mk.inj h
            obtain ⟨g, hg, rfl⟩ := (takes_entryHeader _ _ _).mp hheader
            obtain ⟨hlen, i, hi, hmiddle⟩ := (run_eq_iff Gesture.takes_read k middle _ _).mp
              (show run Gesture.read k middle = ⟨_, none, _⟩ by rw [← hown])
            obtain ⟨es, f, hes, hf, hleft, hpairs⟩ := ih.mp
              (show entriesFrom n (run Gesture.read k middle).rest = ⟨_, none, rest⟩ by
                rw [← hfault, ← hrest])
            refine ⟨(name, (run Gesture.read k middle).items) :: es, (g ++ i) ++ f,
              by rw [List.length_cons, hes], ?_, ?_, ?_⟩
            · rw [List.flatMap_cons, writes_append]
              refine ⟨g ++ i, f, writes_entryParts.mpr ⟨g, i, ?_, hi, rfl⟩, hf, rfl⟩
              rw [hlen]
              exact hg
            · rw [List.append_assoc, List.append_assoc, ← hleft, ← hmiddle]
            · rw [← hitems, hpairs, Entries.pairs_cons]
      · intro h
        obtain ⟨es, f, hes, hf, rfl, rfl⟩ := h
        cases es with
        | nil => simp at hes
        | cons e es =>
            obtain ⟨name, gs⟩ := e
            rw [List.flatMap_cons, writes_append] at hf
            obtain ⟨f, j, hf, hj, rfl⟩ := hf
            obtain ⟨g, i, hg, hi, rfl⟩ := writes_entryParts.mp hf
            have hown := (run_eq_iff Gesture.takes_read gs.length (i ++ (j ++ rest)) gs
              (j ++ rest)).mpr ⟨rfl, i, hi, rfl⟩
            have hlater : entriesFrom n (j ++ rest) = ⟨Entries.pairs es, none, rest⟩ :=
              ih.mpr ⟨es, j, by simpa using hes, hj, rfl, rfl⟩
            have hheader := (takes_entryHeader.read (a := (name, gs.length)) hg) (i ++ (j ++ rest))
            rw [List.append_assoc, List.append_assoc, hheader]
            simp only [hown, hlater, Entries.pairs_cons]

/-! ### Whole files -/

/-- **Which bytes are a file of the known version, and what gestures are in it.** -/
theorem read_eq_known_iff {b : Bytes} {items : List (Text × Gesture)} {rest : Bytes} :
    read b = .ok (.known ⟨items, none, rest⟩) ↔
      ∃ (es : Entries) (f : Bytes), Writes (parts es) f ∧ b = f ++ rest ∧ items = es.pairs := by
  rw [read]
  refine ⟨?_, ?_⟩
  · intro h
    split at h
    · simp at h
    · rename_i v middle hversion
      by_cases hv : v = version
      · obtain ⟨f₁, hf₁, rfl⟩ := (takes_short _ _ _ _).mp hversion
        rw [if_pos hv] at h
        have hentries : entries middle = ⟨items, none, rest⟩ := Contents.known.inj (Except.ok.inj h)
        rw [entries] at hentries
        split at hentries
        · simp at hentries
        · rename_i n left hcount
          obtain ⟨f₂, hf₂, rfl⟩ := (takes_count _ _ _ _).mp hcount
          obtain ⟨es, f₃, hlen, hf₃, rfl, hitems⟩ := entriesFrom_eq_iff.mp hentries
          refine ⟨es, f₁ ++ (f₂ ++ f₃), ?_, by simp only [List.append_assoc], hitems⟩
          rw [parts, writes_cons]
          refine ⟨f₁, _, by rw [← hv]; exact hf₁, ?_, rfl⟩
          rw [writes_cons]
          exact ⟨f₂, f₃, by rw [hlen]; exact hf₂, hf₃, rfl⟩
      · rw [if_neg hv] at h
        simp at h
  · intro h
    obtain ⟨es, f, hf, rfl, rfl⟩ := h
    rw [parts, writes_cons] at hf
    obtain ⟨f₁, _, hf₁, hf, rfl⟩ := hf
    rw [writes_cons] at hf
    obtain ⟨f₂, f₃, hf₂, hf₃, rfl⟩ := hf
    have hentries : entriesFrom es.length (f₃ ++ rest) = ⟨es.pairs, none, rest⟩ :=
      entriesFrom_eq_iff.mpr ⟨es, f₃, rfl, hf₃, rfl, rfl⟩
    rw [List.append_assoc, List.append_assoc, (takes_short _).read hf₁]
    simp only [if_pos, entries]
    rw [(takes_count _).read hf₂]
    simp only [hentries]

/-- Names that come out of a file can be written into one. -/
theorem writable_of_read {b : Bytes} {items : List (Text × Gesture)} {rest : Bytes}
    (h : read b = .ok (.known ⟨items, none, rest⟩)) :
    ∀ p ∈ items, ∃ f, Writer.utf p.1 = .ok f := by
  obtain ⟨es, f, hf, -, rfl⟩ := read_eq_known_iff.mp h
  intro p hp
  obtain ⟨e, he, hname, -⟩ := Entries.mem_pairs.mp hp
  rw [hname]
  refine exists_writes_iff.mp ⟨f, hf⟩ _ ?_
  rw [parts, List.mem_cons, List.mem_cons, List.mem_flatMap]
  exact Or.inr (Or.inr ⟨e, he, by simp [entryParts]⟩)

/-- What a file says, apart from any library that reads it. -/
def parse (b : Bytes) : Except Fault Entries :=
  match read b with
  | .error e => .error e
  | .ok (.unknown _) => .ok []
  | .ok (.known run) =>
    match run.fault with
    | some e => .error e
    | none => .ok (Entries.ofPairs run.items)

/-- **A file that was written holds what it was written for**, whatever stands behind it. -/
theorem read_write {es : Entries} (hwritten : (write es).fault = none) (rest : Bytes) :
    read ((write es).bytes ++ rest) = .ok (.known ⟨es.pairs, none, rest⟩) :=
  read_eq_known_iff.mpr ⟨es, _, writes_of_fault hwritten, rfl, rfl⟩

/-- **A file that was written for tidy entries says those entries.** -/
theorem parse_write {es : Entries} (htidy : es.Tidy) (hwritten : (write es).fault = none)
    (rest : Bytes) : parse ((write es).bytes ++ rest) = .ok es := by
  rw [parse, read_write hwritten]
  exact congrArg Except.ok (Entries.ofPairs_pairs htidy)

end StoreFile
end GestureStore
