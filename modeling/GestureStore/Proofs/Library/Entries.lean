/-
Entries are their gestures with their names, in order.

Entries are tidy if no name comes twice and none stands without a gesture.  Adding
and removing keep them so, and tidy entries can be told from the list of their
gestures with the names (`ofPairs_pairs`).  That list is what everything else looks
at: adding puts one pair into it somewhere, removing a gesture takes one pair out,
and removing an entry takes out the pairs of a name.
-/
import GestureStore.Library.Entries
import Mathlib.Data.List.Nodup

namespace GestureStore
namespace Entries

/-- No name comes twice, and every name has a gesture. -/
structure Tidy (es : Entries) : Prop where
  /-- Names tell entries apart. -/
  names : (es.map Prod.fst).Nodup
  /-- No entry is empty. -/
  occupied : ∀ e ∈ es, e.2 ≠ []

theorem tidy_nil : Tidy [] := ⟨List.nodup_nil, by simp⟩

/-! ### Gestures with their names -/

theorem pairs_cons (e : Text × List Gesture) (es : Entries) :
    pairs (e :: es) = e.2.map (fun g => (e.1, g)) ++ es.pairs := rfl

theorem pairs_append (es fs : Entries) : pairs (es ++ fs) = es.pairs ++ fs.pairs :=
  List.flatMap_append

theorem gestures_eq (es : Entries) : es.gestures = es.pairs.map Prod.snd := by
  rw [gestures, pairs, List.map_flatMap]
  congr 1
  funext e
  rw [List.map_map]
  exact (List.map_id e.2).symm

theorem mem_gestures {es : Entries} {g : Gesture} :
    g ∈ es.gestures ↔ ∃ p ∈ es.pairs, p.2 = g := by
  rw [gestures_eq, List.mem_map]

theorem mem_gestures_of_pair {es : Entries} {p : Text × Gesture} (h : p ∈ es.pairs) :
    p.2 ∈ es.gestures := mem_gestures.mpr ⟨p, h, rfl⟩

theorem map_id_gestures (es : Entries) :
    es.gestures.map Gesture.id = es.pairs.map fun p => p.2.id := by
  rw [gestures_eq, List.map_map]
  rfl

theorem mem_pairs {es : Entries} {p : Text × Gesture} :
    p ∈ es.pairs ↔ ∃ e ∈ es, p.1 = e.1 ∧ p.2 ∈ e.2 := by
  simp only [pairs, List.mem_flatMap, List.mem_map]
  refine ⟨?_, ?_⟩
  · intro h
    obtain ⟨e, he, g, hg, rfl⟩ := h
    exact ⟨e, he, rfl, hg⟩
  · intro h
    obtain ⟨e, he, hname, hg⟩ := h
    exact ⟨e, he, p.2, hg, by rw [← hname]⟩

theorem contains_iff {es : Entries} {name : Text} :
    es.contains name = true ↔ name ∈ es.map Prod.fst := by
  simp [contains]

/-- In tidy entries every name has a pair. -/
theorem Tidy.exists_pair {es : Entries} (h : Tidy es) {e : Text × List Gesture} (he : e ∈ es) :
    ∃ g ∈ e.2, (e.1, g) ∈ es.pairs := by
  obtain ⟨g, hg⟩ := List.exists_mem_of_ne_nil _ (h.occupied e he)
  exact ⟨g, hg, mem_pairs.mpr ⟨e, he, rfl, hg⟩⟩

/-! ### Adding -/

theorem add_of_notMem {name : Text} {es : Entries} (g : Gesture)
    (h : name ∉ es.map Prod.fst) : add name g es = es ++ [(name, [g])] := by
  induction es with
  | nil => rfl
  | cons e rest ih =>
      rw [List.map_cons, List.mem_cons, not_or] at h
      have hne : ¬ (e.1 == name) = true := by
        rw [beq_iff_eq]
        exact fun hc => h.1 hc.symm
      rw [add, if_neg hne, ih h.2, List.cons_append]

theorem add_append {name : Text} {done rest : Entries} (gs : List Gesture) (g : Gesture)
    (h : name ∉ done.map Prod.fst) :
    add name g (done ++ (name, gs) :: rest) = done ++ (name, gs ++ [g]) :: rest := by
  induction done with
  | nil => simp [add]
  | cons e done ih =>
      rw [List.map_cons, List.mem_cons, not_or] at h
      have hne : ¬ (e.1 == name) = true := by
        rw [beq_iff_eq]
        exact fun hc => h.1 hc.symm
      rw [List.cons_append, add, if_neg hne, ih h.2, List.cons_append]

/-- The first entry of a name, and what stands before it. -/
theorem exists_split {name : Text} {es : Entries} (h : name ∈ es.map Prod.fst) :
    ∃ (done : Entries) (gs : List Gesture) (rest : Entries),
      es = done ++ (name, gs) :: rest ∧ name ∉ done.map Prod.fst := by
  induction es with
  | nil => simp at h
  | cons e es ih =>
      by_cases he : e.1 = name
      · subst he
        exact ⟨[], e.2, es, rfl, by simp⟩
      · rw [List.map_cons, List.mem_cons] at h
        obtain ⟨done, gs, rest, rfl, hdone⟩ := ih (h.resolve_left fun hc => he hc.symm)
        refine ⟨e :: done, gs, rest, rfl, ?_⟩
        rw [List.map_cons, List.mem_cons, not_or]
        exact ⟨fun hc => he hc.symm, hdone⟩

/-- Adding puts one pair somewhere between the others. -/
theorem pairs_add (name : Text) (g : Gesture) (es : Entries) :
    ∃ before after, es.pairs = before ++ after ∧
      (es.add name g).pairs = before ++ (name, g) :: after := by
  by_cases h : name ∈ es.map Prod.fst
  · obtain ⟨done, gs, rest, rfl, hdone⟩ := exists_split h
    refine ⟨pairs done ++ gs.map fun g => (name, g), pairs rest, ?_, ?_⟩
    · rw [pairs_append, pairs_cons, List.append_assoc]
    · rw [add_append gs g hdone, pairs_append, pairs_cons]
      simp
  · refine ⟨es.pairs, [], by simp, ?_⟩
    rw [add_of_notMem g h, pairs_append]
    rfl

theorem mem_pairs_add {name : Text} {g : Gesture} {es : Entries} {p : Text × Gesture} :
    p ∈ (es.add name g).pairs ↔ p = (name, g) ∨ p ∈ es.pairs := by
  obtain ⟨before, after, hbefore, hafter⟩ := pairs_add name g es
  rw [hbefore, hafter]
  simp only [List.mem_append, List.mem_cons]
  exact or_left_comm

theorem Tidy.add {es : Entries} (h : Tidy es) (name : Text) (g : Gesture) :
    Tidy (es.add name g) := by
  by_cases hname : name ∈ es.map Prod.fst
  · obtain ⟨done, gs, rest, rfl, hdone⟩ := exists_split hname
    rw [add_append gs g hdone]
    refine ⟨by simpa using h.names, ?_⟩
    intro e he
    simp only [List.mem_append, List.mem_cons] at he
    rcases he with he | rfl | he
    · exact h.occupied e (by simp [he])
    · simp
    · exact h.occupied e (by simp [he])
  · rw [add_of_notMem g hname]
    refine ⟨?_, ?_⟩
    · rw [List.map_append, List.nodup_append]
      refine ⟨h.names, by simp, ?_⟩
      intro a ha b hb hab
      obtain rfl : b = name := by simpa using hb
      exact hname (hab ▸ ha)
    · intro e he
      rcases List.mem_append.mp he with he | he
      · exact h.occupied e he
      · obtain rfl := List.mem_singleton.mp he
        simp

/-! ### Adding up -/

theorem foldl_add_same {name : Text} {done rest : Entries} (hdone : name ∉ done.map Prod.fst) :
    ∀ (more gs : List Gesture),
      (more.map fun g => (name, g)).foldl (fun es p => add p.1 p.2 es) (done ++ (name, gs) :: rest)
        = done ++ (name, gs ++ more) :: rest := by
  intro more
  induction more with
  | nil => intro gs; simp
  | cons g more ih =>
      intro gs
      rw [List.map_cons, List.foldl_cons, add_append gs g hdone, ih]
      simp

theorem foldl_add_pairs : ∀ (es done : Entries), Tidy (done ++ es) →
    es.pairs.foldl (fun es p => add p.1 p.2 es) done = done ++ es := by
  intro es
  induction es with
  | nil => intro done _; simp [pairs]
  | cons e es ih =>
      intro done h
      obtain ⟨name, gs⟩ := e
      have hname : name ∉ done.map Prod.fst := by
        have hnames := h.names
        rw [List.map_append, List.nodup_append] at hnames
        intro hmem
        exact hnames.2.2 name hmem name (by simp) rfl
      have hgs : gs ≠ [] := h.occupied (name, gs) (by simp)
      obtain ⟨g, more, rfl⟩ := List.exists_cons_of_ne_nil hgs
      rw [pairs_cons, List.foldl_append, List.map_cons, List.foldl_cons, add_of_notMem g hname,
        foldl_add_same hname, ih]
      · simp
      · simpa using h

/-- **Tidy entries are the sum of their gestures.** -/
theorem ofPairs_pairs {es : Entries} (h : Tidy es) : ofPairs es.pairs = es := by
  rw [ofPairs, foldl_add_pairs es [] (by simpa using h), List.nil_append]

/-! ### Removing -/

theorem erase_pairs (es : Entries) (name : Text) :
    (es.erase name).pairs = es.pairs.filter fun p => !(p.1 == name) := by
  induction es with
  | nil => rfl
  | cons e es ih =>
      have hcons : erase (e :: es) name
          = if !(e.1 == name) then e :: erase es name else erase es name := List.filter_cons
      rw [hcons, pairs_cons, List.filter_append, ← ih]
      have hname : ∀ p ∈ e.2.map (fun g => (e.1, g)), p.1 = e.1 := by
        intro p hp
        obtain ⟨g, -, rfl⟩ := List.mem_map.mp hp
        rfl
      by_cases he : e.1 = name
      · rw [if_neg (by simp [he]), List.filter_eq_nil_iff.mpr, List.nil_append]
        intro p hp
        simp [hname p hp, he]
      · rw [if_pos (by simpa using he), pairs_cons, List.filter_eq_self.mpr]
        intro p hp
        simpa [hname p hp] using he

theorem Tidy.erase {es : Entries} (h : Tidy es) (name : Text) : Tidy (es.erase name) :=
  ⟨h.names.sublist (List.filter_sublist.map _),
    fun e he => h.occupied e (List.mem_filter.mp he).1⟩

/-- Where a name stands once, what it stands for can be replaced in place. -/
theorem replace_append {name : Text} {done rest : Entries} {gs : List Gesture}
    (hdone : name ∉ done.map Prod.fst) (hrest : name ∉ rest.map Prod.fst) (gs' : List Gesture) :
    replace (done ++ (name, gs) :: rest) name gs'
      = done ++ (if gs' = [] then rest else (name, gs') :: rest) := by
  have hother : ∀ (fs : Entries), name ∉ fs.map Prod.fst → ∀ e ∈ fs, (e.1 == name) = false := by
    intro fs hfs e he
    rw [beq_eq_false_iff_ne]
    intro hc
    exact hfs (hc ▸ List.mem_map_of_mem he)
  have hkept : ∀ (fs : Entries), name ∉ fs.map Prod.fst →
      List.filter (fun e => !(e.1 == name)) fs = fs := by
    intro fs hfs
    rw [List.filter_eq_self]
    intro e he
    rw [hother fs hfs e he]
    rfl
  have hsame : ∀ (fs : Entries), name ∉ fs.map Prod.fst →
      List.map (fun e => if e.1 == name then (e.1, gs') else e) fs = fs := by
    intro fs hfs
    conv_rhs => rw [← List.map_id fs]
    refine List.map_congr_left fun e he => ?_
    rw [hother fs hfs e he]
    rfl
  rw [replace]
  by_cases hgs : gs' = []
  · rw [if_pos (by simp [hgs]), if_pos hgs, Entries.erase, List.filter_append, hkept done hdone,
      List.filter_cons_of_neg (by simp), hkept rest hrest]
  · rw [if_neg (by simpa using hgs), if_neg hgs, List.map_append, List.map_cons, hsame done hdone,
      hsame rest hrest]
    simp

theorem Tidy.split {es : Entries} (h : Tidy es) {name : Text} {gs : List Gesture}
    (hfind : es.find? name = some gs) :
    ∃ done rest : Entries, es = done ++ (name, gs) :: rest ∧ name ∉ done.map Prod.fst ∧
      name ∉ rest.map Prod.fst := by
  rw [Entries.find?, Option.map_eq_some_iff] at hfind
  obtain ⟨e, he, rfl⟩ := hfind
  have hname : e.1 = name := by simpa using List.find?_some he
  obtain ⟨done, rest, rfl⟩ := List.append_of_mem (List.mem_of_find?_eq_some he)
  have hnames := h.names
  rw [List.map_append, List.map_cons, List.nodup_append, List.nodup_cons, hname] at hnames
  refine ⟨done, rest, by rw [← hname], ?_, hnames.2.1.1⟩
  intro hmem
  exact hnames.2.2 name hmem name (by simp) rfl

/-- **Removing a gesture takes one pair out, and an entry that was left empty with it.** -/
theorem Tidy.eraseP {es : Entries} (h : Tidy es) {name : Text} {gs : List Gesture} {id : Int}
    (hfind : es.find? name = some gs) (hany : (gs.any fun g => g.id == id) = true) :
    Tidy (es.replace name (gs.eraseP fun g => g.id == id)) ∧
      ∃ before g after, g.id = id ∧ es.pairs = before ++ (name, g) :: after ∧
        (es.replace name (gs.eraseP fun g => g.id == id)).pairs = before ++ after := by
  obtain ⟨done, rest, rfl, hdone, hrest⟩ := h.split hfind
  obtain ⟨g', hg', hid'⟩ := List.any_eq_true.mp hany
  obtain ⟨g, gs₁, gs₂, -, hid, rfl, heraseP⟩ :=
    List.exists_of_eraseP (p := fun g : Gesture => g.id == id) hg' hid'
  rw [heraseP, replace_append hdone hrest]
  refine ⟨?_, pairs done ++ gs₁.map (fun g => (name, g)), g,
    gs₂.map (fun g => (name, g)) ++ pairs rest, by simpa using hid, ?_, ?_⟩
  · by_cases hnil : gs₁ ++ gs₂ = []
    · rw [if_pos hnil]
      refine ⟨h.names.sublist ?_, ?_⟩
      · simp
      · intro e he
        refine h.occupied e ?_
        rcases List.mem_append.mp he with he | he <;> simp [he]
    · rw [if_neg hnil]
      refine ⟨by simpa using h.names, ?_⟩
      intro e he
      simp only [List.mem_append, List.mem_cons] at he
      rcases he with he | rfl | he
      · exact h.occupied e (by simp [he])
      · exact hnil
      · exact h.occupied e (by simp [he])
  · rw [pairs_append, pairs_cons]
    simp
  · by_cases hnil : gs₁ ++ gs₂ = []
    · obtain ⟨rfl, rfl⟩ := List.append_eq_nil_iff.mp hnil
      rw [if_pos hnil, pairs_append]
      simp
    · rw [if_neg hnil, pairs_append, pairs_cons]
      simp

end Entries
end GestureStore
