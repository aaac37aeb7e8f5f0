/-
Sections of one name come together.

A file may have several sections of one name, and sections without gestures.  What
adding their gestures one by one comes to can be told at once (`Entries.merged`): the
names that have gestures, in the order in which they first have some, each with the
gestures of all its sections.

Merging moves gestures about, but loses none and makes none.  It changes nothing
exactly if the sections were tidy, and otherwise leaves fewer of them.
-/
import GestureStore.Proofs.Library.Entries
import Mathlib.Data.List.Induction
import Mathlib.Order.Fin.Basic

namespace GestureStore
namespace Entries

/-- The gestures of all sections of a name. -/
def under (es : Entries) (name : Text) : List Gesture :=
  List.flatMap (fun e => if e.1 = name then e.2 else []) es

/-- The names that have gestures, in the order in which they first have some. -/
def names (es : Entries) : List Text :=
  ((List.filter (fun e => !e.2.isEmpty) es).map Prod.fst).eraseDups

/-- Every name that has gestures, with all of them. -/
def merged (es : Entries) : Entries := es.names.map fun name => (name, es.under name)

/-! ### One more section -/

theorem under_concat (es : Entries) (e : Text × List Gesture) (name : Text) :
    (es ++ [e]).under name = es.under name ++ if e.1 = name then e.2 else [] := by
  rw [under, List.flatMap_append, List.flatMap_singleton]
  rfl

theorem mem_names {es : Entries} {name : Text} :
    name ∈ es.names ↔ ∃ e ∈ es, e.2 ≠ [] ∧ e.1 = name := by
  simp [names]

theorem names_concat (es : Entries) (e : Text × List Gesture) :
    (es ++ [e]).names = if e.2 = [] ∨ e.1 ∈ es.names then es.names else es.names ++ [e.1] := by
  by_cases hempty : e.2 = []
  · rw [if_pos (Or.inl hempty), names, List.filter_append,
      List.filter_eq_nil_iff (l := [e]) |>.mpr (by simp [hempty]), List.append_nil]
    rfl
  · have hkept : List.filter (fun e : Text × List Gesture => !e.2.isEmpty) [e] = [e] :=
      List.filter_eq_self.mpr (by simp [hempty])
    rw [names, List.filter_append, hkept, List.map_append, List.eraseDups_append,
      List.map_singleton, ← names]
    by_cases hmem : e.1 ∈ es.names
    · have hold := List.mem_eraseDups.mp hmem
      rw [if_pos (Or.inr hmem), List.removeAll, List.filter_eq_nil_iff.mpr (by simpa using hold)]
      simp
    · have hnew := mt List.mem_eraseDups.mpr hmem
      rw [if_neg (by simp [hempty, hmem]), List.removeAll,
        List.filter_eq_self.mpr (by simpa using hnew)]
      rfl

theorem nodup_names (es : Entries) : es.names.Nodup := by
  induction es using List.reverseRecOn with
  | nil => exact List.nodup_nil
  | append_singleton es e ih =>
      rw [names_concat]
      split
      · exact ih
      · rename_i h
        rw [not_or] at h
        exact List.nodup_append.mpr ⟨ih, List.nodup_singleton _, by
          intro a ha b hb hab
          rw [List.mem_singleton.mp hb] at hab
          exact h.2 (hab ▸ ha)⟩

theorem names_sublist (es : Entries) : es.names.Sublist (es.map Prod.fst) := by
  induction es using List.reverseRecOn with
  | nil => exact List.Sublist.refl _
  | append_singleton es e ih =>
      rw [names_concat, List.map_append]
      split
      · exact ih.trans (List.sublist_append_left _ _)
      · exact ih.append (List.Sublist.refl _)

/-! ### Adding the gestures one by one -/

theorem map_fst_merged (es : Entries) : es.merged.map Prod.fst = es.names := by
  rw [merged, List.map_map]
  exact List.map_id _

theorem under_of_notMem {es : Entries} {name : Text} (h : name ∉ es.names) :
    es.under name = [] := by
  rw [under, List.flatMap_eq_nil_iff]
  intro e he
  split
  · rename_i hname
    by_contra hne
    exact h (mem_names.mpr ⟨e, he, hne, hname⟩)
  · rfl

/-- Adding the gestures of one more section, name by name. -/
theorem foldl_add_merged (es : Entries) (e : Text × List Gesture) :
    (e.2.map fun g => (e.1, g)).foldl (fun es p => add p.1 p.2 es) es.merged
      = (es ++ [e]).merged := by
  obtain ⟨name, gs⟩ := e
  have hother : ∀ ns : List Text, name ∉ ns →
      (ns.map fun n => (n, (es ++ [(name, gs)]).under n)) = ns.map fun n => (n, es.under n) := by
    intro ns hns
    refine List.map_congr_left fun n hn => ?_
    have hne : name ≠ n := fun heq => hns (heq ▸ hn)
    rw [under_concat, if_neg hne, List.append_nil]
  have hown : (es ++ [(name, gs)]).under name = es.under name ++ gs := by
    rw [under_concat, if_pos rfl]
  by_cases hempty : gs = []
  · have hsame : (fun n => (n, (es ++ [(name, gs)]).under n)) = fun n => (n, es.under n) := by
      funext n
      rw [under_concat, hempty, ite_self, List.append_nil]
    rw [merged, merged, hsame, names_concat, if_pos (Or.inl hempty), hempty]
    rfl
  · by_cases hmem : name ∈ es.names
    · obtain ⟨before, after, hsplit⟩ := List.append_of_mem hmem
      have hnodup := es.nodup_names
      rw [hsplit, List.nodup_middle, List.nodup_cons, List.mem_append, not_or] at hnodup
      rw [merged, merged, names_concat, if_pos (Or.inr hmem), hsplit, List.map_append,
        List.map_cons, List.map_append, List.map_cons, hother before hnodup.1.1,
        hother after hnodup.1.2, hown]
      refine foldl_add_same ?_ gs (es.under name)
      rw [List.map_map]
      simpa using hnodup.1.1
    · obtain ⟨g, more, rfl⟩ := List.exists_cons_of_ne_nil hempty
      have hnew : name ∉ es.merged.map Prod.fst := by
        rw [map_fst_merged]
        exact hmem
      have hnames : (es ++ [(name, g :: more)]).names = es.names ++ [name] := by
        rw [names_concat, if_neg (by simp [hmem])]
      rw [List.map_cons, List.foldl_cons, add_of_notMem g hnew, foldl_add_same hnew, merged, merged,
        hnames, List.map_append, hother _ hmem, List.map_singleton, hown, under_of_notMem hmem]
      rfl

/-- **Adding the gestures of all sections one by one merges the sections.** -/
theorem ofPairs_eq_merged (es : Entries) : ofPairs es.pairs = es.merged := by
  induction es using List.reverseRecOn with
  | nil => rfl
  | append_singleton es e ih =>
      rw [← foldl_add_merged, ← ih, ofPairs, pairs_append, List.foldl_append, ← ofPairs, pairs_cons]
      simp [pairs]

/-! ### What merging changes -/

theorem tidy_merged (es : Entries) : es.merged.Tidy where
  names := by
    rw [map_fst_merged]
    exact es.nodup_names
  occupied := by
    intro e he
    obtain ⟨name, hname, rfl⟩ := List.mem_map.mp he
    obtain ⟨e, hmem, hne, rfl⟩ := mem_names.mp hname
    intro hnil
    rw [under, List.flatMap_eq_nil_iff] at hnil
    have hown := hnil e hmem
    rw [if_pos rfl] at hown
    exact hne hown

/-- **Merging loses no gesture and makes none.** -/
theorem pairs_merged_perm (es : Entries) : es.merged.pairs.Perm es.pairs := by
  have hfold : ∀ (ps : List (Text × Gesture)) (done : Entries),
      (ps.foldl (fun es p => add p.1 p.2 es) done).pairs.Perm (ps ++ done.pairs) := by
    intro ps
    induction ps with
    | nil => intro done; exact List.Perm.refl _
    | cons p rest ih =>
        intro done
        obtain ⟨before, after, hbefore, hafter⟩ := pairs_add p.1 p.2 done
        rw [List.foldl_cons]
        refine (ih _).trans ?_
        rw [hafter, hbefore, ← List.append_assoc, ← List.append_assoc]
        exact List.perm_middle
  rw [← ofPairs_eq_merged, ofPairs]
  have h := hfold es.pairs []
  rw [show pairs [] = [] from rfl, List.append_nil] at h
  exact h

theorem merged_of_tidy {es : Entries} (h : es.Tidy) : es.merged = es := by
  rw [← ofPairs_eq_merged, ofPairs_pairs h]

/-- Merging leaves as many entries as there were sections only where they were tidy. -/
theorem tidy_of_length_merged {es : Entries} (h : es.merged.length = es.length) : es.Tidy := by
  have hlength : es.names.length = es.length := by
    rw [← h, merged, List.length_map]
  have hnames : es.names = es.map Prod.fst :=
    es.names_sublist.eq_of_length (by rw [hlength, List.length_map])
  have hnodup : (es.map Prod.fst).Nodup := hnames ▸ es.nodup_names
  refine ⟨hnodup, fun e he => ?_⟩
  have hmem : e.1 ∈ es.names := by
    rw [hnames]
    exact List.mem_map_of_mem he
  obtain ⟨e', he', hne, hname⟩ := mem_names.mp hmem
  rw [← List.inj_on_of_nodup_map hnodup he' he hname]
  exact hne

end Entries
end GestureStore
