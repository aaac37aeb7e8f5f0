/-
Creating the directories on a way.

What is created stays, whether or not the way can be gone to its end; nothing else
changes (`Prepared`).  So every file there was is as it was, and no file has come to be.

A path that leads to a file still does.  The converse needs a path that does not go up
again: through a directory which is missing, and up, a path leads nowhere until that
directory is created, and may then lead to a file that was there all along.
-/
import GestureStore.Proofs.Storage.Disk

namespace GestureStore

/-- The place that names lead to from a directory, whatever stands there. -/
def Place.along (p : Place) (names : List Text) : Place :=
  names.foldl (fun p name => if name = Location.dots then p.parent else p.child name) p

theorem Place.along_cons {name : Text} (h : name ≠ Location.dots) (p : Place) (rest : List Text) :
    p.along (name :: rest) = (p.child name).along rest := by
  rw [along, List.foldl_cons, if_neg h]
  rfl

theorem Place.along_concat {name : Text} (h : name ≠ Location.dots) (p : Place)
    (names : List Text) : p.along (names ++ [name]) = (p.along names).child name := by
  rw [along, List.foldl_append, List.foldl_cons, if_neg h]
  rfl

namespace Disk

/-- Whatever stands somewhere stands in a directory. -/
def Rooted (d : Disk) : Prop :=
  ∀ place n, d.node? place = some n → place ≠ Place.root →
    ∃ m, d.node? place.parent = some (.directory m)

/-- Directories have been created on the way to a location, and nothing else has changed. -/
def Prepared (d : Disk) (l : Location) (d' : Disk) : Prop :=
  ∃ made : List Place, d' = { d with nodes := d.nodes ++ made.map fun p => (p, newDirectory) } ∧
    ∀ p ∈ made, ∃ way, way <+: l.names ∧ p = (d.origin l.text).along way

/-! ### Creating directories -/

private theorem enter_made (names : List Text) :
    ∀ (d : Disk) (place : Place) (fresh : Bool), ∃ made : List Place,
      (d.enter place fresh names).2
        = { d with nodes := d.nodes ++ made.map fun p => (p, newDirectory) } ∧
      ∀ p ∈ made, ∃ way, way <+: names ∧ p = place.along way := by
  induction names with
  | nil => intro d place fresh; exact ⟨[], by simp [enter], by simp⟩
  | cons name rest ih =>
      intro d place fresh
      have hnone : ∃ made : List Place,
          d = { d with nodes := d.nodes ++ made.map fun p => (p, newDirectory) } ∧
          ∀ p ∈ made, ∃ way, way <+: name :: rest ∧ p = place.along way := ⟨[], by simp, by simp⟩
      -- What is on the way from the next place on is on the way from this one on.
      have hfurther : ∀ next : Place, place.along [name] = next → ∀ made : List Place,
          (∀ p ∈ made, ∃ way, way <+: rest ∧ p = next.along way) →
          ∀ p ∈ made, ∃ way, way <+: name :: rest ∧ p = place.along way := by
        intro next hnext made hmade p hp
        obtain ⟨way, hway, rfl⟩ := hmade p hp
        refine ⟨name :: way, by simpa using hway, ?_⟩
        rw [← hnext]
        rfl
      rw [enter]
      by_cases hdots : name = Location.dots
      · rw [if_pos hdots]
        obtain ⟨made, hnodes, hmade⟩ := ih d place.parent false
        exact ⟨made, hnodes, hfurther _ (if_pos hdots) made hmade⟩
      · rw [if_neg hdots]
        have hnext : place.along [name] = place.child name := if_neg hdots
        by_cases hlong : maxNameBytes < byteCount name
        · rw [if_pos hlong]
          exact hnone
        · rw [if_neg hlong]
          dsimp only
          split
          · obtain ⟨made, hnodes, hmade⟩ := ih d (place.child name) false
            exact ⟨made, hnodes, hfurther _ hnext made hmade⟩
          · exact hnone
          · split
            · exact hnone
            · split
              · exact hnone
              · obtain ⟨made, hnodes, hmade⟩ :=
                  ih (d.add (place.child name) newDirectory) (place.child name) true
                refine ⟨place.child name :: made, ?_, ?_⟩
                · rw [hnodes, add, List.append_assoc]
                  rfl
                · intro p hp
                  rcases List.mem_cons.mp hp with rfl | hp
                  · exact ⟨[name], by simp, hnext.symm⟩
                  · exact hfurther _ hnext made hmade p hp

theorem Prepared.refl (d : Disk) (l : Location) : Prepared d l d := ⟨[], by simp, by simp⟩

/-- Creating directories changes nothing else, whether or not it succeeds. -/
theorem prepared_makeDirectories (d : Disk) (l : Location) :
    Prepared d l (d.makeDirectories l).2 := by
  rw [makeDirectories]
  split
  · exact .refl d l
  · split
    · exact .refl d l
    · exact enter_made l.names d (d.origin l.text) false

private theorem enter_eq_ok {names : List Text} :
    ∀ {d : Disk} {place target : Place} {fresh : Bool},
      (d.enter place fresh names).1 = .ok target → target = place.along names := by
  induction names with
  | nil => intro d place target fresh h; exact (Except.ok.inj h).symm
  | cons name rest ih =>
      intro d place target fresh h
      rw [enter] at h
      by_cases hdots : name = Location.dots
      · rw [if_pos hdots] at h
        rw [ih h, hdots]
        rfl
      · rw [if_neg hdots] at h
        rw [Place.along_cons hdots]
        split at h
        · simp at h
        · dsimp only at h
          split at h
          · exact ih h
          · simp at h
          · split at h
            · simp at h
            · split at h
              · simp at h
              · exact ih h

/-- Where the way leads when it has been gone to its end. -/
theorem makeDirectories_eq_ok {d : Disk} {l : Location} {directory : Place}
    (h : (d.makeDirectories l).1 = .ok directory) :
    directory = (d.origin l.text).along l.names := by
  rw [makeDirectories] at h
  split at h
  · simp at h
  · split at h
    · simp at h
    · exact enter_eq_ok h

namespace Prepared

variable {d d' : Disk} {l : Location}

/-- The surroundings are the same. -/
theorem here (h : Prepared d l d') : d'.here = d.here := by
  obtain ⟨made, rfl, -⟩ := h
  rfl

theorem refusals (h : Prepared d l d') : d'.refusals = d.refusals := by
  obtain ⟨made, rfl, -⟩ := h
  rfl

/-- What was there still is. -/
theorem node?_of (h : Prepared d l d') {place : Place} {n : Node} (hn : d.node? place = some n) :
    d'.node? place = some n := by
  obtain ⟨made, hnodes, -⟩ := h
  exact (node?_append (congrArg Disk.nodes hnodes)).mpr (Or.inl hn)

/-- What is new is a directory on the way. -/
theorem node?_new (h : Prepared d l d') {place : Place} {n : Node}
    (hn : d'.node? place = some n) (hnone : d.node? place = none) :
    n = newDirectory ∧ ∃ way, way <+: l.names ∧ place = (d.origin l.text).along way := by
  obtain ⟨made, hnodes, hmade⟩ := h
  rcases (node?_append (congrArg Disk.nodes hnodes)).mp hn with hold | ⟨-, hnew⟩
  · rw [hnone] at hold
    simp at hold
  · obtain ⟨e, he, rfl⟩ := Option.map_eq_some_iff.mp hnew
    have hplace : e.1 = place := by simpa using List.find?_some he
    obtain ⟨p, hp, rfl⟩ := List.mem_map.mp (List.mem_of_find?_eq_some he)
    obtain rfl : p = place := hplace
    exact ⟨rfl, hmade p hp⟩

/-- **Files are the same as before, everywhere.** -/
theorem node?_file_iff (h : Prepared d l d') {place : Place} {b : Bytes} {m : Nat} :
    d'.node? place = some (.file b m) ↔ d.node? place = some (.file b m) := by
  refine ⟨fun hn => ?_, h.node?_of⟩
  cases hold : d.node? place with
  | some n => rw [← hn, h.node?_of hold]
  | none =>
      have hdirectory := (h.node?_new hn hold).1
      simp [newDirectory] at hdirectory

theorem keeps (h : Prepared d l d') : Keeps d d' := ⟨h.here, fun _ _ => h.node?_of⟩

/-- A file that a path leads to is still what it leads to. -/
theorem contents? (h : Prepared d l d') {file : Location} {b : Bytes}
    (hb : d.contents? file = .ok (some b)) : d'.contents? file = .ok (some b) := by
  obtain ⟨target, m, hleads, hstands⟩ := contents?_eq_some_iff.mp hb
  exact contents?_eq_some_iff.mpr ⟨target, m, h.keeps.leadsTo hleads, h.node?_of hstands⟩

end Prepared

/-! ### Paths that do not go up -/

/-- Names lead where they go, if they lead anywhere. -/
theorem Leads.target_eq {d : Disk} {target place : Place} {names : List Text}
    (h : d.Leads target place names) : target = place.along names := by
  induction h with
  | here => rfl
  | up _ ih => exact ih
  | last plain _ target_eq => rw [Place.along_cons plain, ← target_eq]; rfl
  | down plain _ _ _ ih => rw [Place.along_cons plain]; exact ih

/-- On the way to where something stands there are directories. -/
theorem Rooted.directory {d : Disk} (hrooted : d.Rooted) {n : Node} (names : List Text) :
    ∀ place, Location.dots ∉ names → names ≠ [] → d.node? (place.along names) = some n →
      ∃ m, d.node? place = some (.directory m) := by
  induction names with
  | nil => intro place _ hnil; exact absurd rfl hnil
  | cons name rest ih =>
      intro place hdots _ h
      rw [List.mem_cons, not_or] at hdots
      rw [Place.along_cons fun hname => hdots.1 hname.symm] at h
      have hnext : ∃ n, d.node? (place.child name) = some n := by
        cases rest with
        | nil => exact ⟨n, h⟩
        | cons name' rest' =>
            obtain ⟨m, hm⟩ := ih _ hdots.2 (by simp) h
            exact ⟨_, hm⟩
      obtain ⟨n', hn'⟩ := hnext
      have hparent := hrooted _ _ hn' (Place.child_ne_root place name)
      rw [Place.parent_child] at hparent
      exact hparent

namespace Prepared

variable {d d' : Disk} {l : Location}

private theorem leads_back (h : Prepared d l d') (hrooted : d.Rooted) {target place : Place}
    {names : List Text} {b : Bytes} {m : Nat} (hleads : d'.Leads target place names)
    (hdots : Location.dots ∉ names) (hstands : d.node? target = some (.file b m)) :
    d.Leads target place names := by
  induction hleads with
  | here => exact .here
  | up => simp at hdots
  | last plain short target_eq => exact .last plain short target_eq
  | @down place name rest m' plain short hdirectory hlater ih =>
      have hfurther : Location.dots ∉ rest := fun hrest => hdots (by simp [hrest])
      -- The directory is not a new one, for the file stands below it.
      have hrest : rest ≠ [] := by
        intro hrest
        rw [hrest] at hlater
        have htarget : target = place.child name := hlater.target_eq
        rw [← htarget, h.node?_of hstands] at hdirectory
        simp at hdirectory
      have hbelow : d.node? ((place.child name).along rest) = some (.file b m) := by
        rw [← hlater.target_eq, hstands]
      obtain ⟨k, hk⟩ := hrooted.directory rest _ hfurther hrest hbelow
      exact .down plain short hk (ih hfurther)

/-- A path that does not go up leads to the file that it led to before, or to none as before. -/
theorem contents?_iff (h : Prepared d l d') (hrooted : d.Rooted) {file : Location}
    (hdots : Location.dots ∉ Location.namesOf file.text) {b : Bytes} :
    d'.contents? file = .ok (some b) ↔ d.contents? file = .ok (some b) := by
  refine ⟨fun hb => ?_, h.contents?⟩
  obtain ⟨target, m, hleads, hstands'⟩ := contents?_eq_some_iff.mp hb
  have hstands := h.node?_file_iff.mp hstands'
  have hfrom := hleads.leads
  rw [origin, h.here] at hfrom
  exact contents?_eq_some_iff.mpr
    ⟨target, m, ⟨hleads.walkable, h.leads_back hrooted hfrom hdots hstands⟩, hstands⟩

end Prepared

end Disk
end GestureStore
