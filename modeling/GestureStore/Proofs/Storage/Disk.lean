/-
What walks find, and what changes let them find.

A walk depends on the directories it passes and on what is at its end.  The directories
are what `Leads` is about, so that paths are followed by induction on it and not on the
walk.  On a disk that has every directory of another one (`Keeps`), a path leads to the
same place, and what is found there is what stands there now: that is why a file that
was put in the place where a walk ended is what the same path leads to afterwards.

Places that are in use are never reused: directories are only added where nothing is,
and a temporary file stands where nothing was, so that taking it away again leads back
to the very same disk.
-/
import GestureStore.Storage.Disk

namespace GestureStore

/-! ### Places -/

namespace Place

/-- A name is in the directory that it was put in. -/
theorem parent_child (p : Place) (name : Text) : (p.child name).parent = p := by
  cases p with
  | mk depth names counted => simp [parent, child]

theorem child_ne_root (p : Place) (name : Text) : p.child name ≠ root := by
  intro h
  have hdepth := congrArg Place.depth h
  simp [child, root] at hdepth

end Place

namespace Disk

/-! ### What stands where after a change -/

theorem node?_root (d : Disk) : d.node? Place.root = some newDirectory := if_pos rfl

theorem node?_of_ne {d : Disk} {place : Place} (h : place ≠ Place.root) :
    d.node? place = (d.nodes.find? fun e => e.1 == place).map (·.2) := if_neg h

theorem node?_put_self {d : Disk} {place : Place} {n : Node} (h : place ≠ Place.root) :
    (d.put place n).node? place = some n := by
  have hnone : (d.erase place).nodes.find? (fun e => e.1 == place) = none := by
    rw [List.find?_eq_none]
    intro e he
    have hne := (List.mem_filter.mp he).2
    simpa using hne
  rw [node?_of_ne h, put, add, List.find?_append, hnone]
  simp

theorem node?_put_of_ne {d : Disk} {place p : Place} {n : Node} (h : p ≠ place) :
    (d.put place n).node? p = d.node? p := by
  by_cases hroot : p = Place.root
  · rw [hroot, node?_root, node?_root]
  · have herase : (d.erase place).nodes.find? (fun e => e.1 == p)
        = d.nodes.find? (fun e => e.1 == p) := by
      rw [erase, List.find?_filter]
      congr 1
      funext e
      by_cases he : e.1 = p
      · simp [he, h]
      · simp [he]
    rw [node?_of_ne hroot, node?_of_ne hroot, put, add, List.find?_append, herase]
    simp [Ne.symm h]

/-- Something that was put where nothing was can be taken away without a trace. -/
theorem erase_put {d : Disk} {place : Place} (n : Node) (h : d.node? place = none) :
    (d.put place n).erase place = d := by
  have hroot : place ≠ Place.root := by
    intro hroot
    rw [hroot, node?_root] at h
    simp at h
  rw [node?_of_ne hroot, Option.map_eq_none_iff, List.find?_eq_none] at h
  have hkept : d.nodes.filter (fun e => !(e.1 == place)) = d.nodes := by
    rw [List.filter_eq_self]
    intro e he
    simpa using h e he
  rw [put, add, erase, erase, hkept, List.filter_append, hkept]
  simp

/-- What is put somewhere twice is there as it was put last. -/
theorem put_put (d : Disk) (place : Place) (n n' : Node) :
    (d.put place n).put place n' = d.put place n' := by
  simp [put, add, erase, List.filter_append, List.filter_filter]

/-- What is added behind something else is not seen before it. -/
theorem node?_append {d d' : Disk} {made : List (Place × Node)} (h : d'.nodes = d.nodes ++ made)
    {place : Place} {n : Node} :
    d'.node? place = some n ↔
      d.node? place = some n ∨
        d.node? place = none ∧ (made.find? fun e => e.1 == place).map (·.2) = some n := by
  by_cases hroot : place = Place.root
  · rw [hroot, node?_root, node?_root]
    simp
  · rw [node?_of_ne hroot, node?_of_ne hroot, h, List.find?_append]
    cases d.nodes.find? fun e => e.1 == place with
    | none => simp
    | some e => simp

end Disk

/-! ### Walks that end where a file is or could be -/

namespace Walk

/-- A walk ends at a place where a file is, or where one could be created. -/
def EndsAt (place : Place) : Walk → Prop
  | .found p (.file _ _) => p = place
  | .found _ (.directory _) => False
  | .absent p => p = place
  | .lost => False
  | .tooLong => False

/-- What a walk has found. -/
def node? : Walk → Option Node
  | .found _ n => some n
  | .absent _ => none
  | .lost => none
  | .tooLong => none

theorem EndsAt.node?_ne {w : Walk} {place : Place} (h : w.EndsAt place) (k : Nat) :
    w.node? ≠ some (.directory k) := by
  cases w with
  | found p n =>
      cases n with
      | file b m => simp [node?]
      | directory m => exact absurd h id
  | absent p => simp [node?]
  | lost => simp [node?]
  | tooLong => simp [node?]

end Walk

namespace Disk

/-- Names lead from a directory to a place, through directories alone. -/
inductive Leads (d : Disk) (target : Place) : Place → List Text → Prop where
  /-- The place is where one is. -/
  | here : Leads d target target []
  /-- It is reached by going up first. -/
  | up {place : Place} {rest : List Text} (later : Leads d target place.parent rest) :
      Leads d target place (Location.dots :: rest)
  /-- It is in the directory where one is. -/
  | last {place : Place} {name : Text} (plain : name ≠ Location.dots)
      (short : ¬ maxNameBytes < byteCount name) (target_eq : place.child name = target) :
      Leads d target place [name]
  /-- It is reached through another directory. -/
  | down {place : Place} {name : Text} {rest : List Text} {m : Nat}
      (plain : name ≠ Location.dots) (short : ¬ maxNameBytes < byteCount name)
      (directory : d.node? (place.child name) = some (.directory m))
      (later : Leads d target (place.child name) rest) : Leads d target place (name :: rest)

/-- **Where a walk ends, its names lead there, and what it found stands there.** -/
theorem leads_of_walkFrom {d : Disk} {target : Place} (names : List Text) :
    ∀ place, (d.walkFrom place names).EndsAt target →
      d.Leads target place names ∧ d.node? target = (d.walkFrom place names).node? := by
  induction names with
  | nil =>
      intro place h
      rw [walkFrom] at h ⊢
      split at h
      · rename_i n hn
        cases n with
        | file b m =>
            obtain rfl : place = target := h
            exact ⟨.here, hn⟩
        | directory m => exact absurd h id
      · exact absurd h id
  | cons name rest ih =>
      intro place h
      rw [walkFrom] at h ⊢
      by_cases hdots : name = Location.dots
      · rw [if_pos hdots] at h ⊢
        obtain ⟨hleads, hnode⟩ := ih _ h
        rw [hdots]
        exact ⟨.up hleads, hnode⟩
      · rw [if_neg hdots] at h ⊢
        by_cases hlong : maxNameBytes < byteCount name
        · rw [if_pos hlong] at h
          exact absurd h id
        · rw [if_neg hlong] at h ⊢
          dsimp only at h ⊢
          split at h
          · rename_i m hnext
            obtain ⟨hleads, hnode⟩ := ih _ h
            exact ⟨.down hdots hlong hnext hleads, hnode⟩
          · rename_i b m hnext
            by_cases hrest : rest = []
            · rw [if_pos hrest] at h ⊢
              obtain rfl : place.child name = target := h
              rw [hrest]
              exact ⟨.last hdots hlong rfl, hnext⟩
            · rw [if_neg hrest] at h
              exact absurd h id
          · rename_i hnext
            by_cases hrest : rest = []
            · rw [if_pos hrest] at h ⊢
              obtain rfl : place.child name = target := h
              rw [hrest]
              exact ⟨.last hdots hlong rfl, hnext⟩
            · rw [if_neg hrest] at h
              exact absurd h id

/-- **Where names lead to a file, the walk along them finds it.** -/
theorem Leads.walkFrom_eq {d : Disk} {target place : Place} {names : List Text}
    (h : d.Leads target place names) {b : Bytes} {m : Nat}
    (hstands : d.node? target = some (.file b m)) :
    d.walkFrom place names = .found target (.file b m) := by
  induction h with
  | here => rw [walkFrom, hstands]
  | up _ ih => rw [walkFrom, if_pos rfl, ih]
  | last plain short target_eq =>
      rw [walkFrom, if_neg plain, if_neg short, target_eq]
      dsimp only
      rw [hstands]
      exact if_pos rfl
  | down plain short directory _ ih =>
      rw [walkFrom, if_neg plain, if_neg short]
      dsimp only
      rw [directory]
      exact ih

/-- Every directory of a disk is one of another disk, and paths start at the same place. -/
structure Keeps (d d' : Disk) : Prop where
  /-- Both have the same working directory. -/
  here : d'.here = d.here
  /-- Directories are still there. -/
  directories : ∀ p m, d.node? p = some (.directory m) → d'.node? p = some (.directory m)

/-- Names lead to the same place as long as no directory is gone. -/
theorem Keeps.leads {d d' : Disk} (hkeeps : Keeps d d') {target place : Place}
    {names : List Text} (h : d.Leads target place names) : d'.Leads target place names := by
  induction h with
  | here => exact .here
  | up _ ih => exact .up ih
  | last plain short target_eq => exact .last plain short target_eq
  | down plain short directory _ ih =>
      exact .down plain short (hkeeps.directories _ _ directory) ih

/-- A text that can denote a file. -/
structure Walkable (t : Text) : Prop where
  /-- It has a form in bytes. -/
  checked : FileName.check t = .ok ()
  /-- It is not too long. -/
  short : byteCount t < pathLimit
  /-- It is not empty. -/
  nonempty : t ≠ []
  /-- It may denote something other than a directory. -/
  free : wantsDirectory t = false

/-- **Where the walk along a text ends, if it ends where a file is or could be.** -/
theorem walk_eq_iff {d : Disk} {t : Text} {target : Place} {w : Walk} (hw : w.EndsAt target) :
    d.walk t = .ok w ↔ Walkable t ∧ d.walkFrom (d.origin t) (Location.namesOf t) = w := by
  -- Whatever else comes out of a walk is not `w`.
  have hother : ∀ {x : Walk}, ¬ x.EndsAt target → x ≠ w := fun hx hxw => hx (hxw ▸ hw)
  have hlost : Walk.lost ≠ w := hother id
  have htooLong : Walk.tooLong ≠ w := hother id
  rw [walk]
  cases hcheck : FileName.check t with
  | error e =>
      refine ⟨fun h => by simp [bind, Except.bind] at h, fun h => ?_⟩
      have hboth := hcheck.symm.trans h.1.checked
      simp at hboth
  | ok u =>
      simp only [bind, Except.bind, pure, Except.pure]
      by_cases hlong : pathLimit ≤ byteCount t
      · rw [if_pos hlong]
        exact ⟨fun h => absurd (Except.ok.inj h) htooLong, fun h => absurd h.1.short (by omega)⟩
      · rw [if_neg hlong]
        by_cases hempty : t = []
        · rw [if_pos (by simp [hempty])]
          exact ⟨fun h => absurd (Except.ok.inj h) hlost, fun h => absurd hempty h.1.nonempty⟩
        · rw [if_neg (by simp [hempty])]
          by_cases hwants : wantsDirectory t = true
          · refine ⟨fun h => ?_, fun h => absurd h.1.free (by simp [hwants])⟩
            simp only [hwants, if_true] at h
            split at h
            · exact absurd (Except.ok.inj h) hlost
            · exact absurd (Except.ok.inj h) hlost
            · rename_i hfile habsent
              refine absurd (Except.ok.inj h) (hother ?_)
              intro hends
              cases hfrom : d.walkFrom (d.origin t) (Location.namesOf t) with
              | found p n =>
                  cases n with
                  | file b m => exact hfile p b m hfrom
                  | directory m =>
                      rw [hfrom] at hends
                      exact hends
              | absent p => exact habsent p hfrom
              | lost =>
                  rw [hfrom] at hends
                  exact hends
              | tooLong =>
                  rw [hfrom] at hends
                  exact hends
          · have hwalkable : Walkable t := ⟨hcheck, by omega, hempty, by simpa using hwants⟩
            refine Iff.trans ?_ (and_iff_right hwalkable).symm
            split
            · rename_i hfrom
              simp [hwants, hfrom]
            · rename_i hfrom
              simp [hwants, hfrom]
            · simp

/-- A text leads to a place, on a disk. -/
structure LeadsTo (d : Disk) (t : Text) (target : Place) : Prop where
  /-- It can denote a file. -/
  walkable : Walkable t
  /-- Its names lead there. -/
  leads : d.Leads target (d.origin t) (Location.namesOf t)

/-- Where the walk along a text ends, the text leads. -/
theorem leadsTo_of_walk {d : Disk} {t : Text} {w : Walk} {target : Place}
    (hwalk : d.walk t = .ok w) (hends : w.EndsAt target) :
    d.LeadsTo t target ∧ d.node? target = w.node? := by
  obtain ⟨hwalkable, hfrom⟩ := (walk_eq_iff hends).mp hwalk
  obtain ⟨hleads, hnode⟩ := leads_of_walkFrom (Location.namesOf t) (d.origin t)
    (by rw [hfrom]; exact hends)
  rw [hfrom] at hnode
  exact ⟨⟨hwalkable, hleads⟩, hnode⟩

theorem Keeps.leadsTo {d d' : Disk} (hkeeps : Keeps d d') {t : Text} {target : Place}
    (h : d.LeadsTo t target) : d'.LeadsTo t target := by
  have horigin : d'.origin t = d.origin t := by rw [origin, origin, hkeeps.here]
  refine ⟨h.walkable, ?_⟩
  rw [horigin]
  exact hkeeps.leads h.leads

/-- The walk that finds the file at the end of a path. -/
theorem contents?_eq_some_iff_walk {d : Disk} {l : Location} {b : Bytes} :
    d.contents? l = .ok (some b) ↔
      ∃ target m, d.walk l.text = .ok (.found target (.file b m)) := by
  rw [contents?, look]
  cases d.walk l.text with
  | error e => simp [bind, Except.bind, pure, Except.pure]
  | ok w =>
      cases w with
      | found place n => cases n <;> simp [bind, Except.bind, pure, Except.pure]
      | absent place => simp [bind, Except.bind, pure, Except.pure]
      | lost => simp [bind, Except.bind, pure, Except.pure]
      | tooLong => simp [bind, Except.bind]

/-- **What the file at the end of a path holds.** -/
theorem contents?_eq_some_iff {d : Disk} {l : Location} {b : Bytes} :
    d.contents? l = .ok (some b) ↔
      ∃ target m, d.LeadsTo l.text target ∧ d.node? target = some (.file b m) := by
  rw [contents?_eq_some_iff_walk]
  refine exists_congr fun target => exists_congr fun m => ?_
  have hends : (Walk.found target (.file b m)).EndsAt target := rfl
  refine ⟨fun h => leadsTo_of_walk h hends, fun h => ?_⟩
  exact (walk_eq_iff hends).mpr ⟨h.1.walkable, h.1.leads.walkFrom_eq h.2⟩

/-- Something is at the end of a path that leads to a file. -/
theorem pathExists_of_contents? {d : Disk} {l : Location} {b : Bytes}
    (h : d.contents? l = .ok (some b)) : d.pathExists l = .ok true := by
  obtain ⟨target, m, hwalk⟩ := contents?_eq_some_iff_walk.mp h
  rw [pathExists, look, hwalk]
  rfl

end Disk
end GestureStore
