/-
Replacing a file leaves a new file or next to nothing.

Everything is written to a temporary file, and whatever goes wrong with that changes its
place and no other (`transfer_eq_error`).  Nothing was there before, so taking it away
leads back to the disk on which directories were created and nothing else.  Only where
removing is refused the temporary file stays; `Abandoned` says where that is.

A path does not lead to the temporary file that stands beside what it does lead to, for
the name of the temporary file is longer.
-/
import GestureStore.Proofs.Storage.Directories
import GestureStore.Proofs.Storage.Location

namespace GestureStore
namespace Disk

/-! ### The temporary file -/

/-- Nothing has a fresh name, and it is one of those for temporary files. -/
theorem freshName?_eq_some {d : Disk} {directory : Place} {name temporary : Text}
    (h : d.freshName? directory name = some temporary) :
    d.node? (directory.child temporary) = none ∧ ∃ n, temporary = temporaryName name n := by
  rw [freshName?] at h
  obtain ⟨n, -, hn⟩ := List.mem_map.mp (List.mem_of_find?_eq_some h)
  exact ⟨by simpa using List.find?_some h, n, hn.symm⟩

/-- A temporary file is created where nothing is. -/
theorem temporaryPlace_eq_ok {d : Disk} {directory place : Place} {name : Text}
    (h : d.temporaryPlace directory name = .ok place) :
    d.node? place = none ∧ ∃ n, place = directory.child (temporaryName name n) := by
  rw [temporaryPlace] at h
  cases hcheck : FileName.check name with
  | error e => simp [hcheck, bind, Except.bind] at h
  | ok u =>
      simp only [hcheck, bind, Except.bind, pure, Except.pure] at h
      split at h
      · simp at h
      · rename_i temporary hfresh
        split at h
        · simp at h
        · obtain rfl := Except.ok.inj h
          obtain ⟨hfree, n, hn⟩ := freshName?_eq_some hfresh
          exact ⟨hfree, n, by rw [hn]⟩

/-- Writing a file changes its place, however far it gets. -/
theorem fill_snd (d : Disk) (place : Place) (b : Bytes) (m : Nat) :
    ∃ b', (d.fill place b m).2 = d.put place (.file b' m) := by
  rw [fill]
  split
  · exact ⟨b, rfl⟩
  · exact ⟨_, rfl⟩

theorem fill_eq_ok {d d' : Disk} {place : Place} {b : Bytes} {m : Nat}
    (h : d.fill place b m = (.ok (), d')) : d' = d.put place (.file b m) := by
  rw [fill] at h
  split at h
  · exact (Prod.mk.inj h).2.symm
  · rename_i room _
    obtain ⟨hfits, rfl⟩ := Prod.mk.inj h
    by_cases hroom : b.length ≤ room
    · rw [List.take_of_length_le hroom]
    · rw [if_neg hroom] at hfits
      simp at hfits

/-- The root is a directory. -/
theorem ne_root {d : Disk} {place : Place} (h : ∀ k, d.node? place ≠ some (.directory k)) :
    place ≠ Place.root := by
  intro hroot
  refine h 0o755 ?_
  rw [hroot, node?_root]
  rfl

theorem ne_root_of_free {d : Disk} {place : Place} (h : d.node? place = none) :
    place ≠ Place.root :=
  ne_root fun k hk => by rw [h] at hk; simp at hk

/-- **A file that is put where a path ended is what the path leads to then**, unless a directory
has gone since. -/
theorem Keeps.contents?_put {d d' : Disk} (hkeeps : Keeps d d') {l : Location} {w : Walk}
    {target : Place} {b : Bytes} {m : Nat} (hwalk : d.walk l.text = .ok w)
    (hends : w.EndsAt target) : (d'.put target (.file b m)).contents? l = .ok (some b) := by
  obtain ⟨hleads, hnode⟩ := leadsTo_of_walk hwalk hends
  have hfile : ∀ k, d.node? target ≠ some (.directory k) := by
    rw [hnode]
    exact hends.node?_ne
  have hput : Keeps d (d'.put target (.file b m)) := by
    refine ⟨hkeeps.here, fun p k hp => ?_⟩
    have hne : p ≠ target := fun hpt => hfile k (by rw [← hpt]; exact hp)
    rw [node?_put_of_ne hne]
    exact hkeeps.directories p k hp
  rw [contents?_eq_some_iff]
  exact ⟨target, m, hput.leadsTo hleads, node?_put_self (ne_root hfile)⟩

/-- Moving a temporary file to where a path ends makes it what the path leads to. -/
theorem contents?_of_rename {d done : Disk} {place : Place} {b : Bytes} {m : Nat} {l : Location}
    (hfree : d.node? place = none)
    (h : (d.put place (.file b m)).rename place (.file b m) l = .ok done) :
    done.contents? l = .ok (some b) := by
  have hroot : place ≠ Place.root := ne_root_of_free hfree
  -- The temporary file is no directory, so none goes with it.
  have hkeeps : Keeps (d.put place (.file b m)) d := by
    refine ⟨rfl, fun p k hp => ?_⟩
    have hne : p ≠ place := by
      intro hpp
      rw [hpp, node?_put_self hroot] at hp
      simp at hp
    rw [node?_put_of_ne hne] at hp
    exact hp
  rw [rename] at h
  split at h
  · simp at h
  rw [erase_put _ hfree] at h
  cases hwalk : (d.put place (.file b m)).walk l.text with
  | error e => simp [hwalk, bind, Except.bind] at h
  | ok w =>
      rw [hwalk] at h
      cases w with
      | found target n =>
          cases n with
          | directory k => simp [bind, Except.bind] at h
          | file b' m' =>
              obtain rfl := Except.ok.inj h
              exact hkeeps.contents?_put hwalk rfl
      | absent target =>
          obtain rfl := Except.ok.inj h
          exact hkeeps.contents?_put hwalk rfl
      | lost => simp [bind, Except.bind] at h
      | tooLong => simp [bind, Except.bind] at h

/-- A transfer that fails has changed nothing but the temporary file. -/
theorem transfer_eq_error {d d' : Disk} {place : Place} {l : Location} {b : Bytes}
    {refused : Option Fault} {e : Fault} (h : d.transfer place l b refused = (.error e, d')) :
    ∃ b' m, d' = d.put place (.file b' m) := by
  unfold transfer at h
  dsimp only at h
  split at h
  · exact ⟨_, _, (Prod.mk.inj h).2.symm⟩
  · rename_i mode _
    split at h
    · exact ⟨_, _, (Prod.mk.inj h).2.symm⟩
    · -- From here on the file stands there as far as it could be written.
      split at h
      · rename_i hfill
        obtain ⟨b', hwritten⟩ := fill_snd (d.put place (.file [] temporaryMode)) place b mode
        rw [hfill, put_put] at hwritten
        exact ⟨b', mode, (Prod.mk.inj h).2.symm.trans hwritten⟩
      · rename_i hfill
        have hwritten := fill_eq_ok hfill
        rw [put_put] at hwritten
        refine ⟨b, mode, ?_⟩
        rw [← hwritten]
        split at h
        · exact (Prod.mk.inj h).2.symm
        · split at h
          · exact (Prod.mk.inj h).2.symm
          · split at h
            · exact (Prod.mk.inj h).2.symm
            · simp at h

/-- A transfer that succeeds leaves the path leading to all of the bytes. -/
theorem transfer_eq_ok {d d' : Disk} {place : Place} {l : Location} {b : Bytes}
    {refused : Option Fault} (hfree : d.node? place = none)
    (h : d.transfer place l b refused = (.ok (), d')) :
    refused = none ∧ d'.contents? l = .ok (some b) := by
  unfold transfer at h
  dsimp only at h
  split at h
  · simp at h
  · split at h
    · simp at h
    · split at h
      · simp at h
      · rename_i written hfill
        have hwritten := fill_eq_ok hfill
        rw [put_put] at hwritten
        split at h
        · simp at h
        · split at h
          · simp at h
          · split at h
            · simp at h
            · rename_i done hrename
              obtain ⟨-, rfl⟩ := Prod.mk.inj h
              rw [hwritten] at hrename
              exact ⟨rfl, contents?_of_rename hfree hrename⟩

/-! ### What an attempt leaves -/

/-- A place that temporary files for a file have. -/
def Beside (d : Disk) (l : Location) (place : Place) : Prop :=
  ∃ n, place = ((d.origin l.parent.text).along l.parent.names).child (temporaryName l.name n)

/-- What is left of an attempt to replace a file: directories on the way to it, and the temporary
file where it cannot be removed. -/
inductive Abandoned (d : Disk) (l : Location) : Option Place → Disk → Prop where
  /-- Directories only. -/
  | clean {d' : Disk} (prepared : Prepared d l.parent d') : Abandoned d l none d'
  /-- A temporary file, too. -/
  | littered {p : Disk} {place : Place} {b : Bytes} {m : Nat} (prepared : Prepared d l.parent p)
      (beside : d.Beside l place) (free : p.node? place = none)
      (refused : (d.refusals place.parent).remove = true) :
      Abandoned d l (some place) (p.put place (.file b m))

/-- **Replacing a file that succeeds leaves the path to it leading to all of its bytes.** -/
theorem replace_eq_ok {d d' : Disk} {l : Location} {b : Bytes} {refused : Option Fault}
    {left : Option Place} (h : d.replace l b refused = (.ok (), left, d')) :
    refused = none ∧ d'.contents? l = .ok (some b) := by
  unfold replace at h
  split at h
  · simp at h
  · split at h
    · simp at h
    · rename_i place htemporary
      split at h
      · simp at h
      · rename_i done htransfer
        obtain ⟨-, -, rfl⟩ := Prod.mk.injEq .. ▸ h
        exact transfer_eq_ok (temporaryPlace_eq_ok htemporary).1 htransfer

/-- **Replacing a file that fails leaves directories on the way to it, and hardly ever more.** -/
theorem replace_eq_error {d d' : Disk} {l : Location} {b : Bytes} {refused : Option Fault}
    {left : Option Place} {e : Fault} (h : d.replace l b refused = (.error e, left, d')) :
    d.Abandoned l left d' := by
  have hprepared := prepared_makeDirectories d l.parent
  unfold replace at h
  split at h
  · rename_i hmake
    rw [hmake] at hprepared
    cases h
    exact .clean hprepared
  · rename_i directory made hmake
    rw [hmake] at hprepared
    split at h
    · cases h
      exact .clean hprepared
    · rename_i place htemporary
      obtain ⟨hfree, n, hplace⟩ := temporaryPlace_eq_ok htemporary
      split at h
      · rename_i htransfer
        obtain ⟨b', m, rfl⟩ := transfer_eq_error htransfer
        rw [discard] at h
        by_cases hrefused : (d.refusals place.parent).remove = true
        · have hmade : ((made.put place (.file b' m)).refusals place.parent).remove = true := by
            rw [← hrefused, ← hprepared.refusals]
            rfl
          rw [if_pos hmade] at h
          cases h
          have hdirectory := makeDirectories_eq_ok (congrArg Prod.fst hmake)
          exact .littered hprepared ⟨n, by rw [hplace, hdirectory]⟩ hfree hrefused
        · have hmade : ¬ ((made.put place (.file b' m)).refusals place.parent).remove = true := by
            intro hmade
            rw [← hprepared.refusals] at hrefused
            exact hrefused hmade
          rw [if_neg hmade, erase_put _ hfree] at h
          cases h
          exact .clean hprepared
      · simp at h

namespace Abandoned

variable {d d' : Disk} {l : Location} {left : Option Place}

/-- A temporary file that is left stands where nothing was, and may not be removed. -/
theorem of_mem (h : d.Abandoned l left d') {place : Place} (hplace : place ∈ left) :
    (d.refusals place.parent).remove = true ∧ d.Beside l place ∧ d.node? place = none ∧
      ∃ b m, d'.node? place = some (.file b m) := by
  cases h with
  | clean => simp at hplace
  | @littered p target b m prepared beside free refused =>
      obtain rfl := Option.mem_some.mp hplace
      have hnone : d.node? target = none := by
        cases hnode : d.node? target with
        | none => rfl
        | some n =>
            rw [prepared.node?_of hnode] at free
            simp at free
      exact ⟨refused, beside, hnone, b, m, node?_put_self (ne_root_of_free free)⟩

/-- But for the temporary file, the disk is one on which directories were created. -/
theorem exists_prepared (h : d.Abandoned l left d') :
    ∃ p, Prepared d l.parent p ∧ Keeps p d' ∧ Keeps d' p ∧
      (∀ place n, p.node? place = some n → place ∉ left) ∧
      ∀ place ∉ left, d'.node? place = p.node? place := by
  cases h with
  | clean prepared =>
      exact ⟨d', prepared, ⟨rfl, fun _ _ hn => hn⟩, ⟨rfl, fun _ _ hn => hn⟩, by simp,
        fun _ _ => rfl⟩
  | @littered p target b m prepared beside free refused =>
      have hother : ∀ place, place ∉ some target →
          (p.put target (.file b m)).node? place = p.node? place := fun place hplace =>
        node?_put_of_ne fun hsame => hplace (by simp [hsame])
      have hfree : ∀ place n, p.node? place = some n → place ∉ some target := by
        intro place n hn hplace
        rw [← Option.mem_some.mp hplace, free] at hn
        simp at hn
      refine ⟨p, prepared, ⟨rfl, fun place k hk => ?_⟩, ⟨rfl, fun place k hk => ?_⟩, hfree, hother⟩
      · rw [hother place (hfree place _ hk)]
        exact hk
      · have hplace : place ∉ some target := by
          intro hplace
          rw [← Option.mem_some.mp hplace, node?_put_self (ne_root_of_free free)] at hk
          simp at hk
        rw [← hother place hplace]
        exact hk

/-- What was there still is. -/
theorem node?_of (h : d.Abandoned l left d') {place : Place} {n : Node}
    (hn : d.node? place = some n) : d'.node? place = some n := by
  obtain ⟨p, hprepared, -, -, hfree, hother⟩ := h.exists_prepared
  have hp := hprepared.node?_of hn
  rw [hother place (hfree place n hp)]
  exact hp

/-- What else is new is a directory on the way. -/
theorem node?_new (h : d.Abandoned l left d') {place : Place} (hplace : place ∉ left) {n : Node}
    (hn : d'.node? place = some n) (hnone : d.node? place = none) :
    n = newDirectory ∧
      ∃ way, way <+: l.parent.names ∧ place = (d.origin l.parent.text).along way := by
  obtain ⟨p, hprepared, -, -, -, hother⟩ := h.exists_prepared
  rw [hother place hplace] at hn
  exact hprepared.node?_new hn hnone

/-- **Every other file is as before, and there is none that was not there.** -/
theorem node?_file_iff (h : d.Abandoned l left d') {place : Place} (hplace : place ∉ left)
    {b : Bytes} {m : Nat} :
    d'.node? place = some (.file b m) ↔ d.node? place = some (.file b m) := by
  obtain ⟨p, hprepared, -, -, -, hother⟩ := h.exists_prepared
  rw [hother place hplace]
  exact hprepared.node?_file_iff

/-- A file that a path leads to is still what it leads to. -/
theorem contents? (h : d.Abandoned l left d') {file : Location} {b : Bytes}
    (hb : d.contents? file = .ok (some b)) : d'.contents? file = .ok (some b) := by
  obtain ⟨p, hprepared, hkeeps, -⟩ := h.exists_prepared
  obtain ⟨target, m, hleads, hstands⟩ := contents?_eq_some_iff.mp hb
  exact contents?_eq_some_iff.mpr
    ⟨target, m, hkeeps.leadsTo (hprepared.keeps.leadsTo hleads), h.node?_of hstands⟩

/-- A path that does not go up finds the same file or none as before, unless it leads to the
temporary file. -/
theorem contents?_iff (h : d.Abandoned l left d') (hrooted : d.Rooted) {file : Location}
    (hdots : Location.dots ∉ Location.namesOf file.text)
    (helse : ∀ place ∈ left, ¬ d'.LeadsTo file.text place) {b : Bytes} :
    d'.contents? file = .ok (some b) ↔ d.contents? file = .ok (some b) := by
  refine ⟨fun hb => ?_, h.contents?⟩
  obtain ⟨p, hprepared, -, hkeeps, -, hother⟩ := h.exists_prepared
  obtain ⟨target, m, hleads, hstands⟩ := contents?_eq_some_iff.mp hb
  rw [hother target fun hmem => helse target hmem hleads] at hstands
  rw [← hprepared.contents?_iff hrooted hdots]
  exact contents?_eq_some_iff.mpr ⟨target, m, hkeeps.leadsTo hleads, hstands⟩

end Abandoned

/-! ### Beside the target -/

theorem encode_temporaryName_ne (name : Text) (n : Nat) :
    FileName.encode (temporaryName name n) ≠ FileName.encode name := by
  intro h
  have hlength := congrArg List.length h
  have hpoint : FileName.encode (Text.of ".") ≠ [] := by decide
  have hpositive := List.length_pos_iff.mpr hpoint
  simp only [temporaryName, FileName.encode, List.flatMap_append, List.length_append] at hlength
  simp only [FileName.encode] at hpositive
  omega

/-- **A path does not lead to the temporary file beside its target.** -/
theorem Beside.not_leadsTo {d d' : Disk} {l : Location} {place : Place} (h : d.Beside l place)
    (hsound : l.Sound) (hdots : Location.dots ∉ l.names) : ¬ d'.LeadsTo l.text place := by
  intro hleads
  have htarget := hleads.leads.target_eq
  rw [hsound.namesOf_text] at htarget
  obtain ⟨n, rfl⟩ := h
  by_cases hnames : l.names = []
  · have hfree := hleads.walkable.free
    rw [wantsDirectory] at hfree
    rcases Location.getLast?_splitOn_text hnames with hlast | hlast
    · simp [hlast] at hfree
    · simp [hlast] at hfree
  · have hlast : l.names = l.parent.names ++ [l.name] := by
      rw [Location.name, Location.parent, List.getLast?_eq_some_getLast hnames, Option.getD_some,
        List.dropLast_append_getLast]
    have hplain : l.name ≠ Location.dots := by
      intro hname
      rw [hlast, hname] at hdots
      simp at hdots
    rw [hlast, Place.along_concat hplain] at htarget
    have hbytes := congrArg (fun p => p.names.getLast?) htarget
    simp only [Place.child, List.getLast?_append, List.getLast?_singleton, Option.some_or,
      Option.some.injEq] at hbytes
    exact encode_temporaryName_ne l.name n hbytes

/-- **What was not replaced is found as before**, on a path that does not go up. -/
theorem Abandoned.target_iff {d d' : Disk} {l : Location} {left : Option Place}
    (h : d.Abandoned l left d') (hrooted : d.Rooted) (hsound : l.Sound)
    (hdots : Location.dots ∉ l.names) {b : Bytes} :
    d'.contents? l = .ok (some b) ↔ d.contents? l = .ok (some b) := by
  refine h.contents?_iff hrooted (by rw [hsound.namesOf_text]; exact hdots) ?_
  intro place hplace
  exact (h.of_mem hplace).2.1.not_leadsTo hsound hdots

end Disk
end GestureStore
