/-
What adding a trace to a store has done when it says that it is done.

The command says how many gestures the trace has and which label it was given, not what
it stored; that the two agree has to be shown.  Every gesture that a library does not
refuse stands behind the others of its label (`Entries.Appended`), a library that has
changed is saved before anything is said, and what was saved is what the library finds
when it is opened again.

Where the label is blank they do not agree.  A library ignores what is added under a
blank name, so nothing is stored; the command still says that all of it was.
-/
import GestureStore.Proofs.Command.Ending
import GestureStore.Proofs.Library.Loading
import GestureStore.Proofs.Storage.Replace

namespace GestureStore

/-! ### Entries with more behind a name -/

/-- Gestures put under a name, behind those that are there; all else stays as it is. -/
inductive Entries.Appended (name : Text) (gs : List Gesture) : Entries → Entries → Prop where
  /-- There are none. -/
  | none {es : Entries} (hnone : gs = []) : Appended name gs es es
  /-- The name has some already. -/
  | behind {before after : Entries} {hs : List Gesture} :
      Appended name gs (before ++ (name, hs) :: after) (before ++ (name, hs ++ gs) :: after)
  /-- The name is new. -/
  | last {es : Entries} (hnew : name ∉ es.map Prod.fst) (hsome : gs ≠ []) :
      Appended name gs es (es ++ [(name, gs)])

/-- Gestures that are added to a name one after the other are put behind the others. -/
theorem Entries.appended_foldl_add (name : Text) (gs : List Gesture) (es : Entries) :
    Appended name gs es ((gs.map fun g => (name, g)).foldl (fun es p => add p.1 p.2 es) es) := by
  by_cases hname : name ∈ es.map Prod.fst
  · obtain ⟨done, hs, rest, rfl, hdone⟩ := exists_split hname
    rw [foldl_add_same hdone]
    exact .behind
  · cases gs with
    | nil => exact .none rfl
    | cons g more =>
        rw [List.map_cons, List.foldl_cons, add_of_notMem g hname, foldl_add_same hname]
        exact .last hname (List.cons_ne_nil g more)

/-- What has more behind a name has the name. -/
theorem Entries.Appended.mem_names {name : Text} {gs : List Gesture} {es es' : Entries}
    (h : Appended name gs es es') (hsome : gs ≠ []) : name ∈ es'.map Prod.fst := by
  cases h with
  | none hnone => exact absurd hnone hsome
  | behind => simp
  | last => simp

/-! ### Libraries and their files -/

namespace Library

variable [Scalar α] [Stored β α]

/-- What a library finds in its file; where there is none, nothing. -/
def Finds (l : Library β) (d : Disk) (es : Entries) : Prop :=
  (d.pathExists l.location = .ok false ∧ es = []) ∨
    (d.pathExists l.location = .ok true ∧
      ∃ notices loaded, l.load d = (.ok true, notices, loaded) ∧ loaded.entries = es)

/-- What saving a library has made of the disk: it is in its file, or there was nothing to save. -/
def Saved (l : Library β) (d d' : Disk) : Prop :=
  (l.dirty = false ∧ d' = d) ∨
    (l.dirty = true ∧ (StoreFile.write l.entries).fault = none ∧
      d'.contents? l.location = .ok (some (StoreFile.write l.entries).bytes))

omit [Scalar α] [Stored β α] in
theorem Saved.eq_of_clean {l : Library β} {d d' : Disk} (h : l.Saved d d')
    (hclean : l.dirty = false) : d' = d := by
  rcases h with ⟨-, hsame⟩ | ⟨hdirty, -⟩
  · exact hsame
  · rw [hclean] at hdirty
    cases hdirty

/-- A library that another one has become by taking things in under its policy. -/
structure Continues (l l' : Library β) : Prop where
  /-- The file is the same. -/
  location : l'.location = l.location
  /-- So is the policy. -/
  policy : l'.policy = l.policy
  /-- What is stored has been extracted under it. -/
  inStep : InStep (fun _ => l.policy) l'.entries l'.learner

theorem continues_new (location : Location) (policy : Policy)
    (profiler : Option (Profiler Float)) :
    Continues (new location policy profiler : Library β) (new location policy profiler) :=
  ⟨rfl, rfl, inStep_empty _⟩

theorem continues_load {l l' : Library β} {d : Disk} {notices : List Notice}
    (h : l.load d = (.ok true, notices, l')) : Continues l l' ∧ l'.dirty = false := by
  obtain ⟨houtcome, hlibrary⟩ := Workspace.perform_load (w := ⟨l, d⟩) h
  have hdoes := Workspace.perform_does (⟨l, d⟩ : Workspace β) .load
  rw [houtcome, hlibrary] at hdoes
  generalize hst : l'.state = st at hdoes
  cases hdoes with
  | loaded found loads =>
      have hentries : l'.entries = _ := congrArg State.entries hst
      have hlearner : l'.learner = _ := congrArg State.learner hst
      refine ⟨⟨congrArg State.location hst, congrArg State.policy hst, ?_⟩,
        congrArg State.dirty hst⟩
      rw [hentries, hlearner]
      exact loads.inStep

/-- A library loads what was written for one that it has become. -/
theorem Continues.load {l l' : Library β} (h : Continues l l') {d : Disk}
    (hwritten : (StoreFile.write l'.entries).fault = none)
    (hfile : d.contents? l.location = .ok (some (StoreFile.write l'.entries).bytes)) :
    ∃ notices loaded, l.load d = (.ok true, notices, loaded) ∧ loaded.entries = l'.entries := by
  have hlayout := StoreFile.layout_of_fault hwritten
  have hfile' : d.contents? l.location = .ok (some ((StoreFile.write l'.entries).bytes ++ [])) := by
    rw [List.append_nil]
    exact hfile
  obtain ⟨notices, loaded, hload, hentries, -⟩ := load_layout hlayout h.inStep.admitted hfile'
  rw [Entries.merged_of_tidy h.inStep.tidy] at hentries
  exact ⟨notices, loaded, hload, hentries⟩

/-- A library finds what was written for one that it has become. -/
theorem Continues.finds {l l' : Library β} (h : Continues l l') {d : Disk}
    (hwritten : (StoreFile.write l'.entries).fault = none)
    (hfile : d.contents? l.location = .ok (some (StoreFile.write l'.entries).bytes)) :
    l.Finds d l'.entries :=
  Or.inr ⟨Disk.pathExists_of_contents? hfile, h.load hwritten hfile⟩

/-- A library finds what one was saved with that it has become, from one that was clean. -/
theorem Continues.finds_saved {l l' l'' : Library β} {d d' : Disk} (h : Continues l l'')
    (hfinds : l.Finds d l'.entries) (hclean : l'.dirty = false)
    (hchanged : l'' = l' ∨ l''.dirty = true) (hsaved : l''.Saved d d') :
    l.Finds d' l''.entries := by
  rcases hchanged with rfl | hchanged
  · rw [hsaved.eq_of_clean hclean]
    exact hfinds
  · rcases hsaved with ⟨hclean', -⟩ | ⟨-, hwritten, hfile⟩
    · rw [hchanged] at hclean'
      cases hclean'
    · rw [h.location] at hfile
      exact h.finds hwritten hfile

/-- Adding a gesture under a name that is not blank. -/
theorem Continues.add {l l' l'' : Library β} (h : Continues l l') {t : Text}
    (named : t.isBlank = false) {g : Gesture} (hadd : l'.add (.text t) g = (.ok (), l'')) :
    Continues l l'' ∧ l''.entries = l'.entries.add t g ∧ l''.dirty = true := by
  have hdoes := Workspace.perform_does (⟨l', .blank⟩ : Workspace β) (.add (.text t) g)
  have hperform : Workspace.perform (⟨l', .blank⟩ : Workspace β) (.add (.text t) g)
      = (⟨.ok .done, []⟩, ⟨l'', .blank⟩) := by
    rw [Workspace.perform, hadd]
    rfl
  rw [hperform] at hdoes
  dsimp only at hdoes
  generalize hst : l''.state = st at hdoes
  cases hdoes with
  | ignored blank =>
      rw [blank t rfl] at named
      cases named
  | added _ writable new ext =>
      have hentries : l''.entries = _ := congrArg State.entries hst
      have hlearner : l''.learner = _ := congrArg State.learner hst
      refine ⟨⟨(congrArg State.location hst).trans h.location,
        (congrArg State.policy hst).trans h.policy, ?_⟩, hentries, congrArg State.dirty hst⟩
      have hattached := h.inStep.attach new writable ext
      rw [show Library.policy _ = l.policy from h.policy,
        Function.update_eq_self_iff.mpr rfl] at hattached
      rw [hentries, hlearner]
      exact hattached

end Library

namespace Command

open Job Library

/-! ### Opening -/

theorem library_eq_new {source : Source} {l : Opened} {c c' : Console}
    (h : (library source).Ends c l c') :
    c' = c ∧ ∃ t policy profiler,
      l = Library.new ((Location.ofText t).expanded c.disk.home) policy profiler := by
  unfold library at h
  rw [ends_disk_bind] at h
  split at h
  · exact absurd h not_ends_refuse
  · dsimp only at h
    split at h
    · obtain ⟨rfl, rfl⟩ := ends_pure_iff.mp h
      exact ⟨rfl, _, _, _, rfl⟩
    · exact absurd h not_ends_refuse
  · obtain ⟨bytes, -, hbytes⟩ := ends_orEnd_bind.mp h
    obtain ⟨settings, -, hsettings⟩ := ends_orEnd_bind.mp hbytes
    obtain ⟨rfl, rfl⟩ := ends_pure_iff.mp hsettings
    exact ⟨rfl, _, _, _, rfl⟩

/-- **A library that was opened holds what its file does, and nothing that is not saved.** -/
theorem openLibrary_finds {source : Source} {l' : Opened} {c c' : Console}
    (h : (openLibrary source).Ends c l' c') :
    Told c c' ∧ ∃ l : Opened, (library source).Ends c l c ∧ l.Finds c.disk l'.entries ∧
      l.Continues l' ∧ l'.dirty = false := by
  unfold openLibrary at h
  obtain ⟨l, c₁, hlibrary, hopen⟩ := ends_bind_iff.mp h
  obtain ⟨rfl, t, policy, profiler, rfl⟩ := library_eq_new hlibrary
  rw [ends_disk_bind] at hopen
  obtain ⟨there, hthere, hread⟩ := ends_orEnd_bind.mp hopen
  cases there with
  | false =>
      obtain ⟨rfl, rfl⟩ := ends_pure_iff.mp hread
      exact ⟨⟨rfl, rfl, rfl⟩, _, hlibrary, Or.inl ⟨hthere, rfl⟩, continues_new _ _ _, rfl⟩
  | true =>
      rw [if_pos rfl] at hread
      cases hload : (Library.new ((Location.ofText t).expanded c₁.disk.home) policy profiler
          : Opened).load c₁.disk with
      | mk outcome later =>
          obtain ⟨notices, loaded⟩ := later
          rw [hload] at hread
          obtain ⟨_, c₂, hwarn, hanswer⟩ := ends_bind_iff.mp hread
          obtain ⟨answer, rfl, hend⟩ := ends_orEnd_bind.mp hanswer
          cases answer with
          | false => exact absurd hend not_ends_refuse
          | true =>
              obtain ⟨rfl, rfl⟩ := ends_pure_iff.mp hend
              obtain ⟨hcontinues, hclean⟩ := continues_load hload
              exact ⟨hwarn.warn_told, _, hlibrary, Or.inr ⟨hthere, _, _, hload, rfl⟩, hcontinues,
                hclean⟩

/-! ### Reading, adding and saving -/

/-- The gestures of a trace that was read are those in its file. -/
theorem readTrace_reads {trace : Text} {gs : List Gesture} {c c' : Console}
    (h : (readTrace trace).Ends c gs c') :
    (∃ bytes, c.disk.read (Location.ofText trace).text = .ok bytes ∧
        (gesturesOf bytes c.supply).1 = .ok gs) ∧
      c'.disk = c.disk ∧ c'.out = c.out := by
  unfold readTrace at h
  dsimp only at h
  rw [ends_disk_bind] at h
  obtain ⟨there, -, hthere⟩ := ends_orEnd_bind.mp h
  cases there with
  | false => exact absurd hthere not_ends_refuse
  | true =>
      rw [if_neg (by simp)] at hthere
      obtain ⟨bytes, hbytes, hread⟩ := ends_orEnd_bind.mp hthere
      rw [ends_get_bind] at hread
      cases hgestures : gesturesOf bytes c.supply with
      | mk outcome supply =>
          rw [hgestures] at hread
          dsimp only at hread
          rw [ends_set_bind] at hread
          cases outcome with
          | ok gs' =>
              obtain ⟨rfl, rfl⟩ := ends_pure_iff.mp hread
              exact ⟨⟨bytes, hbytes, congrArg Prod.fst hgestures⟩, rfl, rfl⟩
          | error e =>
              dsimp only at hread
              split at hread
              · exact absurd hread not_ends_refuse
              · exact absurd hread not_ends_throw

/-- Under a blank label nothing is added. -/
theorem addAll_of_blank {label : Text} (hblank : label.isBlank = true) (gs : List Gesture)
    (l : Opened) : addAll label gs l = .ok l := by
  induction gs with
  | nil => rfl
  | cons g rest ih =>
      rw [addAll, Library.add, if_pos hblank]
      exact ih

/-- **Gestures that are all added stand behind the others of their label.** -/
theorem addAll_eq_ok {l : Opened} {label : Text} (named : label.isBlank = false)
    {gs : List Gesture} {l' l'' : Opened} (h : l.Continues l') (hadd : addAll label gs l' = .ok l'') :
    l.Continues l'' ∧ (l'' = l' ∨ l''.dirty = true) ∧
      l''.entries
        = (gs.map fun g => (label, g)).foldl (fun es p => Entries.add p.1 p.2 es) l'.entries := by
  induction gs generalizing l' with
  | nil =>
      obtain rfl := Except.ok.inj hadd
      exact ⟨h, Or.inl rfl, rfl⟩
  | cons g rest ih =>
      unfold addAll at hadd
      split at hadd
      · rename_i l₁ hfirst
        obtain ⟨hcontinues, hentries, hdirty⟩ := h.add named hfirst
        obtain ⟨hall, hchanged, hmore⟩ := ih hcontinues hadd
        refine ⟨hall, Or.inr ?_, ?_⟩
        · rcases hchanged with rfl | hchanged
          · exact hdirty
          · exact hchanged
        · rw [hmore, hentries, List.map_cons, List.foldl_cons]
      · cases hadd

theorem location_of_addAll {l l' l'' : Opened} (h : l.Continues l') {label : Text}
    {gs : List Gesture} (hadd : addAll label gs l' = .ok l'') : l''.location = l'.location := by
  by_cases hblank : label.isBlank = true
  · rw [addAll_of_blank hblank] at hadd
    rw [Except.ok.inj hadd]
  · rw [Bool.not_eq_true] at hblank
    obtain ⟨hcontinues, -, -⟩ := addAll_eq_ok hblank h hadd
    rw [hcontinues.location, h.location]

theorem saveLibrary_saves {l : Opened} {u : Unit} {c c' : Console}
    (h : (saveLibrary l).Ends c u c') : c'.out = c.out ∧ l.Saved c.disk c'.disk := by
  unfold saveLibrary at h
  rw [ends_get_bind] at h
  have hdoes := Workspace.perform_does (⟨l, c.disk⟩ : Workspace Single) .save
  cases hsave : l.save c.disk with
  | mk outcome later =>
      obtain ⟨notices, l', d⟩ := later
      have hperform : Workspace.perform (⟨l, c.disk⟩ : Workspace Single) .save
          = (⟨outcome.map .flag, notices⟩, ⟨l', d⟩) := by
        rw [Workspace.perform, hsave]
      rw [hperform] at hdoes
      rw [hsave] at h
      dsimp only at h
      rw [ends_set_bind] at h
      obtain ⟨_, c₁, hwarn, hanswer⟩ := ends_bind_iff.mp h
      have htold := hwarn.warn_told
      obtain ⟨answer, rfl, hend⟩ := ends_orEnd_bind.mp hanswer
      cases answer with
      | false => exact absurd hend not_ends_refuse
      | true =>
          obtain ⟨-, rfl⟩ := ends_pure_iff.mp hend
          rw [htold.disk, htold.out]
          refine ⟨rfl, ?_⟩
          dsimp only at hdoes
          generalize l'.state = st at hdoes
          cases hdoes with
          | clean hclean => exact Or.inl ⟨hclean, rfl⟩
          | saved hdirty replaced =>
              obtain ⟨hwritten, hfile⟩ := Disk.replace_eq_ok replaced
              exact Or.inr ⟨hdirty, hwritten, hfile⟩
          | notSaved _ _ failed => simp [Except.map] at failed

/-! ### The whole command -/

theorem earnest_library (source : Source) : Earnest (library source) := by
  unfold library
  refine earnest_disk.bind fun d => ?_
  split
  · exact earnest_refuse _
  · dsimp only
    split
    · exact earnest_pure _
    · exact earnest_refuse _
  · exact (earnest_orEnd _).bind fun _ => (earnest_orEnd _).bind fun _ => earnest_pure _

theorem earnest_openLibrary (source : Source) : Earnest (openLibrary source) := by
  unfold openLibrary
  refine (earnest_library source).bind fun l => earnest_disk.bind fun d =>
    (earnest_orEnd _).bind fun there => ?_
  split
  · refine (earnest_warn _).bind fun _ => (earnest_orEnd _).bind fun answer => ?_
    split
    · exact earnest_pure _
    · exact earnest_refuse _
  · exact earnest_pure _

theorem earnest_readTrace (trace : Text) : Earnest (readTrace trace) := by
  unfold readTrace
  refine earnest_disk.bind fun d => (earnest_orEnd _).bind fun there => ?_
  split
  · exact earnest_refuse _
  · refine (earnest_orEnd _).bind fun bytes => earnest_get.bind fun c =>
      (earnest_set _).bind fun _ => ?_
    split
    · exact earnest_pure _
    · split
      · exact earnest_refuse _
      · exact earnest_uncaught _

theorem earnest_saveLibrary (l : Opened) : Earnest (saveLibrary l) := by
  unfold saveLibrary
  refine earnest_get.bind fun c => (earnest_set _).bind fun _ => (earnest_warn _).bind fun _ =>
    (earnest_orEnd _).bind fun answer => ?_
  split
  · exact earnest_refuse _
  · exact earnest_pure _

theorem earnest_runAdd (label trace : Text) (source : Source) :
    Earnest (runAdd label trace source) := by
  unfold runAdd
  refine (earnest_openLibrary source).bind fun l => (earnest_readTrace trace).bind fun gs => ?_
  split
  · exact earnest_refuse _
  · exact (earnest_saveLibrary _).bind fun _ => earnest_say _

/-- An earnest command that exits with zero has come to its end. -/
theorem ends_of_execute {arguments : List Text} {command : Command} {disk : Disk} {supply : Supply}
    {c : Console} (hcommand : ofArguments arguments = some command) (hearnest : Earnest (run command))
    (h : execute arguments disk supply = (.exit 0, c)) :
    (run command).Ends ⟨disk, supply, [], []⟩ () c := by
  unfold execute at h
  rw [hcommand] at h
  dsimp only at h
  split at h
  · rename_i c' hrun
    cases h
    exact hrun
  · rename_i code c' hrun
    cases h
    exact absurd hrun (hearnest _ _)
  · cases h

/-- The line that tells that gestures were added. -/
def added (n : Nat) (label : Text) : Text :=
  Text.of "✅ Added " ++ gestureCount n ++ Text.of " to '" ++ label ++ Text.of "'"

end Command

open Command Job in
/--
**What adding has done when it says that it is done.**

Let the command exit with zero.  Then it has told how many gestures the trace has, and
its label.  If the label is not blank, a library with the same file and policy finds in
the file what it found before, with the gestures of the trace behind the others of the
label.  If the label is blank, nothing on the disk has changed.
-/
theorem added_trace_is_found {arguments : List Text} {label trace : Text} {source : Source}
    {disk : Disk} {supply : Supply} {c : Console}
    (hcommand : ofArguments arguments = some (.add label trace source))
    (hexit : execute arguments disk supply = (.exit 0, c)) :
    ∃ (l : Opened) (old : Entries) (bytes : Bytes) (gs : List Gesture),
      (library source).Ends ⟨disk, supply, [], []⟩ l ⟨disk, supply, [], []⟩ ∧
      l.Finds disk old ∧
      disk.read (Location.ofText trace).text = .ok bytes ∧ (gesturesOf bytes supply).1 = .ok gs ∧
      c.out = spoken (added gs.length label) ∧
      (label.isBlank = false →
        ∃ new, l.Finds c.disk new ∧ Entries.Appended label gs old new) ∧
      (label.isBlank = true → c.disk = disk) := by
  have hends := ends_of_execute hcommand (earnest_runAdd label trace source) hexit
  obtain ⟨l', c₁, hopen, hends⟩ := ends_bind_iff.mp hends
  obtain ⟨htold, l, hlibrary, hfinds, hcontinues, hclean⟩ := openLibrary_finds hopen
  obtain ⟨gs, c₂, hread, hends⟩ := ends_bind_iff.mp hends
  obtain ⟨⟨bytes, hbytes, hgestures⟩, hdisk, hout⟩ := readTrace_reads hread
  rw [htold.disk] at hdisk hbytes
  rw [htold.supply] at hgestures
  rw [htold.out] at hout
  cases hadd : addAll label gs l' with
  | error e =>
      rw [hadd] at hends
      exact absurd hends not_ends_refuse
  | ok l'' =>
      rw [hadd] at hends
      obtain ⟨_, c₃, hsaved, hends⟩ := ends_bind_iff.mp hends
      obtain ⟨hout', hsaved⟩ := saveLibrary_saves hsaved
      obtain rfl := hends.say_eq
      rw [hdisk] at hsaved
      refine ⟨l, l'.entries, bytes, gs, hlibrary, hfinds, hbytes, hgestures, ?_, fun named => ?_,
        fun hblank => ?_⟩
      · show c₃.out ++ _ = _
        rw [hout', hout]
        rfl
      · obtain ⟨hcontinues', hchanged, hentries⟩ := addAll_eq_ok named hcontinues hadd
        refine ⟨l''.entries, hcontinues'.finds_saved hfinds hclean hchanged hsaved, ?_⟩
        rw [hentries]
        exact Entries.appended_foldl_add label gs l'.entries
      · rw [addAll_of_blank hblank] at hadd
        obtain rfl := Except.ok.inj hadd
        exact hsaved.eq_of_clean hclean

open Command Job in
/-- A trace of one gesture, added to a store that was not there. -/
theorem added_dot_is_found :
    let bytes := (Text.of "\x7b\"strokes\":[[[0,0,0]]]\x7d").flatMap Utf8.encodeOne
    let disk := Disk.holding (Text.of "t") bytes
    let words := ["add", "a", "/t", "--store", "/s"].map Text.of
    ∃ (l : Opened) (new : Entries) (c : Console), execute words disk ⟨7⟩ = (.exit 0, c) ∧
      c.out = spoken (added 1 (Text.of "a")) ∧
      l.Finds c.disk new ∧ Entries.Appended (Text.of "a") [.dot 7] [] new := by
  intro bytes disk words
  have hexit : execute words disk ⟨7⟩ = (.exit 0, (execute words disk ⟨7⟩).2) :=
    Prod.ext (by decide +kernel) rfl
  have hcommand : ofArguments words = some (.add (Text.of "a") (Text.of "/t")
      ⟨some (Text.of "/s"), none, Text.of "sensitive", Text.of "sensitive"⟩) := by decide +kernel
  have hgestures : (gesturesOf bytes ⟨7⟩).1 = .ok [.dot 7] := by decide +kernel
  obtain ⟨l, old, bytes', gs, hlibrary, hfinds, hread, hgestures', hout, hstored, -⟩ :=
    added_trace_is_found hcommand hexit
  obtain rfl : bytes = bytes' := Except.ok.inj hread
  obtain rfl : [.dot 7] = gs := Except.ok.inj (hgestures.symm.trans hgestures')
  obtain ⟨new, hnew, happended⟩ := hstored (by decide)
  cases hlibrary
  obtain rfl : old = [] := by
    rcases hfinds with ⟨-, hold⟩ | ⟨hthere, -⟩
    · exact hold
    · cases hthere
  exact ⟨_, new, _, hexit, hout, hnew, happended⟩

open Command Job in
/-- Under a blank label nothing is stored, but it is told that something was. -/
theorem blank_label_stores_nothing :
    let bytes := (Text.of "\x7b\"strokes\":[[[0,0,0]]]\x7d").flatMap Utf8.encodeOne
    let disk := Disk.holding (Text.of "t") bytes
    let words := ["add", " ", "/t", "--store", "/s"].map Text.of
    let ended := execute words disk ⟨7⟩
    ended.1 = .exit 0 ∧ ended.2.out = spoken (added 1 (Text.of " ")) ∧
      (gesturesOf bytes ⟨7⟩).1 = .ok [.dot 7] ∧
      ∀ (l : Opened) (new : Entries), l.location = ⟨1, [Text.of "s"]⟩ → l.Finds disk [] ∧
        (l.Finds ended.2.disk new → ¬ Entries.Appended (Text.of " ") [.dot 7] [] new) := by
  intro bytes disk words ended
  refine ⟨by decide +kernel, by decide +kernel, by decide +kernel, fun l new hlocation => ?_⟩
  have hmissing : disk.pathExists l.location = .ok false := by
    rw [hlocation]
    decide +kernel
  have hsame : ended.2.disk.pathExists l.location = .ok false := by
    rw [hlocation]
    decide +kernel
  refine ⟨Or.inl ⟨hmissing, rfl⟩, fun hfinds happended => ?_⟩
  have hname := happended.mem_names (List.cons_ne_nil _ _)
  obtain ⟨-, rfl⟩ | ⟨hthere, -⟩ := hfinds
  · cases hname
  · rw [hsame] at hthere
    cases hthere

end GestureStore
