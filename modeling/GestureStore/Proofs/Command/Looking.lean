/-
Commands that only look at a store.

Listing and dumping open the store that is named as one without sequence, so there is
no gesture with strokes that they cannot take in.  A store that was written by any
library is shown by both; what they show is its entries and nothing else.
-/
import GestureStore.Command.Run
import GestureStore.Proofs.Command.Console
import GestureStore.Proofs.Json.Writer
import GestureStore.Proofs.Library.Loading
import GestureStore.Proofs.Storage.Disk

namespace GestureStore

/-! ### Command lines -/

namespace Grammar

theorem ne_stop {w : Text} (h : isOption w = false) : (w == stop) = false := by
  rw [beq_eq_false_iff_ne]
  intro hstop
  rw [hstop] at h
  simp [isOption, stop, Text.of, CodePoint.is, CodePoint.ofChar] at h

/-- A word that is no option is an argument. -/
theorem parse_argument {g : Grammar} {w : Text} (hmixed : g.mixed = true)
    (h : isOption w = false) (sofar : Words) (rest : List Text) :
    g.parse sofar (w :: rest) = g.parse { sofar with arguments := sofar.arguments ++ [w] } rest := by
  rw [parse, ne_stop h, h, hmixed]
  rfl

/-- Where options may not follow arguments, the first word that is none ends them. -/
theorem parse_command {g : Grammar} {w : Text} (hmixed : g.mixed = false)
    (h : isOption w = false) (sofar : Words) (rest : List Text) :
    g.parse sofar (w :: rest) = some { sofar with arguments := sofar.arguments ++ w :: rest } := by
  rw [parse, ne_stop h, h, hmixed]
  rfl

end Grammar

namespace Command

open Grammar Job

theorem withWords_argument {g : Grammar} {w : Text} (hmixed : g.mixed = true)
    (h : isOption w = false) (command : Words → Option Command) :
    withWords g [w] command = command ⟨[], [], [w]⟩ := by
  rw [withWords, parse_argument hmixed h]
  rfl

/-- A command line without options names a command and its arguments. -/
theorem ofArguments_eq_named {name : Text} (h : isOption name = false) (rest : List Text) :
    ofArguments (name :: rest) = named name rest := by
  rw [ofArguments, withWords, parse_command rfl h]
  rfl

theorem ofArguments_entries {store : Text} (h : isOption store = false) :
    ofArguments [Text.of "entries", store]
      = some (entries (lookingSource ⟨[], [], [store]⟩ (some store))) := by
  rw [ofArguments_eq_named (by decide), named, if_pos (by decide), withWords_argument rfl h]

theorem ofArguments_dump {store : Text} (h : isOption store = false) :
    ofArguments [Text.of "dump", store]
      = some (dump (lookingSource ⟨[], [], [store]⟩ (some store)) none) := by
  rw [ofArguments_eq_named (by decide), named, if_neg (by decide), if_neg (by decide),
    if_neg (by decide), if_neg (by decide), if_pos (by decide), withWords_argument rfl h]
  rfl

/-- A command that comes to its end exits with zero. -/
theorem execute_eq_exit {arguments : List Text} {command : Command} {disk : Disk}
    {supply : Supply} {c : Console} (hcommand : ofArguments arguments = some command)
    (h : (run command).Ends ⟨disk, supply, [], []⟩ () c) :
    execute arguments disk supply = (.exit 0, c) := by
  have hrun : (run command).run ⟨disk, supply, [], []⟩ = (.ok (), c) := h
  simp only [execute, hcommand, hrun]

/-! ### Opening -/

/-- The policy of a library that is only looked at. -/
def lookingPolicy : Policy := ⟨.invariant, some .sensitive⟩

theorem ends_library {w : Words} {store : Text} (hconfig : w.value? configOption = none)
    (hstore : store ≠ []) (c : Console) :
    (library (lookingSource w (some store))).Ends c
      (Library.new ((Location.ofText store).expanded c.disk.home) lookingPolicy none) c := by
  cases store with
  | nil => exact absurd rfl hstore
  | cons p rest =>
      refine (ends_disk c).bind ?_
      simp only [lookingSource, hconfig]
      rfl

/-- A store that is there and can be loaded is opened. -/
theorem ends_openLibrary {source : Source} {l : Opened} {c : Console} {bytes : Bytes}
    (hlibrary : (library source).Ends c l c)
    (hfound : c.disk.contents? l.location = .ok (some bytes))
    (hanswer : (l.loadBytes bytes).1 = true) (hnotices : (l.loadBytes bytes).2.1 = []) :
    (openLibrary source).Ends c (l.loadBytes bytes).2.2 c := by
  have hexists := Disk.pathExists_of_contents? hfound
  have hload : l.load c.disk = (.ok true, [], (l.loadBytes bytes).2.2) := by
    rw [Library.load_eq_loadBytes hfound, hnotices, hanswer]
  refine hlibrary.bind ((ends_disk c).bind ((ends_orEnd hexists c).bind ?_))
  rw [if_pos rfl, hload]
  exact (ends_pure () c).bind ((ends_orEnd rfl c).bind (ends_pure _ c))

/-! ### Showing -/

/-- The lines that tell what entries there are. -/
def listing (es : Entries) : List Text :=
  if es.isEmpty then [Text.of "📭 Library is empty"]
  else
    es.sorted.map fun e =>
      Text.of "   " ++ e.1.padRight nameWidth ++ Text.of " " ++ gestureCount e.2.length

/-- The text that tells everything about entries. -/
def dumped (es : Entries) : Text :=
  Json.renderWide (.object [(Text.of "entries",
    .object (es.sorted.map fun e => (e.1, .list (e.2.map Gesture.toValue))))])

theorem plain_listing {es : Entries} (h : ∀ e ∈ es, e.1.Plain) :
    ∀ line ∈ listing es, line.Plain := by
  rw [listing]
  split
  · simp
  · rw [List.forall_mem_map]
    intro e he
    have hname : e.1.Plain := h e (List.mem_mergeSort.mp he)
    simp [gestureCount, Text.plain_padRight hname]

theorem ends_runEntries {source : Source} {l : Opened} {c : Console}
    (hopen : (openLibrary source).Ends c l c) (h : ∀ e ∈ l.entries, e.1.Plain) :
    (runEntries source).Ends c () { c with out := c.out ++ (listing l.entries).flatMap spoken } := by
  have hplain := plain_listing h
  refine hopen.bind ?_
  rw [listing] at hplain ⊢
  split
  · rename_i hempty
    rw [if_pos hempty] at hplain
    rw [List.flatMap_singleton]
    exact ends_say (hplain _ (by simp)) c
  · rename_i hempty
    rw [if_neg hempty] at hplain
    rw [List.flatMap_map]
    exact ends_forM_say (List.forall_mem_map.mp hplain) c

theorem ends_runDump {source : Source} {l : Opened} {c : Console}
    (hopen : (openLibrary source).Ends c l c) :
    (runDump source none).Ends c () { c with out := c.out ++ spoken (dumped l.entries) } := by
  refine hopen.bind ?_
  exact ends_say (Json.plain_render _ _) c

/-- A store that was written is opened, and has the entries it was written for. -/
theorem ends_openLibrary_written {es : Entries} (htidy : es.Tidy)
    (hids : (es.gestures.map Gesture.id).Nodup) (hstrokes : ∀ g ∈ es.gestures, g.strokes ≠ [])
    (hwritten : (StoreFile.write es).fault = none) {w : Words} {store : Text} {c : Console}
    {rest : Bytes} (hconfig : w.value? configOption = none) (hstore : store ≠ [])
    (hfound : c.disk.contents? ((Location.ofText store).expanded c.disk.home)
      = .ok (some ((StoreFile.write es).bytes ++ rest))) :
    ∃ l : Opened, l.entries = es ∧ (openLibrary (lookingSource w (some store))).Ends c l c := by
  have hopened := ends_library hconfig hstore c
  obtain ⟨hanswer, hentries⟩ := Library.loadBytes_write
    (Library.new ((Location.ofText store).expanded c.disk.home) lookingPolicy none : Opened)
    htidy hids hstrokes hwritten rest
  have htrue := hanswer.mpr (Or.inl rfl)
  have hnotices := Library.loadBytes_notices (StoreFile.read_write hwritten rest) htrue
  exact ⟨_, hentries htrue, ends_openLibrary hopened hfound htrue hnotices⟩

end Command

/-! ### Stores that any library wrote -/

section
variable [Scalar α] [Stored β α] [Scalar γ] [Stored δ γ]

/-- A name that can be written can be shown. -/
theorem Writer.plain_of_utf {name : Text} {f : Bytes} (h : Writer.utf name = .ok f) :
    name.Plain := by
  rw [Writer.utf] at h
  cases hencode : Utf8.encode name with
  | error e => simp [hencode] at h
  | ok bytes => exact (Utf8.encode_eq_ok_iff.mp hencode).1

/--
**What any run of a library writes, every library reads, up to its policy.**

As long as identifiers and counts fit their fields, the entries can be written.  With
anything behind them, the bytes are loaded under a policy exactly if it asks for no
order of strokes, or no gesture has more than one; what is loaded are the entries that
were written.  Listing and dumping the store never fail, and show these entries.
-/
theorem written_store_is_read (location : Location) (policy : Policy)
    (profiler : Option (Profiler Float)) (disk : Disk) (events : List Event)
    (hfits : ((Workspace.start location policy profiler disk : Workspace β).play
      events).library.entries.Fits) :
    let saved := ((Workspace.start location policy profiler disk : Workspace β).play
      events).library.entries
    let bytes := (StoreFile.write saved).bytes
    (StoreFile.write saved).fault = none ∧
      (∀ (reader : Workspace δ) (rest : Bytes),
        reader.disk.contents? reader.library.location = .ok (some (bytes ++ rest)) →
        ∃ b, (reader.perform .load).1.outcome = .ok (.flag b) ∧
          (b = true ↔ reader.library.policy.sequence = .invariant ∨
            ∀ g ∈ saved.gestures, g.strokes.length = 1) ∧
          (b = true → (reader.perform .load).2.library.entries = saved)) ∧
      (∀ (store : Text) (d : Disk) (supply : Supply) (rest : Bytes),
        store ≠ [] → Grammar.isOption store = false →
        d.contents? ((Location.ofText store).expanded d.home) = .ok (some (bytes ++ rest)) →
        Command.execute [Text.of "entries", store] d supply
            = (.exit 0, ⟨d, supply, (Command.listing saved).flatMap Job.spoken, []⟩) ∧
          Command.execute [Text.of "dump", store] d supply
            = (.exit 0, ⟨d, supply, Job.spoken (Command.dumped saved), []⟩)) := by
  intro saved bytes
  have h := Workspace.play_inStep (β := β) location policy profiler disk events
  have hids : (saved.gestures.map Gesture.id).Nodup := by
    rw [Entries.gestures_eq, List.map_map]
    exact h.distinct
  have hstrokes : ∀ g ∈ saved.gestures, g.strokes ≠ [] := by
    rw [Entries.gestures_eq, List.forall_mem_map]
    intro p hp
    obtain ⟨i, -, hext⟩ := h.learned p hp
    exact (Instance.exists_extract_iff.mp ⟨i, hext⟩).1
  have hnames : ∀ e ∈ saved, ∃ f, Writer.utf e.1 = .ok f := by
    intro e he
    obtain ⟨g, -, hp⟩ := h.tidy.exists_pair he
    exact h.writable (e.1, g) hp
  have hplain : ∀ e ∈ saved, e.1.Plain := by
    intro e he
    obtain ⟨f, hf⟩ := hnames e he
    exact Writer.plain_of_utf hf
  have hwritten : (StoreFile.write saved).fault = none := hfits.fault_eq_none hnames
  refine ⟨hwritten, ?_, ?_⟩
  · intro reader rest hfound
    obtain ⟨hanswer, hentries⟩ :=
      reader.library.loadBytes_write h.tidy hids hstrokes hwritten rest
    obtain ⟨houtcome, hlibrary⟩ :=
      Workspace.perform_load (Library.load_eq_loadBytes hfound)
    rw [hlibrary]
    exact ⟨_, houtcome, hanswer, hentries⟩
  · intro store d supply rest hstore hargument hfound
    obtain ⟨l, hentries, hopen⟩ := Command.ends_openLibrary_written (c := ⟨d, supply, [], []⟩)
      h.tidy hids hstrokes hwritten (w := ⟨[], [], [store]⟩) rfl hstore hfound
    refine ⟨?_, ?_⟩
    · have hruns := Command.ends_runEntries hopen (by rw [hentries]; exact hplain)
      rw [hentries] at hruns
      exact Command.execute_eq_exit (Command.ofArguments_entries hargument) hruns
    · have hruns := Command.ends_runDump hopen
      rw [hentries] at hruns
      exact Command.execute_eq_exit (Command.ofArguments_dump hargument) hruns

end

/-- What one library wrote of two entries is loaded by another, whatever stands behind it, but not
by one for which strokes have to be single; it is listed and dumped all the same. -/
theorem written_entries_are_read :
    let d := Disk.holding (Text.of "s") ((StoreFile.write .gathered).bytes ++ [255])
    let reader := fun policy => (.start ⟨1, [Text.of "s"]⟩ policy none d : Workspace Single)
    let loaded := (reader ⟨.invariant, some .invariant⟩).perform .load
    Workspace.gathered.library.entries.Fits ∧
      loaded.1.outcome = .ok (.flag true) ∧ loaded.2.library.entries = .gathered ∧
      ((reader ⟨.sensitive, some .sensitive⟩).perform .load).1.outcome = .ok (.flag false) ∧
      Command.execute [Text.of "entries", Text.of "/s"] d ⟨0⟩
        = (.exit 0, ⟨d, ⟨0⟩, (Command.listing .gathered).flatMap Job.spoken, []⟩) ∧
      Command.execute [Text.of "dump", Text.of "/s"] d ⟨0⟩
        = (.exit 0, ⟨d, ⟨0⟩, Job.spoken (Command.dumped .gathered), []⟩) := by
  intro d reader loaded
  have h := written_store_is_read (γ := Float) (δ := Single) ⟨1, [Text.of "s"]⟩
    ⟨.invariant, none⟩ none .blank Event.gathering Workspace.fits_gathered
  rw [← Workspace.gathered, Workspace.entries_gathered] at h
  obtain ⟨-, hread, hshown⟩ := h
  obtain ⟨answer, hloaded, hiff, hentries⟩ :=
    hread (reader ⟨.invariant, some .invariant⟩) [255] (Disk.contents?_holding _)
  obtain rfl : answer = true := hiff.mpr (Or.inl rfl)
  obtain ⟨answer', hrefused, hiff', -⟩ :=
    hread (reader ⟨.sensitive, some .sensitive⟩) [255] (Disk.contents?_holding _)
  obtain rfl : answer' = false := by
    rw [Bool.eq_false_iff, ne_eq, hiff']
    decide
  obtain ⟨hlisted, hdumped⟩ := hshown (Text.of "/s") d ⟨0⟩ [255] (by decide) rfl
    (Disk.contents?_holding _)
  exact ⟨Workspace.fits_gathered, hloaded, hentries rfl, hrefused, hlisted, hdumped⟩

end GestureStore
