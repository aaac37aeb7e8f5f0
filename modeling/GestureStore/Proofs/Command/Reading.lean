/-
What becomes of a command whose trace was read, or was not.

A trace that cannot be read is reported, and the command ends with an exit code.  There is
one way around the report: a number of the right kind that is out of range is a fault
nothing deals with (`Overflows`).

Once the trace has been read, nothing that was in it can go wrong any more.  A gesture
that a library does not take, and a query that it cannot rank, are refused; what is shown
of the predictions are names of entries and numbers, which can always be shown.
-/
import GestureStore.Proofs.Command.Keeping
import GestureStore.Proofs.Command.Overflow
import GestureStore.Proofs.Json.Reader
import GestureStore.Proofs.Library.Policies
import GestureStore.Proofs.Library.TooDeep

namespace GestureStore

/-! ### Lines -/

namespace Job

/-- What is left in the second stream by a complaint. -/
def complained (line : Text) : Text := escaped (cleared (Text.of "❌ " ++ line)) ++ Text.of "\n"

theorem refuse_stops (line : Text) (c : Console) :
    (refuse line : Job α).Stops c (.exit 1) { c with err := c.err ++ complained line } := by
  unfold complained
  rw [← List.append_assoc]
  rfl

/-- The job is never stopped by a fault that nothing deals with. -/
def Caught (job : Job α) : Prop := ∀ c fault c', ¬ job.Stops c (.uncaught fault) c'

theorem caught_pure (a : α) : Caught (pure a : Job α) := fun _ _ _ => not_stops_pure

theorem Caught.bind {job : Job α} {next : α → Job β} (h : Caught job)
    (hnext : ∀ a, Caught (next a)) : Caught (job >>= next) := by
  intro c fault c' hstops
  rcases stops_bind_iff.mp hstops with hjob | ⟨a, c₁, -, hrest⟩
  · exact h c fault c' hjob
  · exact hnext a c₁ fault c' hrest

theorem caught_say {line : Text} (h : line.Plain) : Caught (say line) :=
  fun c _ _ => (ends_say h c).not_stops

theorem caught_forM {f : α → Job Unit} {as : List α} (h : ∀ a ∈ as, Caught (f a)) :
    Caught (as.forM f) := by
  induction as with
  | nil => exact caught_pure ()
  | cons a rest ih =>
      exact (h a List.mem_cons_self).bind fun _ => ih fun b hb => h b (List.mem_cons_of_mem a hb)

theorem caught_refuse (line : Text) : Caught (refuse line : Job α) := by
  intro c fault c' h
  cases h

end Job

/-! ### Numbers -/

theorem Double.plain_withPoint (places n : Nat) : (withPoint places n).Plain := by
  unfold withPoint
  have hdigits := Text.plain_paddedNatural (places + 1) n
  split
  · exact Text.plain_natural n
  · rw [Text.plain_append, Text.plain_append]
    exact ⟨⟨hdigits.subset (List.take_subset _ _), Text.plain_of "."⟩,
      hdigits.subset (List.drop_subset _ _)⟩

@[simp] theorem Double.plain_fixed (places : Nat) (d : Double) : (d.fixed places).Plain := by
  cases d with
  | nan => exact plain_nonFinite .nan
  | infinity negative => exact plain_nonFinite (.infinity negative)
  | finite negative m q =>
      unfold fixed
      rw [Text.plain_append]
      exact ⟨plain_signText negative, plain_withPoint _ _⟩

namespace Command

open Job

variable {c c' : Console}

/-! ### Traces -/

/-- Nothing in a trace is nested deeper than is gone into. -/
def Shallow (bytes : Bytes) : Prop :=
  ∀ text, Utf8.decode bytes = .ok text → Json.read maxTraceDepth text ≠ .error .tooDeep

theorem reads_read {text : Text} (h : Json.read maxTraceDepth text ≠ .error .tooDeep) :
    Reads (Json.read maxTraceDepth text) False := by
  cases hv : Json.read maxTraceDepth text with
  | ok v => exact reads_ok not_false v
  | error e =>
      rcases Json.read_eq_error hv with rfl | rfl
      · exact reads_error rfl not_false
      · exact absurd hv h

theorem gesturesOf_fst {bytes : Bytes} {text : Text} (h : Utf8.decode bytes = .ok text)
    (supply : Supply) :
    (gesturesOf bytes supply).1 = Json.read maxTraceDepth text >>= fun v =>
      traceItems v >>= fun items => (Gesture.ofValues items supply).1 := by
  unfold gesturesOf
  rw [h]
  dsimp only
  cases Json.read maxTraceDepth text with
  | error e => rfl
  | ok v =>
      dsimp only
      show _ = traceItems v >>= _
      cases traceItems v with
      | error e => rfl
      | ok items => rfl

theorem reads_gesturesOf {bytes : Bytes} (h : Shallow bytes) (supply : Supply) :
    Reads (gesturesOf bytes supply).1 (Overflows bytes) := by
  cases htext : Utf8.decode bytes with
  | error e =>
      unfold gesturesOf
      rw [htext]
      refine reads_error rfl ?_
      rintro ⟨text, v, items, htext', -⟩
      rw [htext] at htext'
      cases htext'
  | ok text =>
      rw [gesturesOf_fst htext]
      refine ((reads_read (h text htext)).bind fun v _ => (reads_traceItems v).bind fun items _ =>
        reads_gestures items supply).congr ?_
      constructor
      · rintro (hnone | ⟨v, hv, hnone | ⟨items, hitems, hfirst⟩⟩)
        · exact hnone.elim
        · exact hnone.elim
        · exact ⟨text, v, items, htext, hv, hitems, hfirst⟩
      · rintro ⟨text', v, items, htext', hv, hitems, hfirst⟩
        cases htext.symm.trans htext'
        exact .inr ⟨v, hv, .inr ⟨items, hitems, hfirst⟩⟩

/-- A trace that is read, or refused for another reason, is nested no deeper. -/
theorem shallow_of_gesturesOf {bytes : Bytes} {supply : Supply}
    (h : (gesturesOf bytes supply).1 ≠ .error .tooDeep) : Shallow bytes := by
  intro text htext hdeep
  rw [gesturesOf_fst htext, hdeep] at h
  exact h rfl

/-- The report of a trace that cannot be read. -/
def malformedTrace (trace : Text) (cause : Fault) : Text :=
  Text.of "Malformed trace file " ++ trace ++ Text.of ":" ++
    match cause.message? with | some m => Text.of " " ++ m | none => []

theorem readTrace_run {trace : Text} {bytes : Bytes}
    (hthere : c.disk.pathExists (Location.ofText trace) = .ok true)
    (hbytes : c.disk.read (Location.ofText trace).text = .ok bytes) :
    (readTrace trace).run c =
      match (gesturesOf bytes c.supply).1 with
      | .ok gs => (.ok gs, { c with supply := (gesturesOf bytes c.supply).2 })
      | .error e =>
        if isMalformed e then (.error (.exit 1),
          { c with
            supply := (gesturesOf bytes c.supply).2
            err := c.err ++ complained (malformedTrace trace e) })
        else (.error (.uncaught e), { c with supply := (gesturesOf bytes c.supply).2 }) := by
  unfold readTrace
  rw [run_bind_of_ends (ends_disk c), run_bind_of_ends (ends_orEnd hthere c),
    if_neg (by decide), run_bind_of_ends (ends_orEnd hbytes c),
    run_bind_of_ends (show (get : Job Console).Ends c c c from rfl)]
  rcases gesturesOf bytes c.supply with ⟨outcome, supply⟩
  have hset : (set { c with supply } : Job PUnit).Ends c ⟨⟩ { c with supply } := rfl
  dsimp only
  rw [run_bind_of_ends hset]
  cases outcome with
  | ok gs => rfl
  | error e =>
      dsimp only
      split
      · exact refuse_stops (malformedTrace trace e) { c with supply }
      · rfl

/-! ### Recognizing -/

/-- What is predicted can be shown. -/
theorem plain_recognize {l l' : Opened} (h : l.Continues l') {g : Gesture}
    {ps : List (Prediction Float)} (hps : (l'.recognize g).1 = .ok ps) :
    ∀ p ∈ ps, p.name.Plain := by
  intro p hp
  rw [Library.recognize_fst] at hps
  cases hext : (Instance.extract l'.policy none g : Except Fault (Instance Single)) with
  | error e =>
      rw [hext] at hps
      cases hps
  | ok i =>
      rw [hext] at hps
      obtain ⟨-, hanswers⟩ := Learner.classify_eq_ok_iff.mp hps
      obtain ⟨_, -, j, hj, hlabel, -⟩ := (hanswers.labels p.name).mp ⟨p, hp, rfl⟩
      obtain ⟨q, hq, hjext⟩ := h.inStep.owned j hj
      obtain ⟨entry, hentry, hname, -⟩ := Entries.mem_pairs.mp hq
      have hsame : q.1 = p.name := Option.some.inj (hjext.label_eq.symm.trans hlabel)
      exact plain_of_mem_names h (List.mem_map.mpr ⟨entry, hentry, hname.symm.trans hsame⟩)

theorem continues_recognize {l l' : Opened} (h : l.Continues l') (g : Gesture) :
    l.Continues (l'.recognize g).2 := by
  unfold Library.recognize
  split <;> exact ⟨h.location, h.policy, h.inStep⟩

theorem caught_recognizeAll (top : Int) (gs : List Gesture) :
    ∀ (i : Nat) {l l' : Opened}, l.Continues l' → Caught (recognizeAll top i gs l') := by
  induction gs with
  | nil =>
      intro i l l' _
      exact caught_pure ()
  | cons g rest ih =>
      intro i l l' h
      unfold recognizeAll
      have hcontinues := continues_recognize h g
      split
      · exact caught_refuse _
      · rename_i ps l'' hrecognize
        rw [hrecognize] at hcontinues
        have hnames := plain_recognize h (congrArg Prod.fst hrecognize)
        refine (caught_say (by simp)).bind fun _ => ?_
        have hshown : Caught ((firstOf top ps).forM fun p => say (Text.of "   → " ++ p.name ++
            Text.of ": " ++ (Double.ofFloat p.score).fixed 3)) := by
          refine caught_forM fun p hp => caught_say ?_
          have hname := hnames p (List.take_subset _ _ hp)
          simp [hname]
        split
        · exact (caught_say (by simp)).bind fun _ => hshown.bind fun _ => ih (i + 1) hcontinues
        · exact hshown.bind fun _ => ih (i + 1) hcontinues

/-! ### Adding -/

/-- A fault of a command that has read its trace lies elsewhere: in the label, or on the disk. -/
inductive Elsewhere (disk : Disk) (l : Opened) : Command → Fault → Prop where
  /-- The label cannot be shown. -/
  | label {label trace : Text} {source : Source} {e : Utf8.EncodeError} (hlabel : ¬ label.Plain) :
      Elsewhere disk l (.add label trace source) (.notEncodable e)
  /-- Too many directories are missing on the way to the store. -/
  | directories {label trace : Text} {source : Source}
      (hmissing : (disk.makeDirectories l.location.parent).1 = .error .tooDeep) :
      Elsewhere disk l (.add label trace source) .tooDeep

theorem stops_say {line : Text} {fault : Fault} (h : (say line).Stops c (.uncaught fault) c') :
    ¬ line.Plain ∧ ∃ e, fault = .notEncodable e := by
  refine ⟨fun hplain => caught_say hplain c fault c' h, ?_⟩
  unfold say at h
  dsimp only at h
  split at h
  · rename_i e he
    cases h
    exact ⟨e, rfl⟩
  · cases h

theorem stops_saveLibrary {l : Opened} {fault : Fault}
    (h : (saveLibrary l).Stops c (.uncaught fault) c') : (l.save c.disk).1 = .error fault := by
  rw [Stops, saveLibrary_run] at h
  rcases stops_bind_iff.mp h with hwarn | ⟨_, c₁, -, hanswer⟩
  · exact absurd hwarn not_stops_warn
  · cases hsave : (l.save c.disk).1 with
    | error e =>
        rw [hsave] at hanswer
        cases hanswer
        rfl
    | ok answer =>
        rw [hsave] at hanswer
        cases answer with
        | true => exact absurd hanswer not_stops_pure
        | false => exact absurd hanswer (caught_refuse _ _ _ _)

/-- What adding does with the gestures of its trace. -/
def addRead (label : Text) (l : Opened) (gs : List Gesture) : Job Unit :=
  match addAll label gs l with
  | .error e => refuse (e.message?.getD [])
  | .ok l => do
    saveLibrary l
    say (Text.of "✅ Added " ++ gestureCount gs.length ++ Text.of " to '" ++ label ++ Text.of "'")

theorem elsewhere_of_addRead {l l' : Opened} (h : l.Continues l') {label : Text}
    {gs : List Gesture} {fault : Fault} (trace : Text) (source : Source)
    (hstops : (addRead label l' gs).Stops c (.uncaught fault) c') :
    Elsewhere c.disk l' (.add label trace source) fault := by
  unfold addRead at hstops
  cases hadd : addAll label gs l' with
  | error e =>
      rw [hadd] at hstops
      exact absurd hstops (caught_refuse _ _ _ _)
  | ok l'' =>
      rw [hadd] at hstops
      rcases stops_bind_iff.mp hstops with hsave | ⟨_, c₁, -, hsay⟩
      · obtain ⟨rfl, hmissing⟩ := Library.save_eq_error (stops_saveLibrary hsave)
        rw [location_of_addAll h hadd] at hmissing
        exact .directories hmissing
      · obtain ⟨hline, e, rfl⟩ := stops_say hsay
        refine .label fun hlabel => hline ?_
        simp [gestureCount, hlabel]

/-! ### Whole commands -/

/-- The trace that a command reads, and its source. -/
def trace? : Command → Option (Text × Source)
  | .add _ trace source => some (trace, source)
  | .recognize trace source _ => some (trace, source)
  | _ => none

/-- What a command does with the gestures of its trace. -/
def afterTrace (l : Opened) (gs : List Gesture) : Command → Job Unit
  | .add label _ _ => addRead label l gs
  | .recognize _ _ top => recognizeAll top 0 gs l
  | _ => pure ()

/-- A store that is not there is opened as an empty library. -/
theorem ends_openLibrary_missing {source : Source} {l : Opened}
    (hlibrary : (library source).Ends c l c)
    (hmissing : c.disk.pathExists l.location = .ok false) : (openLibrary source).Ends c l c :=
  hlibrary.bind ((ends_disk c).bind ((ends_orEnd hmissing c).bind (ends_pure l c)))

theorem run_eq {command : Command} {trace : Text} {source : Source}
    (h : command.trace? = some (trace, source)) :
    run command = (do
      let l ← openLibrary source
      let gs ← readTrace trace
      afterTrace l gs command) := by
  cases command with
  | add label trace source =>
      cases h
      rfl
  | recognize trace source top =>
      cases h
      rfl
  | entries | remove | dump | help => cases h

theorem elsewhere_of_stops {l l' : Opened} (h : l.Continues l') {command : Command}
    {gs : List Gesture} {fault : Fault}
    (hstops : (afterTrace l' gs command).Stops c (.uncaught fault) c') :
    Elsewhere c.disk l' command fault := by
  cases command with
  | entries | remove | dump | help => exact absurd hstops not_stops_pure
  | recognize trace source top =>
      exact absurd hstops (caught_recognizeAll top gs 0 h c fault c')
  | add label trace source => exact elsewhere_of_addRead h trace source hstops

section

/-- How a run ends whose command was stopped. -/
def outcomeOf : Ending → Outcome
  | .exit code => .exit code
  | .uncaught fault => .uncaught fault

variable {arguments : List Text} {command : Command} {disk : Disk} {supply : Supply}

/-- A run ends as the command was stopped. -/
theorem execute_of_stops (hcommand : ofArguments arguments = some command) {e : Ending}
    (h : (run command).Stops ⟨disk, supply, [], []⟩ e c) :
    execute arguments disk supply = (outcomeOf e, c) := by
  unfold execute
  rw [hcommand]
  dsimp only
  rw [show (run command).run _ = _ from h]
  cases e <;> rfl

theorem stops_of_uncaught (hcommand : ofArguments arguments = some command) {fault : Fault}
    (h : (execute arguments disk supply).1 = .uncaught fault) :
    (run command).Stops ⟨disk, supply, [], []⟩ (.uncaught fault)
      (execute arguments disk supply).2 := by
  have hfailed : (execute arguments disk supply).1 ≠ .exit 0 := by
    rw [h]
    simp
  obtain ⟨e, hstops⟩ := stops_of_execute hcommand hfailed
  rw [execute_of_stops hcommand hstops] at h
  cases e with
  | exit code => cases h
  | uncaught fault' =>
      cases h
      exact hstops

end

end Command

open Command Job in
/--
**What becomes of a trace.**

Let a command that reads a trace have opened its library, and let the file of the trace be
there, whatever its bytes, as long as nothing in it is nested deeper than the reader goes.

If a number in the trace overflows before anything else is wrong with it, the command is
stopped by a fault that nothing deals with, and nothing is told.  For every other trace it
is one of two things.  Either the trace is reported as malformed, on the second stream and
with an exit code of one; or its gestures are read, and if a fault that nothing deals with
stops the command after that, its cause lies elsewhere.
-/
theorem trace_is_read_or_reported_unless_it_overflows {arguments : List Text} {command : Command}
    {trace : Text} {source : Source} {disk : Disk} {supply : Supply} {bytes : Bytes} {l : Opened}
    {c : Console} (hcommand : ofArguments arguments = some command)
    (htrace : command.trace? = some (trace, source))
    (hopen : (openLibrary source).Ends ⟨disk, supply, [], []⟩ l c)
    (hthere : disk.pathExists (Location.ofText trace) = .ok true)
    (hbytes : disk.read (Location.ofText trace).text = .ok bytes) (hshallow : Shallow bytes) :
    let ended := execute arguments disk supply
    (Overflows bytes →
      ended.1 = .uncaught .outOfRange ∧ ended.2.out = [] ∧ ended.2.err = c.err) ∧
    (¬ Overflows bytes →
      (∃ cause, (gesturesOf bytes c.supply).1 = .error cause ∧ ended.1 = .exit 1 ∧
        ended.2.out = [] ∧ ended.2.err = c.err ++ complained (malformedTrace trace cause)) ∨
      (∃ gs c', (gesturesOf bytes c.supply).1 = .ok gs ∧ (readTrace trace).Ends c gs c' ∧
        ∀ fault, ended.1 = .uncaught fault → Elsewhere disk l command fault)) := by
  intro ended
  obtain ⟨htold, l₀, -, -, hcontinues, -⟩ := openLibrary_finds hopen
  have hdisk : c.disk = disk := htold.disk
  have hout : c.out = [] := htold.out
  rw [← hdisk] at hthere hbytes
  have hrun := readTrace_run hthere hbytes
  have hreads := reads_gesturesOf hshallow c.supply
  have hsteps : (run command).run ⟨disk, supply, [], []⟩ =
      (readTrace trace >>= fun gs => afterTrace l gs command).run c := by
    rw [run_eq htrace, run_bind_of_ends hopen]
  cases hgestures : (gesturesOf bytes c.supply).1 with
  | ok gs =>
      rw [hgestures] at hrun hreads
      have hnot : ¬ Overflows bytes := hreads
      refine ⟨fun hover => absurd hover hnot, fun _ => .inr ⟨gs, _, rfl, hrun, ?_⟩⟩
      intro fault hfault
      have hstops := stops_of_uncaught hcommand hfault
      rw [Stops, hsteps, run_bind_of_ends hrun] at hstops
      have hafter : (afterTrace l gs command).Stops
          { c with supply := (gesturesOf bytes c.supply).2 } (.uncaught fault) ended.2 := hstops
      have helsewhere := elsewhere_of_stops hcontinues hafter
      rw [← hdisk]
      exact helsewhere
  | error e =>
      rw [hgestures] at hrun hreads
      dsimp only at hrun
      rcases hreads with ⟨rfl, hover⟩ | ⟨hmalformed, hnot⟩
      · rw [if_neg (by decide)] at hrun
        have hended := execute_of_stops hcommand (hsteps.trans (run_bind_of_stops hrun))
        refine ⟨fun _ => ?_, fun hnot => absurd hover hnot⟩
        rw [show ended = _ from hended]
        exact ⟨rfl, hout, rfl⟩
      · rw [if_pos hmalformed] at hrun
        have hended := execute_of_stops hcommand (hsteps.trans (run_bind_of_stops hrun))
        refine ⟨fun hover => absurd hover hnot, fun _ => .inl ⟨e, rfl, ?_⟩⟩
        rw [show ended = _ from hended]
        exact ⟨rfl, hout, rfl⟩

open Command Job in
/-- Numbers in the place of gestures are reported. -/
theorem numbers_are_reported :
    let bytes := (Text.of "[1, 2]").flatMap Utf8.encodeOne
    let disk := Disk.holding (Text.of "t") bytes
    let words := ["recognize", "/t", "--store", "/s"].map Text.of
    let source : Source := ⟨some (Text.of "/s"), none, Text.of "sensitive", Text.of "sensitive"⟩
    let start : Console := ⟨disk, ⟨7⟩, [], []⟩
    (∃ l, (openLibrary source).Ends start l start) ∧
      disk.pathExists (Location.ofText (Text.of "/t")) = .ok true ∧
      disk.read (Location.ofText (Text.of "/t")).text = .ok bytes ∧ Shallow bytes ∧
      ∃ c, execute words disk ⟨7⟩ = (.exit 1, c) ∧ c.out = [] ∧
        c.err = complained (malformedTrace (Text.of "/t") .noSuchPart) := by
  intro bytes disk words source start
  have hcommand : ofArguments words = some (.recognize (Text.of "/t") source 5) := by
    decide +kernel
  have hgestures : (gesturesOf bytes ⟨7⟩).1 = .error .noSuchPart := by decide +kernel
  have hshallow : Shallow bytes := shallow_of_gesturesOf (by rw [hgestures]; simp)
  let l : Opened := Library.new ⟨1, [Text.of "s"]⟩ ⟨.sensitive, some .sensitive⟩ none
  have hlibrary : (library source).Ends start l start := rfl
  have hopen : (openLibrary source).Ends start l start :=
    ends_openLibrary_missing hlibrary (by decide +kernel)
  have hthere : disk.pathExists (Location.ofText (Text.of "/t")) = .ok true := by decide +kernel
  have hread : disk.read (Location.ofText (Text.of "/t")).text = .ok bytes := by decide +kernel
  have hexit : (execute words disk ⟨7⟩).1 = .exit 1 := by decide +kernel
  have hended : execute words disk ⟨7⟩ = (.exit 1, (execute words disk ⟨7⟩).2) :=
    Prod.ext hexit rfl
  obtain ⟨hescapes, htold⟩ := trace_is_read_or_reported_unless_it_overflows hcommand rfl hopen
    hthere hread hshallow
  have hnot : ¬ Overflows bytes := by
    intro hover
    rw [hexit] at hescapes
    cases (hescapes hover).1
  refine ⟨⟨l, hopen⟩, hthere, hread, hshallow, (execute words disk ⟨7⟩).2, hended, ?_⟩
  rcases htold hnot with ⟨cause, hcause, -, hout, herr⟩ | ⟨gs, c', hgs, -⟩
  · cases hgestures.symm.trans hcause
    exact ⟨hout, herr⟩
  · cases hgestures.symm.trans hgs

open Command Job in
/-- An infinite time is not reported, neither in adding nor in recognizing. -/
theorem endless_time_is_not_reported :
    let bytes := (Text.of "\x7b\"strokes\":[[[0,0,1e999]]]\x7d").flatMap Utf8.encodeOne
    let disk := Disk.holding (Text.of "t") bytes
    let added := execute (["add", "a", "/t", "--store", "/s"].map Text.of) disk ⟨7⟩
    let recognized := execute (["recognize", "/t", "--store", "/s"].map Text.of) disk ⟨7⟩
    disk.pathExists (Location.ofText (Text.of "/t")) = .ok true ∧
      disk.read (Location.ofText (Text.of "/t")).text = .ok bytes ∧ Shallow bytes ∧
      (gesturesOf bytes ⟨7⟩).1 = .error .outOfRange ∧
      added.1 = .uncaught .outOfRange ∧ added.2.err = [] ∧
      recognized.1 = .uncaught .outOfRange ∧ recognized.2.err = [] := by
  intro bytes disk added recognized
  have hgestures : (gesturesOf bytes ⟨7⟩).1 = .error .outOfRange := by decide +kernel
  have hshallow : Shallow bytes := shallow_of_gesturesOf (by rw [hgestures]; simp)
  have hfile : disk.pathExists (Location.ofText (Text.of "/t")) = .ok true ∧
      disk.read (Location.ofText (Text.of "/t")).text = .ok bytes := by decide +kernel
  have hadded : added.1 = .uncaught .outOfRange ∧ added.2.err = [] := by decide +kernel
  have hrecognized : recognized.1 = .uncaught .outOfRange ∧ recognized.2.err = [] := by
    decide +kernel
  exact ⟨hfile.1, hfile.2, hshallow, hgestures, hadded.1, hadded.2, hrecognized⟩

end GestureStore
