/-
Which policies go together.

The policy can change between any two operations, and what is stored does not follow
it.  So a library may hold instances of several policies, and a query may be refused
because of any of them.  Whether it is depends on one thing only: under which policy
each stored gesture was last extracted (`Workspace.since`), against the one in force.

Extracting everything anew, from the entries or from the file, leaves one policy for
all.  From then on nothing is at odds with a query, whatever is added and removed, until
a policy is set that was not in force (`Workspace.Steady`).  A query is then answered,
and where distances are finite each name is among the answers, since its weight is
above zero.
-/
import GestureStore.Proofs.Classification
import GestureStore.Proofs.Library.Recognition
import GestureStore.Proofs.Number.Inverse

namespace GestureStore

/-! ### Recognizing in a library in step -/

namespace Library

variable {since : Int → Policy}

section
variable [Scalar α] [Stored β α] {l : Library β}

/-- **A query is refused exactly if the policy of a stored gesture clashes with that in force.** -/
theorem recognize_refused_iff (h : InStep since l.entries l.learner) {g : Gesture} {i : Instance β}
    (hext : Instance.extract l.policy none g = .ok i) :
    (∃ fault, (l.recognize g).1 = .error (.policy fault)) ↔
      ∃ s ∈ l.entries.gestures, (since s.id).Clashes l.policy := by
  have hclash : ∀ {p : Text × Gesture} {j : Instance β}, Extracted (since p.2.id) p j →
      (Learner.mismatch? (⟨i.sequence, i.vector.map Stored.fetch, i.orientation⟩ : Query α) j ≠ none ↔
        (since p.2.id).Clashes l.policy) := by
    intro p j hj
    rcases Learner.mismatch?_cases hext hj with ⟨hnot, hnone⟩ | ⟨hclash, fault, hsome, -⟩
    · simp [hnot, hnone]
    · simp [hclash, hsome]
  rw [recognize_fst, hext]
  refine Learner.classify_refused_iff.trans ⟨fun hrefused => ?_, fun hclashes => ?_⟩
  · obtain ⟨e, he, hne⟩ := hrefused
    obtain ⟨p, hp, hj⟩ := h.owned e.2 (Learner.mem_labelled.mp he).1
    exact ⟨p.2, Entries.mem_gestures_of_pair hp, (hclash hj).mp hne⟩
  · obtain ⟨s, hs, hc⟩ := hclashes
    obtain ⟨p, hp, rfl⟩ := Entries.mem_gestures.mp hs
    obtain ⟨j, hj, hjext⟩ := h.learned p hp
    exact ⟨(p.1, j), Learner.mem_labelled.mpr ⟨hj, hjext.label_eq⟩, (hclash hjext).mpr hc⟩

theorem recognize_answered_or_refused {g : Gesture} {i : Instance β}
    (hext : Instance.extract l.policy none g = .ok i) :
    (∃ fault, (l.recognize g).1 = .error (.policy fault)) ∨ ∃ ps, (l.recognize g).1 = .ok ps := by
  rw [recognize_fst, hext]
  cases hclass : l.learner.classify ⟨i.sequence, i.vector.map Stored.fetch, i.orientation⟩ with
  | error e =>
      obtain ⟨fault, rfl, -⟩ := Learner.classify_eq_error hclass
      exact Or.inl ⟨fault, hclass⟩
  | ok ps => exact Or.inr ⟨ps, hclass⟩

/-- Vectors of a library never differ in length where they are compared. -/
theorem recognize_ne_length (h : InStep since l.entries l.learner) (g : Gesture) (m n : Nat) :
    (l.recognize g).1 ≠ .error (.policy (.length m n)) := by
  intro hlength
  rw [recognize_fst] at hlength
  cases hext : (Instance.extract l.policy none g : Except Fault (Instance β)) with
  | error e =>
      obtain ⟨cause, rfl⟩ := Instance.extract_eq_error hext
      rw [hext] at hlength
      cases hlength
  | ok i =>
      rw [hext] at hlength
      obtain ⟨fault, hfault, e, he, hsome⟩ := Learner.classify_eq_error hlength
      obtain ⟨p, -, hj⟩ := h.owned e.2 (Learner.mem_labelled.mp he).1
      rcases Learner.mismatch?_cases hext hj with ⟨-, hnone⟩ | ⟨-, fault', hsome', hne⟩
      · rw [hsome] at hnone
        cases hnone
      · rw [hsome] at hsome'
        cases hfault
        exact hne m n (Option.some.inj hsome').symm

/-- Where order does not count, neither does the style. -/
theorem recognize_setOrientation (hsequence : l.policy.sequence = .invariant)
    (o : Option Orientation) (g : Gesture) :
    ((l.setOrientation o).recognize g).1 = (l.recognize g).1 := by
  have hext : (Instance.extract (l.setOrientation o).policy none g : Except Fault (Instance β))
      = Instance.extract l.policy none g := by
    unfold Instance.extract setOrientation
    dsimp only
    rw [hsequence]
    cases g.strokes with
    | nil => rfl
    | cons s rest => rfl
  rw [recognize_fst, recognize_fst, hext]
  rfl

end

/-- **At finite distances every name of a library is in the ranking, and once.** -/
theorem names_recognize {l : Library Single} (h : InStep since l.entries l.learner) {g : Gesture}
    {i : Instance Single} (hext : Instance.extract l.policy none g = .ok i)
    {ps : List (Prediction Float)} (hranked : (l.recognize g).1 = .ok ps)
    (hfinite : ∀ j ∈ l.learner.instances, (Learner.distance i.sequence
      (i.vector.map Stored.fetch) (j.vector.map Stored.fetch)).isFinite = true) :
    (ps.map Prediction.name).Perm (l.entries.map Prod.fst) := by
  rw [recognize_fst, hext] at hranked
  obtain ⟨-, hanswers⟩ := Learner.classify_eq_ok_iff.mp hranked
  rw [List.perm_ext_iff_of_nodup hanswers.once h.tidy.names]
  intro name
  rw [List.mem_map, hanswers.labels]
  simp only [Learner.weighs_iff_exists]
  refine ⟨fun hweighs => ?_, fun hentry => ?_⟩
  · obtain ⟨_, -, j, hj, hlabel, -⟩ := hweighs
    obtain ⟨p, hp, hjext⟩ := h.owned j hj
    obtain ⟨entry, hentry, hname, -⟩ := Entries.mem_pairs.mp hp
    have hsame : p.1 = name := Option.some.inj (hjext.label_eq.symm.trans hlabel)
    exact List.mem_map.mpr ⟨entry, hentry, hname.symm.trans hsame⟩
  · obtain ⟨entry, hmem, rfl⟩ := List.mem_map.mp hentry
    obtain ⟨s, -, hs⟩ := h.tidy.exists_pair hmem
    obtain ⟨j, hj, hjext⟩ := h.learned _ hs
    exact ⟨_, Learner.weight_pos (hfinite j hj), j, hj, hjext.label_eq, rfl⟩

end Library

/-! ### Runs under one policy -/

section
variable [Scalar α] [Stored β α]

/-- Only setting a policy changes it. -/
theorem Does.policy_eq {w : Workspace β} {op : Operation} {outcome : Except Fault (Answer α)}
    {st : Library.State β} {d : Disk} (hdoes : Does w op outcome st d)
    (hsequence : ∀ s, op ≠ .setSequence s) (horientation : ∀ o, op ≠ .setOrientation o) :
    st.policy = w.library.policy := by
  cases hdoes with
  | sequenceSet => exact absurd rfl (hsequence _)
  | orientationSet => exact absurd rfl (horientation _)
  | _ => rfl

omit [Scalar α] in
/-- Where all is extracted under the policy in force, what comes in is as well. -/
theorem settle_const (policy : Policy) (op : Operation) (outcome : Except Fault (Answer α)) :
    settle policy (fun _ => policy) op outcome = fun _ => policy := by
  unfold settle
  split
  · split
    · rfl
    · exact Function.update_eq_self_iff.mpr rfl
  all_goals rfl

namespace Workspace

/-- An operation that extracts everything anew: rebuilding or loading, if it succeeds. -/
def Renews (w : Workspace β) (op : Operation) : Prop :=
  (op = .rebuild ∧ (w.perform op).1.outcome = .ok .done) ∨
    (op = .load ∧ (w.perform op).1.outcome = .ok (.flag true))

/-- The policy in force is another after none of the events. -/
def Steady (w : Workspace β) : List Event → Prop
  | [] => True
  | e :: rest => (w.after e).library.policy = w.library.policy ∧ (w.after e).Steady rest

variable (w : Workspace β)

theorem perform_recognize_error_iff {g : Gesture} {e : Fault} :
    (w.perform (.recognize g)).1.outcome = .error e ↔ (w.library.recognize g).1 = .error e := by
  show (w.library.recognize g).1.map Answer.predictions = .error e ↔ _
  cases (w.library.recognize g).1 <;> simp [Except.map]

theorem perform_recognize_ok_iff {g : Gesture} {ps : List (Prediction α)} :
    (w.perform (.recognize g)).1.outcome = .ok (.predictions ps) ↔
      (w.library.recognize g).1 = .ok ps := by
  show (w.library.recognize g).1.map Answer.predictions = .ok (.predictions ps) ↔ _
  cases (w.library.recognize g).1 <;> simp [Except.map]

theorem play_append (earlier later : List Event) :
    w.play (earlier ++ later) = (w.play earlier).play later := List.foldl_append

theorem since_append (policies : Int → Policy) (earlier later : List Event) :
    w.since policies (earlier ++ later)
      = (w.play earlier).since (w.since policies earlier) later := by
  induction earlier generalizing w policies with
  | nil => rfl
  | cons e rest ih =>
      cases e with
      | operate op => exact ih (w.after (.operate op)) _
      | outside d => exact ih (w.after (.outside d)) _

variable {w}

theorem Renews.settle_eq {op : Operation} (h : w.Renews op) (policies : Int → Policy) :
    settle w.library.policy policies op (w.perform op).1.outcome = fun _ => w.library.policy := by
  rcases h with ⟨rfl, hdone⟩ | ⟨rfl, hdone⟩
  · rw [hdone]
    rfl
  · rw [hdone]
    rfl

theorem Renews.policy_eq {op : Operation} (h : w.Renews op) :
    (w.after (.operate op)).library.policy = w.library.policy := by
  refine (w.perform_does op).policy_eq ?_ ?_
  · rintro s rfl
    rcases h with ⟨hop, -⟩ | ⟨hop, -⟩ <;> cases hop
  · rintro o rfl
    rcases h with ⟨hop, -⟩ | ⟨hop, -⟩ <;> cases hop

theorem Steady.since_eq {events : List Event} (h : w.Steady events) :
    w.since (fun _ => w.library.policy) events = fun _ => (w.play events).library.policy := by
  induction events generalizing w with
  | nil => rfl
  | cons e rest ih =>
      obtain ⟨hpolicy, hrest⟩ := h
      have hlater := ih hrest
      rw [hpolicy] at hlater
      cases e with
      | operate op =>
          rw [since, settle_const]
          exact hlater
      | outside d => exact hlater

/-- **Once all was extracted anew, all is as extracted now, until a policy is changed.** -/
theorem Renews.since_eq {policies : Int → Policy} {earlier later : List Event} {op : Operation}
    (h : (w.play earlier).Renews op)
    (hsteady : ((w.play earlier).after (.operate op)).Steady later) :
    w.since policies (earlier ++ .operate op :: later)
      = fun _ => (w.play (earlier ++ .operate op :: later)).library.policy := by
  rw [since_append, play_append, since, h.settle_eq, ← h.policy_eq, hsteady.since_eq]
  rfl

end Workspace

end

/-! ### Every run -/

/--
**Recognition goes by the policies under which gestures were last extracted.**

Take any run, and any gesture that can be extracted under the policy in force.  The
query is refused for its policy exactly if a stored gesture was last extracted under
one that clashes; else it is answered.  It is never refused for the length of a vector.
Where order does not count, setting the style changes no answer.  From a rebuild or
load that succeeded until a policy is changed, every such query is answered, and if
distances are finite the names of the answer are those of the entries, each once.
-/
theorem recognition_goes_by_policies (location : Location) (policy : Policy)
    (profiler : Option (Profiler Float)) (disk : Disk) (events : List Event) :
    let start : Workspace Single := .start location policy profiler disk
    let w := start.play events
    let since := start.since (fun _ => policy) events
    (∀ (g : Gesture) (i : Instance Single), Instance.extract w.library.policy none g = .ok i →
      ((∃ fault, (w.perform (.recognize g)).1.outcome = .error (.policy fault)) ↔
        ∃ s ∈ w.library.entries.gestures, (since s.id).Clashes w.library.policy) ∧
      ((¬ ∃ s ∈ w.library.entries.gestures, (since s.id).Clashes w.library.policy) →
        ∃ ps, (w.perform (.recognize g)).1.outcome = .ok (.predictions ps))) ∧
    (∀ (g : Gesture) (m n : Nat),
      (w.perform (.recognize g)).1.outcome ≠ .error (.policy (.length m n))) ∧
    (w.library.policy.sequence = .invariant → ∀ (o : Option Orientation) (g : Gesture),
      ((w.after (.operate (.setOrientation o))).perform (.recognize g)).1.outcome
        = (w.perform (.recognize g)).1.outcome) ∧
    ∀ (earlier later : List Event) (op : Operation), events = earlier ++ .operate op :: later →
      (start.play earlier).Renews op →
      ((start.play earlier).after (.operate op)).Steady later →
      ∀ (g : Gesture) (i : Instance Single), Instance.extract w.library.policy none g = .ok i →
        ∃ ps, (w.perform (.recognize g)).1.outcome = .ok (.predictions ps) ∧
          ((∀ j ∈ w.library.learner.instances, (Learner.distance i.sequence
              (i.vector.map Stored.fetch) (j.vector.map Stored.fetch)).isFinite = true) →
            (ps.map Prediction.name).Perm (w.library.entries.map Prod.fst)) := by
  intro start w since
  have h : InStep since w.library.entries w.library.learner :=
    Workspace.play_inStep location policy profiler disk events
  simp only [ne_eq, Workspace.perform_recognize_error_iff, Workspace.perform_recognize_ok_iff]
  refine ⟨fun g i hext => ⟨Library.recognize_refused_iff h hext, fun hnone => ?_⟩, ?_, ?_, ?_⟩
  · refine (Library.recognize_answered_or_refused hext).resolve_left fun hrefused => ?_
    exact hnone ((Library.recognize_refused_iff h hext).mp hrefused)
  · exact fun g m n hlength => Library.recognize_ne_length h g m n hlength
  · intro hsequence o g
    exact congrArg (Except.map Answer.predictions)
      (Library.recognize_setOrientation hsequence o g)
  · rintro earlier later op rfl hrenews hsteady g i hext
    have hsince : since = fun _ => w.library.policy := hrenews.since_eq hsteady
    obtain ⟨ps, hps⟩ := Library.exists_recognize h
      (h.current fun s _ => congrFun hsince s.id) hext
    exact ⟨ps, hps, Library.names_recognize h hext hps⟩

/-- A dot is refused after order ceased to count, until the dot that is stored is extracted anew. -/
theorem rebuilding_renews_a_dot :
    let start : Workspace Single :=
      .start ⟨1, [Text.of "s"]⟩ ⟨.sensitive, some .sensitive⟩ none .blank
    let w := start.play [.draws "a" 1, .operate (.setSequence .invariant)]
    let w' := start.play
      [.draws "a" 1, .operate (.setSequence .invariant), .operate .rebuild]
    (∃ fault, (w.perform (.recognize (.dot 9))).1.outcome = .error (.policy fault)) ∧
      ∃ ps, (w'.perform (.recognize (.dot 9))).1.outcome = .ok (.predictions ps) ∧
        (ps.map Prediction.name).Perm [Text.of "a"] ∧
        ((w'.after (.operate (.setOrientation none))).perform (.recognize (.dot 9))).1.outcome
          = .ok (.predictions ps) := by
  intro start w w'
  have hext : Instance.extract w.library.policy none (.dot 9) = .ok
      (⟨(Raster.features rasterSize (Gesture.dot 9).paths).map Stored.store, none, 9, .invariant,
        none⟩ : Instance Single) := rfl
  have h := recognition_goes_by_policies ⟨1, [Text.of "s"]⟩ ⟨.sensitive, some .sensitive⟩ none
    .blank [.draws "a" 1, .operate (.setSequence .invariant)]
  have h' := recognition_goes_by_policies ⟨1, [Text.of "s"]⟩ ⟨.sensitive, some .sensitive⟩ none
    .blank [.draws "a" 1, .operate (.setSequence .invariant), .operate .rebuild]
  have hrenews : w.Renews .rebuild := Or.inl ⟨rfl, rfl⟩
  obtain ⟨ps, hanswer, hnames⟩ :=
    h'.2.2.2 [.draws "a" 1, .operate (.setSequence .invariant)] [] .rebuild rfl hrenews trivial
      (.dot 9) _ hext
  have hrefused := (h.1 (.dot 9) _ hext).1.mpr
    ⟨.dot 1, List.mem_singleton.mpr rfl, Or.inl (by decide)⟩
  have hstyle := h'.2.2.1 rfl none (.dot 9)
  have hentries : w'.library.entries.map Prod.fst = [Text.of "a"] := rfl
  have hfinite : ∀ j ∈ w'.library.learner.instances, (Learner.distance .invariant
      (((Raster.features rasterSize (Gesture.dot 9).paths).map Stored.store : List Single).map
        Stored.fetch) (j.vector.map Stored.fetch)).isFinite = true := by
    intro j hj
    have hstored : j ∈ [(⟨(Raster.features rasterSize (Gesture.dot 1).paths).map Stored.store,
        some (Text.of "a"), 1, .invariant, none⟩ : Instance Single)] := hj
    rw [List.mem_singleton.mp hstored]
    decide +kernel
  dsimp only [w, w', start] at hnames hfinite hentries ⊢
  rw [← hentries]
  exact ⟨hrefused, ps, hanswer, hnames hfinite, hstyle.trans hanswer⟩

end GestureStore
