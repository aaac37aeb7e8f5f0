/-
Settings survive being written and read.

Taking a value as a text never gives an empty one where the value counts as true, so
the path of settings that were accepted is accepted again.  Written as a document,
settings are four fields with names of letters; such a document is printable ASCII,
which can always be encoded, and it reads back as the values that were written.
-/
import GestureStore.Proofs.Text.Utf8
import GestureStore.Proofs.Yaml.Document
import GestureStore.Settings

namespace GestureStore

/-! ### Values that count as true are taken as texts that hold something -/

theorem Text.natural_ne_nil (n : Nat) : Text.natural n ≠ [] := by
  rw [Text.natural, ne_eq, List.map_eq_nil_iff]
  exact Nat.toDigits_ne_nil

theorem Text.integer_ne_nil (i : Int) : Text.integer i ≠ [] := by
  cases i with
  | ofNat n => exact Text.natural_ne_nil n
  | negSucc n => exact List.cons_ne_nil _ _

namespace Double

theorem shortestText_ne_nil (d : Double) : d.shortestText ≠ [] := by
  cases d with
  | nan => decide
  | infinity negative => cases negative <;> decide
  | finite negative m q =>
      rw [shortestText]
      dsimp only
      split_ifs <;> simp [exponentText, Text.of]

end Double

theorem Moment.text_ne_nil (m : Moment) : m.text ≠ [] := by
  simp [Moment.text, Text.of]

theorem Moment.described_ne_nil (m : Moment) : m.described ≠ [] := by
  rw [Moment.described]
  cases m.time <;> simp [description, Text.of]

namespace Value

/-- Nothing is shown as an empty text. -/
theorem shown_ne_nil {v : Value} {t : Text} (h : v.shown = .ok t) : t ≠ [] := by
  cases v with
  | null =>
      obtain rfl := Except.ok.inj h
      decide
  | bool b =>
      cases b with
      | true =>
          obtain rfl := Except.ok.inj h
          decide
      | false =>
          obtain rfl := Except.ok.inj h
          decide
  | int i =>
      rw [shown, digitsOf] at h
      split at h
      next => cases h
      next =>
        obtain rfl := Except.ok.inj h
        exact Text.integer_ne_nil i
  | float x =>
      obtain rfl := Except.ok.inj h
      exact Double.shortestText_ne_nil _
  | text u =>
      obtain rfl := Except.ok.inj h
      exact List.cons_ne_nil _ _
  | moment m =>
      obtain rfl := Except.ok.inj h
      exact m.described_ne_nil
  | list items =>
      rw [shown] at h
      cases hitems : shownItems items with
      | error e => simp [hitems, bind, Except.bind] at h
      | ok ts =>
          rw [hitems] at h
          obtain rfl := Except.ok.inj h
          simp [Text.of]
  | object fields =>
      rw [shown] at h
      cases hfields : shownFields fields with
      | error e => simp [hfields, bind, Except.bind] at h
      | ok ts =>
          rw [hfields] at h
          obtain rfl := Except.ok.inj h
          simp [Text.of]

/-- A value that counts as true is taken as a text that holds something. -/
theorem asText_ne_nil {v : Value} {t : Text} (hv : v.truthy = true) (h : v.asText = .ok t) : t ≠ [] := by
  cases v with
  | text u =>
      obtain rfl := Except.ok.inj h
      rintro rfl
      exact Bool.noConfusion hv
  | moment m =>
      obtain rfl := Except.ok.inj h
      exact m.text_ne_nil
  | null => exact shown_ne_nil h
  | bool b => exact shown_ne_nil h
  | int i => exact shown_ne_nil h
  | float x => exact shown_ne_nil h
  | list items => exact shown_ne_nil h
  | object fields => exact shown_ne_nil h

end Value

namespace Settings

/-! ### Settings as values -/

/-- Settings that were accepted have a path. -/
theorem path_ne_nil {v : Value} {c : Settings} (h : ofValue v = .ok c) : c.path ≠ [] := by
  rw [ofValue] at h
  cases hfields : v.fields with
  | error e => simp [hfields, bind, Except.bind] at h
  | ok fields =>
      rw [hfields] at h
      simp only [bind, Except.bind, ofFields] at h
      split at h
      next => cases h
      next htruthy =>
        rw [Bool.not_eq_true, Bool.not_eq_false'] at htruthy
        cases hpath : ((Value.lookup pathField fields).getD .null).asText with
        | error e => simp [hpath] at h
        | ok path =>
            simp only [hpath] at h
            split at h
            next => cases h
            next sequence _ =>
              split at h
              next => cases h
              next orientation _ =>
                obtain rfl := Except.ok.inj h
                exact Value.asText_ne_nil htruthy hpath

/-- Settings with a path are accepted as they are. -/
theorem ofValue_toValue {c : Settings} (h : c.path ≠ []) : ofValue c.toValue = .ok c := by
  obtain ⟨path, sequence, orientation, profile⟩ := c
  obtain ⟨p, path, rfl⟩ := List.exists_cons_of_ne_nil h
  cases sequence <;> cases orientation <;> rfl

/-! ### Settings as a document -/

/-- Without carriage returns every end of a line is a line feed already. -/
theorem withLineFeeds_of_printed {t : Text} (h : Yaml.Printed t) : withLineFeeds t = t := by
  induction t with
  | nil => rfl
  | cons p t ih =>
      obtain ⟨hp, ht⟩ := Yaml.printed_cons.mp h
      have hreturn : p.is '\r' = false := CodePoint.is_eq_false hp '\r' rfl
      rw [withLineFeeds.eq_def]
      simp [hreturn, ih ht]

/-- The fields of settings. -/
def entries (c : Settings) : List (Text × Yaml.Entry) :=
  [(pathField, .text c.path), (sequenceField, .text c.sequence.name),
    (orientationField, .text c.orientation.name), (profileField, .bool c.profile)]

theorem named_entries (c : Settings) : Yaml.Named c.entries := by
  have hpath : Yaml.IsName pathField := ⟨by decide, List.all_eq_true.mp rfl, by decide, rfl⟩
  have hsequence : Yaml.IsName sequenceField := ⟨by decide, List.all_eq_true.mp rfl, by decide, rfl⟩
  have horientation : Yaml.IsName orientationField :=
    ⟨by decide, List.all_eq_true.mp rfl, by decide, rfl⟩
  have hprofile : Yaml.IsName profileField := ⟨by decide, List.all_eq_true.mp rfl, by decide, rfl⟩
  simp [Yaml.Named, entries, hpath, hsequence, horientation, hprofile]

/-- A document of settings is read as the settings were as values. -/
theorem ofDocument_toDocument {c : Settings} (h : c.path ≠ []) : ofDocument c.toDocument = .ok c := by
  have hnames : (c.entries.map Prod.fst).Nodup := by
    show [pathField, sequenceField, orientationField, profileField].Nodup
    decide
  have hread : Yaml.read c.toDocument = .ok c.toValue :=
    Yaml.read_written c.named_entries (List.cons_ne_nil _ _) hnames
  have hprinted : Yaml.Printed c.toDocument := c.named_entries.printed
  rw [ofDocument, withLineFeeds_of_printed hprinted, hread]
  exact ofValue_toValue h

example : toDocument ⟨Text.of "007", .invariant, .sensitive, true⟩ =
    Text.of "path: '007'\nsequence_type: invariant\norientation_style: sensitive\nprofile: true\n" := by
  rfl

/-- What is written can be encoded, and is read from the bytes again. -/
theorem ofBytes_toDocument {c : Settings} (h : c.path ≠ []) :
    ∃ bytes, Utf8.encode c.toDocument = .ok bytes ∧ ofBytes bytes = .ok c := by
  have hprinted : Yaml.Printed c.toDocument := c.named_entries.printed
  have hencode : Utf8.encode c.toDocument = .ok (c.toDocument.flatMap Utf8.encodeOne) :=
    Utf8.encode_eq_ok_iff.mpr ⟨hprinted.plain, rfl⟩
  refine ⟨_, hencode, ?_⟩
  rw [ofBytes, Utf8.decode_eq_ok_iff.mpr hencode]
  exact ofDocument_toDocument h

/--
**Settings survive being written and read.**

Whatever values were accepted as settings, the settings are accepted again as values;
and their document can be encoded, whatever the path holds, and is read as the same
settings.
-/
theorem written_settings_are_read_again {v : Value} {c : Settings} (h : ofValue v = .ok c) :
    ofValue c.toValue = .ok c ∧
      ∃ bytes, Utf8.encode c.toDocument = .ok bytes ∧ ofBytes bytes = .ok c :=
  ⟨ofValue_toValue (path_ne_nil h), ofBytes_toDocument (path_ne_nil h)⟩

/-- A list is taken as a text, which is read as that text and not as a list. -/
theorem list_as_path_stays_text :
    ofValue (.object [(pathField, .list [.bool true])]) =
        .ok ⟨Text.of "[True]", .sensitive, .sensitive, false⟩ ∧
      ofValue (toValue ⟨Text.of "[True]", .sensitive, .sensitive, false⟩) =
        .ok ⟨Text.of "[True]", .sensitive, .sensitive, false⟩ ∧
      ∃ bytes, Utf8.encode (toDocument ⟨Text.of "[True]", .sensitive, .sensitive, false⟩) = .ok bytes ∧
        ofBytes bytes = .ok ⟨Text.of "[True]", .sensitive, .sensitive, false⟩ :=
  ⟨rfl, written_settings_are_read_again (v := .object [(pathField, .list [.bool true])]) rfl⟩

end Settings
end GestureStore
