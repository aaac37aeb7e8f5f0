/-
Paths and their texts.

A path is written name by name, with slashes between.  Reading the text again gives the
names back if none of them is empty or a single dot and none holds a slash (`Sound`), and
that is how a path is that was read from a text itself.
-/
import GestureStore.Storage.Location
import Mathlib.Data.List.Basic

namespace GestureStore

/-! ### Pieces between separators -/

namespace Text

variable {separator : CodePoint}

theorem splitOn_of_notMem {t : Text} (h : separator ∉ t) : splitOn separator t = [t] := by
  induction t with
  | nil => rfl
  | cons c rest ih =>
      rw [List.mem_cons, not_or] at h
      have hne : ¬ (c == separator) = true := by simpa using Ne.symm h.1
      rw [splitOn, if_neg hne, ih h.2]

theorem splitOn_append {t : Text} (h : separator ∉ t) (rest : Text) :
    splitOn separator (t ++ separator :: rest) = t :: splitOn separator rest := by
  induction t with
  | nil => rw [List.nil_append, splitOn, if_pos (beq_self_eq_true separator)]
  | cons c t ih =>
      rw [List.mem_cons, not_or] at h
      have hne : ¬ (c == separator) = true := by simpa using Ne.symm h.1
      rw [List.cons_append, splitOn, if_neg hne, ih h.2]

/-- **Pieces without the separator are what joining them by it is split into.** -/
theorem splitOn_joinWith {ts : List Text} (h : ∀ t ∈ ts, separator ∉ t) (hne : ts ≠ []) :
    splitOn separator (joinWith [separator] ts) = ts := by
  induction ts with
  | nil => exact absurd rfl hne
  | cons t rest ih =>
      have ht := h t (by simp)
      cases rest with
      | nil => exact splitOn_of_notMem ht
      | cons u rest =>
          have hlater := ih (fun v hv => h v (List.mem_cons_of_mem _ hv)) (by simp)
          rw [joinWith, List.append_assoc, List.singleton_append, splitOn_append ht, hlater]
          · simp

theorem splitOn_replicate (n : Nat) (t : Text) :
    splitOn separator (List.replicate n separator ++ t)
      = List.replicate n [] ++ splitOn separator t := by
  induction n with
  | zero => rfl
  | succ n ih =>
      rw [List.replicate_succ, List.cons_append, splitOn, if_pos (beq_self_eq_true separator), ih]
      rfl

end Text

/-! ### Names of a path -/

namespace Location

/-- Names that can stand between slashes and say something there. -/
def Sound (l : Location) : Prop := ∀ name ∈ l.names, name ≠ [] ∧ name ≠ dot ∧ slash ∉ name

theorem Sound.expanded {l home : Location} (h : l.Sound) (hhome : home.Sound) :
    (l.expanded home).Sound := by
  unfold Location.expanded
  split
  · rename_i first rest _ hnames
    split
    · intro name hname
      rcases List.mem_append.mp hname with hname | hname
      · exact hhome name hname
      · exact h name (by rw [hnames]; exact List.mem_cons_of_mem _ hname)
    · exact h
  · exact h

/-- **A sound path has the names that are read off its text.** -/
theorem Sound.namesOf_text {l : Location} (h : l.Sound) : namesOf l.text = l.names := by
  have hslash : ∀ name ∈ l.names, slash ∉ name := fun name hname => (h name hname).2.2
  have hkept : l.names.filter (fun name => !(name.isEmpty || name == dot)) = l.names := by
    rw [List.filter_eq_self]
    intro name hname
    simp [(h name hname).1, (h name hname).2.1]
  have hempty : ∀ n : Nat,
      (List.replicate n ([] : Text)).filter (fun name => !(name.isEmpty || name == dot)) = [] := by
    intro n
    simp
  rw [text]
  by_cases hnames : l.names = []
  · by_cases hslashes : l.slashes = 0
    · rw [if_pos ⟨hslashes, hnames⟩, hnames]
      decide
    · rw [if_neg fun hboth => hslashes hboth.1, namesOf, Text.splitOn_replicate, hnames,
        List.filter_append, hempty]
      rfl
  · rw [if_neg fun hboth => hnames hboth.2, namesOf, Text.splitOn_replicate,
      Text.splitOn_joinWith hslash hnames, List.filter_append, hempty, hkept]
    rfl

/-- Without a name a path ends in a slash or a single dot. -/
theorem getLast?_splitOn_text {l : Location} (h : l.names = []) :
    (Text.splitOn slash l.text).getLast? = some dot ∨
      (Text.splitOn slash l.text).getLast? = some [] := by
  rw [text]
  by_cases hslashes : l.slashes = 0
  · rw [if_pos ⟨hslashes, h⟩]
    exact Or.inl (by decide)
  · rw [if_neg fun hboth => hslashes hboth.1, Text.splitOn_replicate, h]
    refine Or.inr ?_
    rw [List.getLast?_append]
    rfl

end Location
end GestureStore
