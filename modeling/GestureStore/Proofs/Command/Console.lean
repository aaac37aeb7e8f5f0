/-
What a job comes to when nothing stops it.

`Job.Ends` follows a job step by step from console to console, with the value that each
step hands to the next.  A line that can be encoded never stops a job, and clearing a
line of terminal sequences only leaves out some of it, so it cannot make a line any
worse.
-/
import GestureStore.Command.Console
import GestureStore.Proofs.Text.Utf8

namespace GestureStore
namespace Job

/-- The job comes to its end with a value, and to a console. -/
def Ends (job : Job α) (c : Console) (a : α) (c' : Console) : Prop := job.run c = (.ok a, c')

theorem ends_pure (a : α) (c : Console) : (pure a : Job α).Ends c a c := rfl

theorem Ends.bind {job : Job α} {next : α → Job β} {c c' c'' : Console} {a : α} {b : β}
    (h : job.Ends c a c') (hnext : (next a).Ends c' b c'') : (job >>= next).Ends c b c'' := by
  show (job.run >>= ExceptT.bindCont next) c = _
  show ExceptT.bindCont next (job.run c).1 (job.run c).2 = _
  rw [h]
  exact hnext

theorem ends_orEnd {outcome : Except Fault α} {a : α} (h : outcome = .ok a) (c : Console) :
    (orEnd outcome).Ends c a c := by
  rw [h]
  rfl

theorem ends_disk (c : Console) : disk.Ends c c.disk c := rfl

/-! ### Lines -/

/-- What a reader of terminal sequences has read without having shown it. -/
def Sequencing.held : Sequencing → Text
  | .text => []
  | .escape => [escapePoint]
  | .inside sofar => sofar.reverse

/-- Clearing shows nothing that was not read. -/
theorem mem_of_mem_clearedFrom {s : Sequencing} {t : Text} {p : CodePoint}
    (h : p ∈ clearedFrom s t) : p ∈ s.held ++ t := by
  -- In each step what is read is shown, held back or left out.
  fun_induction clearedFrom s t <;> simp_all [Sequencing.held] <;> grind

theorem plain_cleared {t : Text} (h : t.Plain) : (cleared t).Plain :=
  h.subset fun _ hp => mem_of_mem_clearedFrom hp

/-- What a line leaves on the screen. -/
def spoken (line : Text) : Text := cleared line ++ Text.of "\n"

/-- A line that can be encoded is written. -/
theorem ends_say {line : Text} (h : line.Plain) (c : Console) :
    (say line).Ends c () { c with out := c.out ++ spoken line } := by
  have hnone : Utf8.firstSurrogates (cleared line) = none :=
    Utf8.firstSurrogates_eq_none_iff.mpr (plain_cleared h)
  rw [Ends, say, hnone, spoken, ← List.append_assoc]
  rfl

/-- **Lines that can be encoded are all written, one after the other.** -/
theorem ends_forM_say {f : α → Text} {as : List α} (h : ∀ a ∈ as, (f a).Plain) :
    ∀ c : Console, (as.forM fun a => say (f a)).Ends c ()
      { c with out := c.out ++ as.flatMap fun a => spoken (f a) } := by
  induction as with
  | nil =>
      intro c
      rw [List.flatMap_nil, List.append_nil]
      exact ends_pure () c
  | cons a rest ih =>
      intro c
      rw [List.flatMap_cons, ← List.append_assoc]
      exact (ends_say (h a (by simp)) c).bind (ih (fun b hb => h b (by simp [hb])) _)

end Job
end GestureStore
