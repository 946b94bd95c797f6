import JobLedger.Text.Blank
import Mathlib.Data.List.DropRight

/-!
# White space around a text

Trimming takes white space off both ends and leaves a text that begins and ends with something else. That is all
it does: a text with nothing to trim comes back from any white space put around it.
-/
namespace JobLedger.Text

/-- There is no white space at either end. -/
def IsTrimmed (s : String) : Prop := ∀ c, s.toList.head? = some c ∨ s.toList.getLast? = some c → isBlank c = false

private theorem trimChars_eq (cs : List Char) : trimChars cs = (cs.dropWhile isBlank).rdropWhile isBlank := rfl

theorem isTrimmed_trim (s : String) : IsTrimmed (trim s) := by
  intro c hc
  rw [toList_trim, trimChars_eq] at hc
  rcases hc with hhead | hlast
  · -- The text without the white space behind it begins as it did before.
    obtain ⟨rest, hrest⟩ := List.rdropWhile_prefix isBlank (s.toList.dropWhile isBlank)
    have hfront := List.head?_dropWhile_not isBlank s.toList
    rw [← hrest, List.head?_append, hhead] at hfront
    exact hfront
  · have hne := List.ne_nil_of_mem (List.mem_of_getLast? hlast)
    obtain rfl := Option.some.inj ((List.getLast?_eq_some_getLast hne).symm.trans hlast)
    exact Bool.eq_false_iff.mpr (List.rdropWhile_last_not isBlank _ hne)

theorem eq_trimChars_between (cs : List Char) : ∃ before behind, cs = before ++ trimChars cs ++ behind ∧
    (∀ c ∈ before, isBlank c = true) ∧ ∀ c ∈ behind, isBlank c = true := by
  refine ⟨cs.takeWhile isBlank, (cs.dropWhile isBlank).rtakeWhile isBlank, ?_, fun c hc => List.mem_takeWhile_imp hc,
    fun c hc => List.mem_rtakeWhile_imp hc⟩
  rw [trimChars_eq, List.append_assoc, List.rdropWhile_append_rtakeWhile, List.takeWhile_append_dropWhile]

private theorem trimStart_append {before cs : List Char} (hbefore : ∀ c ∈ before, isBlank c = true)
    (hhead : ∀ c, cs.head? = some c → isBlank c = false) : trimStart (before ++ cs) = cs := by
  rw [trimStart, List.dropWhile_append_of_pos hbefore]
  cases cs with
  | nil => rfl
  | cons c cs => exact trimStart_of_head (hhead c rfl)

theorem trimChars_between {before cs behind : List Char} (hbefore : ∀ c ∈ before, isBlank c = true)
    (hbehind : ∀ c ∈ behind, isBlank c = true)
    (hends : ∀ c, cs.head? = some c ∨ cs.getLast? = some c → isBlank c = false) :
    trimChars (before ++ cs ++ behind) = cs := by
  have hreverse : ∀ c ∈ behind.reverse, isBlank c = true := fun c hc => hbehind c (List.mem_reverse.1 hc)
  have hlast : ∀ c, cs.reverse.head? = some c → isBlank c = false :=
    fun c hc => hends c (.inr (List.head?_reverse ▸ hc))
  cases hcs : cs with
  | nil =>
    have hall : ∀ c ∈ before ++ [] ++ behind, isBlank c = true := by simpa [or_imp, forall_and] using ⟨hbefore, hbehind⟩
    rw [trimChars, ← List.append_nil (before ++ [] ++ behind), trimStart_append hall (by simp)]
    rfl
  | cons c rest =>
    rw [← hcs]
    have hfront : ∀ d, (cs ++ behind).head? = some d → isBlank d = false := by
      intro d hd
      rw [hcs] at hd
      exact hends d (.inl (hcs ▸ hd))
    rw [trimChars, List.append_assoc, trimStart_append hbefore hfront, List.reverse_append,
      trimStart_append hreverse hlast, List.reverse_reverse]

end JobLedger.Text
