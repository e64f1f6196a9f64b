import Mathlib.Data.List.Destutter

/-!
# Sending only changes

A reporter sees values one after another and sends a value only if it is not the one that
it sent last.  What it has sent is what it has seen, less the repetitions.
-/

namespace SecondScreen.Conc

variable {α : Type} [DecidableEq α]

/-- What a reporter has seen and sent. -/
structure Reporter (α : Type) where
  seen : List α := []
  sent : List α := []

/-- The reporter sees a value. -/
def Reporter.report (r : Reporter α) (a : α) : Reporter α where
  seen := r.seen ++ [a]
  sent := if r.sent.getLast? = some a then r.sent else r.sent ++ [a]

/-- A value seen last is kept if it is not the one before it. -/
theorem destutter'_concat (a b : α) (l : List α) :
    (l ++ [b]).destutter' (· ≠ ·) a =
      if (a :: l).getLast? = some b then l.destutter' (· ≠ ·) a
      else l.destutter' (· ≠ ·) a ++ [b] := by
  induction l generalizing a with
  | nil =>
      show (if a ≠ b then [a, b] else [a]) = if some a = some b then [a] else [a] ++ [b]
      by_cases hab : a = b
      · rw [if_neg (not_not.2 hab), if_pos (congrArg some hab)]
      · rw [if_pos hab, if_neg (fun h ↦ hab (Option.some.inj h))]
        rfl
  | cons c l ih =>
      rw [List.cons_append, List.getLast?_cons_cons]
      by_cases hac : a ≠ c
      · rw [List.destutter'_cons_pos _ hac, List.destutter'_cons_pos _ hac, ih]
        split_ifs <;> rfl
      · rw [List.destutter'_cons_neg _ hac, List.destutter'_cons_neg _ hac, ih,
          not_not.1 hac]

theorem destutter_concat (l : List α) (b : α) :
    (l ++ [b]).destutter (· ≠ ·) =
      if l.getLast? = some b then l.destutter (· ≠ ·) else l.destutter (· ≠ ·) ++ [b] := by
  cases l with
  | nil => rfl
  | cons a l => exact destutter'_concat a b l

/-- The last value that is kept is the last one. -/
theorem getLast?_destutter (l : List α) : (l.destutter (· ≠ ·)).getLast? = l.getLast? := by
  induction l using List.reverseRecOn with
  | nil => rfl
  | append_singleton l b ih =>
      rw [destutter_concat]
      split_ifs with hlast
      · rw [ih, hlast, List.getLast?_concat]
      · rw [List.getLast?_concat, List.getLast?_concat]

/-- The reporter has sent what it has seen, less the repetitions. -/
def Reporter.Faithful (r : Reporter α) : Prop :=
  r.sent = r.seen.destutter (· ≠ ·)

namespace Reporter

variable {r : Reporter α}

theorem Faithful.initial : Faithful ({} : Reporter α) := rfl

/-- The last value sent is the last one seen. -/
theorem Faithful.getLast? (h : r.Faithful) : r.sent.getLast? = r.seen.getLast? := by
  rw [h, getLast?_destutter]

theorem Faithful.report (h : r.Faithful) (a : α) : (r.report a).Faithful := by
  show (if r.sent.getLast? = some a then r.sent else r.sent ++ [a]) =
    (r.seen ++ [a]).destutter (· ≠ ·)
  rw [h.getLast?, destutter_concat, h]

end Reporter

end SecondScreen.Conc
