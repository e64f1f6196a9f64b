import Mathlib.Data.List.Perm.Basic

/-!
# Tables as lists

What is found in a list at an index after an entry was added at its end or replaced.
-/

namespace SecondScreen.Machine

variable {α β : Type*} {l : List α} {x y z : α} {i j : Nat}

/-- After an entry is added at the end, an entry is an old one or the new one. -/
theorem getElem?_concat_cases (h : (l ++ [y])[i]? = some x) :
    l[i]? = some x ∨ i = l.length ∧ x = y := by
  rcases Nat.lt_or_ge i l.length with hlt | hge
  · rw [List.getElem?_append_left hlt] at h
    exact .inl h
  · rw [List.getElem?_append_right hge, List.getElem?_singleton] at h
    split_ifs at h with hzero
    cases h
    exact .inr ⟨by omega, rfl⟩

/-- After an entry is replaced, an entry is the new one or an old one elsewhere. -/
theorem getElem?_set_cases (h : (l.set i y)[j]? = some x) :
    j = i ∧ x = y ∨ j ≠ i ∧ l[j]? = some x := by
  by_cases hj : j = i
  · subst hj
    rw [List.getElem?_set_self'] at h
    obtain ⟨-, -, rfl⟩ := Option.map_eq_some_iff.1 h
    exact .inl ⟨rfl, rfl⟩
  · rw [List.getElem?_set_ne (Ne.symm hj)] at h
    exact .inr ⟨hj, h⟩

theorem getElem?_set_of_some (hget : l[i]? = some x) : (l.set i y)[i]? = some y := by
  rw [List.getElem?_set_self', hget]
  rfl

/-- What an entry gives up is taken out of what all entries have. -/
theorem perm_flatMap_set {f : α → List β} {d : List β} (hget : l[i]? = some x)
    (hf : f x = d ++ f y) : (l.flatMap f).Perm (d ++ (l.set i y).flatMap f) := by
  induction l generalizing i with
  | nil => cases hget
  | cons z l ih =>
      cases i with
      | zero =>
          cases hget
          rw [List.flatMap_cons, hf, List.set_cons_zero, List.flatMap_cons, List.append_assoc]
      | succ i =>
          rw [List.flatMap_cons, List.set_cons_succ, List.flatMap_cons]
          exact ((ih hget).append_left _).trans (List.perm_append_comm_assoc _ _ _)

end SecondScreen.Machine
