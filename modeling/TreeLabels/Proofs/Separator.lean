/-
Cuts in lists.  Two lists put together can be taken apart again if there is a
separator between them that stays out of one of the two.
-/

namespace TreeLabels

universe u

/-- An element of two lists put together stands in one of them. -/
theorem split_append {α : Type u} {first second before after : List α} {a : α}
    (happend : first ++ second = before ++ a :: after) :
    (∃ between, before = first ++ between ∧ second = between ++ a :: after) ∨
      ∃ between, first = before ++ a :: between ∧
        after = between ++ second := by
  rcases List.append_eq_append_iff.mp happend with
    hsecond | ⟨between, hfirst, htail⟩
  · exact Or.inl hsecond
  · cases between with
    | nil =>
        rw [List.append_nil] at hfirst
        exact Or.inl ⟨[], by rw [hfirst, List.append_nil], htail.symm⟩
    | cons head between =>
        rw [List.cons_append, List.cons.injEq] at htail
        obtain ⟨rfl, hafter⟩ := htail
        exact Or.inr ⟨between, hfirst, hafter⟩

/-- A separator that stays out of the parts behind it marks the same cut in
equal lists, whatever stands before it. -/
theorem last_separator_inj {α : Type u} {separator : α}
    {left left' right right' : List α} (hright : separator ∉ right)
    (hright' : separator ∉ right')
    (heq : left ++ separator :: right = left' ++ separator :: right') :
    left = left' ∧ right = right' := by
  rcases split_append heq with ⟨between, hleft, htail⟩ | ⟨between, _, htail⟩
  · cases between with
    | nil =>
        rw [List.append_nil] at hleft
        exact ⟨hleft.symm, (List.cons.inj htail).2⟩
    | cons first rest =>
        have hmem : separator ∈ right := by
          rw [(List.cons.inj htail).2]
          exact List.mem_append_right rest List.mem_cons_self
        exact absurd hmem hright
  · have hmem : separator ∈ right' := by
      rw [htail]
      exact List.mem_append_right between List.mem_cons_self
    exact absurd hmem hright'

/-- A separator that stays out of the parts before it marks the same cut in equal
lists, whatever stands behind it. -/
theorem first_separator_inj {α : Type u} {separator : α}
    {left left' right right' : List α} (hleft : separator ∉ left)
    (hleft' : separator ∉ left')
    (heq : left ++ separator :: right = left' ++ separator :: right') :
    left = left' ∧ right = right' := by
  rcases split_append heq with ⟨between, hbefore, htail⟩ | ⟨between, hbefore, _⟩
  · cases between with
    | nil =>
        rw [List.append_nil] at hbefore
        exact ⟨hbefore.symm, (List.cons.inj htail).2⟩
    | cons first rest =>
        have hmem : separator ∈ left' := by
          rw [hbefore, (List.cons.inj htail).1]
          exact List.mem_append_right left List.mem_cons_self
        exact absurd hmem hleft'
  · have hmem : separator ∈ left := by
      rw [hbefore]
      exact List.mem_append_right left' List.mem_cons_self
    exact absurd hmem hleft

end TreeLabels
