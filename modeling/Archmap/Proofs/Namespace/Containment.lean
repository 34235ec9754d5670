import Mathlib.Data.List.Infix
import Archmap.Namespace.Containment

/-!
# Containment by segments

The test for containment works on texts: the child begins with the parent, and the parent ends where
a segment of the child ends. This says that the segments of the parent are the first segments of the
child (`namespaceContains_iff`). All that is known of beginnings of lists therefore holds of
namespaces; in particular, of two that contain a third, one contains the other.
-/

namespace Archmap

/-! ## Segments of a text, character by character -/

theorem splitDots_ne_nil (text : List Char) : splitDots text ≠ [] := by
  induction text with
  | nil => exact List.cons_ne_nil _ _
  | cons c cs ih =>
      rw [splitDots]
      split
      · exact List.cons_ne_nil _ _
      · simpa [List.modifyHead_eq_nil_iff] using ih

theorem splitDots_dot (text : List Char) : splitDots ('.' :: text) = [] :: splitDots text := by
  rw [splitDots, if_pos rfl]

/-- A character other than a dot joins the first segment of what follows it. -/
theorem splitDots_cons {c : Char} (hc : c ≠ '.') (text : List Char) :
    ∃ first others, splitDots text = first :: others
      ∧ splitDots (c :: text) = (c :: first) :: others := by
  obtain ⟨first, others, htext⟩ := List.exists_cons_of_ne_nil (splitDots_ne_nil text)
  exact ⟨first, others, htext, by rw [splitDots, if_neg hc, htext, List.modifyHead_cons]⟩

theorem splitDots_nil : splitDots [] = [[]] := rfl

theorem splitDots_nil_prefix_iff {text : List Char} :
    splitDots [] <+: splitDots text ↔ ∀ c ∈ text.head?, c = '.' := by
  cases text with
  | nil => simp [splitDots_nil]
  | cons c text =>
      by_cases hc : c = '.'
      · subst hc
        simp [splitDots_nil, splitDots_dot]
      · obtain ⟨first, others, -, hsplit⟩ := splitDots_cons hc text
        simp [splitDots_nil, hsplit, hc]

theorem not_splitDots_prefix_nil {c : Char} {text : List Char} :
    ¬splitDots (c :: text) <+: splitDots [] := by
  by_cases hc : c = '.'
  · subst hc
    simp [splitDots_nil, splitDots_dot, splitDots_ne_nil]
  · obtain ⟨first, others, -, hsplit⟩ := splitDots_cons hc text
    simp [splitDots_nil, hsplit]

theorem splitDots_cons_prefix_cons {c d : Char} {parent child : List Char} :
    splitDots (c :: parent) <+: splitDots (d :: child) ↔
      c = d ∧ splitDots parent <+: splitDots child := by
  by_cases hc : c = '.'
  · subst hc
    by_cases hd : d = '.'
    · subst hd
      simp [splitDots_dot]
    · obtain ⟨first, others, -, hsplit⟩ := splitDots_cons hd child
      simp [splitDots_dot, hsplit, Ne.symm hd]
  · obtain ⟨first, others, hparent, hsplit⟩ := splitDots_cons hc parent
    by_cases hd : d = '.'
    · subst hd
      simp [splitDots_dot, hsplit, hc]
    · obtain ⟨first', others', hchild, hsplit'⟩ := splitDots_cons hd child
      simp [hparent, hchild, hsplit, hsplit', and_assoc]

/-- The segments of a text begin with those of another iff the text begins with the other and goes
on, if it does, with a dot. -/
theorem splitDots_prefix_iff {parent child : List Char} :
    splitDots parent <+: splitDots child ↔
      ∃ rest, dropStart? parent child = some rest ∧ ∀ c ∈ rest.head?, c = '.' := by
  induction parent generalizing child with
  | nil => simp [splitDots_nil_prefix_iff, dropStart?]
  | cons c parent ih =>
      cases child with
      | nil => simp [not_splitDots_prefix_nil, dropStart?]
      | cons d child =>
          rw [splitDots_cons_prefix_cons, ih, dropStart?]
          by_cases hcd : c = d <;> simp [hcd]

/-! ## Namespaces -/

variable {parent child ns other : String}

theorem namespaceContains_iff :
    namespaceContains parent child = true ↔ segments parent <+: segments child := by
  rw [segments, segments,
    List.prefix_map_iff_of_injective fun _ _ h => String.ofList_injective h,
    splitDots_prefix_iff, namespaceContains]
  cases dropStart? parent.toList child.toList with
  | none => simp
  | some rest => cases rest <;> simp

theorem namespaceContains_self : namespaceContains ns ns = true :=
  namespaceContains_iff.mpr (List.prefix_refl _)

/-- Of two namespaces that contain a third, one contains the other. -/
theorem nested_of_contains (h : namespaceContains ns child = true)
    (h' : namespaceContains other child = true) :
    namespaceContains ns other = true ∨ namespaceContains other ns = true := by
  rw [namespaceContains_iff] at h h' ⊢
  rw [namespaceContains_iff]
  exact List.prefix_or_prefix_of_prefix h h'

end Archmap
