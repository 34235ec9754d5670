import Mathlib.Data.List.Induction
import Mathlib.Data.List.TakeWhile
import Mathlib.Data.Nat.Digits.Defs
import Archmap.Naming.Pattern

/-!
# Placeholders

What is written behind a dollar sign decides whether it begins a placeholder. There are three forms
(`Begins`): an at sign; a number in braces; a number that is followed by no further digit. A number
is a run of decimal digits for less than `2 ^ 64`. A dollar sign in front of anything else stands for
itself, as every other character does (`Plain`).

The three forms exclude each other, and none has a dollar sign inside. So reading from the front
never has a choice (`Begins.unique`) and never passes over a dollar sign that it has not looked at
(`Begins.exists_taken`).
-/

namespace Archmap

namespace NamingPattern

variable {digits behind back back' rest : List Char} {segment segment' : NamingSegment}
  {n width : Nat} {c : Char}

/-! ## Numbers -/

/-- The number that decimal digits denote, the first of them the highest. -/
def number (digits : List Char) : Nat :=
  Nat.ofDigits 10 (digits.map fun d => d.toNat - '0'.toNat).reverse

/-- A run of decimal digits that denotes a number of 64 bits. -/
structure IsNumber (digits : List Char) : Prop where
  ne_nil : digits ≠ []
  isDigit : ∀ d ∈ digits, d.isDigit = true
  fits : number digits < 2 ^ 64

theorem foldl_digits (digits : List Char) :
    digits.foldl (fun n d => 10 * n + (d.toNat - 48)) 0 = number digits := by
  induction digits using List.reverseRecOn with
  | nil => rfl
  | append_singleton digits d ih =>
      rw [List.foldl_append, ih, number, number, List.map_append, List.reverse_append]
      simp only [List.foldl_cons, List.foldl_nil, List.map_cons, List.map_nil,
        List.reverse_singleton, List.singleton_append, Nat.ofDigits_cons]
      exact Nat.add_comm _ _

theorem index?_eq_some_iff : index? digits = some n ↔ IsNumber digits ∧ n = number digits := by
  unfold index?
  rw [foldl_digits]
  constructor
  · intro h
    split at h
    · cases h
    · rename_i hdigits
      simp only [Bool.or_eq_true, Bool.not_eq_true', not_or, List.isEmpty_iff,
        Bool.not_eq_false, List.all_eq_true] at hdigits
      dsimp only at h
      split at h
      · rename_i hfits
        exact ⟨⟨hdigits.1, hdigits.2, hfits⟩, (Option.some.inj h).symm⟩
      · cases h
  · rintro ⟨⟨hne, hdigits, hfits⟩, rfl⟩
    have hsome : ¬(digits.isEmpty || !digits.all Char.isDigit) = true := by
      simpa [hne] using hdigits
    rw [if_neg hsome]
    exact if_pos hfits

/-! ## What follows the dollar sign -/

/-- The text `behind` a dollar sign completes a placeholder, and `back` is left behind it. -/
inductive Begins : (behind : List Char) → NamingSegment → (back : List Char) → Prop
  | joined {back : List Char} : Begins ('@' :: back) .joined back
  | braced {digits back : List Char} (h : IsNumber digits) :
      Begins ('{' :: (digits ++ '}' :: back))
        (.part (number digits) (String.ofList ('$' :: '{' :: (digits ++ ['}'])))) back
  | bare {digits back : List Char} (h : IsNumber digits)
      (hend : ∀ c ∈ back.head?, c.isDigit = false) :
      Begins (digits ++ back) (.part (number digits) (String.ofList ('$' :: digits))) back

/-- The character stands for itself in front of `rest`: it is no dollar sign, or one that begins no
placeholder. -/
def Plain (c : Char) (rest : List Char) : Prop :=
  c = '$' → ∀ segment back, ¬Begins rest segment back

/-! ## Where a run ends -/

theorem takeWhile_run {p : Char → Bool} {front : List Char} (hfront : ∀ c ∈ front, p c = true)
    (hend : ∀ c ∈ back.head?, p c = false) : (front ++ back).takeWhile p = front := by
  rw [List.takeWhile_append_of_pos hfront]
  cases back with
  | nil => rw [List.takeWhile_nil, List.append_nil]
  | cons c back =>
      rw [List.takeWhile_cons_of_neg (by simp [hend c rfl]), List.append_nil]

/-- Every text begins with a run that goes as far as it can. -/
theorem exists_run (p : Char → Bool) (text : List Char) :
    ∃ front back, text = front ++ back ∧ (∀ c ∈ front, p c = true)
      ∧ ∀ c ∈ back.head?, p c = false := by
  refine ⟨text.takeWhile p, text.dropWhile p, List.takeWhile_append_dropWhile.symm,
    fun c hc => List.mem_takeWhile_imp hc, fun c hc => ?_⟩
  have hnot := List.head?_dropWhile_not p text
  rw [Option.mem_def.mp hc] at hnot
  exact hnot

theorem takeWhile_braced (hclosed : '}' ∉ digits) :
    (digits ++ '}' :: back).takeWhile (· ≠ '}') = digits := by
  refine takeWhile_run (fun c hc => decide_eq_true ?_) fun c hc => ?_
  · rintro rfl
    exact hclosed hc
  · cases hc
    rfl

/-! ## What the scanner takes -/

theorem placeholder?_braced (hclosed : '}' ∉ digits) :
    placeholder? ('{' :: (digits ++ '}' :: back))
      = (index? digits).map fun n =>
          (.part n (String.ofList ('$' :: '{' :: (digits ++ ['}']))), digits.length + 2) := by
  have htake : (digits ++ '}' :: back).take (digits.length + 1) = digits ++ ['}'] := by
    rw [List.append_cons]
    exact List.take_left' (by simp)
  simp only [placeholder?, takeWhile_braced hclosed, List.take_succ_cons, htake]
  exact if_pos (by simp)

theorem placeholder?_bare (hdigits : ∀ d ∈ digits, d.isDigit = true)
    (hend : ∀ c ∈ back.head?, c.isDigit = false) (hat : (digits ++ back).head? ≠ some '@')
    (hbrace : (digits ++ back).head? ≠ some '{') :
    placeholder? (digits ++ back)
      = (index? digits).map fun n => (.part n (String.ofList ('$' :: digits)), digits.length) := by
  have hrun := takeWhile_run hdigits hend
  unfold placeholder?
  split
  · rename_i heq
    exact absurd (congrArg List.head? heq) hat
  · rename_i heq
    exact absurd (congrArg List.head? heq) hbrace
  · simp only [hrun]

/-- The scanner takes just the placeholders. -/
theorem begins_iff : Begins behind segment back ↔
    ∃ width, placeholder? behind = some (segment, width) ∧ behind.drop width = back := by
  constructor
  · intro h
    cases h with
    | joined => exact ⟨1, rfl, rfl⟩
    | @braced digits _ h =>
        have hclosed : '}' ∉ digits := fun hmem => absurd (h.isDigit _ hmem) (by decide)
        refine ⟨digits.length + 2, ?_, by simp⟩
        rw [placeholder?_braced hclosed, index?_eq_some_iff.mpr ⟨h, rfl⟩, Option.map_some]
    | @bare digits _ h hend =>
        obtain ⟨d, ds, hcons⟩ := List.exists_cons_of_ne_nil h.ne_nil
        have hd : d.isDigit = true := h.isDigit d (hcons ▸ List.mem_cons_self)
        have hhead : (digits ++ back).head? = some d := by rw [hcons, List.cons_append, List.head?_cons]
        refine ⟨digits.length, ?_, List.drop_left⟩
        rw [placeholder?_bare h.isDigit hend, index?_eq_some_iff.mpr ⟨h, rfl⟩, Option.map_some]
        · rw [hhead]
          rintro ⟨⟩
          exact absurd hd (by decide)
        · rw [hhead]
          rintro ⟨⟩
          exact absurd hd (by decide)
  · rintro ⟨width, h, rfl⟩
    by_cases hat : behind.head? = some '@'
    · obtain ⟨back, rfl⟩ := List.head?_eq_some_iff.mp hat
      cases h
      exact .joined
    by_cases hbrace : behind.head? = some '{'
    · obtain ⟨inner, rfl⟩ := List.head?_eq_some_iff.mp hbrace
      by_cases hclosed : '}' ∈ inner
      · obtain ⟨digits, back, rfl, hfirst⟩ := List.eq_append_cons_of_mem hclosed
        rw [placeholder?_braced hfirst, Option.map_eq_some_iff] at h
        obtain ⟨n, hn, heq⟩ := h
        cases heq
        obtain ⟨hnumber, rfl⟩ := index?_eq_some_iff.mp hn
        simpa using Begins.braced hnumber
      · simp [placeholder?, hclosed] at h
    · obtain ⟨digits, back, rfl, hdigits, hend⟩ := exists_run Char.isDigit behind
      rw [placeholder?_bare hdigits hend hat hbrace, Option.map_eq_some_iff] at h
      obtain ⟨n, hn, heq⟩ := h
      cases heq
      obtain ⟨hnumber, rfl⟩ := index?_eq_some_iff.mp hn
      rw [List.drop_left]
      exact .bare hnumber hend

/-! ## One way to read -/

theorem Begins.unique (h : Begins behind segment back) (h' : Begins behind segment' back') :
    segment = segment' ∧ back = back' := by
  obtain ⟨width, hfound, rfl⟩ := begins_iff.mp h
  obtain ⟨width', hfound', rfl⟩ := begins_iff.mp h'
  cases hfound.symm.trans hfound'
  exact ⟨rfl, rfl⟩

/-- A placeholder takes the text as it is written, and no second dollar sign. -/
theorem Begins.exists_taken (h : Begins behind segment back) :
    ∃ taken, segment.source.toList = '$' :: taken ∧ behind = taken ++ back ∧ '$' ∉ taken := by
  have hdollar : ∀ {digits : List Char}, IsNumber digits → '$' ∉ digits :=
    fun hnumber hmem => absurd (hnumber.isDigit _ hmem) (by decide)
  cases h with
  | joined => exact ⟨['@'], rfl, rfl, by decide⟩
  | @braced digits _ h =>
      exact ⟨'{' :: (digits ++ ['}']), String.toList_ofList, by simp, by simp [hdollar h]⟩
  | @bare digits _ h _ => exact ⟨digits, String.toList_ofList, rfl, hdollar h⟩

end NamingPattern

end Archmap
