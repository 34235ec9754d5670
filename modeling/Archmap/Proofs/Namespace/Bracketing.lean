import Mathlib.Data.List.Basic

/-!
# Bracketing

Signs open and close groups. They are balanced if none closes a group that is not open, that is,
if nowhere more groups have been closed than opened, and if in the end as many have been closed as
opened. Signs that are not balanced either have a first one that closes no open group, or they leave
groups open, and then one of these was opened last.

The number of open groups is followed from sign to sign (`depth?`), which is how both the characters
of a text and the tokens that they stand for are looked at.
-/

namespace Archmap

/-- What a sign does to the groups. -/
inductive GroupSign where
  | opening
  | closing
  | plain
  deriving DecidableEq

namespace GroupSign

variable {α : Type} (kind : α → GroupSign)

def opened (signs : List α) : Nat := signs.countP fun sign => kind sign = opening

def closed (signs : List α) : Nat := signs.countP fun sign => kind sign = closing

/-- No sign closes a group that is not open. -/
def NeverUnopened (signs : List α) : Prop :=
  ∀ front, front <+: signs → closed kind front ≤ opened kind front

def Balanced (signs : List α) : Prop :=
  NeverUnopened kind signs ∧ closed kind signs = opened kind signs

/-- How many groups are open behind the signs, if so many are in front of them; `none` if a sign
closes a group that is not open. -/
def depth? : Nat → List α → Option Nat
  | depth, [] => some depth
  | depth, sign :: signs =>
    match kind sign, depth with
    | opening, depth => depth? (depth + 1) signs
    | closing, 0 => none
    | closing, depth + 1 => depth? depth signs
    | plain, depth => depth? depth signs

variable {kind} {depth : Nat} {sign : α} {signs others : List α}

/-! ## Sign by sign -/

theorem depth?_opening (h : kind sign = opening) :
    depth? kind depth (sign :: signs) = depth? kind (depth + 1) signs := by
  simp only [depth?, h]

theorem depth?_closing_zero (h : kind sign = closing) :
    depth? kind 0 (sign :: signs) = none := by
  simp only [depth?, h]

theorem depth?_closing_succ (h : kind sign = closing) :
    depth? kind (depth + 1) (sign :: signs) = depth? kind depth signs := by
  simp only [depth?, h]

theorem depth?_plain (h : kind sign = plain) :
    depth? kind depth (sign :: signs) = depth? kind depth signs := by
  simp only [depth?, h]

theorem depth?_plain_append (h : ∀ sign ∈ signs, kind sign = plain) :
    depth? kind depth (signs ++ others) = depth? kind depth others := by
  induction signs with
  | nil => rfl
  | cons sign signs ih =>
      obtain ⟨hsign, hsigns⟩ := List.forall_mem_cons.mp h
      rw [List.cons_append, depth?_plain hsign, ih hsigns]

theorem depth?_append :
    depth? kind depth (signs ++ others)
      = (depth? kind depth signs).bind (depth? kind · others) := by
  induction signs generalizing depth with
  | nil => rfl
  | cons sign signs ih =>
      rw [List.cons_append]
      cases h : kind sign with
      | opening => rw [depth?_opening h, depth?_opening h, ih]
      | plain => rw [depth?_plain h, depth?_plain h, ih]
      | closing =>
          cases depth with
          | zero => rw [depth?_closing_zero h, depth?_closing_zero h, Option.bind_none]
          | succ depth => rw [depth?_closing_succ h, depth?_closing_succ h, ih]

/-- Groups that are open in front stay open below. -/
theorem depth?_add {less : Nat} (h : depth? kind less signs = some depth) (more : Nat) :
    depth? kind (less + more) signs = some (depth + more) := by
  induction signs generalizing less with
  | nil =>
      cases h
      rfl
  | cons sign signs ih =>
      cases hkind : kind sign with
      | opening =>
          rw [depth?_opening hkind] at h ⊢
          rw [Nat.add_right_comm]
          exact ih h
      | plain =>
          rw [depth?_plain hkind] at h ⊢
          exact ih h
      | closing =>
          cases less with
          | zero => rw [depth?_closing_zero hkind] at h; cases h
          | succ less =>
              rw [depth?_closing_succ hkind] at h
              rw [Nat.add_right_comm, depth?_closing_succ hkind]
              exact ih h

/-! ## Counting -/

theorem forall_prefix_cons {p : List α → Prop} :
    (∀ front, front <+: sign :: signs → p front) ↔
      p [] ∧ ∀ front, front <+: signs → p (sign :: front) := by
  simp only [List.prefix_cons_iff]
  constructor
  · exact fun h => ⟨h [] (Or.inl rfl), fun front hfront => h _ (Or.inr ⟨front, rfl, hfront⟩)⟩
  · rintro ⟨hnil, hcons⟩ front (rfl | ⟨front, rfl, hfront⟩)
    · exact hnil
    · exact hcons front hfront

/-- The depth behind the signs in numbers of brackets. -/
theorem depth?_eq_some_iff {behind : Nat} :
    depth? kind depth signs = some behind ↔
      (∀ front, front <+: signs → closed kind front ≤ depth + opened kind front)
        ∧ closed kind signs + behind = depth + opened kind signs := by
  have hnil : closed kind [] = 0 ∧ opened kind [] = 0 := ⟨rfl, rfl⟩
  induction signs generalizing depth with
  | nil =>
      simp only [depth?, Option.some.injEq, List.prefix_nil, forall_eq, hnil]
      omega
  | cons sign signs ih =>
      rw [forall_prefix_cons, hnil.1, hnil.2]
      cases h : kind sign with
      | opening =>
          have hstep : ∀ front, closed kind (sign :: front) = closed kind front
              ∧ opened kind (sign :: front) = opened kind front + 1 :=
            fun front => by simp [closed, opened, h]
          simp only [depth?_opening h, ih, hstep, Nat.zero_le, true_and]
          refine and_congr (forall_congr' fun front => imp_congr Iff.rfl ?_) ?_ <;> omega
      | plain =>
          have hstep : ∀ front, closed kind (sign :: front) = closed kind front
              ∧ opened kind (sign :: front) = opened kind front :=
            fun front => by simp [closed, opened, h]
          simp only [depth?_plain h, ih, hstep, Nat.zero_le, true_and]
      | closing =>
          have hstep : ∀ front, closed kind (sign :: front) = closed kind front + 1
              ∧ opened kind (sign :: front) = opened kind front :=
            fun front => by simp [closed, opened, h]
          simp only [hstep, Nat.zero_le, true_and]
          cases depth with
          | zero =>
              -- the sign itself is a front with more closed than opened
              rw [depth?_closing_zero h]
              refine iff_of_false (fun h => by cases h) fun hcounts => ?_
              have := hcounts.1 [] List.nil_prefix
              omega
          | succ depth =>
              rw [depth?_closing_succ h]
              refine ih.trans (and_congr (forall_congr' fun front => imp_congr Iff.rfl ?_) ?_)
                <;> omega

theorem neverUnopened_iff :
    NeverUnopened kind signs ↔ ∃ behind, depth? kind 0 signs = some behind := by
  simp only [depth?_eq_some_iff, Nat.zero_add, NeverUnopened]
  refine ⟨fun h => ?_, fun ⟨_, h, _⟩ => h⟩
  have := h signs (List.prefix_refl signs)
  exact ⟨opened kind signs - closed kind signs, h, by omega⟩

theorem balanced_iff : Balanced kind signs ↔ depth? kind 0 signs = some 0 := by
  rw [depth?_eq_some_iff]
  simp only [Nat.zero_add, Nat.add_zero, Balanced, NeverUnopened]

/-! ## Where the bracketing fails -/

theorem exists_unopened (h : depth? kind depth signs = none) :
    ∃ front sign back, signs = front ++ sign :: back ∧ kind sign = closing
      ∧ depth? kind depth front = some 0 := by
  induction signs generalizing depth with
  | nil => cases h
  | cons sign signs ih =>
      cases hkind : kind sign with
      | opening =>
          rw [depth?_opening hkind] at h
          obtain ⟨front, a, back, rfl, ha, hfront⟩ := ih h
          exact ⟨sign :: front, a, back, rfl, ha, (depth?_opening hkind).trans hfront⟩
      | plain =>
          rw [depth?_plain hkind] at h
          obtain ⟨front, a, back, rfl, ha, hfront⟩ := ih h
          exact ⟨sign :: front, a, back, rfl, ha, (depth?_plain hkind).trans hfront⟩
      | closing =>
          cases depth with
          | zero => exact ⟨[], sign, signs, rfl, hkind, rfl⟩
          | succ depth =>
              rw [depth?_closing_succ hkind] at h
              obtain ⟨front, a, back, rfl, ha, hfront⟩ := ih h
              exact ⟨sign :: front, a, back, rfl, ha, (depth?_closing_succ hkind).trans hfront⟩

/-- If groups are left open, behind the one opened last all groups are closed. -/
theorem exists_unclosed (h : depth? kind 0 signs = some (depth + 1)) :
    ∃ front sign back, signs = front ++ sign :: back ∧ kind sign = opening
      ∧ depth? kind 0 front = some depth ∧ depth? kind 0 back = some 0 := by
  -- over the length, from the end: a closing sign is paired with the group opened last in front
  -- of it, and the search goes on in front of that
  induction hlength : signs.length using Nat.strongRecOn generalizing signs depth with
  | _ length ih =>
      rcases List.eq_nil_or_concat signs with rfl | ⟨init, sign, rfl⟩
      · cases h
      · rw [List.concat_eq_append] at h hlength ⊢
        rw [List.length_append, List.length_singleton] at hlength
        rw [depth?_append, Option.bind_eq_some_iff] at h
        obtain ⟨before, hinit, hsign⟩ := h
        cases hkind : kind sign with
        | opening =>
            rw [depth?_opening hkind] at hsign
            cases hsign
            exact ⟨init, sign, [], rfl, hkind, hinit, rfl⟩
        | plain =>
            rw [depth?_plain hkind] at hsign
            cases hsign
            obtain ⟨front, a, back, rfl, ha, hfront, hback⟩ :=
              ih init.length (by omega) hinit rfl
            refine ⟨front, a, back ++ [sign], by simp, ha, hfront, ?_⟩
            rw [depth?_append, hback]
            exact depth?_plain hkind
        | closing =>
            cases before with
            | zero => rw [depth?_closing_zero hkind] at hsign; cases hsign
            | succ before =>
                rw [depth?_closing_succ hkind] at hsign
                cases hsign
                obtain ⟨front, a, back, rfl, ha, hfront, hback⟩ :=
                  ih init.length (by omega) hinit rfl
                rw [List.length_append, List.length_cons] at hlength
                obtain ⟨front, a', back', rfl, ha', hfront, hback'⟩ :=
                  ih front.length (by omega) hfront rfl
                refine ⟨front, a', back' ++ a :: (back ++ [sign]), by simp, ha', hfront, ?_⟩
                have hclosed : depth? kind 1 (back ++ [sign]) = some 0 := by
                  rw [depth?_append, depth?_add hback 1]
                  exact depth?_closing_succ hkind
                rw [depth?_append, hback']
                exact (depth?_opening ha).trans hclosed

/-! ## Groups in balanced signs -/

/-- Balanced signs, group by group. -/
inductive Nested (kind : α → GroupSign) : List α → Prop
  | nil : Nested kind []
  | plain {sign : α} {signs : List α} (hsign : kind sign = plain) (h : Nested kind signs) :
    Nested kind (sign :: signs)
  | group {sign sign' : α} {inner signs : List α} (hopening : kind sign = opening)
    (hclosing : kind sign' = closing) (hinner : Nested kind inner) (h : Nested kind signs) :
    Nested kind (sign :: inner ++ sign' :: signs)

/-- A group that is open is closed by some sign, between signs that are balanced. -/
theorem exists_closing (h : depth? kind 1 signs = some 0) :
    ∃ inner sign back, signs = inner ++ sign :: back ∧ kind sign = closing
      ∧ depth? kind 0 inner = some 0 ∧ depth? kind 0 back = some 0 := by
  have hnone : depth? kind 0 signs = none := by
    cases hdepth : depth? kind 0 signs with
    | none => rfl
    | some depth =>
        have hmore := depth?_add hdepth 1
        rw [Nat.zero_add, h] at hmore
        cases hmore
  obtain ⟨inner, sign, back, rfl, hsign, hinner⟩ := exists_unopened hnone
  refine ⟨inner, sign, back, rfl, hsign, hinner, ?_⟩
  rw [depth?_append, depth?_add hinner 1, Option.bind_some, depth?_closing_succ hsign] at h
  exact h

theorem nested_of_depth? (h : depth? kind 0 signs = some 0) : Nested kind signs := by
  induction hlength : signs.length using Nat.strongRecOn generalizing signs with
  | _ length ih =>
      cases signs with
      | nil => exact .nil
      | cons sign signs =>
          rw [List.length_cons] at hlength
          cases hkind : kind sign with
          | plain =>
              rw [depth?_plain hkind] at h
              exact .plain hkind (ih signs.length (by omega) h rfl)
          | closing =>
              rw [depth?_closing_zero hkind] at h
              cases h
          | opening =>
              rw [depth?_opening hkind] at h
              obtain ⟨inner, sign', back, rfl, hsign', hinner, hback⟩ := exists_closing h
              rw [List.length_append, List.length_cons] at hlength
              exact .group hkind hsign' (ih inner.length (by omega) hinner rfl)
                (ih back.length (by omega) hback rfl)

theorem Nested.depth? (h : Nested kind signs) : depth? kind 0 signs = some 0 := by
  induction h with
  | nil => rfl
  | plain hsign _ ih => rw [depth?_plain hsign, ih]
  | group hopening hclosing _ _ ih₁ ih₂ =>
      rw [List.cons_append, depth?_opening hopening, depth?_append, depth?_add ih₁ 1,
        Option.bind_some, depth?_closing_succ hclosing, ih₂]

end GroupSign

end Archmap
