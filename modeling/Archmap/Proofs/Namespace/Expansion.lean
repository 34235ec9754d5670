import Mathlib.Data.List.Basic
import Mathlib.Tactic.IntervalCases
import Archmap.Proofs.Namespace.Groups

/-!
# The expansion of a pattern

The regular expression for a pattern text can be made without looking at its tokens, by replacing
pieces of the text everywhere, one sort of piece after the other (`rewritten`). The order matters: a
dollar sign is escaped before any is inserted, `(**)` is set aside before single stars are replaced,
and two dots are found as two escaped dots, since a single dot has become one escaped dot.

For a text without three dots in a row that is made of pattern characters this gives what the tokens
give (`rewritten_eq_expansion`). No replaced piece goes across two tokens, at none of the steps, so
each step may be made token by token (`replaceAll_append`).
-/

namespace Archmap

/-! ## Replacing -/

/-- The text with `new` for each occurrence of `old`, from left to right. `skip` is the number of
characters that still belong to the last occurrence. -/
def replaceAll (old new : List Char) (skip : Nat) : List Char → List Char
  | [] => []
  | c :: rest =>
    match skip with
    | skip + 1 => replaceAll old new skip rest
    | 0 =>
      if old.isPrefixOf (c :: rest) then new ++ replaceAll old new (old.length - 1) rest
      else c :: replaceAll old new 0 rest

variable {old new front back text : List Char} {skip : Nat} {c d : Char}

/-- No occurrence of `old` goes across from the end of one part of a text to the other. -/
def NotAcross (old front back : List Char) : Prop :=
  ∀ n, 0 < n → n < old.length → old.take n <:+ front → ¬old.drop n <+: back

/-- The last character of the one part settles it, unless it stands in `old` before the end. -/
theorem notAcross_of_getLast? (h : front.getLast?.all (· ∉ old.dropLast) = true) :
    NotAcross old front back := by
  intro n hpos hlt hsuffix _
  have hlast : ∀ c ∈ front.getLast?, c ∉ old.dropLast := fun c hc =>
    of_decide_eq_true ((Option.all_eq_true _ _).mp h c hc)
  have hne : old.take n ≠ [] := by
    rw [Ne, List.take_eq_nil_iff]
    rintro (rfl | rfl)
    · exact absurd hpos (Nat.lt_irrefl 0)
    · exact absurd hlt (Nat.not_lt_zero n)
  refine hlast ((old.take n).getLast hne) ?_ ?_
  · obtain ⟨rest, rfl⟩ := hsuffix
    rw [List.getLast?_append_of_ne_nil _ hne, List.getLast?_eq_some_getLast hne]
    rfl
  · rw [List.dropLast_eq_take]
    exact (List.take_prefix_take_left (by omega)).subset (List.getLast_mem hne)

/-- If no occurrence of `old` goes across, the two parts of a text can be treated apart. -/
theorem replaceAll_append
    (h : NotAcross old front back) (hskip : skip ≤ front.length) :
    replaceAll old new skip (front ++ back)
      = replaceAll old new skip front ++ replaceAll old new 0 back := by
  induction front generalizing skip with
  | nil =>
      cases Nat.le_zero.mp hskip
      rfl
  | cons c front ih =>
      have hfront : NotAcross old front back :=
        fun n hpos hlt hsuffix => h n hpos hlt (hsuffix.trans (List.suffix_cons c front))
      cases skip with
      | succ skip =>
          rw [List.cons_append, replaceAll, replaceAll]
          exact ih hfront (Nat.le_of_succ_le_succ hskip)
      | zero =>
          have hprefix : old <+: c :: (front ++ back) ↔ old <+: c :: front := by
            refine ⟨fun hold => ?_, fun hold => hold.trans (List.prefix_append _ back)⟩
            by_cases hlength : old.length ≤ (c :: front).length
            · exact List.prefix_of_prefix_length_le hold (List.prefix_append (c :: front) back)
                hlength
            · -- all of the front part is a proper beginning of `old`
              obtain ⟨y, rfl⟩ := List.prefix_of_prefix_length_le
                (List.prefix_append (c :: front) back) hold (Nat.le_of_not_le hlength)
              rw [← List.cons_append, List.prefix_append_right_inj] at hold
              refine absurd hold ?_
              have := h (c :: front).length (Nat.succ_pos _) (Nat.lt_of_not_le hlength)
              rw [List.take_left, List.drop_left] at this
              exact this (List.suffix_refl _)
          simp only [List.cons_append, replaceAll, List.isPrefixOf_iff_prefix, hprefix]
          split
          · rename_i hold
            have hlength := hold.length_le
            rw [List.length_cons] at hlength
            rw [ih hfront (by omega), List.append_assoc]
          · rw [ih hfront (Nat.zero_le _), List.cons_append]

theorem replaceAll_cons_of_ne (h : d ≠ c) :
    replaceAll [c] new 0 (d :: text) = d :: replaceAll [c] new 0 text := by
  rw [replaceAll, List.isPrefixOf, beq_false_of_ne h.symm, Bool.false_and,
    if_neg Bool.false_ne_true]

/-- One character goes across nothing. -/
theorem replaceAll_single_append :
    replaceAll [c] new 0 (front ++ back)
      = replaceAll [c] new 0 front ++ replaceAll [c] new 0 back :=
  replaceAll_append (fun n hpos hlt => by simp at hlt; omega) (Nat.zero_le _)

/-- What a text begins with after a replacement, unless it comes from what was inserted, it has begun
with before. -/
theorem prefix_of_prefix_replaceAll {start : List Char} (hnew : d ∉ start)
    (h : start <+: replaceAll old (d :: new) 0 text) : start <+: text := by
  induction start generalizing text with
  | nil => exact List.nil_prefix
  | cons e start ih =>
      rw [List.mem_cons, not_or] at hnew
      cases text with
      | nil => exact absurd h (by simp [replaceAll])
      | cons c text =>
          rw [replaceAll] at h
          split at h
          · exact absurd (List.cons_prefix_cons.mp h).1.symm hnew.1
          · obtain ⟨rfl, hrest⟩ := List.cons_prefix_cons.mp h
            exact List.cons_prefix_cons.mpr ⟨rfl, ih hnew.2 hrest⟩

/-! ## The steps -/

/-- Dollar signs escaped, and `(**)` set aside under a mark that no pattern contains. -/
def aside (text : List Char) : List Char :=
  replaceAll "(**)".toList "#%#%#".toList 0 (replaceAll ['$'] "\\$".toList 0 text)

/-- Stars and dots in place of what they stand for. -/
def widened (text : List Char) : List Char :=
  replaceAll ['.'] "\\.".toList 0 (replaceAll ['*'] "\\w+".toList 0 (aside text))

/-- What was set aside in place of what it stands for. -/
def restored (text : List Char) : List Char :=
  replaceAll "#%#%#".toList "(\\w+(?:\\.\\w+)*)".toList 0 (widened text)

/-- The regular expression for a pattern text. -/
def rewritten (text : List Char) : List Char :=
  replaceAll [']'] ")".toList 0 (replaceAll ['['] "(?:".toList 0
    (replaceAll "\\.\\.".toList "(?:(?:^\\w*)?\\.(?:\\w+\\.)*(?:\\w*$)?)?".toList 0 (restored text)))

/-- At no step a replaced piece goes across from one part of a text to the other. -/
structure Apart (front back : List Char) : Prop where
  aside : NotAcross "(**)".toList (replaceAll ['$'] "\\$".toList 0 front)
    (replaceAll ['$'] "\\$".toList 0 back)
  restored : NotAcross "#%#%#".toList (widened front) (widened back)
  rewritten : NotAcross "\\.\\.".toList (Archmap.restored front) (Archmap.restored back)

theorem Apart.rewritten_append (h : Apart front back) :
    Archmap.rewritten (front ++ back) = Archmap.rewritten front ++ Archmap.rewritten back := by
  have haside : Archmap.aside (front ++ back) = Archmap.aside front ++ Archmap.aside back := by
    rw [Archmap.aside, replaceAll_single_append, replaceAll_append h.aside (Nat.zero_le _)]
    rfl
  have hwidened : widened (front ++ back) = widened front ++ widened back := by
    rw [widened, haside, replaceAll_single_append, replaceAll_single_append]
    rfl
  have hrestored :
      Archmap.restored (front ++ back) = Archmap.restored front ++ Archmap.restored back := by
    rw [Archmap.restored, hwidened, replaceAll_append h.restored (Nat.zero_le _)]
    rfl
  rw [Archmap.rewritten, hrestored, replaceAll_append h.rewritten (Nat.zero_le _),
    replaceAll_single_append, replaceAll_single_append]
  rfl

/-! ## Token by token -/

theorem replaceAll_of_head {c : Char} (h : c ∉ old.head?) (hold : old ≠ []) :
    replaceAll old new 0 [c] = [c] := by
  obtain ⟨d, old, rfl⟩ := List.exists_cons_of_ne_nil hold
  have hdc : d ≠ c := fun hdc => h (by rw [hdc]; rfl)
  rw [replaceAll, List.isPrefixOf, beq_false_of_ne hdc, Bool.false_and, if_neg Bool.false_ne_true]
  rfl

/-- A character that no replaced piece begins with stays as it is. -/
theorem rewritten_single {c : Char} (h : c ∉ "$(*.#\\[]".toList) :
    replaceAll ['$'] "\\$".toList 0 [c] = [c] ∧ widened [c] = [c] ∧ restored [c] = [c]
      ∧ rewritten [c] = [c] := by
  have hkept : ∀ {old new : List Char} (hold : old ≠ []), old.head hold ∈ "$(*.#\\[]".toList →
      replaceAll old new 0 [c] = [c] := by
    intro old new hold hmem
    refine replaceAll_of_head (fun hc => ?_) hold
    rw [List.head?_eq_some_head hold] at hc
    cases hc
    exact h hmem
  have hdollar : replaceAll ['$'] "\\$".toList 0 [c] = [c] := hkept (by decide) (by decide)
  have hwidened : widened [c] = [c] := by
    rw [widened, aside, hdollar, hkept (by decide) (by decide), hkept (by decide) (by decide),
      hkept (by decide) (by decide)]
  have hrestored : restored [c] = [c] := by
    rw [restored, hwidened, hkept (by decide) (by decide)]
  refine ⟨hdollar, hwidened, hrestored, ?_⟩
  rw [rewritten, hrestored, hkept (by decide) (by decide), hkept (by decide) (by decide),
    hkept (by decide) (by decide)]

theorem prefix_of_prefix_starred {start : List Char} (hslash : '\\' ∉ start) (hmark : '#' ∉ start)
    (h : start <+: replaceAll ['*'] "\\w+".toList 0 (aside text)) : start <+: text :=
  prefix_of_prefix_replaceAll hslash
    (prefix_of_prefix_replaceAll hmark (prefix_of_prefix_replaceAll hslash h))

theorem not_percent_prefix_widened (h : '%' ∉ text) : ¬['%'] <+: widened text := by
  intro hstart
  have htext : ['%'] <+: text :=
    prefix_of_prefix_starred (by decide) (by decide)
      (prefix_of_prefix_replaceAll (by decide) hstart)
  exact h (htext.subset (List.mem_singleton_self _))

theorem not_dot_prefix : ¬['.'] <+: replaceAll ['.'] "\\.".toList 0 text := by
  cases text with
  | nil => exact fun h => by cases List.prefix_nil.mp h
  | cons c rest =>
      by_cases hc : c = '.'
      · rw [hc]
        exact fun h => by cases (List.cons_prefix_cons.mp h).1
      · rw [replaceAll_cons_of_ne hc]
        exact fun h => hc (List.cons_prefix_cons.mp h).1.symm

/-- An escaped dot in front comes from a dot in front. -/
theorem dot_prefix_of_restored (h : ['\\', '.'] <+: restored text) : ['.'] <+: text := by
  have hwidened : ['\\', '.'] <+: widened text :=
    prefix_of_prefix_replaceAll (d := '(') (by decide) h
  refine prefix_of_prefix_starred (by decide) (by decide) ?_
  rw [widened] at hwidened
  cases hstarred : replaceAll ['*'] "\\w+".toList 0 (aside text) with
  | nil =>
      rw [hstarred] at hwidened
      exact absurd hwidened (by decide)
  | cons c starred =>
      rw [hstarred] at hwidened
      by_cases hc : c = '.'
      · exact List.cons_prefix_cons.mpr ⟨hc.symm, List.nil_prefix⟩
      · -- a backslash that was there before would need a dot behind it that is not escaped
        rw [replaceAll_cons_of_ne hc] at hwidened
        obtain ⟨-, hrest⟩ := List.cons_prefix_cons.mp hwidened
        exact absurd hrest not_dot_prefix

theorem apart_of_getLast?
    (haside : (replaceAll ['$'] "\\$".toList 0 front).getLast?.all
      (· ∉ "(**)".toList.dropLast) = true)
    (hrestored : (widened front).getLast?.all (· ∉ "#%#%#".toList.dropLast) = true)
    (hrewritten : (restored front).getLast?.all (· ∉ "\\.\\.".toList.dropLast) = true) :
    Apart front back :=
  ⟨notAcross_of_getLast? haside, notAcross_of_getLast? hrestored, notAcross_of_getLast? hrewritten⟩

theorem apart_capture (h : '%' ∉ back) : Apart "(**)".toList back := by
  refine ⟨notAcross_of_getLast? (by decide), ?_, notAcross_of_getLast? (by decide)⟩
  intro n hpos hlt hsuffix hprefix
  have hback : ∀ rest, ¬ '%' :: rest <+: widened back := fun rest hrest =>
    not_percent_prefix_widened h ((List.prefix_append ['%'] rest).trans hrest)
  have hlt' : n < 5 := hlt
  interval_cases n
  · exact hback _ hprefix
  · exact absurd hsuffix (by decide)
  · exact hback _ hprefix
  · exact absurd hsuffix (by decide)

theorem apart_dots (hfront : front = ['.'] ∨ front = "..".toList) (h : ¬['.'] <+: back) :
    Apart front back := by
  rcases hfront with rfl | rfl <;>
    refine ⟨notAcross_of_getLast? (by decide), notAcross_of_getLast? (by decide), ?_⟩ <;>
    intro n hpos hlt hsuffix hprefix <;>
    have hlt' : n < 4 := hlt
  all_goals
    interval_cases n
    · exact absurd hsuffix (by decide)
    · exact h (dot_prefix_of_restored hprefix)
    · exact absurd hsuffix (by decide)

theorem apart_open (h : ¬['*', '*', ')'] <+: back) : Apart ['('] back := by
  refine ⟨?_, notAcross_of_getLast? (by decide), notAcross_of_getLast? (by decide)⟩
  intro n hpos hlt hsuffix hprefix
  have hlt' : n < 4 := hlt
  interval_cases n
  · exact h (prefix_of_prefix_replaceAll (d := '\\') (by decide) hprefix)
  · exact absurd hsuffix (by decide)
  · exact absurd hsuffix (by decide)

theorem apart_star : Apart ['*'] back := by
  refine ⟨?_, notAcross_of_getLast? (by decide), notAcross_of_getLast? (by decide)⟩
  intro n hpos hlt hsuffix _
  have hlt' : n < 4 := hlt
  interval_cases n <;> exact absurd hsuffix (by decide)

theorem apart_sign {c : Char} (h : c ∈ "[)]|$".toList) : Apart [c] back := by
  obtain rfl | rfl | rfl | rfl | rfl : c = '[' ∨ c = ')' ∨ c = ']' ∨ c = '|' ∨ c = '$' := by
    simpa using h
  all_goals exact apart_of_getLast? (by decide) (by decide) (by decide)

/-- A character that no step is about goes together with nothing. -/
theorem apart_single {c : Char} (h : c ∉ "$(*.#\\[]%".toList) : Apart [c] back := by
  obtain ⟨haside, hwidened, hrestored, -⟩ :=
    rewritten_single fun hc => h (List.mem_append_left ['%'] hc)
  have hlast : ∀ {old : List Char}, old ⊆ "$(*.#\\[]%".toList →
      [c].getLast?.all (· ∉ old) = true :=
    fun hold => decide_eq_true fun hmem => h (hold hmem)
  refine apart_of_getLast? ?_ ?_ ?_
  · rw [haside]
    exact hlast (by decide)
  · rw [hwidened]
    exact hlast (by decide)
  · rw [hrestored]
    exact hlast (by decide)

/-- The text is made of pattern characters and has no three dots in a row. -/
structure Spelled (text : List Char) : Prop where
  noThreeDots : ¬['.', '.', '.'] <:+: text
  chars : ∀ c ∈ text, isPatternChar c = true

theorem Spelled.of_infix (h : Spelled text) (hpart : back <:+: text) : Spelled back :=
  ⟨fun hdots => h.noThreeDots (hdots.trans hpart), fun c hc => h.chars c (hpart.subset hc)⟩

theorem Spelled.drop (front : List Char) (h : Spelled (front ++ back)) : Spelled back :=
  h.of_infix (List.suffix_append front back).isInfix

/-- No pattern contains a character of the mark or a backslash. -/
theorem Spelled.notMem (h : Spelled text) (hc : c ∈ "#\\%".toList) : c ∉ text := by
  have hforeign : "#\\%".toList.all (!isPatternChar ·) = true := by decide +kernel
  intro hmem
  have hchar := List.all_eq_true.mp hforeign c hc
  rw [h.chars c hmem] at hchar
  cases hchar

theorem Apart.rewritten_eq {token : PatternToken} (h : Apart front back)
    (hfront : Archmap.rewritten front = token.expansion.toList)
    (hback : Archmap.rewritten back
      = (PatternToken.scan back).flatMap fun token => token.expansion.toList) :
    Archmap.rewritten (front ++ back)
      = (token :: PatternToken.scan back).flatMap fun token => token.expansion.toList := by
  rw [h.rewritten_append, hfront, hback, List.flatMap_cons]

/-- Replacing gives what the tokens of the text expand to. -/
theorem rewritten_eq_expansion (h : Spelled text) :
    rewritten text = (PatternToken.scan text).flatMap fun token => token.expansion.toList := by
  fun_induction PatternToken.scan text with
  | case1 => rfl
  | case2 rest ih =>
      have hrest : Spelled rest := h.drop "(**)".toList
      exact (apart_capture (hrest.notMem (by decide))).rewritten_eq rfl (ih hrest)
  | case3 rest ih =>
      have hapart : Apart "..".toList rest :=
        apart_dots (Or.inr rfl) fun hdot =>
          h.noThreeDots ((List.prefix_append_right_inj "..".toList).mpr hdot).isInfix
      exact hapart.rewritten_eq rfl (ih (h.drop "..".toList))
  | case4 rest hnot ih =>
      have hapart : Apart ['.'] rest :=
        apart_dots (Or.inl rfl) fun hrest => hrest.elim fun rest' hrest => hnot rest' hrest.symm
      exact hapart.rewritten_eq rfl (ih (h.drop ['.']))
  | case5 rest ih =>
      have hapart : Apart ['*'] rest := apart_star
      exact hapart.rewritten_eq rfl (ih (h.drop ['*']))
  | case6 rest hnot ih =>
      have hapart : Apart ['('] rest :=
        apart_open fun hrest => hrest.elim fun rest' hrest => hnot rest' hrest.symm
      exact hapart.rewritten_eq rfl (ih (h.drop ['(']))
  | case7 rest ih | case8 rest ih | case9 rest ih | case10 rest ih =>
      exact (apart_sign (by decide)).rewritten_eq rfl (ih (h.drop [_]))
  | case11 c rest _ _ hdot hstar hopen hgroup hclose hclose' hbar ih =>
      have hrest : Spelled rest := h.drop [c]
      by_cases hdollar : c = '$'
      · subst hdollar
        exact (apart_sign (by decide)).rewritten_eq rfl (ih hrest)
      · have hplain : c ∉ ['$', '(', '*', '.', '#', '\\', '[', ']', '%'] := by
          have hforeign : ∀ d ∈ "#\\%".toList, c ≠ d := fun d hd hcd =>
            h.notMem hd (hcd ▸ List.mem_cons_self)
          simp only [List.mem_cons, List.not_mem_nil, or_false, not_or]
          exact ⟨hdollar, hopen, hstar, hdot, hforeign '#' (by decide),
            hforeign '\\' (by decide), hgroup, hclose', hforeign '%' (by decide)⟩
        obtain ⟨-, -, -, hsingle⟩ :=
          rewritten_single fun hc => hplain (List.mem_append_left ['%'] hc)
        refine (apart_single hplain).rewritten_eq ?_ (ih hrest)
        rw [hsingle, PatternToken.expansion, if_neg hdollar, String.toList_singleton]

end Archmap
