import Mathlib.Data.List.Basic
import Archmap.Settings.LogLevel
import Archmap.Settings.Validation

/-!
# The levels that settings may name

Settings are validated against a list of level names after their level has been put in lower case by
the rules for all letters; the log reads a level after putting its ASCII letters in lower case and
looks it up in a table of its own. The two accept the same texts (`validate_iff_readable`).

The list and the table hold the same names (`mem_levels_iff`), and on ASCII texts the two ways to
lower case are one. Beyond ASCII no character can help to name a level: its lower case has a
character that occurs in no level's name (`exists_foreign`). That is seen run by run in the table of
letters. One run ends in ASCII, that of the Kelvin sign, which becomes a `k`, and no level's name has
one; and the capital I with a dot becomes an `i` with a combining dot behind it.

A capital sigma has two small forms, one of them for the end of a word. Which of them is taken where
does not matter, so the statement is about every lower case that takes either (`Lowered`).
-/

namespace Archmap

/-! ## Lower case with either small sigma -/

/-- A text in lower case, where a capital sigma may become the small sigma of the end of a word. -/
inductive Lowered : List Char → List Char → Prop where
  | nil : Lowered [] []
  | cons {text low : List Char} (c : Char) : Lowered text low →
      Lowered (c :: text) (lowercaseOf c ++ low)
  | finalSigma {text low : List Char} : Lowered text low →
      Lowered ('\u03a3' :: text) ('\u03c2' :: low)

variable {text low : List Char} {c : Char} {s : String}

theorem lowered_flatMap (text : List Char) : Lowered text (text.flatMap lowercaseOf) := by
  induction text with
  | nil => exact .nil
  | cons c text ih => exact .cons c ih

theorem lowercaseOf_ascii (h : c.toNat < 0x80) : lowercaseOf c = [c.toLower] := by
  rw [lowercaseOf, if_pos h]

/-- In ASCII there is only one lower case. -/
theorem Lowered.eq_map (h : Lowered text low) (hascii : ∀ c ∈ text, c.toNat < 0x80) :
    low = text.map Char.toLower := by
  induction h with
  | nil => rfl
  | cons c _ ih =>
      obtain ⟨hc, hrest⟩ := List.forall_mem_cons.mp hascii
      rw [lowercaseOf_ascii hc, ih hrest]
      rfl
  | finalSigma _ _ => exact absurd (hascii _ List.mem_cons_self) (by decide)

theorem Lowered.subset (h : Lowered text low) (hc : c ∈ text) :
    lowercaseOf c ⊆ low ∨ '\u03c2' ∈ low := by
  induction h with
  | nil => cases hc
  | cons d _ ih =>
      rcases List.mem_cons.mp hc with rfl | hc
      · exact .inl (List.subset_append_left _ _)
      · rcases ih hc with hsub | hsigma
        · exact .inl fun e he => List.mem_append_right _ (hsub he)
        · exact .inr (List.mem_append_right _ hsigma)
  | finalSigma _ _ => exact .inr List.mem_cons_self

/-! ## The letters of level names -/

/-- The names of levels are made of small ASCII letters other than `k`. -/
def IsLevelLetter (c : Char) : Prop := 97 ≤ c.toNat ∧ c.toNat ≤ 122 ∧ c.toNat ≠ 107

theorem isLevelLetter_of_mem_levels (h : s ∈ Settings.levels) (hc : c ∈ s.toList) :
    IsLevelLetter c := by
  have hall : Settings.levels.all (fun name => name.toList.all fun c =>
      97 ≤ c.toNat && c.toNat ≤ 122 && c.toNat != 107) = true := by decide +kernel
  have hletter := List.all_eq_true.mp (List.all_eq_true.mp hall s h) c hc
  simp only [Bool.and_eq_true, decide_eq_true_eq, bne_iff_ne] at hletter
  exact ⟨hletter.1.1, hletter.1.2, hletter.2⟩

/-- A code point outside the small ASCII letters, or that of `k`, stands for no letter of a level's
name; a number that is no code point stands for none either. -/
theorem not_isLevelLetter_ofNat {n : Nat} (h : 122 < n ∨ n = 107) :
    ¬IsLevelLetter (Char.ofNat n) := by
  have hcode : (Char.ofNat n).toNat = n ∨ (Char.ofNat n).toNat = 0 := by
    by_cases hvalid : n.isValidChar
    · exact .inl (congrArg Char.toNat (dif_pos hvalid))
    · exact .inr (congrArg Char.toNat (dif_neg hvalid))
  rintro ⟨hlow, hhigh, hk⟩
  omega

/-- The letters of a run become letters beyond the small ASCII letters, or the run is that of the
Kelvin sign. -/
theorem letterRun_shifted {run : LetterRun} (h : run ∈ letterRuns) :
    122 < run.first + run.shift ∨ run.first = run.last ∧ run.first + run.shift = 107 := by
  have hall : letterRuns.all (fun run => decide (122 < run.first + run.shift)
      || decide (run.first = run.last) && decide (run.first + run.shift = 107)) = true := by
    decide +kernel
  simpa using List.all_eq_true.mp hall run h

/-- Beyond ASCII, the lower case of a character has a character that is in no level's name. -/
theorem exists_foreign (h : 0x80 ≤ c.toNat) : ∃ d ∈ lowercaseOf c, ¬IsLevelLetter d := by
  rw [lowercaseOf, if_neg (by omega)]
  split
  · exact ⟨Char.ofNat 0x307, by simp, not_isLevelLetter_ofNat (by omega)⟩
  · split
    · rename_i run hfind
      refine ⟨_, List.mem_singleton_self _, not_isLevelLetter_ofNat ?_⟩
      have hcovers := List.find?_some hfind
      simp only [LetterRun.covers, Bool.and_eq_true, decide_eq_true_eq] at hcovers
      obtain ⟨⟨hfirst, hlast⟩, -⟩ := hcovers
      rcases letterRun_shifted (List.mem_of_find?_eq_some hfind) with hfar | ⟨hone, hk⟩
      · exact .inl (by omega)
      · exact .inr (by omega)
    · exact ⟨c, List.mem_singleton_self c, fun hc => absurd hc.2.1 (by omega)⟩

theorem toLower_of_not_ascii (h : 0x80 ≤ c.toNat) : c.toLower = c := by
  refine dif_neg ?_
  rintro ⟨-, hle⟩
  have hle : c.toNat ≤ 90 := UInt32.le_iff_toNat_le.mp hle
  omega

/-! ## The list and the table -/

theorem mem_levels_iff :
    s ∈ Settings.levels ↔ ∃ level, LogLevel.names.lookup s = some level := by
  have hsame : Settings.levels.Perm (LogLevel.names.map Prod.fst) := by decide
  rw [hsame.mem_iff, ← Option.isSome_iff_exists, List.lookup_isSome_iff, List.mem_map]
  exact exists_congr fun entry => and_congr_right' (eq_comm.trans beq_iff_eq.symm)

/-- The log can read a text iff it has the name of a level in small ASCII letters. -/
theorem exists_ofText_iff : (∃ level, LogLevel.ofText s = .ok level) ↔
    String.ofList (s.toList.map Char.toLower) ∈ Settings.levels := by
  rw [mem_levels_iff, LogLevel.ofText]
  cases LogLevel.names.lookup (String.ofList (s.toList.map Char.toLower)) <;> simp

/-- Only ASCII texts have a lower case that names a level. -/
theorem Lowered.ascii (h : Lowered text low) (hlevel : String.ofList low ∈ Settings.levels) :
    ∀ c ∈ text, c.toNat < 0x80 := by
  have hletters : ∀ d ∈ low, IsLevelLetter d := fun d hd =>
    isLevelLetter_of_mem_levels hlevel (by rwa [String.toList_ofList])
  intro c hc
  by_contra hfar
  rcases h.subset hc with hsub | hsigma
  · obtain ⟨d, hd, hforeign⟩ := exists_foreign (Nat.le_of_not_lt hfar)
    exact hforeign (hletters d (hsub hd))
  · exact absurd (hletters _ hsigma).2.1 (by decide)

/-- A text whose ASCII letters have been put in lower case names a level only if it is ASCII. -/
theorem ascii_of_readable (h : String.ofList (text.map Char.toLower) ∈ Settings.levels) :
    ∀ c ∈ text, c.toNat < 0x80 := by
  intro c hc
  by_contra hfar
  have hself : c.toLower = c := toLower_of_not_ascii (Nat.le_of_not_lt hfar)
  have hmem : c ∈ (String.ofList (text.map Char.toLower)).toList := by
    rw [String.toList_ofList]
    exact List.mem_map.mpr ⟨c, hc, hself⟩
  have hletter := (isLevelLetter_of_mem_levels h hmem).2.1
  omega

/-- Whichever small sigma is taken, the lower case of a text names a level iff the log can read the
text. -/
theorem Lowered.mem_levels_iff (h : Lowered s.toList low) :
    String.ofList low ∈ Settings.levels ↔ ∃ level, LogLevel.ofText s = .ok level := by
  rw [exists_ofText_iff]
  constructor
  · intro hlevel
    rwa [← h.eq_map (h.ascii hlevel)]
  · intro hlevel
    rwa [h.eq_map (ascii_of_readable hlevel)]

/-! ## Validation -/

theorem validate_eq_ok_iff (settings : Settings) : settings.validate = .ok () ↔
    settings.cycles.maxNumberToDetect ≠ 0 ∧ settings.aggregation.parallelThreshold ≠ 0
      ∧ lowercase settings.logging.level ∈ Settings.levels := by
  rw [Settings.validate, Settings.fault?]
  by_cases hmax : settings.cycles.maxNumberToDetect = 0
  · simp [hmax]
  · by_cases hthreshold : settings.aggregation.parallelThreshold = 0
    · simp [hmax, hthreshold]
    · by_cases hlevel : lowercase settings.logging.level ∈ Settings.levels <;>
        simp [hmax, hthreshold, hlevel]

/-- Settings with some text as level are valid iff they would be with another level and the log can
read the text. That the check is about lower case by the rules for all letters makes no difference,
nor does it which small sigma these rules take. -/
theorem validate_iff_readable (settings : Settings) (text : String) :
    ({ settings with logging.level := text }.validate = .ok () ↔
        (∃ level, { settings with logging.level := level }.validate = .ok ())
          ∧ ∃ level, LogLevel.ofText text = .ok level)
      ∧ ∀ low, Lowered text.toList low →
          (String.ofList low ∈ Settings.levels ↔ ∃ level, LogLevel.ofText text = .ok level) := by
  refine ⟨?_, fun low hlow => hlow.mem_levels_iff⟩
  have hreadable := (lowered_flatMap text.toList).mem_levels_iff
  simp only [validate_eq_ok_iff]
  rw [← hreadable]
  constructor
  · rintro ⟨hmax, hthreshold, hlevel⟩
    exact ⟨⟨text, hmax, hthreshold, hlevel⟩, hlevel⟩
  · rintro ⟨⟨_, hmax, hthreshold, -⟩, hlevel⟩
    exact ⟨hmax, hthreshold, hlevel⟩

/-- The dot of a capital I with a dot is not lost. -/
example : ({ logging.level := "WARN\u0130NG" } : Settings).fault?
    = some (.unknownLevel "WARN\u0130NG") := by decide +kernel

end Archmap
