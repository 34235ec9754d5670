import Archmap.Proofs.Namespace.Ways
import Archmap.Text.Segments

/-!
# Reading whole segments

The wildcards of a pattern read characters. Where they are read in a namespace and what comes behind
them decides whether these make up whole segments: a text in front of a dot or of the end of the
namespace (`Boundary`) that begins where a segment begins consists of segments
(`exists_of_text_append`). The run of segments that `..` reads consists of segments by itself, since
it stops only behind a dot or at the end of the namespace (`exists_of_mem_anyEnds_dotted`).
-/

namespace Archmap

/-- A text that can stand between the dots of a namespace. -/
structure IsSegment (segment : String) : Prop where
  ne_empty : segment ≠ ""
  noDot : '.' ∉ segment.toList

structure IsWordSegment (segment : String) : Prop where
  ne_empty : segment ≠ ""
  word : ∀ c ∈ segment.toList, isWord c = true

theorem not_isWord_dot : isWord '.' = false := by decide +kernel

theorem dot_notMem_of_word {text : List Char} (h : ∀ c ∈ text, isWord c = true) : '.' ∉ text := by
  intro hdot
  have hword := h '.' hdot
  rw [not_isWord_dot] at hword
  cases hword

theorem IsWordSegment.isSegment {segment : String} (h : IsWordSegment segment) :
    IsSegment segment :=
  ⟨h.ne_empty, dot_notMem_of_word h.word⟩

theorem isWordSegment_ofList {word : List Char} (hne : word ≠ [])
    (h : ∀ c ∈ word, isWord c = true) : IsWordSegment (String.ofList word) := by
  refine ⟨fun hempty => hne ?_, ?_⟩
  · rw [← String.toList_ofList (l := word), hempty, String.toList_empty]
  · rwa [String.toList_ofList]

theorem IsSegment.toList_ne_nil {segment : String} (h : IsSegment segment) :
    segment.toList ≠ [] :=
  fun hnil => h.ne_empty (String.toList_eq_nil_iff.mp hnil)

theorem IsWordSegment.toList_ne_nil {segment : String} (h : IsWordSegment segment) :
    segment.toList ≠ [] :=
  h.isSegment.toList_ne_nil

theorem IsWordSegment.append {segment segment' : String} (h : IsWordSegment segment)
    (h' : IsWordSegment segment') : IsWordSegment (segment ++ segment') := by
  have htext : (segment ++ segment').toList = segment.toList ++ segment'.toList :=
    String.toList_append
  refine ⟨fun hempty => ?_, htext ▸ List.forall_mem_append.mpr ⟨h.word, h'.word⟩⟩
  rw [hempty, String.toList_empty] at htext
  exact h.toList_ne_nil (List.append_eq_nil_iff.mp htext.symm).1

/-! ## Texts of segments -/

variable {s : String} {S L : List String} {front rest : List Char}

/-- The segments behind another one, with the dots in front of them. -/
def dotted (S : List String) : List Char :=
  S.flatMap fun s => '.' :: s.toList

/-- The characters of the namespace with the given segments. -/
def segmentsText : List String → List Char
  | [] => []
  | s :: S => s.toList ++ dotted S

theorem dotted_cons : dotted (s :: S) = '.' :: segmentsText (s :: S) := by
  rw [dotted, List.flatMap_cons, segmentsText, List.cons_append]
  rfl

theorem segmentsText_singleton : segmentsText [s] = s.toList :=
  List.append_nil s.toList

theorem dotted_of_ne_nil (h : S ≠ []) : dotted S = '.' :: segmentsText S := by
  obtain ⟨s, S, rfl⟩ := List.exists_cons_of_ne_nil h
  exact dotted_cons

theorem dotted_eq_nil (h : dotted S = []) : S = [] := by
  cases S with
  | nil => rfl
  | cons s S => cases h

theorem dotted_append : dotted (S ++ L) = dotted S ++ dotted L :=
  List.flatMap_append

theorem segmentsText_append (h : S ≠ []) : segmentsText (S ++ L) = segmentsText S ++ dotted L := by
  obtain ⟨s, S, rfl⟩ := List.exists_cons_of_ne_nil h
  rw [List.cons_append, segmentsText, segmentsText, dotted_append, List.append_assoc]

theorem toList_joinSegments (S : List String) : (joinSegments S).toList = segmentsText S := by
  induction S with
  | nil => rfl
  | cons s S ih =>
      cases S with
      | nil => simp [joinSegments, segmentsText, dotted]
      | cons s' S =>
          have hjoin : joinSegments (s :: s' :: S) = s ++ "." ++ joinSegments (s' :: S) :=
            String.intercalate_cons_cons
          have htext : segmentsText (s :: s' :: S) = s.toList ++ dotted (s' :: S) := rfl
          rw [hjoin, String.toList_append, String.toList_append, ih, htext, dotted_cons,
            List.append_assoc]
          rfl

theorem segmentsText_eq_nil (h : ∀ s ∈ S, IsSegment s) (htext : segmentsText S = []) : S = [] := by
  cases S with
  | nil => rfl
  | cons s S =>
      have hs := (List.append_eq_nil_iff.mp htext).1
      exact absurd (String.toList_eq_nil_iff.mp hs) (h s List.mem_cons_self).ne_empty

theorem segmentsText_ne_nil (h : ∀ s ∈ S, IsSegment s) (hne : S ≠ []) : segmentsText S ≠ [] :=
  fun htext => hne (segmentsText_eq_nil h htext)

/-! ## Boundaries -/

/-- The text can stand behind a segment. -/
def Boundary (text : List Char) : Prop :=
  ∀ c ∈ text.head?, c = '.'

theorem boundary_nil : Boundary [] := nofun

theorem boundary_dot : Boundary ('.' :: rest) := by
  rintro c ⟨⟩
  rfl

theorem boundary_dotted_append (S : List String) (h : Boundary rest) :
    Boundary (dotted S ++ rest) := by
  cases S with
  | nil => exact h
  | cons s S => exact boundary_dot

theorem boundary_dotted (S : List String) : Boundary (dotted S) := by
  cases S with
  | nil => exact boundary_nil
  | cons s S => exact boundary_dot

/-- Where a text without dots is followed by a boundary, it is cut off there. -/
theorem cut_at_boundary {text other behind : List Char} (h : text ++ rest = other ++ behind)
    (htext : '.' ∉ text) (hother : '.' ∉ other) (hrest : Boundary rest)
    (hbehind : Boundary behind) : text = other ∧ rest = behind := by
  have hcut : ∀ {text more rest : List Char}, '.' ∉ text ++ more → Boundary (more ++ rest) →
      more = [] := by
    intro text more rest hdot hboundary
    cases more with
    | nil => rfl
    | cons c more =>
        rw [hboundary c rfl] at hdot
        exact absurd (List.mem_append_right text List.mem_cons_self) hdot
  rcases List.append_eq_append_iff.mp h with ⟨more, rfl, rfl⟩ | ⟨more, rfl, rfl⟩
  · cases hcut hother hrest
    exact ⟨(List.append_nil text).symm, rfl⟩
  · cases hcut htext hbehind
    exact ⟨List.append_nil other, rfl⟩

/-- Segments that are read at the beginning of other segments, up to a boundary, are the first of
these. -/
theorem exists_of_text_append (hS : ∀ s ∈ S, IsSegment s) (hne : S ≠ [])
    (hL : ∀ s ∈ L, IsSegment s) (hrest : Boundary rest)
    (h : segmentsText S ++ rest = segmentsText L) : ∃ M, L = S ++ M ∧ rest = dotted M := by
  induction S generalizing L with
  | nil => exact absurd rfl hne
  | cons s S ih =>
      obtain ⟨hs, hSs⟩ := List.forall_mem_cons.mp hS
      cases L with
      | nil =>
          have hs' := (List.append_eq_nil_iff.mp (List.append_eq_nil_iff.mp h).1).1
          exact absurd (String.toList_eq_nil_iff.mp hs') hs.ne_empty
      | cons l L =>
          obtain ⟨hl, hLs⟩ := List.forall_mem_cons.mp hL
          rw [segmentsText, segmentsText, List.append_assoc] at h
          obtain ⟨hsl, hbehind⟩ := cut_at_boundary h hs.noDot hl.noDot
            (boundary_dotted_append S hrest) (boundary_dotted L)
          rw [String.toList_inj.mp hsl]
          cases S with
          | nil => exact ⟨L, rfl, hbehind⟩
          | cons s' S =>
              cases L with
              | nil => cases hbehind
              | cons l' L =>
                  rw [dotted_cons, dotted_cons, List.cons_append] at hbehind
                  obtain ⟨M, hM, hrest⟩ := ih hSs (List.cons_ne_nil s' S) hLs
                    (List.cons.inj hbehind).2
                  exact ⟨M, congrArg (l :: ·) hM, hrest⟩

/-! ## Segments read by wildcards -/

/-- How far a run of segments has been read behind further word characters. -/
def AnyState.behindWord : AnyState → AnyState
  | lead => lead
  | ready => ready
  | behindDot | inSegment => inSegment

namespace Cursor

variable {offset : Nat} {text read more : List Char} {c d : Char} {cursor next last : Cursor}

/-- What has been read of segments: the rest of one, if a word character stands in front of it, and
then others. -/
def SegmentsRead (inSegment : Bool) (word : List Char) (S : List String) : Prop :=
  (word ≠ [] ∨ inSegment = true ∧ S ≠ [])
    ∧ (∀ c ∈ word, isWord c = true) ∧ ∀ s ∈ S, IsWordSegment s

theorem exists_of_mem_segmentsEnds {inSegment : Bool}
    (h : next ∈ segmentsEnds offset inSegment text) :
    ∃ word S, SegmentsRead inSegment word S ∧ next.Past (word ++ dotted S) ⟨offset, text⟩ := by
  induction text generalizing offset inSegment with
  | nil => cases h
  | cons d text ih =>
      rw [segmentsEnds] at h
      split at h
      · rename_i hd
        rcases List.mem_cons.mp h with rfl | h
        · exact ⟨[d], [], ⟨Or.inl (List.cons_ne_nil d []), by simpa using hd,
            List.forall_mem_nil _⟩, past_cons.mpr ⟨rfl, past_nil.mpr rfl⟩⟩
        · obtain ⟨word, S, ⟨-, hword, hS⟩, hpast⟩ := ih h
          exact ⟨d :: word, S, ⟨Or.inl (List.cons_ne_nil d word),
            List.forall_mem_cons.mpr ⟨hd, hword⟩, hS⟩, past_cons.mpr ⟨rfl, hpast⟩⟩
      · split at h
        · rename_i hdot
          rw [Bool.and_eq_true, decide_eq_true_eq] at hdot
          obtain ⟨rfl, rfl⟩ := hdot
          obtain ⟨word, S, ⟨hne, hword, hS⟩, hpast⟩ := ih h
          have hsegment := isWordSegment_ofList (hne.resolve_right (by simp)) hword
          refine ⟨[], String.ofList word :: S, ⟨Or.inr ⟨rfl, List.cons_ne_nil _ S⟩,
            List.forall_mem_nil _, List.forall_mem_cons.mpr ⟨hsegment, hS⟩⟩, ?_⟩
          rw [List.nil_append, dotted_cons, segmentsText, String.toList_ofList]
          exact past_cons.mpr ⟨rfl, hpast⟩
        · cases h

theorem mem_segmentsEnds_of_past {inSegment : Bool} {word : List Char}
    (hread : SegmentsRead inSegment word S) (hpast : next.Past (word ++ dotted S) ⟨offset, text⟩) :
    next ∈ segmentsEnds offset inSegment text := by
  induction text generalizing offset inSegment word S with
  | nil =>
      obtain ⟨hne, -, -⟩ := hread
      cases word with
      | cons c word => exact absurd hpast not_past_nil
      | nil =>
          obtain ⟨-, hsome⟩ := hne.resolve_left (absurd rfl)
          rw [List.nil_append, dotted_of_ne_nil hsome] at hpast
          exact absurd hpast not_past_nil
  | cons d text ih =>
      obtain ⟨hne, hword, hS⟩ := hread
      rw [segmentsEnds]
      cases word with
      | nil =>
          obtain ⟨rfl, hsome⟩ := hne.resolve_left (absurd rfl)
          obtain ⟨s, more, rfl⟩ := List.exists_cons_of_ne_nil hsome
          obtain ⟨hs, hmore⟩ := List.forall_mem_cons.mp hS
          rw [List.nil_append, dotted_cons] at hpast
          obtain ⟨rfl, hrest⟩ := past_cons.mp hpast
          rw [if_neg (by simp [not_isWord_dot]), if_pos (by simp)]
          exact ih ⟨Or.inl hs.toList_ne_nil, hs.word, hmore⟩ hrest
      | cons c word =>
          obtain ⟨rfl, hrest⟩ := past_cons.mp hpast
          obtain ⟨hd, hword⟩ := List.forall_mem_cons.mp hword
          rw [if_pos hd]
          by_cases hend : word = [] ∧ S = []
          · obtain ⟨rfl, rfl⟩ := hend
            exact List.mem_cons.mpr (Or.inl (past_nil.mp hrest))
          · refine List.mem_cons_of_mem _ (ih ⟨?_, hword, hS⟩ hrest)
            exact (Classical.not_and_iff_not_or_not.mp hend).imp_right fun hS => ⟨rfl, hS⟩

theorem mem_segmentsEnds :
    next ∈ segmentsEnds offset false text ↔
      ∃ S : List String, S ≠ [] ∧ (∀ s ∈ S, IsWordSegment s)
        ∧ next.Past (segmentsText S) ⟨offset, text⟩ := by
  constructor
  · intro h
    obtain ⟨word, S, ⟨hne, hword, hS⟩, hpast⟩ := exists_of_mem_segmentsEnds h
    have hsegment := isWordSegment_ofList (hne.resolve_right (by simp)) hword
    refine ⟨String.ofList word :: S, List.cons_ne_nil _ S,
      List.forall_mem_cons.mpr ⟨hsegment, hS⟩, ?_⟩
    rw [segmentsText, String.toList_ofList]
    exact hpast
  · rintro ⟨S, hne, hS, hpast⟩
    obtain ⟨s, S, rfl⟩ := List.exists_cons_of_ne_nil hne
    obtain ⟨hs, hS⟩ := List.forall_mem_cons.mp hS
    exact mem_segmentsEnds_of_past ⟨Or.inl hs.toList_ne_nil, hs.word, hS⟩ hpast

/-! ## Runs of segments with their dots -/

variable {state : AnyState}

theorem anyEnds_dot (hstate : state ≠ .behindDot) :
    anyEnds offset state ('.' :: text) = ⟨offset + 1, text⟩ :: anyEnds (offset + 1) .behindDot text := by
  rw [anyEnds.eq_def]
  simp only [if_true, if_neg hstate]

theorem mem_anyEnds_cons (hc : c ≠ '.') :
    next ∈ anyEnds offset state (c :: text) ↔
      state ≠ .ready ∧ isWord c = true ∧ next ∈ anyEnds (offset + 1) state.behindWord text := by
  rw [anyEnds.eq_def]
  simp only [if_neg hc]
  split
  · rename_i hword
    cases state <;> simp [AnyState.behindWord, hword]
  · rename_i hword
    simp [hword]

theorem mem_anyEnds_append (hne : read ≠ []) (hdot : '.' ∉ read) :
    next ∈ anyEnds offset state (read ++ text) ↔
      state ≠ .ready ∧ (∀ c ∈ read, isWord c = true)
        ∧ next ∈ anyEnds (offset + read.length) state.behindWord text := by
  induction read generalizing offset state with
  | nil => exact absurd rfl hne
  | cons c read ih =>
      rw [List.mem_cons, not_or] at hdot
      rw [List.cons_append, mem_anyEnds_cons (Ne.symm hdot.1), List.forall_mem_cons,
        List.length_cons]
      cases read with
      | nil => simp
      | cons d read =>
          have hstate : state.behindWord.behindWord = state.behindWord := by cases state <;> rfl
          have hready : state.behindWord ≠ .ready ↔ state ≠ .ready := by cases state <;> decide
          rw [ih (List.cons_ne_nil d read) hdot.2, hstate, hready, Nat.add_right_comm,
            Nat.add_assoc]
          constructor
          · rintro ⟨hstate, hc, -, hread, hnext⟩
            exact ⟨hstate, ⟨hc, hread⟩, hnext⟩
          · rintro ⟨hstate, ⟨hc, hread⟩, hnext⟩
            exact ⟨hstate, hc, hstate, hread, hnext⟩

/-- A run leads to the beginning of a segment or to the end of the namespace. -/
theorem exists_of_mem_anyEnds_dotted (hS : ∀ s ∈ S, IsSegment s) (hstate : state ≠ .behindDot)
    (h : next ∈ anyEnds offset state (dotted S)) :
    ∃ A L, S = A ++ L ∧ (∀ a ∈ A, IsWordSegment a) ∧ next.rest = segmentsText L := by
  induction S generalizing offset state with
  | nil =>
      rw [dotted, List.flatMap_nil, anyEnds] at h
      split at h
      · rw [List.mem_singleton.mp h]
        exact ⟨[], [], rfl, List.forall_mem_nil _, rfl⟩
      · cases h
  | cons s S ih =>
      obtain ⟨hs, hSs⟩ := List.forall_mem_cons.mp hS
      rw [dotted_cons, anyEnds_dot hstate] at h
      rcases List.mem_cons.mp h with rfl | h
      · exact ⟨[], s :: S, rfl, List.forall_mem_nil _, rfl⟩
      · obtain ⟨-, hword, h⟩ := (mem_anyEnds_append hs.toList_ne_nil hs.noDot).mp h
        obtain ⟨A, L, rfl, hA, hrest⟩ := ih hSs (by decide) h
        exact ⟨s :: A, L, rfl, List.forall_mem_cons.mpr ⟨⟨hs.ne_empty, hword⟩, hA⟩, hrest⟩

/-- A run can lead behind any number of segments of word characters. -/
theorem exists_mem_anyEnds_dotted {A : List String} (hA : ∀ a ∈ A, IsWordSegment a)
    (hne : A ++ L ≠ []) (hstate : state ≠ .behindDot) :
    ∃ next ∈ anyEnds offset state (dotted (A ++ L)), next.rest = segmentsText L := by
  induction A generalizing offset state with
  | nil =>
      obtain ⟨l, L, rfl⟩ := List.exists_cons_of_ne_nil hne
      rw [List.nil_append, dotted_cons, anyEnds_dot hstate]
      exact ⟨_, List.mem_cons_self, rfl⟩
  | cons a A ih =>
      obtain ⟨ha, hA⟩ := List.forall_mem_cons.mp hA
      rw [List.cons_append, dotted_cons, anyEnds_dot hstate, segmentsText]
      have hrest : ∃ next ∈ anyEnds (offset + 1 + a.toList.length) .inSegment (dotted (A ++ L)),
          next.rest = segmentsText L := by
        by_cases hend : A ++ L = []
        · obtain ⟨rfl, rfl⟩ := List.append_eq_nil_iff.mp hend
          exact ⟨_, List.mem_singleton_self _, rfl⟩
        · exact ih hA hend (by decide)
      obtain ⟨next, hnext, hrest⟩ := hrest
      refine ⟨next, List.mem_cons_of_mem _ ?_, hrest⟩
      exact (mem_anyEnds_append ha.toList_ne_nil ha.isSegment.noDot).mpr
        ⟨by decide, ha.word, hnext⟩

theorem exists_of_mem_anyEnds_lead (hL : ∀ l ∈ L, IsSegment l)
    (h : next ∈ anyEnds offset .lead (segmentsText L)) :
    ∃ A M, L = A ++ M ∧ (∀ a ∈ A, IsWordSegment a) ∧ next.rest = segmentsText M := by
  cases L with
  | nil => cases h
  | cons l L =>
      obtain ⟨hl, hLs⟩ := List.forall_mem_cons.mp hL
      obtain ⟨-, hword, h⟩ := (mem_anyEnds_append hl.toList_ne_nil hl.noDot).mp h
      obtain ⟨A, M, rfl, hA, hrest⟩ := exists_of_mem_anyEnds_dotted hLs (by decide) h
      exact ⟨l :: A, M, rfl, List.forall_mem_cons.mpr ⟨⟨hl.ne_empty, hword⟩, hA⟩, hrest⟩

theorem exists_mem_anyEnds_lead {A M : List String} (hA : ∀ a ∈ A, IsWordSegment a) (hne : A ≠ [])
    (hM : M ≠ []) :
    ∃ next ∈ anyEnds offset .lead (segmentsText (A ++ M)), next.rest = segmentsText M := by
  obtain ⟨a, A, rfl⟩ := List.exists_cons_of_ne_nil hne
  obtain ⟨ha, hA⟩ := List.forall_mem_cons.mp hA
  have hlead : AnyState.lead ≠ .behindDot := by decide
  obtain ⟨next, hnext, hrest⟩ :=
    exists_mem_anyEnds_dotted hA (List.append_ne_nil_of_right_ne_nil A hM) hlead
  refine ⟨next, ?_, hrest⟩
  exact (mem_anyEnds_append ha.toList_ne_nil ha.isSegment.noDot).mpr
    ⟨by decide, ha.word, hnext⟩

/-- Away from the start of the namespace a run begins with a dot. -/
theorem boundary_of_mem_anyEnds (h : next ∈ anyEnds offset .ready text) : Boundary text := by
  cases text with
  | nil => exact boundary_nil
  | cons c text =>
      by_cases hc : c = '.'
      · exact hc ▸ boundary_dot
      · exact absurd rfl ((mem_anyEnds_cons hc).mp h).1

end Cursor

end Archmap
