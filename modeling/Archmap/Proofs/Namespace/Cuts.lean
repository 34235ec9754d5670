import Archmap.Proofs.Namespace.Splitting

/-!
# Captures of whole segments

Two dots inside a pattern stand for any run of segments, also an empty one, and then what is read in
front of them and behind them is not kept apart: `(*)..(*)` captures two pieces of one segment. This
is the only way in which a capture is cut (`capturesWhole_iff`): a plain pattern captures whole
segments of every namespace exactly if no capture stands next to two dots inside it, unless it has a
literal that no segment of word characters can be.

A capture is read from the beginning of a segment if a dot or the start of the namespace stands in
front of it, and up to the end of one if a dot or the end stands behind it. For the converse, the
segments of the pattern are glued to a namespace that has no more dots than the pattern has single
ones between its segments. So all runs must be empty, and a capture next to one of them is cut.
-/

namespace Archmap

variable {segment other : PlainSegment} {others : List (Joint × PlainSegment)} {S L : List String}
  {cursor next : Cursor} {outcome : Outcome} {opened : Nat} {trailing : Bool} {span : Span}

/-- The segments in front of another, with the dots behind them. -/
def textBefore (A : List String) : List Char :=
  A.flatMap fun s => s.toList ++ ['.']

/-- The span covers whole segments of the namespace with the given ones. -/
def Span.Covers (L : List String) (span : Span) : Prop :=
  ∃ A S C, L = A ++ S ++ C ∧ S ≠ [] ∧ span.start = (textBefore A).length
    ∧ span.stop = span.start + (segmentsText S).length

namespace PlainPattern

/-- No capture stands next to two dots behind the segment. -/
def ApartFrom (segment : PlainSegment) : List (Joint × PlainSegment) → Prop
  | [] => True
  | (joint, other) :: others =>
    (joint = .dots → segment.captures = 0 ∧ other.captures = 0) ∧ ApartFrom other others

/-- No capture stands next to two dots inside the pattern. -/
def CapturesApart (pattern : PlainPattern) : Prop :=
  ApartFrom pattern.first pattern.others

end PlainPattern

/-! ## Beginnings of segments -/

/-- The place is the beginning of a segment. -/
def Cursor.AtSegment (L : List String) (cursor : Cursor) : Prop :=
  ∃ A M, L = A ++ M ∧ cursor = ⟨(textBefore A).length, segmentsText M⟩

/-- Behind a dot a segment begins. -/
theorem exists_of_segmentsText_dot {front rest : List Char} (hL : ∀ s ∈ L, IsSegment s)
    (h : segmentsText L = front ++ '.' :: rest) :
    ∃ A M, L = A ++ M ∧ textBefore A = front ++ ['.'] ∧ rest = segmentsText M := by
  induction L generalizing front with
  | nil => cases front <;> cases h
  | cons s L ih =>
      obtain ⟨hs, hLs⟩ := List.forall_mem_cons.mp hL
      rw [segmentsText] at h
      rcases List.append_eq_append_iff.mp h with ⟨more, rfl, hmore⟩ | ⟨more, hmore, hrest⟩
      · have hne : L ≠ [] := by
          rintro rfl
          cases more <;> cases hmore
        rw [dotted_of_ne_nil hne] at hmore
        cases more with
        | nil =>
            refine ⟨[s], L, rfl, ?_, (List.cons.inj hmore).2.symm⟩
            rw [List.append_nil]
            exact List.append_nil _
        | cons c more =>
            obtain ⟨rfl, hmore'⟩ := List.cons.inj hmore
            obtain ⟨A, M, rfl, hA, hrest⟩ := ih hLs hmore'
            refine ⟨s :: A, M, rfl, ?_, hrest⟩
            have htext : textBefore (s :: A) = s.toList ++ ['.'] ++ textBefore A := rfl
            rw [htext, hA]
            simp
      · -- the dot would stand in a segment, or no segment is read in front of it
        cases more with
        | nil =>
            rw [List.append_nil] at hmore
            have hne : L ≠ [] := by
              rintro rfl
              cases hrest
            rw [List.nil_append, dotted_of_ne_nil hne] at hrest
            exact ⟨[s], L, rfl, by simp [textBefore, hmore], (List.cons.inj hrest).2⟩
        | cons c more =>
            obtain ⟨rfl, -⟩ := List.cons.inj hrest
            refine absurd ?_ hs.noDot
            rw [hmore]
            simp

theorem Cursor.AtSegment.of_dot (hL : ∀ s ∈ L, IsSegment s) (hin : cursor.In (segmentsText L))
    (hdot : next.Past ['.'] cursor) : next.AtSegment L := by
  have hlength : cursor.offset < (segmentsText L).length := by
    refine Nat.lt_of_not_le fun hle => ?_
    rw [Cursor.In, List.drop_eq_nil_of_le hle, hdot.1] at hin
    cases hin
  have htext : segmentsText L = (segmentsText L).take cursor.offset ++ '.' :: next.rest := by
    have hrest : '.' :: next.rest = (segmentsText L).drop cursor.offset := (hin.trans hdot.1).symm
    rw [hrest, List.take_append_drop]
  obtain ⟨A, M, hAM, hA, hrest⟩ := exists_of_segmentsText_dot hL htext
  refine ⟨A, M, hAM, ?_⟩
  have hoffset : next.offset = (textBefore A).length := by
    rw [hA, List.length_append, List.length_take, Nat.min_eq_left (Nat.le_of_lt hlength), hdot.2]
  rw [← hoffset, ← hrest]

/-- A run leads to the end of the namespace or behind a dot. -/
theorem exists_of_mem_anyEnds {offset : Nat} {state : AnyState} {text : List Char}
    (h : next ∈ Cursor.anyEnds offset state text) :
    next.rest = [] ∨ ∃ read, next.Past (read ++ ['.']) ⟨offset, text⟩ := by
  induction text generalizing offset state with
  | nil =>
      rw [Cursor.anyEnds] at h
      split at h
      · rw [List.mem_singleton.mp h]
        exact Or.inl rfl
      · cases h
  | cons c text ih =>
      have hrest : ∀ {state}, next ∈ Cursor.anyEnds (offset + 1) state text →
          next.rest = [] ∨ ∃ read, next.Past (read ++ ['.']) ⟨offset, c :: text⟩ := by
        intro state h
        refine (ih h).imp_right ?_
        rintro ⟨read, hpast⟩
        exact ⟨c :: read, Cursor.past_cons.mpr ⟨rfl, hpast⟩⟩
      by_cases hc : c = '.'
      · subst hc
        by_cases hstate : state = .behindDot
        · rw [hstate, Cursor.anyEnds] at h
          cases h
        · rw [Cursor.anyEnds_dot hstate] at h
          rcases List.mem_cons.mp h with rfl | h
          · exact Or.inr ⟨[], Cursor.past_cons.mpr ⟨rfl, Cursor.past_nil.mpr rfl⟩⟩
          · exact hrest h
      · exact hrest ((Cursor.mem_anyEnds_cons hc).mp h).2.2

theorem Cursor.AtSegment.of_runsTo (hL : ∀ s ∈ L, IsSegment s)
    (hrun : Shape.RunsTo ⟨0, segmentsText L⟩ next) (hrest : next.rest ≠ []) : next.AtSegment L := by
  rcases hrun with rfl | hrun
  · exact ⟨[], L, rfl, rfl⟩
  · obtain ⟨read, hpast⟩ := (exists_of_mem_anyEnds hrun).resolve_left hrest
    obtain ⟨mid, hmid, hdot⟩ := Cursor.past_append.mp hpast
    have hin : Cursor.In (segmentsText L) ⟨0, segmentsText L⟩ := rfl
    exact .of_dot hL (hin.past hmid) hdot

/-! ## Captures that are not cut -/

theorem PlainSegment.mem_spans (h : span ∈ segment.spans opened cursor next) :
    segment.captures ≠ 0 ∧ span.start = cursor.offset ∧ span.stop = next.offset := by
  cases segment with
  | literal name => cases h
  | any => cases h
  | capture | captureMany =>
      cases List.mem_singleton.mp h
      exact ⟨by decide, rfl, rfl⟩

/-- What is taken from the beginning of a segment up to a boundary are whole segments. -/
theorem Span.covers_of_takes (hL : ∀ s ∈ L, IsSegment s) (hS : segment.Takes S)
    (hcursor : cursor.AtSegment L) (hpast : next.Past (segmentsText S) cursor)
    (hboundary : Boundary next.rest) (hstart : span.start = cursor.offset)
    (hstop : span.stop = next.offset) : span.Covers L := by
  obtain ⟨A, M, rfl, rfl⟩ := hcursor
  have hM : ∀ s ∈ M, IsSegment s := fun s hs => hL s (List.mem_append_right A hs)
  obtain ⟨C, rfl, -⟩ := hS.exists_of_past hM rfl hpast hboundary
  refine ⟨A, S, C, (List.append_assoc A S C).symm, hS.ne_nil, hstart, ?_⟩
  rw [hstop, hpast.2, hstart]

theorem covers_of_readsFrom (hL : ∀ s ∈ L, IsSegment s) (hin : cursor.In (segmentsText L))
    (hcursor : segment.captures ≠ 0 → cursor.AtSegment L)
    (hapart : PlainPattern.ApartFrom segment others)
    (h : PlainPattern.ReadsFrom trailing opened segment others cursor outcome) :
    ∀ span ∈ outcome.spans, span.Covers L := by
  induction others generalizing segment cursor outcome opened with
  | nil =>
      obtain ⟨S, next, last, hS, hpast, hlast, hend, rfl⟩ := PlainPattern.readsFrom_nil.mp h
      have hrun : Shape.RunsTo next last := hlast.elim Or.inl And.right
      intro span hspan
      obtain ⟨hcaptures, hstart, hstop⟩ := PlainSegment.mem_spans hspan
      exact Span.covers_of_takes hL hS (hcursor hcaptures) hpast
        (boundary_of_runsTo (offset_ne_zero hS hpast) hrun hend) hstart hstop
  | cons step others ih =>
      obtain ⟨joint, other⟩ := step
      obtain ⟨hjoint, hapart⟩ := hapart
      obtain ⟨S, next, entered, back, hS, hpast, hleads, hback, rfl⟩ :=
        PlainPattern.readsFrom_cons.mp h
      intro span hspan
      cases joint with
      | dot =>
          have hin' := hin.past hpast
          rcases List.mem_append.mp hspan with hspan | hspan
          · obtain ⟨hcaptures, hstart, hstop⟩ := PlainSegment.mem_spans hspan
            exact Span.covers_of_takes hL hS (hcursor hcaptures) hpast
              (hleads.1 ▸ boundary_dot) hstart hstop
          · exact ih (hin'.past hleads) (fun _ => .of_dot hL hin' hleads) hapart hback span hspan
      | dots =>
          obtain ⟨hsegment, hother⟩ := hjoint rfl
          rcases List.mem_append.mp hspan with hspan | hspan
          · exact absurd hsegment (PlainSegment.mem_spans hspan).1
          · exact ih ((hin.past hpast).runsTo hleads) (absurd hother) hapart hback span hspan

theorem covers_of_reads {pattern : PlainPattern} (hL : ∀ s ∈ L, IsSegment s)
    (hapart : pattern.CapturesApart) (h : pattern.Reads (segmentsText L) outcome) :
    ∀ span ∈ outcome.spans, span.Covers L := by
  obtain ⟨entered, hentered, hreads⟩ := h
  have hrun : Shape.RunsTo ⟨0, segmentsText L⟩ entered := hentered.elim Or.inl And.right
  have hin : Cursor.In (segmentsText L) ⟨0, segmentsText L⟩ := rfl
  refine covers_of_readsFrom hL (hin.runsTo hrun) (fun _ => .of_runsTo hL hrun ?_) hapart hreads
  -- the first segment of the pattern reads something
  obtain ⟨S, next, -, hS, hpast, -⟩ := hreads.exists_first
  rw [hpast.1]
  exact List.append_ne_nil_of_left_ne_nil (segmentsText_ne_nil hS.isSegment hS.ne_nil) _

/-! ## Literals that segments can be -/

/-- If the segment is a literal, it is made of word characters. -/
def PlainSegment.WordLiteral : PlainSegment → Prop
  | literal name => ∀ c ∈ name.text.toList, isWord c = true
  | any | capture | captureMany => True

def PlainPattern.WordLiterals (pattern : PlainPattern) : Prop :=
  pattern.first.WordLiteral ∧ ∀ other ∈ pattern.others, other.2.WordLiteral

theorem forall_mem_segmentsText {p : Char → Prop} (hdot : p '.')
    (h : ∀ s ∈ S, ∀ c ∈ s.toList, p c) : ∀ c ∈ segmentsText S, p c := by
  have hdotted : ∀ S : List String, (∀ s ∈ S, ∀ c ∈ s.toList, p c) → ∀ c ∈ dotted S, p c := by
    intro S hS c hc
    obtain ⟨s, hs, hc⟩ := List.mem_flatMap.mp hc
    rcases List.mem_cons.mp hc with rfl | hc
    · exact hdot
    · exact hS s hs c hc
  cases S with
  | nil => exact nofun
  | cons s S =>
      obtain ⟨hs, hS⟩ := List.forall_mem_cons.mp h
      exact List.forall_mem_append.mpr ⟨hs, hdotted S hS⟩

/-- What is taken from word characters is made of these. -/
theorem PlainSegment.Takes.wordLiteral (hS : segment.Takes S)
    (hpast : next.Past (segmentsText S) cursor)
    (hword : ∀ c ∈ cursor.rest, isWord c = true ∨ c = '.') : segment.WordLiteral := by
  cases segment with
  | any | capture | captureMany => trivial
  | literal name =>
      cases hS
      intro c hc
      have hmem : c ∈ cursor.rest := by
        rw [hpast.1, segmentsText_singleton]
        exact List.mem_append_left _ hc
      refine (hword c hmem).resolve_right ?_
      rintro rfl
      exact (PlainSegment.isSegment_literal name).noDot hc

theorem wordLiterals_of_readsFrom (hword : ∀ c ∈ cursor.rest, isWord c = true ∨ c = '.')
    (h : PlainPattern.ReadsFrom trailing opened segment others cursor outcome) :
    segment.WordLiteral ∧ ∀ other ∈ others, other.2.WordLiteral := by
  induction others generalizing segment cursor outcome opened with
  | nil =>
      obtain ⟨S, next, -, hS, hpast, -⟩ := h.exists_first
      exact ⟨hS.wordLiteral hpast hword, nofun⟩
  | cons step others ih =>
      obtain ⟨joint, other⟩ := step
      obtain ⟨S, next, entered, back, hS, hpast, hleads, hback, rfl⟩ :=
        PlainPattern.readsFrom_cons.mp h
      obtain ⟨read, hread⟩ := hleads.exists_past
      refine ⟨hS.wordLiteral hpast hword, List.forall_mem_cons.mpr (ih (fun c hc => ?_) hback)⟩
      refine hword c ?_
      rw [hpast.1, hread.1]
      exact List.mem_append_right _ (List.mem_append_right read hc)

/-! ## Captures that are cut -/

/-- The characters before a segment that others are in front of. -/
theorem segmentsText_append_of_ne_nil {A M : List String} (hM : M ≠ []) :
    segmentsText (A ++ M) = textBefore A ++ segmentsText M := by
  induction A with
  | nil => rfl
  | cons a A ih =>
      have hbefore : textBefore (a :: A) = a.toList ++ ['.'] ++ textBefore A := rfl
      rw [List.cons_append, segmentsText, dotted_of_ne_nil (List.append_ne_nil_of_right_ne_nil A hM),
        ih, hbefore]
      simp

theorem Span.Covers.boundary (h : span.Covers L) :
    Boundary ((segmentsText L).drop span.stop) := by
  obtain ⟨A, S, C, rfl, hS, hstart, hstop⟩ := h
  rw [hstop, hstart, List.append_assoc,
    segmentsText_append_of_ne_nil (List.append_ne_nil_of_left_ne_nil hS C),
    ← List.drop_drop, List.drop_left, segmentsText_append hS, List.drop_left]
  exact boundary_dotted C

theorem Span.Covers.eq_dot {front rest : List Char} {c : Char} (h : span.Covers L)
    (htext : segmentsText L = front ++ c :: rest) (hstart : span.start = (front ++ [c]).length) :
    c = '.' := by
  obtain ⟨A, S, C, rfl, hS, hA, -⟩ := h
  rw [List.append_assoc, segmentsText_append_of_ne_nil (List.append_ne_nil_of_left_ne_nil hS C),
    ← List.singleton_append, ← List.append_assoc] at htext
  obtain ⟨hbefore, -⟩ := List.append_inj htext (hA.symm.trans hstart)
  rcases List.eq_nil_or_concat A with rfl | ⟨A, a, rfl⟩
  · cases front <;> cases hbefore
  · have hlast : textBefore (A.concat a) = textBefore A ++ a.toList ++ ['.'] := by
      simp [textBefore]
    rw [hlast] at hbefore
    exact (List.cons.inj (List.append_inj' hbefore rfl).2).1.symm

/-- Segments begin and end with characters other than dots. -/
theorem exists_first_char (hS : ∀ s ∈ S, IsSegment s) (hne : S ≠ []) :
    ∃ c rest, segmentsText S = c :: rest ∧ c ≠ '.' := by
  obtain ⟨s, S, rfl⟩ := List.exists_cons_of_ne_nil hne
  have hs := hS s List.mem_cons_self
  obtain ⟨c, rest, htext⟩ := List.exists_cons_of_ne_nil hs.toList_ne_nil
  refine ⟨c, rest ++ dotted S, by rw [segmentsText, htext, List.cons_append], ?_⟩
  rintro rfl
  exact hs.noDot (htext ▸ List.mem_cons_self)

theorem exists_last_char (hS : ∀ s ∈ S, IsSegment s) (hne : S ≠ []) :
    ∃ front c, segmentsText S = front ++ [c] ∧ c ≠ '.' := by
  rcases List.eq_nil_or_concat S with rfl | ⟨S, s, rfl⟩
  · exact absurd rfl hne
  · have hs := hS s (by simp)
    rcases List.eq_nil_or_concat s.toList with htext | ⟨text, c, htext⟩
    · exact absurd htext hs.toList_ne_nil
    · rw [List.concat_eq_append] at htext ⊢
      refine ⟨textBefore S ++ text, c, ?_, ?_⟩
      · rw [segmentsText_append_of_ne_nil (List.cons_ne_nil s []), segmentsText_singleton, htext,
          List.append_assoc]
      · rintro rfl
        refine hs.noDot ?_
        rw [htext]
        simp

/-! ## Counting dots -/

/-- How many single dots stand between the segments. -/
def PlainPattern.dots (others : List (Joint × PlainSegment)) : Nat :=
  others.countP fun other => other.1 = .dot

theorem Cursor.Past.count_le {read : List Char} (h : next.Past read cursor) :
    next.rest.count '.' ≤ cursor.rest.count '.' := by
  rw [h.1, List.count_append]
  exact Nat.le_add_left _ _

theorem count_lt_of_mem_anyEnds {offset : Nat} {state : AnyState} {text : List Char}
    (hstate : state = .lead ∨ state = .ready) (h : next ∈ Cursor.anyEnds offset state text) :
    next.rest.count '.' < text.count '.' := by
  induction text generalizing offset state with
  | nil => rcases hstate with rfl | rfl <;> cases h
  | cons c text ih =>
      by_cases hc : c = '.'
      · subst hc
        have hbehind : state ≠ .behindDot := by rcases hstate with rfl | rfl <;> decide
        rw [Cursor.anyEnds_dot hbehind] at h
        rw [List.count_cons_self, Nat.lt_succ_iff]
        rcases List.mem_cons.mp h with rfl | h
        · exact Nat.le_refl _
        · obtain ⟨read, hpast⟩ := Cursor.exists_past_of_mem_anyEnds h
          exact hpast.count_le
      · obtain ⟨hready, -, h⟩ := (Cursor.mem_anyEnds_cons hc).mp h
        rw [List.count_cons_of_ne hc]
        rcases hstate with rfl | rfl
        · exact ih (Or.inl rfl) h
        · exact absurd rfl hready

/-- A run that reads no dot is empty. -/
theorem Shape.RunsTo.eq_or_lt (h : Shape.RunsTo cursor next) :
    next = cursor ∨ next.rest.count '.' < cursor.rest.count '.' := by
  refine h.imp_right fun h => count_lt_of_mem_anyEnds ?_ h
  rw [Shape.runState]
  split
  · exact Or.inl rfl
  · exact Or.inr rfl

/-! ## Captures next to empty runs -/

theorem PlainSegment.exists_mem_spans (h : segment.captures ≠ 0) :
    ∃ span ∈ segment.spans opened cursor next,
      span.start = cursor.offset ∧ span.stop = next.offset := by
  cases segment with
  | literal name => exact absurd rfl h
  | any => exact absurd rfl h
  | capture | captureMany => exact ⟨_, List.mem_singleton_self _, rfl, rfl⟩

/-- Where a segment of the pattern is read next, no segment of the namespace ends. -/
theorem not_covers_of_stop (hin : cursor.In (segmentsText L)) (hS : segment.Takes S)
    (hpast : next.Past (segmentsText S) cursor) (hstop : span.stop = cursor.offset) :
    ¬span.Covers L := by
  intro hcovers
  obtain ⟨c, rest, htext, hc⟩ := exists_first_char hS.isSegment hS.ne_nil
  have hboundary := hcovers.boundary
  rw [hstop, hin, hpast.1, htext] at hboundary
  exact hc (hboundary c rfl)

/-- Where a segment of the pattern has been read, no segment of the namespace begins. -/
theorem not_covers_of_start (hin : cursor.In (segmentsText L)) (hS : segment.Takes S)
    (hpast : next.Past (segmentsText S) cursor) (hstart : span.start = next.offset) :
    ¬span.Covers L := by
  intro hcovers
  obtain ⟨front, c, htext, hc⟩ := exists_last_char hS.isSegment hS.ne_nil
  have hrest : cursor.rest = front ++ c :: next.rest := by
    rw [hpast.1, htext, List.append_assoc, List.singleton_append]
  have hlength : ((segmentsText L).take cursor.offset).length = cursor.offset := by
    rw [List.length_take]
    refine Nat.min_eq_left (Nat.le_of_not_lt fun hlt => ?_)
    rw [Cursor.In, List.drop_eq_nil_of_le (Nat.le_of_lt hlt), hrest] at hin
    cases front <;> cases hin
  have hwhole : segmentsText L = (segmentsText L).take cursor.offset ++ front ++ c :: next.rest := by
    rw [List.append_assoc, ← hrest, ← hin, List.take_append_drop]
  refine hc (hcovers.eq_dot hwhole ?_)
  rw [hstart, hpast.2, htext, List.append_assoc]
  simp only [List.length_append, hlength]

namespace PlainPattern

theorem dots_dot : dots ((.dot, other) :: others) = dots others + 1 :=
  List.countP_cons_of_pos rfl

theorem dots_dots : dots ((.dots, other) :: others) = dots others :=
  List.countP_cons_of_neg (by simp)

theorem ReadsFrom.dots_le (h : ReadsFrom trailing opened segment others cursor outcome) :
    dots others ≤ cursor.rest.count '.' := by
  induction others generalizing segment cursor outcome opened with
  | nil => exact Nat.zero_le _
  | cons step others ih =>
      obtain ⟨joint, other⟩ := step
      obtain ⟨S, next, entered, back, hS, hpast, hleads, hback, rfl⟩ := readsFrom_cons.mp h
      refine Nat.le_trans ?_ hpast.count_le
      cases joint with
      | dot =>
          have hdot : next.rest = '.' :: entered.rest := hleads.1
          rw [dots_dot, hdot, List.count_cons_self]
          exact Nat.succ_le_succ (ih hback)
      | dots =>
          obtain ⟨read, hread⟩ := hleads.exists_past
          rw [dots_dots]
          exact Nat.le_trans (ih hback) hread.count_le

/-- Without dots to spare all runs are empty, so a capture next to one of them is cut. -/
theorem ReadsFrom.exists_cut (hin : cursor.In (segmentsText L))
    (h : ReadsFrom trailing opened segment others cursor outcome)
    (hcount : cursor.rest.count '.' ≤ dots others) (hapart : ¬ApartFrom segment others) :
    ∃ span ∈ outcome.spans, ¬span.Covers L := by
  induction others generalizing segment cursor outcome opened with
  | nil => exact absurd trivial hapart
  | cons step others ih =>
      obtain ⟨joint, other⟩ := step
      obtain ⟨S, next, entered, back, hS, hpast, hleads, hback, rfl⟩ := readsFrom_cons.mp h
      have hbehind : (∃ span ∈ back.spans, ¬span.Covers L) →
          ∃ span ∈ (back.behind (segment.spans opened cursor next)).spans, ¬span.Covers L := by
        rintro ⟨span, hspan, hcut⟩
        exact ⟨span, List.mem_append_right _ hspan, hcut⟩
      have hcount := Nat.le_trans hpast.count_le hcount
      cases joint with
      | dot =>
          have hdot : next.rest = '.' :: entered.rest := hleads.1
          rw [hdot, List.count_cons_self, dots_dot] at hcount
          refine hbehind (ih ((hin.past hpast).past hleads) hback
            (Nat.le_of_succ_le_succ hcount) fun happart => hapart ⟨nofun, happart⟩)
      | dots =>
          rw [dots_dots] at hcount
          have hempty : entered = next := by
            refine (Shape.RunsTo.eq_or_lt hleads).resolve_right fun hlt => ?_
            exact absurd hback.dots_le (by omega)
          subst hempty
          have hin' := hin.past hpast
          obtain ⟨S', next', spans, hS', hpast', hspans⟩ := hback.exists_first
          by_cases hsegment : segment.captures = 0
          · by_cases hother : other.captures = 0
            · refine hbehind (ih hin' hback hcount fun happart => ?_)
              exact hapart ⟨fun _ => ⟨hsegment, hother⟩, happart⟩
            · obtain ⟨span, hspan, hstart, -⟩ := PlainSegment.exists_mem_spans hother
              refine hbehind ⟨span, ?_, not_covers_of_start hin hS hpast hstart⟩
              rw [hspans]
              exact List.mem_append_left spans hspan
          · obtain ⟨span, hspan, -, hstop⟩ := PlainSegment.exists_mem_spans hsegment
            exact ⟨span, List.mem_append_left _ hspan, not_covers_of_stop hin' hS' hpast' hstop⟩

end PlainPattern

/-! ## Gluing -/

namespace PlainSegment

/-- A segment that the segment of the pattern takes. -/
def sample : PlainSegment → String
  | literal name => name.text
  | any | capture | captureMany => "a"

theorem isWordSegment_a : IsWordSegment "a" :=
  ⟨by decide, List.all_eq_true.mp (by decide +kernel)⟩

theorem isWordSegment_sample (h : segment.WordLiteral) : IsWordSegment segment.sample := by
  cases segment with
  | literal name => exact ⟨name.ne_empty, h⟩
  | any | capture | captureMany => exact isWordSegment_a

theorem takes_sample (segment : PlainSegment) : segment.Takes [segment.sample] := by
  cases segment with
  | literal name => rfl
  | any | capture => exact ⟨_, isWordSegment_a, rfl⟩
  | captureMany =>
      refine ⟨List.cons_ne_nil _ _, fun s hs => ?_⟩
      rw [List.mem_singleton.mp hs]
      exact isWordSegment_a

end PlainSegment

namespace PlainPattern

/-- The segments that are left if two dots between segments of the pattern stand for nothing. -/
def glued (segment : PlainSegment) : List (Joint × PlainSegment) → List String
  | [] => [segment.sample]
  | (.dot, other) :: others => segment.sample :: glued other others
  | (.dots, other) :: others => (glued other others).modifyHead (segment.sample ++ ·)

theorem exists_glued_eq_cons (segment : PlainSegment) (others : List (Joint × PlainSegment)) :
    ∃ s S, glued segment others = s :: S := by
  induction others generalizing segment with
  | nil => exact ⟨_, _, rfl⟩
  | cons step others ih =>
      obtain ⟨joint, other⟩ := step
      cases joint with
      | dot => exact ⟨_, _, rfl⟩
      | dots =>
          obtain ⟨s, S, hglued⟩ := ih other
          exact ⟨segment.sample ++ s, S, by rw [glued, hglued, List.modifyHead_cons]⟩

theorem segmentsText_glued_dots :
    segmentsText (glued segment ((.dots, other) :: others))
      = segmentsText [segment.sample] ++ segmentsText (glued other others) := by
  obtain ⟨s, S, hglued⟩ := exists_glued_eq_cons other others
  rw [glued, hglued, List.modifyHead_cons, segmentsText_singleton, segmentsText, segmentsText,
    String.toList_append, List.append_assoc]

theorem segmentsText_glued_dot :
    segmentsText (glued segment ((.dot, other) :: others))
      = segmentsText [segment.sample] ++ '.' :: segmentsText (glued other others) := by
  obtain ⟨s, S, hglued⟩ := exists_glued_eq_cons other others
  rw [glued, hglued, segmentsText, dotted_cons, segmentsText_singleton]

theorem isWordSegment_glued (h : segment.WordLiteral)
    (hothers : ∀ other ∈ others, other.2.WordLiteral) :
    ∀ s ∈ glued segment others, IsWordSegment s := by
  induction others generalizing segment with
  | nil => simpa [glued] using PlainSegment.isWordSegment_sample h
  | cons step others ih =>
      obtain ⟨joint, other⟩ := step
      obtain ⟨hother, hothers⟩ := List.forall_mem_cons.mp hothers
      have hsample := PlainSegment.isWordSegment_sample h
      have hglued := ih hother hothers
      cases joint with
      | dot => exact List.forall_mem_cons.mpr ⟨hsample, hglued⟩
      | dots =>
          obtain ⟨s, S, hs⟩ := exists_glued_eq_cons other others
          rw [hs] at hglued
          obtain ⟨hword, hS⟩ := List.forall_mem_cons.mp hglued
          rw [glued, hs, List.modifyHead_cons]
          exact List.forall_mem_cons.mpr ⟨hsample.append hword, hS⟩

theorem count_glued (h : segment.WordLiteral) (hothers : ∀ other ∈ others, other.2.WordLiteral) :
    (segmentsText (glued segment others)).count '.' = dots others := by
  have hsample : ∀ {segment : PlainSegment}, segment.WordLiteral →
      (segmentsText [segment.sample]).count '.' = 0 := by
    intro segment h
    rw [segmentsText_singleton]
    exact List.count_eq_zero.mpr (PlainSegment.isWordSegment_sample h).isSegment.noDot
  induction others generalizing segment with
  | nil => exact hsample h
  | cons step others ih =>
      obtain ⟨joint, other⟩ := step
      obtain ⟨hother, hmore⟩ := List.forall_mem_cons.mp hothers
      cases joint with
      | dot =>
          rw [segmentsText_glued_dot, List.count_append, hsample h, List.count_cons_self,
            ih hother hmore, dots_dot, Nat.zero_add]
      | dots =>
          rw [segmentsText_glued_dots, List.count_append, hsample h, ih hother hmore, dots_dots,
            Nat.zero_add]

/-- The glued segments can be read with empty runs. -/
theorem exists_readsFrom_glued (hrest : cursor.rest = segmentsText (glued segment others)) :
    ∃ outcome, ReadsFrom trailing opened segment others cursor outcome := by
  induction others generalizing segment cursor opened with
  | nil =>
      let next : Cursor := ⟨cursor.offset + (segmentsText [segment.sample]).length, []⟩
      have hpast : next.Past (segmentsText [segment.sample]) cursor :=
        ⟨hrest.trans (List.append_nil _).symm, rfl⟩
      exact ⟨_, readsFrom_nil.mpr
        ⟨_, next, next, segment.takes_sample, hpast, Or.inl rfl, rfl, rfl⟩⟩
  | cons step others ih =>
      obtain ⟨joint, other⟩ := step
      cases joint with
      | dot =>
          rw [segmentsText_glued_dot] at hrest
          let next : Cursor := ⟨cursor.offset + (segmentsText [segment.sample]).length,
            '.' :: segmentsText (glued other others)⟩
          let entered : Cursor := ⟨next.offset + 1, segmentsText (glued other others)⟩
          have hentered : entered.rest = segmentsText (glued other others) := rfl
          obtain ⟨back, hback⟩ := ih hentered
          exact ⟨_, readsFrom_cons.mpr ⟨_, next, entered, back, segment.takes_sample, ⟨hrest, rfl⟩,
            ⟨rfl, rfl⟩, hback, rfl⟩⟩
      | dots =>
          rw [segmentsText_glued_dots] at hrest
          let next : Cursor := ⟨cursor.offset + (segmentsText [segment.sample]).length,
            segmentsText (glued other others)⟩
          have hnext : next.rest = segmentsText (glued other others) := rfl
          obtain ⟨back, hback⟩ := ih hnext
          exact ⟨_, readsFrom_cons.mpr ⟨_, next, next, back, segment.takes_sample, ⟨hrest, rfl⟩,
            Or.inl rfl, hback, rfl⟩⟩

end PlainPattern

/-! ## Plain patterns that capture whole segments -/

theorem wordLiterals_of_reads {pattern : PlainPattern} (hL : ∀ s ∈ L, IsWordSegment s)
    (h : pattern.Reads (segmentsText L) outcome) : pattern.WordLiterals := by
  obtain ⟨entered, hentered, hreads⟩ := h
  have hrun : Shape.RunsTo ⟨0, segmentsText L⟩ entered := hentered.elim Or.inl And.right
  obtain ⟨read, hpast⟩ := hrun.exists_past
  refine wordLiterals_of_readsFrom (fun c hc => ?_) hreads
  have hword : ∀ c ∈ segmentsText L, isWord c = true ∨ c = '.' :=
    forall_mem_segmentsText (Or.inr rfl) fun s hs c hc => Or.inl ((hL s hs).word c hc)
  have hrest : segmentsText L = read ++ entered.rest := hpast.1
  exact hword c (hrest ▸ List.mem_append_right read hc)

/-- If a capture stands next to two dots inside the pattern, there is a namespace of which any way to
read it cuts a capture. -/
theorem exists_cut_of_not_apart {pattern : PlainPattern} (hwords : pattern.WordLiterals)
    (hapart : ¬pattern.CapturesApart) :
    ∃ L, (∀ s ∈ L, IsWordSegment s) ∧ (∃ outcome, pattern.Reads (segmentsText L) outcome)
      ∧ ∀ outcome, pattern.Reads (segmentsText L) outcome →
          ∃ span ∈ outcome.spans, ¬span.Covers L := by
  obtain ⟨hfirst, hothers⟩ := hwords
  refine ⟨PlainPattern.glued pattern.first pattern.others,
    PlainPattern.isWordSegment_glued hfirst hothers, ?_, ?_⟩
  · have hstart : Cursor.rest ⟨0, segmentsText (PlainPattern.glued pattern.first pattern.others)⟩
        = segmentsText (PlainPattern.glued pattern.first pattern.others) := rfl
    obtain ⟨outcome, hreads⟩ := PlainPattern.exists_readsFrom_glued hstart
    exact ⟨outcome, _, Or.inl rfl, hreads⟩
  · rintro outcome ⟨entered, hentered, hreads⟩
    have hrun : Shape.RunsTo ⟨0, _⟩ entered := hentered.elim Or.inl And.right
    obtain ⟨read, hpast⟩ := hrun.exists_past
    have hcount := hpast.count_le
    rw [PlainPattern.count_glued hfirst hothers] at hcount
    have hin : Cursor.In (segmentsText (PlainPattern.glued pattern.first pattern.others)) ⟨0, _⟩ := rfl
    exact hreads.exists_cut (hin.runsTo hrun) hcount hapart

/-- A plain pattern captures the texts of spans. These cover whole segments, whatever the namespace,
exactly if no capture stands next to two dots inside the pattern, unless one of its literals is no
segment of word characters, so that it matches no namespace made of these. -/
theorem capturesWhole_iff (pattern : PlainPattern) :
    ∃ accepted, NamespacePattern.ofText pattern.text = .ok accepted
      ∧ (∀ ns outcome, accepted.shape.search? 0 ns.toList = some outcome →
          accepted.match? ns = some (outcome.spans.map (Span.textIn ns.toList)))
      ∧ ((∀ L, (∀ s ∈ L, IsWordSegment s) → ∀ outcome,
          accepted.shape.search? 0 (joinSegments L).toList = some outcome →
            ∀ span ∈ outcome.spans, span.Covers L)
        ↔ pattern.CapturesApart ∨ ¬pattern.WordLiterals) := by
  obtain ⟨accepted, haccepted, hsearch⟩ := pattern.ofText_spec
  have hreads : ∀ ns outcome, accepted.shape.search? 0 ns.toList = some outcome →
      pattern.Reads ns.toList outcome
        ∧ accepted.match? ns = some (outcome.spans.map (Span.textIn ns.toList)) := by
    intro ns outcome hfound
    have hspec := hsearch ns
    rwa [hfound] at hspec
  refine ⟨accepted, haccepted, fun ns outcome hfound => (hreads ns outcome hfound).2,
    fun hwhole => ?_, fun h L hL outcome hfound => ?_⟩
  · by_contra hnot
    rw [not_or, not_not] at hnot
    obtain ⟨L, hL, ⟨way, hway⟩, hcut⟩ := exists_cut_of_not_apart hnot.2 hnot.1
    have hspec := hsearch (joinSegments L)
    split at hspec
    · rw [toList_joinSegments] at hspec
      exact hspec way hway
    · rename_i outcome hfound
      rw [toList_joinSegments] at hspec
      obtain ⟨span, hspan, hnone⟩ := hcut outcome hspec.1
      exact hnone (hwhole L hL outcome hfound span hspan)
  · have hway : pattern.Reads (segmentsText L) outcome :=
      toList_joinSegments L ▸ (hreads _ outcome hfound).1
    refine h.elim (fun hapart => ?_) fun hwords => absurd (wordLiterals_of_reads hL hway) hwords
    exact covers_of_reads (fun s hs => (hL s hs).isSegment) hapart hway

/-- Two captures of pieces of the one segment of a namespace. -/
theorem match?_cut :
    (NamespacePattern.ofText "(*)..(*)").map (·.match? "ab") = .ok (some ["a", "b"])
      ∧ segments "ab" = ["ab"] := by
  decide +kernel

end Archmap
