import Archmap.Proofs.Namespace.Taking

/-!
# Matching segment by segment

A plain pattern with single dots between its segments matches a namespace by whole segments
(`dotted_matches`): the namespace splits into segments in front, which only two dots at the beginning
let pass, segments that those of the pattern take one after the other, and segments behind, for which
two dots at the end are needed. What is captured is what the segments of the pattern take in such a
split.

Each segment of the pattern is read up to a boundary, since a dot, the end of the namespace or a run
of segments comes behind it, so by induction on the pattern it takes the first segments of those that
are left.
-/

namespace Archmap

variable {segment : PlainSegment} {segments : List PlainSegment} {S L M B C groups : List String}
  {cursor next : Cursor} {outcome : Outcome} {text : List Char} {opened : Nat}
  {leading trailing : Bool}

/-- The segments of a pattern take segments of a namespace, one after the other. -/
inductive Consumes : List PlainSegment → List String → List String → Prop
  | nil : Consumes [] [] []
  | cons {segment : PlainSegment} {segments : List PlainSegment} {S B groups : List String}
    (h : segment.Takes S) (hrest : Consumes segments B groups) :
    Consumes (segment :: segments) (S ++ B) (segment.groups S ++ groups)

/-- The segments of a namespace split into some in front, some that the segments of a pattern take,
and some behind. -/
def Splits (leading trailing : Bool) (segments : List PlainSegment) (L groups : List String) : Prop :=
  ∃ A B C, L = A ++ B ++ C ∧ (∀ a ∈ A, IsWordSegment a) ∧ (∀ c ∈ C, IsWordSegment c)
    ∧ (A ≠ [] → leading = true) ∧ (C ≠ [] → trailing = true) ∧ Consumes segments B groups

theorem Consumes.ne_nil (h : Consumes (segment :: segments) B groups) : B ≠ [] := by
  cases h with
  | cons h _ => exact List.append_ne_nil_of_left_ne_nil h.ne_nil _

/-- The pattern with single dots between its segments. -/
def PlainPattern.dotted (leading : Bool) (first : PlainSegment) (others : List PlainSegment)
    (trailing : Bool) : PlainPattern :=
  ⟨leading, first, others.map (.dot, ·), trailing⟩

/-! ## From reading to segments -/

/-- What is captured are the segments taken. -/
theorem PlainSegment.groups_eq (segment : PlainSegment) (hin : cursor.In text)
    (hpast : next.Past (segmentsText S) cursor) :
    (segment.spans opened cursor next).map (Span.textIn text) = segment.groups S := by
  have htext : ∀ index, Span.textIn text ⟨index, cursor.offset, next.offset⟩ = joinSegments S := by
    intro index
    rw [Span.textIn, hin, hpast.2, Nat.add_sub_cancel_left, hpast.1, List.take_left,
      ← toList_joinSegments, String.ofList_toList]
  cases segment with
  | literal name => rfl
  | any => rfl
  | capture | captureMany => exact congrArg (fun group => [group]) (htext _)

/-- A run of segments behind others begins at a boundary. -/
theorem boundary_of_runsTo (hoffset : cursor.offset ≠ 0) (h : Shape.RunsTo cursor next)
    (hnext : next.rest = []) : Boundary cursor.rest := by
  rcases h with rfl | h
  · exact hnext ▸ boundary_nil
  · rw [Shape.runState, if_neg hoffset] at h
    exact Cursor.boundary_of_mem_anyEnds h

/-- What has taken segments is not at the start of the namespace. -/
theorem offset_ne_zero (hS : segment.Takes S) (hpast : next.Past (segmentsText S) cursor) :
    next.offset ≠ 0 := by
  have hne := segmentsText_ne_nil hS.isSegment hS.ne_nil
  rw [hpast.2]
  exact Nat.ne_of_gt (Nat.add_pos_right _ (List.length_pos_of_ne_nil hne))

theorem runState_ne_behindDot (offset : Nat) : Shape.runState offset ≠ .behindDot := by
  rw [Shape.runState]
  split <;> decide

/-- Segments taken up to a boundary are the first of those that are left. -/
theorem PlainSegment.Takes.exists_of_past (hS : segment.Takes S) (hM : ∀ s ∈ M, IsSegment s)
    (hrest : cursor.rest = segmentsText M) (hpast : next.Past (segmentsText S) cursor)
    (hboundary : Boundary next.rest) : ∃ N, M = S ++ N ∧ next.rest = dotted N :=
  exists_of_text_append hS.isSegment hS.ne_nil hM hboundary (hpast.1.symm.trans hrest)

/-- A run to the end of the namespace takes segments of word characters. -/
theorem word_of_runsTo (hM : ∀ s ∈ M, IsSegment s) (hrest : cursor.rest = dotted M)
    (h : Shape.RunsTo cursor next) (hend : next.rest = []) : ∀ s ∈ M, IsWordSegment s := by
  rcases h with rfl | h
  · rw [dotted_eq_nil (hrest.symm.trans hend)]
    exact nofun
  · rw [hrest] at h
    obtain ⟨A, L, rfl, hA, hL⟩ :=
      Cursor.exists_of_mem_anyEnds_dotted hM (runState_ne_behindDot _) h
    have hLs : ∀ s ∈ L, IsSegment s := fun s hs => hM s (List.mem_append_right A hs)
    rw [segmentsText_eq_nil hLs (hL.symm.trans hend), List.append_nil]
    exact hA

/-- What is read from the beginning of segments up to the end of the namespace are whole segments:
first those that the pattern takes, then those that two dots at its end let pass. -/
theorem consumes_of_readsFrom {others : List PlainSegment} (hin : cursor.In text)
    (hM : ∀ s ∈ M, IsSegment s) (hrest : cursor.rest = segmentsText M)
    (h : PlainPattern.ReadsFrom trailing opened segment (others.map (.dot, ·)) cursor outcome) :
    ∃ B C, M = B ++ C ∧ (∀ c ∈ C, IsWordSegment c) ∧ (C ≠ [] → trailing = true)
      ∧ Consumes (segment :: others) B (outcome.spans.map (Span.textIn text)) := by
  -- over the pattern: each of its segments is read up to a boundary, so that segments are left
  induction others generalizing segment M cursor outcome opened with
  | nil =>
      obtain ⟨S, next, last, hS, hpast, hlast, hend, rfl⟩ := PlainPattern.readsFrom_nil.mp h
      have hrun : Shape.RunsTo next last := hlast.elim Or.inl And.right
      have hboundary := boundary_of_runsTo (offset_ne_zero hS hpast) hrun hend
      obtain ⟨N, rfl, hnext⟩ := hS.exists_of_past hM hrest hpast hboundary
      have hN : ∀ s ∈ N, IsSegment s := fun s hs => hM s (List.mem_append_right S hs)
      have hconsumes : Consumes [segment] S (segment.groups S) := by
        simpa using Consumes.cons hS .nil
      refine ⟨S, N, rfl, word_of_runsTo hN hnext hrun hend, fun hne => ?_, ?_⟩
      · rcases hlast with rfl | ⟨htrailing, -⟩
        · exact absurd (dotted_eq_nil (hnext.symm.trans hend)) hne
        · exact htrailing
      · rwa [segment.groups_eq hin hpast]
  | cons other others ih =>
      obtain ⟨S, next, entered, back, hS, hpast, hdot, hback, rfl⟩ :=
        PlainPattern.readsFrom_cons.mp h
      have hin' : entered.In text := (hin.past hpast).past hdot
      obtain ⟨N, rfl, hnext⟩ := hS.exists_of_past hM hrest hpast (hdot.1 ▸ boundary_dot)
      have hentered : dotted N = '.' :: entered.rest := hnext.symm.trans hdot.1
      have hne : N ≠ [] := by
        rintro rfl
        cases hentered
      rw [dotted_of_ne_nil hne] at hentered
      have hN : ∀ s ∈ N, IsSegment s := fun s hs => hM s (List.mem_append_right S hs)
      obtain ⟨B, C, rfl, hC, htrailing, hconsumes⟩ :=
        ih hin' hN (List.cons.inj hentered).2.symm hback
      refine ⟨S ++ B, C, (List.append_assoc S B C).symm, hC, htrailing, ?_⟩
      rw [Outcome.behind, List.map_append, segment.groups_eq hin hpast]
      exact .cons hS hconsumes

/-! ## From segments to reading -/

/-- Segments that the pattern takes can be read, if what is behind them can be passed. -/
theorem readsFrom_of_consumes {others : List PlainSegment}
    (hB : Consumes (segment :: others) B groups) (hC : ∀ c ∈ C, IsWordSegment c)
    (htrailing : C ≠ [] → trailing = true) (hrest : cursor.rest = segmentsText (B ++ C)) :
    ∃ outcome,
      PlainPattern.ReadsFrom trailing opened segment (others.map (.dot, ·)) cursor outcome := by
  induction others generalizing segment B groups cursor opened with
  | nil =>
      cases hB with
      | @cons _ _ S B groups hS hB =>
          cases hB
          rw [List.append_nil, segmentsText_append hS.ne_nil] at hrest
          let next : Cursor := ⟨cursor.offset + (segmentsText S).length, dotted C⟩
          have hlast : ∃ last, (last = next ∨ trailing = true ∧ Shape.RunsTo next last)
              ∧ last.rest = [] := by
            by_cases hnil : C = []
            · exact ⟨next, Or.inl rfl, congrArg dotted hnil⟩
            · have hne : C ++ [] ≠ [] := by rwa [List.append_nil]
              obtain ⟨last, hlast, hend⟩ := Cursor.exists_mem_anyEnds_dotted hC hne
                (runState_ne_behindDot next.offset)
              rw [List.append_nil] at hlast
              exact ⟨last, Or.inr ⟨htrailing hnil, Or.inr hlast⟩, hend⟩
          obtain ⟨last, hlast, hend⟩ := hlast
          exact ⟨_, PlainPattern.readsFrom_nil.mpr
            ⟨S, next, last, hS, ⟨hrest, rfl⟩, hlast, hend, rfl⟩⟩
  | cons other others ih =>
      cases hB with
      | @cons _ _ S B groups hS hB =>
          rw [List.append_assoc, segmentsText_append hS.ne_nil,
            dotted_of_ne_nil (List.append_ne_nil_of_left_ne_nil hB.ne_nil C)] at hrest
          let next : Cursor :=
            ⟨cursor.offset + (segmentsText S).length, '.' :: segmentsText (B ++ C)⟩
          let entered : Cursor := ⟨next.offset + 1, segmentsText (B ++ C)⟩
          have hentered : entered.rest = segmentsText (B ++ C) := rfl
          obtain ⟨back, hback⟩ := ih hB hentered
          exact ⟨_, PlainPattern.readsFrom_cons.mpr
            ⟨S, next, entered, back, hS, ⟨hrest, rfl⟩, ⟨rfl, rfl⟩, hback, rfl⟩⟩

/-! ## Whole namespaces -/

theorem splits_of_reads {others : List PlainSegment} (hL : ∀ s ∈ L, IsSegment s)
    (h : (PlainPattern.dotted leading segment others trailing).Reads (segmentsText L) outcome) :
    Splits leading trailing (segment :: others) L
      (outcome.spans.map (Span.textIn (segmentsText L))) := by
  obtain ⟨entered, hentered, hreads⟩ := h
  have hfront : ∃ A M, L = A ++ M ∧ (∀ a ∈ A, IsWordSegment a) ∧ (A ≠ [] → leading = true)
      ∧ entered.In (segmentsText L) ∧ entered.rest = segmentsText M := by
    rcases hentered with rfl | ⟨hleading, rfl | hrun⟩
    · exact ⟨[], L, rfl, nofun, absurd rfl, rfl, rfl⟩
    · exact ⟨[], L, rfl, nofun, absurd rfl, rfl, rfl⟩
    · have hin : Cursor.In (segmentsText L) ⟨0, segmentsText L⟩ := rfl
      obtain ⟨A, M, hAM, hA, hrest⟩ := Cursor.exists_of_mem_anyEnds_lead hL hrun
      exact ⟨A, M, hAM, hA, fun _ => hleading, hin.runsTo (Or.inr hrun), hrest⟩
  obtain ⟨A, M, rfl, hA, hleading, hin, hrest⟩ := hfront
  have hM : ∀ s ∈ M, IsSegment s := fun s hs => hL s (List.mem_append_right A hs)
  obtain ⟨B, C, rfl, hC, htrailing, hconsumes⟩ := consumes_of_readsFrom hin hM hrest hreads
  exact ⟨A, B, C, (List.append_assoc A B C).symm, hA, hC, hleading, htrailing, hconsumes⟩

theorem exists_reads_of_splits {others : List PlainSegment}
    (h : Splits leading trailing (segment :: others) L groups) :
    ∃ outcome,
      (PlainPattern.dotted leading segment others trailing).Reads (segmentsText L) outcome := by
  obtain ⟨A, B, C, rfl, hA, hC, hleading, htrailing, hconsumes⟩ := h
  rw [List.append_assoc]
  have hfront : ∃ entered : Cursor, (entered = ⟨0, segmentsText (A ++ (B ++ C))⟩
      ∨ leading = true ∧ Shape.RunsTo ⟨0, segmentsText (A ++ (B ++ C))⟩ entered)
      ∧ entered.rest = segmentsText (B ++ C) := by
    by_cases hnil : A = []
    · exact ⟨_, Or.inl rfl, by rw [hnil, List.nil_append]⟩
    · obtain ⟨entered, hentered, hrest⟩ := Cursor.exists_mem_anyEnds_lead hA hnil
        (List.append_ne_nil_of_left_ne_nil hconsumes.ne_nil C)
      exact ⟨entered, Or.inr ⟨hleading hnil, Or.inr hentered⟩, hrest⟩
  obtain ⟨entered, hentered, hrest⟩ := hfront
  obtain ⟨outcome, houtcome⟩ := readsFrom_of_consumes hconsumes hC htrailing hrest
  exact ⟨outcome, entered, hentered, houtcome⟩

/-- A pattern whose segments have single dots between them matches the namespaces that split into
segments which the pattern takes, others in front of these if it begins with two dots, and others
behind if it ends with two. It captures what its segments take in one such split. -/
theorem dotted_matches (leading : Bool) (first : PlainSegment) (others : List PlainSegment)
    (trailing : Bool) :
    ∃ pattern,
      NamespacePattern.ofText (PlainPattern.dotted leading first others trailing).text = .ok pattern
        ∧ ∀ L, (∀ s ∈ L, IsSegment s) →
          (pattern.accepts (joinSegments L) = true ↔
            ∃ groups, Splits leading trailing (first :: others) L groups)
          ∧ ∀ groups, pattern.match? (joinSegments L) = some groups →
            Splits leading trailing (first :: others) L groups := by
  obtain ⟨pattern, hpattern, hsearch⟩ :=
    (PlainPattern.dotted leading first others trailing).ofText_spec
  refine ⟨pattern, hpattern, fun L hL => ?_⟩
  have hfound := hsearch (joinSegments L)
  rw [NamespacePattern.accepts]
  split at hfound
  · rename_i hnone
    have hmatch : pattern.match? (joinSegments L) = none := by
      rw [NamespacePattern.match?, hnone, Option.map_none]
    rw [hmatch]
    refine ⟨iff_of_false Bool.false_ne_true ?_, fun groups h => by cases h⟩
    rintro ⟨groups, hsplits⟩
    obtain ⟨outcome, hreads⟩ := exists_reads_of_splits hsplits
    rw [toList_joinSegments] at hfound
    exact hfound outcome hreads
  · rename_i outcome _
    obtain ⟨hreads, hmatch⟩ := hfound
    rw [toList_joinSegments] at hreads hmatch
    have hsplits := splits_of_reads hL hreads
    rw [hmatch]
    refine ⟨iff_of_true rfl ⟨_, hsplits⟩, ?_⟩
    rintro groups ⟨⟩
    exact hsplits

namespace Services

def service : PlainSegment :=
  .literal ⟨"service", by decide, List.all_eq_true.mp (by decide +kernel)⟩

def namespaceSegments : List String := ["com", "shop", "service", "orders"]

theorem isWordSegment : ∀ s ∈ namespaceSegments, IsWordSegment s := by
  have hne : "" ∉ namespaceSegments := by decide
  have hword : namespaceSegments.all (·.toList.all isWord) = true := by decide +kernel
  exact fun s hs => ⟨fun h => hne (h ▸ hs), List.all_eq_true.mp (List.all_eq_true.mp hword s hs)⟩

theorem splits : Splits true false [service, .capture] namespaceSegments ["orders"] := by
  have horders : PlainSegment.capture.Takes ["orders"] :=
    ⟨"orders", isWordSegment "orders" (by decide), rfl⟩
  have hservice : service.Takes ["service"] := rfl
  refine ⟨["com", "shop"], ["service", "orders"], [], rfl, fun s hs => ?_, nofun, fun _ => rfl,
    absurd rfl, .cons hservice (.cons horders .nil)⟩
  exact isWordSegment s (List.mem_append_left ["service", "orders"] hs)

end Services

theorem dotted_matches_services :
    ∃ pattern, NamespacePattern.ofText "..service.(*)" = .ok pattern
      ∧ (∀ s ∈ Services.namespaceSegments, IsSegment s)
      ∧ pattern.accepts "com.shop.service.orders" = true
      ∧ ∀ groups, pattern.match? "com.shop.service.orders" = some groups →
          Splits true false [Services.service, .capture] Services.namespaceSegments groups := by
  obtain ⟨pattern, hpattern, hmatches⟩ := dotted_matches true Services.service [.capture] false
  have hsegment : ∀ s ∈ Services.namespaceSegments, IsSegment s :=
    fun s hs => (Services.isWordSegment s hs).isSegment
  obtain ⟨haccepts, hgroups⟩ := hmatches Services.namespaceSegments hsegment
  have hns : joinSegments Services.namespaceSegments = "com.shop.service.orders" := by decide
  rw [hns] at haccepts hgroups
  exact ⟨pattern, hpattern, hsegment, haccepts.mpr ⟨_, Services.splits⟩, hgroups⟩

end Archmap
