import Archmap.Proofs.Namespace.Reading

/-!
# All ways of a match

A matcher that goes back and tries again goes through every way to read a shape, the preferred ones
first: `Shape.ways`. The matcher that runs drops a way to a place that it has reached before, which
leaves the first way to each place (`run_eq_firstWays`). The two therefore agree on where a shape can
end and on the way that is preferred.

Ways are the better form for proofs: nothing is carried from one to the next, so a sequence of shapes
may be regrouped at will, and a way through a sequence is a way through each of its members
(`Shape.Along`).
-/

namespace Archmap

/-! ## The first way to each place -/

namespace Outcome

variable {seen more : Nat} {outcome : Outcome} {outcomes others : List Outcome}

theorem testBit_mark (n : Nat) :
    (mark seen outcomes).testBit n
      = (seen.testBit n || outcomes.any fun o => decide (o.cursor.offset = n)) := by
  induction outcomes generalizing seen with
  | nil => simp [mark]
  | cons o os ih =>
      have hstep : mark seen (o :: os) = mark (seen ||| 1 <<< o.cursor.offset) os := rfl
      rw [hstep, ih, Nat.testBit_or, Nat.one_shiftLeft, Nat.testBit_two_pow, List.any_cons,
        Bool.or_assoc]

theorem isSeen_mark :
    isSeen (mark seen outcomes) outcome = true ↔
      isSeen seen outcome = true ∨ ∃ o ∈ outcomes, o.cursor.offset = outcome.cursor.offset := by
  simp [isSeen, testBit_mark]

theorem isSeen_zero : isSeen 0 outcome = false :=
  Nat.zero_testBit _

/-- Marks are the same if they say the same about every outcome. -/
theorem mark_ext (h : ∀ outcome, isSeen seen outcome = true ↔ isSeen more outcome = true) :
    seen = more :=
  Nat.eq_of_testBit_eq fun n => Bool.eq_iff_iff.mpr (h ⟨⟨n, []⟩, []⟩)

/-- The first way to each place that is not seen yet. -/
def firstWays (seen : Nat) : List Outcome → List Outcome
  | [] => []
  | o :: os => if isSeen seen o then firstWays seen os else o :: firstWays (mark seen [o]) os

theorem firstWays_cons_seen (h : isSeen seen outcome = true) :
    firstWays seen (outcome :: outcomes) = firstWays seen outcomes := by
  rw [firstWays, if_pos h]

theorem firstWays_cons_new (h : isSeen seen outcome = false) :
    firstWays seen (outcome :: outcomes)
      = outcome :: firstWays (mark seen [outcome]) outcomes := by
  rw [firstWays, if_neg (by simp [h])]

/-- Marking what is seen changes nothing. -/
theorem mark_of_seen (h : ∀ o ∈ outcomes, isSeen seen o = true) : mark seen outcomes = seen := by
  refine mark_ext fun outcome => ?_
  rw [isSeen_mark, or_iff_left_iff_imp]
  rintro ⟨o, ho, hoffset⟩
  rw [isSeen, ← hoffset]
  exact h o ho

theorem mark_cons (seen : Nat) (outcome : Outcome) (outcomes : List Outcome) :
    mark seen (outcome :: outcomes) = mark (mark seen [outcome]) outcomes :=
  rfl

theorem mark_cons_seen (h : isSeen seen outcome = true) :
    mark seen (outcome :: outcomes) = mark seen outcomes := by
  have hkept : mark seen [outcome] = seen := mark_of_seen (by simpa using h)
  rw [mark_cons, hkept]

theorem firstWays_append :
    firstWays seen (outcomes ++ others)
      = firstWays seen outcomes ++ firstWays (mark seen outcomes) others := by
  induction outcomes generalizing seen with
  | nil => rfl
  | cons o os ih =>
      rw [List.cons_append]
      cases hseen : isSeen seen o with
      | true =>
          rw [firstWays_cons_seen hseen, firstWays_cons_seen hseen, mark_cons_seen hseen, ih]
      | false =>
          rw [firstWays_cons_new hseen, firstWays_cons_new hseen, mark_cons seen o os, ih,
            List.cons_append]

/-- Places may also be dropped afterwards. -/
theorem filter_firstWays :
    (firstWays seen outcomes).filter (fun o => !isSeen more o)
      = firstWays (seen ||| more) outcomes := by
  have hor : ∀ (s : Nat) (o : Outcome),
      isSeen (s ||| more) o = (isSeen s o || isSeen more o) :=
    fun s o => Nat.testBit_or s more o.cursor.offset
  induction outcomes generalizing seen with
  | nil => rfl
  | cons o os ih =>
      cases hseen : isSeen seen o with
      | true => rw [firstWays_cons_seen hseen, firstWays_cons_seen (by simp [hor, hseen]), ih]
      | false =>
          cases hmore : isSeen more o with
          | true =>
              have hmark : mark seen [o] ||| more = seen ||| more := by
                refine mark_ext fun x => ?_
                simp only [hor, Bool.or_eq_true, isSeen_mark, List.mem_singleton,
                  exists_eq_left]
                refine ⟨?_, Or.imp_left Or.inl⟩
                rintro ((h | h) | h)
                · exact Or.inl h
                · exact Or.inr (by rw [isSeen, ← h]; exact hmore)
                · exact Or.inr h
              rw [firstWays_cons_new hseen, List.filter_cons_of_neg (by simp [hmore]), ih, hmark,
                firstWays_cons_seen (by simp [hor, hmore])]
          | false =>
              have hmark : mark seen [o] ||| more = mark (seen ||| more) [o] := by
                refine mark_ext fun x => ?_
                simp only [hor, Bool.or_eq_true, isSeen_mark, List.mem_singleton,
                  exists_eq_left]
                exact or_right_comm
              rw [firstWays_cons_new hseen, List.filter_cons_of_pos (by simp [hmore]), ih, hmark,
                firstWays_cons_new (by simp [hor, hseen, hmore])]

theorem firstWays_eq_filter :
    firstWays seen outcomes = (firstWays 0 outcomes).filter fun o => !isSeen seen o := by
  rw [filter_firstWays, Nat.zero_or]

/-- Each place that has a way keeps one, and no place is added. -/
theorem mark_firstWays : mark seen (firstWays seen outcomes) = mark seen outcomes := by
  induction outcomes generalizing seen with
  | nil => rfl
  | cons o os ih =>
      cases hseen : isSeen seen o with
      | true => rw [firstWays_cons_seen hseen, mark_cons_seen hseen, ih]
      | false => rw [firstWays_cons_new hseen, mark_cons seen o, ih, mark_cons seen o os]

theorem firstWays_map {f : Outcome → Outcome} (hf : ∀ o, (f o).cursor = o.cursor) :
    firstWays seen (outcomes.map f) = (firstWays seen outcomes).map f := by
  have hseen : ∀ (s : Nat) (o : Outcome), isSeen s (f o) = isSeen s o := by
    intro s o
    rw [isSeen, isSeen, hf]
  have hmark : ∀ (s : Nat) (o : Outcome), mark s [f o] = mark s [o] := by
    intro s o
    simp only [mark, List.foldl_cons, List.foldl_nil, hf]
  induction outcomes generalizing seen with
  | nil => rfl
  | cons o os ih =>
      rw [List.map_cons]
      cases h : isSeen seen o with
      | true => rw [firstWays_cons_seen ((hseen seen o).trans h), firstWays_cons_seen h, ih]
      | false =>
          rw [firstWays_cons_new ((hseen seen o).trans h), firstWays_cons_new h, hmark, ih,
            List.map_cons]

theorem firstWays_of_seen (h : ∀ o ∈ outcomes, isSeen seen o = true) :
    firstWays seen outcomes = [] := by
  induction outcomes with
  | nil => rfl
  | cons o os ih =>
      obtain ⟨ho, hos⟩ := List.forall_mem_cons.mp h
      rw [firstWays_cons_seen ho, ih hos]

/-- Nothing is dropped from outcomes at different places. -/
theorem firstWays_of_nodup (hnew : ∀ o ∈ outcomes, isSeen seen o = false)
    (h : outcomes.Pairwise fun o o' => o.cursor.offset ≠ o'.cursor.offset) :
    firstWays seen outcomes = outcomes := by
  induction outcomes generalizing seen with
  | nil => rfl
  | cons o os ih =>
      obtain ⟨ho, hos⟩ := List.forall_mem_cons.mp hnew
      obtain ⟨hfirst, hrest⟩ := List.pairwise_cons.mp h
      rw [firstWays_cons_new ho, ih _ hrest]
      intro o' ho'
      rw [Bool.eq_false_iff, Ne, isSeen_mark, not_or]
      refine ⟨by simp [hos o' ho'], ?_⟩
      rintro ⟨x, hx, hoffset⟩
      rw [List.mem_singleton.mp hx] at hoffset
      exact hfirst o' ho' hoffset

theorem head?_firstWays : (firstWays 0 outcomes).head? = outcomes.head? := by
  cases outcomes with
  | nil => rfl
  | cons o os => rw [firstWays_cons_new isSeen_zero, List.head?_cons, List.head?_cons]

/-- The outcome with what was captured in front of it. -/
def behind (spans : List Span) (outcome : Outcome) : Outcome :=
  ⟨outcome.cursor, spans ++ outcome.spans⟩

/-- The outcome with all that has been read since `start` captured. -/
def under (index start : Nat) (outcome : Outcome) : Outcome :=
  ⟨outcome.cursor, ⟨index, start, outcome.cursor.offset⟩ :: outcome.spans⟩

/-- The ways of one matcher, continued by those that another has from where the first ends. -/
def chain (first second : Cursor → List Outcome) (cursor : Cursor) : List Outcome :=
  (first cursor).flatMap fun o => (second o.cursor).map (.behind o.spans)

theorem mem_chain {first second : Cursor → List Outcome} {cursor : Cursor} :
    outcome ∈ chain first second cursor ↔
      ∃ front ∈ first cursor, ∃ back ∈ second front.cursor, back.behind front.spans = outcome := by
  simp [chain]

end Outcome

/-! ## Going back and trying again -/

/-- The place is one of the text. -/
def Cursor.In (text : List Char) (cursor : Cursor) : Prop :=
  text.drop cursor.offset = cursor.rest

/-- Some text has these characters behind this place. -/
theorem Cursor.exists_in (cursor : Cursor) : ∃ text, cursor.In text :=
  ⟨List.replicate cursor.offset ' ' ++ cursor.rest, List.drop_left' (List.length_replicate ..)⟩

theorem Cursor.In.eq_of_offset_eq {text : List Char} {cursor next : Cursor} (h : cursor.In text)
    (h' : next.In text) (hoffset : cursor.offset = next.offset) : cursor = next := by
  obtain ⟨offset, rest⟩ := cursor
  obtain ⟨offset', rest'⟩ := next
  cases hoffset
  have hrest : rest = rest' := h.symm.trans h'
  rw [hrest]

namespace Shape

/-- Every way to read the shape from the given place, the preferred first. -/
def ways : Shape → Cursor → List Outcome
  | followed first second, cursor => Outcome.chain first.ways second.ways cursor
  | either first second, cursor => first.ways cursor ++ second.ways cursor
  | capture index inner, cursor =>
    (inner.ways cursor).map (.under index cursor.offset)
  | nothing, cursor => nothing.run cursor
  | literal c, cursor => (literal c).run cursor
  | segment, cursor => segment.run cursor
  | segments, cursor => segments.run cursor
  | anySegments, cursor => anySegments.run cursor
  | start, cursor => start.run cursor
  | finish, cursor => finish.run cursor

variable {shape first second : Shape} {cursor : Cursor} {outcome : Outcome} {text : List Char}

theorem mem_ways_followed :
    outcome ∈ (followed first second).ways cursor ↔
      ∃ front ∈ first.ways cursor, ∃ back ∈ second.ways front.cursor,
        back.behind front.spans = outcome :=
  Outcome.mem_chain

theorem mem_ways_capture {index : Nat} :
    outcome ∈ (capture index shape).ways cursor ↔
      ∃ inner ∈ shape.ways cursor, inner.under index cursor.offset = outcome := by
  simp [ways]

theorem over_true (shape : Shape) : shape.Over fun _ => True := by
  induction shape with
  | followed first second ih₁ ih₂ => exact ⟨ih₁, ih₂⟩
  | either first second ih₁ ih₂ => exact ⟨ih₁, ih₂⟩
  | capture index inner ih => exact ih
  | nothing | literal c | segment | segments | anySegments | start | finish => trivial

theorem run_in (h : outcome ∈ shape.run cursor) (hin : cursor.In text) :
    outcome.cursor.In text :=
  (run_readFrom (fun _ _ => trivial) trivial (over_true shape) h).reaches.drop hin

/-- Places of a text lead to places of it. -/
theorem ways_in (h : outcome ∈ shape.ways cursor) (hin : cursor.In text) :
    outcome.cursor.In text := by
  induction shape generalizing cursor outcome with
  | followed first second ih₁ ih₂ =>
      obtain ⟨front, hfront, back, hback, rfl⟩ := mem_ways_followed.mp h
      have hback : back.cursor.In text := ih₂ hback (ih₁ hfront hin)
      exact hback
  | either first second ih₁ ih₂ =>
      exact (List.mem_append.mp h).elim (ih₁ · hin) (ih₂ · hin)
  | capture index inner ih =>
      obtain ⟨o, ho, rfl⟩ := mem_ways_capture.mp h
      have ho : o.cursor.In text := ih ho hin
      exact ho
  | nothing | literal c | segment | segments | anySegments | start | finish =>
      exact run_in h hin

end Shape

/-! ## Wildcards reach each place once -/

namespace Cursor

variable {offset : Nat} {text : List Char} {next : Cursor}

theorem lt_of_mem_wordEnds (h : next ∈ wordEnds offset text) : offset < next.offset := by
  obtain ⟨word, hne, -, hpast⟩ := mem_wordEnds.mp h
  exact (hpast.advances hne).1

theorem wordEnds_ascending :
    (wordEnds offset text).Pairwise fun c c' => c.offset < c'.offset := by
  induction text generalizing offset with
  | nil => exact .nil
  | cons c rest ih =>
      rw [wordEnds]
      split
      · exact .cons (fun next hnext => lt_of_mem_wordEnds hnext) ih
      · exact .nil

theorem lt_of_mem_segmentsEnds {inSegment : Bool} (h : next ∈ segmentsEnds offset inSegment text) :
    offset < next.offset := by
  induction text generalizing offset inSegment with
  | nil => cases h
  | cons c rest ih =>
      rw [segmentsEnds] at h
      split at h
      · rcases List.mem_cons.mp h with rfl | h
        · exact Nat.lt_succ_self offset
        · exact Nat.lt_of_succ_lt (ih h)
      · split at h
        · exact Nat.lt_of_succ_lt (ih h)
        · cases h

theorem segmentsEnds_ascending {inSegment : Bool} :
    (segmentsEnds offset inSegment text).Pairwise fun c c' => c.offset < c'.offset := by
  induction text generalizing offset inSegment with
  | nil => exact .nil
  | cons c rest ih =>
      rw [segmentsEnds]
      split
      · exact .cons (fun next hnext => lt_of_mem_segmentsEnds hnext) ih
      · split
        · exact ih
        · exact .nil

/-- A run of segments reads something, unless it has read word characters before. -/
theorem le_of_mem_anyEnds {state : AnyState} (h : next ∈ anyEnds offset state text) :
    offset ≤ next.offset ∧ (state ≠ .inSegment → offset < next.offset) := by
  induction text generalizing offset state with
  | nil =>
      rw [anyEnds] at h
      split at h
      · rename_i hstate
        rw [List.mem_singleton.mp h]
        exact ⟨Nat.le_refl offset, fun hne => absurd hstate hne⟩
      · cases h
  | cons c rest ih =>
      have hrest : ∀ state, next ∈ anyEnds (offset + 1) state rest → offset < next.offset :=
        fun state h => (ih h).1
      suffices offset < next.offset from ⟨Nat.le_of_lt this, fun _ => this⟩
      rw [anyEnds.eq_def] at h
      simp only at h
      split at h
      · split at h
        · cases h
        · rcases List.mem_cons.mp h with rfl | h
          · exact Nat.lt_succ_self offset
          · exact hrest _ h
      · split at h
        · cases state with
          | ready => cases h
          | lead | behindDot | inSegment => exact hrest _ h
        · cases h

theorem anyEnds_ascending {state : AnyState} :
    (anyEnds offset state text).Pairwise fun c c' => c.offset < c'.offset := by
  induction text generalizing offset state with
  | nil =>
      rw [anyEnds]
      split
      · exact List.pairwise_singleton _ _
      · exact .nil
  | cons c rest ih =>
      rw [anyEnds.eq_def]
      simp only
      split
      · split
        · exact .nil
        · exact .cons (fun next hnext => (le_of_mem_anyEnds hnext).2 (by decide)) ih
      · split
        · cases state with
          | ready => exact .nil
          | lead | behindDot | inSegment => exact ih
        · exact .nil

end Cursor

/-! ## The run keeps the first ways -/

namespace Shape

open Outcome (firstWays isSeen mark)

variable {shape : Shape} {cursor : Cursor} {text : List Char} {outcomes : List Outcome}

theorem plain_apart {cursors : List Cursor}
    (h : cursors.Pairwise fun c c' => c.offset < c'.offset) :
    (cursors.reverse.map Outcome.plain).Pairwise
      fun o o' => o.cursor.offset ≠ o'.cursor.offset := by
  rw [List.pairwise_map, List.pairwise_reverse]
  exact h.imp fun hlt => Nat.ne_of_gt hlt

theorem firstWays_of_apart
    (h : outcomes.Pairwise fun o o' => o.cursor.offset ≠ o'.cursor.offset) :
    firstWays 0 outcomes = outcomes :=
  Outcome.firstWays_of_nodup (fun _ _ => Outcome.isSeen_zero) h

/-- Where the second of two matchers starts from the first ways of the first, and from each place
yields the first of its ways, it leads to the first ways of both. `done` are places that have been
continued from, to nothing but places in `seen`. -/
theorem continueWith_firstWays {run ways : Cursor → List Outcome} {done seen : Nat}
    (hsecond : ∀ cursor, cursor.In text → run cursor = firstWays 0 (ways cursor))
    (hin : ∀ o ∈ outcomes, o.cursor.In text)
    (hdone : ∀ o ∈ outcomes, isSeen done o = true →
      ∀ x ∈ ways o.cursor, isSeen seen x = true) :
    Outcome.continueWith run seen (firstWays done outcomes)
      = firstWays seen
          (outcomes.flatMap fun o => (ways o.cursor).map (.behind o.spans)) := by
  induction outcomes generalizing done seen with
  | nil => rfl
  | cons o os ih =>
      obtain ⟨hino, hinos⟩ := List.forall_mem_cons.mp hin
      obtain ⟨hdoneo, hdoneos⟩ := List.forall_mem_cons.mp hdone
      have hmark : mark seen ((ways o.cursor).map (.behind o.spans))
          = mark seen (ways o.cursor) := List.foldl_map
      rw [List.flatMap_cons, Outcome.firstWays_append, hmark,
        Outcome.firstWays_map (f := .behind o.spans) fun _ => rfl]
      cases hseen : isSeen done o with
      | true =>
          have hall := hdoneo hseen
          rw [Outcome.firstWays_cons_seen hseen, Outcome.firstWays_of_seen hall,
            Outcome.mark_of_seen hall, List.map_nil, List.nil_append]
          exact ih hinos hdoneos
      | false =>
          have hnew : (run o.cursor).filter (fun x => !isSeen seen x)
              = firstWays seen (ways o.cursor) := by
            rw [hsecond o.cursor hino, ← Outcome.firstWays_eq_filter]
          rw [Outcome.firstWays_cons_new hseen, Outcome.continueWith]
          simp only [hnew, Outcome.mark_firstWays]
          rw [ih hinos]
          · rfl
          · intro o' ho' hseen' x hx
            rw [Outcome.isSeen_mark]
            rcases Outcome.isSeen_mark.mp hseen' with hseen' | ⟨o'', ho'', hoffset⟩
            · exact Or.inl (hdoneos o' ho' hseen' x hx)
            · -- the place of `o'` is that of `o`, so it leads to the places just marked
              rw [List.mem_singleton.mp ho''] at hoffset
              rw [← hino.eq_of_offset_eq (hinos o' ho') hoffset] at hx
              exact Or.inr ⟨x, hx, rfl⟩

theorem run_eq_firstWays_of_in (hin : cursor.In text) :
    shape.run cursor = firstWays 0 (shape.ways cursor) := by
  induction shape generalizing cursor with
  | nothing => exact (firstWays_of_apart (List.pairwise_singleton _ _)).symm
  | literal c =>
      refine (firstWays_of_apart ?_).symm
      rw [run]
      split
      · exact .nil
      · split
        · exact List.pairwise_singleton _ _
        · exact .nil
  | segment => exact (firstWays_of_apart (plain_apart Cursor.wordEnds_ascending)).symm
  | segments => exact (firstWays_of_apart (plain_apart Cursor.segmentsEnds_ascending)).symm
  | anySegments =>
      refine (firstWays_of_apart ?_).symm
      rw [run]
      refine List.pairwise_append.mpr
        ⟨plain_apart Cursor.anyEnds_ascending, List.pairwise_singleton _ _, ?_⟩
      intro o ho o' ho'
      obtain ⟨next, hnext, rfl⟩ := List.mem_map.mp ho
      rw [List.mem_singleton.mp ho']
      refine Nat.ne_of_gt ((Cursor.le_of_mem_anyEnds (List.mem_reverse.mp hnext)).2 ?_)
      split <;> decide
  | start =>
      refine (firstWays_of_apart ?_).symm
      rw [run]
      split
      · exact List.pairwise_singleton _ _
      · exact .nil
  | finish =>
      refine (firstWays_of_apart ?_).symm
      rw [run]
      split
      · exact List.pairwise_singleton _ _
      · exact .nil
  | followed first second ih₁ ih₂ =>
      rw [run, ways, ih₁ hin]
      exact continueWith_firstWays (fun _ => ih₂) (fun _ ho => ways_in ho hin)
        fun o _ hseen => by rw [Outcome.isSeen_zero] at hseen; cases hseen
  | either first second ih₁ ih₂ =>
      rw [run, ways, Outcome.firstWays_append, ← ih₁ hin, ih₂ hin, ← Outcome.firstWays_eq_filter,
        ih₁ hin, Outcome.mark_firstWays]
  | capture index inner ih =>
      rw [run, ways, ih hin]
      exact (Outcome.firstWays_map (f := .under index cursor.offset) fun _ => rfl).symm

/-- Of all ways to read a shape, a run yields the first to each place, in their order. -/
theorem run_eq_firstWays : shape.run cursor = firstWays 0 (shape.ways cursor) := by
  obtain ⟨text, hin⟩ := cursor.exists_in
  exact run_eq_firstWays_of_in hin

end Shape

end Archmap
