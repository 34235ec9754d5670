import Archmap.Proofs.Namespace.Plain

/-!
# What the segments of a plain pattern take

A segment of a plain pattern reads the text of segments that it can take, whole ones
(`along_segment`), and what it captures is all of that text. Where in the namespace it reads, and
what comes behind, it does not look at.

The captures of a plain pattern are numbered as they come, so the texts that are captured are those
of the spans, in their order (`captured_index`).
-/

namespace Archmap

/-! ## Taking segments -/

namespace PlainSegment

/-- The segment of a pattern can take the segments of a namespace. -/
def Takes : PlainSegment → List String → Prop
  | literal name, S => S = [name.text]
  | any, S | capture, S => ∃ s, IsWordSegment s ∧ S = [s]
  | captureMany, S => S ≠ [] ∧ ∀ s ∈ S, IsWordSegment s

/-- What is captured of the segments taken. -/
def groups (S : List String) : PlainSegment → List String
  | literal _ | any => []
  | capture | captureMany => [joinSegments S]

/-- What is captured between two places. -/
def spans (opened : Nat) (cursor next : Cursor) : PlainSegment → List Span
  | literal _ | any => []
  | capture | captureMany => [⟨opened + 1, cursor.offset, next.offset⟩]

variable {segment : PlainSegment} {S : List String}

theorem isSegment_literal (name : LiteralText) : IsSegment name.text :=
  ⟨name.ne_empty, fun h => (isPlainChar_spec (name.plain '.' h)).1 (by decide)⟩

theorem Takes.ne_nil (h : segment.Takes S) : S ≠ [] := by
  cases segment with
  | literal name => exact h ▸ List.cons_ne_nil _ _
  | any | capture =>
      obtain ⟨s, -, rfl⟩ := h
      exact List.cons_ne_nil _ _
  | captureMany => exact h.1

theorem Takes.isSegment (h : segment.Takes S) : ∀ s ∈ S, IsSegment s := by
  cases segment with
  | literal name =>
      cases h
      simpa using isSegment_literal name
  | any | capture =>
      obtain ⟨s, hs, rfl⟩ := h
      simpa using hs.isSegment
  | captureMany => exact fun s hs => (h.2 s hs).isSegment

end PlainSegment

/-! ## Reading the shapes -/

namespace Shape

variable {cursor next : Cursor} {outcome : Outcome} {c : Char} {shapes : List Shape}

theorem mem_map_plain {cursors : List Cursor} :
    outcome ∈ cursors.map .plain ↔ outcome.spans = [] ∧ outcome.cursor ∈ cursors := by
  obtain ⟨cursor, spans⟩ := outcome
  simp [Outcome.plain, and_comm, eq_comm]

theorem along_singleton {shape : Shape} :
    Along [shape] cursor outcome ↔ outcome ∈ shape.ways cursor := by
  rw [← mem_ways_sequence, ways_sequence_cons]
  exact iff_of_eq (congrArg (outcome ∈ · cursor) ways_followed_nothing)

/-- In front of others, a shape that captures nothing only leads to where they are read from. -/
theorem along_plain_cons {shape : Shape} {leads : Cursor → Prop}
    (h : ∀ {outcome}, outcome ∈ shape.ways cursor ↔ outcome.spans = [] ∧ leads outcome.cursor) :
    Along (shape :: shapes) cursor outcome ↔ ∃ next, leads next ∧ Along shapes next outcome := by
  rw [Along]
  simp only [h]
  constructor
  · rintro ⟨front, ⟨hspans, hnext⟩, back, hback, rfl⟩
    exact ⟨front.cursor, hnext, by rwa [hspans]⟩
  · rintro ⟨next, hnext, hback⟩
    exact ⟨.plain next, ⟨rfl, hnext⟩, outcome, hback, rfl⟩

theorem mem_ways_literal :
    outcome ∈ (literal c).ways cursor ↔ outcome.spans = [] ∧ outcome.cursor.Past [c] cursor := by
  obtain ⟨offset, rest⟩ := cursor
  obtain ⟨next, spans⟩ := outcome
  rw [ways, run]
  cases rest with
  | nil => simp [Cursor.not_past_nil]
  | cons d rest =>
      rw [Cursor.past_cons, Cursor.past_nil]
      by_cases hcd : c = d <;> simp [hcd, Outcome.plain, and_comm, eq_comm]

theorem mem_ways_segment :
    outcome ∈ segment.ways cursor ↔ outcome.spans = []
      ∧ ∃ S, PlainSegment.any.Takes S ∧ outcome.cursor.Past (segmentsText S) cursor := by
  have hrun : segment.ways cursor
      = (Cursor.wordEnds cursor.offset cursor.rest).reverse.map .plain := rfl
  rw [hrun, mem_map_plain, List.mem_reverse, Cursor.mem_wordEnds]
  refine and_congr_right fun _ => ⟨?_, ?_⟩
  · rintro ⟨word, hne, hword, hpast⟩
    refine ⟨_, ⟨_, isWordSegment_ofList hne hword, rfl⟩, ?_⟩
    rwa [segmentsText_singleton, String.toList_ofList]
  · rintro ⟨_, ⟨s, hs, rfl⟩, hpast⟩
    rw [segmentsText_singleton] at hpast
    exact ⟨s.toList, hs.toList_ne_nil, hs.word, hpast⟩

theorem mem_ways_segments :
    outcome ∈ segments.ways cursor ↔ outcome.spans = []
      ∧ ∃ S, PlainSegment.captureMany.Takes S ∧ outcome.cursor.Past (segmentsText S) cursor := by
  have hrun : segments.ways cursor
      = (Cursor.segmentsEnds cursor.offset false cursor.rest).reverse.map .plain := rfl
  rw [hrun, mem_map_plain, List.mem_reverse, Cursor.mem_segmentsEnds]
  simp only [PlainSegment.Takes, and_assoc]

/-- How far a run of segments has been read at its beginning. -/
def runState (offset : Nat) : AnyState :=
  if offset = 0 then .lead else .ready

/-- A run of segments, perhaps an empty one, leads from one place to another. -/
def RunsTo (cursor next : Cursor) : Prop :=
  next = cursor ∨ next ∈ Cursor.anyEnds cursor.offset (runState cursor.offset) cursor.rest

theorem mem_ways_anySegments :
    outcome ∈ anySegments.ways cursor ↔ outcome.spans = [] ∧ RunsTo cursor outcome.cursor := by
  have hrun : anySegments.ways cursor
      = (Cursor.anyEnds cursor.offset (runState cursor.offset) cursor.rest).reverse.map .plain
        ++ [cursor].map .plain := rfl
  rw [hrun, ← List.map_append, mem_map_plain, List.mem_append, List.mem_reverse,
    List.mem_singleton, or_comm, RunsTo]

theorem mem_ways_finish :
    outcome ∈ finish.ways cursor ↔ outcome = .plain cursor ∧ cursor.rest = [] := by
  rw [ways, run]
  split
  · rename_i hrest
    simp [hrest]
  · rename_i hrest
    simp [hrest]

theorem along_literal_cons :
    Along (.literal c :: shapes) cursor outcome ↔
      ∃ next : Cursor, next.Past [c] cursor ∧ Along shapes next outcome :=
  along_plain_cons mem_ways_literal

theorem along_literals {text : List Char} :
    Along (text.map literal) cursor outcome ↔
      outcome.spans = [] ∧ outcome.cursor.Past text cursor := by
  induction text generalizing cursor outcome with
  | nil =>
      obtain ⟨next, spans⟩ := outcome
      simp [Along, Outcome.plain, Cursor.past_nil, and_comm]
  | cons c text ih =>
      rw [List.map_cons, along_literal_cons]
      simp only [ih, and_left_comm, exists_and_left]
      exact and_congr_right fun _ => Cursor.past_append.symm

theorem mem_ways_capture_plain {index : Nat} {inner : Shape} {p : List String → Prop}
    (hinner : ∀ {outcome}, outcome ∈ inner.ways cursor ↔
      outcome.spans = [] ∧ ∃ S, p S ∧ outcome.cursor.Past (segmentsText S) cursor) :
    outcome ∈ (capture index inner).ways cursor ↔
      outcome.spans = [⟨index, cursor.offset, outcome.cursor.offset⟩]
        ∧ ∃ S, p S ∧ outcome.cursor.Past (segmentsText S) cursor := by
  rw [mem_ways_capture]
  constructor
  · rintro ⟨inner', hmem, rfl⟩
    obtain ⟨hspans, htaken⟩ := hinner.mp hmem
    exact ⟨by rw [Outcome.under, hspans], htaken⟩
  · rintro ⟨hspans, htaken⟩
    refine ⟨.plain outcome.cursor, hinner.mpr ⟨rfl, htaken⟩, ?_⟩
    rw [Outcome.under, Outcome.plain, ← hspans]

/-- A segment of a pattern reads what it can take. -/
theorem along_segment {segment : PlainSegment} {opened : Nat} :
    Along (segment.shapes opened) cursor outcome ↔
      outcome.spans = segment.spans opened cursor outcome.cursor
        ∧ ∃ S, segment.Takes S ∧ outcome.cursor.Past (segmentsText S) cursor := by
  cases segment with
  | literal name =>
      rw [PlainSegment.shapes, along_literals]
      simp [PlainSegment.spans, PlainSegment.Takes, segmentsText_singleton]
  | any => exact along_singleton.trans mem_ways_segment
  | capture =>
      refine along_singleton.trans (mem_ways_capture_plain ?_)
      rw [ways_nothing_followed]
      exact mem_ways_segment
  | captureMany => exact along_singleton.trans (mem_ways_capture_plain mem_ways_segments)

/-! ## Reading a plain pattern -/

theorem along_anySegments_cons :
    Along (.anySegments :: shapes) cursor outcome ↔
      ∃ next, RunsTo cursor next ∧ Along shapes next outcome :=
  along_plain_cons mem_ways_anySegments

theorem along_segment_append {segment : PlainSegment} {opened : Nat} :
    Along (segment.shapes opened ++ shapes) cursor outcome ↔
      ∃ S next back, segment.Takes S ∧ next.Past (segmentsText S) cursor
        ∧ Along shapes next back
        ∧ outcome = back.behind (segment.spans opened cursor next) := by
  rw [along_append]
  simp only [along_segment]
  constructor
  · rintro ⟨front, ⟨hspans, S, hS, hpast⟩, back, hback, rfl⟩
    exact ⟨S, front.cursor, back, hS, hpast, hback, by rw [hspans]⟩
  · rintro ⟨S, next, back, hS, hpast, hback, rfl⟩
    exact ⟨⟨next, segment.spans opened cursor next⟩, ⟨rfl, S, hS, hpast⟩, back, hback, rfl⟩

theorem along_start_cons {text : List Char} :
    Along (.start :: shapes) ⟨0, text⟩ outcome ↔ Along shapes ⟨0, text⟩ outcome := by
  have hstart : start.ways ⟨0, text⟩ = [.plain ⟨0, text⟩] := rfl
  rw [Along, hstart]
  simp [Outcome.plain, Outcome.behind_nil]

theorem along_finish :
    Along [.finish] cursor outcome ↔ cursor.rest = [] ∧ outcome = .plain cursor := by
  rw [along_singleton, mem_ways_finish, and_comm]

end Shape

/-- What stands between two segments of a pattern leads from one place to another. -/
def Joint.Leads : Joint → Cursor → Cursor → Prop
  | dot, cursor, next => next.Past ['.'] cursor
  | dots, cursor, next => Shape.RunsTo cursor next

theorem Shape.along_joint_cons {joint : Joint} {shapes : List Shape} {cursor : Cursor}
    {outcome : Outcome} :
    Along (joint.shape :: shapes) cursor outcome ↔
      ∃ next, joint.Leads cursor next ∧ Along shapes next outcome := by
  cases joint with
  | dot => exact along_literal_cons
  | dots => exact along_anySegments_cons

theorem Cursor.In.past {text read : List Char} {cursor next : Cursor} (h : cursor.In text)
    (hpast : next.Past read cursor) : next.In text :=
  hpast.drop h

theorem Cursor.exists_past_of_mem_anyEnds {offset : Nat} {state : AnyState} {text : List Char}
    {next : Cursor} (h : next ∈ anyEnds offset state text) :
    ∃ read, next.Past read ⟨offset, text⟩ := by
  obtain ⟨read, hpast, -⟩ :=
    reaches_iff.mp (reaches_of_mem_anyEnds (fun _ _ => trivial) trivial h)
  exact ⟨read, hpast⟩

theorem Shape.RunsTo.exists_past {cursor next : Cursor} (h : RunsTo cursor next) :
    ∃ read, next.Past read cursor := by
  rcases h with rfl | h
  · exact ⟨[], Cursor.past_nil.mpr rfl⟩
  · exact Cursor.exists_past_of_mem_anyEnds h

theorem Joint.Leads.exists_past {joint : Joint} {cursor next : Cursor}
    (h : joint.Leads cursor next) : ∃ read, next.Past read cursor := by
  cases joint with
  | dot => exact ⟨['.'], h⟩
  | dots => exact Shape.RunsTo.exists_past h

theorem Cursor.In.runsTo {text : List Char} {cursor next : Cursor} (h : cursor.In text)
    (hrun : Shape.RunsTo cursor next) : next.In text := by
  obtain ⟨read, hpast⟩ := hrun.exists_past
  exact h.past hpast

namespace PlainPattern

variable {cursor : Cursor} {outcome : Outcome} {trailing : Bool} {joint : Joint}
  {segment other : PlainSegment} {others : List (Joint × PlainSegment)} {opened : Nat}

/-- A segment of the pattern and what stands behind it are read up to the end of the namespace. -/
def ReadsFrom (trailing : Bool) (opened : Nat) (segment : PlainSegment)
    (others : List (Joint × PlainSegment)) : Cursor → Outcome → Prop :=
  Shape.Along (segment.shapes opened
    ++ (shapesBehind trailing (opened + segment.captures) others ++ [.finish]))

theorem readsFrom_nil :
    ReadsFrom trailing opened segment [] cursor outcome ↔
      ∃ S next last, segment.Takes S ∧ next.Past (segmentsText S) cursor
        ∧ (last = next ∨ trailing = true ∧ Shape.RunsTo next last) ∧ last.rest = []
        ∧ outcome = ⟨last, segment.spans opened cursor next⟩ := by
  have hend : ∀ next back, Shape.Along
      (shapesBehind trailing (opened + segment.captures) [] ++ [.finish]) next back ↔
        ∃ last, (last = next ∨ trailing = true ∧ Shape.RunsTo next last) ∧ last.rest = []
          ∧ back = .plain last := by
    intro next back
    cases trailing with
    | false => simp [shapesBehind, Shape.along_finish]
    | true =>
        have hrun : ∀ last, (last = next ∨ Shape.RunsTo next last) ↔ Shape.RunsTo next last :=
          fun last => or_iff_right_of_imp Or.inl
        simp [shapesBehind, Shape.along_anySegments_cons, Shape.along_finish, hrun]
  rw [ReadsFrom, Shape.along_segment_append]
  simp only [hend]
  constructor
  · rintro ⟨S, next, back, hS, hpast, ⟨last, hlast, hrest, rfl⟩, rfl⟩
    exact ⟨S, next, last, hS, hpast, hlast, hrest, by simp [Outcome.behind, Outcome.plain]⟩
  · rintro ⟨S, next, last, hS, hpast, hlast, hrest, rfl⟩
    exact ⟨S, next, .plain last, hS, hpast, ⟨last, hlast, hrest, rfl⟩,
      by simp [Outcome.behind, Outcome.plain]⟩

theorem readsFrom_cons :
    ReadsFrom trailing opened segment ((joint, other) :: others) cursor outcome ↔
      ∃ S next entered back, segment.Takes S ∧ next.Past (segmentsText S) cursor
        ∧ joint.Leads next entered
        ∧ ReadsFrom trailing (opened + segment.captures) other others entered back
        ∧ outcome = back.behind (segment.spans opened cursor next) := by
  rw [ReadsFrom, Shape.along_segment_append, shapesBehind, List.cons_append, List.append_assoc]
  simp only [Shape.along_joint_cons]
  constructor
  · rintro ⟨S, next, back, hS, hpast, ⟨entered, hjoint, hback⟩, rfl⟩
    exact ⟨S, next, entered, back, hS, hpast, hjoint, hback, rfl⟩
  · rintro ⟨S, next, entered, back, hS, hpast, hjoint, hback, rfl⟩
    exact ⟨S, next, back, hS, hpast, ⟨entered, hjoint, hback⟩, rfl⟩

/-- A plain pattern is read from the start of the namespace, behind a run of segments if it begins
with two dots. -/
def Reads (pattern : PlainPattern) (text : List Char) (outcome : Outcome) : Prop :=
  ∃ entered, (entered = ⟨0, text⟩ ∨ pattern.leading = true ∧ Shape.RunsTo ⟨0, text⟩ entered)
    ∧ ReadsFrom pattern.trailing 0 pattern.first pattern.others entered outcome

theorem along_shapes (pattern : PlainPattern) {text : List Char} :
    Shape.Along (.start :: (pattern.shapes ++ [.finish])) ⟨0, text⟩ outcome ↔
      pattern.Reads text outcome := by
  have hreads : ∀ cursor, ReadsFrom pattern.trailing 0 pattern.first pattern.others cursor outcome ↔
      Shape.Along (pattern.first.shapes 0 ++ (shapesBehind pattern.trailing pattern.first.captures
        pattern.others ++ [.finish])) cursor outcome := by
    intro cursor
    rw [ReadsFrom, Nat.zero_add]
  rw [Shape.along_start_cons, shapes, Reads]
  simp only [hreads]
  cases pattern.leading with
  | false => simp
  | true =>
      have hrun : ∀ entered, (entered = ⟨0, text⟩ ∨ Shape.RunsTo ⟨0, text⟩ entered) ↔
          Shape.RunsTo ⟨0, text⟩ entered := fun entered => or_iff_right_of_imp Or.inl
      simp [Shape.along_anySegments_cons, hrun]

/-- The first thing read is what the segment takes. -/
theorem ReadsFrom.exists_first (h : ReadsFrom trailing opened segment others cursor outcome) :
    ∃ S next spans, segment.Takes S ∧ next.Past (segmentsText S) cursor
      ∧ outcome.spans = segment.spans opened cursor next ++ spans := by
  obtain ⟨S, next, back, hS, hpast, -, rfl⟩ := Shape.along_segment_append.mp h
  exact ⟨S, next, back.spans, hS, hpast, rfl⟩

theorem index_spans (segment : PlainSegment) (next : Cursor) :
    (segment.spans opened cursor next).map Span.index = List.range' (opened + 1) segment.captures := by
  cases segment <;> rfl

/-- The captures are numbered as they come. -/
theorem ReadsFrom.index_spans (h : ReadsFrom trailing opened segment others cursor outcome) :
    outcome.spans.map Span.index
      = List.range' (opened + 1) (segment.captures + capturesBehind others) := by
  induction others generalizing opened segment cursor outcome with
  | nil =>
      obtain ⟨S, next, last, -, -, -, -, rfl⟩ := readsFrom_nil.mp h
      exact PlainPattern.index_spans segment next
  | cons other others ih =>
      obtain ⟨joint, other⟩ := other
      obtain ⟨S, next, entered, back, -, -, -, hback, rfl⟩ := readsFrom_cons.mp h
      rw [Outcome.behind, List.map_append, PlainPattern.index_spans, ih hback, Nat.add_right_comm,
        List.range'_append_1]
      rfl

end PlainPattern

/-! ## Captured texts -/

/-- The text between the ends of the span. -/
def Span.textIn (text : List Char) (span : Span) : String :=
  String.ofList ((text.drop span.start).take (span.stop - span.start))

namespace NamespacePattern

variable {pattern : NamespacePattern} {outcome : Outcome} {spans : List Span} {span : Span}

/-- Under a number of its own a span is found. -/
theorem captured_index (text : List Char) (h : (spans.map Span.index).Nodup) (hmem : span ∈ spans) :
    captured text spans span.index = span.textIn text := by
  have hfind : spans.find? (·.index = span.index) = some span := by
    induction spans with
    | nil => cases hmem
    | cons first spans ih =>
        obtain ⟨hfirst, hspans⟩ := List.nodup_cons.mp h
        rcases List.mem_cons.mp hmem with rfl | hmem
        · exact List.find?_cons_of_pos (by simp)
        · have hne : first.index ≠ span.index :=
            fun heq => hfirst (heq ▸ List.mem_map_of_mem hmem)
          rw [List.find?_cons_of_neg (by simpa using hne), ih hspans hmem]
  rw [captured, hfind]
  rfl

/-- If the captures are numbered as they come, their texts are those of the spans. -/
theorem match?_of_search? {ns : String}
    (hfound : pattern.shape.search? 0 ns.toList = some outcome)
    (hindex : outcome.spans.map Span.index = List.range' 1 pattern.captures) :
    pattern.match? ns = some (outcome.spans.map (Span.textIn ns.toList)) := by
  have hnodup : (outcome.spans.map Span.index).Nodup := hindex ▸ List.nodup_range'
  have hgroups : ((List.range pattern.captures).map fun i => captured ns.toList outcome.spans (i + 1))
      = (outcome.spans.map Span.index).map (captured ns.toList outcome.spans) := by
    rw [hindex, List.range'_eq_map_range, List.map_map]
    exact List.map_congr_left fun i _ => by rw [Function.comp, Nat.add_comm]
  rw [match?, hfound, Option.map_some, hgroups, List.map_map]
  exact congrArg some (List.map_congr_left fun span hspan => captured_index ns.toList hnodup hspan)

end NamespacePattern

/-- A plain pattern finds a way to read it, and finds one if there is any. The texts captured are
those on that way. -/
theorem PlainPattern.ofText_spec (pattern : PlainPattern) :
    ∃ accepted, NamespacePattern.ofText pattern.text = .ok accepted ∧ ∀ ns : String,
      match accepted.shape.search? 0 ns.toList with
      | none => ∀ outcome, ¬pattern.Reads ns.toList outcome
      | some outcome => pattern.Reads ns.toList outcome
          ∧ accepted.match? ns = some (outcome.spans.map (Span.textIn ns.toList)) := by
  refine ⟨_, ofText_text pattern, fun ns => ?_⟩
  have hhead : (Shape.sequence (.start :: (pattern.shapes ++ [.finish]))).search? 0 ns.toList
      = ((Shape.sequence (.start :: (pattern.shapes ++ [.finish]))).ways ⟨0, ns.toList⟩).head? :=
    Shape.search?_of_tied Shape.tied_sequence
  have hways : ∀ outcome, outcome ∈
      (Shape.sequence (.start :: (pattern.shapes ++ [.finish]))).ways ⟨0, ns.toList⟩ ↔
        pattern.Reads ns.toList outcome :=
    fun outcome => Shape.mem_ways_sequence.trans (along_shapes pattern)
  split
  · rename_i hfound
    rw [hhead, List.head?_eq_none_iff] at hfound
    intro outcome hreads
    rw [← hways, hfound] at hreads
    cases hreads
  · rename_i outcome hfound
    have hreads := (hways outcome).mp (List.mem_of_head? (hhead ▸ hfound))
    obtain ⟨entered, -, hfrom⟩ := id hreads
    exact ⟨hreads, NamespacePattern.match?_of_search? hfound hfrom.index_spans⟩

end Archmap
