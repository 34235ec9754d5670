import Archmap.Namespace.Matching

/-!
# What a match can read

A shape reads word characters, dots and its own literals, and nothing else. Hence so does everything
that is captured on the way: a capture is what was read between two places of a match, whatever lies
between its brackets: wildcards, alternatives, runs of segments or further captures.

The characters that may be read are an arbitrary predicate `allowed` with the word characters and
the dot among them. A run is followed from place to place (`Cursor.Past`, `Cursor.Reaches`), so that
what has been read is the text between the two and sequences of shapes are read one behind another.
-/

namespace Archmap

variable {allowed : Char → Prop} {cursor next last : Cursor} {offset : Nat}
  {text read more : List Char} {c d : Char}

/-! ## From place to place -/

namespace Cursor

/-- The place is reached from another by reading the text. -/
def Past (next : Cursor) (read : List Char) (cursor : Cursor) : Prop :=
  cursor.rest = read ++ next.rest ∧ next.offset = cursor.offset + read.length

theorem past_nil : next.Past [] cursor ↔ next = cursor := by
  obtain ⟨offset, rest⟩ := next
  obtain ⟨offset', rest'⟩ := cursor
  simp [Past, and_comm, eq_comm]

theorem past_cons :
    next.Past (c :: read) ⟨offset, d :: text⟩ ↔ d = c ∧ next.Past read ⟨offset + 1, text⟩ := by
  simp [Past, and_assoc, Nat.add_assoc, Nat.add_comm 1]

theorem not_past_nil : ¬next.Past (c :: read) ⟨offset, []⟩ :=
  fun h => nomatch h.1

theorem past_append :
    last.Past (read ++ more) cursor ↔ ∃ next, next.Past read cursor ∧ last.Past more next := by
  constructor
  · rintro ⟨hrest, hoffset⟩
    refine ⟨⟨cursor.offset + read.length, more ++ last.rest⟩, ⟨?_, rfl⟩, rfl, ?_⟩
    · rw [hrest, List.append_assoc]
    · rw [hoffset, List.length_append, Nat.add_assoc]
  · rintro ⟨next, ⟨hrest, hoffset⟩, hrest', hoffset'⟩
    refine ⟨?_, ?_⟩
    · rw [hrest, hrest', List.append_assoc]
    · rw [hoffset', hoffset, List.length_append, Nat.add_assoc]

/-- Reading leads on in the text and leaves less of it. -/
theorem Past.advances (h : next.Past read cursor) (hne : read ≠ []) :
    cursor.offset < next.offset ∧ next.rest.length < cursor.rest.length := by
  have hpos := List.length_pos_iff.mpr hne
  rw [h.1, h.2, List.length_append]
  omega

/-- Places of a text stay places of it. -/
theorem Past.drop (h : next.Past read cursor) (htext : text.drop cursor.offset = cursor.rest) :
    text.drop next.offset = next.rest := by
  rw [h.2, ← List.drop_drop, htext, h.1, List.drop_left]

/-- The second place is reached from the first by reading allowed characters. -/
def Reaches (allowed : Char → Prop) (cursor next : Cursor) : Prop :=
  ∃ read, cursor.rest = read ++ next.rest ∧ next.offset = cursor.offset + read.length
    ∧ ∀ c ∈ read, allowed c

theorem reaches_iff :
    cursor.Reaches allowed next ↔ ∃ read, next.Past read cursor ∧ ∀ c ∈ read, allowed c := by
  simp only [Reaches, Past, and_assoc]

theorem Reaches.refl (cursor : Cursor) : cursor.Reaches allowed cursor :=
  ⟨[], rfl, rfl, by simp⟩

theorem Reaches.trans (h : cursor.Reaches allowed next) (h' : next.Reaches allowed last) :
    cursor.Reaches allowed last := by
  obtain ⟨read, hpast, hallowed⟩ := reaches_iff.mp h
  obtain ⟨more, hpast', hallowed'⟩ := reaches_iff.mp h'
  exact reaches_iff.mpr ⟨read ++ more, past_append.mpr ⟨next, hpast, hpast'⟩,
    List.forall_mem_append.mpr ⟨hallowed, hallowed'⟩⟩

/-- Reading one more character in front. -/
theorem Reaches.cons (hc : allowed c)
    (h : (⟨offset + 1, text⟩ : Cursor).Reaches allowed next) :
    (⟨offset, c :: text⟩ : Cursor).Reaches allowed next :=
  Reaches.trans ⟨[c], rfl, rfl, by simpa using hc⟩ h

theorem Reaches.drop (h : cursor.Reaches allowed next)
    (htext : text.drop cursor.offset = cursor.rest) : text.drop next.offset = next.rest := by
  obtain ⟨read, hpast, -⟩ := reaches_iff.mp h
  exact hpast.drop htext

/-- The text between two places is what was read. -/
theorem Reaches.forall_mem_take (h : cursor.Reaches allowed next) :
    ∀ c ∈ cursor.rest.take (next.offset - cursor.offset), allowed c := by
  obtain ⟨read, hrest, hoffset, hallowed⟩ := h
  rw [hoffset, Nat.add_sub_cancel_left, hrest, List.take_left]
  exact hallowed

/-! ## Wildcards -/

/-- A star reads word characters, at least one, and may stop behind each. -/
theorem mem_wordEnds :
    next ∈ wordEnds offset text ↔
      ∃ word, word ≠ [] ∧ (∀ c ∈ word, isWord c = true) ∧ next.Past word ⟨offset, text⟩ := by
  induction text generalizing offset with
  | nil =>
      refine ⟨nofun, ?_⟩
      rintro ⟨_ | ⟨c, word⟩, hne, -, hpast⟩
      · exact absurd rfl hne
      · exact absurd hpast not_past_nil
  | cons d text ih =>
      rw [wordEnds]
      constructor
      · intro h
        split at h
        · rename_i hd
          rcases List.mem_cons.mp h with rfl | h
          · exact ⟨[d], List.cons_ne_nil d [], by simpa using hd,
              past_cons.mpr ⟨rfl, past_nil.mpr rfl⟩⟩
          · obtain ⟨word, -, hword, hpast⟩ := ih.mp h
            exact ⟨d :: word, List.cons_ne_nil d word, List.forall_mem_cons.mpr ⟨hd, hword⟩,
              past_cons.mpr ⟨rfl, hpast⟩⟩
        · cases h
      · rintro ⟨_ | ⟨c, word⟩, hne, hword, hpast⟩
        · exact absurd rfl hne
        · obtain ⟨rfl, hrest⟩ := past_cons.mp hpast
          obtain ⟨hd, hword⟩ := List.forall_mem_cons.mp hword
          rw [if_pos hd]
          cases word with
          | nil => exact List.mem_cons.mpr (Or.inl (past_nil.mp hrest))
          | cons c word =>
              exact List.mem_cons_of_mem _
                (ih.mpr ⟨c :: word, List.cons_ne_nil c word, hword, hrest⟩)

theorem reaches_of_mem_wordEnds (hword : ∀ c, isWord c = true → allowed c)
    (h : next ∈ wordEnds offset text) : (⟨offset, text⟩ : Cursor).Reaches allowed next := by
  obtain ⟨word, -, hread, hpast⟩ := mem_wordEnds.mp h
  exact reaches_iff.mpr ⟨word, hpast, fun c hc => hword c (hread c hc)⟩

theorem reaches_of_mem_segmentsEnds (hword : ∀ c, isWord c = true → allowed c)
    (hdot : allowed '.') {inSegment : Bool} (h : next ∈ segmentsEnds offset inSegment text) :
    (⟨offset, text⟩ : Cursor).Reaches allowed next := by
  induction text generalizing offset inSegment with
  | nil => cases h
  | cons c rest ih =>
      rw [segmentsEnds] at h
      split at h
      · rename_i hc
        rcases List.mem_cons.mp h with rfl | h
        · exact .cons (hword c hc) (.refl _)
        · exact .cons (hword c hc) (ih h)
      · split at h
        · rename_i hc
          rw [Bool.and_eq_true, decide_eq_true_eq] at hc
          exact .cons (hc.1 ▸ hdot) (ih h)
        · cases h

theorem reaches_of_mem_anyEnds (hword : ∀ c, isWord c = true → allowed c) (hdot : allowed '.')
    {state : AnyState} (h : next ∈ anyEnds offset state text) :
    (⟨offset, text⟩ : Cursor).Reaches allowed next := by
  induction text generalizing offset state with
  | nil =>
      rw [anyEnds] at h
      split at h
      · rw [List.mem_singleton.mp h]
        exact .refl _
      · cases h
  | cons c rest ih =>
      rw [anyEnds.eq_def] at h
      simp only at h
      split at h
      · rename_i hc
        have hc' : allowed c := hc ▸ hdot
        split at h
        · cases h
        · rcases List.mem_cons.mp h with rfl | h
          · exact .cons hc' (.refl _)
          · exact .cons hc' (ih h)
      · split at h
        · rename_i hc
          cases state with
          | lead => exact .cons (hword c hc) (ih h)
          | ready => cases h
          | behindDot => exact .cons (hword c hc) (ih h)
          | inSegment => exact .cons (hword c hc) (ih h)
        · cases h

end Cursor

/-! ## Shapes -/

/-- The text between the ends of the span was read on the way from a place. -/
def Span.ReadFrom (allowed : Char → Prop) (cursor : Cursor) (span : Span) : Prop :=
  ∃ opened closed : Cursor, cursor.Reaches allowed opened ∧ opened.Reaches allowed closed
    ∧ span.start = opened.offset ∧ span.stop = closed.offset

/-- The outcome and all that it captures were read on the way from a place. -/
structure Outcome.ReadFrom (allowed : Char → Prop) (cursor : Cursor) (outcome : Outcome) :
    Prop where
  reaches : cursor.Reaches allowed outcome.cursor
  spans : ∀ span ∈ outcome.spans, span.ReadFrom allowed cursor

theorem Outcome.readFrom_plain (h : cursor.Reaches allowed next) :
    (Outcome.plain next).ReadFrom allowed cursor :=
  ⟨h, fun _ hspan => by cases hspan⟩

theorem Span.ReadFrom.of_reaches {span : Span} (h : cursor.Reaches allowed next)
    (hspan : span.ReadFrom allowed next) : span.ReadFrom allowed cursor := by
  obtain ⟨opened, closed, hopened, hclosed, hstart, hstop⟩ := hspan
  exact ⟨opened, closed, h.trans hopened, hclosed, hstart, hstop⟩

theorem Outcome.mem_continueWith {continuation : Cursor → List Outcome} {seen : Nat}
    {outcomes : List Outcome} {outcome : Outcome}
    (h : outcome ∈ continueWith continuation seen outcomes) :
    ∃ first ∈ outcomes, ∃ second ∈ continuation first.cursor,
      outcome = ⟨second.cursor, first.spans ++ second.spans⟩ := by
  induction outcomes generalizing seen with
  | nil => cases h
  | cons first rest ih =>
      rcases List.mem_append.mp h with h | h
      · obtain ⟨second, hsecond, rfl⟩ := List.mem_map.mp h
        exact ⟨first, List.mem_cons_self, second, (List.mem_filter.mp hsecond).1, rfl⟩
      · obtain ⟨first', hfirst, hrest⟩ := ih h
        exact ⟨first', List.mem_cons_of_mem first hfirst, hrest⟩

namespace Shape

/-- All literals of the shape are allowed. -/
def Over (allowed : Char → Prop) : Shape → Prop
  | nothing | segment | segments | anySegments | start | finish => True
  | literal c => allowed c
  | followed first second => first.Over allowed ∧ second.Over allowed
  | either first second => first.Over allowed ∧ second.Over allowed
  | capture _ inner => inner.Over allowed

theorem run_readFrom (hword : ∀ c, isWord c = true → allowed c) (hdot : allowed '.')
    {shape : Shape} (hshape : shape.Over allowed) {outcome : Outcome}
    (h : outcome ∈ shape.run cursor) : outcome.ReadFrom allowed cursor := by
  -- over the shape, from every place: the second of a sequence starts where the first has led
  induction shape generalizing cursor outcome with
  | nothing =>
      rw [List.mem_singleton.mp h]
      exact Outcome.readFrom_plain (.refl _)
  | literal c =>
      obtain ⟨offset, rest⟩ := cursor
      rw [run] at h
      cases rest with
      | nil => cases h
      | cons d rest =>
          simp only at h
          split at h
          · rename_i hcd
            rw [List.mem_singleton.mp h]
            exact Outcome.readFrom_plain (.cons (hcd ▸ hshape) (.refl _))
          · cases h
  | segment =>
      obtain ⟨next, hnext, rfl⟩ := List.mem_map.mp h
      exact Outcome.readFrom_plain
        (Cursor.reaches_of_mem_wordEnds hword (List.mem_reverse.mp hnext))
  | segments =>
      obtain ⟨next, hnext, rfl⟩ := List.mem_map.mp h
      exact Outcome.readFrom_plain
        (Cursor.reaches_of_mem_segmentsEnds hword hdot (List.mem_reverse.mp hnext))
  | anySegments =>
      rcases List.mem_append.mp h with h | h
      · obtain ⟨next, hnext, rfl⟩ := List.mem_map.mp h
        exact Outcome.readFrom_plain
          (Cursor.reaches_of_mem_anyEnds hword hdot (List.mem_reverse.mp hnext))
      · rw [List.mem_singleton.mp h]
        exact Outcome.readFrom_plain (.refl _)
  | start =>
      rw [run] at h
      split at h
      · rw [List.mem_singleton.mp h]
        exact Outcome.readFrom_plain (.refl _)
      · cases h
  | finish =>
      rw [run] at h
      split at h
      · rw [List.mem_singleton.mp h]
        exact Outcome.readFrom_plain (.refl _)
      · cases h
  | followed first second ih₁ ih₂ =>
      obtain ⟨front, hfront, back, hback, rfl⟩ := Outcome.mem_continueWith h
      have hread := ih₁ hshape.1 hfront
      have hread' := ih₂ hshape.2 hback
      refine ⟨hread.reaches.trans hread'.reaches, fun span hspan => ?_⟩
      rcases List.mem_append.mp hspan with hspan | hspan
      · exact hread.spans span hspan
      · exact (hread'.spans span hspan).of_reaches hread.reaches
  | either first second ih₁ ih₂ =>
      rcases List.mem_append.mp h with h | h
      · exact ih₁ hshape.1 h
      · exact ih₂ hshape.2 (List.mem_filter.mp h).1
  | capture index inner ih =>
      obtain ⟨outcome, houtcome, rfl⟩ := List.mem_map.mp h
      have hread := ih hshape houtcome
      refine ⟨hread.reaches, fun span hspan => ?_⟩
      rcases List.mem_cons.mp hspan with rfl | hspan
      · exact ⟨cursor, outcome.cursor, .refl _, hread.reaches, rfl, rfl⟩
      · exact hread.spans span hspan

/-- The outcome of a search comes from a place of the text. -/
theorem exists_run_of_search? {shape : Shape} {outcome : Outcome} {whole : List Char}
    (h : shape.search? offset text = some outcome) (htext : whole.drop offset = text) :
    ∃ cursor : Cursor, whole.drop cursor.offset = cursor.rest ∧ outcome ∈ shape.run cursor := by
  induction text generalizing offset with
  | nil =>
      rw [search?] at h
      split at h
      · rename_i found others hrun
        cases h
        exact ⟨⟨offset, []⟩, htext, hrun ▸ List.mem_cons_self⟩
      · cases h
  | cons c rest ih =>
      rw [search?] at h
      split at h
      · rename_i found others hrun
        cases h
        exact ⟨⟨offset, c :: rest⟩, htext, hrun ▸ List.mem_cons_self⟩
      · refine ih h ?_
        rw [← List.drop_drop, htext]
        rfl

end Shape

end Archmap
