import Archmap.Proofs.Namespace.Segments
import Archmap.Proofs.Namespace.Sequence

/-!
# Regular expressions

The expressions that patterns expand to, and what a backtracking matcher reads for them: of two
alternatives the first is preferred, what is optional is read if it can be, and what may be repeated
is read as often as it can be. A shape agrees with an expression if the run of the shape yields the
first of the ways to read the expression to each place (`Regex.Agrees`).

The wildcards of a pattern agree with the expressions for them (`agrees_segment`, `agrees_segments`,
`agrees_anySegments`), and shapes agree with expressions if their parts do. The expression for any
run of segments leads to some places more than once, since its options overlap: behind the last dot
of a text it may read the empty rest or leave it. Only the first way counts.
-/

namespace Archmap

/-- A regular expression, as far as patterns expand to one. -/
inductive Regex where
  | nothing
  | literal (c : Char)
  /-- A word character. -/
  | word
  | start
  | finish
  | followed (first second : Regex)
  | either (first second : Regex)
  | optional (inner : Regex)
  /-- Any number of times, also none. -/
  | many (inner : Regex)
  /-- Any number of times, at least once. -/
  | many1 (inner : Regex)
  | capture (index : Nat) (inner : Regex)
  deriving DecidableEq

namespace Outcome

/-- The same places in the same order, with the same first way to each. -/
def SameFirst (outcomes others : List Outcome) : Prop :=
  firstWays 0 outcomes = firstWays 0 others

theorem SameFirst.append {outcomes others : List Outcome} (h : SameFirst outcomes others)
    (last : List Outcome) : SameFirst (outcomes ++ last) (others ++ last) := by
  have hmark : mark 0 outcomes = mark 0 others := by
    rw [← mark_firstWays, h, mark_firstWays]
  rw [SameFirst, firstWays_append, firstWays_append, h, hmark]

/-- Ways that are there before may come again. -/
theorem sameFirst_of_subset {outcomes others : List Outcome} (h : others ⊆ outcomes) :
    SameFirst (outcomes ++ others) outcomes := by
  have hseen : firstWays (mark 0 outcomes) others = [] :=
    firstWays_of_seen fun o ho => isSeen_mark.mpr (Or.inr ⟨o, h ho, rfl⟩)
  rw [SameFirst, firstWays_append, hseen, List.append_nil]

/-- The outcome with what was captured before by the same groups, which it replaces. -/
def replacing (spans : List Span) (outcome : Outcome) : Outcome :=
  ⟨outcome.cursor, outcome.spans ++ spans⟩

/-- Rounds of a matcher, first as many as there can be. A round that reads nothing is none. -/
def rounds (next : Cursor → List Outcome) : Nat → Cursor → List Outcome
  | 0, cursor => [.plain cursor]
  | limit + 1, cursor =>
    ((next cursor).filter fun o => o.cursor.rest.length < cursor.rest.length).flatMap
        (fun o => (rounds next limit o.cursor).map (.replacing o.spans))
      ++ [.plain cursor]

end Outcome

namespace Regex

open Outcome (chain rounds firstWays)

/-- Every way to read the expression from the given place, the preferred first. A text has no more
rounds that read something than it has characters. -/
def ways : Regex → Cursor → List Outcome
  | nothing, cursor => [.plain cursor]
  | literal c, cursor =>
    match cursor.rest with
    | [] => []
    | d :: rest => if c = d then [.plain ⟨cursor.offset + 1, rest⟩] else []
  | word, cursor =>
    match cursor.rest with
    | [] => []
    | d :: rest => if isWord d then [.plain ⟨cursor.offset + 1, rest⟩] else []
  | start, cursor => if cursor.offset = 0 then [.plain cursor] else []
  | finish, cursor => if cursor.rest = [] then [.plain cursor] else []
  | followed first second, cursor => chain first.ways second.ways cursor
  | either first second, cursor => first.ways cursor ++ second.ways cursor
  | optional inner, cursor => inner.ways cursor ++ [.plain cursor]
  | many inner, cursor => rounds inner.ways cursor.rest.length cursor
  | many1 inner, cursor =>
    (inner.ways cursor).flatMap fun o =>
      (rounds inner.ways o.cursor.rest.length o.cursor).map (.replacing o.spans)
  | capture index inner, cursor => (inner.ways cursor).map (.under index cursor.offset)

/-- A run of the shape yields the first of the ways to read the expression to each place. -/
def Agrees (regex : Regex) (shape : Shape) : Prop :=
  ∀ cursor, shape.run cursor = firstWays 0 (regex.ways cursor)

variable {regex inner first second : Regex} {shape shape' : Shape} {cursor : Cursor}
  {outcome : Outcome} {offset : Nat} {text rest : List Char} {c : Char}

/-! ## One character -/

/-- The expression reads one character, which must be accepted, and captures nothing. -/
structure ReadsOne (regex : Regex) (accepts : Char → Prop) [DecidablePred accepts] : Prop where
  ways_nil : ∀ {offset}, regex.ways ⟨offset, []⟩ = []
  ways_cons : ∀ {offset c rest}, regex.ways ⟨offset, c :: rest⟩
    = if accepts c then [.plain ⟨offset + 1, rest⟩] else []

theorem readsOne_literal (c : Char) : (literal c).ReadsOne (c = ·) :=
  ⟨rfl, rfl⟩

theorem readsOne_word : word.ReadsOne (isWord · = true) :=
  ⟨rfl, rfl⟩

namespace ReadsOne

variable {accepts : Char → Prop} [DecidablePred accepts] {next : Cursor → List Outcome}

theorem exists_past (h : regex.ReadsOne accepts) (ho : outcome ∈ regex.ways cursor) :
    outcome.spans = [] ∧ ∃ c, outcome.cursor.Past [c] cursor := by
  obtain ⟨offset, _ | ⟨c, rest⟩⟩ := cursor
  · rw [h.ways_nil] at ho
    cases ho
  · rw [h.ways_cons] at ho
    split at ho
    · rw [List.mem_singleton.mp ho]
      exact ⟨rfl, c, Cursor.past_cons.mpr ⟨rfl, Cursor.past_nil.mpr rfl⟩⟩
    · cases ho

theorem ways_in (h : regex.ReadsOne accepts) (hin : cursor.In text)
    (ho : outcome ∈ regex.ways cursor) : outcome.cursor.In text := by
  obtain ⟨-, c, hpast⟩ := h.exists_past ho
  exact hpast.drop hin

/-- What comes behind is read behind the character. -/
theorem chain_cons (h : regex.ReadsOne accepts) (hc : accepts c) :
    chain regex.ways next ⟨offset, c :: rest⟩ = next ⟨offset + 1, rest⟩ := by
  rw [chain, h.ways_cons, if_pos hc, List.flatMap_singleton]
  exact List.map_id' _

theorem chain_stop (h : regex.ReadsOne accepts) (hc : ¬accepts c) :
    chain regex.ways next ⟨offset, c :: rest⟩ = [] := by
  rw [chain, h.ways_cons, if_neg hc, List.flatMap_nil]

end ReadsOne

/-! ## Places of a text -/

theorem rounds_in {next : Cursor → List Outcome} {limit : Nat}
    (hnext : ∀ cursor, cursor.In text → ∀ o ∈ next cursor, o.cursor.In text)
    (hin : cursor.In text) (h : outcome ∈ rounds next limit cursor) : outcome.cursor.In text := by
  induction limit generalizing cursor outcome with
  | zero => exact List.mem_singleton.mp h ▸ hin
  | succ limit ih =>
      rcases List.mem_append.mp h with h | h
      · obtain ⟨o, ho, h⟩ := List.mem_flatMap.mp h
        obtain ⟨last, hlast, rfl⟩ := List.mem_map.mp h
        have hlast : last.cursor.In text := ih (hnext cursor hin o (List.mem_of_mem_filter ho)) hlast
        exact hlast
      · exact List.mem_singleton.mp h ▸ hin

/-- Places of a text lead to places of it. -/
theorem ways_in (hin : cursor.In text) (h : outcome ∈ regex.ways cursor) :
    outcome.cursor.In text := by
  induction regex generalizing cursor outcome with
  | nothing => exact List.mem_singleton.mp h ▸ hin
  | literal c => exact (readsOne_literal c).ways_in hin h
  | word => exact readsOne_word.ways_in hin h
  | start | finish =>
      rw [ways] at h
      split at h
      · exact List.mem_singleton.mp h ▸ hin
      · cases h
  | followed first second ih₁ ih₂ =>
      obtain ⟨front, hfront, back, hback, rfl⟩ := Outcome.mem_chain.mp h
      have hback : back.cursor.In text := ih₂ (ih₁ hin hfront) hback
      exact hback
  | either first second ih₁ ih₂ =>
      exact (List.mem_append.mp h).elim (ih₁ hin) (ih₂ hin)
  | optional inner ih =>
      rcases List.mem_append.mp h with h | h
      · exact ih hin h
      · exact List.mem_singleton.mp h ▸ hin
  | many inner ih => exact rounds_in (fun _ hin o ho => ih hin ho) hin h
  | many1 inner ih =>
      obtain ⟨o, ho, h⟩ := List.mem_flatMap.mp h
      obtain ⟨last, hlast, rfl⟩ := List.mem_map.mp h
      have hlast : last.cursor.In text := rounds_in (fun _ hin o ho => ih hin ho) (ih hin ho) hlast
      exact hlast
  | capture index inner ih =>
      obtain ⟨o, ho, rfl⟩ := List.mem_map.mp h
      have ho : o.cursor.In text := ih hin ho
      exact ho

/-! ## From parts to the whole -/

theorem agrees_of_ways_eq (h : regex.ways = shape.ways) : regex.Agrees shape := by
  intro cursor
  rw [Shape.run_eq_firstWays, h]

theorem Agrees.followed (h : first.Agrees shape) (h' : second.Agrees shape') :
    (followed first second).Agrees (.followed shape shape') := by
  intro cursor
  obtain ⟨text, hin⟩ := Cursor.exists_in cursor
  rw [Shape.run, h cursor]
  exact Shape.continueWith_firstWays (fun cursor _ => h' cursor) (fun o ho => ways_in hin ho)
    fun o _ hseen => by rw [Outcome.isSeen_zero] at hseen; cases hseen

theorem Agrees.either (h : first.Agrees shape) (h' : second.Agrees shape') :
    (either first second).Agrees (.either shape shape') := by
  intro cursor
  rw [Shape.run, ways, Outcome.firstWays_append, h cursor, h' cursor,
    ← Outcome.firstWays_eq_filter, Outcome.mark_firstWays]

theorem Agrees.capture (index : Nat) (h : regex.Agrees shape) :
    (capture index regex).Agrees (.capture index shape) := by
  intro cursor
  rw [Shape.run, ways, h cursor]
  exact (Outcome.firstWays_map (f := .under index cursor.offset) fun _ => rfl).symm

theorem agrees_nothing : nothing.Agrees .nothing :=
  agrees_of_ways_eq rfl

theorem agrees_literal (c : Char) : (literal c).Agrees (.literal c) :=
  agrees_of_ways_eq rfl

theorem agrees_start : start.Agrees .start :=
  agrees_of_ways_eq rfl

theorem agrees_finish : finish.Agrees .finish :=
  agrees_of_ways_eq rfl

/-- What agrees is found in the same place and on the same way. -/
theorem Agrees.search?_eq (h : regex.Agrees shape) :
    shape.search? offset text = Outcome.leftmost? regex.ways offset text := by
  rw [Shape.search?_eq_leftmost?]
  refine Outcome.leftmost?_congr fun cursor => ?_
  rw [← Shape.head?_run, h cursor, Outcome.head?_firstWays]

/-! ## Repetition -/

/-- Reading the expression takes characters and captures nothing. -/
def Steps (regex : Regex) : Prop :=
  ∀ cursor, ∀ o ∈ regex.ways cursor, o.spans = [] ∧ o.cursor.rest.length < cursor.rest.length

theorem ReadsOne.steps {accepts : Char → Prop} [DecidablePred accepts]
    (h : regex.ReadsOne accepts) : regex.Steps := by
  intro cursor o ho
  obtain ⟨hspans, c, hpast⟩ := h.exists_past ho
  exact ⟨hspans, (hpast.advances (List.cons_ne_nil c [])).2⟩

/-- More rounds than there are characters make no difference. -/
theorem rounds_eq {next : Cursor → List Outcome} {limit limit' : Nat}
    (h : cursor.rest.length ≤ limit) (h' : cursor.rest.length ≤ limit') :
    rounds next limit cursor = rounds next limit' cursor := by
  have hend : ∀ limit (cursor : Cursor), cursor.rest.length ≤ 0 →
      rounds next limit cursor = [.plain cursor] := by
    intro limit cursor hlength
    cases limit with
    | zero => rfl
    | succ limit =>
        have hnone : ∀ o : Outcome, ¬o.cursor.rest.length < cursor.rest.length :=
          fun o hlt => Nat.not_lt_zero _ (Nat.lt_of_lt_of_le hlt hlength)
        simp [rounds, hnone]
  induction limit generalizing limit' cursor with
  | zero => rw [hend 0 cursor h, hend limit' cursor h]
  | succ limit ih =>
      cases limit' with
      | zero => rw [hend _ cursor h', hend 0 cursor h']
      | succ limit' =>
          rw [rounds, rounds]
          refine congrArg (· ++ [Outcome.plain cursor]) (List.flatMap_congr fun o ho => ?_)
          have hlt := of_decide_eq_true (List.mem_filter.mp ho).2
          rw [ih (Nat.le_of_lt_succ (Nat.lt_of_lt_of_le hlt h))
            (Nat.le_of_lt_succ (Nat.lt_of_lt_of_le hlt h'))]

theorem ways_many1 (h : inner.Steps) :
    (many1 inner).ways = chain inner.ways (many inner).ways := by
  funext cursor
  refine List.flatMap_congr fun o ho => List.map_congr_left fun last _ => ?_
  rw [(h cursor o ho).1, Outcome.replacing, Outcome.behind, List.append_nil, List.nil_append]

theorem ways_many (h : inner.Steps) :
    (many inner).ways cursor = (many1 inner).ways cursor ++ [.plain cursor] := by
  rw [ways, ways]
  cases hlength : cursor.rest.length with
  | zero =>
      have hnone : inner.ways cursor = [] := List.eq_nil_iff_forall_not_mem.mpr fun o ho =>
        Nat.not_lt_zero _ (hlength ▸ (h cursor o ho).2)
      rw [hnone]
      rfl
  | succ limit =>
      have hall : (inner.ways cursor).filter
          (fun o => o.cursor.rest.length < cursor.rest.length) = inner.ways cursor :=
        List.filter_eq_self.mpr fun o ho => decide_eq_true (h cursor o ho).2
      rw [rounds, hall]
      refine congrArg (· ++ [Outcome.plain cursor]) (List.flatMap_congr fun o ho => ?_)
      have hlt := (h cursor o ho).2
      rw [rounds_eq (by omega) (Nat.le_refl _)]

/-! ## Words -/

theorem ways_many1_word_cons (hc : isWord c = true) :
    (many1 word).ways ⟨offset, c :: rest⟩ = (many word).ways ⟨offset + 1, rest⟩ := by
  rw [ways_many1 readsOne_word.steps]
  exact readsOne_word.chain_cons hc

theorem ways_many1_word_stop (hc : isWord c = false) :
    (many1 word).ways ⟨offset, c :: rest⟩ = [] := by
  rw [ways_many1 readsOne_word.steps]
  exact readsOne_word.chain_stop (Bool.eq_false_iff.mp hc)

theorem ways_many1_word :
    (many1 word).ways ⟨offset, text⟩ = (Cursor.wordEnds offset text).reverse.map .plain := by
  induction text generalizing offset with
  | nil => rfl
  | cons c rest ih =>
      rw [Cursor.wordEnds]
      split
      · rename_i hc
        rw [ways_many1_word_cons hc, ways_many readsOne_word.steps, ih, List.reverse_cons,
          List.map_append, List.map_singleton]
      · rename_i hc
        exact ways_many1_word_stop (Bool.eq_false_iff.mpr hc)

/-- A star stands for a segment. -/
theorem agrees_segment : (many1 word).Agrees .segment :=
  agrees_of_ways_eq (funext fun _ => ways_many1_word)

theorem steps_many1_word : (many1 word).Steps := by
  rintro ⟨offset, text⟩ o ho
  rw [ways_many1_word] at ho
  obtain ⟨next, hnext, rfl⟩ := List.mem_map.mp ho
  obtain ⟨_, hne, -, hpast⟩ := Cursor.mem_wordEnds.mp (List.mem_reverse.mp hnext)
  exact ⟨rfl, (hpast.advances hne).2⟩

variable {next : Cursor → List Outcome}

theorem chain_many1_word_cons (hc : isWord c = true) :
    chain (many1 word).ways next ⟨offset, c :: rest⟩
      = chain (many word).ways next ⟨offset + 1, rest⟩ := by
  rw [chain, chain, ways_many1_word_cons hc]

theorem chain_many1_word_stop (hc : isWord c = false) :
    chain (many1 word).ways next ⟨offset, c :: rest⟩ = [] := by
  rw [chain, ways_many1_word_stop hc, List.flatMap_nil]

/-- What comes behind any number of word characters is tried behind one more first. -/
theorem chain_many_word :
    chain (many word).ways next ⟨offset, text⟩
      = chain (many1 word).ways next ⟨offset, text⟩ ++ next ⟨offset, text⟩ := by
  rw [chain, ways_many readsOne_word.steps, List.flatMap_append, List.flatMap_singleton]
  exact congrArg _ (List.map_id' _)

/-! ## Segments -/

theorem ne_dot_of_isWord (hc : isWord c = true) : c ≠ '.' := by
  rintro rfl
  rw [not_isWord_dot] at hc
  cases hc

theorem steps_chain (h : first.Steps) (h' : second.Steps) : (followed first second).Steps := by
  intro cursor o ho
  obtain ⟨front, hfront, back, hback, rfl⟩ := Outcome.mem_chain.mp ho
  obtain ⟨hspans, hlt⟩ := h cursor front hfront
  obtain ⟨hspans', hlt'⟩ := h' front.cursor back hback
  rw [Outcome.behind, hspans, hspans']
  exact ⟨rfl, Nat.lt_trans hlt' hlt⟩

/-- The expressions one behind the other. -/
def sequence (items : List Regex) : Regex :=
  items.foldl .followed .nothing

theorem ways_pair : (sequence [first, second]).ways = chain first.ways second.ways := by
  change chain (chain nothing.ways first.ways) second.ways = _
  rw [show chain nothing.ways first.ways = first.ways from Outcome.plain_chain]

theorem steps_pair (h : first.Steps) (h' : second.Steps) : (sequence [first, second]).Steps := by
  intro cursor o ho
  rw [ways_pair] at ho
  exact steps_chain h h' cursor o ho

/-- A dot and a segment. -/
def furtherSegment : Regex :=
  sequence [literal '.', many1 word]

/-- The expression for segments with dots between them. -/
def segments : Regex :=
  sequence [many1 word, many furtherSegment]

theorem chain_dot :
    chain (literal '.').ways next ⟨offset, '.' :: rest⟩ = next ⟨offset + 1, rest⟩ :=
  (readsOne_literal '.').chain_cons rfl

theorem chain_dot_stop (hc : c ≠ '.') :
    chain (literal '.').ways next ⟨offset, c :: rest⟩ = [] :=
  (readsOne_literal '.').chain_stop hc.symm

theorem ways_segments : segments.ways = chain (many1 word).ways (many furtherSegment).ways :=
  ways_pair

/-- Further segments begin with a dot. -/
theorem ways_many_furtherSegment :
    (many furtherSegment).ways cursor
      = chain (literal '.').ways segments.ways cursor ++ [.plain cursor] := by
  have hsteps : furtherSegment.Steps := steps_pair (readsOne_literal '.').steps steps_many1_word
  rw [ways_many hsteps, ways_many1 hsteps, furtherSegment, ways_pair, Outcome.chain_assoc]
  rw [ways_segments]; rfl

/-- The ends of segments, from the start of a segment and from behind a word character. -/
theorem ways_segments_eq :
    segments.ways ⟨offset, text⟩ = (Cursor.segmentsEnds offset false text).reverse.map .plain
      ∧ chain (many word).ways (many furtherSegment).ways ⟨offset, text⟩
        = (Cursor.segmentsEnds offset true text).reverse.map .plain
          ++ [.plain ⟨offset, text⟩] := by
  induction text generalizing offset with
  | nil => exact ⟨rfl, rfl⟩
  | cons c rest ih =>
      obtain ⟨hsegments, hbehind⟩ := @ih (offset + 1)
      rw [chain_many_word, ways_many_furtherSegment, ways_segments, Cursor.segmentsEnds,
        Cursor.segmentsEnds]
      cases hc : isWord c with
      | true =>
          have hdot : c ≠ '.' := ne_dot_of_isWord hc
          rw [chain_many1_word_cons hc, hbehind, chain_dot_stop hdot, if_pos rfl, if_pos rfl,
            List.reverse_cons, List.map_append]
          exact ⟨rfl, rfl⟩
      | false =>
          rw [chain_many1_word_stop hc, if_neg Bool.false_ne_true, if_neg Bool.false_ne_true,
            if_neg (by simp)]
          refine ⟨rfl, ?_⟩
          by_cases hdot : c = '.'
          · subst hdot
            rw [chain_dot, ← ways_segments, hsegments]
            rfl
          · rw [chain_dot_stop hdot, if_neg (by simpa using hdot)]
            rfl

/-- Two stars stand for segments. -/
theorem agrees_segments : segments.Agrees .segments :=
  agrees_of_ways_eq (funext fun _ => ways_segments_eq.1)

/-! ## Any run of segments -/

/-- A segment and a dot. -/
def segmentAndDot : Regex :=
  sequence [many1 word, literal '.']

/-- Word characters at the start of the text. -/
def leading : Regex :=
  optional (sequence [start, many word])

/-- Word characters at the end of the text. -/
def trailing : Regex :=
  optional (sequence [many word, finish])

/-- The expression for any run of segments together with the dots around it. -/
def anySegments : Regex :=
  optional (sequence [leading, literal '.', many segmentAndDot, trailing])

/-- What is read behind the first dot. -/
def waysBehindDot : Cursor → List Outcome :=
  chain (many segmentAndDot).ways trailing.ways

/-- What is read from a dot on. -/
def waysFromDot : Cursor → List Outcome :=
  chain (literal '.').ways waysBehindDot

theorem chain_many_word_cons (hc : isWord c = true) :
    chain (many word).ways next ⟨offset, c :: rest⟩
      = chain (many word).ways next ⟨offset + 1, rest⟩ ++ next ⟨offset, c :: rest⟩ := by
  rw [chain_many_word, chain_many1_word_cons hc]

theorem chain_many_word_stop (hc : isWord c = false) :
    chain (many word).ways next ⟨offset, c :: rest⟩ = next ⟨offset, c :: rest⟩ := by
  rw [chain_many_word, chain_many1_word_stop hc, List.nil_append]

theorem ways_anySegments :
    anySegments.ways cursor = chain leading.ways waysFromDot cursor ++ [.plain cursor] := by
  have hleading : chain nothing.ways leading.ways = leading.ways := Outcome.plain_chain
  have hsequence : (sequence [leading, literal '.', many segmentAndDot, trailing]).ways
      = chain (chain (chain (chain nothing.ways leading.ways) (literal '.').ways)
          (many segmentAndDot).ways) trailing.ways := rfl
  rw [anySegments, ways, hsequence, hleading, Outcome.chain_assoc, Outcome.chain_assoc]
  rfl

/-- Behind a dot there is another segment with its dot, or word characters up to the end, or
nothing. -/
theorem waysBehindDot_eq :
    waysBehindDot cursor
      = chain (many1 word).ways waysFromDot cursor
        ++ (chain (many word).ways finish.ways cursor ++ [.plain cursor]) := by
  have hsteps : segmentAndDot.Steps := steps_pair steps_many1_word (readsOne_literal '.').steps
  have hmany : (many segmentAndDot).ways cursor
      = chain segmentAndDot.ways (many segmentAndDot).ways cursor ++ [.plain cursor] := by
    rw [ways_many hsteps, ways_many1 hsteps]
  have hround : chain (chain segmentAndDot.ways (many segmentAndDot).ways) trailing.ways
      = chain (many1 word).ways waysFromDot := by
    rw [segmentAndDot, ways_pair, Outcome.chain_assoc, Outcome.chain_assoc]
    rfl
  have htrailing : trailing.ways cursor
      = chain (many word).ways finish.ways cursor ++ [.plain cursor] := by
    rw [trailing, ways, ways_pair]
  rw [waysBehindDot, chain, hmany, List.flatMap_append, List.flatMap_singleton, ← hround,
    ← htrailing]
  exact congrArg _ (List.map_id' _)

theorem ways_finish_cons : finish.ways ⟨offset, c :: rest⟩ = [] :=
  if_neg (List.cons_ne_nil c rest)

/-- The run goes on behind a dot and inside a segment as the expression does. -/
theorem sameFirst_behindDot :
    Outcome.SameFirst (waysBehindDot ⟨offset, text⟩)
        ((Cursor.anyEnds offset .behindDot text).reverse.map .plain ++ [.plain ⟨offset, text⟩])
      ∧ Outcome.SameFirst
        (chain (many word).ways waysFromDot ⟨offset, text⟩
          ++ chain (many word).ways finish.ways ⟨offset, text⟩)
        ((Cursor.anyEnds offset .inSegment text).reverse.map .plain) := by
  induction text generalizing offset with
  | nil =>
      -- the empty rest is a last segment, and it may also be left
      exact ⟨Outcome.sameFirst_of_subset (List.Subset.refl [Outcome.plain ⟨offset, []⟩]), rfl⟩
  | cons c rest ih =>
      obtain ⟨hbehind, hinside⟩ := @ih (offset + 1)
      rw [waysBehindDot_eq]
      cases hc : isWord c with
      | true =>
          have hdot : c ≠ '.' := ne_dot_of_isWord hc
          rw [chain_many1_word_cons hc, chain_many_word_cons hc, chain_many_word_cons hc,
            ways_finish_cons, List.append_nil, ← List.append_assoc, Cursor.anyEnds,
            Cursor.anyEnds, if_neg hdot, if_neg hdot, if_pos hc]
          refine ⟨hinside.append _, ?_⟩
          rw [waysFromDot, chain_dot_stop hdot, List.append_nil]
          exact hinside
      | false =>
          rw [chain_many1_word_stop hc, chain_many_word_stop hc, chain_many_word_stop hc,
            ways_finish_cons, List.append_nil, Cursor.anyEnds, Cursor.anyEnds]
          by_cases hdot : c = '.'
          · subst hdot
            refine ⟨rfl, ?_⟩
            rw [waysFromDot, chain_dot, if_pos rfl, if_neg (by decide), List.reverse_cons,
              List.map_append]
            exact hbehind
          · rw [waysFromDot, chain_dot_stop hdot, if_neg hdot, if_neg hdot, hc]
            exact ⟨rfl, rfl⟩

/-- From the start of the text, word characters may stand in front of the first dot. -/
theorem sameFirst_lead :
    Outcome.SameFirst (chain (many word).ways waysFromDot ⟨offset, text⟩)
      ((Cursor.anyEnds offset .lead text).reverse.map .plain) := by
  induction text generalizing offset with
  | nil => rfl
  | cons c rest ih =>
      rw [Cursor.anyEnds]
      cases hc : isWord c with
      | true =>
          have hdot : c ≠ '.' := ne_dot_of_isWord hc
          rw [chain_many_word_cons hc, waysFromDot, chain_dot_stop hdot, List.append_nil,
            if_neg hdot, if_pos rfl]
          exact ih
      | false =>
          rw [chain_many_word_stop hc]
          by_cases hdot : c = '.'
          · subst hdot
            rw [waysFromDot, chain_dot, if_pos rfl, if_neg (by decide), List.reverse_cons,
              List.map_append]
            exact sameFirst_behindDot.1
          · rw [waysFromDot, chain_dot_stop hdot, if_neg hdot, if_neg Bool.false_ne_true]
            rfl

theorem sameFirst_ready :
    Outcome.SameFirst (waysFromDot ⟨offset, text⟩)
      ((Cursor.anyEnds offset .ready text).reverse.map .plain) := by
  cases text with
  | nil => rfl
  | cons c rest =>
      rw [Cursor.anyEnds]
      by_cases hdot : c = '.'
      · subst hdot
        rw [waysFromDot, chain_dot, if_pos rfl, if_neg (by decide), List.reverse_cons,
          List.map_append]
        exact sameFirst_behindDot.1
      · rw [waysFromDot, chain_dot_stop hdot, if_neg hdot]
        split <;> rfl

theorem chain_start :
    chain start.ways next cursor = if cursor.offset = 0 then next cursor else [] := by
  rw [chain, ways]
  split
  · rw [List.flatMap_singleton]
    exact List.map_id' _
  · rfl

theorem chain_leading :
    chain leading.ways next cursor
      = (if cursor.offset = 0 then chain (many word).ways next cursor else [])
        ++ next cursor := by
  rw [leading, chain, ways, ways_pair, List.flatMap_append, List.flatMap_singleton, chain_start]
  refine congrArg₂ _ ?_ (List.map_id' _)
  split <;> rfl

/-- Two dots stand for any run of segments. -/
theorem agrees_anySegments : anySegments.Agrees .anySegments := by
  rintro ⟨offset, text⟩
  rw [Shape.run_eq_firstWays, ways_anySegments, chain_leading]
  refine Eq.symm (Outcome.SameFirst.append ?_ _)
  split
  · -- without the word characters the dot is tried once more
    refine Eq.trans (Outcome.sameFirst_of_subset ?_) sameFirst_lead
    rw [chain_many_word]
    exact List.subset_append_right _ _
  · exact sameFirst_ready

end Regex

end Archmap
