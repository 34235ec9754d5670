import Archmap.Proofs.Namespace.Acceptance
import Archmap.Proofs.Namespace.Sequence

/-!
# Which patterns match whole namespaces

A pattern is tied to the ends of the namespace by anchors in front of it and behind it, and a bar
binds weaker than these. So a pattern matches whole namespaces only, and the same ones as if it stood
in square brackets, exactly if no bar stands outside its groups (`matchesWhole_iff`).

What is read into a group is a list of shapes and bars that does not depend on the group
(`exists_parts`), so the pattern itself and the pattern in brackets have the same parts. Without a
bar the two are the same sequence, nested in another way. With one, the alternative in front of it
reads some text whatever comes behind; then a character that no pattern can read is left over.
-/

namespace Archmap

open GroupSign (ofChar Balanced depth? Nested)
open PatternToken (groupSign)

variable {cursor : Cursor} {outcome : Outcome}

/-! ## Shapes that can be read anywhere -/

namespace Shape

variable {first second shape : Shape}

/-- Some text can be read as the shape, wherever it stands and whatever comes behind it. -/
def Readable (shape : Shape) : Prop :=
  ∃ text, ∀ offset rest, ∃ outcome ∈ shape.ways ⟨offset, text ++ rest⟩,
    outcome.cursor = ⟨offset + text.length, rest⟩

theorem Readable.followed (h : first.Readable) (h' : second.Readable) :
    (followed first second).Readable := by
  obtain ⟨text, h⟩ := h
  obtain ⟨text', h'⟩ := h'
  refine ⟨text ++ text', fun offset rest => ?_⟩
  obtain ⟨front, hfront, hcursor⟩ := h offset (text' ++ rest)
  obtain ⟨back, hback, hcursor'⟩ := h' (offset + text.length) rest
  refine ⟨back.behind front.spans, mem_ways_followed.mpr ⟨front, ?_, back, ?_, rfl⟩, ?_⟩
  · rwa [List.append_assoc]
  · rwa [hcursor]
  · rw [Outcome.behind, hcursor', List.length_append, Nat.add_assoc]

/-- A shape that leads wherever a readable one does. -/
theorem Readable.of_leads (h : first.Readable)
    (hleads : ∀ {cursor}, ∀ o ∈ first.ways cursor,
      ∃ outcome ∈ second.ways cursor, outcome.cursor = o.cursor) : second.Readable := by
  obtain ⟨text, h⟩ := h
  refine ⟨text, fun offset rest => ?_⟩
  obtain ⟨o, ho, hcursor⟩ := h offset rest
  obtain ⟨outcome, houtcome, hsame⟩ := hleads o ho
  exact ⟨outcome, houtcome, hsame.trans hcursor⟩

theorem Readable.either (h : first.Readable) : (either first second).Readable :=
  h.of_leads fun o ho => ⟨o, List.mem_append_left _ ho, rfl⟩

theorem Readable.capture (index : Nat) (h : shape.Readable) : (capture index shape).Readable :=
  h.of_leads fun o ho => ⟨_, mem_ways_capture.mpr ⟨o, ho, rfl⟩, rfl⟩

theorem readable_nothing : nothing.Readable :=
  ⟨[], fun _ _ => ⟨_, List.mem_singleton_self _, rfl⟩⟩

theorem readable_literal (c : Char) : (literal c).Readable := by
  refine ⟨[c], fun offset rest => ⟨.plain ⟨offset + 1, rest⟩, ?_, rfl⟩⟩
  rw [ways, run, List.singleton_append]
  simp only [if_true, List.mem_singleton]

theorem isWord_a : isWord 'a' = true := by decide +kernel

/-- A wildcard that may end behind a word character. -/
theorem readable_of_ends (ends : Nat → List Char → List Cursor)
    (hways : ∀ cursor, shape.ways cursor = (ends cursor.offset cursor.rest).reverse.map .plain)
    (h : ∀ offset rest, ⟨offset + 1, rest⟩ ∈ ends offset ('a' :: rest)) : shape.Readable := by
  refine ⟨['a'], fun offset rest => ⟨.plain ⟨offset + 1, rest⟩, ?_, rfl⟩⟩
  rw [hways]
  exact List.mem_map_of_mem (List.mem_reverse.mpr (h offset rest))

theorem readable_segment : segment.Readable :=
  readable_of_ends Cursor.wordEnds (fun _ => rfl) fun _ _ => by
    simp [Cursor.wordEnds, isWord_a]

theorem readable_segments : segments.Readable :=
  readable_of_ends (Cursor.segmentsEnds · false) (fun _ => rfl) fun _ _ => by
    simp [Cursor.segmentsEnds, isWord_a]

theorem readable_anySegments : anySegments.Readable :=
  ⟨[], fun _ _ => ⟨_, List.mem_append_right _ (List.mem_singleton_self _), rfl⟩⟩

theorem readable_sequence {shapes : List Shape} (h : ∀ shape ∈ shapes, shape.Readable) :
    (sequence shapes).Readable := by
  induction shapes with
  | nil => exact readable_nothing
  | cons shape rest ih =>
      obtain ⟨hshape, hrest⟩ := List.forall_mem_cons.mp h
      rw [Readable, ways_sequence_cons]
      exact hshape.followed (ih hrest)

end Shape

/-! ## The parts of a group -/

/-- What is read into an open group. -/
inductive GroupPart where
  | shape (shape : Shape)
  | bar
  deriving DecidableEq

namespace Frame

variable {frame : Frame} {parts others : List GroupPart}

def add (frame : Frame) : GroupPart → Frame
  | .shape shape => frame.append shape
  | .bar => frame.split

def addAll (frame : Frame) (parts : List GroupPart) : Frame :=
  parts.foldl add frame

theorem addAll_append : frame.addAll (parts ++ others) = (frame.addAll parts).addAll others :=
  List.foldl_append

theorem addAll_shapes (frame : Frame) (shapes : List Shape) :
    frame.addAll (shapes.map .shape)
      = { frame with current := shapes.foldl .followed frame.current } := by
  induction shapes generalizing frame with
  | nil => rfl
  | cons shape rest ih => exact ih (frame.append shape)

/-- Where a group was opened makes no difference to what it is. -/
theorem closed_addAll {index : Option Nat} (position : Nat) :
    ((fresh index position).addAll parts).closed = ((fresh index 0).addAll parts).closed := by
  have hmoved : ∀ frame : Frame, ({ frame with position := position } : Frame).addAll parts
      = { frame.addAll parts with position := position } := by
    induction parts with
    | nil => exact fun _ => rfl
    | cons part rest ih =>
        intro frame
        cases part with
        | shape shape => exact ih (frame.append shape)
        | bar => exact ih frame.split
  have hclosed := congrArg closed (hmoved (fresh index 0))
  exact hclosed

theorem readable_closed {index : Option Nat} {position : Nat}
    (h : ∀ shape, .shape shape ∈ parts → shape.Readable) :
    ((fresh index position).addAll parts).closed.Readable := by
  have halternatives : ∀ frame : Frame, frame.current.Readable →
      (∀ shape ∈ frame.earlier, shape.Readable) → frame.alternatives.Readable := by
    rintro ⟨_, _, earlier, current⟩ hcurrent hearlier
    cases earlier with
    | none => exact hcurrent
    | some shape => exact (hearlier shape rfl).either
  have hparts : ∀ frame : Frame, frame.current.Readable →
      (∀ shape ∈ frame.earlier, shape.Readable) → (frame.addAll parts).alternatives.Readable := by
    induction parts with
    | nil => exact halternatives
    | cons part rest ih =>
        intro frame hcurrent hearlier
        have hrest := ih fun shape hshape => h shape (List.mem_cons_of_mem part hshape)
        cases part with
        | shape shape =>
            exact hrest (frame.append shape) (hcurrent.followed (h shape List.mem_cons_self))
              hearlier
        | bar =>
            refine hrest frame.split Shape.readable_nothing fun shape hshape => ?_
            cases hshape
            exact halternatives frame hcurrent hearlier
  have hall := hparts (fresh index position) Shape.readable_nothing (by simp [fresh])
  rw [closed]
  split
  · exact hall
  · exact hall.capture _

/-- What could be read before a bar can be read still. -/
theorem mem_ways_alternatives_addAll {earlier : Shape} (hearlier : frame.earlier = some earlier)
    (h : outcome ∈ earlier.ways cursor) :
    outcome ∈ (frame.addAll parts).alternatives.ways cursor := by
  induction parts generalizing frame earlier with
  | nil =>
      rw [addAll, List.foldl_nil, alternatives, hearlier]
      exact List.mem_append_left _ h
  | cons part rest ih =>
      cases part with
      | shape shape =>
          have hkept : (frame.append shape).earlier = some earlier := hearlier
          exact ih hkept h
      | bar =>
          have hsplit : frame.split.earlier = some (.either earlier frame.current) := by
            rw [split, alternatives, hearlier]
          exact ih hsplit (List.mem_append_left _ h)

end Frame

/-! ## Reading parts -/

namespace Shape

variable {token : PatternToken} {tokens others : List PatternToken} {parts more : List GroupPart}
  {opened opened' opened'' : Nat}

/-- The tokens are read as the parts, whatever group they are read into. -/
structure ReadAs (opened opened' : Nat) (tokens : List PatternToken) (parts : List GroupPart) :
    Prop where
  read : ∀ outer top position rest,
    read outer top opened position (tokens ++ rest)
      = read outer (top.addAll parts) opened' (position + tokens.length) rest
  readable : ∀ shape, .shape shape ∈ parts → shape.Readable

theorem ReadAs.append (h : ReadAs opened opened' tokens parts)
    (h' : ReadAs opened' opened'' others more) :
    ReadAs opened opened'' (tokens ++ others) (parts ++ more) := by
  refine ⟨fun outer top position rest => ?_, fun shape hshape => ?_⟩
  · rw [List.append_assoc, h.read, h'.read, Frame.addAll_append, List.length_append,
      Nat.add_assoc]
  · exact (List.mem_append.mp hshape).elim (h.readable shape) (h'.readable shape)

/-- A token that is read as a shape. -/
theorem readAs_shape {shape : Shape} (hreadable : shape.Readable)
    (h : ∀ outer top position rest, read outer top opened position (token :: rest)
      = read outer (top.append shape) opened' (position + 1) rest) :
    ReadAs opened opened' [token] [.shape shape] :=
  ⟨h, by simpa using hreadable⟩

/-- A token that opens and closes nothing is one part. -/
theorem exists_part (opened : Nat) (h : token.groupSign = .plain) :
    ∃ part opened', ReadAs opened opened' [token] [part] ∧ (part = .bar ↔ token = .bar) := by
  cases token with
  | openCapture | openGroup | close => cases h
  | literal c =>
      exact ⟨_, opened, readAs_shape (readable_literal c) fun _ _ _ _ => rfl, by simp⟩
  | dot => exact ⟨_, opened, readAs_shape (readable_literal '.') fun _ _ _ _ => rfl, by simp⟩
  | anySegments =>
      exact ⟨_, opened, readAs_shape readable_anySegments fun _ _ _ _ => rfl, by simp⟩
  | segment => exact ⟨_, opened, readAs_shape readable_segment fun _ _ _ _ => rfl, by simp⟩
  | captureSegments =>
      exact ⟨_, opened + 1, readAs_shape (readable_segments.capture (opened + 1))
        fun _ _ _ _ => rfl, by simp⟩
  | bar => exact ⟨.bar, opened, ⟨fun _ _ _ _ => rfl, by simp⟩, by simp⟩

/-- A group is one part. -/
theorem ReadAs.group {sign : PatternToken} {index : Option Nat}
    (hsign : ∀ outer top position rest, Shape.read outer top opened position (sign :: rest)
      = Shape.read (top :: outer) (.fresh index position) opened' (position + 1) rest)
    (h : ReadAs opened' opened'' tokens parts) :
    ReadAs opened opened'' (sign :: tokens ++ [.close])
      [.shape ((Frame.fresh index 0).addAll parts).closed] := by
  refine ⟨fun outer top position rest => ?_, by simpa using Frame.readable_closed h.readable⟩
  have hlength : position + (sign :: tokens ++ [PatternToken.close]).length
      = position + 1 + tokens.length + 1 := by
    rw [List.length_append, List.length_cons, List.length_singleton]
    omega
  rw [hlength, List.cons_append, List.cons_append, List.append_assoc, hsign, h.read,
    List.singleton_append, Shape.read, ← Frame.closed_addAll position]
  rfl

/-- Balanced tokens are read as parts. A bar among these stands outside all groups. -/
theorem exists_parts (h : Nested groupSign tokens) (opened : Nat) :
    ∃ parts opened', ReadAs opened opened' tokens parts
      ∧ (.bar ∈ parts → ∃ front back, tokens = front ++ .bar :: back
          ∧ depth? groupSign 0 front = some 0) := by
  induction h generalizing opened with
  | nil => exact ⟨[], opened, ⟨fun _ _ _ _ => rfl, by simp⟩, by simp⟩
  | @plain token tokens htoken _ ih =>
      obtain ⟨part, opened', hpart, hbar⟩ := exists_part opened htoken
      obtain ⟨parts, opened'', hparts, hbars⟩ := ih opened'
      refine ⟨part :: parts, opened'', hpart.append hparts, fun hmem => ?_⟩
      rcases List.mem_cons.mp hmem with hmem | hmem
      · exact ⟨[], tokens, by rw [hbar.mp hmem.symm, List.nil_append], rfl⟩
      · obtain ⟨front, back, rfl, hfront⟩ := hbars hmem
        exact ⟨token :: front, back, rfl, (GroupSign.depth?_plain htoken).trans hfront⟩
  | @group sign sign' inner tokens hopening hclosing hinner _ ih₁ ih₂ =>
      cases eq_close_of_closing hclosing
      obtain ⟨index, opened', hsign⟩ := read_opening opened hopening
      obtain ⟨parts, opened'', hparts, -⟩ := ih₁ opened'
      obtain ⟨more, last, hmore, hbars⟩ := ih₂ opened''
      have hgroup := hparts.group hsign
      have hdepth := (Nested.group hopening hclosing hinner .nil).depth?
      refine ⟨.shape ((Frame.fresh index 0).addAll parts).closed :: more, last, ?_, fun hmem => ?_⟩
      · have hall := hgroup.append hmore
        rwa [List.append_assoc, List.singleton_append, List.singleton_append] at hall
      · obtain ⟨front, back, rfl, hfront⟩ := hbars (by simpa using hmem)
        refine ⟨sign :: inner ++ [.close] ++ front, back, by simp, ?_⟩
        rw [GroupSign.depth?_append, hdepth]
        exact hfront

/-! ## Parts between anchors -/

/-- The parts, tied to the ends of the namespace. -/
def anchored (parts : List GroupPart) : Shape :=
  ((((Frame.fresh none 0).append .start).addAll parts).append .finish).alternatives

/-- The parts as one group that captures nothing. -/
def grouped (parts : List GroupPart) : Shape :=
  ((Frame.fresh none 0).addAll parts).closed

theorem ReadAs.ofTokens_eq (h : ReadAs 0 opened tokens parts) :
    ofTokens tokens = .ok (anchored parts) := by
  rw [ofTokens, ← List.append_nil tokens, h.read]
  rfl

theorem exists_shapes (h : .bar ∉ parts) : ∃ shapes : List Shape, parts = shapes.map .shape := by
  induction parts with
  | nil => exact ⟨[], rfl⟩
  | cons part rest ih =>
      rw [List.mem_cons, not_or] at h
      obtain ⟨shapes, rfl⟩ := ih h.2
      cases part with
      | shape shape => exact ⟨shape :: shapes, rfl⟩
      | bar => exact absurd rfl h.1

theorem anchored_shapes (shapes : List Shape) :
    anchored (shapes.map .shape)
      = followed (shapes.foldl .followed (followed nothing start)) finish := by
  rw [anchored, Frame.addAll_shapes]
  rfl

theorem anchored_eq_sequence (shapes : List Shape) :
    anchored (shapes.map .shape) = sequence (start :: (shapes ++ [finish])) := by
  rw [anchored_shapes, sequence, List.foldl_cons, List.foldl_append]
  rfl

/-- Without bars, brackets around all parts only nest them in another way. -/
theorem ways_anchored_grouped (h : .bar ∉ parts) :
    (anchored parts).ways = (anchored [.shape (grouped parts)]).ways := by
  obtain ⟨shapes, rfl⟩ := exists_shapes h
  have hgrouped : grouped (shapes.map .shape) = sequence shapes := by
    rw [grouped, Frame.addAll_shapes]
    rfl
  rw [anchored_shapes, hgrouped]
  exact ways_followed_congr ways_foldl_followed rfl

/-- A group between anchors is read from end to end. -/
theorem tied_anchored_group : (anchored [.shape shape]).Tied := by
  have htied : (sequence [start, shape, finish]).Tied := tied_sequence
  exact htied

theorem rest_of_mem_ways_anchored (h : outcome ∈ (anchored [.shape shape]).ways cursor) :
    outcome.cursor.rest = [] := by
  obtain ⟨front, -, back, hback, rfl⟩ := mem_ways_followed.mp h
  rw [ways, run] at hback
  split at hback
  · rename_i hrest
    rw [List.mem_singleton.mp hback]
    exact hrest
  · cases hback

/-- With a bar, the parts in front of the first are read without a look at what comes behind. -/
theorem exists_mem_ways_anchored (hreadable : ∀ shape, .shape shape ∈ parts → shape.Readable)
    (hbar : .bar ∈ parts) :
    ∃ text, ∀ rest, ∃ outcome, outcome ∈ (anchored parts).ways ⟨0, text ++ rest⟩ := by
  obtain ⟨front, back, rfl, hfront⟩ := List.eq_append_cons_of_mem hbar
  obtain ⟨shapes, rfl⟩ := exists_shapes hfront
  have hshapes : (sequence shapes).Readable := by
    refine readable_sequence fun shape hshape => hreadable shape ?_
    exact List.mem_append_left _ (List.mem_map_of_mem hshape)
  obtain ⟨text, htext⟩ := hshapes
  refine ⟨text, fun rest => ?_⟩
  obtain ⟨outcome, houtcome, -⟩ := htext 0 rest
  have hfirst : outcome ∈ (shapes.foldl .followed (followed nothing start)).ways
      ⟨0, text ++ rest⟩ := by
    rw [ways_foldl_followed]
    exact mem_ways_followed.mpr ⟨_, List.mem_singleton_self _, outcome, houtcome, rfl⟩
  refine ⟨outcome, ?_⟩
  let tied : Frame := ((Frame.fresh none 0).append .start).addAll (shapes.map .shape)
  have hearlier : tied.split.earlier = some (shapes.foldl .followed (followed nothing start)) := by
    simp only [tied, Frame.addAll_shapes]
    rfl
  have hmem : outcome ∈ (tied.split.addAll (back ++ [.shape finish])).alternatives.ways
      ⟨0, text ++ rest⟩ := Frame.mem_ways_alternatives_addAll hearlier hfirst
  rw [Frame.addAll_append] at hmem
  rw [anchored, Frame.addAll_append]
  exact hmem

end Shape

/-! ## Bars outside groups -/

/-- A bar of the text stands outside all groups. -/
def BarOutside (text : List Char) : Prop :=
  ∃ front back, text = front ++ '|' :: back ∧ Balanced ofChar front

namespace PatternToken

/-- The text stands for the tokens up to a bar; as many groups are open there. -/
def BarBehind (front : List PatternToken) (text : List Char) : Prop :=
  ∃ front' back', text = front' ++ '|' :: back'
    ∧ ∀ depth, depth? ofChar depth front' = depth? groupSign depth front

/-- A bar behind a token stands behind its characters. -/
theorem barBehind_append {token : PatternToken} {front tokens back : List PatternToken}
    {rest : List Char} (start : List Char) (h : token :: tokens = front ++ .bar :: back)
    (htoken : token ≠ .bar)
    (hstart : ∀ rest' front', (∀ depth, depth? ofChar depth rest' = depth? groupSign depth front') →
      ∀ depth, depth? ofChar depth (start ++ rest') = depth? groupSign depth (token :: front'))
    (ih : ∀ {front}, tokens = front ++ .bar :: back → BarBehind front rest) :
    BarBehind front (start ++ rest) := by
  cases front with
  | nil => exact absurd (List.cons.inj h).1 htoken
  | cons token' front =>
      obtain ⟨rfl, hrest⟩ := List.cons.inj h
      obtain ⟨front', back', rfl, hdepth⟩ := ih hrest
      exact ⟨start ++ front', back', by rw [List.append_assoc], hstart front' front hdepth⟩

theorem barBehind_of_scan {text : List Char} {front back : List PatternToken}
    (h : scan text = front ++ .bar :: back) : BarBehind front text := by
  fun_induction scan text generalizing front with
  | case1 => cases front <;> cases h
  | case2 rest ih =>
      exact barBehind_append "(**)".toList h (by simp) (fun _ _ hdepth depth => hdepth depth) ih
  | case3 rest ih =>
      exact barBehind_append "..".toList h (by simp) (fun _ _ hdepth depth => hdepth depth) ih
  | case4 rest _ ih =>
      exact barBehind_append ['.'] h (by simp) (fun _ _ hdepth depth => hdepth depth) ih
  | case5 rest ih =>
      exact barBehind_append ['*'] h (by simp) (fun _ _ hdepth depth => hdepth depth) ih
  | case6 rest _ ih =>
      exact barBehind_append ['('] h (by simp) (fun _ _ hdepth depth => hdepth (depth + 1)) ih
  | case7 rest ih =>
      exact barBehind_append ['['] h (by simp) (fun _ _ hdepth depth => hdepth (depth + 1)) ih
  | case8 rest ih | case9 rest ih =>
      refine barBehind_append [_] h (by simp) (fun _ _ hdepth depth => ?_) ih
      cases depth with
      | zero => rfl
      | succ depth => exact hdepth depth
  | case10 rest ih =>
      cases front with
      | nil => exact ⟨[], rest, rfl, fun _ => rfl⟩
      | cons token front =>
          obtain ⟨rfl, hrest⟩ := List.cons.inj h
          obtain ⟨front', back', rfl, hdepth⟩ := ih hrest
          exact ⟨'|' :: front', back', rfl, hdepth⟩
  | case11 c rest _ _ hdot hstar hopen hgroup hclose hclose' hbar ih =>
      have hplain := GroupSign.ofChar_eq_plain hopen hgroup hclose hclose'
      refine barBehind_append [c] h (by simp) (fun _ _ hdepth depth => ?_) ih
      exact (GroupSign.depth?_plain hplain).trans (hdepth depth)

end PatternToken

/-- A text that is read as parts has a bar among these exactly if it has one outside all groups. -/
theorem exists_parts_of_accepted {text : List Char} (h : Accepted text) :
    ∃ parts opened, Shape.ReadAs 0 opened (PatternToken.scan text) parts
      ∧ (.bar ∈ parts ↔ BarOutside text) := by
  have hnested : ∀ {text : List Char}, depth? ofChar 0 text = some 0 →
      Nested groupSign (PatternToken.scan text) :=
    fun htext => GroupSign.nested_of_depth? (PatternToken.depth?_scan.trans htext)
  have htext := GroupSign.balanced_iff.mp h.balanced
  by_cases hbar : BarOutside text
  · obtain ⟨front, back, rfl, hfront⟩ := id hbar
    have hfront := GroupSign.balanced_iff.mp hfront
    have hback : depth? ofChar 0 back = some 0 := by
      rw [GroupSign.depth?_append, hfront] at htext
      exact htext
    have hscan : PatternToken.scan (front ++ '|' :: back)
        = PatternToken.scan front ++ .bar :: PatternToken.scan back :=
      PatternToken.scan_append (by decide) (by decide) nofun
    obtain ⟨parts, opened, hparts, -⟩ := Shape.exists_parts (hnested hfront) 0
    have hplain : groupSign .bar = .plain := rfl
    obtain ⟨part, opened', hpart, hiff⟩ := Shape.exists_part opened hplain
    obtain ⟨more, opened'', hmore, -⟩ := Shape.exists_parts (hnested hback) opened'
    refine ⟨parts ++ part :: more, opened'', ?_, iff_of_true ?_ hbar⟩
    · rw [hscan]
      exact hparts.append (hpart.append hmore)
    · rw [hiff.mpr rfl]
      exact List.mem_append_right parts List.mem_cons_self
  · obtain ⟨parts, opened, hparts, hbars⟩ := Shape.exists_parts (hnested htext) 0
    refine ⟨parts, opened, hparts, iff_of_false (fun hmem => hbar ?_) hbar⟩
    obtain ⟨front, back, hscan, hfront⟩ := hbars hmem
    obtain ⟨front', back', htext', hdepth⟩ := PatternToken.barBehind_of_scan hscan
    exact ⟨front', back', htext', GroupSign.balanced_iff.mpr ((hdepth 0).trans hfront)⟩

/-! ## Patterns in brackets -/

theorem infix_of_infix_brackets {piece text : List Char} (hopen : '[' ∉ piece) (hclose : ']' ∉ piece)
    (hne : piece ≠ []) (h : piece <:+: '[' :: (text ++ [']'])) : piece <:+: text := by
  obtain ⟨c, rest, rfl⟩ := List.exists_cons_of_ne_nil hne
  rcases List.infix_cons_iff.mp h with h | h
  · obtain ⟨rfl, -⟩ := List.cons_prefix_cons.mp h
    exact absurd List.mem_cons_self hopen
  · rcases List.infix_concat_iff.mp h with h | h
    · rcases List.suffix_concat_iff.mp h with h | ⟨start, hstart, -⟩
      · cases h
      · exact absurd (hstart ▸ List.mem_append_right start List.mem_cons_self) hclose
    · exact h

theorem Accepted.bracketed {text : List Char} (h : Accepted text) :
    Accepted ('[' :: (text ++ [']'])) := by
  refine ⟨⟨⟨fun hdots => h.noThreeDots ?_, fun c hc => ?_⟩, fun hdots => h.noDotCapture ?_⟩, ?_⟩
  · exact infix_of_infix_brackets (by decide) (by decide) (by decide) hdots
  · simp only [List.mem_cons, List.mem_append, List.not_mem_nil, or_false] at hc
    rcases hc with rfl | hc | rfl
    · decide +kernel
    · exact h.chars c hc
    · decide +kernel
  · exact infix_of_infix_brackets (by decide) (by decide) (by decide) hdots
  · have hdepth := GroupSign.balanced_iff.mp h.balanced
    rw [GroupSign.balanced_iff, GroupSign.depth?_opening rfl, GroupSign.depth?_append,
      GroupSign.depth?_add hdepth 1]
    rfl

namespace NamespacePattern

variable {pattern bracketed : NamespacePattern} {text : String}

/-- Every match of the pattern is one of the whole namespace. -/
def MatchesWhole (pattern : NamespacePattern) : Prop :=
  ∀ ns outcome, pattern.shape.search? 0 ns = some outcome →
    outcome ∈ pattern.shape.run ⟨0, ns⟩ ∧ outcome.cursor = ⟨ns.length, []⟩

/-- No match goes across a colon. -/
theorem rest_ne_nil_of_colon (h : ofText text = .ok pattern) {front : List Char} {outcome : Outcome}
    (houtcome : outcome ∈ pattern.shape.run ⟨0, front ++ [':']⟩) : outcome.cursor.rest ≠ [] := by
  intro hrest
  have hword : ∀ c, isWord c = true → Capturable text c := fun _ => Or.inl
  have hdot : Capturable text '.' := Or.inr (Or.inl rfl)
  obtain ⟨read, hread, -, hcapturable⟩ :=
    (Shape.run_readFrom hword hdot (ofText_ok h).2.1 houtcome).reaches
  rw [hrest, List.append_nil] at hread
  refine not_capturable_colon h (hcapturable ':' ?_)
  rw [← hread]
  exact List.mem_append_right front List.mem_cons_self

theorem matchesWhole_of_anchored {shape : Shape}
    (h : pattern.shape = Shape.anchored [.shape shape]) : pattern.MatchesWhole := by
  intro ns outcome hfound
  rw [h, Shape.search?_of_tied Shape.tied_anchored_group] at hfound
  have hrest : outcome.cursor.rest = [] :=
    Shape.rest_of_mem_ways_anchored (List.mem_of_head? hfound)
  rw [← Shape.head?_run] at hfound
  have hrun : outcome ∈ pattern.shape.run ⟨0, ns⟩ := h ▸ List.mem_of_head? hfound
  obtain ⟨read, hread, hoffset, -⟩ :=
    (Shape.run_readFrom (fun _ _ => trivial) trivial (Shape.over_true _) hrun).reaches
  have hread : ns = read := by rw [← List.append_nil read, ← hrest, ← hread]
  have hoffset : outcome.cursor.offset = ns.length := by rw [hread, hoffset, Nat.zero_add]
  refine ⟨hrun, ?_⟩
  rw [← hoffset, ← hrest]

/-- A bar among the parts lets a pattern match a namespace without a look at its end. -/
theorem exists_search?_of_bar {parts : List GroupPart} (h : pattern.shape = Shape.anchored parts)
    (hreadable : ∀ shape, .shape shape ∈ parts → shape.Readable) (hbar : .bar ∈ parts) :
    ∃ front outcome, pattern.shape.search? 0 (front ++ [':']) = some outcome
      ∧ outcome ∈ pattern.shape.run ⟨0, front ++ [':']⟩ := by
  obtain ⟨front, hfront⟩ := Shape.exists_mem_ways_anchored hreadable hbar
  obtain ⟨way, hway⟩ := hfront [':']
  rw [← h] at hway
  cases hhead : (pattern.shape.ways ⟨0, front ++ [':']⟩).head? with
  | none => rw [List.head?_eq_none_iff.mp hhead] at hway; cases hway
  | some outcome =>
      have hrun : outcome ∈ pattern.shape.run ⟨0, front ++ [':']⟩ := by
        rw [← Shape.head?_run] at hhead
        exact List.mem_of_head? hhead
      exact ⟨front, outcome, (Shape.search?_eq_head? (List.ne_nil_of_mem hrun)).trans hhead, hrun⟩

/-- A pattern in brackets has the parts of the pattern as one group. -/
theorem ofText_bracketed {parts : List GroupPart} {opened : Nat} (h : Accepted text.toList)
    (hparts : Shape.ReadAs 0 opened (PatternToken.scan text.toList) parts) :
    ofText ("[" ++ text ++ "]") = .ok ⟨"[" ++ text ++ "]",
      Shape.anchored [.shape (Shape.grouped parts)], text.toList.count '('⟩ := by
  have htext : ("[" ++ text ++ "]").toList = '[' :: (text.toList ++ [']']) := by simp
  have hspelled : WellSpelled ("[" ++ text ++ "]").toList := htext ▸ h.bracketed.toWellSpelled
  have hclose : PatternToken.scan (text.toList ++ [']'])
      = PatternToken.scan text.toList ++ PatternToken.scan [']'] :=
    PatternToken.scan_append (by decide) (by decide) fun hc => absurd hc (by decide)
  have hscan : PatternToken.scan ("[" ++ text ++ "]").toList
      = .openGroup :: PatternToken.scan text.toList ++ [.close] := by
    rw [htext, PatternToken.scan, hclose]
    rfl
  have hgroup : Shape.ReadAs 0 opened
      (.openGroup :: PatternToken.scan text.toList ++ [.close])
      [.shape (Shape.grouped parts)] :=
    hparts.group fun _ _ _ _ => rfl
  have hcount : ("[" ++ text ++ "]").toList.count '(' = text.toList.count '(' := by
    rw [htext]
    simp
  rw [← hscan] at hgroup
  rw [ofText_of_ofTokens_ok hspelled hgroup.ofTokens_eq, hcount]

/-- A pattern matches whole namespaces only, and the same as if it stood in brackets, exactly if no
bar stands outside its groups. -/
theorem matchesWhole_iff (h : ofText text = .ok pattern) :
    ∃ bracketed, ofText ("[" ++ text ++ "]") = .ok bracketed ∧ bracketed.MatchesWhole
      ∧ ((∀ ns, pattern.match? ns = bracketed.match? ns) ↔ ¬BarOutside text.toList)
      ∧ (pattern.MatchesWhole ↔ ¬BarOutside text.toList) := by
  have haccepted := accepted_of_ofText h
  obtain ⟨parts, opened, hparts, hbar⟩ := exists_parts_of_accepted haccepted
  have hbracketed := ofText_bracketed haccepted hparts
  have hpattern : pattern = ⟨text, Shape.anchored parts, text.toList.count '('⟩ := by
    rw [ofText_of_ofTokens_ok haccepted.toWellSpelled hparts.ofTokens_eq] at h
    exact (Except.ok.inj h).symm
  have hwhole : MatchesWhole ⟨"[" ++ text ++ "]", Shape.anchored [.shape (Shape.grouped parts)],
      text.toList.count '('⟩ := matchesWhole_of_anchored rfl
  refine ⟨_, hbracketed, hwhole, ?_⟩
  by_cases houtside : BarOutside text.toList
  · -- a colon behind the first alternative is not looked at, and cannot be read
    obtain ⟨front, outcome, hfound, hrun⟩ :=
      exists_search?_of_bar (congrArg shape hpattern) hparts.readable (hbar.mpr houtside)
    refine ⟨iff_of_false (fun hsame => ?_) (not_not_intro houtside),
      iff_of_false (fun hpattern => ?_) (not_not_intro houtside)⟩
    · have hmatch := hsame (String.ofList (front ++ [':']))
      rw [match?, match?, String.toList_ofList, hfound, Option.map_some] at hmatch
      obtain ⟨other, hother, -⟩ := Option.map_eq_some_iff.mp hmatch.symm
      obtain ⟨hrun', hcursor⟩ := hwhole _ other hother
      exact rest_ne_nil_of_colon hbracketed hrun' (congrArg Cursor.rest hcursor)
    · obtain ⟨-, hcursor⟩ := hpattern _ outcome hfound
      exact rest_ne_nil_of_colon h hrun (congrArg Cursor.rest hcursor)
  · have hways := Shape.ways_anchored_grouped (hbar.not.mpr houtside)
    have hrun := Shape.run_congr hways
    subst hpattern
    refine ⟨iff_of_true (fun ns => ?_) houtside, iff_of_true (fun ns outcome hfound => ?_) houtside⟩
    · rw [match?, match?, Shape.search?_congr hways]
    · rw [Shape.search?_congr hways] at hfound
      rw [hrun]
      exact hwhole ns outcome hfound

end NamespacePattern

namespace Alternatives

/-- Only the first alternative is tied to the start of the namespace, only the second to its end. -/
def pattern : NamespacePattern where
  text := "a|b"
  shape := .either (.followed (.followed .nothing .start) (.literal 'a'))
    (.followed (.followed .nothing (.literal 'b')) .finish)
  captures := 0

theorem accepted : NamespacePattern.ofText "a|b" = .ok pattern := by
  decide +kernel

theorem barOutside : BarOutside "a|b".toList :=
  ⟨['a'], ['b'], rfl, GroupSign.balanced_iff.mpr rfl⟩

end Alternatives

theorem matchesWhole_iff_alternatives :
    NamespacePattern.ofText "a|b" = .ok Alternatives.pattern
      ∧ ∃ bracketed, NamespacePattern.ofText "[a|b]" = .ok bracketed ∧ bracketed.MatchesWhole
        ∧ ¬(∀ ns, Alternatives.pattern.match? ns = bracketed.match? ns)
        ∧ ¬Alternatives.pattern.MatchesWhole := by
  obtain ⟨bracketed, hread, hwhole, hsame, hmatches⟩ :=
    NamespacePattern.matchesWhole_iff Alternatives.accepted
  refine ⟨Alternatives.accepted, bracketed, hread, hwhole, fun h => ?_, fun h => ?_⟩
  · exact hsame.mp h Alternatives.barOutside
  · exact hmatches.mp h Alternatives.barOutside

/-- A pattern that matches a namespace which it does not match as a group. -/
theorem match?_ne_bracketed :
    (NamespacePattern.ofText "a|b").map (·.match? "ax") = .ok (some [])
      ∧ (NamespacePattern.ofText "[a|b]").map (·.match? "ax") = .ok none := by
  decide +kernel

end Archmap
