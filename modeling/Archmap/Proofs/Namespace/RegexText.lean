import Archmap.Proofs.Namespace.Acceptance
import Archmap.Proofs.Namespace.Regex

/-!
# The regular expression of a pattern

A pattern finds what the regular expression finds that its text is rewritten to
(`NamespacePattern.ofText_eq_regex`). The expression is given as a text (`rewritten`), so it has to
be read first: `Regex.read` reads the syntax that is needed here, and stops at anything else.

The tokens of a pattern and the characters of its expression are read alike: behind each token the
same groups are open, and what they hold agrees (`read_alike`). So the expression can be read exactly
if the pattern can, and otherwise the bracket at fault is the same (`ofText_alike`).
-/

namespace Archmap

namespace Regex

/-! ## Reading -/

/-- What stops the reading of an expression; the number is the position of the character. -/
inductive Fault where
  | unopened (position : Nat)
  | unclosed (position : Nat)
  /-- There is nothing in front of a sign of repetition. -/
  | nothingToRepeat (position : Nat)
  /-- Syntax beyond what is read here. -/
  | foreign (position : Nat)
  deriving DecidableEq

/-- A group that is being read. -/
structure Group where
  /-- The number of the capture that the group is; `none` for a group that captures nothing. -/
  index : Option Nat
  /-- The position of the opening bracket. -/
  position : Nat
  /-- The alternatives in front of the last bar. -/
  earlier : Option Regex
  /-- What has been read since. -/
  current : Regex

namespace Group

def fresh (index : Option Nat) (position : Nat) : Group :=
  ⟨index, position, none, .nothing⟩

def append (group : Group) (item : Regex) : Group :=
  { group with current := .followed group.current item }

def alternatives (group : Group) : Regex :=
  match group.earlier with
  | none => group.current
  | some regex => .either regex group.current

def split (group : Group) : Group :=
  { group with earlier := some group.alternatives, current := .nothing }

def closed (group : Group) : Regex :=
  match group.index with
  | none => group.alternatives
  | some index => .capture index group.alternatives

/-- Repeats the last item. A second sign of repetition would have a meaning of its own. -/
def repeatLast (group : Group) (how : Regex → Regex) (position : Nat) : Except Fault Group :=
  match group.current with
  | .followed _ (.optional _) | .followed _ (.many _) | .followed _ (.many1 _) =>
    .error (.foreign position)
  | .followed front last => .ok { group with current := .followed front (how last) }
  | _ => .error (.nothingToRepeat position)

end Group

/-- The characters that may stand behind a backslash for themselves. -/
def metaChars : List Char :=
  "\\.+*?()|[]\x7b\x7d^$#&-~".toList

/-- Reads characters into the innermost open group `top`, which lies in the groups of `outer`. So far
`opened` captures have been opened and `position` characters read. Gives the expression and how many
captures it has. -/
def read (outer : List Group) (top : Group) (opened position : Nat) :
    List Char → Except Fault (Regex × Nat)
  | [] =>
    match outer with
    | [] => .ok (top.alternatives, opened)
    | _ :: _ => .error (.unclosed top.position)
  | '\\' :: c :: rest =>
    if c = 'w' then read outer (top.append .word) opened (position + 2) rest
    else if c ∈ metaChars then read outer (top.append (.literal c)) opened (position + 2) rest
    else .error (.foreign position)
  | '(' :: '?' :: ':' :: rest =>
    read (top :: outer) (.fresh none position) opened (position + 3) rest
  | '(' :: '?' :: _ => .error (.foreign position)
  | '(' :: rest =>
    read (top :: outer) (.fresh (some (opened + 1)) position) (opened + 1) (position + 1) rest
  | ')' :: rest =>
    match outer with
    | [] => .error (.unopened position)
    | group :: outer => read outer (group.append top.closed) opened (position + 1) rest
  | '|' :: rest => read outer top.split opened (position + 1) rest
  | '^' :: rest => read outer (top.append .start) opened (position + 1) rest
  | '$' :: rest => read outer (top.append .finish) opened (position + 1) rest
  | '?' :: rest =>
    match top.repeatLast .optional position with
    | .ok top => read outer top opened (position + 1) rest
    | .error fault => .error fault
  | '*' :: rest =>
    match top.repeatLast .many position with
    | .ok top => read outer top opened (position + 1) rest
    | .error fault => .error fault
  | '+' :: rest =>
    match top.repeatLast .many1 position with
    | .ok top => read outer top opened (position + 1) rest
    | .error fault => .error fault
  | c :: rest =>
    if c ∈ "\\.[\x7b".toList then .error (.foreign position)
    else read outer (top.append (.literal c)) opened (position + 1) rest

/-- The expression with the given text, and how many captures it has. -/
def ofText (text : List Char) : Except Fault (Regex × Nat) :=
  read [] (.fresh none 0) 0 0 text

/-! ## Groups alike -/

/-- What has been read into a group as part of an expression agrees with what has been read into it
as part of a pattern. -/
structure Group.Agrees (group : Group) (frame : Frame) : Prop where
  index : group.index = frame.index
  earlier : Option.Rel Regex.Agrees group.earlier frame.earlier
  current : group.current.Agrees frame.current

namespace Group.Agrees

variable {group : Group} {frame : Frame} {regex : Regex} {shape : Shape}

theorem fresh (index : Option Nat) (position position' : Nat) :
    (Group.fresh index position).Agrees (Frame.fresh index position') :=
  ⟨rfl, .none, agrees_nothing⟩

theorem append (h : group.Agrees frame) (hitem : regex.Agrees shape) :
    (group.append regex).Agrees (frame.append shape) :=
  ⟨h.index, h.earlier, h.current.followed hitem⟩

theorem alternatives (h : group.Agrees frame) :
    group.alternatives.Agrees frame.alternatives := by
  obtain ⟨index, position, earlier, current⟩ := group
  obtain ⟨index', position', earlier', current'⟩ := frame
  cases h.earlier with
  | none => exact h.current
  | some hearlier => exact hearlier.either h.current

theorem split (h : group.Agrees frame) : group.split.Agrees frame.split :=
  ⟨h.index, .some h.alternatives, agrees_nothing⟩

theorem closed (h : group.Agrees frame) : group.closed.Agrees frame.closed := by
  rw [Group.closed, Frame.closed, h.index]
  cases frame.index with
  | none => exact h.alternatives
  | some index => exact h.alternatives.capture index

end Group.Agrees

/-- The same groups are open when an expression and when a pattern is read. `column` is where the
expression has the tokens of the pattern. -/
inductive OpenAlike (column : Nat → Nat) : List Group → Group → List Frame → Frame → Prop
  | outermost {group : Group} {frame : Frame} (h : group.Agrees frame) :
    OpenAlike column [] group [] frame
  | inner {group below : Group} {frame below' : Frame} {outer : List Group} {outer' : List Frame}
    (h : group.Agrees frame) (hposition : group.position = column frame.position)
    (hbelow : OpenAlike column outer below outer' below') :
    OpenAlike column (below :: outer) group (below' :: outer') frame

/-- The fault in the nesting of groups, by the position of the bracket in the expression. -/
def Fault.ofGroups (column : Nat → Nat) : GroupFault → Fault
  | .unopened position => .unopened (column position)
  | .unclosed position => .unclosed (column position)

/-- Reading an expression ends as reading a pattern does. -/
inductive EndsAlike (column : Nat → Nat) (captures : Nat) :
    Except Fault (Regex × Nat) → Except GroupFault Shape → Prop
  | ok {regex : Regex} {shape : Shape} (h : regex.Agrees shape) :
    EndsAlike column captures (.ok (regex, captures)) (.ok shape)
  | error {fault : Fault} {fault' : GroupFault} (h : fault = .ofGroups column fault') :
    EndsAlike column captures (.error fault) (.error fault')

variable {column : Nat → Nat} {outer : List Group} {top : Group} {outer' : List Frame}
  {top' : Frame} {opened position index : Nat} {text : List Char} {token : PatternToken}
  {regex : Regex} {shape : Shape}

theorem OpenAlike.agrees (h : OpenAlike column outer top outer' top') : top.Agrees top' := by
  cases h with
  | outermost h => exact h
  | inner h => exact h

/-- The group that has changed is still the same on both sides. -/
theorem OpenAlike.of_top {group : Group} {frame : Frame}
    (h : OpenAlike column outer top outer' top') (hgroup : group.Agrees frame)
    (hposition : group.position = top.position) (hposition' : frame.position = top'.position) :
    OpenAlike column outer group outer' frame := by
  cases h with
  | outermost => exact .outermost hgroup
  | inner _ htop hbelow => exact .inner hgroup (by rw [hposition, htop, hposition']) hbelow

/-! ## Tokens -/

/-- What a token that is neither a bracket nor a bar stands for, behind `opened` captures. -/
def item? (opened : Nat) : PatternToken → Option (Regex × Shape)
  | .literal c => some (.literal c, .literal c)
  | .dot => some (.literal '.', .literal '.')
  | .anySegments => some (anySegments, .anySegments)
  | .segment => some (.many1 .word, .segment)
  | .captureSegments =>
    some (.capture (opened + 1) segments, .capture (opened + 1) .segments)
  | .openCapture | .openGroup | .close | .bar => none

theorem agrees_item (h : item? opened token = some (regex, shape)) : regex.Agrees shape := by
  cases token with
  | literal c =>
      cases h
      exact agrees_literal c
  | dot =>
      cases h
      exact agrees_literal '.'
  | anySegments =>
      cases h
      exact agrees_anySegments
  | segment =>
      cases h
      exact agrees_segment
  | captureSegments =>
      cases h
      exact agrees_segments.capture (opened + 1)
  | openCapture | openGroup | close | bar => cases h

theorem read_literal {c : Char} (h : c ∉ metaChars) :
    read outer top opened position (c :: text)
      = read outer (top.append (.literal c)) opened (position + 1) text := by
  have hne : ∀ d ∈ metaChars, c ≠ d := fun d hd hcd => h (hcd ▸ hd)
  have hforeign : c ∉ "\\.[\x7b".toList := fun hc =>
    h ((show "\\.[\x7b".toList ⊆ metaChars by decide) hc)
  rw [read.eq_15 _ _ _ _ _ _ (fun _ _ hc => absurd hc (hne '\\' (by decide)))
    (fun _ hc => absurd hc (hne '(' (by decide))) (fun _ hc => absurd hc (hne '(' (by decide)))
    (hne '(' (by decide)) (hne ')' (by decide)) (hne '|' (by decide)) (hne '^' (by decide))
    (hne '$' (by decide)) (hne '?' (by decide)) (hne '*' (by decide)) (hne '+' (by decide)),
    if_neg hforeign]

theorem read_item (h : item? opened token = some (regex, shape))
    (hliteral : ∀ c, token = .literal c → c = '$' ∨ c ∉ metaChars) :
    read outer top opened position (token.expansion.toList ++ text)
      = read outer (top.append regex) (opened + token.captures.toNat)
          (position + token.expansion.length) text := by
  cases token with
  | literal c =>
      cases h
      by_cases hc : c = '$'
      · subst hc
        rfl
      · rw [PatternToken.expansion, if_neg hc, String.toList_singleton, String.length_singleton]
        exact read_literal ((hliteral c rfl).resolve_left hc)
  | dot | anySegments | segment | captureSegments =>
      cases h
      rfl
  | openCapture | openGroup | close | bar => cases h

theorem shape_read_item {rest : List PatternToken} (h : item? opened token = some (regex, shape)) :
    Shape.read outer' top' opened index (token :: rest)
      = Shape.read outer' (top'.append shape) (opened + token.captures.toNat) (index + 1) rest := by
  cases token with
  | literal c | dot | anySegments | segment | captureSegments =>
      cases h
      rfl
  | openCapture | openGroup | close | bar => cases h

/-- The text that the tokens expand to. -/
def expansionText (tokens : List PatternToken) : List Char :=
  tokens.flatMap fun token => token.expansion.toList

theorem expansionText_cons {rest : List PatternToken} :
    expansionText (token :: rest) = token.expansion.toList ++ expansionText rest :=
  List.flatMap_cons

/-- The literals of the tokens stand for themselves in an expression, apart from dollar signs. -/
def Literal (tokens : List PatternToken) : Prop :=
  ∀ c, .literal c ∈ tokens → c = '$' ∨ c ∉ metaChars

/-- No expansion begins with a question mark, so an opening bracket in front of it opens a capture. -/
theorem expansionText_ne {tokens : List PatternToken} (h : Literal tokens) (more : List Char) :
    expansionText tokens ++ ['$'] ≠ '?' :: more := by
  cases tokens with
  | nil => simp [expansionText]
  | cons token rest =>
      rw [expansionText_cons]
      cases token with
      | literal c =>
          intro heq
          by_cases hc : c = '$'
          · subst hc
            cases heq
          · rw [PatternToken.expansion, if_neg hc, String.toList_singleton] at heq
            obtain rfl : c = '?' := (List.cons.inj heq).1
            exact (h '?' List.mem_cons_self).resolve_left hc (by decide)
      | dot | anySegments | segment | captureSegments | openCapture | openGroup | close | bar =>
          intro heq
          cases heq

/-- The tokens from the given one on are at their columns if their text begins at the given
position. -/
def Placed (column : Nat → Nat) (index position : Nat) (tokens : List PatternToken) : Prop :=
  ∀ n, column (index + n) = position + (expansionText (tokens.take n)).length

theorem Placed.here {tokens : List PatternToken} (h : Placed column index position tokens) :
    position = column index :=
  (h 0).symm

theorem Placed.next {rest : List PatternToken}
    (h : Placed column index position (token :: rest)) :
    Placed column (index + 1) (position + token.expansion.length) rest := by
  intro n
  have hstep := h (n + 1)
  rw [List.take_succ_cons, expansionText_cons, List.length_append, String.length_toList] at hstep
  rw [Nat.add_assoc index, Nat.add_comm 1, hstep, Nat.add_assoc]

theorem countP_captures_cons {rest : List PatternToken} :
    opened + (token :: rest).countP PatternToken.captures
      = opened + token.captures.toNat + rest.countP PatternToken.captures := by
  rw [List.countP_cons, Nat.add_assoc, Nat.add_comm (rest.countP _)]
  cases token.captures <;> rfl

/-- Tokens and the text they expand to are read alike. -/
theorem read_alike {tokens : List PatternToken} (opened : Nat) (htokens : Literal tokens)
    (hplaced : Placed column index position tokens)
    (hopen : OpenAlike column outer top outer' top') :
    EndsAlike column (opened + tokens.countP PatternToken.captures)
      (read outer top opened position (expansionText tokens ++ ['$']))
      (Shape.read outer' top' opened index tokens) := by
  induction tokens generalizing outer top outer' top' opened position index with
  | nil =>
      change EndsAlike column opened (read outer (top.append .finish) opened (position + 1) []) _
      cases hopen with
      | outermost h => exact .ok (h.append agrees_finish).alternatives
      | inner h hposition => exact .error (congrArg Fault.unclosed hposition)
  | cons token rest ih =>
      have hrest : Literal rest := fun c hc => htokens c (List.mem_cons_of_mem token hc)
      rw [expansionText_cons, List.append_assoc, countP_captures_cons]
      cases hitem : item? opened token with
      | some item =>
          rw [read_item hitem fun c hc => htokens c (hc ▸ List.mem_cons_self),
            shape_read_item hitem]
          exact ih _ hrest hplaced.next
            (hopen.of_top (hopen.agrees.append (agrees_item hitem)) rfl rfl)
      | none =>
          cases token with
          | literal c | dot | anySegments | segment | captureSegments => cases hitem
          | openCapture =>
              have hopened : OpenAlike column (top :: outer) (.fresh (some (opened + 1)) position)
                  (top' :: outer') (.fresh (some (opened + 1)) index) :=
                .inner (.fresh _ _ _) hplaced.here hopen
              rw [show PatternToken.openCapture.expansion.toList = ['('] from rfl,
                List.singleton_append,
                read.eq_6 _ _ _ _ _ (fun more h => expansionText_ne hrest _ h)
                  fun more h => expansionText_ne hrest _ h]
              exact ih _ hrest hplaced.next hopened
          | openGroup =>
              have hopened : OpenAlike column (top :: outer) (.fresh none position)
                  (top' :: outer') (.fresh none index) :=
                .inner (.fresh _ _ _) hplaced.here hopen
              exact ih _ hrest hplaced.next hopened
          | close =>
              rw [show PatternToken.close.expansion.toList = [')'] from rfl, List.singleton_append]
              cases hopen with
              | outermost h => exact .error (congrArg Fault.unopened hplaced.here)
              | inner h hposition hbelow =>
                  exact ih _ hrest hplaced.next
                    (hbelow.of_top (hbelow.agrees.append h.closed) rfl rfl)
          | bar => exact ih _ hrest hplaced.next (hopen.of_top hopen.agrees.split rfl rfl)

/-! ## The expression of a text -/

/-- The position that a token of the text has in the expression, which begins with a sign for the
start. -/
def columnOf (text : List Char) (index : Nat) : Nat :=
  1 + (expansionText ((PatternToken.scan text).take index)).length

theorem literal_scan (h : Spelled text) : Literal (PatternToken.scan text) := by
  intro c hc
  obtain ⟨hmem, hsyntax⟩ := PatternToken.mem_of_literal_mem_scan hc
  have hmeta : metaChars.all (fun d => d = '$' || d ∈ PatternToken.syntaxChars || !isPatternChar d)
      = true := by
    decide +kernel
  by_cases hdollar : c = '$'
  · exact Or.inl hdollar
  · refine Or.inr fun hc => ?_
    have hfault := List.all_eq_true.mp hmeta c hc
    simp [hdollar, hsyntax, h.chars c hmem] at hfault

/-- The expression that a text is rewritten to is read as its tokens are. -/
theorem ofText_alike (h : Spelled text) :
    EndsAlike (columnOf text) ((PatternToken.scan text).countP PatternToken.captures)
      (ofText ('^' :: (rewritten text ++ ['$']))) (Shape.ofTokens (PatternToken.scan text)) := by
  have hstart : OpenAlike (columnOf text) [] ((Group.fresh none 0).append .start)
      [] ((Frame.fresh none 0).append .start) :=
    .outermost ((Group.Agrees.fresh none 0 0).append agrees_start)
  have halike := read_alike 0 (literal_scan h)
    (fun n => congrArg (columnOf text) (Nat.zero_add n)) hstart
  rw [Nat.zero_add] at halike
  rw [rewritten_eq_expansion h]
  exact halike

/-- What the captures of the expression hold after a search in a namespace. -/
def match? (regex : Regex) (captures : Nat) (ns : String) : Option (List String) :=
  (Outcome.leftmost? regex.ways 0 ns.toList).map fun outcome =>
    (List.range captures).map fun i =>
      NamespacePattern.captured ns.toList outcome.spans (i + 1)

end Regex

/-- A text that is spelled as a pattern is one if the expression can be read that it is rewritten
to, and then the pattern finds in a namespace what the expression finds. Else both have the same
bracket at fault. -/
theorem NamespacePattern.ofText_eq_regex {text : String} (h : WellSpelled text.toList) :
    match ofText text with
    | .ok pattern =>
      ∃ regex, Regex.ofText ('^' :: (rewritten text.toList ++ ['$'])) = .ok (regex, pattern.captures)
        ∧ ∀ ns, pattern.match? ns = regex.match? pattern.captures ns
    | .error e =>
      ∃ fault, e.fault = .groups fault
        ∧ Regex.ofText ('^' :: (rewritten text.toList ++ ['$']))
          = .error (.ofGroups (Regex.columnOf text.toList) fault) := by
  have halike := Regex.ofText_alike h.toSpelled
  rw [PatternToken.countP_captures] at halike
  generalize hregex : Regex.ofText ('^' :: (rewritten text.toList ++ ['$'])) = ending at halike
  cases hshape : Shape.ofTokens (PatternToken.scan text.toList) with
  | ok shape =>
      rw [hshape] at halike
      rw [ofText_of_ofTokens_ok h hshape]
      cases halike with
      | @ok regex _ hagrees =>
          refine ⟨regex, rfl, fun ns => ?_⟩
          rw [match?, Regex.match?, hagrees.search?_eq]
  | error fault =>
      rw [hshape] at halike
      rw [ofText_of_ofTokens_error h hshape]
      cases halike with
      | error hfault => exact ⟨fault, rfl, congrArg _ hfault⟩

end Archmap
