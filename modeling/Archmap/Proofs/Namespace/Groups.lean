import Archmap.Proofs.Namespace.Bracketing
import Archmap.Proofs.Namespace.Captures

/-!
# Groups of a pattern

The reader of a pattern fails only on its groups. Whether it does, and where, is told by the tokens
that open and close groups: it reads balanced tokens (`exists_read`), stops at the first that closes
no open group (`read_unopened`), and if groups are left open it names the one opened last
(`read_unclosed`). Tokens open and close groups as the characters do that they stand for
(`depth?_scan`).
-/

namespace Archmap

/-- What a character of a pattern does to its groups; round and square brackets are alike. -/
def GroupSign.ofChar (c : Char) : GroupSign :=
  if c = '(' ∨ c = '[' then opening
  else if c = ')' ∨ c = ']' then closing
  else plain

theorem GroupSign.ofChar_eq_plain {c : Char} (hopen : c ≠ '(') (hgroup : c ≠ '[') (hclose : c ≠ ')')
    (hclose' : c ≠ ']') : ofChar c = plain := by
  rw [ofChar, if_neg (not_or.mpr ⟨hopen, hgroup⟩), if_neg (not_or.mpr ⟨hclose, hclose'⟩)]

namespace PatternToken

/-- What a token does to the groups of a pattern. -/
def groupSign : PatternToken → GroupSign
  | openCapture | openGroup => .opening
  | close => .closing
  | literal _ | dot | anySegments | segment | captureSegments | bar => .plain

/-! ## From text to tokens -/

theorem depth?_scan {depth : Nat} {text : List Char} :
    GroupSign.depth? groupSign depth (scan text) = GroupSign.depth? GroupSign.ofChar depth text := by
  fun_induction scan text generalizing depth with
  | case1 => rfl
  | case2 cs ih => exact ih
  | case3 cs ih | case4 cs _ ih | case5 cs ih | case10 cs ih => exact ih
  | case6 cs _ ih | case7 cs ih => exact ih
  | case8 cs ih | case9 cs ih =>
      cases depth with
      | zero => rfl
      | succ depth => exact ih
  | case11 c cs _ _ hdot hstar hopen hgroup hclose hclose' hbar ih =>
      rw [GroupSign.depth?_plain (GroupSign.ofChar_eq_plain hopen hgroup hclose hclose')]
      exact ih

theorem scan_literal {c : Char} {text : List Char} (h : c ∉ syntaxChars) :
    scan (c :: text) = literal c :: scan text := by
  simp only [syntaxChars, List.mem_cons, List.not_mem_nil, or_false, not_or] at h
  obtain ⟨hdot, hstar, hopen, hclose, hgroup, hclose', hbar⟩ := h
  exact scan.eq_11 c text (fun _ hc => absurd hc hopen) (fun _ hc => absurd hc hdot)
    hdot hstar hopen hgroup hclose hclose' hbar

/-- A text may be cut into tokens in two parts if no token goes across. -/
theorem scan_append {front back : List Char} {c : Char} (hdot : c ≠ '.') (hstar : c ≠ '*')
    (hclose : c = ')' → ¬['(', '*', '*'] <:+ front) :
    scan (front ++ c :: back) = scan front ++ scan (c :: back) := by
  have hrest : ∀ start rest : List Char, (c = ')' → ¬['(', '*', '*'] <:+ start ++ rest) →
      c = ')' → ¬['(', '*', '*'] <:+ rest :=
    fun start rest h hc hsuffix => h hc (hsuffix.trans (List.suffix_append start rest))
  fun_induction scan front with
  | case1 => rfl
  | case2 cs ih =>
      exact congrArg (captureSegments :: ·) (ih (hrest ['(', '*', '*', ')'] cs hclose))
  | case3 cs ih => exact congrArg (anySegments :: ·) (ih (hrest ['.', '.'] cs hclose))
  | case4 cs hnot ih =>
      rw [List.cons_append, List.cons_append, ← ih (hrest ['.'] cs hclose)]
      refine scan.eq_4 _ fun cs' hcs => ?_
      cases cs with
      | nil => exact hdot (List.cons.inj hcs).1
      | cons d cs => exact hnot cs (by rw [(List.cons.inj hcs).1])
  | case6 cs hnot ih =>
      rw [List.cons_append, List.cons_append, ← ih (hrest ['('] cs hclose)]
      refine scan.eq_6 _ fun cs' hcs => ?_
      rcases cs with _ | ⟨d, _ | ⟨e, _ | ⟨f, cs⟩⟩⟩ <;>
        simp only [List.nil_append, List.cons_append, List.cons.injEq] at hcs
      · exact hstar hcs.1
      · exact hstar hcs.2.1
      · -- the sign that closes would end a token that opens in front of the cut
        obtain ⟨rfl, rfl, rfl, -⟩ := hcs
        exact hclose rfl (List.suffix_refl _)
      · obtain ⟨rfl, rfl, rfl, -⟩ := hcs
        exact hnot cs rfl
  | case5 cs ih | case7 cs ih | case8 cs ih | case9 cs ih | case10 cs ih =>
      exact congrArg (_ :: ·) (ih (hrest [_] cs hclose))
  | case11 d cs _ _ hdot' hstar' hopen' hgroup' hclose' hclose'' hbar' ih =>
      rw [List.cons_append, List.cons_append, ← ih (hrest [d] cs hclose)]
      refine scan_literal ?_
      simp only [syntaxChars, List.mem_cons, List.not_mem_nil, or_false, not_or]
      exact ⟨hdot', hstar', hopen', hclose', hgroup', hclose'', hbar'⟩

end PatternToken

/-! ## From tokens to a shape -/

namespace Shape

open PatternToken (groupSign)
open GroupSign (depth?)

variable {outer : List Frame} {top : Frame} {opened position : Nat} {token : PatternToken}
  {rest front back : List PatternToken}

theorem read_opening (opened : Nat) (h : token.groupSign = .opening) :
    ∃ index opened', ∀ outer top position rest,
      read outer top opened position (token :: rest)
        = read (top :: outer) (.fresh index position) opened' (position + 1) rest := by
  cases token with
  | openCapture => exact ⟨some (opened + 1), opened + 1, fun _ _ _ _ => rfl⟩
  | openGroup => exact ⟨none, opened, fun _ _ _ _ => rfl⟩
  | literal _ | dot | anySegments | segment | captureSegments | close | bar => cases h

theorem eq_close_of_closing (h : token.groupSign = .closing) : token = .close := by
  cases token with
  | close => rfl
  | literal _ | dot | anySegments | segment | captureSegments | openCapture | openGroup | bar =>
      cases h

/-- Any other token is read into the innermost open group. -/
theorem read_plain (h : token.groupSign = .plain) :
    ∃ top' opened', read outer top opened position (token :: rest)
        = read outer top' opened' (position + 1) rest
      ∧ top'.position = top.position := by
  cases token with
  | openCapture | openGroup | close => cases h
  | literal _ | dot | anySegments | segment | captureSegments | bar => exact ⟨_, _, rfl, rfl⟩

/-- Tokens that close no group but open ones are read, whatever comes behind them. -/
theorem read_append {depth : Nat} (h : depth? groupSign outer.length front = some depth) :
    ∃ outer' top' opened', outer'.length = depth
      ∧ read outer top opened position (front ++ back)
        = read outer' top' opened' (position + front.length) back := by
  induction front generalizing outer top opened position with
  | nil =>
      cases h
      exact ⟨outer, top, opened, rfl, rfl⟩
  | cons token front ih =>
      rw [List.length_cons, Nat.add_comm front.length, ← Nat.add_assoc]
      cases hkind : token.groupSign with
      | opening =>
          obtain ⟨index, opened', hread⟩ := read_opening opened hkind
          rw [GroupSign.depth?_opening hkind] at h
          rw [List.cons_append, hread]
          exact ih h
      | plain =>
          obtain ⟨top', opened', hread, -⟩ := read_plain hkind
          rw [GroupSign.depth?_plain hkind] at h
          rw [List.cons_append, hread]
          exact ih h
      | closing =>
          cases outer with
          | nil =>
              rw [List.length_nil, GroupSign.depth?_closing_zero hkind] at h
              cases h
          | cons frame outer =>
              rw [List.length_cons, GroupSign.depth?_closing_succ hkind] at h
              cases eq_close_of_closing hkind
              exact ih h

/-- If all groups are closed in the end, there is a shape. -/
theorem exists_read (h : depth? groupSign outer.length front = some 0) :
    ∃ shape, read outer top opened position front = .ok shape := by
  obtain ⟨outer', top', opened', houter, hread⟩ := read_append h
  rw [← List.append_nil front, hread]
  cases List.length_eq_zero_iff.mp houter
  exact ⟨_, rfl⟩

/-- The reader stops at a token that closes no open group. -/
theorem read_unopened (hfront : depth? groupSign outer.length front = some 0)
    (htoken : token.groupSign = .closing) :
    read outer top opened position (front ++ token :: back)
      = .error (.unopened (position + front.length)) := by
  obtain ⟨outer', top', opened', houter, hread⟩ := read_append hfront
  cases List.length_eq_zero_iff.mp houter
  rw [hread, eq_close_of_closing htoken]
  rfl

/-- Behind the group opened last, the reader opens and closes groups in it and comes back to it.
`inner` are the groups that are open in it, `top` is the innermost of these or else itself. -/
theorem read_unclosed_behind {inner below : List Frame} {group : Frame} (houter : outer ≠ [])
    (h : depth? groupSign inner.length back = some 0)
    (hstack : (top :: below).map Frame.position
      = (inner ++ group :: outer).map Frame.position) :
    read below top opened position back = .error (.unclosed group.position) := by
  induction back generalizing inner top below opened position with
  | nil =>
      cases inner with
      | cons frame inner => cases h
      | nil =>
          obtain ⟨hposition, hbelow⟩ := List.cons.inj hstack
          cases below with
          | nil => exact absurd (List.map_eq_nil_iff.mp hbelow.symm) houter
          | cons frame below => rw [read, hposition]
  | cons token back ih =>
      cases hkind : token.groupSign with
      | opening =>
          obtain ⟨index, opened', hread⟩ := read_opening opened hkind
          rw [GroupSign.depth?_opening hkind] at h
          rw [hread]
          have hstack' : (Frame.fresh index position :: top :: below).map Frame.position
              = (Frame.fresh index position :: inner ++ group :: outer).map Frame.position :=
            congrArg (position :: ·) hstack
          refine ih ?_ hstack'
          exact h
      | plain =>
          obtain ⟨top', opened', hread, hposition⟩ := read_plain hkind
          rw [GroupSign.depth?_plain hkind] at h
          rw [hread]
          refine ih h ?_
          rw [List.map_cons, hposition]
          exact hstack
      | closing =>
          cases inner with
          | nil =>
              rw [List.length_nil, GroupSign.depth?_closing_zero hkind] at h
              cases h
          | cons frame inner =>
              rw [List.length_cons, GroupSign.depth?_closing_succ hkind] at h
              cases eq_close_of_closing hkind
              obtain ⟨-, hbelow⟩ := List.cons.inj hstack
              cases below with
              | nil => simp at hbelow
              | cons frame' below => exact ih h hbelow

/-- If groups are left open, the reader names the one opened last. -/
theorem read_unclosed {depth : Nat} (hfront : depth? groupSign outer.length front = some depth)
    (htoken : token.groupSign = .opening) (hback : depth? groupSign 0 back = some 0) :
    read outer top opened position (front ++ token :: back)
      = .error (.unclosed (position + front.length)) := by
  obtain ⟨outer', top', opened', -, hread⟩ := read_append hfront
  obtain ⟨index, opened'', hread'⟩ := read_opening opened' htoken
  have hstack : (Frame.fresh index (position + front.length) :: top' :: outer').map Frame.position
      = ([] ++ Frame.fresh index (position + front.length) :: top' :: outer').map
          Frame.position := rfl
  rw [hread, hread']
  refine read_unclosed_behind (List.cons_ne_nil top' outer') ?_ hstack
  exact hback

theorem ofTokens_unopened (hfront : depth? groupSign 0 front = some 0)
    (htoken : token.groupSign = .closing) :
    ofTokens (front ++ token :: back) = .error (.unopened front.length) := by
  have h : depth? groupSign ([] : List Frame).length front = some 0 := hfront
  rw [ofTokens, read_unopened h htoken, Nat.zero_add]

theorem ofTokens_unclosed {depth : Nat} (hfront : depth? groupSign 0 front = some depth)
    (htoken : token.groupSign = .opening) (hback : depth? groupSign 0 back = some 0) :
    ofTokens (front ++ token :: back) = .error (.unclosed front.length) := by
  have h : depth? groupSign ([] : List Frame).length front = some depth := hfront
  rw [ofTokens, read_unclosed h htoken hback, Nat.zero_add]

end Shape

end Archmap
