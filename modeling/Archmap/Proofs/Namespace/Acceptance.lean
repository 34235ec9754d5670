import Archmap.Proofs.Namespace.Expansion
import Mathlib.Data.String.Basic

/-!
# Which texts are patterns

A text is a pattern if it is spelled as one and its groups are balanced (`Accepted`). Of any other
text the first thing that is wrong is reported (`Refused`): three dots, then two dots in a capture,
then the first character that no pattern contains, then the groups. A report on the groups shows the
regular expression of the text with a mark below the bracket at fault, which is the first that closes
no open group or else the one that opened last of those left open.

The reader works on tokens, the conditions speak of the text. They agree because tokens open and
close groups as the text does and because a bracket at fault is a token of its own
(`scan_unopened`, `scan_unclosed`).
-/

namespace Archmap

open GroupSign (ofChar Balanced NeverUnopened depth?)

/-! ## The conditions -/

/-- Without a look at its groups, the text is a pattern. -/
structure WellSpelled (text : List Char) : Prop extends Spelled text where
  noDotCapture : ¬['(', '.', '.', ')'] <:+: text

/-- The text is a namespace pattern. -/
structure Accepted (text : List Char) : Prop extends WellSpelled text where
  balanced : Balanced ofChar text

/-- The regular expression of a text and a mark below the bracket behind the front part of it. -/
def groupReport (text front : List Char) (complaint : String) : String :=
  "regex parse error:\n"
    ++ "    ^" ++ String.ofList (rewritten text) ++ "$\n"
    ++ "    " ++ String.ofList (List.replicate (1 + (rewritten front).length) ' ') ++ "^\n"
    ++ "error: " ++ complaint

/-- The text is no namespace pattern, for the given reason. -/
inductive Refused (text : List Char) : String → Prop
  | threeDots (h : ['.', '.', '.'] <:+: text) :
    Refused text "may not contain more than two '.' in a row"
  | dotCapture (hdots : ¬['.', '.', '.'] <:+: text) (h : ['(', '.', '.', ')'] <:+: text) :
    Refused text "capturing via (..) is not supported, use (**) instead"
  | unsupported {front back : List Char} {c : Char} (hdots : ¬['.', '.', '.'] <:+: text)
    (hcapture : ¬['(', '.', '.', ')'] <:+: text) (htext : text = front ++ c :: back)
    (hfront : ∀ d ∈ front, isPatternChar d = true) (hc : isPatternChar c = false) :
    Refused text ("unsupported character '" ++ String.singleton c
      ++ "', only identifier characters and '.*()[]|' are allowed")
  /-- The bracket behind `front` is the first that closes no open group. -/
  | unopened {front back : List Char} {c : Char} (h : WellSpelled text)
    (htext : text = front ++ c :: back) (hc : ofChar c = .closing)
    (hfront : Balanced ofChar front)
    (hmark : rewritten text = rewritten front ++ ')' :: rewritten back) :
    Refused text (groupReport text front "unopened group")
  /-- The bracket behind `front` opens the last of the groups that are left open. -/
  | unclosed {front back : List Char} {c : Char} (h : WellSpelled text)
    (htext : text = front ++ c :: back) (hc : ofChar c = .opening)
    (hfront : NeverUnopened ofChar front) (hback : Balanced ofChar back)
    (hmark : ∃ behind, rewritten text = rewritten front ++ '(' :: behind) :
    Refused text (groupReport text front "unclosed group")

variable {text front back : List Char} {c : Char}

/-! ## The bracket at fault -/

namespace PatternToken

theorem eq_of_closing (hc : ofChar c = .closing) : c = ')' ∨ c = ']' := by
  rw [ofChar] at hc
  split at hc
  · cases hc
  · split at hc
    · assumption
    · cases hc

theorem eq_of_opening (hc : ofChar c = .opening) : c = '(' ∨ c = '[' := by
  rw [ofChar] at hc
  split at hc
  · assumption
  · split at hc <;> cases hc

/-- A bracket that closes no open group is a token of its own. -/
theorem scan_unopened (hc : ofChar c = .closing) (hfront : Balanced ofChar front) :
    scan (front ++ c :: back) = scan front ++ close :: scan back := by
  have hbracket := eq_of_closing hc
  have hsuffix : ¬['(', '*', '*'] <:+ front := by
    -- it would leave a group open
    rintro ⟨start, rfl⟩
    have hdepth := GroupSign.balanced_iff.mp hfront
    rw [GroupSign.depth?_append, Option.bind_eq_some_iff] at hdepth
    obtain ⟨depth, -, hdepth⟩ := hdepth
    cases hdepth
  rw [scan_append (by rintro rfl; cases hc) (by rintro rfl; cases hc) fun _ => hsuffix]
  rcases hbracket with rfl | rfl <;> rfl

/-- A bracket behind which all groups are closed opens a group as a token of its own. -/
theorem scan_unclosed (hc : ofChar c = .opening) (hback : Balanced ofChar back) :
    ∃ token, token.groupSign = .opening
      ∧ ∀ front, scan (front ++ c :: back) = scan front ++ token :: scan back := by
  have hclose : ∀ front, c = ')' → ¬['(', '*', '*'] <:+ front := by
    rintro front rfl
    cases hc
  have hprefix : ∀ rest, back = '*' :: '*' :: ')' :: rest → False := by
    -- it would close a group that is not open
    rintro rest rfl
    cases GroupSign.balanced_iff.mp hback
  have happend : ∀ front, scan (front ++ c :: back) = scan front ++ scan (c :: back) :=
    fun front => scan_append (by rintro rfl; cases hc) (by rintro rfl; cases hc) (hclose front)
  rcases eq_of_opening hc with rfl | rfl
  · exact ⟨openCapture, rfl, fun front => by rw [happend, scan.eq_6 back hprefix]⟩
  · exact ⟨openGroup, rfl, happend⟩

end PatternToken

/-- The regular expression has a bracket where the text has the one that closes no open group. -/
theorem rewritten_unopened (h : Spelled (front ++ c :: back)) (hc : ofChar c = .closing)
    (hfront : Balanced ofChar front) :
    rewritten (front ++ c :: back) = rewritten front ++ ')' :: rewritten back := by
  have hspelled : Spelled front := h.of_infix (List.prefix_append front _).isInfix
  have hback : Spelled back := (h.drop front).drop [c]
  rw [rewritten_eq_expansion h, PatternToken.scan_unopened hc hfront, List.flatMap_append,
    ← rewritten_eq_expansion hspelled, List.flatMap_cons, ← rewritten_eq_expansion hback]
  rfl

/-- The regular expression has a bracket where the text has the one that is left open. -/
theorem rewritten_unclosed (h : Spelled (front ++ c :: back)) (hc : ofChar c = .opening)
    (hback : Balanced ofChar back) :
    ∃ behind, rewritten (front ++ c :: back) = rewritten front ++ '(' :: behind := by
  have hspelled : Spelled front := h.of_infix (List.prefix_append front _).isInfix
  obtain ⟨token, htoken, hscan⟩ := PatternToken.scan_unclosed hc hback
  rw [rewritten_eq_expansion h, hscan front, List.flatMap_append,
    ← rewritten_eq_expansion hspelled, List.flatMap_cons]
  cases token with
  | openCapture | openGroup => exact ⟨_, rfl⟩
  | literal _ | dot | anySegments | segment | captureSegments | close | bar => cases htoken

/-- A text is a pattern, or there is a reason why it is none. -/
theorem accepted_or_refused (text : List Char) : Accepted text ∨ ∃ reason, Refused text reason := by
  by_cases hdots : ['.', '.', '.'] <:+: text
  · exact Or.inr ⟨_, .threeDots hdots⟩
  by_cases hcapture : ['(', '.', '.', ')'] <:+: text
  · exact Or.inr ⟨_, .dotCapture hdots hcapture⟩
  by_cases hchars : ∀ c ∈ text, isPatternChar c = true
  · have hspelled : WellSpelled text := ⟨⟨hdots, hchars⟩, hcapture⟩
    cases hdepth : depth? ofChar 0 text with
    | none =>
        obtain ⟨front, c, back, htext, hc, hfront⟩ := GroupSign.exists_unopened hdepth
        have hfront := GroupSign.balanced_iff.mpr hfront
        exact Or.inr ⟨_, .unopened hspelled htext hc hfront
          (htext ▸ rewritten_unopened (htext ▸ hspelled.toSpelled) hc hfront)⟩
    | some depth =>
        cases depth with
        | zero => exact Or.inl ⟨hspelled, GroupSign.balanced_iff.mpr hdepth⟩
        | succ depth =>
            obtain ⟨front, c, back, htext, hc, hfront, hback⟩ := GroupSign.exists_unclosed hdepth
            have hback := GroupSign.balanced_iff.mpr hback
            exact Or.inr ⟨_, .unclosed hspelled htext hc
              (GroupSign.neverUnopened_iff.mpr ⟨depth, hfront⟩) hback
              (htext ▸ rewritten_unclosed (htext ▸ hspelled.toSpelled) hc hback)⟩
  · cases hfind : text.find? fun c => !isPatternChar c with
    | none => exact absurd (by simpa using hfind) hchars
    | some c =>
        obtain ⟨hc, front, back, htext, hfront⟩ := List.find?_eq_some_iff_append.mp hfind
        exact Or.inr
          ⟨_, .unsupported hdots hcapture htext (by simpa using hfront) (by simpa using hc)⟩

/-! ## Reports on groups -/

theorem expansion_eq (h : Spelled text) :
    String.join ((PatternToken.scan text).map PatternToken.expansion)
      = String.ofList (rewritten text) := by
  rw [rewritten_eq_expansion h, String.join_eq, List.map_map]
  rfl

theorem groupReport_eq {tokens : List PatternToken} {complaint : String} (h : Spelled text)
    (hfront : Spelled front)
    (hscan : PatternToken.scan text = PatternToken.scan front ++ tokens) :
    PatternError.groupReport (PatternToken.scan text) (PatternToken.scan front).length complaint
      = groupReport text front complaint := by
  have htake : (PatternToken.scan text).take (PatternToken.scan front).length
      = PatternToken.scan front := by
    rw [hscan, List.take_left]
  have hcolumn : (String.join (((PatternToken.scan text).take
      (PatternToken.scan front).length).map PatternToken.expansion)).length
        = (rewritten front).length := by
    rw [htake, expansion_eq hfront, String.length_ofList]
  unfold PatternError.groupReport groupReport
  rw [← expansion_eq h, ← hcolumn]

/-! ## Reading -/

namespace NamespacePattern

variable {text : String}

theorem occurs_three_dots_iff :
    occurs "...".toList text.toList = true ↔ ['.', '.', '.'] <:+: text.toList :=
  occurs_iff_isInfix

theorem occurs_dot_capture_iff :
    occurs "(..)".toList text.toList = true ↔ ['(', '.', '.', ')'] <:+: text.toList :=
  occurs_iff_isInfix

theorem spellingFault?_eq_none (h : WellSpelled text.toList) :
    spellingFault? text.toList = none := by
  rw [spellingFault?, if_neg (occurs_three_dots_iff.not.mpr h.noThreeDots),
    if_neg (occurs_dot_capture_iff.not.mpr h.noDotCapture), Option.map_eq_none_iff,
    List.find?_eq_none]
  simpa using h.chars

theorem ofText_of_ofTokens_error {fault : GroupFault} (h : WellSpelled text.toList)
    (hfault : Shape.ofTokens (PatternToken.scan text.toList) = .error fault) :
    ofText text = .error ⟨text, .groups fault⟩ := by
  rw [ofText, spellingFault?_eq_none h]
  simp only [hfault]

theorem ofText_of_ofTokens_ok {shape : Shape} (h : WellSpelled text.toList)
    (hshape : Shape.ofTokens (PatternToken.scan text.toList) = .ok shape) :
    ofText text = .ok ⟨text, shape, text.toList.count '('⟩ := by
  rw [ofText, spellingFault?_eq_none h]
  simp only [hshape, PatternToken.countP_captures]

theorem ofText_of_accepted (h : Accepted text.toList) :
    ∃ pattern, ofText text = .ok pattern ∧ pattern.text = text := by
  have hdepth : depth? PatternToken.groupSign 0 (PatternToken.scan text.toList) = some 0 :=
    PatternToken.depth?_scan.trans (GroupSign.balanced_iff.mp h.balanced)
  obtain ⟨shape, hshape⟩ : ∃ shape, Shape.ofTokens (PatternToken.scan text.toList) = .ok shape :=
    Shape.exists_read hdepth
  exact ⟨_, ofText_of_ofTokens_ok h.toWellSpelled hshape, rfl⟩

/-- A text that is no pattern is refused, and for the reason given. -/
theorem ofText_of_refused {reason : String} (h : Refused text.toList reason) :
    ∃ fault, ofText text = .error ⟨text, fault⟩
      ∧ PatternError.reason ⟨text, fault⟩ = reason := by
  cases h with
  | threeDots h =>
      refine ⟨.threeDots, ?_, rfl⟩
      rw [ofText, spellingFault?, if_pos (occurs_three_dots_iff.mpr h)]
  | dotCapture hdots h =>
      refine ⟨.dotCapture, ?_, rfl⟩
      rw [ofText, spellingFault?, if_neg (occurs_three_dots_iff.not.mpr hdots),
        if_pos (occurs_dot_capture_iff.mpr h)]
  | @unsupported front back c hdots hcapture htext hfront hc =>
      have hfind : text.toList.find? (fun c => !isPatternChar c) = some c :=
        List.find?_eq_some_iff_append.mpr
          ⟨by simp [hc], front, back, htext, by simpa using hfront⟩
      refine ⟨.unsupported c, ?_, rfl⟩
      rw [ofText, spellingFault?, if_neg (occurs_three_dots_iff.not.mpr hdots),
        if_neg (occurs_dot_capture_iff.not.mpr hcapture), hfind, Option.map_some]
  | @unopened front back c h htext hc hfront hmark =>
      have hscan : PatternToken.scan text.toList
          = PatternToken.scan front ++ .close :: PatternToken.scan back :=
        htext ▸ PatternToken.scan_unopened hc hfront
      have hspelled : Spelled front :=
        h.toSpelled.of_infix (htext ▸ List.prefix_append front (c :: back)).isInfix
      have hdepth : depth? PatternToken.groupSign 0 (PatternToken.scan front) = some 0 :=
        PatternToken.depth?_scan.trans (GroupSign.balanced_iff.mp hfront)
      refine ⟨.groups (.unopened (PatternToken.scan front).length),
        ofText_of_ofTokens_error h ?_, groupReport_eq h.toSpelled hspelled hscan⟩
      rw [hscan]
      exact Shape.ofTokens_unopened hdepth rfl
  | @unclosed front back c h htext hc hfront hback hmark =>
      obtain ⟨token, htoken, hscan⟩ := PatternToken.scan_unclosed hc hback
      have hscan : PatternToken.scan text.toList
          = PatternToken.scan front ++ token :: PatternToken.scan back :=
        htext ▸ hscan front
      have hspelled : Spelled front :=
        h.toSpelled.of_infix (htext ▸ List.prefix_append front (c :: back)).isInfix
      obtain ⟨depth, hdepth⟩ := GroupSign.neverUnopened_iff.mp hfront
      have hback : depth? PatternToken.groupSign 0 (PatternToken.scan back) = some 0 :=
        PatternToken.depth?_scan.trans (GroupSign.balanced_iff.mp hback)
      refine ⟨.groups (.unclosed (PatternToken.scan front).length),
        ofText_of_ofTokens_error h ?_, groupReport_eq h.toSpelled hspelled hscan⟩
      rw [hscan]
      exact Shape.ofTokens_unclosed (PatternToken.depth?_scan.trans hdepth) htoken hback

theorem accepted_of_ofText {pattern : NamespacePattern} (h : ofText text = .ok pattern) :
    Accepted text.toList := by
  rcases accepted_or_refused text.toList with haccepted | ⟨reason, hrefused⟩
  · exact haccepted
  · obtain ⟨fault, hread, -⟩ := ofText_of_refused hrefused
    rw [h] at hread
    cases hread

end NamespacePattern

/-- A text is read as a pattern exactly if it is spelled as one and its groups are balanced. Else
reading fails with the text and the one reason that there is against it. -/
theorem ofText_exact (text : String) :
    match NamespacePattern.ofText text with
    | .ok pattern => pattern.text = text ∧ Accepted text.toList
    | .error e => e.pattern = text ∧ ¬Accepted text.toList
        ∧ ∀ reason, Refused text.toList reason ↔ reason = e.reason := by
  rcases accepted_or_refused text.toList with haccepted | ⟨reason, hrefused⟩
  · obtain ⟨pattern, hread, htext⟩ := NamespacePattern.ofText_of_accepted haccepted
    rw [hread]
    exact ⟨htext, haccepted⟩
  · obtain ⟨fault, hread, hreason⟩ := NamespacePattern.ofText_of_refused hrefused
    rw [hread]
    refine ⟨rfl, fun haccepted => ?_, fun reason' => ⟨fun hrefused' => ?_, ?_⟩⟩
    · obtain ⟨pattern, hread', -⟩ := NamespacePattern.ofText_of_accepted haccepted
      rw [hread] at hread'
      cases hread'
    · obtain ⟨fault', hread', rfl⟩ := NamespacePattern.ofText_of_refused hrefused'
      rw [hread] at hread'
      cases hread'
      rfl
    · rintro rfl
      exact hreason ▸ hrefused

end Archmap
