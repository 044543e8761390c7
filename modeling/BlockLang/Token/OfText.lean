import BlockLang.Diagnostic.SyntaxError
import BlockLang.Token.Lexeme

/-!
# From text to tokens

`tokenize` cuts a whole text into layout and lexemes and keeps the lexemes as located tokens. It
stops at the first fault, or at a word that the vocabulary reads as the end of the input. Every
lexeme uses up at least one character, so the cutting ends.
-/

namespace BlockLang

/-! ## A cut loses nothing -/

theorem splitLayout_append (cs : List Char) : (splitLayout cs).1 ++ (splitLayout cs).2 = cs :=
  List.take_append_drop ..

theorem splitQuote_append (q : Char) (cs : List Char) :
    (splitQuote q cs).2.1 ++ (splitQuote q cs).2.2 = cs := by
  fun_induction splitQuote q cs <;> simp_all

theorem cutNumber_append (cs : List Char) : (cutNumber cs).text ++ (cutNumber cs).rest = cs := by
  have whole : cs.takeWhile Text.isDigit ++ cs.dropWhile Text.isDigit = cs :=
    List.takeWhile_append_dropWhile
  fun_cases cutNumber cs with
  | case1 d more h _ rest =>
    have later : (d :: more).takeWhile Text.isDigit ++ rest = d :: more :=
      List.takeWhile_append_dropWhile
    rw [List.append_assoc, List.cons_append, later, ← h, whole]
  | case2 d more h => rw [← h, whole]
  | case3 => exact whole

/-- The part cut off and the rest make up the text. -/
theorem cutLexeme_append (v : Vocabulary) (c : Char) (cs : List Char) :
    (cutLexeme v c cs).text ++ (cutLexeme v c cs).rest = c :: cs := by
  fun_cases cutLexeme v c cs with
  | case1 => exact List.takeWhile_append_dropWhile
  | case2 => exact cutNumber_append _
  | case3 => simpa [cutQuoted] using splitQuote_append c cs
  | case4 => rfl
  | case5 => rfl

theorem cutNumber_text_ne_nil {c : Char} (h : Text.isDigit c = true) (cs : List Char) :
    (cutNumber (c :: cs)).text ≠ [] := by
  fun_cases cutNumber (c :: cs) <;> simp [h]

/-- A lexeme has at least one character. -/
theorem cutLexeme_text_ne_nil {v : Vocabulary} {c : Char} {cs : List Char} {kind : Kind}
    (h : (cutLexeme v c cs).verdict = .ok kind) : (cutLexeme v c cs).text ≠ [] := by
  revert h
  fun_cases cutLexeme v c cs with
  | case1 hw =>
    have hp : isWordPart c = true := by
      simp only [isWordStart, Bool.or_eq_true] at hw
      rcases hw with hw | hw <;> simp [isWordPart, hw]
    simp [cutWord, hp]
  | case2 _ hd => exact fun _ => cutNumber_text_ne_nil hd cs
  | case3 => simp [cutQuoted]
  | case4 => simp
  | case5 => simp

/-- What a lexeme leaves is shorter than what it was cut from. -/
theorem length_cutLexeme_rest_lt {v : Vocabulary} {c : Char} {cs : List Char} {kind : Kind}
    (h : (cutLexeme v c cs).verdict = .ok kind) :
    (cutLexeme v c cs).rest.length < (c :: cs).length := by
  have whole := congrArg List.length (cutLexeme_append v c cs)
  have some := List.length_pos_iff.mpr (cutLexeme_text_ne_nil h)
  rw [List.length_append] at whole
  omega

/-- What layout leaves is no longer than the text. -/
theorem length_splitLayout_le (cs : List Char) : (splitLayout cs).2.length ≤ cs.length := by
  simp [splitLayout]

/-! ## Cutting a whole text -/

/-- The error for a fault at a location. -/
def Fault.error (f : Fault) (l : Location) : SyntaxError :=
  .located .lexical (f.message l) l

/-- The tokens of the text `cs`, whose first character is at the location `l`. -/
def tokensFrom (v : Vocabulary) (l : Location) (cs : List Char) :
    Except SyntaxError (List Token) :=
  match _body : (splitLayout cs).2 with
  | [] => .ok []
  | c :: r =>
    let start := l.after (splitLayout cs).1
    match _ok : (cutLexeme v c r).verdict with
    | .error f => .error (f.error start)
    | .ok kind =>
      if kind = .endOfInput then .ok []
      else
        let cut := cutLexeme v c r
        match tokensFrom v (start.after cut.text) cut.rest with
        | .error e => .error e
        | .ok tokens => .ok (.located kind (String.ofList cut.text) start :: tokens)
termination_by cs.length
decreasing_by
  have shorter := length_cutLexeme_rest_lt _ok
  have layout := length_splitLayout_le cs
  rw [_body] at layout
  omega

/-- The tokens of a source text, without an end mark. -/
def tokenize (v : Vocabulary) (source : String) : Except SyntaxError (List Token) :=
  tokensFrom v .start source.toList

end BlockLang
