import BlockLang.Proofs.Token.Reasons
import BlockLang.Token.Reader

/-!
# Loops over characters

Layout and the parts of a token can be read by single characters. A loop looks at one or two
characters ahead, says whether it goes on, and reads the next character only then. Reading past the
end of the text would be an error of its own. Every loop looks before it reads, so that error never
comes up; what is read, and where a failed reading stands, is the same as when the text is cut as a
whole.
-/

namespace BlockLang

open BlockLang.Text

namespace Reader

variable {rd : Reader} {c : Char} {cs ds : List Char}

/-! ## Steps -/

section

variable {α β : Type} {x : ReadM α} {f : α → ReadM β} {rd' : Reader}

theorem bind_of_ok {a : α} (h : x rd = .ok a rd') : (x >>= f) rd = f a rd' := by
  simp only [bind, EStateM.bind, h]

theorem bind_of_error {e : SyntaxError} (h : x rd = .error e rd') :
    (x >>= f) rd = .error e rd' := by
  simp only [bind, EStateM.bind, h]

theorem get_eq (rd : Reader) : (get : ReadM Reader) rd = .ok rd rd := rfl

end

/-! ## Single characters -/

theorem peek_zero (rd : Reader) : rd.peek 0 = rd.rest.head? := by
  simp [peek, rest]

theorem peek_one (rd : Reader) : rd.peek 1 = rd.rest.tail.head? := by
  have hindex : ¬ ((rd.position : Int) + 1 < 0) := by omega
  have hnat : ((rd.position : Int) + 1).toNat = rd.position + 1 := by omega
  simp [peek, rest, hindex, hnat]

theorem past_nil (rd : Reader) : rd.past [] = rd := rfl

theorem past_append (rd : Reader) (cs ds : List Char) :
    rd.past (cs ++ ds) = (rd.past cs).past ds := by
  simp [past, Location.after_append, Nat.add_assoc]

theorem rest_past_cons (h : rd.rest = c :: cs) : (rd.past [c]).rest = cs :=
  rest_past (h : rd.rest = [c] ++ cs)

/-- The next character is read if there is one. -/
theorem next_of_rest (h : rd.rest = c :: cs) : next rd = .ok c (rd.past [c]) := by
  have hget : rd.text[rd.position]? = some c := by
    rw [← List.head?_drop]
    exact congrArg List.head? h
  simp only [next, get, getThe, MonadStateOf.get, EStateM.get, bind, EStateM.bind, hget]
  rfl

/-- A character that is read was there. -/
theorem rest_of_next {rd' : Reader} (h : next rd = .ok c rd') : rd.rest = c :: rd'.rest := by
  cases hrest : rd.rest with
  | nil =>
    have hget : rd.text[rd.position]? = none := by
      rw [← List.head?_drop]
      exact congrArg List.head? hrest
    simp only [next, get, getThe, MonadStateOf.get, EStateM.get, bind, EStateM.bind, hget] at h
    cases h
  | cons d ds =>
    rw [next_of_rest hrest] at h
    cases h
    rw [rest_past_cons hrest]

/-! ## Loops -/

/-- What a loop does in front of the next character. -/
inductive Turn (σ : Type) where
  | stop
  | fail (e : SyntaxError)
  /-- It reads the character and goes on as `s`. -/
  | go (s : σ)

/-- What a reading comes to that goes on behind the characters `cs`. -/
def behind (cs : List Char) : EStateM.Result SyntaxError Reader (List Char) →
    EStateM.Result SyntaxError Reader (List Char)
  | .error e rd => .error e rd
  | .ok ds rd => .ok (cs ++ ds) rd

theorem behind_nil (x : EStateM.Result SyntaxError Reader (List Char)) : behind [] x = x := by
  cases x <;> rfl

theorem behind_append (cs ds : List Char) (x : EStateM.Result SyntaxError Reader (List Char)) :
    behind (cs ++ ds) x = behind cs (behind ds x) := by
  cases x <;> simp [behind]

/-- **A loop**: looks at what is ahead, and reads one character after another until it stops. -/
def loop {σ : Type} (turn : σ → Reader → Turn σ) (s : σ) (rd : Reader) :
    EStateM.Result SyntaxError Reader (List Char) :=
  match turn s rd with
  | .stop => .ok [] rd
  | .fail e => .error e rd
  | .go s' =>
    match _read : next rd with
    | .error e rd' => .error e rd'
    | .ok c rd' => behind [c] (loop turn s' rd')
termination_by rd.rest.length
decreasing_by
  rw [rest_of_next _read]
  exact Nat.lt_succ_self _

section

variable {σ : Type} {turn : σ → Reader → Turn σ} {s s' : σ}

theorem loop_stop (h : turn s rd = .stop) : loop turn s rd = .ok [] rd := by
  rw [loop, h]

theorem loop_fail {e : SyntaxError} (h : turn s rd = .fail e) : loop turn s rd = .error e rd := by
  rw [loop, h]

theorem loop_go (h : turn s rd = .go s') (hrest : rd.rest = c :: cs) :
    loop turn s rd = behind [c] (loop turn s' (rd.past [c])) := by
  rw [loop, h]
  dsimp only
  split
  · next heq =>
    rw [next_of_rest hrest] at heq
    cases heq
  · next heq =>
    rw [next_of_rest hrest] at heq
    cases heq
    rfl

/-- A loop that goes on in the same way over some characters reads them and starts again. -/
theorem loop_append (hrest : rd.rest = cs ++ ds)
    (hgo : ∀ c ∈ cs, ∀ rd' : Reader, rd'.rest.head? = some c → turn s rd' = .go s) :
    loop turn s rd = behind cs (loop turn s (rd.past cs)) := by
  induction cs generalizing rd with
  | nil => rw [past_nil, behind_nil]
  | cons c cs ih =>
    rw [List.forall_mem_cons] at hgo
    have hturn : turn s rd = .go s := hgo.1 rd (by rw [hrest]; rfl)
    rw [loop_go hturn hrest, ih (rest_past_cons hrest) hgo.2, ← behind_append, ← past_append]
    rfl

end

/-! ## The loops -/

/-- Layout, `inComment` saying whether the loop is inside a comment. -/
def layoutTurn (inComment : Bool) (rd : Reader) : Turn Bool :=
  match rd.peek 0 with
  | none => .stop
  | some c =>
    if inComment then .go (c != '\n')
    else if isLayoutBlank c then .go false
    else if c == '#' then .go true
    else .stop

/-- A comment, up to its line feed. -/
def commentTurn (_ : Unit) (rd : Reader) : Turn Unit :=
  if (rd.peek 0).any (· != '\n') then .go () else .stop

/-- A word. -/
def wordTurn (_ : Unit) (rd : Reader) : Turn Unit :=
  if (rd.peek 0).any isWordPart then .go () else .stop

/-- A number that starts at `l`, `hasPoint` saying whether there was a point in it. -/
def numberTurn (l : Location) (hasPoint : Bool) (rd : Reader) : Turn Bool :=
  if (rd.peek 0).any isDigit then .go hasPoint
  else if rd.peek 0 == some '.' && (rd.peek 1).any isDigit then
    if hasPoint then .fail (Fault.malformedNumber.error l) else .go true
  else .stop

/-- A text in the quotes `q`, `hidden` saying whether a backslash hides the next character. -/
def quoteTurn (q : Char) (hidden : Bool) (rd : Reader) : Turn Bool :=
  match rd.peek 0 with
  | none => .stop
  | some c =>
    if hidden then .go false
    else if c == q then .stop
    else .go (c == '\\')

/-- Reads a text in the quotes `q`, with both of them. -/
def readQuoted (q : Char) : ReadM (List Char) := do
  let start ← get
  let opening ← next
  let body ← loop (quoteTurn q) false
  if (← get).peek 0 == some q then
    let closing ← next
    return opening :: (body ++ [closing])
  else throw (Fault.unterminatedText.error start.location)

/-! ## What the loops read -/

/-- What reading comes to that was to read what `cut` cuts off, for a fault at `l`. -/
def cutResult (l : Location) (cut : Cut) (rd : Reader) :
    EStateM.Result SyntaxError Reader (List Char) :=
  match cut.verdict with
  | .ok _ => .ok cut.text (rd.past cut.text)
  | .error f => .error (f.error l) (rd.past cut.text)

/-- The loop over layout reads all of it. -/
theorem loop_layoutTurn (inComment : Bool) (hrest : rd.rest = cs) :
    loop layoutTurn inComment rd = .ok (cs.take (layoutLength inComment cs))
      (rd.past (cs.take (layoutLength inComment cs))) := by
  induction cs generalizing rd inComment with
  | nil => exact loop_stop (by rw [layoutTurn, peek_zero, hrest]; rfl)
  | cons c cs ih =>
    have hpeek : rd.peek 0 = some c := by rw [peek_zero, hrest, List.head?_cons]
    have hgo : ∀ s', layoutTurn inComment rd = .go s' →
        layoutLength inComment (c :: cs) = layoutLength s' cs + 1 →
        loop layoutTurn inComment rd =
          .ok ((c :: cs).take (layoutLength inComment (c :: cs)))
            (rd.past ((c :: cs).take (layoutLength inComment (c :: cs)))) := by
      intro s' hturn hlength
      rw [loop_go hturn hrest, ih s' (rest_past_cons hrest), hlength, List.take_succ_cons,
        ← past_append]
      rfl
    cases inComment with
    | true => exact hgo (c != '\n') (by simp [layoutTurn, hpeek]) (by simp [layoutLength])
    | false =>
      by_cases hb : isLayoutBlank c = true
      · exact hgo false (by simp [layoutTurn, hpeek, hb]) (by simp [layoutLength, hb])
      · by_cases hc : (c == '#') = true
        · exact hgo true (by simp [layoutTurn, hpeek, hb, hc]) (by simp [layoutLength, hb, hc])
        · rw [loop_stop (by simp [layoutTurn, hpeek, hb, hc])]
          simp [layoutLength, hb, hc, past_nil]

/-- A loop over characters of a class reads those that are in front. -/
theorem loop_class {p : Char → Bool} {turn : Unit → Reader → Turn Unit}
    (hturn : ∀ rd, turn () rd = if (rd.peek 0).any p then .go () else .stop) (rd : Reader) :
    loop turn () rd = .ok (rd.rest.takeWhile p) (rd.past (rd.rest.takeWhile p)) := by
  have hrest : rd.rest = rd.rest.takeWhile p ++ rd.rest.dropWhile p :=
    List.takeWhile_append_dropWhile.symm
  have hgo : ∀ c ∈ rd.rest.takeWhile p, ∀ rd' : Reader, rd'.rest.head? = some c →
      turn () rd' = .go () := by
    intro c hc rd' hhead
    rw [hturn, peek_zero, hhead, Option.any_some, if_pos (List.mem_takeWhile_imp hc)]
  have hstop : turn () (rd.past (rd.rest.takeWhile p)) = .stop := by
    rw [hturn, peek_zero, rest_past hrest, if_neg]
    have hhead := stop_of_dropWhile (p := p) rd.rest
    cases hd : (rd.rest.dropWhile p).head? with
    | none => exact nofun
    | some d => simp [hhead d hd]
  rw [loop_append hrest hgo, loop_stop hstop, behind, List.append_nil]

/-- The loop over a comment reads all of it. -/
theorem loop_commentTurn (rd : Reader) :
    loop commentTurn () rd = .ok (splitComment rd.rest).1 (rd.past (splitComment rd.rest).1) :=
  loop_class (fun _ => rfl) rd

/-- The loop over a word reads all of it. -/
theorem loop_wordTurn (rd : Reader) :
    loop wordTurn () rd =
      .ok (rd.rest.takeWhile isWordPart) (rd.past (rd.rest.takeWhile isWordPart)) :=
  loop_class (fun _ => rfl) rd

section

variable {l : Location} {hasPoint : Bool}

/-- A number reads its digits. -/
theorem loop_numberTurn_digits (rd : Reader) :
    loop (numberTurn l) hasPoint rd = behind (rd.rest.takeWhile isDigit)
      (loop (numberTurn l) hasPoint (rd.past (rd.rest.takeWhile isDigit))) := by
  refine loop_append List.takeWhile_append_dropWhile.symm fun c hc rd' hhead => ?_
  rw [numberTurn, peek_zero, hhead, Option.any_some, if_pos (List.mem_takeWhile_imp hc)]

/-- Behind its digits a number goes on with a fraction or stops. -/
theorem numberTurn_of_digits (l : Location) (hasPoint : Bool) (rd : Reader) :
    numberTurn l hasPoint (rd.past (rd.rest.takeWhile isDigit)) =
      if startsFraction (rd.rest.dropWhile isDigit) then
        if hasPoint then .fail (Fault.malformedNumber.error l) else .go true
      else .stop := by
  have hrest : (rd.past (rd.rest.takeWhile isDigit)).rest = rd.rest.dropWhile isDigit :=
    rest_past List.takeWhile_append_dropWhile.symm
  have hstop := stop_of_dropWhile (p := isDigit) rd.rest
  rw [numberTurn, peek_zero, peek_one, hrest]
  cases hdrop : rd.rest.dropWhile isDigit with
  | nil => simp [startsFraction]
  | cons c cs =>
    have hc : isDigit c = false := hstop c (by rw [hdrop]; rfl)
    by_cases hpoint : c = '.'
    · subst hpoint
      cases cs <;> simp [startsFraction, hc]
    · simp [startsFraction, hc, hpoint]

/-- Behind the point of a number its loop reads digits, and fails in front of a second point. -/
theorem loop_numberTurn_fraction (rd : Reader) :
    loop (numberTurn l) true rd =
      if startsFraction (rd.rest.dropWhile isDigit) then
        .error (Fault.malformedNumber.error l) (rd.past (rd.rest.takeWhile isDigit))
      else .ok (rd.rest.takeWhile isDigit) (rd.past (rd.rest.takeWhile isDigit)) := by
  have hturn := numberTurn_of_digits l true rd
  rw [loop_numberTurn_digits]
  split
  · next hf =>
    rw [if_pos hf, if_pos rfl] at hturn
    rw [loop_fail hturn, behind]
  · next hf =>
    rw [if_neg hf] at hturn
    rw [loop_stop hturn, behind, List.append_nil]

/-- The loop over a number reads all of it, or fails in front of its second point. -/
theorem loop_numberTurn (rd : Reader) :
    loop (numberTurn l) false rd = cutResult l (cutNumber rd.rest) rd := by
  have hturn := numberTurn_of_digits l false rd
  rw [loop_numberTurn_digits]
  by_cases hf : startsFraction (rd.rest.dropWhile isDigit) = true
  · obtain ⟨d, more, heq, hd⟩ := startsFraction_iff.mp hf
    have hrest : (rd.past (rd.rest.takeWhile isDigit)).rest = '.' :: d :: more := by
      rw [← heq]
      exact rest_past List.takeWhile_append_dropWhile.symm
    rw [if_pos hf, if_neg Bool.false_ne_true] at hturn
    -- the point belongs to neither run of digits
    rw [loop_go hturn hrest, loop_numberTurn_fraction, rest_past_cons hrest, ← past_append,
      ← past_append, cutNumber_of_fraction heq hd, cutResult]
    split <;> simp [behind]
  · rw [if_neg hf] at hturn
    rw [cutNumber_of_not_fraction (by simpa using hf), loop_stop hturn, behind, List.append_nil]
    rfl

end

section

variable {q : Char} {body more : List Char}

theorem loop_quoteTurn_backslash (hq : q ≠ '\\') (hrest : rd.rest = '\\' :: cs) :
    loop (quoteTurn q) false rd = behind ['\\'] (loop (quoteTurn q) true (rd.past ['\\'])) := by
  refine loop_go ?_ hrest
  simp [quoteTurn, peek_zero, hrest, hq.symm]

/-- The loop over a quoted text reads what is inside the quotes. -/
theorem loop_quoteTurn_inside (hq : q ≠ '\\') (hbody : Inside q body)
    (hrest : rd.rest = body ++ more) :
    loop (quoteTurn q) false rd = behind body (loop (quoteTurn q) false (rd.past body)) := by
  induction hbody generalizing rd with
  | nil => rw [past_nil, behind_nil]
  | @plain c body hc hcq _ ih =>
    have hturn : quoteTurn q false rd = .go false := by
      simp [quoteTurn, peek_zero, hrest, hc, hcq]
    rw [loop_go hturn hrest, ih (rest_past_cons hrest), ← behind_append, ← past_append]
    rfl
  | @hidden c body _ ih =>
    have hbehind := rest_past_cons hrest
    have hturn : quoteTurn q true (rd.past ['\\']) = .go false := by
      simp [quoteTurn, peek_zero, hbehind]
    rw [loop_quoteTurn_backslash hq hrest, loop_go hturn hbehind, ih (rest_past_cons hbehind)]
    simp only [← behind_append, ← past_append]
    rfl

/-- **The loop over a quoted text** reads it up to its closing quote, and all of the text if that
never comes. -/
theorem loop_quoteTurn (hq : q ≠ '\\') (rd : Reader) :
    ∃ body, loop (quoteTurn q) false rd = .ok body (rd.past body) ∧
      ((∃ more, rd.rest = body ++ q :: more ∧ splitQuote q rd.rest = (true, body ++ [q], more)) ∨
        rd.rest = body ∧ splitQuote q rd.rest = (false, body, [])) := by
  obtain ⟨body, more, hrest, hbody, hmore⟩ := exists_inside q rd.rest
  have hleft : (rd.past body).rest = more := rest_past hrest
  have hloop := loop_quoteTurn_inside hq hbody hrest
  cases hmore with
  | nil =>
    have hturn : quoteTurn q false (rd.past body) = .stop := by simp [quoteTurn, peek_zero, hleft]
    rw [loop_stop hturn, behind, List.append_nil] at hloop
    refine ⟨body, hloop, .inr ⟨by simpa using hrest, ?_⟩⟩
    rw [hrest, hbody.splitQuote_append]
    simp [splitQuote]
  | backslash =>
    -- the loop reads a backslash also if there is nothing behind it to hide
    have hend : ((rd.past body).past ['\\']).rest = [] := rest_past_cons hleft
    have hturn : quoteTurn q true ((rd.past body).past ['\\']) = .stop := by
      simp [quoteTurn, peek_zero, hend]
    rw [loop_quoteTurn_backslash hq hleft, loop_stop hturn] at hloop
    refine ⟨body ++ ['\\'], ?_, .inr ⟨hrest, ?_⟩⟩
    · rw [hloop, past_append]
      rfl
    · rw [hrest, hbody.splitQuote_append]
      simp [splitQuote]
  | @quote more =>
    have hturn : quoteTurn q false (rd.past body) = .stop := by simp [quoteTurn, peek_zero, hleft]
    rw [loop_stop hturn, behind, List.append_nil] at hloop
    refine ⟨body, hloop, .inl ⟨more, hrest, ?_⟩⟩
    rw [hrest, hbody.splitQuote_append, splitQuote_quote hq]

/-- A quoted text is read as a whole. -/
theorem readQuoted_eq (hq : q ≠ '\\') (hrest : rd.rest = q :: cs) :
    readQuoted q rd = cutResult rd.location (cutQuoted q cs) rd := by
  obtain ⟨body, hloop, hread⟩ := loop_quoteTurn hq (rd.past [q])
  rw [rest_past_cons hrest] at hread
  rw [readQuoted, bind_of_ok (get_eq rd), bind_of_ok (next_of_rest hrest), bind_of_ok hloop,
    bind_of_ok (get_eq _), peek_zero]
  rcases hread with ⟨more, hcs, hsplit⟩ | ⟨hcs, hsplit⟩
  · have hleft : ((rd.past [q]).past body).rest = q :: more :=
      rest_past (by rw [rest_past_cons hrest, hcs])
    rw [hleft, List.head?_cons, if_pos (beq_self_eq_true _), bind_of_ok (next_of_rest hleft)]
    simp only [cutResult, cutQuoted, hsplit, if_true, ← past_append]
    rfl
  · have hleft : ((rd.past [q]).past body).rest = [] :=
      rest_past (by rw [rest_past_cons hrest, hcs, List.append_nil])
    rw [hleft, if_neg (by simp)]
    simp only [cutResult, cutQuoted, hsplit, ← past_append]
    rfl

end

end Reader

end BlockLang
