import ValueChannels.Proofs.Expr.Recognition

/-!
Where parse errors point. An error that carries a place carries the byte offset of a character that
is at fault: an opening parenthesis without a match, a quote that nothing closes, a token that cannot
stand where it is, or the first token behind a complete expression. Main statement: `blames`.
-/

namespace ValueChannels

/-! ### Matching parentheses -/

namespace Token

/-- Whether the tokens close as many parentheses as are open and one more. -/
def closes : Nat → List Token → Bool
  | _, [] => false
  | 0, .closeParen :: _ => true
  | depth + 1, .closeParen :: rest => closes depth rest
  | depth, .openParen :: rest => closes (depth + 1) rest
  | depth, _ :: rest => closes depth rest

/-- Tokens in which every parenthesis has its match. -/
structure Matched (tokens : List Token) : Prop where
  level : ∀ depth rest, closes depth (tokens ++ rest) = closes depth rest
  inner : ∀ front behind, tokens = front ++ .openParen :: behind → closes 0 behind = true

theorem closes_append {depth : Nat} {tokens : List Token} (closed : closes depth tokens = true)
    (more : List Token) : closes depth (tokens ++ more) = true := by
  fun_induction closes depth tokens with
  | case1 => cases closed
  | case2 => rfl
  | case3 depth rest ih => exact ih closed
  | case4 depth rest ih => exact ih closed
  | case5 depth token rest noClose noClose' noOpen ih =>
      rw [List.cons_append, closes]
      · exact ih closed
      · exact noOpen
      · exact noClose
      · exact noClose'

theorem Matched.nil : Matched [] where
  level _ _ := rfl
  inner front _ whole := absurd whole.symm (List.append_ne_nil_of_right_ne_nil front (List.cons_ne_nil _ _))

theorem Matched.single {token : Token} (noOpen : token ≠ .openParen)
    (noClose : token ≠ .closeParen) : Matched [token] where
  level depth rest := by
    rw [List.singleton_append]
    cases token with
    | openParen => exact absurd rfl noOpen
    | closeParen => exact absurd rfl noClose
    | text content => cases depth <;> rfl
    | quotedSymbol name => cases depth <;> rfl
    | argumentName name => cases depth <;> rfl
    | atom spelling => cases depth <;> rfl
  inner front behind whole := by
    have member : Token.openParen ∈ [token] := by
      rw [whole]
      exact List.mem_append_right _ List.mem_cons_self
    exact absurd (List.mem_singleton.mp member).symm noOpen

theorem Matched.append {first second : List Token} (matched : Matched first)
    (matched' : Matched second) : Matched (first ++ second) where
  level depth rest := by rw [List.append_assoc, matched.level, matched'.level]
  inner front behind whole := by
    rcases List.append_eq_append_iff.mp whole with ⟨later, _, within⟩ | ⟨later, within, start⟩
    · exact matched'.inner _ _ within
    · cases later with
      | nil => exact matched'.inner [] behind start.symm
      | cons token later =>
          obtain ⟨rfl, rest⟩ := List.cons.inj start
          rw [rest]
          exact closes_append (matched.inner _ _ within) second

theorem Matched.enclosed {tokens : List Token} (matched : Matched tokens) :
    Matched (.openParen :: (tokens ++ [.closeParen])) where
  level depth rest := by
    rw [List.cons_append, closes, List.append_assoc, matched.level]
    rfl
  inner front behind whole := by
    cases front with
    | nil =>
        rw [← (List.cons.inj whole).2, matched.level]
        rfl
    | cons head front =>
        have within := (List.cons.inj whole).2
        rcases List.append_eq_append_iff.mp within with ⟨later, _, last⟩ | ⟨later, inside, start⟩
        · cases later with
          | nil => cases last
          | cons token later =>
              have absent := (List.cons.inj last).2
              cases List.append_ne_nil_of_right_ne_nil later (List.cons_ne_nil _ _) absent.symm
        · cases later with
          | nil => cases start
          | cons token later =>
              obtain ⟨rfl, rest⟩ := List.cons.inj start
              rw [rest]
              exact closes_append (matched.inner _ _ inside) _

end Token

namespace Expr

open Token (Matched Splits closes)

theorem matched_nameTokens (name : Option String) : Matched (nameTokens name) := by
  cases name with
  | none => exact .nil
  | some name => exact .single nofun nofun

mutual

theorem Derives.matched {expr : Expr} {tokens : List Token} (derived : Derives expr tokens) :
    Matched tokens := by
  cases derived with
  | atom spelling => exact .single nofun nofun
  | text content => exact .single nofun nofun
  | quotedSymbol name => exact .single nofun nofun
  | call head rest =>
      rw [← List.append_assoc]
      exact (head.matched.append rest.matched).enclosed

theorem DerivesArguments.matched {arguments : List (Argument Expr)} {tokens : List Token}
    (derived : DerivesArguments arguments tokens) : Matched tokens := by
  cases derived with
  | nil => exact .nil
  | cons name head rest =>
      exact (matched_nameTokens name).append (head.matched.append rest.matched)

end

theorem OpenCall.Holds.matched {current : OpenCall} {tokens : List Token}
    (holds : current.Holds tokens) : Matched tokens := by
  cases holds with
  | headless offset => exact .nil
  | begun offset name head rest =>
      exact head.matched.append (rest.matched.append (matched_nameTokens name))

/-! ### The tokens at fault -/

/-- What is wrong with the tokens when they are read to this error. -/
inductive Faulty : List PlacedToken → ParseError → Prop where
  | nothing : Faulty [] .endOfInput
  | closing (front behind : List PlacedToken) {spelling : String} (offset : Nat)
      (spells : spelling = ")" ∨ spelling = "()") :
      Faulty (front ++ { token := .closeParen, offset } :: behind)
        (.unexpectedToken spelling offset)
  | naming (front behind : List PlacedToken) (name : String) (offset : Nat) :
      Faulty (front ++ { token := .argumentName name, offset } :: behind)
        (.unexpectedToken (":" ++ name) offset)
  | unclosed (front : List PlacedToken) {inner : List PlacedToken} (offset : Nat)
      (matched : Matched (inner.map PlacedToken.token)) :
      Faulty (front ++ { token := .openParen, offset } :: inner) (.unclosedParen offset)
  | dangling (front behind : List PlacedToken) (name : String) (offset : Nat)
      (last : ∀ next ∈ behind.head?, next.token = .closeParen) :
      Faulty (front ++ { token := .argumentName name, offset } :: behind) (.danglingName name)
  | trailing {expr : Expr} {front : List PlacedToken} (next : PlacedToken)
      (behind : List PlacedToken) (derived : Derives expr (front.map PlacedToken.token)) :
      Faulty (front ++ next :: behind) (.trailingInput next.offset)

variable {calls : List OpenCall} {before rest : List PlacedToken} {next : PlacedToken}
  {err : ParseError} {placed : List PlacedToken}

theorem Pending.waiting {current : OpenCall} {outer : List OpenCall} {name : String}
    (pending : Pending (current :: outer) before) (waits : current.name = some name)
    (last : ∀ next ∈ rest.head?, next.token = .closeParen) :
    Faulty (before ++ rest) (.danglingName name) := by
  cases pending with
  | @cons _ _ before inner around holds =>
      have ends : ∃ front place, inner = front ++ [{ token := .argumentName name, offset := place }] := by
        generalize same : inner.map PlacedToken.token = tokens at holds
        cases holds with
        | headless offset => cases waits
        | begun offset held head arguments =>
            cases waits
            rw [← List.append_assoc] at same
            obtain ⟨front, back, whole, _, name⟩ := List.map_eq_append_iff.mp same
            obtain ⟨final, none, only, token, absent⟩ := List.map_eq_cons_iff.mp name
            rw [List.map_eq_nil_iff.mp absent] at only
            obtain ⟨token', place⟩ := final
            cases token
            exact ⟨front, place, by rw [whole, only]⟩
      obtain ⟨front, place, same⟩ := ends
      have fault := Faulty.dangling
        (before ++ { token := .openParen, offset := current.offset } :: front) rest name place last
      rw [same]
      simpa using fault

/-- A token that cannot be taken into account is at fault, or the name in front of it is. -/
theorem Pending.refused (pending : Pending calls before)
    (taken : Progress.step calls next = .error err) : Faulty (before ++ next :: rest) err := by
  obtain ⟨token, offset⟩ := next
  cases token with
  | openParen => cases taken
  | text content => cases taken
  | quotedSymbol name => cases taken
  | atom spelling => cases taken
  | argumentName name =>
      cases calls with
      | nil =>
          cases taken
          exact .naming before rest name offset
      | cons innermost outer =>
          simp only [Progress.step, OpenCall.named] at taken
          split at taken
          · cases taken
            exact .naming before rest name offset
          · cases taken
  | closeParen =>
      cases calls with
      | nil =>
          cases taken
          exact .closing before rest offset (.inl rfl)
      | cons innermost outer =>
          simp only [Progress.step, OpenCall.close] at taken
          split at taken
          · cases taken
            exact .closing before rest offset (.inr rfl)
          · rename_i waits
            cases taken
            apply pending.waiting waits
            intro next first
            cases first
            rfl
          · cases taken

theorem Pending.faulty (pending : Pending calls before)
    (read : readTokens calls rest = .error err) : Faulty (before ++ rest) err := by
  induction rest generalizing calls before with
  | nil =>
      rw [readTokens.eq_def] at read
      cases pending with
      | nil =>
          cases read
          exact .nothing
      | @cons current outer before inner around holds =>
          dsimp only at read
          split at read
          · rename_i waits
            cases read
            exact (Pending.cons around holds).waiting waits nofun
          · cases read
            rw [List.append_nil]
            exact .unclosed before current.offset holds.matched
  | cons next rest ih =>
      rw [readTokens_cons] at read
      cases taken : Progress.step calls next with
      | error reason =>
          rw [taken] at read
          cases read
          exact pending.refused taken
      | ok progress =>
          have reached := pending.step taken
          rw [taken] at read
          rw [List.append_cons]
          cases progress with
          | inside deeper => exact ih reached.2 read
          | complete found =>
              cases rest with
              | nil => cases read
              | cons trailing others =>
                  cases read
                  exact .trailing trailing others reached

/-! ### Quotes without an end -/

/-- The number of backslashes at the end of a text. -/
def slashes (before : List Char) : Nat :=
  (before.reverse.takeWhile (· == '\\')).length

/-- A quote in a text that is not escaped: the backslashes in front of it escape each other. -/
def Unescaped (quote : Char) (behind : List Char) : Prop :=
  ∃ before after, behind = before ++ quote :: after ∧ slashes before % 2 = 0

theorem slashes_le (before : List Char) : slashes before ≤ before.length := by
  have bound := (List.takeWhile_prefix (· == '\\') (l := before.reverse)).length_le
  rw [List.length_reverse] at bound
  exact bound

theorem slashes_cons (c : Char) (before : List Char) : slashes (c :: before) =
    if slashes before = before.length ∧ c = '\\' then slashes before + 1 else slashes before := by
  rw [slashes, List.reverse_cons, List.takeWhile_append, List.length_reverse]
  change (if slashes before = before.length then _ else _ : List Char).length = _
  by_cases full : slashes before = before.length
  · rw [if_pos full, List.length_append, List.length_reverse, full]
    by_cases slash : c = '\\'
    · rw [if_pos ⟨rfl, slash⟩, slash]
      rfl
    · rw [if_neg fun both => slash both.2, List.takeWhile_cons_of_neg (by simpa using slash)]
      rfl
  · rw [if_neg full, if_neg fun both => full both.1, slashes]

theorem slashes_escape (c : Char) (before : List Char) :
    slashes ('\\' :: c :: before) % 2 = slashes before % 2 := by
  have bound := slashes_le before
  rw [slashes_cons, slashes_cons, List.length_cons]
  simp only [and_true]
  split <;> split <;> omega

theorem slashes_plain {c : Char} (unescaped : c ≠ '\\') (before : List Char) :
    slashes (c :: before) = slashes before := by
  rw [slashes_cons, if_neg fun both => unescaped both.2]

/-- Behind a quote that nothing closes no unescaped quote follows. -/
theorem not_unescaped_of_takeQuoted {quote : Char} (isQuote : quote ≠ '\\') {behind : List Char}
    (absent : Token.takeQuoted quote behind = none) : ¬Unescaped quote behind := by
  rintro ⟨before, after, whole, even⟩
  fun_induction Token.takeQuoted quote behind generalizing before with
  | case1 => cases List.append_ne_nil_of_right_ne_nil before (List.cons_ne_nil _ _) whole.symm
  | case2 =>
      cases before with
      | nil => exact isQuote (List.cons.inj whole).1.symm
      | cons c before =>
          have nothing := (List.cons.inj whole).2
          cases List.append_ne_nil_of_right_ne_nil before (List.cons_ne_nil _ _) nothing.symm
  | case3 c rest ih =>
      cases before with
      | nil => exact isQuote (List.cons.inj whole).1.symm
      | cons slash before =>
          obtain ⟨rfl, later⟩ := List.cons.inj whole
          cases before with
          | nil => exact absurd even (by decide)
          | cons c' before =>
              obtain ⟨rfl, within⟩ := List.cons.inj later
              rw [slashes_escape] at even
              exact ih (Option.map_eq_none_iff.mp absent) before within even
  | case4 => cases absent
  | case5 c rest bare more inside ih =>
      have unescaped : c ≠ '\\' := by
        intro slash
        cases rest with
        | nil => exact bare slash rfl
        | cons next rest => exact more next rest slash rfl
      cases before with
      | nil => exact inside (List.cons.inj whole).1
      | cons c' before =>
          obtain ⟨rfl, within⟩ := List.cons.inj whole
          rw [slashes_plain unescaped] at even
          exact ih (Option.map_eq_none_iff.mp absent) before within even

/-! ### Places in the text -/

/-- The character that stands at a byte offset of a text. -/
def At (text : String) (offset : Nat) (c : Char) : Prop :=
  ∃ front behind, text.toList = front ++ c :: behind ∧ Text.byteLength front = offset

/-- The byte offset that an error carries. -/
def place? : ParseError → Option Nat
  | .unexpectedToken _ offset => some offset
  | .unclosedParen offset => some offset
  | .unterminated _ offset => some offset
  | .trailingInput offset => some offset
  | .endOfInput => none
  | .danglingName _ => none

/-- What an error says about the text that does not parse. -/
def Blames (text : String) : ParseError → Prop
  | .trailingInput offset =>
      ∃ front behind, text.toList = front ++ behind ∧ Text.byteLength front = offset ∧
        (∃ expr, parse (String.ofList front) = .ok expr) ∧
          ∃ earlier token later, Splits 0 text.toList (earlier ++ { token, offset } :: later)
  | .unclosedParen offset =>
      At text offset '(' ∧ ∃ front inner,
        Splits 0 text.toList (front ++ { token := .openParen, offset } :: inner) ∧
          closes 0 (inner.map PlacedToken.token) = false ∧
            ∀ earlier later, inner.map PlacedToken.token = earlier ++ .openParen :: later →
              closes 0 later = true
  | .unterminated form offset =>
      ∃ front behind, text.toList = front ++ form.quote :: behind ∧
        Text.byteLength front = offset ∧ ¬Unescaped form.quote behind
  | .unexpectedToken spelling offset =>
      ∃ front token behind, Splits 0 text.toList (front ++ { token, offset } :: behind) ∧
        ((token = .closeParen ∧ (spelling = ")" ∨ spelling = "()") ∧ At text offset ')') ∨
          ∃ name, token = .argumentName name ∧ spelling = ":" ++ name ∧ At text offset ':')
  | .endOfInput => ∀ c ∈ text.toList, Text.isWhiteSpace c = true
  | .danglingName name =>
      ∃ front offset behind,
        Splits 0 text.toList (front ++ { token := .argumentName name, offset } :: behind) ∧
          ∀ next ∈ behind.head?, next.token = .closeParen

variable {text : String}

theorem starts_at {front behind : List PlacedToken} {token : Token} {offset : Nat}
    (splits : Splits 0 text.toList (front ++ { token, offset } :: behind)) :
    ∃ c, At text offset c ∧ (token = .openParen → c = '(') ∧ (token = .closeParen → c = ')') ∧
      ∀ name, token = .argumentName name → c = ':' := by
  obtain ⟨before, source, after, whole, place, _, spells⟩ := splits.before
  obtain ⟨c, rest, same, _, kinds⟩ := spells.starts
  refine ⟨c, ⟨before, rest ++ after, ?_, ?_⟩, kinds⟩
  · rw [whole, same, List.cons_append]
  · rw [← Nat.zero_add (Text.byteLength before)]
    exact place.symm

/-- A fault of the tokens is a fault of the text that splits into them. -/
theorem Faulty.blamed (faulty : Faulty placed err) (splits : Splits 0 text.toList placed) :
    (∀ offset ∈ place? err, ∃ c, At text offset c) ∧ Blames text err := by
  cases faulty with
  | nothing => exact ⟨nofun, Token.splits_nil_iff.mp splits⟩
  | closing front behind offset spells =>
      obtain ⟨c, here, _, isClose, _⟩ := starts_at splits
      rw [isClose rfl] at here
      exact ⟨fun place same => ⟨_, Option.some.inj same ▸ here⟩,
        front, _, behind, splits, .inl ⟨rfl, spells, here⟩⟩
  | naming front behind name offset =>
      obtain ⟨c, here, _, _, isName⟩ := starts_at splits
      rw [isName name rfl] at here
      exact ⟨fun place same => ⟨_, Option.some.inj same ▸ here⟩,
        front, _, behind, splits, .inr ⟨name, rfl, rfl, here⟩⟩
  | unclosed front offset matched =>
      obtain ⟨c, here, isOpen, _, _⟩ := starts_at splits
      rw [isOpen rfl] at here
      have unclosed := matched.level 0 []
      rw [List.append_nil] at unclosed
      exact ⟨fun place same => ⟨_, Option.some.inj same ▸ here⟩,
        here, front, _, splits, unclosed, matched.inner⟩
  | dangling front behind name offset last => exact ⟨nofun, front, offset, behind, splits, last⟩
  | @trailing expr front next behind derived =>
      obtain ⟨c, here, _⟩ := starts_at splits
      obtain ⟨before, source, after, whole, place, first, _⟩ := splits.before
      have parsed : parse (String.ofList before) = .ok expr := by
        refine parse_eq_ok_iff.mpr ⟨_, ⟨front, ?_, rfl⟩, derived⟩
        rw [String.toList_ofList]
        exact first
      rw [Nat.zero_add] at place
      exact ⟨fun place same => ⟨_, Option.some.inj same ▸ here⟩,
        before, _, whole, place.symm, ⟨expr, parsed⟩, front, next.token, behind, splits⟩

/-- Every byte offset that a parse error carries is that of a character of the text, and that
character is at fault. Behind `trailingInput` the text in front parses on its own and a token starts
at the offset. `unclosedParen` points at the last opening parenthesis without a match, `unterminated`
at a quote behind which no unescaped quote of its kind follows, `unexpectedToken` at a closing
parenthesis or at the colon of a name. `endOfInput` is the answer exactly to blank texts. -/
theorem blames (text : String) :
    (∀ err, parse text = .error err →
      (∀ offset ∈ place? err, ∃ c, At text offset c) ∧ Blames text err) ∧
      (parse text = .error .endOfInput ↔ ∀ c ∈ text.toList, Text.isWhiteSpace c = true) := by
  have faults {err : ParseError} (refused : parse text = .error err) :
      (∀ offset ∈ place? err, ∃ c, At text offset c) ∧ Blames text err := by
    cases scanned : Token.scan text with
    | error reason =>
        rw [parse, scanned] at refused
        cases refused
        obtain ⟨form, front, behind, whole, same, absent⟩ := Token.open_of_scanFrom scanned
        rw [Nat.zero_add] at same
        rw [same]
        have isQuote : form.quote ≠ '\\' := by cases form <;> decide
        refine ⟨fun offset place => ⟨form.quote, front, behind, whole, Option.some.inj place⟩,
          front, behind, whole, rfl, not_unescaped_of_takeQuoted isQuote absent⟩
    | ok placed =>
        have splits := Token.splits_iff.mp scanned
        rw [parse_scanned splits] at refused
        exact (Pending.nil.faulty refused).blamed splits
  refine ⟨fun err => faults, fun refused => (faults refused).2, fun white => ?_⟩
  rw [parse_scanned (Token.splits_nil_iff.mpr white), readTokens]

/-- The second parenthesis is the last one without a match. -/
theorem blames_unclosed :
    parse "(f (g \x22é)\x22 (h)" = .error (.unclosedParen 3) ∧
      Blames "(f (g \x22é)\x22 (h)" (.unclosedParen 3) := by
  have refused : parse "(f (g \x22é)\x22 (h)" = .error (.unclosedParen 3) := by
    have splits : Splits 0 "(f (g \x22é)\x22 (h)".toList
        [⟨.openParen, 0⟩, ⟨.atom "f", 1⟩, ⟨.openParen, 3⟩, ⟨.atom "g", 4⟩, ⟨.text "é)", 6⟩,
          ⟨.openParen, 12⟩, ⟨.atom "h", 13⟩, ⟨.closeParen, 14⟩] :=
      Token.splits_of_toOption (by decide +kernel)
    rw [parse_scanned splits]
    rfl
  exact ⟨refused, ((blames _).1 _ refused).2⟩

end Expr

end ValueChannels
