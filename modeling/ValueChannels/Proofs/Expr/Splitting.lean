import ValueChannels.Expr.Lexeme
import ValueChannels.Proofs.Number.Numerals

/-!
How texts split into tokens. The rules are stated without the scanner: what each token is written by,
where a word may end, and that white space stands for nothing. Main statements: `splits_iff`, that the
scanner finds the tokens of a text exactly when it splits into them, and `open_of_scanFrom`, that a
text which it refuses has a quote that nothing closes.
-/

namespace ValueChannels

/-- Where an atom ends: at the end of the text or before a character that no atom holds. -/
def Expr.Ends (behind : List Char) : Prop :=
  ∀ c ∈ behind.head?, Token.isAtomChar c = false

/-- The character that opens and closes a quote. -/
def QuotedForm.quote : QuotedForm → Char
  | .text => Token.textQuote
  | .symbol => Token.symbolQuote

namespace Token

/-! ### Quotes -/

/-- A content, and the characters that it is written by behind an opened quote, with the closing one
at the end. -/
inductive Encloses (quote : Char) : List Char → List Char → Prop where
  | closed : Encloses quote [] [quote]
  | escaped (c : Char) {content source : List Char} (rest : Encloses quote content source) :
      Encloses quote (unescape c :: content) ('\\' :: c :: source)
  | plain {c : Char} {content source : List Char} (inside : c ≠ quote) (unescaped : c ≠ '\\')
      (rest : Encloses quote content source) : Encloses quote (c :: content) (c :: source)

variable {quote : Char} {chars behind : List Char}

theorem takeQuoted_plain {c : Char} (unescaped : c ≠ '\\') (rest : List Char) :
    takeQuoted quote (c :: rest) =
      if c = quote then some { content := [], source := [c], after := rest }
      else (takeQuoted quote rest).map fun inner =>
        { inner with content := c :: inner.content, source := c :: inner.source } := by
  rw [takeQuoted]
  · intro same _
    exact unescaped same
  · intro _ _ same _
    exact unescaped same

theorem encloses_of_takeQuoted {quoted : Quoted} (taken : takeQuoted quote chars = some quoted) :
    Encloses quote quoted.content quoted.source := by
  fun_induction takeQuoted quote chars generalizing quoted with
  | case1 => cases taken
  | case2 => cases taken
  | case3 c rest ih =>
      obtain ⟨inner, found, same⟩ := Option.map_eq_some_iff.mp taken
      rw [← same]
      exact .escaped c (ih found)
  | case4 c rest =>
      cases taken
      exact .closed
  | case5 c rest bare more inside ih =>
      obtain ⟨inner, found, same⟩ := Option.map_eq_some_iff.mp taken
      rw [← same]
      refine .plain inside ?_ (ih found)
      intro slash
      cases rest with
      | nil => exact bare slash rfl
      | cons next rest => exact more next rest slash rfl

theorem takeQuoted_of_encloses (isQuote : quote ≠ '\\') {content source : List Char}
    (encloses : Encloses quote content source) (behind : List Char) :
    takeQuoted quote (source ++ behind) = some { content, source, after := behind } := by
  induction encloses with
  | closed =>
      rw [List.singleton_append, takeQuoted_plain isQuote, if_pos rfl]
  | escaped c rest ih =>
      rw [List.cons_append, List.cons_append, takeQuoted, ih, Option.map_some]
  | plain inside unescaped rest ih =>
      rw [List.cons_append, takeQuoted_plain unescaped, if_neg inside, ih, Option.map_some]

/-! ### The lexemes of a text -/

/-- What a token is written by, in front of a text that starts behind it. A word goes on as long as
there are characters for it, and a lone colon would make a name of a quoted symbol. -/
inductive Spells (behind : List Char) : Token → List Char → Prop where
  | openParen : Spells behind .openParen ['(']
  | closeParen : Spells behind .closeParen [')']
  | text {content source : List Char} (encloses : Encloses textQuote content source) :
      Spells behind (.text (String.ofList content)) (textQuote :: source)
  | quotedSymbol {content source : List Char} (encloses : Encloses symbolQuote content source) :
      Spells behind (.quotedSymbol (String.ofList content)) (symbolQuote :: source)
  | quotedName {content source : List Char} (encloses : Encloses symbolQuote content source) :
      Spells behind (.argumentName (String.ofList content)) (':' :: symbolQuote :: source)
  | name {word : List Char} (something : word ≠ []) (atom : ∀ c ∈ word, isAtomChar c = true)
      (ends : Expr.Ends behind) : Spells behind (.argumentName (String.ofList word)) (':' :: word)
  | atom {word : List Char} (something : word ≠ []) (atom : ∀ c ∈ word, isAtomChar c = true)
      (noName : word.head? ≠ some ':') (ends : Expr.Ends behind) :
      Spells behind (.atom (String.ofList word)) word
  | colon (ends : Expr.Ends behind) (noName : behind.head? ≠ some symbolQuote) :
      Spells behind (.atom ":") [':']

theorem Spells.shortened {token : Token} {source front : List Char}
    (spells : Spells (front ++ behind) token source) : Spells front token source := by
  have ends (before : Expr.Ends (front ++ behind)) : Expr.Ends front := by
    intro c first
    apply before c
    rw [List.head?_append, Option.mem_def.mp first]
    rfl
  cases spells with
  | openParen => exact .openParen
  | closeParen => exact .closeParen
  | text encloses => exact .text encloses
  | quotedSymbol encloses => exact .quotedSymbol encloses
  | quotedName encloses => exact .quotedName encloses
  | name something atom before => exact .name something atom (ends before)
  | atom something atom noName before => exact .atom something atom noName (ends before)
  | colon before noName =>
      refine .colon (ends before) ?_
      intro first
      rw [List.head?_append, first] at noName
      exact noName rfl

/-- The first character of a token shows what kind of token it is. -/
theorem Spells.starts {token : Token} {source : List Char} (spells : Spells behind token source) :
    ∃ c rest, source = c :: rest ∧ Text.isWhiteSpace c = false ∧
      (token = .openParen → c = '(') ∧ (token = .closeParen → c = ')') ∧
        ∀ name, token = .argumentName name → c = ':' := by
  cases spells with
  | openParen => exact ⟨_, _, rfl, by decide, by simp⟩
  | closeParen => exact ⟨_, _, rfl, by decide, by simp⟩
  | text encloses => exact ⟨_, _, rfl, by decide, by simp⟩
  | quotedSymbol encloses => exact ⟨_, _, rfl, by decide, by simp⟩
  | quotedName encloses => exact ⟨_, _, rfl, by decide, by simp⟩
  | name something atom ends => exact ⟨_, _, rfl, by decide, by simp⟩
  | atom something atom noName ends =>
      cases source with
      | nil => exact absurd rfl something
      | cons c rest =>
          have part := atom c List.mem_cons_self
          rw [isAtomChar, Bool.and_eq_true, Bool.not_eq_true'] at part
          exact ⟨c, rest, rfl, part.1, by simp⟩
  | colon ends noName => exact ⟨_, _, rfl, by decide, by simp⟩

end Token

namespace Lexeme

open Token

variable {c : Char} {rest chars behind : List Char} {lexeme : Lexeme}

theorem first_word (rest : List Char) (atom : isAtomChar c = true) :
    Text.isWhiteSpace c = false ∧ first c rest = word (c :: rest) := by
  simp only [isAtomChar, Bool.and_eq_true, Bool.not_eq_true', isDelimiter, Bool.or_eq_false_iff,
    beq_eq_false_iff_ne] at atom
  obtain ⟨visible, ⟨⟨opening, closing⟩, isText⟩, isSymbol⟩ := atom
  refine ⟨visible, ?_⟩
  rw [first, if_neg opening, if_neg closing, if_neg isText, if_neg isSymbol]

theorem spells_quoted {form : QuotedForm} (taken : quoted form form.quote rest = .ok lexeme) :
    Spells lexeme.after lexeme.token lexeme.source := by
  unfold quoted at taken
  split at taken
  · rename_i inner found
    cases taken
    cases form with
    | text => exact .text (encloses_of_takeQuoted found)
    | symbol => exact .quotedSymbol (encloses_of_takeQuoted found)
  · cases taken

theorem ends_dropWhile (chars : List Char) : Expr.Ends (chars.dropWhile isAtomChar) := by
  intro c first
  have stops := List.head?_dropWhile_not isAtomChar chars
  rw [Option.mem_def.mp first] at stops
  exact stops

theorem spells_word (part : isAtomChar c = true) (taken : word (c :: rest) = .ok lexeme) :
    Spells lexeme.after lexeme.token lexeme.source := by
  have starts : (c :: rest).takeWhile isAtomChar ≠ [] := by
    rw [List.takeWhile_cons_of_pos part]
    exact List.cons_ne_nil _ _
  have atoms : ∀ d ∈ (c :: rest).takeWhile isAtomChar, isAtomChar d = true :=
    fun d member => List.all_eq_true.mp List.all_takeWhile d member
  have ends := ends_dropWhile (c :: rest)
  unfold word at taken
  dsimp only at taken
  generalize (c :: rest).takeWhile isAtomChar = source at starts atoms taken
  generalize (c :: rest).dropWhile isAtomChar = after at ends taken
  split at taken
  · rename_i next others
    split at taken
    · rename_i isQuote
      split at taken
      · rename_i inner found
        cases taken
        rw [isQuote]
        exact .quotedName (encloses_of_takeQuoted found)
      · cases taken
    · rename_i noQuote
      cases taken
      refine .colon ends ?_
      intro first
      exact noQuote (Option.some.inj first)
  · rename_i first name _ _
    cases taken
    exact .name (List.cons_ne_nil _ _) (fun d member => atoms d (List.mem_cons_of_mem _ member)) ends
  · rename_i long lone
    cases taken
    -- A word that starts with a colon and is no name is the colon alone.
    by_cases colon : source.head? = some ':'
    · obtain ⟨name, same⟩ := List.head?_eq_some_iff.mp colon
      rw [same] at lone long ⊢
      cases name with
      | cons first name => exact (long _ _ rfl).elim
      | nil =>
          cases after with
          | cons next others => exact (lone _ _ rfl rfl).elim
          | nil => exact .colon ends nofun
    · exact .atom starts atoms colon ends

/-- A lexeme that is taken off a text is written as its token is, in front of the rest. -/
theorem spells_first (visible : Text.isWhiteSpace c = false)
    (taken : first c rest = .ok lexeme) : Spells lexeme.after lexeme.token lexeme.source := by
  by_cases part : isAtomChar c = true
  · rw [(first_word rest part).2] at taken
    exact spells_word part taken
  · have delimiter : isDelimiter c = true := by
      rw [isAtomChar, visible, Bool.not_false, Bool.true_and, Bool.not_eq_true,
        Bool.not_eq_false'] at part
      exact part
    unfold first at taken
    split at taken
    · rename_i opening
      cases taken
      rw [opening]
      exact .openParen
    · split at taken
      · rename_i closing
        cases taken
        rw [closing]
        exact .closeParen
      · split at taken
        · exact spells_quoted (show quoted .text (QuotedForm.quote .text) rest = _ from taken)
        · split at taken
          · exact spells_quoted (show quoted .symbol (QuotedForm.quote .symbol) rest = _ from taken)
          · simp_all [isDelimiter]

/-- What a token is written by is taken off the text as the lexeme of that token. -/
theorem first_of_spells {token : Token} {source : List Char} (spells : Spells behind token source) :
    ∃ c rest, source ++ behind = c :: rest ∧ Text.isWhiteSpace c = false ∧
      first c rest = .ok { token, source, after := behind } := by
  have colon : ∀ d ∈ [':'], isAtomChar d = true := List.forall_mem_singleton.mpr (by decide)
  cases spells with
  | openParen => exact ⟨_, _, rfl, by decide, rfl⟩
  | closeParen => exact ⟨_, _, rfl, by decide, rfl⟩
  | @text content source encloses =>
      refine ⟨textQuote, source ++ behind, rfl, by decide, ?_⟩
      have taken := takeQuoted_of_encloses (by decide) encloses behind
      rw [first, if_neg (by decide), if_neg (by decide), if_pos rfl, quoted, taken]
  | @quotedSymbol content source encloses =>
      refine ⟨symbolQuote, source ++ behind, rfl, by decide, ?_⟩
      have taken := takeQuoted_of_encloses (by decide) encloses behind
      rw [first, if_neg (by decide), if_neg (by decide), if_neg (by decide), if_pos rfl, quoted,
        taken]
  | @quotedName content source encloses =>
      have ends : Expr.Ends (symbolQuote :: (source ++ behind)) := by
        intro d same
        cases same
        decide
      have span := span_append colon ends
      have taken := takeQuoted_of_encloses (by decide) encloses behind
      obtain ⟨visible, start⟩ := first_word (symbolQuote :: (source ++ behind))
        (show isAtomChar ':' = true by decide)
      refine ⟨':', symbolQuote :: (source ++ behind), rfl, visible, ?_⟩
      rw [List.singleton_append] at span
      rw [start, word, span.1, span.2]
      simp only [if_true, taken]
  | @name word something atom ends =>
      have atoms : ∀ d ∈ ':' :: word, isAtomChar d = true :=
        List.forall_mem_cons.mpr ⟨by decide, atom⟩
      have span := span_append atoms ends
      obtain ⟨visible, start⟩ := first_word (word ++ behind) (show isAtomChar ':' = true by decide)
      refine ⟨':', word ++ behind, rfl, visible, ?_⟩
      rw [List.cons_append] at span
      rw [start, Lexeme.word, span.1, span.2]
      cases word with
      | nil => exact absurd rfl something
      | cons c rest => rfl
  | atom something atom noName ends =>
      have span := span_append atom ends
      cases source with
      | nil => exact absurd rfl something
      | cons c rest =>
          obtain ⟨visible, start⟩ := first_word (rest ++ behind) (atom c List.mem_cons_self)
          refine ⟨c, rest ++ behind, rfl, visible, ?_⟩
          rw [List.cons_append] at span
          rw [start, word, span.1, span.2]
          split
          · rename_i same
            rw [same] at noName
            exact absurd rfl noName
          · rename_i same
            rw [same] at noName
            exact absurd rfl noName
          · rfl
  | colon ends noName =>
      have span := span_append colon ends
      obtain ⟨visible, start⟩ := first_word behind (show isAtomChar ':' = true by decide)
      refine ⟨':', behind, rfl, visible, ?_⟩
      rw [List.singleton_append] at span
      rw [start, word, span.1, span.2]
      -- In front of a quoted symbol the colon would be the mark of a name.
      cases behind with
      | nil => rfl
      | cons next others =>
          have noQuote : next ≠ symbolQuote := fun same => noName (congrArg some same)
          simp only [if_neg noQuote]

theorem open_of_first {opened : OpenQuote} (refused : first c rest = .error opened) :
    ∃ front behind, c :: rest = front ++ opened.form.quote :: behind ∧
      opened.ahead = Text.byteLength front ∧ takeQuoted opened.form.quote behind = none := by
  have here {form : QuotedForm} (refused : quoted form form.quote rest = .error opened) :
      ∃ front behind, form.quote :: rest = front ++ opened.form.quote :: behind ∧
        opened.ahead = Text.byteLength front ∧ takeQuoted opened.form.quote behind = none := by
    unfold quoted at refused
    split at refused
    · cases refused
    · rename_i absent
      cases refused
      exact ⟨[], rest, rfl, rfl, absent⟩
  unfold first at refused
  split at refused
  · cases refused
  · split at refused
    · cases refused
    · split at refused
      · rename_i opening
        rw [opening]
        exact here (show quoted .text (QuotedForm.quote .text) rest = _ from refused)
      · split at refused
        · rename_i opening
          rw [opening]
          exact here (show quoted .symbol (QuotedForm.quote .symbol) rest = _ from refused)
        · have whole := List.takeWhile_append_dropWhile (p := isAtomChar) (l := c :: rest)
          unfold word at refused
          dsimp only at refused
          split at refused
          · rename_i next others colon leftover
            split at refused
            · rename_i isQuote
              split at refused
              · cases refused
              · rename_i absent
                cases refused
                rw [colon, leftover, isQuote] at whole
                exact ⟨[':'], others, whole.symm, rfl, absent⟩
            · cases refused
          · cases refused
          · cases refused

end Lexeme

namespace Token

/-! ### Whole texts -/

/-- A text that starts `offset` bytes behind the start of the input splits into tokens at their
places. -/
inductive Splits : Nat → List Char → List PlacedToken → Prop where
  | nothing (offset : Nat) : Splits offset [] []
  | blank {offset : Nat} {c : Char} {rest : List Char} {placed : List PlacedToken}
      (white : Text.isWhiteSpace c = true) (splits : Splits (offset + c.utf8Size) rest placed) :
      Splits offset (c :: rest) placed
  | token {offset : Nat} {token : Token} {source behind : List Char} {placed : List PlacedToken}
      (spells : Spells behind token source)
      (splits : Splits (offset + Text.byteLength source) behind placed) :
      Splits offset (source ++ behind) ({ token, offset } :: placed)

variable {offset : Nat} {chars : List Char} {placed : List PlacedToken}

theorem scanFrom_first {c : Char} {rest : List Char} {lexeme : Lexeme}
    (visible : Text.isWhiteSpace c = false) (taken : Lexeme.first c rest = .ok lexeme) :
    scanFrom offset (c :: rest) =
      (scanFrom (offset + Text.byteLength lexeme.source) lexeme.after).map
        fun tokens => { token := lexeme.token, offset } :: tokens := by
  rw [scanFrom, dif_neg (by rw [visible]; exact Bool.false_ne_true)]
  split
  · rename_i other taken'
    rw [taken] at taken'
    cases taken'
    rfl
  · rename_i opened refused
    rw [taken] at refused
    cases refused

theorem splits_of_scanFrom (scanned : scanFrom offset chars = .ok placed) :
    Splits offset chars placed := by
  fun_induction scanFrom offset chars generalizing placed with
  | case1 offset =>
      cases scanned
      exact .nothing offset
  | case2 offset c rest white ih => exact .blank white (ih scanned)
  | case3 offset c rest visible lexeme taken ih =>
      have spells := Lexeme.spells_first (Bool.not_eq_true _ ▸ visible) taken
      cases behind : scanFrom (offset + Text.byteLength lexeme.source) lexeme.after with
      | error reason =>
          rw [behind] at scanned
          cases scanned
      | ok tokens =>
          rw [behind] at scanned
          cases scanned
          rw [← Lexeme.source_first taken]
          exact .token spells (ih behind)
  | case4 => cases scanned

theorem scanFrom_of_splits (splits : Splits offset chars placed) :
    scanFrom offset chars = .ok placed := by
  induction splits with
  | nothing offset => rw [scanFrom]
  | blank white splits ih => rw [scanFrom, dif_pos white, ih]
  | token spells splits ih =>
      obtain ⟨c, rest, same, visible, taken⟩ := Lexeme.first_of_spells spells
      rw [same, scanFrom_first visible taken, ih]
      rfl

/-- The scanner finds the tokens that a text splits into, and none if it does not. -/
theorem splits_iff : scanFrom offset chars = .ok placed ↔ Splits offset chars placed :=
  ⟨splits_of_scanFrom, scanFrom_of_splits⟩

theorem splits_of_toOption (scanned : (scanFrom offset chars).toOption = some placed) :
    Splits offset chars placed := by
  cases outcome : scanFrom offset chars with
  | error err =>
      rw [outcome] at scanned
      cases scanned
  | ok others =>
      rw [outcome] at scanned
      cases scanned
      exact splits_of_scanFrom outcome

/-- A text that the scanner refuses has a quote that nothing closes, where the error says. -/
theorem open_of_scanFrom {err : ParseError} (refused : scanFrom offset chars = .error err) :
    ∃ (form : QuotedForm) (front behind : List Char), chars = front ++ form.quote :: behind ∧
      err = .unterminated form (offset + Text.byteLength front) ∧
        takeQuoted form.quote behind = none := by
  fun_induction scanFrom offset chars with
  | case1 => cases refused
  | case2 offset c rest white ih =>
      obtain ⟨form, front, behind, whole, same, absent⟩ := ih refused
      refine ⟨form, c :: front, behind, congrArg _ whole, ?_, absent⟩
      rw [same, Text.byteLength, Nat.add_assoc]
  | case3 offset c rest visible lexeme taken ih =>
      cases later : scanFrom (offset + Text.byteLength lexeme.source) lexeme.after with
      | ok tokens =>
          rw [later] at refused
          cases refused
      | error reason =>
          rw [later] at refused
          cases refused
          obtain ⟨form, front, behind, whole, same, absent⟩ := ih later
          refine ⟨form, lexeme.source ++ front, behind, ?_, ?_, absent⟩
          · rw [← Lexeme.source_first taken, whole, List.append_assoc]
          · rw [same, Text.byteLength_append, Nat.add_assoc]
  | case4 offset c rest visible opened taken =>
      cases refused
      obtain ⟨front, behind, whole, ahead, absent⟩ := Lexeme.open_of_first taken
      exact ⟨opened.form, front, behind, whole, by rw [ahead], absent⟩

theorem Splits.before {front behind : List PlacedToken} {next : PlacedToken}
    (splits : Splits offset chars (front ++ next :: behind)) :
    ∃ before source after, chars = before ++ (source ++ after) ∧
      next.offset = offset + Text.byteLength before ∧ Splits offset before front ∧
        Spells after next.token source := by
  generalize whole : front ++ next :: behind = placed at splits
  induction splits generalizing front with
  | nothing offset => cases List.append_ne_nil_of_right_ne_nil front (List.cons_ne_nil _ _) whole
  | @blank offset c rest placed white splits ih =>
      obtain ⟨before, source, after, same, place, first, spells⟩ := ih whole
      refine ⟨c :: before, source, after, congrArg _ same, ?_, .blank white first, spells⟩
      rw [place, Text.byteLength, Nat.add_assoc]
  | @token offset token source behind' placed spells splits ih =>
      cases front with
      | nil =>
          cases whole
          exact ⟨[], source, behind', rfl, rfl, .nothing offset, spells⟩
      | cons head front =>
          obtain ⟨rfl, rest⟩ := List.cons.inj whole
          obtain ⟨before, later, after, same, place, first, ends⟩ := ih rest
          refine ⟨source ++ before, later, after, ?_, ?_, ?_, ends⟩
          · rw [same, List.append_assoc]
          · rw [place, Text.byteLength_append, Nat.add_assoc]
          · rw [same] at spells
            exact .token spells.shortened first

theorem splits_nil_iff : Splits offset chars [] ↔ ∀ c ∈ chars, Text.isWhiteSpace c = true := by
  constructor
  · intro splits
    generalize none : ([] : List PlacedToken) = placed at splits
    induction splits with
    | nothing => exact List.forall_mem_nil _
    | blank white splits ih => exact List.forall_mem_cons.mpr ⟨white, ih none⟩
    | token => cases none
  · intro white
    induction chars generalizing offset with
    | nil => exact .nothing offset
    | cons c rest ih =>
        obtain ⟨here, later⟩ := List.forall_mem_cons.mp white
        exact .blank here (ih later)

end Token

end ValueChannels
