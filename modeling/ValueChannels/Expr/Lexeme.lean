import ValueChannels.Expr.Token

/-!
The lexical form of expressions. A text splits into tokens, with white space between them where
two atoms would otherwise run together. Main statement: the characters of a lexeme and those
behind it are the text it was taken from.
-/

namespace ValueChannels

namespace Token

/-- What a quote encloses: the content without its escapes, the characters it is written by up to
the closing quote, and what follows. -/
structure Quoted where
  content : List Char
  source : List Char
  after : List Char
  deriving DecidableEq, Repr

def takeQuoted (quote : Char) : List Char → Option Quoted
  | [] => none
  | '\\' :: [] => none
  | '\\' :: c :: rest =>
      (takeQuoted quote rest).map fun inner =>
        { inner with content := unescape c :: inner.content, source := '\\' :: c :: inner.source }
  | c :: rest =>
      if c = quote then some { content := [], source := [c], after := rest }
      else (takeQuoted quote rest).map fun inner =>
        { inner with content := c :: inner.content, source := c :: inner.source }

theorem source_takeQuoted {quote : Char} {chars : List Char} {quoted : Quoted}
    (taken : takeQuoted quote chars = some quoted) : quoted.source ++ quoted.after = chars := by
  fun_induction takeQuoted quote chars generalizing quoted with
  | case1 => cases taken
  | case2 => cases taken
  | case3 c rest ih =>
      obtain ⟨inner, found, same⟩ := Option.map_eq_some_iff.mp taken
      cases same
      simp [ih found]
  | case4 c rest =>
      cases taken
      rfl
  | case5 c rest _ _ _ ih =>
      obtain ⟨inner, found, same⟩ := Option.map_eq_some_iff.mp taken
      cases same
      simp [ih found]

end Token

/-- A token, the characters it is written by, and what follows them. -/
structure Lexeme where
  token : Token
  source : List Char
  after : List Char
  deriving DecidableEq, Repr

/-- A quote that is never closed, with the number of bytes in front of it. -/
structure OpenQuote where
  form : QuotedForm
  ahead : Nat
  deriving DecidableEq, Repr

namespace Lexeme

open Token

/-- The quoted token whose opening quote, of the given form, stands in front of a text. -/
def quoted (form : QuotedForm) (quote : Char) (rest : List Char) : Except OpenQuote Lexeme :=
  match takeQuoted quote rest with
  | some inner =>
      let content := String.ofList inner.content
      let token := match form with
        | .text => Token.text content
        | .symbol => Token.quotedSymbol content
      .ok { token, source := quote :: inner.source, after := inner.after }
  | none => .error { form, ahead := 0 }

/-- The lexeme in front of a text that starts with a character of an atom. A lone colon directly
before a quoted symbol makes that symbol a name, any other leading colon names the rest of
the atom. -/
def word (chars : List Char) : Except OpenQuote Lexeme :=
  let source := chars.takeWhile isAtomChar
  let after := chars.dropWhile isAtomChar
  match source, after with
  | [':'], c :: rest =>
      if c = symbolQuote then
        match takeQuoted symbolQuote rest with
        | some inner =>
            .ok
              { token := .argumentName (String.ofList inner.content)
                source := ':' :: c :: inner.source
                after := inner.after }
        | none => .error { form := .symbol, ahead := Text.byteLength [':'] }
      else
        .ok { token := .atom (String.ofList source), source, after }
  | ':' :: first :: name, _ =>
      .ok { token := .argumentName (String.ofList (first :: name)), source, after }
  | _, _ => .ok { token := .atom (String.ofList source), source, after }

/-- The lexeme in front of a text that does not start with white space. -/
def first (c : Char) (rest : List Char) : Except OpenQuote Lexeme :=
  if c = '(' then .ok { token := .openParen, source := [c], after := rest }
  else if c = ')' then .ok { token := .closeParen, source := [c], after := rest }
  else if c = textQuote then quoted .text textQuote rest
  else if c = symbolQuote then quoted .symbol symbolQuote rest
  else word (c :: rest)

theorem source_quoted {form : QuotedForm} {quote : Char} {rest : List Char} {lexeme : Lexeme}
    (taken : quoted form quote rest = .ok lexeme) :
    lexeme.source ++ lexeme.after = quote :: rest := by
  unfold quoted at taken
  split at taken
  · rename_i inner found
    cases taken
    simp [source_takeQuoted found]
  · cases taken

theorem source_word {chars : List Char} {lexeme : Lexeme} (taken : word chars = .ok lexeme) :
    lexeme.source ++ lexeme.after = chars := by
  have whole := List.takeWhile_append_dropWhile (p := isAtomChar) (l := chars)
  unfold word at taken
  simp only at taken
  split at taken
  · rename_i c rest colon leftover
    split at taken
    · split at taken
      · rename_i inner found
        cases taken
        rw [colon, leftover] at whole
        simp [← whole, source_takeQuoted found]
      · cases taken
    · cases taken
      exact whole
  · cases taken
    exact whole
  · cases taken
    exact whole

/-- A lexeme's characters and what follows them are the text it was taken from. -/
theorem source_first {c : Char} {rest : List Char} {lexeme : Lexeme}
    (taken : first c rest = .ok lexeme) : lexeme.source ++ lexeme.after = c :: rest := by
  unfold first at taken
  split at taken
  · cases taken
    rfl
  · split at taken
    · cases taken
      rfl
    · split at taken
      · rename_i opening
        rw [opening]
        exact source_quoted taken
      · split at taken
        · rename_i opening
          rw [opening]
          exact source_quoted taken
        · exact source_word taken

theorem source_quoted_ne_nil {form : QuotedForm} {quote : Char} {rest : List Char}
    {lexeme : Lexeme} (taken : quoted form quote rest = .ok lexeme) : lexeme.source ≠ [] := by
  unfold quoted at taken
  split at taken <;> cases taken
  simp

theorem source_word_ne_nil {c : Char} {rest : List Char} {lexeme : Lexeme}
    (part : isAtomChar c = true) (taken : word (c :: rest) = .ok lexeme) :
    lexeme.source ≠ [] := by
  have starts : (c :: rest).takeWhile isAtomChar ≠ [] := by
    rw [List.takeWhile_cons_of_pos part]
    simp
  unfold word at taken
  simp only at taken
  split at taken
  · split at taken
    · split at taken <;> cases taken
      simp
    · cases taken
      exact starts
  · cases taken
    exact starts
  · cases taken
    exact starts

/-- No lexeme is empty, so that scanning makes progress. -/
theorem source_first_ne_nil {c : Char} {rest : List Char} {lexeme : Lexeme}
    (visible : ¬Text.isWhiteSpace c = true) (taken : first c rest = .ok lexeme) :
    lexeme.source ≠ [] := by
  unfold first at taken
  split at taken
  · cases taken
    simp
  · split at taken
    · cases taken
      simp
    · split at taken
      · exact source_quoted_ne_nil taken
      · split at taken
        · exact source_quoted_ne_nil taken
        · refine source_word_ne_nil ?_ taken
          simp_all [isAtomChar, isDelimiter]

theorem length_first {c : Char} {rest : List Char} {lexeme : Lexeme}
    (visible : ¬Text.isWhiteSpace c = true) (taken : first c rest = .ok lexeme) :
    lexeme.after.length < (c :: rest).length := by
  have written := List.length_pos_iff.mpr (source_first_ne_nil visible taken)
  rw [← source_first taken, List.length_append]
  omega

end Lexeme

namespace Token

/-- The tokens of a text that starts `offset` bytes behind the start of the input. -/
def scanFrom (offset : Nat) : List Char → Except ParseError (List PlacedToken)
  | [] => .ok []
  | c :: rest =>
      if _blank : Text.isWhiteSpace c = true then scanFrom (offset + c.utf8Size) rest
      else
        match _taken : Lexeme.first c rest with
        | .ok lexeme =>
            (scanFrom (offset + Text.byteLength lexeme.source) lexeme.after).map
              fun tokens => { token := lexeme.token, offset } :: tokens
        | .error opened => .error (.unterminated opened.form (offset + opened.ahead))
termination_by chars => chars.length
decreasing_by
  · simp
  · exact Lexeme.length_first _blank _taken

def scan (code : String) : Except ParseError (List PlacedToken) :=
  scanFrom 0 code.toList

end Token

end ValueChannels
