import ValueChannels.Proofs.Expr.Grammar
import ValueChannels.Proofs.Expr.Splitting

/-!
The texts that are expressions: those that split into tokens from which the grammar derives a tree.
Main statement: `recognizes`, that these texts parse, each to its one tree, and that nothing but the
tokens decides what becomes of a text.
-/

namespace ValueChannels

namespace Token

/-- The whole text splits into these tokens, wherever they stand in it. -/
def SplitsInto (text : String) (tokens : List Token) : Prop :=
  ∃ placed, Splits 0 text.toList placed ∧ placed.map PlacedToken.token = tokens

theorem SplitsInto.unique {text : String} {tokens others : List Token}
    (splits : SplitsInto text tokens) (splits' : SplitsInto text others) : tokens = others := by
  obtain ⟨placed, first, same⟩ := splits
  obtain ⟨placed', second, same'⟩ := splits'
  have equal := (splits_iff.mpr first).symm.trans (splits_iff.mpr second)
  rw [← same, ← same', Except.ok.inj equal]

end Token

namespace Expr

open Token (SplitsInto splits_iff)

variable {text : String} {tokens : List Token} {expr : Expr}

theorem parse_scanned {placed : List PlacedToken} (splits : Token.Splits 0 text.toList placed) :
    parse text = readTokens [] placed := by
  rw [parse, Token.scan, splits_iff.mpr splits]

theorem parse_eq_ok_iff :
    parse text = .ok expr ↔ ∃ tokens, SplitsInto text tokens ∧ Derives expr tokens := by
  constructor
  · intro parsed
    cases scanned : Token.scan text with
    | error err =>
        rw [parse, scanned] at parsed
        cases parsed
    | ok placed =>
        have splits := splits_iff.mp scanned
        rw [parse_scanned splits] at parsed
        exact ⟨_, ⟨placed, splits, rfl⟩, derives_iff.mp parsed⟩
  · rintro ⟨tokens, ⟨placed, splits, same⟩, derived⟩
    rw [parse_scanned splits, derives_iff, same]
    exact derived

theorem Derives.unique {other : Expr} (derived : Derives expr tokens)
    (derived' : Derives other tokens) : expr = other := by
  let placed : List PlacedToken := tokens.map fun token => { token, offset := 0 }
  have spelled : placed.map PlacedToken.token = tokens := by
    rw [List.map_map]
    exact List.map_id tokens
  rw [← spelled, ← derives_iff] at derived derived'
  exact Except.ok.inj (derived.symm.trans derived')

/-- A text parses as an expression if and only if it splits into tokens that the grammar derives with
that tree. There is one way to split it at most, and one tree. Two texts with the same tokens, with
whatever white space in between, are the same expression or fail alike, but for the places that errors
point at. -/
theorem recognizes :
    (∀ text expr, parse text = .ok expr ↔ ∃ tokens, SplitsInto text tokens ∧ Derives expr tokens) ∧
      (∀ text tokens others, SplitsInto text tokens → SplitsInto text others → tokens = others) ∧
      (∀ tokens first second, Derives first tokens → Derives second tokens → first = second) ∧
      ∀ first second tokens, SplitsInto first tokens → SplitsInto second tokens →
        (∀ expr, parse first = .ok expr ↔ parse second = .ok expr) ∧
          (parse first).mapError withoutPlace = (parse second).mapError withoutPlace := by
  refine ⟨fun _ _ => parse_eq_ok_iff, fun _ _ _ => SplitsInto.unique, fun _ _ _ => Derives.unique,
    fun first second tokens splits splits' => ?_⟩
  obtain ⟨placed, one, same⟩ := splits
  obtain ⟨placed', other, same'⟩ := splits'
  rw [parse_scanned one, parse_scanned other]
  refine ⟨fun expr => ?_, readTokens_congr (same.trans same'.symm)⟩
  rw [derives_iff, derives_iff, same, same']

/-- A name, a quoted symbol and an atom may touch each other or stand apart. -/
theorem recognizes_touching :
    SplitsInto "(f :n\x60a b\x60x)" [.openParen, .atom "f", .argumentName "n", .quotedSymbol "a b",
        .atom "x", .closeParen] ∧
      parse "( f :n\t\x60a b\x60 x )" =
        .ok (.call (ofAtom "f") [⟨some "n", .symbol "a b"⟩, ⟨none, ofAtom "x"⟩]) := by
  let tokens : List Token := [.openParen, .atom "f", .argumentName "n", .quotedSymbol "a b",
    .atom "x", .closeParen]
  have tight : SplitsInto "(f :n\x60a b\x60x)" tokens :=
    ⟨[⟨.openParen, 0⟩, ⟨.atom "f", 1⟩, ⟨.argumentName "n", 3⟩, ⟨.quotedSymbol "a b", 5⟩,
      ⟨.atom "x", 10⟩, ⟨.closeParen, 11⟩], Token.splits_of_toOption (by decide +kernel), rfl⟩
  have spaced : SplitsInto "( f :n\t\x60a b\x60 x )" tokens :=
    ⟨[⟨.openParen, 0⟩, ⟨.atom "f", 2⟩, ⟨.argumentName "n", 4⟩, ⟨.quotedSymbol "a b", 7⟩,
      ⟨.atom "x", 13⟩, ⟨.closeParen, 15⟩], Token.splits_of_toOption (by decide +kernel), rfl⟩
  have arguments : DerivesArguments [⟨some "n", .symbol "a b"⟩, ⟨none, ofAtom "x"⟩]
      [.argumentName "n", .quotedSymbol "a b", .atom "x"] :=
    .cons (some "n") (.quotedSymbol "a b") (.cons none (.atom "x") .nil)
  have parsed := (recognizes.1 _ _).mpr ⟨tokens, tight, .call (.atom "f") arguments⟩
  exact ⟨tight, ((recognizes.2.2.2 _ _ _ tight spaced).1 _).mp parsed⟩

end Expr

end ValueChannels
