import ValueChannels.Expr.Parser

/-!
The grammar of expressions over tokens. An expression is an atom, a string, a quoted symbol, or a
call: a function and arguments between parentheses, each argument with or without a name in front.
The reader keeps the calls that are still open on a stack, and the tokens that it has consumed are at
any time a derivation with some parts missing. Main statements: `readTokens_derived` for what the
grammar derives, `derives_iff`, that nothing else is read, and `readTokens_congr`, that it does not
matter where the tokens stand.
-/

namespace ValueChannels.Expr

/-- The tokens of the name in front of an argument. -/
def nameTokens (name : Option String) : List Token :=
  name.toList.map .argumentName

theorem nameTokens_none : nameTokens none = [] := rfl

mutual

/-- The grammar derives the tokens as an expression, with the expression for a tree. -/
inductive Derives : Expr → List Token → Prop where
  | atom (spelling : String) : Derives (ofAtom spelling) [.atom spelling]
  | text (content : String) : Derives (.constant (.text content)) [.text content]
  | quotedSymbol (name : String) : Derives (.symbol name) [.quotedSymbol name]
  | call {function : Expr} {arguments : List (Argument Expr)} {ofFunction ofArguments : List Token}
      (head : Derives function ofFunction) (rest : DerivesArguments arguments ofArguments) :
      Derives (.call function arguments)
        (.openParen :: (ofFunction ++ (ofArguments ++ [.closeParen])))

/-- The grammar derives the tokens as arguments. -/
inductive DerivesArguments : List (Argument Expr) → List Token → Prop where
  | nil : DerivesArguments [] []
  | cons (name : Option String) {value : Expr} {others : List (Argument Expr)}
      {ofValue ofOthers : List Token} (head : Derives value ofValue)
      (rest : DerivesArguments others ofOthers) :
      DerivesArguments (⟨name, value⟩ :: others) (nameTokens name ++ (ofValue ++ ofOthers))

end

theorem DerivesArguments.append {first second : List (Argument Expr)}
    {ofFirst ofSecond : List Token} (derived : DerivesArguments first ofFirst)
    (more : DerivesArguments second ofSecond) :
    DerivesArguments (first ++ second) (ofFirst ++ ofSecond) := by
  induction first generalizing ofFirst with
  | nil =>
      cases derived
      exact more
  | cons argument others ih =>
      cases derived with
      | cons name head rest =>
          rw [List.append_assoc, List.append_assoc]
          exact .cons name head (ih rest)

/-! ### What the grammar derives is read -/

/-- How reading goes on behind a complete expression. -/
def readBehind (expr : Expr) : List OpenCall → List PlacedToken → Except ParseError Expr
  | [], [] => .ok expr
  | [], trailing :: _ => .error (.trailingInput trailing.offset)
  | innermost :: outer, rest => readTokens (innermost.accept expr :: outer) rest

theorem readTokens_cons (calls : List OpenCall) (next : PlacedToken) (rest : List PlacedToken) :
    readTokens calls (next :: rest) =
      match Progress.step calls next with
      | .error err => .error err
      | .ok (.inside deeper) => readTokens deeper rest
      | .ok (.complete expr) => readBehind expr [] rest := by
  rw [readTokens.eq_def]
  cases taken : Progress.step calls next with
  | error err => simp only [taken]
  | ok progress =>
      cases progress with
      | inside deeper => simp only [taken]
      | complete expr => cases rest <;> simp only [taken, readBehind]

theorem readTokens_complete {calls deeper : List OpenCall} {next : PlacedToken} {expr : Expr}
    (step : Progress.step calls next = .ok (Progress.deliver expr deeper))
    (rest : List PlacedToken) : readTokens calls (next :: rest) = readBehind expr deeper rest := by
  rw [readTokens_cons, step]
  cases deeper with
  | nil => rfl
  | cons innermost outer => rfl

theorem readTokens_inside {calls deeper : List OpenCall} {next : PlacedToken}
    (step : Progress.step calls next = .ok (.inside deeper)) (rest : List PlacedToken) :
    readTokens calls (next :: rest) = readTokens deeper rest := by
  rw [readTokens_cons, step]

theorem readTokens_single {token : Token} {expr : Expr}
    (step : ∀ calls offset, Progress.step calls { token, offset } =
      .ok (Progress.deliver expr calls))
    (calls : List OpenCall) {placed : List PlacedToken}
    (spelled : placed.map PlacedToken.token = [token]) (rest : List PlacedToken) :
    readTokens calls (placed ++ rest) = readBehind expr calls rest := by
  obtain ⟨first, later, same, here, nothing⟩ := List.map_eq_cons_iff.mp spelled
  rw [List.map_eq_nil_iff.mp nothing] at same
  obtain ⟨token', offset⟩ := first
  cases here
  rw [same, List.singleton_append]
  exact readTokens_complete (step calls offset) rest

theorem readTokens_names (name : Option String) (outer : List OpenCall)
    {placed : List PlacedToken} (spelled : placed.map PlacedToken.token = nameTokens name)
    {current : OpenCall} {rest : List PlacedToken} (begun : current.function.isSome = true)
    (nameless : current.name = none) :
    readTokens (current :: outer) (placed ++ rest) =
      readTokens ({ current with name } :: outer) rest := by
  cases name with
  | none =>
      rw [List.map_eq_nil_iff.mp spelled, ← nameless]
      rfl
  | some name =>
      obtain ⟨first, later, same, token, nothing⟩ := List.map_eq_cons_iff.mp spelled
      rw [List.map_eq_nil_iff.mp nothing] at same
      obtain ⟨token', offset⟩ := first
      cases token
      rw [same, List.singleton_append]
      apply readTokens_inside
      have started : current.function.isNone = false := by
        rw [← Option.not_isSome, begun]
        rfl
      simp [Progress.step, OpenCall.named, started, nameless, Except.map]

theorem accept_named {current : OpenCall} (begun : current.function.isSome = true)
    (name : Option String) (expr : Expr) : { current with name }.accept expr =
      { current with arguments := ⟨name, expr⟩ :: current.arguments, name := none } := by
  cases has : current.function with
  | none =>
      rw [has] at begun
      cases begun
  | some function => simp [OpenCall.accept]

mutual

/-- What the grammar derives is read as one expression, whatever calls are open around it. -/
theorem readTokens_derived {expr : Expr} {tokens : List Token} (derived : Derives expr tokens)
    (calls : List OpenCall) {placed : List PlacedToken}
    (spelled : placed.map PlacedToken.token = tokens) (rest : List PlacedToken) :
    readTokens calls (placed ++ rest) = readBehind expr calls rest := by
  cases derived with
  | atom spelling => exact readTokens_single (fun _ _ => rfl) calls spelled rest
  | text content => exact readTokens_single (fun _ _ => rfl) calls spelled rest
  | quotedSymbol name => exact readTokens_single (fun _ _ => rfl) calls spelled rest
  | call head arguments =>
      obtain ⟨opening, inner, same, isOpen, parts⟩ := List.map_eq_cons_iff.mp spelled
      obtain ⟨ofFunction, others, behind, first, second⟩ := List.map_eq_append_iff.mp parts
      obtain ⟨ofArguments, last, joined, third, fourth⟩ := List.map_eq_append_iff.mp second
      obtain ⟨closing, nothing, whole, isClose, none⟩ := List.map_eq_cons_iff.mp fourth
      rw [List.map_eq_nil_iff.mp none] at whole
      obtain ⟨openToken, offset⟩ := opening
      obtain ⟨closeToken, offset'⟩ := closing
      cases isOpen
      cases isClose
      -- The tokens are an opening parenthesis, a function, arguments and a closing parenthesis.
      rw [same, behind, joined, whole]
      simp only [List.cons_append, List.append_assoc, List.nil_append]
      rw [readTokens_inside rfl, readTokens_derived head _ first, readBehind,
        readTokens_arguments arguments _ _ third rfl rfl]
      apply readTokens_complete
      simp [Progress.step, OpenCall.close, OpenCall.accept, OpenCall.opened, Except.map]

theorem readTokens_arguments {arguments : List (Argument Expr)} {tokens : List Token}
    (derived : DerivesArguments arguments tokens) (current : OpenCall) (outer : List OpenCall)
    {placed : List PlacedToken} (spelled : placed.map PlacedToken.token = tokens)
    {rest : List PlacedToken} (begun : current.function.isSome = true)
    (nameless : current.name = none) :
    readTokens (current :: outer) (placed ++ rest) = readTokens
      ({ current with arguments := arguments.reverse ++ current.arguments } :: outer) rest := by
  cases derived with
  | nil =>
      rw [List.map_eq_nil_iff.mp spelled]
      rfl
  | @cons name value others _ _ head more =>
      obtain ⟨ofName, inner, same, first, parts⟩ := List.map_eq_append_iff.mp spelled
      obtain ⟨ofValue, later, joined, second, third⟩ := List.map_eq_append_iff.mp parts
      rw [same, joined]
      simp only [List.append_assoc]
      rw [readTokens_names name outer first begun nameless, readTokens_derived head _ second,
        readBehind, accept_named begun]
      have read := @readTokens_arguments others _ more
        { current with arguments := ⟨name, value⟩ :: current.arguments, name := none }
        outer later third rest begun rfl
      rw [read]
      simp [nameless]

end

/-! ### What is read is derived -/

/-- The tokens that an open call has taken up behind its parenthesis. -/
inductive OpenCall.Holds : OpenCall → List Token → Prop where
  | headless (offset : Nat) : Holds (OpenCall.opened offset) []
  | begun (offset : Nat) {function : Expr} {arguments : List (Argument Expr)}
      (name : Option String) {ofFunction ofArguments : List Token}
      (head : Derives function ofFunction)
      (rest : DerivesArguments arguments.reverse ofArguments) :
      Holds { offset, function := some function, arguments, name }
        (ofFunction ++ (ofArguments ++ nameTokens name))

/-- The tokens that were read inside the open calls: from the outermost parenthesis to the innermost
call, with each parenthesis where its call was opened. -/
inductive Pending : List OpenCall → List PlacedToken → Prop where
  | nil : Pending [] []
  | cons {current : OpenCall} {outer : List OpenCall} {before inner : List PlacedToken}
      (around : Pending outer before) (holds : current.Holds (inner.map PlacedToken.token)) :
      Pending (current :: outer)
        (before ++ { token := .openParen, offset := current.offset } :: inner)

/-- What reading has come to is what the tokens so far are. -/
def Progress.Reached : Progress → List PlacedToken → Prop
  | .complete expr, placed => Derives expr (placed.map PlacedToken.token)
  | .inside calls, placed => calls ≠ [] ∧ Pending calls placed

variable {calls : List OpenCall} {before inner rest : List PlacedToken} {next : PlacedToken}
  {expr : Expr}

theorem Pending.deliver (pending : Pending calls before)
    (derived : Derives expr (inner.map PlacedToken.token)) :
    (Progress.deliver expr calls).Reached (before ++ inner) := by
  cases pending with
  | nil => exact derived
  | @cons current outer before earlier around holds =>
      refine ⟨List.cons_ne_nil _ _, ?_⟩
      rw [List.append_assoc, List.cons_append]
      have place : (current.accept expr).offset = current.offset := by
        unfold OpenCall.accept
        split <;> rfl
      rw [← place]
      refine .cons around ?_
      rw [List.map_append]
      generalize earlier.map PlacedToken.token = tokens at holds
      cases holds with
      | headless offset =>
          have bare : DerivesArguments ([] : List (Argument Expr)).reverse [] := .nil
          have begun := OpenCall.Holds.begun offset none derived bare
          rw [nameTokens_none, List.append_nil, List.append_nil] at begun
          exact begun
      | @begun offset function arguments name ofFunction ofArguments head rest =>
          have more : DerivesArguments (⟨name, expr⟩ :: arguments).reverse
              (ofArguments ++ (nameTokens name ++ (inner.map PlacedToken.token ++ []))) := by
            rw [List.reverse_cons]
            exact rest.append (.cons name derived .nil)
          have begun := OpenCall.Holds.begun offset none head more
          rw [nameTokens_none, List.append_nil, List.append_nil] at begun
          rw [List.append_assoc, List.append_assoc]
          exact begun

/-- One token more leads from what was reached to what is reached. -/
theorem Pending.step (pending : Pending calls before) {progress : Progress}
    (taken : Progress.step calls next = .ok progress) : progress.Reached (before ++ [next]) := by
  obtain ⟨token, offset⟩ := next
  -- A token changes the innermost open call only. What an argument name or a closing parenthesis
  -- may follow depends on how far that call has come.
  cases token with
  | openParen =>
      cases taken
      exact ⟨List.cons_ne_nil _ _, .cons pending (.headless offset)⟩
  | text content =>
      cases taken
      exact pending.deliver (.text content)
  | quotedSymbol name =>
      cases taken
      exact pending.deliver (.quotedSymbol name)
  | atom spelling =>
      cases taken
      exact pending.deliver (.atom spelling)
  | argumentName name =>
      cases pending with
      | nil => cases taken
      | @cons current outer before earlier around holds =>
          simp only [Progress.step, OpenCall.named] at taken
          split at taken
          · cases taken
          · rename_i begun
            cases taken
            have named : OpenCall.Holds { current with name := some name }
                (earlier.map PlacedToken.token ++ [.argumentName name]) := by
              generalize earlier.map PlacedToken.token = tokens at holds
              cases holds with
              | headless offset => exact absurd rfl begun
              | @begun offset function arguments held ofFunction ofArguments head rest =>
                  cases held with
                  | some held => exact absurd rfl begun
                  | none =>
                      rw [nameTokens_none, List.append_nil, List.append_assoc]
                      exact .begun offset (some name) head rest
            refine ⟨List.cons_ne_nil _ _, ?_⟩
            rw [List.append_assoc, List.cons_append]
            refine .cons around ?_
            rw [List.map_append]
            exact named
  | closeParen =>
      cases pending with
      | nil => cases taken
      | @cons current outer before earlier around holds =>
          simp only [Progress.step, OpenCall.close] at taken
          split at taken
          · cases taken
          · cases taken
          · rename_i function begun nameless
            cases taken
            rw [List.append_assoc, List.cons_append]
            apply around.deliver
            rw [List.map_cons, List.map_append]
            generalize earlier.map PlacedToken.token = tokens at holds
            cases holds with
            | headless offset => cases begun
            | @begun offset head arguments held ofFunction ofArguments derived rest =>
                cases begun
                cases nameless
                rw [nameTokens_none, List.append_nil, List.append_assoc]
                exact .call derived rest

theorem Pending.derives (pending : Pending calls before)
    (read : readTokens calls rest = .ok expr) :
    Derives expr ((before ++ rest).map PlacedToken.token) := by
  induction rest generalizing calls before with
  | nil =>
      rw [readTokens.eq_def] at read
      cases pending with
      | nil => cases read
      | cons around holds =>
          dsimp only at read
          split at read <;> cases read
  | cons next rest ih =>
      have reached := @Pending.step _ _ next pending
      rw [readTokens_cons] at read
      cases taken : Progress.step calls next with
      | error err =>
          rw [taken] at read
          cases read
      | ok progress =>
          have here := reached taken
          rw [taken] at read
          cases progress with
          | inside deeper =>
              have derived := ih here.2 read
              rw [List.append_assoc] at derived
              exact derived
          | complete found =>
              cases rest with
              | nil =>
                  cases read
                  exact here
              | cons trailing others => cases read

/-- The tokens are read as an expression exactly when the grammar derives them as that. -/
theorem derives_iff {placed : List PlacedToken} :
    readTokens [] placed = .ok expr ↔ Derives expr (placed.map PlacedToken.token) := by
  constructor
  · intro read
    exact Pending.nil.derives read
  · intro derived
    have read := readTokens_derived derived [] rfl []
    rw [List.append_nil] at read
    exact read

/-! ### Places -/

/-- An error without the place that it carries. -/
def withoutPlace : ParseError → ParseError
  | .unexpectedToken spelling _ => .unexpectedToken spelling 0
  | .unclosedParen _ => .unclosedParen 0
  | .unterminated form _ => .unterminated form 0
  | .trailingInput _ => .trailingInput 0
  | .endOfInput => .endOfInput
  | .danglingName name => .danglingName name

/-- An open call without the place where it was opened. -/
def OpenCall.withoutPlace (current : OpenCall) : OpenCall :=
  { current with offset := 0 }

def Progress.withoutPlaces : Progress → Progress
  | .complete expr => .complete expr
  | .inside calls => .inside (calls.map OpenCall.withoutPlace)

theorem withoutPlaces_deliver (expr : Expr) (calls : List OpenCall) :
    (Progress.deliver expr calls).withoutPlaces =
      Progress.deliver expr (calls.map OpenCall.withoutPlace) := by
  cases calls with
  | nil => rfl
  | cons innermost outer =>
      obtain ⟨offset, function, arguments, name⟩ := innermost
      cases function <;> rfl

theorem step_withoutPlaces (calls : List OpenCall) (next : PlacedToken) :
    Progress.step (calls.map OpenCall.withoutPlace) { next with offset := 0 } =
      ((Progress.step calls next).mapError withoutPlace).map Progress.withoutPlaces := by
  obtain ⟨token, offset⟩ := next
  cases token with
  | openParen => rfl
  | text content => exact congrArg Except.ok (withoutPlaces_deliver _ calls).symm
  | quotedSymbol name => exact congrArg Except.ok (withoutPlaces_deliver _ calls).symm
  | atom spelling => exact congrArg Except.ok (withoutPlaces_deliver _ calls).symm
  | argumentName name =>
      cases calls with
      | nil => rfl
      | cons innermost outer =>
          obtain ⟨place, function, arguments, held⟩ := innermost
          cases function with
          | none => rfl
          | some function => cases held <;> rfl
  | closeParen =>
      cases calls with
      | nil => rfl
      | cons innermost outer =>
          obtain ⟨place, function, arguments, held⟩ := innermost
          cases function with
          | none => rfl
          | some function =>
              cases held with
              | some name => rfl
              | none => exact congrArg Except.ok (withoutPlaces_deliver _ outer).symm

/-- Reading goes the same way wherever the tokens stand. -/
theorem readTokens_withoutPlaces (calls : List OpenCall) (placed : List PlacedToken) :
    readTokens (calls.map OpenCall.withoutPlace)
        (placed.map fun next => { next with offset := 0 }) =
      (readTokens calls placed).mapError withoutPlace := by
  induction placed generalizing calls with
  | nil =>
      cases calls with
      | nil => rfl
      | cons innermost outer =>
          obtain ⟨place, function, arguments, held⟩ := innermost
          cases held <;> rfl
  | cons next rest ih =>
      rw [List.map_cons, readTokens_cons, readTokens_cons, step_withoutPlaces]
      cases Progress.step calls next with
      | error err => rfl
      | ok progress =>
          cases progress with
          | inside deeper => exact ih deeper
          | complete expr => cases rest <;> rfl

/-- Tokens that differ in their places only are read alike, up to the places in errors. -/
theorem readTokens_congr {first second : List PlacedToken}
    (same : first.map PlacedToken.token = second.map PlacedToken.token) :
    (readTokens [] first).mapError withoutPlace = (readTokens [] second).mapError withoutPlace := by
  have bare (placed : List PlacedToken) : placed.map (fun next => { next with offset := 0 }) =
      (placed.map PlacedToken.token).map fun token => { token, offset := 0 } := by
    rw [List.map_map]
    rfl
  have one := readTokens_withoutPlaces [] first
  have other := readTokens_withoutPlaces [] second
  rw [bare, same] at one
  rw [bare] at other
  exact one.symm.trans other

end ValueChannels.Expr
