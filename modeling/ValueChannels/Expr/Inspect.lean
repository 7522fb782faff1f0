import ValueChannels.Expr.Basic
import ValueChannels.Number.Numeral
import ValueChannels.Text.Quoted

/-!
The inspection text of expressions, which shows every constructor and field.
-/

namespace ValueChannels

def Double.inspect (x : Double) : String :=
  String.ofList (x.written .literal)

def Constant.inspect : Constant → String
  | .null => "Null"
  | .logical b => Text.tagged "Logical" (Text.inspectBool b)
  | .integer n => Text.tagged "Integer" (toString n.toInt)
  | .double x => Text.tagged "Double" x.inspect
  | .text content => Text.tagged "Str" (Text.quoted content)

def Expr.inspectName : Option String → String
  | some name => Text.tagged "Some" (Text.quoted name)
  | none => "None"

mutual

/-- The inspection text behind a text that is already written. That text is extended and never
copied, however deep the calls nest. -/
def Expr.inspectAfter (written : String) : Expr → String
  | .symbol name => written ++ Text.tagged "Symbol" (Text.quoted name)
  | .constant value => written ++ Text.tagged "Constant" value.inspect
  | .call function arguments =>
      let opened := Expr.inspectAfter (written ++ "Call \x7b function: ") function
      Expr.inspectArgumentsAfter (opened ++ ", args: [") arguments ++ "] \x7d"

def Expr.inspectArgumentsAfter (written : String) : List (Argument Expr) → String
  | [] => written
  | argument :: rest =>
      let named := written ++ "Arg \x7b name: " ++ Expr.inspectName argument.name ++ ", value: "
      let shown := Expr.inspectAfter named argument.value ++ " \x7d"
      Expr.inspectArgumentsAfter (if rest.isEmpty then shown else shown ++ ", ") rest

end

def Expr.inspect (expr : Expr) : String :=
  Expr.inspectAfter "" expr

end ValueChannels
