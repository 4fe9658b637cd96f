import Enablement.Expr

/-!
# Expressions — writing them

An expression is written with a pair of parentheses around every operator
and its operands, so that no reader needs to know how operators bind.
-/

namespace Enablement
namespace Expr

mutual

/-- The expression as a source may write it. -/
def render : Expr → String
  | .const v => v.render
  | .param name => name
  | .unary op x => "(" ++ op.symbol.spelling ++ render x ++ ")"
  | .binary op l r => "(" ++ render l ++ " " ++ op.symbol.spelling ++ " " ++ render r ++ ")"
  | .logical op l r => "(" ++ render l ++ " " ++ op.symbol.spelling ++ " " ++ render r ++ ")"
  | .call name args => name ++ "(" ++ renderAll args ++ ")"

/-- The arguments of a call, with a comma and a blank between neighbours. -/
def renderAll : List Expr → String
  | [] => ""
  | e :: es => render e ++ renderMore es

/-- The arguments of a call after the first. -/
def renderMore : List Expr → String
  | [] => ""
  | e :: es => ", " ++ render e ++ renderMore es

end

end Expr
end Enablement
