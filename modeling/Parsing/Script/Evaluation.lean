import Parsing.Script.Operation

/-!
# Evaluation of expressions

Arguments are evaluated from left to right and before the function, and a function takes all of
its arguments at once.  Functions can be passed to themselves, so evaluation is bounded by a
depth of nesting.
-/

namespace Parsing.Script

/-- Evaluates an expression that nests no deeper than `depth`. -/
def evalWithin : (depth : Nat) → Scope → Expr → Except Exception Value
  | 0, _, _ => .error .tooDeep
  | depth + 1, scope, expr =>
    match expr with
    | .none => .ok .none
    | .bool value => .ok (.bool value)
    | .int value => .ok (.int value)
    | .str value => .ok (.str value)
    | .list items => do return .list (← items.mapM (evalWithin depth scope))
    | .tuple items => do return .tuple (← items.mapM (evalWithin depth scope))
    | .loop state => do return .loop (← evalWithin depth scope state)
    | .done result => do return .done (← evalWithin depth scope result)
    | .var name =>
      match scope.lookup name with
      | some value => .ok value
      | none => .error .missingKey
    | .lambda params body => .ok (.closure params body scope)
    | .operation operation => .ok (.operation operation)
    | .call function args => do
      let args ← args.mapM (evalWithin depth scope)
      match ← evalWithin depth scope function with
      | .operation operation => operation.apply args
      | .closure params body scope =>
        if params.length = args.length then
          evalWithin depth ((params.zip args).reverse ++ scope) body
        else .error .mismatch
      | _ => .error .mismatch
    | .cond test yes no => do
      if (← evalWithin depth scope test).holds then evalWithin depth scope yes
      else evalWithin depth scope no

/-- How deep evaluation may nest. -/
def depthLimit : Nat := 100000

/-- Evaluates an expression. -/
def Expr.eval (scope : Scope) (expr : Expr) : Except Exception Value :=
  evalWithin depthLimit scope expr

/-- Calls a function. -/
def Value.call (function : Value) (args : List Value) : Except Exception Value :=
  match function with
  | .operation op => op.apply args
  | .closure params body scope =>
    if params.length = args.length then body.eval ((params.zip args).reverse ++ scope)
    else .error .mismatch
  | _ => .error .mismatch

end Parsing.Script
