import StatementEngine.Syntax.Tree
import StatementEngine.Value.Equality

/-!
# Equality of scripts

**Trees are compared node by node**, positions included. Literals are compared by
`Value.identical`, so a tree with a NaN in it is not the same as itself. Function literals are
compared by what is written in them.
-/

namespace StatementEngine

mutual

def Expr.same : Expr → Expr → Bool
  | .literal a, .literal b => a.identical b
  | .variable a, .variable b => a == b
  | .list as, .list bs => sameExprs as bs
  | .binary o a b, .binary p c d => o == p && a.same c && b.same d
  | .index a b, .index c d => a.same c && b.same d
  | .call f as, .call g bs => f.same g && sameExprs as bs
  | .function f, .function g => f.same g
  | .member m a, .member n b => m == n && a == b
  | .fail a, .fail b => a == b
  | .raise a, .raise b => a.same b
  | .set x a, .set y b => x == y && a.same b
  | _, _ => false

def FunctionLiteral.same : FunctionLiteral → FunctionLiteral → Bool
  | ⟨a, ps, body⟩, ⟨b, qs, other⟩ => a == b && ps == qs && sameStmts body other

def Stmt.same : Stmt → Stmt → Bool
  | ⟨p, f⟩, ⟨q, g⟩ => p == q && f.same g

def Form.same : Form → Form → Bool
  | .expr a, .expr b => a.same b
  | .ifChain as e, .ifChain bs f => sameBranches as bs && sameBlocks e f
  | .tryCatch a h e, .tryCatch b i f => sameStmts a b && sameHandlers h i && sameBlocks e f
  | .forIn xs a b, .forIn ys c d => xs == ys && a.same c && sameStmts b d
  | .forClauses i c u b, .forClauses j d v e =>
    sameInits i j && sameOptions c d && sameOptions u v && sameStmts b e
  | .loop c a, .loop d b => sameOptions c d && sameStmts a b
  | .breakLoop, .breakLoop => true
  | .continueLoop, .continueLoop => true
  | .returnValues as, .returnValues bs => sameExprs as bs
  | .throwValue a, .throwValue b => a.same b
  | .moduleBlock m a, .moduleBlock n b => m == n && sameStmts a b
  | .switch a cs e, .switch b ds f => a.same b && sameCases cs ds && sameBlocks e f
  | .var xs as, .var ys bs => xs == ys && sameExprs as bs
  | .assign ts o as, .assign us p bs => sameTargets ts us && o == p && sameExprs as bs
  | .assignFound ts a, .assignFound us b => sameTargets ts us && a.same b
  | .spawn a, .spawn b => a.same b
  | _, _ => false

def Branch.same : Branch → Branch → Bool
  | ⟨p, a, b⟩, ⟨q, c, d⟩ => p == q && a.same c && sameStmts b d

def Handler.same : Handler → Handler → Bool
  | ⟨p, x, a⟩, ⟨q, y, b⟩ => p == q && x == y && sameStmts a b

def Case.same : Case → Case → Bool
  | ⟨p, as, b⟩, ⟨q, cs, d⟩ => p == q && sameExprs as cs && sameStmts b d

def Target.same : Target → Target → Bool
  | .variable p x, .variable q y => p == q && x == y
  | .place p a, .place q b => p == q && a.same b
  | _, _ => false

def sameExprs : List Expr → List Expr → Bool
  | [], [] => true
  | a :: as, b :: bs => a.same b && sameExprs as bs
  | _, _ => false

def sameStmts : List Stmt → List Stmt → Bool
  | [], [] => true
  | a :: as, b :: bs => a.same b && sameStmts as bs
  | _, _ => false

def sameBranches : List Branch → List Branch → Bool
  | [], [] => true
  | a :: as, b :: bs => a.same b && sameBranches as bs
  | _, _ => false

def sameCases : List Case → List Case → Bool
  | [], [] => true
  | a :: as, b :: bs => a.same b && sameCases as bs
  | _, _ => false

def sameTargets : List Target → List Target → Bool
  | [], [] => true
  | a :: as, b :: bs => a.same b && sameTargets as bs
  | _, _ => false

def sameOptions : Option Expr → Option Expr → Bool
  | none, none => true
  | some a, some b => a.same b
  | _, _ => false

def sameInits : Option Stmt → Option Stmt → Bool
  | none, none => true
  | some a, some b => a.same b
  | _, _ => false

def sameHandlers : Option Handler → Option Handler → Bool
  | none, none => true
  | some a, some b => a.same b
  | _, _ => false

def sameBlocks : Option (List Stmt) → Option (List Stmt) → Bool
  | none, none => true
  | some a, some b => sameStmts a b
  | _, _ => false

end

end StatementEngine
