/-
Equality of clauses and queries: the same tree with equal leaves. Parameters are compared without their identity, and
a float that is no number differs from itself.
-/
import SqlTree.Clause

namespace SqlTree

mutual

/-- equality of clauses -/
def Clause.beq : Clause → Clause → Bool
  | .field t n, .field t' n' => t == t' && n == n'
  | .allFields t, .allFields t' => t == t'
  | .constant v, .constant v' => v == v'
  | .param p, .param p' => p == p'
  | .compare l o r, .compare l' o' r' => o == o' && l.beq l' && r.beq r'
  | .isNull c n, .isNull c' n' => n == n' && c.beq c'
  | .inList c is n, .inList c' is' n' => n == n' && c.beq c' && Clause.beqAll is is'
  | .between c l h, .between c' l' h' => c.beq c' && l.beq l' && h.beq h'
  | .anyRow s, .anyRow s' => s.beq s'
  | .logic l o r, .logic l' o' r' => o == o' && l.beq l' && r.beq r'
  | .not c, .not c' => c.beq c'
  | .aggregate f a d, .aggregate f' a' d' => f == f' && d == d' && Clause.beqOption a a'
  | .function n as, .function n' as' => n == n' && Clause.beqAll as as'
  | .builtin f, .builtin f' => f == f'
  | .concat ps, .concat ps' => Clause.beqAll ps ps'
  | .cast c t, .cast c' t' => t == t' && c.beq c'
  | .calc l o r, .calc l' o' r' => o == o' && l.beq l' && r.beq r'
  | .aliased c a, .aliased c' a' => a == a' && c.beq c'
  | .table t, .table t' => t == t'
  | .join k t o, .join k' t' o' => k == k' && t.beq t' && o.beq o'
  | .order c d, .order c' d' => d == d' && c.beq c'
  | .assign t v, .assign t' v' => t.beq t' && v.beq v'
  | .subQuery s, .subQuery s' => s.beq s'
  | _, _ => false

def Clause.beqAll : List Clause → List Clause → Bool
  | [], [] => true
  | c :: cs, c' :: cs' => c.beq c' && Clause.beqAll cs cs'
  | _, _ => false

def Clause.beqOption : Option Clause → Option Clause → Bool
  | none, none => true
  | some c, some c' => c.beq c'
  | _, _ => false

def Select.beq : Select → Select → Bool
  | .mk d l f s w g h o, .mk d' l' f' s' w' g' h' o' =>
    d == d' && l == l' && Clause.beqAll f f' && Clause.beqAll s s' && Clause.beqOption w w' && Clause.beqAll g g'
      && Clause.beqOption h h' && Clause.beqAll o o'

end

instance : BEq Clause := ⟨Clause.beq⟩
instance : BEq Select := ⟨Select.beq⟩

end SqlTree
