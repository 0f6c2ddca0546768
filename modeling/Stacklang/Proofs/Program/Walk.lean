import Stacklang.Builtin
import Stacklang.Compile.Error
import Stacklang.Proofs.Program.KeyOrder

namespace Stacklang

/-- Something in a program that is not allowed everywhere, with what decides that. -/
inductive Visit where
  | ident (name : String) (visible : List String)
  | operator (op : BinaryOp)
  | ret (inFunction : Bool)
  deriving Repr, DecidableEq

namespace Visit

def Allowed : Visit → Prop
  | ident name visible => name ∈ visible
  | operator op => op ≠ .lessEqual ∧ op ≠ .greaterEqual
  | ret inFunction => inFunction = true

instance : DecidablePred Allowed
  | ident name visible => inferInstanceAs (Decidable (name ∈ visible))
  | operator op => inferInstanceAs (Decidable (op ≠ .lessEqual ∧ op ≠ .greaterEqual))
  | ret inFunction => inferInstanceAs (Decidable (inFunction = true))

def error : Visit → CompileError
  | ident name _ => .unresolved name
  | operator op => .unknownOperator op.symbol
  | ret _ => .returnOutsideFunction

end Visit

structure Sight where
  /-- The names of the functions around that point, of the top level and of the builtins. -/
  visible : List String
  inFunction : Bool
  deriving Repr, DecidableEq

/-- A way through a stretch of a program: what is visited, and what can be used behind it. -/
abbrev Walk := Sight → List Visit × Sight

namespace Walk

def stay : Walk :=
  fun sight => ([], sight)

def visit (what : Sight → Visit) : Walk :=
  fun sight => ([what sight], sight)

def bind (name : String) : Walk :=
  fun sight => ([], { sight with visible := name :: sight.visible })

def andThen (first second : Walk) : Walk :=
  fun sight => ((first sight).1 ++ (second (first sight).2).1, (second (first sight).2).2)

/-- Into the body of a function and back: what the body binds cannot be used behind it. -/
def inside (name : Option String) (parameters : List String) (body : Walk) : Walk :=
  fun sight => ((body ⟨parameters ++ name.toList ++ sight.visible, true⟩).1, sight)

def inOrder : List (String × Walk) → Walk
  | [] => stay
  | (_, pair) :: rest => pair.andThen (inOrder rest)

@[simp] theorem andThen_stay (walk : Walk) : walk.andThen stay = walk := by
  funext sight
  exact Prod.ext (List.append_nil _) rfl

end Walk

mutual

def Expr.walk : Expr → Walk
  | .ident name => .visit fun sight => .ident name sight.visible
  | .integer _ | .string _ | .boolean _ => .stay
  | .array items => Expr.walkAll items
  | .hash pairs => .inOrder (Expr.inKeyOrder (Expr.walkPairs pairs))
  | .unary _ operand => operand.walk
  | .binary .less left right => right.walk.andThen left.walk
  | .binary op left right =>
      (Walk.visit fun _ => .operator op).andThen (left.walk.andThen right.walk)
  | .index container index => container.walk.andThen index.walk
  | .cond condition consequence none => condition.walk.andThen (Stmt.walkAll consequence)
  | .cond condition consequence (some alternative) =>
      (condition.walk.andThen (Stmt.walkAll consequence)).andThen (Stmt.walkAll alternative)
  | .function name parameters body => .inside name parameters (Stmt.walkAll body)
  | .call callee arguments => callee.walk.andThen (Expr.walkAll arguments)

def Expr.walkAll : List Expr → Walk
  | [] => .stay
  | expr :: rest => expr.walk.andThen (Expr.walkAll rest)

def Expr.walkPairs : List (Expr × Expr) → List (String × Walk)
  | [] => []
  | (key, value) :: rest => (key.display, key.walk.andThen value.walk) :: Expr.walkPairs rest

def Stmt.walk : Stmt → Walk
  | .expr value => value.walk
  | .bind name value => value.walk.andThen (.bind name)
  | .ret value => (Walk.visit fun sight => .ret sight.inFunction).andThen value.walk

def Stmt.walkAll : List Stmt → Walk
  | [] => .stay
  | stmt :: rest => stmt.walk.andThen (Stmt.walkAll rest)

end

/-- Everything that is visited in a program, where at first the builtins can be used. -/
def Program.visits (program : Program) : List Visit :=
  (Stmt.walkAll program.statements ⟨Builtin.all.map Builtin.name, false⟩).1

namespace Walk

theorem walkPairs_eq (pairs : List (Expr × Expr)) :
    Expr.walkPairs pairs =
      pairs.map fun pair => (pair.1.display, pair.1.walk.andThen pair.2.walk) := by
  induction pairs with
  | nil => rw [Expr.walkPairs, List.map_nil]
  | cons pair rest ih => rw [Expr.walkPairs, ih, List.map_cons]

/-- The pairs are visited in the order of their keys' texts (`Expr.keyOrder_ascending`), and those
with the same text as they are written (`Expr.filter_keyOrder`). -/
theorem walk_hash (pairs : List (Expr × Expr)) :
    (Expr.hash pairs).walk = inOrder (Expr.walkPairs (Expr.keyOrder pairs)) := by
  rw [Expr.walk, walkPairs_eq, Expr.inKeyOrder_map, ← walkPairs_eq]

theorem walk_binary {op : BinaryOp} (hless : op ≠ .less) (left right : Expr) :
    (Expr.binary op left right).walk =
      (Walk.visit fun _ => .operator op).andThen (left.walk.andThen right.walk) := by
  cases op <;> first | rfl | exact absurd rfl hless

end Walk

namespace Visit

def offence? (visits : List Visit) : Option Visit :=
  visits.find? fun visit => ¬visit.Allowed

theorem offence?_append (first second : List Visit) :
    offence? (first ++ second) = (offence? first).or (offence? second) :=
  List.find?_append ..

theorem offence?_eq_none {visits : List Visit} :
    offence? visits = none ↔ ∀ visit ∈ visits, visit.Allowed := by
  simp [offence?]

end Visit

end Stacklang
