import Stacklang.Program

namespace Stacklang

mutual

/-- The expression with a new name for each name: those that are used, those that `let` and
parameters bind, and those that function literals carry. -/
def Expr.rename (newName : String → String) : Expr → Expr
  | .ident name => .ident (newName name)
  | .integer value => .integer value
  | .boolean value => .boolean value
  | .string text => .string text
  | .array items => .array (Expr.renameAll newName items)
  | .hash pairs => .hash (Expr.renamePairs newName pairs)
  | .unary op operand => .unary op (operand.rename newName)
  | .binary op left right => .binary op (left.rename newName) (right.rename newName)
  | .index container index => .index (container.rename newName) (index.rename newName)
  | .cond condition consequence none =>
      .cond (condition.rename newName) (Block.rename newName consequence) none
  | .cond condition consequence (some alternative) =>
      .cond (condition.rename newName) (Block.rename newName consequence)
        (some (Block.rename newName alternative))
  | .function name parameters body =>
      .function (name.map newName) (parameters.map newName) (Block.rename newName body)
  | .call callee arguments => .call (callee.rename newName) (Expr.renameAll newName arguments)

def Expr.renameAll (newName : String → String) : List Expr → List Expr
  | [] => []
  | expr :: rest => expr.rename newName :: Expr.renameAll newName rest

def Expr.renamePairs (newName : String → String) : List (Expr × Expr) → List (Expr × Expr)
  | [] => []
  | (key, value) :: rest =>
      (key.rename newName, value.rename newName) :: Expr.renamePairs newName rest

def Stmt.rename (newName : String → String) : Stmt → Stmt
  | .bind name value => .bind (newName name) (value.rename newName)
  | .ret value => .ret (value.rename newName)
  | .expr value => .expr (value.rename newName)

def Block.rename (newName : String → String) : List Stmt → List Stmt
  | [] => []
  | stmt :: rest => stmt.rename newName :: Block.rename newName rest

end

theorem Expr.length_renameAll (newName : String → String) (items : List Expr) :
    (Expr.renameAll newName items).length = items.length := by
  induction items with
  | nil => rfl
  | cons item items ih => exact congrArg (· + 1) ih

theorem Expr.renamePairs_eq (newName : String → String) (pairs : List (Expr × Expr)) :
    Expr.renamePairs newName pairs =
      pairs.map fun pair => (pair.1.rename newName, pair.2.rename newName) := by
  induction pairs with
  | nil => rfl
  | cons pair pairs ih => exact congrArg (_ :: ·) ih

def Program.rename (newName : String → String) (program : Program) : Program :=
  ⟨Block.rename newName program.statements⟩

mutual

/-- Whether no name occurs in the expression. A name that a function literal carries is that of the
`let` whose value it is, so it counts. -/
def Expr.nameless : Expr → Bool
  | .ident _ => false
  | .integer _ | .boolean _ | .string _ => true
  | .array items => Expr.allNameless items
  | .hash pairs => Expr.pairsNameless pairs
  | .unary _ operand => operand.nameless
  | .binary _ left right => left.nameless && right.nameless
  | .index container index => container.nameless && index.nameless
  | .cond condition consequence none => condition.nameless && Block.nameless consequence
  | .cond condition consequence (some alternative) =>
      condition.nameless && Block.nameless consequence && Block.nameless alternative
  | .function name parameters body => name.isNone && parameters.isEmpty && Block.nameless body
  | .call callee arguments => callee.nameless && Expr.allNameless arguments

def Expr.allNameless : List Expr → Bool
  | [] => true
  | expr :: rest => expr.nameless && Expr.allNameless rest

def Expr.pairsNameless : List (Expr × Expr) → Bool
  | [] => true
  | (key, value) :: rest => key.nameless && value.nameless && Expr.pairsNameless rest

def Stmt.nameless : Stmt → Bool
  | .bind .. => false
  | .ret value => value.nameless
  | .expr value => value.nameless

def Block.nameless : List Stmt → Bool
  | [] => true
  | stmt :: rest => stmt.nameless && Block.nameless rest

end

mutual

def Expr.keysNameless : Expr → Bool
  | .ident _ | .integer _ | .boolean _ | .string _ => true
  | .array items => Expr.allKeysNameless items
  | .hash pairs => Expr.pairsKeysNameless pairs
  | .unary _ operand => operand.keysNameless
  | .binary _ left right => left.keysNameless && right.keysNameless
  | .index container index => container.keysNameless && index.keysNameless
  | .cond condition consequence none => condition.keysNameless && Block.keysNameless consequence
  | .cond condition consequence (some alternative) =>
      condition.keysNameless && Block.keysNameless consequence && Block.keysNameless alternative
  | .function _ _ body => Block.keysNameless body
  | .call callee arguments => callee.keysNameless && Expr.allKeysNameless arguments

def Expr.allKeysNameless : List Expr → Bool
  | [] => true
  | expr :: rest => expr.keysNameless && Expr.allKeysNameless rest

def Expr.pairsKeysNameless : List (Expr × Expr) → Bool
  | [] => true
  | (key, value) :: rest =>
      key.nameless && key.keysNameless && value.keysNameless && Expr.pairsKeysNameless rest

def Stmt.keysNameless : Stmt → Bool
  | .bind _ value => value.keysNameless
  | .ret value => value.keysNameless
  | .expr value => value.keysNameless

def Block.keysNameless : List Stmt → Bool
  | [] => true
  | stmt :: rest => stmt.keysNameless && Block.keysNameless rest

end

def Program.keysNameless (program : Program) : Bool :=
  Block.keysNameless program.statements

section Nameless

variable {newName : String → String}

mutual

theorem Expr.rename_nameless : ∀ expr : Expr, expr.nameless = true → expr.rename newName = expr
  | .integer _, _ | .boolean _, _ | .string _, _ => rfl
  | .array items, hnameless => congrArg Expr.array (Expr.renameAll_nameless items hnameless)
  | .hash pairs, hnameless => congrArg Expr.hash (Expr.renamePairs_nameless pairs hnameless)
  | .unary op operand, hnameless =>
      congrArg (Expr.unary op) (Expr.rename_nameless operand hnameless)
  | .binary op left right, hnameless => by
      obtain ⟨hleft, hright⟩ := Bool.and_eq_true_iff.mp hnameless
      rw [Expr.rename, Expr.rename_nameless left hleft, Expr.rename_nameless right hright]
  | .index container index, hnameless => by
      obtain ⟨hcontainer, hindex⟩ := Bool.and_eq_true_iff.mp hnameless
      rw [Expr.rename, Expr.rename_nameless container hcontainer,
        Expr.rename_nameless index hindex]
  | .cond condition consequence none, hnameless => by
      obtain ⟨hcondition, hconsequence⟩ := Bool.and_eq_true_iff.mp hnameless
      rw [Expr.rename, Expr.rename_nameless condition hcondition,
        Block.rename_nameless consequence hconsequence]
  | .cond condition consequence (some alternative), hnameless => by
      obtain ⟨hfirst, halternative⟩ := Bool.and_eq_true_iff.mp hnameless
      obtain ⟨hcondition, hconsequence⟩ := Bool.and_eq_true_iff.mp hfirst
      rw [Expr.rename, Expr.rename_nameless condition hcondition,
        Block.rename_nameless consequence hconsequence,
        Block.rename_nameless alternative halternative]
  | .function name parameters body, hnameless => by
      obtain ⟨hhead, hbody⟩ := Bool.and_eq_true_iff.mp hnameless
      obtain ⟨hname, hparameters⟩ := Bool.and_eq_true_iff.mp hhead
      rw [Option.isNone_iff_eq_none] at hname
      rw [List.isEmpty_iff] at hparameters
      subst hname hparameters
      rw [Expr.rename, Block.rename_nameless body hbody]
      rfl
  | .call callee arguments, hnameless => by
      obtain ⟨hcallee, harguments⟩ := Bool.and_eq_true_iff.mp hnameless
      rw [Expr.rename, Expr.rename_nameless callee hcallee,
        Expr.renameAll_nameless arguments harguments]

theorem Expr.renameAll_nameless : ∀ items : List Expr, Expr.allNameless items = true →
    Expr.renameAll newName items = items
  | [], _ => rfl
  | item :: items, hnameless => by
      obtain ⟨hitem, hitems⟩ := Bool.and_eq_true_iff.mp hnameless
      rw [Expr.renameAll, Expr.rename_nameless item hitem, Expr.renameAll_nameless items hitems]

theorem Expr.renamePairs_nameless : ∀ pairs : List (Expr × Expr),
    Expr.pairsNameless pairs = true → Expr.renamePairs newName pairs = pairs
  | [], _ => rfl
  | (key, value) :: pairs, hnameless => by
      obtain ⟨hpair, hpairs⟩ := Bool.and_eq_true_iff.mp hnameless
      obtain ⟨hkey, hvalue⟩ := Bool.and_eq_true_iff.mp hpair
      rw [Expr.renamePairs, Expr.rename_nameless key hkey, Expr.rename_nameless value hvalue,
        Expr.renamePairs_nameless pairs hpairs]

theorem Stmt.rename_nameless : ∀ stmt : Stmt, stmt.nameless = true → stmt.rename newName = stmt
  | .ret value, hnameless => congrArg Stmt.ret (Expr.rename_nameless value hnameless)
  | .expr value, hnameless => congrArg Stmt.expr (Expr.rename_nameless value hnameless)

theorem Block.rename_nameless : ∀ stmts : List Stmt, Block.nameless stmts = true →
    Block.rename newName stmts = stmts
  | [], _ => rfl
  | stmt :: stmts, hnameless => by
      obtain ⟨hstmt, hstmts⟩ := Bool.and_eq_true_iff.mp hnameless
      rw [Block.rename, Stmt.rename_nameless stmt hstmt, Block.rename_nameless stmts hstmts]

end

end Nameless

end Stacklang
