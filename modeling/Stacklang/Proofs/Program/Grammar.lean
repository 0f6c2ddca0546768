import Mathlib.Data.List.Forall2
import Stacklang.Proofs.Program.Ending

namespace Stacklang

def UnaryOp.token : UnaryOp → Token
  | not => .bang
  | negate => .minus

def BinaryOp.token : BinaryOp → Token
  | add => .plus
  | sub => .minus
  | mul => .star
  | div => .slash
  | less => .less
  | greater => .greater
  | equal => .equal
  | notEqual => .notEqual
  | lessEqual => .lessEqual
  | greaterEqual => .greaterEqual

/-- The levels of the grammar. What an expression of a level has for its parts holds at least as
tightly, or is in brackets. -/
abbrev Tier := Nat

namespace Tier

def lowest : Tier := 0

/-- That of signs, above the four levels of the operators between two operands. -/
def unary : Tier := 5

def call : Tier := 6
def index : Tier := 7

end Tier

def BinaryOp.tier : BinaryOp → Tier
  | equal | notEqual => 1
  | less | greater | lessEqual | greaterEqual => 2
  | add | sub => 3
  | mul | div => 4

def Token.parens (tokens : List Token) : List Token :=
  .leftParen :: tokens ++ [.rightParen]

def Token.brackets (tokens : List Token) : List Token :=
  .leftBracket :: tokens ++ [.rightBracket]

def Token.braces (tokens : List Token) : List Token :=
  .leftBrace :: tokens ++ [.rightBrace]

def Token.separated : List (List Token) → List Token
  | [] => []
  | piece :: pieces => piece ++ pieces.flatMap (.comma :: ·)

def Token.names (names : List String) : List Token :=
  separated (names.map fun name => [.ident name])

mutual

/-- The tokens write the expression where what is written has to hold at least as tightly as the
level. A function literal is written without a name. -/
inductive Expr.Derives : Tier → Expr → List Token → Prop
  | ident {level : Tier} {name : String} : Expr.Derives level (.ident name) [.ident name]
  | integer {level : Tier} {value : Int64} : Expr.Derives level (.integer value) [.integer value]
  | string {level : Tier} {text : String} : Expr.Derives level (.string text) [.string text]
  | trueWord {level : Tier} : Expr.Derives level (.boolean true) [.trueWord]
  | falseWord {level : Tier} : Expr.Derives level (.boolean false) [.falseWord]
  | array {level : Tier} {items : List Expr} {pieces : List (List Token)} :
      List.Forall₂ (Expr.Derives .lowest) items pieces →
      Expr.Derives level (.array items) (Token.brackets (Token.separated pieces))
  | hash {level : Tier} {pairs : List (Expr × Expr)} {tokens : List Token} :
      Expr.DerivesPairs pairs tokens →
      Expr.Derives level (.hash pairs) (Token.braces tokens)
  | unary {level : Tier} {op : UnaryOp} {operand : Expr} {tokens : List Token} :
      level ≤ .unary → Expr.Derives .unary operand tokens →
      Expr.Derives level (.unary op operand) (op.token :: tokens)
  | binary {level : Tier} {op : BinaryOp} {left right : Expr} {first second : List Token} :
      level ≤ op.tier → Expr.Derives op.tier left first →
      Expr.Derives (op.tier + 1) right second →
      Expr.Derives level (.binary op left right) (first ++ op.token :: second)
  | index {level : Tier} {container index : Expr} {first second : List Token} :
      Expr.Derives .index container first → Expr.Derives .lowest index second →
      Expr.Derives level (.index container index) (first ++ Token.brackets second)
  | call {level : Tier} {callee : Expr} {arguments : List Expr} {first : List Token}
      {pieces : List (List Token)} :
      Expr.Derives .call callee first → List.Forall₂ (Expr.Derives .lowest) arguments pieces →
      Expr.Derives level (.call callee arguments)
        (first ++ Token.parens (Token.separated pieces))
  | cond {level : Tier} {condition : Expr} {consequence : Block} {test body : List Token} :
      Expr.Derives .lowest condition test → Block.Derives consequence body →
      Expr.Derives level (.cond condition consequence none)
        (.ifWord :: Token.parens test ++ Token.braces body)
  | condElse {level : Tier} {condition : Expr} {consequence alternative : Block}
      {test body other : List Token} :
      Expr.Derives .lowest condition test → Block.Derives consequence body →
      Block.Derives alternative other →
      Expr.Derives level (.cond condition consequence (some alternative))
        (.ifWord :: Token.parens test ++ Token.braces body ++ .elseWord :: Token.braces other)
  | function {level : Tier} {parameters : List String} {body : Block} {tokens : List Token} :
      Block.Derives body tokens →
      Expr.Derives level (.function none parameters body)
        (.fnWord :: Token.parens (Token.names parameters) ++ Token.braces tokens)
  | group {level : Tier} {expr : Expr} {tokens : List Token} :
      Expr.Derives .lowest expr tokens → Expr.Derives level expr (Token.parens tokens)

/-- Pairs with commas between them; another comma may follow the last one. -/
inductive Expr.DerivesPairs : List (Expr × Expr) → List Token → Prop
  | nil : Expr.DerivesPairs [] []
  | last {key value : Expr} {first second : List Token} :
      Expr.Derives .lowest key first → Expr.Derives .lowest value second →
      Expr.DerivesPairs [(key, value)] (first ++ .colon :: second)
  | cons {key value : Expr} {pairs : List (Expr × Expr)} {first second tokens : List Token} :
      Expr.Derives .lowest key first → Expr.Derives .lowest value second →
      Expr.DerivesPairs pairs tokens →
      Expr.DerivesPairs ((key, value) :: pairs) (first ++ .colon :: second ++ .comma :: tokens)

inductive Stmt.Derives : Stmt → List Token → Prop
  | bind {name : String} {value : Expr} {tokens : List Token} :
      Expr.Derives .lowest value tokens →
      Stmt.Derives (.bind name (value.named name)) (.letWord :: .ident name :: .assign :: tokens)
  | ret {value : Expr} {tokens : List Token} :
      Expr.Derives .lowest value tokens → Stmt.Derives (.ret value) (.returnWord :: tokens)
  | expr {value : Expr} {tokens : List Token} :
      Expr.Derives .lowest value tokens → Stmt.Derives (.expr value) tokens

/-- Statements with any number of semicolons before, between and behind them. -/
inductive Block.Derives : Block → List Token → Prop
  | nil : Block.Derives [] []
  | semicolon {statements : Block} {tokens : List Token} :
      Block.Derives statements tokens → Block.Derives statements (.semicolon :: tokens)
  | cons {statement : Stmt} {statements : Block} {first second : List Token} :
      Stmt.Derives statement first → Block.Derives statements second →
      Block.Derives (statement :: statements) (first ++ second)

end

theorem Expr.Derives.mono {level tighter : Tier} {expr : Expr} {tokens : List Token}
    (hderives : expr.Derives tighter tokens) (hlevel : level ≤ tighter) :
    expr.Derives level tokens := by
  cases hderives with
  | ident => exact .ident
  | integer => exact .integer
  | string => exact .string
  | trueWord => exact .trueWord
  | falseWord => exact .falseWord
  | array hitems => exact .array hitems
  | hash hpairs => exact .hash hpairs
  | unary htighter hoperand => exact .unary (Nat.le_trans hlevel htighter) hoperand
  | binary htighter hleft hright => exact .binary (Nat.le_trans hlevel htighter) hleft hright
  | index hcontainer hindex => exact .index hcontainer hindex
  | call hcallee harguments => exact .call hcallee harguments
  | cond hcondition hconsequence => exact .cond hcondition hconsequence
  | condElse hcondition hconsequence halternative =>
      exact .condElse hcondition hconsequence halternative
  | function hbody => exact .function hbody
  | group hinner => exact .group hinner

theorem Block.Derives.semicolons {statements : Block} {tokens : List Token}
    (hderives : Block.Derives statements tokens) (number : Nat) :
    Block.Derives statements (List.replicate number .semicolon ++ tokens) := by
  induction number with
  | zero => exact hderives
  | succ number ih => exact .semicolon ih

theorem Token.separated_cons {piece : List Token} {pieces : List (List Token)}
    (hmore : pieces ≠ []) :
    separated (piece :: pieces) = piece ++ .comma :: separated pieces := by
  cases pieces with
  | nil => exact absurd rfl hmore
  | cons next pieces => rfl

theorem Token.names_cons {name : String} {names : List String} (hmore : names ≠ []) :
    Token.names (name :: names) = .ident name :: .comma :: Token.names names :=
  separated_cons (by simpa using hmore)

def Connector.token : Connector → Token
  | binary op => op.token
  | call => .leftParen
  | index => .leftBracket

theorem Token.eq_of_connector? {token : Token} {connector : Connector}
    (hconnector : token.connector? = some connector) : token = connector.token := by
  cases token <;> cases hconnector <;> rfl

theorem BinaryOp.level_eq_tier (op : BinaryOp) : op.level = op.tier := by
  cases op <;> rfl

theorem Expr.Derives.operator {op : BinaryOp} {left right : Expr} {first second : List Token}
    (hleft : left.Derives op.level first) (hright : right.Derives (op.level + 1) second) :
    (Expr.binary op left right).Derives op.level (first ++ op.token :: second) := by
  rw [BinaryOp.level_eq_tier] at hleft hright ⊢
  exact .binary (Nat.le_refl _) hleft hright

theorem BinaryOp.tier_lt (op : BinaryOp) : op.tier < .unary := by
  cases op <;> decide

theorem BinaryOp.level_lt (op : BinaryOp) : op.level < .unary :=
  op.level_eq_tier ▸ op.tier_lt

/-- How tightly an expression holds at least that has been read at the level: more tightly than the
level, except that behind a sign there may be another sign. -/
def Level.above (level : Level) : Level :=
  min (level + 1) .unary

theorem Level.above_le {level tighter : Level} (hlevel : level < tighter) :
    level.above ≤ tighter :=
  Nat.le_trans (Nat.min_le_left ..) hlevel

theorem BinaryOp.above_level (op : BinaryOp) : op.level.above = op.level + 1 :=
  Nat.min_eq_left op.level_lt

namespace Parse

/-- The next token does not join what stands before it more tightly than the level. -/
def Stops (level : Level) (tokens : List Located) : Prop :=
  ∀ located ∈ tokens.head?, ∀ connector ∈ located.token.connector?, connector.level ≤ level

theorem stops_nil (level : Level) : Stops level [] := by
  simp [Stops]

theorem stops_cons {level : Level} {located : Located} {tokens : List Located} :
    Stops level (located :: tokens) ↔
      ∀ connector, located.token.connector? = some connector → connector.level ≤ level := by
  simp [Stops]

theorem stops_index (tokens : List Located) : Stops .index tokens := by
  intro located _ connector _
  cases connector with
  | binary op => cases op <;> decide
  | call => decide
  | index => decide

theorem Spans.parens {tokens rest : List Located} {used : List Token} {first last : Position}
    (hspans : Spans tokens (⟨.rightParen, last⟩ :: rest) used) :
    Spans (⟨.leftParen, first⟩ :: tokens) rest (Token.parens used) :=
  (hspans.append spans_one).cons

theorem spans_skipSemicolons (tokens : List Located) :
    ∃ number, Spans tokens (skipSemicolons tokens) (List.replicate number .semicolon) := by
  induction tokens with
  | nil => exact ⟨0, spans_nil.mpr rfl⟩
  | cons located tokens ih =>
      obtain ⟨token, position⟩ := located
      by_cases hsemicolon : token = .semicolon
      · obtain ⟨number, hspans⟩ := ih
        subst hsemicolon
        exact ⟨number + 1, hspans.cons⟩
      · refine ⟨0, spans_nil.mpr ?_⟩
        simp [skipSemicolons, hsemicolon]

theorem parameters_follows {start : List Located} {done names : List String}
    {tokens rest : List Located} {within : tokens.length ≤ start.length}
    (hgives : (parameters done tokens within).Gives names rest) :
    ∃ fresh, fresh ≠ [] ∧ names = done.reverse ++ fresh ∧
      Spans tokens rest (Token.names fresh ++ [.rightParen]) := by
  induction hlength : tokens.length using Nat.strongRecOn generalizing done tokens with
  | ind length ih =>
      rw [parameters.eq_def] at hgives
      simp only [andThen_gives, identifier_gives] at hgives
      obtain ⟨name, _, ⟨position, rfl⟩, hgives⟩ := hgives
      subst hlength
      split at hgives
      · next after _ _ =>
          have hless : after.length < after.length + 1 + 1 := by omega
          obtain ⟨fresh, hfresh, rfl, hspans⟩ := ih after.length hless hgives rfl
          refine ⟨name :: fresh, by simp, by simp, ?_⟩
          rw [Token.names_cons hfresh]
          exact hspans.cons.cons
      · simp only [andThen_gives, expect_gives, done_gives] at hgives
        obtain ⟨_, _, ⟨closePosition, rfl⟩, rfl, rfl⟩ := hgives
        exact ⟨[name], by simp, by simp, (Spans.cons (spans_nil.mpr rfl)).cons⟩

/-- What is read from fewer tokens follows the grammar. -/
structure Below (bound : Nat) : Prop where
  expression {level : Level} {tokens rest : List Located} {value : Expr}
    (inside : tokens.length < bound) (hlevel : level ≤ .unary)
    (hgives : (expression level tokens).Gives value rest) :
    ∃ used, Spans tokens rest used ∧ value.Derives level.above used ∧ Stops level rest
  connectors {start : List Located} {level holds : Level} {tokens rest : List Located}
    {left value : Expr} {before : List Token} {shorter : tokens.length < start.length}
    (inside : tokens.length < bound) (hlevel : level ≤ .unary)
    (hgives : (connectors level left tokens shorter).Gives value rest)
    (hleft : left.Derives holds before) (hholds : level.above ≤ holds)
    (hstops : Stops holds tokens) :
    ∃ used, Spans tokens rest used ∧ value.Derives level.above (before ++ used) ∧ Stops level rest
  expressions {start : List Located} {close : Token} {done items : List Expr}
    {tokens rest : List Located} {within : tokens.length ≤ start.length}
    (inside : tokens.length < bound)
    (hgives : (expressions close done tokens within).Gives items rest) :
    ∃ fresh pieces, pieces ≠ [] ∧ items = done.reverse ++ fresh ∧
      List.Forall₂ (Expr.Derives .lowest) fresh pieces ∧
      Spans tokens rest (Token.separated pieces ++ [close])
  pairs {start : List Located} {done entries : List (Expr × Expr)} {tokens rest : List Located}
    {within : tokens.length ≤ start.length} (inside : tokens.length < bound)
    (hgives : (pairs done tokens within).Gives entries rest) :
    ∃ fresh used, entries = done.reverse ++ fresh ∧ Expr.DerivesPairs fresh used ∧
      Spans tokens rest (used ++ [.rightBrace])
  statements {start : List Located} {done result : Block} {tokens rest : List Located}
    {within : tokens.length ≤ start.length} (inside : tokens.length < bound)
    (hgives : (statements done tokens within).Gives result rest) :
    ∃ fresh used, result = done.reverse ++ fresh ∧ Block.Derives fresh used ∧
      Spans tokens rest (used ++ [.rightBrace])
  block {result : Block} {tokens rest : List Located} (inside : tokens.length < bound)
    (hgives : (block tokens).Gives result rest) :
    ∃ used, Block.Derives result used ∧
      Spans tokens rest (Token.braces used)

section Below

variable {tokens rest : List Located}

theorem Below.mono {bound smaller : Nat} (below : Below bound) (hless : smaller ≤ bound) :
    Below smaller where
  expression inside := below.expression (by omega)
  connectors inside := below.connectors (by omega)
  expressions inside := below.expressions (by omega)
  pairs inside := below.pairs (by omega)
  statements inside := below.statements (by omega)
  block inside := below.block (by omega)

theorem Below.lowest {bound : Nat} (below : Below bound) {value : Expr}
    (inside : tokens.length < bound) (hgives : (Parse.expression .lowest tokens).Gives value rest) :
    ∃ used, Spans tokens rest used ∧ value.Derives .lowest used := by
  obtain ⟨used, hspans, hderives, -⟩ := below.expression inside (by decide) hgives
  exact ⟨used, hspans, hderives.mono (Nat.zero_le _)⟩

theorem sign_follows {after : List Located} {position : Position} {op : UnaryOp} {operand : Expr}
    (below : Below (after.length + 1)) (hgives : (expression .unary after).Gives operand rest) :
    ∃ used holds, Spans (⟨op.token, position⟩ :: after) rest used ∧
      (Expr.unary op operand).Derives holds used ∧ Level.unary ≤ holds ∧ Stops holds rest := by
  obtain ⟨used, hspans, hderives, hstops⟩ :=
    below.expression (Nat.lt_succ_self _) (Nat.le_refl _) hgives
  exact ⟨op.token :: used, .unary, hspans.cons, .unary (Nat.le_refl _) hderives, Nat.le_refl _,
    hstops⟩

theorem consequence_follows {condition : Expr} {consequence : Block}
    {afterParen beforeBlock afterBlock : List Located} {position opening closing : Position}
    (below : Below (afterParen.length + 2))
    (hcondition : (expression .lowest afterParen).Gives condition
      (⟨.rightParen, closing⟩ :: beforeBlock))
    (hconsequence : (block beforeBlock).Gives consequence afterBlock) :
    ∃ test body, condition.Derives .lowest test ∧ Block.Derives consequence body ∧
      Spans (⟨.ifWord, position⟩ :: ⟨.leftParen, opening⟩ :: afterParen) afterBlock
        (.ifWord :: Token.parens test ++ Token.braces body) ∧
      afterBlock.length < afterParen.length := by
  have hfirst := hcondition.shorter
  have hsecond := hconsequence.shorter
  simp only [List.length_cons] at hfirst
  obtain ⟨test, htest, hcond⟩ := below.lowest (by omega) hcondition
  obtain ⟨body, hbody, hblock⟩ := below.block (by omega) hconsequence
  exact ⟨test, body, hcond, hbody, (htest.parens.append hblock).cons, by omega⟩

theorem operand_follows {value : Expr} (below : Below tokens.length)
    (hgives : (operand tokens).Gives value rest) :
    ∃ used holds, Spans tokens rest used ∧ value.Derives holds used ∧
      Level.unary ≤ holds ∧ Stops holds rest := by
  have closed {used : List Token} (hspans : Spans tokens rest used)
      (hderives : value.Derives .index used) : ∃ used holds, Spans tokens rest used ∧
        value.Derives holds used ∧ Level.unary ≤ holds ∧ Stops holds rest :=
    ⟨used, .index, hspans, hderives, by decide, stops_index rest⟩
  rw [operand.eq_def] at hgives
  split at hgives
  · obtain ⟨rfl, rfl⟩ := done_gives.mp hgives
    exact closed spans_one .ident
  · obtain ⟨rfl, rfl⟩ := done_gives.mp hgives
    exact closed spans_one .integer
  · obtain ⟨rfl, rfl⟩ := done_gives.mp hgives
    exact closed spans_one .string
  · obtain ⟨rfl, rfl⟩ := done_gives.mp hgives
    exact closed spans_one .trueWord
  · obtain ⟨rfl, rfl⟩ := done_gives.mp hgives
    exact closed spans_one .falseWord
  · simp only [andThen_gives, done_gives] at hgives
    obtain ⟨_, _, hoperand, rfl, rfl⟩ := hgives
    exact @sign_follows _ _ _ .not _ below hoperand
  · simp only [andThen_gives, done_gives] at hgives
    obtain ⟨_, _, hoperand, rfl, rfl⟩ := hgives
    exact @sign_follows _ _ _ .negate _ below hoperand
  · simp only [andThen_gives, expect_gives, done_gives] at hgives
    obtain ⟨_, _, hinner, _, _, ⟨_, rfl⟩, rfl, rfl⟩ := hgives
    obtain ⟨used, hspans, hderives⟩ := below.lowest (Nat.lt_succ_self _) hinner
    exact closed (hspans.append spans_one).cons (.group hderives)
  · simp only [andThen_gives, expect_gives] at hgives
    obtain ⟨_, afterParen, ⟨_, rfl⟩, condition, _, hcondition, _, beforeBlock, ⟨_, rfl⟩,
      consequence, afterBlock, hconsequence, hgives⟩ := hgives
    obtain ⟨test, body, hcond, hbody, hspans, hshorter⟩ :=
      consequence_follows below hcondition hconsequence
    split at hgives
    · simp only [andThen_gives, done_gives] at hgives
      obtain ⟨alternative, _, halternative, rfl, rfl⟩ := hgives
      simp only [List.length_cons] at below hshorter
      obtain ⟨other, hother, hblock⟩ := below.block (by omega) halternative
      exact closed (hspans.append hblock.cons) (.condElse hcond hbody hother)
    · obtain ⟨rfl, rfl⟩ := done_gives.mp hgives
      exact closed hspans (.cond hcond hbody)
  · simp only [andThen_gives, expect_gives] at hgives
    obtain ⟨_, afterParen, ⟨_, rfl⟩, hgives⟩ := hgives
    simp only [List.length_cons] at below
    split at hgives
    · next hclose =>
        obtain ⟨_, _, rfl⟩ := startsWith_iff.mp hclose
        simp only [andThen_gives, done_gives] at hgives
        obtain ⟨body, _, hbody, rfl, rfl⟩ := hgives
        obtain ⟨used, hderives, hspans⟩ :=
          below.block (by simp only [List.length_cons, List.tail_cons]; omega) hbody
        exact closed (Spans.append (Spans.parens (spans_nil.mpr rfl)) hspans).cons
          (.function hderives)
    · simp only [andThen_gives, done_gives] at hgives
      obtain ⟨names, beforeBlock, hnames, body, _, hbody, rfl, rfl⟩ := hgives
      have hshorter := hnames.shorter
      obtain ⟨fresh, -, rfl, hparameters⟩ := parameters_follows hnames
      obtain ⟨used, hderives, hspans⟩ := below.block (by omega) hbody
      exact closed (hparameters.cons.append hspans).cons (.function hderives)
  · split at hgives
    · next hclose =>
        obtain ⟨_, _, rfl⟩ := startsWith_iff.mp hclose
        obtain ⟨rfl, rfl⟩ := done_gives.mp hgives
        exact closed spans_one.cons (.array .nil)
    · simp only [andThen_gives, done_gives] at hgives
      obtain ⟨items, _, hitems, rfl, rfl⟩ := hgives
      obtain ⟨fresh, pieces, -, rfl, hpieces, hspans⟩ :=
        below.expressions (Nat.lt_succ_self _) hitems
      exact closed hspans.cons (.array hpieces)
  · simp only [andThen_gives, done_gives] at hgives
    obtain ⟨entries, _, hentries, rfl, rfl⟩ := hgives
    obtain ⟨fresh, used, rfl, hpairs, hspans⟩ := below.pairs (Nat.lt_succ_self _) hentries
    exact closed hspans.cons (.hash hpairs)
  · exact absurd hgives not_fail_gives

theorem Below.join {bound : Nat} (below : Below bound) {start next : List Located}
    {level holds : Level} {joined value : Expr} {before words : List Token}
    {shorter : next.length < start.length} (inside : next.length < bound) (hlevel : level ≤ .unary)
    (hgives : (Parse.connectors level joined next shorter).Gives value rest)
    (hwords : Spans tokens next words) (hjoined : joined.Derives holds (before ++ words))
    (hholds : level < holds) (hstops : Stops holds next) :
    ∃ used, Spans tokens rest used ∧ value.Derives level.above (before ++ used) ∧
      Stops level rest := by
  obtain ⟨used, hspans, hderives, hrest⟩ :=
    below.connectors inside hlevel hgives hjoined (Level.above_le hholds) hstops
  refine ⟨words ++ used, hwords.append hspans, ?_, hrest⟩
  rw [← List.append_assoc]
  exact hderives

theorem connectors_follows {start : List Located} {level holds : Level} {left value : Expr}
    {before : List Token} {shorter : tokens.length < start.length} (below : Below tokens.length)
    (hlevel : level ≤ .unary) (hgives : (connectors level left tokens shorter).Gives value rest)
    (hleft : left.Derives holds before) (hholds : level.above ≤ holds)
    (hstops : Stops holds tokens) :
    ∃ used, Spans tokens rest used ∧ value.Derives level.above (before ++ used) ∧
      Stops level rest := by
  rw [connectors.eq_def] at hgives
  split at hgives
  · obtain ⟨rfl, rfl⟩ := done_gives.mp hgives
    exact ⟨[], spans_nil.mpr rfl, by simpa using hleft.mono hholds, stops_nil level⟩
  · next located after _ =>
    obtain ⟨token, position⟩ := located
    have hloose := stops_cons.mp hstops
    dsimp only at hgives
    split at hgives
    · next hnone =>
        obtain ⟨rfl, rfl⟩ := done_gives.mp hgives
        refine ⟨[], spans_nil.mpr rfl, by simpa using hleft.mono hholds, stops_cons.mpr ?_⟩
        intro connector hconnector
        rw [hnone] at hconnector
        cases hconnector
    · next connector hconnector =>
      split at hgives
      · next htighter =>
        replace hleft := hleft.mono (hloose connector hconnector)
        obtain rfl := Token.eq_of_connector? hconnector
        simp only [List.length_cons] at below
        split at hgives
        · next op _ =>
            simp only [andThen_gives] at hgives
            obtain ⟨right, next, hright, hgives⟩ := hgives
            obtain ⟨used, hspans, hderives, hnext⟩ :=
              below.expression (Nat.lt_succ_self _) (Nat.le_of_lt op.level_lt) hright
            rw [op.above_level] at hderives
            exact below.join (Nat.lt_succ_of_lt hright.shorter) hlevel hgives hspans.cons
              (.operator hleft hderives) htighter hnext
        · split at hgives
          · next hclose =>
              obtain ⟨_, next, rfl⟩ := startsWith_iff.mp hclose
              have hcall : (Expr.call left []).Derives .index (before ++ _) := .call hleft .nil
              exact below.join (Nat.lt_succ_of_lt (Nat.lt_succ_self _)) hlevel hgives spans_one.cons
                hcall (Nat.lt_succ_of_lt htighter) (stops_index next)
          · simp only [andThen_gives] at hgives
            obtain ⟨arguments, next, harguments, hgives⟩ := hgives
            obtain ⟨fresh, pieces, -, rfl, hpieces, hspans⟩ :=
              below.expressions (Nat.lt_succ_self _) harguments
            have hcall : (Expr.call left arguments).Derives .index (before ++ _) :=
              .call hleft hpieces
            exact below.join (Nat.lt_succ_of_lt harguments.shorter) hlevel hgives hspans.cons
              hcall (Nat.lt_succ_of_lt htighter) (stops_index next)
        · simp only [andThen_gives, expect_gives] at hgives
          obtain ⟨index, _, hindex, _, next, ⟨_, rfl⟩, hgives⟩ := hgives
          obtain ⟨used, hspans, hderives⟩ := below.lowest (Nat.lt_succ_self _) hindex
          have hshorter := hindex.shorter
          simp only [List.length_cons] at hshorter
          exact below.join (by omega) hlevel hgives (hspans.append spans_one).cons
            (.index hleft hderives) htighter (stops_index next)
      · next htight =>
        obtain ⟨rfl, rfl⟩ := done_gives.mp hgives
        refine ⟨[], spans_nil.mpr rfl, by simpa using hleft.mono hholds, stops_cons.mpr ?_⟩
        intro other hother
        rw [hconnector] at hother
        cases hother
        exact Nat.le_of_not_lt htight

theorem expression_follows {level : Level} {value : Expr} (below : Below tokens.length)
    (hlevel : level ≤ .unary) (hgives : (expression level tokens).Gives value rest) :
    ∃ used, Spans tokens rest used ∧ value.Derives level.above used ∧ Stops level rest := by
  rw [expression, andThen_gives] at hgives
  obtain ⟨left, after, hleft, hgives⟩ := hgives
  obtain ⟨used, holds, hspans, hderives, hholds, hstops⟩ := operand_follows below hleft
  obtain ⟨more, hmore, hwhole, hrest⟩ := below.connectors hleft.shorter hlevel hgives hderives
    (Nat.le_trans (Nat.min_le_right ..) hholds) hstops
  exact ⟨used ++ more, hspans.append hmore, hwhole, hrest⟩

theorem lowest_follows {value : Expr} (below : Below tokens.length)
    (hgives : (expression .lowest tokens).Gives value rest) :
    ∃ used, Spans tokens rest used ∧ value.Derives .lowest used := by
  obtain ⟨used, hspans, hderives, -⟩ := expression_follows below (by decide) hgives
  exact ⟨used, hspans, hderives.mono (Nat.zero_le _)⟩

theorem expressions_follows {start : List Located} {close : Token} {done items : List Expr}
    {within : tokens.length ≤ start.length} (below : Below tokens.length)
    (hgives : (expressions close done tokens within).Gives items rest) :
    ∃ fresh pieces, pieces ≠ [] ∧ items = done.reverse ++ fresh ∧
      List.Forall₂ (Expr.Derives .lowest) fresh pieces ∧
      Spans tokens rest (Token.separated pieces ++ [close]) := by
  rw [expressions.eq_def, andThen_gives] at hgives
  obtain ⟨value, after, hvalue, hgives⟩ := hgives
  obtain ⟨used, hspans, hderives⟩ := lowest_follows below hvalue
  have hshorter := hvalue.shorter
  split at hgives
  · next next _ _ =>
      rw [List.length_cons] at hshorter
      obtain ⟨fresh, pieces, hpieces, rfl, hfresh, hrest⟩ := below.expressions (by omega) hgives
      refine ⟨value :: fresh, used :: pieces, by simp, by simp, .cons hderives hfresh, ?_⟩
      rw [Token.separated_cons hpieces, List.append_assoc]
      exact hspans.append hrest.cons
  · simp only [andThen_gives, expect_gives, done_gives] at hgives
    obtain ⟨_, _, ⟨_, rfl⟩, rfl, rfl⟩ := hgives
    refine ⟨[value], [used], by simp, by simp, .cons hderives .nil, ?_⟩
    simpa [Token.separated] using hspans.append spans_one

theorem pairs_follows {start : List Located} {done entries : List (Expr × Expr)}
    {within : tokens.length ≤ start.length} (below : Below tokens.length)
    (hgives : (pairs done tokens within).Gives entries rest) :
    ∃ fresh used, entries = done.reverse ++ fresh ∧ Expr.DerivesPairs fresh used ∧
      Spans tokens rest (used ++ [.rightBrace]) := by
  rw [pairs.eq_def] at hgives
  split at hgives
  · obtain ⟨rfl, rfl⟩ := done_gives.mp hgives
    exact ⟨[], [], by simp, .nil, spans_one⟩
  · simp only [andThen_gives, expect_gives] at hgives
    obtain ⟨key, _, hkey, _, afterColon, ⟨_, rfl⟩, value, afterValue, hvalue, hgives⟩ := hgives
    have hshorter := hkey.shorter
    have hshorter' := hvalue.shorter
    rw [List.length_cons] at hshorter
    obtain ⟨first, hfirst, hderives⟩ := lowest_follows below hkey
    obtain ⟨second, hsecond, hderives'⟩ := below.lowest (by omega) hvalue
    have hspans := hfirst.append hsecond.cons
    split at hgives
    · next hclose =>
        obtain ⟨_, _, rfl⟩ := startsWith_iff.mp hclose
        obtain ⟨rfl, rfl⟩ := done_gives.mp hgives
        exact ⟨[(key, value)], _, by simp, .last hderives hderives', hspans.append spans_one⟩
    · simp only [andThen_gives, expect_gives] at hgives
      obtain ⟨_, _, ⟨_, rfl⟩, hgives⟩ := hgives
      rw [List.length_cons] at hshorter'
      obtain ⟨fresh, used, rfl, hfresh, hrest⟩ := below.pairs (by omega) hgives
      refine ⟨(key, value) :: fresh, _, by simp, .cons hderives hderives' hfresh, ?_⟩
      rw [List.append_assoc]
      exact hspans.append hrest.cons

theorem statement_follows {value : Stmt} (below : Below tokens.length)
    (hgives : (statement tokens).Gives value rest) :
    ∃ used after, Spans tokens after used ∧ value.Derives used ∧ rest = skipSemicolons after := by
  rw [statement.eq_def] at hgives
  split at hgives
  · simp only [andThen_gives, identifier_gives, expect_gives, done_gives] at hgives
    obtain ⟨name, _, ⟨_, rfl⟩, _, _, ⟨_, rfl⟩, value, after, hvalue, rfl, rfl⟩ := hgives
    obtain ⟨used, hspans, hderives⟩ := below.lowest (by simp only [List.length_cons]; omega) hvalue
    exact ⟨_, after, hspans.cons.cons.cons, .bind hderives, rfl⟩
  · simp only [andThen_gives, done_gives] at hgives
    obtain ⟨value, after, hvalue, rfl, rfl⟩ := hgives
    obtain ⟨used, hspans, hderives⟩ := below.lowest (Nat.lt_succ_self _) hvalue
    exact ⟨_, after, hspans.cons, .ret hderives, rfl⟩
  · simp only [andThen_gives, done_gives] at hgives
    obtain ⟨value, after, hvalue, rfl, rfl⟩ := hgives
    obtain ⟨used, hspans, hderives⟩ := lowest_follows below hvalue
    exact ⟨used, after, hspans, .expr hderives, rfl⟩

theorem skip_follows {statements : Block} {used tail : List Token}
    (hderives : Block.Derives statements used)
    (hspans : Spans (skipSemicolons tokens) rest (used ++ tail)) :
    ∃ used, Block.Derives statements used ∧ Spans tokens rest (used ++ tail) := by
  obtain ⟨number, hskipped⟩ := spans_skipSemicolons tokens
  refine ⟨_, hderives.semicolons number, ?_⟩
  rw [List.append_assoc]
  exact hskipped.append hspans

theorem next_follows {stmt : Stmt} {statements : Block} {used tail : List Token}
    {after : List Located} (below : Below tokens.length)
    (hgives : (statement tokens).Gives stmt after) (hderives : Block.Derives statements used)
    (hspans : Spans after rest (used ++ tail)) :
    ∃ used, Block.Derives (stmt :: statements) used ∧ Spans tokens rest (used ++ tail) := by
  obtain ⟨first, middle, hfirst, hstmt, rfl⟩ := statement_follows below hgives
  obtain ⟨second, hsecond, hrest⟩ := skip_follows hderives hspans
  refine ⟨first ++ second, .cons hstmt hsecond, ?_⟩
  rw [List.append_assoc]
  exact hfirst.append hrest

theorem statements_follows {start : List Located} {done result : Block}
    {within : tokens.length ≤ start.length} (below : Below tokens.length)
    (hgives : (statements done tokens within).Gives result rest) :
    ∃ fresh used, result = done.reverse ++ fresh ∧ Block.Derives fresh used ∧
      Spans tokens rest (used ++ [.rightBrace]) := by
  have hlength := length_skipSemicolons_le tokens
  rw [statements.eq_def] at hgives
  split at hgives
  · simp only [andThen_gives, expect_gives, done_gives] at hgives
    obtain ⟨_, _, ⟨_, heq⟩, rfl, rfl⟩ := hgives
    obtain ⟨used, hderives, hspans⟩ := skip_follows .nil (heq ▸ spans_one)
    exact ⟨[], used, by simp, hderives, hspans⟩
  · obtain ⟨stmt, after, hstmt, hgives⟩ := andThen_gives.mp hgives
    have hshorter := hstmt.shorter
    obtain ⟨fresh, used, rfl, hfresh, hrest⟩ := below.statements (by omega) hgives
    obtain ⟨more, hmore, hspans⟩ := next_follows (below.mono hlength) hstmt hfresh hrest
    obtain ⟨whole, hwhole, hspans⟩ := skip_follows hmore hspans
    exact ⟨stmt :: fresh, whole, by simp, hwhole, hspans⟩

theorem block_follows {result : Block} (below : Below tokens.length)
    (hgives : (block tokens).Gives result rest) :
    ∃ used, Block.Derives result used ∧ Spans tokens rest (Token.braces used) := by
  simp only [block, andThen_gives, expect_gives] at hgives
  obtain ⟨_, _, ⟨_, rfl⟩, hgives⟩ := hgives
  obtain ⟨fresh, used, rfl, hderives, hspans⟩ := below.statements (Nat.lt_succ_self _) hgives
  exact ⟨used, hderives, hspans.cons⟩

theorem below (bound : Nat) : Below bound := by
  induction bound with
  | zero =>
      constructor <;> intros <;> omega
  | succ bound ih =>
      constructor
      · intro _ tokens _ _ inside hlevel hgives
        exact expression_follows (ih.mono (by omega)) hlevel hgives
      · intro _ _ _ tokens _ _ _ _ _ inside hlevel hgives hleft hholds hstops
        exact connectors_follows (ih.mono (by omega)) hlevel hgives hleft hholds hstops
      · intro _ _ _ _ tokens _ _ inside hgives
        exact expressions_follows (ih.mono (by omega)) hgives
      · intro _ _ _ tokens _ _ inside hgives
        exact pairs_follows (ih.mono (by omega)) hgives
      · intro _ _ _ tokens _ _ inside hgives
        exact statements_follows (ih.mono (by omega)) hgives
      · intro _ tokens _ inside hgives
        exact block_follows (ih.mono (by omega)) hgives

end Below

theorem toEnd_follows {stop : Position} {done : Block} {errors : List ParseError}
    {tokens : List Located} {program : Program}
    (hread : toEnd stop done errors tokens = .ok program) :
    errors = [] ∧ ∃ fresh used rest, program.statements = done.reverse ++ fresh ∧
      Block.Derives fresh used ∧ ended rest = true ∧ Spans tokens rest (used ++ []) := by
  fun_induction toEnd stop done errors tokens with
  | case1 done errors tokens hended hnone =>
      cases hread
      have hend : Spans (skipSemicolons tokens) (skipSemicolons tokens) ([] ++ []) :=
        spans_nil.mpr rfl
      obtain ⟨used, hderives, hspans⟩ := skip_follows .nil hend
      exact ⟨List.isEmpty_iff.mp hnone, [], used, _, by simp, hderives, hended, hspans⟩
  | case2 => cases hread
  | case3 done errors tokens hmore stmt after shorter hstmt ih =>
      obtain ⟨hnone, fresh, used, rest, hprogram, hfresh, hended, hrest⟩ := ih hread
      obtain ⟨more, hmore, hspans⟩ := next_follows (below _) ⟨shorter, hstmt⟩ hfresh hrest
      obtain ⟨whole, hwhole, hspans⟩ := skip_follows hmore hspans
      exact ⟨hnone, stmt :: fresh, whole, rest, by simpa using hprogram, hwhole, hended, hspans⟩
  | case4 done errors tokens hmore need after within hstmt ih =>
      obtain ⟨hnone, -⟩ := ih hread
      cases hnone

end Parse

/-- A program that has been read is derived by the grammar from the tokens before the end marker,
all of them and in their order. -/
theorem Program.derives_of_ofTokens {tokens : List Located} {program : Program}
    (hread : Program.ofTokens tokens = .ok program) :
    Block.Derives program.statements ((tokens.map Located.token).takeWhile (· != .eof)) := by
  obtain ⟨stop, hcut⟩ := Parse.ofTokens_cut tokens
  obtain ⟨-, fresh, used, rest, hprogram, hderives, hended, taken, htokens, htaken⟩ :=
    Parse.toEnd_follows (hcut.symm.trans hread)
  obtain rfl := Parse.eq_nil_of_ended hended ⟨taken, htokens.symm⟩
  rw [List.append_nil] at htokens htaken
  rw [List.takeWhile_map, hprogram]
  change Block.Derives fresh (List.map Located.token (tokens.takeWhile (·.token != .eof)))
  rw [htokens, htaken]
  exact hderives

/-- Semicolons, a named literal in parentheses, a sign before a subscripted call, operators of every
level side by side with and without parentheses, and words behind the end marker. -/
theorem Program.derives_of_ofTokens_signed :
    let words : List Token := [.semicolon, .letWord, .ident "f", .assign, .leftParen, .fnWord,
      .leftParen, .ident "x", .rightParen, .leftBrace, .ident "x", .rightBrace, .rightParen,
      .semicolon, .minus, .ident "f", .leftParen, .integer 2, .rightParen, .leftBracket, .integer 0,
      .rightBracket, .star, .integer 3, .minus, .leftBrace, .integer 1, .colon,
      .integer 2, .comma, .rightBrace, .semicolon, .semicolon,
      .integer 1, .plus, .integer 2, .star, .integer 3, .semicolon,
      .leftParen, .integer 1, .plus, .integer 2, .rightParen, .star, .integer 3, .semicolon,
      .ident "a", .equal, .ident "b", .less, .integer 1, .minus, .integer 2, .semicolon,
      .leftParen, .ident "a", .equal, .ident "b", .rightParen, .less, .integer 1]
    let tokens : List Located := (words ++ [Token.eof, Token.comma]).map (⟨·, .start⟩)
    let program : Program := ⟨[
      .bind "f" (.function (some "f") ["x"] [.expr (.ident "x")]),
      .expr (.binary .sub
        (.binary .mul
          (.unary .negate (.index (.call (.ident "f") [.integer 2]) (.integer 0)))
          (.integer 3))
        (.hash [(.integer 1, .integer 2)])),
      .expr (.binary .add (.integer 1) (.binary .mul (.integer 2) (.integer 3))),
      .expr (.binary .mul (.binary .add (.integer 1) (.integer 2)) (.integer 3)),
      .expr (.binary .equal (.ident "a") (.binary .less (.ident "b")
        (.binary .sub (.integer 1) (.integer 2)))),
      .expr (.binary .less (.binary .equal (.ident "a") (.ident "b")) (.integer 1))]⟩
    Program.ofTokens tokens = .ok program ∧ Block.Derives program.statements words := by
  intro words tokens program
  have hread : Program.ofTokens tokens = .ok program := by cbv
  exact ⟨hread, Program.derives_of_ofTokens hread⟩

end Stacklang
