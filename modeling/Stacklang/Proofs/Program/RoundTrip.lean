import Stacklang.Proofs.Program.Yields

namespace Stacklang

namespace Parse

def Reads (expr result : Expr) : Prop :=
  Yields expr.hold expr.spell result

theorem Reads.stands {expr result : Expr} (hreads : Reads expr result) :
    Stands expr.spell result :=
  Yields.stands hreads expr.lowest_lt

section Reads

variable {tokens after rest : List Located}

theorem parameters_gives {start : List Located} {name : String} {names done : List String}
    {within : tokens.length ≤ start.length}
    (hspans : Spans tokens rest (Token.names (name :: names) ++ [.rightParen])) :
    (parameters done tokens within).Gives (done.reverse ++ name :: names) rest := by
  induction names generalizing name done tokens with
  | nil =>
      simp only [Token.names, Token.separated, List.map, List.flatMap_nil, List.append_nil,
        List.cons_append, List.nil_append, spans_cons, spans_nil] at hspans
      obtain ⟨position, _, rfl, closing, _, rfl, rfl⟩ := hspans
      rw [parameters.eq_def]
      refine andThen_gives.mpr ⟨name, _, identifier_next name position, ?_⟩
      refine andThen_gives.mpr ⟨(), _, expect_next .rightParen closing, ?_⟩
      exact done_gives.mpr ⟨by simp, rfl⟩
  | cons next names ih =>
      rw [Token.names_cons (by simp)] at hspans
      simp only [List.cons_append, spans_cons] at hspans
      obtain ⟨position, _, rfl, comma, after, rfl, hspans⟩ := hspans
      rw [parameters.eq_def]
      refine andThen_gives.mpr ⟨name, _, identifier_next name position, ?_⟩
      rw [List.append_cons, ← List.reverse_cons]
      exact ih hspans

def ReadsStatement (stmt : Stmt) : Prop :=
  ∀ ⦃tokens after : List Located⦄, Spans tokens after (stmt.spell ++ [.semicolon]) →
    (statement tokens).Gives stmt (skipSemicolons after)

theorem statements_cons {start : List Located} {stmt : Stmt} {done result : Block}
    {within : tokens.length ≤ start.length} (hstmt : (statement tokens).Gives stmt after)
    (hrest : ∀ within : after.length ≤ start.length,
      (statements (stmt :: done) after within).Gives result rest) :
    (statements done tokens within).Gives result rest := by
  rw [statements_skipped (statement_skip hstmt),
    if_neg (by simp [statement_begins (.inl rfl) hstmt, statement_more hstmt])]
  exact andThen_gives.mpr ⟨stmt, after, hstmt, hrest _⟩

theorem skipSemicolons_block {stmts : Block} (hstmts : ∀ stmt ∈ stmts, ReadsStatement stmt)
    {tail : List Token} (htail : ∀ tokens, Spans tokens rest tail → skipSemicolons tokens = tokens)
    (hspans : Spans tokens rest (Block.spell stmts ++ tail)) : skipSemicolons tokens = tokens := by
  cases stmts with
  | nil => exact htail tokens hspans
  | cons stmt stmts =>
      rw [Block.spell_cons] at hspans
      obtain ⟨_, hstmt, -⟩ := spans_append.mp hspans
      exact statement_skip (hstmts stmt (List.mem_cons_self ..) hstmt)

theorem statements_gives {start : List Located} {stmts done : Block}
    (hstmts : ∀ stmt ∈ stmts, ReadsStatement stmt) {within : tokens.length ≤ start.length}
    (hspans : Spans tokens rest (Block.spell stmts ++ [.rightBrace])) :
    (statements done tokens within).Gives (done.reverse ++ stmts) rest := by
  induction stmts generalizing done tokens with
  | nil =>
      obtain ⟨position, after, rfl, hnil⟩ := spans_cons.mp hspans
      obtain rfl := spans_nil.mp hnil
      have hskip : skipSemicolons (⟨.rightBrace, position⟩ :: after) =
          ⟨.rightBrace, position⟩ :: after := rfl
      rw [statements_skipped hskip, if_pos (by simp [startsWith])]
      exact andThen_gives.mpr ⟨(), after, expect_next _ position, done_gives.mpr ⟨by simp, rfl⟩⟩
  | cons stmt stmts ih =>
      rw [Block.spell_cons] at hspans
      obtain ⟨after, hstmt, hrest⟩ := spans_append.mp hspans
      have hlater : ∀ later ∈ stmts, ReadsStatement later :=
        fun later member => hstmts later (List.mem_cons_of_mem _ member)
      have hgives := hstmts stmt (List.mem_cons_self ..) hstmt
      have hclose : ∀ tokens, Spans tokens rest [.rightBrace] → skipSemicolons tokens = tokens := by
        intro tokens hspans
        obtain ⟨position, _, rfl, -⟩ := spans_cons.mp hspans
        rfl
      rw [skipSemicolons_block hlater hclose hrest] at hgives
      rw [List.append_cons, ← List.reverse_cons]
      exact statements_cons hgives fun _ => ih hlater hrest

theorem block_gives {stmts : Block} (hstmts : ∀ stmt ∈ stmts, ReadsStatement stmt)
    (hspans : Spans tokens rest (Token.braces (Block.spell stmts))) :
    (block tokens).Gives stmts rest := by
  obtain ⟨position, after, rfl, hafter⟩ := spans_cons.mp hspans
  rw [block]
  exact andThen_gives.mpr ⟨(), after, expect_next _ position, statements_gives hstmts hafter⟩

end Reads

theorem Reads.itself {expr : Expr} (hreads : Reads expr expr.unnamed)
    (hnamed : expr.wellNamed none = true) : Reads expr expr := by
  rw [Expr.unnamed_eq hnamed] at hreads
  exact hreads

theorem Reads.guarded {expr result : Expr} (hreads : Reads expr result) {needed : Level}
    (hneeded : needed ≤ .index) :
    Yields needed (Token.guarded needed expr.hold expr.spell) result :=
  Yields.guarded hreads expr.lowest_lt hneeded

theorem reads_cond {condition : Expr} {consequence : Block} (hcondition : Reads condition condition)
    (hconsequence : ∀ stmt ∈ consequence, ReadsStatement stmt) :
    Reads (.cond condition consequence none) (.cond condition consequence none) := by
  apply yields_operand
  intro tokens after hspans hbounds
  obtain ⟨_, hhead, hbody⟩ := spans_append.mp hspans
  obtain ⟨position, _, rfl, htest⟩ := spans_cons.mp hhead
  obtain ⟨opening, _, rfl, closing, hinner⟩ := spans_parens.mp htest
  rw [operand.eq_def]
  refine andThen_gives.mpr ⟨(), _, expect_next _ opening, ?_⟩
  refine andThen_gives.mpr ⟨condition, _, hcondition.stands hinner (bounds_closing (by decide)), ?_⟩
  refine andThen_gives.mpr ⟨(), _, expect_next _ closing, ?_⟩
  refine andThen_gives.mpr ⟨consequence, after, block_gives hconsequence hbody, ?_⟩
  split
  · cases hbounds.noElse
  · exact done_gives.mpr ⟨rfl, rfl⟩

theorem reads_condElse {condition : Expr} {consequence alternative : Block}
    (hcondition : Reads condition condition)
    (hconsequence : ∀ stmt ∈ consequence, ReadsStatement stmt)
    (halternative : ∀ stmt ∈ alternative, ReadsStatement stmt) :
    Reads (.cond condition consequence (some alternative))
      (.cond condition consequence (some alternative)) := by
  apply yields_operand
  intro tokens after hspans hbounds
  obtain ⟨_, hfirst, helse⟩ := spans_append.mp hspans
  obtain ⟨_, hhead, hbody⟩ := spans_append.mp hfirst
  obtain ⟨position, _, rfl, htest⟩ := spans_cons.mp hhead
  obtain ⟨opening, _, rfl, closing, hinner⟩ := spans_parens.mp htest
  obtain ⟨between, _, rfl, hother⟩ := spans_cons.mp helse
  rw [operand.eq_def]
  refine andThen_gives.mpr ⟨(), _, expect_next _ opening, ?_⟩
  refine andThen_gives.mpr ⟨condition, _, hcondition.stands hinner (bounds_closing (by decide)), ?_⟩
  refine andThen_gives.mpr ⟨(), _, expect_next _ closing, ?_⟩
  refine andThen_gives.mpr ⟨consequence, _, block_gives hconsequence hbody, ?_⟩
  refine andThen_gives.mpr ⟨alternative, after, block_gives halternative hother, ?_⟩
  exact done_gives.mpr ⟨rfl, rfl⟩

theorem reads_function {name : Option String} {names : List String} {body : Block}
    (hbody : ∀ stmt ∈ body, ReadsStatement stmt) :
    Reads (.function name names body) (.function none names body) := by
  apply yields_operand
  intro tokens after hspans hbounds
  obtain ⟨_, hhead, hblock⟩ := spans_append.mp hspans
  obtain ⟨position, _, rfl, hparen⟩ := spans_cons.mp hhead
  obtain ⟨opening, next, rfl, hnames⟩ := spans_cons.mp hparen
  rw [operand.eq_def]
  refine andThen_gives.mpr ⟨(), next, expect_next _ opening, ?_⟩
  cases names with
  | nil =>
      obtain ⟨closing, _, rfl, hnil⟩ := spans_cons.mp hnames
      obtain rfl := spans_nil.mp hnil
      rw [if_pos (startsWith_iff.mpr ⟨closing, _, rfl⟩)]
      exact andThen_gives.mpr ⟨body, after, block_gives hbody hblock, done_gives.mpr ⟨rfl, rfl⟩⟩
  | cons name names =>
      have hopen : startsWith .rightParen next = false := by
        obtain ⟨_, _, rfl, -⟩ := spans_cons.mp hnames
        rfl
      rw [if_neg (by simp [hopen])]
      refine andThen_gives.mpr ⟨name :: names, _, parameters_gives hnames, ?_⟩
      exact andThen_gives.mpr ⟨body, after, block_gives hbody hblock, done_gives.mpr ⟨rfl, rfl⟩⟩

mutual

theorem reads : ∀ (expr : Expr) {binder : Option String}, expr.wellNamed binder = true →
    Reads expr expr.unnamed
  | .ident name, _, _ => yields_word fun _ _ => by simp [operand, Expr.unnamed]
  | .integer value, _, _ => yields_word fun _ _ => by simp [operand, Expr.unnamed]
  | .boolean true, _, _ => yields_word fun _ _ => by simp [operand, Expr.unnamed]
  | .boolean false, _, _ => yields_word fun _ _ => by simp [operand, Expr.unnamed]
  | .string text, _, _ => yields_word fun _ _ => by simp [operand, Expr.unnamed]
  | .array items, _, hnamed => yields_array (readsAll items hnamed)
  | .hash pairs, _, hnamed => yields_hash (readsPairs pairs hnamed)
  | .unary op operand, _, hnamed =>
      yields_sign (((reads operand hnamed).itself hnamed).guarded (by decide))
  | .binary op left right, _, hnamed => by
      obtain ⟨hleft, hright⟩ := Bool.and_eq_true_iff.mp hnamed
      have htight : op.tier + 1 ≤ .index := Nat.le_trans op.tier_lt (by decide)
      exact yields_binary (((reads left hleft).itself hleft).guarded (Nat.le_of_lt htight))
        (((reads right hright).itself hright).guarded htight)
  | .index container index, _, hnamed => by
      obtain ⟨hcontainer, hindex⟩ := Bool.and_eq_true_iff.mp hnamed
      exact yields_index (((reads container hcontainer).itself hcontainer).guarded (Nat.le_refl _))
        ((reads index hindex).itself hindex).stands
  | .cond condition consequence none, _, hnamed => by
      obtain ⟨hcondition, hconsequence⟩ := Bool.and_eq_true_iff.mp hnamed
      exact reads_cond ((reads condition hcondition).itself hcondition)
        (readsBlock consequence hconsequence)
  | .cond condition consequence (some alternative), _, hnamed => by
      obtain ⟨hfirst, halternative⟩ := Bool.and_eq_true_iff.mp hnamed
      obtain ⟨hcondition, hconsequence⟩ := Bool.and_eq_true_iff.mp hfirst
      exact reads_condElse ((reads condition hcondition).itself hcondition)
        (readsBlock consequence hconsequence) (readsBlock alternative halternative)
  | .function _ _ body, _, hnamed => by
      obtain ⟨-, hbody⟩ := Bool.and_eq_true_iff.mp hnamed
      exact reads_function (readsBlock body hbody)
  | .call callee arguments, _, hnamed => by
      obtain ⟨hcallee, harguments⟩ := Bool.and_eq_true_iff.mp hnamed
      exact yields_call (((reads callee hcallee).itself hcallee).guarded (by decide))
        (readsAll arguments harguments)

theorem readsAll : ∀ items : List Expr, Expr.allWellNamed items = true →
    List.Forall₂ Stands (Expr.spellAll items) items
  | [], _ => .nil
  | item :: items, hnamed => by
      obtain ⟨hitem, hitems⟩ := Bool.and_eq_true_iff.mp hnamed
      exact .cons ((reads item hitem).itself hitem).stands (readsAll items hitems)

theorem readsPairs : ∀ pairs : List (Expr × Expr), Expr.pairsWellNamed pairs = true →
    List.Forall₂ PairStands (Expr.spellPairs pairs) pairs
  | [], _ => .nil
  | (key, value) :: pairs, hnamed => by
      obtain ⟨hpair, hpairs⟩ := Bool.and_eq_true_iff.mp hnamed
      obtain ⟨hkey, hvalue⟩ := Bool.and_eq_true_iff.mp hpair
      exact .cons
        ⟨((reads key hkey).itself hkey).stands, ((reads value hvalue).itself hvalue).stands⟩
        (readsPairs pairs hpairs)

theorem readsStatement : ∀ stmt : Stmt, stmt.wellNamed = true → ReadsStatement stmt
  | .bind _ value, hnamed =>
      fun _ _ => ((reads value hnamed).stands.bind (Expr.named_unnamed hnamed)).closed
  | .ret value, hnamed => fun _ _ => ((reads value hnamed).itself hnamed).stands.ret.closed
  | .expr value, hnamed => fun _ _ => ((reads value hnamed).itself hnamed).stands.expr.closed

theorem readsBlock : ∀ stmts : List Stmt, Block.wellNamed stmts = true →
    ∀ stmt ∈ stmts, ReadsStatement stmt
  | [], _ => by simp
  | stmt :: stmts, hnamed => by
      obtain ⟨hstmt, hstmts⟩ := Bool.and_eq_true_iff.mp hnamed
      exact List.forall_mem_cons.mpr ⟨readsStatement stmt hstmt, readsBlock stmts hstmts⟩

end

theorem toEnd_gives {stop : Position} {stmts done : Block} {tokens : List Located}
    (hstmts : ∀ stmt ∈ stmts, ReadsStatement stmt)
    (hspans : Spans tokens [] (Block.spell stmts ++ [])) :
    toEnd stop done [] tokens = .ok ⟨done.reverse ++ stmts⟩ := by
  induction stmts generalizing done tokens with
  | nil =>
      obtain rfl := spans_nil.mp hspans
      rw [toEnd_ended rfl]
      simp
  | cons stmt stmts ih =>
      rw [Block.spell_cons] at hspans
      obtain ⟨after, hstmt, hrest⟩ := spans_append.mp hspans
      have hlater : ∀ later ∈ stmts, ReadsStatement later :=
        fun later member => hstmts later (List.mem_cons_of_mem _ member)
      have hgives := hstmts stmt (List.mem_cons_self ..) hstmt
      have hnil : ∀ tokens, Spans tokens [] [] → skipSemicolons tokens = tokens := by
        intro tokens hspans
        obtain rfl := spans_nil.mp hspans
        rfl
      rw [skipSemicolons_block hlater hnil hrest] at hgives
      rw [List.append_cons, ← List.reverse_cons, toEnd_cons hgives]
      exact ih hlater hrest

end Parse

theorem Program.ofTokens_spell {program : Program} (hnamed : program.wellNamed = true)
    {tokens : List Located} (hwritten : tokens.map Located.token = program.spell ++ [.eof]) :
    Program.ofTokens tokens = .ok program := by
  obtain ⟨stop, before, hread, hspans⟩ := Parse.ofTokens_written hwritten
  rw [hread]
  exact Parse.toEnd_gives (Parse.readsBlock _ hnamed) (by rwa [List.append_nil])

/-- Operators of every level side by side, operands that need parentheses and others that do not, a
`let` that names a function, and a conditional without an alternative. -/
theorem Program.ofTokens_spell_grouped :
    let program : Program := ⟨[
      .bind "f" (.function (some "f") ["x", "y"] [.ret (.binary .sub
        (.binary .sub (.ident "x") (.ident "y"))
        (.binary .sub (.ident "y") (.integer (-1))))]),
      .expr (.cond (.unary .not (.binary .equal (.ident "a") (.boolean true)))
        [.expr (.call (.function none [] []) [.array [.ident "a", .string "b"]])] none),
      .expr (.unary .negate
        (.index (.hash [(.ident "a", .unary .not (.ident "b"))]) (.ident "a"))),
      .expr (.binary .add (.integer 1) (.binary .mul (.integer 2) (.integer 3))),
      .expr (.binary .mul (.binary .add (.integer 1) (.integer 2)) (.integer 3)),
      .expr (.binary .equal (.ident "a") (.binary .less (.ident "b")
        (.binary .sub (.integer 1) (.integer 2)))),
      .expr (.binary .sub (.binary .less (.binary .equal (.ident "a") (.ident "b")) (.integer 1))
        (.integer 2))]⟩
    let words : List Token := [
      .letWord, .ident "f", .assign, .fnWord, .leftParen, .ident "x", .comma, .ident "y",
      .rightParen, .leftBrace, .returnWord, .ident "x", .minus, .ident "y", .minus, .leftParen,
      .ident "y", .minus, .integer (-1), .rightParen, .semicolon, .rightBrace, .semicolon,
      .ifWord, .leftParen, .bang, .leftParen, .ident "a", .equal, .trueWord, .rightParen,
      .rightParen, .leftBrace, .fnWord, .leftParen, .rightParen, .leftBrace, .rightBrace,
      .leftParen, .leftBracket, .ident "a", .comma, .string "b", .rightBracket, .rightParen,
      .semicolon, .rightBrace, .semicolon,
      .minus, .leftBrace, .ident "a", .colon, .bang, .ident "b", .rightBrace, .leftBracket,
      .ident "a", .rightBracket, .semicolon,
      .integer 1, .plus, .integer 2, .star, .integer 3, .semicolon,
      .leftParen, .integer 1, .plus, .integer 2, .rightParen, .star, .integer 3, .semicolon,
      .ident "a", .equal, .ident "b", .less, .integer 1, .minus, .integer 2, .semicolon,
      .leftParen, .leftParen, .ident "a", .equal, .ident "b", .rightParen, .less, .integer 1,
      .rightParen, .minus, .integer 2, .semicolon, .eof]
    let tokens : List Located := words.map (⟨·, .start⟩)
    program.wellNamed = true ∧ tokens.map Located.token = program.spell ++ [.eof] ∧
      Program.ofTokens tokens = .ok program := by
  intro program words tokens
  have hnamed : program.wellNamed = true := by decide
  have hwritten : tokens.map Located.token = program.spell ++ [.eof] := by decide
  exact ⟨hnamed, hwritten, Program.ofTokens_spell hnamed hwritten⟩

end Stacklang
