import Stacklang.Proofs.Program.Spelling

namespace Stacklang

theorem Token.connector?_token (connector : Connector) :
    connector.token.connector? = some connector := by
  cases connector with
  | binary op => cases op <;> rfl
  | call => rfl
  | index => rfl

theorem Level.lt_of_above_le {level tighter : Level} (habove : level.above ≤ tighter)
    (htighter : tighter < .unary) : level < tighter := by
  rcases Nat.lt_or_ge level tighter with hless | hmore
  · exact hless
  · have hover : tighter < level.above := Nat.lt_min.mpr ⟨Nat.lt_succ_of_le hmore, htighter⟩
    exact absurd habove (Nat.not_le.mpr hover)

namespace Parse

/-- What can stand behind an expression that holds so tightly: nothing that is still taken in. -/
structure Bounds (level : Level) (tokens : List Located) : Prop where
  stops : Stops level tokens
  noElse : startsWith .elseWord tokens = false

/-- From the expression on, the operators that hold more tightly than the level lead to a value. -/
def Leads (level : Level) (left : Expr) (tokens : List Located) (value : Expr)
    (rest : List Located) : Prop :=
  ∀ (start : List Located) (shorter : tokens.length < start.length),
    (connectors level left tokens shorter).Gives value rest

section Connectors

variable {level : Level} {left value : Expr} {tokens after rest : List Located}
  {position : Position}

theorem leads_self (hstops : Stops level tokens) : Leads level left tokens left tokens := by
  intro start shorter
  rw [connectors.eq_def]
  split
  · exact done_gives.mpr ⟨rfl, rfl⟩
  · next located next _ =>
      split
      · exact done_gives.mpr ⟨rfl, rfl⟩
      · next connector hconnector =>
          rw [if_neg (Nat.not_lt.mpr (stops_cons.mp hstops connector hconnector))]
          exact done_gives.mpr ⟨rfl, rfl⟩

theorem leads_binary {op : BinaryOp} {right : Expr} (hlevel : level < (Connector.binary op).level)
    (hright : (expression op.level tokens).Gives right after)
    (hleads : Leads level (.binary op left right) after value rest) :
    Leads level left (⟨op.token, position⟩ :: tokens) value rest := by
  intro start shorter
  have hconnector := Token.connector?_token (.binary op)
  rw [connectors.eq_def]
  dsimp only
  split
  · next hnone => cases hnone.symm.trans hconnector
  · next hsome =>
      cases hsome.symm.trans hconnector
      rw [if_pos hlevel]
      exact andThen_gives.mpr ⟨right, after, hright, hleads _ _⟩

theorem leads_index {index : Expr} {closing : Position} (hlevel : level < Connector.index.level)
    (hindex : (expression .lowest tokens).Gives index (⟨.rightBracket, closing⟩ :: after))
    (hleads : Leads level (.index left index) after value rest) :
    Leads level left (⟨.leftBracket, position⟩ :: tokens) value rest := by
  intro start shorter
  rw [connectors.eq_def]
  dsimp only [Token.connector?]
  rw [if_pos hlevel]
  simp only [andThen_gives, expect_gives]
  exact ⟨index, _, hindex, (), after, ⟨closing, rfl⟩, hleads _ _⟩

theorem leads_emptyCall {closing : Position} (hlevel : level < Connector.call.level)
    (hleads : Leads level (.call left []) after value rest) :
    Leads level left (⟨.leftParen, position⟩ :: ⟨.rightParen, closing⟩ :: after) value rest := by
  intro start shorter
  rw [connectors.eq_def]
  dsimp only [Token.connector?]
  rw [if_pos hlevel, if_pos (startsWith_iff.mpr ⟨closing, after, rfl⟩)]
  exact hleads _ _

theorem leads_call {arguments : List Expr} (hlevel : level < Connector.call.level)
    (hopen : startsWith .rightParen tokens = false)
    (harguments : (expressions .rightParen [] tokens (Nat.le_refl _)).Gives arguments after)
    (hleads : Leads level (.call left arguments) after value rest) :
    Leads level left (⟨.leftParen, position⟩ :: tokens) value rest := by
  intro start shorter
  rw [connectors.eq_def]
  dsimp only [Token.connector?]
  rw [if_pos hlevel, if_neg (by simp [hopen])]
  exact andThen_gives.mpr ⟨arguments, after, harguments, hleads _ _⟩

theorem expression_gives {left : Expr} (hleft : (operand tokens).Gives left after)
    (hleads : Leads level left after value rest) :
    (expression level tokens).Gives value rest := by
  rw [expression]
  exact andThen_gives.mpr ⟨left, after, hleft, hleads _ _⟩

end Connectors

theorem spans_parens {tokens rest : List Located} {words : List Token} :
    Spans tokens rest (Token.parens words) ↔ ∃ opening next,
      tokens = ⟨.leftParen, opening⟩ :: next ∧
        ∃ closing, Spans next (⟨.rightParen, closing⟩ :: rest) words := by
  simp [Token.parens]

theorem spans_brackets {tokens rest : List Located} {words : List Token} :
    Spans tokens rest (Token.brackets words) ↔ ∃ opening next,
      tokens = ⟨.leftBracket, opening⟩ :: next ∧
        ∃ closing, Spans next (⟨.rightBracket, closing⟩ :: rest) words := by
  simp [Token.brackets]

/-- Words that hold so tightly are read as the value, wherever that is tight enough for what stands
around them. -/
def Yields (hold : Level) (words : List Token) (result : Expr) : Prop :=
  ∀ ⦃level : Level⦄ ⦃tokens after rest : List Located⦄ ⦃value : Expr⦄,
    level ≤ .unary → level.above ≤ hold → Spans tokens after words →
    Bounds hold after → Leads level result after value rest →
    (expression level tokens).Gives value rest

/-- The words are read as the value where nothing joins them to what stands around them. -/
def Stands (words : List Token) (result : Expr) : Prop :=
  ∀ ⦃tokens after : List Located⦄, Spans tokens after words → Bounds .lowest after →
    (expression .lowest tokens).Gives result after

section Words

variable {level hold : Level} {tokens after rest : List Located} {words : List Token}
  {result : Expr}

theorem bounds_of {token : Token} {position : Position} (htoken : token ≠ .elseWord)
    (hlevel : ∀ connector, token.connector? = some connector → connector.level ≤ level) :
    Bounds level (⟨token, position⟩ :: after) :=
  ⟨stops_cons.mpr hlevel, by simpa [startsWith] using htoken⟩

theorem bounds_closing {token : Token} {position : Position}
    (htoken : token ∈ [.rightParen, .rightBracket, .rightBrace, .comma, .colon, .semicolon]) :
    Bounds level (⟨token, position⟩ :: after) := by
  simp only [List.mem_cons, List.not_mem_nil, or_false] at htoken
  apply bounds_of
  · intro helse
    subst helse
    simp at htoken
  · intro connector hconnector
    obtain rfl | rfl | rfl | rfl | rfl | rfl := htoken <;> cases hconnector

theorem Bounds.mono {tighter : Level} (hbounds : Bounds level tokens) (hlevel : level ≤ tighter) :
    Bounds tighter tokens :=
  ⟨fun located member connector hconnector =>
    Nat.le_trans (hbounds.stops located member connector hconnector) hlevel, hbounds.noElse⟩

theorem yields_operand
    (hoperand : ∀ {tokens after}, Spans tokens after words → Bounds hold after →
      (operand tokens).Gives result after) : Yields hold words result :=
  fun _ _ _ _ _ _ _ hspans hbounds hleads => expression_gives (hoperand hspans hbounds) hleads

theorem yields_word {word : Token}
    (hoperand : ∀ position rest, (operand (⟨word, position⟩ :: rest)).Gives result rest) :
    Yields hold [word] result := by
  apply yields_operand
  intro tokens after hspans _
  obtain ⟨position, _, rfl, hnil⟩ := spans_cons.mp hspans
  obtain rfl := spans_nil.mp hnil
  exact hoperand position _

theorem Yields.stands (hyields : Yields hold words result) (hhold : .lowest < hold) :
    Stands words result := by
  intro tokens after hspans hbounds
  exact hyields (Nat.zero_le _) (Level.above_le hhold) hspans (hbounds.mono (Nat.zero_le _))
    (leads_self hbounds.stops)

theorem operand_group {opening closing : Position} {value : Expr}
    (hinner : (expression .lowest tokens).Gives value (⟨.rightParen, closing⟩ :: after)) :
    (operand (⟨.leftParen, opening⟩ :: tokens)).Gives value after := by
  simp only [operand, andThen_gives, expect_gives, done_gives]
  exact ⟨value, _, hinner, (), after, ⟨closing, rfl⟩, rfl, rfl⟩

theorem Stands.parens (hstands : Stands words result) :
    Yields .index (Token.parens words) result := by
  apply yields_operand
  intro tokens after hspans _
  obtain ⟨_, _, rfl, _, hinner⟩ := spans_parens.mp hspans
  exact operand_group (hstands hinner (bounds_closing (by decide)))

theorem Yields.mono {tighter : Level} (hyields : Yields tighter words result)
    (hhold : hold ≤ tighter) : Yields hold words result := by
  intro level tokens after rest value hlevel habove hspans hbounds hleads
  exact hyields hlevel (Nat.le_trans habove hhold) hspans (hbounds.mono hhold) hleads

theorem Yields.guarded (hyields : Yields hold words result) (hhold : .lowest < hold)
    {needed : Level} (hneeded : needed ≤ .index) :
    Yields needed (Token.guarded needed hold words) result := by
  by_cases htight : needed ≤ hold
  · rw [Token.guarded, if_pos htight]
    exact hyields.mono htight
  · rw [Token.guarded, if_neg htight]
    exact (hyields.stands hhold).parens.mono hneeded

def outsiders : List Token :=
  [.rightParen, .rightBracket, .rightBrace, .semicolon, .letWord, .returnWord, .eof]

theorem not_startsWith {token : Token} (htoken : token ∈ outsiders) {value : Expr}
    (hgives : (expression level tokens).Gives value rest) : startsWith token tokens = false := by
  apply Bool.eq_false_iff.mpr
  intro hstarts
  obtain ⟨position, after, rfl⟩ := startsWith_iff.mp hstarts
  rw [expression] at hgives
  obtain ⟨left, middle, hleft, -⟩ := andThen_gives.mp hgives
  simp only [outsiders, List.mem_cons, List.not_mem_nil, or_false] at htoken
  obtain rfl | rfl | rfl | rfl | rfl | rfl | rfl := htoken <;> simp [operand] at hleft

theorem expressions_begins {start : List Located} {close : Token} {done items : List Expr}
    {within : tokens.length ≤ start.length}
    (hgives : (expressions close done tokens within).Gives items rest) {token : Token}
    (htoken : token ∈ outsiders) : startsWith token tokens = false := by
  rw [expressions.eq_def] at hgives
  obtain ⟨_, _, hvalue, -⟩ := andThen_gives.mp hgives
  exact not_startsWith htoken hvalue

theorem pairs_last {start afterColon : List Located} {key value : Expr}
    {done : List (Expr × Expr)} {colon closing : Position}
    {within : tokens.length ≤ start.length}
    (hkey : (expression .lowest tokens).Gives key (⟨.colon, colon⟩ :: afterColon))
    (hvalue : (expression .lowest afterColon).Gives value (⟨.rightBrace, closing⟩ :: rest)) :
    (pairs done tokens within).Gives ((key, value) :: done).reverse rest := by
  have hopen := @not_startsWith _ _ _ .rightBrace (by decide) _ hkey
  rw [pairs.eq_def]
  split
  · cases hopen
  · refine andThen_gives.mpr ⟨key, _, hkey, ?_⟩
    refine andThen_gives.mpr ⟨(), _, expect_next _ colon, ?_⟩
    exact andThen_gives.mpr ⟨value, _, hvalue, done_gives.mpr ⟨rfl, rfl⟩⟩

theorem pairs_more {start afterColon : List Located} {key value : Expr}
    {done entries : List (Expr × Expr)} {colon comma : Position}
    {within : tokens.length ≤ start.length}
    (hkey : (expression .lowest tokens).Gives key (⟨.colon, colon⟩ :: afterColon))
    (hvalue : (expression .lowest afterColon).Gives value (⟨.comma, comma⟩ :: after))
    (hmore : ∀ within : after.length ≤ start.length,
      (pairs ((key, value) :: done) after within).Gives entries rest) :
    (pairs done tokens within).Gives entries rest := by
  have hopen := @not_startsWith _ _ _ .rightBrace (by decide) _ hkey
  rw [pairs.eq_def]
  split
  · cases hopen
  · refine andThen_gives.mpr ⟨key, _, hkey, ?_⟩
    refine andThen_gives.mpr ⟨(), _, expect_next _ colon, ?_⟩
    refine andThen_gives.mpr ⟨value, _, hvalue, ?_⟩
    rw [if_neg (by simp [startsWith])]
    exact andThen_gives.mpr ⟨(), _, expect_next _ comma, hmore _⟩

theorem skipSemicolons_of (hother : startsWith .semicolon tokens = false) :
    skipSemicolons tokens = tokens := by
  cases tokens with
  | nil => rfl
  | cons located next =>
      have hsemicolon : ¬(located.token == .semicolon) = true := by simpa [startsWith] using hother
      exact List.dropWhile_cons_of_neg hsemicolon

theorem statement_begins {closing : Token}
    (hclosing : closing = .rightBrace ∨ closing = .semicolon ∨ closing = .eof)
    {stmt : Stmt} (hgives : (statement tokens).Gives stmt after) :
    startsWith closing tokens = false := by
  apply Bool.eq_false_iff.mpr
  intro hstarts
  obtain ⟨position, next, rfl⟩ := startsWith_iff.mp hstarts
  rw [statement.eq_def] at hgives
  obtain rfl | rfl | rfl := hclosing
  all_goals
    obtain ⟨_, _, hvalue, -⟩ := andThen_gives.mp hgives
    cases hstarts.symm.trans (not_startsWith (by decide) hvalue)

theorem statement_skip {stmt : Stmt} (hgives : (statement tokens).Gives stmt after) :
    skipSemicolons tokens = tokens :=
  skipSemicolons_of (statement_begins (.inr (.inl rfl)) hgives)

theorem statement_more {stmt : Stmt} (hgives : (statement tokens).Gives stmt after) :
    ended tokens = false := by
  cases tokens with
  | nil => exact absurd hgives.shorter (Nat.not_lt_zero _)
  | cons located rest => exact statement_begins (.inr (.inr rfl)) hgives

theorem toEnd_cons {stop : Position} {stmt : Stmt} {done : Block} {errors : List ParseError}
    (hstmt : (statement tokens).Gives stmt after) :
    toEnd stop done errors tokens = toEnd stop (stmt :: done) errors after := by
  have hskip := statement_skip hstmt
  have hmore := statement_more hstmt
  obtain ⟨shorter, hdone⟩ := hstmt
  exact toEnd_done hskip hmore hdone

end Words

section Lists

variable {tokens rest : List Located}

theorem expressions_gives {start : List Located} {piece : List Token} {pieces : List (List Token)}
    {item : Expr} {items done : List Expr} (hitem : Stands piece item)
    (hitems : List.Forall₂ Stands pieces items) {close : Token}
    (hclose : close = .rightParen ∨ close = .rightBracket)
    {within : tokens.length ≤ start.length}
    (hspans : Spans tokens rest (Token.separated (piece :: pieces) ++ [close])) :
    (expressions close done tokens within).Gives (done.reverse ++ item :: items) rest := by
  induction hitems generalizing piece item done tokens with
  | nil =>
      simp only [Token.separated, List.flatMap_nil, List.append_nil, spans_append, spans_cons,
        spans_nil] at hspans
      obtain ⟨_, hfirst, closing, _, rfl, rfl⟩ := hspans
      rw [expressions.eq_def]
      obtain rfl | rfl := hclose
      all_goals
        refine andThen_gives.mpr ⟨item, _, hitem hfirst (bounds_closing (by decide)), ?_⟩
        exact andThen_gives.mpr ⟨(), _, expect_next _ closing, done_gives.mpr ⟨by simp, rfl⟩⟩
  | cons hnext _ ih =>
      rw [Token.separated_cons (List.cons_ne_nil _ _), List.append_assoc] at hspans
      obtain ⟨_, hfirst, hmore⟩ := spans_append.mp hspans
      obtain ⟨comma, after, rfl, hafter⟩ := spans_cons.mp hmore
      rw [expressions.eq_def]
      refine andThen_gives.mpr ⟨item, _, hitem hfirst (bounds_closing (by decide)), ?_⟩
      rw [List.append_cons, ← List.reverse_cons]
      exact ih hnext hafter

inductive PairStands : List Token → Expr × Expr → Prop where
  | mk {first second : List Token} {key value : Expr} (hkey : Stands first key)
      (hvalue : Stands second value) : PairStands (first ++ .colon :: second) (key, value)

theorem pairs_gives {start : List Located} {piece : List Token} {pieces : List (List Token)}
    {pair : Expr × Expr} {entries done : List (Expr × Expr)} (hpair : PairStands piece pair)
    (hentries : List.Forall₂ PairStands pieces entries) {within : tokens.length ≤ start.length}
    (hspans : Spans tokens rest (Token.separated (piece :: pieces) ++ [.rightBrace])) :
    (pairs done tokens within).Gives (done.reverse ++ pair :: entries) rest := by
  induction hentries generalizing piece pair done tokens with
  | nil =>
      obtain ⟨hkey, hvalue⟩ := hpair
      simp only [Token.separated, List.flatMap_nil, List.append_nil, List.append_assoc,
        List.cons_append, spans_append, spans_cons, spans_nil] at hspans
      obtain ⟨_, hfirst, colon, _, rfl, _, hsecond, closing, _, rfl, rfl⟩ := hspans
      rw [← List.reverse_cons]
      exact pairs_last (hkey hfirst (bounds_closing (by decide)))
        (hvalue hsecond (bounds_closing (by decide)))
  | cons hnext _ ih =>
      obtain ⟨hkey, hvalue⟩ := hpair
      rw [Token.separated_cons (List.cons_ne_nil _ _)] at hspans
      simp only [List.append_assoc, List.cons_append] at hspans
      obtain ⟨_, hfirst, hcolon⟩ := spans_append.mp hspans
      obtain ⟨colon, _, rfl, hvalued⟩ := spans_cons.mp hcolon
      obtain ⟨_, hsecond, hcomma⟩ := spans_append.mp hvalued
      obtain ⟨comma, _, rfl, hafter⟩ := spans_cons.mp hcomma
      rw [List.append_cons, ← List.reverse_cons]
      exact pairs_more (hkey hfirst (bounds_closing (by decide)))
        (hvalue hsecond (bounds_closing (by decide))) fun _ => ih hnext hafter

end Lists

section Operators

variable {hold : Level} {first second words : List Token} {pieces : List (List Token)}

theorem yields_sign {op : UnaryOp} {inner : Expr} (hinner : Yields .unary words inner) :
    Yields .unary (op.token :: words) (.unary op inner) := by
  apply yields_operand
  intro tokens after hspans hbounds
  obtain ⟨position, next, rfl, hnext⟩ := spans_cons.mp hspans
  have hgives : (expression .unary next).Gives inner after :=
    hinner (Nat.le_refl _) (Nat.min_le_right ..) hnext hbounds (leads_self hbounds.stops)
  rw [operand.eq_def]
  cases op with
  | not | negate => exact andThen_gives.mpr ⟨inner, after, hgives, done_gives.mpr ⟨rfl, rfl⟩⟩

theorem yields_binary {op : BinaryOp} {left right : Expr} (hleft : Yields op.tier first left)
    (hright : Yields (op.tier + 1) second right) :
    Yields op.tier (first ++ op.token :: second) (.binary op left right) := by
  rw [← BinaryOp.level_eq_tier] at hleft hright ⊢
  intro level tokens after rest value hlevel habove hspans hbounds hleads
  obtain ⟨_, hfirst, hsign⟩ := spans_append.mp hspans
  obtain ⟨position, next, rfl, hsecond⟩ := spans_cons.mp hsign
  have hoperator := Token.connector?_token (.binary op)
  have hbetween : Bounds op.level (⟨op.token, position⟩ :: next) := by
    apply bounds_of
    · cases op <;> decide
    · intro connector hconnector
      cases hoperator.symm.trans hconnector
      exact Nat.le_refl _
  have htighter : level < op.level := Level.lt_of_above_le habove op.level_lt
  -- The right operand has to hold more tightly than the operator, the left one only as tightly: a
  -- chain of operators of one level is read from the left.
  have hgives : (expression op.level next).Gives right after :=
    hright (Nat.le_of_lt op.level_lt) (Nat.min_le_left ..) hsecond (hbounds.mono (Nat.le_succ _))
      (leads_self hbounds.stops)
  exact hleft hlevel habove hfirst hbetween (leads_binary htighter hgives hleads)

theorem yields_index {container index : Expr} (hcontainer : Yields .index first container)
    (hindex : Stands second index) :
    Yields .index (first ++ Token.brackets second) (.index container index) := by
  intro level tokens after rest value hlevel habove hspans hbounds hleads
  obtain ⟨_, hfirst, hbracket⟩ := spans_append.mp hspans
  obtain ⟨position, next, rfl, _, hinner⟩ := spans_brackets.mp hbracket
  have hgives := hindex hinner (bounds_closing (by decide))
  have hbetween : Bounds .index (⟨.leftBracket, position⟩ :: next) := ⟨stops_index _, rfl⟩
  have htighter : level < Connector.index.level := Nat.lt_of_le_of_lt hlevel (by decide)
  exact hcontainer hlevel habove hfirst hbetween (leads_index htighter hgives hleads)

theorem yields_call {callee : Expr} {arguments : List Expr} (hcallee : Yields .call first callee)
    (harguments : List.Forall₂ Stands pieces arguments) :
    Yields .index (first ++ Token.parens (Token.separated pieces)) (.call callee arguments) := by
  intro level tokens after rest value hlevel habove hspans hbounds hleads
  obtain ⟨_, hfirst, hparen⟩ := spans_append.mp hspans
  obtain ⟨position, next, rfl, hsecond⟩ := spans_cons.mp hparen
  have hbetween : Bounds .call (⟨.leftParen, position⟩ :: next) := by
    apply bounds_of (by decide)
    intro connector hconnector
    cases hconnector
    exact Nat.le_refl _
  have htighter : level < Connector.call.level := Nat.lt_of_le_of_lt hlevel (by decide)
  apply hcallee hlevel (Level.above_le htighter) hfirst hbetween
  cases harguments with
  | nil =>
      obtain ⟨closing, _, rfl, hnil⟩ := spans_cons.mp hsecond
      obtain rfl := spans_nil.mp hnil
      exact leads_emptyCall htighter hleads
  | cons hargument harguments =>
      have hgives : (expressions .rightParen [] next (Nat.le_refl _)).Gives _ after :=
        expressions_gives hargument harguments (.inl rfl) hsecond
      exact leads_call htighter (expressions_begins hgives (by decide)) hgives hleads

theorem yields_array {items : List Expr} (hitems : List.Forall₂ Stands pieces items) :
    Yields hold (Token.brackets (Token.separated pieces)) (.array items) := by
  apply yields_operand
  intro tokens after hspans hbounds
  obtain ⟨position, next, rfl, hnext⟩ := spans_cons.mp hspans
  rw [operand.eq_def]
  dsimp only
  cases hitems with
  | nil =>
      obtain ⟨closing, _, rfl, hnil⟩ := spans_cons.mp hnext
      obtain rfl := spans_nil.mp hnil
      exact done_gives.mpr ⟨rfl, rfl⟩
  | cons hitem hitems =>
      have hgives : (expressions .rightBracket [] next (Nat.le_refl _)).Gives _ after :=
        expressions_gives hitem hitems (.inr rfl) hnext
      have hopen : startsWith .rightBracket next = false := expressions_begins hgives (by decide)
      rw [if_neg (by simp [hopen])]
      exact andThen_gives.mpr ⟨_, after, hgives, done_gives.mpr ⟨rfl, rfl⟩⟩

theorem yields_hash {entries : List (Expr × Expr)}
    (hentries : List.Forall₂ PairStands pieces entries) :
    Yields hold (Token.braces (Token.separated pieces)) (.hash entries) := by
  apply yields_operand
  intro tokens after hspans hbounds
  obtain ⟨position, next, rfl, hnext⟩ := spans_cons.mp hspans
  rw [operand.eq_def]
  dsimp only
  cases hentries with
  | nil =>
      obtain ⟨closing, _, rfl, hnil⟩ := spans_cons.mp hnext
      rw [spans_nil.mp hnil]
      have hgives :
          (pairs [] (⟨.rightBrace, closing⟩ :: after) (Nat.le_refl _)).Gives [] after := by
        rw [pairs.eq_def]
        exact done_gives.mpr ⟨rfl, rfl⟩
      exact andThen_gives.mpr ⟨_, after, hgives, done_gives.mpr ⟨rfl, rfl⟩⟩
  | cons hpair hentries =>
      have hgives : (pairs [] next (Nat.le_refl _)).Gives _ after :=
        pairs_gives hpair hentries hnext
      exact andThen_gives.mpr ⟨_, after, hgives, done_gives.mpr ⟨rfl, rfl⟩⟩

end Operators

def StatementStands (words : List Token) (stmt : Stmt) : Prop :=
  ∀ ⦃tokens after : List Located⦄, Spans tokens after words → Bounds .lowest after →
    (statement tokens).Gives stmt (skipSemicolons after)

section Statements

variable {words : List Token} {value : Expr}

theorem Stands.bind {name : String} {bound : Expr} (hvalue : Stands words value)
    (hnamed : value.named name = bound) :
    StatementStands (.letWord :: .ident name :: .assign :: words) (.bind name bound) := by
  intro tokens after hspans hbounds
  obtain ⟨_, _, rfl, hbound⟩ := spans_cons.mp hspans
  obtain ⟨second, _, rfl, hassigned⟩ := spans_cons.mp hbound
  obtain ⟨third, _, rfl, hwritten⟩ := spans_cons.mp hassigned
  rw [statement.eq_def]
  refine andThen_gives.mpr ⟨name, _, identifier_next name second, ?_⟩
  refine andThen_gives.mpr ⟨(), _, expect_next _ third, ?_⟩
  refine andThen_gives.mpr ⟨_, _, hvalue hwritten hbounds, ?_⟩
  exact done_gives.mpr ⟨by rw [hnamed], rfl⟩

theorem Stands.ret (hvalue : Stands words value) :
    StatementStands (.returnWord :: words) (.ret value) := by
  intro tokens after hspans hbounds
  obtain ⟨_, _, rfl, hwritten⟩ := spans_cons.mp hspans
  rw [statement.eq_def]
  exact andThen_gives.mpr ⟨value, _, hvalue hwritten hbounds, done_gives.mpr ⟨rfl, rfl⟩⟩

theorem Stands.expr (hvalue : Stands words value) : StatementStands words (.expr value) := by
  intro tokens after hspans hbounds
  have hgives := hvalue hspans hbounds
  have hother {token : Token} (htoken : token ∈ outsiders) := not_startsWith htoken hgives
  rw [statement.eq_def]
  split
  · cases @hother .letWord (by decide)
  · cases @hother .returnWord (by decide)
  · exact andThen_gives.mpr ⟨value, _, hgives, done_gives.mpr ⟨rfl, rfl⟩⟩

theorem StatementStands.closed {stmt : Stmt} (hstands : StatementStands words stmt)
    {tokens after : List Located} (hspans : Spans tokens after (words ++ [.semicolon])) :
    (statement tokens).Gives stmt (skipSemicolons after) := by
  obtain ⟨_, hwritten, hsemicolon⟩ := spans_append.mp hspans
  obtain ⟨_, _, rfl, hnil⟩ := spans_cons.mp hsemicolon
  obtain rfl := spans_nil.mp hnil
  have hgives := hstands hwritten (bounds_closing (by decide))
  exact hgives

end Statements

theorem ofTokens_written {tokens : List Located} {words : List Token}
    (hwritten : tokens.map Located.token = words ++ [.eof]) :
    ∃ stop before, Program.ofTokens tokens = toEnd stop [] [] before ∧ Spans before [] words := by
  obtain ⟨before, marker, rfl, rfl, hmarker⟩ := List.map_eq_append_iff.mp hwritten
  obtain ⟨⟨token, position⟩, after, rfl, rfl, -⟩ := List.map_eq_cons_iff.mp hmarker
  exact ⟨position, before, toEnd_append .., before, (List.append_nil _).symm, rfl⟩

end Parse

end Stacklang
