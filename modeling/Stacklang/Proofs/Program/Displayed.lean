import Stacklang.Proofs.Program.Yields
import Stacklang.Proofs.Token.Written

namespace Stacklang

mutual

/-- Whether the expression can be read from its text: it has no part that is a conditional or a
function literal, its names are no reserved words, its integers have no sign and its strings nothing
that would have to be escaped. -/
def Expr.plain : Expr → Bool
  | .ident name => Token.isName name
  | .integer value => decide (0 ≤ value)
  | .boolean _ => true
  | .string text => text.toList.all fun c => c != '"' && c != '\\'
  | .array items => Expr.allPlain items
  | .hash pairs => Expr.pairsPlain pairs
  | .unary _ operand => operand.plain
  | .binary _ left right => left.plain && right.plain
  | .index container subscript => container.plain && subscript.plain
  | .call callee arguments => callee.plain && Expr.allPlain arguments
  | .cond .. | .function .. => false

def Expr.allPlain : List Expr → Bool
  | [] => true
  | expr :: rest => expr.plain && Expr.allPlain rest

def Expr.pairsPlain : List (Expr × Expr) → Bool
  | [] => true
  | (key, value) :: rest => key.plain && value.plain && Expr.pairsPlain rest

end

def Stmt.plain : Stmt → Bool
  | .bind name value => Token.isName name && value.plain
  | .ret value => value.plain
  | .expr value => value.plain

mutual

def Expr.shown : Expr → List Token
  | .ident name => [.ident name]
  | .integer value => [.integer value]
  | .boolean true => [.trueWord]
  | .boolean false => [.falseWord]
  | .string text => [.string text]
  | .array items => Token.brackets (Token.separated (Expr.shownAll items))
  | .hash pairs => Token.braces (Token.separated (Expr.shownPairs pairs))
  | .unary op operand => Token.parens (op.token :: operand.shown)
  | .binary op left right => Token.parens (left.shown ++ op.token :: right.shown)
  | .index container subscript =>
      Token.parens (container.shown ++ Token.brackets subscript.shown)
  | .call callee arguments =>
      callee.shown ++ Token.parens (Token.separated (Expr.shownAll arguments))
  | .cond .. | .function .. => []

def Expr.shownAll : List Expr → List (List Token)
  | [] => []
  | expr :: rest => expr.shown :: Expr.shownAll rest

def Expr.shownPairs : List (Expr × Expr) → List (List Token)
  | [] => []
  | (key, value) :: rest => (key.shown ++ .colon :: value.shown) :: Expr.shownPairs rest

end

def Stmt.shown : Stmt → List Token
  | .bind name value => .letWord :: .ident name :: .assign :: value.shown ++ [.semicolon]
  | .ret value => .returnWord :: value.shown ++ [.semicolon]
  | .expr value => value.shown

namespace Lexer

theorem writes_self {text : List Char} (hplain : ∀ c ∈ text, c ≠ '"' ∧ c ≠ '\\') :
    Writes text text := by
  induction text with
  | nil => exact .nil
  | cons c rest ih =>
      obtain ⟨⟨hquote, hbackslash⟩, hrest⟩ := List.forall_mem_cons.mp hplain
      exact .plain hquote hbackslash (ih hrest)

theorem spells_quoted {text : String}
    (hplain : (text.toList.all fun c => c != '"' && c != '\\') = true) :
    Spells (.string text) ("\"" ++ text ++ "\"").toList := by
  have spells : Spells (.string text) _ := .string (writes_self (by simpa using hplain))
  simpa using spells

theorem spells_binary (op : BinaryOp) : Spells op.token op.symbol.toList := by
  cases op <;> exact .fixed trivial

/-- The text is made of the words, before all that cannot be part of the last one. -/
def Composes (text : List Char) (words : List Token) : Prop :=
  ∀ ⦃rest : List Char⦄ ⦃more : List Token⦄, Parted rest → Written rest more →
    Written (text ++ rest) (words ++ more)

section Composes

variable {text first second : List Char} {words front back : List Token}

theorem Spells.composes {token : Token} (spells : Spells token text) : Composes text [token] :=
  fun _ _ parted written => .word spells parted written

theorem Composes.append (hfirst : Composes first front) (hsecond : Composes second back)
    (hparted : ∀ rest, Parted (second ++ rest)) : Composes (first ++ second) (front ++ back) := by
  intro rest more parted written
  have hfollows := hsecond parted written
  simpa using hfirst (hparted rest) hfollows

theorem Composes.between {opening closing : Char} {left right : Token}
    (hinner : Composes text words) (hleft : Token.sign? opening = some left)
    (hopening : Token.signWithEquals? opening = none) (hright : Token.sign? closing = some right)
    (hclosing : Token.signWithEquals? closing = none) (hparted : ∀ rest, Parted (closing :: rest)) :
    Composes (opening :: text ++ [closing]) (left :: words ++ [right]) := by
  intro rest more _ written
  have hclosed := hinner (hparted rest) (.sign hright (fun _ => hclosing) written)
  simpa using Written.sign hleft (fun _ => hopening) hclosed

theorem Composes.parens (hinner : Composes text words) :
    Composes ('(' :: text ++ [')']) (Token.parens words) :=
  hinner.between rfl rfl rfl rfl fun _ => parted_cons (by decide)

theorem Composes.brackets (hinner : Composes text words) :
    Composes ('[' :: text ++ [']']) (Token.brackets words) :=
  hinner.between rfl rfl rfl rfl fun _ => parted_cons (by decide)

theorem Composes.braces (hinner : Composes text words) :
    Composes ('\x7b' :: text ++ ['\x7d']) (Token.braces words) :=
  hinner.between rfl rfl rfl rfl fun _ => parted_cons (by decide)

/-- An equals sign at the beginning of the text would make another sign of an exclamation mark
before it. -/
theorem Composes.sign (op : UnaryOp) (hinner : Composes text words)
    (hfirst : ∃ c, text.head? = some c ∧ c ≠ '=') :
    Composes (op.symbol.toList ++ text) (op.token :: words) := by
  intro rest more parted written
  have htext := hinner parted written
  obtain ⟨c, hhead, hc⟩ := hfirst
  have hends : (text ++ rest).head? ≠ some '=' := by simpa [hhead] using hc
  cases op with
  | not => exact .sign rfl (fun hequals => absurd hequals hends) htext
  | negate => exact .sign rfl (fun _ => rfl) htext

theorem Composes.binary (op : BinaryOp) (hleft : Composes first front)
    (hright : Composes second back) :
    Composes (first ++ ' ' :: (op.symbol.toList ++ ' ' :: second))
      (front ++ op.token :: back) := by
  intro rest more parted written
  have hblank := Written.blank (c := ' ') rfl (hright parted written)
  have hsign := Written.word (spells_binary op) (parted_cons (by decide)) hblank
  simpa using hleft (parted_cons (by decide)) (.blank (c := ' ') rfl hsign)

theorem Composes.colon (hkey : Composes first front) (hvalue : Composes second back) :
    Composes (first ++ ':' :: ' ' :: second) (front ++ .colon :: back) := by
  intro rest more parted written
  have hblank := Written.blank (c := ' ') rfl (hvalue parted written)
  have hcolon := Written.sign (c := ':') rfl (fun _ => rfl) hblank
  simpa using hkey (parted_cons (by decide)) hcolon

theorem composes_separated {texts : List (List Char)} {pieces : List (List Token)}
    (hpieces : List.Forall₂ Composes texts pieces) :
    Composes ([',', ' '].intercalate texts) (Token.separated pieces) := by
  intro rest more parted written
  induction hpieces with
  | nil => exact written
  | @cons text words texts pieces hpiece hpieces ih =>
      cases hpieces with
      | nil => simpa [Token.separated] using hpiece parted written
      | cons hnext hlater =>
          rw [Token.separated_cons (List.cons_ne_nil _ _)]
          have hblank := Written.blank (c := ' ') rfl ih
          have hcomma := Written.sign (c := ',') rfl (fun _ => rfl) hblank
          simpa [List.intercalate_cons_cons] using hpiece (parted_cons (by decide)) hcomma

end Composes

theorem Spells.first {token : Token} {lexeme : List Char} (spells : Spells token lexeme)
    (hfree : ¬token.Fixed) : ∃ c, lexeme.head? = some c ∧ c ≠ '=' := by
  cases spells with
  | integer hdigits =>
      obtain ⟨hsome, hall⟩ := hdigits
      obtain ⟨c, chars, rfl⟩ := List.exists_cons_of_ne_nil hsome
      refine ⟨c, rfl, ?_⟩
      rintro rfl
      cases hall '=' (List.mem_cons_self ..)
  | string => exact ⟨'"', rfl, by decide⟩
  | @ident name hword _ =>
      generalize name.toList = chars at hword
      cases chars with
      | nil => exact hword.elim
      | cons c chars =>
          refine ⟨c, rfl, ?_⟩
          rintro rfl
          cases hword.1
  | fixed hfixed => exact absurd hfixed hfree

theorem display_first : ∀ expr : Expr, expr.plain = true →
    ∃ c, expr.display.toList.head? = some c ∧ c ≠ '='
  | .ident _, hplain => (spells_ident hplain).first id
  | .integer _, hplain => (spells_integer (of_decide_eq_true hplain)).first id
  | .boolean true, _ | .boolean false, _ => ⟨_, rfl, by decide⟩
  | .string _, hplain => (spells_quoted hplain).first id
  | .array _, _ => ⟨'[', by simp [Expr.display], by decide⟩
  | .hash _, _ => ⟨'\x7b', by simp [Expr.display], by decide⟩
  | .unary .., _ | .binary .., _ | .index .., _ => ⟨'(', by simp [Expr.display], by decide⟩
  | .call callee _, hplain => by
      obtain ⟨hcallee, -⟩ := Bool.and_eq_true_iff.mp hplain
      obtain ⟨c, hhead, hc⟩ := display_first callee hcallee
      exact ⟨c, by simp [Expr.display, hhead], hc⟩

mutual

theorem composes : ∀ expr : Expr, expr.plain = true → Composes expr.display.toList expr.shown
  | .ident _, hplain => (spells_ident hplain).composes
  | .integer _, hplain => (spells_integer (of_decide_eq_true hplain)).composes
  | .boolean true, _ => (Spells.fixed trivial : Spells .trueWord "true".toList).composes
  | .boolean false, _ => (Spells.fixed trivial : Spells .falseWord "false".toList).composes
  | .string _, hplain => (spells_quoted hplain).composes
  | .array items, hplain => by
      have hitems := composes_separated (composesAll items hplain)
      simpa [Expr.display, Expr.shown] using hitems.brackets
  | .hash pairs, hplain => by
      have hpairs := composes_separated (composesPairs pairs hplain)
      simpa [Expr.display, Expr.shown] using hpairs.braces
  | .unary op operand, hplain => by
      have hsigned := (composes operand hplain).sign op (display_first operand hplain)
      simpa [Expr.display, Expr.shown] using hsigned.parens
  | .binary op left right, hplain => by
      obtain ⟨hleft, hright⟩ := Bool.and_eq_true_iff.mp hplain
      have hinner := (composes left hleft).binary op (composes right hright)
      simpa [Expr.display, Expr.shown] using hinner.parens
  | .index container index, hplain => by
      obtain ⟨hcontainer, hindex⟩ := Bool.and_eq_true_iff.mp hplain
      have hinner := (composes container hcontainer).append (composes index hindex).brackets
        fun _ => parted_cons (by decide)
      simpa [Expr.display, Expr.shown] using hinner.parens
  | .call callee arguments, hplain => by
      obtain ⟨hcallee, harguments⟩ := Bool.and_eq_true_iff.mp hplain
      have hlist := composes_separated (composesAll arguments harguments)
      have hcall := (composes callee hcallee).append hlist.parens fun _ => parted_cons (by decide)
      simpa [Expr.display, Expr.shown] using hcall

theorem composesAll : ∀ items : List Expr, Expr.allPlain items = true →
    List.Forall₂ Composes ((Expr.displayAll items).map String.toList) (Expr.shownAll items)
  | [], _ => .nil
  | item :: items, hplain => by
      obtain ⟨hitem, hitems⟩ := Bool.and_eq_true_iff.mp hplain
      exact .cons (composes item hitem) (composesAll items hitems)

theorem composesPairs : ∀ pairs : List (Expr × Expr), Expr.pairsPlain pairs = true →
    List.Forall₂ Composes ((Expr.displayPairs pairs).map String.toList) (Expr.shownPairs pairs)
  | [], _ => .nil
  | (key, value) :: pairs, hplain => by
      obtain ⟨hpair, hpairs⟩ := Bool.and_eq_true_iff.mp hplain
      obtain ⟨hkey, hvalue⟩ := Bool.and_eq_true_iff.mp hpair
      have hfirst : Composes (key.display ++ ": " ++ value.display).toList
          (key.shown ++ .colon :: value.shown) := by
        simpa using (composes key hkey).colon (composes value hvalue)
      exact .cons hfirst (composesPairs pairs hpairs)

end

theorem written_semicolon : Written [';'] [.semicolon] :=
  .sign rfl (fun _ => rfl) .nil

theorem written_display {stmt : Stmt} (hplain : stmt.plain = true) :
    Written stmt.display.toList stmt.shown := by
  cases stmt with
  | bind name value =>
      obtain ⟨hname, hvalue⟩ := Bool.and_eq_true_iff.mp hplain
      have hbound := composes value hvalue (parted_cons (by decide)) written_semicolon
      have hassigned := Written.sign (c := '=') rfl (fun hequals => by cases hequals)
        (.blank (c := ' ') rfl hbound)
      have hnamed := Written.word (spells_ident hname) (parted_cons (c := ' ') (by decide))
        (.blank rfl hassigned)
      have hlet := Written.word (.fixed trivial : Spells .letWord "let".toList)
        (parted_cons (c := ' ') (by decide)) (.blank rfl hnamed)
      simpa [Stmt.display, Stmt.shown, Token.spelling] using hlet
  | ret value =>
      have hvalue := composes value hplain (parted_cons (by decide)) written_semicolon
      have hreturn := Written.word (.fixed trivial : Spells .returnWord "return".toList)
        (parted_cons (c := ' ') (by decide)) (.blank rfl hvalue)
      simpa [Stmt.display, Stmt.shown, Token.spelling] using hreturn
  | expr value =>
      simpa [Stmt.display, Stmt.shown] using composes value hplain parted_nil .nil

end Lexer

namespace Parse

mutual

-- Operations stand in parentheses, and calls hold as tightly as these: so every operand holds
-- against whatever is around it.
theorem yields : ∀ expr : Expr, expr.plain = true → Yields .index expr.shown expr
  | .ident _, _ => yields_word fun _ _ => by simp [operand]
  | .integer _, _ => yields_word fun _ _ => by simp [operand]
  | .boolean true, _ => yields_word fun _ _ => by simp [operand]
  | .boolean false, _ => yields_word fun _ _ => by simp [operand]
  | .string _, _ => yields_word fun _ _ => by simp [operand]
  | .array items, hplain => yields_array (standsAll items hplain)
  | .hash pairs, hplain => yields_hash (standsPairs pairs hplain)
  | .unary _ operand, hplain =>
      ((yields_sign ((yields operand hplain).mono (by decide))).stands (by decide)).parens
  | .binary op left right, hplain => by
      obtain ⟨hleft, hright⟩ := Bool.and_eq_true_iff.mp hplain
      have htight : op.tier + 1 ≤ .index := Nat.le_trans op.tier_lt (by decide)
      have hyields := yields_binary ((yields left hleft).mono (Nat.le_of_lt htight))
        ((yields right hright).mono htight)
      exact (hyields.stands op.lowest_lt).parens
  | .index container index, hplain => by
      obtain ⟨hcontainer, hindex⟩ := Bool.and_eq_true_iff.mp hplain
      have hyields := yields_index (yields container hcontainer)
        ((yields index hindex).stands (by decide))
      exact (hyields.stands (by decide)).parens
  | .call callee arguments, hplain => by
      obtain ⟨hcallee, harguments⟩ := Bool.and_eq_true_iff.mp hplain
      exact yields_call ((yields callee hcallee).mono (by decide)) (standsAll arguments harguments)

theorem standsAll : ∀ items : List Expr, Expr.allPlain items = true →
    List.Forall₂ Stands (Expr.shownAll items) items
  | [], _ => .nil
  | item :: items, hplain => by
      obtain ⟨hitem, hitems⟩ := Bool.and_eq_true_iff.mp hplain
      exact .cons ((yields item hitem).stands (by decide)) (standsAll items hitems)

theorem standsPairs : ∀ pairs : List (Expr × Expr), Expr.pairsPlain pairs = true →
    List.Forall₂ PairStands (Expr.shownPairs pairs) pairs
  | [], _ => .nil
  | (key, value) :: pairs, hplain => by
      obtain ⟨hpair, hpairs⟩ := Bool.and_eq_true_iff.mp hplain
      obtain ⟨hkey, hvalue⟩ := Bool.and_eq_true_iff.mp hpair
      exact .cons
        ⟨(yields key hkey).stands (by decide), (yields value hvalue).stands (by decide)⟩
        (standsPairs pairs hpairs)

end

theorem named_of_plain {name : String} {expr : Expr} (hplain : expr.plain = true) :
    expr.named name = expr := by
  cases expr with
  | function => cases hplain
  | _ => rfl

theorem statement_shown {stmt : Stmt} (hplain : stmt.plain = true) {tokens : List Located}
    (hspans : Spans tokens [] stmt.shown) : (statement tokens).Gives stmt [] := by
  cases stmt with
  | bind name value =>
      obtain ⟨-, hvalue⟩ := Bool.and_eq_true_iff.mp hplain
      have hstands := (yields value hvalue).stands (by decide)
      exact (hstands.bind (named_of_plain hvalue)).closed hspans
  | ret value => exact ((yields value hplain).stands (by decide)).ret.closed hspans
  | expr value =>
      exact ((yields value hplain).stands (by decide)).expr hspans ⟨stops_nil _, rfl⟩

end Parse

theorem Program.ofSource_of_plain {stmt : Stmt} (hplain : stmt.plain = true) :
    Program.ofSource stmt.display = .ok ⟨[stmt]⟩ := by
  have written := Lexer.written_display hplain
  obtain ⟨tokens, hscan, htokens⟩ := written.tokenize
  obtain ⟨stop, before, hread, hspans⟩ := Parse.ofTokens_written htokens
  rw [ofSource, hscan]
  dsimp only
  rw [hread, Parse.toEnd_cons (Parse.statement_shown hplain hspans), Parse.toEnd_ended rfl]
  rfl

/-- A plain statement is what its own text is read as, and so a plain expression is told by its
text. -/
theorem Program.ofSource_display :
    (∀ stmt : Stmt, stmt.plain = true → Program.ofSource stmt.display = .ok ⟨[stmt]⟩) ∧
      ∀ left right : Expr, left.plain = true → right.plain = true →
        (left.display = right.display ↔ left = right) := by
  refine ⟨fun stmt hplain => ofSource_of_plain hplain, fun left right hleft hright => ?_⟩
  constructor
  · intro htexts
    change (Stmt.expr left).display = (Stmt.expr right).display at htexts
    have hread : ofSource (Stmt.expr left).display = .ok ⟨[.expr left]⟩ := ofSource_of_plain hleft
    have hread' : ofSource (Stmt.expr right).display = .ok ⟨[.expr right]⟩ :=
      ofSource_of_plain hright
    rw [htexts, hread'] at hread
    cases hread
    rfl
  · rintro rfl
    rfl

/-- A sign before a subscript of a call of a subscript, and two expressions whose texts differ only
in where a parenthesis closes. -/
theorem Program.ofSource_display_nested :
    let stmt : Stmt := .bind "x" (.unary .negate (.index
      (.call (.index (.ident "f") (.integer 0))
        [.hash [(.string "a b", .unary .not (.unary .not (.boolean true)))], .array []])
      (.binary .sub (.integer 1)
        (.binary .sub (.ident "_y") (.integer 9223372036854775807)))))
    let text := "let x = (-((f[0])(\x7b\"a b\": (!(!true))\x7d, [])" ++
      "[(1 - (_y - 9223372036854775807))]));"
    let left : Expr := .call (.unary .negate (.ident "a")) []
    let right : Expr := .unary .negate (.call (.ident "a") [])
    (stmt.plain = true ∧ Program.ofSource text = .ok ⟨[stmt]⟩) ∧
      left.plain = true ∧ right.plain = true ∧ left.display ≠ right.display := by
  intro stmt text left right
  have hplain : stmt.plain = true := by decide
  have htext : stmt.display = text := by decide +kernel
  have hleft : left.plain = true := by decide
  have hright : right.plain = true := by decide
  rw [← htext]
  refine ⟨⟨hplain, ofSource_display.1 stmt hplain⟩, hleft, hright, fun htexts => ?_⟩
  have hsame : left = right := (ofSource_display.2 left right hleft hright).mp htexts
  exact Expr.noConfusion hsame

end Stacklang
