import Mathlib
import Stacklang.Token.Lexer

namespace Stacklang

/-- The token is a reserved word or a sign, for which there is one spelling. -/
def Token.Fixed : Token → Prop
  | .integer _ | .string _ | .ident _ | .eof => False
  | _ => True

namespace Lexer

def Digits (chars : List Char) : Prop :=
  chars ≠ [] ∧ ∀ c ∈ chars, c.isDigit = true

def Word : List Char → Prop
  | [] => False
  | first :: rest => isIdentStart first = true ∧ ∀ c ∈ rest, isIdentRest c = true

instance : DecidablePred Word
  | [] => isFalse id
  | first :: rest =>
      decidable_of_iff (isIdentStart first = true ∧ rest.all isIdentRest = true) (by simp [Word])

/-- A backslash and the first character stand for the second. -/
inductive Escapes : Char → Char → Prop where
  | newline : Escapes 'n' '\n'
  | tab : Escapes 't' '\t'
  | carriageReturn : Escapes 'r' '\r'
  | backslash : Escapes '\\' '\\'
  | quote : Escapes '"' '"'

inductive Writes : List Char → List Char → Prop where
  | nil : Writes [] []
  | plain {c : Char} {text written : List Char} (hquote : c ≠ '"') (hbackslash : c ≠ '\\')
      (writes : Writes text written) : Writes (c :: text) (c :: written)
  | escape {c plain : Char} {text written : List Char} (escapes : Escapes c plain)
      (writes : Writes text written) : Writes (plain :: text) ('\\' :: c :: written)

inductive Spells : Token → List Char → Prop where
  | integer {digits : List Char} {value : Int64} (hdigits : Digits digits)
      (hvalue : value.toInt = Text.digitsValue digits) : Spells (.integer value) digits
  | string {text : String} {written : List Char} (writes : Writes text.toList written) :
      Spells (.string text) ('"' :: (written ++ ['"']))
  | ident {name : String} (hword : Word name.toList)
      (hfree : ∀ token : Token, token.Fixed → token.spelling ≠ name) :
      Spells (.ident name) name.toList
  | fixed {token : Token} (hfixed : token.Fixed) : Spells token token.spelling.toList

/-- The text has the form of a token. For an integer it may have too many digits. -/
def Form (chars : List Char) : Prop :=
  Digits chars ∨ ∃ token, Spells token chars

/-- No longer part of the text, which begins with the lexeme, has the form of a token. -/
def Maximal (lexeme rest : List Char) : Prop :=
  ∀ more, more ≠ [] → more <+: rest → ¬Form (lexeme ++ more)

/-! Characters with which tokens begin. -/

theorem isIdentStart_ascii {c : Char} (hascii : c.toNat < 0x80) :
    isIdentStart c = (c.isAlpha || c == '_') := by
  simp [isIdentStart, Text.isAlphabetic, hascii]

theorem not_isIdentStart_of_isDigit {c : Char} (hdigit : c.isDigit = true) :
    isIdentStart c = false := by
  have hrange : 48 ≤ c.toNat ∧ c.toNat ≤ 57 := by
    simpa [Char.isDigit, UInt32.le_iff_toNat_le] using hdigit
  have hunderscore : c ≠ '_' := by
    intro hc
    subst hc
    cases hdigit
  have hletter : c.isAlpha = false := by
    simp only [Char.isAlpha, Char.isUpper, Char.isLower, UInt32.le_iff_toNat_le, ge_iff_le,
      Bool.or_eq_false_iff, Bool.and_eq_false_iff, decide_eq_false_iff_not]
    change ¬(65 ≤ c.toNat ∧ c.toNat ≤ 90) ∧ (¬97 ≤ c.toNat ∨ ¬c.toNat ≤ 122)
    omega
  simp [isIdentStart_ascii (by omega : c.toNat < 0x80), hletter, hunderscore]

theorem isIdentRest_of_isIdentStart {c : Char} (hstart : isIdentStart c = true) :
    isIdentRest c = true := by
  simp only [isIdentStart, isIdentRest, Bool.or_eq_true] at hstart ⊢
  exact hstart.imp_left .inl

theorem sign_begins {c : Char} {token : Token} (hsign : Token.sign? c = some token) :
    c ≠ '"' ∧ c.isDigit = false ∧ isIdentStart c = false ∧ isBlank c = false := by
  unfold Token.sign? at hsign
  split at hsign
  case h_18 => cases hsign
  all_goals decide

theorem sign?_of_signWithEquals? {c : Char} {token : Token}
    (hsign : Token.signWithEquals? c = some token) : ∃ short, Token.sign? c = some short := by
  unfold Token.signWithEquals? at hsign
  split at hsign
  case h_5 => cases hsign
  all_goals exact ⟨_, rfl⟩

/-! The one spelling of a reserved word or a sign. -/

theorem spelling_keyword {word : String} {token : Token}
    (hword : Token.keyword? word = some token) : token.Fixed ∧ token.spelling = word := by
  unfold Token.keyword? at hword
  split at hword <;> cases hword <;> exact ⟨trivial, rfl⟩

theorem spelling_sign {c : Char} {token : Token} (hsign : Token.sign? c = some token) :
    token.Fixed ∧ token.spelling.toList = [c] := by
  unfold Token.sign? at hsign
  split at hsign <;> cases hsign <;> exact ⟨trivial, rfl⟩

theorem spelling_signWithEquals {c : Char} {token : Token}
    (hsign : Token.signWithEquals? c = some token) :
    token.Fixed ∧ token.spelling.toList = [c, '='] := by
  unfold Token.signWithEquals? at hsign
  split at hsign <;> cases hsign <;> exact ⟨trivial, rfl⟩

inductive FixedKind (token : Token) : List Char → Prop where
  | keyword {word : String} (hkeyword : Token.keyword? word = some token)
      (hword : Word word.toList) : FixedKind token word.toList
  | sign {c : Char} (hsign : Token.sign? c = some token) : FixedKind token [c]
  | signWithEquals {c : Char} (hsign : Token.signWithEquals? c = some token) :
      FixedKind token [c, '=']

theorem fixedKind {token : Token} (hfixed : token.Fixed) :
    FixedKind token token.spelling.toList := by
  have hsign : ∀ c, Token.sign? c = some token → FixedKind token token.spelling.toList := by
    intro c hsign
    rw [(spelling_sign hsign).2]
    exact .sign hsign
  have hequals : ∀ c, Token.signWithEquals? c = some token →
      FixedKind token token.spelling.toList := by
    intro c hsign
    rw [(spelling_signWithEquals hsign).2]
    exact .signWithEquals hsign
  cases token with
  | integer | string | ident | eof => exact hfixed.elim
  | fnWord | letWord | trueWord | falseWord | ifWord | elseWord | returnWord =>
      exact .keyword rfl (by decide)
  | equal => exact hequals '=' rfl
  | notEqual => exact hequals '!' rfl
  | lessEqual => exact hequals '<' rfl
  | greaterEqual => exact hequals '>' rfl
  | assign => exact hsign '=' rfl
  | bang => exact hsign '!' rfl
  | plus => exact hsign '+' rfl
  | minus => exact hsign '-' rfl
  | star => exact hsign '*' rfl
  | slash => exact hsign '/' rfl
  | less => exact hsign '<' rfl
  | greater => exact hsign '>' rfl
  | comma => exact hsign ',' rfl
  | semicolon => exact hsign ';' rfl
  | colon => exact hsign ':' rfl
  | leftParen => exact hsign '(' rfl
  | rightParen => exact hsign ')' rfl
  | leftBrace => exact hsign '\x7b' rfl
  | rightBrace => exact hsign '\x7d' rfl
  | leftBracket => exact hsign '[' rfl
  | rightBracket => exact hsign ']' rfl

theorem keyword_of_word {token : Token} (hfixed : token.Fixed)
    (hword : Word token.spelling.toList) : Token.keyword? token.spelling = some token := by
  have hkind := fixedKind hfixed
  generalize hchars : token.spelling.toList = chars at hkind hword
  cases hkind with
  | keyword hkeyword _ =>
      rw [String.toList_inj.mp hchars]
      exact hkeyword
  | sign hsign =>
      have hstart := hword.1
      rw [(sign_begins hsign).2.2.1] at hstart
      cases hstart
  | signWithEquals hsign =>
      obtain ⟨_, hshort⟩ := sign?_of_signWithEquals? hsign
      have hstart := hword.1
      rw [(sign_begins hshort).2.2.1] at hstart
      cases hstart

/-! What a text with the form of a token looks like. -/

inductive Kind : List Char → Prop where
  | digits {chars : List Char} (hdigits : Digits chars) : Kind chars
  | quoted {text written : List Char} (writes : Writes text written) :
      Kind ('"' :: (written ++ ['"']))
  | word {chars : List Char} (hword : Word chars) : Kind chars
  | sign {c : Char} {token : Token} {rest : List Char} (hsign : Token.sign? c = some token)
      (hrest : rest = [] ∨ rest = ['='] ∧ (Token.signWithEquals? c).isSome = true) :
      Kind (c :: rest)

theorem Form.kind {chars : List Char} (form : Form chars) : Kind chars := by
  rcases form with hdigits | ⟨token, spells⟩
  · exact .digits hdigits
  · cases spells with
    | integer hdigits _ => exact .digits hdigits
    | string writes => exact .quoted writes
    | ident hword _ => exact .word hword
    | fixed hfixed =>
        have hkind := fixedKind hfixed
        generalize token.spelling.toList = chars at hkind
        cases hkind with
        | keyword _ hword => exact .word hword
        | sign hsign => exact .sign hsign (.inl rfl)
        | signWithEquals hsign =>
            obtain ⟨_, hshort⟩ := sign?_of_signWithEquals? hsign
            exact .sign hshort (.inr ⟨rfl, by rw [hsign]; rfl⟩)

namespace Kind

theorem ne_nil {chars : List Char} (kind : Kind chars) : chars ≠ [] := by
  cases kind with
  | digits hdigits => exact hdigits.1
  | word hword =>
      intro hnil
      subst hnil
      exact hword.elim
  | quoted | sign => exact List.cons_ne_nil _ _

variable {c : Char} {rest : List Char}

theorem of_isDigit (kind : Kind (c :: rest)) (hdigit : c.isDigit = true) : Digits (c :: rest) := by
  cases kind with
  | digits hdigits => exact hdigits
  | quoted _ => cases hdigit
  | word hword =>
      have hother := not_isIdentStart_of_isDigit hdigit
      rw [hword.1] at hother
      cases hother
  | sign hsign _ =>
      have hother := (sign_begins hsign).2.1
      rw [hdigit] at hother
      cases hother

theorem of_isIdentStart (kind : Kind (c :: rest)) (hstart : isIdentStart c = true) :
    Word (c :: rest) := by
  cases kind with
  | digits hdigits =>
      have hother := not_isIdentStart_of_isDigit (hdigits.2 c (List.mem_cons_self ..))
      rw [hstart] at hother
      cases hother
  | quoted _ => exact absurd hstart (by decide)
  | word hword => exact hword
  | sign hsign _ =>
      have hother := (sign_begins hsign).2.2.1
      rw [hstart] at hother
      cases hother

theorem of_quote (kind : Kind ('"' :: rest)) :
    ∃ text written, Writes text written ∧ rest = written ++ ['"'] := by
  cases kind with
  | digits hdigits => cases hdigits.2 '"' (List.mem_cons_self ..)
  | quoted writes => exact ⟨_, _, writes, rfl⟩
  | word hword => exact absurd hword.1 (by decide)
  | sign hsign _ => exact absurd rfl (sign_begins hsign).1

theorem of_sign {token : Token} (kind : Kind (c :: rest)) (hsign : Token.sign? c = some token) :
    rest = [] ∨ rest = ['='] ∧ (Token.signWithEquals? c).isSome = true := by
  obtain ⟨hquote, hdigit, hstart, -⟩ := sign_begins hsign
  cases kind with
  | digits hdigits =>
      rw [hdigits.2 c (List.mem_cons_self ..)] at hdigit
      cases hdigit
  | quoted _ => exact absurd rfl hquote
  | word hword =>
      rw [hword.1] at hstart
      cases hstart
  | sign _ hrest => exact hrest

end Kind

theorem unescape?_eq_some_iff {c plain : Char} :
    unescape? c = some plain ↔ Escapes c plain := by
  constructor
  · intro hescape
    unfold unescape? at hescape
    split at hescape <;> cases hescape <;> constructor
  · intro escapes
    cases escapes <;> rfl

theorem Escapes.unique {c plain plain' : Char} (escapes : Escapes c plain)
    (escapes' : Escapes c plain') : plain = plain' := by
  rw [← unescape?_eq_some_iff] at escapes escapes'
  exact Option.some.inj (escapes.symm.trans escapes')

theorem Writes.unique {text text' written written' rest rest' : List Char}
    (writes : Writes text written) (writes' : Writes text' written')
    (hsame : written ++ '"' :: rest = written' ++ '"' :: rest') :
    text = text' ∧ written = written' ∧ rest = rest' := by
  induction writes generalizing text' written' with
  | nil =>
      cases writes' with
      | nil => exact ⟨rfl, rfl, (List.cons.inj hsame).2⟩
      | plain hquote _ _ => exact absurd (List.cons.inj hsame).1.symm hquote
      | escape _ _ => cases (List.cons.inj hsame).1
  | plain hquote hbackslash writes ih =>
      cases writes' with
      | nil => exact absurd (List.cons.inj hsame).1 hquote
      | plain _ _ writes' =>
          obtain ⟨rfl, hrest⟩ := List.cons.inj hsame
          obtain ⟨rfl, rfl, rfl⟩ := ih writes' hrest
          exact ⟨rfl, rfl, rfl⟩
      | escape _ _ => exact absurd (List.cons.inj hsame).1 hbackslash
  | escape escapes writes ih =>
      cases writes' with
      | nil => cases (List.cons.inj hsame).1
      | plain _ hbackslash _ => exact absurd (List.cons.inj hsame).1.symm hbackslash
      | escape escapes' writes' =>
          simp only [List.cons_append, List.cons.injEq, true_and] at hsame
          obtain ⟨rfl, hrest⟩ := hsame
          obtain ⟨rfl, rfl, rfl⟩ := ih writes' hrest
          obtain rfl := escapes.unique escapes'
          exact ⟨rfl, rfl, rfl⟩

/-! How far each kind of token goes. -/

variable {rest : List Char}

theorem maximal_of_next {lexeme : List Char}
    (hnext : ∀ c further more, rest = c :: further → ¬Form (lexeme ++ c :: more)) :
    Maximal lexeme rest := by
  intro more hmore hprefix form
  cases more with
  | nil => exact hmore rfl
  | cons c more =>
      obtain ⟨further, hfurther⟩ := hprefix
      exact hnext c (more ++ further) more hfurther.symm form

theorem maximal_digits {digits : List Char} (hdigits : Digits digits) :
    Maximal digits rest ↔ ∀ c ∈ rest.head?, c.isDigit = false := by
  constructor
  · intro maximal c member
    by_contra hdigit
    obtain ⟨further, rfl⟩ := List.head?_eq_some_iff.mp member
    refine maximal [c] (by simp) (by simp) (.inl ⟨by simp, fun d hd => ?_⟩)
    rcases List.mem_append.mp hd with hd | hd
    · exact hdigits.2 d hd
    · rw [List.mem_singleton.mp hd]
      simpa using hdigit
  · intro hstop
    apply maximal_of_next
    intro c further more hrest form
    subst hrest
    obtain ⟨first, others, rfl⟩ := List.exists_cons_of_ne_nil hdigits.1
    have hlonger := form.kind.of_isDigit (hdigits.2 first (List.mem_cons_self ..))
    have hdigit := hlonger.2 c (by simp)
    rw [hstop c rfl] at hdigit
    cases hdigit

theorem Word.chars {word : List Char} (hword : Word word) : ∀ c ∈ word, isIdentRest c = true := by
  cases word with
  | nil => exact hword.elim
  | cons first others =>
      rw [List.forall_mem_cons]
      exact ⟨isIdentRest_of_isIdentStart hword.1, hword.2⟩

theorem Word.form {word : List Char} (hword : Word word) : Form word := by
  by_cases hfree : ∃ token : Token, token.Fixed ∧ token.spelling = String.ofList word
  · obtain ⟨token, hfixed, hspelling⟩ := hfree
    have spells := Spells.fixed hfixed
    rw [hspelling, String.toList_ofList] at spells
    exact .inr ⟨token, spells⟩
  · have spells : Spells (.ident (String.ofList word)) (String.ofList word).toList := by
      apply Spells.ident
      · rwa [String.toList_ofList]
      · intro token hfixed hspelling
        exact hfree ⟨token, hfixed, hspelling⟩
    rw [String.toList_ofList] at spells
    exact .inr ⟨_, spells⟩

theorem maximal_word {word : List Char} (hword : Word word) :
    Maximal word rest ↔ ∀ c ∈ rest.head?, isIdentRest c = false := by
  cases word with
  | nil => exact hword.elim
  | cons first others =>
      constructor
      · intro maximal c member
        by_contra hletter
        obtain ⟨further, rfl⟩ := List.head?_eq_some_iff.mp member
        refine maximal [c] (by simp) (by simp) (Word.form ⟨hword.1, fun d hd => ?_⟩)
        rcases List.mem_append.mp hd with hd | hd
        · exact hword.2 d hd
        · rw [List.mem_singleton.mp hd]
          simpa using hletter
      · intro hstop
        apply maximal_of_next
        intro c further more hrest form
        subst hrest
        have hletter := (form.kind.of_isIdentStart hword.1).2 c (by simp)
        rw [hstop c rfl] at hletter
        cases hletter

theorem maximal_quoted {text written : List Char} (writes : Writes text written) :
    Maximal ('"' :: (written ++ ['"'])) rest := by
  apply maximal_of_next
  intro c further more _ form
  obtain ⟨text', written', writes', hsame⟩ := form.kind.of_quote
  have hends : written ++ '"' :: c :: more = written' ++ '"' :: [] := by simpa using hsame
  cases (writes.unique writes' hends).2.2

theorem maximal_sign {c : Char} {token : Token} (hsign : Token.sign? c = some token) :
    Maximal [c] rest ↔ (rest.head? = some '=' → Token.signWithEquals? c = none) := by
  constructor
  · intro maximal hequals
    obtain ⟨further, rfl⟩ := List.head?_eq_some_iff.mp hequals
    by_contra hsome
    obtain ⟨longer, hlonger⟩ := Option.ne_none_iff_exists'.mp hsome
    obtain ⟨hfixed, hspelling⟩ := spelling_signWithEquals hlonger
    have spells := Spells.fixed hfixed
    rw [hspelling] at spells
    exact maximal ['='] (by simp) (by simp) (.inr ⟨longer, spells⟩)
  · intro hstop
    apply maximal_of_next
    intro d further more hrest form
    subst hrest
    rcases form.kind.of_sign hsign with hnil | ⟨hequals, hsome⟩
    · cases hnil
    · cases hequals
      rw [hstop rfl] at hsome
      cases hsome

theorem maximal_signWithEquals {c : Char} {token : Token}
    (hsign : Token.signWithEquals? c = some token) : Maximal [c, '='] rest := by
  apply maximal_of_next
  intro d further more _ form
  obtain ⟨_, hshort⟩ := sign?_of_signWithEquals? hsign
  rcases form.kind.of_sign hshort with hnil | ⟨hequals, -⟩
  · cases hnil
  · cases hequals

end Lexer

end Stacklang
