import Stacklang.Proofs.Token.Layout

namespace Stacklang

namespace Text

theorem toList_padded_one (n : Nat) : (padded 1 n).toList = Nat.toDigits 10 n := by
  have hwide : 1 - (Nat.toDigits 10 n).length = 0 :=
    Nat.sub_eq_zero_of_le Nat.length_toDigits_pos
  simp [padded, hwide]

theorem digitsValue_toDigits (n : Nat) : digitsValue (Nat.toDigits 10 n) = n :=
  Nat.ofDigitChars_ten_toDigits

end Text

def Token.isName (word : String) : Bool :=
  decide (Lexer.Word word.toList) && (keyword? word).isNone

/-- Whether the token is that of some text: integers are written without a sign, and the end marker
is not written at all. -/
def Token.isWritable : Token → Bool
  | integer value => decide (0 ≤ value)
  | ident name => isName name
  | eof => false
  | _ => true

namespace Lexer

theorem spells_integer {value : Int64} (hvalue : 0 ≤ value) :
    Spells (.integer value) (Text.integer value).toList := by
  have hsign : ¬value < 0 := Int64.not_lt.mpr hvalue
  have hnonneg : 0 ≤ value.toInt := Int64.le_iff_toInt_le.mp hvalue
  rw [Text.integer, if_neg hsign, Text.toList_padded_one]
  refine .integer ⟨Nat.toDigits_ne_nil, fun c member => ?_⟩ ?_
  · exact Nat.isDigit_of_mem_toDigits (by decide) (by decide) member
  · rw [Text.digitsValue_toDigits, Int.natAbs_of_nonneg hnonneg]

theorem writes_escape (text : List Char) :
    Writes text (text.flatMap fun c => if c == '"' || c == '\\' then ['\\', c] else [c]) := by
  induction text with
  | nil => exact .nil
  | cons c rest ih =>
      rw [List.flatMap_cons]
      by_cases hquote : c = '"'
      · subst hquote
        exact .escape .quote ih
      · by_cases hbackslash : c = '\\'
        · subst hbackslash
          exact .escape .backslash ih
        · simpa [hquote, hbackslash] using Writes.plain hquote hbackslash ih

theorem spells_string (text : String) :
    Spells (.string text) ("\"" ++ Token.escape text ++ "\"").toList := by
  have spells := Spells.string (writes_escape text.toList)
  simpa [Token.escape] using spells

theorem spells_ident {name : String} (hname : Token.isName name = true) :
    Spells (.ident name) name.toList := by
  simp only [Token.isName, Bool.and_eq_true, decide_eq_true_eq, Option.isNone_iff_eq_none] at hname
  obtain ⟨hword, hfree⟩ := hname
  refine .ident hword fun token hfixed hspelling => ?_
  subst hspelling
  rw [keyword_of_word hfixed hword] at hfree
  cases hfree

theorem spells_spelling {token : Token} (hwritable : token.isWritable = true) :
    Spells token token.spelling.toList := by
  cases token with
  | integer value => exact spells_integer (of_decide_eq_true hwritable)
  | string text => exact spells_string text
  | ident name => exact spells_ident hwritable
  | eof => cases hwritable
  | _ => exact .fixed trivial

def Parted (rest : List Char) : Prop :=
  ∀ c ∈ rest.head?, isIdentRest c = false ∧ c ≠ '='

theorem parted_cons {c : Char} {rest : List Char}
    (hc : c ∈ [' ', '(', ')', '[', ']', ',', ':', ';', '\x7d']) : Parted (c :: rest) := by
  intro d member
  cases member
  simp only [List.mem_cons, List.not_mem_nil, or_false] at hc
  obtain rfl | rfl | rfl | rfl | rfl | rfl | rfl | rfl | rfl := hc <;> exact ⟨rfl, by decide⟩

theorem isIdentRest_of_isDigit {c : Char} (hdigit : c.isDigit = true) : isIdentRest c = true := by
  have hrange : 48 ≤ c.toNat ∧ c.toNat ≤ 57 := by
    simpa [Char.isDigit, UInt32.le_iff_toNat_le] using hdigit
  simp [isIdentRest, Text.isNumeric, hdigit, (by omega : c.toNat < 0x80)]

theorem parted_nil : Parted [] := by
  intro c member
  cases member

theorem Spells.maximal {token : Token} {lexeme rest : List Char} (spells : Spells token lexeme)
    (parted : Parted rest) : Maximal lexeme rest := by
  have hletter : ∀ c ∈ rest.head?, isIdentRest c = false := fun c member => (parted c member).1
  cases spells with
  | integer hdigits _ =>
      refine (maximal_digits hdigits).mpr fun c member => Bool.eq_false_iff.mpr fun hdigit => ?_
      cases (hletter c member).symm.trans (isIdentRest_of_isDigit hdigit)
  | string writes => exact maximal_quoted writes
  | ident hword _ => exact (maximal_word hword).mpr hletter
  | fixed hfixed =>
      have hkind := fixedKind hfixed
      generalize token.spelling.toList = lexeme at hkind
      cases hkind with
      | keyword _ hword => exact (maximal_word hword).mpr hletter
      | sign hsign =>
          exact (maximal_sign hsign).mpr fun hequals => absurd rfl (parted '=' hequals).2
      | signWithEquals hsign => exact maximal_signWithEquals hsign

/-- The text is written with these tokens, each of which ends where its spelling does, and with
blanks. -/
inductive Written : List Char → List Token → Prop where
  | nil : Written [] []
  | blank {c : Char} {rest : List Char} {words : List Token} (hblank : isBlank c = true)
      (written : Written rest words) : Written (c :: rest) words
  | token {lexeme rest : List Char} {token : Token} {words : List Token}
      (spells : Spells token lexeme) (maximal : Maximal lexeme rest)
      (written : Written rest words) : Written (lexeme ++ rest) (token :: words)

theorem Written.laid {chars : List Char} {words : List Token} (written : Written chars words)
    (before : List Char) :
    ∃ tokens, Laid before chars tokens ∧ tokens.map Located.token = words ++ [.eof] := by
  induction written generalizing before with
  | nil => exact ⟨_, .finish, rfl⟩
  | @blank c _ _ hblank _ ih =>
      obtain ⟨tokens, laid, hwords⟩ := ih (before ++ [c])
      exact ⟨tokens, .blank (isBlank_iff.mp hblank) laid, hwords⟩
  | @token lexeme _ token _ spells maximal _ ih =>
      obtain ⟨tokens, laid, hwords⟩ := ih (before ++ lexeme)
      exact ⟨_, .token spells maximal laid, congrArg (token :: ·) hwords⟩

theorem Written.tokenize {source : String} {words : List Token}
    (written : Written source.toList words) :
    ∃ tokens, tokenize source = .ok tokens ∧ tokens.map Located.token = words ++ [.eof] := by
  obtain ⟨tokens, laid, hwords⟩ := written.laid []
  exact ⟨tokens, laid.scan [], hwords⟩

theorem Written.word {lexeme rest : List Char} {token : Token} {words : List Token}
    (spells : Spells token lexeme) (parted : Parted rest) (written : Written rest words) :
    Written (lexeme ++ rest) (token :: words) :=
  .token spells (spells.maximal parted) written

theorem Written.sign {c : Char} {rest : List Char} {token : Token} {words : List Token}
    (hsign : Token.sign? c = some token)
    (hends : rest.head? = some '=' → Token.signWithEquals? c = none)
    (written : Written rest words) : Written (c :: rest) (token :: words) := by
  obtain ⟨hfixed, hspelling⟩ := spelling_sign hsign
  have spells := Spells.fixed hfixed
  rw [hspelling] at spells
  exact .token spells ((maximal_sign hsign).mpr hends) written

theorem written_spaced {words : List Token} (hwords : ∀ word ∈ words, word.isWritable = true) :
    Written (" ".intercalate (words.map Token.spelling)).toList words := by
  rw [String.toList_intercalate, List.map_map]
  induction words with
  | nil => exact .nil
  | cons word words ih =>
      obtain ⟨hword, hrest⟩ := List.forall_mem_cons.mp hwords
      have spells := spells_spelling hword
      cases words with
      | nil => simpa using Written.word spells parted_nil .nil
      | cons next words =>
          have written := Written.word spells (parted_cons (c := ' ') (by decide))
            (.blank rfl (ih hrest))
          simpa [List.intercalate_cons_cons] using written

/-- Tokens that are written with a space between any two of them are read back. -/
theorem tokenize_spaced {words : List Token} (hwords : ∀ word ∈ words, word.isWritable = true) :
    (tokenize (" ".intercalate (words.map Token.spelling))).map (List.map Located.token) =
      .ok (words ++ [.eof]) := by
  obtain ⟨tokens, hscan, htokens⟩ := (written_spaced hwords).tokenize
  rw [hscan, ← htokens]
  rfl

/-- The largest integer, names that are nearly reserved, a string of quotes, backslashes and line
ends, and signs that would run together without the spaces. -/
theorem tokenize_spaced_confusable :
    let words : List Token := [.integer 9223372036854775807, .ident "lets", .letWord,
      .ident "_été1", .string "\\\"\n\"\\n", .string "", .less, .assign, .lessEqual, .bang, .assign,
      .equal, .integer 0, .ident "x"]
    let source :=
      "9223372036854775807 lets let _été1 \"\\\\\\\"\n\\\"\\\\n\" \"\" < = <= ! = == 0 x"
    (∀ word ∈ words, word.isWritable = true) ∧
      (tokenize source).map (List.map Located.token) = .ok (words ++ [.eof]) := by
  intro words source
  have hwords : ∀ word ∈ words, word.isWritable = true := by decide
  have hsource : " ".intercalate (words.map Token.spelling) = source := by decide +kernel
  rw [← hsource]
  exact ⟨hwords, tokenize_spaced hwords⟩

end Lexer

end Stacklang
