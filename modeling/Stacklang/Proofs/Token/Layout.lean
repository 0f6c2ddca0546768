import Stacklang.Proofs.Token.Spells

namespace Stacklang

/-- The place behind some text: lines end with a line feed, and each other character takes a
column. -/
def Position.after (before : List Char) : Position :=
  ⟨1 + before.count '\n', 1 + (before.reverse.takeWhile (· != '\n')).length⟩

theorem Position.after_snoc (before : List Char) (c : Char) :
    after (before ++ [c]) = (after before).next c := by
  by_cases hc : c = '\n'
  · subst hc
    simp [after, next, Nat.add_assoc]
  · have hcount : [c].count '\n' = 0 := List.count_eq_zero.mpr (by simpa using Ne.symm hc)
    simp [after, next, hc, hcount, Nat.add_comm]

theorem Position.advance_after (before chars : List Char) :
    (after before).advance chars = after (before ++ chars) := by
  induction chars generalizing before with
  | nil => rw [advance_nil, List.append_nil]
  | cons c rest ih => rw [advance_cons, ← after_snoc, ih, List.append_assoc, List.singleton_append]

namespace Lexer

/-- Behind what stands before, the text consists of blanks and of spellings of the tokens. -/
inductive Laid : List Char → List Char → List Located → Prop where
  | finish {before : List Char} : Laid before [] [⟨.eof, .after before⟩]
  | blank {before rest : List Char} {c : Char} {tokens : List Located}
      (hblank : c ∈ [' ', '\t', '\r', '\n']) (laid : Laid (before ++ [c]) rest tokens) :
      Laid before (c :: rest) tokens
  | token {before lexeme rest : List Char} {token : Token} {tokens : List Located}
      (spells : Spells token lexeme) (maximal : Maximal lexeme rest)
      (laid : Laid (before ++ lexeme) rest tokens) :
      Laid before (lexeme ++ rest) (⟨token, .after before⟩ :: tokens)

/-! Single tokens. -/

def Reads (position : Position) (chars : List Char) (lexeme : Lexeme) : Prop :=
  ∃ written, chars = written ++ lexeme.rest ∧ Spells lexeme.token written ∧
    Maximal written lexeme.rest ∧ lexeme.stop = position.advance written

theorem dropWhile_stops (p : Char → Bool) (chars : List Char) :
    ∀ c ∈ (chars.dropWhile p).head?, p c = false := by
  intro c member
  have hstop := List.head?_dropWhile_not p chars
  rw [Option.mem_def.mp member] at hstop
  exact hstop

theorem run_split {p : Char → Bool} {run rest : List Char} (hrun : ∀ c ∈ run, p c = true)
    (hstop : ∀ c ∈ rest.head?, p c = false) :
    (run ++ rest).takeWhile p = run ∧ (run ++ rest).dropWhile p = rest := by
  have htake : rest.takeWhile p = [] ∧ rest.dropWhile p = rest := by
    cases rest with
    | nil => exact ⟨rfl, rfl⟩
    | cons c further => simp [hstop c rfl]
  rw [List.takeWhile_append_of_pos hrun, List.dropWhile_append_of_pos hrun, htake.1, htake.2,
    List.append_nil]
  exact ⟨rfl, rfl⟩

theorem scanString_reads {opening position : Position} {text chars : List Char} {lexeme : Lexeme}
    (hscan : scanString opening position text chars = .ok lexeme) :
    ∃ more written, chars = written ++ '"' :: lexeme.rest ∧ Writes more written ∧
      lexeme.token = .string (String.ofList (text.reverse ++ more)) ∧
      lexeme.stop = position.advance (written ++ ['"']) := by
  fun_induction scanString opening position text chars with
  | case1 | case3 => cases hscan
  | case2 position text rest =>
      cases hscan
      exact ⟨[], [], rfl, .nil, by simp, rfl⟩
  | case4 position text c rest plain hescape ih =>
      obtain ⟨more, written, rfl, writes, htoken, hstop⟩ := ih hscan
      exact ⟨plain :: more, '\\' :: c :: written, rfl,
        .escape (unescape?_eq_some_iff.mp hescape) writes,
        by simpa using htoken, hstop⟩
  | case5 => cases hscan
  | case6 position text c rest hquote hbackslash hother ih =>
      have hplain : c ≠ '\\' := by
        intro hc
        cases rest with
        | nil => exact hbackslash hc rfl
        | cons d further => exact hother d further hc rfl
      obtain ⟨more, written, rfl, writes, htoken, hstop⟩ := ih hscan
      exact ⟨c :: more, c :: written, rfl, .plain hquote hplain writes, by simpa using htoken,
        hstop⟩

theorem scanString_writes {more written : List Char} (writes : Writes more written)
    (opening position : Position) (text rest : List Char) :
    scanString opening position text (written ++ '"' :: rest) =
      .ok ⟨.string (String.ofList (text.reverse ++ more)), position.advance (written ++ ['"']),
        rest⟩ := by
  induction writes generalizing position text with
  | nil => simp [scanString]
  | @plain c _ written hquote hbackslash _ ih =>
      have hstep : scanString opening position text (c :: (written ++ '"' :: rest)) =
          scanString opening (position.next c) (c :: text) (written ++ '"' :: rest) := by
        rw [scanString] <;> simp_all
      rw [List.cons_append, hstep, ih]
      simp
  | @escape c plain _ written escapes _ ih =>
      have hstep : scanString opening position text ('\\' :: c :: (written ++ '"' :: rest)) =
          scanString opening ((position.next '\\').next c) (plain :: text)
            (written ++ '"' :: rest) := by
        rw [scanString, unescape?_eq_some_iff.mpr escapes]
      rw [List.cons_append, List.cons_append, hstep, ih]
      simp

theorem scanToken_quote (position : Position) (rest : List Char) :
    scanToken position '"' rest = scanString position (position.next '"') [] rest := rfl

theorem scanToken_digit {c : Char} (hdigit : c.isDigit = true) (position : Position)
    (rest : List Char) : scanToken position c rest = scanInteger position (c :: rest) := by
  have hquote : c ≠ '"' := by
    intro hc
    subst hc
    cases hdigit
  simp [scanToken, hquote, hdigit]

theorem scanToken_letter {c : Char} (hstart : isIdentStart c = true) (position : Position)
    (rest : List Char) : scanToken position c rest = .ok (scanWord position (c :: rest)) := by
  have hquote : c ≠ '"' := by
    intro hc
    subst hc
    exact absurd hstart (by decide)
  have hdigit : c.isDigit = false := by
    by_contra hdigit
    rw [not_isIdentStart_of_isDigit (by simpa using hdigit)] at hstart
    cases hstart
  simp [scanToken, hquote, hdigit, hstart]

theorem scanToken_sign {c : Char} {token : Token} (hsign : Token.sign? c = some token)
    (position : Position) (rest : List Char) :
    scanToken position c rest = scanSign position c rest := by
  obtain ⟨hquote, hdigit, hstart, -⟩ := sign_begins hsign
  simp [scanToken, hquote, hdigit, hstart]

theorem scanInteger_reads {position : Position} {c : Char} {rest : List Char} {lexeme : Lexeme}
    (hdigit : c.isDigit = true) (hscan : scanInteger position (c :: rest) = .ok lexeme) :
    Reads position (c :: rest) lexeme := by
  have hdigits : Digits ((c :: rest).takeWhile Char.isDigit) := by
    refine ⟨by simp [hdigit], fun d member => ?_⟩
    exact List.all_eq_true.mp List.all_takeWhile d member
  unfold scanInteger at hscan
  dsimp only at hscan
  split at hscan
  next hvalue =>
    cases hscan
    refine ⟨_, List.takeWhile_append_dropWhile.symm, .integer hdigits ?_,
      (maximal_digits hdigits).mpr (dropWhile_stops _ _), rfl⟩
    exact Int64.toInt_ofNat_of_lt hvalue
  next => cases hscan

theorem scanWord_reads {position : Position} {c : Char} {rest : List Char}
    (hstart : isIdentStart c = true) :
    Reads position (c :: rest) (scanWord position (c :: rest)) := by
  have hword : Word ((c :: rest).takeWhile isIdentRest) := by
    rw [List.takeWhile_cons, if_pos (isIdentRest_of_isIdentStart hstart)]
    exact ⟨hstart, fun d member => List.all_eq_true.mp List.all_takeWhile d member⟩
  refine ⟨_, List.takeWhile_append_dropWhile.symm, ?_,
    (maximal_word hword).mpr (dropWhile_stops _ _), rfl⟩
  change Spells ((Token.keyword? (String.ofList _)).getD (.ident (String.ofList _))) _
  generalize (c :: rest).takeWhile isIdentRest = word at hword
  cases hkeyword : Token.keyword? (String.ofList word) with
  | none =>
      have spells : Spells (.ident (String.ofList word)) (String.ofList word).toList := by
        apply Spells.ident
        · rwa [String.toList_ofList]
        · intro token hfixed hspelling
          have hreserved := keyword_of_word hfixed (by rwa [hspelling, String.toList_ofList])
          rw [hspelling, hkeyword] at hreserved
          cases hreserved
      rwa [String.toList_ofList] at spells
  | some token =>
      obtain ⟨hfixed, hspelling⟩ := spelling_keyword hkeyword
      have spells := Spells.fixed hfixed
      rwa [hspelling, String.toList_ofList] at spells

theorem scanSign_reads {position : Position} {c : Char} {rest : List Char} {lexeme : Lexeme}
    (hscan : scanSign position c rest = .ok lexeme) : Reads position (c :: rest) lexeme := by
  unfold scanSign at hscan
  split at hscan
  next after token _ hequals =>
    cases hscan
    obtain ⟨hfixed, hspelling⟩ := spelling_signWithEquals hequals
    exact ⟨[c, '='], rfl, hspelling ▸ .fixed hfixed, maximal_signWithEquals hequals, rfl⟩
  next token hsign hother =>
    cases hscan
    obtain ⟨hfixed, hspelling⟩ := spelling_sign hsign
    refine ⟨[c], rfl, hspelling ▸ .fixed hfixed, (maximal_sign hsign).mpr fun hequals => ?_, rfl⟩
    obtain ⟨after, rfl⟩ := List.head?_eq_some_iff.mp hequals
    by_contra hsome
    obtain ⟨longer, hlonger⟩ := Option.ne_none_iff_exists'.mp hsome
    exact hother after longer rfl hlonger
  next => cases hscan

theorem scanToken_reads {position : Position} {c : Char} {rest : List Char} {lexeme : Lexeme}
    (hscan : scanToken position c rest = .ok lexeme) : Reads position (c :: rest) lexeme := by
  unfold scanToken at hscan
  split at hscan
  next hquote =>
    obtain rfl : c = '"' := by simpa using hquote
    obtain ⟨text, written, rfl, writes, htoken, hstop⟩ := scanString_reads hscan
    refine ⟨'"' :: (written ++ ['"']), by simp, ?_, maximal_quoted writes, hstop⟩
    rw [htoken]
    apply Spells.string
    rwa [String.toList_ofList, List.reverse_nil, List.nil_append]
  next =>
    split at hscan
    next hdigit => exact scanInteger_reads hdigit hscan
    next =>
      split at hscan
      next hstart =>
        cases hscan
        exact scanWord_reads hstart
      next => exact scanSign_reads hscan

theorem scanWord_spells {position : Position} {c : Char} {letters rest : List Char} {token : Token}
    (hword : Word (c :: letters)) (maximal : Maximal (c :: letters) rest)
    (htoken : (Token.keyword? (String.ofList (c :: letters))).getD
      (.ident (String.ofList (c :: letters))) = token) :
    scanToken position c (letters ++ rest) =
      .ok ⟨token, position.advance (c :: letters), rest⟩ := by
  obtain ⟨htake, hdrop⟩ := run_split hword.chars ((maximal_word hword).mp maximal)
  rw [List.cons_append] at htake hdrop
  rw [scanToken_letter hword.1, scanWord, htake, hdrop, htoken]

theorem scanSign_single {position : Position} {c : Char} {rest : List Char} {token : Token}
    (hsign : Token.sign? c = some token)
    (hstop : rest.head? = some '=' → Token.signWithEquals? c = none) :
    scanSign position c rest = .ok ⟨token, position.next c, rest⟩ := by
  unfold scanSign
  split
  next hequals =>
    rw [hstop rfl] at hequals
    cases hequals
  next hsingle _ =>
    rw [hsign] at hsingle
    cases hsingle
    rfl
  next hnone _ =>
    rw [hsign] at hnone
    cases hnone

theorem scanSign_withEquals {position : Position} {c : Char} {rest : List Char} {token : Token}
    (hsign : Token.signWithEquals? c = some token) :
    scanSign position c ('=' :: rest) = .ok ⟨token, (position.next c).next '=', rest⟩ := by
  simp only [scanSign, hsign]

theorem scanToken_spells {position : Position} {token : Token} {c : Char} {chars rest : List Char}
    (spells : Spells token (c :: chars)) (maximal : Maximal (c :: chars) rest) :
    scanToken position c (chars ++ rest) = .ok ⟨token, position.advance (c :: chars), rest⟩ := by
  obtain ⟨written, hwritten⟩ : ∃ written, written = c :: chars := ⟨_, rfl⟩
  rw [← hwritten] at spells
  cases spells with
  | @integer _ value hdigits hvalue =>
      subst hwritten
      obtain ⟨htake, hdrop⟩ := run_split hdigits.2 ((maximal_digits hdigits).mp maximal)
      rw [List.cons_append] at htake hdrop
      have hbound : Text.digitsValue (c :: chars) < 2 ^ 63 := by
        have hless := value.toInt_lt
        omega
      have hsame : Int64.ofNat (Text.digitsValue (c :: chars)) = value := by
        apply Int64.toInt_inj.mp
        rw [hvalue]
        exact Int64.toInt_ofNat_of_lt hbound
      rw [scanToken_digit (hdigits.2 c (List.mem_cons_self ..)), scanInteger, htake, hdrop]
      exact (if_pos hbound).trans (by rw [hsame])
  | string writes =>
      cases hwritten
      have hscan := scanString_writes writes position (position.next '"') [] rest
      rw [scanToken_quote, List.append_assoc]
      simpa using hscan
  | @ident name hword hfree =>
      rw [hwritten] at hword
      have hname : String.ofList (c :: chars) = name := by rw [← hwritten, String.ofList_toList]
      apply scanWord_spells hword maximal
      cases hkeyword : Token.keyword? (String.ofList (c :: chars)) with
      | none => rw [hname]; rfl
      | some token =>
          obtain ⟨hfixed, hspelling⟩ := spelling_keyword hkeyword
          exact absurd (hspelling.trans hname) (hfree token hfixed)
  | fixed hfixed =>
      have hkind := fixedKind hfixed
      generalize token.spelling.toList = written at hkind hwritten
      cases hkind with
      | keyword hkeyword hword =>
          rw [hwritten] at hword
          apply scanWord_spells hword maximal
          rw [← hwritten, String.ofList_toList, hkeyword]
          rfl
      | sign hsign =>
          cases hwritten
          rw [scanToken_sign hsign]
          exact scanSign_single hsign ((maximal_sign hsign).mp maximal)
      | signWithEquals hsign =>
          cases hwritten
          obtain ⟨_, hshort⟩ := sign?_of_signWithEquals? hsign
          rw [scanToken_sign hshort]
          exact scanSign_withEquals hsign

/-! Whole texts. -/

theorem isBlank_iff {c : Char} : isBlank c = true ↔ c ∈ [' ', '\t', '\r', '\n'] := by
  simp [isBlank, or_assoc]

theorem Kind.not_blank {c : Char} {rest : List Char} (kind : Kind (c :: rest)) :
    isBlank c = false := by
  have hother : ∀ d ∈ [' ', '\t', '\r', '\n'], d.isDigit = false ∧ isIdentStart d = false := by
    intro d member
    simp only [List.mem_cons, List.not_mem_nil, or_false] at member
    rcases member with rfl | rfl | rfl | rfl <;> exact ⟨rfl, rfl⟩
  by_contra hblank
  rw [Bool.not_eq_false] at hblank
  obtain ⟨hdigit, hstart⟩ := hother c (isBlank_iff.mp hblank)
  cases kind with
  | digits hdigits =>
      rw [hdigits.2 c (List.mem_cons_self ..)] at hdigit
      cases hdigit
  | quoted _ => cases hblank
  | word hword =>
      rw [hword.1] at hstart
      cases hstart
  | sign hsign _ =>
      rw [(sign_begins hsign).2.2.2] at hblank
      cases hblank

theorem scan_blank {position : Position} {done : List Located} {c : Char} {rest : List Char}
    (hblank : isBlank c = true) :
    scan position done (c :: rest) = scan (position.next c) done rest := by
  rw [scan, if_pos hblank]

theorem scan_token {position : Position} {done : List Located} {c : Char} {rest : List Char}
    {lexeme : Lexeme} (hblank : isBlank c = false)
    (hread : scanToken position c rest = .ok lexeme) :
    scan position done (c :: rest) =
      scan lexeme.stop (⟨lexeme.token, position⟩ :: done) lexeme.rest := by
  rw [scan, if_neg (by simp [hblank])]
  split
  next hfails =>
    rw [hread] at hfails
    cases hfails
  next hsame =>
    rw [hread] at hsame
    cases hsame
    rfl

theorem scan_laid {position : Position} {before : List Char} {done tokens : List Located}
    {chars : List Char} (hposition : position = .after before)
    (hscan : scan position done chars = .ok tokens) :
    ∃ more, tokens = done.reverse ++ more ∧ Laid before chars more := by
  fun_induction scan position done chars generalizing before with
  | case1 position done =>
      cases hscan
      subst hposition
      exact ⟨[⟨.eof, .after before⟩], by simp, .finish⟩
  | case2 position done c rest hblank ih =>
      subst hposition
      obtain ⟨more, hmore, laid⟩ := ih (Position.after_snoc before c).symm hscan
      exact ⟨more, hmore, .blank (isBlank_iff.mp hblank) laid⟩
  | case3 => cases hscan
  | case4 position done c rest hblank lexeme hread ih =>
      subst hposition
      obtain ⟨written, hwritten, spells, maximal, hstop⟩ := scanToken_reads hread
      rw [Position.advance_after] at hstop
      obtain ⟨more, hmore, laid⟩ := ih hstop hscan
      rw [hwritten]
      exact ⟨_, by simpa using hmore, .token spells maximal laid⟩

theorem Laid.scan {before chars : List Char} {tokens : List Located}
    (laid : Laid before chars tokens) (done : List Located) :
    scan (.after before) done chars = .ok (done.reverse ++ tokens) := by
  induction laid generalizing done with
  | finish => simp [Lexer.scan]
  | blank hblank _ ih => rw [scan_blank (isBlank_iff.mpr hblank), ← Position.after_snoc, ih]
  | @token before written rest token tokens spells maximal _ ih =>
      have kind := Form.kind (.inr ⟨token, spells⟩)
      obtain ⟨c, chars, rfl⟩ := List.exists_cons_of_ne_nil kind.ne_nil
      rw [List.cons_append, scan_token kind.not_blank (scanToken_spells spells maximal),
        Position.advance_after, ih]
      simp

theorem Laid.ends {before chars : List Char} {tokens : List Located}
    (laid : Laid before chars tokens) :
    ∃ spelled, tokens = spelled ++ [⟨.eof, .after (before ++ chars)⟩] ∧
      ∀ located ∈ spelled, located.token ≠ .eof := by
  induction laid with
  | finish => exact ⟨[], by simp, by simp⟩
  | blank _ _ ih =>
      obtain ⟨spelled, rfl, hspelled⟩ := ih
      exact ⟨spelled, by simp, hspelled⟩
  | @token before _ _ token _ spells _ _ ih =>
      obtain ⟨spelled, rfl, hspelled⟩ := ih
      refine ⟨⟨token, .after before⟩ :: spelled, by simp, List.forall_mem_cons.mpr ⟨?_, hspelled⟩⟩
      intro heof
      cases heof
      cases spells with
      | fixed hfixed => exact hfixed

/-- A text is read as some tokens exactly if it consists of their spellings and of blanks, where
each spelling goes as far as it can, and they have the places where their spellings begin; one more
token marks the end. -/
theorem tokenize_eq_ok_iff {source : String} {tokens : List Located} :
    tokenize source = .ok tokens ↔
      Laid [] source.toList tokens ∧
        ∃ spelled, tokens = spelled ++ [⟨.eof, .after source.toList⟩] ∧
          ∀ located ∈ spelled, located.token ≠ .eof := by
  constructor
  · intro hscan
    have hstart : Position.start = .after [] := rfl
    obtain ⟨more, rfl, laid⟩ := scan_laid hstart hscan
    exact ⟨laid, laid.ends⟩
  · intro hlaid
    exact hlaid.1.scan []

/-- A string literal with all escapes goes over two lines, and neither sign nor number needs a blank
behind it. -/
theorem tokenize_escapes :
    let source := "a\n \"\\n\\t\\r\\\\\\\"\ny\"==1b"
    let tokens : List Located := [⟨.ident "a", ⟨1, 1⟩⟩, ⟨.string "\n\t\r\\\"\ny", ⟨2, 2⟩⟩,
      ⟨.equal, ⟨3, 3⟩⟩, ⟨.integer 1, ⟨3, 5⟩⟩, ⟨.ident "b", ⟨3, 6⟩⟩, ⟨.eof, ⟨3, 7⟩⟩]
    tokenize source = .ok tokens ∧ Laid [] source.toList tokens := by
  intro source tokens
  have hread : tokenize source = .ok tokens := by cbv
  exact ⟨hread, (tokenize_eq_ok_iff.mp hread).1⟩

end Lexer

end Stacklang
