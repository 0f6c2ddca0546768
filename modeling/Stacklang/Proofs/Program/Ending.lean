import Mathlib.Data.List.TakeWhile
import Stacklang.Proofs.Program.Reading

namespace Stacklang

namespace Parse

/-- Two replies, of which the second has the tail behind the tokens of the first, come to the same
value or to the same need, and both leave the same of the tokens that the first has. -/
inductive Alike {α : Type} {start start' : List Located} (tokens tail : List Located) :
    Reply α start → Reply α start' → Prop where
  | done {value : α} {rest : List Located} {shorter : rest.length < start.length}
      {shorter' : (rest ++ tail).length < start'.length} (hleft : rest <:+ tokens) :
      Alike tokens tail (.done value rest shorter) (.done value (rest ++ tail) shorter')
  | fail {need : Need} {rest : List Located} {within : rest.length ≤ start.length}
      {within' : (rest ++ tail).length ≤ start'.length} (hleft : rest <:+ tokens) :
      Alike tokens tail (.fail need rest within) (.fail need (rest ++ tail) within')

section Alike

variable {α β : Type} {start start' middle middle' tokens rest tail : List Located}

theorem Alike.stay {value : α} (rest : List Located) {shorter : rest.length < start.length}
    {shorter' : (rest ++ tail).length < start'.length} :
    Alike rest tail (.done value rest shorter : Reply α start)
      (.done value (rest ++ tail) shorter' : Reply α start') :=
  .done (List.suffix_refl _)

theorem Alike.stop {need : Need} (rest : List Located) {within : rest.length ≤ start.length}
    {within' : (rest ++ tail).length ≤ start'.length} :
    Alike rest tail (.fail need rest within : Reply α start)
      (.fail need (rest ++ tail) within' : Reply α start') :=
  .fail (List.suffix_refl _)

theorem Alike.mono {reply : Reply α start} {reply' : Reply α start'}
    (alike : Alike rest tail reply reply') (hrest : rest <:+ tokens) :
    Alike tokens tail reply reply' := by
  cases alike with
  | done hleft => exact .done (hleft.trans hrest)
  | fail hleft => exact .fail (hleft.trans hrest)

theorem Alike.andThen {reply : Reply β middle} {reply' : Reply β middle'}
    {next : (value : β) → (rest : List Located) → rest.length < middle.length → Reply α start}
    {next' : (value : β) → (rest : List Located) → rest.length < middle'.length → Reply α start'}
    {within : middle.length ≤ start.length} {within' : middle'.length ≤ start'.length}
    (alike : Alike rest tail reply reply') (hrest : rest <:+ tokens)
    (hnext : ∀ value left shorter shorter', left <:+ rest →
      Alike left tail (next value left shorter) (next' value (left ++ tail) shorter')) :
    Alike tokens tail (reply.andThen next within) (reply'.andThen next' within') := by
  cases alike with
  | done hleft => exact (hnext _ _ _ _ hleft).mono (hleft.trans hrest)
  | fail hleft => exact .fail (hleft.trans hrest)

theorem Alike.of_done {value : α} {shorter : rest.length < start.length} {reply' : Reply α start'}
    (alike : Alike tokens tail (.done value rest shorter) reply') :
    ∃ shorter', reply' = .done value (rest ++ tail) shorter' := by
  cases alike with
  | done => exact ⟨_, rfl⟩

theorem Alike.of_fail {need : Need} {within : rest.length ≤ start.length} {reply' : Reply α start'}
    (alike : Alike tokens tail (.fail need rest within) reply') :
    ∃ within', reply' = .fail need (rest ++ tail) within' := by
  cases alike with
  | fail => exact ⟨_, rfl⟩

end Alike

theorem skipSemicolons_suffix (tokens : List Located) : skipSemicolons tokens <:+ tokens :=
  List.dropWhile_suffix _

theorem statement_other {tokens : List Located} (hlet : startsWith .letWord tokens = false)
    (hreturn : startsWith .returnWord tokens = false) :
    statement tokens = (expression .lowest tokens).andThen
      (fun value rest shorter => .done (.expr value) (skipSemicolons rest)
        (Nat.lt_of_le_of_lt (length_skipSemicolons_le rest) shorter))
      (Nat.le_refl _) := by
  rw [statement.eq_def]
  split
  next => cases hlet
  next => cases hreturn
  next => rfl

theorem statements_skipped {start tokens next : List Located} {done : List Stmt}
    {within : tokens.length ≤ start.length} (hskip : skipSemicolons tokens = next) :
    statements done tokens within =
      if startsWith .rightBrace next || ended next then
        (expect .rightBrace next).andThen (fun _ rest shorter =>
          .done done.reverse rest (by
            have := hskip ▸ length_skipSemicolons_le tokens
            omega))
          (Nat.le_trans (hskip ▸ length_skipSemicolons_le tokens) within)
      else
        (statement next).andThen (fun value after shorter =>
          statements (value :: done) after (by
            have := hskip ▸ length_skipSemicolons_le tokens
            omega))
          (Nat.le_trans (hskip ▸ length_skipSemicolons_le tokens) within) := by
  subst hskip
  exact statements.eq_def ..

section Marker

variable {tail : List Located}

theorem tail_append {token : Token} {tokens : List Located}
    (hstarts : startsWith token tokens = true) : (tokens ++ tail).tail = tokens.tail ++ tail := by
  obtain ⟨position, after, rfl⟩ := startsWith_iff.mp hstarts
  rfl

variable (hmarker : startsWith .eof tail = true)

include hmarker

theorem startsWith_append {token : Token} (htoken : token ≠ .eof) (tokens : List Located) :
    startsWith token (tokens ++ tail) = startsWith token tokens := by
  cases tokens with
  | nil =>
      obtain ⟨position, after, rfl⟩ := startsWith_iff.mp hmarker
      simpa [startsWith] using htoken.symm
  | cons located rest => rfl

theorem skipSemicolons_append (tokens : List Located) :
    skipSemicolons (tokens ++ tail) = skipSemicolons tokens ++ tail := by
  induction tokens with
  | nil =>
      obtain ⟨position, after, rfl⟩ := startsWith_iff.mp hmarker
      rfl
  | cons located rest ih =>
      simp only [skipSemicolons] at ih ⊢
      rw [List.cons_append, List.dropWhile_cons, List.dropWhile_cons]
      split
      next => exact ih
      next => rfl

theorem ended_append (tokens : List Located) : ended (tokens ++ tail) = ended tokens := by
  cases tokens with
  | nil =>
      obtain ⟨position, after, rfl⟩ := startsWith_iff.mp hmarker
      rfl
  | cons located rest => rfl

theorem recover_append (tokens : List Located) :
    recover (tokens ++ tail) = recover tokens ++ tail := by
  induction tokens with
  | nil =>
      obtain ⟨position, after, rfl⟩ := startsWith_iff.mp hmarker
      rfl
  | cons located rest ih =>
      simp only [List.cons_append, recover, ih, apply_ite (· ++ tail)]

theorem expect_alike {token : Token} (htoken : token ≠ .eof) (tokens : List Located) :
    Alike tokens tail (expect token tokens) (expect token (tokens ++ tail)) := by
  cases tokens with
  | nil =>
      obtain ⟨position, after, rfl⟩ := startsWith_iff.mp hmarker
      simp only [expect, List.nil_append, if_neg htoken.symm]
      exact .stop []
  | cons located rest =>
      simp only [expect, List.cons_append]
      split
      next => exact .done (List.suffix_cons ..)
      next => exact .stop _

theorem identifier_alike (tokens : List Located) :
    Alike tokens tail (identifier tokens) (identifier (tokens ++ tail)) := by
  cases tokens with
  | nil =>
      obtain ⟨position, after, rfl⟩ := startsWith_iff.mp hmarker
      exact .stop []
  | cons located rest =>
      obtain ⟨token, place⟩ := located
      cases token with
      | ident name => exact .done (List.suffix_cons ..)
      | _ => exact .stop _

theorem close_alike {α : Type} {start start' : List Located} {close : Token} (hclose : close ≠ .eof)
    (value : α) (tokens : List Located) (within : tokens.length ≤ start.length)
    (within' : (tokens ++ tail).length ≤ start'.length) :
    Alike tokens tail
      ((expect close tokens).andThen (fun _ rest _ =>
        (.done value rest (by omega) : Reply α start)) within)
      ((expect close (tokens ++ tail)).andThen (fun _ rest _ =>
        (.done value rest (by omega) : Reply α start')) within') :=
  (expect_alike hmarker hclose tokens).andThen (List.suffix_refl _) fun _ _ _ _ _ =>
    .stay _

theorem parameters_alike {start start' : List Located} (done : List String) (tokens : List Located)
    (within : tokens.length ≤ start.length) (within' : (tokens ++ tail).length ≤ start'.length) :
    Alike tokens tail (parameters done tokens within)
      (parameters done (tokens ++ tail) within') := by
  rw [parameters.eq_def, parameters.eq_def done (tokens ++ tail)]
  refine (identifier_alike hmarker tokens).andThen (List.suffix_refl _)
    fun name afterName shorter _ hafter => ?_
  cases afterName with
  | nil =>
      obtain ⟨position, after, rfl⟩ := startsWith_iff.mp hmarker
      exact close_alike hmarker (by decide) _ [] _ _
  | cons located rest =>
      obtain ⟨token, place⟩ := located
      cases token with
      | comma => exact (parameters_alike (name :: done) rest _ _).mono (List.suffix_cons ..)
      | _ => exact close_alike hmarker (by decide) _ (_ :: rest) _ _
  termination_by tokens.length
  decreasing_by simp only [List.length_cons] at *; omega

theorem skip_alike {α : Type} {start start' : List Located} (value : α) (rest : List Located)
    (shorter : (skipSemicolons rest).length < start.length)
    (shorter' : (skipSemicolons (rest ++ tail)).length < start'.length) :
    Alike rest tail (.done value (skipSemicolons rest) shorter)
      (.done value (skipSemicolons (rest ++ tail)) shorter') := by
  simp only [skipSemicolons_append hmarker]
  exact .done (skipSemicolons_suffix rest)

end Marker

mutual

-- The recursion is that of reading, by the same measures: in every branch both replies take the
-- same tokens, and only a branch that looks at the end of the tokens tells the marker from it.
theorem statement_alike {tail : List Located} (hmarker : startsWith .eof tail = true)
    (tokens : List Located) :
    Alike tokens tail (statement tokens) (statement (tokens ++ tail)) := by
  cases hlet : startsWith .letWord tokens with
  | true =>
      obtain ⟨position, rest, heq⟩ := startsWith_iff.mp hlet
      have hlength : rest.length < tokens.length := by simp [heq]
      rw [heq, statement.eq_def, statement.eq_def (_ :: rest ++ tail)]
      exact (identifier_alike hmarker rest).andThen (List.suffix_cons ..)
        fun name afterName _ _ _ =>
          (expect_alike hmarker (by decide) afterName).andThen (List.suffix_refl _)
            fun _ afterAssign _ _ _ =>
              (expression_alike hmarker .lowest afterAssign).andThen (List.suffix_refl _)
                fun _ left _ _ _ => skip_alike hmarker _ left _ _
  | false =>
      cases hreturn : startsWith .returnWord tokens with
      | true =>
          obtain ⟨position, rest, heq⟩ := startsWith_iff.mp hreturn
          have hlength : rest.length < tokens.length := by simp [heq]
          rw [heq, statement.eq_def, statement.eq_def (_ :: rest ++ tail)]
          exact (expression_alike hmarker .lowest rest).andThen (List.suffix_cons ..)
            fun _ left _ _ _ => skip_alike hmarker _ left _ _
      | false =>
          have hlet' : startsWith .letWord (tokens ++ tail) = false := by
            rw [startsWith_append hmarker (by decide), hlet]
          have hreturn' : startsWith .returnWord (tokens ++ tail) = false := by
            rw [startsWith_append hmarker (by decide), hreturn]
          rw [statement_other hlet hreturn, statement_other hlet' hreturn']
          exact (expression_alike hmarker .lowest tokens).andThen (List.suffix_refl _)
            fun _ left _ _ _ => skip_alike hmarker _ left _ _
  termination_by 5 * tokens.length + 3
  decreasing_by all_goals omega

theorem expression_alike {tail : List Located} (hmarker : startsWith .eof tail = true)
    (level : Level) (tokens : List Located) :
    Alike tokens tail (expression level tokens) (expression level (tokens ++ tail)) := by
  rw [expression, expression]
  exact (operand_alike hmarker tokens).andThen (List.suffix_refl _)
    fun left rest shorter shorter' _ =>
      connectors_alike hmarker level left rest shorter shorter'
  termination_by 5 * tokens.length + 2
  decreasing_by all_goals omega

theorem connectors_alike {tail : List Located} (hmarker : startsWith .eof tail = true)
    {start start' : List Located} (level : Level) (left : Expr) :
    ∀ (tokens : List Located) (shorter : tokens.length < start.length)
      (shorter' : (tokens ++ tail).length < start'.length),
      Alike tokens tail (connectors level left tokens shorter)
        (connectors level left (tokens ++ tail) shorter')
  | [], shorter, shorter' => by
      obtain ⟨position, after, rfl⟩ := startsWith_iff.mp hmarker
      rw [connectors.eq_def, connectors.eq_def level left ([] ++ _)]
      exact .stay []
  | located :: rest, shorter, shorter' => by
      rw [connectors.eq_def, connectors.eq_def level left (located :: rest ++ tail)]
      dsimp only [List.cons_append]
      cases located.token.connector? with
      | none => exact .stay (_ :: rest)
      | some connector =>
          dsimp only
          by_cases hlevel : level < connector.level
          · rw [if_pos hlevel, if_pos hlevel]
            cases connector with
            | binary op =>
                exact (expression_alike hmarker op.level rest).andThen (List.suffix_cons ..)
                  fun right after _ _ _ =>
                    connectors_alike hmarker level (.binary op left right) after _ _
            | call =>
                dsimp only
                rw [startsWith_append hmarker (by decide)]
                by_cases hclose : startsWith .rightParen rest = true
                · rw [if_pos hclose, if_pos hclose]
                  simp only [tail_append hclose]
                  exact (connectors_alike hmarker level (.call left []) rest.tail _ _).mono
                    ((List.tail_suffix _).trans (List.suffix_cons ..))
                · rw [if_neg hclose, if_neg hclose]
                  refine (expressions_alike hmarker (by decide) [] rest _ _).andThen
                    (List.suffix_cons ..) fun arguments after _ _ _ => ?_
                  exact connectors_alike hmarker level (.call left arguments) after _ _
            | index =>
                exact (expression_alike hmarker .lowest rest).andThen (List.suffix_cons ..)
                  fun index afterIndex _ _ _ =>
                    (expect_alike hmarker (by decide) afterIndex).andThen (List.suffix_refl _)
                      fun _ after _ _ _ =>
                        connectors_alike hmarker level (.index left index) after _ _
          · rw [if_neg hlevel, if_neg hlevel]
            exact .stay (_ :: rest)
  termination_by tokens => 5 * tokens.length
  decreasing_by all_goals (try simp only [List.length_cons, List.length_tail] at *); omega

theorem operand_alike {tail : List Located} (hmarker : startsWith .eof tail = true)
    (tokens : List Located) :
    Alike tokens tail (operand tokens) (operand (tokens ++ tail)) := by
  rw [operand.eq_def, operand.eq_def (tokens ++ tail)]
  cases tokens with
  | nil =>
      obtain ⟨position, after, rfl⟩ := startsWith_iff.mp hmarker
      exact .stop []
  | cons located rest =>
      obtain ⟨token, position⟩ := located
      cases token with
      | ident | integer | string | trueWord | falseWord => exact .done (List.suffix_cons ..)
      | bang | minus =>
          exact (expression_alike hmarker .unary rest).andThen (List.suffix_cons ..)
            fun _ _ _ _ _ => .stay _
      | leftParen =>
          exact (expression_alike hmarker .lowest rest).andThen (List.suffix_cons ..)
            fun _ left _ _ _ => close_alike hmarker (by decide) _ left _ _
      | ifWord =>
          refine (expect_alike hmarker (by decide) rest).andThen (List.suffix_cons ..)
            fun _ afterParen _ _ _ => ?_
          refine (expression_alike hmarker .lowest afterParen).andThen (List.suffix_refl _)
            fun condition afterCondition _ _ _ => ?_
          refine (expect_alike hmarker (by decide) afterCondition).andThen (List.suffix_refl _)
            fun _ beforeBlock _ _ _ => ?_
          refine (block_alike hmarker beforeBlock).andThen (List.suffix_refl _)
            fun consequence afterBlock _ _ _ => ?_
          cases afterBlock with
          | nil =>
              obtain ⟨place, after, rfl⟩ := startsWith_iff.mp hmarker
              exact .stay []
          | cons located afterElse =>
              obtain ⟨token, place⟩ := located
              cases token with
              | elseWord =>
                  exact (block_alike hmarker afterElse).andThen (List.suffix_cons ..)
                    fun _ _ _ _ _ => .stay _
              | _ => exact .stay (_ :: afterElse)
      | fnWord =>
          refine (expect_alike hmarker (by decide) rest).andThen (List.suffix_cons ..)
            fun _ afterParen _ _ _ => ?_
          rw [startsWith_append hmarker (by decide)]
          by_cases hclose : startsWith .rightParen afterParen = true
          · obtain ⟨place, after, rfl⟩ := startsWith_iff.mp hclose
            rw [if_pos hclose, if_pos hclose]
            exact (block_alike hmarker after).andThen (List.suffix_cons ..) fun _ _ _ _ _ =>
              .stay _
          · rw [if_neg hclose, if_neg hclose]
            exact (parameters_alike hmarker [] afterParen _ _).andThen (List.suffix_refl _)
              fun names beforeBlock _ _ _ =>
                (block_alike hmarker beforeBlock).andThen (List.suffix_refl _) fun _ _ _ _ _ =>
                  .stay _
      | leftBracket =>
          dsimp only [List.cons_append]
          rw [startsWith_append hmarker (by decide)]
          by_cases hclose : startsWith .rightBracket rest = true
          · obtain ⟨place, after, rfl⟩ := startsWith_iff.mp hclose
            rw [if_pos hclose, if_pos hclose]
            exact .done ((List.suffix_cons ..).trans (List.suffix_cons ..))
          · rw [if_neg hclose, if_neg hclose]
            exact (expressions_alike hmarker (by decide) [] rest _ _).andThen (List.suffix_cons ..)
              fun _ _ _ _ _ => .stay _
      | leftBrace =>
          exact (pairs_alike hmarker [] rest _ _).andThen (List.suffix_cons ..) fun _ _ _ _ _ =>
            .stay _
      | _ => exact .stop (_ :: rest)
  termination_by 5 * tokens.length + 1
  decreasing_by all_goals (try simp only [List.length_cons] at *); omega

theorem expressions_alike {tail : List Located} (hmarker : startsWith .eof tail = true)
    {start start' : List Located} {close : Token} (hclose : close ≠ .eof) (done : List Expr)
    (tokens : List Located) (within : tokens.length ≤ start.length)
    (within' : (tokens ++ tail).length ≤ start'.length) :
    Alike tokens tail (expressions close done tokens within)
      (expressions close done (tokens ++ tail) within') := by
  rw [expressions.eq_def, expressions.eq_def close done (tokens ++ tail)]
  refine (expression_alike hmarker .lowest tokens).andThen (List.suffix_refl _)
    fun value afterValue _ _ _ => ?_
  cases afterValue with
  | nil =>
      obtain ⟨position, after, rfl⟩ := startsWith_iff.mp hmarker
      exact close_alike hmarker hclose _ [] _ _
  | cons located rest =>
      obtain ⟨token, place⟩ := located
      cases token with
      | comma =>
          exact (expressions_alike hmarker hclose (value :: done) rest _ _).mono
            (List.suffix_cons ..)
      | _ => exact close_alike hmarker hclose _ (_ :: rest) _ _
  termination_by 5 * tokens.length + 3
  decreasing_by all_goals (try simp only [List.length_cons] at *); omega

theorem pairs_alike {tail : List Located} (hmarker : startsWith .eof tail = true)
    {start start' : List Located} (done : List (Expr × Expr))
    (tokens : List Located) (within : tokens.length ≤ start.length)
    (within' : (tokens ++ tail).length ≤ start'.length) :
    Alike tokens tail (pairs done tokens within) (pairs done (tokens ++ tail) within') := by
  rw [pairs.eq_def, pairs.eq_def done (tokens ++ tail)]
  by_cases hopen : startsWith .rightBrace tokens = true
  · obtain ⟨position, rest, rfl⟩ := startsWith_iff.mp hopen
    exact .done (List.suffix_cons ..)
  · have hopen' := hopen
    rw [← startsWith_append hmarker (by decide)] at hopen'
    split
    next => exact absurd rfl hopen
    next =>
      split
      next heq _ =>
        rw [heq] at hopen'
        exact absurd rfl hopen'
      next =>
        refine (expression_alike hmarker .lowest tokens).andThen (List.suffix_refl _)
          fun key afterKey _ _ _ => ?_
        refine (expect_alike hmarker (by decide) afterKey).andThen (List.suffix_refl _)
          fun _ afterColon _ _ _ => ?_
        refine (expression_alike hmarker .lowest afterColon).andThen (List.suffix_refl _)
          fun value afterValue _ _ _ => ?_
        rw [startsWith_append hmarker (by decide)]
        by_cases hclose : startsWith .rightBrace afterValue = true
        · obtain ⟨place, after, rfl⟩ := startsWith_iff.mp hclose
          rw [if_pos hclose, if_pos hclose]
          exact .done (List.suffix_cons ..)
        · rw [if_neg hclose, if_neg hclose]
          exact (expect_alike hmarker (by decide) afterValue).andThen (List.suffix_refl _)
            fun _ rest _ _ _ => pairs_alike hmarker ((key, value) :: done) rest _ _
  termination_by 5 * tokens.length + 3
  decreasing_by all_goals omega

theorem block_alike {tail : List Located} (hmarker : startsWith .eof tail = true)
    (tokens : List Located) :
    Alike tokens tail (block tokens) (block (tokens ++ tail)) := by
  rw [block, block]
  exact (expect_alike hmarker (by decide) tokens).andThen (List.suffix_refl _)
    fun _ rest shorter shorter' _ =>
      statements_alike hmarker [] rest (Nat.le_of_lt shorter) (Nat.le_of_lt shorter')
  termination_by 5 * tokens.length
  decreasing_by all_goals omega

theorem statements_alike {tail : List Located} (hmarker : startsWith .eof tail = true)
    {start start' : List Located} (done : List Stmt) (tokens : List Located)
    (within : tokens.length ≤ start.length) (within' : (tokens ++ tail).length ≤ start'.length) :
    Alike tokens tail (statements done tokens within)
      (statements done (tokens ++ tail) within') := by
  have hlength := length_skipSemicolons_le tokens
  have hsuffix := skipSemicolons_suffix tokens
  rw [statements_skipped rfl, statements_skipped (skipSemicolons_append hmarker tokens),
    startsWith_append hmarker (by decide), ended_append hmarker]
  split
  next => exact (close_alike hmarker (by decide) _ _ _ _).mono hsuffix
  next =>
    exact (statement_alike hmarker _).andThen hsuffix fun value after _ _ _ =>
      statements_alike hmarker (value :: done) after _ _
  termination_by 5 * tokens.length + 4
  decreasing_by all_goals omega

end

def Reply.left {α : Type} {start : List Located} : Reply α start → List Located
  | .done _ rest _ => rest
  | .fail _ rest _ => rest

theorem statement_left (tokens : List Located) : (statement tokens).left <:+ tokens := by
  have alike := @statement_alike [⟨.eof, .start⟩] rfl tokens
  generalize statement (tokens ++ _) = reply at alike
  generalize statement tokens = reply' at alike
  cases alike with
  | done hleft => exact hleft
  | fail hleft => exact hleft

def semicolons (tokens : List Located) : Nat :=
  tokens.countP (·.token == .semicolon)

theorem semicolons_le {tokens rest : List Located} (hrest : rest <:+ tokens) :
    semicolons rest ≤ semicolons tokens :=
  hrest.sublist.countP_le

theorem semicolons_left (tokens : List Located) :
    semicolons (statement (skipSemicolons tokens)).left ≤ semicolons tokens :=
  semicolons_le ((statement_left _).trans (skipSemicolons_suffix tokens))

/-- To go on behind a fault uses up a semicolon, or nothing is left before the end marker. -/
theorem semicolons_recover (tokens : List Located) :
    ended (recover tokens) = true ∨ semicolons (recover tokens) < semicolons tokens := by
  induction tokens with
  | nil => exact .inl rfl
  | cons located rest ih =>
      by_cases hmarker : located.token = .eof
      · left
        simp [recover, ended, hmarker]
      · by_cases hsemicolon : located.token = .semicolon
        · right
          simp [recover, semicolons, hsemicolon]
        · simpa [recover, semicolons, hmarker, hsemicolon] using ih

section ToEnd

variable {stop : Position} {done : List Stmt} {errors : List ParseError}
  {tokens next : List Located}

theorem toEnd_ended (hended : ended (skipSemicolons tokens) = true) :
    toEnd stop done errors tokens =
      if errors.isEmpty then .ok ⟨done.reverse⟩ else .error errors.reverse := by
  rw [toEnd.eq_def, dif_pos hended]

theorem toEnd_done {value : Stmt} {rest : List Located} {shorter : rest.length < next.length}
    (hskip : skipSemicolons tokens = next) (hmore : ended next = false)
    (hstmt : statement next = .done value rest shorter) :
    toEnd stop done errors tokens = toEnd stop (value :: done) errors rest := by
  subst hskip
  rw [toEnd.eq_def, dif_neg (by simp [hmore]), hstmt]

theorem toEnd_fail {need : Need} {rest : List Located} {within : rest.length ≤ next.length}
    (hskip : skipSemicolons tokens = next) (hmore : ended next = false)
    (hstmt : statement next = .fail need rest within) :
    toEnd stop done errors tokens =
      toEnd stop done (unmet stop need rest :: errors) (recover rest) := by
  subst hskip
  rw [toEnd.eq_def, dif_neg (by simp [hmore]), hstmt]

end ToEnd

theorem toEnd_errors {stop : Position} {done : List Stmt} {errors failures : List ParseError}
    {tokens : List Located} (hread : toEnd stop done errors tokens = .error failures) :
    1 ≤ failures.length ∧ failures.length ≤ errors.length + (1 + semicolons tokens) := by
  fun_induction toEnd stop done errors tokens with
  | case1 => cases hread
  | case2 done errors tokens hended hsome =>
      cases hread
      rw [List.isEmpty_iff, ← List.length_eq_zero_iff] at hsome
      rw [List.length_reverse]
      omega
  | case3 done errors tokens hmore value after shorter hstmt ih =>
      have hless : semicolons after ≤ semicolons tokens := by
        simpa only [hstmt, Reply.left] using semicolons_left tokens
      obtain ⟨hone, hmany⟩ := ih hread
      omega
  | case4 done errors tokens hmore need after within hstmt ih =>
      have hless : semicolons after ≤ semicolons tokens := by
        simpa only [hstmt, Reply.left] using semicolons_left tokens
      rcases semicolons_recover after with hended | hfewer
      · rw [toEnd_ended (ended_skipSemicolons hended)] at hread
        cases hread
        rw [List.length_reverse, List.length_cons]
        omega
      · obtain ⟨hone, hmany⟩ := ih hread
        rw [List.length_cons] at hmany
        omega

theorem unmet_append (stop position : Position) (need : Need) (tokens after : List Located) :
    unmet stop need (tokens ++ ⟨.eof, position⟩ :: after) = unmet position need tokens := by
  cases tokens with
  | nil => rfl
  | cons located rest => rfl

/-- What stands behind an end marker is not read, and the marker has the place of the end. -/
theorem toEnd_append (stop position : Position) (done : List Stmt) (errors : List ParseError)
    (tokens after : List Located) :
    toEnd stop done errors (tokens ++ ⟨.eof, position⟩ :: after) =
      toEnd position done errors tokens := by
  have hmarker : startsWith .eof (⟨.eof, position⟩ :: after) = true := rfl
  have hskip := skipSemicolons_append hmarker
  have hended := ended_append hmarker
  fun_induction toEnd position done errors tokens with
  | case1 done errors tokens hstop hnone =>
      rw [toEnd_ended (by rwa [hskip, hended]), if_pos hnone]
  | case2 done errors tokens hstop hsome =>
      rw [toEnd_ended (by rwa [hskip, hended]), if_neg hsome]
  | case3 done errors tokens hmore value rest shorter hstmt ih =>
      obtain ⟨_, hstmt'⟩ := (hstmt ▸ statement_alike hmarker (skipSemicolons tokens)).of_done
      rw [toEnd_done (hskip tokens) (by simpa [hended] using hmore) hstmt', ih]
  | case4 done errors tokens hmore need rest within hstmt ih =>
      obtain ⟨_, hstmt'⟩ := (hstmt ▸ statement_alike hmarker (skipSemicolons tokens)).of_fail
      rw [toEnd_fail (hskip tokens) (by simpa [hended] using hmore) hstmt', unmet_append,
        recover_append hmarker, ih]

theorem whole_or_cut (tokens : List Located) :
    (∀ located ∈ tokens, located.token ≠ .eof) ∨
      ∃ before position after, (∀ located ∈ before, located.token ≠ .eof) ∧
        tokens = before ++ ⟨.eof, position⟩ :: after := by
  induction tokens with
  | nil => exact .inl (by simp)
  | cons located rest ih =>
      obtain ⟨token, position⟩ := located
      by_cases hmarker : token = .eof
      · exact .inr ⟨[], position, rest, by simp, by simp [hmarker]⟩
      · refine ih.imp (fun hrest => ?_) fun ⟨before, place, after, hbefore, hcut⟩ => ?_
        · exact List.forall_mem_cons.mpr ⟨hmarker, hrest⟩
        · exact ⟨⟨token, position⟩ :: before, place, after,
            List.forall_mem_cons.mpr ⟨hmarker, hbefore⟩, by rw [hcut, List.cons_append]⟩

/-- Tokens are read as those before the first end marker. -/
theorem ofTokens_cut (tokens : List Located) :
    ∃ stop, Program.ofTokens tokens = toEnd stop [] [] (tokens.takeWhile (·.token != .eof)) := by
  rcases whole_or_cut tokens with hall | ⟨before, position, after, hbefore, rfl⟩
  · refine ⟨lastPosition tokens, ?_⟩
    rw [List.takeWhile_eq_self_iff.mpr (by simpa using hall)]
    rfl
  · refine ⟨position, ?_⟩
    rw [List.takeWhile_append_of_pos (by simpa using hbefore), List.takeWhile_cons_of_neg (by simp),
      List.append_nil]
    exact toEnd_append ..

theorem eq_nil_of_ended {tokens rest : List Located} (hended : ended rest = true)
    (hrest : rest <:+ tokens.takeWhile (·.token != .eof)) : rest = [] := by
  cases rest with
  | nil => rfl
  | cons located after =>
      have hother := List.mem_takeWhile_imp (hrest.subset (List.mem_cons_self ..))
      simp only [bne_iff_ne] at hother
      exact absurd (beq_iff_eq.mp hended) hother

def throughEnd : List Located → List Located
  | [] => []
  | located :: rest => located :: if located.token = .eof then [] else throughEnd rest

theorem throughEnd_append (rest : List Located) {before : List Located}
    (hbefore : ∀ located ∈ before, located.token ≠ .eof) :
    throughEnd (before ++ rest) = before ++ throughEnd rest := by
  induction before with
  | nil => rfl
  | cons located before ih =>
      obtain ⟨hother, hbefore⟩ := List.forall_mem_cons.mp hbefore
      rw [List.cons_append, throughEnd, if_neg hother, ih hbefore]
      rfl

theorem ofTokens_throughEnd (tokens : List Located) :
    Program.ofTokens tokens = Program.ofTokens (throughEnd tokens) := by
  rcases whole_or_cut tokens with hall | ⟨before, position, after, hbefore, rfl⟩
  · have hwhole := throughEnd_append [] hall
    rw [throughEnd, List.append_nil] at hwhole
    rw [hwhole]
  · rw [throughEnd_append _ hbefore, throughEnd, if_pos rfl]
    exact (toEnd_append ..).trans (toEnd_append ..).symm

end Parse

/-- Reading depends only on the tokens up to the first end marker and the marker itself. It gives a
program, or at least one error and at most one more than there are semicolons before the marker. A
statement is read in front of a marker as it is at the end of the tokens, and leaves the marker. -/
theorem Program.ofTokens_ends (tokens : List Located) :
    Program.ofTokens tokens = Program.ofTokens (Parse.throughEnd tokens) ∧
      ((∃ program, Program.ofTokens tokens = .ok program) ∨
        ∃ errors, Program.ofTokens tokens = .error errors ∧ 1 ≤ errors.length ∧
          errors.length ≤ 1 + Parse.semicolons (tokens.takeWhile (·.token != .eof))) ∧
      ∀ before position after,
        Parse.Alike before (⟨.eof, position⟩ :: after) (Parse.statement before)
          (Parse.statement (before ++ ⟨.eof, position⟩ :: after)) := by
  refine ⟨?_, ?_, fun before position after => Parse.statement_alike rfl before⟩
  · exact Parse.ofTokens_throughEnd tokens
  · obtain ⟨stop, hcut⟩ := Parse.ofTokens_cut tokens
    rw [hcut]
    cases hread : Parse.toEnd stop [] [] (tokens.takeWhile (·.token != .eof)) with
    | ok program => exact .inl ⟨program, rfl⟩
    | error errors =>
        obtain ⟨hone, hmany⟩ := Parse.toEnd_errors hread
        rw [List.length_nil, Nat.zero_add] at hmany
        exact .inr ⟨errors, rfl, hone, hmany⟩

/-- As many errors as there can be, and words behind the end marker. -/
example :
    let words : List Token := [.rightParen, .semicolon, .leftBracket, .semicolon, .leftBrace, .eof,
      .rightParen, .semicolon]
    (Program.ofTokens (words.map (⟨·, .start⟩))).mapError List.length = .error 3 := by
  cbv

end Stacklang
