import Stacklang.Compile.Program
import Stacklang.Proofs.Code.Stream
import Stacklang.Proofs.Program.KeyOrder
import Stacklang.Proofs.Scope.Valid

namespace Stacklang

def Symbol.load (symbol : Symbol) : Instruction :=
  match symbol.place with
  | .global => ⟨.getGlobal, [symbol.index]⟩
  | .localSlot => ⟨.getLocal, [symbol.index]⟩
  | .builtin => ⟨.getBuiltin, [symbol.index]⟩
  | .captured => ⟨.getFree, [symbol.index]⟩
  | .self => ⟨.currentClosure, []⟩

def Symbol.store (symbol : Symbol) : Instruction :=
  match symbol.place with
  | .global => ⟨.setGlobal, [symbol.index]⟩
  | _ => ⟨.setLocal, [symbol.index]⟩

def Scope.entry (scope : Scope) (name : Option String) (parameters : List String) : Scope :=
  parameters.foldl (fun scope parameter => (scope.define parameter).2)
    (match name with
      | some name => (scope.enter.defineSelf name).2
      | none => scope.enter)

def Expr.constant? : Expr → Option Constant
  | .integer value => some (.integer value)
  | .string text => some (.string text)
  | _ => none

def Stmt.isExpr : Stmt → Bool
  | .expr _ => true
  | _ => false

def Stmt.value : Stmt → Expr
  | .bind _ value | .ret value | .expr value => value

def Constant.Grows (constants later : Array Constant) : Prop :=
  ∀ ⦃index : Nat⦄ ⦃constant : Constant⦄, constants[index]? = some constant →
    later[index]? = some constant

namespace Constant

theorem Grows.refl (constants : Array Constant) : Grows constants constants :=
  fun _ _ hfound => hfound

theorem Grows.trans {first second third : Array Constant} (hleft : Grows first second)
    (hright : Grows second third) : Grows first third :=
  fun _ _ hfound => hright (hleft hfound)

theorem grows_push (constants : Array Constant) (constant : Constant) :
    Grows constants (constants.push constant) := by
  intro index found hfound
  have hinside : index < constants.size := by
    rcases Nat.lt_or_ge index constants.size with hinside | houtside
    · exact hinside
    · rw [Array.getElem?_eq_none houtside] at hfound
      cases hfound
  rw [Array.getElem?_push_lt hinside, ← Array.getElem?_eq_getElem hinside, hfound]

theorem Grows.size_le {constants later : Array Constant} (grows : Grows constants later) :
    constants.size ≤ later.size := by
  refine Nat.le_of_not_lt fun hless => ?_
  have hfound := grows (Array.getElem?_eq_getElem hless)
  rw [Array.getElem?_eq_none (Nat.le_refl _)] at hfound
  cases hfound

end Constant

namespace Compile

open Instruction

inductive Part where
  | expr (expr : Expr)
  | exprs (exprs : List Expr)
  | pairs (pairs : List (Expr × Expr))
  | stmt (stmt : Stmt)
  | block (stmts : List Stmt)
  /-- Statements with the value of the last one, or null, left on the stack. -/
  | branch (stmts : List Stmt)
  | otherwise (alternative : Option (List Stmt))
  | body (stmts : List Stmt)

structure Stage where
  scope : Scope
  constants : Array Constant

/-- The part, compiled at the given stage for the given offset, has these instructions, and behind it
the compilation has come to a further stage. -/
inductive Emits : Part → Stage → Nat → List Instruction → Stage → Prop where
  | literal {expr : Expr} {constant : Constant} {stage : Stage} {offset : Nat}
      (hconstant : expr.constant? = some constant)
      (hfits : Fits ⟨.constant, [stage.constants.size]⟩) :
      Emits (.expr expr) stage offset [⟨.constant, [stage.constants.size]⟩]
        ⟨stage.scope, stage.constants.push constant⟩
  | boolean {value : Bool} {stage : Stage} {offset : Nat} :
      Emits (.expr (.boolean value)) stage offset
        [⟨if value then .pushTrue else .pushFalse, []⟩] stage
  | ident {name : String} {stage : Stage} {offset : Nat} {symbol : Symbol} {scope : Scope}
      (hresolve : stage.scope.resolve name = some (symbol, scope))
      (hfits : symbol.load.Fits) :
      Emits (.expr (.ident name)) stage offset [symbol.load] ⟨scope, stage.constants⟩
  | unary {op : UnaryOp} {operand : Expr} {stage finish : Stage} {offset : Nat}
      {code : List Instruction}
      (hoperand : Emits (.expr operand) stage offset code finish) :
      Emits (.expr (.unary op operand)) stage offset (code ++ [⟨unaryOpcode op, []⟩]) finish
  | binary {op : BinaryOp} {opcode : Opcode} {left right : Expr} {stage middle finish : Stage}
      {offset : Nat} {leftCode rightCode : List Instruction}
      (hopcode : binaryOpcode? op = some opcode)
      (hleft : Emits (.expr left) stage offset leftCode middle)
      (hright : Emits (.expr right) middle (offset + sizeAll leftCode) rightCode finish) :
      Emits (.expr (.binary op left right)) stage offset
        (leftCode ++ rightCode ++ [⟨opcode, []⟩]) finish
  | less {left right : Expr} {stage middle finish : Stage} {offset : Nat}
      {leftCode rightCode : List Instruction}
      (hright : Emits (.expr right) stage offset rightCode middle)
      (hleft : Emits (.expr left) middle (offset + sizeAll rightCode) leftCode finish) :
      Emits (.expr (.binary .less left right)) stage offset
        (rightCode ++ leftCode ++ [⟨.greaterThan, []⟩]) finish
  | cond {condition : Expr} {consequence : List Stmt} {alternative : Option (List Stmt)}
      {stage first second finish : Stage} {offset toAlternative toEnd : Nat}
      {conditionCode consequenceCode alternativeCode : List Instruction}
      (hcondition : Emits (.expr condition) stage offset conditionCode first)
      (hconsequence : Emits (.branch consequence) first (offset + sizeAll conditionCode + 3)
        consequenceCode second)
      (hto : toAlternative = offset + sizeAll conditionCode + 3 + sizeAll consequenceCode + 3)
      (halternative : Emits (.otherwise alternative) second toAlternative alternativeCode finish)
      (hend : toEnd = toAlternative + sizeAll alternativeCode)
      (hfirst : Fits ⟨.jumpNotTruthy, [toAlternative]⟩) (hsecond : Fits ⟨.jump, [toEnd]⟩) :
      Emits (.expr (.cond condition consequence alternative)) stage offset
        (conditionCode ++ ⟨.jumpNotTruthy, [toAlternative]⟩ ::
          (consequenceCode ++ ⟨.jump, [toEnd]⟩ :: alternativeCode)) finish
  | noAlternative {stage : Stage} {offset : Nat} :
      Emits (.otherwise none) stage offset [⟨.pushNull, []⟩] stage
  | alternative {stmts : List Stmt} {stage finish : Stage} {offset : Nat}
      {code : List Instruction} (hbranch : Emits (.branch stmts) stage offset code finish) :
      Emits (.otherwise (some stmts)) stage offset code finish
  | array {items : List Expr} {stage finish : Stage} {offset : Nat} {code : List Instruction}
      (hitems : Emits (.exprs items) stage offset code finish)
      (hfits : Fits ⟨.array, [items.length]⟩) :
      Emits (.expr (.array items)) stage offset (code ++ [⟨.array, [items.length]⟩]) finish
  | hash {pairs : List (Expr × Expr)} {stage finish : Stage} {offset : Nat}
      {code : List Instruction}
      (hpairs : Emits (.pairs (Expr.keyOrder pairs)) stage offset code finish)
      (hfits : Fits ⟨.hash, [2 * pairs.length]⟩) :
      Emits (.expr (.hash pairs)) stage offset (code ++ [⟨.hash, [2 * pairs.length]⟩]) finish
  | index {container index : Expr} {stage middle finish : Stage} {offset : Nat}
      {containerCode indexCode : List Instruction}
      (hcontainer : Emits (.expr container) stage offset containerCode middle)
      (hindex : Emits (.expr index) middle (offset + sizeAll containerCode) indexCode finish) :
      Emits (.expr (.index container index)) stage offset
        (containerCode ++ indexCode ++ [⟨.index, []⟩]) finish
  | function {name : Option String} {parameters : List String} {body : List Stmt}
      {stage inner : Stage} {outer : Scope} {offset : Nat} {instructions : List Instruction}
      {code : Code}
      (hparameters : parameters.length ≤ maxParameters)
      (hbody : Emits (.body body) ⟨stage.scope.entry name parameters, stage.constants⟩ 0
        instructions inner)
      (hleave : inner.scope.leave? = some outer)
      (hcode : code.toList = encodeAll instructions)
      (hloads : ∀ symbol ∈ inner.scope.table.captures, symbol.load.Fits)
      (hfits : Fits ⟨.closure, [inner.constants.size, inner.scope.table.captures.length]⟩) :
      Emits (.expr (.function name parameters body)) stage offset
        (inner.scope.table.captures.map Symbol.load ++
          [⟨.closure, [inner.constants.size, inner.scope.table.captures.length]⟩])
        ⟨outer, inner.constants.push
          (.function ⟨code, inner.scope.table.definitions, parameters.length⟩)⟩
  | call {callee : Expr} {arguments : List Expr} {stage middle finish : Stage} {offset : Nat}
      {calleeCode argumentsCode : List Instruction}
      (hcallee : Emits (.expr callee) stage offset calleeCode middle)
      (harguments : Emits (.exprs arguments) middle (offset + sizeAll calleeCode) argumentsCode
        finish)
      (hfits : Fits ⟨.call, [arguments.length]⟩) :
      Emits (.expr (.call callee arguments)) stage offset
        (calleeCode ++ argumentsCode ++ [⟨.call, [arguments.length]⟩]) finish
  | noExprs {stage : Stage} {offset : Nat} : Emits (.exprs []) stage offset [] stage
  | exprs {expr : Expr} {rest : List Expr} {stage middle finish : Stage} {offset : Nat}
      {code restCode : List Instruction}
      (hexpr : Emits (.expr expr) stage offset code middle)
      (hrest : Emits (.exprs rest) middle (offset + sizeAll code) restCode finish) :
      Emits (.exprs (expr :: rest)) stage offset (code ++ restCode) finish
  | noPairs {stage : Stage} {offset : Nat} : Emits (.pairs []) stage offset [] stage
  | pairs {key value : Expr} {rest : List (Expr × Expr)} {stage first second finish : Stage}
      {offset : Nat} {keyCode valueCode restCode : List Instruction}
      (hkey : Emits (.expr key) stage offset keyCode first)
      (hvalue : Emits (.expr value) first (offset + sizeAll keyCode) valueCode second)
      (hrest : Emits (.pairs rest) second (offset + sizeAll keyCode + sizeAll valueCode) restCode
        finish) :
      Emits (.pairs ((key, value) :: rest)) stage offset (keyCode ++ valueCode ++ restCode) finish
  | exprStmt {value : Expr} {stage finish : Stage} {offset : Nat} {code : List Instruction}
      (hvalue : Emits (.expr value) stage offset code finish) :
      Emits (.stmt (.expr value)) stage offset (code ++ [⟨.pop, []⟩]) finish
  | bind {name : String} {value : Expr} {stage finish : Stage} {offset : Nat}
      {code : List Instruction}
      (hvalue : Emits (.expr value) stage offset code finish)
      (hfits : (finish.scope.define name).1.store.Fits) :
      Emits (.stmt (.bind name value)) stage offset
        (code ++ [(finish.scope.define name).1.store])
        ⟨(finish.scope.define name).2, finish.constants⟩
  | ret {value : Expr} {stage finish : Stage} {offset : Nat} {code : List Instruction}
      (hinside : stage.scope.isTopLevel = false)
      (hvalue : Emits (.expr value) stage offset code finish) :
      Emits (.stmt (.ret value)) stage offset (code ++ [⟨.returnValue, []⟩]) finish
  | noStmts {stage : Stage} {offset : Nat} : Emits (.block []) stage offset [] stage
  | stmts {stmt : Stmt} {rest : List Stmt} {stage middle finish : Stage} {offset : Nat}
      {code restCode : List Instruction}
      (hstmt : Emits (.stmt stmt) stage offset code middle)
      (hrest : Emits (.block rest) middle (offset + sizeAll code) restCode finish) :
      Emits (.block (stmt :: rest)) stage offset (code ++ restCode) finish
  | emptyBranch {stage : Stage} {offset : Nat} :
      Emits (.branch []) stage offset [⟨.pushNull, []⟩] stage
  | branchValue {value : Expr} {stage finish : Stage} {offset : Nat} {code : List Instruction}
      (hvalue : Emits (.expr value) stage offset code finish) :
      Emits (.branch [.expr value]) stage offset code finish
  | branchStmt {stmt : Stmt} {rest : List Stmt} {stage middle finish : Stage} {offset : Nat}
      {code restCode : List Instruction} (hmore : stmt.isExpr = false ∨ rest ≠ [])
      (hstmt : Emits (.stmt stmt) stage offset code middle)
      (hrest : Emits (.branch rest) middle (offset + sizeAll code) restCode finish) :
      Emits (.branch (stmt :: rest)) stage offset (code ++ restCode) finish
  | emptyBody {stage : Stage} {offset : Nat} :
      Emits (.body []) stage offset [⟨.returnNull, []⟩] stage
  | bodyValue {value : Expr} {stage finish : Stage} {offset : Nat} {code : List Instruction}
      (hvalue : Emits (.expr value) stage offset code finish) :
      Emits (.body [.expr value]) stage offset (code ++ [⟨.returnValue, []⟩]) finish
  | bodyReturn {value : Expr} {stage finish : Stage} {offset : Nat} {code : List Instruction}
      (hreturn : Emits (.stmt (.ret value)) stage offset code finish) :
      Emits (.body [.ret value]) stage offset code finish
  | bodyStmt {stmt : Stmt} {rest : List Stmt} {stage middle finish : Stage} {offset : Nat}
      {code restCode : List Instruction}
      (hmore : (∃ name value, stmt = .bind name value) ∨ rest ≠ [])
      (hstmt : Emits (.stmt stmt) stage offset code middle)
      (hrest : Emits (.body rest) middle (offset + sizeAll code) restCode finish) :
      Emits (.body (stmt :: rest)) stage offset (code ++ restCode) finish

theorem store_inside {scope : Scope} (hinside : scope.isTopLevel = false) (name : String) :
    (scope.define name).1.store = ⟨.setLocal, [scope.table.definitions]⟩ := by
  simp [Scope.define, Table.define, hinside, Symbol.store]

theorem fits_nil {op : Opcode} (hwidths : op.widths = []) : Fits ⟨op, []⟩ := by
  simp [Fits, hwidths]

theorem fits_unaryOpcode (op : UnaryOp) : Fits ⟨unaryOpcode op, []⟩ := by
  cases op <;> exact fits_nil rfl

theorem fits_binaryOpcode {op : BinaryOp} {opcode : Opcode}
    (hopcode : binaryOpcode? op = some opcode) : Fits ⟨opcode, []⟩ := by
  cases op <;> simp only [binaryOpcode?, Option.some.injEq, reduceCtorEq] at hopcode <;>
    subst hopcode <;> exact fits_nil rfl

theorem forall_mem_snoc {property : Instruction → Prop} {code : List Instruction}
    {last : Instruction} (hcode : ∀ instruction ∈ code, property instruction)
    (hlast : property last) : ∀ instruction ∈ code ++ [last], property instruction :=
  List.forall_mem_append.mpr ⟨hcode, List.forall_mem_singleton.mpr hlast⟩

theorem Emits.fits {part : Part} {stage finish : Stage} {offset : Nat} {code : List Instruction}
    (emits : Emits part stage offset code finish) : ∀ instruction ∈ code, instruction.Fits := by
  induction emits with
  | literal _ hfits | ident _ hfits => simpa using hfits
  | @boolean value => cases value <;> simpa using fits_nil rfl
  | noAlternative | emptyBranch | emptyBody => simpa using fits_nil rfl
  | noExprs | noPairs | noStmts => simp
  | unary _ ih => exact forall_mem_snoc ih (fits_unaryOpcode _)
  | binary hopcode _ _ ihleft ihright =>
      exact forall_mem_snoc (List.forall_mem_append.mpr ⟨ihleft, ihright⟩)
        (fits_binaryOpcode hopcode)
  | less _ _ ihfirst ihsecond | index _ _ ihfirst ihsecond =>
      exact forall_mem_snoc (List.forall_mem_append.mpr ⟨ihfirst, ihsecond⟩) (fits_nil rfl)
  | call _ _ hfits ihcallee iharguments =>
      exact forall_mem_snoc (List.forall_mem_append.mpr ⟨ihcallee, iharguments⟩) hfits
  | array _ hfits ih | hash _ hfits ih | bind _ hfits ih => exact forall_mem_snoc ih hfits
  | exprStmt _ ih | ret _ _ ih | bodyValue _ ih => exact forall_mem_snoc ih (fits_nil rfl)
  | cond _ _ _ _ _ hfirst hsecond ihcondition ihconsequence ihalternative =>
      simp only [List.mem_append, List.mem_cons]
      rintro instruction (member | rfl | member | rfl | member)
      · exact ihcondition instruction member
      · exact hfirst
      · exact ihconsequence instruction member
      · exact hsecond
      · exact ihalternative instruction member
  | function _ _ _ _ hloads hfits _ =>
      exact forall_mem_snoc (List.forall_mem_map.mpr hloads) hfits
  | exprs _ _ ihfirst ihrest | stmts _ _ ihfirst ihrest | branchStmt _ _ _ ihfirst ihrest
  | bodyStmt _ _ _ ihfirst ihrest => exact List.forall_mem_append.mpr ⟨ihfirst, ihrest⟩
  | pairs _ _ _ ihkey ihvalue ihrest =>
      exact List.forall_mem_append.mpr ⟨List.forall_mem_append.mpr ⟨ihkey, ihvalue⟩, ihrest⟩
  | alternative _ ih | branchValue _ ih | bodyReturn _ ih => exact ih

theorem sizeAll_jump {op : Opcode} (hsize : op.size = 3) (operands : List Nat)
    (before after : List Instruction) :
    sizeAll (before ++ ⟨op, operands⟩ :: after) = sizeAll before + 3 + sizeAll after := by
  rw [sizeAll_append, sizeAll_cons, Instruction.size, hsize, Nat.add_assoc]

theorem sizeAll_choice (toAlternative toEnd : Nat)
    (conditionCode consequenceCode alternativeCode : List Instruction) :
    sizeAll (conditionCode ++ ⟨.jumpNotTruthy, [toAlternative]⟩ ::
      (consequenceCode ++ ⟨.jump, [toEnd]⟩ :: alternativeCode)) =
      sizeAll conditionCode + 3 + sizeAll consequenceCode + 3 + sizeAll alternativeCode := by
  rw [sizeAll_jump rfl, sizeAll_jump rfl]
  omega

theorem choice_end {offset toAlternative toEnd : Nat}
    {conditionCode consequenceCode alternativeCode : List Instruction}
    (hto : toAlternative = offset + sizeAll conditionCode + 3 + sizeAll consequenceCode + 3)
    (hend : toEnd = toAlternative + sizeAll alternativeCode) :
    offset + sizeAll (conditionCode ++ ⟨.jumpNotTruthy, [toAlternative]⟩ ::
      (consequenceCode ++ ⟨.jump, [toEnd]⟩ :: alternativeCode)) = toEnd := by
  rw [sizeAll_choice]
  omega

/-- What holds of the scope at the beginning of a body: it is valid, the tables around it are the
ones of the place where the literal stands, and each parameter has got a slot. -/
theorem entry_valid {scope : Scope} (valid : scope.Valid) (name : Option String)
    (parameters : List String) :
    (scope.entry name parameters).Valid ∧
      (scope.entry name parameters).outer = scope.table :: scope.outer ∧
      (scope.entry name parameters).table.definitions = parameters.length ∧
      (scope.entry name parameters).table.captures = [] := by
  have hall : ∀ (names : List String) (start : Scope), start.Valid →
      (names.foldl (fun scope parameter => (scope.define parameter).2) start).Valid ∧
      (names.foldl (fun scope parameter => (scope.define parameter).2) start).outer =
        start.outer ∧
      (names.foldl (fun scope parameter => (scope.define parameter).2) start).table.definitions =
        start.table.definitions + names.length ∧
      (names.foldl (fun scope parameter => (scope.define parameter).2) start).table.captures =
        start.table.captures := by
    intro names
    induction names with
    | nil => exact fun start hstart => ⟨hstart, rfl, rfl, rfl⟩
    | cons parameter rest ih =>
        intro start hstart
        obtain ⟨hvalid, houter, hdefinitions, hcaptures⟩ := ih _ (hstart.define parameter)
        refine ⟨hvalid, houter, ?_, hcaptures⟩
        rw [List.foldl_cons, hdefinitions, List.length_cons]
        simp only [Scope.define, Table.define]
        omega
  cases name with
  | none =>
      obtain ⟨hvalid, houter, hdefinitions, hcaptures⟩ := hall parameters scope.enter valid.enter
      exact ⟨hvalid, houter, hdefinitions.trans (Nat.zero_add _), hcaptures⟩
  | some name =>
      obtain ⟨hvalid, houter, hdefinitions, hcaptures⟩ :=
        hall parameters (scope.enter.defineSelf name).2 (valid.enter.defineSelf rfl name)
      exact ⟨hvalid, houter, hdefinitions.trans (Nat.zero_add _), hcaptures⟩

theorem extends_leave {scope inner outer : Scope} {entered : Scope}
    (hentered : entered.outer = scope.table :: scope.outer) (grows : entered.Grows inner)
    (hleave : inner.leave? = some outer) :
    scope.table.Extends outer.table ∧ Scope.ExtendsAll scope.outer outer.outer := by
  obtain ⟨table, tables⟩ := inner
  have hextends := grows.outer
  rw [hentered] at hextends
  cases hextends with
  | cons head tail =>
      cases hleave
      exact ⟨head, tail⟩

/-- Compiling a part of a program keeps the names in scope valid, and only adds to them. -/
theorem Emits.valid {part : Part} {stage finish : Stage} {offset : Nat} {code : List Instruction}
    (emits : Emits part stage offset code finish) (valid : stage.scope.Valid) :
    finish.scope.Valid ∧ stage.scope.Grows finish.scope := by
  induction emits with
  | literal | boolean | noAlternative | noExprs | noPairs | noStmts | emptyBranch | emptyBody =>
      exact ⟨valid, .refl _⟩
  | ident hresolve _ =>
      obtain ⟨hresolved, hvalid, -⟩ := Scope.resolve_valid valid hresolve
      exact ⟨hvalid, hresolved.grows⟩
  | unary _ ih | alternative _ ih | exprStmt _ ih | branchValue _ ih | bodyValue _ ih
  | bodyReturn _ ih | array _ _ ih | hash _ _ ih | ret _ _ ih => exact ih valid
  | binary _ _ _ ihfirst ihsecond | less _ _ ihfirst ihsecond | index _ _ ihfirst ihsecond
  | call _ _ _ ihfirst ihsecond | exprs _ _ ihfirst ihsecond | stmts _ _ ihfirst ihsecond
  | branchStmt _ _ _ ihfirst ihsecond | bodyStmt _ _ _ ihfirst ihsecond =>
      obtain ⟨hfirst, hgrows⟩ := ihfirst valid
      obtain ⟨hsecond, hgrows'⟩ := ihsecond hfirst
      exact ⟨hsecond, hgrows.trans hgrows'⟩
  | pairs _ _ _ ihkey ihvalue ihrest =>
      obtain ⟨hfirst, hgrows⟩ := ihkey valid
      obtain ⟨hsecond, hgrows'⟩ := ihvalue hfirst
      obtain ⟨hthird, hgrows''⟩ := ihrest hsecond
      exact ⟨hthird, (hgrows.trans hgrows').trans hgrows''⟩
  | cond _ _ _ _ _ _ _ ihcondition ihconsequence ihalternative =>
      obtain ⟨hfirst, hgrows⟩ := ihcondition valid
      obtain ⟨hsecond, hgrows'⟩ := ihconsequence hfirst
      obtain ⟨hthird, hgrows''⟩ := ihalternative hsecond
      exact ⟨hthird, (hgrows.trans hgrows').trans hgrows''⟩
  | function _ _ hleave _ _ _ ih =>
      obtain ⟨hentry, houter, -, -⟩ := entry_valid valid _ _
      obtain ⟨hinner, hgrows⟩ := ih hentry
      obtain ⟨hextends, hall⟩ := extends_leave houter hgrows hleave
      exact ⟨(hinner.leave hleave).1, hextends.grows, hall⟩
  | bind _ _ ih =>
      obtain ⟨hvalue, hgrows⟩ := ih valid
      exact ⟨hvalue.define _, hgrows.trans (Scope.grows_define _ _)⟩

theorem Emits.constants {part : Part} {stage finish : Stage} {offset : Nat}
    {code : List Instruction} (emits : Emits part stage offset code finish) :
    Constant.Grows stage.constants finish.constants := by
  induction emits with
  | literal => exact Constant.grows_push _ _
  | boolean | ident | noAlternative | noExprs | noPairs | noStmts | emptyBranch | emptyBody =>
      exact .refl _
  | unary _ ih | alternative _ ih | exprStmt _ ih | branchValue _ ih | bodyValue _ ih
  | bodyReturn _ ih | array _ _ ih | hash _ _ ih | ret _ _ ih | bind _ _ ih => exact ih
  | binary _ _ _ ihfirst ihsecond | less _ _ ihfirst ihsecond | index _ _ ihfirst ihsecond
  | call _ _ _ ihfirst ihsecond | exprs _ _ ihfirst ihsecond | stmts _ _ ihfirst ihsecond
  | branchStmt _ _ _ ihfirst ihsecond | bodyStmt _ _ _ ihfirst ihsecond =>
      exact ihfirst.trans ihsecond
  | pairs _ _ _ ihkey ihvalue ihrest => exact (ihkey.trans ihvalue).trans ihrest
  | cond _ _ _ _ _ _ _ ihcondition ihconsequence ihalternative =>
      exact (ihcondition.trans ihconsequence).trans ihalternative
  | function _ _ _ _ _ _ ih => exact ih.trans (Constant.grows_push _ _)

end Compile

end Stacklang
