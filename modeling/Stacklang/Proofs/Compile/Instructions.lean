import Stacklang.Proofs.Compile.Simulates

namespace Stacklang.Compile

open Machine Fallible Instruction

variable {pool : Array Constant} {home : Home} {stage : Stage} {offset : Nat}

theorem simulates_push {op : Opcode} {value : Datum} {found : Value}
    (hwidths : op.widths = []) (hrelated : value.Related (link pool) found)
    (hexecute : execute ⟨op, []⟩ = push found) :
    Simulates pool home (.of []) (pure value) (fun value => .of [value]) stage offset [⟨op, []⟩]
      stage := by
  refine simulates_computation (fits_nil hwidths) fun situation machine rest values hstack hvalues
    hroom hworld => ?_
  cases hvalues
  refine ⟨found, machine.world, ?_, hrelated, by rw [hworld]⟩
  rw [hexecute]
  exact push_run (by simpa using hstack) hroom found

theorem forall₂_one {value : Datum} {values : List Value}
    (related : List.Forall₂ (Value.Related (link pool)) [value] values) :
    ∃ found, values = [found] ∧ value.Related (link pool) found := by
  cases related with
  | cons hfirst hrest =>
      cases hrest
      exact ⟨_, rfl, hfirst⟩

theorem forall₂_two {left right : Datum} {values : List Value}
    (related : List.Forall₂ (Value.Related (link pool)) [left, right] values) :
    ∃ lower upper, values = [lower, upper] ∧ left.Related (link pool) lower ∧
      right.Related (link pool) upper := by
  cases related with
  | cons hfirst hrest =>
      obtain ⟨upper, rfl, hsecond⟩ := forall₂_one hrest
      exact ⟨_, upper, rfl, hfirst, hsecond⟩

section

variable {machine : Machine} {situation : Situation} {rest values : List Value}
  {instruction : Instruction}

/-- The operands have been taken, and their values make the instruction fail. -/
theorem computes_fault {fault : Fault} {world : World}
    (hrun : (execute instruction).run machine =
      (.error (.fault fault), { machine with sp := rest.length, world }))
    (hworld : world = situation.world) :
    Computes pool instruction machine rest.length situation (.error (.fault fault), situation) :=
  ⟨_, _, hrun, .inl rfl, hworld, rfl, rfl⟩

end

theorem negate_run {machine : Machine} {rest : List Value} {value : Value}
    (hstack : machine.Stacks (rest ++ [value])) :
    (execute ⟨.negate, []⟩).run machine =
      (match value with
        | .integer n => push (.integer (-n))
        | other => Machine.fail (.unknownUnary "-" other.kind)).run
          { machine with sp := rest.length } := by
  change (pop >>= _).run machine = _
  rewrite [run_bind, pop_run hstack]
  rfl

theorem simulates_unary (op : UnaryOp) (value : Datum) :
    Simulates pool home (.of [value]) (Evaluate.unary op value) (fun value => .of [value]) stage
      offset [⟨unaryOpcode op, []⟩] stage := by
  refine simulates_computation (fits_unaryOpcode op) fun situation machine rest values hstack
    hvalues hroom hworld => ?_
  obtain ⟨found, rfl, hrelated⟩ := forall₂_one hvalues
  cases op with
  | not =>
      refine ⟨.boolean !found.isTruthy, machine.world, ?_, ?_, by rw [hworld]⟩
      · change (pop >>= fun value => push (.boolean !value.isTruthy)).run machine = _
        rw [run_bind, pop_run hstack]
        exact push_cut hstack hroom _ machine.world
      · rw [hrelated.isTruthy]
        exact .boolean _
  | negate =>
      have hrun := negate_run hstack
      cases hrelated with
      | integer n =>
          refine ⟨.integer (-n), machine.world, hrun.trans (push_cut hstack hroom _ machine.world),
            ?_, by rw [hworld]⟩
          rw [Evaluate.wrapped, Int64.ofInt_neg, Int64.ofInt_toInt]
          exact .integer _
      | _ => exact computes_fault hrun hworld

def operator : Arithmetic → BinaryOp
  | .add => .add
  | .sub => .sub
  | .mul => .mul
  | .div => .div

theorem ofInt_tdiv (left right : Int64) :
    Int64.ofInt (left.toInt.tdiv right.toInt) = left / right := by
  rw [Int64.ofInt_tdiv left.minValue_le_toInt left.toInt_le right.minValue_le_toInt right.toInt_le,
    Int64.ofInt_toInt, Int64.ofInt_toInt]

/-- The machine's arithmetic on 64 bits is that on whole numbers, wrapped around. -/
theorem binary_integers (op : Arithmetic) (left right : Int64) :
    Evaluate.binary (operator op) (.integer left) (.integer right) =
      match op.eval left right with
      | .ok n => pure (.integer n)
      | .error fault => Evaluate.fail fault := by
  cases op with
  | add =>
      simp only [operator, Evaluate.binary, Evaluate.add, Evaluate.arithmetic, Evaluate.wrapped,
        Int64.ofInt_add, Int64.ofInt_toInt, Arithmetic.eval]
  | sub =>
      simp only [operator, Evaluate.binary, Evaluate.arithmetic, Evaluate.wrapped,
        Int64.ofInt_sub, Int64.ofInt_toInt, Arithmetic.eval]
  | mul =>
      simp only [operator, Evaluate.binary, Evaluate.arithmetic, Evaluate.wrapped,
        Int64.ofInt_mul, Int64.ofInt_toInt, Arithmetic.eval]
  | div =>
      have hzero : right.toInt = 0 ↔ right = 0 := Int64.toInt_inj (y := 0)
      simp only [operator, Evaluate.binary, Evaluate.divide, Evaluate.wrapped, ofInt_tdiv,
        Arithmetic.eval, hzero]
      split <;> rfl

theorem simulates_arithmetic (op : Arithmetic) {opcode : Opcode} (left right : Datum)
    (hwidths : opcode.widths = []) (hexecute : execute ⟨opcode, []⟩ = arithmetic op) :
    Simulates pool home (.of [left, right]) (Evaluate.binary (operator op) left right)
      (fun value => .of [value]) stage offset [⟨opcode, []⟩] stage := by
  refine simulates_computation (fits_nil hwidths) fun situation machine rest values hstack
    hvalues hroom hworld => ?_
  obtain ⟨lower, upper, rfl, hleft, hright⟩ := forall₂_two hvalues
  have hrun : (execute ⟨opcode, []⟩).run machine = _ :=
    (congrArg (·.run machine) hexecute).trans (popTwo_run hstack _)
  have hdefault : (Evaluate.binary (operator op) left right).run situation =
        (.error (.fault (operandFault op.symbol left right)), situation) →
      (execute ⟨opcode, []⟩).run machine =
        (.error (.fault (operandFault op.symbol lower upper)),
          { machine with sp := rest.length }) →
      Computes pool ⟨opcode, []⟩ machine rest.length situation
        ((Evaluate.binary (operator op) left right).run situation) := by
    intro hevaluate hmachine
    rw [hevaluate]
    rw [← operandFault_related hleft hright] at hmachine
    exact computes_fault hmachine hworld
  cases hleft with
  | integer l =>
      cases hright with
      | integer r =>
          rw [binary_integers]
          cases hresult : op.eval l r with
          | ok n =>
              simp only [hresult] at hrun ⊢
              exact ⟨.integer n, machine.world, hrun.trans (push_cut hstack hroom _ machine.world),
                .integer n, by rw [hworld]⟩
          | error fault =>
              simp only [hresult] at hrun ⊢
              exact computes_fault hrun hworld
      | _ => exact hdefault (by cases op <;> rfl) hrun
  | string ref l =>
      cases hright with
      | string ref' r =>
          cases op with
          | add =>
            refine ⟨.string machine.world.allocate.1 (l ++ r), machine.world.allocate.2, ?_, ?_, ?_⟩
            · exact hrun.trans (push_cut hstack hroom _ machine.world.allocate.2)
            · rw [hworld]
              exact .string _ _
            · rw [hworld]
              rfl
          | _ => exact hdefault rfl hrun
      | _ => exact hdefault (by cases op <;> rfl) hrun
  | _ => exact hdefault (by cases op <;> rfl) hrun

theorem simulates_greater (left right : Datum) :
    Simulates pool home (.of [left, right]) (Evaluate.greater left right) (fun value => .of [value])
      stage offset [⟨.greaterThan, []⟩] stage := by
  refine simulates_computation (fits_nil rfl) fun situation machine rest values hstack
    hvalues hroom hworld => ?_
  obtain ⟨lower, upper, rfl, hleft, hright⟩ := forall₂_two hvalues
  have hrun : (execute ⟨.greaterThan, []⟩).run machine = _ := popTwo_run hstack _
  have hdefault : (Evaluate.greater left right).run situation =
        (.error (.fault (operandFault ">" left right)), situation) →
      (execute ⟨.greaterThan, []⟩).run machine =
        (.error (.fault (operandFault ">" lower upper)), { machine with sp := rest.length }) →
      Computes pool ⟨.greaterThan, []⟩ machine rest.length situation
        ((Evaluate.greater left right).run situation) := by
    intro hevaluate hmachine
    rw [hevaluate]
    rw [← operandFault_related hleft hright] at hmachine
    exact computes_fault hmachine hworld
  cases hleft with
  | integer l =>
      cases hright with
      | integer r =>
          refine ⟨.boolean (decide (r < l)), machine.world,
            hrun.trans (push_cut hstack hroom _ machine.world), ?_, by rw [hworld]⟩
          simp only [← Int64.lt_iff_toInt_lt]
          exact .boolean _
      | _ => exact hdefault rfl hrun
  | _ => exact hdefault rfl hrun

theorem simulates_identical {opcode : Opcode} {wanted result : Bool} {left right : Datum}
    (hwidths : opcode.widths = []) (hexecute : execute ⟨opcode, []⟩ = compareIdentity wanted)
    (hresult : (left.identical right == wanted) = result) :
    Simulates pool home (.of [left, right]) (pure (.boolean result) : EvalM Datum)
      (fun value => .of [value]) stage offset [⟨opcode, []⟩] stage := by
  refine simulates_computation (fits_nil hwidths) fun situation machine rest values hstack
    hvalues hroom hworld => ?_
  obtain ⟨lower, upper, rfl, hleft, hright⟩ := forall₂_two hvalues
  have hrun : (execute ⟨opcode, []⟩).run machine = _ :=
    (congrArg (·.run machine) hexecute).trans (popTwo_run hstack _)
  refine ⟨_, machine.world, hrun.trans (push_cut hstack hroom _ machine.world), ?_, by rw [hworld]⟩
  rw [← hresult, hleft.identical hright]
  exact .boolean _

theorem simulates_binary {op : BinaryOp} {opcode : Opcode}
    (hopcode : binaryOpcode? op = some opcode) (left right : Datum) :
    Simulates pool home (.of [left, right]) (Evaluate.binary op left right)
      (fun value => .of [value]) stage offset [⟨opcode, []⟩] stage := by
  cases op with
  | add =>
      cases hopcode
      exact simulates_arithmetic .add left right rfl rfl
  | sub =>
      cases hopcode
      exact simulates_arithmetic .sub left right rfl rfl
  | mul =>
      cases hopcode
      exact simulates_arithmetic .mul left right rfl rfl
  | div =>
      cases hopcode
      exact simulates_arithmetic .div left right rfl rfl
  | greater =>
      cases hopcode
      exact simulates_greater left right
  | equal =>
      cases hopcode
      exact simulates_identical rfl rfl (beq_true _)
  | notEqual =>
      cases hopcode
      exact simulates_identical rfl rfl (beq_false _)
  | less | lessEqual | greaterEqual => cases hopcode

theorem simulates_array {data : List Datum} (hfits : Fits ⟨.array, [data.length]⟩) :
    Simulates pool home (.of data)
      (do return .array (← Evaluate.newRef) data) (fun value => .of [value])
      stage offset [⟨.array, [data.length]⟩] stage := by
  refine simulates_computation hfits fun situation machine rest values hstack hvalues hroom
    hworld => ?_
  have hrun : (execute ⟨.array, [data.length]⟩).run machine =
      (.ok (), machine.replaced rest.length (.array machine.world.allocate.1 values)
        machine.world.allocate.2) := by
    change (takeRun data.length >>= _).run machine = _
    rw [hvalues.length_eq, run_bind, takeRun_run hstack]
    exact push_cut hstack hroom _ machine.world.allocate.2
  refine ⟨_, _, hrun, ?_, ?_⟩
  · rw [hworld]
    exact .array _ hvalues
  · rw [hworld]
    rfl

theorem hash_run {machine : Machine} {rest values : List Value}
    (hstack : machine.Stacks (rest ++ values)) :
    (execute ⟨.hash, [values.length]⟩).run machine =
      (match hashEntries [] values with
        | .error fault => Machine.fail fault
        | .ok entries => do
            let ref ← newRef
            push (.hash ref entries)).run { machine with sp := rest.length } := by
  change (takeRun values.length >>= _).run machine = _
  rewrite [run_bind, takeRun_run hstack]
  rfl

theorem simulates_hash {data : List Datum} (hfits : Fits ⟨.hash, [data.length]⟩) :
    Simulates pool home (.of data)
      (do
        let entries ← Evaluate.lift (hashEntries [] data)
        return .hash (← Evaluate.newRef) entries)
      (fun value => .of [value]) stage offset [⟨.hash, [data.length]⟩] stage := by
  refine simulates_computation hfits fun situation machine rest values hstack hvalues hroom
    hworld => ?_
  have hrun := hash_run hstack
  rw [← hvalues.length_eq] at hrun
  have hrelated := hashEntries_related .nil hvalues
  generalize hashEntries [] data = entries at hrelated ⊢
  generalize hashEntries [] values = others at hrelated hrun
  cases hrelated with
  | error fault _ => exact computes_fault hrun hworld
  | ok hentries =>
      refine ⟨_, _, hrun.trans (push_cut hstack hroom _ machine.world.allocate.2), ?_, ?_⟩
      · rw [hworld]
        exact .ofEntries _ hentries
      · rw [hworld]
        rfl

theorem simulates_index (container index : Datum) :
    Simulates pool home (.of [container, index]) (Evaluate.lift (lookUp container index))
      (fun value => .of [value]) stage offset [⟨.index, []⟩] stage := by
  refine simulates_computation (fits_nil rfl) fun situation machine rest values hstack hvalues hroom
    hworld => ?_
  obtain ⟨lower, upper, rfl, hleft, hright⟩ := forall₂_two hvalues
  have hrun : (execute ⟨.index, []⟩).run machine = _ := popTwo_run hstack _
  have hrelated := lookUp_related hleft hright
  generalize lookUp container index = outcome at hrelated ⊢
  generalize lookUp lower upper = found at hrelated hrun
  cases hrelated with
  | error fault _ => exact computes_fault hrun hworld
  | ok hvalue =>
      exact ⟨_, _, hrun.trans (push_cut hstack hroom _ machine.world), hvalue, by rw [hworld]⟩

/-! Instructions that depend on where they stand. -/

theorem performs_push {finish : Stage} {situation later : Situation} {machine : Machine}
    {below slots temps : List Value} {instruction : Instruction} {value : Datum} {found : Value}
    (agrees : Agrees pool home stage situation machine below slots temps) (room : machine.Room 1)
    (hexecute : (execute instruction).run (machine.advance instruction) =
      (push found).run (machine.advance instruction))
    (hrelated : value.Related (link pool) found) (hworld : later.world = situation.world)
    (htop : finish.scope.isTopLevel = stage.scope.isTopLevel)
    (situated : Situated pool home finish later machine.frame slots machine.globals) :
    Performs pool instruction machine
      (Behind pool home finish below temps (machine.frame.ip + instruction.size)
        (fun value => .of [value]))
      machine.globals (.ok value, later) := by
  have hroom : (below ++ slots ++ temps).length < machine.stack.size := by
    have := room.stack
    rw [agrees.stack.height]
    omega
  have hadvanced : (machine.advance instruction).Stacks (below ++ slots ++ temps) :=
    ⟨agrees.stack.taken, agrees.stack.height⟩
  have hnothing : Agrees pool home stage situation machine below slots (temps ++ []) := by
    rwa [List.append_nil]
  refine performs_replaced hnothing room ?_ hrelated htop situated
  rw [hexecute, push_run hadvanced hroom, hworld, ← agrees.world]
  rfl

theorem simulates_literal {constant : Constant} {step : EvalM Datum} {value : Nat → Datum}
    (hfits : Fits ⟨.constant, [stage.constants.size]⟩)
    (houses : Houses pool home ⟨stage.scope, stage.constants.push constant⟩)
    (hstep : ∀ situation : Situation, step.run situation =
      (.ok (value situation.place), { situation with place := situation.place + 1 }))
    (hrelated : ∀ place, (value place).Related (link pool) (constant.toValue 0 place)) :
    Simulates pool home (.of []) step (fun value => .of [value]) stage offset
      [⟨.constant, [stage.constants.size]⟩] ⟨stage.scope, stage.constants.push constant⟩ := by
  refine simulates_instruction hfits fun situation machine below slots temps values agrees htop
    room => ?_
  cases htop.1
  rw [List.append_nil] at agrees
  rw [hstep]
  have hfound : pool[stage.constants.size]? = some constant := houses.constants (by simp)
  refine performs_push agrees room ?_ (hrelated _) rfl rfl (agrees.situated.pass (by simp))
  change (pushConstant stage.constants.size).run _ = _
  rw [pushConstant, run_bind, run_get]
  have hconstants : (machine.advance ⟨.constant, [stage.constants.size]⟩).constants = pool :=
    agrees.constants
  have hnumber : (machine.advance ⟨.constant, [stage.constants.size]⟩).pool = 0 := agrees.number
  simp only [hconstants, hfound, hnumber, agrees.situated.place]

theorem getBuiltin_run {machine : Machine} {index : Nat} {builtin : Builtin}
    (hbuiltin : Builtin.all[index]? = some builtin) :
    (execute ⟨.getBuiltin, [index]⟩).run machine = (push (.builtin builtin)).run machine := by
  simp [execute, Instruction.operand, hbuiltin]

theorem getFree_run {machine : Machine} {index : Nat} {value : Value}
    (hvalue : machine.frame.captured[index]? = some value) :
    (execute ⟨.getFree, [index]⟩).run machine = (push value).run machine := by
  simp [execute, Instruction.operand, run_bind, run_get, hvalue]

theorem execute_load {machine : Machine} {symbol : Symbol} {below slots temps : List Value}
    {found : Value} (hstack : machine.Stacks (below ++ slots ++ temps))
    (hbase : machine.frame.base = below.length)
    (hcell : cell? machine.frame slots machine.globals symbol = some found) :
    (execute symbol.load).run machine = (push found).run machine := by
  unfold Symbol.load
  cases hplace : symbol.place with
  | global =>
      simp only [cell?, hplace] at hcell
      change (getGlobal symbol.index).run machine = _
      rw [getGlobal, run_bind, run_get]
      simp only [hcell]
  | localSlot =>
      simp only [cell?, Frame.cell?, hplace] at hcell
      change (getLocal symbol.index).run machine = _
      rw [getLocal, run_bind, run_get]
      have hslot := (List.getElem?_eq_some_iff.mp hcell).1
      have hfound : machine.stack[machine.frame.base + symbol.index]? = some found := by
        rw [hstack.getElem? _ (by simp only [List.length_append]; omega), hbase,
          List.append_assoc, List.getElem?_append_right (by omega), Nat.add_sub_cancel_left,
          List.getElem?_append_left hslot, hcell]
      simp only [hfound]
  | builtin =>
      simp only [cell?, hplace] at hcell
      cases hbuiltin : Builtin.all[symbol.index]? with
      | none =>
          rw [hbuiltin] at hcell
          cases hcell
      | some builtin =>
          rw [hbuiltin] at hcell
          cases hcell
          exact getBuiltin_run hbuiltin
  | captured =>
      simp only [cell?, Frame.cell?, hplace] at hcell
      exact getFree_run hcell
  | self =>
      simp only [cell?, Frame.cell?, hplace] at hcell
      cases hcell
      rfl

theorem simulates_read {name : String} {symbol : Symbol} {scope : Scope} {surveys : List Survey}
    (valid : stage.scope.Valid) (charted : stage.scope.Charted surveys)
    (haround : ∀ name ∈ home.captures, Survey.anyBinds surveys.tail name = true)
    (hresolve : stage.scope.resolve name = some (symbol, scope))
    (houses : Houses pool home ⟨scope, stage.constants⟩) (hfits : symbol.load.Fits) :
    Simulates pool home (.of []) (Evaluate.read name) (fun value => .of [value]) stage offset
      [symbol.load] ⟨scope, stage.constants⟩ := by
  have hresolved := (Scope.resolve_valid valid hresolve).1
  have halike := Scope.alike_of_extends hresolved.extends.1 hresolved.extends.2
  refine simulates_instruction hfits fun situation machine below slots temps values agrees htop
    room => ?_
  cases htop.1
  rw [List.append_nil] at agrees
  rw [Evaluate.read, run_bind, run_get]
  dsimp only
  obtain ⟨cell, hcell, hheld⟩ := agrees.situated.read valid charted haround hresolve houses hfits
    room.globals
  rw [hcell]
  cases cell with
  | none => trivial
  | some value =>
      obtain ⟨found, hfound, hrelated⟩ := hheld value rfl
      exact performs_push agrees room (execute_load
        ⟨agrees.stack.taken, agrees.stack.height⟩ agrees.base hfound) hrelated rfl halike.top
        (agrees.situated.alike halike)

/-! Function literals. -/

theorem simulates_capture {symbol : Symbol} {survey : Survey} {surveys : List Survey}
    (valid : stage.scope.Valid) (charted : stage.scope.Charted (survey :: surveys))
    (houses : Houses pool home stage)
    (hlookup : stage.scope.table.lookup? symbol.name = some symbol) (hfits : symbol.load.Fits) :
    Simulates pool home (.of []) (Evaluate.read symbol.name) (fun value => .of [value]) stage offset
      [symbol.load] stage := by
  have hinside : stage.scope.isTopLevel = false := charted.isTopLevel
  have hplace : symbol.place.ofFunction = true := by
    rw [(Scope.ValidFrom.valid valid _ _ hlookup).2.1]
    rw [Scope.isTopLevel] at hinside
    simp [hinside]
  refine simulates_instruction hfits fun situation machine below slots temps values agrees htop
    room => ?_
  cases htop.1
  rw [List.append_nil] at agrees
  rw [Evaluate.read, run_bind, run_get]
  dsimp only
  have hlocals := agrees.situated.locals
  cases hcase : situation.locals? with
  | none =>
      rw [hcase, hinside] at hlocals
      cases hlocals.1
  | some locals =>
      rw [hcase] at hlocals
      obtain ⟨cell, hcell, hheld⟩ := hlocals.2.2.held charted houses hlookup
      have hvalue : situation.cell? symbol.name = some cell := by
        simp only [Situation.cell?, hcase, Option.getD_some, hcell]
      rw [hvalue]
      cases cell with
      | none => trivial
      | some value =>
          obtain ⟨found, hfound, hrelated⟩ := hheld value rfl
          refine performs_push agrees room (execute_load
            ⟨agrees.stack.taken, agrees.stack.height⟩ agrees.base ?_) hrelated rfl rfl agrees.situated
          rw [cell?_ofFunction hplace]
          exact hfound

theorem simulates_captures {symbols : List Symbol} {survey : Survey} {surveys : List Survey}
    (valid : stage.scope.Valid) (charted : stage.scope.Charted (survey :: surveys))
    (houses : Houses pool home stage)
    (hlookup : ∀ symbol ∈ symbols, stage.scope.table.lookup? symbol.name = some symbol)
    (hfits : ∀ symbol ∈ symbols, symbol.load.Fits) :
    Simulates pool home (.of []) (Evaluate.readAll (symbols.map Symbol.name)) .of stage offset
      (symbols.map Symbol.load) stage := by
  induction symbols generalizing offset with
  | nil => exact simulates_pure [] fun _ _ htop => htop
  | cons symbol rest ih =>
      have hsymbol := hfits symbol (by simp)
      have hrest : Simulates pool home (.of []) (Evaluate.readAll (rest.map Symbol.name)) .of stage
          (offset + sizeAll [symbol.load]) (rest.map Symbol.load) stage :=
        ih (fun symbol member => hlookup symbol (by simp [member]))
          fun symbol member => hfits symbol (by simp [member])
      have hfirst : ∀ instruction ∈ [symbol.load], instruction.Fits := by
        simpa using hsymbol
      refine (simulates_capture valid charted houses (hlookup symbol (by simp)) hsymbol).bind hfirst
        fun value _ => ?_
      refine (hrest.beneath [value]).map ?_ (value :: ·) fun _ _ _ htop => htop
      simpa using fun symbol member => hfits symbol (by simp [member])

def closeOver (name : Option String) (parameters : List String) (body : List Stmt)
    (captures : List String) (captured : List Datum) : EvalM Datum := do
  let place ← Evaluate.pass ((Stmt.surveyAll body (.enter name parameters)).literals + 1)
  let globals := (← get).names
  let ref ← Evaluate.newRef
  return .closure ref ⟨name, parameters, body, captures, globals, place⟩ captured

theorem closeOver_run (name : Option String) (parameters : List String) (body : List Stmt)
    (captures : List String) (captured : List Datum) (situation : Situation) :
    (closeOver name parameters body captures captured).run situation =
      (.ok (.closure situation.world.allocate.1
          ⟨name, parameters, body, captures, situation.names, situation.place⟩ captured),
        { situation with
          place := situation.place +
            ((Stmt.surveyAll body (.enter name parameters)).literals + 1)
          world := situation.world.allocate.2 }) := rfl

theorem readAll_length {names : List String} {values : List Datum} {situation later : Situation}
    (hread : (Evaluate.readAll names).run situation = (.ok values, later)) :
    values.length = names.length := by
  induction names generalizing values situation later with
  | nil =>
      cases hread
      rfl
  | cons name rest ih =>
      rw [Evaluate.readAll, bind_succeeds] at hread
      obtain ⟨first, _, -, hread⟩ := hread
      rw [bind_succeeds] at hread
      obtain ⟨others, _, hothers, hread⟩ := hread
      cases hread
      rw [List.length_cons, List.length_cons, ih hothers]

theorem simulates_closeOver {template : Template} {name : Option String} {parameters : List String}
    {body : List Stmt} {captures : List String} {captured : List Datum} {scope : Scope}
    {constants : Array Constant}
    (hsize : constants.size =
      stage.constants.size + (Stmt.surveyAll body (.enter name parameters)).literals)
    (hfits : Fits ⟨.closure, [constants.size, captured.length]⟩)
    (houses : Houses pool home ⟨scope, constants.push (.function template)⟩)
    (halike : stage.scope.Alike scope)
    (htranslates : ∀ names, stage.scope.Numbered names →
      Translates pool ⟨name, parameters, body, captures, names, stage.constants.size⟩ template
        captured.length) :
    Simulates pool home (.of captured) (closeOver name parameters body captures captured)
      (fun value => .of [value]) stage offset [⟨.closure, [constants.size, captured.length]⟩]
      ⟨scope, constants.push (.function template)⟩ := by
  refine simulates_instruction hfits fun situation machine below slots temps values agrees htop
    room => ?_
  have hstack : (machine.advance ⟨.closure, [constants.size, captured.length]⟩).Stacks
      (below ++ slots ++ temps ++ values) := by
    have hstack := agrees.stack
    rw [← List.append_assoc] at hstack
    exact ⟨hstack.taken, hstack.height⟩
  have hroom : (below ++ slots ++ temps).length < machine.stack.size := by
    have := room.stack
    have hheight := hstack.height
    rw [List.length_append] at hheight
    change _ = machine.sp at hheight
    omega
  have hfound : pool[constants.size]? = some (.function template) := houses.constants (by simp)
  rw [closeOver_run]
  have hexecute : (execute ⟨.closure, [constants.size, captured.length]⟩).run
      (machine.advance ⟨.closure, [constants.size, captured.length]⟩) =
      (.ok (), (machine.advance ⟨.closure, [constants.size, captured.length]⟩).replaced
        (below ++ slots ++ temps).length (.closure machine.world.allocate.1 template values)
        situation.world.allocate.2) := by
    change (pushClosure constants.size captured.length).run _ = _
    have hconstants : (machine.advance ⟨.closure, [constants.size, captured.length]⟩).constants =
      pool := agrees.constants
    rw [pushClosure, run_bind, run_get]
    simp only [hconstants, hfound]
    have htake := takeRun_run hstack
    rw [← show captured.length = values.length from htop.1.length_eq] at htake
    rw [run_bind, htake]
    dsimp only
    rw [run_bind, newRef_run]
    dsimp only
    rw [← agrees.world]
    exact push_cut hstack hroom _ machine.world.allocate.2
  refine performs_replaced agrees room hexecute ?_ halike.top ?_
  · rw [agrees.world]
    refine .closure _ ?_ htop.1
    rw [agrees.situated.place]
    exact htranslates situation.names agrees.situated.numbered
  · have hcount : (constants.push (.function template)).size = stage.constants.size +
        ((Stmt.surveyAll body (.enter name parameters)).literals + 1) := by
      simp [hsize, Nat.add_assoc]
    exact ((agrees.situated.alike halike).pass hcount).move _

theorem simulates_makeClosure {name : Option String} {parameters : List String} {body : List Stmt}
    {inner : Stage} {outer : Scope} {instructions : List Instruction} {code : Code}
    {surveys : List Survey} (valid : stage.scope.Valid) (charted : stage.scope.Charted surveys)
    (haround : ∀ name ∈ home.captures, Survey.anyBinds surveys.tail name = true)
    (hbody : Emits (.body body) ⟨stage.scope.entry name parameters, stage.constants⟩ 0 instructions
      inner)
    (hleave : inner.scope.leave? = some outer) (hcode : code.toList = encodeAll instructions)
    (hloads : ∀ symbol ∈ inner.scope.table.captures, symbol.load.Fits)
    (hfits : Fits ⟨.closure, [inner.constants.size, inner.scope.table.captures.length]⟩)
    (houses : Houses pool home ⟨outer, inner.constants.push
      (.function ⟨code, inner.scope.table.definitions, parameters.length⟩)⟩) :
    Simulates pool home (.of []) (Evaluate.makeClosure name parameters body)
      (fun value => .of [value]) stage offset
      (inner.scope.table.captures.map Symbol.load ++
        [⟨.closure, [inner.constants.size, inner.scope.table.captures.length]⟩])
      ⟨outer, inner.constants.push
        (.function ⟨code, inner.scope.table.definitions, parameters.length⟩)⟩ := by
  obtain ⟨hentry, houter, -, -⟩ := entry_valid valid name parameters
  obtain ⟨hinner, hgrows⟩ := hbody.valid hentry
  obtain ⟨hextends, hall⟩ := extends_leave houter hgrows hleave
  have halike := Scope.alike_of_extends hextends hall
  have hvalid := (hinner.leave hleave).1
  have hsurveyed := hbody.surveyed hentry
  have hcharted := hsurveyed.charted (charted.entry name parameters)
  obtain ⟨htable, hleft⟩ := hcharted.leave hleave
  have hhouses : Houses pool home ⟨outer, stage.constants⟩ :=
    houses.earlier (.refl _) (hbody.constants.trans (Constant.grows_push _ _))
  have hsize : inner.constants.size =
      stage.constants.size + (Stmt.surveyAll body (.enter name parameters)).literals := by
    obtain ⟨names, literals, hadds, -, hsize⟩ := hsurveyed.adds
    rw [hsize, show Stmt.surveyAll body = (Part.body body).survey from rfl, hadds.literals,
      literals_enter, Nat.zero_add]
  have hreads : Simulates pool home (.of [])
      (Evaluate.readAll (inner.scope.table.captures.map Symbol.name)) .of
      ⟨outer, stage.constants⟩ offset (inner.scope.table.captures.map Symbol.load)
      ⟨outer, stage.constants⟩ := by
    cases surveys with
    | nil =>
        have hnone : inner.scope.table.captures = [] := by
          have hcaptures := htable.captures
          rw [List.filter_eq_nil_iff.mpr (by simp [Survey.anyBinds]), List.map_eq_nil_iff] at hcaptures
          exact hcaptures
        rw [hnone]
        exact simulates_pure [] fun _ _ htop => htop
    | cons survey surveys => exact simulates_captures hvalid hleft hhouses htable.source hloads
  have hboth : Simulates pool home (.of [])
      (Evaluate.readAll (inner.scope.table.captures.map Symbol.name) >>=
        closeOver name parameters body (inner.scope.table.captures.map Symbol.name))
      (fun value => .of [value]) stage offset
      (inner.scope.table.captures.map Symbol.load ++
        [⟨.closure, [inner.constants.size, inner.scope.table.captures.length]⟩])
      ⟨outer, inner.constants.push
        (.function ⟨code, inner.scope.table.definitions, parameters.length⟩)⟩ := by
    refine Simulates.alike halike (hreads.bind (by simpa using hloads) ?_)
    rintro captured ⟨situation, later, hread⟩
    have hcount : captured.length = inner.scope.table.captures.length := by
      rw [readAll_length hread, List.length_map]
    rw [← hcount] at hfits ⊢
    refine simulates_closeOver hsize hfits houses (.refl _) fun names hnumbered => ⟨?_, rfl, ?_⟩
    · rw [← hsize]
      exact houses.constants (by simp)
    · refine ⟨stage.scope, stage.constants, surveys, inner, instructions, valid, charted, ?_, rfl,
        hbody, hcode, rfl, rfl, by rw [List.length_map, hcount], ?_⟩
      · intro name symbol hsymbol
        rw [← halike.root] at hsymbol
        exact hnumbered hsymbol
      · exact (Constant.grows_push _ _).trans houses.constants
  intro situation
  by_cases hcaptures : situation.ofFunction (Stmt.surveyAll body (.enter name parameters)).free =
      inner.scope.table.captures.map Symbol.name
  · have hrun : (Evaluate.makeClosure name parameters body).run situation =
        (Evaluate.readAll (inner.scope.table.captures.map Symbol.name) >>=
          closeOver name parameters body (inner.scope.table.captures.map Symbol.name)).run
            situation := by
      rw [Evaluate.makeClosure, run_bind, run_get, ← hcaptures]
      rfl
    rw [hrun]
    exact hboth situation
  · refine ⟨0, fun machine below slots temps values agrees => absurd ?_ hcaptures⟩
    rw [htable.captures]
    exact agrees.situated.ofFunction charted haround halike hleft hhouses

end Stacklang.Compile
