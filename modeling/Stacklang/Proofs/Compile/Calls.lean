import Stacklang.Proofs.Compile.Simulation

namespace Stacklang.Compile

open Machine Fallible Instruction

variable {pool : Array Constant} {home : Home} {stage : Stage} {offset : Nat}

/-! Calls that do not enter the body of a function. -/

theorem callBuiltin_run {machine : Machine} {rest arguments : List Value} {builtin : Builtin}
    (hstack : machine.Stacks (rest ++ .builtin builtin :: arguments)) :
    (execute ⟨.call, [arguments.length]⟩).run machine =
      (match (builtin.apply arguments).run machine.world with
        | .error fault => throw (.builtinFault builtin fault)
        | .ok (result, world) => do
            modify fun machine =>
              { machine with world, sp := machine.sp - (arguments.length + 1) }
            push (result.getD .null) : MachineM Unit).run machine := by
  have hheight := hstack.height
  rw [List.length_append, List.length_cons] at hheight
  have htaken : (machine.stack.extract (machine.sp - arguments.length) machine.sp).toList =
      arguments := by
    rw [List.append_cons rest] at hstack
    have hrun := hstack.run
    rwa [List.length_append, List.length_singleton,
      show rest.length + 1 = machine.sp - arguments.length by omega] at hrun
  change (call arguments.length).run machine = _
  rw [call_run hstack]
  dsimp only
  rw [Machine.callBuiltin, run_bind, run_get]
  dsimp only
  rewrite [htaken]
  rfl

theorem simulates_callBuiltin {arguments : List Datum} (hfits : Fits ⟨.call, [arguments.length]⟩)
    (builtin : Builtin) :
    Simulates pool home (.of (.builtin builtin :: arguments))
      (Evaluate.callBuiltin builtin arguments) (fun value => .of [value]) stage offset
      [⟨.call, [arguments.length]⟩] stage := by
  refine simulates_computation hfits fun situation machine rest values hstack hvalues hroom
    hworld => ?_
  cases hvalues with
  | @cons _ callee _ others hcallee hothers =>
      cases hcallee
      have hcount := hothers.length_eq
      have hheight := hstack.height
      rw [List.length_append, List.length_cons] at hheight
      have hagree := Builtin.apply_agree hothers builtin machine.world
      have hexecute := callBuiltin_run hstack
      rw [← hcount] at hexecute
      have hevaluate : (Evaluate.callBuiltin builtin arguments).run situation =
          (Evaluate.lift ((builtin.apply arguments).run situation.world) >>= fun result =>
            (do
              set { situation with world := result.2 }
              return result.1.getD .null : EvalM Datum)).run situation := rfl
      rw [hevaluate, ← hworld]
      generalize (builtin.apply arguments).run machine.world = outcome at hagree ⊢
      generalize (builtin.apply others).run machine.world = found at hagree hexecute
      cases hagree with
      | error fault _ => exact ⟨_, _, hexecute, .inr ⟨builtin, rfl⟩, hworld, rfl, rfl⟩
      | @ok result other hresult =>
          obtain ⟨value, world⟩ := result
          obtain ⟨value', world'⟩ := other
          obtain ⟨hresult, rfl⟩ := hresult
          refine ⟨value'.getD .null, world, hexecute.trans ?_, ?_, rfl⟩
          · dsimp only
            rw [run_bind, run_modify, show machine.sp - (arguments.length + 1) = rest.length by omega]
            exact push_cut hstack hroom _ world
          · cases hresult with
            | none => exact .null
            | some hrelated => exact hrelated

theorem simulates_notCallable {callee : Datum} {arguments : List Datum}
    (hfits : Fits ⟨.call, [arguments.length]⟩)
    (hclosure : ∀ ref literal captured, callee ≠ .closure ref literal captured)
    (hbuiltin : ∀ builtin, callee ≠ .builtin builtin) :
    Simulates pool home (.of (callee :: arguments)) (Evaluate.fail (.notCallable callee.kind))
      (fun value => .of [value]) stage offset [⟨.call, [arguments.length]⟩] stage := by
  refine simulates_computation hfits fun situation machine rest values hstack hvalues hroom
    hworld => ?_
  cases hvalues with
  | @cons _ found _ others hcallee hothers =>
      refine ⟨.fault (.notCallable callee.kind), machine, ?_, .inl rfl, hworld, rfl, rfl⟩
      change (call arguments.length).run machine = _
      rw [hothers.length_eq, call_run hstack]
      cases hcallee with
      | closure ref _ _ => exact absurd rfl (hclosure ref _ _)
      | builtin builtin => exact absurd rfl (hbuiltin builtin)
      | _ => rfl

theorem simulates_wrongArity {ref : Ref} {literal : Literal} {captured arguments : List Datum}
    (hfits : Fits ⟨.call, [arguments.length]⟩)
    (hlength : arguments.length ≠ literal.parameters.length) :
    Simulates pool home (.of (.closure ref literal captured :: arguments))
      (Evaluate.fail (.wrongArity literal.parameters.length arguments.length))
      (fun value => .of [value]) stage offset [⟨.call, [arguments.length]⟩] stage := by
  refine simulates_computation hfits fun situation machine rest values hstack hvalues hroom
    hworld => ?_
  cases hvalues with
  | @cons _ found _ others hcallee hothers =>
      refine ⟨.fault (.wrongArity literal.parameters.length arguments.length), machine, ?_, .inl rfl,
        hworld, rfl, rfl⟩
      change (call arguments.length).run machine = _
      rw [hothers.length_eq, call_run hstack]
      cases hcallee with
      | @closure _ template _ _ _ htranslates _ =>
          have hparameters : template.parameters = literal.parameters.length := htranslates.parameters
          dsimp only
          rw [callClosure, run_bind, run_get]
          dsimp only
          rw [← hothers.length_eq, hparameters, if_pos hlength]
          rfl

/-! Calls of closures. -/

theorem within_run (locals : List (String × Option Datum)) (literal : Literal) (body : EvalM Datum)
    (situation : Situation) :
    (Evaluate.within locals literal body).run situation =
      match body.run
        { situation with
          locals? := some locals, names := literal.globals, place := literal.place } with
      | (.ok value, inner) | (.error (.returned value), inner) =>
          (.ok value, { situation with globals := inner.globals, world := inner.world })
      | (.error exit, inner) => (.error exit, inner) := by
  rw [Evaluate.within, run_bind, run_get]
  dsimp only
  rw [run_bind, run_set]
  dsimp only
  rw [run_bind, run_tryCatch]
  cases body.run { situation with
      locals? := some locals, names := literal.globals, place := literal.place } with
  | mk outcome inner =>
      cases outcome with
      | ok value => rfl
      | error exit => cases exit <;> rfl

theorem Origin.simulates {literal : Literal} {template : Template} {count : Nat} {scope : Scope}
    {constants : Array Constant} {surveys : List Survey} {inner : Stage}
    {instructions : List Instruction} {call : Evaluate.Call}
    (origin : Origin pool literal template count scope constants surveys inner instructions)
    (calls : CallSimulates pool call) (globals : Nat) :
    Simulates pool ⟨literal.captures, template.locals, globals⟩ (.of [])
      (evalBody call literal.body) Empty.elim
      ⟨scope.entry literal.name literal.parameters, constants⟩ 0 instructions inner := by
  obtain ⟨hentry, houter, -, -⟩ := entry_valid origin.valid literal.name literal.parameters
  refine origin.emits.simulates calls ⟨hentry, _, origin.charted.entry _ _, origin.captured.2⟩
    ⟨origin.grows, fun _ => Nat.le_of_eq origin.locals.symm, ?_⟩ ?_
  · rewrite [origin.captures]
    exact List.prefix_rfl
  · rw [Scope.isTopLevel, houter]
    rfl

theorem Origin.parameters_le {literal : Literal} {template : Template} {count : Nat} {scope : Scope}
    {constants : Array Constant} {surveys : List Survey} {inner : Stage}
    {instructions : List Instruction}
    (origin : Origin pool literal template count scope constants surveys inner instructions) :
    literal.parameters.length ≤ template.locals := by
  obtain ⟨hentry, -, hdefinitions, -⟩ := entry_valid origin.valid literal.name literal.parameters
  have hgrows := (origin.emits.valid hentry).2.table.definitions
  rw [origin.locals]
  exact hdefinitions ▸ hgrows

theorem Agrees.entered {situation : Situation} {machine : Machine}
    {below slots temps others values : List Value} {ref : Ref} {literal : Literal}
    {template : Template} {captured arguments : List Datum} {scope : Scope}
    {constants : Array Constant} {surveys : List Survey} {inner : Stage}
    {instructions : List Instruction} {instruction : Instruction}
    (agrees : Agrees pool home stage situation machine below slots
      (temps ++ .closure ref template others :: values))
    (origin : Origin pool literal template others.length scope constants surveys inner instructions)
    (hcallee : Value.Related (link pool) (.closure ref literal captured)
      (.closure ref template others))
    (harguments : List.Forall₂ (Value.Related (link pool)) arguments values)
    (hlength : arguments.length = literal.parameters.length)
    (hroom : machine.sp + template.locals ≤ machine.stack.size) :
    ∃ locals, Agrees pool ⟨literal.captures, template.locals, situation.globals.length⟩
      ⟨scope.entry literal.name literal.parameters, constants⟩
      { situation with
        locals? := some (Evaluate.entry (.closure ref literal captured) literal captured arguments)
        names := literal.globals
        place := literal.place }
      ((machine.advance instruction).entered ref template others values.length)
      (below ++ slots ++ temps ++ [.closure ref template others]) locals [] := by
  have hstack : (machine.advance instruction).Stacks
      (below ++ slots ++ temps ++ .closure ref template others :: values) := by
    rw [List.append_assoc (below ++ slots)]
    exact ⟨agrees.stack.taken, agrees.stack.height⟩
  have hheight := hstack.height
  rw [List.length_append, List.length_cons] at hheight
  change _ = machine.sp at hheight
  have hparameters := origin.parameters_le
  have hcount := harguments.length_eq
  obtain ⟨locals, hentered, hlocals, hprefix⟩ := hstack.entered ref template others
    (by
      change _ ≤ machine.stack.size
      omega)
    (by omega)
  refine ⟨locals, agrees.constants, agrees.number, ?_, ?_, hlocals, agrees.world, ?_, ?_⟩
  · rwa [List.append_nil]
  · change machine.sp - values.length = _
    rw [List.length_append, List.length_singleton]
    omega
  · exact fun _ => ⟨List.cons_ne_nil _ _, by simp⟩
  · refine origin.situated hcallee agrees.situated.globals hlength ?_ _ _
    intro index value hvalue
    have hrelated := forall₂_getElem? harguments index
    rw [hvalue] at hrelated
    cases hfound : values[index]? with
    | none =>
        rw [hfound] at hrelated
        cases hrelated
    | some found =>
        rw [hfound] at hrelated
        cases hrelated with
        | some hrelated =>
            obtain ⟨more, rfl⟩ := hprefix
            refine ⟨found, ?_, hrelated⟩
            rw [List.getElem?_append_left (List.getElem?_eq_some_iff.mp hfound).1, hfound]

/-- A call has come back: the machine is behind the call, with the result in place of the callee and
the arguments. -/
theorem Returns.behind {situation later : Situation} {machine after : Machine}
    {below slots temps values others : List Value} {ref : Ref} {template : Template} {count : Nat}
    {captures : List String} {callee : Value} {value : Datum} {instruction : Instruction}
    (agrees : Agrees pool home stage situation machine below slots (temps ++ values))
    (returns : Returns pool ⟨captures, template.locals, situation.globals.length⟩
      (below ++ slots ++ temps ++ [callee])
      ((machine.advance instruction).entered ref template others count) after later value) :
    Near machine after ∧ after.sp ≤ machine.sp + 1 ∧
      Behind pool home stage below temps (machine.frame.ip + instruction.size)
        (fun value => .of [value]) value
        { situation with globals := later.globals, world := later.world } after := by
  obtain ⟨halike, hnumber, hcallers, ⟨found, hstack, hrelated⟩, hworld, hglobals, hcount⟩ := returns
  obtain ⟨hframe, hcallers⟩ : (machine.advance instruction).frame = after.frame ∧
      machine.callers = after.callers := List.cons.inj hcallers
  rw [List.dropLast_concat] at hstack
  have hheight := hstack.height
  have hbefore := agrees.stack.height
  simp only [List.length_append, List.length_singleton] at hheight hbefore
  refine ⟨⟨⟨halike.slots, halike.globals, halike.constants, halike.config⟩, hnumber, ?_,
    hcallers.symm⟩, by omega, slots, [found], ?_, ?_, Top.holds_of (.cons hrelated .nil)⟩
  · rw [← hframe]
    rfl
  · rw [← hframe]
    rfl
  · refine ⟨halike.constants.trans agrees.constants, hnumber.trans agrees.number, ?_, ?_, agrees.count,
      hworld, ?_, ?_⟩
    · rwa [← List.append_assoc]
    · rw [← hframe]
      exact agrees.base
    · rw [← hcallers]
      exact agrees.calls
    · have hsituated : Situated pool home stage
          { situation with globals := later.globals, world := later.world } machine.frame slots
          after.globals := by
        refine ⟨agrees.situated.place, agrees.situated.numbered, hglobals, ?_⟩
        have hlocals := agrees.situated.locals
        cases hcase : situation.locals? with
        | none =>
            rw [hcase] at hlocals
            exact ⟨hlocals.1, hcount.trans hlocals.2⟩
        | some locals =>
            rw [hcase] at hlocals
            exact ⟨hlocals.1, hcount.trans hlocals.2.1, hlocals.2.2⟩
      rw [← hframe]
      exact hsituated.goto _

theorem reaches_enter {situation : Situation} {machine : Machine}
    {below slots temps others values : List Value} {ref : Ref} {template : Template}
    {arguments : List Datum} {bound : Nat}
    (agrees : Agrees pool home stage situation machine below slots
      (temps ++ .closure ref template others :: values))
    (room : machine.Room (1 + (template.locals + bound)))
    (hfits : Fits ⟨.call, [arguments.length]⟩) (hip : machine.frame.ip = offset)
    (hcode : machine.frame.template.code.Holds offset [⟨.call, [arguments.length]⟩])
    (harguments : List.Forall₂ (Value.Related (link pool)) arguments values)
    (hlength : arguments.length = template.parameters)
    (hlocals : template.parameters ≤ template.locals) :
    Reaches 1 machine
        ((machine.advance ⟨.call, [arguments.length]⟩).entered ref template others values.length) ∧
      ((machine.advance ⟨.call, [arguments.length]⟩).entered ref template others
        values.length).Room bound := by
  have hfetch := hcode.fetch hfits
  rw [← hip] at hfetch
  have hstack : (machine.advance ⟨.call, [arguments.length]⟩).Stacks
      (below ++ slots ++ temps ++ .closure ref template others :: values) := by
    rw [List.append_assoc (below ++ slots)]
    exact ⟨agrees.stack.taken, agrees.stack.height⟩
  have hcount := harguments.length_eq
  have hroom := room.stack
  have hframes := room.frames
  constructor
  · refine reaches_execute (room.mono (Nat.le_add_right _ _)) hfetch ?_ rfl
    have hcalled := call_run hstack
    rw [← hcount] at hcalled
    refine hcalled.trans ?_
    dsimp only
    rw [hcount]
    refine callClosure_run (hcount ▸ hlength) ?_ ?_ hlocals
    · change machine.frames.length < machine.config.maxFrames
      omega
    · change machine.sp - values.length + template.locals ≤ machine.stack.size
      omega
  · refine ⟨?_, ?_, fun limit hlimit => ?_, room.globals⟩
    · change machine.sp - values.length + template.locals + bound ≤ machine.stack.size
      omega
    · change machine.frames.length + 1 + bound ≤ machine.config.maxFrames
      omega
    · have hsteps := room.steps limit hlimit
      change machine.steps + 1 + bound ≤ limit
      omega

theorem simulates_within {ref : Ref} {literal : Literal} {template : Template}
    {captured arguments : List Datum} {call : Evaluate.Call} (calls : CallSimulates pool call)
    (hfits : Fits ⟨.call, [arguments.length]⟩)
    (translates : Translates pool literal template captured.length)
    (hlength : arguments.length = literal.parameters.length) :
    Simulates pool home (.of (.closure ref literal captured :: arguments))
      (Evaluate.within (Evaluate.entry (.closure ref literal captured) literal captured arguments)
        literal (Stmt.evalBlock call literal.body))
      (fun value => .of [value]) stage offset [⟨.call, [arguments.length]⟩] stage := by
  obtain ⟨scope, constants, surveys, inner, instructions, origin⟩ := translates.origin
  intro situation
  obtain ⟨bound, hbody⟩ := origin.simulates calls situation.globals.length
    { situation with
      locals? := some (Evaluate.entry (.closure ref literal captured) literal captured arguments)
      names := literal.globals
      place := literal.place }
  refine ⟨1 + (template.locals + bound), fun machine below slots temps values agrees htop hip hcode
    room => ?_⟩
  obtain ⟨hvalues, -⟩ := htop
  cases hvalues with
  | @cons _ found _ others hcallee hothers =>
      cases hcallee with
      | @closure _ other _ held _ htranslates hcaptured =>
          obtain rfl : other = template := by
            have hsame := htranslates.stored.symm.trans translates.stored
            injection hsame with hsame
            injection hsame
          rw [hcaptured.length_eq] at origin
          have hroom := room.stack
          obtain ⟨locals, hentered⟩ := agrees.entered origin (.closure ref htranslates hcaptured)
            hothers hlength (by omega)
          have hreaches := reaches_enter agrees room hfits hip hcode hothers
            (translates.parameters ▸ hlength) (translates.parameters ▸ origin.parameters_le)
          obtain ⟨hreaches, hinside⟩ := hreaches
          have hleads := hbody _ _ locals [] [] hentered (Top.holds_of .nil) rfl
            (Code.holds_all origin.code) hinside
          have hback : ∀ value later,
              Leads pool ⟨literal.captures, other.locals, situation.globals.length⟩
                (below ++ slots ++ temps ++ [.closure ref other held]) bound
                ((machine.advance ⟨.call, [arguments.length]⟩).entered ref other held others.length)
                (Behind pool ⟨literal.captures, other.locals, situation.globals.length⟩ inner
                  (below ++ slots ++ temps ++ [.closure ref other held]) []
                  (0 + sizeAll instructions) Empty.elim)
                (.error (.returned value), later) →
              Leads pool home below (1 + (other.locals + bound)) machine
                (Behind pool home stage below temps
                  (offset + sizeAll [⟨.call, [arguments.length]⟩]) (fun value => .of [value]))
                (.ok value, { situation with globals := later.globals, world := later.world }) := by
            rintro value later ⟨after, hreturns, returns⟩
            obtain ⟨hnear, hheight, hbehind⟩ := returns.behind agrees
            refine ⟨after, (hreaches.trans hreturns).mono (by omega), hnear, by omega, ?_⟩
            rw [hip] at hbehind
            simpa using hbehind
          rw [within_run]
          rw [evalBody, run_bind] at hleads
          cases hrun : (Stmt.evalBlock call literal.body).run
            { situation with
              locals? := some
                (Evaluate.entry (.closure ref literal captured) literal captured arguments)
              names := literal.globals
              place := literal.place } with
          | mk outcome later =>
              rw [hrun] at hleads
              cases outcome with
              | ok value => exact hback value later hleads
              | error exit =>
                  cases exit with
                  | returned value => exact hback value later hleads
                  | fault fault =>
                      obtain ⟨error, last, hfails, hrest⟩ := hleads
                      exact ⟨error, last, (hreaches.fails hfails).mono (by omega), hrest⟩
                  | undefined => cases hleads
                  | unset => trivial
                  | unfinished => trivial

theorem apply_simulates (pool : Array Constant) (depth : Nat) :
    CallSimulates pool (Evaluate.apply depth) := by
  induction depth with
  | zero =>
      intro home stage offset callee arguments _ situation
      exact ⟨0, fun _ _ _ _ _ _ _ _ _ _ => trivial⟩
  | succ depth ih =>
      intro home stage offset callee arguments hfits
      cases callee with
      | closure ref literal captured =>
          rw [Evaluate.apply]
          split
          next hlength =>
            by_cases htranslates : ∃ template, Translates pool literal template captured.length
            · obtain ⟨template, translates⟩ := htranslates
              exact simulates_within ih hfits translates hlength
            · -- No machine has such a closure.
              refine fun _ => ⟨0, fun _ _ _ _ _ _ htop => absurd ?_ htranslates⟩
              obtain ⟨hvalues, -⟩ := htop
              cases hvalues with
              | cons hcallee _ =>
                  cases hcallee with
                  | closure _ translates _ => exact ⟨_, translates⟩
          next hlength => exact simulates_wrongArity hfits hlength
      | builtin builtin => exact simulates_callBuiltin hfits builtin
      | _ => exact simulates_notCallable hfits (by simp) (by simp)

end Stacklang.Compile
