import Stacklang.Proofs.Code.Decoding
import Stacklang.Proofs.Machine.Everywhere
import Stacklang.Proofs.Machine.Orderly

namespace Stacklang

def Frame.line (frame : Frame) (callers : List Frame) (offset : Nat) : TraceLine :=
  match callers with
  | [] => .inMain offset
  | _ :: _ => .inFunction frame.template.parameters offset

namespace Machine

open Fallible Instruction

theorem callerTrace_cons (caller : Frame) (callers : List Frame) :
    callerTrace (caller :: callers) =
      caller.line callers (caller.ip - Opcode.call.size) :: callerTrace callers := by
  cases callers <;> rfl

theorem trace_eq (machine : Machine) :
    machine.trace =
      machine.frame.line machine.callers machine.frame.ip :: callerTrace machine.callers := by
  unfold trace
  cases machine.callers <;> rfl

theorem length_callerTrace (callers : List Frame) :
    (callerTrace callers).length = callers.length := by
  induction callers with
  | nil => rfl
  | cons caller callers induction =>
      rw [callerTrace_cons, List.length_cons, induction, List.length_cons]

theorem callerTrace_getElem? (inner : List Frame) (caller : Frame) (rest : List Frame) :
    (callerTrace (inner ++ caller :: rest))[inner.length]? =
      some (caller.line rest (caller.ip - Opcode.call.size)) := by
  induction inner with
  | nil => rw [List.nil_append, callerTrace_cons, List.length_nil, List.getElem?_cons_zero]
  | cons top inner induction =>
      rw [List.cons_append, callerTrace_cons, List.length_cons, List.getElem?_cons_succ, induction]

theorem trace_getElem? {machine : Machine} {inner rest : List Frame} {called caller : Frame}
    (hframes : machine.frames = inner ++ called :: caller :: rest) :
    machine.trace[inner.length + 1]? = some (caller.line rest (caller.ip - Opcode.call.size)) := by
  rw [trace_eq, List.getElem?_cons_succ]
  cases inner with
  | nil =>
      rw [(List.cons.inj hframes).2]
      exact callerTrace_getElem? [] caller rest
  | cons top inner =>
      have hcallers : machine.callers = (inner ++ [called]) ++ caller :: rest := by
        rw [List.append_assoc]
        exact (List.cons.inj hframes).2
      have hline := callerTrace_getElem? (inner ++ [called]) caller rest
      rwa [← hcallers, List.length_append, List.length_singleton] at hline

/-- The states from a machine on, in any number of runs, while more than so many calls are in
progress. -/
inductive Above (depth : Nat) (first : Machine) : Machine → Prop where
  | first : Above depth first first
  | step {machine : Machine} (above : Above depth first machine)
      (hdeeper : depth < (step.run machine).2.frames.length) :
      Above depth first (step.run machine).2
  | again {machine : Machine} (above : Above depth first machine) :
      Above depth first { machine with steps := 0 }

structure Begins (machine : Machine) (called caller : Frame) (rest : List Frame) (offset : Nat) :
    Prop where
  frames : machine.frames = { caller with ip := offset } :: rest
  fetch : ∃ operands, caller.template.code.fetch? offset = some (.ok ⟨.call, operands⟩)
  byte : caller.template.code[offset]? = some Opcode.call.toByte
  behind : offset + Opcode.call.size = caller.ip
  goesOn : (step.run machine).1 = .ok true
  entered : (step.run machine).2.frames = { called with ip := 0 } :: caller :: rest

/-- The call `called` was begun at the offset in a state that the machine has been in, and it has not
ended since. -/
def CalledAt (start machine : Machine) (called caller : Frame) (rest : List Frame) (offset : Nat) :
    Prop :=
  ∃ origin, Visits start origin ∧ Begins origin called caller rest offset ∧
    Above (caller :: rest).length (step.run origin).2 machine

section

variable {code : Code} {config : Config} {size : Nat} {start machine after : Machine}

theorem Orderly.frames_step (orderly : machine.Orderly code config size) :
    (∃ ip, (Machine.step.run machine).2.frames = { machine.frame with ip } :: machine.callers) ∨
      (∃ called caller, caller = { machine.frame with ip := machine.frame.ip + Opcode.call.size } ∧
        Begins machine called caller machine.callers machine.frame.ip ∧
        (Machine.step.run machine).2.frames = called :: caller :: machine.callers) ∨
      (Machine.step.run machine).2.frames = machine.callers := by
  cases hstep : Machine.step.run machine with
  | mk result after =>
      cases result with
      | error stop =>
          left
          cases orderly.quits hstep with
          | unread => exact ⟨machine.frame.ip, rfl⟩
          | limited => exact ⟨_, rfl⟩
          | @executing instruction _ _ _ _ _ _ beside =>
              refine ⟨machine.frame.ip + instruction.size, ?_⟩
              rw [frames, beside.frame, beside.callers]
              rfl
      | ok more =>
          cases more with
          | false =>
              rw [(step_finishes hstep).2]
              exact .inl ⟨machine.frame.ip, rfl⟩
          | true =>
              obtain ⟨⟨op, operands⟩, hfetch, moves⟩ := step_moves hstep
              rcases moves.frames with ⟨ip, hframes, -⟩ | ⟨called, hip, hop, hframes⟩ | hframes
              · exact .inl ⟨ip, hframes⟩
              · cases hop
                refine .inr (.inl ⟨called, _, rfl, ?_, hframes⟩)
                refine ⟨rfl, ⟨operands, hfetch⟩, Code.byte_of_fetch hfetch, rfl, ?_, ?_⟩
                · rw [hstep]
                · rw [hstep, ← hip]
                  exact hframes
              · exact .inr (.inr hframes)

/-- Every call that waits has come to wait by the call instruction before the offset it goes on
at. -/
theorem Visits.calledAt (visits : Visits start machine) (hstart : start.callers = [])
    (orderly : start.Orderly code config size) {inner rest : List Frame} {called caller : Frame}
    (hframes : machine.frames = inner ++ called :: caller :: rest) :
    ∃ offset, CalledAt start machine called caller rest offset := by
  induction visits generalizing inner called with
  | start =>
      have hlength := congrArg List.length hframes
      simp only [frames, hstart, List.length_append, List.length_cons, List.length_nil] at hlength
      omega
  | again _ induction =>
      obtain ⟨offset, origin, hvisits, begins, above⟩ := induction hframes
      exact ⟨offset, origin, hvisits, begins, above.again⟩
  | @step machine visits induction =>
      have hdeeper : (caller :: rest).length < (Machine.step.run machine).2.frames.length := by
        simp only [hframes, List.length_append, List.length_cons]
        omega
      have hearlier : ∀ inner ip, machine.frames = inner ++ { called with ip } :: caller :: rest →
          ∃ offset, CalledAt start (Machine.step.run machine).2 called caller rest offset := by
        intro inner ip hbefore
        obtain ⟨offset, origin, hvisits, begins, above⟩ := induction hbefore
        exact ⟨offset, origin, hvisits, ⟨begins.frames, begins.fetch, begins.byte, begins.behind,
          begins.goesOn, begins.entered⟩, above.step hdeeper⟩
      have hmoved : ∀ inner ip,
          { machine.frame with ip } :: machine.callers = inner ++ called :: caller :: rest →
          ∃ offset, CalledAt start (Machine.step.run machine).2 called caller rest offset := by
        intro inner ip hsame
        cases inner with
        | nil =>
            obtain ⟨rfl, hcallers⟩ := List.cons.inj hsame
            exact hearlier [] machine.frame.ip (congrArg (machine.frame :: ·) hcallers)
        | cons top inner =>
            obtain ⟨-, hcallers⟩ := List.cons.inj hsame
            exact hearlier (machine.frame :: inner) called.ip
              (congrArg (machine.frame :: ·) hcallers)
      rcases (orderly.visits visits).frames_step with
        ⟨ip, hafter⟩ | ⟨entered, waiting, hwaiting, begins, hafter⟩ | hafter
      · exact hmoved inner ip (hafter.symm.trans hframes)
      · have hsplit := hafter.symm.trans hframes
        cases inner with
        | nil =>
            simp only [List.nil_append, List.cons.injEq] at hsplit
            obtain ⟨rfl, rfl, rfl⟩ := hsplit
            exact ⟨_, machine, visits, begins, .first⟩
        | cons top inner =>
            rw [hwaiting] at hsplit
            exact hmoved inner _ (List.cons.inj hsplit).2
      · exact hearlier (machine.frame :: inner) called.ip
          (congrArg (machine.frame :: ·) (hafter.symm.trans hframes))

def FailsInBuiltin (machine : Machine) (builtin : Builtin) (fault : Fault) : Prop :=
  ∃ instruction,
    machine.frame.template.code.fetch? machine.frame.ip = some (.ok instruction) ∧
    (∀ limit, machine.config.maxSteps = some limit → machine.steps < limit) ∧
    FailsIn machine instruction builtin fault

theorem execute_failsIn {instruction : Instruction} {builtin : Builtin} {fault : Fault}
    (fails : FailsIn machine instruction builtin fault) :
    (execute instruction).run machine = (.error (.builtinFault builtin fault), machine) := by
  obtain ⟨op, operands⟩ := instruction
  obtain ⟨hop, henough, hcallee, hfails⟩ := fails
  cases hop
  simp only [execute, call, callBuiltin, run_bind, run_get, if_neg (Nat.not_lt_of_le henough),
    hcallee, hfails]
  rfl

/-- A step stops on behalf of a builtin exactly if the builtin's function fails. -/
theorem Orderly.builtinFault_iff (orderly : machine.Orderly code config size) {builtin : Builtin}
    {fault : Fault} :
    (Machine.step.run machine).1 = .error (.builtinFault builtin fault) ↔
      machine.FailsInBuiltin builtin fault := by
  constructor
  · intro hfails
    obtain ⟨after, hstep⟩ : ∃ after,
        Machine.step.run machine = (.error (.builtinFault builtin fault), after) :=
      ⟨_, Prod.ext hfails rfl⟩
    cases orderly.quits hstep with
    | @executing instruction _ _ _ hfetch hlimit blame =>
        cases blame with
        | builtin _ fails =>
            exact ⟨instruction, hfetch, hlimit, fails.op, fails.enough, fails.callee, fails.fails⟩
  · intro hfails
    obtain ⟨instruction, hfetch, hlimit, hop, henough, hcallee, hfault⟩ := hfails
    rcases step_run hfetch with ⟨limit, hsome, hmore, -⟩ | ⟨-, hrun⟩
    · have hless := hlimit limit hsome
      omega
    · have hexecute : (execute instruction).run (machine.advance instruction) =
          (.error (.builtinFault builtin fault), machine.advance instruction) :=
        execute_failsIn ⟨hop, henough, hcallee, hfault⟩
      rw [hrun, run_bind, hexecute]

theorem Visits.meets (visits : Visits start machine) :
    Meets Machine.step machine (fun _ after => Visits start after)
      fun _ after => Visits start after := by
  have hvisits := visits.step
  unfold Meets
  cases hstep : Machine.step.run machine with
  | mk result after =>
      rw [hstep] at hvisits
      cases result with
      | ok more => exact hvisits
      | error stop => exact hvisits

theorem Visits.runs (visits : Visits start machine) (fuels : List Nat) :
    Visits start (machine.runs fuels) := by
  induction fuels generalizing machine with
  | nil => exact visits
  | cons fuel fuels induction =>
      exact induction (run_always (fun _ hvisits => hvisits.meets) fuel visits.again)

theorem Visits.failed (visits : Visits start machine) {fuel : Nat} {error : RuntimeError}
    (hrun : run fuel machine = (.failed error, after)) :
    ∃ before stop, Visits start before ∧ Machine.step.run before = (.error stop, after) ∧
      after.outcome stop = .failed error := by
  have hstep : ∀ machine, Visits start machine → Meets Machine.step machine
      (fun more after => (more = true → Visits start after) ∧ (more = false → True))
      (fun stop after => ∃ before, Visits start before ∧
        Machine.step.run before = (.error stop, after)) := by
    intro machine visits
    have hmeets := visits.meets
    unfold Meets at hmeets ⊢
    split
    next hgoesOn =>
      rw [hgoesOn] at hmeets
      exact ⟨fun _ => hmeets, fun _ => trivial⟩
    next hstops => exact ⟨machine, visits, hstops⟩
  have hkeeps := runFor_keeps hstep fuel visits.again
  rw [run] at hrun
  rw [hrun] at hkeeps
  obtain ⟨stop, houtcome, before, hbefore, hstops⟩ := hkeeps
  exact ⟨before, stop, hbefore, hstops, houtcome.symm⟩

end

/-- What a failed run reports, after any runs before it of any code. There is a line for a builtin
exactly if the step that failed was in its function. One line for each call in progress follows,
innermost first and the main program last, and the line of a call that waits gives the offset of the
call instruction that began the call above it. -/
theorem failed_run_traces_calls (bytecode : Bytecode) (pool : Nat) (globals : Array Value)
    (config : Config) (world : World) (fuels : List Nat) (fuel : Nat) (error : RuntimeError)
    (machine : Machine)
    (hrun : run fuel ((start bytecode pool globals config world).runs fuels) =
      (.failed error, machine)) :
    ∃ before lines,
      Visits (start bytecode pool globals config world) before ∧
      (step.run before).2 = machine ∧
      ((∃ builtin, before.FailsInBuiltin builtin error.fault ∧
          error.trace = .inBuiltin builtin.name :: lines) ∨
        (∀ builtin fault, ¬ before.FailsInBuiltin builtin fault) ∧ error.trace = lines) ∧
      lines.length = machine.frames.length ∧
      lines[0]? = some (machine.frame.line machine.callers machine.frame.ip) ∧
      ∀ inner called caller rest, machine.frames = inner ++ called :: caller :: rest →
        ∃ offset, lines[inner.length + 1]? = some (caller.line rest offset) ∧
          CalledAt (start bytecode pool globals config world) machine called caller rest offset := by
  have hstart := start_orderly bytecode pool globals config world
  obtain ⟨before, stop, visits, hstep, houtcome⟩ := (Visits.start.runs fuels).failed hrun
  have hvisits := visits.step
  have hbuiltin : ∀ builtin fault, before.FailsInBuiltin builtin fault ↔
      stop = .builtinFault builtin fault := by
    intro builtin fault
    rw [← (hstart.visits visits).builtinFault_iff, hstep]
    simp
  rw [hstep] at hvisits
  refine ⟨before, machine.trace, visits, by rw [hstep], ?_, ?_, ?_, ?_⟩
  · cases stop with
    | fault fault =>
        cases houtcome
        refine .inr ⟨?_, rfl⟩
        intro builtin fault hfails
        cases (hbuiltin builtin fault).mp hfails
    | builtinFault builtin fault =>
        cases houtcome
        exact .inl ⟨builtin, (hbuiltin builtin fault).mpr rfl, rfl⟩
    | crash => cases houtcome
  · rw [trace_eq, List.length_cons, length_callerTrace]
    rfl
  · rw [trace_eq, List.getElem?_cons_zero]
  · intro inner called caller rest hframes
    obtain ⟨offset, origin, horigin, begins, above⟩ := hvisits.calledAt rfl hstart hframes
    refine ⟨offset, ?_, origin, horigin, begins, above⟩
    rw [trace_getElem? hframes, ← begins.behind, Nat.add_sub_cancel]

def measuring : Bytecode :=
  ⟨(encodeAll [⟨.pushTrue, []⟩, ⟨.closure, [0, 0]⟩, ⟨.call, [0]⟩]).toArray,
    #[.function
      ⟨(encodeAll [⟨.getBuiltin, [2]⟩, ⟨.pushNull, []⟩, ⟨.call, [1]⟩]).toArray, 0, 0⟩]⟩

theorem measuring_traces_calls :
    ∃ error machine called caller,
      run 9 ((start measuring 0 #[] ⟨8, 2, 0, none⟩ .fresh).runs [2]) = (.failed error, machine) ∧
      error.trace = [.inBuiltin "len", .inFunction 0 5, .inMain 5] ∧
      machine.frames = [called, caller] ∧
      CalledAt (start measuring 0 #[] ⟨8, 2, 0, none⟩ .fresh) machine called caller [] 5 := by
  have hfailed : (run 9 ((start measuring 0 #[] ⟨8, 2, 0, none⟩ .fresh).runs [2])).1 =
      .failed ⟨.builtinArgument "len" "STRING or ARRAY" "NULL",
        [.inBuiltin "len", .inFunction 0 5, .inMain 5]⟩ := by
    decide +kernel
  have hdepth : (run 9 ((start measuring 0 #[] ⟨8, 2, 0, none⟩ .fresh).runs [2])).2.frames.length =
      2 := by
    decide +kernel
  cases hrun : run 9 ((start measuring 0 #[] ⟨8, 2, 0, none⟩ .fresh).runs [2]) with
  | mk outcome machine =>
      rw [hrun] at hfailed hdepth
      cases hfailed
      obtain ⟨called, caller, hframes⟩ := List.length_eq_two.mp hdepth
      refine ⟨_, machine, called, caller, rfl, rfl, hframes, ?_⟩
      obtain ⟨before, lines, -, -, htrace, -, -, hwaiting⟩ := failed_run_traces_calls measuring 0 #[]
        ⟨8, 2, 0, none⟩ .fresh [2] 9 _ _ hrun
      obtain ⟨offset, hline, hcalled⟩ := hwaiting [] called caller [] hframes
      rcases htrace with ⟨builtin, -, htrace⟩ | ⟨-, htrace⟩
      · obtain ⟨-, rfl⟩ := List.cons.inj htrace
        cases hline
        exact hcalled
      · subst htrace
        cases hline

end Machine

end Stacklang
