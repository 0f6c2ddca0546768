import Stacklang.Proofs.Compile.Situated

namespace Stacklang.Compile

open Machine Fallible Instruction

variable {pool : Array Constant} {home : Home} {α β : Type}

theorem Situated.goto {stage : Stage} {situation : Situation} {frame : Frame} {slots : List Value}
    {globals : Array Value} (situated : Situated pool home stage situation frame slots globals)
    (ip : Nat) : Situated pool home stage situation { frame with ip } slots globals := by
  refine ⟨situated.place, situated.numbered, situated.globals, ?_⟩
  have hlocals := situated.locals
  cases hcase : situation.locals? with
  | none =>
      rw [hcase] at hlocals
      exact hlocals
  | some locals =>
      rw [hcase] at hlocals
      obtain ⟨hinside, hcount, hagree⟩ := hlocals
      exact ⟨hinside, hcount, hagree.own, hagree.captured, hagree.free⟩

theorem Situated.move {stage : Stage} {situation : Situation} {frame : Frame} {slots : List Value}
    {globals : Array Value} (situated : Situated pool home stage situation frame slots globals)
    (world : World) :
    Situated pool home stage { situation with world } frame slots globals :=
  ⟨situated.place, situated.numbered, situated.globals, situated.locals⟩

/-- The situation of an evaluation at a stage is found in a machine: the values of names, and a stack
with the values of the calls that wait, the slots of the locals, and further values. -/
structure Agrees (pool : Array Constant) (home : Home) (stage : Stage) (situation : Situation)
    (machine : Machine) (below slots temps : List Value) : Prop where
  constants : machine.constants = pool
  number : machine.pool = 0
  stack : machine.Stacks (below ++ slots ++ temps)
  base : machine.frame.base = below.length
  count : slots.length = home.slots
  world : machine.world = situation.world
  calls : stage.scope.isTopLevel = false → machine.callers ≠ [] ∧ below ≠ []
  situated : Situated pool home stage situation machine.frame slots machine.globals

structure Returns (pool : Array Constant) (home : Home) (below : List Value)
    (before after : Machine) (situation : Situation) (value : Datum) : Prop where
  alike : Alike before after
  number : after.pool = before.pool
  callers : before.callers = after.frame :: after.callers
  stack : ∃ found, after.Stacks (below.dropLast ++ [found]) ∧ value.Related (link pool) found
  world : after.world = situation.world
  globals : GlobalsAgree pool situation.globals after.globals
  count : situation.globals.length = home.globals

/-- In at most so many steps, a machine comes to where a result of an evaluation says. Nothing is said
of a machine where an evaluation reads what is not set or goes too deep. -/
def Leads (pool : Array Constant) (home : Home) (below : List Value) (bound : Nat)
    (machine : Machine) (done : α → Situation → Machine → Prop) : Except Exit α × Situation → Prop
  | (.ok result, situation) => ∃ after, Reaches bound machine after ∧ Near machine after ∧
      after.sp ≤ machine.sp + bound ∧ done result situation after
  | (.error (.returned value), situation) => ∃ after, Reaches bound machine after ∧
      Returns pool home below machine after situation value
  | (.error (.fault fault), situation) => ∃ error after, Fails bound machine error after ∧
      error.fault = fault ∧ after.world = situation.world ∧
      GlobalsAgree pool situation.globals after.globals
  | (.error .undefined, _) => False
  | (.error .unset, _) | (.error .unfinished, _) => True

theorem Leads.from {below : List Value} {bound more : Nat} {machine after : Machine}
    {done : α → Situation → Machine → Prop} {result : Except Exit α × Situation}
    (reaches : Reaches bound machine after) (near : Near machine after)
    (hheight : after.sp ≤ machine.sp + bound) (leads : Leads pool home below more after done result) :
    Leads pool home below (bound + more) machine done result := by
  obtain ⟨outcome, situation⟩ := result
  cases outcome with
  | ok value =>
      obtain ⟨last, hreaches, hnear, hlast, hdone⟩ := leads
      exact ⟨last, reaches.trans hreaches, near.trans hnear, by omega, hdone⟩
  | error exit =>
      cases exit with
      | returned value =>
          obtain ⟨last, hreaches, hreturns⟩ := leads
          refine ⟨last, reaches.trans hreaches, ?_⟩
          exact ⟨near.alike.trans hreturns.alike, hreturns.number.trans near.pool,
            near.callers.symm.trans hreturns.callers, hreturns.stack, hreturns.world,
            hreturns.globals, hreturns.count⟩
      | fault fault =>
          obtain ⟨error, last, hfails, hrest⟩ := leads
          exact ⟨error, last, reaches.fails hfails, hrest⟩
      | undefined => cases leads
      | unset => trivial
      | unfinished => trivial

theorem Leads.mono {below : List Value} {bound more : Nat} {machine : Machine}
    {done done' : α → Situation → Machine → Prop} {result : Except Exit α × Situation}
    (leads : Leads pool home below bound machine done result) (hmore : bound ≤ more)
    (hdone : ∀ value situation after, done value situation after → done' value situation after) :
    Leads pool home below more machine done' result := by
  obtain ⟨outcome, situation⟩ := result
  cases outcome with
  | ok value =>
      obtain ⟨last, hreaches, hnear, hlast, h⟩ := leads
      exact ⟨last, hreaches.mono hmore, hnear, by omega, hdone _ _ _ h⟩
  | error exit =>
      cases exit with
      | returned value =>
          obtain ⟨last, hreaches, hreturns⟩ := leads
          exact ⟨last, hreaches.mono hmore, hreturns⟩
      | fault fault =>
          obtain ⟨error, last, hfails, hrest⟩ := leads
          exact ⟨error, last, hfails.mono hmore, hrest⟩
      | undefined => cases leads
      | unset => trivial
      | unfinished => trivial

theorem Leads.error {below : List Value} {bound : Nat} {machine : Machine}
    {done : α → Situation → Machine → Prop} {done' : β → Situation → Machine → Prop} {exit : Exit}
    {situation : Situation} (leads : Leads pool home below bound machine done (.error exit, situation)) :
    Leads pool home below bound machine done' (.error exit, situation) := by
  cases exit <;> exact leads

theorem forall₂_append {γ δ : Type} {R : γ → δ → Prop} {left right : List γ} {values : List δ}
    (related : List.Forall₂ R (left ++ right) values) :
    ∃ lower upper, values = lower ++ upper ∧ List.Forall₂ R left lower ∧
      List.Forall₂ R right upper := by
  induction left generalizing values with
  | nil => exact ⟨[], values, rfl, .nil, related⟩
  | cons first rest ih =>
      cases related with
      | cons hfirst hrest =>
          obtain ⟨lower, upper, rfl, hlower, hupper⟩ := ih hrest
          exact ⟨_ :: lower, upper, rfl, .cons hfirst hlower, hupper⟩

/-- What is wanted on top of the stack, and of the value most recently taken from it. -/
structure Top where
  data : List Datum
  popped : Option Datum

namespace Top

def of (data : List Datum) : Top := ⟨data, none⟩

def Holds (pool : Array Constant) (top : Top) (values : List Value) (machine : Machine) : Prop :=
  List.Forall₂ (Value.Related (link pool)) top.data values ∧
    ∀ value, top.popped = some value → value.Related (link pool) machine.lastPopped

theorem holds_of {data : List Datum} {values : List Value} {machine : Machine}
    (hvalues : List.Forall₂ (Value.Related (link pool)) data values) :
    (of data).Holds pool values machine :=
  ⟨hvalues, by simp [of]⟩

end Top

/-- Where a machine is behind some code: past it, in the situation that the evaluation has come to,
with what is wanted on top of the stack. -/
def Behind (pool : Array Constant) (home : Home) (finish : Stage) (below temps : List Value)
    (offset : Nat) (top : α → Top) (result : α) (situation : Situation) (machine : Machine) : Prop :=
  ∃ slots values, machine.frame.ip = offset ∧
    Agrees pool home finish situation machine below slots (temps ++ values) ∧
    (top result).Holds pool values machine

/-- The code does what the step does: whatever the situation, a machine that agrees with it and has
enough room comes to where the result of the step says. -/
def Simulates (pool : Array Constant) (home : Home) (before : Top) (step : EvalM α)
    (after : α → Top) (stage : Stage) (offset : Nat) (code : List Instruction) (finish : Stage) :
    Prop :=
  ∀ situation, ∃ bound, ∀ machine below slots temps values,
    Agrees pool home stage situation machine below slots (temps ++ values) →
    before.Holds pool values machine → machine.frame.ip = offset →
    machine.frame.template.code.Holds offset code → machine.Room bound →
    Leads pool home below bound machine
      (Behind pool home finish below temps (offset + sizeAll code) after) (step.run situation)

theorem Near.code {before after : Machine} (near : Near before after) :
    after.frame.template.code = before.frame.template.code := by
  rw [near.frame]

theorem Simulates.bind {before : Top} {middle : α → Top} {after : β → Top} {step : EvalM α}
    {next : α → EvalM β} {stage halfway finish : Stage} {offset : Nat}
    {code code' : List Instruction} (hfits : ∀ instruction ∈ code, instruction.Fits)
    (hstep : Simulates pool home before step middle stage offset code halfway)
    (hnext : ∀ result, (∃ situation later, step.run situation = (.ok result, later)) →
      Simulates pool home (middle result) (next result) after halfway (offset + sizeAll code) code'
        finish) :
    Simulates pool home before (step >>= next) after stage offset (code ++ code') finish := by
  intro situation
  obtain ⟨bound, hfirst⟩ := hstep situation
  cases hrun : step.run situation with
  | mk outcome later =>
      rw [hrun] at hfirst
      cases outcome with
      | error exit =>
          refine ⟨bound, fun machine below slots temps values agrees htop hip hcode room => ?_⟩
          rw [run_bind, hrun]
          exact (hfirst machine below slots temps values agrees htop hip hcode.left room).error
      | ok result =>
          obtain ⟨more, hsecond⟩ := hnext result ⟨situation, later, hrun⟩ later
          refine ⟨bound + more, fun machine below slots temps values agrees htop hip hcode room => ?_⟩
          obtain ⟨halfway, hreaches, hnear, hheight, slots', values', hip', hagrees, htop'⟩ :=
            hfirst machine below slots temps values agrees htop hip hcode.left
              (room.mono (Nat.le_add_right _ _))
          rw [run_bind, hrun]
          have hleads := hsecond halfway below slots' temps values' hagrees htop' hip'
            (by rw [Near.code hnear]; exact hcode.right hfits) (room.after hreaches hnear hheight)
          rw [sizeAll_append, ← Nat.add_assoc]
          exact Leads.from hreaches hnear hheight hleads

/-- What lies deeper on the stack does not matter. -/
theorem Simulates.beneath {data : List Datum} {results : α → List Datum} {step : EvalM α}
    {stage finish : Stage} {offset : Nat} {code : List Instruction}
    (hstep : Simulates pool home (.of data) step (.of ∘ results) stage offset code finish)
    (deeper : List Datum) :
    Simulates pool home (.of (deeper ++ data)) step (fun result => .of (deeper ++ results result))
      stage offset code finish := by
  intro situation
  obtain ⟨bound, hleads⟩ := hstep situation
  refine ⟨bound, fun machine below slots temps values agrees htop hip hcode room => ?_⟩
  obtain ⟨lower, upper, rfl, hlower, hupper⟩ := forall₂_append htop.1
  rw [← List.append_assoc] at agrees
  refine (hleads machine below slots (temps ++ lower) upper agrees (Top.holds_of hupper) hip hcode
    room).mono (Nat.le_refl _) ?_
  rintro result later after ⟨slots', values', hip', hagrees, hvalues, -⟩
  rw [List.append_assoc] at hagrees
  exact ⟨slots', lower ++ values', hip', hagrees, Top.holds_of (List.rel_append hlower hvalues)⟩

theorem simulates_pure {before : Top} {after : α → Top} {stage : Stage} {offset : Nat} (result : α)
    (hafter : ∀ values machine, before.Holds pool values machine →
      (after result).Holds pool values machine) :
    Simulates pool home before (pure result) after stage offset [] stage := by
  refine fun situation => ⟨0, fun machine below slots temps values agrees htop hip hcode room => ?_⟩
  exact ⟨machine, .refl _ _, .refl _, Nat.le_refl _, slots, values, hip, agrees,
    hafter values machine htop⟩

theorem Simulates.map {before : Top} {middle : α → Top} {after : β → Top} {step : EvalM α}
    {stage finish : Stage} {offset : Nat} {code : List Instruction}
    (hfits : ∀ instruction ∈ code, instruction.Fits)
    (hstep : Simulates pool home before step middle stage offset code finish) (make : α → β)
    (hafter : ∀ result values machine, (middle result).Holds pool values machine →
      (after (make result)).Holds pool values machine) :
    Simulates pool home before (step >>= fun result => pure (make result)) after stage offset code
      finish := by
  have hmapped := hstep.bind hfits fun result _ =>
    simulates_pure (make result) (hafter result)
  rwa [List.append_nil] at hmapped

theorem Simulates.weaken {before stronger : Top} {step : EvalM α} {after : α → Top}
    {stage finish : Stage} {offset : Nat} {code : List Instruction}
    (hstep : Simulates pool home before step after stage offset code finish)
    (hbefore : ∀ values machine, stronger.Holds pool values machine →
      before.Holds pool values machine) :
    Simulates pool home stronger step after stage offset code finish := by
  intro situation
  obtain ⟨bound, hleads⟩ := hstep situation
  refine ⟨bound, fun machine below slots temps values agrees htop => ?_⟩
  exact hleads machine below slots temps values agrees (hbefore values machine htop)

theorem Agrees.alike {stage : Stage} {situation : Situation} {machine : Machine}
    {below slots temps : List Value} {scope : Scope}
    (agrees : Agrees pool home stage situation machine below slots temps)
    (alike : stage.scope.Alike scope) :
    Agrees pool home ⟨scope, stage.constants⟩ situation machine below slots temps :=
  { agrees with
    calls := fun hinside => agrees.calls (alike.top ▸ hinside)
    situated := agrees.situated.alike alike }

theorem Simulates.alike {before : Top} {step : EvalM α} {after : α → Top} {stage finish : Stage}
    {offset : Nat} {code : List Instruction} {scope : Scope} (alike : stage.scope.Alike scope)
    (hstep : Simulates pool home before step after ⟨scope, stage.constants⟩ offset code finish) :
    Simulates pool home before step after stage offset code finish := by
  intro situation
  obtain ⟨bound, hleads⟩ := hstep situation
  refine ⟨bound, fun machine below slots temps values agrees => ?_⟩
  exact hleads machine below slots temps values (agrees.alike alike)

/-! Single instructions. -/

def Reports (stop : Stop) (fault : Fault) : Prop :=
  stop = .fault fault ∨ ∃ builtin, stop = .builtinFault builtin fault

theorem Reports.outcome {stop : Stop} {fault : Fault} (reports : Reports stop fault)
    (machine : Machine) :
    ∃ error, machine.outcome stop = .failed error ∧ error.fault = fault := by
  rcases reports with rfl | ⟨builtin, rfl⟩ <;> exact ⟨_, rfl, rfl⟩

/-- What executing an instruction in a machine is to do, for a step of an evaluation with the given
result. -/
def Performs (pool : Array Constant) (instruction : Instruction) (machine : Machine)
    (done : α → Situation → Machine → Prop) (globals : Array Value) :
    Except Exit α × Situation → Prop
  | (.ok result, situation) => ∃ after,
      (execute instruction).run (machine.advance instruction) = (.ok (), after) ∧
      after.steps = machine.steps + 1 ∧ Near machine after ∧ after.sp ≤ machine.sp + 1 ∧
      done result situation after
  | (.error (.fault fault), situation) => ∃ stop after,
      (execute instruction).run (machine.advance instruction) = (.error stop, after) ∧
      Reports stop fault ∧ after.world = situation.world ∧ after.globals = globals ∧
      GlobalsAgree pool situation.globals globals
  | (.error (.returned _), _) | (.error .undefined, _) => False
  | (.error .unset, _) | (.error .unfinished, _) => True

theorem simulates_instruction {before : Top} {step : EvalM α} {after : α → Top}
    {stage finish : Stage} {offset : Nat} {instruction : Instruction} (hfits : instruction.Fits)
    (hperforms : ∀ situation machine below slots temps values,
      Agrees pool home stage situation machine below slots (temps ++ values) →
      before.Holds pool values machine → machine.Room 1 →
      Performs pool instruction machine
        (Behind pool home finish below temps (machine.frame.ip + instruction.size) after)
        machine.globals (step.run situation)) :
    Simulates pool home before step after stage offset [instruction] finish := by
  intro situation
  refine ⟨1, fun machine below slots temps values agrees htop hip hcode room => ?_⟩
  have hdone := hperforms situation machine below slots temps values agrees htop room
  have hfetch := hcode.fetch hfits
  rw [← hip] at hfetch
  cases hrun : step.run situation with
  | mk outcome later =>
      rw [hrun] at hdone
      cases outcome with
      | ok result =>
          obtain ⟨last, hexecute, hsteps, hnear, hheight, hbehind⟩ := hdone
          refine ⟨last, reaches_execute room hfetch hexecute hsteps, hnear, hheight, ?_⟩
          rw [hip] at hbehind
          simpa using hbehind
      | error exit =>
          cases exit with
          | returned value => cases hdone
          | undefined => cases hdone
          | fault fault =>
              obtain ⟨stop, last, hexecute, hreports, hworld, hglobals, hagree⟩ := hdone
              obtain ⟨error, houtcome, hfault⟩ := hreports.outcome last
              exact ⟨error, last, fails_execute room hfetch hexecute houtcome, hfault, hworld,
                hglobals ▸ hagree⟩
          | unset => trivial
          | unfinished => trivial

theorem performs_replaced {stage finish : Stage} {situation later : Situation} {machine : Machine}
    {below slots temps values : List Value} {instruction : Instruction} {value : Datum}
    {found : Value} (agrees : Agrees pool home stage situation machine below slots (temps ++ values))
    (room : machine.Room 1)
    (hexecute : (execute instruction).run (machine.advance instruction) =
      (.ok (), (machine.advance instruction).replaced (below ++ slots ++ temps).length found
        later.world))
    (hrelated : value.Related (link pool) found)
    (htop : finish.scope.isTopLevel = stage.scope.isTopLevel)
    (situated : Situated pool home finish later machine.frame slots machine.globals) :
    Performs pool instruction machine
      (Behind pool home finish below temps (machine.frame.ip + instruction.size)
        (fun value => .of [value]))
      machine.globals (.ok value, later) := by
  have hstack := agrees.stack
  rw [← List.append_assoc] at hstack
  have hheight := hstack.height
  rw [List.length_append] at hheight
  have hroom : (below ++ slots ++ temps).length < machine.stack.size := by
    have := room.stack
    omega
  refine ⟨_, hexecute, rfl, (near_advance _ _).trans (near_replaced _ _ _ _), ?_, slots, [found], rfl,
    ?_, Top.holds_of (.cons hrelated .nil)⟩
  · change (below ++ slots ++ temps).length + 1 ≤ _
    omega
  · refine ⟨agrees.constants, agrees.number, ?_, agrees.base, agrees.count, rfl,
      fun hinside => agrees.calls (htop ▸ hinside), situated.goto _⟩
    have hcut : Stacks { machine with sp := (below ++ slots ++ temps).length } _ := hstack.cut
    have hpushed := hcut.push hroom found
    rw [← List.append_assoc]
    exact ⟨hpushed.taken, hpushed.height⟩

/-- What executing an instruction does to the values on the stack above the given height, for a step
of an evaluation that makes one value of them and changes nothing else but the world. -/
def Computes (pool : Array Constant) (instruction : Instruction) (machine : Machine) (height : Nat)
    (situation : Situation) : Except Exit Datum × Situation → Prop
  | (.ok value, later) => ∃ found world,
      (execute instruction).run machine = (.ok (), machine.replaced height found world) ∧
      value.Related (link pool) found ∧ later = { situation with world }
  | (.error (.fault fault), later) => ∃ stop after,
      (execute instruction).run machine = (.error stop, after) ∧ Reports stop fault ∧
      after.world = later.world ∧ after.globals = machine.globals ∧
      later.globals = situation.globals
  | (.error (.returned _), _) | (.error .undefined, _) => False
  | (.error .unset, _) | (.error .unfinished, _) => True

theorem simulates_computation {data : List Datum} {step : EvalM Datum} {stage : Stage} {offset : Nat}
    {instruction : Instruction} (hfits : instruction.Fits)
    (hcomputes : ∀ situation machine rest values,
      machine.Stacks (rest ++ values) → List.Forall₂ (Value.Related (link pool)) data values →
      rest.length < machine.stack.size → machine.world = situation.world →
      Computes pool instruction machine rest.length situation (step.run situation)) :
    Simulates pool home (.of data) step (fun value => .of [value]) stage offset [instruction]
      stage := by
  refine simulates_instruction hfits fun situation machine below slots temps values agrees htop
    room => ?_
  have hstack := agrees.stack
  rw [← List.append_assoc] at hstack
  have hheight := hstack.height
  rw [List.length_append] at hheight
  have hroom : (below ++ slots ++ temps).length < machine.stack.size := by
    have := room.stack
    omega
  have hdone := hcomputes situation (machine.advance instruction) (below ++ slots ++ temps) values
    ⟨hstack.taken, hstack.height⟩ htop.1 hroom agrees.world
  cases hrun : step.run situation with
  | mk outcome later =>
      rw [hrun] at hdone
      cases outcome with
      | ok value =>
          obtain ⟨found, world, hexecute, hrelated, rfl⟩ := hdone
          exact performs_replaced agrees room hexecute hrelated rfl (agrees.situated.move world)
      | error exit =>
          cases exit with
          | returned value => cases hdone
          | undefined => cases hdone
          | fault fault =>
              obtain ⟨stop, last, hexecute, hreports, hworld, hglobals, hsame⟩ := hdone
              refine ⟨stop, last, hexecute, hreports, hworld, hglobals, ?_⟩
              rw [hsame]
              exact agrees.situated.globals
          | unset => trivial
          | unfinished => trivial

end Stacklang.Compile
