import Stacklang.Proofs.Compile.Instructions

namespace Stacklang.Compile

open Machine Fallible Instruction

variable {pool : Array Constant} {home : Home} {α : Type} {stage finish : Stage} {offset : Nat}

/-! Statements. -/

theorem performs_popped {situation later : Situation} {machine : Machine}
    {below slots written temps : List Value} {instruction : Instruction} {value : Datum}
    {found : Value} (stack globals : Array Value)
    (agrees : Agrees pool home stage situation machine below slots (temps ++ [found]))
    (hexecute : (execute instruction).run (machine.advance instruction) =
      (.ok (), { machine.advance instruction with
        stack, sp := (below ++ slots ++ temps).length, globals }))
    (hstack : stack.size = machine.stack.size) (hglobals : globals.size = machine.globals.size)
    (hstacks : Stacks { machine with stack, sp := (below ++ slots ++ temps).length }
      (below ++ written ++ temps))
    (hwritten : written.length = slots.length)
    (hlast : stack.getD (below ++ slots ++ temps).length .null = found)
    (hrelated : value.Related (link pool) found) (hworld : later.world = situation.world)
    (htop : finish.scope.isTopLevel = stage.scope.isTopLevel)
    (situated : Situated pool home finish later machine.frame written globals) :
    Performs pool instruction machine
      (Behind pool home finish below temps (machine.frame.ip + instruction.size)
        (fun value => ⟨[], some value⟩))
      machine.globals (.ok value, later) := by
  have hheight := agrees.stack.height
  rw [← List.append_assoc, List.length_append] at hheight
  refine ⟨_, hexecute, rfl, ⟨⟨hstack, hglobals, rfl, rfl⟩, rfl, rfl, rfl⟩, ?_, written, [], rfl, ?_,
    .nil, ?_⟩
  · change (below ++ slots ++ temps).length ≤ machine.sp + 1
    omega
  · rw [List.append_nil]
    exact ⟨agrees.constants, agrees.number, ⟨hstacks.taken, hstacks.height⟩, agrees.base,
      hwritten.trans agrees.count, agrees.world.trans hworld.symm,
      fun hinside => agrees.calls (htop ▸ hinside), situated.goto _⟩
  · rintro _ ⟨⟩
    change value.Related (link pool) (stack.getD (below ++ slots ++ temps).length .null)
    rwa [hlast]

theorem simulates_pop (value : Datum) :
    Simulates pool home (.of [value]) (pure value) (fun value => ⟨[], some value⟩) stage offset
      [⟨.pop, []⟩] stage := by
  refine simulates_instruction (fits_nil rfl) fun situation machine below slots temps values agrees
    htop room => ?_
  obtain ⟨found, rfl, hrelated⟩ := forall₂_one htop.1
  have hstack : (machine.advance ⟨.pop, []⟩).Stacks (below ++ slots ++ temps ++ [found]) := by
    rw [List.append_assoc (below ++ slots)]
    exact ⟨agrees.stack.taken, agrees.stack.height⟩
  refine performs_popped machine.stack machine.globals agrees ?_ rfl rfl
    ⟨hstack.cut.taken, hstack.cut.height⟩ rfl hstack.top hrelated rfl rfl agrees.situated
  change (discard pop).run _ = _
  rw [run_discard, pop_run hstack]
  rfl

@[simp] theorem world_bind (situation : Situation) (name : String) (cell : Option Datum) :
    (situation.bind name cell).world = situation.world := by
  unfold Situation.bind
  split <;> rfl

theorem simulates_store {name : String} {value : Datum} (valid : stage.scope.Valid)
    (houses : Houses pool home ⟨(stage.scope.define name).2, stage.constants⟩)
    (hfits : (stage.scope.define name).1.store.Fits) :
    Simulates pool home (.of [value])
      (do
        Evaluate.bind name (some value)
        return value)
      (fun value => ⟨[], some value⟩) stage offset [(stage.scope.define name).1.store]
      ⟨(stage.scope.define name).2, stage.constants⟩ := by
  refine simulates_instruction hfits fun situation machine below slots temps values agrees htop
    room => ?_
  obtain ⟨found, rfl, hrelated⟩ := forall₂_one htop.1
  generalize hstore : (stage.scope.define name).1.store = instruction at hfits ⊢
  have hstack : (machine.advance instruction).Stacks (below ++ slots ++ temps ++ [found]) := by
    rw [List.append_assoc (below ++ slots)]
    exact ⟨agrees.stack.taken, agrees.stack.height⟩
  have hinside := hstack.inside
  have hheight := hstack.height
  rw [List.length_append, List.length_singleton] at hheight
  change _ = machine.sp at hheight
  change machine.sp ≤ machine.stack.size at hinside
  obtain ⟨⟨table, outer⟩, constants⟩ := stage
  cases outer with
  | nil =>
      obtain rfl : instruction = ⟨.setGlobal, [table.definitions]⟩ := hstore.symm
      have hindex : table.definitions < machine.globals.size := by
        have hbound := hfits.2 (table.definitions, .word) (by simp [Opcode.widths])
        have hroom := room.globals
        simp only [Width.maximum] at hbound
        simp only [maxGlobals] at hroom
        omega
      refine performs_popped machine.stack
        (machine.globals.setIfInBounds table.definitions found) agrees ?_ rfl (by simp)
        ⟨hstack.cut.taken, hstack.cut.height⟩ rfl hstack.top hrelated (world_bind _ _ _) rfl
        (agrees.situated.define valid name (some value) (by simp [Scope.isTopLevel])
          fun _ => ⟨?_, fun index hne => ?_⟩)
      · exact setGlobal_run hstack hindex
      · simpa [hindex] using hrelated
      · rw [Array.getElem?_setIfInBounds_ne hne.symm]
  | cons next rest =>
      obtain rfl : instruction = ⟨.setLocal, [table.definitions]⟩ := hstore.symm
      have hslot : table.definitions < slots.length := by
        have hslots := houses.slots rfl
        rw [agrees.count]
        exact hslots
      have hset : (below ++ slots ++ temps).set (below.length + table.definitions) found =
          below ++ slots.set table.definitions found ++ temps := by
        rw [List.append_assoc, List.set_append_right _ _ (by omega), Nat.add_sub_cancel_left,
          List.set_append_left _ _ hslot, List.append_assoc]
      have hcut : Stacks { machine with sp := (below ++ slots ++ temps).length } _ :=
        ⟨hstack.cut.taken, hstack.cut.height⟩
      have hwritten := hcut.set (below.length + table.definitions) found
      rw [hset] at hwritten
      refine performs_popped
        (machine.stack.setIfInBounds (below.length + table.definitions) found) machine.globals agrees
        ?_ (by simp) rfl hwritten (by simp) ?_ hrelated (world_bind _ _ _) rfl
        (agrees.situated.define valid name (some value)
          (fun _ => ⟨rfl, ?_, fun index hindex => ?_⟩) (by simp [Scope.isTopLevel]))
      · have hbase : (machine.advance ⟨.setLocal, [table.definitions]⟩).frame.base = below.length :=
          agrees.base
        have hsize : below.length + table.definitions < machine.stack.size := by
          simp only [List.length_append] at hheight
          omega
        rw [← hbase] at hsize
        rw [← hbase]
        exact setLocal_run hstack hsize
      · rw [Array.getD_eq_getD_getElem?, Array.getElem?_setIfInBounds_ne,
          ← Array.getD_eq_getD_getElem?]
        · exact hstack.top
        · simp only [List.length_append]
          omega
      · rintro _ ⟨⟩
        exact ⟨found, by simp [hslot], hrelated⟩
      · rw [List.getElem?_set_ne (Nat.ne_of_gt hindex)]

/-! Returns. -/

theorem leads_return {situation : Situation} {machine : Machine}
    {below slots temps more : List Value} {instruction : Instruction} {value : Datum}
    {found : Value} {sp : Nat} {done : α → Situation → Machine → Prop}
    (hinside : stage.scope.isTopLevel = false)
    (agrees : Agrees pool home stage situation machine below slots temps) (room : machine.Room 1)
    (hfetch : machine.frame.template.code.fetch? machine.frame.ip = some (.ok instruction))
    (hexecute : (execute instruction).run (machine.advance instruction) =
      (leave found).run { machine.advance instruction with sp })
    (hstacks : Stacks { machine with sp } (below ++ more))
    (hrelated : value.Related (link pool) found) :
    Leads pool home below 1 machine done (.error (.returned value), situation) := by
  obtain ⟨hcallers, hbelow⟩ := agrees.calls hinside
  obtain ⟨caller, callers, hcallers⟩ := List.exists_cons_of_ne_nil hcallers
  have hadvanced : Stacks { machine.advance instruction with sp } (below ++ more) :=
    ⟨hstacks.taken, hstacks.height⟩
  have hrun := hexecute.trans (leave_run hadvanced agrees.base hbelow hcallers found)
  refine ⟨_, reaches_execute room hfetch hrun rfl,
    ⟨Array.size_setIfInBounds, rfl, rfl, rfl⟩, rfl, hcallers, ⟨found, ?_, hrelated⟩, agrees.world,
    agrees.situated.globals, ?_⟩
  · rw [← List.dropLast_append_getLast hbelow, List.append_assoc] at hstacks
    have hroom : below.dropLast.length < machine.stack.size := by
      have hheight := hstacks.height
      have hinside := hstacks.inside
      simp only [List.length_append, List.length_cons] at hheight
      change sp ≤ machine.stack.size at hinside
      change _ = sp at hheight
      omega
    have hpushed := hstacks.cut.push hroom found
    exact ⟨hpushed.taken, hpushed.height⟩
  · have hlocals := agrees.situated.locals
    cases hcase : situation.locals? with
    | none =>
        rw [hcase, hinside] at hlocals
        cases hlocals.1
    | some locals =>
        rw [hcase] at hlocals
        exact hlocals.2.1

theorem simulates_returnValue {after : α → Top} (hinside : stage.scope.isTopLevel = false)
    (value : Datum) :
    Simulates pool home (.of [value]) (throw (.returned value)) after stage offset
      [⟨.returnValue, []⟩] finish := by
  refine fun situation => ⟨1, fun machine below slots temps values agrees htop hip hcode room => ?_⟩
  obtain ⟨found, rfl, hrelated⟩ := forall₂_one htop.1
  have hfetch := hcode.fetch (fits_nil rfl)
  rw [← hip] at hfetch
  have hstack : (machine.advance ⟨.returnValue, []⟩).Stacks (below ++ (slots ++ temps) ++ [found]) := by
    rw [← List.append_assoc below, List.append_assoc (below ++ slots)]
    exact ⟨agrees.stack.taken, agrees.stack.height⟩
  refine leads_return hinside agrees room hfetch ?_ ⟨hstack.cut.taken, hstack.cut.height⟩ hrelated
  change (pop >>= leave).run _ = _
  rw [run_bind, pop_run hstack]

theorem simulates_returnNull {after : α → Top} (hinside : stage.scope.isTopLevel = false) :
    Simulates pool home (.of []) (throw (.returned .null)) after stage offset
      [⟨.returnNull, []⟩] finish := by
  refine fun situation => ⟨1, fun machine below slots temps values agrees htop hip hcode room => ?_⟩
  have hfetch := hcode.fetch (fits_nil rfl)
  rw [← hip] at hfetch
  have hstack := agrees.stack
  rw [List.append_assoc] at hstack
  exact leads_return hinside agrees room hfetch rfl hstack .null

/-! Branches. -/

@[simp] theorem world_passOver (situation : Situation) (names : List String) (literals : Nat) :
    (passOver situation names literals).world = situation.world := by
  induction names with
  | nil => rfl
  | cons name rest ih => exact (world_bind _ _ _).trans ih

theorem simulates_skip {data : List Datum} {statements : List Stmt} (valid : stage.scope.Valid)
    (grows : stage.scope.Grows finish.scope)
    (surveyed : Surveyed (Stmt.surveyAll statements) stage finish) :
    Simulates pool home (.of data) (Evaluate.skip statements) (fun _ => .of data) stage offset []
      finish := by
  refine fun situation => ⟨0, fun machine below slots temps values agrees htop hip hcode room => ?_⟩
  rw [skip_run]
  refine ⟨machine, .refl _ _, .refl _, Nat.le_refl _, slots, values, hip, ?_, htop⟩
  exact { agrees with
    world := agrees.world.trans (world_passOver _ _ _).symm
    calls := fun hinside => agrees.calls (grows.isTopLevel ▸ hinside)
    situated := agrees.situated.passOver valid surveyed }

theorem simulates_jump {before : Top} {after : α → Top} {target : Nat} {code : List Instruction}
    (hfits : Fits ⟨.jump, [target]⟩) (result : α)
    (htarget : target = offset + sizeAll (⟨.jump, [target]⟩ :: code))
    (hafter : ∀ values machine, before.Holds pool values machine →
      (after result).Holds pool values machine) :
    Simulates pool home before (pure result) after stage offset (⟨.jump, [target]⟩ :: code)
      stage := by
  refine fun situation => ⟨1, fun machine below slots temps values agrees htop hip hcode room => ?_⟩
  have hfetch := hcode.fetch hfits
  rw [← hip] at hfetch
  refine ⟨_, reaches_execute room hfetch rfl rfl, ⟨⟨rfl, rfl, rfl, rfl⟩, rfl, rfl, rfl⟩,
    Nat.le_succ _, slots, values, htarget, ?_, hafter values _ htop⟩
  exact ⟨agrees.constants, agrees.number, ⟨agrees.stack.taken, agrees.stack.height⟩, agrees.base,
    agrees.count, agrees.world, agrees.calls, agrees.situated.goto target⟩

theorem reaches_jumpNotTruthy {situation : Situation} {machine : Machine}
    {below slots temps : List Value} {target : Nat} {value : Datum} {found : Value}
    (agrees : Agrees pool home stage situation machine below slots (temps ++ [found]))
    (hrelated : value.Related (link pool) found) (room : machine.Room 1)
    (hfetch : machine.frame.template.code.fetch? machine.frame.ip =
      some (.ok ⟨.jumpNotTruthy, [target]⟩)) :
    ∃ after, Reaches 1 machine after ∧ Near machine after ∧ after.sp ≤ machine.sp + 1 ∧
      after.frame.ip = (if value.isTruthy then
        machine.frame.ip + Instruction.size ⟨.jumpNotTruthy, [target]⟩ else target) ∧
      Agrees pool home stage situation after below slots (temps ++ []) := by
  have hstack : (machine.advance ⟨.jumpNotTruthy, [target]⟩).Stacks
      (below ++ slots ++ temps ++ [found]) := by
    rw [List.append_assoc (below ++ slots)]
    exact ⟨agrees.stack.taken, agrees.stack.height⟩
  have hheight := hstack.height
  rw [List.length_append, List.length_singleton] at hheight
  change _ = machine.sp at hheight
  have hexecute : (execute ⟨.jumpNotTruthy, [target]⟩).run
      (machine.advance ⟨.jumpNotTruthy, [target]⟩) =
      (unless found.isTruthy do jump target : MachineM Unit).run
        { machine.advance ⟨.jumpNotTruthy, [target]⟩ with
          sp := (below ++ slots ++ temps).length } := by
    change (pop >>= fun condition => unless condition.isTruthy do jump target : MachineM Unit).run _ = _
    rw [run_bind, pop_run hstack]
  refine ⟨{ machine.advance ⟨.jumpNotTruthy, [target]⟩ with
      sp := (below ++ slots ++ temps).length
      frame := { machine.frame with
        ip := if value.isTruthy then
          machine.frame.ip + Instruction.size ⟨.jumpNotTruthy, [target]⟩ else target } },
    reaches_execute room hfetch (hexecute.trans ?_) rfl, ⟨⟨rfl, rfl, rfl, rfl⟩, rfl, rfl, rfl⟩, ?_,
    rfl, ?_⟩
  · rw [hrelated.isTruthy]
    cases found.isTruthy <;> rfl
  · change (below ++ slots ++ temps).length ≤ machine.sp + 1
    omega
  · rw [List.append_nil]
    exact ⟨agrees.constants, agrees.number, ⟨hstack.cut.taken, hstack.cut.height⟩, agrees.base,
      agrees.count, agrees.world, agrees.calls, agrees.situated.goto _⟩

theorem simulates_branch {value : Datum} {consequence alternative : EvalM α} {after : α → Top}
    {target : Nat} {code code' : List Instruction} (hfits : Fits ⟨.jumpNotTruthy, [target]⟩)
    (hcode : ∀ instruction ∈ code, instruction.Fits)
    (htarget : target = offset + sizeAll (⟨.jumpNotTruthy, [target]⟩ :: code))
    (hconsequence : Simulates pool home (.of []) consequence after stage
      (offset + Instruction.size ⟨.jumpNotTruthy, [target]⟩) (code ++ code') finish)
    (halternative : Simulates pool home (.of []) alternative after stage target code' finish) :
    Simulates pool home (.of [value]) (if value.isTruthy then consequence else alternative) after
      stage offset (⟨.jumpNotTruthy, [target]⟩ :: (code ++ code')) finish := by
  intro situation
  obtain ⟨bound, hthen⟩ := hconsequence situation
  obtain ⟨bound', helse⟩ := halternative situation
  refine ⟨1 + max bound bound', fun machine below slots temps values agrees htop hip holds room => ?_⟩
  obtain ⟨found, rfl, hrelated⟩ := forall₂_one htop.1
  have hfetch := holds.fetch hfits
  rw [← hip] at hfetch
  obtain ⟨later, hreaches, hnear, hheight, hip', hagrees⟩ :=
    reaches_jumpNotTruthy agrees hrelated (room.mono (Nat.le_add_right _ _)) hfetch
  have hroom := room.after hreaches hnear hheight
  refine Leads.from hreaches hnear hheight ?_
  cases htruthy : value.isTruthy with
  | true =>
      rw [htruthy, if_pos rfl, hip] at hip'
      rw [if_pos rfl, sizeAll_cons, ← Nat.add_assoc]
      refine (hthen later below slots temps [] hagrees (Top.holds_of .nil) hip' ?_
        (hroom.mono (Nat.le_max_left _ _))).mono (Nat.le_max_left _ _) fun _ _ _ hdone => hdone
      rw [Near.code hnear]
      exact holds.tail hfits
  | false =>
      rw [htruthy, if_neg (by simp)] at hip'
      rw [if_neg (by simp)]
      have hsize : offset + sizeAll (⟨.jumpNotTruthy, [target]⟩ :: (code ++ code')) =
          target + sizeAll code' := by
        rw [← List.cons_append, sizeAll_append, ← Nat.add_assoc, ← htarget]
      rw [hsize]
      refine (helse later below slots temps [] hagrees (Top.holds_of .nil) hip' ?_
        (hroom.mono (Nat.le_max_right _ _))).mono (Nat.le_max_right _ _) fun _ _ _ hdone => hdone
      rw [Near.code hnear, htarget]
      refine Code.Holds.right ?_ (by simpa using holds)
      simpa using ⟨hfits, hcode⟩

end Stacklang.Compile
